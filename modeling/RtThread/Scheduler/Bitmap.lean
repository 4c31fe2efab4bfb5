import RtThread.Scheduler.Schedule

namespace RtThread.Scheduler

open Function RtThread.Lib

namespace ReadyQueue

def marks (cfg : Config) (q : ReadyQueue) (priority : Nat) : Bool :=
  if cfg.twoLevel then
    (q.readyTable (priority / 8)).getLsbD (priority % 8)
  else q.priorityGroup.getLsbD priority

/-- The representation invariant of a ready queue: the bitmap says that a
priority is ready exactly when its list is not empty, and in the two-level
layout a group bit stands for a `ready_table` byte that is not zero. -/
structure BitmapOk (cfg : Config) (q : ReadyQueue) : Prop where
  marks_iff : ∀ priority < cfg.priorityMax,
    q.marks cfg priority = true ↔ q.priorityTable priority ≠ []
  group_iff : cfg.twoLevel = true → ∀ priority < cfg.priorityMax,
    q.priorityGroup.getLsbD (priority / 8) = true ↔
      q.readyTable (priority / 8) ≠ 0

/-- `BitmapOk` without the bound: no bit is set for a priority that does not
exist. -/
structure BitmapExact (cfg : Config) (q : ReadyQueue) : Prop where
  marks_iff : ∀ priority, q.marks cfg priority = true ↔ q.priorityTable priority ≠ []
  group_iff : cfg.twoLevel = true → ∀ number,
    q.priorityGroup.getLsbD number = true ↔ q.readyTable number ≠ 0

theorem BitmapExact.bitmapOk {cfg : Config} {q : ReadyQueue}
    (hexact : q.BitmapExact cfg) : q.BitmapOk cfg :=
  ⟨fun p _ => hexact.marks_iff p, fun htwo p _ => hexact.group_iff htwo (p / 8)⟩

theorem empty_bitmapExact (cfg : Config) : empty.BitmapExact cfg := by
  constructor
  · intro priority
    simp [marks, empty]
  · intro _ number
    simp [empty]

end ReadyQueue

theorem Config.priority_lt_32 {cfg : Config} (hflat : cfg.twoLevel = false)
    {priority : Nat} (hlt : priority < cfg.priorityMax) : priority < 32 := by
  simp only [Config.twoLevel, decide_eq_false_iff_not] at hflat
  omega

theorem Config.priority_div_lt {cfg : Config} {priority : Nat}
    (hlt : priority < cfg.priorityMax) : priority / 8 < 32 := by
  have := cfg.priorityMax_le
  omega

namespace ReadyQueue

section Update

variable {cfg : Config} {q : ReadyQueue} {thread : Thread}

theorem marks_enqueue (t : Tid) (hmasks : thread.MasksOk cfg)
    (hlt : thread.currentPriority < cfg.priorityMax) (p : Nat) :
    (q.enqueue cfg thread t).marks cfg p =
      (q.marks cfg p || decide (p = thread.currentPriority)) := by
  cases htwo : cfg.twoLevel with
  | false =>
    simp only [marks, enqueue, htwo, Bool.false_eq_true, if_false, hmasks.flat htwo]
    exact getLsbD_or_mask _ (Config.priority_lt_32 htwo hlt) p
  | true =>
    simp only [marks, enqueue, htwo, if_true, hmasks.number htwo, hmasks.highMask htwo]
    by_cases hbyte : p / 8 = thread.currentPriority / 8
    · rw [hbyte, update_self, getLsbD_or_mask _ (Nat.mod_lt _ (by decide))]
      congr 2
      rw [eq_iff_iff]
      omega
    · rw [update_of_ne hbyte]
      have hne : p ≠ thread.currentPriority := by
        rintro rfl
        exact hbyte rfl
      simp [hne]

theorem enqueue_bitmapExact (t : Tid) (hexact : q.BitmapExact cfg)
    (hmasks : thread.MasksOk cfg)
    (hlt : thread.currentPriority < cfg.priorityMax) :
    (q.enqueue cfg thread t).BitmapExact cfg := by
  constructor
  · intro p
    rw [marks_enqueue t hmasks hlt, Bool.or_eq_true, hexact.marks_iff]
    by_cases hp : p = thread.currentPriority
    · simp [enqueue, hp]
    · simp [enqueue, hp]
  · intro htwo n
    have hnumber : thread.number < 32 := by
      rw [hmasks.number htwo]
      exact Config.priority_div_lt hlt
    simp only [enqueue, htwo, if_true, hmasks.numberMask htwo, hmasks.highMask htwo]
    rw [getLsbD_or_mask _ hnumber, Bool.or_eq_true, hexact.group_iff htwo]
    by_cases hn : n = thread.number
    · have hne := or_mask_ne_zero (q.readyTable thread.number)
        (Nat.mod_lt thread.currentPriority (by decide : 8 > 0))
      simpa [hn] using hne
    · simp [hn]

theorem marks_clearBits (tested : BitVec 8) (hmasks : thread.MasksOk cfg)
    (hlt : thread.currentPriority < cfg.priorityMax) (p : Nat) :
    (q.clearBits cfg thread tested).marks cfg p =
      (q.marks cfg p && decide (p ≠ thread.currentPriority)) := by
  cases htwo : cfg.twoLevel with
  | false =>
    simp only [marks, clearBits, htwo, Bool.false_eq_true, if_false, hmasks.flat htwo]
    exact getLsbD_and_not_mask _ (Config.priority_lt_32 htwo hlt) p
  | true =>
    simp only [marks, clearBits, htwo, if_true, hmasks.number htwo, hmasks.highMask htwo]
    by_cases hbyte : p / 8 = thread.currentPriority / 8
    · rw [hbyte, update_self, getLsbD_and_not_mask _ (Nat.mod_lt _ (by decide))]
      congr 2
      rw [eq_iff_iff]
      omega
    · rw [update_of_ne hbyte]
      have hne : p ≠ thread.currentPriority := by
        rintro rfl
        exact hbyte rfl
      simp [hne]

/-- What has to hold of the byte the code tests for the group word to come out
right. -/
def TestAgrees (q : ReadyQueue) (thread : Thread) (tested : BitVec 8) : Prop :=
  let before := q.readyTable thread.number
  let after := before &&& ~~~thread.highMask
  if tested = 0 then after = 0 else before = 0 ∨ after ≠ 0

theorem testAgrees_own (q : ReadyQueue) (thread : Thread) :
    q.TestAgrees thread (q.readyTable thread.number &&& ~~~thread.highMask) := by
  unfold TestAgrees
  split
  next hzero => exact hzero
  next hne => exact .inr hne

/-- Clearing the bits of the list that was just emptied.  `old` is the queue
before the unlinking: its bitmap was exact and the other lists are the same. -/
theorem clearBits_bitmapExact {old : ReadyQueue} {tested : BitVec 8}
    (hexact : old.BitmapExact cfg)
    (hgroup : q.priorityGroup = old.priorityGroup)
    (htable : q.readyTable = old.readyTable)
    (hother : ∀ p, p ≠ thread.currentPriority →
      q.priorityTable p = old.priorityTable p)
    (hempty : q.priorityTable thread.currentPriority = [])
    (hmasks : thread.MasksOk cfg)
    (hlt : thread.currentPriority < cfg.priorityMax)
    (hagrees : cfg.twoLevel = true → q.TestAgrees thread tested) :
    (q.clearBits cfg thread tested).BitmapExact cfg := by
  have hmarks : ∀ p, q.marks cfg p = old.marks cfg p := by
    intro p
    simp [marks, hgroup, htable]
  have htables : (q.clearBits cfg thread tested).priorityTable = q.priorityTable := by
    unfold clearBits
    split <;> rfl
  constructor
  · intro p
    rw [marks_clearBits tested hmasks hlt, hmarks, Bool.and_eq_true, hexact.marks_iff, htables]
    by_cases hp : p = thread.currentPriority
    · simp [hp, hempty]
    · simp [hp, hother p hp]
  · intro htwo n
    have hnumber : thread.number < 32 := by
      rw [hmasks.number htwo]
      exact Config.priority_div_lt hlt
    have hold : ∀ n, q.priorityGroup.getLsbD n = true ↔ q.readyTable n ≠ 0 := by
      intro n
      rw [hgroup, htable]
      exact hexact.group_iff htwo n
    have htest := hagrees htwo
    unfold TestAgrees at htest
    simp only [clearBits, htwo, if_true]
    by_cases hn : n = thread.number
    · subst hn
      rw [update_self]
      split
      next hzero =>
        rw [if_pos hzero] at htest
        rw [hmasks.numberMask htwo, getLsbD_and_not_mask _ hnumber]
        simp [htest]
      next hne =>
        rw [if_neg hne] at htest
        rw [hold]
        constructor
        · intro hbefore
          exact htest.resolve_left hbefore
        · rintro hafter hbefore
          exact hafter (by simp [hbefore])
    · rw [update_of_ne hn, ← hold n]
      split
      · rw [hmasks.numberMask htwo, getLsbD_and_not_mask _ hnumber]
        simp [hn]
      · rfl

end Update

section Highest

variable {cfg : Config} {q : ReadyQueue}

theorem highestReadyPriority_of_group_eq_zero (cfg : Config) (hzero : q.priorityGroup = 0) :
    256 ≤ q.highestReadyPriority cfg := by
  unfold highestReadyPriority
  split
  · have hffs : ∀ byte : BitVec 8, rtFfs (byte.setWidth 32) ≤ 8 := by decide +kernel
    have hbyte := hffs (q.tableAt cfg (ubasePred (rtFfs q.priorityGroup)))
    simp only [hzero, rtFfs_zero, ubasePred] at hbyte ⊢
    omega
  · rw [hzero, rtFfs_zero, ubasePred]
    decide

theorem highestReadyPriority_spec (hexact : q.BitmapExact cfg)
    (hne : q.priorityGroup ≠ 0) :
    q.priorityTable (q.highestReadyPriority cfg) ≠ [] ∧
      ∀ better < q.highestReadyPriority cfg, q.priorityTable better = [] := by
  obtain ⟨i, hffs, hlowest⟩ := rtFfs_spec hne
  have hi := hlowest.lt
  have hpred : ubasePred (i + 1) = i := by
    unfold ubasePred
    omega
  cases htwo : cfg.twoLevel with
  | false =>
    have hhigh : q.highestReadyPriority cfg = i := by
      simp [highestReadyPriority, htwo, hffs, hpred]
    rw [hhigh]
    have hmarks : ∀ p, q.marks cfg p = q.priorityGroup.getLsbD p := by
      intro p
      simp [marks, htwo]
    refine ⟨(hexact.marks_iff i).mp (by rw [hmarks]; exact hlowest.set), ?_⟩
    intro better hbetter
    by_contra hfull
    have hset := (hexact.marks_iff better).mpr hfull
    rw [hmarks, hlowest.clear better hbetter] at hset
    exact absurd hset (by decide)
  | true =>
    have hbyte : (q.readyTable i).setWidth 32 ≠ 0 := by
      intro hzero
      refine (hexact.group_iff htwo i).mp hlowest.set ?_
      apply BitVec.eq_of_getLsbD_eq
      intro j hj
      have hbit : ((q.readyTable i).setWidth 32).getLsbD j = false := by
        simp [hzero]
      rw [BitVec.getLsbD_setWidth] at hbit
      simpa [show j < 32 by omega] using hbit
    obtain ⟨j, hffsByte, hlowestByte⟩ := rtFfs_spec hbyte
    have hgetByte : ∀ bit, bit < 32 →
        ((q.readyTable i).setWidth 32).getLsbD bit = (q.readyTable i).getLsbD bit := by
      intro bit hbit
      rw [BitVec.getLsbD_setWidth]
      simp [hbit]
    have hset := hlowestByte.set
    rw [hgetByte j hlowestByte.lt] at hset
    have hj : j < 8 := by
      by_contra hge
      rw [BitVec.getLsbD_of_ge _ _ (by omega)] at hset
      exact absurd hset (by decide)
    have hhigh : q.highestReadyPriority cfg = 8 * i + j := by
      simp only [highestReadyPriority, htwo, if_true, hffs, hpred, tableAt, hi, hffsByte]
      unfold ubasePred
      omega
    rw [hhigh]
    have hmarks : ∀ p, q.marks cfg p = (q.readyTable (p / 8)).getLsbD (p % 8) := by
      intro p
      simp [marks, htwo]
    have hdiv : (8 * i + j) / 8 = i := by omega
    have hmod : (8 * i + j) % 8 = j := by omega
    refine ⟨(hexact.marks_iff _).mp ?_, ?_⟩
    · rw [hmarks, hdiv, hmod]
      exact hset
    · intro better hbetter
      by_contra hfull
      have hmark := (hexact.marks_iff better).mpr hfull
      rw [hmarks] at hmark
      -- the lowest set byte decides first, the lowest set bit in it second
      have hgroup : q.priorityGroup.getLsbD (better / 8) = true := by
        rw [hexact.group_iff htwo]
        exact (ne_zero_iff_exists_bit _).mpr ⟨_, hmark⟩
      by_cases hbyteIndex : better / 8 < i
      · rw [hlowest.clear _ hbyteIndex] at hgroup
        exact absurd hgroup (by decide)
      · have hsame : better / 8 = i := by omega
        have hclear := hlowestByte.clear (better % 8) (by omega)
        rw [hgetByte _ (by omega), ← hsame] at hclear
        rw [hclear] at hmark
        exact absurd hmark (by decide)

end Highest

end ReadyQueue

end RtThread.Scheduler
