import RtThread.Scheduler.Handover
import RtThread.Scheduler.ThreadSteps

namespace RtThread.Scheduler

open Function

/-- A thread that CPU `c` may run is queued with a higher priority than `p`. -/
def Kernel.Outranks (cfg : Config) (k : Kernel) (c p : Nat) : Prop :=
  ∃ better, better < p ∧ ((k.queue cfg.cpusNr).priorityTable better ≠ [] ∨
    (k.queue c).priorityTable better ≠ [])

instance (cfg : Config) (k : Kernel) (c p : Nat) : Decidable (k.Outranks cfg c p) :=
  decidable_of_iff (∃ better ∈ List.range p, (k.queue cfg.cpusNr).priorityTable better ≠ [] ∨
    (k.queue c).priorityTable better ≠ []) (by simp [Kernel.Outranks])

section Select

variable {cfg : Config} {away : Option Nat} {k k' : Kernel} {c : Nat} {current : Tid}

theorem ReadyQueue.BitmapExact.group_ne_zero {q : ReadyQueue} (hexact : q.BitmapExact cfg)
    {p : Nat} (hfull : q.priorityTable p ≠ []) : q.priorityGroup ≠ 0 := by
  have hmark := (hexact.marks_iff p).mpr hfull
  unfold ReadyQueue.marks at hmark
  intro hzero
  split at hmark
  next htwo =>
    have hbyte : q.readyTable (p / 8) ≠ 0 := by
      intro hempty
      simp [hempty] at hmark
    have hbit := (hexact.group_iff htwo (p / 8)).mpr hbyte
    simp [hzero] at hbit
  · simp [hzero] at hmark

theorem Inv.highest_le (hinv : Inv cfg away k) {t : Tid} {p : Nat}
    (hne : (k.queue cfg.cpusNr).priorityGroup ≠ 0 ∨ (k.queue c).priorityGroup ≠ 0)
    (hhighest : getHighestPriorityThread cfg c k = some (t, p)) :
    ¬ k.Outranks cfg c p := by
  have hle : ∀ b better, (k.queue b).priorityTable better ≠ [] →
      (k.queue b).highestReadyPriority cfg ≤ better := by
    intro b better hfull
    by_contra hlt
    have hgroup := (hinv.bitmap b).group_ne_zero hfull
    exact hfull ((ReadyQueue.highestReadyPriority_spec (hinv.bitmap b) hgroup).2 better
      (Nat.lt_of_not_le hlt))
  unfold getHighestPriorityThread at hhighest
  dsimp only at hhighest
  rw [if_neg (by tauto)] at hhighest
  rintro ⟨better, hlt, hqueued⟩
  split at hhighest
  next hglobal =>
    obtain ⟨_, -, heq⟩ := Option.map_eq_some_iff.mp hhighest
    obtain ⟨rfl, rfl⟩ := Prod.mk.inj heq
    rcases hqueued with hfull | hfull
    · exact absurd (hle _ _ hfull) (Nat.not_le.mpr hlt)
    · exact absurd (hle _ _ hfull) (Nat.not_le.mpr (Nat.lt_trans hlt hglobal))
  next hlocal =>
    obtain ⟨_, -, heq⟩ := Option.map_eq_some_iff.mp hhighest
    obtain ⟨rfl, rfl⟩ := Prod.mk.inj heq
    rcases hqueued with hfull | hfull
    · have hglobal := hle _ _ hfull
      omega
    · exact absurd (hle _ _ hfull) (Nat.not_le.mpr hlt)

theorem leaveCpu_eq {highest : Tid} {p : Nat} {choice : Kernel × Tid}
    (hleave : leaveCpu cfg c current highest p k = choice) :
    (choice = (k.setThread current { k.thread current with oncpu := cfg.cpuDetached },
        current) ∧ (k.thread current).currentPriority < p) ∨
      (choice = (yieldCurrent cfg c current k, highest) ∧
        ((k.thread current).stat = .ready → p ≤ (k.thread current).currentPriority)) := by
  simp only [leaveCpu, Kernel.setThread_thread, update_self] at hleave
  unfold yieldCurrent
  simp only [Kernel.setThread_thread, update_self]
  split at hleave
  next hready =>
    split at hleave
    next hlt => exact .inl ⟨hleave.symm, hlt⟩
    next hle =>
      rw [if_pos hready]
      exact .inr ⟨hleave.symm, fun _ => Nat.le_of_not_lt hle⟩
  next hwaits =>
    rw [if_neg hwaits]
    exact .inr ⟨hleave.symm, fun hready => absurd hready hwaits⟩

end Select

end RtThread.Scheduler
