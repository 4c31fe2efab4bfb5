import RtThread.Pthreads.ThreadKeys

namespace RtThread.Pthreads

open Function RtThread.Lib

namespace ThreadKeys

variable {s s' : ThreadKeys} {t : Nat} {key : Int}

def valueAt (t index : Nat) (s : ThreadKeys) : Nat :=
  match s.tls t with
  | none => 0
  | some table => table index

theorem valueAt_none (hnone : s.tls t = none) (index : Nat) : s.valueAt t index = 0 := by
  rw [valueAt, hnone]

theorem valueAt_some {table : Nat → Nat} (hsome : s.tls t = some table) (index : Nat) :
    s.valueAt t index = table index := by
  rw [valueAt, hsome]

theorem usedKey_natCast {index : Nat} (hlt : index < pthreadKeyMax) :
    s.usedKey index = some (s.keys index).isUsed := by
  unfold usedKey
  rw [if_pos (by omega), if_neg (by omega), Int.toNat_natCast]

theorem live_iff {index : Nat} (hlt : index < pthreadKeyMax) :
    s.Live index ↔ (s.keys index).isUsed = true := by
  rw [Live, usedKey_natCast hlt]
  exact Option.some_inj

theorem Live.exists_natCast (hlive : s.Live key) : ∃ index < pthreadKeyMax, key = (index : Nat) := by
  unfold Live usedKey at hlive
  split at hlive
  next hlt =>
    split at hlive
    · cases hlive
    next hnonneg =>
      obtain ⟨index, rfl⟩ := Int.eq_ofNat_of_zero_le (Int.not_lt.mp hnonneg)
      exact ⟨index, by omega, rfl⟩
  · cases Option.some.inj hlive

theorem usedKey_eq_none : s.usedKey key = none ↔ key < 0 := by
  unfold usedKey
  split
  · split <;> simp_all
  next hge => simp only [reduceCtorEq, false_iff]; omega

theorem pthreadGetspecific_eq (hkey : 0 ≤ key) :
    s.pthreadGetspecific t key = .value (if s.Live key then s.valueAt t key.toNat else 0) := by
  have hused : s.usedKey key ≠ none := fun hnone => absurd (usedKey_eq_none.mp hnone) (by omega)
  unfold pthreadGetspecific
  cases htls : s.tls t with
  | none =>
    rw [valueAt_none htls, ite_self]
  | some table =>
    rw [valueAt_some htls]
    dsimp only
    cases hcase : s.usedKey key with
    | none => exact absurd hcase hused
    | some used =>
      cases used with
      | true => rw [if_pos (show s.Live key from hcase)]
      | false =>
        rw [if_neg]
        intro hlive
        cases hcase.symm.trans hlive

theorem readsRight_iff : s.ReadsRight ↔ ∀ t, s.phase t ≠ .gone → ∀ index < pthreadKeyMax,
    (s.keys index).isUsed = true → s.valueAt t index = s.stored t index := by
  constructor
  · intro hreads t ht index hlt hused
    have hread := hreads t ht index (Int.natCast_nonneg index)
    rw [pthreadGetspecific_eq (Int.natCast_nonneg index), expected, if_pos ((live_iff hlt).mpr hused),
      if_pos ((live_iff hlt).mpr hused), Int.toNat_natCast] at hread
    exact KeyEvent.value.inj hread
  · intro hvalues t ht key hkey
    rw [pthreadGetspecific_eq hkey, expected]
    by_cases hlive : s.Live key
    · obtain ⟨index, hlt, rfl⟩ := hlive.exists_natCast
      rw [if_pos hlive, if_pos hlive, Int.toNat_natCast,
        hvalues t ht index hlt ((live_iff hlt).mp hlive)]
    · rw [if_neg hlive, if_neg hlive]

def Fits : KeyPhase → Option (Nat → Nat) → Prop
  | .running, _ => True
  | .testing _, table => table ≠ none
  | .reading index, table => index < pthreadKeyMax ∧ table ≠ none
  | .calling _, table => table ≠ none
  | .gone, table => table = none

structure Inv (s : ThreadKeys) : Prop where
  reads : s.ReadsRight
  fits : ∀ t, Fits (s.phase t) (s.tls t)

theorem Inv.gone (hinv : s.Inv) (t : Nat) (hgone : s.phase t = .gone) : s.tls t = none := by
  have hfits := hinv.fits t
  rw [hgone] at hfits
  exact hfits

theorem Inv.reading (hinv : s.Inv) {index : Nat} (hreading : s.phase t = .reading index) :
    index < pthreadKeyMax ∧ s.tls t ≠ none := by
  have hfits := hinv.fits t
  rw [hreading] at hfits
  exact hfits

theorem not_gone_of_mayCall (hcall : s.mayCall t = true) : s.phase t ≠ .gone := by
  intro hgone
  rw [mayCall, hgone] at hcall
  cases hcall

theorem ReadsRight.congr (hreads : s.ReadsRight)
    (hphase : ∀ t, s'.phase t ≠ .gone → s.phase t ≠ .gone ∧ s'.tls t = s.tls t)
    (hkeys : ∀ index, (s'.keys index).isUsed = true → (s.keys index).isUsed = true)
    (hstored : s'.stored = s.stored) : s'.ReadsRight := by
  rw [readsRight_iff] at hreads ⊢
  intro t ht index hlt hused
  obtain ⟨ht', hsame⟩ := hphase t ht
  have hvalue : s'.valueAt t index = s.valueAt t index := by rw [valueAt, hsame, valueAt]
  rw [hvalue, hstored]
  exact hreads t ht' index hlt (hkeys index hused)

theorem freeKey_spec {index : Nat} (hfree : s.freeKey = some index) :
    index < pthreadKeyMax ∧ (s.keys index).isUsed = false := by
  unfold freeKey at hfree
  refine ⟨List.mem_range.mp (List.mem_of_find?_eq_some hfree), ?_⟩
  have hunused := List.find?_some hfree
  simpa using hunused

theorem keyCreate_iff (hinv : s.Inv) (destructor : Nat) :
    (s.pthreadKeyCreate destructor).2.ReadsRight ↔
      ∀ index, s.freeKey = some index → ∀ t table, s.tls t = some table → table index = 0 := by
  unfold pthreadKeyCreate
  cases hfree : s.freeKey with
  | none => exact iff_of_true hinv.reads fun _ hsome => by cases hsome
  | some index =>
    obtain ⟨hlt, hunused⟩ := freeKey_spec hfree
    have hvalues := readsRight_iff.mp hinv.reads
    rw [readsRight_iff]
    dsimp only
    constructor
    · intro hreads index' hindex t table htls
      cases hindex
      have hlive : s.phase t ≠ .gone := fun hgone => by
        rw [hinv.gone t hgone] at htls
        cases htls
      have hread := hreads t hlive index hlt (by simp [setKey])
      rw [update_self] at hread
      exact (valueAt_some htls index).symm.trans hread
    · intro hzero t ht other hother hused
      by_cases heq : other = index
      · subst heq
        rw [update_self]
        show s.valueAt t other = 0
        cases htls : s.tls t with
        | none => exact valueAt_none htls other
        | some table =>
          rw [valueAt_some htls]
          exact hzero other rfl t table htls
      · rw [update_of_ne heq]
        refine hvalues t ht other hother ?_
        simpa [setKey, heq] using hused

theorem store_reads {table : Nat → Nat} {index value : Nat} (hlive : s.phase t ≠ .gone)
    (hothers : ∀ t' ≠ t, s.phase t' ≠ .gone → ∀ i < pthreadKeyMax, (s.keys i).isUsed = true →
      s.valueAt t' i = s.stored t' i) :
    (s.store t index value table).ReadsRight ↔ ∀ i < pthreadKeyMax, i ≠ index →
      (s.keys i).isUsed = true → table i = s.stored t i := by
  have hvalue (i : Nat) : (s.store t index value table).valueAt t i =
      update table index value i := by
    rw [valueAt, store]
    simp [setTls]
  have hstored : (s.store t index value table).stored t =
      update (s.stored t) index value := update_self ..
  rw [readsRight_iff]
  constructor
  · intro hreads i hi hne hused
    have hread := hreads t hlive i hi hused
    rw [hvalue, hstored, update_of_ne hne, update_of_ne hne] at hread
    exact hread
  · intro hvalues t' ht' i hi hused
    by_cases hsame : t' = t
    · subst hsame
      rw [hvalue, hstored]
      by_cases heq : i = index
      · subst heq
        rw [update_self, update_self]
      · rw [update_of_ne heq, update_of_ne heq]
        exact hvalues i hi heq hused
    · have hread := hothers t' hsame ht' i hi hused
      have htls : (s.store t index value table).tls t' = s.tls t' := update_of_ne hsame ..
      have hstored' : (s.store t index value table).stored t' = s.stored t' :=
        update_of_ne hsame ..
      rw [valueAt, htls, hstored']
      exact hread

theorem allocTls_reads (hinv : s.Inv) (hlive : s.phase t ≠ .gone) (hnone : s.tls t = none)
    (block : Option (Nat → Nat)) :
    (s.setTls t block).ReadsRight ↔
      ∀ table, block = some table → ∀ i < pthreadKeyMax, (s.keys i).isUsed = true → table i = 0 := by
  have hvalues := readsRight_iff.mp hinv.reads
  have hzero : ∀ i < pthreadKeyMax, (s.keys i).isUsed = true → s.stored t i = 0 := by
    intro i hi hused
    rw [← hvalues t hlive i hi hused, valueAt_none hnone]
  have htls : (s.setTls t block).tls t = block := update_self ..
  rw [readsRight_iff]
  constructor
  · intro hreads table hblock i hi hused
    have hread := hreads t hlive i hi hused
    rw [valueAt_some (htls.trans hblock)] at hread
    exact hread.trans (hzero i hi hused)
  · intro hblock t' ht' i hi hused
    by_cases hsame : t' = t
    · subst hsame
      show _ = s.stored t' i
      rw [hzero i hi hused]
      cases hcase : block with
      | none => exact valueAt_none (by rw [← hcase]; exact htls) i
      | some table =>
        subst hcase
        rw [valueAt_some htls]
        exact hblock table rfl i hi hused
    · have hother : (s.setTls t block).tls t' = s.tls t' := update_of_ne hsame ..
      rw [valueAt, hother]
      exact hvalues t' ht' i hi hused

theorem usedKey_allocTls (block : Option (Nat → Nat)) :
    (s.allocTls t block).usedKey key = s.usedKey key := by
  unfold allocTls
  split <;> rfl

theorem allocTls_none (hnone : s.tls t = none) (block : Option (Nat → Nat)) :
    s.allocTls t block = s.setTls t block := by
  rw [allocTls, hnone]

theorem allocTls_some {table : Nat → Nat} (hsome : s.tls t = some table)
    (block : Option (Nat → Nat)) : s.allocTls t block = s := by
  rw [allocTls, hsome]

theorem setspecific_neg (hneg : key < 0) (value : Nat) (block : Option (Nat → Nat)) :
    s.pthreadSetspecific t key value block = (.strays, s.allocTls t block) := by
  unfold pthreadSetspecific
  dsimp only
  rw [usedKey_allocTls, usedKey_eq_none.mpr hneg]

theorem setspecific_dead (hkey : 0 ≤ key) (hdead : ¬ s.Live key) (value : Nat)
    (block : Option (Nat → Nat)) :
    s.pthreadSetspecific t key value block = (.returns einval, s.allocTls t block) := by
  unfold pthreadSetspecific
  dsimp only
  rw [usedKey_allocTls]
  cases hcase : s.usedKey key with
  | none => exact absurd (usedKey_eq_none.mp hcase) (by omega)
  | some used =>
    cases used with
    | true => exact absurd hcase hdead
    | false => rfl

theorem setspecific_live {table : Nat → Nat} (hlive : s.Live key) (value : Nat)
    {block : Option (Nat → Nat)} (htls : (s.allocTls t block).tls t = some table) :
    s.pthreadSetspecific t key value block =
      (.returns 0, (s.allocTls t block).store t key.toNat value table) := by
  unfold pthreadSetspecific
  dsimp only
  rw [usedKey_allocTls, show s.usedKey key = some true from hlive, htls]

theorem setspecific_exhausted (hlive : s.Live key) (value : Nat) (hnone : s.tls t = none) :
    s.pthreadSetspecific t key value none = (.strays, s.setTls t none) := by
  have htls : (s.allocTls t none).tls t = none := by
    rw [allocTls_none hnone]
    exact update_self ..
  unfold pthreadSetspecific
  dsimp only
  rw [usedKey_allocTls, show s.usedKey key = some true from hlive, htls, allocTls_none hnone]

theorem setspecific_iff_of_live (hinv : s.Inv) (hlive : s.phase t ≠ .gone) (hkeyLive : s.Live key)
    (value : Nat) (block : Option (Nat → Nat)) :
    ((KeyCall.setspecific t key value block).EventRight s
        (s.pthreadSetspecific t key value block).1 ∧
      (s.pthreadSetspecific t key value block).2.ReadsRight) ↔
      s.SetFine t key block := by
  have hvalues := readsRight_iff.mp hinv.reads
  obtain ⟨index, hlt, rfl⟩ := hkeyLive.exists_natCast
  unfold SetFine
  rw [and_iff_right (Int.natCast_nonneg index)]
  cases htls : s.tls t with
  | some table =>
    have htls' : (s.allocTls t block).tls t = some table := by rw [allocTls_some htls, htls]
    rw [setspecific_live hkeyLive value htls', allocTls_some htls, Int.toNat_natCast]
    refine iff_of_true ⟨⟨0, rfl, ?_⟩, ?_⟩ fun hnone => by cases hnone
    · refine iff_of_false (fun hne => hne rfl) fun hor => ?_
      rcases hor with hdead | hexhausted
      · exact hdead hkeyLive
      · rw [htls] at hexhausted
        cases hexhausted.1
    · refine (store_reads hlive fun t' _ => hvalues t').mpr fun i hi _ hused => ?_
      rw [← hvalues t hlive i hi hused, valueAt_some htls]
  | none =>
    cases block with
    | none =>
      rw [setspecific_exhausted hkeyLive value htls]
      refine iff_of_false ?_ fun hdead => hdead rfl hkeyLive
      rintro ⟨⟨result, hreturns, -⟩, -⟩
      cases hreturns
    | some table =>
      have hevent : (KeyCall.setspecific t index value (some table)).EventRight s
          (.returns 0) := by
        refine ⟨0, rfl, iff_of_false (fun hne => hne rfl) fun hor => ?_⟩
        rcases hor with hdead | hexhausted
        · exact hdead hkeyLive
        · cases hexhausted.2
      have htls' : (s.allocTls t (some table)).tls t = some table := by
        rw [allocTls_none htls]
        exact update_self ..
      rw [setspecific_live hkeyLive value htls', allocTls_none htls, Int.toNat_natCast,
        and_iff_right hevent]
      dsimp only
      have hothers : ∀ t' ≠ t, s.phase t' ≠ .gone → ∀ i < pthreadKeyMax,
          (s.keys i).isUsed = true →
            (s.setTls t (some table)).valueAt t' i = s.stored t' i := by
        intro t' hne ht' i hi hused
        have hother : (s.setTls t (some table)).tls t' = s.tls t' :=
          update_of_ne hne ..
        rw [valueAt, hother]
        exact hvalues t' ht' i hi hused
      have hzero : ∀ i < pthreadKeyMax, (s.keys i).isUsed = true → s.stored t i = 0 := by
        intro i hi hused
        rw [← hvalues t hlive i hi hused, valueAt_none htls]
      have hlive' : (s.setTls t (some table)).phase t ≠ .gone := hlive
      rw [store_reads hlive' hothers]
      constructor
      · intro hreads _ i hi hne hused
        have hused' := (live_iff hi).mp hused
        exact (hreads i hi (fun heq => hne (congrArg _ heq)) hused').trans (hzero i hi hused')
      · intro hcleared i hi hne hused
        refine (hcleared rfl i hi (fun heq => hne (Int.ofNat.inj heq)) ?_).trans
          (hzero i hi hused).symm
        exact (live_iff hi).mpr hused

theorem setspecific_iff_of_dead (hinv : s.Inv) (hlive : s.phase t ≠ .gone) (hkey : 0 ≤ key)
    (hkeyLive : ¬ s.Live key) (value : Nat) (block : Option (Nat → Nat)) :
    ((KeyCall.setspecific t key value block).EventRight s
        (s.pthreadSetspecific t key value block).1 ∧
      (s.pthreadSetspecific t key value block).2.ReadsRight) ↔
      s.SetFine t key block := by
  rw [setspecific_dead hkey hkeyLive]
  have hevent : (KeyCall.setspecific t key value block).EventRight s (.returns einval) :=
    ⟨einval, rfl, iff_of_true (by decide) (.inl hkeyLive)⟩
  unfold SetFine
  rw [and_iff_right hevent, and_iff_right hkey]
  dsimp only
  cases htls : s.tls t with
  | some table =>
    rw [allocTls_some htls]
    exact iff_of_true hinv.reads fun hnone => by cases hnone
  | none =>
    rw [allocTls_none htls, allocTls_reads hinv hlive htls]
    cases block with
    | none => exact iff_of_true (fun _ hsome => by cases hsome) fun _ => hkeyLive
    | some table =>
      constructor
      · intro hzero _ index hlt _ hindex
        exact hzero table rfl index hlt ((live_iff hlt).mp hindex)
      · intro hzero table' hsame index hlt hused
        cases hsame
        have hindex : s.Live index := (live_iff hlt).mpr hused
        exact hzero rfl index hlt (fun heq => hkeyLive (heq ▸ hindex)) hindex

/-- `pthread_setspecific` is right just when the key is not negative and a table that it allocates has
no value for another live key. -/
theorem setspecific_iff (hinv : s.Inv) (hlive : s.phase t ≠ .gone) (value : Nat)
    (block : Option (Nat → Nat)) :
    ((KeyCall.setspecific t key value block).EventRight s
        (s.pthreadSetspecific t key value block).1 ∧
      (s.pthreadSetspecific t key value block).2.ReadsRight) ↔
      s.SetFine t key block := by
  rcases Int.lt_or_le key 0 with hneg | hkey
  · rw [setspecific_neg hneg]
    refine iff_of_false ?_ fun h => absurd h.1 (by omega)
    rintro ⟨⟨result, hreturns, -⟩, -⟩
    cases hreturns
  by_cases hkeyLive : s.Live key
  · exact setspecific_iff_of_live hinv hlive hkeyLive value block
  · exact setspecific_iff_of_dead hinv hlive hkey hkeyLive value block

theorem expected_of_neg (hneg : key < 0) : s.expected t key = 0 := by
  rw [expected, if_neg]
  intro hlive
  cases (usedKey_eq_none.mpr hneg).symm.trans hlive

theorem getspecific_iff (hinv : s.Inv) (hlive : s.phase t ≠ .gone) :
    s.pthreadGetspecific t key = .value (s.expected t key) ↔ 0 ≤ key ∨ s.tls t = none := by
  rcases Int.lt_or_le key 0 with hneg | hkey
  · rw [expected_of_neg hneg]
    unfold pthreadGetspecific
    cases htls : s.tls t with
    | none => exact iff_of_true rfl (.inr rfl)
    | some table =>
      dsimp only
      rw [usedKey_eq_none.mpr hneg]
      refine iff_of_false (by intro h; cases h) ?_
      rintro (hkey | hnone)
      · omega
      · cases hnone
  · exact iff_of_true (hinv.reads t hlive key hkey) (.inl hkey)

theorem keyDelete_iff (hinv : s.Inv) :
    ((s.pthreadKeyDelete key).1 ≠ .strays ∧ (s.pthreadKeyDelete key).2.ReadsRight) ↔ 0 ≤ key := by
  unfold pthreadKeyDelete
  split
  next hlarge => exact iff_of_true ⟨(by intro h; cases h), hinv.reads⟩ (by omega)
  · split
    next hneg => exact iff_of_false (fun h => h.1 rfl) (by omega)
    next hkey =>
      refine iff_of_true ⟨(by intro h; cases h), ?_⟩ (by omega)
      refine hinv.reads.congr (fun _ ht => ⟨ht, rfl⟩) (fun index hused => ?_) rfl
      by_cases heq : index = key.toNat
      · subst heq
        simp [setKey] at hused
      · simpa [setKey, heq] using hused

theorem setPhase_reads (hreads : s.ReadsRight) (hlive : s.phase t ≠ .gone) (phase : KeyPhase) :
    (s.setPhase t phase).ReadsRight := by
  refine hreads.congr (fun t' ht' => ⟨?_, rfl⟩) (fun _ hused => hused) rfl
  by_cases hsame : t' = t
  · rw [hsame]
    exact hlive
  · have hphase : (s.setPhase t phase).phase t' = s.phase t' := update_of_ne hsame ..
    rwa [← hphase]

theorem exit_reads (hreads : s.ReadsRight) (hlive : s.phase t ≠ .gone) :
    (s.pthreadExit t).ReadsRight := by
  unfold pthreadExit
  split <;> exact setPhase_reads hreads hlive _

theorem gone_reads (hreads : s.ReadsRight) : ((s.setTls t none).setPhase t .gone).ReadsRight := by
  refine hreads.congr (fun t' ht' => ?_) (fun _ hused => hused) rfl
  have hne : t' ≠ t := by
    rintro rfl
    exact ht' (update_self ..)
  have hphase : ((s.setTls t none).setPhase t .gone).phase t' = s.phase t' :=
    update_of_ne hne ..
  refine ⟨?_, update_of_ne hne ..⟩
  rwa [← hphase]

theorem keyRight_iff {call : KeyCall} {event : KeyEvent}
    (hstep : threadKeys.step s call = some (event, s')) :
    KeyRight s call ↔ call.EventRight s event ∧ s'.ReadsRight := by
  constructor
  · intro hright
    exact hright event s' hstep
  · intro hright event' s'' hstep'
    cases hstep.symm.trans hstep'
    exact hright

theorem keyRight_of_none {call : KeyCall} (hstep : threadKeys.step s call = none) :
    KeyRight s call := by
  intro event s' hstep'
  cases hstep.symm.trans hstep'

theorem walk_proceeds (hproceeds : s.pthreadExitLoop t = some (.proceeds, s'))
    (hreads : s'.ReadsRight)
    (hdata : ∀ index table, s.phase t = .reading index → s.tls t = some table → table index = 0) :
    KeyRight s (.walk t) ↔ KeyFine s (.walk t) := by
  refine iff_of_true ?_ fun index table hphase htls hne => ?_
  · have hstep : threadKeys.step s (.walk t) = some (.proceeds, s') := hproceeds
    exact (keyRight_iff hstep).mpr ⟨(by intro h; cases h), hreads⟩
  · exact absurd (hdata index table hphase htls) hne

theorem walk_iff (hinv : s.Inv) : KeyRight s (.walk t) ↔ KeyFine s (.walk t) := by
  cases hphase : s.phase t with
  | running =>
    refine iff_of_true (keyRight_of_none ?_) fun _ _ hreading => ?_
    · show s.pthreadExitLoop t = none
      rw [pthreadExitLoop, hphase]
    · rw [hphase] at hreading
      cases hreading
  | gone =>
    refine iff_of_true (keyRight_of_none ?_) fun _ _ hreading => ?_
    · show s.pthreadExitLoop t = none
      rw [pthreadExitLoop, hphase]
    · rw [hphase] at hreading
      cases hreading
  | testing index =>
    have hlive : s.phase t ≠ .gone := by rw [hphase]; intro h; cases h
    have hdata : ∀ index table, s.phase t = .reading index → s.tls t = some table →
        table index = 0 := fun _ _ hreading => by
      rw [hphase] at hreading
      cases hreading
    by_cases hlt : index < pthreadKeyMax
    · by_cases hused : (s.keys index).isUsed = true
      · refine walk_proceeds ?_ (setPhase_reads hinv.reads hlive (.reading index)) hdata
        rw [pthreadExitLoop, hphase]
        dsimp only
        rw [if_pos hlt, if_pos hused]
      · refine walk_proceeds ?_ (setPhase_reads hinv.reads hlive (.testing (index + 1))) hdata
        rw [pthreadExitLoop, hphase]
        dsimp only
        rw [if_pos hlt, if_neg hused]
    · refine walk_proceeds ?_ (gone_reads (t := t) hinv.reads) hdata
      rw [pthreadExitLoop, hphase]
      dsimp only
      rw [if_neg hlt]
  | calling index =>
    have hlive : s.phase t ≠ .gone := by rw [hphase]; intro h; cases h
    refine walk_proceeds ?_ (setPhase_reads hinv.reads hlive (.testing (index + 1))) ?_
    · rw [pthreadExitLoop, hphase]
    · intro _ _ hreading
      rw [hphase] at hreading
      cases hreading
  | reading index =>
    have hlive : s.phase t ≠ .gone := by rw [hphase]; intro h; cases h
    obtain ⟨hlt, htable⟩ := hinv.reading hphase
    obtain ⟨table, htls⟩ := Option.ne_none_iff_exists'.mp htable
    by_cases hzero : table index = 0
    · refine walk_proceeds ?_ (setPhase_reads hinv.reads hlive (.testing (index + 1))) ?_
      · rw [pthreadExitLoop, hphase]
        dsimp only
        rw [htls]
        dsimp only
        rw [if_neg (fun hne => hne hzero)]
      · intro index' table' hreading htls'
        cases hphase.symm.trans hreading
        cases htls.symm.trans htls'
        exact hzero
    · have hstep : threadKeys.step s (.walk t) =
          some (.calls (s.keys index).destructor (table index), s.setPhase t (.calling index)) := by
        show s.pthreadExitLoop t = _
        rw [pthreadExitLoop, hphase]
        dsimp only
        rw [htls]
        dsimp only
        rw [if_pos hzero]
      rw [keyRight_iff hstep, and_iff_left (setPhase_reads hinv.reads hlive _)]
      constructor
      · rintro ⟨index', -, hreading', hlive', -⟩ index'' table' hreading htls' -
        cases hphase.symm.trans hreading
        cases hphase.symm.trans hreading'
        exact hlive'
      · intro hfine
        have hkey : s.Live index := hfine index table hphase htls hzero
        have hread := readsRight_iff.mp hinv.reads t hlive index hlt ((live_iff hlt).mp hkey)
        rw [valueAt_some htls] at hread
        exact ⟨index, hlt, hphase, hkey, rfl, hzero, hread⟩

theorem call_iff {call : KeyCall} {outcome : KeyEvent × ThreadKeys} {fine : Prop}
    (hstep : threadKeys.step s call = if s.mayCall t then some outcome else none)
    (hfine : KeyFine s call ↔ (s.mayCall t = true → fine))
    (hiff : s.phase t ≠ .gone → (call.EventRight s outcome.1 ∧ outcome.2.ReadsRight ↔ fine)) :
    KeyRight s call ↔ KeyFine s call := by
  rw [hfine]
  by_cases hcall : s.mayCall t = true
  · rw [if_pos hcall] at hstep
    rw [keyRight_iff hstep, hiff (not_gone_of_mayCall hcall)]
    exact ⟨fun h _ => h, fun h => h hcall⟩
  · rw [if_neg hcall] at hstep
    exact iff_of_true (keyRight_of_none hstep) fun h => absurd h hcall

theorem keyRight_iff_keyFine (hinv : s.Inv) (call : KeyCall) : KeyRight s call ↔ KeyFine s call := by
  cases call with
  | keyCreate t destructor =>
    refine call_iff rfl Iff.rfl fun _ => ?_
    rw [← keyCreate_iff hinv destructor]
    refine and_iff_right ?_
    show (s.pthreadKeyCreate destructor).1 ≠ .strays
    unfold pthreadKeyCreate
    split <;> (intro h; cases h)
  | keyDelete t key => exact call_iff rfl Iff.rfl fun _ => keyDelete_iff hinv
  | setspecific t key value block =>
    exact call_iff rfl Iff.rfl fun hlive => setspecific_iff hinv hlive value block
  | getspecific t key =>
    refine call_iff rfl Iff.rfl fun hlive => ?_
    rw [← getspecific_iff hinv hlive]
    exact and_iff_left hinv.reads
  | exit t =>
    have hfine : KeyFine s (.exit t) ↔ (s.mayCall t = true → True) :=
      iff_of_true trivial fun _ => trivial
    refine call_iff rfl hfine fun hlive => ?_
    exact iff_of_true ⟨(by intro h; cases h), exit_reads hinv.reads hlive⟩ trivial
  | walk t => exact walk_iff hinv

section

variable (hfits : ∀ t, Fits (s.phase t) (s.tls t))
include hfits

theorem fits_of_others (t : Nat)
    (hothers : ∀ t' ≠ t, s'.phase t' = s.phase t' ∧ s'.tls t' = s.tls t')
    (hself : Fits (s'.phase t) (s'.tls t)) (t' : Nat) : Fits (s'.phase t') (s'.tls t') := by
  by_cases hsame : t' = t
  · rw [hsame]
    exact hself
  · obtain ⟨hphase, htls⟩ := hothers t' hsame
    rw [hphase, htls]
    exact hfits t'

theorem setPhase_fits {phase : KeyPhase} (hself : Fits phase (s.tls t)) (t' : Nat) :
    Fits ((s.setPhase t phase).phase t') ((s.setPhase t phase).tls t') := by
  have hothers : ∀ t' ≠ t, (s.setPhase t phase).phase t' = s.phase t' := fun _ hne =>
    update_of_ne hne ..
  refine fits_of_others hfits t (fun t' hne => ⟨hothers t' hne, rfl⟩) ?_ t'
  show Fits (update s.phase t phase t) (s.tls t)
  rw [update_self]
  exact hself

theorem setTls_fits (hcall : s.mayCall t = true)
    {table : Option (Nat → Nat)} (htable : s.tls t = none ∨ table ≠ none) (t' : Nat) :
    Fits ((s.setTls t table).phase t') ((s.setTls t table).tls t') := by
  have hothers : ∀ t' ≠ t, (s.setTls t table).phase t' = s.phase t' ∧
      (s.setTls t table).tls t' = s.tls t' := fun _ hne => ⟨rfl, update_of_ne hne ..⟩
  refine fits_of_others hfits t hothers ?_ t'
  show Fits (s.phase t) (update s.tls t table t)
  rw [update_self]
  have hself := hfits t
  rw [mayCall] at hcall
  cases hphase : s.phase t with
  | running => trivial
  | calling index =>
    rw [hphase] at hself
    exact htable.resolve_left hself
  | testing index =>
    rw [hphase] at hcall
    cases hcall
  | reading index =>
    rw [hphase] at hcall
    cases hcall
  | gone =>
    rw [hphase] at hcall
    cases hcall

theorem setspecific_fits (hcall : s.mayCall t = true)
    (value : Nat) (block : Option (Nat → Nat)) (t' : Nat) :
    Fits ((s.pthreadSetspecific t key value block).2.phase t')
      ((s.pthreadSetspecific t key value block).2.tls t') := by
  have halloc : ∀ t', Fits ((s.allocTls t block).phase t') ((s.allocTls t block).tls t') := by
    unfold allocTls
    split
    next hnone => exact setTls_fits hfits hcall (.inl hnone)
    · exact hfits
  have hcall' : (s.allocTls t block).mayCall t = true := by
    rw [← hcall]
    unfold allocTls
    split <;> rfl
  unfold pthreadSetspecific
  dsimp only
  split
  · exact halloc t'
  · exact halloc t'
  · split
    · exact halloc t'
    · exact setTls_fits halloc hcall' (.inr (Option.some_ne_none _)) t'

theorem walk_fits {event : KeyEvent} (hstep : s.pthreadExitLoop t = some (event, s')) (t' : Nat) :
    Fits (s'.phase t') (s'.tls t') := by
  have hself := hfits t
  unfold pthreadExitLoop at hstep
  cases hphase : s.phase t with
  | running =>
    rw [hphase] at hstep
    cases hstep
  | gone =>
    rw [hphase] at hstep
    cases hstep
  | testing index =>
    rw [hphase] at hstep hself
    dsimp only at hstep
    split at hstep
    next hlt =>
      split at hstep
      · cases hstep
        have hnext : Fits (.reading index) (s.tls t) := ⟨hlt, hself⟩
        exact setPhase_fits hfits hnext t'
      · cases hstep
        have hnext : Fits (.testing (index + 1)) (s.tls t) := hself
        exact setPhase_fits hfits hnext t'
    · cases hstep
      refine fits_of_others hfits t (fun t' hne => ?_) ?_ t'
      · exact ⟨update_of_ne hne .., update_of_ne hne ..⟩
      · show Fits (update s.phase t .gone t) (update s.tls t none t)
        rw [update_self, update_self]
        rfl
  | reading index =>
    rw [hphase] at hstep hself
    dsimp only at hstep
    split at hstep
    next hnone => exact absurd hnone hself.2
    · split at hstep
      · cases hstep
        have hnext : Fits (.calling index) (s.tls t) := hself.2
        exact setPhase_fits hfits hnext t'
      · cases hstep
        have hnext : Fits (.testing (index + 1)) (s.tls t) := hself.2
        exact setPhase_fits hfits hnext t'
  | calling index =>
    rw [hphase] at hstep hself
    cases hstep
    have hnext : Fits (.testing (index + 1)) (s.tls t) := hself
    exact setPhase_fits hfits hnext t'

theorem exit_fits (t' : Nat) : Fits ((s.pthreadExit t).phase t') ((s.pthreadExit t).tls t') := by
  unfold pthreadExit
  split
  next hnone =>
    have hnext : Fits .gone (s.tls t) := hnone
    exact setPhase_fits hfits hnext t'
  next table hsome =>
    have hnext : Fits (.testing 0) (s.tls t) := by
      rw [hsome]
      exact Option.some_ne_none table
    exact setPhase_fits hfits hnext t'

theorem step_fits {call : KeyCall} {event : KeyEvent}
    (hstep : threadKeys.step s call = some (event, s')) (t' : Nat) :
    Fits (s'.phase t') (s'.tls t') := by
  cases call with
  | keyCreate t destructor =>
    obtain ⟨-, heq⟩ := Option.ite_none_right_eq_some.mp hstep
    obtain rfl : (s.pthreadKeyCreate destructor).2 = s' :=
      congrArg Prod.snd (Option.some.inj heq)
    unfold pthreadKeyCreate
    split <;> exact hfits t'
  | keyDelete t key =>
    obtain ⟨-, heq⟩ := Option.ite_none_right_eq_some.mp hstep
    obtain rfl : (s.pthreadKeyDelete key).2 = s' :=
      congrArg Prod.snd (Option.some.inj heq)
    unfold pthreadKeyDelete
    split
    · exact hfits t'
    · split <;> exact hfits t'
  | setspecific t key value block =>
    obtain ⟨hcall, heq⟩ := Option.ite_none_right_eq_some.mp hstep
    obtain rfl : (s.pthreadSetspecific t key value block).2 = s' :=
      congrArg Prod.snd (Option.some.inj heq)
    exact setspecific_fits hfits hcall value block t'
  | getspecific t key =>
    obtain ⟨-, heq⟩ := Option.ite_none_right_eq_some.mp hstep
    cases heq
    exact hfits t'
  | exit t =>
    obtain ⟨-, heq⟩ := Option.ite_none_right_eq_some.mp hstep
    cases heq
    exact exit_fits hfits t'
  | walk t => exact walk_fits hfits hstep t'

end

theorem Inv.step {call : KeyCall} {event : KeyEvent} (hinv : s.Inv) (hright : KeyRight s call)
    (hstep : threadKeys.step s call = some (event, s')) : s'.Inv :=
  ⟨(hright event s' hstep).2, step_fits hinv.fits hstep⟩

theorem Inv.init : ThreadKeys.init.Inv :=
  ⟨readsRight_iff.mpr fun _ _ _ _ hused => absurd hused Bool.false_ne_true, fun _ => trivial⟩

end ThreadKeys

/-- The law holds of just those runs whose calls are all fine. -/
theorem threadKeys_iff (calls : List KeyCall) :
    threadKeys.Along KeyRight .init calls ↔ threadKeys.Along KeyFine .init calls :=
  Transducer.along_iff ThreadKeys.Inv (fun _ call hinv => ThreadKeys.keyRight_iff_keyFine hinv call)
    (fun _ _ _ _ hinv hright hstep => hinv.step hright hstep) ThreadKeys.Inv.init

/-- A key that is created again still has the value of the old one. -/
theorem stale_value_read : ¬ threadKeys.Along KeyRight .init
    [.keyCreate 0 0, .setspecific 0 0 7 (some fun _ => 0), .keyDelete 0 0, .keyCreate 0 0,
      .getspecific 0 0] := by
  rintro ⟨-, halong⟩
  obtain ⟨-, halong⟩ := halong _ _ rfl
  obtain ⟨-, halong⟩ := halong _ _ rfl
  obtain ⟨-, halong⟩ := halong _ _ rfl
  obtain ⟨hright, -⟩ := halong _ _ rfl
  have hread : KeyEvent.value 7 = .value 0 := (hright _ _ rfl).1
  cases hread

/-- A table that is cleared, and a destructor that is called with what was stored. -/
example : threadKeys.Along KeyFine .init
    [.keyCreate 0 5, .setspecific 1 0 7 (some fun _ => 0), .exit 1, .walk 1, .walk 1] := by
  refine ⟨fun _ _ _ _ _ htls => (by cases htls), fun _ _ hcreated => ?_⟩
  cases hcreated
  refine ⟨fun _ => ⟨by decide, fun _ _ _ _ _ => rfl⟩, fun _ _ hset => ?_⟩
  cases hset
  refine ⟨trivial, fun _ _ hexit => ?_⟩
  cases hexit
  refine ⟨fun _ _ hreading => (by cases hreading), fun _ _ htest => ?_⟩
  cases htest
  refine ⟨fun index _ hreading _ _ => ?_, fun _ _ _ => trivial⟩
  cases hreading
  rfl

end RtThread.Pthreads
