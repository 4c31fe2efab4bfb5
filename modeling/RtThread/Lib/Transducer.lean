namespace RtThread.Lib

/-! Programs that answer calls, and when one of them stands for another. -/

/-- `none` says that the call has no defined outcome. -/
structure Transducer (σ : Type u) (ι : Type v) (ω : Type w) where
  step : σ → ι → Option (ω × σ)

namespace Transducer

def run (program : Transducer σ ι ω) : σ → List ι → Option (List ω × σ)
  | s, [] => some ([], s)
  | s, call :: calls =>
    match program.step s call with
    | none => none
    | some (answer, s') => (program.run s' calls).map fun (answers, s'') =>
      (answer :: answers, s'')

structure Refines (implementation : Transducer σ ι ω) (specification : Transducer τ ι ω)
    (legal : ι → Prop) (related : σ → τ → Prop) : Prop where
  step : ∀ s t call, related s t → legal call →
    ∃ answer s' t', implementation.step s call = some (answer, s') ∧
      specification.step t call = some (answer, t') ∧ related s' t'

theorem Refines.run {implementation : Transducer σ ι ω} {specification : Transducer τ ι ω}
    {legal : ι → Prop} {related : σ → τ → Prop}
    (hrefines : implementation.Refines specification legal related) {s : σ} {t : τ}
    (hrelated : related s t) {calls : List ι} (hlegal : ∀ call ∈ calls, legal call) :
    ∃ answers s' t', implementation.run s calls = some (answers, s') ∧
      specification.run t calls = some (answers, t') ∧ related s' t' := by
  induction calls generalizing s t with
  | nil => exact ⟨[], s, t, rfl, rfl, hrelated⟩
  | cons call calls ih =>
    obtain ⟨answer, s', t', himpl, hspec, hrelated'⟩ :=
      hrefines.step s t call hrelated (hlegal call (by simp))
    obtain ⟨answers, s'', t'', himpls, hspecs, hrelated''⟩ :=
      ih hrelated' fun c hc => hlegal c (by simp [hc])
    refine ⟨answer :: answers, s'', t'', ?_, ?_, hrelated''⟩
    · simp [Transducer.run, himpl, himpls]
    · simp [Transducer.run, hspec, hspecs]

/-- Every call of a list meets a condition in the state in which it is made. -/
def Along (program : Transducer σ ι ω) (fine : σ → ι → Prop) : σ → List ι → Prop
  | _, [] => True
  | s, call :: calls => fine s call ∧
      ∀ answer s', program.step s call = some (answer, s') → program.Along fine s' calls

/-- One call has the same answer, or no outcome, in two programs, and leaves related states. -/
def Agrees (implementation : Transducer σ ι ω) (specification : Transducer τ ι ω)
    (related : σ → τ → Prop) (s : σ) (t : τ) (call : ι) : Prop :=
  match implementation.step s call, specification.step t call with
  | some (answer, s'), some (answer', t') => answer = answer' ∧ related s' t'
  | none, none => True
  | _, _ => False

def Follows (implementation : Transducer σ ι ω) (specification : Transducer τ ι ω)
    (related : σ → τ → Prop) : σ → τ → List ι → Prop
  | _, _, [] => True
  | s, t, call :: calls => implementation.Agrees specification related s t call ∧
      ∀ answer s' answer' t', implementation.step s call = some (answer, s') →
        specification.step t call = some (answer', t') →
          implementation.Follows specification related s' t' calls

theorem along_iff {program : Transducer σ ι ω} {right fine : σ → ι → Prop} {s : σ} {calls : List ι}
    (inv : σ → Prop) (hstep : ∀ s call, inv s → (right s call ↔ fine s call))
    (hkeep : ∀ s call answer s', inv s → right s call →
      program.step s call = some (answer, s') → inv s') (hinv : inv s) :
    program.Along right s calls ↔ program.Along fine s calls := by
  induction calls generalizing s with
  | nil => exact Iff.rfl
  | cons call calls ih =>
    rw [Along, Along, hstep s call hinv]
    refine and_congr_right fun hfine => ?_
    have hright := (hstep s call hinv).mpr hfine
    constructor
    · intro halong answer s' hexec
      exact (ih (hkeep _ _ _ _ hinv hright hexec)).mp (halong answer s' hexec)
    · intro halong answer s' hexec
      exact (ih (hkeep _ _ _ _ hinv hright hexec)).mpr (halong answer s' hexec)

section Follows

variable {implementation : Transducer σ ι ω} {specification : Transducer τ ι ω}
  {related : σ → τ → Prop} {legal fine : σ → ι → Prop} {s : σ} {t : τ} {calls : List ι}

theorem follows_iff
    (hstep : ∀ s t call, related s t → legal s call →
      (implementation.Agrees specification related s t call ↔ fine s call))
    (hrelated : related s t) (hlegal : implementation.Along legal s calls) :
    implementation.Follows specification related s t calls ↔ implementation.Along fine s calls := by
  induction calls generalizing s t with
  | nil => exact Iff.rfl
  | cons call calls ih =>
    obtain ⟨hfirst, hrest⟩ := hlegal
    have hcall := hstep s t call hrelated hfirst
    rw [Follows, Along, hcall]
    refine and_congr_right fun hfine => ?_
    have hagrees := hcall.mpr hfine
    unfold Agrees at hagrees
    split at hagrees
    next answer s' answer' t' himpl hspec =>
      constructor
      · intro hfollows a b hab
        obtain ⟨-, rfl⟩ := Prod.mk.inj (Option.some.inj (himpl.symm.trans hab))
        exact (ih hagrees.2 (hrest _ _ himpl)).mp (hfollows _ _ _ _ himpl hspec)
      · intro halong a b a' b' hab hab'
        obtain ⟨-, rfl⟩ := Prod.mk.inj (Option.some.inj (himpl.symm.trans hab))
        obtain ⟨-, rfl⟩ := Prod.mk.inj (Option.some.inj (hspec.symm.trans hab'))
        exact (ih hagrees.2 (hrest _ _ himpl)).mpr (halong _ _ himpl)
    next himpl hspec =>
      refine ⟨fun _ a b hab => ?_, fun _ a b a' b' hab => ?_⟩
      · rw [himpl] at hab
        cases hab
      · rw [himpl] at hab
        cases hab
    · exact hagrees.elim

theorem Follows.run (hfollows : implementation.Follows specification related s t calls)
    {answers : List ω} {s' : σ} (hrelated : related s t)
    (hrun : implementation.run s calls = some (answers, s')) :
    ∃ t', specification.run t calls = some (answers, t') ∧ related s' t' := by
  induction calls generalizing s t answers with
  | nil =>
    cases hrun
    exact ⟨t, rfl, hrelated⟩
  | cons call calls ih =>
    obtain ⟨hagrees, hrest⟩ := hfollows
    unfold Transducer.run at hrun
    split at hrun
    · cases hrun
    next answer s₁ himpl =>
      obtain ⟨⟨rest, s₂⟩, hrun', heq⟩ := Option.map_eq_some_iff.mp hrun
      cases heq
      unfold Agrees at hagrees
      rw [himpl] at hagrees
      cases hspec : specification.step t call with
      | none =>
        rw [hspec] at hagrees
        exact hagrees.elim
      | some outcome =>
        obtain ⟨answer', t₁⟩ := outcome
        rw [hspec] at hagrees
        obtain ⟨rfl, hrelated'⟩ := hagrees
        obtain ⟨t', hrun'', hrelated''⟩ := ih (hrest _ _ _ _ himpl hspec) hrelated' hrun'
        refine ⟨t', ?_, hrelated''⟩
        rw [Transducer.run, hspec]
        dsimp only
        rw [hrun'']
        rfl

end Follows

end Transducer

end RtThread.Lib
