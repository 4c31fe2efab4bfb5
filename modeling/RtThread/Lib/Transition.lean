import Mathlib.Logic.Function.Basic

namespace RtThread.Lib

/-! Labelled transition systems whose steps may be undefined.  A label is one
call of the modelled program; `none` says that the program has no defined
successor (a failed assertion, an access through a stray pointer, a contract
broken by the caller). -/

structure Machine (σ : Type u) (ι : Type v) where
  init : σ → Prop
  exec : σ → ι → Option σ

namespace Machine

/-- A state reached by some run all of whose steps, taken in the state before
them, satisfy `allowed`. -/
inductive Reachable (machine : Machine σ ι) (allowed : σ → ι → Prop) : σ → Prop
  | start : machine.init s → Reachable machine allowed s
  | step : Reachable machine allowed s → allowed s label →
      machine.exec s label = some s' → Reachable machine allowed s'

theorem Reachable.mono {machine : Machine σ ι}
    {weak strong : σ → ι → Prop} (himp : ∀ s label, strong s label → weak s label)
    (hreach : Reachable machine strong s) : Reachable machine weak s := by
  induction hreach with
  | start hinit => exact .start hinit
  | step _ hallowed hexec ih => exact .step ih (himp _ _ hallowed) hexec

/-- The invariant rule: what holds initially and is kept by every allowed step
holds in every reachable state. -/
theorem Reachable.invariant {machine : Machine σ ι} {allowed : σ → ι → Prop}
    (inv : σ → Prop) (hinit : ∀ s, machine.init s → inv s)
    (hstep : ∀ s label s', inv s → allowed s label →
      machine.exec s label = some s' → inv s')
    (hreach : Reachable machine allowed s) : inv s := by
  induction hreach with
  | start hs => exact hinit _ hs
  | step _ hallowed hexec ih => exact hstep _ _ _ ih hallowed hexec

inductive Path (machine : Machine σ ι) (allowed : σ → ι → Prop) (s : σ) : σ → Prop
  | refl : Path machine allowed s s
  | snoc : Path machine allowed s mid → allowed mid label →
      machine.exec mid label = some s' → Path machine allowed s s'

namespace Path

variable {machine : Machine σ ι} {allowed weak strong : σ → ι → Prop} {s s' s'' : σ}

theorem single {label : ι} (hallowed : allowed s label)
    (hexec : machine.exec s label = some s') : Path machine allowed s s' :=
  .snoc .refl hallowed hexec

theorem trans (hfirst : Path machine allowed s s') (hsecond : Path machine allowed s' s'') :
    Path machine allowed s s'' := by
  induction hsecond with
  | refl => exact hfirst
  | snoc _ hallowed hexec ih => exact ih.snoc hallowed hexec

theorem invariant (inv : σ → Prop)
    (hstep : ∀ s label s', inv s → allowed s label →
      machine.exec s label = some s' → inv s')
    (hpath : Path machine allowed s s') (hinv : inv s) : inv s' := by
  induction hpath with
  | refl => exact hinv
  | snoc _ hallowed hexec ih => exact hstep _ _ _ ih hallowed hexec

theorem reachable (hpath : Path machine allowed s s')
    (hreach : Reachable machine allowed s) : Reachable machine allowed s' := by
  induction hpath with
  | refl => exact hreach
  | snoc _ hallowed hexec ih => exact ih.step hallowed hexec

end Path

def run (machine : Machine σ ι) (allowed : σ → ι → Prop)
    [∀ s label, Decidable (allowed s label)] : σ → List ι → Option σ
  | s, [] => some s
  | s, label :: labels =>
    if allowed s label then
      match machine.exec s label with
      | none => none
      | some s' => machine.run allowed s' labels
    else none

theorem Reachable.run {machine : Machine σ ι} {allowed : σ → ι → Prop}
    [∀ s label, Decidable (allowed s label)] {labels : List ι}
    (hreach : Reachable machine allowed s)
    (hrun : machine.run allowed s labels = some s') :
    Reachable machine allowed s' := by
  induction labels generalizing s with
  | nil =>
    cases hrun
    exact hreach
  | cons label labels ih =>
    simp only [Machine.run] at hrun
    split at hrun
    next hallowed =>
      split at hrun
      · cases hrun
      next hexec => exact ih (hreach.step hallowed hexec) hrun
    · cases hrun

theorem exists_reachable_of_run {machine : Machine σ ι} {allowed : σ → ι → Prop}
    [∀ s label, Decidable (allowed s label)] {labels : List ι} {α : Type w}
    {observe : σ → α} {value : α} (hinit : machine.init s)
    (hrun : (machine.run allowed s labels).map observe = some value) :
    ∃ s', Reachable machine allowed s' ∧ observe s' = value := by
  obtain ⟨s', hs', hvalue⟩ := Option.map_eq_some_iff.mp hrun
  exact ⟨s', (Reachable.start hinit).run hs', hvalue⟩

end Machine

end RtThread.Lib
