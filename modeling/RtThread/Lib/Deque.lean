import Mathlib.Data.List.Induction

namespace RtThread.Lib

/-! The meaning of a queue that can be fed at both ends and is emptied from the
front: a log of operations determines its contents and what has been taken out. -/

inductive DequeOp (α : Type u)
  | append (value : α)
  | prepend (value : α)
  | pop
  | clear
  deriving DecidableEq

structure Deque (α : Type u) where
  contents : List α
  popped : List α
  deriving DecidableEq

namespace Deque

variable {α : Type u}

def empty : Deque α := ⟨[], []⟩

/-- Taking from an empty queue has no meaning. -/
def apply (d : Deque α) : DequeOp α → Option (Deque α)
  | .append value => some { d with contents := d.contents ++ [value] }
  | .prepend value => some { d with contents := value :: d.contents }
  | .pop =>
    match d.contents with
    | [] => none
    | value :: rest => some { contents := rest, popped := d.popped ++ [value] }
  | .clear => some { d with contents := [] }

def run (log : List (DequeOp α)) : Option (Deque α) := log.foldlM apply empty

theorem run_snoc {log : List (DequeOp α)} {d : Deque α} (hrun : run log = some d)
    (op : DequeOp α) : run (log ++ [op]) = d.apply op := by
  simp only [run] at hrun ⊢
  simp [List.foldlM_append, hrun]

theorem length_popped [DecidableEq α] {log : List (DequeOp α)} {d : Deque α}
    (hrun : run log = some d) : d.popped.length = log.count .pop := by
  induction log using List.reverseRecOn generalizing d with
  | nil =>
    cases hrun
    rfl
  | append_singleton log op ih =>
    cases hbefore : run log with
    | none => simp [run, List.foldlM_append] at hrun hbefore; simp [hbefore] at hrun
    | some before =>
      rw [run_snoc hbefore] at hrun
      have hlength := ih hbefore
      rw [List.count_append, ← hlength]
      cases op with
      | append value => cases hrun; rfl
      | prepend value => cases hrun; rfl
      | clear => cases hrun; rfl
      | pop =>
        simp only [apply] at hrun
        split at hrun
        · cases hrun
        next value rest hcontents =>
          cases hrun
          simp

end Deque

end RtThread.Lib
