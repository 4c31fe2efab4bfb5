import Mathlib.Data.List.Basic

namespace RtThread.Lib

/-! Sets of numbers as lists of runs, in the one way that has the fewest of them. -/

structure Run where
  start : Nat
  count : Nat
  deriving DecidableEq

namespace Run

def stop (run : Run) : Nat := run.start + run.count

def Has (run : Run) (p : Nat) : Prop := run.start ≤ p ∧ p < run.stop

instance (run : Run) (p : Nat) : Decidable (run.Has p) := inferInstanceAs (Decidable (_ ∧ _))

def Apart (first second : Run) : Prop := first.stop ≤ second.start ∨ second.stop ≤ first.start

instance (first second : Run) : Decidable (first.Apart second) :=
  inferInstanceAs (Decidable (_ ∨ _))

theorem Apart.symm {first second : Run} (hapart : first.Apart second) : second.Apart first :=
  Or.symm hapart

theorem Apart.not_has {first second : Run} {p : Nat} (hapart : first.Apart second)
    (hp : first.Has p) : ¬ second.Has p := by
  unfold Has Apart at *
  omega

end Run

def Covers (runs : List Run) (p : Nat) : Prop := ∃ run ∈ runs, run.Has p

structure Canonical (runs : List Run) : Prop where
  pos : ∀ run ∈ runs, 0 < run.count
  gaps : runs.Pairwise fun first second => first.stop < second.start

section Covers

variable {run : Run} {runs runs' : List Run} {p : Nat}

@[simp] theorem covers_nil : ¬ Covers [] p := by
  rintro ⟨_, hmem, -⟩
  cases hmem

@[simp] theorem covers_cons : Covers (run :: runs) p ↔ run.Has p ∨ Covers runs p := by
  constructor
  · rintro ⟨other, hmem, hp⟩
    rcases List.mem_cons.mp hmem with rfl | hmem
    · exact .inl hp
    · exact .inr ⟨other, hmem, hp⟩
  · rintro (hp | ⟨other, hmem, hp⟩)
    · exact ⟨run, List.mem_cons_self, hp⟩
    · exact ⟨other, List.mem_cons_of_mem _ hmem, hp⟩

theorem Canonical.singleton (hpos : 0 < run.count) : Canonical [run] :=
  ⟨by simpa using hpos, List.pairwise_singleton _ _⟩

theorem Canonical.tail (hcanonical : Canonical (run :: runs)) : Canonical runs :=
  ⟨fun other hmem => hcanonical.pos other (List.mem_cons_of_mem _ hmem),
    (List.pairwise_cons.mp hcanonical.gaps).2⟩

theorem Canonical.head_pos (hcanonical : Canonical (run :: runs)) : 0 < run.count :=
  hcanonical.pos run List.mem_cons_self

theorem Canonical.start_covered (hcanonical : Canonical runs) {other : Run}
    (hmem : other ∈ runs) : Covers runs other.start := by
  refine ⟨other, hmem, Nat.le_refl _, ?_⟩
  have hpos := hcanonical.pos other hmem
  unfold Run.stop
  omega

theorem Canonical.lt_of_covers (hcanonical : Canonical (run :: runs)) (hp : Covers runs p) :
    run.stop < p := by
  obtain ⟨other, hmem, hstart, -⟩ := hp
  exact Nat.lt_of_lt_of_le ((List.pairwise_cons.mp hcanonical.gaps).1 other hmem) hstart

theorem Canonical.cons (hcanonical : Canonical runs) (hpos : 0 < run.count)
    (hgap : ∀ p, Covers runs p → run.stop < p) : Canonical (run :: runs) := by
  refine ⟨fun other hmem => ?_, List.pairwise_cons.mpr ⟨fun other hmem => ?_, hcanonical.gaps⟩⟩
  · rcases List.mem_cons.mp hmem with rfl | hmem
    · exact hpos
    · exact hcanonical.pos other hmem
  · exact hgap _ (hcanonical.start_covered hmem)

theorem Canonical.pairwise_apart (hcanonical : Canonical runs) : runs.Pairwise Run.Apart :=
  hcanonical.gaps.imp fun h => .inl (Nat.le_of_lt h)

theorem Canonical.stop_missing (hcanonical : Canonical runs) {other : Run}
    (hmem : other ∈ runs) : ¬ Covers runs other.stop := by
  induction runs with
  | nil => cases hmem
  | cons run rest ih =>
    rw [covers_cons]
    rintro (hself | hlater)
    · rcases List.mem_cons.mp hmem with rfl | hmem
      · exact absurd hself.2 (Nat.lt_irrefl _)
      · have hlt := hcanonical.lt_of_covers (hcanonical.tail.start_covered hmem)
        have hstop := hself.2
        unfold Run.stop at *
        omega
    · rcases List.mem_cons.mp hmem with rfl | hmem
      · exact absurd (hcanonical.lt_of_covers hlater) (Nat.lt_irrefl _)
      · exact ih hcanonical.tail hmem hlater

theorem Canonical.eq_singleton (hcanonical : Canonical runs) {whole : Run}
    (hpos : 0 < whole.count) (hcovers : ∀ p, Covers runs p ↔ whole.Has p) : runs = [whole] := by
  have hwhole : whole.Has whole.start := ⟨Nat.le_refl _, by unfold Run.stop; omega⟩
  cases runs with
  | nil => exact absurd ((hcovers whole.start).mpr hwhole) covers_nil
  | cons run rest =>
    have hrun := hcanonical.head_pos
    -- the first run begins where the numbers begin
    have hstart : run.start = whole.start := by
      have hle := ((hcovers run.start).mp (hcanonical.start_covered List.mem_cons_self)).1
      rcases covers_cons.mp ((hcovers whole.start).mpr hwhole) with hhas | hlater
      · exact Nat.le_antisymm hhas.1 hle
      · have hlt := hcanonical.lt_of_covers hlater
        unfold Run.stop at hlt
        omega
    -- it does not go further than they do
    have hstop : run.stop ≤ whole.stop := by
      have hlast : run.Has (run.stop - 1) := by
        unfold Run.Has Run.stop
        omega
      have hhas := ((hcovers (run.stop - 1)).mp (covers_cons.mpr (.inl hlast))).2
      omega
    -- and it does not end before them, since the number behind it is missing
    have hge : whole.stop ≤ run.stop := by
      by_contra hlt
      have hhas : whole.Has run.stop := ⟨by unfold Run.stop; omega, by omega⟩
      rcases covers_cons.mp ((hcovers run.stop).mpr hhas) with hself | hlater
      · exact absurd hself.2 (Nat.lt_irrefl _)
      · exact absurd (hcanonical.lt_of_covers hlater) (Nat.lt_irrefl _)
    have heq : run = whole := by
      unfold Run.stop at hstop hge
      cases run
      cases whole
      simp only [Run.mk.injEq] at *
      omega
    subst heq
    cases rest with
    | nil => rfl
    | cons next rest =>
      have hcovered := hcanonical.tail.start_covered List.mem_cons_self
      have hlt := hcanonical.lt_of_covers hcovered
      have hhas := ((hcovers next.start).mp (covers_cons.mpr (.inr hcovered))).2
      omega

end Covers

end RtThread.Lib
