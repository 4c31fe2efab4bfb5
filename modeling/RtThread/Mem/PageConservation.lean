import RtThread.Mem.PageAlloc

namespace RtThread.Mem

open RtThread.Lib

structure PageHeap where
  pageList : List Run
  allocated : List Run

inductive PageOp
  | alloc (npages : Nat)
  | free (run : Run)
  deriving DecidableEq

def pageMachine (whole : Run) : Machine PageHeap PageOp where
  init s := rtPageInit whole.start whole.count = some s.pageList ∧ s.allocated = []
  exec s
    | .alloc npages =>
      match rtPageAlloc npages s.pageList with
      | (none, pageList) => some { s with pageList := pageList }
      | (some addr, pageList) => some ⟨pageList, ⟨addr, npages⟩ :: s.allocated⟩
    | .free run =>
      if run ∈ s.allocated then
        (rtPageFree run.start run.count s.pageList).map fun pageList =>
          ⟨pageList, s.allocated.erase run⟩
      else none

structure PageInv (whole : Run) (s : PageHeap) : Prop where
  whole_pos : whole.start ≠ 0 ∧ 0 < whole.count
  canonical : Canonical s.pageList
  pos : ∀ run ∈ s.allocated, 0 < run.count
  apart : s.allocated.Pairwise Run.Apart
  free_apart : ∀ b ∈ s.pageList, ∀ run ∈ s.allocated, b.Apart run
  covers : ∀ p, whole.Has p ↔ Covers s.pageList p ∨ Covers s.allocated p

structure PagesOk (whole : Run) (s : PageHeap) : Prop where
  increasing : s.pageList.Pairwise fun b b' => b.start < b'.start
  pos : ∀ b ∈ s.pageList, 0 < b.count
  apart : (s.pageList ++ s.allocated).Pairwise Run.Apart
  maximal : ∀ b ∈ s.pageList, ∀ b' ∈ s.pageList, b.stop ≠ b'.start
  pages : ∀ p, whole.Has p ↔ Covers (s.pageList ++ s.allocated) p
  alloc_none : ∀ npages, 0 < npages →
    ((rtPageAlloc npages s.pageList).1 = none ↔ ∀ b ∈ s.pageList, b.count < npages)
  free_some : ∀ run ∈ s.allocated, (rtPageFree run.start run.count s.pageList).isSome
  all_free : s.allocated = [] → s.pageList = [whole]

section Steps

variable {whole : Run} {s s' : PageHeap} {run : Run}

theorem covers_append {runs runs' : List Run} {p : Nat} :
    Covers (runs ++ runs') p ↔ Covers runs p ∨ Covers runs' p := by
  induction runs with
  | nil => simp
  | cons run runs ih => rw [List.cons_append, covers_cons, covers_cons, ih, or_assoc]

theorem apart_of_has {first second : Run} (hfirst : 0 < first.count) (hsecond : 0 < second.count)
    (hnone : ∀ p, first.Has p → ¬ second.Has p) : first.Apart second := by
  by_contra hmeet
  have hfirstStart := hnone first.start ⟨Nat.le_refl _, by unfold Run.stop; omega⟩
  have hsecondStart : ¬ first.Has second.start :=
    fun h => hnone _ h ⟨Nat.le_refl _, by unfold Run.stop; omega⟩
  unfold Run.Apart Run.Has at *
  omega

theorem PageInv.free (hinv : PageInv whole s) (hmem : run ∈ s.allocated) :
    ∃ pageList, rtPageFree run.start run.count s.pageList = some pageList ∧
      PageInv whole ⟨pageList, s.allocated.erase run⟩ := by
  have hpos := hinv.pos run hmem
  have hstart : run.start ≠ 0 := by
    have hhas := (hinv.covers run.start).mpr
      (.inr ⟨run, hmem, Nat.le_refl _, by unfold Run.stop; omega⟩)
    have hne := hinv.whole_pos.1
    exact Nat.ne_of_gt (Nat.lt_of_lt_of_le (Nat.pos_of_ne_zero hne) hhas.1)
  obtain ⟨pageList, hlink, hcanonical, hcovers⟩ := linkPages_spec (n := run.start)
    hinv.canonical hpos fun b hb => hinv.free_apart b hb run hmem
  rw [rtPageFree, if_pos ⟨hstart, Nat.pos_iff_ne_zero.mp hpos⟩]
  have hsplit : ∀ p, Covers s.allocated p ↔ run.Has p ∨ Covers (s.allocated.erase run) p := by
    intro p
    have hperm := List.perm_cons_erase hmem
    constructor
    · rintro ⟨other, hother, hp⟩
      rcases List.mem_cons.mp (hperm.mem_iff.mp hother) with rfl | hrest
      · exact .inl hp
      · exact .inr ⟨other, hrest, hp⟩
    · rintro (hp | ⟨other, hother, hp⟩)
      · exact ⟨run, hmem, hp⟩
      · exact ⟨other, List.mem_of_mem_erase hother, hp⟩
  have happart : ∀ other ∈ s.allocated.erase run, run.Apart other := by
    have hpairwise := (List.Perm.pairwise_iff (fun h => Run.Apart.symm h)
      (List.perm_cons_erase hmem)).mp hinv.apart
    exact (List.pairwise_cons.mp hpairwise).1
  refine ⟨pageList, hlink, hinv.whole_pos, hcanonical,
    fun other hother => hinv.pos other (List.mem_of_mem_erase hother),
    hinv.apart.sublist List.erase_sublist, fun b hb other hother => ?_, fun p => ?_⟩
  · refine apart_of_has (hcanonical.pos b hb) (hinv.pos other (List.mem_of_mem_erase hother))
      fun p hp hother' => ?_
    rcases (hcovers p).mp ⟨b, hb, hp⟩ with ⟨old, hold, hp'⟩ | hp'
    · exact (hinv.free_apart old hold other (List.mem_of_mem_erase hother)).not_has hp' hother'
    · exact (happart other hother).not_has hp' hother'
  · rw [hinv.covers, hsplit, hcovers, or_assoc]

theorem PageInv.alloc (hinv : PageInv whole s) {npages addr : Nat} {pageList : List Run}
    (halloc : rtPageAlloc npages s.pageList = (some addr, pageList)) :
    PageInv whole ⟨pageList, ⟨addr, npages⟩ :: s.allocated⟩ := by
  unfold rtPageAlloc at halloc
  split at halloc
  · cases halloc
  next hne =>
    have hpos := Nat.pos_of_ne_zero hne
    obtain ⟨hcanonical, htaken, hcovers⟩ := takePages_some hinv.canonical hpos halloc
    have hfresh : ∀ other ∈ s.allocated, (⟨addr, npages⟩ : Run).Apart other := by
      intro other hother
      refine apart_of_has hpos (hinv.pos other hother) fun p hp hp' => ?_
      obtain ⟨b, hb, hhas⟩ := htaken p hp
      exact (hinv.free_apart b hb other hother).not_has hhas hp'
    refine ⟨hinv.whole_pos, hcanonical, fun other hother => ?_,
      List.pairwise_cons.mpr ⟨hfresh, hinv.apart⟩, fun b hb other hother => ?_, fun p => ?_⟩
    · rcases List.mem_cons.mp hother with rfl | hother
      · exact hpos
      · exact hinv.pos other hother
    · have hfree := fun p (hp : b.Has p) => (hcovers p).mp ⟨b, hb, hp⟩
      rcases List.mem_cons.mp hother with rfl | hother
      · exact apart_of_has (hcanonical.pos b hb) hpos fun p hp => (hfree p hp).2
      · refine apart_of_has (hcanonical.pos b hb) (hinv.pos other hother) fun p hp hp' => ?_
        obtain ⟨old, hold, hhas⟩ := (hfree p hp).1
        exact (hinv.free_apart old hold other hother).not_has hhas hp'
    · rw [hinv.covers, covers_cons, hcovers]
      by_cases hp : (⟨addr, npages⟩ : Run).Has p
      · simp [hp, htaken p hp]
      · simp [hp]

theorem PageInv.exec {op : PageOp} (hinv : PageInv whole s)
    (hexec : (pageMachine whole).exec s op = some s') : PageInv whole s' := by
  cases op with
  | alloc npages =>
    simp only [pageMachine] at hexec
    split at hexec
    next pageList halloc =>
      cases hexec
      have hsame : pageList = s.pageList := by
        unfold rtPageAlloc at halloc
        split at halloc
        · exact (congrArg Prod.snd halloc).symm
        · have hnone := congrArg Prod.fst halloc
          rw [← takePages_none hnone]
          exact (congrArg Prod.snd halloc).symm
      rw [hsame]
      exact hinv
    next addr pageList halloc =>
      cases hexec
      exact hinv.alloc halloc
  | free run =>
    simp only [pageMachine] at hexec
    split at hexec
    next hmem =>
      obtain ⟨pageList, hfree, hinv'⟩ := hinv.free hmem
      rw [hfree] at hexec
      cases hexec
      exact hinv'
    · cases hexec

theorem PageInv.perm {pageList allocated allocated' : List Run}
    (hinv : PageInv whole ⟨pageList, allocated⟩) (hperm : allocated.Perm allocated') :
    PageInv whole ⟨pageList, allocated'⟩ where
  whole_pos := hinv.whole_pos
  canonical := hinv.canonical
  pos := fun run hmem => hinv.pos run (hperm.mem_iff.mpr hmem)
  apart := (hperm.pairwise_iff fun h => h.symm).mp hinv.apart
  free_apart := fun b hb run hmem => hinv.free_apart b hb run (hperm.mem_iff.mpr hmem)
  covers := fun p => by
    rw [hinv.covers]
    exact or_congr_right (exists_congr fun run => and_congr_left' hperm.mem_iff)

theorem PageInv.init (hinit : (pageMachine whole).init s) : PageInv whole s := by
  obtain ⟨hinit, hnone⟩ := hinit
  unfold rtPageInit rtPageFree at hinit
  split at hinit
  next hne =>
    simp only [linkPages, Option.some.injEq] at hinit
    have hpos := Nat.pos_of_ne_zero hne.2
    refine ⟨⟨hne.1, hpos⟩, ?_, by simp [hnone], by simp [hnone], by simp [hnone], fun p => ?_⟩
    · rw [← hinit]
      exact .singleton hpos
    · rw [← hinit, hnone]
      simp
  · cases hinit

theorem PageInv.pagesOk (hinv : PageInv whole s) : PagesOk whole s where
  increasing := by
    refine hinv.canonical.gaps.imp fun {b b'} hlt => ?_
    unfold Run.stop at hlt
    omega
  pos := hinv.canonical.pos
  apart := List.pairwise_append.mpr
    ⟨hinv.canonical.pairwise_apart, hinv.apart, hinv.free_apart⟩
  maximal := by
    intro b hb b' hb' heq
    refine hinv.canonical.stop_missing hb ?_
    rw [heq]
    exact hinv.canonical.start_covered hb'
  pages := fun p => by rw [hinv.covers, covers_append]
  alloc_none := fun npages hpos => by
    rw [rtPageAlloc, if_neg (Nat.pos_iff_ne_zero.mp hpos)]
    exact takePages_none_iff
  free_some := fun run hmem => by
    obtain ⟨pageList, hfree, -⟩ := hinv.free hmem
    rw [hfree]
    rfl
  all_free := fun hnone => by
    refine hinv.canonical.eq_singleton hinv.whole_pos.2 fun p => ?_
    rw [hinv.covers, hnone]
    simp

end Steps

theorem reachable_pagesOk {whole : Run} {s : PageHeap}
    (hreach : (pageMachine whole).Reachable (fun _ _ => True) s) : PagesOk whole s := by
  have hinv := hreach.invariant (PageInv whole) (fun s hinit => PageInv.init hinit)
    fun s op s' hinv _ hexec => hinv.exec hexec
  exact hinv.pagesOk

/-- Three runs, of which the middle one is given back last. -/
theorem reachable_pagesOk_middle :
    ∃ s, (pageMachine ⟨16, 10⟩).Reachable (fun _ _ => True) s ∧ s.pageList = [⟨16, 10⟩] ∧
      PagesOk ⟨16, 10⟩ s := by
  have hrun : ((pageMachine ⟨16, 10⟩).run (fun _ _ => True) ⟨[⟨16, 10⟩], []⟩
      [.alloc 2, .alloc 3, .alloc 4, .free ⟨16, 2⟩, .free ⟨21, 4⟩, .free ⟨18, 3⟩]).map
        PageHeap.pageList = some [⟨16, 10⟩] := by decide +kernel
  have hinit : (pageMachine ⟨16, 10⟩).init ⟨[⟨16, 10⟩], []⟩ := ⟨rfl, rfl⟩
  obtain ⟨s, hreach, hvalue⟩ := Machine.exists_reachable_of_run hinit hrun
  exact ⟨s, hreach, hvalue, reachable_pagesOk hreach⟩

end RtThread.Mem
