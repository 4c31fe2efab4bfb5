import RtThread.Lib.RunList
import RtThread.Lib.Transition

namespace RtThread.Mem

open RtThread.Lib Run

/-! The page allocator of `slab.c`.  Addresses are counted in pages, as the arithmetic of
`struct rt_page_head *` does, and `rt_page_list` is the list of its runs. -/

def takePages (npages : Nat) : List Run → Option Nat × List Run
  | [] => (none, [])
  | b :: next =>
    if b.count > npages then
      (some b.start, ⟨b.start + npages, b.count - npages⟩ :: next)
    else if b.count = npages then
      (some b.start, next)
    else
      let (addr, next) := takePages npages next
      (addr, b :: next)

def rtPageAlloc (npages : Nat) (pageList : List Run) : Option Nat × List Run :=
  if npages = 0 then (none, pageList) else takePages npages pageList

/-- The search of `rt_page_free`, with the assertions about the runs it meets. -/
def linkPages (n npages : Nat) : List Run → Option (List Run)
  | [] => some [⟨n, npages⟩]
  | b :: next =>
    if b.count > 0 ∧ (b.start > n ∨ b.start + b.count ≤ n) then
      if b.start + b.count = n then
        match next with
        | [] => some [⟨b.start, b.count + npages⟩]
        | after :: rest =>
          if b.start + (b.count + npages) = after.start then
            some (⟨b.start, b.count + npages + after.count⟩ :: rest)
          else some (⟨b.start, b.count + npages⟩ :: after :: rest)
      else if b.start = n + npages then some (⟨n, b.count + npages⟩ :: next)
      else if b.start > n + npages then some (⟨n, npages⟩ :: b :: next)
      else (linkPages n npages next).map (b :: ·)
    else none

def rtPageFree (n npages : Nat) (pageList : List Run) : Option (List Run) :=
  if n ≠ 0 ∧ npages ≠ 0 then linkPages n npages pageList else none

def rtPageInit (addr npages : Nat) : Option (List Run) := rtPageFree addr npages []

section Alloc

variable {npages addr : Nat} {pageList pageList' : List Run}

theorem takePages_none_iff :
    (takePages npages pageList).1 = none ↔ ∀ b ∈ pageList, b.count < npages := by
  induction pageList with
  | nil => simp [takePages]
  | cons b next ih =>
    simp only [takePages, List.forall_mem_cons]
    split
    next hlong => exact ⟨fun h => (by cases h), fun h => absurd h.1 (by omega)⟩
    · split
      · exact ⟨fun h => (by cases h), fun h => absurd h.1 (by omega)⟩
      · exact ih.trans ⟨fun h => ⟨by omega, h⟩, And.right⟩

theorem takePages_none (hnone : (takePages npages pageList).1 = none) :
    (takePages npages pageList).2 = pageList := by
  induction pageList with
  | nil => rfl
  | cons b next ih =>
    simp only [takePages] at hnone ⊢
    split at hnone
    · cases hnone
    next hshort =>
      split at hnone
      · cases hnone
      next hne =>
        rw [if_neg hshort, if_neg hne, ih hnone]

theorem takePages_some (hcanonical : Canonical pageList) (hpos : 0 < npages)
    (htake : takePages npages pageList = (some addr, pageList')) :
    Canonical pageList' ∧ (∀ p, (⟨addr, npages⟩ : Run).Has p → Covers pageList p) ∧
      ∀ p, Covers pageList' p ↔ Covers pageList p ∧ ¬ (⟨addr, npages⟩ : Run).Has p := by
  induction pageList generalizing pageList' with
  | nil => cases htake
  | cons b next ih =>
    have hlater := fun p (hp : Covers next p) => hcanonical.lt_of_covers hp
    simp only [takePages] at htake
    split at htake
    next hlong =>
      cases htake
      refine ⟨?_, fun p hp => covers_cons.mpr (.inl ?_), fun p => ?_⟩
      · refine hcanonical.tail.cons (Nat.sub_pos_of_lt hlong) fun p hp => ?_
        have hlt := hlater p hp
        unfold stop at hlt ⊢
        dsimp only
        omega
      · unfold Has stop at hp ⊢
        dsimp only at hp
        omega
      · rw [covers_cons, covers_cons]
        constructor
        · rintro (hp | hp)
          · unfold Has stop at hp ⊢
            dsimp only at hp ⊢
            omega
          · refine ⟨.inr hp, fun hhas => ?_⟩
            have hlt := hlater p hp
            unfold Has stop at *
            dsimp only at *
            omega
        · rintro ⟨hp | hp, hnot⟩
          · refine .inl ?_
            unfold Has stop at *
            dsimp only at *
            omega
          · exact .inr hp
    · split at htake
      next hfits =>
        cases htake
        subst hfits
        refine ⟨hcanonical.tail, fun p hp => covers_cons.mpr (.inl hp), fun p => ?_⟩
        rw [covers_cons]
        constructor
        · intro hp
          refine ⟨.inr hp, fun hhas => ?_⟩
          have hlt := hlater p hp
          unfold Has at hhas
          exact absurd hhas.2 (by unfold stop at *; dsimp only at *; omega)
        · rintro ⟨hp | hp, hnot⟩
          · exact absurd hp hnot
          · exact hp
      · generalize hrest : takePages npages next = rest at htake
        obtain ⟨found, rest⟩ := rest
        cases htake
        obtain ⟨hcanonical', hcovered, hleft⟩ := ih hcanonical.tail hrest
        refine ⟨hcanonical'.cons hcanonical.head_pos fun p hp => hlater p ((hleft p).mp hp).1,
          fun p hp => covers_cons.mpr (.inr (hcovered p hp)), fun p => ?_⟩
        rw [covers_cons, covers_cons, hleft]
        constructor
        · rintro (hp | ⟨hp, hnot⟩)
          · refine ⟨.inl hp, fun hhas => ?_⟩
            have hlt := hlater p (hcovered p hhas)
            exact absurd hp.2 (by omega)
          · exact ⟨.inr hp, hnot⟩
        · rintro ⟨hp | hp, hnot⟩
          · exact .inl hp
          · exact .inr ⟨hp, hnot⟩

end Alloc

section Free

variable {n npages : Nat} {pageList : List Run}

theorem linkPages_spec (hcanonical : Canonical pageList) (hpos : 0 < npages)
    (hapart : ∀ b ∈ pageList, b.Apart ⟨n, npages⟩) :
    ∃ pageList', linkPages n npages pageList = some pageList' ∧ Canonical pageList' ∧
      ∀ p, Covers pageList' p ↔ Covers pageList p ∨ (⟨n, npages⟩ : Run).Has p := by
  induction pageList with
  | nil => exact ⟨_, rfl, .singleton hpos, fun p => by simp⟩
  | cons b next ih =>
    have hb := hcanonical.head_pos
    have hbApart := hapart b List.mem_cons_self
    have hlater := fun p (hp : Covers next p) => hcanonical.lt_of_covers hp
    unfold Apart stop at hbApart
    dsimp only at hbApart
    have hassert : b.count > 0 ∧ (b.start > n ∨ b.start + b.count ≤ n) := by omega
    unfold linkPages
    rw [if_pos hassert]
    split
    next hends =>
      split
      · refine ⟨_, rfl, .singleton (Nat.add_pos_left hb _), fun p => ?_⟩
        simp only [covers_cons, covers_nil, or_false]
        unfold Has stop
        dsimp only
        omega
      next after rest =>
        have hafterApart := hapart after (by simp)
        have hafterLater := hlater _ (hcanonical.tail.start_covered List.mem_cons_self)
        unfold Apart stop at hafterApart
        unfold stop at hafterLater
        dsimp only at hafterApart
        split
        next hjoins =>
          refine ⟨_, rfl, ?_, fun p => ?_⟩
          · refine hcanonical.tail.tail.cons (by dsimp only; omega) fun p hp => ?_
            have hlt := hcanonical.tail.lt_of_covers hp
            unfold stop at hlt ⊢
            dsimp only
            omega
          · simp only [covers_cons]
            constructor
            · rintro (hp | hp)
              · unfold Has stop at *
                dsimp only at *
                omega
              · exact .inl (.inr (.inr hp))
            · rintro ((hp | hp | hp) | hp)
              all_goals first
                | exact .inr hp
                | (refine .inl ?_; unfold Has stop at *; dsimp only at *; omega)
        next hgap =>
          refine ⟨_, rfl, ?_, fun p => ?_⟩
          · refine hcanonical.tail.cons (by dsimp only; omega) fun p hp => ?_
            have hle : after.start ≤ p := by
              rcases covers_cons.mp hp with hp | hp
              · exact hp.1
              · have hlt := hcanonical.tail.lt_of_covers hp
                unfold stop at hlt
                omega
            unfold stop
            dsimp only
            omega
          · simp only [covers_cons]
            constructor
            · rintro (hp | hp | hp)
              · unfold Has stop at *
                dsimp only at *
                omega
              · exact .inl (.inr (.inl hp))
              · exact .inl (.inr (.inr hp))
            · rintro ((hp | hp | hp) | hp)
              · refine .inl ?_
                unfold Has stop at *
                dsimp only at *
                omega
              · exact .inr (.inl hp)
              · exact .inr (.inr hp)
              · refine .inl ?_
                unfold Has stop at *
                dsimp only at *
                omega
    next hends =>
      split
      next hbegins =>
        refine ⟨_, rfl, ?_, fun p => ?_⟩
        · refine hcanonical.tail.cons (by dsimp only; omega) fun p hp => ?_
          have hlt := hlater p hp
          unfold stop at hlt ⊢
          dsimp only
          omega
        · simp only [covers_cons]
          constructor
          · rintro (hp | hp)
            · unfold Has stop at *
              dsimp only at *
              omega
            · exact .inl (.inr hp)
          · rintro ((hp | hp) | hp)
            · refine .inl ?_
              unfold Has stop at *
              dsimp only at *
              omega
            · exact .inr hp
            · refine .inl ?_
              unfold Has stop at *
              dsimp only at *
              omega
      · split
        next hbefore =>
          refine ⟨_, rfl, ?_, fun p => ?_⟩
          · refine hcanonical.cons hpos fun p hp => ?_
            have hle : b.start ≤ p := by
              rcases covers_cons.mp hp with hp | hp
              · exact hp.1
              · have hlt := hlater p hp
                unfold stop at hlt
                omega
            unfold stop
            dsimp only
            omega
          · rw [covers_cons]
            exact or_comm
        next hbehind =>
          obtain ⟨next', hlink, hcanonical', hcovers⟩ :=
            ih hcanonical.tail fun other hmem => hapart other (List.mem_cons_of_mem _ hmem)
          refine ⟨b :: next', by rw [hlink]; rfl, ?_, fun p => ?_⟩
          · refine hcanonical'.cons hb fun p hp => ?_
            rcases (hcovers p).mp hp with hp | hp
            · exact hlater p hp
            · unfold Has stop at hp
              unfold stop
              dsimp only at hp
              omega
          · rw [covers_cons, covers_cons, hcovers, or_assoc]

end Free

end RtThread.Mem
