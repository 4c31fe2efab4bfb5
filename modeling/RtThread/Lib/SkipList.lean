import Mathlib.Data.List.Nodup
import Mathlib.Data.List.Chain

namespace RtThread.Lib.SkipList

/-! A skip list: rows of nodes, the shortest first, each of them part of the row
below.  The search for the place of a new node goes through the rows from the top
and enters each of them at the node where it has left the row above.  It passes
the nodes that `stays` accepts. -/

variable {α : Type u}

/-- What follows the node `head` in a row, or the list head `none`; undefined for a
node that is not in the row. -/
def suffixAfter [DecidableEq α] (head : Option α) (row : List α) : Option (List α) :=
  match head with
  | none => some row
  | some node => if node ∈ row then some (row.dropWhile (· ≠ node)).tail else none

def walk (stays : α → Bool) (head : Option α) : List α → Option α
  | [] => head
  | node :: rest => if stays node then walk stays (some node) rest else head

def rowHeads [DecidableEq α] (stays : α → Bool) (head : Option α) :
    List (List α) → Option (List (Option α))
  | [] => some []
  | row :: rows => do
      let suffix ← suffixAfter head row
      let found := walk stays head suffix
      let heads ← rowHeads stays found rows
      return found :: heads

def insertBehind [DecidableEq α] (node new : α) : List α → List α
  | [] => []
  | u :: rest => if u = node then u :: new :: rest else u :: insertBehind node new rest

def insertAfter [DecidableEq α] (head : Option α) (new : α) (row : List α) : List α :=
  match head with
  | none => new :: row
  | some node => insertBehind node new row

def insertRows [DecidableEq α] (new : α) (count : Nat) : List (Option α) → List (List α) → List (List α)
  | head :: heads, row :: rows =>
    (if rows.length < count then insertAfter head new row else row) ::
      insertRows new count heads rows
  | _, rows => rows

section Row

variable {stays : α → Bool} {row pre post : List α} {head : Option α} {node new : α}

def Downward (stays : α → Bool) (row : List α) : Prop :=
  row.Pairwise fun u v => stays v = true → stays u = true

def place (stays : α → Bool) (row : List α) : Option α := (row.filter stays).getLast?

def inserted (stays : α → Bool) (new : α) (row : List α) : List α :=
  row.filter stays ++ new :: row.filter (fun u => !stays u)

theorem filter_append_filter (hdown : Downward stays row) :
    row.filter stays ++ row.filter (fun u => !stays u) = row := by
  induction row with
  | nil => rfl
  | cons u rest ih =>
    obtain ⟨hhead, hrest⟩ := List.pairwise_cons.mp hdown
    cases hu : stays u with
    | true => simpa [hu] using ih hrest
    | false =>
      have hnone : ∀ v ∈ rest, stays v = false := by
        intro v hv
        cases hstays : stays v with
        | true => exact absurd (hhead v hv hstays) (by simp [hu])
        | false => rfl
      have hempty : rest.filter stays = [] := by
        rw [List.filter_eq_nil_iff]
        intro v hv
        simp [hnone v hv]
      have hall : rest.filter (fun u => !stays u) = rest := by
        rw [List.filter_eq_self]
        intro v hv
        simp [hnone v hv]
      simp [hu, hempty, hall]

theorem walk_append (hpre : ∀ u ∈ pre, stays u = true)
    (hpost : ∀ u ∈ post, stays u = false) :
    walk stays head (pre ++ post) = pre.getLast?.or head := by
  induction pre generalizing head with
  | nil =>
    cases post with
    | nil => rfl
    | cons u rest => simp [walk, hpost u List.mem_cons_self]
  | cons u rest ih =>
    rw [List.cons_append, walk, if_pos (hpre u List.mem_cons_self),
      ih fun v hv => hpre v (List.mem_cons_of_mem u hv), List.getLast?_cons]
    cases rest.getLast? <;> rfl

theorem suffixAfter_append [DecidableEq α] (hnodup : (pre ++ node :: post).Nodup) :
    suffixAfter (some node) (pre ++ node :: post) = some post := by
  have hfree : node ∉ pre := by
    intro hmem
    exact (List.nodup_append.mp hnodup).2.2 node hmem node List.mem_cons_self rfl
  have hmem : node ∈ pre ++ node :: post := by simp
  have hdrop : (pre ++ node :: post).dropWhile (· ≠ node) = node :: post := by
    rw [List.dropWhile_append_of_pos]
    · simp
    · intro u hu
      rw [decide_eq_true_eq]
      rintro rfl
      exact hfree hu
  simp only [suffixAfter]
  rw [if_pos hmem, hdrop, List.tail_cons]

theorem insertBehind_append [DecidableEq α] (hfree : node ∉ pre) :
    insertBehind node new (pre ++ node :: post) = pre ++ node :: new :: post := by
  induction pre with
  | nil => simp [insertBehind]
  | cons u rest ih =>
    rw [List.mem_cons, not_or] at hfree
    have hne : u ≠ node := fun h => hfree.1 h.symm
    simp [insertBehind, hne, ih hfree.2]

theorem walk_suffixAfter [DecidableEq α] (hdown : Downward stays row) (hnodup : row.Nodup)
    (hhead : ∀ node, head = some node → node ∈ row ∧ stays node = true) :
    ∃ suffix, suffixAfter head row = some suffix ∧
      walk stays head suffix = place stays row := by
  have hsplit := filter_append_filter hdown
  have hearlier : ∀ u ∈ row.filter stays, stays u = true :=
    fun u hu => (List.mem_filter.mp hu).2
  have hlater : ∀ u ∈ row.filter (fun u => !stays u), stays u = false := by
    intro u hu
    simpa using (List.mem_filter.mp hu).2
  cases head with
  | none =>
    refine ⟨row, rfl, ?_⟩
    have hwalk := @walk_append _ _ _ _ none hearlier hlater
    rw [hsplit] at hwalk
    rw [hwalk, Option.or_none, place]
  | some node =>
    obtain ⟨hmem, hstays⟩ := hhead node rfl
    obtain ⟨pre, post, hparts⟩ := List.append_of_mem (List.mem_filter.mpr ⟨hmem, hstays⟩)
    rw [hparts, List.append_assoc, List.cons_append] at hsplit
    refine ⟨post ++ row.filter (fun u => !stays u), ?_, ?_⟩
    · have hsuffix := suffixAfter_append (hsplit ▸ hnodup)
      rwa [hsplit] at hsuffix
    · rw [walk_append ?_ hlater, place, hparts, List.getLast?_append, List.getLast?_cons]
      · cases post.getLast? <;> rfl
      · intro u hu
        exact hearlier u (by simp [hparts, hu])

theorem insertAfter_place [DecidableEq α] (hdown : Downward stays row) (hnodup : row.Nodup)
    (new : α) :
    insertAfter (place stays row) new row = inserted stays new row := by
  have hsplit := filter_append_filter hdown
  rw [place, inserted]
  rcases List.eq_nil_or_concat' (row.filter stays) with hnil | ⟨init, last, hlast⟩
  · rw [hnil, List.nil_append] at hsplit
    rw [hnil, hsplit]
    rfl
  · rw [hlast, List.append_assoc, List.singleton_append] at hsplit
    have hfree : last ∉ init := by
      have hinit := hsplit ▸ hnodup
      intro hmem
      exact (List.nodup_append.mp hinit).2.2 last hmem last List.mem_cons_self rfl
    rw [hlast, List.getLast?_concat, List.append_assoc, List.singleton_append]
    conv =>
      lhs
      rw [← hsplit]
    exact insertBehind_append hfree

theorem mem_inserted {u : α} : u ∈ inserted stays new row ↔ u = new ∨ u ∈ row := by
  simp only [inserted, List.mem_append, List.mem_cons, List.mem_filter]
  cases hu : stays u with
  | true => simp [or_comm]
  | false => simp

theorem inserted_sublist {row' : List α} (hsub : row.Sublist row') :
    (inserted stays new row).Sublist (inserted stays new row') :=
  (hsub.filter _).append ((hsub.filter _).cons_cons new)

theorem sublist_inserted (hdown : Downward stays row) : row.Sublist (inserted stays new row) := by
  have hsub : (row.filter stays ++ row.filter (fun u => !stays u)).Sublist
      (inserted stays new row) :=
    (List.Sublist.refl _).append (List.sublist_cons_self new _)
  rwa [filter_append_filter hdown] at hsub

theorem inserted_pairwise {r : α → α → Prop} (hrow : row.Pairwise r)
    (hdown : Downward stays row)
    (hbefore : ∀ u ∈ row, stays u = true → r u new)
    (hafter : ∀ u ∈ row, stays u = false → r new u) :
    (inserted stays new row).Pairwise r := by
  rw [← filter_append_filter hdown, List.pairwise_append] at hrow
  obtain ⟨hpre, hpost, hcross⟩ := hrow
  rw [inserted, List.pairwise_append, List.pairwise_cons]
  refine ⟨hpre, ⟨fun u hu => ?_, hpost⟩, fun u hu v hv => ?_⟩
  · obtain ⟨hmem, hlater⟩ := List.mem_filter.mp hu
    exact hafter u hmem (by simpa using hlater)
  · rcases List.mem_cons.mp hv with rfl | hv
    · obtain ⟨hmem, hstays⟩ := List.mem_filter.mp hu
      exact hbefore u hmem hstays
    · exact hcross u hu v hv

end Row

section Rows

variable {stays : α → Bool} {rows : List (List α)} {row : List α} {new : α} {count : Nat}

structure Searchable (stays : α → Bool) (rows : List (List α)) : Prop where
  down : ∀ row ∈ rows, Downward stays row
  nodup : ∀ row ∈ rows, row.Nodup
  chain : rows.IsChain List.Sublist

theorem Searchable.tail (hrows : Searchable stays (row :: rows)) : Searchable stays rows where
  down := fun r hr => hrows.down r (List.mem_cons_of_mem _ hr)
  nodup := fun r hr => hrows.nodup r (List.mem_cons_of_mem _ hr)
  chain := hrows.chain.tail

theorem sublist_getLast? (hchain : rows.IsChain List.Sublist) (hmem : row ∈ rows)
    {bottom : List α} (hbottom : rows.getLast? = some bottom) : row.Sublist bottom := by
  induction rows generalizing row with
  | nil => cases hmem
  | cons first rows ih =>
    cases rows with
    | nil =>
      have heq : first = bottom := Option.some.inj hbottom
      rw [List.mem_singleton.mp hmem, heq]
    | cons second rest =>
      obtain ⟨hsub, hrest⟩ := List.isChain_cons_cons.mp hchain
      rw [List.getLast?_cons_cons] at hbottom
      rcases List.mem_cons.mp hmem with rfl | hmem
      · exact hsub.trans (ih hrest List.mem_cons_self hbottom)
      · exact ih hrest hmem hbottom

theorem rowHeads_eq_from [DecidableEq α] (hrows : Searchable stays rows) {head : Option α}
    (hhead : ∀ node, head = some node → stays node = true ∧
      ∀ row, rows.head? = some row → node ∈ row) :
    rowHeads stays head rows = some (rows.map (place stays)) := by
  induction rows generalizing head with
  | nil => rfl
  | cons row rows ih =>
    have hdown := hrows.down row List.mem_cons_self
    have hnodup := hrows.nodup row List.mem_cons_self
    have hentry : ∀ node, head = some node → node ∈ row ∧ stays node = true :=
      fun node h => ⟨(hhead node h).2 row rfl, (hhead node h).1⟩
    obtain ⟨suffix, hsuffix, hwalk⟩ := walk_suffixAfter hdown hnodup hentry
    have hrest : rowHeads stays (place stays row) rows = some (rows.map (place stays)) := by
      apply ih hrows.tail
      intro node hplace
      obtain ⟨hmem, hstays⟩ := List.mem_filter.mp (List.mem_of_getLast? hplace)
      refine ⟨hstays, fun next hnext => ?_⟩
      cases rows with
      | nil => cases hnext
      | cons second rest =>
        cases hnext
        exact (List.isChain_cons_cons.mp hrows.chain).1.subset hmem
    simp [rowHeads, hsuffix, hwalk, hrest]

theorem rowHeads_eq [DecidableEq α] (hrows : Searchable stays rows) :
    rowHeads stays none rows = some (rows.map (place stays)) :=
  rowHeads_eq_from hrows (fun _ h => by cases h)

/-- What `insertRows` makes of the rows at the places found. -/
def insertedRows (stays : α → Bool) (new : α) (count : Nat) : List (List α) → List (List α)
  | [] => []
  | row :: rows =>
    (if rows.length < count then inserted stays new row else row) ::
      insertedRows stays new count rows

theorem insertRows_eq [DecidableEq α] (hrows : Searchable stays rows) :
    insertRows new count (rows.map (place stays)) rows = insertedRows stays new count rows := by
  induction rows with
  | nil => rfl
  | cons row rows ih =>
    have hrow := insertAfter_place (hrows.down row List.mem_cons_self)
      (hrows.nodup row List.mem_cons_self) new
    simp only [List.map_cons, insertRows, insertedRows]
    rw [ih hrows.tail, hrow]

@[simp] theorem length_insertedRows : (insertedRows stays new count rows).length = rows.length := by
  induction rows with
  | nil => rfl
  | cons row rows ih => simp [insertedRows, ih]

theorem mem_insertedRows {row' : List α} (hmem : row' ∈ insertedRows stays new count rows) :
    ∃ row ∈ rows, row' = row ∨ row' = inserted stays new row := by
  induction rows with
  | nil => cases hmem
  | cons row rows ih =>
    simp only [insertedRows, List.mem_cons] at hmem
    rcases hmem with rfl | hmem
    · refine ⟨row, List.mem_cons_self, ?_⟩
      split
      · exact .inr rfl
      · exact .inl rfl
    · obtain ⟨old, hold, heq⟩ := ih hmem
      exact ⟨old, List.mem_cons_of_mem _ hold, heq⟩

theorem insertedRows_isChain (hrows : Searchable stays rows) :
    (insertedRows stays new count rows).IsChain List.Sublist := by
  induction rows with
  | nil => exact List.isChain_nil
  | cons row rows ih =>
    cases rows with
    | nil => exact List.isChain_singleton _
    | cons second rest =>
      have hsub := (List.isChain_cons_cons.mp hrows.chain).1
      have hsecond := hrows.down second (by simp)
      refine List.isChain_cons_cons.mpr ⟨?_, ih hrows.tail⟩
      -- a row gets the node only if the row below gets it
      by_cases htop : (second :: rest).length < count
      · have hbelow : rest.length < count := by
          rw [List.length_cons] at htop
          omega
        rw [if_pos htop, if_pos hbelow]
        exact inserted_sublist hsub
      · rw [if_neg htop]
        split
        · exact hsub.trans (sublist_inserted hsecond)
        · exact hsub

theorem getLast?_insertedRows (hcount : 0 < count) :
    (insertedRows stays new count rows).getLast? = rows.getLast?.map (inserted stays new) := by
  induction rows with
  | nil => rfl
  | cons row rows ih =>
    cases rows with
    | nil => simp [insertedRows, hcount]
    | cons second rest =>
      rw [List.getLast?_cons_cons, ← ih]
      simp only [insertedRows, List.getLast?_cons_cons]

end Rows

def removeRows [DecidableEq α] (node : α) (rows : List (List α)) : List (List α) :=
  rows.map fun row => row.filter (· ≠ node)

section Remove

variable [DecidableEq α] {rows : List (List α)} {node : α}

theorem mem_removeRows {row' : List α} (hmem : row' ∈ removeRows node rows) :
    ∃ row ∈ rows, row'.Sublist row ∧ node ∉ row' := by
  obtain ⟨row, hrow, rfl⟩ := List.mem_map.mp hmem
  exact ⟨row, hrow, List.filter_sublist, by simp⟩

theorem removeRows_isChain (hchain : rows.IsChain List.Sublist) :
    (removeRows node rows).IsChain List.Sublist := by
  induction rows with
  | nil => exact List.isChain_nil
  | cons row rows ih =>
    cases rows with
    | nil => exact List.isChain_singleton _
    | cons second rest =>
      obtain ⟨hsub, hrest⟩ := List.isChain_cons_cons.mp hchain
      exact List.isChain_cons_cons.mpr ⟨hsub.filter _, ih hrest⟩

theorem getLast?_removeRows :
    (removeRows node rows).getLast? = rows.getLast?.map fun row => row.filter (· ≠ node) := by
  rw [removeRows, List.getLast?_map]

end Remove

section Nested

variable {stays : α → Bool} {head : Option α} {row next pre mid post : List α}
  {rows : List (List α)} {new : α} {count : Nat}

/-- Each row is part of the next, in any order of the nodes. -/
structure Nested (rows : List (List α)) : Prop where
  nodup : ∀ row ∈ rows, row.Nodup
  chain : rows.IsChain List.Sublist

theorem Nested.tail (hrows : Nested (row :: rows)) : Nested rows where
  nodup := fun r hr => hrows.nodup r (List.mem_cons_of_mem _ hr)
  chain := hrows.chain.tail

theorem walk_eq (suffix : List α) :
    ∃ mid post, suffix = mid ++ post ∧ (∀ u ∈ mid, stays u = true) ∧
      (∀ u, post.head? = some u → stays u = false) ∧
      walk stays head suffix = mid.getLast?.or head := by
  induction suffix generalizing head with
  | nil => exact ⟨[], [], rfl, by simp, by simp, by simp [walk]⟩
  | cons u rest ih =>
    cases hu : stays u with
    | false =>
      refine ⟨[], u :: rest, rfl, by simp, ?_, by simp [walk, hu]⟩
      intro v hv
      cases hv
      exact hu
    | true =>
      obtain ⟨mid, post, rfl, hmid, hpost, hwalk⟩ := @ih (some u)
      refine ⟨u :: mid, post, rfl, ?_, hpost, ?_⟩
      · intro v hv
        rcases List.mem_cons.mp hv with rfl | hv
        · exact hu
        · exact hmid v hv
      · rw [walk, if_pos hu, hwalk, List.getLast?_cons]
        cases mid.getLast? <;> rfl

theorem suffixAfter_eq [DecidableEq α] (hnodup : (pre ++ post).Nodup)
    (hhead : pre.getLast? = head) : suffixAfter head (pre ++ post) = some post := by
  cases head with
  | none =>
    rw [List.getLast?_eq_none_iff] at hhead
    rw [hhead]
    rfl
  | some node =>
    obtain ⟨init, rfl⟩ := List.getLast?_eq_some_iff.mp hhead
    rw [List.append_assoc, List.singleton_append] at hnodup ⊢
    exact suffixAfter_append hnodup

theorem insertAfter_eq [DecidableEq α] (hnodup : (pre ++ post).Nodup)
    (hhead : pre.getLast? = head) :
    insertAfter head new (pre ++ post) = pre ++ new :: post := by
  cases head with
  | none =>
    rw [List.getLast?_eq_none_iff] at hhead
    rw [hhead]
    rfl
  | some node =>
    obtain ⟨init, rfl⟩ := List.getLast?_eq_some_iff.mp hhead
    rw [List.append_assoc, List.singleton_append] at hnodup ⊢
    have hfree : node ∉ init := by
      intro hmem
      exact (List.nodup_append.mp hnodup).2.2 node hmem node List.mem_cons_self rfl
    rw [List.append_assoc, List.singleton_append]
    exact insertBehind_append hfree

theorem sublist_split (hnodup : (pre ++ mid).Nodup) {pre' post' : List α}
    (hsub : (pre' ++ post').Sublist (pre ++ mid)) (hlast : pre'.getLast? = pre.getLast?) :
    pre'.Sublist pre ∧ post'.Sublist mid := by
  cases hpre : pre.getLast? with
  | none =>
    rw [hpre, List.getLast?_eq_none_iff] at hlast
    rw [List.getLast?_eq_none_iff] at hpre
    subst hlast
    subst hpre
    exact ⟨List.nil_sublist _, hsub⟩
  | some node =>
    rw [hpre] at hlast
    obtain ⟨init', rfl⟩ := List.getLast?_eq_some_iff.mp hlast
    obtain ⟨init, rfl⟩ := List.getLast?_eq_some_iff.mp hpre
    have hmid : node ∉ mid := by
      intro hmem
      exact (List.nodup_append.mp hnodup).2.2 node (by simp) node hmem rfl
    have hinit : node ∉ init := by
      have hsplit := (List.nodup_append.mp hnodup).1
      intro hmem
      exact (List.nodup_append.mp hsplit).2.2 node hmem node List.mem_cons_self rfl
    rw [List.append_assoc, List.append_assoc, List.singleton_append, List.singleton_append] at hsub
    obtain ⟨left, right, heq, hleft, hright⟩ := List.sublist_append_iff.mp hsub
    -- the node itself can only be matched with the node
    have hparts : left = init' ∧ right = node :: post' := by
      rcases List.append_eq_append_iff.mp heq with ⟨extra, hl, hr⟩ | ⟨extra, hl, hr⟩
      · cases extra with
        | nil => exact ⟨by simpa using hl, by simpa using hr.symm⟩
        | cons u extra =>
          rw [List.cons_append, List.cons.injEq] at hr
          have hmem : node ∈ left := by simp [hl, hr.1]
          exact absurd (hleft.subset hmem) hinit
      · cases extra with
        | nil => exact ⟨by simpa using hl.symm, by simpa using hr⟩
        | cons u extra =>
          rw [hr] at hright
          have hrest : node ∈ extra ++ node :: post' := by simp
          rcases List.cons_sublist_cons'.mp hright with hsub | ⟨-, hsub⟩
          · exact absurd (hsub.subset (List.mem_cons_of_mem _ hrest)) hmid
          · exact absurd (hsub.subset hrest) hmid
    obtain ⟨rfl, rfl⟩ := hparts
    exact ⟨hleft.append_right _, List.cons_sublist_cons.mp hright⟩

theorem sublist_of_stays (hsub : row.Sublist (mid ++ post))
    (hmid : ∀ u ∈ mid, stays u = true)
    (hrow : ∀ u, row.head? = some u → stays u = false) : row.Sublist post := by
  induction mid with
  | nil => exact hsub
  | cons v mid ih =>
    cases row with
    | nil => exact List.nil_sublist _
    | cons u rest =>
      have hne : u ≠ v := by
        rintro rfl
        simp [hmid u List.mem_cons_self] at hrow
      exact ih (List.Sublist.of_cons_of_ne hne hsub)
        fun w hw => hmid w (List.mem_cons_of_mem v hw)

theorem mem_insert_middle {u : α} : u ∈ pre ++ new :: post ↔ u = new ∨ u ∈ pre ++ post := by
  simp only [List.mem_append, List.mem_cons]
  tauto

theorem nodup_insert_middle (hnodup : (pre ++ post).Nodup) (hfree : new ∉ pre ++ post) :
    (pre ++ new :: post).Nodup :=
  List.nodup_middle.mpr (List.nodup_cons.mpr ⟨hfree, hnodup⟩)

theorem insertRows_nested_from [DecidableEq α] (hrows : Nested rows)
    (hfree : ∀ row ∈ rows, new ∉ row)
    (hhead : ∀ row, rows.head? = some row →
      ∃ pre post, row = pre ++ post ∧ pre.getLast? = head) :
    ∃ heads, rowHeads stays head rows = some heads ∧
      Nested (insertRows new count heads rows) ∧
      (insertRows new count heads rows).length = rows.length ∧
      (0 < count → ∀ bottom, rows.getLast? = some bottom →
        ∃ bottom', (insertRows new count heads rows).getLast? = some bottom' ∧
          ∀ u, u ∈ bottom' ↔ u = new ∨ u ∈ bottom) ∧
      ∀ before row, rows.head? = some row → Nested (before :: rows) →
        new ∉ before →
        (∃ pre post, before = pre ++ post ∧ pre.getLast? = head ∧
          ∀ u, post.head? = some u → stays u = false) →
        ∃ row', (insertRows new count heads rows).head? = some row' ∧
          before.Sublist row' ∧
          (rows.length ≤ count → (insertAfter head new before).Sublist row') := by
  induction rows generalizing head with
  | nil =>
    refine ⟨[], rfl, ⟨by simp [insertRows], by simp [insertRows]⟩, rfl, by simp, by simp⟩
  | cons row rows ih =>
    obtain ⟨pre, post, rfl, hpre⟩ := hhead row rfl
    have hnodup := hrows.nodup _ List.mem_cons_self
    have hfreeRow := hfree _ List.mem_cons_self
    obtain ⟨mid, last, rfl, hmid, hlast, hwalk⟩ := @walk_eq _ stays head post
    have hcut : (pre ++ mid).getLast? = walk stays head (mid ++ last) := by
      rw [List.getLast?_append, hpre, hwalk]
    have hrowCut : pre ++ (mid ++ last) = (pre ++ mid) ++ last :=
      (List.append_assoc _ _ _).symm
    -- the rows below are entered at the node found here
    have hbelow : ∀ next, rows.head? = some next → ∃ pre post, next = pre ++ post ∧
        pre.getLast? = walk stays head (mid ++ last) := by
      intro next hnext
      rw [← hcut]
      cases hnode : (pre ++ mid).getLast? with
      | none => exact ⟨[], next, rfl, rfl⟩
      | some node =>
        have hmem : node ∈ next := by
          cases rows with
          | nil => cases hnext
          | cons second rest =>
            cases hnext
            refine (List.isChain_cons_cons.mp hrows.chain).1.subset ?_
            rw [hrowCut]
            exact List.mem_append_left _ (List.mem_of_getLast? hnode)
        obtain ⟨init, rest, rfl⟩ := List.append_of_mem hmem
        exact ⟨init ++ [node], rest, by simp, by simp⟩
    obtain ⟨heads, hheads, hnested, hlength, hbottom, hfirst⟩ :=
      ih hrows.tail (fun r hr => hfree r (List.mem_cons_of_mem _ hr)) hbelow
    have hinsert : insertAfter (walk stays head (mid ++ last)) new (pre ++ (mid ++ last)) =
        (pre ++ mid) ++ new :: last := by
      rw [hrowCut]
      exact insertAfter_eq (hrowCut ▸ hnodup) hcut
    have hnodup' : ((pre ++ mid) ++ new :: last).Nodup :=
      nodup_insert_middle (hrowCut ▸ hnodup) (hrowCut ▸ hfreeRow)
    refine ⟨walk stays head (mid ++ last) :: heads, ?_, ⟨?_, ?_⟩, ?_, ?_, ?_⟩
    · simp [rowHeads, suffixAfter_eq hnodup hpre, hheads]
    · intro r hr
      simp only [insertRows, List.mem_cons] at hr
      rcases hr with rfl | hr
      · split
        · rw [hinsert]
          exact hnodup'
        · exact hnodup
      · exact hnested.nodup r hr
    · simp only [insertRows]
      cases hrest : insertRows new count heads rows with
      | nil => exact List.isChain_singleton _
      | cons row' rest' =>
        rw [hrest] at hnested hfirst hlength
        cases rows with
        | nil => simp at hlength
        | cons second rest =>
          obtain ⟨row'', hrow'', hkeep, hadd⟩ := hfirst _ second rfl hrows hfreeRow
            ⟨pre ++ mid, last, hrowCut, hcut, hlast⟩
          cases hrow''
          refine List.isChain_cons_cons.mpr ⟨?_, hnested.chain⟩
          split
          next hcount => exact hadd hcount.le
          · exact hkeep
    · simp [insertRows, hlength]
    · intro hcount bottom hlastRow
      cases rows with
      | nil =>
        have heq : pre ++ (mid ++ last) = bottom := Option.some.inj hlastRow
        refine ⟨(pre ++ mid) ++ new :: last, ?_, fun u => ?_⟩
        · simp only [insertRows, List.length_nil, if_pos hcount, hinsert]
          rfl
        · rw [mem_insert_middle, ← hrowCut, heq]
      | cons second rest =>
        rw [List.getLast?_cons_cons] at hlastRow
        obtain ⟨bottom', hbottom', hmem⟩ := hbottom hcount bottom hlastRow
        refine ⟨bottom', ?_, hmem⟩
        rw [insertRows]
        cases hrest : insertRows new count heads (second :: rest) with
        | nil => simp [hrest] at hlength
        | cons row' rest' => rw [List.getLast?_cons_cons, ← hrest, hbottom']
    · rintro before first hfirstRow hnestedBefore hfreeBefore
        ⟨pre', post', rfl, hpre', hpost'⟩
      cases hfirstRow
      have hsub := (List.isChain_cons_cons.mp hnestedBefore.chain).1
      obtain ⟨hleft, hright⟩ := sublist_split hnodup hsub (hpre'.trans hpre.symm)
      have htail := sublist_of_stays hright hmid hpost'
      refine ⟨_, rfl, ?_, ?_⟩
      · split
        · rw [hinsert]
          exact (hleft.append (htail.trans (List.sublist_append_right mid last))).trans
            (by
              rw [hrowCut]
              exact (List.Sublist.refl _).append (List.sublist_cons_self new last))
        · exact hsub
      · intro hcount
        rw [List.length_cons] at hcount
        rw [if_pos (Nat.lt_of_succ_le hcount), hinsert,
          insertAfter_eq (hnestedBefore.nodup _ List.mem_cons_self) hpre']
        exact (hleft.trans (List.sublist_append_left pre mid)).append (htail.cons_cons new)

/-- The search finds a place in each of the nested rows, sorted or not, and the rows
stay nested. -/
theorem insertRows_nested [DecidableEq α] (hrows : Nested rows)
    (hfree : ∀ row ∈ rows, new ∉ row) (hcount : 0 < count) {bottom : List α}
    (hbottom : rows.getLast? = some bottom) :
    ∃ heads, rowHeads stays none rows = some heads ∧
      Nested (insertRows new count heads rows) ∧
      (insertRows new count heads rows).length = rows.length ∧
      ∃ bottom', (insertRows new count heads rows).getLast? = some bottom' ∧
        ∀ u, u ∈ bottom' ↔ u = new ∨ u ∈ bottom := by
  obtain ⟨heads, hheads, hnested, hlength, hlast, -⟩ :=
    @insertRows_nested_from _ stays none rows new count _ hrows hfree
      fun row _ => ⟨[], row, rfl, rfl⟩
  exact ⟨heads, hheads, hnested, hlength, hlast hcount bottom hbottom⟩

theorem Nested.remove [DecidableEq α] (hrows : Nested rows) (node : α) :
    Nested (removeRows node rows) where
  nodup := fun row hrow => by
    obtain ⟨old, hold, hsub, -⟩ := mem_removeRows hrow
    exact (hrows.nodup old hold).sublist hsub
  chain := removeRows_isChain hrows.chain

end Nested

section Ahead

variable {row row' pre post : List α} {m v w : α}

def Ahead (m w : α) (row : List α) : Prop :=
  (m = w ∧ w ∈ row) ∨ [m, w].Sublist row

theorem Ahead.mono (hahead : Ahead m w row) (hsub : row.Sublist row') : Ahead m w row' := by
  rcases hahead with ⟨rfl, hmem⟩ | hpair
  · exact .inl ⟨rfl, hsub.subset hmem⟩
  · exact .inr (hpair.trans hsub)

theorem Ahead.filter (hahead : Ahead m w row) {p : α → Bool} (hm : p m = true) (hw : p w = true) :
    Ahead m w (row.filter p) := by
  rcases hahead with ⟨rfl, hmem⟩ | hpair
  · exact .inl ⟨rfl, List.mem_filter.mpr ⟨hmem, hm⟩⟩
  · have hfiltered := hpair.filter p
    rw [List.filter_cons_of_pos hm, List.filter_cons_of_pos hw, List.filter_nil] at hfiltered
    exact .inr hfiltered

theorem Ahead.mem (hahead : Ahead m w row) : m ∈ row := by
  rcases hahead with ⟨rfl, hmem⟩ | hpair
  · exact hmem
  · exact hpair.subset List.mem_cons_self

theorem ahead_head (hmem : w ∈ m :: post) : Ahead m w (m :: post) := by
  rcases List.mem_cons.mp hmem with rfl | hpost
  · exact .inl ⟨rfl, hmem⟩
  · exact .inr ((List.singleton_sublist.mpr hpost).cons_cons m)

theorem Ahead.rel {r : α → α → Prop} (hahead : Ahead m w row) (hrow : row.Pairwise r)
    (hrefl : ∀ u, r u u) : r m w := by
  rcases hahead with ⟨rfl, -⟩ | hpair
  · exact hrefl m
  · exact (List.pairwise_cons.mp (hrow.sublist hpair)).1 w List.mem_cons_self

theorem dropWhile_ne [DecidableEq α] (hpre : m ∉ pre) :
    (pre ++ m :: post).dropWhile (· ≠ m) = m :: post := by
  rw [List.dropWhile_append_of_pos]
  · simp
  · intro u hu
    rw [decide_eq_true_eq]
    rintro rfl
    exact hpre hu

theorem Ahead.next [DecidableEq α] (hnodup : row.Nodup) (hahead : Ahead m w row) (hne : w ≠ m) :
    ∃ v, (row.dropWhile (· ≠ m)).tail.head? = some v ∧ Ahead v w (row.filter (· ≠ m)) := by
  rcases hahead with ⟨rfl, -⟩ | hpair
  · exact absurd rfl hne
  obtain ⟨before, behind, rfl, hm, hw⟩ := List.cons_sublist_iff.mp hpair
  obtain ⟨pre, mid, rfl⟩ := List.append_of_mem hm
  rw [List.append_assoc, List.cons_append] at hnodup ⊢
  obtain ⟨hpre, hpost⟩ : m ∉ pre ∧ m ∉ mid ++ behind := by
    rw [List.nodup_append, List.nodup_cons] at hnodup
    exact ⟨fun h => hnodup.2.2 m h m List.mem_cons_self rfl, hnodup.2.1.1⟩
  have hmem : w ∈ mid ++ behind := List.mem_append_right _ (List.singleton_sublist.mp hw)
  have hfilter : (pre ++ m :: (mid ++ behind)).filter (· ≠ m) = pre ++ (mid ++ behind) := by
    rw [List.filter_append, List.filter_cons_of_neg (by simp), ← List.filter_append,
      List.filter_eq_self]
    intro u hu
    rw [decide_eq_true_eq]
    rintro rfl
    rcases List.mem_append.mp hu with h | h
    · exact hpre h
    · exact hpost h
  rw [dropWhile_ne hpre, List.tail_cons, hfilter]
  cases hbehind : mid ++ behind with
  | nil => simp [hbehind] at hmem
  | cons v rest =>
    rw [hbehind] at hmem
    exact ⟨v, rfl, (ahead_head hmem).mono (List.sublist_append_right _ _)⟩

theorem mem_of_next [DecidableEq α] (hnodup : row.Nodup)
    (hnext : (row.dropWhile (· ≠ m)).tail.head? = some v) : v ∈ row ∧ v ≠ m := by
  have hlater : v ∈ (row.dropWhile (· ≠ m)).tail := List.mem_of_mem_head? hnext
  have hsub : (row.dropWhile (· ≠ m)).Sublist row := List.dropWhile_sublist _
  refine ⟨hsub.subset (List.mem_of_mem_tail hlater), ?_⟩
  rintro rfl
  have hmem : v ∈ row := hsub.subset (List.mem_of_mem_tail hlater)
  obtain ⟨pre, post, rfl⟩ := List.append_of_mem hmem
  rw [List.nodup_append, List.nodup_cons] at hnodup
  rw [dropWhile_ne fun h => hnodup.2.2 v h v List.mem_cons_self rfl] at hlater
  exact hnodup.2.1.1 hlater

end Ahead

end RtThread.Lib.SkipList
