import RtThread.Dfs.OpenFile

namespace RtThread.Dfs

instance (name : CString) : Decidable (Component name) :=
  inferInstanceAs (Decidable (name ≠ [] ∧ '/' ∉ name ∧ name ≠ ['.'] ∧ name ≠ ['.', '.']))

def pathOf (names : List CString) : CString := if names = [] then ['/'] else joinPath names

def Below (directory path : CString) : Prop :=
  ∃ names rest, (∀ name ∈ names ++ rest, Component name) ∧ directory = pathOf names ∧
    path = pathOf (names ++ rest)

def DfsFilesystem.mountpoint (fs : DfsFilesystem) : Option CString :=
  if fs.ops = none then none else fs.path

def DfsFilesystem.pointLength (fs : DfsFilesystem) : Nat := (fs.path.map List.length).getD 0

section Components

variable {directory path rest : CString} {names others : List CString}

theorem normal_iff_pathOf :
    Normal path ↔ ∃ names, (∀ name ∈ names, Component name) ∧ path = pathOf names := by
  constructor
  · rintro (rfl | ⟨names, hsome, hnames, rfl⟩)
    · exact ⟨[], by simp, rfl⟩
    · exact ⟨names, hnames, (if_neg hsome).symm⟩
  · rintro ⟨names, hnames, rfl⟩
    unfold pathOf
    split
    · exact .inl rfl
    next hsome => exact .inr ⟨names, hsome, hnames, rfl⟩

theorem pathOf_of_ne (hsome : names ≠ []) : pathOf names = joinPath names := if_neg hsome

theorem joinPath_append_list :
    joinPath (names ++ others) = joinPath names ++ joinPath others := List.flatMap_append

theorem joinPath_split (hnames : ∀ name ∈ names, Component name)
    (hothers : ∀ name ∈ others, Component name) (hrest : rest.head? = some '/' ∨ rest = [])
    (hjoin : joinPath names ++ rest = joinPath others) :
    ∃ more, others = names ++ more ∧ rest = joinPath more := by
  induction names generalizing others with
  | nil => exact ⟨others, rfl, hjoin⟩
  | cons name names ih =>
    cases others with
    | nil => cases hjoin
    | cons other others =>
      have htail : name ++ (joinPath names ++ rest) = other ++ joinPath others := by
        simpa [joinPath] using hjoin
      have hslash : (joinPath names ++ rest).head? = some '/' ∨ joinPath names ++ rest = [] := by
        cases names with
        | nil => exact hrest
        | cons => exact .inl rfl
      have hname := takeWhile_component (hnames name List.mem_cons_self) hslash
      have hother := takeWhile_component (hothers other List.mem_cons_self)
        (joinPath_head others)
      rw [htail] at hname
      obtain rfl : name = other := hname.1.symm.trans hother.1
      obtain ⟨more, rfl, hmore⟩ := ih
        (fun _ hmem => hnames _ (List.mem_cons_of_mem _ hmem))
        (fun _ hmem => hothers _ (List.mem_cons_of_mem _ hmem))
        (hname.2.symm.trans hother.2)
      exact ⟨more, rfl, hmore⟩

theorem below_iff (hdirectory : Normal directory) (hpath : Normal path) :
    Below directory path ↔ directory <+: path ∧
      (1 < directory.length → directory.length < path.length →
        path[directory.length]? = some '/') := by
  constructor
  · rintro ⟨names, more, hall, rfl, rfl⟩
    by_cases hnone : names = []
    · subst hnone
      obtain ⟨tail, htail⟩ : ∃ tail, pathOf ([] ++ more) = '/' :: tail := by
        have hhead := hpath.head
        cases hcases : pathOf ([] ++ more) with
        | nil => rw [hcases] at hhead; cases hhead
        | cons c tail => rw [hcases] at hhead; exact ⟨tail, by rw [Option.some.inj hhead]⟩
      rw [htail]
      exact ⟨⟨tail, rfl⟩, fun hlong => absurd hlong (by decide)⟩
    · have hsome : names ++ more ≠ [] := fun h => hnone (List.append_eq_nil_iff.mp h).1
      rw [pathOf_of_ne hnone, pathOf_of_ne hsome, joinPath_append_list]
      refine ⟨List.prefix_append .., fun _ hlonger => ?_⟩
      rw [List.getElem?_append_right (Nat.le_refl _), Nat.sub_self, ← List.head?_eq_getElem?]
      refine (joinPath_head _).resolve_right fun hnil => ?_
      rw [hnil, List.append_nil] at hlonger
      exact absurd hlonger (Nat.lt_irrefl _)
  · rintro ⟨⟨rest, rfl⟩, hnext⟩
    obtain ⟨others, hothers, hjoin⟩ := normal_iff_pathOf.mp hpath
    obtain ⟨names, hnames, rfl⟩ := normal_iff_pathOf.mp hdirectory
    by_cases hnone : names = []
    · subst hnone
      exact ⟨[], others, hothers, rfl, hjoin⟩
    · have hother : others ≠ [] := by
        rintro rfl
        obtain ⟨first, more, rfl⟩ := List.exists_cons_of_ne_nil hnone
        obtain ⟨c, name, rfl⟩ := List.exists_cons_of_ne_nil (hnames first List.mem_cons_self).1
        rw [pathOf_of_ne hnone] at hjoin
        cases hjoin
      have hslash : rest.head? = some '/' ∨ rest = [] := by
        cases rest with
        | nil => exact .inr rfl
        | cons c rest =>
          refine .inl ?_
          have hlong : 1 < (pathOf names).length := by
            obtain ⟨first, more, rfl⟩ := List.exists_cons_of_ne_nil hnone
            obtain ⟨c, name, rfl⟩ :=
              List.exists_cons_of_ne_nil (hnames first List.mem_cons_self).1
            simp [pathOf, joinPath]
          have hsep := hnext hlong (by simp)
          rwa [List.getElem?_append_right (Nat.le_refl _), Nat.sub_self,
            ← List.head?_eq_getElem?] at hsep
      rw [pathOf_of_ne hnone, pathOf_of_ne hother] at hjoin
      obtain ⟨more, rfl, rfl⟩ := joinPath_split hnames hothers hslash hjoin
      refine ⟨names, more, hothers, rfl, ?_⟩
      rw [pathOf_of_ne hnone, pathOf_of_ne hother, joinPath_append_list]

theorem dfsSubdir_below (hpath : Normal path) (hbelow : Below directory path) :
    (dfsSubdir directory path = none ↔ path = directory) ∧
      ∀ sub, dfsSubdir directory path = some sub →
        sub.head? = some '/' ∧ path = if directory = ['/'] then sub else directory ++ sub := by
  obtain ⟨names, more, hall, rfl, rfl⟩ := hbelow
  by_cases hsame : pathOf (names ++ more) = pathOf names
  · rw [hsame, dfsSubdir_self]
    exact ⟨⟨fun _ => rfl, fun _ => rfl⟩, nofun⟩
  · suffices hsub : ∃ sub, dfsSubdir (pathOf names) (pathOf (names ++ more)) = some sub ∧
        sub.head? = some '/' ∧
          pathOf (names ++ more) = if pathOf names = ['/'] then sub else pathOf names ++ sub by
      obtain ⟨sub, hsub, hsplit⟩ := hsub
      refine ⟨⟨fun hnone => absurd (hsub.symm.trans hnone) nofun, fun h => absurd h hsame⟩, ?_⟩
      intro other hother
      obtain rfl : sub = other := Option.some.inj (hsub.symm.trans hother)
      exact hsplit
    by_cases hnone : names = []
    · subst hnone
      -- the root keeps its slash
      obtain ⟨tail, htail⟩ : ∃ tail, pathOf ([] ++ more) = '/' :: tail := by
        have hhead := hpath.head
        cases hcases : pathOf ([] ++ more) with
        | nil => rw [hcases] at hhead; cases hhead
        | cons c tail => rw [hcases] at hhead; exact ⟨tail, by rw [Option.some.inj hhead]⟩
      rw [htail] at hpath hsame ⊢
      obtain ⟨c, tail, rfl⟩ : ∃ c more, tail = c :: more :=
        List.exists_cons_of_ne_nil fun h => hsame (by rw [h]; rfl)
      have hc : c ≠ '/' := fun h => hpath.second (by rw [h]; rfl)
      refine ⟨'/' :: c :: tail, ?_, rfl, (if_pos rfl).symm⟩
      have hroot : ['/'] ≠ ([] : CString) := by decide
      exact dfsSubdir_append hroot hc
    · have hsome : names ++ more ≠ [] := fun h => hnone (List.append_eq_nil_iff.mp h).1
      rw [pathOf_of_ne hnone, pathOf_of_ne hsome, joinPath_append_list] at hsame ⊢
      obtain ⟨first, rest, rfl⟩ := List.exists_cons_of_ne_nil hnone
      obtain ⟨d, name, rfl⟩ :=
        List.exists_cons_of_ne_nil (hall first (by simp)).1
      have hroot : joinPath ((d :: name) :: rest) ≠ ['/'] := by simp [joinPath]
      cases more with
      | nil => exact absurd (List.append_nil _) hsame
      | cons next more =>
        have hjoin : joinPath (next :: more) = '/' :: (next ++ joinPath more) := by
          simp [joinPath]
        rw [hjoin]
        exact ⟨_, dfsSubdir_slash, rfl, (if_neg hroot).symm⟩

end Components

section Lookup

variable {path : CString} {table : List DfsFilesystem} {i prefixlen : Nat}
  {fs result : Option Nat}

theorem lookupLoop_cases (hloop : lookupLoop path table i fs prefixlen = result) :
    (result = fs ∧ ∀ entry ∈ table, MountedAbove entry path → entry.pointLength < prefixlen) ∨
      ∃ k entry, result = some (i + k) ∧ table[k]? = some entry ∧ MountedAbove entry path ∧
        prefixlen ≤ entry.pointLength ∧
        ∀ other ∈ table, MountedAbove other path → other.pointLength ≤ entry.pointLength := by
  induction table generalizing i fs prefixlen with
  | nil => exact .inl ⟨hloop.symm, nofun⟩
  | cons entry table ih =>
    have hskip (hloop : lookupLoop path table (i + 1) fs prefixlen = result)
        (hless : MountedAbove entry path → entry.pointLength < prefixlen) :
        (result = fs ∧
            ∀ other ∈ entry :: table, MountedAbove other path → other.pointLength < prefixlen) ∨
          ∃ k other, result = some (i + k) ∧ (entry :: table)[k]? = some other ∧
            MountedAbove other path ∧ prefixlen ≤ other.pointLength ∧
            ∀ third ∈ entry :: table, MountedAbove third path →
              third.pointLength ≤ other.pointLength := by
      rcases ih hloop with ⟨hsame, hall⟩ | ⟨k, other, hk, hget, habove, hle, hall⟩
      · refine .inl ⟨hsame, fun other hmem hother => ?_⟩
        rcases List.mem_cons.mp hmem with rfl | hmem
        · exact hless hother
        · exact hall other hmem hother
      · refine .inr ⟨k + 1, other, by rw [hk]; congr 1; omega, hget, habove, hle,
          fun third hmem hthird => ?_⟩
        rcases List.mem_cons.mp hmem with rfl | hmem
        · exact (hless hthird).le.trans hle
        · exact hall third hmem hthird
    rcases entry with ⟨devId, _ | mountpoint, _ | ops⟩
    case none.none => exact hskip hloop fun habove => absurd rfl habove.ops
    case none.some =>
      exact hskip hloop fun habove => by
        obtain ⟨point, hpoint, -⟩ := habove.above
        cases hpoint
    case some.none => exact hskip hloop fun habove => absurd rfl habove.ops
    case some.some =>
      simp only [lookupLoop] at hloop
      split at hloop
      next hshort =>
        refine hskip hloop fun habove => ?_
        obtain ⟨point, hpoint, hbegins, -⟩ := habove.above
        obtain rfl := Option.some.inj hpoint
        exact hshort.resolve_right fun hnot => hnot hbegins
      next hlong =>
        split at hloop
        next hsep =>
          refine hskip hloop fun habove => ?_
          obtain ⟨point, hpoint, -, hnext⟩ := habove.above
          obtain rfl := Option.some.inj hpoint
          exact absurd (hnext hsep.1 hsep.2.1) hsep.2.2
        next hsep =>
          rw [not_or, Nat.not_lt, not_not] at hlong
          have habove : MountedAbove ⟨devId, some mountpoint, some ops⟩ path :=
            ⟨nofun, mountpoint, rfl, hlong.2, fun hone hless => by
              by_contra hne
              exact hsep ⟨hone, hless, hne⟩⟩
          right
          rcases ih hloop with ⟨hfound, hall⟩ | ⟨k, other, hk, hget, hother, hle, hall⟩
          · refine ⟨0, _, hfound, rfl, habove, hlong.1, fun other hmem hother => ?_⟩
            rcases List.mem_cons.mp hmem with rfl | hmem
            · exact Nat.le_refl _
            · exact (hall other hmem hother).le
          · refine ⟨k + 1, other, by rw [hk]; congr 1; omega, hget, hother, hlong.1.trans hle,
              fun third hmem hthird => ?_⟩
            rcases List.mem_cons.mp hmem with rfl | hmem
            · exact hle
            · exact hall third hmem hthird

theorem mountpoint_eq_some {fs : DfsFilesystem} {mountpoint : CString} :
    fs.mountpoint = some mountpoint ↔ fs.ops ≠ none ∧ fs.path = some mountpoint := by
  unfold DfsFilesystem.mountpoint
  split
  next hops => exact ⟨nofun, fun h => absurd hops h.1⟩
  next hops => exact ⟨fun h => ⟨hops, h⟩, And.right⟩

theorem mountedAbove_iff {fs : DfsFilesystem} {mountpoint : CString} (hpath : Normal path)
    (hpoint : fs.mountpoint = some mountpoint) (hnormal : Normal mountpoint) :
    MountedAbove fs path ↔ Below mountpoint path := by
  obtain ⟨hops, hpoint⟩ := mountpoint_eq_some.mp hpoint
  rw [below_iff hnormal hpath]
  constructor
  · intro habove
    obtain ⟨other, hother, hbegins, hnext⟩ := habove.above
    obtain rfl := Option.some.inj (hpoint.symm.trans hother)
    exact ⟨hbegins, hnext⟩
  · exact fun hbelow => ⟨hops, mountpoint, hpoint, hbelow⟩

theorem index_of_distinct (hdistinct : (table.filterMap (·.mountpoint)).Nodup) {j : Nat}
    {mountpoint : CString} {entry other : DfsFilesystem} (hentry : table[i]? = some entry)
    (hother : table[j]? = some other) (hpoint : entry.mountpoint = some mountpoint)
    (hpoint' : other.mountpoint = some mountpoint) : i = j := by
  induction table generalizing i j with
  | nil => cases hentry
  | cons first table ih =>
    have hfresh {k : Nat} {third : DfsFilesystem} (hfirst : first.mountpoint = some mountpoint)
        (hthird : table[k]? = some third) (hsame : third.mountpoint = some mountpoint) : False := by
      rw [List.filterMap_cons_some hfirst] at hdistinct
      exact (List.nodup_cons.mp hdistinct).1
        (List.mem_filterMap.mpr ⟨third, List.mem_of_getElem? hthird, hsame⟩)
    cases i with
    | zero =>
      cases j with
      | zero => rfl
      | succ j => exact (hfresh (Option.some.inj hentry ▸ hpoint) hother hpoint').elim
    | succ i =>
      cases j with
      | zero => exact (hfresh (Option.some.inj hother ▸ hpoint') hentry hpoint).elim
      | succ j =>
        have hrest : (table.filterMap (·.mountpoint)).Nodup := by
          cases hfirst : first.mountpoint with
          | none => rwa [List.filterMap_cons_none hfirst] at hdistinct
          | some point =>
            rw [List.filterMap_cons_some hfirst] at hdistinct
            exact (List.nodup_cons.mp hdistinct).2
        rw [ih hrest hentry hother]

/-- A path is found under the longest mount point above it, and nothing of it is lost there. -/
theorem dfsFilesystemLookup_longest (table : List DfsFilesystem) (path : CString)
    (hpath : Normal path) (hdistinct : (table.filterMap (·.mountpoint)).Nodup)
    (hnormal : ∀ fs ∈ table, ∀ mountpoint, fs.mountpoint = some mountpoint → Normal mountpoint) :
    match dfsFilesystemLookup table path with
    | none => ∀ fs ∈ table, ∀ mountpoint, fs.mountpoint = some mountpoint → ¬ Below mountpoint path
    | some i =>
      ∃ fs mountpoint, table[i]? = some fs ∧ fs.mountpoint = some mountpoint ∧
        Below mountpoint path ∧
        (∀ j other point, table[j]? = some other → other.mountpoint = some point →
          Below point path → j = i ∨ point.length < mountpoint.length) ∧
        (dfsSubdir mountpoint path = none ↔ path = mountpoint) ∧
        ∀ sub, dfsSubdir mountpoint path = some sub →
          sub.head? = some '/' ∧
            path = if mountpoint = ['/'] then sub else mountpoint ++ sub := by
  have hcases := lookupLoop_cases (rfl : lookupLoop path table 0 none 0 = _)
  unfold dfsFilesystemLookup
  rcases hcases with ⟨hnone, hall⟩ | ⟨i, entry, hfound, hget, habove, -, hall⟩
  · rw [hnone]
    intro fs hmem mountpoint hpoint hbelow
    have hless := hall fs hmem
      ((mountedAbove_iff hpath hpoint (hnormal fs hmem mountpoint hpoint)).mpr hbelow)
    exact Nat.not_lt_zero _ hless
  · rw [hfound, Nat.zero_add]
    obtain ⟨mountpoint, hpath', -⟩ := habove.above
    have hpoint := mountpoint_eq_some.mpr ⟨habove.ops, hpath'⟩
    have hmem := List.mem_of_getElem? hget
    have hbelow := (mountedAbove_iff hpath hpoint (hnormal entry hmem mountpoint hpoint)).mp habove
    obtain ⟨hsame, hsub⟩ := dfsSubdir_below hpath hbelow
    refine ⟨entry, mountpoint, hget, hpoint, hbelow, ?_, hsame, hsub⟩
    intro j other point hother hpoint' hbelow'
    have hmem' := List.mem_of_getElem? hother
    have hnormal' := hnormal other hmem' point hpoint'
    have hle := hall other hmem' ((mountedAbove_iff hpath hpoint' hnormal').mpr hbelow')
    have hlength : other.pointLength = point.length := by
      rw [DfsFilesystem.pointLength, (mountpoint_eq_some.mp hpoint').2]
      rfl
    have hlength' : entry.pointLength = mountpoint.length := by
      rw [DfsFilesystem.pointLength, hpath']
      rfl
    rw [hlength, hlength'] at hle
    rcases Nat.lt_or_eq_of_le hle with hless | heq
    · exact .inr hless
    · -- two places above one path that are equally long are the same
      have hbegins := ((below_iff hnormal' hpath).mp hbelow').1
      have hbegins' := ((below_iff (hnormal entry hmem mountpoint hpoint) hpath).mp hbelow).1
      obtain rfl : point = mountpoint :=
        (List.prefix_of_prefix_length_le hbegins hbegins' heq.le).eq_of_length heq
      exact .inl (index_of_distinct hdistinct hother hget hpoint' hpoint)

def mountedTwice : List DfsFilesystem :=
  [⟨none, some ['/'], some ⟨[], false, 1, true, true⟩⟩,
    ⟨none, some ['/', 'a'], some ⟨[], false, 2, true, true⟩⟩]

/-- The path `/ab/c` is found under the root, not under `/a`. -/
theorem dfsFilesystemLookup_longest_root :
    dfsFilesystemLookup mountedTwice ['/', 'a', 'b', '/', 'c'] = some 0 ∧
      ∃ fs mountpoint, mountedTwice[0]? = some fs ∧ fs.mountpoint = some mountpoint ∧
        Below mountpoint ['/', 'a', 'b', '/', 'c'] := by
  have hfirst : Component ['a', 'b'] := by decide
  have hsecond : Component ['c'] := by decide
  have hpath : Normal ['/', 'a', 'b', '/', 'c'] :=
    .inr ⟨[['a', 'b'], ['c']], by decide, by simp [hfirst, hsecond], rfl⟩
  have hnormal : ∀ fs ∈ mountedTwice, ∀ mountpoint, fs.mountpoint = some mountpoint →
      Normal mountpoint := by
    intro fs hmem mountpoint hpoint
    simp only [mountedTwice, List.mem_cons, List.not_mem_nil, or_false] at hmem
    rcases hmem with rfl | rfl
    · obtain rfl := Option.some.inj hpoint
      exact .inl rfl
    · obtain rfl := Option.some.inj hpoint
      have hname : Component ['a'] := by decide
      exact .inr ⟨[['a']], by decide, by simp [hname], rfl⟩
  have hlookup := dfsFilesystemLookup_longest mountedTwice ['/', 'a', 'b', '/', 'c'] hpath
    (by decide) hnormal
  have hfound : dfsFilesystemLookup mountedTwice ['/', 'a', 'b', '/', 'c'] = some 0 := by decide
  rw [hfound] at hlookup
  obtain ⟨fs, mountpoint, hget, hpoint, hbelow, -⟩ := hlookup
  exact ⟨hfound, fs, mountpoint, hget, hpoint, hbelow⟩

end Lookup

end RtThread.Dfs
