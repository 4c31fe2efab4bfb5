import RtThread.Dfs.MountLookup

namespace RtThread.Dfs

def components (path : CString) : List CString := path.splitOn '/'

def resolveStep (names : List CString) (name : CString) : List CString :=
  if name = [] ∨ name = ['.'] then names
  else if name = ['.', '.'] then names.dropLast
  else names ++ [name]

def resolve (names others : List CString) : List CString := others.foldl resolveStep names

def leavesRoot : List CString → List CString → Prop
  | _, [] => False
  | names, name :: others =>
    name = ['.', '.'] ∧ names = [] ∨ leavesRoot (resolveStep names name) others

def asked (directory filename : CString) : CString :=
  if filename.head? = some '/' then filename else directory ++ '/' :: filename

/-- What `dfs_normalize_path` has written when it stands at a name below the others. -/
def writtenBelow (names : List CString) : List Char := '/' :: (joinPath names).reverse

def LostRoot (dst : List Char) : Prop := dst = [] ∨ (finishPath dst).head? ≠ some '/'

section Resolve

variable {src dst name rest : CString} {names : List CString} {fuel : Nat}

@[simp] theorem resolve_cons {others : List CString} :
    resolve names (name :: others) = resolve (resolveStep names name) others := rfl

theorem components_slash : components ('/' :: src) = [] :: components src :=
  List.splitOn_append_cons_self_of_not_mem (List.not_mem_nil : '/' ∉ []) src

theorem components_append (hname : '/' ∉ name) :
    components (name ++ '/' :: rest) = name :: components rest :=
  List.splitOn_append_cons_self_of_not_mem hname rest

theorem components_single (hname : '/' ∉ name) : components name = [name] :=
  List.splitOn_eq_singleton hname

theorem components_cases (src : CString) :
    (src.dropWhile (· ≠ '/') = [] ∧ components src = [src.takeWhile (· ≠ '/')]) ∨
      ∃ rest, src.dropWhile (· ≠ '/') = '/' :: rest ∧
        components src = src.takeWhile (· ≠ '/') :: components rest := by
  have hsplit : src.takeWhile (· ≠ '/') ++ src.dropWhile (· ≠ '/') = src :=
    List.takeWhile_append_dropWhile
  cases hrest : src.dropWhile (· ≠ '/') with
  | nil =>
    refine .inl ⟨rfl, ?_⟩
    rw [hrest, List.append_nil] at hsplit
    rw [hsplit]
    exact components_single (hsplit ▸ takeWhile_ne_slash)
  | cons c rest =>
    have hc : c = '/' := by
      have hnot := List.head?_dropWhile_not (· ≠ '/') src
      rw [hrest] at hnot
      simpa using hnot
    subst hc
    refine .inr ⟨rest, rfl, ?_⟩
    conv_lhs => rw [← hsplit, hrest]
    exact components_append takeWhile_ne_slash

theorem resolveStep_nil : resolveStep names [] = names := if_pos (.inl rfl)

theorem leavesRoot_cons {others : List CString} (hbelow : name ≠ ['.', '.'] ∨ names ≠ []) :
    leavesRoot names (name :: others) ↔ leavesRoot (resolveStep names name) others := by
  refine or_iff_right fun hup => ?_
  rcases hbelow with hname | hnames
  · exact hname hup.1
  · exact hnames hup.2

theorem resolve_skipSlashes :
    resolve names (components (skipSlashes src)) = resolve names (components src) ∧
      (leavesRoot names (components (skipSlashes src)) ↔ leavesRoot names (components src)) := by
  induction src with
  | nil => exact ⟨rfl, Iff.rfl⟩
  | cons c src ih =>
    by_cases hc : c = '/'
    · subst hc
      rw [components_slash]
      simpa [skipSlashes, leavesRoot, resolveStep_nil] using ih
    · have hstays : skipSlashes (c :: src) = c :: src := by simp [skipSlashes, hc]
      rw [hstays]
      exact ⟨rfl, Iff.rfl⟩

theorem writtenBelow_append :
    writtenBelow (names ++ [name]) = '/' :: (name.reverse ++ writtenBelow names) := by
  simp [writtenBelow, joinPath]

theorem upOne_root : upOne (writtenBelow []) = some [] := rfl

theorem upOne_writtenBelow (hname : Component name) :
    upOne (writtenBelow (names ++ [name])) = some (writtenBelow names) := by
  have hall : ∀ c ∈ name.reverse, decide (c ≠ '/') = true := by
    intro c hc
    rw [decide_eq_true_eq]
    rintro rfl
    exact hname.2.1 (List.mem_reverse.mp hc)
  rw [writtenBelow_append, upOne, List.dropWhile_append_of_pos hall]
  simp [writtenBelow]

theorem finishPath_below (hname : Component name) :
    finishPath (name.reverse ++ writtenBelow names) = pathOf (names ++ [name]) := by
  rw [finishPath_component hname, pathOf_of_ne (by simp), joinPath_append]
  simp [writtenBelow]

theorem finishPath_writtenBelow (hnames : ∀ name ∈ names, Component name) :
    finishPath (writtenBelow names) = pathOf names := by
  rcases names.eq_nil_or_concat with rfl | ⟨init, last, rfl⟩
  · rfl
  · rw [List.concat_eq_append] at hnames ⊢
    have hlast : Component last := hnames last (by simp)
    rw [writtenBelow_append, finishPath_slash hlast.1, pathOf_of_ne (by simp), joinPath_append]
    simp [writtenBelow]

theorem Written.head_ne_slash (hdst : Written false dst) (hname : name = [] ∨ Component name)
    (hsome : name ≠ [] ∨ dst ≠ []) : (dst.reverse ++ name).head? ≠ some '/' := by
  intro hslash
  rw [List.head?_append, List.head?_reverse] at hslash
  by_cases hbare : dst = []
  · subst hbare
    rcases hname with rfl | hname
    · simp at hsome
    · exact hname.head_ne hslash
  · obtain ⟨c, hc, hlast⟩ := hdst.head_of_false hbare
    rw [hlast, Option.some_or] at hslash
    exact hc (Option.some.inj hslash)

theorem normalizeLoop_lost {dst' : List Char} (hsrc : src.head? ≠ some '/')
    (hdst : Written false dst) (hloop : normalizeLoop fuel src dst = some dst') :
    LostRoot dst' := by
  obtain ⟨rooted, before, name, hlost, hbefore, hname, rfl⟩ :=
    normalizeLoop_written hsrc hdst hloop
  obtain rfl := hlost rfl
  rcases hname with rfl | hname
  · generalize hrooted : false = rooted at hbefore
    cases hbefore with
    | empty => exact .inl rfl
    | root => cases hrooted
    | push last hlast hmore =>
      subst hrooted
      right
      rw [List.reverse_nil, List.nil_append, finishPath_slash hlast.1]
      exact hmore.head_ne_slash (.inr hlast) (.inl hlast.1)
  · right
    rw [finishPath_component hname]
    exact hbefore.head_ne_slash (.inr hname) (.inl hname.1)

theorem normalizeLoop_resolve (names : List CString) (src : CString) (hsrc : src.head? ≠ some '/')
    (hnames : ∀ name ∈ names, Component name) (hfuel : src.length < fuel) :
    (leavesRoot names (components src) ∧ ∀ dst',
        normalizeLoop fuel src (writtenBelow names) = some dst' → LostRoot dst') ∨
      (¬ leavesRoot names (components src) ∧ ∃ dst',
        normalizeLoop fuel src (writtenBelow names) = some dst' ∧ dst' ≠ [] ∧
          finishPath dst' = pathOf (resolve names (components src)) ∧
          ∀ name ∈ resolve names (components src), Component name) := by
  induction fuel generalizing src names with
  | zero => exact absurd hfuel (Nat.not_lt_zero _)
  | succ fuel ih =>
    -- a slash ends the component: the rest is resolved from the names it leads to
    have hrest {rest : CString} (hdrop : src.dropWhile (· ≠ '/') = '/' :: rest) :
        (skipSlashes rest).length < fuel := by
      have hlength : (src.dropWhile (· ≠ '/')).length ≤ src.length := List.length_dropWhile_le ..
      have hskip : (skipSlashes rest).length ≤ rest.length := List.length_dropWhile_le ..
      rw [hdrop, List.length_cons] at hlength
      omega
    have hnext {rest : CString} (others : List CString)
        (hothers : ∀ name ∈ others, Component name)
        (hdrop : src.dropWhile (· ≠ '/') = '/' :: rest) :=
      ih others (skipSlashes rest) skipSlashes_head hothers (hrest hdrop)
    simp only [resolve_skipSlashes] at hnext
    rw [normalizeLoop]
    split
    next hdot =>
      have hstep : resolveStep names ['.'] = names := if_pos (.inr rfl)
      rcases components_cases src with ⟨hdrop, hcomponents⟩ | ⟨rest, hdrop, hcomponents⟩
      · rw [hcomponents, hdot, hdrop, leavesRoot_cons (.inl (by decide)), resolve_cons, hstep]
        exact .inr ⟨id, _, rfl, by simp [writtenBelow], finishPath_writtenBelow hnames, hnames⟩
      · rw [hcomponents, hdot, hdrop, leavesRoot_cons (.inl (by decide)), resolve_cons, hstep]
        exact hnext names hnames hdrop
    next hdot =>
      split
      next hdots =>
        rcases names.eq_nil_or_concat with rfl | ⟨init, last, rfl⟩
        · -- up from the root
          rw [upOne_root, Option.bind_some]
          refine .inl ⟨?_, fun dst' hloop => ?_⟩
          · rcases components_cases src with ⟨-, hcomponents⟩ | ⟨rest, -, hcomponents⟩ <;>
              rw [hcomponents, hdots] <;> exact .inl ⟨rfl, rfl⟩
          · split at hloop
            · cases hloop
              exact .inl rfl
            · exact normalizeLoop_lost skipSlashes_head .empty hloop
        · rw [List.concat_eq_append] at hnames ⊢
          have hlast : Component last := hnames last (by simp)
          have hinit : ∀ name ∈ init, Component name :=
            fun name hmem => hnames name (List.mem_append_left _ hmem)
          have hstep : resolveStep (init ++ [last]) ['.', '.'] = init := by
            simp [resolveStep]
          rw [upOne_writtenBelow hlast, Option.bind_some]
          rcases components_cases src with ⟨hdrop, hcomponents⟩ | ⟨rest, hdrop, hcomponents⟩
          · rw [hcomponents, hdots, hdrop, leavesRoot_cons (.inr (by simp)), resolve_cons, hstep]
            exact .inr ⟨id, _, rfl, by simp [writtenBelow], finishPath_writtenBelow hinit, hinit⟩
          · rw [hcomponents, hdots, hdrop, leavesRoot_cons (.inr (by simp)), resolve_cons, hstep]
            exact hnext init hinit hdrop
      next hdots =>
        rcases eq_or_ne src [] with rfl | hsome
        · have hempty : components [] = [[]] := rfl
          rw [hempty, leavesRoot_cons (.inl (by decide)), resolve_cons, resolveStep_nil]
          exact .inr ⟨id, _, rfl, by simp [writtenBelow], finishPath_writtenBelow hnames, hnames⟩
        · have hname := component_takeWhile hsrc hsome hdot hdots
          have hstep : resolveStep names (src.takeWhile (· ≠ '/')) =
              names ++ [src.takeWhile (· ≠ '/')] := by
            rw [resolveStep, if_neg (not_or.mpr ⟨hname.1, hdot⟩), if_neg hdots]
          have hmore : ∀ name ∈ names ++ [src.takeWhile (· ≠ '/')], Component name := by
            intro name hmem
            rcases List.mem_append.mp hmem with hold | hnew
            · exact hnames name hold
            · rw [List.mem_singleton.mp hnew]
              exact hname
          rcases components_cases src with ⟨hdrop, hcomponents⟩ | ⟨rest, hdrop, hcomponents⟩
          · rw [hcomponents, hdrop, leavesRoot_cons (.inl hdots), resolve_cons, hstep]
            exact .inr ⟨id, _, rfl, by simp [writtenBelow], finishPath_below hname, hmore⟩
          · rw [hcomponents, hdrop, leavesRoot_cons (.inl hdots), resolve_cons, hstep]
            exact writtenBelow_append ▸ hnext _ hmore hdrop

theorem normalizeLoop_path {path : CString} (hhead : path.head? = some '/') :
    (leavesRoot [] (components path) ∧ ∀ dst,
        normalizeLoop (path.length + 1) path [] = some dst → LostRoot dst) ∨
      (¬ leavesRoot [] (components path) ∧ ∃ dst,
        normalizeLoop (path.length + 1) path [] = some dst ∧ dst ≠ [] ∧
          finishPath dst = pathOf (resolve [] (components path)) ∧
          ∀ name ∈ resolve [] (components path), Component name) := by
  obtain ⟨more, rfl⟩ := List.head?_eq_some_iff.mp hhead
  have hfirst : normalizeLoop (('/' :: more).length + 1) ('/' :: more) [] =
      normalizeLoop (more.length + 1) (skipSlashes more) (writtenBelow []) := by
    simp [normalizeLoop, writtenBelow, joinPath]
  have hskip : (skipSlashes more).length ≤ more.length := List.length_dropWhile_le ..
  have hresolve := normalizeLoop_resolve [] (skipSlashes more) skipSlashes_head
    (by simp) (Nat.lt_succ_of_le hskip)
  simp only [resolve_skipSlashes] at hresolve
  rw [hfirst, components_slash, leavesRoot_cons (.inl (by decide)), resolve_cons, resolveStep_nil]
  exact hresolve

end Resolve

end RtThread.Dfs
