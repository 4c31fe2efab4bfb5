import Mathlib.Data.List.TakeWhile

namespace RtThread.Dfs

/-! Paths, and what `dfs.c` makes of them.  A C string is the list of its characters. -/

abbrev CString := List Char

def skipSlashes (src : CString) : CString := src.dropWhile (· = '/')

/-- `up_one`: `dst` goes back behind the slash before the last one.  What has been written is
kept in reverse. -/
def upOne : List Char → Option (List Char)
  | [] => none
  | _ :: dst => some (dst.dropWhile (· ≠ '/'))

/-- The loop of `dfs_normalize_path`, by the component that `src` stands before. -/
def normalizeLoop : Nat → CString → List Char → Option (List Char)
  | 0, _, _ => none
  | fuel + 1, src, dst =>
    let name := src.takeWhile (· ≠ '/')
    let rest := src.dropWhile (· ≠ '/')
    if name = ['.'] then
      match rest with
      | [] => some dst
      | _ :: src => normalizeLoop fuel (skipSlashes src) dst
    else if name = ['.', '.'] then
      (upOne dst).bind fun dst =>
        match rest with
        | [] => some dst
        | _ :: src => normalizeLoop fuel (skipSlashes src) dst
    else
      -- copy up the next '/' and erase all '/'
      match rest with
      | [] => some (name.reverse ++ dst)
      | _ :: src => normalizeLoop fuel (skipSlashes src) ('/' :: (name.reverse ++ dst))

def finishPath : List Char → CString
  | [] => ['/']
  | '/' :: c :: dst => (c :: dst).reverse
  | dst => dst.reverse

def normalizeInPlace (fullpath : CString) : Option CString :=
  (normalizeLoop (fullpath.length + 1) fullpath []).map finishPath

def dfsNormalizePath (workdir directory : Option CString) (filename : CString) : Option CString :=
  if filename.head? = some '/' then normalizeInPlace filename
  else (directory.or workdir).bind fun directory => normalizeInPlace (directory ++ '/' :: filename)

def dfsSubdir (directory filename : CString) : Option CString :=
  if directory.length = filename.length then none
  else
    match filename.drop directory.length with
    | '/' :: dir => some ('/' :: dir)
    | dir =>
      if directory.length = 0 then some dir
      else some (filename.drop (directory.length - 1))

def Component (name : CString) : Prop :=
  name ≠ [] ∧ '/' ∉ name ∧ name ≠ ['.'] ∧ name ≠ ['.', '.']

def joinPath (names : List CString) : CString := names.flatMap fun name => '/' :: name

/-- An absolute path without empty components, `.` and `..`, and with no slash at its end. -/
def Normal (path : CString) : Prop :=
  path = ['/'] ∨ ∃ names, names ≠ [] ∧ (∀ name ∈ names, Component name) ∧ path = joinPath names

section Loop

variable {src dst dst' path name : CString} {fuel : Nat}

/-- What the loop has written before a component, from the root or, after it went up from
there, without it. -/
inductive Written : Bool → List Char → Prop
  | empty : Written false []
  | root : Written true ['/']
  | push {rooted : Bool} {dst : List Char} (name : CString) (hname : Component name)
      (hdst : Written rooted dst) : Written rooted ('/' :: (name.reverse ++ dst))

theorem Component.head_ne (hname : Component name) : name.head? ≠ some '/' := by
  intro hhead
  exact hname.2.1 (List.mem_of_head? hhead)

theorem Written.upOne {rooted : Bool} (hdst : Written rooted dst) (hup : upOne dst = some dst') :
    ∃ rooted', (rooted = false → rooted' = false) ∧ Written rooted' dst' := by
  cases hdst with
  | empty => cases hup
  | root =>
    cases hup
    exact ⟨false, fun _ => rfl, .empty⟩
  | push name hname hrest =>
    refine ⟨rooted, id, ?_⟩
    rename_i rest
    simp only [Dfs.upOne, Option.some.injEq] at hup
    have hdrop : (name.reverse ++ rest).dropWhile (· ≠ '/') = rest.dropWhile (· ≠ '/') := by
      refine List.dropWhile_append_of_pos fun c hc => ?_
      rw [decide_eq_true_eq]
      rintro rfl
      exact hname.2.1 (List.mem_reverse.mp hc)
    have hstays : rest.dropWhile (· ≠ '/') = rest := by
      cases hrest with
      | empty => rfl
      | root => rfl
      | push => simp
    rw [← hup, hdrop, hstays]
    exact hrest

theorem takeWhile_ne_slash : '/' ∉ src.takeWhile (· ≠ '/') := by
  intro hmem
  have hne := List.mem_takeWhile_imp hmem
  simp at hne

theorem skipSlashes_head : (skipSlashes src).head? ≠ some '/' := by
  unfold skipSlashes
  intro hhead
  have hnot := List.head?_dropWhile_not (· = '/') src
  rw [hhead] at hnot
  simp at hnot

theorem component_takeWhile (hsrc : src.head? ≠ some '/') (hsome : src ≠ [])
    (hdot : src.takeWhile (· ≠ '/') ≠ ['.']) (hdots : src.takeWhile (· ≠ '/') ≠ ['.', '.']) :
    Component (src.takeWhile (· ≠ '/')) := by
  refine ⟨?_, takeWhile_ne_slash, hdot, hdots⟩
  cases src with
  | nil => exact absurd rfl hsome
  | cons c src =>
    have hne : c ≠ '/' := fun heq => hsrc (by rw [heq]; rfl)
    simp [hne]

theorem normalizeLoop_written {rooted : Bool} (hsrc : src.head? ≠ some '/')
    (hdst : Written rooted dst) (hloop : normalizeLoop fuel src dst = some dst') :
    ∃ rooted' before name, (rooted = false → rooted' = false) ∧ Written rooted' before ∧
      (name = [] ∨ Component name) ∧ dst' = name.reverse ++ before := by
  induction fuel generalizing src dst rooted with
  | zero => cases hloop
  | succ fuel ih =>
    rw [normalizeLoop] at hloop
    split at hloop
    · split at hloop
      · cases hloop
        exact ⟨rooted, _, [], id, hdst, .inl rfl, rfl⟩
      · exact ih skipSlashes_head hdst hloop
    next hdot =>
      split at hloop
      · obtain ⟨up, hup, hloop⟩ := Option.bind_eq_some_iff.mp hloop
        obtain ⟨rooted', hlost, hwritten⟩ := hdst.upOne hup
        split at hloop
        · cases hloop
          exact ⟨rooted', _, [], hlost, hwritten, .inl rfl, rfl⟩
        · obtain ⟨rooted'', before, name, hlost', hbefore, hname, hdst'⟩ :=
            ih skipSlashes_head hwritten hloop
          exact ⟨rooted'', before, name, hlost' ∘ hlost, hbefore, hname, hdst'⟩
      next hdots =>
        rcases eq_or_ne src [] with rfl | hsome
        · cases hloop
          exact ⟨rooted, _, [], id, hdst, .inl rfl, rfl⟩
        · have hname := component_takeWhile hsrc hsome hdot hdots
          split at hloop
          · cases hloop
            exact ⟨rooted, _, _, id, hdst, .inr hname, rfl⟩
          · exact ih skipSlashes_head (.push _ hname hdst) hloop

theorem Written.joined (hdst : Written true dst) :
    ∃ names, (∀ name ∈ names, Component name) ∧ dst.reverse = joinPath names ++ ['/'] := by
  generalize hrooted : true = rooted at hdst
  induction hdst with
  | empty => cases hrooted
  | root => exact ⟨[], by simp, rfl⟩
  | push name hname _ ih =>
    obtain ⟨names, hnames, hreverse⟩ := ih hrooted
    refine ⟨names ++ [name], ?_, ?_⟩
    · intro other hmem
      rcases List.mem_append.mp hmem with hold | hnew
      · exact hnames other hold
      · rw [List.mem_singleton.mp hnew]
        exact hname
    · simp [joinPath, hreverse]

theorem Written.head_of_false (hdst : Written false dst) (hsome : dst ≠ []) :
    ∃ c, c ≠ '/' ∧ dst.getLast? = some c := by
  generalize hrooted : false = rooted at hdst
  induction hdst with
  | empty => exact absurd rfl hsome
  | root => cases hrooted
  | @push rooted rest name hname hrest ih =>
    rcases eq_or_ne rest [] with rfl | hne
    · cases name with
      | nil => exact absurd rfl hname.1
      | cons c name =>
        refine ⟨c, ?_, by simp [List.getLast?_cons]⟩
        rintro rfl
        exact hname.2.1 List.mem_cons_self
    · obtain ⟨c, hc, hlast⟩ := ih hne hrooted
      refine ⟨c, hc, ?_⟩
      rw [← List.cons_append, List.getLast?_append, hlast, Option.some_or]

theorem joinPath_append {names : List CString} :
    joinPath (names ++ [name]) = joinPath names ++ '/' :: name := by
  simp [joinPath]

theorem Written.normal {rooted : Bool} (hdst : Written rooted dst) (hname : Component name)
    (habsolute : (dst.reverse ++ name).head? = some '/') : Normal (dst.reverse ++ name) := by
  cases rooted with
  | true =>
    obtain ⟨names, hnames, hreverse⟩ := hdst.joined
    refine .inr ⟨names ++ [name], by simp, ?_, ?_⟩
    · intro other hmem
      rcases List.mem_append.mp hmem with hold | hnew
      · exact hnames other hold
      · rw [List.mem_singleton.mp hnew]
        exact hname
    · rw [hreverse, joinPath_append, List.append_assoc, List.singleton_append]
  | false =>
    exfalso
    rcases eq_or_ne dst [] with rfl | hne
    · exact hname.head_ne habsolute
    · obtain ⟨c, hc, hlast⟩ := hdst.head_of_false hne
      rw [List.head?_append, List.head?_reverse, hlast, Option.some_or] at habsolute
      exact hc (Option.some.inj habsolute)

theorem finishPath_component (hname : Component name) :
    finishPath (name.reverse ++ dst) = dst.reverse ++ name := by
  have hreverse : (name.reverse ++ dst).reverse = dst.reverse ++ name := by simp
  rw [← hreverse]
  cases hlast : name.reverse with
  | nil => exact absurd (List.reverse_eq_nil_iff.mp hlast) hname.1
  | cons c more =>
    have hne : c ≠ '/' := by
      rintro rfl
      exact hname.2.1 (List.mem_reverse.mp (hlast ▸ List.mem_cons_self))
    unfold finishPath
    split
    next heq => simp at heq
    next heq =>
      rw [List.cons_append] at heq
      exact absurd (List.cons.inj heq).1 hne
    · rfl

theorem finishPath_slash (hsome : name ≠ []) :
    finishPath ('/' :: (name.reverse ++ dst)) = dst.reverse ++ name := by
  have hreverse : (name.reverse ++ dst).reverse = dst.reverse ++ name := by simp
  rw [← hreverse]
  cases hlast : name.reverse with
  | nil => exact absurd (List.reverse_eq_nil_iff.mp hlast) hsome
  | cons c more => rfl

theorem finishPath_written {rooted : Bool} (hdst : Written rooted dst)
    (hname : name = [] ∨ Component name)
    (habsolute : (finishPath (name.reverse ++ dst)).head? = some '/') :
    Normal (finishPath (name.reverse ++ dst)) := by
  rcases hname with rfl | hname
  · cases hdst with
    | empty => exact .inl rfl
    | root => exact .inl rfl
    | push name hname hdst =>
      rw [List.reverse_nil, List.nil_append, finishPath_slash hname.1] at habsolute ⊢
      exact hdst.normal hname habsolute
  · rw [finishPath_component hname] at habsolute ⊢
    exact hdst.normal hname habsolute

theorem normalizeInPlace_normal (hpath : normalizeInPlace src = some path)
    (habsolute : path.head? = some '/') : Normal path := by
  obtain ⟨dst, hloop, rfl⟩ := Option.map_eq_some_iff.mp hpath
  rcases eq_or_ne (src.head?) (some '/') with hhead | hhead
  · obtain ⟨more, rfl⟩ : ∃ more, src = '/' :: more := by
      cases src with
      | nil => cases hhead
      | cons c more => exact ⟨more, by rw [Option.some.inj hhead]⟩
    have hfirst : normalizeLoop (more.length + 1) (skipSlashes more) ['/'] = some dst := by
      simpa [normalizeLoop] using hloop
    obtain ⟨rooted, before, name, -, hbefore, hname, rfl⟩ :=
      normalizeLoop_written skipSlashes_head .root hfirst
    exact finishPath_written hbefore hname habsolute
  · obtain ⟨rooted, before, name, -, hbefore, hname, rfl⟩ :=
      normalizeLoop_written hhead .empty hloop
    exact finishPath_written hbefore hname habsolute

theorem dfsNormalizePath_normal {workdir directory : Option CString}
    (hpath : dfsNormalizePath workdir directory src = some path)
    (habsolute : path.head? = some '/') : Normal path := by
  unfold dfsNormalizePath at hpath
  split at hpath
  · exact normalizeInPlace_normal hpath habsolute
  · obtain ⟨base, -, hpath⟩ := Option.bind_eq_some_iff.mp hpath
    exact normalizeInPlace_normal hpath habsolute

theorem finishPath_ne_nil : finishPath dst ≠ [] := by
  unfold finishPath
  split
  · exact List.cons_ne_nil _ _
  · simp
  next hsome _ => exact fun hnil => hsome (List.reverse_eq_nil_iff.mp hnil)

theorem dfsNormalizePath_ne_nil {workdir directory : Option CString}
    (hpath : dfsNormalizePath workdir directory src = some path) : path ≠ [] := by
  have hplace : ∀ {src}, normalizeInPlace src = some path → path ≠ [] := by
    intro src hpath
    obtain ⟨dst, -, rfl⟩ := Option.map_eq_some_iff.mp hpath
    exact finishPath_ne_nil
  unfold dfsNormalizePath at hpath
  split at hpath
  · exact hplace hpath
  · obtain ⟨base, -, hpath⟩ := Option.bind_eq_some_iff.mp hpath
    exact hplace hpath

theorem Normal.head (hnormal : Normal path) : path.head? = some '/' := by
  rcases hnormal with rfl | ⟨names, hsome, -, rfl⟩
  · rfl
  · obtain ⟨first, rest, rfl⟩ := List.exists_cons_of_ne_nil hsome
    rfl

theorem Normal.second {rest : CString} (hnormal : Normal ('/' :: rest)) :
    rest.head? ≠ some '/' := by
  rcases hnormal with hroot | ⟨names, hsome, hnames, hjoin⟩
  · rw [(List.cons.inj hroot).2]
    exact Option.some_ne_none '/' ∘ Eq.symm
  · obtain ⟨first, more, rfl⟩ := List.exists_cons_of_ne_nil hsome
    have hfirst := hnames first List.mem_cons_self
    obtain ⟨c, name, rfl⟩ := List.exists_cons_of_ne_nil hfirst.1
    obtain rfl : rest = c :: (name ++ joinPath more) := by simpa [joinPath] using hjoin
    exact hfirst.head_ne

theorem takeWhile_component {rest : CString} (hname : Component name)
    (hrest : rest.head? = some '/' ∨ rest = []) :
    (name ++ rest).takeWhile (· ≠ '/') = name ∧ (name ++ rest).dropWhile (· ≠ '/') = rest := by
  have hall : ∀ c ∈ name, decide (c ≠ '/') = true := by
    intro c hc
    rw [decide_eq_true_eq]
    rintro rfl
    exact hname.2.1 hc
  rw [List.takeWhile_append_of_pos hall, List.dropWhile_append_of_pos hall]
  rcases hrest with hslash | rfl
  · obtain ⟨more, rfl⟩ : ∃ more, rest = '/' :: more := by
      cases rest with
      | nil => cases hslash
      | cons c more => exact ⟨more, by rw [Option.some.inj hslash]⟩
    simp
  · simp

theorem skipSlashes_component {rest : CString} (hname : Component name) :
    skipSlashes (name ++ rest) = name ++ rest := by
  cases name with
  | nil => exact absurd rfl hname.1
  | cons c name =>
    have hne : c ≠ '/' := fun heq => hname.head_ne (by rw [heq]; rfl)
    simp [skipSlashes, hne]

theorem joinPath_head (names : List CString) :
    (joinPath names).head? = some '/' ∨ joinPath names = [] := by
  cases names with
  | nil => exact .inr rfl
  | cons first rest => exact .inl rfl

theorem normalizeLoop_join {names : List CString} (hname : Component name)
    (hnames : ∀ other ∈ names, Component other) (hfuel : (name ++ joinPath names).length < fuel) :
    normalizeLoop fuel (name ++ joinPath names) dst =
      some ((name ++ joinPath names).reverse ++ dst) := by
  induction names generalizing name dst fuel with
  | nil =>
    cases fuel with
    | zero => exact absurd hfuel (Nat.not_lt_zero _)
    | succ fuel =>
      obtain ⟨htake, hdrop⟩ := takeWhile_component hname (.inr (rfl : joinPath [] = []))
      rw [normalizeLoop, htake, hdrop]
      simp [hname.2.2.1, hname.2.2.2, joinPath]
  | cons second rest ih =>
    cases fuel with
    | zero => exact absurd hfuel (Nat.not_lt_zero _)
    | succ fuel =>
      have hsecond := hnames second List.mem_cons_self
      have hjoin : joinPath (second :: rest) = '/' :: (second ++ joinPath rest) := by
        simp [joinPath]
      obtain ⟨htake, hdrop⟩ := takeWhile_component hname (.inl (rfl :
        ('/' :: (second ++ joinPath rest)).head? = some '/'))
      rw [hjoin] at hfuel ⊢
      rw [normalizeLoop, htake, hdrop]
      simp only [hname.2.2.1, hname.2.2.2, if_false]
      rw [skipSlashes_component hsecond, ih hsecond
        (fun other hmem => hnames other (List.mem_cons_of_mem _ hmem))]
      · simp
      · simp only [List.length_append, List.length_cons] at hfuel ⊢
        omega

theorem dfsNormalizePath_of_normal (workdir directory : Option CString) (hnormal : Normal path) :
    dfsNormalizePath workdir directory path = some path := by
  rw [dfsNormalizePath, if_pos hnormal.head]
  rcases hnormal with rfl | ⟨names, hsome, hnames, rfl⟩
  · rfl
  · obtain ⟨first, rest, rfl⟩ := List.exists_cons_of_ne_nil hsome
    have hfirst := hnames first List.mem_cons_self
    have hrest : ∀ other ∈ rest, Component other :=
      fun other hmem => hnames other (List.mem_cons_of_mem _ hmem)
    have hjoin : joinPath (first :: rest) = '/' :: (first ++ joinPath rest) := by
      simp [joinPath]
    have hstart : normalizeLoop ((first ++ joinPath rest).length + 2)
        ('/' :: (first ++ joinPath rest)) [] =
          normalizeLoop ((first ++ joinPath rest).length + 1) (first ++ joinPath rest) ['/'] := by
      rw [normalizeLoop]
      simp [skipSlashes_component hfirst]
    rw [hjoin, normalizeInPlace, List.length_cons, hstart,
      normalizeLoop_join hfirst hrest (Nat.lt_succ_self _), Option.map_some]
    congr 1
    rcases rest.eq_nil_or_concat with rfl | ⟨init, last, rfl⟩
    · have hfinish : finishPath (first.reverse ++ ['/']) = ['/'].reverse ++ first :=
        finishPath_component hfirst
      simpa [joinPath] using hfinish
    · have hlast : Component last := hrest last (by simp)
      have hfinish : finishPath (last.reverse ++ ('/' :: (first ++ joinPath init).reverse ++ ['/'])) =
          ('/' :: (first ++ joinPath init).reverse ++ ['/']).reverse ++ last :=
        finishPath_component hlast
      rw [List.concat_eq_append, joinPath_append]
      simpa using hfinish

end Loop

section Subdir

variable {directory rest : CString} {c : Char}

@[simp] theorem dfsSubdir_self : dfsSubdir directory directory = none := by
  simp [dfsSubdir]

@[simp] theorem dfsSubdir_slash :
    dfsSubdir directory (directory ++ '/' :: rest) = some ('/' :: rest) := by
  simp [dfsSubdir]

theorem dfsSubdir_append (hdirectory : directory ≠ []) (hc : c ≠ '/') :
    dfsSubdir directory (directory ++ c :: rest) =
      some ((directory ++ c :: rest).drop (directory.length - 1)) := by
  have hlength : directory.length ≠ 0 := fun hzero => hdirectory (List.length_eq_zero_iff.mp hzero)
  have hlonger : directory.length ≠ (directory ++ c :: rest).length := by simp
  rw [dfsSubdir, if_neg hlonger, List.drop_left]
  split
  next heq => exact absurd (List.cons.inj heq).1 hc
  · rw [if_neg hlength]

end Subdir

end RtThread.Dfs
