import RtThread.Dfs.PathResolve
import RtThread.Lib.CharMemory

namespace RtThread.Dfs.InPlace

open Lib CharMemory

def skipAt : Nat → CharMemory → Nat → Option (CharMemory × Nat)
  | 0, _, _ => none
  | fuel + 1, m, src =>
    let (c, m) := m.read src
    if c = '/' ∧ c ≠ nul then skipAt fuel m (src + 1) else some (m, src)

/-- What the characters at `src` ask for, with `src` behind them. -/
inductive Special
  | name (src : Nat)
  | same (src : Nat)
  | up (src : Nat)

def special (fuel : Nat) (m : CharMemory) (src : Nat) : Option (CharMemory × Special) :=
  let (c, m) := m.read src
  if c = '.' then
    let (c, m) := m.read (src + 1)
    if c = nul then some (m, .name (src + 1))
    else if c = '/' then
      (skipAt fuel m (src + 2)).map fun (m, src) => (m, .same src)
    else if c = '.' then
      let (c, m) := m.read (src + 2)
      if c = nul then some (m, .up (src + 2))
      else if c = '/' then
        (skipAt fuel m (src + 3)).map fun (m, src) => (m, .up src)
      else some (m, .name src)
    else some (m, .name src)
  else some (m, .name src)

def copyName : Nat → CharMemory → Nat → Nat → Option (Char × CharMemory × Nat × Nat)
  | 0, _, _, _ => none
  | fuel + 1, m, src, dst =>
    let (c, m) := m.read src
    if c ≠ nul ∧ c ≠ '/' then copyName fuel (m.write dst c) (src + 1) (dst + 1)
    else some (c, m, src + 1, dst)

def backUp (m : CharMemory) (dst0 : Nat) : Nat → CharMemory × Nat
  | 0 => (m, 0)
  | dst + 1 =>
    if dst0 < dst + 1 then
      let (c, m) := m.read dst
      if c ≠ '/' then backUp m dst0 dst else (m, dst + 1)
    else (m, dst + 1)

inductive Rewritten
  | freed
  | ended (m : CharMemory) (dst : Nat)

def rewrite (dst0 : Nat) : Nat → CharMemory → Nat → Nat → Option Rewritten
  | 0, _, _, _ => none
  | fuel + 1, m, src, dst =>
    match special fuel m src with
    | none => none
    | some (m, .same src) => rewrite dst0 fuel m src dst
    | some (m, .up src) =>
      if dst - 1 < dst0 then some .freed
      else
        let (m, dst) := backUp m dst0 (dst - 1)
        rewrite dst0 fuel m src dst
    | some (m, .name src) =>
      match copyName fuel m src dst with
      | none => none
      | some (c, m, src, dst) =>
        if c = '/' then
          match skipAt fuel (m.write dst '/') src with
          | none => none
          | some (m, src) => rewrite dst0 fuel m src (dst + 1)
        else some (.ended m dst)

def dropSlash (m : CharMemory) (fullpath dst : Nat) : CharMemory :=
  if dst ≠ fullpath then
    let (c, m) := m.read dst
    if c = '/' then m.write dst nul else m
  else m

def rootIfEmpty (m : CharMemory) (fullpath : Nat) : CharMemory :=
  let (c, m) := m.read fullpath
  if c = nul then (m.write fullpath '/').write (fullpath + 1) nul else m

def finish (m : CharMemory) (fullpath dst : Nat) : CharMemory :=
  rootIfEmpty (dropSlash (m.write dst nul) fullpath (dst - 1)) fullpath

inductive Answer
  | null
  | path (m : CharMemory) (fullpath : Nat)

/-- A copy of a path, rewritten where it is; `malloc` is what the allocator returns for it. -/
def rewritePath (byte : Nat → Char) (malloc : Option Nat) (path : CString) (size : Nat) :
    Option Answer :=
  match malloc with
  | none => some .null
  | some fullpath =>
    let m : CharMemory := ⟨CharMemory.store byte fullpath path, fullpath, fullpath + size, false⟩
    (rewrite fullpath (path.length + 2) m fullpath fullpath).map fun
      | .freed => .null
      | .ended m dst => .path (finish m fullpath dst) fullpath

/-- `dfs_normalize_path`; `none` is a loop that has not ended. -/
def dfsNormalizePath (byte : Nat → Char) (malloc : Option Nat) (workdir directory : Option CString)
    (filename : CString) : Option Answer :=
  if filename.head? = some '/' then
    rewritePath byte malloc filename (filename.length + 1)
  else
    match directory.or workdir with
    | none => some .null
    | some directory =>
      rewritePath byte malloc (directory ++ '/' :: filename)
        (directory.length + filename.length + 2)

section Refines

variable {m : CharMemory} {fullpath src dst fuel : Nat} {text rev : List Char}

/-- The buffer in the loop: what is left of the path at `src`, what has been written before
`dst`. -/
structure Before (m : CharMemory) (fullpath src dst : Nat) (text rev : List Char) : Prop where
  string : m.StringAt src text
  fits : src + text.length < m.high
  written : m.WrittenFrom fullpath rev
  clear : nul ∉ rev
  low : m.low = fullpath
  place : dst = fullpath + rev.length
  behind : dst ≤ src
  clean : m.stray = false

theorem Before.read (hbefore : Before m fullpath src dst text rev) {k : Nat}
    (hk : k ≤ text.length) : m.read (src + k) = (m.byte (src + k), m) := by
  have hdst := hbefore.place
  have hbehind := hbefore.behind
  have hfits := hbefore.fits
  exact read_within (by rw [hbefore.low]; omega) (by omega)

theorem skipAt_spec (src : Nat) (hlow : m.low ≤ src) (htext : m.StringAt src text)
    (hfits : src + text.length < m.high) (hfuel : text.length < fuel) :
    ∃ src', skipAt fuel m src = some (m, src') ∧ src ≤ src' ∧
      src' + (skipSlashes text).length = src + text.length ∧
      m.StringAt src' (skipSlashes text) := by
  induction text generalizing src fuel with
  | nil =>
    obtain ⟨fuel, rfl⟩ := Nat.exists_eq_succ_of_ne_zero (Nat.pos_iff_ne_zero.mp hfuel)
    have hbyte : m.byte src = nul := htext
    refine ⟨src, ?_, Nat.le_refl _, rfl, htext⟩
    rw [skipAt, read_within hlow (by simpa using hfits)]
    simp [hbyte]
  | cons c text ih =>
    rw [List.length_cons] at hfits hfuel
    obtain ⟨fuel, rfl⟩ : ∃ more, fuel = more + 1 := ⟨fuel - 1, by omega⟩
    rw [skipAt, read_within hlow (by omega)]
    dsimp only
    rw [htext.head]
    by_cases hc : c = '/'
    · obtain ⟨src', hskip, hle, hlength, hstring⟩ :=
        ih (src + 1) (by omega) htext.tail (by omega) (Nat.lt_of_succ_lt_succ hfuel)
      have hdrop : skipSlashes (c :: text) = skipSlashes text := by simp [skipSlashes, hc]
      rw [if_pos ⟨hc, htext.ne⟩, hdrop, List.length_cons]
      exact ⟨src', hskip, by omega, by omega, hstring⟩
    · have hdrop : skipSlashes (c :: text) = c :: text := by simp [skipSlashes, hc]
      rw [if_neg fun h => hc h.1, hdrop]
      exact ⟨src, rfl, Nat.le_refl _, rfl, htext⟩

theorem Before.skip (hbefore : Before m fullpath src dst text rev) (before : List Char)
    {rest : List Char} (fuel : Nat) (hsplit : text = before ++ rest) (hfuel : rest.length < fuel) :
    ∃ src', skipAt fuel m (src + before.length) = some (m, src') ∧
      Before m fullpath src' dst (skipSlashes rest) rev := by
  subst hsplit
  have hdst := hbefore.place
  have hbehind := hbefore.behind
  have hfits := hbefore.fits
  rw [List.length_append] at hfits
  obtain ⟨src', hskip, hle, hlength, hstring⟩ := skipAt_spec (src + before.length)
    (by rw [hbefore.low]; omega) hbefore.string.drop (by omega) hfuel
  exact ⟨src', hskip, hstring, by omega, hbefore.written, hbefore.clear, hbefore.low, hdst,
    by omega, hbefore.clean⟩

theorem Before.advance (hbefore : Before m fullpath src dst text rev) (before : List Char)
    {rest : List Char} (hsplit : text = before ++ rest) : Before m fullpath (src + before.length) dst rest rev := by
  subst hsplit
  have hbehind := hbefore.behind
  have hfits := hbefore.fits
  rw [List.length_append] at hfits
  exact ⟨hbefore.string.drop, by omega, hbefore.written, hbefore.clear, hbefore.low, hbefore.place,
    by omega, hbefore.clean⟩

theorem Before.copy {c : Char} (hbefore : Before m fullpath src dst (c :: text) rev) :
    Before (m.write dst c) fullpath (src + 1) (dst + 1) text (c :: rev) := by
  have hdst := hbefore.place
  have hbehind := hbefore.behind
  have hfits := hbefore.fits
  rw [List.length_cons] at hfits
  refine ⟨hbefore.string.tail.write (by omega), ?_, ?_, ?_, hbefore.low, ?_, by omega, ?_⟩
  · rw [write_high]
    omega
  · rw [hdst]
    exact hbefore.written.push
  · rw [List.mem_cons, not_or]
    exact ⟨hbefore.string.ne.symm, hbefore.clear⟩
  · rw [List.length_cons]
    omega
  · rw [write_stray (by rw [hbefore.low]; omega) (by omega)]
    exact hbefore.clean

theorem special_spec (hbefore : Before m fullpath src dst text rev) (hfuel : text.length ≤ fuel) :
    (text = ['.'] ∧ special fuel m src = some (m, .name (src + 1))) ∨
    (∃ rest src', text = '.' :: '/' :: rest ∧ special fuel m src = some (m, .same src') ∧
      Before m fullpath src' dst (skipSlashes rest) rev) ∨
    (text = ['.', '.'] ∧ special fuel m src = some (m, .up (src + 2))) ∨
    (∃ rest src', text = '.' :: '.' :: '/' :: rest ∧ special fuel m src = some (m, .up src') ∧
      Before m fullpath src' dst (skipSlashes rest) rev) ∨
    (text.takeWhile (· ≠ '/') ≠ ['.'] ∧ text.takeWhile (· ≠ '/') ≠ ['.', '.'] ∧
      special fuel m src = some (m, .name src)) := by
  have hread := fun {k : Nat} (hk : k ≤ text.length) => hbefore.read hk
  have hstring := hbefore.string
  have hread0 := hread (Nat.zero_le _)
  rw [Nat.add_zero] at hread0
  unfold special
  rw [hread0]
  dsimp only
  match text, hstring, hbefore with
  | [], hnul, _ =>
    have hbyte : m.byte src = nul := hnul
    rw [hbyte]
    simp [nul]
  | c :: text, hstring, hbefore =>
    rw [hstring.head]
    by_cases hdot : c = '.'
    case neg =>
      rw [if_neg hdot]
      refine .inr (.inr (.inr (.inr ⟨?_, ?_, rfl⟩))) <;>
        · rw [List.takeWhile_cons]
          split <;> simp [hdot]
    subst hdot
    rw [if_pos rfl, hbefore.read (k := 1) (by simp)]
    dsimp only
    match text, hstring, hbefore with
    | [], hstring, _ =>
      have hbyte : m.byte (src + 1) = nul := hstring.tail
      rw [hbyte]
      exact .inl ⟨rfl, rfl⟩
    | c :: text, hstring, hbefore =>
      rw [hstring.tail.head, if_neg hstring.tail.ne]
      by_cases hslash : c = '/'
      case pos =>
        subst hslash
        obtain ⟨src', hskip, hafter⟩ := hbefore.skip ['.', '/'] fuel rfl
          (by simp at hfuel ⊢; omega)
        rw [if_pos rfl]
        refine .inr (.inl ⟨text, src', rfl, ?_, hafter⟩)
        simpa using hskip
      rw [if_neg hslash]
      by_cases hdot : c = '.'
      case neg =>
        rw [if_neg hdot]
        refine .inr (.inr (.inr (.inr ⟨?_, ?_, rfl⟩))) <;> simp [hslash, hdot]
      subst hdot
      rw [if_pos rfl, hbefore.read (k := 2) (by simp)]
      dsimp only
      match text, hstring, hbefore with
      | [], hstring, _ =>
        have hbyte : m.byte (src + 2) = nul := hstring.tail.tail
        rw [hbyte]
        exact .inr (.inr (.inl ⟨rfl, rfl⟩))
      | c :: text, hstring, hbefore =>
        have hbyte : m.byte (src + 2) = c := hstring.tail.tail.head
        rw [hbyte, if_neg hstring.tail.tail.ne]
        by_cases hslash : c = '/'
        · subst hslash
          obtain ⟨src', hskip, hafter⟩ := hbefore.skip ['.', '.', '/'] fuel rfl
            (by simp at hfuel ⊢; omega)
          rw [if_pos rfl]
          refine .inr (.inr (.inr (.inl ⟨text, src', rfl, ?_, hafter⟩)))
          simpa using hskip
        · rw [if_neg hslash]
          refine .inr (.inr (.inr (.inr ⟨?_, ?_, rfl⟩))) <;> simp [hslash]

theorem copyName_spec (hbefore : Before m fullpath src dst text rev) (hfuel : text.length < fuel) :
    (text.dropWhile (· ≠ '/') = [] ∧ ∃ m' src' dst' stop,
      copyName fuel m src dst = some (nul, m', src', dst') ∧
        Before m' fullpath stop dst' [] ((text.takeWhile (· ≠ '/')).reverse ++ rev)) ∨
    (∃ rest m' src' dst', text.dropWhile (· ≠ '/') = '/' :: rest ∧
      copyName fuel m src dst = some ('/', m', src' + 1, dst') ∧
        Before m' fullpath src' dst' ('/' :: rest)
          ((text.takeWhile (· ≠ '/')).reverse ++ rev)) := by
  induction text generalizing m src dst rev fuel with
  | nil =>
    obtain ⟨fuel, rfl⟩ : ∃ more, fuel = more + 1 := ⟨fuel - 1, by omega⟩
    have hbyte : m.byte src = nul := hbefore.string
    have hread := hbefore.read (Nat.zero_le _)
    rw [Nat.add_zero] at hread
    refine .inl ⟨rfl, m, src + 1, dst, src, ?_, hbefore⟩
    rw [copyName, hread, hbyte]
    simp
  | cons c text ih =>
    rw [List.length_cons] at hfuel
    obtain ⟨fuel, rfl⟩ : ∃ more, fuel = more + 1 := ⟨fuel - 1, by omega⟩
    have hread := hbefore.read (Nat.zero_le _)
    rw [Nat.add_zero] at hread
    rw [copyName, hread, hbefore.string.head]
    dsimp only
    by_cases hc : c = '/'
    · subst hc
      exact .inr ⟨text, m, src, dst, by simp, by simp, by simpa using hbefore⟩
    · have htake : (c :: text).takeWhile (· ≠ '/') = c :: text.takeWhile (· ≠ '/') := by
        simp [hc]
      have hdrop : (c :: text).dropWhile (· ≠ '/') = text.dropWhile (· ≠ '/') := by simp [hc]
      rw [if_pos ⟨hbefore.string.ne, hc⟩, htake, hdrop, List.reverse_cons, List.append_assoc]
      exact ih hbefore.copy (by omega)

theorem backUp_spec (hbefore : Before m fullpath src dst text rev) :
    ∃ dst', backUp m fullpath dst = (m, dst') ∧
      Before m fullpath src dst' text (rev.dropWhile (· ≠ '/')) := by
  induction rev generalizing dst with
  | nil =>
    obtain rfl : dst = fullpath := hbefore.place
    refine ⟨dst, ?_, hbefore⟩
    cases dst with
    | zero => rfl
    | succ dst => rw [backUp, if_neg (Nat.lt_irrefl _)]
  | cons c rev ih =>
    have hplace := hbefore.place
    have hbehind := hbefore.behind
    have hfits := hbefore.fits
    rw [List.length_cons] at hplace
    obtain ⟨last, rfl⟩ : ∃ last, dst = last + 1 := ⟨dst - 1, by omega⟩
    obtain rfl : last = fullpath + rev.length := by omega
    have hbyte := hbefore.written.1
    rw [backUp, if_pos (by omega), read_within (by rw [hbefore.low]; omega) (by omega), hbyte]
    dsimp only
    by_cases hc : c = '/'
    · rw [if_neg (not_not.mpr hc)]
      exact ⟨_, rfl, by simpa [hc] using hbefore⟩
    · have hless : Before m fullpath src (fullpath + rev.length) text rev :=
        ⟨hbefore.string, hfits, hbefore.written.2,
          fun hmem => hbefore.clear (List.mem_cons_of_mem _ hmem), hbefore.low, rfl, by omega,
          hbefore.clean⟩
      have hdrop : (c :: rev).dropWhile (· ≠ '/') = rev.dropWhile (· ≠ '/') := by simp [hc]
      rw [if_pos hc, hdrop]
      exact ih hless

theorem rewrite_end (hbefore : Before m fullpath src dst [] rev) (hfuel : 0 < fuel) :
    rewrite fullpath (fuel + 1) m src dst = some (.ended m dst) := by
  obtain ⟨fuel, rfl⟩ : ∃ more, fuel = more + 1 := ⟨fuel - 1, by omega⟩
  have hbyte : m.byte src = nul := hbefore.string
  have hread := hbefore.read (Nat.zero_le _)
  rw [Nat.add_zero] at hread
  have hspecial : special (fuel + 1) m src = some (m, .name src) := by
    unfold special
    rw [hread, hbyte]
    rfl
  rw [rewrite, hspecial]
  simp [copyName, hread, hbyte, nul]

theorem rewrite_spec (hroom : 0 < fullpath) (hbefore : Before m fullpath src dst text rev)
    (hfuel : text.length < fuel) :
    match normalizeLoop fuel text rev with
    | none => rewrite fullpath (fuel + 1) m src dst = some .freed
    | some rev' => ∃ m' dst' stop, rewrite fullpath (fuel + 1) m src dst = some (.ended m' dst') ∧
        Before m' fullpath stop dst' [] rev' := by
  induction fuel generalizing m src dst text rev with
  | zero => exact absurd hfuel (Nat.not_lt_zero _)
  | succ fuel ih =>
    have hskip {rest : List Char} : (skipSlashes rest).length ≤ rest.length :=
      List.length_dropWhile_le ..
    -- going up from what has been written, with the rest of the path
    have hup {src' : Nat} {rest : List Char} {next : List Char → Option (List Char)}
        (hafter : Before m fullpath src' dst rest rev)
        (hnext : ∀ dst' rev', Before m fullpath src' dst' rest rev' →
          match next rev' with
          | none => rewrite fullpath (fuel + 1) m src' dst' = some .freed
          | some rev'' => ∃ m' dst'' stop,
              rewrite fullpath (fuel + 1) m src' dst' = some (.ended m' dst'') ∧
                Before m' fullpath stop dst'' [] rev'')
        (hspecial : special (fuel + 1) m src = some (m, .up src')) :
        match (upOne rev).bind next with
        | none => rewrite fullpath (fuel + 1 + 1) m src dst = some .freed
        | some rev' => ∃ m' dst' stop,
            rewrite fullpath (fuel + 1 + 1) m src dst = some (.ended m' dst') ∧
              Before m' fullpath stop dst' [] rev' := by
      have hplace := hafter.place
      rw [rewrite, hspecial]
      dsimp only
      cases rev with
      | nil =>
        rw [List.length_nil, Nat.add_zero] at hplace
        exact if_pos (by omega)
      | cons c rev =>
        rw [List.length_cons] at hplace
        have hbehind := hafter.behind
        have hless : Before m fullpath src' (dst - 1) rest rev :=
          ⟨hafter.string, hafter.fits, hafter.written.2,
            fun hmem => hafter.clear (List.mem_cons_of_mem _ hmem), hafter.low, by omega,
            by omega, hafter.clean⟩
        obtain ⟨dst', hback, hbacked⟩ := backUp_spec hless
        rw [if_neg (by omega), hback]
        exact hnext dst' _ hbacked
    rcases special_spec hbefore (Nat.le_of_lt_succ (by omega : text.length < fuel + 1 + 1)) with
      ⟨rfl, hspecial⟩ | ⟨rest, src', rfl, hspecial, hafter⟩ | ⟨rfl, hspecial⟩ |
        ⟨rest, src', rfl, hspecial, hafter⟩ | ⟨hdot, hdots, hspecial⟩
    · -- '.' and ends
      have hend : Before m fullpath (src + 1) dst [] rev := hbefore.advance ['.'] rfl
      have hread := hend.read (Nat.zero_le _)
      have hbyte : m.byte (src + 1) = nul := hend.string
      rw [Nat.add_zero] at hread
      refine ⟨m, dst, src + 1, ?_, hend⟩
      rw [rewrite, hspecial]
      simp [copyName, hread, hbyte, nul]
    · -- './' case
      have hloop : normalizeLoop (fuel + 1) ('.' :: '/' :: rest) rev =
          normalizeLoop fuel (skipSlashes rest) rev := by
        simp [normalizeLoop]
      rw [hloop, rewrite, hspecial]
      apply ih hafter
      simp only [List.length_cons] at hfuel
      exact Nat.lt_of_le_of_lt hskip (by omega)
    · -- '..' and ends case
      have hloop : normalizeLoop (fuel + 1) ['.', '.'] rev = (upOne rev).bind some := by
        simp [normalizeLoop]
      rw [hloop]
      apply hup (hbefore.advance ['.', '.'] rfl) ?_ hspecial
      intro dst' rev' hafter
      refine ⟨m, dst', _, rewrite_end hafter ?_, hafter⟩
      simp only [List.length_cons] at hfuel
      omega
    · -- '../' case
      have hloop : normalizeLoop (fuel + 1) ('.' :: '.' :: '/' :: rest) rev =
          (upOne rev).bind (normalizeLoop fuel (skipSlashes rest)) := by
        simp [normalizeLoop]
      rw [hloop]
      apply hup hafter ?_ hspecial
      intro dst' rev' hbacked
      apply ih hbacked
      simp only [List.length_cons] at hfuel
      exact Nat.lt_of_le_of_lt hskip (by omega)
    · -- a name
      rw [normalizeLoop, if_neg hdot, if_neg hdots, rewrite, hspecial]
      rcases copyName_spec hbefore hfuel with
        ⟨hdrop, m', src', dst', stop, hcopy, hafter⟩ | ⟨rest, m', src', dst', hdrop, hcopy, hafter⟩
      · rw [hdrop]
        refine ⟨m', dst', stop, ?_, hafter⟩
        simp only [hcopy]
        rfl
      · have hshort : rest.length < fuel := by
          have hlength : (text.dropWhile (· ≠ '/')).length ≤ text.length :=
            List.length_dropWhile_le ..
          rw [hdrop, List.length_cons] at hlength
          omega
        obtain ⟨src'', hskipped, hnext⟩ := hafter.copy.skip [] _ rfl
          (Nat.lt_succ_of_lt hshort)
        rw [List.length_nil, Nat.add_zero] at hskipped
        rw [hdrop]
        simp only [hcopy, if_true, hskipped]
        exact ih hnext (Nat.lt_of_le_of_lt hskip hshort)

theorem rootIfEmpty_written (hwritten : m.WrittenFrom fullpath rev)
    (hend : m.byte (fullpath + rev.length) = nul) (hclear : nul ∉ rev) (hsome : rev ≠ [])
    (hlow : m.low = fullpath) (hhigh : fullpath < m.high) (hclean : m.stray = false) :
    (rootIfEmpty m fullpath).StringAt fullpath rev.reverse ∧
      (rootIfEmpty m fullpath).stray = false := by
  have hbyte := hwritten.byte_ne hclear hsome
  have hempty : m.StringAt _ [] := hend
  have hstring := hwritten.stringAt hclear hempty
  rw [List.append_nil] at hstring
  rw [rootIfEmpty, read_within (Nat.le_of_eq hlow) hhigh]
  dsimp only
  rw [if_neg hbyte]
  exact ⟨hstring, hclean⟩

theorem finish_spec (hbefore : Before m fullpath src dst [] rev) (hsome : rev ≠ []) :
    (finish m fullpath dst).StringAt fullpath (finishPath rev) ∧
      (finish m fullpath dst).stray = false := by
  have hplace := hbefore.place
  have hbehind := hbefore.behind
  have hfits := hbefore.fits
  rw [List.length_nil] at hfits
  have hlow := hbefore.low
  have hterminated : (m.write dst nul).byte (fullpath + rev.length) = nul := by
    rw [← hplace]
    exact write_byte_self
  have hwritten : (m.write dst nul).WrittenFrom fullpath rev := hbefore.written.write (by omega)
  have hclean : (m.write dst nul).stray = false := by
    rw [write_stray (by omega) (by omega)]
    exact hbefore.clean
  have hhigh : fullpath < m.high := by omega
  have hstays := rootIfEmpty_written hwritten hterminated hbefore.clear hsome hlow hhigh hclean
  unfold finish
  cases rev with
  | nil => exact absurd rfl hsome
  | cons c rev =>
    rw [List.length_cons] at hplace
    cases rev with
    | nil =>
      have hsame : finishPath [c] = [c].reverse := by
        unfold finishPath
        split <;> simp_all
      rw [List.length_nil] at hplace
      rw [hsame, dropSlash, if_neg (by omega)]
      exact hstays
    | cons d rev =>
      have hprevious : dst - 1 = fullpath + (d :: rev).length := by omega
      have hbyte : (m.write dst nul).byte (dst - 1) = c := by
        rw [hprevious]
        exact hwritten.1
      have hne : dst - 1 ≠ fullpath := by
        rw [hprevious, List.length_cons]
        omega
      have hlow' : (m.write dst nul).low ≤ dst - 1 := by
        rw [write_low, hlow]
        omega
      have hhigh' : dst - 1 < (m.write dst nul).high := by
        rw [write_high]
        omega
      rw [dropSlash, if_pos hne, read_within hlow' hhigh']
      dsimp only
      rw [hbyte]
      by_cases hc : c = '/'
      · subst hc
        have hclear : nul ∉ d :: rev := fun hmem => hbefore.clear (List.mem_cons_of_mem _ hmem)
        rw [if_pos rfl]
        apply rootIfEmpty_written (hwritten.2.write (by omega)) _ hclear (List.cons_ne_nil _ _)
          hlow hhigh
        · rw [write_stray hlow' hhigh']
          exact hclean
        · rw [← hprevious]
          exact write_byte_self
      · have hsame : finishPath (c :: d :: rev) = (c :: d :: rev).reverse := by
          unfold finishPath
          split <;> simp_all
        rw [if_neg hc, hsame]
        exact hstays

theorem finish_stray (hroom : 0 < fullpath) (hbefore : Before m fullpath src dst [] []) :
    (finish m fullpath dst).stray = true := by
  obtain rfl : dst = fullpath := hbefore.place
  have hlow := hbefore.low
  have hread : ((m.write dst nul).read (dst - 1)).2.stray = true :=
    touch_outside (.inl (by rw [write_low]; omega))
  have hdrop : (dropSlash (m.write dst nul) dst (dst - 1)).stray = true := by
    rw [dropSlash, if_pos (by omega)]
    dsimp only
    split
    · exact write_of_stray hread
    · exact hread
  unfold finish rootIfEmpty
  dsimp only
  split
  · exact write_of_stray (write_of_stray (touch_of_stray hdrop))
  · exact touch_of_stray hdrop

theorem rewritePath_spec (byte : Nat → Char) (fullpath size : Nat) {path : CString}
    (hroom : 0 < fullpath) (hnul : nul ∉ path) (hsize : path.length < size) :
    match normalizeLoop (path.length + 1) path [] with
    | none => rewritePath byte (some fullpath) path size = some .null
    | some rev => ∃ m, rewritePath byte (some fullpath) path size = some (.path m fullpath) ∧
        if rev = [] then m.stray = true
        else m.StringAt fullpath (finishPath rev) ∧ m.stray = false := by
  have hstart : Before ⟨store byte fullpath path, fullpath, fullpath + size, false⟩
      fullpath fullpath fullpath path [] :=
    ⟨stringAt_store hnul, Nat.add_lt_add_left hsize _, trivial, List.not_mem_nil, rfl,
      rfl, Nat.le_refl _, rfl⟩
  have hloop := rewrite_spec hroom hstart (Nat.lt_succ_self _)
  unfold rewritePath
  cases hresult : normalizeLoop (path.length + 1) path [] with
  | none =>
    rw [hresult] at hloop
    dsimp only at hloop ⊢
    rw [hloop]
    rfl
  | some rev =>
    rw [hresult] at hloop
    obtain ⟨m, dst, stop, hrun, hended⟩ := hloop
    refine ⟨finish m fullpath dst, ?_, ?_⟩
    · dsimp only
      rw [hrun]
      rfl
    · split
      next hnone =>
        subst hnone
        exact finish_stray hroom hended
      next hsome => exact finish_spec hended hsome

end Refines

section Normalized

variable {byte : Nat → Char} {fullpath : Nat} {workdir directory : Option CString}
  {path base filename : CString} {m : CharMemory}

/-- What `dfs_normalize_path` is for: the string it returns names the same place by components
alone, is its own normal form, and nothing outside of its buffer has been touched. -/
structure Normalized (base filename : CString) (m : CharMemory) (fullpath : Nat) : Prop where
  clean : m.stray = false
  result : ∃ path, m.StringAt fullpath path ∧ Normal path ∧
    path = pathOf (resolve [] (components (asked base filename))) ∧
    ∀ byte again workdir directory, 0 < again → ∃ m',
      dfsNormalizePath byte (some again) workdir directory path = some (.path m' again) ∧
        m'.StringAt again path

theorem dfsNormalizePath_of_normal (hroom : 0 < fullpath) (hnormal : Normal path)
    (hnul : nul ∉ path) : ∃ m,
      dfsNormalizePath byte (some fullpath) workdir directory path = some (.path m fullpath) ∧
        m.StringAt fullpath path := by
  have hplace := Dfs.dfsNormalizePath_of_normal workdir directory hnormal
  rw [Dfs.dfsNormalizePath, if_pos hnormal.head] at hplace
  obtain ⟨rev, hloop, hfinish⟩ := Option.map_eq_some_iff.mp hplace
  have hsome : rev ≠ [] := by
    rintro rfl
    obtain rfl : path = ['/'] := hfinish.symm
    cases hloop
  have hrun := rewritePath_spec byte fullpath _ hroom hnul (Nat.lt_succ_self path.length)
  rw [hloop] at hrun
  obtain ⟨m, hrun, hstring⟩ := hrun
  rw [if_neg hsome, hfinish] at hstring
  rw [dfsNormalizePath, if_pos hnormal.head]
  exact ⟨m, hrun, hstring.1⟩

theorem asked_head (filename : CString) (hbase : Normal base) : (asked base filename).head? = some '/' := by
  unfold asked
  split
  next habsolute => exact habsolute
  · obtain ⟨more, rfl⟩ := List.head?_eq_some_iff.mp hbase.head
    rfl

theorem nul_not_mem_asked (hbase : nul ∉ base) (hfilename : nul ∉ filename) :
    nul ∉ asked base filename := by
  unfold asked
  split
  · exact hfilename
  · rw [List.mem_append, List.mem_cons, not_or, not_or]
    exact ⟨hbase, by decide, hfilename⟩

theorem dfsNormalizePath_eq {malloc : Option Nat} :
    dfsNormalizePath byte malloc workdir (some base) filename =
      rewritePath byte malloc (asked base filename) ((asked base filename).length + 1) := by
  unfold dfsNormalizePath asked
  split
  · rfl
  · rw [List.length_append, List.length_cons]
    rfl

/-- The path that is returned is the normalised one just when no `..` is met at the root. -/
theorem dfsNormalizePath_iff (byte : Nat → Char) (malloc : Option Nat) (hmalloc : malloc ≠ some 0)
    (workdir : Option CString) (base filename : CString) (hbase : Normal base)
    (hnul : nul ∉ base) (hnul' : nul ∉ filename) :
    ∃ answer, dfsNormalizePath byte malloc workdir (some base) filename = some answer ∧
      ∀ m fullpath, answer = .path m fullpath →
        (Normalized base filename m fullpath ↔ ¬ leavesRoot [] (components (asked base filename))) := by
  rw [dfsNormalizePath_eq]
  cases malloc with
  | none => exact ⟨.null, rfl, fun _ _ hanswer => nomatch hanswer⟩
  | some address =>
    have hroom : 0 < address := Nat.pos_of_ne_zero fun hzero => hmalloc (congrArg some hzero)
    have hrun := rewritePath_spec byte address _ hroom (nul_not_mem_asked hnul hnul')
      (Nat.lt_succ_self (asked base filename).length)
    have hcases := normalizeLoop_path (asked_head filename hbase)
    cases hloop : normalizeLoop ((asked base filename).length + 1) (asked base filename) [] with
    | none =>
      rw [hloop] at hrun
      exact ⟨.null, hrun, fun _ _ hanswer => nomatch hanswer⟩
    | some rev =>
      rw [hloop] at hrun hcases
      obtain ⟨m, hrun, hresult⟩ := hrun
      refine ⟨_, hrun, fun m' fullpath hanswer => ?_⟩
      cases hanswer
      rcases hcases with ⟨hleaves, hlost⟩ | ⟨hstays, dst, hdst, hsome, hpath, hnames⟩
      · refine iff_of_false (fun hnormalized => ?_) (not_not.mpr hleaves)
        obtain ⟨path, hstring, hnormal, -⟩ := hnormalized.result
        rcases hlost rev rfl with rfl | hhead
        · rw [if_pos rfl, hnormalized.clean] at hresult
          cases hresult
        · have hsome : rev ≠ [] := by
            rintro rfl
            exact hhead rfl
          rw [if_neg hsome] at hresult
          rw [← hstring.unique hresult.1] at hhead
          exact hhead hnormal.head
      · obtain rfl := Option.some.inj hdst
        rw [if_neg hsome, hpath] at hresult
        have hnormal : Normal (pathOf (resolve [] (components (asked base filename)))) :=
          normal_iff_pathOf.mpr ⟨_, hnames, rfl⟩
        refine iff_of_true ⟨hresult.2, _, hresult.1, hnormal, rfl, ?_⟩ hstays
        intro byte again workdir directory hagain
        exact dfsNormalizePath_of_normal hagain hnormal hresult.1.not_mem

theorem dfsNormalizePath_root_lost : ∃ m,
    dfsNormalizePath (fun _ => 'x') (some 16) none (some ['/']) ['/', '.', '.', '/', 'a'] =
        some (.path m 16) ∧
      m.StringAt 16 ['a'] ∧ ¬ Normalized ['/'] ['/', '.', '.', '/', 'a'] m 16 := by
  have hrun := rewritePath_spec (fun _ => 'x') 16 6 (by decide)
    (by decide : nul ∉ ['/', '.', '.', '/', 'a']) (by decide)
  have hloop : normalizeLoop 6 ['/', '.', '.', '/', 'a'] [] = some ['a'] := by decide
  rw [List.length_cons, show ['.', '.', '/', 'a'].length + 1 + 1 = 6 from rfl, hloop] at hrun
  obtain ⟨m, hrun, hresult⟩ := hrun
  rw [if_neg (by decide)] at hresult
  refine ⟨m, hrun, hresult.1, fun hnormalized => ?_⟩
  obtain ⟨path, hstring, hnormal, -⟩ := hnormalized.result
  have hhead := hnormal.head
  rw [hstring.unique hresult.1] at hhead
  exact absurd hhead (by decide)

theorem dfsNormalizePath_iff_below : ∃ m,
    dfsNormalizePath (fun _ => 'x') (some 16) none (some ['/', 'd']) ['a', '/', '.', '.', '/', 'b'] =
        some (.path m 16) ∧
      Normalized ['/', 'd'] ['a', '/', '.', '.', '/', 'b'] m 16 := by
  have hname : Component ['d'] := by decide
  have hbase : Normal ['/', 'd'] := .inr ⟨[['d']], by decide, by simp [hname], rfl⟩
  obtain ⟨answer, hrun, hiff⟩ := dfsNormalizePath_iff (fun _ => 'x') (some 16) (by decide) none
    ['/', 'd'] ['a', '/', '.', '.', '/', 'b'] hbase (by decide) (by decide)
  have hloop := rewritePath_spec (fun _ => 'x') 16 10 (by decide)
    (by decide : nul ∉ asked ['/', 'd'] ['a', '/', '.', '.', '/', 'b']) (by decide)
  have hwritten : normalizeLoop ((asked ['/', 'd'] ['a', '/', '.', '.', '/', 'b']).length + 1)
      (asked ['/', 'd'] ['a', '/', '.', '.', '/', 'b']) [] = some ['b', '/', 'd', '/'] := by decide
  rw [hwritten] at hloop
  obtain ⟨m, hpath, -⟩ := hloop
  rw [dfsNormalizePath_eq] at hrun ⊢
  have hanswer : answer = .path m 16 := Option.some.inj (hrun.symm.trans hpath)
  refine ⟨m, hpath, (hiff m 16 hanswer).mpr ?_⟩
  have hcomponents : components (asked ['/', 'd'] ['a', '/', '.', '.', '/', 'b']) =
      [[], ['d'], ['a'], ['.', '.'], ['b']] := by decide
  rw [hcomponents]
  simp [leavesRoot, resolveStep]

end Normalized

end RtThread.Dfs.InPlace
