import Mathlib.Data.List.TakeWhile
import RtThread.Lib.CharMemory

namespace RtThread.Finsh

open Lib CharMemory

def isBlank (c : Char) : Prop := c = ' ' ∨ c = '\t'

instance (c : Char) : Decidable (isBlank c) := inferInstanceAs (Decidable (_ ∨ _))

def stripBlanks (length : Nat) : Nat → CharMemory → Nat → Nat → Option (CharMemory × Nat × Nat)
  | 0, _, _, _ => none
  | fuel + 1, m, ptr, position =>
    let (c, m) := m.read ptr
    if isBlank c ∧ position < length then
      stripBlanks length fuel (m.write ptr nul) (ptr + 1) (position + 1)
    else some (m, ptr, position)

def skipString (length : Nat) : Nat → CharMemory → Nat → Nat → Option (CharMemory × Nat × Nat)
  | 0, _, _, _ => none
  | fuel + 1, m, ptr, position =>
    let (c, m) := m.read ptr
    if c ≠ '"' ∧ position < length then
      if c = '\\' then
        let (d, m) := m.read (ptr + 1)
        if d = '"' then skipString length fuel m (ptr + 2) (position + 2)
        else skipString length fuel m (ptr + 1) (position + 1)
      else skipString length fuel m (ptr + 1) (position + 1)
    else some (m, ptr, position)

def skipWord (length : Nat) : Nat → CharMemory → Nat → Nat → Option (CharMemory × Nat × Nat)
  | 0, _, _, _ => none
  | fuel + 1, m, ptr, position =>
    let (c, m) := m.read ptr
    if ¬ isBlank c ∧ position < length then skipWord length fuel m (ptr + 1) (position + 1)
    else some (m, ptr, position)

def readString : Nat → CharMemory → Nat → Option (CharMemory × List Char)
  | 0, _, _ => none
  | fuel + 1, m, a =>
    let (c, m) := m.read a
    if c = nul then some (m, [])
    else (readString fuel m (a + 1)).map fun (m, text) => (m, c :: text)

/-- `for(i = 0; i < argc; i++) rt_kprintf("%s ", argv[i]);` -/
def printArgs (fuel : Nat) (m : CharMemory) : List Nat → Option (CharMemory × List Char)
  | [] => some (m, [])
  | a :: argv =>
    match readString fuel m a with
    | none => none
    | some (m, text) =>
      (printArgs fuel m argv).map fun (m, more) => (m, text ++ ' ' :: more)

/-- What `msh_split` leaves: the line, `argv` and what it has printed. -/
structure Split where
  line : CharMemory
  argv : List Nat
  printed : List Char

def splitLoop (argMax length : Nat) : Nat → CharMemory → Nat → Nat → List Nat → Option Split
  | 0, _, _, _, _ => none
  | fuel + 1, m, ptr, position, argv =>
    if position < length then
      match stripBlanks length (length + 1) m ptr position with
      | none => none
      | some (m, ptr, position) =>
        if argMax ≤ argv.length then
          (printArgs (length + 1) m argv).map fun (m, args) =>
            ⟨m, argv, "Too many args ! We only Use:\n".toList ++ args ++ ['\n']⟩
        else if length ≤ position then some ⟨m, argv, []⟩
        else
          let (c, m) := m.read ptr
          if c = '"' then
            match skipString length (length + 1) m (ptr + 1) (position + 1) with
            | none => none
            | some (m, last, position) =>
              if length ≤ position then some ⟨m, argv ++ [ptr + 1], []⟩
              else
                splitLoop argMax length fuel (m.write last nul) (last + 1) (position + 1)
                  (argv ++ [ptr + 1])
          else
            match skipWord length (length + 1) m ptr position with
            | none => none
            | some (m, last, position) =>
              if length ≤ position then some ⟨m, argv ++ [ptr], []⟩
              else splitLoop argMax length fuel m last position (argv ++ [ptr])
    else some ⟨m, argv, []⟩

def mshSplit (argMax : Nat) (m : CharMemory) (cmd length : Nat) : Option Split :=
  splitLoop argMax length (length + 1) m cmd 0 []

/-- A string up to the next double quote that no backslash stands before, and what follows it. -/
def quotedField : Char → List Char → List Char × List Char
  | _, [] => ([], [])
  | before, c :: text =>
    if c = '"' ∧ before ≠ '\\' then ([], text)
    else (c :: (quotedField c text).1, (quotedField c text).2)

theorem length_quotedField (before : Char) (text : List Char) :
    (quotedField before text).2.length ≤ text.length := by
  induction text generalizing before with
  | nil => exact Nat.le_refl _
  | cons c text ih =>
    rw [quotedField]
    split
    · exact Nat.le_succ _
    · exact Nat.le_succ_of_le (ih c)

def fields (text : List Char) : List (List Char) :=
  match _hfirst : text.dropWhile fun c => isBlank c with
  | [] => []
  | c :: rest =>
    if c = '"' then (quotedField c rest).1 :: fields (quotedField c rest).2
    else
      (c :: rest.takeWhile fun c => ¬ isBlank c) :: fields (rest.dropWhile fun c => ¬ isBlank c)
termination_by text.length
decreasing_by
  all_goals
    have hlength : (c :: rest).length ≤ text.length := by
      rw [← _hfirst]
      exact List.length_dropWhile_le ..
    rw [List.length_cons] at hlength
  · exact Nat.lt_of_le_of_lt (length_quotedField c rest) hlength
  · exact Nat.lt_of_le_of_lt (List.length_dropWhile_le ..) hlength

section Fields

variable {c before : Char} {text rest : List Char}

theorem fields_blank (hrest : text.dropWhile (fun c => isBlank c) = []) : fields text = [] := by
  rw [fields]
  split
  · rfl
  · next heq => rw [hrest] at heq; cases heq

theorem fields_cons (hrest : text.dropWhile (fun c => isBlank c) = c :: rest) :
    fields text = if c = '"' then (quotedField c rest).1 :: fields (quotedField c rest).2
      else (c :: rest.takeWhile fun c => ¬ isBlank c) ::
        fields (rest.dropWhile fun c => ¬ isBlank c) := by
  rw [fields]
  split
  · next heq => rw [hrest] at heq; cases heq
  · next heq =>
      rw [hrest] at heq
      cases heq
      rfl

theorem dropWhile_head_not_blank (hrest : text.dropWhile (fun c => isBlank c) = c :: rest) :
    ¬ isBlank c := by
  have hnot := List.head?_dropWhile_not (fun c => decide (isBlank c)) text
  rw [hrest] at hnot
  simpa using hnot

end Fields

section Scan

variable {m m' : CharMemory} {argMax cmd length ptr position fuel : Nat} {rest text : List Char}
  {args : List (Nat × List Char)}

/-- The line in a loop, with what is left of it at `ptr`. -/
structure Scan (m : CharMemory) (cmd length ptr position : Nat) (rest : List Char) : Prop where
  string : m.StringAt ptr rest
  place : ptr = cmd + position
  left : position + rest.length = length
  low : m.low = cmd
  high : m.high = cmd + length + 1
  clean : m.stray = false

structure Pending (m : CharMemory) (cmd ptr : Nat) (rest : List Char)
    (args : List (Nat × List Char)) : Prop where
  chars : ∀ arg ∈ args, m.CharsAt arg.1 arg.2
  inside : ∀ arg ∈ args, cmd ≤ arg.1 ∧ arg.1 + arg.2.length ≤ ptr
  ended : ∀ arg ∈ args, m.byte (arg.1 + arg.2.length) = nul ∨
    arg.1 + arg.2.length = ptr ∧ ∃ c more, rest = c :: more ∧ isBlank c
  ordered : args.Pairwise fun arg other => arg.1 + arg.2.length < other.1

structure Arguments (m : CharMemory) (cmd last : Nat) (args : List (Nat × List Char)) : Prop where
  string : ∀ arg ∈ args, m.StringAt arg.1 arg.2
  inside : ∀ arg ∈ args, cmd ≤ arg.1 ∧ arg.1 + arg.2.length ≤ last
  ordered : args.Pairwise fun arg other => arg.1 + arg.2.length < other.1

theorem Scan.read (hscan : Scan m cmd length ptr position rest) {k : Nat}
    (hk : k ≤ rest.length) : m.read (ptr + k) = (m.byte (ptr + k), m) := by
  have hplace := hscan.place
  have hleft := hscan.left
  exact read_within (by rw [hscan.low]; omega) (by rw [hscan.high]; omega)

theorem Scan.read_zero (hscan : Scan m cmd length ptr position rest) :
    m.read ptr = (m.byte ptr, m) := by
  have hread := hscan.read (Nat.zero_le _)
  rwa [Nat.add_zero] at hread

theorem Scan.advance (text : List Char) (hscan : Scan m cmd length ptr position (text ++ rest)) :
    Scan m cmd length (ptr + text.length) (position + text.length) rest := by
  have hplace := hscan.place
  have hleft := hscan.left
  rw [List.length_append] at hleft
  exact ⟨hscan.string.drop, by omega, by omega, hscan.low, hscan.high, hscan.clean⟩

theorem Scan.cut {c : Char} (hscan : Scan m cmd length ptr position (c :: rest)) :
    Scan (m.write ptr nul) cmd length (ptr + 1) (position + 1) rest := by
  have hplace := hscan.place
  have hleft := hscan.left
  rw [List.length_cons] at hleft
  refine ⟨hscan.string.tail.write (.inl (Nat.lt_succ_self _)), by omega, by omega, hscan.low,
    hscan.high, ?_⟩
  rw [write_stray (by rw [hscan.low]; omega) (by rw [hscan.high]; omega)]
  exact hscan.clean

theorem Pending.cut (hpending : Pending m cmd ptr rest args) :
    Pending (m.write ptr nul) cmd (ptr + 1) text args := by
  refine ⟨?_, ?_, ?_, hpending.ordered⟩
  · intro arg harg
    exact (hpending.chars arg harg).write (.inr (hpending.inside arg harg).2)
  · intro arg harg
    have hinside := hpending.inside arg harg
    exact ⟨hinside.1, hinside.2.trans (Nat.le_succ _)⟩
  · intro arg harg
    left
    by_cases hlast : arg.1 + arg.2.length = ptr
    · rw [hlast]
      exact write_byte_self
    · rw [write_byte_of_ne hlast]
      exact (hpending.ended arg harg).resolve_right fun h => hlast h.1

theorem stripBlanks_spec (hscan : Scan m cmd length ptr position rest)
    (hpending : Pending m cmd ptr rest args) (hfuel : rest.length < fuel) :
    ∃ m' ptr' position', stripBlanks length fuel m ptr position = some (m', ptr', position') ∧
      Scan m' cmd length ptr' position' (rest.dropWhile fun c => isBlank c) ∧
      Pending m' cmd ptr' (rest.dropWhile fun c => isBlank c) args := by
  induction rest generalizing m ptr position fuel with
  | nil =>
    obtain ⟨fuel, rfl⟩ : ∃ more, fuel = more + 1 := ⟨fuel - 1, by omega⟩
    have hbyte : m.byte ptr = nul := hscan.string
    refine ⟨m, ptr, position, ?_, hscan, hpending⟩
    rw [stripBlanks, hscan.read_zero, hbyte]
    exact if_neg fun h => absurd h.1 (by decide)
  | cons c rest ih =>
    have hleft := hscan.left
    rw [List.length_cons] at hleft hfuel
    obtain ⟨fuel, rfl⟩ : ∃ more, fuel = more + 1 := ⟨fuel - 1, by omega⟩
    rw [stripBlanks, hscan.read_zero, hscan.string.head]
    dsimp only
    by_cases hblank : isBlank c
    · have hdrop : (c :: rest).dropWhile (fun c => isBlank c) =
          rest.dropWhile fun c => isBlank c := by simp [hblank]
      rw [if_pos ⟨hblank, by omega⟩, hdrop]
      exact ih hscan.cut hpending.cut (Nat.lt_of_succ_lt_succ hfuel)
    · have hdrop : (c :: rest).dropWhile (fun c => isBlank c) = c :: rest := by simp [hblank]
      rw [if_neg fun h => hblank h.1, hdrop]
      exact ⟨m, ptr, position, rfl, hscan, hpending⟩

theorem Pending.arguments (hpending : Pending m cmd ptr rest args)
    (hfirst : ∀ c more, rest = c :: more → ¬ isBlank c) : Arguments m cmd ptr args := by
  refine ⟨?_, hpending.inside, hpending.ordered⟩
  intro arg harg
  apply (hpending.chars arg harg).stringAt
  apply (hpending.ended arg harg).resolve_right
  rintro ⟨-, c, more, hrest, hblank⟩
  exact hfirst c more hrest hblank

theorem Arguments.before (hargs : Arguments m cmd ptr args)
    (hscan : Scan m cmd length ptr position rest) (hsome : rest ≠ []) :
    ∀ arg ∈ args, arg.1 + arg.2.length < ptr := by
  intro arg harg
  refine lt_of_le_of_ne (hargs.inside arg harg).2 fun hlast => ?_
  have hnul := (hargs.string arg harg).byte_end
  obtain ⟨c, more, rfl⟩ := List.exists_cons_of_ne_nil hsome
  rw [hlast, hscan.string.head] at hnul
  exact hscan.string.ne hnul

theorem skipWord_spec (hscan : Scan m cmd length ptr position rest) (hfuel : rest.length < fuel) :
    skipWord length fuel m ptr position =
      some (m, ptr + (rest.takeWhile fun c => ¬ isBlank c).length,
        position + (rest.takeWhile fun c => ¬ isBlank c).length) := by
  induction rest generalizing ptr position fuel with
  | nil =>
    obtain ⟨fuel, rfl⟩ : ∃ more, fuel = more + 1 := ⟨fuel - 1, by omega⟩
    have hleft : position + 0 = length := hscan.left
    rw [skipWord, hscan.read_zero]
    exact if_neg fun h => absurd h.2 (by omega)
  | cons c rest ih =>
    have hleft := hscan.left
    rw [List.length_cons] at hleft hfuel
    obtain ⟨fuel, rfl⟩ : ∃ more, fuel = more + 1 := ⟨fuel - 1, by omega⟩
    rw [skipWord, hscan.read_zero, hscan.string.head]
    dsimp only
    by_cases hblank : isBlank c
    · rw [if_neg fun h => h.1 hblank]
      simp [hblank]
    · have htake : (c :: rest).takeWhile (fun c => ¬ isBlank c) =
          c :: rest.takeWhile fun c => ¬ isBlank c := by simp [hblank]
      have hnext : Scan m cmd length (ptr + 1) (position + 1) rest :=
        hscan.advance [c]
      rw [if_pos ⟨hblank, by omega⟩, htake, ih hnext (Nat.lt_of_succ_lt_succ hfuel),
        List.length_cons]
      congr 3 <;> omega

theorem skipString_spec {before : Char} (hscan : Scan m cmd length ptr position rest)
    (hbefore : before ≠ '\\') (hfuel : rest.length < fuel) :
    ∃ tail, rest = (quotedField before rest).1 ++ tail ∧
      (tail = [] ∧ (quotedField before rest).2 = [] ∨ tail = '"' :: (quotedField before rest).2) ∧
      skipString length fuel m ptr position =
        some (m, ptr + (quotedField before rest).1.length,
          position + (quotedField before rest).1.length) := by
  induction hlength : rest.length using Nat.strong_induction_on
    generalizing before rest ptr position fuel with
  | _ n ih =>
  obtain ⟨fuel, rfl⟩ : ∃ more, fuel = more + 1 := ⟨fuel - 1, by omega⟩
  have hleft := hscan.left
  cases rest with
  | nil =>
    have hend : position + 0 = length := hleft
    refine ⟨[], rfl, .inl ⟨rfl, rfl⟩, ?_⟩
    rw [skipString, hscan.read_zero]
    exact if_neg fun h => absurd h.2 (by omega)
  | cons c rest =>
    rw [List.length_cons] at hleft hfuel hlength
    rw [skipString, hscan.read_zero, hscan.string.head]
    dsimp only
    have hnext : Scan m cmd length (ptr + 1) (position + 1) rest :=
      hscan.advance [c]
    by_cases hquote : c = '"'
    · have hfield : quotedField before (c :: rest) = ([], rest) := if_pos ⟨hquote, hbefore⟩
      rw [if_neg fun h => h.1 hquote, hfield]
      exact ⟨c :: rest, rfl, .inr (by rw [hquote]), rfl⟩
    have hfield : quotedField before (c :: rest) =
        (c :: (quotedField c rest).1, (quotedField c rest).2) := if_neg fun h => hquote h.1
    rw [if_pos ⟨hquote, by omega⟩, hfield]
    -- without an escape one character is skipped
    have hone {other : Char} (hother : other ≠ '\\')
        (hsame : quotedField c rest = quotedField other rest) :
        ∃ tail, c :: rest = c :: (quotedField c rest).1 ++ tail ∧
          (tail = [] ∧ (quotedField c rest).2 = [] ∨ tail = '"' :: (quotedField c rest).2) ∧
          skipString length fuel m (ptr + 1) (position + 1) =
            some (m, ptr + (c :: (quotedField c rest).1).length,
              position + (c :: (quotedField c rest).1).length) := by
      obtain ⟨tail, hrest, htail, hskip⟩ := ih rest.length (by omega) hnext hother
        (by omega : rest.length < fuel) rfl
      rw [hsame]
      refine ⟨tail, ?_, htail, ?_⟩
      · rw [List.cons_append, ← hrest]
      · rw [hskip, List.length_cons]
        congr 3 <;> omega
    by_cases hescape : c = '\\'
    case neg =>
      rw [if_neg hescape]
      exact hone hescape rfl
    subst hescape
    rw [if_pos rfl, hscan.read (k := 1) (by simp)]
    dsimp only
    cases rest with
    | nil =>
      have hbyte : m.byte (ptr + 1) = nul := hnext.string
      rw [hbyte, if_neg (by decide)]
      exact hone hbefore rfl
    | cons d more =>
      rw [hnext.string.head]
      by_cases hd : d = '"'
      · -- an escaped quote is skipped with its backslash
        subst hd
        have hfield' : quotedField '\\' ('"' :: more) =
            ('"' :: (quotedField '"' more).1, (quotedField '"' more).2) :=
          if_neg fun h => h.2 rfl
        have hmore : Scan m cmd length (ptr + 2) (position + 2) more :=
          hscan.advance ['\\', '"']
        rw [List.length_cons] at hlength hfuel
        obtain ⟨tail, hrest, htail, hskip⟩ := ih more.length (by omega) hmore
          (by decide : '"' ≠ '\\') (by omega : more.length < fuel) rfl
        rw [if_pos rfl, hfield']
        refine ⟨tail, ?_, htail, ?_⟩
        · rw [List.cons_append, List.cons_append, ← hrest]
        · rw [hskip, List.length_cons, List.length_cons]
          congr 3 <;> omega
      · rw [if_neg hd]
        exact hone hbefore ((if_neg fun h => hd h.1).trans (if_neg fun h => hd h.1).symm)

theorem readString_spec (hstring : m.StringAt ptr text) (hlow : m.low ≤ ptr)
    (hhigh : ptr + text.length < m.high) (hfuel : text.length < fuel) :
    readString fuel m ptr = some (m, text) := by
  induction text generalizing ptr fuel with
  | nil =>
    obtain ⟨fuel, rfl⟩ : ∃ more, fuel = more + 1 := ⟨fuel - 1, by omega⟩
    have hbyte : m.byte ptr = nul := hstring
    rw [readString, read_within hlow hhigh, hbyte]
    rfl
  | cons c text ih =>
    rw [List.length_cons] at hhigh hfuel
    obtain ⟨fuel, rfl⟩ : ∃ more, fuel = more + 1 := ⟨fuel - 1, by omega⟩
    rw [readString, read_within hlow (by omega), hstring.head]
    dsimp only
    rw [if_neg hstring.ne, ih hstring.tail (by omega) (by omega) (Nat.lt_of_succ_lt_succ hfuel)]
    rfl

theorem printArgs_spec (hargs : Arguments m cmd (cmd + length) args) (hlow : m.low = cmd)
    (hhigh : m.high = cmd + length + 1) :
    ∃ text, printArgs (length + 1) m (args.map Prod.fst) = some (m, text) := by
  induction args with
  | nil => exact ⟨[], rfl⟩
  | cons arg args ih =>
    have hrest : Arguments m cmd (cmd + length) args :=
      ⟨fun other hmem => hargs.string other (List.mem_cons_of_mem _ hmem),
        fun other hmem => hargs.inside other (List.mem_cons_of_mem _ hmem),
        (List.pairwise_cons.mp hargs.ordered).2⟩
    obtain ⟨text, hprint⟩ := ih hrest
    have hinside := hargs.inside arg List.mem_cons_self
    have hread := readString_spec (hargs.string arg List.mem_cons_self)
      (by omega) (by omega) (show arg.2.length < length + 1 by omega)
    refine ⟨arg.2 ++ ' ' :: text, ?_⟩
    simp only [List.map_cons, printArgs, hread, hprint]
    rfl

section Push

variable {c : Char} {start last : Nat} {field : List Char} (hargs : Arguments m cmd ptr args)
  (hbefore : ∀ arg ∈ args, arg.1 + arg.2.length < ptr) (hfrom : ptr ≤ start) (hlow : cmd ≤ ptr)
include hargs hbefore hfrom hlow

theorem Arguments.push (hlast : start + field.length ≤ last) :
    (∀ arg ∈ args ++ [(start, field)], cmd ≤ arg.1 ∧ arg.1 + arg.2.length ≤ last) ∧
      (args ++ [(start, field)]).Pairwise fun arg other => arg.1 + arg.2.length < other.1 := by
  constructor
  · rw [List.forall_mem_append, List.forall_mem_singleton]
    refine ⟨fun arg hold => ?_, hlow.trans hfrom, hlast⟩
    have hinside := hargs.inside arg hold
    omega
  · rw [List.pairwise_append]
    refine ⟨hargs.ordered, List.pairwise_singleton _ _, fun arg hold new hnew => ?_⟩
    rw [List.mem_singleton.mp hnew]
    exact Nat.lt_of_lt_of_le (hbefore arg hold) hfrom

theorem Arguments.ends (hstring : m.StringAt start field) (hlast : start + field.length ≤ last) :
    Arguments m cmd last (args ++ [(start, field)]) := by
  obtain ⟨hinside, hordered⟩ := hargs.push hbefore hfrom hlow hlast
  refine ⟨?_, hinside, hordered⟩
  rw [List.forall_mem_append, List.forall_mem_singleton]
  exact ⟨hargs.string, hstring⟩

/-- The quote behind a string becomes its end. -/
theorem Arguments.quoted (hchars : m.CharsAt start field) :
    Pending (m.write (start + field.length) nul) cmd (start + field.length + 1) text
      (args ++ [(start, field)]) := by
  obtain ⟨hinside, hordered⟩ := hargs.push hbefore hfrom hlow (Nat.le_succ (start + field.length))
  refine ⟨?_, hinside, ?_, hordered⟩
  · rw [List.forall_mem_append, List.forall_mem_singleton]
    refine ⟨fun arg hold => ?_, hchars.write (.inr (Nat.le_refl _))⟩
    have hless := hbefore arg hold
    exact (hargs.string arg hold).chars.write (.inr (by omega))
  · rw [List.forall_mem_append, List.forall_mem_singleton]
    refine ⟨fun arg hold => .inl ?_, .inl write_byte_self⟩
    have hless := hbefore arg hold
    rw [write_byte_of_ne (by omega)]
    exact (hargs.string arg hold).byte_end

/-- The blank behind a word is yet to be cut off. -/
theorem Arguments.word (hchars : m.CharsAt start field) (hblank : isBlank c) :
    Pending m cmd (start + field.length) (c :: text) (args ++ [(start, field)]) := by
  obtain ⟨hinside, hordered⟩ := hargs.push hbefore hfrom hlow (Nat.le_refl (start + field.length))
  refine ⟨?_, hinside, ?_, hordered⟩
  · rw [List.forall_mem_append, List.forall_mem_singleton]
    exact ⟨fun arg hold => (hargs.string arg hold).chars, hchars⟩
  · rw [List.forall_mem_append, List.forall_mem_singleton]
    exact ⟨fun arg hold => .inl (hargs.string arg hold).byte_end, .inr ⟨rfl, c, text, rfl, hblank⟩⟩

end Push

theorem takeWhile_append_tail (rest : List Char) :
    (rest.takeWhile fun c => ¬ isBlank c) ++ rest.dropWhile (fun c => ¬ isBlank c) = rest :=
  List.takeWhile_append_dropWhile

theorem dropWhile_word_blank {c : Char} (rest text : List Char)
    (hrest : rest.dropWhile (fun c => ¬ isBlank c) = c :: text) :
    isBlank c := by
  have hnot := List.head?_dropWhile_not (fun c => decide (¬ isBlank c)) rest
  rw [hrest] at hnot
  simpa using hnot

theorem splitLoop_spec (hscan : Scan m cmd length ptr position rest)
    (hpending : Pending m cmd ptr rest args) (hcount : args.length ≤ argMax)
    (hfuel : rest.length < fuel) :
    ∃ split args', splitLoop argMax length fuel m ptr position (args.map Prod.fst) = some split ∧
      split.argv = args'.map Prod.fst ∧
      args'.map Prod.snd = (args.map Prod.snd ++ fields rest).take argMax ∧
      split.line.stray = false ∧ Arguments split.line cmd (cmd + length) args' := by
  induction fuel generalizing m ptr position rest args with
  | zero => exact absurd hfuel (Nat.not_lt_zero _)
  | succ fuel ih =>
    have hleft := hscan.left
    rw [splitLoop]
    by_cases hsome : rest = []
    · subst hsome
      rw [List.length_nil] at hleft
      have hargs := hpending.arguments nofun
      have hplace := hscan.place
      rw [if_neg (by omega), fields_blank rfl, List.append_nil,
        List.take_of_length_le (by rwa [List.length_map])]
      refine ⟨_, args, rfl, rfl, rfl, hscan.clean, hargs.string, ?_, hargs.ordered⟩
      intro arg harg
      have hinside := hargs.inside arg harg
      omega
    have hpos : 0 < rest.length := List.length_pos_of_ne_nil hsome
    rw [if_pos (by omega)]
    obtain ⟨m, ptr, position, hstrip, hscan, hpending⟩ :=
      stripBlanks_spec hscan hpending (show rest.length < length + 1 by omega)
    have hshort : (rest.dropWhile fun c => isBlank c).length ≤ rest.length :=
      List.length_dropWhile_le ..
    have hargs := hpending.arguments fun c more heq => dropWhile_head_not_blank heq
    have hplace := hscan.place
    have hleft := hscan.left
    have hwide : Arguments m cmd (cmd + length) args := by
      refine ⟨hargs.string, fun arg harg => ?_, hargs.ordered⟩
      have hinside := hargs.inside arg harg
      omega
    rw [hstrip]
    dsimp only
    rw [List.length_map]
    by_cases hfull : argMax ≤ args.length
    · -- the rest of the line is left out
      obtain ⟨text, hprint⟩ := printArgs_spec hwide hscan.low hscan.high
      have hmax : argMax = (args.map Prod.snd).length := by
        rw [List.length_map]
        omega
      rw [if_pos hfull, hprint, hmax, List.take_left]
      exact ⟨_, args, rfl, rfl, rfl, hscan.clean, hwide⟩
    rw [if_neg hfull]
    cases hrest : rest.dropWhile fun c => isBlank c with
    | nil =>
      rw [hrest, List.length_nil] at hleft
      rw [if_pos (by omega), fields_blank hrest, List.append_nil,
        List.take_of_length_le (by rwa [List.length_map])]
      exact ⟨_, args, rfl, rfl, rfl, hscan.clean, hwide⟩
    | cons c more =>
      rw [hrest] at hscan hpending hshort hleft
      rw [List.length_cons] at hleft hshort
      have hbefore := hargs.before hscan (List.cons_ne_nil _ _)
      have hcount' (field : Nat × List Char) : (args ++ [field]).length ≤ argMax := by
        rw [List.length_append, List.length_singleton]
        omega
      have hmap (field : Nat × List Char) : (args ++ [field]).map Prod.fst =
          args.map Prod.fst ++ [field.1] := List.map_append
      have htake (field : Nat × List Char) : (args ++ [field]).map Prod.snd =
          (args.map Prod.snd ++ [field.2]).take argMax := by
        have hlength := hcount' field
        rw [List.take_of_length_le]
        · simp
        · simpa using hlength
      rw [if_neg (by omega), hscan.read_zero, hscan.string.head]
      dsimp only
      by_cases hquote : c = '"'
      · -- a string in quotes
        rw [if_pos hquote]
        have hinner : Scan m cmd length (ptr + 1) (position + 1) more :=
          hscan.advance [c]
        obtain ⟨tail, hmore, htail, hskip⟩ := skipString_spec hinner
          (show c ≠ '\\' by rw [hquote]; decide) (show more.length < length + 1 by omega)
        have hfields : fields rest = (quotedField c more).1 :: fields (quotedField c more).2 := by
          rw [fields_cons hrest, if_pos hquote]
        generalize hfield : (quotedField c more).1 = field at hmore hskip hfields
        generalize (quotedField c more).2 = after at htail hfields
        subst hmore
        rw [List.length_append] at hleft hshort
        rw [hskip, hfields]
        dsimp only
        rcases htail with ⟨rfl, rfl⟩ | rfl
        · -- it extends to the end
          rw [List.length_nil] at hleft
          rw [List.append_nil] at hinner
          rw [if_pos (by omega), fields_blank rfl]
          have hends : Arguments m cmd (cmd + length) (args ++ [(ptr + 1, field)]) :=
            hargs.ends hbefore (Nat.le_succ _) (by omega) hinner.string (by omega)
          exact ⟨_, _, rfl, (hmap (ptr + 1, field)).symm, htake _, hscan.clean, hends⟩
        · rw [List.length_cons] at hleft hshort
          rw [if_neg (by omega)]
          have hpending' : Pending (m.write (ptr + 1 + field.length) nul) cmd
              (ptr + 1 + field.length + 1) after (args ++ [(ptr + 1, field)]) :=
            hargs.quoted hbefore (Nat.le_succ _) (by omega) hinner.string.charsAt
          obtain ⟨split, args', hloop, hargv, hall, hclean, hdone⟩ :=
            ih (hinner.advance _).cut hpending' (hcount' _) (by omega)
          rw [hmap] at hloop
          refine ⟨split, args', hloop, hargv, ?_, hclean, hdone⟩
          rw [hall]
          simp
      · -- a word
        rw [if_neg hquote]
        have hblank := dropWhile_head_not_blank hrest
        have hskip := skipWord_spec hscan (show (c :: more).length < length + 1 by
          rw [List.length_cons]
          omega)
        have hword : (c :: more).takeWhile (fun c => ¬ isBlank c) =
            c :: more.takeWhile fun c => ¬ isBlank c := by simp [hblank]
        have hfields : fields rest = (c :: more.takeWhile fun c => ¬ isBlank c) ::
            fields (more.dropWhile fun c => ¬ isBlank c) := by
          rw [fields_cons hrest, if_neg hquote]
        have hsplit := takeWhile_append_tail more
        have hblank' := fun {d : Char} {others : List Char} =>
          dropWhile_word_blank (c := d) more others
        rw [hword] at hskip
        generalize more.takeWhile (fun c => ¬ isBlank c) = word at hskip hfields hsplit
        generalize more.dropWhile (fun c => ¬ isBlank c) = tail at hfields hsplit hblank'
        subst hsplit
        rw [List.length_append] at hleft hshort
        rw [hskip, hfields]
        dsimp only
        rw [← List.cons_append] at hscan
        cases tail with
        | nil =>
          rw [List.length_nil] at hleft
          rw [List.append_nil] at hscan
          rw [if_pos (by rw [List.length_cons]; omega), fields_blank rfl]
          have hends : Arguments m cmd (cmd + length) (args ++ [(ptr, c :: word)]) :=
            hargs.ends hbefore (Nat.le_refl _) (by omega) hscan.string (by
              rw [List.length_cons]
              omega)
          exact ⟨_, _, rfl, (hmap (ptr, c :: word)).symm, htake _, hscan.clean, hends⟩
        | cons d others =>
          rw [List.length_cons] at hleft hshort
          rw [if_neg (by rw [List.length_cons]; omega)]
          have hpending' : Pending m cmd (ptr + (c :: word).length) (d :: others)
              (args ++ [(ptr, c :: word)]) :=
            hargs.word hbefore (Nat.le_refl _) (by omega) hscan.string.charsAt (hblank' rfl)
          obtain ⟨split, args', hloop, hargv, hall, hclean, hdone⟩ :=
            ih (hscan.advance _) hpending' (hcount' _) (by rw [List.length_cons]; omega)
          rw [hmap] at hloop
          refine ⟨split, args', hloop, hargv, ?_, hclean, hdone⟩
          rw [hall]
          simp

end Scan

/-- A command line is cut into its first fields, each of them a string in the line. -/
theorem mshSplit_fields (argMax : Nat) (byte : Nat → Char) (cmd : Nat) (text : List Char)
    (hline : StringAt ⟨byte, cmd, cmd + text.length + 1, false⟩ cmd text) :
    ∃ split args,
      mshSplit argMax ⟨byte, cmd, cmd + text.length + 1, false⟩ cmd text.length = some split ∧
        split.argv.length ≤ argMax ∧ split.argv = args.map Prod.fst ∧
        args.map Prod.snd = (fields text).take argMax ∧
        Arguments split.line cmd (cmd + text.length) args ∧ split.line.stray = false := by
  have hscan : Scan ⟨byte, cmd, cmd + text.length + 1, false⟩ cmd text.length cmd 0 text :=
    ⟨hline, rfl, Nat.zero_add _, rfl, rfl, rfl⟩
  have hpending : Pending ⟨byte, cmd, cmd + text.length + 1, false⟩ cmd cmd text [] :=
    ⟨by simp, by simp, by simp, .nil⟩
  obtain ⟨split, args, hloop, hargv, hall, hclean, hargs⟩ :=
    splitLoop_spec hscan hpending (Nat.zero_le argMax) (Nat.lt_succ_self _)
  rw [List.map_nil, List.nil_append] at hall
  have hcount : args.length ≤ argMax := by
    have hlength := congrArg List.length hall
    rw [List.length_map, List.length_take] at hlength
    omega
  refine ⟨split, args, hloop, ?_, hargv, hall, hargs, hclean⟩
  rwa [hargv, List.length_map]

theorem mshSplit_fields_quoted : ∃ (split : Split) (args : List (Nat × List Char)),
    mshSplit 8 ⟨store (fun _ => 'x') 20 ['a', ' ', '"', 'b', ' ', 'c', '"'], 20, 28,
        false⟩ 20 7 = some split ∧
      split.argv = args.map Prod.fst ∧ args.map Prod.snd = [['a'], ['b', ' ', 'c']] := by
  obtain ⟨split, args, hsplit, -, hargv, hall, -⟩ := mshSplit_fields 8
    (store (fun _ => 'x') 20 ['a', ' ', '"', 'b', ' ', 'c', '"']) 20
    ['a', ' ', '"', 'b', ' ', 'c', '"'] (stringAt_store (by decide))
  refine ⟨split, args, hsplit, hargv, ?_⟩
  have hfirst : fields ['a', ' ', '"', 'b', ' ', 'c', '"'] =
      ['a'] :: fields [' ', '"', 'b', ' ', 'c', '"'] :=
    fields_cons (c := 'a') (by decide : _ = 'a' :: [' ', '"', 'b', ' ', 'c', '"'])
  have hsecond : fields [' ', '"', 'b', ' ', 'c', '"'] = ['b', ' ', 'c'] :: fields [] :=
    fields_cons (c := '"') (by decide : _ = '"' :: ['b', ' ', 'c', '"'])
  rw [hall, hfirst, hsecond, fields_blank rfl]
  decide

end RtThread.Finsh
