import Mathlib.Data.List.Basic
import RtThread.Lib.Transition

namespace RtThread.Finsh

/-! The line editor of `finsh_thread_entry` in `shell.c`, with history and completion.  `char` is
unsigned; what is printed is left out. -/

abbrev finshCmdSize : Nat := 80

abbrev finshHistoryLines : Nat := 5

abbrev Bytes := List UInt8

def cString (array : Bytes) : Option Bytes :=
  if 0 ∈ array then some (array.takeWhile (· ≠ 0)) else none

def copyTo (array : Bytes) (offset : Nat) (bytes : Bytes) : Option Bytes :=
  if offset + bytes.length ≤ array.length then
    some (array.take offset ++ bytes ++ array.drop (offset + bytes.length))
  else none

/-- `memset` of a line followed by `memcpy` of a text to its start. -/
def padded (text : Bytes) : Bytes := text ++ List.replicate (finshCmdSize - text.length) 0

abbrev Name := { name : Bytes // 0 ∉ name }

/-- The mode of the shell, its symbols, and the names in the directory that the front part of a
path leads to, if it can be opened. -/
structure ShellEnv where
  msh : Bool
  syscallTable : List Name
  syscallList : List Name
  sysvarTable : List Name
  sysvarList : List Name
  usingDfs : Bool
  usingModule : Bool
  readdir : Bytes → Option (List Name)

def strCommon : Bytes → Bytes → Nat
  | a :: str1, b :: str2 => if a = b then strCommon str1 str2 + 1 else 0
  | _, _ => 0

/-- What the loops over names do with the next one; `found` are `name_ptr` and `min_length`. -/
def countMatch (typed : Bytes) (found : Option (Bytes × Nat)) (name : Bytes) :
    Option (Bytes × Nat) :=
  if typed.isPrefixOf name then
    let (namePtr, minLength) := found.getD (name, name.length)
    some (namePtr, min minLength (strCommon namePtr name))
  else found

def commonStart (typed : Bytes) (names : List Bytes) : Option Bytes :=
  (names.foldl (countMatch typed) none).map fun (namePtr, minLength) => namePtr.take minLength

/-- The names that `list_prefix` goes through. -/
def ShellEnv.symbols (env : ShellEnv) : List Bytes :=
  (env.syscallTable.map Subtype.val).filter (fun name => ¬ [95, 95].isPrefixOf name) ++
    env.syscallList.map Subtype.val ++ env.sysvarTable.map Subtype.val ++
    env.sysvarList.map Subtype.val

/-- The commands that `msh_auto_complete` goes through, behind `__cmd_`. -/
def ShellEnv.commands (env : ShellEnv) : List Bytes :=
  ((env.syscallTable.map Subtype.val).filter ([95, 95, 99, 109, 100, 95].isPrefixOf ·)).map
    (·.drop 6)

def listPrefix (env : ShellEnv) (line : Bytes) : Option Bytes := do
  let typed ← cString line
  if typed = [] then return line
  else
    match commonStart typed env.symbols with
    | none => return line
    | some common => copyTo line 0 common

def splitLast (c : UInt8) (text : Bytes) : Bytes × Bytes :=
  ((text.reverse.dropWhile (· ≠ c)).reverse, (text.reverse.takeWhile (· ≠ c)).reverse)

def mshAutoCompletePath (env : ShellEnv) (offset : Nat) (path line : Bytes) : Option Bytes :=
  let (parent, index) := splitLast 47 path
  match env.readdir parent with
  | none => some line
  | some names =>
    if index = [] then some line
    else
      match commonStart index (names.map Subtype.val) with
      | none => some line
      | some common => copyTo line (offset + parent.length) (common ++ [0])

def completePath (env : ShellEnv) (typed line : Bytes) : Option Bytes :=
  if env.usingDfs then
    -- the first character is not looked at
    match splitLast 32 (typed.drop 1) with
    | ([], _) => if env.usingModule then mshAutoCompletePath env 0 typed line else some line
    | (before, path) => mshAutoCompletePath env (before.length + 1) path line
  else some line

def mshAutoComplete (env : ShellEnv) (line : Bytes) : Option Bytes := do
  let typed ← cString line
  if typed = [] then return line
  else
    let line ← completePath env typed line
    let typed ← cString line
    match commonStart typed env.commands with
    | none => return line
    | some common => copyTo line 0 common

def shellAutoComplete (env : ShellEnv) (line : Bytes) : Option Bytes :=
  if env.msh then mshAutoComplete env line else listPrefix env line

inductive InputStat
  | waitNormal
  | waitSpecKey
  | waitFuncKey
  deriving DecidableEq

inductive Key
  | ignored
  | up
  | down
  | left
  | right
  | tab
  | backspace
  | enter
  | char (ch : UInt8)
  deriving DecidableEq

def plainKey (ch : UInt8) : Key :=
  if ch = 0 ∨ ch = 0xff then .ignored
  else if ch = 9 then .tab
  else if ch = 0x7f ∨ ch = 8 then .backspace
  else if ch = 13 ∨ ch = 10 then .enter
  else .char ch

def readKey (stat : InputStat) (ch : UInt8) : InputStat × Key :=
  if ch = 0x1b then (.waitSpecKey, .ignored)
  else
    match stat with
    | .waitNormal => (.waitNormal, plainKey ch)
    | .waitSpecKey => if ch = 0x5b then (.waitFuncKey, .ignored) else (.waitNormal, plainKey ch)
    | .waitFuncKey =>
      (.waitNormal,
        if ch = 0x41 then .up
        else if ch = 0x42 then .down
        else if ch = 0x44 then .left
        else if ch = 0x43 then .right
        else plainKey ch)

/-- `struct finsh_shell`.

History: `executed` is the string that the last character had executed, which is `none` inside if
it does not end in `line`. -/
structure Shell where
  stat : InputStat
  line : Bytes
  linePosition : Nat
  lineCurpos : Nat
  cmdHistory : List Bytes
  historyCount : Nat
  currentHistory : Nat
  executed : Option (Option Bytes)
  deriving DecidableEq

namespace Shell

def toEnd (s : Shell) : Option Shell :=
  (cString s.line).map fun text =>
    { s with linePosition := text.length, lineCurpos := text.length }

def showHistory (i : Nat) (s : Shell) : Option Shell :=
  match s.cmdHistory[i]? with
  | none => none
  | some line => toEnd { s with line := line, currentHistory := i }

def upKey (s : Shell) : Option Shell :=
  if 0 < s.currentHistory then s.showHistory (s.currentHistory - 1) else some s

def downKey (s : Shell) : Option Shell :=
  if s.currentHistory + 1 < s.historyCount then s.showHistory (s.currentHistory + 1)
  else if s.historyCount ≠ 0 then s.showHistory (s.historyCount - 1)
  else some s

def leftKey (s : Shell) : Shell :=
  if s.lineCurpos ≠ 0 then { s with lineCurpos := s.lineCurpos - 1 } else s

def rightKey (s : Shell) : Shell :=
  if s.lineCurpos < s.linePosition then { s with lineCurpos := s.lineCurpos + 1 } else s

def tabKey (env : ShellEnv) (s : Shell) : Option Shell := do
  let line ← shellAutoComplete env s.line
  toEnd { s with line := line }

def backspaceKey (s : Shell) : Option Shell :=
  if s.lineCurpos = 0 then some s
  else do
    let s := { s with linePosition := s.linePosition - 1, lineCurpos := s.lineCurpos - 1 }
    if s.lineCurpos < s.linePosition then
      let line ← copyTo s.line s.lineCurpos
        ((s.line.drop (s.lineCurpos + 1)).take (s.linePosition - s.lineCurpos))
      let line ← copyTo line s.linePosition [0]
      return { s with line := line }
    else
      let line ← copyTo s.line s.linePosition [0]
      return { s with line := line }

def shellPushHistory (s : Shell) : Shell :=
  let s :=
    if s.linePosition ≠ 0 then
      let command := padded (s.line.take s.linePosition)
      if finshHistoryLines ≤ s.historyCount then
        if s.cmdHistory[finshHistoryLines - 1]? ≠ some s.line then
          { s with
            cmdHistory := s.cmdHistory.drop 1 ++ [command]
            historyCount := finshHistoryLines }
        else s
      else if s.historyCount = 0 ∨ s.cmdHistory[s.historyCount - 1]? ≠ some s.line then
        { s with
          cmdHistory := s.cmdHistory.set s.historyCount command
          historyCount := s.historyCount + 1 }
      else s
    else s
  { s with currentHistory := s.historyCount }

def enterKey (env : ShellEnv) (s : Shell) : Option Shell := do
  let s := s.shellPushHistory
  let (line, executed) ←
    if env.msh then some (s.line, some (cString s.line))
    else
      (copyTo s.line s.linePosition [59]).map fun line =>
        (line, if s.linePosition ≠ 0 then some (cString line) else none)
  return { s with
    line := List.replicate line.length 0
    linePosition := 0
    lineCurpos := 0
    executed := executed }

def charLine (ch : UInt8) (s : Shell) : Option Bytes :=
  if s.lineCurpos < s.linePosition then do
    let line ← copyTo s.line (s.lineCurpos + 1)
      ((s.line.drop s.lineCurpos).take (s.linePosition - s.lineCurpos))
    copyTo line s.lineCurpos [ch]
  else copyTo s.line s.linePosition [ch]

def charKey (ch : UInt8) (s : Shell) : Option Shell :=
  let s := if finshCmdSize ≤ s.linePosition then { s with linePosition := 0 } else s
  (s.charLine ch).map fun line =>
    if finshCmdSize ≤ s.linePosition + 1 then
      { s with line := line, linePosition := 0, lineCurpos := 0 }
    else
      { s with line := line, linePosition := s.linePosition + 1, lineCurpos := s.lineCurpos + 1 }

def press (env : ShellEnv) (key : Key) (s : Shell) : Option Shell :=
  match key with
  | .ignored => some s
  | .up => s.upKey
  | .down => s.downKey
  | .left => some s.leftKey
  | .right => some s.rightKey
  | .tab => s.tabKey env
  | .backspace => s.backspaceKey
  | .enter => s.enterKey env
  | .char ch => s.charKey ch

def getchar (env : ShellEnv) (ch : UInt8) (s : Shell) : Option Shell :=
  let (stat, key) := readKey s.stat ch
  press env key { s with stat := stat, executed := none }

structure Initial (s : Shell) : Prop where
  stat : s.stat = .waitNormal
  line : s.line = List.replicate finshCmdSize 0
  linePosition : s.linePosition = 0
  lineCurpos : s.lineCurpos = 0
  cmdHistory : s.cmdHistory = List.replicate finshHistoryLines (List.replicate finshCmdSize 0)
  historyCount : s.historyCount = 0
  currentHistory : s.currentHistory = 0
  executed : s.executed = none

end Shell

end RtThread.Finsh
