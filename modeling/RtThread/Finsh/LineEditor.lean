import RtThread.Finsh.Shell

namespace RtThread.Finsh

open RtThread.Lib

/-- `executed` is what the last key has had executed. -/
structure Editor where
  stat : InputStat
  text : Bytes
  cursor : Nat
  history : List Bytes
  current : Nat
  executed : Option Bytes
  deriving DecidableEq

def completed (typed : Bytes) (names : List Bytes) : Bytes := (commonStart typed names).getD typed

def completedPath (env : ShellEnv) (path : Bytes) : Bytes :=
  let (parent, index) := splitLast 47 path
  match env.readdir parent with
  | none => path
  | some names =>
    if index = [] then path else parent ++ completed index (names.map Subtype.val)

def completedWord (env : ShellEnv) (text : Bytes) : Bytes :=
  if env.usingDfs then
    match splitLast 32 (text.drop 1) with
    | ([], _) => if env.usingModule then completedPath env text else text
    | (before, path) => text.take 1 ++ before ++ completedPath env path
  else text

def complete (env : ShellEnv) (text : Bytes) : Bytes :=
  if text = [] then []
  else if env.msh then completed (completedWord env text) env.commands
  else completed text env.symbols

namespace Editor

def insert (ch : UInt8) (e : Editor) : Editor :=
  let text := e.text.take e.cursor ++ ch :: e.text.drop e.cursor
  -- a line that is too long is discarded
  if finshCmdSize ≤ text.length then { e with text := [], cursor := 0 }
  else { e with text := text, cursor := e.cursor + 1 }

def backspace (e : Editor) : Editor :=
  if e.cursor = 0 then e
  else
    { e with
      text := e.text.take (e.cursor - 1) ++ e.text.drop e.cursor
      cursor := e.cursor - 1 }

def showHistory (i : Nat) (e : Editor) : Editor :=
  match e.history[i]? with
  | none => e
  | some text => { e with text := text, cursor := text.length, current := i }

def up (e : Editor) : Editor := if 0 < e.current then e.showHistory (e.current - 1) else e

def down (e : Editor) : Editor :=
  if e.current + 1 < e.history.length then e.showHistory (e.current + 1)
  else if e.history ≠ [] then e.showHistory (e.history.length - 1)
  else e

def pushed (e : Editor) : List Bytes :=
  if e.text = [] ∨ e.history.getLast? = some e.text then e.history
  else if finshHistoryLines ≤ e.history.length then e.history.drop 1 ++ [e.text]
  else e.history ++ [e.text]

def enter (msh : Bool) (e : Editor) : Editor :=
  { e with
    text := []
    cursor := 0
    history := e.pushed
    current := e.pushed.length
    executed :=
      if msh then some e.text
      else if e.text = [] then none
      else some (e.text ++ [59]) }

def press (env : ShellEnv) (key : Key) (e : Editor) : Editor :=
  match key with
  | .ignored => e
  | .up => e.up
  | .down => e.down
  | .left => { e with cursor := e.cursor - 1 }
  | .right => { e with cursor := min (e.cursor + 1) e.text.length }
  | .tab => { e with text := complete env e.text, cursor := (complete env e.text).length }
  | .backspace => e.backspace
  | .enter => e.enter env.msh
  | .char ch => e.insert ch

def getchar (env : ShellEnv) (ch : UInt8) (e : Editor) : Editor :=
  let (stat, key) := readKey e.stat ch
  press env key { e with stat := stat, executed := none }

def empty : Editor where
  stat := .waitNormal
  text := []
  cursor := 0
  history := []
  current := 0
  executed := none

end Editor

structure Session where
  shell : Shell
  editor : Editor

structure Input where
  env : ShellEnv
  ch : UInt8

namespace Session

def exec (s : Session) (input : Input) : Option Session :=
  (s.shell.getchar input.env input.ch).map fun shell =>
    ⟨shell, s.editor.getchar input.env input.ch⟩

def Initial (s : Session) : Prop := s.shell.Initial ∧ s.editor = .empty

end Session

def sessionMachine : Machine Session Input where
  init := Session.Initial
  exec := Session.exec

namespace Shell

structure Good (s : Shell) : Prop where
  cursor : s.lineCurpos ≤ s.linePosition
  room : s.linePosition < finshCmdSize
  ends : s.line[s.linePosition]? = some 0
  before : ∀ i < s.linePosition, s.line[i]? ≠ some 0

def text (s : Shell) : Bytes := (cString s.line).getD []

def Fits (env : ShellEnv) (s : Shell) : Key → Prop
  | .char _ => s.linePosition + 1 < finshCmdSize
  | .enter => env.msh = false → s.linePosition + 1 < finshCmdSize
  | .tab => (complete env s.text).length < finshCmdSize
  | _ => True

end Shell

def Session.Fits (s : Session) (input : Input) : Prop :=
  s.shell.Fits input.env (readKey s.shell.stat input.ch).2

/-- A character leaves the shell in order, and what is executed is what the edits make. -/
def Session.Obeys (s : Session) (input : Input) : Prop :=
  ∃ s', s.exec input = some s' ∧ s'.shell.Good ∧
    s'.shell.executed = s'.editor.executed.map some

structure Shows (s : Shell) (e : Editor) : Prop where
  stat : s.stat = e.stat
  line : s.line = padded e.text
  short : e.text.length < finshCmdSize
  nonzero : 0 ∉ e.text
  linePosition : s.linePosition = e.text.length
  lineCurpos : s.lineCurpos = e.cursor
  cursor : e.cursor ≤ e.text.length
  cmdHistory : s.cmdHistory = e.history.map padded ++
    List.replicate (finshHistoryLines - e.history.length) (List.replicate finshCmdSize 0)
  historyCount : s.historyCount = e.history.length
  few : e.history.length ≤ finshHistoryLines
  entries : ∀ text ∈ e.history, text.length < finshCmdSize ∧ 0 ∉ text
  currentHistory : s.currentHistory = e.current
  current : e.current ≤ e.history.length
  executed : s.executed = e.executed.map some

end RtThread.Finsh
