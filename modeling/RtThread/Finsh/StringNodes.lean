import RtThread.Finsh.HeapClients

namespace RtThread.Finsh

open RtThread.Lib

/-! The strings of `finsh_node.c` in the heap, over any number of command lines.  Any order
of the steps of a line is a run here. -/

abbrev finshNodeMax : Nat := 16

/-- An entry of `global_node_table` that is in use. -/
inductive FinshNode
  | valueString (ptr : Nat)
  | other
  deriving DecidableEq

def FinshNode.rooted (globalVariable : Fin finshVariableMax → FinshVar) : FinshNode → Bool
  | .valueString ptr =>
    ∃ i, (globalVariable i).type ≠ .unknown ∧ (globalVariable i).value = ptr
  | .other => true

structure Interpreter extends FinshHeap where
  globalVariable : Fin finshVariableMax → FinshVar
  globalNodeTable : List FinshNode

inductive LineOp
  | newString (text : List UInt8)
  | newOther
  | setVariable (i : Fin finshVariableMax) (value : FinshVar)
  | flush
  deriving DecidableEq

namespace Interpreter

def finshNodeNewString (text : List UInt8) (s : Interpreter) : Option Interpreter :=
  if finshNodeMax ≤ s.globalNodeTable.length then some s
  else
    match finshHeapAllocate s.globalVariable (text.length + 1) s.toFinshHeap with
    | some (ptr, _, heap) =>
      -- the string would be copied to `NULL`
      if ptr = 0 then none
      else
        some
          { heap with
            memory := heap.memory.writeBytes ptr (text ++ [0])
            globalVariable := s.globalVariable
            globalNodeTable := s.globalNodeTable ++ [.valueString ptr] }
    | none => none

def finshNodeNewOther (s : Interpreter) : Interpreter :=
  if finshNodeMax ≤ s.globalNodeTable.length then s
  else { s with globalNodeTable := s.globalNodeTable ++ [.other] }

def exec (s : Interpreter) : LineOp → Option Interpreter
  | .newString text =>
    -- the token is a string of the token buffer
    if text.length < finshHeapMax ∧ 0 ∉ text then s.finshNodeNewString text else none
  | .newOther => some s.finshNodeNewOther
  | .setVariable i value =>
    some { s with globalVariable := Function.update s.globalVariable i value }
  | .flush => some { s with globalNodeTable := [] }

def Initial (base : Nat) (s : Interpreter) : Prop :=
  0 < base ∧ base + finshHeapMax ≤ 2 ^ 32 ∧ s.globalNodeTable = [] ∧
    ∃ memory, s.toFinshHeap = finshHeapInit base memory

def allocates (s : Interpreter) (text : List UInt8) : Bool :=
  text.length < finshHeapMax ∧ 0 ∉ text ∧ s.globalNodeTable.length < finshNodeMax

def collected (s : Interpreter) : LineOp → List Nat
  | .newString text =>
    if s.allocates text then
      match finshHeapAllocate s.globalVariable (text.length + 1) s.toFinshHeap with
      | some (_, freed, _) => freed
      | none => []
    else []
  | _ => []

def Refers (s : Interpreter) (p : Nat) : Prop :=
  .valueString p ∈ s.globalNodeTable ∨
    ∃ i, (s.globalVariable i).type ≠ .unknown ∧ (s.globalVariable i).value = p

def CollectsGarbage (s : Interpreter) (op : LineOp) : Prop :=
  ∀ p ∈ s.collected op, ¬ s.Refers p

/-- Where a string forces a collection, the strings of the line so far are values of variables. -/
def Rooted (s : Interpreter) : LineOp → Prop
  | .newString text =>
    s.allocates text = true → mustCollect (text.length + 1) s.toFinshHeap = true →
      ∀ node ∈ s.globalNodeTable, node.rooted s.globalVariable = true
  | _ => True

instance (s : Interpreter) (op : LineOp) : Decidable (s.Rooted op) :=
  match op with
  | .newString text =>
    inferInstanceAs (Decidable (s.allocates text = true →
      mustCollect (text.length + 1) s.toFinshHeap = true →
        ∀ node ∈ s.globalNodeTable, node.rooted s.globalVariable = true))
  | .newOther | .setVariable _ _ | .flush => inferInstanceAs (Decidable True)

structure Inv (base : Nat) (s : Interpreter) (tiles : List Tile) : Prop where
  ordered : Ordered base s.toFinshHeap tiles
  allocated : ∀ p, .valueString p ∈ s.globalNodeTable →
    ∃ tile ∈ usedTiles tiles, finshBlockGetData tile.start = p

end Interpreter

def lineMachine (base : Nat) : Machine Interpreter LineOp where
  init := Interpreter.Initial base
  exec := Interpreter.exec

variable {base : Nat} {s s' : Interpreter} {op : LineOp} {text : List UInt8} {tiles : List Tile}

section Steps

namespace Interpreter

theorem referenced_iff {header : Nat} : referenced s.globalVariable header = true ↔
    ∃ i, (s.globalVariable i).type ≠ .unknown ∧
      (s.globalVariable i).value = finshBlockGetData header := by
  simp [referenced]

theorem rooted_iff {p : Nat} : (FinshNode.valueString p).rooted s.globalVariable = true ↔
    ∃ i, (s.globalVariable i).type ≠ .unknown ∧ (s.globalVariable i).value = p := by
  simp [FinshNode.rooted]

theorem allocates_iff : s.allocates text = true ↔
    text.length + 1 ≤ finshHeapMax ∧ 0 ∉ text ∧ s.globalNodeTable.length < finshNodeMax := by
  unfold allocates
  rw [decide_eq_true_eq]
  rfl

theorem Inv.collectsGarbage_iff (hinv : s.Inv base tiles) : s.CollectsGarbage op ↔ s.Rooted op := by
  cases op with
  | newOther | setVariable i value | flush =>
    exact iff_of_true (fun p hp => nomatch hp) trivial
  | newString text =>
    unfold CollectsGarbage Rooted collected
    dsimp only
    split
    next hallocates =>
      obtain ⟨hsize, -, -⟩ := allocates_iff.mp hallocates
      obtain ⟨ptr, freed, heap, tiles₁, tiles', hallocate, -, hswept, -⟩ :=
        hinv.ordered.finshHeapAllocate s.globalVariable hsize
      simp only [hallocate, hallocates, forall_const]
      rcases hswept with ⟨hmust, rfl, -⟩ | ⟨hmust, hcollected⟩
      · rw [hmust]
        exact iff_of_true (fun p hp => nomatch hp) fun h => nomatch h
      · simp only [hmust, forall_const]
        constructor
        · intro hgarbage node hnode
          cases node with
          | other => rfl
          | valueString p =>
          obtain ⟨tile, htile, rfl⟩ := hinv.allocated p hnode
          rw [rooted_iff, ← referenced_iff]
          by_contra hunref
          have hstart : tile.start ∈ starts true tiles := by
            rw [mem_usedTiles] at htile
            exact mem_starts.mpr ⟨tile, htile.1, htile.2, rfl⟩
          exact hgarbage _ ((hcollected.freed _).mpr ⟨tile.start, hstart, by simpa using hunref,
            rfl⟩) (.inl hnode)
        · intro hrooted p hp hrefers
          obtain ⟨header, -, hunref, rfl⟩ := (hcollected.freed p).mp hp
          have href : referenced s.globalVariable header = true := by
            rw [referenced_iff]
            rcases hrefers with hnode | hvariable
            · exact rooted_iff.mp (hrooted _ hnode)
            · exact hvariable
          cases hunref.symm.trans href
    next hnot => exact iff_of_true (fun p hp => nomatch hp) fun h => absurd h hnot

theorem Inv.newString (hinv : s.Inv base tiles) (hrooted : s.Rooted (.newString text))
    (hexec : s.exec (.newString text) = some s') : ∃ tiles', s'.Inv base tiles' := by
  simp only [exec] at hexec
  split at hexec
  next htext =>
    unfold finshNodeNewString at hexec
    split at hexec
    · cases hexec
      exact ⟨tiles, hinv⟩
    next hroom =>
      have hallocates : s.allocates text = true :=
        allocates_iff.mpr ⟨htext.1, htext.2, Nat.lt_of_not_le hroom⟩
      obtain ⟨ptr, freed, heap, tiles₁, tiles', hallocate, hordered, hswept, hallocated⟩ :=
        hinv.ordered.finshHeapAllocate s.globalVariable (show text.length + 1 ≤ finshHeapMax from htext.1)
      simp only [hallocate] at hexec
      split at hexec
      · cases hexec
      next hsome =>
        cases hexec
        have hnew : (⟨finshBlockGetHeader ptr, ptr + heapAlignSize (text.length + 1), true⟩ : Tile) ∈
            usedTiles tiles' := (hallocated.added _).mpr (.inr ⟨hsome, rfl⟩)
        have hptr := hallocated.header hsome
        have hlong := (heapAlignSize_le (show text.length + 1 ≤ finshHeapMax from htext.1)).1
        have hdata : finshBlockGetData (finshBlockGetHeader ptr) = ptr := Nat.sub_add_cancel hptr
        refine ⟨tiles', ⟨⟨?_, hordered.ends⟩, fun p hnode => ?_⟩⟩
        · refine hordered.image.store (mem_usedTiles.mp hnew).1 fun i hi => ?_
          apply ByteMemory.writeBytes_outside
          rw [List.length_append, List.length_singleton]
          change i < finshBlockGetHeader ptr + 8 ∨ ptr + heapAlignSize (text.length + 1) ≤ i at hi
          unfold finshBlockGetData at hdata
          omega
        · change .valueString p ∈ s.globalNodeTable ++ [.valueString ptr] at hnode
          rcases List.mem_append.mp hnode with hold | hlast
          · obtain ⟨tile, htile, rfl⟩ := hinv.allocated p hold
            refine ⟨tile, (hallocated.added tile).mpr (.inl ?_), rfl⟩
            rcases hswept with ⟨-, -, rfl⟩ | ⟨hmust, hcollected⟩
            · exact htile
            · refine (hcollected.kept tile).mpr ⟨htile, fun _ => ?_⟩
              exact referenced_iff.mpr (rooted_iff.mp (hrooted hallocates hmust _ hold))
          · rw [List.mem_singleton] at hlast
            cases hlast
            exact ⟨_, hnew, hdata⟩
  · cases hexec

theorem Inv.exec (hinv : s.Inv base tiles) (hrooted : s.Rooted op) (hexec : s.exec op = some s') :
    ∃ tiles', s'.Inv base tiles' := by
  cases op with
  | newString text => exact hinv.newString hrooted hexec
  | newOther =>
    cases hexec
    unfold finshNodeNewOther
    split
    · exact ⟨tiles, hinv⟩
    · refine ⟨tiles, hinv.ordered, fun p hnode => hinv.allocated p ?_⟩
      simpa using hnode
  | setVariable i value =>
    cases hexec
    exact ⟨tiles, hinv.ordered, hinv.allocated⟩
  | flush =>
    cases hexec
    exact ⟨tiles, hinv.ordered, fun p hnode => nomatch hnode⟩

theorem Initial.inv (hinit : s.Initial base) : s.Inv base [⟨base, base + finshHeapMax, false⟩] := by
  obtain ⟨hpos, hle, hnodes, memory, hheap⟩ := hinit
  refine ⟨hheap ▸ Ordered.init hpos hle, fun p hnode => ?_⟩
  rw [hnodes] at hnode
  cases hnode

theorem reachable_inv (hreach : (lineMachine base).Reachable Rooted s) :
    ∃ tiles, s.Inv base tiles := by
  apply hreach.invariant fun s => ∃ tiles, s.Inv base tiles
  · intro s hinit
    exact ⟨_, hinit.inv⟩
  · rintro s op s' ⟨tiles, hinv⟩ hrooted hexec
    exact hinv.exec hrooted hexec

def Sound (s : Interpreter) : Prop :=
  ∀ p, .valueString p ∈ s.globalNodeTable →
    ∃ allocates, ListAt s.memory s.allocateList allocates ∧ finshBlockGetHeader p ∈ allocates

theorem Inv.sound (hinv : s.Inv base tiles) : s.Sound := by
  intro p hnode
  obtain ⟨tile, htile, rfl⟩ := hinv.allocated p hnode
  rw [mem_usedTiles] at htile
  have hheader : finshBlockGetHeader (finshBlockGetData tile.start) = tile.start :=
    Nat.add_sub_cancel ..
  rw [hheader]
  exact ⟨_, hinv.ordered.image.lists true, mem_starts.mpr ⟨tile, htile.1, htile.2, rfl⟩⟩

/-- While the lines keep to the condition no string is lost, and the next collection frees only
garbage exactly if its line does so as well. -/
theorem reachable_collectsGarbage (hreach : (lineMachine base).Reachable Rooted s) :
    s.Sound ∧ ∀ op, s.CollectsGarbage op ↔ s.Rooted op := by
  obtain ⟨tiles, hinv⟩ := reachable_inv hreach
  exact ⟨hinv.sound, fun _ => hinv.collectsGarbage_iff⟩

def lineStart : Interpreter where
  toFinshHeap := finshHeapInit 4096 fun _ => 0
  globalVariable _ := ⟨.unknown, 0⟩
  globalNodeTable := []

theorem lineStart_initial : lineStart.Initial 4096 := ⟨by decide, by decide, rfl, _, rfl⟩

/-- A string that is kept in a variable, a line with a lost string, and a third one for which it is
collected. -/
def keptLines : List LineOp :=
  [.newString (List.replicate 28 97), .setVariable ⟨0, Nat.succ_pos 7⟩ ⟨.charp, 4104⟩, .flush,
    .newString (List.replicate 40 98), .flush, .newString (List.replicate 44 99)]

theorem reachable_collectsGarbage_keptLines :
    ∃ s, (lineMachine 4096).Reachable Rooted s ∧ s.globalNodeTable = [.valueString 4144] ∧
      s.Sound := by
  have hrun : ((lineMachine 4096).run Rooted lineStart keptLines).map
      Interpreter.globalNodeTable = some [.valueString 4144] := by
    decide +kernel
  obtain ⟨s, hreach, hnodes⟩ := Machine.exists_reachable_of_run lineStart_initial hrun
  exact ⟨s, hreach, hnodes, (reachable_collectsGarbage hreach).1⟩

def lostString : List LineOp :=
  [.newString (List.replicate 60 97), .flush, .newString (List.replicate 28 98)]

/-- The second string of a line has the first one collected. -/
theorem lostString_collected :
    ∃ s, (lineMachine 4096).Reachable (fun _ _ => True) s ∧
      ¬ s.CollectsGarbage (.newString [99, 100, 101]) := by
  have hrun : ((lineMachine 4096).run (fun _ _ => True) lineStart lostString).map
      (fun s => (s.globalNodeTable, s.collected (.newString [99, 100, 101]))) =
        some ([.valueString 4176], [4104, 4176]) := by
    decide +kernel
  obtain ⟨s, hreach, hend⟩ := Machine.exists_reachable_of_run lineStart_initial hrun
  obtain ⟨hnodes, hfreed⟩ := Prod.mk.inj hend
  refine ⟨s, hreach, fun hgarbage => hgarbage 4176 ?_ (.inl ?_)⟩
  · rw [hfreed]
    simp
  · rw [hnodes]
    simp

end Interpreter

end Steps

end RtThread.Finsh
