import RtThread.Driver.RingBlockLive

namespace RtThread.Driver.Rbb

open Function RtThread.Lib

def queueLenFrom (rbb : Rbb) : Nat → Nat → Nat → Option Nat
  | _, 0, total => some total
  | block, n + 1, total =>
    if block < rbb.blkMaxNum then
      rbb.queueLenFrom (block + 1) n (sizeAdd total (rbb.blkSet block).size)
    else none

def rtRbbBlkQueueLen (rbb : Rbb) (blkQueue : BlkQueue) : Option Nat :=
  rbb.queueLenFrom blkQueue.blocks blkQueue.blkNum 0

def rtRbbBlkQueueBuf (rbb : Rbb) (blkQueue : BlkQueue) : Nat := (rbb.blkSet blkQueue.blocks).buf

def runFrom (rbb : Rbb) (queueDataLen : Nat) : Nat → Nat → List Nat → List Nat
  | _, _, [] => []
  | last, total, node :: rest =>
    if (rbb.blkSet node).status ≠ .put ∨ (rbb.blkSet last).buf > (rbb.blkSet node).buf ∨
        sizeAdd total (rbb.blkSet node).size > queueDataLen then
      []
    else node :: rbb.runFrom queueDataLen node (sizeAdd total (rbb.blkSet node).size) rest

def fromPut (rbb : Rbb) (nodes : List Nat) : List Nat :=
  nodes.dropWhile fun i => (rbb.blkSet i).status ≠ .put

def queueRun (rbb : Rbb) (queueDataLen : Nat) : List Nat :=
  match rbb.fromPut rbb.blkList with
  | [] => []
  | first :: rest =>
    first :: rbb.runFrom queueDataLen first (sizeAdd 0 (rbb.blkSet first).size) rest

def Adjacent (rbb : Rbb) (i j : Nat) : Prop :=
  (rbb.blkSet j).buf = (rbb.blkSet i).buf + (rbb.blkSet i).size

def sizes (rbb : Rbb) (blocks : List Nat) : Nat := (blocks.map fun i => (rbb.blkSet i).size).sum

/-- A run whose blocks fit, follow one another in the buffer, and fill, in some order, the places
of the block set from the first one on. -/
structure StraightRun (rbb : Rbb) (queueDataLen : Nat) (blocks : List Nat) : Prop where
  fits : rbb.sizes blocks ≤ queueDataLen
  adjacent : blocks.IsChain rbb.Adjacent
  places : ∀ first ∈ blocks.head?, ∀ i, i ∈ blocks ↔ first ≤ i ∧ i < first + blocks.length

/-- What a queue is for: `length` bytes one after another, in blocks that have been taken from the
list and that are freed with the queue. -/
structure ContiguousQueue (rbb : Rbb) (queueDataLen length : Nat) (queue : BlkQueue) (rbb' : Rbb) :
    Prop where
  bounded : length ≤ queueDataLen
  blocks : ∃ before taken after, rbb.blkList = before ++ taken ++ after ∧
    (∀ i ∈ taken, (rbb.blkSet i).status = .put) ∧
    (∀ i, rbb'.blkSet i =
      if i ∈ taken then { rbb.blkSet i with status := .get } else rbb.blkSet i) ∧
    taken.IsChain rbb.Adjacent ∧ rbb.sizes taken = length ∧
    (∃ first ∈ taken.head?, rbb'.rtRbbBlkQueueBuf queue = (rbb.blkSet first).buf) ∧
    ∃ rbb'', rbb'.rtRbbBlkQueueFree queue = some rbb'' ∧ ∀ i, rbb''.blkSet i =
      if i ∈ taken then { rbb'.blkSet i with status := .unused } else rbb'.blkSet i
  length : rbb'.rtRbbBlkQueueLen queue = some length

def takeBlock (rbb : Rbb) (node : Nat) : Rbb := (rbb.remove node).setStatus node .get

section Run

variable {rbb rbb' : Rbb} {queueDataLen last first total block n i : Nat} {nodes taken rest : List Nat}
  {queue : BlkQueue}

theorem takeBlock_blkSet_ne (hne : i ≠ n) : (rbb.takeBlock n).blkSet i = rbb.blkSet i :=
  update_of_ne hne ..

theorem takeBlock_place (rbb : Rbb) (n i : Nat) :
    ((rbb.takeBlock n).blkSet i).buf = (rbb.blkSet i).buf ∧
      ((rbb.takeBlock n).blkSet i).size = (rbb.blkSet i).size := by
  by_cases hi : i = n
  · subst hi
    simp [takeBlock, setStatus, setBlk, remove]
  · rw [takeBlock_blkSet_ne hi]
    exact ⟨rfl, rfl⟩

theorem foldl_takeBlock (taken : List Nat) (rbb : Rbb) :
    (taken.foldl takeBlock rbb).blkMaxNum = rbb.blkMaxNum ∧
      ∀ i, (taken.foldl takeBlock rbb).blkSet i =
        if i ∈ taken then { rbb.blkSet i with status := .get } else rbb.blkSet i := by
  induction taken generalizing rbb with
  | nil => exact ⟨rfl, fun i => (if_neg List.not_mem_nil).symm⟩
  | cons node taken ih =>
    obtain ⟨hmax, hset⟩ := ih (rbb.takeBlock node)
    refine ⟨hmax, fun i => ?_⟩
    rw [List.foldl_cons, hset]
    by_cases hi : i = node
    · subst hi
      by_cases hmem : i ∈ taken <;> simp [hmem, takeBlock, setStatus, setBlk, remove]
    · rw [takeBlock_blkSet_ne hi]
      simp [hi]

theorem runFrom_congr (hlast : (rbb'.blkSet last).buf = (rbb.blkSet last).buf)
    (hrest : ∀ i ∈ rest, rbb'.blkSet i = rbb.blkSet i) :
    rbb'.runFrom queueDataLen last total rest = rbb.runFrom queueDataLen last total rest := by
  induction rest generalizing last total with
  | nil => rfl
  | cons node rest ih =>
    have hnode := hrest node List.mem_cons_self
    rw [runFrom, runFrom, hnode, hlast]
    rw [ih (by rw [hnode]) fun i hmem => hrest i (List.mem_cons_of_mem _ hmem)]

theorem runFrom_isPrefix (rbb : Rbb) (queueDataLen last total : Nat) (rest : List Nat) :
    (rbb.runFrom queueDataLen last total rest).IsPrefix rest := by
  induction rest generalizing last total with
  | nil => exact List.prefix_rfl
  | cons node rest ih =>
    rw [runFrom]
    split
    · exact List.nil_prefix
    · exact (List.prefix_cons_inj node).mpr (ih ..)

theorem runFrom_put : ∀ i ∈ rbb.runFrom queueDataLen last total rest,
    (rbb.blkSet i).status = .put := by
  induction rest generalizing last total with
  | nil => simp [runFrom]
  | cons node rest ih =>
    rw [runFrom]
    split
    · simp
    next hgoes =>
      rw [not_or, not_not] at hgoes
      intro i hmem
      rcases List.mem_cons.mp hmem with rfl | hmem
      · exact hgoes.1
      · exact ih i hmem

def addSizes (rbb : Rbb) (blocks : List Nat) (total : Nat) : Nat :=
  blocks.foldl (fun total i => sizeAdd total (rbb.blkSet i).size) total

theorem addSizes_congr (hsame : ∀ i, (rbb'.blkSet i).size = (rbb.blkSet i).size) :
    rbb'.addSizes taken total = rbb.addSizes taken total := by
  unfold addSizes
  congr 1
  funext total i
  rw [hsame]

theorem addSizes_eq (htotal : total < 2 ^ 32) :
    rbb.addSizes taken total = (total + rbb.sizes taken) % 2 ^ 32 := by
  induction taken generalizing total with
  | nil => exact (Nat.mod_eq_of_lt htotal).symm
  | cons node taken ih =>
    have hadd : sizeAdd total (rbb.blkSet node).size < 2 ^ 32 := Nat.mod_lt _ (by decide)
    have hsum : rbb.sizes (node :: taken) = (rbb.blkSet node).size + rbb.sizes taken := by
      simp [sizes]
    have hstep : rbb.addSizes (node :: taken) total =
        rbb.addSizes taken (sizeAdd total (rbb.blkSet node).size) := rfl
    rw [hstep, ih hadd, hsum, sizeAdd, Nat.mod_add_mod, Nat.add_assoc]

theorem queueLoop_some (hnodup : (last :: rest).Nodup) :
    queueLoop queueDataLen rest (some last) queue total rbb =
      (rbb.addSizes (rbb.runFrom queueDataLen last total rest) total,
        { queue with
          blkNum := queue.blkNum + (rbb.runFrom queueDataLen last total rest).length },
        (rbb.runFrom queueDataLen last total rest).foldl takeBlock rbb) := by
  induction rest generalizing last queue total rbb with
  | nil => rfl
  | cons node rest ih =>
    have hrest := (List.nodup_cons.mp hnodup).2
    rw [queueLoop, runFrom]
    split
    · rfl
    next hgoes =>
      have hsame : (rbb.takeBlock node).runFrom queueDataLen node
          (sizeAdd total (rbb.blkSet node).size) rest =
            rbb.runFrom queueDataLen node (sizeAdd total (rbb.blkSet node).size) rest :=
        runFrom_congr (takeBlock_place ..).1 fun i hmem => takeBlock_blkSet_ne fun heq =>
          (List.nodup_cons.mp hrest).1 (heq ▸ hmem)
      change queueLoop queueDataLen rest (some node) _ _ (rbb.takeBlock node) = _
      rw [ih hrest, hsame, addSizes_congr fun i => (takeBlock_place rbb node i).2]
      simp only [List.length_cons, List.foldl_cons, addSizes]
      congr 3
      omega

theorem queueLoop_none (rbb : Rbb) (queueDataLen : Nat) (queue : BlkQueue)
    (hnodup : nodes.Nodup) :
    queueLoop queueDataLen nodes none queue 0 rbb =
      match rbb.fromPut nodes with
      | [] => (0, queue, rbb)
      | first :: rest =>
        let run := first :: rbb.runFrom queueDataLen first (sizeAdd 0 (rbb.blkSet first).size) rest
        (rbb.addSizes run 0, ⟨first, run.length⟩, run.foldl takeBlock rbb) := by
  induction nodes with
  | nil => rfl
  | cons node rest ih =>
    rw [queueLoop]
    by_cases hput : (rbb.blkSet node).status = .put
    · have hfrom : rbb.fromPut (node :: rest) = node :: rest := by simp [fromPut, hput]
      have hsame : (rbb.takeBlock node).runFrom queueDataLen node
          (sizeAdd 0 (rbb.blkSet node).size) rest =
            rbb.runFrom queueDataLen node (sizeAdd 0 (rbb.blkSet node).size) rest :=
        runFrom_congr (takeBlock_place ..).1 fun i hmem => takeBlock_blkSet_ne fun heq =>
          (List.nodup_cons.mp hnodup).1 (heq ▸ hmem)
      rw [if_pos hput, hfrom]
      change queueLoop queueDataLen rest (some node) _ _ (rbb.takeBlock node) = _
      rw [queueLoop_some hnodup, hsame, addSizes_congr fun i => (takeBlock_place rbb node i).2]
      simp only [List.length_cons, List.foldl_cons, addSizes]
      congr 3
      omega
    · have hfrom : rbb.fromPut (node :: rest) = rbb.fromPut rest := by simp [fromPut, hput]
      rw [if_neg hput, hfrom]
      exact ih (List.nodup_cons.mp hnodup).2

theorem rtRbbBlkQueueGet_eq (hnodup : rbb.blkList.Nodup)
    (hsome : 0 < (rbb.rtRbbBlkQueueGet queueDataLen queue).1) :
    ∃ first, (rbb.queueRun queueDataLen).head? = some first ∧
      rbb.rtRbbBlkQueueGet queueDataLen queue =
        (rbb.addSizes (rbb.queueRun queueDataLen) 0, ⟨first, (rbb.queueRun queueDataLen).length⟩,
          (rbb.queueRun queueDataLen).foldl takeBlock rbb) := by
  have hloop := queueLoop_none rbb queueDataLen queue hnodup
  unfold rtRbbBlkQueueGet at hsome ⊢
  unfold queueRun
  cases hfrom : rbb.fromPut rbb.blkList with
  | nil =>
    rw [hfrom] at hloop
    rw [hloop] at hsome
    exact absurd hsome (Nat.lt_irrefl _)
  | cons first rest =>
    rw [hfrom] at hloop
    exact ⟨first, rfl, hloop⟩

theorem queueRun_split (rbb : Rbb) (queueDataLen : Nat) :
    ∃ before after, rbb.blkList = before ++ rbb.queueRun queueDataLen ++ after ∧
      ∀ i ∈ rbb.queueRun queueDataLen, (rbb.blkSet i).status = .put := by
  have hsplit : rbb.blkList.takeWhile (fun i => (rbb.blkSet i).status ≠ .put) ++
      rbb.fromPut rbb.blkList = rbb.blkList := List.takeWhile_append_dropWhile
  unfold queueRun
  cases hfrom : rbb.fromPut rbb.blkList with
  | nil => exact ⟨rbb.blkList, [], by simp, by simp⟩
  | cons first rest =>
    obtain ⟨after, hafter⟩ := runFrom_isPrefix rbb queueDataLen first
      (sizeAdd 0 (rbb.blkSet first).size) rest
    have hfirst : (rbb.blkSet first).status = .put := by
      have hnot := List.head?_dropWhile_not (fun i => decide ((rbb.blkSet i).status ≠ .put))
        rbb.blkList
      rw [show rbb.blkList.dropWhile _ = first :: rest from hfrom] at hnot
      simpa using hnot
    refine ⟨rbb.blkList.takeWhile fun i => (rbb.blkSet i).status ≠ .put, after, ?_, ?_⟩
    · conv_lhs => rw [← hsplit, hfrom]
      simp [hafter]
    · intro i hmem
      rcases List.mem_cons.mp hmem with rfl | hmem
      · exact hfirst
      · exact runFrom_put i hmem

theorem freeBlocks_spec (hfree : freeBlocks block n rbb = some rbb') :
    (∀ i, block ≤ i → i < block + n → i < rbb.blkMaxNum ∧ (rbb.blkSet i).status ≠ .unused) ∧
      ∀ i, rbb'.blkSet i =
        if block ≤ i ∧ i < block + n then { rbb.blkSet i with status := .unused }
        else rbb.blkSet i := by
  induction n generalizing block rbb with
  | zero =>
    cases hfree
    exact ⟨fun i hle hlt => absurd hlt (Nat.not_lt.mpr hle), fun i => (if_neg (by omega)).symm⟩
  | succ n ih =>
    rw [freeBlocks] at hfree
    split at hfree
    case isFalse => cases hfree
    next hmax =>
      obtain ⟨mid, hfirst, hrest⟩ := Option.bind_eq_some_iff.mp hfree
      unfold rtRbbBlkFree at hfirst
      split at hfirst
      case isFalse => cases hfirst
      next hused =>
        cases hfirst
        obtain ⟨hin, hset⟩ := ih hrest
        have hother {i : Nat} (hne : i ≠ block) :
            ((rbb.remove block).setStatus block .unused).blkSet i = rbb.blkSet i :=
          update_of_ne hne ..
        refine ⟨fun i hle hlt => ?_, fun i => ?_⟩
        · by_cases hi : i = block
          · rw [hi]
            exact ⟨hmax, hused⟩
          · have hnext := hin i (by omega) (by omega)
            rwa [hother hi] at hnext
        · rw [hset]
          by_cases hi : i = block
          · subst hi
            rw [if_neg (by omega), if_pos (by omega)]
            simp [setStatus, setBlk, remove]
          · rw [hother hi]
            by_cases hrange : block ≤ i ∧ i < block + (n + 1)
            · rw [if_pos hrange, if_pos (by omega)]
            · rw [if_neg hrange, if_neg (by omega)]

theorem freeBlocks_some
    (hin : ∀ i, block ≤ i → i < block + n → i < rbb.blkMaxNum ∧ (rbb.blkSet i).status ≠ .unused) :
    ∃ rbb', freeBlocks block n rbb = some rbb' := by
  induction n generalizing block rbb with
  | zero => exact ⟨rbb, rfl⟩
  | succ n ih =>
    obtain ⟨hmax, hused⟩ := hin block (Nat.le_refl _) (by omega)
    rw [freeBlocks, if_pos hmax, rtRbbBlkFree, if_pos hused, Option.bind_some]
    apply ih
    intro i hle hlt
    have hnext := hin i (by omega) (by omega)
    have hother : ((rbb.remove block).setStatus block .unused).blkSet i = rbb.blkSet i :=
      update_of_ne (by omega) ..
    rw [hother]
    exact hnext

theorem queueLenFrom_eq (hin : ∀ i, block ≤ i → i < block + n → i < rbb.blkMaxNum) :
    rbb.queueLenFrom block n total = some (rbb.addSizes (List.range' block n) total) := by
  induction n generalizing block total with
  | zero => rfl
  | succ n ih =>
    rw [queueLenFrom, if_pos (hin block (Nat.le_refl _) (by omega))]
    exact ih fun i hle hlt => hin i (by omega) (by omega)

theorem segment_eq {before after before' after' : List Nat}
    (hnodup : (before ++ nodes ++ after).Nodup)
    (hsame : before ++ nodes ++ after = before' ++ taken ++ after')
    (hmem : ∀ i, i ∈ nodes ↔ i ∈ taken) : nodes = taken := by
  have hfilter {pre mid post : List Nat} (hnodup : (pre ++ mid ++ post).Nodup) :
      (pre ++ mid ++ post).filter (· ∈ mid) = mid := by
    rw [List.append_assoc, List.nodup_append] at hnodup
    obtain ⟨-, hmid, hpre⟩ := hnodup
    obtain ⟨-, -, hpost⟩ := List.nodup_append.mp hmid
    rw [List.filter_append, List.filter_append]
    rw [List.filter_eq_nil_iff.mpr fun i hi => by
      simpa using fun hin => hpre i hi i (List.mem_append_left _ hin) rfl]
    rw [List.filter_eq_self.mpr (by simp), List.filter_eq_nil_iff.mpr fun i hi => by
      simpa using fun hin => hpost i hin i hi rfl]
    simp
  have hleft := hfilter hnodup
  have hright := hfilter (hsame ▸ hnodup)
  rw [← hleft, ← hright, hsame]
  apply List.filter_congr
  intro i _
  simp [hmem i]

end Run

structure Listed (rbb : Rbb) : Prop where
  nodup : rbb.blkList.Nodup
  used : ∀ i ∈ rbb.blkList, rbb.Used i

section Listed

variable {rbb rbb' : Rbb} {buf bufSize blkMaxNum blkSize block n : Nat} {op : RbbOp}

theorem Listed.shrinks (hlisted : rbb.Listed) (hshrinks : Shrinks rbb rbb') : rbb'.Listed :=
  ⟨hlisted.nodup.sublist hshrinks.list,
    fun i hmem => hshrinks.listed i hmem (hlisted.used i (hshrinks.list.subset hmem))⟩

theorem Listed.freeBlocks (hlisted : rbb.Listed) (hfree : Rbb.freeBlocks block n rbb = some rbb') :
    rbb'.Listed := by
  induction n generalizing block rbb with
  | zero =>
    cases hfree
    exact hlisted
  | succ n ih =>
    rw [Rbb.freeBlocks] at hfree
    split at hfree
    case isFalse => cases hfree
    · obtain ⟨mid, hfirst, hrest⟩ := Option.bind_eq_some_iff.mp hfree
      exact ih (hlisted.shrinks (.blkFree hlisted.nodup hfirst)) hrest

theorem rtRbbBlkAlloc_cases (rbb : Rbb) (blkSize : Nat) :
    (rbb.rtRbbBlkAlloc blkSize).2 = rbb ∨
      ∃ new buf, rbb.findEmptyBlkInSet = some new ∧
        (rbb.rtRbbBlkAlloc blkSize).2 = rbb.append new buf blkSize := by
  unfold rtRbbBlkAlloc
  split
  · exact .inl rfl
  next new hnew =>
    split
    · split
      · dsimp only
        split
        · split
          · exact .inr ⟨new, _, hnew, rfl⟩
          · split
            · exact .inr ⟨new, _, hnew, rfl⟩
            · exact .inl rfl
        · split
          · exact .inr ⟨new, _, hnew, rfl⟩
          · exact .inl rfl
      · exact .inr ⟨new, _, hnew, rfl⟩
    · exact .inl rfl

theorem Listed.alloc (hlisted : rbb.Listed) : (rbb.rtRbbBlkAlloc blkSize).2.Listed := by
  rcases rtRbbBlkAlloc_cases rbb blkSize with hsame | ⟨new, buf, hnew, hnext⟩
  · rw [hsame]
    exact hlisted
  · obtain ⟨hmax, hunused⟩ := findEmptyBlkInSet_spec hnew
    have hfresh : new ∉ rbb.blkList := fun hmem => (hlisted.used new hmem).2 hunused
    rw [hnext]
    refine ⟨?_, fun i hmem => ?_⟩
    · rw [show (rbb.append new buf blkSize).blkList = rbb.blkList ++ [new] from rfl,
        List.nodup_append]
      refine ⟨hlisted.nodup, List.nodup_singleton new, fun i hi j hj heq => ?_⟩
      rw [List.mem_singleton.mp hj] at heq
      exact hfresh (heq ▸ hi)
    · rcases List.mem_append.mp hmem with hold | hlast
      · have hne : i ≠ new := fun heq => hfresh (heq ▸ hold)
        have hsame : (rbb.append new buf blkSize).blkSet i = rbb.blkSet i :=
          update_of_ne hne ..
        have hused := hlisted.used i hold
        exact ⟨hused.1, by rw [hsame]; exact hused.2⟩
      · rw [List.mem_singleton.mp hlast]
        exact ⟨hmax, by simp [append, setBlk]⟩

theorem Listed.exec (hlisted : rbb.Listed)
    (hexec : (rbbMachine buf bufSize blkMaxNum).exec rbb op = some rbb') : rbb'.Listed := by
  cases op with
  | blkAlloc blkSize =>
    simp only [rbbMachine] at hexec
    split at hexec
    case isFalse => cases hexec
    · cases hexec
      exact hlisted.alloc
  | blkPut block =>
    simp only [rbbMachine, rtRbbBlkPut] at hexec
    split at hexec
    case isFalse => cases hexec
    · split at hexec
      case isFalse => cases hexec
      next hinited =>
        cases hexec
        exact hlisted.shrinks (.setStatus (by rw [hinited]; simp) (by simp))
  | blkGet =>
    cases hexec
    unfold rtRbbBlkGet
    split
    · exact hlisted
    next block hfind =>
      have hput := List.find?_some hfind
      rw [decide_eq_true_eq] at hput
      exact hlisted.shrinks (.setStatus (by rw [hput]; simp) (by simp))
  | blkFree block =>
    simp only [rbbMachine] at hexec
    split at hexec
    case isFalse => cases hexec
    · exact hlisted.shrinks (.blkFree hlisted.nodup hexec)
  | blkQueueGet queueDataLen =>
    cases hexec
    exact hlisted.shrinks (.queueLoop queueDataLen _ _ _ _)
  | blkQueueFree queue => exact hlisted.freeBlocks hexec

theorem reachable_listed
    (hreach : (rbbMachine buf bufSize blkMaxNum).Reachable (fun _ _ => True) rbb) : rbb.Listed :=
  hreach.invariant Listed
    (by
      rintro rbb ⟨-, blockSet, rfl⟩
      exact ⟨List.nodup_nil, fun _ hmem => absurd hmem List.not_mem_nil⟩)
    (fun _ _ _ hlisted _ hexec => hlisted.exec hexec)

theorem perm_range' {first : Nat} {blocks : List Nat} (hnodup : blocks.Nodup)
    (hplaces : ∀ i, i ∈ blocks ↔ first ≤ i ∧ i < first + blocks.length) :
    (List.range' first blocks.length).Perm blocks := by
  apply (List.perm_ext_iff_of_nodup List.nodup_range' hnodup).mpr
  intro i
  rw [hplaces, List.mem_range'_1]

/-- A queue is what it is for just when the blocks put one after another fit, follow one another in
the buffer and fill the places of the block set that the queue names. -/
theorem rtRbbBlkQueueGet_iff
    (hreach : (rbbMachine buf bufSize blkMaxNum).Reachable (fun _ _ => True) rbb)
    (queueDataLen : Nat) (hsize : queueDataLen < 2 ^ 32) (queue : BlkQueue)
    (hsome : 0 < (rbb.rtRbbBlkQueueGet queueDataLen queue).1) :
    rbb.ContiguousQueue queueDataLen (rbb.rtRbbBlkQueueGet queueDataLen queue).1
        (rbb.rtRbbBlkQueueGet queueDataLen queue).2.1
        (rbb.rtRbbBlkQueueGet queueDataLen queue).2.2 ↔
      rbb.StraightRun queueDataLen (rbb.queueRun queueDataLen) := by
  have hlisted := reachable_listed hreach
  obtain ⟨first, hfirst, hget⟩ := rtRbbBlkQueueGet_eq hlisted.nodup hsome
  obtain ⟨before, after, hlist, hput⟩ := queueRun_split rbb queueDataLen
  rw [hget]
  generalize rbb.queueRun queueDataLen = run at *
  obtain ⟨hmax, hset⟩ := foldl_takeBlock run rbb
  have hsizes : ∀ i, ((run.foldl takeBlock rbb).blkSet i).size = (rbb.blkSet i).size := by
    intro i
    rw [hset]
    split <;> rfl
  have htotal : rbb.addSizes run 0 = rbb.sizes run % 2 ^ 32 := by
    rw [addSizes_eq (by decide), Nat.zero_add]
  have hnodup : run.Nodup := by
    have hall := hlisted.nodup
    rw [hlist, List.append_assoc, List.nodup_append] at hall
    exact (List.nodup_append.mp hall.2.1).1
  have hmember : first ∈ run := List.mem_of_head? hfirst
  constructor
  · intro hqueue
    obtain ⟨before', taken, after', hlist', hput', hmoved, hchain, hlength, -, rbb'', hfree, hfreed⟩ :=
      hqueue.blocks
    -- the blocks that have changed are those of the run
    have hsame : ∀ i, i ∈ run ↔ i ∈ taken := by
      intro i
      have hboth := (hset i).symm.trans (hmoved i)
      have hstatus := congrArg Blk.status hboth
      constructor
      · intro hi
        by_contra hnot
        rw [if_pos hi, if_neg hnot, hput i hi] at hstatus
        cases hstatus
      · intro hi
        by_contra hnot
        rw [if_neg hnot, if_pos hi, hput' i hi] at hstatus
        cases hstatus
    obtain rfl : run = taken :=
      segment_eq (hlist ▸ hlisted.nodup) (hlist.symm.trans hlist') hsame
    refine ⟨?_, hchain, ?_⟩
    · rw [hlength]
      exact hqueue.bounded
    · intro first' hfirst' i
      obtain rfl : first = first' := Option.some.inj (hfirst.symm.trans hfirst')
      obtain ⟨hin, hplaces⟩ := freeBlocks_spec hfree
      have hboth := congrArg Blk.status ((hfreed i).symm.trans (hplaces i))
      constructor
      · intro hi
        by_contra hnot
        rw [if_pos hi, if_neg hnot, hset, if_pos hi] at hboth
        cases hboth
      · intro hi
        by_contra hnot
        rw [if_neg hnot, if_pos hi] at hboth
        exact (hin i hi.1 hi.2).2 hboth
  · intro hstraight
    have hplaces := hstraight.places first hfirst
    have hexact : rbb.addSizes run 0 = rbb.sizes run := by
      rw [htotal]
      exact Nat.mod_eq_of_lt (Nat.lt_of_le_of_lt hstraight.fits hsize)
    have hused : ∀ i, first ≤ i → i < first + run.length →
        i < (run.foldl takeBlock rbb).blkMaxNum ∧
          ((run.foldl takeBlock rbb).blkSet i).status ≠ .unused := by
      intro i hle hlt
      have hi := (hplaces i).mpr ⟨hle, hlt⟩
      have hmem : i ∈ rbb.blkList := by
        rw [hlist]
        simp [hi]
      rw [hmax, hset, if_pos hi]
      exact ⟨(hlisted.used i hmem).1, nofun⟩
    refine ⟨?_, ⟨before, run, after, hlist, hput, hset, hstraight.adjacent, hexact.symm,
      ⟨first, hfirst, ?_⟩, ?_⟩, ?_⟩
    · rw [hexact]
      exact hstraight.fits
    · rw [rtRbbBlkQueueBuf, hset, if_pos hmember]
    · obtain ⟨rbb'', hfree⟩ := freeBlocks_some hused
      refine ⟨rbb'', hfree, fun i => ?_⟩
      rw [(freeBlocks_spec hfree).2 i]
      simp only [hplaces i]
    · have hperm := perm_range' hnodup hplaces
      have hsum : (run.foldl takeBlock rbb).sizes (List.range' first run.length) =
          rbb.sizes run := by
        have hpermuted := (hperm.map fun i => (rbb.blkSet i).size).sum_nat
        unfold sizes
        simp only [hsizes]
        exact hpermuted
      rw [rtRbbBlkQueueLen, queueLenFrom_eq fun i hle hlt => (hused i hle hlt).1,
        addSizes_eq (by decide), Nat.zero_add, hsum, htotal]

/-- A block of eight bytes is handed out where at most four were asked for. -/
theorem rtRbbBlkQueueGet_too_long : ∃ rbb,
    (rbbMachine 0 16 4).Reachable (fun _ _ => True) rbb ∧
      (rbb.rtRbbBlkQueueGet 4 ⟨0, 0⟩).1 = 8 ∧
      ¬ rbb.ContiguousQueue 4 (rbb.rtRbbBlkQueueGet 4 ⟨0, 0⟩).1
        (rbb.rtRbbBlkQueueGet 4 ⟨0, 0⟩).2.1 (rbb.rtRbbBlkQueueGet 4 ⟨0, 0⟩).2.2 := by
  have hrun : ((rbbMachine 0 16 4).run (fun _ _ => True)
      (rtRbbInit 0 16 (fun _ => ⟨.unused, 0, 0⟩) 4) [.blkAlloc 8, .blkPut 0]).map
        (fun rbb => (rbb.rtRbbBlkQueueGet 4 ⟨0, 0⟩).1) = some 8 := by decide +kernel
  have hinit : (rbbMachine 0 16 4).init (rtRbbInit 0 16 (fun _ => ⟨.unused, 0, 0⟩) 4) :=
    ⟨by decide, fun _ => ⟨.unused, 0, 0⟩, rfl⟩
  obtain ⟨rbb, hreach, hlength⟩ := Machine.exists_reachable_of_run hinit hrun
  refine ⟨rbb, hreach, hlength, fun hqueue => ?_⟩
  have hbounded := hqueue.bounded
  rw [hlength] at hbounded
  exact absurd hbounded (by decide)

/-- Two blocks that were allocated and put one after the other. -/
theorem rtRbbBlkQueueGet_iff_two : ∃ rbb,
    (rbbMachine 0 16 4).Reachable (fun _ _ => True) rbb ∧
      rbb.ContiguousQueue 16 (rbb.rtRbbBlkQueueGet 16 ⟨0, 0⟩).1
        (rbb.rtRbbBlkQueueGet 16 ⟨0, 0⟩).2.1 (rbb.rtRbbBlkQueueGet 16 ⟨0, 0⟩).2.2 := by
  have hrun : ((rbbMachine 0 16 4).run (fun _ _ => True)
      (rtRbbInit 0 16 (fun _ => ⟨.unused, 0, 0⟩) 4)
        [.blkAlloc 4, .blkAlloc 8, .blkPut 0, .blkPut 1]).map
        (fun rbb => ((rbb.rtRbbBlkQueueGet 16 ⟨0, 0⟩).1, rbb.queueRun 16, rbb.blkSet 0,
          rbb.blkSet 1)) = some (12, [0, 1], ⟨.put, 4, 0⟩, ⟨.put, 8, 4⟩) := by decide +kernel
  have hinit : (rbbMachine 0 16 4).init (rtRbbInit 0 16 (fun _ => ⟨.unused, 0, 0⟩) 4) :=
    ⟨by decide, fun _ => ⟨.unused, 0, 0⟩, rfl⟩
  obtain ⟨rbb, hreach, hvalue⟩ := Machine.exists_reachable_of_run hinit hrun
  simp only [Prod.mk.injEq] at hvalue
  obtain ⟨hlength, hqueue, hzero, hone⟩ := hvalue
  refine ⟨rbb, hreach, (rtRbbBlkQueueGet_iff hreach 16 (by decide) ⟨0, 0⟩
    (by rw [hlength]; decide)).mpr ?_⟩
  rw [hqueue]
  refine ⟨?_, ?_, ?_⟩
  · simp [sizes, hzero, hone]
  · simp [Adjacent, hzero, hone]
  · intro first hfirst i
    obtain rfl : 0 = first := Option.some.inj hfirst
    simp only [List.mem_cons, List.not_mem_nil, or_false, List.length_cons, List.length_nil]
    omega

end Listed

end RtThread.Driver.Rbb
