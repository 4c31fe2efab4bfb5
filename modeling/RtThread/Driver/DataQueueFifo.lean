import Mathlib.Order.Interval.Finset.Nat
import RtThread.Driver.DataQueue

namespace RtThread.Driver

open Function RtThread.Lib

def dataSlot (size number : Nat) : Nat := number % 65536 % size

theorem sub_le_of_dataSlot_ne {size first last : Nat} (hsize : 0 < size)
    (hslots : ∀ i j, first ≤ i → i < j → j < last → dataSlot size i ≠ dataSlot size j) :
    last - first ≤ size := by
  have hinj : Set.InjOn (dataSlot size) (Finset.Ico first last) := by
    intro i hi j hj heq
    simp only [Finset.coe_Ico, Set.mem_Ico] at hi hj
    rcases Nat.lt_trichotomy i j with hlt | rfl | hgt
    · exact absurd heq (hslots i j hi.1 hlt hj.2)
    · rfl
    · exact absurd heq.symm (hslots j i hj.1 hgt hi.2)
  have hmaps : Set.MapsTo (dataSlot size) (Finset.Ico first last) (Finset.range size) := by
    intro i _
    simp only [Finset.coe_range, Set.mem_Iio]
    exact Nat.mod_lt _ hsize
  have hcard := Finset.card_le_card_of_injOn _ hmaps hinj
  rwa [Nat.card_Ico, Finset.card_range] at hcard

theorem isPrefix_snoc_getElem {α : Type u} {list whole : List α} (hle : list <+: whole)
    (hlt : list.length < whole.length) : list ++ [whole[list.length]] <+: whole := by
  obtain ⟨rest, rfl⟩ := hle
  cases rest with
  | nil => simp at hlt
  | cons head rest => simp

namespace DataQueue

structure Stored (s : DataQueue) : Prop where
  size_pos : 0 < s.size
  size_lt : s.size < 65536
  getIndex : s.getIndex = s.popped.length % 65536
  putIndex : s.putIndex = s.pushed.length % 65536
  popped : s.popped <+: s.pushed
  slots : ∀ i j, s.popped.length ≤ i → i < j → j < s.pushed.length →
    dataSlot s.size i ≠ dataSlot s.size j
  content : ∀ i, s.popped.length ≤ i → ∀ hi : i < s.pushed.length,
    s.queue (dataSlot s.size i) = s.pushed[i]

def SlotFree (s : DataQueue) : Prop :=
  s.isFull = true ∨ ∀ k < s.pushed.length - s.popped.length,
    dataSlot s.size (s.popped.length + k) ≠ dataSlot s.size s.putIndex

instance (s : DataQueue) : Decidable s.SlotFree := inferInstanceAs (Decidable (_ ∨ _))

structure Fifo (s : DataQueue) : Prop where
  held_le : s.pushed.length ≤ s.popped.length + s.size
  popped : s.popped <+: s.pushed
  pushFails : s.SlotFree → ∀ t item, (s.rtDataQueuePush t item 0).result = some (-rtEtimeout) ↔
    s.pushed.length = s.popped.length + s.size
  popFails : ∀ t, (s.rtDataQueuePop t 0).result = some (-rtEtimeout) ↔
    s.pushed.length = s.popped.length

section Frames

variable {s : DataQueue} {t : Tid} {item : DataItem} {timeout : Int}

theorem Stored.congr {s' : DataQueue} (hstored : s.Stored) (hsize : s'.size = s.size)
    (hget : s'.getIndex = s.getIndex) (hput : s'.putIndex = s.putIndex)
    (hqueue : s'.queue = s.queue) (hpushed : s'.pushed = s.pushed)
    (hpopped : s'.popped = s.popped) : s'.Stored := by
  obtain ⟨size, lwm, getIndex, putIndex, queue⟩ := s'
  subst hsize hget hput hqueue hpushed hpopped
  exact ⟨hstored.size_pos, hstored.size_lt, hstored.getIndex, hstored.putIndex, hstored.popped,
    hstored.slots, hstored.content⟩

theorem resumeFirst_eq (list : List Tid) : ∃ thread pushList popList,
    s.resumeFirst list = { s with
      thread := thread, suspendedPushList := pushList, suspendedPopList := popList } := by
  cases list with
  | nil => exact ⟨_, _, _, rfl⟩
  | cons first rest =>
    simp only [resumeFirst]
    split
    · exact ⟨_, _, _, rfl⟩
    · exact ⟨_, _, _, rfl⟩

theorem Stored.resumeFirst (hstored : s.Stored) (list : List Tid) :
    (s.resumeFirst list).Stored := by
  obtain ⟨thread, pushList, popList, heq⟩ := s.resumeFirst_eq list
  rw [heq]
  exact hstored.congr rfl rfl rfl rfl rfl rfl

@[simp] theorem resumeFirst_result (list : List Tid) : (s.resumeFirst list).result = s.result := by
  obtain ⟨thread, pushList, popList, heq⟩ := s.resumeFirst_eq list
  rw [heq]

end Frames

section Steps

variable {s : DataQueue} {t : Tid} {item : DataItem} {timeout : Int}

theorem Stored.held_le (hstored : s.Stored) : s.pushed.length - s.popped.length ≤ s.size :=
  sub_le_of_dataSlot_ne hstored.size_pos hstored.slots

theorem dataSlot_mod (size number : Nat) : dataSlot size (number % 65536) = dataSlot size number := by
  unfold dataSlot
  rw [Nat.mod_mod]

section

variable (hstored : s.Stored)
include hstored

theorem Stored.slots_succ (hfree : ∀ k < s.pushed.length - s.popped.length,
      dataSlot s.size (s.popped.length + k) ≠ dataSlot s.size s.putIndex) :
    ∀ i j, s.popped.length ≤ i → i < j → j < s.pushed.length + 1 →
      dataSlot s.size i ≠ dataSlot s.size j := by
  intro i j hi hij hj
  rcases Nat.lt_succ_iff_lt_or_eq.mp hj with hlt | rfl
  · exact hstored.slots i j hi hij hlt
  · have hne := hfree (i - s.popped.length) (by omega)
    rwa [Nat.add_sub_cancel' hi, hstored.putIndex, dataSlot_mod] at hne

theorem Stored.isFull_iff (hfree : s.SlotFree) :
    s.isFull = true ↔ s.pushed.length = s.popped.length + s.size := by
  have hle := hstored.popped.length_le
  have hheld := hstored.held_le
  have hsize := hstored.size_lt
  unfold isFull
  rw [decide_eq_true_eq]
  constructor
  · intro hfull
    rw [hstored.putIndex, hstored.getIndex] at hfull
    omega
  · intro hfull
    rcases hfree with hisFull | hslots
    · exact decide_eq_true_eq.mp hisFull
    · have hmore := sub_le_of_dataSlot_ne hstored.size_pos (hstored.slots_succ hslots)
      omega

theorem Stored.isEmpty_iff : s.isEmpty = true ↔ s.pushed.length = s.popped.length := by
  have hle := hstored.popped.length_le
  have hheld := hstored.held_le
  have hsize := hstored.size_lt
  unfold isEmpty
  rw [decide_eq_true_eq, hstored.putIndex, hstored.getIndex]
  omega

theorem Stored.put (hfree : ∀ k < s.pushed.length - s.popped.length,
      dataSlot s.size (s.popped.length + k) ≠ dataSlot s.size s.putIndex) :
    { s with
      queue := update s.queue (s.putIndex % s.size) item
      putIndex := inc16 s.putIndex
      result := some rtEok
      pushed := s.pushed ++ [item] }.Stored where
  size_pos := hstored.size_pos
  size_lt := hstored.size_lt
  getIndex := hstored.getIndex
  putIndex := by
    have hput := hstored.putIndex
    simp only [inc16, hput, List.length_append, List.length_singleton]
    omega
  popped := hstored.popped.trans (List.prefix_append _ _)
  slots := by
    rw [List.length_append, List.length_singleton]
    exact hstored.slots_succ hfree
  content := by
    intro i hi hlt
    have hslot : s.putIndex % s.size = dataSlot s.size s.pushed.length := by
      rw [hstored.putIndex, dataSlot]
    rw [List.length_append, List.length_singleton] at hlt
    change update s.queue (s.putIndex % s.size) item (dataSlot s.size i) = _
    rw [hslot]
    rcases Nat.lt_succ_iff_lt_or_eq.mp hlt with hold | rfl
    · rw [update_of_ne (hstored.slots_succ hfree i _ hi hold (Nat.lt_succ_self _)),
        hstored.content i hi hold]
      exact (List.getElem_append_left hold).symm
    · rw [update_self]
      simp

theorem Stored.take (hheld : s.popped.length < s.pushed.length) : { s with
      getIndex := inc16 s.getIndex
      result := some rtEok
      popped := s.popped ++ [s.queue (s.getIndex % s.size)] }.Stored where
  size_pos := hstored.size_pos
  size_lt := hstored.size_lt
  getIndex := by
    have hget := hstored.getIndex
    simp only [inc16, hget, List.length_append, List.length_singleton]
    omega
  putIndex := hstored.putIndex
  popped := by
    have hcontent := hstored.content s.popped.length le_rfl hheld
    rw [hstored.getIndex]
    change s.popped ++ [s.queue (dataSlot s.size s.popped.length)] <+: s.pushed
    rw [hcontent]
    exact isPrefix_snoc_getElem hstored.popped hheld
  slots := by
    rw [List.length_append, List.length_singleton]
    intro i j hi hij hj
    exact hstored.slots i j (by omega) hij hj
  content := by
    rw [List.length_append, List.length_singleton]
    intro i hi hlt
    exact hstored.content i (by omega) hlt

theorem Stored.push (hfree : s.SlotFree) : (s.rtDataQueuePush t item timeout).Stored := by
  unfold rtDataQueuePush
  split
  · split
    · exact hstored.congr rfl rfl rfl rfl rfl rfl
    · exact hstored.congr rfl rfl rfl rfl rfl rfl
  next hroom =>
    have hslots := hfree.resolve_left hroom
    exact (hstored.put hslots).resumeFirst _

theorem Stored.pop : (s.rtDataQueuePop t timeout).Stored := by
  unfold rtDataQueuePop
  split
  · split
    · exact hstored.congr rfl rfl rfl rfl rfl rfl
    · exact hstored.congr rfl rfl rfl rfl rfl rfl
  next hsome =>
    have hle := hstored.popped.length_le
    have hne : s.pushed.length ≠ s.popped.length := fun heq => hsome (hstored.isEmpty_iff.mpr heq)
    have htaken := hstored.take (by omega)
    dsimp only
    split
    · exact htaken.resumeFirst _
    · exact htaken

end

end Steps

end DataQueue

def DataQueue.PushesFree (s : DataQueue) : DataOp → Prop
  | .push _ _ _ => s.SlotFree
  | .proceed t =>
    match s.call t with
    | some (.push _ _) => (s.thread t).error = rtEok → s.SlotFree
    | _ => True
  | _ => True

instance (s : DataQueue) (op : DataOp) : Decidable (s.PushesFree op) := by
  cases op with
  | push t item timeout => exact inferInstanceAs (Decidable s.SlotFree)
  | pop t timeout => exact isTrue trivial
  | expire t => exact isTrue trivial
  | proceed t =>
    unfold DataQueue.PushesFree
    dsimp only
    split
    · exact inferInstance
    · exact isTrue trivial

namespace DataQueue

section Runs

variable {s s' : DataQueue} {op : DataOp} {t : Tid}

theorem Initial.stored (hinit : s.Initial) : s.Stored where
  size_pos := hinit.size_pos
  size_lt := hinit.size_lt
  getIndex := by rw [hinit.getIndex, hinit.popped]; rfl
  putIndex := by rw [hinit.putIndex, hinit.pushed]; rfl
  popped := by rw [hinit.popped, hinit.pushed]
  slots := by
    intro i j _ _ hj
    rw [hinit.pushed] at hj
    exact absurd hj (Nat.not_lt_zero j)
  content := by
    intro i _ hi
    rw [hinit.pushed] at hi
    exact absurd hi (Nat.not_lt_zero i)

theorem Stored.proceed (hstored : s.Stored) (hfree : s.PushesFree (.proceed t))
    (hexec : s.proceed t = some s') : s'.Stored := by
  unfold DataQueue.proceed at hexec
  cases hcall : s.call t with
  | none => simp [hcall] at hexec
  | some call =>
    simp only [PushesFree, hcall] at hfree
    simp only [hcall, Option.map_some, Option.some.injEq] at hexec
    subst hexec
    have hidle : { s with call := update s.call t none }.Stored :=
      hstored.congr rfl rfl rfl rfl rfl rfl
    split
    · exact hidle.congr rfl rfl rfl rfl rfl rfl
    next herror =>
      cases call with
      | push item timeout => exact hidle.push (hfree (not_not.mp herror))
      | pop timeout => exact hidle.pop

theorem Stored.exec (hstored : s.Stored) (hfree : s.PushesFree op)
    (hexec : s.exec op = some s') : s'.Stored := by
  cases op with
  | push t item timeout =>
    simp only [DataQueue.exec, Option.ite_none_right_eq_some, Option.some.injEq] at hexec
    obtain ⟨-, rfl⟩ := hexec
    exact hstored.push hfree
  | pop t timeout =>
    simp only [DataQueue.exec, Option.ite_none_right_eq_some, Option.some.injEq] at hexec
    obtain ⟨-, rfl⟩ := hexec
    exact hstored.pop
  | proceed t =>
    simp only [DataQueue.exec, Option.ite_none_right_eq_some] at hexec
    exact hstored.proceed hfree hexec.2
  | expire t =>
    simp only [DataQueue.exec, Option.ite_none_right_eq_some, Option.some.injEq] at hexec
    obtain ⟨-, rfl⟩ := hexec
    exact hstored.congr rfl rfl rfl rfl rfl rfl

theorem Stored.fifo (hstored : s.Stored) : s.Fifo where
  held_le := by
    have hheld := hstored.held_le
    omega
  popped := hstored.popped
  pushFails := by
    intro hfree t item
    rw [← hstored.isFull_iff hfree]
    unfold rtDataQueuePush
    split
    next hfull => simp [hfull]
    next hroom => simp [hroom, rtEok, rtEtimeout]
  popFails := by
    intro t
    rw [← hstored.isEmpty_iff]
    unfold rtDataQueuePop
    split
    next hnone => simp [hnone]
    next hsome =>
      dsimp only
      split
      · simp [hsome, rtEok, rtEtimeout]
      · simp [hsome, rtEok, rtEtimeout]

/-- In every run whose pushes write free slots, the queue is a bounded FIFO. -/
theorem reachable_fifo (hreach : dataQueueMachine.Reachable DataQueue.PushesFree s) : s.Fifo := by
  have hstored : s.Stored := by
    refine hreach.invariant DataQueue.Stored (fun _ hinit => Initial.stored hinit) ?_
    intro before op after hbefore hfree hexec
    exact hbefore.exec hfree hexec
  exact hstored.fifo

end Runs

def idleItem : DataItem := ⟨0, 0⟩

def cycled (n : Nat) : DataQueue where
  size := 3
  lwm := 1
  getIndex := n % 65536
  putIndex := n % 65536
  queue := fun _ => idleItem
  suspendedPushList := []
  suspendedPopList := []
  thread := fun _ => { Thread.init (.flat 1) 10 with stat := .ready }
  call := fun _ => none
  result := some rtEok
  pushed := List.replicate n idleItem
  popped := List.replicate n idleItem

theorem cycled_zero_initial : (cycled 0).Initial := by
  constructor <;> simp [cycled]

def fifoRun : List DataOp :=
  [.pop 1 (-1), .push 2 ⟨4, 8⟩ 0, .proceed 1, .push 2 ⟨16, 8⟩ 5, .push 2 ⟨32, 8⟩ 0]

theorem reachable_fifo_fifoRun :
    ∃ s, dataQueueMachine.Reachable DataQueue.PushesFree s ∧ s.popped = [⟨4, 8⟩] ∧
      s.pushed = [⟨4, 8⟩, ⟨16, 8⟩, ⟨32, 8⟩] ∧ s.Fifo := by
  have hrun : (dataQueueMachine.run DataQueue.PushesFree (cycled 0) fifoRun).map
      (fun s => (s.popped, s.pushed)) = some ([⟨4, 8⟩], [⟨4, 8⟩, ⟨16, 8⟩, ⟨32, 8⟩]) := by
    decide +kernel
  obtain ⟨s, hreach, hend⟩ := Machine.exists_reachable_of_run cycled_zero_initial hrun
  obtain ⟨hpopped, hpushed⟩ := Prod.mk.inj hend
  exact ⟨s, hreach, hpopped, hpushed, reachable_fifo hreach⟩

def cycledPush (n : Nat) (item : DataItem) : DataQueue :=
  { cycled n with
    queue := update (fun _ => idleItem) (n % 65536 % 3) item
    putIndex := inc16 (n % 65536)
    pushed := List.replicate n idleItem ++ [item] }

theorem cycled_exec_push (n : Nat) (item : DataItem) :
    dataQueueMachine.exec (cycled n) (.push 1 item 0) = some (cycledPush n item) := by
  have hroom : (cycled n).isFull = false := by simp [cycled, isFull]
  simp only [dataQueueMachine, exec, canCall, true_or, if_true, rtDataQueuePush, hroom,
    Bool.false_eq_true, if_false]
  rfl

theorem cycledPush_exec_pop (n : Nat) :
    dataQueueMachine.exec (cycledPush n idleItem) (.pop 1 0) = some (cycled (n + 1)) := by
  have hne : ¬ n % 65536 = (n + 1) % 65536 := by omega
  simp [dataQueueMachine, exec, canCall, rtDataQueuePop, isEmpty, cycledPush, cycled, hne,
    resumeFirst, inc16, List.replicate_succ']

theorem cycled_reachable (n : Nat) : dataQueueMachine.Reachable (fun _ _ => True) (cycled n) := by
  induction n with
  | zero => exact .start cycled_zero_initial
  | succ n ih =>
    exact (ih.step trivial (cycled_exec_push n idleItem)).step trivial (cycledPush_exec_pop n)

def overwritten (items : List DataItem) : DataQueue :=
  { cycled 0 with
    getIndex := 65535
    putIndex := 1
    queue := update (update (fun _ => idleItem) 0 ⟨4, 8⟩) 0 ⟨16, 8⟩
    pushed := items ++ [⟨4, 8⟩] ++ [⟨16, 8⟩]
    popped := items }

theorem overwritten_reachable :
    dataQueueMachine.Reachable (fun _ _ => True)
      (overwritten (List.replicate 65535 idleItem)) := by
  have hfirst := (cycled_reachable 65535).step trivial (cycled_exec_push 65535 ⟨4, 8⟩)
  have hsecond : dataQueueMachine.exec (cycledPush 65535 ⟨4, 8⟩) (.push 1 ⟨16, 8⟩ 0) =
      some (overwritten (List.replicate 65535 idleItem)) := by
    unfold cycledPush cycled overwritten
    generalize List.replicate 65535 idleItem = items
    rfl
  exact hfirst.step trivial hsecond

theorem overwritten_exec_pop (items : List DataItem) : ∃ s,
    dataQueueMachine.exec (overwritten items) (.pop 1 0) = some s ∧
      s.pushed = items ++ [⟨4, 8⟩] ++ [⟨16, 8⟩] ∧ s.popped = items ++ [⟨16, 8⟩] ∧ s.size = 3 := by
  refine ⟨(overwritten items).rtDataQueuePop 1 0, rfl, ?_⟩
  simp [rtDataQueuePop, overwritten, cycled, isEmpty, inc16, resumeFirst]

theorem fifo_fails_after_wrap :
    ∃ s, dataQueueMachine.Reachable (fun _ _ => True) s ∧ s.size = 3 ∧ ¬ s.Fifo := by
  obtain ⟨s, hexec, hpushed, hpopped, hsize⟩ :=
    overwritten_exec_pop (List.replicate 65535 idleItem)
  refine ⟨s, overwritten_reachable.step trivial hexec, hsize, fun hfifo => ?_⟩
  have hle := hfifo.popped
  rw [hpushed, hpopped, List.append_assoc, List.prefix_append_right_inj] at hle
  simp at hle

end DataQueue

end RtThread.Driver
