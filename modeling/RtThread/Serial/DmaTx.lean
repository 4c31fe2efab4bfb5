import RtThread.Driver.DataQueueFifo

namespace RtThread.Serial

open RtThread.Driver RtThread.Lib

/-! `_serial_dma_tx` and the `TX_DMADONE` branch of `rt_hw_serial_isr`.  A buffer is a data item of
`dataqueue.c`; threads and the interrupt, which may come to different CPUs, interleave at
their sections. -/

inductive TxCall
  /-- in `rt_data_queue_push` -/
  | pushing
  /-- before the section that looks at `activated` -/
  | pushed (item : DataItem)
  /-- before `dma_transmit` -/
  | starting (item : DataItem)
  deriving DecidableEq

/-- How far the interrupt is; `last_data_ptr` is not set if there was nothing to pop. -/
inductive TxIsr
  | entered
  | popped (last : Option DataItem)
  | peaked (last next : Option DataItem)
  /-- before `tx_complete` -/
  | notifying (last : Option DataItem)
  deriving DecidableEq

/-- `struct rt_serial_tx_dma`, the threads, the interrupt, and the controller.

History: the transfers that were started and those that have come to an end, and the calls of
`tx_complete`. -/
structure DmaTx where
  dataQueue : DataQueue
  activated : Bool
  call : Tid → Option TxCall
  isr : Option TxIsr
  inProgress : List DataItem
  started : List DataItem
  finished : List DataItem
  completed : List (Option DataItem)

namespace DmaTx

def setCall (s : DmaTx) (t : Tid) (call : Option TxCall) : DmaTx :=
  { s with call := Function.update s.call t call }

def dmaTransmit (s : DmaTx) (item : DataItem) : DmaTx :=
  { s with inProgress := s.inProgress ++ [item], started := s.started ++ [item] }

def afterPush (s : DmaTx) (t : Tid) (item : DataItem) (dataQueue : DataQueue) : DmaTx :=
  { s with dataQueue := dataQueue }.setCall t
    (match dataQueue.result with
    | none => some .pushing
    -- the error number is set, and nothing is sent
    | some result => if result = rtEok then some (.pushed item) else none)

def waitingForever : Int := -1

def frontItem (queue : DataQueue) : Option DataItem :=
  if queue.isEmpty then none else some (queue.queue (queue.getIndex % queue.size))

def isrStep (s : DmaTx) : TxIsr → DmaTx
  | .entered =>
    { s with
      dataQueue := s.dataQueue.rtDataQueuePop 0 0
      isr := some (.popped (frontItem s.dataQueue)) }
  | .popped last => { s with isr := some (.peaked last (frontItem s.dataQueue)) }
  | .peaked last (some item) =>
    { s with activated := true, isr := some (.notifying last) }.dmaTransmit item
  | .peaked last none => { s with activated := false, isr := some (.notifying last) }
  | .notifying last => { s with completed := s.completed ++ [last], isr := none }

end DmaTx

inductive DmaTxOp
  | write (t : Tid) (item : DataItem)
  /-- a thread that was resumed goes on in `rt_data_queue_push` -/
  | proceed (t : Tid)
  | test (t : Tid)
  | transmit (t : Tid)
  /-- the controller is ready, and the interrupt comes -/
  | done (item : DataItem)
  | isr
  deriving DecidableEq

def DmaTx.exec (s : DmaTx) : DmaTxOp → Option DmaTx
  | .write t item =>
    if s.call t = none then
      (s.dataQueue.exec (.push t item waitingForever)).map (s.afterPush t item)
    else none
  | .proceed t =>
    match s.call t, s.dataQueue.call t with
    | some .pushing, some (.push item _) =>
      (s.dataQueue.exec (.proceed t)).map (s.afterPush t item)
    | _, _ => none
  | .test t =>
    match s.call t with
    | some (.pushed item) =>
      some (if s.activated then s.setCall t none
        else { s with activated := true }.setCall t (some (.starting item)))
    | _ => none
  | .transmit t =>
    match s.call t with
    | some (.starting item) => some ((s.setCall t none).dmaTransmit item)
    | _ => none
  | .done item =>
    if s.isr = none ∧ item ∈ s.inProgress then
      some { s with
        inProgress := s.inProgress.erase item
        finished := s.finished ++ [item]
        isr := some .entered }
    else none
  | .isr => s.isr.map s.isrStep

structure DmaTx.Initial (s : DmaTx) : Prop where
  dataQueue : s.dataQueue.Initial
  size : s.dataQueue.size = 8 ∧ s.dataQueue.lwm = 4
  activated : s.activated = false
  call : ∀ t, s.call t = none
  isr : s.isr = none
  inProgress : s.inProgress = []
  started : s.started = []
  finished : s.finished = []
  completed : s.completed = []

def dmaTxMachine : Machine DmaTx DmaTxOp where
  init := DmaTx.Initial
  exec := DmaTx.exec

end RtThread.Serial
