import RtThread.Kernel.Align
import RtThread.Lib.RingOverwrite
import RtThread.Lib.Transition

namespace RtThread.Serial

open RtThread.Lib

/-! `struct rt_serial_rx_fifo` of `serial.c`.  The buffer of `config.bufsz` bytes is where the open
call has put it; a `length` is a word as the comparison with `rt_size_t` takes it. -/

structure RxFifo where
  buffer : Nat → UInt8
  putIndex : Nat
  getIndex : Nat
  isFull : Bool

def add16 (a b : Nat) : Nat := (a + b) % 65536

namespace RxFifo

def opened : RxFifo where
  buffer := fun _ => 0
  putIndex := 0
  getIndex := 0
  isFull := false

def receive (bufsz : Nat) (ch : UInt8) (fifo : RxFifo) : RxFifo :=
  let fifo := { fifo with
    buffer := Function.update fifo.buffer fifo.putIndex ch
    putIndex := add16 fifo.putIndex 1 }
  let fifo := if fifo.putIndex ≥ bufsz then { fifo with putIndex := 0 } else fifo
  -- if the next position is read index, discard this 'read char'
  if fifo.putIndex = fifo.getIndex then
    let fifo := { fifo with getIndex := add16 fifo.getIndex 1, isFull := true }
    if fifo.getIndex ≥ bufsz then { fifo with getIndex := 0 } else fifo
  else fifo

/-- What `rt_hw_serial_isr` passes to `rx_indicate`, if it is not zero. -/
def rxLength (bufsz : Nat) (fifo : RxFifo) : Nat :=
  if fifo.putIndex ≥ fifo.getIndex then fifo.putIndex - fifo.getIndex
  else bufsz - (fifo.getIndex - fifo.putIndex)

/-- One turn of the loop of `_serial_int_rx`; `none` if there's no data. -/
def takeChar (bufsz : Nat) (fifo : RxFifo) : Option (UInt8 × RxFifo) :=
  if fifo.getIndex = fifo.putIndex ∧ fifo.isFull = false then none
  else
    let ch := fifo.buffer fifo.getIndex
    let fifo := { fifo with getIndex := add16 fifo.getIndex 1 }
    let fifo := if fifo.getIndex ≥ bufsz then { fifo with getIndex := 0 } else fifo
    some (ch, if fifo.isFull then { fifo with isFull := false } else fifo)

/-- `_serial_int_rx`, if nothing is received meanwhile; the bytes stored at `data`. -/
def serialIntRx (bufsz : Nat) : Nat → RxFifo → List UInt8 × RxFifo
  | 0, fifo => ([], fifo)
  | length + 1, fifo =>
    match fifo.takeChar bufsz with
    | none => ([], fifo)
    | some (ch, fifo) =>
      let (data, fifo) := serialIntRx bufsz length fifo
      (ch :: data, fifo)

def calcRecvedLen (bufsz : Nat) (fifo : RxFifo) : Nat :=
  if fifo.putIndex = fifo.getIndex then
    if fifo.isFull = false then 0 else bufsz
  else if fifo.putIndex > fifo.getIndex then fifo.putIndex - fifo.getIndex
  else bufsz - (fifo.getIndex - fifo.putIndex)

def updateGetIndex (bufsz len : Nat) (fifo : RxFifo) : Option RxFifo :=
  if len ≤ fifo.calcRecvedLen bufsz then
    let fifo := if fifo.isFull ∧ len ≠ 0 then { fifo with isFull := false } else fifo
    let fifo := { fifo with getIndex := add16 fifo.getIndex len }
    some (if fifo.getIndex ≥ bufsz then { fifo with getIndex := fifo.getIndex % bufsz } else fifo)
  else none

def updatePutIndex (bufsz len : Nat) (fifo : RxFifo) : RxFifo :=
  let fifo :=
    if fifo.getIndex ≤ fifo.putIndex then
      let fifo := { fifo with putIndex := add16 fifo.putIndex len }
      if fifo.putIndex ≥ bufsz then
        let fifo := { fifo with putIndex := fifo.putIndex % bufsz }
        if fifo.putIndex ≥ fifo.getIndex then { fifo with isFull := true } else fifo
      else fifo
    else
      let fifo := { fifo with putIndex := add16 fifo.putIndex len }
      if fifo.putIndex ≥ fifo.getIndex then
        let fifo :=
          if fifo.putIndex ≥ bufsz then { fifo with putIndex := fifo.putIndex % bufsz } else fifo
        { fifo with isFull := true }
      else fifo
  let fifo := if fifo.isFull then { fifo with getIndex := fifo.putIndex } else fifo
  if fifo.getIndex ≥ bufsz then { fifo with getIndex := 0 } else fifo

/-- `RT_SERIAL_EVENT_RX_DMADONE`, when the controller has stored the bytes from `put_index` on. -/
def dmaDone (bufsz : Nat) (bytes : List UInt8) (fifo : RxFifo) : RxFifo :=
  { fifo with buffer := storeRing fifo.buffer bufsz fifo.putIndex bytes }.updatePutIndex bufsz
    bytes.length

def serialDmaRx (bufsz length : Nat) (fifo : RxFifo) : Option (List UInt8 × RxFifo) :=
  let fifoRecvedLen := fifo.calcRecvedLen bufsz
  let recvLen := if length < fifoRecvedLen then length else fifoRecvedLen
  let data :=
    if fifo.getIndex + recvLen < bufsz then loadCells fifo.buffer fifo.getIndex recvLen
    else
      loadCells fifo.buffer fifo.getIndex (bufsz - fifo.getIndex) ++
        loadCells fifo.buffer 0 (recvLen + fifo.getIndex - bufsz)
  (fifo.updateGetIndex bufsz recvLen).map (data, ·)

end RxFifo

inductive IntOp
  | receive (ch : UInt8)
  | turn
  | read (length : Nat)
  deriving DecidableEq

def intRxMachine (bufsz : Nat) : Machine RxFifo IntOp where
  init fifo := fifo = RxFifo.opened
  exec fifo
    | .receive ch => some (fifo.receive bufsz ch)
    | .turn =>
      match fifo.takeChar bufsz with
      | none => some fifo
      | some (_, fifo) => some fifo
    | .read length => some (fifo.serialIntRx bufsz length).2

inductive DmaOp
  | done (bytes : List UInt8)
  | read (length : Nat)
  deriving DecidableEq

def dmaRxMachine (bufsz : Nat) : Machine RxFifo DmaOp where
  init fifo := fifo = RxFifo.opened
  exec fifo
    | .done bytes =>
      if 1 ≤ bytes.length ∧ bytes.length ≤ bufsz then some (fifo.dmaDone bufsz bytes) else none
    | .read length => (fifo.serialDmaRx bufsz length).map Prod.snd

end RtThread.Serial
