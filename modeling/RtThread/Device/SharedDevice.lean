import RtThread.Kernel.Align
import RtThread.Lib.Transition

namespace RtThread.Device

open RtThread.Lib

/-! `rt_device_open` and `rt_device_close` of `device.c` over the drivers of `serial.c` and `can.c`.
Allocation succeeds, and each block has a number of its own. -/

/-! The bits of `flag` and `open_flag`, words of 16 bits -/

abbrev flagStandalone : Nat := 0x008

abbrev flagActivated : Nat := 0x010

abbrev oflagOpen : Nat := 0x008

def hasFlag (word flag : Nat) : Bool := word &&& flag ≠ 0

inductive Side
  | rx
  | tx
  deriving DecidableEq

/-- `RT_DEVICE_FLAG_INT_RX`, `RT_DEVICE_FLAG_INT_TX` -/
def Side.intFlag : Side → Nat
  | .rx => 0x100
  | .tx => 0x400

/-- `RT_DEVICE_FLAG_DMA_RX`, `RT_DEVICE_FLAG_DMA_TX` -/
def Side.dmaFlag : Side → Nat
  | .rx => 0x200
  | .tx => 0x800

inductive Driver
  | serial
  | can
  deriving DecidableEq

inductive PortKind
  | fifo
  | dma
  deriving DecidableEq

/-- What `serial_rx`, `serial_tx`, `can_rx` or `can_tx` points to; a transmit structure for DMA has
the array of its data queue. -/
structure Port where
  block : Nat
  kind : PortKind
  queue : Option Nat
  deriving DecidableEq

/-- A device, its driver, and the allocator.

History: whether interrupt mode was asked for, and the blocks allocated and freed, since the device
was last closed. -/
structure SharedDevice where
  driver : Driver
  bufsz : Nat
  flag : Nat
  openFlag : Nat
  refCount : Nat
  port : Side → Option Port
  hdr : Option Nat
  nextBlock : Nat
  live : List Nat
  asked : Side → Bool
  session : List Nat
  freed : List Nat

namespace SharedDevice

def rtMalloc (s : SharedDevice) : Nat × SharedDevice :=
  (s.nextBlock,
    { s with
      nextBlock := s.nextBlock + 1
      live := s.nextBlock :: s.live
      session := s.nextBlock :: s.session })

def rtFree (block : Nat) (s : SharedDevice) : SharedDevice :=
  { s with live := s.live.erase block, freed := block :: s.freed }

def setPort (side : Side) (port : Option Port) (s : SharedDevice) : SharedDevice :=
  { s with port := Function.update s.port side port }

def orFlag (flag : Nat) (s : SharedDevice) : SharedDevice := { s with openFlag := s.openFlag ||| flag }

def clearFlag (flag : Nat) (s : SharedDevice) : SharedDevice :=
  { s with openFlag := s.openFlag &&& (0xffff - flag) }

/-- The structure for DMA: of receive it is a FIFO if there is a buffer, and transmit has a data
queue. -/
def mallocDma (side : Side) (s : SharedDevice) : Port × SharedDevice :=
  let (block, s) := s.rtMalloc
  match side with
  | .rx => (⟨block, if s.bufsz = 0 then .dma else .fifo, none⟩, s)
  | .tx =>
    let (queue, s) := s.rtMalloc
    (⟨block, .dma, some queue⟩, s)

def serialOpenPort (oflag : Nat) (side : Side) (s : SharedDevice) : SharedDevice :=
  if s.port side = none then
    if hasFlag oflag side.dmaFlag then
      let (port, s) := s.mallocDma side
      (s.setPort side (some port)).orFlag side.dmaFlag
    else if hasFlag oflag side.intFlag then
      let (block, s) := s.rtMalloc
      (s.setPort side (some ⟨block, .fifo, none⟩)).orFlag side.intFlag
    else s.setPort side none
  else if hasFlag oflag side.dmaFlag then s.orFlag side.dmaFlag
  else if hasFlag oflag side.intFlag then s.orFlag side.intFlag
  else s

/-- Whether `rt_serial_open` finds the flags in `dev->flag`. -/
def serialSupports (oflag : Nat) (s : SharedDevice) : Bool :=
  [Side.rx.dmaFlag, Side.tx.dmaFlag, Side.rx.intFlag, Side.tx.intFlag].all fun flag =>
    !hasFlag oflag flag || hasFlag s.flag flag

def streamFlag : Nat := 0x040

def serialOpen (oflag : Nat) (s : SharedDevice) : SharedDevice :=
  let stream := if hasFlag oflag streamFlag || hasFlag s.openFlag streamFlag then streamFlag else 0
  let s := { s with openFlag := oflag &&& 0xff }
  let s := s.serialOpenPort oflag .rx
  let s := s.serialOpenPort oflag .tx
  s.orFlag stream

def serialClosePort (side : Side) (s : SharedDevice) : Option SharedDevice :=
  if hasFlag s.openFlag side.intFlag then
    (s.port side).map fun port => ((s.rtFree port.block).setPort side none).clearFlag side.intFlag
  else if hasFlag s.openFlag side.dmaFlag then
    (s.port side).map fun port => ((s.rtFree port.block).setPort side none).clearFlag side.dmaFlag
  else some s

def serialClose (s : SharedDevice) : Option SharedDevice :=
  if s.refCount > 1 then some s
  else do
    let s ← s.serialClosePort .rx
    s.serialClosePort .tx

def canOpenPort (oflag : Nat) (side : Side) (s : SharedDevice) : SharedDevice :=
  if s.port side = none then
    if hasFlag oflag side.intFlag then
      let (block, s) := s.rtMalloc
      (s.setPort side (some ⟨block, .fifo, none⟩)).orFlag side.intFlag
    else s
  else s

def canOpen (oflag : Nat) (s : SharedDevice) : SharedDevice :=
  let s := { s with openFlag := oflag &&& 0xff }
  let s := s.canOpenPort oflag .rx
  let s := s.canOpenPort oflag .tx
  if s.hdr = none then
    let (block, s) := s.rtMalloc
    { s with hdr := some block }
  else s

/-- `rt_can_close` for one side, with its assertion; the pointer stays. -/
def canClosePort (side : Side) (s : SharedDevice) : Option SharedDevice :=
  if hasFlag s.openFlag side.intFlag then
    (s.port side).map fun port => (s.rtFree port.block).clearFlag side.intFlag
  else some s

def closeHdr (s : SharedDevice) : SharedDevice :=
  match s.hdr with
  | none => s
  | some block => { s.rtFree block with hdr := none }

def canClose (s : SharedDevice) : Option SharedDevice :=
  if s.refCount > 1 then some s
  else do
    let s ← s.closeHdr.canClosePort .rx
    s.canClosePort .tx

def accepts (oflag : Nat) (s : SharedDevice) : Bool :=
  match s.driver with
  | .serial => s.serialSupports oflag
  | .can => true

def deviceOpen (oflag : Nat) (s : SharedDevice) : SharedDevice :=
  match s.driver with
  | .serial => s.serialOpen oflag
  | .can => s.canOpen oflag

def deviceClose (s : SharedDevice) : Option SharedDevice :=
  match s.driver with
  | .serial => s.serialClose
  | .can => s.canClose

def startSession (s : SharedDevice) : SharedDevice :=
  if s.refCount = 0 then { s with asked := fun _ => false, session := [], freed := [] } else s

def ask (oflag : Nat) (s : SharedDevice) : SharedDevice :=
  { s with asked := fun side => s.asked side || hasFlag oflag side.intFlag }

/-- `rt_device_open`; `initResult` is what the driver's configuration gives.  `none` is an
assertion that fails. -/
def rtDeviceOpen (oflag : Nat) (initResult : Int) (s : SharedDevice) : Option SharedDevice :=
  let s := if hasFlag s.flag flagActivated then s else { s with port := fun _ => none }
  if !hasFlag s.flag flagActivated && initResult ≠ 0 then some s
  else
    let s := { s with flag := s.flag ||| flagActivated }
    if hasFlag s.flag flagStandalone && hasFlag s.openFlag oflagOpen then some s
    else if s.accepts oflag then
      let s := (((s.startSession.ask oflag).deviceOpen oflag).orFlag oflagOpen)
      let s := { s with refCount := (s.refCount + 1) % 256 }
      if s.refCount ≠ 0 then some s else none
    else some s

def rtDeviceClose (s : SharedDevice) : Option SharedDevice :=
  if s.refCount = 0 then some s
  else
    let s := { s with refCount := s.refCount - 1 }
    if s.refCount ≠ 0 then some s
    else s.deviceClose.map fun s => { s with openFlag := 0 }

end SharedDevice

inductive DeviceOp
  | openWith (oflag : Nat) (initResult : Int)
  | close
  deriving DecidableEq

structure SharedDevice.Initial (s : SharedDevice) : Prop where
  standalone : hasFlag s.flag flagStandalone = false
  openFlag : s.openFlag = 0
  refCount : s.refCount = 0
  port : ∀ side, s.port side = none
  hdr : s.hdr = none
  fresh : ∀ block ∈ s.live, block < s.nextBlock
  session : s.session = []
  freed : s.freed = []

def sharedDeviceMachine : Machine SharedDevice DeviceOp where
  init := SharedDevice.Initial
  exec s
    | .openWith oflag initResult => s.rtDeviceOpen oflag initResult
    | .close => s.rtDeviceClose

end RtThread.Device
