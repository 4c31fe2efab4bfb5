import Mathlib.Algebra.Order.Ring.Nat
import RtThread.Lib.ListNode
import RtThread.Lib.Transition

namespace RtThread.Device

open Function RtThread.Lib

/-! The receive queue of `can.c` with header filters, of a device that is open.  Each operation is
one section with the interrupts off; those between two sections are `reading`, `storing` and
`connecting`. -/

structure CanMsg where
  id : Nat
  ide : Bool
  rtr : Bool
  len : Nat
  hdr : Nat
  data : List UInt8
  deriving DecidableEq

structure CanConfig where
  msgboxsz : Nat
  maxhdr : Nat
  word : msgboxsz < 2 ^ 32

/-- The `rt_list_node` structures: heads, and the two in each `rt_can_msg_list`. -/
inductive CanLink
  | freelist
  | uselist
  | hdr (hdr : Nat)
  | list (node : Nat)
  | hdrlist (node : Nat)
  deriving DecidableEq

/-- `rt_list_entry`; of a head it makes no sense. -/
def CanLink.entry : CanLink → Nat
  | .list node => node
  | .hdrlist node => node
  | _ => 0

/-- The receive FIFO, the headers and the counters of a device.

`reading` are nodes that a read has taken, `storing` those that the interrupt has, with the message
to store; `connecting` are the headers whose filter is being written.  History: the numbers of
messages taken and stored, and the number each one had. -/
structure CanRx where
  links : ListNodes CanLink
  freenumbers : Nat
  owner : Nat → Option Nat
  data : Nat → CanMsg
  connected : Nat → Bool
  msgs : Nat → Nat
  rcvpkg : Nat
  dropedrcvpkg : Nat
  reading : List (Nat × CanMsg)
  storing : List (Nat × CanMsg)
  connecting : List Nat
  delivered : Nat
  arrivals : Nat
  arrival : Nat → Nat

namespace CanRx

def lessMsgs (hdr : Nat) (s : CanRx) : CanRx :=
  if s.msgs hdr = 0 then s
  else { s with msgs := update s.msgs hdr (s.msgs hdr - 1) }

def rtListRemove (link : CanLink) (s : CanRx) : CanRx := { s with links := s.links.remove link }

def clearOwner (node : Nat) (s : CanRx) : CanRx := { s with owner := update s.owner node none }

def takeMsg (node : Nat) (s : CanRx) : CanRx :=
  let s := (s.rtListRemove (.list node)).rtListRemove (.hdrlist node)
  match s.owner node with
  | none => s.clearOwner node
  | some hdr => (s.lessMsgs hdr).clearOwner node

def rtListIsempty (head : CanLink) (s : CanRx) : Bool := s.links.next head = head

/-- `rt_hw_can_isr` with `RT_CAN_EVENT_RX_IND` until it has a node, if there is one. -/
def isrTake (msg : CanMsg) (s : CanRx) : Option CanRx :=
  let s := { s with rcvpkg := (s.rcvpkg + 1) % 2 ^ 32 }
  if !s.rtListIsempty .freelist then
    let node := (s.links.next .freelist).entry
    let s := s.takeMsg node
    if s.freenumbers > 0 then
      some { s with freenumbers := s.freenumbers - 1, storing := (node, msg) :: s.storing }
    else none
  else if !s.rtListIsempty .uselist then
    let node := (s.links.next .uselist).entry
    let s := { s with dropedrcvpkg := (s.dropedrcvpkg + 1) % 2 ^ 32 }.takeMsg node
    some { s with storing := (node, msg) :: s.storing }
  else some s

def isrStore (maxhdr node : Nat) (msg : CanMsg) (s : CanRx) : Option CanRx :=
  let s :=
    { s with
      data := update s.data node msg
      storing := s.storing.erase (node, msg)
      links := s.links.insertBefore .uselist (.list node)
      arrivals := s.arrivals + 1
      arrival := update s.arrival node s.arrivals }
  if msg.hdr < maxhdr then
    if s.connected msg.hdr then
      some
        { s with
          links := s.links.insertBefore (.hdr msg.hdr) (.hdrlist node)
          owner := update s.owner node (some msg.hdr)
          msgs := update s.msgs msg.hdr ((s.msgs msg.hdr + 1) % 2 ^ 32) }
    else some s
  else none

/-- `data->hdr`, an unsigned field of 8 bits, as the caller has written it -/
def hdrField (request : Int) : Int := request % 256

/-- `_can_int_rx` for one message, until it has a node: none if there is no data for the header. -/
def canIntRx (maxhdr : Nat) (request : Int) (s : CanRx) : Option Nat × CanRx :=
  let hdr := hdrField request
  if hdr ≥ 0 ∧ hdr < maxhdr ∧ s.rtListIsempty (.hdr hdr.toNat) = false then
    let node := (s.links.next (.hdr hdr.toNat)).entry
    let s := (s.rtListRemove (.list node)).rtListRemove (.hdrlist node)
    (some node, (s.lessMsgs hdr.toNat).clearOwner node)
  else if hdr = -1 then
    if !s.rtListIsempty .uselist then
      let node := (s.links.next .uselist).entry
      (some node, s.takeMsg node)
    else (none, s)
  else (none, s)

def readTake (maxhdr : Nat) (request : Int) (s : CanRx) : CanRx :=
  match s.canIntRx maxhdr request with
  | (none, s) => s
  | (some node, s) => { s with reading := (node, s.data node) :: s.reading, delivered := s.delivered + 1 }

/-- `_can_int_rx` gives its node back. -/
def readFree (msgboxsz node : Nat) (msg : CanMsg) (s : CanRx) : Option CanRx :=
  let s :=
    { s with
      links := s.links.insertBefore .freelist (.list node)
      freenumbers := (s.freenumbers + 1) % 2 ^ 32
      reading := s.reading.erase (node, msg) }
  if s.freenumbers ≤ msgboxsz then some s else none

/-- `RT_CAN_CMD_SET_FILTER`, activating: whether the header is connected. -/
def filterCheck (hdr : Nat) (s : CanRx) : CanRx :=
  if s.connected hdr then s else { s with connecting := hdr :: s.connecting }

def filterConnect (hdr : Nat) (s : CanRx) : CanRx :=
  { s with
    connecting := s.connecting.erase hdr
    connected := update s.connected hdr true
    msgs := update s.msgs hdr 0
    links := s.links.init (.hdr hdr) }

/-- `RT_CAN_CMD_SET_FILTER`, deactivating -/
def filterDisconnect (hdr : Nat) (s : CanRx) : CanRx :=
  if s.connected hdr then
    let s :=
      { s with
        connected := update s.connected hdr false
        msgs := update s.msgs hdr 0 }
    if !s.rtListIsempty (.hdr hdr) then s.rtListRemove (s.links.next (.hdr hdr)) else s
  else s

end CanRx

inductive CanOp
  | isrTake (msg : CanMsg)
  | isrStore (node : Nat) (msg : CanMsg)
  | readTake (request : Int)
  | readFree (node : Nat) (msg : CanMsg)
  | filterCheck (hdr : Nat)
  | filterConnect (hdr : Nat)
  | filterDisconnect (hdr : Nat)
  deriving DecidableEq

/-- `rt_can_open` puts the nodes on `freelist`. -/
def CanRx.opened (cfg : CanConfig) (msg : CanMsg) : CanRx where
  links := (List.range cfg.msgboxsz).foldl (fun links node => links.insertBefore .freelist (.list node))
    ⟨id, id⟩
  freenumbers := cfg.msgboxsz
  owner _ := none
  data _ := msg
  connected _ := false
  msgs _ := 0
  rcvpkg := 0
  dropedrcvpkg := 0
  reading := []
  storing := []
  connecting := []
  delivered := 0
  arrivals := 0
  arrival _ := 0

/-- A caller asks for header -1 or a valid header, and an invalid header of a filter is skipped;
`none` is an assertion that fails. -/
def canRxMachine (cfg : CanConfig) : Machine CanRx CanOp where
  init s := ∃ msg, s = CanRx.opened cfg msg
  exec s
    | .isrTake msg => s.isrTake msg
    | .isrStore node msg =>
      if (node, msg) ∈ s.storing then s.isrStore cfg.maxhdr node msg else none
    | .readTake request =>
      if request = -1 ∨ 0 ≤ request ∧ request < cfg.maxhdr then some (s.readTake cfg.maxhdr request)
      else none
    | .readFree node msg =>
      if (node, msg) ∈ s.reading then s.readFree cfg.msgboxsz node msg else none
    | .filterCheck hdr => if hdr < cfg.maxhdr then some (s.filterCheck hdr) else some s
    | .filterConnect hdr => if hdr ∈ s.connecting then some (s.filterConnect hdr) else none
    | .filterDisconnect hdr => if hdr < cfg.maxhdr then some (s.filterDisconnect hdr) else some s

end RtThread.Device
