import Mathlib.Data.List.Nodup
import Mathlib.Data.List.Perm.Basic
import RtThread.Device.SharedDevice

namespace RtThread.Device

open Function RtThread.Lib SharedDevice

section Flags

variable {a b flag : Nat}

theorem hasFlag_or (a b flag : Nat) : hasFlag (a ||| b) flag = (hasFlag a flag || hasFlag b flag) := by
  unfold hasFlag
  rw [Nat.and_or_distrib_right, Bool.eq_iff_iff]
  simp only [ne_eq, Nat.or_eq_zero_iff, decide_eq_true_eq, Bool.or_eq_true, not_and_or]

theorem hasFlag_and (a mask flag : Nat) : hasFlag (a &&& mask) flag = hasFlag a (mask &&& flag) := by
  rw [hasFlag, hasFlag, Nat.and_assoc]

theorem hasFlag_zero_right (a : Nat) : hasFlag a 0 = false := by
  rw [hasFlag, Nat.and_zero]
  rfl

theorem hasFlag_low (oflag : Nat) (side : Side) : hasFlag (oflag &&& 0xff) side.intFlag = false ∧
    hasFlag (oflag &&& 0xff) side.dmaFlag = false := by
  cases side <;>
  · rw [hasFlag_and, hasFlag_and]
    exact ⟨hasFlag_zero_right _, hasFlag_zero_right _⟩

theorem hasFlag_other {side other : Side} (hne : other ≠ side) (word : Nat) :
    (hasFlag (word &&& (0xffff - side.intFlag)) other.intFlag = hasFlag word other.intFlag ∧
      hasFlag (word &&& (0xffff - side.intFlag)) other.dmaFlag = hasFlag word other.dmaFlag) ∧
    (hasFlag (word &&& (0xffff - side.dmaFlag)) other.intFlag = hasFlag word other.intFlag ∧
      hasFlag (word &&& (0xffff - side.dmaFlag)) other.dmaFlag = hasFlag word other.dmaFlag) := by
  cases side <;> cases other <;>
    first
    | exact absurd rfl hne
    | simp only [hasFlag_and]
      exact ⟨⟨rfl, rfl⟩, rfl, rfl⟩

end Flags

namespace SharedDevice

structure Agrees (s : SharedDevice) : Prop where
  asked : ∀ side, s.refCount ≠ 0 → s.asked side = true →
    hasFlag s.openFlag side.intFlag = true ∧
      ∃ port, s.port side = some port ∧ port.kind = .fifo ∧ port.block ∈ s.live
  closed : s.refCount = 0 →
    (∀ side, s.port side = none) ∧ s.hdr = none ∧ ∀ block ∈ s.session, s.freed.count block = 1

def Serves (s : SharedDevice) (oflag : Nat) (side : Side) : Prop :=
  hasFlag oflag side.intFlag = true ∧
    match s.driver with
    | .serial => hasFlag oflag side.dmaFlag = false ∧
        ∀ port, s.port side = some port → port.kind = .fifo
    | .can => s.port side = none

def Returns (s : SharedDevice) (side : Side) (port : Port) : Prop :=
  match s.driver with
  | .serial => port.queue = none ∧
      (hasFlag s.openFlag side.intFlag = true ∨ hasFlag s.openFlag side.dmaFlag = true)
  | .can => False

def Proper (s : SharedDevice) : DeviceOp → Prop
  | .openWith oflag initResult =>
    (hasFlag s.flag flagActivated = true ∨ initResult = 0) → s.accepts oflag = true →
    ∀ side, (s.refCount ≠ 0 ∧ s.asked side = true ∨ hasFlag oflag side.intFlag = true) →
      s.Serves oflag side
  | .close => s.refCount = 1 → ∀ side port, s.port side = some port → s.Returns side port

def portBlocks : Option Port → List Nat
  | none => []
  | some port => port.block :: port.queue.toList

def owned (s : SharedDevice) : List Nat :=
  s.hdr.toList ++ portBlocks (s.port .rx) ++ portBlocks (s.port .tx)

structure Owns (s : SharedDevice) : Prop where
  nodup : s.owned.Nodup
  live : ∀ block ∈ s.owned, block ∈ s.live
  session : ∀ block, block ∈ s.session ↔ block ∈ s.owned
  freed : s.freed = []
  fresh : ∀ block ∈ s.live, block < s.nextBlock

/-- `fresh` are new blocks, and pointers lead to them. -/
structure Grown (s s' : SharedDevice) (fresh : List Nat) : Prop where
  nodup : fresh.Nodup
  range : ∀ block ∈ fresh, s.nextBlock ≤ block ∧ block < s'.nextBlock
  next : s.nextBlock ≤ s'.nextBlock
  live : s'.live = fresh ++ s.live
  session : s'.session = fresh ++ s.session
  freed : s'.freed = s.freed
  owned : s'.owned.Perm (fresh ++ s.owned)

variable {s s' s'' : SharedDevice} {side : Side} {oflag : Nat}

theorem Owns.grown (howns : s.Owns) {fresh : List Nat} (hgrown : Grown s s' fresh) : s'.Owns := by
  refine ⟨?_, fun block hblock => ?_, fun block => ?_, hgrown.freed.trans howns.freed,
    fun block hblock => ?_⟩
  · rw [hgrown.owned.nodup_iff, List.nodup_append]
    refine ⟨hgrown.nodup, howns.nodup, fun x hx y hy heq => ?_⟩
    have hlow := (hgrown.range x hx).1
    have hhigh := howns.fresh y (howns.live y hy)
    omega
  · rw [hgrown.live, List.mem_append]
    exact (List.mem_append.mp (hgrown.owned.mem_iff.mp hblock)).imp_right (howns.live block)
  · rw [hgrown.session, hgrown.owned.mem_iff, List.mem_append, List.mem_append, howns.session]
  · rw [hgrown.live, List.mem_append] at hblock
    rcases hblock with h | h
    · exact (hgrown.range block h).2
    · have hhigh := howns.fresh block h
      have hnext := hgrown.next
      omega

theorem Grown.orFlag (s : SharedDevice) (flag : Nat) : Grown s (s.orFlag flag) [] :=
  ⟨.nil, fun _ h => (by cases h), Nat.le_refl _, rfl, rfl, rfl, .refl _⟩

theorem Grown.trans {fresh fresh' : List Nat} (hfirst : Grown s s' fresh)
    (hsecond : Grown s' s'' fresh') : Grown s s'' (fresh' ++ fresh) := by
  refine ⟨List.nodup_append.mpr ⟨hsecond.nodup, hfirst.nodup, fun x hx y hy heq => ?_⟩,
    fun block hblock => ?_, Nat.le_trans hfirst.next hsecond.next, ?_, ?_,
    hsecond.freed.trans hfirst.freed, ?_⟩
  · have hlow := (hsecond.range x hx).1
    have hhigh := (hfirst.range y hy).2
    omega
  · have hnext := hfirst.next
    have hnext' := hsecond.next
    rcases List.mem_append.mp hblock with h | h
    · have hrange := hsecond.range block h
      omega
    · have hrange := hfirst.range block h
      omega
  · rw [hsecond.live, hfirst.live, List.append_assoc]
  · rw [hsecond.session, hfirst.session, List.append_assoc]
  · rw [List.append_assoc]
    exact hsecond.owned.trans (hfirst.owned.append_left _)

theorem owned_fresh (s s' : SharedDevice) (hnone : s.port side = none) (port : Port)
    (hport : s'.port = update s.port side (some port)) (hhdr : s'.hdr = s.hdr) :
    s'.owned.Perm (portBlocks (some port) ++ s.owned) := by
  unfold owned
  rw [hport, hhdr]
  cases side with
  | rx =>
    rw [update_self, update_of_ne (by decide), hnone, portBlocks.eq_def none,
      List.append_nil, List.append_assoc]
    exact List.perm_append_comm_assoc ..
  | tx =>
    rw [update_self, update_of_ne (by decide), hnone, portBlocks.eq_def none, List.append_nil]
    exact List.perm_append_comm

def portPart (s : SharedDevice) (oflag : Nat) (side : Side) : Nat :=
  match s.driver with
  | .serial =>
    if hasFlag oflag side.dmaFlag then side.dmaFlag
    else if hasFlag oflag side.intFlag then side.intFlag
    else 0
  | .can => if s.port side = none ∧ hasFlag oflag side.intFlag then side.intFlag else 0

structure PortOpened (s s' : SharedDevice) (oflag : Nat) (side : Side) : Prop where
  grown : ∃ fresh, Grown s s' fresh
  driver : s'.driver = s.driver
  flag : s'.flag = s.flag
  refCount : s'.refCount = s.refCount
  asked : s'.asked = s.asked
  hdr : s'.hdr = s.hdr
  openFlag : s'.openFlag = s.openFlag ||| s.portPart oflag side
  other : ∀ other, other ≠ side → s'.port other = s.port other
  keeps : ∀ port, s.port side = some port → s'.port side = some port
  stays : s.port side = none → s.portPart oflag side = 0 → s'.port side = none
  made : s.port side = none → s.portPart oflag side ≠ 0 → ∃ port, s'.port side = some port ∧
    (s.portPart oflag side = side.intFlag → port.kind = .fifo)

theorem intFlag_ne (side : Side) : side.intFlag ≠ 0 ∧ side.dmaFlag ≠ 0 ∧
    side.dmaFlag ≠ side.intFlag := by cases side <;> decide

theorem grown_malloc (hnone : s.port side = none) (kind : PortKind) (flag : Nat) :
    Grown s (((s.rtMalloc.2).setPort side (some ⟨s.nextBlock, kind, none⟩)).orFlag flag)
      [s.nextBlock] := by
  have howned := owned_fresh s
    (((s.rtMalloc.2).setPort side (some ⟨s.nextBlock, kind, none⟩)).orFlag flag) hnone
    ⟨s.nextBlock, kind, none⟩ rfl rfl
  refine ⟨by simp, fun block hblock => ?_, Nat.le_succ _, rfl, rfl, rfl, howned⟩
  rw [List.mem_singleton.mp hblock]
  exact ⟨Nat.le_refl _, Nat.lt_succ_self _⟩

theorem grown_malloc_queue (hnone : s.port side = none) (kind : PortKind) (flag : Nat) :
    Grown s (((s.rtMalloc.2.rtMalloc.2).setPort side
      (some ⟨s.nextBlock, kind, some (s.nextBlock + 1)⟩)).orFlag flag)
      [s.nextBlock + 1, s.nextBlock] := by
  have howned := owned_fresh s (((s.rtMalloc.2.rtMalloc.2).setPort side
    (some ⟨s.nextBlock, kind, some (s.nextBlock + 1)⟩)).orFlag flag) hnone
    ⟨s.nextBlock, kind, some (s.nextBlock + 1)⟩ rfl rfl
  refine ⟨by simp, fun block hblock => ?_, Nat.le_add_right _ 2, rfl, rfl, rfl,
    howned.trans (List.Perm.swap ..)⟩
  show s.nextBlock ≤ block ∧ block < s.nextBlock + 1 + 1
  simp only [List.mem_cons, List.not_mem_nil, or_false] at hblock
  omega

theorem portOpened_made (hnone : s.port side = none) {part : Nat} (hpart : s.portPart oflag side = part)
    (hnonzero : part ≠ 0) {port : Port} (hkind : part = side.intFlag → port.kind = .fifo)
    {mid : SharedDevice} {fresh : List Nat}
    (hgrown : Grown s ((mid.setPort side (some port)).orFlag part) fresh)
    (hframe : mid.driver = s.driver ∧ mid.flag = s.flag ∧ mid.refCount = s.refCount ∧
      mid.asked = s.asked ∧ mid.hdr = s.hdr ∧ mid.openFlag = s.openFlag ∧ mid.port = s.port) :
    PortOpened s ((mid.setPort side (some port)).orFlag part) oflag side := by
  obtain ⟨hdriver, hflag, hrefCount, hasked, hhdr, hopenFlag, hport⟩ := hframe
  have hsame : ((mid.setPort side (some port)).orFlag part).port side = some port :=
    update_self ..
  refine ⟨⟨fresh, hgrown⟩, hdriver, hflag, hrefCount, hasked, hhdr, ?_, fun other hne => ?_,
    fun port h => ?_, fun _ h => ?_, fun _ _ => ⟨port, hsame, fun h => hkind (hpart.symm.trans h)⟩⟩
  · rw [hpart, ← hopenFlag]
    rfl
  · rw [← hport]
    exact update_of_ne hne ..
  · rw [hnone] at h
    cases h
  · exact absurd (hpart.symm.trans h) hnonzero

theorem portOpened_kept (s : SharedDevice) (oflag : Nat) (side : Side)
    (hkept : s.port side = none → s.portPart oflag side = 0) :
    PortOpened s (s.orFlag (s.portPart oflag side)) oflag side :=
  ⟨⟨[], Grown.orFlag s _⟩, rfl, rfl, rfl, rfl, rfl, rfl, fun _ _ => rfl, fun _ h => h,
    fun h _ => h, fun h hnonzero => absurd (hkept h) hnonzero⟩

theorem orFlag_zero (s : SharedDevice) : s.orFlag 0 = s := by
  unfold orFlag
  rw [Nat.or_zero]

theorem serialOpenPort_opened (s : SharedDevice) (oflag : Nat) (side : Side)
    (hdriver : s.driver = .serial) :
    PortOpened s (s.serialOpenPort oflag side) oflag side := by
  have hpart : s.portPart oflag side =
      if hasFlag oflag side.dmaFlag then side.dmaFlag
      else if hasFlag oflag side.intFlag then side.intFlag else 0 := by
    rw [portPart, hdriver]
  obtain ⟨hint, hdma, hdiff⟩ := intFlag_ne side
  have hframe : s.setPort side (s.port side) = s := by
    unfold setPort
    rw [update_eq_self]
  unfold serialOpenPort
  by_cases hnone : s.port side = none
  · rw [if_pos hnone]
    by_cases hasDma : hasFlag oflag side.dmaFlag = true
    · rw [if_pos hasDma] at hpart ⊢
      have hnot : side.dmaFlag = side.intFlag → PortKind.dma = .fifo := fun h => absurd h hdiff
      cases side with
      | rx =>
        exact portOpened_made hnone hpart hdma (fun h => absurd h hdiff)
          (grown_malloc hnone _ _) ⟨rfl, rfl, rfl, rfl, rfl, rfl, rfl⟩
      | tx =>
        exact portOpened_made hnone hpart hdma hnot (grown_malloc_queue hnone _ _)
          ⟨rfl, rfl, rfl, rfl, rfl, rfl, rfl⟩
    · rw [if_neg hasDma] at hpart ⊢
      by_cases hasInt : hasFlag oflag side.intFlag = true
      · rw [if_pos hasInt] at hpart ⊢
        exact portOpened_made hnone hpart hint (fun _ => rfl) (grown_malloc hnone _ _)
          ⟨rfl, rfl, rfl, rfl, rfl, rfl, rfl⟩
      · rw [if_neg hasInt] at hpart ⊢
        have hkept := portOpened_kept s oflag side fun _ => hpart
        rw [hpart, orFlag_zero] at hkept
        rw [hnone] at hframe
        rw [hframe]
        exact hkept
  · rw [if_neg hnone]
    have hkept := portOpened_kept s oflag side fun h => absurd h hnone
    rw [hpart] at hkept
    split_ifs at hkept ⊢
    · exact hkept
    · exact hkept
    · rwa [orFlag_zero] at hkept

theorem canOpenPort_opened (s : SharedDevice) (oflag : Nat) (side : Side)
    (hdriver : s.driver = .can) :
    PortOpened s (s.canOpenPort oflag side) oflag side := by
  have hpart : s.portPart oflag side =
      if s.port side = none ∧ hasFlag oflag side.intFlag then side.intFlag else 0 := by
    rw [portPart, hdriver]
  unfold canOpenPort
  by_cases hasInt : s.port side = none ∧ hasFlag oflag side.intFlag = true
  · rw [if_pos hasInt] at hpart
    rw [if_pos hasInt.1, if_pos hasInt.2]
    exact portOpened_made hasInt.1 hpart (intFlag_ne side).1 (fun _ => rfl)
      (grown_malloc hasInt.1 _ _) ⟨rfl, rfl, rfl, rfl, rfl, rfl, rfl⟩
  · rw [if_neg hasInt] at hpart
    have hkept := portOpened_kept s oflag side fun _ => hpart
    rw [hpart, orFlag_zero] at hkept
    split_ifs with hnone hflag
    · exact absurd ⟨hnone, hflag⟩ hasInt
    · exact hkept
    · exact hkept

structure DeviceOpened (s s' : SharedDevice) (oflag : Nat) : Prop where
  grown : ∃ fresh, Grown s s' fresh
  driver : s'.driver = s.driver
  flag : s'.flag = s.flag
  refCount : s'.refCount = s.refCount
  asked : s'.asked = s.asked
  hdr : s.driver = .serial → s'.hdr = s.hdr
  intFlag : ∀ side, hasFlag s'.openFlag side.intFlag = decide (s.portPart oflag side = side.intFlag)
  dmaFlag : ∀ side, hasFlag s'.openFlag side.dmaFlag = decide (s.portPart oflag side = side.dmaFlag)
  keeps : ∀ side port, s.port side = some port → s'.port side = some port
  made : ∀ side, s.port side = none → s.portPart oflag side ≠ 0 → ∃ port,
    s'.port side = some port ∧ (s.portPart oflag side = side.intFlag → port.kind = .fifo)

theorem portPart_cases (s : SharedDevice) (oflag : Nat) (side : Side) :
    s.portPart oflag side = 0 ∨ s.portPart oflag side = side.intFlag ∨
      s.portPart oflag side = side.dmaFlag := by
  unfold portPart
  cases s.driver <;> dsimp only <;> split_ifs <;> simp

theorem portPart_congr (hdriver : s'.driver = s.driver) (hport : s'.port side = s.port side) :
    s'.portPart oflag side = s.portPart oflag side := by
  unfold portPart
  rw [hdriver, hport]

theorem hasFlag_parts (low rx tx other : Nat)
    (hlow : ∀ side : Side, hasFlag low side.intFlag = false ∧ hasFlag low side.dmaFlag = false)
    (hother : ∀ side : Side, hasFlag other side.intFlag = false ∧ hasFlag other side.dmaFlag = false)
    (hrx : rx = 0 ∨ rx = Side.rx.intFlag ∨ rx = Side.rx.dmaFlag)
    (htx : tx = 0 ∨ tx = Side.tx.intFlag ∨ tx = Side.tx.dmaFlag) (side : Side) :
    hasFlag (low ||| rx ||| tx ||| other) side.intFlag =
        decide ((match side with | .rx => rx | .tx => tx) = side.intFlag) ∧
      hasFlag (low ||| rx ||| tx ||| other) side.dmaFlag =
        decide ((match side with | .rx => rx | .tx => tx) = side.dmaFlag) := by
  simp only [hasFlag_or, (hlow side).1, (hlow side).2, (hother side).1, (hother side).2, Bool.false_or,
    Bool.or_false]
  rcases hrx with rfl | rfl | rfl <;> rcases htx with rfl | rfl | rfl <;> cases side <;> decide

theorem deviceOpened_of_ports {mid : SharedDevice}
    (hrx : PortOpened { s with openFlag := oflag &&& 0xff } mid oflag .rx)
    (htx : PortOpened mid s' oflag .tx) {flag : Nat}
    (hflag : ∀ side : Side, hasFlag flag side.intFlag = false ∧ hasFlag flag side.dmaFlag = false) :
    DeviceOpened s (s'.orFlag flag) oflag := by
  have hpart : mid.portPart oflag .tx = s.portPart oflag .tx :=
    portPart_congr hrx.driver (hrx.other .tx (by decide))
  have hopenFlag : s'.openFlag = (oflag &&& 0xff) ||| s.portPart oflag .rx ||| s.portPart oflag .tx := by
    rw [htx.openFlag, hrx.openFlag, hpart]
    rfl
  have hflags := hasFlag_parts (oflag &&& 0xff) (s.portPart oflag .rx) (s.portPart oflag .tx) flag
    (hasFlag_low oflag) hflag (s.portPart_cases oflag .rx) (s.portPart_cases oflag .tx)
  rw [← hopenFlag] at hflags
  obtain ⟨fresh, hfirst⟩ := hrx.grown
  obtain ⟨fresh', hsecond⟩ := htx.grown
  have hgrown := hfirst.trans hsecond
  refine ⟨⟨_, ⟨hgrown.nodup, hgrown.range, hgrown.next, hgrown.live, hgrown.session, hgrown.freed,
    hgrown.owned⟩⟩, htx.driver.trans hrx.driver, htx.flag.trans hrx.flag,
    htx.refCount.trans hrx.refCount, htx.asked.trans hrx.asked, fun _ => htx.hdr.trans hrx.hdr,
    fun side => ?_, fun side => ?_, fun side port hport => ?_, fun side hnone hpartNe => ?_⟩
  · cases side <;> exact (hflags _).1
  · cases side <;> exact (hflags _).2
  · cases side with
    | rx => exact (htx.other .rx (by decide)).trans (hrx.keeps port hport)
    | tx => exact htx.keeps port ((hrx.other .tx (by decide)).trans hport)
  · cases side with
    | rx =>
      obtain ⟨port, hport, hkind⟩ := hrx.made hnone hpartNe
      exact ⟨port, (htx.other .rx (by decide)).trans hport, hkind⟩
    | tx =>
      rw [← hpart] at hpartNe ⊢
      exact htx.made ((hrx.other .tx (by decide)).trans hnone) hpartNe

theorem hasFlag_small {flag : Nat} (hflag : flag = 0 ∨ flag = streamFlag) (side : Side) :
    hasFlag (flag ||| oflagOpen) side.intFlag = false ∧
      hasFlag (flag ||| oflagOpen) side.dmaFlag = false := by
  rcases hflag with rfl | rfl <;> cases side <;> decide

theorem orFlag_orFlag (s : SharedDevice) (a b : Nat) : (s.orFlag a).orFlag b = s.orFlag (a ||| b) := by
  unfold orFlag
  rw [Nat.or_assoc]

theorem grown_hdr (hnone : s.hdr = none) : Grown (s.orFlag oflagOpen)
    ({ s.rtMalloc.2 with hdr := some s.nextBlock }.orFlag oflagOpen) [s.nextBlock] := by
  have howned : ({ s.rtMalloc.2 with hdr := some s.nextBlock }.orFlag oflagOpen).owned =
      [s.nextBlock] ++ (s.orFlag oflagOpen).owned := by
    show (some s.nextBlock).toList ++ _ ++ _ = [s.nextBlock] ++ (s.hdr.toList ++ _ ++ _)
    rw [hnone]
    rfl
  refine ⟨by simp, fun block hblock => ?_, Nat.le_succ _, rfl, rfl, rfl, .of_eq howned⟩
  rw [List.mem_singleton.mp hblock]
  exact ⟨Nat.le_refl _, Nat.lt_succ_self _⟩

theorem deviceOpen_opened (s : SharedDevice) (oflag : Nat) :
    DeviceOpened s ((s.deviceOpen oflag).orFlag oflagOpen) oflag := by
  unfold deviceOpen
  cases hdriver : s.driver with
  | serial =>
    dsimp only
    unfold serialOpen
    dsimp only
    rw [orFlag_orFlag]
    have hrx := serialOpenPort_opened { s with openFlag := oflag &&& 0xff } oflag .rx hdriver
    have htx := serialOpenPort_opened (serialOpenPort oflag .rx { s with openFlag := oflag &&& 0xff })
      oflag .tx (hrx.driver.trans hdriver)
    refine deviceOpened_of_ports hrx htx (hasFlag_small ?_)
    split
    · exact .inr rfl
    · exact .inl rfl
  | can =>
    dsimp only
    unfold canOpen
    dsimp only
    have hrx := canOpenPort_opened { s with openFlag := oflag &&& 0xff } oflag .rx hdriver
    have htx := canOpenPort_opened (canOpenPort oflag .rx { s with openFlag := oflag &&& 0xff })
      oflag .tx (hrx.driver.trans hdriver)
    have hopened := deviceOpened_of_ports hrx htx (hasFlag_small (.inl rfl))
    rw [Nat.zero_or] at hopened
    generalize canOpenPort oflag .tx (canOpenPort oflag .rx { s with openFlag := oflag &&& 0xff }) =
      after at hopened
    split
    next hnone =>
      obtain ⟨fresh, hgrown⟩ := hopened.grown
      exact ⟨⟨_, hgrown.trans (grown_hdr hnone)⟩, hopened.driver, hopened.flag, hopened.refCount,
        hopened.asked, fun h => (by rw [hdriver] at h; cases h), hopened.intFlag, hopened.dmaFlag,
        hopened.keeps, hopened.made⟩
    · exact hopened

def flagged (s : SharedDevice) (side : Side) : Bool :=
  hasFlag s.openFlag side.intFlag || hasFlag s.openFlag side.dmaFlag

def closedBlocks (s : SharedDevice) (side : Side) : List Nat :=
  if s.flagged side then (s.port side).toList.map Port.block else []

structure PortClosed (s s' : SharedDevice) (side : Side) : Prop where
  driver : s'.driver = s.driver
  flag : s'.flag = s.flag
  refCount : s'.refCount = s.refCount
  asked : s'.asked = s.asked
  hdr : s'.hdr = s.hdr
  nextBlock : s'.nextBlock = s.nextBlock
  live : ∀ block ∈ s'.live, block ∈ s.live
  session : s'.session = s.session
  freed : s'.freed = s.closedBlocks side ++ s.freed
  port : s'.port side = if s.flagged side then none else s.port side
  other : ∀ other, other ≠ side → s'.port other = s.port other ∧ s'.flagged other = s.flagged other

theorem serialClosePort_closed (s : SharedDevice) (side : Side) (hport : s.flagged side = true → s.port side ≠ none) :
    ∃ s', s.serialClosePort side = some s' ∧ PortClosed s s' side := by
  unfold serialClosePort
  by_cases hint : hasFlag s.openFlag side.intFlag = true
  · have hflagged : s.flagged side = true := by rw [flagged, hint, Bool.true_or]
    obtain ⟨port, hsome⟩ := Option.ne_none_iff_exists'.mp (hport hflagged)
    rw [if_pos hint, hsome]
    refine ⟨_, rfl, rfl, rfl, rfl, rfl, rfl, rfl, fun _ => List.mem_of_mem_erase, rfl, ?_, ?_,
      fun other hne => ⟨update_of_ne hne .., ?_⟩⟩
    · rw [closedBlocks, if_pos hflagged, hsome]
      rfl
    · rw [if_pos hflagged]
      exact update_self ..
    · obtain ⟨⟨hfirst, hsecond⟩, -⟩ := hasFlag_other hne s.openFlag
      exact congrArg₂ (· || ·) hfirst hsecond
  · rw [if_neg hint]
    by_cases hdma : hasFlag s.openFlag side.dmaFlag = true
    · have hflagged : s.flagged side = true := by rw [flagged, hdma, Bool.or_true]
      obtain ⟨port, hsome⟩ := Option.ne_none_iff_exists'.mp (hport hflagged)
      rw [if_pos hdma, hsome]
      refine ⟨_, rfl, rfl, rfl, rfl, rfl, rfl, rfl, fun _ => List.mem_of_mem_erase, rfl, ?_, ?_,
        fun other hne => ⟨update_of_ne hne .., ?_⟩⟩
      · rw [closedBlocks, if_pos hflagged, hsome]
        rfl
      · rw [if_pos hflagged]
        exact update_self ..
      · obtain ⟨-, hfirst, hsecond⟩ := hasFlag_other hne s.openFlag
        exact congrArg₂ (· || ·) hfirst hsecond
    · have hflagged : s.flagged side = false := by
        rw [flagged, Bool.eq_false_of_not_eq_true hint, Bool.eq_false_of_not_eq_true hdma]
        rfl
      rw [if_neg hdma]
      refine ⟨s, rfl, rfl, rfl, rfl, rfl, rfl, rfl, fun _ h => h, rfl, ?_, ?_, fun _ _ => ⟨rfl, rfl⟩⟩
      · rw [closedBlocks, hflagged]
        rfl
      · rw [hflagged]
        rfl

theorem serialClose_closed (hlast : ¬ s.refCount > 1)
    (hport : ∀ side, s.flagged side = true → s.port side ≠ none) :
    ∃ s', s.serialClose = some s' ∧
      (∀ side, s'.port side = if s.flagged side then none else s.port side) ∧
      s'.freed = s.closedBlocks .tx ++ (s.closedBlocks .rx ++ s.freed) ∧
      s'.driver = s.driver ∧ s'.flag = s.flag ∧ s'.refCount = s.refCount ∧ s'.hdr = s.hdr ∧
      s'.session = s.session ∧ s'.nextBlock = s.nextBlock ∧ ∀ block ∈ s'.live, block ∈ s.live := by
  obtain ⟨mid, hrx, hfirst⟩ := serialClosePort_closed _ .rx (hport .rx)
  obtain ⟨htxPort, htxFlagged⟩ := hfirst.other .tx (by decide)
  obtain ⟨s', htx, hsecond⟩ := serialClosePort_closed mid .tx (by
    rw [htxFlagged, htxPort]
    exact hport .tx)
  refine ⟨s', ?_, fun side => ?_, ?_, hsecond.driver.trans hfirst.driver,
    hsecond.flag.trans hfirst.flag, hsecond.refCount.trans hfirst.refCount,
    hsecond.hdr.trans hfirst.hdr, hsecond.session.trans hfirst.session,
    hsecond.nextBlock.trans hfirst.nextBlock, fun block h => hfirst.live _ (hsecond.live _ h)⟩
  · unfold serialClose
    rw [if_neg hlast, hrx]
    exact htx
  · cases side with
    | rx => rw [(hsecond.other .rx (by decide)).1, hfirst.port]
    | tx => rw [hsecond.port, htxFlagged, htxPort]
  · rw [hsecond.freed, hfirst.freed, closedBlocks, htxFlagged, htxPort]
    rfl

structure Inv (s : SharedDevice) : Prop where
  standalone : hasFlag s.flag flagStandalone = false
  fresh : ∀ block ∈ s.live, block < s.nextBlock
  closed : s.refCount = 0 →
    (∀ side, s.port side = none) ∧ s.hdr = none ∧ ∀ block ∈ s.session, s.freed.count block = 1
  owns : s.refCount ≠ 0 → s.Owns
  activated : s.refCount ≠ 0 → hasFlag s.flag flagActivated = true
  flags : s.refCount ≠ 0 → ∀ side, s.flagged side = true → s.port side ≠ none
  asked : s.refCount ≠ 0 → ∀ side, s.asked side = true →
    hasFlag s.openFlag side.intFlag = true ∧ ∃ port, s.port side = some port ∧ port.kind = .fifo
  hdr : s.driver = .serial → s.hdr = none

section Steps

theorem mem_owned {port : Port} (hport : s.port side = some port) : port.block ∈ s.owned := by
  unfold owned
  cases side <;> rw [hport] <;> simp [portBlocks]

theorem Inv.agrees (hinv : s.Inv) : s.Agrees := by
  refine ⟨fun side hopen hasked => ?_, hinv.closed⟩
  obtain ⟨hflag, port, hport, hkind⟩ := hinv.asked hopen side hasked
  exact ⟨hflag, port, hport, hkind, (hinv.owns hopen).live _ (mem_owned hport)⟩

def prepared (s : SharedDevice) (oflag : Nat) : SharedDevice :=
  ({ s with flag := s.flag ||| flagActivated } : SharedDevice).startSession.ask oflag

theorem hasFlag_activated (word : Nat) (side : Side) :
    hasFlag (word ||| flagActivated) side.intFlag = hasFlag word side.intFlag ∧
      hasFlag (word ||| flagActivated) side.dmaFlag = hasFlag word side.dmaFlag := by
  rw [hasFlag_or, hasFlag_or]
  cases side <;> exact ⟨Bool.or_false _, Bool.or_false _⟩

theorem accepts_activated (s : SharedDevice) (oflag : Nat) :
    ({ s with flag := s.flag ||| flagActivated } : SharedDevice).accepts oflag = s.accepts oflag := by
  unfold accepts
  cases s.driver with
  | can => rfl
  | serial =>
    obtain ⟨hrxInt, hrxDma⟩ := hasFlag_activated s.flag .rx
    obtain ⟨htxInt, htxDma⟩ := hasFlag_activated s.flag .tx
    simp only [serialSupports, List.all_cons, List.all_nil, hrxInt, hrxDma, htxInt, htxDma]

theorem Inv.rtDeviceOpen_cases (hinv : s.Inv) {initResult : Int}
    (hexec : s.rtDeviceOpen oflag initResult = some s') :
    (¬ ((hasFlag s.flag flagActivated = true ∨ initResult = 0) ∧ s.accepts oflag = true) ∧
      (s' = s ∨ s' = { s with flag := s.flag ||| flagActivated })) ∨
    (hasFlag s.flag flagActivated = true ∨ initResult = 0) ∧ s.accepts oflag = true ∧
      s'.refCount ≠ 0 ∧ s' = { ((s.prepared oflag).deviceOpen oflag).orFlag oflagOpen with
        refCount := (((s.prepared oflag).deviceOpen oflag).refCount + 1) % 256 } := by
  have hsame : (if hasFlag s.flag flagActivated then s else { s with port := fun _ => none }) = s := by
    split
    · rfl
    next hnot =>
      have hclosed : s.refCount = 0 := by
        by_contra hopen
        exact hnot (hinv.activated hopen)
      have hport : s.port = fun _ => none := funext (hinv.closed hclosed).1
      rw [← hport]
  have hstandalone : hasFlag (s.flag ||| flagActivated) flagStandalone = false := by
    rw [hasFlag_or, hinv.standalone]
    rfl
  unfold rtDeviceOpen at hexec
  rw [hsame] at hexec
  dsimp only at hexec
  rw [hstandalone, Bool.false_and, if_neg Bool.false_ne_true, accepts_activated] at hexec
  by_cases hinit : hasFlag s.flag flagActivated = true ∨ initResult = 0
  · have hrun : (!hasFlag s.flag flagActivated && decide (initResult ≠ 0)) = false := by
      rcases hinit with h | h
      · rw [h]
        rfl
      · rw [decide_eq_false (not_not_intro h), Bool.and_false]
    rw [hrun, if_neg Bool.false_ne_true] at hexec
    by_cases haccepts : s.accepts oflag = true
    · rw [if_pos haccepts] at hexec
      split_ifs at hexec with hcount
      obtain rfl := Option.some.inj hexec
      exact .inr ⟨hinit, haccepts, hcount, rfl⟩
    · rw [if_neg haccepts] at hexec
      exact .inl ⟨fun h => haccepts h.2, .inr (Option.some.inj hexec).symm⟩
  · obtain ⟨hidle, hfailed⟩ := not_or.mp hinit
    rw [Bool.eq_false_of_not_eq_true hidle, Bool.not_false, Bool.true_and,
      if_pos (decide_eq_true hfailed)] at hexec
    exact .inl ⟨fun h => hinit h.1, .inl (Option.some.inj hexec).symm⟩

theorem Inv.prepared_owns (hinv : s.Inv) (oflag : Nat) : (s.prepared oflag).Owns := by
  by_cases hopen : s.refCount = 0
  · obtain ⟨hport, hhdr, -⟩ := hinv.closed hopen
    have hstart : s.prepared oflag = ({ s with
        flag := s.flag ||| flagActivated
        asked := fun _ => false
        session := []
        freed := [] } : SharedDevice).ask oflag := by
      rw [prepared, startSession, if_pos (show s.refCount = 0 from hopen)]
    have howned : (s.prepared oflag).owned = [] := by
      rw [hstart]
      show s.hdr.toList ++ portBlocks (s.port .rx) ++ portBlocks (s.port .tx) = []
      rw [hhdr, hport, hport]
      rfl
    have hsession : (s.prepared oflag).session = [] := by rw [hstart]; rfl
    have hfreed : (s.prepared oflag).freed = [] := by rw [hstart]; rfl
    have hlive : (s.prepared oflag).live = s.live ∧
        (s.prepared oflag).nextBlock = s.nextBlock := by
      rw [hstart]
      exact ⟨rfl, rfl⟩
    refine ⟨?_, fun block h => ?_, fun block => ?_, hfreed, ?_⟩
    · rw [howned]
      exact .nil
    · rw [howned] at h
      cases h
    · rw [howned, hsession]
    · rw [hlive.1, hlive.2]
      exact hinv.fresh
  · have hstart : s.prepared oflag =
        ({ s with flag := s.flag ||| flagActivated } : SharedDevice).ask oflag := by
      rw [prepared, startSession, if_neg (show ¬ s.refCount = 0 from hopen)]
    rw [hstart]
    obtain ⟨hnodup, hlive, hsession, hfreed, hfresh⟩ := hinv.owns hopen
    exact ⟨hnodup, hlive, hsession, hfreed, hfresh⟩

@[simp] theorem prepared_port (s : SharedDevice) (oflag : Nat) : (s.prepared oflag).port = s.port := by
  unfold prepared startSession
  split <;> rfl

@[simp] theorem prepared_hdr (s : SharedDevice) (oflag : Nat) : (s.prepared oflag).hdr = s.hdr := by
  unfold prepared startSession
  split <;> rfl

@[simp] theorem prepared_driver (s : SharedDevice) (oflag : Nat) :
    (s.prepared oflag).driver = s.driver := by
  unfold prepared startSession
  split <;> rfl

@[simp] theorem prepared_flag (s : SharedDevice) (oflag : Nat) :
    (s.prepared oflag).flag = s.flag ||| flagActivated := by
  unfold prepared startSession
  split <;> rfl

theorem prepared_asked (s : SharedDevice) (oflag : Nat) (side : Side) :
    (s.prepared oflag).asked side = true ↔
      s.refCount ≠ 0 ∧ s.asked side = true ∨ hasFlag oflag side.intFlag = true := by
  unfold prepared startSession
  split
  next hclosed =>
    have hzero : s.refCount = 0 := hclosed
    show (false || hasFlag oflag side.intFlag) = true ↔ _
    rw [Bool.false_or, hzero]
    exact ⟨.inr, fun h => h.resolve_left fun h => h.1 rfl⟩
  next hopen =>
    have hcount : s.refCount ≠ 0 := hopen
    show (s.asked side || hasFlag oflag side.intFlag) = true ↔ _
    rw [Bool.or_eq_true]
    exact ⟨Or.imp_left fun h => ⟨hcount, h⟩, Or.imp_left And.right⟩

theorem portPart_int (s : SharedDevice) (oflag : Nat) (side : Side) :
    s.portPart oflag side = side.intFlag ↔ hasFlag oflag side.intFlag = true ∧
      match s.driver with
      | .serial => hasFlag oflag side.dmaFlag = false
      | .can => s.port side = none := by
  obtain ⟨hint, -, hdiff⟩ := intFlag_ne side
  unfold portPart
  cases s.driver with
  | serial =>
    dsimp only
    split_ifs with hdma hflag
    · exact ⟨fun h => absurd h hdiff, fun h => absurd (hdma.symm.trans h.2) (by decide)⟩
    · exact ⟨fun _ => ⟨hflag, Bool.eq_false_of_not_eq_true hdma⟩, fun _ => rfl⟩
    · exact ⟨fun h => absurd h.symm hint, fun h => absurd h.1 hflag⟩
  | can =>
    dsimp only
    split_ifs with hflag
    · exact ⟨fun _ => hflag.symm, fun _ => rfl⟩
    · exact ⟨fun h => absurd h.symm hint, fun h => absurd h.symm hflag⟩

theorem DeviceOpened.serves_iff (hopened : DeviceOpened s s' oflag) (side : Side) :
    (hasFlag s'.openFlag side.intFlag = true ∧ ∃ port, s'.port side = some port ∧
      port.kind = .fifo) ↔ s.Serves oflag side := by
  rw [hopened.intFlag, decide_eq_true_iff]
  have hpart := s.portPart_int oflag side
  constructor
  · rintro ⟨hint, port, hport, hkind⟩
    obtain ⟨hflag, hdriver⟩ := hpart.mp hint
    refine ⟨hflag, ?_⟩
    cases hd : s.driver with
    | serial =>
      rw [hd] at hdriver
      refine ⟨hdriver, fun old hold => ?_⟩
      have hsame := hopened.keeps side old hold
      rw [hport] at hsame
      obtain rfl := Option.some.inj hsame
      exact hkind
    | can =>
      rw [hd] at hdriver
      exact hdriver
  · rintro ⟨hflag, hdriver⟩
    have hint : s.portPart oflag side = side.intFlag := by
      refine hpart.mpr ⟨hflag, ?_⟩
      cases hd : s.driver with
      | serial =>
        rw [hd] at hdriver
        exact hdriver.1
      | can =>
        rw [hd] at hdriver
        exact hdriver
    refine ⟨hint, ?_⟩
    cases hport : s.port side with
    | none =>
      obtain ⟨port, hnew, hkind⟩ := hopened.made side hport (by
        rw [hint]
        exact (intFlag_ne side).1)
      exact ⟨port, hnew, hkind hint⟩
    | some port =>
      refine ⟨port, hopened.keeps side port hport, ?_⟩
      cases hd : s.driver with
      | serial =>
        rw [hd] at hdriver
        exact hdriver.2 port hport
      | can =>
        rw [hd] at hdriver
        rw [hport] at hdriver
        cases hdriver

theorem DeviceOpened.flags (hopened : DeviceOpened s s' oflag) (side : Side)
    (hflagged : s'.flagged side = true) : s'.port side ≠ none := by
  rw [flagged, hopened.intFlag, hopened.dmaFlag, Bool.or_eq_true, decide_eq_true_iff,
    decide_eq_true_iff] at hflagged
  obtain ⟨hint, hdma, -⟩ := intFlag_ne side
  have hpart : s.portPart oflag side ≠ 0 := by
    rcases hflagged with h | h <;> rw [h] <;> assumption
  cases hport : s.port side with
  | none =>
    obtain ⟨port, hnew, -⟩ := hopened.made side hport hpart
    rw [hnew]
    exact Option.some_ne_none port
  | some port =>
    rw [hopened.keeps side port hport]
    exact Option.some_ne_none port

theorem Inv.open_step (hinv : s.Inv) {initResult : Int}
    (hexec : s.rtDeviceOpen oflag initResult = some s') :
    (s'.Agrees ↔ s.Proper (.openWith oflag initResult)) ∧
      (s.Proper (.openWith oflag initResult) → s'.Inv) := by
  rcases hinv.rtDeviceOpen_cases hexec with ⟨hnot, hsame⟩ | ⟨hinit, haccepts, hcount, heq⟩
  · have hproper : s.Proper (.openWith oflag initResult) := fun hinit haccepts =>
      absurd ⟨hinit, haccepts⟩ hnot
    have hnext : s'.Inv := by
      rcases hsame with rfl | rfl
      · exact hinv
      · refine ⟨?_, hinv.fresh, hinv.closed, fun h => ?_, fun h => ?_, hinv.flags, hinv.asked,
          hinv.hdr⟩
        · show hasFlag (s.flag ||| flagActivated) flagStandalone = false
          rw [hasFlag_or, hinv.standalone]
          rfl
        · obtain ⟨hnodup, hlive, hsession, hfreed, hfresh⟩ := hinv.owns h
          exact ⟨hnodup, hlive, hsession, hfreed, hfresh⟩
        · show hasFlag (s.flag ||| flagActivated) flagActivated = true
          rw [hasFlag_or, hinv.activated h]
          rfl
    exact ⟨⟨fun _ => hproper, fun _ => hnext.agrees⟩, fun _ => hnext⟩
  · have hopened := deviceOpen_opened (s.prepared oflag) oflag
    generalize ((s.prepared oflag).deviceOpen oflag).orFlag oflagOpen = after at hopened heq
    generalize (((s.prepared oflag).deviceOpen oflag).refCount + 1) % 256 = count at heq
    obtain ⟨fresh, hgrown⟩ := hopened.grown
    have howns : s'.Owns := by
      obtain ⟨hnodup, hlive, hsession, hfreed, hfresh⟩ := (hinv.prepared_owns oflag).grown hgrown
      rw [heq]
      exact ⟨hnodup, hlive, hsession, hfreed, hfresh⟩
    have hasked (side : Side) : s'.asked side = true ↔
        s.refCount ≠ 0 ∧ s.asked side = true ∨ hasFlag oflag side.intFlag = true := by
      rw [heq, ← s.prepared_asked oflag side, ← hopened.asked]
    have hserves (side : Side) : (hasFlag s'.openFlag side.intFlag = true ∧
        ∃ port, s'.port side = some port ∧ port.kind = .fifo) ↔ s.Serves oflag side := by
      have h := hopened.serves_iff side
      unfold Serves at h ⊢
      rw [prepared_driver, prepared_port] at h
      rw [heq]
      exact h
    have hagrees : s'.Agrees ↔ s.Proper (.openWith oflag initResult) := by
      constructor
      · intro h _ _ side hside
        obtain ⟨hflag, port, hport, hkind, -⟩ := h.asked side hcount ((hasked side).mpr hside)
        exact (hserves side).mp ⟨hflag, port, hport, hkind⟩
      · intro h
        refine ⟨fun side _ hside => ?_, fun hzero => absurd hzero hcount⟩
        obtain ⟨hflag, port, hport, hkind⟩ :=
          (hserves side).mpr (h hinit haccepts side ((hasked side).mp hside))
        exact ⟨hflag, port, hport, hkind, howns.live _ (mem_owned hport)⟩
    refine ⟨hagrees, fun hproper => ?_⟩
    have hflag : s'.flag = s.flag ||| flagActivated := by
      rw [heq, ← prepared_flag s oflag, ← hopened.flag]
    refine ⟨?_, howns.fresh, fun h => absurd h hcount, fun _ => howns, fun _ => ?_,
      fun _ side hside => ?_, fun _ side hside => (hserves side).mpr
        (hproper hinit haccepts side ((hasked side).mp hside)), fun hdriver => ?_⟩
    · rw [hflag, hasFlag_or, hinv.standalone]
      rfl
    · rw [hflag, hasFlag_or]
      exact Bool.or_true _
    · rw [heq] at hside ⊢
      exact hopened.flags side hside
    · have hserial : s.driver = .serial := by
        rw [heq] at hdriver
        rw [← prepared_driver s oflag, ← hopened.driver]
        exact hdriver
      rw [heq]
      exact (hopened.hdr ((prepared_driver s oflag).trans hserial)).trans
        ((prepared_hdr s oflag).trans (hinv.hdr hserial))

theorem queue_not_block (hnodup : s.owned.Nodup) {port : Port} (hport : s.port side = some port)
    {queue : Nat} (hqueue : port.queue = some queue) {other : Side} {port' : Port}
    (hport' : s.port other = some port') : port'.block ≠ queue := by
  have hparts (side : Side) : (portBlocks (s.port side)).Nodup := by
    unfold owned at hnodup
    cases side with
    | rx => exact (List.nodup_append.mp (List.nodup_append.mp hnodup).1).2.1
    | tx => exact (List.nodup_append.mp hnodup).2.1
  have hmem : queue ∈ portBlocks (s.port side) := by
    rw [hport, portBlocks, hqueue]
    exact List.mem_cons_of_mem _ (List.mem_singleton_self _)
  have hmem' : port'.block ∈ portBlocks (s.port other) := by
    rw [hport']
    exact List.mem_cons_self
  by_cases heq : other = side
  · subst heq
    obtain rfl := Option.some.inj (hport.symm.trans hport')
    have h := hparts other
    rw [hport, portBlocks, hqueue] at h
    rintro rfl
    exact (List.nodup_cons.mp h).1 (List.mem_singleton_self _)
  · rintro rfl
    unfold owned at hnodup
    obtain ⟨-, -, hdisjoint⟩ := List.nodup_append.mp hnodup
    cases side <;> cases other
    · exact heq rfl
    · exact hdisjoint _ (List.mem_append_right _ hmem) _ hmem' rfl
    · exact hdisjoint _ (List.mem_append_right _ hmem') _ hmem rfl
    · exact heq rfl

theorem closedBlocks_eq (side : Side)
    (hreturns : ∀ port, s.port side = some port → port.queue = none ∧ s.flagged side = true) :
    s.closedBlocks side = portBlocks (s.port side) := by
  unfold closedBlocks
  cases hport : s.port side with
  | none => split <;> rfl
  | some port =>
    obtain ⟨hqueue, hflagged⟩ := hreturns port hport
    rw [if_pos hflagged, portBlocks, hqueue]
    rfl

theorem mem_closedBlocks {block : Nat} (hblock : block ∈ s.closedBlocks side) :
    s.flagged side = true ∧ ∃ port, s.port side = some port ∧ port.block = block := by
  unfold closedBlocks at hblock
  split at hblock
  next hflagged =>
    obtain ⟨port, hport, heq⟩ := List.mem_map.mp hblock
    exact ⟨hflagged, port, Option.mem_toList.mp hport, heq⟩
  · cases hblock

theorem Inv.serialClose_iff (hinv : s.Inv) (hone : s.refCount = 1) (hdriver : s.driver = .serial)
    (hport : ∀ side, s'.port side = if s.flagged side then none else s.port side)
    (hfreed : s'.freed = s.closedBlocks .tx ++ (s.closedBlocks .rx ++ s.freed))
    (hhdr : s'.hdr = s.hdr) (hsession : s'.session = s.session) :
    ((∀ side, s'.port side = none) ∧ s'.hdr = none ∧
      ∀ block ∈ s'.session, s'.freed.count block = 1) ↔
    ∀ side port, s.port side = some port → s.Returns side port := by
  have hopen : s.refCount ≠ 0 := by omega
  have howns := hinv.owns hopen
  have hnone : s.hdr = none := hinv.hdr hdriver
  have hreturns (side : Side) (port : Port) : s.Returns side port ↔
      port.queue = none ∧ s.flagged side = true := by
    rw [Returns, hdriver, flagged, Bool.or_eq_true]
  rw [howns.freed, List.append_nil] at hfreed
  constructor
  · rintro ⟨hports, -, hcount⟩ side port hsome
    have hflagged : s.flagged side = true := by
      by_contra hnot
      have h := hports side
      rw [hport, if_neg hnot, hsome] at h
      cases h
    refine (hreturns side port).mpr ⟨?_, hflagged⟩
    cases hqueue : port.queue with
    | none => rfl
    | some queue =>
      have howned : queue ∈ s.owned := by
        have hmem : queue ∈ portBlocks (s.port side) := by
          rw [hsome, portBlocks, hqueue]
          exact List.mem_cons_of_mem _ (List.mem_singleton_self _)
        unfold owned
        cases side with
        | rx => exact List.mem_append_left _ (List.mem_append_right _ hmem)
        | tx => exact List.mem_append_right _ hmem
      have hone := hcount queue (by
        rw [hsession]
        exact (howns.session queue).mpr howned)
      have hmem : queue ∈ s'.freed := List.count_pos_iff.mp (by rw [hone]; exact Nat.one_pos)
      rw [hfreed, List.mem_append] at hmem
      rcases hmem with h | h
      all_goals
        obtain ⟨-, port', hport', heq⟩ := mem_closedBlocks h
        exact absurd heq (queue_not_block howns.nodup hsome hqueue hport')
  · intro h
    have hall (side : Side) (port : Port) (hsome : s.port side = some port) :=
      (hreturns side port).mp (h side port hsome)
    refine ⟨fun side => ?_, hhdr.trans hnone, fun block hblock => ?_⟩
    · rw [hport]
      cases hsome : s.port side with
      | none => split <;> rfl
      | some port => rw [if_pos (hall side port hsome).2]
    · have hperm : s'.freed.Perm s.owned := by
        rw [hfreed, closedBlocks_eq .tx (hall .tx), closedBlocks_eq .rx (hall .rx), owned, hnone]
        exact List.perm_append_comm
      rw [hperm.count_eq]
      rw [hsession] at hblock
      exact List.count_eq_one_of_mem howns.nodup ((howns.session block).mp hblock)

theorem canClosePort_closed (s : SharedDevice) (side : Side) (hport : hasFlag s.openFlag side.intFlag = true → s.port side ≠ none) :
    ∃ s', s.canClosePort side = some s' ∧ s'.port = s.port ∧ s'.driver = s.driver ∧
      s'.flag = s.flag ∧ s'.refCount = s.refCount ∧ s'.hdr = s.hdr ∧ s'.session = s.session ∧
      s'.nextBlock = s.nextBlock ∧ (∀ block ∈ s'.live, block ∈ s.live) ∧
      (s.port side = none → s'.freed = s.freed) ∧
      ∀ other, other ≠ side → hasFlag s'.openFlag other.intFlag = hasFlag s.openFlag other.intFlag := by
  unfold canClosePort
  by_cases hflag : hasFlag s.openFlag side.intFlag = true
  · obtain ⟨port, hsome⟩ := Option.ne_none_iff_exists'.mp (hport hflag)
    rw [if_pos hflag, hsome]
    exact ⟨_, rfl, rfl, rfl, rfl, rfl, rfl, rfl, rfl, fun _ => List.mem_of_mem_erase,
      fun h => (by cases h), fun other hne => (hasFlag_other hne s.openFlag).1.1⟩
  · rw [if_neg hflag]
    exact ⟨s, rfl, rfl, rfl, rfl, rfl, rfl, rfl, rfl, fun _ h => h, fun _ => rfl, fun _ _ => rfl⟩

theorem canClose_closed (hlast : ¬ s.refCount > 1)
    (hport : ∀ side : Side, hasFlag s.openFlag side.intFlag = true → s.port side ≠ none) :
    ∃ s', s.canClose = some s' ∧ s'.port = s.port ∧ s'.driver = s.driver ∧
      s'.flag = s.flag ∧ s'.refCount = s.refCount ∧ s'.hdr = none ∧ s'.session = s.session ∧
      s'.nextBlock = s.nextBlock ∧ (∀ block ∈ s'.live, block ∈ s.live) ∧
      ((∀ side, s.port side = none) → s'.freed = s.hdr.toList ++ s.freed) := by
  have hclose : s.canClose = (s.closeHdr.canClosePort .rx).bind fun s => s.canClosePort .tx :=
    if_neg hlast
  have hstart : s.closeHdr.port = s.port ∧ s.closeHdr.driver = s.driver ∧
      s.closeHdr.flag = s.flag ∧ s.closeHdr.refCount = s.refCount ∧ s.closeHdr.hdr = none ∧
      s.closeHdr.session = s.session ∧ s.closeHdr.nextBlock = s.nextBlock ∧
      (∀ block ∈ s.closeHdr.live, block ∈ s.live) ∧
      s.closeHdr.freed = s.hdr.toList ++ s.freed ∧ s.closeHdr.openFlag = s.openFlag := by
    unfold closeHdr
    cases hhdr : s.hdr with
    | none => exact ⟨rfl, rfl, rfl, rfl, hhdr, rfl, rfl, fun _ h => h, rfl, rfl⟩
    | some block =>
      exact ⟨rfl, rfl, rfl, rfl, rfl, rfl, rfl, fun _ => List.mem_of_mem_erase, rfl, rfl⟩
  rw [hclose]
  generalize s.closeHdr = start at hstart
  obtain ⟨hports, hdriver, hflag, hrefCount, hhdr, hsession, hnext, hlive, hfreed, hopenFlag⟩ := hstart
  obtain ⟨mid, hrx, hrxPort, hrxDriver, hrxFlag, hrxCount, hrxHdr, hrxSession, hrxNext, hrxLive,
    hrxFreed, hrxOther⟩ := canClosePort_closed start .rx (by
      rw [hopenFlag, hports]
      exact hport .rx)
  obtain ⟨s', htx, htxPort, htxDriver, htxFlag, htxCount, htxHdr, htxSession, htxNext, htxLive,
    htxFreed, -⟩ := canClosePort_closed mid .tx (by
      rw [hrxOther .tx (by decide), hrxPort, hopenFlag, hports]
      exact hport .tx)
  refine ⟨s', ?_, ?_, ?_, ?_, ?_, ?_, ?_, ?_, fun block h => hlive _ (hrxLive _ (htxLive _ h)),
    fun hnone => ?_⟩
  · rw [hrx]
    exact htx
  · rw [htxPort, hrxPort, hports]
  · rw [htxDriver, hrxDriver, hdriver]
  · rw [htxFlag, hrxFlag, hflag]
  · rw [htxCount, hrxCount, hrefCount]
  · rw [htxHdr, hrxHdr, hhdr]
  · rw [htxSession, hrxSession, hsession]
  · rw [htxNext, hrxNext, hnext]
  · rw [htxFreed (by rw [hrxPort, hports]; exact hnone .tx),
      hrxFreed (by rw [hports]; exact hnone .rx), hfreed]

theorem deviceClose_serial (hdriver : s.driver = .serial) : s.deviceClose = s.serialClose := by
  rw [deviceClose, hdriver]

theorem deviceClose_can (hdriver : s.driver = .can) : s.deviceClose = s.canClose := by
  rw [deviceClose, hdriver]

theorem driver_cases (s : SharedDevice) : s.driver = .serial ∨ s.driver = .can := by
  cases s.driver with
  | serial => exact .inl rfl
  | can => exact .inr rfl

theorem Inv.deviceClose_closed (hinv : s.Inv) (hone : s.refCount = 1) :
    ∃ s', ({ s with refCount := 0 } : SharedDevice).deviceClose = some s' ∧ s'.driver = s.driver ∧
      s'.flag = s.flag ∧ s'.refCount = 0 ∧ (∀ block ∈ s'.live, block < s'.nextBlock) ∧
      (((∀ side, s'.port side = none) ∧ s'.hdr = none ∧
          ∀ block ∈ s'.session, s'.freed.count block = 1) ↔
        ∀ side port, s.port side = some port → s.Returns side port) ∧
      (s.driver = .serial → s'.hdr = none) := by
  have hopen : s.refCount ≠ 0 := by omega
  have howns := hinv.owns hopen
  rcases s.driver_cases with hdriver | hdriver
  · have hcall : ({ s with refCount := 0 } : SharedDevice).deviceClose = _ := deviceClose_serial hdriver
    rw [hcall]
    obtain ⟨s', hclose, hport, hfreed, hdriver', hflag, hcount, hhdr, hsession, hnext, hlive⟩ :=
      serialClose_closed (s := { s with refCount := 0 }) (Nat.not_lt_zero 1) (hinv.flags hopen)
    refine ⟨s', hclose, hdriver', hflag, hcount, fun block h => ?_,
      hinv.serialClose_iff hone hdriver hport hfreed hhdr hsession,
      fun _ => hhdr.trans (hinv.hdr hdriver)⟩
    rw [hnext]
    exact hinv.fresh block (hlive block h)
  · have hcall : ({ s with refCount := 0 } : SharedDevice).deviceClose = _ := deviceClose_can hdriver
    rw [hcall]
    have hflags (side : Side) (h : hasFlag s.openFlag side.intFlag = true) : s.port side ≠ none :=
      hinv.flags hopen side (by rw [flagged, h, Bool.true_or])
    obtain ⟨s', hclose, hport, hdriver', hflag, hcount, hhdr, hsession, hnext, hlive, hfreed⟩ :=
      canClose_closed (s := { s with refCount := 0 }) (Nat.not_lt_zero 1) hflags
    have hreturns (side : Side) (port : Port) : ¬ s.Returns side port := by
      rw [Returns, hdriver]
      exact not_false
    refine ⟨s', hclose, hdriver', hflag, hcount, fun block h => ?_, ?_, fun _ => hhdr⟩
    · rw [hnext]
      exact hinv.fresh block (hlive block h)
    · constructor
      · rintro ⟨hports, -, -⟩ side port hsome
        have h := hports side
        rw [hport] at h
        cases hsome.symm.trans h
      · intro h
        have hnone (side : Side) : s.port side = none := by
          cases hsome : s.port side with
          | none => rfl
          | some port => exact absurd (h side port hsome) (hreturns side port)
        refine ⟨fun side => by rw [hport]; exact hnone side, hhdr, fun block hblock => ?_⟩
        have howned : s.owned = s.hdr.toList := by
          rw [owned, hnone, hnone, portBlocks, List.append_nil, List.append_nil]
        have hlist : s'.freed = s.owned := by
          rw [hfreed hnone, howned]
          show s.hdr.toList ++ s.freed = s.hdr.toList
          rw [howns.freed, List.append_nil]
        rw [hsession] at hblock
        rw [hlist]
        exact List.count_eq_one_of_mem howns.nodup ((howns.session block).mp hblock)

theorem Inv.close_step (hinv : s.Inv) (hexec : s.rtDeviceClose = some s') :
    (s'.Agrees ↔ s.Proper .close) ∧ (s.Proper .close → s'.Inv) := by
  unfold rtDeviceClose at hexec
  by_cases hzero : s.refCount = 0
  · rw [if_pos hzero] at hexec
    obtain rfl := Option.some.inj hexec
    have hproper : s.Proper .close := fun hone => absurd hone (by omega)
    exact ⟨⟨fun _ => hproper, fun _ => hinv.agrees⟩, fun _ => hinv⟩
  · rw [if_neg hzero] at hexec
    dsimp only at hexec
    by_cases hone : s.refCount = 1
    · rw [hone, if_neg (not_not_intro rfl)] at hexec
      obtain ⟨after, hclose, hdriver, hflag, hcount, hfresh, hiff, hhdr⟩ :=
        hinv.deviceClose_closed hone
      rw [show (1 - 1 : Nat) = 0 from rfl, hclose] at hexec
      obtain rfl := Option.some.inj hexec
      have hclosed : ({ after with openFlag := 0 } : SharedDevice).refCount = 0 := hcount
      refine ⟨⟨fun h _ => hiff.mp (h.closed hclosed), fun h => ⟨fun _ hopen => absurd hclosed hopen,
        fun _ => hiff.mpr (h hone)⟩⟩, fun h => ⟨?_, hfresh, fun _ => hiff.mpr (h hone),
        fun hopen => absurd hclosed hopen, fun hopen => absurd hclosed hopen,
        fun hopen => absurd hclosed hopen, fun hopen => absurd hclosed hopen,
        fun h => hhdr (hdriver.symm.trans h)⟩⟩
      rw [← hinv.standalone, ← hflag]
    · have hmore : s.refCount - 1 ≠ 0 := by omega
      rw [if_pos hmore] at hexec
      obtain rfl := Option.some.inj hexec
      have hproper : s.Proper .close := fun h => absurd h hone
      have hnext : ({ s with refCount := s.refCount - 1 } : SharedDevice).Inv := by
        obtain ⟨hnodup, hlive, hsession, hfreed, hfresh⟩ := hinv.owns hzero
        exact ⟨hinv.standalone, hinv.fresh, fun h => absurd h hmore,
          fun _ => ⟨hnodup, hlive, hsession, hfreed, hfresh⟩, fun _ => hinv.activated hzero,
          fun _ => hinv.flags hzero, fun _ => hinv.asked hzero, hinv.hdr⟩
      exact ⟨⟨fun _ => hproper, fun _ => hnext.agrees⟩, fun _ => hnext⟩

theorem Initial.inv (h : s.Initial) : s.Inv where
  standalone := h.standalone
  fresh := h.fresh
  closed _ := ⟨h.port, h.hdr, fun block hblock => (by rw [h.session] at hblock; cases hblock)⟩
  owns hopen := absurd h.refCount hopen
  activated hopen := absurd h.refCount hopen
  flags hopen := absurd h.refCount hopen
  asked hopen := absurd h.refCount hopen
  hdr _ := h.hdr

theorem Inv.step (hinv : s.Inv) {op : DeviceOp} (hexec : sharedDeviceMachine.exec s op = some s') :
    (s'.Agrees ↔ s.Proper op) ∧ (s.Proper op → s'.Inv) := by
  cases op with
  | openWith oflag initResult => exact hinv.open_step hexec
  | close => exact hinv.close_step hexec

end Steps

instance (s : SharedDevice) (oflag : Nat) (side : Side) : Decidable (s.Serves oflag side) := by
  unfold Serves
  cases s.driver with
  | serial =>
    exact inferInstanceAs (Decidable (_ ∧ _ ∧ ∀ port ∈ s.port side, port.kind = .fifo))
  | can => exact inferInstanceAs (Decidable (_ ∧ s.port side = none))

instance (s : SharedDevice) (side : Side) (port : Port) : Decidable (s.Returns side port) := by
  unfold Returns
  cases s.driver with
  | serial => exact inferInstanceAs (Decidable (_ ∧ _))
  | can => exact inferInstanceAs (Decidable False)

instance (p : Side → Prop) [∀ side, Decidable (p side)] : Decidable (∀ side, p side) :=
  decidable_of_iff (p .rx ∧ p .tx) ⟨fun h side => (match side with | .rx => h.1 | .tx => h.2),
    fun h => ⟨h .rx, h .tx⟩⟩

instance (s : SharedDevice) (op : DeviceOp) : Decidable (s.Proper op) :=
  match op with
  | .openWith oflag initResult =>
    inferInstanceAs (Decidable ((hasFlag s.flag flagActivated = true ∨ initResult = 0) →
      s.accepts oflag = true → ∀ side,
        (s.refCount ≠ 0 ∧ s.asked side = true ∨ hasFlag oflag side.intFlag = true) →
          s.Serves oflag side))
  | .close =>
    inferInstanceAs (Decidable (s.refCount = 1 → ∀ side, ∀ port ∈ s.port side, s.Returns side port))

end SharedDevice

/-- Proper steps keep flag, pointer and allocation in agreement, and no other step does. -/
theorem reachable_sharedAgreement {s : SharedDevice}
    (hreach : sharedDeviceMachine.Reachable Proper s) :
    s.Agrees ∧ ∀ op s', sharedDeviceMachine.exec s op = some s' → (s'.Agrees ↔ s.Proper op) := by
  have hinv : s.Inv := hreach.invariant Inv (fun _ => Initial.inv)
    fun _ _ _ hinv hproper hexec => (hinv.step hexec).2 hproper
  exact ⟨hinv.agrees, fun _ _ hexec => (hinv.step hexec).1⟩

def registered (driver : Driver) (flag : Nat) : SharedDevice where
  driver := driver
  bufsz := 64
  flag := flag
  openFlag := 0
  refCount := 0
  port _ := none
  hdr := none
  nextBlock := 0
  live := []
  asked _ := false
  session := []
  freed := []

theorem registered_initial (driver : Driver) {flag : Nat} (hflag : hasFlag flag flagStandalone = false) :
    (registered driver flag).Initial where
  standalone := hflag
  openFlag := rfl
  refCount := rfl
  port _ := rfl
  hdr := rfl
  fresh := nofun
  session := rfl
  freed := rfl

theorem reachable_sharedAgreement_twoOpens :
    ∃ s, sharedDeviceMachine.Reachable Proper s ∧ s.refCount = 1 ∧ s.session = [1, 0] ∧
      s.Agrees ∧ ∀ s', s.rtDeviceClose = some s' → s'.Agrees := by
  have hrun : (sharedDeviceMachine.run Proper (registered .serial 0x503)
      [.openWith 0x103 0, .openWith 0x503 0, .close]).map
      (fun s => (s.refCount, s.session, decide (s.Proper .close))) = some (1, [1, 0], true) := by
    decide +kernel
  obtain ⟨s, hreach, hvalue⟩ := Machine.exists_reachable_of_run
    (registered_initial .serial (by decide)) hrun
  simp only [Prod.mk.injEq, decide_eq_true_eq] at hvalue
  obtain ⟨hcount, hsession, hproper⟩ := hvalue
  have hlaws := reachable_sharedAgreement hreach
  exact ⟨s, hreach, hcount, hsession, hlaws.1, fun s' hexec => (hlaws.2 .close s' hexec).mpr hproper⟩

def SharedDevice.Supported (s : SharedDevice) : DeviceOp → Prop
  | .openWith oflag initResult => s.accepts oflag = true ∧ initResult = 0
  | .close => True

instance (s : SharedDevice) (op : DeviceOp) : Decidable (s.Supported op) :=
  match op with
  | .openWith oflag initResult => inferInstanceAs (Decidable (s.accepts oflag = true ∧ initResult = 0))
  | .close => .isTrue trivial

/-- An open for reading and writing takes interrupt receive from the one before. -/
theorem secondOpen_not_agrees : ∃ s, sharedDeviceMachine.Reachable Supported s ∧ ¬ s.Agrees := by
  have hrun : (sharedDeviceMachine.run Supported (registered .serial 0x103)
      [.openWith 0x103 0, .openWith 0x003 0]).map
      (fun s => (s.refCount, s.asked .rx, hasFlag s.openFlag Side.rx.intFlag)) =
        some (2, true, false) := by
    decide +kernel
  obtain ⟨s, hreach, hvalue⟩ := Machine.exists_reachable_of_run
    (registered_initial .serial (by decide)) hrun
  simp only [Prod.mk.injEq] at hvalue
  obtain ⟨hcount, hasked, hflag⟩ := hvalue
  refine ⟨s, hreach, fun h => ?_⟩
  have hint := (h.asked .rx (by omega) hasked).1
  rw [hflag] at hint
  cases hint

end RtThread.Device
