import RtThread.Blocking.Sections
import RtThread.Lib.Ring

namespace RtThread.Blocking

open RtThread.Lib RtThread.Ipc RtThread.Scheduler Blocking.System

def Mailbox.contents (mb : Mailbox) : List Nat :=
  ringContents mb.msgPool mb.size mb.outOffset mb.entry

structure RingOk (mb : Mailbox) : Prop where
  size_pos : 1 ≤ mb.size
  size_le : mb.size ≤ 65535
  entry_le : mb.entry ≤ mb.size
  outOffset_lt : mb.outOffset < mb.size
  inOffset_eq : mb.inOffset = (mb.outOffset + mb.entry) % mb.size
  fifo : mb.sent = mb.received ++ mb.contents

section Ring

variable {mb : Mailbox}

theorem nextOffset_eq {size offset : Nat} (hsize : size ≤ 65535) (hlt : offset < size) :
    nextOffset size offset = (offset + 1) % size := by
  have hinc : inc16 offset = offset + 1 := Nat.mod_eq_of_lt (by omega)
  unfold nextOffset
  rw [hinc]
  split
  next hend =>
    have heq : offset + 1 = size := by omega
    rw [heq, Nat.mod_self]
  next hend => rw [Nat.mod_eq_of_lt (by omega)]

theorem RingOk.put (hring : RingOk mb) (hroom : mb.entry < mb.size) (value : Nat) :
    RingOk (mb.put value) := by
  have hsize := hring.size_le
  have hpos := hring.size_pos
  have hinc : inc16 mb.entry = mb.entry + 1 := Nat.mod_eq_of_lt (by omega)
  have hin : mb.inOffset < mb.size := by
    rw [hring.inOffset_eq]
    exact Nat.mod_lt _ hpos
  refine ⟨hpos, hsize, ?_, hring.outOffset_lt, ?_, ?_⟩
  · simp only [Mailbox.put, hinc]
    omega
  · simp only [Mailbox.put, hinc, nextOffset_eq hsize hin]
    rw [hring.inOffset_eq, Nat.mod_add_mod, Nat.add_assoc]
  · simp only [Mailbox.put, Mailbox.contents, hinc, hring.inOffset_eq]
    rw [ringContents_put hroom, hring.fifo, List.append_assoc]
    rfl

theorem RingOk.get (hring : RingOk mb) (hmail : 0 < mb.entry) : RingOk mb.get := by
  have hsize := hring.size_le
  have hout := hring.outOffset_lt
  obtain ⟨rest, hrest⟩ : ∃ rest, mb.entry = rest + 1 := ⟨mb.entry - 1, by omega⟩
  have hdec : dec16 mb.entry = rest := by
    unfold dec16
    rw [if_neg (by omega)]
    omega
  have hcontents := hring.fifo
  rw [Mailbox.contents, hrest, ringContents_get hout] at hcontents
  refine ⟨hring.size_pos, hsize, ?_, ?_, ?_, ?_⟩
  · have hle := hring.entry_le
    simp only [Mailbox.get, hdec]
    omega
  · simp only [Mailbox.get, nextOffset_eq hsize hout]
    exact Nat.mod_lt _ hring.size_pos
  · simp only [Mailbox.get, hdec, nextOffset_eq hsize hout]
    rw [hring.inOffset_eq, hrest, Nat.mod_add_mod]
    congr 1
    omega
  · simp only [Mailbox.get, Mailbox.contents, hdec, nextOffset_eq hsize hout]
    rw [hcontents, List.append_assoc]
    rfl

end Ring

/-- While a receiver sleeps there is at most one mail for each receiver that has been
woken and has not looked yet, and likewise for the senders and the free places.
`extra` allows for the thread that is about to look. -/
structure MailOk (x : Core) (o : ObjId) (mb : Mailbox) (extra : Side → Nat) : Prop where
  ring : RingOk mb
  receivers : x.list o .receiver ≠ [] →
    mb.entry ≤ (x.granted o .receiver).length + extra .receiver
  senders : x.list o .sender ≠ [] →
    mb.size - mb.entry ≤ (x.granted o .sender).length + extra .sender

def MailInv (x : Core) (o : ObjId) : Prop :=
  ∀ mb, x.object o = .mailbox mb → 1 ≤ mb.size → MailOk x o mb (fun _ => 0)

section Frame

variable {x x' : Core} {o : ObjId} {mb : Mailbox} {extra : Side → Nat}

theorem MailOk.of_same (hmail : MailOk x o mb extra)
    (hlist : ∀ side, x'.list o side ≠ [] → x.list o side ≠ [])
    (hgranted : ∀ side, (x.granted o side).length ≤ (x'.granted o side).length) :
    MailOk x' o mb extra :=
  ⟨hmail.ring, fun h => (hmail.receivers (hlist _ h)).trans (Nat.add_le_add_right (hgranted _) _),
    fun h => (hmail.senders (hlist _ h)).trans (Nat.add_le_add_right (hgranted _) _)⟩

theorem MailInv.of_same (hinv : MailInv x o) (hobject : x'.object o = x.object o)
    (hlist : ∀ side, x'.list o side ≠ [] → x.list o side ≠ [])
    (hgranted : ∀ side, (x.granted o side).length ≤ (x'.granted o side).length) :
    MailInv x' o := by
  intro mb hmb hsize
  rw [hobject] at hmb
  exact (hinv mb hmb hsize).of_same hlist hgranted

theorem list_ne_nil_of_remove {t : Tid} {list : List Tid} (hne : listRemove t list ≠ []) :
    list ≠ [] := by
  rintro rfl
  exact hne rfl

theorem granted_grant_self {side : Side} {t : Tid} {received : BitVec 32} :
    (x.grant o side t received).granted o side = t :: x.granted o side := by
  simp [Core.grant]

theorem granted_grant_of_ne {o' : ObjId} {side side' : Side} {t : Tid} {received : BitVec 32}
    (hne : ¬ (o' = o ∧ side' = side)) :
    (x.grant o side t received).granted o' side' = x.granted o' side' := by
  unfold Core.grant
  by_cases ho : o' = o
  · subst ho
    have hside : side' ≠ side := fun h => hne ⟨rfl, h⟩
    simp [hside]
  · simp [ho]

theorem MailInv.apply (hmail : MailInv x o) (hinv : CoreInv x) {e : Effect}
    (henabled : x.Enabled e) (htouches : ¬ e.Touches x o) : MailInv (x.apply e) o := by
  cases e with
  | error t code => exact hmail.of_same rfl (fun _ h => h) (fun _ => Nat.le_refl _)
  | request t set option => exact hmail.of_same rfl (fun _ h => h) (fun _ => Nat.le_refl _)
  | object o' object =>
    have hne : o ≠ o' := fun h => htouches h.symm
    exact hmail.of_same (by simp [Core.apply, hne]) (fun _ h => h) (fun _ => Nat.le_refl _)
  | block t o' request timeout tick =>
    refine hmail.of_same rfl (fun side h => ?_) (fun _ => Nat.le_refl _)
    have hne : ¬ (o = o' ∧ side = request.side) := fun hand => htouches hand.1.symm
    have hsame : (x.apply (.block t o' request timeout tick)).list o side = x.list o side :=
      block_list_of_ne hne
    rwa [hsame] at h
  | grant o' side t received =>
    refine hmail.of_same rfl (fun side' h => list_ne_nil_of_remove h) (fun side' => ?_)
    have hne : ¬ (o = o' ∧ side' = side) := fun hand => htouches hand.1.symm
    have hsame : (x.apply (.grant o' side t received)).granted o side' =
        x.granted o side' := granted_grant_of_ne hne
    rw [hsame]
  | refuse o' side t =>
    exact hmail.of_same rfl (fun _ h => list_ne_nil_of_remove h) (fun _ => Nat.le_refl _)
  | expire t =>
    exact hmail.of_same rfl (fun _ h => list_ne_nil_of_remove h) (fun _ => Nat.le_refl _)
  | priority t priority => exact hmail.of_same rfl (fun _ h => h) (fun _ => Nat.le_refl _)
  | finish t =>
    refine hmail.of_same rfl (fun _ h => h) (fun side => ?_)
    obtain ⟨wait, hwait⟩ := Option.ne_none_iff_exists'.mp henabled.2
    obtain ⟨waker, -, -, -, -, hgranted⟩ := (hinv.state t).of_ready hwait henabled.1
    have hfree : t ∉ x.granted o side := by
      intro hmem
      exact htouches ⟨wait, hwait, ((hgranted o side).mp hmem).2.1.symm⟩
    have hsame : (x.apply (.finish t)).granted o side = x.granted o side :=
      listRemove_of_not_mem hfree
    rw [hsame]

theorem MailInv.path (hmail : MailInv x o) (hinv : CoreInv x)
    {allowed : Core → Effect → Prop} (htouches : ∀ x e, allowed x e → ¬ e.Touches x o)
    (hpath : coreMachine.Path allowed x x') : MailInv x' o := by
  have hboth : CoreInv x' ∧ MailInv x' o := by
    refine hpath.invariant (fun x => CoreInv x ∧ MailInv x o)
      (fun x e x' hold hallowed hexec => ?_) ⟨hinv, hmail⟩
    obtain ⟨henabled, rfl⟩ := coreMachine_exec hexec
    exact ⟨hold.1.apply henabled, hold.2.apply hold.1 henabled (htouches x e hallowed)⟩
  exact hboth.2

theorem MailOk.finish (hmail : MailOk x o mb (fun _ => 0)) (hinv : CoreInv x) {t : Tid}
    {wait : Wait} (hwait : x.wait t = some wait) (hready : (x.view t).stat = .ready) :
    MailOk (x.finish t) o mb (fun side => if side = wait.request.side then 1 else 0) := by
  obtain ⟨waker, -, -, -, -, hgranted⟩ := (hinv.state t).of_ready hwait hready
  have hlength : ∀ side, (x.granted o side).length ≤
      ((x.finish t).granted o side).length + if side = wait.request.side then 1 else 0 := by
    intro side
    by_cases hmem : t ∈ x.granted o side
    · rw [if_pos ((hgranted o side).mp hmem).2.2]
      exact (length_listRemove (hinv.grants o side) hmem).symm.le
    · have hsame : (x.finish t).granted o side = x.granted o side :=
        listRemove_of_not_mem hmem
      rw [hsame]
      exact Nat.le_add_right _ _
  exact ⟨hmail.ring, fun h => (hmail.receivers h).trans (hlength .receiver),
    fun h => (hmail.senders h).trans (hlength .sender)⟩

theorem MailInv.finish_failed (hmail : MailInv x o) (hinv : CoreInv x) {t : Tid}
    {wait : Wait} (hwait : x.wait t = some wait) (hready : (x.view t).stat = .ready)
    (herror : (x.view t).error ≠ rtEok) : MailInv (x.finish t) o := by
  obtain ⟨waker, hcode, -, -, -, hgranted⟩ := (hinv.state t).of_ready hwait hready
  refine hmail.of_same rfl (fun _ h => h) (fun side => ?_)
  have hfree : t ∉ x.granted o side := by
    intro hmem
    rw [((hgranted o side).mp hmem).1] at hcode
    exact herror hcode
  have hsame : (x.finish t).granted o side = x.granted o side := listRemove_of_not_mem hfree
  rw [hsame]

end Frame

section Calls

variable {cfg : Config} {s s' : System} {c : Nat} {t : Tid} {o : ObjId} {mb : Mailbox}
  {extra : Side → Nat}

theorem listResume_counts (hinv : SystemInv cfg s) (side : Side) :
    (∀ side', (s.listResume cfg c o side).list o side' ≠ [] → s.list o side' ≠ []) ∧
      ((s.listResume cfg c o side).list o side ≠ [] →
        ((s.listResume cfg c o side).granted o side).length = (s.granted o side).length + 1) ∧
      ∀ side', side' ≠ side →
        (s.listResume cfg c o side).granted o side' = s.granted o side' := by
  unfold listResume
  split
  next hlist => exact ⟨fun _ h => h, fun h => absurd hlist h, fun _ _ => rfl⟩
  next first rest hlist =>
    have hmem : first ∈ s.list o side := by
      rw [hlist]
      exact List.mem_cons_self
    have hcore := (core_grant (c := c) (o := o) hinv.live (hinv.stat_of_mem hmem) side).1
    refine ⟨fun side' h => ?_, fun _ => ?_, fun side' hne => ?_⟩
    · have hshrinks := congrArg (fun x => Core.list x o side') hcore
      have hremove : (s.grant cfg c o side first).list o side' =
          listRemove first (s.list o side') := hshrinks
      rw [hremove] at h
      exact list_ne_nil_of_remove h
    · have hgrows : (s.grant cfg c o side first).granted o side = first :: s.granted o side :=
        (congrArg (fun x => Core.granted x o side) hcore).trans granted_grant_self
      rw [hgrows, List.length_cons]
    · exact (congrArg (fun x => Core.granted x o side') hcore).trans
        (granted_grant_of_ne fun h => hne h.2)

theorem MailOk.full (hmail : MailOk s.core o mb extra) (hextra : extra .receiver = 0)
    (hfull : mb.entry = mb.size) : MailOk s.core o mb (fun _ => 0) := by
  refine ⟨hmail.ring, fun h => ?_, fun h => ?_⟩
  · have hle := hmail.receivers h
    rwa [hextra] at hle
  · rw [hfull, Nat.sub_self]
    exact Nat.zero_le _

theorem MailOk.empty (hmail : MailOk s.core o mb extra) (hextra : extra .sender = 0)
    (hempty : mb.entry = 0) : MailOk s.core o mb (fun _ => 0) := by
  refine ⟨hmail.ring, fun h => ?_, fun h => ?_⟩
  · rw [hempty]
    exact Nat.zero_le _
  · have hle := hmail.senders h
    rwa [hextra] at hle

theorem MailInv.setError (hmail : MailInv s.core o) (t : Tid) (code : Int) :
    MailInv (s.setError t code).core o := by
  rw [core_setError]
  exact hmail.of_same rfl (fun _ h => h) (fun _ => Nat.le_refl _)

theorem mbSendLoop_mail (hinv : SystemInv cfg s) (hc : c < cfg.cpusNr)
    (hobject : s.object o = .mailbox mb)
    (hmail : MailOk s.core o mb extra) (hreceiver : extra .receiver = 0)
    (hsender : extra .sender ≤ 1) {value : Nat} {timeout : Int}
    (hexec : s.mbSendLoop cfg c t o mb value timeout = some s') : MailInv s'.core o := by
  unfold mbSendLoop at hexec
  split at hexec
  next hfull =>
    have hold : MailInv s.core o := by
      intro mb' hmb' _
      cases hobject.symm.trans hmb'
      exact hmail.full hreceiver hfull
    dsimp only at hexec
    split at hexec
    · cases hexec
      exact hold.setError t rtEok
    · have hlive : Live cfg (s.setError t rtEok).kernel := hinv.live.setThread rfl rfl
      obtain ⟨-, hcore, -⟩ := block_spec hlive hc hexec
      rw [hcore]
      intro mb' hmb' hsize
      cases hobject.symm.trans hmb'
      have hok := hold.setError t rtEok mb hobject hsize
      refine ⟨hok.ring, fun h => hok.receivers ?_, fun _ => ?_⟩
      · rwa [block_list_of_ne (by simp [Request.side])] at h
      · rw [hfull, Nat.sub_self]
        exact Nat.zero_le _
  next hroom =>
    cases hexec
    have hring := hmail.ring
    have hlt : mb.entry < mb.size := Nat.lt_of_le_of_ne hring.entry_le hroom
    have hsize := hring.size_le
    have hinc : inc16 mb.entry = mb.entry + 1 := Nat.mod_eq_of_lt (by omega)
    have hset : SystemInv cfg (s.setObject o (.mailbox (mb.put value))) :=
      hinv.setObject (by simp [hobject])
    intro mb' hmb' _
    have hput : mb' = mb.put value := by
      have hobject' : ((s.setObject o (.mailbox (mb.put value))).listResume cfg c o
          .receiver).object o = .mailbox mb' := hmb'
      simpa using hobject'.symm
    subst hput
    obtain ⟨hlists, hwoken, hother⟩ := listResume_counts (c := c) (o := o) hset .receiver
    refine ⟨hring.put hlt value, fun h => ?_, fun h => ?_⟩
    · have hold := hmail.receivers (hlists .receiver h)
      have hnew := hwoken h
      rw [hreceiver] at hold
      show inc16 mb.entry ≤ (granted _ o .receiver).length + 0
      rw [show (granted _ o .receiver).length = _ from hnew, hinc]
      exact Nat.succ_le_succ hold
    · have hold := hmail.senders (hlists .sender h)
      have hnew := hother .sender (by decide)
      show mb.size - inc16 mb.entry ≤ (granted _ o .sender).length + 0
      rw [show granted _ o .sender = _ from hnew, hinc]
      have hgoal : mb.size - (mb.entry + 1) ≤ (s.granted o .sender).length := by
        have hsame : (s.core.granted o .sender).length = (s.granted o .sender).length := rfl
        omega
      exact hgoal

theorem mbRecvLoop_mail (hinv : SystemInv cfg s) (hc : c < cfg.cpusNr)
    (hobject : s.object o = .mailbox mb)
    (hmail : MailOk s.core o mb extra) (hsender : extra .sender = 0)
    (hreceiver : extra .receiver ≤ 1) {timeout : Int}
    (hexec : s.mbRecvLoop cfg c t o mb timeout = some s') : MailInv s'.core o := by
  unfold mbRecvLoop at hexec
  split at hexec
  next hempty =>
    have hold : MailInv s.core o := by
      intro mb' hmb' _
      cases hobject.symm.trans hmb'
      exact hmail.empty hsender hempty
    dsimp only at hexec
    split at hexec
    · cases hexec
      exact (hold.setError t rtEok).setError t (-rtEtimeout)
    · have hlive : Live cfg (s.setError t rtEok).kernel := hinv.live.setThread rfl rfl
      obtain ⟨-, hcore, -⟩ := block_spec hlive hc hexec
      rw [hcore]
      intro mb' hmb' hsize
      cases hobject.symm.trans hmb'
      have hok := hold.setError t rtEok mb hobject hsize
      refine ⟨hok.ring, fun _ => ?_, fun h => hok.senders ?_⟩
      · rw [hempty]
        exact Nat.zero_le _
      · rwa [block_list_of_ne (by simp [Request.side])] at h
  next hmails =>
    cases hexec
    have hring := hmail.ring
    have hpos : 0 < mb.entry := Nat.pos_of_ne_zero hmails
    have hle := hring.entry_le
    have hdec : dec16 mb.entry = mb.entry - 1 := if_neg hmails
    have hset : SystemInv cfg (s.setObject o (.mailbox mb.get)) :=
      hinv.setObject (by simp [hobject])
    intro mb' hmb' _
    have hget : mb' = mb.get := by
      have hobject' : ((s.setObject o (.mailbox mb.get)).listResume cfg c o
          .sender).object o = .mailbox mb' := hmb'
      simpa using hobject'.symm
    subst hget
    obtain ⟨hlists, hwoken, hother⟩ := listResume_counts (c := c) (o := o) hset .sender
    refine ⟨hring.get hpos, fun h => ?_, fun h => ?_⟩
    · have hold := hmail.receivers (hlists .receiver h)
      have hnew := hother .receiver (by decide)
      show dec16 mb.entry ≤ (granted _ o .receiver).length + 0
      rw [show granted _ o .receiver = _ from hnew, hdec]
      have hgoal : mb.entry - 1 ≤ (s.granted o .receiver).length := by
        have hsame : (s.core.granted o .receiver).length = (s.granted o .receiver).length := rfl
        omega
      exact hgoal
    · have hold := hmail.senders (hlists .sender h)
      have hnew := hwoken h
      rw [hsender] at hold
      show mb.size - dec16 mb.entry ≤ (granted _ o .sender).length + 0
      rw [show (granted _ o .sender).length = _ from hnew, hdec]
      have hgoal : mb.size - (mb.entry - 1) ≤ (s.granted o .sender).length + 1 := by
        have hsame : (s.core.granted o .sender).length = (s.granted o .sender).length := rfl
        omega
      exact hgoal

theorem resumeEach_list_nil {list : List Tid} {side : Side} (hnil : s.list o side = [])
    (hexec : resumeEach cfg c list s = some s') : s'.list o side = [] := by
  induction list generalizing s with
  | nil =>
    cases hexec
    exact hnil
  | cons u rest ih =>
    simp only [resumeEach] at hexec
    split at hexec
    · refine ih ?_ hexec
      unfold resume
      split
      · exact hnil
      · show listRemove u (s.list o side) = []
        rw [hnil]
        rfl
    · cases hexec

theorem rtMbReset_mail (hinv : SystemInv cfg s) (hsize : mb.size ≤ 65535)
    (hexec : s.rtMbReset cfg c o mb = some s') : MailInv s'.core o := by
  simp only [rtMbReset, Option.bind_eq_bind, Option.bind_eq_some_iff, Option.pure_def,
    Option.some.injEq] at hexec
  obtain ⟨first, hfirst, second, hsecond, rfl⟩ := hexec
  have hmoves : Moves cfg (fun _ _ => True) s first ∧ first.list o .receiver = [] ∧
      first.object = s.object := listResumeAll_moves hinv (fun _ _ _ _ => trivial) hfirst
  have hmoves' : Moves cfg (fun _ _ => True) first second ∧ second.list o .sender = [] ∧
      second.object = first.object :=
    listResumeAll_moves (hmoves.1.inv hinv) (fun _ _ _ _ => trivial) hsecond
  have hreceivers : second.list o .receiver = [] := resumeEach_list_nil hmoves.2.1 hsecond
  intro mb' hmb' hpos
  simp only [core, returns, setObject, Function.update_self, IpcObject.mailbox.injEq] at hmb'
  subst hmb'
  refine ⟨⟨hpos, hsize, Nat.zero_le _, hpos, ?_, rfl⟩, fun h => ?_, fun h => ?_⟩
  · simp
  · exact absurd hreceivers h
  · exact absurd hmoves'.2.1 h

end Calls

def IpcObject.mailbox? : IpcObject → Option Mailbox
  | .mailbox mb => some mb
  | _ => none

theorem IpcObject.mailbox?_eq_some {object : IpcObject} {mb : Mailbox} :
    object.mailbox? = some mb ↔ object = .mailbox mb := by
  cases object <;> simp [IpcObject.mailbox?]

inductive MailCall
  | send (value : Nat)
  | recv
  | reset

def Call.mail : Call → Option MailCall
  | .mbSend value | .mbSendWait value _ => some (.send value)
  | .mbRecv _ => some .recv
  | .mbReset => some .reset
  | _ => none

def Request.mail : Request → Option MailCall
  | .mbSend value => some (.send value)
  | .mbRecv => some .recv
  | _ => none

def BlockOp.mail (s : System) (o : ObjId) : BlockOp → Option MailCall
  | .call _ o' ipcCall => if o' = o then ipcCall.mail else none
  | .proceed c =>
    ((s.kernel.cpu c).currentThread.bind s.wait).bind fun wait =>
      if wait.obj = o then wait.request.mail else none
  | _ => none

/-- What a section does to a mailbox, and what it then returns.  A call that has failed
or that waits returns no `RT_EOK` and leaves the mailbox alone. -/
inductive MailStep (mb mb' : Mailbox) (result : Option Result) : Option MailCall → Prop
  | none : mb' = mb → MailStep mb mb' result none
  | failed (call : MailCall) : mb' = mb → (∀ r, result = some r → r.code ≠ rtEok) →
      MailStep mb mb' result (some call)
  | put (value : Nat) : mb' = mb.put value → result = some ⟨rtEok, Option.none⟩ →
      MailStep mb mb' result (some (.send value))
  | get : mb' = mb.get → result = some ⟨rtEok, some (mb.msgPool mb.outOffset)⟩ →
      MailStep mb mb' result (some .recv)
  | reset : mb' =
        { mb with entry := 0, inOffset := 0, outOffset := 0, sent := [], received := [] } →
      result = some ⟨rtEok, Option.none⟩ → MailStep mb mb' result (some .reset)

section Steps

variable {cfg : Config} {s s' : System} {c : Nat} {t : Tid} {o : ObjId} {mb mb' : Mailbox}

theorem MailStep.size_eq {result : Option Result} {call : Option MailCall}
    (hstep : MailStep mb mb' result call) : mb'.size = mb.size := by
  cases hstep with
  | none heq => rw [heq]
  | failed call heq _ => rw [heq]
  | put value heq _ => rw [heq]; rfl
  | get heq _ => rw [heq]; rfl
  | reset heq _ => rw [heq]

theorem MailStep.returns {code : Int} (hcode : code ≠ rtEok) (call : MailCall) :
    MailStep mb mb (s.returns code).result (some call) := by
  refine .failed call rfl fun r hr => ?_
  cases hr
  exact hcode

theorem result_block {request : Request} {timeout : Int}
    (hexec : s.block cfg c t o request timeout = some s') : s'.result = none := by
  unfold block at hexec
  split at hexec
  · obtain ⟨_, -, rfl⟩ := Option.map_eq_some_iff.mp hexec
    rfl
  · cases hexec

theorem MailStep.block {request : Request} {timeout : Int}
    (hexec : s.block cfg c t o request timeout = some s') (call : MailCall) :
    MailStep mb mb s'.result (some call) := by
  refine .failed call rfl fun r hr => ?_
  rw [result_block hexec] at hr
  cases hr

theorem mbSendLoop_step {value : Nat} {timeout : Int} (hobject : s.object o = .mailbox mb)
    (hexec : s.mbSendLoop cfg c t o mb value timeout = some s') :
    ∃ mb', s'.object o = .mailbox mb' ∧ MailStep mb mb' s'.result (some (.send value)) := by
  unfold mbSendLoop at hexec
  split at hexec
  · dsimp only at hexec
    split at hexec
    · cases hexec
      exact ⟨mb, hobject, .returns (by decide) _⟩
    · exact ⟨mb, by rw [object_block hexec]; exact hobject, .block hexec _⟩
  · cases hexec
    exact ⟨mb.put value, by simp, .put value rfl rfl⟩

theorem mbRecvLoop_step {timeout : Int} (hobject : s.object o = .mailbox mb)
    (hexec : s.mbRecvLoop cfg c t o mb timeout = some s') :
    ∃ mb', s'.object o = .mailbox mb' ∧ MailStep mb mb' s'.result (some .recv) := by
  unfold mbRecvLoop at hexec
  split at hexec
  · dsimp only at hexec
    split at hexec
    · cases hexec
      exact ⟨mb, hobject, .returns (by decide) _⟩
    · exact ⟨mb, by rw [object_block hexec]; exact hobject, .block hexec _⟩
  · cases hexec
    exact ⟨mb.get, by simp, .get rfl rfl⟩

theorem mailboxCall_cases (hobject : s.object o = .mailbox mb) {call : Call}
    (hexec : s.call cfg c t o call = some s') :
    (∃ mail code, call.mail = some mail ∧ code ≠ rtEok ∧ s' = s.returns code) ∨
      (∃ value timeout, call.mail = some (.send value) ∧
        s.mbSendLoop cfg c t o mb value timeout = some s') ∨
      (∃ timeout, call.mail = some .recv ∧ s.mbRecvLoop cfg c t o mb timeout = some s') ∨
      (call.mail = some .reset ∧ s.rtMbReset cfg c o mb = some s') := by
  unfold System.call at hexec
  split at hexec <;> (try (rename_i hother; rw [hobject] at hother; cases hother; done))
  next mb' value hmb =>
    cases hobject.symm.trans hmb
    simp only [rtMbSend, rtMbSendWait] at hexec
    split at hexec
    · exact .inl ⟨_, _, rfl, by decide, (Option.some.inj hexec).symm⟩
    · exact .inr (.inl ⟨value, 0, rfl, hexec⟩)
  next mb' value timeout hmb =>
    cases hobject.symm.trans hmb
    unfold rtMbSendWait at hexec
    split at hexec
    · exact .inl ⟨_, _, rfl, by decide, (Option.some.inj hexec).symm⟩
    · exact .inr (.inl ⟨value, timeout, rfl, hexec⟩)
  next mb' timeout hmb =>
    cases hobject.symm.trans hmb
    unfold rtMbRecv at hexec
    split at hexec
    · exact .inl ⟨_, _, rfl, by decide, (Option.some.inj hexec).symm⟩
    · exact .inr (.inr (.inl ⟨timeout, rfl, hexec⟩))
  next mb' hmb =>
    cases hobject.symm.trans hmb
    exact .inr (.inr (.inr ⟨rfl, hexec⟩))
  · cases hexec

theorem mailboxResume_cases (hinv : SystemInv cfg s) {wait : Wait}
    (hwait : s.wait t = some wait) (hobject : s.object wait.obj = .mailbox mb)
    (hexec : s.resumeCall cfg c t wait = some s') :
    (∃ mail, wait.request.mail = some mail ∧ s.error t ≠ rtEok ∧
        s' = (s.finish t).returns (s.error t)) ∨
      (∃ value timeout, wait.request = .mbSend value ∧
        (s.finish t).mbSendLoop cfg c t wait.obj mb value timeout = some s') ∨
      ∃ timeout, wait.request = .mbRecv ∧
        (s.finish t).mbRecvLoop cfg c t wait.obj mb timeout = some s' := by
  have hkind : wait.request.kind = .mailbox := by
    rw [hinv.core.kind t wait hwait, show s.core.object wait.obj = _ from hobject]
    rfl
  unfold resumeCall at hexec
  dsimp only at hexec
  split at hexec
  next herror =>
    cases hexec
    refine .inl ?_
    cases hrequest : wait.request with
    | mbSend value => exact ⟨_, rfl, herror, rfl⟩
    | mbRecv => exact ⟨_, rfl, herror, rfl⟩
    | semTake | mutexTake | eventRecv | mqRecv => rw [hrequest] at hkind; cases hkind
  · split at hexec
    next hrequest => rw [hrequest] at hkind; cases hkind
    next hrequest => rw [hrequest] at hkind; cases hkind
    next hrequest => rw [hrequest] at hkind; cases hkind
    next value mb' hrequest hmb =>
      cases hobject.symm.trans hmb
      exact .inr (.inl ⟨value, _, hrequest, hexec⟩)
    next mb' hrequest hmb =>
      cases hobject.symm.trans hmb
      exact .inr (.inr ⟨_, hrequest, hexec⟩)
    next hrequest _ => rw [hrequest] at hkind; cases hkind
    · cases hexec

theorem rtMbReset_step (hexec : s.rtMbReset cfg c o mb = some s') :
    ∃ mb', s'.object o = .mailbox mb' ∧ MailStep mb mb' s'.result (some .reset) := by
  simp only [rtMbReset, Option.bind_eq_bind, Option.bind_eq_some_iff, Option.pure_def,
    Option.some.injEq] at hexec
  obtain ⟨_, -, _, -, rfl⟩ := hexec
  exact ⟨_, by simp, .reset rfl rfl⟩

theorem object_path {x x' : Core} {allowed : Core → Effect → Prop}
    (htouches : ∀ x e, allowed x e → ¬ e.Touches x o)
    (hpath : coreMachine.Path allowed x x') : x'.object o = x.object o := by
  refine hpath.invariant (fun y => y.object o = x.object o)
    (fun y e y' hsame hallowed hexec => ?_) rfl
  obtain ⟨-, rfl⟩ := coreMachine_exec hexec
  have hnot := htouches y e hallowed
  cases e with
  | object o' object =>
    have hne : o ≠ o' := fun h => hnot h.symm
    simpa [Core.apply, hne] using hsame
  | error _ _ | request _ _ _ | block _ _ _ _ _ | grant _ _ _ _ | refuse _ _ _ | expire _
  | priority _ _ | finish _ => exact hsame

theorem mail_of_target_ne {op : BlockOp} (htarget : op.target s ≠ some o) : op.mail s o = none := by
  cases op with
  | call c o' call =>
    have hne : o' ≠ o := fun h => htarget (by rw [h]; rfl)
    simp [BlockOp.mail, hne]
  | proceed c =>
    cases hwait : (s.kernel.cpu c).currentThread.bind s.wait with
    | none => simp [BlockOp.mail, hwait]
    | some wait =>
      have hne : wait.obj ≠ o := fun h => htarget (by simp [BlockOp.target, hwait, h])
      simp [BlockOp.mail, hwait, hne]
  | schedule _ | doIrqSwitch _ | ipiHandler _ | interruptEnter _ | interruptLeave _
  | timeout _ _ | changePriority _ _ _ | tick _ => rfl

theorem exec_mailStep (hinv : SystemInv cfg s) (hobject : s.object o = .mailbox mb)
    {op : BlockOp} (hexec : s.exec cfg op = some s') :
    ∃ mb', s'.object o = .mailbox mb' ∧ MailStep mb mb' s'.result (op.mail s o) := by
  by_cases htarget : op.target s = some o
  · rcases exec_target_cases htarget hexec with
      ⟨c, t, call, rfl, -, hcall⟩ | ⟨c, t, wait, ⟨rfl, hcurrent⟩, -, hwait, -, rfl, hresume⟩
    · rw [show BlockOp.mail s o (.call c o call) = call.mail from if_pos rfl]
      rcases mailboxCall_cases hobject hcall with
        ⟨mail, code, hmail, hcode, rfl⟩ | ⟨value, timeout, hmail, hloop⟩ |
          ⟨timeout, hmail, hloop⟩ | ⟨hmail, hreset⟩ <;> rw [hmail]
      · exact ⟨mb, hobject, .returns hcode _⟩
      · exact mbSendLoop_step hobject hloop
      · exact mbRecvLoop_step hobject hloop
      · exact rtMbReset_step hreset
    · have hmail : BlockOp.mail s wait.obj (.proceed c) = wait.request.mail := by
        simp [BlockOp.mail, hcurrent, hwait]
      rw [hmail]
      have hobject' : (s.finish t).object wait.obj = .mailbox mb := hobject
      rcases mailboxResume_cases hinv hwait hobject hresume with
        ⟨mail, hmail, herror, rfl⟩ | ⟨value, timeout, hrequest, hloop⟩ |
          ⟨timeout, hrequest, hloop⟩
      · rw [hmail]
        exact ⟨mb, hobject, .returns herror _⟩
      · rw [hrequest]
        exact mbSendLoop_step hobject' hloop
      · rw [hrequest]
        exact mbRecvLoop_step hobject' hloop
  · have hsame : s'.object o = s.object o :=
      object_path (fun x e hallowed htouches => htarget (hallowed.1 o htouches))
        (exec_moves hinv hexec).path
    rw [mail_of_target_ne htarget]
    exact ⟨mb, hsame.trans hobject, .none rfl⟩

theorem MailInv.target (hmail : MailInv s.core o) (hinv : SystemInv cfg s)
    (hobject : s.object o = .mailbox mb) (hsize : 1 ≤ mb.size) {op : BlockOp}
    (htarget : op.target s = some o) (hexec : s.exec cfg op = some s') :
    MailInv s'.core o := by
  have hok := hmail mb hobject hsize
  rcases exec_target_cases htarget hexec with
    ⟨c, t, call, -, hc, hcall⟩ | ⟨c, t, wait, -, hc, hwait, hready, rfl, hresume⟩
  · rcases mailboxCall_cases hobject hcall with
      ⟨_, _, -, -, rfl⟩ | ⟨value, timeout, -, hloop⟩ | ⟨timeout, -, hloop⟩ | ⟨-, hreset⟩
    · exact hmail
    · exact mbSendLoop_mail hinv hc hobject hok rfl (Nat.zero_le 1) hloop
    · exact mbRecvLoop_mail hinv hc hobject hok rfl (Nat.zero_le 1) hloop
    · exact rtMbReset_mail hinv hok.ring.size_le hreset
  · have hfinish : Moves cfg (fun _ _ => True) s (s.finish t) :=
      .finish hinv hwait hready (fun _ _ _ _ => trivial)
    have hlook := hok.finish hinv.core hwait hready
    rcases mailboxResume_cases hinv hwait hobject hresume with
      ⟨_, -, herror, rfl⟩ | ⟨value, timeout, hrequest, hloop⟩ | ⟨timeout, hrequest, hloop⟩
    · exact hmail.finish_failed hinv.core hwait hready herror
    · rw [hrequest] at hlook
      exact mbSendLoop_mail (hfinish.inv hinv) hc hobject hlook rfl (Nat.le_refl 1) hloop
    · rw [hrequest] at hlook
      exact mbRecvLoop_mail (hfinish.inv hinv) hc hobject hlook rfl (Nat.le_refl 1) hloop

theorem MailInv.exec (hmail : MailInv s.core o) (hinv : SystemInv cfg s) {op : BlockOp}
    (hexec : s.exec cfg op = some s') : MailInv s'.core o := by
  by_cases htarget : op.target s = some o
  · intro mb' hmb' hsize
    have hkind : (s.object o).kind = .mailbox := by
      rw [← exec_kind hinv hexec o, show s'.object o = _ from hmb']
      rfl
    obtain ⟨mb, hobject⟩ : ∃ mb, s.object o = .mailbox mb := by
      cases hold : s.object o with
      | mailbox mb => exact ⟨mb, rfl⟩
      | semaphore _ | mutex _ | event _ | messageQueue _ => rw [hold] at hkind; cases hkind
    obtain ⟨mb'', hobject'', hstep⟩ := exec_mailStep hinv hobject hexec
    cases hobject''.symm.trans hmb'
    rw [hstep.size_eq] at hsize
    exact hmail.target hinv hobject hsize htarget hexec mb' hmb' (hstep.size_eq ▸ hsize)
  · refine hmail.path hinv.core (fun x e hallowed htouches => ?_) (exec_moves hinv hexec).path
    exact htarget (hallowed.1 o htouches)

end Steps

/-- The state of a mailbox between two sections: a bounded queue whose waiters are not
forgotten.  `granted` are the threads that were woken and have not looked again. -/
structure MailboxOk (s : System) (o : ObjId) (mb : Mailbox) : Prop where
  entry_le : mb.entry ≤ mb.size
  inOffset_eq : mb.inOffset = (mb.outOffset + mb.entry) % mb.size
  fifo : mb.sent = mb.received ++ mb.contents
  woken : ∀ side, (s.granted o side).Nodup ∧ ∀ t, t ∈ s.granted o side ↔
    ∃ wait, s.wait t = some wait ∧ wait.obj = o ∧ wait.request.side = side ∧
      s.stat t = .ready ∧ s.error t = rtEok
  receivers : s.list o .receiver ≠ [] → mb.entry ≤ (s.granted o .receiver).length
  senders : s.list o .sender ≠ [] → mb.size - mb.entry ≤ (s.granted o .sender).length

theorem Waker.code_eq_eok {waker : Waker} : waker.code = rtEok ↔ waker = .grant := by
  cases waker <;> decide

theorem SystemInv.mem_granted {cfg : Config} {s : System} (hinv : SystemInv cfg s) {t : Tid}
    {o : ObjId} {side : Side} :
    t ∈ s.granted o side ↔ ∃ wait, s.wait t = some wait ∧ wait.obj = o ∧
      wait.request.side = side ∧ s.stat t = .ready ∧ s.error t = rtEok := by
  constructor
  · intro hmem
    cases hinv.core.state t with
    | outside _ _ _ _ hfree => exact absurd hmem (hfree o side)
    | asleep _ _ _ _ _ _ _ hfree => exact absurd hmem (hfree o side)
    | woken wait waker hwait hstat herror _ _ _ hgranted =>
      obtain ⟨hwaker, ho, hside⟩ := (hgranted o side).mp hmem
      exact ⟨wait, hwait, ho.symm, hside.symm, hstat, herror.trans (by rw [hwaker]; rfl)⟩
  · rintro ⟨wait, hwait, rfl, rfl, hstat, herror⟩
    obtain ⟨waker, hcode, -, -, -, hgranted⟩ := (hinv.core.state t).of_ready hwait hstat
    refine (hgranted _ _).mpr ⟨Waker.code_eq_eok.mp ?_, rfl, rfl⟩
    exact hcode.symm.trans herror

structure MailboxInv (cfg : Config) (s : System) : Prop extends SystemInv cfg s where
  mail : ∀ o, MailInv s.core o

theorem System.Initial.mailboxInv {cfg : Config} {s : System} (hinit : s.Initial cfg) :
    MailboxInv cfg s := by
  refine ⟨hinit.inv, fun o mb hmb hsize => ?_⟩
  obtain ⟨hle, hentry, hin, hout, hsent, hreceived⟩ := hinit.mailbox o mb hmb
  refine ⟨⟨hsize, hle, by omega, by omega, ?_, ?_⟩, fun h => ?_, fun h => ?_⟩
  · rw [hin, hout, hentry]
    simp
  · rw [hsent, hreceived, Mailbox.contents, hentry]
    rfl
  · exact absurd (hinit.lists o .receiver).1 h
  · exact absurd (hinit.lists o .sender).1 h

/-- In every reachable state every mailbox with places is such a queue, and each section
stores the mail of a send, takes out the mail that it returns, or leaves it as it is. -/
theorem reachable_mailboxOk {cfg : Config} {s : System}
    (hreach : (blockMachine cfg).Reachable (fun _ _ => True) s) {o : ObjId} {mb : Mailbox}
    (hobject : s.object o = .mailbox mb) (hsize : 1 ≤ mb.size) :
    MailboxOk s o mb ∧ ∀ op s', s.exec cfg op = some s' →
      ∃ mb', s'.object o = .mailbox mb' ∧ MailStep mb mb' s'.result (op.mail s o) := by
  have hinv : MailboxInv cfg s := hreach.invariant (MailboxInv cfg)
    (fun _ => Initial.mailboxInv) fun _ _ _ hinv _ hexec =>
      ⟨(exec_moves hinv.toSystemInv hexec).inv hinv.toSystemInv,
        fun o => (hinv.mail o).exec hinv.toSystemInv hexec⟩
  have hok := hinv.mail o mb hobject hsize
  refine ⟨⟨hok.ring.entry_le, hok.ring.inOffset_eq, hok.ring.fifo,
    fun side => ⟨hinv.core.grants o side, fun t => hinv.toSystemInv.mem_granted⟩,
    hok.receivers, hok.senders⟩, fun op s' hexec => ?_⟩
  exact exec_mailStep hinv.toSystemInv hobject hexec

/-- Thread 2 has been woken for mail 7 and has not looked again. -/
theorem reachable_mailboxOk_woken :
    ∃ s mb, (blockMachine (Config.flat 2)).Reachable (fun _ _ => True) s ∧
      s.object 3 = .mailbox mb ∧ mb.size = 1 ∧ mb.sent = [7] ∧ mb.received = [] ∧
      s.granted 3 .receiver = [2] ∧ MailboxOk s 3 mb := by
  have hrun : ((blockMachine (Config.flat 2)).run (fun _ _ => True) blockStart
      [.call 1 3 (.mbRecv 5), .schedule 1, .call 0 3 (.mbSend 7)]).map
        (fun s => ((s.object 3).mailbox?.map fun mb => (mb.size, mb.sent, mb.received),
          s.granted 3 .receiver)) = some (some (1, [7], []), [2]) := by
    decide +kernel
  obtain ⟨s, hreach, hvalue⟩ := Machine.exists_reachable_of_run blockStart_initial hrun
  simp only [Prod.mk.injEq, Option.map_eq_some_iff] at hvalue
  obtain ⟨⟨mb, hmb, hsize, hsent, hreceived⟩, hgranted⟩ := hvalue
  have hobject := IpcObject.mailbox?_eq_some.mp hmb
  exact ⟨s, mb, hreach, hobject, hsize, hsent, hreceived, hgranted,
    (reachable_mailboxOk hreach hobject (Nat.le_of_eq hsize.symm)).1⟩

end RtThread.Blocking
