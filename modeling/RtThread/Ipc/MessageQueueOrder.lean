import RtThread.Ipc.MessageQueue
import RtThread.Lib.Chain
import RtThread.Lib.Custody

namespace RtThread.Ipc

open Function RtThread.Lib

/-- A receiver with room for `size` bytes gets the message up to its room; behind a
message that is shorter the block shows through. -/
def Delivers (msgSize size : Nat) (message buffer : List UInt8) : Prop :=
  buffer.length = min size msgSize ∧ buffer.take message.length = message.take size

/-- What a process knows of the block it holds; `popped` are the messages that the
unlinking sections have taken out so far. -/
def MqCall.Ok (s : MqSystem) (popped : List (List UInt8)) : MqCall → Prop
  | .idle => True
  | .taken _ _ buffer => buffer.length ≤ s.msgSize
  | .copied urgent msg buffer =>
    buffer <+: s.data msg ∧ (urgent = false → s.next msg = none)
  | .waiting .. => True
  | .unlinked _ msg ticket =>
    ∃ message, popped[ticket]? = some message ∧ message <+: s.data msg
  | .received size _ ticket buffer =>
    ∃ message, popped[ticket]? = some message ∧ Delivers s.msgSize size message buffer

theorem getElem?_of_prefix {popped popped' : List α} {ticket : Nat} {message : α}
    (hmessage : popped[ticket]? = some message) (hmore : popped <+: popped') :
    popped'[ticket]? = some message := by
  obtain ⟨extra, rfl⟩ := hmore
  obtain ⟨hlt, _⟩ := List.getElem?_eq_some_iff.mp hmessage
  rw [List.getElem?_append_left hlt]
  exact hmessage

theorem MqCall.Ok.frame {s s' : MqSystem} {popped popped' : List (List UInt8)} {c : MqCall}
    (hok : c.Ok s popped) (hsize : s'.msgSize = s.msgSize)
    (hnext : ∀ b, c.block = some b → s'.next b = s.next b)
    (hdata : ∀ b, c.block = some b → s'.data b = s.data b) (hmore : popped <+: popped') :
    c.Ok s' popped' := by
  cases c with
  | idle => trivial
  | waiting size timeout tickDelta => trivial
  | taken urgent msg buffer =>
    simp only [MqCall.Ok, hsize]
    exact hok
  | copied urgent msg buffer =>
    simp only [MqCall.Ok, hnext msg rfl, hdata msg rfl]
    exact hok
  | unlinked size msg ticket =>
    obtain ⟨message, hmessage, hpre⟩ := hok
    refine ⟨message, getElem?_of_prefix hmessage hmore, ?_⟩
    rw [hdata msg rfl]
    exact hpre
  | received size msg ticket buffer =>
    obtain ⟨message, hmessage, hdelivers⟩ := hok
    refine ⟨message, getElem?_of_prefix hmessage hmore, ?_⟩
    rw [hsize]
    exact hdelivers

/-- The lists `free` and `queue` behind the pointers, and the abstract queue `d`
that the log of sections describes. -/
structure MqSystem.View (s : MqSystem) (free queue : List Nat)
    (d : Deque (List UInt8)) : Prop where
  waiters : s.toWaitQueue.Ok
  freeChain : Chain s.next s.msgQueueFree free
  queueChain : Chain s.next s.msgQueueHead queue
  tail : s.msgQueueTail = queue.getLast?
  entry : s.entry = queue.length
  maxMsgs : s.maxMsgs ≤ 65535
  blocks : Custody (· < s.maxMsgs) (free ++ queue) (MqCall.block ∘ s.call)
  data : ∀ b, (s.data b).length = s.msgSize
  log : Deque.run s.sections = some d
  contents : List.Forall₂ (· <+: ·) d.contents (queue.map s.data)
  tickets : Custody (· < d.popped.length) (s.delivered.map Delivery.ticket)
    (MqCall.ticket ∘ s.call)
  delivered : ∀ x ∈ s.delivered, ∃ message,
    d.popped[x.ticket]? = some message ∧ Delivers s.msgSize x.size message x.buffer
  calls : ∀ t, (s.call t).Ok s d.popped

namespace MqSystem.View

variable {s : MqSystem} {free queue : List Nat} {d : Deque (List UInt8)} {t : Tid}
  {msg : Nat}

section

variable (hview : s.View free queue d)
include hview

theorem nodup_queue : queue.Nodup :=
  (List.nodup_append.mp hview.blocks.nodup).2.1

theorem not_mem_free (hmem : msg ∈ queue) : msg ∉ free :=
  fun hin => (List.nodup_append.mp hview.blocks.nodup).2.2 msg hin msg hmem rfl

theorem held_not_mem (hheld : (s.call t).block = some msg) : msg ∉ free ∧ msg ∉ queue := by
  have hout := hview.blocks.apart t msg hheld
  rwa [List.mem_append, not_or] at hout

theorem held_unique (hheld : (s.call t).block = some msg)
    {u : Tid} (hu : u ≠ t) {b : Nat} (hb : (s.call u).block = some b) : b ≠ msg := by
  intro heq
  exact hu (hview.blocks.unique u t msg (heq ▸ hb) hheld)

theorem length_lt (hheld : (s.call t).block = some msg) : queue.length < s.maxMsgs := by
  have hlength := hview.blocks.length_lt hheld
  rw [List.length_append] at hlength
  omega

theorem head_eq_none_iff : s.msgQueueHead = none ↔ s.entry = 0 := by
  rw [hview.queueChain.eq_none_iff, hview.entry, List.length_eq_zero_iff]

theorem tail_eq_none_iff : s.msgQueueTail = none ↔ queue = [] := by
  rw [hview.tail, List.getLast?_eq_none_iff]

theorem other_calls (s' : MqSystem) {c : MqCall}
    {popped : List (List UInt8)} (hcall : s'.call = update s.call t c) (hsize : s'.msgSize = s.msgSize)
    (hnext : ∀ u b, u ≠ t → (s.call u).block = some b → s'.next b = s.next b)
    (hdata : ∀ u b, u ≠ t → (s.call u).block = some b → s'.data b = s.data b)
    (hmore : d.popped <+: popped) (hown : c.Ok s' popped) :
    ∀ u, (s'.call u).Ok s' popped := by
  intro u
  rw [hcall]
  by_cases hu : u = t
  · subst hu
    rw [update_self]
    exact hown
  · rw [update_of_ne hu]
    exact (hview.calls u).frame hsize (hnext u · hu) (hdata u · hu) hmore

end

theorem comp_update_call {α : Type} (f : MqCall → α) (call : Tid → MqCall) (t : Tid) (c : MqCall) :
    f ∘ update call t c = update (f ∘ call) t (f c) :=
  comp_update f call t c

theorem observe (hview : s.View free queue d) {w : WaitQueue} (hw : w.Ok)
    (tick : Nat) (result : Option Int) :
    View { s with toWaitQueue := w, tick := tick, result := result } free queue d :=
  { hview with
    waiters := hw
    calls := fun u =>
      (hview.calls u).frame rfl (fun _ _ => rfl) (fun _ _ => rfl) List.prefix_rfl }

theorem move (hview : s.View free queue d) {w : WaitQueue} (hw : w.Ok) (c : MqCall)
    (hblock : (s.call t).block = c.block) (hticket : (s.call t).ticket = c.ticket)
    (hc : c.Ok s d.popped) (result : Option Int) :
    View { s with toWaitQueue := w, call := update s.call t c, result := result }
      free queue d :=
  { hview with
    waiters := hw
    blocks := by
      rw [comp_update_call]
      exact hview.blocks.keep hblock
    tickets := by
      rw [comp_update_call]
      exact hview.tickets.keep hticket
    calls := hview.other_calls _ rfl rfl (fun _ _ _ _ => rfl) (fun _ _ _ _ => rfl)
      List.prefix_rfl (hc.frame rfl (fun _ _ => rfl) (fun _ _ => rfl) List.prefix_rfl) }

theorem takeFree (hview : s.View free queue d) (hidle : s.call t = .idle)
    (urgent : Bool) (buffer : List UInt8) :
    ∃ free', (mqTakeFree urgent t buffer s).View free' queue d := by
  simp only [mqTakeFree]
  split
  · exact ⟨free, hview.observe hview.waiters s.tick _⟩
  next hsize =>
    split
    · exact ⟨free, hview.observe hview.waiters s.tick _⟩
    next msg hfree =>
      obtain ⟨rest, rfl, hrest⟩ := (hfree ▸ hview.freeChain).eq_cons
      refine ⟨rest, { hview with freeChain := hrest, blocks := ?_, tickets := ?_, calls := ?_ }⟩
      · rw [comp_update_call]
        exact hview.blocks.take (by simp [hidle, MqCall.block])
      · rw [comp_update_call]
        exact hview.tickets.keep (by simp [hidle, MqCall.ticket])
      · exact hview.other_calls _ rfl rfl (fun _ _ _ _ => rfl) (fun _ _ _ _ => rfl)
          List.prefix_rfl (Nat.le_of_not_lt hsize)

theorem copy (hview : s.View free queue d) {urgent : Bool} {buffer : List UInt8}
    (hcall : s.call t = .taken urgent msg buffer) :
    (mqCopy urgent t msg buffer s).View free queue d := by
  have hheld : (s.call t).block = some msg := by rw [hcall]; rfl
  obtain ⟨hfree, hqueue⟩ := hview.held_not_mem hheld
  have hlength : buffer.length ≤ s.msgSize := by
    have hok := hview.calls t
    rw [hcall] at hok
    exact hok
  have hnext : ∀ b, b ≠ msg → (mqCopy urgent t msg buffer s).next b = s.next b := by
    intro b hb
    cases urgent with
    | true => rfl
    | false => exact update_of_ne hb ..
  have hdata : ∀ b, b ≠ msg → (mqCopy urgent t msg buffer s).data b = s.data b :=
    fun b hb => update_of_ne hb ..
  have hmsg : (mqCopy urgent t msg buffer s).data msg =
      buffer ++ (s.data msg).drop buffer.length := update_self ..
  have hkeep : ∀ p nodes, msg ∉ nodes → Chain s.next p nodes →
      Chain (mqCopy urgent t msg buffer s).next p nodes := by
    intro p nodes hout hchain
    cases urgent with
    | true => exact hchain
    | false => exact hchain.update hout none
  refine { hview with
    freeChain := hkeep _ _ hfree hview.freeChain
    queueChain := hkeep _ _ hqueue hview.queueChain
    blocks := ?_, data := ?_, contents := ?_, tickets := ?_, calls := ?_ }
  · simp only [mqCopy, comp_update_call]
    exact hview.blocks.keep (by simp [hcall, MqCall.block])
  · intro b
    by_cases hb : b = msg
    · subst hb
      rw [hmsg, List.length_append, List.length_drop, hview.data]
      exact Nat.add_sub_of_le hlength
    · rw [hdata b hb]
      exact hview.data b
  · have hsame : queue.map (mqCopy urgent t msg buffer s).data = queue.map s.data :=
      List.map_congr_left fun b hb => hdata b (fun heq => hqueue (heq ▸ hb))
    rw [hsame]
    exact hview.contents
  · simp only [mqCopy, comp_update_call]
    exact hview.tickets.keep (by simp [hcall, MqCall.ticket])
  · refine hview.other_calls _ rfl rfl
      (fun u b hu hb => hnext b (hview.held_unique hheld hu hb))
      (fun u b hu hb => hdata b (hview.held_unique hheld hu hb)) List.prefix_rfl ⟨?_, ?_⟩
    · rw [hmsg]
      exact List.prefix_append ..
    · intro hsend
      subst hsend
      exact update_self ..

theorem exists_resume (hview : s.View free queue d) (s' : MqSystem)
    (hsame : s'.toWaitQueue = s.toWaitQueue) :
    ∃ w : WaitQueue, w.Ok ∧ mqResume s' = { s' with toWaitQueue := w } := by
  have hwaiters := hsame.symm ▸ hview.waiters
  cases hlist : s'.suspendThread with
  | nil =>
    refine ⟨s'.toWaitQueue, hwaiters, ?_⟩
    simp only [mqResume, hlist]
  | cons first rest =>
    have hsuspend := (hwaiters.mem_iff first).mp (hlist ▸ List.mem_cons_self)
    refine ⟨s'.toWaitQueue.resume first, hwaiters.resume hsuspend, ?_⟩
    simp only [mqResume, hlist]

/-- The sender's block joins the queue; `next` may change at the block itself and at
blocks that were queued before. -/
theorem join (hview : s.View free queue d) {urgent : Bool} {buffer : List UInt8}
    (hcall : s.call t = .copied urgent msg buffer) {w : WaitQueue} (hw : w.Ok)
    {next : Nat → Option Nat} {head tail : Option Nat} {queue' : List Nat}
    {d' : Deque (List UInt8)} {op : DequeOp (List UInt8)}
    (hnext : ∀ b, b ∉ msg :: queue → next b = s.next b)
    (hfree : Chain next s.msgQueueFree free) (hqueue : Chain next head queue')
    (hperm : queue'.Perm (msg :: queue)) (htail : tail = queue'.getLast?)
    (happly : d.apply op = some d') (hpopped : d'.popped = d.popped)
    (hcontents : List.Forall₂ (· <+: ·) d'.contents (queue'.map s.data)) :
    View
      { s with
        toWaitQueue := w
        next := next
        msgQueueHead := head
        msgQueueTail := tail
        entry := inc16 s.entry
        call := update s.call t .idle
        result := some rtEok
        sections := s.sections ++ [op] }
      free queue' d' := by
  have hheld : (s.call t).block = some msg := by rw [hcall]; rfl
  have hlength := hview.length_lt hheld
  have hmax := hview.maxMsgs
  exact
    { waiters := hw
      freeChain := hfree
      queueChain := hqueue
      tail := htail
      entry := by
        have hcount : queue'.length = queue.length + 1 := hperm.length_eq
        simp only [inc16, hview.entry, hcount]
        omega
      maxMsgs := hmax
      blocks := by
        rw [comp_update_call]
        refine (hview.blocks.put hheld).perm ?_
        exact List.perm_middle.symm.trans (hperm.symm.append_left free)
      data := hview.data
      log := (Deque.run_snoc hview.log op).trans happly
      contents := hcontents
      tickets := by
        rw [comp_update_call, hpopped]
        exact hview.tickets.keep (by simp [hcall, MqCall.ticket])
      delivered := by
        rw [hpopped]
        exact hview.delivered
      calls := by
        rw [hpopped]
        refine hview.other_calls _ rfl rfl (fun u b hu hb => hnext b ?_)
          (fun _ _ _ _ => rfl) List.prefix_rfl trivial
        rw [List.mem_cons, not_or]
        exact ⟨hview.held_unique hheld hu hb, (hview.held_not_mem hb).2⟩ }

theorem link (hview : s.View free queue d) {urgent : Bool} {buffer : List UInt8}
    (hcall : s.call t = .copied urgent msg buffer) :
    ∃ queue' d', (mqLink urgent t msg buffer s).View free queue' d' := by
  have hheld : (s.call t).block = some msg := by rw [hcall]; rfl
  obtain ⟨hfree, hqueue⟩ := hview.held_not_mem hheld
  obtain ⟨hpre, hend⟩ : buffer <+: s.data msg ∧ (urgent = false → s.next msg = none) := by
    have hok := hview.calls t
    rw [hcall] at hok
    exact hok
  cases urgent with
  | true =>
    obtain ⟨w, hw, hresume⟩ := hview.exists_resume (mqLinkHead msg s) rfl
    refine ⟨msg :: queue, { d with contents := buffer :: d.contents }, ?_⟩
    simp only [mqLink, if_true, hresume]
    refine hview.join hcall hw (fun b hb => ?_) (hview.freeChain.update hfree _)
      (hview.queueChain.push hqueue) (List.Perm.refl _) ?_ rfl rfl
      (.cons hpre hview.contents)
    · have hne : b ≠ msg := fun heq => hb (heq ▸ List.mem_cons_self)
      exact update_of_ne hne ..
    · rw [List.getLast?_cons, ← hview.tail]
      simp only [mqLinkHead]
      cases s.msgQueueTail with
      | none => rfl
      | some last => rfl
  | false =>
    obtain ⟨w, hw, hresume⟩ := hview.exists_resume (mqLinkTail msg s) rfl
    refine ⟨queue ++ [msg], { d with contents := d.contents ++ [buffer] }, ?_⟩
    simp only [mqLink, Bool.false_eq_true, if_false, hresume]
    have hcontents : List.Forall₂ (· <+: ·) (d.contents ++ [buffer])
        ((queue ++ [msg]).map s.data) := by
      rw [List.map_append]
      exact List.rel_append hview.contents (.cons hpre .nil)
    have htail' : some msg = (queue ++ [msg]).getLast? := by
      rw [List.getLast?_append]
      rfl
    cases htail : s.msgQueueTail with
    | none =>
      have hempty := hview.tail_eq_none_iff.mp htail
      have hhead := hview.queueChain.eq_none_iff.mpr hempty
      simp only [mqLinkTail, htail, hhead]
      refine hview.join hcall hw (fun _ _ => rfl) hview.freeChain ?_
        List.perm_append_comm htail' rfl rfl hcontents
      rw [hempty]
      exact ⟨rfl, hend rfl⟩
    | some last =>
      have hlast := hview.tail.symm.trans htail
      have hmem := List.mem_of_getLast? hlast
      have hchain := hview.queueChain.snoc hview.nodup_queue hlast hqueue (hend rfl)
      cases hhead : s.msgQueueHead with
      | none =>
        rw [hview.queueChain.eq_none_iff.mp hhead] at hmem
        cases hmem
      | some head =>
        simp only [mqLinkTail, htail, hhead]
        refine hview.join hcall hw (fun b hb => ?_)
          (hview.freeChain.update (hview.not_mem_free hmem) _) (hhead ▸ hchain)
          List.perm_append_comm htail' rfl rfl hcontents
        have hne : b ≠ last := fun heq => hb (heq ▸ List.mem_cons_of_mem msg hmem)
        exact update_of_ne hne ..

theorem getLast?_of_pop {rest : List Nat} (hnodup : (msg :: rest).Nodup) :
    (if (msg :: rest).getLast? = some msg then none else (msg :: rest).getLast?) =
      rest.getLast? := by
  cases rest with
  | nil => simp
  | cons second tail =>
    rw [List.getLast?_cons_cons]
    apply if_neg
    intro hlast
    exact (List.nodup_cons.mp hnodup).1 (List.mem_of_getLast? hlast)

theorem unlink (hview : s.View free queue d) (hcall : (s.call t).block = none)
    (hticket : (s.call t).ticket = none) (hentry : s.entry ≠ 0) (size : Nat) :
    ∃ s' queue' d', mqUnlink t size s = some s' ∧ s'.View free queue' d' := by
  cases hhead : s.msgQueueHead with
  | none => exact absurd (hview.head_eq_none_iff.mp hhead) hentry
  | some msg =>
    obtain ⟨rest, rfl, hrest⟩ := (hhead ▸ hview.queueChain).eq_cons
    have hpool := hview.contents
    rw [List.map_cons] at hpool
    obtain ⟨message, messages, hpre, hmessages, hcontents⟩ :=
      List.forall₂_cons_right_iff.mp hpool
    have hcount := Deque.length_popped hview.log
    simp only [mqUnlink, hhead]
    refine ⟨_, rest, { contents := messages, popped := d.popped ++ [message] }, rfl, ?_⟩
    exact
      { waiters := hview.waiters
        freeChain := hview.freeChain
        queueChain := hrest
        tail := by
          simp only [hview.tail]
          exact getLast?_of_pop hview.nodup_queue
        entry := by
          have hlength := hview.entry
          rw [List.length_cons] at hlength
          simp only [dec16, if_neg hentry]
          omega
        maxMsgs := hview.maxMsgs
        blocks := by
          rw [comp_update_call]
          exact (hview.blocks.perm List.perm_middle).take hcall
        data := hview.data
        log := by
          simp only [Deque.run_snoc hview.log, Deque.apply, hcontents]
        contents := hmessages
        tickets := by
          rw [comp_update_call]
          refine hview.tickets.create ?_ hticket (fun k => ?_)
          · rw [← hcount]
            exact Nat.lt_irrefl _
          · rw [← hcount, List.length_append, List.length_singleton]
            omega
        delivered := by
          intro x hx
          obtain ⟨m, hm, hdelivers⟩ := hview.delivered x hx
          exact ⟨m, getElem?_of_prefix hm (List.prefix_append ..), hdelivers⟩
        calls := by
          refine hview.other_calls _ rfl rfl (fun _ _ _ _ => rfl) (fun _ _ _ _ => rfl)
            (List.prefix_append ..) ⟨message, ?_, hpre⟩
          rw [← hcount, List.getElem?_concat_length] }

theorem wait (hview : s.View free queue d) (hcall : (s.call t).block = none)
    (hticket : (s.call t).ticket = none) (hready : (s.thread t).stat = .ready)
    (size : Nat) (timeout : Int) : (mqWait t size timeout s).View free queue d := by
  have hclear := hview.waiters.setError hready rtEok
  have hstat : ((s.toWaitQueue.setError t rtEok).thread t).stat = .ready := by
    simpa [WaitQueue.setError] using hready
  simp only [mqWait]
  split
  · exact hview.move (hclear.setError hstat _) .idle hcall hticket trivial _
  · refine hview.move (hclear.suspend hstat ?_ _ _) (.waiting ..) hcall hticket trivial _
    simp [WaitQueue.setError]

theorem recvLoop (hview : s.View free queue d) (hcall : (s.call t).block = none)
    (hticket : (s.call t).ticket = none) (hready : (s.thread t).stat = .ready)
    (size : Nat) (timeout : Int) :
    ∃ s' queue' d', mqRecvLoop t size timeout s = some s' ∧ s'.View free queue' d' := by
  simp only [mqRecvLoop]
  split
  · exact ⟨_, queue, d, rfl, hview.wait hcall hticket hready size timeout⟩
  next hentry => exact hview.unlink hcall hticket hentry size

theorem delivers_take {msgSize size : Nat} {message bytes : List UInt8}
    (hpre : message <+: bytes) (hlength : bytes.length = msgSize) :
    Delivers msgSize size message (bytes.take (if msgSize < size then msgSize else size)) := by
  obtain ⟨rest, rfl⟩ := hpre
  have hmin : (if msgSize < size then msgSize else size) = min size msgSize := by
    rw [Nat.min_def]
    split <;> split <;> omega
  rw [List.length_append] at hlength
  rw [hmin]
  constructor
  · rw [List.length_take, List.length_append, hlength]
    omega
  · have hle : min message.length (min size msgSize) ≤ message.length := Nat.min_le_left ..
    rw [List.take_take, List.take_append_of_le_length hle, List.take_eq_take_iff]
    omega

theorem recvCopy (hview : s.View free queue d) {size ticket : Nat}
    (hcall : s.call t = .unlinked size msg ticket) :
    (mqRecvCopy t size msg ticket s).View free queue d := by
  obtain ⟨message, hmessage, hpre⟩ :
      ∃ message, d.popped[ticket]? = some message ∧ message <+: s.data msg := by
    have hok := hview.calls t
    rw [hcall] at hok
    exact hok
  refine hview.move hview.waiters (.received ..) ?_ ?_ ⟨message, hmessage, ?_⟩ _
  · rw [hcall]
    rfl
  · rw [hcall]
    rfl
  · exact delivers_take hpre (hview.data msg)

theorem putFree (hview : s.View free queue d) {size ticket : Nat} {buffer : List UInt8}
    (hcall : s.call t = .received size msg ticket buffer) :
    (mqPutFree t size msg ticket buffer s).View (msg :: free) queue d := by
  have hheld : (s.call t).block = some msg := by rw [hcall]; rfl
  obtain ⟨hfree, hqueue⟩ := hview.held_not_mem hheld
  have hok := hview.calls t
  rw [hcall] at hok
  exact
    { hview with
      freeChain := hview.freeChain.push hfree
      queueChain := hview.queueChain.update hqueue _
      blocks := by
        simp only [mqPutFree, comp_update_call]
        exact hview.blocks.put hheld
      tickets := by
        simp only [mqPutFree, comp_update_call]
        exact hview.tickets.put (by simp [hcall, MqCall.ticket])
      delivered := by
        intro x hx
        rcases List.mem_cons.mp hx with rfl | hx
        · exact hok
        · exact hview.delivered x hx
      calls := hview.other_calls _ rfl rfl
        (fun u b hu hb => update_of_ne (hview.held_unique hheld hu hb) ..)
        (fun _ _ _ _ => rfl) List.prefix_rfl trivial }

theorem releaseAll_spec {fuel : Nat} (hfuel : queue.length ≤ fuel)
    (hfree : Chain s.next s.msgQueueFree free) (hqueue : Chain s.next s.msgQueueHead queue)
    (htail : s.msgQueueTail = queue.getLast?) (hnodup : (free ++ queue).Nodup) :
    ∃ next head, mqReleaseAll fuel s =
        some { s with
          msgQueueHead := none, msgQueueTail := none, next := next, msgQueueFree := head } ∧
      Chain next head (queue.reverse ++ free) ∧ ∀ b, b ∉ queue → next b = s.next b := by
  induction queue generalizing s free fuel with
  | nil =>
    have hhead : s.msgQueueHead = none := hqueue
    have hself : { s with msgQueueHead := none, msgQueueTail := none } = s := by
      cases s
      cases hhead
      cases htail
      rfl
    refine ⟨s.next, s.msgQueueFree, ?_, hfree, fun _ _ => rfl⟩
    rw [hself]
    cases fuel with
    | zero => simp only [mqReleaseAll, hhead, if_true]
    | succ fuel => simp only [mqReleaseAll, hhead]
  | cons msg rest ih =>
    obtain ⟨hhead, hrest⟩ := hqueue
    have hmoved : ((msg :: free) ++ rest).Nodup := List.perm_middle.nodup_iff.mp hnodup
    have hout : msg ∉ free ++ rest := (List.nodup_cons.mp hmoved).1
    rw [List.mem_append, not_or] at hout
    have hqueueNodup : (msg :: rest).Nodup := (List.nodup_append.mp hnodup).2.1
    cases fuel with
    | zero => cases hfuel
    | succ fuel =>
      have htail' := getLast?_of_pop hqueueNodup
      rw [← htail] at htail'
      obtain ⟨next, head, hrun, hchain, hsame⟩ := @ih
        { s with
          msgQueueHead := s.next msg
          msgQueueTail := if s.msgQueueTail = some msg then none else s.msgQueueTail
          next := update s.next msg s.msgQueueFree
          msgQueueFree := some msg }
        (msg :: free) fuel (Nat.le_of_succ_le_succ hfuel) (hfree.push hout.1)
        (hrest.update hout.2 _) htail' hmoved
      refine ⟨next, head, ?_, ?_, fun b hb => ?_⟩
      · simp only [mqReleaseAll, hhead]
        exact hrun
      · simpa using hchain
      · rw [List.mem_cons, not_or] at hb
        rw [hsame b hb.2]
        exact update_of_ne hb.1 ..

theorem reset (hview : s.View free queue d) :
    ∃ s' free' d', rtMqReset s = some s' ∧ s'.View free' [] d' := by
  obtain ⟨threads, hresume, -, -⟩ := hview.waiters.resumeAll
  generalize WaitQueue.mk threads [] = waiters at hresume
  have hlength : queue.length ≤ s.maxMsgs := by
    have htotal := hview.blocks.length_le
    rw [List.length_append] at htotal
    omega
  obtain ⟨next, head, hrun, hchain, hsame⟩ := @releaseAll_spec
    { s with toWaitQueue := waiters } free queue _ hlength hview.freeChain hview.queueChain hview.tail hview.blocks.nodup
  simp only [rtMqReset, hresume, Option.bind_eq_bind, Option.bind_some, hrun]
  refine ⟨_, queue.reverse ++ free, { d with contents := [] }, rfl, ?_⟩
  exact
    { waiters := hview.waiters.afterResumeAll hresume
      freeChain := hchain
      queueChain := rfl
      tail := rfl
      entry := rfl
      maxMsgs := hview.maxMsgs
      blocks := by
        refine hview.blocks.perm ?_
        rw [List.append_nil]
        exact List.perm_append_comm.trans (queue.reverse_perm.symm.append_right free)
      data := hview.data
      log := Deque.run_snoc hview.log .clear
      contents := .nil
      tickets := hview.tickets
      delivered := hview.delivered
      calls := fun u => (hview.calls u).frame rfl
        (fun b hb => hsame b (hview.held_not_mem hb).2) (fun _ _ => rfl) List.prefix_rfl }

end MqSystem.View

theorem mqInitFree_spec (s : MqSystem) (temp : Nat) :
    ∃ next head, mqInitFree s temp = { s with next := next, msgQueueFree := head } ∧
      Chain next head (List.range temp).reverse := by
  induction temp with
  | zero => exact ⟨s.next, none, rfl, rfl⟩
  | succ temp ih =>
    obtain ⟨next, head, hinit, hchain⟩ := ih
    refine ⟨update next temp head, some temp, ?_, ?_⟩
    · simp only [mqInitFree, hinit]
    · rw [List.range_succ, List.reverse_append]
      apply hchain.push
      simp

theorem MqSystem.Initial.view {s : MqSystem} (hinit : s.Initial) :
    ∃ free, s.View free [] Deque.empty := by
  obtain ⟨msgSize, alignSize, flag, before, hcases, hready, hidle, hdata, hsections,
    hdelivered⟩ := hinit
  obtain ⟨maxMsgs, rfl⟩ : ∃ maxMsgs, s = mqInit msgSize maxMsgs alignSize flag before := by
    rcases hcases with ⟨poolSize, rfl⟩ | ⟨maxMsgs, rfl⟩
    · exact ⟨_, rfl⟩
    · exact ⟨_, rfl⟩
  obtain ⟨next, head, hloop, hchain⟩ := mqInitFree_spec
    { before with
      flag := flag
      suspendThread := []
      msgSize := rtAlign msgSize alignSize % 65536
      maxMsgs := maxMsgs % 65536
      msgQueueHead := none
      msgQueueTail := none
      entry := 0 } (maxMsgs % 65536)
  refine ⟨(List.range (maxMsgs % 65536)).reverse, ?_⟩
  simp only [mqInit, hloop]
  have hblock : ∀ t, (MqCall.block ∘ before.call) t = none := fun t => by simp [hidle, MqCall.block]
  have hticket : ∀ t, (MqCall.ticket ∘ before.call) t = none := fun t => by
    simp [hidle, MqCall.ticket]
  exact
    { waiters := ⟨List.nodup_nil, fun t => by simp [hready t], fun t ht => by cases ht⟩
      freeChain := hchain
      queueChain := rfl
      tail := rfl
      entry := rfl
      maxMsgs := by
        show maxMsgs % 65536 ≤ 65535
        omega
      blocks := by
        refine .start ?_ hblock (fun b => by simp)
        rw [List.append_nil]
        exact (List.reverse_perm _).nodup_iff.mpr List.nodup_range
      data := hdata
      log := by rw [hsections]; rfl
      contents := .nil
      tickets := by
        rw [hdelivered]
        exact .start List.nodup_nil hticket (fun k => by simp [Deque.empty])
      delivered := fun x hx => by simp [hdelivered] at hx
      calls := fun t => by
        rw [hidle t]
        trivial }

section Steps

variable {s : MqSystem} {free queue : List Nat} {d : Deque (List UInt8)} {t : Tid}

theorem MqSystem.View.proceed (hview : s.View free queue d) (hcall : s.call t ≠ .idle)
    (hready : (s.thread t).stat = .ready) :
    ∃ s' free' queue' d', mqContinue t s = some s' ∧ s'.View free' queue' d' := by
  cases hcase : s.call t with
  | idle => exact absurd hcase hcall
  | taken urgent msg buffer =>
    simp only [mqContinue, hcase]
    exact ⟨_, _, _, _, rfl, hview.copy hcase⟩
  | copied urgent msg buffer =>
    simp only [mqContinue, hcase]
    obtain ⟨queue', d', hview'⟩ := hview.link hcase
    exact ⟨_, _, _, _, rfl, hview'⟩
  | waiting size timeout tickDelta =>
    have hblock : (s.call t).block = none := by rw [hcase]; rfl
    have hticket : (s.call t).ticket = none := by rw [hcase]; rfl
    simp only [mqContinue, hcase, mqWoken]
    split
    · exact ⟨_, _, _, _, rfl, hview.move hview.waiters .idle hblock hticket trivial _⟩
    · obtain ⟨s', queue', d', hexec, hview'⟩ :=
        hview.recvLoop hblock hticket hready size (mqRemaining timeout tickDelta s.tick)
      exact ⟨s', free, queue', d', hexec, hview'⟩
  | unlinked size msg ticket =>
    simp only [mqContinue, hcase]
    exact ⟨_, _, _, _, rfl, hview.recvCopy hcase⟩
  | received size msg ticket buffer =>
    simp only [mqContinue, hcase]
    exact ⟨_, _, _, _, rfl, hview.putFree hcase⟩

theorem MqSystem.View.exec (hview : s.View free queue d) {op : MqOp} (henabled : s.enabled op) :
    ∃ s' free' queue' d', s.exec op = some s' ∧ s'.View free' queue' d' := by
  simp only [MqSystem.exec, henabled, if_true]
  cases op with
  | send t buffer =>
    obtain ⟨hidle, -, -⟩ := of_decide_eq_true henabled
    obtain ⟨free', hview'⟩ := hview.takeFree hidle false buffer
    exact ⟨_, free', queue, d, rfl, hview'⟩
  | urgent t buffer =>
    obtain ⟨hidle, -, -⟩ := of_decide_eq_true henabled
    obtain ⟨free', hview'⟩ := hview.takeFree hidle true buffer
    exact ⟨_, free', queue, d, rfl, hview'⟩
  | recv t size timeout =>
    obtain ⟨hidle, hready, -⟩ := of_decide_eq_true henabled
    simp only [rtMqRecv]
    split
    · exact ⟨_, free, queue, d, rfl, hview.observe hview.waiters s.tick _⟩
    · obtain ⟨s', queue', d', hexec, hview'⟩ :=
        hview.recvLoop (by rw [hidle]; rfl) (by rw [hidle]; rfl) hready size timeout
      exact ⟨s', free, queue', d', hexec, hview'⟩
  | proceed t =>
    obtain ⟨hcall, hready⟩ := of_decide_eq_true henabled
    exact hview.proceed hcall hready
  | timeout t => exact ⟨_, free, queue, d, rfl, hview.observe hview.waiters.expire s.tick _⟩
  | reset =>
    obtain ⟨s', free', d', hexec, hview'⟩ := hview.reset
    exact ⟨s', free', [], d', hexec, hview'⟩
  | tick => exact ⟨_, free, queue, d, rfl, hview.observe hview.waiters _ _⟩

end Steps

/-- The blocks are conserved, and what has been received is what the order of the
sections gives. -/
def MqSystem.OrderOk (s : MqSystem) : Prop :=
  ∃ free queue d, Chain s.next s.msgQueueFree free ∧ Chain s.next s.msgQueueHead queue ∧
    Custody (· < s.maxMsgs) (free ++ queue) (MqCall.block ∘ s.call) ∧
    s.entry = queue.length ∧
    s.msgQueueTail = queue.getLast? ∧ (s.msgQueueTail = none ↔ queue = []) ∧
    Deque.run s.sections = some d ∧
    List.Forall₂ (· <+: ·) d.contents (queue.map s.data) ∧
    Custody (· < d.popped.length) (s.delivered.map Delivery.ticket)
      (MqCall.ticket ∘ s.call) ∧
    ∀ x ∈ s.delivered, ∃ message,
      d.popped[x.ticket]? = some message ∧ Delivers s.msgSize x.size message x.buffer

end RtThread.Ipc
