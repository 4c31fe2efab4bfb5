import RtThread.Driver.Pipe

namespace RtThread.Driver

open RtThread.Lib

namespace Pipe

def buffered (s : Pipe) : Nat :=
  match s.fifo with
  | none => 0
  | some fifo => fifo.rtRingbufferDataLen

def SeesEnd (s : Pipe) : Prop :=
  s.writers = 0 → s.fds.countP (·.mode.writes) = 0 ∧ s.buffered = 0

instance (s : Pipe) : Decidable s.SeesEnd := inferInstanceAs (Decidable (_ → _))

/-- Reads look for the writers only as long as there are some or nothing is left, and the
reference count has not gone round. -/
def InTime (s : Pipe) : PipeOp → Prop
  | .opened _ _ => s.refCount = 0 → s.fds = []
  | .close _ => s.refCount ≠ 1
  | .read _ _ _ => s.SeesEnd
  | .turn t =>
    match s.call t with
    | some (.read _ _) => s.SeesEnd
    | _ => True
  | _ => True

instance (s : Pipe) (op : PipeOp) : Decidable (s.InTime op) := by
  unfold InTime
  split
  · infer_instance
  · infer_instance
  · infer_instance
  · split <;> infer_instance
  · infer_instance

structure Delivers (s : Pipe) : Prop where
  inOrder : s.delivered <+: s.accepted
  ended : ∀ entry ∈ s.ended, entry = (0, 0)

def content (s : Pipe) : List Byte :=
  match s.fifo with
  | none => []
  | some fifo => fifo.content

structure Inv (s : Pipe) : Prop where
  valid : ∀ fifo, s.fifo = some fifo → fifo.Valid
  unread : s.accepted = s.delivered ++ s.content
  closed : s.fds = [] → s.fifo = none
  ended : ∀ entry ∈ s.ended, entry = (0, 0)

section Steps

variable {s s' : Pipe} {op : PipeOp} {t : Tid} {fd : PipeFd} {i count ret : Nat} {nonblock : Bool}
  {buf : List Byte} {pool : Nat → Byte}

section

variable (hinv : s.Inv)
include hinv

theorem Inv.buffered_eq : s.buffered = s.content.length := by
  unfold buffered content
  cases hfifo : s.fifo with
  | none => rfl
  | some fifo => exact (hinv.valid fifo hfifo).content_length.symm

theorem Inv.of_call (hfifo : s'.fifo = s.fifo) (hfds : s'.fds = s.fds)
    (haccepted : s'.accepted = s.accepted) (hdelivered : s'.delivered = s.delivered)
    (hended : s'.ended = s.ended) : s'.Inv := by
  obtain ⟨fifo, _, _, _, _, fds, _, _, accepted, delivered, ended⟩ := s'
  subst hfifo hfds haccepted hdelivered hended
  exact ⟨hinv.valid, hinv.unread, hinv.closed, hinv.ended⟩

theorem Inv.endOfFile (hend : s.SeesEnd) (hwriters : s.writers = 0) : s.endOfFile.Inv := by
  obtain ⟨hnone, hempty⟩ := hend hwriters
  refine ⟨hinv.valid, hinv.unread, hinv.closed, fun entry hentry => ?_⟩
  rcases List.mem_append.mp hentry with hold | hnew
  · exact hinv.ended entry hold
  · have hall : s.accepted = s.delivered := by
      rw [hinv.buffered_eq, List.length_eq_zero_iff] at hempty
      rw [hinv.unread, hempty, List.append_nil]
    rw [List.mem_singleton.mp hnew, hnone, hall, Nat.sub_self]

theorem Inv.opened (hfirst : s.refCount = 0 → s.fds = [])
    (hexec : s.pipeFopsOpen pool fd = some s') : s'.Inv := by
  unfold pipeFopsOpen at hexec
  dsimp only at hexec
  split at hexec
  next hzero =>
    have hnone := hinv.closed (hfirst hzero)
    obtain ⟨fifo, hcreate, rfl⟩ := Option.map_eq_some_iff.mp hexec
    unfold rtRingbufferCreate at hcreate
    split at hcreate
    next hsize =>
      cases hcreate
      have hpos : 0 < (RingBuffer.rtRingbufferInit pool (s.bufsz / 4 * 4)).bufferSize := by
        simp only [RingBuffer.rtRingbufferInit]
        omega
      obtain ⟨hvalid, hempty⟩ := RingBuffer.rtRingbufferInit_valid pool hsize.2 hpos
      refine ⟨?_, ?_, ?_, hinv.ended⟩
      · rintro fifo ⟨⟩
        exact hvalid
      · have hunread := hinv.unread
        rw [content, hnone] at hunread
        rw [hunread]
        simp only [content, hempty]
      · intro hfds
        simp at hfds
    · cases hcreate
  · cases hexec
    exact ⟨hinv.valid, hinv.unread, fun hfds => by simp at hfds, hinv.ended⟩

theorem Inv.close (hstays : s.fds.length ≠ 1) (hopen : s.fds[i]? = some fd)
    (hcount : s.refCount ≠ 1) : (s.pipeFopsClose i fd).Inv := by
  obtain ⟨hlt, -⟩ := List.getElem?_eq_some_iff.mp hopen
  have hfifo : (s.pipeFopsClose i fd).fifo = s.fifo := if_neg hcount
  refine ⟨?_, ?_, fun hfds => ?_, hinv.ended⟩
  · rw [hfifo]
    exact hinv.valid
  · simp only [content, hfifo]
    exact hinv.unread
  · have hlength := congrArg List.length hfds
    simp only [pipeFopsClose, List.length_eraseIdx, hlt, if_true, List.length_nil] at hlength
    omega

theorem Inv.readTurn (hend : s.SeesEnd)
    (hexec : s.readTurn t nonblock count = some s') : s'.Inv := by
  unfold Pipe.readTurn at hexec
  split at hexec
  next hwriters =>
    cases hexec
    have hidle : { s with call := Function.update s.call t none }.Inv :=
      hinv.of_call rfl rfl rfl rfl rfl
    exact hidle.endOfFile hend hwriters
  · obtain ⟨fifo, hfifo, hexec⟩ := Option.bind_eq_some_iff.mp hexec
    have hvalid := hinv.valid fifo hfifo
    have hopen : s.fds ≠ [] := by
      intro hfds
      rw [hinv.closed hfds] at hfifo
      cases hfifo
    have hunread := hinv.unread
    rw [content, hfifo] at hunread
    obtain ⟨fifo', hget, hvalid', -, hcontent⟩ := hvalid.get (count % 65536)
    rw [hget, Option.map_some, Option.some.injEq] at hexec
    dsimp only at hexec
    split at hexec
    · subst hexec
      refine ⟨by rintro _ ⟨⟩; exact hvalid', ?_, fun hfds => absurd hfds hopen, hinv.ended⟩
      simp only [content, hcontent, List.append_assoc, List.take_append_drop]
      exact hunread
    next hnone =>
      have hsame : fifo'.content = fifo.content := by
        rw [hcontent, Nat.eq_zero_of_not_pos hnone, List.drop_zero]
      split at hexec
      · subst hexec
        refine ⟨by rintro _ ⟨⟩; exact hvalid', ?_, fun hfds => absurd hfds hopen, hinv.ended⟩
        simp only [content, hsame]
        exact hunread
      · subst hexec
        refine ⟨by rintro _ ⟨⟩; exact hvalid', ?_, fun hfds => absurd hfds hopen, hinv.ended⟩
        simp only [content, hsame]
        exact hunread

theorem Inv.accept {fifo fifo' : RingBuffer} {bytes : List Byte}
    (hfifo : s.fifo = some fifo) (hvalid : fifo'.Valid)
    (hcontent : fifo'.content = fifo.content ++ bytes) :
    { s with fifo := some fifo', accepted := s.accepted ++ bytes }.Inv := by
  have hunread := hinv.unread
  rw [content, hfifo] at hunread
  refine ⟨by rintro _ ⟨⟩; exact hvalid, ?_, fun hfds => ?_, hinv.ended⟩
  · simp only [content, hcontent]
    rw [hunread, List.append_assoc]
  · rw [hinv.closed hfds] at hfifo
    cases hfifo

theorem Inv.writeTurn (hexec : s.writeTurn t nonblock buf ret = some s') : s'.Inv := by
  unfold Pipe.writeTurn at hexec
  split at hexec
  · cases hexec
    exact hinv.of_call rfl rfl rfl rfl rfl
  · obtain ⟨fifo, hfifo, hexec⟩ := Option.bind_eq_some_iff.mp hexec
    have hlength : (buf.length - ret) % 65536 ≤ (buf.drop ret).length := by
      rw [List.length_drop]
      exact Nat.mod_le _ _
    obtain ⟨fifo', hput, hvalid', -, hcontent⟩ := (hinv.valid fifo hfifo).put hlength
    rw [hput, Option.map_some, Option.some.injEq] at hexec
    dsimp only at hexec
    have haccepted := hinv.accept hfifo hvalid' hcontent
    split at hexec
    · subst hexec
      exact haccepted.of_call rfl rfl rfl rfl rfl
    · split at hexec
      · subst hexec
        exact haccepted.of_call rfl rfl rfl rfl rfl
      · subst hexec
        exact haccepted.of_call rfl rfl rfl rfl rfl

theorem Inv.step (hintime : s.InTime op) (hexec : s.exec op = some s') : s'.Inv := by
  cases op with
  | opened pool fd => exact hinv.opened hintime hexec
  | close i =>
    simp only [exec] at hexec
    split at hexec
    · cases hexec
    next hstays =>
      obtain ⟨fd, hopen, rfl⟩ := Option.map_eq_some_iff.mp hexec
      exact hinv.close hstays hopen hintime
  | read t i count =>
    simp only [exec, Option.ite_none_right_eq_some, Option.map_eq_some_iff] at hexec
    obtain ⟨-, fd, -, rfl⟩ := hexec
    unfold pipeFopsRead
    split
    next hwriters => exact hinv.endOfFile hintime hwriters
    · exact hinv.of_call rfl rfl rfl rfl rfl
  | write t i buf =>
    simp only [exec, Option.ite_none_right_eq_some, Option.map_eq_some_iff] at hexec
    obtain ⟨-, fd, -, rfl⟩ := hexec
    unfold pipeFopsWrite
    split
    · exact hinv.of_call rfl rfl rfl rfl rfl
    · split
      · exact hinv.of_call rfl rfl rfl rfl rfl
      · exact hinv.of_call rfl rfl rfl rfl rfl
  | turn t =>
    simp only [exec] at hexec
    simp only [InTime] at hintime
    split at hexec
    · cases hexec
    next nonblock count hcall =>
      rw [hcall] at hintime
      exact hinv.readTurn hintime hexec
    next nonblock buf ret hcall => exact hinv.writeTurn hexec

end

theorem Initial.inv (hinit : s.Initial) : s.Inv where
  valid := by simp [hinit.fifo]
  unread := by simp [content, hinit.fifo, hinit.accepted, hinit.delivered]
  closed := fun _ => hinit.fifo
  ended := by simp [hinit.ended]

/-- A pipe delivers its bytes in order and all of them before the end of the file. -/
theorem reachable_delivers (hreach : pipeMachine.Reachable InTime s) : s.Delivers := by
  have hinv : s.Inv := by
    refine hreach.invariant Inv (fun _ hinit => Initial.inv hinit) ?_
    intro before op after hbefore hintime hexec
    exact hbefore.step hintime hexec
  exact ⟨hinv.unread ▸ List.prefix_append _ _, hinv.ended⟩

end Steps

def pipeStart : Pipe where
  fifo := none
  bufsz := 4
  readers := 0
  writers := 0
  refCount := 0
  fds := []
  call := fun _ => none
  result := none
  accepted := []
  delivered := []
  ended := []

theorem pipeStart_initial : pipeStart.Initial := by
  constructor <;> simp [pipeStart]

def pipeRun : List PipeOp :=
  [.opened (fun _ => 0) ⟨.rdonly, false⟩, .opened (fun _ => 0) ⟨.wronly, false⟩, .read 1 0 8,
    .write 2 1 [1, 2, 3, 4, 5, 6], .turn 2, .turn 1, .turn 2, .read 1 0 8, .turn 1, .close 1,
    .read 1 0 8]

theorem reachable_delivers_pipeRun :
    ∃ s, pipeMachine.Reachable InTime s ∧ s.delivered = [1, 2, 3, 4, 5, 6] ∧
      s.ended = [(0, 0)] ∧ s.Delivers := by
  have hrun : (pipeMachine.run InTime pipeStart pipeRun).map
      (fun s => (s.delivered, s.ended)) = some ([1, 2, 3, 4, 5, 6], [(0, 0)]) := by
    decide +kernel
  obtain ⟨s, hreach, hend⟩ := Machine.exists_reachable_of_run pipeStart_initial hrun
  obtain ⟨hdelivered, hended⟩ := Prod.mk.inj hend
  exact ⟨s, hreach, hdelivered, hended, reachable_delivers hreach⟩

def closedRun : List PipeOp :=
  [.opened (fun _ => 0) ⟨.rdonly, false⟩, .opened (fun _ => 0) ⟨.wronly, false⟩, .write 2 1 [7],
    .turn 2, .close 1, .read 1 0 1]

theorem delivers_fails_after_close :
    ∃ s, pipeMachine.Reachable (fun _ _ => True) s ∧ s.accepted = [7] ∧ s.delivered = [] ∧
      ¬ s.Delivers := by
  have hrun : (pipeMachine.run (fun _ _ => True) pipeStart closedRun).map
      (fun s => (s.accepted, s.delivered, s.ended)) = some ([7], [], [(0, 1)]) := by
    decide +kernel
  obtain ⟨s, hreach, hend⟩ := Machine.exists_reachable_of_run pipeStart_initial hrun
  simp only [Prod.mk.injEq] at hend
  obtain ⟨haccepted, hdelivered, hended⟩ := hend
  refine ⟨s, hreach, haccepted, hdelivered, fun hdelivers => ?_⟩
  have hzero := hdelivers.ended (0, 1) (by rw [hended]; exact List.mem_singleton.mpr rfl)
  cases hzero

end Pipe

end RtThread.Driver
