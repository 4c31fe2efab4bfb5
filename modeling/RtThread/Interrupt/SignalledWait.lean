import RtThread.Blocking.Calls
import RtThread.Interrupt.Delivery

namespace RtThread.Interrupt

open Function RtThread.Blocking RtThread.Ipc RtThread.Lib RtThread.Signal

/-! Semaphores and events of `ipc.c` whose waiters get signals. -/

inductive Source
  | semaphore (o : ObjId)
  | event (o : ObjId)
  deriving DecidableEq

inductive WaitCall
  | semTake (o : ObjId)
  | eventRecv (o : ObjId) (set : BitVec 32) (option : BitVec 8) (timeout : Int)
  deriving DecidableEq

def WaitCall.source : WaitCall → Source
  | .semTake o => .semaphore o
  | .eventRecv o _ _ _ => .event o

/-- What a call has returned.  History: `satisfied` says that a token was consumed for the thread,
or that its condition held. -/
structure Return where
  tid : Tid
  code : Int
  satisfied : Bool
  deriving DecidableEq

/-- History: `satisfied`, for the call that a thread is in. -/
structure WaitSystem extends Threads where
  wait : Tid → Option WaitCall
  flag : Source → IpcFlag
  list : Source → List Tid
  value : ObjId → Nat
  event : ObjId → BitVec 32
  eventSet : Tid → BitVec 32
  eventInfo : Tid → BitVec 8
  returned : Option Return
  satisfied : Tid → Bool

namespace WaitSystem

def returns (s : WaitSystem) (t : Tid) (code : Int) (satisfied : Bool) : WaitSystem :=
  { s with returned := some ⟨t, code, satisfied⟩ }

def unlink (s : WaitSystem) (t : Tid) : WaitSystem :=
  { s with list := fun source => listRemove t (s.list source) }

def block (t : Tid) (call : WaitCall) (time : Int) (s : WaitSystem) : WaitSystem :=
  { s with
    toThreads := s.toThreads.suspend t time
    wait := update s.wait t (some call)
    list := update s.list call.source
      (listSuspend (s.flag call.source) (fun u => (s.thread u).currentPriority) t
        (s.list call.source))
    satisfied := update s.satisfied t false
    returned := none }

def grant (t : Tid) (satisfied : Bool) (s : WaitSystem) : WaitSystem :=
  if s.stat t = .suspend then
    { s.unlink t with
      toThreads := s.toThreads.resume t .grant
      satisfied := update s.satisfied t satisfied }
  else s

def takes (s : WaitSystem) (t : Tid) (o : ObjId) : Bool := s.wait t = some (.semTake o)

def awaits (s : WaitSystem) (t : Tid) (o : ObjId) (event : BitVec 32) : Bool :=
  match s.wait t with
  | some (.eventRecv o' set option _) => o' = o && eventStatus option set event
  | _ => false

def rtSemTake (t : Tid) (o : ObjId) (time : Int) (s : WaitSystem) : WaitSystem :=
  if 0 < s.value o then
    { s with value := update s.value o (dec16 (s.value o)) }.returns t rtEok true
  else if time = 0 then s.returns t (-rtEtimeout) false
  else { s with toThreads := s.toThreads.setError t rtEok }.block t (.semTake o) time

def rtSemTrytake (o : ObjId) (s : WaitSystem) : WaitSystem :=
  if 0 < s.value o then
    { s with value := update s.value o (dec16 (s.value o)), returned := none }
  else { s with returned := none }

def rtSemRelease (o : ObjId) (s : WaitSystem) : WaitSystem :=
  let s := { s with returned := none }
  match s.list (.semaphore o) with
  | [] => { s with value := update s.value o (inc16 (s.value o)) }
  | t :: _ => s.grant t (s.takes t o)

def eventBegin (t : Tid) (o : ObjId) (set : BitVec 32) (option : BitVec 8) (timeout : Int)
    (s : WaitSystem) : WaitSystem :=
  if set = 0 then s.returns t (-rtError) false
  else
    { s with
      toThreads := (s.toThreads.setError t rtEok).setPhase t .entered
      wait := update s.wait t (some (.eventRecv o set option timeout))
      returned := none }

def leave (t : Tid) (code : Int) (satisfied : Bool) (s : WaitSystem) : WaitSystem :=
  { s with
    toThreads := s.toThreads.setPhase t .idle
    wait := update s.wait t none }.returns t code satisfied

def rtEventRecv (t : Tid) (s : WaitSystem) : Option WaitSystem :=
  match s.wait t with
  | some (.eventRecv o set option timeout) =>
    if s.phase t = .entered ∧ s.stat t = .ready ∧ (s.signal t).handling = [] then
      if hasAnd option = false ∧ hasOr option = false then none
      else if eventStatus option set (s.event o) then
        some ({ s with
          event := update s.event o (eventLeft option set (s.event o)) }.leave t
            (s.error t) true)
      else if timeout = 0 then
        some ({ s with toThreads := s.toThreads.setError t (-rtEtimeout) }.leave t
          (-rtEtimeout) false)
      else
        some ({ s with
          eventSet := update s.eventSet t set
          eventInfo := update s.eventInfo t option }.block t
            (.eventRecv o set option timeout) timeout)
    else none
  | _ => none

def eventSendEach (o : ObjId) : List Tid → WaitSystem → WaitSystem
  | [], s => s
  | t :: rest, s =>
    if eventStatus (s.eventInfo t) (s.eventSet t) (s.event o) then
      let received := eventReceived (s.eventInfo t) (s.eventSet t) (s.event o)
      eventSendEach o rest
        ({ s with
          eventSet := update s.eventSet t received
          event := update s.event o
            (eventLeft (s.eventInfo t) received (s.event o)) }.grant t
          (s.awaits t o (s.event o)))
    else eventSendEach o rest s

def rtEventSend (o : ObjId) (set : BitVec 32) (s : WaitSystem) : WaitSystem :=
  let s := { s with returned := none }
  if set = 0 then s
  else
    eventSendEach o (s.list (.event o))
      { s with event := update s.event o (s.event o ||| set) }

def rtThreadTimeout (t : Tid) (s : WaitSystem) : WaitSystem :=
  { s.unlink t with toThreads := s.toThreads.expire t, returned := none }

end WaitSystem

inductive WaitOp
  | signal (op : SignalOp)
  | semTake (t : Tid) (o : ObjId) (time : Int)
  | semTrytake (o : ObjId)
  | semRelease (o : ObjId)
  | eventBegin (t : Tid) (o : ObjId) (set : BitVec 32) (option : BitVec 8) (timeout : Int)
  | eventRecv (t : Tid)
  | eventSend (o : ObjId) (set : BitVec 32)
  | timeout (t : Tid)
  | finish (t : Tid)
  deriving DecidableEq

namespace WaitSystem

def execSignal (op : SignalOp) (s : WaitSystem) : Option WaitSystem :=
  (s.toThreads.exec op).map fun threads =>
    { (match s.toThreads.resumed op with
        | none => s
        | some t => s.unlink t) with
      toThreads := threads
      returned := none }

def exec (s : WaitSystem) : WaitOp → Option WaitSystem
  | .signal op => s.execSignal op
  | .semTake t o time => if s.Free t then some (s.rtSemTake t o time) else none
  | .semTrytake o => some (s.rtSemTrytake o)
  | .semRelease o => some (s.rtSemRelease o)
  | .eventBegin t o set option timeout =>
    if s.Free t then some (s.eventBegin t o set option timeout) else none
  | .eventRecv t => s.rtEventRecv t
  | .eventSend o set => some (s.rtEventSend o set)
  | .timeout t =>
    if s.stat t = .suspend ∧ (s.thread t).timerActive then some (s.rtThreadTimeout t) else none
  -- the call goes on behind `rt_schedule`
  | .finish t =>
    if s.phase t = .done ∧ s.stat t = .ready ∧ (s.signal t).handling = [] then
      some (s.leave t (s.error t) (s.satisfied t))
    else none

structure Initial (s : WaitSystem) : Prop where
  stat : ∀ t, s.stat t = .ready
  phase : ∀ t, s.phase t = .idle
  handling : ∀ t, (s.signal t).handling = []
  list : ∀ source, s.list source = []
  returned : s.returned = none

end WaitSystem

def waitMachine : Machine WaitSystem WaitOp where
  init := WaitSystem.Initial
  exec := WaitSystem.exec

namespace WaitSystem

def Told (s : WaitSystem) : WaitOp → Prop
  | .signal op => s.toThreads.Told op
  | _ => True

instance (s : WaitSystem) (op : WaitOp) : Decidable (s.Told op) := by
  cases op <;> unfold Told <;> infer_instance

/-- A call that returns `RT_EOK` has got what it is for. -/
def Honest (s : WaitSystem) : Prop :=
  ∀ result, s.returned = some result → result.code = rtEok → result.satisfied = true

structure Inv (s : WaitSystem) : Prop where
  ok : s.toThreads.Ok
  marked : s.toThreads.Marked
  nodup : ∀ source, (s.list source).Nodup
  listed : ∀ source, ∀ t ∈ s.list source, s.stat t = .suspend ∧
    ∃ call, s.wait t = some call ∧ call.source = source
  asks : ∀ t o set option timeout, s.stat t = .suspend →
    s.wait t = some (.eventRecv o set option timeout) →
    s.eventSet t = set ∧ s.eventInfo t = option
  granted : ∀ t, (s.phase t).waits = true → s.waker t = some .grant → s.satisfied t = true
  honest : s.Honest

variable {s s' : WaitSystem} {t : Tid} {o : ObjId}

theorem Inv.of_same (hinv : s.Inv) (hthreads : s'.toThreads = s.toThreads)
    (hwait : s'.wait = s.wait) (hlist : s'.list = s.list) (hset : s'.eventSet = s.eventSet)
    (hinfo : s'.eventInfo = s.eventInfo) (hsatisfied : s'.satisfied = s.satisfied)
    (hhonest : s'.Honest) : s'.Inv := by
  refine ⟨?_, ?_, ?_, ?_, ?_, ?_, hhonest⟩
  · rw [hthreads]
    exact hinv.ok
  · rw [hthreads]
    exact hinv.marked
  · rw [hlist]
    exact hinv.nodup
  · rw [hlist, hthreads, hwait]
    exact hinv.listed
  · rw [hthreads, hwait, hset, hinfo]
    exact hinv.asks
  · rw [hthreads, hsatisfied]
    exact hinv.granted

theorem honest_none (hnone : s.returned = none) : s.Honest := by
  intro result hresult
  cases hnone.symm.trans hresult

section

variable (hinv : s.Inv)
include hinv

theorem Inv.execSignal {op : SignalOp} (htold : s.toThreads.Told op)
    (hexec : s.execSignal op = some s') : s'.Inv := by
  obtain ⟨threads, hthreads, rfl⟩ := Option.map_eq_some_iff.mp hexec
  obtain ⟨hok, hmarked', hkept⟩ := hinv.ok.exec hthreads
  have hmarked := hmarked' htold hinv.marked
  generalize hresumed : s.toThreads.resumed op = resumed at hkept
  have hgranted : ∀ u, (threads.phase u).waits = true → threads.waker u = some .grant →
      s.satisfied u = true := by
    intro u hwaits hgrant
    rw [hkept.waker u] at hgrant
    split at hgrant
    · cases hgrant
    · refine hinv.granted u ?_ hgrant
      cases hbefore : (s.phase u).waits with
      | true => rfl
      | false =>
        rw [hkept.idle u hbefore] at hwaits
        exact hbefore.symm.trans hwaits
  have hasleep : ∀ u, threads.stat u = .suspend → s.stat u = .suspend ∧ resumed ≠ some u := by
    intro u hsuspend
    rw [hkept.stat u] at hsuspend
    split at hsuspend
    · cases hsuspend
    next hne => exact ⟨hsuspend, hne⟩
  cases resumed with
  | none =>
    refine ⟨hok, hmarked, hinv.nodup, ?_, ?_, hgranted, honest_none rfl⟩
    · intro source u hu
      obtain ⟨hsuspend, hcall⟩ := hinv.listed source u hu
      exact ⟨(hkept.stat u).trans hsuspend, hcall⟩
    · intro u o set option timeout hsuspend
      exact hinv.asks u o set option timeout (hasleep u hsuspend).1
  | some t =>
    refine ⟨hok, hmarked, fun source => listRemove_nodup (hinv.nodup source), ?_, ?_, hgranted,
      honest_none rfl⟩
    · intro source u hu
      obtain ⟨hin, hne⟩ := mem_listRemove.mp hu
      obtain ⟨hsuspend, hcall⟩ := hinv.listed source u hin
      refine ⟨(hkept.stat u).trans ?_, hcall⟩
      rw [if_neg (fun heq => hne (Option.some.inj heq).symm)]
      exact hsuspend
    · intro u o set option timeout hsuspend
      exact hinv.asks u o set option timeout (hasleep u hsuspend).1

theorem Inv.block {call : WaitCall} {time : Int} (hready : s.stat t = .ready)
    (hhandling : (s.signal t).handling = [])
    (hasks : ∀ o set option timeout, call = .eventRecv o set option timeout →
      s.eventSet t = set ∧ s.eventInfo t = option) : (s.block t call time).Inv := by
  have hout : ∀ source, t ∉ s.list source := by
    intro source hmem
    cases hready.symm.trans (hinv.listed source t hmem).1
  have hstat : ∀ u, (s.block t call time).stat u = if u = t then .suspend else s.stat u :=
    Threads.suspend_stat hready
  refine ⟨hinv.ok.suspend hready hhandling, hinv.marked.suspend, ?_, ?_, ?_, ?_, honest_none rfl⟩
  · intro source
    simp only [WaitSystem.block]
    rcases eq_or_ne source call.source with rfl | hne
    · rw [update_self]
      exact listSuspend_nodup (hinv.nodup _) (hout _)
    · rw [update_of_ne hne]
      exact hinv.nodup source
  · intro source u hu
    have hu' : u = t ∧ source = call.source ∨ u ∈ s.list source := by
      simp only [WaitSystem.block] at hu
      rcases eq_or_ne source call.source with rfl | hne
      · rw [update_self, mem_listSuspend] at hu
        exact hu.imp_left fun heq => ⟨heq, rfl⟩
      · rw [update_of_ne hne] at hu
        exact .inr hu
    rcases hu' with ⟨rfl, rfl⟩ | hold
    · exact ⟨(hstat u).trans (if_pos rfl), call, update_self .., rfl⟩
    · have hne : u ≠ t := by
        rintro rfl
        exact hout source hold
      obtain ⟨hsuspend, call', hcall, hsource⟩ := hinv.listed source u hold
      exact ⟨(hstat u).trans ((if_neg hne).trans hsuspend), call',
        (update_of_ne hne ..).trans hcall, hsource⟩
  · intro u o set option timeout hsuspend hcall
    rcases eq_or_ne u t with rfl | hne
    · have hself : (s.block u call time).wait u = some call := update_self ..
      exact hasks o set option timeout (Option.some.inj (hself.symm.trans hcall))
    · exact hinv.asks u o set option timeout ((if_neg hne).symm.trans
        ((hstat u).symm.trans hsuspend)) ((update_of_ne hne ..).symm.trans hcall)
  · intro u hwaits hgrant
    have hwaker : (s.block t call time).waker u = if u = t then none else s.waker u :=
      Threads.suspend_waker u
    rw [hwaker] at hgrant
    split at hgrant
    · cases hgrant
    next hne =>
      have hphase : (s.block t call time).phase u = s.phase u :=
        (Threads.suspend_phase u).trans (if_neg hne)
      rw [hphase] at hwaits
      exact (update_of_ne hne ..).trans (hinv.granted u hwaits hgrant)

theorem Inv.reset {error : Int} (hidle : (s.phase t).waits = false) (hhonest : s.Honest) :
    ({ s with toThreads := s.toThreads.setError t error } : WaitSystem).Inv := by
  refine ⟨hinv.ok.setError (.inr hidle), hinv.marked.reset hidle, hinv.nodup, ?_, ?_, hinv.granted, hhonest⟩
  · intro source u hu
    obtain ⟨hsuspend, hcall⟩ := hinv.listed source u hu
    exact ⟨(Threads.setError_stat error u).trans hsuspend, hcall⟩
  · intro u o set option timeout hsuspend
    exact hinv.asks u o set option timeout ((Threads.setError_stat error u).symm.trans hsuspend)

theorem Inv.settle {phase : Phase} {call : Option WaitCall} {result : Option Return} (hready : s.stat t = .ready) (hhandling : (s.signal t).handling = [])
    (hphase : phase.waits = false)
    (hhonest : ∀ r, result = some r → r.code = rtEok → r.satisfied = true) :
    ({ s with
      toThreads := s.toThreads.setPhase t phase
      wait := update s.wait t call
      returned := result } : WaitSystem).Inv := by
  have hother : ∀ u, s.stat u = .suspend → u ≠ t := by
    rintro u hsuspend rfl
    cases hready.symm.trans hsuspend
  refine ⟨hinv.ok.settle hready hphase hhandling, hinv.marked.settle hphase, hinv.nodup, ?_, ?_,
    ?_, hhonest⟩
  · intro source u hu
    obtain ⟨hsuspend, call', hcall, hsource⟩ := hinv.listed source u hu
    exact ⟨hsuspend, call', (update_of_ne (hother u hsuspend) ..).trans hcall, hsource⟩
  · intro u o set option timeout hsuspend hcall
    have hsame : update s.wait t call u = s.wait u :=
      update_of_ne (hother u hsuspend) ..
    exact hinv.asks u o set option timeout hsuspend (hsame.symm.trans hcall)
  · intro u hwaits
    change (update s.phase t phase u).waits = true at hwaits
    rcases eq_or_ne u t with rfl | hne
    · rw [update_self] at hwaits
      cases hwaits.symm.trans hphase
    · rw [update_of_ne hne] at hwaits
      exact hinv.granted u hwaits

theorem Inv.leave {code : Int} {satisfied : Bool} (hready : s.stat t = .ready)
    (hhandling : (s.signal t).handling = []) (htrue : code = rtEok → satisfied = true) :
    (s.leave t code satisfied).Inv := by
  refine hinv.settle hready hhandling rfl fun r hr hcode => ?_
  obtain rfl := Option.some.inj hr
  exact htrue hcode

theorem Inv.grant {eventSet : Tid → BitVec 32} {event : ObjId → BitVec 32}
    (hsuspend : s.stat t = .suspend) (hset : ∀ u, u ≠ t → eventSet u = s.eventSet u)
    (hnone : s.returned = none) :
    ({ s with eventSet := eventSet, event := event }.grant t true).Inv := by
  unfold WaitSystem.grant
  rw [if_pos (show (s.toThreads.stat t) = .suspend from hsuspend)]
  have hstat : ∀ u, (s.toThreads.resume t .grant).stat u = if u = t then .ready else s.stat u :=
    Threads.resume_stat hsuspend
  refine ⟨hinv.ok.resume hsuspend (fun h => nomatch h), hinv.marked.resume hinv.ok hsuspend,
    fun source => listRemove_nodup (hinv.nodup source), ?_, ?_, ?_, honest_none hnone⟩
  · intro source u hu
    obtain ⟨hin, hne⟩ := mem_listRemove.mp hu
    obtain ⟨hasleep, hcall⟩ := hinv.listed source u hin
    exact ⟨((hstat u).trans (if_neg hne)).trans hasleep, hcall⟩
  · intro u o set option timeout hasleep hcall
    have hbefore := (hstat u).symm.trans hasleep
    split at hbefore
    · cases hbefore
    next hne =>
      obtain ⟨hsame, hinfo⟩ := hinv.asks u o set option timeout hbefore hcall
      exact ⟨(hset u hne).trans hsame, hinfo⟩
  · intro u hwaits hgrant
    change update s.satisfied t true u = true
    rcases eq_or_ne u t with rfl | hne
    · exact update_self ..
    · rw [update_of_ne hne]
      have hwaker := (Threads.resume_waker (s := s.toThreads) u).symm.trans hgrant
      rw [if_neg hne] at hwaker
      exact hinv.granted u hwaits hwaker

theorem Inv.takes (hmem : t ∈ s.list (.semaphore o)) : s.takes t o = true := by
  obtain ⟨-, call, hcall, hsource⟩ := hinv.listed _ t hmem
  cases call with
  | semTake o' =>
    obtain rfl := Source.semaphore.inj hsource
    exact decide_eq_true hcall
  | eventRecv => cases hsource

theorem Inv.awaits {event : BitVec 32} (hmem : t ∈ s.list (.event o))
    (hstatus : eventStatus (s.eventInfo t) (s.eventSet t) event = true) :
    s.awaits t o event = true := by
  obtain ⟨hsuspend, call, hcall, hsource⟩ := hinv.listed _ t hmem
  cases call with
  | semTake => cases hsource
  | eventRecv o' set option timeout =>
    obtain rfl := Source.event.inj hsource
    obtain ⟨hset, hinfo⟩ := hinv.asks t o' set option timeout hsuspend hcall
    rw [hset, hinfo] at hstatus
    unfold WaitSystem.awaits
    rw [hcall]
    simpa using hstatus

theorem Inv.rtSemTake {time : Int} (hfree : s.Free t) : (s.rtSemTake t o time).Inv := by
  obtain ⟨hready, hphase, hhandling⟩ := hfree
  have hidle : (s.phase t).waits = false := by
    rw [hphase]
    rfl
  unfold WaitSystem.rtSemTake
  split
  · refine hinv.of_same rfl rfl rfl rfl rfl rfl fun r hr _ => ?_
    obtain rfl := Option.some.inj hr
    rfl
  · split
    · refine hinv.of_same rfl rfl rfl rfl rfl rfl fun r hr hcode => ?_
      obtain rfl := Option.some.inj hr
      exact absurd (show -rtEtimeout = rtEok from hcode) (by decide)
    · refine (hinv.reset hidle hinv.honest).block ?_ hhandling (fun _ _ _ _ h => nomatch h)
      exact (Threads.setError_stat rtEok t).trans hready

theorem Inv.rtSemTrytake : (s.rtSemTrytake o).Inv := by
  unfold WaitSystem.rtSemTrytake
  split
  · exact hinv.of_same rfl rfl rfl rfl rfl rfl (honest_none rfl)
  · exact hinv.of_same rfl rfl rfl rfl rfl rfl (honest_none rfl)

theorem Inv.rtSemRelease : (s.rtSemRelease o).Inv := by
  have hquiet : ({ s with returned := none } : WaitSystem).Inv :=
    hinv.of_same rfl rfl rfl rfl rfl rfl (honest_none rfl)
  unfold WaitSystem.rtSemRelease
  simp only
  split
  · exact hquiet.of_same rfl rfl rfl rfl rfl rfl (honest_none rfl)
  next t rest hlist =>
    have hmem : t ∈ s.list (.semaphore o) := by
      rw [hlist]
      exact List.mem_cons_self
    rw [hquiet.takes hmem]
    exact hquiet.grant (hinv.listed _ t hmem).1 (fun _ _ => rfl) rfl

theorem Inv.eventBegin {set : BitVec 32} {option : BitVec 8} {timeout : Int}
    (hfree : s.Free t) : (s.eventBegin t o set option timeout).Inv := by
  obtain ⟨hready, hphase, hhandling⟩ := hfree
  have hidle : (s.phase t).waits = false := by
    rw [hphase]
    rfl
  unfold WaitSystem.eventBegin
  split
  · refine hinv.of_same rfl rfl rfl rfl rfl rfl fun r hr hcode => ?_
    obtain rfl := Option.some.inj hr
    exact absurd (show -rtError = rtEok from hcode) (by decide)
  · exact (hinv.reset hidle hinv.honest).settle ((Threads.setError_stat rtEok t).trans hready)
      hhandling rfl (fun _ h => nomatch h)

theorem Inv.rtEventRecv (hexec : s.rtEventRecv t = some s') : s'.Inv := by
  unfold WaitSystem.rtEventRecv at hexec
  split at hexec
  next o set option timeout hcall =>
    split at hexec
    next hat =>
      obtain ⟨hphase, hready, hhandling⟩ := hat
      have hidle : (s.phase t).waits = false := by
        rw [hphase]
        rfl
      split at hexec
      · cases hexec
      · split at hexec
        · obtain rfl := Option.some.inj hexec
          refine Inv.leave ?_ hready hhandling (fun _ => rfl)
          exact hinv.of_same rfl rfl rfl rfl rfl rfl hinv.honest
        · split at hexec
          · obtain rfl := Option.some.inj hexec
            exact (hinv.reset hidle hinv.honest).leave
              ((Threads.setError_stat (-rtEtimeout) t).trans hready) hhandling
              (fun h => absurd h (by decide))
          · obtain rfl := Option.some.inj hexec
            refine Inv.block ?_ hready hhandling fun o' set' option' timeout' heq => ?_
            · refine ⟨hinv.ok, hinv.marked, hinv.nodup, hinv.listed, ?_, hinv.granted, hinv.honest⟩
              intro u o' set' option' timeout' hsuspend hcall'
              have hne : u ≠ t := by
                rintro rfl
                cases hready.symm.trans hsuspend
              simp only [update_of_ne hne]
              exact hinv.asks u o' set' option' timeout' hsuspend hcall'
            · cases heq
              exact ⟨update_self .., update_self ..⟩
    · cases hexec
  · cases hexec

theorem Inv.eventSendEach {rest : List Tid} (hnone : s.returned = none)
    (hnodup : rest.Nodup) (hrest : ∀ u ∈ rest, u ∈ s.list (.event o)) :
    (WaitSystem.eventSendEach o rest s).Inv := by
  induction rest generalizing s with
  | nil => exact hinv
  | cons t rest ih =>
    obtain ⟨hout, hnodup'⟩ := List.nodup_cons.mp hnodup
    have hmem := hrest t List.mem_cons_self
    have hsuspend := (hinv.listed _ t hmem).1
    unfold WaitSystem.eventSendEach
    split
    next hstatus =>
      simp only
      rw [hinv.awaits hmem hstatus]
      refine ih (hinv.grant hsuspend (fun u hne => update_of_ne hne ..) hnone) ?_
        hnodup' fun u hu => ?_
      · unfold WaitSystem.grant
        split <;> exact hnone
      · unfold WaitSystem.grant
        rw [if_pos (show s.toThreads.stat t = .suspend from hsuspend)]
        refine mem_listRemove.mpr ⟨hrest u (List.mem_cons_of_mem _ hu), ?_⟩
        rintro rfl
        exact hout hu
    · exact ih hinv hnone hnodup' fun u hu => hrest u (List.mem_cons_of_mem _ hu)

theorem Inv.rtEventSend {set : BitVec 32} : (s.rtEventSend o set).Inv := by
  have hquiet : ({ s with returned := none } : WaitSystem).Inv :=
    hinv.of_same rfl rfl rfl rfl rfl rfl (honest_none rfl)
  unfold WaitSystem.rtEventSend
  simp only
  split
  · exact hquiet
  · refine Inv.eventSendEach ?_ rfl (hinv.nodup _) fun _ hu => hu
    exact hquiet.of_same rfl rfl rfl rfl rfl rfl (honest_none rfl)

theorem Inv.rtThreadTimeout : (s.rtThreadTimeout t).Inv := by
  have hstat := Threads.expire_stat (s := s.toThreads) (t := t)
  refine ⟨hinv.ok.expire, hinv.marked.expire, fun source => listRemove_nodup (hinv.nodup source),
    ?_, ?_, ?_, honest_none rfl⟩
  · intro source u hu
    obtain ⟨hin, hne⟩ := mem_listRemove.mp hu
    obtain ⟨hsuspend, hcall⟩ := hinv.listed source u hin
    exact ⟨((hstat u).trans (if_neg hne)).trans hsuspend, hcall⟩
  · intro u o set option timeout hsuspend
    have hbefore := (hstat u).symm.trans hsuspend
    split at hbefore
    · cases hbefore
    · exact hinv.asks u o set option timeout hbefore
  · intro u hwaits hgrant
    have hwaker := (Threads.expire_waker (s := s.toThreads) u).symm.trans hgrant
    split at hwaker
    · cases hwaker
    · exact hinv.granted u hwaits hwaker

/-- A thread that comes out of `rt_schedule` without an error was resumed by a release or a
send. -/
theorem Inv.finish (hdone : s.phase t = .done) (hready : s.stat t = .ready)
    (hhandling : (s.signal t).handling = []) :
    (s.leave t (s.error t) (s.satisfied t)).Inv := by
  have hwaits : (s.phase t).waits = true := by
    rw [hdone]
    rfl
  refine hinv.leave hready hhandling fun herror => ?_
  match hwaker : s.waker t with
  | none => exact absurd hwaker (hinv.ok.awake t hready hwaits)
  | some .grant => exact hinv.granted t hwaits hwaker
  | some .expiry => exact absurd herror (hinv.ok.expired t hwaits hwaker)
  | some .signal => exact absurd herror (hinv.marked t hdone hwaker)

theorem Inv.exec {op : WaitOp} (htold : s.Told op) (hexec : s.exec op = some s') : s'.Inv := by
  cases op with
  | signal op => exact hinv.execSignal htold hexec
  | semTake t o time =>
    simp only [WaitSystem.exec] at hexec
    split at hexec
    next hfree =>
      cases hexec
      exact hinv.rtSemTake hfree
    · cases hexec
  | semTrytake o =>
    cases hexec
    exact hinv.rtSemTrytake
  | semRelease o =>
    cases hexec
    exact hinv.rtSemRelease
  | eventBegin t o set option timeout =>
    simp only [WaitSystem.exec] at hexec
    split at hexec
    next hfree =>
      cases hexec
      exact hinv.eventBegin hfree
    · cases hexec
  | eventRecv t => exact hinv.rtEventRecv hexec
  | eventSend o set =>
    cases hexec
    exact hinv.rtEventSend
  | timeout t =>
    simp only [WaitSystem.exec] at hexec
    split at hexec
    · cases hexec
      exact hinv.rtThreadTimeout
    · cases hexec
  | finish t =>
    simp only [WaitSystem.exec] at hexec
    split at hexec
    next hat =>
      cases hexec
      exact hinv.finish hat.1 hat.2.1 hat.2.2
    · cases hexec

end

theorem Initial.inv (hinit : s.Initial) : s.Inv := by
  have hidle : ∀ t, (s.phase t).waits = false := fun t => by
    rw [hinit.phase t]
    rfl
  refine ⟨⟨fun t => .inl (hinit.stat t), ?_, ?_, ?_, ?_, ?_⟩, ?_, ?_, ?_, ?_, ?_,
    honest_none hinit.returned⟩
  · intro t hsuspend
    cases (hinit.stat t).symm.trans hsuspend
  · intro t _ hwaits
    cases hwaits.symm.trans (hidle t)
  · intro t hwaits
    cases hwaits.symm.trans (hidle t)
  · intro t signo hmem
    rw [hinit.handling t] at hmem
    cases hmem
  · intro t
    rw [hinit.handling t]
    exact List.Pairwise.nil
  · intro t hdone
    cases (hinit.phase t).symm.trans hdone
  · intro source
    rw [hinit.list source]
    exact List.nodup_nil
  · intro source t hmem
    rw [hinit.list source] at hmem
    cases hmem
  · intro t _ _ _ _ hsuspend
    cases (hinit.stat t).symm.trans hsuspend
  · intro t hwaits
    cases hwaits.symm.trans (hidle t)

theorem reachable_inv (hreach : waitMachine.Reachable Told s) : s.Inv := by
  apply hreach.invariant
  · intro s hinit
    exact hinit.inv
  · intro s op s' hinv htold hexec
    exact hinv.exec htold hexec

/-- `rt_sem_take` and `rt_event_recv` return `RT_EOK` with a token or with the event as long as
every thread that a signal has resumed gets to its handlers in `rt_schedule`. -/
theorem reachable_honest (hreach : waitMachine.Reachable Told s) : s.Honest :=
  (reachable_inv hreach).honest

def waitStart : WaitSystem where
  thread _ := { Thread.init (Config.flat 2) 10 with stat := .ready }
  signal _ :=
    { sigPending := 0, sigMask := sigMaskOf 10, siList := [], statSignal := false,
      sigRet := false, handling := [] }
  phase _ := .idle
  kills := []
  waker _ := none
  wait _ := none
  flag _ := .fifo
  list _ := []
  value _ := 0
  event _ := 0
  eventSet _ := 0
  eventInfo _ := 0
  returned := none
  satisfied _ := false

theorem waitStart_initial : waitStart.Initial :=
  ⟨fun _ => rfl, fun _ => rfl, fun _ => rfl, fun _ => rfl, rfl⟩

def kill (t : Tid) : List WaitOp :=
  [.signal (.killSet t 10 false), .signal (.killAlloc 0 true), .signal (.killCheck 0),
    .signal (.killDeliver 0 false)]

/-- A thread handles a signal in `rt_sem_take`, and then takes the semaphore. -/
def handledRun : List WaitOp :=
  [.semTake 1 7 (-1), .signal (.schedule 1 false)] ++ kill 1 ++
    [.signal (.switchIn 1), .signal (.handleBegin 1), .signal (.handleNext 1), .finish 1,
      .semTake 1 7 (-1), .signal (.schedule 1 false), .semRelease 7, .signal (.switchIn 1),
      .signal (.handleBegin 1), .finish 1]

theorem reachable_honest_handledRun :
    ∃ s, waitMachine.Reachable Told s ∧ s.returned = some ⟨1, rtEok, true⟩ ∧ s.Honest := by
  have hrun : (waitMachine.run Told waitStart handledRun).map returned =
      some (some ⟨1, rtEok, true⟩) := by
    decide +kernel
  obtain ⟨s, hreach, hend⟩ := Machine.exists_reachable_of_run waitStart_initial hrun
  exact ⟨s, hreach, hend, reachable_honest hreach⟩

/-- A signal comes before the thread has got to `rt_schedule`, and there is no thread that it does
not outrank. -/
def earlyRun : List WaitOp :=
  [.semTake 1 7 (-1)] ++ kill 1 ++ [.signal (.schedule 1 false), .finish 1]

/-- `rt_sem_take` returns `RT_EOK` without a token. -/
theorem honest_fails_for_early_signal :
    ∃ s, waitMachine.Reachable (fun _ _ => True) s ∧ ¬ s.Honest := by
  have hrun : (waitMachine.run (fun _ _ => True) waitStart earlyRun).map returned =
      some (some ⟨1, rtEok, false⟩) := by
    decide +kernel
  obtain ⟨s, hreach, hend⟩ := Machine.exists_reachable_of_run waitStart_initial hrun
  refine ⟨s, hreach, fun hhonest => ?_⟩
  exact absurd (hhonest _ hend rfl) (by decide)

/-- There is no node for the signal. -/
example : (waitMachine.run (fun _ _ => True) waitStart
    [.semTake 1 7 (-1), .signal (.schedule 1 false), .signal (.killSet 1 10 false),
      .signal (.killAlloc 0 false), .signal (.killCheck 0), .signal (.killDeliver 0 false),
      .signal (.switchIn 1), .signal (.handleBegin 1), .finish 1]).map returned =
    some (some ⟨1, rtEok, false⟩) := by
  decide +kernel

end WaitSystem

end RtThread.Interrupt
