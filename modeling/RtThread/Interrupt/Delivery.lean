import RtThread.Signal.State

namespace RtThread.Interrupt

open Function RtThread.Signal

/-! Signals to threads that are blocked, one step for each critical section of `signal.c` and of
`rt_schedule`.  What the rest of the scheduler does is part of a step. -/

/-- Where a blocking call of a thread stands: outside of such calls, before the section that may
block, between that section and `rt_schedule`, switched out there, switched in again, and behind
`rt_schedule`. -/
inductive Phase
  | idle
  | entered
  | suspended
  | out
  | back
  | done
  deriving DecidableEq

def Phase.waits : Phase → Bool
  | .idle | .entered => false
  | .suspended | .out | .back | .done => true

inductive Waker
  | grant
  | expiry
  | signal
  deriving DecidableEq

/-- `siList` are the signals of the nodes.  `sigRet` says that the thread runs `_signal_entry` when
it is switched in, `handling` are its calls of `rt_thread_handle_sig` in a handler, the innermost
first, each with `clean_state` and the signal. -/
structure SignalState where
  sigPending : SigSet
  sigMask : SigSet
  siList : List Nat
  statSignal : Bool
  sigRet : Bool
  handling : List (Bool × Nat)

inductive KillStage
  | alloc
  | check
  | deliver
  deriving DecidableEq

structure KillCall where
  tid : Tid
  sig : Nat
  stage : KillStage
  deriving DecidableEq

/-- History: `waker` is who has resumed a thread since it was suspended last. -/
structure Threads where
  thread : Tid → Thread
  signal : Tid → SignalState
  phase : Tid → Phase
  kills : List KillCall
  waker : Tid → Option Waker

inductive SignalOp
  | killSet (tid : Tid) (sig : Nat) (found : Bool)
  | killAlloc (i : Nat) (node : Bool)
  | killCheck (i : Nat)
  | killDeliver (i : Nat) (self : Bool)
  | mask (t : Tid) (signo : Nat)
  | unmask (t : Tid) (signo : Nat)
  | handleSelf (t : Tid)
  | entryBegin (t : Tid)
  | entryLost (t : Tid)
  | schedule (t : Tid) (outranked : Bool)
  | switchIn (t : Tid)
  | handleBegin (t : Tid)
  | handleNext (t : Tid)
  deriving DecidableEq

namespace SignalState

def interested (s : SignalState) : Bool := s.sigPending &&& s.sigMask ≠ 0

/-- The loop of `rt_thread_handle_sig` up to the next call of a handler or to its end; `rest` are
the calls below it. -/
def handleLoop (cleanState : Bool) (rest : List (Bool × Nat)) (s : SignalState) : SignalState :=
  match if s.interested then s.siList else [] with
  | [] => { s with statSignal := false, handling := rest }
  | signo :: siList => { s with siList := siList, handling := (cleanState, signo) :: rest }

def clearPending (signo : Nat) (s : SignalState) : SignalState :=
  { s with sigPending := s.sigPending &&& ~~~sigMaskOf signo }

end SignalState

namespace Threads

def stat (s : Threads) (t : Tid) : ThreadStat := (s.thread t).stat

def error (s : Threads) (t : Tid) : Int := (s.thread t).error

def setThread (s : Threads) (t : Tid) (thread : Thread) : Threads :=
  { s with thread := update s.thread t thread }

def setSignal (s : Threads) (t : Tid) (signal : SignalState) : Threads :=
  { s with signal := update s.signal t signal }

def setPhase (s : Threads) (t : Tid) (phase : Phase) : Threads :=
  { s with phase := update s.phase t phase }

def setError (s : Threads) (t : Tid) (error : Int) : Threads :=
  s.setThread t { s.thread t with error := error }

def setWaker (s : Threads) (t : Tid) (waker : Option Waker) : Threads :=
  { s with waker := update s.waker t waker }

def suspend (t : Tid) (time : Int) (s : Threads) : Threads :=
  ((s.setThread t { (s.thread t).suspend with
    timerActive := if 0 < time then true else (s.thread t).suspend.timerActive }).setPhase t
    .suspended).setWaker t none

def resume (t : Tid) (waker : Waker) (s : Threads) : Threads :=
  (s.setThread t (s.thread t).resume).setWaker t (some waker)

def expire (t : Tid) (s : Threads) : Threads :=
  (s.setThread t (s.thread t).expire).setWaker t (some .expiry)

def Free (s : Threads) (t : Tid) : Prop :=
  s.stat t = .ready ∧ s.phase t = .idle ∧ (s.signal t).handling = []

instance (s : Threads) (t : Tid) : Decidable (s.Free t) :=
  inferInstanceAs (Decidable (_ ∧ _ ∧ _))

/-- `rt_thread_kill` up to the allocation; `found` says whether its walk over the nodes finds one
of the signal. -/
def killSet (tid : Tid) (sig : Nat) (found : Bool) (s : Threads) : Threads :=
  if sigValid sig then
    if (s.signal tid).sigPending &&& sigMaskOf sig ≠ 0 then
      if found then s else { s with kills := ⟨tid, sig, .alloc⟩ :: s.kills }
    else
      { s.setSignal tid { s.signal tid with
          sigPending := (s.signal tid).sigPending ||| sigMaskOf sig } with
        kills := ⟨tid, sig, .alloc⟩ :: s.kills }
  else s

def killAlloc (i : Nat) (node : Bool) (s : Threads) : Option Threads :=
  match s.kills[i]? with
  | some ⟨tid, sig, .alloc⟩ =>
    let s := { s with kills := s.kills.set i ⟨tid, sig, .check⟩ }
    some (if node then
        s.setSignal tid { s.signal tid with siList := (s.signal tid).siList ++ [sig] }
      else s)
  | _ => none

def killCheck (i : Nat) (s : Threads) : Option Threads :=
  match s.kills[i]? with
  | some ⟨tid, sig, .check⟩ =>
    some { s with kills :=
      if (s.signal tid).interested then s.kills.set i ⟨tid, sig, .deliver⟩
      else s.kills.eraseIdx i }
  | _ => none

def delivered (s : Threads) (i : Nat) : Option Tid :=
  match s.kills[i]? with
  | some ⟨tid, _, .deliver⟩ => if s.stat tid = .suspend then some tid else none
  | _ => none

/-- The section of `_signal_deliver`; `self` says that the thread sends the signal to itself. -/
def killDeliver (i : Nat) (self : Bool) (s : Threads) : Option Threads :=
  match s.kills[i]? with
  | some ⟨tid, _, .deliver⟩ =>
    let s := { s with kills := s.kills.eraseIdx i }
    some (if s.stat tid = .suspend then
        (s.resume tid .signal).setSignal tid { s.signal tid with statSignal := true }
      else if self then s.setSignal tid { s.signal tid with statSignal := true }
      else if (s.signal tid).statSignal = false then
        s.setSignal tid { s.signal tid with statSignal := true, sigRet := true }
      else s)
  | _ => none

def Runs (s : Threads) (t : Tid) : Prop :=
  s.stat t = .ready ∧ (s.phase t = .idle ∨ (s.signal t).handling ≠ [])

instance (s : Threads) (t : Tid) : Decidable (s.Runs t) :=
  inferInstanceAs (Decidable (_ ∧ _))

def handled (t : Tid) (signo : Nat) (s : Threads) : Threads :=
  (s.setSignal t ((s.signal t).clearPending signo)).setError t (-rtEintr)

/-- A `rt_thread_handle_sig` that the thread calls itself, one round at a time: the next handler,
or the end. -/
def handleSelf (t : Tid) (s : Threads) : Threads :=
  match (s.signal t).interested, (s.signal t).siList with
  | true, signo :: siList => (s.setSignal t { s.signal t with siList := siList }).handled t signo
  | _, _ => s.setSignal t { s.signal t with statSignal := false }

def unmask (t : Tid) (signo : Nat) (s : Threads) : Threads :=
  let signal := { s.signal t with sigMask := (s.signal t).sigMask ||| sigMaskOf signo }
  s.setSignal t { signal with statSignal := signal.statSignal || signal.interested }

def entryBegin (t : Tid) (s : Threads) : Threads :=
  s.setSignal t ({ s.signal t with sigRet := false }.handleLoop false (s.signal t).handling)

/-- `rt_schedule` in the call of a thread; `outranked` says that a thread is ready which it does
not outrank. -/
def schedule (t : Tid) (outranked : Bool) (s : Threads) : Option Threads :=
  if s.phase t = .suspended ∧ (s.signal t).handling = [] then
    match s.stat t with
    | .suspend => some (s.setPhase t .out)
    | .ready => some (s.setPhase t (if outranked then .out else .done))
    | _ => none
  else none

def switchIn (t : Tid) (s : Threads) : Option Threads :=
  if s.phase t = .out ∧ s.stat t = .ready ∧ (s.signal t).handling = [] then
    some (s.setPhase t .back)
  else none

/-- A round of `rt_thread_handle_sig` at the end of `rt_schedule`, and the end of that if no
handler is called. -/
def handleRound (t : Tid) (cleanState : Bool) (rest : List (Bool × Nat)) (s : Threads) : Threads :=
  let signal := (s.signal t).handleLoop cleanState rest
  let s := s.setSignal t signal
  if cleanState ∧ signal.handling = rest then s.setPhase t .done else s

def handleBegin (t : Tid) (s : Threads) : Option Threads :=
  if s.phase t = .back ∧ (s.signal t).handling = [] then
    if (s.signal t).interested then some (s.handleRound t true [])
    else some (s.setPhase t .done)
  else none

def handleNext (t : Tid) (s : Threads) : Option Threads :=
  match (s.signal t).handling with
  | [] => none
  | (cleanState, signo) :: rest =>
    if s.stat t = .ready then some ((s.handled t signo).handleRound t cleanState rest)
    else none

def exec (s : Threads) : SignalOp → Option Threads
  | .killSet tid sig found => some (s.killSet tid sig found)
  | .killAlloc i node => s.killAlloc i node
  | .killCheck i => s.killCheck i
  | .killDeliver i self => s.killDeliver i self
  | .mask t signo =>
    if s.Runs t then
      some (s.setSignal t { s.signal t with
        sigMask := (s.signal t).sigMask &&& ~~~sigMaskOf signo })
    else none
  | .unmask t signo => if s.Runs t then some (s.unmask t signo) else none
  | .handleSelf t => if s.Runs t then some (s.handleSelf t) else none
  | .entryBegin t =>
    if s.stat t = .ready ∧ (s.signal t).sigRet then some (s.entryBegin t) else none
  -- the stack pointer of a thread that runs is written once more
  | .entryLost t => some (s.setSignal t { s.signal t with sigRet := false })
  | .schedule t outranked => s.schedule t outranked
  | .switchIn t => s.switchIn t
  | .handleBegin t => s.handleBegin t
  | .handleNext t => s.handleNext t

def resumed (s : Threads) : SignalOp → Option Tid
  | .killDeliver i _ => s.delivered i
  | _ => none

/-- A thread that a signal has resumed is switched out in `rt_schedule`, and at the end of that
it finds the signal and a node, unless it has handled a signal before. -/
def Told (s : Threads) : SignalOp → Prop
  | .schedule t outranked =>
    s.stat t = .ready → s.waker t = some .signal → s.error t = rtEok → outranked = true
  | .handleBegin t =>
    s.waker t = some .signal → s.error t = rtEok →
      (s.signal t).interested = true ∧ (s.signal t).siList ≠ []
  | _ => True

instance (s : Threads) (op : SignalOp) : Decidable (s.Told op) := by
  cases op <;> unfold Told <;> infer_instance

structure Ok (s : Threads) : Prop where
  stat : ∀ t, s.stat t = .ready ∨ s.stat t = .suspend
  asleep : ∀ t, s.stat t = .suspend →
    (s.phase t = .suspended ∨ s.phase t = .out) ∧ s.waker t = none
  awake : ∀ t, s.stat t = .ready → (s.phase t).waits = true → s.waker t ≠ none
  expired : ∀ t, (s.phase t).waits = true → s.waker t = some .expiry → s.error t ≠ rtEok
  clean : ∀ t signo, (true, signo) ∈ (s.signal t).handling → s.phase t = .back
  nested : ∀ t, (s.signal t).handling.Pairwise fun call _ => call.1 = false

/-- A thread that a signal has resumed gets out of `rt_schedule` with an error. -/
def Marked (s : Threads) : Prop :=
  ∀ t, s.phase t = .done → s.waker t = some .signal → s.error t ≠ rtEok

structure Kept (s s' : Threads) (resumed : Option Tid) : Prop where
  waker : ∀ t, s'.waker t = if resumed = some t then some .signal else s.waker t
  stat : ∀ t, s'.stat t = if resumed = some t then .ready else s.stat t
  idle : ∀ t, (s.phase t).waits = false → s'.phase t = s.phase t
  waits : ∀ t, (s.phase t).waits = true → (s'.phase t).waits = true
  error : ∀ t, s'.error t = s.error t ∨ s'.error t ≠ rtEok
  nest : ∀ t, (s'.thread t).cpusLockNest = (s.thread t).cpusLockNest

variable {s s' s'' : Threads} {t : Tid} {signal : SignalState} {phase : Phase} {op : SignalOp}

theorem Kept.refl : Kept s s none :=
  ⟨fun _ => rfl, fun _ => rfl, fun _ _ => rfl, fun _ h => h, fun _ => .inl rfl, fun _ => rfl⟩

theorem Kept.of_kills {kills : List KillCall} : Kept s { s with kills := kills } none :=
  ⟨fun _ => rfl, fun _ => rfl, fun _ _ => rfl, fun _ h => h, fun _ => .inl rfl, fun _ => rfl⟩

theorem Kept.trans {resumed : Option Tid} (hfirst : Kept s s' none)
    (hsecond : Kept s' s'' resumed) : Kept s s'' resumed := by
  refine ⟨fun t => ?_, fun t => ?_, fun t hidle => ?_, fun t hwaits => ?_, fun t => ?_,
    fun t => (hsecond.nest t).trans (hfirst.nest t)⟩
  · rw [hsecond.waker t, hfirst.waker t]
    rfl
  · rw [hsecond.stat t, hfirst.stat t]
    rfl
  · have hsame := hfirst.idle t hidle
    rw [hsecond.idle t (by rw [hsame]; exact hidle), hsame]
  · exact hsecond.waits t (hfirst.waits t hwaits)
  · rcases hsecond.error t with hsame | herror
    · rw [hsame]
      exact hfirst.error t
    · exact .inr herror

theorem Kept.setSignal : Kept s (s.setSignal t signal) none :=
  ⟨fun _ => rfl, fun _ => rfl, fun _ _ => rfl, fun _ h => h, fun _ => .inl rfl, fun _ => rfl⟩

theorem setError_stat (error : Int) (u : Tid) : (s.setError t error).stat u = s.stat u := by
  rcases eq_or_ne u t with rfl | hne
  · simp [setError, setThread, stat]
  · simp [setError, setThread, stat, hne]

theorem Kept.setError {error : Int} (herror : error ≠ rtEok) :
    Kept s (s.setError t error) none := by
  refine ⟨fun _ => rfl, setError_stat error, fun _ _ => rfl, fun _ h => h, fun u => ?_, fun u => ?_⟩
  · rcases eq_or_ne u t with rfl | hne
    · exact .inr (by simpa [Threads.setError, setThread, Threads.error] using herror)
    · exact .inl (by simp [Threads.setError, setThread, Threads.error, hne])
  · rcases eq_or_ne u t with rfl | hne
    · simp [Threads.setError, setThread]
    · simp [Threads.setError, setThread, hne]

theorem Kept.setPhase (hold : (s.phase t).waits = true) (hnew : phase.waits = true) :
    Kept s (s.setPhase t phase) none := by
  refine ⟨fun _ => rfl, fun _ => rfl, fun u hidle => ?_, fun u hwaits => ?_, fun _ => .inl rfl,
    fun _ => rfl⟩
  · refine update_of_ne ?_ phase s.phase
    rintro rfl
    rw [hold] at hidle
    cases hidle
  · rcases eq_or_ne u t with rfl | hne
    · simpa [Threads.setPhase] using hnew
    · simpa [Threads.setPhase, hne] using hwaits

theorem Ok.of_kills {kills : List KillCall} (hok : s.Ok) :
    ({ s with kills := kills } : Threads).Ok :=
  ⟨hok.stat, hok.asleep, hok.awake, hok.expired, hok.clean, hok.nested⟩

theorem Ok.setSignal (hok : s.Ok)
    (hclean : ∀ signo, (true, signo) ∈ signal.handling → s.phase t = .back)
    (hnested : signal.handling.Pairwise fun call _ => call.1 = false) :
    (s.setSignal t signal).Ok := by
  refine ⟨hok.stat, hok.asleep, hok.awake, hok.expired, fun u signo hmem => ?_, fun u => ?_⟩
  · rcases eq_or_ne u t with rfl | hne
    · exact hclean signo (by simpa [Threads.setSignal] using hmem)
    · exact hok.clean u signo (by simpa [Threads.setSignal, hne] using hmem)
  · rcases eq_or_ne u t with rfl | hne
    · simpa [Threads.setSignal] using hnested
    · simpa [Threads.setSignal, hne] using hok.nested u

theorem Ok.setSignal_same (hok : s.Ok) (hsame : signal.handling = (s.signal t).handling) :
    (s.setSignal t signal).Ok := by
  refine hok.setSignal (fun signo hmem => ?_) ?_
  · rw [hsame] at hmem
    exact hok.clean t signo hmem
  · rw [hsame]
    exact hok.nested t

theorem Ok.setError {error : Int} (hok : s.Ok)
    (herror : error ≠ rtEok ∨ (s.phase t).waits = false) : (s.setError t error).Ok := by
  refine ⟨fun u => ?_, fun u hsuspend => ?_, fun u hready hwaits => ?_,
    fun u hwaits hexpired => ?_, hok.clean, hok.nested⟩
  · rw [setError_stat]
    exact hok.stat u
  · rw [setError_stat] at hsuspend
    exact hok.asleep u hsuspend
  · rw [setError_stat] at hready
    exact hok.awake u hready hwaits
  · rcases eq_or_ne u t with rfl | hne
    · have hset := herror.resolve_right (by rw [show (s.phase u).waits = true from hwaits]; nofun)
      simpa [Threads.setError, setThread, Threads.error] using hset
    · simpa [Threads.setError, setThread, Threads.error, hne] using hok.expired u hwaits hexpired

theorem Ok.setPhase (hok : s.Ok) (hold : (s.phase t).waits = true)
    (hasleep : s.stat t = .suspend → phase = .suspended ∨ phase = .out)
    (hclean : ∀ signo, (true, signo) ∉ (s.signal t).handling) : (s.setPhase t phase).Ok := by
  refine ⟨hok.stat, fun u hsuspend => ?_, fun u hready hwaits => ?_, fun u hwaits => ?_,
    fun u signo hmem => ?_, hok.nested⟩
  · rcases eq_or_ne u t with rfl | hne
    · exact ⟨by simpa [Threads.setPhase] using hasleep hsuspend, (hok.asleep u hsuspend).2⟩
    · simpa [Threads.setPhase, hne] using hok.asleep u hsuspend
  · rcases eq_or_ne u t with rfl | hne
    · exact hok.awake u hready hold
    · exact hok.awake u hready (by simpa [Threads.setPhase, hne] using hwaits)
  · rcases eq_or_ne u t with rfl | hne
    · exact hok.expired u hold
    · exact hok.expired u (by simpa [Threads.setPhase, hne] using hwaits)
  · rcases eq_or_ne u t with rfl | hne
    · exact absurd hmem (hclean signo)
    · simpa [Threads.setPhase, hne] using hok.clean u signo hmem

theorem Marked.of_kept (hmarked : s.Marked) (hkept : Kept s s' none)
    (hphase : ∀ u, s'.phase u = .done → s.phase u = .done ∨ s'.waker u ≠ some .signal ∨
      s'.error u ≠ rtEok) : s'.Marked := by
  intro u hdone hwaker
  rcases hphase u hdone with hbefore | hother | herror
  · rcases hkept.error u with hsame | herror
    · rw [hkept.waker u] at hwaker
      rw [hsame]
      exact hmarked u hbefore hwaker
    · exact herror
  · exact absurd hwaker hother
  · exact herror

theorem Marked.setPhase (hmarked : s.Marked) (hkept : Kept s (s.setPhase t phase) none)
    (hdone : phase = .done → s.waker t = some .signal → s.error t ≠ rtEok) :
    (s.setPhase t phase).Marked := by
  refine hmarked.of_kept hkept fun u hphase => ?_
  rcases eq_or_ne u t with rfl | hne
  · have hnew : phase = .done := by simpa [Threads.setPhase] using hphase
    rcases eq_or_ne (s.waker u) (some .signal) with hwaker | hother
    · exact .inr (.inr (hdone hnew hwaker))
    · exact .inr (.inl hother)
  · exact .inl (by simpa [Threads.setPhase, hne] using hphase)

theorem handleLoop_handling (signal : SignalState) (cleanState : Bool) (rest : List (Bool × Nat)) :
    (signal.handleLoop cleanState rest).handling = rest ∧
        ¬ (signal.interested = true ∧ signal.siList ≠ []) ∨
      ∃ signo, (signal.handleLoop cleanState rest).handling = (cleanState, signo) :: rest := by
  unfold SignalState.handleLoop
  cases hinterested : signal.interested with
  | false => exact .inl ⟨rfl, by simp⟩
  | true =>
    cases hlist : signal.siList with
    | nil => exact .inl ⟨rfl, by simp⟩
    | cons signo siList => exact .inr ⟨signo, rfl⟩

/-- A round of `rt_thread_handle_sig`; when it is the last, the thread has an error or was not
resumed by a signal. -/
theorem handleRound_ok {cleanState : Bool} {rest : List (Bool × Nat)} (hok : s.Ok)
    (hready : s.stat t = .ready)
    (hrest : ∀ signo, (true, signo) ∈ rest → s.phase t = .back)
    (hnested : rest.Pairwise fun call _ => call.1 = false)
    (hclean : cleanState = true → s.phase t = .back ∧ rest = []) :
    (s.handleRound t cleanState rest).Ok ∧
      ((cleanState = true → s.waker t = some .signal → s.error t = rtEok →
        (s.signal t).interested = true ∧ (s.signal t).siList ≠ []) →
        s.Marked → (s.handleRound t cleanState rest).Marked) ∧
      Kept s (s.handleRound t cleanState rest) none := by
  unfold handleRound
  dsimp only
  have hkept : Kept s (s.setSignal t ((s.signal t).handleLoop cleanState rest)) none := .setSignal
  rcases handleLoop_handling (s.signal t) cleanState rest with
    ⟨hend, hidle⟩ | ⟨signo, hnext⟩
  · have hset : (s.setSignal t ((s.signal t).handleLoop cleanState rest)).Ok := by
      refine hok.setSignal ?_ ?_ <;> rw [hend]
      · exact hrest
      · exact hnested
    have hsame : s.Marked → (s.setSignal t ((s.signal t).handleLoop cleanState rest)).Marked :=
      fun hmarked => hmarked.of_kept hkept fun _ => .inl
    cases cleanState with
    | false => simpa using ⟨hset, hsame, hkept⟩
    | true =>
      obtain ⟨hback, hnil⟩ := hclean rfl
      rw [if_pos ⟨rfl, hend⟩]
      have hphase : Kept (s.setSignal t ((s.signal t).handleLoop true rest))
          ((s.setSignal t ((s.signal t).handleLoop true rest)).setPhase t .done) none := by
        refine .setPhase ?_ rfl
        change (s.phase t).waits = true
        rw [hback]
        rfl
      refine ⟨hset.setPhase ?_ ?_ ?_, fun htold hmarked => (hsame hmarked).setPhase hphase ?_,
        hkept.trans hphase⟩
      · change (s.phase t).waits = true
        rw [hback]
        rfl
      · intro hsuspend
        change s.stat t = .suspend at hsuspend
        rw [hready] at hsuspend
        cases hsuspend
      · intro signo hmem
        have hnone : (true, signo) ∈ rest := by
          simpa [Threads.setSignal, hend] using hmem
        rw [hnil] at hnone
        cases hnone
      · exact fun _ hwaker herror => hidle (htold rfl hwaker herror)
  · have hgoes : ¬ (cleanState = true ∧
        ((s.signal t).handleLoop cleanState rest).handling = rest) := by
      rintro ⟨-, hend⟩
      rw [hnext] at hend
      exact absurd (congrArg List.length hend) (by simp)
    rw [if_neg hgoes]
    refine ⟨?_, fun _ hmarked => hmarked.of_kept hkept fun _ => .inl, hkept⟩
    refine hok.setSignal ?_ ?_ <;> rw [hnext]
    · intro signo' hmem
      rcases List.mem_cons.mp hmem with heq | hmem
      · exact (hclean (Prod.mk.inj heq).1.symm).1
      · exact hrest signo' hmem
    · refine List.pairwise_cons.mpr ⟨fun call hcall => ?_, hnested⟩
      cases cleanState with
      | false => rfl
      | true =>
        rw [(hclean rfl).2] at hcall
        cases hcall

theorem handled_ok (hok : s.Ok) (t : Tid) (signo : Nat) :
    (s.handled t signo).Ok ∧ (s.Marked → (s.handled t signo).Marked) ∧
      Kept s (s.handled t signo) none := by
  have hfirst : Kept s (s.setSignal t ((s.signal t).clearPending signo)) none := .setSignal
  have herror : -rtEintr ≠ rtEok := by decide
  have hkept : Kept s (s.handled t signo) none := hfirst.trans (.setError herror)
  have hset : (s.setSignal t ((s.signal t).clearPending signo)).Ok := hok.setSignal_same rfl
  exact ⟨hset.setError (.inl herror), fun hmarked => hmarked.of_kept hkept fun _ => .inl, hkept⟩

theorem handled_error {signo : Nat} : (s.handled t signo).error t = -rtEintr := by
  simp [handled, Threads.setError, setThread, Threads.error]

theorem resume_stat {waker : Waker} (hsuspend : s.stat t = .suspend) (u : Tid) :
    (s.resume t waker).stat u = if u = t then .ready else s.stat u := by
  rcases eq_or_ne u t with rfl | hne
  · simp [Threads.resume, setThread, setWaker, stat, Thread.resume_stat _ hsuspend]
  · simp [Threads.resume, setThread, setWaker, stat, hne]

theorem resume_waker {waker : Waker} (u : Tid) :
    (s.resume t waker).waker u = if u = t then some waker else s.waker u := by
  rcases eq_or_ne u t with rfl | hne
  · simp [Threads.resume, setThread, setWaker]
  · simp [Threads.resume, setThread, setWaker, hne]

theorem resume_error {waker : Waker} (u : Tid) : (s.resume t waker).error u = s.error u := by
  rcases eq_or_ne u t with rfl | hne
  · simp [Threads.resume, setThread, setWaker, error]
  · simp [Threads.resume, setThread, setWaker, error, hne]

theorem Ok.resume {waker : Waker} (hok : s.Ok) (hsuspend : s.stat t = .suspend)
    (herror : waker = .expiry → s.error t ≠ rtEok) : (s.resume t waker).Ok := by
  refine ⟨fun u => ?_, fun u hasleep => ?_, fun u hready hwaits => ?_,
    fun u hwaits hexpired => ?_, hok.clean, hok.nested⟩
  · rw [resume_stat hsuspend]
    split
    · exact .inl rfl
    · exact hok.stat u
  · rw [resume_stat hsuspend] at hasleep
    rw [resume_waker]
    split at hasleep
    · cases hasleep
    next hne =>
      rw [if_neg hne]
      exact hok.asleep u hasleep
  · rw [resume_stat hsuspend] at hready
    rw [resume_waker]
    split
    · exact Option.some_ne_none waker
    next hne =>
      rw [if_neg hne] at hready
      exact hok.awake u hready hwaits
  · rw [resume_waker] at hexpired
    rw [resume_error]
    split at hexpired
    next heq =>
      rw [heq]
      exact herror (Option.some.inj hexpired)
    · exact hok.expired u hwaits hexpired

theorem Kept.resume (hsuspend : s.stat t = .suspend) : Kept s (s.resume t .signal) (some t) := by
  refine ⟨fun u => ?_, fun u => ?_, fun _ _ => rfl, fun _ h => h,
    fun u => .inl (resume_error u), fun u => ?_⟩
  · rw [resume_waker]
    simp only [Option.some.injEq, eq_comm]
  · rw [resume_stat hsuspend]
    simp only [Option.some.injEq, eq_comm]
  · rcases eq_or_ne u t with rfl | hne
    · simp [Threads.resume, setThread, setWaker]
    · simp [Threads.resume, setThread, setWaker, hne]

theorem Marked.resume {waker : Waker} (hok : s.Ok) (hmarked : s.Marked)
    (hsuspend : s.stat t = .suspend) : (s.resume t waker).Marked := by
  intro u hdone hwaker
  rw [resume_waker] at hwaker
  rw [resume_error]
  split at hwaker
  next heq =>
    subst heq
    have hphase := (hok.asleep u hsuspend).1
    rw [show s.phase u = .done from hdone] at hphase
    exact absurd hphase (by decide)
  · exact hmarked u hdone hwaker

theorem Kept.trans_signal {resumed : Option Tid} (hkept : Kept s s' resumed) :
    Kept s (s'.setSignal t signal) resumed :=
  ⟨hkept.waker, hkept.stat, hkept.idle, hkept.waits, hkept.error, hkept.nest⟩

section

variable (hok : s.Ok)
include hok

theorem changed_signal {kills : List KillCall} (hsame : signal.handling = (s.signal t).handling) :
    ({ s.setSignal t signal with kills := kills } : Threads).Ok ∧
      (s.Marked → ({ s.setSignal t signal with kills := kills } : Threads).Marked) ∧
      Kept s { s.setSignal t signal with kills := kills } none := by
  have hset : (s.setSignal t signal).Ok := hok.setSignal_same hsame
  exact ⟨hset.of_kills, id, Kept.setSignal.trans .of_kills⟩

theorem changed_kills (kills : List KillCall) : ({ s with kills := kills } : Threads).Ok ∧
      (s.Marked → ({ s with kills := kills } : Threads).Marked) ∧
      Kept s { s with kills := kills } none :=
  ⟨hok.of_kills, id, .of_kills⟩

theorem Ok.killSet {tid sig : Nat} {found : Bool} :
    (s.killSet tid sig found).Ok ∧ (s.Marked → (s.killSet tid sig found).Marked) ∧
      Kept s (s.killSet tid sig found) none := by
  unfold Threads.killSet
  split
  · split
    · split
      · exact ⟨hok, id, .refl⟩
      · exact changed_kills hok _
    · exact changed_signal hok rfl
  · exact ⟨hok, id, .refl⟩

theorem Ok.killAlloc {i : Nat} {node : Bool}
    (hexec : s.killAlloc i node = some s') : s'.Ok ∧ (s.Marked → s'.Marked) ∧ Kept s s' none := by
  unfold Threads.killAlloc at hexec
  split at hexec
  next tid sig _ =>
    obtain rfl := Option.some.inj hexec
    split
    · obtain ⟨hok', hmarked', hkept⟩ := changed_kills hok
        (s.kills.set i ⟨tid, sig, .check⟩)
      exact ⟨hok'.setSignal_same rfl, hmarked', hkept.trans .setSignal⟩
    · exact changed_kills hok _
  · cases hexec

theorem Ok.killCheck {i : Nat}
    (hexec : s.killCheck i = some s') : s'.Ok ∧ (s.Marked → s'.Marked) ∧ Kept s s' none := by
  unfold Threads.killCheck at hexec
  split at hexec
  · obtain rfl := Option.some.inj hexec
    exact changed_kills hok _
  · cases hexec

theorem Ok.killDeliver {i : Nat} {self : Bool} (hexec : s.killDeliver i self = some s') :
    s'.Ok ∧ (s.Marked → s'.Marked) ∧ Kept s s' (s.delivered i) := by
  unfold Threads.killDeliver at hexec
  unfold delivered
  split at hexec
  next tid sig _ =>
    obtain rfl := Option.some.inj hexec
    simp only
    obtain ⟨hok', hmarked', hkept⟩ := changed_kills hok (s.kills.eraseIdx i)
    split
    next hsuspend =>
      rw [if_pos (show s.stat tid = .suspend from hsuspend)]
      have hresumed : (({ s with kills := s.kills.eraseIdx i } : Threads).resume tid .signal).Ok :=
        hok'.resume hsuspend (by simp)
      exact ⟨hresumed.setSignal_same rfl,
        fun hmarked => Marked.resume hok' (hmarked' hmarked) hsuspend, hkept.trans ((Kept.resume hsuspend).trans_signal)⟩
    next hready =>
      rw [if_neg (show ¬ s.stat tid = .suspend from hready)]
      split
      · exact ⟨hok'.setSignal_same rfl, hmarked', hkept.trans .setSignal⟩
      · split
        · exact ⟨hok'.setSignal_same rfl, hmarked', hkept.trans .setSignal⟩
        · exact ⟨hok', hmarked', hkept⟩
  · cases hexec

theorem Ok.handleSelf :
    (s.handleSelf t).Ok ∧ (s.Marked → (s.handleSelf t).Marked) ∧ Kept s (s.handleSelf t) none := by
  unfold Threads.handleSelf
  split
  next signo siList _ _ =>
    have hset : (s.setSignal t { s.signal t with siList := siList }).Ok := hok.setSignal_same rfl
    obtain ⟨hok', hmarked', hkept⟩ := handled_ok hset t signo
    exact ⟨hok', hmarked', Kept.setSignal.trans hkept⟩
  · exact ⟨hok.setSignal_same rfl, id, .setSignal⟩

theorem Ok.entryBegin : (s.entryBegin t).Ok ∧ (s.Marked → (s.entryBegin t).Marked) ∧
      Kept s (s.entryBegin t) none := by
  refine ⟨?_, id, .setSignal⟩
  unfold Threads.entryBegin
  rcases handleLoop_handling { s.signal t with sigRet := false } false
    (s.signal t).handling with ⟨hsame, -⟩ | ⟨signo, hnext⟩
  · exact hok.setSignal_same hsame
  · refine hok.setSignal (fun signo' hmem => ?_) ?_
    · rw [hnext] at hmem
      rcases List.mem_cons.mp hmem with heq | hold
      · cases heq
      · exact hok.clean t signo' hold
    · rw [hnext]
      exact List.pairwise_cons.mpr ⟨fun _ _ => rfl, hok.nested t⟩

theorem Ok.schedule {outranked : Bool} (hexec : s.schedule t outranked = some s') :
    s'.Ok ∧ (s.Told (.schedule t outranked) → s.Marked → s'.Marked) ∧ Kept s s' none := by
  unfold Threads.schedule at hexec
  split at hexec
  next hat =>
    obtain ⟨hphase, hhandling⟩ := hat
    have hwaits : (s.phase t).waits = true := by
      rw [hphase]
      rfl
    have hclean : ∀ signo, (true, signo) ∉ (s.signal t).handling := by simp [hhandling]
    split at hexec
    · obtain rfl := Option.some.inj hexec
      have hkept : Kept s (s.setPhase t .out) none := .setPhase hwaits rfl
      exact ⟨hok.setPhase hwaits (fun _ => .inr rfl) hclean,
        fun _ hmarked => hmarked.setPhase hkept (fun h => nomatch h), hkept⟩
    next hready =>
      obtain rfl := Option.some.inj hexec
      have hnext : (if outranked then Phase.out else .done).waits = true := by
        split <;> rfl
      have hkept : Kept s (s.setPhase t (if outranked then .out else .done)) none :=
        .setPhase hwaits hnext
      refine ⟨hok.setPhase hwaits (fun hsuspend => ?_) hclean,
        fun htold hmarked => hmarked.setPhase hkept ?_, hkept⟩
      · cases hready.symm.trans hsuspend
      · intro hdone hwaker herror
        rw [htold hready hwaker herror] at hdone
        cases hdone
    · cases hexec
  · cases hexec

theorem Ok.switchIn (hexec : s.switchIn t = some s') :
    s'.Ok ∧ (s.Marked → s'.Marked) ∧ Kept s s' none := by
  unfold Threads.switchIn at hexec
  split at hexec
  next hat =>
    obtain ⟨hphase, hready, hhandling⟩ := hat
    obtain rfl := Option.some.inj hexec
    have hwaits : (s.phase t).waits = true := by
      rw [hphase]
      rfl
    have hkept : Kept s (s.setPhase t .back) none := .setPhase hwaits rfl
    refine ⟨hok.setPhase hwaits (fun hsuspend => ?_) (by simp [hhandling]),
      fun hmarked => hmarked.setPhase hkept (fun h => nomatch h), hkept⟩
    cases hready.symm.trans hsuspend
  · cases hexec

theorem Ok.ready_of_back (hback : s.phase t = .back) : s.stat t = .ready := by
  rcases hok.stat t with hready | hsuspend
  · exact hready
  · have hphase := (hok.asleep t hsuspend).1
    rw [hback] at hphase
    exact absurd hphase (by decide)

theorem Ok.handleBegin (hexec : s.handleBegin t = some s') :
    s'.Ok ∧ (s.Told (.handleBegin t) → s.Marked → s'.Marked) ∧ Kept s s' none := by
  unfold Threads.handleBegin at hexec
  split at hexec
  next hat =>
    obtain ⟨hback, hhandling⟩ := hat
    have hready := hok.ready_of_back hback
    split at hexec
    · obtain rfl := Option.some.inj hexec
      have hclean : true = true → s.phase t = .back ∧ ([] : List (Bool × Nat)) = [] :=
        fun _ => ⟨hback, rfl⟩
      obtain ⟨hok', hmarked', hkept⟩ :=
        handleRound_ok hok hready (by simp) List.Pairwise.nil hclean
      exact ⟨hok', fun htold => hmarked' fun _ => htold, hkept⟩
    next hidle =>
      obtain rfl := Option.some.inj hexec
      have hwaits : (s.phase t).waits = true := by
        rw [hback]
        rfl
      have hkept : Kept s (s.setPhase t .done) none := .setPhase hwaits rfl
      refine ⟨hok.setPhase hwaits (fun hsuspend => ?_) (by simp [hhandling]),
        fun htold hmarked => hmarked.setPhase hkept ?_, hkept⟩
      · cases hready.symm.trans hsuspend
      · exact fun _ hwaker herror => hidle (htold hwaker herror).1
  · cases hexec

theorem Ok.handleNext (hexec : s.handleNext t = some s') :
    s'.Ok ∧ (s.Marked → s'.Marked) ∧ Kept s s' none := by
  unfold Threads.handleNext at hexec
  split at hexec
  · cases hexec
  next cleanState signo rest hhandling =>
    split at hexec
    next hready =>
      obtain rfl := Option.some.inj hexec
      obtain ⟨hok', hmarked', hkept⟩ := handled_ok hok t signo
      have hnested := hok.nested t
      rw [hhandling, List.pairwise_cons] at hnested
      have hrest : ∀ signo', (true, signo') ∈ rest → s.phase t = .back := fun signo' hmem =>
        hok.clean t signo' (by rw [hhandling]; exact List.mem_cons_of_mem _ hmem)
      have hclean : cleanState = true → s.phase t = .back ∧ rest = [] := by
        rintro rfl
        refine ⟨hok.clean t signo (by rw [hhandling]; exact List.mem_cons_self), ?_⟩
        cases rest with
        | nil => rfl
        | cons call rest => cases hnested.1 call List.mem_cons_self
      obtain ⟨hok'', hmarked'', hkept'⟩ := handleRound_ok hok'
        ((hkept.stat t).trans hready) hrest hnested.2 hclean
      refine ⟨hok'', fun hmarked => hmarked'' ?_ (hmarked' hmarked), hkept.trans hkept'⟩
      exact fun _ _ herror => absurd (handled_error.symm.trans herror) (by decide)
    · cases hexec

theorem Ok.exec (hexec : s.exec op = some s') :
    s'.Ok ∧ (s.Told op → s.Marked → s'.Marked) ∧ Kept s s' (s.resumed op) := by
  have hsignal : ∀ {t signal}, signal.handling = (s.signal t).handling →
      (s.setSignal t signal).Ok ∧ (s.Told op → s.Marked → (s.setSignal t signal).Marked) ∧
        Kept s (s.setSignal t signal) none := fun hsame =>
    ⟨hok.setSignal_same hsame, fun _ => id, .setSignal⟩
  have hquiet : ∀ {s' resumed}, s'.Ok ∧ (s.Marked → s'.Marked) ∧ Kept s s' resumed →
      s'.Ok ∧ (s.Told op → s.Marked → s'.Marked) ∧ Kept s s' resumed :=
    fun ⟨hok', hmarked, hkept⟩ => ⟨hok', fun _ => hmarked, hkept⟩
  cases op with
  | killSet tid sig found =>
    cases hexec
    exact hquiet hok.killSet
  | killAlloc i node => exact hquiet (hok.killAlloc hexec)
  | killCheck i => exact hquiet (hok.killCheck hexec)
  | killDeliver i self => exact hquiet (hok.killDeliver hexec)
  | mask t signo =>
    simp only [Threads.exec] at hexec
    split at hexec
    · cases hexec
      exact hsignal rfl
    · cases hexec
  | unmask t signo =>
    simp only [Threads.exec] at hexec
    split at hexec
    · cases hexec
      exact hsignal rfl
    · cases hexec
  | handleSelf t =>
    simp only [Threads.exec] at hexec
    split at hexec
    · cases hexec
      exact hquiet hok.handleSelf
    · cases hexec
  | entryBegin t =>
    simp only [Threads.exec] at hexec
    split at hexec
    · cases hexec
      exact hquiet hok.entryBegin
    · cases hexec
  | entryLost t =>
    cases hexec
    exact hsignal rfl
  | schedule t outranked => exact hok.schedule hexec
  | switchIn t => exact hquiet (hok.switchIn hexec)
  | handleBegin t => exact hok.handleBegin hexec
  | handleNext t => exact hquiet (hok.handleNext hexec)

end

theorem Marked.reset {error : Int} (hmarked : s.Marked) (hidle : (s.phase t).waits = false) :
    (s.setError t error).Marked := by
  intro u hdone hwaker
  rcases eq_or_ne u t with rfl | hne
  · rw [show s.phase u = .done from hdone] at hidle
    cases hidle
  · simpa [Threads.setError, setThread, Threads.error, hne] using hmarked u hdone hwaker

theorem Ok.settle (hok : s.Ok) (hready : s.stat t = .ready) (hphase : phase.waits = false)
    (hhandling : (s.signal t).handling = []) : (s.setPhase t phase).Ok := by
  refine ⟨hok.stat, fun u hsuspend => ?_, fun u hready' hwaits => ?_, fun u hwaits => ?_,
    fun u signo hmem => ?_, hok.nested⟩
  · rcases eq_or_ne u t with rfl | hne
    · cases hready.symm.trans hsuspend
    · simpa [Threads.setPhase, hne] using hok.asleep u hsuspend
  · rcases eq_or_ne u t with rfl | hne
    · have hnot : phase.waits = true := by simpa [Threads.setPhase] using hwaits
      cases hnot.symm.trans hphase
    · exact hok.awake u hready' (by simpa [Threads.setPhase, hne] using hwaits)
  · rcases eq_or_ne u t with rfl | hne
    · have hnot : phase.waits = true := by simpa [Threads.setPhase] using hwaits
      cases hnot.symm.trans hphase
    · exact hok.expired u (by simpa [Threads.setPhase, hne] using hwaits)
  · rcases eq_or_ne u t with rfl | hne
    · change (true, signo) ∈ (s.signal u).handling at hmem
      rw [hhandling] at hmem
      cases hmem
    · simpa [Threads.setPhase, hne] using hok.clean u signo hmem

theorem Marked.settle (hmarked : s.Marked) (hphase : phase.waits = false) :
    (s.setPhase t phase).Marked := by
  intro u hdone hwaker
  rcases eq_or_ne u t with rfl | hne
  · have hnot : phase = .done := by simpa [Threads.setPhase] using hdone
    rw [hnot] at hphase
    cases hphase
  · exact hmarked u (by simpa [Threads.setPhase, hne] using hdone) hwaker

theorem suspend_stat {time : Int} (hready : s.stat t = .ready) (u : Tid) :
    (s.suspend t time).stat u = if u = t then .suspend else s.stat u := by
  rcases eq_or_ne u t with rfl | hne
  · simp [Threads.suspend, setThread, setPhase, setWaker, stat, Thread.suspend_stat _ hready]
  · simp [Threads.suspend, setThread, setPhase, setWaker, stat, hne]

theorem suspend_phase {time : Int} (u : Tid) :
    (s.suspend t time).phase u = if u = t then .suspended else s.phase u := by
  rcases eq_or_ne u t with rfl | hne
  · simp [Threads.suspend, setThread, setPhase, setWaker]
  · simp [Threads.suspend, setThread, setPhase, setWaker, hne]

theorem suspend_waker {time : Int} (u : Tid) :
    (s.suspend t time).waker u = if u = t then none else s.waker u := by
  rcases eq_or_ne u t with rfl | hne
  · simp [Threads.suspend, setThread, setPhase, setWaker]
  · simp [Threads.suspend, setThread, setPhase, setWaker, hne]

theorem suspend_error {time : Int} (u : Tid) : (s.suspend t time).error u = s.error u := by
  rcases eq_or_ne u t with rfl | hne
  · simp [Threads.suspend, setThread, setPhase, setWaker, error]
  · simp [Threads.suspend, setThread, setPhase, setWaker, error, hne]

theorem Ok.suspend {time : Int} (hok : s.Ok) (hready : s.stat t = .ready)
    (hhandling : (s.signal t).handling = []) : (s.suspend t time).Ok := by
  refine ⟨fun u => ?_, fun u hsuspend => ?_, fun u hready' hwaits => ?_,
    fun u hwaits hexpired => ?_, fun u signo hmem => ?_, hok.nested⟩
  · rw [suspend_stat hready]
    split
    · exact .inr rfl
    · exact hok.stat u
  · rw [suspend_stat hready] at hsuspend
    rw [suspend_phase, suspend_waker]
    split at hsuspend
    next heq => simp [heq]
    next hne => simpa [hne] using hok.asleep u hsuspend
  · rw [suspend_stat hready] at hready'
    rw [suspend_phase] at hwaits
    rw [suspend_waker]
    split at hready'
    · cases hready'
    next hne =>
      rw [if_neg hne] at hwaits ⊢
      exact hok.awake u hready' hwaits
  · rw [suspend_phase] at hwaits
    rw [suspend_waker] at hexpired
    rw [suspend_error]
    split at hexpired
    · cases hexpired
    next hne =>
      rw [if_neg hne] at hwaits
      exact hok.expired u hwaits hexpired
  · change (true, signo) ∈ (s.signal u).handling at hmem
    rw [suspend_phase]
    split
    next heq =>
      rw [heq, hhandling] at hmem
      cases hmem
    · exact hok.clean u signo hmem

theorem Marked.suspend {time : Int} (hmarked : s.Marked) : (s.suspend t time).Marked := by
  intro u hdone hwaker
  rw [suspend_phase] at hdone
  rw [suspend_waker] at hwaker
  rw [suspend_error]
  split at hdone
  · cases hdone
  next hne =>
    rw [if_neg hne] at hwaker
    exact hmarked u hdone hwaker

theorem expire_stat (u : Tid) : (s.expire t).stat u = if u = t then .ready else s.stat u := by
  rcases eq_or_ne u t with rfl | hne
  · simp [Threads.expire, setThread, setWaker, stat, Thread.expire]
  · simp [Threads.expire, setThread, setWaker, stat, hne]

theorem expire_waker (u : Tid) :
    (s.expire t).waker u = if u = t then some .expiry else s.waker u := by
  rcases eq_or_ne u t with rfl | hne
  · simp [Threads.expire, setThread, setWaker]
  · simp [Threads.expire, setThread, setWaker, hne]

theorem expire_error (u : Tid) :
    (s.expire t).error u = if u = t then -rtEtimeout else s.error u := by
  rcases eq_or_ne u t with rfl | hne
  · simp [Threads.expire, setThread, setWaker, error, Thread.expire]
  · simp [Threads.expire, setThread, setWaker, error, hne]

theorem Ok.expire (hok : s.Ok) : (s.expire t).Ok := by
  refine ⟨fun u => ?_, fun u hsuspend => ?_, fun u hready hwaits => ?_,
    fun u hwaits hexpired => ?_, hok.clean, hok.nested⟩
  · rw [expire_stat]
    split
    · exact .inl rfl
    · exact hok.stat u
  · rw [expire_stat] at hsuspend
    rw [expire_waker]
    split at hsuspend
    · cases hsuspend
    next hne =>
      rw [if_neg hne]
      exact hok.asleep u hsuspend
  · rw [expire_stat] at hready
    rw [expire_waker]
    split
    · exact Option.some_ne_none _
    next hne =>
      rw [if_neg hne] at hready
      exact hok.awake u hready hwaits
  · rw [expire_waker] at hexpired
    rw [expire_error]
    split
    · decide
    next hne =>
      rw [if_neg hne] at hexpired
      exact hok.expired u hwaits hexpired

theorem Marked.expire (hmarked : s.Marked) : (s.expire t).Marked := by
  intro u hdone hwaker
  rw [expire_waker] at hwaker
  rw [expire_error]
  split
  · decide
  next hne =>
    rw [if_neg hne] at hwaker
    exact hmarked u hdone hwaker

end Threads

end RtThread.Interrupt
