import RtThread.Serial.DmaTx

namespace RtThread.Serial

open Function RtThread.Driver RtThread.Lib

def held (queue : DataQueue) : List DataItem := queue.pushed.drop queue.popped.length

section Queue

variable {queue queue' : DataQueue} {t : Tid} {item : DataItem} {timeout : Int}

theorem held_resumeFirst (queue : DataQueue) (list : List Tid) : held (queue.resumeFirst list) = held queue ∧
    (queue.resumeFirst list).popped = queue.popped ∧
    (queue.resumeFirst list).pushed = queue.pushed := by
  obtain ⟨_, _, _, heq⟩ := queue.resumeFirst_eq list
  rw [heq]
  exact ⟨rfl, rfl, rfl⟩

theorem pushed_eq (hstored : queue.Stored) : queue.pushed = queue.popped ++ held queue :=
  (List.prefix_iff_eq_append.mp hstored.popped).symm

theorem length_held (hstored : queue.Stored) :
    queue.pushed.length = queue.popped.length + (held queue).length := by
  rw [← List.length_append, ← pushed_eq hstored]

theorem frontItem_eq (hstored : queue.Stored) : DmaTx.frontItem queue = (held queue).head? := by
  have hlength := length_held hstored
  unfold DmaTx.frontItem
  split
  next hempty =>
    have hnone := hstored.isEmpty_iff.mp hempty
    rw [List.length_eq_zero_iff.mp (show (held queue).length = 0 by omega)]
    rfl
  next hsome =>
    have hlt : queue.popped.length < queue.pushed.length := by
      have hne : queue.pushed.length ≠ queue.popped.length :=
        fun heq => hsome (hstored.isEmpty_iff.mpr heq)
      omega
    have hcontent := hstored.content queue.popped.length (Nat.le_refl _) hlt
    rw [hstored.getIndex, held, List.head?_drop, List.getElem?_eq_getElem hlt]
    exact congrArg some hcontent

def Pushed (queue queue' : DataQueue) (item : DataItem) : Prop :=
  queue'.Stored ∧ queue'.popped = queue.popped ∧
    ((queue'.result = some rtEok ∧ held queue' = held queue ++ [item]) ∨
      (queue'.result ≠ some rtEok ∧ held queue' = held queue))

theorem pushed_push (hstored : queue.Stored) (hfree : queue.SlotFree) :
    Pushed queue (queue.rtDataQueuePush t item timeout) item := by
  refine ⟨hstored.push hfree, ?_⟩
  unfold DataQueue.rtDataQueuePush
  split
  · split
    · exact ⟨rfl, .inr ⟨show some (-rtEtimeout) ≠ some rtEok by decide, rfl⟩⟩
    · exact ⟨rfl, .inr ⟨by simp [DataQueue.suspend], rfl⟩⟩
  · obtain ⟨hheld, hpopped, -⟩ := held_resumeFirst ({ queue with
      queue := update queue.queue (queue.putIndex % queue.size) item
      putIndex := inc16 queue.putIndex
      result := some rtEok
      pushed := queue.pushed ++ [item] }) queue.suspendedPopList
    refine ⟨hpopped, .inl ⟨DataQueue.resumeFirst_result _, ?_⟩⟩
    rw [hheld]
    exact List.drop_append_of_le_length hstored.popped.length_le

theorem pushed_proceed (hstored : queue.Stored) (hfree : queue.PushesFree (.proceed t))
    (hcall : queue.call t = some (.push item timeout))
    (hexec : queue.exec (.proceed t) = some queue') : Pushed queue queue' item := by
  have hstored' := hstored.exec hfree hexec
  simp only [DataQueue.exec, Option.ite_none_right_eq_some, DataQueue.proceed, hcall,
    Option.map_some, Option.some.injEq] at hexec
  obtain ⟨-, hexec⟩ := hexec
  split at hexec
  next herror =>
    subst hexec
    exact ⟨hstored', rfl, .inr ⟨fun h => herror (Option.some.inj h), rfl⟩⟩
  next herror =>
    simp only [DataQueue.PushesFree, hcall] at hfree
    have hidle : ({ queue with call := update queue.call t none } : DataQueue).Stored :=
      hstored.congr rfl rfl rfl rfl rfl rfl
    subst hexec
    exact pushed_push hidle (hfree (not_not.mp herror))

theorem held_pop (t : Tid) (timeout : Int) (hstored : queue.Stored) {rest : List DataItem}
    (hheld : held queue = item :: rest) :
    (queue.rtDataQueuePop t timeout).Stored ∧ held (queue.rtDataQueuePop t timeout) = rest ∧
      (queue.rtDataQueuePop t timeout).popped = queue.popped ++ [item] := by
  have hlength := length_held hstored
  have hfront := frontItem_eq hstored
  rw [hheld] at hlength hfront
  have hsome : queue.isEmpty = false := by
    by_contra hempty
    have hnone := hstored.isEmpty_iff.mp (Bool.eq_true_of_not_eq_false hempty)
    rw [List.length_cons] at hlength
    omega
  refine ⟨hstored.pop, ?_⟩
  simp only [DmaTx.frontItem, hsome, Bool.false_eq_true, if_false, List.head?_cons,
    Option.some.injEq] at hfront
  have hdrop : queue.pushed.drop (queue.popped ++ [item]).length = rest := by
    rw [List.length_append, ← List.drop_drop]
    show (held queue).drop 1 = rest
    rw [hheld]
    rfl
  unfold DataQueue.rtDataQueuePop
  rw [hsome, if_neg Bool.false_ne_true, hfront]
  dsimp only
  split
  · obtain ⟨hheld', hpopped, -⟩ := held_resumeFirst ({ queue with
      getIndex := inc16 queue.getIndex
      result := some rtEok
      popped := queue.popped ++ [item] }) queue.suspendedPushList
    exact ⟨hheld'.trans hdrop, hpopped⟩
  · exact ⟨hdrop, rfl⟩

end Queue

namespace DmaTx

def noneStarting (s : DmaTx) : Prop := ∀ t item, s.call t ≠ some (.starting item)

def isrQuiet (s : DmaTx) : Prop := s.isr = none ∨ ∃ last, s.isr = some (.notifying last)

/-- A thread will look at `activated` which has pushed the oldest item. -/
def frontPending (s : DmaTx) : Prop :=
  ∃ t item, s.call t = some (.pushed item) ∧ (held s.dataQueue).head? = some item

inductive Turn (s : DmaTx) : Prop
  | idle (activated : s.activated = false) (inProgress : s.inProgress = [])
      (starting : s.noneStarting) (quiet : s.isrQuiet)
      (pending : held s.dataQueue ≠ [] → s.frontPending)
  | starting (t : Tid) (item : DataItem) (activated : s.activated = true)
      (inProgress : s.inProgress = []) (call : s.call t = some (.starting item))
      (only : ∀ t' item', s.call t' = some (.starting item') → t' = t) (quiet : s.isrQuiet)
      (front : (held s.dataQueue).head? = some item)
  | running (item : DataItem) (activated : s.activated = true) (inProgress : s.inProgress = [item])
      (starting : s.noneStarting) (quiet : s.isrQuiet)
      (front : (held s.dataQueue).head? = some item)
  | ending (activated : s.activated = true) (inProgress : s.inProgress = [])
      (starting : s.noneStarting) (isr : s.isr = some .entered) (front : held s.dataQueue ≠ [])
  | popped (last : Option DataItem) (activated : s.activated = true) (inProgress : s.inProgress = [])
      (starting : s.noneStarting) (isr : s.isr = some (.popped last))
  | peaked (last next : Option DataItem) (activated : s.activated = true)
      (inProgress : s.inProgress = []) (starting : s.noneStarting)
      (isr : s.isr = some (.peaked last next))
      (front : ∀ item, next = some item → (held s.dataQueue).head? = some item)

def atEnd (s : DmaTx) : List DataItem :=
  if s.isr = some .entered then (held s.dataQueue).head?.toList else []

/-- Whom `tx_complete` is still to be called for. -/
def toNotify (s : DmaTx) : List (Option DataItem) :=
  match s.isr with
  | none => []
  | some .entered => [(held s.dataQueue).head?]
  | some (.popped last) => [last]
  | some (.peaked last _) => [last]
  | some (.notifying last) => [last]

structure Inv (s : DmaTx) : Prop where
  stored : s.dataQueue.Stored
  turn : s.Turn
  started : s.started = s.finished ++ s.inProgress
  finished : s.finished = s.dataQueue.popped ++ s.atEnd
  notified : s.completed ++ s.toNotify = s.finished.map some

/-- Pushes write free slots, a thread that finds the transmitter idle has pushed the oldest item,
and the interrupt makes it idle only when the queue is empty or the thread of the oldest item is
still to look. -/
def Proper (s : DmaTx) : DmaTxOp → Prop
  | .write _ _ => s.dataQueue.SlotFree
  | .proceed t => s.dataQueue.PushesFree (.proceed t)
  | .test t => s.activated = false → ∀ item, s.call t = some (.pushed item) →
      (held s.dataQueue).head? = some item
  | .isr => ∀ last, s.isr = some (.peaked last none) → held s.dataQueue ≠ [] → s.frontPending
  | _ => True

section Steps

variable {s s' : DmaTx} {t : Tid} {item : DataItem} {queue : DataQueue}

theorem noneStarting.setCall (hnone : s.noneStarting) {call : Option TxCall}
    (hcall : ∀ item, call ≠ some (.starting item)) : (s.setCall t call).noneStarting := by
  intro t' item'
  by_cases heq : t' = t
  · subst heq
    simpa [DmaTx.setCall] using hcall item'
  · simpa [DmaTx.setCall, update_of_ne heq] using hnone t' item'

theorem afterPush_eq (hpushed : Pushed s.dataQueue queue item) :
    ∃ call, s.afterPush t item queue = { s with dataQueue := queue }.setCall t call ∧
      (call = some (.pushed item) ∧ held queue = held s.dataQueue ++ [item] ∨
        (call = none ∨ call = some .pushing) ∧ held queue = held s.dataQueue) := by
  unfold DmaTx.afterPush
  refine ⟨_, rfl, ?_⟩
  rcases hpushed.2.2 with ⟨hresult, hheld⟩ | ⟨hresult, hheld⟩
  · rw [hresult]
    exact .inl ⟨if_pos rfl, hheld⟩
  · right
    refine ⟨?_, hheld⟩
    cases hcase : queue.result with
    | none => exact .inr rfl
    | some result => exact .inl (if_neg fun heq => hresult (hcase.trans (congrArg some heq)))

theorem head?_push (hheld : held queue = held s.dataQueue ++ [item] ∨ held queue = held s.dataQueue)
    {x : DataItem} (hfront : (held s.dataQueue).head? = some x) : (held queue).head? = some x := by
  rcases hheld with heq | heq
  · rw [heq, List.head?_append, hfront]
    rfl
  · rw [heq, hfront]

theorem Turn.afterPush (hturn : s.Turn) (hold : ∀ item, s.call t ≠ some (.pushed item))
    (hold' : ∀ item, s.call t ≠ some (.starting item)) (hpushed : Pushed s.dataQueue queue item) :
    (s.afterPush t item queue).Turn := by
  obtain ⟨call, heq, hcall⟩ := afterPush_eq (t := t) hpushed
  rw [heq]
  have hheld : held queue = held s.dataQueue ++ [item] ∨ held queue = held s.dataQueue :=
    hcall.imp And.right And.right
  have hnot : ∀ item', call ≠ some (.starting item') := by
    rintro item' rfl
    rcases hcall with ⟨h, -⟩ | ⟨h | h, -⟩ <;> cases h
  have hnone : s.noneStarting →
      ({ s with dataQueue := queue }.setCall t call).noneStarting := fun h =>
    noneStarting.setCall (s := { s with dataQueue := queue }) h hnot
  cases hturn with
  | idle activated inProgress starting quiet pending =>
    refine .idle activated inProgress (hnone starting) quiet fun hsome => ?_
    by_cases hempty : held s.dataQueue = []
    · rcases hcall with ⟨rfl, hadded⟩ | ⟨-, hsame⟩
      · refine ⟨t, item, update_self .., ?_⟩
        show (held queue).head? = some item
        rw [hadded, hempty]
        rfl
      · exact absurd (hsame.trans hempty) hsome
    · obtain ⟨t', item', hcall', hfront⟩ := pending hempty
      have hne : t' ≠ t := fun h => hold item' (h ▸ hcall')
      exact ⟨t', item', (update_of_ne hne ..).trans hcall', head?_push hheld hfront⟩
  | starting t' item' activated inProgress call' only quiet front =>
    have hne : t' ≠ t := fun h => hold' item' (h ▸ call')
    refine .starting t' item' activated inProgress ((update_of_ne hne ..).trans call')
      (fun t'' item'' h => ?_) quiet (head?_push hheld front)
    by_cases heq' : t'' = t
    · subst heq'
      exact absurd ((update_self ..).symm.trans h) (hnot item'')
    · exact only t'' item'' ((update_of_ne heq' ..).symm.trans h)
  | running item' activated inProgress starting quiet front =>
    exact .running item' activated inProgress (hnone starting) quiet (head?_push hheld front)
  | ending activated inProgress starting isr front =>
    refine .ending activated inProgress (hnone starting) isr ?_
    show held queue ≠ []
    rcases hheld with h | h <;> rw [h]
    · exact List.append_ne_nil_of_left_ne_nil front _
    · exact front
  | popped last activated inProgress starting isr =>
    exact .popped last activated inProgress (hnone starting) isr
  | peaked last next activated inProgress starting isr front =>
    exact .peaked last next activated inProgress (hnone starting) isr
      fun x hx => head?_push hheld (front x hx)

theorem Inv.afterPush (hinv : s.Inv) (hold : ∀ item, s.call t ≠ some (.pushed item))
    (hold' : ∀ item, s.call t ≠ some (.starting item)) (hpushed : Pushed s.dataQueue queue item) :
    (s.afterPush t item queue).Inv := by
  have hturn := hinv.turn.afterPush hold hold' hpushed
  obtain ⟨call, heq, hcall⟩ := afterPush_eq (t := t) hpushed
  have hheld : held queue = held s.dataQueue ++ [item] ∨ held queue = held s.dataQueue :=
    hcall.imp And.right And.right
  obtain ⟨hstored, hpopped, -⟩ := hpushed
  rw [heq] at hturn ⊢
  -- an ended transfer is still the oldest item
  have hfront : s.isr = some .entered → (held queue).head? = (held s.dataQueue).head? := by
    intro hentered
    cases hinv.turn with
    | idle _ _ _ quiet | starting _ _ _ _ _ _ quiet | running _ _ _ _ quiet =>
      rcases quiet with h | ⟨last, h⟩ <;> rw [h] at hentered <;> cases hentered
    | ending _ _ _ _ front =>
      obtain ⟨x, rest, hx⟩ := List.exists_cons_of_ne_nil front
      rw [hx]
      exact head?_push hheld (by rw [hx]; rfl)
    | popped _ _ _ _ isr | peaked _ _ _ _ _ isr =>
      rw [isr] at hentered
      cases hentered
  refine ⟨hstored, hturn, hinv.started, ?_, ?_⟩
  · show s.finished = queue.popped ++ if s.isr = some .entered then (held queue).head?.toList else []
    rw [hinv.finished, hpopped, atEnd]
    split
    next hentered => rw [hfront hentered]
    · rfl
  · have hnotify : ({ s with dataQueue := queue }.setCall t call).toNotify = s.toNotify := by
      cases hisr : s.isr with
      | none => simp [DmaTx.toNotify, DmaTx.setCall, hisr]
      | some phase =>
        cases phase with
        | entered => simp [DmaTx.toNotify, DmaTx.setCall, hisr, hfront hisr]
        | _ => simp [DmaTx.toNotify, DmaTx.setCall, hisr]
    rw [hnotify]
    exact hinv.notified

theorem Inv.test (hinv : s.Inv) (hproper : s.Proper (.test t))
    (hexec : s.exec (.test t) = some s') : s'.Inv := by
  simp only [DmaTx.exec] at hexec
  split at hexec
  next item hcall =>
    cases hexec
    have hnot : ∀ item', (none : Option TxCall) ≠ some (.starting item') := fun _ h => by cases h
    have hnone : s.noneStarting → (s.setCall t none).noneStarting := fun h => h.setCall hnot
    cases hinv.turn with
    | idle activated inProgress starting quiet pending =>
      rw [activated, if_neg Bool.false_ne_true]
      have hfront := hproper activated item hcall
      refine ⟨hinv.stored, .starting t item rfl inProgress (update_self ..)
        (fun t' item' h => ?_) quiet hfront, hinv.started, hinv.finished, hinv.notified⟩
      by_contra hne
      exact starting t' item' ((update_of_ne hne ..).symm.trans h)
    | starting t' item' activated inProgress call only quiet front =>
      rw [activated, if_pos rfl]
      have hne : t' ≠ t := fun h => by rw [h, hcall] at call; cases call
      refine ⟨hinv.stored, .starting t' item' activated inProgress
        ((update_of_ne hne ..).trans call) (fun t'' item'' h => ?_) quiet front,
        hinv.started, hinv.finished, hinv.notified⟩
      by_cases heq : t'' = t
      · subst heq
        cases (update_self ..).symm.trans h
      · exact only t'' item'' ((update_of_ne heq ..).symm.trans h)
    | running item' activated inProgress starting quiet front =>
      rw [activated, if_pos rfl]
      exact ⟨hinv.stored, .running item' activated inProgress (hnone starting) quiet front,
        hinv.started, hinv.finished, hinv.notified⟩
    | ending activated inProgress starting isr front =>
      rw [activated, if_pos rfl]
      exact ⟨hinv.stored, .ending activated inProgress (hnone starting) isr front,
        hinv.started, hinv.finished, hinv.notified⟩
    | popped last activated inProgress starting isr =>
      rw [activated, if_pos rfl]
      exact ⟨hinv.stored, .popped last activated inProgress (hnone starting) isr,
        hinv.started, hinv.finished, hinv.notified⟩
    | peaked last next activated inProgress starting isr front =>
      rw [activated, if_pos rfl]
      exact ⟨hinv.stored, .peaked last next activated inProgress (hnone starting) isr front,
        hinv.started, hinv.finished, hinv.notified⟩
  · cases hexec

theorem Inv.transmit (hinv : s.Inv) (hexec : s.exec (.transmit t) = some s') : s'.Inv := by
  simp only [DmaTx.exec] at hexec
  split at hexec
  next item hcall =>
    cases hexec
    cases hinv.turn with
    | starting t' item' activated inProgress call only quiet front =>
      obtain rfl := only t item hcall
      obtain rfl : item = item' := by
        rw [hcall] at call
        cases call
        rfl
      refine ⟨hinv.stored, .running item activated ?_ (fun t' item' h => ?_) quiet front, ?_,
        hinv.finished, hinv.notified⟩
      · show s.inProgress ++ [item] = [item]
        rw [inProgress, List.nil_append]
      · by_cases heq : t' = t
        · subst heq
          cases (update_self ..).symm.trans h
        · exact heq (only t' item' ((update_of_ne heq ..).symm.trans h))
      · show s.started ++ [item] = s.finished ++ (s.inProgress ++ [item])
        rw [hinv.started, List.append_assoc]
    | idle _ _ starting | running _ _ _ starting | ending _ _ starting | popped _ _ _ starting
    | peaked _ _ _ _ starting => exact absurd hcall (starting t item)
  · cases hexec

theorem Inv.done (hinv : s.Inv) (hexec : s.exec (.done item) = some s') : s'.Inv := by
  simp only [DmaTx.exec, Option.ite_none_right_eq_some, Option.some.injEq] at hexec
  obtain ⟨⟨hisr, hitem⟩, rfl⟩ := hexec
  cases hinv.turn with
  | running item' activated inProgress starting quiet front =>
    rw [inProgress, List.mem_singleton] at hitem
    subst hitem
    have hnone : s.inProgress.erase item = [] := by
      rw [inProgress, List.erase_cons_head]
    refine ⟨hinv.stored, .ending activated hnone starting rfl ?_, ?_, ?_, ?_⟩
    · intro hempty
      rw [hempty] at front
      cases front
    · show s.started = s.finished ++ [item] ++ s.inProgress.erase item
      rw [hnone, hinv.started, inProgress, List.append_nil]
    · show s.finished ++ [item] = s.dataQueue.popped ++ (held s.dataQueue).head?.toList
      have hfinished := hinv.finished
      rw [atEnd, hisr, if_neg (by decide), List.append_nil] at hfinished
      rw [hfinished, front]
      rfl
    · have hnotified := hinv.notified
      rw [toNotify, hisr, List.append_nil] at hnotified
      show s.completed ++ [(held s.dataQueue).head?] = (s.finished ++ [item]).map some
      rw [hnotified, front, List.map_append]
      rfl
  | idle _ inProgress | starting _ _ _ inProgress | ending _ inProgress | popped _ _ inProgress
  | peaked _ _ _ inProgress =>
    rw [inProgress] at hitem
    cases hitem

theorem Inv.isr (hinv : s.Inv) (hproper : s.Proper .isr) (hexec : s.exec .isr = some s') :
    s'.Inv := by
  obtain ⟨phase, hphase, rfl⟩ := Option.map_eq_some_iff.mp hexec
  have hfinished := hinv.finished
  have hnotified := hinv.notified
  rw [atEnd, hphase] at hfinished
  rw [toNotify, hphase] at hnotified
  cases hinv.turn with
  | idle activated inProgress starting quiet pending =>
    obtain ⟨last, hlast⟩ := quiet.resolve_left (by rw [hphase]; exact Option.some_ne_none _)
    obtain rfl : phase = .notifying last := Option.some.inj (hphase.symm.trans hlast)
    exact ⟨hinv.stored, .idle activated inProgress starting (.inl rfl) pending, hinv.started,
      hfinished, (List.append_nil _).trans hnotified⟩
  | starting t item activated inProgress call only quiet front =>
    obtain ⟨last, hlast⟩ := quiet.resolve_left (by rw [hphase]; exact Option.some_ne_none _)
    obtain rfl : phase = .notifying last := Option.some.inj (hphase.symm.trans hlast)
    exact ⟨hinv.stored, .starting t item activated inProgress call only (.inl rfl) front,
      hinv.started, hfinished, (List.append_nil _).trans hnotified⟩
  | running item activated inProgress starting quiet front =>
    obtain ⟨last, hlast⟩ := quiet.resolve_left (by rw [hphase]; exact Option.some_ne_none _)
    obtain rfl : phase = .notifying last := Option.some.inj (hphase.symm.trans hlast)
    exact ⟨hinv.stored, .running item activated inProgress starting (.inl rfl) front,
      hinv.started, hfinished, (List.append_nil _).trans hnotified⟩
  | ending activated inProgress starting isr front =>
    obtain rfl : phase = .entered := Option.some.inj (hphase.symm.trans isr)
    obtain ⟨item, rest, hheld⟩ := List.exists_cons_of_ne_nil front
    obtain ⟨hstored, -, hpopped⟩ := held_pop 0 0 hinv.stored hheld
    refine ⟨hstored, .popped _ activated inProgress starting rfl, hinv.started, ?_, ?_⟩
    · show s.finished = (s.dataQueue.rtDataQueuePop 0 0).popped ++ []
      rw [hpopped, List.append_nil, hfinished, if_pos rfl, hheld]
      rfl
    · show s.completed ++ [frontItem s.dataQueue] = s.finished.map some
      rw [frontItem_eq hinv.stored]
      exact hnotified
  | popped last activated inProgress starting isr =>
    obtain rfl : phase = .popped last := Option.some.inj (hphase.symm.trans isr)
    refine ⟨hinv.stored, .peaked last (frontItem s.dataQueue) activated inProgress starting rfl
      fun item hitem => (frontItem_eq hinv.stored).symm.trans hitem, hinv.started, hfinished,
      hnotified⟩
  | peaked last next activated inProgress starting isr front =>
    obtain rfl : phase = .peaked last next := Option.some.inj (hphase.symm.trans isr)
    cases next with
    | none =>
      exact ⟨hinv.stored, .idle rfl inProgress starting (.inr ⟨last, rfl⟩) (hproper last hphase),
        hinv.started, hfinished, hnotified⟩
    | some item =>
      refine ⟨hinv.stored, .running item rfl ?_ starting (.inr ⟨last, rfl⟩) (front item rfl), ?_,
        hfinished, hnotified⟩
      · show s.inProgress ++ [item] = [item]
        rw [inProgress, List.nil_append]
      · show s.started ++ [item] = s.finished ++ (s.inProgress ++ [item])
        rw [hinv.started, List.append_assoc]

theorem Inv.step (hinv : s.Inv) {op : DmaTxOp} (hproper : s.Proper op)
    (hexec : s.exec op = some s') : s'.Inv := by
  cases op with
  | write t item =>
    simp only [DmaTx.exec, Option.ite_none_right_eq_some] at hexec
    obtain ⟨hcall, hexec⟩ := hexec
    obtain ⟨queue, hpush, rfl⟩ := Option.map_eq_some_iff.mp hexec
    simp only [DataQueue.exec, Option.ite_none_right_eq_some, Option.some.injEq] at hpush
    obtain ⟨-, rfl⟩ := hpush
    refine hinv.afterPush (fun item h => ?_) (fun item h => ?_) (pushed_push hinv.stored hproper) <;>
    · rw [hcall] at h
      cases h
  | proceed t =>
    simp only [DmaTx.exec] at hexec
    split at hexec
    next item timeout hcall hqueue =>
      obtain ⟨queue, hrun, rfl⟩ := Option.map_eq_some_iff.mp hexec
      refine hinv.afterPush (fun item h => ?_) (fun item h => ?_)
        (pushed_proceed hinv.stored hproper hqueue hrun) <;>
      · rw [hcall] at h
        cases h
    · cases hexec
  | test t => exact hinv.test hproper hexec
  | transmit t => exact hinv.transmit hexec
  | done item => exact hinv.done hexec
  | isr => exact hinv.isr hproper hexec

end Steps

structure Orderly (s : DmaTx) : Prop where
  one : s.inProgress.length ≤ 1
  front : ∀ item ∈ s.inProgress, (held s.dataQueue).head? = some item
  started : s.started = s.finished ++ s.inProgress
  order : s.started <+: s.dataQueue.pushed
  completed : s.completed = (if s.isr = none then s.finished else s.finished.dropLast).map some
  /-- as long as a buffer waits, somebody will start or end a transfer -/
  driven : held s.dataQueue ≠ [] →
    s.inProgress ≠ [] ∨ ¬ s.isrQuiet ∨ (∃ t item, s.call t = some (.starting item)) ∨ s.frontPending

variable {s : DmaTx}

theorem Inv.orderly (hinv : s.Inv) : s.Orderly := by
  have hpushed := pushed_eq hinv.stored
  have hfinished := hinv.finished
  have hnotified := hinv.notified
  -- in every phase the turn gives the front of the queue
  have hturn : s.inProgress.length ≤ 1 ∧
      (∀ item ∈ s.inProgress, (held s.dataQueue).head? = some item) ∧
      (s.isr = some .entered → s.inProgress = []) ∧
      (held s.dataQueue ≠ [] → s.inProgress ≠ [] ∨ ¬ s.isrQuiet ∨
        (∃ t item, s.call t = some (.starting item)) ∨ s.frontPending) := by
    cases hinv.turn with
    | idle activated inProgress starting quiet pending =>
      rw [inProgress]
      exact ⟨Nat.zero_le _, fun _ h => (by cases h), fun _ => rfl,
        fun hsome => .inr (.inr (.inr (pending hsome)))⟩
    | starting t item activated inProgress call only quiet front =>
      rw [inProgress]
      exact ⟨Nat.zero_le _, fun _ h => (by cases h), fun _ => rfl,
        fun _ => .inr (.inr (.inl ⟨t, item, call⟩))⟩
    | running item activated inProgress starting quiet front =>
      rw [inProgress]
      refine ⟨Nat.le_refl _, fun x hx => by rw [List.mem_singleton.mp hx]; exact front,
        fun hentered => ?_, fun _ => .inl (List.cons_ne_nil _ _)⟩
      rcases quiet with h | ⟨last, h⟩ <;> rw [h] at hentered <;> cases hentered
    | ending activated inProgress starting isr | popped last activated inProgress starting isr
    | peaked last next activated inProgress starting isr =>
      rw [inProgress]
      refine ⟨Nat.zero_le _, fun _ h => (by cases h), fun _ => rfl, fun _ => .inr (.inl ?_)⟩
      rintro (h | ⟨_, h⟩) <;> rw [isr] at h <;> cases h
  obtain ⟨hone, hfront, hentered, hdriven⟩ := hturn
  refine ⟨hone, hfront, hinv.started, ?_, ?_, hdriven⟩
  · rw [hinv.started, hfinished, hpushed, List.append_assoc]
    refine (List.prefix_append_right_inj _).mpr ?_
    unfold atEnd
    split
    next h =>
      rw [hentered h, List.append_nil]
      cases held s.dataQueue with
      | nil => exact List.nil_prefix
      | cons item rest => exact List.prefix_append [item] rest
    · rw [List.nil_append]
      match hcase : s.inProgress, hone with
      | [], _ => exact List.nil_prefix
      | [item], _ =>
        have hhead := hfront item (by rw [hcase]; exact List.mem_singleton_self _)
        obtain ⟨rest, hrest⟩ := List.head?_eq_some_iff.mp hhead
        rw [hrest]
        exact List.prefix_append [item] rest
  · cases hisr : s.isr with
    | none =>
      rw [toNotify, hisr, List.append_nil] at hnotified
      rw [if_pos rfl]
      exact hnotified
    | some phase =>
      obtain ⟨last, hlast⟩ : ∃ last, s.toNotify = [last] := by
        cases phase <;> exact ⟨_, by rw [toNotify, hisr]⟩
      rw [if_neg (Option.some_ne_none _), List.map_dropLast, ← hnotified, hlast,
        List.dropLast_concat]

theorem Initial.inv (hinit : s.Initial) : s.Inv := by
  have hstored := hinit.dataQueue.stored
  have hheld : held s.dataQueue = [] := by
    rw [held, hinit.dataQueue.pushed, List.drop_nil]
  refine ⟨hstored, .idle hinit.activated hinit.inProgress (fun t item h => ?_) (.inl hinit.isr)
    fun hsome => absurd hheld hsome, ?_, ?_, ?_⟩
  · rw [hinit.call t] at h
    cases h
  · rw [hinit.started, hinit.finished, hinit.inProgress]
    rfl
  · rw [hinit.finished, hinit.dataQueue.popped, atEnd, hinit.isr]
    rfl
  · rw [hinit.completed, hinit.finished, toNotify, hinit.isr]
    rfl

/-- For every interleaving in which no step makes a mistake. -/
theorem reachable_orderly (hreach : dmaTxMachine.Reachable Proper s) : s.Orderly := by
  have hinv : s.Inv := hreach.invariant Inv (fun s hinit => Initial.inv hinit)
    (fun s op s' hinv hproper hexec => hinv.step hproper hexec)
  exact hinv.orderly

def fresh : DmaTx where
  dataQueue :=
    { size := 8
      lwm := 4
      getIndex := 0
      putIndex := 0
      queue := fun _ => ⟨0, 0⟩
      suspendedPushList := []
      suspendedPopList := []
      thread := fun _ => { Thread.init (.flat 1) 10 with stat := .ready }
      call := fun _ => none
      result := none
      pushed := []
      popped := [] }
  activated := false
  call := fun _ => none
  isr := none
  inProgress := []
  started := []
  finished := []
  completed := []

theorem fresh_initial : fresh.Initial :=
  ⟨⟨by decide, by decide, rfl, rfl, rfl, rfl, fun _ => rfl, fun _ => rfl, rfl, rfl⟩, ⟨rfl, rfl⟩, rfl,
    fun _ => rfl, rfl, rfl, rfl, rfl, rfl⟩

def seenProper (s : DmaTx) : DmaTxOp → Bool
  | .write _ _ => s.dataQueue.SlotFree
  | .proceed t => s.dataQueue.PushesFree (.proceed t)
  | .test t =>
    match s.call t with
    | some (.pushed item) => s.activated || (held s.dataQueue).head? = some item
    | _ => true
  | .isr =>
    match s.isr with
    | some (.peaked _ none) => held s.dataQueue = []
    | _ => true
  | _ => true

theorem proper_of_seenProper {op : DmaTxOp} (hseen : s.seenProper op = true) : s.Proper op := by
  cases op with
  | write t item => exact show s.dataQueue.SlotFree from of_decide_eq_true hseen
  | proceed t => exact show s.dataQueue.PushesFree (.proceed t) from of_decide_eq_true hseen
  | test t =>
    intro hidle item hcall
    simp only [seenProper, hcall, hidle, Bool.false_or, decide_eq_true_eq] at hseen
    exact hseen
  | transmit t => trivial
  | done item => trivial
  | isr =>
    intro last hisr hsome
    simp only [seenProper, hisr, decide_eq_true_eq] at hseen
    exact absurd hseen hsome

def twoWriters : List DmaTxOp :=
  [.write 1 ⟨100, 5⟩, .write 2 ⟨200, 7⟩, .test 1, .transmit 1, .test 2, .done ⟨100, 5⟩, .isr, .isr,
    .isr, .isr, .done ⟨200, 7⟩, .isr, .isr, .isr]

theorem reachable_orderly_twoWriters :
    ∃ s, dmaTxMachine.Reachable Proper s ∧ s.started = [⟨100, 5⟩, ⟨200, 7⟩] ∧
      s.activated = false ∧ s.Orderly := by
  have hrun : (dmaTxMachine.run (fun s op => s.seenProper op = true) fresh twoWriters).map
      (fun s => (s.started, s.activated)) = some ([⟨100, 5⟩, ⟨200, 7⟩], false) := by
    decide +kernel
  obtain ⟨s, hreach, hend⟩ := Machine.exists_reachable_of_run fresh_initial hrun
  obtain ⟨hstarted, hidle⟩ := Prod.mk.inj hend
  have hproper := hreach.mono fun _ _ h => proper_of_seenProper h
  exact ⟨s, hproper, hstarted, hidle, reachable_orderly hproper⟩

/-- The second thread is the first one to look at `activated`. -/
def overtaken : List DmaTxOp := [.write 1 ⟨100, 5⟩, .write 2 ⟨200, 7⟩, .test 2, .transmit 2]

theorem overtaken_not_orderly : ∃ s, dmaTxMachine.Reachable (fun _ _ => True) s ∧ ¬ s.Orderly := by
  have hrun : (dmaTxMachine.run (fun _ _ => True) fresh overtaken).map
      (fun s => (s.inProgress, (held s.dataQueue).head?)) = some ([⟨200, 7⟩], some ⟨100, 5⟩) := by
    decide +kernel
  obtain ⟨s, hreach, hend⟩ := Machine.exists_reachable_of_run fresh_initial hrun
  obtain ⟨hprogress, hhead⟩ := Prod.mk.inj hend
  refine ⟨s, hreach, fun horderly => ?_⟩
  have hfront := horderly.front ⟨200, 7⟩ (by rw [hprogress]; exact List.mem_singleton_self _)
  rw [hhead] at hfront
  exact absurd hfront (by decide)

end DmaTx

end RtThread.Serial
