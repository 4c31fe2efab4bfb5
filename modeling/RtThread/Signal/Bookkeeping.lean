import RtThread.Signal.Chains

namespace RtThread.Signal

open Function RtThread.Lib SigSystem

/-- How many nodes carry a signal to a thread: linked, held by a handler, or about to be
linked by a `rt_thread_kill`. -/
def carried (s : SigSystem) (chain : Tid → List NodeId) (t : Tid) (sig : Nat) : Nat :=
  (chain t).countP (fun n => (s.si n).siSigno == sig) +
    (s.thread t).activations.countP (fun a => a.signo == sig) +
    s.kills.countP fun k => k.tid == t && k.sig == sig

/-- A pending signal has a node, and there are no more nodes than calls of
`rt_thread_kill` account for. -/
structure Tally (s : SigSystem) (chain : Tid → List NodeId) : Prop where
  carrier : ∀ t sig, sig < rtSigMax → (s.thread t).freed = false → s.pending t sig = true →
    0 < carried s chain t sig
  bound : ∀ t sig, sig < rtSigMax →
    carried s chain t sig ≤ (s.pending t sig).toNat + (s.thread t).resent sig

inductive Accounted (s s' : SigSystem) (chain chain' : Tid → List NodeId) (t : Tid)
    (sig : Nat) : Prop
  | same (hcarried : carried s' chain' t sig = carried s chain t sig)
      (hpending : s'.pending t sig = s.pending t sig)
      (hresent : (s'.thread t).resent sig = (s.thread t).resent sig)
      (hfreed : (s'.thread t).freed = (s.thread t).freed)
  | sent (hcarried : carried s' chain' t sig = carried s chain t sig + 1)
      (hpending : s'.pending t sig = true)
      (hresent : (s'.thread t).resent sig = (s.thread t).resent sig + (s.pending t sig).toNat)
  | taken (hcarried : carried s chain t sig = carried s' chain' t sig + 1)
      (hpending : s'.pending t sig = false)
      (hresent : (s'.thread t).resent sig = (s.thread t).resent sig)
  | detached (hcarried : carried s' chain' t sig ≤ carried s chain t sig)
      (hpending : s'.pending t sig = s.pending t sig)
      (hresent : (s'.thread t).resent sig = (s.thread t).resent sig)
      (hfreed : (s'.thread t).freed = true)

theorem Tally.step {s s' : SigSystem} {chain chain' : Tid → List NodeId}
    (htally : Tally s chain)
    (hstep : ∀ t sig, sig < rtSigMax → Accounted s s' chain chain' t sig) :
    Tally s' chain' := by
  refine ⟨fun t sig hsig hlive hpending => ?_, fun t sig hsig => ?_⟩
  · cases hstep t sig hsig with
    | same hcarried hsame hresent hfreed =>
      rw [hcarried]
      exact htally.carrier t sig hsig (hfreed ▸ hlive) (hsame ▸ hpending)
    | sent hcarried => omega
    | taken hcarried hclear =>
      rw [hclear] at hpending
      cases hpending
    | detached hcarried hsame hresent hfreed =>
      rw [hfreed] at hlive
      cases hlive
  · have hbound := htally.bound t sig hsig
    cases hstep t sig hsig with
    | same hcarried hsame hresent hfreed =>
      rw [hcarried, hsame, hresent]
      exact hbound
    | sent hcarried hset hresent =>
      rw [hcarried, hset, hresent, Bool.toNat_true]
      omega
    | taken hcarried hclear hresent =>
      rw [hclear, hresent, Bool.toNat_false]
      have hbit := Bool.toNat_le (s.pending t sig)
      omega
    | detached hcarried hsame hresent hfreed =>
      rw [hsame, hresent]
      omega

section Steps

variable {s s' : SigSystem} {chain reap : Tid → List NodeId} {t : Tid} {n : NodeId}

theorem pending_set {sig : Nat} (hsig : sig < rtSigMax) (word : SigSet) (i : Nat) :
    (word ||| sigMaskOf sig).getLsbD i = (word.getLsbD i || decide (i = sig)) :=
  getLsbD_or_mask word hsig i

theorem pending_clear {sig : Nat} (hsig : sig < rtSigMax) (word : SigSet) (i : Nat) :
    (word &&& ~~~sigMaskOf sig).getLsbD i = (word.getLsbD i && decide (i ≠ sig)) :=
  getLsbD_and_not_mask word hsig i

theorem and_sigMaskOf_ne_zero_iff {sig : Nat} (hsig : sig < rtSigMax) (word : SigSet) :
    word &&& sigMaskOf sig ≠ 0 ↔ word.getLsbD sig = true := by
  show word &&& sigMaskOf sig ≠ 0#32 ↔ _
  rw [ne_zero_iff_exists_bit]
  constructor
  · rintro ⟨i, hi⟩
    rw [BitVec.getLsbD_and, sigMaskOf, getLsbD_mask hsig, Bool.and_eq_true, decide_eq_true_eq] at hi
    exact hi.2 ▸ hi.1
  · intro hset
    refine ⟨sig, ?_⟩
    rw [BitVec.getLsbD_and, sigMaskOf, getLsbD_mask hsig, hset]
    simp

theorem accounted_quiet {thread : SigThread} (hpending : thread.sigPending = (s.thread t).sigPending)
    (hsignos : thread.activations.map Activation.signo =
      (s.thread t).activations.map Activation.signo)
    (hresent : thread.resent = (s.thread t).resent)
    (hfreed : thread.freed = (s.thread t).freed) (u : Tid) (sig : Nat) :
    Accounted s (s.setThread t thread) chain chain u sig := by
  rcases eq_or_ne u t with rfl | hu
  · have hcount : ∀ l : List Activation, l.countP (fun a => a.signo == sig) =
        (l.map Activation.signo).countP (· == sig) := by
      intro l
      rw [List.countP_map]
      rfl
    refine .same ?_ ?_ ?_ ?_
    · simp only [carried, setThread, update_self]
      rw [hcount, hcount, hsignos]
    · simp [pending, setThread, hpending]
    · simp [setThread, hresent]
    · simp [setThread, hfreed]
  · refine .same ?_ ?_ ?_ ?_
    · simp only [carried, setThread, update_of_ne hu]
    · simp [pending, setThread, hu]
    · simp [setThread, hu]
    · simp [setThread, hu]

theorem accounted_addKill {tid : Tid} {sig : Nat} (hsig : sig < rtSigMax) {thread : SigThread}
    (hset : thread.sigPending = (s.thread tid).sigPending ||| sigMaskOf sig)
    (hactivations : thread.activations = (s.thread tid).activations)
    (hresent : thread.resent = update (s.thread tid).resent sig
      ((s.thread tid).resent sig + (s.pending tid sig).toNat))
    (hfreed : thread.freed = (s.thread tid).freed) (u : Tid) (i : Nat) :
    Accounted s ((s.setThread tid thread).addKill tid sig) chain chain u i := by
  have hthread : ((s.setThread tid thread).addKill tid sig).thread =
      update s.thread tid thread := rfl
  have hkills : ((s.setThread tid thread).addKill tid sig).kills =
      { tid, sig, siNode := none } :: s.kills := rfl
  have hsi : ((s.setThread tid thread).addKill tid sig).si = s.si := rfl
  rcases eq_or_ne u tid with rfl | hu
  · rcases eq_or_ne i sig with rfl | hi
    · refine .sent ?_ ?_ ?_
      · simp only [carried, hthread, hkills, hsi, update_self, hactivations, List.countP_cons]
        simp
        omega
      · simp [pending, hthread, hset, pending_set hsig]
      · simp [hthread, hresent]
    · refine .same ?_ ?_ ?_ ?_
      · simp only [carried, hthread, hkills, hsi, update_self, hactivations, List.countP_cons]
        simp [hi.symm]
      · simp [pending, hthread, hset, pending_set hsig, hi]
      · simp [hthread, hresent, hi]
      · simp [hthread, hfreed]
  · refine .same ?_ ?_ ?_ ?_
    · simp only [carried, hthread, hkills, hsi, update_of_ne hu, List.countP_cons]
      simp [hu.symm]
    · simp [pending, hthread, hu]
    · simp [hthread, hu]
    · simp [hthread, hu]

theorem Tally.killBegin (htally : Tally s chain) (hview : View s chain reap) {tid : Tid}
    {sig : Nat} (hexec : s.killBegin tid sig = some s') : Tally s' chain := by
  unfold SigSystem.killBegin at hexec
  split at hexec
  next htid =>
    split at hexec
    next hvalid =>
      have hsig : sig < rtSigMax := by simpa [sigValid] using hvalid
      split at hexec
      next hset =>
        rw [and_sigMaskOf_ne_zero_iff hsig] at hset
        split at hexec
        · cases hexec
          -- setting the bit would make no difference
          have hword : (s.thread tid).sigPending = (s.thread tid).sigPending ||| sigMaskOf sig := by
            apply BitVec.eq_of_getLsbD_eq
            intro j _
            rw [pending_set hsig]
            rcases eq_or_ne j sig with rfl | hj
            · simp [hset]
            · simp [hj]
          refine htally.step fun u i _ => accounted_addKill hsig ?_ ?_ ?_ ?_ u i
          · exact hword
          · rfl
          · simp [pending, hset]
          · rfl
        · cases hexec
        next n hlist => exact absurd hlist (hview.typed tid n)
      next hclear =>
        rw [and_sigMaskOf_ne_zero_iff hsig, Bool.not_eq_true] at hclear
        cases hexec
        refine htally.step fun u i _ => accounted_addKill hsig ?_ ?_ ?_ ?_ u i
        · rfl
        · rfl
        · simp [pending, hclear]
        · rfl
    · cases hexec
      exact htally
  · cases hexec

theorem Tally.killAlloc (htally : Tally s chain) (hview : View s chain reap) {i : Nat}
    (hpool : s.free ≠ []) (hexec : s.killAlloc i = some s') : Tally s' chain := by
  unfold SigSystem.killAlloc at hexec
  split at hexec
  next tid sig hkill =>
    split at hexec
    next hempty => exact absurd hempty hpool
    next n free hfree =>
      cases hexec
      obtain ⟨hi, hget⟩ := List.getElem?_eq_some_iff.mp hkill
      have hsplit : s.kills = s.kills.take i ++
          { tid, sig, siNode := none } :: s.kills.drop (i + 1) := by
        rw [← hget, List.getElem_cons_drop, List.take_append_drop]
      have hout : ∀ u, n ∉ chain u := by
        intro u hmem
        exact (hview.apart (View.mem_owned_of_chain hmem)).1 (by simp [hfree])
      refine htally.step fun u j _ => .same ?_ rfl rfl rfl
      have hchain : (chain u).countP (fun m => (update s.si n
          { siSigno := sig, siCode := siUser } m).siSigno == j) =
          (chain u).countP fun m => (s.si m).siSigno == j := by
        refine List.countP_congr fun m hm => ?_
        have hne : m ≠ n := fun h => hout u (h ▸ hm)
        rw [update_of_ne hne]
      have hkills : (s.kills.set i { tid, sig, siNode := some n }).countP
          (fun k => k.tid == u && k.sig == j) = s.kills.countP fun k => k.tid == u && k.sig == j := by
        rw [List.set_eq_take_append_cons_drop, if_pos hi]
        conv =>
          rhs
          rw [hsplit]
        simp only [List.countP_append, List.countP_cons]
      simp only [carried]
      rw [hchain, hkills]
  · cases hexec

theorem Tally.killLink (htally : Tally s chain) (hview : View s chain reap) {i : Nat}
    {k : Kill} (hkill : s.kills[i]? = some k) (hnode : k.siNode = some n)
    (hexec : s.killLink i = some s') :
    Tally s' (update chain k.tid (chain k.tid ++ [n])) := by
  have hmem := List.mem_of_getElem? hkill
  have hsigno : (s.si n).siSigno = k.sig := ((hview.kills k hmem).2.2 n hnode).1
  obtain ⟨hi, hget⟩ := List.getElem?_eq_some_iff.mp hkill
  have hsplit : s.kills = s.kills.take i ++ k :: s.kills.drop (i + 1) := by
    rw [← hget, List.getElem_cons_drop, List.take_append_drop]
  -- whichever way the node is linked
  have hsame : s'.si = s.si ∧ s'.kills = s.kills.eraseIdx i ∧ ∀ u,
      (s'.thread u).activations = (s.thread u).activations ∧
      (s'.thread u).sigPending = (s.thread u).sigPending ∧
      (s'.thread u).resent = (s.thread u).resent ∧ (s'.thread u).freed = (s.thread u).freed := by
    unfold SigSystem.killLink at hexec
    split at hexec
    next tid sig m hkill' =>
      split at hexec
      · cases hexec
        refine ⟨rfl, rfl, fun u => ?_⟩
        rcases eq_or_ne u tid with rfl | hu
        · simp [setThread]
        · simp [setThread, hu]
      · cases hexec
      · split at hexec
        · cases hexec
        · split at hexec
          · cases hexec
            exact ⟨rfl, rfl, fun u => ⟨rfl, rfl, rfl, rfl⟩⟩
          · cases hexec
    · cases hexec
  obtain ⟨hsi, hkills, hthreads⟩ := hsame
  refine htally.step fun u j _ => ?_
  obtain ⟨hactivations, hpending, hresent, hfreed⟩ := hthreads u
  refine .same ?_ ?_ ?_ hfreed
  · have hcount : (s.kills.eraseIdx i).countP (fun l => l.tid == u && l.sig == j) +
        [k].countP (fun l => l.tid == u && l.sig == j) =
        s.kills.countP fun l => l.tid == u && l.sig == j := by
      rw [List.eraseIdx_eq_take_drop_succ]
      conv =>
        rhs
        rw [hsplit]
      simp only [List.countP_append, List.countP_cons, List.countP_nil]
      omega
    simp only [carried, hsi, hkills, hactivations]
    rw [← hcount]
    rcases eq_or_ne u k.tid with rfl | hu
    · simp [List.countP_append, hsigno]
      omega
    · simp [hu, hu.symm]
  · rw [pending, hpending]
    rfl
  · rw [hresent]

theorem countP_signo (l : List Activation) (sig : Nat) :
    l.countP (fun a => a.signo == sig) = (l.map Activation.signo).countP (· == sig) := by
  rw [List.countP_map]
  rfl

theorem Tally.pop (htally : Tally s chain) {rest : List NodeId} {thread : SigThread}
    {pinned : List (NodeId × SigInfo)} (invoked : List Invocation)
    (hchain : chain t = n :: rest) (hpending : thread.sigPending = (s.thread t).sigPending)
    (hactivations : thread.activations =
      { siNode := n, signo := (s.si n).siSigno, pinned } :: (s.thread t).activations)
    (hresent : thread.resent = (s.thread t).resent)
    (hfreed : thread.freed = (s.thread t).freed) :
    Tally { s.setThread t thread with invoked := invoked } (update chain t rest) := by
  refine htally.step fun u j _ => ?_
  rcases eq_or_ne u t with rfl | hu
  · refine .same ?_ ?_ ?_ ?_
    · simp only [carried, setThread, update_self, hactivations, hchain, List.countP_cons]
      omega
    · simp [pending, setThread, hpending]
    · simp [setThread, hresent]
    · simp [setThread, hfreed]
  · refine .same ?_ ?_ ?_ ?_
    · simp only [carried, setThread, update_of_ne hu]
    · simp [pending, setThread, hu]
    · simp [setThread, hu]
    · simp [setThread, hu]

theorem Tally.take (htally : Tally s chain) {thread : SigThread} {sig : Nat}
    {chain' : Tid → List NodeId} (hsig : sig < rtSigMax) (hsi : s'.si = s.si)
    (hkills : s'.kills = s.kills) (hthread : s'.thread = update s.thread t thread)
    (hother : ∀ u, u ≠ t → chain' u = chain u)
    (hpending : thread.sigPending = (s.thread t).sigPending &&& ~~~sigMaskOf sig)
    (hresent : thread.resent = (s.thread t).resent)
    (hfreed : thread.freed = (s.thread t).freed)
    (hcount : ∀ j, (chain t).countP (fun n => (s.si n).siSigno == j) +
        (s.thread t).activations.countP (fun a => a.signo == j) =
      (chain' t).countP (fun n => (s.si n).siSigno == j) +
        thread.activations.countP (fun a => a.signo == j) + if j = sig then 1 else 0) :
    Tally s' chain' := by
  refine htally.step fun u j _ => ?_
  rcases eq_or_ne u t with rfl | hu
  · have hmove := hcount j
    rcases eq_or_ne j sig with rfl | hj
    · refine .taken ?_ ?_ ?_
      · simp only [carried, hsi, hkills, hthread, update_self]
        rw [if_pos rfl] at hmove
        omega
      · simp [pending, hthread, hpending, pending_clear hsig]
      · simp [hthread, hresent]
    · refine .same ?_ ?_ ?_ ?_
      · simp only [carried, hsi, hkills, hthread, update_self]
        rw [if_neg hj] at hmove
        omega
      · simp [pending, hthread, hpending, pending_clear hsig, hj]
      · simp [hthread, hresent]
      · simp [hthread, hfreed]
  · refine .same ?_ ?_ ?_ ?_
    · simp only [carried, hsi, hkills, hthread, update_of_ne hu, hother u hu]
    · simp [pending, hthread, hu]
    · simp [hthread, hu]
    · simp [hthread, hu]

theorem Tally.quiet (htally : Tally s chain) {thread : SigThread}
    (hpending : thread.sigPending = (s.thread t).sigPending)
    (hsignos : thread.activations.map Activation.signo =
      (s.thread t).activations.map Activation.signo)
    (hresent : thread.resent = (s.thread t).resent)
    (hfreed : thread.freed = (s.thread t).freed) : Tally (s.setThread t thread) chain :=
  htally.step fun u j _ => accounted_quiet hpending hsignos hresent hfreed u j

theorem Tally.unpin (htally : Tally s chain) (t : Tid) (signo : Nat) :
    Tally (s.unpin t signo) chain := by
  refine htally.quiet rfl ?_ rfl rfl
  simp [List.map_map, comp_def]

def Booked (s : SigSystem) : Prop := ∃ chain reap, View s chain reap ∧ Tally s chain

theorem Booked.handleLoop (hview : View s chain reap) (htally : Tally s chain)
    {pinned : List (NodeId × SigInfo)} (hexec : s.handleLoop t pinned = some s') :
    Booked s' := by
  rcases hview.handleLoop_cases hexec with
    rfl | ⟨n, rest, siList, handler, hchain, -, htail, htyped, -, rfl⟩
  · exact ⟨chain, reap, hview, htally⟩
  · exact ⟨_, reap, hview.pop _ hchain htail htyped rfl rfl, htally.pop _ hchain rfl rfl rfl rfl⟩

theorem Booked.handleNext (hview : View s chain reap) (htally : Tally s chain)
    (hexec : s.handleNext t = some s') : Booked s' := by
  unfold SigSystem.handleNext at hexec
  split at hexec
  next a rest _ hactivations =>
    refine Booked.handleLoop (hview.handleReturn hactivations) ?_ hexec
    refine htally.take (hview.held t a (by simp [hactivations])) rfl rfl rfl (fun _ _ => rfl)
      rfl rfl rfl fun j => ?_
    simp only [hactivations, List.countP_cons, beq_iff_eq, eq_comm (a := j)]
    omega
  · cases hexec

theorem Booked.takePending (hview : View s chain reap) (htally : Tally s chain) {set : SigSet}
    (hhead : s.takesHead t set = false) (hexec : s.takePending t set = some s') :
    Booked s' := by
  rcases hview.takePending_cases hexec with
    rfl | ⟨pre, n, post, done, hchain, hset, rfl, hcase⟩
  · exact ⟨chain, reap, hview.quiet rfl rfl rfl, htally.quiet rfl rfl rfl rfl⟩
  · have hsig : (s.si n).siSigno < rtSigMax := hview.signos t n (by simp [hchain])
    have hcount : ∀ j, (chain t).countP (fun m => (s.si m).siSigno == j) =
        (pre ++ post).countP (fun m => (s.si m).siSigno == j) +
          if j = (s.si n).siSigno then 1 else 0 := by
      intro j
      simp only [hchain, List.countP_append, List.countP_cons, beq_iff_eq, eq_comm (a := j)]
      omega
    have hunpin := hview.unpin t (s.si n).siSigno
    have htallied := htally.unpin t (s.si n).siSigno
    rcases hcase with ⟨prev, hprev, rfl⟩ | ⟨rfl, siList, hnull, rfl⟩
    · refine ⟨_, reap, hunpin.unlinkMiddle hchain hprev rfl rfl rfl,
        htallied.take hsig rfl rfl rfl (fun u hu => update_of_ne hu _ _) ?_ rfl rfl
          fun j => ?_⟩
      · simp [unpin, setThread]
      · have hj := hcount j
        rw [update_self]
        simp only [unpin, setThread] at hj ⊢
        omega
    · obtain ⟨hend, honly⟩ := hview.only_of_takesHead hchain hset hhead
      refine ⟨_, reap, hunpin.unlinkOnly honly (hnull hend) rfl rfl,
        htallied.take hsig rfl rfl rfl (fun u hu => update_of_ne hu _ _) ?_ rfl rfl
          fun j => ?_⟩
      · simp [unpin, setThread]
      · have hj := hcount j
        have hpost : post = [] := by
          rw [hchain] at honly
          simpa using honly
        rw [update_self]
        simp only [hpost, List.append_nil, unpin, setThread] at hj ⊢
        omega

/-- The pool is not exhausted when a `rt_thread_kill` allocates. -/
def PoolOk (s : SigSystem) : SigOp → Prop
  | .killAlloc _ => s.free ≠ []
  | _ => True

theorem Booked.waitBegin (hview : View s chain reap) (htally : Tally s chain) {set : SigSet}
    {timeout : Int} (hallowed : NoSlip s (.waitBegin t set timeout))
    (hexec : s.waitBegin t set timeout = some s') : Booked s' := by
  unfold SigSystem.waitBegin at hexec
  dsimp only at hexec
  split at hexec
  · cases hexec
  · split at hexec
    · cases hexec
      exact ⟨chain, reap, hview.quiet rfl rfl rfl, htally.quiet rfl rfl rfl rfl⟩
    · split at hexec
      next hpending => exact Booked.takePending hview htally (hallowed hpending) hexec
      · split at hexec
        · cases hexec
          exact ⟨chain, reap, hview.quiet rfl rfl rfl, htally.quiet rfl rfl rfl rfl⟩
        · cases hexec
          exact ⟨chain, reap, hview.quiet rfl rfl rfl, htally.quiet rfl rfl rfl rfl⟩

theorem Booked.waitEnd (hview : View s chain reap) (htally : Tally s chain) {timedOut : Bool}
    (hallowed : NoSlip s (.waitEnd t timedOut)) (hexec : s.waitEnd t timedOut = some s') :
    Booked s' := by
  unfold SigSystem.waitEnd at hexec
  dsimp only at hexec
  split at hexec
  · have hawake : View (s.setThread t { s.thread t with signalWait := false }) chain reap :=
      hview.quiet rfl rfl rfl
    have hsame : Tally (s.setThread t { s.thread t with signalWait := false }) chain :=
      htally.quiet rfl rfl rfl rfl
    split at hexec
    · cases hexec
      exact ⟨chain, reap, hawake.quiet rfl rfl rfl, hsame.quiet rfl rfl rfl rfl⟩
    next hresumed =>
      refine Booked.takePending hawake hsame ?_ hexec
      have hhead := hallowed (Bool.eq_false_iff.mpr hresumed)
      simp only [takesHead, setThread, update_self] at hhead ⊢
      exact hhead
  · cases hexec

theorem Booked.freeBegin (hview : View s chain reap) (htally : Tally s chain)
    (hexec : s.freeBegin t = some s') : Booked s' := by
  obtain ⟨reap', hview'⟩ := hview.freeBegin hexec
  refine ⟨_, reap', hview', htally.step fun u j _ => ?_⟩
  -- whether or not there is a chain to detach
  have hsame : s'.si = s.si ∧ s'.kills = s.kills ∧
      (∀ v, v ≠ t → s'.thread v = s.thread v) ∧ (s'.thread t).freed = true ∧
      (s'.thread t).sigPending = (s.thread t).sigPending ∧
      (s'.thread t).resent = (s.thread t).resent ∧
      (s'.thread t).activations.map Activation.signo =
        (s.thread t).activations.map Activation.signo := by
    unfold SigSystem.freeBegin at hexec
    dsimp only at hexec
    split at hexec
    · cases hexec
      refine ⟨rfl, rfl, fun v hv => ?_, ?_⟩
      · simp [setThread, hv]
      · simp [setThread, List.map_map, comp_def]
    · cases hexec
      refine ⟨rfl, rfl, fun v hv => ?_, ?_⟩
      · simp [setThread, hv]
      · simp [setThread, List.map_map, comp_def]
    · cases hexec
  obtain ⟨hsi, hkills, hother, hfreed, hpending, hresent, hsignos⟩ := hsame
  rcases eq_or_ne u t with rfl | hu
  · refine .detached ?_ ?_ (by rw [hresent]) hfreed
    · simp only [carried, hsi, hkills, update_self, countP_signo, hsignos, List.countP_nil]
      omega
    · rw [pending, hpending]
      rfl
  · refine .same ?_ ?_ ?_ ?_
    · simp only [carried, hsi, hkills, hother u hu, update_of_ne hu]
    · simp [pending, hother u hu]
    · rw [hother u hu]
    · rw [hother u hu]

theorem Booked.exec (hbooked : Booked s) {op : SigOp} (hslip : NoSlip s op)
    (hpool : PoolOk s op) (hexec : s.exec op = some s') : Booked s' := by
  obtain ⟨chain, reap, hview, htally⟩ := hbooked
  cases op with
  | install t signo handler =>
    simp only [SigSystem.exec, SigSystem.ifRunning] at hexec
    split at hexec
    · cases hexec
    · cases hexec
      unfold rtSignalInstall
      split
      · exact ⟨chain, reap, hview.quiet rfl rfl rfl, htally.quiet rfl rfl rfl rfl⟩
      · exact ⟨chain, reap, hview, htally⟩
  | mask t signo =>
    simp only [SigSystem.exec, SigSystem.ifRunning] at hexec
    split at hexec
    · cases hexec
    · cases hexec
      exact ⟨chain, reap, hview.quiet rfl rfl rfl, htally.quiet rfl rfl rfl rfl⟩
  | unmask t signo =>
    simp only [SigSystem.exec, SigSystem.ifRunning] at hexec
    split at hexec
    · cases hexec
    · cases hexec
      exact ⟨chain, reap, (hview.unpin t signo).quiet rfl rfl rfl,
        (htally.unpin t signo).quiet rfl rfl rfl rfl⟩
  | killBegin tid sig =>
    exact ⟨chain, reap, hview.killBegin hexec, htally.killBegin hview hexec⟩
  | killAlloc i =>
    exact ⟨chain, reap, hview.killAlloc hslip hexec, htally.killAlloc hview hpool hexec⟩
  | killLink i =>
    obtain ⟨k, n, hkill, hnode, hview'⟩ := hview.killLink hexec
    exact ⟨_, reap, hview', htally.killLink hview hkill hnode hexec⟩
  | handleBegin t =>
    simp only [SigSystem.exec, SigSystem.handleBegin] at hexec
    split at hexec
    · exact Booked.handleLoop hview htally hexec
    · cases hexec
      exact ⟨chain, reap, hview, htally⟩
  | handleNext t => exact Booked.handleNext hview htally hexec
  | waitBegin t set timeout => exact Booked.waitBegin hview htally hslip hexec
  | waitEnd t timedOut => exact Booked.waitEnd hview htally hslip hexec
  | freeBegin t => exact Booked.freeBegin hview htally hexec
  | freeNode t =>
    obtain ⟨reap', hview'⟩ := hview.freeNode hexec
    refine ⟨chain, reap', hview', ?_⟩
    simp only [SigSystem.exec, SigSystem.freeNode] at hexec
    split at hexec
    next n _ =>
      cases hexec
      have hquiet : Tally (s.setThread t { s.thread t with reap := .readNext n }) chain :=
        htally.quiet rfl rfl rfl rfl
      exact ⟨hquiet.carrier, hquiet.bound⟩
    · cases hexec
  | freeNext t =>
    refine ⟨chain, reap, hview.freeNext hexec, ?_⟩
    simp only [SigSystem.exec, SigSystem.freeNext] at hexec
    split at hexec
    · cases hexec
      exact htally.quiet rfl rfl rfl rfl
    · cases hexec

theorem Booked.init (hinit : s.Initial) : Booked s := by
  refine ⟨_, _, .init hinit, fun t sig _ _ hpending => ?_, fun t sig _ => ?_⟩
  · simp [pending, (hinit.thread t).1] at hpending
  · simp [carried, (hinit.thread t).2.2.1, hinit.kills]

end Steps

def ByDesign (s : SigSystem) (op : SigOp) : Prop := NoSlip s op ∧ PoolOk s op

theorem booked_of_reachable {s : SigSystem} (hreach : sigMachine.Reachable ByDesign s) : Booked s :=
  hreach.invariant Booked (fun _ => Booked.init)
    fun _ _ _ hbooked hallowed hexec => hbooked.exec hallowed.1 hallowed.2 hexec

namespace SigSystem

/-- The nodes that the loop of `rt_thread_free_sig` has yet to free. -/
def reaping (s : SigSystem) (t : Tid) : List NodeId :=
  match (s.thread t).reap with
  | .idle => []
  | .free n => follow s.next s.poolSize (some n)
  | .readNext n => follow s.next s.poolSize (s.next n)

def holding (s : SigSystem) (t : Tid) : List NodeId :=
  (s.thread t).activations.map Activation.siNode

/-- The chains are lists of nodes, each node of the pool is in one place, and as long as
no signal is sent again while it is pending there is one node for each pending signal,
linked, in the hands of its handler or on its way. -/
structure BookkeepingOk (s : SigSystem) : Prop where
  chains : ∀ t, Chain s.next (s.thread t).siList.first (s.chain t) ∧ (s.chain t).Nodup ∧
    (∀ n ∈ s.chain t, n < s.poolSize ∧ n ∉ s.free) ∧ ∀ n, (s.thread t).siList ≠ .list n
  carrier : ∀ t sig, sig < rtSigMax → (s.thread t).freed = false →
    s.pending t sig = true → 0 < carried s s.chain t sig
  bound : ∀ t sig, sig < rtSigMax →
    carried s s.chain t sig ≤ (s.pending t sig).toNat + (s.thread t).resent sig
  single : ∀ t sig, sig < rtSigMax → (s.thread t).freed = false →
    (s.thread t).resent sig = 0 →
    (s.pending t sig = true ↔ carried s s.chain t sig = 1) ∧ carried s s.chain t sig ≤ 1
  places : (s.free ++ s.inFlight ++
      s.threads.flatMap fun t => s.chain t ++ s.holding t ++ s.reaping t).Perm
    (List.range s.poolSize)
  inUse : s.poolSize - s.free.length = s.inFlight.length +
    (s.threads.map fun t =>
      (s.chain t).length + (s.holding t).length + (s.reaping t).length).sum

end SigSystem

theorem View.reaping_eq {s : SigSystem} {chain reap : Tid → List NodeId}
    (hview : View s chain reap) (t : Tid) : s.reaping t = reap t := by
  have hlength : (reap t).length ≤ s.poolSize := by
    have hnodup := hview.nodup_owned t
    have hsub : reap t ⊆ List.range s.poolSize := by
      intro n hmem
      rw [List.mem_range]
      exact hview.lt_poolSize (mem_owned_of_reap hmem)
    have hle := (List.subperm_of_subset (List.nodup_append.mp hnodup).2.1 hsub).length_le
    rwa [List.length_range] at hle
  have hreap := hview.reaps t
  unfold reaping
  cases hcase : (s.thread t).reap with
  | idle =>
    rw [hcase] at hreap
    exact hreap.symm
  | free n =>
    rw [hcase] at hreap
    exact Chain.follow_eq hreap hlength
  | readNext n =>
    rw [hcase] at hreap
    exact hreap.1.follow_eq hlength

/-- In every run, with any number of threads and nodes. -/
theorem reachable_bookkeepingOk {s : SigSystem} (hreach : sigMachine.Reachable ByDesign s) :
    s.BookkeepingOk := by
  obtain ⟨chain, reap, hview, htally⟩ := booked_of_reachable hreach
  have hchain : s.chain = chain := funext hview.chain_eq
  have howned : (fun t => s.chain t ++ s.holding t ++ s.reaping t) = owned s chain reap := by
    funext t
    rw [hview.chain_eq, hview.reaping_eq]
    rfl
  have hplaces : (s.free ++ s.inFlight ++ s.threads.flatMap fun t =>
      s.chain t ++ s.holding t ++ s.reaping t).Perm (List.range s.poolSize) := by
    rw [List.perm_iff_count, howned]
    intro n
    rw [List.count_append, List.count_append, hview.places n, List.count_range]
  refine ⟨fun t => ?_, ?_, ?_, fun t sig hsig hlive hresent => ?_, hplaces, ?_⟩
  · rw [hchain]
    refine ⟨hview.chains t, hview.nodup_chain t, fun n hmem => ?_, hview.typed t⟩
    have hown : n ∈ owned s chain reap t := View.mem_owned_of_chain hmem
    exact ⟨hview.lt_poolSize hown, (hview.apart hown).1⟩
  · rw [hchain]
    exact htally.carrier
  · rw [hchain]
    exact htally.bound
  · rw [hchain]
    have hbound := htally.bound t sig hsig
    have hcarrier := htally.carrier t sig hsig hlive
    cases hpending : s.pending t sig with
    | true =>
      have hpos := hcarrier hpending
      rw [hpending, hresent, Bool.toNat_true] at hbound
      refine ⟨⟨fun _ => ?_, fun _ => rfl⟩, ?_⟩ <;> omega
    | false =>
      rw [hpending, hresent, Bool.toNat_false] at hbound
      refine ⟨⟨nofun, fun h => ?_⟩, ?_⟩ <;> omega
  · have hlength := hplaces.length_eq
    rw [List.length_append, List.length_append, length_flatMap_eq_sum, List.length_range] at hlength
    simp only [List.length_append] at hlength
    omega

def signalStart : SigSystem where
  threads := [1, 2]
  thread := fun _ => {
    sigPending := 0
    sigMask := 0
    siList := .null
    sigVectors := none
    signalWait := false
    waitSet := 0
    waitResult := none
    error := 0
    activations := []
    reap := .idle
    freed := false
    resent := fun _ => 0 }
  poolSize := 3
  free := [0, 1, 2]
  si := fun _ => { siSigno := 0, siCode := 0 }
  next := fun _ => none
  kills := []
  invoked := []

theorem signalStart_initial : sigMachine.init signalStart where
  threads := by decide
  pool := by decide
  kills := rfl
  invoked := rfl
  thread := fun _ => ⟨rfl, rfl, rfl, rfl, rfl, fun _ => rfl⟩

instance (s : SigSystem) : (op : SigOp) → Decidable (NoSlip s op)
  | .waitBegin t set _ => inferInstanceAs
      (Decidable ((s.thread t).sigPending &&& set ≠ 0 → s.takesHead t set = false))
  | .waitEnd t timedOut => inferInstanceAs
      (Decidable (timedOut = false → s.takesHead t (s.thread t).waitSet = false))
  | .killAlloc _ =>
    match hfree : s.free.head? with
    | none => .isTrue fun n hn => by simp [hfree] at hn
    | some n => decidable_of_iff (∀ u ∈ s.threads, (s.thread u).reap ≠ .readNext n)
        ⟨fun h m hm => Option.some.inj (hfree.symm.trans hm) ▸ h, fun h => h n hfree⟩
  | .install .. | .mask .. | .unmask .. | .killBegin .. | .killLink _ | .handleBegin _
  | .handleNext _ | .freeBegin _ | .freeNode _ | .freeNext _ => .isTrue trivial

instance (s : SigSystem) : (op : SigOp) → Decidable (PoolOk s op)
  | .killAlloc _ => inferInstanceAs (Decidable (s.free ≠ []))
  | .install .. | .mask .. | .unmask .. | .killBegin .. | .killLink _ | .handleBegin _
  | .handleNext _ | .waitBegin .. | .waitEnd .. | .freeBegin _ | .freeNode _ | .freeNext _ =>
    .isTrue trivial

instance (s : SigSystem) (op : SigOp) : Decidable (ByDesign s op) :=
  inferInstanceAs (Decidable (_ ∧ _))

/-- Signals 5, 7 and 9 to thread 1, which waits for 7 and handles 5; and thread 2 is
closed with a signal pending. -/
def signalRun : List SigOp :=
  [.install 1 5 (.user 0), .unmask 1 5, .killBegin 1 5, .killBegin 1 7, .killAlloc 1,
    .killAlloc 0, .killLink 1, .killLink 0, .waitBegin 1 (sigMaskOf 7) 0, .handleBegin 1,
    .killBegin 2 9, .killAlloc 0, .killLink 0, .freeBegin 2, .freeNode 2, .killBegin 1 9]

theorem reachable_bookkeepingOk_signalRun :
    ∃ s, sigMachine.Reachable ByDesign s ∧
      (s.free, s.holding 1, s.kills.length) = ([1, 2], [0], 1) ∧ s.BookkeepingOk := by
  have hrun : (sigMachine.run ByDesign signalStart signalRun).map
      (fun s => (s.free, s.holding 1, s.kills.length)) = some ([1, 2], [0], 1) := by
    decide +kernel
  obtain ⟨s, hreach, hend⟩ := Machine.exists_reachable_of_run signalStart_initial hrun
  exact ⟨s, hreach, hend, reachable_bookkeepingOk hreach⟩

/-- Between the sections of one `rt_thread_kill` the signal is pending and no node
carries it. -/
theorem pending_without_node_after_killBegin :
    ∃ s, sigMachine.Reachable (fun _ _ => True) s ∧ s.pending 1 5 = true ∧ s.chain 1 = [] ∧
      ¬ (s.pending 1 5 = true ↔
        (s.chain 1).countP (fun n => (s.si n).siSigno == 5) = 1) := by
  have hrun : (sigMachine.run (fun _ _ => True) signalStart [.killBegin 1 5]).map
      (fun s => (s.pending 1 5, s.chain 1)) = some (true, []) := by
    decide +kernel
  obtain ⟨s, hreach, hend⟩ := Machine.exists_reachable_of_run signalStart_initial hrun
  obtain ⟨hpending, hchain⟩ := Prod.mk.inj hend
  refine ⟨s, hreach, hpending, hchain, ?_⟩
  simp [hpending, hchain]

end RtThread.Signal
