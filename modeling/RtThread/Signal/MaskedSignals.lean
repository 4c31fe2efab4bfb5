import RtThread.Signal.Bookkeeping

namespace RtThread.Signal

open Function RtThread.Lib SigSystem

structure Kept (s : SigSystem) (chain : Tid → List NodeId) (t : Tid)
    (p : NodeId × SigInfo) : Prop where
  linked : p.1 ∈ chain t
  info : s.si p.1 = p.2
  pending : s.pending t p.2.siSigno = true
  masked : s.unmasked t p.2.siSigno = false

structure Pinned (s : SigSystem) (chain : Tid → List NodeId) : Prop where
  kept : ∀ t, ∀ a ∈ (s.thread t).activations, ∀ p ∈ a.pinned, Kept s chain t p
  own : ∀ t, ∀ a ∈ (s.thread t).activations, ∀ p ∈ a.pinned, p.2.siSigno ≠ a.signo
  outer : ∀ t, (s.thread t).activations.Pairwise fun a b =>
    ∀ p ∈ b.pinned, p.2.siSigno ≠ a.signo
  invoked : ∀ i ∈ s.invoked, i.pending.getLsbD i.signo = true ∧ i.mask.getLsbD i.signo = true

def HeadOk (s : SigSystem) (t : Tid) (pending : SigSet) : Prop :=
  pending &&& (s.thread t).sigMask ≠ 0 → ∀ n, (s.thread t).siList = .node n →
    pending.getLsbD (s.si n).siSigno = true ∧ s.unmasked t (s.si n).siSigno = true

/-- At every turn of the loop in `rt_thread_handle_sig` it is. -/
def HandlesHead (s : SigSystem) : SigOp → Prop
  | .handleBegin t =>
    (s.thread t).signalWait = false → HeadOk s t (s.thread t).sigPending
  | .handleNext t => ∀ a rest, (s.thread t).activations = a :: rest →
      HeadOk s t ((s.thread t).sigPending &&& ~~~sigMaskOf a.signo)
  | _ => True

namespace Pinned

variable {s s' : SigSystem} {chain chain' reap : Tid → List NodeId} {t : Tid} {n : NodeId}

section

variable (hpinned : Pinned s chain)
include hpinned

theorem frame (hactivations : ∀ u, (s'.thread u).activations = (s.thread u).activations)
    (hinvoked : s'.invoked = s.invoked)
    (hkept : ∀ u, ∀ a ∈ (s.thread u).activations, ∀ p ∈ a.pinned, Kept s chain u p →
      Kept s' chain' u p) : Pinned s' chain' where
  kept := fun u a ha p hp => by
    rw [hactivations u] at ha
    exact hkept u a ha p hp (hpinned.kept u a ha p hp)
  own := fun u a ha => by
    rw [hactivations u] at ha
    exact hpinned.own u a ha
  outer := fun u => by
    rw [hactivations u]
    exact hpinned.outer u
  invoked := by
    rw [hinvoked]
    exact hpinned.invoked

/-- One thread has its handlers' calls left alone, and loses neither nodes nor pending
signals nor masks. -/
theorem quiet {thread : SigThread} (hactivations : thread.activations = (s.thread t).activations)
    (hpending : ∀ i, (s.thread t).sigPending.getLsbD i = true →
      thread.sigPending.getLsbD i = true)
    (hmask : ∀ i, (s.thread t).sigMask.getLsbD i = false →
      thread.sigMask.getLsbD i = false) : Pinned (s.setThread t thread) chain := by
  refine hpinned.frame (fun u => ?_) rfl fun u a _ p _ hkept => ?_
  · rcases eq_or_ne u t with rfl | hu
    · simpa [setThread] using hactivations
    · simp [setThread, hu]
  · rcases eq_or_ne u t with rfl | hu
    · refine ⟨hkept.linked, hkept.info, ?_, ?_⟩
      · simpa [pending, setThread] using hpending _ hkept.pending
      · simpa [unmasked, setThread] using hmask _ hkept.masked
    · refine ⟨hkept.linked, hkept.info, ?_, ?_⟩
      · simpa [pending, setThread, hu] using hkept.pending
      · simpa [unmasked, setThread, hu] using hkept.masked

theorem unpin (t : Tid) (signo : Nat) : Pinned (s.unpin t signo) chain ∧
      ∀ a ∈ ((s.unpin t signo).thread t).activations, ∀ p ∈ a.pinned, p.2.siSigno ≠ signo := by
  have hself : ((s.unpin t signo).thread t).activations =
      (s.thread t).activations.map fun a =>
        { a with pinned := a.pinned.filter fun p => p.2.siSigno ≠ signo } := by
    simp [SigSystem.unpin, SigSystem.setThread]
  have hothers : ∀ u, u ≠ t → (s.unpin t signo).thread u = s.thread u := by
    intro u hu
    simp [SigSystem.unpin, SigSystem.setThread, hu]
  have hsame : ∀ u p, Kept s chain u p → Kept (s.unpin t signo) chain u p := by
    intro u p hkept
    rcases eq_or_ne u t with rfl | hu
    · refine ⟨hkept.linked, hkept.info, ?_, ?_⟩
      · simpa [SigSystem.pending, SigSystem.unpin, SigSystem.setThread] using hkept.pending
      · simpa [SigSystem.unmasked, SigSystem.unpin, SigSystem.setThread] using hkept.masked
    · refine ⟨hkept.linked, hkept.info, ?_, ?_⟩
      · simpa [SigSystem.pending, hothers u hu] using hkept.pending
      · simpa [SigSystem.unmasked, hothers u hu] using hkept.masked
  refine ⟨⟨fun u a ha p hp => ?_, fun u a ha p hp => ?_, fun u => ?_, hpinned.invoked⟩, ?_⟩
  · rcases eq_or_ne u t with rfl | hu
    · rw [hself] at ha
      obtain ⟨b, hb, rfl⟩ := List.mem_map.mp ha
      exact hsame u p (hpinned.kept u b hb p (List.mem_filter.mp hp).1)
    · rw [hothers u hu] at ha
      exact hsame u p (hpinned.kept u a ha p hp)
  · rcases eq_or_ne u t with rfl | hu
    · rw [hself] at ha
      obtain ⟨b, hb, rfl⟩ := List.mem_map.mp ha
      exact hpinned.own u b hb p (List.mem_filter.mp hp).1
    · rw [hothers u hu] at ha
      exact hpinned.own u a ha p hp
  · rcases eq_or_ne u t with rfl | hu
    · rw [hself, List.pairwise_map]
      exact (hpinned.outer u).imp fun hab p hp => hab p (List.mem_filter.mp hp).1
    · rw [hothers u hu]
      exact hpinned.outer u
  · intro a ha p hp
    rw [hself] at ha
    obtain ⟨b, hb, rfl⟩ := List.mem_map.mp ha
    simpa using (List.mem_filter.mp hp).2

/-- The next handler is called: its signal is not masked, so that no node that is kept
goes to it. -/
theorem handleLoop (hview : View s chain reap)
    {pinned : List (NodeId × SigInfo)} (hhead : HeadOk s t (s.thread t).sigPending)
    (hkept : ∀ p ∈ pinned, Kept s chain t p) (hexec : s.handleLoop t pinned = some s') :
    ∃ chain', View s' chain' reap ∧ Pinned s' chain' ∧ ∀ p ∈ pinned, Kept s' chain' t p := by
  rcases hview.handleLoop_cases hexec with
    rfl | ⟨n, rest, siList, handler, hchain, hlist, htail, htyped, hset, rfl⟩
  · exact ⟨chain, hview, hpinned, hkept⟩
  · obtain ⟨hpending, hunmasked⟩ := hhead hset n hlist
    have hne : ∀ u p, Kept s chain u p → u = t → p.2.siSigno ≠ (s.si n).siSigno := by
      rintro u p hp rfl heq
      have hmasked := hp.masked
      rw [heq, hunmasked] at hmasked
      cases hmasked
    have hsame : ∀ u p, Kept s chain u p →
        Kept { s.setThread t { s.thread t with
            siList := siList
            activations :=
              { siNode := n, signo := (s.si n).siSigno, pinned } :: (s.thread t).activations } with
          invoked := {
            tid := t
            signo := (s.si n).siSigno
            handler := handler
            pending := (s.thread t).sigPending
            mask := (s.thread t).sigMask } :: s.invoked } (update chain t rest) u p := by
      intro u p hp
      rcases eq_or_ne u t with rfl | hu
      · refine ⟨?_, hp.info, ?_, ?_⟩
        · have hmem := hp.linked
          rw [hchain, List.mem_cons] at hmem
          rw [update_self]
          refine hmem.resolve_left fun heq => hne u p hp rfl ?_
          rw [← heq, hp.info]
        · simpa [pending, setThread] using hp.pending
        · simpa [unmasked, setThread] using hp.masked
      · refine ⟨?_, hp.info, ?_, ?_⟩
        · rw [update_of_ne hu]
          exact hp.linked
        · simpa [pending, setThread, hu] using hp.pending
        · simpa [unmasked, setThread, hu] using hp.masked
    refine ⟨update chain t rest, hview.pop _ hchain htail htyped rfl rfl,
      ⟨fun u a ha p hp => hsame u p ?_, fun u a ha p hp => ?_, fun u => ?_, fun i hi => ?_⟩,
      fun p hp => hsame t p (hkept p hp)⟩
    · rcases eq_or_ne u t with rfl | hu
      · simp only [setThread, update_self] at ha
        rcases List.mem_cons.mp ha with rfl | ha
        · exact hkept p hp
        · exact hpinned.kept u a ha p hp
      · simp only [setThread, update_of_ne hu] at ha
        exact hpinned.kept u a ha p hp
    · rcases eq_or_ne u t with rfl | hu
      · simp only [setThread, update_self] at ha
        rcases List.mem_cons.mp ha with rfl | ha
        · exact hne u p (hkept p hp) rfl
        · exact hpinned.own u a ha p hp
      · simp only [setThread, update_of_ne hu] at ha
        exact hpinned.own u a ha p hp
    · rcases eq_or_ne u t with rfl | hu
      · simp only [setThread, update_self]
        refine List.pairwise_cons.mpr ⟨fun b hb p hp => ?_, hpinned.outer u⟩
        exact hne u p (hpinned.kept u b hb p hp) rfl
      · simp only [setThread, update_of_ne hu]
        exact hpinned.outer u
    · rcases List.mem_cons.mp hi with rfl | hi
      · exact ⟨hpending, hunmasked⟩
      · exact hpinned.invoked i hi

theorem handleReturn (hview : View s chain reap) {a : Activation}
    {rest : List Activation} (hactivations : (s.thread t).activations = a :: rest) :
    Pinned (s.handleReturn t a rest) chain ∧
      ∀ b ∈ a :: rest, ∀ p ∈ b.pinned, Kept (s.handleReturn t a rest) chain t p := by
  have hsig := hview.held t a (by simp [hactivations])
  have hself : ((s.handleReturn t a rest).thread t).activations = rest := by
    simp [SigSystem.handleReturn, SigSystem.rtMpFree, SigSystem.setThread]
  have hothers : ∀ u, u ≠ t → (s.handleReturn t a rest).thread u = s.thread u := by
    intro u hu
    simp [SigSystem.handleReturn, SigSystem.rtMpFree, SigSystem.setThread, hu]
  obtain ⟨houter, hinner⟩ := List.pairwise_cons.mp (hactivations ▸ hpinned.outer t)
  have hkept : ∀ b ∈ a :: rest, ∀ p ∈ b.pinned, Kept (s.handleReturn t a rest) chain t p := by
    intro b hb p hp
    have hold := hpinned.kept t b (hactivations ▸ hb) p hp
    have hne : p.2.siSigno ≠ a.signo := by
      rcases List.mem_cons.mp hb with rfl | hb
      · exact hpinned.own t b (by simp [hactivations]) p hp
      · exact houter b hb p hp
    refine ⟨hold.linked, hold.info, ?_, ?_⟩
    · have hbit : (s.thread t).sigPending.getLsbD p.2.siSigno = true := hold.pending
      simp [SigSystem.pending, SigSystem.handleReturn, SigSystem.rtMpFree, SigSystem.setThread,
        pending_clear hsig, hbit, hne]
    · simpa [SigSystem.unmasked, SigSystem.handleReturn, SigSystem.rtMpFree,
        SigSystem.setThread] using hold.masked
  refine ⟨⟨fun u b hb p hp => ?_, fun u b hb p hp => ?_, fun u => ?_, hpinned.invoked⟩, hkept⟩
  · rcases eq_or_ne u t with rfl | hu
    · rw [hself] at hb
      exact hkept b (List.mem_cons_of_mem a hb) p hp
    · rw [hothers u hu] at hb
      have hold := hpinned.kept u b hb p hp
      refine ⟨hold.linked, hold.info, ?_, ?_⟩
      · simpa [SigSystem.pending, hothers u hu] using hold.pending
      · simpa [SigSystem.unmasked, hothers u hu] using hold.masked
  · rcases eq_or_ne u t with rfl | hu
    · rw [hself] at hb
      exact hpinned.own u b (by simp [hactivations, hb]) p hp
    · rw [hothers u hu] at hb
      exact hpinned.own u b hb p hp
  · rcases eq_or_ne u t with rfl | hu
    · rw [hself]
      exact hinner
    · rw [hothers u hu]
      exact hpinned.outer u

theorem killBegin (hview : View s chain reap) {tid : Tid}
    {sig : Nat} (hexec : s.killBegin tid sig = some s') : Pinned s' chain := by
  -- what is common to the two ways a signal can be sent
  have hadd : ∀ {thread : SigThread}, thread.activations = (s.thread tid).activations →
      (∀ i, (s.thread tid).sigPending.getLsbD i = true → thread.sigPending.getLsbD i = true) →
      thread.sigMask = (s.thread tid).sigMask →
      Pinned ((s.setThread tid thread).addKill tid sig) chain := by
    intro thread hactivations hpending hmask
    have hquiet : Pinned (s.setThread tid thread) chain :=
      hpinned.quiet hactivations hpending fun i hi => hmask ▸ hi
    exact hquiet.frame (fun _ => rfl) rfl fun u a _ p _ hkept =>
      ⟨hkept.linked, hkept.info, hkept.pending, hkept.masked⟩
  unfold SigSystem.killBegin at hexec
  split at hexec
  next htid =>
    split at hexec
    · split at hexec
      · split at hexec
        · cases hexec
          exact hadd rfl (fun _ h => h) rfl
        · cases hexec
        next n hlist => exact absurd hlist (hview.typed tid n)
      · cases hexec
        refine hadd rfl (fun i hi => ?_) rfl
        simp [BitVec.getLsbD_or, hi]
    · cases hexec
      exact hpinned
  · cases hexec

theorem killAlloc (hview : View s chain reap) {i : Nat}
    (hexec : s.killAlloc i = some s') : Pinned s' chain := by
  unfold SigSystem.killAlloc at hexec
  split at hexec
  next tid sig hkill =>
    split at hexec
    · cases hexec
      exact hpinned.frame (fun _ => rfl) rfl fun u a _ p _ hkept =>
        ⟨hkept.linked, hkept.info, hkept.pending, hkept.masked⟩
    next n free hfree =>
      cases hexec
      refine hpinned.frame (fun _ => rfl) rfl fun u a _ p _ hkept =>
        ⟨hkept.linked, ?_, hkept.pending, hkept.masked⟩
      have hne : p.1 ≠ n := by
        intro heq
        exact (hview.apart (View.mem_owned_of_chain hkept.linked)).1 (by simp [heq, hfree])
      simp only [update_of_ne hne]
      exact hkept.info
  · cases hexec

theorem killLink {i : Nat} {k : Kill} {n : NodeId} (hexec : s.killLink i = some s') :
    Pinned s' (update chain k.tid (chain k.tid ++ [n])) := by
  have hgrow : ∀ u m, m ∈ chain u →
      m ∈ update chain k.tid (chain k.tid ++ [n]) u := by
    intro u m hm
    rcases eq_or_ne u k.tid with rfl | hu
    · rw [update_self]
      exact List.mem_append_left _ hm
    · rw [update_of_ne hu]
      exact hm
  unfold SigSystem.killLink at hexec
  split at hexec
  next tid sig m hkill =>
    split at hexec
    · cases hexec
      have hquiet : Pinned (s.setThread tid { s.thread tid with siList := .node m }) chain :=
        hpinned.quiet rfl (fun _ h => h) fun _ h => h
      exact hquiet.frame (fun _ => rfl) rfl fun u a _ p _ hkept =>
        ⟨hgrow u p.1 hkept.linked, hkept.info, hkept.pending, hkept.masked⟩
    · cases hexec
    · split at hexec
      · cases hexec
      · split at hexec
        · cases hexec
          exact hpinned.frame (fun _ => rfl) rfl fun u a _ p _ hkept =>
            ⟨hgrow u p.1 hkept.linked, hkept.info, hkept.pending, hkept.masked⟩
        · cases hexec
  · cases hexec

theorem handleBegin (hview : View s chain reap)
    (hhead : HandlesHead s (.handleBegin t)) (hexec : s.handleBegin t = some s') :
    ∃ chain', View s' chain' reap ∧ Pinned s' chain' := by
  unfold SigSystem.handleBegin at hexec
  dsimp only at hexec
  split at hexec
  next hguard =>
    have hmasked : ∀ p ∈ s.maskedNodes t, Kept s chain t p := by
      intro p hp
      obtain ⟨hmem, hfilter⟩ := List.mem_filter.mp hp
      obtain ⟨n, hn, rfl⟩ := List.mem_map.mp hmem
      rw [Bool.and_eq_true, Bool.not_eq_true'] at hfilter
      exact ⟨hview.chain_eq t ▸ hn, rfl, hfilter.1, hfilter.2⟩
    obtain ⟨chain', hview', hpinned', -⟩ :=
      hpinned.handleLoop hview (hhead hguard.2) hmasked hexec
    exact ⟨chain', hview', hpinned'⟩
  · cases hexec
    exact ⟨chain, hview, hpinned⟩

theorem handleNext (hview : View s chain reap)
    (hhead : HandlesHead s (.handleNext t)) {a : Activation} {rest : List Activation}
    (hactivations : (s.thread t).activations = a :: rest)
    (hexec : s.handleNext t = some s') :
    ∃ chain', View s' chain' reap ∧ Pinned s' chain' ∧
      ∀ p ∈ a.pinned, Kept s' chain' t p := by
  unfold SigSystem.handleNext at hexec
  rw [hactivations] at hexec
  split at hexec
  next heq =>
    cases heq
    obtain ⟨hreturn, hkept⟩ := hpinned.handleReturn hview hactivations
    refine hreturn.handleLoop (hview.handleReturn hactivations) ?_
      (hkept a List.mem_cons_self) hexec
    have hlast := hhead a rest hactivations
    simpa [HeadOk, SigSystem.handleReturn, SigSystem.rtMpFree, SigSystem.setThread,
      SigSystem.unmasked] using hlast
  · cases hexec

theorem takePending (hview : View s chain reap) {set : SigSet}
    (hhead : s.takesHead t set = false) (hexec : s.takePending t set = some s') :
    ∃ chain', View s' chain' reap ∧ Pinned s' chain' := by
  rcases hview.takePending_cases hexec with
    rfl | ⟨pre, n, post, done, hchain, hset, rfl, hcase⟩
  · exact ⟨chain, hview.quiet rfl rfl rfl, hpinned.quiet rfl (fun _ h => h) fun _ h => h⟩
  · have hsig : (s.si n).siSigno < rtSigMax := hview.signos t n (by simp [hchain])
    have hunpin := hview.unpin t (s.si n).siSigno
    obtain ⟨hpins, hgone⟩ := hpinned.unpin t (s.si n).siSigno
    -- what is kept has another signal
    have hframe : ∀ {s'' : SigSystem} {chain'' : Tid → List NodeId} {thread : SigThread},
        s''.si = s.si → s''.invoked = s.invoked →
        s''.thread = update (s.unpin t (s.si n).siSigno).thread t thread →
        thread.activations = ((s.unpin t (s.si n).siSigno).thread t).activations →
        thread.sigPending = (s.thread t).sigPending &&& ~~~sigMaskOf (s.si n).siSigno →
        thread.sigMask = (s.thread t).sigMask →
        (∀ u m, m ∈ chain u → m ≠ n → m ∈ chain'' u) → Pinned s'' chain'' := by
      intro s'' chain'' thread hsi hinvoked hthread hactivations hpending hmask hlinked
      have hothers : ∀ u, u ≠ t → s''.thread u = (s.unpin t (s.si n).siSigno).thread u := by
        intro u hu
        rw [hthread, update_of_ne hu]
      have hself : s''.thread t = thread := by rw [hthread, update_self]
      refine hpins.frame (fun u => ?_) hinvoked fun u a ha p hp hkept => ?_
      · rcases eq_or_ne u t with rfl | hu
        · rw [hself, hactivations]
        · rw [hothers u hu]
      · have hinfo : s.si p.1 = p.2 := hkept.info
        rcases eq_or_ne u t with rfl | hu
        · have hne : p.2.siSigno ≠ (s.si n).siSigno := hgone a ha p hp
          have hbit : (s.thread u).sigPending.getLsbD p.2.siSigno = true := by
            simpa [SigSystem.pending, SigSystem.unpin, SigSystem.setThread] using hkept.pending
          have hmasked : (s.thread u).sigMask.getLsbD p.2.siSigno = false := by
            simpa [SigSystem.unmasked, SigSystem.unpin, SigSystem.setThread] using hkept.masked
          refine ⟨hlinked u p.1 hkept.linked ?_, hsi ▸ hinfo, ?_, ?_⟩
          · rintro heq
            rw [heq] at hinfo
            exact hne (by rw [hinfo])
          · simp [SigSystem.pending, hself, hpending, pending_clear hsig, hbit, hne]
          · simp [SigSystem.unmasked, hself, hmask, hmasked]
        · refine ⟨hlinked u p.1 hkept.linked ?_, hsi ▸ hinfo, ?_, ?_⟩
          · rintro heq
            have hown : n ∈ owned s chain reap t := View.mem_owned_of_chain (by simp [hchain])
            exact (hview.apart hown).2.2 u hu (View.mem_owned_of_chain (heq ▸ hkept.linked))
          · simpa [SigSystem.pending, hothers u hu] using hkept.pending
          · simpa [SigSystem.unmasked, hothers u hu] using hkept.masked
    have hlinked : ∀ u m, m ∈ chain u → m ≠ n →
        m ∈ update chain t (pre ++ post) u := by
      intro u m hm hne
      rcases eq_or_ne u t with rfl | hu
      · rw [hchain] at hm
        rw [update_self]
        simpa [hne] using hm
      · rw [update_of_ne hu]
        exact hm
    rcases hcase with ⟨prev, hprev, rfl⟩ | ⟨rfl, siList, hnull, rfl⟩
    · refine ⟨_, hunpin.unlinkMiddle hchain hprev rfl rfl rfl,
        hframe rfl rfl rfl rfl rfl ?_ hlinked⟩
      simp [SigSystem.unpin, SigSystem.setThread]
    · obtain ⟨hend, honly⟩ := hview.only_of_takesHead hchain hset hhead
      have hpost : post = [] := by
        rw [hchain] at honly
        simpa using honly
      rw [hpost] at hlinked
      refine ⟨_, hunpin.unlinkOnly honly (hnull hend) rfl rfl,
        hframe rfl rfl rfl rfl rfl ?_ hlinked⟩
      simp [SigSystem.unpin, SigSystem.setThread]

theorem freeBegin (hexec : s.freeBegin t = some s') : Pinned s' (update chain t []) := by
  -- whether or not there is a chain to detach
  have hshape : s'.si = s.si ∧ s'.invoked = s.invoked ∧
      (∀ v, v ≠ t → s'.thread v = s.thread v) ∧
      (s'.thread t).activations = (s.thread t).activations.map fun a =>
        { a with pinned := [] } := by
    unfold SigSystem.freeBegin at hexec
    dsimp only at hexec
    split at hexec
    · cases hexec
      exact ⟨rfl, rfl, fun v hv => by simp [SigSystem.setThread, hv], by simp [SigSystem.setThread]⟩
    · cases hexec
      exact ⟨rfl, rfl, fun v hv => by simp [SigSystem.setThread, hv], by simp [SigSystem.setThread]⟩
    · cases hexec
  obtain ⟨hsi, hinvoked, hothers, hself⟩ := hshape
  refine ⟨fun u a ha p hp => ?_, fun u a ha p hp => ?_, fun u => ?_, ?_⟩
  · rcases eq_or_ne u t with rfl | hu
    · rw [hself] at ha
      obtain ⟨b, -, rfl⟩ := List.mem_map.mp ha
      cases hp
    · rw [hothers u hu] at ha
      have hold := hpinned.kept u a ha p hp
      refine ⟨?_, hsi ▸ hold.info, ?_, ?_⟩
      · rw [update_of_ne hu]
        exact hold.linked
      · simpa [SigSystem.pending, hothers u hu] using hold.pending
      · simpa [SigSystem.unmasked, hothers u hu] using hold.masked
  · rcases eq_or_ne u t with rfl | hu
    · rw [hself] at ha
      obtain ⟨b, -, rfl⟩ := List.mem_map.mp ha
      cases hp
    · rw [hothers u hu] at ha
      exact hpinned.own u a ha p hp
  · rcases eq_or_ne u t with rfl | hu
    · rw [hself, List.pairwise_map]
      exact (hpinned.outer u).imp fun _ p hp => by cases hp
    · rw [hothers u hu]
      exact hpinned.outer u
  · rw [hinvoked]
    exact hpinned.invoked

end

theorem unmask_other (word : SigSet) {signo i : Nat} (hi : i ≠ signo)
    (hclear : word.getLsbD i = false) : (word ||| sigMaskOf signo).getLsbD i = false := by
  rw [BitVec.getLsbD_or, hclear, Bool.false_or, sigMaskOf, BitVec.getLsbD_shiftLeft,
    BitVec.getLsbD_one]
  simp only [Bool.and_eq_false_iff, Bool.not_eq_false', decide_eq_true_eq, decide_eq_false_iff_not]
  omega

theorem exec (hpinned : Pinned s chain) (hview : View s chain reap) {op : SigOp}
    (hslip : NoSlip s op) (hhead : HandlesHead s op) (hexec : s.exec op = some s') :
    ∃ chain' reap', View s' chain' reap' ∧ Pinned s' chain' := by
  cases op with
  | install t signo handler =>
    simp only [SigSystem.exec, SigSystem.ifRunning] at hexec
    split at hexec
    · cases hexec
    · cases hexec
      unfold rtSignalInstall
      split
      · exact ⟨chain, reap, hview.quiet rfl rfl rfl, hpinned.quiet rfl (fun _ h => h) fun _ h => h⟩
      · exact ⟨chain, reap, hview, hpinned⟩
  | mask t signo =>
    simp only [SigSystem.exec, SigSystem.ifRunning] at hexec
    split at hexec
    · cases hexec
    · cases hexec
      refine ⟨chain, reap, hview.quiet rfl rfl rfl, hpinned.quiet rfl (fun _ h => h) fun i hi => ?_⟩
      simp [BitVec.getLsbD_and, hi]
  | unmask t signo =>
    simp only [SigSystem.exec, SigSystem.ifRunning] at hexec
    split at hexec
    · cases hexec
    · cases hexec
      obtain ⟨hpins, hgone⟩ := hpinned.unpin t signo
      refine ⟨chain, reap, (hview.unpin t signo).quiet rfl rfl rfl,
        hpins.frame (fun u => ?_) rfl fun u a ha p hp hkept => ?_⟩
      · rcases eq_or_ne u t with rfl | hu
        · simp [rtSignalUnmask, SigSystem.setThread]
        · simp [rtSignalUnmask, SigSystem.setThread, hu]
      · rcases eq_or_ne u t with rfl | hu
        · refine ⟨hkept.linked, hkept.info, ?_, ?_⟩
          · simpa [rtSignalUnmask, SigSystem.pending, SigSystem.setThread] using
              hkept.pending
          · have hclear : ((s.unpin u signo).thread u).sigMask.getLsbD p.2.siSigno = false :=
              hkept.masked
            simpa [rtSignalUnmask, SigSystem.unmasked, SigSystem.setThread] using
              unmask_other _ (hgone a ha p hp) hclear
        · refine ⟨hkept.linked, hkept.info, ?_, ?_⟩
          · simpa [rtSignalUnmask, SigSystem.pending, SigSystem.setThread, hu] using
              hkept.pending
          · simpa [rtSignalUnmask, SigSystem.unmasked, SigSystem.setThread, hu]
              using hkept.masked
  | killBegin tid sig =>
    exact ⟨chain, reap, hview.killBegin hexec, hpinned.killBegin hview hexec⟩
  | killAlloc i =>
    exact ⟨chain, reap, hview.killAlloc hslip hexec, hpinned.killAlloc hview hexec⟩
  | killLink i =>
    obtain ⟨k, n, -, -, hview'⟩ := hview.killLink hexec
    exact ⟨_, reap, hview', hpinned.killLink hexec⟩
  | handleBegin t =>
    obtain ⟨chain', hview', hpinned'⟩ := hpinned.handleBegin hview hhead hexec
    exact ⟨chain', reap, hview', hpinned'⟩
  | handleNext t =>
    cases hactivations : (s.thread t).activations with
    | nil =>
      simp only [SigSystem.exec, SigSystem.handleNext, hactivations] at hexec
      split at hexec
      next heq => cases heq
      · cases hexec
    | cons a rest =>
      obtain ⟨chain', hview', hpinned', -⟩ :=
        hpinned.handleNext hview hhead hactivations hexec
      exact ⟨chain', reap, hview', hpinned'⟩
  | waitBegin t set timeout =>
    simp only [SigSystem.exec, SigSystem.waitBegin] at hexec
    split at hexec
    · cases hexec
    · split at hexec
      · cases hexec
        exact ⟨chain, reap, hview.quiet rfl rfl rfl, hpinned.quiet rfl (fun _ h => h) fun _ h => h⟩
      · split at hexec
        next hpending =>
          obtain ⟨chain', hview', hpinned'⟩ :=
            hpinned.takePending hview (hslip hpending) hexec
          exact ⟨chain', reap, hview', hpinned'⟩
        · split at hexec
          · cases hexec
            exact ⟨chain, reap, hview.quiet rfl rfl rfl,
              hpinned.quiet rfl (fun _ h => h) fun _ h => h⟩
          · cases hexec
            exact ⟨chain, reap, hview.quiet rfl rfl rfl,
              hpinned.quiet rfl (fun _ h => h) fun _ h => h⟩
  | waitEnd t timedOut =>
    simp only [SigSystem.exec, SigSystem.waitEnd] at hexec
    split at hexec
    · have hawake : View (s.setThread t { s.thread t with signalWait := false }) chain reap :=
        hview.quiet rfl rfl rfl
      have hsame : Pinned (s.setThread t { s.thread t with signalWait := false }) chain :=
        hpinned.quiet rfl (fun _ h => h) fun _ h => h
      split at hexec
      · cases hexec
        exact ⟨chain, reap, hawake.quiet rfl rfl rfl, hsame.quiet rfl (fun _ h => h) fun _ h => h⟩
      next hresumed =>
        have htakes := hslip (Bool.eq_false_iff.mpr hresumed)
        obtain ⟨chain', hview', hpinned'⟩ := hsame.takePending hawake (by
          simp only [takesHead, SigSystem.setThread, update_self]
            at htakes ⊢
          exact htakes) hexec
        exact ⟨chain', reap, hview', hpinned'⟩
    · cases hexec
  | freeBegin t =>
    obtain ⟨reap', hview'⟩ := hview.freeBegin hexec
    exact ⟨_, reap', hview', hpinned.freeBegin hexec⟩
  | freeNode t =>
    obtain ⟨reap', hview'⟩ := hview.freeNode hexec
    refine ⟨chain, reap', hview', ?_⟩
    simp only [SigSystem.exec, SigSystem.freeNode] at hexec
    split at hexec
    next n _ =>
      cases hexec
      have hquiet : Pinned (s.setThread t { s.thread t with reap := .readNext n }) chain :=
        hpinned.quiet rfl (fun _ h => h) fun _ h => h
      exact hquiet.frame (fun _ => rfl) rfl fun u a _ p _ hkept =>
        ⟨hkept.linked, hkept.info, hkept.pending, hkept.masked⟩
    · cases hexec
  | freeNext t =>
    refine ⟨chain, reap, hview.freeNext hexec, ?_⟩
    simp only [SigSystem.exec, SigSystem.freeNext] at hexec
    split at hexec
    · cases hexec
      exact hpinned.quiet rfl (fun _ h => h) fun _ h => h
    · cases hexec

theorem init (hinit : s.Initial) : Pinned s chain where
  kept := fun t a ha => by
    rw [(hinit.thread t).2.2.1] at ha
    cases ha
  own := fun t a ha => by
    rw [(hinit.thread t).2.2.1] at ha
    cases ha
  outer := fun t => by
    rw [(hinit.thread t).2.2.1]
    exact .nil
  invoked := fun i hi => by
    rw [hinit.invoked] at hi
    cases hi

end Pinned

def HandlesUnmasked (s : SigSystem) (op : SigOp) : Prop := NoSlip s op ∧ HandlesHead s op

theorem pinned_of_reachable {s : SigSystem} (hreach : sigMachine.Reachable HandlesUnmasked s) :
    ∃ chain reap, View s chain reap ∧ Pinned s chain := by
  refine hreach.invariant (fun s => ∃ chain reap, View s chain reap ∧ Pinned s chain)
    (fun s hinit => ⟨_, _, .init hinit, .init hinit⟩) fun s op s' hinv hallowed hexec => ?_
  obtain ⟨chain, reap, hview, hpinned⟩ := hinv
  exact hpinned.exec hview hallowed.1 hallowed.2 hexec

/-- Handlers were called for signals pending and not masked, and the signals pending and
masked when a call of `rt_thread_handle_sig` began are so, with the same contents, while
its handlers run and when it returns. -/
structure SigSystem.MaskOk (s : SigSystem) : Prop where
  invoked : ∀ i ∈ s.invoked, i.pending.getLsbD i.signo = true ∧ i.mask.getLsbD i.signo = true
  kept : ∀ t, ∀ a ∈ (s.thread t).activations, ∀ p ∈ a.pinned, Kept s s.chain t p
  returned : ∀ t a rest s', (s.thread t).activations = a :: rest →
    HandlesHead s (.handleNext t) → s.exec (.handleNext t) = some s' →
    ∀ p ∈ a.pinned, Kept s' s'.chain t p

/-- In every run, whatever the order in which the signals became pending. -/
theorem reachable_maskOk {s : SigSystem} (hreach : sigMachine.Reachable HandlesUnmasked s) :
    s.MaskOk := by
  obtain ⟨chain, reap, hview, hpinned⟩ := pinned_of_reachable hreach
  refine ⟨hpinned.invoked, ?_, fun t a rest s' hactivations hhead hexec p hp => ?_⟩
  · rw [show s.chain = chain from funext hview.chain_eq]
    exact hpinned.kept
  · obtain ⟨chain', hview', -, hkept⟩ := hpinned.handleNext hview hhead hactivations hexec
    rw [show s'.chain = chain' from funext hview'.chain_eq]
    exact hkept p hp

instance (s : SigSystem) (t : Tid) (pending : SigSet) : Decidable (HeadOk s t pending) :=
  match hlist : (s.thread t).siList with
  | .node n => decidable_of_iff (pending &&& (s.thread t).sigMask ≠ 0 →
      pending.getLsbD (s.si n).siSigno = true ∧ s.unmasked t (s.si n).siSigno = true)
      ⟨fun h hset m hm => by cases hlist.symm.trans hm; exact h hset, fun h hset => h hset n hlist⟩
  | .null => .isTrue fun _ m hm => by cases hlist.symm.trans hm
  | .list _ => .isTrue fun _ m hm => by cases hlist.symm.trans hm

instance (s : SigSystem) : (op : SigOp) → Decidable (HandlesHead s op)
  | .handleBegin t => inferInstanceAs
      (Decidable ((s.thread t).signalWait = false → HeadOk s t (s.thread t).sigPending))
  | .handleNext t =>
    match hactivations : (s.thread t).activations with
    | [] => .isTrue fun a rest h => by cases hactivations.symm.trans h
    | a :: rest =>
      decidable_of_iff (HeadOk s t ((s.thread t).sigPending &&& ~~~sigMaskOf a.signo))
        ⟨fun h b rest' hb => by cases hactivations.symm.trans hb; exact h,
          fun h => h a rest hactivations⟩
  | .install .. | .mask .. | .unmask .. | .killBegin .. | .killAlloc _ | .killLink _
  | .waitBegin .. | .waitEnd .. | .freeBegin _ | .freeNode _ | .freeNext _ => .isTrue trivial

instance (s : SigSystem) (op : SigOp) : Decidable (HandlesUnmasked s op) :=
  inferInstanceAs (Decidable (_ ∧ _))

def maskedRun : List SigOp :=
  [.install 1 5 (.user 0), .unmask 1 5, .killBegin 1 5, .killAlloc 0, .killLink 0,
    .killBegin 1 7, .killAlloc 0, .killLink 0, .handleBegin 1]

theorem reachable_maskOk_maskedRun :
    ∃ s, sigMachine.Reachable HandlesUnmasked s ∧
      ((s.thread 1).activations.map fun a => (a.signo, a.pinned.map Prod.fst)) = [(5, [1])] ∧
      s.MaskOk := by
  have hrun : (sigMachine.run HandlesUnmasked signalStart maskedRun).map
      (fun s => (s.thread 1).activations.map fun a => (a.signo, a.pinned.map Prod.fst)) =
      some [(5, [1])] := by
    decide +kernel
  obtain ⟨s, hreach, hend⟩ := Machine.exists_reachable_of_run signalStart_initial hrun
  exact ⟨s, hreach, hend, reachable_maskOk hreach⟩

def maskedFirstRun : List SigOp :=
  [.install 1 5 (.user 0), .unmask 1 5, .killBegin 1 7, .killAlloc 0, .killLink 0,
    .killBegin 1 5, .killAlloc 0, .killLink 0, .handleBegin 1]

theorem maskOk_fails_after_masked_head :
    ∃ s, sigMachine.Reachable (fun _ _ => True) s ∧
      (s.invoked.map fun i => (i.signo, i.mask.getLsbD i.signo)) = [(7, false)] ∧
      ¬ s.MaskOk := by
  have hrun : (sigMachine.run (fun _ _ => True) signalStart maskedFirstRun).map
      (fun s => s.invoked.map fun i => (i.signo, i.mask.getLsbD i.signo)) =
      some [(7, false)] := by
    decide +kernel
  obtain ⟨s, hreach, hend⟩ := Machine.exists_reachable_of_run signalStart_initial hrun
  refine ⟨s, hreach, hend, fun hok => ?_⟩
  obtain ⟨i, hi, heq⟩ := List.mem_map.mp (hend ▸ List.mem_singleton_self (7, false))
  have hmask := (hok.invoked i hi).2
  rw [(Prod.mk.inj heq).2] at hmask
  cases hmask

end RtThread.Signal
