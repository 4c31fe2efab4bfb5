import RtThread.Lib.Bits
import RtThread.Lib.Holdings
import RtThread.Signal.State

namespace RtThread.Signal

open Function RtThread.Lib SigSystem Activation

def ReapOk (s : SigSystem) : Reap → List NodeId → Prop
  | .idle, nodes => nodes = []
  | .free n, nodes => Chain s.next (some n) nodes
  | .readNext n, nodes => Chain s.next (s.next n) nodes ∧ n ∈ s.free

@[simp] theorem first_ofLink (link : Option NodeId) : (SiPtr.ofLink link).first = link := by
  cases link <;> rfl

theorem ofLink_ne_list (link : Option NodeId) (n : NodeId) : SiPtr.ofLink link ≠ .list n := by
  cases link <;> nofun

theorem reapOk_ofLink {s : SigSystem} {link : Option NodeId} {nodes : List NodeId}
    (hchain : Chain s.next link nodes) : ReapOk s (.ofLink link) nodes := by
  cases link with
  | none => exact hchain.eq_nil
  | some n => exact hchain

def owned (s : SigSystem) (chain reap : Tid → List NodeId) (t : Tid) : List NodeId :=
  chain t ++ (s.thread t).activations.map Activation.siNode ++ reap t

/-- The nodes that a `rt_thread_kill` has allocated and not linked. -/
def SigSystem.inFlight (s : SigSystem) : List NodeId := s.kills.filterMap Kill.siNode

structure View (s : SigSystem) (chain reap : Tid → List NodeId) : Prop where
  threads : s.threads.Nodup
  chains : ∀ t, Chain s.next (s.thread t).siList.first (chain t)
  typed : ∀ t n, (s.thread t).siList ≠ .list n
  reaps : ∀ t, ReapOk s (s.thread t).reap (reap t)
  outside : ∀ t, t ∉ s.threads → owned s chain reap t = [] ∧ (s.thread t).reap = .idle
  places : ∀ n, s.free.count n + s.inFlight.count n +
    (s.threads.flatMap (owned s chain reap)).count n = if n < s.poolSize then 1 else 0
  kills : ∀ k ∈ s.kills, k.tid ∈ s.threads ∧ k.sig < rtSigMax ∧
    ∀ n, k.siNode = some n → (s.si n).siSigno = k.sig ∧ s.next n = none
  signos : ∀ t, ∀ n ∈ chain t, (s.si n).siSigno < rtSigMax
  held : ∀ t, ∀ a ∈ (s.thread t).activations, a.signo < rtSigMax

namespace View

variable {s s' : SigSystem} {chain reap : Tid → List NodeId} {t u : Tid} {n : NodeId}

theorem mem_threads (hview : View s chain reap) (hmem : n ∈ owned s chain reap t) :
    t ∈ s.threads := by
  by_contra hout
  rw [(hview.outside t hout).1] at hmem
  cases hmem

theorem count_owned_le (hview : View s chain reap) (t : Tid) (n : NodeId) :
    (owned s chain reap t).count n ≤ (s.threads.flatMap (owned s chain reap)).count n := by
  by_cases ht : t ∈ s.threads
  · exact count_le_count_flatMap ht n
  · simp [(hview.outside t ht).1]

theorem places_le (hview : View s chain reap) (t : Tid) (n : NodeId) :
    s.free.count n + s.inFlight.count n + (owned s chain reap t).count n ≤ 1 := by
  have hplaces := hview.places n
  have hle := hview.count_owned_le t n
  split at hplaces <;> omega

theorem apart (hview : View s chain reap) (hmem : n ∈ owned s chain reap t) :
    n ∉ s.free ∧ n ∉ s.inFlight ∧ ∀ u, u ≠ t → n ∉ owned s chain reap u := by
  have hle := hview.places_le t n
  have hpos := List.count_pos_iff.mpr hmem
  refine ⟨fun h => ?_, fun h => ?_, fun u hne h => ?_⟩
  · have := List.count_pos_iff.mpr h
    omega
  · have := List.count_pos_iff.mpr h
    omega
  · have hu := List.count_pos_iff.mpr h
    have hboth := @count_add_count_le _ _ _ s.threads (owned s chain reap) u t
      (hview.mem_threads h) (hview.mem_threads hmem) hne n
    have hplaces := hview.places n
    split at hplaces <;> omega

theorem mem_owned_of_chain (hmem : n ∈ chain t) : n ∈ owned s chain reap t := by
  simp [owned, hmem]

theorem mem_owned_of_reap (hmem : n ∈ reap t) : n ∈ owned s chain reap t := by
  simp [owned, hmem]

section

variable (hview : View s chain reap)
include hview

theorem nodup_owned (t : Tid) : (owned s chain reap t).Nodup := by
  rw [List.nodup_iff_count_le_one]
  intro n
  have hle := hview.places_le t n
  omega

theorem nodup_chain (t : Tid) : (chain t).Nodup := by
  have hnodup := hview.nodup_owned t
  rw [owned, List.append_assoc] at hnodup
  exact (List.nodup_append.mp hnodup).1

theorem lt_poolSize (hmem : n ∈ owned s chain reap t) : n < s.poolSize := by
  have hplaces := hview.places n
  have hpos := List.count_pos_iff.mpr hmem
  have hle := hview.count_owned_le t n
  split at hplaces
  next hlt => exact hlt
  · omega

theorem length_chain_le (t : Tid) : (chain t).length ≤ s.poolSize := by
  have hsub : chain t ⊆ List.range s.poolSize := by
    intro n hmem
    rw [List.mem_range]
    exact hview.lt_poolSize (mem_owned_of_chain hmem)
  have hlength := (List.subperm_of_subset (hview.nodup_chain t) hsub).length_le
  rwa [List.length_range] at hlength

theorem chain_eq (t : Tid) : s.chain t = chain t :=
  (hview.chains t).follow_eq (hview.length_chain_le t)

theorem follow_eq (hfirst : (s.thread t).siList.first = some n) :
    follow s.next s.poolSize (some n) = chain t :=
  hfirst ▸ hview.chain_eq t

theorem not_mem_chain_of_reap (hmem : n ∈ reap u) : n ∉ chain t := by
  intro hin
  rcases eq_or_ne u t with rfl | hu
  · have hnodup := hview.nodup_owned u
    rw [owned, List.append_assoc] at hnodup
    exact (List.nodup_append.mp hnodup).2.2 n hin n (by simp [hmem]) rfl
  · exact (hview.apart (mem_owned_of_chain hin)).2.2 u hu (mem_owned_of_reap hmem)

theorem reap_congr (hnext : ∀ n, n ∉ chain t → s'.next n = s.next n)
    (hfree : ∀ n ∈ s.free, n ∈ s'.free) : ReapOk s' (s.thread u).reap (reap u) := by
  have hreap := hview.reaps u
  have hother : ∀ n ∈ reap u, s'.next n = s.next n := fun n hmem =>
    hnext n (hview.not_mem_chain_of_reap hmem)
  cases hcase : (s.thread u).reap with
  | idle =>
    rw [hcase] at hreap
    exact hreap
  | free n =>
    rw [hcase] at hreap
    exact hreap.congr hother
  | readNext n =>
    rw [hcase] at hreap
    obtain ⟨hchain, hmem⟩ := hreap
    refine ⟨?_, hfree n hmem⟩
    rw [hnext n fun h => (hview.apart (mem_owned_of_chain h)).1 hmem]
    exact hchain.congr hother

theorem change {c r : List NodeId}
    (hthreads : s'.threads = s.threads) (hpool : s'.poolSize = s.poolSize)
    (hsi : s'.si = s.si) (hother : ∀ u, u ≠ t → s'.thread u = s.thread u)
    (hnext : ∀ n, n ∉ chain t → s'.next n = s.next n)
    (hkills : ∀ k ∈ s'.kills, k ∈ s.kills) (hfree : ∀ n ∈ s.free, n ∈ s'.free)
    (hchain : Chain s'.next (s'.thread t).siList.first c)
    (htyped : ∀ n, (s'.thread t).siList ≠ .list n)
    (hreap : ReapOk s' (s'.thread t).reap r)
    (hsignos : ∀ n ∈ c, (s.si n).siSigno < rtSigMax)
    (hheld : ∀ a ∈ (s'.thread t).activations, a.signo < rtSigMax)
    (hplaces : ∀ n, s'.free.count n + s'.inFlight.count n +
      (c ++ (s'.thread t).activations.map siNode ++ r).count n =
        s.free.count n + s.inFlight.count n + (owned s chain reap t).count n)
    (hout : t ∉ s.threads →
      c ++ (s'.thread t).activations.map siNode ++ r = [] ∧
        (s'.thread t).reap = .idle) :
    View s' (update chain t c) (update reap t r) := by
  have hown : owned s' (update chain t c) (update reap t r) t =
      c ++ (s'.thread t).activations.map siNode ++ r := by
    simp [owned]
  have howns : ∀ u, u ≠ t → owned s' (update chain t c) (update reap t r) u =
      owned s chain reap u := by
    intro u hu
    simp [owned, hu, hother u hu]
  refine ⟨hthreads ▸ hview.threads, fun u => ?_, fun u => ?_, fun u => ?_, fun u hu => ?_,
    fun n => ?_, fun k hk => ?_, fun u n hmem => ?_, fun u => ?_⟩
  · rcases eq_or_ne u t with rfl | hu
    · rw [update_self]
      exact hchain
    · rw [update_of_ne hu, hother u hu]
      refine (hview.chains u).congr fun n hmem => hnext n fun h => ?_
      exact (hview.apart (mem_owned_of_chain h)).2.2 u hu (mem_owned_of_chain hmem)
  · rcases eq_or_ne u t with rfl | hu
    · exact htyped
    · rw [hother u hu]
      exact hview.typed u
  · rcases eq_or_ne u t with rfl | hu
    · rw [update_self]
      exact hreap
    · rw [update_of_ne hu, hother u hu]
      exact hview.reap_congr hnext hfree
  · rw [hthreads] at hu
    rcases eq_or_ne u t with rfl | hne
    · rw [hown]
      exact hout hu
    · rw [howns u hne, hother u hne]
      exact hview.outside u hu
  · have hold := hview.places n
    have hmove := hplaces n
    rw [hthreads, hpool]
    by_cases ht : t ∈ s.threads
    · have hcount := count_flatMap_of_eq ht hview.threads howns n
      rw [hown] at hcount
      omega
    · rw [flatMap_congr_of_not_mem ht howns]
      rw [(hout ht).1, (hview.outside t ht).1] at hmove
      omega
  · obtain ⟨htid, hsig, hnode⟩ := hview.kills k (hkills k hk)
    refine ⟨hthreads ▸ htid, hsig, fun n hn => ?_⟩
    rw [hsi, hnext n fun h => ?_]
    · exact hnode n hn
    · refine (hview.apart (mem_owned_of_chain h)).2.1 ?_
      exact List.mem_filterMap.mpr ⟨k, hkills k hk, hn⟩
  · rw [hsi]
    rcases eq_or_ne u t with rfl | hu
    · rw [update_self] at hmem
      exact hsignos n hmem
    · rw [update_of_ne hu] at hmem
      exact hview.signos u n hmem
  · rcases eq_or_ne u t with rfl | hu
    · exact hheld
    · rw [hother u hu]
      exact hview.held u

theorem quiet {thread : SigThread} (hlist : thread.siList = (s.thread t).siList)
    (hheld : thread.activations.map (fun a => (a.siNode, a.signo)) =
      (s.thread t).activations.map fun a => (a.siNode, a.signo))
    (hreap : thread.reap = (s.thread t).reap) :
    View (s.setThread t thread) chain reap := by
  have hnodes : thread.activations.map siNode = (s.thread t).activations.map siNode := by
    simpa [List.map_map, comp_def] using congrArg (List.map Prod.fst) hheld
  have hsignos : thread.activations.map signo = (s.thread t).activations.map signo := by
    simpa [List.map_map, comp_def] using congrArg (List.map Prod.snd) hheld
  have hself : (s.setThread t thread).thread t = thread := by simp [setThread]
  have hsame : View (s.setThread t thread) (update chain t (chain t))
      (update reap t (reap t)) := hview.change
    rfl rfl rfl (fun u hu => by simp [setThread, hu]) (fun _ _ => rfl)
    (fun _ h => h) (fun _ h => h)
    (by rw [hself, hlist]; exact hview.chains t) (by rw [hself, hlist]; exact hview.typed t)
    (by
      rw [hself, hreap]
      exact hview.reap_congr (t := t) (fun _ _ => rfl) fun _ h => h)
    (hview.signos t)
    (by
      rw [hself]
      intro a ha
      have hmem : a.signo ∈ (s.thread t).activations.map signo :=
        hsignos ▸ List.mem_map_of_mem ha
      obtain ⟨b, hb, heq⟩ := List.mem_map.mp hmem
      exact heq ▸ hview.held t b hb)
    (fun n => by rw [hself, hnodes]; rfl)
    (fun ht => by rw [hself, hnodes, hreap]; exact hview.outside t ht)
  rwa [update_eq_self, update_eq_self] at hsame

theorem addKill {tid : Tid} {sig : Nat} (htid : tid ∈ s.threads)
    (hsig : sig < rtSigMax) : View (s.addKill tid sig) chain reap where
  threads := hview.threads
  chains := hview.chains
  typed := hview.typed
  reaps := fun _ => hview.reap_congr (t := tid) (fun _ _ => rfl) fun _ h => h
  outside := hview.outside
  places := hview.places
  kills := fun k hk => by
    rcases List.mem_cons.mp hk with rfl | hk
    · exact ⟨htid, hsig, nofun⟩
    · exact hview.kills k hk
  signos := hview.signos
  held := hview.held

theorem killBegin {tid : Tid} {sig : Nat}
    (hexec : s.killBegin tid sig = some s') : View s' chain reap := by
  unfold SigSystem.killBegin at hexec
  split at hexec
  next htid =>
    split at hexec
    next hvalid =>
      have hsig : sig < rtSigMax := by simpa [sigValid] using hvalid
      split at hexec
      · split at hexec
        · cases hexec
          have hcounted : View (s.countResent tid sig) chain reap := hview.quiet rfl rfl rfl
          exact hcounted.addKill htid hsig
        · cases hexec
        next n hlist => exact absurd hlist (hview.typed tid n)
      · cases hexec
        refine View.addKill ?_ htid hsig
        exact hview.quiet rfl rfl rfl
    · cases hexec
      exact hview
  · cases hexec

theorem killAlloc {i : Nat}
    (hfresh : ∀ n, s.free.head? = some n → ∀ u ∈ s.threads, (s.thread u).reap ≠ .readNext n)
    (hexec : s.killAlloc i = some s') : View s' chain reap := by
  unfold SigSystem.killAlloc at hexec
  split at hexec
  next tid sig hkill =>
    obtain ⟨hi, hget⟩ := List.getElem?_eq_some_iff.mp hkill
    obtain ⟨htid, hsig, -⟩ := hview.kills _ (List.mem_of_getElem? hkill)
    have hsplit : s.kills = s.kills.take i ++
        { tid, sig, siNode := none } :: s.kills.drop (i + 1) := by
      rw [← hget, List.getElem_cons_drop, List.take_append_drop]
    split at hexec
    next hempty =>
      cases hexec
      refine { hview with reaps := fun u => ?_, places := fun n => ?_, kills := fun k hk => ?_ }
      · exact hview.reap_congr (t := tid) (fun _ _ => rfl) fun _ h => h
      · have hold := hview.places n
        have hsame : (s.kills.eraseIdx i).filterMap Kill.siNode = s.inFlight := by
          rw [inFlight, List.eraseIdx_eq_take_drop_succ]
          conv =>
            rhs
            rw [hsplit]
          simp
        simp only [inFlight, hsame]
        exact hold
      · exact hview.kills k (List.mem_of_mem_eraseIdx hk)
    next n free hfree =>
      cases hexec
      have hcount : s.free.count n = free.count n + 1 := by simp [hfree]
      have hn := hview.places n
      have houtside : ∀ u, n ∉ owned s chain reap u := by
        intro u hmem
        exact (hview.apart hmem).1 (by simp [hfree])
      have hflight : n ∉ s.inFlight := by
        intro hmem
        have := List.count_pos_iff.mpr hmem
        split at hn <;> omega
      have hrelink : ∀ {p nodes}, Chain s.next p nodes → (∀ m ∈ nodes, m ≠ n) →
          Chain (update s.next n none) p nodes := fun hchain hne =>
        hchain.update (fun hmem => hne n hmem rfl) none
      refine ⟨hview.threads, fun u => hrelink (hview.chains u) ?_, hview.typed, fun u => ?_,
        hview.outside, fun m => ?_, fun k hk => ?_, fun u m hmem => ?_, hview.held⟩
      · rintro m hmem rfl
        exact houtside u (mem_owned_of_chain hmem)
      · have hold := hview.reaps u
        have hreap : ∀ m ∈ reap u, m ≠ n := by
          rintro m hmem rfl
          exact houtside u (mem_owned_of_reap hmem)
        cases hcase : (s.thread u).reap with
        | idle =>
          simp only [hcase] at hold ⊢
          exact hold
        | free m =>
          simp only [hcase] at hold ⊢
          exact hrelink hold hreap
        | readNext m =>
          simp only [hcase, ReapOk] at hold ⊢
          obtain ⟨hchain, hmem⟩ := hold
          -- the allocator does not give the node away that is still to be read
          have hne : m ≠ n := by
            rintro rfl
            by_cases hu : u ∈ s.threads
            · exact hfresh m (by simp [hfree]) u hu hcase
            · rw [(hview.outside u hu).2] at hcase
              cases hcase
          rw [update_of_ne hne]
          refine ⟨hrelink hchain hreap, ?_⟩
          rw [hfree, List.mem_cons] at hmem
          exact hmem.resolve_left hne
      · have hold := hview.places m
        have hsame : (s.kills.set i { tid, sig, siNode := some n }).filterMap Kill.siNode =
            (s.kills.take i).filterMap Kill.siNode ++
              n :: (s.kills.drop (i + 1)).filterMap Kill.siNode := by
          rw [List.set_eq_take_append_cons_drop, if_pos hi]
          simp
        have hbefore : s.inFlight = (s.kills.take i).filterMap Kill.siNode ++
            (s.kills.drop (i + 1)).filterMap Kill.siNode := by
          rw [inFlight]
          conv =>
            lhs
            rw [hsplit]
          simp
        rw [hbefore] at hold
        simp only [inFlight, hsame, hfree, List.count_append, List.count_cons] at hold ⊢
        rw [← hold]
        show _ + _ + (s.threads.flatMap (owned s chain reap)).count m = _
        omega
      · rcases List.mem_or_eq_of_mem_set hk with hold | rfl
        · obtain ⟨hktid, hksig, hnode⟩ := hview.kills k hold
          refine ⟨hktid, hksig, fun m hm => ?_⟩
          have hne : m ≠ n := by
            rintro rfl
            exact hflight (List.mem_filterMap.mpr ⟨k, hold, hm⟩)
          simp only [update_of_ne hne]
          exact hnode m hm
        · refine ⟨htid, hsig, fun m hm => ?_⟩
          cases hm
          simp
      · have hne : m ≠ n := by
          rintro rfl
          exact houtside u (mem_owned_of_chain hmem)
        simp only [update_of_ne hne]
        exact hview.signos u m hmem
  · cases hexec

theorem killLink {i : Nat} (hexec : s.killLink i = some s') :
    ∃ k n, s.kills[i]? = some k ∧ k.siNode = some n ∧
      View s' (update chain k.tid (chain k.tid ++ [n])) reap := by
  unfold SigSystem.killLink at hexec
  split at hexec
  next tid sig n hkill =>
    refine ⟨_, n, hkill, rfl, ?_⟩
    have hmem := List.mem_of_getElem? hkill
    obtain ⟨hi, hget⟩ := List.getElem?_eq_some_iff.mp hkill
    obtain ⟨htid, hsig, hnode⟩ := hview.kills _ hmem
    obtain ⟨hsigno, hend⟩ := hnode n rfl
    have hflight : n ∈ s.inFlight := List.mem_filterMap.mpr ⟨_, hmem, rfl⟩
    have hfree : n ∉ chain tid := fun h =>
      (hview.apart (mem_owned_of_chain h)).2.1 hflight
    have hcount : ∀ m, ((s.kills.eraseIdx i).filterMap Kill.siNode).count m +
        [n].count m = s.inFlight.count m := by
      intro m
      have hsplit : s.kills = s.kills.take i ++
          { tid, sig, siNode := some n } :: s.kills.drop (i + 1) := by
        rw [← hget, List.getElem_cons_drop, List.take_append_drop]
      rw [inFlight, List.eraseIdx_eq_take_drop_succ]
      conv =>
        rhs
        rw [hsplit]
      simp only [List.filterMap_append, List.filterMap_cons, List.count_append,
        List.count_cons, List.count_nil]
      omega
    have hsignos : ∀ m ∈ chain tid ++ [n], (s.si m).siSigno < rtSigMax := by
      intro m hm
      rcases List.mem_append.mp hm with hm | hm
      · exact hview.signos tid m hm
      · rw [List.mem_singleton.mp hm, hsigno]
        exact hsig
    have hreapSame : update reap tid (reap tid) = reap := update_eq_self ..
    split at hexec
    next hlist =>
      cases hexec
      have hempty : chain tid = [] := by
        have hchain := hview.chains tid
        rw [hlist] at hchain
        exact hchain.eq_nil
      rw [← hreapSame]
      refine hview.change rfl rfl rfl (fun u hu => ?_) (fun _ _ => rfl)
        (fun k hk => List.mem_of_mem_eraseIdx hk) (fun _ h => h) ?_ (fun m => ?_) ?_ hsignos
        ?_ (fun m => ?_) (fun h => absurd htid h)
      · simp [SigSystem.setThread, hu]
      · simp only [SigSystem.setThread, update_self, hempty, List.nil_append]
        exact ⟨rfl, hend⟩
      · simp [SigSystem.setThread]
      · simp only [SigSystem.setThread, update_self]
        exact hview.reap_congr (t := tid) (fun _ _ => rfl) fun _ h => h
      · simpa [SigSystem.setThread] using hview.held tid
      · have hm := hcount m
        simp only [SigSystem.setThread, inFlight, update_self, owned, List.count_append] at hm ⊢
        omega
    · cases hexec
    next head hlist =>
      have hfollow : follow s.next s.poolSize (some head) = chain tid :=
        hview.follow_eq (by rw [hlist]; rfl)
      rw [hfollow] at hexec
      split at hexec
      · cases hexec
      next last hlast =>
        split at hexec
        · cases hexec
          have hne : last ≠ n := by
            rintro rfl
            exact hfree (List.mem_of_getLast? hlast)
          -- the last write makes no difference
          have hnext : update (update s.next last (some n)) n none =
              update s.next last (some n) := by
            rw [update_eq_self_iff, update_of_ne hne.symm, hend]
          rw [← hreapSame]
          have hchain : Chain (update (update s.next last (some n)) n none)
              (s.thread tid).siList.first (chain tid ++ [n]) := by
            rw [hnext]
            exact (hview.chains tid).snoc (hview.nodup_chain tid) hlast hfree hend
          have hrelink : ∀ m, m ∉ chain tid →
              update (update s.next last (some n)) n none m = s.next m := by
            intro m hm
            have hml : m ≠ last := by
              rintro rfl
              exact hm (List.mem_of_getLast? hlast)
            rw [hnext, update_of_ne hml]
          refine hview.change rfl rfl rfl (fun _ _ => rfl) hrelink
            (fun k hk => List.mem_of_mem_eraseIdx hk) (fun _ h => h) hchain
            (hview.typed tid) ?_ hsignos (hview.held tid) (fun m => ?_)
            (fun h => absurd htid h)
          · exact hview.reap_congr hrelink fun _ h => h
          · have hm := hcount m
            simp only [inFlight, owned, List.count_append] at hm ⊢
            omega
        · cases hexec
  · cases hexec

theorem relist {thread : SigThread} {c r : List NodeId}
    (ht : t ∈ s.threads) (hthreads : s'.threads = s.threads)
    (hpool : s'.poolSize = s.poolSize) (hsi : s'.si = s.si) (hnext : s'.next = s.next)
    (hkills : s'.kills = s.kills) (hthread : s'.thread = update s.thread t thread)
    (hfree : ∀ n ∈ s.free, n ∈ s'.free) (hchain : Chain s.next thread.siList.first c)
    (htyped : ∀ n, thread.siList ≠ .list n) (hreap : ReapOk s' thread.reap r)
    (hsub : ∀ n ∈ c, n ∈ chain t) (hheld : ∀ a ∈ thread.activations, a.signo < rtSigMax)
    (hplaces : ∀ n, s'.free.count n +
      (c ++ thread.activations.map siNode ++ r).count n =
        s.free.count n + (owned s chain reap t).count n) :
    View s' (update chain t c) (update reap t r) := by
  have hself : s'.thread t = thread := by rw [hthread, update_self]
  refine hview.change hthreads hpool hsi (fun u hu => ?_) (fun n _ => by rw [hnext])
    (fun k hk => hkills ▸ hk) hfree ?_ ?_ ?_ (fun n hn => hview.signos t n (hsub n hn)) ?_
    (fun n => ?_) (fun h => absurd ht h)
  · rw [hthread, update_of_ne hu]
  · rw [hself, hnext]
    exact hchain
  · rw [hself]
    exact htyped
  · rw [hself]
    exact hreap
  · rw [hself]
    exact hheld
  · have hmove := hplaces n
    rw [hself, inFlight, hkills]
    simp only [inFlight]
    omega

theorem handleLoop_cases {pinned : List (NodeId × SigInfo)}
    (hexec : s.handleLoop t pinned = some s') :
    s' = s ∨ ∃ n rest siList, ∃ handler : SigHandler, chain t = n :: rest ∧
      (s.thread t).siList = .node n ∧
      Chain s.next siList.first rest ∧ (∀ m, siList ≠ .list m) ∧
      (s.thread t).sigPending &&& (s.thread t).sigMask ≠ 0 ∧
      s' = { s.setThread t { s.thread t with
          siList := siList
          activations :=
            { siNode := n, signo := (s.si n).siSigno, pinned } :: (s.thread t).activations } with
        invoked := {
          tid := t
          signo := (s.si n).siSigno
          handler := handler
          pending := (s.thread t).sigPending
          mask := (s.thread t).sigMask } :: s.invoked } := by
  unfold handleLoop at hexec
  dsimp only at hexec
  split at hexec
  next hset =>
    split at hexec
    · cases hexec
      exact .inl rfl
    next n vectors hlist hvectors =>
      cases hexec
      have hchain := hview.chains t
      rw [hlist] at hchain
      obtain ⟨rest, hrest, htail⟩ := hchain.eq_cons
      refine .inr ⟨n, rest, _, _, hrest, hlist, ?_, ofLink_ne_list _, hset, rfl⟩
      rwa [first_ofLink]
    · cases hexec
  · cases hexec
    exact .inl rfl

theorem pop {rest : List NodeId} {thread : SigThread}
    {pinned : List (NodeId × SigInfo)} (invoked : List Invocation)
    (hchain : chain t = n :: rest) (hrest : Chain s.next thread.siList.first rest)
    (htyped : ∀ m, thread.siList ≠ .list m)
    (hactivations : thread.activations =
      { siNode := n, signo := (s.si n).siSigno, pinned } :: (s.thread t).activations)
    (hreap : thread.reap = (s.thread t).reap) :
    View { s.setThread t thread with invoked := invoked } (update chain t rest)
      reap := by
  have hown : n ∈ owned s chain reap t := mem_owned_of_chain (by simp [hchain])
  rw [← update_eq_self t reap]
  refine hview.relist (hview.mem_threads hown) rfl rfl rfl rfl rfl rfl (fun _ h => h)
    hrest htyped ?_ (fun m hm => by simp [hchain, hm]) (fun a ha => ?_) (fun m => ?_)
  · rw [hreap]
    exact hview.reap_congr (t := t) (fun _ _ => rfl) fun _ h => h
  · rw [hactivations] at ha
    rcases List.mem_cons.mp ha with rfl | ha
    · exact hview.signos t n (by simp [hchain])
    · exact hview.held t a ha
  · simp only [setThread, owned, hchain, hactivations, List.map_cons,
      List.count_append, List.count_cons]
    omega

theorem handleReturn {a : Activation} {rest : List Activation}
    (hactivations : (s.thread t).activations = a :: rest) :
    View (s.handleReturn t a rest) chain reap := by
  have hown : a.siNode ∈ owned s chain reap t := by simp [owned, hactivations]
  have hsame : View (s.handleReturn t a rest)
      (update chain t (chain t)) (update reap t (reap t)) := by
    refine hview.relist (hview.mem_threads hown) rfl rfl rfl rfl rfl rfl
      (fun _ h => List.mem_cons_of_mem _ h) (hview.chains t) (hview.typed t)
      (hview.reap_congr (t := t) (fun _ _ => rfl) fun _ h => List.mem_cons_of_mem _ h)
      (fun _ h => h) (fun b hb => ?_) (fun m => ?_)
    · exact hview.held t b (by simp [hactivations, hb])
    · simp only [SigSystem.handleReturn, SigSystem.rtMpFree, SigSystem.setThread, owned,
        hactivations, List.map_cons, List.count_append, List.count_cons]
      omega
  rwa [update_eq_self, update_eq_self] at hsame

theorem freeBegin (hexec : s.freeBegin t = some s') :
    ∃ reap', View s' (update chain t []) reap' := by
  unfold SigSystem.freeBegin at hexec
  dsimp only at hexec
  split at hexec
  next hreap hlist =>
    cases hexec
    have hchain := hview.chains t
    rw [hlist] at hchain
    refine ⟨reap, ?_⟩
    rw [← hchain.eq_nil, update_eq_self]
    refine hview.quiet hlist.symm ?_ rfl
    simp [List.map_map, comp_def]
  next n hreap hlist =>
    cases hexec
    have hchain := hview.chains t
    rw [hlist] at hchain
    obtain ⟨rest, hrest, -⟩ := hchain.eq_cons
    have hown : n ∈ owned s chain reap t := mem_owned_of_chain (by simp [hrest])
    have hempty : reap t = [] := by
      have hold := hview.reaps t
      rwa [hreap] at hold
    refine ⟨update reap t (chain t), ?_⟩
    refine hview.relist (hview.mem_threads hown) rfl rfl rfl rfl rfl rfl (fun _ h => h) rfl
      nofun hchain nofun (fun a ha => ?_) (fun m => ?_)
    · obtain ⟨b, hb, rfl⟩ := List.mem_map.mp ha
      exact hview.held t b hb
    · have hnodes : ((s.thread t).activations.map fun a =>
          { a with pinned := [] }).map siNode =
          (s.thread t).activations.map siNode := by
        simp [List.map_map, comp_def]
      simp only [SigSystem.setThread, owned, hnodes, hempty, List.count_append, List.count_nil]
      omega
  · cases hexec

theorem freeNode (hexec : s.freeNode t = some s') : ∃ reap', View s' chain reap' := by
  unfold SigSystem.freeNode at hexec
  split at hexec
  next n hreap =>
    cases hexec
    have hold := hview.reaps t
    rw [hreap] at hold
    obtain ⟨rest, hrest, htail⟩ := Chain.eq_cons hold
    have hown : n ∈ owned s chain reap t := mem_owned_of_reap (by simp [hrest])
    refine ⟨update reap t rest, ?_⟩
    rw [← update_eq_self t chain]
    refine hview.relist (hview.mem_threads hown) rfl rfl rfl rfl rfl rfl
      (fun _ h => List.mem_cons_of_mem _ h) (hview.chains t) (hview.typed t)
      ⟨htail, List.mem_cons_self⟩ (fun _ h => h) (hview.held t) (fun m => ?_)
    simp only [SigSystem.rtMpFree, SigSystem.setThread, owned, hrest, List.count_append,
      List.count_cons]
    omega
  · cases hexec

theorem freeNext (hexec : s.freeNext t = some s') : View s' chain reap := by
  unfold SigSystem.freeNext at hexec
  split at hexec
  next n hreap =>
    cases hexec
    have hold := hview.reaps t
    rw [hreap] at hold
    obtain ⟨hchain, -⟩ := hold
    have ht : t ∈ s.threads := by
      by_contra hout
      rw [(hview.outside t hout).2] at hreap
      cases hreap
    rw [← update_eq_self t chain, ← update_eq_self t reap]
    refine hview.relist ht rfl rfl rfl rfl rfl rfl (fun _ h => h) (hview.chains t)
      (hview.typed t) (reapOk_ofLink hchain) (fun _ h => h) (hview.held t) (fun _ => rfl)
  · cases hexec

theorem takePending_cases {set : SigSet} (hexec : s.takePending t set = some s') :
    s' = s.setThread t { s.thread t with waitResult := some (rtEok, none) } ∨
    ∃ pre n post, ∃ done : SigThread, chain t = pre ++ n :: post ∧
      sigMaskOf (s.si n).siSigno &&& set ≠ 0 ∧
      done = { (s.unpin t (s.si n).siSigno).thread t with
        sigPending := (s.thread t).sigPending &&& ~~~sigMaskOf (s.si n).siSigno
        waitResult := some (rtEok, some (s.si n)) } ∧
      ((∃ prev, pre.getLast? = some prev ∧
          s' = ({ s.unpin t (s.si n).siSigno with
            next := update s.next prev (s.next n) }.setThread t done).rtMpFree n) ∨
        pre = [] ∧ ∃ siList, (s.next n = none → siList = .null) ∧
          s' = ((s.unpin t (s.si n).siSigno).setThread t
            { done with siList := siList }).rtMpFree n) := by
  unfold takePending at hexec
  dsimp only at hexec
  split at hexec
  · cases hexec
  · cases hexec
    exact .inl rfl
  next head hlist =>
    rw [hview.follow_eq (by rw [hlist]; rfl)] at hexec
    generalize hmisses : (fun n => decide (sigMaskOf (s.si n).siSigno &&& set = 0)) = misses
      at hexec
    split at hexec
    · cases hexec
    next n post hdrop =>
      have hsplit : chain t = (chain t).takeWhile misses ++ n :: post := by
        rw [← hdrop, List.takeWhile_append_dropWhile]
      have hset : sigMaskOf (s.si n).siSigno &&& set ≠ 0 := by
        have hhead := List.head?_dropWhile_not misses (chain t)
        rw [hdrop] at hhead
        simpa [← hmisses] using hhead
      refine .inr ⟨_, n, post, _, hsplit, hset, rfl, ?_⟩
      split at hexec
      next prev hprev =>
        cases hexec
        exact .inl ⟨prev, hprev, rfl⟩
      next hnone =>
        cases hexec
        refine .inr ⟨List.getLast?_eq_none_iff.mp hnone, _, fun hend => ?_, rfl⟩
        have hsame : (s.unpin t (s.si n).siSigno).next n = none := hend
        rw [hsame]

theorem unlinkMiddle {pre post : List NodeId} {prev : NodeId}
    (hchain : chain t = pre ++ n :: post) (hprev : pre.getLast? = some prev)
    {thread : SigThread} (hlist : thread.siList = (s.thread t).siList)
    (hactivations : thread.activations = (s.thread t).activations)
    (hreap : thread.reap = (s.thread t).reap) :
    View (({ s with next := update s.next prev (s.next n) }.setThread t
      thread).rtMpFree n) (update chain t (pre ++ post)) reap := by
  have hown : n ∈ owned s chain reap t := mem_owned_of_chain (by simp [hchain])
  have hmem : prev ∈ chain t := by
    rw [hchain]
    exact List.mem_append_left _ (List.mem_of_getLast? hprev)
  have hrelink : ∀ m, m ∉ chain t →
      update s.next prev (s.next n) m = s.next m := by
    intro m hm
    have hne : m ≠ prev := fun h => hm (h ▸ hmem)
    rw [update_of_ne hne]
  have hnodup := hview.nodup_chain t
  have hlinks := hview.chains t
  rw [hchain] at hnodup hlinks
  rw [← update_eq_self t reap]
  refine hview.change rfl rfl rfl (fun u hu => ?_) hrelink (fun _ h => h)
    (fun _ h => List.mem_cons_of_mem _ h) ?_ ?_ ?_ (fun m hm => hview.signos t m ?_) ?_
    (fun m => ?_) (fun h => absurd (hview.mem_threads hown) h)
  · simp [rtMpFree, setThread, hu]
  · simp only [rtMpFree, setThread, update_self, hlist]
    exact hlinks.unlink hnodup hprev
  · simp only [rtMpFree, setThread, update_self, hlist]
    exact hview.typed t
  · simp only [rtMpFree, setThread, update_self, hreap]
    exact hview.reap_congr hrelink fun _ h => List.mem_cons_of_mem _ h
  · rw [hchain]
    rcases List.mem_append.mp hm with hm | hm
    · exact List.mem_append_left _ hm
    · exact List.mem_append_right _ (List.mem_cons_of_mem n hm)
  · simp only [rtMpFree, setThread, update_self, hactivations]
    exact hview.held t
  · simp only [rtMpFree, setThread, inFlight, owned,
      update_self, hactivations, hchain, List.count_append, List.count_cons]
    omega

theorem unlinkOnly (hchain : chain t = [n]) {thread : SigThread} (hlist : thread.siList = .null)
    (hactivations : thread.activations = (s.thread t).activations)
    (hreap : thread.reap = (s.thread t).reap) :
    View ((s.setThread t thread).rtMpFree n) (update chain t []) reap := by
  have hown : n ∈ owned s chain reap t := mem_owned_of_chain (by simp [hchain])
  rw [← update_eq_self t reap]
  refine hview.relist (hview.mem_threads hown) rfl rfl rfl rfl rfl rfl
    (fun _ h => List.mem_cons_of_mem _ h) ?_ ?_ ?_ nofun ?_ (fun m => ?_)
  · rw [hlist]
    rfl
  · rw [hlist]
    nofun
  · rw [hreap]
    exact hview.reap_congr (t := t) (fun _ _ => rfl) fun _ h => List.mem_cons_of_mem _ h
  · rw [hactivations]
    exact hview.held t
  · simp only [rtMpFree, setThread, owned, hchain, hactivations,
      List.count_append, List.count_cons, List.count_nil]
    omega

theorem unpin (t : Tid) (signo : Nat) : View (s.unpin t signo) chain reap := by
  refine hview.quiet rfl ?_ rfl
  simp [List.map_map, comp_def]

end

end View

/-- The first node is looked for, and others follow: `rt_signal_wait` then leaves the
address of a list member in `si_list`. -/
def SigSystem.takesHead (s : SigSystem) (t : Tid) (set : SigSet) : Bool :=
  match (s.thread t).siList with
  | .node n => decide (sigMaskOf (s.si n).siSigno &&& set ≠ 0) && (s.next n).isSome
  | _ => false

/-- No search of `rt_signal_wait` takes the first of several nodes, and no allocation a
node whose successor `rt_thread_free_sig` has yet to read. -/
def NoSlip (s : SigSystem) : SigOp → Prop
  | .waitBegin t set _ => (s.thread t).sigPending &&& set ≠ 0 → s.takesHead t set = false
  | .waitEnd t timedOut => timedOut = false → s.takesHead t (s.thread t).waitSet = false
  | .killAlloc _ => ∀ n, s.free.head? = some n → ∀ u ∈ s.threads, (s.thread u).reap ≠ .readNext n
  | _ => True

namespace View

variable {s s' : SigSystem} {chain reap : Tid → List NodeId} {t : Tid}

theorem only_of_takesHead (hview : View s chain reap) {set : SigSet} {n : NodeId}
    {post : List NodeId} (hchain : chain t = n :: post)
    (hset : sigMaskOf (s.si n).siSigno &&& set ≠ 0) (hhead : s.takesHead t set = false) :
    s.next n = none ∧ chain t = [n] := by
  have hlinks := hview.chains t
  rw [hchain] at hlinks
  obtain ⟨hfirst, hrest⟩ := hlinks
  have hend : s.next n = none := by
    cases hlist : (s.thread t).siList with
    | null =>
      rw [hlist] at hfirst
      cases hfirst
    | list m => exact absurd hlist (hview.typed t m)
    | node m =>
      rw [hlist] at hfirst
      cases hfirst
      have himp : ¬ sigMaskOf (s.si n).siSigno &&& set = 0 → s.next n = none := by
        simpa [takesHead, hlist] using hhead
      exact himp hset
  rw [hend] at hrest
  exact ⟨hend, by rw [hchain, hrest.eq_nil]⟩

theorem init (hinit : s.Initial) : View s (fun _ => []) fun _ => [] where
  threads := hinit.threads
  chains := fun t => by
    rw [(hinit.thread t).2.1]
    rfl
  typed := fun t n => by
    rw [(hinit.thread t).2.1]
    nofun
  reaps := fun t => by
    rw [(hinit.thread t).2.2.2.1]
    rfl
  outside := fun t _ => ⟨by simp [owned, (hinit.thread t).2.2.1], (hinit.thread t).2.2.2.1⟩
  places := fun n => by
    have hempty : owned s (fun _ => []) (fun _ => []) = fun _ => [] := by
      funext t
      simp [owned, (hinit.thread t).2.2.1]
    have hnone : s.threads.flatMap (fun _ => ([] : List NodeId)) = [] := by
      rw [List.flatMap_eq_nil_iff]
      exact fun _ _ => rfl
    rw [hinit.pool.count_eq, inFlight, hinit.kills, hempty, hnone]
    simp [List.count_range]
  kills := fun k hk => by
    rw [hinit.kills] at hk
    cases hk
  signos := nofun
  held := fun t a ha => by
    rw [(hinit.thread t).2.2.1] at ha
    cases ha

end View

end RtThread.Signal
