import Mathlib.Data.List.Range
import RtThread.Device.CanRx

namespace RtThread.Device

open Function RtThread.Lib

namespace CanRx

section Laws

variable (cfg : CanConfig) (s : CanRx)

def freeNodes : List Nat := (s.links.nodes .freelist (cfg.msgboxsz + 1)).map CanLink.entry

def useNodes : List Nat := (s.links.nodes .uselist (cfg.msgboxsz + 1)).map CanLink.entry

def hdrNodes (hdr : Nat) : List Nat :=
  (s.links.nodes (.hdr hdr) (cfg.msgboxsz + 1)).map CanLink.entry

def transit : List Nat := s.reading.map Prod.fst ++ s.storing.map Prod.fst

def ownedBy (use : List Nat) (hdr : Nat) : List Nat := use.filter fun node => s.owner node = some hdr

def oldest (request : Int) : Option Nat :=
  if request = -1 then (s.useNodes cfg).head?
  else (s.ownedBy (s.useNodes cfg) request.toNat).head?

structure Law : Prop where
  freelist : s.links.Ring .freelist ((s.freeNodes cfg).map .list)
  uselist : s.links.Ring .uselist ((s.useNodes cfg).map .list)
  partition : (s.freeNodes cfg ++ s.useNodes cfg ++ s.transit).Perm (List.range cfg.msgboxsz)
  freenumbers : s.freenumbers = (s.freeNodes cfg).length
  headers : ∀ hdr, s.connected hdr = true →
    s.links.Ring (.hdr hdr) ((s.hdrNodes cfg hdr).map .hdrlist) ∧
      s.hdrNodes cfg hdr = s.ownedBy (s.useNodes cfg) hdr ∧
      s.msgs hdr = (s.hdrNodes cfg hdr).length
  ordered : (s.useNodes cfg).Pairwise fun a b => s.arrival a < s.arrival b
  taken : ∀ entry ∈ s.reading, s.data entry.1 = entry.2
  received : s.rcvpkg =
    (s.delivered + (s.useNodes cfg).length + s.storing.length + s.dropedrcvpkg) % 2 ^ 32

def StepLaw (op : CanOp) (s' : CanRx) : Prop :=
  s'.Law cfg ∧
    match op with
    | .readTake request => (s.canIntRx cfg.maxhdr request).1 = s.oldest cfg request
    | _ => True

/-- None of the messages that the header owns has been cut off its list. -/
def Whole (hdr : Nat) : Prop :=
  ∀ node ∈ s.ownedBy (s.useNodes cfg) hdr, node ∈ s.hdrNodes cfg hdr

/-- The message asked for is one of the header that its bit-field names, which has lost none; and if
there is no such message, that header has none either. -/
def Serves (request : Int) (hdr : Nat) : Prop :=
  (∀ node ∈ s.oldest cfg request, hdr < cfg.maxhdr ∧ s.owner node = some hdr ∧ s.Whole cfg hdr) ∧
    (s.oldest cfg request = none → hdr < cfg.maxhdr → s.hdrNodes cfg hdr = [])

def Proper : CanOp → Prop
  | .isrTake _ => s.rtListIsempty .freelist = false ∨ s.rtListIsempty .uselist = false
  | .readTake request => s.Serves cfg request (hdrField request).toNat
  | .filterConnect hdr => s.ownedBy (s.useNodes cfg) hdr = []
  | _ => True

end Laws

inductive Head
  | free
  | use
  | hdr (hdr : Nat)
  deriving DecidableEq

def Head.link : Head → CanLink
  | .free => .freelist
  | .use => .uselist
  | .hdr index => .hdr index

def listsOf (free use : List Nat) (hdrs : Nat → List Nat) : Head → List CanLink
  | .free => free.map .list
  | .use => use.map .list
  | .hdr index => (hdrs index).map .hdrlist

structure Lists (s : CanRx) (free use : List Nat) (hdrs : Nat → List Nat) : Prop where
  rings : s.links.Rings Head.link (listsOf free use hdrs)
  alone : ∀ node, (∀ hdr, node ∉ hdrs hdr) →
    s.links.next (.hdrlist node) = .hdrlist node ∧ s.links.prev (.hdrlist node) = .hdrlist node
  owned : ∀ node hdr, s.owner node = some hdr → node ∈ use
  drops : ∀ hdr, ∃ count, hdrs hdr = (s.ownedBy use hdr).drop count
  connected : ∀ hdr, s.connected hdr = true →
    hdrs hdr = s.ownedBy use hdr ∧ s.msgs hdr = (hdrs hdr).length
  ordered : use.Pairwise fun a b => s.arrival a < s.arrival b
  early : ∀ node ∈ use, s.arrival node < s.arrivals

structure Inv (cfg : CanConfig) (s : CanRx) (free use : List Nat) (hdrs : Nat → List Nat) :
    Prop where
  lists : s.Lists free use hdrs
  partition : (free ++ use ++ s.transit).Perm (List.range cfg.msgboxsz)
  freenumbers : s.freenumbers = free.length
  taken : ∀ entry ∈ s.reading, s.data entry.1 = entry.2
  received : s.rcvpkg = (s.delivered + use.length + s.storing.length + s.dropedrcvpkg) % 2 ^ 32

variable {cfg : CanConfig} {s s' : CanRx} {free use : List Nat} {hdrs : Nat → List Nat} {node : Nat}

theorem listsOf_free (free' : List Nat) :
    update (listsOf free use hdrs) .free (free'.map .list) = listsOf free' use hdrs := by
  funext head
  cases head <;> rfl

theorem listsOf_use (use' : List Nat) :
    update (listsOf free use hdrs) .use (use'.map .list) = listsOf free use' hdrs := by
  funext head
  cases head <;> rfl

theorem listsOf_hdr (hdr : Nat) (nodes : List Nat) :
    update (listsOf free use hdrs) (.hdr hdr) (nodes.map .hdrlist) =
      listsOf free use (update hdrs hdr nodes) := by
  funext head
  cases head with
  | free => rfl
  | use => rfl
  | hdr other =>
    by_cases hother : other = hdr
    · subst hother
      rw [update_self, listsOf, update_self]
    · rw [update_of_ne (by simpa using hother), listsOf, listsOf, update_of_ne hother]

theorem map_filter_ne {link : Nat → CanLink} (hlink : ∀ a b, link a = link b → a = b)
    (nodes : List Nat) (node : Nat) :
    (nodes.map link).filter (· ≠ link node) = (nodes.filter (· ≠ node)).map link := by
  rw [List.filter_map]
  congr 1
  refine List.filter_congr fun a _ => decide_eq_decide.mpr (not_congr ?_)
  exact ⟨hlink a node, congrArg link⟩

theorem filter_ne_self {nodes : List Nat} (hnode : node ∉ nodes) :
    nodes.filter (· ≠ node) = nodes := by
  refine List.filter_eq_self.mpr fun a ha => decide_eq_true fun heq => hnode ?_
  rwa [← heq]

theorem filter_ne_erase {nodes : List Nat} (hnodup : nodes.Nodup) :
    nodes.filter (· ≠ node) = nodes.erase node := by
  rw [hnodup.erase_eq_filter]
  exact List.filter_congr fun a _ => Bool.eq_iff_iff.mpr (by simp)

section

variable (hlists : s.Lists free use hdrs)
include hlists

theorem Lists.of_mem_hdrs {hdr : Nat} (hnode : node ∈ hdrs hdr) : s.owner node = some hdr := by
  obtain ⟨count, hdrop⟩ := hlists.drops hdr
  rw [hdrop] at hnode
  exact of_decide_eq_true (List.mem_filter.mp (List.mem_of_mem_drop hnode)).2

theorem Lists.use_of_mem_hdrs {hdr : Nat}
    (hnode : node ∈ hdrs hdr) : node ∈ use := hlists.owned node hdr (hlists.of_mem_hdrs hnode)

theorem Lists.apart (hnode : node ∈ free) : node ∉ use := fun h =>
  hlists.rings.apart .free .use nofun (.list node)
    (List.mem_cons_of_mem _ (List.mem_map_of_mem hnode))
    (List.mem_cons_of_mem _ (List.mem_map_of_mem h))

theorem Lists.nodup_use : use.Nodup :=
  (List.nodup_cons.mp (hlists.rings.ring .use).nodup).2.of_map _

theorem Lists.nodup_free : free.Nodup :=
  (List.nodup_cons.mp (hlists.rings.ring .free).nodup).2.of_map _

end

theorem ownedBy_clear (s : CanRx) (use : List Nat) (node hdr : Nat) :
    (s.clearOwner node).ownedBy (use.filter (· ≠ node)) hdr =
      (s.ownedBy use hdr).filter (· ≠ node) := by
  unfold ownedBy clearOwner
  rw [List.filter_filter, List.filter_filter]
  refine List.filter_congr fun a _ => ?_
  by_cases ha : a = node
  · subst ha
    simp
  · simp [ha]

theorem filter_drop {α : Type u} (p : α → Bool) (count : Nat) (list : List α) :
    ∃ count', (list.drop count).filter p = (list.filter p).drop count' := by
  have hsplit : list.filter p = (list.take count).filter p ++ (list.drop count).filter p := by
    rw [← List.filter_append, List.take_append_drop]
  exact ⟨((list.take count).filter p).length, by rw [hsplit, List.drop_left]⟩

theorem Lists.removed (hlists : s.Lists free use hdrs) (hnode : node ∈ free ∨ node ∈ use) :
    ((s.links.remove (.list node)).remove (.hdrlist node)).Rings Head.link
        (listsOf (free.filter (· ≠ node)) (use.filter (· ≠ node))
          fun hdr => (hdrs hdr).filter (· ≠ node)) ∧
      ∀ other, (∀ hdr, other ∉ (hdrs hdr).filter (· ≠ node)) →
        ((s.links.remove (.list node)).remove (.hdrlist node)).next (.hdrlist other) =
            .hdrlist other ∧
          ((s.links.remove (.list node)).remove (.hdrlist node)).prev (.hdrlist other) =
            .hdrlist other := by
  have hfirst : (s.links.remove (.list node)).Rings Head.link
      (listsOf (free.filter (· ≠ node)) (use.filter (· ≠ node)) hdrs) ∧
      ∀ other, s.links.Same (s.links.remove (.list node)) (.hdrlist other) := by
    rcases hnode with hfree | huse
    · have hmem : CanLink.list node ∈ listsOf free use hdrs .free := List.mem_map_of_mem hfree
      have hrings := hlists.rings.remove hmem
      have hframe := ((hlists.rings.ring .free).remove hmem).2
      rw [show listsOf free use hdrs .free = free.map .list from rfl,
        map_filter_ne (fun _ _ => CanLink.list.inj), listsOf_free] at hrings
      rw [filter_ne_self (hlists.apart hfree)]
      exact ⟨hrings, fun other => hframe _ (by simp [Head.link, listsOf])⟩
    · have hmem : CanLink.list node ∈ listsOf free use hdrs .use := List.mem_map_of_mem huse
      have hrings := hlists.rings.remove hmem
      have hframe := ((hlists.rings.ring .use).remove hmem).2
      rw [show listsOf free use hdrs .use = use.map .list from rfl,
        map_filter_ne (fun _ _ => CanLink.list.inj), listsOf_use] at hrings
      rw [filter_ne_self fun h => hlists.apart h huse]
      exact ⟨hrings, fun other => hframe _ (by simp [Head.link, listsOf])⟩
  obtain ⟨hrings, hsame⟩ := hfirst
  by_cases howned : ∃ hdr, node ∈ hdrs hdr
  · obtain ⟨hdr, hmem⟩ := howned
    have hlink : CanLink.hdrlist node ∈ listsOf (free.filter (· ≠ node)) (use.filter (· ≠ node)) hdrs
        (.hdr hdr) := List.mem_map_of_mem hmem
    have hrings' := hrings.remove hlink
    have hframe := ((hrings.ring (.hdr hdr)).remove hlink).2
    have hothers : (update hdrs hdr ((hdrs hdr).filter (· ≠ node))) =
        fun hdr => (hdrs hdr).filter (· ≠ node) := by
      funext other
      by_cases hother : other = hdr
      · rw [hother, update_self]
      · rw [update_of_ne hother, filter_ne_self fun h => hother ?_]
        exact Option.some.inj ((hlists.of_mem_hdrs h).symm.trans (hlists.of_mem_hdrs hmem))
    rw [show listsOf (free.filter (· ≠ node)) (use.filter (· ≠ node)) hdrs (.hdr hdr) =
      (hdrs hdr).map .hdrlist from rfl, map_filter_ne (fun _ _ => CanLink.hdrlist.inj), listsOf_hdr,
      hothers] at hrings'
    refine ⟨hrings', fun other hother => ?_⟩
    by_cases hsameNode : other = node
    · subst hsameNode
      exact ListNodes.remove_self ..
    · have hout (hdr : Nat) : other ∉ hdrs hdr := fun h =>
        hother hdr (List.mem_filter.mpr ⟨h, decide_eq_true hsameNode⟩)
      obtain ⟨hnext, hprev⟩ := hframe (.hdrlist other) (by simpa [Head.link, listsOf] using hout hdr)
      obtain ⟨hnext', hprev'⟩ := hsame other
      obtain ⟨hnext'', hprev''⟩ := hlists.alone other hout
      exact ⟨hnext.trans (hnext'.trans hnext''), hprev.trans (hprev'.trans hprev'')⟩
  · have hout (hdr : Nat) : node ∉ hdrs hdr := fun h => howned ⟨hdr, h⟩
    have hothers : (fun hdr => (hdrs hdr).filter (· ≠ node)) = hdrs := by
      funext hdr
      exact filter_ne_self (hout hdr)
    obtain ⟨hnext, hprev⟩ := hlists.alone node hout
    obtain ⟨hnext', hprev'⟩ := hsame node
    have hvain := ListNodes.remove_alone (hnext'.trans hnext) (hprev'.trans hprev)
    rw [hvain, hothers]
    refine ⟨hrings, fun other hother => ?_⟩
    obtain ⟨hnext, hprev⟩ := hlists.alone other fun hdr h => hother hdr (by
      rw [filter_ne_self (hout hdr)]
      exact h)
    exact ⟨(hsame other).1.trans hnext, (hsame other).2.trans hprev⟩

theorem lessMsgs_eq (s : CanRx) (hdr : Nat) :
    s.lessMsgs hdr = { s with msgs := update s.msgs hdr (s.msgs hdr - 1) } := by
  unfold lessMsgs
  split
  next hzero =>
    have hself : update s.msgs hdr (s.msgs hdr - 1) = s.msgs :=
      update_eq_self_iff.mpr (by omega)
    rw [hself]
  · rfl

def msgsAfter (s : CanRx) (node : Nat) : Nat → Nat :=
  match s.owner node with
  | none => s.msgs
  | some hdr => update s.msgs hdr (s.msgs hdr - 1)

theorem takeMsg_eq (s : CanRx) (node : Nat) : s.takeMsg node =
    { s with
      links := (s.links.remove (.list node)).remove (.hdrlist node)
      owner := update s.owner node none
      msgs := s.msgsAfter node } := by
  have howner : ((s.rtListRemove (.list node)).rtListRemove (.hdrlist node)).owner node =
      s.owner node := rfl
  unfold takeMsg msgsAfter
  dsimp only
  rw [howner]
  cases s.owner node with
  | none => rfl
  | some hdr =>
    dsimp only
    rw [lessMsgs_eq]
    rfl

theorem takeMsg_hdr {hdr : Nat} (howner : s.owner node = some hdr) :
    ((((s.rtListRemove (.list node)).rtListRemove (.hdrlist node)).lessMsgs hdr).clearOwner node) =
      s.takeMsg node := by
  have h : ((s.rtListRemove (.list node)).rtListRemove (.hdrlist node)).owner node = some hdr := howner
  unfold takeMsg
  dsimp only
  rw [h]

theorem ownedBy_takeMsg (s : CanRx) (use : List Nat) (node hdr : Nat) :
    (s.takeMsg node).ownedBy (use.filter (· ≠ node)) hdr = (s.ownedBy use hdr).filter (· ≠ node) := by
  rw [takeMsg_eq, ← ownedBy_clear]
  rfl

theorem Lists.takeMsg (hlists : s.Lists free use hdrs) (hnode : node ∈ free ∨ node ∈ use) :
    (s.takeMsg node).Lists (free.filter (· ≠ node)) (use.filter (· ≠ node))
      (fun hdr => (hdrs hdr).filter (· ≠ node)) := by
  obtain ⟨hrings, halone⟩ := hlists.removed hnode
  have howned (hdr : Nat) := s.ownedBy_takeMsg use node hdr
  rw [takeMsg_eq] at howned ⊢
  refine ⟨hrings, halone, fun other hdr hother => ?_, fun hdr => ?_, fun hdr hconnected => ?_,
    hlists.ordered.filter _, fun other hother => hlists.early other (List.mem_of_mem_filter hother)⟩
  · have hafter : update s.owner node none other = some hdr := hother
    by_cases heq : other = node
    · rw [heq, update_self] at hafter
      cases hafter
    · rw [update_of_ne heq] at hafter
      exact List.mem_filter.mpr ⟨hlists.owned other hdr hafter, decide_eq_true heq⟩
  · obtain ⟨count, hdrop⟩ := hlists.drops hdr
    rw [hdrop, howned]
    exact filter_drop _ count _
  · obtain ⟨hall, hmsgs⟩ := hlists.connected hdr hconnected
    refine ⟨?_, ?_⟩
    · rw [howned, ← hall]
    · show s.msgsAfter node hdr = _
      unfold msgsAfter
      by_cases hmem : node ∈ hdrs hdr
      · have hnodup : (hdrs hdr).Nodup := by
          rw [hall]
          exact hlists.nodup_use.filter _
        rw [hlists.of_mem_hdrs hmem]
        dsimp only
        rw [update_self, hmsgs, filter_ne_erase hnodup, List.length_erase_of_mem hmem]
      · rw [filter_ne_self hmem, ← hmsgs]
        cases howner : s.owner node with
        | none => rfl
        | some other =>
          refine update_of_ne (fun heq => hmem ?_) ..
          rw [hall]
          refine List.mem_filter.mpr ⟨hlists.owned node other howner, decide_eq_true ?_⟩
          rw [howner, heq]

theorem mem_listsOf {link : CanLink} {head : Head} : link ∈ head.link :: listsOf free use hdrs head →
    link = head.link ∨ (∃ node ∈ free, link = .list node) ∨ (∃ node ∈ use, link = .list node) ∨
      ∃ hdr, ∃ node ∈ hdrs hdr, link = .hdrlist node := by
  intro h
  rcases List.mem_cons.mp h with h | h
  · exact .inl h
  · cases head with
    | free =>
      obtain ⟨node, hnode, rfl⟩ := List.mem_map.mp h
      exact .inr (.inl ⟨node, hnode, rfl⟩)
    | use =>
      obtain ⟨node, hnode, rfl⟩ := List.mem_map.mp h
      exact .inr (.inr (.inl ⟨node, hnode, rfl⟩))
    | hdr hdr =>
      obtain ⟨node, hnode, rfl⟩ := List.mem_map.mp h
      exact .inr (.inr (.inr ⟨hdr, node, hnode, rfl⟩))

theorem list_fresh (hdrs : Nat → List Nat) (hfree : node ∉ free) (huse : node ∉ use) (head : Head) :
    CanLink.list node ∉ head.link :: listsOf free use hdrs head := by
  intro h
  rcases mem_listsOf h with h | ⟨a, ha, h⟩ | ⟨a, ha, h⟩ | ⟨-, a, -, h⟩
  · cases head <;> cases h
  · cases h
    exact hfree ha
  · cases h
    exact huse ha
  · cases h

theorem hdrlist_fresh (free use : List Nat) (hnode : ∀ hdr, node ∉ hdrs hdr) (head : Head) :
    CanLink.hdrlist node ∉ head.link :: listsOf free use hdrs head := by
  intro h
  rcases mem_listsOf h with h | ⟨a, -, h⟩ | ⟨a, -, h⟩ | ⟨hdr, a, ha, h⟩
  · cases head <;> cases h
  · cases h
  · cases h
  · cases h
    exact hnode hdr ha

theorem Lists.insert_free (hlists : s.Lists free use hdrs) (hfree : node ∉ free) (huse : node ∉ use) :
    ({ s with links := s.links.insertBefore .freelist (.list node) } : CanRx).Lists (free ++ [node])
      use hdrs := by
  have hfresh := list_fresh hdrs hfree huse
  have hrings := hlists.rings.insertBefore (i := .free) hfresh
  have hframe := ((hlists.rings.ring .free).insertBefore (hfresh .free)).2
  have hshape : listsOf free use hdrs .free ++ [CanLink.list node] = (free ++ [node]).map .list := by
    rw [List.map_append]
    rfl
  rw [hshape, listsOf_free] at hrings
  refine ⟨hrings, fun other hother => ?_, hlists.owned, hlists.drops, hlists.connected,
    hlists.ordered, hlists.early⟩
  obtain ⟨hnext, hprev⟩ := hframe (.hdrlist other) (by simp [Head.link, listsOf])
  obtain ⟨hnext', hprev'⟩ := hlists.alone other hother
  exact ⟨hnext.trans hnext', hprev.trans hprev'⟩

theorem ownedBy_append (hnone : s.owner node = none) (hdr : Nat) :
    s.ownedBy (use ++ [node]) hdr = s.ownedBy use hdr := by
  unfold ownedBy
  rw [List.filter_append, List.filter_cons_of_neg (by rw [hnone]; simp), List.filter_nil,
    List.append_nil]

theorem Lists.insert_use (hlists : s.Lists free use hdrs) (hfree : node ∉ free) (huse : node ∉ use) :
    ({ s with
      links := s.links.insertBefore .uselist (.list node)
      arrivals := s.arrivals + 1
      arrival := update s.arrival node s.arrivals } : CanRx).Lists free (use ++ [node])
      hdrs := by
  have hfresh := list_fresh hdrs hfree huse
  have hrings := hlists.rings.insertBefore (i := .use) hfresh
  have hframe := ((hlists.rings.ring .use).insertBefore (hfresh .use)).2
  have hshape : listsOf free use hdrs .use ++ [CanLink.list node] = (use ++ [node]).map .list := by
    rw [List.map_append]
    rfl
  rw [hshape, listsOf_use] at hrings
  have hnone : s.owner node = none := by
    cases howner : s.owner node with
    | none => rfl
    | some hdr => exact absurd (hlists.owned node hdr howner) huse
  have hold (other : Nat) (hother : other ∈ use) :
      update s.arrival node s.arrivals other = s.arrival other := by
    refine update_of_ne ?_ ..
    rintro rfl
    exact huse hother
  refine ⟨hrings, fun other hother => ?_,
    fun other hdr hother => List.mem_append_left _ (hlists.owned other hdr hother), fun hdr => ?_,
    fun hdr hconnected => ?_, ?_, fun other hother => ?_⟩
  · obtain ⟨hnext, hprev⟩ := hframe (.hdrlist other) (by simp [Head.link, listsOf])
    obtain ⟨hnext', hprev'⟩ := hlists.alone other hother
    exact ⟨hnext.trans hnext', hprev.trans hprev'⟩
  · obtain ⟨count, hdrop⟩ := hlists.drops hdr
    exact ⟨count, hdrop.trans (congrArg (List.drop count) (ownedBy_append hnone hdr).symm)⟩
  · obtain ⟨hall, hmsgs⟩ := hlists.connected hdr hconnected
    exact ⟨hall.trans (ownedBy_append hnone hdr).symm, hmsgs⟩
  · refine List.pairwise_append.mpr ⟨?_, List.pairwise_singleton .., fun a ha b hb => ?_⟩
    · refine hlists.ordered.imp_of_mem fun ha hb hlt => ?_
      show update s.arrival node s.arrivals _ < update s.arrival node s.arrivals _
      rw [hold _ ha, hold _ hb]
      exact hlt
    · rw [List.mem_singleton.mp hb]
      show update s.arrival node s.arrivals a < update s.arrival node s.arrivals node
      rw [hold a ha, update_self]
      exact hlists.early a ha
  · show update s.arrival node s.arrivals other < s.arrivals + 1
    rcases List.mem_append.mp hother with h | h
    · rw [hold other h]
      exact Nat.lt_succ_of_lt (hlists.early other h)
    · rw [List.mem_singleton.mp h, update_self]
      exact Nat.lt_succ_self _

theorem Lists.insert_hdr (hlists : s.Lists free (use ++ [node]) hdrs) (huse : node ∉ use)
    (hnone : s.owner node = none) (hdr : Nat) (hconnected : s.connected hdr = true)
    (hword : (hdrs hdr).length + 1 < 2 ^ 32) :
    ({ s with
      links := s.links.insertBefore (.hdr hdr) (.hdrlist node)
      owner := update s.owner node (some hdr)
      msgs := update s.msgs hdr ((s.msgs hdr + 1) % 2 ^ 32) } : CanRx).Lists free
        (use ++ [node]) (update hdrs hdr (hdrs hdr ++ [node])) := by
  have hout (other : Nat) : node ∉ hdrs other := fun h => by
    have howner := hlists.of_mem_hdrs h
    rw [hnone] at howner
    cases howner
  have hfresh := hdrlist_fresh free (use ++ [node]) hout
  have hrings := hlists.rings.insertBefore (i := .hdr hdr) hfresh
  have hframe := ((hlists.rings.ring (.hdr hdr)).insertBefore (hfresh (.hdr hdr))).2
  have hshape : listsOf free (use ++ [node]) hdrs (.hdr hdr) ++ [CanLink.hdrlist node] =
      (hdrs hdr ++ [node]).map .hdrlist := by
    rw [List.map_append]
    rfl
  rw [hshape, listsOf_hdr] at hrings
  have howned (other : Nat) : ({ s with owner := update s.owner node (some hdr) } :
      CanRx).ownedBy (use ++ [node]) other =
        if other = hdr then s.ownedBy (use ++ [node]) other ++ [node]
        else s.ownedBy (use ++ [node]) other := by
    rw [ownedBy_append hnone]
    unfold ownedBy
    rw [List.filter_append]
    have hold : (use.filter fun a =>
        decide (update s.owner node (some hdr) a = some other)) =
        use.filter fun a => decide (s.owner a = some other) := by
      refine List.filter_congr fun a ha => ?_
      have hne : a ≠ node := fun heq => huse (heq ▸ ha)
      rw [update_of_ne hne]
    rw [hold]
    by_cases hother : other = hdr
    · subst hother
      rw [if_pos rfl, List.filter_cons_of_pos (by simp), List.filter_nil]
    · rw [if_neg hother, List.filter_cons_of_neg (by simp [Ne.symm hother]), List.filter_nil,
        List.append_nil]
  obtain ⟨hall, hmsgs⟩ := hlists.connected hdr hconnected
  refine ⟨hrings, fun other hother => ?_, fun other index hother => ?_, fun other => ?_,
    fun other hother => ?_, hlists.ordered, hlists.early⟩
  · have hne : other ≠ node := fun heq => hother hdr (by
      rw [heq, update_self]
      exact List.mem_append_right _ (List.mem_singleton_self node))
    have hold (index : Nat) : other ∉ hdrs index := fun h => hother index (by
      by_cases hindex : index = hdr
      · subst hindex
        rw [update_self]
        exact List.mem_append_left _ h
      · rw [update_of_ne hindex]
        exact h)
    obtain ⟨hnext, hprev⟩ := hframe (.hdrlist other) (by
      simpa [Head.link, listsOf, hne] using hold hdr)
    obtain ⟨hnext', hprev'⟩ := hlists.alone other hold
    exact ⟨hnext.trans hnext', hprev.trans hprev'⟩
  · by_cases heq : other = node
    · rw [heq]
      exact List.mem_append_right _ (List.mem_singleton_self node)
    · have hafter : update s.owner node (some hdr) other = some index := hother
      rw [update_of_ne heq] at hafter
      exact hlists.owned other index hafter
  · by_cases hother : other = hdr
    · subst hother
      refine ⟨0, ?_⟩
      rw [update_self, List.drop_zero, hall]
      exact ((howned other).trans (if_pos rfl)).symm
    · obtain ⟨count, hdrop⟩ := hlists.drops other
      refine ⟨count, ?_⟩
      rw [update_of_ne hother, hdrop]
      exact congrArg (List.drop count) ((howned other).trans (if_neg hother)).symm
  · by_cases heq : other = hdr
    · subst heq
      refine ⟨?_, ?_⟩
      · rw [update_self, hall]
        exact ((howned other).trans (if_pos rfl)).symm
      · show update s.msgs other _ other = _
        rw [update_self, update_self, List.length_append, hmsgs, Nat.mod_eq_of_lt hword]
        rfl
    · obtain ⟨hallOther, hmsgsOther⟩ := hlists.connected other hother
      refine ⟨?_, ?_⟩
      · rw [update_of_ne heq, hallOther]
        exact ((howned other).trans (if_neg heq)).symm
      · show update s.msgs hdr _ other = _
        rw [update_of_ne heq, update_of_ne heq]
        exact hmsgsOther

theorem Lists.connect (hlists : s.Lists free use hdrs) {hdr : Nat} (hnone : s.ownedBy use hdr = []) :
    (s.filterConnect hdr).Lists free use hdrs := by
  have hnil : hdrs hdr = [] := by
    obtain ⟨count, hdrop⟩ := hlists.drops hdr
    rw [hdrop, hnone, List.drop_nil]
  have hring : s.links.Ring (.hdr hdr) [] := by
    have h := hlists.rings.ring (.hdr hdr)
    rw [listsOf, hnil] at h
    exact h
  have hlinks : s.links.init (.hdr hdr) = s.links := hring.init_nil
  unfold filterConnect
  rw [hlinks]
  refine ⟨hlists.rings, hlists.alone, hlists.owned, hlists.drops, fun other hother => ?_,
    hlists.ordered, hlists.early⟩
  by_cases heq : other = hdr
  · subst heq
    refine ⟨hnil.trans hnone.symm, ?_⟩
    show update s.msgs other 0 other = _
    rw [update_self, hnil]
    rfl
  · have hold : s.connected other = true := (update_of_ne heq ..).symm.trans hother
    obtain ⟨hall, hmsgs⟩ := hlists.connected other hold
    exact ⟨hall, (update_of_ne heq ..).trans hmsgs⟩

theorem filterDisconnect_frame (s : CanRx) (hdr : Nat) : ∃ links connected msgs,
    s.filterDisconnect hdr = { s with links := links, connected := connected, msgs := msgs } := by
  simp only [filterDisconnect]
  split
  · split
    · exact ⟨_, _, _, rfl⟩
    · exact ⟨_, _, _, rfl⟩
  · exact ⟨_, _, _, rfl⟩

theorem Lists.disconnect (hlists : s.Lists free use hdrs) (hdr : Nat) :
    ∃ hdrs', (s.filterDisconnect hdr).Lists free use hdrs' := by
  unfold filterDisconnect
  by_cases hconnected : s.connected hdr = true
  · rw [if_pos hconnected]
    dsimp only
    obtain ⟨hall, -⟩ := hlists.connected hdr hconnected
    have hring : s.links.Ring (.hdr hdr) ((hdrs hdr).map .hdrlist) := hlists.rings.ring (.hdr hdr)
    have hother (other : Nat) (hdrs' : Nat → List Nat)
        (hsame : ∀ other, other ≠ hdr → hdrs' other = hdrs other)
        (h : update s.connected hdr false other = true) :
        hdrs' other = s.ownedBy use other ∧
          update s.msgs hdr 0 other = (hdrs' other).length := by
      have hne : other ≠ hdr := by
        rintro rfl
        rw [update_self] at h
        cases h
      rw [update_of_ne hne] at h
      rw [hsame other hne, update_of_ne hne]
      exact hlists.connected other h
    cases hnodes : hdrs hdr with
    | nil =>
      have hempty : s.links.next (.hdr hdr) = .hdr hdr := hring.next_head_eq.mpr (by rw [hnodes]; rfl)
      rw [if_neg (by simp [rtListIsempty, hempty])]
      exact ⟨hdrs, hlists.rings, hlists.alone, hlists.owned, hlists.drops,
        fun other => hother other hdrs fun _ _ => rfl, hlists.ordered, hlists.early⟩
    | cons first rest =>
      have hnext : s.links.next (.hdr hdr) = .hdrlist first := by
        rw [hnodes] at hring
        exact hring.next_head
      rw [if_pos (by simp [rtListIsempty, hnext])]
      rw [hnext]
      have hmem : CanLink.hdrlist first ∈ listsOf free use hdrs (.hdr hdr) := by
        rw [listsOf, hnodes]
        exact List.mem_cons_self
      have hrings := hlists.rings.remove hmem
      have hframe := ((hlists.rings.ring (.hdr hdr)).remove hmem).2
      have hnodup : (first :: rest).Nodup := by
        rw [← hnodes, hall]
        exact hlists.nodup_use.filter _
      have hrest : (first :: rest).filter (· ≠ first) = rest := by
        rw [filter_ne_erase hnodup, List.erase_cons_head]
      rw [listsOf, map_filter_ne (fun _ _ => CanLink.hdrlist.inj), hnodes, hrest, listsOf_hdr] at hrings
      refine ⟨update hdrs hdr rest, hrings, fun other hout => ?_, hlists.owned,
        fun other => ?_, fun other => hother other _ fun _ hne => update_of_ne hne ..,
        hlists.ordered, hlists.early⟩
      · by_cases heq : other = first
        · rw [heq]
          exact ListNodes.remove_self ..
        · have hold (index : Nat) : other ∉ hdrs index := fun h => hout index (by
            by_cases hindex : index = hdr
            · subst hindex
              rw [hnodes] at h
              rw [update_self]
              exact (List.mem_cons.mp h).resolve_left heq
            · rw [update_of_ne hindex]
              exact h)
          obtain ⟨hforth, hback⟩ := hframe (.hdrlist other) (by
            simpa [Head.link, listsOf] using hold hdr)
          obtain ⟨hforth', hback'⟩ := hlists.alone other hold
          exact ⟨hforth.trans hforth', hback.trans hback'⟩
      · by_cases heq : other = hdr
        · subst heq
          refine ⟨1, ?_⟩
          show _ = (s.ownedBy use other).drop 1
          rw [update_self, ← hall, hnodes]
          rfl
        · rw [update_of_ne heq]
          exact hlists.drops other
  · rw [if_neg hconnected]
    exact ⟨hdrs, hlists⟩

theorem ring_nodes {head : CanLink} (link : Nat → CanLink) {nodes : List Nat}
    (hring : s.links.Ring head (nodes.map link)) (hentry : ∀ node, (link node).entry = node)
    {fuel : Nat} (hfuel : nodes.length < fuel) :
    (s.links.nodes head fuel).map CanLink.entry = nodes := by
  rw [hring.nodes_eq (by rwa [List.length_map]), List.map_map]
  exact (List.map_congr_left fun node _ => hentry node).trans (List.map_id _)

theorem ring_cases {head : CanLink} {link : Nat → CanLink} {nodes : List Nat}
    (hring : s.links.Ring head (nodes.map link)) (hentry : ∀ node, (link node).entry = node) :
    nodes = [] ∧ s.rtListIsempty head = true ∨
      ∃ node rest, nodes = node :: rest ∧ s.rtListIsempty head = false ∧
        (s.links.next head).entry = node := by
  cases nodes with
  | nil => exact .inl ⟨rfl, decide_eq_true (hring.next_head_eq.mpr rfl)⟩
  | cons node rest =>
    refine .inr ⟨node, rest, rfl, decide_eq_false fun h => ?_, ?_⟩
    · cases hring.next_head_eq.mp h
    · rw [hring.next_head]
      exact hentry node

theorem Inv.lengths (hinv : s.Inv cfg free use hdrs) :
    free.length + use.length + (s.reading.length + s.storing.length) = cfg.msgboxsz := by
  have h := hinv.partition.length_eq
  rw [List.length_append, List.length_append, List.length_range, transit, List.length_append,
    List.length_map, List.length_map] at h
  exact h

theorem Inv.freeNodes_eq (hinv : s.Inv cfg free use hdrs) : s.freeNodes cfg = free := by
  have h := hinv.lengths
  exact ring_nodes .list (hinv.lists.rings.ring .free) (fun _ => rfl) (by omega)

theorem Inv.useNodes_eq (hinv : s.Inv cfg free use hdrs) : s.useNodes cfg = use := by
  have h := hinv.lengths
  exact ring_nodes .list (hinv.lists.rings.ring .use) (fun _ => rfl) (by omega)

theorem Lists.length_hdrs (hlists : s.Lists free use hdrs) (hdr : Nat) :
    (hdrs hdr).length ≤ use.length := by
  obtain ⟨count, hdrop⟩ := hlists.drops hdr
  rw [hdrop, List.length_drop]
  exact Nat.le_trans (Nat.sub_le ..) (List.length_filter_le ..)

theorem Inv.hdrNodes_eq (hinv : s.Inv cfg free use hdrs) (hdr : Nat) :
    s.hdrNodes cfg hdr = hdrs hdr := by
  have h := hinv.lengths
  have hle := hinv.lists.length_hdrs hdr
  exact ring_nodes .hdrlist (hinv.lists.rings.ring (.hdr hdr)) (fun _ => rfl) (by omega)

theorem Inv.law (hinv : s.Inv cfg free use hdrs) : s.Law cfg := by
  have hfree := hinv.freeNodes_eq
  have huse := hinv.useNodes_eq
  refine ⟨?_, ?_, ?_, ?_, fun hdr hconnected => ?_, ?_, hinv.taken, ?_⟩
  · rw [hfree]
    exact hinv.lists.rings.ring .free
  · rw [huse]
    exact hinv.lists.rings.ring .use
  · rw [hfree, huse]
    exact hinv.partition
  · rw [hfree]
    exact hinv.freenumbers
  · rw [hinv.hdrNodes_eq, huse]
    exact ⟨hinv.lists.rings.ring (.hdr hdr), hinv.lists.connected hdr hconnected⟩
  · rw [huse]
    exact hinv.lists.ordered
  · rw [huse]
    exact hinv.received

theorem Inv.isrTake_step (hinv : s.Inv cfg free use hdrs) {msg : CanMsg}
    (hexec : s.isrTake msg = some s') :
    (s'.Law cfg ↔ s.Proper cfg (.isrTake msg)) ∧
      (s.Proper cfg (.isrTake msg) → ∃ free use hdrs, s'.Inv cfg free use hdrs) := by
  have hfreeRing : s.links.Ring .freelist (free.map .list) := hinv.lists.rings.ring .free
  have huseRing : s.links.Ring .uselist (use.map .list) := hinv.lists.rings.ring .use
  have hlengths := hinv.lengths
  have hnumbers := hinv.freenumbers
  have hreceived := hinv.received
  -- a step that leads to the invariant is proper
  suffices h : (∃ free use hdrs, s'.Inv cfg free use hdrs) ∧ s.Proper cfg (.isrTake msg) ∨
      ¬ s'.Law cfg ∧ ¬ s.Proper cfg (.isrTake msg) by
    rcases h with ⟨⟨free', use', hdrs', hinv'⟩, hproper⟩ | ⟨hlaw, hproper⟩
    · exact ⟨⟨fun _ => hproper, fun _ => hinv'.law⟩, fun _ => ⟨free', use', hdrs', hinv'⟩⟩
    · exact ⟨⟨fun h => absurd h hlaw, fun h => absurd h hproper⟩, fun h => absurd h hproper⟩
  have hproper : s.Proper cfg (.isrTake msg) ↔
      s.rtListIsempty .freelist = false ∨ s.rtListIsempty .uselist = false := Iff.rfl
  unfold isrTake at hexec
  dsimp only at hexec
  rcases ring_cases hfreeRing fun _ => rfl with ⟨hnil, hempty⟩ | ⟨node, rest, hcons, hempty, hentry⟩
  · have hfirst : ({ s with rcvpkg := (s.rcvpkg + 1) % 2 ^ 32 } : CanRx).rtListIsempty .freelist =
        true := hempty
    rw [hfirst, if_neg (by decide)] at hexec
    rcases ring_cases huseRing fun _ => rfl with ⟨hnone, hused⟩ | ⟨node, rest, hcons, hused, hentry⟩
    · have hsecond : ({ s with rcvpkg := (s.rcvpkg + 1) % 2 ^ 32 } : CanRx).rtListIsempty .uselist =
          true := hused
      rw [hsecond, if_neg (by decide)] at hexec
      obtain rfl := Option.some.inj hexec
      refine .inr ⟨fun hlaw => ?_, ?_⟩
      · have hcount : (s.rcvpkg + 1) % 2 ^ 32 =
            (s.delivered + (s.useNodes cfg).length + s.storing.length + s.dropedrcvpkg) % 2 ^ 32 :=
          hlaw.received
        rw [hinv.useNodes_eq, ← hreceived] at hcount
        omega
      · rw [hproper, hempty, hused]
        decide
    · have hsecond : ({ s with rcvpkg := (s.rcvpkg + 1) % 2 ^ 32 } : CanRx).rtListIsempty .uselist =
          false := hused
      rw [hsecond, if_pos (by decide), hentry] at hexec
      obtain rfl := Option.some.inj hexec
      have hmem : node ∈ use := by
        rw [hcons]
        exact List.mem_cons_self
      have hlists := hinv.lists.takeMsg (.inr hmem)
      rw [takeMsg_eq] at hlists ⊢
      have hfree : free.filter (· ≠ node) = free := filter_ne_self fun h => hinv.lists.apart h hmem
      have huse : use.filter (· ≠ node) = rest := by
        rw [filter_ne_erase hinv.lists.nodup_use, hcons, List.erase_cons_head]
      rw [hfree, huse] at hlists
      refine .inl ⟨⟨free, rest, _, ⟨hlists.rings, hlists.alone, hlists.owned, hlists.drops,
        hlists.connected, hlists.ordered, hlists.early⟩, ?_, hnumbers, hinv.taken, ?_⟩,
        hproper.mpr (.inr hused)⟩
      · refine List.Perm.trans ?_ hinv.partition
        rw [hcons, transit, transit, List.append_assoc, List.append_assoc]
        refine List.Perm.append_left _ ?_
        show (rest ++ (s.reading.map Prod.fst ++ node :: s.storing.map Prod.fst)).Perm
          (node :: rest ++ (s.reading.map Prod.fst ++ s.storing.map Prod.fst))
        rw [← List.append_assoc, ← List.append_assoc]
        exact List.perm_middle
      · show (s.rcvpkg + 1) % 2 ^ 32 = (s.delivered + rest.length + (s.storing.length + 1) +
          (s.dropedrcvpkg + 1) % 2 ^ 32) % 2 ^ 32
        rw [hcons, List.length_cons] at hreceived
        omega
  · have hfirst : ({ s with rcvpkg := (s.rcvpkg + 1) % 2 ^ 32 } : CanRx).rtListIsempty .freelist =
        false := hempty
    rw [hfirst, if_pos (by decide), hentry] at hexec
    have hmem : node ∈ free := by
      rw [hcons]
      exact List.mem_cons_self
    have hlists := hinv.lists.takeMsg (.inl hmem)
    rw [takeMsg_eq] at hlists hexec
    have hpos : s.freenumbers > 0 := by
      rw [hnumbers, hcons]
      exact Nat.succ_pos _
    rw [if_pos hpos] at hexec
    obtain rfl := Option.some.inj hexec
    have huse : use.filter (· ≠ node) = use := filter_ne_self (hinv.lists.apart hmem)
    have hfree : free.filter (· ≠ node) = rest := by
      rw [filter_ne_erase hinv.lists.nodup_free, hcons, List.erase_cons_head]
    rw [hfree, huse] at hlists
    refine .inl ⟨⟨rest, use, _, ⟨hlists.rings, hlists.alone, hlists.owned, hlists.drops,
      hlists.connected, hlists.ordered, hlists.early⟩, ?_, ?_, hinv.taken, ?_⟩,
      hproper.mpr (.inl hempty)⟩
    · refine List.Perm.trans ?_ hinv.partition
      rw [hcons, transit, transit]
      show (rest ++ use ++ (s.reading.map Prod.fst ++ node :: s.storing.map Prod.fst)).Perm
        (node :: rest ++ use ++ (s.reading.map Prod.fst ++ s.storing.map Prod.fst))
      rw [← List.append_assoc, ← List.append_assoc]
      exact List.perm_middle
    · show s.freenumbers - 1 = rest.length
      rw [hnumbers, hcons]
      rfl
    · show (s.rcvpkg + 1) % 2 ^ 32 =
        (s.delivered + use.length + (s.storing.length + 1) + s.dropedrcvpkg) % 2 ^ 32
      omega

theorem Lists.canIntRx_cases (hlists : s.Lists free use hdrs) (maxhdr : Nat) (request : Int) :
    (∃ node rest, hdrs (hdrField request).toNat = node :: rest ∧ (hdrField request).toNat < maxhdr ∧
      s.canIntRx maxhdr request = (some node, s.takeMsg node)) ∨
    (¬ (hdrField request).toNat < maxhdr ∨ hdrs (hdrField request).toNat = []) ∧
      s.canIntRx maxhdr request = (none, s) := by
  have hfield : 0 ≤ hdrField request := Int.emod_nonneg _ (by decide)
  have hnotAll : hdrField request ≠ -1 := by omega
  have hring : s.links.Ring (.hdr (hdrField request).toNat)
      ((hdrs (hdrField request).toNat).map .hdrlist) := hlists.rings.ring (.hdr _)
  have hless : hdrField request < (maxhdr : Int) ↔ (hdrField request).toNat < maxhdr := by omega
  unfold canIntRx
  dsimp only
  rcases ring_cases hring fun _ => rfl with ⟨hnil, hempty⟩ | ⟨node, rest, hcons, hempty, hentry⟩
  · refine .inr ⟨.inr hnil, ?_⟩
    rw [if_neg fun h => absurd (hempty.symm.trans h.2.2) (by decide), if_neg hnotAll]
  · by_cases hvalid : (hdrField request).toNat < maxhdr
    · have hmem : node ∈ hdrs (hdrField request).toNat := by
        rw [hcons]
        exact List.mem_cons_self
      refine .inl ⟨node, rest, hcons, hvalid, ?_⟩
      rw [if_pos ⟨hfield, hless.mpr hvalid, hempty⟩, hentry, takeMsg_hdr (hlists.of_mem_hdrs hmem)]
    · refine .inr ⟨.inl hvalid, ?_⟩
      rw [if_neg fun h => hvalid (hless.mp h.2.1), if_neg hnotAll]

theorem Lists.hdrs_eq (hlists : s.Lists free use hdrs) {hdr : Nat}
    (hhead : (s.ownedBy use hdr).head? = some node) (hnode : node ∈ hdrs hdr) :
    hdrs hdr = s.ownedBy use hdr := by
  obtain ⟨count, hdrop⟩ := hlists.drops hdr
  obtain ⟨rest, howned⟩ := List.head?_eq_some_iff.mp hhead
  have hnodup : (s.ownedBy use hdr).Nodup := hlists.nodup_use.filter _
  rw [hdrop, howned] at hnode
  rw [howned] at hnodup
  cases count with
  | zero => exact hdrop
  | succ count =>
    rw [List.drop_succ_cons] at hnode
    exact absurd (List.mem_of_mem_drop hnode) (List.nodup_cons.mp hnodup).1

section

variable (hinv : s.Inv cfg free use hdrs)
include hinv

theorem Inv.whole_iff (hdr : Nat) : s.Whole cfg hdr ↔ hdrs hdr = s.ownedBy use hdr := by
  rw [Whole, hinv.useNodes_eq, hinv.hdrNodes_eq]
  refine ⟨fun hwhole => ?_, fun heq node hnode => ?_⟩
  · cases hhead : (s.ownedBy use hdr).head? with
    | none =>
      obtain ⟨count, hdrop⟩ := hinv.lists.drops hdr
      rw [hdrop, List.head?_eq_none_iff.mp hhead, List.drop_nil]
    | some node => exact hinv.lists.hdrs_eq hhead (hwhole node (List.mem_of_head? hhead))
  · rwa [heq]

theorem Inv.oldest_owned {request : Int} {hdr : Nat}
    (hnode : s.oldest cfg request = some node) (howner : s.owner node = some hdr) :
    (s.ownedBy use hdr).head? = some node := by
  rw [oldest, hinv.useNodes_eq] at hnode
  split at hnode
  · obtain ⟨rest, rfl⟩ := List.head?_eq_some_iff.mp hnode
    rw [ownedBy, List.filter_cons_of_pos (by simpa using howner), List.head?_cons]
  · have hmem : node ∈ s.ownedBy use request.toNat := List.mem_of_head? hnode
    have hrequest := of_decide_eq_true (List.mem_filter.mp hmem).2
    rw [howner] at hrequest
    rwa [Option.some.inj hrequest]

theorem Inv.serves_iff (request : Int) : s.Serves cfg request (hdrField request).toNat ↔
      (if (hdrField request).toNat < cfg.maxhdr then (hdrs (hdrField request).toNat).head?
        else none) = s.oldest cfg request := by
  generalize (hdrField request).toNat = hdr
  unfold Serves
  cases holdest : s.oldest cfg request with
  | none =>
    rw [hinv.hdrNodes_eq]
    by_cases hvalid : hdr < cfg.maxhdr <;> simp [hvalid]
  | some node =>
    refine ⟨fun hserves => ?_, fun hhead => ⟨fun other hother => ?_, nofun⟩⟩
    · obtain ⟨hvalid, howner, hwhole⟩ := hserves.1 node rfl
      rw [if_pos hvalid, (hinv.whole_iff hdr).mp hwhole]
      exact hinv.oldest_owned holdest howner
    · obtain rfl := Option.some.inj hother
      split at hhead
      next hvalid =>
        have hmem : node ∈ hdrs hdr := List.mem_of_head? hhead
        have howner := hinv.lists.of_mem_hdrs hmem
        exact ⟨hvalid, howner, (hinv.whole_iff hdr).mpr
          (hinv.lists.hdrs_eq (hinv.oldest_owned holdest howner) hmem)⟩
      next => cases hhead

theorem Inv.readTake_step (request : Int) :
    ((s.canIntRx cfg.maxhdr request).1 = s.oldest cfg request ↔ s.Proper cfg (.readTake request)) ∧
      ∃ free use hdrs, (s.readTake cfg.maxhdr request).Inv cfg free use hdrs := by
  have hproper := hinv.serves_iff request
  rw [Proper, hproper]
  unfold readTake
  rcases hinv.lists.canIntRx_cases cfg.maxhdr request with
    ⟨node, rest, hcons, hvalid, hread⟩ | ⟨hnone, hread⟩
  · rw [hread, if_pos hvalid, hcons]
    refine ⟨Iff.rfl, ?_⟩
    have hmem : node ∈ use := hinv.lists.use_of_mem_hdrs (hcons ▸ List.mem_cons_self)
    have hlists := hinv.lists.takeMsg (.inr hmem)
    have hfree : free.filter (· ≠ node) = free := filter_ne_self fun h => hinv.lists.apart h hmem
    have huse : use.filter (· ≠ node) = use.erase node := filter_ne_erase hinv.lists.nodup_use
    have hperm : use.Perm (node :: use.erase node) := List.perm_cons_erase hmem
    rw [hfree, huse] at hlists
    dsimp only
    rw [takeMsg_eq] at hlists ⊢
    refine ⟨free, use.erase node, _, ⟨hlists.rings, hlists.alone, hlists.owned, hlists.drops,
      hlists.connected, hlists.ordered, hlists.early⟩, ?_, hinv.freenumbers, fun entry hentry => ?_, ?_⟩
    · refine List.Perm.trans ?_ hinv.partition
      rw [transit, transit, List.append_assoc, List.append_assoc]
      refine List.Perm.append_left _ ?_
      show (use.erase node ++ (node :: (s.reading.map Prod.fst ++ s.storing.map Prod.fst))).Perm _
      exact List.perm_middle.trans (hperm.symm.append_right _)
    · rcases List.mem_cons.mp hentry with rfl | h
      · rfl
      · exact hinv.taken entry h
    · show s.rcvpkg = (s.delivered + 1 + (use.erase node).length + s.storing.length +
        s.dropedrcvpkg) % 2 ^ 32
      have hlength := hperm.length_eq
      rw [List.length_cons] at hlength
      rw [hinv.received, hlength]
      congr 1
      omega
  · rw [hread]
    have hsame : (if (hdrField request).toNat < cfg.maxhdr then
        (hdrs (hdrField request).toNat).head? else none) = none := by
      rcases hnone with h | h
      · rw [if_neg h]
      · rw [h]
        split <;> rfl
    rw [hsame]
    exact ⟨Iff.rfl, free, use, hdrs, hinv⟩

theorem Inv.transit_out (node : Nat) (hnode : node ∈ s.transit) : node ∉ free ∧ node ∉ use := by
  have hnodup : (free ++ use ++ s.transit).Nodup :=
    hinv.partition.nodup_iff.mpr List.nodup_range
  obtain ⟨-, -, hdisjoint⟩ := List.nodup_append.mp hnodup
  exact ⟨fun h => hdisjoint node (List.mem_append_left _ h) node hnode rfl,
    fun h => hdisjoint node (List.mem_append_right _ h) node hnode rfl⟩

theorem Inv.readFree_step {msg : CanMsg}
    (hreading : (node, msg) ∈ s.reading) (hexec : s.readFree cfg.msgboxsz node msg = some s') :
    ∃ free use hdrs, s'.Inv cfg free use hdrs := by
  obtain ⟨hfree, huse⟩ := hinv.transit_out node
    (List.mem_append_left _ (List.mem_map_of_mem hreading))
  have hperm := List.perm_cons_erase hreading
  have hlengths := hinv.lengths
  have hword := cfg.word
  have hread := hperm.length_eq
  rw [List.length_cons] at hread
  unfold readFree at hexec
  dsimp only at hexec
  split at hexec
  · obtain rfl := Option.some.inj hexec
    have hlists := hinv.lists.insert_free hfree huse
    refine ⟨free ++ [node], use, hdrs, ⟨hlists.rings, hlists.alone, hlists.owned, hlists.drops,
      hlists.connected, hlists.ordered, hlists.early⟩, ?_, ?_,
      fun entry hentry => hinv.taken entry (List.mem_of_mem_erase hentry), hinv.received⟩
    · refine List.Perm.trans ?_ hinv.partition
      have hmap := hperm.map Prod.fst
      rw [transit, transit]
      show (free ++ [node] ++ use ++ ((s.reading.erase (node, msg)).map Prod.fst ++
        s.storing.map Prod.fst)).Perm _
      rw [List.append_assoc, List.append_assoc, List.append_assoc]
      refine List.Perm.append_left _ ?_
      refine List.Perm.trans ?_ ((hmap.symm.append_right _).append_left use)
      show (node :: (use ++ ((s.reading.erase (node, msg)).map Prod.fst ++
        s.storing.map Prod.fst))).Perm
        (use ++ node :: ((s.reading.erase (node, msg)).map Prod.fst ++ s.storing.map Prod.fst))
      exact List.perm_middle.symm
    · show (s.freenumbers + 1) % 2 ^ 32 = (free ++ [node]).length
      rw [hinv.freenumbers, List.length_append, List.length_singleton]
      exact Nat.mod_eq_of_lt (by omega)
  · cases hexec

theorem Inv.isrStore_step {msg : CanMsg}
    (hstoring : (node, msg) ∈ s.storing) (hexec : s.isrStore cfg.maxhdr node msg = some s') :
    ∃ free use hdrs, s'.Inv cfg free use hdrs := by
  obtain ⟨hfree, huse⟩ := hinv.transit_out node
    (List.mem_append_right _ (List.mem_map_of_mem hstoring))
  have hnone : s.owner node = none := by
    cases howner : s.owner node with
    | none => rfl
    | some hdr => exact absurd (hinv.lists.owned node hdr howner) huse
  have hperm := List.perm_cons_erase hstoring
  have hlengths := hinv.lengths
  have hword := cfg.word
  have hstored := hperm.length_eq
  rw [List.length_cons] at hstored
  have hlists := hinv.lists.insert_use hfree huse
  have hpartition : (free ++ (use ++ [node]) ++ (s.reading.map Prod.fst ++
      (s.storing.erase (node, msg)).map Prod.fst)).Perm (List.range cfg.msgboxsz) := by
    refine List.Perm.trans ?_ hinv.partition
    rw [transit, List.append_assoc, List.append_assoc, List.append_assoc]
    refine List.Perm.append_left _ (List.Perm.append_left _ ?_)
    refine List.Perm.trans ?_ ((hperm.map Prod.fst).symm.append_left _)
    show (node :: (s.reading.map Prod.fst ++ (s.storing.erase (node, msg)).map Prod.fst)).Perm
      (s.reading.map Prod.fst ++ node :: (s.storing.erase (node, msg)).map Prod.fst)
    exact List.perm_middle.symm
  have hother (entry : Nat × CanMsg) (hentry : entry ∈ s.reading) :
      update s.data node msg entry.1 = entry.2 := by
    refine (update_of_ne (fun heq => ?_) ..).trans (hinv.taken entry hentry)
    have hnodup : (free ++ use ++ s.transit).Nodup :=
      hinv.partition.nodup_iff.mpr List.nodup_range
    have htransit := (List.nodup_append.mp hnodup).2.1
    exact (List.nodup_append.mp htransit).2.2 entry.1 (List.mem_map_of_mem hentry) node
      (List.mem_map_of_mem hstoring) heq
  have hreceived : s.rcvpkg = (s.delivered + (use ++ [node]).length +
      (s.storing.erase (node, msg)).length + s.dropedrcvpkg) % 2 ^ 32 := by
    rw [hinv.received, hstored, List.length_append, List.length_singleton]
    congr 1
    omega
  unfold isrStore at hexec
  dsimp only at hexec
  split at hexec
  · split at hexec
    next hconnected =>
      obtain rfl := Option.some.inj hexec
      have hle := hinv.lists.length_hdrs msg.hdr
      have howned := hlists.insert_hdr huse hnone msg.hdr hconnected (by omega)
      exact ⟨free, use ++ [node], _, ⟨howned.rings, howned.alone, howned.owned, howned.drops,
        howned.connected, howned.ordered, howned.early⟩, hpartition, hinv.freenumbers, hother,
        hreceived⟩
    · obtain rfl := Option.some.inj hexec
      exact ⟨free, use ++ [node], hdrs, ⟨hlists.rings, hlists.alone, hlists.owned, hlists.drops,
        hlists.connected, hlists.ordered, hlists.early⟩, hpartition, hinv.freenumbers, hother,
        hreceived⟩
  · cases hexec

theorem Inv.filterConnect_step (hdr : Nat) :
    ((s.filterConnect hdr).Law cfg ↔ s.Proper cfg (.filterConnect hdr)) ∧
      (s.Proper cfg (.filterConnect hdr) →
        ∃ free use hdrs, (s.filterConnect hdr).Inv cfg free use hdrs) := by
  have hproper : s.Proper cfg (.filterConnect hdr) ↔ s.ownedBy use hdr = [] := by
    rw [Proper, hinv.useNodes_eq]
  have hnext (h : s.Proper cfg (.filterConnect hdr)) :
      (s.filterConnect hdr).Inv cfg free use hdrs :=
    ⟨hinv.lists.connect (hproper.mp h), hinv.partition, hinv.freenumbers, hinv.taken, hinv.received⟩
  refine ⟨⟨fun hlaw => hproper.mpr ?_, fun h => (hnext h).law⟩, fun h => ⟨free, use, hdrs, hnext h⟩⟩
  have hlengths := hinv.lengths
  -- the head was initialised, and the queue is as it was
  have huse : (s.filterConnect hdr).useNodes cfg = use := by
    refine ring_nodes .list ((hinv.lists.rings.ring .use).congr fun link hlink => ?_)
      (fun _ => rfl) (by omega)
    have hne : link ≠ .hdr hdr := by
      rintro rfl
      exact hinv.lists.rings.apart .use (.hdr hdr) nofun _ hlink List.mem_cons_self
    exact ⟨update_of_ne hne .., update_of_ne hne ..⟩
  have hnodes : (s.filterConnect hdr).hdrNodes cfg hdr = [] := by
    have hself : (s.filterConnect hdr).links.next (.hdr hdr) = .hdr hdr := update_self ..
    rw [hdrNodes, ListNodes.nodes, hself, ListNodes.walk, if_pos rfl]
    rfl
  obtain ⟨-, hall, -⟩ := hlaw.headers hdr (update_self ..)
  rw [hnodes, huse] at hall
  exact hall.symm

theorem Inv.step {op : CanOp} (hexec : (canRxMachine cfg).exec s op = some s') :
    (s.StepLaw cfg op s' ↔ s.Proper cfg op) ∧
      (s.Proper cfg op → ∃ free use hdrs, s'.Inv cfg free use hdrs) := by
  have hkept (h : ∃ free use hdrs, s'.Inv cfg free use hdrs) : s'.Law cfg := by
    obtain ⟨free', use', hdrs', hinv'⟩ := h
    exact hinv'.law
  cases op with
  | isrTake msg =>
    obtain ⟨hlaw, hnext⟩ := hinv.isrTake_step hexec
    exact ⟨⟨fun h => hlaw.mp h.1, fun h => ⟨hlaw.mpr h, trivial⟩⟩, hnext⟩
  | isrStore node msg =>
    simp only [canRxMachine] at hexec
    split at hexec
    next hstoring =>
      have hnext := hinv.isrStore_step hstoring hexec
      exact ⟨⟨fun _ => trivial, fun _ => ⟨hkept hnext, trivial⟩⟩, fun _ => hnext⟩
    · cases hexec
  | readTake request =>
    simp only [canRxMachine] at hexec
    split at hexec
    · obtain rfl := Option.some.inj hexec
      obtain ⟨hread, hnext⟩ := hinv.readTake_step request
      exact ⟨⟨fun h => hread.mp h.2, fun h => ⟨hkept hnext, hread.mpr h⟩⟩, fun _ => hnext⟩
    · cases hexec
  | readFree node msg =>
    simp only [canRxMachine] at hexec
    split at hexec
    next hreading =>
      have hnext := hinv.readFree_step hreading hexec
      exact ⟨⟨fun _ => trivial, fun _ => ⟨hkept hnext, trivial⟩⟩, fun _ => hnext⟩
    · cases hexec
  | filterCheck hdr =>
    have hnext : ∃ free use hdrs, s'.Inv cfg free use hdrs := by
      obtain ⟨hlists, hpartition, hfreenumbers, htaken, hreceived⟩ := hinv
      simp only [canRxMachine, filterCheck] at hexec
      split_ifs at hexec <;> obtain rfl := Option.some.inj hexec
      · exact ⟨free, use, hdrs, hlists, hpartition, hfreenumbers, htaken, hreceived⟩
      · exact ⟨free, use, hdrs, ⟨hlists.rings, hlists.alone, hlists.owned, hlists.drops,
          hlists.connected, hlists.ordered, hlists.early⟩, hpartition, hfreenumbers, htaken,
          hreceived⟩
      · exact ⟨free, use, hdrs, hlists, hpartition, hfreenumbers, htaken, hreceived⟩
    exact ⟨⟨fun _ => trivial, fun _ => ⟨hkept hnext, trivial⟩⟩, fun _ => hnext⟩
  | filterConnect hdr =>
    simp only [canRxMachine] at hexec
    split at hexec
    · obtain rfl := Option.some.inj hexec
      obtain ⟨hlaw, hnext⟩ := hinv.filterConnect_step hdr
      exact ⟨⟨fun h => hlaw.mp h.1, fun h => ⟨hlaw.mpr h, trivial⟩⟩, hnext⟩
    · cases hexec
  | filterDisconnect hdr =>
    have hnext : ∃ free use hdrs, s'.Inv cfg free use hdrs := by
      simp only [canRxMachine] at hexec
      split at hexec
      · obtain rfl := Option.some.inj hexec
        obtain ⟨hdrs', hlists⟩ := hinv.lists.disconnect hdr
        obtain ⟨links, connected, msgs, heq⟩ := s.filterDisconnect_frame hdr
        rw [heq] at hlists ⊢
        exact ⟨free, use, hdrs', hlists, hinv.partition, hinv.freenumbers, hinv.taken, hinv.received⟩
      · obtain rfl := Option.some.inj hexec
        exact ⟨free, use, hdrs, hinv⟩
    exact ⟨⟨fun _ => trivial, fun _ => ⟨hkept hnext, trivial⟩⟩, fun _ => hnext⟩

end

theorem opened_lists (cfg : CanConfig) (msg : CanMsg) (count : Nat) :
    ({ opened cfg msg with
      links := (List.range count).foldl
        (fun links node => links.insertBefore .freelist (.list node)) ⟨id, id⟩ } : CanRx).Lists
      (List.range count) [] fun _ => [] := by
  induction count with
  | zero =>
    refine ⟨⟨fun head => ?_, fun a b hne link hlink h => ?_⟩, fun _ _ => ⟨rfl, rfl⟩, nofun,
      fun _ => ⟨0, rfl⟩, nofun, .nil, nofun⟩
    · cases head <;> exact ListNodes.ring_nil rfl rfl
    · have ha : link = a.link := by cases a <;> exact List.mem_singleton.mp hlink
      have hb : link = b.link := by cases b <;> exact List.mem_singleton.mp h
      have heq : a.link = b.link := ha.symm.trans hb
      cases a <;> cases b <;> cases heq <;> exact hne rfl
  | succ count ih =>
    rw [List.range_succ, List.foldl_append]
    exact ih.insert_free (by simp) nofun

theorem opened_inv (cfg : CanConfig) (msg : CanMsg) :
    (opened cfg msg).Inv cfg (List.range cfg.msgboxsz) [] fun _ => [] where
  lists := opened_lists cfg msg cfg.msgboxsz
  partition := by
    show (List.range cfg.msgboxsz ++ [] ++ ([] ++ [])).Perm _
    rw [List.append_nil, List.append_nil, List.append_nil]
  freenumbers := List.length_range.symm
  taken := nofun
  received := rfl

instance (cfg : CanConfig) (s : CanRx) (hdr : Nat) : Decidable (s.Whole cfg hdr) :=
  inferInstanceAs (Decidable (∀ node ∈ s.ownedBy (s.useNodes cfg) hdr, node ∈ s.hdrNodes cfg hdr))

instance (cfg : CanConfig) (s : CanRx) (request : Int) (hdr : Nat) :
    Decidable (s.Serves cfg request hdr) :=
  inferInstanceAs (Decidable ((∀ node ∈ s.oldest cfg request,
    hdr < cfg.maxhdr ∧ s.owner node = some hdr ∧ s.Whole cfg hdr) ∧
      (s.oldest cfg request = none → hdr < cfg.maxhdr → s.hdrNodes cfg hdr = [])))

instance (cfg : CanConfig) (s : CanRx) (op : CanOp) : Decidable (s.Proper cfg op) :=
  match op with
  | .isrTake _ =>
    inferInstanceAs (Decidable (s.rtListIsempty .freelist = false ∨ s.rtListIsempty .uselist = false))
  | .readTake request => inferInstanceAs (Decidable (s.Serves cfg request (hdrField request).toNat))
  | .filterConnect hdr => inferInstanceAs (Decidable (s.ownedBy (s.useNodes cfg) hdr = []))
  | .isrStore _ _ | .readFree _ _ | .filterCheck _ | .filterDisconnect _ => .isTrue trivial

theorem reachable_inv (cfg : CanConfig) {s : CanRx}
    (hreach : (canRxMachine cfg).Reachable (fun s op => s.Proper cfg op) s) :
    ∃ free use hdrs, s.Inv cfg free use hdrs := by
  refine hreach.invariant (fun s => ∃ free use hdrs, s.Inv cfg free use hdrs) ?_ ?_
  · rintro s ⟨msg, rfl⟩
    exact ⟨_, _, _, CanRx.opened_inv cfg msg⟩
  · rintro s op s' ⟨free, use, hdrs, hinv⟩ hproper hexec
    exact (hinv.step hexec).2 hproper

/-- A read of a connected header gives the oldest message that the header owns. -/
theorem reachable_read_connected (cfg : CanConfig) {s : CanRx} {hdr : Nat}
    (hreach : (canRxMachine cfg).Reachable (fun s op => s.Proper cfg op) s)
    (hconnected : s.connected hdr = true) (hvalid : hdr < cfg.maxhdr) (hfield : hdr < 256) :
    (s.canIntRx cfg.maxhdr hdr).1 = (s.ownedBy (s.useNodes cfg) hdr).head? := by
  obtain ⟨free, use, hdrs, hinv⟩ := reachable_inv cfg hreach
  have hhdr : (hdrField hdr).toNat = hdr := by
    unfold hdrField
    omega
  have howned := hinv.useNodes_eq ▸ (hinv.lists.connected hdr hconnected).1
  have holdest : s.oldest cfg hdr = (s.ownedBy (s.useNodes cfg) hdr).head? :=
    if_neg (by omega)
  rw [(hinv.readTake_step hdr).1.mpr ((hinv.serves_iff hdr).mpr ?_), holdest]
  rw [hhdr, if_pos hvalid, howned, holdest]

end CanRx

/-- Proper steps keep nodes, lists, owners and counters in agreement and serve reads from the oldest
message, and no other step does. -/
theorem reachable_canRxLaw (cfg : CanConfig) {s : CanRx}
    (hreach : (canRxMachine cfg).Reachable (fun s op => s.Proper cfg op) s) :
    s.Law cfg ∧ ∀ op s', (canRxMachine cfg).exec s op = some s' →
      (s.StepLaw cfg op s' ↔ s.Proper cfg op) := by
  obtain ⟨free, use, hdrs, hinv⟩ := CanRx.reachable_inv cfg hreach
  exact ⟨hinv.law, fun _ _ hexec => (hinv.step hexec).1⟩

def msgFor (id hdr : Nat) : CanMsg := ⟨id, false, false, 0, hdr, []⟩

def twoNodes : CanConfig := ⟨2, 2, by decide⟩

theorem reachable_canRxLaw_filtered :
    ∃ s, (canRxMachine twoNodes).Reachable (fun s op => s.Proper twoNodes op) s ∧
      s.delivered = 1 ∧ s.dropedrcvpkg = 1 ∧ s.Law twoNodes ∧
      s.StepLaw twoNodes (.readTake 1) (s.readTake 2 1) := by
  have hrun : ((canRxMachine twoNodes).run (fun s op => s.Proper twoNodes op)
      (CanRx.opened twoNodes (msgFor 0 0))
      [.filterCheck 1, .filterConnect 1, .isrTake (msgFor 5 0), .isrStore 0 (msgFor 5 0),
        .isrTake (msgFor 6 1), .isrStore 1 (msgFor 6 1), .readTake 1, .isrTake (msgFor 7 1),
        .readFree 1 (msgFor 6 1), .isrStore 0 (msgFor 7 1)]).map
      (fun s => (s.delivered, s.dropedrcvpkg, decide (s.Proper twoNodes (.readTake 1)))) =
        some (1, 1, true) := by
    decide +kernel
  obtain ⟨s, hreach, hvalue⟩ := Machine.exists_reachable_of_run
    (show (canRxMachine twoNodes).init _ from ⟨msgFor 0 0, rfl⟩) hrun
  simp only [Prod.mk.injEq, decide_eq_true_eq] at hvalue
  obtain ⟨hdelivered, hdroped, hproper⟩ := hvalue
  have hlaws := reachable_canRxLaw twoNodes hreach
  exact ⟨s, hreach, hdelivered, hdroped, hlaws.1, (hlaws.2 (.readTake 1) _ rfl).mpr hproper⟩

/-- A read of any message finds none, as -1 is 255 in the field. -/
theorem unread_not_stepLaw :
    ∃ s, (canRxMachine twoNodes).Reachable (fun _ _ => True) s ∧
      ∃ s', (canRxMachine twoNodes).exec s (.readTake (-1)) = some s' ∧
        ¬ s.StepLaw twoNodes (.readTake (-1)) s' := by
  have hrun : ((canRxMachine twoNodes).run (fun _ _ => True) (CanRx.opened twoNodes (msgFor 0 0))
      [.isrTake (msgFor 5 0), .isrStore 0 (msgFor 5 0)]).map
      (fun s => ((s.canIntRx 2 (-1)).1, s.oldest twoNodes (-1))) = some (none, some 0) := by
    decide +kernel
  obtain ⟨s, hreach, hvalue⟩ := Machine.exists_reachable_of_run
    (show (canRxMachine twoNodes).init _ from ⟨msgFor 0 0, rfl⟩) hrun
  obtain ⟨hread, holdest⟩ := Prod.mk.inj hvalue
  refine ⟨s, hreach, _, rfl, fun h => ?_⟩
  have hsame : (s.canIntRx 2 (-1)).1 = s.oldest twoNodes (-1) := h.2
  rw [hread, holdest] at hsame
  cases hsame

end RtThread.Device
