import Mathlib.Data.List.TakeWhile
import RtThread.Driver.WorkQueue

namespace RtThread.Driver

open Function RtThread.Ipc RtThread.Lib WorkNode

namespace WorkNode

variable {list : List Work} {v w : Work} {key : Work → Nat}

theorem next_of_not_mem (hfree : v ∉ list) : next list (.work v) = .work v := by
  have hdrop : list.dropWhile (· ≠ v) = [] := by
    rw [List.dropWhile_eq_nil_iff]
    intro u hmem
    rw [decide_eq_true_eq]
    rintro rfl
    exact hfree hmem
  simp only [next, hdrop]

theorem next_le_of_lt (hsorted : list.Pairwise (key · < key ·)) (hv : v ∈ list) (hw : w ∈ list)
    (hlt : key v < key w) : ∃ u, next list (.work v) = .work u ∧ key u ≤ key w := by
  induction list with
  | nil => exact absurd hv List.not_mem_nil
  | cons first rest ih =>
    have hfirst := List.pairwise_cons.mp hsorted
    rcases eq_or_ne first v with rfl | hne
    · have hrest : w ∈ rest := by
        rcases List.mem_cons.mp hw with rfl | hmem
        · exact absurd hlt (Nat.lt_irrefl _)
        · exact hmem
      cases rest with
      | nil => exact absurd hrest List.not_mem_nil
      | cons following rest =>
        refine ⟨following, by simp [next], ?_⟩
        rcases List.mem_cons.mp hrest with rfl | hmem
        · exact le_rfl
        · exact ((List.pairwise_cons.mp hfirst.2).1 w hmem).le
    · have hv' : v ∈ rest := (List.mem_cons.mp hv).resolve_left (Ne.symm hne)
      have hw' : w ∈ rest := by
        rcases List.mem_cons.mp hw with rfl | hmem
        · exact absurd ((hfirst.1 v hv').trans hlt) (Nat.lt_irrefl _)
        · exact hmem
      obtain ⟨u, hnext, hle⟩ := ih hfirst.2 hv' hw'
      refine ⟨u, ?_, hle⟩
      simpa [next, hne] using hnext

theorem next_head_le (hsorted : list.Pairwise (key · < key ·)) (hw : w ∈ list) :
    ∃ u, next list .head = .work u ∧ key u ≤ key w := by
  cases list with
  | nil => exact absurd hw List.not_mem_nil
  | cons first rest =>
    refine ⟨first, rfl, ?_⟩
    rcases List.mem_cons.mp hw with rfl | hmem
    · exact le_rfl
    · exact ((List.pairwise_cons.mp hsorted).1 w hmem).le

end WorkNode

/-- The node that a call of `rt_workqueue_cancel_all_work` goes on with. -/
def WorkCursor.target (cursor : WorkCursor) : WorkNode := cursor.next.getD cursor.node

def WorkCursor.InHand (cursor : WorkCursor) (w : Work) : Prop :=
  cursor.next ≠ none ∧ cursor.node = .work w

instance (cursor : WorkCursor) (w : Work) : Decidable (cursor.InHand w) :=
  inferInstanceAs (Decidable (_ ∧ _))

namespace WorkQueue

def stampOf (s : WorkQueue) (w : Work) : Nat := (s.stamp w).getD 0

def Ahead (s : WorkQueue) (w : Work) : WorkNode → Prop
  | .head => False
  | .work u => u ∈ s.workList → s.stampOf u ≤ s.stampOf w

def CursorOk (s : WorkQueue) (cursor : WorkCursor) : Prop :=
  ∀ w ∈ s.workList, s.stampOf w < cursor.since → cursor.InHand w ∨ s.Ahead w cursor.target

structure ListOk (s : WorkQueue) : Prop where
  sorted : s.workList.Pairwise (s.stampOf · < s.stampOf ·)
  linked : ∀ w ∈ s.workList, ∃ i, s.stamp w = some i
  stamped : ∀ w i, s.stamp w = some i →
    s.submissions[i]? = some w ∧ some i ∉ s.executed.map Prod.snd
  used : ∀ i, some i ∈ s.executed.map Prod.snd → i < s.submissions.length
  since_le : ∀ cursor ∈ s.cancelling, cursor.since ≤ s.submissions.length
  cursorOk : ∀ cursor ∈ s.cancelling, s.CursorOk cursor

/-- No work that a call of `rt_workqueue_cancel_all_work` has still to come to is left behind
if the submitted work goes to the end of the list. -/
def LeavesNoneBehind (s : WorkQueue) (x : Work) : Prop :=
  s.workCurrent ≠ some (.work x) → ∀ cursor ∈ s.cancelling, cursor.target = .work x →
    ∀ w ∈ s.workList, w = x ∨ cursor.since ≤ s.stampOf w ∨ cursor.InHand w

instance (s : WorkQueue) (x : Work) : Decidable (s.LeavesNoneBehind x) :=
  inferInstanceAs (Decidable (_ → _))

/-- The worker takes a work only from a list that is not empty and does not suspend itself
beside one unless a call is about to resume it, and no `rt_workqueue_cancel_all_work` is
sent past a work. -/
def Orderly (s : WorkQueue) : WorkOp → Prop
  | .dowork x => s.LeavesNoneBehind x
  | .criticalWork x => s.LeavesNoneBehind x
  | .worker =>
    (s.phase = .take → s.workList ≠ []) ∧
      (s.phase = .suspend → s.workList = [] ∨ 0 < s.toResume + s.resuming)
  | _ => True

instance (s : WorkQueue) (op : WorkOp) : Decidable (s.Orderly op) := by
  unfold Orderly
  split <;> infer_instance

section Lists

variable {s s' : WorkQueue} {node : WorkNode} {cursor : WorkCursor} {v w : Work} {i : Nat}

theorem ListOk.congr (hok : s.ListOk) (hlist : s'.workList = s.workList)
    (hstamp : s'.stamp = s.stamp) (hsubmissions : s'.submissions = s.submissions)
    (hexecuted : s'.executed = s.executed) (hcancelling : s'.cancelling = s.cancelling) :
    s'.ListOk := by
  obtain ⟨workList, _, _, _, _, _, _, _, cancelling, submissions, stamp, executed⟩ := s'
  subst hlist hstamp hsubmissions hexecuted hcancelling
  exact ⟨hok.sorted, hok.linked, hok.stamped, hok.used, hok.since_le, hok.cursorOk⟩

theorem mem_removeNode : w ∈ (s.removeNode node).workList ↔ w ∈ s.workList ∧ node ≠ .work w := by
  cases node with
  | head => simp [removeNode, unlink]
  | work v => simp [removeNode, unlink, eq_comm]

theorem removeNode_stamp :
    (s.removeNode node).stamp w = if node = .work w then none else s.stamp w := by
  cases node with
  | head => simp [removeNode]
  | work v => simp [removeNode, update_apply, eq_comm]

theorem removeNode_stampOf (hne : node ≠ .work w) :
    (s.removeNode node).stampOf w = s.stampOf w := by
  rw [stampOf, removeNode_stamp, if_neg hne, stampOf]

theorem removeNode_sublist : (s.removeNode node).workList.Sublist s.workList := by
  cases node with
  | head => exact List.Sublist.refl _
  | work v => exact List.filter_sublist

theorem CursorOk.of_subset (hok : s.CursorOk cursor)
    (hsubset : ∀ w ∈ s'.workList, w ∈ s.workList ∧ s'.stampOf w = s.stampOf w) :
    s'.CursorOk cursor := by
  intro w hmem hold
  obtain ⟨hbefore, hstamp⟩ := hsubset w hmem
  rw [hstamp] at hold
  refine (hok w hbefore hold).imp id fun hahead => ?_
  unfold Ahead at hahead ⊢
  cases htarget : cursor.target with
  | head => rwa [htarget] at hahead
  | work u =>
    rw [htarget] at hahead
    intro hu
    obtain ⟨hu', hustamp⟩ := hsubset u hu
    rw [hustamp, hstamp]
    exact hahead hu'

theorem removeNode_subset : ∀ w ∈ (s.removeNode node).workList,
    w ∈ s.workList ∧ (s.removeNode node).stampOf w = s.stampOf w := by
  intro w hmem
  obtain ⟨hbefore, hne⟩ := mem_removeNode.mp hmem
  exact ⟨hbefore, removeNode_stampOf hne⟩

section

variable (hok : s.ListOk)
include hok

theorem ListOk.sorted_of_subset (hsub : s'.workList.Sublist s.workList)
    (hsubset : ∀ w ∈ s'.workList, w ∈ s.workList ∧ s'.stampOf w = s.stampOf w) :
    s'.workList.Pairwise (s'.stampOf · < s'.stampOf ·) := by
  refine (hok.sorted.sublist hsub).imp_of_mem fun hv hw hlt => ?_
  rwa [(hsubset _ hv).2, (hsubset _ hw).2]

theorem ListOk.removeNode (node : WorkNode) : (s.removeNode node).ListOk where
  sorted := hok.sorted_of_subset removeNode_sublist removeNode_subset
  linked := by
    intro w hmem
    obtain ⟨hbefore, hne⟩ := mem_removeNode.mp hmem
    rw [removeNode_stamp, if_neg hne]
    exact hok.linked w hbefore
  stamped := by
    intro w i hstamp
    rw [removeNode_stamp] at hstamp
    split at hstamp
    · cases hstamp
    · exact hok.stamped w i hstamp
  used := hok.used
  since_le := hok.since_le
  cursorOk := fun cursor hmem => (hok.cursorOk cursor hmem).of_subset removeNode_subset

theorem ListOk.stampOf_lt (hmem : w ∈ s.workList) : s.stampOf w < s.submissions.length := by
  obtain ⟨i, hi⟩ := hok.linked w hmem
  rw [stampOf, hi]
  exact (List.getElem?_eq_some_iff.mp (hok.stamped w i hi).1).1

theorem ListOk.submit (hbehind : s.LeavesNoneBehind w) : (s.submit w).ListOk := by
  unfold WorkQueue.submit
  split
  · exact hok
  next hfree =>
    have hmem : ∀ v, v ∈ listRemove w s.workList ++ [w] → v = w ∨ v ∈ s.workList ∧ v ≠ w := by
      intro v hv
      simp only [List.mem_append, mem_listRemove, List.mem_singleton] at hv
      exact hv.symm
    have hstampOf : ∀ v, v ≠ w →
        (update s.stamp w (some s.submissions.length) v).getD 0 = s.stampOf v := by
      intro v hne
      rw [update_of_ne hne, stampOf]
    have hnew : (update s.stamp w (some s.submissions.length) w).getD 0 = s.submissions.length := by
      rw [update_self, Option.getD_some]
    refine ⟨?_, ?_, ?_, ?_, ?_, ?_⟩
    · refine List.pairwise_append.mpr ⟨?_, List.pairwise_singleton _ _, ?_⟩
      · refine (hok.sorted.sublist List.filter_sublist).imp_of_mem fun hu hv hlt => ?_
        change Option.getD _ 0 < Option.getD _ 0
        rwa [hstampOf _ (mem_listRemove.mp hu).2, hstampOf _ (mem_listRemove.mp hv).2]
      · intro v hv u hu
        obtain ⟨hv, hne⟩ := mem_listRemove.mp hv
        rw [List.mem_singleton.mp hu]
        change Option.getD _ 0 < Option.getD _ 0
        rw [hstampOf v hne, hnew]
        exact hok.stampOf_lt hv
    · intro v hv
      change ∃ i, update s.stamp w _ v = some i
      rcases hmem v hv with rfl | ⟨hv, hne⟩
      · exact ⟨_, update_self _ _ _⟩
      · rw [update_of_ne hne]
        exact hok.linked v hv
    · intro v i hstamp
      change update s.stamp w _ v = some i at hstamp
      rcases eq_or_ne v w with rfl | hne
      · rw [update_self] at hstamp
        obtain rfl := Option.some.inj hstamp
        refine ⟨List.getElem?_concat_length, fun hused => ?_⟩
        exact absurd (hok.used _ hused) (Nat.lt_irrefl _)
      · rw [update_of_ne hne] at hstamp
        obtain ⟨hsubmitted, hfresh⟩ := hok.stamped v i hstamp
        have hlt := (List.getElem?_eq_some_iff.mp hsubmitted).1
        refine ⟨?_, hfresh⟩
        change (s.submissions ++ [w])[i]? = some v
        rw [List.getElem?_append_left hlt, hsubmitted]
    · intro i hused
      have hlt := hok.used i hused
      simp only [List.length_append, List.length_singleton]
      omega
    · intro cursor hcursor
      have hle := hok.since_le cursor hcursor
      simp only [List.length_append, List.length_singleton]
      omega
    · intro cursor hcursor v hv hold
      change Option.getD _ 0 < _ at hold
      rcases hmem v hv with rfl | ⟨hlinked, hne⟩
      · have hle := hok.since_le cursor hcursor
        rw [hnew] at hold
        exact absurd hold (Nat.not_lt.mpr hle)
      · rw [hstampOf v hne] at hold
        rcases hok.cursorOk cursor hcursor v hlinked hold with hhand | hahead
        · exact .inl hhand
        · unfold Ahead at hahead ⊢
          cases htarget : cursor.target with
          | head => rw [htarget] at hahead; exact hahead.elim
          | work u =>
            rw [htarget] at hahead
            by_cases hu : u = w
            · subst hu
              rcases hbehind hfree cursor hcursor htarget v hlinked with heq | hle | hhand
              · exact absurd heq hne
              · exact absurd hold (Nat.not_lt.mpr hle)
              · exact .inl hhand
            · refine .inr fun hmem' => ?_
              change Option.getD _ 0 ≤ Option.getD _ 0
              rw [hstampOf v hne, hstampOf u hu]
              exact hahead ((hmem u hmem').resolve_left hu).1

theorem ListOk.eq_of_stampOf_eq (hv : v ∈ s.workList) (hw : w ∈ s.workList)
    (heq : s.stampOf v = s.stampOf w) : v = w := by
  obtain ⟨i, hi⟩ := hok.linked v hv
  obtain ⟨j, hj⟩ := hok.linked w hw
  simp only [stampOf, hi, hj, Option.getD_some] at heq
  subst heq
  have hsame := (hok.stamped v i hi).1.symm.trans (hok.stamped w i hj).1
  exact Option.some.inj hsame

theorem ListOk.cancelAllBegin : s.cancelAllBegin.ListOk where
  sorted := hok.sorted
  linked := hok.linked
  stamped := hok.stamped
  used := hok.used
  since_le := by
    intro cursor hmem
    rcases List.mem_append.mp hmem with hold | hnew
    · exact hok.since_le cursor hold
    · rw [List.mem_singleton.mp hnew]
      exact Nat.le_refl _
  cursorOk := by
    intro cursor hmem
    rcases List.mem_append.mp hmem with hold | hnew
    · exact hok.cursorOk cursor hold
    · rw [List.mem_singleton.mp hnew]
      intro w hw _
      obtain ⟨u, hnext, hle⟩ := next_head_le hok.sorted hw
      right
      simp only [WorkCursor.target, Option.getD_none, hnext]
      exact fun _ => hle

theorem ListOk.cursorOk_next (hcursor : s.CursorOk cursor)
    (hnext : cursor.next = none) (hnode : cursor.node ≠ .head) :
    s.CursorOk { cursor with next := some (cursor.node.next s.workList) } := by
  intro w hw hold
  have hahead := (hcursor w hw hold).resolve_left fun hhand => hhand.1 hnext
  simp only [WorkCursor.target, hnext, Option.getD_none] at hahead
  cases hv : cursor.node with
  | head => exact absurd hv hnode
  | work v =>
    rw [hv] at hahead
    by_cases hlinked : v ∈ s.workList
    · have hle := hahead hlinked
      rcases Nat.lt_or_eq_of_le hle with hlt | heq
      · obtain ⟨u, hu, hle'⟩ := next_le_of_lt hok.sorted hlinked hw hlt
        right
        simp only [WorkCursor.target, Option.getD_some, hu]
        exact fun _ => hle'
      · left
        refine ⟨Option.some_ne_none _, ?_⟩
        rw [← hok.eq_of_stampOf_eq hlinked hw heq]
    · right
      simp only [WorkCursor.target, Option.getD_some, next_of_not_mem hlinked]
      exact fun hmem => absurd hmem hlinked

theorem ListOk.setCursor {cursor' : WorkCursor}
    (hmem : cursor ∈ s.cancelling) (hsince : cursor'.since = cursor.since)
    (hcursor : s.CursorOk cursor') : { s with cancelling := s.cancelling.set i cursor' }.ListOk where
  sorted := hok.sorted
  linked := hok.linked
  stamped := hok.stamped
  used := hok.used
  since_le := by
    intro other hother
    rcases List.mem_or_eq_of_mem_set hother with hold | rfl
    · exact hok.since_le other hold
    · rw [hsince]
      exact hok.since_le cursor hmem
  cursorOk := by
    intro other hother
    rcases List.mem_or_eq_of_mem_set hother with hold | rfl
    · exact hok.cursorOk other hold
    · exact hcursor

theorem ListOk.cancelAllNext (hmem : cursor ∈ s.cancelling)
    (hnext : cursor.next = none) (hnode : cursor.node ≠ .head) :
    (s.cancelAllNext i cursor).ListOk :=
  hok.setCursor hmem rfl (hok.cursorOk_next (hok.cursorOk cursor hmem) hnext hnode)

theorem ListOk.cancelAllRemove {next : WorkNode} (hmem : cursor ∈ s.cancelling)
    (hnext : cursor.next = some next) : (s.cancelAllRemove i cursor next).ListOk := by
  refine (hok.removeNode cursor.node).setCursor hmem rfl ?_
  intro w hw hold
  obtain ⟨hbefore, hne⟩ := mem_removeNode.mp hw
  have hstill := ((hok.cursorOk cursor hmem).of_subset removeNode_subset) w hw hold
  have hahead := hstill.resolve_left fun hhand => hne hhand.2
  right
  simpa only [WorkCursor.target, hnext, Option.getD_some, Option.getD_none] using hahead

theorem ListOk.cancelAllEnd (hmem : cursor ∈ s.cancelling)
    (hnext : cursor.next = none) (hnode : cursor.node = .head) :
    (s.cancelAllEnd i cursor).ListOk := by
  have hnew : ∀ w ∈ s.workList, cursor.since ≤ s.stampOf w := by
    intro w hw
    by_contra hold
    rcases hok.cursorOk cursor hmem w hw (Nat.lt_of_not_le hold) with hhand | hahead
    · exact hhand.1 hnext
    · simp only [WorkCursor.target, hnext, hnode, Option.getD_none, Ahead] at hahead
  have hkept : ∀ w ∈ s.workList, (s.cancelAllEnd i cursor).stamp w = s.stamp w := by
    intro w hw
    obtain ⟨n, hn⟩ := hok.linked w hw
    have hle := hnew w hw
    rw [stampOf, hn, Option.getD_some] at hle
    simp [WorkQueue.cancelAllEnd, hn, hle]
  have hsubset : ∀ w ∈ (s.cancelAllEnd i cursor).workList,
      w ∈ s.workList ∧ (s.cancelAllEnd i cursor).stampOf w = s.stampOf w :=
    fun w hw => ⟨hw, by rw [stampOf, hkept w hw, stampOf]⟩
  refine ⟨hok.sorted_of_subset (List.Sublist.refl _) hsubset, ?_, ?_, hok.used, ?_, ?_⟩
  · intro w hw
    rw [hkept w hw]
    exact hok.linked w hw
  · intro w n hstamp
    exact hok.stamped w n (Option.filter_eq_some_iff.mp hstamp).1
  · intro other hother
    exact hok.since_le other (List.mem_of_mem_eraseIdx hother)
  · intro other hother
    exact (hok.cursorOk other (List.mem_of_mem_eraseIdx hother)).of_subset hsubset

theorem ListOk.take {submission : Option Nat} (hmem : w ∈ s.workList)
    (hstamp : s.stamp w = submission) :
    { s.removeNode (.work w) with
      executed := s.executed ++ [(work w, submission)] }.ListOk := by
  have hremoved := hok.removeNode (.work w)
  obtain ⟨n, hn⟩ := hok.linked w hmem
  obtain rfl := hstamp.symm.trans hn
  have hsubmitted := (hok.stamped w n hn).1
  refine ⟨hremoved.sorted, hremoved.linked, ?_, ?_, hremoved.since_le, hremoved.cursorOk⟩
  · intro v i hv
    obtain ⟨hv', hfresh⟩ := hremoved.stamped v i hv
    refine ⟨hv', ?_⟩
    rw [List.map_append, List.mem_append, not_or]
    refine ⟨hfresh, fun hsame => ?_⟩
    obtain rfl := Option.some.inj (List.mem_singleton.mp hsame)
    have heq : v = w := Option.some.inj (hv'.symm.trans hsubmitted)
    rw [heq] at hv
    simp [removeNode_stamp] at hv
  · intro i hused
    rw [List.map_append, List.mem_append] at hused
    rcases hused with hold | hnew
    · exact hok.used i hold
    · obtain rfl := Option.some.inj (List.mem_singleton.mp hnew)
      exact (List.getElem?_eq_some_iff.mp hsubmitted).1

end

end Lists

/-- The worker executes submissions, each at most once, and does not sleep beside a work
unless a call is about to resume it. -/
structure Safe (s : WorkQueue) : Prop where
  executed : ∀ entry ∈ s.executed, ∃ w i, entry = (.work w, some i) ∧ s.submissions[i]? = some w
  once : (s.executed.map Prod.snd).Nodup
  awake : s.stat = .suspend → s.workList ≠ [] → 0 < s.toResume + s.resuming

structure Inv (s : WorkQueue) : Prop extends Safe s where
  listOk : s.ListOk
  scheduled : s.stat ≠ .ready → s.phase = .scheduled
  current : s.workCurrent ≠ none → s.phase = .running ∨ s.phase = .clean

section Runs

variable {s s' : WorkQueue} {op : WorkOp} {w : Work}

theorem Inv.submit (hinv : s.Inv) (hbehind : s.LeavesNoneBehind w) : (s.submit w).Inv := by
  have hlist := hinv.listOk.submit hbehind
  unfold WorkQueue.submit at hlist ⊢
  split
  · exact hinv
  next hfree =>
    rw [if_neg hfree] at hlist
    refine ⟨⟨?_, hinv.once, fun hsleeps _ => ?_⟩, hlist, hinv.scheduled, hinv.current⟩
    · intro entry hentry
      obtain ⟨v, i, heq, hsubmitted⟩ := hinv.executed entry hentry
      have hlt := (List.getElem?_eq_some_iff.mp hsubmitted).1
      refine ⟨v, i, heq, ?_⟩
      change (s.submissions ++ [w])[i]? = some v
      rw [List.getElem?_append_left hlt, hsubmitted]
    · have hphase := hinv.scheduled (by rw [hsleeps]; decide)
      have hidle : s.workCurrent = none := by
        by_contra hbusy
        rcases hinv.current hbusy with hrunning | hclean
        · rw [hphase] at hrunning; cases hrunning
        · rw [hphase] at hclean; cases hclean
      simp only [hidle, if_true]
      omega

theorem Inv.of_removed (hinv : s.Inv) (hlist : s'.ListOk)
    (hworkList : s.workList = [] → s'.workList = []) (hexecuted : s'.executed = s.executed)
    (hsubmissions : s'.submissions = s.submissions) (hstat : s'.stat = s.stat)
    (hphase : s'.phase = s.phase) (hcurrent : s'.workCurrent = s.workCurrent)
    (hresume : s'.toResume + s'.resuming = s.toResume + s.resuming) : s'.Inv where
  executed := by
    rw [hexecuted, hsubmissions]
    exact hinv.executed
  once := by
    rw [hexecuted]
    exact hinv.once
  awake := by
    rw [hstat, hresume]
    exact fun hsleeps hsome => hinv.awake hsleeps fun hempty => hsome (hworkList hempty)
  listOk := hlist
  scheduled := by
    rw [hstat, hphase]
    exact hinv.scheduled
  current := by
    rw [hcurrent, hphase]
    exact hinv.current

theorem removeNode_nil {node : WorkNode} (hempty : s.workList = []) :
    (s.removeNode node).workList = [] :=
  List.sublist_nil.mp (hempty ▸ removeNode_sublist)

theorem Inv.removeNode (hinv : s.Inv) (node : WorkNode) : (s.removeNode node).Inv :=
  hinv.of_removed (hinv.listOk.removeNode node) removeNode_nil rfl rfl rfl rfl rfl rfl

theorem Inv.of_awake (hinv : s.Inv) (hlist : s'.workList = s.workList)
    (hstamp : s'.stamp = s.stamp) (hsubmissions : s'.submissions = s.submissions)
    (hexecuted : s'.executed = s.executed) (hcancelling : s'.cancelling = s.cancelling)
    (hready : s'.stat = .ready)
    (hcurrent : s'.workCurrent ≠ none → s'.phase = .running ∨ s'.phase = .clean) : s'.Inv where
  executed := by
    rw [hexecuted, hsubmissions]
    exact hinv.executed
  once := by
    rw [hexecuted]
    exact hinv.once
  awake := by
    intro hsleeps
    rw [hready] at hsleeps
    cases hsleeps
  listOk := hinv.listOk.congr hlist hstamp hsubmissions hexecuted hcancelling
  scheduled := fun hne => absurd hready hne
  current := hcurrent

theorem Inv.stat_ready (hinv : s.Inv) (hphase : s.phase ≠ .scheduled) : s.stat = .ready := by
  by_contra hne
  exact hphase (hinv.scheduled hne)

theorem Inv.idle (hinv : s.Inv) (hrunning : s.phase ≠ .running) (hclean : s.phase ≠ .clean) :
    s.workCurrent = none := by
  by_contra hbusy
  exact (hinv.current hbusy).elim hrunning hclean

theorem Inv.take (hinv : s.Inv) (hphase : s.phase = .take) (hsome : s.workList ≠ [])
    (hexec : s.worker = some s') : s'.Inv := by
  obtain ⟨first, rest, hlist⟩ := List.exists_cons_of_ne_nil hsome
  have hmem : first ∈ s.workList := by
    rw [hlist]
    exact List.mem_cons_self
  have hnode : head.next s.workList = .work first := by rw [hlist]; rfl
  obtain ⟨i, hi⟩ := hinv.listOk.linked first hmem
  obtain ⟨hsubmitted, hfresh⟩ := hinv.listOk.stamped first i hi
  simp only [worker, hphase, hnode, Option.some.injEq] at hexec
  have hready : s.stat = .ready := hinv.stat_ready (by rw [hphase]; decide)
  subst hexec
  refine ⟨⟨?_, ?_, fun hsleeps => ?_⟩, ?_, fun hne => absurd hready hne, fun _ => .inl rfl⟩
  · intro entry hentry
    rcases List.mem_append.mp hentry with hold | hnew
    · exact hinv.executed entry hold
    · exact ⟨first, i, by rw [List.mem_singleton.mp hnew, hi], hsubmitted⟩
  · change (List.map Prod.snd (_ ++ _)).Nodup
    rw [List.map_append, List.nodup_append]
    refine ⟨hinv.once, by simp, fun old hold new hnew => ?_⟩
    rw [List.mem_singleton.mp hnew]
    rintro rfl
    rw [hi] at hold
    exact hfresh hold
  · rw [show s.stat = .suspend from hsleeps] at hready
    cases hready
  · exact (hinv.listOk.take hmem rfl).congr rfl rfl rfl rfl rfl

theorem Inv.worker (hinv : s.Inv) (horderly : s.Orderly .worker) (hexec : s.worker = some s') :
    s'.Inv := by
  cases hphase : s.phase with
  | test =>
    simp only [WorkQueue.worker, hphase, Option.some.injEq] at hexec
    have hready := hinv.stat_ready (by rw [hphase]; decide)
    have hidle := hinv.idle (by rw [hphase]; decide) (by rw [hphase]; decide)
    subst hexec
    exact hinv.of_awake rfl rfl rfl rfl rfl hready fun hbusy => absurd hidle hbusy
  | suspend =>
    simp only [WorkQueue.worker, hphase, Option.some.injEq] at hexec
    have hidle := hinv.idle (by rw [hphase]; decide) (by rw [hphase]; decide)
    subst hexec
    refine ⟨⟨hinv.executed, hinv.once, fun _ hsome => ?_⟩,
      hinv.listOk.congr rfl rfl rfl rfl rfl, fun _ => rfl, fun hbusy => absurd hidle hbusy⟩
    exact (horderly.2 hphase).resolve_left hsome
  | scheduled =>
    simp only [WorkQueue.worker, hphase, Option.ite_none_right_eq_some, Option.some.injEq] at hexec
    have hidle := hinv.idle (by rw [hphase]; decide) (by rw [hphase]; decide)
    obtain ⟨hready, rfl⟩ := hexec
    exact hinv.of_awake rfl rfl rfl rfl rfl hready fun hbusy => absurd hidle hbusy
  | take => exact hinv.take hphase (horderly.1 hphase) hexec
  | running =>
    have hready := hinv.stat_ready (by rw [hphase]; decide)
    simp only [WorkQueue.worker, hphase] at hexec
    split at hexec
    · cases hexec
      exact hinv.of_awake rfl rfl rfl rfl rfl hready fun _ => .inr rfl
    · cases hexec
  | clean =>
    simp only [WorkQueue.worker, hphase, Option.some.injEq] at hexec
    have hready := hinv.stat_ready (by rw [hphase]; decide)
    subst hexec
    exact hinv.of_awake rfl rfl rfl rfl rfl hready fun hbusy => absurd rfl hbusy
  | trytake =>
    simp only [WorkQueue.worker, hphase, Option.some.injEq] at hexec
    have hready := hinv.stat_ready (by rw [hphase]; decide)
    have hidle := hinv.idle (by rw [hphase]; decide) (by rw [hphase]; decide)
    subst hexec
    exact hinv.of_awake rfl rfl rfl rfl rfl hready fun hbusy => absurd hidle hbusy
  | release =>
    simp only [WorkQueue.worker, hphase, Option.some.injEq] at hexec
    have hready := hinv.stat_ready (by rw [hphase]; decide)
    have hidle := hinv.idle (by rw [hphase]; decide) (by rw [hphase]; decide)
    subst hexec
    exact hinv.of_awake rfl rfl rfl rfl rfl hready fun hbusy => absurd hidle hbusy

theorem Inv.step (hinv : s.Inv) (horderly : s.Orderly op) (hexec : s.exec op = some s') :
    s'.Inv := by
  cases op with
  | dowork w =>
    cases hexec
    exact hinv.submit horderly
  | criticalWork w =>
    cases hexec
    exact hinv.submit horderly
  | resumeTest =>
    simp only [exec, Option.ite_none_right_eq_some, Option.some.injEq] at hexec
    obtain ⟨hpending, rfl⟩ := hexec
    refine ⟨⟨hinv.executed, hinv.once, fun hsleeps hsome => ?_⟩,
      hinv.listOk.congr rfl rfl rfl rfl rfl, hinv.scheduled, hinv.current⟩
    have hstat : s.stat = .suspend := hsleeps
    simp only [hstat, if_true]
    omega
  | resumeInsert =>
    simp only [exec, Option.ite_none_right_eq_some, Option.some.injEq] at hexec
    obtain ⟨-, rfl⟩ := hexec
    exact hinv.of_awake rfl rfl rfl rfl rfl rfl hinv.current
  | cancelWork w =>
    cases hexec
    unfold rtWorkqueueCancelWork
    split
    · exact hinv
    · exact hinv.removeNode _
  | cancelWorkSync t w =>
    simp only [exec, Option.ite_none_right_eq_some, Option.some.injEq] at hexec
    obtain ⟨-, rfl⟩ := hexec
    unfold rtWorkqueueCancelWorkSync
    split
    · exact hinv.of_removed (hinv.listOk.congr rfl rfl rfl rfl rfl) id rfl rfl rfl rfl rfl rfl
    · exact hinv.removeNode _
  | cancelWorkSyncEnd t =>
    simp only [exec, Option.ite_none_right_eq_some, Option.some.injEq] at hexec
    obtain ⟨-, rfl⟩ := hexec
    exact hinv.of_removed (hinv.listOk.congr rfl rfl rfl rfl rfl) id rfl rfl rfl rfl rfl rfl
  | cancelAllBegin =>
    cases hexec
    exact hinv.of_removed hinv.listOk.cancelAllBegin id rfl rfl rfl rfl rfl rfl
  | cancelAllNext i =>
    simp only [exec] at hexec
    split at hexec
    next cursor hcursor =>
      simp only [Option.ite_none_right_eq_some, Option.some.injEq] at hexec
      obtain ⟨⟨hnext, hnode⟩, rfl⟩ := hexec
      exact hinv.of_removed
        (hinv.listOk.cancelAllNext (List.mem_of_getElem? hcursor) hnext hnode)
        id rfl rfl rfl rfl rfl rfl
    · cases hexec
  | cancelAllRemove i =>
    simp only [exec] at hexec
    split at hexec
    next cursor hcursor =>
      split at hexec
      next next hnext =>
        cases hexec
        exact hinv.of_removed
          (hinv.listOk.cancelAllRemove (List.mem_of_getElem? hcursor) hnext)
          removeNode_nil rfl rfl rfl rfl rfl rfl
      · cases hexec
    · cases hexec
  | cancelAllEnd i =>
    simp only [exec] at hexec
    split at hexec
    next cursor hcursor =>
      simp only [Option.ite_none_right_eq_some, Option.some.injEq] at hexec
      obtain ⟨⟨hnext, hnode⟩, rfl⟩ := hexec
      exact hinv.of_removed
        (hinv.listOk.cancelAllEnd (List.mem_of_getElem? hcursor) hnext hnode)
        id rfl rfl rfl rfl rfl rfl
    · cases hexec
  | worker => exact hinv.worker horderly hexec

theorem Initial.inv (hinit : s.Initial) : s.Inv where
  executed := by simp [hinit.executed]
  once := by simp [hinit.executed]
  awake := by simp [hinit.stat]
  listOk := by
    constructor <;>
      simp [hinit.workList, hinit.stamp, hinit.executed, hinit.cancelling]
  scheduled := fun hne => absurd hinit.stat hne
  current := fun hbusy => absurd hinit.workCurrent hbusy

/-- In every orderly run the worker only executes works that were submitted and not cancelled
since, and never sleeps with work to do. -/
theorem reachable_safe (hreach : workQueueMachine.Reachable Orderly s) : s.Safe := by
  have hinv : s.Inv := by
    refine hreach.invariant Inv (fun _ hinit => Initial.inv hinit) ?_
    intro before op after hbefore horderly hexec
    exact hbefore.step horderly hexec
  exact hinv.toSafe

end Runs

def orderlyRun : List WorkOp :=
  [.worker, .worker, .dowork 7, .criticalWork 8, .resumeTest, .resumeInsert, .cancelAllBegin,
    .cancelAllNext 0, .cancelAllRemove 0, .cancelAllNext 0, .cancelAllRemove 0, .cancelAllEnd 0,
    .dowork 7, .worker, .worker, .worker]

theorem reachable_safe_orderlyRun :
    ∃ s, workQueueMachine.Reachable Orderly s ∧ s.executed = [(.work 7, some 2)] ∧
      s.submissions = [7, 8, 7] ∧ s.Safe := by
  have hrun : (workQueueMachine.run Orderly workQueueStart orderlyRun).map
      (fun s => (s.executed, s.submissions)) = some ([(.work 7, some 2)], [7, 8, 7]) := by
    decide +kernel
  obtain ⟨s, hreach, hend⟩ := Machine.exists_reachable_of_run workQueueStart_initial hrun
  obtain ⟨hexecuted, hsubmissions⟩ := Prod.mk.inj hend
  exact ⟨s, hreach, hexecuted, hsubmissions, reachable_safe hreach⟩

def headRun : List WorkOp := [.dowork 7, .worker, .cancelWork 7, .worker]

theorem safe_fails_after_cancel :
    ∃ s, workQueueMachine.Reachable (fun _ _ => True) s ∧ s.executed = [(.head, none)] ∧
      ¬ s.Safe := by
  have hrun : (workQueueMachine.run (fun _ _ => True) workQueueStart headRun).map
      (fun s => s.executed) = some [(.head, none)] := by
    decide +kernel
  obtain ⟨s, hreach, hexecuted⟩ := Machine.exists_reachable_of_run workQueueStart_initial hrun
  refine ⟨s, hreach, hexecuted, fun hsafe => ?_⟩
  obtain ⟨w, i, heq, -⟩ := hsafe.executed (.head, none) (by rw [hexecuted]; exact List.mem_cons_self)
  cases heq

end WorkQueue

end RtThread.Driver
