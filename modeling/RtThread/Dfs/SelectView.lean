import RtThread.Dfs.Select

namespace RtThread.Dfs

variable {event : BitVec 16} {bit fd nfds : Nat}

def marked (event : BitVec 16) (pollset : List Pollfd) : List Nat :=
  (pollset.filter (·.revents &&& event ≠ 0)).map (·.fd)

def mark (event : BitVec 16) (pollset : List Pollfd) (set : Option FdSet) : Option FdSet :=
  set.map fun words => (marked event pollset).foldl (fun set fd => set.set fd) words

def marks (event : BitVec 16) (pollset : List Pollfd) (set : Option FdSet) : Nat :=
  if set.isSome then (marked event pollset).length else 0

theorem marked_cons (pollfd : Pollfd) (pollset : List Pollfd) :
    marked event (pollfd :: pollset) = marked event [pollfd] ++ marked event pollset := by
  unfold marked
  rw [← List.map_append, ← List.filter_append, List.singleton_append]

theorem marked_singleton (pollfd : Pollfd) :
    marked event [pollfd] = if pollfd.revents &&& event ≠ 0 then [pollfd.fd] else [] := by
  unfold marked
  by_cases hevent : pollfd.revents &&& event ≠ 0
  · rw [if_pos hevent, List.filter_cons_of_pos (by simpa using hevent)]
    rfl
  · rw [if_neg hevent, List.filter_cons_of_neg (by simpa using hevent)]
    rfl

theorem mark_isSome (pollset : List Pollfd) (set : Option FdSet) :
    (mark event pollset set).isSome = set.isSome := Option.isSome_map

theorem mark_cons (pollfd : Pollfd) (pollset : List Pollfd) (set : Option FdSet) :
    mark event (pollfd :: pollset) set = mark event pollset (mark event [pollfd] set) := by
  unfold mark
  rw [marked_cons, Option.map_map]
  apply congrArg (Option.map · set)
  funext words
  exact List.foldl_append

theorem marks_cons (pollfd : Pollfd) (pollset : List Pollfd) (set : Option FdSet) :
    marks event (pollfd :: pollset) set =
      marks event [pollfd] set + marks event pollset (mark event [pollfd] set) := by
  unfold marks
  rw [mark_isSome, marked_cons, List.length_append]
  split
  · rfl
  · rfl

theorem report_eq (pollfd : Pollfd) (set : Option FdSet) (ret : Nat) :
    report event pollfd set ret = (mark event [pollfd] set, ret + marks event [pollfd] set) := by
  cases set with
  | none => rfl
  | some words =>
    unfold report mark marks
    rw [marked_singleton]
    by_cases hevent : pollfd.revents &&& event ≠ 0
    · rw [if_pos hevent]
      dsimp only
      rw [if_pos hevent]
      rfl
    · rw [if_neg hevent]
      dsimp only
      rw [if_neg hevent]
      rfl

theorem foldl_convert (pollset : List Pollfd) (sets : FdSets) (ret : Nat) :
    pollset.foldl convert (sets, ret) =
      (⟨mark (pollIn ||| pollHup) pollset sets.readfds, mark pollOut pollset sets.writefds,
          mark pollErr pollset sets.exceptfds⟩,
        ret + (marks (pollIn ||| pollHup) pollset sets.readfds +
          marks pollOut pollset sets.writefds + marks pollErr pollset sets.exceptfds)) := by
  induction pollset generalizing sets ret with
  | nil =>
    have hmark (event : BitVec 16) (set : Option FdSet) : mark event [] set = set :=
      congrFun Option.map_id set
    have hmarks (event : BitVec 16) (set : Option FdSet) : marks event [] set = 0 := ite_self 0
    rw [hmark, hmark, hmark, hmarks, hmarks, hmarks]
    rfl
  | cons pollfd pollset ih =>
    have hconvert : convert (sets, ret) pollfd =
        (⟨mark (pollIn ||| pollHup) [pollfd] sets.readfds, mark pollOut [pollfd] sets.writefds,
            mark pollErr [pollfd] sets.exceptfds⟩,
          ret + marks (pollIn ||| pollHup) [pollfd] sets.readfds +
            marks pollOut [pollfd] sets.writefds + marks pollErr [pollfd] sets.exceptfds) := by
      simp only [convert, report_eq]
    rw [List.foldl_cons, hconvert, ih]
    dsimp only
    rw [← mark_cons, ← mark_cons, ← mark_cons, marks_cons pollfd pollset sets.readfds,
      marks_cons pollfd pollset sets.writefds, marks_cons pollfd pollset sets.exceptfds]
    congr 1
    omega

theorem inSet_mark (pollset : List Pollfd) (set : Option FdSet) (hfd : fd < nfds) :
    inSet fd (mark event pollset (set.map (·.fdszero nfds))) =
      (set.isSome && decide (fd ∈ marked event pollset)) := by
  cases set with
  | none => rfl
  | some words =>
    show FdSet.isset fd (_ : FdSet) = _
    rw [FdSet.isset_foldl_set, FdSet.isset_fdszero words fd hfd]
    rfl

section Round

variable (round : PollRound) (sets : FdSets)

def PollRound.reports (event : BitVec 16) (fd : Nat) : Bool :=
  (round.filled (sets.entry fd)).revents &&& event ≠ 0

theorem marked_poll : marked event (round.poll (sets.pollset nfds)).1 =
    (List.range nfds).filter fun fd => sets.asked fd && round.reports sets event fd := by
  have hfd : Pollfd.fd ∘ round.filled ∘ sets.entry = id := rfl
  unfold marked PollRound.poll FdSets.pollset
  rw [List.map_map, List.filter_map, List.map_map, hfd, List.map_id, List.filter_filter]
  apply List.filter_congr
  intro fd _
  exact Bool.and_comm _ _

theorem truncate_wanted (pollFd : PollFd) : pollFd.wanted.truncate 16 = pollFd.events ||| 0xc := by
  have hevents : (pollFd.events.signExtend 32).truncate 16 = pollFd.events := by
    apply BitVec.eq_of_getLsbD_eq
    intro i hi
    have hi' : i < 32 := Nat.lt_trans hi (by decide)
    rw [BitVec.truncate_eq_setWidth, BitVec.getLsbD_setWidth, BitVec.getLsbD_signExtend,
      decide_eq_true hi, decide_eq_true hi', if_pos hi]
    rfl
  rw [PollFd.wanted, BitVec.truncate_eq_setWidth, BitVec.setWidth_or]
  exact congrArg (· ||| 0xc) hevents

theorem PollRound.filled_and (pollfd : Pollfd) (hevent : pollNval.truncate 16 &&& event = 0#16) :
    (round.filled pollfd).revents &&& event =
      round.found pollfd.fd &&& ((pollfd.events ||| 0xc) &&& event) := by
  have hand (file : PollFile) (mask : BitVec 32) :
      (mask &&& PollFd.wanted ⟨file, pollfd.events⟩).truncate 16 &&& event =
        mask.truncate 16 &&& ((pollfd.events ||| 0xc) &&& event) := by
    rw [← BitVec.and_assoc, ← truncate_wanted ⟨file, pollfd.events⟩]
    exact congrArg (· &&& event) BitVec.setWidth_and
  unfold filled doPollfd found Poll.testMask
  dsimp only
  cases round.find pollfd.fd with
  | negative => exact BitVec.zero_and.trans BitVec.zero_and.symm
  | unused => exact hevent.trans BitVec.zero_and.symm
  | plain => exact hand _ _
  | driver queues => exact hand _ _

theorem PollRound.reports_iff (hevent : pollNval.truncate 16 &&& event = 0#16) :
    round.reports sets event fd = true ↔
      round.found fd &&& (((sets.entry fd).events ||| 0xc) &&& event) ≠ 0 := by
  unfold reports
  rw [decide_eq_true_eq, round.filled_and _ hevent]
  rfl

theorem PollRound.reports_read (hread : inSet fd sets.readfds = false) :
    round.reports sets (pollIn ||| pollHup) fd = true ↔ round.found fd &&& pollHup ≠ 0 := by
  have hwanted : ∀ write, (pollEvents false write ||| 0xc) &&& (pollIn ||| pollHup) = pollHup := by
    decide
  rw [round.reports_iff sets (by decide), FdSets.entry, hread, hwanted]

theorem PollRound.reports_write (hwrite : inSet fd sets.writefds = false) :
    round.reports sets pollOut fd = false := by
  have hwanted : ∀ read, (pollEvents read false ||| 0xc) &&& pollOut = 0 := by decide
  rw [← Bool.not_eq_true, round.reports_iff sets (by decide), FdSets.entry, hwrite, hwanted]
  exact fun h => h BitVec.and_zero

theorem PollRound.reports_except :
    round.reports sets pollErr fd = true ↔ round.found fd &&& pollErr ≠ 0 := by
  have hwanted : ∀ read write, (pollEvents read write ||| 0xc) &&& pollErr = pollErr := by decide
  rw [round.reports_iff sets (by decide), FdSets.entry, hwanted]

end Round

/-- `poll` reported an event of the kind for the descriptor. -/
def Reported (result : List Pollfd) (event : BitVec 16) (fd : Nat) : Prop :=
  ∃ pollfd ∈ result, pollfd.fd = fd ∧ pollfd.revents &&& event ≠ 0

theorem reported_iff {result : List Pollfd} : Reported result event fd ↔ fd ∈ marked event result := by
  unfold Reported marked
  rw [List.mem_map]
  constructor
  · intro ⟨pollfd, hmem, hfd, hevent⟩
    exact ⟨pollfd, List.mem_filter.mpr ⟨hmem, decide_eq_true hevent⟩, hfd⟩
  · intro ⟨pollfd, hmem, hfd⟩
    obtain ⟨hmem, hevent⟩ := List.mem_filter.mp hmem
    exact ⟨pollfd, hmem, hfd, of_decide_eq_true hevent⟩

section Select

variable (calloc : Bool) (round : PollRound) (nfds : Int) (sets : FdSets)

def answer : List Pollfd := (round.poll (sets.pollset nfds.toNat)).1

def FdSets.total : Nat :=
  let fds := List.range nfds.toNat
  fds.countP (inSet · sets.readfds) + fds.countP (inSet · sets.writefds) +
    fds.countP (inSet · sets.exceptfds)

structure SelectRight (ret : Int) (after : FdSets) : Prop where
  read : ∀ fd : Nat, fd < nfds → (inSet fd after.readfds = true ↔
    inSet fd sets.readfds = true ∧ Reported (answer round nfds sets) (pollIn ||| pollHup) fd)
  write : ∀ fd : Nat, fd < nfds → (inSet fd after.writefds = true ↔
    inSet fd sets.writefds = true ∧ Reported (answer round nfds sets) pollOut fd)
  except : ∀ fd : Nat, fd < nfds → (inSet fd after.exceptfds = true ↔
    inSet fd sets.exceptfds = true ∧ Reported (answer round nfds sets) pollErr fd)
  value : ret = after.total nfds

def listLost : Bool := (sets.pollset nfds.toNat).length > 0 && !calloc

def viewed (event : BitVec 16) (set : Option FdSet) : Option FdSet :=
  mark event (answer round nfds sets) (set.map (·.fdszero nfds.toNat))

def FdSets.viewed : FdSets where
  readfds := Dfs.viewed round nfds sets (pollIn ||| pollHup) sets.readfds
  writefds := Dfs.viewed round nfds sets pollOut sets.writefds
  exceptfds := Dfs.viewed round nfds sets pollErr sets.exceptfds

theorem select_lost (hlost : listLost calloc nfds sets = true) :
    select calloc round nfds sets = (-1, sets) := by
  unfold select
  rw [listLost, Bool.and_eq_true, decide_eq_true_eq, Bool.not_eq_true'] at hlost
  exact if_pos hlost

theorem inSet_viewed (set : Option FdSet) (hfd : fd < nfds.toNat) :
    inSet fd (viewed round nfds sets event set) =
      (set.isSome && (sets.asked fd && round.reports sets event fd)) := by
  have hmem : decide (fd ∈ marked event (answer round nfds sets)) =
      (sets.asked fd && round.reports sets event fd) := by
    rw [Bool.eq_iff_iff, decide_eq_true_eq, answer, marked_poll, List.mem_filter, List.mem_range]
    exact and_iff_right hfd
  rw [viewed, inSet_mark _ set hfd, hmem]

theorem marks_viewed (set : Option FdSet) :
    marks event (answer round nfds sets) (set.map (·.fdszero nfds.toNat)) =
      (List.range nfds.toNat).countP (inSet · (viewed round nfds sets event set)) := by
  have hcount : (List.range nfds.toNat).countP (inSet · (viewed round nfds sets event set)) =
      (List.range nfds.toNat).countP
        fun fd => set.isSome && (sets.asked fd && round.reports sets event fd) := by
    apply List.countP_congr
    intro fd hfd
    rw [inSet_viewed round nfds sets set (List.mem_range.mp hfd)]
  unfold marks
  rw [hcount, Option.isSome_map, answer, marked_poll, ← List.countP_eq_length_filter]
  cases set with
  | none => exact (congrFun List.countP_false (List.range nfds.toNat)).symm
  | some words => rfl

theorem select_viewed (hlost : listLost calloc nfds sets = false) :
    select calloc round nfds sets =
      (((sets.viewed round nfds).total nfds : Int), sets.viewed round nfds) := by
  have hnotLost : ¬((sets.pollset nfds.toNat).length > 0 ∧ calloc = false) := by
    intro ⟨hlength, hcalloc⟩
    rw [listLost, decide_eq_true hlength, hcalloc] at hlost
    cases hlost
  have htotal : (sets.viewed round nfds).total nfds =
      marks (pollIn ||| pollHup) (answer round nfds sets) (sets.fdszero nfds.toNat).readfds +
        marks pollOut (answer round nfds sets) (sets.fdszero nfds.toNat).writefds +
        marks pollErr (answer round nfds sets) (sets.fdszero nfds.toNat).exceptfds := by
    unfold FdSets.fdszero
    rw [marks_viewed, marks_viewed, marks_viewed]
    rfl
  unfold select
  rw [if_neg hnotLost]
  by_cases hret : (round.poll (sets.pollset nfds.toNat)).2 > 0
  · simp only [if_pos hret, foldl_convert, htotal, Nat.zero_add]
    rfl
  · -- nothing is reported, so there is nothing to mark
    have hnone := List.countP_eq_zero.mp (Nat.eq_zero_of_not_pos hret)
    have hmarked (event : BitVec 16) : marked event (answer round nfds sets) = [] := by
      refine List.map_eq_nil_iff.mpr (List.filter_eq_nil_iff.mpr fun pollfd hmem => ?_)
      obtain ⟨asked, hasked, rfl⟩ := List.mem_map.mp hmem
      have hzero : round.doPollfd asked = 0 := by simpa using hnone asked hasked
      rw [PollRound.filled, hzero, decide_eq_true_eq]
      exact fun h => h BitVec.zero_and
    have hmark (event : BitVec 16) (set : Option FdSet) :
        mark event (answer round nfds sets) set = set := by
      unfold mark
      rw [hmarked]
      exact congrFun Option.map_id set
    have hmarks (event : BitVec 16) (set : Option FdSet) :
        marks event (answer round nfds sets) set = 0 := by
      unfold marks
      rw [hmarked]
      exact ite_self 0
    rw [htotal, hmarks, hmarks, hmarks]
    simp only [Nat.eq_zero_of_not_pos hret]
    unfold FdSets.viewed viewed
    rw [hmark, hmark, hmark]
    rfl

/-- A descriptor asked for in some set has a hang-up only if it is in the read set, an error only
if it is in the except set, if there are these sets. -/
def Foreseen : Prop :=
  ∀ fd : Nat, fd < nfds → sets.asked fd = true →
    (sets.readfds.isSome = true → round.found fd &&& pollHup ≠ 0 →
      inSet fd sets.readfds = true) ∧
    (sets.exceptfds.isSome = true → round.found fd &&& pollErr ≠ 0 →
      inSet fd sets.exceptfds = true)

variable {round nfds sets} in
theorem reported_answer (hfd : fd < nfds.toNat) : Reported (answer round nfds sets) event fd ↔
    (sets.asked fd && round.reports sets event fd) = true := by
  rw [reported_iff, answer, marked_poll, List.mem_filter, List.mem_range]
  exact and_iff_right hfd

variable {round nfds sets} in
theorem inSet_viewed_iff {set : Option FdSet} (hfd : fd < nfds.toNat)
    (hasked : inSet fd set = true → sets.asked fd = true) :
    (inSet fd (viewed round nfds sets event set) = true ↔
        inSet fd set = true ∧ Reported (answer round nfds sets) event fd) ↔
      (sets.asked fd = true → set.isSome = true → round.reports sets event fd = true →
        inSet fd set = true) := by
  have hsome (h : inSet fd set = true) : set.isSome = true := by
    cases set with
    | none => cases h
    | some words => rfl
  rw [reported_answer hfd, inSet_viewed round nfds sets set hfd]
  simp only [Bool.and_eq_true]
  constructor
  · intro h ha hs hr
    exact (h.mp ⟨hs, ha, hr⟩).1
  · intro h
    constructor
    · intro ⟨hs, ha, hr⟩
      exact ⟨h ha hs hr, ha, hr⟩
    · intro ⟨hset, har⟩
      exact ⟨hsome hset, har⟩

section Sets

variable {round nfds sets} (hfd : fd < nfds.toNat)
include hfd

theorem read_iff :
    (inSet fd (sets.viewed round nfds).readfds = true ↔ inSet fd sets.readfds = true ∧
        Reported (answer round nfds sets) (pollIn ||| pollHup) fd) ↔
      (sets.asked fd = true → sets.readfds.isSome = true → round.found fd &&& pollHup ≠ 0 →
        inSet fd sets.readfds = true) := by
  have hasked (h : inSet fd sets.readfds = true) : sets.asked fd = true := by
    rw [FdSets.asked, h]
    rfl
  refine (inSet_viewed_iff hfd hasked).trans ?_
  cases hset : inSet fd sets.readfds with
  | true => exact iff_of_true (fun _ _ _ => rfl) fun _ _ _ => rfl
  | false => rw [round.reports_read sets hset]

theorem write_right :
    inSet fd (sets.viewed round nfds).writefds = true ↔ inSet fd sets.writefds = true ∧
      Reported (answer round nfds sets) pollOut fd := by
  have hasked (h : inSet fd sets.writefds = true) : sets.asked fd = true := by
    rw [FdSets.asked, h, Bool.or_true]
    rfl
  refine (inSet_viewed_iff hfd hasked).mpr fun _ _ hreports => ?_
  cases hset : inSet fd sets.writefds with
  | true => rfl
  | false =>
    rw [round.reports_write sets hset] at hreports
    cases hreports

theorem except_iff :
    (inSet fd (sets.viewed round nfds).exceptfds = true ↔ inSet fd sets.exceptfds = true ∧
        Reported (answer round nfds sets) pollErr fd) ↔
      (sets.asked fd = true → sets.exceptfds.isSome = true → round.found fd &&& pollErr ≠ 0 →
        inSet fd sets.exceptfds = true) := by
  have hasked (h : inSet fd sets.exceptfds = true) : sets.asked fd = true := by
    rw [FdSets.asked, h, Bool.or_true]
  refine (inSet_viewed_iff hfd hasked).trans ?_
  rw [round.reports_except sets]

end Sets

theorem select_iff :
    (0 ≤ (select calloc round nfds sets).1 →
        SelectRight round nfds sets (select calloc round nfds sets).1
          (select calloc round nfds sets).2) ↔
      listLost calloc nfds sets = true ∨ Foreseen round nfds sets := by
  cases hlost : listLost calloc nfds sets with
  | true =>
    rw [select_lost calloc round nfds sets hlost]
    exact iff_of_true (fun h => absurd h (by omega)) (.inl rfl)
  | false =>
    rw [select_viewed calloc round nfds sets hlost]
    constructor
    · intro h
      have hright := h (Int.natCast_nonneg _)
      refine .inr fun fd hfd hasked => ⟨?_, ?_⟩
      · exact (read_iff (Int.lt_toNat.mpr hfd)).mp (hright.read fd hfd) hasked
      · exact (except_iff (Int.lt_toNat.mpr hfd)).mp (hright.except fd hfd) hasked
    · intro h _
      have hforeseen := h.resolve_left Bool.false_ne_true
      exact {
        read fd hfd := (read_iff (Int.lt_toNat.mpr hfd)).mpr fun ha => (hforeseen fd hfd ha).1
        write fd hfd := write_right (Int.lt_toNat.mpr hfd)
        except fd hfd := (except_iff (Int.lt_toNat.mpr hfd)).mpr fun ha => (hforeseen fd hfd ha).2
        value := rfl }

/-- Asked only whether it can be written, descriptor 0 comes back as readable after a hang-up. -/
theorem select_unasked_read :
    ¬(0 ≤ (select true ⟨fun _ => .driver [], fun _ => 0x8⟩ 1
          ⟨some fun _ => 0, some fun _ => 1, none⟩).1 →
        SelectRight ⟨fun _ => .driver [], fun _ => 0x8⟩ 1 ⟨some fun _ => 0, some fun _ => 1, none⟩
          (select true ⟨fun _ => .driver [], fun _ => 0x8⟩ 1
            ⟨some fun _ => 0, some fun _ => 1, none⟩).1
          (select true ⟨fun _ => .driver [], fun _ => 0x8⟩ 1
            ⟨some fun _ => 0, some fun _ => 1, none⟩).2) := by
  intro h
  have hread := (h (by decide)).read 0 (by decide)
  have hasked := (hread.mp (by decide)).1
  revert hasked
  decide

end Select

end RtThread.Dfs
