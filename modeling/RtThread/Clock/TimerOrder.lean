import RtThread.Clock.Timer

namespace RtThread.Clock

open Function RtThread.Lib SkipList TimerSystem

def Before (s : TimerSystem) (t u : TimerId) : Prop :=
  (0 < sub32 (s.timer u).timeoutTick (s.timer t).timeoutTick ∧
      sub32 (s.timer u).timeoutTick (s.timer t).timeoutTick < rtTickMax / 2) ∨
    ((s.timer t).timeoutTick = (s.timer u).timeoutTick ∧ s.order t < s.order u)

section Offsets

variable {base a b : Nat}

theorem offset_le_of_before (ha : a < 2 ^ 32) (hwa : sub32 a base < rtTickMax / 2)
    (hwb : sub32 b base < rtTickMax / 2) (hbefore : sub32 b a < rtTickMax / 2) :
    sub32 a base ≤ sub32 b base := by
  simp only [sub32, rtTickMax] at *
  omega

theorem before_of_offset_lt (ha : a < 2 ^ 32) (hwb : sub32 b base < rtTickMax / 2)
    (hlt : sub32 a base < sub32 b base) :
    0 < sub32 b a ∧ sub32 b a < rtTickMax / 2 := by
  simp only [sub32, rtTickMax] at *
  omega

theorem eq_of_offset_eq (ha : a < 2 ^ 32) (hb : b < 2 ^ 32)
    (heq : sub32 a base = sub32 b base) : a = b := by
  simp only [sub32] at heq
  omega

theorem passes_iff (ha : a < 2 ^ 32) (hb : b < 2 ^ 32)
    (hwa : sub32 a base < rtTickMax / 2) (hwb : sub32 b base < rtTickMax / 2) :
    passes a b = true ↔ sub32 b base ≤ sub32 a base := by
  have hzero : sub32 b a = 0 ↔ a = b := by
    simp only [sub32]
    omega
  unfold passes
  split
  · next heq =>
    have hsame := hzero.mp heq
    subst hsame
    simp
  · next hne =>
    split
    · next hlt =>
      have hle := offset_le_of_before ha hwa hwb hlt
      have hneq : sub32 a base ≠ sub32 b base :=
        fun h => hne (hzero.mpr (eq_of_offset_eq ha hb h))
      simp
      omega
    · next hge =>
      simp only [true_iff]
      rcases Nat.lt_or_ge (sub32 a base) (sub32 b base) with hlt | hle
      · exact absurd (before_of_offset_lt ha hwb hlt).2 hge
      · exact hle

end Offsets

/-- The deadlines on one list lie in the half range from `base` on. -/
def InWindow (cfg : TimerConfig) (s : TimerSystem) (list : TimerList) (base : Nat) : Prop :=
  ∀ t ∈ s.pending, timerListOf cfg (s.timer t) = list →
    sub32 (s.timer t).timeoutTick base < rtTickMax / 2

structure Inv (cfg : TimerConfig) (s : TimerSystem) : Prop where
  length : ∀ list, (s.rows list).length = cfg.level
  pairwise : ∀ list, ∀ row ∈ s.rows list, row.Pairwise (Before s)
  chain : ∀ list, (s.rows list).IsChain List.Sublist
  bottom : ∀ list, ∃ row, (s.rows list).getLast? = some row ∧
    ∀ t, t ∈ row ↔ t ∈ s.pending ∧ timerListOf cfg (s.timer t) = list
  window : ∀ list, ∃ base, InWindow cfg s list base
  order : ∀ t ∈ s.pending, s.order t < s.starts
  deadline : ∀ t ∈ s.pending, (s.timer t).timeoutTick < 2 ^ 32
  activated : ∀ t, (s.timer t).isTimer → ((s.timer t).activated = true ↔ t ∈ s.pending)
  isTimer : ∀ t ∈ s.pending, (s.timer t).isTimer = true

theorem Before.ne {s : TimerSystem} {t u : TimerId} (hbefore : Before s t u)
    (hdeadline : (s.timer t).timeoutTick < 2 ^ 32) : t ≠ u := by
  rintro rfl
  rcases hbefore with ⟨hpos, -⟩ | ⟨-, hlt⟩
  · simp only [sub32] at hpos
    omega
  · omega

theorem Before.congr {s s' : TimerSystem} {t u : TimerId} (hbefore : Before s t u)
    (ht : (s'.timer t).timeoutTick = (s.timer t).timeoutTick)
    (hu : (s'.timer u).timeoutTick = (s.timer u).timeoutTick)
    (hot : s'.order t = s.order t) (hou : s'.order u = s.order u) : Before s' t u := by
  unfold Before at hbefore ⊢
  rwa [ht, hu, hot, hou]

section Members

variable {cfg : TimerConfig} {s : TimerSystem} {list : TimerList} {row : List TimerId}
  {t u : TimerId}

theorem Inv.pending_of_mem (hinv : Inv cfg s) (hrow : row ∈ s.rows list) (hmem : t ∈ row) :
    t ∈ s.pending ∧ timerListOf cfg (s.timer t) = list := by
  obtain ⟨bottom, hbottom, hiff⟩ := hinv.bottom list
  have hsub := sublist_getLast? (hinv.chain list) hrow hbottom
  exact (hiff t).mp (hsub.subset hmem)

theorem Inv.nodup (hinv : Inv cfg s) (hrow : row ∈ s.rows list) : row.Nodup := by
  refine (hinv.pairwise list row hrow).imp_of_mem fun ht _ hbefore => ?_
  exact hbefore.ne (hinv.deadline _ (hinv.pending_of_mem hrow ht).1)

theorem Inv.offset_le (hinv : Inv cfg s) {base : Nat} (hwindow : InWindow cfg s list base)
    (hrow : row ∈ s.rows list) (ht : t ∈ row) (hu : u ∈ row) (hbefore : Before s t u) :
    sub32 (s.timer t).timeoutTick base ≤ sub32 (s.timer u).timeoutTick base := by
  obtain ⟨htp, htl⟩ := hinv.pending_of_mem hrow ht
  obtain ⟨hup, hul⟩ := hinv.pending_of_mem hrow hu
  rcases hbefore with ⟨-, hlt⟩ | ⟨heq, -⟩
  · exact offset_le_of_before (hinv.deadline t htp) (hwindow t htp htl) (hwindow u hup hul) hlt
  · rw [heq]

end Members

section Remove

variable {cfg : TimerConfig} {s s' : TimerSystem} {t : TimerId}

theorem Inv.remove (hinv : Inv cfg s)
    (hrows : s'.rows = fun list => removeRows t (s.rows list))
    (hpending : s'.pending = s.pending.filter (· ≠ t))
    (htimer : ∀ u, u ≠ t → s'.timer u = s.timer u) (horder : s'.order = s.order)
    (hstarts : s'.starts = s.starts)
    (hidle : (s'.timer t).isTimer → (s'.timer t).activated = false) : Inv cfg s' := by
  have hold : ∀ u, u ∈ s'.pending ↔ u ∈ s.pending ∧ u ≠ t := by simp [hpending]
  refine ⟨fun list => ?_, fun list row hrow => ?_, fun list => ?_, fun list => ?_,
    fun list => ?_, fun u hu => ?_, fun u hu => ?_, fun u hu => ?_, fun u hu => ?_⟩
  · simp [hrows, removeRows, hinv.length]
  · rw [hrows] at hrow
    obtain ⟨old, hold, hsub, hfree⟩ := mem_removeRows hrow
    refine ((hinv.pairwise list old hold).sublist hsub).imp_of_mem fun hu hv hbefore => ?_
    have hune : _ ≠ t := fun h => hfree (h ▸ hu)
    have hvne : _ ≠ t := fun h => hfree (h ▸ hv)
    exact hbefore.congr (by rw [htimer _ hune]) (by rw [htimer _ hvne]) (by rw [horder])
      (by rw [horder])
  · rw [hrows]
    exact removeRows_isChain (hinv.chain list)
  · obtain ⟨bottom, hbottom, hiff⟩ := hinv.bottom list
    refine ⟨bottom.filter (· ≠ t), ?_, fun u => ?_⟩
    · rw [hrows, getLast?_removeRows, hbottom]
      rfl
    · rw [List.mem_filter, hiff, hold, decide_eq_true_eq]
      constructor
      · rintro ⟨⟨hp, hl⟩, hne⟩
        exact ⟨⟨hp, hne⟩, by rw [htimer u hne]; exact hl⟩
      · rintro ⟨⟨hp, hne⟩, hl⟩
        exact ⟨⟨hp, by rw [← htimer u hne]; exact hl⟩, hne⟩
  · obtain ⟨base, hbase⟩ := hinv.window list
    refine ⟨base, fun u hu hl => ?_⟩
    obtain ⟨hp, hne⟩ := (hold u).mp hu
    rw [htimer u hne] at hl ⊢
    exact hbase u hp hl
  · rw [horder, hstarts]
    exact hinv.order u ((hold u).mp hu).1
  · obtain ⟨hp, hne⟩ := (hold u).mp hu
    rw [htimer u hne]
    exact hinv.deadline u hp
  · rw [hold]
    by_cases hne : u = t
    · subst hne
      simp [hidle hu]
    · rw [htimer u hne] at hu ⊢
      rw [hinv.activated u hu]
      simp [hne]
  · obtain ⟨hp, hne⟩ := (hold u).mp hu
    rw [htimer u hne]
    exact hinv.isTimer u hp

end Remove

section Insert

variable {cfg : TimerConfig} {s s' : TimerSystem} {t : TimerId}

def stays (s : TimerSystem) (t u : TimerId) : Bool :=
  passes (s.timer t).timeoutTick (s.timer u).timeoutTick

theorem Inv.stays_iff (hinv : Inv cfg s) {list : TimerList} {base : Nat}
    (hdeadline : (s.timer t).timeoutTick < 2 ^ 32)
    (hnew : sub32 (s.timer t).timeoutTick base < rtTickMax / 2)
    (hwindow : InWindow cfg s list base) {row : List TimerId} (hrow : row ∈ s.rows list)
    {u : TimerId} (hu : u ∈ row) :
    stays s t u = true ↔
      sub32 (s.timer u).timeoutTick base ≤ sub32 (s.timer t).timeoutTick base := by
  obtain ⟨hp, hl⟩ := hinv.pending_of_mem hrow hu
  exact passes_iff hdeadline (hinv.deadline u hp) hnew (hwindow u hp hl)

theorem Inv.searchable (hinv : Inv cfg s) {list : TimerList} {base : Nat}
    (hdeadline : (s.timer t).timeoutTick < 2 ^ 32)
    (hnew : sub32 (s.timer t).timeoutTick base < rtTickMax / 2)
    (hwindow : InWindow cfg s list base) :
    Searchable (stays s t) (s.rows list) where
  down := fun row hrow => by
    refine (hinv.pairwise list row hrow).imp_of_mem fun {u v} hu hv hbefore => ?_
    rw [hinv.stays_iff hdeadline hnew hwindow hrow hu,
      hinv.stays_iff hdeadline hnew hwindow hrow hv]
    exact (hinv.offset_le hwindow hrow hu hv hbefore).trans
  nodup := fun row hrow => hinv.nodup hrow
  chain := hinv.chain list

theorem Inv.inserted_pairwise (hinv : Inv cfg s) (hfree : t ∉ s.pending)
    (hdeadline : (s.timer t).timeoutTick < 2 ^ 32) {list : TimerList} {base : Nat}
    (hnew : sub32 (s.timer t).timeoutTick base < rtTickMax / 2)
    (hwindow : InWindow cfg s list base) {row : List TimerId} (hrow : row ∈ s.rows list)
    (hsame : ∀ u, (s'.timer u).timeoutTick = (s.timer u).timeoutTick)
    (horder : s'.order = update s.order t s.starts) :
    row.Pairwise (Before s') ∧ (inserted (stays s t) t row).Pairwise (Before s') := by
  have hdown := (hinv.searchable hdeadline hnew hwindow).down row hrow
  have hne : ∀ u ∈ row, u ≠ t := by
    rintro u hu rfl
    exact hfree (hinv.pending_of_mem hrow hu).1
  have hother : ∀ u ∈ row, s'.order u = s.order u := by
    intro u hu
    rw [horder, update_of_ne (hne u hu)]
  have hpairwise : row.Pairwise (Before s') :=
    (hinv.pairwise list row hrow).imp_of_mem fun hu hv hbefore =>
      hbefore.congr (hsame _) (hsame _) (hother _ hu) (hother _ hv)
  refine ⟨hpairwise, SkipList.inserted_pairwise hpairwise hdown (fun u hu hs => ?_)
    fun u hu hs => ?_⟩
  · obtain ⟨hp, hl⟩ := hinv.pending_of_mem hrow hu
    have hle := (hinv.stays_iff hdeadline hnew hwindow hrow hu).mp hs
    unfold Before
    rw [hsame, hsame, hother u hu, horder, update_self]
    rcases Nat.lt_or_eq_of_le hle with hlt | heq
    · exact .inl (before_of_offset_lt (hinv.deadline u hp) hnew hlt)
    · exact .inr ⟨eq_of_offset_eq (hinv.deadline u hp) hdeadline heq, hinv.order u hp⟩
  · obtain ⟨hp, hl⟩ := hinv.pending_of_mem hrow hu
    have hlt : ¬ sub32 (s.timer u).timeoutTick base ≤ sub32 (s.timer t).timeoutTick base := by
      rw [← hinv.stays_iff hdeadline hnew hwindow hrow hu, hs]
      simp
    unfold Before
    rw [hsame, hsame]
    exact .inl (before_of_offset_lt hdeadline (hwindow u hp hl) (Nat.lt_of_not_le hlt))

theorem Inv.insert (hinv : Inv cfg s) (hfree : t ∉ s.pending)
    (hisTimer : (s.timer t).isTimer = true)
    (hdeadline : (s.timer t).timeoutTick < 2 ^ 32) {base count : Nat}
    (hnew : sub32 (s.timer t).timeoutTick base < rtTickMax / 2)
    (hwindow : InWindow cfg s (timerListOf cfg (s.timer t)) base) (hcount : 0 < count)
    (hrows : s'.rows = update s.rows (timerListOf cfg (s.timer t))
      (insertedRows (stays s t) t count (s.rows (timerListOf cfg (s.timer t)))))
    (htimer : s'.timer = update s.timer t { s.timer t with activated := true })
    (hpending : s'.pending = t :: s.pending) (hstarts : s'.starts = s.starts + 1)
    (horder : s'.order = update s.order t s.starts) : Inv cfg s' := by
  have hsearch := hinv.searchable hdeadline hnew hwindow
  have hne : ∀ u ∈ s.pending, u ≠ t := by
    rintro u hu rfl
    exact hfree hu
  have hsame : ∀ u, (s'.timer u).timeoutTick = (s.timer u).timeoutTick := by
    intro u
    rw [htimer]
    by_cases hu : u = t
    · subst hu
      simp
    · simp [hu]
  have hlist : ∀ u, timerListOf cfg (s'.timer u) = timerListOf cfg (s.timer u) := by
    intro u
    rw [htimer]
    by_cases hu : u = t
    · subst hu
      simp [timerListOf]
    · simp [hu]
  generalize hl : timerListOf cfg (s.timer t) = list at *
  refine ⟨fun l => ?_, fun l row hrow => ?_, fun l => ?_, fun l => ?_, fun l => ?_,
    fun u hu => ?_, fun u hu => ?_, fun u hu => ?_, fun u hu => ?_⟩
  · rw [hrows]
    by_cases h : l = list
    · subst h
      simp [hinv.length]
    · simp [h, hinv.length]
  · rw [hrows] at hrow
    by_cases h : l = list
    · subst h
      rw [update_self] at hrow
      obtain ⟨old, hold, hcase⟩ := mem_insertedRows hrow
      have hboth := hinv.inserted_pairwise hfree hdeadline hnew hwindow hold hsame horder
      rcases hcase with rfl | rfl
      · exact hboth.1
      · exact hboth.2
    · rw [update_of_ne h] at hrow
      refine (hinv.pairwise l row hrow).imp_of_mem fun {u v} hu hv hbefore => ?_
      have hun := hne u (hinv.pending_of_mem hrow hu).1
      have hvn := hne v (hinv.pending_of_mem hrow hv).1
      refine hbefore.congr (hsame u) (hsame v) ?_ ?_
      · rw [horder, update_of_ne hun]
      · rw [horder, update_of_ne hvn]
  · rw [hrows]
    by_cases h : l = list
    · subst h
      rw [update_self]
      exact insertedRows_isChain hsearch
    · rw [update_of_ne h]
      exact hinv.chain l
  · obtain ⟨bottom, hbottom, hiff⟩ := hinv.bottom l
    rw [hrows]
    by_cases h : l = list
    · subst h
      refine ⟨inserted (stays s t) t bottom, ?_, fun u => ?_⟩
      · rw [update_self, getLast?_insertedRows hcount, hbottom]
        rfl
      · rw [mem_inserted, hiff, hpending, List.mem_cons, hlist]
        constructor
        · rintro (rfl | ⟨hp, hul⟩)
          · exact ⟨.inl rfl, hl⟩
          · exact ⟨.inr hp, hul⟩
        · rintro ⟨rfl | hp, hul⟩
          · exact .inl rfl
          · exact .inr ⟨hp, hul⟩
    · refine ⟨bottom, by rw [update_of_ne h, hbottom], fun u => ?_⟩
      rw [hiff, hpending, List.mem_cons, hlist]
      constructor
      · rintro ⟨hp, hul⟩
        exact ⟨.inr hp, hul⟩
      · rintro ⟨rfl | hp, hul⟩
        · exact absurd (hul.symm.trans hl) h
        · exact ⟨hp, hul⟩
  · by_cases h : l = list
    · subst h
      refine ⟨base, fun u hu hul => ?_⟩
      rw [hpending, List.mem_cons] at hu
      rw [hlist] at hul
      rw [hsame]
      rcases hu with rfl | hu
      · exact hnew
      · exact hwindow u hu hul
    · obtain ⟨b, hb⟩ := hinv.window l
      refine ⟨b, fun u hu hul => ?_⟩
      rw [hpending, List.mem_cons] at hu
      rw [hlist] at hul
      rw [hsame]
      rcases hu with rfl | hu
      · exact absurd (hul.symm.trans hl) h
      · exact hb u hu hul
  · rw [hpending, List.mem_cons] at hu
    rw [horder, hstarts]
    rcases hu with rfl | hu
    · simp
    · rw [update_of_ne (hne u hu)]
      exact Nat.lt_succ_of_lt (hinv.order u hu)
  · rw [hpending, List.mem_cons] at hu
    rw [hsame]
    rcases hu with rfl | hu
    · exact hdeadline
    · exact hinv.deadline u hu
  · rw [hpending, List.mem_cons, htimer]
    rw [htimer] at hu
    by_cases h : u = t
    · subst h
      simp
    · rw [update_of_ne h] at hu ⊢
      rw [hinv.activated u hu]
      simp [h]
  · rw [hpending, List.mem_cons] at hu
    rw [htimer]
    rcases hu with rfl | hu
    · simpa using hisTimer
    · rw [update_of_ne (hne u hu)]
      exact hinv.isTimer u hu

theorem Inv.insertTimer (hinv : Inv cfg s) (hfree : t ∉ s.pending)
    (hisTimer : (s.timer t).isTimer = true)
    (hdeadline : (s.timer t).timeoutTick < 2 ^ 32) {base : Nat}
    (hnew : sub32 (s.timer t).timeoutTick base < rtTickMax / 2)
    (hwindow : InWindow cfg s (timerListOf cfg (s.timer t)) base) :
    ∃ s', insertTimer cfg t s = some s' ∧ Inv cfg s' := by
  have hsearch := hinv.searchable hdeadline hnew hwindow
  have hrowHead : rowHead cfg t s =
      some ((s.rows (timerListOf cfg (s.timer t))).map (place (stays s t))) :=
    rowHeads_eq hsearch
  have hpending : s.pending.filter (· ≠ t) = s.pending := by
    rw [List.filter_eq_self]
    intro u hu
    rw [decide_eq_true_eq]
    rintro rfl
    exact hfree hu
  simp only [Clock.insertTimer, hrowHead, hpending]
  refine ⟨_, rfl, ?_⟩
  have hcount : 0 < 1 + extraRows cfg.mask (cfg.level - 1) (add32 s.randomNr 1) :=
    Nat.add_pos_left Nat.one_pos _
  refine hinv.insert hfree hisTimer hdeadline hnew hwindow hcount ?_ rfl rfl rfl rfl
  exact congrArg (update s.rows (timerListOf cfg (s.timer t)))
    (insertRows_eq hsearch)

end Insert

/-- At a start the deadlines on the list of the timer, the new one included, lie in
the half range from `base` on. -/
def StartFits (cfg : TimerConfig) (base : Nat) (s : TimerSystem) : TimerOp → Prop
  | .start t => sub32 (add32 s.tick (s.timer t).initTick) base < rtTickMax / 2 ∧
      ∀ u ∈ s.pending, u ≠ t →
        timerListOf cfg (s.timer u) = timerListOf cfg (s.timer t) →
        sub32 (s.timer u).timeoutTick base < rtTickMax / 2
  | _ => True

instance (cfg : TimerConfig) (base : Nat) (s : TimerSystem) :
    (op : TimerOp) → Decidable (StartFits cfg base s op)
  | .init .. => .isTrue trivial
  | .start t => inferInstanceAs (Decidable (
      sub32 (add32 s.tick (s.timer t).initTick) base < rtTickMax / 2 ∧
        ∀ u ∈ s.pending, u ≠ t →
          timerListOf cfg (s.timer u) = timerListOf cfg (s.timer t) →
          sub32 (s.timer u).timeoutTick base < rtTickMax / 2))
  | .stop _ | .detach _ | .tick => .isTrue trivial

def StartsInWindow (cfg : TimerConfig) (s : TimerSystem) (op : TimerOp) : Prop :=
  ∃ base, StartFits cfg base s op

section Steps

variable {cfg : TimerConfig} {s s' : TimerSystem} {t : TimerId}

theorem Inv.init (hinit : Initial cfg s) : Inv cfg s := by
  obtain ⟨hrows, hidle, hpending, hstarts, htick⟩ := hinit
  refine ⟨fun list => ?_, fun list row hrow => ?_, fun list => ?_, fun list => ?_,
    fun list => ⟨0, ?_⟩, ?_, ?_, fun t _ => ?_, ?_⟩
  · simp [hrows]
  · rw [hrows] at hrow
    simp [List.eq_of_mem_replicate hrow]
  · rw [hrows]
    exact List.isChain_replicate_of_rel _ (List.Sublist.refl _)
  · refine ⟨[], ?_, by simp [hpending]⟩
    rw [hrows, List.getLast?_replicate, if_neg (Nat.pos_iff_ne_zero.mp cfg.level_pos)]
  · simp [InWindow, hpending]
  · simp [hpending]
  · simp [hpending]
  · simp [hidle, hpending]
  · simp [hpending]

theorem Inv.keep (hinv : Inv cfg s) (hrows : s'.rows = s.rows)
    (hpending : s'.pending = s.pending) (horder : s'.order = s.order)
    (hstarts : s'.starts = s.starts)
    (htimer : ∀ u, u ∈ s.pending ∨ (s'.timer u).activated = true → s'.timer u = s.timer u) :
    Inv cfg s' := by
  have hsame : ∀ u ∈ s.pending, s'.timer u = s.timer u := fun u hu => htimer u (.inl hu)
  refine ⟨fun list => ?_, fun list row hrow => ?_, fun list => ?_, fun list => ?_,
    fun list => ?_, fun u hu => ?_, fun u hu => ?_, fun u hu => ?_, fun u hu => ?_⟩
  · rw [hrows, hinv.length]
  · rw [hrows] at hrow
    refine (hinv.pairwise list row hrow).imp_of_mem fun {u v} hu hv hbefore => ?_
    have hut := hsame u (hinv.pending_of_mem hrow hu).1
    have hvt := hsame v (hinv.pending_of_mem hrow hv).1
    exact hbefore.congr (by rw [hut]) (by rw [hvt]) (by rw [horder]) (by rw [horder])
  · rw [hrows]
    exact hinv.chain list
  · obtain ⟨bottom, hbottom, hiff⟩ := hinv.bottom list
    refine ⟨bottom, by rw [hrows, hbottom], fun u => ?_⟩
    rw [hiff, hpending]
    refine and_congr_right fun hu => ?_
    rw [hsame u hu]
  · obtain ⟨base, hbase⟩ := hinv.window list
    refine ⟨base, fun u hu hl => ?_⟩
    rw [hpending] at hu
    rw [hsame u hu] at hl ⊢
    exact hbase u hu hl
  · rw [horder, hstarts]
    exact hinv.order u (hpending ▸ hu)
  · rw [hpending] at hu
    rw [hsame u hu]
    exact hinv.deadline u hu
  · rw [hpending]
    constructor
    · intro hactive
      have heq := htimer u (.inr hactive)
      rw [heq] at hu hactive
      exact (hinv.activated u hu).mp hactive
    · intro hp
      rw [hsame u hp]
      exact (hinv.activated u (hinv.isTimer u hp)).mpr hp
  · rw [hpending] at hu
    rw [hsame u hu]
    exact hinv.isTimer u hu

theorem Inv.rtTimerStart (hinv : Inv cfg s) (hisTimer : (s.timer t).isTimer = true)
    (htime : (s.timer t).initTick < rtTickMax / 2)
    (hallowed : StartsInWindow cfg s (.start t)) :
    ∃ s', rtTimerStart cfg t s = some s' ∧ Inv cfg s' := by
  obtain ⟨base, hnew, hold⟩ := hallowed
  -- the state between the two sections, with the timer no longer counted as pending
  let between : TimerSystem :=
    { rtTimerRemove t s with
      timer := update s.timer t
        { s.timer t with
          activated := false
          timeoutTick := add32 s.tick (s.timer t).initTick }
      pending := s.pending.filter (· ≠ t) }
  have hbetween : Inv cfg between := by
    refine hinv.remove rfl rfl (fun u hu => ?_) rfl rfl (fun _ => ?_)
    · simp [between, hu]
    · simp [between]
  have hfree : t ∉ between.pending := by simp [between]
  have hwindow : InWindow cfg between (timerListOf cfg (between.timer t)) base := by
    intro u hu hl
    have hmem : u ∈ s.pending ∧ u ≠ t := by simpa [between] using hu
    have hlist : timerListOf cfg (s.timer u) = timerListOf cfg (s.timer t) := by
      simpa [between, hmem.2, timerListOf] using hl
    simpa [between, hmem.2] using hold u hmem.1 hmem.2 hlist
  obtain ⟨s', hinsert, hinv'⟩ := hbetween.insertTimer hfree (by simpa [between] using hisTimer)
    (by simpa [between, add32] using Nat.mod_lt _ (by decide)) (by simpa [between] using hnew)
    hwindow
  refine ⟨s', ?_, hinv'⟩
  rw [← hinsert]
  simp [Clock.rtTimerStart, Clock.insertTimer, rowHead, between, hisTimer, htime,
    setTimer, rtTimerRemove, List.filter_filter]

theorem Inv.exec (hinv : Inv cfg s) {op : TimerOp} (hallowed : StartsInWindow cfg s op)
    (hexec : s.exec cfg op = some s') : Inv cfg s' := by
  cases op with
  | init t time softTimer =>
    simp only [TimerSystem.exec] at hexec
    split at hexec
    · cases hexec
    next hfresh =>
      cases hexec
      refine hinv.keep rfl rfl rfl rfl fun u hu => ?_
      have hne : u ≠ t := by
        rintro rfl
        rcases hu with hp | hactive
        · exact hfresh (hinv.isTimer u hp)
        · simp [rtTimerInit, setTimer] at hactive
      simp [rtTimerInit, setTimer, hne]
  | start t =>
    have hguards : (s.timer t).isTimer = true ∧ (s.timer t).initTick < rtTickMax / 2 := by
      simp only [TimerSystem.exec, Clock.rtTimerStart] at hexec
      split at hexec
      next hisTimer =>
        split at hexec
        next htime => exact ⟨hisTimer, by simpa [setTimer] using htime⟩
        · cases hexec
      · cases hexec
    obtain ⟨s'', hstart, hinv'⟩ := hinv.rtTimerStart hguards.1 hguards.2 hallowed
    cases hstart.symm.trans hexec
    exact hinv'
  | stop t =>
    simp only [TimerSystem.exec, rtTimerStop] at hexec
    split at hexec
    · split at hexec
      · cases hexec
        refine hinv.remove rfl rfl (fun u hu => ?_) rfl rfl (fun _ => ?_)
        · simp [setTimer, rtTimerRemove, hu]
        · simp [setTimer]
      · cases hexec
        exact hinv.keep rfl rfl rfl rfl fun _ _ => rfl
    · cases hexec
  | detach t =>
    simp only [TimerSystem.exec, rtTimerDetach] at hexec
    split at hexec
    · cases hexec
      refine hinv.remove rfl rfl (fun u hu => ?_) rfl rfl (fun h => ?_)
      · simp [setTimer, rtTimerRemove, hu]
      · simp [setTimer] at h
    · cases hexec
  | tick =>
    cases hexec
    exact hinv.keep rfl rfl rfl rfl fun _ _ => rfl

end Steps

theorem inv_of_reachable {cfg : TimerConfig} {s : TimerSystem}
    (hreach : (timerMachine cfg).Reachable (StartsInWindow cfg) s) : Inv cfg s :=
  hreach.invariant (Inv cfg) (fun _ => Inv.init)
    fun _ _ _ hinv hallowed hexec => hinv.exec hallowed hexec

structure TimerSystem.OrderOk (cfg : TimerConfig) (s : TimerSystem) : Prop where
  window : ∀ list, ∃ base, InWindow cfg s list base
  sorted : ∀ list base, InWindow cfg s list base → ∀ row ∈ s.rows list,
    row.Pairwise fun t u =>
      sub32 (s.timer t).timeoutTick base ≤ sub32 (s.timer u).timeoutTick base
  length : ∀ list, (s.rows list).length = cfg.level
  sublist : ∀ list lvl row next, (s.rows list)[lvl]? = some row →
    (s.rows list)[lvl + 1]? = some next → row.Sublist next
  bottom : ∀ list, ∃ row, (s.rows list)[cfg.level - 1]? = some row ∧
    ∀ t, row.count t = if t ∈ s.pending ∧ timerListOf cfg (s.timer t) = list then 1 else 0
  fifo : ∀ list, ∀ row ∈ s.rows list, row.Pairwise fun t u =>
    (s.timer t).timeoutTick = (s.timer u).timeoutTick → s.order t < s.order u

theorem Inv.orderOk {cfg : TimerConfig} {s : TimerSystem} (hinv : Inv cfg s) : s.OrderOk cfg where
  window := hinv.window
  sorted := fun list base hwindow row hrow =>
    (hinv.pairwise list row hrow).imp_of_mem fun ht hu hbefore =>
      hinv.offset_le hwindow hrow ht hu hbefore
  length := hinv.length
  sublist := fun list lvl row next hrow hnext => by
    obtain ⟨hlt, rfl⟩ := List.getElem?_eq_some_iff.mp hnext
    obtain ⟨hlt', rfl⟩ := List.getElem?_eq_some_iff.mp hrow
    exact List.isChain_iff_getElem.mp (hinv.chain list) lvl hlt
  bottom := fun list => by
    obtain ⟨row, hlast, hiff⟩ := hinv.bottom list
    have hmem := List.mem_of_getLast? hlast
    refine ⟨row, ?_, fun t => ?_⟩
    · rw [List.getLast?_eq_getElem?, hinv.length] at hlast
      exact hlast
    · rw [List.Nodup.count (hinv.nodup hmem)]
      simp only [hiff]
  fifo := fun list row hrow =>
    (hinv.pairwise list row hrow).imp_of_mem fun {t u} ht _ hbefore heq => by
      have hdeadline := hinv.deadline t (hinv.pending_of_mem hrow ht).1
      rcases hbefore with ⟨hpos, -⟩ | ⟨-, hlt⟩
      · rw [heq] at hpos hdeadline
        simp only [sub32] at hpos
        omega
      · exact hlt

/-- For all numbers of rows, masks and counters; besides, no start gets lost in the
rows. -/
theorem reachable_timerOrderOk {cfg : TimerConfig} {s : TimerSystem}
    (hreach : (timerMachine cfg).Reachable (StartsInWindow cfg) s) :
    s.OrderOk cfg ∧
      (∀ t, (s.timer t).isTimer = true →
        ((s.timer t).activated = true ↔ t ∈ s.pending)) ∧
      ∀ t, (s.timer t).isTimer = true → (s.timer t).initTick < rtTickMax / 2 →
        StartsInWindow cfg s (.start t) → (s.exec cfg (.start t)).isSome := by
  have hinv := inv_of_reachable hreach
  refine ⟨hinv.orderOk, hinv.activated, fun t hisTimer htime hallowed => ?_⟩
  obtain ⟨s', hstart, -⟩ := hinv.rtTimerStart hisTimer htime hallowed
  simp [TimerSystem.exec, hstart]

def twoRows : TimerConfig where
  level := 2
  mask := 1
  timerSoft := true
  level_pos := by decide

def timerStart : TimerSystem where
  timer := fun t =>
    { isTimer := true
      activated := false
      softTimer := false
      timeoutTick := 0
      initTick := t }
  rows := fun _ => [[], []]
  tick := 2 ^ 32 - 3
  randomNr := 0
  result := none
  pending := []
  starts := 0
  order := fun _ => 0

def timerRun : List TimerOp :=
  [.start 5, .start 1, .tick, .start 4, .start 2, .stop 1, .detach 2, .init 2 9 true, .start 2]

theorem reachable_timerOrderOk_timerRun :
    ∃ s, (timerMachine twoRows).Reachable (StartsInWindow twoRows) s ∧
      (s.rows .rtTimerList, s.rows .rtSoftTimerList) = ([[], [5, 4]], [[], [2]]) ∧
      s.OrderOk twoRows := by
  have hrun : ((timerMachine twoRows).run (StartFits twoRows (2 ^ 32 - 3)) timerStart
      timerRun).map (fun s => (s.rows .rtTimerList, s.rows .rtSoftTimerList)) =
      some ([[], [5, 4]], [[], [2]]) := by decide +kernel
  have hinit : Initial twoRows timerStart :=
    ⟨fun _ => rfl, fun _ => rfl, rfl, rfl, by decide⟩
  obtain ⟨s, hreach, hrows⟩ := Machine.exists_reachable_of_run hinit hrun
  have hreach : (timerMachine twoRows).Reachable (StartsInWindow twoRows) s :=
    hreach.mono fun _ _ hfits => ⟨_, hfits⟩
  exact ⟨s, hreach, hrows, (reachable_timerOrderOk hreach).1⟩

end RtThread.Clock
