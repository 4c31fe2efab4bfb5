import RtThread.Mem.SizeLaws
import RtThread.Memheap.Completeness

namespace RtThread.Memheap

open RtThread.Lib RtThread.Mem MemheapClient MemheapConfig

/-! Clients of a memory heap that ask for any size of 32 bits. -/

def MemheapConfig.Rounds (cfg : MemheapConfig) (size : Nat) : Prop :=
  size + cfg.alignSize ≤ 2 ^ 32

instance {cfg : MemheapConfig} {size : Nat} : Decidable (cfg.Rounds size) :=
  inferInstanceAs (Decidable (_ ≤ _))

def MemheapOp.requested : MemheapOp → Nat
  | .alloc size => size
  | .realloc _ newsize => newsize
  | .free _ => 0
  | .store _ _ _ => 0

/-- A client passes `NULL` or a live pointer, and any size. -/
def MemheapClient.may (s : MemheapClient) : MemheapOp → Bool
  | .alloc size => size < 2 ^ 32
  | .realloc ptr newsize => (ptr = 0 ∨ ptr ∈ s.live.map Live.ptr) ∧ newsize < 2 ^ 32
  | .free ptr => ptr = 0 ∨ ptr ∈ s.live.map Live.ptr
  | .store ptr index _ => ∃ x ∈ s.live, x.ptr = ptr ∧ index < x.size

def MemheapClient.call (cfg : MemheapConfig) (s : MemheapClient) (op : MemheapOp) :
    Option MemheapClient :=
  if s.may op then
    match op with
    | .alloc size => (rtMemheapAlloc cfg size s.toRtMemheap).map (s.receive size)
    | .realloc ptr newsize =>
      (rtMemheapRealloc cfg ptr newsize s.toRtMemheap).map (s.resize ptr newsize)
    | .free ptr => (rtMemheapFree cfg ptr s.toRtMemheap).map (s.giveBack ptr)
    | .store ptr index byte =>
      some { s with memory := s.memory.writeBytes (ptr + index) [byte], result := 0 }
  else none

def memheapCallMachine (cfg : MemheapConfig) : Machine MemheapClient MemheapOp where
  init := MemheapClient.Initial cfg
  exec := MemheapClient.call cfg

/-- `rt_memheap_realloc` adds to the new size and the sum wraps, and there is a free block
behind. -/
def RtMemheap.Overruns (cfg : MemheapConfig) (s : RtMemheap) (ptr newsize : Nat) : Prop :=
  2 ^ 32 ≤ allocatedSize cfg newsize + memheapMinialloc ∧
    isUsed s.memory (itemGet .next s.memory (ptr - cfg.memheapSize)) = false

def MemheapClient.Exact (cfg : MemheapConfig) (s : MemheapClient) : MemheapOp → Prop
  | .alloc size => cfg.Rounds size
  | .realloc ptr newsize => cfg.Rounds newsize ∧ ¬ (ptr ≠ 0 ∧ s.Overruns cfg ptr newsize)
  | .free _ => True
  | .store _ _ _ => True

instance (cfg : MemheapConfig) (s : MemheapClient) (op : MemheapOp) : Decidable (s.Exact cfg op) :=
  match op with
  | .alloc _ => inferInstanceAs (Decidable (_ ≤ _))
  | .realloc _ _ => inferInstanceAs (Decidable (_ ≤ _ ∧ ¬ (_ ≠ _ ∧ _ ≤ _ ∧ _ = _)))
  | .free _ | .store _ _ _ => instDecidableTrue

def RtMemheap.Takes (cfg : MemheapConfig) (s : RtMemheap) (frees : List Nat) (need : Nat) : Prop :=
  need < s.availableSize ∧ ∃ b ∈ frees, need ≤ memitemSize cfg s.memory b

def MemheapClient.Answers (cfg : MemheapConfig) (s : MemheapClient) (frees : List Nat) :
    MemheapOp → Prop
  | .alloc size => cfg.Rounds size ∨ ¬ s.Takes cfg frees (allocatedSize cfg size)
  | .realloc ptr newsize =>
    if ptr = 0 then
      cfg.Rounds newsize ∨
        ¬ s.Takes cfg frees (allocatedSize cfg (allocatedSize cfg newsize))
    else cfg.Rounds newsize ∧ ¬ s.Overruns cfg ptr newsize
  | .free _ => True
  | .store _ _ _ => True

structure MemheapClient.CallRight (cfg : MemheapConfig) (s : MemheapClient) (op : MemheapOp)
    (s' : MemheapClient) : Prop where
  wellFormed : ∃ blocks frees, s'.WellFormed cfg blocks frees
  room : s'.result ≠ 0 → op.requested ≤ s'.capacity cfg s'.result
  refused : ∀ ptr newsize, op = .realloc ptr newsize → newsize ≠ 0 → s'.result = 0 →
    ∀ y ∈ s.live, y ∈ s'.live ∧ SameData cfg s.toRtMemheap s'.toRtMemheap y.ptr

def MemheapClient.Right (cfg : MemheapConfig) (s : MemheapClient) (op : MemheapOp) : Prop :=
  ∃ s', s.call cfg op = some s' ∧ s.CallRight cfg op s'

variable {cfg : MemheapConfig} {s s' : MemheapClient} {tiles tiles' : List Tile}
  {frees : List Nat}

theorem MemheapConfig.alignBits_le_word (cfg : MemheapConfig) : cfg.alignBits ≤ 32 :=
  Nat.le_trans cfg.alignBits_le (by decide)

theorem MemheapConfig.alignSize_le (cfg : MemheapConfig) : cfg.alignSize ≤ cfg.memheapSize :=
  Nat.le_of_dvd (Nat.lt_of_lt_of_le (by decide) (twentyFour_le cfg))
    (Nat.dvd_of_mod_eq_zero (memheapSize_mod cfg))

theorem MemheapConfig.Rounds.le {size : Nat} (hrounds : cfg.Rounds size) :
    size ≤ allocatedSize cfg size := by
  rw [allocatedSize_eq_max]
  exact Nat.le_trans (le_rtAlign cfg.alignBits_le_word hrounds) (Nat.le_max_left ..)

theorem allocatedSize_wraps {size : Nat} (hsize : size < 2 ^ 32) (hwraps : ¬ cfg.Rounds size) :
    allocatedSize cfg size = memheapMinialloc := by
  rw [allocatedSize_eq_max, alignSize, rtAlign_wraps cfg.alignBits_le_word hsize
    (Nat.lt_of_not_le hwraps)]
  exact Nat.max_eq_right (Nat.zero_le _)

theorem MemheapClient.WellFormed.request_le {blocks : List Nat}
    (hwellFormed : s.WellFormed cfg blocks frees) (hregion : Region cfg s.toMemheapPool)
    {x : Live} (hx : x ∈ s.live) : x.size + 2 * cfg.memheapSize ≤ s.poolSize := by
  obtain ⟨b, hb, -, hptr, hsize⟩ := hwellFormed.live x hx
  have hincreasing := hwellFormed.increasing
  have htail : b < s.tail cfg :=
    (List.pairwise_append.mp hincreasing).2.2 b hb _ (List.mem_singleton_self _)
  have hstart : s.startAddr ≤ b := by
    have hfirst := hwellFormed.first
    cases blocks with
    | nil => cases hb
    | cons a rest =>
      have ha : a = s.startAddr := Option.some.inj hfirst
      rcases List.mem_cons.mp hb with rfl | hin
      · exact Nat.le_of_eq ha.symm
      · rw [← ha]
        exact Nat.le_of_lt ((List.pairwise_cons.mp hincreasing).1 b (by simp [hin]))
  have hplace := hregion.tail_add
  have hroom := hwellFormed.headers x hx (s.tail cfg) (by simp)
  omega

theorem MemheapClient.Inv.callRight (hinv : s'.Inv cfg tiles') {op : MemheapOp}
    (hstep : s.StepOk cfg op s')
    (hgiven : s'.result ≠ 0 → ⟨s'.result, op.requested⟩ ∈ s'.live) : s.CallRight cfg op s' := by
  obtain ⟨frees, hlayout⟩ := hinv.layout
  refine ⟨⟨_, _, hinv.wellFormed hlayout⟩, fun hresult => ?_, hstep.refused⟩
  obtain ⟨t, -, -, -, -, hsize⟩ := hinv.live_tile (hgiven hresult)
  exact hsize

theorem not_callRight {op : MemheapOp} (hregion : Region cfg s.toMemheapPool)
    (hpool : s'.toMemheapPool = s.toMemheapPool)
    (hgiven : ⟨s'.result, op.requested⟩ ∈ s'.live)
    (hlarge : s.poolSize < op.requested + 2 * cfg.memheapSize) : ¬ s.CallRight cfg op s' := by
  intro hright
  obtain ⟨blocks, frees, hwellFormed⟩ := hright.wellFormed
  have hsize : s'.poolSize = s.poolSize := by rw [hpool]
  have hle := hwellFormed.request_le (hpool ▸ hregion) hgiven
  dsimp only at hle
  omega

def MemheapClient.Answered (cfg : MemheapConfig) (s : MemheapClient) (op : MemheapOp) : Prop :=
  ∃ s' tiles', s.call cfg op = some s' ∧ s'.Inv cfg tiles' ∧ Neat cfg s'.toRtMemheap tiles' ∧
    s.StepOk cfg op s' ∧ (s'.result ≠ 0 → ⟨s'.result, op.requested⟩ ∈ s'.live)

theorem MemheapClient.Answered.intro {op : MemheapOp} {fit : Prop}
    (hcall : s.call cfg op = some s')
    (hstep : (∃ tiles', s'.Inv cfg tiles') ∧ s.StepOk cfg op s')
    (hleaves : Leaves cfg s'.toRtMemheap tiles fit)
    (hgiven : s'.result ≠ 0 → ⟨s'.result, op.requested⟩ ∈ s'.live) : s.Answered cfg op := by
  obtain ⟨⟨tiles', hinv⟩, hstep⟩ := hstep
  obtain ⟨tiles'', hneat, -⟩ := hleaves
  obtain ⟨frees, hlayout⟩ := hinv.layout
  obtain ⟨frees', hlayout'⟩ := hneat.layout
  cases hlayout.unique hlayout'
  exact ⟨s', tiles', hcall, hinv, hneat, hstep, hgiven⟩

theorem MemheapClient.Answered.right {op : MemheapOp} (hanswered : s.Answered cfg op) :
    s.Right cfg op := by
  obtain ⟨s', tiles', hcall, hinv, -, hstep, hgiven⟩ := hanswered
  exact ⟨s', hcall, hinv.callRight hstep hgiven⟩

theorem MemheapClient.Inv.refused (hinv : s.Inv cfg tiles) (hneat : Neat cfg s.toRtMemheap tiles)
    {op : MemheapOp} {mem : RtMemheap} (houtcome : Outcome cfg s.toRtMemheap mem tiles tiles)
    (hcall : s.call cfg op = some { toRtMemheap := mem, live := s.live, result := 0 }) :
    s.Answered cfg op := by
  obtain ⟨hinv', hsame⟩ := hinv.null houtcome
  exact .intro hcall ⟨⟨tiles, hinv'⟩, .of_null hsame⟩ (hneat.unchanged houtcome True)
    fun hresult => absurd rfl hresult

section Calls

variable {size ptr newsize : Nat}

theorem call_alloc (hmay : s.may (.alloc size)) :
    s.call cfg (.alloc size) = (rtMemheapAlloc cfg size s.toRtMemheap).map (s.receive size) := by
  simp only [call, hmay, if_true]

theorem call_realloc (hmay : s.may (.realloc ptr newsize)) :
    s.call cfg (.realloc ptr newsize) =
      (rtMemheapRealloc cfg ptr newsize s.toRtMemheap).map (s.resize ptr newsize) := by
  simp only [call, hmay, if_true]

theorem Layout.alloc_null {mem : RtMemheap} (hlayout : Layout cfg mem tiles frees)
    (hrecorded : mem.Recorded) (hnot : ¬ mem.Takes cfg frees (allocatedSize cfg size)) :
    ∃ mem', rtMemheapAlloc cfg size mem = some (0, mem') ∧
      Outcome cfg mem mem' tiles tiles := by
  rcases rtMemheapAlloc_spec hlayout hrecorded size with
    ⟨mem', hcall, houtcome, -⟩ |
      ⟨pre, x, post, tile, rest, mem', rfl, hfree, hcarved, -, -, hroom, hsplit, -⟩
  · exact ⟨mem', hcall, houtcome⟩
  · refine absurd ⟨hroom, x.start, ?_, ?_⟩ hnot
    · exact hlayout.frees.mem_iff.mpr (mem_freeStarts.mpr ⟨x, by simp, hfree, rfl⟩)
    · rw [hlayout.shape.memitemSize_eq (by simp) (hlayout.stop_lt (by simp))]
      rcases hcarved.rest with ⟨-, hstop⟩ | ⟨hrest, -⟩
      · have hsize : dataSize cfg tile = dataSize cfg x := by
          rw [dataSize, dataSize, hcarved.start, hstop]
        exact hsize ▸ hcarved.room
      · have hcut := hsplit (by simp [hrest])
        omega

theorem Layout.alloc_takes {mem : RtMemheap} (hlayout : Layout cfg mem tiles frees)
    (hrecorded : mem.Recorded) (htakes : mem.Takes cfg frees (allocatedSize cfg size)) :
    ∃ p mem', rtMemheapAlloc cfg size mem = some (p, mem') ∧ p ≠ 0 ∧
      mem'.toMemheapPool = mem.toMemheapPool := by
  have hlen := twentyFour_le cfg
  obtain ⟨havailable, b, hb, hle⟩ := htakes
  rcases rtMemheapAlloc_spec hlayout hrecorded size with
    ⟨-, -, -, hfull | hshort⟩ | ⟨_, _, _, tile, _, mem', -, -, -, hcall, houtcome, -⟩
  · omega
  · obtain ⟨t, ht, hfree, rfl⟩ := mem_freeStarts.mp (hlayout.frees.mem_iff.mp hb)
    rw [hlayout.shape.memitemSize_eq ht (hlayout.stop_lt ht)] at hle
    exact absurd (hshort t ht hfree) (Nat.not_lt_of_le hle)
  · exact ⟨_, mem', hcall, by omega, houtcome.pool⟩

theorem Layout.alloc_over {mem : RtMemheap} (hlayout : Layout cfg mem tiles frees)
    (hlarge : mem.poolSize ≤ size) (hle : size ≤ allocatedSize cfg size) :
    rtMemheapAlloc cfg size mem = some (0, mem) := by
  have havailable := hlayout.available_le
  rw [rtMemheapAlloc]
  exact if_neg (by omega)

theorem MemheapClient.Inv.realloc_over (hinv : s.Inv cfg tiles)
    (hptr : ptr = 0 ∨ ptr ∈ s.live.map Live.ptr) (hzero : newsize ≠ 0)
    (hwraps : 2 ^ 32 ≤ allocatedSize cfg newsize + memheapMinialloc)
    (hnot : ptr ≠ 0 → ¬ s.Overruns cfg ptr newsize) :
    ∃ mem, rtMemheapRealloc cfg ptr newsize s.toRtMemheap = some (0, mem) ∧
      Outcome cfg s.toRtMemheap mem tiles tiles := by
  have hmini : memheapMinialloc = 12 := rfl
  have hlen := twentyFour_le cfg
  obtain ⟨frees, hlayout⟩ := hinv.layout
  have hbelow := hlayout.region.below
  have hle := le_allocatedSize cfg newsize
  rcases hptr with rfl | hlive
  · rw [rtMemheapRealloc_null hzero]
    exact ⟨_, hlayout.alloc_over (by omega) hle, .unchanged hlayout hinv.recorded⟩
  · obtain ⟨x, hx, rfl⟩ := hinv.exists_tile hlive
    obtain ⟨hmem, hused⟩ := mem_usedTiles.mp hx
    have hbounds := hlayout.bounds hmem
    have hdata : dataSize cfg x = x.stop - (x.start + cfg.memheapSize) := rfl
    have hold := hlayout.shape.memitemSize_eq hmem (hlayout.stop_lt hmem)
    have hnext : itemGet .next s.memory x.start = x.stop := by
      obtain ⟨pre, post, rfl⟩ := List.append_of_mem hmem
      exact hlayout.shape.next_eq
    have hpos : x.start + cfg.memheapSize ≠ 0 := by omega
    have hbusy : ¬ isUsed s.memory x.stop = false := by
      intro hfree
      refine hnot hpos ⟨hwraps, ?_⟩
      rw [Nat.add_sub_cancel, hnext]
      exact hfree
    have houtcome := Outcome.release hlayout hinv.recorded
    obtain ⟨frees', hreleased⟩ := houtcome.layout
    have hlarge : s.release.poolSize ≤ allocatedSize cfg newsize := by
      show s.poolSize ≤ _
      omega
    have halloc := hreleased.alloc_over hlarge hle
    refine ⟨s.release, ?_, houtcome⟩
    unfold rtMemheapRealloc
    rw [if_neg hzero]
    dsimp only
    rw [if_neg hpos, Nat.add_sub_cancel, hold, hnext, if_pos (by omega), if_pos (by omega),
      if_neg fun h => hbusy h.1]
    simp only [reallocMove, halloc, Option.bind_eq_bind, Option.bind_some]
    rfl

end Calls

section Answers

variable {size ptr newsize : Nat}

theorem MemheapClient.Inv.alloc_answered (hinv : s.Inv cfg tiles)
    (hneat : Neat cfg s.toRtMemheap tiles) (hlayout : Layout cfg s.toRtMemheap tiles frees)
    (hmay : s.may (.alloc size)) (hanswers : s.Answers cfg frees (.alloc size)) :
    s.Answered cfg (.alloc size) := by
  rcases hanswers with hrounds | hnot
  · obtain ⟨⟨p, mem⟩, hcall⟩ := Option.isSome_iff_exists.mp (hinv.alloc_isSome size)
    refine .intro ?_ (hinv.alloc hrounds.le hcall) (hneat.alloc hcall) fun hresult => ?_
    · rw [call_alloc hmay, hcall, Option.map_some]
    · simp only [receive] at hresult ⊢
      rw [if_neg hresult]
      exact List.mem_cons_self
  · obtain ⟨mem, hcall, houtcome⟩ := hlayout.alloc_null hinv.recorded hnot
    refine hinv.refused hneat houtcome ?_
    rw [call_alloc hmay, hcall, Option.map_some, receive]
    rfl

theorem MemheapClient.Inv.realloc_answered (hinv : s.Inv cfg tiles)
    (hneat : Neat cfg s.toRtMemheap tiles) (hlayout : Layout cfg s.toRtMemheap tiles frees)
    (hmay : s.may (.realloc ptr newsize)) (hanswers : s.Answers cfg frees (.realloc ptr newsize)) :
    s.Answered cfg (.realloc ptr newsize) := by
  obtain ⟨hptr, hsize⟩ := of_decide_eq_true hmay
  have hmini : memheapMinialloc = 12 := rfl
  have hnull : newsize ≠ 0 → (∃ mem, rtMemheapRealloc cfg ptr newsize s.toRtMemheap =
      some (0, mem) ∧ Outcome cfg s.toRtMemheap mem tiles tiles) →
      s.Answered cfg (.realloc ptr newsize) := by
    rintro hzero ⟨mem, hcall, houtcome⟩
    refine hinv.refused hneat houtcome ?_
    rw [call_realloc hmay, hcall, Option.map_some, resize, if_neg hzero]
    rfl
  by_cases hrounds : cfg.Rounds newsize
  · by_cases hfit : allocatedSize cfg newsize + 12 < 2 ^ 32
    · obtain ⟨⟨p, mem⟩, hcall⟩ := Option.isSome_iff_exists.mp (hinv.realloc_isSome hptr hfit)
      refine .intro ?_ (hinv.realloc hptr hrounds.le hfit hcall)
        (hinv.neat_realloc hneat hptr hfit hcall) fun hresult => ?_
      · rw [call_realloc hmay, hcall, Option.map_some]
      · have hzero : newsize ≠ 0 := by
          rintro rfl
          rw [rtMemheapRealloc, if_pos rfl, Option.map_eq_some_iff] at hcall
          obtain ⟨mem', -, heq⟩ := hcall
          cases heq
          exact hresult rfl
        simp only [resize] at hresult ⊢
        rw [if_neg hzero, if_neg hresult]
        exact List.mem_cons_self
    · have hzero : newsize ≠ 0 := by
        rintro rfl
        have hzero := rtAlign_lt_add 0 cfg.alignBits_le_word
        have hbits := cfg.alignBits_le
        have hpow : 2 ^ cfg.alignBits ≤ 2 ^ 30 := Nat.pow_le_pow_right (by decide) hbits
        rw [allocatedSize_eq_max, alignSize] at hfit
        omega
      refine hnull hzero (hinv.realloc_over hptr hzero (by omega) fun hne => ?_)
      rw [Answers, if_neg hne] at hanswers
      exact hanswers.2
  · have hzero : newsize ≠ 0 := by
      rintro rfl
      have hbits := cfg.alignBits_le
      have hpow : 2 ^ cfg.alignBits ≤ 2 ^ 30 := Nat.pow_le_pow_right (by decide) hbits
      rw [Rounds, alignSize] at hrounds
      omega
    by_cases hstart : ptr = 0
    · subst hstart
      rw [Answers, if_pos rfl] at hanswers
      refine hnull hzero ?_
      rw [rtMemheapRealloc_null hzero]
      exact hlayout.alloc_null hinv.recorded (hanswers.resolve_left hrounds)
    · rw [Answers, if_neg hstart] at hanswers
      exact absurd hanswers.1 hrounds

theorem MemheapClient.Inv.answered (hinv : s.Inv cfg tiles) (hneat : Neat cfg s.toRtMemheap tiles)
    (hlayout : Layout cfg s.toRtMemheap tiles frees) {op : MemheapOp} (hmay : s.may op)
    (hanswers : s.Answers cfg frees op) : s.Answered cfg op := by
  cases op with
  | alloc size => exact hinv.alloc_answered hneat hlayout hmay hanswers
  | realloc ptr newsize => exact hinv.realloc_answered hneat hlayout hmay hanswers
  | free ptr =>
    have hptr : ptr = 0 ∨ ptr ∈ s.live.map Live.ptr := of_decide_eq_true hmay
    obtain ⟨mem, hcall⟩ := Option.isSome_iff_exists.mp (hinv.free_isSome hptr)
    refine .intro ?_ (hinv.free hptr hcall) (hinv.neat_free hneat hptr hcall)
      fun hresult => absurd rfl hresult
    simp only [call, hmay, if_true, hcall, Option.map_some]
  | store ptr index byte =>
    obtain ⟨y, hy, rfl, hindex⟩ := of_decide_eq_true hmay
    obtain ⟨pre, x, post, -, -, houtcome⟩ := hinv.write hy hindex byte
    refine .intro ?_ (hinv.store hy hindex byte) (hneat.unchanged houtcome True)
      fun hresult => absurd rfl hresult
    simp only [call, hmay, if_true]

theorem not_right {op : MemheapOp} (hlayout : Layout cfg s.toRtMemheap tiles frees)
    (hcall : s.call cfg op = some s') (hpool : s'.toMemheapPool = s.toMemheapPool)
    (hgiven : ⟨s'.result, op.requested⟩ ∈ s'.live)
    (hlarge : 2 ^ 32 < op.requested + 12 + cfg.alignSize) : ¬ s.Right cfg op := by
  rintro ⟨s'', hcall', hright⟩
  rw [hcall] at hcall'
  cases hcall'
  have hlen := twentyFour_le cfg
  have hunit := cfg.alignSize_le
  have hbelow := hlayout.region.below
  exact not_callRight hlayout.region hpool hgiven (by omega) hright

theorem MemheapClient.Inv.alloc_not_right (hinv : s.Inv cfg tiles)
    (hlayout : Layout cfg s.toRtMemheap tiles frees) (hmay : s.may (.alloc size))
    (hnot : ¬ s.Answers cfg frees (.alloc size)) : ¬ s.Right cfg (.alloc size) := by
  obtain ⟨hwraps, htakes⟩ := not_or.mp hnot
  obtain ⟨p, mem, hcall, hp, hpool⟩ :=
    hlayout.alloc_takes hinv.recorded (Classical.not_not.mp htakes)
  have hwraps' : ¬ size + cfg.alignSize ≤ 2 ^ 32 := hwraps
  have hcalled : s.call cfg (.alloc size) = some (s.receive size (p, mem)) := by
    rw [call_alloc hmay, hcall, Option.map_some]
  refine not_right hlayout hcalled hpool ?_ ?_
  · simp only [receive, if_neg hp]
    exact List.mem_cons_self
  · dsimp only [MemheapOp.requested]
    omega

theorem MemheapClient.Inv.realloc_gives (hinv : s.Inv cfg tiles)
    (hneat : Neat cfg s.toRtMemheap tiles) (hlive : ptr ∈ s.live.map Live.ptr)
    (hzero : newsize ≠ 0) (hsize : newsize < 2 ^ 32)
    (hnot : ¬ (cfg.Rounds newsize ∧ ¬ s.Overruns cfg ptr newsize)) :
    ∃ p mem, rtMemheapRealloc cfg ptr newsize s.toRtMemheap = some (p, mem) ∧ p ≠ 0 ∧
      mem.toMemheapPool = s.toMemheapPool := by
  have hmini : memheapMinialloc = 12 := rfl
  have hlen := twentyFour_le cfg
  obtain ⟨frees, hlayout⟩ := hinv.layout
  obtain ⟨x, hx, rfl⟩ := hinv.exists_tile hlive
  obtain ⟨hmem, hused⟩ := mem_usedTiles.mp hx
  have hdata : memheapMinialloc ≤ dataSize cfg x := hneat.long_of_used hmem hused x hmem
  have hbounds := hlayout.bounds hmem
  have hpos : x.start + cfg.memheapSize ≠ 0 := by omega
  obtain ⟨pre, post, rfl⟩ := List.append_of_mem hmem
  by_cases hrounds : cfg.Rounds newsize
  · obtain ⟨hover, hfree⟩ : s.Overruns cfg (x.start + cfg.memheapSize) newsize := by
      by_contra hno
      exact hnot ⟨hrounds, hno⟩
    have hold := hlayout.shape.memitemSize_eq hmem (hlayout.stop_lt hmem)
    have hnext : itemGet .next s.memory x.start = x.stop := hlayout.shape.next_eq
    have hdx : dataSize cfg x = x.stop - (x.start + cfg.memheapSize) := rfl
    have hbelow := hlayout.region.below
    have hlt := allocatedSize_lt cfg newsize
    rw [Nat.add_sub_cancel, hnext] at hfree
    obtain ⟨r, post, rfl, -, hr⟩ := hlayout.exists_behind hfree
    -- the sum that wraps is less than any block
    have hwrapped : add32 (allocatedSize cfg newsize) memheapMinialloc < 12 := by
      rw [add32]
      omega
    have hsum := (hlayout.behind_free hr).2
    refine ⟨x.start + cfg.memheapSize, (reallocInPlace cfg x.start (dataSize cfg x)
      (allocatedSize cfg newsize) s.toRtMemheap).release, ?_, hpos, rfl⟩
    unfold rtMemheapRealloc
    rw [if_neg hzero]
    dsimp only
    rw [if_neg hpos, Nat.add_sub_cancel, hold, hnext, if_pos (by omega), if_pos (by omega),
      if_pos ⟨hfree, by omega⟩]
  · have hsmall : allocatedSize cfg newsize = 12 := allocatedSize_wraps hsize hrounds
    rcases rtMemheapRealloc_spec hlayout hinv.recorded hused hzero rfl (by omega) with
      ⟨-, -, -, hshort, -⟩ | ⟨mem, _, tile, hcall, hresized, -⟩
    · omega
    · exact ⟨_, mem, hcall, by omega, hresized.outcome.pool⟩

theorem MemheapClient.Inv.realloc_not_right (hinv : s.Inv cfg tiles)
    (hneat : Neat cfg s.toRtMemheap tiles) (hlayout : Layout cfg s.toRtMemheap tiles frees)
    (hmay : s.may (.realloc ptr newsize)) (hnot : ¬ s.Answers cfg frees (.realloc ptr newsize)) :
    ¬ s.Right cfg (.realloc ptr newsize) := by
  obtain ⟨hptr, hsize⟩ := of_decide_eq_true hmay
  have hmini : memheapMinialloc = 12 := rfl
  have hbits := cfg.alignBits_le
  have hpow : 2 ^ cfg.alignBits ≤ 2 ^ 30 := Nat.pow_le_pow_right (by decide) hbits
  have hround := rtAlign_lt_add newsize cfg.alignBits_le_word
  -- how large the request is
  have hlarge : ¬ (cfg.Rounds newsize ∧ ¬ s.Overruns cfg ptr newsize) →
      2 ^ 32 < newsize + 12 + cfg.alignSize := by
    intro hwraps
    by_cases hrounds : cfg.Rounds newsize
    · have hover : 2 ^ 32 ≤ allocatedSize cfg newsize + memheapMinialloc := by
        by_contra hfits
        exact hwraps ⟨hrounds, fun h => hfits h.1⟩
      rw [allocatedSize_eq_max, alignSize] at hover
      rw [alignSize]
      omega
    · rw [Rounds] at hrounds
      omega
  have hzero : 2 ^ 32 < newsize + 12 + cfg.alignSize → newsize ≠ 0 := by
    rintro hlarge rfl
    rw [alignSize] at hlarge
    omega
  have hgives : newsize ≠ 0 → 2 ^ 32 < newsize + 12 + cfg.alignSize →
      (∃ p mem, rtMemheapRealloc cfg ptr newsize s.toRtMemheap = some (p, mem) ∧ p ≠ 0 ∧
        mem.toMemheapPool = s.toMemheapPool) → ¬ s.Right cfg (.realloc ptr newsize) := by
    rintro hzero hlarge ⟨p, mem, hcall, hp, hpool⟩
    have hcalled : s.call cfg (.realloc ptr newsize) = some (s.resize ptr newsize (p, mem)) := by
      rw [call_realloc hmay, hcall, Option.map_some]
    refine not_right hlayout hcalled hpool ?_ hlarge
    simp only [resize, if_neg hzero, if_neg hp]
    exact List.mem_cons_self
  by_cases hstart : ptr = 0
  · subst hstart
    rw [Answers, if_pos rfl] at hnot
    obtain ⟨hwraps, htakes⟩ := not_or.mp hnot
    have hlarge' := hlarge fun h => hwraps h.1
    refine hgives (hzero hlarge') hlarge' ?_
    rw [rtMemheapRealloc_null (hzero hlarge')]
    exact hlayout.alloc_takes hinv.recorded (Classical.not_not.mp htakes)
  · rw [Answers, if_neg hstart] at hnot
    have hlarge' := hlarge hnot
    exact hgives (hzero hlarge') hlarge'
      (hinv.realloc_gives hneat (hptr.resolve_left hstart) (hzero hlarge') hsize hnot)

theorem MemheapClient.Inv.right_iff (hinv : s.Inv cfg tiles) (hneat : Neat cfg s.toRtMemheap tiles)
    (hlayout : Layout cfg s.toRtMemheap tiles frees) {op : MemheapOp} (hmay : s.may op) :
    s.Right cfg op ↔ s.Answers cfg frees op := by
  refine ⟨fun hright => ?_, fun hanswers => (hinv.answered hneat hlayout hmay hanswers).right⟩
  by_contra hnot
  cases op with
  | alloc size => exact hinv.alloc_not_right hlayout hmay hnot hright
  | realloc ptr newsize => exact hinv.realloc_not_right hneat hlayout hmay hnot hright
  | free ptr => exact hnot trivial
  | store ptr index byte => exact hnot trivial

theorem MemheapClient.Exact.answers {op : MemheapOp} (hexact : s.Exact cfg op)
    (frees : List Nat) : s.Answers cfg frees op := by
  cases op with
  | alloc size => exact .inl hexact
  | realloc ptr newsize =>
    rw [Answers]
    split
    · exact .inl hexact.1
    next hne => exact ⟨hexact.1, fun hover => hexact.2 ⟨hne, hover⟩⟩
  | free ptr => trivial
  | store ptr index byte => trivial

theorem callMay {op : MemheapOp} (hcall : s.call cfg op = some s') : s.may op := by
  by_contra hnot
  simp only [call, if_neg hnot] at hcall
  cases hcall

theorem neat_of_callReachable
    (hreach : (memheapCallMachine cfg).Reachable (fun s op => s.Exact cfg op) s) :
    ∃ tiles, s.Inv cfg tiles ∧ Neat cfg s.toRtMemheap tiles := by
  refine hreach.invariant (fun s => ∃ tiles, s.Inv cfg tiles ∧ Neat cfg s.toRtMemheap tiles)
    (fun s hinit => ?_) (fun s op s' h hexact hcall => ?_)
  · obtain ⟨tiles, hinv, hneat, -⟩ := Initial.neat hinit
    exact ⟨tiles, hinv, hneat⟩
  · obtain ⟨tiles, hinv, hneat⟩ := h
    obtain ⟨frees, hlayout⟩ := hinv.layout
    obtain ⟨s'', tiles', hcall', hinv', hneat', -, -⟩ :=
      hinv.answered hneat hlayout (callMay hcall) (hexact.answers frees)
    rw [show s.call cfg op = some s' from hcall] at hcall'
    cases hcall'
    exact ⟨tiles', hinv', hneat'⟩

theorem callReachable_right
    (hreach : (memheapCallMachine cfg).Reachable (fun s op => s.Exact cfg op) s) :
    ∃ blocks frees, s.WellFormed cfg blocks frees ∧
      ∀ op, s.may op → (s.Right cfg op ↔ s.Answers cfg frees op) := by
  obtain ⟨tiles, hinv, hneat⟩ := neat_of_callReachable hreach
  obtain ⟨frees, hlayout⟩ := hinv.layout
  exact ⟨_, frees, hinv.wellFormed hlayout, fun op hmay => hinv.right_iff hneat hlayout hmay⟩

end Answers

/-- Sizes near the end of the address space, in `mem.c` and in `memheap.c`. -/
theorem allocationSizes_right (cfg : MemConfig) (cfg' : MemheapConfig) :
    (∀ {s : HeapSystem}, (callMachine cfg).Reachable (fun _ call => cfg.Rounds call.requested) s →
      ∃ offsets, s.HeapOk cfg offsets ∧
        ∀ call, s.May call → (s.Right cfg call ↔ s.Answers cfg offsets call)) ∧
    (∀ {s : MemheapClient}, (memheapCallMachine cfg').Reachable (fun s op => s.Exact cfg' op) s →
      ∃ blocks frees, s.WellFormed cfg' blocks frees ∧
        ∀ op, s.may op → (s.Right cfg' op ↔ s.Answers cfg' frees op)) :=
  ⟨rounds_right, callReachable_right⟩

/-- A block of each heap is live, and so many bytes that the size wraps are asked for. -/
theorem allocationSizes_right_wraps :
    (∃ s, (callMachine smallConfig).Reachable
        (fun _ call => smallConfig.Rounds call.requested) s ∧ s.live = [⟨4116, 20⟩] ∧
      ∃ offsets, s.HeapOk smallConfig offsets ∧
        (s.Right smallConfig (.realloc [97] 4116 (2 ^ 32 - 1)) ↔
          s.Answers smallConfig offsets (.realloc [97] 4116 (2 ^ 32 - 1)))) ∧
    (∃ s, (memheapCallMachine smallMemheapConfig).Reachable
        (fun s op => s.Exact smallMemheapConfig op) s ∧ s.live = [⟨1024, 20⟩] ∧
      ∃ blocks frees, s.WellFormed smallMemheapConfig blocks frees ∧
        (s.Right smallMemheapConfig (.realloc 1024 (2 ^ 32 - 4)) ↔
          s.Answers smallMemheapConfig frees (.realloc 1024 (2 ^ 32 - 4)))) := by
  constructor
  · have hrun : ((callMachine smallConfig).run (fun _ call => smallConfig.Rounds call.requested)
        heapStart [.malloc [97] 20]).map HeapSystem.live = some [⟨4116, 20⟩] := by
      decide +kernel
    obtain ⟨s, hreach, hlive⟩ := Machine.exists_reachable_of_run heapStart_initial hrun
    obtain ⟨offsets, hok, hright⟩ := (allocationSizes_right smallConfig smallMemheapConfig).1 hreach
    exact ⟨s, hreach, hlive, offsets, hok, hright _ ⟨.inr (by simp [hlive]), by decide⟩⟩
  · have hrun : ((memheapCallMachine smallMemheapConfig).run
        (fun s op => s.Exact smallMemheapConfig op) memheapStart [.alloc 20]).map
        live = some [⟨1024, 20⟩] := by
      decide +kernel
    obtain ⟨s, hreach, hlive⟩ := Machine.exists_reachable_of_run memheapStart_initial hrun
    obtain ⟨blocks, frees, hwellFormed, hright⟩ :=
      (allocationSizes_right smallConfig smallMemheapConfig).2 hreach
    refine ⟨s, hreach, hlive, blocks, frees, hwellFormed, hright _ ?_⟩
    exact decide_eq_true ⟨.inr (by simp [hlive]), by decide⟩

theorem not_right_of_capacity {op : MemheapOp} {p room : Nat}
    (hcall : (s.call cfg op).map (fun s' => (s'.result, s'.capacity cfg s'.result)) =
      some (p, room)) (hp : p ≠ 0) (hsmall : room < op.requested) : ¬ s.Right cfg op := by
  rintro ⟨s', hcalled, hright⟩
  rw [hcalled, Option.map_some, Option.some.injEq, Prod.mk.injEq] at hcall
  obtain ⟨rfl, rfl⟩ := hcall
  exact Nat.not_le_of_lt hsmall (hright.room hp)

/-- Requests whose size or product wraps get a block of twelve bytes; `rt_realloc` gives back
the old block and returns `NULL`; `rt_memheap_realloc` takes the next block to be enough. -/
theorem allocationSizes_fail :
    (∃ s, (callMachine smallConfig).Reachable
        (fun _ call => smallConfig.Rounds call.requested) s ∧
      ¬ s.Right smallConfig (.malloc [97] (2 ^ 32 - 1)) ∧
      ¬ s.Right smallConfig (.calloc [97] (2 ^ 31 + 1) 2)) ∧
    (∃ s, (callMachine smallConfig).Reachable
        (fun _ call => smallConfig.Rounds call.requested) s ∧ s.live = [⟨4116, 20⟩] ∧
      ¬ s.Right smallConfig (.realloc [97] 4116 (2 ^ 32 - 1))) ∧
    (∃ s, (memheapCallMachine smallMemheapConfig).Reachable
        (fun s op => s.Exact smallMemheapConfig op) s ∧ s.live = [⟨1024, 20⟩] ∧
      ¬ s.Right smallMemheapConfig (.alloc (2 ^ 32 - 1)) ∧
      ¬ s.Right smallMemheapConfig (.realloc 1024 (2 ^ 32 - 4))) := by
  refine ⟨⟨heapStart, .start heapStart_initial, ?_, ?_⟩, ?_, ?_⟩
  · exact not_right_of_payloadSize 4116 12 (by decide +kernel) (by decide) (by decide)
  · exact not_right_of_payloadSize 4116 12 (by decide +kernel) (by decide) (by decide)
  · have hrun : ((callMachine smallConfig).run (fun _ call => smallConfig.Rounds call.requested)
        heapStart [.malloc [97] 20]).map HeapSystem.live = some [⟨4116, 20⟩] := by
      decide +kernel
    obtain ⟨s, hreach, hlive⟩ := Machine.exists_reachable_of_run heapStart_initial hrun
    obtain ⟨tiles, hinv, -⟩ := roomy_of_reachable hreach
    have hmem : 4116 ∈ s.live.map Live.ptr := by simp [hlive]
    exact ⟨s, hreach, hlive, hinv.realloc_wraps ⟨.inr hmem, by decide⟩ hmem (by decide) (by decide)⟩
  · have hrun : ((memheapCallMachine smallMemheapConfig).run
        (fun s op => s.Exact smallMemheapConfig op) memheapStart [.alloc 20]).map
        (fun s => (s.live,
          (s.call smallMemheapConfig (.alloc (2 ^ 32 - 1))).map
            (fun s' => (s'.result, s'.capacity smallMemheapConfig s'.result)),
          isUsed s.memory (itemGet .next s.memory 1000))) =
        some ([⟨1024, 20⟩], some (1068, 12), false) := by
      decide +kernel
    obtain ⟨s, hreach, hvalue⟩ := Machine.exists_reachable_of_run memheapStart_initial hrun
    simp only [Prod.mk.injEq] at hvalue
    obtain ⟨hlive, halloc, hfree⟩ := hvalue
    refine ⟨s, hreach, hlive, not_right_of_capacity halloc (by decide) (by decide), ?_⟩
    obtain ⟨tiles, hinv, hneat⟩ := neat_of_callReachable hreach
    obtain ⟨frees, hlayout⟩ := hinv.layout
    have hmay : s.may (.realloc 1024 (2 ^ 32 - 4)) :=
      decide_eq_true ⟨.inr (by simp [hlive]), by decide⟩
    exact hinv.realloc_not_right hneat hlayout hmay fun hanswers =>
      hanswers.2 ⟨by decide, hfree⟩

end RtThread.Memheap
