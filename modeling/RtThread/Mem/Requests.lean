import RtThread.Mem.HeapInvariant

namespace RtThread.Mem

open RtThread.Lib HeapSystem

/-! Clients that ask for any size of 32 bits. -/

inductive HeapCall
  | malloc (self : List UInt8) (size : Nat)
  | calloc (self : List UInt8) (count size : Nat)
  | realloc (self : List UInt8) (rmem newsize : Nat)
  | free (rmem : Nat)
  | store (rmem index : Nat) (byte : UInt8)
  deriving DecidableEq

/-- The client takes what it has got for a block of `size` bytes. -/
def HeapSystem.receive (live : List Live) (size : Nat) (answer : Nat × SmallMem) : HeapSystem where
  toSmallMem := answer.2
  live := if answer.1 = 0 then live else ⟨answer.1, size⟩ :: live
  result := answer.1

def HeapSystem.call (cfg : MemConfig) (s : HeapSystem) : HeapCall → Option HeapSystem
  | .malloc self size =>
    if size < 2 ^ 32 then
      (rtMalloc cfg self size s.toSmallMem).map (HeapSystem.receive s.live size)
    else none
  | .calloc self count size =>
    if count < 2 ^ 32 ∧ size < 2 ^ 32 then
      (rtCalloc cfg self count size s.toSmallMem).map
        (HeapSystem.receive s.live (count * size))
    else none
  | .realloc self rmem newsize =>
    if (rmem = 0 ∨ rmem ∈ s.live.map Live.ptr) ∧ newsize < 2 ^ 32 then
      (rtRealloc cfg self rmem newsize s.toSmallMem).map fun (p, mem) =>
        { toSmallMem := mem
          live :=
            if newsize = 0 then dropLive rmem s.live
            else if p = 0 then s.live
            else ⟨p, newsize⟩ :: dropLive rmem s.live
          result := p }
    else none
  | .free rmem => s.exec cfg (.free rmem)
  | .store rmem index byte => s.exec cfg (.store rmem index byte)

def callMachine (cfg : MemConfig) : Machine HeapSystem HeapCall where
  init := HeapSystem.Initial cfg
  exec := HeapSystem.call cfg

def MemConfig.Rounds (cfg : MemConfig) (size : Nat) : Prop := size + cfg.alignSize ≤ 2 ^ 32

instance {cfg : MemConfig} {size : Nat} : Decidable (cfg.Rounds size) :=
  inferInstanceAs (Decidable (_ ≤ _))

def HeapCall.requested : HeapCall → Nat
  | .malloc _ size => size
  | .calloc _ count size => count * size
  | .realloc _ _ newsize => newsize
  | .free _ => 0
  | .store _ _ _ => 0

variable {cfg : MemConfig} {s s' : HeapSystem} {tiles tiles' : List Tile}

theorem MemConfig.Rounds.le {size : Nat} (hrounds : cfg.Rounds size) :
    size ≤ rtAlign size cfg.alignSize := le_rtAlign cfg.alignBits_le_word hrounds

theorem rtMalloc_over {mem : SmallMem} {size : Nat}
    (hover : mem.memSizeAligned < rtAlign size cfg.alignSize) (self : List UInt8) :
    rtMalloc cfg self size mem = some (0, mem) := by
  rw [rtMalloc]
  split
  · rfl
  · exact if_pos hover

theorem rtRealloc_over {mem : SmallMem} {newsize : Nat}
    (hover : mem.memSizeAligned < rtAlign newsize cfg.alignSize) (self : List UInt8)
    (rmem : Nat) : rtRealloc cfg self rmem newsize mem = some (0, mem) := by
  rw [rtRealloc]
  exact if_pos hover

theorem exec_malloc {self : List UInt8} {size : Nat} (hsize : size ≤ s.memSizeAligned) :
    s.exec cfg (.malloc self size) =
      (rtMalloc cfg self size s.toSmallMem).map (receive s.live size) := by
  simp only [exec, enabled, hsize, decide_true, if_true]
  rfl

theorem call_malloc {self : List UInt8} {size : Nat} (hrounds : cfg.Rounds size)
    (hcall : (rtMalloc cfg self size s.toSmallMem).map (receive s.live size) =
      some s') : s' = { s with result := 0 } ∨ s.exec cfg (.malloc self size) = some s' := by
  by_cases hsize : size ≤ s.memSizeAligned
  · exact .inr ((exec_malloc hsize).trans hcall)
  · have hle := hrounds.le
    rw [rtMalloc_over (by omega)] at hcall
    exact .inl (Option.some.inj hcall).symm

theorem call_realloc {self : List UInt8} {rmem newsize : Nat} (hrounds : cfg.Rounds newsize)
    (hcall : s.call cfg (.realloc self rmem newsize) = some s') :
    s' = { s with result := 0 } ∨ s.exec cfg (.realloc self rmem newsize) = some s' := by
  simp only [call] at hcall
  split at hcall
  next henabled =>
    by_cases hsize : newsize ≤ s.memSizeAligned
    · refine .inr ?_
      have hmay : s.enabled (.realloc self rmem newsize) = true :=
        decide_eq_true ⟨henabled.1, hsize⟩
      rw [exec, if_pos hmay]
      exact hcall
    · have hle := hrounds.le
      rw [rtRealloc_over (by omega), Option.map_some, if_neg (by omega), if_pos rfl] at hcall
      exact .inl (Option.some.inj hcall).symm
  · cases hcall

theorem call_calloc {self : List UInt8} {count size : Nat} (hrounds : cfg.Rounds (count * size))
    (hcall : s.call cfg (.calloc self count size) = some s') :
    ∃ s1, (rtMalloc cfg self (count * size) s.toSmallMem).map
        (receive s.live (count * size)) = some s1 ∧
      (s1.result = 0 ∧ s' = s1 ∨
        s1.result ≠ 0 ∧ s' = { s1 with
          heap := s1.heap.writeBytes (s1.result - s1.heapPtr)
            (List.replicate (count * size) 0) }) := by
  have hpos : 0 < cfg.alignSize := Nat.two_pow_pos _
  have htotal : count * size % 2 ^ 32 = count * size := by
    apply Nat.mod_eq_of_lt
    rw [MemConfig.Rounds] at hrounds
    omega
  simp only [call] at hcall
  split at hcall
  · simp only [rtCalloc, htotal, Option.bind_eq_bind] at hcall
    cases hmalloc : rtMalloc cfg self (count * size) s.toSmallMem with
    | none =>
      rw [hmalloc] at hcall
      cases hcall
    | some answer =>
      obtain ⟨p, mem⟩ := answer
      rw [hmalloc, Option.bind_some] at hcall
      refine ⟨_, rfl, ?_⟩
      split at hcall
      next hp =>
        refine .inr ⟨hp, ?_⟩
        exact (Option.some.inj hcall).symm
      next hp =>
        refine .inl ⟨Classical.not_not.mp hp, ?_⟩
        exact (Option.some.inj hcall).symm
  · cases hcall

theorem call_cases {call : HeapCall} (hrounds : cfg.Rounds call.requested)
    (hcall : s.call cfg call = some s') :
    s' = { s with result := 0 } ∨
      (∃ op, s.exec cfg op = some s' ∧
        ∀ self rmem newsize, op = .realloc self rmem newsize →
          call = .realloc self rmem newsize) ∨
      ∃ self size s1, s.exec cfg (.malloc self size) = some s1 ∧
        ∃ y ∈ s1.live, ∃ bytes : List UInt8, bytes.length ≤ y.size ∧
          s' = { s1 with heap := s1.heap.writeBytes (y.ptr - s1.heapPtr) bytes } := by
  cases call with
  | malloc self size =>
    simp only [call] at hcall
    split at hcall
    · rcases call_malloc hrounds hcall with hnull | hexec
      · exact .inl hnull
      · exact .inr (.inl ⟨_, hexec, fun _ _ _ hop => by cases hop⟩)
    · cases hcall
  | calloc self count size =>
    obtain ⟨s1, hmalloc, hcases⟩ := call_calloc hrounds hcall
    rcases call_malloc hrounds hmalloc with hnull | hexec
    · rcases hcases with ⟨-, rfl⟩ | ⟨hresult, -⟩
      · exact .inl hnull
      · rw [hnull] at hresult
        exact absurd rfl hresult
    · rcases hcases with ⟨-, rfl⟩ | ⟨hresult, rfl⟩
      · exact .inr (.inl ⟨_, hexec, fun _ _ _ hop => by cases hop⟩)
      · refine .inr (.inr ⟨self, count * size, s1, hexec, ⟨s1.result, count * size⟩, ?_, _, ?_,
          rfl⟩)
        · obtain ⟨answer, -, rfl⟩ := Option.map_eq_some_iff.mp hmalloc
          simp only [receive] at hresult ⊢
          rw [if_neg hresult]
          exact List.mem_cons_self
        · rw [List.length_replicate]
  | realloc self rmem newsize =>
    rcases call_realloc hrounds hcall with hnull | hexec
    · exact .inl hnull
    · refine .inr (.inl ⟨_, hexec, fun _ _ _ hop => ?_⟩)
      cases hop
      rfl
  | free rmem => exact .inr (.inl ⟨_, hcall, fun _ _ _ hop => by cases hop⟩)
  | store rmem index byte => exact .inr (.inl ⟨_, hcall, fun _ _ _ hop => by cases hop⟩)

theorem HeapSystem.Inv.overwrite (hinv : s.Inv cfg tiles) {y : Live} (hy : y ∈ s.live)
    {bytes : List UInt8} (hroom : bytes.length ≤ y.size) :
    Inv cfg
      { s with heap := s.heap.writeBytes (y.ptr - s.heapPtr) bytes } tiles :=
  (@Inv.write _ _ _ hinv _ hy 0 bytes (by omega) s.result).1

theorem HeapSystem.Inv.call (hinv : s.Inv cfg tiles) {call : HeapCall}
    (hrounds : cfg.Rounds call.requested) (hcall : s.call cfg call = some s') :
    ∃ tiles', s'.Inv cfg tiles' := by
  rcases call_cases hrounds hcall with rfl | ⟨op, hexec, -⟩ |
    ⟨self, size, s1, hexec, y, hy, bytes, hroom, rfl⟩
  · exact ⟨tiles, hinv.null⟩
  · exact (hinv.step hexec).1
  · obtain ⟨tiles1, hinv1⟩ := (hinv.step hexec).1
    exact ⟨tiles1, hinv1.overwrite hy hroom⟩

theorem inv_of_reachable {allowed : HeapSystem → HeapCall → Prop}
    (hrounds : ∀ s call, allowed s call → cfg.Rounds call.requested)
    (hreach : (callMachine cfg).Reachable allowed s) : ∃ tiles, s.Inv cfg tiles := by
  refine hreach.invariant (fun s => ∃ tiles, s.Inv cfg tiles)
    (fun s hinit => Initial.inv hinit) (fun s call s' hinv hallowed hcall => ?_)
  obtain ⟨tiles, hinv⟩ := hinv
  exact hinv.call (hrounds s call hallowed) hcall

theorem Layout.unique {mem : SmallMem} (hlayout : Layout cfg mem tiles)
    (hlayout' : Layout cfg mem tiles') : tiles = tiles' := by
  have hread : ∀ {tiles : List Tile}, Layout cfg mem tiles → ∀ t ∈ tiles,
      nextOf mem.heap t.start = t.stop ∧ decide (usedOf mem.heap t.start = 1) = t.used := by
    intro tiles hlayout t ht
    refine ⟨hlayout.nextOf_mem ht, ?_⟩
    obtain ⟨pre, post, rfl⟩ := List.append_of_mem ht
    rw [hlayout.image.usedOf_eq]
    cases t.used <;> rfl
  exact hlayout.image.tiling.unique hlayout'.image.tiling
    (Nat.lt_of_lt_of_le (by decide) cfg.twelve_le) (nextOf mem.heap)
    (fun p => decide (usedOf mem.heap p = 1)) (hread hlayout) (hread hlayout')

/-- `lfree` is not behind an unused block. -/
def HeapSystem.Lowest (cfg : MemConfig) (s : HeapSystem) : Prop :=
  ∃ tiles, s.Inv cfg tiles ∧ UnusedFrom s.lfree tiles

section Keeps

variable {mem mem' : SmallMem} {self : List UInt8} {size rmem newsize p : Nat}

theorem rtMalloc_keeps (hlayout : Layout cfg mem tiles) (hsize : size ≤ mem.memSizeAligned)
    (hcall : rtMalloc cfg self size mem = some (p, mem')) :
    mem'.memSizeAligned = mem.memSizeAligned ∧
      (p ≠ 0 → cfg.minSizeAligned ≤ mem.memSizeAligned) ∧
      (UnusedFrom mem.lfree tiles →
        ∃ tiles', Layout cfg mem' tiles' ∧ UnusedFrom mem'.lfree tiles') := by
  rcases rtMalloc_spec hlayout hsize self with ⟨hnone, -⟩ | hnull |
    ⟨mem1, tiles1, tile, hmalloc, houtcome, -, -, -, hmin, hkeeps⟩
  · rw [hnone] at hcall
    cases hcall
  · rw [hnull] at hcall
    cases hcall
    exact ⟨rfl, fun hp => absurd rfl hp, fun hfrom => ⟨tiles, hlayout, hfrom⟩⟩
  · rw [hmalloc] at hcall
    cases hcall
    exact ⟨houtcome.memSizeAligned, fun _ => hmin,
      fun hfrom => ⟨tiles1, houtcome.layout, hkeeps hfrom⟩⟩

theorem HeapSystem.Inv.rtFree_keeps (hinv : s.Inv cfg tiles)
    (hptr : rmem = 0 ∨ rmem ∈ s.live.map Live.ptr)
    (hcall : rtFree cfg rmem s.toSmallMem = some mem') :
    mem'.memSizeAligned = s.memSizeAligned ∧ (UnusedFrom s.lfree tiles →
      ∃ tiles', Layout cfg mem' tiles' ∧ UnusedFrom mem'.lfree tiles') := by
  rcases hptr with rfl | hmem
  · rw [rtFree, if_pos rfl] at hcall
    cases hcall
    exact ⟨rfl, fun hfrom => ⟨tiles, hinv.layout, hfrom⟩⟩
  · obtain ⟨x, hx, rfl, hpos⟩ := hinv.exists_tile hmem
    obtain ⟨mem1, tiles1, hfree, houtcome, -, hkeeps⟩ := rtFree_spec hinv.layout hx hpos
    rw [hfree] at hcall
    cases hcall
    exact ⟨houtcome.memSizeAligned, fun hfrom => ⟨tiles1, houtcome.layout, hkeeps hfrom⟩⟩

theorem HeapSystem.Inv.rtRealloc_keeps (hinv : s.Inv cfg tiles)
    (hptr : rmem = 0 ∨ rmem ∈ s.live.map Live.ptr) (hsize : newsize ≤ s.memSizeAligned)
    (hcall : rtRealloc cfg self rmem newsize s.toSmallMem = some (p, mem')) :
    mem'.memSizeAligned = s.memSizeAligned ∧
      ((s.live ≠ [] → cfg.minSizeAligned ≤ s.memSizeAligned) →
        p ≠ 0 → cfg.minSizeAligned ≤ s.memSizeAligned) ∧
      (UnusedFrom s.lfree tiles → ¬ s.ShrinksBefore cfg rmem newsize →
        ∃ tiles', Layout cfg mem' tiles' ∧ UnusedFrom mem'.lfree tiles') := by
  by_cases hzero : newsize = 0
  · rw [hzero, rtRealloc_zero, Option.map_eq_some_iff] at hcall
    obtain ⟨mem1, hfree, heq⟩ := hcall
    cases heq
    obtain ⟨hsame, hkeeps⟩ := hinv.rtFree_keeps hptr hfree
    exact ⟨hsame, fun _ hp => absurd rfl hp, fun hfrom _ => hkeeps hfrom⟩
  rcases hptr with rfl | hmem
  · obtain ⟨hmalloc, -, hupper⟩ := rtRealloc_null hinv.layout hzero hsize self
    rw [hmalloc] at hcall
    obtain ⟨hsame, hmin, hkeeps⟩ := rtMalloc_keeps hinv.layout hupper hcall
    exact ⟨hsame, fun _ => hmin, fun hfrom _ => hkeeps hfrom⟩
  · have hne : s.live ≠ [] := List.ne_nil_of_mem (List.mem_map.mp hmem).choose_spec.1
    obtain ⟨x, hx, rfl, hpos⟩ := hinv.exists_tile hmem
    rcases rtRealloc_spec hinv.layout hx hpos hzero hsize self with ⟨hnone, -⟩ | hnull |
      ⟨mem1, tiles1, tile, hrealloc, hresized, hkeeps⟩
    · rw [hnone] at hcall
      cases hcall
    · rw [hnull] at hcall
      cases hcall
      exact ⟨rfl, fun hmin _ => hmin hne, fun hfrom _ => ⟨tiles, hinv.layout, hfrom⟩⟩
    · rw [hrealloc] at hcall
      cases hcall
      exact ⟨hresized.outcome.memSizeAligned, fun hmin _ => hmin hne,
        fun hfrom hshrinks => ⟨tiles1, hresized.outcome.layout, hkeeps hfrom hshrinks⟩⟩

end Keeps

theorem HeapSystem.Lowest.step (hlowest : s.Lowest cfg) {op : HeapOp}
    (hexec : s.exec cfg op = some s')
    (hshrinks : ∀ self rmem newsize, op = .realloc self rmem newsize →
      ¬ s.ShrinksBefore cfg rmem newsize) : s'.Lowest cfg := by
  obtain ⟨tiles, hinv, hfrom⟩ := hlowest
  obtain ⟨⟨tiles', hinv'⟩, -⟩ := hinv.step hexec
  suffices hlayout : ∃ other, Layout cfg s'.toSmallMem other ∧ UnusedFrom s'.lfree other by
    obtain ⟨other, hlayout, hfrom'⟩ := hlayout
    rw [← hinv'.layout.unique hlayout] at hfrom'
    exact ⟨tiles', hinv', hfrom'⟩
  simp only [exec] at hexec
  split at hexec
  rotate_left
  · cases hexec
  rename_i henabled
  cases op with
  | malloc self size =>
    obtain ⟨⟨p, mem⟩, hmalloc, rfl⟩ := Option.map_eq_some_iff.mp hexec
    exact (rtMalloc_keeps hinv.layout (of_decide_eq_true henabled) hmalloc).2.2 hfrom
  | realloc self rmem newsize =>
    obtain ⟨hptr, hsize⟩ := of_decide_eq_true henabled
    obtain ⟨⟨p, mem⟩, hrealloc, rfl⟩ := Option.map_eq_some_iff.mp hexec
    exact (hinv.rtRealloc_keeps hptr hsize hrealloc).2.2 hfrom (hshrinks _ _ _ rfl)
  | free rmem =>
    obtain ⟨mem, hfree, rfl⟩ := Option.map_eq_some_iff.mp hexec
    exact (hinv.rtFree_keeps (of_decide_eq_true henabled) hfree).2 hfrom
  | store rmem index byte =>
    obtain ⟨y, hy, rfl, hindex⟩ := of_decide_eq_true henabled
    cases hexec
    exact ⟨tiles, (@Inv.write _ _ _ hinv _ hy index [byte] hindex 0).1.layout, hfrom⟩

/-- The call is a `rt_realloc` that leaves an unused block before `lfree`. -/
def HeapSystem.Shrinks (cfg : MemConfig) (s : HeapSystem) : HeapCall → Prop
  | .realloc _ rmem newsize => s.ShrinksBefore cfg rmem newsize
  | _ => False

instance {s : HeapSystem} (call : HeapCall) : Decidable (s.Shrinks cfg call) :=
  match call with
  | .realloc _ rmem newsize => inferInstanceAs (Decidable (s.ShrinksBefore cfg rmem newsize))
  | .malloc .. | .calloc .. | .free _ | .store .. => inferInstanceAs (Decidable False)

theorem HeapSystem.Lowest.call (hlowest : s.Lowest cfg) {call : HeapCall}
    (hrounds : cfg.Rounds call.requested) (hshrinks : ¬ s.Shrinks cfg call)
    (hcall : s.call cfg call = some s') : s'.Lowest cfg := by
  rcases call_cases hrounds hcall with rfl | ⟨op, hexec, hop⟩ |
    ⟨self, size, s1, hexec, y, hy, bytes, hroom, rfl⟩
  · obtain ⟨tiles, hinv, hfrom⟩ := hlowest
    exact ⟨tiles, hinv.null, hfrom⟩
  · refine hlowest.step hexec fun self rmem newsize heq => ?_
    rw [hop self rmem newsize heq] at hshrinks
    exact hshrinks
  · obtain ⟨tiles1, hinv1, hfrom1⟩ := hlowest.step hexec fun _ _ _ heq => by cases heq
    exact ⟨tiles1, hinv1.overwrite hy hroom, hfrom1⟩

end RtThread.Mem
