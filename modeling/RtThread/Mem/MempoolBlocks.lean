import Mathlib.Data.List.Nodup
import RtThread.Mem.Mempool

namespace RtThread.Mem

open Function RtThread.Lib MpSystem

namespace Mempool

def blocks (mp : Mempool) : List Nat := (List.range mp.blockTotalCount).map mp.block

section Blocks

variable {mp : Mempool} {b c : Nat}

theorem stride_pos : 0 < mp.stride := Nat.succ_pos _

theorem block_injective : Injective mp.block := by
  intro i j heq
  have hmul : i * mp.stride = j * mp.stride := Nat.add_left_cancel heq
  exact Nat.eq_of_mul_eq_mul_right stride_pos hmul

theorem blocks_nodup : mp.blocks.Nodup := List.Nodup.map block_injective List.nodup_range

theorem mem_blocks : b ∈ mp.blocks ↔ ∃ i < mp.blockTotalCount, mp.block i = b := by
  simp [blocks]

theorem block_stride_le {i j : Nat} (hlt : i < j) : mp.block i + mp.stride ≤ mp.block j := by
  have hle : (i + 1) * mp.stride ≤ j * mp.stride := Nat.mul_le_mul_right _ hlt
  rw [Nat.succ_mul] at hle
  unfold block
  omega

theorem payload_apart (hb : b ∈ mp.blocks) (hc : c ∈ mp.blocks) (hne : b ≠ c) :
    b + 4 + mp.blockSize ≤ c + 4 ∨ c + 4 + mp.blockSize ≤ b + 4 := by
  obtain ⟨i, -, rfl⟩ := mem_blocks.mp hb
  obtain ⟨j, -, rfl⟩ := mem_blocks.mp hc
  rcases Nat.lt_trichotomy i j with hlt | heq | hlt
  · have hle := mp.block_stride_le hlt
    unfold stride at hle
    omega
  · exact absurd (congrArg mp.block heq) hne
  · have hle := mp.block_stride_le hlt
    unfold stride at hle
    omega

theorem payload_inside (hfits : mp.blockTotalCount * mp.stride ≤ mp.size) (hb : b ∈ mp.blocks) :
    mp.startAddress ≤ b ∧ b + 4 + mp.blockSize ≤ mp.startAddress + mp.size := by
  obtain ⟨i, hi, rfl⟩ := mem_blocks.mp hb
  have hle : (i + 1) * mp.stride ≤ mp.blockTotalCount * mp.stride := Nat.mul_le_mul_right _ hi
  rw [Nat.succ_mul] at hle
  unfold block
  unfold stride at *
  omega

end Blocks

section Init

variable {start stride : Nat} {memory : Nat → Option Nat}

theorem linkBlocks_block (hpos : 0 < stride) {n i : Nat} (hi : i < n) :
    linkBlocks start stride memory n (start + i * stride) = some (start + (i + 1) * stride) := by
  induction n with
  | zero => cases hi
  | succ n ih =>
    rw [linkBlocks]
    by_cases heq : i = n
    · subst heq
      rw [update_self]
    · have hne : start + i * stride ≠ start + n * stride := by
        intro h
        exact heq (Nat.eq_of_mul_eq_mul_right hpos (Nat.add_left_cancel h))
      rw [update_of_ne hne]
      exact ih (by omega)

theorem chain_linkBlocks (hpos : 0 < stride) (first count : Nat) :
    Chain (update (linkBlocks start stride memory (first + count + 1))
        (start + (first + count) * stride) none) (some (start + first * stride))
      ((List.range' first (count + 1)).map fun i => start + i * stride) := by
  induction count generalizing first with
  | zero =>
    refine ⟨rfl, ?_⟩
    rw [Nat.add_zero]
    exact update_self _ _ _
  | succ count ih =>
    refine ⟨rfl, ?_⟩
    have hne : start + first * stride ≠ start + (first + (count + 1)) * stride := by
      intro h
      have heq := Nat.eq_of_mul_eq_mul_right hpos (Nat.add_left_cancel h)
      omega
    rw [update_of_ne hne, linkBlocks_block hpos (by omega)]
    have hrest := ih (first + 1)
    rw [show first + 1 + count = first + (count + 1) by omega] at hrest
    exact hrest

end Init

end Mempool

namespace MpSystem

structure BlockInv (s : MpSystem) : Prop where
  fits : s.pool.blockTotalCount * s.pool.stride ≤ s.pool.size
  /-- Every block is free or in use. -/
  free : ∃ free, Chain s.pool.header s.pool.blockList free ∧
    s.pool.blockFreeCount = free.length ∧ (free ++ s.live).Perm s.pool.blocks
  owner : ∀ b ∈ s.live, s.pool.header b = some s.self

structure SameBlocks (s s' : MpSystem) : Prop where
  self : s'.self = s.self
  live : s'.live = s.live
  pool : s'.pool = { s.pool with
    suspendThread := s'.pool.suspendThread
    suspendThreadCount := s'.pool.suspendThreadCount }

/-- `rt_mp_free` does not take the list head for a thread, or it clears no word in front of a block
by that. -/
def Spared (s : MpSystem) : MpOp → Prop
  | .free block _ => 0 < s.pool.suspendThreadCount → s.pool.suspendThread = [] →
      s.listError ∈ s.pool.blocks → update s.pool.header block s.pool.blockList s.listError = none
  | _ => True

instance (s : MpSystem) : (op : MpOp) → Decidable (s.Spared op)
  | .free block _ => inferInstanceAs (Decidable (0 < s.pool.suspendThreadCount →
      s.pool.suspendThread = [] → s.listError ∈ s.pool.blocks →
        update s.pool.header block s.pool.blockList s.listError = none))
  | .alloc .. | .goOn _ | .expire _ | .delay _ | .tick => .isTrue trivial

section Blocks

variable {s s' : MpSystem} {caller : MpCaller} {time : Int} {t : Tid} {spared : Prop}

theorem BlockInv.of_same (hinv : s.BlockInv) (hsame : SameBlocks s s') : s'.BlockInv := by
  obtain ⟨hself, hlive, hpool⟩ := hsame
  obtain ⟨hfits, hfree, howner⟩ := hinv
  generalize s'.pool.suspendThread = waiting at hpool
  generalize s'.pool.suspendThreadCount = count at hpool
  constructor
  · rwa [hpool]
  · rwa [hpool, hlive]
  · rwa [hpool, hlive, hself]

theorem sameBlocks_ret (block : Option Nat) : SameBlocks s (s.ret caller block) := by
  cases caller <;> exact ⟨rfl, rfl, rfl⟩

theorem sameBlocks_setErrno (error : Int) : SameBlocks s (s.setErrno caller error) := by
  cases caller <;> exact ⟨rfl, rfl, rfl⟩

theorem nodup_of_perm {free : List Nat}
    (hperm : (free ++ s.live).Perm s.pool.blocks) : (free ++ s.live).Nodup :=
  hperm.nodup_iff.mpr Mempool.blocks_nodup

theorem BlockInv.take (hinv : s.BlockInv) (hexec : s.take caller = some s') : s'.BlockInv := by
  unfold MpSystem.take at hexec
  split at hexec
  · cases hexec
  next block hblock =>
    cases hexec
    refine BlockInv.of_same ?_ (sameBlocks_ret (some block))
    obtain ⟨free, hchain, hcount, hperm⟩ := hinv.free
    have hnodup := nodup_of_perm hperm
    rw [hblock] at hchain
    obtain ⟨rest, rfl, hrest⟩ := hchain.eq_cons
    rw [List.cons_append, List.nodup_cons, List.mem_append, not_or] at hnodup
    obtain ⟨⟨hfree, hlive⟩, hnodup⟩ := hnodup
    refine ⟨hinv.fits, ⟨rest, hrest.update hfree _, ?_, ?_⟩, fun b hb => ?_⟩
    · simp [hcount]
    · exact List.perm_middle.trans hperm
    · rcases List.mem_cons.mp hb with rfl | hb
      · exact update_self _ _ _
      · have hne : b ≠ block := fun h => hlive (h ▸ hb)
        exact (update_of_ne hne _ _).trans (hinv.owner b hb)

theorem sameBlocks_sleep (hexec : s.sleep t time = some s') : SameBlocks s s' := by
  unfold sleep at hexec
  split at hexec
  · cases hexec
  · cases hexec
    exact ⟨rfl, rfl, rfl⟩

theorem SameBlocks.trans {s'' : MpSystem} (hfirst : SameBlocks s s')
    (hsecond : SameBlocks s' s'') : SameBlocks s s'' :=
  ⟨hsecond.self.trans hfirst.self, hsecond.live.trans hfirst.live, by
    rw [hsecond.pool, hfirst.pool]⟩

theorem tryAlloc_cases (hexec : s.tryAlloc caller time = some s') :
    (s.take caller = some s') ∨
      (SameBlocks s s' ∧ ((s'.returned = s.returned) ∨
        (s'.returned = some (caller, none) ∧ s'.errno caller ≠ rtEok))) := by
  unfold tryAlloc at hexec
  split at hexec
  · split at hexec
    · cases hexec
      refine .inr ⟨(sameBlocks_setErrno _).trans (sameBlocks_ret _), .inr ⟨?_, ?_⟩⟩
      · cases caller <;> rfl
      · cases caller <;> simp [ret, setErrno, setThread, errno, rtEtimeout]
    · cases caller with
      | thread t =>
        refine .inr ⟨sameBlocks_sleep hexec, .inl ?_⟩
        simp only [sleep] at hexec
        split at hexec <;> cases hexec
        rfl
      | isr => cases hexec
  · exact .inl hexec

theorem take_returned (hexec : s.take caller = some s') :
    ∃ block, s'.returned = some (caller, some block) := by
  unfold MpSystem.take at hexec
  split at hexec
  · cases hexec
  next block _ =>
    cases hexec
    cases caller <;> exact ⟨block, rfl⟩

theorem BlockInv.clearHeader (hinv : s.BlockInv) {address : Nat}
    (hspared : address ∈ s.pool.blocks → s.pool.header address = none) :
    BlockInv { s with pool := { s.pool with header := update s.pool.header address none } } := by
  obtain ⟨free, hchain, hcount, hperm⟩ := hinv.free
  by_cases hblock : address ∈ s.pool.blocks
  · have hself : update s.pool.header address none = s.pool.header := by
      rw [← hspared hblock, update_eq_self]
    rw [hself]
    exact hinv
  · have hout : address ∉ free ++ s.live := fun h => hblock (hperm.mem_iff.mp h)
    rw [List.mem_append, not_or] at hout
    refine ⟨hinv.fits, ⟨free, hchain.update hout.1 none, hcount, hperm⟩, fun b hb => ?_⟩
    have hne : b ≠ address := fun h => hout.2 (h ▸ hb)
    exact (update_of_ne hne _ _).trans (hinv.owner b hb)

theorem BlockInv.free_inv (hinv : s.BlockInv) {block : Nat} {stray : ThreadStat}
    (hspared : s.Spared (.free block stray)) (hexec : s.free block stray = some s') :
    s'.BlockInv := by
  unfold MpSystem.free at hexec
  split at hexec
  next howned =>
    obtain ⟨free, hchain, hcount, hperm⟩ := hinv.free
    have hnodup := nodup_of_perm hperm
    have hlive := howned.1
    have hfree : block ∉ free := fun h => (List.nodup_append.mp hnodup).2.2 block h block hlive rfl
    have hlinked : ({ s with
        pool := { s.pool with
          blockFreeCount := s.pool.blockFreeCount + 1
          header := update s.pool.header block s.pool.blockList
          blockList := some block }
        live := s.live.erase block } : MpSystem).BlockInv := by
      refine ⟨hinv.fits, ⟨block :: free, hchain.push hfree, ?_, ?_⟩, fun b hb => ?_⟩
      · simp [hcount]
      · have herase := List.perm_cons_erase hlive
        exact (List.perm_middle.symm.trans (herase.symm.append_left free)).trans hperm
      · have hne : b ≠ block := by
          rintro rfl
          exact (List.nodup_append.mp hnodup).2.1.not_mem_erase hb
        exact (update_of_ne hne _ _).trans
          (hinv.owner b (List.mem_of_mem_erase hb))
    dsimp only at hexec
    split at hexec
    next hcounted =>
      split at hexec
      next thread rest _ =>
        cases hexec
        refine hlinked.of_same ?_
        unfold resume
        split <;> exact ⟨rfl, rfl, rfl⟩
      next hempty =>
        split at hexec
        · cases hexec
        · cases hexec
          refine (hlinked.clearHeader fun hblock => ?_).of_same ⟨rfl, rfl, rfl⟩
          exact hspared hcounted hempty hblock
    · cases hexec
      exact hlinked
  · cases hexec

/-- What a step returns from `rt_mp_alloc`, if it is RT_NULL. -/
structure NullOk (s s' : MpSystem) (caller : MpCaller) : Prop where
  errno : s'.errno caller ≠ rtEok
  same : SameBlocks s s'

structure AllocStep (spared : Prop) (s s' : MpSystem) : Prop where
  inv : spared → s.BlockInv → s'.BlockInv
  null : ∀ caller, s'.returned = some (caller, none) → NullOk s s' caller

theorem tryAlloc_step (hreturned : s.returned = none)
    (hexec : s.tryAlloc caller time = some s') : AllocStep spared s s' := by
  rcases tryAlloc_cases hexec with htake | ⟨hsame, hkept | ⟨hnull, herrno⟩⟩
  · obtain ⟨block, hblock⟩ := take_returned htake
    refine ⟨fun _ hinv => hinv.take htake, fun other hother => ?_⟩
    rw [hblock] at hother
    cases hother
  · refine ⟨fun _ hinv => hinv.of_same hsame, fun other hother => ?_⟩
    rw [hkept, hreturned] at hother
    cases hother
  · refine ⟨fun _ hinv => hinv.of_same hsame, fun other hother => ?_⟩
    rw [hnull] at hother
    cases hother
    exact ⟨herrno, hsame⟩

theorem goOn_step (hreturned : s.returned = none) (hexec : s.goOn t = some s') :
    AllocStep spared s s' := by
  unfold goOn at hexec
  split at hexec
  · cases hexec
  next call _ =>
    split at hexec
    · cases hexec
    · split at hexec
      next herror =>
        cases hexec
        have hsame : SameBlocks s (s.ret (.thread t) none) := sameBlocks_ret none
        refine ⟨fun _ hinv => hinv.of_same hsame, fun other hother => ?_⟩
        cases hother
        exact ⟨by simpa [errno, ret, setThread] using herror, hsame⟩
      · exact tryAlloc_step hreturned hexec

theorem AllocStep.of_silent (hinv : spared → s.BlockInv → s'.BlockInv) (hreturned : s'.returned = none) :
    AllocStep spared s s' :=
  ⟨hinv, fun caller hcaller => by
    rw [hreturned] at hcaller
    cases hcaller⟩

theorem free_returned {block : Nat} {stray : ThreadStat}
    (hexec : s.free block stray = some s') : s'.returned = s.returned := by
  unfold MpSystem.free at hexec
  split at hexec
  · dsimp only at hexec
    split at hexec
    · split at hexec
      · cases hexec
        unfold resume
        split <;> rfl
      · split at hexec <;> cases hexec
        rfl
    · cases hexec
      rfl
  · cases hexec

theorem exec_step {op : MpOp} (hexec : s.exec op = some s') :
    AllocStep (s.Spared op) { s with returned := none } s' := by
  cases op with
  | alloc caller time =>
    cases caller with
    | thread t =>
      simp only [exec] at hexec
      split at hexec
      · exact tryAlloc_step rfl hexec
      · cases hexec
    | isr => exact tryAlloc_step rfl hexec
  | goOn t => exact goOn_step rfl hexec
  | free block stray =>
    exact .of_silent (fun hspared hinv => hinv.free_inv hspared hexec) (free_returned hexec)
  | expire t =>
    simp only [exec, expire] at hexec
    split at hexec <;> cases hexec
    exact .of_silent (fun _ hinv => hinv.of_same ⟨rfl, rfl, rfl⟩) rfl
  | delay t =>
    simp only [exec, delay] at hexec
    split at hexec <;> cases hexec
    exact .of_silent (fun _ hinv => hinv.of_same ⟨rfl, rfl, rfl⟩) rfl
  | tick =>
    cases hexec
    exact .of_silent (fun _ hinv => hinv.of_same ⟨rfl, rfl, rfl⟩) rfl

theorem MpInitial.blockInv (hinit : MpInitial s) : s.BlockInv := by
  obtain ⟨start, size, blockSize, memory, hpool⟩ := hinit.pool
  have hsome := hinit.some
  have hlive := hinit.live
  generalize hmp : s.pool = mp at hpool hsome
  have hpos : 0 < (blockSize + 3) / 4 * 4 + 4 := Nat.succ_pos _
  have htotal : mp.blockTotalCount = size / 4 * 4 / ((blockSize + 3) / 4 * 4 + 4) := by
    rw [hpool]
    rfl
  obtain ⟨count, hcount⟩ : ∃ count, mp.blockTotalCount = count + 1 :=
    ⟨mp.blockTotalCount - 1, by omega⟩
  refine ⟨?_, ⟨mp.blocks, ?_, ?_, ?_⟩, by simp [hlive]⟩
  · rw [hmp, htotal, hpool]
    exact Nat.div_mul_le_self _ _
  · have hchain := @Mempool.chain_linkBlocks start _ memory hpos 0 count
    rw [hmp, Mempool.blocks, hcount, List.range_eq_range']
    have hblock : mp.block = fun i => start + i * ((blockSize + 3) / 4 * 4 + 4) := by
      rw [hpool]
      rfl
    have hheader : mp.header = update (Mempool.linkBlocks start
        ((blockSize + 3) / 4 * 4 + 4) memory (0 + count + 1))
          (start + (0 + count) * ((blockSize + 3) / 4 * 4 + 4)) none := by
      rw [Nat.zero_add, ← hcount, show count = mp.blockTotalCount - 1 by omega, htotal, hpool]
      rfl
    have hlist : mp.blockList = some (start + 0 * ((blockSize + 3) / 4 * 4 + 4)) := by
      rw [hpool, Nat.zero_mul]
      rfl
    rw [hblock, hheader, hlist]
    exact hchain
  · rw [hmp, Mempool.blocks, List.length_map, List.length_range, hpool]
    rfl
  · rw [hmp, hlive, List.append_nil]

end Blocks

structure MempoolOk (s : MpSystem) : Prop where
  partitioned : ∃ free, Chain s.pool.header s.pool.blockList free ∧
    s.pool.blockFreeCount = free.length ∧ (free ++ s.live).Perm s.pool.blocks
  owner : ∀ b ∈ s.live, s.pool.header b = some s.self
  inside : ∀ b ∈ s.live, s.pool.startAddress ≤ b ∧
    b + 4 + s.pool.blockSize ≤ s.pool.startAddress + s.pool.size
  apart : ∀ b ∈ s.live, ∀ c ∈ s.live, b ≠ c →
    b + 4 + s.pool.blockSize ≤ c + 4 ∨ c + 4 + s.pool.blockSize ≤ b + 4
  once : s.live.Nodup

theorem BlockInv.mempoolOk {s : MpSystem} (hinv : s.BlockInv) : s.MempoolOk := by
  obtain ⟨free, hchain, hcount, hperm⟩ := hinv.free
  have hmem : ∀ b ∈ s.live, b ∈ s.pool.blocks := fun b hb =>
    hperm.mem_iff.mp (List.mem_append_right _ hb)
  exact ⟨hinv.free, hinv.owner, fun b hb => Mempool.payload_inside hinv.fits (hmem b hb),
    fun b hb c hc hne => Mempool.payload_apart (hmem b hb) (hmem c hc) hne,
    (List.nodup_append.mp (nodup_of_perm hperm)).2.1⟩

/-- No block is lost or handed out twice, whoever waits and gives up; and a step that returns
RT_NULL from `rt_mp_alloc` has set the error and taken no block. -/
theorem reachable_mempoolOk {s : MpSystem} (hreach : mpMachine.Reachable (fun s op => s.Spared op) s) :
    s.MempoolOk ∧ ∀ op s' caller, mpMachine.exec s op = some s' →
      s'.returned = some (caller, none) → NullOk s s' caller := by
  have hinv := hreach.invariant BlockInv (fun s hinit => MpInitial.blockInv hinit)
    (fun s op s' hinv hspared hexec => (exec_step hexec).inv hspared
      (hinv.of_same ⟨rfl, rfl, rfl⟩))
  refine ⟨hinv.mempoolOk, fun op s' caller hexec hnull => ?_⟩
  have hcleared : SameBlocks s { s with returned := none } := ⟨rfl, rfl, rfl⟩
  obtain ⟨herrno, hsame⟩ := (exec_step hexec).null caller hnull
  exact ⟨herrno, hcleared.trans hsame⟩

/-- Two blocks at 8192 and 8200, and a pool object that lies at `self` -/
def twoBlocks (self : Nat) : MpSystem where
  self := self
  listError := self + 72
  pool := Mempool.rtMpInit 8192 16 4 fun _ => none
  thread := fun _ => { stat := .ready, error := rtEok, timerActive := false, call := none }
  irqErrno := rtEok
  tick := 0
  live := []
  returned := none

theorem twoBlocks_initial (self : Nat) : MpInitial (twoBlocks self) :=
  ⟨⟨8192, 16, 4, _, rfl⟩, (by decide : 0 < (Mempool.rtMpInit 8192 16 4 _).blockTotalCount), rfl,
    fun _ => ⟨rfl, rfl⟩, rfl⟩

/-- Two threads hold the blocks, a third one waits, gives up and then finds one. -/
theorem reachable_mempoolOk_twoBlocks :
    ∃ s, mpMachine.Reachable (fun s op => s.Spared op) s ∧ s.live = [8192, 8200] ∧ s.MempoolOk := by
  have hrun : (mpMachine.run (fun s op => s.Spared op) (twoBlocks 4096)
      [.alloc (.thread 1) 0, .alloc (.thread 2) 0, .alloc (.thread 3) 10, .expire 3, .goOn 3,
        .free 8200 .init, .free 8192 .init, .alloc .isr 0, .alloc (.thread 3) 5, .free 8192 .init,
        .alloc .isr 0]).map (fun s => s.live) = some [8192, 8200] := by decide +kernel
  obtain ⟨s, hreach, hvalue⟩ := Machine.exists_reachable_of_run (twoBlocks_initial 4096) hrun
  exact ⟨s, hreach, hvalue, (reachable_mempoolOk hreach).1⟩

/-- The object of `rt_mp_create` lies right before its blocks.  A thread has waited too long when the
second block is freed, and the first one, which is in use, no longer names its pool. -/
theorem mempoolOk_fails_after_timeout :
    ∃ s, mpMachine.Reachable (fun _ _ => True) s ∧ ¬ s.MempoolOk := by
  have hrun : (mpMachine.run (fun _ _ => True) (twoBlocks 8120)
      [.alloc (.thread 1) 0, .alloc (.thread 2) 0, .alloc (.thread 3) 10, .expire 3, .goOn 3,
        .free 8200 .init]).map (fun s => (s.live, s.pool.header 8192)) = some ([8192], none) := by
    decide +kernel
  obtain ⟨s, hreach, hvalue⟩ := Machine.exists_reachable_of_run (twoBlocks_initial 8120) hrun
  obtain ⟨hlive, hheader⟩ := Prod.mk.inj hvalue
  refine ⟨s, hreach, fun hok => ?_⟩
  have howner := hok.owner 8192 (by simp [hlive])
  rw [hheader] at howner
  cases howner

end MpSystem

end RtThread.Mem
