import RtThread.Lib.ByteMemory

namespace RtThread.Kservice

open RtThread.Lib ByteMemory

/-! `rt_memset`, `rt_memcpy` and `rt_memmove` of `kservice.c`.  The ranges are objects in
memory: no address in them wraps. -/

/-- `sizeof(long)`, and whether `RT_USING_TINY_SIZE` is defined. -/
structure KserviceConfig where
  longSize : Nat
  tinySize : Bool
  longSize_eq : longSize = 4 ∨ longSize = 8

def unaligned (cfg : KserviceConfig) (x : Nat) : Nat := x &&& (cfg.longSize - 1)

def setBytes (d : UInt8) : Nat → Nat → ByteMemory → ByteMemory
  | 0, _, memory => memory
  | count + 1, m, memory => setBytes d count (m + 1) (Function.update memory m d)

/-- `*aligned_addr++ = buffer;`, so many times. -/
def setWords (long buffer : Nat) : Nat → Nat → ByteMemory → ByteMemory
  | 0, _, memory => memory
  | words + 1, addr, memory =>
    setWords long buffer words (addr + long) (memory.writeWord addr long buffer)

/-- `while (count >= LBLOCKSIZE * words)`; `count` rounds are enough. -/
def setLoop (long buffer words : Nat) : Nat → Nat → Nat → ByteMemory → Nat × Nat × ByteMemory
  | 0, addr, count, memory => (addr, count, memory)
  | fuel + 1, addr, count, memory =>
    if long * words ≤ count then
      setLoop long buffer words fuel (addr + long * words) (count - long * words)
        (setWords long buffer words addr memory)
    else (addr, count, memory)

def widePattern (d : Nat) : Nat → Nat → Nat
  | 0, buffer => buffer
  | rounds + 1, buffer => widePattern d rounds ((buffer <<< 8) ||| d)

def setPattern (cfg : KserviceConfig) (d : Nat) : Nat :=
  if cfg.longSize = 4 then
    let buffer := (d <<< 8) ||| d
    buffer ||| (buffer <<< 16)
  else widePattern d cfg.longSize 0

def rtMemset (cfg : KserviceConfig) (s : Nat) (c : BitVec 32) (count : Nat)
    (memory : ByteMemory) : Nat × ByteMemory :=
  if cfg.tinySize then (s, setBytes (UInt8.ofBitVec (c.setWidth 8)) count s memory)
  else
    -- to avoid sign extension
    let d := (c &&& 0xff#32).toNat
    let (m, count, memory) :=
      if cfg.longSize ≤ count ∧ unaligned cfg s = 0 then
        let buffer := setPattern cfg d
        let (addr, count, memory) := setLoop cfg.longSize buffer 4 count s count memory
        setLoop cfg.longSize buffer 1 count addr count memory
      else (s, count, memory)
    (s, setBytes (UInt8.ofNat d) count m memory)

def copyBytes : Nat → Nat → Nat → ByteMemory → ByteMemory
  | 0, _, _, memory => memory
  | len + 1, dst, src, memory =>
    copyBytes len (dst + 1) (src + 1) (Function.update memory dst (memory src))

/-- `while (n--) *(--tmp) = *(--s);`, with `tmp` and `s` at the ends. -/
def copyBytesDown : Nat → Nat → Nat → ByteMemory → ByteMemory
  | 0, _, _, memory => memory
  | n + 1, dst, src, memory =>
    copyBytesDown n dst src (Function.update memory (dst + n) (memory (src + n)))

def copyWords (long : Nat) : Nat → Nat → Nat → ByteMemory → ByteMemory
  | 0, _, _, memory => memory
  | words + 1, dst, src, memory =>
    copyWords long words (dst + long) (src + long)
      (memory.writeWord dst long (memory.readWord src long))

/-- `while (len >= LITTLEBLOCKSIZE * words)`; `len` rounds are enough. -/
def copyLoop (long words : Nat) : Nat → Nat → Nat → Nat → ByteMemory → Nat × Nat × Nat × ByteMemory
  | 0, dst, src, len, memory => (dst, src, len, memory)
  | fuel + 1, dst, src, len, memory =>
    if long * words ≤ len then
      copyLoop long words fuel (dst + long * words) (src + long * words) (len - long * words)
        (copyWords long words dst src memory)
    else (dst, src, len, memory)

def rtMemcpy (cfg : KserviceConfig) (dst src count : Nat) (memory : ByteMemory) :
    Nat × ByteMemory :=
  if cfg.tinySize then
    if dst ≤ src ∨ src + count < dst then (dst, copyBytes count dst src memory)
    else (dst, copyBytesDown count dst src memory)
  else
    let len := count % 2 ^ 32
    let (dstPtr, srcPtr, len, memory) :=
      if cfg.longSize <<< 2 ≤ len ∧ unaligned cfg src ||| unaligned cfg dst = 0 then
        let (dst, src, len, memory) := copyLoop cfg.longSize 4 len dst src len memory
        copyLoop cfg.longSize 1 len dst src len memory
      else (dst, src, len, memory)
    (dst, copyBytes len dstPtr srcPtr memory)

def rtMemmove (dest src n : Nat) (memory : ByteMemory) : Nat × ByteMemory :=
  if src < dest ∧ dest < src + n then (dest, copyBytesDown n dest src memory)
  else (dest, copyBytes n dest src memory)

variable {cfg : KserviceConfig} {memory : ByteMemory}

section Set

variable {long buffer : Nat} {byte : UInt8}

theorem setBytes_eq (count m : Nat) (memory : ByteMemory) :
    setBytes byte count m memory = memory.fill m count byte := by
  induction count generalizing m memory with
  | zero => simp [setBytes]
  | succ count ih =>
    rw [setBytes, ih, update_eq_fill, fill_fill, Nat.add_comm]

theorem setWords_eq (hbytes : leBytes long buffer = List.replicate long byte)
    (words addr : Nat) (memory : ByteMemory) :
    setWords long buffer words addr memory = memory.fill addr (long * words) byte := by
  induction words generalizing addr memory with
  | zero => simp [setWords]
  | succ words ih =>
    rw [setWords, ih, writeWord_eq_fill hbytes, fill_fill, Nat.mul_succ, Nat.add_comm]

theorem setLoop_eq (hbytes : leBytes long buffer = List.replicate long byte) {words : Nat}
    (fuel addr count : Nat) (memory : ByteMemory) :
    ∃ done rest, done + rest = count ∧ setLoop long buffer words fuel addr count memory =
      (addr + done, rest, memory.fill addr done byte) := by
  induction fuel generalizing addr count memory with
  | zero => exact ⟨0, count, Nat.zero_add _, by simp [setLoop]⟩
  | succ fuel ih =>
    rw [setLoop]
    split
    next hle =>
      obtain ⟨done, rest, hsum, hrun⟩ := ih (addr + long * words) (count - long * words)
        (setWords long buffer words addr memory)
      refine ⟨long * words + done, rest, by omega, ?_⟩
      rw [hrun, setWords_eq hbytes, fill_fill, Nat.add_assoc]
    · exact ⟨0, count, Nat.zero_add _, by simp⟩

theorem leBytes_setPattern (cfg : KserviceConfig) {d : Nat} (hd : d < 256) :
    leBytes cfg.longSize (setPattern cfg d) = List.replicate cfg.longSize (UInt8.ofNat d) := by
  have hall : ∀ d : Fin 256,
      leBytes 4 ((d.val <<< 8 ||| d.val) ||| (d.val <<< 8 ||| d.val) <<< 16) =
          List.replicate 4 (UInt8.ofNat d.val) ∧
        leBytes 8 (widePattern d.val 8 0) = List.replicate 8 (UInt8.ofNat d.val) := by
    decide +kernel
  rcases cfg.longSize_eq with hlong | hlong
  · rw [setPattern, if_pos hlong, hlong]
    exact (hall ⟨d, hd⟩).1
  · rw [setPattern, if_neg (by omega), hlong]
    exact (hall ⟨d, hd⟩).2

theorem low_byte (c : BitVec 32) : (c &&& 0xff#32).toNat < 256 ∧
    UInt8.ofNat (c &&& 0xff#32).toNat = UInt8.ofBitVec (c.setWidth 8) := by
  have hmod : (c &&& 0xff#32).toNat = c.toNat % 256 := by
    rw [BitVec.toNat_and]
    exact Nat.and_two_pow_sub_one_eq_mod c.toNat 8
  refine ⟨by omega, ?_⟩
  apply UInt8.toNat_inj.mp
  rw [UInt8.toNat_ofNat', hmod]
  simp

theorem rtMemset_eq (s : Nat) (c : BitVec 32) (count : Nat) (memory : ByteMemory) :
    rtMemset cfg s c count memory = (s, memory.fill s count (UInt8.ofBitVec (c.setWidth 8))) := by
  obtain ⟨hd, hbyte⟩ := low_byte c
  have hpattern := leBytes_setPattern cfg hd
  rw [rtMemset]
  split
  · rw [setBytes_eq]
  · dsimp only
    rw [← hbyte]
    split
    · obtain ⟨done, rest, hsum, hrun⟩ :=
        @setLoop_eq _ _ _ hpattern 4 count s count memory
      obtain ⟨done', rest', hsum', hrun'⟩ := @setLoop_eq _ _ _ hpattern 1 rest (s + done) rest
        (memory.fill s done (UInt8.ofNat (c &&& 0xff#32).toNat))
      rw [hrun]
      dsimp only
      rw [hrun']
      dsimp only
      rw [setBytes_eq, Nat.add_assoc, fill_fill, fill_fill]
      congr 2
      omega
    · rw [setBytes_eq]

end Set

section Copy

variable {long : Nat}

def Upwards (dst src count : Nat) : Prop := dst ≤ src ∨ src + count ≤ dst

theorem Upwards.advance {dst src count done : Nat} (hup : Upwards dst src count)
    (hdone : done ≤ count) : Upwards (dst + done) (src + done) (count - done) := by
  rw [Upwards] at hup ⊢
  omega

theorem Upwards.source {dst src count done : Nat} (hup : Upwards dst src count)
    (hdone : done ≤ count) (i : Nat) (hi : i < count - done) :
    memory.place memory dst src done (src + done + i) = memory (src + done + i) := by
  rw [Upwards] at hup
  exact place_outside (by omega)

theorem Upwards.place {dst src count done : Nat} (hup : Upwards dst src count)
    (hdone : done ≤ count) :
    (memory.place memory dst src done).place (memory.place memory dst src done) (dst + done)
      (src + done) (count - done) = memory.place memory dst src count := by
  rw [place_congr (hup.source hdone), place_place, Nat.add_sub_cancel' hdone]

theorem copyBytes_eq {count dst src : Nat} (hup : Upwards dst src count)
    (memory : ByteMemory) : copyBytes count dst src memory = memory.place memory dst src count := by
  induction count generalizing dst src memory with
  | zero => simp [copyBytes]
  | succ count ih =>
    have hnext : Upwards (dst + 1) (src + 1) count := hup.advance (by omega)
    rw [copyBytes, ih hnext, update_eq_place]
    exact hup.place (by omega)

theorem copyWords_eq {words count dst src : Nat} (hup : Upwards dst src count)
    (hle : long * words ≤ count) (memory : ByteMemory) :
    copyWords long words dst src memory = memory.place memory dst src (long * words) := by
  induction words generalizing count dst src memory with
  | zero => simp [copyWords]
  | succ words ih =>
    rw [Nat.mul_succ] at hle
    have hup' : Upwards dst src (long * (words + 1)) := by
      rw [Upwards, Nat.mul_succ] at *
      omega
    rw [copyWords, ih (hup.advance (by omega : long ≤ count)) (by omega), writeWord_eq_place]
    have hwhole := @Upwards.place memory _ _ _ long hup' (by rw [Nat.mul_succ]; omega)
    rwa [Nat.mul_succ, Nat.add_sub_cancel] at hwhole

theorem copyLoop_eq {words : Nat} (fuel : Nat) {dst src len : Nat} (hup : Upwards dst src len)
    (memory : ByteMemory) :
    ∃ done, done ≤ len ∧ copyLoop long words fuel dst src len memory =
      (dst + done, src + done, len - done, memory.place memory dst src done) := by
  induction fuel generalizing dst src len memory with
  | zero => exact ⟨0, Nat.zero_le _, by simp [copyLoop]⟩
  | succ fuel ih =>
    rw [copyLoop]
    split
    next hle =>
      obtain ⟨done, hdone, hrun⟩ := ih (hup.advance hle) (copyWords long words dst src memory)
      have hup' : Upwards dst src (long * words + done) := by
        rw [Upwards] at *
        omega
      refine ⟨long * words + done, by omega, ?_⟩
      rw [hrun, copyWords_eq hup hle]
      have hwhole := @Upwards.place memory _ _ _ (long * words) hup' (Nat.le_add_right ..)
      rw [Nat.add_sub_cancel_left] at hwhole
      rw [hwhole, Nat.add_assoc, Nat.add_assoc, Nat.sub_sub]
    · exact ⟨0, Nat.zero_le _, by simp⟩

theorem copyBytesDown_eq {n dst src : Nat} (hdown : src ≤ dst ∨ dst + n ≤ src)
    (memory : ByteMemory) :
    copyBytesDown n dst src memory = memory.place memory dst src n := by
  induction n generalizing memory with
  | zero => simp [copyBytesDown]
  | succ n ih =>
    rw [copyBytesDown, ih (by omega), update_eq_place]
    funext i
    simp only [place]
    split_ifs <;> first | rfl | omega | (congr 1; omega)

theorem rtMemcpy_eq {dst src count : Nat} (hcount : count < 2 ^ 31)
    (happart : dst + count ≤ src ∨ src + count ≤ dst) (memory : ByteMemory) :
    rtMemcpy cfg dst src count memory = (dst, memory.place memory dst src count) := by
  have hup : Upwards dst src count := by
    rw [Upwards]
    omega
  rw [rtMemcpy]
  split
  · split
    · rw [copyBytes_eq hup]
    · rw [copyBytesDown_eq (by omega)]
  · dsimp only
    rw [Nat.mod_eq_of_lt (by omega)]
    split
    · obtain ⟨done, hdone, hrun⟩ := @copyLoop_eq cfg.longSize 4 count _ _ _ hup memory
      obtain ⟨done', hdone', hrun'⟩ := @copyLoop_eq cfg.longSize 1 (count - done) _ _ _
        (hup.advance hdone) (memory.place memory dst src done)
      rw [hrun]
      dsimp only
      rw [hrun']
      dsimp only
      rw [copyBytes_eq ((hup.advance hdone).advance hdone'), (hup.advance hdone).place hdone',
        hup.place hdone]
    · rw [copyBytes_eq hup]

theorem rtMemmove_eq (dest src n : Nat) (memory : ByteMemory) :
    rtMemmove dest src n memory = (dest, memory.place memory dest src n) := by
  rw [rtMemmove]
  split
  next hdown => rw [copyBytesDown_eq (.inl (Nat.le_of_lt hdown.1))]
  next hup =>
    have hup : Upwards dest src n := by
      rw [Upwards]
      omega
    rw [copyBytes_eq hup]

end Copy

/-- The routines against byte-wise ones; `fill` and `place` leave all bytes outside the
destination alone. -/
theorem memoryRoutines_eq (cfg : KserviceConfig) (memory : ByteMemory) (dst src count : Nat)
    (c : BitVec 32) (hcount : count < 2 ^ 31) :
    rtMemset cfg dst c count memory = (dst, memory.fill dst count (UInt8.ofBitVec (c.setWidth 8))) ∧
      (dst + count ≤ src ∨ src + count ≤ dst →
        rtMemcpy cfg dst src count memory = (dst, memory.place memory dst src count)) ∧
      rtMemmove dst src count memory = (dst, memory.place memory dst src count) :=
  ⟨rtMemset_eq dst c count memory, fun happart => rtMemcpy_eq hcount happart memory,
    rtMemmove_eq dst src count memory⟩

theorem memoryRoutines_eq_apart : let memory : ByteMemory := fun i => UInt8.ofNat i
    rtMemset ⟨4, false, .inl rfl⟩ 64 (-2#32) 23 memory = (64, memory.fill 64 23 254) ∧
      rtMemcpy ⟨4, false, .inl rfl⟩ 64 8 23 memory = (64, memory.place memory 64 8 23) ∧
      rtMemmove 64 8 23 memory = (64, memory.place memory 64 8 23) := by
  intro memory
  obtain ⟨hset, hcopy, hmove⟩ :=
    memoryRoutines_eq ⟨4, false, .inl rfl⟩ memory 64 8 23 (-2#32) (by decide)
  exact ⟨hset, hcopy (.inr (by decide)), hmove⟩

end RtThread.Kservice
