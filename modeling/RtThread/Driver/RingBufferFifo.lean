import RtThread.Driver.RingBuffer

namespace RtThread.Driver

open RtThread.Lib

namespace RingBuffer

structure Valid (rb : RingBuffer) : Prop where
  bufferSize_pos : 0 < rb.bufferSize
  bufferSize_lt : rb.bufferSize < 32768
  readIndex_lt : rb.readIndex < rb.bufferSize
  writeIndex_lt : rb.writeIndex < rb.bufferSize
  order : if rb.readMirror = rb.writeMirror then rb.readIndex ≤ rb.writeIndex
    else rb.writeIndex ≤ rb.readIndex

def position (rb : RingBuffer) (mirror : Bool) (index : Nat) : Nat :=
  if mirror then rb.bufferSize + index else index

def span (rb : RingBuffer) : Nat :=
  (rb.position rb.writeMirror rb.writeIndex + 2 * rb.bufferSize -
    rb.position rb.readMirror rb.readIndex) % (2 * rb.bufferSize)

def content (rb : RingBuffer) : List Byte :=
  ringContents rb.bufferPtr rb.bufferSize rb.readIndex rb.span

def Advances (size n : Nat) (mirror : Bool) (index : Nat) (mirror' : Bool) (index' : Nat) : Prop :=
  (index + n < size ∧ mirror' = mirror ∧ index' = index + n) ∨
    (size ≤ index + n ∧ mirror' = !mirror ∧ index' = index + n - size)

section Valid

variable {rb : RingBuffer} {n : Nat}

section

variable (hvalid : rb.Valid)
include hvalid

theorem Valid.dataLen_eq : rb.rtRingbufferDataLen =
      if rb.readMirror = rb.writeMirror then rb.writeIndex - rb.readIndex
      else rb.bufferSize - (rb.readIndex - rb.writeIndex) := by
  have horder := hvalid.order
  unfold rtRingbufferDataLen rtRingbufferStatus
  by_cases hindex : rb.readIndex = rb.writeIndex
  · by_cases hmirror : rb.readMirror = rb.writeMirror
    · simp [hindex, hmirror]
    · simp [hindex, hmirror]
  · by_cases hmirror : rb.readMirror = rb.writeMirror
    · simp only [hindex, if_false]
      rw [if_pos hmirror] at horder ⊢
      exact if_pos (by omega)
    · simp only [hindex, if_false]
      rw [if_neg hmirror] at horder ⊢
      exact if_neg (by omega)

theorem Valid.dataLen_le : rb.rtRingbufferDataLen ≤ rb.bufferSize := by
  have hwrite := hvalid.writeIndex_lt
  rw [hvalid.dataLen_eq]
  split <;> omega

theorem Valid.span_eq : rb.span = rb.rtRingbufferDataLen := by
  rw [hvalid.dataLen_eq]
  obtain ⟨hpos, -, hread, hwrite, horder⟩ := hvalid
  unfold span position
  cases hr : rb.readMirror <;> cases hw : rb.writeMirror <;>
    simp only [hr, hw, if_true, if_false, Bool.false_eq_true, reduceCtorEq] at horder ⊢
  · rw [show rb.writeIndex + 2 * rb.bufferSize - rb.readIndex =
      (rb.writeIndex - rb.readIndex) + 2 * rb.bufferSize by omega, Nat.add_mod_right,
      Nat.mod_eq_of_lt (by omega)]
  · rw [show rb.bufferSize + rb.writeIndex + 2 * rb.bufferSize - rb.readIndex =
      (rb.bufferSize - (rb.readIndex - rb.writeIndex)) + 2 * rb.bufferSize by omega,
      Nat.add_mod_right, Nat.mod_eq_of_lt (by omega)]
  · rw [Nat.mod_eq_of_lt (by omega)]
    omega
  · rw [show rb.bufferSize + rb.writeIndex + 2 * rb.bufferSize -
      (rb.bufferSize + rb.readIndex) =
      (rb.writeIndex - rb.readIndex) + 2 * rb.bufferSize by omega, Nat.add_mod_right,
      Nat.mod_eq_of_lt (by omega)]

theorem Valid.content_eq : rb.content =
      ringContents rb.bufferPtr rb.bufferSize rb.readIndex rb.rtRingbufferDataLen := by
  rw [content, hvalid.span_eq]

theorem Valid.content_length : rb.content.length = rb.rtRingbufferDataLen := by
  rw [hvalid.content_eq, ringContents_length]

theorem Valid.writeIndex_eq :
    (rb.readIndex + rb.rtRingbufferDataLen) % rb.bufferSize = rb.writeIndex := by
  have hwrite := hvalid.writeIndex_lt
  have hread := hvalid.readIndex_lt
  have horder := hvalid.order
  rw [hvalid.dataLen_eq]
  by_cases hmirror : rb.readMirror = rb.writeMirror
  · rw [if_pos hmirror] at horder ⊢
    rw [Nat.add_sub_cancel' horder, Nat.mod_eq_of_lt hwrite]
  · rw [if_neg hmirror] at horder ⊢
    rw [show rb.readIndex + (rb.bufferSize - (rb.readIndex - rb.writeIndex)) =
      rb.writeIndex + rb.bufferSize by omega, Nat.add_mod_right, Nat.mod_eq_of_lt hwrite]

theorem Valid.advanceWrite (rb' : RingBuffer) (hroom : n ≤ rb.rtRingbufferSpaceLen)
    (hsize : rb'.bufferSize = rb.bufferSize) (hmirror : rb'.readMirror = rb.readMirror)
    (hread : rb'.readIndex = rb.readIndex)
    (hwrite : Advances rb.bufferSize n rb.writeMirror rb.writeIndex rb'.writeMirror
      rb'.writeIndex) :
    rb'.Valid ∧ rb'.rtRingbufferDataLen = rb.rtRingbufferDataLen + n := by
  have hlen := hvalid.dataLen_eq
  rw [rtRingbufferSpaceLen, hlen] at hroom
  obtain ⟨hpos, hlt, hr, hw, horder⟩ := hvalid
  have hvalid' : rb'.Valid := by
    refine ⟨by omega, by omega, by omega, ?_, ?_⟩
    · rcases hwrite with ⟨hfits, -, hindex⟩ | ⟨hwraps, -, hindex⟩
      · omega
      · split at hroom <;> omega
    · rw [hmirror, hread]
      rcases hwrite with ⟨hfits, hsame, hindex⟩ | ⟨hwraps, hflipped, hindex⟩
      · rw [hsame, hindex]
        split at hroom <;> rename_i hm <;> simp only [hm, if_true, if_false] at horder ⊢ <;> omega
      · rw [hflipped, hindex]
        cases hrm : rb.readMirror <;> cases hwm : rb.writeMirror <;>
          simp only [hrm, hwm, if_true, if_false, Bool.not_true, Bool.not_false,
            Bool.false_eq_true, reduceCtorEq] at horder hroom ⊢ <;> omega
  refine ⟨hvalid', ?_⟩
  rw [hvalid'.dataLen_eq, hlen, hmirror, hread, hsize]
  rcases hwrite with ⟨hfits, hsame, hindex⟩ | ⟨hwraps, hflipped, hindex⟩
  · rw [hsame, hindex]
    split at hroom <;> rename_i hm <;> simp only [hm, if_true, if_false] at horder ⊢ <;> omega
  · rw [hflipped, hindex]
    cases hrm : rb.readMirror <;> cases hwm : rb.writeMirror <;>
      simp only [hrm, hwm, if_true, if_false, Bool.not_true, Bool.not_false,
        Bool.false_eq_true, reduceCtorEq] at horder hroom ⊢ <;> omega

theorem Valid.advanceRead (rb' : RingBuffer) (hstored : n ≤ rb.rtRingbufferDataLen)
    (hsize : rb'.bufferSize = rb.bufferSize) (hmirror : rb'.writeMirror = rb.writeMirror)
    (hwrite : rb'.writeIndex = rb.writeIndex)
    (hread : Advances rb.bufferSize n rb.readMirror rb.readIndex rb'.readMirror
      rb'.readIndex) :
    rb'.Valid ∧ rb'.rtRingbufferDataLen = rb.rtRingbufferDataLen - n := by
  have hlen := hvalid.dataLen_eq
  rw [hlen] at hstored
  obtain ⟨hpos, hlt, hr, hw, horder⟩ := hvalid
  have hvalid' : rb'.Valid := by
    refine ⟨by omega, by omega, ?_, by omega, ?_⟩
    · rcases hread with ⟨hfits, -, hindex⟩ | ⟨hwraps, -, hindex⟩
      · omega
      · split at hstored <;> omega
    · rw [hmirror, hwrite]
      rcases hread with ⟨hfits, hsame, hindex⟩ | ⟨hwraps, hflipped, hindex⟩
      · rw [hsame, hindex]
        split at hstored <;> rename_i hm <;> simp only [hm, if_true, if_false] at horder ⊢ <;>
          omega
      · rw [hflipped, hindex]
        cases hrm : rb.readMirror <;> cases hwm : rb.writeMirror <;>
          simp only [hrm, hwm, if_true, if_false, Bool.not_true, Bool.not_false,
            Bool.false_eq_true, reduceCtorEq] at horder hstored ⊢ <;> omega
  refine ⟨hvalid', ?_⟩
  rw [hvalid'.dataLen_eq, hlen, hmirror, hwrite, hsize]
  rcases hread with ⟨hfits, hsame, hindex⟩ | ⟨hwraps, hflipped, hindex⟩
  · rw [hsame, hindex]
    split at hstored <;> rename_i hm <;> simp only [hm, if_true, if_false] at horder ⊢ <;> omega
  · rw [hflipped, hindex]
    cases hrm : rb.readMirror <;> cases hwm : rb.writeMirror <;>
      simp only [hrm, hwm, if_true, if_false, Bool.not_true, Bool.not_false,
        Bool.false_eq_true, reduceCtorEq] at horder hstored ⊢ <;> omega

theorem Valid.spaceLen_eq : rb.rtRingbufferSpaceLen = rb.bufferSize - rb.content.length := by
  rw [hvalid.content_length, rtRingbufferSpaceLen]

theorem Valid.content_length_le : rb.content.length ≤ rb.bufferSize :=
  hvalid.content_length ▸ hvalid.dataLen_le

theorem Valid.content_store (bytes : List Byte) (hroom : bytes.length ≤ rb.rtRingbufferSpaceLen)
    (hfits : rb.writeIndex + bytes.length ≤ rb.bufferSize) :
    ringContents (storeCells rb.bufferPtr rb.writeIndex bytes) rb.bufferSize rb.readIndex
        (rb.rtRingbufferDataLen + bytes.length) = rb.content ++ bytes := by
  have hle := hvalid.dataLen_le
  rw [hvalid.content_eq, ← hvalid.writeIndex_eq]
  refine ringContents_storeCells ?_ ?_
  · rw [rtRingbufferSpaceLen] at hroom
    omega
  · rwa [hvalid.writeIndex_eq]

theorem Valid.content_store_wrap (bytes more : List Byte)
    (hroom : bytes.length + more.length ≤ rb.rtRingbufferSpaceLen)
    (hends : rb.writeIndex + bytes.length = rb.bufferSize) :
    ringContents (storeCells (storeCells rb.bufferPtr rb.writeIndex bytes) 0 more) rb.bufferSize
        rb.readIndex (rb.rtRingbufferDataLen + bytes.length + more.length) =
      rb.content ++ bytes ++ more := by
  have hle := hvalid.dataLen_le
  rw [hvalid.content_eq, ← hvalid.writeIndex_eq]
  refine ringContents_storeCells_wrap ?_ ?_
  · rw [rtRingbufferSpaceLen] at hroom
    omega
  · rwa [hvalid.writeIndex_eq]

theorem Valid.content_split (hstored : n ≤ rb.rtRingbufferDataLen) :
    rb.content = ringContents rb.bufferPtr rb.bufferSize rb.readIndex n ++
      ringContents rb.bufferPtr rb.bufferSize ((rb.readIndex + n) % rb.bufferSize)
        (rb.rtRingbufferDataLen - n) := by
  rw [hvalid.content_eq, ← ringContents_add, Nat.add_sub_cancel' hstored]

theorem Valid.take_content (hstored : n ≤ rb.rtRingbufferDataLen) :
    rb.content.take n = ringContents rb.bufferPtr rb.bufferSize rb.readIndex n := by
  rw [hvalid.content_split hstored, List.take_append_of_le_length (by rw [ringContents_length]),
    List.take_of_length_le (by rw [ringContents_length])]

theorem Valid.drop_content (rb' : RingBuffer) (hstored : n ≤ rb.rtRingbufferDataLen)
    (hsize : rb'.bufferSize = rb.bufferSize) (hpool : rb'.bufferPtr = rb.bufferPtr)
    (hmirror : rb'.writeMirror = rb.writeMirror) (hwrite : rb'.writeIndex = rb.writeIndex)
    (hread : Advances rb.bufferSize n rb.readMirror rb.readIndex rb'.readMirror
      rb'.readIndex) :
    rb'.Valid ∧ rb'.content = rb.content.drop n := by
  obtain ⟨hvalid', hlen⟩ := hvalid.advanceRead rb' hstored hsize hmirror hwrite hread
  refine ⟨hvalid', ?_⟩
  have hle := hvalid.dataLen_le
  have hlt := hvalid.readIndex_lt
  have hindex : rb'.readIndex = (rb.readIndex + n) % rb.bufferSize := by
    rcases hread with ⟨hfits, -, hindex⟩ | ⟨hwraps, -, hindex⟩
    · rw [hindex, Nat.mod_eq_of_lt hfits]
    · rw [hindex, Nat.mod_eq_sub_mod hwraps, Nat.mod_eq_of_lt (by omega)]
  rw [hvalid.content_split hstored, List.drop_append_of_le_length
    (by rw [ringContents_length]), List.drop_of_length_le (by rw [ringContents_length]),
    List.nil_append, hvalid'.content_eq, hlen, hsize, hpool, hindex]

end

end Valid

section Calls

variable {rb : RingBuffer}

theorem Valid.put (hvalid : rb.Valid) {ptr : List Byte} {length : Nat}
    (hlength : length ≤ ptr.length) :
    ∃ rb', rb.rtRingbufferPut ptr length =
        some (⟨min length (rb.bufferSize - rb.content.length), []⟩, rb') ∧
      rb'.Valid ∧ rb'.bufferSize = rb.bufferSize ∧
      rb'.content = rb.content ++ ptr.take (min length (rb.bufferSize - rb.content.length)) := by
  have hw := hvalid.writeIndex_lt
  have hlt := hvalid.bufferSize_lt
  have hle := hvalid.dataLen_le
  rw [← hvalid.spaceLen_eq]
  unfold rtRingbufferPut
  dsimp only
  split
  next hfull => exact ⟨rb, by simp [hfull], hvalid, rfl, by simp [hfull]⟩
  next hspace =>
    have hmin : (if rb.rtRingbufferSpaceLen < length then rb.rtRingbufferSpaceLen else length) =
        min length rb.rtRingbufferSpaceLen := by
      rw [Nat.min_def]
      split <;> split <;> omega
    rw [hmin]
    have hroom : min length rb.rtRingbufferSpaceLen ≤ rb.rtRingbufferSpaceLen :=
      Nat.min_le_right _ _
    have hgiven : min length rb.rtRingbufferSpaceLen ≤ ptr.length :=
      (Nat.min_le_left _ _).trans hlength
    generalize min length rb.rtRingbufferSpaceLen = n at hroom hgiven
    split
    next hfits =>
      have htake : (ptr.take n).length = n := List.length_take_of_le hgiven
      rw [copyTo, if_pos (by omega)]
      refine ⟨_, rfl, ?_⟩
      have hmod : (rb.writeIndex + n) % 32768 = rb.writeIndex + n :=
        Nat.mod_eq_of_lt (by omega)
      have hadvances : Advances rb.bufferSize n rb.writeMirror rb.writeIndex rb.writeMirror
          (rb.writeIndex + n) := .inl ⟨by omega, rfl, rfl⟩
      dsimp only
      rw [hmod]
      obtain ⟨hvalid', hlen⟩ := hvalid.advanceWrite { rb with
        bufferPtr := storeCells rb.bufferPtr rb.writeIndex (ptr.take n)
        writeIndex := rb.writeIndex + n } hroom rfl rfl rfl hadvances
      refine ⟨hvalid', rfl, ?_⟩
      have hstored := hvalid.content_store (ptr.take n) (by omega) (by omega)
      rw [htake, ← hlen] at hstored
      rw [hvalid'.content_eq]
      exact hstored
    next hwraps =>
      have hrest : (ptr.take (rb.bufferSize - rb.writeIndex)).length =
          rb.bufferSize - rb.writeIndex := List.length_take_of_le (by omega)
      have hmore : ((ptr.drop (rb.bufferSize - rb.writeIndex)).take
          (n - (rb.bufferSize - rb.writeIndex))).length = n - (rb.bufferSize - rb.writeIndex) := by
        rw [List.length_take_of_le]
        rw [List.length_drop]
        omega
      have hspaceLe : rb.rtRingbufferSpaceLen ≤ rb.bufferSize := by
        rw [rtRingbufferSpaceLen]
        omega
      rw [copyTo, if_pos (by omega)]
      simp only [Option.bind_some]
      rw [copyTo, if_pos (by dsimp only; omega)]
      refine ⟨_, rfl, ?_⟩
      dsimp only
      have hadvances : Advances rb.bufferSize n rb.writeMirror rb.writeIndex (!rb.writeMirror)
          (n - (rb.bufferSize - rb.writeIndex)) := .inr ⟨by omega, rfl, by omega⟩
      obtain ⟨hvalid', hlen⟩ := hvalid.advanceWrite { rb with
        bufferPtr := storeCells (storeCells rb.bufferPtr rb.writeIndex
          (ptr.take (rb.bufferSize - rb.writeIndex))) 0
            ((ptr.drop (rb.bufferSize - rb.writeIndex)).take
              (n - (rb.bufferSize - rb.writeIndex)))
        writeMirror := !rb.writeMirror
        writeIndex := n - (rb.bufferSize - rb.writeIndex) } hroom rfl rfl rfl hadvances
      refine ⟨hvalid', rfl, ?_⟩
      have hstored := hvalid.content_store_wrap (ptr.take (rb.bufferSize - rb.writeIndex))
        ((ptr.drop (rb.bufferSize - rb.writeIndex)).take
          (n - (rb.bufferSize - rb.writeIndex))) (by omega) (by omega)
      rw [List.append_assoc, ← List.take_add, hrest, hmore,
        show rb.rtRingbufferDataLen + (rb.bufferSize - rb.writeIndex) +
          (n - (rb.bufferSize - rb.writeIndex)) = rb.rtRingbufferDataLen + n by omega, ← hlen,
        show rb.bufferSize - rb.writeIndex + (n - (rb.bufferSize - rb.writeIndex)) = n by omega]
        at hstored
      rw [hvalid'.content_eq]
      exact hstored

theorem Valid.get (hvalid : rb.Valid) (length : Nat) :
    ∃ rb', rb.rtRingbufferGet length =
        some (⟨min length rb.content.length, rb.content.take (min length rb.content.length)⟩, rb') ∧
      rb'.Valid ∧ rb'.bufferSize = rb.bufferSize ∧
      rb'.content = rb.content.drop (min length rb.content.length) := by
  have hr := hvalid.readIndex_lt
  have hlt := hvalid.bufferSize_lt
  have hle := hvalid.dataLen_le
  rw [hvalid.content_length]
  unfold rtRingbufferGet
  dsimp only
  split
  next hempty => exact ⟨rb, by simp [hempty], hvalid, rfl, by simp [hempty]⟩
  next hsome =>
    have hmin : (if rb.rtRingbufferDataLen < length then rb.rtRingbufferDataLen else length) =
        min length rb.rtRingbufferDataLen := by
      rw [Nat.min_def]
      split <;> split <;> omega
    rw [hmin]
    have hstored : min length rb.rtRingbufferDataLen ≤ rb.rtRingbufferDataLen :=
      Nat.min_le_right _ _
    generalize min length rb.rtRingbufferDataLen = n at hstored
    rw [hvalid.take_content hstored]
    split
    next hfits =>
      rw [copyFrom, if_pos (by omega)]
      refine ⟨_, by rw [ringContents_eq_loadCells (by omega)]; rfl, ?_⟩
      have hmod : (rb.readIndex + n) % 32768 = rb.readIndex + n := Nat.mod_eq_of_lt (by omega)
      rw [hmod]
      obtain ⟨hvalid', hcontent⟩ := hvalid.drop_content
        { rb with readIndex := rb.readIndex + n } hstored rfl rfl rfl rfl
        (.inl ⟨by omega, rfl, rfl⟩)
      exact ⟨hvalid', rfl, hcontent⟩
    next hwraps =>
      rw [copyFrom, if_pos (by omega), Option.bind_some, copyFrom, if_pos (by omega)]
      refine ⟨_, by rw [ringContents_eq_loadCells_wrap (by omega) (by omega) (by omega)]; rfl, ?_⟩
      obtain ⟨hvalid', hcontent⟩ := hvalid.drop_content
        { rb with
          readMirror := !rb.readMirror
          readIndex := n - (rb.bufferSize - rb.readIndex) } hstored rfl rfl rfl rfl
        (.inr ⟨by omega, rfl, by dsimp only; omega⟩)
      exact ⟨hvalid', rfl, hcontent⟩

theorem advances_one {size index : Nat} (mirror : Bool) (hlt : index < size) :
    if index = size - 1 then Advances size 1 mirror index (!mirror) 0
    else Advances size 1 mirror index mirror (index + 1) := by
  split
  · exact .inr ⟨by omega, rfl, by omega⟩
  · exact .inl ⟨by omega, rfl, rfl⟩

theorem Valid.store_one (hvalid : rb.Valid) (rb' : RingBuffer) {ch : Byte}
    (hroom : rb.content.length < rb.bufferSize) (hsize : rb'.bufferSize = rb.bufferSize)
    (hpool : rb'.bufferPtr = storeCells rb.bufferPtr rb.writeIndex [ch])
    (hmirror : rb'.readMirror = rb.readMirror) (hread : rb'.readIndex = rb.readIndex)
    (hwrite : Advances rb.bufferSize 1 rb.writeMirror rb.writeIndex rb'.writeMirror
      rb'.writeIndex) :
    rb'.Valid ∧ rb'.content = rb.content ++ [ch] := by
  have hw := hvalid.writeIndex_lt
  have hspace : 1 ≤ rb.rtRingbufferSpaceLen := by
    rw [hvalid.spaceLen_eq]
    omega
  obtain ⟨hvalid', hlen⟩ := hvalid.advanceWrite rb' hspace hsize hmirror hread hwrite
  have hstored := hvalid.content_store [ch] hspace (by simp only [List.length_singleton]; omega)
  rw [List.length_singleton, ← hlen] at hstored
  exact ⟨hvalid', by rw [hvalid'.content_eq, hsize, hpool, hread, hstored]⟩

theorem Valid.full_iff (hvalid : rb.Valid) :
    rb.rtRingbufferStatus = .full ↔ rb.content.length = rb.bufferSize := by
  have hpos := hvalid.bufferSize_pos
  have hw := hvalid.writeIndex_lt
  have hr := hvalid.readIndex_lt
  rw [hvalid.content_length, rtRingbufferDataLen]
  have horder := hvalid.order
  unfold rtRingbufferStatus
  by_cases hindex : rb.readIndex = rb.writeIndex
  · by_cases hmirror : rb.readMirror = rb.writeMirror
    · simp [hindex, hmirror]
      omega
    · simp [hindex, hmirror]
  · simp only [hindex, if_false, reduceCtorEq, false_iff]
    split <;> omega

theorem Valid.putchar (hvalid : rb.Valid) (ch : Byte) :
    ∃ n rb', rb.rtRingbufferPutchar ch = some (⟨n, []⟩, rb') ∧ rb'.Valid ∧
      rb'.bufferSize = rb.bufferSize ∧
      (if rb.content.length < rb.bufferSize then n = 1 ∧ rb'.content = rb.content ++ [ch]
        else n = 0 ∧ rb' = rb) := by
  have hw := hvalid.writeIndex_lt
  have hlt := hvalid.bufferSize_lt
  unfold rtRingbufferPutchar
  rw [hvalid.spaceLen_eq]
  split
  next hfull =>
    refine ⟨0, rb, rfl, hvalid, rfl, ?_⟩
    rw [if_neg (by omega)]
    exact ⟨rfl, rfl⟩
  next hspace =>
    have hroom : rb.content.length < rb.bufferSize := by omega
    simp only [hroom, if_true]
    rw [copyTo, if_pos (by simp only [List.length_singleton]; omega), Option.map_some]
    have hnext := advances_one rb.writeMirror hw
    dsimp only
    split at hnext
    next hlast =>
      rw [if_pos hlast]
      obtain ⟨hvalid', hcontent⟩ := hvalid.store_one
        { rb with
          bufferPtr := storeCells rb.bufferPtr rb.writeIndex [ch]
          writeMirror := !rb.writeMirror
          writeIndex := 0 } hroom rfl rfl rfl rfl hnext
      exact ⟨1, _, rfl, hvalid', rfl, rfl, hcontent⟩
    next hlast =>
      have hmod : (rb.writeIndex + 1) % 32768 = rb.writeIndex + 1 := Nat.mod_eq_of_lt (by omega)
      rw [if_neg hlast, hmod]
      obtain ⟨hvalid', hcontent⟩ := hvalid.store_one
        { rb with
          bufferPtr := storeCells rb.bufferPtr rb.writeIndex [ch]
          writeIndex := rb.writeIndex + 1 } hroom rfl rfl rfl rfl hnext
      exact ⟨1, _, rfl, hvalid', rfl, rfl, hcontent⟩

theorem Valid.replace_one (hvalid : rb.Valid) (rb' : RingBuffer) {ch : Byte}
    (hfull : rb.content.length = rb.bufferSize) (hsize : rb'.bufferSize = rb.bufferSize)
    (hpool : rb'.bufferPtr = storeCells rb.bufferPtr rb.writeIndex [ch])
    (hread : Advances rb.bufferSize 1 rb.readMirror rb.readIndex rb'.readMirror rb'.readIndex)
    (hwrite : Advances rb.bufferSize 1 rb.writeMirror rb.writeIndex rb'.writeMirror
      rb'.writeIndex) :
    rb'.Valid ∧ rb'.content = rb.content.drop 1 ++ [ch] := by
  have hpos := hvalid.bufferSize_pos
  obtain ⟨hdropped, hcontent⟩ := hvalid.drop_content
    { rb with readMirror := rb'.readMirror, readIndex := rb'.readIndex }
    (by rw [← hvalid.content_length]; omega) rfl rfl rfl rfl hread
  obtain ⟨hvalid', hstored⟩ := hdropped.store_one rb'
    (by rw [hcontent, List.length_drop]; dsimp only; omega) hsize hpool rfl rfl hwrite
  exact ⟨hvalid', by rw [hstored, hcontent]⟩

theorem Valid.putcharForce (hvalid : rb.Valid) (ch : Byte) :
    ∃ rb', rb.rtRingbufferPutcharForce ch = some (⟨1, []⟩, rb') ∧ rb'.Valid ∧
      rb'.bufferSize = rb.bufferSize ∧
      rb'.content = (if rb.content.length < rb.bufferSize then rb.content
        else rb.content.drop 1) ++ [ch] := by
  have hw := hvalid.writeIndex_lt
  have hlt := hvalid.bufferSize_lt
  have hle := hvalid.content_length_le
  have hmod : (rb.writeIndex + 1) % 32768 = rb.writeIndex + 1 := Nat.mod_eq_of_lt (by omega)
  have hnext := advances_one rb.writeMirror hw
  unfold rtRingbufferPutcharForce
  dsimp only
  rw [copyTo, if_pos (by simp only [List.length_singleton]; omega), Option.map_some]
  dsimp only
  rw [hmod]
  by_cases hfull : rb.rtRingbufferStatus = .full
  · have hlength := hvalid.full_iff.mp hfull
    have hindex : rb.readIndex = rb.writeIndex := by
      by_contra hne
      simp [rtRingbufferStatus, hne] at hfull
    have hnextRead := advances_one rb.readMirror hvalid.readIndex_lt
    rw [hindex] at hnextRead
    have hnoroom : ¬ rb.content.length < rb.bufferSize := by omega
    simp only [hfull, if_true]
    rw [if_neg hnoroom]
    split at hnext
    next hlast =>
      rw [if_pos hlast] at hnextRead
      rw [if_pos hlast]
      obtain ⟨hvalid', hcontent⟩ := hvalid.replace_one
        { rb with
          bufferPtr := storeCells rb.bufferPtr rb.writeIndex [ch]
          writeMirror := !rb.writeMirror
          writeIndex := 0
          readMirror := !rb.readMirror
          readIndex := 0 } hlength rfl rfl (by rw [hindex]; exact hnextRead) hnext
      exact ⟨_, rfl, hvalid', rfl, hcontent⟩
    next hlast =>
      rw [if_neg hlast] at hnextRead
      rw [if_neg hlast]
      obtain ⟨hvalid', hcontent⟩ := hvalid.replace_one
        { rb with
          bufferPtr := storeCells rb.bufferPtr rb.writeIndex [ch]
          writeIndex := rb.writeIndex + 1
          readIndex := rb.writeIndex + 1 } hlength rfl rfl (by rw [hindex]; exact hnextRead)
        hnext
      exact ⟨_, rfl, hvalid', rfl, hcontent⟩
  · have hroom : rb.content.length < rb.bufferSize := by
      have hne : rb.content.length ≠ rb.bufferSize := fun h => hfull (hvalid.full_iff.mpr h)
      omega
    simp only [hfull, if_false]
    rw [if_pos hroom]
    split at hnext
    next hlast =>
      rw [if_pos hlast]
      obtain ⟨hvalid', hcontent⟩ := hvalid.store_one
        { rb with
          bufferPtr := storeCells rb.bufferPtr rb.writeIndex [ch]
          writeMirror := !rb.writeMirror
          writeIndex := 0 } hroom rfl rfl rfl rfl hnext
      exact ⟨_, rfl, hvalid', rfl, hcontent⟩
    next hlast =>
      rw [if_neg hlast]
      obtain ⟨hvalid', hcontent⟩ := hvalid.store_one
        { rb with
          bufferPtr := storeCells rb.bufferPtr rb.writeIndex [ch]
          writeIndex := rb.writeIndex + 1 } hroom rfl rfl rfl rfl hnext
      exact ⟨_, rfl, hvalid', rfl, hcontent⟩

theorem Valid.getchar (hvalid : rb.Valid) :
    ∃ rb', rb.rtRingbufferGetchar =
        some (⟨min 1 rb.content.length, rb.content.take 1⟩, rb') ∧ rb'.Valid ∧
      rb'.bufferSize = rb.bufferSize ∧ rb'.content = rb.content.drop 1 := by
  have hr := hvalid.readIndex_lt
  have hlt := hvalid.bufferSize_lt
  unfold rtRingbufferGetchar
  split
  next hempty =>
    rw [← hvalid.content_length, List.length_eq_zero_iff] at hempty
    exact ⟨rb, by simp [hempty], hvalid, rfl, by simp [hempty]⟩
  next hsome =>
    have hstored : 1 ≤ rb.rtRingbufferDataLen := by omega
    have hone : min 1 rb.content.length = 1 := by
      rw [hvalid.content_length]
      omega
    have hnext := advances_one rb.readMirror hr
    have hmod : (rb.readIndex + 1) % 32768 = rb.readIndex + 1 := Nat.mod_eq_of_lt (by omega)
    rw [copyFrom, if_pos (by omega), Option.map_some, hmod, hone, hvalid.take_content hstored,
      ringContents_eq_loadCells (by omega)]
    split at hnext
    next hlast =>
      rw [if_pos hlast]
      obtain ⟨hvalid', hcontent⟩ := hvalid.drop_content
        { rb with readMirror := !rb.readMirror, readIndex := 0 } hstored rfl rfl rfl rfl hnext
      exact ⟨_, rfl, hvalid', rfl, hcontent⟩
    next hlast =>
      rw [if_neg hlast]
      obtain ⟨hvalid', hcontent⟩ := hvalid.drop_content
        { rb with readIndex := rb.readIndex + 1 } hstored rfl rfl rfl rfl hnext
      exact ⟨_, rfl, hvalid', rfl, hcontent⟩

theorem Valid.reset (hvalid : rb.Valid) :
    rb.rtRingbufferReset.Valid ∧ rb.rtRingbufferReset.content = [] := by
  have hvalid' : rb.rtRingbufferReset.Valid :=
    ⟨hvalid.bufferSize_pos, hvalid.bufferSize_lt, hvalid.bufferSize_pos, hvalid.bufferSize_pos,
      by simp [rtRingbufferReset]⟩
  refine ⟨hvalid', ?_⟩
  rw [hvalid'.content_eq, hvalid'.dataLen_eq]
  simp [rtRingbufferReset, ringContents_zero]

end Calls

structure Holds (size : Nat) (rb : RingBuffer) (content : List Byte) : Prop where
  valid : rb.Valid
  bufferSize : rb.bufferSize = size
  content : rb.content = content

theorem ringBuffer_refines (size : Nat) :
    ringBuffer.Refines (byteFifo size) RingOp.Legal (Holds size) where
  step := by
    intro rb content op hholds hlegal
    obtain ⟨hvalid, rfl, rfl⟩ := hholds
    cases op with
    | put ptr length =>
      obtain ⟨rb', hput, hvalid', hsize, hcontent⟩ := hvalid.put hlegal.1
      exact ⟨_, rb', _, hput, rfl, hvalid', hsize, hcontent⟩
    | get length =>
      obtain ⟨rb', hget, hvalid', hsize, hcontent⟩ := hvalid.get length
      exact ⟨_, rb', _, hget, rfl, hvalid', hsize, hcontent⟩
    | putchar ch =>
      obtain ⟨n, rb', hput, hvalid', hsize, hcases⟩ := hvalid.putchar ch
      split at hcases
      next hroom =>
        obtain ⟨rfl, hcontent⟩ := hcases
        exact ⟨_, rb', _, hput, if_pos hroom, hvalid', hsize, hcontent⟩
      next hfull =>
        obtain ⟨rfl, rfl⟩ := hcases
        exact ⟨_, rb', _, hput, if_neg hfull, hvalid', hsize, rfl⟩
    | putcharForce ch =>
      obtain ⟨rb', hput, hvalid', hsize, hcontent⟩ := hvalid.putcharForce ch
      split at hcontent
      next hroom => exact ⟨_, rb', _, hput, if_pos hroom, hvalid', hsize, hcontent⟩
      next hfull => exact ⟨_, rb', _, hput, if_neg hfull, hvalid', hsize, hcontent⟩
    | getchar =>
      obtain ⟨rb', hget, hvalid', hsize, hcontent⟩ := hvalid.getchar
      exact ⟨_, rb', _, hget, rfl, hvalid', hsize, hcontent⟩
    | reset =>
      obtain ⟨hvalid', hcontent⟩ := hvalid.reset
      exact ⟨_, _, _, rfl, rfl, hvalid', rfl, hcontent⟩

/-- After any calls, and with the answers of the queue to all of them. -/
theorem ringBuffer_run {rb : RingBuffer} (hvalid : rb.Valid) {calls : List RingOp}
    (hlegal : ∀ op ∈ calls, op.Legal) :
    ∃ answers rb', ringBuffer.run rb calls = some (answers, rb') ∧
      (byteFifo rb.bufferSize).run rb.content calls = some (answers, rb'.content) ∧
      rb'.Valid ∧ rb'.bufferSize = rb.bufferSize ∧
      rb'.rtRingbufferDataLen = rb'.content.length ∧
      rb'.rtRingbufferDataLen ≤ rb'.bufferSize := by
  obtain ⟨answers, rb', content, himpl, hspec, hvalid', hsize, rfl⟩ :=
    (ringBuffer_refines rb.bufferSize).run ⟨hvalid, rfl, rfl⟩ hlegal
  exact ⟨answers, rb', himpl, hspec, hvalid', hsize, hvalid'.content_length.symm,
    hvalid'.dataLen_le⟩

theorem rtRingbufferInit_valid (pool : Nat → Byte) {size : Nat} (hsize : size < 32768)
    (hpos : 0 < (rtRingbufferInit pool size).bufferSize) :
    (rtRingbufferInit pool size).Valid ∧ (rtRingbufferInit pool size).content = [] := by
  have hlt : (rtRingbufferInit pool size).bufferSize < 32768 := by
    simp only [rtRingbufferInit]
    omega
  have hvalid : (rtRingbufferInit pool size).Valid := ⟨hpos, hlt, hpos, hpos, by
    simp [rtRingbufferInit]⟩
  exact ⟨hvalid, hvalid.reset.2⟩

/-- Six bytes for a buffer of four, in two calls, and around its end. -/
theorem ringBuffer_run_wrap :
    ∃ answers rb', ringBuffer.run (rtRingbufferInit (fun _ => 0) 6)
        [.put [1, 2, 3] 3, .get 2, .put [4, 5, 6] 3, .getchar, .putcharForce 7] =
          some (answers, rb') ∧
      rb'.content = [4, 5, 6, 7] := by
  have hlegal : ∀ op ∈ ([.put [1, 2, 3] 3, .get 2, .put [4, 5, 6] 3, .getchar,
      .putcharForce 7] : List RingOp), op.Legal := by
    simp [RingOp.Legal]
  obtain ⟨answers, rb', hrun, hfifo, -⟩ := ringBuffer_run
    (rtRingbufferInit_valid (fun _ => 0) (by decide : 6 < 32768) (by decide)).1 hlegal
  have hcontent := (rtRingbufferInit_valid (fun _ => 0) (by decide : 6 < 32768) (by decide)).2
  rw [hcontent] at hfifo
  refine ⟨answers, rb', hrun, ?_⟩
  have hvalue := congrArg (Option.map Prod.snd) hfifo
  simpa [Transducer.run, byteFifo, rtRingbufferInit] using hvalue.symm

end RingBuffer

end RtThread.Driver
