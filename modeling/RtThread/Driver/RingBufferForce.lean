import RtThread.Driver.RingBufferFifo
import RtThread.Lib.RingOverwrite
import RtThread.Lib.Transition

namespace RtThread.Driver

open RtThread.Lib

namespace RingBuffer

def rtRingbufferPutForce (rb : RingBuffer) (ptr : List Byte) (length : Nat) :
    Option (Reply × RingBuffer) :=
  let spaceLength := rb.rtRingbufferSpaceLen
  let (ptr, length) :=
    if length > rb.bufferSize then (ptr.drop (length - rb.bufferSize), rb.bufferSize)
    else (ptr, length)
  let rest := rb.bufferSize - rb.writeIndex
  if rest > length then
    (rb.copyTo rb.writeIndex (ptr.take length)).map fun rb =>
      let rb := { rb with writeIndex := (rb.writeIndex + length) % 32768 }
      (⟨length, []⟩, if length > spaceLength then { rb with readIndex := rb.writeIndex } else rb)
  else
    (rb.copyTo rb.writeIndex (ptr.take rest)).bind fun rb =>
      (rb.copyTo 0 ((ptr.drop rest).take (length - rest))).map fun rb =>
        let rb := { rb with writeMirror := !rb.writeMirror, writeIndex := length - rest }
        (⟨length, []⟩,
          if length > spaceLength then
            { rb with readMirror := !rb.readMirror, readIndex := rb.writeIndex }
          else rb)

/-- What `rt_ringbuffer_put_force` does with bytes that the buffer can hold. -/
def forced (rb : RingBuffer) (bytes : List Byte) : RingBuffer :=
  let length := bytes.length
  let wraps := rb.bufferSize ≤ rb.writeIndex + length
  let full := rb.rtRingbufferSpaceLen < length
  let writeIndex := if wraps then rb.writeIndex + length - rb.bufferSize else rb.writeIndex + length
  { rb with
    bufferPtr := storeRing rb.bufferPtr rb.bufferSize rb.writeIndex bytes
    writeMirror := if wraps then !rb.writeMirror else rb.writeMirror
    writeIndex := writeIndex
    readMirror := if wraps ∧ full then !rb.readMirror else rb.readMirror
    readIndex := if full then writeIndex else rb.readIndex }

section Force

variable {rb : RingBuffer} {ptr : List Byte} {length : Nat}

theorem Valid.putForce_eq (hvalid : rb.Valid) (hgiven : length ≤ ptr.length)
    (hle : length ≤ rb.bufferSize) :
    rb.rtRingbufferPutForce ptr length = some (⟨length, []⟩, rb.forced (ptr.take length)) := by
  have hw := hvalid.writeIndex_lt
  have hlt := hvalid.bufferSize_lt
  have htake : (ptr.take length).length = length := List.length_take_of_le hgiven
  unfold rtRingbufferPutForce forced
  simp only [if_neg (Nat.not_lt.mpr hle), htake, gt_iff_lt]
  split
  next hfits =>
    have hmod : (rb.writeIndex + length) % 32768 = rb.writeIndex + length :=
      Nat.mod_eq_of_lt (by omega)
    have hnowrap : ¬ rb.bufferSize ≤ rb.writeIndex + length := by omega
    rw [copyTo, if_pos (by omega), storeRing_eq_storeCells (by omega)]
    simp only [Option.map_some, hmod, hnowrap, false_and, if_false]
    split <;> rfl
  next hwraps =>
    have hwrap : rb.bufferSize ≤ rb.writeIndex + length := by omega
    have hrest : (ptr.take (rb.bufferSize - rb.writeIndex)).length =
        rb.bufferSize - rb.writeIndex := List.length_take_of_le (by omega)
    have hmore : ((ptr.drop (rb.bufferSize - rb.writeIndex)).take
        (length - (rb.bufferSize - rb.writeIndex))).length ≤ rb.bufferSize := by
      rw [List.length_take]
      omega
    have hsplit : ptr.take length = ptr.take (rb.bufferSize - rb.writeIndex) ++
        (ptr.drop (rb.bufferSize - rb.writeIndex)).take
          (length - (rb.bufferSize - rb.writeIndex)) := by
      rw [← List.take_add]
      congr 1
      omega
    have hindex : length - (rb.bufferSize - rb.writeIndex) =
        rb.writeIndex + length - rb.bufferSize := by omega
    rw [copyTo, if_pos (by omega), Option.bind_some, copyTo, if_pos (by dsimp only; omega),
      hsplit, storeRing_eq_storeCells_wrap (by omega) hmore]
    simp only [Option.map_some, hwrap, true_and, if_true, hindex]
    split <;> rfl

theorem Valid.putForce (hvalid : rb.Valid) (hgiven : length ≤ ptr.length) :
    ∃ reply, rb.rtRingbufferPutForce ptr length =
      some (reply, rb.forced ((ptr.take length).rtake rb.bufferSize)) := by
  have htake : (ptr.take length).length = length := List.length_take_of_le hgiven
  rcases Nat.lt_or_ge rb.bufferSize length with hmany | hle
  · have hdrop : rb.rtRingbufferPutForce ptr length =
        rb.rtRingbufferPutForce (ptr.drop (length - rb.bufferSize)) rb.bufferSize := by
      unfold rtRingbufferPutForce
      simp only [gt_iff_lt, hmany, Nat.lt_irrefl, if_true, if_false]
    have hlast : (ptr.take length).rtake rb.bufferSize =
        (ptr.drop (length - rb.bufferSize)).take rb.bufferSize := by
      rw [List.rtake, htake, List.drop_take]
      congr 1
      omega
    rw [hdrop, hlast, hvalid.putForce_eq (by rw [List.length_drop]; omega) (Nat.le_refl _)]
    exact ⟨_, rfl⟩
  · rw [hvalid.putForce_eq hgiven hle, rtake_of_length_le (by omega)]
    exact ⟨_, rfl⟩

variable {bytes : List Byte}

theorem Valid.forced_content (hvalid : rb.Valid) (hvalid' : (rb.forced bytes).Valid)
    (hread : (rb.forced bytes).readIndex =
      (rb.readIndex + (rb.rtRingbufferDataLen + bytes.length - rb.bufferSize)) % rb.bufferSize)
    (hlen : (rb.forced bytes).rtRingbufferDataLen =
      min rb.bufferSize (rb.rtRingbufferDataLen + bytes.length)) :
    (rb.forced bytes).content = (rb.content ++ bytes).rtake rb.bufferSize := by
  have hplace : rb.writeIndex % rb.bufferSize =
      (rb.readIndex + rb.rtRingbufferDataLen) % rb.bufferSize := by
    rw [hvalid.writeIndex_eq, Nat.mod_eq_of_lt hvalid.writeIndex_lt]
  rw [hvalid'.content_eq, hread, hlen, hvalid.content_eq,
    ← ringContents_storeRing _ hvalid.readIndex_lt hvalid.dataLen_le, ← storeRing_congr hplace]
  rfl

theorem Valid.forced_room (hvalid : rb.Valid)
    (hroom : bytes.length ≤ rb.rtRingbufferSpaceLen) :
    (rb.forced bytes).Valid ∧
      (rb.forced bytes).content = (rb.content ++ bytes).rtake rb.bufferSize := by
  have hw := hvalid.writeIndex_lt
  have hlen := hvalid.dataLen_le
  have hnotfull : ¬ rb.rtRingbufferSpaceLen < bytes.length := Nat.not_lt.mpr hroom
  have hread : (rb.forced bytes).readIndex = rb.readIndex := if_neg hnotfull
  have hmirror : (rb.forced bytes).readMirror = rb.readMirror := if_neg fun h => hnotfull h.2
  have hadvances : Advances rb.bufferSize bytes.length rb.writeMirror rb.writeIndex
      (rb.forced bytes).writeMirror (rb.forced bytes).writeIndex := by
    rcases Nat.lt_or_ge (rb.writeIndex + bytes.length) rb.bufferSize with hfits | hwraps
    · exact .inl ⟨hfits, if_neg (Nat.not_le.mpr hfits), if_neg (Nat.not_le.mpr hfits)⟩
    · exact .inr ⟨hwraps, if_pos hwraps, if_pos hwraps⟩
  obtain ⟨hvalid', hlen'⟩ := hvalid.advanceWrite (rb.forced bytes) hroom rfl hmirror hread hadvances
  have hall : rb.rtRingbufferDataLen + bytes.length ≤ rb.bufferSize := by
    rw [rtRingbufferSpaceLen] at hroom
    omega
  refine ⟨hvalid', hvalid.forced_content hvalid' ?_ ?_⟩
  · rw [hread, Nat.sub_eq_zero_of_le hall, Nat.add_zero, Nat.mod_eq_of_lt hvalid.readIndex_lt]
  · rw [hlen', Nat.min_eq_right hall]

theorem Valid.forced_over (hvalid : rb.Valid) (hle : bytes.length ≤ rb.bufferSize)
    (hfull : rb.rtRingbufferSpaceLen < bytes.length) (hmirror : rb.readMirror ≠ rb.writeMirror) :
    (rb.forced bytes).Valid ∧
      (rb.forced bytes).content = (rb.content ++ bytes).rtake rb.bufferSize := by
  have hlen := hvalid.dataLen_eq
  have hspace : rb.rtRingbufferSpaceLen = rb.bufferSize - rb.rtRingbufferDataLen := rfl
  have horder := hvalid.order
  have hw := hvalid.writeIndex_lt
  have hr := hvalid.readIndex_lt
  rw [if_neg hmirror] at hlen horder
  have hread : (rb.forced bytes).readIndex = (rb.forced bytes).writeIndex := if_pos hfull
  have hindex : (rb.forced bytes).writeIndex = (rb.writeIndex + bytes.length) % rb.bufferSize ∧
      (rb.forced bytes).readMirror ≠ (rb.forced bytes).writeMirror := by
    rcases Nat.lt_or_ge (rb.writeIndex + bytes.length) rb.bufferSize with hfits | hwraps
    · have hnowrap := Nat.not_le.mpr hfits
      have hread : (rb.forced bytes).readMirror = rb.readMirror := if_neg fun h => hnowrap h.1
      have hwrite : (rb.forced bytes).writeMirror = rb.writeMirror := if_neg hnowrap
      rw [hread, hwrite, Nat.mod_eq_of_lt hfits]
      exact ⟨if_neg hnowrap, hmirror⟩
    · have hread : (rb.forced bytes).readMirror = !rb.readMirror := if_pos ⟨hwraps, hfull⟩
      have hwrite : (rb.forced bytes).writeMirror = !rb.writeMirror := if_pos hwraps
      rw [hread, hwrite, Nat.mod_eq_sub_mod hwraps, Nat.mod_eq_of_lt (by omega)]
      exact ⟨if_pos hwraps, fun h => hmirror (Bool.not_inj h)⟩
  have hbound : (rb.forced bytes).writeIndex < (rb.forced bytes).bufferSize := by
    rw [hindex.1]
    exact Nat.mod_lt _ hvalid.bufferSize_pos
  have hvalid' : (rb.forced bytes).Valid :=
    { bufferSize_pos := hvalid.bufferSize_pos
      bufferSize_lt := hvalid.bufferSize_lt
      readIndex_lt := hread ▸ hbound
      writeIndex_lt := hbound
      order := by rw [if_neg hindex.2, hread] }
  refine ⟨hvalid', hvalid.forced_content hvalid' ?_ ?_⟩
  · rw [hread, hindex.1]
    congr 1
    omega
  · rw [hvalid'.dataLen_eq, if_neg hindex.2, hread, Nat.sub_self, Nat.sub_zero]
    show rb.bufferSize = _
    omega

theorem Valid.forced_lost (hvalid : rb.Valid) (hle : bytes.length ≤ rb.bufferSize)
    (hfull : rb.rtRingbufferSpaceLen < bytes.length) (hmirror : rb.readMirror = rb.writeMirror) :
    (rb.forced bytes).Valid ∧ (rb.forced bytes).content = [] := by
  have hlen := hvalid.dataLen_eq
  have hspace : rb.rtRingbufferSpaceLen = rb.bufferSize - rb.rtRingbufferDataLen := rfl
  have horder := hvalid.order
  have hw := hvalid.writeIndex_lt
  rw [if_pos hmirror] at hlen horder
  have hwraps : rb.bufferSize ≤ rb.writeIndex + bytes.length := by omega
  have hindex : (rb.forced bytes).writeIndex = rb.writeIndex + bytes.length - rb.bufferSize :=
    if_pos hwraps
  have hread : (rb.forced bytes).readIndex = (rb.forced bytes).writeIndex := if_pos hfull
  have hwriteMirror : (rb.forced bytes).writeMirror = !rb.writeMirror := if_pos hwraps
  have hreadMirror : (rb.forced bytes).readMirror = !rb.readMirror := if_pos ⟨hwraps, hfull⟩
  have hsame : (rb.forced bytes).readMirror = (rb.forced bytes).writeMirror := by
    rw [hreadMirror, hwriteMirror, hmirror]
  have hbound : (rb.forced bytes).writeIndex < (rb.forced bytes).bufferSize := by
    rw [hindex]
    show _ < rb.bufferSize
    omega
  have hvalid' : (rb.forced bytes).Valid :=
    { bufferSize_pos := hvalid.bufferSize_pos
      bufferSize_lt := hvalid.bufferSize_lt
      readIndex_lt := hread ▸ hbound
      writeIndex_lt := hbound
      order := by rw [if_pos hsame, hread] }
  refine ⟨hvalid', ?_⟩
  rw [hvalid'.content_eq, hvalid'.dataLen_eq, if_pos hsame, hread, Nat.sub_self, ringContents_zero]

theorem Valid.forced_iff (hvalid : rb.Valid) (hle : bytes.length ≤ rb.bufferSize) :
    (rb.forced bytes).Valid ∧
      ((rb.forced bytes).content = (rb.content ++ bytes).rtake rb.bufferSize ↔
        (rb.readMirror = rb.writeMirror → bytes.length ≤ rb.rtRingbufferSpaceLen)) := by
  rcases Nat.lt_or_ge rb.rtRingbufferSpaceLen bytes.length with hfull | hroom
  · by_cases hmirror : rb.readMirror = rb.writeMirror
    · obtain ⟨hvalid', hlost⟩ := hvalid.forced_lost hle hfull hmirror
      refine ⟨hvalid', fun hcontent => ?_, fun h => absurd (h hmirror) (Nat.not_le.mpr hfull)⟩
      -- there is at least the first of the new bytes to be lost
      have hlength := congrArg List.length hcontent
      have hpos := hvalid.bufferSize_pos
      rw [hlost, length_rtake, List.length_append, List.length_nil] at hlength
      omega
    · obtain ⟨hvalid', hcontent⟩ := hvalid.forced_over hle hfull hmirror
      exact ⟨hvalid', fun _ h => absurd h hmirror, fun _ => hcontent⟩
  · obtain ⟨hvalid', hcontent⟩ := hvalid.forced_room hroom
    exact ⟨hvalid', fun _ _ => hroom, fun _ => hcontent⟩

end Force

inductive ForceOp
  | call (op : RingOp)
  | putForce (ptr : List Byte) (length : Nat)
  deriving DecidableEq

def ForceOp.Legal : ForceOp → Prop
  | .call op => op.Legal
  | .putForce ptr length => length ≤ ptr.length ∧ length < 65536

def forceMachine : Machine RingBuffer ForceOp where
  init rb := ∃ pool size, size < 32768 ∧ 0 < (rtRingbufferInit pool size).bufferSize ∧
    rb = rtRingbufferInit pool size
  exec rb
    | .call op => (ringBuffer.step rb op).map Prod.snd
    | .putForce ptr length => (rb.rtRingbufferPutForce ptr length).map Prod.snd

theorem reachable_valid {rb : RingBuffer}
    (hreach : forceMachine.Reachable (fun _ => ForceOp.Legal) rb) : rb.Valid := by
  refine hreach.invariant RingBuffer.Valid ?_ ?_
  · rintro rb ⟨pool, size, hsize, hpos, rfl⟩
    exact (rtRingbufferInit_valid pool hsize hpos).1
  · intro rb op rb' hvalid hlegal hexec
    cases op with
    | call op =>
      obtain ⟨answer, rb'', _, hstep, -, hholds⟩ :=
        (ringBuffer_refines rb.bufferSize).step rb rb.content op ⟨hvalid, rfl, rfl⟩ hlegal
      simp only [forceMachine, hstep, Option.map_some] at hexec
      obtain rfl := Option.some.inj hexec
      exact hholds.valid
    | putForce ptr length =>
      obtain ⟨reply, hput⟩ := hvalid.putForce hlegal.1
      simp only [forceMachine, hput, Option.map_some] at hexec
      obtain rfl := Option.some.inj hexec
      have hle : ((ptr.take length).rtake rb.bufferSize).length ≤ rb.bufferSize := by
        rw [length_rtake]
        exact Nat.min_le_left ..
      exact (hvalid.forced_iff hle).1

/-- The newest bytes are kept, unless old bytes of the same mirror have to go.  The content is what
the next `rt_ringbuffer_get` returns. -/
theorem reachable_putForce_iff {rb : RingBuffer}
    (hreach : forceMachine.Reachable (fun _ => ForceOp.Legal) rb) (ptr : List Byte) (length : Nat)
    (hlegal : (ForceOp.putForce ptr length).Legal) :
    ∃ reply rb', rb.rtRingbufferPutForce ptr length = some (reply, rb') ∧
      (∃ rb'', rb'.rtRingbufferGet rb'.bufferSize = some (⟨rb'.content.length, rb'.content⟩, rb'')) ∧
      (rb'.content = (rb.content ++ ptr.take length).rtake rb.bufferSize ↔
        (rb.readMirror = rb.writeMirror →
          min rb.bufferSize length ≤ rb.rtRingbufferSpaceLen)) := by
  have hvalid := reachable_valid hreach
  obtain ⟨reply, hput⟩ := hvalid.putForce hlegal.1
  have hlength : ((ptr.take length).rtake rb.bufferSize).length = min rb.bufferSize length := by
    rw [length_rtake, List.length_take_of_le hlegal.1]
  obtain ⟨hvalid', hiff⟩ := hvalid.forced_iff (hlength.trans_le (Nat.min_le_left ..))
  rw [hlength, rtake_append_rtake] at hiff
  refine ⟨reply, _, hput, ?_, hiff⟩
  obtain ⟨rb'', hget, -⟩ := hvalid'.get (rb.forced ((ptr.take length).rtake rb.bufferSize)).bufferSize
  rw [Nat.min_eq_right hvalid'.content_length_le, List.take_of_length_le (Nat.le_refl _)] at hget
  exact ⟨rb'', hget⟩

theorem emptyBuffer_init : forceMachine.init (rtRingbufferInit (fun _ => 0) 4) :=
  ⟨fun _ => 0, 4, by decide, by decide, rfl⟩

instance : DecidablePred RingOp.Legal
  | .put .. => inferInstanceAs (Decidable (_ ∧ _))
  | .get _ => inferInstanceAs (Decidable (_ < _))
  | .putchar _ | .putcharForce _ | .getchar | .reset => .isTrue trivial

instance : DecidablePred ForceOp.Legal
  | .call op => inferInstanceAs (Decidable op.Legal)
  | .putForce .. => inferInstanceAs (Decidable (_ ∧ _))

/-- Two bytes for one cell, where the old bytes go around the end of the buffer. -/
theorem reachable_putForce_iff_over :
    ∃ rb, forceMachine.Reachable (fun _ => ForceOp.Legal) rb ∧ rb.content = [3, 4, 5] ∧
      ∃ reply rb', rb.rtRingbufferPutForce [6, 7] 2 = some (reply, rb') ∧
        rb'.content = [4, 5, 6, 7] := by
  have hrun : (forceMachine.run (fun _ => ForceOp.Legal) (rtRingbufferInit (fun _ => 0) 4)
      [.call (.put [1, 2, 3] 3), .call (.get 2), .call (.put [4, 5] 2)]).map
      (fun rb => (rb.content, rb.readMirror, rb.writeMirror, rb.bufferSize)) =
        some ([3, 4, 5], false, true, 4) := by
    decide +kernel
  obtain ⟨rb, hreach, hvalue⟩ := Machine.exists_reachable_of_run emptyBuffer_init hrun
  simp only [Prod.mk.injEq] at hvalue
  obtain ⟨hcontent, hread, hwrite, hsize⟩ := hvalue
  obtain ⟨reply, rb', hput, -, hiff⟩ := reachable_putForce_iff hreach [6, 7] 2
    (by decide)
  refine ⟨rb, hreach, hcontent, reply, rb', hput, ?_⟩
  rw [hiff.mpr (by rw [hread, hwrite]; exact nofun), hcontent, hsize]
  rfl

/-- Two bytes for one cell, where the old bytes are at the beginning of the buffer: all are lost. -/
theorem putForce_content_lost :
    ∃ rb, forceMachine.Reachable (fun _ => ForceOp.Legal) rb ∧ rb.content = [1, 2, 3] ∧
      ∃ reply rb', rb.rtRingbufferPutForce [4, 5] 2 = some (reply, rb') ∧ rb'.content = [] ∧
        rb'.content ≠ (rb.content ++ [4, 5]).rtake rb.bufferSize := by
  have hrun : (forceMachine.run (fun _ => ForceOp.Legal) (rtRingbufferInit (fun _ => 0) 4)
      [.call (.put [1, 2, 3] 3)]).map (fun rb => (rb.content, rb.bufferSize,
        (rb.rtRingbufferPutForce [4, 5] 2).map fun next => next.2.content)) =
        some ([1, 2, 3], 4, some []) := by
    decide +kernel
  obtain ⟨rb, hreach, hvalue⟩ := Machine.exists_reachable_of_run emptyBuffer_init hrun
  simp only [Prod.mk.injEq] at hvalue
  obtain ⟨hcontent, hsize, hforced⟩ := hvalue
  obtain ⟨⟨reply, rb'⟩, hput, hlost⟩ := Option.map_eq_some_iff.mp hforced
  refine ⟨rb, hreach, hcontent, reply, rb', hput, hlost, fun heq => ?_⟩
  rw [hlost, hcontent, hsize] at heq
  exact absurd heq (by decide)

end RingBuffer

end RtThread.Driver
