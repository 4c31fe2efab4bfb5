import RtThread.Serial.IntRx

namespace RtThread.Serial

open RtThread.Lib

/-! DMA mode: a queue of `bufsz` bytes that drops its oldest ones, as long as no index passes the
end of its 16 bits. -/

namespace RxFifo

def received (bufsz : Nat) (fifo : RxFifo) : List UInt8 :=
  ringContents fifo.buffer bufsz fifo.getIndex (fifo.calcRecvedLen bufsz)

structure DmaValid (bufsz : Nat) (fifo : RxFifo) : Prop where
  putIndex_lt : fifo.putIndex < bufsz
  getIndex_lt : fifo.getIndex < bufsz
  full : fifo.isFull = true → fifo.putIndex = fifo.getIndex

variable {bufsz length : Nat} {fifo fifo' : RxFifo} {bytes : List UInt8}

theorem received_length : (fifo.received bufsz).length = fifo.calcRecvedLen bufsz :=
  ringContents_length

theorem DmaValid.calcRecvedLen_le (hvalid : fifo.DmaValid bufsz) :
    fifo.calcRecvedLen bufsz ≤ bufsz := by
  have hput := hvalid.putIndex_lt
  have hget := hvalid.getIndex_lt
  unfold calcRecvedLen
  split_ifs <;> omega

theorem DmaValid.full_iff (hvalid : fifo.DmaValid bufsz) :
    fifo.isFull = true ↔ fifo.calcRecvedLen bufsz = bufsz := by
  have hput := hvalid.putIndex_lt
  have hget := hvalid.getIndex_lt
  have hfull := hvalid.full
  unfold calcRecvedLen
  cases hisFull : fifo.isFull with
  | false =>
    rw [if_pos rfl]
    constructor
    · intro h
      cases h
    · split_ifs <;> omega
  | true =>
    rw [if_pos (hfull hisFull)]
    simp

theorem DmaValid.putIndex_eq (hvalid : fifo.DmaValid bufsz) :
    (fifo.getIndex + fifo.calcRecvedLen bufsz) % bufsz = fifo.putIndex := by
  have hput := hvalid.putIndex_lt
  have hget := hvalid.getIndex_lt
  unfold calcRecvedLen
  split_ifs with hmeet hfull hahead
  · rw [Nat.add_zero, Nat.mod_eq_of_lt hget, hmeet]
  · rw [Nat.add_mod_right, Nat.mod_eq_of_lt hget, hmeet]
  · rw [Nat.add_sub_cancel' (by omega), Nat.mod_eq_of_lt hput]
  · rw [show fifo.getIndex + (bufsz - (fifo.getIndex - fifo.putIndex)) = fifo.putIndex + bufsz by omega,
      Nat.add_mod_right, Nat.mod_eq_of_lt hput]

theorem DmaValid.calcRecvedLen_eq (hvalid : fifo.DmaValid bufsz) {count : Nat}
    (hcount : count ≤ bufsz) (hfull : fifo.isFull = true ↔ count = bufsz)
    (hplace : (fifo.getIndex + count) % bufsz = fifo.putIndex) : fifo.calcRecvedLen bufsz = count := by
  have hle := hvalid.calcRecvedLen_le
  by_cases hall : count = bufsz
  · rw [hall, hvalid.full_iff.mp (hfull.mpr hall)]
  · have hnotAll : fifo.calcRecvedLen bufsz ≠ bufsz := fun h => hall (hfull.mp (hvalid.full_iff.mpr h))
    have hmod : fifo.getIndex + fifo.calcRecvedLen bufsz ≡ fifo.getIndex + count [MOD bufsz] :=
      hvalid.putIndex_eq.trans hplace.symm
    exact Nat.ModEq.eq_of_lt_of_lt (Nat.ModEq.add_left_cancel' _ hmod) (by omega) (by omega)

def behindEvent (bufsz put len : Nat) (fifo : RxFifo) : RxFifo :=
  { fifo with
    putIndex := put
    getIndex := if bufsz ≤ fifo.calcRecvedLen bufsz + len then put else fifo.getIndex
    isFull := decide (bufsz ≤ fifo.calcRecvedLen bufsz + len) }

theorem behindEvent_eq {put len : Nat} {isFull : Bool}
    (hfull : isFull = true ↔ bufsz ≤ fifo.calcRecvedLen bufsz + len) (hput : put < bufsz)
    (hget : fifo.getIndex < bufsz) :
    (let fifo := { fifo with putIndex := put, isFull := isFull }
     let fifo := if fifo.isFull then { fifo with getIndex := fifo.putIndex } else fifo
     if fifo.getIndex ≥ bufsz then { fifo with getIndex := 0 } else fifo) =
      fifo.behindEvent bufsz put len := by
  unfold behindEvent
  cases isFull with
  | false =>
    have hnot : ¬ bufsz ≤ fifo.calcRecvedLen bufsz + len := fun h => by cases hfull.mpr h
    dsimp only
    rw [if_neg Bool.false_ne_true, if_neg hnot, decide_eq_false hnot,
      if_neg (Nat.not_le_of_lt hget)]
  | true =>
    have hall := hfull.mp rfl
    dsimp only
    rw [if_pos rfl, if_pos hall, decide_eq_true hall, if_neg (Nat.not_le_of_lt hput)]

theorem DmaValid.updatePutIndex_eq (hvalid : fifo.DmaValid bufsz) {len : Nat} (hle : len ≤ bufsz)
    (hfits : fifo.putIndex + len < 65536) :
    fifo.updatePutIndex bufsz len = fifo.behindEvent bufsz ((fifo.putIndex + len) % bufsz) len := by
  have hput := hvalid.putIndex_lt
  have hget := hvalid.getIndex_lt
  have hplace : (fifo.putIndex + len) % bufsz < bufsz := Nat.mod_lt _ (by omega)
  have hadd : add16 fifo.putIndex len = fifo.putIndex + len := Nat.mod_eq_of_lt hfits
  -- the number of bytes there are
  have hcount : fifo.calcRecvedLen bufsz =
      if fifo.isFull then bufsz
      else if fifo.getIndex ≤ fifo.putIndex then fifo.putIndex - fifo.getIndex
      else bufsz - (fifo.getIndex - fifo.putIndex) := by
    have hfull := hvalid.full
    unfold calcRecvedLen
    cases hisFull : fifo.isFull with
    | false =>
      simp only [if_true, Bool.false_eq_true, if_false]
      split_ifs <;> omega
    | true =>
      rw [if_pos (hfull hisFull)]
      rfl
  have hmod : (fifo.putIndex + len) % bufsz =
      if bufsz ≤ fifo.putIndex + len then fifo.putIndex + len - bufsz else fifo.putIndex + len := by
    split
    next hround => rw [Nat.mod_eq_sub_mod hround, Nat.mod_eq_of_lt (by omega)]
    next hlow => rw [Nat.mod_eq_of_lt (by omega)]
  have hfull := hvalid.full
  unfold updatePutIndex
  dsimp only
  rw [hadd]
  by_cases hahead : fifo.getIndex ≤ fifo.putIndex
  · rw [if_pos hahead] at hcount ⊢
    by_cases hround : fifo.putIndex + len ≥ bufsz
    · rw [if_pos hround] at hmod ⊢
      by_cases hover : (fifo.putIndex + len) % bufsz ≥ fifo.getIndex
      · rw [if_pos hover]
        refine behindEvent_eq ?_ hplace hget
        rw [hcount]
        split_ifs
        · simp
        · simp
          omega
      · rw [if_neg hover]
        refine behindEvent_eq ?_ hplace hget
        rw [hcount]
        cases hisFull : fifo.isFull <;> simp
        · omega
    · rw [if_neg hround] at hmod ⊢
      rw [hmod] at hplace ⊢
      refine behindEvent_eq ?_ hplace hget
      rw [hcount]
      cases hisFull : fifo.isFull <;> simp
      · omega
  · rw [if_neg hahead] at hcount ⊢
    have hnotFull : fifo.isFull = false := by
      by_contra h
      have hmeet := hfull (Bool.eq_true_of_not_eq_false h)
      omega
    rw [hnotFull, if_neg Bool.false_ne_true] at hcount
    by_cases hover : fifo.putIndex + len ≥ fifo.getIndex
    · rw [if_pos hover]
      by_cases hround : fifo.putIndex + len ≥ bufsz
      · rw [if_pos hround]
        refine behindEvent_eq ?_ hplace hget
        rw [hcount]
        simp
        omega
      · rw [if_neg hround] at hmod ⊢
        rw [hmod] at hplace ⊢
        refine behindEvent_eq ?_ hplace hget
        rw [hcount]
        simp
        omega
    · rw [if_neg hover]
      rw [if_neg (show ¬ fifo.putIndex + len ≥ bufsz by omega)] at hmod
      rw [hmod] at hplace ⊢
      refine behindEvent_eq ?_ hplace hget
      rw [hcount, hnotFull]
      simp
      omega

theorem DmaValid.behindEvent (hvalid : fifo.DmaValid bufsz) {put len : Nat} (hput : put < bufsz)
    (hplace : put = (fifo.putIndex + len) % bufsz) :
    (fifo.behindEvent bufsz put len).DmaValid bufsz ∧
      (fifo.behindEvent bufsz put len).calcRecvedLen bufsz =
        min bufsz (fifo.calcRecvedLen bufsz + len) ∧
      (fifo.behindEvent bufsz put len).getIndex =
        (fifo.getIndex + (fifo.calcRecvedLen bufsz + len - bufsz)) % bufsz := by
  have hget := hvalid.getIndex_lt
  have hround : put = (fifo.getIndex + (fifo.calcRecvedLen bufsz + len)) % bufsz := by
    rw [hplace, ← hvalid.putIndex_eq, Nat.mod_add_mod, Nat.add_assoc]
  have hcount := hvalid.calcRecvedLen_le
  unfold RxFifo.behindEvent
  by_cases hall : bufsz ≤ fifo.calcRecvedLen bufsz + len
  · rw [if_pos hall, decide_eq_true hall]
    have hvalid' : DmaValid bufsz ⟨fifo.buffer, put, put, true⟩ := ⟨hput, hput, fun _ => rfl⟩
    refine ⟨hvalid', ?_, ?_⟩
    · rw [Nat.min_eq_left hall]
      exact hvalid'.full_iff.mp rfl
    · show put = _
      rw [hround, ← Nat.add_sub_assoc hall, ← Nat.mod_eq_sub_mod (by omega)]
  · rw [if_neg hall, decide_eq_false hall]
    have hvalid' : DmaValid bufsz ⟨fifo.buffer, put, fifo.getIndex, false⟩ :=
      ⟨hput, hget, fun h => by cases h⟩
    refine ⟨hvalid', ?_, ?_⟩
    · rw [Nat.min_eq_right (by omega)]
      refine hvalid'.calcRecvedLen_eq (by omega) ?_ hround.symm
      constructor
      · intro h
        cases h
      · omega
    · have hnone : fifo.calcRecvedLen bufsz + len - bufsz = 0 := by omega
      rw [hnone, Nat.add_zero, Nat.mod_eq_of_lt hget]

theorem DmaValid.dmaDone (hvalid : fifo.DmaValid bufsz)
    (hle : bytes.length ≤ bufsz) (hfits : fifo.putIndex + bytes.length < 65536) :
    (fifo.dmaDone bufsz bytes).DmaValid bufsz ∧
      (fifo.dmaDone bufsz bytes).received bufsz = (fifo.received bufsz ++ bytes).rtake bufsz := by
  have hput := hvalid.putIndex_lt
  have hplace : (fifo.putIndex + bytes.length) % bufsz < bufsz := Nat.mod_lt _ (by omega)
  have hstored : DmaValid bufsz
      { fifo with buffer := storeRing fifo.buffer bufsz fifo.putIndex bytes } :=
    ⟨hput, hvalid.getIndex_lt, hvalid.full⟩
  obtain ⟨hvalid', hcount, hget⟩ := hstored.behindEvent hplace rfl
  unfold RxFifo.dmaDone
  rw [hstored.updatePutIndex_eq hle hfits]
  refine ⟨hvalid', ?_⟩
  have hcell : fifo.putIndex % bufsz = (fifo.getIndex + fifo.calcRecvedLen bufsz) % bufsz := by
    rw [hvalid.putIndex_eq, Nat.mod_eq_of_lt hput]
  have hkept := ringContents_storeRing fifo.buffer hvalid.getIndex_lt
    hvalid.calcRecvedLen_le bytes
  rw [received, received, ← hkept, hget, hcount, ← storeRing_congr hcell]
  rfl

theorem DmaValid.serialDmaRx (hvalid : fifo.DmaValid bufsz)
    (hfits : fifo.getIndex + min length (fifo.calcRecvedLen bufsz) < 65536) :
    ∃ fifo', fifo.serialDmaRx bufsz length =
        some ((fifo.received bufsz).take (min length (fifo.received bufsz).length), fifo') ∧
      fifo'.DmaValid bufsz ∧
      fifo'.received bufsz =
        (fifo.received bufsz).drop (min length (fifo.received bufsz).length) := by
  have hput := hvalid.putIndex_lt
  have hget := hvalid.getIndex_lt
  have hle := hvalid.calcRecvedLen_le
  have hround := hvalid.putIndex_eq
  have hmin : (if length < fifo.calcRecvedLen bufsz then length else fifo.calcRecvedLen bufsz) =
      min length (fifo.calcRecvedLen bufsz) := by
    split <;> omega
  unfold RxFifo.serialDmaRx
  dsimp only
  rw [hmin, received_length]
  generalize hrecv : min length (fifo.calcRecvedLen bufsz) = recvLen at *
  have hrecvLe : recvLen ≤ fifo.calcRecvedLen bufsz := by omega
  have hadd : add16 fifo.getIndex recvLen = fifo.getIndex + recvLen := Nat.mod_eq_of_lt hfits
  have hdata : (if fifo.getIndex + recvLen < bufsz then
        loadCells fifo.buffer fifo.getIndex recvLen
      else
        loadCells fifo.buffer fifo.getIndex (bufsz - fifo.getIndex) ++
          loadCells fifo.buffer 0 (recvLen + fifo.getIndex - bufsz)) =
      (fifo.received bufsz).take recvLen := by
    rw [received, ringContents_take hrecvLe]
    split
    next hlow => rw [ringContents_eq_loadCells (by omega)]
    next hhigh =>
      rw [ringContents_eq_loadCells_wrap (by omega) (by omega) (by omega)]
      congr 2
      omega
  have hindex : (if fifo.getIndex + recvLen ≥ bufsz then (fifo.getIndex + recvLen) % bufsz
      else fifo.getIndex + recvLen) = (fifo.getIndex + recvLen) % bufsz := by
    split
    · rfl
    · rw [Nat.mod_eq_of_lt (by omega)]
  have hcall : fifo.updateGetIndex bufsz recvLen =
      some { fifo with
        getIndex := (fifo.getIndex + recvLen) % bufsz
        isFull := if fifo.isFull ∧ recvLen ≠ 0 then false else fifo.isFull } := by
    unfold updateGetIndex
    rw [if_pos hrecvLe, ← hindex]
    by_cases htaken : fifo.isFull = true ∧ recvLen ≠ 0
    · simp only [if_pos htaken, hadd]
      split <;> rfl
    · simp only [if_neg htaken, hadd]
      split <;> rfl
  rw [hdata, hcall]
  have hplace : (fifo.getIndex + recvLen) % bufsz < bufsz := Nat.mod_lt _ (by omega)
  have hleft : ((fifo.getIndex + recvLen) % bufsz + (fifo.calcRecvedLen bufsz - recvLen)) % bufsz =
      fifo.putIndex := by
    rw [Nat.mod_add_mod, Nat.add_assoc, Nat.add_sub_cancel' hrecvLe, hround]
  have hfull := hvalid.full_iff
  have hvalid' : DmaValid bufsz { fifo with
      getIndex := (fifo.getIndex + recvLen) % bufsz
      isFull := if fifo.isFull ∧ recvLen ≠ 0 then false else fifo.isFull } := by
    refine ⟨hput, hplace, fun h => ?_⟩
    dsimp only at h ⊢
    split at h
    · cases h
    next hnot =>
      have hnone : recvLen = 0 := by
        by_contra hsome
        exact hnot ⟨h, hsome⟩
      rw [hnone, Nat.add_zero, Nat.mod_eq_of_lt hget]
      exact hvalid.full h
  have hcount := hvalid'.calcRecvedLen_eq
    (show fifo.calcRecvedLen bufsz - recvLen ≤ bufsz by omega)
    (by
      dsimp only
      split
      next h =>
        constructor
        · intro hfalse
          cases hfalse
        · omega
      next hnot =>
        rw [hfull]
        constructor
        · intro hall
          have hnone : recvLen = 0 := by
            by_contra hsome
            exact hnot ⟨hfull.mpr hall, hsome⟩
          omega
        · omega) hleft
  refine ⟨_, rfl, hvalid', ?_⟩
  rw [received, received, ringContents_drop hrecvLe, hcount]

/-- What the claim on one step is, for a step that the controller or a reader can take. -/
def DmaStepOk (bufsz : Nat) (fifo : RxFifo) : DmaOp → Prop
  | .done bytes => 1 ≤ bytes.length → bytes.length ≤ bufsz →
      (fifo.dmaDone bufsz bytes).received bufsz =
        (fifo.received bufsz ++ bytes).rtake (min bufsz ((fifo.received bufsz).length + bytes.length))
  | .read length => ∃ fifo', fifo.serialDmaRx bufsz length =
        some ((fifo.received bufsz).take (min length (fifo.received bufsz).length), fifo') ∧
      fifo'.received bufsz = (fifo.received bufsz).drop (min length (fifo.received bufsz).length)

def InRange (bufsz : Nat) (fifo : RxFifo) : DmaOp → Prop
  | .done bytes => fifo.putIndex + bytes.length < 65536
  | .read length => fifo.getIndex + min length (fifo.calcRecvedLen bufsz) < 65536

instance (bufsz : Nat) (fifo : RxFifo) : (op : DmaOp) → Decidable (fifo.InRange bufsz op)
  | .done _ => inferInstanceAs (Decidable (_ < _))
  | .read _ => inferInstanceAs (Decidable (_ < _))

structure DmaShape (bufsz : Nat) (fifo : RxFifo) : Prop where
  indices : fifo.putIndex < bufsz ∧ fifo.getIndex < bufsz
  full : fifo.isFull = true ↔ (fifo.received bufsz).length = bufsz

theorem DmaValid.stepOk (hvalid : fifo.DmaValid bufsz) {op : DmaOp}
    (hrange : fifo.InRange bufsz op) : fifo.DmaStepOk bufsz op := by
  cases op with
  | done bytes =>
    intro _ hle
    rw [← List.length_append, rtake_min_length]
    exact (hvalid.dmaDone hle hrange).2
  | read length =>
    obtain ⟨fifo', hcall, -, hleft⟩ := hvalid.serialDmaRx hrange
    exact ⟨fifo', hcall, hleft⟩

theorem DmaValid.step (hvalid : fifo.DmaValid bufsz) {op : DmaOp}
    (hrange : fifo.InRange bufsz op) (hexec : (dmaRxMachine bufsz).exec fifo op = some fifo') :
    fifo'.DmaValid bufsz := by
  cases op with
  | done bytes =>
    simp only [dmaRxMachine] at hexec
    split at hexec
    next hlen =>
      cases hexec
      exact (hvalid.dmaDone hlen.2 hrange).1
    · cases hexec
  | read length =>
    obtain ⟨after, hcall, hvalid', -⟩ := hvalid.serialDmaRx hrange
    simp only [dmaRxMachine, hcall, Option.map_some, Option.some.injEq] at hexec
    exact hexec ▸ hvalid'

/-- For every buffer size and every interleaving in which no index passes its end; none can in a
buffer of at most half the range. -/
theorem reachable_dmaStepOk (hsize : 1 ≤ bufsz)
    (hreach : (dmaRxMachine bufsz).Reachable (fun fifo op => fifo.InRange bufsz op) fifo) :
    fifo.DmaShape bufsz ∧ (∀ op, fifo.InRange bufsz op → fifo.DmaStepOk bufsz op) ∧
      (bufsz ≤ 32768 → ∀ op, ((dmaRxMachine bufsz).exec fifo op).isSome → fifo.InRange bufsz op) := by
  have hvalid : fifo.DmaValid bufsz := by
    refine hreach.invariant (fun fifo => fifo.DmaValid bufsz) (fun fifo hinit => ?_)
      (fun fifo op fifo' hvalid hrange hexec => hvalid.step hrange hexec)
    rw [hinit]
    exact ⟨hsize, hsize, fun h => by cases h⟩
  have hput := hvalid.putIndex_lt
  have hget := hvalid.getIndex_lt
  have hcount := hvalid.calcRecvedLen_le
  refine ⟨⟨⟨hput, hget⟩, received_length ▸ hvalid.full_iff⟩, fun op hrange => hvalid.stepOk hrange,
    fun hsmall op henabled => ?_⟩
  cases op with
  | done bytes =>
    simp only [dmaRxMachine] at henabled
    split at henabled
    next hlen => exact show fifo.putIndex + bytes.length < 65536 by omega
    · cases henabled
  | read length => exact show fifo.getIndex + min length (fifo.calcRecvedLen bufsz) < 65536 by omega

def circularRun : List DmaOp :=
  [.done [1, 2, 3], .read 1, .done [4, 5, 6], .read 2, .done [7, 8], .done [9, 10]]

theorem reachable_dmaStepOk_circularRun :
    ∃ fifo, (dmaRxMachine 4).Reachable (fun fifo op => fifo.InRange 4 op) fifo ∧
      fifo.received 4 = [7, 8, 9, 10] ∧ fifo.DmaShape 4 ∧ fifo.DmaStepOk 4 (.read 3) := by
  have hrun : ((dmaRxMachine 4).run (fun fifo op => fifo.InRange 4 op) opened circularRun).map
      (fun fifo => (fifo.received 4, decide (fifo.InRange 4 (.read 3)))) =
      some ([7, 8, 9, 10], true) := by
    decide +kernel
  obtain ⟨fifo, hreach, hvalue⟩ := Machine.exists_reachable_of_run
    (show (dmaRxMachine 4).init opened from rfl) hrun
  simp only [Prod.mk.injEq, decide_eq_true_eq] at hvalue
  have hlaws := reachable_dmaStepOk (by decide) hreach
  exact ⟨fifo, hreach, hvalue.1, hlaws.1, hlaws.2.1 _ hvalue.2⟩

theorem opened_dmaDone {len : Nat} (hlen : bytes.length = len) (hlow : len < bufsz)
    (hfits : len < 65536) :
    opened.dmaDone bufsz bytes = ⟨storeRing (fun _ => 0) bufsz 0 bytes, len, 0, false⟩ := by
  have hadd : add16 0 len = len := by
    rw [add16, Nat.zero_add, Nat.mod_eq_of_lt hfits]
  unfold RxFifo.dmaDone updatePutIndex opened
  dsimp only
  rw [hlen, hadd, if_pos (Nat.le_refl 0), if_neg (Nat.not_le_of_lt hlow), if_neg Bool.false_ne_true]
  exact if_neg (show ¬ 0 ≥ bufsz by omega)

/-- A second event takes `put_index` past the end of its 16 bits: 14464 bytes are left of 60000. -/
theorem wrapped_not_dmaStepOk :
    ∃ fifo, (dmaRxMachine 60000).Reachable (fun _ _ => True) fifo ∧
      ∃ bytes, bytes.length = 40000 ∧ ¬ fifo.DmaStepOk 60000 (.done bytes) := by
  obtain ⟨bytes, hbytes⟩ : ∃ bytes : List UInt8, bytes.length = 40000 :=
    ⟨List.replicate 40000 0, List.length_replicate ..⟩
  have hfirst := opened_dmaDone hbytes (show 40000 < 60000 by decide) (by decide)
  have hexec : (dmaRxMachine 60000).exec opened (.done bytes) = some (opened.dmaDone 60000 bytes) :=
    if_pos (by omega)
  refine ⟨_, .step (.start rfl) trivial hexec, bytes, hbytes, fun hok => ?_⟩
  rw [hfirst] at hok
  have hlength := congrArg List.length (hok (by omega) (by omega))
  have hadd : add16 40000 40000 = 14464 := by decide
  rw [received_length, length_rtake, List.length_append, received_length, RxFifo.dmaDone,
    updatePutIndex] at hlength
  dsimp only at hlength
  rw [hbytes, hadd] at hlength
  simp [calcRecvedLen] at hlength

end RxFifo

end RtThread.Serial
