import RtThread.Serial.RxFifo

namespace RtThread.Serial

open Function RtThread.Lib

namespace RxFifo

def span (bufsz : Nat) (fifo : RxFifo) : Nat :=
  (fifo.putIndex + bufsz - fifo.getIndex) % bufsz

def content (bufsz : Nat) (fifo : RxFifo) : List UInt8 :=
  ringContents fifo.buffer bufsz fifo.getIndex (fifo.span bufsz)

structure IntValid (bufsz : Nat) (fifo : RxFifo) : Prop where
  putIndex_lt : fifo.putIndex < bufsz
  getIndex_lt : fifo.getIndex < bufsz
  full : fifo.isFull = true → fifo.span bufsz = bufsz - 1

def next (bufsz index : Nat) : Nat := if add16 index 1 ≥ bufsz then 0 else add16 index 1

variable {bufsz : Nat} {fifo fifo' : RxFifo}

section Indices

variable {index : Nat}

theorem next_eq (hindex : index < bufsz) (hlt : bufsz ≤ 65535) :
    next bufsz index = if index + 1 = bufsz then 0 else index + 1 := by
  have hadd : add16 index 1 = index + 1 := Nat.mod_eq_of_lt (by omega)
  unfold next
  rw [hadd]
  split_ifs <;> omega

theorem next_lt (hindex : index < bufsz) (hlt : bufsz ≤ 65535) : next bufsz index < bufsz := by
  rw [next_eq hindex hlt]
  split <;> omega

theorem next_eq_mod (hindex : index < bufsz) (hlt : bufsz ≤ 65535) :
    next bufsz index = (index + 1) % bufsz := by
  rw [next_eq hindex hlt]
  split
  next heq => rw [heq, Nat.mod_self]
  · rw [Nat.mod_eq_of_lt (by omega)]

theorem receive_eq (bufsz : Nat) (ch : UInt8) (fifo : RxFifo) :
    fifo.receive bufsz ch =
      { buffer := update fifo.buffer fifo.putIndex ch
        putIndex := next bufsz fifo.putIndex
        getIndex := if next bufsz fifo.putIndex = fifo.getIndex then next bufsz fifo.getIndex
          else fifo.getIndex
        isFull := if next bufsz fifo.putIndex = fifo.getIndex then true else fifo.isFull } := by
  unfold receive next
  dsimp only
  split_ifs <;> rfl

theorem takeChar_eq (bufsz : Nat) (fifo : RxFifo) :
    fifo.takeChar bufsz =
      if fifo.getIndex = fifo.putIndex ∧ fifo.isFull = false then none
      else some (fifo.buffer fifo.getIndex,
        { fifo with getIndex := next bufsz fifo.getIndex, isFull := false }) := by
  unfold takeChar next
  dsimp only
  split
  · rfl
  · cases hfull : fifo.isFull <;> split_ifs <;> simp_all

end Indices

theorem span_value {put get : Nat} (hput : put < bufsz) (hget : get < bufsz) :
    (put + bufsz - get) % bufsz = if get ≤ put then put - get else bufsz - (get - put) := by
  split
  next hle => rw [Nat.sub_add_comm hle, Nat.add_mod_right, Nat.mod_eq_of_lt (by omega)]
  next hlt =>
    rw [Nat.mod_eq_of_lt (by omega)]
    omega

theorem span_eq (hput : fifo.putIndex < bufsz) (hget : fifo.getIndex < bufsz) :
    fifo.span bufsz = if fifo.getIndex ≤ fifo.putIndex then fifo.putIndex - fifo.getIndex
      else bufsz - (fifo.getIndex - fifo.putIndex) := span_value hput hget

theorem IntValid.span_lt (hvalid : fifo.IntValid bufsz) : fifo.span bufsz < bufsz :=
  Nat.mod_lt _ (Nat.zero_lt_of_lt hvalid.putIndex_lt)

theorem IntValid.putIndex_eq (hvalid : fifo.IntValid bufsz) :
    (fifo.getIndex + fifo.span bufsz) % bufsz = fifo.putIndex := by
  have hput := hvalid.putIndex_lt
  have hget := hvalid.getIndex_lt
  rw [span_eq hput hget]
  split
  next hle => rw [Nat.add_sub_cancel' hle, Nat.mod_eq_of_lt hput]
  next hlt =>
    rw [show fifo.getIndex + (bufsz - (fifo.getIndex - fifo.putIndex)) = fifo.putIndex + bufsz by omega,
      Nat.add_mod_right, Nat.mod_eq_of_lt hput]

theorem content_length : (fifo.content bufsz).length = fifo.span bufsz := ringContents_length

theorem IntValid.receive (hvalid : fifo.IntValid bufsz) (hsize : 2 ≤ bufsz) (hlt : bufsz ≤ 65535)
    (ch : UInt8) : (fifo.receive bufsz ch).IntValid bufsz ∧
      (fifo.receive bufsz ch).content bufsz = (fifo.content bufsz ++ [ch]).rtake (bufsz - 1) := by
  have hput := hvalid.putIndex_lt
  have hget := hvalid.getIndex_lt
  have hspan := hvalid.span_lt
  have hplace := hvalid.putIndex_eq
  have hold := span_eq hput hget
  have hnextPut := next_eq hput hlt
  have hnextGet := next_eq hget hlt
  have hputLt := next_lt hput hlt
  have hgetLt := next_lt hget hlt
  have hadded : ringContents (update fifo.buffer fifo.putIndex ch) bufsz fifo.getIndex
      (fifo.span bufsz + 1) = fifo.content bufsz ++ [ch] := by
    rw [content, ← ringContents_put hspan ch, hplace]
  rw [receive_eq]
  by_cases hmeet : next bufsz fifo.putIndex = fifo.getIndex
  · rw [if_pos hmeet, if_pos hmeet]
    have hfull : fifo.span bufsz = bufsz - 1 := by
      rw [hold]
      rw [hnextPut] at hmeet
      split_ifs at hmeet ⊢ <;> omega
    have hspan' : (⟨update fifo.buffer fifo.putIndex ch, next bufsz fifo.putIndex,
        next bufsz fifo.getIndex, true⟩ : RxFifo).span bufsz = bufsz - 1 := by
      rw [span, span_value hputLt hgetLt, hnextGet, hmeet]
      split_ifs <;> omega
    refine ⟨⟨hputLt, hgetLt, fun _ => hspan'⟩, ?_⟩
    have hcount : fifo.span bufsz + 1 - 1 = bufsz - 1 := by omega
    have htail := congrArg List.tail hadded
    rw [ringContents_tail hget (Nat.succ_pos _), hcount, ← next_eq_mod hget hlt] at htail
    have hlength : (fifo.content bufsz).length = bufsz - 1 := content_length.trans hfull
    rw [rtake_concat_of_full hlength (by omega), ← List.tail_append_of_ne_nil
      (List.ne_nil_of_length_pos (by omega)), ← htail, content, hspan']
  · rw [if_neg hmeet, if_neg hmeet]
    have hnotFull : fifo.span bufsz + 1 < bufsz := by
      rw [hold]
      rw [hnextPut] at hmeet
      split_ifs at hmeet ⊢ <;> omega
    have hspan' : (⟨update fifo.buffer fifo.putIndex ch, next bufsz fifo.putIndex,
        fifo.getIndex, fifo.isFull⟩ : RxFifo).span bufsz = fifo.span bufsz + 1 := by
      rw [span, span_value hputLt hget, hold]
      rw [hnextPut] at hmeet ⊢
      split_ifs at hmeet ⊢ <;> omega
    refine ⟨⟨hputLt, hget, fun hisFull => ?_⟩, ?_⟩
    · have hfull := hvalid.full hisFull
      omega
    · rw [content, hspan']
      dsimp only
      rw [hadded, rtake_of_length_le]
      rw [List.length_append, content_length, List.length_singleton]
      omega

theorem IntValid.takeChar (hvalid : fifo.IntValid bufsz) (hsize : 2 ≤ bufsz) (hlt : bufsz ≤ 65535) :
    (fifo.takeChar bufsz = none ∧ fifo.content bufsz = []) ∨
    ∃ ch fifo', fifo.takeChar bufsz = some (ch, fifo') ∧ fifo'.IntValid bufsz ∧
      fifo.content bufsz = ch :: fifo'.content bufsz := by
  have hput := hvalid.putIndex_lt
  have hget := hvalid.getIndex_lt
  have hold := span_eq hput hget
  have hnextGet := next_eq hget hlt
  have hgetLt := next_lt hget hlt
  rw [takeChar_eq]
  by_cases hempty : fifo.getIndex = fifo.putIndex
  · have hnone : fifo.span bufsz = 0 := by
      rw [hold]
      split_ifs <;> omega
    have hnotFull : fifo.isFull = false := by
      by_contra hfull
      have hspan := hvalid.full (Bool.eq_true_of_not_eq_false hfull)
      omega
    left
    rw [if_pos ⟨hempty, hnotFull⟩]
    exact ⟨rfl, by rw [content, hnone]; rfl⟩
  · right
    rw [if_neg fun h => hempty h.1]
    have hspan' : fifo.span bufsz =
        ({ fifo with getIndex := next bufsz fifo.getIndex, isFull := false } : RxFifo).span bufsz + 1 := by
      rw [hold, span, span_value hput hgetLt, hnextGet]
      split_ifs <;> omega
    refine ⟨_, _, rfl, ⟨hput, hgetLt, fun h => by cases h⟩, ?_⟩
    rw [content, hspan', ringContents_get hget, ← next_eq_mod hget hlt]
    rfl

theorem IntValid.serialIntRx (hvalid : fifo.IntValid bufsz) (hsize : 2 ≤ bufsz)
    (hlt : bufsz ≤ 65535) (length : Nat) :
    (fifo.serialIntRx bufsz length).2.IntValid bufsz ∧
      (fifo.serialIntRx bufsz length).1 = (fifo.content bufsz).take length ∧
      (fifo.serialIntRx bufsz length).2.content bufsz = (fifo.content bufsz).drop length := by
  induction length generalizing fifo with
  | zero => exact ⟨hvalid, rfl, rfl⟩
  | succ length ih =>
    rw [RxFifo.serialIntRx]
    rcases hvalid.takeChar hsize hlt with ⟨hnone, hempty⟩ | ⟨ch, fifo', hsome, hvalid', hcontent⟩
    · rw [hnone]
      dsimp only
      rw [hempty]
      exact ⟨hvalid, rfl, rfl⟩
    · rw [hsome, hcontent]
      obtain ⟨hrest, hdata, hleft⟩ := ih hvalid'
      exact ⟨hrest, congrArg (ch :: ·) hdata, hleft⟩

theorem IntValid.lengths (hvalid : fifo.IntValid bufsz) (hsize : 2 ≤ bufsz) :
    fifo.calcRecvedLen bufsz = (fifo.content bufsz).length ∧
      fifo.rxLength bufsz = (fifo.content bufsz).length := by
  have hput := hvalid.putIndex_lt
  have hget := hvalid.getIndex_lt
  have hold := span_eq hput hget
  have hfull := hvalid.full
  rw [content_length]
  unfold calcRecvedLen rxLength
  cases hisFull : fifo.isFull with
  | false =>
    rw [hold]
    constructor
    · rw [if_pos rfl]
      split_ifs <;> omega
    · rfl
  | true =>
    have hspan := hfull hisFull
    have hne : fifo.putIndex ≠ fifo.getIndex := by
      rw [hold] at hspan
      split_ifs at hspan <;> omega
    rw [if_neg hne, hold]
    constructor
    · split_ifs <;> omega
    · rfl

structure IntLaws (bufsz : Nat) (fifo : RxFifo) : Prop where
  indices : fifo.putIndex < bufsz ∧ fifo.getIndex < bufsz
  full : fifo.isFull = true → (fifo.content bufsz).length = bufsz - 1
  recved : fifo.calcRecvedLen bufsz = (fifo.content bufsz).length
  indicated : fifo.rxLength bufsz = (fifo.content bufsz).length
  receive : ∀ ch, (fifo.receive bufsz ch).content bufsz =
    (fifo.content bufsz ++ [ch]).rtake (min (bufsz - 1) ((fifo.content bufsz).length + 1))
  turn : match fifo.takeChar bufsz with
    | none => fifo.content bufsz = []
    | some (ch, fifo') => fifo.content bufsz = ch :: fifo'.content bufsz
  read : ∀ length,
    (fifo.serialIntRx bufsz length).1 =
        (fifo.content bufsz).take (min length (fifo.content bufsz).length) ∧
      (fifo.serialIntRx bufsz length).2.content bufsz =
        (fifo.content bufsz).drop (min length (fifo.content bufsz).length)

theorem opened_intValid (hsize : 2 ≤ bufsz) : opened.IntValid bufsz :=
  ⟨by dsimp only [opened]; omega, by dsimp only [opened]; omega, fun h => by cases h⟩

theorem take_min_length {α : Type u} (values : List α) (length : Nat) :
    values.take (min length values.length) = values.take length ∧
      values.drop (min length values.length) = values.drop length := by
  rcases Nat.le_total length values.length with hle | hle
  · rw [Nat.min_eq_left hle]
    exact ⟨rfl, rfl⟩
  · rw [Nat.min_eq_right hle, List.take_length, List.drop_length, List.take_of_length_le hle,
      List.drop_of_length_le hle]
    exact ⟨rfl, rfl⟩

theorem rtake_min_length {α : Type u} (values : List α) (bound : Nat) :
    values.rtake (min bound values.length) = values.rtake bound := by
  rcases Nat.le_total bound values.length with hle | hle
  · rw [Nat.min_eq_left hle]
  · rw [Nat.min_eq_right hle, rtake_of_length_le (Nat.le_refl _), rtake_of_length_le hle]

theorem IntValid.laws (hvalid : fifo.IntValid bufsz) (hsize : 2 ≤ bufsz) (hlt : bufsz ≤ 65535) :
    fifo.IntLaws bufsz := by
  obtain ⟨hrecved, hindicated⟩ := hvalid.lengths hsize
  refine ⟨⟨hvalid.putIndex_lt, hvalid.getIndex_lt⟩, fun hfull => content_length.trans (hvalid.full hfull),
    hrecved, hindicated, fun ch => ?_, ?_, fun length => ?_⟩
  · have hlength : (fifo.content bufsz).length + 1 = (fifo.content bufsz ++ [ch]).length := by simp
    rw [hlength, rtake_min_length]
    exact (hvalid.receive hsize hlt ch).2
  · rcases hvalid.takeChar hsize hlt with ⟨hnone, hempty⟩ | ⟨ch, fifo', hsome, -, hcontent⟩
    · rw [hnone]
      exact hempty
    · rw [hsome]
      exact hcontent
  · obtain ⟨htake, hdrop⟩ := take_min_length (fifo.content bufsz) length
    rw [htake, hdrop]
    exact (hvalid.serialIntRx hsize hlt length).2

theorem IntValid.step (hvalid : fifo.IntValid bufsz) (hsize : 2 ≤ bufsz) (hlt : bufsz ≤ 65535)
    {op : IntOp} (hexec : (intRxMachine bufsz).exec fifo op = some fifo') :
    fifo'.IntValid bufsz := by
  cases op with
  | receive ch =>
    cases hexec
    exact (hvalid.receive hsize hlt ch).1
  | turn =>
    simp only [intRxMachine] at hexec
    rcases hvalid.takeChar hsize hlt with ⟨hnone, -⟩ | ⟨ch, after, hsome, hvalid', -⟩
    · rw [hnone] at hexec
      cases hexec
      exact hvalid
    · rw [hsome] at hexec
      cases hexec
      exact hvalid'
  | read length =>
    cases hexec
    exact (hvalid.serialIntRx hsize hlt length).1

/-- For every buffer size and every interleaving. -/
theorem reachable_intLaws (hsize : 2 ≤ bufsz) (hlt : bufsz ≤ 65535)
    (hreach : (intRxMachine bufsz).Reachable (fun _ _ => True) fifo) : fifo.IntLaws bufsz := by
  have hvalid : fifo.IntValid bufsz := by
    refine hreach.invariant (fun fifo => fifo.IntValid bufsz) (fun fifo hinit => ?_)
      (fun fifo op fifo' hvalid _ hexec => hvalid.step hsize hlt hexec)
    rw [hinit]
    exact opened_intValid hsize
  exact hvalid.laws hsize hlt

def overrunRun : List IntOp :=
  [.receive 1, .receive 2, .turn, .receive 3, .receive 4, .receive 5, .receive 6, .read 2]

theorem reachable_intLaws_overrunRun :
    ∃ fifo, (intRxMachine 5).Reachable (fun _ _ => True) fifo ∧ fifo.content 5 = [5, 6] ∧
      fifo.IntLaws 5 := by
  have hrun : ((intRxMachine 5).run (fun _ _ => True) opened overrunRun).map
      (fun fifo => fifo.content 5) = some [5, 6] := by
    decide
  obtain ⟨fifo, hreach, hvalue⟩ := Machine.exists_reachable_of_run
    (show (intRxMachine 5).init opened from rfl) hrun
  exact ⟨fifo, hreach, hvalue, reachable_intLaws (by decide) (by decide) hreach⟩

end RxFifo

end RtThread.Serial
