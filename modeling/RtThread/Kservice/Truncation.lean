import RtThread.Kservice.FormatText

namespace RtThread.Kservice

open RtThread.Lib Sink

def piecesOf (cfg : FormatConfig) (string : BitVec 32 → List UInt8) (fmt : List UInt8)
    (args : VaList) : List Piece :=
  (formatPieces cfg string (fmt.length + 1) fmt args).getD []

def piecesText (pieces : List Piece) : List UInt8 := pieces.flatMap (Piece.text true)

def formatText (cfg : FormatConfig) (string : BitVec 32 → List UInt8) (fmt : List UInt8)
    (args : VaList) : List UInt8 := piecesText (piecesOf cfg string fmt args)

def Piece.Padded : Piece → Prop
  | plain _ => False
  | signed _ _ _ size => 0 < size

/-- There is room for every sign with padding behind it; the text of the pieces starts at an
offset. -/
def SignsFit (room : Nat → Prop) : Nat → List Piece → Prop
  | _, [] => True
  | k, p :: ps =>
    (p.Padded → room (k + p.before.length)) ∧ SignsFit room (k + (p.text true).length) ps

section Store

variable {out : Sink} {c : UInt8} {text : List UInt8} {address i : Nat}

theorem Sink.mem_written_put :
    address ∈ (out.put c).written ↔
      address ∈ out.written ∨ address = out.str ∧ out.str ≤ out.strEnd := by
  unfold put
  split
  next h => simp [store, h, or_comm]
  next h => simp [h]

theorem Sink.mem_written_putAll (hfits : out.str + text.length ≤ 2 ^ 32) :
    address ∈ (out.putAll text).written ↔ address ∈ out.written ∨
      out.str ≤ address ∧ address < out.str + text.length ∧ address ≤ out.strEnd := by
  induction text generalizing out with
  | nil =>
    simp only [putAll_nil, List.length_nil]
    exact (or_iff_left (by omega)).symm
  | cons c text ih =>
    rw [List.length_cons] at hfits
    rw [putAll_cons, List.length_cons]
    cases text with
    | nil =>
      rw [putAll_nil, mem_written_put, List.length_nil]
      exact or_congr_right (by omega)
    | cons c' text =>
      have hnext : (out.put c).str = out.str + 1 := by
        rw [put_str, add32]
        rw [List.length_cons] at hfits
        omega
      rw [ih (by omega), mem_written_put, or_assoc, hnext, put_strEnd]
      exact or_congr_right (by omega)

theorem Sink.memory_put :
    (out.put c).memory i = if i = out.str ∧ i ≤ out.strEnd then c else out.memory i := by
  unfold put store
  split
  next h =>
    rcases eq_or_ne i out.str with rfl | hne
    · simp [h]
    · simp [hne]
  next h =>
    rw [if_neg]
    rintro ⟨rfl, hle⟩
    exact h hle

theorem Sink.memory_putAll (hfits : out.str + text.length ≤ 2 ^ 32) :
    (out.putAll text).memory i =
      if out.str ≤ i ∧ i ≤ out.strEnd then (text[i - out.str]?).getD (out.memory i)
      else out.memory i := by
  induction text generalizing out with
  | nil => simp
  | cons c text ih =>
    rw [List.length_cons] at hfits
    -- the rest of the text does not come to the address of `c`
    have hrest : ((out.put c).putAll text).memory i =
        if out.str + 1 ≤ i ∧ i ≤ out.strEnd then
          (text[i - (out.str + 1)]?).getD ((out.put c).memory i)
        else (out.put c).memory i := by
      cases text with
      | nil => simp
      | cons c' text =>
        have hnext : (out.put c).str = out.str + 1 := by
          rw [put_str, add32]
          rw [List.length_cons] at hfits
          omega
        rw [ih (by omega), hnext, put_strEnd]
    rw [putAll_cons, hrest, memory_put]
    rcases Nat.lt_trichotomy i out.str with hlt | rfl | hlt
    · rw [if_neg (by omega), if_neg (by omega), if_neg (by omega)]
    · simp
    · have hplace : i - out.str = i - (out.str + 1) + 1 := by omega
      rw [if_neg (show ¬ (i = out.str ∧ i ≤ out.strEnd) by omega), hplace, List.getElem?_cons_succ]
      simp only [Nat.succ_le_of_lt hlt, Nat.le_of_lt hlt, true_and]

end Store

section Lengths

variable {p : Piece} {pieces : List Piece} {stored : Nat → Bool} {k size : Int}

theorem NumberTail.length_text (tail : NumberTail) (size : Int) :
    (tail.text size).length = tail.special.length + tail.digits.length + size.toNat +
      if tail.left then 0 else (int32 (min size 0 - 1)).toNat := by
  unfold NumberTail.text padText
  cases tail.left
  · simp
    omega
  · simp
    omega

theorem piecesText_cons (p : Piece) (pieces : List Piece) :
    piecesText (p :: pieces) = p.text true ++ piecesText pieces := List.flatMap_cons

theorem arrivingText_of_stored {k : Nat}
    (hstored : ∀ j, k ≤ j → j < k + (piecesText pieces).length → stored j = true) :
    arrivingText stored k pieces = piecesText pieces := by
  induction pieces generalizing k with
  | nil => rfl
  | cons p ps ih =>
    rw [piecesText_cons, List.length_append] at hstored
    have htext : p.text (stored (k + p.before.length)) = p.text true := by
      cases p with
      | plain text => rfl
      | signed before sign tail size =>
        rw [hstored _ (by omega)]
        simp only [Piece.before, Piece.text, List.length_append, List.length_cons]
        omega
    rw [arrivingText, htext, ih fun j hfrom hto => hstored j (by omega) (by omega), piecesText_cons]

theorem SignsFit.congr {room room' : Nat → Prop} {k : Nat}
    (hsame : ∀ j, k ≤ j → j < k + (piecesText pieces).length → (room j ↔ room' j)) :
    SignsFit room k pieces ↔ SignsFit room' k pieces := by
  induction pieces generalizing k with
  | nil => exact Iff.rfl
  | cons p ps ih =>
    rw [piecesText_cons, List.length_append] at hsame
    refine and_congr (imp_congr_right fun hpadded => hsame _ (by omega) ?_)
      (ih fun j hfrom hto => hsame j (by omega) (by omega))
    cases p with
    | plain text => exact hpadded.elim
    | signed before sign tail size =>
      simp only [Piece.before, Piece.text, List.length_append, List.length_cons]
      omega

end Lengths

section Buffer

variable {cfg : FormatConfig} {string : BitVec 32 → List UInt8} {fmt : List UInt8}
  {args : VaList} {buf n : Nat} {memory : ByteMemory}

def storedText (buf n : Nat) (pieces : List Piece) : List UInt8 :=
  arrivingText (fun k => decide ((buf + k) % 2 ^ 32 ≤ bufferEnd buf n)) 0 pieces

theorem piecesOf_spec (cfg : FormatConfig) (string : BitVec 32 → List UInt8) (fmt : List UInt8)
    (args : VaList) : formatPieces cfg string (fmt.length + 1) fmt args =
      some (piecesOf cfg string fmt args) := by
  obtain ⟨pieces, hpieces⟩ := formatPieces_isSome cfg string fmt args (Nat.lt_succ_self _)
  rw [piecesOf, hpieces, Option.getD_some]

theorem rtVsnprintf_eq (hbuf : buf < 2 ^ 32) :
    rtVsnprintf cfg string buf n fmt args memory =
      let out := (mk buf (bufferEnd buf n) memory []).putAll
        (storedText buf n (piecesOf cfg string fmt args))
      some (int32 (sub32 out.str buf),
        out.store (if out.str ≤ bufferEnd buf n then out.str else bufferEnd buf n) 0) := by
  have hstart : (mk buf (bufferEnd buf n) memory []).str = (buf + 0) % 2 ^ 32 := by
    dsimp only
    omega
  rw [rtVsnprintf, formatLoop_eq, piecesOf_spec, Option.map_some, putPieces_eq _ hstart]
  simp only [Option.bind_eq_bind, Option.bind_some, putAll_strEnd]
  rfl

theorem le_bufferEnd_iff (hn : n < 2 ^ 32) (hpos : n ≠ 0) {k : Nat} (hk : buf + k < 2 ^ 32) :
    (buf + k) % 2 ^ 32 ≤ bufferEnd buf n ↔ k < n := by
  rw [bufferEnd, sub32, add32]
  split
  · omega
  · omega

theorem final_store (hn : n < 2 ^ 32) (hpos : n ≠ 0) {length : Nat}
    (hfits : buf + length < 2 ^ 32) :
    (if (buf + length) % 2 ^ 32 ≤ bufferEnd buf n then (buf + length) % 2 ^ 32
      else bufferEnd buf n) = buf + min (n - 1) length := by
  rw [bufferEnd, sub32, add32]
  split
  · split
    · omega
    · omega
  · split
    · omega
    · omega

theorem stored_of_fits (memory : ByteMemory) (hbuf : buf < 2 ^ 32) (hn : n < 2 ^ 32) (hpos : n ≠ 0)
    {text : List UInt8} (hfits : buf + text.length < 2 ^ 32) :
    let out := (mk buf (bufferEnd buf n) memory []).putAll text
    let final := out.store (if out.str ≤ bufferEnd buf n then out.str else bufferEnd buf n) 0
    (∀ address ∈ final.written, buf ≤ address ∧ address < buf + n) ∧
      (∀ i (hi : i < text.length), i < n - 1 → final.memory (buf + i) = text[i]) ∧
      final.memory (buf + min (n - 1) text.length) = 0 := by
  intro out final
  have hstart : (mk buf (bufferEnd buf n) memory []).str = (buf + 0) % 2 ^ 32 := by
    dsimp only
    omega
  have hstr : out.str = (buf + text.length) % 2 ^ 32 := by
    rw [putAll_str text hstart, Nat.zero_add]
  have hend : ∀ k, buf + k < 2 ^ 32 → ((buf + k) % 2 ^ 32 ≤ bufferEnd buf n ↔ k < n) :=
    fun k hk => le_bufferEnd_iff hn hpos hk
  have hfinal : final = out.store (buf + min (n - 1) text.length) 0 := by
    rw [← final_store hn hpos hfits, ← hstr]
  rw [hfinal]
  refine ⟨fun address hmem => ?_, fun i hi hbefore => ?_, ?_⟩
  · rcases List.mem_cons.mp hmem with rfl | hmem
    · omega
    · rw [mem_written_putAll (Nat.le_of_lt hfits)] at hmem
      obtain ⟨hfrom, hto, hle⟩ := hmem.resolve_left List.not_mem_nil
      dsimp only at hfrom hto hle
      have hoffset := hend (address - buf) (by omega)
      rw [Nat.add_sub_cancel' hfrom, Nat.mod_eq_of_lt (by omega)] at hoffset
      have hlt := hoffset.mp hle
      omega
  · have hle := (hend i (by omega)).mpr (by omega)
    rw [Nat.mod_eq_of_lt (by omega)] at hle
    simp only [store]
    rw [Function.update_of_ne (by omega), memory_putAll (Nat.le_of_lt hfits)]
    dsimp only
    rw [if_pos ⟨by omega, hle⟩, Nat.add_sub_cancel_left, List.getElem?_eq_getElem hi,
      Option.getD_some]
  · simp only [store, Function.update_self]

end Buffer

end RtThread.Kservice
