import RtThread.Kservice.IntegerText

namespace RtThread.Kservice

open RtThread.Lib

namespace IntegerDirective

variable (cfg : FormatConfig) (string : BitVec 32 → List UInt8) (dir : IntegerDirective)
  (value : BitVec 32) (rest : VaList)

theorem length_special_le : (dir.special cfg).length ≤ 2 := by
  unfold special
  split
  · cases dir.conversion <;> decide
  · exact Nat.zero_le _

theorem least_lt (precision : Precision) : precision.least < 2 ^ 31 := by
  cases precision with
  | none => decide
  | point => decide
  | digits p hlt => exact hlt
  | star word =>
    have hbounds := toInt_bounds word
    simp only [Precision.least]
    omega

theorem size_bounds (width : Width) :
    -1 ≤ width.size ∧ width.size ≤ 2 ^ 31 ∧ width.value = width.size.toNat := by
  cases width with
  | none => decide
  | digits w hpos hlt =>
    simp only [Width.size, Width.value]
    omega
  | star word =>
    have hbounds := toInt_bounds word
    simp only [Width.size, Width.value]
    omega

theorem length_codeDigits_bounds :
    0 < (dir.codeDigits value).length ∧ (dir.codeDigits value).length < 2 ^ 31 := by
  have hleast := least_lt dir.precision
  have hshort := length_codeNumeral_le dir value
  have hpos : 0 < (dir.codeNumeral value).length := length_numeral_pos
  rw [length_codeDigits]
  omega

theorem zeropad_left (hzero : dir.zeropad = true) : dir.left = false := by
  unfold zeropad at hzero
  simpa using (Bool.and_eq_true_iff.mp hzero).2

theorem length_text :
    (dir.text cfg value).length = max dir.width.value (dir.unpadded cfg value) := by
  rw [text, length_layout, unpadded]
  omega

section Octal

variable {dir value}

theorem codeDigits_eq (hoctal : dir.conversion = .o → value.toNat < 8) :
    dir.codeDigits value = dir.digits value := by
  have hnumeral : dir.codeNumeral value = dir.numeral value := by
    unfold codeNumeral numeral magnitude
    cases hconversion : dir.conversion with
    | o =>
      have hlt := hoctal hconversion
      exact numeral_small (Nat.lt_trans hlt (by decide)) hlt
    | d | i | u | x | X => rfl
  unfold codeDigits digits
  rw [hnumeral]

theorem octal_wrong {value : BitVec 32} (hoctal : dir.conversion = .o) (hlarge : 8 ≤ value.toNat)
    (size : Int) :
    paddedText dir.left dir.zeropad (dir.sign value) (dir.special cfg) (dir.codeDigits value)
      size ≠ dir.text cfg value := by
  have hsign : dir.sign value = none := by
    rw [sign, hoctal]
    rfl
  have hdigits : ∀ base k, 1 < base → base ≤ 16 →
      ∀ c ∈ List.replicate k '0'.toUInt8 ++ Kservice.numeral false base value.toNat,
        c ≠ ' '.toUInt8 := by
    intro base k hlow hhigh c hc
    rcases List.mem_append.mp hc with hc | hc
    · rw [List.eq_of_mem_replicate hc]
      decide
    · exact numeral_ne_space hlow hhigh c hc
  obtain ⟨zeros, hspecial⟩ : ∃ k, dir.special cfg = List.replicate k '0'.toUInt8 := by
    unfold special
    rw [hoctal]
    split
    · exact ⟨1, rfl⟩
    · exact ⟨0, rfl⟩
  have hplain : ∀ c ∈ dir.special cfg, c ≠ ' '.toUInt8 := by
    intro c hc
    rw [hspecial] at hc
    rw [List.eq_of_mem_replicate hc]
    decide
  have hcode : dir.codeNumeral value = Kservice.numeral false 16 value.toNat := by
    rw [codeNumeral, magnitude, hoctal]
    rfl
  have hnumeral : dir.numeral value = Kservice.numeral false 8 value.toNat := by
    rw [numeral, magnitude, hoctal]
    rfl
  intro heq
  rw [hsign, text, hsign, codeDigits, digits, hcode, hnumeral] at heq
  obtain ⟨k, hprinted⟩ := filter_paddedText hplain
    (hdigits 16 (dir.precision.least - (Kservice.numeral false 16 value.toNat).length) (by decide)
      (by decide))
  obtain ⟨j, hasked⟩ := filter_layout hplain
    (hdigits 8 (dir.precision.least - (Kservice.numeral false 8 value.toNat).length) (by decide)
      (by decide)) (dir.width.value - dir.unpadded cfg value)
  have hzeros := congrArg (List.filter (· ≠ ' '.toUInt8)) heq
  rw [hprinted, hasked, hspecial] at hzeros
  simp only [← List.append_assoc, List.replicate_append_replicate] at hzeros
  exact octal_ne_hex hlarge hzeros.symm

end Octal

theorem formatText_iff :
    formatText cfg string dir.format (dir.args value rest) = dir.text cfg value ↔
      dir.Exact cfg value := by
  have hspecial := length_special_le cfg dir
  obtain ⟨hfrom, hto, hwidth⟩ := size_bounds dir.width
  obtain ⟨hpos, hshort⟩ := length_codeDigits_bounds dir value
  rw [formatText_eq]
  constructor
  · intro hprinted
    have hoctal : dir.conversion = .o → value.toNat < 8 := by
      intro hconversion
      by_contra hlarge
      exact octal_wrong cfg hconversion (Nat.le_of_not_lt hlarge) _ hprinted
    refine ⟨hoctal, ?_⟩
    -- else there is padding although no width is left
    by_contra hwraps
    rw [codeDigits_eq hoctal] at hprinted hpos hshort
    rw [countdown] at hwraps
    have hlonger : dir.unpadded cfg value < (paddedText dir.left dir.zeropad (dir.sign value)
        (dir.special cfg) (dir.digits value)
        (int32 (dir.width.size - (dir.special cfg).length - (dir.digits value).length))).length :=
      length_paddedText_lt dir.zeropad_left (by omega) (by omega)
    rw [hprinted, length_text, unpadded] at hlonger
    have hsigned : (dir.sign value).toList.length ≤ 1 := by
      cases dir.sign value <;> simp
    have hcount : Kservice.countdown dir.left dir.zeropad (dir.sign value) ≤ 3 := by
      unfold Kservice.countdown
      split
      · omega
      · split <;> omega
    omega
  · rintro ⟨hoctal, hfits⟩
    rw [codeDigits_eq hoctal] at hpos hshort ⊢
    rw [countdown] at hfits
    rw [paddedText_eq dir.zeropad_left (by omega) (by omega), text, unpadded]
    congr 1
    omega

end IntegerDirective

structure Holds (memory : ByteMemory) (buf : Nat) (text : List UInt8) : Prop where
  contents : ∀ i (hi : i < text.length), memory (buf + i) = text[i]
  nul : memory (buf + text.length) = 0

section Buffer

variable {cfg : FormatConfig} {string : BitVec 32 → List UInt8} {fmt : List UInt8}
  {args : VaList} {buf n : Nat}

theorem rtVsnprintf_holds (memory : ByteMemory) (hbuf : 0 < buf)
    (hroom : (formatText cfg string fmt args).length < n) (hspace : buf + n ≤ 2 ^ 32) :
    ∃ result out, rtVsnprintf cfg string buf n fmt args memory = some (result, out) ∧
      Holds out.memory buf (formatText cfg string fmt args) := by
  have hpos : n ≠ 0 := Nat.ne_of_gt (Nat.zero_lt_of_lt hroom)
  have hn : n < 2 ^ 32 := by omega
  have hstored : storedText buf n (piecesOf cfg string fmt args) =
      formatText cfg string fmt args := by
    refine arrivingText_of_stored fun j _ hj => ?_
    rw [Nat.zero_add] at hj
    have hlt : j < n := Nat.lt_trans hj hroom
    exact decide_eq_true ((le_bufferEnd_iff hn hpos (by omega)).mpr hlt)
  have hfits : buf + (formatText cfg string fmt args).length < 2 ^ 32 := by omega
  obtain ⟨-, hcontents, hnul⟩ := stored_of_fits memory (by omega) hn hpos hfits
  refine ⟨_, _, rtVsnprintf_eq (by omega), ?_⟩
  rw [hstored]
  refine ⟨fun i hi => hcontents i hi (by omega), ?_⟩
  rwa [Nat.min_eq_right (by omega)] at hnul

end Buffer

/-- For every directive, argument, and buffer with room. -/
theorem integerConversion_right (cfg : FormatConfig) (string : BitVec 32 → List UInt8)
    (dir : IntegerDirective) (value : BitVec 32) (rest : VaList) :
    (formatText cfg string dir.format (dir.args value rest) = dir.text cfg value ↔
      dir.Exact cfg value) ∧
    ∀ buf n memory, 0 < buf →
      (formatText cfg string dir.format (dir.args value rest)).length < n →
      buf + n ≤ 2 ^ 32 →
      ∃ result out,
        rtVsnprintf cfg string buf n dir.format (dir.args value rest) memory = some (result, out) ∧
        Holds out.memory buf (formatText cfg string dir.format (dir.args value rest)) :=
  ⟨dir.formatText_iff cfg string value rest,
    fun _ _ memory hbuf hroom hspace => rtVsnprintf_holds memory hbuf hroom hspace⟩

/-- The smallest `int`, with a negative width: `%0+*.12d`. -/
theorem integerConversion_right_min :
    let dir : IntegerDirective := ⟨[.zero, .plus], .star (-14), .digits 12 (by decide), .d⟩
    let args := dir.args (BitVec.intMin 32) fun _ => 0
    formatText ⟨true⟩ (fun _ => []) dir.format args = chars "-002147483648 " ∧
      ∃ result out,
        rtVsnprintf ⟨true⟩ (fun _ => []) 4096 16 dir.format args (fun _ => 0) = some (result, out) ∧
        Holds out.memory 4096 (formatText ⟨true⟩ (fun _ => []) dir.format args) := by
  intro dir args
  obtain ⟨htext, hbuffer⟩ :=
    integerConversion_right ⟨true⟩ (fun _ => []) dir (BitVec.intMin 32) fun _ => 0
  have hexact : dir.Exact ⟨true⟩ (BitVec.intMin 32) := by
    refine ⟨nofun, ?_⟩
    decide +kernel
  have hasked : dir.text ⟨true⟩ (BitVec.intMin 32) = chars "-002147483648 " := by
    decide +kernel
  have hprinted := (htext.mpr hexact).trans hasked
  have hroom : (formatText ⟨true⟩ (fun _ => []) dir.format args).length < 16 := by
    rw [hprinted]
    decide
  exact ⟨hprinted, hbuffer 4096 16 (fun _ => 0) (by decide) hroom (by decide)⟩

theorem integerConversion_octal : let dir : IntegerDirective := ⟨[], .none, .none, .o⟩
    dir.text ⟨true⟩ 8 = chars "10" ∧
      ∃ result out,
        rtVsnprintf ⟨true⟩ (fun _ => []) 4096 16 (chars "%o") (fun _ => 8) (fun _ => 0) =
          some (result, out) ∧
        Holds out.memory 4096 (chars "8") ∧ ¬ Holds out.memory 4096 (dir.text ⟨true⟩ 8) := by
  intro dir
  have hasked : dir.text ⟨true⟩ 8 = chars "10" := by decide +kernel
  have hrun : (rtVsnprintf ⟨true⟩ (fun _ => []) 4096 16 (chars "%o") (fun _ => 8)
      (fun _ => 0)).map (fun r => (r.2.memory 4096, r.2.memory 4097)) = some ('8'.toUInt8, 0) := by
    decide +kernel
  obtain ⟨⟨result, out⟩, hcall, hmemory⟩ := Option.map_eq_some_iff.mp hrun
  obtain ⟨hfirst, hsecond⟩ := Prod.mk.inj hmemory
  refine ⟨hasked, result, out, hcall, ⟨fun i hi => ?_, hsecond⟩, fun hholds => ?_⟩
  · have hzero : i = 0 := Nat.lt_one_iff.mp hi
    subst hzero
    exact hfirst
  · rw [hasked] at hholds
    have hdigit := hholds.contents 0 (by decide)
    rw [Nat.add_zero, hfirst] at hdigit
    exact absurd hdigit (by decide)

end RtThread.Kservice
