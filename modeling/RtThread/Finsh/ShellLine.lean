import RtThread.Finsh.LineEditor

namespace RtThread.Finsh

open RtThread.Lib

variable {env : ShellEnv} {s s' : Shell} {e : Editor} {text bytes : Bytes} {off n : Nat}
  {ch : UInt8}

theorem length_padded (hle : text.length ≤ finshCmdSize) : (padded text).length = finshCmdSize := by
  unfold padded
  rw [List.length_append, List.length_replicate]
  omega

theorem take_padded (hle : n ≤ text.length) : (padded text).take n = text.take n := by
  unfold padded
  rw [List.take_append_of_le_length hle]

theorem drop_padded (hle : text.length ≤ n) :
    (padded text).drop n = List.replicate (finshCmdSize - n) 0 := by
  unfold padded
  rw [List.drop_append, List.drop_eq_nil_of_le hle, List.nil_append, List.drop_replicate]
  congr 1
  omega

theorem drop_padded_of_le (hle : n ≤ text.length) :
    (padded text).drop n = text.drop n ++ List.replicate (finshCmdSize - text.length) 0 := by
  unfold padded
  rw [List.drop_append_of_le_length hle]

theorem takeWhile_nonzero (hnonzero : 0 ∉ text) (rest : Bytes) :
    (text ++ rest).takeWhile (· ≠ 0) = text ++ rest.takeWhile (· ≠ 0) := by
  induction text with
  | nil => rfl
  | cons a text ih =>
    rw [List.mem_cons, not_or] at hnonzero
    rw [List.cons_append, List.takeWhile_cons, if_pos (by simpa using Ne.symm hnonzero.1),
      ih hnonzero.2]
    rfl

theorem cString_padded (hshort : text.length < finshCmdSize) (hnonzero : 0 ∉ text) :
    cString (padded text) = some text := by
  obtain ⟨k, hk⟩ : ∃ k, finshCmdSize - text.length = k + 1 := ⟨_, (Nat.succ_pred (by omega)).symm⟩
  have hrow : padded text = text ++ 0 :: List.replicate k 0 := by
    rw [padded, hk, List.replicate_succ]
  rw [hrow, cString, if_pos (by simp), takeWhile_nonzero hnonzero]
  simp

theorem cString_full (hfull : finshCmdSize ≤ text.length) (hnonzero : 0 ∉ text) :
    cString (padded text) = none := by
  have hrow : padded text = text := by
    rw [padded, Nat.sub_eq_zero_of_le hfull]
    exact List.append_nil text
  rw [hrow, cString, if_neg hnonzero]

theorem copyTo_padded (hoff : off ≤ text.length) (hcover : text.length ≤ off + bytes.length)
    (hroom : off + bytes.length ≤ finshCmdSize) :
    copyTo (padded text) off bytes = some (padded (text.take off ++ bytes)) := by
  have hlength : (text.take off ++ bytes).length = off + bytes.length := by
    rw [List.length_append, List.length_take, Nat.min_eq_left hoff]
  rw [copyTo, if_pos (by rw [length_padded (by omega)]; exact hroom), take_padded hoff,
    drop_padded hcover]
  rw [padded, hlength]

theorem copyTo_inside (hle : text.length ≤ finshCmdSize) (hin : off + bytes.length ≤ text.length) :
    copyTo (padded text) off bytes =
      some (padded (text.take off ++ bytes ++ text.drop (off + bytes.length))) := by
  have hlength : (text.take off ++ bytes ++ text.drop (off + bytes.length)).length =
      text.length := by
    rw [List.length_append, List.length_append, List.length_take, List.length_drop]
    omega
  rw [copyTo, if_pos (by rw [length_padded hle]; omega), take_padded (by omega),
    drop_padded_of_le hin, padded, hlength, List.append_assoc, List.append_assoc]
  simp

theorem padded_concat_zero (hlt : text.length < finshCmdSize) :
    padded (text ++ [0]) = padded text := by
  have hsplit : finshCmdSize - text.length = finshCmdSize - (text.length + 1) + 1 := by omega
  rw [padded, padded, hsplit, List.replicate_succ, List.length_append, List.length_singleton,
    List.append_assoc]
  rfl

theorem copyTo_zero (hoff : off ≤ text.length) (hcover : text.length ≤ off + bytes.length)
    (hroom : off + bytes.length < finshCmdSize) :
    copyTo (padded text) off (bytes ++ [0]) = some (padded (text.take off ++ bytes)) := by
  have hlength : (bytes ++ [0]).length = bytes.length + 1 := by simp
  have hlength' : (text.take off ++ bytes).length = off + bytes.length := by
    rw [List.length_append, List.length_take, Nat.min_eq_left hoff]
  rw [copyTo_padded hoff (by omega) (by omega), ← List.append_assoc, padded_concat_zero (by omega)]

theorem copyTo_last (hle : text.length ≤ finshCmdSize) (hsome : text ≠ []) :
    copyTo (padded text) (text.length - 1) [0] = some (padded (text.take (text.length - 1))) := by
  have hpos : 0 < text.length := List.length_pos_of_ne_nil hsome
  have hlength : (text.take (text.length - 1)).length = text.length - 1 := by
    rw [List.length_take]
    omega
  rw [copyTo_padded (by omega) (by simp; omega) (by simp; omega), padded_concat_zero (by omega)]

theorem padded_injective {text' : Bytes} (hshort : text.length < finshCmdSize)
    (hshort' : text'.length < finshCmdSize) (hnonzero : 0 ∉ text) (hnonzero' : 0 ∉ text')
    (heq : padded text = padded text') : text = text' := by
  have hstring := cString_padded hshort hnonzero
  rw [heq, cString_padded hshort' hnonzero'] at hstring
  exact (Option.some.inj hstring).symm

theorem Shows.good (hshows : Shows s e) : s.Good := by
  refine ⟨?_, ?_, ?_, fun i hi => ?_⟩
  · rw [hshows.lineCurpos, hshows.linePosition]
    exact hshows.cursor
  · rw [hshows.linePosition]
    exact hshows.short
  · rw [hshows.line, hshows.linePosition, padded, List.getElem?_append_right (Nat.le_refl _),
      Nat.sub_self, List.getElem?_replicate, if_pos (Nat.sub_pos_of_lt hshows.short)]
  · rw [hshows.linePosition] at hi
    rw [hshows.line, padded, List.getElem?_append_left hi]
    intro hzero
    exact hshows.nonzero (List.mem_of_getElem? hzero)

theorem Shows.withText {cursor : Nat} (hshows : Shows s e) (hshort : text.length < finshCmdSize)
    (hnonzero : 0 ∉ text) (hcursor : cursor ≤ text.length) :
    Shows { s with line := padded text, linePosition := text.length, lineCurpos := cursor }
      { e with text := text, cursor := cursor } :=
  ⟨hshows.stat, rfl, hshort, hnonzero, rfl, rfl, hcursor, hshows.cmdHistory, hshows.historyCount,
    hshows.few, hshows.entries, hshows.currentHistory, hshows.current, hshows.executed⟩

theorem Shows.text_eq (hshows : Shows s e) : s.text = e.text := by
  rw [Shell.text, hshows.line, cString_padded hshows.short hshows.nonzero]
  rfl

theorem Shows.leftKey (hshows : Shows s e) : Shows s.leftKey { e with cursor := e.cursor - 1 } := by
  have hcursor := hshows.cursor
  have hcurpos := hshows.lineCurpos
  unfold Shell.leftKey
  split
  · exact { hshows with
      lineCurpos := by dsimp only; omega
      cursor := by dsimp only; omega }
  · exact { hshows with
      lineCurpos := by dsimp only; omega
      cursor := by dsimp only; omega }

theorem Shows.rightKey (hshows : Shows s e) :
    Shows s.rightKey { e with cursor := min (e.cursor + 1) e.text.length } := by
  have hcursor := hshows.cursor
  have hcurpos := hshows.lineCurpos
  have hposition := hshows.linePosition
  unfold Shell.rightKey
  split
  · exact { hshows with
      lineCurpos := by dsimp only; omega
      cursor := by dsimp only; omega }
  · exact { hshows with
      lineCurpos := by dsimp only; omega
      cursor := by dsimp only; omega }

theorem toEnd_padded (hline : s.line = padded text) (hshort : text.length < finshCmdSize)
    (hnonzero : 0 ∉ text) :
    s.toEnd = some { s with linePosition := text.length, lineCurpos := text.length } := by
  rw [Shell.toEnd, hline, cString_padded hshort hnonzero]
  rfl

theorem Shows.showHistory {i : Nat} (hshows : Shows s e) (hi : i < e.history.length) :
    ∃ s', s.showHistory i = some s' ∧ Shows s' (e.showHistory i) := by
  have hentry : e.history[i]? = some e.history[i] := List.getElem?_eq_getElem hi
  have hline : s.cmdHistory[i]? = some (padded e.history[i]) := by
    rw [hshows.cmdHistory, List.getElem?_append_left (by simpa using hi), List.getElem?_map, hentry]
    rfl
  obtain ⟨hshort, hnonzero⟩ := hshows.entries _ (List.getElem_mem hi)
  rw [Shell.showHistory, hline, Editor.showHistory, hentry]
  dsimp only
  rw [toEnd_padded rfl hshort hnonzero]
  refine ⟨_, rfl, ?_⟩
  exact { hshows.withText hshort hnonzero (Nat.le_refl _) with
    currentHistory := rfl
    current := Nat.le_of_lt hi }

theorem Shows.upKey (hshows : Shows s e) : ∃ s', s.upKey = some s' ∧ Shows s' e.up := by
  have hcurrent := hshows.currentHistory
  have hle := hshows.current
  unfold Shell.upKey Editor.up
  rw [hcurrent]
  split
  · exact hshows.showHistory (by omega)
  · exact ⟨s, rfl, hshows⟩

theorem Shows.downKey (hshows : Shows s e) : ∃ s', s.downKey = some s' ∧ Shows s' e.down := by
  unfold Shell.downKey Editor.down
  rw [hshows.currentHistory, hshows.historyCount]
  split
  next hnext => exact hshows.showHistory hnext
  · by_cases hnone : e.history = []
    · rw [if_neg (by simp [hnone]), if_neg (by simp [hnone])]
      exact ⟨s, rfl, hshows⟩
    · have hpos := List.length_pos_of_ne_nil hnone
      rw [if_pos (by omega), if_pos hnone]
      exact hshows.showHistory (by omega)

theorem Shows.backspaceKey (hshows : Shows s e) :
    ∃ s', s.backspaceKey = some s' ∧ Shows s' e.backspace := by
  have hcursor := hshows.cursor
  have hshort := hshows.short
  unfold Shell.backspaceKey Editor.backspace
  rw [hshows.lineCurpos, hshows.linePosition]
  by_cases hzero : e.cursor = 0
  · rw [if_pos hzero, if_pos hzero]
    exact ⟨s, rfl, hshows⟩
  · rw [if_neg hzero, if_neg hzero]
    have hnonzero : 0 ∉ e.text.take (e.cursor - 1) ++ e.text.drop e.cursor := by
      rw [List.mem_append, not_or]
      exact ⟨fun h => hshows.nonzero (List.mem_of_mem_take h),
        fun h => hshows.nonzero (List.mem_of_mem_drop h)⟩
    have hlength : (e.text.take (e.cursor - 1) ++ e.text.drop e.cursor).length =
        e.text.length - 1 := by
      rw [List.length_append, List.length_take, List.length_drop]
      omega
    have hsome : e.text ≠ [] := by
      rintro hnil
      rw [hnil] at hcursor
      exact hzero (Nat.le_zero.mp hcursor)
    dsimp only
    rw [hshows.line]
    split
    next hmiddle =>
      have hbytes : ((padded e.text).drop (e.cursor - 1 + 1)).take
          (e.text.length - 1 - (e.cursor - 1)) = e.text.drop e.cursor := by
        rw [Nat.sub_add_cancel (Nat.pos_of_ne_zero hzero), drop_padded_of_le hcursor,
          List.take_append_of_le_length (by rw [List.length_drop]; omega), List.take_of_length_le]
        rw [List.length_drop]
        omega
      have hmoved : copyTo (padded e.text) (e.cursor - 1) (e.text.drop e.cursor) =
          some (padded (e.text.take (e.cursor - 1) ++ e.text.drop e.cursor ++
            e.text.drop (e.text.length - 1))) := by
        have hend : e.cursor - 1 + (e.text.drop e.cursor).length = e.text.length - 1 := by
          rw [List.length_drop]
          omega
        rw [copyTo_inside (by omega) (by omega), hend]
      have hwhole : (e.text.take (e.cursor - 1) ++ e.text.drop e.cursor ++
          e.text.drop (e.text.length - 1)).length = e.text.length := by
        rw [List.length_append, hlength, List.length_drop]
        omega
      have hlast : copyTo (padded (e.text.take (e.cursor - 1) ++ e.text.drop e.cursor ++
          e.text.drop (e.text.length - 1))) (e.text.length - 1) [0] =
          some (padded (e.text.take (e.cursor - 1) ++ e.text.drop e.cursor)) := by
        have hfits : (e.text.take (e.cursor - 1) ++ e.text.drop e.cursor ++
            e.text.drop (e.text.length - 1)).length ≤ finshCmdSize := by omega
        have hcut := copyTo_last hfits (List.ne_nil_of_length_pos (by omega))
        rwa [hwhole, List.take_append_of_le_length (by omega),
          List.take_of_length_le (Nat.le_of_eq hlength)] at hcut
      simp only [hbytes, hmoved, hlast, Option.bind_eq_bind, Option.bind_some, Option.pure_def]
      refine ⟨_, rfl, ?_⟩
      have hnew := hshows.withText (by omega) hnonzero (by omega : e.cursor - 1 ≤ _)
      rw [hlength] at hnew
      exact hnew
    next hend =>
      have hlast := copyTo_last (Nat.le_of_lt hshort) hsome
      have htext : e.text.take (e.cursor - 1) ++ e.text.drop e.cursor =
          e.text.take (e.text.length - 1) := by
        rw [List.drop_eq_nil_of_le (by omega), List.append_nil]
        congr 1
        omega
      simp only [hlast, Option.bind_eq_bind, Option.bind_some, Option.pure_def]
      refine ⟨_, rfl, ?_⟩
      have hnew := hshows.withText (by omega) hnonzero (by omega : e.cursor - 1 ≤ _)
      rw [hlength, htext] at hnew
      rw [htext]
      exact hnew

theorem Shows.charLine_eq (hshows : Shows s e) :
    s.charLine ch = some (padded (e.text.take e.cursor ++ ch :: e.text.drop e.cursor)) := by
  have hcursor := hshows.cursor
  have hshort := hshows.short
  unfold Shell.charLine
  rw [hshows.line, hshows.lineCurpos, hshows.linePosition]
  split
  next hmiddle =>
    have hbytes : ((padded e.text).drop e.cursor).take (e.text.length - e.cursor) =
        e.text.drop e.cursor := by
      rw [drop_padded_of_le hcursor,
        List.take_append_of_le_length (Nat.le_of_eq List.length_drop.symm),
        List.take_of_length_le (Nat.le_of_eq List.length_drop)]
    have hmoved : copyTo (padded e.text) (e.cursor + 1) (e.text.drop e.cursor) =
        some (padded (e.text.take (e.cursor + 1) ++ e.text.drop e.cursor)) := by
      have hend := List.length_drop (i := e.cursor) (l := e.text)
      exact copyTo_padded (by omega) (by omega) (by omega)
    have hlength : (e.text.take (e.cursor + 1) ++ e.text.drop e.cursor).length =
        e.text.length + 1 := by
      rw [List.length_append, List.length_take, List.length_drop]
      omega
    rw [hbytes, hmoved]
    simp only [Option.bind_eq_bind, Option.bind_some]
    rw [copyTo_inside (by omega) (by rw [List.length_singleton]; omega)]
    have htake : (e.text.take (e.cursor + 1) ++ e.text.drop e.cursor).take e.cursor =
        e.text.take e.cursor := by
      rw [List.take_append_of_le_length (by rw [List.length_take]; omega), List.take_take,
        Nat.min_eq_left (by omega)]
    have hdrop : (e.text.take (e.cursor + 1) ++ e.text.drop e.cursor).drop (e.cursor + 1) =
        e.text.drop e.cursor := by
      rw [List.drop_append_of_le_length (by rw [List.length_take]; omega),
        List.drop_eq_nil_of_le (by rw [List.length_take]; omega), List.nil_append]
    rw [htake, List.length_singleton, hdrop, List.append_assoc]
    rfl
  next hend =>
    have heq : e.cursor = e.text.length := by omega
    rw [copyTo_padded (Nat.le_refl _) (by simp) (by rw [List.length_singleton]; omega), heq,
      List.drop_eq_nil_of_le (Nat.le_refl _)]

theorem Shows.charKey_eq (hshows : Shows s e) : s.charKey ch = some
    (if finshCmdSize ≤ e.text.length + 1 then
      { s with
        line := padded (e.text.take e.cursor ++ ch :: e.text.drop e.cursor)
        linePosition := 0
        lineCurpos := 0 }
    else
      { s with
        line := padded (e.text.take e.cursor ++ ch :: e.text.drop e.cursor)
        linePosition := e.text.length + 1
        lineCurpos := e.cursor + 1 }) := by
  have hshort := hshows.short
  have hsame : (if finshCmdSize ≤ s.linePosition then { s with linePosition := 0 } else s) = s := by
    rw [hshows.linePosition]
    exact if_neg (by omega)
  unfold Shell.charKey
  dsimp only
  rw [hsame, hshows.charLine_eq, Option.map_some, hshows.linePosition, hshows.lineCurpos]

theorem nonzero_insert (hnonzero : 0 ∉ text) (hch : ch ≠ 0) :
    0 ∉ text.take n ++ ch :: text.drop n := by
  rw [List.mem_append, List.mem_cons, not_or, not_or]
  exact ⟨fun h => hnonzero (List.mem_of_mem_take h), hch.symm,
    fun h => hnonzero (List.mem_of_mem_drop h)⟩

theorem length_insert (ch : UInt8) (hle : n ≤ text.length) :
    (text.take n ++ ch :: text.drop n).length = text.length + 1 := by
  rw [List.length_append, List.length_cons, List.length_take, List.length_drop]
  omega

section

variable (hshows : Shows s e)
include hshows

theorem Shows.charKey (hch : ch ≠ 0) (hroom : s.linePosition + 1 < finshCmdSize) :
    ∃ s', s.charKey ch = some s' ∧ Shows s' (e.insert ch) := by
  rw [hshows.linePosition] at hroom
  have hlength := length_insert ch hshows.cursor
  have hcursor := hshows.cursor
  rw [hshows.charKey_eq, if_neg (by omega)]
  unfold Editor.insert
  dsimp only
  rw [if_neg (by omega)]
  refine ⟨_, rfl, ?_⟩
  have hshort : (e.text.take e.cursor ++ ch :: e.text.drop e.cursor).length < finshCmdSize := by
    omega
  have hin : e.cursor + 1 ≤ (e.text.take e.cursor ++ ch :: e.text.drop e.cursor).length := by omega
  have hnew := hshows.withText hshort (nonzero_insert hshows.nonzero hch) hin
  rw [hlength] at hnew
  exact hnew

theorem Shows.charKey_full (hch : ch ≠ 0)
    (hfull : ¬ s.linePosition + 1 < finshCmdSize) (hexec : s.charKey ch = some s') : ¬ s'.Good := by
  rw [hshows.linePosition] at hfull
  have hlength := length_insert ch hshows.cursor
  rw [hshows.charKey_eq, if_pos (by omega)] at hexec
  cases hexec
  intro hgood
  have hends := hgood.ends
  have hnonzero := nonzero_insert (n := e.cursor) hshows.nonzero hch
  dsimp only at hends
  rw [padded, List.getElem?_append_left (by omega)] at hends
  exact hnonzero (List.mem_of_getElem? hends)

theorem getElem?_history {i : Nat} (hi : i < e.history.length) :
    s.cmdHistory[i]? = e.history[i]?.map padded := by
  rw [hshows.cmdHistory, List.getElem?_append_left (by simpa using hi), List.getElem?_map]

theorem Shows.last_iff (hsome : e.history ≠ []) :
    s.cmdHistory[e.history.length - 1]? = some s.line ↔ e.history.getLast? = some e.text := by
  have hpos := List.length_pos_of_ne_nil hsome
  rw [getElem?_history hshows (by omega), List.getLast?_eq_getElem?, hshows.line,
    Option.map_eq_some_iff]
  constructor
  · rintro ⟨text, htext, heq⟩
    obtain ⟨hshort, hnonzero⟩ := hshows.entries text (List.mem_of_getElem? htext)
    rw [htext, padded_injective hshort hshows.short hnonzero hshows.nonzero heq]
  · intro htext
    exact ⟨e.text, htext, rfl⟩

theorem Shows.command_eq : padded (s.line.take s.linePosition) = padded e.text := by
  rw [hshows.line, hshows.linePosition, take_padded (Nat.le_refl _), List.take_length]

theorem Shows.withHistory {lines history : List Bytes} (hlines : lines = history.map padded ++
      List.replicate (finshHistoryLines - history.length) (List.replicate finshCmdSize 0))
    (hfew : history.length ≤ finshHistoryLines)
    (hentries : ∀ text ∈ history, text ∈ e.history ∨ text = e.text) :
    Shows { s with
        cmdHistory := lines
        historyCount := history.length
        currentHistory := history.length }
      { e with history := history, current := history.length } := by
  refine { hshows with
    cmdHistory := hlines
    historyCount := rfl
    few := hfew
    entries := fun text htext => ?_
    currentHistory := rfl
    current := Nat.le_refl _ }
  rcases hentries text htext with hold | rfl
  · exact hshows.entries text hold
  · exact ⟨hshows.short, hshows.nonzero⟩

theorem Shows.shellPushHistory :
    Shows s.shellPushHistory { e with history := e.pushed, current := e.pushed.length } := by
  have hfew := hshows.few
  have hkeep : Shows { s with currentHistory := s.historyCount }
      { e with history := e.history, current := e.history.length } :=
    { hshows with currentHistory := hshows.historyCount, current := Nat.le_refl _ }
  have hposition : s.linePosition ≠ 0 ↔ e.text ≠ [] := by
    rw [hshows.linePosition, Ne, List.length_eq_zero_iff]
  unfold Shell.shellPushHistory Editor.pushed
  rw [hshows.command_eq]
  by_cases hempty : e.text = []
  · rw [if_neg (mt hposition.mp (by simpa using hempty)), if_pos (.inl hempty)]
    exact hkeep
  rw [if_pos (hposition.mpr hempty)]
  dsimp only
  rw [hshows.historyCount]
  by_cases hfull : finshHistoryLines ≤ e.history.length
  · have hcount : e.history.length = finshHistoryLines := Nat.le_antisymm hfew hfull
    have hsome : e.history ≠ [] := by
      rintro hnil
      rw [hnil] at hcount
      cases hcount
    have hlast := hshows.last_iff hsome
    rw [hcount] at hlast
    rw [if_pos hfull]
    by_cases hsame : e.history.getLast? = some e.text
    · rw [if_neg (not_not.mpr (hlast.mpr hsame)), if_pos (.inr hsame)]
      exact hkeep
    · rw [if_pos (mt hlast.mp hsame), if_neg (not_or.mpr ⟨hempty, hsame⟩), if_pos hfull]
      have hlength : (e.history.drop 1 ++ [e.text]).length = finshHistoryLines := by
        rw [List.length_append, List.length_drop, List.length_singleton, hcount]
        rfl
      have hlines : s.cmdHistory.drop 1 ++ [padded e.text] =
          (e.history.drop 1 ++ [e.text]).map padded ++
            List.replicate (finshHistoryLines - (e.history.drop 1 ++ [e.text]).length)
              (List.replicate finshCmdSize 0) := by
        rw [hlength, Nat.sub_self, List.replicate_zero, List.append_nil, hshows.cmdHistory, hcount,
          Nat.sub_self, List.replicate_zero, List.append_nil, List.map_append, List.map_drop]
        rfl
      have hnew := hshows.withHistory hlines (Nat.le_of_eq hlength) fun text htext => by
        rcases List.mem_append.mp htext with hold | hnew
        · exact .inl (List.mem_of_mem_drop hold)
        · exact .inr (List.mem_singleton.mp hnew)
      rw [hlength] at hnew
      rw [hlength]
      exact hnew
  · rw [if_neg hfull]
    have hlast : (e.history.length = 0 ∨
        s.cmdHistory[e.history.length - 1]? ≠ some s.line) ↔ ¬ e.history.getLast? = some e.text := by
      by_cases hnone : e.history = []
      · simp [hnone]
      · have hpos := List.length_pos_of_ne_nil hnone
        rw [← hshows.last_iff hnone]
        exact or_iff_right (by omega)
    by_cases hsame : e.history.getLast? = some e.text
    · rw [if_neg (mt hlast.mp (not_not.mpr hsame)), if_pos (.inr hsame)]
      exact hkeep
    · rw [if_pos (hlast.mpr hsame), if_neg (not_or.mpr ⟨hempty, hsame⟩), if_neg hfull]
      have hlength : (e.history ++ [e.text]).length = e.history.length + 1 := by simp
      have hlines : s.cmdHistory.set e.history.length (padded e.text) =
          (e.history ++ [e.text]).map padded ++
            List.replicate (finshHistoryLines - (e.history ++ [e.text]).length)
              (List.replicate finshCmdSize 0) := by
        have hspare : finshHistoryLines - e.history.length =
            finshHistoryLines - (e.history.length + 1) + 1 := by omega
        rw [hshows.cmdHistory, hspare, List.replicate_succ, List.set_append_right _ _ (by simp),
          List.length_map, Nat.sub_self, List.set_cons_zero, hlength, List.map_append,
          List.append_assoc]
        rfl
      have hnew := hshows.withHistory hlines (by omega) fun text htext => by
        rcases List.mem_append.mp htext with hold | hnew
        · exact .inl hold
        · exact .inr (List.mem_singleton.mp hnew)
      rw [hlength] at hnew
      rw [hlength]
      exact hnew

theorem Shows.semicolon : copyTo s.line s.linePosition [59] = some (padded (e.text ++ [59])) := by
  have hroom : e.text.length + ([59] : Bytes).length ≤ finshCmdSize := hshows.short
  have hput := copyTo_padded (Nat.le_refl e.text.length) (Nat.le_add_right ..) hroom
  rw [hshows.line, hshows.linePosition, hput, List.take_length]

theorem Shows.enterKey (hroom : env.msh = false → s.linePosition + 1 < finshCmdSize) :
    ∃ s', s.enterKey env = some s' ∧ Shows s' (e.enter env.msh) := by
  have hpush := hshows.shellPushHistory
  have hclear : ∀ executed, Shows { s.shellPushHistory with
      line := List.replicate finshCmdSize 0
      linePosition := 0
      lineCurpos := 0
      executed := executed.map some }
      { { e with history := e.pushed, current := e.pushed.length } with
        text := [], cursor := 0, executed := executed } := fun executed =>
    { hpush.withText (show ([] : Bytes).length < finshCmdSize by decide) List.not_mem_nil
        (Nat.le_refl 0) with executed := rfl }
  have hlength : s.shellPushHistory.line.length = finshCmdSize := by
    rw [hpush.line]
    exact length_padded (Nat.le_of_lt hshows.short)
  unfold Shell.enterKey Editor.enter
  dsimp only
  cases hmsh : env.msh with
  | true =>
    have hstring : cString s.shellPushHistory.line = some e.text := by
      rw [hpush.line]
      exact cString_padded hshows.short hshows.nonzero
    simp only [if_pos, hstring, Option.bind_eq_bind, Option.bind_some, Option.pure_def, hlength]
    exact ⟨_, rfl, hclear (some e.text)⟩
  | false =>
    have hshort := hroom hmsh
    rw [hshows.linePosition] at hshort
    have hcopy : copyTo s.shellPushHistory.line s.shellPushHistory.linePosition [59] =
        some (padded (e.text ++ [59])) := hpush.semicolon
    have hstring : cString (padded (e.text ++ [59])) = some (e.text ++ [59]) := by
      refine cString_padded ?_ ?_
      · rw [List.length_append, List.length_singleton]
        exact hshort
      · rw [List.mem_append, not_or]
        exact ⟨hshows.nonzero, by decide⟩
    have hline : (padded (e.text ++ [59])).length = finshCmdSize := by
      apply length_padded
      rw [List.length_append, List.length_singleton]
      omega
    have hposition : s.shellPushHistory.linePosition ≠ 0 ↔ ¬ e.text = [] := by
      rw [hpush.linePosition, Ne, List.length_eq_zero_iff]
    simp only [hcopy, hstring, hline, hposition, Option.bind_eq_bind, Option.bind_some,
      Option.pure_def, Option.map_some, Bool.false_eq_true, if_false]
    refine ⟨_, rfl, ?_⟩
    by_cases hempty : e.text = []
    · rw [if_neg (not_not.mpr hempty), if_pos hempty]
      exact hclear none
    · rw [if_pos hempty, if_neg hempty]
      exact hclear (some (e.text ++ [59]))

theorem Shows.enterKey_full (hmsh : env.msh = false)
    (hfull : ¬ s.linePosition + 1 < finshCmdSize) (hexec : s.enterKey env = some s') :
    s'.executed ≠ (e.enter env.msh).executed.map some := by
  have hpush := hshows.shellPushHistory
  have hshort := hshows.short
  rw [hshows.linePosition] at hfull
  have hempty : e.text ≠ [] := by
    rintro hnil
    rw [hnil] at hfull
    exact hfull (by decide)
  have hcopy : copyTo s.shellPushHistory.line s.shellPushHistory.linePosition [59] =
      some (padded (e.text ++ [59])) := hpush.semicolon
  have hstring : cString (padded (e.text ++ [59])) = none := by
    refine cString_full ?_ ?_
    · rw [List.length_append, List.length_singleton]
      omega
    · rw [List.mem_append, not_or]
      exact ⟨hshows.nonzero, by decide⟩
  have hposition : s.shellPushHistory.linePosition ≠ 0 := by
    rw [hpush.linePosition]
    exact mt List.length_eq_zero_iff.mp hempty
  unfold Shell.enterKey at hexec
  simp only [hmsh, hcopy, hstring, Option.bind_eq_bind, Option.bind_some, Option.pure_def,
    Option.map_some, Bool.false_eq_true, if_false, if_pos hposition] at hexec
  cases hexec
  unfold Editor.enter
  simp [hmsh, hempty]

end

section Completion

variable {typed path front : Bytes} {names : List Bytes} {namePtr name common : Bytes} {c : UInt8}

theorem strCommon_le {a b : Bytes} (ha : typed <+: a) (hb : typed <+: b) :
    typed.length ≤ strCommon a b := by
  induction typed generalizing a b with
  | nil => exact Nat.zero_le _
  | cons x typed ih =>
    obtain ⟨a', rfl⟩ := ha
    obtain ⟨b', rfl⟩ := hb
    rw [List.cons_append, List.cons_append, strCommon, if_pos rfl, List.length_cons]
    exact Nat.add_le_add_right (ih (List.prefix_append ..) (List.prefix_append ..)) 1

structure Matched (typed : Bytes) (found : Bytes × Nat) : Prop where
  starts : typed <+: found.1
  length : typed.length ≤ found.2
  nonzero : 0 ∉ found.1

theorem countMatch_matched {found : Option (Bytes × Nat)} (hnonzero : 0 ∉ name)
    (hfound : ∀ x ∈ found, Matched typed x) : ∀ x ∈ countMatch typed found name, Matched typed x := by
  intro x hx
  unfold countMatch at hx
  split at hx
  next hstarts =>
    rw [List.isPrefixOf_iff_prefix] at hstarts
    have hold : Matched typed (found.getD (name, name.length)) := by
      cases found with
      | none => exact ⟨hstarts, hstarts.length_le, hnonzero⟩
      | some y => exact hfound y rfl
    cases hx
    exact ⟨hold.starts, Nat.le_min.mpr ⟨hold.length, strCommon_le hold.starts hstarts⟩,
      hold.nonzero⟩
  · exact hfound x hx

theorem commonStart_spec (hnonzero : ∀ name ∈ names, 0 ∉ name)
    (hcommon : commonStart typed names = some common) : typed <+: common ∧ 0 ∉ common := by
  have hfold : ∀ (names : List Bytes) (found : Option (Bytes × Nat)),
      (∀ name ∈ names, 0 ∉ name) → (∀ x ∈ found, Matched typed x) →
        ∀ x ∈ names.foldl (countMatch typed) found, Matched typed x := by
    intro names
    induction names with
    | nil => exact fun found _ hfound => hfound
    | cons name names ih =>
      intro found hnames hfound
      exact ih _ (fun other hother => hnames other (List.mem_cons_of_mem _ hother))
        (countMatch_matched (hnames name List.mem_cons_self) hfound)
  unfold commonStart at hcommon
  obtain ⟨⟨namePtr, minLength⟩, hfound, rfl⟩ := Option.map_eq_some_iff.mp hcommon
  have hmatched := hfold names none hnonzero (fun x hx => nomatch hx) _ hfound
  refine ⟨?_, fun h => hmatched.nonzero (List.mem_of_mem_take h)⟩
  rw [List.prefix_take_iff]
  exact ⟨hmatched.starts, hmatched.length⟩

theorem completed_spec (hnonzero : ∀ name ∈ names, 0 ∉ name) (htyped : 0 ∉ typed) :
    typed.length ≤ (completed typed names).length ∧ 0 ∉ completed typed names := by
  unfold completed
  cases hcommon : commonStart typed names with
  | none => exact ⟨Nat.le_refl _, htyped⟩
  | some common =>
    obtain ⟨hstarts, hcommon'⟩ := commonStart_spec hnonzero hcommon
    exact ⟨hstarts.length_le, hcommon'⟩

theorem symbols_nonzero (henv : name ∈ env.symbols) : 0 ∉ name := by
  unfold ShellEnv.symbols at henv
  simp only [List.mem_append, List.mem_filter, List.mem_map, Subtype.exists, exists_and_right,
    exists_eq_right] at henv
  rcases henv with ((⟨⟨h, -⟩, -⟩ | ⟨h, -⟩) | ⟨h, -⟩) | ⟨h, -⟩ <;> exact h

theorem commands_nonzero (henv : name ∈ env.commands) : 0 ∉ name := by
  unfold ShellEnv.commands at henv
  obtain ⟨whole, hwhole, rfl⟩ := List.mem_map.mp henv
  obtain ⟨⟨symbol, hsymbol⟩, -, rfl⟩ := List.mem_map.mp (List.mem_of_mem_filter hwhole)
  exact fun h => hsymbol (List.mem_of_mem_drop h)

theorem splitLast_append (c : UInt8) (text : Bytes) :
    (splitLast c text).1 ++ (splitLast c text).2 = text := by
  unfold splitLast
  rw [← List.reverse_append, List.takeWhile_append_dropWhile, List.reverse_reverse]

theorem mshAutoCompletePath_spec (htext : text = front ++ path) (hshort : text.length < finshCmdSize)
    (hnonzero : 0 ∉ text) :
    mshAutoCompletePath env front.length path (padded text) =
      (if (front ++ completedPath env path).length < finshCmdSize then
        some (padded (front ++ completedPath env path))
      else none) ∧
      path.length ≤ (completedPath env path).length ∧ 0 ∉ completedPath env path := by
  have hpath : 0 ∉ path := fun h => hnonzero (by rw [htext]; exact List.mem_append_right _ h)
  have hsame : some (padded text) = if (front ++ path).length < finshCmdSize then
      some (padded (front ++ path)) else none := by
    rw [← htext, if_pos hshort]
  unfold mshAutoCompletePath completedPath
  have hsplit := splitLast_append 47 path
  generalize splitLast 47 path = parts at hsplit ⊢
  obtain ⟨parent, index⟩ := parts
  dsimp only at hsplit ⊢
  obtain hdir | ⟨names, hdir⟩ := Option.eq_none_or_eq_some (env.readdir parent)
  · simp only [hdir]
    exact ⟨hsame, Nat.le_refl _, hpath⟩
  · simp only [hdir]
    by_cases hindex : index = []
    · rw [if_pos hindex, if_pos hindex]
      exact ⟨hsame, Nat.le_refl _, hpath⟩
    · rw [if_neg hindex, if_neg hindex]
      have hnames : ∀ name ∈ names.map Subtype.val, 0 ∉ name := by
        intro name hname
        obtain ⟨⟨file, hfile⟩, -, rfl⟩ := List.mem_map.mp hname
        exact hfile
      have hparent : 0 ∉ parent := fun h => hpath (by
        rw [← hsplit]
        exact List.mem_append_left _ h)
      unfold completed
      cases hcommon : commonStart index (names.map Subtype.val) with
      | none =>
        rw [Option.getD_none, hsplit]
        exact ⟨hsame, Nat.le_refl _, hpath⟩
      | some common =>
        obtain ⟨hstarts, hnonzero'⟩ := commonStart_spec hnames hcommon
        have hlonger := hstarts.length_le
        have hlength : text.length = front.length + parent.length + index.length := by
          rw [htext, ← hsplit]
          simp [Nat.add_assoc]
        have htake : text.take (front.length + parent.length) = front ++ parent := by
          rw [htext, ← hsplit, ← List.append_assoc, ← List.length_append, List.take_left]
        have hwhole : (front ++ (parent ++ common)).length =
            front.length + parent.length + common.length := by
          simp [Nat.add_assoc]
        rw [Option.getD_some, hwhole]
        refine ⟨?_, ?_, ?_⟩
        · dsimp only
          split
          next hroom =>
            rw [copyTo_zero (by omega) (by omega) hroom, htake, List.append_assoc]
          next hfull =>
            refine if_neg ?_
            rw [length_padded (Nat.le_of_lt hshort), List.length_append, List.length_singleton]
            omega
        · rw [← hsplit, List.length_append, List.length_append]
          omega
        · rw [List.mem_append, not_or]
          exact ⟨hparent, hnonzero'⟩

theorem completePath_spec (env : ShellEnv) (hsome : text ≠ []) (hshort : text.length < finshCmdSize)
    (hnonzero : 0 ∉ text) :
    completePath env text (padded text) =
      (if (completedWord env text).length < finshCmdSize then
        some (padded (completedWord env text))
      else none) ∧
      text.length ≤ (completedWord env text).length ∧ 0 ∉ completedWord env text := by
  unfold completePath completedWord
  split
  · have hsplit := splitLast_append 32 (text.drop 1)
    generalize splitLast 32 (text.drop 1) = parts at hsplit ⊢
    obtain ⟨_ | ⟨c, before⟩, path⟩ := parts
    · dsimp only
      split
      · exact mshAutoCompletePath_spec (List.nil_append text).symm hshort hnonzero
      · exact ⟨rfl, Nat.le_refl _, hnonzero⟩
    · dsimp only at hsplit ⊢
      have htext : text = text.take 1 ++ c :: before ++ path := by
        rw [List.append_assoc, hsplit, List.take_append_drop]
      have hfirst : (text.take 1).length = 1 := by
        rw [List.length_take, Nat.min_eq_left (List.length_pos_of_ne_nil hsome)]
      have hfront : (c :: before).length + 1 = (text.take 1 ++ c :: before).length := by
        rw [List.length_append, hfirst, Nat.add_comm]
      obtain ⟨hpath, hlonger, hnonzero'⟩ := mshAutoCompletePath_spec htext hshort hnonzero
      rw [hfront]
      refine ⟨hpath, ?_, ?_⟩
      · have hlength := congrArg List.length htext
        rw [List.length_append] at hlength ⊢
        omega
      · rw [List.mem_append, not_or]
        refine ⟨fun h => hnonzero ?_, hnonzero'⟩
        rw [htext]
        exact List.mem_append_left _ h
  · exact ⟨rfl, Nat.le_refl _, hnonzero⟩

theorem completed_toEnd (hnonzero : 0 ∉ typed) (hshort : typed.length < finshCmdSize)
    (hnames : ∀ name ∈ names, 0 ∉ name) :
    ((match commonStart typed names with
      | none => some (padded typed)
      | some common => copyTo (padded typed) 0 common).bind fun line =>
        Shell.toEnd { s with line := line }) =
      if (completed typed names).length < finshCmdSize then
        some { s with
          line := padded (completed typed names)
          linePosition := (completed typed names).length
          lineCurpos := (completed typed names).length }
      else none := by
  unfold completed
  cases hcommon : commonStart typed names with
  | none =>
    rw [Option.getD_none, if_pos hshort]
    exact toEnd_padded rfl hshort hnonzero
  | some common =>
    obtain ⟨hstarts, hnonzero'⟩ := commonStart_spec hnames hcommon
    have hlonger := hstarts.length_le
    rw [Option.getD_some]
    dsimp only
    split
    next hroom =>
      rw [copyTo_padded (Nat.zero_le _) (by omega) (by omega)]
      exact toEnd_padded rfl hroom hnonzero'
    next hfull =>
      by_cases hlast : common.length ≤ finshCmdSize
      · rw [copyTo_padded (Nat.zero_le _) (by omega) (by omega), Option.bind_some, Shell.toEnd]
        dsimp only
        rw [List.take_zero, List.nil_append, cString_full (by omega) hnonzero']
        rfl
      · rw [copyTo, if_neg (by rw [length_padded (Nat.le_of_lt hshort)]; omega)]
        rfl

theorem Shows.tabKey_eq (env : ShellEnv) (hshows : Shows s e) :
    s.tabKey env =
      if (complete env e.text).length < finshCmdSize then
        some { s with
          line := padded (complete env e.text)
          linePosition := (complete env e.text).length
          lineCurpos := (complete env e.text).length }
      else none := by
  have hshort := hshows.short
  have hnonzero := hshows.nonzero
  have hstring := cString_padded hshort hnonzero
  unfold Shell.tabKey shellAutoComplete complete
  rw [hshows.line]
  by_cases hempty : e.text = []
  · have hzero : ([] : Bytes).length < finshCmdSize := by decide
    have hline : (if env.msh = true then mshAutoComplete env (padded e.text)
        else listPrefix env (padded e.text)) = some (padded []) := by
      unfold mshAutoComplete listPrefix
      simp [hempty, cString_padded]
    rw [hline, if_pos hempty, if_pos hzero]
    exact toEnd_padded (s := { s with line := padded [] }) rfl hzero List.not_mem_nil
  · rw [if_neg hempty]
    by_cases hmsh : env.msh = true
    · rw [if_pos hmsh, if_pos hmsh]
      obtain ⟨hword, hlonger, hword'⟩ := completePath_spec env hempty hshort hnonzero
      unfold mshAutoComplete
      simp only [hstring, hempty, hword, Option.bind_eq_bind, Option.bind_some, Option.pure_def,
        if_false]
      split
      next hroom =>
        simp only [Option.bind_some, cString_padded hroom hword']
        exact completed_toEnd hword' hroom fun name => commands_nonzero
      next hfull =>
        have hmore := (completed_spec (fun name (h : name ∈ env.commands) => commands_nonzero h) hword').1
        rw [if_neg (by omega)]
        rfl
    · rw [if_neg hmsh, if_neg hmsh]
      unfold listPrefix
      simp only [hstring, hempty, Option.bind_eq_bind, Option.bind_some, Option.pure_def, if_false]
      exact completed_toEnd hnonzero hshort fun name => symbols_nonzero

end Completion

section Press

variable {key : Key} {session session' : Session} {input : Input}

theorem readKey_nonzero {stat : InputStat} (hkey : (readKey stat ch).2 = .char c) : c ≠ 0 := by
  have hplain : plainKey ch = .char c → c ≠ 0 := by
    unfold plainKey
    grind
  unfold readKey at hkey
  grind

theorem Shows.tabKey (hshows : Shows s e)
    (hroom : (complete env e.text).length < finshCmdSize) :
    ∃ s', s.tabKey env = some s' ∧ Shows s' (e.press env .tab) := by
  have hnonzero : 0 ∉ complete env e.text := by
    unfold complete
    split
    · exact List.not_mem_nil
    next hsome =>
      split
      · have hword := completePath_spec env hsome hshows.short hshows.nonzero
        exact (completed_spec (fun name => commands_nonzero) hword.2.2).2
      · exact (completed_spec (fun name => symbols_nonzero) hshows.nonzero).2
  rw [hshows.tabKey_eq env, if_pos hroom]
  exact ⟨_, rfl, hshows.withText hroom hnonzero (Nat.le_refl _)⟩

theorem Shows.press (hshows : Shows s e) (hkey : ∀ c, key = .char c → c ≠ 0)
    (hfits : s.Fits env key) : ∃ s', s.press env key = some s' ∧ Shows s' (e.press env key) := by
  cases key with
  | ignored => exact ⟨s, rfl, hshows⟩
  | up => exact hshows.upKey
  | down => exact hshows.downKey
  | left => exact ⟨_, rfl, hshows.leftKey⟩
  | right => exact ⟨_, rfl, hshows.rightKey⟩
  | tab => exact hshows.tabKey (hshows.text_eq ▸ hfits)
  | backspace => exact hshows.backspaceKey
  | enter => exact hshows.enterKey hfits
  | char c => exact hshows.charKey (hkey c rfl) hfits

theorem Shows.press_full (hshows : Shows s e) (hkey : ∀ c, key = .char c → c ≠ 0)
    (hfull : ¬ s.Fits env key) (hexec : s.press env key = some s') :
    ¬ s'.Good ∨ s'.executed ≠ (e.press env key).executed.map some := by
  cases key with
  | tab =>
    have hnone := hshows.tabKey_eq env
    rw [if_neg (hshows.text_eq ▸ hfull)] at hnone
    cases hnone.symm.trans hexec
  | enter =>
    obtain ⟨hmsh, hroom⟩ := Classical.not_imp.mp hfull
    exact .inr (hshows.enterKey_full hmsh hroom hexec)
  | char c => exact .inl (hshows.charKey_full (hkey c rfl) hfull hexec)
  | ignored | up | down | left | right | backspace => exact absurd trivial hfull

theorem Shows.started {stat : InputStat} (hshows : Shows s e) :
    Shows { s with stat := stat, executed := none } { e with stat := stat, executed := none } :=
  { hshows with
    stat := rfl
    executed := rfl }

theorem Shows.exec (hshows : Shows session.shell session.editor) (hfits : session.Fits input) :
    ∃ session', session.exec input = some session' ∧ Shows session'.shell session'.editor := by
  obtain ⟨shell, hpress, hshows'⟩ := hshows.started.press (fun _ => readKey_nonzero) hfits
  refine ⟨⟨shell, session.editor.getchar input.env input.ch⟩, ?_, ?_⟩
  · unfold Session.exec Shell.getchar
    dsimp only
    rw [hpress]
    rfl
  · unfold Editor.getchar
    rw [← hshows.stat]
    exact hshows'

theorem Shows.obeys_iff (hshows : Shows session.shell session.editor) :
    session.Obeys input ↔ session.Fits input := by
  constructor
  · rintro ⟨session', hexec, hgood, hexecuted⟩
    by_contra hfull
    unfold Session.exec Shell.getchar at hexec
    obtain ⟨shell, hpress, rfl⟩ := Option.map_eq_some_iff.mp hexec
    have hbroken := hshows.started.press_full (fun _ => readKey_nonzero) hfull hpress
    unfold Editor.getchar at hexecuted
    rw [← hshows.stat] at hexecuted
    exact hbroken.elim (· hgood) (· hexecuted)
  · intro hfits
    obtain ⟨session', hexec, hshows'⟩ := hshows.exec hfits
    exact ⟨session', hexec, hshows'.good, hshows'.executed⟩

end Press

section Runs

variable {session : Session}

theorem shows_initial (hinit : session.Initial) : Shows session.shell session.editor := by
  obtain ⟨hshell, heditor⟩ := hinit
  rw [heditor]
  exact
    { stat := hshell.stat
      line := hshell.line
      short := by decide
      nonzero := List.not_mem_nil
      linePosition := hshell.linePosition
      lineCurpos := hshell.lineCurpos
      cursor := Nat.le_refl _
      cmdHistory := hshell.cmdHistory
      historyCount := hshell.historyCount
      few := by decide
      entries := fun text htext => absurd htext List.not_mem_nil
      currentHistory := hshell.currentHistory
      current := Nat.le_refl _
      executed := hshell.executed }

theorem reachable_shows (hreach : sessionMachine.Reachable Session.Fits session) :
    Shows session.shell session.editor := by
  refine hreach.invariant (fun session => Shows session.shell session.editor)
    (fun _ => shows_initial) ?_
  intro session input session' hshows hfits hexec
  obtain ⟨session'', hexec', hshows'⟩ := hshows.exec hfits
  cases hexec'.symm.trans hexec
  exact hshows'

/-- The next character leaves the shell in order if and only if there is room for it. -/
theorem Session.reachable_good (hreach : sessionMachine.Reachable Session.Fits session) :
    session.shell.Good ∧ session.shell.text = session.editor.text ∧
      session.shell.executed = session.editor.executed.map some ∧
      ∀ input, session.Obeys input ↔ session.Fits input := by
  have hshows := reachable_shows hreach
  exact ⟨hshows.good, hshows.text_eq, hshows.executed, fun input => hshows.obeys_iff⟩

instance (env : ShellEnv) (s : Shell) (key : Key) : Decidable (s.Fits env key) :=
  match key with
  | .char _ => inferInstanceAs (Decidable (_ < _))
  | .enter => inferInstanceAs (Decidable (_ → _))
  | .tab => inferInstanceAs (Decidable (_ < _))
  | .ignored | .up | .down | .left | .right | .backspace => .isTrue trivial

instance (session : Session) (input : Input) : Decidable (session.Fits input) :=
  inferInstanceAs (Decidable (session.shell.Fits _ _))

def Shell.zeroed : Shell where
  stat := .waitNormal
  line := List.replicate finshCmdSize 0
  linePosition := 0
  lineCurpos := 0
  cmdHistory := List.replicate finshHistoryLines (List.replicate finshCmdSize 0)
  historyCount := 0
  currentHistory := 0
  executed := none

theorem zeroed_initial : Session.Initial ⟨.zeroed, .empty⟩ :=
  ⟨⟨rfl, rfl, rfl, rfl, rfl, rfl, rfl, rfl⟩, rfl⟩

def listEnv : ShellEnv where
  msh := false
  syscallTable := [⟨[108, 105, 115, 116], by decide⟩]
  syscallList := []
  sysvarTable := []
  sysvarList := []
  usingDfs := false
  usingModule := false
  readdir := fun _ => none

def editedKeys : List Input := [105, 0x1b, 0x5b, 0x44, 108, 9, 8, 10].map (⟨listEnv, ·⟩)

theorem Session.reachable_good_editedKeys :
    ∃ session, sessionMachine.Reachable Session.Fits session ∧ session.shell.Good ∧
      session.shell.executed = some (some [108, 105, 115, 59]) := by
  have hrun : (sessionMachine.run Session.Fits ⟨.zeroed, .empty⟩ editedKeys).map
      (fun session => session.editor.executed) = some (some [108, 105, 115, 59]) := by
    decide +kernel
  obtain ⟨session, hreach, hexecuted⟩ := Machine.exists_reachable_of_run zeroed_initial hrun
  obtain ⟨hgood, -, hsame, -⟩ := Session.reachable_good hreach
  exact ⟨session, hreach, hgood, hsame.trans (congrArg (Option.map some) hexecuted)⟩

/-- Eighty characters are discarded, but the bytes stay in the line. -/
theorem longLine_not_good :
    ¬ ∀ session, sessionMachine.Reachable (fun _ _ => True) session → session.shell.Good := by
  intro hall
  have hrun : (sessionMachine.run (fun _ _ => True) ⟨.zeroed, .empty⟩
      (List.replicate 80 ⟨listEnv, 97⟩)).map
        (fun session => (session.shell.linePosition, session.shell.line[0]?)) =
      some (0, some 97) := by
    decide +kernel
  obtain ⟨session, hreach, hstate⟩ := Machine.exists_reachable_of_run zeroed_initial hrun
  obtain ⟨hposition, hline⟩ := Prod.mk.inj hstate
  have hends := (hall session hreach).ends
  rw [hposition, hline] at hends
  cases hends

end Runs

end RtThread.Finsh
