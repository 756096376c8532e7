import CallReplacement.Source.Document
import Mathlib.Data.List.Induction

/-!
Places in a text and the offsets that come back from them. The bytes before a place are whole lines
and a part of the next one, so the length of as many lines as there are line feeds, and the bytes
since the last of them, make up what was consumed.

Lines of bytes are lines of characters: a byte is a line feed only if its character is one.
-/

namespace CallReplacement.Text

/-- The number of bytes behind the last line feed. -/
def sinceFeed (consumed : List UInt8) : Nat :=
  (consumed.reverse.takeWhile (· ≠ lineFeed)).length

/-! ## Lines of bytes -/

section
variable (consumed rest : List UInt8)

theorem sinceFeed_feed : sinceFeed (consumed ++ [lineFeed]) = 0 := by
  simp [sinceFeed]

theorem sinceFeed_other {b : UInt8} (other : b ≠ lineFeed) :
    sinceFeed (consumed ++ [b]) = sinceFeed consumed + 1 := by
  simp [sinceFeed, other]

theorem sinceFeed_le : sinceFeed consumed ≤ consumed.length := by
  have front := (List.takeWhile_prefix (l := consumed.reverse) (· ≠ lineFeed)).length_le
  rwa [List.length_reverse] at front

theorem sinceFeed_eq_zero_iff :
    sinceFeed consumed = 0 ↔ ∀ b, consumed.getLast? = some b → b = lineFeed := by
  induction consumed using List.reverseRecOn with
  | nil => simp [sinceFeed]
  | append_singleton consumed b _ =>
      by_cases isFeed : b = lineFeed
      · subst isFeed
        simp [sinceFeed_feed]
      · simp [sinceFeed_other consumed isFeed, isFeed]

theorem sinceFeed_take_eq_zero_iff {text : List UInt8} {count : Nat}
    (within : count ≤ text.length) :
    sinceFeed (text.take count) = 0 ↔ ¬ (0 < count ∧ text[count - 1]? ≠ some lineFeed) := by
  rw [sinceFeed_eq_zero_iff, List.getLast?_take]
  cases count with
  | zero => simp
  | succ last =>
      have byte : text[last]? = some text[last] := List.getElem?_eq_getElem within
      simp [byte]

theorem place_eq (text : List UInt8) (count : Nat) :
    place text count =
      (UInt64.ofNat (1 + (text.take count).count lineFeed),
        UInt64.ofNat (sinceFeed (text.take count))) := by
  unfold place
  induction text.take count using List.reverseRecOn with
  | nil => rfl
  | append_singleton consumed b ih =>
      rw [List.foldl_append, ih]
      by_cases isFeed : b = lineFeed
      · subst isFeed
        simp [sinceFeed_feed, UInt64.add_assoc]
      · simp [sinceFeed_other consumed isFeed, isFeed]

-- A line feed ends the line that it stands in, and that is one more than stand before it.
theorem linesLength_feed :
    linesLength (consumed.count lineFeed + 1) (consumed ++ lineFeed :: rest) =
      consumed.length + 1 := by
  induction consumed with
  | nil => simp [linesLength]
  | cons b consumed ih =>
      by_cases isFeed : b = lineFeed
      · subst isFeed
        rw [List.count_cons_self, List.cons_append, linesLength, if_pos rfl, ih, List.length_cons,
          Nat.add_comm]
      · rw [List.count_cons_of_ne isFeed, List.cons_append, linesLength, if_neg isFeed, ih,
          List.length_cons, Nat.add_comm]

-- The whole lines, and what has been consumed of the next one. The bytes that follow grow while
-- the consumed ones are given back from the end.
theorem linesLength_add_sinceFeed :
    linesLength (consumed.count lineFeed) (consumed ++ rest) + sinceFeed consumed =
      consumed.length := by
  induction consumed using List.reverseRecOn generalizing rest with
  | nil => simp [linesLength, sinceFeed]
  | append_singleton consumed b ih =>
      by_cases isFeed : b = lineFeed
      · subst isFeed
        have whole := linesLength_feed consumed rest
        simpa [sinceFeed_feed] using whole
      · have parts := ih (b :: rest)
        simp only [List.count_append, List.count_singleton, beq_iff_eq, isFeed, if_false,
          sinceFeed_other consumed isFeed, List.append_assoc, List.singleton_append,
          List.length_append, List.length_singleton, Nat.add_zero]
        omega

/-- The sum of an offset, in the natural numbers. -/
theorem offset?_eq (text : List UInt8) {line : UInt64} (column : UInt64) (positive : line ≠ 0) :
    offset? text line column =
      some (min ((linesLength (line.toNat - 1) text + (column.toNat - 1)) % UInt64.size)
        text.length) := by
  simp only [offset?, if_neg positive, ← UInt64.ofNat_add, UInt64.toNat_ofNat', UInt64.size]

-- What was consumed fits into a word, so nothing wraps.
theorem offset?_consumed {line column : UInt64} (held : consumed.length < UInt64.size)
    (atLine : line.toNat = 1 + consumed.count lineFeed)
    (atColumn : column.toNat = sinceFeed consumed) :
    offset? (consumed ++ rest) line column =
      some (if sinceFeed consumed = 0 then consumed.length else consumed.length - 1) := by
  have parts := linesLength_add_sinceFeed consumed rest
  have positive : line ≠ 0 := by
    rintro rfl
    rw [UInt64.toNat_zero] at atLine
    omega
  rw [offset?_eq _ _ positive, atLine, atColumn, Nat.add_sub_cancel_left, List.length_append,
    Nat.mod_eq_of_lt (by omega)]
  split <;> congr 1 <;> omega

end

/-! ## Lines of characters -/

theorem lineFeed_ne_ofNat {n : Nat} (continues : 128 ≤ n) (byte : n < 256) :
    lineFeed ≠ UInt8.ofNat n := by
  intro same
  have values := congrArg UInt8.toNat same
  rw [UInt8.toNat_ofNat', Nat.mod_eq_of_lt byte] at values
  have own : lineFeed.toNat = 10 := rfl
  omega

-- A character of several bytes has none below 128, and one of a single byte is its number.
theorem lineFeed_mem_utf8EncodeChar_iff (c : Char) :
    lineFeed ∈ String.utf8EncodeChar c ↔ c = '\n' := by
  constructor
  · intro member
    simp only [String.utf8EncodeChar] at member
    split_ifs at member
    · have values := congrArg UInt8.toNat (List.mem_singleton.mp member)
      rw [UInt8.toNat_ofNat', Nat.mod_eq_of_lt (by omega)] at values
      exact Char.toNat_inj.mp values.symm
    all_goals
      simp only [List.mem_cons, List.not_mem_nil, or_false] at member
      simp (disch := omega) only [lineFeed_ne_ofNat, or_self] at member
  · rintro rfl
    decide

theorem toList_loop (packed : ByteArray) (i : Nat) (read : List UInt8) :
    ByteArray.toList.loop packed i read = read.reverse ++ packed.data.toList.drop i := by
  fun_induction ByteArray.toList.loop packed i read with
  | case1 i read inside ih =>
      have stored : i < packed.data.size := inside
      have byte : packed.data[i] = packed.get! i := (getElem!_pos packed.data i stored).symm
      have next : packed.data.toList.drop i = packed.get! i :: packed.data.toList.drop (i + 1) := by
        rw [List.drop_eq_getElem_cons (by simpa using inside), Array.getElem_toList, byte]
      rw [ih, next, List.reverse_cons, List.append_assoc, List.singleton_append]
  | case2 i read outside =>
      rw [List.drop_eq_nil_of_le (by simpa using outside), List.append_nil]

theorem bytes_eq (text : String) : bytes text = text.toList.flatMap String.utf8EncodeChar := by
  rw [bytes, ByteArray.toList, toList_loop, String.toUTF8, ← String.utf8Encode_toList,
    List.utf8Encode, List.toList_data_toByteArray]
  simp

/-- The lines of a text, each with the line break that ends it; the empty text has none. -/
def wholeLines : List Char → List (List Char)
  | [] => []
  | c :: rest =>
      if c = '\n' then [c] :: wholeLines rest
      else match wholeLines rest with
        | [] => [[c]]
        | line :: lines => (c :: line) :: lines

theorem linesLength_within (count : Nat) {front : List UInt8} (rest : List UInt8)
    (within : lineFeed ∉ front) :
    linesLength (count + 1) (front ++ rest) = front.length + linesLength (count + 1) rest := by
  induction front with
  | nil => simp
  | cons b front ih =>
      obtain ⟨other, tail⟩ := List.ne_and_not_mem_of_not_mem_cons within
      rw [List.cons_append, linesLength, if_neg (Ne.symm other), ih tail, List.length_cons]
      omega

theorem linesLength_encoded (count : Nat) (text : List Char) :
    linesLength count (text.flatMap String.utf8EncodeChar) =
      byteLength ((wholeLines text).take count).flatten := by
  induction text generalizing count with
  | nil => cases count <;> rfl
  | cons c rest ih =>
      cases count with
      | zero => simp [linesLength]
      | succ count =>
          rw [List.flatMap_cons, wholeLines]
          by_cases isBreak : c = '\n'
          · subst isBreak
            have encoded : String.utf8EncodeChar '\n' = [lineFeed] := by decide
            have size : '\n'.utf8Size = 1 := by decide
            rw [encoded, List.singleton_append, linesLength, if_pos rfl, ih, if_pos rfl]
            simp [size]
          · rw [linesLength_within count _ (mt (lineFeed_mem_utf8EncodeChar_iff c).mp isBreak), ih,
              if_neg isBreak, String.length_utf8EncodeChar]
            cases wholeLines rest <;> simp

/-- From the line and the column of a reader comes back the last byte that it has consumed, or the
next one if that was a line feed; a text that is held in memory takes less than half of the words
there are. The offset is counted off the lines that the text has as characters, as words are added,
and whatever the line and the column, it does not lie behind the text. -/
theorem offset_inverts_place (text : String) :
    ((bytes text).length < UInt64.size / 2 → ∀ count ≤ (bytes text).length, ∃ line column,
      place (bytes text) count = (line, column) ∧
        line.toNat = 1 + ((bytes text).take count).count lineFeed ∧
        column.toNat = sinceFeed ((bytes text).take count) ∧
        offset? (bytes text) line column =
          some (if 0 < count ∧ (bytes text)[count - 1]? ≠ some lineFeed then count - 1
            else count)) ∧
    ∀ line column : UInt64, 0 < line →
      ∃ offset ≤ (bytes text).length,
        offset? (bytes text) line column = some offset ∧
        offset = min
          ((byteLength ((wholeLines text.toList).take (line.toNat - 1)).flatten +
            (column.toNat - 1)) % UInt64.size)
          (bytes text).length := by
  constructor
  · intro held count within
    have size : ((bytes text).take count).length = count := List.length_take_of_le within
    have fits : count + 1 < UInt64.size := by
      simp only [UInt64.size] at held ⊢
      omega
    have feeds := List.count_le_length (a := lineFeed) (l := (bytes text).take count)
    have since := sinceFeed_le ((bytes text).take count)
    have atLine := UInt64.toNat_ofNat_of_lt'
      (n := 1 + ((bytes text).take count).count lineFeed) (by omega)
    have atColumn := UInt64.toNat_ofNat_of_lt' (n := sinceFeed ((bytes text).take count)) (by omega)
    have back := offset?_consumed ((bytes text).take count) ((bytes text).drop count) (by omega)
      atLine atColumn
    have atFeed := sinceFeed_take_eq_zero_iff within
    rw [List.take_append_drop, size] at back
    refine ⟨_, _, place_eq (bytes text) count, atLine, atColumn, ?_⟩
    by_cases inLine : 0 < count ∧ (bytes text)[count - 1]? ≠ some lineFeed
    · rw [back, if_pos inLine, if_neg (mt atFeed.mp (not_not_intro inLine))]
    · rw [back, if_neg inLine, if_pos (atFeed.mpr inLine)]
  · intro line column positive
    refine ⟨_, Nat.min_le_right _ _, ?_, rfl⟩
    rw [offset?_eq _ _ (UInt64.pos_iff_ne_zero.mp positive), bytes_eq, linesLength_encoded]

/-- A text with a character of two bytes behind its line break. -/
def brokenEntry : String := "\x7b\n\"é\": ,"

-- Far behind the text stands its end, unless the sum wraps to its beginning.
theorem brokenEntry_offsets :
    (bytes brokenEntry).length = 9 ∧
      offset? (bytes brokenEntry) 2 0 = some 2 ∧ offset? (bytes brokenEntry) 2 7 = some 8 ∧
      offset? (bytes brokenEntry) 99 99 = some 9 ∧
      offset? (bytes brokenEntry) 2 0xffffffffffffffff = some 0 := by
  have encoded : bytes brokenEntry = [0x7b, 0x0a, 0x22, 0xc3, 0xa9, 0x22, 0x3a, 0x20, 0x2c] := by
    rw [bytes_eq]
    decide
  obtain ⟨back, bounded⟩ := offset_inverts_place brokenEntry
  rw [encoded] at back bounded ⊢
  obtain ⟨_, _, first, _, _, behindFeed⟩ := back (by decide) 2 (by decide)
  obtain ⟨_, _, last, _, _, inLine⟩ := back (by decide) 9 (by decide)
  obtain ⟨_, _, atEnd, rfl⟩ := bounded 99 99 (by decide)
  obtain ⟨_, _, atStart, rfl⟩ := bounded 2 0xffffffffffffffff (by decide)
  cases first
  cases last
  exact ⟨rfl, behindFeed, inLine, atEnd, atStart⟩

end CallReplacement.Text
