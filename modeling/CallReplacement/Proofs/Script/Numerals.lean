import CallReplacement.Proofs.Script.Nodes

/-!
The texts of literals. Integers and finite floats are written as numerals without leading zeros,
with a minus sign before them if they are negative.
-/

namespace CallReplacement

open JavaScript

theorem toDigits_isDigit (n : Nat) : ∀ c ∈ Nat.toDigits 10 n, c.isDigit :=
  fun _ member => Nat.isDigit_of_mem_toDigits (by decide) (by decide) member

theorem toDigits_head {n : Nat} (positive : 0 < n) : (Nat.toDigits 10 n).head? ≠ some '0' := by
  induction n using Nat.strongRecOn with
  | _ n ih =>
    rw [Nat.toDigits_eq_if (by decide)]
    by_cases small : n < 10
    · rw [if_pos small]
      have digits : ∀ n < 10, 0 < n → [Nat.digitChar n].head? ≠ some '0' := by decide
      exact digits n small positive
    · have shorter := ih (n / 10) (by omega) (by omega)
      rw [if_neg small]
      cases digits : Nat.toDigits 10 (n / 10) with
      | nil => exact absurd digits Nat.toDigits_ne_nil
      | cons c rest => simpa [digits] using shorter

/-- Digits that begin with no zero. -/
structure NoLeadingZero (digits : List Char) : Prop where
  nonempty : digits ≠ []
  all : ∀ c ∈ digits, c.isDigit
  first : digits.head? ≠ some '0'

namespace NoLeadingZero
variable {digits more : List Char}

theorem whole (noZero : NoLeadingZero digits) : IsWhole digits :=
  ⟨noZero.nonempty, noZero.all, fun zero => absurd zero noZero.first⟩

theorem append (noZero : NoLeadingZero digits) (all : ∀ c ∈ more, c.isDigit) :
    NoLeadingZero (digits ++ more) where
  nonempty := List.append_ne_nil_of_left_ne_nil noZero.nonempty _
  all c member := (List.mem_append.mp member).elim (noZero.all c) (all c)
  first := by
    rw [List.head?_append_of_ne_nil _ noZero.nonempty]
    exact noZero.first

theorem take (noZero : NoLeadingZero digits) {count : Nat} (some : 0 < count) :
    NoLeadingZero (digits.take count) where
  nonempty := by simp [noZero.nonempty, Nat.ne_of_gt some]
  all c member := noZero.all c (List.mem_of_mem_take member)
  first := by
    rw [List.head?_take, if_neg (Nat.ne_of_gt some)]
    exact noZero.first

end NoLeadingZero

theorem noLeadingZero_toString {n : Nat} (positive : 0 < n) :
    NoLeadingZero (toString n).toList := by
  rw [Nat.toString_eq_ofList_toDigits, String.toList_ofList]
  exact ⟨Nat.toDigits_ne_nil, toDigits_isDigit n, toDigits_head positive⟩

theorem isWhole_toString (n : Nat) : IsWhole (toString n).toList := by
  rcases Nat.eq_zero_or_pos n with rfl | positive
  · decide
  · exact (noLeadingZero_toString positive).whole

theorem isDigit_of_mem_zeros {count : Nat} : ∀ c ∈ List.replicate count '0', c.isDigit := by
  intro c member
  rw [List.eq_of_mem_replicate member]
  decide

namespace Decimal

-- More digits behind a positive number leave it without a leading zero, and so does cutting off
-- some of its digits.
theorem isNumeral_text {d : Decimal} (positive : 0 < d.digits) : IsNumeral d.text.toList := by
  have noZero := noLeadingZero_toString positive
  rw [text]
  split_ifs with whole inside
  · rw [String.toList_ofList]
    exact .whole (noZero.append isDigit_of_mem_zeros).whole
  · rw [String.toList_ofList]
    have some : 0 < (toString d.digits).toList.length - (-d.exponent).toNat := by omega
    exact .decimal (noZero.take some).whole fun c member =>
      noZero.all c (List.mem_of_mem_drop member)
  · rw [String.toList_ofList]
    have zero : IsWhole ['0'] := by decide
    apply IsNumeral.decimal zero
    intro c member
    rcases List.mem_append.mp member with isZero | inDigits
    · exact isDigit_of_mem_zeros c isZero
    · exact noZero.all c inDigits

theorem Interval.positive_of_contains {i : Interval} {up down count : Nat} (low : 0 < i.low)
    (scale : 0 < up) (inside : i.contains up down count) : 0 < count := by
  rcases Nat.eq_zero_or_pos count with zero | positive
  · subst zero
    have product : 0 < i.low * up := Nat.mul_pos low scale
    rw [Interval.contains] at inside
    split at inside
    · simp only [Nat.zero_mul, Nat.le_zero_eq, Bool.and_eq_true, decide_eq_true_eq] at inside
      omega
    · simp at inside
  · exact positive

theorem Interval.positive_of_onGrid {i : Interval} {place : Int} {d : Decimal} (low : 0 < i.low)
    (found : i.onGrid? place = some d) : 0 < d.digits := by
  have scale : 0 < Nat.pow 2 i.scale.toNat * Nat.pow 10 (-place).toNat :=
    Nat.mul_pos (Nat.pow_pos (by decide)) (Nat.pow_pos (by decide))
  rw [Interval.onGrid?] at found
  split at found
  · rename_i above
    cases found
    exact Nat.succ_pos _
  · split at found
    · rename_i below
      cases found
      exact positive_of_contains low scale below
    · cases found

theorem Interval.positive_shortest {i : Interval} (low : 0 < i.low) (value : 0 < i.value) :
    0 < i.shortest.digits := by
  rw [Interval.shortest]
  cases found : places.findSome? i.onGrid? with
  | none => exact value
  | some d =>
      obtain ⟨place, _, onGrid⟩ := List.exists_of_findSome?_eq_some found
      exact positive_of_onGrid low onGrid

theorem Interval.ofBinary_positive {significand : Nat} (positive : 0 < significand)
    (exponent : Int) (narrow : Bool) :
    0 < (ofBinary significand exponent narrow).low ∧
      0 < (ofBinary significand exponent narrow).value := by
  cases narrow <;> simp [ofBinary] <;> omega

/-- The interval of the absolute value of a finite float. -/
def interval (x : Float) : Interval :=
  let fraction := (x.toBits &&& 0xFFFFFFFFFFFFF).toNat
  let biased := ((x.toBits >>> 52) &&& 0x7FF).toNat
  if biased = 0 then .ofBinary fraction (-1074) false
  else .ofBinary (fraction + 0x10000000000000) (biased - 1075) (fraction = 0 && biased > 1)

/-- The text of the absolute value. -/
def unsigned (x : Float) : String :=
  if (interval x).value = 0 then "0" else (interval x).shortest.text

theorem ofFinite_eq (x : Float) :
    ofFinite x = if isNegative x then "-" ++ unsigned x else unsigned x := rfl

theorem magnitude_eq (x : Float) : magnitude x = unsigned x := by
  rw [magnitude, ofFinite_eq]
  split_ifs
  · simp
  · rfl

theorem interval_low {x : Float} (value : (interval x).value ≠ 0) : 0 < (interval x).low := by
  simp only [interval] at value ⊢
  split_ifs at value ⊢ with subnormal
  · have positive : 0 < (x.toBits &&& 0xFFFFFFFFFFFFF).toNat := by
      simp only [Interval.ofBinary] at value
      omega
    exact (Interval.ofBinary_positive positive _ _).1
  · exact (Interval.ofBinary_positive (Nat.add_pos_right _ (by decide)) _ _).1

theorem isNumeral_magnitude (x : Float) : IsNumeral (magnitude x).toList := by
  rw [magnitude_eq, unsigned]
  split_ifs with zero
  · exact .whole (by decide)
  · exact isNumeral_text (Interval.positive_shortest (interval_low zero) (Nat.pos_of_ne_zero zero))

theorem ofFinite_magnitude (x : Float) :
    ofFinite x = if isNegative x then "-" ++ magnitude x else magnitude x := by
  rw [ofFinite_eq, magnitude_eq]

end Decimal

section
variable {A : Alphabet}

-- A number with a sign before it.
theorem means_signed {t : Tree} {text : String} {ts : List Token} (isNegative : Bool)
    (noMinus : text.toList.head? ≠ some '-') (written : Written A (t.isNumber = false) text ts)
    (reads : Reads .primary ts t) :
    Means A (.number isNegative (if isNegative then "-" ++ text else text))
      (.ofTree (.signed isNegative t)) := by
  cases isNegative with
  | false => exact means_primary written reads
  | true =>
      have noEquals := written.head_ne_equals reads
      have ends : Mark.minus.endsBefore text.toList.head? := by
        cases isHead : text.toList.head? <;> simp_all [Mark.endsBefore, Mark.grows]
      have bare : Written A False text ts := written.mono False.elim
      exact means_loose (p := .unary) (by decide) (bare.unary ends ⟨'-', rfl, rfl⟩)
        (.unary rfl (reads.loosen (by decide)))

theorem toString_toInt (value : Int64) :
    toString value.toInt =
      if value < 0 then "-" ++ toString value.toInt.natAbs else toString value.toInt.natAbs := by
  have sign : value < 0 ↔ value.toInt < 0 := Int64.lt_iff_toInt_lt
  simp only [sign]
  generalize value.toInt = i
  cases i with
  | ofNat n => rfl
  | negSucc n =>
      rw [if_pos (Int.negSucc_lt_zero n)]
      rfl

theorem means_number {text : String} (numeral : IsNumeral text.toList) (isNegative : Bool) :
    Means A (.number isNegative (if isNegative then "-" ++ text else text))
      (.ofTree (.signed isNegative (.number text))) := by
  obtain ⟨c, rest, chars, digit⟩ := numeral.digit_first
  refine means_signed isNegative ?_ ((written_number numeral).mono nofun) (.number text)
  rintro minus
  rw [chars] at minus
  cases minus
  exact absurd digit (by decide)

theorem isName_nan : A.IsName "NaN" :=
  A.isName_of_letters (by decide) (by decide) (by decide)

theorem isName_infinity : A.IsName "Infinity" :=
  A.isName_of_letters (by decide) (by decide) (by decide)

theorem means_float (value : Float) : Means A (.ofFloat value) (.ofTree (.ofFloat value)) := by
  have infinity : Written A ((Tree.name "Infinity").isNumber = false) "Infinity" _ :=
    (written_name isName_infinity).mono fun _ => trivial
  rw [Rendered.ofFloat, Tree.ofFloat]
  split_ifs with isNaN isInf positive
  · exact means_primary ((written_name isName_nan).mono fun _ => trivial) (.name _)
  · rw [decide_eq_true positive]
    exact means_signed false (by decide) infinity (.name "Infinity")
  · simpa [positive] using means_signed true (by decide) infinity (.name "Infinity")
  · rw [Decimal.ofFinite_magnitude]
    exact means_number (Decimal.isNumeral_magnitude value) (Decimal.isNegative value)

theorem means_literal (value : Literal) :
    Means A (.ofLiteral value) (.ofTree (.ofLiteral value)) := by
  have constant : ∀ {word : String}, word ∈ constantWords → word ∈ reserved →
      Means A (.primary word) (.ofTree (.constant word)) := fun isConstant member =>
    means_primary ((written_keyword member).mono fun _ => trivial) (.constant isConstant)
  cases value with
  | null => exact constant (by decide) (by decide)
  | unit => exact means_primary ((written_name isName_undefined).mono fun _ => trivial) (.name _)
  | bool value => cases value <;> exact constant (by decide) (by decide)
  | int value =>
      have numeral := IsNumeral.whole (isWhole_toString value.toInt.natAbs)
      have means := means_number (A := A) numeral (decide (value < 0))
      rw [Rendered.ofLiteral, Tree.ofLiteral, toString_toInt]
      simpa using means
  | float value => exact means_float value
  | string value => exact means_primary ((written_string value).mono fun _ => trivial) (.string _)
  | char value => exact means_primary ((written_string _).mono fun _ => trivial) (.string _)

end
end CallReplacement
