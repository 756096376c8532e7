import CallReplacement.Json.Value
import CallReplacement.Text.Place

/-!
The lexemes of a JSON text. A text or a number may be fit for being passed over without being
fit for being read: escapes of half a character and numbers beyond the range of 64-bit floats
are faults only for those who want the value.

A place in the text is the number of bytes consumed before it.
-/

namespace CallReplacement

inductive ReadFault
  /-- It is no JSON; so many bytes were consumed when that showed. -/
  | malformed (consumed : Nat)
  | unfinished (consumed : Nat)
  | misfit
deriving DecidableEq, Repr

namespace Json

inductive Lexeme
  | mark (c : Char)
  | constant (value : Json)
  | text (value : Except ReadFault String)
  | number (value : Except ReadFault Json)
  | brokenText (fault passing : ReadFault)
  | broken (fault passing : ReadFault)
  | stray

structure Scanned where
  lexeme : Lexeme
  rest : List Char
  place : Nat

def isBlank (c : Char) : Bool := c == ' ' || c == '\n' || c == '\t' || c == '\r'

/-! ## Texts -/

def hexValue? (c : Char) : Option Nat :=
  if '0' ≤ c ∧ c ≤ '9' then some (c.toNat - 48)
  else if 'a' ≤ c ∧ c ≤ 'f' then some (c.toNat - 87)
  else if 'A' ≤ c ∧ c ≤ 'F' then some (c.toNat - 55)
  else none

def hex4? (a b c d : Char) : Option Nat := do
  some (4096 * (← hexValue? a) + 256 * (← hexValue? b) + 16 * (← hexValue? c)
    + (← hexValue? d))

def hexFault (cs : List Char) (place : Nat) : ReadFault :=
  if Text.byteLength cs < 4 then .unfinished (place + Text.byteLength cs)
  else .malformed (place + 4)

def isHigh (n : Nat) : Bool := 0xD800 ≤ n && n ≤ 0xDBFF

def isLow (n : Nat) : Bool := 0xDC00 ≤ n && n ≤ 0xDFFF

def paired (high low : Nat) : Char :=
  Char.ofNat (0x10000 + (high - 0xD800) * 0x400 + (low - 0xDC00))

def simpleEscape? : Char → Option Char
  | '"' => some '"'
  | '\\' => some '\\'
  | '/' => some '/'
  | 'b' => some '\x08'
  | 'f' => some '\x0c'
  | 'n' => some '\n'
  | 'r' => some '\r'
  | 't' => some '\t'
  | _ => none

/-- What a reader has of a text: the characters so far in reverse, the first flaw met, and the
first half of a character, if that was the last thing read. -/
structure TextState where
  read : List Char := []
  flaw : Option ReadFault := none
  half : Option Nat := none

namespace TextState

def flawed (s : TextState) (fault : ReadFault) : TextState :=
  { s with flaw := s.flaw.or (some fault) }

/-- A first half is a flaw when something else than its second half follows; that shows at the
given place. -/
def settled (s : TextState) (place : Nat) : TextState :=
  match s.half with
  | some _ => { s.flawed (.malformed place) with half := none }
  | none => s

def push (s : TextState) (c : Char) : TextState := { s with read := c :: s.read }

def unit (s : TextState) (n place : Nat) : TextState :=
  match s.half, isLow n with
  | some high, true => { s.push (paired high n) with half := none }
  | none, true => s.flawed (.malformed place)
  | _, false =>
      let s := s.settled place
      if isHigh n then { s with half := some n } else s.push (Char.ofNat n)

def result (s : TextState) : Except ReadFault String :=
  match s.flaw with
  | some fault => .error fault
  | none => .ok (String.ofList s.read.reverse)

/-- A text that ends badly; a reader stops at an earlier flaw if there is one. -/
def broken (s : TextState) (fault passing : ReadFault) : Scanned :=
  ⟨.brokenText (s.flaw.getD fault) passing, [], 0⟩

end TextState

def scanText (s : TextState) (place : Nat) : List Char → Scanned
  | [] => s.broken (.unfinished place) (.unfinished place)
  | '"' :: rest => ⟨.text (s.settled (place + 1)).result, rest, place + 1⟩
  | ['\\'] => s.broken (.unfinished (place + 1)) (.unfinished (place + 1))
  | '\\' :: 'u' :: a :: b :: c :: d :: rest =>
      match hex4? a b c d with
      | some n => scanText (s.unit n (place + 6)) (place + 6) rest
      | none =>
          let fault := hexFault (a :: b :: c :: d :: rest) (place + 2)
          s.broken fault fault
  | '\\' :: 'u' :: rest =>
      let fault := hexFault rest (place + 2)
      s.broken fault fault
  | '\\' :: c :: rest =>
      match simpleEscape? c with
      | some escaped => scanText ((s.settled (place + 2)).push escaped) (place + 2) rest
      | none => s.broken (.malformed (place + 2)) (.malformed (place + 2))
  | c :: rest =>
      if c.toNat < 32 then s.broken (.malformed (place + 1)) (.malformed place)
      else scanText ((s.settled (place + 1)).push c) (place + c.utf8Size) rest

/-! ## Numbers

The digits are gathered into a significand of 64 bits. Digits that do not fit any more count as
powers of ten before the point, and are dropped behind it. The float is the significand times
or over a power of ten, rounded at each of the two steps. -/

def digitValue (c : Char) : Nat := c.toNat - 48

def maxSignificand : Nat := 0xFFFFFFFFFFFFFFFF

def gatherWhole (significand : Nat) : List Char → Nat × Nat
  | [] => (significand, 0)
  | c :: rest =>
      if significand * 10 + digitValue c ≤ maxSignificand then
        gatherWhole (significand * 10 + digitValue c) rest
      else (significand, rest.length + 1)

def gatherFraction (significand fitted : Nat) : List Char → Nat × Nat
  | [] => (significand, fitted)
  | c :: rest =>
      if significand * 10 + digitValue c ≤ maxSignificand then
        gatherFraction (significand * 10 + digitValue c) (fitted + 1) rest
      else (significand, fitted)

def tenTo (n : Nat) : Float := Float.ofScientific 1 false n

/-- The significand times a power of ten, unless it is beyond the range of floats. Large
negative powers are taken in steps. -/
def scale (value : Float) (exponent : Int) : Nat → Option Float
  | 0 => some value
  | steps + 1 =>
      if exponent.natAbs ≤ 308 then
        if exponent ≥ 0 then
          let scaled := value * tenTo exponent.natAbs
          if scaled.isInf then none else some scaled
        else some (value / tenTo exponent.natAbs)
      else if value == 0 then some value
      else if exponent ≥ 0 then none
      else scale (value / tenTo 308) (exponent + 308) steps

def maxExponent : Nat := 0x7FFFFFFF

def gatherExponent (value count : Nat) : List Char → Nat × Option Nat
  | [] => (count, some value)
  | c :: rest =>
      if value * 10 + digitValue c ≤ maxExponent then
        gatherExponent (value * 10 + digitValue c) (count + 1) rest
      else (count + 1, none)

def clampExponent (e : Int) : Int := max (-0x80000000) (min e 0x7FFFFFFF)

def signed (negative : Bool) (value : Float) : Float := if negative then -value else value

def ofUInt64 (n : Nat) : Float := (UInt64.ofNat n).toFloat

structure NumberParts where
  negative : Bool
  whole : List Char
  fraction : Option (List Char)
  exponent : Option (Bool × List Char × Nat)
  place : Nat

/-- A number without fraction and exponent. A zero with a sign is a float. -/
def wholeNumber (negative : Bool) (significand : Nat) : Json :=
  if !negative then .int significand
  else if 0 < significand ∧ significand ≤ 0x8000000000000000 then .int (-significand)
  else .float (-ofUInt64 significand)

def NumberParts.value (p : NumberParts) : Except ReadFault Json :=
  let whole := gatherWhole 0 p.whole
  let all := match p.fraction with
    | some digits => gatherFraction whole.1 0 digits
    | none => (whole.1, 0)
  let power : Int := whole.2 - all.2
  let scaled (exponent : Int) : Except ReadFault Json :=
    match scale (ofUInt64 all.1) exponent 4 with
    | some value => .ok (.float (signed p.negative value))
    | none => .error (.malformed p.place)
  match p.exponent with
  | none => if p.fraction.isNone ∧ whole.2 = 0 then .ok (wholeNumber p.negative whole.1)
      else scaled power
  | some (down, digits, first) =>
      match gatherExponent 0 0 digits with
      | (_, some value) => scaled (clampExponent (if down then power - value else power + value))
      | (count, none) =>
          if all.1 ≠ 0 ∧ !down then .error (.malformed (first + count))
          else .ok (.float (signed p.negative 0))

def brokenNumber (place : Nat) : List Char → Scanned
  | [] => ⟨.broken (.unfinished place) (.malformed place), [], 0⟩
  | _ => ⟨.broken (.malformed (place + 1)) (.malformed (place + 1)), [], 0⟩

def scanExponent (p : NumberParts) (cs : List Char) : Scanned :=
  let (down, signWidth, cs) := match cs with
    | '-' :: rest => (true, 1, rest)
    | '+' :: rest => (false, 1, rest)
    | _ => (false, 0, cs)
  let digits := cs.takeWhile Char.isDigit
  let first := p.place + 1 + signWidth
  if digits.isEmpty then brokenNumber first cs
  else
    let p := { p with exponent := some (down, digits, first), place := first + digits.length }
    ⟨.number p.value, cs.dropWhile Char.isDigit, p.place⟩

def endNumber (p : NumberParts) (cs : List Char) : Scanned :=
  match cs with
  | 'e' :: rest | 'E' :: rest => scanExponent p rest
  | _ => ⟨.number p.value, cs, p.place⟩

def scanFraction (p : NumberParts) (cs : List Char) : Scanned :=
  match cs with
  | '.' :: rest =>
      let digits := rest.takeWhile Char.isDigit
      let after := rest.dropWhile Char.isDigit
      if digits.isEmpty then brokenNumber (p.place + 1) rest
      else
        endNumber { p with fraction := some digits, place := p.place + 1 + digits.length } after
  | _ => endNumber p cs

/-- Scans a number behind its sign. Nothing follows a zero at the front but a point or an
exponent. -/
def scanNumber (negative : Bool) (place : Nat) (cs : List Char) : Scanned :=
  let digits := cs.takeWhile Char.isDigit
  match digits with
  | [] => brokenNumber place cs
  | '0' :: _ :: _ =>
      ⟨.broken (.malformed (place + 2)) (.malformed (place + 2)), [], 0⟩
  | _ =>
      scanFraction ⟨negative, digits, none, none, place + digits.length⟩
        (cs.dropWhile Char.isDigit)

/-! ## Words and marks -/

def scanWord (value : Json) (place : Nat) : (word cs : List Char) → Scanned
  | [], cs => ⟨.constant value, cs, place⟩
  | _, [] => ⟨.broken (.unfinished place) (.unfinished place), [], 0⟩
  | w :: word, c :: rest =>
      if w = c then scanWord value (place + 1) word rest
      else ⟨.broken (.malformed (place + 1)) (.malformed (place + 1)), [], 0⟩

def scan (place : Nat) (c : Char) (rest : List Char) : Scanned :=
  if c = '"' then scanText {} (place + 1) rest
  else if c = '-' then scanNumber true (place + 1) rest
  else if c.isDigit then scanNumber false place (c :: rest)
  else if c = 'n' then scanWord .null (place + 1) ['u', 'l', 'l'] rest
  else if c = 't' then scanWord (.bool true) (place + 1) ['r', 'u', 'e'] rest
  else if c = 'f' then scanWord (.bool false) (place + 1) ['a', 'l', 's', 'e'] rest
  else if ['[', ']', '\x7b', '\x7d', ',', ':'].contains c then ⟨.mark c, rest, place + 1⟩
  else ⟨.stray, rest, place + 1⟩

/-- The lexemes of a text with their places. Each consumes a character at least, so that there
are no more steps than characters; nothing is looked at behind a lexeme that is broken. -/
def lexemes (place : Nat) : (steps : Nat) → List Char → List (Nat × Lexeme)
  | 0, _ => []
  | _, [] => []
  | steps + 1, c :: rest =>
      if isBlank c then lexemes (place + 1) steps rest
      else
        let scanned := scan place c rest
        (place, scanned.lexeme) :: lexemes scanned.place steps scanned.rest

def lexemesOf (text : String) : List (Nat × Lexeme) := lexemes 0 text.toList.length text.toList

end Json
end CallReplacement
