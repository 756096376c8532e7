import CallReplacement.Text.Segments
import CallReplacement.Toml.Table
import CallReplacement.Toml.Token

/-!
Words, numbers and dates. No option has a number or a date for its value, so that a number is
looked at only as far as its form goes: underscores stand between digits, those above nine
included, and a whole number with underscores may go on as it likes, as long as nothing makes a
fraction or an exponent of it. A date is looked at closely, down to the length of the month.
-/

namespace CallReplacement.Toml

def hexDigit? (c : Char) : Option Nat :=
  if '0' ≤ c ∧ c ≤ '9' then some (c.toNat - 48)
  else if 'a' ≤ c ∧ c ≤ 'f' then some (c.toNat - 87)
  else if 'A' ≤ c ∧ c ≤ 'F' then some (c.toNat - 55)
  else none

def isHex (c : Char) : Bool := (hexDigit? c).isSome

def isSign (c : Char) : Bool := c == '+' || c == '-'

def withoutSign : Chars → Chars
  | c :: rest => if isSign c then rest else c :: rest
  | [] => []

/-! ## Numbers -/

/-- Whether every underscore stands between digits. The one character before the first
underscore may also be a sign. -/
def underscoresFit (isDigit : Char → Bool) (text : Chars) : Bool :=
  let (first, others) := Text.segments '_' text
  let begins := fun (part : Chars) => part.head?.any isDigit
  let ends := fun (part : Chars) => part.length == 1 || part.getLast?.any isDigit
  others.isEmpty || (ends first && others.all begins && others.dropLast.all ends)

def areDigits (isDigit : Char → Bool) (digits : Chars) : Bool :=
  digits.all (fun c => isDigit c || c == '_') && underscoresFit isDigit digits

def spanDigits (text : Chars) : Chars × Chars :=
  let inside := fun c => Char.isDigit c || c == '_'
  (text.takeWhile inside, text.dropWhile inside)

/-- Whether there are digits and, unless a zero may stand in front, no superfluous one. -/
def isPart (zeroFirst : Bool) (digits : Chars) : Bool :=
  match digits.countP Char.isDigit with
  | 0 => false
  | 1 => true
  | _ => zeroFirst || digits.head? != some '0'

def isExponent : Chars → Bool
  | [] => true
  | c :: rest =>
      let (digits, behind) := spanDigits (withoutSign rest)
      (c == 'e' || c == 'E') && isPart true digits && behind.isEmpty

def isFloat (text : Chars) : Bool :=
  let (whole, rest) := spanDigits text
  isPart false whole &&
    match rest with
    | '.' :: rest =>
        let (fraction, rest) := spanDigits rest
        isPart true fraction && isExponent rest
    | rest => isExponent rest

/-! ## Dates and times -/

def isPair (low high : Nat) (a b : Char) : Bool :=
  let n := 10 * (a.toNat - 48) + (b.toNat - 48)
  a.isDigit && b.isDigit && low ≤ n && n ≤ high

def isLeapYear (year : Nat) : Bool := year % 4 == 0 && (year % 100 != 0 || year % 400 == 0)

def daysOfMonth (year month : Nat) : Nat :=
  match month with
  | 2 => if isLeapYear year then 29 else 28
  | 4 | 6 | 9 | 11 => 30
  | _ => 31

def decimal (digits : Chars) : Nat := digits.foldl (fun n c => 10 * n + (c.toNat - 48)) 0

def isZone : Chars → Bool
  | [] | ['Z'] | ['z'] => true
  | [sign, a, b, ':', c, d] => isSign sign && isPair 0 23 a b && isPair 0 59 c d
  | _ => false

def isSecondEnd (zoned : Bool) (cs : Chars) : Bool :=
  let behind := match cs with
    | '.' :: rest => rest.dropWhile Char.isDigit
    | cs => cs
  let hasDigits := match cs with
    | '.' :: rest => rest.head?.any Char.isDigit
    | _ => true
  hasDigits && if zoned then isZone behind else behind.isEmpty

def isTime (zoned : Bool) : Chars → Bool
  | a :: b :: ':' :: c :: d :: ':' :: e :: f :: rest =>
      isPair 0 23 a b && isPair 0 59 c d && isPair 0 60 e f && isSecondEnd zoned rest
  | a :: b :: ':' :: c :: d :: rest =>
      isPair 0 23 a b && isPair 0 59 c d && if zoned then isZone rest else rest.isEmpty
  | _ => false

def isDateTime : Chars → Bool
  | y :: e :: a :: r :: '-' :: m :: n :: '-' :: d :: f :: rest =>
      [y, e, a, r].all Char.isDigit && isPair 1 12 m n &&
        isPair 1 (daysOfMonth (decimal [y, e, a, r]) (decimal [m, n])) d f &&
        match rest with
        | [] => true
        | separator :: time =>
            (separator == 'T' || separator == 't' || separator == ' ') && isTime true time
  | cs => isTime false cs

/-! ## Scalars -/

def isDecimal (text unsigned : Chars) : Bool :=
  let behind := unsigned.dropWhile Char.isDigit
  match behind with
  | [] => unsigned.head? != some '0' || unsigned.length == 1
  | c :: _ =>
      if c == '-' || c == ':' then isDateTime text
      else if behind.contains ' ' then false
      else if behind.any (['.', 'e', 'E'].contains ·) then
        isFloat unsigned && underscoresFit Char.isDigit text
      else c == '_' && unsigned.head? != some '0' && underscoresFit isHex text

/-- A number or a date. Numbers to another base than ten have no sign. -/
def isNumber (text : Chars) : Bool :=
  match text with
  | '0' :: 'x' :: digits => areDigits isHex digits
  | '0' :: 'o' :: digits => areDigits (fun c => '0' ≤ c && c ≤ '7') digits
  | '0' :: 'b' :: digits => areDigits (fun c => c == '0' || c == '1') digits
  | _ =>
      let unsigned := withoutSign text
      if unsigned = ['i', 'n', 'f'] || unsigned = ['n', 'a', 'n'] then true
      else unsigned.head?.any (fun c => c.isDigit || c == '_') && isDecimal text unsigned

def scalar? (text : Chars) : Option Toml :=
  if text = ['t', 'r', 'u', 'e'] then some (.truth true)
  else if text = ['f', 'a', 'l', 's', 'e'] then some (.truth false)
  else if isNumber text then some .other
  else none

end CallReplacement.Toml
