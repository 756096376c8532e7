import CallReplacement.Toml.Scalar

/-!
What texts between quotes stand for. Basic texts have escapes, literal ones have none; long
texts go over several lines.
-/

namespace CallReplacement.Toml

def codePoint? (digits : Chars) : Option Char := do
  let n ← digits.foldlM (fun n c => (hexDigit? c).map (16 * n + ·)) 0
  if h : n.isValidChar then some (Char.ofNatAux n h) else none

def escape? : Char → Option Char
  | 'b' => some '\x08'
  | 't' => some '\t'
  | 'n' => some '\n'
  | 'f' => some '\x0c'
  | 'r' => some '\r'
  | 'e' => some '\x1b'
  | '"' => some '"'
  | '\\' => some '\\'
  | _ => none

def basic? : Chars → Option Chars
  | [] => some []
  | '\\' :: 'x' :: a :: b :: rest => do (← codePoint? [a, b]) :: (← basic? rest)
  | '\\' :: 'u' :: a :: b :: c :: d :: rest => do
      (← codePoint? [a, b, c, d]) :: (← basic? rest)
  | '\\' :: 'U' :: a :: b :: c :: d :: e :: f :: g :: h :: rest => do
      (← codePoint? [a, b, c, d, e, f, g, h]) :: (← basic? rest)
  | '\\' :: c :: rest => do (← escape? c) :: (← basic? rest)
  | c :: rest => if isPlain c && c != '\\' then (basic? rest).map (c :: ·) else none

def literal? (body : Chars) : Option Chars := if body.all isPlain then some body else none

def atLineEnd (cs : Chars) : Bool :=
  match cs.dropWhile isBlank with
  | '\n' :: _ | '\r' :: '\n' :: _ => true
  | _ => false

/-- The characters of a text over several lines with escapes. A backslash at the end of a line
joins it to the next character that is neither blank nor a line end. -/
def longBasic? (joining : Bool) : Chars → Option Chars
  | [] => some []
  | '\\' :: 'x' :: a :: b :: rest => do (← codePoint? [a, b]) :: (← longBasic? false rest)
  | '\\' :: 'u' :: a :: b :: c :: d :: rest => do
      (← codePoint? [a, b, c, d]) :: (← longBasic? false rest)
  | '\\' :: 'U' :: a :: b :: c :: d :: e :: f :: g :: h :: rest => do
      (← codePoint? [a, b, c, d, e, f, g, h]) :: (← longBasic? false rest)
  | '\\' :: c :: rest =>
      match escape? c with
      | some escaped => (longBasic? false rest).map (escaped :: ·)
      | none => if atLineEnd (c :: rest) then longBasic? true (c :: rest) else none
  | '\r' :: '\n' :: rest =>
      if joining then longBasic? true rest
      else (longBasic? false rest).map ('\r' :: '\n' :: ·)
  | '\n' :: rest =>
      if joining then longBasic? true rest else (longBasic? false rest).map ('\n' :: ·)
  | c :: rest =>
      if joining && isBlank c then longBasic? true rest
      else if isPlain c && c != '\\' then (longBasic? false rest).map (c :: ·)
      else none

/-- The characters of a text over several lines without escapes. -/
def longLiteral? : Chars → Option Chars
  | [] => some []
  | '\r' :: '\n' :: rest => (longLiteral? rest).map ('\r' :: '\n' :: ·)
  | '\n' :: rest => (longLiteral? rest).map ('\n' :: ·)
  | c :: rest => if isPlain c then (longLiteral? rest).map (c :: ·) else none

/-- A line end right behind the opening quotes does not belong to the text. -/
def skipLineEnd : Chars → Chars
  | '\n' :: rest => rest
  | '\r' :: '\n' :: rest => rest
  | cs => cs

namespace QuotedText

def isLong (t : QuotedText) : Bool := t.quoting == .longBasic || t.quoting == .longLiteral

def value? (t : QuotedText) : Option String :=
  if !t.isClosed then none
  else Option.map String.ofList <| match t.quoting with
    | .basic => basic? t.body
    | .literal => literal? t.body
    | .longBasic => longBasic? false (skipLineEnd t.body)
    | .longLiteral => longLiteral? (skipLineEnd t.body)

end QuotedText
end CallReplacement.Toml
