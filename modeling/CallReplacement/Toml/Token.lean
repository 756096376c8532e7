/-!
The tokens of a configuration document. Every character belongs to a token: a mark, blanks, a
comment, a line end, a text with its quotes, or an atom, which is a run of anything else.
Whether a text or an atom means something is not asked here.
-/

namespace CallReplacement.Toml

abbrev Chars := List Char

def isBlank (c : Char) : Bool := c == ' ' || c == '\t'

def isPlain (c : Char) : Bool := c == '\t' || (32 ≤ c.toNat && c.toNat != 127)

inductive Quoting
  | basic
  | literal
  | longBasic
  | longLiteral
deriving DecidableEq, Repr

structure QuotedText where
  quoting : Quoting
  body : Chars
  isClosed : Bool
deriving DecidableEq, Repr

inductive Token
  | dot
  | equals
  | comma
  | openBracket
  | closeBracket
  | openBrace
  | closeBrace
  | blanks (text : Chars)
  | comment (text : Chars)
  /-- A carriage return ends a line only with a line feed behind it. -/
  | lineEnd (isWhole : Bool)
  | quoted (text : QuotedText)
  | atom (text : Chars)
deriving DecidableEq, Repr

def endsAtom (c : Char) : Bool :=
  ['.', '=', ',', '[', ']', '\x7b', '\x7d', ' ', '\t', '#', '\r', '\n'].contains c

structure Cut where
  body : Chars
  isClosed : Bool
  rest : Chars

namespace Cut

def unclosed (rest : Chars) : Cut := ⟨[], false, rest⟩

def close (rest : Chars) : Cut := ⟨[], true, rest⟩

/-- Two quotes more may stand before those that close a long text; they belong to it. -/
def closeLong (quote : Char) : Chars → Cut
  | a :: b :: rest =>
      if a = quote then
        if b = quote then ⟨[a, b], true, rest⟩ else ⟨[a], true, b :: rest⟩
      else close (a :: b :: rest)
  | [a] => if a = quote then ⟨[a], true, []⟩ else close [a]
  | [] => close []

def push (c : Char) (cut : Cut) : Cut := { cut with body := c :: cut.body }

end Cut

def cutBasic : Chars → Cut
  | [] => .unclosed []
  | '"' :: rest => .close rest
  | '\n' :: rest => .unclosed ('\n' :: rest)
  | '\\' :: '"' :: rest => .push '\\' (.push '"' (cutBasic rest))
  | '\\' :: '\\' :: rest => .push '\\' (.push '\\' (cutBasic rest))
  | c :: rest => .push c (cutBasic rest)

def cutLiteral : Chars → Cut
  | [] => .unclosed []
  | '\'' :: rest => .close rest
  | '\n' :: rest => .unclosed ('\n' :: rest)
  | c :: rest => .push c (cutLiteral rest)

def cutLongBasic : Chars → Cut
  | [] => .unclosed []
  | '"' :: '"' :: '"' :: rest => .closeLong '"' rest
  | '\\' :: '"' :: rest => .push '\\' (.push '"' (cutLongBasic rest))
  | '\\' :: '\\' :: rest => .push '\\' (.push '\\' (cutLongBasic rest))
  | c :: rest => .push c (cutLongBasic rest)

def cutLongLiteral : Chars → Cut
  | [] => .unclosed []
  | '\'' :: '\'' :: '\'' :: rest => .closeLong '\'' rest
  | c :: rest => .push c (cutLongLiteral rest)

def quotedToken (quoting : Quoting) (cut : Cut) : Token × Chars :=
  (.quoted ⟨quoting, cut.body, cut.isClosed⟩, cut.rest)

def isLineEnd (c : Char) : Bool := c == '\r' || c == '\n'

def token (c : Char) (rest : Chars) : Token × Chars :=
  match c, rest with
  | '.', _ => (.dot, rest)
  | '=', _ => (.equals, rest)
  | ',', _ => (.comma, rest)
  | '[', _ => (.openBracket, rest)
  | ']', _ => (.closeBracket, rest)
  | '\x7b', _ => (.openBrace, rest)
  | '\x7d', _ => (.closeBrace, rest)
  | '\n', _ => (.lineEnd true, rest)
  | '\r', '\n' :: rest => (.lineEnd true, rest)
  | '\r', _ => (.lineEnd false, rest)
  | '#', _ => (.comment (rest.takeWhile (!isLineEnd ·)), rest.dropWhile (!isLineEnd ·))
  | '"', '"' :: '"' :: rest => quotedToken .longBasic (cutLongBasic rest)
  | '"', _ => quotedToken .basic (cutBasic rest)
  | '\'', '\'' :: '\'' :: rest => quotedToken .longLiteral (cutLongLiteral rest)
  | '\'', _ => quotedToken .literal (cutLiteral rest)
  | _, _ =>
      if isBlank c then (.blanks (c :: rest.takeWhile isBlank), rest.dropWhile isBlank)
      else (.atom (c :: rest.takeWhile (!endsAtom ·)), rest.dropWhile (!endsAtom ·))

/-- The tokens of a text. Each consumes a character at least, so that there are no more steps
than characters. -/
def tokens : (steps : Nat) → Chars → List Token
  | 0, _ => []
  | _, [] => []
  | steps + 1, c :: rest =>
      let (first, rest) := token c rest
      first :: tokens steps rest

def tokensOf (document : String) : List Token :=
  match document.toList with
  | '\ufeff' :: rest => tokens rest.length rest
  | cs => tokens cs.length cs

end CallReplacement.Toml
