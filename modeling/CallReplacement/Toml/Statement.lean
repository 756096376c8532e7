import CallReplacement.Toml.Token

/-!
The statements of a configuration document: headers and assignments. Only their structure is
looked at; texts, words and numbers stay as they are written.
-/

namespace CallReplacement.Toml

inductive Key
  | bare (text : Chars)
  | quoted (text : QuotedText)
deriving DecidableEq, Repr

inductive Written
  | quoted (text : QuotedText)
  | scalar (text : Chars)
  | array (items : List Written)
  | braces (assignments : List (List Key × Written))
deriving Repr

inductive Statement
  | header (path : List Key) (isElement : Bool)
  | assignment (path : List Key) (value : Written)
deriving Repr

def skipBlanks : List Token → List Token
  | .blanks _ :: rest => rest
  | rest => rest

def skipTrivia : List Token → Option (List Token)
  | .blanks _ :: rest => skipTrivia rest
  | .comment words :: rest => if words.all isPlain then skipTrivia rest else none
  | .lineEnd isWhole :: rest => if isWhole then skipTrivia rest else none
  | rest => some rest

def endLine (tokens : List Token) : Option (List Token) :=
  let behind := match skipBlanks tokens with
    | .comment words :: rest => if words.all isPlain then some rest else none
    | rest => some rest
  match behind with
  | some [] => some []
  | some (.lineEnd true :: rest) => some rest
  | _ => none

def key? : Token → Option Key
  | .atom word => some (.bare word)
  | .quoted body => some (.quoted body)
  | _ => none

def scanPath : (steps : Nat) → List Token → Option (List Key × List Token)
  | 0, _ => none
  | steps + 1, tokens => do
      match skipBlanks tokens with
      | [] => none
      | token :: rest =>
          let key ← key? token
          match skipBlanks rest with
          | .dot :: rest => do
              let (path, rest) ← scanPath steps rest
              some (key :: path, rest)
          | rest => some ([key], rest)

/-- The rest of a scalar: dots and atoms, and atoms behind blanks. -/
def scanScalar : List Token → Chars × List Token
  | .dot :: rest =>
      let (more, rest) := scanScalar rest
      ('.' :: more, rest)
  | .atom word :: rest =>
      let (more, rest) := scanScalar rest
      (word ++ more, rest)
  | .blanks between :: .atom word :: rest =>
      let (more, rest) := scanScalar rest
      (between ++ word ++ more, rest)
  | rest => ([], rest)

def maxDepth : Nat := 80

mutual

/-- One value inside so many brackets and braces. Every step of nesting or listing consumes a
token. -/
def scanValue (depth : Nat) : (steps : Nat) → List Token → Option (Written × List Token)
  | 0, _ => none
  | steps + 1, tokens =>
      match tokens with
      | .quoted body :: rest => some (.quoted body, rest)
      | .dot :: _ | .atom _ :: _ =>
          let (words, rest) := scanScalar tokens
          some (.scalar words, rest)
      | .openBracket :: rest =>
          if depth < maxDepth then
            (scanItems (depth + 1) steps rest).map fun (items, rest) => (.array items, rest)
          else none
      | .openBrace :: rest =>
          if depth < maxDepth then
            (scanAssignments (depth + 1) steps rest).map fun (assignments, rest) =>
              (.braces assignments, rest)
          else none
      | _ => none

/-- The items of an array up to its closing bracket. A comma may stand behind the last one. -/
def scanItems (depth : Nat) : (steps : Nat) → List Token → Option (List Written × List Token)
  | 0, _ => none
  | steps + 1, tokens => do
      match ← skipTrivia tokens with
      | .closeBracket :: rest => some ([], rest)
      | tokens => do
          let (item, rest) ← scanValue depth steps tokens
          match ← skipTrivia rest with
          | .comma :: rest => do
              let (items, rest) ← scanItems depth steps rest
              some (item :: items, rest)
          | .closeBracket :: rest => some ([item], rest)
          | _ => none

def scanAssignments (depth : Nat) :
    (steps : Nat) → List Token → Option (List (List Key × Written) × List Token)
  | 0, _ => none
  | steps + 1, tokens => do
      match ← skipTrivia tokens with
      | .closeBrace :: rest => some ([], rest)
      | tokens => do
          let (path, rest) ← scanPath (tokens.length + 1) tokens
          match ← skipTrivia rest with
          | .equals :: rest => do
              let (value, rest) ← scanValue depth steps (← skipTrivia rest)
              match ← skipTrivia rest with
              | .comma :: rest => do
                  let (others, rest) ← scanAssignments depth steps rest
                  some ((path, value) :: others, rest)
              | .closeBrace :: rest => some ([(path, value)], rest)
              | _ => none
          | _ => none

end

def scanHeader (isElement : Bool) (tokens : List Token) : Option (Statement × List Token) := do
  let (path, rest) ← scanPath (tokens.length + 1) tokens
  match isElement, rest with
  | true, .closeBracket :: .closeBracket :: rest => some (.header path true, rest)
  | false, .closeBracket :: rest => some (.header path false, rest)
  | _, _ => none

def scanStatement (tokens : List Token) : Option (Statement × List Token) :=
  match tokens with
  | .openBracket :: .openBracket :: rest => scanHeader true rest
  | .openBracket :: rest => scanHeader false rest
  | tokens => do
      let (path, rest) ← scanPath (tokens.length + 1) tokens
      match rest with
      | .equals :: rest => do
          let (value, rest) ← scanValue 0 (2 * rest.length + 2) (skipBlanks rest)
          some (.assignment path value, rest)
      | _ => none

def statements : (steps : Nat) → List Token → Option (List Statement)
  | 0, tokens => if tokens.isEmpty then some [] else none
  | steps + 1, tokens => do
      match ← skipTrivia tokens with
      | [] => some []
      | tokens => do
          let (statement, rest) ← scanStatement tokens
          let others ← statements steps (← endLine rest)
          some (statement :: others)

def statements? (document : String) : Option (List Statement) :=
  let tokens := tokensOf document
  statements tokens.length tokens

end CallReplacement.Toml
