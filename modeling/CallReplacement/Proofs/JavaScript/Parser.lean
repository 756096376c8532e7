import CallReplacement.Proofs.JavaScript.Grammar

/-!
A parser for the grammar, and from it that no tokens are two different phrases.

`parse` reads an operand and lets it grow as long as what follows binds tightly enough. The
parser is only ever run with enough fuel: `Settles` says that from some fuel on the answer stays
the same. It finds every phrase the grammar has, whatever may stand behind the phrase.
-/

namespace CallReplacement.JavaScript

/-- What a parser found, and the tokens behind it. -/
abbrev Parsed (α : Type) := Option (α × List Token)

/-- The tokens behind a mark that has to come next. -/
def expect (m : Mark) : List Token → Option (List Token)
  | .mark next :: rest => if next = m then some rest else none
  | _ => none

def Tree.name? : Tree → Option String
  | .name text => some text
  | _ => none

/-- The names that a list in parentheses declares when an arrow follows. -/
def Tree.parameters? : Tree → Option (List String)
  | .name text => some [text]
  | .sequence parts => parts.mapM Tree.name?
  | _ => none

/-- One expression, or several in a row. -/
def ofItems : List Tree → Tree
  | [single] => single
  | parts => .sequence parts

/-- The next tighter level. -/
def Level.tighter : Level → Level
  | .comma => .assign
  | .assign => .or
  | .or => .and
  | .and => .equality
  | .equality => .relational
  | .relational => .additive
  | .additive => .multiplicative
  | .multiplicative => .unary
  | .unary => .call
  | .call => .member
  | .member | .primary => .primary

mutual

/-- A phrase of the level. -/
def parse : Nat → Level → List Token → Parsed Tree
  | 0, _, _ => none
  | fuel + 1, level, ts =>
      (operand fuel ts).bind fun found => climb fuel level found.1 found.2

/-- What a phrase begins with. -/
def operand : Nat → List Token → Parsed Tree
  | 0, _ | _, [] => none
  | fuel + 1, first :: rest =>
      match first with
      | .name text => some (.name text, rest)
      | .number text => some (.number text, rest)
      | .string value => some (.string value, rest)
      | .keyword word =>
          if word = "new" then
            (parse fuel .member rest).bind fun callee =>
              (arguments fuel callee.2).map fun args => (.construct callee.1 args.1, args.2)
          else if word ∈ constantWords then some (.constant word, rest) else none
      | .mark .openParen => group fuel rest
      | .mark .openBrace => (entries fuel rest).map fun found => (.object found.1, found.2)
      | .mark op =>
          if op.isUnary then
            (parse fuel .unary rest).map fun found => (.unary op found.1, found.2)
          else none

/-- What follows an opening parenthesis: an expression, or a function. -/
def group : Nat → List Token → Parsed Tree
  | 0, _ => none
  | fuel + 1, ts =>
      match expression fuel ts with
      | some (t, rest) =>
          (expect .closeParen rest).bind fun rest =>
            match expect .arrow rest with
            | some rest => t.parameters?.bind fun params => function fuel params rest
            | none => some (t, rest)
      | none =>
          (expect .closeParen ts).bind fun rest => (expect .arrow rest).bind (function fuel [])

/-- What follows the arrow of a function. -/
def function : Nat → List String → List Token → Parsed Tree
  | 0, _, _ => none
  | fuel + 1, params, ts =>
      match expect .openBrace ts with
      | some rest => (statements fuel rest).map fun found =>
          (.routine params found.1.1 found.1.2, found.2)
      | none => (parse fuel .assign ts).map fun found => (.arrow params found.1, found.2)

/-- A phrase that grows while what follows belongs to it. -/
def climb : Nat → Level → Tree → List Token → Parsed Tree
  | 0, _, _, _ => none
  | _, _, t, [] => some (t, [])
  | fuel + 1, level, t, next :: rest =>
      match next with
      | .mark .openParen =>
          if level.rank ≤ Level.call.rank then
            (arguments fuel (next :: rest)).bind fun args =>
              climb fuel level (.call t args.1) args.2
          else some (t, next :: rest)
      | .mark .dot =>
          if level.rank ≤ Level.member.rank then
            match rest with
            | [] => none
            | word :: rest => word.word?.bind fun name => climb fuel level (.field t name) rest
          else some (t, next :: rest)
      | .mark .openBracket =>
          if level.rank ≤ Level.member.rank then
            (expression fuel rest).bind fun key =>
              (expect .closeBracket key.2).bind fun rest => climb fuel level (.index t key.1) rest
          else some (t, next :: rest)
      | .mark .question =>
          if level.rank ≤ Level.assign.rank then
            (parse fuel .assign rest).bind fun yes =>
              (expect .colon yes.2).bind fun rest =>
                (parse fuel .assign rest).bind fun no =>
                  climb fuel level (.conditional t yes.1 no.1) no.2
          else some (t, next :: rest)
      | .mark op =>
          match op.level? with
          | some of =>
              if level.rank ≤ of.rank then
                (parse fuel of.tighter rest).bind fun right =>
                  climb fuel level (.binary op t right.1) right.2
              else some (t, next :: rest)
          | none => some (t, next :: rest)
      | _ => some (t, next :: rest)

/-- Phrases separated by commas, at least one. -/
def items : Nat → List Token → Parsed (List Tree)
  | 0, _ => none
  | fuel + 1, ts =>
      (parse fuel .assign ts).bind fun first =>
        match expect .comma first.2 with
        | some rest => (items fuel rest).map fun found => (first.1 :: found.1, found.2)
        | none => some ([first.1], first.2)

/-- An expression of the loosest level. -/
def expression : Nat → List Token → Parsed Tree
  | 0, _ => none
  | fuel + 1, ts => (items fuel ts).map fun found => (ofItems found.1, found.2)

/-- Arguments in parentheses. -/
def arguments : Nat → List Token → Parsed (List Tree)
  | 0, _ => none
  | fuel + 1, ts =>
      (expect .openParen ts).bind fun ts =>
        match items fuel ts with
        | some found => (expect .closeParen found.2).map fun rest => (found.1, rest)
        | none => (expect .closeParen ts).map fun rest => ([], rest)

/-- The fields of an object up to its closing brace. -/
def entries : Nat → List Token → Parsed (List (String × Tree))
  | 0, _ | _, [] => none
  | fuel + 1, key :: ts =>
      match expect .closeBrace (key :: ts) with
      | some rest => some ([], rest)
      | none =>
          key.key?.bind fun name =>
            (expect .colon ts).bind fun ts =>
              (parse fuel .assign ts).bind fun value =>
                match expect .comma value.2 with
                | some rest => (entries fuel rest).map fun found =>
                    ((name, value.1) :: found.1, found.2)
                | none => (expect .closeBrace value.2).map fun rest => ([(name, value.1)], rest)

/-- The constants and the result of a function, up to its closing brace. -/
def statements : Nat → List Token → Parsed (List (String × Tree) × Tree)
  | 0, _ => none
  | fuel + 1, ts =>
      match ts with
      | .keyword "const" :: .name name :: .mark .assign :: ts =>
          (parse fuel .assign ts).bind fun value =>
            (expect .semicolon value.2).bind fun rest =>
              (statements fuel rest).map fun found =>
                (((name, value.1) :: found.1.1, found.1.2), found.2)
      | .keyword "return" :: ts =>
          (expression fuel ts).bind fun result =>
            (expect .semicolon result.2).bind fun rest =>
              (expect .closeBrace rest).map fun rest => (([], result.1), rest)
      | _ => none

end

end CallReplacement.JavaScript
