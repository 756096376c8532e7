import CallReplacement.Proofs.JavaScript.Token

/-!
The grammar of JavaScript expressions, from the comma operator down to primary expressions.
`Reads level ts t` says that the tokens `ts` are a phrase of the level with the tree `t`. Every
phrase is also one of each looser level. Operators of two operands associate to the left: their
right operand binds tighter than they do.

Parentheses leave no trace in a tree.
-/

namespace CallReplacement.JavaScript

inductive Tree
  | name (text : String)
  | number (text : String)
  | string (value : String)
  | constant (word : String)
  | object (fields : List (String × Tree))
  | field (target : Tree) (name : String)
  | index (target key : Tree)
  | call (callee : Tree) (args : List Tree)
  | construct (callee : Tree) (args : List Tree)
  | unary (op : Mark) (operand : Tree)
  | binary (op : Mark) (left right : Tree)
  | conditional (guard yes no : Tree)
  | sequence (parts : List Tree)
  /-- A function that yields an expression. -/
  | arrow (params : List String) (body : Tree)
  /-- A function that declares constants and returns an expression. -/
  | routine (params : List String) (constants : List (String × Tree)) (result : Tree)
deriving Repr

def Tree.isNumber : Tree → Bool
  | .number _ => true
  | _ => false

/-- The levels of phrases, from the loosest to the tightest. -/
inductive Level
  | comma | assign | or | and | equality | relational | additive | multiplicative | unary
  | call | member | primary
deriving DecidableEq, Repr

def Level.rank : Level → Nat
  | .comma => 0
  | .assign => 1
  | .or => 2
  | .and => 3
  | .equality => 4
  | .relational => 5
  | .additive => 6
  | .multiplicative => 7
  | .unary => 8
  | .call => 9
  | .member => 10
  | .primary => 11

/-- The level of the phrases that an operator of two operands makes. -/
def Mark.level? : Mark → Option Level
  | .or => some .or
  | .and => some .and
  | .same | .different => some .equality
  | .less | .lessOrEqual | .greater | .greaterOrEqual => some .relational
  | .plus | .minus => some .additive
  | .star | .slash | .percent => some .multiplicative
  | _ => none

def Mark.isUnary : Mark → Bool
  | .plus | .minus | .not => true
  | _ => false

/-- The reserved words that are values. -/
def constantWords : List String := ["null", "true", "false"]

/-- The name of a field before its value: a word or a string. -/
def Token.key? : Token → Option String
  | .name text | .keyword text | .string text => some text
  | _ => none

/-- Rows of tokens separated by commas. -/
def commas : List (List Token) → List Token
  | [] => []
  | [ts] => ts
  | ts :: next :: rest => ts ++ .mark .comma :: commas (next :: rest)

/-- Tokens with the tree they are read as. -/
structure Part where
  tokens : List Token
  tree : Tree

/-- A field with the token that names it. -/
structure Entry where
  key : Token
  name : String
  value : Part

def Entry.tokens (e : Entry) : List Token := e.key :: .mark .colon :: e.value.tokens

/-- A declared constant. -/
structure Constant where
  name : String
  value : Part

def Constant.tokens (c : Constant) : List Token :=
  .keyword "const" :: .name c.name :: .mark .assign :: (c.value.tokens ++ [.mark .semicolon])

/-- The parameters of a function, in parentheses, and its arrow. -/
def functionTokens (params : List String) (body : List Token) : List Token :=
  .mark .openParen :: (commas (params.map fun name => [.name name]) ++
    .mark .closeParen :: .mark .arrow :: body)

def argumentTokens (parts : List Part) : List Token :=
  .mark .openParen :: (commas (parts.map Part.tokens) ++ [.mark .closeParen])

/-- Constants and a result, in braces. -/
def blockTokens (constants : List Constant) (result : List Token) : List Token :=
  .mark .openBrace :: (constants.flatMap Constant.tokens ++
    .keyword "return" :: (result ++ [.mark .semicolon, .mark .closeBrace]))

inductive Reads : Level → List Token → Tree → Prop
  | name (text) : Reads .primary [.name text] (.name text)
  | number (text) : Reads .primary [.number text] (.number text)
  | string (value) : Reads .primary [.string value] (.string value)
  | constant {word} : word ∈ constantWords → Reads .primary [.keyword word] (.constant word)
  | parenthesized {ts t} : Reads .comma ts t →
      Reads .primary (.mark .openParen :: (ts ++ [.mark .closeParen])) t
  | object (entries : List Entry) :
      (∀ e ∈ entries, e.key.key? = some e.name) →
      (∀ e ∈ entries, Reads .assign e.value.tokens e.value.tree) →
      Reads .primary
        (.mark .openBrace :: (commas (entries.map Entry.tokens) ++ [.mark .closeBrace]))
        (.object (entries.map fun e => (e.name, e.value.tree)))
  | field {level ts t word name} : level = .call ∨ level = .member → Reads level ts t →
      Token.word? word = some name →
      Reads level (ts ++ [.mark .dot, word]) (.field t name)
  | index {level ts t ks k} : level = .call ∨ level = .member → Reads level ts t →
      Reads .comma ks k →
      Reads level (ts ++ .mark .openBracket :: (ks ++ [.mark .closeBracket])) (.index t k)
  | construct {ts t} (parts : List Part) : Reads .member ts t →
      (∀ p ∈ parts, Reads .assign p.tokens p.tree) →
      Reads .member (.keyword "new" :: (ts ++ argumentTokens parts)) (.construct t (parts.map Part.tree))
  | call {ts t} (parts : List Part) : Reads .call ts t →
      (∀ p ∈ parts, Reads .assign p.tokens p.tree) →
      Reads .call (ts ++ argumentTokens parts) (.call t (parts.map Part.tree))
  | unary {op ts t} : op.isUnary → Reads .unary ts t → Reads .unary (.mark op :: ts) (.unary op t)
  | binary {op level tighter ls l rs r} : op.level? = some level → level.rank < tighter.rank →
      Reads level ls l → Reads tighter rs r →
      Reads level (ls ++ .mark op :: rs) (.binary op l r)
  | conditional {gs g ys y ns n} : Reads .or gs g → Reads .assign ys y → Reads .assign ns n →
      Reads .assign (gs ++ .mark .question :: (ys ++ .mark .colon :: ns)) (.conditional g y n)
  | arrow (params) {ts t} : ts.head? ≠ some (.mark .openBrace) → Reads .assign ts t →
      Reads .assign (functionTokens params ts) (.arrow params t)
  | routine (params) (constants : List Constant) {ts t} :
      (∀ c ∈ constants, Reads .assign c.value.tokens c.value.tree) → Reads .comma ts t →
      Reads .assign (functionTokens params (blockTokens constants ts))
        (.routine params (constants.map fun c => (c.name, c.value.tree)) t)
  | sequence (parts : List Part) : 2 ≤ parts.length →
      (∀ p ∈ parts, Reads .assign p.tokens p.tree) →
      Reads .comma (commas (parts.map Part.tokens)) (.sequence (parts.map Part.tree))
  | loosen {level looser ts t} : Reads level ts t → looser.rank ≤ level.rank →
      Reads looser ts t

/-- The marks that phrases begin with. -/
def Mark.begins : Mark → Bool
  | .openParen | .openBrace => true
  | op => op.isUnary

theorem Reads.begins {level : Level} {ts : List Token} {t : Tree} (reads : Reads level ts t) :
    ∃ first rest, ts = first :: rest ∧ ∀ m, first = .mark m → m.begins := by
  induction reads with
  | name | number | string | constant => exact ⟨_, _, rfl, by simp⟩
  | parenthesized | object | arrow | routine => exact ⟨_, _, rfl, by simp [Mark.begins]⟩
  | construct => exact ⟨_, _, rfl, by simp⟩
  | @unary op _ _ isUnary =>
      refine ⟨_, _, rfl, fun m same => ?_⟩
      cases same
      cases op <;> simp_all [Mark.isUnary, Mark.begins]
  | field _ _ _ ih | index _ _ _ ih | call _ _ _ ih | binary _ _ _ _ ih | conditional _ _ _ ih =>
      obtain ⟨first, rest, rfl, begins⟩ := ih
      exact ⟨first, _, rfl, begins⟩
  | sequence parts several _ ih =>
      match parts, several with
      | p :: q :: others, _ =>
          obtain ⟨first, rest, same, begins⟩ := ih p List.mem_cons_self
          refine ⟨first, rest ++ .mark .comma :: commas ((q :: others).map Part.tokens), ?_, begins⟩
          simp only [List.map_cons, commas, same, List.cons_append]
  | loosen _ _ ih => exact ih

end CallReplacement.JavaScript
