import CallReplacement.Proofs.JavaScript.Parser

/-!
The parser finds every phrase of the grammar, whatever may stand behind the phrase; so no tokens
are two different phrases. The statement is about phrases that go on to grow: if the parser
settles once the phrase has been read, it settles from the start of the phrase.
-/

namespace CallReplacement.JavaScript

/-- From some fuel on, the answer stays the same. -/
def Settles {α : Type} (f : Nat → Option α) (answer : α) : Prop :=
  ∃ enough, ∀ fuel, enough ≤ fuel → f fuel = some answer

namespace Settles
variable {α β : Type} {f g : Nat → Option α} {a b : α}

theorem now (answer : α) : Settles (fun _ => some answer) answer := ⟨0, fun _ _ => rfl⟩

theorem of_succ (later : Settles (fun fuel => f (fuel + 1)) a) : Settles f a := by
  obtain ⟨enough, settled⟩ := later
  refine ⟨enough + 1, fun fuel large => ?_⟩
  obtain ⟨before, rfl⟩ : ∃ before, fuel = before + 1 := ⟨fuel - 1, by omega⟩
  exact settled before (by omega)

theorem bind {next : Nat → α → Option β} {answer : β} (first : Settles f a)
    (second : Settles (fun fuel => next fuel a) answer) :
    Settles (fun fuel => (f fuel).bind (next fuel)) answer := by
  obtain ⟨enough, settled⟩ := first
  obtain ⟨more, settledToo⟩ := second
  refine ⟨max enough more, fun fuel large => ?_⟩
  simp only [settled fuel (by omega), Option.bind_some, settledToo fuel (by omega)]

theorem map (first : Settles f a) (next : α → β) :
    Settles (fun fuel => (f fuel).map next) (next a) := by
  obtain ⟨enough, settled⟩ := first
  exact ⟨enough, fun fuel large => by simp only [settled fuel large, Option.map_some]⟩

theorem unique (first : Settles f a) (second : Settles f b) : a = b := by
  obtain ⟨enough, settled⟩ := first
  obtain ⟨more, settledToo⟩ := second
  have same := (settled (max enough more) (by omega)).symm.trans (settledToo _ (by omega))
  exact Option.some.inj same

end Settles

/-! ## What may stand behind a phrase -/

/-- The rank that a phrase needs for the mark to stand behind it. -/
def Mark.behind? : Mark → Option Nat
  | .closeParen | .closeBracket | .closeBrace | .semicolon | .colon => some 0
  | .comma => some Level.assign.rank
  | .question => some Level.or.rank
  | .openParen | .dot | .openBracket => some Level.call.rank
  | op => op.level?.map Level.rank

/-- The rank up to which a phrase grows with the mark. -/
def Mark.within? : Mark → Option Nat
  | .question => some Level.assign.rank
  | .openParen => some Level.call.rank
  | .dot | .openBracket => some Level.member.rank
  | op => op.level?.map Level.rank

/-- Whether a phrase of the level can end where the tokens begin. -/
def Follows (level : Level) (rest : List Token) : Prop :=
  ∀ next ∈ rest.head?, ∃ m r, next = .mark m ∧ m.behind? = some r ∧ r ≤ level.rank

/-- Whether a phrase that has to bind as tightly as the level ends where the tokens begin. -/
def Stops (level : Level) (rest : List Token) : Prop :=
  ∀ m, rest.head? = some (.mark m) → ∀ r, m.within? = some r → r < level.rank

theorem follows_nil (level : Level) : Follows level [] := by
  simp [Follows]

theorem follows_mark {level : Level} {m : Mark} {r : Nat} (behind : m.behind? = some r)
    (bound : r ≤ level.rank) (rest : List Token) : Follows level (.mark m :: rest) := by
  intro next isNext
  cases isNext
  exact ⟨m, r, rfl, behind, bound⟩

section
variable {level tighter : Level} {rest : List Token}

theorem Follows.mono (follows : Follows level rest) (tight : level.rank ≤ tighter.rank) :
    Follows tighter rest := by
  intro next isNext
  obtain ⟨m, r, isMark, behind, bound⟩ := follows next isNext
  exact ⟨m, r, isMark, behind, Nat.le_trans bound tight⟩

theorem Mark.rank_level {m : Mark} {of : Level} (isLevel : m.level? = some of) :
    Level.or.rank ≤ of.rank ∧ of.rank < Level.unary.rank ∧
      of.tighter.rank = of.rank + 1 ∧ m.within? = some of.rank ∧ m.behind? = some of.rank := by
  cases m <;> cases isLevel <;> decide

theorem Mark.behind_within {m : Mark} {least most : Nat} (behind : m.behind? = some least)
    (within : m.within? = some most) :
    (most = least ∧ Level.or.rank ≤ most ∧ most < Level.unary.rank) ∨
      (most < least ∧ most = Level.assign.rank) ∨ Level.call.rank ≤ least := by
  cases m <;> cases behind <;> cases within <;> decide

-- Behind a phrase that is no call, only looser operators and closing marks can stand.
theorem Follows.stops (follows : Follows level rest) (noCall : level.rank ≤ Level.unary.rank)
    (tight : level.rank < tighter.rank ∨
      level = tighter ∧ (level = .assign ∨ level = .unary)) : Stops tighter rest := by
  intro m isMark most within
  obtain ⟨m', least, same, behind, bound⟩ := follows _ isMark
  cases same
  have relation := Mark.behind_within behind within
  rcases tight with less | ⟨rfl, rfl | rfl⟩ <;> simp only [Level.rank] at * <;> omega

theorem Follows.expect_none {wanted : Mark} (follows : Follows level rest)
    (never : wanted.behind? = none) : expect wanted rest = none := by
  cases rest with
  | nil => rfl
  | cons next rest =>
      obtain ⟨m, r, rfl, behind, _⟩ := follows next rfl
      have other : m ≠ wanted := by
        rintro rfl
        rw [never] at behind
        cases behind
      exact if_neg other

theorem Follows.expect_comma (follows : Follows .comma rest) : expect .comma rest = none := by
  cases rest with
  | nil => rfl
  | cons next rest =>
      obtain ⟨m, r, rfl, behind, bound⟩ := follows next rfl
      cases m <;> simp_all [expect, Mark.behind?, Level.rank]

-- A phrase ends where nothing that follows belongs to it.
theorem climb_stops (stops : Stops level rest) (t : Tree) :
    Settles (fun fuel => climb fuel level t rest) (t, rest) := by
  refine Settles.of_succ ⟨0, fun fuel _ => ?_⟩
  cases rest with
  | nil => rfl
  | cons next rest =>
      cases next with
      | mark m =>
          cases within : m.within? with
          | none => cases m <;> first | rfl | cases within
          | some most =>
              have past : ¬ level.rank ≤ most := Nat.not_le.mpr (stops m rfl most within)
              cases m <;> cases within <;> exact if_neg past
      | _ => rfl

end

/-! ## Phrases the parser finds -/

/-- Whether the parser finds the phrase: if it settles behind it, it settles before it, and as
an expression of its own it is found with the tree. -/
structure Found (level : Level) (ts : List Token) (t : Tree) : Prop where
  grows : ∀ (looser : Level) (rest : List Token) (answer : Tree × List Token),
    Level.assign.rank ≤ looser.rank → looser.rank ≤ level.rank → Follows level rest →
    Settles (fun fuel => climb fuel looser t rest) answer →
    Settles (fun fuel => parse fuel looser (ts ++ rest)) answer
  whole : ∀ rest, Follows .comma rest →
    Settles (fun fuel => expression fuel (ts ++ rest)) (t, rest)

section
variable {level : Level} {ts rest : List Token} {t : Tree}

theorem Found.loosen {looser : Level} (found : Found level ts t)
    (loose : looser.rank ≤ level.rank) : Found looser ts t where
  grows first rest answer least most follows settled :=
    found.grows first rest answer least (Nat.le_trans most loose) (follows.mono loose) settled
  whole := found.whole

theorem items_last {ts : List Token} (single : Settles (fun fuel => parse fuel .assign ts) (t, rest))
    (last : expect .comma rest = none) : Settles (fun fuel => items fuel ts) ([t], rest) := by
  apply Settles.of_succ
  simp only [items]
  apply single.bind
  simp only [last]
  exact Settles.now _

theorem items_more {ts : List Token} {others : List Tree} {after : List Token}
    (first : Settles (fun fuel => parse fuel .assign ts) (t, .mark .comma :: rest))
    (more : Settles (fun fuel => items fuel rest) (others, after)) :
    Settles (fun fuel => items fuel ts) (t :: others, after) := by
  apply Settles.of_succ
  simp only [items]
  apply first.bind
  exact more.map fun found => (t :: found.1, found.2)

-- A phrase that is no row of expressions is an expression of its own.
theorem found_of_grows (least : Level.assign.rank ≤ level.rank)
    (grows : ∀ (looser : Level) (rest : List Token) (answer : Tree × List Token),
      Level.assign.rank ≤ looser.rank → looser.rank ≤ level.rank → Follows level rest →
      Settles (fun fuel => climb fuel looser t rest) answer →
      Settles (fun fuel => parse fuel looser (ts ++ rest)) answer) : Found level ts t where
  grows := grows
  whole rest follows := by
    have stops : Stops .assign rest := follows.stops (by decide) (.inl (by decide))
    have single : Settles (fun fuel => parse fuel .assign (ts ++ rest)) (t, rest) :=
      grows .assign rest (t, rest) (Nat.le_refl _) least
        (follows.mono (Nat.zero_le _)) (climb_stops stops t)
    exact Settles.of_succ ((items_last single follows.expect_comma).map _)

-- What is read as an operand may grow.
theorem found_of_operand (least : Level.assign.rank ≤ level.rank)
    (begins : ∀ rest, Follows level rest →
      Settles (fun fuel => operand fuel (ts ++ rest)) (t, rest)) : Found level ts t :=
  found_of_grows least fun _ rest _ _ _ follows settled =>
    Settles.of_succ ((begins rest follows).bind settled)

theorem Found.parse_assign (found : Found .assign ts t) (follows : Follows .assign rest) :
    Settles (fun fuel => parse fuel .assign (ts ++ rest)) (t, rest) := by
  have stops : Stops .assign rest := follows.stops (by decide) (.inr ⟨rfl, .inl rfl⟩)
  exact found.grows .assign rest (t, rest) (Nat.le_refl _) (Nat.le_refl _) follows
    (climb_stops stops t)

theorem follows_comma (rest : List Token) : Follows .assign (.mark .comma :: rest) :=
  follows_mark rfl (Nat.le_refl _) rest

theorem items_found (parts : List Part) (nonempty : parts ≠ [])
    (found : ∀ p ∈ parts, Found .assign p.tokens p.tree) (closes : Follows .comma rest) :
    Settles (fun fuel => items fuel (commas (parts.map Part.tokens) ++ rest))
      (parts.map Part.tree, rest) := by
  induction parts with
  | nil => exact absurd rfl nonempty
  | cons p others ih =>
      have head := found p List.mem_cons_self
      cases others with
      | nil =>
          have single := head.parse_assign (closes.mono (Nat.zero_le _))
          exact items_last single closes.expect_comma
      | cons q others =>
          have tail := ih (by simp) fun part member => found part (List.mem_cons_of_mem _ member)
          have single := head.parse_assign
            (follows_comma (commas ((q :: others).map Part.tokens) ++ rest))
          have more := items_more single tail
          simpa [commas] using more

theorem ofItems_map (parts : List Part) (several : 2 ≤ parts.length) :
    ofItems (parts.map Part.tree) = .sequence (parts.map Part.tree) := by
  match parts, several with
  | p :: q :: others, _ => rfl

theorem found_sequence (parts : List Part) (several : 2 ≤ parts.length)
    (found : ∀ p ∈ parts, Found .assign p.tokens p.tree) :
    Found .comma (commas (parts.map Part.tokens)) (.sequence (parts.map Part.tree)) where
  grows looser rest answer least most := by
    simp only [Level.rank] at least most
    omega
  whole rest closes := by
    have nonempty : parts ≠ [] := by
      rintro rfl
      simp at several
    have row := items_found parts nonempty found closes
    apply Settles.of_succ
    simp only [expression]
    simpa only [ofItems_map parts several] using row.map fun read => (ofItems read.1, read.2)

-- A closing parenthesis begins no phrase.
theorem items_closeParen (rest : List Token) (fuel : Nat) :
    items fuel (.mark .closeParen :: rest) = none := by
  match fuel with
  | 0 | 1 | 2 | _ + 3 => rfl

@[simp]
theorem expect_mark (m : Mark) (rest : List Token) : expect m (.mark m :: rest) = some rest := by
  simp [expect]

theorem follows_close (rest : List Token) (level : Level) :
    Follows level (.mark .closeParen :: rest) :=
  follows_mark rfl (Nat.zero_le _) rest

theorem arguments_found (parts : List Part)
    (found : ∀ p ∈ parts, Found .assign p.tokens p.tree) (rest : List Token) :
    Settles (fun fuel => arguments fuel (argumentTokens parts ++ rest))
      (parts.map Part.tree, rest) := by
  apply Settles.of_succ
  simp only [arguments, argumentTokens, List.cons_append, List.append_assoc, expect_mark,
    Option.bind_some, List.nil_append]
  by_cases empty : parts = []
  · subst empty
    refine ⟨0, fun fuel _ => ?_⟩
    simp [commas, items_closeParen]
  · obtain ⟨enough, settled⟩ := items_found parts empty found (follows_close rest .comma)
    exact ⟨enough, fun fuel large => by simp [settled fuel large]⟩

theorem entries_found (row : List Entry) (named : ∀ e ∈ row, e.key.key? = some e.name)
    (found : ∀ e ∈ row, Found .assign e.value.tokens e.value.tree) (rest : List Token) :
    Settles (fun fuel => entries fuel
        (commas (row.map Entry.tokens) ++ .mark .closeBrace :: rest))
      (row.map fun e => (e.name, e.value.tree), rest) := by
  induction row with
  | nil => exact Settles.of_succ ⟨0, fun fuel _ => rfl⟩
  | cons e others ih =>
      have key := named e List.mem_cons_self
      have open? : ∀ ts, expect .closeBrace (e.key :: ts) = none := by
        intro ts
        cases token : e.key <;> simp_all [Token.key?, expect]
      have value := found e List.mem_cons_self
      have tail := ih (fun e member => named e (List.mem_cons_of_mem _ member))
        fun e member => found e (List.mem_cons_of_mem _ member)
      apply Settles.of_succ
      cases others with
      | nil =>
          simp only [List.map_cons, List.map_nil, commas, Entry.tokens, List.cons_append, entries,
            open?, key, Option.bind_some, expect_mark]
          apply (value.parse_assign (follows_mark rfl (Nat.zero_le _) rest)).bind
          exact ⟨0, fun fuel _ => by simp [expect]⟩
      | cons next others =>
          simp only [List.map_cons, commas, Entry.tokens, List.cons_append, entries,
            open?, key, Option.bind_some, expect_mark, List.append_assoc]
          apply (value.parse_assign (follows_comma _)).bind
          simp only [expect_mark]
          exact tail.map _

theorem statements_found (constants : List Constant)
    (found : ∀ c ∈ constants, Found .assign c.value.tokens c.value.tree)
    (result : Found .comma ts t) (rest : List Token) :
    Settles (fun fuel => statements fuel
        (constants.flatMap Constant.tokens ++ .keyword "return" ::
          (ts ++ .mark .semicolon :: .mark .closeBrace :: rest)))
      ((constants.map fun c => (c.name, c.value.tree), t), rest) := by
  induction constants with
  | nil =>
      apply Settles.of_succ
      simp only [List.flatMap_nil, List.nil_append, statements]
      apply (result.whole _ (follows_mark rfl (Nat.zero_le _) _)).bind
      exact ⟨0, fun fuel _ => by simp⟩
  | cons c others ih =>
      have value := found c List.mem_cons_self
      have tail := ih fun c member => found c (List.mem_cons_of_mem _ member)
      apply Settles.of_succ
      simp only [List.flatMap_cons, Constant.tokens, List.cons_append, List.append_assoc,
        List.nil_append, statements]
      apply (value.parse_assign (follows_mark rfl (Nat.zero_le _) _)).bind
      simp only [expect_mark, Option.bind_some]
      exact tail.map _

theorem function_arrow (params : List String) (found : Found .assign ts t)
    (noBlock : ts.head? ≠ some (.mark .openBrace)) (follows : Follows .assign rest) :
    Settles (fun fuel => function fuel params (ts ++ rest)) (.arrow params t, rest) := by
  have noBrace : expect .openBrace (ts ++ rest) = none := by
    cases ts with
    | nil => exact follows.expect_none rfl
    | cons next ts =>
        cases next <;> simp_all [expect]
  apply Settles.of_succ
  simp only [function, noBrace]
  exact (found.parse_assign follows).map _

theorem function_routine (params : List String) (constants : List Constant)
    (found : ∀ c ∈ constants, Found .assign c.value.tokens c.value.tree)
    (result : Found .comma ts t) (rest : List Token) :
    Settles (fun fuel => function fuel params (blockTokens constants ts ++ rest))
      (.routine params (constants.map fun c => (c.name, c.value.tree)) t, rest) := by
  have block := statements_found constants found result rest
  apply Settles.of_succ
  simp only [function, blockTokens, List.cons_append, List.append_assoc, expect_mark,
    List.nil_append]
  exact block.map fun found => (Tree.routine params found.1.1 found.1.2, found.2)

theorem group_found (found : Found .comma ts t) (follows : Follows level rest) :
    Settles (fun fuel => group fuel (ts ++ .mark .closeParen :: rest)) (t, rest) := by
  obtain ⟨enough, settled⟩ := found.whole _ (follows_close rest .comma)
  refine Settles.of_succ ⟨enough, fun fuel large => ?_⟩
  have noArrow : expect .arrow rest = none := follows.expect_none rfl
  simp [group, settled fuel large, noArrow]

theorem found_name (text : String) : Found .primary [.name text] (.name text) :=
  found_of_operand (by decide) fun _ _ => Settles.of_succ (Settles.now _)

theorem mapM_name (params : List String) : (params.map Tree.name).mapM Tree.name? = some params := by
  induction params with
  | nil => rfl
  | cons first others ih => simp [List.mapM_cons, Tree.name?, ih]

theorem parameters_names (params : List String) (nonempty : params ≠ []) :
    (ofItems (params.map Tree.name)).parameters? = some params := by
  match params, nonempty with
  | [single], _ => rfl
  | first :: second :: others, _ => exact mapM_name (first :: second :: others)

/-- A parameter as an expression. -/
def Part.ofName (text : String) : Part := ⟨[.name text], .name text⟩

theorem expression_names (params : List String) (nonempty : params ≠ []) (after : List Token) :
    Settles (fun fuel => expression fuel
        (commas (params.map fun name => [.name name]) ++ .mark .closeParen :: after))
      (ofItems (params.map Tree.name), .mark .closeParen :: after) := by
  have names : ∀ p ∈ params.map Part.ofName, Found .assign p.tokens p.tree := by
    intro p member
    obtain ⟨text, _, rfl⟩ := List.mem_map.mp member
    exact (found_name text).loosen (by decide)
  have row := items_found (params.map Part.ofName) (by simpa using nonempty) names
    (follows_close after .comma)
  rw [List.map_map, List.map_map] at row
  exact Settles.of_succ (row.map fun found => (ofItems found.1, found.2))

-- In parentheses before an arrow stand no values but parameters.
theorem group_function (params : List String) {after : List Token}
    (settled : Settles (fun fuel => function fuel params after) (t, rest)) :
    Settles (fun fuel => group fuel
        (commas (params.map fun name => [.name name]) ++
          .mark .closeParen :: .mark .arrow :: after)) (t, rest) := by
  by_cases empty : params = []
  · subst empty
    obtain ⟨enough, settled⟩ := settled
    refine Settles.of_succ ⟨enough, fun fuel large => ?_⟩
    have none : expression fuel (.mark .closeParen :: .mark .arrow :: after) = none := by
      cases fuel with
      | zero => rfl
      | succ fuel => rw [expression, items_closeParen, Option.map_none]
    simp [group, commas, none, settled fuel large]
  · obtain ⟨enough, found⟩ := expression_names params empty (.mark .arrow :: after)
    obtain ⟨more, settled⟩ := settled
    refine Settles.of_succ ⟨max enough more, fun fuel large => ?_⟩
    have first := found fuel (by omega)
    have second := settled fuel (by omega)
    simp only at first second
    simp only [group, first, expect_mark, Option.bind_some, parameters_names params empty, second]

/-- A phrase goes on behind a mark: a longer one is found where the parser climbs over what
stands there. -/
theorem Found.extend {inner : Level} {m : Mark} {r : Nat} {more : List Token} {longer : Tree}
    (found : Found inner ts t) (least : Level.assign.rank ≤ level.rank)
    (loose : level.rank ≤ inner.rank) (behind : m.behind? = some r) (bound : r ≤ inner.rank)
    (climbs : ∀ (looser : Level) (rest : List Token) (answer : Tree × List Token),
      looser.rank ≤ level.rank → Follows level rest →
      Settles (fun fuel => climb fuel looser longer rest) answer →
      Settles (fun fuel => climb fuel looser t (.mark m :: (more ++ rest))) answer) :
    Found level (ts ++ .mark m :: more) longer := by
  apply found_of_grows least
  intro looser rest answer atLeast atMost follows settled
  rw [List.append_assoc]
  refine found.grows looser _ answer atLeast (Nat.le_trans atMost loose)
    (follows_mark behind bound _) ?_
  exact climbs looser rest answer atMost follows settled

theorem chain_rank (chain : level = .call ∨ level = .member) :
    Level.call.rank ≤ level.rank ∧ level.rank ≤ Level.member.rank := by
  rcases chain with rfl | rfl <;> decide

theorem found_field {word : Token} {name : String} (chain : level = .call ∨ level = .member)
    (found : Found level ts t) (isWord : word.word? = some name) :
    Found level (ts ++ [.mark .dot, word]) (.field t name) := by
  obtain ⟨high, low⟩ := chain_rank chain
  refine found.extend (Nat.le_trans (by decide) high) (Nat.le_refl _) rfl high ?_
  intro looser rest answer most _ settled
  apply Settles.of_succ
  simp only [List.cons_append, List.nil_append, climb, if_pos (Nat.le_trans most low), isWord,
    Option.bind_some]
  exact settled

theorem found_index {ks : List Token} {k : Tree} (chain : level = .call ∨ level = .member)
    (found : Found level ts t) (key : Found .comma ks k) :
    Found level (ts ++ .mark .openBracket :: (ks ++ [.mark .closeBracket])) (.index t k) := by
  obtain ⟨high, low⟩ := chain_rank chain
  refine found.extend (Nat.le_trans (by decide) high) (Nat.le_refl _) rfl high ?_
  intro looser rest answer most _ settled
  apply Settles.of_succ
  simp only [List.cons_append, List.append_assoc, List.nil_append, climb,
    if_pos (Nat.le_trans most low)]
  apply (key.whole _ (follows_mark rfl (Nat.zero_le _) rest)).bind
  simp only [expect_mark, Option.bind_some]
  exact settled

theorem found_call (parts : List Part) (found : Found .call ts t)
    (args : ∀ p ∈ parts, Found .assign p.tokens p.tree) :
    Found .call (ts ++ argumentTokens parts) (.call t (parts.map Part.tree)) := by
  refine found.extend (by decide) (Nat.le_refl _) rfl (by decide) ?_
  intro looser rest answer most _ settled
  have list := arguments_found parts args rest
  apply Settles.of_succ
  simp only [argumentTokens, List.cons_append, climb, if_pos most] at list ⊢
  exact list.bind settled

theorem found_construct (parts : List Part) (found : Found .member ts t)
    (args : ∀ p ∈ parts, Found .assign p.tokens p.tree) :
    Found .member (.keyword "new" :: (ts ++ argumentTokens parts))
      (.construct t (parts.map Part.tree)) := by
  apply found_of_operand (by decide)
  intro rest _
  apply Settles.of_succ
  have list := arguments_found parts args rest
  have stops : Stops .member (argumentTokens parts ++ rest) := by
    intro m isMark r within
    cases isMark
    cases within
    decide
  have callee := found.grows .member (argumentTokens parts ++ rest) _ (by decide) (Nat.le_refl _)
    (follows_mark rfl (by decide) _) (climb_stops stops t)
  simp only [List.cons_append, List.append_assoc, operand, if_true]
  exact callee.bind (list.map fun found => (Tree.construct t found.1, found.2))

theorem found_unary {op : Mark} (isUnary : op.isUnary) (found : Found .unary ts t) :
    Found .unary (.mark op :: ts) (.unary op t) := by
  apply found_of_operand (by decide)
  intro rest follows
  apply Settles.of_succ
  have stops : Stops .unary rest := follows.stops (by decide) (.inr ⟨rfl, .inr rfl⟩)
  have inner := found.grows .unary rest _ (by decide) (Nat.le_refl _) follows
    (climb_stops stops t)
  cases op <;> cases isUnary <;> exact inner.map fun found => (Tree.unary _ found.1, found.2)

theorem found_binary {op : Mark} {tighter : Level} {rs : List Token} {r : Tree}
    (isLevel : op.level? = some level) (tight : level.rank < tighter.rank)
    (left : Found level ts t) (right : Found tighter rs r) :
    Found level (ts ++ .mark op :: rs) (.binary op t r) := by
  obtain ⟨least, most, next, _, behind⟩ := Mark.rank_level isLevel
  refine left.extend (Nat.le_trans (by decide) least) (Nat.le_refl _) behind (Nat.le_refl _) ?_
  intro looser rest answer atMost follows settled
  have stops : Stops level.tighter rest :=
    follows.stops (Nat.le_of_lt most) (.inl (by omega))
  have operand := right.grows level.tighter rest _ (by simp only [Level.rank] at *; omega)
    (by omega) (follows.mono (Nat.le_of_lt tight)) (climb_stops stops r)
  apply Settles.of_succ
  cases op <;> cases isLevel <;>
    simp only [climb, Mark.level?, if_pos atMost] <;>
    exact operand.bind settled

theorem found_conditional {gs ys ns : List Token} {g y n : Tree} (guard : Found .or gs g)
    (yes : Found .assign ys y) (no : Found .assign ns n) :
    Found .assign (gs ++ .mark .question :: (ys ++ .mark .colon :: ns))
      (.conditional g y n) := by
  refine guard.extend (Nat.le_refl _) (by decide) rfl (Nat.le_refl _) ?_
  intro looser rest answer atMost follows settled
  apply Settles.of_succ
  simp only [List.cons_append, List.append_assoc, climb, if_pos atMost]
  apply (yes.parse_assign (follows_mark rfl (Nat.zero_le _) _)).bind
  simp only [expect_mark, Option.bind_some]
  exact (no.parse_assign follows).bind settled

theorem found_function (params : List String) {after : List Token}
    (settled : ∀ rest, Follows .assign rest →
      Settles (fun fuel => function fuel params (after ++ rest)) (t, rest)) :
    Found .assign (functionTokens params after) t := by
  apply found_of_operand (Nat.le_refl _)
  intro rest follows
  apply Settles.of_succ
  simp only [functionTokens, List.cons_append, List.append_assoc, operand]
  exact group_function params (settled rest follows)

end

/-! ## The grammar is unambiguous -/

-- By induction on how the phrase is made; each rule has its own lemma above.
theorem Reads.found {level : Level} {ts : List Token} {t : Tree} (reads : Reads level ts t) :
    Found level ts t := by
  induction reads with
  | name text => exact found_name text
  | number text | string value =>
      exact found_of_operand (by decide) fun _ _ => Settles.of_succ (Settles.now _)
  | @constant word member =>
      refine found_of_operand (by decide) fun rest _ => Settles.of_succ ⟨0, fun fuel _ => ?_⟩
      have noNew : word ≠ "new" := by
        rintro rfl
        exact absurd member (by decide)
      simp [operand, noNew, member]
  | parenthesized _ ih =>
      apply found_of_operand (by decide)
      intro rest follows
      apply Settles.of_succ
      simp only [List.cons_append, List.append_assoc, operand]
      exact group_found ih follows
  | object row named _ ih =>
      apply found_of_operand (by decide)
      intro rest _
      apply Settles.of_succ
      simp only [List.cons_append, List.append_assoc, operand]
      exact (entries_found row named ih rest).map fun found => (Tree.object found.1, found.2)
  | field chain _ isWord ih => exact found_field chain ih isWord
  | index chain _ _ ih key => exact found_index chain ih key
  | construct parts _ _ ih args => exact found_construct parts ih args
  | call parts _ _ ih args => exact found_call parts ih args
  | unary isUnary _ ih => exact found_unary isUnary ih
  | binary isLevel tight _ _ left right => exact found_binary isLevel tight left right
  | conditional _ _ _ guard yes no => exact found_conditional guard yes no
  | arrow params noBlock _ ih =>
      exact found_function params fun rest follows => function_arrow params ih noBlock follows
  | routine params constants _ _ ih result =>
      exact found_function params fun rest _ =>
        function_routine params constants ih result rest
  | sequence parts several _ ih => exact found_sequence parts several ih
  | loosen _ loose ih => exact ih.loosen loose

theorem Reads.unique {first second : Level} {ts : List Token} {t u : Tree}
    (one : Reads first ts t) (other : Reads second ts u) : t = u := by
  have left := one.found.whole [] (follows_nil .comma)
  have right := other.found.whole [] (follows_nil .comma)
  exact congrArg Prod.fst (left.unique right)

end CallReplacement.JavaScript
