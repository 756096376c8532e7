import CallReplacement.Proofs.Script.Phrase

/-!
What the functions that render nodes make of phrases: each puts the phrase of a node together
from the phrases of its parts.
-/

namespace CallReplacement

open JavaScript

namespace JavaScript
variable {A : Alphabet} {dotted : Prop} {before : Option Char → Prop}

theorem Mark.endsBefore_blank (m : Mark) : m.endsBefore (some ' ') := by
  cases m <;> rfl

theorem Spells.blank_before {chars : List Char} {ts : List Token} {gap : List Char}
    (blank : ∀ c ∈ gap, isBlank c) (spells : Spells A chars ts before) :
    Spells A (gap ++ chars) ts before := by
  have first : Spells A gap [] fun _ => True := spells_blank blank
  exact first.append spells fun _ _ => trivial

-- A mark with a blank on each side.
theorem Spells.spaced {left right : List Char} {ts us : List Token} (m : Mark)
    (first : Spells A left ts (Behind dotted)) (second : Spells A right us before) :
    Spells A (left ++ ' ' :: (m.text ++ ' ' :: right)) (ts ++ .mark m :: us) before := by
  have behind : Spells A (' ' :: right) us before := second.blank_before isBlank_space
  have marked : Spells A (m.text ++ ' ' :: right) (.mark m :: us) before :=
    (spells_token (.mark m)).append behind fun _ _ => m.endsBefore_blank
  have gap : Spells A (' ' :: (m.text ++ ' ' :: right)) (.mark m :: us) before :=
    marked.blank_before isBlank_space
  exact first.append gap fun _ _ => .inl rfl

-- A character that begins no word, number or string begins a mark.
theorem Token.mark_of_head {t : Token} {c : Char} {next : Option Char} (ends : t.EndsBefore A next)
    (isHead : t.text.head? = some c) (ascii : c.toNat ≤ 127)
    (other : (c.isAlpha || c == '_' || c == '$' || c.isDigit || c == '"') = false) :
    ∃ m, t = .mark m := by
  simp only [Bool.or_eq_false_iff] at other
  obtain ⟨⟨⟨⟨noLetter, noLow⟩, noDollar⟩, noDigit⟩, noQuote⟩ := other
  have word : ∀ {text : String}, A.IsWord text → text.toList.head? ≠ some c := by
    rintro text ⟨⟨d, isFirst, start⟩, _⟩ same
    rw [Option.mem_def, same] at isFirst
    cases isFirst
    rw [A.isStart_of_ascii ascii] at start
    simp [noLetter, noLow, noDollar] at start
  cases t with
  | name text => exact absurd isHead (word ends.1.1)
  | keyword text => exact absurd isHead (word (A.isWord_of_mem_reserved ends.1))
  | number text =>
      obtain ⟨d, rest, chars, digit⟩ := ends.1.digit_first
      rw [Token.text, chars] at isHead
      cases isHead
      rw [noDigit] at digit
      cases digit
  | string value =>
      obtain rfl : '"' = c := by simpa [Token.text, Text.quoted] using isHead
      cases noQuote
  | mark m => exact ⟨m, rfl⟩

-- No phrase begins with an equals sign.
theorem Token.head_ne_equals {t : Token} {next : Option Char} (ends : t.EndsBefore A next)
    (begins : ∀ m, t = .mark m → m.begins) : t.text.head? ≠ some '=' := by
  intro isHead
  obtain ⟨m, rfl⟩ := Token.mark_of_head ends isHead (by decide) (by decide)
  have begin := begins m rfl
  cases m <;> simp_all [Token.text, Mark.text, Mark.begins, Mark.isUnary]

theorem Written.head_ne_equals {text : String} {ts : List Token} {level : Level} {t : Tree}
    (written : Written A dotted text ts) (reads : Reads level ts t) :
    text.toList.head? ≠ some '=' := by
  have atEnd : Behind dotted none := .inl rfl
  obtain ⟨first, rest, follow, rfl, sameHead, ends⟩ := written.spells.head written.starts atEnd
  obtain ⟨_, _, same, begins⟩ := reads.begins
  cases same
  rw [sameHead]
  exact Token.head_ne_equals ends begins

-- An operator that the operand does not make longer.
theorem Written.unary {op : Mark} {text : String} {ts : List Token}
    (written : Written A dotted text ts) (ends : op.endsBefore text.toList.head?)
    (begins : Starts op.text) : Written A dotted (String.ofList op.text ++ text) (.mark op :: ts) where
  starts := by
    rw [String.toList_append, String.toList_ofList]
    exact begins.append _
  spells := by
    rw [String.toList_append, String.toList_ofList]
    apply (spells_token (.mark op)).append written.spells
    intro next _
    obtain ⟨c, isHead, _⟩ := written.starts
    rw [Option.mem_def] at isHead
    rw [isHead] at ends ⊢
    exact ends

theorem written_joined {texts : List String} {rows : List (List Token)} (nonempty : texts ≠ [])
    (each : List.Forall₂ (Written A False) texts rows) :
    Written A False (Text.joined ", " texts) (commas rows) := by
  induction each with
  | nil => exact absurd rfl nonempty
  | @cons text ts others rows head rest ih =>
      cases rest with
      | nil => exact head
      | cons second rest =>
          have tail := ih (List.cons_ne_nil _ _)
          have after : Spells A (',' :: ' ' :: _) (.mark .comma :: _) (Behind False) :=
            Spells.cons_mark (m := .comma) rfl (tail.spells.blank_before isBlank_space)
          constructor
          · simp only [Text.joined, String.append_assoc, String.toList_append]
            exact head.starts.append _
          · have both := head.spells.append after fun _ _ => .inl rfl
            simpa [Text.joined, commas, String.append_assoc] using both

-- A reserved word and the blank behind it.
theorem Spells.after_keyword {word : String} {chars : List Char} {ts : List Token}
    (member : word ∈ reserved) (spells : Spells A chars ts before) :
    Spells A (word.toList ++ ' ' :: chars) (.keyword word :: ts) before := by
  have gap : Spells A (' ' :: chars) ts before := spells.blank_before isBlank_space
  have atBlank : Behind False (some ' ') := .inl rfl
  have stop : A.partsFrom (some ' ') := partsFrom_behind atBlank
  exact (spells_token (.keyword word)).append gap fun _ _ => ⟨member, stop⟩

-- A phrase with something behind it that does not begin like a longer token.
theorem Written.then {text more : String} {ts us : List Token} (c : Char)
    (written : Written A dotted text ts) (spells : Spells A more.toList us (Behind True))
    (isHead : more.toList.head? = some c) (behind : Behind dotted (some c)) :
    Written A True (text ++ more) (ts ++ us) where
  starts := by
    rw [String.toList_append]
    exact written.starts.append _
  spells := by
    rw [String.toList_append]
    apply written.spells.append spells
    intro _ _
    rw [isHead]
    exact behind

end JavaScript

/-! ## Operators -/

theorem BinaryOp.text_mark (op : BinaryOp) : op.mark.text = op.symbol.toList := by
  cases op <;> rfl

theorem BinaryOp.level_mark (op : BinaryOp) :
    op.mark.level? = some op.precedence.phraseLevel := by
  cases op <;> rfl

theorem LogicalOp.text_mark (op : LogicalOp) : op.mark.text = op.symbol.toList := by
  cases op <;> rfl

theorem LogicalOp.level_mark (op : LogicalOp) :
    op.mark.level? = some op.precedence.phraseLevel := by
  cases op <;> rfl

section
variable {A : Alphabet} {l r : Rendered} {s t : Spine}

-- Nothing looser than a call is followed by a dot.
theorem means_loose {p : Precedence} {text : String} {ts : List Token} {t : Tree}
    (noCall : p.level < Precedence.call.level) (written : Written A False text ts)
    (reads : Reads p.phraseLevel ts t) : Means A ⟨text, p⟩ (.ofTree t) :=
  ⟨ts, written.mono fun dotted => absurd dotted.1 (Nat.not_le.mpr noCall),
    .plain (by rintro rfl; exact absurd noCall (Nat.lt_irrefl _)) rfl reads⟩

theorem means_infixed {symbol : String} {p : Precedence} {op : Mark}
    (noCall : p.level < Precedence.call.level) (spelled : op.text = symbol.toList)
    (isLevel : op.level? = some p.phraseLevel) (left : Means A l s) (right : Means A r t) :
    Means A (.infixed symbol p l r) (.ofTree (.binary op s.tree t.tree)) := by
  obtain ⟨ls, writtenLeft, readsLeft⟩ := left.atLeast (Nat.le_of_lt noCall)
  obtain ⟨rs, level, writtenRight, tight, readsRight⟩ := right.above noCall
  refine means_loose noCall ⟨?_, ?_⟩ (.binary isLevel tight readsLeft readsRight)
  · simp only [String.append_assoc, String.toList_append]
    exact writtenLeft.starts.append _
  · have spells := writtenLeft.spells.spaced op writtenRight.spells
    simpa [spelled] using spells

theorem means_unary {op : UnaryOp} (operand : Means A r s) :
    Means A (.unary op r) (.ofTree (.unary op.mark s.tree)) := by
  obtain ⟨ts, written, reads⟩ := operand.atLeast (p := .unary) (by decide)
  have noEquals := written.head_ne_equals reads
  cases op with
  | not =>
      have ends : Mark.not.endsBefore (r.atLeast .unary).toList.head? := by
        cases isHead : (r.atLeast .unary).toList.head? <;> simp_all [Mark.endsBefore, Mark.grows]
      exact means_loose (by decide) (written.unary ends ⟨'!', rfl, rfl⟩) (.unary rfl reads)
  | negate =>
      by_cases minus : (r.atLeast .unary).toList.head? = some '-'
      · have loose : Reads .comma ts s.tree := reads.loosen (by decide)
        have inner : Reads .unary _ s.tree := (Reads.parenthesized loose).loosen (by decide)
        have outer : Written A False _ _ := written.parenthesized.mono False.elim
        have ends : Mark.minus.endsBefore (Rendered.parenthesized (r.atLeast .unary)).toList.head? := by
          simp [Rendered.parenthesized, Mark.endsBefore, Mark.grows]
        simp only [Rendered.unary, if_pos minus]
        exact means_loose (by decide) (outer.unary ends ⟨'-', rfl, rfl⟩)
          (.unary rfl inner)
      · have ends : Mark.minus.endsBefore (r.atLeast .unary).toList.head? := by
          cases isHead : (r.atLeast .unary).toList.head? <;>
            simp_all [Mark.endsBefore, Mark.grows]
        simp only [Rendered.unary, if_neg minus]
        exact means_loose (by decide) (written.unary ends ⟨'-', rfl, rfl⟩) (.unary rfl reads)

theorem means_conditional {g y n : Rendered} {gs ys ns : Spine} (guard : Means A g gs)
    (yes : Means A y ys) (no : Means A n ns) :
    Means A (.conditional g y n) (.ofTree (.conditional gs.tree ys.tree ns.tree)) := by
  obtain ⟨guardTokens, writtenGuard, readsGuard⟩ := guard.atLeast (p := .or) (by decide)
  obtain ⟨yesTokens, writtenYes, readsYes⟩ := yes.atLeast (p := .assign) (by decide)
  obtain ⟨noTokens, writtenNo, readsNo⟩ := no.atLeast (p := .assign) (by decide)
  refine means_loose (by decide) ⟨?_, ?_⟩ (.conditional readsGuard readsYes readsNo)
  · simp only [String.append_assoc, String.toList_append]
    exact writtenGuard.starts.append _
  · have branches := writtenYes.spells.spaced .colon writtenNo.spells
    have spells := writtenGuard.spells.spaced .question branches
    simpa [Mark.text] using spells

/-! ## Lists -/

theorem means_list {rs : List Rendered} {ss : List Spine} (each : List.Forall₂ (Means A) rs ss) :
    ∃ parts : List Part, parts.map Part.tree = ss.map Spine.tree ∧
      (∀ p ∈ parts, Reads .assign p.tokens p.tree) ∧
      List.Forall₂ (Written A False) (rs.map (·.atLeast .assign)) (parts.map Part.tokens) := by
  induction each with
  | nil => exact ⟨[], rfl, by simp, .nil⟩
  | cons head _ ih =>
      obtain ⟨parts, trees, reads, written⟩ := ih
      obtain ⟨ts, writtenHead, readsHead⟩ := head.atLeast (p := .assign) (by decide)
      refine ⟨⟨ts, _⟩ :: parts, by rw [List.map_cons, trees]; rfl, ?_, .cons writtenHead written⟩
      intro p member
      rcases List.mem_cons.mp member with rfl | member
      · exact readsHead
      · exact reads p member

theorem isName_undefined : A.IsName "undefined" :=
  A.isName_of_letters (by decide) (by decide) (by decide)

theorem means_sequence {rs : List Rendered} {ss : List Spine}
    (each : List.Forall₂ (Means A) rs ss) : Means A (.sequence rs) (.sequence ss) := by
  cases each with
  | nil =>
      exact means_primary ((written_name isName_undefined).mono fun _ => trivial) (.name _)
  | cons head rest =>
      cases rest with
      | nil => exact head
      | cons second rest =>
          obtain ⟨parts, trees, reads, written⟩ := means_list (.cons head (.cons second rest))
          have several : 2 ≤ parts.length := by
            have same := congrArg List.length trees
            simp only [List.length_map, List.length_cons] at same
            omega
          have row := written_joined (by simp) written
          simp only [Rendered.sequence, Spine.sequence, ← trees]
          exact means_loose (by decide) row (.sequence parts several reads)

end

/-! ## Members and calls -/

section
variable {A : Alphabet} {r : Rendered} {s : Spine}

theorem Means.callable (means : Means A r s) :
    ∃ ts, Written A (s.tree.isNumber = false) (r.atLeast .call) ts ∧ s.Reads ts := by
  by_cases loose : r.precedence.level < Precedence.call.level
  · obtain ⟨ts, written, reads⟩ := means.parenthesized
    rw [Rendered.atLeast, if_pos loose]
    obtain ⟨_, _, ⟨tight, _⟩ | ⟨_, rfl, _⟩⟩ := means
    · exact absurd tight (Nat.not_le.mpr loose)
    · exact ⟨ts, written.mono fun _ => trivial, reads_ofTree reads⟩
  · obtain ⟨ts, written, reads⟩ := means
    have tight := Nat.not_lt.mp loose
    rw [Rendered.atLeast, if_neg loose]
    refine ⟨ts, written.mono fun noNumber => ⟨tight, noNumber⟩, ?_⟩
    cases reads with
    | chain _ chain => exact chain
    | plain noCall same reads =>
        subst same
        have isPrimary : r.precedence = .primary := by
          cases p : r.precedence <;> simp_all [Precedence.level]
        rw [isPrimary] at reads
        exact reads_ofTree reads

-- The target of a member access; one that looks like a number stands in parentheses.
theorem Means.target {e : Expr} (means : Means A r s)
    (literal : e.isNumber → ∃ t, s = .ofTree t) :
    ∃ ts, Written A (e.isNumber ∨ s.tree.isNumber = false) (e.asTarget r) ts ∧ s.Reads ts := by
  by_cases isNumber : e.isNumber
  · obtain ⟨ts, written, reads⟩ := means.parenthesized
    obtain ⟨t, rfl⟩ := literal isNumber
    rw [Expr.asTarget, if_pos isNumber]
    exact ⟨ts, written.mono fun _ => trivial, reads_ofTree reads⟩
  · obtain ⟨ts, written, reads⟩ := means.callable
    rw [Expr.asTarget, if_neg isNumber]
    exact ⟨ts, written.mono fun dotted => dotted.resolve_left isNumber, reads⟩

theorem means_chain {text : String} {ts : List Token} (written : Written A True text ts)
    (reads : s.Reads ts) : Means A ⟨text, .call⟩ s :=
  ⟨ts, written.mono fun _ => trivial, .chain (Nat.le_refl _) reads⟩

theorem isWord_of_isIdentifier {name : String} (isIdent : isIdentifier name) : A.IsWord name := by
  rw [isIdentifier] at isIdent
  cases chars : name.toList with
  | nil => simp [chars] at isIdent
  | cons c rest =>
      obtain ⟨start, parts⟩ : (c.isAlpha || c == '_' || c == '$') = true ∧
          ∀ d ∈ rest, (d.isAlphanum || d == '_' || d == '$') = true := by
        simpa [chars, List.all_eq_true] using isIdent
      have isStart : A.isStart c := by simp [Alphabet.isStart, start]
      refine ⟨⟨c, by simp [chars], isStart⟩, fun d inside => ?_⟩
      rw [chars] at inside
      rcases List.mem_cons.mp inside with rfl | inside
      · exact A.isPart_of_isStart isStart
      · have part := parts d inside
        simp only [Char.isAlphanum, Bool.or_eq_true] at part
        rcases part with ((letter | digit) | low) | dollar
        · exact A.isPart_of_isStart (A.isStart_of_isAlpha letter)
        · exact A.isPart_of_isDigit digit
        · exact A.isPart_of_isStart (by simp [Alphabet.isStart, low])
        · exact A.isPart_of_isStart (by simp [Alphabet.isStart, dollar])

theorem endsBefore_word {word : String} (isWord : A.IsWord word) {next : Option Char}
    (stop : A.partsFrom next) : (Token.ofWord word).EndsBefore A next := by
  by_cases member : word ∈ reserved
  · rw [Token.ofWord, if_pos member]
    exact ⟨member, stop⟩
  · rw [Token.ofWord, if_neg member]
    exact ⟨⟨isWord, member⟩, stop⟩

theorem text_ofWord (word : String) : (Token.ofWord word).text = word.toList := by
  by_cases member : word ∈ reserved <;> simp [Token.ofWord, member, Token.text]

theorem word_ofWord (word : String) : (Token.ofWord word).word? = some word := by
  by_cases member : word ∈ reserved <;> simp [Token.ofWord, member, Token.word?]

theorem spells_bracketed {dotted : Prop} {text : String} {ts : List Token}
    (written : Written A dotted text ts) :
    Spells A ("[" ++ text ++ "]").toList
      (.mark .openBracket :: (ts ++ [.mark .closeBracket])) (Behind True) := by
  have keyed := written.spells.between .openBracket .closeBracket ⟨rfl, rfl⟩ rfl (Behind True)
  simpa [Mark.text] using keyed

-- The dot before a name is no decimal point, and the name makes no number of it.
theorem spells_dotted {name : String} (isWord : A.IsWord name) :
    Spells A ("." ++ name).toList [.mark .dot, .ofWord name] (Behind True) := by
  have word : Spells A name.toList [.ofWord name] (Behind True) := by
    rw [← text_ofWord name]
    exact (spells_token _).mono fun _ behind => endsBefore_word isWord (partsFrom_behind behind)
  have both := (spells_token (.mark .dot)).append word fun next _ => ?_
  · simpa [Token.text, Mark.text] using both
  · obtain ⟨⟨c, isHead, start⟩, _⟩ := isWord
    rw [Option.mem_def] at isHead
    have noDigit : c.isDigit = false := by
      by_contra digit
      simp [A.isStart_of_isDigit (by simpa using digit)] at start
    have noDot : c ≠ '.' := by
      rintro rfl
      rw [A.isStart_of_ascii (by decide)] at start
      exact absurd start (by decide)
    have grows : Mark.dot.grows.all (fun d => d == '.' || d.isDigit) := by decide
    have stays : c ∉ Mark.dot.grows := by
      intro member
      have isGrown := List.all_eq_true.mp grows c member
      simp [noDot, noDigit] at isGrown
    rw [isHead]
    simpa [Token.EndsBefore, Mark.endsBefore] using stays

theorem means_field {dotted : Prop} {target name : String} {ts : List Token}
    (written : Written A dotted target ts) (reads : s.Reads ts)
    (free : isIdentifier name → dotted) :
    Means A (.field target name) (s.before (.member name)) := by
  by_cases isIdent : isIdentifier name
  · have dot := spells_dotted (A := A) (isWord_of_isIdentifier isIdent)
    have whole := written.then '.' dot (by simp) (.inr ⟨free isIdent, rfl⟩)
    simp only [Rendered.field, Suffix.member, if_pos isIdent, String.append_assoc]
    exact means_chain whole (reads.before (.field (word_ofWord name)))
  · have bracket := spells_bracketed (A := A) (written_string name)
    have whole := written.then '[' bracket (by simp) (.inl rfl)
    simp only [Rendered.field, Suffix.member, if_neg isIdent, String.append_assoc] at whole ⊢
    have string : Reads .comma [.string name] (.string name) := (Reads.string name).loosen (by decide)
    exact means_chain whole (reads.before (.index string))

theorem means_index {dotted : Prop} {target : String} {ts : List Token} {k : Rendered} {key : Spine}
    (written : Written A dotted target ts) (reads : s.Reads ts) (means : Means A k key) :
    Means A (.index target k) (s.before (.index key.tree)) := by
  obtain ⟨ks, writtenKey, readsKey⟩ := means.atLeast (p := .sequence) (by decide)
  have whole := written.then '[' (spells_bracketed writtenKey) (by simp) (.inl rfl)
  simp only [Rendered.index, String.append_assoc] at whole ⊢
  exact means_chain whole (reads.before (.index readsKey))

theorem spells_listed {texts : List String} {rows : List (List Token)}
    (each : List.Forall₂ (Written A False) texts rows) :
    Spells A (Rendered.parenthesized (Text.joined ", " texts)).toList
      (.mark .openParen :: (commas rows ++ [.mark .closeParen])) (Behind True) := by
  have inner : Spells A (Text.joined ", " texts).toList (commas rows) (Behind False) := by
    cases texts with
    | nil =>
        cases each
        exact spells_nil
    | cons text rest => exact (written_joined (List.cons_ne_nil _ _) each).spells
  have outer := inner.between .openParen .closeParen ⟨rfl, rfl⟩ rfl (Behind True)
  simpa [Rendered.parenthesized, Mark.text] using outer

theorem means_call {dotted : Prop} {style : CallStyle} {callee : String} {ts : List Token}
    {rs : List Rendered} {ss : List Spine} (written : Written A dotted callee ts)
    (reads : s.Reads ts) (each : List.Forall₂ (Means A) rs ss) :
    Means A (.call style callee rs) (.applied style s (ss.map Spine.tree)) := by
  obtain ⟨parts, trees, readsParts, writtenParts⟩ := means_list each
  have whole := written.then '(' (spells_listed writtenParts)
    (by simp [Rendered.parenthesized]) (.inl rfl)
  rw [← trees]
  cases style with
  | direct => exact means_chain whole (reads.before (.args parts readsParts))
  | construct =>
      have isReserved : "new" ∈ reserved := by decide
      have spells := whole.spells.after_keyword isReserved
      have news : Written A True ("new " ++ (callee ++ Rendered.parenthesized (Rendered.list rs)))
          (.keyword "new" :: (ts ++ argumentTokens parts)) := by
        constructor
        · rw [String.toList_append]
          exact ⟨'n', rfl, rfl⟩
        · simpa [argumentTokens, Rendered.list] using spells
      exact means_chain news (reads.construct parts readsParts)

end

/-! ## Objects -/

section
variable {A : Alphabet} {r : Rendered} {s : Spine}

/-- The token that names a field of an object. -/
def keyToken (name : String) : Token :=
  if isIdentifier name then .ofWord name else .string name

theorem key_keyToken (name : String) : (keyToken name).key? = some name := by
  by_cases isIdent : isIdentifier name
  · by_cases member : name ∈ reserved <;> simp [keyToken, isIdent, Token.ofWord, member, Token.key?]
  · simp [keyToken, isIdent, Token.key?]

theorem text_keyToken (name : String) :
    (keyToken name).text = (if isIdentifier name then name else Text.quoted name).toList := by
  by_cases isIdent : isIdentifier name
  · rw [keyToken, if_pos isIdent, if_pos isIdent, text_ofWord]
  · rw [keyToken, if_neg isIdent, if_neg isIdent, Token.text]

theorem endsBefore_keyToken (name : String) {next : Option Char} (stop : A.partsFrom next) :
    (keyToken name).EndsBefore A next := by
  by_cases isIdent : isIdentifier name
  · rw [keyToken, if_pos isIdent]
    exact endsBefore_word (isWord_of_isIdentifier isIdent) stop
  · rw [keyToken, if_neg isIdent]
    trivial

theorem written_objectField (name : String) (means : Means A r s) :
    ∃ entry : Entry, entry.key.key? = some entry.name ∧
      (entry.name, entry.value.tree) = (name, s.tree) ∧
      Reads .assign entry.value.tokens entry.value.tree ∧
      Written A False (Rendered.objectField name r) entry.tokens := by
  obtain ⟨ts, written, reads⟩ := means.atLeast (p := .assign) (by decide)
  refine ⟨⟨keyToken name, name, ts, s.tree⟩, key_keyToken name, rfl, reads, ?_⟩
  have value : Spells A (':' :: ' ' :: (r.atLeast .assign).toList) (.mark .colon :: ts)
      (Behind False) :=
    Spells.cons_mark (m := .colon) rfl (written.spells.blank_before isBlank_space)
  have stop : A.partsFrom (some ':') := by
    simp [Alphabet.partsFrom, A.isPart_of_ascii]
  have chars : (Rendered.objectField name r).toList =
      (keyToken name).text ++ ':' :: ' ' :: (r.atLeast .assign).toList := by
    simp [Rendered.objectField, text_keyToken]
  constructor
  · rw [chars]
    exact (starts_token (endsBefore_keyToken name (A := A) rfl)).append _
  · rw [chars]
    exact (spells_token _).append value fun _ _ => endsBefore_keyToken name stop

/-- A rendered field with the name and the phrase it is read as. -/
def FieldMeans (A : Alphabet) (text : String) (field : String × Tree) : Prop :=
  ∃ r s, text = Rendered.objectField field.1 r ∧ field.2 = Spine.tree s ∧ Means A r s

theorem means_entries {texts : List String} {fields : List (String × Tree)}
    (each : List.Forall₂ (FieldMeans A) texts fields) :
    ∃ row : List Entry, (row.map fun e => (e.name, e.value.tree)) = fields ∧
      (∀ e ∈ row, e.key.key? = some e.name) ∧
      (∀ e ∈ row, Reads .assign e.value.tokens e.value.tree) ∧
      List.Forall₂ (Written A False) texts (row.map Entry.tokens) := by
  induction each with
  | nil => exact ⟨[], rfl, by simp, by simp, .nil⟩
  | @cons text field texts fields head _ ih =>
      obtain ⟨row, same, keys, reads, written⟩ := ih
      obtain ⟨r, s, rfl, tree, means⟩ := head
      obtain ⟨entry, key, isField, readsEntry, writtenEntry⟩ := written_objectField field.1 means
      refine ⟨entry :: row, ?_, ?_, ?_, .cons writtenEntry written⟩
      · rw [List.map_cons, same, isField, ← tree]
      · intro e member
        rcases List.mem_cons.mp member with rfl | member
        · exact key
        · exact keys e member
      · intro e member
        rcases List.mem_cons.mp member with rfl | member
        · exact readsEntry
        · exact reads e member

theorem means_object {texts : List String} {fields : List (String × Tree)}
    (each : List.Forall₂ (FieldMeans A) texts fields) :
    Means A (.object texts) (.ofTree (.object fields)) := by
  obtain ⟨row, rfl, keys, reads, written⟩ := means_entries each
  refine means_primary ?_ (.object row keys reads)
  cases texts with
  | nil =>
      obtain rfl : row = [] := by
        cases row with
        | nil => rfl
        | cons _ _ => cases written
      constructor
      · exact ⟨'\x7b', rfl, rfl⟩
      · exact Spells.cons_mark (m := .openBrace) rfl (spells_close (m := .closeBrace) rfl _)
  | cons text texts =>
      have inner := written_joined (List.cons_ne_nil _ _) written
      have closing : Spells A [' ', '\x7d'] [.mark .closeBrace] (Behind True) :=
        (spells_close (m := .closeBrace) rfl _).blank_before isBlank_space
      have closed := inner.spells.append closing fun _ _ => .inl rfl
      have spells := Spells.cons_mark (m := .openBrace) rfl (closed.blank_before isBlank_space)
      constructor
      · simp only [List.isEmpty_cons, Bool.false_eq_true, if_false, String.append_assoc,
          String.toList_append]
        exact ⟨'\x7b', rfl, rfl⟩
      · suffices wide : Spells A _ _ (Behind True) from
          wide.mono fun _ behind => behind.imp_right (And.imp_left fun _ => trivial)
        simpa [Mark.text, String.append_assoc] using spells

end

/-! ## Functions -/

section
variable {A : Alphabet} {r : Rendered} {s : Spine}

theorem written_names {params : List String} (names : ∀ name ∈ params, A.IsName name) :
    List.Forall₂ (Written A False) params (params.map fun name => [.name name]) := by
  induction params with
  | nil => exact .nil
  | cons name rest ih =>
      have head := written_name (names name List.mem_cons_self)
      have tail := ih fun other member => names other (List.mem_cons_of_mem _ member)
      exact .cons (head.mono False.elim) tail

-- Only a text that begins with a brace is read as tokens that do.
theorem JavaScript.Written.noBlock {dotted : Prop} {text : String} {ts : List Token}
    (written : Written A dotted text ts) (noBrace : text.toList.head? ≠ some '\x7b') :
    ts.head? ≠ some (.mark .openBrace) := by
  have atEnd : Behind dotted none := .inl rfl
  obtain ⟨first, rest, _, rfl, sameHead, _⟩ := written.spells.head written.starts atEnd
  intro isBrace
  cases isBrace
  exact noBrace sameHead

-- The body of a function, in parentheses where it would read as a block.
theorem Means.functionBody (means : Means A r s) :
    ∃ ts, Written A False
        (if r.text.toList.head? = some '\x7b' then Rendered.parenthesized r.text
          else r.atLeast .assign) ts ∧
      ts.head? ≠ some (.mark .openBrace) ∧ Reads .assign ts s.tree := by
  by_cases brace : r.text.toList.head? = some '\x7b'
  · obtain ⟨ts, written, reads⟩ := means.parenthesized
    rw [if_pos brace]
    refine ⟨ts, written.mono False.elim, written.noBlock ?_, reads.loosen (by decide)⟩
    simp [Rendered.parenthesized]
  · obtain ⟨ts, written, reads⟩ := means.atLeast (p := .assign) (by decide)
    rw [if_neg brace]
    refine ⟨ts, written, written.noBlock ?_, reads⟩
    rw [Rendered.atLeast]
    split
    · simp [Rendered.parenthesized]
    · exact brace

theorem means_lambda {params : List String} (names : ∀ name ∈ params, A.IsName name)
    (body : Means A r s) : Means A (.lambda params r) (.ofTree (.arrow params s.tree)) := by
  obtain ⟨ts, written, noBlock, reads⟩ := body.functionBody
  have listed := spells_listed (written_names names)
  refine means_loose (by decide) ⟨?_, ?_⟩ (.arrow params noBlock reads)
  · simp only [Rendered.parenthesized, String.append_assoc, String.toList_append]
    exact ⟨'(', rfl, rfl⟩
  · have spells := listed.spaced .arrow written.spells
    simpa [functionTokens, Mark.text, String.append_assoc] using spells

/-- Whether lines declare the constants and return the result. -/
def LinesMean (A : Alphabet) (lines : String) (constants : List (String × Tree)) (t : Tree) : Prop :=
  ∃ (row : List Constant) (ts : List Token),
    (row.map fun c => (c.name, c.value.tree)) = constants ∧
    (∀ c ∈ row, Reads .assign c.value.tokens c.value.tree) ∧ Reads .comma ts t ∧
    Spells A lines.toList
      (row.flatMap Constant.tokens ++ .keyword "return" :: (ts ++ [.mark .semicolon])) fun _ => True

variable {indent : String} (blank : ∀ c ∈ indent.toList, isBlank c)
include blank

theorem linesMean_result (means : Means A r s) :
    LinesMean A (Rendered.result indent r) [] s.tree := by
  obtain ⟨ts, written, reads⟩ := means.atLeast (p := .sequence) (by decide)
  refine ⟨[], ts, rfl, by simp, reads, ?_⟩
  have isReserved : "return" ∈ reserved := by decide
  have close : Spells A [';', '\n'] [.mark .semicolon] fun _ => True :=
    Spells.cons_mark (m := .semicolon) rfl (spells_blank isBlank_newline)
  have ended := written.spells.append close fun _ _ => .inl rfl
  have spells := (ended.after_keyword isReserved).blank_before blank
  simpa [Rendered.result, Rendered.atLeast, Precedence.level, String.append_assoc] using spells

theorem linesMean_constant {name lines : String} {constants : List (String × Tree)} {t : Tree}
    (isName : A.IsName name) (value : Means A r s) (rest : LinesMean A lines constants t) :
    LinesMean A (Rendered.constant indent name r ++ lines) ((name, s.tree) :: constants) t := by
  obtain ⟨ts, written, reads⟩ := value.atLeast (p := .assign) (by decide)
  obtain ⟨row, result, rfl, readsRow, readsResult, spellsRest⟩ := rest
  refine ⟨⟨name, ts, s.tree⟩ :: row, result, rfl, ?_, readsResult, ?_⟩
  · intro c member
    rcases List.mem_cons.mp member with rfl | member
    · exact reads
    · exact readsRow c member
  have isReserved : "const" ∈ reserved := by decide
  have close : Spells A (';' :: '\n' :: lines.toList) (.mark .semicolon :: _) fun _ => True :=
    Spells.cons_mark (m := .semicolon) rfl (spellsRest.blank_before isBlank_newline)
  have ended := written.spells.append close fun _ _ => .inl rfl
  have bound := (written_name isName).spells.spaced .assign ended
  have spells := (bound.after_keyword isReserved).blank_before blank
  simpa [Rendered.constant, Constant.tokens, Mark.text, String.append_assoc] using spells

theorem means_block {lines : String} {constants : List (String × Tree)} {t : Tree}
    (rest : LinesMean A lines constants t) :
    Means A (.block indent lines) (.block constants t) := by
  obtain ⟨row, ts, rfl, readsRow, reads, spellsLines⟩ := rest
  have called : Spells A ['(', ')'] [.mark .openParen, .mark .closeParen] (Behind True) :=
    Spells.cons_mark (m := .openParen) rfl (spells_close (m := .closeParen) rfl _)
  have closed : Spells A ['\x7d', ')', '(', ')'] (.mark .closeBrace :: .mark .closeParen :: _)
      (Behind True) :=
    Spells.cons_mark (m := .closeBrace) rfl (Spells.cons_mark (m := .closeParen) rfl called)
  have ended := spellsLines.append (closed.blank_before blank) fun _ _ => trivial
  have opened := Spells.cons_mark (m := .openBrace) rfl (ended.blank_before isBlank_newline)
  have params : Spells A ['(', '(', ')'] [.mark .openParen, .mark .openParen, .mark .closeParen]
      (Behind True) := Spells.cons_mark (m := .openParen) rfl called
  have spells := params.spaced .arrow opened
  have function : Reads .primary _ (.routine [] (row.map fun c => (c.name, c.value.tree)) t) :=
    .parenthesized ((Reads.routine [] row readsRow reads).loosen (by decide))
  have chain := (reads_ofTree function).before (.args [] (by simp))
  refine means_chain ⟨?_, ?_⟩ chain
  · simp only [String.append_assoc, String.toList_append]
    exact ⟨'(', rfl, rfl⟩
  · simpa [functionTokens, blockTokens, argumentTokens, commas, Mark.text, String.append_assoc]
      using spells

end
end CallReplacement
