import CallReplacement.Proofs.Options.Accepted
import CallReplacement.Proofs.Source.Repeats
import Mathlib.Computability.Language

/-!
Which options are accepted, and what is reported of the others. The names of plugins have to show a
character each and differ, symbols have to be words of `[A-Za-z_][A-Za-z0-9_]*`, and no start of an
owner's name may be empty. Of several violations the first one is reported: plugins come before
symbols, symbols before starts, and in each list an earlier entry before a later one.
-/

namespace CallReplacement

namespace Symbol

open Computability

def IsLetter (c : Char) : Prop := ('A' ≤ c ∧ c ≤ 'Z') ∨ ('a' ≤ c ∧ c ≤ 'z') ∨ c = '_'

def IsPart (c : Char) : Prop := IsLetter c ∨ ('0' ≤ c ∧ c ≤ '9')

/-- The words of one character of a class. -/
def single (p : Char → Prop) : Language Char := {word | ∃ c, word = [c] ∧ p c}

/-- The words of `[A-Za-z_][A-Za-z0-9_]*`. -/
def words : Language Char := single IsLetter * (single IsPart)∗

/-- What is wrong with a text that is no symbol. -/
inductive Flawed : List Char → SymbolFlaw → Prop
  | empty : Flawed [] .empty
  | badStart {c rest} : ¬ IsLetter c → Flawed (c :: rest) .badStart
  | badCharacter {c rest d} : IsLetter c → d ∈ rest → ¬ IsPart d → Flawed (c :: rest) .badCharacter

instance (c : Char) : Decidable (IsLetter c) := inferInstanceAs (Decidable (_ ∨ _ ∨ _))

instance (c : Char) : Decidable (IsPart c) := inferInstanceAs (Decidable (_ ∨ _))

theorem isAlpha_eq (c : Char) : (c.isAlpha || c == '_') = decide (IsLetter c) := by
  have spelled : (c.isAlpha || c == '_') =
      (decide ('A' ≤ c ∧ c ≤ 'Z') || (decide ('a' ≤ c) && decide (c ≤ 'z')) || c == '_') := rfl
  rw [spelled, Bool.eq_iff_iff, decide_eq_true_iff]
  simp [IsLetter, or_assoc]

theorem isAlphanum_eq (c : Char) : (c.isAlphanum || c == '_') = decide (IsPart c) := by
  have letter := isAlpha_eq c
  rw [Bool.eq_iff_iff, decide_eq_true_iff] at *
  rw [IsPart, ← letter]
  simp [Char.isAlphanum, Char.isDigit, Char.le_def, or_right_comm]

theorem mem_kstar_single_iff (p : Char → Prop) (word : List Char) :
    word ∈ (single p)∗ ↔ ∀ c ∈ word, p c := by
  rw [Language.mem_kstar]
  constructor
  · rintro ⟨pieces, rfl, each⟩ c member
    obtain ⟨piece, inPieces, inPiece⟩ := List.mem_flatten.mp member
    obtain ⟨d, rfl, holds⟩ := each piece inPieces
    rwa [List.mem_singleton.mp inPiece]
  · intro all
    refine ⟨word.map fun c => [c], by simp [← List.flatMap_def], ?_⟩
    intro piece member
    obtain ⟨c, inWord, rfl⟩ := List.mem_map.mp member
    exact ⟨c, rfl, all c inWord⟩

theorem mem_words_iff (word : List Char) :
    word ∈ words ↔ ∃ c rest, word = c :: rest ∧ IsLetter c ∧ ∀ d ∈ rest, IsPart d := by
  rw [words, Language.mem_mul]
  simp only [mem_kstar_single_iff]
  constructor
  · rintro ⟨_, ⟨c, rfl, letter⟩, rest, others, rfl⟩
    exact ⟨c, rest, rfl, letter, others⟩
  · rintro ⟨c, rest, rfl, letter, others⟩
    exact ⟨[c], ⟨c, rfl, letter⟩, rest, others, rfl⟩

theorem symbolFlaw?_eq_none_iff (symbol : String) :
    symbolFlaw? symbol = none ↔ symbol.toList ∈ words := by
  unfold symbolFlaw?
  simp only [isAlpha_eq, isAlphanum_eq, mem_words_iff]
  cases symbol.toList with
  | nil => simp
  | cons c rest => by_cases letter : IsLetter c <;> simp [letter]

theorem symbolFlaw?_eq_some_iff (symbol : String) (flaw : SymbolFlaw) :
    symbolFlaw? symbol = some flaw ↔ Flawed symbol.toList flaw := by
  unfold symbolFlaw?
  simp only [isAlpha_eq, isAlphanum_eq]
  cases symbol.toList with
  | nil =>
      constructor
      · rintro ⟨⟩
        exact .empty
      · rintro ⟨⟩
        rfl
  | cons c rest =>
      by_cases letter : IsLetter c
      · suffices (∃ d ∈ rest, ¬ IsPart d) ∧ .badCharacter = flaw ↔ Flawed (c :: rest) flaw by
          simpa [letter] using this
        constructor
        · rintro ⟨⟨d, member, wrong⟩, rfl⟩
          exact .badCharacter letter member wrong
        · rintro (_ | stops | ⟨_, member, wrong⟩)
          · exact absurd letter stops
          · exact ⟨⟨_, member, wrong⟩, rfl⟩
      · suffices .badStart = flaw ↔ Flawed (c :: rest) flaw by simpa [letter] using this
        constructor
        · rintro rfl
          exact .badStart letter
        · rintro (_ | _ | ⟨starts, _, _⟩)
          · rfl
          · exact absurd starts letter

theorem Flawed.not_mem_words {text : List Char} {flaw : SymbolFlaw} (flawed : Flawed text flaw) :
    text ∉ words := by
  rw [mem_words_iff]
  rintro ⟨c, rest, rfl, letter, parts⟩
  rcases flawed with _ | stops | ⟨_, member, wrong⟩
  · exact stops letter
  · exact wrong (parts _ member)

end Symbol

namespace Options

/-- Whether a name shows a character that is not blank. -/
def Shown (name : String) : Prop := ∃ c ∈ name.toList, Text.isBlank c = false

structure Sound (o : Options) : Prop where
  shown : ∀ name ∈ o.plugins, Shown name
  distinct : o.plugins.Nodup
  symbols : ∀ symbol ∈ o.define, symbol.toList ∈ Symbol.words
  starts : "" ∉ o.warnPassthrough

/-- Which violation counts. An entry is given by the entries before it, which are in order. -/
inductive FirstViolation (document : String) (o : Options) : OptionsFault → Prop
  | blank {before name after} :
      o.plugins = before ++ name :: after → (∀ n ∈ before, Shown n) → before.Nodup →
      ¬ Shown name → FirstViolation document o .blankPlugin
  | duplicate {before name after} :
      o.plugins = before ++ name :: after → (∀ n ∈ before, Shown n) → before.Nodup →
      Shown name → name ∈ before →
      FirstViolation document o
        (.duplicatePlugin name (Span.ofEntry? document "plugins" name 1))
  | symbol {before symbol after flaw} :
      (∀ n ∈ o.plugins, Shown n) → o.plugins.Nodup →
      o.define = before ++ symbol :: after → (∀ s ∈ before, s.toList ∈ Symbol.words) →
      Symbol.Flawed symbol.toList flaw →
      FirstViolation document o
        (.invalidSymbol symbol flaw (Span.ofEntry? document "define" symbol 0))
  | start :
      (∀ n ∈ o.plugins, Shown n) → o.plugins.Nodup →
      (∀ s ∈ o.define, s.toList ∈ Symbol.words) → "" ∈ o.warnPassthrough →
      FirstViolation document o
        (.emptyStart (Span.ofEntry? document "warn_passthrough" "" 0))

theorem all_isBlank_eq_false_iff (name : String) :
    name.toList.all Text.isBlank = false ↔ Shown name := by
  simp [Shown]

-- Names that are shown and new are passed over, and count as known afterwards.
theorem pluginFault?_append {document : String} {known before : List String}
    (shown : ∀ n ∈ before, Shown n) (distinct : before.Nodup) (unseen : ∀ n ∈ before, n ∉ known)
    (rest : List String) :
    pluginFault? document known (before ++ rest) = pluginFault? document (known ++ before) rest := by
  induction before generalizing known with
  | nil => rw [List.nil_append, List.append_nil]
  | cons name before ih =>
      obtain ⟨head, shown⟩ := List.forall_mem_cons.mp shown
      obtain ⟨absent, distinct⟩ := List.nodup_cons.mp distinct
      obtain ⟨fresh, unseen⟩ := List.forall_mem_cons.mp unseen
      have passed : ∀ n ∈ before, n ∉ known ++ [name] := by
        intro n member
        rw [List.mem_append, List.mem_singleton]
        rintro (inKnown | rfl)
        · exact unseen n member inKnown
        · exact absent member
      have notBlank := (all_isBlank_eq_false_iff name).mpr head
      have isNew : ¬ known.contains name = true := by simpa using fresh
      rw [List.cons_append, pluginFault?, notBlank, if_neg Bool.false_ne_true, if_neg isNew,
        ih shown distinct passed, List.append_assoc, List.singleton_append]

theorem exists_of_pluginFault? {document : String} {known names : List String}
    {fault : OptionsFault} (found : pluginFault? document known names = some fault) :
    ∃ before name after, names = before ++ name :: after ∧ (∀ n ∈ before, Shown n) ∧
      before.Nodup ∧ (∀ n ∈ before, n ∉ known) ∧ (Shown name → name ∈ known ++ before) := by
  induction names generalizing known with
  | nil => cases found
  | cons name rest ih =>
      unfold pluginFault? at found
      split at found
      · next blank =>
        refine ⟨[], name, rest, rfl, by simp, List.nodup_nil, by simp, fun shown => ?_⟩
        rw [(all_isBlank_eq_false_iff name).mpr shown] at blank
        cases blank
      · next notBlank =>
        split at found
        · next isKnown =>
          refine ⟨[], name, rest, rfl, by simp, List.nodup_nil, by simp, fun _ => ?_⟩
          simpa using isKnown
        · next isNew =>
          obtain ⟨before, other, after, rfl, shown, distinct, unseen, repeats⟩ := ih found
          rw [Bool.not_eq_true, all_isBlank_eq_false_iff] at notBlank
          have absent : name ∉ before := fun member =>
            unseen name member (List.mem_append_right known List.mem_cons_self)
          refine ⟨name :: before, other, after, rfl, List.forall_mem_cons.mpr ⟨notBlank, shown⟩,
            List.nodup_cons.mpr ⟨absent, distinct⟩, List.forall_mem_cons.mpr ⟨?_, ?_⟩, ?_⟩
          · simpa using isNew
          · exact fun n member inKnown => unseen n member (List.mem_append_left _ inKnown)
          · simpa using repeats

section
variable {before : List String} (shown : ∀ n ∈ before, Shown n) (distinct : before.Nodup)
include shown distinct

theorem pluginFault?_of_blank (document : String) {name : String} (blank : ¬ Shown name)
    (after : List String) :
    pluginFault? document [] (before ++ name :: after) = some .blankPlugin := by
  rw [← all_isBlank_eq_false_iff, Bool.not_eq_false] at blank
  rw [pluginFault?_append shown distinct (by simp), pluginFault?, if_pos blank]

theorem pluginFault?_of_repeated (document : String) {name : String} (named : Shown name)
    (repeated : name ∈ before) (after : List String) :
    pluginFault? document [] (before ++ name :: after) =
      some (.duplicatePlugin name (Span.ofEntry? document "plugins" name 1)) := by
  have isKnown : ([] ++ before).contains name = true := by simpa using repeated
  rw [pluginFault?_append shown distinct (by simp), pluginFault?,
    (all_isBlank_eq_false_iff name).mpr named, if_neg Bool.false_ne_true, if_pos isKnown]

end

theorem pluginFault?_eq_some_iff (document : String) (names : List String) (fault : OptionsFault) :
    pluginFault? document [] names = some fault ↔
      ∃ before name after, names = before ++ name :: after ∧ (∀ n ∈ before, Shown n) ∧
        before.Nodup ∧
        (¬ Shown name ∧ fault = .blankPlugin ∨
          Shown name ∧ name ∈ before ∧
            fault = .duplicatePlugin name (Span.ofEntry? document "plugins" name 1)) := by
  constructor
  · intro found
    obtain ⟨before, name, after, rfl, shown, distinct, _, repeats⟩ := exists_of_pluginFault? found
    refine ⟨before, name, after, rfl, shown, distinct, ?_⟩
    by_cases named : Shown name
    · have repeated := repeats named
      rw [pluginFault?_of_repeated shown distinct document named repeated after] at found
      exact .inr ⟨named, repeated, (Option.some.inj found).symm⟩
    · rw [pluginFault?_of_blank shown distinct document named after] at found
      exact .inl ⟨named, (Option.some.inj found).symm⟩
  · rintro ⟨before, name, after, rfl, shown, distinct, ⟨blank, rfl⟩ | ⟨named, repeated, rfl⟩⟩
    · exact pluginFault?_of_blank shown distinct document blank after
    · exact pluginFault?_of_repeated shown distinct document named repeated after

theorem pluginFault?_eq_none_iff_shown (document : String) (names : List String) :
    pluginFault? document [] names = none ↔ (∀ n ∈ names, Shown n) ∧ names.Nodup := by
  simp [pluginFault?_eq_none_iff, Shown]

theorem symbolFault?_eq_none_iff (document : String) (symbols : List String) :
    symbolFault? document symbols = none ↔ ∀ symbol ∈ symbols, symbol.toList ∈ Symbol.words := by
  simp [symbolFault?, Symbol.symbolFlaw?_eq_none_iff]

theorem symbolFault?_eq_some_iff (document : String) (symbols : List String)
    (fault : OptionsFault) :
    symbolFault? document symbols = some fault ↔
      ∃ before symbol after flaw, symbols = before ++ symbol :: after ∧
        (∀ s ∈ before, s.toList ∈ Symbol.words) ∧ Symbol.Flawed symbol.toList flaw ∧
        fault = .invalidSymbol symbol flaw (Span.ofEntry? document "define" symbol 0) := by
  simp only [symbolFault?, List.findSome?_eq_some_iff, Option.map_eq_some_iff,
    Option.map_eq_none_iff, Symbol.symbolFlaw?_eq_some_iff, Symbol.symbolFlaw?_eq_none_iff]
  constructor
  · rintro ⟨before, symbol, after, split, ⟨flaw, flawed, rfl⟩, words⟩
    exact ⟨before, symbol, after, flaw, split, words, flawed, rfl⟩
  · rintro ⟨before, symbol, after, flaw, split, words, flawed, rfl⟩
    exact ⟨before, symbol, after, split, ⟨flaw, flawed, rfl⟩, words⟩

theorem startFault?_eq_none_iff (document : String) (starts : List String) :
    startFault? document starts = none ↔ "" ∉ starts := by
  simp [startFault?]

theorem startFault?_eq_some_iff (document : String) (starts : List String) (fault : OptionsFault) :
    startFault? document starts = some fault ↔
      "" ∈ starts ∧ fault = .emptyStart (Span.ofEntry? document "warn_passthrough" "" 0) := by
  simp [startFault?, eq_comm (a := fault)]

theorem fault?_eq_none_iff (document : String) (o : Options) :
    o.fault? document = none ↔ o.Sound := by
  rw [fault?, Option.or_eq_none_iff, Option.or_eq_none_iff, pluginFault?_eq_none_iff_shown,
    symbolFault?_eq_none_iff, startFault?_eq_none_iff]
  constructor
  · rintro ⟨⟨shown, distinct⟩, words, starts⟩
    exact ⟨shown, distinct, words, starts⟩
  · rintro ⟨shown, distinct, words, starts⟩
    exact ⟨⟨shown, distinct⟩, words, starts⟩

theorem fault?_eq_some_iff (document : String) (o : Options) (fault : OptionsFault) :
    o.fault? document = some fault ↔ o.FirstViolation document fault := by
  rw [fault?, Option.or_eq_some_iff, Option.or_eq_some_iff, pluginFault?_eq_none_iff_shown,
    symbolFault?_eq_none_iff, pluginFault?_eq_some_iff, symbolFault?_eq_some_iff,
    startFault?_eq_some_iff]
  constructor
  · rintro (⟨before, name, after, split, shown, distinct, ⟨blank, rfl⟩ | ⟨named, repeated, rfl⟩⟩ |
      ⟨⟨shown, distinct⟩, ⟨before, symbol, after, flaw, split, words, flawed, rfl⟩ |
        ⟨words, empty, rfl⟩⟩)
    · exact .blank split shown distinct blank
    · exact .duplicate split shown distinct named repeated
    · exact .symbol shown distinct split words flawed
    · exact .start shown distinct words empty
  · rintro (⟨split, shown, distinct, blank⟩ | ⟨split, shown, distinct, named, repeated⟩ |
      ⟨shown, distinct, split, words, flawed⟩ | ⟨shown, distinct, words, empty⟩)
    · exact .inl ⟨_, _, _, split, shown, distinct, .inl ⟨blank, rfl⟩⟩
    · exact .inl ⟨_, _, _, split, shown, distinct, .inr ⟨named, repeated, rfl⟩⟩
    · exact .inr ⟨⟨shown, distinct⟩, .inl ⟨_, _, _, _, split, words, flawed, rfl⟩⟩
    · exact .inr ⟨⟨shown, distinct⟩, .inr ⟨words, empty, rfl⟩⟩

/-- Options are accepted exactly if they are sound, and what is reported of all others is the first
violation. -/
theorem accepted_or_first_violation (document : String) (o : Options) :
    (o.fault? document = none ↔ o.Sound) ∧
      ∀ fault, o.fault? document = some fault ↔ o.FirstViolation document fault :=
  ⟨fault?_eq_none_iff document o, fault?_eq_some_iff document o⟩

end Options
end CallReplacement
