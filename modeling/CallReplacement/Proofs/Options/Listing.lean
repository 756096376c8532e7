import CallReplacement.Proofs.Options.Violation
import Mathlib.Data.Bool.AllAny

/-!
Where the span of a configuration fault points. A document may write the list of a key as entries
between double quotes, with blanks and commas in between. Then the text search for the key finds
that list, the search for a quoted entry meets the entries that are equal to it and nothing else,
and the span covers what stands between the quotes of the entry at fault.
-/

namespace CallReplacement

namespace Text

/-- Whether a text ends where a line starts, but for blanks. -/
def EndsAtLineStart (text : List Char) : Prop :=
  ∃ lines indent, text = lines ++ indent ∧ (lines = [] ∨ lines.getLast? = some '\n') ∧
    ∀ c ∈ indent, isBlank c = true

/-- Whether a text begins with a key, to which a list is assigned. -/
def Assigns (key text : List Char) : Prop :=
  ∃ gap gap' list, text = key ++ gap ++ '=' :: gap' ++ '[' :: list ∧
    (∀ c ∈ gap, isBlank c = true) ∧ ∀ c ∈ gap', isBlank c = true

/-- Whether only blanks stand before the next character, as the search for a key notes it. -/
def onlyBlanks (text : List Char) : Bool :=
  text.foldl (fun blank c => c = '\n' || (blank && isBlank c)) true

theorem onlyBlanks_append_singleton (text : List Char) (c : Char) :
    onlyBlanks (text ++ [c]) = (c = '\n' || (onlyBlanks text && isBlank c)) := by
  simp [onlyBlanks]

theorem onlyBlanks_eq_true_iff (text : List Char) :
    onlyBlanks text = true ↔ EndsAtLineStart text := by
  induction text using List.reverseRecOn with
  | nil => simp [onlyBlanks, EndsAtLineStart]
  | append_singleton text c ih =>
      rw [onlyBlanks_append_singleton, Bool.or_eq_true, Bool.and_eq_true, ih, decide_eq_true_iff]
      constructor
      · rintro (rfl | ⟨⟨lines, indent, rfl, start, blank⟩, last⟩)
        · exact ⟨text ++ ['\n'], [], by simp, .inr (by simp), by simp⟩
        · refine ⟨lines, indent ++ [c], by simp, start, ?_⟩
          intro d member
          rcases List.mem_append.mp member with inIndent | isLast
          · exact blank d inIndent
          · rwa [List.mem_singleton.mp isLast]
      · rintro ⟨lines, indent, split, start, blank⟩
        rcases List.eq_nil_or_concat indent with rfl | ⟨indent, d, rfl⟩
        · rw [List.append_nil] at split
          subst split
          simp at start
          exact .inl start
        · rw [List.concat_eq_append, ← List.append_assoc] at split
          obtain ⟨rfl, last⟩ := List.append_inj' split rfl
          cases last
          rw [List.concat_eq_append, List.forall_mem_append] at blank
          exact .inr ⟨⟨lines, indent, rfl, start, blank.1⟩, blank.2 c List.mem_cons_self⟩

theorem unindented_append {gap : List Char} (blank : ∀ c ∈ gap, isBlank c = true) {c : Char}
    (stops : isBlank c = false) (rest : List Char) :
    unindented (gap ++ c :: rest) = c :: rest := by
  rw [unindented, List.dropWhile_append_of_pos blank, ← unindented,
    unindented_of_not_blank rest stops]

theorem exists_gap_of_unindented (text : List Char) :
    ∃ gap, text = gap ++ unindented text ∧ ∀ c ∈ gap, isBlank c = true :=
  ⟨text.takeWhile isBlank, List.takeWhile_append_dropWhile.symm,
    fun c member => List.all_eq_true.mp List.all_takeWhile c member⟩

theorem listAfter?_eq_some_iff (key text list : List Char) :
    listAfter? key text = some list ↔
      ∃ gap gap', text = key ++ gap ++ '=' :: gap' ++ '[' :: list ∧
        (∀ c ∈ gap, isBlank c = true) ∧ ∀ c ∈ gap', isBlank c = true := by
  simp only [listAfter?, Option.bind_eq_bind, Option.bind_eq_some_iff, strip?_eq_some_iff]
  constructor
  · rintro ⟨assigned, rfl, value, sign, bracket⟩
    obtain ⟨gap, split, blank⟩ := exists_gap_of_unindented assigned
    obtain ⟨gap', split', blank'⟩ := exists_gap_of_unindented value
    refine ⟨gap, gap', ?_, blank, blank'⟩
    rw [split, sign, split', bracket]
    simp
  · rintro ⟨gap, gap', rfl, blank, blank'⟩
    refine ⟨gap ++ '=' :: gap' ++ '[' :: list, by simp, gap' ++ '[' :: list, ?_, ?_⟩
    · rw [List.append_assoc, List.cons_append, unindented_append blank (by decide)]
      rfl
    · exact unindented_append blank' (by decide) list

theorem listAfter?_eq_none_iff (key text : List Char) :
    listAfter? key text = none ↔ ¬ Assigns key text := by
  simp only [Option.eq_none_iff_forall_ne_some, ne_eq, listAfter?_eq_some_iff, Assigns]
  grind

-- The search goes on as long as no list is assigned to the key where a line starts.
theorem listFrom?_append {key before rest read : List Char} (place : Nat)
    (absent : ∀ front back, before = front ++ back → back ≠ [] →
      onlyBlanks (read ++ front) = true → listAfter? key (back ++ rest) = none) :
    listFrom? key place (onlyBlanks read) (before ++ rest) =
      listFrom? key (place + byteLength before) (onlyBlanks (read ++ before)) rest := by
  induction before generalizing place read with
  | nil => simp
  | cons c before ih =>
      have here : (if onlyBlanks read then listAfter? key (c :: (before ++ rest)) else none) =
          none := by
        split
        · next blank => exact absent [] (c :: before) rfl (by simp) (by simpa using blank)
        · rfl
      have later : ∀ front back, before = front ++ back → back ≠ [] →
          onlyBlanks (read ++ [c] ++ front) = true → listAfter? key (back ++ rest) = none := by
        rintro front back rfl remains blank
        exact absent (c :: front) back rfl remains (by simpa using blank)
      rw [List.cons_append, listFrom?, here]
      change listFrom? key (place + c.utf8Size) _ (before ++ rest) = _
      rw [← onlyBlanks_append_singleton, ih _ later, byteLength_cons, Nat.add_assoc,
        List.append_assoc, List.singleton_append]

theorem listFrom?_of_listAfter? {key text list : List Char} (found : listAfter? key text = some list)
    (place : Nat) :
    listFrom? key place true text =
      some (place + (byteLength text - byteLength list), list.takeWhile (· ≠ ']')) := by
  cases text with
  | nil =>
      obtain ⟨gap, gap', empty, _⟩ := (listAfter?_eq_some_iff key [] list).mp found
      simp at empty
  | cons c rest => rw [listFrom?, if_pos rfl, found]

/-! Occurrences of a quoted text. -/

def inQuotes (entry : List Char) : List Char := '"' :: entry ++ ['"']

theorem occurrences_skipped (wanted : List Char) (place : Nat) (skipped rest : List Char) :
    occurrences wanted place skipped.length (skipped ++ rest) =
      occurrences wanted (place + byteLength skipped) 0 rest := by
  induction skipped generalizing place with
  | nil => rfl
  | cons c skipped ih =>
      rw [List.length_cons, List.cons_append, occurrences, ih, byteLength_cons, Nat.add_assoc]

theorem occurrences_unquoted {passed : List Char} (unquoted : '"' ∉ passed) (entry : List Char)
    (place : Nat) (rest : List Char) :
    occurrences (inQuotes entry) place 0 (passed ++ rest) =
      occurrences (inQuotes entry) (place + byteLength passed) 0 rest := by
  induction passed generalizing place with
  | nil => rfl
  | cons c passed ih =>
      rw [List.mem_cons, not_or] at unquoted
      obtain ⟨differs, unquoted⟩ := unquoted
      have absent : (inQuotes entry).isPrefixOf (c :: (passed ++ rest)) = false := by
        simp [inQuotes, List.isPrefixOf, differs]
      rw [List.cons_append, occurrences, absent, if_neg Bool.false_ne_true, ih unquoted,
        byteLength_cons, Nat.add_assoc]

-- What the search does at a quote: it takes the whole quoted text or goes on behind the quote.
theorem occurrences_quote (entry : List Char) (place : Nat) (rest : List Char) :
    occurrences (inQuotes entry) place 0 ('"' :: rest) =
      if entry ++ ['"'] <+: rest then
        place :: occurrences (inQuotes entry) (place + ('"').utf8Size) (entry ++ ['"']).length rest
      else occurrences (inQuotes entry) (place + ('"').utf8Size) 0 rest := by
  have found : (inQuotes entry).isPrefixOf ('"' :: rest) = true ↔ entry ++ ['"'] <+: rest := by
    rw [ List.isPrefixOf_iff_prefix, inQuotes, List.cons_append, List.prefix_cons_inj]
  simp only [occurrences, found]
  rfl

theorem occurrences_inQuotes (entry : List Char) (place : Nat) (rest : List Char) :
    occurrences (inQuotes entry) place 0 (inQuotes entry ++ rest) =
      place :: occurrences (inQuotes entry) (place + byteLength (inQuotes entry)) 0 rest := by
  have split : inQuotes entry ++ rest = '"' :: (entry ++ ['"'] ++ rest) := by simp [inQuotes]
  have bytes : byteLength (inQuotes entry) = ('"').utf8Size + byteLength (entry ++ ['"']) := rfl
  rw [split, occurrences_quote, if_pos (List.prefix_append _ _), occurrences_skipped, bytes,
    Nat.add_assoc]

/-- Whether a comma stands before the first quote of a text, if there is one. -/
def CommaFirst (text : List Char) : Prop :=
  ∃ gap rest, text = gap ++ rest ∧ '"' ∉ gap ∧ (',' ∈ gap ∨ rest = [])

-- The needle cannot lie between two entries: it would hold the comma.
theorem not_prefix_of_commaFirst {entry text : List Char} (plain : ',' ∉ entry)
    (comma : CommaFirst text) : ¬ entry ++ ['"'] <+: text := by
  obtain ⟨gap, rest, rfl, unquoted, comma⟩ := comma
  rintro ⟨more, same⟩
  rcases List.append_eq_append_iff.mp same with ⟨within, rfl, _⟩ | ⟨beyond, split, rfl⟩
  · exact unquoted (by simp)
  · rcases List.eq_nil_or_concat beyond with rfl | ⟨inner, last, rfl⟩
    · rw [List.append_nil] at split
      exact unquoted (by simp [← split])
    · rw [List.concat_eq_append, ← List.append_assoc] at split
      obtain ⟨rfl, _⟩ := List.append_inj' split rfl
      rcases comma with inGap | empty
      · exact plain (List.mem_append_left inner inGap)
      · simp at empty

theorem eq_of_prefix_quote {entry other rest : List Char} (unquoted : '"' ∉ entry)
    (unquoted' : '"' ∉ other) (same : entry ++ ['"'] <+: other ++ '"' :: rest) : other = entry := by
  obtain ⟨more, same⟩ := same
  rw [List.append_assoc, List.singleton_append] at same
  rcases List.append_eq_append_iff.mp same with ⟨d, rfl, tail⟩ | ⟨d, rfl, tail⟩
  all_goals
    cases d with
    | nil => simp
    | cons c d =>
      rw [List.cons_append, List.cons.injEq] at tail
      simp [← tail.1] at unquoted unquoted'

theorem occurrences_other {entry other : List Char} (differs : other ≠ entry)
    (unquoted : '"' ∉ entry) (unquoted' : '"' ∉ other) (plain : ',' ∉ entry) (place : Nat)
    {rest : List Char} (comma : CommaFirst rest) :
    occurrences (inQuotes entry) place 0 (inQuotes other ++ rest) =
      occurrences (inQuotes entry) (place + byteLength (inQuotes other)) 0 rest := by
  have split : inQuotes other ++ rest = '"' :: (other ++ '"' :: rest) := by simp [inQuotes]
  have opening : ¬ entry ++ ['"'] <+: other ++ '"' :: rest :=
    fun same => differs (eq_of_prefix_quote unquoted unquoted' same)
  rw [split, occurrences_quote, if_neg opening, occurrences_unquoted unquoted', occurrences_quote,
    if_neg (not_prefix_of_commaFirst plain comma)]
  simp [inQuotes, Nat.add_assoc]

end Text

/-- An entry of a list as it is written, with what stands between it and the entry before. -/
structure WrittenEntry where
  gap : List Char
  entry : String

namespace WrittenEntry

def text (e : WrittenEntry) : List Char := e.gap ++ Text.inQuotes e.entry.toList

/-- Whether quotes and commas are where they should be: no quote between entries, and neither a
quote nor a comma nor a closing bracket within one. -/
structure Plain (e : WrittenEntry) : Prop where
  gap : ∀ c ∈ e.gap, Text.isBlank c = true ∨ c = ','
  entry : ∀ c ∈ e.entry.toList, c ≠ '"' ∧ c ≠ ',' ∧ c ≠ ']'

end WrittenEntry

theorem not_mem_gap {mark : Char} (foreign : ¬ (Text.isBlank mark = true ∨ mark = ','))
    {gap : List Char} (plain : ∀ c ∈ gap, Text.isBlank c = true ∨ c = ',') : mark ∉ gap :=
  fun member => foreign (plain mark member)

namespace Text

theorem commaFirst_of_entries {entries : List WrittenEntry} {last : List Char}
    (plain : ∀ e ∈ entries, e.Plain) (commas : ∀ e ∈ entries, ',' ∈ e.gap) (unquoted : '"' ∉ last) :
    CommaFirst (entries.flatMap WrittenEntry.text ++ last) := by
  cases entries with
  | nil => exact ⟨last, [], by simp, unquoted, .inr rfl⟩
  | cons e rest =>
      obtain ⟨head, _⟩ := List.forall_mem_cons.mp plain
      obtain ⟨comma, _⟩ := List.forall_mem_cons.mp commas
      refine ⟨e.gap, inQuotes e.entry.toList ++ (rest.flatMap WrittenEntry.text ++ last), ?_,
        not_mem_gap (by decide) head.gap, .inl comma⟩
      simp [WrittenEntry.text]

-- The matches are the equal entries, so to pass over those before an entry leads to that entry.
theorem getElem?_occurrences {before after : List WrittenEntry} {e : WrittenEntry}
    {last : List Char} (plain : ∀ d ∈ before ++ e :: after, d.Plain)
    (commas : ∀ d ∈ (before ++ e :: after).tail, ',' ∈ d.gap) (unquoted : '"' ∉ last)
    (place : Nat) :
    (occurrences (inQuotes e.entry.toList) place 0
        ((before ++ e :: after).flatMap WrittenEntry.text ++ last))[
          (before.map WrittenEntry.entry).count e.entry]? =
      some (place + byteLength (before.flatMap WrittenEntry.text ++ e.gap)) := by
  induction before generalizing place with
  | nil =>
      obtain ⟨head, _⟩ := List.forall_mem_cons.mp plain
      simp only [List.nil_append, List.flatMap_cons, WrittenEntry.text, List.append_assoc,
        occurrences_unquoted (not_mem_gap (by decide) head.gap), occurrences_inQuotes]
      simp
  | cons d before ih =>
      rw [List.cons_append, List.forall_mem_cons] at plain
      obtain ⟨head, plain⟩ := plain
      have own := (plain e (by simp)).entry
      have unquotedEntry : '"' ∉ e.entry.toList := fun member => (own _ member).1 rfl
      have unquotedOther : '"' ∉ d.entry.toList := fun member => (head.entry _ member).1 rfl
      have noComma : ',' ∉ e.entry.toList := fun member => (own _ member).2.1 rfl
      have next := commaFirst_of_entries plain commas unquoted
      have separated : ∀ d ∈ (before ++ e :: after).tail, ',' ∈ d.gap :=
        fun d member => commas d (List.mem_of_mem_tail member)
      have tail := ih plain separated (place + byteLength d.text)
      rw [WrittenEntry.text, byteLength_append, ← Nat.add_assoc] at tail
      rw [List.cons_append, List.flatMap_cons, List.map_cons, WrittenEntry.text, List.append_assoc,
        List.append_assoc, occurrences_unquoted (not_mem_gap (by decide) head.gap)]
      by_cases same : d.entry = e.entry
      · rw [same] at tail ⊢
        rw [occurrences_inQuotes, List.count_cons_self, List.getElem?_cons_succ, tail]
        simp [WrittenEntry.text, same, Nat.add_assoc]
      · have differs : d.entry.toList ≠ e.entry.toList := fun equal => same (String.toList_inj.mp equal)
        rw [occurrences_other differs unquotedEntry unquotedOther noComma _ next,
          List.count_cons_of_ne same, tail]
        simp [WrittenEntry.text, Nat.add_assoc]

end Text

/-- A list as a document writes it: behind its key, which is the first thing on a line, and nowhere
before. -/
structure Listing (document key : String) where
  lead : List Char
  signGap : List Char
  listGap : List Char
  entries : List WrittenEntry
  last : List Char
  rest : List Char
  written : document.toList = lead ++ (key.toList ++ signGap ++ '=' :: listGap ++ '[' ::
    (entries.flatMap WrittenEntry.text ++ last ++ ']' :: rest))
  signBlank : ∀ c ∈ signGap, Text.isBlank c = true
  listBlank : ∀ c ∈ listGap, Text.isBlank c = true
  plain : ∀ e ∈ entries, e.Plain
  commas : ∀ e ∈ entries.tail, ',' ∈ e.gap
  lastPlain : ∀ c ∈ last, Text.isBlank c = true ∨ c = ','
  lineStart : Text.EndsAtLineStart lead
  isFirst : ∀ before later, document.toList = before ++ later → before.length < lead.length →
    Text.EndsAtLineStart before → ¬ Text.Assigns key.toList later

namespace Listing

variable {document key : String} (l : Listing document key)

def values : List String := l.entries.map WrittenEntry.entry

/-- What stands between the brackets. -/
def body : List Char := l.entries.flatMap WrittenEntry.text ++ l.last

/-- The document up to the first entry. -/
def opening : List Char := l.lead ++ (key.toList ++ l.signGap ++ '=' :: l.listGap ++ ['['])

/-- The document up to the text of an entry that stands behind others. -/
def front (before : List WrittenEntry) (e : WrittenEntry) : List Char :=
  l.opening ++ before.flatMap WrittenEntry.text ++ e.gap ++ ['"']

/-- Whether a span is the range of bytes between the quotes of an entry behind others. -/
structure Marks (before : List WrittenEntry) (e : WrittenEntry) (span : Span) : Prop where
  inList : ∃ after, l.entries = before ++ e :: after
  inDocument : ∃ back, document.toList = l.front before e ++ e.entry.toList ++ '"' :: back
  range : span = ⟨Text.byteLength (l.front before e), Text.byteLength e.entry.toList⟩

theorem toList_eq : document.toList = l.opening ++ l.body ++ ']' :: l.rest := by
  rw [l.written]
  simp [opening, body]

theorem takeWhile_body :
    (l.body ++ ']' :: l.rest).takeWhile (· ≠ ']') = l.body := by
  have absent : ']' ∉ l.body := by
    rw [body, List.mem_append, List.mem_flatMap]
    rintro (⟨e, member, inText⟩ | inLast)
    · have plain := l.plain e member
      simp only [WrittenEntry.text, Text.inQuotes, List.mem_append, List.mem_cons] at inText
      rcases inText with inGap | (quote | inEntry) | quote
      · exact not_mem_gap (by decide) plain.gap inGap
      · cases quote
      · exact (plain.entry _ inEntry).2.2 rfl
      · simp at quote
    · exact not_mem_gap (by decide) l.lastPlain inLast
  have all : ∀ c ∈ l.body, decide (c ≠ ']') = true := by
    intro c member
    rw [decide_eq_true_iff]
    rintro rfl
    exact absent member
  rw [List.takeWhile_append_of_pos all]
  simp

theorem listFrom?_eq :
    Text.listFrom? key.toList 0 true document.toList =
      some (Text.byteLength l.opening, l.body) := by
  have absent : ∀ front back, l.lead = front ++ back → back ≠ [] →
      Text.onlyBlanks ([] ++ front) = true → Text.listAfter? key.toList (back ++
        (key.toList ++ l.signGap ++ '=' :: l.listGap ++ '[' :: (l.body ++ ']' :: l.rest))) =
          none := by
    intro front back split remains blank
    rw [List.nil_append, Text.onlyBlanks_eq_true_iff] at blank
    rw [Text.listAfter?_eq_none_iff]
    refine l.isFirst front _ ?_ ?_ blank
    · rw [l.written, split, List.append_assoc]
      rfl
    · have := List.length_pos_iff.mpr remains
      rw [split, List.length_append]
      omega
  have passed := Text.listFrom?_append 0 absent
  have found := (Text.listAfter?_eq_some_iff key.toList _ (l.body ++ ']' :: l.rest)).mpr
    ⟨l.signGap, l.listGap, rfl, l.signBlank, l.listBlank⟩
  rw [List.nil_append, (Text.onlyBlanks_eq_true_iff l.lead).mpr l.lineStart,
    Text.listFrom?_of_listAfter? found, takeWhile_body] at passed
  rw [l.written]
  refine passed.trans ?_
  have bytes : ∀ assigned : List Char, Text.byteLength (assigned ++ '[' :: (l.body ++ ']' :: l.rest)) -
      Text.byteLength (l.body ++ ']' :: l.rest) = Text.byteLength (assigned ++ ['[']) := by
    intro assigned
    simp only [Text.byteLength_append, Text.byteLength_cons, Text.byteLength_nil]
    omega
  rw [bytes]
  simp [opening]

/-- The search passes over equal entries and finds the text of an entry at its place. -/
theorem ofEntry?_eq {before after : List WrittenEntry} {e : WrittenEntry}
    (split : l.entries = before ++ e :: after) :
    Span.ofEntry? document key e.entry ((before.map WrittenEntry.entry).count e.entry) =
      some ⟨Text.byteLength (l.front before e), Text.byteLength e.entry.toList⟩ := by
  have plain := l.plain
  have commas := l.commas
  rw [split] at plain commas
  have found := Text.getElem?_occurrences plain commas (not_mem_gap (by decide) l.lastPlain)
    (Text.byteLength l.opening)
  rw [← split] at found
  simp only [Span.ofEntry?, l.listFrom?_eq, Option.bind_eq_bind, Option.bind_some]
  change ((Text.occurrences (Text.inQuotes e.entry.toList) (Text.byteLength l.opening) 0
    (l.entries.flatMap WrittenEntry.text ++ l.last))[_]?.bind _) = _
  have quoteByte : ('"').utf8Size = 1 := rfl
  rw [found, Option.bind_some, front]
  simp only [Text.byteLength_append, Text.byteLength_cons, Text.byteLength_nil, quoteByte,
    Nat.add_assoc]

theorem marks_of_split {before after : List WrittenEntry} {e : WrittenEntry}
    (split : l.entries = before ++ e :: after) :
    l.Marks before e ⟨Text.byteLength (l.front before e), Text.byteLength e.entry.toList⟩ := by
  refine ⟨⟨after, split⟩, ⟨after.flatMap WrittenEntry.text ++ l.last ++ ']' :: l.rest, ?_⟩, rfl⟩
  rw [toList_eq l, body, split]
  simp [front, WrittenEntry.text, Text.inQuotes]

theorem marks_of_values {before after : List String} {value : String}
    (split : l.values = before ++ value :: after) :
    ∃ entries e, entries.map WrittenEntry.entry = before ∧ e.entry = value ∧
      ∃ span, Span.ofEntry? document key value (before.count value) = some span ∧
        l.Marks entries e span := by
  obtain ⟨entries, others, entriesSplit, rfl, tail⟩ := List.map_eq_append_iff.mp split
  obtain ⟨e, rest, rfl, rfl, rfl⟩ := List.map_eq_cons_iff.mp tail
  exact ⟨entries, e, rfl, rfl, _, l.ofEntry?_eq entriesSplit, l.marks_of_split entriesSplit⟩

end Listing

namespace Options

/-- The span of a configuration fault covers the text between the quotes of the entry at fault: the
first plugin that repeats an earlier one, the first symbol equal to the refused one, and the first
empty start. -/
theorem faults_marked (document : String) (o : Options) :
    (∀ name span, o.fault? document = some (.duplicatePlugin name span) →
      ∀ l : Listing document "plugins", l.values = o.plugins →
        ∃ before e s, span = some s ∧ l.Marks before e s ∧ e.entry = name ∧
          (before.map WrittenEntry.entry).Nodup ∧ name ∈ before.map WrittenEntry.entry) ∧
      (∀ symbol flaw span, o.fault? document = some (.invalidSymbol symbol flaw span) →
        ∀ l : Listing document "define", l.values = o.define →
          ∃ before e s, span = some s ∧ l.Marks before e s ∧ e.entry = symbol ∧
            symbol ∉ before.map WrittenEntry.entry) ∧
      ∀ span, o.fault? document = some (.emptyStart span) →
        ∀ l : Listing document "warn_passthrough", l.values = o.warnPassthrough →
          ∃ before e s, span = some s ∧ l.Marks before e s ∧ e.entry = "" ∧
            "" ∉ before.map WrittenEntry.entry := by
  simp only [fault?_eq_some_iff]
  refine ⟨?_, ?_, ?_⟩
  · intro name span first l listed
    cases first with
    | duplicate split _ distinct _ repeated =>
      obtain ⟨before, e, rfl, entry, s, found, marks⟩ := l.marks_of_values (listed.trans split)
      rw [List.count_eq_one_of_mem distinct repeated] at found
      exact ⟨before, e, s, found, marks, entry, distinct, repeated⟩
  · intro symbol flaw span first l listed
    cases first with
    | symbol _ _ split words flawed =>
      obtain ⟨before, e, rfl, entry, s, found, marks⟩ := l.marks_of_values (listed.trans split)
      have absent : symbol ∉ before.map WrittenEntry.entry :=
        fun member => flawed.not_mem_words (words symbol member)
      rw [List.count_eq_zero.mpr absent] at found
      exact ⟨before, e, s, found, marks, entry, absent⟩
  · intro span first l listed
    cases first with
    | start _ _ _ empty =>
      obtain ⟨starts, after, split, absent⟩ := List.eq_append_cons_of_mem empty
      obtain ⟨before, e, rfl, entry, s, found, marks⟩ := l.marks_of_values (listed.trans split)
      rw [List.count_eq_zero.mpr absent] at found
      exact ⟨before, e, s, found, marks, entry, absent⟩

/-- A list of plugins behind a comment that mentions the key. A name begins with another one, and the
last name repeats the first. -/
def repeatedName : String :=
  "# plugins = [\n[compiler]\nplugins = [\"ä\", \"äb\",\n  \"ä\"]\n"

def repeatedNameListing : Listing repeatedName "plugins" where
  lead := "# plugins = [\n[compiler]\n".toList
  signGap := [' ']
  listGap := [' ']
  entries := [⟨[], "ä"⟩, ⟨", ".toList, "äb"⟩, ⟨",\n  ".toList, "ä"⟩]
  last := []
  rest := ['\n']
  written := by decide +kernel
  signBlank := List.all_iff_forall_prop.mp (by decide)
  listBlank := List.all_iff_forall_prop.mp (by decide)
  plain := by
    have plain {gap : List Char} {entry : String}
        (gapPlain : gap.all (fun c => decide (Text.isBlank c = true ∨ c = ',')) = true)
        (entryPlain :
          entry.toList.all (fun c => decide (c ≠ '"' ∧ c ≠ ',' ∧ c ≠ ']')) = true) :
        WrittenEntry.Plain ⟨gap, entry⟩ :=
      ⟨List.all_iff_forall_prop.mp gapPlain, List.all_iff_forall_prop.mp entryPlain⟩
    simp only [List.forall_mem_cons]
    exact ⟨plain (by decide) (by decide), plain (by decide) (by decide),
      plain (by decide) (by decide), by simp⟩
  commas := by decide
  lastPlain := List.all_iff_forall_prop.mp (by decide)
  lineStart := (Text.onlyBlanks_eq_true_iff _).mp (by decide)
  isFirst := by
    have checked : ∀ n < ("# plugins = [\n[compiler]\n".toList).length,
        Text.onlyBlanks (repeatedName.toList.take n) = true →
          Text.listAfter? "plugins".toList (repeatedName.toList.drop n) = none := by
      decide +kernel
    intro before later split bound start
    rw [← Text.listAfter?_eq_none_iff]
    rw [split] at checked
    simpa using checked before.length bound (by simpa [Text.onlyBlanks_eq_true_iff] using start)

theorem repeatedName_marked :
    ∃ before e, repeatedNameListing.Marks before e ⟨52, 2⟩ ∧ e.entry = "ä" ∧
      "ä" ∈ before.map WrittenEntry.entry := by
  have refused : fault? repeatedName { plugins := ["ä", "äb", "ä"] } =
      some (.duplicatePlugin "ä" (some ⟨52, 2⟩)) := by
    decide +kernel
  obtain ⟨plugins, _⟩ := faults_marked repeatedName { plugins := ["ä", "äb", "ä"] }
  obtain ⟨before, e, s, span, marks, entry, _, repeated⟩ :=
    plugins _ _ refused repeatedNameListing rfl
  cases span
  exact ⟨before, e, marks, entry, repeated⟩

end Options
end CallReplacement
