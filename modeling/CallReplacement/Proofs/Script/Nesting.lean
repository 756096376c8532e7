import CallReplacement.Proofs.Script.Indentation

/-!
Nested blocks of lines. A block leaves the depth as it was, whatever is nested in it, so what it
records depends on the depth before it only: it records the same lines as at the left edge, each
behind the margin of that depth.
-/

namespace CallReplacement.Lines

/-- A step of writing lines; the steps of a nested block are written one level deeper. -/
inductive Step
  | line (text : String)
  | blank
  | nested (block : List Step)

mutual

def write : Step → Lines → Lines
  | .line text, l => l.line text
  | .blank, l => l.blank
  | .nested block, l => l.nested (writeAll block)

def writeAll : List Step → Lines → Lines
  | [], l => l
  | step :: rest, l => writeAll rest (write step l)

end

/-- A line with the units of a depth in front, if there is something on it. -/
def behindMargin (indent : Indent) (depth : Nat) (line : String) : String :=
  if line = "" then "" else indent.text depth ++ line

/-! ## One text -/

theorem toList_joined_break (first : List Char) (others : List (List Char)) :
    (Text.joined "\n" ((first :: others).map String.ofList)).toList =
      first ++ others.flatMap fun line => '\n' :: line := by
  induction others generalizing first with
  | nil => simp
  | cons next rest ih =>
      rw [List.map_cons, List.map_cons, Text.joined, ← List.map_cons, String.toList_append, ih]
      simp

/-- At the left edge the lines of a text are recorded. -/
theorem line_records_lines (indent : Indent) (text : String) :
    ∃ lines, (write (.line text) ⟨indent, 0, []⟩).recorded = lines ∧ lines ≠ [] ∧
      Text.joined "\n" lines = text ∧ ∀ line ∈ lines, '\n' ∉ line.toList := by
  refine ⟨_, recorded_line_flat rfl text, List.cons_ne_nil _ _, ?_, ?_⟩
  · rw [List.nil_append, ← String.toList_inj, toList_joined_break, Text.segments_rejoin]
  · obtain ⟨first, others⟩ := Text.not_mem_segments '\n' text.toList
    simpa using ⟨first, others⟩

/-! ## The depth -/

mutual

theorem depth_write (step : Step) (l : Lines) : (write step l).depth = l.depth := by
  cases step with
  | line text => rfl
  | blank => rfl
  | nested block =>
      have inner : (writeAll block l.enter).depth = l.depth + 1 := depth_writeAll block l.enter
      change (writeAll block l.enter).depth - 1 = l.depth
      rw [inner, Nat.add_sub_cancel]

theorem depth_writeAll (block : List Step) (l : Lines) : (writeAll block l).depth = l.depth := by
  cases block with
  | nil => rfl
  | cons step rest => rw [writeAll, depth_writeAll rest, depth_write step]

end

mutual

theorem indent_write (step : Step) (l : Lines) : (write step l).indent = l.indent := by
  cases step with
  | line text => rfl
  | blank => rfl
  | nested block => exact indent_writeAll block l.enter

theorem indent_writeAll (block : List Step) (l : Lines) :
    (writeAll block l).indent = l.indent := by
  cases block with
  | nil => rfl
  | cons step rest => rw [writeAll, indent_writeAll rest, indent_write step]

end

/-! ## The lines -/

theorem behindMargin_indented (indent : Indent) (deeper depth : Nat) (line : List Char) :
    behindMargin indent deeper (indented indent depth line) =
      indented indent (deeper + depth) line := by
  cases line with
  | nil => rfl
  | cons c rest =>
      have shown : indent.text depth ++ String.ofList (c :: rest) ≠ "" := by
        intro empty
        have chars := congrArg String.toList empty
        simp at chars
      simp only [behindMargin, indented, List.isEmpty_cons, Bool.false_eq_true, if_false, shown]
      rw [← String.toList_inj]
      simp [Indent.toList_text_add]

/-- Whether the same is written in two places: on the second lines it stands deeper, and behind
lines that were there before. -/
structure Deeper (before : List String) (deeper : Nat) (l l' : Lines) : Prop where
  indent : l'.indent = l.indent
  depth : l'.depth = deeper + l.depth
  recorded : l'.recorded = before ++ l.recorded.map (behindMargin l.indent deeper)

namespace Deeper

variable {before : List String} {deeper : Nat} {l l' : Lines}

theorem line (same : Deeper before deeper l l') (text : String) :
    Deeper before deeper (l.line text) (l'.line text) where
  indent := same.indent
  depth := same.depth
  recorded := by
    simp only [Lines.line, same.recorded, same.indent, same.depth, List.map_append, List.map_map,
      List.append_assoc]
    congr 2
    exact List.map_congr_left fun cut _ => (behindMargin_indented l.indent deeper l.depth cut).symm

theorem blank (same : Deeper before deeper l l') : Deeper before deeper l.blank l'.blank where
  indent := same.indent
  depth := same.depth
  recorded := by simp [Lines.blank, same.recorded, behindMargin]

theorem enter (same : Deeper before deeper l l') : Deeper before deeper l.enter l'.enter where
  indent := same.indent
  depth := by simp [Lines.enter, same.depth, Nat.add_assoc]
  recorded := same.recorded

theorem leave (same : Deeper before deeper l l') (entered : 0 < l.depth) :
    Deeper before deeper l.leave l'.leave where
  indent := same.indent
  depth := by
    simp only [Lines.leave, same.depth]
    omega
  recorded := same.recorded

end Deeper

mutual

theorem write_deeper {before : List String} {deeper : Nat} (step : Step) {l l' : Lines}
    (same : Deeper before deeper l l') :
    Deeper before deeper (write step l) (write step l') := by
  cases step with
  | line text => exact same.line text
  | blank => exact same.blank
  | nested block =>
      refine (writeAll_deeper block same.enter).leave ?_
      rw [depth_writeAll block]
      exact Nat.succ_pos l.depth

theorem writeAll_deeper {before : List String} {deeper : Nat} (block : List Step) {l l' : Lines}
    (same : Deeper before deeper l l') :
    Deeper before deeper (writeAll block l) (writeAll block l') := by
  cases block with
  | nil => exact same
  | cons step rest => exact writeAll_deeper rest (write_deeper step same)

end

/-! ## The text -/

theorem segments_lines {lines : List (List Char)} (noBreak : ∀ line ∈ lines, '\n' ∉ line) :
    let cut := Text.segments '\n' (lines.flatMap (· ++ ['\n']))
    cut.1 :: cut.2 = lines ++ [[]] := by
  induction lines with
  | nil => rfl
  | cons line rest ih =>
      obtain ⟨own, others⟩ := List.forall_mem_cons.mp noBreak
      rw [List.flatMap_cons, List.append_assoc, Text.segments_append own, List.singleton_append,
        Text.segments_separator, List.append_nil]
      exact congrArg (line :: ·) (ih others)

/-- Whether each recorded line is a single one. -/
def Flat (l : Lines) : Prop := ∀ line ∈ l.recorded, '\n' ∉ line.toList

theorem break_not_mem_indented (indent : Indent) (depth : Nat) {line : List Char}
    (noBreak : '\n' ∉ line) : '\n' ∉ (indented indent depth line).toList := by
  unfold indented
  split
  · simp
  · simpa using ⟨indent.break_not_mem_text depth, noBreak⟩

theorem Flat.line {l : Lines} (flat : l.Flat) (text : String) : (l.line text).Flat := by
  obtain ⟨first, others⟩ := Text.not_mem_segments '\n' text.toList
  have single : ∀ cut ∈ (Text.segments '\n' text.toList).1 :: (Text.segments '\n' text.toList).2,
      '\n' ∉ cut := List.forall_mem_cons.mpr ⟨first, others⟩
  intro line member
  rcases List.mem_append.mp member with old | new
  · exact flat line old
  · obtain ⟨cut, inText, rfl⟩ := List.mem_map.mp new
    exact break_not_mem_indented l.indent l.depth (single cut inText)

theorem Flat.blank {l : Lines} (flat : l.Flat) : l.blank.Flat := by
  intro line member
  rcases List.mem_append.mp member with old | new
  · exact flat line old
  · rw [List.mem_singleton.mp new]
    simp

mutual

theorem flat_write (step : Step) {l : Lines} (flat : l.Flat) : (write step l).Flat := by
  cases step with
  | line text => exact flat.line text
  | blank => exact flat.blank
  | nested block => exact flat_writeAll block flat

theorem flat_writeAll (block : List Step) {l : Lines} (flat : l.Flat) :
    (writeAll block l).Flat := by
  cases block with
  | nil => exact flat
  | cons step rest => exact flat_writeAll rest (flat_write step flat)

end

/-- However deep its blocks are nested, a row of steps leaves the depth as it was. Behind the lines
that were there it records those that it records at the left edge, each with the margin of the
depth in front if it is not empty. The text is the recorded lines, each ended by a line break, and
cut at its line breaks it gives the lines that were written. At the left edge the lines of a text
are recorded: without a line break in them, they are the text when they are written with line breaks
between them. -/
theorem steps_nest (steps : List Step) (l : Lines) :
    (l.nested (writeAll steps)).depth = l.depth ∧ (writeAll steps l).depth = l.depth ∧
      (writeAll steps l).recorded = l.recorded ++
        (writeAll steps ⟨l.indent, 0, []⟩).recorded.map (behindMargin l.indent l.depth) ∧
      (writeAll steps l).text.toList =
        (writeAll steps l).recorded.flatMap (fun line => line.toList ++ ['\n']) ∧
      (let written := writeAll steps ⟨l.indent, l.depth, []⟩
        let cut := Text.segments '\n' written.text.toList
        cut.1 :: cut.2 = written.recorded.map String.toList ++ [[]]) ∧
      ∀ text, ∃ lines, (write (.line text) ⟨l.indent, 0, []⟩).recorded = lines ∧ lines ≠ [] ∧
        Text.joined "\n" lines = text ∧ ∀ line ∈ lines, '\n' ∉ line.toList := by
  have start : Deeper l.recorded l.depth ⟨l.indent, 0, []⟩ l := ⟨rfl, rfl, by simp⟩
  have empty : Flat ⟨l.indent, l.depth, []⟩ := fun _ member => nomatch member
  refine ⟨depth_write (.nested steps) l, depth_writeAll steps l, ?_, toList_text _, ?_,
    line_records_lines l.indent⟩
  · have same := (writeAll_deeper steps start).recorded
    rwa [indent_writeAll] at same
  · have flat := flat_writeAll steps empty
    have cut := segments_lines (List.forall_mem_map.mpr flat)
    rwa [List.flatMap_map, ← toList_text] at cut

/-- A block in a block, with an empty line in a text and another one that is written as such. -/
def nestedSteps : List Step :=
  [.line "a \x7b\n", .nested [.line "b\n\nc", .nested [.blank, .line "d"]], .line "\x7d"]

theorem nestedSteps_nest :
    (writeAll nestedSteps ⟨.tab, 1, []⟩).recorded =
        ["a \x7b", "", "\tb", "", "\tc", "", "\t\td", "\x7d"].map (behindMargin .tab 1) ∧
      (writeAll nestedSteps ⟨.tab, 1, []⟩).text =
        "\ta \x7b\n\n\t\tb\n\n\t\tc\n\n\t\t\td\n\t\x7d\n" := by
  obtain ⟨_, _, recorded, _⟩ := steps_nest nestedSteps ⟨.tab, 1, []⟩
  refine ⟨recorded.trans ?_, by decide +kernel⟩
  decide +kernel

end CallReplacement.Lines
