/-!
Texts cut at a separator and put together again. `segments` gives the text before the first
separator and the texts after each one; `joined` writes texts with a separator between
neighbours. Putting the segments together again gives the text back.
-/

namespace CallReplacement.Text

/-- Cuts a text at every separator: the part before the first one, and the part after each. -/
def segments (separator : Char) : List Char → List Char × List (List Char)
  | [] => ([], [])
  | c :: rest =>
      let cut := segments separator rest
      if c = separator then ([], cut.1 :: cut.2) else (c :: cut.1, cut.2)

/-- The text after the last separator, or the whole text if it has none. -/
def lastSegment (separator : Char) (text : List Char) : List Char :=
  let cut := segments separator text
  cut.2.getLast?.getD cut.1

def joined (separator : String) : List String → String
  | [] => ""
  | [text] => text
  | text :: next :: rest => text ++ separator ++ joined separator (next :: rest)

@[simp]
theorem segments_nil (separator : Char) : segments separator [] = ([], []) := rfl

theorem segments_separator (separator : Char) (rest : List Char) :
    segments separator (separator :: rest) =
      ([], (segments separator rest).1 :: (segments separator rest).2) := by
  simp [segments]

theorem segments_other {separator c : Char} (rest : List Char) (h : c ≠ separator) :
    segments separator (c :: rest) =
      (c :: (segments separator rest).1, (segments separator rest).2) := by
  simp [segments, h]

-- Text without separators lengthens the first segment.
theorem segments_append {separator : Char} {text : List Char} (plain : separator ∉ text)
    (after : List Char) : segments separator (text ++ after) =
      (text ++ (segments separator after).1, (segments separator after).2) := by
  induction text with
  | nil => rfl
  | cons c rest ih =>
      obtain ⟨other, tail⟩ := not_or.mp (fun inside => plain (List.mem_cons.mpr inside))
      rw [List.cons_append, segments_other _ (Ne.symm other), ih tail]
      rfl

-- Nothing is lost: each later segment stands behind one separator.
theorem segments_rejoin (separator : Char) (text : List Char) :
    (segments separator text).1 ++
      (segments separator text).2.flatMap (fun s => separator :: s) = text := by
  induction text with
  | nil => rfl
  | cons c rest ih =>
      by_cases h : c = separator
      · subst h
        rw [segments_separator]
        simpa using ih
      · rw [segments_other rest h]
        simpa using ih

theorem not_mem_segments (separator : Char) (text : List Char) :
    separator ∉ (segments separator text).1 ∧
      ∀ segment ∈ (segments separator text).2, separator ∉ segment := by
  induction text with
  | nil => simp
  | cons c rest ih =>
      by_cases h : c = separator
      · subst h
        rw [segments_separator]
        exact ⟨List.not_mem_nil, List.forall_mem_cons.mpr ih⟩
      · rw [segments_other rest h]
        exact ⟨List.not_mem_cons_of_ne_of_not_mem (Ne.symm h) ih.1, ih.2⟩

theorem lastSegment_spec (separator : Char) (text : List Char) :
    separator ∉ lastSegment separator text ∧
      (text = lastSegment separator text ∨
        ∃ front, text = front ++ separator :: lastSegment separator text) := by
  obtain ⟨first, others⟩ := not_mem_segments separator text
  have rejoined := segments_rejoin separator text
  simp only [lastSegment]
  generalize segments separator text = cut at *
  rcases List.eq_nil_or_concat cut.2 with none | ⟨front, last, found⟩
  · simp only [none, List.flatMap_nil, List.append_nil] at rejoined
    simp only [none, List.getLast?_nil, Option.getD_none]
    exact ⟨first, .inl rejoined.symm⟩
  · rw [List.concat_eq_append] at found
    have last? : cut.2.getLast? = some last := by simp [found]
    rw [last?, Option.getD_some]
    refine ⟨others last (List.mem_of_getLast? last?), .inr ?_⟩
    refine ⟨cut.1 ++ front.flatMap (separator :: ·), ?_⟩
    rw [← rejoined, found]
    simp

@[simp]
theorem joined_nil (separator : String) : joined separator [] = "" := rfl

@[simp]
theorem joined_singleton (separator text : String) : joined separator [text] = text := rfl

end CallReplacement.Text
