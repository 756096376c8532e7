/-!
Double-quoted text. A quote, a backslash and the control characters below the blank are
escaped, five of them by a letter and the others by four hexadecimal digits; every other
character stands for itself.
-/

namespace CallReplacement.Text

def hexDigit (n : Nat) : Char :=
  if n < 10 then Char.ofNat (48 + n) else Char.ofNat (87 + n)

def escaped (c : Char) : List Char :=
  if c = '"' then ['\\', '"']
  else if c = '\\' then ['\\', '\\']
  else if c = '\n' then ['\\', 'n']
  else if c = '\r' then ['\\', 'r']
  else if c = '\t' then ['\\', 't']
  else if c = '\x08' then ['\\', 'b']
  else if c = '\x0c' then ['\\', 'f']
  else if c.toNat < 32 then
    ['\\', 'u', '0', '0', hexDigit (c.toNat / 16), hexDigit (c.toNat % 16)]
  else [c]

def quoted (text : String) : String :=
  String.ofList ('"' :: text.toList.flatMap escaped ++ ['"'])

def escapeChars : List Char :=
  ['"', '\\', 'n', 'r', 't', 'b', 'f', 'u', '0', '1', '2', '3', '4', '5', '6', '7', '8', '9', 'a',
    'b', 'c', 'd', 'e', 'f']

theorem hexDigit_mem_escapeChars : ∀ n < 16, hexDigit n ∈ escapeChars := by decide

-- A character stands for itself, or it is written with these.
theorem escaped_cases (c : Char) : escaped c = [c] ∨ ∀ d ∈ escaped c, d ∈ escapeChars := by
  unfold escaped
  iterate 7
    split
    · exact .inr (by simp [escapeChars])
  split
  · next control =>
    have fixed : ∀ d ∈ ['\\', 'u', '0', '0'], d ∈ escapeChars := by simp [escapeChars]
    have high := hexDigit_mem_escapeChars (c.toNat / 16) (by omega)
    have low := hexDigit_mem_escapeChars (c.toNat % 16) (by omega)
    have all : ∀ d ∈ ['\\', 'u', '0', '0'] ++
        [hexDigit (c.toNat / 16), hexDigit (c.toNat % 16)], d ∈ escapeChars :=
      List.forall_mem_append.mpr
        ⟨fixed, List.forall_mem_cons.mpr ⟨high, List.forall_mem_singleton.mpr low⟩⟩
    exact .inr all
  · exact .inl rfl

/-- A character that no escape is written with stands in the quoted text only if it stands for
itself there. -/
theorem not_mem_quoted {text : String} {c : Char} (other : c ∉ escapeChars)
    (escapes : c ∈ text.toList → escaped c ≠ [c]) : c ∉ (quoted text).toList := by
  have quote : '"' ∈ escapeChars := List.mem_cons_self
  intro inside
  simp only [quoted, String.toList_ofList, List.cons_append, List.mem_cons, List.mem_append,
    List.mem_flatMap, List.not_mem_nil, or_false] at inside
  rcases inside with rfl | ⟨d, member, inEscape⟩ | rfl
  · exact other quote
  · rcases escaped_cases d with itself | known
    · rw [itself, List.mem_singleton] at inEscape
      subst inEscape
      exact escapes member itself
    · exact other (known c inEscape)
  · exact other quote

end CallReplacement.Text
