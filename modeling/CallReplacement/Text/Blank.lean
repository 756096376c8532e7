/-!
Blank characters: those with the Unicode property of white space.
-/

namespace CallReplacement.Text

def blanks : List (Nat × Nat) :=
  [(0x09, 0x0D), (0x20, 0x20), (0x85, 0x85), (0xA0, 0xA0), (0x1680, 0x1680), (0x2000, 0x200A),
    (0x2028, 0x2029), (0x202F, 0x202F), (0x205F, 0x205F), (0x3000, 0x3000)]

def isBlank (c : Char) : Bool :=
  blanks.any fun (first, last) => first ≤ c.toNat && c.toNat ≤ last

def unindented (text : List Char) : List Char := text.dropWhile isBlank

-- A text is left alone where it does not begin with a blank.
theorem unindented_of_not_blank {c : Char} (rest : List Char) (h : isBlank c = false) :
    unindented (c :: rest) = c :: rest := by
  simp [unindented, h]

end CallReplacement.Text
