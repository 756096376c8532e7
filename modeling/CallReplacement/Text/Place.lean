/-!
Places in a text, counted in bytes. A reader that has consumed some bytes names its place by a
line, counted from one, and by the number of bytes since the last line feed; `offset?` turns
such a pair into the offset of the last byte consumed.
-/

namespace CallReplacement.Text

def byteLength : List Char → Nat
  | [] => 0
  | c :: rest => c.utf8Size + byteLength rest

@[simp]
theorem byteLength_nil : byteLength [] = 0 := rfl

@[simp]
theorem byteLength_cons (c : Char) (rest : List Char) :
    byteLength (c :: rest) = c.utf8Size + byteLength rest := rfl

@[simp]
theorem byteLength_append (before rest : List Char) :
    byteLength (before ++ rest) = byteLength before + byteLength rest := by
  induction before with
  | nil => simp
  | cons c before ih => simp [ih, Nat.add_assoc]

def bytes (text : String) : List UInt8 := text.toUTF8.toList

def lineFeed : UInt8 := 10

def place (text : List UInt8) (count : Nat) : UInt64 × UInt64 :=
  (text.take count).foldl
    (fun at_ b => if b = lineFeed then (at_.1 + 1, 0) else (at_.1, at_.2 + 1)) (1, 0)

def linesLength : Nat → List UInt8 → Nat
  | 0, _ => 0
  | _, [] => 0
  | count + 1, b :: rest =>
      1 + if b = lineFeed then linesLength count rest else linesLength (count + 1) rest

/-- The offset of the byte at a line and a column, both counted from one; it never lies behind
the text. There is no line zero. Offsets are words, and a sum that is too large for one wraps. -/
def offset? (text : List UInt8) (line column : UInt64) : Option Nat :=
  if line = 0 then none
  else
    let start := UInt64.ofNat (linesLength (line.toNat - 1) text)
    some (min (start + UInt64.ofNat (column.toNat - 1)).toNat text.length)

/-- The offset of the last byte of those consumed, or of the next one behind a line feed. -/
def offsetAfter (text : List UInt8) (count : Nat) : Option Nat :=
  offset? text (place text count).1 (place text count).2

end CallReplacement.Text
