import CallReplacement.Json.Draft

/-!
Reading a document of a known shape from left to right. Fields are looked at in the order in
which they are written, and the first fault decides: one of the text, or a field that does not
fit. Values of several alternatives are read whole before they are interpreted, and members
that are no fields are passed over.

What is read is a JSON value without the members passed over; interpreting it is then a
function of the value alone.
-/

namespace CallReplacement.Json

inductive Shape
  | text
  | truth
  | char
  | float
  | integer (low high : Int)
  | nothing
  | choice (names : List String)
  | list (item : Shape)
  /-- Fields with their names, their shapes, whether they must be there, and whether they may
  be `null`. -/
  | record (fields : List (String × Shape × Bool × Bool)) (closed : Bool)
  /-- Alternatives that a tag tells apart, read whole. -/
  | tagged (tag : String) (names : List String) (accepts : Json → Bool)
  | adjacent (tag value : String) (shapes : List (String × Shape)) (accepts : Json → Bool)

namespace Shape

def admits (shape : Shape) (value : Json) : Bool :=
  match shape with
  | .text => value.text?.isSome
  | .truth => value.truth?.isSome
  | .char => value.char?.isSome
  | .float => value.float?.isSome
  | .integer low high =>
      match value with
      | .int n => low ≤ n && n ≤ high
      | _ => false
  | .nothing => (value matches .null)
  | .choice names => value.text?.any names.contains
  | _ => false

/-- A scalar that has been read. A name cannot begin like another scalar. -/
def scalar (shape : Shape) (value : Json) : Except ReadFault Json :=
  if shape.admits value then .ok value
  else match shape, value with
    | .choice _, .string _ => .error .misfit
    | .choice _, _ => .error (.malformed 0)
    | _, _ => .error .misfit

def accepted (accepts : Json → Bool) (value : Json) : Except ReadFault Json :=
  if accepts value then .ok value else .error .misfit

/-- The tag of alternatives, where it is read before anything else is known. -/
def readTag (names : List String) (draft : Draft) : Except ReadFault Json :=
  match draft with
  | .value (.string name) => if names.contains name then .ok (.string name) else .error .misfit
  | .array .. | .object .. => .error .misfit
  | draft =>
      match draft.settled with
      | .ok _ => .error .misfit
      | .error fault => .error fault

def readTagged (tag : String) (names : List String) :
    (seen : Bool) → List (Except ReadFault String × Draft) → Option ReadFault →
      Except ReadFault (List (String × Json))
  | seen, [], none => if seen then .ok [] else .error .misfit
  | _, [], some fault => .error fault
  | _, (.error fault, _) :: _, _ => .error fault
  | seen, (.ok key, member) :: rest, tail =>
      if key = tag then
        if seen then .error .misfit
        else do
          let value ← readTag names member
          return (key, value) :: (← readTagged tag names true rest tail)
      else do
        let value ← member.settled
        return (key, value) :: (← readTagged tag names seen rest tail)

def readTaggedItems (names : List String) (items : List (Nat × Draft))
    (tail : Option ReadFault) : Except ReadFault (List Json) :=
  match items with
  | [] => .error (tail.getD .misfit)
  | (_, first) :: rest => do
      let tag ← readTag names first
      return tag :: (← settledItems rest tail)

def behindFields (items : List (Nat × Draft)) (tail : Option ReadFault) : Option ReadFault :=
  match items with
  | [] => tail
  | (place, _) :: _ => some (.malformed (place + 1))

def mayRead (names seen : List String) (closed : Bool) (key : String) : Bool :=
  if names.contains key then !seen.contains key else !closed

def shapeOf? (shapes : List (String × Shape)) (chosen : Option Json) : Option Shape :=
  (chosen.bind Json.choice?).bind fun name => List.lookup name shapes

mutual

/-- The value of a draft of the given shape, or the first fault met on the way. -/
def read (shape : Shape) : Draft → Except ReadFault Json
  | .deep fault _ => .error fault
  | .flawed fault => .error fault
  | .broken fault _ => .error fault
  | .snapped fault _ =>
      match shape with
      | .choice _ => .error (.malformed 0)
      | _ => .error fault
  | .misplaced fault _ => .error fault
  | .value value =>
      match shape with
      | .list _ | .record .. | .tagged .. | .adjacent .. => .error .misfit
      | shape => shape.scalar value
  | .array items tail =>
      match shape with
      | .list item => do return .array (← readList item items tail)
      | .record fields _ => do return .object (← readFields fields items tail)
      | .tagged _ names accepts => do
          accepted accepts (.array (← readTaggedItems names items tail))
      | .adjacent tag value shapes accepts => do
          accepted accepts (.object (← readPair tag value shapes items tail))
      | .choice _ => .error (.malformed 0)
      | _ => .error .misfit
  | .object members tail =>
      match shape with
      | .record fields closed => do
          return .object (← readMembers fields closed [] members tail)
      | .tagged tag names accepts => do
          accepted accepts (.object (← readTagged tag names false members tail))
      | .adjacent tag value shapes accepts => do
          accepted accepts
            (.object (← readAdjacent tag value shapes accepts none none members tail))
      | .choice names => readChoice names members tail
      | _ => .error .misfit

def readList (item : Shape) :
    List (Nat × Draft) → Option ReadFault → Except ReadFault (List Json)
  | [], none => .ok []
  | [], some fault => .error fault
  | (_, draft) :: rest, tail => do
      let value ← read item draft
      return value :: (← readList item rest tail)

def readMembers (fields : List (String × Shape × Bool × Bool)) (closed : Bool) :
    (seen : List String) → List (Except ReadFault String × Draft) → Option ReadFault →
      Except ReadFault (List (String × Json))
  | seen, [], none =>
      if fields.all fun (name, _, needed, _) => !needed || seen.contains name then .ok []
      else .error .misfit
  | _, [], some fault => .error fault
  | _, (.error fault, _) :: _, _ => .error fault
  | seen, (.ok key, member) :: rest, tail =>
      if !mayRead (fields.map Prod.fst) seen closed key then .error .misfit
      else match List.lookup key fields with
        | some (shape, _, nullable) => do
            let value ← if nullable && member matches .value .null then pure .null
              else read shape member
            return (key, value) :: (← readMembers fields closed (key :: seen) rest tail)
        | none =>
            match member.passed with
            | some fault => .error fault
            | none => readMembers fields closed seen rest tail

def readFields (fields : List (String × Shape × Bool × Bool)) :
    List (Nat × Draft) → Option ReadFault → Except ReadFault (List (String × Json))
  | [], none =>
      if fields.all fun (_, _, needed, _) => !needed then .ok [] else .error .misfit
  | [], some fault => .error fault
  | (place, draft) :: rest, tail =>
      match fields with
      | [] => .error (.malformed (place + 1))
      | (name, shape, _, nullable) :: others => do
          let value ← if nullable && draft matches .value .null then pure .null
            else read shape draft
          return (name, value) :: (← readFields others rest tail)

def readChoice (names : List String) :
    List (Except ReadFault String × Draft) → Option ReadFault → Except ReadFault Json
  | [], tail => .error (tail.getD (.malformed 0))
  | (.error _, .misplaced _ found) :: _, _ =>
      match readTag names found with
      | .ok _ => .error .misfit
      | .error fault => .error fault
  | (.error fault, _) :: _, _ => .error fault
  | (.ok key, member) :: rest, tail =>
      if !names.contains key then .error .misfit
      else do
        let value ← read .nothing member
        if !rest.isEmpty then .error (.malformed 0)
        else match tail with
          | some fault => .error fault
          | none => return .object [(key, value)]

/-- The members of a value whose shape depends on its tag. A value that comes before the tag is
read whole, and interpreted as soon as the tag is known. -/
def readAdjacent (tag value : String) (shapes : List (String × Shape)) (accepts : Json → Bool) :
    (chosen content : Option Json) → List (Except ReadFault String × Draft) →
      Option ReadFault → Except ReadFault (List (String × Json))
  | chosen, _, [], none => if chosen.isSome then .ok [] else .error .misfit
  | _, _, [], some fault => .error fault
  | _, _, (.error fault, _) :: _, _ => .error fault
  | chosen, content, (.ok key, member) :: rest, tail =>
      if key = tag then
        if chosen.isSome then .error .misfit
        else do
          let name ← read (.choice (shapes.map Prod.fst)) member
          let fits := match content with
            | some found => accepts (.object [(tag, name), (value, found)])
            | none => true
          if fits then
            return (key, name) ::
              (← readAdjacent tag value shapes accepts (some name) content rest tail)
          else .error .misfit
      else if key = value then
        if content.isSome then .error .misfit
        else do
          let found ← match shapeOf? shapes chosen with
            | some shape => read shape member
            | none => member.settled
          return (key, found) ::
            (← readAdjacent tag value shapes accepts chosen (some found) rest tail)
      else match member.passed with
        | some fault => .error fault
        | none => readAdjacent tag value shapes accepts chosen content rest tail

def readPair (tag value : String) (shapes : List (String × Shape)) :
    List (Nat × Draft) → Option ReadFault → Except ReadFault (List (String × Json))
  | (_, first) :: (_, second) :: rest, tail => do
      let name ← readTag (shapes.map Prod.fst) first
      let content ← match shapeOf? shapes (some name) with
        | some shape => read shape second
        | none => .error .misfit
      match behindFields rest tail with
      | some fault => .error fault
      | none => return [(tag, name), (value, content)]
  | [(_, first)], tail => do
      let _ ← readTag (shapes.map Prod.fst) first
      .error (tail.getD .misfit)
  | [], tail => .error (tail.getD .misfit)

end

def parse (shape : Shape) (text : String) : Except ReadFault Json :=
  let document := Document.ofText text
  match shape.read document.draft with
  | .error fault => .error fault
  | .ok value =>
      match document.behind with
      | some fault => .error fault
      | none => .ok value

end Shape
end CallReplacement.Json
