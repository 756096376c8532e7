import CallReplacement.Json.Lexeme

/-!
A JSON text as far as it can be read. A draft is a value some parts of which are faults: a
place where the text breaks off, a scalar that can only be passed over, or a value that lies
too deep. It is read from left to right, and the first fault met by the reader counts, so that
a reader who refuses a document for another reason need not get there.

`settled` reads a whole draft, and `passed` passes over one.
-/

namespace CallReplacement.Json

inductive Draft
  | value (value : Json)
  /-- A scalar that can be passed over but not read. -/
  | flawed (fault : ReadFault)
  /-- Nothing that begins a value, or a text that does not end as it should, for a reader and
  for one who passes over it. -/
  | broken (fault passing : ReadFault)
  | snapped (fault passing : ReadFault)
  | misplaced (fault : ReadFault) (found : Draft)
  | array (items : List (Nat × Draft)) (tail : Option ReadFault)
  | object (members : List (Except ReadFault String × Draft)) (tail : Option ReadFault)
  | deep (fault : ReadFault) (inner : Draft)

def maxDepth : Nat := 127

structure Drafted where
  draft : Draft
  rest : List (Nat × Lexeme)
  ended : Bool

section
variable (length : Nat)

def missing (fault : ReadFault) : Drafted := ⟨.broken fault fault, [], true⟩

def nestedAt (place depth : Nat) (d : Drafted) : Drafted :=
  if depth < maxDepth then d else { d with draft := .deep (.malformed (place + 1)) d.draft }

mutual

/-- The value that the lexemes begin with. There are no more steps than lexemes. -/
def draftValue (depth : Nat) : (steps : Nat) → List (Nat × Lexeme) → Drafted
  | 0, _ => missing (.unfinished length)
  | _, [] => missing (.unfinished length)
  | steps + 1, (place, lexeme) :: rest =>
      match lexeme with
      | .constant value => ⟨.value value, rest, false⟩
      | .text (.ok value) => ⟨.value (.string value), rest, false⟩
      | .number (.ok value) => ⟨.value value, rest, false⟩
      | .text (.error fault) | .number (.error fault) => ⟨.flawed fault, rest, false⟩
      | .brokenText fault passing => ⟨.broken fault passing, [], true⟩
      | .broken fault passing => ⟨.snapped fault passing, [], true⟩
      | .stray => missing (.malformed (place + 1))
      | .mark c =>
          if c = '[' then
            nestedAt place depth <| match rest with
              | (_, .mark ']') :: rest => ⟨.array [] none, rest, false⟩
              | [] => ⟨.array [] (some (.unfinished length)), [], true⟩
              | _ => draftItems (depth + 1) steps [] rest
          else if c = '\x7b' then
            nestedAt place depth <| match rest with
              | (_, .mark '\x7d') :: rest => ⟨.object [] none, rest, false⟩
              | _ => draftMembers (depth + 1) steps [] rest
          else missing (.malformed (place + 1))

def draftItems (depth : Nat) :
    (steps : Nat) → List (Nat × Draft) → List (Nat × Lexeme) → Drafted
  | 0, before, _ => ⟨.array before.reverse (some (.unfinished length)), [], true⟩
  | steps + 1, before, lexemes =>
      let place := match lexemes with
        | (place, _) :: _ => place
        | [] => length - 1
      let item := draftValue depth steps lexemes
      let items := (place, item.draft) :: before
      if item.ended then ⟨.array items.reverse none, [], true⟩
      else match item.rest with
        | (_, .mark ',') :: rest => draftItems depth steps items rest
        | (_, .mark ']') :: rest => ⟨.array items.reverse none, rest, false⟩
        | (place, _) :: _ => ⟨.array items.reverse (some (.malformed (place + 1))), [], true⟩
        | [] => ⟨.array items.reverse (some (.unfinished length)), [], true⟩

def draftMembers (depth : Nat) :
    (steps : Nat) → List (Except ReadFault String × Draft) → List (Nat × Lexeme) → Drafted
  | 0, before, _ => ⟨.object before.reverse (some (.unfinished length)), [], true⟩
  | _, before, [] =>
      let fault := .unfinished length
      let found := .broken fault fault
      ⟨.object ((.error fault, .misplaced fault found) :: before).reverse none, [], true⟩
  | steps + 1, before, (place, lexeme) :: rest =>
      match lexeme with
      | .text key =>
          match rest with
          | (_, .mark ':') :: rest =>
              let value := draftValue depth steps rest
              let members := (key, value.draft) :: before
              if value.ended then ⟨.object members.reverse none, [], true⟩
              else match value.rest with
                | (_, .mark ',') :: rest => draftMembers depth steps members rest
                | (_, .mark '\x7d') :: rest => ⟨.object members.reverse none, rest, false⟩
                | (place, _) :: _ =>
                    ⟨.object members.reverse (some (.malformed (place + 1))), [], true⟩
                | [] => ⟨.object members.reverse (some (.unfinished length)), [], true⟩
          | (place, _) :: _ =>
              let fault := .malformed (place + 1)
              ⟨.object ((key, .broken fault fault) :: before).reverse none, [], true⟩
          | [] =>
              let fault := .unfinished length
              ⟨.object ((key, .broken fault fault) :: before).reverse none, [], true⟩
      | .brokenText fault passing =>
          ⟨.object ((.error fault, .broken fault passing) :: before).reverse none, [], true⟩
      | _ =>
          let fault := .malformed (place + 1)
          let found := (draftValue depth steps ((place, lexeme) :: rest)).draft
          ⟨.object ((.error fault, .misplaced fault found) :: before).reverse none, [], true⟩

end

end

mutual

def Draft.settled : Draft → Except ReadFault Json
  | .value value => .ok value
  | .flawed fault => .error fault
  | .broken fault _ => .error fault
  | .snapped fault _ => .error fault
  | .misplaced fault _ => .error fault
  | .array items tail =>
      match settledItems items tail with
      | .ok values => .ok (.array values)
      | .error fault => .error fault
  | .object members tail =>
      match settledMembers members tail with
      | .ok values => .ok (.object values)
      | .error fault => .error fault
  | .deep fault _ => .error fault

def settledItems : List (Nat × Draft) → Option ReadFault → Except ReadFault (List Json)
  | [], none => .ok []
  | [], some fault => .error fault
  | (_, item) :: rest, tail =>
      match item.settled with
      | .error fault => .error fault
      | .ok value =>
          match settledItems rest tail with
          | .ok values => .ok (value :: values)
          | .error fault => .error fault

def settledMembers : List (Except ReadFault String × Draft) → Option ReadFault →
    Except ReadFault (List (String × Json))
  | [], none => .ok []
  | [], some fault => .error fault
  | (.error fault, _) :: _, _ => .error fault
  | (.ok key, member) :: rest, tail =>
      match member.settled with
      | .error fault => .error fault
      | .ok value =>
          match settledMembers rest tail with
          | .ok values => .ok ((key, value) :: values)
          | .error fault => .error fault

end

mutual

/-- The fault of one who passes over a draft. -/
def Draft.passed : Draft → Option ReadFault
  | .value _ => none
  | .flawed _ => none
  | .broken _ passing => some passing
  | .snapped _ passing => some passing
  | .misplaced fault _ => some fault
  | .array items tail => passedItems items tail
  | .object members tail => passedMembers members tail
  | .deep _ inner => inner.passed

def passedItems : List (Nat × Draft) → Option ReadFault → Option ReadFault
  | [], tail => tail
  | (_, item) :: rest, tail => item.passed.or (passedItems rest tail)

def passedMembers : List (Except ReadFault String × Draft) → Option ReadFault →
    Option ReadFault
  | [], tail => tail
  | (_, member) :: rest, tail => member.passed.or (passedMembers rest tail)

end

structure Document where
  draft : Draft
  behind : Option ReadFault

def Document.ofText (text : String) : Document :=
  let lexemes := lexemesOf text
  let drafted := draftValue (Text.byteLength text.toList) 0 (2 * lexemes.length + 2) lexemes
  ⟨drafted.draft, drafted.rest.head?.map fun (place, _) => .malformed (place + 1)⟩

end CallReplacement.Json
