/-!
JSON values, and how records are found in them. A record may be written as an object, its
members in any order, or as an array, its fields in a fixed one; `slot?` finds a field in
either, and `fits` says whether the value can be read as a record at all.

`required` and `optional` hand what they find to a reader together with the fact that it is
smaller than the record, so that readers can be recursive.
-/

namespace CallReplacement

inductive Json
  | null
  | bool (value : Bool)
  /-- A number written as an integer, if it fits 64 bits with or without a sign. -/
  | int (value : Int)
  | float (value : Float)
  | string (value : String)
  | array (items : List Json)
  | object (members : List (String × Json))
deriving Repr, Inhabited

namespace Json

def lookup (name : String) : List (String × Json) → Option Json
  | [] => none
  | (key, value) :: rest => if key = name then some value else lookup name rest

/-- The value of a field: the member of its name, or the item at its place. -/
def slot? (names : List String) (name : String) : Json → Option Json
  | .object members => lookup name members
  | .array items => items[names.idxOf name]?
  | _ => none

def noRepeats (names : List String) (members : List (String × Json)) : Bool :=
  names.all fun name => (members.filter (·.1 = name)).length ≤ 1

/-- Whether a value can be a record of the given fields: no field twice, and no more items than
fields. A closed record has no members beside its fields. -/
def fits (names : List String) (closed : Bool) : Json → Bool
  | .object members => noRepeats names members && (!closed || members.all (names.contains ·.1))
  | .array items => items.length ≤ names.length
  | _ => false

theorem sizeOf_lookup_lt {name : String} {members : List (String × Json)} {value : Json}
    (h : lookup name members = some value) : sizeOf value < sizeOf members := by
  induction members with
  | nil => simp [lookup] at h
  | cons member rest ih =>
      obtain ⟨key, first⟩ := member
      by_cases hk : key = name
      · simp only [lookup, hk, if_true, Option.some.injEq] at h
        subst h
        simp
        omega
      · simp only [lookup, hk, if_false] at h
        have := ih h
        simp
        omega

theorem sizeOf_slot?_lt {names : List String} {name : String} {record value : Json}
    (h : record.slot? names name = some value) : sizeOf value < sizeOf record := by
  cases record with
  | object members =>
      have := sizeOf_lookup_lt h
      simp
      omega
  | array items =>
      have hm : value ∈ items := List.mem_of_getElem? h
      have := List.sizeOf_lt_of_mem hm
      simp
      omega
  | _ => simp [slot?] at h

section
variable {α : Type}

def required (record : Json) (names : List String) (name : String)
    (read : (value : Json) → sizeOf value < sizeOf record → Option α) : Option α :=
  match h : record.slot? names name with
  | some value => read value (sizeOf_slot?_lt h)
  | none => none

def optional (record : Json) (names : List String) (name : String) (missing : α)
    (read : (value : Json) → sizeOf value < sizeOf record → Option α) : Option α :=
  match h : record.slot? names name with
  | some value => read value (sizeOf_slot?_lt h)
  | none => some missing

def collect : List (Option α) → Option (List α)
  | [] => some []
  | none :: _ => none
  | some a :: rest => (collect rest).map (a :: ·)

def items? (value : Json) (read : (item : Json) → sizeOf item < sizeOf value → Option α) :
    Option (List α) :=
  match value, read with
  | .array items, read =>
      collect (items.attach.map fun item => read item.1 (by
        have := List.sizeOf_lt_of_mem item.2
        simp
        omega))
  | _, _ => none

def nullable (value : Json) (read : (inner : Json) → inner = value → Option α) :
    Option (Option α) :=
  match value with
  | .null => some none
  | value => (read value rfl).map some

theorem required_eq (record : Json) (names : List String) (name : String)
    (read : Json → Option α) :
    record.required names name (fun value _ => read value)
      = (record.slot? names name).bind read := by
  unfold required
  split <;> simp_all

theorem optional_eq (record : Json) (names : List String) (name : String) (missing : α)
    (read : Json → Option α) :
    record.optional names name missing (fun value _ => read value)
      = match record.slot? names name with
        | some value => read value
        | none => some missing := by
  unfold optional
  split <;> simp_all

theorem items?_eq (items : List Json) (read : Json → Option α) :
    (Json.array items).items? (fun item _ => read item) = collect (items.map read) := by
  simp [items?]

end

/-! Scalars. -/

def text? : Json → Option String
  | .string value => some value
  | _ => none

def truth? : Json → Option Bool
  | .bool value => some value
  | _ => none

def char? : Json → Option Char
  | .string value =>
      match value.toList with
      | [c] => some c
      | _ => none
  | _ => none

def uint32? : Json → Option UInt32
  | .int value =>
      if 0 ≤ value ∧ value < 0x100000000 then some (UInt32.ofNat value.toNat) else none
  | _ => none

def int64? : Json → Option Int64
  | .int value =>
      if -0x8000000000000000 ≤ value ∧ value < 0x8000000000000000 then some (Int64.ofInt value)
      else none
  | _ => none

def float? : Json → Option Float
  | .int value =>
      some (if value < 0 then -(UInt64.ofNat (-value).toNat).toFloat
        else (UInt64.ofNat value.toNat).toFloat)
  | .float value => some value
  | _ => none

def saysNothing : Json → Bool
  | .null | .object [] => true
  | _ => false

/-- The name of an alternative: a text, or the key of a single member that says nothing. -/
def choice? : Json → Option String
  | .string name => some name
  | .object [(name, value)] => if value.saysNothing then some name else none
  | _ => none

/-- The tag of a record with alternatives: a name, or its place among the names. -/
def tag? (names : List String) : Json → Option String
  | .string name => if names.contains name then some name else none
  | .int place => if 0 ≤ place then names[place.toNat]? else none
  | _ => none

def named? (all : List α) (name : α → String) (value : Json) : Option α :=
  value.choice?.bind fun chosen => all.find? fun a => name a == chosen

end Json
end CallReplacement
