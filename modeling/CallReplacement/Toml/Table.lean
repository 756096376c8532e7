/-!
Configuration values. A document is a table that grows statement by statement: a header opens a
table, an assignment adds an entry, and the path of either creates the tables on its way.

A table remembers how it came about, because that decides who may add to it: a header opens a
table once, a path of an assignment adds only to tables that such paths created, and a table
written in braces is finished.
-/

namespace CallReplacement

structure TableOrigin where
  /-- It was only passed through by a path. -/
  passed : Bool
  /-- The path was that of an assignment. -/
  assigned : Bool
  braced : Bool
deriving DecidableEq, Repr

namespace TableOrigin

def header : TableOrigin := ⟨false, false, false⟩

def braces : TableOrigin := ⟨false, false, true⟩

end TableOrigin

inductive Toml
  | text (value : String)
  | truth (value : Bool)
  /-- A number or a date, which no option has for its value. -/
  | other
  | array (items : List Toml)
  | table (origin : TableOrigin) (entries : List (String × Toml))
  | tables (elements : List Toml)
deriving Repr

namespace Toml

def replace (entries : List (String × Toml)) (key : String) (value : Toml) :
    List (String × Toml) :=
  entries.map fun entry => if entry.1 = key then (key, value) else entry

abbrev Change := TableOrigin → List (String × Toml) → Option (List (String × Toml))

/-- Applies a change at the end of a path, and creates the tables on the way. -/
def descend (assigned : Bool) (change : Change) : List String → Change
  | [], origin, entries => change origin entries
  | key :: path, _, entries =>
      match List.lookup key entries with
      | none => do
          let origin := ⟨true, assigned, false⟩
          let inner ← descend assigned change path origin []
          some (entries ++ [(key, .table origin inner)])
      | some (.table origin inner) =>
          if origin.braced || (assigned && !origin.passed) then none
          else do
            let inner ← descend assigned change path origin inner
            some (replace entries key (.table origin inner))
      | some (.tables elements) =>
          match elements.getLast? with
          | some (.table origin inner) => do
              let inner ← descend assigned change path origin inner
              some (replace entries key (.tables (elements.dropLast ++ [.table origin inner])))
          | _ => none
      | some _ => none

def within (change : Change) : List String → Change
  | [], origin, entries => change origin entries
  | key :: path, _, entries =>
      match List.lookup key entries with
      | some (.table origin inner) => do
          let inner ← within change path origin inner
          some (replace entries key (.table origin inner))
      | some (.tables elements) =>
          match elements.getLast? with
          | some (.table origin inner) => do
              let inner ← within change path origin inner
              some (replace entries key (.tables (elements.dropLast ++ [.table origin inner])))
          | _ => none
      | _ => none

/-- Adds an entry under a key that is not there. Paths of assignments do not add to tables that
headers passed through, and the other way round. -/
def addEntry (assigned : Bool) (key : String) (value : Toml) : Change := fun origin entries =>
  if origin.assigned = assigned ∧ (List.lookup key entries).isNone then
    some (entries ++ [(key, value)])
  else none

def assign (path : List String) (value : Toml) : Change := fun origin entries =>
  match path.getLast? with
  | some key =>
      let above := path.dropLast
      descend true (addEntry (!above.isEmpty) key value) above origin entries
  | none => none

def openTable (key : String) : Change := fun _ entries =>
  match List.lookup key entries with
  | none => some (entries ++ [(key, .table .header [])])
  | some (.table origin inner) =>
      if origin.passed && !origin.assigned then some (replace entries key (.table .header inner))
      else none
  | some _ => none

def openElement (key : String) : Change := fun _ entries =>
  match List.lookup key entries with
  | none => some (entries ++ [(key, .tables [.table .header []])])
  | some (.tables elements) =>
      some (replace entries key (.tables (elements ++ [.table .header []])))
  | some _ => none

structure Growing where
  entries : List (String × Toml) := []
  current : List String := []

def Growing.header (g : Growing) (path : List String) (isElement : Bool) : Option Growing :=
  match path.getLast? with
  | some key => do
      let change := if isElement then openElement key else openTable key
      let entries ← descend false change path.dropLast .header g.entries
      some ⟨entries, path⟩
  | none => none

def Growing.entry (g : Growing) (path : List String) (value : Toml) : Option Growing := do
  let entries ← within (assign path value) g.current .header g.entries
  some { g with entries }

end Toml
end CallReplacement
