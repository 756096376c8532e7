import CallReplacement.Toml.Quoted
import CallReplacement.Toml.Statement

/-!
Reading a configuration document. Its structure is looked at first, as a whole; then its
statements take effect one after another. What is wrong has a place in the text, but for a path
that is too long.
-/

namespace CallReplacement.Toml

inductive Fault
  | illFormed
  | longPath
deriving DecidableEq, Repr

namespace Fault

def isLocated : Fault → Bool
  | .illFormed => true
  | .longPath => false

def orIllFormed : Option α → Except Fault α
  | some a => .ok a
  | none => .error .illFormed

end Fault

def isBareKey (c : Char) : Bool := c.isAlphanum || c == '_' || c == '-'

def Key.name? : Key → Option String
  | .bare cs => if cs.all isBareKey then some (String.ofList cs) else none
  | .quoted body => if body.isLong then none else body.value?

def maxPath : Nat := 80

def names (path : List Key) : Except Fault (List String) := do
  let names ← Fault.orIllFormed (path.mapM Key.name?)
  if names.length ≤ maxPath then .ok names else .error .longPath

mutual

def value : Written → Except Fault Toml
  | .quoted body => Fault.orIllFormed (body.value?.map .text)
  | .scalar cs => Fault.orIllFormed (scalar? cs)
  | .array items => do .ok (.array (← values items))
  | .braces assignments => do .ok (.table .braces (← assigned [] assignments))

def values : List Written → Except Fault (List Toml)
  | [] => .ok []
  | item :: rest => do
      let first ← value item
      .ok (first :: (← values rest))

/-- The entries of a table in braces, of which some are there already. -/
def assigned (entries : List (String × Toml)) :
    List (List Key × Written) → Except Fault (List (String × Toml))
  | [] => .ok entries
  | (path, written) :: rest => do
      let path ← names path
      let found ← value written
      assigned (← Fault.orIllFormed (assign path found .header entries)) rest

end

def step (g : Growing) : Statement → Except Fault Growing
  | .header path isElement => do
      let path ← names path
      Fault.orIllFormed (g.header path isElement)
  | .assignment path written => do
      let path ← names path
      let found ← value written
      Fault.orIllFormed (g.entry path found)

def parse (document : String) : Except Fault (List (String × Toml)) := do
  let all ← Fault.orIllFormed (statements? document)
  .ok (← all.foldlM step {}).entries

end CallReplacement.Toml
