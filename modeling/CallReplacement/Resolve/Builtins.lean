import CallReplacement.Resolve.Extension

/-!
The table of built-in replacements, by owner and member. It is asked only when every
extension has declined. Owners keep the order of their first entry, and the members of one
owner keep theirs.
-/

namespace CallReplacement

structure Builtin where
  owner : String
  member : String
  replace : Replacer

structure Builtins where
  entries : List Builtin

namespace Builtins

def empty : Builtins := ⟨[]⟩

def find? (t : Builtins) (owner member : String) : Option Replacer :=
  (t.entries.find? fun e => e.owner == owner && e.member == member).map Builtin.replace

def contains (t : Builtins) (owner member : String) : Bool := (t.find? owner member).isSome

/-- Takes the place of the entry for the same member, or stands behind the last entry of the
same owner, or behind all. -/
def register (t : Builtins) (e : Builtin) : Builtins :=
  if t.contains e.owner e.member then
    ⟨t.entries.map fun old => if old.owner == e.owner && old.member == e.member then e else old⟩
  else
    ⟨insertBehind t.entries⟩
where
  insertBehind : List Builtin → List Builtin
    | [] => [e]
    | old :: rest =>
        if old.owner == e.owner && !rest.any (·.owner == e.owner) then old :: e :: rest
        else old :: insertBehind rest

def registerAll (t : Builtins) (es : List Builtin) : Builtins := es.foldl register t

def replace (t : Builtins) : Replacer := fun options site =>
  match t.find? site.owner site.member with
  | some replace => replace options site
  | none => .ok none

/-! Parts of the replacements. -/

def globalMember (object member : String) (type : ValueType) : Expr :=
  .field (.typed type) (.named object .any) member

def globalCall (object member : String) (args : List Expr) (type : ValueType) : Expr :=
  .call (.typed type) .direct (globalMember object member .any) args

def forward (object member : String) (allowed : List Nat) : Replacer := fun _ site =>
  if allowed.contains site.args.length then
    .ok (some (globalCall object member site.args site.returnType))
  else .error site.unsupportedShape

end Builtins
end CallReplacement
