import CallReplacement.Catalog.SeededRandom
import CallReplacement.Catalog.StripAsserts

/-!
The extensions that options can enable by name. They are registered in the order in which the
options list them.
-/

namespace CallReplacement

structure CatalogEntry where
  name : String
  capability : Capability
  description : String
  extension : Extension

namespace Catalog

def entries : List CatalogEntry :=
  [⟨SeededRandom.name, .replaceCall, "Route System.Random.Next through a seedable runtime helper",
      SeededRandom.extension⟩,
    ⟨StripAsserts.name, .transformAst,
      "Remove System.Diagnostics.Debug.Assert calls unless debug is set", StripAsserts.extension⟩]

def find? (name : String) : Option CatalogEntry := entries.find? (·.name == name)

def extensions : List String → Except RegistryFault (List Extension)
  | [] => .ok []
  | name :: rest =>
      match find? name with
      | none => .error (.unknownPlugin name (entries.map CatalogEntry.name))
      | some entry =>
          match extensions rest with
          | .ok found => .ok (entry.extension :: found)
          | .error fault => .error fault

def select (names : List String) : Except RegistryFault Registry :=
  match extensions names with
  | .ok found => Registry.ofList found
  | .error fault => .error fault

end Catalog
end CallReplacement
