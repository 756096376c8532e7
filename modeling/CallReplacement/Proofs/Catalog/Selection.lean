import CallReplacement.Catalog
import CallReplacement.Proofs.Options.Accepted
import CallReplacement.Proofs.Source.Repeats
import Mathlib.Data.List.Forall2
import Mathlib.Data.List.Nodup

/-!
The registry that accepted options ask for. It holds the extensions of the catalog that the options
name, in the order of the names. A name that the catalog does not have is refused, the first one
first; that one extension is registered twice cannot happen, as accepted names differ and an
extension goes by the name of its entry.
-/

namespace CallReplacement.Catalog

def Known (name : String) : Prop := ∃ entry ∈ entries, entry.name = name

/-- Whether the extension is the one that the catalog has under the name. -/
def Provides (name : String) (extension : Extension) : Prop :=
  ∃ entry ∈ entries, entry.name = name ∧ extension = entry.extension

theorem find?_eq_none_iff (name : String) : find? name = none ↔ ¬ Known name := by
  simp [find?, Known]

theorem provides_of_find? {name : String} {entry : CatalogEntry} (found : find? name = some entry) :
    Provides name entry.extension := by
  unfold find? at found
  have named := List.find?_some found
  exact ⟨entry, List.mem_of_find?_eq_some found, beq_iff_eq.mp named, rfl⟩

theorem Provides.name {name : String} {extension : Extension} (provides : Provides name extension) :
    extension.name = name := by
  obtain ⟨entry, member, rfl, rfl⟩ := provides
  have all : ∀ entry ∈ entries, entry.extension.name = entry.name := by
    simp [entries, SeededRandom.extension, StripAsserts.extension, Extension.name]
  exact all entry member

theorem extensions_of_known {names : List String} (known : ∀ name ∈ names, Known name) :
    ∃ found, extensions names = .ok found ∧ List.Forall₂ Provides names found := by
  induction names with
  | nil => exact ⟨[], rfl, .nil⟩
  | cons name rest ih =>
      obtain ⟨head, tail⟩ := List.forall_mem_cons.mp known
      obtain ⟨found, listed, provided⟩ := ih tail
      cases entry? : find? name with
      | none => exact absurd head ((find?_eq_none_iff name).mp entry?)
      | some entry =>
          refine ⟨entry.extension :: found, ?_, .cons (provides_of_find? entry?) provided⟩
          simp only [extensions, entry?, listed]

-- Names before the first unknown one are looked up, and those behind it are not.
theorem extensions_of_unknown {before after : List String} {name : String}
    (known : ∀ n ∈ before, Known n) (unknown : ¬ Known name) :
    extensions (before ++ name :: after) =
      .error (.unknownPlugin name (entries.map CatalogEntry.name)) := by
  induction before with
  | nil => simp only [List.nil_append, extensions, (find?_eq_none_iff name).mpr unknown]
  | cons first before ih =>
      obtain ⟨head, tail⟩ := List.forall_mem_cons.mp known
      cases entry? : find? first with
      | none => exact absurd head ((find?_eq_none_iff first).mp entry?)
      | some entry => simp only [List.cons_append, extensions, entry?, ih tail]

theorem map_name_of_provides {names : List String} {found : List Extension}
    (provided : List.Forall₂ Provides names found) : found.map Extension.name = names := by
  induction provided with
  | nil => rfl
  | cons head _ ih => rw [List.map_cons, head.name, ih]

/-- Extensions whose names differ can be registered together. -/
theorem ofList_of_nodup_names {extensions : List Extension}
    (distinct : (extensions.map Extension.name).Nodup) :
    Registry.ofList extensions = .ok ⟨extensions⟩ := by
  have keys : (extensions.map Extension.key).Nodup := by
    apply List.Nodup.of_map Prod.fst
    rwa [List.map_map]
  rw [Registry.ofList, (firstRepeat_eq_none_iff _).mpr keys]

theorem select_of_known {names : List String} (distinct : names.Nodup)
    (known : ∀ name ∈ names, Known name) :
    ∃ registry, select names = .ok registry ∧ List.Forall₂ Provides names registry.extensions := by
  obtain ⟨found, listed, provided⟩ := extensions_of_known known
  rw [← map_name_of_provides provided] at distinct
  refine ⟨⟨found⟩, ?_, provided⟩
  simp only [select, listed, ofList_of_nodup_names distinct]

theorem select_of_unknown {before after : List String} {name : String}
    (known : ∀ n ∈ before, Known n) (unknown : ¬ Known name) :
    select (before ++ name :: after) =
      .error (.unknownPlugin name (entries.map CatalogEntry.name)) := by
  simp only [select, extensions_of_unknown known unknown]

/-- Accepted options never ask for one extension twice: they get the extensions that they name, in
their order, or are told the first name that the catalog does not have. -/
theorem accepted_plugins_select (document : String) (options : Options)
    (accepted : Options.ofText document = .ok options) :
    (∀ name capability, select options.plugins ≠ .error (.duplicateExtension name capability)) ∧
      ((∀ name ∈ options.plugins, Known name) → ∃ registry, select options.plugins = .ok registry ∧
        List.Forall₂ Provides options.plugins registry.extensions ∧
        registry.extensions.map Extension.name = options.plugins) ∧
      ∀ before name after, options.plugins = before ++ name :: after →
        (∀ n ∈ before, Known n) → ¬ Known name →
        select options.plugins = .error (.unknownPlugin name (entries.map CatalogEntry.name)) := by
  have distinct := Options.nodup_plugins_of_ofText accepted
  refine ⟨?_, ?_, ?_⟩
  · intro name capability refused
    rcases forall_or_first Known options.plugins with known | ⟨before, other, after, split, known, unknown⟩
    · obtain ⟨registry, selected, _⟩ := select_of_known distinct known
      rw [selected] at refused
      cases refused
    · rw [split, select_of_unknown known unknown] at refused
      cases refused
  · intro known
    obtain ⟨registry, selected, provided⟩ := select_of_known distinct known
    exact ⟨registry, selected, provided, map_name_of_provides provided⟩
  · intro before name after split known unknown
    rw [split, select_of_unknown known unknown]

theorem both_plugins_select :
    ∃ options registry,
      Options.ofText "[compiler]\nplugins = [\"strip-debug-asserts\", \"seeded-random\"]\n" =
        .ok options ∧
      select options.plugins = .ok registry ∧
      registry.extensions.map Extension.name = ["strip-debug-asserts", "seeded-random"] := by
  have accepted : Options.ofText "[compiler]\nplugins = [\"strip-debug-asserts\", \"seeded-random\"]\n" =
      .ok { plugins := ["strip-debug-asserts", "seeded-random"] } := by
    decide +kernel
  obtain ⟨_, selected, _⟩ := accepted_plugins_select _ _ accepted
  have known : ∀ name ∈ ["strip-debug-asserts", "seeded-random"], Known name := by
    simp [Known, entries, SeededRandom.name, StripAsserts.name]
  obtain ⟨registry, selects, _, names⟩ := selected known
  exact ⟨_, registry, accepted, selects, names⟩

end CallReplacement.Catalog
