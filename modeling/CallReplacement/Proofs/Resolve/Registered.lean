import CallReplacement.Proofs.Source.Repeats
import CallReplacement.Resolve.Extension

/-!
Which extensions can be registered together. A registry is made exactly when no two of them share
name and capability. It then holds them in their order, and the replacers and the transformers that
are taken from it are dealt out of that one list: each extension goes to one of the two, and neither
changes the order. Otherwise the first extension whose name and capability came before is reported.
-/

namespace CallReplacement

namespace Extension

/-- Whether two extensions go by one name for one purpose. -/
def Clashes (e e' : Extension) : Prop := e.name = e'.name ∧ e.capability = e'.capability

def Distinct (extensions : List Extension) : Prop := extensions.Pairwise fun e e' => ¬ e.Clashes e'

def ofReplacer (named : String × Replacer) : Extension := .replaceCall named.1 named.2

def ofTransformer (named : String × Transformer) : Extension := .transformAst named.1 named.2

/-- Whether a list of extensions is dealt out into its replacers and its transformers. -/
inductive Dealt : List (String × Replacer) → List (String × Transformer) → List Extension → Prop
  | nil : Dealt [] [] []
  | replacer {replacers transformers rest} (named : String × Replacer) :
      Dealt replacers transformers rest →
      Dealt (named :: replacers) transformers (ofReplacer named :: rest)
  | transformer {replacers transformers rest} (named : String × Transformer) :
      Dealt replacers transformers rest →
      Dealt replacers (named :: transformers) (ofTransformer named :: rest)

-- The kind of an extension decides whom it goes to, so a list is dealt out in one way only.
theorem dealt_iff {replacers : List (String × Replacer)} {transformers : List (String × Transformer)}
    {extensions : List Extension} :
    Dealt replacers transformers extensions ↔
      replacers = extensions.filterMap replacer? ∧
        transformers = extensions.filterMap transformer? := by
  constructor
  · intro dealt
    induction dealt with
    | nil => exact ⟨rfl, rfl⟩
    | replacer named _ ih =>
        obtain ⟨rfl, rfl⟩ := ih
        exact ⟨rfl, rfl⟩
    | transformer named _ ih =>
        obtain ⟨rfl, rfl⟩ := ih
        exact ⟨rfl, rfl⟩
  · rintro ⟨rfl, rfl⟩
    induction extensions with
    | nil => exact .nil
    | cons e rest ih =>
        cases e with
        | replaceCall name replace => exact .replacer (name, replace) ih
        | transformAst name transform => exact .transformer (name, transform) ih

theorem clashes_iff_key_eq (e e' : Extension) : e.Clashes e' ↔ e.key = e'.key := by
  simp [Clashes, key]

theorem distinct_iff_nodup_keys (extensions : List Extension) :
    Distinct extensions ↔ (extensions.map key).Nodup := by
  simp only [Distinct, List.Nodup, List.pairwise_map, clashes_iff_key_eq, ne_eq]

theorem mem_map_key_iff (e : Extension) (extensions : List Extension) :
    e.key ∈ extensions.map key ↔ ∃ other ∈ extensions, other.Clashes e := by
  simp only [List.mem_map, clashes_iff_key_eq]

end Extension

namespace Registry

open Extension

theorem handlersFor_replaceCall (r : Registry) :
    r.handlersFor .replaceCall = r.callReplacers.map ofReplacer := by
  unfold handlersFor callReplacers
  induction r.extensions with
  | nil => rfl
  | cons e rest ih =>
      cases e with
      | replaceCall name replace => exact congrArg (.replaceCall name replace :: ·) ih
      | transformAst name transform => exact ih

theorem handlersFor_transformAst (r : Registry) :
    r.handlersFor .transformAst = r.astTransformers.map ofTransformer := by
  unfold handlersFor astTransformers
  induction r.extensions with
  | nil => rfl
  | cons e rest ih =>
      cases e with
      | replaceCall name replace => exact ih
      | transformAst name transform => exact congrArg (.transformAst name transform :: ·) ih

theorem ofList_eq_ok_iff (extensions : List Extension) (r : Registry) :
    ofList extensions = .ok r ↔ Distinct extensions ∧ r.extensions = extensions := by
  rw [distinct_iff_nodup_keys, ← firstRepeat_eq_none_iff, ofList]
  obtain ⟨held⟩ := r
  cases firstRepeat (extensions.map key) with
  | none => simp [eq_comm]
  | some => simp

theorem ofList_eq_error_iff (extensions : List Extension) (fault : RegistryFault) :
    ofList extensions = .error fault ↔
      ∃ before e after, extensions = before ++ e :: after ∧ Distinct before ∧
        (∃ other ∈ before, other.Clashes e) ∧ fault = .duplicateExtension e.name e.capability := by
  have repeated := firstRepeat_eq_some_iff (extensions.map key)
  unfold ofList
  constructor
  · intro refused
    split at refused
    · next name capability found =>
      cases refused
      obtain ⟨front, back, split, unseen, known⟩ := (repeated _).mp found
      obtain ⟨before, others, rfl, rfl, tail⟩ := List.map_eq_append_iff.mp split
      obtain ⟨e, after, rfl, same, rfl⟩ := List.map_eq_cons_iff.mp tail
      rw [← same, mem_map_key_iff] at known
      cases same
      exact ⟨before, e, after, rfl, (distinct_iff_nodup_keys before).mpr unseen, known, rfl⟩
    · cases refused
  · rintro ⟨before, e, after, rfl, distinct, known, rfl⟩
    have found := (repeated e.key).mpr ⟨before.map key, after.map key, by simp,
      (distinct_iff_nodup_keys before).mp distinct, (mem_map_key_iff e before).mpr known⟩
    rw [found]
    rfl

/-- Registering a list of extensions succeeds exactly when they are distinct. The registry holds the
list as it is, and its handlers for the two capabilities are the one way to deal the list out; a
refusal names the first extension that repeats an earlier one. -/
theorem extensions_dealt_or_repeat_named (extensions : List Extension) :
    ((∃ r, ofList extensions = .ok r) ↔ Distinct extensions) ∧
      (∀ r, ofList extensions = .ok r →
        r.extensions = extensions ∧
        r.handlersFor .replaceCall = r.callReplacers.map ofReplacer ∧
        r.handlersFor .transformAst = r.astTransformers.map ofTransformer ∧
        ∀ replacers transformers, Dealt replacers transformers extensions ↔
          replacers = r.callReplacers ∧ transformers = r.astTransformers) ∧
      ∀ fault, ofList extensions = .error fault ↔
        ∃ before e after, extensions = before ++ e :: after ∧ Distinct before ∧
          (∃ other ∈ before, other.Clashes e) ∧
          fault = .duplicateExtension e.name e.capability := by
  refine ⟨?_, ?_, ofList_eq_error_iff extensions⟩
  · simp only [ofList_eq_ok_iff]
    exact ⟨fun ⟨_, distinct, _⟩ => distinct, fun distinct => ⟨⟨extensions⟩, distinct, rfl⟩⟩
  · intro r registered
    obtain ⟨_, rfl⟩ := (ofList_eq_ok_iff extensions r).mp registered
    exact ⟨rfl, handlersFor_replaceCall r, handlersFor_transformAst r, fun _ _ => dealt_iff⟩

end Registry
end CallReplacement
