import CallReplacement.Options.Check
import Mathlib.Data.List.Basic

/-!
What is known of options once their document is accepted: no fault was found in them, so the names
of their plugins are not blank, and they all differ.
-/

namespace CallReplacement.Options

theorem pluginFault?_eq_none_iff (document : String) (before names : List String) :
    pluginFault? document before names = none ↔
      (∀ name ∈ names, name.toList.all Text.isBlank = false) ∧ names.Nodup ∧
        ∀ name ∈ names, name ∉ before := by
  induction names generalizing before with
  | nil => simp [pluginFault?]
  | cons name rest ih =>
      unfold pluginFault?
      rw [List.forall_mem_cons, List.nodup_cons, List.forall_mem_cons]
      cases blank : name.toList.all Text.isBlank with
      | true => simp
      | false =>
        by_cases known : name ∈ before
        · simp [known]
        · have fresh : ¬ before.contains name = true := by simpa using known
          rw [if_neg Bool.false_ne_true, if_neg fresh, ih]
          simp only [List.mem_append, List.mem_singleton, not_or]
          constructor
          · rintro ⟨named, distinct, unseen⟩
            have absent : name ∉ rest := fun member => (unseen name member).2 rfl
            exact ⟨⟨trivial, named⟩, ⟨absent, distinct⟩, known, fun n member => (unseen n member).1⟩
          · rintro ⟨⟨_, named⟩, ⟨absent, distinct⟩, _, unseen⟩
            refine ⟨named, distinct, fun n member => ⟨unseen n member, ?_⟩⟩
            rintro rfl
            exact absent member

theorem fault?_of_ofText {document : String} {options : Options}
    (accepted : ofText document = .ok options) : options.fault? document = none := by
  unfold ofText at accepted
  split at accepted
  · cases accepted
  · split at accepted
    · cases accepted
    · split at accepted
      · cases accepted
      · next sound =>
        cases accepted
        exact sound

theorem nodup_plugins_of_ofText {document : String} {options : Options}
    (accepted : ofText document = .ok options) : options.plugins.Nodup := by
  have sound := fault?_of_ofText accepted
  rw [fault?, Option.or_eq_none_iff] at sound
  exact ((pluginFault?_eq_none_iff document [] options.plugins).mp sound.1).2.1

end CallReplacement.Options
