import Mathlib.Data.List.Basic

/-!
Scopes. Binders are numbered in the order in which the text introduces them; a scope says which
binder, if any, a name refers to.
-/

namespace CallReplacement

abbrev Scope := String → Option Nat

namespace Scope

/-- The scope in which every name is free. -/
def empty : Scope := fun _ => none

/-- The scope behind a binder. -/
def bind (s : Scope) (name : String) (binder : Nat) : Scope :=
  fun x => if x = name then some binder else s x

/-- The scope behind several binders, numbered from `next` on. -/
def bindAll (s : Scope) (next : Nat) : List String → Scope
  | [] => s
  | name :: rest => bindAll (s.bind name next) (next + 1) rest

/-- Whether all binders of the scope come before `next`. -/
def Below (s : Scope) (next : Nat) : Prop := ∀ x binder, s x = some binder → binder < next

variable {s t : Scope} {next : Nat}

theorem below_empty (next : Nat) : empty.Below next := by
  intro x binder found
  cases found

theorem Below.mono {later : Nat} (below : s.Below next) (order : next ≤ later) : s.Below later := by
  intro x binder found
  exact Nat.lt_of_lt_of_le (below x binder found) order

theorem Below.bind (below : s.Below next) (name : String) : (s.bind name next).Below (next + 1) := by
  intro x binder found
  rw [Scope.bind] at found
  split at found
  · cases found
    exact Nat.lt_succ_self _
  · exact Nat.lt_succ_of_lt (below x binder found)

theorem Below.bindAll (below : s.Below next) (names : List String) :
    (s.bindAll next names).Below (next + names.length) := by
  induction names generalizing s next with
  | nil => exact below
  | cons name rest ih =>
      have later := ih (below.bind name)
      rw [List.length_cons, Nat.add_comm rest.length, ← Nat.add_assoc]
      exact later

theorem bind_agree (name : String) (binder : Nat) (x : String) :
    s.bind name binder x = t.bind name binder x ↔ x = name ∨ s x = t x := by
  by_cases same : x = name <;> simp [bind, same]

-- Two scopes agree behind the same binders where they agreed before, and on the names bound.
theorem bindAll_agree (names : List String) (x : String) :
    s.bindAll next names x = t.bindAll next names x ↔ x ∈ names ∨ s x = t x := by
  induction names generalizing s t next with
  | nil => simp [bindAll]
  | cons name rest ih =>
      rw [bindAll, bindAll, ih, bind_agree, List.mem_cons]
      constructor
      · rintro (inRest | same | agree)
        · exact .inl (.inr inRest)
        · exact .inl (.inl same)
        · exact .inr agree
      · rintro ((same | inRest) | agree)
        · exact .inr (.inl same)
        · exact .inl inRest
        · exact .inr (.inr agree)

theorem bindAll_append (s : Scope) (next : Nat) (names others : List String) :
    s.bindAll next (names ++ others) = (s.bindAll next names).bindAll (next + names.length) others := by
  induction names generalizing s next with
  | nil => rfl
  | cons name rest ih =>
      rw [List.cons_append, bindAll, ih, bindAll, List.length_cons, Nat.add_comm rest.length,
        ← Nat.add_assoc]

-- A name that is not bound again refers to its last binder, or to what it did before.
theorem bindAll_of_not_mem {names : List String} {x : String} (other : x ∉ names) :
    s.bindAll next names x = s x := by
  induction names generalizing s next with
  | nil => rfl
  | cons name rest ih =>
      rw [List.mem_cons, not_or] at other
      rw [bindAll, ih other.2, bind, if_neg other.1]

theorem bindAll_of_last {names others : List String} {x : String} (last : x ∉ others) :
    s.bindAll next (names ++ x :: others) x = some (next + names.length) := by
  rw [bindAll_append, bindAll, bindAll_of_not_mem last, bind, if_pos rfl]

theorem bindAll_of_mem {names : List String} {x : String} (member : x ∈ names) :
    ∃ binder, s.bindAll next names x = some binder ∧ next ≤ binder := by
  induction names generalizing s next with
  | nil => cases member
  | cons name rest ih =>
      by_cases later : x ∈ rest
      · obtain ⟨binder, found, order⟩ := @ih (s.bind name next) (next + 1) later
        exact ⟨binder, found, by omega⟩
      · have same : x = name := by simpa [later] using member
        refine ⟨next, ?_, Nat.le_refl _⟩
        rw [bindAll, bindAll_of_not_mem later, bind, if_pos same]

/-! ## Scopes inside of others -/

/-- Whether the scope is that behind binders of the names `around`, numbered from `count` on,
inside of the scope `home`. -/
def Within (home : Scope) (count : Nat) (around : List String) (s : Scope) : Prop :=
  ∀ x, (x ∉ around → s x = home x) ∧ (x ∈ around → ∃ binder, s x = some binder ∧ count ≤ binder)

variable {home : Scope} {count : Nat} {around : List String}

theorem within_home (home : Scope) (count : Nat) : Within home count [] home := by
  intro x
  exact ⟨fun _ => rfl, fun member => absurd member List.not_mem_nil⟩

theorem Within.congr {others : List String} (within : Within home count around s)
    (same : ∀ x, x ∈ others ↔ x ∈ around) : Within home count others s := by
  intro x
  rw [same x]
  exact within x

/-- Whatever binds further names with further numbers stays inside. -/
theorem Within.inner {names : List String} (within : Within home count around s)
    (later : count ≤ next) (keeps : ∀ x ∉ names, t x = s x)
    (binds : ∀ x ∈ names, ∃ binder, t x = some binder ∧ next ≤ binder) :
    Within home count (names ++ around) t := by
  intro x
  by_cases own : x ∈ names
  · obtain ⟨binder, found, order⟩ := binds x own
    have bound : x ∈ names ++ around := List.mem_append_left _ own
    exact ⟨fun absent => absurd bound absent, fun _ => ⟨binder, found, Nat.le_trans later order⟩⟩
  · rw [keeps x own, List.mem_append, or_iff_right own]
    exact within x

theorem Within.bindAll (within : Within home count around s) (later : count ≤ next)
    (names : List String) : Within home count (names ++ around) (s.bindAll next names) :=
  within.inner later (fun _ other => bindAll_of_not_mem other) fun _ member => bindAll_of_mem member

end Scope
end CallReplacement
