import CallReplacement.Json.Value
import Mathlib.Data.List.Nodup
import Mathlib.Data.List.Perm.Basic

/-!
The members of an object: what is found under a name, and how often a name stands there.
-/

namespace CallReplacement.Json

def occurrences (name : String) (members : List (String × Json)) : Nat :=
  (members.filter (·.1 = name)).length

theorem noRepeats_iff (names : List String) (members : List (String × Json)) :
    noRepeats names members ↔ ∀ name ∈ names, occurrences name members ≤ 1 := by
  simp [noRepeats, occurrences]

theorem fits_object_iff (names : List String) (closed : Bool) (members : List (String × Json)) :
    (Json.object members).fits names closed ↔
      (∀ name ∈ names, occurrences name members ≤ 1) ∧
        (closed = true → ∀ member ∈ members, member.1 ∈ names) := by
  rw [fits, Bool.and_eq_true, noRepeats_iff]
  cases closed <;> simp

@[simp]
theorem occurrences_nil (name : String) : occurrences name [] = 0 := rfl

theorem occurrences_cons (name key : String) (value : Json) (members : List (String × Json)) :
    occurrences name ((key, value) :: members) =
      occurrences name members + if key = name then 1 else 0 := by
  by_cases same : key = name <;> simp [occurrences, same]

theorem occurrences_append (name : String) (before after : List (String × Json)) :
    occurrences name (before ++ after) = occurrences name before + occurrences name after := by
  simp [occurrences]

theorem occurrences_eq_zero_iff (name : String) (members : List (String × Json)) :
    occurrences name members = 0 ↔ ∀ member ∈ members, member.1 ≠ name := by
  simp [occurrences]

theorem lookup_eq (name : String) (members : List (String × Json)) :
    lookup name members = List.lookup name members := by
  induction members with
  | nil => rfl
  | cons member rest ih =>
      obtain ⟨key, value⟩ := member
      by_cases same : key = name
      · simp [lookup, same]
      · have other : (name == key) = false := by simpa using Ne.symm same
        rw [lookup, if_neg same, ih, List.lookup_cons, other]

theorem lookup_append (name : String) (before after : List (String × Json)) :
    lookup name (before ++ after) = (lookup name before).or (lookup name after) := by
  simp only [lookup_eq, List.lookup_append]

theorem lookup_eq_none_iff (name : String) (members : List (String × Json)) :
    lookup name members = none ↔ ∀ member ∈ members, member.1 ≠ name := by
  rw [lookup_eq, List.lookup_eq_none_iff]
  simp only [bne_iff_ne, ne_comm]

theorem lookup_isSome_iff (name : String) (members : List (String × Json)) :
    (lookup name members).isSome ↔ ∃ member ∈ members, member.1 = name := by
  rw [← Option.ne_none_iff_isSome, ne_eq, lookup_eq_none_iff]
  simp

/-- What stands only once under a name is found there. -/
theorem lookup_eq_some_of_mem {name : String} {value : Json} {members : List (String × Json)}
    (member : (name, value) ∈ members) (once : occurrences name members ≤ 1) :
    lookup name members = some value := by
  induction members with
  | nil => cases member
  | cons first rest ih =>
      obtain ⟨key, other⟩ := first
      rw [occurrences_cons] at once
      by_cases same : key = name
      · rw [if_pos same] at once
        have none : occurrences name rest = 0 := by omega
        rcases List.mem_cons.mp member with found | found
        · cases found
          rw [lookup, if_pos rfl]
        · exact absurd rfl ((occurrences_eq_zero_iff name rest).mp none _ found)
      · rw [lookup, if_neg same]
        rw [if_neg same] at once
        rcases List.mem_cons.mp member with found | found
        · cases found
          exact absurd rfl same
        · exact ih found once

theorem mem_of_lookup {name : String} {value : Json} {members : List (String × Json)}
    (found : lookup name members = some value) : (name, value) ∈ members := by
  rw [lookup_eq, List.lookup_eq_some_iff] at found
  obtain ⟨before, after, rfl, -⟩ := found
  simp

theorem occurrences_eq_count (name : String) (members : List (String × Json)) :
    occurrences name members = (members.map Prod.fst).count name := by
  simp [occurrences, ← List.countP_eq_length_filter, List.count, List.countP_map,
    Function.comp_def, beq_eq_decide]

theorem occurrences_le_one {members : List (String × Json)}
    (distinct : (members.map Prod.fst).Nodup) (name : String) : occurrences name members ≤ 1 := by
  rw [occurrences_eq_count]
  exact List.nodup_iff_count_le_one.mp distinct name

/-! ## Fields by what is found of them -/

section
variable {α : Type} (record : Json) (names : List String) (name : String) (read : Json → Option α)

theorem required_eq_join : (record.required names name fun value _ => read value) =
    ((record.slot? names name).map read).join := by
  rw [required_eq]
  cases record.slot? names name <;> rfl

theorem optional_eq_getD (missing : α) :
    (record.optional names name missing fun value _ => read value) =
      ((record.slot? names name).map read).getD (some missing) := by
  rw [optional_eq]
  cases record.slot? names name <;> rfl

theorem nullable_of_ne {value : Json} (present : value ≠ .null) :
    (value.nullable fun inner _ => read inner) = (read value).map some := by
  cases value <;> first | rfl | contradiction

theorem collect_cons (first : Option α) (rest : List (Option α)) :
    collect (first :: rest) = first.bind fun a => (collect rest).map (a :: ·) := by
  cases first <;> rfl

theorem collect_eq_none {before after : List (Option α)} :
    collect (before ++ none :: after) = none := by
  induction before with
  | nil => rfl
  | cons first before ih =>
      cases first with
      | none => rfl
      | some a => rw [List.cons_append, collect, ih, Option.map_none]

end

/-! ## Objects and arrays with one part changed -/

theorem fits_object_congr {members others : List (String × Json)}
    (keys : (members.map Prod.fst).Perm (others.map Prod.fst)) (names : List String)
    (closed : Bool) : (Json.object members).fits names closed = (Json.object others).fits names closed := by
  have count (name : String) : occurrences name members = occurrences name others := by
    rw [occurrences_eq_count, occurrences_eq_count, keys.count_eq]
  have known : (∀ member ∈ members, member.1 ∈ names) ↔ ∀ member ∈ others, member.1 ∈ names := by
    have spelled (list : List (String × Json)) :
        (∀ member ∈ list, member.1 ∈ names) ↔ ∀ key ∈ list.map Prod.fst, key ∈ names :=
      List.forall_mem_map.symm
    rw [spelled, spelled]
    exact forall_congr' fun key => imp_congr_left keys.mem_iff
  rw [Bool.eq_iff_iff, fits_object_iff, fits_object_iff, known]
  simp only [count]

section
variable {before after : List (String × Json)} {key : String} {value value' : Json}

theorem fits_change (names : List String) (closed : Bool) :
    (Json.object (before ++ (key, value) :: after)).fits names closed =
      (Json.object (before ++ (key, value') :: after)).fits names closed :=
  fits_object_congr (by simp) names closed

theorem lookup_change (name : String) :
    lookup name (before ++ (key, value) :: after) = lookup name (before ++ (key, value') :: after) ∨
      name = key ∧ lookup name (before ++ (key, value) :: after) = some value ∧
        lookup name (before ++ (key, value') :: after) = some value' := by
  simp only [lookup_append, lookup]
  by_cases same : key = name
  · rw [if_pos same, if_pos same]
    cases lookup name before with
    | none => exact .inr ⟨same.symm, rfl, rfl⟩
    | some found => exact .inl rfl
  · rw [if_neg same, if_neg same]
    exact .inl rfl

theorem lookup_insert {name : String} (other : key ≠ name) :
    lookup name (before ++ (key, value) :: after) = lookup name (before ++ after) := by
  rw [lookup_append, lookup, if_neg other, lookup_append]

theorem occurrences_insert {name : String} (other : key ≠ name) :
    occurrences name (before ++ (key, value) :: after) = occurrences name (before ++ after) := by
  rw [occurrences_append, occurrences_cons, if_neg other, Nat.add_zero, occurrences_append]

end

theorem fits_insert {before after : List (String × Json)} {key : String} {value : Json}
    {names : List String} (unknown : key ∉ names) :
    (Json.object (before ++ (key, value) :: after)).fits names false =
      (Json.object (before ++ after)).fits names false := by
  have count (name : String) (isName : name ∈ names) :
      occurrences name (before ++ (key, value) :: after) = occurrences name (before ++ after) := by
    refine occurrences_insert ?_
    rintro rfl
    exact unknown isName
  rw [Bool.eq_iff_iff, fits_object_iff, fits_object_iff]
  refine and_congr (forall₂_congr fun name isName => ?_) (by simp)
  rw [count name isName]

theorem not_fits_insert {before after : List (String × Json)} {key : String} {value : Json}
    {names : List String} (unknown : key ∉ names) :
    (Json.object (before ++ (key, value) :: after)).fits names true = false := by
  rw [← Bool.not_eq_true, fits_object_iff]
  rintro ⟨-, known⟩
  exact unknown (known rfl (key, value) (by simp))

theorem lookup_perm {members others : List (String × Json)} (perm : members.Perm others)
    (distinct : (members.map Prod.fst).Nodup) (name : String) :
    lookup name members = lookup name others := by
  have distinct' : (others.map Prod.fst).Nodup := (perm.map _).nodup_iff.mp distinct
  cases found : lookup name members with
  | none =>
      symm
      rw [lookup_eq_none_iff] at found ⊢
      exact fun member isMember => found member (perm.mem_iff.mpr isMember)
  | some value =>
      have member := perm.mem_iff.mp (mem_of_lookup found)
      rw [lookup_eq_some_of_mem member (occurrences_le_one distinct' name)]

theorem getElem?_change {before after : List Json} {value value' : Json} (i : Nat) :
    (before ++ value :: after)[i]? = (before ++ value' :: after)[i]? ∨
      i = before.length ∧ (before ++ value :: after)[i]? = some value ∧
        (before ++ value' :: after)[i]? = some value' := by
  by_cases at' : i = before.length
  · subst at'
    exact .inr ⟨rfl, by simp, by simp⟩
  · left
    rw [List.getElem?_append, List.getElem?_append]
    split
    · rfl
    · obtain ⟨k, rfl⟩ : ∃ k, i = before.length + (k + 1) := ⟨i - before.length - 1, by omega⟩
      have later : before.length + (k + 1) - before.length = k + 1 := by omega
      rw [later, List.getElem?_cons_succ, List.getElem?_cons_succ]

end CallReplacement.Json
