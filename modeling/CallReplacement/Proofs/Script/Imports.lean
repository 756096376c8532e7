import CallReplacement.Script.Imports
import Mathlib.Data.Finset.Card

/-!
The names of imported values. Candidates differ from each other, so among one more candidate
than taken names there is a free one; a bound value therefore never has the name of another
or a reserved one. What the import statements bind, statement by statement, are the collected
bindings, each once.
-/

namespace CallReplacement

theorem toString_injective : Function.Injective (toString : Nat → String) := by
  intro m n same
  have digits := congrArg String.toList same
  rw [Nat.toString_eq_ofList_toDigits, Nat.toString_eq_ofList_toDigits,
    String.toList_ofList, String.toList_ofList] at digits
  have values := congrArg (Nat.ofDigitChars 10 · 0) digits
  simpa only [Nat.ofDigitChars_ten_toDigits] using values

theorem nodup_eraseDups {α : Type} [BEq α] [LawfulBEq α] (xs : List α) : xs.eraseDups.Nodup := by
  cases xs with
  | nil => simp
  | cons x rest =>
      rw [List.eraseDups_cons, List.nodup_cons]
      have removed : x ∉ (rest.filter fun y => !y == x).eraseDups := by simp
      exact ⟨removed, nodup_eraseDups _⟩
termination_by xs.length
decreasing_by exact Nat.lt_succ_of_le (List.length_filter_le _ rest)

namespace Imports

theorem candidate_injective (selector : String) : Function.Injective (candidate selector) := by
  have longer (n : Nat) : selector.length < (candidate selector (n + 1)).length := by
    simp only [candidate, String.length_append]
    have mark : "_".length = 1 := rfl
    omega
  intro m n same
  match m, n with
  | 0, 0 => rfl
  | 0, n + 1 => exact absurd (congrArg String.length same) (Nat.ne_of_lt (longer n))
  | m + 1, 0 => exact absurd (congrArg String.length same) (Nat.ne_of_gt (longer m))
  | m + 1, n + 1 =>
      simp only [candidate] at same
      exact toString_injective (String.append_right_inj _ |>.mp same)

-- Candidates differ from each other, so each that is taken is a taken name of its own.
theorem le_card_of_taken {taken : List String} {selector : String} {n : Nat}
    (clashes : ∀ m < n, candidate selector m ∈ taken) : n ≤ taken.toFinset.card := by
  have inside : (Finset.range n).image (candidate selector) ⊆ taken.toFinset := by
    intro name member
    obtain ⟨m, below, rfl⟩ := Finset.mem_image.mp member
    exact List.mem_toFinset.mpr (clashes m (Finset.mem_range.mp below))
  calc n = ((Finset.range n).image (candidate selector)).card := by
        rw [Finset.card_image_of_injective _ (candidate_injective selector), Finset.card_range]
    _ ≤ taken.toFinset.card := Finset.card_le_card inside

theorem exists_free_candidate (taken : List String) (selector : String) :
    ∃ n ≤ taken.length, candidate selector n ∉ taken := by
  by_contra allTaken
  push Not at allTaken
  have tooMany : taken.length + 1 ≤ taken.toFinset.card :=
    le_card_of_taken fun m below => allTaken m (Nat.le_of_lt_succ below)
  exact Nat.not_succ_le_self _ (tooMany.trans taken.toFinset_card_le)

/-- A free name is the first candidate that is not taken, and found in time. -/
theorem freeName_eq_candidate (taken : List String) (selector : String) :
    ∃ n ≤ taken.length, freeName taken selector = candidate selector n ∧
      candidate selector n ∉ taken ∧ ∀ m < n, candidate selector m ∈ taken := by
  unfold freeName
  rw [List.find?_map]
  cases found : (List.range (taken.length + 1)).find?
      ((fun name => !taken.contains name) ∘ candidate selector) with
  | some n =>
      obtain ⟨free, tried, earlier⟩ := List.find?_range_eq_some.mp found
      have bounded : n ≤ taken.length := Nat.le_of_lt_succ (List.mem_range.mp tried)
      exact ⟨n, bounded, rfl, by simpa using free, by simpa using earlier⟩
  | none =>
      obtain ⟨n, bounded, free⟩ := exists_free_candidate taken selector
      rw [List.find?_eq_none] at found
      have taken := found n (List.mem_range.mpr (Nat.lt_succ_of_le bounded))
      simp [free] at taken

theorem freeName_not_mem (taken : List String) (selector : String) :
    freeName taken selector ∉ taken := by
  obtain ⟨n, _, named, free, _⟩ := freeName_eq_candidate taken selector
  rwa [named]

/-- No value is bound twice, no name is given twice, and none that is reserved. -/
structure Valid (i : Imports) : Prop where
  sources : (i.bindings.map ImportBinding.source).Nodup
  names : (i.bindings.map ImportBinding.name).Nodup
  unreserved : ∀ b ∈ i.bindings, b.name ∉ i.reserved

theorem valid_reserve (names : List String) : (({} : Imports).reserve names).Valid :=
  ⟨List.nodup_nil, List.nodup_nil, fun _ member => absurd member List.not_mem_nil⟩

theorem find?_eq_none_iff (i : Imports) (source : ImportRef) :
    i.find? source = none ↔ source ∉ i.bindings.map ImportBinding.source := by
  simp [find?]

theorem find?_eq_some (i : Imports) (distinct : (i.bindings.map ImportBinding.source).Nodup)
    (b : ImportBinding) (member : b ∈ i.bindings) : i.find? b.source = some b.name := by
  unfold find?
  revert member distinct
  generalize i.bindings = bindings
  intro distinct member
  induction bindings with
  | nil => cases member
  | cons c rest ih =>
      rw [List.map_cons, List.nodup_cons] at distinct
      rcases List.mem_cons.mp member with rfl | inRest
      · simp
      · have other : c.source ≠ b.source := by
          intro same
          exact distinct.1 (same ▸ List.mem_map_of_mem inRest)
        simpa [other] using ih distinct.2 inRest

/-- What adding a value does: nothing if it is bound, and else one new binding. -/
theorem add_cases (i : Imports) (source : ImportRef) :
    (source ∈ i.bindings.map ImportBinding.source ∧ i.add source = i) ∨
      (source ∉ i.bindings.map ImportBinding.source ∧
        i.add source =
          { i with bindings := i.bindings ++ [⟨source, freeName i.taken source.selector⟩] }) := by
  unfold add
  cases found : i.find? source with
  | none => exact Or.inr ⟨(i.find?_eq_none_iff source).mp found, rfl⟩
  | some name =>
      refine Or.inl ⟨?_, rfl⟩
      by_contra absent
      rw [(i.find?_eq_none_iff source).mpr absent] at found
      cases found

theorem reserved_add (i : Imports) (source : ImportRef) :
    (i.add source).reserved = i.reserved := by
  rcases i.add_cases source with ⟨_, same⟩ | ⟨_, grown⟩
  · rw [same]
  · rw [grown]

theorem freeName_unused (i : Imports) (source : ImportRef) :
    freeName i.taken source.selector ∉ i.reserved ∧
      freeName i.taken source.selector ∉ i.bindings.map ImportBinding.name := by
  rw [← not_or, ← List.mem_append]
  exact freeName_not_mem i.taken source.selector

theorem nodup_sources_add (i : Imports) (source : ImportRef)
    (distinct : (i.bindings.map ImportBinding.source).Nodup) :
    ((i.add source).bindings.map ImportBinding.source).Nodup := by
  rcases i.add_cases source with ⟨_, same⟩ | ⟨absent, grown⟩
  · rwa [same]
  · rw [grown, List.map_append]
    exact distinct.append (List.nodup_singleton _) (by simpa using absent)

theorem nodup_names_add (i : Imports) (source : ImportRef)
    (distinct : (i.bindings.map ImportBinding.name).Nodup) :
    ((i.add source).bindings.map ImportBinding.name).Nodup := by
  rcases i.add_cases source with ⟨_, same⟩ | ⟨_, grown⟩
  · rwa [same]
  · rw [grown, List.map_append]
    exact distinct.append (List.nodup_singleton _) (by simpa using (i.freeName_unused source).2)

theorem add_valid (i : Imports) (source : ImportRef) (valid : i.Valid) :
    (i.add source).Valid where
  sources := i.nodup_sources_add source valid.sources
  names := i.nodup_names_add source valid.names
  unreserved := by
    rcases i.add_cases source with ⟨_, same⟩ | ⟨_, grown⟩
    · rw [same]
      exact valid.unreserved
    · rw [grown]
      intro b member
      rcases List.mem_append.mp member with old | new
      · exact valid.unreserved b old
      · rw [List.mem_singleton.mp new]
        exact (i.freeName_unused source).1

theorem mem_sources_add (i : Imports) (source other : ImportRef) :
    other ∈ (i.add source).bindings.map ImportBinding.source ↔
      other ∈ i.bindings.map ImportBinding.source ∨ other = source := by
  rcases i.add_cases source with ⟨present, same⟩ | ⟨_, grown⟩
  · rw [same]
    exact ⟨Or.inl, fun h => h.elim id fun same => same ▸ present⟩
  · rw [grown]
    simp

theorem addAll_valid (i : Imports) (sources : List ImportRef) (valid : i.Valid) :
    (i.addAll sources).Valid := by
  induction sources generalizing i with
  | nil => exact valid
  | cons source rest ih => exact ih (i.add source) (i.add_valid source valid)

theorem reserved_addAll (i : Imports) (sources : List ImportRef) :
    (i.addAll sources).reserved = i.reserved := by
  induction sources generalizing i with
  | nil => rfl
  | cons source rest ih => exact (ih (i.add source)).trans (i.reserved_add source)

theorem mem_sources_addAll (i : Imports) (sources : List ImportRef) (other : ImportRef) :
    other ∈ (i.addAll sources).bindings.map ImportBinding.source ↔
      other ∈ i.bindings.map ImportBinding.source ∨ other ∈ sources := by
  induction sources generalizing i with
  | nil => simp [addAll]
  | cons source rest ih =>
      change other ∈ ((i.add source).addAll rest).bindings.map ImportBinding.source ↔ _
      rw [ih, mem_sources_add, List.mem_cons, or_assoc]

/-! The header: one statement for each module, with the bindings taken from it. -/

def header (i : Imports) : List (String × List ImportBinding) :=
  i.paths.map fun path => (path, i.bindings.filter (·.source.path = path))

theorem render_eq_header (i : Imports) (format : ModuleFormat) :
    i.render format = i.header.map fun (path, bindings) => statement format path bindings := by
  simp [render, header]

/-- What the statements of the header bind, in the order in which it stands there: the value
named by a selector and the path of its statement, and the name that it gets. -/
def bound (i : Imports) : List (ImportRef × String) :=
  i.header.flatMap fun (path, bindings) => bindings.map fun b => (⟨b.source.selector, path⟩, b.name)

theorem count_grouped (bindings : List ImportBinding) (paths : List String) (distinct : paths.Nodup)
    (b : ImportBinding) :
    (paths.flatMap fun path => bindings.filter (·.source.path = path)).count b =
      if b.source.path ∈ paths then bindings.count b else 0 := by
  induction paths with
  | nil => simp
  | cons path rest ih =>
      rw [List.nodup_cons] at distinct
      rw [List.flatMap_cons, List.count_append, ih distinct.2]
      by_cases same : b.source.path = path
      · subst same
        have inGroup : (bindings.filter (·.source.path = b.source.path)).count b =
            bindings.count b := List.count_filter (by simp)
        simp [inGroup, distinct.1]
      · have outside : (bindings.filter (·.source.path = path)).count b = 0 :=
          List.count_eq_zero.mpr (by simp [same])
        simp [outside, same]

-- Grouping by module changes the order of the bindings and nothing else.
theorem bound_perm (i : Imports) :
    i.bound.Perm (i.bindings.map fun b => (b.source, b.name)) := by
  have grouped : (i.paths.flatMap fun path => i.bindings.filter (·.source.path = path)).Perm
      i.bindings := by
    rw [List.perm_iff_count]
    intro b
    rw [count_grouped i.bindings i.paths (nodup_eraseDups _) b]
    by_cases member : b ∈ i.bindings
    · have listed : b.source.path ∈ i.paths :=
        List.mem_eraseDups.mpr (List.mem_map_of_mem member)
      rw [if_pos listed]
    · simp [List.count_eq_zero.mpr member]
  have sameBound : i.bound =
      (i.paths.flatMap fun path => i.bindings.filter (·.source.path = path)).map
        fun b => (b.source, b.name) := by
    simp only [bound, header, List.flatMap_map, List.map_flatMap]
    apply List.flatMap_congr
    intro path _
    apply List.map_congr_left
    intro b member
    have ownPath : b.source.path = path := by simpa using (List.mem_filter.mp member).2
    rw [← ownPath]
  rw [sameBound]
  exact grouped.map _

theorem bound_sources_perm (i : Imports) :
    (i.bound.map Prod.fst).Perm (i.bindings.map ImportBinding.source) := by
  have mapped := i.bound_perm.map Prod.fst
  rwa [List.map_map] at mapped

theorem bound_names_perm (i : Imports) :
    (i.bound.map Prod.snd).Perm (i.bindings.map ImportBinding.name) := by
  have mapped := i.bound_perm.map Prod.snd
  rwa [List.map_map] at mapped

end Imports
end CallReplacement
