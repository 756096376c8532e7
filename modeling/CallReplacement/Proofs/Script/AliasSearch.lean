import CallReplacement.Proofs.Script.Imports
import Mathlib.Logic.Function.Iterate

/-!
The search for a free name, one try at a time. Nothing in a try knows how many names are taken:
behind a taken candidate comes the one with the next number, and numbers may go on without an
end. The search ends all the same, because each failed try has met a taken name that no try
before it has met. For the same reason numbers that do end are as good, if there are as many of
them as taken names.
-/

namespace CallReplacement
namespace Imports

/-- Where the search for a name stands. -/
inductive Search where
  | trying (number : Nat)
  | found (name : String)
  /-- No number is left, and the value has to go by its own name although that is taken. -/
  | spent
deriving DecidableEq, Repr

section
variable (last : Option Nat) (taken : List String) (selector : String)

/-- Before any number is tried. -/
def Search.start : Search := if selector ∈ taken then .trying 1 else .found selector

/-- One more try. Numbers go up to `last`, and on and on if there is no last one. -/
def Search.next : Search → Search
  | .trying number =>
      if ∀ l ∈ last, number ≤ l then
        if candidate selector number ∈ taken then .trying (number + 1)
        else .found (candidate selector number)
      else .spent
  | ended => ended

def Search.after (tries : Nat) : Search := (next last taken selector)^[tries] (start taken selector)

/-- The search has this name after so many tries and not before, and there it stays. -/
structure Finds (tries : Nat) (name : String) : Prop where
  trying : ∀ k < tries, Search.after last taken selector k = .trying (k + 1)
  found : ∀ k ≥ tries, Search.after last taken selector k = .found name
  free : name ∉ taken

end

namespace Search

variable {last : Option Nat} {taken : List String} {selector : String}

theorem after_succ (tries : Nat) :
    after last taken selector (tries + 1) =
      next last taken selector (after last taken selector tries) :=
  Function.iterate_succ_apply' ..

theorem next_of_taken {number : Nat} (left : ∀ l ∈ last, number ≤ l)
    (clash : candidate selector number ∈ taken) :
    next last taken selector (.trying number) = .trying (number + 1) := by
  rw [next, if_pos left, if_pos clash]

theorem next_of_free {number : Nat} (left : ∀ l ∈ last, number ≤ l)
    (free : candidate selector number ∉ taken) :
    next last taken selector (.trying number) = .found (candidate selector number) := by
  rw [next, if_pos left, if_neg free]

-- As long as all candidates are taken, each try moves on to the next number.
theorem after_of_taken {tries : Nat} (left : ∀ l ∈ last, tries ≤ l)
    (clashes : ∀ m ≤ tries, candidate selector m ∈ taken) :
    after last taken selector tries = .trying (tries + 1) := by
  induction tries with
  | zero => exact if_pos (clashes 0 (Nat.le_refl 0))
  | succ tries ih =>
      have before := ih (fun l isLast => Nat.le_of_succ_le (left l isLast))
        (fun m below => clashes m (Nat.le_succ_of_le below))
      rw [after_succ, before]
      exact next_of_taken left (clashes (tries + 1) (Nat.le_refl _))

theorem after_of_found {tries : Nat} {name : String}
    (found : after last taken selector tries = .found name) (k : Nat) (later : k ≥ tries) :
    after last taken selector k = .found name := by
  obtain ⟨more, rfl⟩ := Nat.exists_eq_add_of_le' later
  rw [after, Function.iterate_add_apply]
  rw [after] at found
  rw [found]
  exact Function.iterate_fixed rfl more

/-- The first free candidate is found, if the numbers go as far as it. -/
theorem finds_candidate {n : Nat} (left : ∀ l ∈ last, n ≤ l) (free : candidate selector n ∉ taken)
    (clashes : ∀ m < n, candidate selector m ∈ taken) :
    Finds last taken selector n (candidate selector n) := by
  have trying (k : Nat) (early : k < n) : after last taken selector k = .trying (k + 1) :=
    after_of_taken (fun l isLast => Nat.le_trans (Nat.le_of_lt early) (left l isLast))
      (fun m below => clashes m (Nat.lt_of_le_of_lt below early))
  have found : after last taken selector n = .found (candidate selector n) := by
    cases n with
    | zero => exact if_neg free
    | succ n =>
        rw [after_succ, trying n n.lt_succ_self]
        exact next_of_free left free
  exact ⟨trying, after_of_found found, free⟩

end Search

theorem Finds.not_spent {last : Option Nat} {taken : List String} {selector name : String}
    {tries : Nat} (finds : Finds last taken selector tries name) (k : Nat) :
    Search.after last taken selector k ≠ .spent := by
  rcases Nat.lt_or_ge k tries with early | late
  · simp [finds.trying k early]
  · simp [finds.found k late]

/-- With numbers that have no end, the search finds the free name after at most as many tries as
there are taken names, and it never runs out. Numbers that end make no difference, if there are
as many as taken names. -/
theorem search_ends (taken : List String) (selector : String) :
    ∃ tries ≤ taken.toFinset.card,
      Finds none taken selector tries (freeName taken selector) ∧
      (∀ k, Search.after none taken selector k ≠ .spent) ∧
      ∀ last ≥ taken.toFinset.card,
        Finds (some last) taken selector tries (freeName taken selector) := by
  obtain ⟨n, _, named, free, clashes⟩ := freeName_eq_candidate taken selector
  have inTime : n ≤ taken.toFinset.card := le_card_of_taken clashes
  have unending : Finds none taken selector n (candidate selector n) :=
    Search.finds_candidate (by simp) free clashes
  rw [named]
  refine ⟨n, inTime, unending, unending.not_spent, ?_⟩
  intro last enough
  have left : ∀ l ∈ some last, n ≤ l := by simpa using Nat.le_trans inTime enough
  exact Search.finds_candidate left free clashes

/-- Three names, one of them listed twice, that leave no number below 3. -/
def rolled : List String := ["roll_2", "roll", "roll_1", "roll"]

-- As many tries as taken names can be needed, and with one number less the search is spent.
theorem rolled_search_ends :
    rolled.toFinset.card = 3 ∧ Finds none rolled "roll" 3 "roll_3" ∧
      Finds (some 3) rolled "roll" 3 "roll_3" ∧ Search.after (some 2) rolled "roll" 3 = .spent := by
  obtain ⟨tries, inTime, unending, _, ending⟩ := search_ends rolled "roll"
  have three : rolled.toFinset.card = 3 := by decide
  have name : freeName rolled "roll" = "roll_3" := by decide
  have all : tries = 3 := by
    refine Nat.le_antisymm (three ▸ inTime) (Nat.lt_of_not_le fun early => ?_)
    have second : Search.after none rolled "roll" 2 = .trying 3 := by decide
    simp [unending.found 2 early] at second
  subst all
  rw [name] at unending ending
  exact ⟨three, unending, ending 3 (Nat.le_of_eq three), by decide⟩

end Imports
end CallReplacement
