import CallReplacement.Source.File

/-!
First elements of lists: the first without a property, and the first that occurs before. The search
for a repeated element finds none exactly when all elements differ. If it finds one, all elements
before that one differ.
-/

namespace CallReplacement

theorem forall_or_first {α : Type} (p : α → Prop) (xs : List α) :
    (∀ x ∈ xs, p x) ∨
      ∃ before x after, xs = before ++ x :: after ∧ (∀ y ∈ before, p y) ∧ ¬ p x := by
  induction xs with
  | nil => exact .inl (by simp)
  | cons first rest ih =>
      by_cases holds : p first
      · rcases ih with all | ⟨before, x, after, rfl, others, fails⟩
        · exact .inl (List.forall_mem_cons.mpr ⟨holds, all⟩)
        · exact .inr ⟨first :: before, x, after, rfl, List.forall_mem_cons.mpr ⟨holds, others⟩, fails⟩
      · exact .inr ⟨[], first, rest, rfl, by simp, holds⟩

variable {α : Type} [BEq α] [LawfulBEq α]

theorem firstRepeat_go_eq_none_iff (seen xs : List α) :
    firstRepeat.go seen xs = none ↔ xs.Nodup ∧ ∀ x ∈ xs, x ∉ seen := by
  induction xs generalizing seen with
  | nil => simp [firstRepeat.go]
  | cons x rest ih =>
      unfold firstRepeat.go
      by_cases repeated : seen.contains x = true
      · have inSeen : x ∈ seen := List.contains_iff_mem.mp repeated
        simp [inSeen]
      · have fresh : x ∉ seen := by
          intro inSeen
          exact repeated (List.contains_iff_mem.mpr inSeen)
        rw [if_neg repeated, ih, List.nodup_cons]
        constructor
        · rintro ⟨distinct, unseen⟩
          refine ⟨⟨fun inRest => unseen x inRest List.mem_cons_self, distinct⟩, ?_⟩
          intro y member
          rcases List.mem_cons.mp member with rfl | inRest
          · exact fresh
          · intro inSeen
            exact unseen y inRest (List.mem_cons_of_mem x inSeen)
        · rintro ⟨⟨absent, distinct⟩, unseen⟩
          refine ⟨distinct, ?_⟩
          intro y inRest known
          rcases List.mem_cons.mp known with rfl | inSeen
          · exact absent inRest
          · exact unseen y (List.mem_cons_of_mem x inRest) inSeen

theorem firstRepeat_eq_none_iff (xs : List α) : firstRepeat xs = none ↔ xs.Nodup := by
  have search := firstRepeat_go_eq_none_iff [] xs
  simpa [firstRepeat] using search

-- Elements that are new and differ are passed over, and count as seen afterwards.
theorem firstRepeat_go_append {seen before : List α} (distinct : before.Nodup)
    (unseen : ∀ x ∈ before, x ∉ seen) (rest : List α) :
    firstRepeat.go seen (before ++ rest) = firstRepeat.go (before.reverse ++ seen) rest := by
  induction before generalizing seen with
  | nil => rfl
  | cons x before ih =>
      obtain ⟨absent, distinct⟩ := List.nodup_cons.mp distinct
      obtain ⟨fresh, unseen⟩ := List.forall_mem_cons.mp unseen
      have passed : ∀ y ∈ before, y ∉ x :: seen := by
        intro y member known
        rcases List.mem_cons.mp known with rfl | inSeen
        · exact absent member
        · exact unseen y member inSeen
      have skip : ¬ seen.contains x = true := by simpa using fresh
      rw [List.cons_append, firstRepeat.go, if_neg skip, ih distinct passed]
      simp

theorem exists_of_firstRepeat_go {seen xs : List α} {x : α}
    (found : firstRepeat.go seen xs = some x) :
    ∃ before after, xs = before ++ x :: after ∧ before.Nodup ∧ x ∈ before ++ seen ∧
      ∀ y ∈ before, y ∉ seen := by
  induction xs generalizing seen with
  | nil => cases found
  | cons first rest ih =>
      unfold firstRepeat.go at found
      split at found
      · next repeated =>
        cases found
        exact ⟨[], rest, rfl, List.nodup_nil, List.contains_iff_mem.mp repeated, by simp⟩
      · next fresh =>
        obtain ⟨before, after, rfl, distinct, known, unseen⟩ := ih found
        have absent : first ∉ before := by
          intro member
          exact unseen first member List.mem_cons_self
        refine ⟨first :: before, after, rfl, List.nodup_cons.mpr ⟨absent, distinct⟩, ?_, ?_⟩
        · rw [List.mem_append, List.mem_cons, ← or_assoc] at known
          rwa [List.mem_append, List.mem_cons, or_comm (a := x = first)]
        · rw [List.forall_mem_cons]
          refine ⟨by simpa using fresh, fun y member inSeen => ?_⟩
          exact unseen y member (List.mem_cons_of_mem first inSeen)

theorem firstRepeat_eq_some_iff (xs : List α) (x : α) :
    firstRepeat xs = some x ↔
      ∃ before after, xs = before ++ x :: after ∧ before.Nodup ∧ x ∈ before := by
  constructor
  · intro found
    obtain ⟨before, after, split, distinct, known, _⟩ := exists_of_firstRepeat_go found
    exact ⟨before, after, split, distinct, by simpa using known⟩
  · rintro ⟨before, after, rfl, distinct, known⟩
    rw [firstRepeat, firstRepeat_go_append distinct (by simp), firstRepeat.go, if_pos (by simpa)]

end CallReplacement
