import CallReplacement.Proofs.Json.Role

/-!
The shapes of the documents that are read, and the interpretations they mirror. In a document a
body's tag has to be a text; but for that, what is read of a value is interpreted as the value is.
-/

namespace CallReplacement

open Json (Draft Shape)
open Json.Shape (Mirrors Mirrored)

theorem text_mirrors : Shape.text.Mirrors Json.text? Json.text? :=
  .scalar (by trivial) fun _ refused => by simpa [Shape.admits] using refused

theorem truth_mirrors : Shape.truth.Mirrors Json.truth? Json.truth? :=
  .scalar (by trivial) fun _ refused => by simpa [Shape.admits] using refused

theorem whole_mirrors : (Shape.integer 0 0xFFFFFFFF).Mirrors Json.uint32? Json.uint32? := by
  refine .scalar (by trivial) fun value refused => ?_
  cases value with
  | int n =>
      have outside : ¬ (0 ≤ n ∧ n < 0x100000000) := by
        simp only [Shape.admits, Bool.and_eq_false_iff, decide_eq_false_iff_not] at refused
        omega
      rw [Json.uint32?, if_neg outside]
  | _ => rfl

theorem text_ne_null {d : Draft} {read : Json} (found : Shape.text.read d = .ok read) :
    read ≠ .null := by
  rintro rfl
  cases d with
  | value value => cases value <;> cases found
  | _ => cases found

theorem record_ne_null {fields : List Shape.Field} {closed : Bool} {d : Draft} {read : Json}
    (found : (Shape.record fields closed).read d = .ok read) : read ≠ .null := by
  rintro rfl
  cases d with
  | object members tail =>
      rw [Shape.read] at found
      cases inner : Shape.readMembers fields closed [] members tail <;> rw [inner] at found <;>
        cases found
  | array items tail =>
      rw [Shape.read] at found
      cases inner : Shape.readFields fields items tail <;> rw [inner] at found <;> cases found
  | _ => cases found

namespace Position

theorem shape_mirrors : shape.Mirrors ofJson? ofJson? :=
  Mirrored.record (by decide) (.need (whole_mirrors.field _ _) fun line =>
    .need (whole_mirrors.field _ _) fun column => .pure _ _)

end Position

namespace SourceRange

theorem shape_mirrors : shape.Mirrors ofJson? ofJson? :=
  Mirrored.record (by decide) (.want (text_mirrors.orNull (fun _ _ => text_ne_null) _ _) fun file =>
    .need (Position.shape_mirrors.field _ _) fun start =>
    .need (Position.shape_mirrors.field _ _) fun stop => .pure _ _)

end SourceRange

namespace ValueType

theorem shape_mirrors : shape.Mirrors ofJson? fun value =>
    (Shape.tagText? "type" value).bind fun _ => ofJson? value := by
  refine .tagged (fun value result => ?_) fun values result => ?_
  · obtain ⟨tag, tagged⟩ := Role.tag_present (p := .type) trivial result
    rw [Role.tag?, Json.required_eq] at tagged
    exact ⟨tag, tagged⟩
  · exact Role.tag_once (p := .type) trivial result (.head _)

end ValueType

namespace SourceExpr

theorem shape_mirrors : shape.Mirrors ofJson? Role.decodeBody? := by
  refine .tagged (fun value result => ?_) fun values result => ?_
  · obtain ⟨tag, tagged⟩ := Role.tag_present (p := .expr) trivial result
    rw [Role.tag?, Json.required_eq] at tagged
    exact ⟨tag, tagged⟩
  · exact Role.tag_once (p := .expr) trivial result (.head _)

end SourceExpr

namespace SourceDeclaration

theorem shape_mirrors : shape.Mirrors ofJson? Role.decodeDeclaration? :=
  Mirrored.record (by decide) (.need (text_mirrors.field _ _) fun name =>
    .want (truth_mirrors.field _ _) fun isPublic =>
    .need (SourceExpr.shape_mirrors.field _ _) fun body =>
    .want (SourceRange.shape_mirrors.orNull (fun _ _ => record_ne_null) _ _) fun range =>
    .pure _ _)

end SourceDeclaration

namespace SourceFile

theorem shape_mirrors : shape.Mirrors ofJson? Role.decodeFile? :=
  Mirrored.record (by decide) (.need (text_mirrors.field _ _) fun path =>
    .want (SourceDeclaration.shape_mirrors.list.field _ _) fun declarations =>
    .pure _ _)

end SourceFile
end CallReplacement
