import CallReplacement.Proofs.Json.Edit
import CallReplacement.Proofs.Json.Shapes

/-!
Source files are decoded whatever the order of members, and whatever members stand beside the fields,
but for member references: one that has a member beside its fields cannot be decoded, nor can the
file. What is decoded is a document without a fault; the reader that goes through it from left to
right accepts it exactly if its value can be interpreted.
-/

namespace CallReplacement.SourceFile

/-- Decoding does not depend on the order of members, and passes over members that are not fields;
only a member reference with such a member makes it fail. -/
theorem decodesTo_of_changed {j : Json} {file : SourceFile}
    (decoded : shape.DecodesTo ofJson? j (some file)) :
    (∀ j', Relation.ReflTransGen Json.Reorders j j' → shape.DecodesTo ofJson? j' (some file)) ∧
    (∀ j', Role.Extended (· ≠ .member) .file j j' → shape.DecodesTo ofJson? j' (some file)) ∧
    ∀ j', Role.Extended (· = .member) .file j j' → shape.DecodesTo ofJson? j' none := by
  have whole : Role.decode? .file j = some file :=
    (shape_mirrors.decodesTo j).draft.symm.trans decoded.draft
  refine ⟨fun j' reordered => ?_, fun j' extended => ?_, fun j' tainted => ?_⟩
  · rw [← whole, Role.decode?_of_reorders reordered]
    exact shape_mirrors.decodesTo j'
  · rw [← whole, Role.decode?_of_extended extended]
    exact shape_mirrors.decodesTo j'
  · have refused : Role.decodeFile? j' = none := Role.decode?_eq_none_of_extended tainted
    rw [← refused]
    exact shape_mirrors.decodesTo j'

/-- A file with one call, with the members of its member reference and of the literal it passes. -/
def callOf (member literal : List (String × Json)) : Json :=
  .object [("path", .string "main"), ("declarations", .array [.object [("name", .string "f"),
    ("body", .object [("kind", .string "call"), ("member", .object member),
      ("args", .array [.object [("kind", .string "const"), ("value", .object literal)]])])]])]

def logMember : List (String × Json) :=
  [("entity", .string "Log"), ("name", .string "write"), ("kind", .string "method")]

def one : List (String × Json) := [("type", .string "int"), ("value", .int 1)]

theorem reorders_callOf {member literal other : List (String × Json)} (perm : literal.Perm other)
    (distinct : (literal.map Prod.fst).Nodup) :
    (callOf member literal).Reorders (callOf member other) :=
  @Json.Reorders.member [_] [] _ _ _ (@Json.Reorders.item [] [] _ _
    (@Json.Reorders.member [_] [] _ _ _ (@Json.Reorders.member [_, _] [] _ _ _
      (@Json.Reorders.item [] [] _ _ (@Json.Reorders.member [_] [] _ _ _ (.members perm distinct))))))

theorem decodesTo_of_changed_call : ∃ file,
    shape.DecodesTo ofJson? (callOf logMember one) (some file) ∧
    shape.DecodesTo ofJson? (callOf logMember one.reverse) (some file) ∧
    shape.DecodesTo ofJson? (callOf logMember (("note", .null) :: one)) (some file) ∧
    shape.DecodesTo ofJson? (callOf (("note", .null) :: logMember) one) none := by
  have present : (Role.decodeFile? (callOf logMember one)).isSome := by decide +kernel
  obtain ⟨file, found⟩ := Option.isSome_iff_exists.mp present
  have decoded := shape_mirrors.decodesTo (callOf logMember one)
  rw [found] at decoded
  have inBody {site : Role → Prop} {body body' : Json} (inner : Role.Extended site .body body body') :
      Role.Extended site .file
        (.object [("path", .string "main"), ("declarations", .array [.object
          [("name", .string "f"), ("body", body)]])])
        (.object [("path", .string "main"), ("declarations", .array [.object
          [("name", .string "f"), ("body", body')]])]) :=
    @Role.Extended.member _ .file _ [_] [] "" _ _ _ rfl (.tail _ (.head _))
      (@Role.Extended.item _ _ [] [] _ _
        (@Role.Extended.member _ .declaration _ [_] [] "" _ _ _ rfl (.tail _ (.tail _ (.head _)))
          inner))
  obtain ⟨order, strangers, members⟩ := decodesTo_of_changed decoded
  refine ⟨file, decoded, order _ (.single (reorders_callOf (List.reverse_perm _).symm (by decide))),
    strangers _ (inBody ?_), members _ (inBody ?_)⟩
  · exact @Role.Extended.member _ .body _ [_, _] [] "call" _ _ _ rfl
      (.tail _ (.tail _ (.head _))) (@Role.Extended.item _ _ [] [] _ _
        (@Role.Extended.member _ .expr _ [_] [] "const" _ _ _ rfl (.head _)
          (@Role.Extended.stranger _ .literal [] one "" "note" .null nofun rfl (by decide))))
  · exact @Role.Extended.member _ .body _ [_] [_] "call" _ _ _ rfl (.head _)
      (@Role.Extended.stranger _ .member [] logMember "" "note" .null rfl rfl (by decide))

end CallReplacement.SourceFile
