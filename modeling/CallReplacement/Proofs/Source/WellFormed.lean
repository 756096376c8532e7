import CallReplacement.Proofs.Source.Places
import CallReplacement.Proofs.Source.Repeats
import CallReplacement.Source.Document

/-!
Which documents are accepted. A document that can be read is a source file if its declarations have
different names and no constructor is called on a receiver, wherever the call is hidden. Otherwise
the fault is the first repeated name, and only without one the first such call in pre-order.
-/

namespace CallReplacement

namespace SourceExpr

/-- Whether an expression calls the constructor of an entity on a receiver. -/
inductive ConstructsOnReceiver : SourceExpr → String → Option SourceRange → Prop
  | call {member target args generics range} : member.kind = .constructor →
      ConstructsOnReceiver (.call member (some target) args generics range) member.entity range

theorem constructorWithReceiver?_eq_some_iff (e : SourceExpr) (entity : String)
    (range : Option SourceRange) :
    e.constructorWithReceiver? = some (entity, range) ↔ e.ConstructsOnReceiver entity range := by
  constructor
  · intro found
    unfold constructorWithReceiver? at found
    split at found
    · split at found
      · next isConstructor =>
        cases found
        exact .call (by simpa [MemberRef.isConstructor] using isConstructor)
      · cases found
    · cases found
  · rintro ⟨kind⟩
    simp [constructorWithReceiver?, MemberRef.isConstructor, kind]

theorem isCall_of_constructorWithReceiver? {e : SourceExpr}
    (found : e.constructorWithReceiver?.isSome) : e.isCall := by
  cases e with
  | call => rfl
  | _ => cases found

end SourceExpr

namespace SourceFile

def bodies (file : SourceFile) : List SourceExpr := file.declarations.map SourceDeclaration.body

/-- Whether an expression stands at a place of a file, of which the first number selects the
declaration. -/
def Stands (file : SourceFile) (place : List Nat) (e : SourceExpr) : Prop :=
  SourceExpr.Within file.bodies place e

structure WellFormed (file : SourceFile) : Prop where
  names : (file.declarations.map SourceDeclaration.name).Nodup
  receivers : ∀ place e entity range, file.Stands place e → ¬ e.ConstructsOnReceiver entity range

/-- Which fault of a file counts. -/
inductive FirstFault (file : SourceFile) : SourceFault → Prop
  | name {before name after} :
      file.declarations.map SourceDeclaration.name = before ++ name :: after →
      before.Nodup → name ∈ before → FirstFault file (.duplicateDeclaration file.path name)
  | receiver {place e entity range} :
      (file.declarations.map SourceDeclaration.name).Nodup →
      file.Stands place e → e.ConstructsOnReceiver entity range →
      (∀ other e' entity' range', file.Stands other e' → e'.ConstructsOnReceiver entity' range' →
        SourceExpr.UpTo place other) →
      FirstFault file (.constructorReceiver file.path entity range)

-- The search looks at calls only, and nothing else can be found.
theorem findSome?_filter_isCall (exprs : List SourceExpr) :
    (exprs.filter SourceExpr.isCall).findSome? SourceExpr.constructorWithReceiver? =
      exprs.findSome? SourceExpr.constructorWithReceiver? := by
  induction exprs with
  | nil => rfl
  | cons e rest ih =>
      cases found : e.constructorWithReceiver? with
      | some answer =>
          have isCall : e.isCall := by
            apply SourceExpr.isCall_of_constructorWithReceiver?
            rw [found, Option.isSome_some]
          rw [List.filter_cons_of_pos isCall, List.findSome?_cons, List.findSome?_cons, found]
      | none =>
          rw [List.filter_cons, List.findSome?_cons, found, ← ih]
          split
          · rw [List.findSome?_cons, found]
          · rfl

theorem findSome?_calls (file : SourceFile) :
    file.calls.findSome? SourceExpr.constructorWithReceiver? =
      (file.bodies.flatMap SourceExpr.subterms).findSome? SourceExpr.constructorWithReceiver? := by
  have filtered : file.calls = (file.bodies.flatMap SourceExpr.subterms).filter SourceExpr.isCall := by
    rw [bodies, List.flatMap_map, List.filter_flatMap]
    rfl
  rw [filtered, findSome?_filter_isCall]

theorem findSome?_calls_eq_some_iff (file : SourceFile) (entity : String)
    (range : Option SourceRange) :
    file.calls.findSome? SourceExpr.constructorWithReceiver? = some (entity, range) ↔
      ∃ place e, file.Stands place e ∧ e.ConstructsOnReceiver entity range ∧
        ∀ other e' entity' range', file.Stands other e' →
          e'.ConstructsOnReceiver entity' range' → SourceExpr.UpTo place other := by
  rw [findSome?_calls, SourceExpr.findSome?_eq_some_iff_firstAnswer]
  simp only [SourceExpr.FirstAnswer, Prod.forall, SourceExpr.constructorWithReceiver?_eq_some_iff]
  rfl

theorem findSome?_calls_eq_none_iff (file : SourceFile) :
    file.calls.findSome? SourceExpr.constructorWithReceiver? = none ↔
      ∀ place e entity range, file.Stands place e → ¬ e.ConstructsOnReceiver entity range := by
  rw [findSome?_calls, List.findSome?_eq_none_iff]
  constructor
  · intro silent place e entity range stands constructs
    have member := (SourceExpr.mem_flatMap_subterms_iff _ _).mpr ⟨place, stands⟩
    rw [← SourceExpr.constructorWithReceiver?_eq_some_iff, silent e member] at constructs
    cases constructs
  · intro apart e member
    obtain ⟨place, stands⟩ := (SourceExpr.mem_flatMap_subterms_iff _ _).mp member
    rw [Option.eq_none_iff_forall_ne_some]
    rintro ⟨entity, range⟩ found
    exact apart place e entity range stands
      ((SourceExpr.constructorWithReceiver?_eq_some_iff _ _ _).mp found)

theorem fault?_eq_none_iff (file : SourceFile) : file.fault? = none ↔ file.WellFormed := by
  have distinct := firstRepeat_eq_none_iff (file.declarations.map SourceDeclaration.name)
  unfold fault?
  cases repeated : firstRepeat (file.declarations.map SourceDeclaration.name) with
  | some name =>
      constructor
      · intro impossible
        cases impossible
      · intro wellFormed
        rw [distinct.mpr wellFormed.names] at repeated
        cases repeated
  | none =>
      rw [Option.map_eq_none_iff, findSome?_calls_eq_none_iff]
      exact ⟨fun apart => ⟨distinct.mp repeated, apart⟩, WellFormed.receivers⟩

theorem fault?_eq_some_iff (file : SourceFile) (fault : SourceFault) :
    file.fault? = some fault ↔ file.FirstFault fault := by
  have distinct := firstRepeat_eq_none_iff (file.declarations.map SourceDeclaration.name)
  have first := firstRepeat_eq_some_iff (file.declarations.map SourceDeclaration.name)
  unfold fault?
  constructor
  · intro found
    split at found
    · next name repeated =>
      cases found
      obtain ⟨before, after, split, unseen, known⟩ := (first name).mp repeated
      exact .name split unseen known
    · next unrepeated =>
      obtain ⟨⟨entity, range⟩, search, rfl⟩ := Option.map_eq_some_iff.mp found
      obtain ⟨place, e, stands, constructs, least⟩ :=
        (findSome?_calls_eq_some_iff file entity range).mp search
      exact .receiver (distinct.mp unrepeated) stands constructs least
  · rintro (⟨split, unseen, known⟩ | ⟨unrepeated, stands, constructs, least⟩)
    · rw [(first _).mpr ⟨_, _, split, unseen, known⟩]
    · have search := (findSome?_calls_eq_some_iff file _ _).mpr ⟨_, _, stands, constructs, least⟩
      rw [distinct.mpr unrepeated, search]
      rfl

theorem read_of_illFormed {document : String} {flaw : SourceFault}
    (refused : ofText document = .error (.illFormed flaw)) :
    ∃ file, shape.parseAs ofJson? document = .ok file := by
  unfold ofText at refused
  split at refused
  · cases refused
  · next file decodes => exact ⟨file, decodes⟩

/-- A document that can be read is accepted exactly if its file is well formed, and refused for the
first fault of the file otherwise. -/
theorem ofText_eq_iff_wellFormed (document : String) (file : SourceFile)
    (decodes : shape.parseAs ofJson? document = .ok file) :
    (∀ result, ofText document = .ok result ↔ result = file ∧ file.WellFormed) ∧
      ∀ fault, ofText document = .error fault ↔
        ∃ flaw, fault = .illFormed flaw ∧ file.FirstFault flaw := by
  simp only [ofText, decodes, ← fault?_eq_none_iff, ← fault?_eq_some_iff]
  cases file.fault? with
  | none => simp [eq_comm]
  | some flaw => simp [eq_comm]

/-- Within a lambda, a constructor is called on the result of another, which is called on a
receiver as well. -/
def nestedReceivers : String :=
  "\x7b\"path\":\"Dice.fs\",\"declarations\":[\x7b\"name\":\"roll\",\"body\":" ++
    "\x7b\"kind\":\"lambda\",\"params\":[],\"body\":" ++
      "\x7b\"kind\":\"call\",\"member\":" ++
        "\x7b\"entity\":\"Dice\",\"name\":\"Dice\",\"kind\":\"constructor\"\x7d,\"receiver\":" ++
      "\x7b\"kind\":\"call\",\"member\":" ++
        "\x7b\"entity\":\"Seed\",\"name\":\"Seed\",\"kind\":\"constructor\"\x7d,\"receiver\":" ++
      "\x7b\"kind\":\"ident\",\"name\":\"x\"\x7d\x7d\x7d\x7d\x7d]\x7d"

theorem nestedReceivers_fault :
    ∃ file, shape.parseAs ofJson? nestedReceivers = .ok file ∧
      ofText nestedReceivers =
        .error (.illFormed (.constructorReceiver "Dice.fs" "Dice" none)) ∧
      file.FirstFault (.constructorReceiver "Dice.fs" "Dice" none) := by
  have computed : (match ofText nestedReceivers with
      | .error fault => some fault
      | .ok _ => none) = some (.illFormed (.constructorReceiver "Dice.fs" "Dice" none)) := by
    decide +kernel
  have refused : ofText nestedReceivers =
      .error (.illFormed (.constructorReceiver "Dice.fs" "Dice" none)) := by
    split at computed
    · next fault outcome => rw [outcome, Option.some.inj computed]
    · cases computed
  obtain ⟨file, decodes⟩ := read_of_illFormed refused
  obtain ⟨_, faults⟩ := ofText_eq_iff_wellFormed nestedReceivers file decodes
  obtain ⟨flaw, same, first⟩ := (faults _).mp refused
  cases same
  exact ⟨file, decodes, refused, first⟩

end SourceFile
end CallReplacement
