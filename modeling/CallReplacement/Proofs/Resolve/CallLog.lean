import CallReplacement.Proofs.Resolve.Logged
import CallReplacement.Proofs.Source.Postorder

/-!
The log of a lowered file lists its call sites in post-order, each once. What handlers answer
has no influence on it: their answers are never searched for calls.
-/

namespace CallReplacement

/-- What identifies a call site in the log: owner, member and range. -/
abbrev CallKey := String × String × Option SourceRange

def ResolvedCall.key (c : ResolvedCall) : CallKey := (c.site.owner, c.site.member, c.site.range)

def Log.keys (log : Log) : List CallKey := log.calls.map ResolvedCall.key

namespace SourceExpr

def callKey? : SourceExpr → Option CallKey
  | .call member _ _ _ range => some (member.entity, member.memberName, range)
  | _ => none

/-- The calls of an expression in post-order. -/
def callKeys (e : SourceExpr) : List CallKey := e.postorder.filterMap callKey?

theorem callKeys_eq (e : SourceExpr) :
    e.callKeys = e.children.flatMap callKeys ++ e.callKey?.toList := by
  have own : [e].filterMap callKey? = e.callKey?.toList := by
    cases h : e.callKey? <;> simp [h]
  rw [callKeys, postorder_eq, List.filterMap_append, List.filterMap_flatMap, own]
  rfl

theorem isSome_callKey? (e : SourceExpr) : e.callKey?.isSome = e.isCall := by
  cases e <;> rfl

theorem length_callKeys (e : SourceExpr) :
    e.callKeys.length = (e.subterms.filter isCall).length := by
  have perm : e.callKeys.Perm (e.subterms.filterMap callKey?) :=
    e.postorder_perm.filterMap callKey?
  rw [perm.length_eq, List.length_filterMap_eq_countP, ← List.countP_eq_length_filter]
  exact List.countP_congr fun e _ => by rw [isSome_callKey?]

end SourceExpr

/-- Whenever the computation succeeds, it has logged exactly these calls. -/
def Logged.Records (x : Logged α) (keys : List CallKey) : Prop :=
  ∀ a log, x = .ok (a, log) → log.keys = keys

namespace Logged

theorem records_pure (a : α) : Records (pure a) [] := by
  intro b log succeeded
  cases succeeded
  rfl

theorem Records.bind {x : Logged α} {f : α → Logged β} {first second : List CallKey}
    (hx : x.Records first) (hf : ∀ a, (f a).Records second) :
    (x >>= f).Records (first ++ second) := by
  intro b log succeeded
  obtain ⟨a, before, after, hxa, hfb, rfl⟩ := (bind_eq_ok_iff x f b log).mp succeeded
  rw [← hx a before hxa, ← hf a b after hfb]
  exact List.map_append

/-- A last step that logs nothing, such as putting a node together. -/
theorem Records.andPure {x : Logged α} {keys : List CallKey} (hx : x.Records keys) (f : α → β) :
    (x >>= fun a => pure (f a)).Records keys := by
  simpa using hx.bind fun a => records_pure (f a)

end Logged

open Logged

section
variable (r : Resolver)

-- One call site, one entry, whoever answers and whatever the answer is.
theorem Resolver.lowerCall_records (s : CallSite) :
    (r.lowerCall s).Records [(s.owner, s.member, s.range)] := by
  intro e log succeeded
  unfold lowerCall at succeeded
  split at succeeded
  · cases succeeded
    rfl
  · cases succeeded

namespace SourceExpr

theorem lowerAll_records (exprs : List SourceExpr)
    (each : ∀ e ∈ exprs, (e.lower r).Records e.callKeys) :
    (lowerAll r exprs).Records (exprs.flatMap callKeys) := by
  induction exprs with
  | nil => exact records_pure _
  | cons e rest ih =>
      have head := each e List.mem_cons_self
      have tail := ih fun e member => each e (List.mem_cons_of_mem _ member)
      exact head.bind fun e => tail.andPure _

theorem lowerOption_records (receiver : Option SourceExpr)
    (each : ∀ e ∈ receiver.toList, (e.lower r).Records e.callKeys) :
    (lowerOption r receiver).Records (receiver.toList.flatMap callKeys) := by
  cases receiver with
  | none => exact records_pure _
  | some e => simpa [lowerOption] using (each e (by simp)).andPure some

theorem lowerFields_records (fields : List (String × SourceExpr))
    (each : ∀ e ∈ fields.map Prod.snd, (e.lower r).Records e.callKeys) :
    (lowerFields r fields).Records ((fields.map Prod.snd).flatMap callKeys) := by
  induction fields with
  | nil => exact records_pure _
  | cons field rest ih =>
      have head := each field.2 (by simp)
      have tail := ih fun e member => each e (by simp_all)
      exact head.bind fun e => tail.andPure _

theorem lower_records (e : SourceExpr) : (e.lower r).Records e.callKeys := by
  induction e using induction_children with
  | step e ih =>
    rw [callKeys_eq]
    cases e with
    | const value type range => exact records_pure _
    | ident name type range => exact records_pure _
    | call member receiver args generics range =>
        have target := lowerOption_records r receiver fun e h => ih e (List.mem_append_left _ h)
        have lowered := lowerAll_records r args fun e h => ih e (List.mem_append_right _ h)
        simp only [lower, children, callKey?, List.flatMap_append, List.append_assoc]
        exact target.bind fun t => lowered.bind fun a => r.lowerCall_records _
    | apply callee args type range =>
        have head := ih callee List.mem_cons_self
        have tail := lowerAll_records r args fun e h => ih e (List.mem_cons_of_mem _ h)
        simpa [lower, children, callKey?] using head.bind fun c => tail.andPure _
    | sequence exprs range =>
        simpa [lower, children, callKey?] using (lowerAll_records r exprs ih).andPure _
    | record fields type range =>
        simpa [lower, children, callKey?] using (lowerFields_records r fields ih).andPure _
    | get target _ _ _ | lambda _ target _ | unary _ target _ _ | coerce target _ _ =>
        have below := ih target List.mem_cons_self
        simpa [lower, children, callKey?] using below.andPure _
    | bind _ _ left right _ | binary _ left right _ _ | logical _ left right _ =>
        have first := ih left List.mem_cons_self
        have second := ih right (by simp [children])
        simpa [lower, children, callKey?] using first.bind fun l => second.andPure _
    | conditional guard yes no range =>
        have first := ih guard List.mem_cons_self
        have second := ih yes (by simp [children])
        have third := ih no (by simp [children])
        simpa [lower, children, callKey?] using
          first.bind fun g => second.bind fun y => third.andPure _

end SourceExpr

namespace SourceFile

/-- The calls of all declarations, each declaration in post-order. -/
def callKeys (file : SourceFile) : List CallKey :=
  file.declarations.flatMap fun d => d.body.callKeys

theorem length_callKeys (file : SourceFile) : file.callKeys.length = file.calls.length := by
  simp [callKeys, calls, List.length_flatMap, SourceExpr.length_callKeys]

theorem lowerDeclarations_records (declarations : List SourceDeclaration) :
    (lowerDeclarations r declarations).Records
      (declarations.flatMap fun d => d.body.callKeys) := by
  induction declarations with
  | nil => exact records_pure _
  | cons d rest ih => exact (d.body.lower_records r).bind fun body => ih.andPure _

theorem lower_records (file : SourceFile) : (file.lower r).Records file.callKeys :=
  (lowerDeclarations_records r file.declarations).andPure _

/-- A lowered file has resolved each of its call sites once, in post-order. -/
theorem log_lists_calls (file : SourceFile) (m : Module) (log : Log)
    (lowered : file.lower r = .ok (m, log)) :
    log.calls.map ResolvedCall.key = file.callKeys ∧ log.calls.length = file.calls.length := by
  have records : (file.lower r).Records file.callKeys :=
    (lowerDeclarations_records r file.declarations).andPure _
  have keys : log.calls.map ResolvedCall.key = file.callKeys := records m log lowered
  have count := congrArg List.length keys
  rw [List.length_map, length_callKeys] at count
  exact ⟨keys, count⟩

end SourceFile
end

/-- `read().open(close())`: the outer call is completed last. -/
def nestedCalls : SourceFile :=
  let called (name : String) (receiver : Option SourceExpr) (args : List SourceExpr) :=
    SourceExpr.call ⟨"App.Door", name, .method, receiver.isSome, [], [], [], .unit⟩
      receiver args [] none
  ⟨"App.fs", [⟨"main", true,
    called "open" (some (called "read" none [])) [called "close" none []], none⟩]⟩

theorem log_lists_nested_calls :
    ∃ m log, nestedCalls.lower ⟨.empty, .empty, {}⟩ = .ok (m, log) ∧
      nestedCalls.callKeys =
        [("App.Door", "read", none), ("App.Door", "close", none), ("App.Door", "open", none)] ∧
      log.calls.map ResolvedCall.key = nestedCalls.callKeys ∧
      log.calls.length = nestedCalls.calls.length := by
  have logged := SourceFile.log_lists_calls ⟨.empty, .empty, {}⟩ nestedCalls _ _ rfl
  exact ⟨_, _, rfl, logged.1.symm, logged⟩

end CallReplacement
