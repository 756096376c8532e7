import CallReplacement.Proofs.Script.Imports
import Mathlib.Data.List.Induction

/-!
What a collector of imports has after any row of requests. Names may be reserved and values
added in any order, so an alias made for one value can be the own name of another, or a name
that is reserved later. The name of a value is decided by what is taken when the value is first
added, and from then on it stays.
-/

namespace CallReplacement

theorem eraseDups_concat_of_mem {α : Type} [BEq α] [LawfulBEq α] {xs : List α} {x : α}
    (member : x ∈ xs) : (xs ++ [x]).eraseDups = xs.eraseDups := by
  rw [List.eraseDups_append]
  simp [List.removeAll, member]

theorem eraseDups_concat_of_not_mem {α : Type} [BEq α] [LawfulBEq α] {xs : List α} {x : α}
    (absent : x ∉ xs) : (xs ++ [x]).eraseDups = xs.eraseDups ++ [x] := by
  rw [List.eraseDups_append]
  simp [List.removeAll, absent, List.eraseDups_cons]

theorem eraseDups_map_eraseDups {α β : Type} [BEq α] [LawfulBEq α] [BEq β] [LawfulBEq β]
    (f : α → β) (xs : List α) : (xs.eraseDups.map f).eraseDups = (xs.map f).eraseDups := by
  induction xs using List.reverseRecOn with
  | nil => rfl
  | append_singleton xs x ih =>
      have sameImages : f x ∈ xs.eraseDups.map f ↔ f x ∈ xs.map f := by simp
      by_cases member : x ∈ xs
      · have image : f x ∈ xs.map f := List.mem_map_of_mem member
        rw [eraseDups_concat_of_mem member, List.map_append, List.map_singleton,
          eraseDups_concat_of_mem image, ih]
      · rw [eraseDups_concat_of_not_mem member, List.map_append, List.map_append,
          List.map_singleton]
        by_cases image : f x ∈ xs.map f
        · rw [eraseDups_concat_of_mem image, eraseDups_concat_of_mem (sameImages.mpr image), ih]
        · rw [eraseDups_concat_of_not_mem image,
            eraseDups_concat_of_not_mem (mt sameImages.mp image), ih]

namespace Imports

/-- One thing asked of a collector. -/
inductive Request where
  | reserve (names : List String)
  | add (source : ImportRef)
  | addAll (sources : List ImportRef)

def answer (i : Imports) : Request → Imports
  | .reserve names => i.reserve names
  | .add source => i.add source
  | .addAll sources => i.addAll sources

/-- The collector after a row of requests. -/
def answerAll (requests : List Request) : Imports := requests.foldl answer {}

/-! Adding several values is adding one after the other, and any of these can be the first time
that a value is added. -/

inductive Step where
  | reserve (names : List String)
  | add (source : ImportRef)

def step (i : Imports) : Step → Imports
  | .reserve names => i.reserve names
  | .add source => i.add source

/-- The collector after a row of single steps. -/
def after (steps : List Step) : Imports := steps.foldl step {}

def Request.steps : Request → List Step
  | .reserve names => [.reserve names]
  | .add source => [.add source]
  | .addAll sources => sources.map .add

def history (requests : List Request) : List Step := requests.flatMap Request.steps

theorem answer_eq_steps (i : Imports) (request : Request) :
    i.answer request = request.steps.foldl step i := by
  cases request with
  | reserve names | add source => rfl
  | addAll sources =>
      rw [Request.steps, List.foldl_map]
      rfl

theorem answerAll_eq_after (requests : List Request) :
    answerAll requests = after (history requests) := by
  rw [answerAll, after, history, List.foldl_flatMap]
  exact congrArg (requests.foldl · {}) (funext₂ answer_eq_steps)

theorem after_append (steps more : List Step) :
    after (steps ++ more) = more.foldl step (after steps) := List.foldl_append

/-- The names that the steps have reserved. -/
def reservedIn (steps : List Step) : List String :=
  steps.flatMap fun
    | .reserve names => names
    | .add _ => []

/-- The values that the steps have added, each as often as it was added. -/
def addedIn (steps : List Step) : List ImportRef :=
  steps.flatMap fun
    | .reserve _ => []
    | .add source => [source]

/-! What one more step does, and induction on the steps from the end. -/

section
variable (steps : List Step) (names : List String) (source : ImportRef)

theorem after_reserve : after (steps ++ [.reserve names]) = (after steps).reserve names :=
  List.foldl_concat ..

theorem after_add : after (steps ++ [.add source]) = (after steps).add source :=
  List.foldl_concat ..

theorem reservedIn_reserve : reservedIn (steps ++ [.reserve names]) = reservedIn steps ++ names := by
  simp [reservedIn]

theorem reservedIn_add : reservedIn (steps ++ [.add source]) = reservedIn steps := by
  simp [reservedIn]

theorem addedIn_reserve : addedIn (steps ++ [.reserve names]) = addedIn steps := by
  simp [addedIn]

theorem addedIn_add : addedIn (steps ++ [.add source]) = addedIn steps ++ [source] := by
  simp [addedIn]

end

@[elab_as_elim]
theorem steps_induction {motive : List Step → Prop} (empty : motive [])
    (reserve : ∀ steps names, motive steps → motive (steps ++ [.reserve names]))
    (add : ∀ steps source, motive steps → motive (steps ++ [.add source]))
    (steps : List Step) : motive steps := by
  induction steps using List.reverseRecOn with
  | nil => exact empty
  | append_singleton steps last ih =>
      cases last with
      | reserve names => exact reserve steps names ih
      | add source => exact add steps source ih

theorem reserved_after (steps : List Step) : (after steps).reserved = reservedIn steps := by
  induction steps using steps_induction with
  | empty => rfl
  | reserve steps names ih => rw [after_reserve, reservedIn_reserve, ← ih, Imports.reserve]
  | add steps source ih => rw [after_add, reserved_add, reservedIn_add, ih]

-- Values stand in the order in which they were first added.
theorem sources_after (steps : List Step) :
    (after steps).bindings.map ImportBinding.source = (addedIn steps).eraseDups := by
  induction steps using steps_induction with
  | empty => rfl
  | reserve steps names ih => rw [after_reserve, addedIn_reserve, ← ih, Imports.reserve]
  | add steps source ih =>
      rw [after_add, addedIn_add]
      rcases (after steps).add_cases source with ⟨present, same⟩ | ⟨absent, grown⟩
      · rw [ih, List.mem_eraseDups] at present
        rw [same, ih, eraseDups_concat_of_mem present]
      · rw [ih, List.mem_eraseDups] at absent
        rw [grown, List.map_append, ih, eraseDups_concat_of_not_mem absent]
        rfl

theorem nodup_sources_after (steps : List Step) :
    ((after steps).bindings.map ImportBinding.source).Nodup := by
  rw [sources_after]
  exact nodup_eraseDups _

theorem mem_sources_after (steps : List Step) (source : ImportRef) :
    source ∈ (after steps).bindings.map ImportBinding.source ↔ source ∈ addedIn steps := by
  rw [sources_after, List.mem_eraseDups]

theorem nodup_names_after (steps : List Step) :
    ((after steps).bindings.map ImportBinding.name).Nodup := by
  induction steps using steps_induction with
  | empty => exact List.nodup_nil
  | reserve steps names ih =>
      rw [after_reserve]
      exact ih
  | add steps source ih =>
      rw [after_add]
      exact (after steps).nodup_names_add source ih

/-! A name that has been given stays. -/

theorem find?_add_of_some (i : Imports) (source other : ImportRef) (name : String)
    (named : i.find? source = some name) : (i.add other).find? source = some name := by
  rcases i.add_cases other with ⟨_, same⟩ | ⟨_, grown⟩
  · rwa [same]
  · unfold find? at named ⊢
    obtain ⟨b, found, rfl⟩ := Option.map_eq_some_iff.mp named
    rw [grown, List.find?_append, found]
    rfl

theorem find?_steps_of_some (i : Imports) (steps : List Step) (source : ImportRef) (name : String)
    (named : i.find? source = some name) : (steps.foldl step i).find? source = some name := by
  induction steps generalizing i with
  | nil => exact named
  | cons first rest ih =>
      apply ih
      cases first with
      | reserve names => exact named
      | add other => exact i.find?_add_of_some source other name named

theorem find?_add_of_new (i : Imports) (source : ImportRef)
    (absent : source ∉ i.bindings.map ImportBinding.source) :
    (i.add source).find? source = some (freeName i.taken source.selector) := by
  rcases i.add_cases source with ⟨present, _⟩ | ⟨_, grown⟩
  · exact absurd present absent
  · have unbound := (i.find?_eq_none_iff source).mpr absent
    unfold find? at unbound ⊢
    rw [Option.map_eq_none_iff] at unbound
    rw [grown, List.find?_append, unbound]
    simp

theorem bindings_after (steps : List Step) :
    (after steps).bindings =
      (addedIn steps).eraseDups.map fun source => ⟨source, (after steps).nameOf source⟩ := by
  have own : ∀ b ∈ (after steps).bindings,
      (⟨b.source, (after steps).nameOf b.source⟩ : ImportBinding) = b := by
    intro b member
    rw [nameOf, find?_eq_some _ (nodup_sources_after steps) b member]
    rfl
  rw [← sources_after, List.map_map]
  exact ((List.map_congr_left own).trans (List.map_id _)).symm

theorem names_after (steps : List Step) :
    (after steps).bindings.map ImportBinding.name =
      (addedIn steps).eraseDups.map (after steps).nameOf := by
  conv_lhs => rw [bindings_after, List.map_map]
  rfl

/-- Added or not, a value goes by one of its candidates. -/
theorem nameOf_eq_candidate (steps : List Step) (source : ImportRef) :
    ∃ n, (after steps).nameOf source = candidate source.selector n := by
  have named : ∀ b ∈ (after steps).bindings, ∃ n, b.name = candidate b.source.selector n := by
    induction steps using steps_induction with
    | empty => exact fun _ member => absurd member List.not_mem_nil
    | reserve steps names ih =>
        rw [after_reserve]
        exact ih
    | add steps other ih =>
        rw [after_add]
        rcases (after steps).add_cases other with ⟨_, same⟩ | ⟨_, grown⟩
        · rw [same]
          exact ih
        · rw [grown]
          obtain ⟨n, _, isName, _⟩ := freeName_eq_candidate (after steps).taken other.selector
          intro b member
          rcases List.mem_append.mp member with old | new
          · exact ih b old
          · rw [List.mem_singleton.mp new]
            exact ⟨n, isName⟩
  rw [nameOf, find?]
  cases found : (after steps).bindings.find? (·.source = source) with
  | none => exact ⟨0, rfl⟩
  | some b =>
      obtain rfl : b.source = source := by simpa using List.find?_some found
      exact named b (List.mem_of_find?_eq_some found)

/-! The names by the steps alone. -/

/-- A name is taken if it is reserved or the name of a value that has been added. -/
def Taken (steps : List Step) (name : String) : Prop :=
  name ∈ reservedIn steps ∨ ∃ source ∈ addedIn steps, (after steps).nameOf source = name

theorem mem_taken_after (steps : List Step) (name : String) :
    name ∈ (after steps).taken ↔ Taken steps name := by
  rw [taken, List.mem_append, reserved_after, names_after, List.mem_map]
  simp only [List.mem_eraseDups, Taken]

/-- The name that a value with this selector gets when it is first added after these steps: its
selector if that is free, and else the selector with the least number that makes it free. -/
inductive FirstName (steps : List Step) (selector : String) : String → Prop
  | own (free : ¬ Taken steps selector) : FirstName steps selector selector
  | numbered (n : Nat) (positive : 1 ≤ n) (clash : Taken steps selector)
      (free : ¬ Taken steps (selector ++ "_" ++ toString n))
      (least : ∀ m, 1 ≤ m → m < n → Taken steps (selector ++ "_" ++ toString m)) :
      FirstName steps selector (selector ++ "_" ++ toString n)

theorem FirstName.free {steps : List Step} {selector name : String}
    (first : FirstName steps selector name) : ¬ Taken steps name := by
  cases first <;> assumption

theorem freeName_firstName (steps : List Step) (selector : String) :
    FirstName steps selector (freeName (after steps).taken selector) := by
  obtain ⟨n, _, named, free, least⟩ := freeName_eq_candidate (after steps).taken selector
  rw [named]
  simp only [mem_taken_after] at free least
  match n, free, least with
  | 0, free, _ => exact .own free
  | n + 1, free, least =>
      refine .numbered (n + 1) n.succ_pos (least 0 n.succ_pos) free ?_
      intro m positive below
      obtain ⟨m, rfl⟩ := Nat.exists_eq_succ_of_ne_zero (Nat.ne_of_gt positive)
      exact least (m + 1) below

/-- A value that is added for the first time gets its name then, whatever comes later. -/
theorem firstName_of_new (before rest : List Step) (source : ImportRef)
    (new : source ∉ addedIn before) :
    FirstName before source.selector ((after (before ++ .add source :: rest)).nameOf source) := by
  rw [← mem_sources_after] at new
  have given := (after before).find?_add_of_new source new
  have stays := find?_steps_of_some _ rest source _ given
  rw [nameOf, after_append, List.foldl_cons, step, stays, Option.getD_some]
  exact freeName_firstName before source.selector

theorem find?_of_added {steps : List Step} {source : ImportRef} (added : source ∈ addedIn steps) :
    (after steps).find? source = some ((after steps).nameOf source) := by
  rw [← mem_sources_after, List.mem_map] at added
  obtain ⟨b, member, rfl⟩ := added
  rw [nameOf, find?_eq_some _ (nodup_sources_after steps) b member]
  rfl

theorem nameOf_injOn_added {steps : List Step} {source other : ImportRef}
    (first : source ∈ addedIn steps) (second : other ∈ addedIn steps)
    (same : (after steps).nameOf source = (after steps).nameOf other) : source = other := by
  have distinct := nodup_names_after steps
  rw [names_after] at distinct
  exact List.inj_on_of_nodup_map distinct (List.mem_eraseDups.mpr first)
    (List.mem_eraseDups.mpr second) same

theorem render_after (steps : List Step) (format : ModuleFormat) :
    (after steps).render format =
      ((addedIn steps).map ImportRef.path).eraseDups.map fun path =>
        statement format path (((addedIn steps).eraseDups.filter (·.path = path)).map
          fun source => ⟨source, (after steps).nameOf source⟩) := by
  have inOrder : (after steps).paths = ((addedIn steps).map ImportRef.path).eraseDups := by
    rw [paths, bindings_after, List.map_map]
    exact eraseDups_map_eraseDups ImportRef.path (addedIn steps)
  have taken (path : String) : (after steps).bindings.filter (·.source.path = path) =
      ((addedIn steps).eraseDups.filter (·.path = path)).map
        fun source => ⟨source, (after steps).nameOf source⟩ := by
    conv_lhs => rw [bindings_after, List.filter_map]
    rfl
  rw [render, inOrder]
  exact List.map_congr_left fun path _ => congrArg (statement format path) (taken path)

/-- What a collector has after a row of requests, by the steps that these come to. -/
structure Collected (requests : List Request) (i : Imports) : Prop where
  distinct : ∀ source ∈ addedIn (history requests), ∀ other ∈ addedIn (history requests),
    i.nameOf source = i.nameOf other → source = other
  /-- The name is the one that the value got when it was first added. -/
  named : ∀ before source rest, history requests = before ++ .add source :: rest →
    source ∉ addedIn before → FirstName before source.selector (i.nameOf source)
  unreserved : ∀ before source rest, history requests = before ++ .add source :: rest →
    source ∉ addedIn before → i.nameOf source ∉ reservedIn before
  /-- Whatever is asked later, the name stays. -/
  kept : ∀ more : List Request, ∀ source ∈ addedIn (history requests),
    (answerAll (requests ++ more)).nameOf source = i.nameOf source
  repeated : ∀ source ∈ addedIn (history requests), i.add source = i
  /-- Modules, and the values from one module, stand in the order of first use. -/
  rendered : ∀ format, i.render format =
    ((addedIn (history requests)).map ImportRef.path).eraseDups.map fun path =>
      statement format path (((addedIn (history requests)).eraseDups.filter (·.path = path)).map
        fun source => ⟨source, i.nameOf source⟩)

theorem answerAll_collected (requests : List Request) :
    Collected requests (answerAll requests) := by
  rw [answerAll_eq_after]
  refine ⟨?distinct, ?named, ?unreserved, ?kept, ?repeated, render_after _⟩
  case distinct =>
    intro source first other second same
    exact nameOf_injOn_added first second same
  case named =>
    intro before source rest same new
    rw [same]
    exact firstName_of_new before rest source new
  case unreserved =>
    intro before source rest same new reserved
    rw [same] at reserved
    exact (firstName_of_new before rest source new).free (Or.inl reserved)
  case kept =>
    intro more source added
    rw [answerAll_eq_after, history, List.flatMap_append, after_append]
    have named := find?_steps_of_some _ (history more) source _ (find?_of_added added)
    exact congrArg (·.getD source.selector) named
  case repeated =>
    intro source added
    rw [← mem_sources_after] at added
    rcases (after (history requests)).add_cases source with ⟨_, same⟩ | ⟨absent, _⟩
    · exact same
    · exact absurd added absent

/-- Values of one name from three modules, one of which has a name like an alias. -/
def crowded : List Request :=
  [.add ⟨"a_1", "x"⟩, .reserve ["a"], .addAll [⟨"a", "y"⟩, ⟨"a_1", "y"⟩], .reserve ["a_3"],
    .add ⟨"a", "z"⟩, .add ⟨"a", "y"⟩]

theorem crowded_aliases :
    Collected crowded (answerAll crowded) ∧
      FirstName [.add ⟨"a_1", "x"⟩, .reserve ["a"]] "a" "a_2" ∧
      (answerAll crowded).render .esm =
        ["import \x7b a_1 \x7d from \"x\";", "import \x7b a as a_2, a_1 as a_1_1 \x7d from \"y\";",
          "import \x7b a as a_4 \x7d from \"z\";"] := by
  refine ⟨answerAll_collected crowded, ?_, by decide +kernel⟩
  exact (answerAll_collected crowded).named [.add ⟨"a_1", "x"⟩, .reserve ["a"]] ⟨"a", "y"⟩ _ rfl
    (by decide)

end Imports
end CallReplacement
