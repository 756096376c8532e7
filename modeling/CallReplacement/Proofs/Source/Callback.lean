import CallReplacement.Proofs.Source.Rebuild

/-!
What a callback sees while a tree is rebuilt. It takes one turn for each node, in post-order, and
each turn starts in the state that the one before has left. In the turn of a node it is passed that
node, where each child has given way to what came out of the turn of the child.
-/

namespace CallReplacement.SourceExpr

/-- One call of a callback: the node that it is made for, what is passed, and what comes out. -/
structure Turn where
  node : SourceExpr
  given : SourceExpr
  result : SourceExpr

/-- Whether a callback takes these turns, one after the other, on the way from a state to another. -/
inductive Takes {σ : Type} (f : SourceExpr → StateM σ SourceExpr) : σ → List Turn → σ → Prop
  | done {s} : Takes f s [] s
  | turn {s turn next turns final} : (f turn.given).run s = (turn.result, next) →
      Takes f next turns final → Takes f s (turn :: turns) final

/-- Whether these turns rebuild a tree to the result: first those that rebuild the children, one
child after the other, and then one for the tree itself, which is passed with the results in the
places of the children. -/
inductive Rebuilds : SourceExpr → List Turn → SourceExpr → Prop
  | node {e given result} {rows : List (List Turn × SourceExpr)} :
      List.Forall₂ (fun child row => Rebuilds child row.1 row.2) e.children rows →
      given.SameFields e → given.children = rows.map Prod.snd →
      Rebuilds e (rows.flatMap Prod.fst ++ [⟨e, given, result⟩]) result

namespace Rebuilds

/-- What passes from the turns for the children to those for the parent holds of all of them. -/
@[elab_as_elim]
theorem induction_turns {motive : SourceExpr → List Turn → SourceExpr → Prop}
    (node : ∀ {e given result} {rows : List (List Turn × SourceExpr)},
      List.Forall₂ (fun child row => motive child row.1 row.2) e.children rows →
      given.SameFields e → given.children = rows.map Prod.snd →
      motive e (rows.flatMap Prod.fst ++ [⟨e, given, result⟩]) result)
    {e : SourceExpr} {turns : List Turn} {result : SourceExpr}
    (rebuilds : Rebuilds e turns result) : motive e turns result := by
  induction e using induction_children generalizing turns result with
  | step e ih =>
    cases rebuilds with
    | node below fields parts =>
        have children := forall₂_of_mem below fun child member _ => ih child member
        exact node children fields parts

variable {e : SourceExpr} {turns : List Turn} {result : SourceExpr}

theorem map_node (rebuilds : Rebuilds e turns result) : turns.map Turn.node = e.postorder := by
  refine induction_turns ?_ rebuilds
  intro e given result rows below _ _
  have children : e.children.map postorder = rows.map fun row => row.1.map Turn.node :=
    map_eq_of_forall₂ (fun _ _ nodes => nodes.symm) below
  rw [postorder_eq, List.map_append, List.map_flatMap, List.flatMap_def, List.flatMap_def, children]
  rfl

-- What is not changed in any turn is put together again from the same children.
theorem unchanged (rebuilds : Rebuilds e turns result)
    (kept : ∀ turn ∈ turns, turn.result = turn.given) : result = e := by
  revert kept
  refine induction_turns ?_ rebuilds
  intro e given result rows below fields parts kept
  rw [List.forall_mem_append] at kept
  obtain ⟨inChildren, own⟩ := kept
  have same : rows.map Prod.snd = e.children := by
    generalize e.children = children at below
    clear parts
    induction below with
    | nil => rfl
    | cons head _ rest =>
        rw [List.flatMap_cons, List.forall_mem_append] at inChildren
        rw [List.map_cons, head inChildren.1, rest inChildren.2]
  calc result = given := own _ List.mem_cons_self
    _ = e := fields.eq_of_children (parts.trans same)

end Rebuilds

section
variable {σ : Type} {f : SourceExpr → StateM σ SourceExpr}

theorem Takes.append {s middle final : σ} {before after : List Turn}
    (first : Takes f s before middle) (second : Takes f middle after final) :
    Takes f s (before ++ after) final := by
  induction first with
  | done => exact second
  | turn called _ ih => exact .turn called (ih second)

theorem Takes.unchanged {s final : σ} {turns : List Turn} (takes : Takes f s turns final)
    (kept : ∀ given s, ((f given).run s).1 = given) :
    ∀ turn ∈ turns, turn.result = turn.given := by
  induction takes with
  | done => exact List.forall_mem_nil _
  | @turn s turn _ _ _ called _ ih =>
      refine List.forall_mem_cons.mpr ⟨?_, ih⟩
      have given := kept turn.given s
      rwa [called] at given

theorem run_bind_of_run {α β : Type} {x : StateM σ α} {a : α} {s next : σ}
    (run : x.run s = (a, next)) (g : α → StateM σ β) : (x >>= g).run s = (g a).run next := by
  rw [StateT.run_bind, run]
  rfl

-- One child after the other: the turns for each begin where those for the one before have ended.
theorem mapM_takes {exprs : List SourceExpr}
    (each : ∀ e ∈ exprs, ∀ s, ∃ turns result final, (e.rebuildM f).run s = (result, final) ∧
      Takes f s turns final ∧ Rebuilds e turns result) (s : σ) :
    ∃ (rows : List (List Turn × SourceExpr)) (final : σ),
      (exprs.mapM (rebuildM f)).run s = (rows.map Prod.snd, final) ∧
      Takes f s (rows.flatMap Prod.fst) final ∧
      List.Forall₂ (fun e row => Rebuilds e row.1 row.2) exprs rows := by
  induction exprs generalizing s with
  | nil => exact ⟨[], s, rfl, .done, .nil⟩
  | cons e rest ih =>
      obtain ⟨first, others⟩ := List.forall_mem_cons.mp each
      obtain ⟨turns, result, middle, run, takes, rebuilds⟩ := first s
      obtain ⟨rows, final, runs, more, all⟩ := ih others middle
      refine ⟨(turns, result) :: rows, final, ?_, takes.append more, .cons rebuilds all⟩
      rw [List.mapM_cons, run_bind_of_run run, run_bind_of_run runs]
      rfl

variable (f) in
theorem rebuildM_takes (e : SourceExpr) (s : σ) :
    ∃ turns result final, (e.rebuildM f).run s = (result, final) ∧
      Takes f s turns final ∧ Rebuilds e turns result := by
  induction e using induction_children generalizing s with
  | step e ih =>
    obtain ⟨rows, between, runs, takes, below⟩ := mapM_takes ih s
    have length : e.children.length = (rows.map Prod.snd).length := by
      rw [List.length_map, below.length_eq]
    cases called : (f (e.withChildren (rows.map Prod.snd))).run between with
    | mk result final =>
        have own : Takes f between [⟨e, e.withChildren (rows.map Prod.snd), result⟩] final :=
          .turn called .done
        refine ⟨_, result, final, ?_, takes.append own,
          .node below (.withChildren length) (children_withChildren length)⟩
        rw [rebuildM_eq, run_bind_of_run runs]
        exact called

end

theorem rebuild_id (e : SourceExpr) : e.rebuild id = e := by
  induction e using induction_children with
  | step e ih =>
    have parts : e.children.map (rebuild id) = e.children := by
      rw [List.map_congr_left ih, List.map_id']
    rw [rebuild_eq, parts]
    exact (SameFields.withChildren rfl).eq_of_children (children_withChildren rfl)

/-- A callback with a state takes exactly one turn for each node of the tree that it rebuilds, in
post-order, and is passed the node with its results for the children in their places. So a callback
that gives back what it is passed leaves the tree as it is. -/
theorem callback_takes_turns_in_postorder {σ : Type} (f : SourceExpr → StateM σ SourceExpr)
    (e : SourceExpr) (s : σ) :
    (∃ turns result final, (e.rebuildM f).run s = (result, final) ∧
      Takes f s turns final ∧ Rebuilds e turns result ∧
      turns.map Turn.node = e.postorder ∧ (turns.map Turn.node).Perm e.subterms ∧
      ((∀ given s, ((f given).run s).1 = given) → result = e)) ∧
    e.rebuild id = e := by
  obtain ⟨turns, result, final, run, takes, rebuilds⟩ := rebuildM_takes f e s
  have once : (turns.map Turn.node).Perm e.subterms := by
    rw [rebuilds.map_node]
    exact e.postorder_perm
  exact ⟨⟨turns, result, final, run, takes, rebuilds, rebuilds.map_node, once,
    fun kept => rebuilds.unchanged (takes.unchanged kept)⟩, e.rebuild_id⟩

end CallReplacement.SourceExpr
