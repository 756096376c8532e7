import CallReplacement.Proofs.JavaScript.Grammar

/-!
Phrases that consist of member accesses and argument lists behind one primary expression, with
some `new` before it. An argument list belongs to the innermost `new` that has none yet, and is
a plain call if there is none; so the tree of such a phrase depends on how many `new` stand
before it.
-/

namespace CallReplacement.JavaScript

inductive Suffix
  | field (name : String)
  | index (key : Tree)
  | args (parts : List Tree)
deriving Repr

structure Spine where
  /-- The number of `new` at the front. -/
  news : Nat
  base : Tree
  suffixes : List Suffix
deriving Repr

/-- A phrase before which some `new` still wait for arguments, with one more suffix. -/
def Suffix.onto : Nat × Tree → Suffix → Nat × Tree
  | (waiting, t), .field name => (waiting, .field t name)
  | (waiting, t), .index key => (waiting, .index t key)
  | (0, t), .args parts => (0, .call t parts)
  | (waiting + 1, t), .args parts => (waiting, .construct t parts)

def Suffix.isArgs : Suffix → Bool
  | .args _ => true
  | _ => false

namespace Spine

def tree (s : Spine) : Tree := (s.suffixes.foldl Suffix.onto (s.news, s.base)).2

/-- A primary expression on its own. -/
def ofTree (t : Tree) : Spine := ⟨0, t, []⟩

/-- The phrase with one more suffix. -/
def before (s : Spine) (suffix : Suffix) : Spine := { s with suffixes := s.suffixes ++ [suffix] }

/-- The phrase with one more `new`. -/
def renewed (s : Spine) : Spine := { s with news := s.news + 1 }

theorem tree_before (s : Spine) (suffix : Suffix) :
    (s.before suffix).tree =
      (suffix.onto (s.suffixes.foldl Suffix.onto (s.news, s.base))).2 := by
  simp [tree, before]

theorem tree_before_field (s : Spine) (name : String) :
    (s.before (.field name)).tree = .field s.tree name := by
  rw [tree_before]
  rfl

theorem tree_before_index (s : Spine) (key : Tree) :
    (s.before (.index key)).tree = .index s.tree key := by
  rw [tree_before]
  rfl

/-- Whether each `new` has arguments. -/
def Balanced (s : Spine) : Prop := s.news ≤ s.suffixes.countP Suffix.isArgs

theorem balanced_ofTree (t : Tree) : (ofTree t).Balanced := Nat.zero_le _

theorem Balanced.before {s : Spine} (balanced : s.Balanced) (suffix : Suffix) :
    (s.before suffix).Balanced := by
  simp only [Balanced, Spine.before, List.countP_append] at *
  omega

theorem Balanced.construct {s : Spine} (balanced : s.Balanced) (parts : List Tree) :
    (s.renewed.before (.args parts)).Balanced := by
  simp only [Balanced, Spine.before, renewed, List.countP_append] at *
  simp [Suffix.isArgs, balanced]

-- Each argument list serves one `new`, as long as one waits.
theorem waiting_foldl (suffixes : List Suffix) (waiting : Nat) (t : Tree) :
    (suffixes.foldl Suffix.onto (waiting, t)).1 = waiting - suffixes.countP Suffix.isArgs := by
  induction suffixes generalizing waiting t with
  | nil => rfl
  | cons suffix others ih =>
      cases suffix with
      | field name => simpa [Suffix.onto, Suffix.isArgs] using ih waiting _
      | index key => simpa [Suffix.onto, Suffix.isArgs] using ih waiting _
      | args parts =>
          cases waiting with
          | zero => simpa [Suffix.onto, Suffix.isArgs] using ih 0 _
          | succ waiting =>
              have rest := ih waiting (.construct t parts)
              simp only [List.foldl_cons, Suffix.onto, rest, List.countP_cons, Suffix.isArgs,
                if_true]
              omega

theorem tree_before_args {s : Spine} (balanced : s.Balanced) (parts : List Tree) :
    (s.before (.args parts)).tree = .call s.tree parts := by
  have none := waiting_foldl s.suffixes s.news s.base
  rw [Nat.sub_eq_zero_of_le balanced] at none
  rw [tree_before, tree]
  generalize s.suffixes.foldl Suffix.onto (s.news, s.base) = phrase at none ⊢
  obtain ⟨waiting, t⟩ := phrase
  cases none
  rfl

end Spine

inductive ReadsSuffix : Suffix → List Token → Prop
  | field {word name} : Token.word? word = some name → ReadsSuffix (.field name) [.mark .dot, word]
  | index {ks k} : Reads .comma ks k →
      ReadsSuffix (.index k) (.mark .openBracket :: (ks ++ [.mark .closeBracket]))
  | args (parts : List Part) : (∀ p ∈ parts, Reads .assign p.tokens p.tree) →
      ReadsSuffix (.args (parts.map Part.tree)) (argumentTokens parts)

inductive ReadsSuffixes : List Suffix → List Token → Prop
  | nil : ReadsSuffixes [] []
  | cons {suffix others ts us} : ReadsSuffix suffix ts → ReadsSuffixes others us →
      ReadsSuffixes (suffix :: others) (ts ++ us)

theorem ReadsSuffixes.before {suffixes : List Suffix} {suffix : Suffix} {ts us : List Token}
    (reads : ReadsSuffixes suffixes ts) (last : ReadsSuffix suffix us) :
    ReadsSuffixes (suffixes ++ [suffix]) (ts ++ us) := by
  induction reads with
  | nil => simpa using ReadsSuffixes.cons last .nil
  | cons head _ ih =>
      rw [List.append_assoc]
      exact .cons head ih

/-- Whether the tokens are the phrase. Each `new` has arguments. -/
structure Spine.Reads (s : Spine) (ts : List Token) : Prop where
  parts : ∃ base suffixes, JavaScript.Reads .primary base s.base ∧
    ReadsSuffixes s.suffixes suffixes ∧
    ts = List.replicate s.news (.keyword "new") ++ (base ++ suffixes)
  balanced : s.Balanced

section
variable {s : Spine} {ts us : List Token}

/-- What may go on once some `new` wait for arguments: with none of them, also a call. -/
def waitingLevel : Nat → Level
  | 0 => .call
  | _ + 1 => .member

theorem waitingLevel_chain (waiting : Nat) :
    waitingLevel waiting = .call ∨ waitingLevel waiting = .member := by
  cases waiting with
  | zero => exact .inl rfl
  | succ waiting => exact .inr rfl

-- By induction on the suffixes: what has been read so far is a phrase, and each argument list
-- completes the innermost `new` that waits.
theorem reads_suffixes {suffixes : List Suffix} (reads : ReadsSuffixes suffixes us) {waiting : Nat}
    {t : Tree} (start : Reads (waitingLevel waiting) ts t)
    (balanced : waiting ≤ suffixes.countP Suffix.isArgs) :
    Reads .call (List.replicate waiting (.keyword "new") ++ (ts ++ us))
      (suffixes.foldl Suffix.onto (waiting, t)).2 := by
  induction reads generalizing waiting ts t with
  | nil =>
      obtain rfl : waiting = 0 := by simpa using balanced
      simpa [waitingLevel] using start
  | @cons suffix others us more head _ ih =>
      have chain := waitingLevel_chain waiting
      rw [← List.append_assoc ts]
      cases head with
      | field isWord =>
          exact ih (.field chain start isWord) (by simpa [Suffix.isArgs] using balanced)
      | index key =>
          exact ih (.index chain start key) (by simpa [Suffix.isArgs] using balanced)
      | args parts each =>
          cases waiting with
          | zero => exact ih (.call parts start each) (Nat.zero_le _)
          | succ waiting =>
              have built := Reads.construct parts start each
              have loose : Reads (waitingLevel waiting) _ _ :=
                built.loosen (by cases waiting <;> simp [waitingLevel, Level.rank])
              have fewer : waiting ≤ others.countP Suffix.isArgs := by
                simpa [List.countP_cons, Suffix.isArgs] using balanced
              have rest := ih loose fewer
              simpa [Suffix.onto, List.replicate_succ', List.append_assoc] using rest

theorem Spine.Reads.call (reads : s.Reads ts) : JavaScript.Reads .call ts s.tree := by
  obtain ⟨⟨base, suffixes, start, follow, rfl⟩, balanced⟩ := reads
  have loose : JavaScript.Reads (waitingLevel s.news) base s.base := by
    apply start.loosen
    rcases waitingLevel_chain s.news with level | level <;> rw [level] <;> decide
  exact reads_suffixes follow loose balanced

theorem reads_ofTree {t : Tree} (reads : Reads .primary ts t) : (Spine.ofTree t).Reads ts where
  parts := ⟨ts, [], reads, .nil, by simp [Spine.ofTree]⟩
  balanced := Nat.zero_le _

theorem Spine.Reads.before {suffix : Suffix} (reads : s.Reads ts)
    (last : ReadsSuffix suffix us) : (s.before suffix).Reads (ts ++ us) where
  parts := by
    obtain ⟨base, suffixes, start, follow, rfl⟩ := reads.parts
    exact ⟨base, suffixes ++ us, start, follow.before last, by simp [Spine.before]⟩
  balanced := reads.balanced.before suffix

-- A construction: one more `new` in front and its arguments behind.
theorem Spine.Reads.construct (parts : List Part) (reads : s.Reads ts)
    (each : ∀ p ∈ parts, JavaScript.Reads .assign p.tokens p.tree) :
    (s.renewed.before (.args (parts.map Part.tree))).Reads
      (.keyword "new" :: (ts ++ argumentTokens parts)) where
  parts := by
    obtain ⟨base, suffixes, start, follow, rfl⟩ := reads.parts
    refine ⟨base, suffixes ++ argumentTokens parts, start, follow.before (.args parts each), ?_⟩
    simp [Spine.before, Spine.renewed, List.replicate_succ, List.append_assoc]
  balanced := reads.balanced.construct _

end
end CallReplacement.JavaScript
