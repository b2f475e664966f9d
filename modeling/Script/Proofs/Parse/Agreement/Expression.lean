import Script.Proofs.Parse.Agreement

/-!
# Expressions in two token lists

Every parser of expressions does the same in two lists that look alike, takes at least one token if
it succeeds, and never runs out of rounds or depth: each round of a loop and each nesting takes a
token, so the tokens in sight bound both.

* `agrees_expression`: an expression, read anywhere in a scene.
-/

namespace Script.Parse.Scene

variable {shift : Position → Position} {list other : TokenList} {scene : Scene shift list other}
  {bound : Nat} {nested twin : Parse Expr}

/-- Nested expressions are read alike wherever fewer tokens are in sight than a bound. -/
def ReadsBelow (shift : Position → Position) (list other : TokenList) (bound : Nat)
    (nested twin : Parse Expr) : Prop :=
  ∀ scene : Scene shift list other, scene.room < bound →
    scene.Agrees (.expressions shift) 1 nested twin

/-- A kind of token that some parser looks for is no end of input. -/
theorem goesOn_of_kind {kind : Kind} (found : scene.token.kind = kind)
    (noEnd : kind ≠ .endOfInput) : scene.token.kind ≠ .endOfInput := found ▸ noEnd

/-! ## Primaries -/

theorem agrees_property (reads : ReadsBelow shift list other bound nested twin)
    (short : scene.room < bound) :
    scene.Agrees (Motion.expressions shift).entry 1 (property nested) (property twin) := by
  refine agrees_first (agrees_expect (by decide) _) fun key later room _ => ?_
  refine agrees_second (agrees_expect (by decide) _) fun _ later room _ => ?_
  refine agrees_second (reads later (by omega)) fun value _ _ _ => ?_
  exact agrees_pure rfl trivial

theorem agrees_arguments (reads : ReadsBelow shift list other bound nested twin)
    (short : scene.room < bound) :
    scene.Agrees (Motion.expressions shift).list 1 (arguments nested) (arguments twin) :=
  agrees_commaList reads short _ _

/-- A primary is read alike if expressions are, wherever fewer tokens are in sight. -/
theorem agrees_primary (reads : ReadsBelow shift list other bound nested twin)
    (short : scene.room < bound + 1) :
    scene.Agrees (.expressions shift) 1 (primary nested) (primary twin) := by
  refine agrees_current_bind ?_
  generalize here : scene.token = token
  obtain ⟨kind, text, position⟩ := token
  have literal : ∀ e : Expr, kind ≠ .endOfInput →
      (e.relocate shift).position = shift e.position →
      scene.Agrees (.expressions shift) 1 (advance >>= fun _ => pure e)
        (advance >>= fun _ => pure (e.relocate shift)) := by
    intro e noEnd placed
    refine agrees_first (agrees_advance (by rw [here]; exact noEnd)) fun _ _ _ _ => ?_
    exact agrees_pure rfl placed
  dsimp only [Token.relocate]
  split
  · exact literal (.number position (Numeral.value text)) (by simp) rfl
  · exact literal (.string position text) (by simp) rfl
  · exact literal (.boolean position true) (by simp) rfl
  · exact literal (.boolean position false) (by simp) rfl
  · exact literal (.null position) (by simp) rfl
  · exact literal (.null position) (by simp) rfl
  · exact literal (.nan position) (by simp) rfl
  · exact literal (.identifier position text) (by simp) rfl
  · refine agrees_first (agrees_advance (by rw [here]; simp)) fun _ later room _ => ?_
    refine agrees_second (agrees_commaList reads (by omega) _ _) fun elements _ _ _ => ?_
    refine agrees_pure ?_ rfl
    exact congrArg (Expr.array _) (relocateElements_eq_map ..).symm
  · refine agrees_first (agrees_advance (by rw [here]; simp)) fun _ later room _ => ?_
    have entries : ∀ scene : Scene shift list other, scene.room < bound →
        scene.Agrees (Motion.expressions shift).entry 1 (property nested) (property twin) :=
      fun scene short => agrees_property reads short
    refine agrees_second (agrees_commaList entries (by omega) _ _) fun properties _ _ _ => ?_
    refine agrees_pure ?_ rfl
    exact congrArg (Expr.object _) (relocateProperties_eq_map ..).symm
  · refine agrees_first (agrees_advance (by rw [here]; simp)) fun _ later room _ => ?_
    refine agrees_second (reads later (by omega)) fun inner last _ placed => ?_
    refine agrees_second (agrees_expect (by decide) _) fun _ _ _ _ => ?_
    exact agrees_pure rfl placed
  · exact agrees_throw .unexpected

/-! ## Chains -/

/-- A link behind an expression is read in both lists or in none. -/
theorem agrees_link_bind {α : Type} {motion : Motion α} {progress : Nat}
    (reads : ReadsBelow shift list other bound nested twin) (short : scene.room < bound + 1)
    {inner : Expr} (placed : (Motion.expressions shift).placed inner)
    {next further : Option Expr → Parse α}
    (taken : ∀ (outer : Expr) (later : Scene shift list other), later.room + 1 ≤ scene.room →
      (Motion.expressions shift).placed outer →
      later.Agrees motion progress (next (some outer)) (further (some (outer.relocate shift))))
    (left : scene.Agrees motion progress (next none) (further none)) :
    scene.Agrees motion progress (link nested inner >>= next)
      (link twin (inner.relocate shift) >>= further) := by
  unfold link
  simp only [bind_assoc]
  refine agrees_currentKind_bind ?_
  have position : (inner.relocate shift).position = shift inner.position := placed
  split
  -- the new node has the position of the expression before it
  · rename_i found
    simp only [bind_assoc, pure_bind]
    refine agrees_second (agrees_advance (goesOn_of_kind found (by decide)))
      fun _ later room _ => ?_
    refine agrees_second (agrees_expect (by decide) _) fun name last roomBehind _ => ?_
    rw [position]
    exact taken (.member inner.position inner name.text) last (by omega) rfl
  · rename_i found
    simp only [bind_assoc, pure_bind]
    refine agrees_second (agrees_advance (goesOn_of_kind found (by decide)))
      fun _ later room _ => ?_
    refine agrees_second (reads later (by omega)) fun key last roomBehind _ => ?_
    rw [position]
    exact taken (.computed inner.position inner key) last (by omega) rfl
  · rename_i found
    simp only [bind_assoc, pure_bind]
    refine agrees_second (agrees_advance (goesOn_of_kind found (by decide)))
      fun _ later room _ => ?_
    refine agrees_second (reads later (by omega)) fun key last roomBehind _ => ?_
    refine agrees_second (agrees_expect (by decide) _) fun _ final roomAtEnd _ => ?_
    rw [position]
    exact taken (.computed inner.position inner key) final (by omega) rfl
  · rename_i found
    simp only [bind_assoc, pure_bind]
    refine agrees_second (agrees_advance (goesOn_of_kind found (by decide)))
      fun _ later room _ => ?_
    refine agrees_second (agrees_arguments reads (by omega)) fun values last roomBehind _ => ?_
    have made := taken (.call inner.position inner values) last (by omega) rfl
    rw [Expr.relocate, relocateElements_eq_map] at made
    rw [position]
    exact made
  · simp only [pure_bind]
    exact left

/-- The links behind an expression are read alike, however many rounds each side has left beyond
those that the tokens in sight allow. -/
theorem agrees_links (reads : ReadsBelow shift list other bound nested twin) {rounds more : Nat}
    (enough : scene.room < rounds) (enoughOther : scene.room < more)
    (short : scene.room < bound + 1) {inner : Expr}
    (placed : (Motion.expressions shift).placed inner) :
    scene.Agrees (.expressions shift) 0 (links nested rounds inner)
      (links twin more (inner.relocate shift)) := by
  revert short inner
  refine rounds_of_room (P := fun rounds more scene => scene.room < bound + 1 → ∀ {inner : Expr},
    (Motion.expressions shift).placed inner → scene.Agrees (.expressions shift) 0
      (links nested rounds inner) (links twin more (inner.relocate shift)))
    (fun rounds more scene ih short inner placed => ?_) enough enoughOther
  unfold links
  refine agrees_link_bind reads short placed (fun outer later room placedOuter => ?_) ?_
  · exact ih later room (by omega) placedOuter
  · exact agrees_pure rfl placed

theorem agrees_chain (reads : ReadsBelow shift list other bound nested twin)
    (short : scene.room < bound + 1) :
    scene.Agrees (.expressions shift) 1 (chain nested) (chain twin) := by
  refine agrees_budget_bind fun rounds more enough enoughOther => ?_
  refine agrees_first (agrees_primary reads short) fun inner later room placed => ?_
  exact agrees_links reads (by omega) (by omega) (by omega) placed

/-! ## Operators -/

theorem agrees_unaryUpTo (reads : ReadsBelow shift list other bound nested twin) {rounds more : Nat}
    (enough : scene.room < rounds) (enoughOther : scene.room < more)
    (short : scene.room < bound + 1) :
    scene.Agrees (.expressions shift) 1 (unaryUpTo nested rounds) (unaryUpTo twin more) := by
  revert short
  refine rounds_of_room (P := fun rounds more scene => scene.room < bound + 1 →
    scene.Agrees (.expressions shift) 1 (unaryUpTo nested rounds) (unaryUpTo twin more))
    (fun rounds more scene ih short => ?_) enough enoughOther
  refine agrees_current_bind ?_
  cases found : unaryOperator? scene.token.kind with
  | none =>
    have foundOther : unaryOperator? (scene.token.relocate shift).kind = none := found
    simp only [foundOther]
    exact agrees_chain reads short
  | some operator =>
    have foundOther : unaryOperator? (scene.token.relocate shift).kind = some operator := found
    have goesOn : scene.token.kind ≠ .endOfInput := by
      intro ended
      rw [ended] at found
      cases found
    simp only [foundOther]
    refine agrees_first (agrees_advance goesOn) fun _ later room _ => ?_
    refine agrees_second (ih later room (by omega)) fun operand _ _ _ => ?_
    exact agrees_pure rfl rfl

theorem agrees_unary (reads : ReadsBelow shift list other bound nested twin)
    (short : scene.room < bound + 1) :
    scene.Agrees (.expressions shift) 1 (unary nested) (unary twin) :=
  agrees_budget_bind fun _ _ enough enoughOther => agrees_unaryUpTo reads enough enoughOther short

/-- The operators of a level are read alike if its operands are. -/
theorem agrees_operators {level : Level} {operand twinOperand : Parse Expr}
    (reads : ReadsBelow shift list other bound operand twinOperand) {rounds more : Nat}
    (enough : scene.room < rounds) (enoughOther : scene.room < more) (short : scene.room < bound)
    {left : Expr} (placed : (Motion.expressions shift).placed left) :
    scene.Agrees (.expressions shift) 0 (operators level operand rounds left)
      (operators level twinOperand more (left.relocate shift)) := by
  revert short left
  refine rounds_of_room (P := fun rounds more scene => scene.room < bound → ∀ {left : Expr},
    (Motion.expressions shift).placed left → scene.Agrees (.expressions shift) 0
      (operators level operand rounds left)
      (operators level twinOperand more (left.relocate shift)))
    (fun rounds more scene ih short left placed => ?_) enough enoughOther
  have position : (left.relocate shift).position = shift left.position := placed
  unfold operators
  refine agrees_currentKind_bind ?_
  cases found : level.operator? scene.token.kind with
  | none => exact agrees_pure rfl placed
  | some operator =>
    have goesOn : scene.token.kind ≠ .endOfInput := by
      intro ended
      rw [ended] at found
      cases found
    refine agrees_second (agrees_advance goesOn) fun _ later room _ => ?_
    refine agrees_second (reads later (by omega)) fun right last roomBehind _ => ?_
    rw [position]
    have placedOuter : (Motion.expressions shift).placed
        (.binary left.position operator left right) := rfl
    exact ih last (by omega) (by omega) placedOuter

theorem agrees_binary (reads : ReadsBelow shift list other bound nested twin)
    (levels : List Level) (short : scene.room < bound + 1) :
    scene.Agrees (.expressions shift) 1 (binary nested levels) (binary twin levels) := by
  induction levels generalizing scene with
  | nil => exact agrees_unary reads short
  | cons level tighter ih =>
    refine agrees_first (ih short) fun left later room placed => ?_
    refine agrees_budget_bind fun rounds more enough enoughOther => ?_
    exact agrees_operators (fun scene short => ih short) enough enoughOther (by omega) placed

/-! ## Expressions -/

/-- Nested expressions are read alike to every depth that the tokens in sight do not
exhaust. -/
theorem agrees_expressionUpTo {depth more : Nat} (enough : scene.room < depth)
    (enoughOther : scene.room < more) :
    scene.Agrees (.expressions shift) 1 (expressionUpTo depth) (expressionUpTo more) := by
  -- by induction on the first depth; the scene and the other depth change with it
  induction depth generalizing more scene with
  | zero => omega
  | succ depth ih =>
    cases more with
    | zero => omega
    | succ more =>
      -- nested expressions have to be read with the smaller of the two depths left
      have reads : ReadsBelow shift list other (min depth more) (expressionUpTo depth)
          (expressionUpTo more) := fun scene short => ih (by omega) (by omega)
      exact agrees_binary reads levels (by omega)

/-- An expression is read alike in two lists that look alike. -/
theorem agrees_expression : scene.Agrees (.expressions shift) 1 expression expression :=
  agrees_budget_bind fun _ _ enough enoughOther => agrees_expressionUpTo enough enoughOther

end Script.Parse.Scene
