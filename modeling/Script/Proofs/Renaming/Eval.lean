import Script.Proofs.Eval.Rewriting
import Script.Proofs.Renaming.Run

/-!
# Runs of two programs that differ in names

Evaluation goes step by step the same way in both runs: for expressions because their names mean the
same, for statements by recursion on the relation between them, and for calls by the depth to which
they nest. What a call of a renamed procedure does is the heart of it: its scope is the place where
one run knows a name as `old` and the other as `new`.
-/

namespace Script

open Run Renaming

variable {r : Renaming} {w : World} {inner : Bool} {scope : ScopeId} {call call' : Call}

/-- Calls of related functions compare, in all worlds. -/
def CallsRelate (r : Renaming) (call call' : Call) : Prop :=
  CallsCompare r.comparison (fun w function function' => function.Relates r w function') call call'

/-! ## Expressions -/

/-- An expression has the same value in both runs, if calls have. -/
theorem Expr.eval_relates (calls : CallsRelate r call call') (e : Expr)
    (side : w[scope]? = some inner) (fresh : r.Fresh inner e.names) :
    Compares r.comparison w same (e.eval call scope)
      ((e.rename (r.change inner)).eval call' scope) := by
  have looks : Looks r.comparison w scope (r.change inner) e.names :=
    fun w' name grows member => compares_lookup (side_mono grows side) (fresh.ne member)
  have evaluates : r.comparison.Evaluates _ call call' := ⟨r.faithful, calls⟩
  have compares : Compares r.comparison w same (e.eval call scope)
      (((e.rename (r.change inner)).relocate id).eval call' scope) :=
    e.eval_compares evaluates looks
  rwa [Expr.relocate_id] at compares

/-! ## Statements -/

mutual

/-- Related statements end with the same signal in both runs, if calls have the same values. -/
theorem Stmt.Relates.exec (calls : CallsRelate r call call') (rounds : Nat) {inner : Bool}
    {s s' : Stmt} : s.Relates r inner s' → ∀ {w : World} {scope : ScopeId},
      w[scope]? = some inner →
      Compares r.comparison w same (s.exec call rounds scope) (s'.exec call' rounds scope)
  | @Stmt.Relates.declare _ _ _ name constant value fresh, w, scope, side => by
    simp only [Stmt.exec]
    refine compares_in side
      (value.eval_relates calls side (fresh.mono (List.subset_cons_self _ _))) ?_
    intro w₁ x side
    exact compares_then (compares_define side (fresh.ne List.mem_cons_self) x constant)
      fun _ _ _ => compares_pure rfl
  | @Stmt.Relates.assign _ _ _ name value fresh, w, scope, side => by
    simp only [Stmt.exec]
    refine compares_in side
      (value.eval_relates calls side (fresh.mono (List.subset_cons_self _ _))) ?_
    intro w₁ x side
    exact compares_then (compares_assign side (fresh.ne List.mem_cons_self) x)
      fun _ _ _ => compares_pure rfl
  | @Stmt.Relates.assignMember _ _ _ object property value fresh, w, scope, side => by
    obtain ⟨freshObject, freshValue⟩ := Renaming.fresh_append.mp fresh
    simp only [Stmt.exec]
    refine compares_in side (object.eval_relates calls side freshObject) ?_
    intro w₁ target side
    refine compares_then (value.eval_relates calls side freshValue) ?_
    intro w₂ x _
    exact compares_then (r.faithful.writeMember (compares_pure rfl)) fun _ _ _ => compares_pure rfl
  | @Stmt.Relates.assignComputed _ _ _ object key value fresh, w, scope, side => by
    obtain ⟨before, freshValue⟩ := Renaming.fresh_append.mp fresh
    obtain ⟨freshObject, freshKey⟩ := Renaming.fresh_append.mp before
    simp only [Stmt.exec]
    refine compares_in side (object.eval_relates calls side freshObject) ?_
    intro w₁ target side
    refine compares_in side (value.eval_relates calls side freshValue) ?_
    intro w₂ x side
    refine compares_then (r.faithful.writeMember ?_) fun _ _ _ => compares_pure rfl
    refine compares_then (key.eval_relates calls side freshKey) ?_
    intro w₃ keyValue _
    exact r.faithful.display_bind keyValue fun _ => compares_pure rfl
  | @Stmt.Relates.procedure _ _ _ name parameters _ _ fresh unused bodies, w, scope, side => by
    have freshParameters := fresh.mono (List.subset_cons_self name parameters)
    simp only [Stmt.exec]
    refine compares_in side (compares_newFunction (.procedure side freshParameters bodies)) ?_
    intro w₁ function side
    -- the name of a procedure stays, so it must be none that changes
    have kept : r.change inner name = name := by
      cases inner with
      | false => rfl
      | true => exact Renaming.change_of_ne (unused rfl)
    have defined := compares_define side (fresh.ne List.mem_cons_self) function true
    rw [kept] at defined
    exact compares_then defined fun _ _ _ => compares_pure rfl
  | @Stmt.Relates.enter _ _ name _ _ _ old new bodies, w, scope, side => by
    simp only [Stmt.exec]
    refine compares_in side (compares_newFunction (.renamed old new bodies)) ?_
    intro w₁ function side
    have outside : false = true → name ≠ r.new := fun inside => by cases inside
    exact compares_then (compares_define side outside function true) fun _ _ _ => compares_pure rfl
  | @Stmt.Relates.returns _ _ _ value fresh, w, scope, side => by
    simp only [Stmt.exec]
    exact compares_then (value.eval_relates calls side fresh) fun _ _ _ => compares_pure rfl
  | .leave, _, _, _ | .proceed, _, _, _ => by
    simp only [Stmt.exec]
    exact compares_pure rfl
  | @Stmt.Relates.incase _ _ _ condition _ _ _ _ fresh bodies fallbacks, w, scope, side => by
    simp only [Stmt.exec]
    refine compares_in side (condition.eval_relates calls side fresh) ?_
    intro w₁ x side
    refine compares_in side (compares_truth .incase x) ?_
    intro w₂ holds side
    split
    · exact bodies.exec calls rounds .zero side
    · exact fallbacks.exec calls rounds side
  | @Stmt.Relates.drift _ _ _ _ _ condition _ _ _ _ inits fresh updates bodies, w, scope, side => by
    simp only [Stmt.exec]
    refine compares_bind (compares_openScope side) ?_
    rintro w₁ _ frame _ ⟨rfl, side⟩
    refine compares_in side (inits.exec calls rounds side) ?_
    intro w₂ _ side
    -- the loop goes on in the new scope, whatever worlds its rounds lead to
    refine compares_countingLoop (.refl _ _) ?_ ?_ ?_
    · intro w' grows
      exact compares_then (condition.eval_relates calls (side_mono grows side) fresh)
        fun _ _ _ => compares_pure rfl
    · intro w' grows
      exact bodies.exec calls rounds .zero (side_mono grows side)
    · intro w' grows
      exact compares_then (updates.exec calls rounds (side_mono grows side))
        fun _ _ _ => compares_pure rfl
  | @Stmt.Relates.through _ _ _ name constant iterable _ _ fresh bodies, w, scope, side => by
    simp only [Stmt.exec]
    refine compares_in side
      (iterable.eval_relates calls side (fresh.mono (List.subset_cons_self _ _))) ?_
    intro w₁ x side
    cases x with
    | array id =>
      have elements {w' store store'} (related : r.comparison.Stores w' store store') :
          store'.elements id = store.elements id := (r.faithful.contents related).elements id
      refine compares_throughLoop (.refl _ _) elements (fun w' element grows => ?_) 0
      refine compares_bind (compares_openScope (side_mono grows side)) ?_
      rintro w₂ _ frame _ ⟨rfl, side⟩
      refine compares_in side
        (compares_define side (fresh.ne List.mem_cons_self) element constant) ?_
      intro w₃ _ side
      exact bodies.exec calls rounds .zero side
    | _ => exact compares_throw _
  | @Stmt.Relates.expression _ _ value fresh, w, scope, side => by
    simp only [Stmt.exec]
    exact compares_then (value.eval_relates calls side fresh) fun _ _ _ => compares_pure rfl

theorem Fallback.Relates.exec (calls : CallsRelate r call call') (rounds : Nat) {inner : Bool}
    {fallback fallback' : Fallback} : fallback.Relates r inner fallback' →
    ∀ {w : World} {scope : ScopeId}, w[scope]? = some inner →
      Compares r.comparison w same (fallback.exec call rounds scope)
        (fallback'.exec call' rounds scope)
  | .nothing, _, _, _ => by
    simp only [Fallback.exec]
    exact compares_pure rfl
  | .block bodies, _, _, side => by
    simp only [Fallback.exec]
    exact bodies.exec calls rounds .zero side
  | @Fallback.Relates.elif _ _ _ condition _ _ _ _ fresh bodies fallbacks, w, scope, side => by
    simp only [Fallback.exec]
    refine compares_in side (condition.eval_relates calls side fresh) ?_
    intro w₁ x side
    refine compares_in side (compares_truth .elif x) ?_
    intro w₂ holds side
    split
    · exact bodies.exec calls rounds .zero side
    · exact fallbacks.exec calls rounds side

theorem BlockRelates.exec (calls : CallsRelate r call call') (rounds : Nat) {inner : Bool}
    {body body' : List Stmt} (last : Value) : BlockRelates r inner body body' →
    ∀ {w : World} {scope : ScopeId}, w[scope]? = some inner →
      Compares r.comparison w same (execBlock call rounds scope last body)
        (execBlock call' rounds scope last body')
  | .nil, _, _, _ => by
    simp only [execBlock]
    exact compares_pure rfl
  | .cons head tail, _, _, side => by
    simp only [execBlock]
    refine compares_in side (head.exec calls rounds side) ?_
    intro w₁ signal side
    cases signal with
    | normal value => exact tail.exec calls rounds value side
    | _ => exact compares_pure rfl

end

/-! ## Calls -/

/-- Calls of related functions compare, however deep they may nest. -/
theorem invoke_relates (rounds depth : Nat) :
    CallsRelate r (invoke rounds depth) (invoke rounds depth) := by
  induction depth using Nat.strongRecOn with
  | ind depth ih =>
    intro w function function' arguments related
    -- a body runs, one call deeper, in the scope that was opened on its side
    have runs : ∀ {inner} {body body' : List Stmt}, BlockRelates r inner body body' →
        ∀ less fewer, depth = less + 1 → depth = fewer + 1 → Narrower False less fewer →
        ∀ w' frame frame', OpenedIn inner w' frame frame' → Compares r.comparison w' same
          (execBlock (invoke rounds less) rounds frame .zero body)
          (execBlock (invoke rounds fewer) rounds frame' .zero body') := by
      rintro inner body body' bodies less fewer isNext isNext' _ w' _ frame ⟨rfl, side⟩
      obtain rfl : fewer = less := Nat.succ.inj (isNext'.symm.trans isNext)
      exact bodies.exec (ih fewer (isNext ▸ Nat.lt_succ_self fewer)) rounds .zero side
    cases related with
    | builtin =>
      unfold invoke
      exact r.faithful.builtin _ _
    | procedure side fresh related =>
      exact compares_procedure (.refl _ _) (List.length_map _)
        (fun _ => compares_enter side fresh arguments) (runs related)
    | renamed old new related =>
      -- here the runs part: the new scope lies inside, wherever the procedure was declared
      exact compares_procedure (.refl _ _) (List.length_map _)
        (fun count => compares_enter_renamed _ old new count) (runs related)

end Script
