import Script.Proofs.Renaming

/-!
# Trees inside and outside renamed procedures

`Stmt.Relates r inner` relates a statement to what a renaming makes of it: all its variables are
renamed if it lies inside a renamed procedure (`inner`), and else only those inside the procedures
that are renamed, of which there may be any number. It is what two runs that differ in names only
have in common, so it is about every statement that they execute.

* `BlockRenamed.relates`: blocks of which one procedure is renamed are related.
-/

namespace Script

namespace Renaming

variable {r : Renaming} {inner : Bool} {name other : String} {names more : List String}

/-- How names change on either side: inside a renamed procedure the old name becomes the new
one. -/
def change (r : Renaming) (inner : Bool) : String → String := if inner then r.apply else id

@[simp]
theorem change_false : r.change false = id := rfl

@[simp]
theorem change_true : r.change true = r.apply := rfl

/-- Inside a renamed procedure, the new name is none of some names. -/
def Fresh (r : Renaming) (inner : Bool) (names : List String) : Prop :=
  inner = true → r.new ∉ names

/-- Outside all renamed procedures every name is fresh. -/
theorem Fresh.outer : r.Fresh false names := by
  intro inside
  cases inside

theorem Fresh.mono (fresh : r.Fresh inner names) (subset : more ⊆ names) : r.Fresh inner more :=
  fun inside member => fresh inside (subset member)

theorem Fresh.ne (fresh : r.Fresh inner names) (member : name ∈ names) :
    inner = true → name ≠ r.new := by
  rintro inside rfl
  exact fresh inside member

theorem fresh_append :
    r.Fresh inner (names ++ more) ↔ r.Fresh inner names ∧ r.Fresh inner more := by
  constructor
  · intro fresh
    exact ⟨fresh.mono (List.subset_append_left _ _), fresh.mono (List.subset_append_right _ _)⟩
  · rintro ⟨first, second⟩ inside member
    rcases List.mem_append.mp member with left | right
    · exact first inside left
    · exact second inside right

/-- Different names stay different, the new one apart. -/
theorem change_inj (first : inner = true → name ≠ r.new) (second : inner = true → other ≠ r.new)
    (same : r.change inner name = r.change inner other) : name = other := by
  cases inner with
  | false => exact same
  | true =>
    have first := first rfl
    have second := second rfl
    simp only [change_true, apply] at same
    split at same <;> split at same <;> rename_i one another
    · rw [one, another]
    · exact absurd same.symm second
    · exact absurd same first
    · exact same

/-- Only the old name changes. -/
theorem change_of_ne (different : name ≠ r.old) : r.change inner name = name := by
  cases inner with
  | false => rfl
  | true => exact if_neg different

end Renaming

/-! ## Renaming nothing -/

mutual

theorem Expr.rename_id : ∀ e : Expr, e.rename id = e
  | .number _ _ | .string _ _ | .boolean _ _ | .null _ | .nan _ | .identifier _ _
  | .foreign _ _ => by simp [Expr.rename]
  | .array _ elements => by simp [Expr.rename, renameElements_id elements]
  | .object _ properties => by simp [Expr.rename, renameProperties_id properties]
  | .binary _ _ left right => by simp [Expr.rename, left.rename_id, right.rename_id]
  | .unary _ _ operand => by simp [Expr.rename, operand.rename_id]
  | .member _ object _ => by simp [Expr.rename, object.rename_id]
  | .computed _ object key => by simp [Expr.rename, object.rename_id, key.rename_id]
  | .call _ callee arguments => by
    simp [Expr.rename, callee.rename_id, renameElements_id arguments]

theorem renameElements_id : ∀ elements : List Expr, renameElements id elements = elements
  | [] => rfl
  | e :: rest => by simp [renameElements, e.rename_id, renameElements_id rest]

theorem renameProperties_id : ∀ properties : List (String × Expr),
    renameProperties id properties = properties
  | [] => rfl
  | (key, e) :: rest => by simp [renameProperties, e.rename_id, renameProperties_id rest]

end

mutual

theorem Stmt.rename_id : ∀ s : Stmt, s.rename id = s
  | .declare _ _ _ value | .assign _ _ value | .returns _ value | .expression value => by
    simp [Stmt.rename, value.rename_id]
  | .assignMember _ object _ value => by simp [Stmt.rename, object.rename_id, value.rename_id]
  | .assignComputed _ object key value => by
    simp [Stmt.rename, object.rename_id, key.rename_id, value.rename_id]
  | .procedure _ _ _ body => by simp [Stmt.rename, renameBlock_id body]
  | .leave _ | .proceed _ => rfl
  | .incase _ condition body fallback => by
    simp [Stmt.rename, condition.rename_id, renameBlock_id body, fallback.rename_id]
  | .drift _ init condition update body => by
    simp [Stmt.rename, init.rename_id, condition.rename_id, update.rename_id, renameBlock_id body]
  | .through _ _ _ iterable body => by
    simp [Stmt.rename, iterable.rename_id, renameBlock_id body]

theorem Fallback.rename_id : ∀ fallback : Fallback, fallback.rename id = fallback
  | .nothing => rfl
  | .block body => by simp [Fallback.rename, renameBlock_id body]
  | .elif _ condition body fallback => by
    simp [Fallback.rename, condition.rename_id, renameBlock_id body, fallback.rename_id]

theorem renameBlock_id : ∀ body : List Stmt, renameBlock id body = body
  | [] => rfl
  | first :: rest => by simp [renameBlock, first.rename_id, renameBlock_id rest]

end

/-! ## Related trees -/

mutual

/-- A statement and what becomes of it, inside or outside a renamed procedure. -/
inductive Stmt.Relates (r : Renaming) : Bool → Stmt → Stmt → Prop
  | declare {inner position name constant value} : r.Fresh inner (name :: value.names) →
      Stmt.Relates r inner (.declare position name constant value)
        (.declare position (r.change inner name) constant (value.rename (r.change inner)))
  | assign {inner position name value} : r.Fresh inner (name :: value.names) →
      Stmt.Relates r inner (.assign position name value)
        (.assign position (r.change inner name) (value.rename (r.change inner)))
  | assignMember {inner position object property value} :
      r.Fresh inner (object.names ++ value.names) →
      Stmt.Relates r inner (.assignMember position object property value)
        (.assignMember position (object.rename (r.change inner)) property
          (value.rename (r.change inner)))
  | assignComputed {inner position object key value} :
      r.Fresh inner (object.names ++ key.names ++ value.names) →
      Stmt.Relates r inner (.assignComputed position object key value)
        (.assignComputed position (object.rename (r.change inner)) (key.rename (r.change inner))
          (value.rename (r.change inner)))
  /-- A procedure whose parameters are renamed only if it lies inside a renamed one. -/
  | procedure {inner position name parameters body body'} : r.Fresh inner (name :: parameters) →
      (inner = true → name ≠ r.old) → BlockRelates r inner body body' →
      Stmt.Relates r inner (.procedure position name parameters body)
        (.procedure position name (parameters.map (r.change inner)) body')
  /-- A procedure that is renamed itself. -/
  | enter {position name parameters body body'} : r.old ∈ parameters → r.new ∉ parameters →
      BlockRelates r true body body' →
      Stmt.Relates r false (.procedure position name parameters body)
        (.procedure position name (parameters.map r.apply) body')
  | returns {inner position value} : r.Fresh inner value.names →
      Stmt.Relates r inner (.returns position value)
        (.returns position (value.rename (r.change inner)))
  | leave {inner position} : Stmt.Relates r inner (.leave position) (.leave position)
  | proceed {inner position} : Stmt.Relates r inner (.proceed position) (.proceed position)
  | incase {inner position condition body body' fallback fallback'} :
      r.Fresh inner condition.names → BlockRelates r inner body body' →
      Fallback.Relates r inner fallback fallback' →
      Stmt.Relates r inner (.incase position condition body fallback)
        (.incase position (condition.rename (r.change inner)) body' fallback')
  | drift {inner position init init' condition update update' body body'} :
      Stmt.Relates r inner init init' → r.Fresh inner condition.names →
      Stmt.Relates r inner update update' → BlockRelates r inner body body' →
      Stmt.Relates r inner (.drift position init condition update body)
        (.drift position init' (condition.rename (r.change inner)) update' body')
  | through {inner position name constant iterable body body'} :
      r.Fresh inner (name :: iterable.names) → BlockRelates r inner body body' →
      Stmt.Relates r inner (.through position name constant iterable body)
        (.through position (r.change inner name) constant (iterable.rename (r.change inner)) body')
  | expression {inner value} : r.Fresh inner value.names →
      Stmt.Relates r inner (.expression value) (.expression (value.rename (r.change inner)))

inductive Fallback.Relates (r : Renaming) : Bool → Fallback → Fallback → Prop
  | nothing {inner} : Fallback.Relates r inner .nothing .nothing
  | block {inner body body'} : BlockRelates r inner body body' →
      Fallback.Relates r inner (.block body) (.block body')
  | elif {inner position condition body body' fallback fallback'} :
      r.Fresh inner condition.names → BlockRelates r inner body body' →
      Fallback.Relates r inner fallback fallback' →
      Fallback.Relates r inner (.elif position condition body fallback)
        (.elif position (condition.rename (r.change inner)) body' fallback')

inductive BlockRelates (r : Renaming) : Bool → List Stmt → List Stmt → Prop
  | nil {inner} : BlockRelates r inner [] []
  | cons {inner first first' rest rest'} : Stmt.Relates r inner first first' →
      BlockRelates r inner rest rest' → BlockRelates r inner (first :: rest) (first' :: rest')

end

section

variable {r : Renaming} {inner : Bool}

/-- No procedure is called by the old name inside a renamed procedure. -/
def Renaming.Unused (r : Renaming) (inner : Bool) (procedures : List String) : Prop :=
  inner = true → r.old ∉ procedures

theorem Renaming.unused_append {first second : List String} :
    r.Unused inner (first ++ second) ↔ r.Unused inner first ∧ r.Unused inner second := by
  unfold Unused
  rw [List.mem_append, not_or]
  exact ⟨fun both => ⟨fun inside => (both inside).1, fun inside => (both inside).2⟩,
    fun both inside => ⟨both.1 inside, both.2 inside⟩⟩

mutual

/-- Renaming all variables of a statement gives a related one. -/
theorem Stmt.relates_rename : ∀ s : Stmt, r.Fresh inner s.names → r.Unused inner s.procedures →
    s.Relates r inner (s.rename (r.change inner))
  | .declare .., fresh, _ => .declare fresh
  | .assign .., fresh, _ => .assign fresh
  | .assignMember .., fresh, _ => .assignMember fresh
  | .assignComputed .., fresh, _ => .assignComputed fresh
  | .procedure _ name parameters body, fresh, unused => by
    obtain ⟨header, freshBody⟩ := Renaming.fresh_append.mp fresh
    refine .procedure header ?_ (relates_renameBlock body freshBody ?_)
    · rintro inside rfl
      exact unused inside List.mem_cons_self
    · intro inside member
      exact unused inside (List.mem_cons_of_mem _ member)
  | .returns .., fresh, _ => .returns fresh
  | .leave _, _, _ => .leave
  | .proceed _, _, _ => .proceed
  | .incase _ condition body fallback, fresh, unused => by
    obtain ⟨before, freshFallback⟩ := Renaming.fresh_append.mp fresh
    obtain ⟨freshCondition, freshBody⟩ := Renaming.fresh_append.mp before
    obtain ⟨unusedBody, unusedFallback⟩ := Renaming.unused_append.mp unused
    exact .incase freshCondition (relates_renameBlock body freshBody unusedBody)
      (Fallback.relates_rename fallback freshFallback unusedFallback)
  | .drift _ init condition update body, fresh, unused => by
    obtain ⟨before, freshBody⟩ := Renaming.fresh_append.mp fresh
    obtain ⟨before, freshUpdate⟩ := Renaming.fresh_append.mp before
    obtain ⟨freshInit, freshCondition⟩ := Renaming.fresh_append.mp before
    obtain ⟨before, unusedBody⟩ := Renaming.unused_append.mp unused
    obtain ⟨unusedInit, unusedUpdate⟩ := Renaming.unused_append.mp before
    exact .drift (Stmt.relates_rename init freshInit unusedInit) freshCondition
      (Stmt.relates_rename update freshUpdate unusedUpdate)
      (relates_renameBlock body freshBody unusedBody)
  | .through _ name _ iterable body, fresh, unused => by
    obtain ⟨header, freshBody⟩ := Renaming.fresh_append.mp fresh
    exact .through header (relates_renameBlock body freshBody unused)
  | .expression _, fresh, _ => .expression fresh

theorem Fallback.relates_rename : ∀ fallback : Fallback, r.Fresh inner fallback.names →
    r.Unused inner fallback.procedures →
    fallback.Relates r inner (fallback.rename (r.change inner))
  | .nothing, _, _ => .nothing
  | .block body, fresh, unused => .block (relates_renameBlock body fresh unused)
  | .elif _ condition body fallback, fresh, unused => by
    obtain ⟨before, freshFallback⟩ := Renaming.fresh_append.mp fresh
    obtain ⟨freshCondition, freshBody⟩ := Renaming.fresh_append.mp before
    obtain ⟨unusedBody, unusedFallback⟩ := Renaming.unused_append.mp unused
    exact .elif freshCondition (relates_renameBlock body freshBody unusedBody)
      (Fallback.relates_rename fallback freshFallback unusedFallback)

theorem relates_renameBlock : ∀ body : List Stmt, r.Fresh inner (blockNames body) →
    r.Unused inner (blockProcedures body) →
    BlockRelates r inner body (renameBlock (r.change inner) body)
  | [], _, _ => .nil
  | first :: rest, fresh, unused => by
    obtain ⟨freshFirst, freshRest⟩ := Renaming.fresh_append.mp fresh
    obtain ⟨unusedFirst, unusedRest⟩ := Renaming.unused_append.mp unused
    exact .cons (Stmt.relates_rename first freshFirst unusedFirst)
      (relates_renameBlock rest freshRest unusedRest)

end

theorem Renaming.Unused.outer {procedures : List String} : r.Unused false procedures := by
  intro inside
  cases inside

/-- Outside all renamed procedures, a statement is related to itself. -/
theorem Stmt.relates_self (s : Stmt) : s.Relates r false s := by
  have related := s.relates_rename (r := r) .outer .outer
  rwa [Renaming.change_false, Stmt.rename_id] at related

theorem Fallback.relates_self (fallback : Fallback) : fallback.Relates r false fallback := by
  have related := fallback.relates_rename (r := r) .outer .outer
  rwa [Renaming.change_false, Fallback.rename_id] at related

theorem relatesBlock_self (body : List Stmt) : BlockRelates r false body body := by
  have related := relates_renameBlock (r := r) body .outer .outer
  rwa [Renaming.change_false, renameBlock_id] at related

/-- Outside all renamed procedures, conditions stay. -/
theorem Stmt.Relates.incase_outer {position : Position} {condition : Expr} {body body' : List Stmt}
    {fallback fallback' : Fallback} (bodies : BlockRelates r false body body')
    (fallbacks : fallback.Relates r false fallback') :
    Stmt.Relates r false (.incase position condition body fallback)
      (.incase position condition body' fallback') := by
  have related := @Stmt.Relates.incase r false position condition _ _ _ _ .outer bodies fallbacks
  rwa [Renaming.change_false, Expr.rename_id] at related

theorem Fallback.Relates.elif_outer {position : Position} {condition : Expr}
    {body body' : List Stmt} {fallback fallback' : Fallback}
    (bodies : BlockRelates r false body body') (fallbacks : fallback.Relates r false fallback') :
    Fallback.Relates r false (.elif position condition body fallback)
      (.elif position condition body' fallback') := by
  have related := @Fallback.Relates.elif r false position condition _ _ _ _ .outer bodies fallbacks
  rwa [Renaming.change_false, Expr.rename_id] at related

theorem Stmt.Relates.drift_outer {position : Position} {init init' update update' : Stmt}
    {condition : Expr} {body body' : List Stmt} (inits : init.Relates r false init')
    (updates : update.Relates r false update') (bodies : BlockRelates r false body body') :
    Stmt.Relates r false (.drift position init condition update body)
      (.drift position init' condition update' body') := by
  have related := @Stmt.Relates.drift r false position _ _ condition _ _ _ _ inits .outer updates
    bodies
  rwa [Renaming.change_false, Expr.rename_id] at related

/-! ## One declaration renamed -/

mutual

theorem Stmt.Renamed.relates {s s' : Stmt} : s.Renamed r s' → r.new ∉ s.names →
    s.Relates r false s'
  -- by recursion to the place of the renamed procedure: there all names of the body are renamed,
  -- and around it none
  | @Stmt.Renamed.here _ _ _ parameters body inside unused, fresh => by
    rw [Stmt.names, List.mem_append, not_or, List.mem_cons, not_or] at fresh
    exact .enter inside fresh.1.2
      (relates_renameBlock body (fun _ => fresh.2) (fun _ => unused))
  -- around the renamed procedure nothing changes, which is renaming by the identity
  | @Stmt.Renamed.procedure _ position name parameters _ _ inner, fresh => by
    rw [Stmt.names, List.mem_append, not_or] at fresh
    have related := @Stmt.Relates.procedure r false position name parameters _ _ .outer
      (fun inside => by cases inside) (inner.relates fresh.2)
    rwa [Renaming.change_false, List.map_id] at related
  | .incase inner, fresh => by
    simp only [Stmt.names, List.mem_append, not_or] at fresh
    exact .incase_outer (inner.relates fresh.1.2) (Fallback.relates_self _)
  | .fallback inner, fresh => by
    simp only [Stmt.names, List.mem_append, not_or] at fresh
    exact .incase_outer (relatesBlock_self _) (inner.relates fresh.2)
  | .init inner, fresh => by
    simp only [Stmt.names, List.mem_append, not_or] at fresh
    exact .drift_outer (inner.relates fresh.1.1.1) (Stmt.relates_self _) (relatesBlock_self _)
  | .update inner, fresh => by
    simp only [Stmt.names, List.mem_append, not_or] at fresh
    exact .drift_outer (Stmt.relates_self _) (inner.relates fresh.1.2) (relatesBlock_self _)
  | .drift inner, fresh => by
    simp only [Stmt.names, List.mem_append, not_or] at fresh
    exact .drift_outer (Stmt.relates_self _) (Stmt.relates_self _) (inner.relates fresh.2)
  | @Stmt.Renamed.through _ position name constant iterable _ _ inner, fresh => by
    simp only [Stmt.names, List.mem_append, not_or] at fresh
    have related := @Stmt.Relates.through r false position name constant iterable _ _ .outer
      (inner.relates fresh.2)
    rwa [Renaming.change_false, Expr.rename_id] at related

theorem Fallback.Renamed.relates {fallback fallback' : Fallback} :
    fallback.Renamed r fallback' → r.new ∉ fallback.names → fallback.Relates r false fallback'
  | .block inner, fresh => .block (inner.relates fresh)
  | .elif inner, fresh => by
    simp only [Fallback.names, List.mem_append, not_or] at fresh
    exact .elif_outer (inner.relates fresh.1.2) (Fallback.relates_self _)
  | .fallback inner, fresh => by
    simp only [Fallback.names, List.mem_append, not_or] at fresh
    exact .elif_outer (relatesBlock_self _) (inner.relates fresh.2)

/-- One statement of the block is related by what is renamed in it, and the others to themselves. -/
theorem BlockRenamed.relates {body body' : List Stmt} : BlockRenamed r body body' →
    r.new ∉ blockNames body → BlockRelates r false body body'
  | .first inner, fresh => by
    rw [blockNames, List.mem_append, not_or] at fresh
    exact .cons (inner.relates fresh.1) (relatesBlock_self _)
  | .rest inner, fresh => by
    rw [blockNames, List.mem_append, not_or] at fresh
    exact .cons (Stmt.relates_self _) (inner.relates fresh.2)

end

end

end Script
