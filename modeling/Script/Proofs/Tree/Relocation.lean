import Script.Tree

/-!
# Moving trees

`relocate shift` moves the text of a tree: every position is changed by `shift`. A node without a
rule keeps its position, since that is part of the fault it gives rise to; all other positions take
no part in what a tree means. Moving a tree keeps its erasure (`erase_relocate`), and the tree
itself if nothing is shifted (`relocate_id`).
-/

namespace Script

/-! ## Trees -/

mutual

/-- An expression whose text has been moved. -/
def Expr.relocate (shift : Position → Position) : Expr → Expr
  | .number p value => .number (shift p) value
  | .string p value => .string (shift p) value
  | .boolean p value => .boolean (shift p) value
  | .null p => .null (shift p)
  | .nan p => .nan (shift p)
  | .identifier p name => .identifier (shift p) name
  | .array p elements => .array (shift p) (relocateElements shift elements)
  | .object p properties => .object (shift p) (relocateProperties shift properties)
  | .binary p operator left right =>
    .binary (shift p) operator (left.relocate shift) (right.relocate shift)
  | .unary p operator operand => .unary (shift p) operator (operand.relocate shift)
  | .member p object property => .member (shift p) (object.relocate shift) property
  | .computed p object key => .computed (shift p) (object.relocate shift) (key.relocate shift)
  | .call p callee arguments =>
    .call (shift p) (callee.relocate shift) (relocateElements shift arguments)
  | .foreign p kind => .foreign p kind

/-- Expressions whose text has been moved. -/
def relocateElements (shift : Position → Position) : List Expr → List Expr
  | [] => []
  | e :: rest => e.relocate shift :: relocateElements shift rest

/-- Properties whose text has been moved. -/
def relocateProperties (shift : Position → Position) :
    List (String × Expr) → List (String × Expr)
  | [] => []
  | (key, e) :: rest => (key, e.relocate shift) :: relocateProperties shift rest

end

mutual

/-- A statement whose text has been moved. -/
def Stmt.relocate (shift : Position → Position) : Stmt → Stmt
  | .declare p name constant value => .declare (shift p) name constant (value.relocate shift)
  | .assign p name value => .assign (shift p) name (value.relocate shift)
  | .assignMember p object property value =>
    .assignMember (shift p) (object.relocate shift) property (value.relocate shift)
  | .assignComputed p object key value =>
    .assignComputed (shift p) (object.relocate shift) (key.relocate shift) (value.relocate shift)
  | .procedure p name parameters body =>
    .procedure (shift p) name parameters (relocateBlock shift body)
  | .returns p value => .returns (shift p) (value.relocate shift)
  | .leave p => .leave (shift p)
  | .proceed p => .proceed (shift p)
  | .incase p condition body fallback =>
    .incase (shift p) (condition.relocate shift) (relocateBlock shift body)
      (fallback.relocate shift)
  | .drift p init condition update body =>
    .drift (shift p) (init.relocate shift) (condition.relocate shift) (update.relocate shift)
      (relocateBlock shift body)
  | .through p name constant iterable body =>
    .through (shift p) name constant (iterable.relocate shift) (relocateBlock shift body)
  | .expression value => .expression (value.relocate shift)

/-- A fallback whose text has been moved. -/
def Fallback.relocate (shift : Position → Position) : Fallback → Fallback
  | .nothing => .nothing
  | .block body => .block (relocateBlock shift body)
  | .elif p condition body fallback =>
    .elif (shift p) (condition.relocate shift) (relocateBlock shift body)
      (fallback.relocate shift)

/-- Statements whose text has been moved. -/
def relocateBlock (shift : Position → Position) : List Stmt → List Stmt
  | [] => []
  | first :: rest => first.relocate shift :: relocateBlock shift rest

end

variable (shift : Position → Position)

theorem relocateElements_eq_map (elements : List Expr) :
    relocateElements shift elements = elements.map (Expr.relocate shift) := by
  induction elements with
  | nil => rfl
  | cons e rest ih => simp only [relocateElements, ih, List.map_cons]

theorem relocateProperties_eq_map (properties : List (String × Expr)) :
    relocateProperties shift properties =
      properties.map fun entry => (entry.1, entry.2.relocate shift) := by
  induction properties with
  | nil => rfl
  | cons entry rest ih => simp only [relocateProperties, ih, List.map_cons]

/-- Statements are moved one by one. -/
theorem relocateBlock_eq_map (body : List Stmt) :
    relocateBlock shift body = body.map (Stmt.relocate shift) := by
  induction body with
  | nil => rfl
  | cons first rest ih => simp only [relocateBlock, ih, List.map_cons]

/-! ## Erasure -/

mutual

/-- Moving a tree changes its layout only. -/
theorem Expr.erase_relocate : ∀ e : Expr, (e.relocate shift).erase = e.erase
  | .number _ _ | .string _ _ | .boolean _ _ | .null _ | .nan _ | .identifier _ _
  | .foreign _ _ => rfl
  | .array _ elements => by
    simp only [Expr.relocate, Expr.erase, eraseElements_relocate elements]
  | .object _ properties => by
    simp only [Expr.relocate, Expr.erase, eraseProperties_relocate properties]
  | .binary _ _ left right => by
    simp only [Expr.relocate, Expr.erase, left.erase_relocate, right.erase_relocate]
  | .unary _ _ operand => by simp only [Expr.relocate, Expr.erase, operand.erase_relocate]
  | .member _ object _ => by simp only [Expr.relocate, Expr.erase, object.erase_relocate]
  | .computed _ object key => by
    simp only [Expr.relocate, Expr.erase, object.erase_relocate, key.erase_relocate]
  | .call _ callee arguments => by
    simp only [Expr.relocate, Expr.erase, callee.erase_relocate, eraseElements_relocate arguments]

theorem eraseElements_relocate : ∀ elements : List Expr,
    eraseElements (relocateElements shift elements) = eraseElements elements
  | [] => rfl
  | e :: rest => by
    simp only [relocateElements, eraseElements, e.erase_relocate, eraseElements_relocate rest]

theorem eraseProperties_relocate : ∀ properties : List (String × Expr),
    eraseProperties (relocateProperties shift properties) = eraseProperties properties
  | [] => rfl
  | (_, e) :: rest => by
    simp only [relocateProperties, eraseProperties, e.erase_relocate,
      eraseProperties_relocate rest]

end

mutual

/-- What a statement is without its layout does not depend on where its text stands. -/
theorem Stmt.erase_relocate : ∀ s : Stmt, (s.relocate shift).erase = s.erase
  | .declare _ _ _ value | .assign _ _ value | .returns _ value | .expression value => by
    simp only [Stmt.relocate, Stmt.erase, value.erase_relocate]
  | .assignMember _ object _ value => by
    simp only [Stmt.relocate, Stmt.erase, object.erase_relocate, value.erase_relocate]
  | .assignComputed _ object key value => by
    simp only [Stmt.relocate, Stmt.erase, object.erase_relocate, key.erase_relocate,
      value.erase_relocate]
  | .procedure _ _ _ body => by simp only [Stmt.relocate, Stmt.erase, eraseBlock_relocate body]
  | .leave _ | .proceed _ => rfl
  | .incase _ condition body fallback => by
    simp only [Stmt.relocate, Stmt.erase, condition.erase_relocate, eraseBlock_relocate body,
      fallback.erase_relocate]
  | .drift _ init condition update body => by
    simp only [Stmt.relocate, Stmt.erase, init.erase_relocate, condition.erase_relocate,
      update.erase_relocate, eraseBlock_relocate body]
  | .through _ _ _ iterable body => by
    simp only [Stmt.relocate, Stmt.erase, iterable.erase_relocate, eraseBlock_relocate body]

theorem Fallback.erase_relocate :
    ∀ fallback : Fallback, (fallback.relocate shift).erase = fallback.erase
  | .nothing => rfl
  | .block body => by simp only [Fallback.relocate, Fallback.erase, eraseBlock_relocate body]
  | .elif _ condition body fallback => by
    simp only [Fallback.relocate, Fallback.erase, condition.erase_relocate,
      eraseBlock_relocate body, fallback.erase_relocate]

theorem eraseBlock_relocate :
    ∀ body : List Stmt, eraseBlock (relocateBlock shift body) = eraseBlock body
  | [] => rfl
  | first :: rest => by
    simp only [relocateBlock, eraseBlock, first.erase_relocate, eraseBlock_relocate rest]

end

/-- The layout of statements is removed one statement at a time. -/
theorem eraseBlock_append (first second : List Stmt) :
    eraseBlock (first ++ second) = eraseBlock first ++ eraseBlock second := by
  induction first with
  | nil => rfl
  | cons s rest ih => simp only [List.cons_append, eraseBlock, ih]

/-! ## Moving twice -/

variable (other : Position → Position)

mutual

/-- Two moves are one. -/
theorem Expr.relocate_relocate : ∀ e : Expr,
    (e.relocate shift).relocate other = e.relocate fun p => other (shift p)
  | .number _ _ | .string _ _ | .boolean _ _ | .null _ | .nan _ | .identifier _ _
  | .foreign _ _ => rfl
  | .array _ elements => by simp only [Expr.relocate, relocateElements_relocate elements]
  | .object _ properties => by simp only [Expr.relocate, relocateProperties_relocate properties]
  | .binary _ _ left right => by
    simp only [Expr.relocate, left.relocate_relocate, right.relocate_relocate]
  | .unary _ _ operand => by simp only [Expr.relocate, operand.relocate_relocate]
  | .member _ object _ => by simp only [Expr.relocate, object.relocate_relocate]
  | .computed _ object key => by
    simp only [Expr.relocate, object.relocate_relocate, key.relocate_relocate]
  | .call _ callee arguments => by
    simp only [Expr.relocate, callee.relocate_relocate, relocateElements_relocate arguments]

theorem relocateElements_relocate : ∀ elements : List Expr,
    relocateElements other (relocateElements shift elements) =
      relocateElements (fun p => other (shift p)) elements
  | [] => rfl
  | e :: rest => by
    simp only [relocateElements, e.relocate_relocate, relocateElements_relocate rest]

theorem relocateProperties_relocate : ∀ properties : List (String × Expr),
    relocateProperties other (relocateProperties shift properties) =
      relocateProperties (fun p => other (shift p)) properties
  | [] => rfl
  | (_, e) :: rest => by
    simp only [relocateProperties, e.relocate_relocate, relocateProperties_relocate rest]

end

mutual

/-- To move a statement twice is to move it once, by both moves. -/
theorem Stmt.relocate_relocate : ∀ s : Stmt,
    (s.relocate shift).relocate other = s.relocate fun p => other (shift p)
  | .declare _ _ _ value | .assign _ _ value | .returns _ value | .expression value => by
    simp only [Stmt.relocate, value.relocate_relocate]
  | .assignMember _ object _ value => by
    simp only [Stmt.relocate, object.relocate_relocate, value.relocate_relocate]
  | .assignComputed _ object key value => by
    simp only [Stmt.relocate, object.relocate_relocate, key.relocate_relocate,
      value.relocate_relocate]
  | .procedure _ _ _ body => by simp only [Stmt.relocate, relocateBlock_relocate body]
  | .leave _ | .proceed _ => rfl
  | .incase _ condition body fallback => by
    simp only [Stmt.relocate, condition.relocate_relocate, relocateBlock_relocate body,
      fallback.relocate_relocate]
  | .drift _ init condition update body => by
    simp only [Stmt.relocate, init.relocate_relocate, condition.relocate_relocate,
      update.relocate_relocate, relocateBlock_relocate body]
  | .through _ _ _ iterable body => by
    simp only [Stmt.relocate, iterable.relocate_relocate, relocateBlock_relocate body]

theorem Fallback.relocate_relocate : ∀ fallback : Fallback,
    (fallback.relocate shift).relocate other = fallback.relocate fun p => other (shift p)
  | .nothing => rfl
  | .block body => by simp only [Fallback.relocate, relocateBlock_relocate body]
  | .elif _ condition body fallback => by
    simp only [Fallback.relocate, condition.relocate_relocate, relocateBlock_relocate body,
      fallback.relocate_relocate]

theorem relocateBlock_relocate : ∀ body : List Stmt,
    relocateBlock other (relocateBlock shift body) =
      relocateBlock (fun p => other (shift p)) body
  | [] => rfl
  | first :: rest => by
    simp only [relocateBlock, first.relocate_relocate, relocateBlock_relocate rest]

end

/-! ## Not moving -/

mutual

/-- A tree that is not moved is as it was. -/
theorem Expr.relocate_id : ∀ e : Expr, e.relocate id = e
  | .number _ _ | .string _ _ | .boolean _ _ | .null _ | .nan _ | .identifier _ _
  | .foreign _ _ => rfl
  | .array _ elements => by simp only [Expr.relocate, relocateElements_id elements, id]
  | .object _ properties => by simp only [Expr.relocate, relocateProperties_id properties, id]
  | .binary _ _ left right => by
    simp only [Expr.relocate, left.relocate_id, right.relocate_id, id]
  | .unary _ _ operand => by simp only [Expr.relocate, operand.relocate_id, id]
  | .member _ object _ => by simp only [Expr.relocate, object.relocate_id, id]
  | .computed _ object key => by
    simp only [Expr.relocate, object.relocate_id, key.relocate_id, id]
  | .call _ callee arguments => by
    simp only [Expr.relocate, callee.relocate_id, relocateElements_id arguments, id]

theorem relocateElements_id : ∀ elements : List Expr, relocateElements id elements = elements
  | [] => rfl
  | e :: rest => by simp only [relocateElements, e.relocate_id, relocateElements_id rest]

theorem relocateProperties_id :
    ∀ properties : List (String × Expr), relocateProperties id properties = properties
  | [] => rfl
  | (_, e) :: rest => by
    simp only [relocateProperties, e.relocate_id, relocateProperties_id rest]

end

mutual

/-- A statement that is not moved is as it was. -/
theorem Stmt.relocate_id : ∀ s : Stmt, s.relocate id = s
  | .declare _ _ _ value | .assign _ _ value | .returns _ value | .expression value => by
    simp only [Stmt.relocate, value.relocate_id, id]
  | .assignMember _ object _ value => by
    simp only [Stmt.relocate, object.relocate_id, value.relocate_id, id]
  | .assignComputed _ object key value => by
    simp only [Stmt.relocate, object.relocate_id, key.relocate_id, value.relocate_id, id]
  | .procedure _ _ _ body => by simp only [Stmt.relocate, relocateBlock_id body, id]
  | .leave _ | .proceed _ => rfl
  | .incase _ condition body fallback => by
    simp only [Stmt.relocate, condition.relocate_id, relocateBlock_id body,
      fallback.relocate_id, id]
  | .drift _ init condition update body => by
    simp only [Stmt.relocate, init.relocate_id, condition.relocate_id, update.relocate_id,
      relocateBlock_id body, id]
  | .through _ _ _ iterable body => by
    simp only [Stmt.relocate, iterable.relocate_id, relocateBlock_id body, id]

theorem Fallback.relocate_id : ∀ fallback : Fallback, fallback.relocate id = fallback
  | .nothing => rfl
  | .block body => by simp only [Fallback.relocate, relocateBlock_id body]
  | .elif _ condition body fallback => by
    simp only [Fallback.relocate, condition.relocate_id, relocateBlock_id body,
      fallback.relocate_id, id]

theorem relocateBlock_id : ∀ body : List Stmt, relocateBlock id body = body
  | [] => rfl
  | first :: rest => by simp only [relocateBlock, first.relocate_id, relocateBlock_id rest]

end

end Script
