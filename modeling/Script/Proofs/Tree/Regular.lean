import Script.Proofs.Grammar
import Script.Proofs.Tree.Blame

/-!
# Regular trees

A tree is regular if all its nodes and operators have rules, so that it is to blame for stray
signals at most. Trees of the grammar are regular (`Grammar.Statements.regular`), and so are all
that differ from them in layout only (`regular_of_erase`).
-/

namespace Script

/-- A text is to blame for nothing but stray signals. -/
def Regular (blame : List Fault) : Prop := ∀ fault ∈ blame, fault.isStray = true

theorem regular_nil : Regular [] := fun _ member => by cases member

theorem regular_of_nil {blame : List Fault} (none : blame = []) : Regular blame :=
  none ▸ regular_nil

theorem regular_append {first second : List Fault} :
    Regular (first ++ second) ↔ Regular first ∧ Regular second := List.forall_mem_append

/-- Exits that nothing takes are stray signals. -/
theorem regular_stray (exits : List Exit) : Regular (exits.map Exit.stray) := by
  intro fault member
  obtain ⟨exit, _, rfl⟩ := List.mem_map.mp member
  cases exit <;> rfl

/-! ## Layout -/

/-- A fault without the position of its node. -/
def Fault.unplaced : Fault → Fault
  | .noRule kind _ => .noRule kind default
  | fault => fault

/-- Stray signals have no positions. -/
theorem Fault.isStray_unplaced (fault : Fault) : fault.unplaced.isStray = fault.isStray := by
  cases fault <;> rfl

theorem map_unplaced_stray (exits : List Exit) :
    (exits.map Exit.stray).map Fault.unplaced = exits.map Exit.stray := by
  rw [List.map_map]
  refine List.map_congr_left ?_
  intro exit _
  cases exit <;> rfl

theorem BinaryOp.map_unplaced_blame (operator : BinaryOp) :
    operator.blame.map Fault.unplaced = operator.blame := by
  cases operator <;> rfl

theorem UnaryOp.map_unplaced_blame (operator : UnaryOp) :
    operator.blame.map Fault.unplaced = operator.blame := by
  cases operator <;> rfl

mutual

/-- Layout takes no part in what an expression is to blame for. -/
theorem Expr.blame_erase : ∀ e : Expr, e.erase.blame = e.blame.map Fault.unplaced
  | .number _ _ | .string _ _ | .boolean _ _ | .null _ | .nan _ | .identifier _ _
  | .foreign _ _ => rfl
  | .array _ elements => elementBlame_erase elements
  | .object _ properties => propertyBlame_erase properties
  | .binary _ operator left right => by
    simp only [Expr.erase, Expr.blame, left.blame_erase, right.blame_erase, List.map_append,
      operator.map_unplaced_blame]
  | .unary _ operator operand => by
    simp only [Expr.erase, Expr.blame, operand.blame_erase, List.map_append,
      operator.map_unplaced_blame]
  | .member _ object _ => object.blame_erase
  | .computed _ object key => by
    simp only [Expr.erase, Expr.blame, object.blame_erase, key.blame_erase, List.map_append]
  | .call _ callee arguments => by
    simp only [Expr.erase, Expr.blame, callee.blame_erase, elementBlame_erase arguments,
      List.map_append]

theorem elementBlame_erase : ∀ elements : List Expr,
    elementBlame (eraseElements elements) = (elementBlame elements).map Fault.unplaced
  | [] => rfl
  | e :: rest => by
    simp only [eraseElements, elementBlame, e.blame_erase, elementBlame_erase rest,
      List.map_append]

theorem propertyBlame_erase : ∀ properties : List (String × Expr),
    propertyBlame (eraseProperties properties) = (propertyBlame properties).map Fault.unplaced
  | [] => rfl
  | (_, e) :: rest => by
    simp only [eraseProperties, propertyBlame, e.blame_erase, propertyBlame_erase rest,
      List.map_append]

end

mutual

/-- Layout takes no part in how a statement may end. -/
theorem Stmt.exits_erase : ∀ s : Stmt, s.erase.exits = s.exits
  | .declare _ _ _ _ | .assign _ _ _ | .assignMember _ _ _ _ | .assignComputed _ _ _ _
  | .procedure _ _ _ _ | .returns _ _ | .leave _ | .proceed _ | .expression _ => rfl
  | .incase _ _ body fallback => by
    simp only [Stmt.erase, Stmt.exits, blockExits_erase body, fallback.exits_erase]
  | .drift _ _ _ _ body => by simp only [Stmt.erase, Stmt.exits, blockExits_erase body]
  | .through _ _ _ _ body => by simp only [Stmt.erase, Stmt.exits, blockExits_erase body]

theorem Fallback.exits_erase : ∀ fallback : Fallback, fallback.erase.exits = fallback.exits
  | .nothing => rfl
  | .block body => blockExits_erase body
  | .elif _ _ body fallback => by
    simp only [Fallback.erase, Fallback.exits, blockExits_erase body, fallback.exits_erase]

theorem blockExits_erase : ∀ body : List Stmt, blockExits (eraseBlock body) = blockExits body
  | [] => rfl
  | first :: rest => by
    simp only [eraseBlock, blockExits, first.exits_erase, blockExits_erase rest]

end

mutual

/-- Layout takes no part in what a statement is to blame for. -/
theorem Stmt.blame_erase : ∀ s : Stmt, s.erase.blame = s.blame.map Fault.unplaced
  | .declare _ _ _ value | .assign _ _ value | .returns _ value | .expression value =>
    value.blame_erase
  | .leave _ | .proceed _ => rfl
  | .assignMember _ object _ value => by
    simp only [Stmt.erase, Stmt.blame, object.blame_erase, value.blame_erase, List.map_append]
  | .assignComputed _ object key value => by
    simp only [Stmt.erase, Stmt.blame, object.blame_erase, key.blame_erase, value.blame_erase,
      List.map_append]
  | .procedure _ _ _ body => by
    simp only [Stmt.erase, Stmt.blame, blockBlame_erase body, blockExits_erase body,
      List.map_append, map_unplaced_stray]
  | .incase _ condition body fallback => by
    simp only [Stmt.erase, Stmt.blame, condition.blame_erase, blockBlame_erase body,
      fallback.blame_erase, List.map_append]
  | .drift _ init condition update body => by
    simp only [Stmt.erase, Stmt.blame, init.blame_erase, condition.blame_erase,
      update.blame_erase, blockBlame_erase body, List.map_append]
  | .through _ _ _ iterable body => by
    simp only [Stmt.erase, Stmt.blame, iterable.blame_erase, blockBlame_erase body,
      List.map_append]

theorem Fallback.blame_erase :
    ∀ fallback : Fallback, fallback.erase.blame = fallback.blame.map Fault.unplaced
  | .nothing => rfl
  | .block body => blockBlame_erase body
  | .elif _ condition body fallback => by
    simp only [Fallback.erase, Fallback.blame, condition.blame_erase, blockBlame_erase body,
      fallback.blame_erase, List.map_append]

theorem blockBlame_erase :
    ∀ body : List Stmt, blockBlame (eraseBlock body) = (blockBlame body).map Fault.unplaced
  | [] => rfl
  | first :: rest => by
    simp only [eraseBlock, blockBlame, first.blame_erase, blockBlame_erase rest, List.map_append]

end

/-- Of two programs that differ in layout only, one is regular if the other is. -/
theorem regular_of_erase {body : List Stmt} (regular : Regular (blockBlame (eraseBlock body))) :
    Regular (blockBlame body) := by
  intro fault member
  -- both texts are to blame for the same faults, up to positions
  rw [← fault.isStray_unplaced]
  refine regular _ ?_
  rw [blockBlame_erase]
  exact List.mem_map_of_mem member

/-! ## The grammar -/

namespace Grammar

variable {ends : KeyEnds}

/-- Every operator that the grammar knows has a rule. -/
theorem Operator.blame_nil {n : Nat} {mark : Symbol} {operator : BinaryOp}
    (stands : Operator n mark operator) : operator.blame = [] := by
  cases stands <;> rfl

theorem Sign.blame_nil {mark : Symbol} {operator : UnaryOp} (stands : Sign mark operator) :
    operator.blame = [] := by
  cases stands <;> rfl

mutual

/-- An expression of the grammar is to blame for nothing. -/
theorem Level.blame_nil {input rest : List Token} {n : Nat} {e : Expr} :
    Level ends n input e rest → e.blame = []
  | .operator left _ stands right => by
    simp only [Expr.blame, stands.blame_nil, left.blame_nil, right.blame_nil, List.append_nil]
  | .tighter _ inner => inner.blame_nil
  | .unary inner => inner.blame_nil

theorem Unary.blame_nil {input rest : List Token} {e : Expr} :
    Unary ends input e rest → e.blame = []
  | .sign _ stands inner => by
    simp only [Expr.blame, stands.blame_nil, inner.blame_nil, List.append_nil]
  | .chain inner => inner.blame_nil

theorem Chain.blame_nil {input rest : List Token} {e : Expr} :
    Chain ends input e rest → e.blame = []
  | .primary inner => inner.blame_nil
  | .member object _ _ => object.blame_nil
  | .arrow object _ key _ => by
    simp only [Expr.blame, object.blame_nil, key.blame_nil, List.append_nil]
  | .bracket object _ key _ => by
    simp only [Expr.blame, object.blame_nil, key.blame_nil, List.append_nil]
  | .call callee _ arguments => by
    simp only [Expr.blame, callee.blame_nil, arguments.blame_nil, List.append_nil]

/-- A primary is no node without a rule, so only its parts could be to blame. -/
theorem Primary.blame_nil {input rest : List Token} {e : Expr} :
    Primary ends input e rest → e.blame = []
  | .number _ _ | .string _ | .yes _ | .no _ | .null _ | .nan _ | .identifier _ => rfl
  | .array _ elements => elements.blame_nil
  | .object _ properties => properties.blame_nil
  | .parentheses _ inner _ => inner.blame_nil

theorem Elements.blame_nil {input rest : List Token} {closing : Symbol} {elements : List Expr} :
    Elements ends closing input elements rest → elementBlame elements = []
  | .none _ => rfl
  | .some items _ => items.blame_nil

theorem Items.blame_nil {input rest : List Token} {elements : List Expr} :
    Items ends input elements rest → elementBlame elements = []
  | .last inner => by simp only [elementBlame, inner.blame_nil, List.append_nil]
  | .more inner _ items => by
    simp only [elementBlame, inner.blame_nil, items.blame_nil, List.append_nil]

theorem Properties.blame_nil {input rest : List Token} {properties : List (String × Expr)} :
    Properties ends input properties rest → propertyBlame properties = []
  | .none _ => rfl
  | .some entries _ => entries.blame_nil

theorem Entries.blame_nil {input rest : List Token} {properties : List (String × Expr)} :
    Entries ends input properties rest → propertyBlame properties = []
  | .last _ _ inner => by simp only [propertyBlame, inner.blame_nil, List.append_nil]
  | .more _ _ inner _ entries => by
    simp only [propertyBlame, inner.blame_nil, entries.blame_nil, List.append_nil]

end

theorem Declaration.blame_nil {input rest : List Token} {s : Stmt} :
    Declaration input s rest → s.blame = []
  | .mk _ _ _ value => value.blame_nil

theorem Condition.blame_nil {input rest : List Token} {e : Expr} :
    Condition input e rest → e.blame = []
  | .mk _ inner _ => inner.blame_nil

/-- What is assigned to is no part of the assignment, but its parts are. -/
theorem Assignment.blame_nil {target value : Expr} {s : Stmt} (made : Assignment target value s)
    (ofTarget : target.blame = []) (ofValue : value.blame = []) : s.blame = [] := by
  cases made with
  | name => exact ofValue
  | member =>
    simp only [Expr.blame] at ofTarget
    simp only [Stmt.blame, ofTarget, ofValue, List.append_nil]
  | computed =>
    obtain ⟨ofObject, ofKey⟩ := List.append_eq_nil_iff.mp ofTarget
    simp only [Stmt.blame, ofObject, ofKey, ofValue, List.append_nil]

mutual

/-- A statement of the grammar is regular. -/
theorem Statement.regular {input rest : List Token} {s : Stmt} :
    Statement input s rest → Regular s.blame
  | .declare declaration _ => regular_of_nil declaration.blame_nil
  | .assign _ target _ value _ made =>
    regular_of_nil (made.blame_nil target.blame_nil value.blame_nil)
  | .procedure _ _ _ _ body => regular_append.mpr ⟨body.regular, regular_stray _⟩
  | .returns _ value _ => regular_of_nil value.blame_nil
  | .leave _ _ => regular_nil
  | .proceed _ _ => regular_nil
  | .incase _ condition body fallback =>
    regular_append.mpr ⟨regular_of_nil condition.blame_nil,
      regular_append.mpr ⟨body.regular, fallback.regular⟩⟩
  | .through _ _ _ _ _ iterable _ body =>
    regular_append.mpr ⟨regular_of_nil iterable.blame_nil, body.regular⟩
  | .drift _ _ init _ condition _ _ _ update _ body =>
    regular_append.mpr ⟨regular_of_nil init.blame_nil,
      regular_append.mpr ⟨regular_of_nil condition.blame_nil,
        regular_append.mpr ⟨regular_of_nil update.blame_nil, body.regular⟩⟩⟩
  | .expression inner _ => regular_of_nil inner.blame_nil

theorem Otherwise.regular {input rest : List Token} {fallback : Fallback} :
    Otherwise input fallback rest → Regular fallback.blame
  | .nothing => regular_nil
  | .block _ body => body.regular
  | .elif _ condition body fallback =>
    regular_append.mpr ⟨regular_of_nil condition.blame_nil,
      regular_append.mpr ⟨body.regular, fallback.regular⟩⟩

theorem Block.regular {input rest : List Token} {body : List Stmt} :
    Block input body rest → Regular (blockBlame body)
  | .mk _ statements _ => statements.regular

theorem Statements.regular {input rest : List Token} {body : List Stmt} :
    Statements input body rest → Regular (blockBlame body)
  | .none => regular_nil
  | .cons first others => regular_append.mpr ⟨first.regular, others.regular⟩

end

end Grammar

end Script
