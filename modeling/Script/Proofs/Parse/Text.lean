import Script.Proofs.Parse.Program
import Script.Proofs.Tree.Text

/-!
# Parsers give trees of what they read

What a parser takes is the whole text of the tree that it gives, and every node of the tree stands
where its text does. One lemma for each parser; those that go on behind what is there already, such
as links and operators, add to its text.

* `expression_text`, `statement_text`, `parse_text`: expressions, statements and programs.
* `parse_placed`: every node of a parsed program has a text among the tokens.
-/

namespace Script.Parse

open Grammar (Declarator Names Parameters)

variable {list : TokenList} {cursor after : Nat}

/-- What stands between two cursors is the text of an expression. -/
abbrev TakesExpression (list : TokenList) (cursor : Nat) (e : Expr) (after : Nat) : Prop :=
  ∃ text, list.visible cursor = text ++ list.visible after ∧ e.Text text

/-- What stands between two cursors is the text of a statement and what ends it. -/
abbrev TakesStatement (list : TokenList) (cursor : Nat) (s : Stmt) (after : Nat) : Prop :=
  ∃ text ending, list.visible cursor = text ++ ending ++ list.visible after ∧ s.Text text ∧
    Ending s ending

/-! ## Lists -/

/-- A parser gives trees of the expressions that it takes. -/
def GivesTexts (list : TokenList) (nested : Parse Expr) : Prop :=
  ∀ {cursor after : Nat} {e : Expr}, nested.Gives list cursor e after →
    TakesExpression list cursor e after

section

variable {nested : Parse Expr} (texts : GivesTexts list nested)

include texts

/-- The items of a list have texts with commas between them. The last one stands before the closing
symbol, which is no part of it. -/
theorem elements_text {closing : Symbol} {demand : String} {values : List Expr}
    (given : (commaList nested closing demand).Gives list cursor values after) :
    ∃ text token, token.kind = .symbol closing ∧
      list.visible cursor = text ++ token :: list.visible after ∧ ElementsText text values := by
  obtain ⟨token, kind, ⟨rfl, seen⟩ | ⟨rounds, middle, items, seen⟩⟩ := commaList_sound given
  · exact ⟨[], token, kind, seen, .none⟩
  · obtain ⟨text, read, elements, _⟩ := commaSeparated_sound
      (motive := fun input values rest =>
        ∃ text, input = text ++ rest ∧ ElementsText text values ∧ values ≠ [])
      (fun first => by
        obtain ⟨text, read, written⟩ := texts first
        exact ⟨text, read, .last written, List.cons_ne_nil _ _⟩)
      (fun first behind comma others => by
        obtain ⟨text, read, written⟩ := texts first
        obtain ⟨more, rfl, elements, some⟩ := others
        obtain ⟨next, rest, rfl⟩ := List.exists_cons_of_ne_nil some
        refine ⟨_, ?_, .more written comma elements, List.cons_ne_nil _ _⟩
        rw [read, behind]
        simp) items
    rw [seen] at read
    exact ⟨text, token, kind, read, elements⟩

theorem property_text {entry : String × Expr}
    (given : (property nested).Gives list cursor entry after) :
    ∃ name colon text e, name.kind = .identifier ∧ colon.kind = .symbol .colon ∧
      entry = (name.text, e) ∧
      list.visible cursor = name :: colon :: text ++ list.visible after ∧ e.Text text := by
  unfold property at given
  obtain ⟨name, nameKind, nameSeen, rest⟩ := (gives_expect_bind (by decide)).mp given
  obtain ⟨colon, colonKind, colonSeen, rest⟩ := (gives_expect_bind (by decide)).mp rest
  obtain ⟨value, taken, rfl⟩ := gives_bind_pure.mp rest
  obtain ⟨text, read, written⟩ := texts taken
  refine ⟨name, colon, text, value, nameKind, colonKind, rfl, ?_, written⟩
  rw [nameSeen, colonSeen, read]
  rfl

theorem properties_text {demand : String} {values : List (String × Expr)}
    (given : (commaList (property nested) .rightBrace demand).Gives list cursor values after) :
    ∃ text token, token.kind = .symbol .rightBrace ∧
      list.visible cursor = text ++ token :: list.visible after ∧ PropertiesText text values := by
  obtain ⟨token, kind, ⟨rfl, seen⟩ | ⟨rounds, middle, items, seen⟩⟩ := commaList_sound given
  · exact ⟨[], token, kind, seen, .none⟩
  · obtain ⟨text, read, properties, _⟩ := commaSeparated_sound
      (motive := fun input values rest =>
        ∃ text, input = text ++ rest ∧ PropertiesText text values ∧ values ≠ [])
      (fun first => by
        obtain ⟨_, _, _, _, nameKind, colonKind, rfl, read, written⟩ := property_text texts first
        exact ⟨_, read, .last nameKind colonKind written, List.cons_ne_nil _ _⟩)
      (fun first behind comma others => by
        obtain ⟨_, _, _, _, nameKind, colonKind, rfl, read, written⟩ := property_text texts first
        obtain ⟨more, rfl, properties, some⟩ := others
        obtain ⟨next, rest, rfl⟩ := List.exists_cons_of_ne_nil some
        refine ⟨_, ?_, .more nameKind colonKind written comma properties, List.cons_ne_nil _ _⟩
        rw [read, behind]
        simp) items
    rw [seen] at read
    exact ⟨text, token, kind, read, properties⟩

/-! ## Primaries and links -/

omit texts in
/-- A primary of one token. -/
theorem literal_text {kind : Kind} (noEnd : kind ≠ .endOfInput)
    (noParenthesis : kind ≠ .symbol .leftParen) (here : (list.token cursor).kind = kind)
    {found e : Expr} (given : Gives (advance >>= fun _ => pure found) list cursor e after)
    (leaf : Leaf (list.token cursor) (list.token cursor).position found) :
    TakesExpression list cursor e after := by
  obtain ⟨seen, rest⟩ := gives_take noEnd here given
  obtain ⟨rfl, rfl⟩ := gives_pure.mp rest
  exact ⟨[list.token cursor], seen, .leaf leaf (stands_cons here noParenthesis [])⟩

/-- A primary is one token, or has brackets around it; parentheses are part of the text and make no
node. -/
theorem primary_text {e : Expr} (given : (primary nested).Gives list cursor e after) :
    TakesExpression list cursor e after := by
  unfold primary at given
  rw [gives_current_bind] at given
  -- One case for each kind of token that a primary starts with, in the order of the parser.
  split at given <;> rename_i kind
  · exact literal_text (by decide) (by decide) kind given (.number kind)
  · exact literal_text (by decide) (by decide) kind given (.string kind)
  · exact literal_text (by decide) (by decide) kind given (.yes kind)
  · exact literal_text (by decide) (by decide) kind given (.no kind)
  · exact literal_text (by decide) (by decide) kind given (.null (.inl kind))
  · exact literal_text (by decide) (by decide) kind given (.null (.inr kind))
  · exact literal_text (by decide) (by decide) kind given (.nan kind)
  · exact literal_text (by decide) (by decide) kind given (.identifier kind)
  · obtain ⟨seen, rest⟩ := gives_take (by decide) kind given
    obtain ⟨values, elements, rfl⟩ := gives_bind_pure.mp rest
    obtain ⟨text, closing, closeKind, read, written⟩ := elements_text texts elements
    refine ⟨_, ?_, .array kind written closeKind (stands_cons kind (by decide) _)⟩
    rw [seen, read]
    simp
  · obtain ⟨seen, rest⟩ := gives_take (by decide) kind given
    obtain ⟨values, properties, rfl⟩ := gives_bind_pure.mp rest
    obtain ⟨text, closing, closeKind, read, written⟩ := properties_text texts properties
    refine ⟨_, ?_, .object kind written closeKind (stands_cons kind (by decide) _)⟩
    rw [seen, read]
    simp
  · obtain ⟨seen, rest⟩ := gives_take (by decide) kind given
    obtain ⟨inner, middle, taken, rest⟩ := gives_bind.mp rest
    obtain ⟨closing, closeKind, closeSeen, finish⟩ := (gives_expect_bind (by decide)).mp rest
    obtain ⟨rfl, rfl⟩ := gives_pure.mp finish
    obtain ⟨text, read, written⟩ := texts taken
    refine ⟨_, ?_, .parentheses kind written closeKind⟩
    rw [seen, read, closeSeen]
    simp
  · exact absurd given gives_throw

/-- A link adds to the text of what it goes behind. -/
theorem link_text {inner outer : Expr}
    (given : (link nested inner).Gives list cursor (some outer) after) {text : List Token}
    (written : inner.Text text) :
    ∃ more, list.visible cursor = more ++ list.visible after ∧ outer.Text (text ++ more) := by
  unfold link at given
  rw [gives_currentKind_bind] at given
  split at given <;> rename_i kind
  · obtain ⟨seen, rest⟩ := gives_take (by decide) kind given
    obtain ⟨name, nameKind, nameSeen, finish⟩ := (gives_expect_bind (by decide)).mp rest
    obtain ⟨same, rfl⟩ := gives_pure.mp finish
    cases same
    refine ⟨_, ?_, .member written kind nameKind (written.stands.append _)⟩
    rw [seen, nameSeen]
    rfl
  · obtain ⟨seen, rest⟩ := gives_take (by decide) kind given
    obtain ⟨key, taken, same⟩ := gives_bind_pure.mp rest
    cases same
    obtain ⟨keyText, read, keyWritten⟩ := texts taken
    refine ⟨_, ?_, .arrow written kind keyWritten (written.stands.append _)⟩
    rw [seen, read]
    rfl
  · obtain ⟨seen, rest⟩ := gives_take (by decide) kind given
    obtain ⟨key, middle, taken, rest⟩ := gives_bind.mp rest
    obtain ⟨closing, closeKind, closeSeen, finish⟩ := (gives_expect_bind (by decide)).mp rest
    obtain ⟨same, rfl⟩ := gives_pure.mp finish
    cases same
    obtain ⟨keyText, read, keyWritten⟩ := texts taken
    refine ⟨list.token cursor :: keyText ++ [closing], ?_, ?_⟩
    · rw [seen, read, closeSeen]
      simp
    · rw [← List.append_assoc]
      exact .bracket written kind keyWritten closeKind
        ((written.stands.append _).append _)
  · obtain ⟨seen, rest⟩ := gives_take (by decide) kind given
    obtain ⟨values, taken, same⟩ := gives_bind_pure.mp rest
    cases same
    obtain ⟨argumentText, closing, closeKind, read, elements⟩ := elements_text texts taken
    refine ⟨list.token cursor :: argumentText ++ [closing], ?_, ?_⟩
    · rw [seen, read]
      simp
    · rw [← List.append_assoc]
      exact .call written kind elements closeKind ((written.stands.append _).append _)
  · cases (gives_pure.mp given).1

theorem links_text : ∀ {rounds cursor after : Nat} {inner outer : Expr} {text : List Token},
    (links nested rounds inner).Gives list cursor outer after → inner.Text text →
    ∃ more, list.visible cursor = more ++ list.visible after ∧ outer.Text (text ++ more) := by
  intro rounds
  induction rounds with
  | zero =>
    intro cursor after inner outer text given
    exact absurd given gives_outOfBudget
  | succ rounds ih =>
    intro cursor after inner outer text given written
    unfold links at given
    obtain ⟨found, middle, linked, rest⟩ := gives_bind.mp given
    cases found with
    | some next =>
      obtain ⟨more, read, nextWritten⟩ := link_text texts linked written
      obtain ⟨others, readOthers, outerWritten⟩ := ih rest nextWritten
      rw [List.append_assoc] at outerWritten
      refine ⟨_, ?_, outerWritten⟩
      rw [read, readOthers, List.append_assoc]
    | none =>
      obtain ⟨rfl, _⟩ := link_declines linked
      obtain ⟨rfl, rfl⟩ := gives_pure.mp rest
      exact ⟨[], rfl, (List.append_nil text).symm ▸ written⟩

/-! ## Operators -/

theorem unaryUpTo_text : ∀ {rounds cursor after : Nat} {e : Expr},
    (unaryUpTo nested rounds).Gives list cursor e after →
    TakesExpression list cursor e after := by
  intro rounds
  induction rounds with
  | zero =>
    intro cursor after e given
    exact absurd given gives_outOfBudget
  | succ rounds ih =>
    intro cursor after e given
    unfold unaryUpTo at given
    rw [gives_current_bind] at given
    split at given <;> rename_i found
    · obtain ⟨mark, kind, sign⟩ := unaryOperator?_eq_some_iff.mp found
      obtain ⟨seen, rest⟩ := gives_take (by simp) kind given
      obtain ⟨operand, inner, rfl⟩ := gives_bind_pure.mp rest
      obtain ⟨text, read, written⟩ := ih inner
      -- no operator is an opening parenthesis, so the node stands at its operator
      have solid : Kind.symbol mark ≠ .symbol .leftParen := by cases sign <;> decide
      refine ⟨_, ?_, .unary kind sign written (stands_cons kind solid _)⟩
      rw [seen, read]
      rfl
    · unfold chain at given
      rw [gives_budget_bind] at given
      obtain ⟨first, middle, taken, rest⟩ := gives_bind.mp given
      obtain ⟨text, read, written⟩ := primary_text texts taken
      obtain ⟨more, readMore, outerWritten⟩ := links_text texts rest written
      refine ⟨_, ?_, outerWritten⟩
      rw [read, readMore, List.append_assoc]

omit texts in
/-- The operators of one level add to the text of what was read so far. -/
theorem operators_text {n : Nat} {level : Level} (place : levels[n]? = some level)
    {operand : Parse Expr} (operands : GivesTexts list operand) :
    ∀ {rounds cursor after : Nat} {left e : Expr} {text : List Token},
      (operators level operand rounds left).Gives list cursor e after → left.Text text →
      ∃ more, list.visible cursor = more ++ list.visible after ∧ e.Text (text ++ more) := by
  intro rounds
  induction rounds with
  | zero =>
    intro cursor after left e text given
    exact absurd given gives_outOfBudget
  | succ rounds ih =>
    intro cursor after left e text given written
    unfold operators at given
    rw [gives_currentKind_bind] at given
    split at given <;> rename_i found
    · obtain ⟨mark, kind, stands⟩ := (operator?_eq_some_iff place).mp found
      obtain ⟨seen, rest⟩ := gives_take (by simp) kind given
      obtain ⟨right, middle, taken, rest⟩ := gives_bind.mp rest
      obtain ⟨rightText, read, rightWritten⟩ := operands taken
      obtain ⟨others, readOthers, wholeWritten⟩ := ih rest
        (.binary written kind stands rightWritten (written.stands.append _))
      rw [List.append_assoc] at wholeWritten
      refine ⟨_, ?_, wholeWritten⟩
      rw [seen, read, readOthers]
      simp
    · obtain ⟨rfl, rfl⟩ := gives_pure.mp given
      exact ⟨[], rfl, (List.append_nil text).symm ▸ written⟩

theorem binary_text : ∀ {tables : List Level}, tables ⊆ levels →
    GivesTexts list (binary nested tables) := by
  intro tables
  -- by induction on the levels; only levels that the parser knows have operators of the grammar
  induction tables with
  | nil =>
    intro _ cursor after e given
    unfold binary unary at given
    rw [gives_budget_bind] at given
    exact unaryUpTo_text texts given
  | cons level tighter ih =>
    intro known cursor after e given
    obtain ⟨isLevel, others⟩ := List.cons_subset.mp known
    obtain ⟨n, place⟩ := List.mem_iff_getElem?.mp isLevel
    unfold binary at given
    obtain ⟨left, middle, first, rest⟩ := gives_bind.mp given
    rw [gives_budget_bind] at rest
    obtain ⟨text, read, written⟩ := ih others first
    obtain ⟨more, readMore, wholeWritten⟩ := operators_text place (ih others) rest written
    refine ⟨_, ?_, wholeWritten⟩
    rw [read, readMore, List.append_assoc]

end

/-! ## Expressions -/

theorem expressionUpTo_text (depth : Nat) : GivesTexts list (expressionUpTo depth) := by
  induction depth with
  | zero =>
    intro cursor after e given
    exact absurd given gives_outOfBudget
  | succ depth ih =>
    intro cursor after e given
    exact binary_text ih (List.Subset.refl levels) given

/-- What is parsed as an expression is the text of it. -/
theorem expression_text : GivesTexts list expression := by
  intro cursor after e given
  unfold expression at given
  rw [gives_budget_bind] at given
  exact expressionUpTo_text _ given

/-! ## Blocks -/

/-- A parser gives trees of the statements that it takes. -/
def GivesStatementTexts (list : TokenList) (nested : Parse Stmt) : Prop :=
  ∀ {cursor after : Nat} {s : Stmt}, nested.Gives list cursor s after →
    TakesStatement list cursor s after

section

variable {nested : Parse Stmt} (texts : GivesStatementTexts list nested)

include texts

theorem statementsUntil_text {ends : List Kind} :
    ∀ {rounds cursor after : Nat} {body : List Stmt},
      (statementsUntil nested ends rounds).Gives list cursor body after →
      ∃ text, list.visible cursor = text ++ list.visible after ∧ StatementsText text body ∧
        (list.token after).kind ∈ ends := by
  intro rounds
  induction rounds with
  | zero =>
    intro cursor after body given
    exact absurd given gives_outOfBudget
  | succ rounds ih =>
    intro cursor after body given
    unfold statementsUntil at given
    rw [gives_check_bind] at given
    split at given <;> rename_i here
    · obtain ⟨rfl, rfl⟩ := gives_pure.mp given
      exact ⟨[], rfl, .none, List.contains_iff_mem.mp here⟩
    · obtain ⟨first, middle, taken, rest⟩ := gives_bind.mp given
      obtain ⟨others, tail, rfl⟩ := gives_bind_pure.mp rest
      obtain ⟨text, ending, read, written, ended⟩ := texts taken
      obtain ⟨more, readMore, othersWritten, last⟩ := ih tail
      refine ⟨_, ?_, .cons written ended othersWritten, last⟩
      rw [read, readMore, List.append_assoc (text ++ ending)]

theorem block_text {what : String} {body : List Stmt}
    (given : (block nested what).Gives list cursor body after) :
    ∃ text, list.visible cursor = text ++ list.visible after ∧ BlockText text body := by
  unfold block at given
  obtain ⟨opening, openKind, openSeen, rest⟩ := (gives_expect_bind (by decide)).mp given
  rw [gives_budget_bind] at rest
  obtain ⟨body, middle, statements, rest⟩ := gives_bind.mp rest
  obtain ⟨closing, taken, rfl⟩ := gives_bind_pure.mp rest
  obtain ⟨closeKind, closeSeen, _⟩ := (gives_expect (by decide)).mp taken
  obtain ⟨text, read, written, _⟩ := statementsUntil_text texts statements
  refine ⟨_, ?_, .mk openKind written closeKind⟩
  rw [openSeen, read, closeSeen]
  simp

end

/-! ## Declarations and assignments -/

/-- A declaration without its semicolon, which a loop takes as well. -/
theorem declaration_text {s : Stmt} {constant : Bool}
    (binding : Declarator (list.token cursor).kind constant)
    (given : declaration.Gives list cursor s after) :
    ∃ text p name value, list.visible cursor = text ++ list.visible after ∧
      s = .declare p name constant value ∧ s.Text text := by
  obtain ⟨seen, rest⟩ := gives_take (declarator_goesOn binding) rfl given
  obtain ⟨name, nameKind, nameSeen, rest⟩ := (gives_expect_bind (by decide)).mp rest
  obtain ⟨equals, equalsKind, equalsSeen, rest⟩ := (gives_expect_bind (by decide)).mp rest
  obtain ⟨value, taken, rfl⟩ := gives_bind_pure.mp rest
  obtain ⟨text, read, written⟩ := expression_text taken
  have solid : (list.token cursor).kind ≠ .symbol .leftParen := by
    intro kind
    rw [kind] at binding
    cases binding
  rw [(declarator_iff.mp binding).2]
  refine ⟨_, _, _, _, ?_, rfl,
    .declare binding nameKind equalsKind written (stands_cons rfl solid _)⟩
  rw [seen, nameSeen, equalsSeen, read]
  rfl

theorem assigns_of_assignmentTo? {p : Position} {target value : Expr} {s : Stmt}
    (found : assignmentTo? p target value = some s) : Assigns p value target s := by
  unfold assignmentTo? at found
  split at found
  · cases found
    exact .name
  · cases found
    exact .member
  · cases found
    exact .computed
  · cases found

/-- An assignment that is not declined. Its target is an expression whose first token is the name
that the statement starts with. -/
theorem assignment_text {s : Stmt} (first : (list.token cursor).kind = .identifier)
    (given : assignment.Gives list cursor (some s) after) :
    TakesStatement list cursor s after := by
  unfold assignment at given
  rw [gives_current_bind] at given
  obtain ⟨target, middle, takenTarget, rest⟩ := gives_bind.mp given
  obtain ⟨found, next, accepted, rest⟩ := gives_bind.mp rest
  cases found with
  | none => cases (gives_pure.mp rest).1
  | some equals =>
    obtain ⟨equalsKind, equalsSeen, _⟩ := (gives_accept_some (by decide)).mp accepted
    obtain ⟨value, last, takenValue, rest⟩ := gives_bind.mp rest
    obtain ⟨semicolon, semicolonKind, semicolonSeen, rest⟩ :=
      (gives_expect_bind (by decide)).mp rest
    split at rest <;> rename_i found
    · obtain ⟨same, rfl⟩ := gives_pure.mp rest
      cases same
      have assigns := assigns_of_assignmentTo? found
      obtain ⟨targetText, readTarget, targetWritten⟩ := expression_text takenTarget
      obtain ⟨valueText, readValue, valueWritten⟩ := expression_text takenValue
      have goesOn : (list.token cursor).kind ≠ .endOfInput := by rw [first]; decide
      have seen := TokenList.visible_of_kind goesOn
      obtain ⟨head, tail, rfl⟩ := List.exists_cons_of_ne_nil targetWritten.stands.ne_nil
      -- the text of the target starts with the token at the cursor
      have same : head = list.token cursor := (List.cons.inj (readTarget.symm.trans seen)).1
      subst same
      refine ⟨_, [semicolon], ?_, .assign first targetWritten equalsKind valueWritten assigns
        (stands_cons first (by decide) _), .semicolon ?_ semicolonKind⟩
      · rw [readTarget, equalsSeen, readValue, semicolonSeen]
        simp
      · cases assigns <;> rfl
    · exact absurd rest gives_throw

/-! ## Procedures -/

/-- Names stand before any rest. -/
theorem names_text {input rest : List Token} {names : List String}
    (reading : Names input names rest) :
    ∃ text, input = text ++ rest ∧ ∀ other, Names (text ++ other) names other := by
  induction reading with
  | last kind => exact ⟨[_], rfl, fun _ => .last kind⟩
  | more kind comma _ ih =>
    obtain ⟨text, rfl, anywhere⟩ := ih
    exact ⟨_ :: _ :: text, rfl, fun other => .more kind comma (anywhere other)⟩

section

variable {nested : Parse Stmt} (texts : GivesStatementTexts list nested)

include texts

theorem procedure_text {s : Stmt} (given : (procedure nested).Gives list cursor s after) :
    TakesStatement list cursor s after := by
  unfold procedure at given
  obtain ⟨keyword, keywordKind, keywordSeen, rest⟩ := (gives_expect_bind (by decide)).mp given
  obtain ⟨name, nameKind, nameSeen, rest⟩ := (gives_expect_bind (by decide)).mp rest
  obtain ⟨opening, openKind, openSeen, rest⟩ := (gives_expect_bind (by decide)).mp rest
  -- With parameters or without, the closing parenthesis is taken and the body follows.
  have finish : ∀ (names : List Token) {parameters : List String} {middle : Nat},
      list.visible (cursor + 1 + 1 + 1) = names ++ list.visible middle →
      Parameters names parameters [] →
      Gives (block nested "procedure body" >>= fun body =>
        pure (Stmt.procedure keyword.position name.text parameters body)) list middle s after →
      TakesStatement list cursor s after := by
    intro names parameters middle readNames holds given
    obtain ⟨body, takenBody, rfl⟩ := gives_bind_pure.mp given
    obtain ⟨text, read, written⟩ := block_text texts takenBody
    refine ⟨_, [], ?_, .procedure keywordKind nameKind openKind holds written
      (stands_cons keywordKind (by decide) _), .block rfl⟩
    rw [keywordSeen, nameSeen, openSeen, readNames, read]
    simp
  rw [gives_check_bind] at rest
  split at rest
  · obtain ⟨parameters, middle, none, rest⟩ := gives_bind.mp rest
    obtain ⟨rfl, rfl⟩ := gives_pure.mp none
    obtain ⟨closing, closeKind, closeSeen, rest⟩ := (gives_expect_bind (by decide)).mp rest
    exact finish [closing] closeSeen (.none closeKind) rest
  · rw [gives_budget_bind] at rest
    obtain ⟨parameters, middle, some, rest⟩ := gives_bind.mp rest
    obtain ⟨new, rfl, distinct, reading⟩ := parametersFrom_sound some List.nodup_nil
    obtain ⟨closing, closeKind, closeSeen, rest⟩ := (gives_expect_bind (by decide)).mp rest
    obtain ⟨text, read, anywhere⟩ := names_text reading
    refine finish (text ++ [closing]) ?_ (.some (anywhere _) distinct closeKind) rest
    rw [read, closeSeen]
    simp

end

theorem returns_text {s : Stmt} (given : returns.Gives list cursor s after) :
    TakesStatement list cursor s after := by
  unfold returns at given
  obtain ⟨keyword, keywordKind, keywordSeen, rest⟩ := (gives_expect_bind (by decide)).mp given
  obtain ⟨value, middle, takenValue, rest⟩ := gives_bind.mp rest
  obtain ⟨semicolon, taken, rfl⟩ := gives_bind_pure.mp rest
  obtain ⟨semicolonKind, semicolonSeen, _⟩ := (gives_expect (by decide)).mp taken
  obtain ⟨text, read, written⟩ := expression_text takenValue
  refine ⟨_, [semicolon], ?_, .returns keywordKind written
    (stands_cons keywordKind (by decide) _), .semicolon rfl semicolonKind⟩
  rw [keywordSeen, read, semicolonSeen]
  simp

theorem expressionStatement_text {s : Stmt}
    (given : expressionStatement.Gives list cursor s after) :
    TakesStatement list cursor s after := by
  unfold expressionStatement at given
  obtain ⟨value, middle, takenValue, rest⟩ := gives_bind.mp given
  obtain ⟨semicolon, taken, rfl⟩ := gives_bind_pure.mp rest
  obtain ⟨semicolonKind, semicolonSeen, _⟩ := (gives_expect (by decide)).mp taken
  obtain ⟨text, read, written⟩ := expression_text takenValue
  refine ⟨text, [semicolon], ?_, .expression written, .semicolon rfl semicolonKind⟩
  rw [read, semicolonSeen]
  simp

/-! ## Conditionals -/

theorem condition_text {keyword : String} {e : Expr}
    (given : (condition keyword).Gives list cursor e after) :
    ∃ text, list.visible cursor = text ++ list.visible after ∧ ConditionText e text := by
  unfold condition at given
  obtain ⟨opening, openKind, openSeen, rest⟩ := (gives_expect_bind (by decide)).mp given
  obtain ⟨value, middle, takenValue, rest⟩ := gives_bind.mp rest
  obtain ⟨closing, taken, rfl⟩ := gives_bind_pure.mp rest
  obtain ⟨closeKind, closeSeen, _⟩ := (gives_expect (by decide)).mp taken
  obtain ⟨text, read, written⟩ := expression_text takenValue
  refine ⟨_, ?_, .mk openKind written closeKind⟩
  rw [openSeen, read, closeSeen]
  simp

section

variable {nested : Parse Stmt} (texts : GivesStatementTexts list nested)

include texts

theorem fallback_text : ∀ {rounds cursor after : Nat} {otherwise : Fallback},
    (fallback nested rounds).Gives list cursor otherwise after →
    ∃ text, list.visible cursor = text ++ list.visible after ∧ otherwise.Text text := by
  intro rounds
  induction rounds with
  | zero =>
    intro cursor after otherwise given
    exact absurd given gives_outOfBudget
  | succ rounds ih =>
    intro cursor after otherwise given
    unfold fallback at given
    obtain ⟨found, middle, accepted, rest⟩ := gives_bind.mp given
    cases found with
    | some keyword =>
      obtain ⟨kind, seen, _⟩ := (gives_accept_some (by decide)).mp accepted
      obtain ⟨test, second, takenTest, rest⟩ := gives_bind.mp rest
      obtain ⟨body, third, takenBody, rest⟩ := gives_bind.mp rest
      obtain ⟨others, tail, rfl⟩ := gives_bind_pure.mp rest
      obtain ⟨testText, readTest, testWritten⟩ := condition_text takenTest
      obtain ⟨bodyText, readBody, bodyWritten⟩ := block_text texts takenBody
      obtain ⟨othersText, readOthers, othersWritten⟩ := ih tail
      refine ⟨_, ?_, .elif kind testWritten bodyWritten
        (stands_cons kind (by decide) _) othersWritten⟩
      rw [seen, readTest, readBody, readOthers]
      simp
    | none =>
      obtain ⟨_, rfl⟩ := (gives_accept_none (by decide)).mp accepted
      obtain ⟨other, second, otherAccepted, finish⟩ := gives_bind.mp rest
      cases other with
      | some keyword =>
        obtain ⟨kind, seen, _⟩ := (gives_accept_some (by decide)).mp otherAccepted
        obtain ⟨body, takenBody, rfl⟩ := gives_bind_pure.mp finish
        obtain ⟨text, read, written⟩ := block_text texts takenBody
        refine ⟨_, ?_, .block kind written⟩
        rw [seen, read]
        rfl
      | none =>
        obtain ⟨_, rfl⟩ := (gives_accept_none (by decide)).mp otherAccepted
        obtain ⟨rfl, rfl⟩ := gives_pure.mp finish
        exact ⟨[], rfl, .nothing⟩

theorem incase_text {s : Stmt} (given : (incase nested).Gives list cursor s after) :
    TakesStatement list cursor s after := by
  unfold incase at given
  obtain ⟨keyword, kind, seen, rest⟩ := (gives_expect_bind (by decide)).mp given
  obtain ⟨test, second, takenTest, rest⟩ := gives_bind.mp rest
  obtain ⟨body, third, takenBody, rest⟩ := gives_bind.mp rest
  rw [gives_budget_bind] at rest
  obtain ⟨others, tail, rfl⟩ := gives_bind_pure.mp rest
  obtain ⟨testText, readTest, testWritten⟩ := condition_text takenTest
  obtain ⟨bodyText, readBody, bodyWritten⟩ := block_text texts takenBody
  obtain ⟨othersText, readOthers, othersWritten⟩ := fallback_text texts tail
  refine ⟨_, [], ?_, .incase kind testWritten bodyWritten othersWritten
    (stands_cons kind (by decide) _), .block rfl⟩
  rw [seen, readTest, readBody, readOthers]
  simp

/-! ## Loops -/

/-- A loop through an array, from behind its opening parenthesis. -/
theorem throughLoop_text {keyword opening : Token} {s : Stmt} {constant : Bool}
    (binding : Declarator (list.token cursor).kind constant)
    (given : (throughLoop nested keyword.position).Gives list cursor (some s) after)
    (keywordKind : keyword.kind = .keyword .drift)
    (openKind : opening.kind = .symbol .leftParen) :
    ∃ text, keyword :: opening :: list.visible cursor = text ++ list.visible after ∧
      s.Text text ∧ Ending s [] := by
  unfold throughLoop at given
  obtain ⟨seen, rest⟩ := gives_take (declarator_goesOn binding) rfl given
  obtain ⟨found, second, accepted, rest⟩ := gives_bind.mp rest
  cases found with
  | none => cases (gives_pure.mp rest).1
  | some name =>
    obtain ⟨nameKind, nameSeen, _⟩ := (gives_accept_some (by decide)).mp accepted
    obtain ⟨word, third, wordAccepted, rest⟩ := gives_bind.mp rest
    cases word with
    | none => cases (gives_pure.mp rest).1
    | some through =>
      obtain ⟨throughKind, throughSeen, _⟩ := (gives_accept_some (by decide)).mp wordAccepted
      obtain ⟨iterable, fourth, takenIterable, rest⟩ := gives_bind.mp rest
      obtain ⟨closing, closeKind, closeSeen, rest⟩ := (gives_expect_bind (by decide)).mp rest
      obtain ⟨body, takenBody, same⟩ := gives_bind_pure.mp rest
      cases same
      obtain ⟨source, readSource, sourceWritten⟩ := expression_text takenIterable
      obtain ⟨text, read, written⟩ := block_text texts takenBody
      rw [(declarator_iff.mp binding).2]
      refine ⟨_, ?_, .through keywordKind openKind binding nameKind throughKind sourceWritten
        closeKind written (stands_cons keywordKind (by decide) _), .block rfl⟩
      rw [seen, nameSeen, throughSeen, readSource, closeSeen, read]
      simp

/-- A counting loop, from behind its opening parenthesis. -/
theorem countingLoop_text {keyword opening : Token} {s : Stmt} {constant : Bool}
    (binding : Declarator (list.token cursor).kind constant)
    (given : (countingLoop nested keyword.position).Gives list cursor s after)
    (keywordKind : keyword.kind = .keyword .drift)
    (openKind : opening.kind = .symbol .leftParen) :
    ∃ text, keyword :: opening :: list.visible cursor = text ++ list.visible after ∧
      s.Text text ∧ Ending s [] := by
  unfold countingLoop at given
  obtain ⟨init, second, takenInit, rest⟩ := gives_bind.mp given
  obtain ⟨first, firstKind, firstSeen, rest⟩ := (gives_expect_bind (by decide)).mp rest
  obtain ⟨test, third, takenTest, rest⟩ := gives_bind.mp rest
  obtain ⟨semicolon, semicolonKind, semicolonSeen, rest⟩ := (gives_expect_bind (by decide)).mp rest
  obtain ⟨target, targetKind, targetSeen, rest⟩ := (gives_expect_bind (by decide)).mp rest
  obtain ⟨equals, equalsKind, equalsSeen, rest⟩ := (gives_expect_bind (by decide)).mp rest
  obtain ⟨update, fourth, takenUpdate, rest⟩ := gives_bind.mp rest
  obtain ⟨closing, closeKind, closeSeen, rest⟩ := (gives_expect_bind (by decide)).mp rest
  obtain ⟨body, takenBody, rfl⟩ := gives_bind_pure.mp rest
  obtain ⟨initText, p, name, value, readInit, rfl, initWritten⟩ :=
    declaration_text binding takenInit
  obtain ⟨testText, readTest, testWritten⟩ := expression_text takenTest
  obtain ⟨updateText, readUpdate, updateWritten⟩ := expression_text takenUpdate
  obtain ⟨text, read, written⟩ := block_text texts takenBody
  -- the update is an assignment to a name, with no semicolon of its own
  have stepWritten : Stmt.Text ([target] ++ equals :: updateText)
      (.assign target.position target.text update) :=
    .assign targetKind (.leaf (.identifier targetKind) (stands_cons targetKind (by decide) []))
      equalsKind updateWritten .name (stands_cons targetKind (by decide) _)
  refine ⟨_, ?_, .drift keywordKind openKind initWritten firstKind testWritten semicolonKind
    stepWritten closeKind written (stands_cons keywordKind (by decide) _), .block rfl⟩
  rw [readInit, firstSeen, readTest, semicolonSeen, targetSeen, equalsSeen, readUpdate, closeSeen,
    read]
  simp

/-- Both forms of a loop start with the same two tokens, so the rest decides. -/
theorem drift_text {s : Stmt} (given : (drift nested).Gives list cursor s after) :
    TakesStatement list cursor s after := by
  unfold drift at given
  obtain ⟨keyword, keywordKind, keywordSeen, rest⟩ := (gives_expect_bind (by decide)).mp given
  obtain ⟨opening, openKind, openSeen, rest⟩ := (gives_expect_bind (by decide)).mp rest
  suffices loop : ∃ text, keyword :: opening :: list.visible (cursor + 1 + 1) =
      text ++ list.visible after ∧ s.Text text ∧ Ending s [] by
    obtain ⟨text, read, written, ended⟩ := loop
    exact ⟨text, [], by rw [keywordSeen, openSeen, read, List.append_nil], written, ended⟩
  rw [gives_check_bind] at rest
  split at rest <;> rename_i test
  · rw [gives_current_bind] at rest
    exact absurd rest gives_throw
  · have binding := declarator_iff.mpr ⟨by rwa [Bool.not_eq_true', Bool.not_eq_false] at test, rfl⟩
    obtain ⟨found, middle, attempted, rest⟩ := gives_bind.mp rest
    cases found with
    | some loop =>
      obtain ⟨rfl, rfl⟩ := gives_pure.mp rest
      exact throughLoop_text texts binding (gives_attempt_some.mp attempted) keywordKind openKind
    | none =>
      obtain ⟨rfl, _⟩ := gives_attempt_none.mp attempted
      exact countingLoop_text texts binding rest keywordKind openKind

/-! ## Statements -/

/-- The first token decides the form of a statement; an assignment that is declined has an
expression there. -/
theorem statementWith_text {s : Stmt} (given : (statementWith nested).Gives list cursor s after) :
    TakesStatement list cursor s after := by
  -- Declarations of either kind.
  have declares : ∀ {constant}, Declarator (list.token cursor).kind constant →
      Gives (declaration >>= fun statement =>
        expect (.symbol .semicolon) "Expected ';' after variable declaration" >>= fun _ =>
          pure statement) list cursor s after →
      TakesStatement list cursor s after := by
    intro constant binding given
    obtain ⟨declared, middle, taken, rest⟩ := gives_bind.mp given
    obtain ⟨semicolon, ended, rfl⟩ := gives_bind_pure.mp rest
    obtain ⟨kind, seen, _⟩ := (gives_expect (by decide)).mp ended
    obtain ⟨text, p, name, value, read, rfl, written⟩ := declaration_text binding taken
    refine ⟨text, [semicolon], ?_, written, .semicolon rfl kind⟩
    rw [read, seen]
    simp
  unfold statementWith at given
  rw [gives_current_bind] at given
  split at given <;> rename_i kind
  · exact declares (by rw [kind]; exact .constant) given
  · exact declares (by rw [kind]; exact .mutable) given
  · exact procedure_text texts given
  · exact returns_text given
  · obtain ⟨seen, rest⟩ := gives_take (by decide) kind given
    obtain ⟨semicolon, taken, rfl⟩ := gives_bind_pure.mp rest
    obtain ⟨semicolonKind, semicolonSeen, _⟩ := (gives_expect (by decide)).mp taken
    refine ⟨_, [semicolon], ?_, .leave kind (stands_cons kind (by decide) _),
      .semicolon rfl semicolonKind⟩
    rw [seen, semicolonSeen]
    rfl
  · obtain ⟨seen, rest⟩ := gives_take (by decide) kind given
    obtain ⟨semicolon, taken, rfl⟩ := gives_bind_pure.mp rest
    obtain ⟨semicolonKind, semicolonSeen, _⟩ := (gives_expect (by decide)).mp taken
    refine ⟨_, [semicolon], ?_, .proceed kind (stands_cons kind (by decide) _),
      .semicolon rfl semicolonKind⟩
    rw [seen, semicolonSeen]
    rfl
  · exact incase_text texts given
  · exact drift_text texts given
  · obtain ⟨found, middle, attempted, rest⟩ := gives_bind.mp given
    cases found with
    | some assigned =>
      obtain ⟨rfl, rfl⟩ := gives_pure.mp rest
      exact assignment_text kind (gives_attempt_some.mp attempted)
    | none =>
      obtain ⟨rfl, _⟩ := gives_attempt_none.mp attempted
      exact expressionStatement_text rest
  · exact expressionStatement_text given

end

theorem statementUpTo_text (depth : Nat) : GivesStatementTexts list (statementUpTo depth) := by
  induction depth with
  | zero =>
    intro cursor after s given
    exact absurd given gives_outOfBudget
  | succ depth ih =>
    intro cursor after s given
    exact statementWith_text ih given

/-- What is parsed as a statement is the text of it and what ends it. -/
theorem statement_text : GivesStatementTexts list statement := by
  intro cursor after s given
  unfold statement at given
  rw [gives_budget_bind] at given
  exact statementUpTo_text _ given

end Script.Parse

namespace Script

/-- What is parsed as a program is the text of its statements, and the program stands at the first
token. -/
theorem parse_text {tokens : List Token} {program : Program} (parsed : parse tokens = .ok program) :
    StatementsText (Grammar.beforeEnd tokens) program.body ∧
      program.position = ((TokenList.ofList tokens).token 0).position := by
  obtain ⟨after, given⟩ := parse_eq_ok_iff.mp parsed
  unfold Parse.program at given
  rw [Parse.gives_current_bind, Parse.gives_budget_bind] at given
  obtain ⟨body, statements, rfl⟩ := Parse.gives_bind_pure.mp given
  obtain ⟨text, read, written, ended⟩ := Parse.statementsUntil_text Parse.statement_text statements
  rw [TokenList.visible_of_end (List.mem_singleton.mp ended), List.append_nil,
    TokenList.visible_ofList] at read
  rw [read]
  exact ⟨written, rfl⟩

/-- A node stands in the text of the statement that it lies in, and that text lies among the tokens.
-/
theorem parse_placed {tokens : List Token} {program : Program}
    (parsed : parse tokens = .ok program) {node : TreeNode} (isNode : program.Has node) :
    ∃ text, text <:+: tokens ∧ Placed text node := by
  obtain ⟨s, member, lies⟩ := isNode
  obtain ⟨text, inside, placed⟩ :=
    (parse_text parsed).1.spaced.exists_infix (List.mem_map_of_mem member)
  obtain ⟨inner, deeper, placedInner⟩ := placed.exists_infix lies
  exact ⟨inner, (deeper.trans inside).trans (List.takeWhile_prefix _).isInfix, placedInner⟩

end Script
