import Script.Parse.Expression
import Script.Proofs.Grammar.Shape
import Script.Proofs.Parse.Cursor

/-!
# What expression parsers accept

Every parser of expressions reads a phrase of the grammar and stops where nothing can continue it:
`expression_sound` at the end, one lemma for each parser before. The parser of nested expressions
is a parameter, and what is asked of it (`ReadsExpressions`) is what the knot gives back.

A key behind an arrow is the longest possible one because the parser stops only at a stop.
-/

namespace Script.Parse

open Grammar

variable {list : TokenList} {cursor after : Nat}

/-! ## Tables of operators -/

theorem operator_of_mem {n : Nat} {level : Level} (place : levels[n]? = some level)
    {mark : Symbol} {operator : BinaryOp} (member : (mark, operator) ∈ level) :
    Operator n mark operator := by
  match n, place with
  | 0, rfl | 1, rfl | 2, rfl | 3, rfl =>
    cases List.mem_singleton.mp member
    constructor
  | 4, rfl | 6, rfl | 7, rfl =>
    rcases List.mem_cons.mp member with first | others
    · cases first
      constructor
    · cases List.mem_singleton.mp others
      constructor
  | 5, rfl =>
    simp only [List.mem_cons, Prod.mk.injEq, List.not_mem_nil, or_false] at member
    rcases member with ⟨rfl, rfl⟩ | ⟨rfl, rfl⟩ | ⟨rfl, rfl⟩ | ⟨rfl, rfl⟩ <;> constructor
  | n + 8, beyond => simp [levels] at beyond

/-- The first of the levels from a number on. -/
theorem level_of_drop {n : Nat} {level : Level} {tighter : List Level}
    (dropped : levels.drop n = level :: tighter) :
    n < levelCount ∧ levels[n]? = some level ∧ levels.drop (n + 1) = tighter := by
  have inside : n < levels.length := by
    apply Nat.lt_of_not_le
    intro long
    rw [List.drop_eq_nil_of_le long] at dropped
    cases dropped
  rw [List.drop_eq_getElem_cons inside, List.cons.injEq] at dropped
  obtain ⟨rfl, same⟩ := dropped
  exact ⟨inside, List.getElem?_eq_getElem inside, same⟩

/-- The table of levels says what the grammar says. -/
theorem operator?_eq_some_iff {n : Nat} {level : Level} (place : levels[n]? = some level)
    {kind : Kind} {operator : BinaryOp} :
    level.operator? kind = some operator ↔
      ∃ mark, kind = .symbol mark ∧ Operator n mark operator := by
  constructor
  · intro found
    cases kind with
    | symbol mark =>
      obtain ⟨before, behind, split, _⟩ := List.lookup_eq_some_iff.mp found
      have member : (mark, operator) ∈ level := by
        rw [split]
        exact List.mem_append_right _ List.mem_cons_self
      exact ⟨mark, rfl, operator_of_mem place member⟩
    | _ => cases found
  · rintro ⟨mark, rfl, stands⟩
    cases stands <;> (cases place; rfl)

theorem unaryOperator?_eq_some_iff {kind : Kind} {operator : UnaryOp} :
    unaryOperator? kind = some operator ↔ ∃ mark, kind = .symbol mark ∧ Sign mark operator := by
  constructor
  · intro found
    unfold unaryOperator? at found
    split at found
    · cases found
      exact ⟨.not, rfl, .not⟩
    · cases found
      exact ⟨.minus, rfl, .negate⟩
    · cases found
  · rintro ⟨mark, rfl, stands⟩
    cases stands <;> rfl

/-! ## Lists -/

/-- What holds of one item, and of an item before more items, holds of all items. -/
theorem commaSeparated_sound {α : Type} {item : Parse α}
    {motive : List Token → List α → List Token → Prop}
    (last : ∀ {cursor after value}, item.Gives list cursor value after →
      motive (list.visible cursor) [value] (list.visible after))
    (more : ∀ {cursor middle value comma input values rest},
      item.Gives list cursor value middle → list.visible middle = comma :: input →
      comma.kind = .symbol .comma → motive input values rest →
      motive (list.visible cursor) (value :: values) rest) :
    ∀ {rounds cursor after values}, (commaSeparated item rounds).Gives list cursor values after →
      motive (list.visible cursor) values (list.visible after) := by
  intro rounds
  induction rounds with
  | zero =>
    intro cursor after values given
    exact absurd given gives_outOfBudget
  | succ rounds ih =>
    intro cursor after values given
    unfold commaSeparated at given
    obtain ⟨value, middle, first, rest⟩ := gives_bind.mp given
    obtain ⟨found, next, accepted, others⟩ := gives_bind.mp rest
    cases found with
    | some comma =>
      obtain ⟨kind, seen, _⟩ := (gives_accept_some (by decide)).mp accepted
      obtain ⟨values, last, tail, rfl, rfl⟩ := gives_bind.mp others
      exact more first seen kind (ih tail)
    | none =>
      obtain ⟨_, rfl⟩ := (gives_accept_none (by decide)).mp accepted
      obtain ⟨rfl, rfl⟩ := gives_pure.mp others
      exact last first

/-- A list is empty, or has items; its closing symbol is taken in both cases. -/
theorem commaList_sound {α : Type} {item : Parse α} {closing : Symbol} {demand : String}
    {values : List α} (given : (commaList item closing demand).Gives list cursor values after) :
    ∃ token, token.kind = .symbol closing ∧
      ((values = [] ∧ list.visible cursor = token :: list.visible after) ∨
        ∃ rounds middle, (commaSeparated item rounds).Gives list cursor values middle ∧
          list.visible middle = token :: list.visible after) := by
  unfold commaList at given
  rw [gives_check_bind] at given
  by_cases closed : (list.token cursor).kind = .symbol closing
  · rw [if_pos (by simp [closed])] at given
    obtain ⟨_, _, empty, rest⟩ := gives_bind.mp given
    obtain ⟨rfl, rfl⟩ := gives_pure.mp empty
    obtain ⟨token, kind, seen, finish⟩ := (gives_expect_bind (by simp)).mp rest
    obtain ⟨rfl, rfl⟩ := gives_pure.mp finish
    exact ⟨token, kind, .inl ⟨rfl, seen⟩⟩
  · rw [if_neg (by simp [closed]), gives_budget_bind] at given
    obtain ⟨items, middle, some, rest⟩ := gives_bind.mp given
    obtain ⟨token, kind, seen, finish⟩ := (gives_expect_bind (by simp)).mp rest
    obtain ⟨rfl, rfl⟩ := gives_pure.mp finish
    exact ⟨token, kind, .inr ⟨_, middle, some, seen⟩⟩

/-! ## Primaries and links -/

/-- A parser reads expressions of the grammar, up to a stop. -/
def ReadsExpressions (list : TokenList) (nested : Parse Expr) : Prop :=
  ∀ {cursor after : Nat} {e : Expr}, nested.Gives list cursor e after →
    Expression (list.visible cursor) e.erase (list.visible after) ∧ Stops 0 (list.visible after)

section

variable {nested : Parse Expr} (reads : ReadsExpressions list nested)

include reads

theorem elements_sound {closing : Symbol} {demand : String} {values : List Expr}
    (given : (commaList nested closing demand).Gives list cursor values after) :
    Elements Longest closing (list.visible cursor) (eraseElements values)
      (list.visible after) := by
  obtain ⟨token, kind, ⟨rfl, seen⟩ | ⟨rounds, middle, items, seen⟩⟩ := commaList_sound given
  · rw [seen]
    exact .none kind
  · have reading := commaSeparated_sound
      (motive := fun input values rest => Items Longest input (eraseElements values) rest)
      (fun first => .last (reads first).1)
      (fun first behind comma others => .more (behind ▸ (reads first).1) comma others) items
    rw [seen] at reading
    exact .some reading kind

theorem property_sound {key : String} {e : Expr}
    (given : (property nested).Gives list cursor (key, e) after) :
    ∃ token colon input, token.kind = .identifier ∧ colon.kind = .symbol .colon ∧
      key = token.text ∧ list.visible cursor = token :: colon :: input ∧
      Expression input e.erase (list.visible after) := by
  unfold property at given
  obtain ⟨token, keyKind, keySeen, rest⟩ := (gives_expect_bind (by decide)).mp given
  obtain ⟨colon, colonKind, colonSeen, rest⟩ := (gives_expect_bind (by decide)).mp rest
  obtain ⟨value, taken, same⟩ := gives_bind_pure.mp rest
  cases same
  exact ⟨token, colon, _, keyKind, colonKind, rfl, by rw [keySeen, colonSeen], (reads taken).1⟩

theorem properties_sound {demand : String} {values : List (String × Expr)}
    (given : (commaList (property nested) .rightBrace demand).Gives list cursor values after) :
    Properties Longest (list.visible cursor) (eraseProperties values) (list.visible after) := by
  obtain ⟨token, kind, ⟨rfl, seen⟩ | ⟨rounds, middle, items, seen⟩⟩ := commaList_sound given
  · rw [seen]
    exact .none kind
  · have reading := commaSeparated_sound
      (motive := fun input values rest => Entries Longest input (eraseProperties values) rest)
      (fun {_ _ value} first => by
        obtain ⟨_, _, _, keyKind, colonKind, same, seen, inner⟩ := property_sound reads first
        rw [seen, eraseProperties, same]
        exact .last keyKind colonKind inner)
      (fun {_ _ value _ _ _ _} first behind comma others => by
        obtain ⟨_, _, _, keyKind, colonKind, same, seen, inner⟩ := property_sound reads first
        rw [seen, eraseProperties, same]
        exact .more keyKind colonKind (behind ▸ inner) comma others) items
    rw [seen] at reading
    exact .some reading kind

omit reads in
/-- A primary of one token. -/
theorem literal_sound {kind : Kind} (noEnd : kind ≠ .endOfInput)
    (here : (list.token cursor).kind = kind) {found e : Expr}
    (given : Gives (advance >>= fun _ => pure found) list cursor e after)
    (reading : ∀ {rest}, Primary Longest (list.token cursor :: rest) found.erase rest) :
    Primary Longest (list.visible cursor) e.erase (list.visible after) := by
  rw [gives_advance_bind (here ▸ noEnd), gives_pure] at given
  obtain ⟨rfl, rfl⟩ := given
  rw [TokenList.visible_of_kind (here ▸ noEnd)]
  exact reading

theorem primary_sound (numerals : ValidNumerals list.tokens.toList) {e : Expr}
    (given : (primary nested).Gives list cursor e after) :
    Primary Longest (list.visible cursor) e.erase (list.visible after) := by
  unfold primary at given
  rw [gives_current_bind] at given
  -- One case for each kind of token that a primary starts with, in the order of the parser.
  split at given <;> rename_i kind
  · refine literal_sound (by decide) kind given ?_
    intro rest
    have member : list.token cursor ∈ list.tokens.toList := by
      apply TokenList.mem_of_mem_visible
      rw [TokenList.visible_of_kind (by rw [kind]; decide)]
      exact List.mem_cons_self
    obtain ⟨value, read⟩ := Option.isSome_iff_exists.mp (numerals _ member kind)
    rw [Expr.erase, Numeral.value, read]
    exact .number kind read
  · exact literal_sound (by decide) kind given (.string kind)
  · exact literal_sound (by decide) kind given (.yes kind)
  · exact literal_sound (by decide) kind given (.no kind)
  · exact literal_sound (by decide) kind given (.null (.inl kind))
  · exact literal_sound (by decide) kind given (.null (.inr kind))
  · exact literal_sound (by decide) kind given (.nan kind)
  · exact literal_sound (by decide) kind given (.identifier kind)
  · obtain ⟨seen, rest⟩ := gives_take (by decide) kind given
    obtain ⟨values, elements, rfl⟩ := gives_bind_pure.mp rest
    rw [seen]
    exact .array kind (elements_sound reads elements)
  · obtain ⟨seen, rest⟩ := gives_take (by decide) kind given
    obtain ⟨values, properties, rfl⟩ := gives_bind_pure.mp rest
    rw [seen]
    exact .object kind (properties_sound reads properties)
  · obtain ⟨seen, rest⟩ := gives_take (by decide) kind given
    obtain ⟨inner, middle, taken, rest⟩ := gives_bind.mp rest
    obtain ⟨token, closeKind, closeSeen, finish⟩ := (gives_expect_bind (by decide)).mp rest
    obtain ⟨rfl, rfl⟩ := gives_pure.mp finish
    rw [seen]
    exact .parentheses kind (closeSeen ▸ (reads taken).1) closeKind
  · exact absurd given gives_throw

/-- A link goes behind every chain that ends before it. -/
theorem link_sound {inner outer : Expr}
    (given : (link nested inner).Gives list cursor (some outer) after) {input : List Token}
    (chain : Chain Longest input inner.erase (list.visible cursor)) :
    Chain Longest input outer.erase (list.visible after) := by
  unfold link at given
  rw [gives_currentKind_bind] at given
  split at given <;> rename_i kind
  · obtain ⟨seen, rest⟩ := gives_take (by decide) kind given
    obtain ⟨name, nameKind, nameSeen, finish⟩ := (gives_expect_bind (by decide)).mp rest
    obtain ⟨same, rfl⟩ := gives_pure.mp finish
    cases same
    rw [seen, nameSeen] at chain
    exact .member chain kind nameKind
  · obtain ⟨seen, rest⟩ := gives_take (by decide) kind given
    obtain ⟨key, taken, same⟩ := gives_bind_pure.mp rest
    cases same
    obtain ⟨reading, stops⟩ := reads taken
    rw [seen] at chain
    exact .arrow chain kind reading (longest_of_stops reading stops)
  · obtain ⟨seen, rest⟩ := gives_take (by decide) kind given
    obtain ⟨key, middle, taken, rest⟩ := gives_bind.mp rest
    obtain ⟨token, closeKind, closeSeen, finish⟩ := (gives_expect_bind (by decide)).mp rest
    obtain ⟨same, rfl⟩ := gives_pure.mp finish
    cases same
    rw [seen] at chain
    exact .bracket chain kind (closeSeen ▸ (reads taken).1) closeKind
  · obtain ⟨seen, rest⟩ := gives_take (by decide) kind given
    obtain ⟨values, taken, same⟩ := gives_bind_pure.mp rest
    cases same
    rw [seen] at chain
    exact .call chain kind (elements_sound reads taken)
  · cases (gives_pure.mp given).1

omit reads in
/-- A link is declined only where none starts. -/
theorem link_declines {inner : Expr}
    (given : (link nested inner).Gives list cursor none after) :
    after = cursor ∧ Stops levelCount (list.visible cursor) := by
  unfold link at given
  rw [gives_currentKind_bind] at given
  split at given <;> rename_i kind
  · obtain ⟨_, rest⟩ := gives_take (by decide) kind given
    obtain ⟨_, _, same⟩ := gives_bind_pure.mp rest
    cases same
  · obtain ⟨_, rest⟩ := gives_take (by decide) kind given
    obtain ⟨_, _, same⟩ := gives_bind_pure.mp rest
    cases same
  · obtain ⟨_, rest⟩ := gives_take (by decide) kind given
    obtain ⟨_, _, _, rest⟩ := gives_bind.mp rest
    obtain ⟨_, _, same⟩ := gives_bind_pure.mp rest
    cases same
  · obtain ⟨_, rest⟩ := gives_take (by decide) kind given
    obtain ⟨_, _, same⟩ := gives_bind_pure.mp rest
    cases same
  · rename_i noDot noArrow noBracket
    refine ⟨(gives_pure.mp given).2, ?_⟩
    intro token tail cons extended
    obtain ⟨here, _, _⟩ := TokenList.token_of_visible cons
    rw [← here] at extended
    generalize same : (list.token cursor).kind = other at extended
    cases extended with
    | operator bound stands => exact absurd stands.level_lt (Nat.not_lt.mpr bound)
    | arrow => exact noArrow same
    | dot => exact noDot same
    | bracket => exact noBracket same
    | call => exact kind same

theorem links_sound {input : List Token} :
    ∀ {rounds cursor after : Nat} {inner outer : Expr},
      (links nested rounds inner).Gives list cursor outer after →
      Chain Longest input inner.erase (list.visible cursor) →
      Chain Longest input outer.erase (list.visible after) ∧
        Stops levelCount (list.visible after) := by
  intro rounds
  induction rounds with
  | zero =>
    intro cursor after inner outer given _
    exact absurd given gives_outOfBudget
  | succ rounds ih =>
    intro cursor after inner outer given chain
    unfold links at given
    obtain ⟨found, middle, linked, rest⟩ := gives_bind.mp given
    cases found with
    | some next => exact ih rest (link_sound reads linked chain)
    | none =>
      obtain ⟨rfl, stops⟩ := link_declines linked
      obtain ⟨rfl, rfl⟩ := gives_pure.mp rest
      exact ⟨chain, stops⟩

/-! ## Operators -/

section

variable (numerals : ValidNumerals list.tokens.toList)

include numerals

theorem chain_sound {e : Expr} (given : (chain nested).Gives list cursor e after) :
    Chain Longest (list.visible cursor) e.erase (list.visible after) ∧
      Stops levelCount (list.visible after) := by
  unfold chain at given
  rw [gives_budget_bind] at given
  obtain ⟨first, middle, primary, rest⟩ := gives_bind.mp given
  exact links_sound reads rest (.primary (primary_sound reads numerals primary))

theorem unaryUpTo_sound : ∀ {rounds cursor after : Nat} {e : Expr},
    (unaryUpTo nested rounds).Gives list cursor e after →
    Unary Longest (list.visible cursor) e.erase (list.visible after) ∧
      Stops levelCount (list.visible after) := by
  intro rounds
  induction rounds with
  | zero =>
    intro cursor after e given
    exact absurd given gives_outOfBudget
  | succ rounds ih =>
    intro cursor after e given
    unfold unaryUpTo at given
    rw [gives_current_bind] at given
    split at given <;> rename_i found
    · obtain ⟨mark, kind, stands⟩ := unaryOperator?_eq_some_iff.mp found
      have goesOn : (list.token cursor).kind ≠ .endOfInput := by rw [kind]; simp
      rw [gives_advance_bind goesOn] at given
      obtain ⟨operand, middle, inner, finish⟩ := gives_bind.mp given
      obtain ⟨rfl, rfl⟩ := gives_pure.mp finish
      obtain ⟨reading, stops⟩ := ih inner
      rw [TokenList.visible_of_kind goesOn]
      exact ⟨.sign kind stands reading, stops⟩
    · obtain ⟨reading, stops⟩ := chain_sound reads numerals given
      exact ⟨.chain reading, stops⟩

omit reads numerals in
/-- The operators of one level behind what was read so far. -/
theorem operators_sound {n : Nat} {level : Level} (place : levels[n]? = some level)
    {operand : Parse Expr} {input : List Token}
    (operandReads : ∀ {cursor after e}, operand.Gives list cursor e after →
      Grammar.Level Longest (n + 1) (list.visible cursor) e.erase (list.visible after) ∧
        Stops (n + 1) (list.visible after)) :
    ∀ {rounds cursor after : Nat} {left e : Expr},
      (operators level operand rounds left).Gives list cursor e after →
      Grammar.Level Longest n input left.erase (list.visible cursor) →
      Stops (n + 1) (list.visible cursor) →
      Grammar.Level Longest n input e.erase (list.visible after) ∧
        Stops n (list.visible after) := by
  intro rounds
  induction rounds with
  | zero =>
    intro cursor after left e given
    exact absurd given gives_outOfBudget
  | succ rounds ih =>
    intro cursor after left e given reading stops
    unfold operators at given
    rw [gives_currentKind_bind] at given
    split at given <;> rename_i found
    · obtain ⟨mark, kind, stands⟩ := (operator?_eq_some_iff place).mp found
      have goesOn : (list.token cursor).kind ≠ .endOfInput := by rw [kind]; simp
      rw [gives_advance_bind goesOn] at given
      obtain ⟨right, middle, taken, rest⟩ := gives_bind.mp given
      obtain ⟨operandReading, operandStops⟩ := operandReads taken
      rw [TokenList.visible_of_kind goesOn] at reading
      exact ih rest (.operator reading kind stands operandReading) operandStops
    · obtain ⟨rfl, rfl⟩ := gives_pure.mp given
      refine ⟨reading, ?_⟩
      intro token tail cons extended
      obtain ⟨here, _, _⟩ := TokenList.token_of_visible cons
      -- An operator of this very level would have been taken, a tighter one stops nothing.
      generalize same : token.kind = kind at extended
      cases extended with
      | operator tighter stands =>
        rcases Nat.eq_or_lt_of_le tighter with level | strictly
        · subst level
          rw [here, (operator?_eq_some_iff place).mpr ⟨_, same, stands⟩] at found
          cases found
        · exact stops token tail cons (same ▸ .operator strictly stands)
      | arrow => exact stops token tail cons (same ▸ .arrow)
      | dot => exact stops token tail cons (same ▸ .dot)
      | bracket => exact stops token tail cons (same ▸ .bracket)
      | call => exact stops token tail cons (same ▸ .call)

theorem binary_sound : ∀ (tables : List Level) {n : Nat}, n ≤ levelCount →
    levels.drop n = tables → ∀ {cursor after : Nat} {e : Expr},
    (binary nested tables).Gives list cursor e after →
    Grammar.Level Longest n (list.visible cursor) e.erase (list.visible after) ∧
      Stops n (list.visible after) := by
  intro tables
  induction tables with
  | nil =>
    intro n bound dropped cursor after e given
    have last : n = levelCount := by
      have long : levels.length ≤ n := List.drop_eq_nil_iff.mp dropped
      exact Nat.le_antisymm bound long
    subst last
    unfold binary unary at given
    rw [gives_budget_bind] at given
    obtain ⟨reading, stops⟩ := unaryUpTo_sound reads numerals given
    exact ⟨.unary reading, stops⟩
  | cons level tighter ih =>
    intro n bound dropped cursor after e given
    obtain ⟨inside, place, rfl⟩ := level_of_drop dropped
    unfold binary at given
    obtain ⟨left, middle, first, rest⟩ := gives_bind.mp given
    rw [gives_budget_bind] at rest
    obtain ⟨reading, stops⟩ := ih inside rfl first
    exact operators_sound place (ih inside rfl) rest (.tighter inside reading) stops

end

end

/-! ## Expressions -/

theorem expressionUpTo_sound (numerals : ValidNumerals list.tokens.toList) (depth : Nat) :
    ReadsExpressions list (expressionUpTo depth) := by
  induction depth with
  | zero =>
    intro cursor after e given
    exact absurd given gives_outOfBudget
  | succ depth ih =>
    intro cursor after e given
    exact binary_sound ih numerals levels (Nat.zero_le _) rfl given

/-- What is parsed as an expression is one, up to a stop. -/
theorem expression_sound (numerals : ValidNumerals list.tokens.toList) :
    ReadsExpressions list expression := by
  intro cursor after e given
  unfold expression at given
  rw [gives_budget_bind] at given
  exact expressionUpTo_sound numerals _ given

end Script.Parse
