import Script.Proofs.Parse.Expression.Soundness

/-!
# What expression parsers do not refuse

Whatever the grammar derives is parsed, to the same tree up to positions: `expression_complete` at
the end, one lemma for each parser before. No bound on loops or nesting runs out, since every round
and every nesting takes a token.

The operators of a level are derived from the left and parsed in a loop. So the lemma on a level
says where the loop passes (`Passes`), not where it ends: what follows a left operand continues
it. The links of a chain are treated alike. What follows a key must not continue it, and does not,
since the key is the longest one (`Longest.stops`).
-/

namespace Script.Parse

open Grammar

variable {list : TokenList} {cursor after bound : Nat}

/-- A parser accepts every expression of fewer tokens than a bound that ends at a stop. -/
def AcceptsExpressions (list : TokenList) (nested : Parse Expr) (bound : Nat) : Prop :=
  ∀ {cursor : Nat} {e : Expr} {rest : List Token}, Expression (list.visible cursor) e rest →
    Stops 0 rest → (list.visible cursor).length < bound →
    nested.Accepts list cursor (·.erase = e) rest

theorem length_visible_lt_budget (list : TokenList) (cursor : Nat) :
    (list.visible cursor).length < list.tokens.size + 1 :=
  Nat.lt_succ_of_le (list.length_visible_le cursor)

theorem kind_ne_of_visible {token : Token} {rest : List Token} {kind other : Kind}
    (seen : list.visible cursor = token :: rest) (same : token.kind = kind)
    (different : kind ≠ other) : (list.token cursor).kind ≠ other := by
  rw [(TokenList.token_of_visible seen).1, same]
  exact different

/-! ## Lists -/

section

variable {α : Type} {item : Parse α} {first : α → Prop} {wanted others : List α → Prop}
  {closing : Symbol} {token : Token} {middle rest : List Token}

/-- The last item of a list, if no comma follows. -/
theorem accepts_commaSeparated_last (last : item.Accepts list cursor first (token :: rest))
    (noComma : token.kind ≠ .symbol .comma) (single : ∀ value, first value → wanted [value])
    {rounds : Nat} (positive : 0 < rounds) :
    (commaSeparated item rounds).Accepts list cursor wanted (token :: rest) := by
  cases rounds with
  | zero => omega
  | succ rounds =>
    unfold commaSeparated
    refine .bind last ?_
    intro value place holds seen
    refine .bind (accepts_accept_none (by decide) seen ?_) ?_
    · rintro _ _ ⟨⟩
      exact noComma
    rintro _ after rfl behind
    exact accepts_pure (single value holds) behind

/-- An item before a comma and more items. -/
theorem accepts_commaSeparated_more (head : item.Accepts list cursor first (token :: middle))
    (comma : token.kind = .symbol .comma) {rounds : Nat}
    (tail : ∀ {place}, list.visible place = middle →
      (commaSeparated item rounds).Accepts list place others rest)
    (join : ∀ value values, first value → others values → wanted (value :: values)) :
    (commaSeparated item (rounds + 1)).Accepts list cursor wanted rest := by
  unfold commaSeparated
  refine .bind head ?_
  intro value place holds seen
  refine .bind (accepts_accept seen comma) ?_
  rintro _ next rfl afterComma
  refine .bind (tail afterComma) ?_
  intro values after holdTail behind
  exact accepts_pure (join value values holds holdTail) behind

/-- A list without items. -/
theorem accepts_commaList_none (demand : String) (seen : list.visible cursor = token :: rest)
    (kind : token.kind = .symbol closing) (empty : wanted []) :
    (commaList item closing demand).Accepts list cursor wanted rest := by
  obtain ⟨here, _, _⟩ := TokenList.token_of_visible seen
  unfold commaList
  rw [accepts_check_bind, if_pos (by simp [here, kind])]
  refine .bind (accepts_pure rfl seen) ?_
  rintro _ place rfl seenPlace
  refine .bind (accepts_expect demand seenPlace kind) ?_
  rintro _ after rfl behind
  exact accepts_pure empty behind

/-- A list with items. -/
theorem accepts_commaList_some (demand : String)
    (opens : (list.token cursor).kind ≠ .symbol closing)
    (items : (commaSeparated item (list.tokens.size + 1)).Accepts list cursor wanted
      (token :: rest)) (kind : token.kind = .symbol closing) :
    (commaList item closing demand).Accepts list cursor wanted rest := by
  unfold commaList
  rw [accepts_check_bind, if_neg (by simp [opens]), accepts_budget_bind]
  refine .bind items ?_
  intro values place holds seen
  refine .bind (accepts_expect demand seen kind) ?_
  rintro _ after rfl behind
  exact accepts_pure holds behind

end

section

variable {nested : Parse Expr} (accepts : AcceptsExpressions list nested bound)

include accepts

theorem items_complete {mark : Symbol} {closing : Token} {rest : List Token}
    (kind : closing.kind = .symbol mark) (closes : Shape.Closing (.symbol mark))
    {input ending : List Token} {values : List Expr} (behind : ending = closing :: rest) :
    Items Longest input values ending → ∀ {cursor}, list.visible cursor = input →
      input.length < bound → ∀ {rounds}, input.length < rounds →
      (commaSeparated nested rounds).Accepts list cursor (eraseElements · = values) ending
  -- by recursion on the reading; an item ends before a comma or before the closing symbol, and both
  -- stop an expression
  | .last inner, cursor, seen, short, rounds, many => by
    subst seen behind
    -- what closes a list is no comma, so no further item follows
    have noComma : closing.kind ≠ .symbol .comma := by
      rw [kind]
      rintro ⟨⟩
      cases closes
    refine accepts_commaSeparated_last
      (accepts inner (Shape.Closing.stops (kind ▸ closes) rest) short) noComma ?_ (by omega)
    rintro value rfl
    rfl
  | .more inner comma others, cursor, seen, short, rounds, many => by
    subst seen
    have smaller := inner.shorter
    rw [List.length_cons] at smaller
    cases rounds with
    | zero => omega
    | succ rounds =>
      refine accepts_commaSeparated_more
        (accepts inner (Terminator.comma.stops comma 0 _) short) comma (fun next =>
          items_complete kind closes behind others next (by omega) (by omega)) ?_
      rintro value values rfl rfl
      rfl

/-- With items or without. An item opens with no closing symbol, so the first token tells which. -/
theorem elements_complete {mark : Symbol} (closes : Shape.Closing (.symbol mark))
    (demand : String) {input rest : List Token} {values : List Expr}
    (elements : Elements Longest mark input values rest) (seen : list.visible cursor = input)
    (short : input.length < bound) :
    (commaList nested mark demand).Accepts list cursor (eraseElements · = values) rest := by
  cases elements with
  | none kind => exact accepts_commaList_none demand seen kind rfl
  | some items kind =>
    obtain ⟨token, tail, cons, opens⟩ := items.shape.opens
    have notClosed : (list.token cursor).kind ≠ .symbol mark := by
      rw [(TokenList.token_of_visible (seen.trans cons)).1]
      intro same
      exact closes.not_opens (same ▸ opens)
    exact accepts_commaList_some demand notClosed (items_complete accepts kind closes rfl items
      seen short (seen ▸ length_visible_lt_budget list cursor)) kind

theorem property_complete {key colon : Token} {input rest : List Token} {e : Expr}
    (seen : list.visible cursor = key :: colon :: input) (keyKind : key.kind = .identifier)
    (colonKind : colon.kind = .symbol .colon) (inner : Expression input e rest)
    (stops : Stops 0 rest) (short : input.length < bound) :
    (property nested).Accepts list cursor (fun found => (found.1, found.2.erase) = (key.text, e))
      rest := by
  unfold property
  refine .bind (accepts_expect _ seen keyKind) ?_
  rintro _ second rfl afterKey
  refine .bind (accepts_expect _ afterKey colonKind) ?_
  rintro _ third rfl afterColon
  subst afterColon
  refine .bind (accepts inner stops short) ?_
  rintro found after rfl behind
  exact accepts_pure rfl behind

/-- Properties up to their closing brace, with a name and a colon before each value. -/
theorem entries_complete {closing : Token} {rest : List Token}
    (kind : closing.kind = .symbol .rightBrace) {input ending : List Token}
    {values : List (String × Expr)} (behind : ending = closing :: rest) :
    Entries Longest input values ending → ∀ {cursor}, list.visible cursor = input →
      input.length < bound → ∀ {rounds}, input.length < rounds →
      (commaSeparated (property nested) rounds).Accepts list cursor (eraseProperties · = values)
        ending
  | .last keyKind colonKind inner, cursor, seen, short, rounds, many => by
    subst behind
    simp only [List.length_cons] at short
    have noComma : closing.kind ≠ .symbol .comma := by
      rw [kind]
      decide
    refine accepts_commaSeparated_last (property_complete accepts seen keyKind colonKind inner
      (Terminator.brace.stops kind 0 rest) (by omega)) noComma ?_ (by omega)
    rintro ⟨text, found⟩ ⟨⟩
    rfl
  | .more keyKind colonKind inner comma others, cursor, seen, short, rounds, many => by
    have smaller := inner.shorter
    simp only [List.length_cons] at short smaller many
    cases rounds with
    | zero => omega
    | succ rounds =>
      refine accepts_commaSeparated_more (property_complete accepts seen keyKind colonKind inner
        (Terminator.comma.stops comma 0 _) (by omega)) comma (fun next =>
          entries_complete kind behind others next (by omega) (by omega)) ?_
      rintro ⟨text, found⟩ values ⟨⟩ rfl
      rfl

theorem properties_complete (demand : String) {input rest : List Token}
    {values : List (String × Expr)} (properties : Properties Longest input values rest)
    (seen : list.visible cursor = input) (short : input.length < bound) :
    (commaList (property nested) .rightBrace demand).Accepts list cursor
      (eraseProperties · = values) rest := by
  cases properties with
  | none kind => exact accepts_commaList_none demand seen kind rfl
  | some entries kind =>
    have notClosed : (list.token cursor).kind ≠ .symbol .rightBrace := by
      cases entries with
      | last key _ _ => exact kind_ne_of_visible seen key (by decide)
      | more key _ _ _ _ => exact kind_ne_of_visible seen key (by decide)
    exact accepts_commaList_some demand notClosed (entries_complete accepts kind rfl entries
      seen short (seen ▸ length_visible_lt_budget list cursor)) kind

/-! ## Primaries -/

omit accepts in
/-- A primary of one token. -/
theorem accepts_literal {token : Token} {rest : List Token} {found e : Expr}
    (seen : list.visible cursor = token :: rest) (same : found.erase = e) :
    Accepts (advance >>= fun _ => pure found) list cursor (·.erase = e) rest := by
  refine .bind (accepts_advance seen) ?_
  intro _ after _ behind
  exact accepts_pure same behind

theorem primary_complete {input rest : List Token} {e : Expr}
    (reading : Primary Longest input e rest) (seen : list.visible cursor = input)
    (short : input.length ≤ bound) :
    (primary nested).Accepts list cursor (·.erase = e) rest := by
  have here : ∀ {token tail}, input = token :: tail → list.token cursor = token := by
    rintro token tail rfl
    exact (TokenList.token_of_visible seen).1
  unfold primary
  rw [accepts_current_bind]
  cases reading with
  | number kind value =>
    rw [here rfl, kind]
    exact accepts_literal seen (by rw [Expr.erase, Numeral.value, value]; rfl)
  | string kind =>
    rw [here rfl, kind]
    exact accepts_literal seen rfl
  | yes kind =>
    rw [here rfl, kind]
    exact accepts_literal seen rfl
  | no kind =>
    rw [here rfl, kind]
    exact accepts_literal seen rfl
  | null kind =>
    rw [here rfl]
    rcases kind with kind | kind
    · rw [kind]
      exact accepts_literal seen rfl
    · rw [kind]
      exact accepts_literal seen rfl
  | nan kind =>
    rw [here rfl, kind]
    exact accepts_literal seen rfl
  | identifier kind =>
    rw [here rfl, kind]
    exact accepts_literal seen rfl
  | array kind elements =>
    rw [here rfl, kind]
    refine .bind (accepts_advance seen) ?_
    rintro _ second rfl inside
    refine .bind (elements_complete accepts .bracket _ elements inside short) ?_
    rintro found after rfl behind
    exact accepts_pure rfl behind
  | object kind properties =>
    rw [here rfl, kind]
    refine .bind (accepts_advance seen) ?_
    rintro _ second rfl inside
    refine .bind (properties_complete accepts _ properties inside short) ?_
    rintro found after rfl behind
    exact accepts_pure rfl behind
  | parentheses kind inner closing =>
    rw [here rfl, kind]
    refine .bind (accepts_advance seen) ?_
    rintro _ second rfl inside
    subst inside
    refine .bind (accepts inner (Terminator.paren.stops closing 0 _) short) ?_
    rintro found third rfl afterInner
    refine .bind (accepts_expect _ afterInner closing) ?_
    rintro _ after rfl behind
    exact accepts_pure rfl behind

end

/-! ## Loops -/

/-- A loop that starts with one expression passes through another place with another expression,
however many rounds are left there, as long as they are more than the tokens seen. -/
def Passes (loop : Nat → Expr → Parse Expr) (list : TokenList) (start : Nat) (first : Expr)
    (place : Nat) (found : Expr) : Prop :=
  ∀ {result last}, (∀ rounds, (list.visible place).length < rounds →
      (loop rounds found).Gives list place result last) →
    ∀ rounds, (list.visible start).length < rounds →
      (loop rounds first).Gives list start result last

theorem Passes.refl {loop : Nat → Expr → Parse Expr} (start : Nat) (first : Expr) :
    Passes loop list start first start first :=
  fun finish => finish

/-- One more round, which takes at least one token. -/
theorem Passes.step {loop : Nat → Expr → Parse Expr} {start place next : Nat}
    {first found other : Expr} (passes : Passes loop list start first place found)
    (shorter : (list.visible next).length < (list.visible place).length)
    (round : ∀ {rounds result last}, (loop rounds other).Gives list next result last →
      (loop (rounds + 1) found).Gives list place result last) :
    Passes loop list start first next other := by
  intro result last finish
  apply passes
  intro rounds many
  cases rounds with
  | zero => omega
  | succ rounds => exact round (finish rounds (by omega))

/-- A loop that passes through a place where it ends gives what it has found there. -/
theorem Passes.gives {loop : Nat → Expr → Parse Expr} {start place : Nat} {first found : Expr}
    (passes : Passes loop list start first place found)
    (ends : ∀ rounds, (loop (rounds + 1) found).Gives list place found place) :
    (loop (list.tokens.size + 1) first).Gives list start found place := by
  refine passes ?_ _ (length_visible_lt_budget list start)
  intro rounds many
  cases rounds with
  | zero => omega
  | succ rounds => exact ends rounds

/-- From an expression, a loop comes to another one, before a rest. -/
def Reaches (loop : Nat → Expr → Parse Expr) (list : TokenList) (start : Nat) (first e : Expr)
    (rest : List Token) : Prop :=
  ∃ found place, Passes loop list start first place found ∧ found.erase = e ∧
    list.visible place = rest

section

variable {nested : Parse Expr}

theorem links_step {found other : Expr} {next : Nat}
    (linked : (link nested found).Gives list cursor (some other) next) {rounds last : Nat}
    {result : Expr} (rest : (links nested rounds other).Gives list next result last) :
    (links nested (rounds + 1) found).Gives list cursor result last := by
  unfold links
  exact gives_bind.mpr ⟨_, _, linked, rest⟩

/-- Where no link starts, the links of a chain end. -/
theorem links_end {found : Expr} (stops : Stops levelCount (list.visible cursor)) (rounds : Nat) :
    (links nested (rounds + 1) found).Gives list cursor found cursor := by
  have declined : (link nested found).Gives list cursor none cursor := by
    -- a link that started here would continue the expression
    have absent : ∀ {kind}, Extends levelCount kind → kind ≠ .endOfInput →
        (list.token cursor).kind ≠ kind := by
      intro kind extended noEnd same
      have seen := TokenList.visible_of_kind (same ▸ noEnd)
      exact stops _ _ seen (same ▸ extended)
    unfold link
    rw [gives_currentKind_bind]
    split <;> rename_i kind
    · exact absurd kind (absent .dot (by decide))
    · exact absurd kind (absent .arrow (by decide))
    · exact absurd kind (absent .bracket (by decide))
    · exact absurd kind (absent .call (by decide))
    · exact gives_pure.mpr ⟨rfl, rfl⟩
  unfold links
  exact gives_bind.mpr ⟨none, cursor, declined, gives_pure.mpr ⟨rfl, rfl⟩⟩

/-- One more link, which takes at least one token. -/
theorem Passes.link {start place : Nat} {first found e : Expr} {rest : List Token}
    (passes : Passes (links nested) list start first place found)
    (linked : (link nested found).Accepts list place (∃ other, · = some other ∧ other.erase = e)
      rest) (shorter : rest.length < (list.visible place).length) :
    Reaches (links nested) list start first e rest := by
  obtain ⟨_, next, given, ⟨other, rfl, same⟩, left⟩ := linked
  exact ⟨other, next, passes.step (left ▸ shorter) (links_step given), same, left⟩

variable (accepts : AcceptsExpressions list nested bound)

include accepts

/-! ## Chains -/

theorem chain_passes {input rest : List Token} {e : Expr} :
    Chain Longest input e rest → ∀ {cursor}, list.visible cursor = input →
      input.length ≤ bound → Continuable rest →
      ∃ first middle, (primary nested).Gives list cursor first middle ∧
        Reaches (links nested) list middle first e rest
  -- by recursion on the reading, which has its last link outermost; the parser has its first one
  -- outermost, so the loop is followed from the primary to each link
  | .primary inner, cursor, seen, short, _ => by
    obtain ⟨found, after, given, same, left⟩ := primary_complete accepts inner seen short
    exact ⟨found, after, given, found, after, Passes.refl _ _, same, left⟩
  | .member inner dotKind nameKind, cursor, seen, short, _ => by
    obtain ⟨first, middle, given, found, place, passes, rfl, left⟩ :=
      chain_passes inner seen short (continuable_member dotKind nameKind)
    refine ⟨first, middle, given, passes.link ?_ ?_⟩
    · unfold link
      rw [accepts_currentKind_bind, (TokenList.token_of_visible left).1, dotKind]
      refine .bind (accepts_advance left) ?_
      rintro _ second rfl afterDot
      refine .bind (accepts_expect _ afterDot nameKind) ?_
      rintro _ last rfl behind
      exact accepts_pure ⟨_, rfl, rfl⟩ behind
    · rw [left]
      simp only [List.length_cons]
      omega
  | .arrow inner arrowKind key ends, cursor, seen, short, continuable => by
    have innerShorter := inner.shorter
    have keyShorter := key.shorter
    rw [List.length_cons] at innerShorter
    obtain ⟨first, middle, given, found, place, passes, rfl, left⟩ :=
      chain_passes inner seen short (continuable_arrow arrowKind key.plain)
    refine ⟨first, middle, given, passes.link ?_ ?_⟩
    · unfold link
      rw [accepts_currentKind_bind, (TokenList.token_of_visible left).1, arrowKind]
      refine .bind (accepts_advance left) ?_
      rintro _ second rfl afterArrow
      subst afterArrow
      -- the key is the longest one, and what follows the chain could be read on, so it stops
      refine .bind (accepts key (ends.stops key.plain continuable) (by omega)) ?_
      rintro value last rfl behind
      exact accepts_pure ⟨_, rfl, rfl⟩ behind
    · rw [left, List.length_cons]
      omega
  | .bracket inner openKind key closeKind, cursor, seen, short, _ => by
    have innerShorter := inner.shorter
    have keyShorter := key.shorter
    rw [List.length_cons] at innerShorter keyShorter
    obtain ⟨first, middle, given, found, place, passes, rfl, left⟩ :=
      chain_passes inner seen short (continuable_bracket openKind key.plain closeKind)
    refine ⟨first, middle, given, passes.link ?_ ?_⟩
    · unfold link
      rw [accepts_currentKind_bind, (TokenList.token_of_visible left).1, openKind]
      refine .bind (accepts_advance left) ?_
      rintro _ second rfl afterOpening
      subst afterOpening
      refine .bind (accepts key (Terminator.bracket.stops closeKind 0 _) (by omega)) ?_
      rintro value third rfl afterKey
      refine .bind (accepts_expect _ afterKey closeKind) ?_
      rintro _ last rfl behind
      exact accepts_pure ⟨_, rfl, rfl⟩ behind
    · rw [left, List.length_cons]
      omega
  | .call inner openKind arguments, cursor, seen, short, _ => by
    have innerShorter := inner.shorter
    have argumentsShorter := arguments.shorter
    rw [List.length_cons] at innerShorter
    obtain ⟨first, middle, given, found, place, passes, rfl, left⟩ :=
      chain_passes inner seen short (continuable_call openKind arguments.plain)
    refine ⟨first, middle, given, passes.link ?_ ?_⟩
    · unfold link
      rw [accepts_currentKind_bind, (TokenList.token_of_visible left).1, openKind]
      refine .bind (accepts_advance left) ?_
      rintro _ second rfl afterOpening
      refine .bind (elements_complete accepts .paren _ arguments afterOpening (by omega)) ?_
      rintro values last rfl behind
      exact accepts_pure ⟨_, rfl, rfl⟩ behind
    · rw [left, List.length_cons]
      omega

/-- Where the reading of a chain ends, no link follows, so the loop ends there too. -/
theorem chain_complete {input rest : List Token} {e : Expr}
    (reading : Chain Longest input e rest) (seen : list.visible cursor = input)
    (short : input.length ≤ bound) (stops : Stops levelCount rest)
    (continuable : Continuable rest) :
    (chain nested).Accepts list cursor (·.erase = e) rest := by
  obtain ⟨first, middle, given, found, after, passes, same, left⟩ :=
    chain_passes accepts reading seen short continuable
  unfold chain
  rw [accepts_budget_bind]
  exact ⟨found, after, gives_bind.mpr ⟨first, middle, given,
    passes.gives (links_end (left ▸ stops))⟩, same, left⟩

/-! ## Operators -/

theorem unaryUpTo_complete {input rest : List Token} {e : Expr} (stops : Stops levelCount rest)
    (continuable : Continuable rest) :
    Unary Longest input e rest → ∀ {cursor}, list.visible cursor = input →
      input.length ≤ bound → ∀ {rounds}, input.length < rounds →
      (unaryUpTo nested rounds).Accepts list cursor (·.erase = e) rest
  -- by recursion on the reading; a chain starts with no operator
  | .sign kind stands inner, cursor, seen, short, rounds, many => by
    rw [List.length_cons] at short many
    cases rounds with
    | zero => omega
    | succ rounds =>
      rw [unaryUpTo, accepts_current_bind, (TokenList.token_of_visible seen).1,
        unaryOperator?_eq_some_iff.mpr ⟨_, kind, stands⟩]
      refine .bind (accepts_advance seen) ?_
      rintro _ second rfl afterSign
      refine .bind (unaryUpTo_complete stops continuable inner afterSign (by omega) (by omega)) ?_
      rintro found last rfl behind
      exact accepts_pure rfl behind
  | .chain inner, cursor, seen, short, rounds, many => by
    -- a chain starts with its primary
    have unsigned : unaryOperator? (list.token cursor).kind = none := by
      obtain ⟨token, tail, cons, _, noSign⟩ := inner.opens
      rw [(TokenList.token_of_visible (seen.trans cons)).1]
      apply Option.eq_none_iff_forall_ne_some.mpr
      intro operator found
      obtain ⟨mark, kind, stands⟩ := unaryOperator?_eq_some_iff.mp found
      exact noSign mark operator stands kind
    cases rounds with
    | zero => omega
    | succ rounds =>
      rw [unaryUpTo, accepts_current_bind, unsigned]
      exact chain_complete accepts inner seen short stops continuable

end

/-- A parser accepts every expression of a level with at most so many tokens, up to a stop. -/
def AcceptsLevel (list : TokenList) (parser : Parse Expr) (n bound : Nat) : Prop :=
  ∀ {cursor : Nat} {e : Expr} {rest : List Token},
    Grammar.Level Longest n (list.visible cursor) e rest → Stops n rest → Continuable rest →
    (list.visible cursor).length ≤ bound → parser.Accepts list cursor (·.erase = e) rest

section

variable {n : Nat} {level : Level} (place : levels[n]? = some level) {operand : Parse Expr}

include place

theorem operators_step {mark : Symbol} {operator : BinaryOp} {left right : Expr}
    {rounds next last : Nat} {result : Expr}
    (kind : (list.token cursor).kind = .symbol mark) (stands : Operator n mark operator)
    (taken : operand.Gives list (cursor + 1) right next)
    (rest : (operators level operand rounds (.binary left.position operator left right)).Gives
      list next result last) :
    (operators level operand (rounds + 1) left).Gives list cursor result last := by
  unfold operators
  rw [gives_currentKind_bind, (operator?_eq_some_iff place).mpr ⟨mark, kind, stands⟩]
  exact (gives_advance_bind (by rw [kind]; simp)).mpr (gives_bind.mpr ⟨_, _, taken, rest⟩)

/-- Where no operator of a level follows, the loop through its operators ends. -/
theorem operators_end {left : Expr} (stops : Stops n (list.visible cursor)) (rounds : Nat) :
    (operators level operand (rounds + 1) left).Gives list cursor left cursor := by
  have none : level.operator? (list.token cursor).kind = none := by
    apply Option.eq_none_iff_forall_ne_some.mpr
    intro operator found
    obtain ⟨mark, kind, stands⟩ := (operator?_eq_some_iff place).mp found
    have goesOn : (list.token cursor).kind ≠ .endOfInput := by rw [kind]; simp
    exact stops _ _ (TokenList.visible_of_kind goesOn) (kind ▸ .operator (Nat.le_refl n) stands)
  unfold operators
  rw [gives_currentKind_bind, none]
  exact gives_pure.mpr ⟨rfl, rfl⟩

end

theorem operators_passes {n : Nat} {level : Level} {operand : Parse Expr}
    {input rest : List Token} {e : Expr} :
    Grammar.Level Longest n input e rest → levels[n]? = some level →
      AcceptsLevel list operand (n + 1) bound → ∀ {cursor}, list.visible cursor = input →
      Stops (n + 1) rest → Continuable rest → input.length ≤ bound →
      ∃ first middle, operand.Gives list cursor first middle ∧
        Reaches (operators level operand) list middle first e rest
  -- by recursion on the reading, which has its last operator outermost, as that of links
  | .operator left kind stands right, place, accepts, cursor, seen, stops, continuable, short => by
    have leftShorter := left.shorter
    have rightShorter := right.shorter
    rw [List.length_cons] at leftShorter
    obtain ⟨first, middle, given, found, between, passes, rfl, seenThere⟩ :=
      operators_passes left place accepts seen (stands.stops kind)
        (continuable_operator kind stands right.plain) short
    obtain ⟨rfl, _, behind⟩ := TokenList.token_of_visible seenThere
    subst behind
    obtain ⟨other, after, taken, rfl, ended⟩ := accepts right stops continuable (by omega)
    refine ⟨first, middle, given, .binary found.position _ found other, after,
      passes.step ?_ (operators_step place kind stands taken), rfl, ended⟩
    rw [seenThere, ended, List.length_cons]
    omega
  | .tighter _ inner, place, accepts, cursor, seen, stops, continuable, short => by
    subst seen
    obtain ⟨found, after, given, same, left⟩ := accepts inner stops continuable short
    exact ⟨found, after, given, found, after, Passes.refl _ _, same, left⟩
  | .unary _, place, _, _, _, _, _, _ => by cases place

theorem binary_complete {nested : Parse Expr} (accepts : AcceptsExpressions list nested bound) :
    ∀ (tables : List Level) {n : Nat}, n ≤ levelCount → levels.drop n = tables →
      AcceptsLevel list (binary nested tables) n bound := by
  intro tables
  -- by induction on the levels that are left, from the one that binds tightest
  induction tables with
  | nil =>
    intro n below dropped cursor e rest reading stops continuable short
    have last : n = levelCount :=
      Nat.le_antisymm below (List.drop_eq_nil_iff.mp dropped)
    subst last
    unfold binary unary
    rw [accepts_budget_bind]
    exact unaryUpTo_complete accepts stops continuable reading.unary_of_last rfl short
      (length_visible_lt_budget list cursor)
  | cons level tighter ih =>
    intro n below dropped cursor e rest reading stops continuable short
    obtain ⟨inside, place, rfl⟩ := level_of_drop dropped
    obtain ⟨first, middle, given, found, after, passes, same, left⟩ :=
      operators_passes reading place (ih inside rfl) rfl (stops.tighten (Nat.le_succ n))
        continuable short
    refine ⟨found, after, ?_, same, left⟩
    unfold binary
    refine gives_bind.mpr ⟨first, middle, given, ?_⟩
    rw [gives_budget_bind]
    exact passes.gives (operators_end place (left ▸ stops))

/-! ## Expressions -/

theorem expressionUpTo_complete (list : TokenList) (depth : Nat) :
    AcceptsExpressions list (expressionUpTo depth) depth := by
  -- by induction on the nesting; a nested expression has fewer tokens
  induction depth with
  | zero =>
    intro cursor e rest _ _ short
    omega
  | succ depth ih =>
    intro cursor e rest reading stops short
    exact binary_complete ih levels (Nat.zero_le _) rfl reading stops stops.continuable
      (Nat.le_of_lt_succ short)

/-- Every expression up to a stop is parsed. -/
theorem expression_complete {e : Expr} {rest : List Token}
    (reading : Expression (list.visible cursor) e rest) (stops : Stops 0 rest) :
    expression.Accepts list cursor (·.erase = e) rest := by
  unfold expression
  rw [accepts_budget_bind]
  exact expressionUpTo_complete list _ reading stops (length_visible_lt_budget list cursor)

end Script.Parse
