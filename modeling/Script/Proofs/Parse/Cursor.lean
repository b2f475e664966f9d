import Script.Parse
import Script.Proofs.Grammar

/-!
# What parsers read

`parser.Gives list cursor result after` says that a parser succeeds: what it gives, and where it
leaves the cursor. One lemma for each way to build parsers says when that is so. The tokens that
count are those that the cursor *sees*, from it up to the next end of input (`visible`).
-/

namespace Script

/-! ## What a cursor sees -/

namespace TokenList

/-- The tokens from a cursor up to the next end of input. -/
def visible (list : TokenList) (cursor : Nat) : List Token :=
  Grammar.beforeEnd (list.tokens.toList.drop cursor)

/-- Before the end of input, a cursor sees its token and what the next cursor sees. -/
theorem visible_of_kind {list : TokenList} {cursor : Nat}
    (goesOn : (list.token cursor).kind ≠ .endOfInput) :
    list.visible cursor = list.token cursor :: list.visible (cursor + 1) := by
  -- behind the list stands its last token, which is an end of input
  by_cases inside : cursor < list.tokens.size
  · have bound : cursor < list.tokens.toList.length := by simpa using inside
    have here : list.token cursor = list.tokens.toList[cursor] := by simp [token, inside]
    unfold visible Grammar.beforeEnd
    rw [List.drop_eq_getElem_cons bound, ← here, List.takeWhile_cons]
    simp [goesOn]
  · have final : list.token cursor = list.final := by simp [token, inside]
    exact absurd (final ▸ list.ended) goesOn

/-- At the end of input a cursor sees nothing. -/
theorem visible_of_end {list : TokenList} {cursor : Nat}
    (ended : (list.token cursor).kind = .endOfInput) : list.visible cursor = [] := by
  unfold visible Grammar.beforeEnd
  by_cases inside : cursor < list.tokens.size
  · have bound : cursor < list.tokens.toList.length := by simpa using inside
    have here : list.token cursor = list.tokens.toList[cursor] := by simp [token, inside]
    rw [List.drop_eq_getElem_cons bound, ← here, List.takeWhile_cons]
    simp [ended]
  · have outside : list.tokens.toList.length ≤ cursor := by simpa using inside
    rw [List.drop_eq_nil_of_le outside]
    rfl

/-- What a cursor sees first is the token at it, and no end of input. -/
theorem token_of_visible {list : TokenList} {cursor : Nat} {token : Token} {rest : List Token}
    (seen : list.visible cursor = token :: rest) :
    list.token cursor = token ∧ token.kind ≠ .endOfInput ∧ list.visible (cursor + 1) = rest := by
  by_cases ended : (list.token cursor).kind = .endOfInput
  · rw [visible_of_end ended] at seen
    cases seen
  · rw [visible_of_kind ended] at seen
    cases seen
    exact ⟨rfl, ended, rfl⟩

theorem kind_of_visible_nil {list : TokenList} {cursor : Nat} (seen : list.visible cursor = []) :
    (list.token cursor).kind = .endOfInput := by
  apply Classical.byContradiction
  intro goesOn
  rw [visible_of_kind goesOn] at seen
  cases seen

/-- No more tokens are seen than the list has, so its size bounds every loop. -/
theorem length_visible_le (list : TokenList) (cursor : Nat) :
    (list.visible cursor).length ≤ list.tokens.size := by
  have taken : (list.visible cursor).length ≤ (list.tokens.toList.drop cursor).length :=
    (List.takeWhile_sublist _).length_le
  have dropped : (list.tokens.toList.drop cursor).length ≤ list.tokens.size := by simp
  exact Nat.le_trans taken dropped

theorem mem_of_mem_visible {list : TokenList} {cursor : Nat} {token : Token}
    (seen : token ∈ list.visible cursor) : token ∈ list.tokens.toList :=
  List.mem_of_mem_drop ((List.takeWhile_sublist _).subset seen)

/-- From the start of a list, all tokens before its first end of input are seen. -/
theorem visible_ofList (tokens : List Token) :
    (ofList tokens).visible 0 = Grammar.beforeEnd tokens := by
  -- the end of input that is added behind the tokens is not seen
  have ends : ∀ position, Grammar.beforeEnd (tokens ++ [Token.endAt position]) =
      Grammar.beforeEnd tokens := by
    intro position
    unfold Grammar.beforeEnd
    induction tokens with
    | nil => simp [Token.endAt]
    | cons first others ih => simp only [List.cons_append, List.takeWhile_cons, ih]
  unfold visible ofList
  cases last : tokens.getLast? with
  | none =>
    have empty : tokens = [] := List.getLast?_eq_none_iff.mp last
    subst empty
    rfl
  | some final =>
    by_cases ended : final.kind = .endOfInput
    · simp [ended]
    · simpa [ended] using ends final.position

/-- The tokens of a list made from tokens are these and an end of input. -/
theorem mem_tokens_ofList {tokens : List Token} {token : Token}
    (member : token ∈ (ofList tokens).tokens.toList) :
    token ∈ tokens ∨ token.kind = .endOfInput := by
  unfold ofList at member
  cases last : tokens.getLast? with
  | none =>
    rw [last] at member
    have same : token = .endAt ⟨1, 1⟩ := by simpa using member
    exact .inr (same ▸ rfl)
  | some final =>
    rw [last] at member
    by_cases ended : final.kind = .endOfInput
    · exact .inl (by simpa [ended] using member)
    · simp only [ended, dite_false, List.mem_append, List.mem_singleton] at member
      rcases member with old | new
      · exact .inl old
      · exact .inr (new ▸ rfl)

end TokenList

/-! ## Success -/

namespace Parse

variable {α β : Type} {list : TokenList} {cursor after : Nat}

/-- A parser gives a result and leaves the cursor somewhere. -/
def Gives (parser : Parse α) (list : TokenList) (cursor : Nat) (result : α) (after : Nat) : Prop :=
  parser.run list cursor = (.ok result, after)

theorem gives_iff {parser : Parse α} {result : α} :
    parser.Gives list cursor result after ↔
      parser list cursor = EStateM.Result.ok result after := by
  unfold Gives run ReaderT.run
  cases parser list cursor <;> simp

@[simp]
theorem gives_pure {value result : α} :
    Gives (pure value) list cursor result after ↔ result = value ∧ after = cursor := by
  rw [gives_iff]
  show EStateM.Result.ok value cursor = _ ↔ _
  rw [EStateM.Result.ok.injEq]
  exact and_congr eq_comm eq_comm

@[simp]
theorem gives_throw {fault : SyntaxFault} {result : α} :
    ¬ Gives (throw fault) list cursor result after := by
  rw [gives_iff]
  intro same
  cases same

theorem gives_bind {first : Parse α} {next : α → Parse β} {result : β} :
    Gives (first >>= next) list cursor result after ↔
      ∃ value middle, first.Gives list cursor value middle ∧
        (next value).Gives list middle result after := by
  simp only [gives_iff]
  show EStateM.bind _ _ _ = _ ↔ _
  unfold EStateM.bind
  cases first list cursor with
  | ok value middle =>
    constructor
    · intro same
      exact ⟨value, middle, rfl, same⟩
    · rintro ⟨_, _, same, rest⟩
      cases same
      exact rest
  | error fault middle =>
    constructor
    · intro same
      cases same
    · rintro ⟨_, _, same, _⟩
      cases same

/-- What follows only makes a result, and moves no cursor. -/
theorem gives_bind_pure {first : Parse α} {make : α → β} {result : β} :
    Gives (first >>= fun value => pure (make value)) list cursor result after ↔
      ∃ value, first.Gives list cursor value after ∧ result = make value := by
  rw [gives_bind]
  constructor
  · rintro ⟨value, middle, given, finish⟩
    obtain ⟨rfl, rfl⟩ := gives_pure.mp finish
    exact ⟨value, given, rfl⟩
  · rintro ⟨value, given, rfl⟩
    exact ⟨value, after, given, gives_pure.mpr ⟨rfl, rfl⟩⟩

/-- What follows a parser that only looks. -/
theorem gives_bind_of_looks {first : Parse α} {next : α → Parse β} {value : α} {result : β}
    (looks : ∀ {found middle}, first.Gives list cursor found middle ↔
      found = value ∧ middle = cursor) :
    Gives (first >>= next) list cursor result after ↔
      (next value).Gives list cursor result after := by
  rw [gives_bind]
  constructor
  · rintro ⟨found, middle, given, rest⟩
    obtain ⟨rfl, rfl⟩ := looks.mp given
    exact rest
  · intro rest
    exact ⟨value, cursor, looks.mpr ⟨rfl, rfl⟩, rest⟩

/-! ## The cursor -/

theorem gives_get {result : Nat} :
    Gives (get : Parse Nat) list cursor result after ↔ result = cursor ∧ after = cursor := by
  rw [gives_iff]
  show EStateM.Result.ok cursor cursor = _ ↔ _
  rw [EStateM.Result.ok.injEq]
  exact and_congr eq_comm eq_comm

theorem gives_set_bind {place : Nat} {next : PUnit → Parse α} {result : α} :
    Gives ((set place : Parse PUnit) >>= next) list cursor result after ↔
      (next ⟨⟩).Gives list place result after := by
  rw [gives_iff, gives_iff]
  rfl

theorem gives_current {token : Token} :
    current.Gives list cursor token after ↔ token = list.token cursor ∧ after = cursor := by
  rw [gives_iff]
  show EStateM.Result.ok (list.token cursor) cursor = _ ↔ _
  rw [EStateM.Result.ok.injEq]
  exact and_congr eq_comm eq_comm

@[simp]
theorem gives_current_bind {next : Token → Parse α} {result : α} :
    Gives (current >>= next) list cursor result after ↔
      (next (list.token cursor)).Gives list cursor result after :=
  gives_bind_of_looks gives_current

theorem gives_currentKind {kind : Kind} :
    currentKind.Gives list cursor kind after ↔
      kind = (list.token cursor).kind ∧ after = cursor := by
  unfold currentKind
  rw [gives_current_bind, gives_pure]

@[simp]
theorem gives_currentKind_bind {next : Kind → Parse α} {result : α} :
    Gives (currentKind >>= next) list cursor result after ↔
      (next (list.token cursor).kind).Gives list cursor result after :=
  gives_bind_of_looks gives_currentKind

/-- A check answers at once, so a proof can go on with the case that holds. -/
@[simp]
theorem gives_check_bind {kinds : List Kind} {next : Bool → Parse α} {result : α} :
    Gives (check kinds >>= next) list cursor result after ↔
      (next (kinds.contains (list.token cursor).kind)).Gives list cursor result after := by
  apply gives_bind_of_looks
  intro found middle
  unfold check
  rw [gives_currentKind_bind, gives_pure]

/-- The bound is one more than the tokens of the list, wherever the cursor is. -/
@[simp]
theorem gives_budget_bind {next : Nat → Parse α} {result : α} :
    Gives (budget >>= next) list cursor result after ↔
      (next (list.tokens.size + 1)).Gives list cursor result after := by
  rw [gives_iff, gives_iff]
  rfl

@[simp]
theorem gives_outOfBudget {result : α} : ¬ outOfBudget.Gives list cursor result after := by
  unfold outOfBudget
  rw [gives_current_bind]
  exact gives_throw

/-- Taking a token moves the cursor, unless the input ends. -/
theorem gives_advance {token : Token} (goesOn : (list.token cursor).kind ≠ .endOfInput) :
    advance.Gives list cursor token after ↔
      token = list.token cursor ∧ after = cursor + 1 := by
  unfold advance
  rw [gives_current_bind, if_neg goesOn, gives_iff]
  show EStateM.Result.ok (list.token cursor) (cursor + 1) = _ ↔ _
  rw [EStateM.Result.ok.injEq]
  exact and_congr eq_comm eq_comm

theorem gives_advance_bind {next : Token → Parse α} {result : α}
    (goesOn : (list.token cursor).kind ≠ .endOfInput) :
    Gives (advance >>= next) list cursor result after ↔
      (next (list.token cursor)).Gives list (cursor + 1) result after := by
  rw [gives_bind]
  constructor
  · rintro ⟨token, middle, taken, rest⟩
    obtain ⟨rfl, rfl⟩ := (gives_advance goesOn).mp taken
    exact rest
  · intro rest
    exact ⟨_, _, (gives_advance goesOn).mpr ⟨rfl, rfl⟩, rest⟩

/-- A parser that starts by taking a token of a kind takes the first one seen. -/
theorem gives_take {kind : Kind} (noEnd : kind ≠ .endOfInput)
    (here : (list.token cursor).kind = kind) {next : Token → Parse α} {result : α}
    (given : Gives (advance >>= next) list cursor result after) :
    list.visible cursor = list.token cursor :: list.visible (cursor + 1) ∧
      (next (list.token cursor)).Gives list (cursor + 1) result after :=
  ⟨TokenList.visible_of_kind (here ▸ noEnd), (gives_advance_bind (here ▸ noEnd)).mp given⟩

/-- A demanded token is the first one seen. -/
theorem gives_expect {kind : Kind} (noEnd : kind ≠ .endOfInput) {demand : String}
    {token : Token} :
    (expect kind demand).Gives list cursor token after ↔
      token.kind = kind ∧ list.visible cursor = token :: list.visible after ∧
        after = cursor + 1 := by
  unfold expect
  rw [gives_current_bind]
  constructor
  · intro taken
    by_cases found : (list.token cursor).kind = kind
    · rw [if_pos found, gives_advance (found ▸ noEnd)] at taken
      obtain ⟨rfl, rfl⟩ := taken
      exact ⟨found, TokenList.visible_of_kind (found ▸ noEnd), rfl⟩
    · rw [if_neg found] at taken
      exact absurd taken gives_throw
  · rintro ⟨found, seen, rfl⟩
    obtain ⟨here, goesOn, _⟩ := TokenList.token_of_visible seen
    rw [here, if_pos found, gives_advance (here ▸ goesOn)]
    exact ⟨here.symm, rfl⟩

theorem gives_expect_bind {kind : Kind} (noEnd : kind ≠ .endOfInput) {demand : String}
    {next : Token → Parse α} {result : α} :
    Gives (expect kind demand >>= next) list cursor result after ↔
      ∃ token, token.kind = kind ∧
        list.visible cursor = token :: list.visible (cursor + 1) ∧
        (next token).Gives list (cursor + 1) result after := by
  rw [gives_bind]
  constructor
  · rintro ⟨token, middle, taken, rest⟩
    obtain ⟨found, seen, rfl⟩ := (gives_expect noEnd).mp taken
    exact ⟨token, found, seen, rest⟩
  · rintro ⟨token, found, seen, rest⟩
    exact ⟨token, cursor + 1, (gives_expect noEnd).mpr ⟨found, seen, rfl⟩, rest⟩

theorem gives_accept {kind : Kind} {found : Option Token} :
    (accept kind).Gives list cursor found after ↔
      Gives (if (list.token cursor).kind = kind then some <$> advance else pure none)
        list cursor found after := by
  unfold accept acceptAny
  rw [gives_check_bind]
  by_cases same : (list.token cursor).kind = kind
  · rw [if_pos same]
    simp [same]
  · rw [if_neg same]
    simp [same]

theorem gives_accept_some {kind : Kind} (noEnd : kind ≠ .endOfInput) {token : Token} :
    (accept kind).Gives list cursor (some token) after ↔
      token.kind = kind ∧ list.visible cursor = token :: list.visible after ∧
        after = cursor + 1 := by
  rw [gives_accept]
  constructor
  · intro taken
    by_cases found : (list.token cursor).kind = kind
    · rw [if_pos found, ← bind_pure_comp, gives_advance_bind (found ▸ noEnd), gives_pure,
        Option.some.injEq] at taken
      obtain ⟨rfl, rfl⟩ := taken
      exact ⟨found, TokenList.visible_of_kind (found ▸ noEnd), rfl⟩
    · rw [if_neg found, gives_pure] at taken
      cases taken.1
  · rintro ⟨found, seen, rfl⟩
    obtain ⟨here, goesOn, _⟩ := TokenList.token_of_visible seen
    rw [here, if_pos found, ← bind_pure_comp, gives_advance_bind (here ▸ goesOn), gives_pure, here]
    exact ⟨rfl, rfl⟩

theorem gives_accept_none {kind : Kind} (noEnd : kind ≠ .endOfInput) :
    (accept kind).Gives list cursor none after ↔
      (list.token cursor).kind ≠ kind ∧ after = cursor := by
  rw [gives_accept]
  by_cases found : (list.token cursor).kind = kind
  · rw [if_pos found, ← bind_pure_comp, gives_advance_bind (found ▸ noEnd), gives_pure]
    simp [found]
  · rw [if_neg found, gives_pure]
    simp [found]

/-! ## Parsers that may decline -/

theorem gives_attempt_some {production : Parse (Option α)} {result : α} :
    (attempt production).Gives list cursor (some result) after ↔
      production.Gives list cursor (some result) after := by
  unfold attempt
  rw [gives_bind_of_looks gives_get, gives_bind]
  constructor
  · rintro ⟨found, middle, given, rest⟩
    cases found with
    | some value =>
      simp only [gives_pure, Option.some.injEq] at rest
      obtain ⟨rfl, rfl⟩ := rest
      exact given
    | none =>
      simp only [gives_set_bind, gives_pure] at rest
      cases rest.1
  · intro given
    exact ⟨some result, after, given, gives_pure.mpr ⟨rfl, rfl⟩⟩

/-- An attempt that is declined puts the cursor back to where it was. -/
theorem gives_attempt_none {production : Parse (Option α)} :
    (attempt production).Gives list cursor none after ↔
      after = cursor ∧ ∃ middle, production.Gives list cursor none middle := by
  unfold attempt
  rw [gives_bind_of_looks gives_get, gives_bind]
  constructor
  · rintro ⟨found, middle, given, rest⟩
    -- a parser that gives something is not declined
    cases found with
    | some value =>
      simp only [gives_pure] at rest
      cases rest.1
    | none =>
      simp only [gives_set_bind, gives_pure, true_and] at rest
      exact ⟨rest, middle, given⟩
  · rintro ⟨same, middle, given⟩
    refine ⟨none, middle, given, ?_⟩
    simp only [gives_set_bind, gives_pure, true_and]
    exact same

/-! ## Acceptance -/

/-- A parser succeeds up to a rest of what is seen, with a result as wanted. -/
def Accepts (parser : Parse α) (list : TokenList) (cursor : Nat) (wanted : α → Prop)
    (rest : List Token) : Prop :=
  ∃ result after, parser.Gives list cursor result after ∧ wanted result ∧
    list.visible after = rest

/-- The second parser accepts from every place that sees the same tokens, since only these count. -/
theorem Accepts.bind {first : Parse α} {next : α → Parse β} {wanted : α → Prop}
    {goal : β → Prop} {middle rest : List Token}
    (head : first.Accepts list cursor wanted middle)
    (tail : ∀ value place, wanted value → list.visible place = middle →
      (next value).Accepts list place goal rest) :
    (first >>= next).Accepts list cursor goal rest := by
  obtain ⟨value, place, given, holds, seen⟩ := head
  obtain ⟨result, after, others, last, left⟩ := tail value place holds seen
  exact ⟨result, after, gives_bind.mpr ⟨value, place, given, others⟩, last, left⟩

theorem accepts_pure {value : α} {wanted : α → Prop} {rest : List Token} (holds : wanted value)
    (seen : list.visible cursor = rest) : Accepts (pure value) list cursor wanted rest :=
  ⟨value, cursor, gives_pure.mpr ⟨rfl, rfl⟩, holds, seen⟩

@[simp]
theorem accepts_current_bind {next : Token → Parse α} {wanted : α → Prop} {rest : List Token} :
    Accepts (current >>= next) list cursor wanted rest ↔
      (next (list.token cursor)).Accepts list cursor wanted rest := by
  simp only [Accepts, gives_current_bind]

@[simp]
theorem accepts_currentKind_bind {next : Kind → Parse α} {wanted : α → Prop} {rest : List Token} :
    Accepts (currentKind >>= next) list cursor wanted rest ↔
      (next (list.token cursor).kind).Accepts list cursor wanted rest := by
  simp only [Accepts, gives_currentKind_bind]

@[simp]
theorem accepts_check_bind {kinds : List Kind} {next : Bool → Parse α} {wanted : α → Prop}
    {rest : List Token} :
    Accepts (check kinds >>= next) list cursor wanted rest ↔
      (next (kinds.contains (list.token cursor).kind)).Accepts list cursor wanted rest := by
  simp only [Accepts, gives_check_bind]

@[simp]
theorem accepts_budget_bind {next : Nat → Parse α} {wanted : α → Prop} {rest : List Token} :
    Accepts (budget >>= next) list cursor wanted rest ↔
      (next (list.tokens.size + 1)).Accepts list cursor wanted rest := by
  simp only [Accepts, gives_budget_bind]

theorem accepts_expect {token : Token} {rest : List Token} {kind : Kind} (demand : String)
    (seen : list.visible cursor = token :: rest) (same : token.kind = kind) :
    (expect kind demand).Accepts list cursor (· = token) rest := by
  obtain ⟨_, goesOn, behind⟩ := TokenList.token_of_visible seen
  exact ⟨token, cursor + 1, (gives_expect (same ▸ goesOn)).mpr ⟨same, behind ▸ seen, rfl⟩, rfl,
    behind⟩

theorem accepts_advance {token : Token} {rest : List Token}
    (seen : list.visible cursor = token :: rest) :
    advance.Accepts list cursor (· = token) rest := by
  obtain ⟨here, goesOn, behind⟩ := TokenList.token_of_visible seen
  exact ⟨token, cursor + 1, (gives_advance (here ▸ goesOn)).mpr ⟨here.symm, rfl⟩, rfl, behind⟩

theorem accepts_accept {token : Token} {rest : List Token} {kind : Kind}
    (seen : list.visible cursor = token :: rest) (same : token.kind = kind) :
    (accept kind).Accepts list cursor (· = some token) rest := by
  obtain ⟨_, goesOn, behind⟩ := TokenList.token_of_visible seen
  exact ⟨some token, cursor + 1, (gives_accept_some (same ▸ goesOn)).mpr ⟨same, behind ▸ seen, rfl⟩,
    rfl, behind⟩

/-- Nothing is taken where another kind of token stands. -/
theorem accepts_accept_none {rest : List Token} {kind : Kind} (noEnd : kind ≠ .endOfInput)
    (seen : list.visible cursor = rest)
    (different : ∀ token tail, rest = token :: tail → token.kind ≠ kind) :
    (accept kind).Accepts list cursor (· = none) rest := by
  refine ⟨none, cursor, (gives_accept_none noEnd).mpr ⟨?_, rfl⟩, rfl, seen⟩
  intro same
  -- a token of the kind would be the first one seen
  subst seen
  exact different _ _ (TokenList.visible_of_kind (same ▸ noEnd)) same

end Parse

end Script
