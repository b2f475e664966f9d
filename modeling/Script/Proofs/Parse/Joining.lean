import Script.Proofs.Parse.Program
import Script.Proofs.Parse.Window

/-!
# Programs one behind the other

Two source texts with a line end between them compile to the statements of the first and, behind
them, those of the second, some lines further down. The tokens of either text are a window of the
joined tokens, and what the parser reads up to the end of a window goes on with what stands behind
it.

* `compile_join`: the joined text compiles, and its body is the two bodies one behind the other.
-/

namespace Script

open Lexer (Ended)

namespace TokenList

/-- Tokens that end with an end of input are a token list as they are. -/
theorem toList_ofList_of_end {front : List Token} {final : Token}
    (ended : final.kind = .endOfInput) :
    (ofList (front ++ [final])).tokens.toList = front ++ [final] := by
  unfold ofList
  simp [ended]

theorem token_inside {list : TokenList} {before front behind : List Token}
    (whole : list.tokens.toList = before ++ (front ++ behind)) {index : Nat}
    (inside : index < front.length) : list.token (index + before.length) = front[index] := by
  have here : list.tokens.toList[index + before.length]? = some front[index] := by
    rw [whole, List.getElem?_append_right (Nat.le_add_left ..), Nat.add_sub_cancel,
      List.getElem?_append_left inside, List.getElem?_eq_getElem inside]
  rw [Array.getElem?_toList] at here
  unfold token
  rw [here]
  rfl

theorem token_ofList_of_lt {front : List Token} {final : Token} (ended : final.kind = .endOfInput)
    {index : Nat} (inside : index < front.length) :
    (ofList (front ++ [final])).token index = front[index] :=
  @token_inside _ [] front [final] (toList_ofList_of_end ended) index inside

theorem token_behind {list : TokenList} {before behind : List Token} {token : Token}
    (whole : list.tokens.toList = before ++ token :: behind) :
    list.token before.length = token := by
  have here := @token_inside list before [token] behind whole 0 Nat.zero_lt_one
  rwa [Nat.zero_add] at here

end TokenList

namespace Parse

namespace Window

variable {window : Window}

/-- The tokens before an end of input, seen in a list that has them somewhere. -/
def ofEnded {front : List Token} {final : Token} (ended : final.kind = .endOfInput)
    (goesOn : ∀ token ∈ front, token.kind ≠ .endOfInput) (shift : Position → Position)
    {whole : TokenList} {before behind : List Token} {next : Token}
    (inside : whole.tokens.toList =
      before ++ (front.map (Token.relocate shift) ++ next :: behind)) : Window where
  list := .ofList (front ++ [final])
  whole := whole
  shift := shift
  offset := before.length
  limit := front.length
  same := by
    intro index bound
    rw [TokenList.token_inside inside (by rwa [List.length_map]), List.getElem_map,
      TokenList.token_ofList_of_lt ended bound]
  goesOn := by
    intro index bound
    rw [TokenList.token_ofList_of_lt ended bound]
    exact goesOn _ (List.getElem_mem bound)
  ended := by
    rw [TokenList.token_behind (TokenList.toList_ofList_of_end ended)]
    exact ended
  room := by
    rw [← Array.length_toList, ← Array.length_toList, inside, TokenList.toList_ofList_of_end ended]
    simp only [List.length_append, List.length_map, List.length_cons, List.length_nil]
    omega

/-- What stands behind such a window. -/
theorem token_behind_ofEnded {shift : Position → Position} {whole : TokenList}
    {before front behind : List Token} {next : Token}
    (inside : whole.tokens.toList =
      before ++ (front.map (Token.relocate shift) ++ next :: behind)) :
    whole.token (front.length + before.length) = next := by
  have here : whole.token (before ++ front.map (Token.relocate shift)).length = next :=
    TokenList.token_behind (by rw [inside, List.append_assoc])
  rwa [List.length_append, List.length_map, Nat.add_comm] at here

theorem noBranch_ofEnded {front : List Token} {final : Token} (ended : final.kind = .endOfInput)
    (goesOn : ∀ token ∈ front, token.kind ≠ .endOfInput) {shift : Position → Position}
    {whole : TokenList} {before behind : List Token} {next : Token}
    (inside : whole.tokens.toList =
      before ++ (front.map (Token.relocate shift) ++ next :: behind))
    (edge : ∀ kind, kind = .keyword .elif ∨ kind = .keyword .otherwise → next.kind ≠ kind) :
    (ofEnded ended goesOn shift inside).NoBranch := by
  intro kind branch
  show (whole.token (front.length + before.length)).kind ≠ kind
  rw [token_behind_ofEnded inside]
  exact edge kind branch

/-- What the statements of a window are read as, up to the end of input, can be read in the other
list too, and it goes on there with what is read behind the window. -/
theorem exists_spliced (edge : window.NoBranch) {rounds cursor after : Nat} {body : List Stmt}
    (given : (statementsUntil statement [.endOfInput] rounds).Gives window.list cursor body after)
    (within : cursor ≤ window.limit) :
    cursor + body.length ≤ window.limit ∧
      ∀ more tail stop,
        (statementsUntil statement [.endOfInput] more).Gives window.whole
          (window.limit + window.offset) tail stop →
        (statementsUntil statement [.endOfInput] (body.length + more)).Gives window.whole
          (cursor + window.offset) (relocateBlock window.shift body ++ tail) stop := by
  induction rounds generalizing cursor body with
  | zero => exact absurd given gives_outOfBudget
  | succ rounds ih =>
    unfold statementsUntil at given
    rw [gives_check_bind] at given
    by_cases ended : (window.list.token cursor).kind = .endOfInput
    · -- only the limit of the window has an end of input
      have here : cursor = window.limit :=
        Nat.le_antisymm within (Nat.not_lt.mp fun inside => window.goesOn cursor inside ended)
      rw [ended] at given
      obtain ⟨rfl, rfl⟩ := gives_pure.mp given
      subst here
      refine ⟨Nat.le_refl _, fun more tail stop behind => ?_⟩
      rw [List.length_nil, Nat.zero_add]
      exact behind
    · have open_ : [Kind.endOfInput].contains (window.list.token cursor).kind = false := by
        simpa using ended
      rw [open_] at given
      obtain ⟨first, middle, read, rest⟩ := gives_bind.mp given
      obtain ⟨others, readOthers, rfl⟩ := gives_bind_pure.mp rest
      obtain ⟨moves, stays, _, reads⟩ := tracks_statement edge _ _ _ read
      obtain ⟨bound, goesOn⟩ := ih readOthers (stays within)
      refine ⟨by rw [List.length_cons]; omega, fun more tail stop behind => ?_⟩
      have inside : cursor < window.limit := by omega
      have stillOpen : [Kind.endOfInput].contains
          (window.whole.token (cursor + window.offset)).kind = false := by
        rw [window.same cursor inside]
        exact open_
      rw [List.length_cons, Nat.add_right_comm]
      unfold statementsUntil
      rw [gives_check_bind, stillOpen]
      exact gives_bind.mpr ⟨_, _, reads (by have := stays within; omega),
        gives_bind_pure.mpr ⟨_, goesOn more tail stop behind, rfl⟩⟩

end Window

/-- At an end of input there is no statement. -/
theorem gives_statementsUntil_end {list : TokenList} {cursor rounds : Nat}
    (ended : (list.token cursor).kind = .endOfInput) :
    (statementsUntil statement [.endOfInput] (rounds + 1)).Gives list cursor [] cursor := by
  unfold statementsUntil
  rw [gives_check_bind, ended]
  exact gives_pure.mpr ⟨rfl, rfl⟩

/-- A program is its statements, at a position. -/
theorem gives_program_iff {list : TokenList} {body : List Stmt} {after : Nat} :
    (∃ found, program.Gives list 0 found after ∧ found.body = body) ↔
      (statementsUntil statement [.endOfInput] (list.tokens.size + 1)).Gives list 0 body after := by
  unfold program
  simp only [gives_current_bind, gives_budget_bind, gives_bind_pure]
  constructor
  · rintro ⟨_, ⟨found, given, rfl⟩, rfl⟩
    exact given
  · intro given
    exact ⟨_, ⟨body, given, rfl⟩, rfl⟩

/-- A program starts with no branch of a conditional. -/
theorem noBranch_of_compile {source : String} {program : Program} {tokens : List Token}
    (compiled : compile source = .ok program) (split : tokenize source = .ok tokens) :
    ∀ kind, kind = .keyword .elif ∨ kind = .keyword .otherwise →
      ((TokenList.ofList tokens).token 0).kind ≠ kind := by
  rintro kind branch same
  obtain ⟨found, again, derives⟩ := derives_of_compile compiled
  cases split.symm.trans again
  have goesOn : ((TokenList.ofList tokens).token 0).kind ≠ .endOfInput := by
    rcases branch with rfl | rfl <;> (rw [same]; decide)
  have seen := TokenList.visible_of_kind goesOn
  rw [TokenList.visible_ofList] at seen
  obtain ⟨noElif, noOtherwise⟩ := derives.noBranch .nil _ _ seen
  rcases branch with rfl | rfl
  · exact noElif same
  · exact noOtherwise same

end Parse

/-- What compiles is split into tokens, and its statements are read from these. -/
theorem exists_tokens_of_compile {source : String} {program : Program}
    (compiled : compile source = .ok program) :
    ∃ tokens front after, tokenize source = .ok tokens ∧ Ended tokens front ∧
      (Parse.statementsUntil Parse.statement [.endOfInput]
        ((TokenList.ofList tokens).tokens.size + 1)).Gives (.ofList tokens) 0 program.body
        after := by
  obtain ⟨tokens, after, split, given⟩ := gives_of_compile compiled
  obtain ⟨front, ends⟩ := Lexer.exists_ended_of_tokensFrom split
  exact ⟨tokens, front, after, split, ends, Parse.gives_program_iff.mp ⟨_, given, rfl⟩⟩

/-- Statements up to an end of input, and others that are read from another list, are read from
the list that has the tokens of the second behind those of the first. -/
theorem Parse.gives_joined {front back : List Token} {final last : Token}
    (ended : final.kind = .endOfInput) (goesOn : ∀ token ∈ front, token.kind ≠ .endOfInput)
    (lastEnded : last.kind = .endOfInput) (backGoesOn : ∀ token ∈ back, token.kind ≠ .endOfInput)
    (edge : ∀ kind, kind = .keyword .elif ∨ kind = .keyword .otherwise →
      ((TokenList.ofList (back ++ [last])).token 0).kind ≠ kind)
    {rounds otherRounds after otherAfter : Nat} {body other : List Stmt}
    (read : (statementsUntil statement [.endOfInput] rounds).Gives (.ofList (front ++ [final])) 0
      body after)
    (readOther : (statementsUntil statement [.endOfInput] otherRounds).Gives
      (.ofList (back ++ [last])) 0 other otherAfter)
    (shift : Position → Position) {whole : TokenList}
    (tokens : whole.tokens.toList = front ++ (back ++ [last]).map (Token.relocate shift)) :
    ∃ stop, (statementsUntil statement [.endOfInput] (whole.tokens.size + 1)).Gives whole 0
      (body ++ relocateBlock shift other) stop := by
  -- the tokens of the second list are a window that ends where the whole list ends
  have lower : whole.tokens.toList =
      front ++ (back.map (Token.relocate shift) ++ last.relocate shift :: []) := by
    rw [tokens, List.map_append]
    rfl
  have lowerEdge := Window.noBranch_ofEnded lastEnded backGoesOn lower (by
    rintro kind (rfl | rfl) same
    · cases lastEnded.symm.trans same
    · cases lastEnded.symm.trans same)
  have finish : (whole.token (back.length + front.length)).kind = .endOfInput := by
    rw [Window.token_behind_ofEnded lower]
    exact lastEnded
  obtain ⟨short, goesOnBehind⟩ := Window.exists_spliced lowerEdge readOther (Nat.zero_le _)
  -- those of the first list are a window that ends where the second one starts
  obtain ⟨head, tail, starts⟩ := List.exists_cons_of_ne_nil (List.append_ne_nil_of_right_ne_nil
    back (List.cons_ne_nil last []))
  have upper : whole.tokens.toList = [] ++ (front.map (Token.relocate id) ++
      head.relocate shift :: tail.map (Token.relocate shift)) := by
    rw [tokens, starts, show Token.relocate id = id from rfl, List.map_id]
    rfl
  have upperEdge := Window.noBranch_ofEnded ended goesOn upper (by
    have first : (TokenList.ofList (back ++ [last])).token 0 = head :=
      @TokenList.token_behind _ [] tail _
        ((TokenList.toList_ofList_of_end lastEnded).trans starts)
    rw [first] at edge
    exact edge)
  obtain ⟨shortFirst, goesOnFirst⟩ := Window.exists_spliced upperEdge read (Nat.zero_le _)
  have size : whole.tokens.size = front.length + (back.length + 1) := by
    rw [← Array.length_toList, tokens]
    simp only [List.length_append, List.length_map, List.length_singleton]
  change 0 + other.length ≤ back.length at short
  change 0 + body.length ≤ front.length at shortFirst
  obtain ⟨spare, enough⟩ : ∃ spare, whole.tokens.size + 1 =
      body.length + (other.length + (spare + 1)) :=
    ⟨whole.tokens.size - body.length - other.length, by omega⟩
  rw [enough]
  have rest := goesOnBehind (spare + 1) [] _ (gives_statementsUntil_end finish)
  change Gives _ whole (0 + front.length) _ _ at rest
  rw [List.append_nil, Nat.add_comm 0] at rest
  have all := goesOnFirst (other.length + (spare + 1)) _ _ rest
  change Gives _ whole 0 (relocateBlock id body ++ relocateBlock shift other) _ at all
  rw [relocateBlock_id] at all
  exact ⟨_, all⟩

/-- Two texts with a line end between them compile to the statements of both, those of the second
some lines further down. -/
theorem compile_join {a b : String} {first second : Program} (compiledFirst : compile a = .ok first)
    (compiledSecond : compile b = .ok second) :
    ∃ lines joined, compile (a ++ "\n" ++ b) = .ok joined ∧
      joined.body = first.body ++ relocateBlock (Position.down lines) second.body := by
  obtain ⟨_, front, _, splitFirst, ⟨final, rfl, ended, goesOn⟩, readFirst⟩ :=
    exists_tokens_of_compile compiledFirst
  obtain ⟨_, back, _, splitSecond, ⟨last, rfl, lastEnded, backGoesOn⟩, readSecond⟩ :=
    exists_tokens_of_compile compiledSecond
  obtain ⟨lines, split⟩ := tokenize_join splitFirst ⟨final, rfl, ended, goesOn⟩ splitSecond
  have tokens : (TokenList.ofList (front ++ (back ++ [last]).map
      (Token.relocate (.down lines)))).tokens.toList =
        front ++ (back ++ [last]).map (Token.relocate (.down lines)) := by
    rw [List.map_append, ← List.append_assoc]
    exact TokenList.toList_ofList_of_end lastEnded
  obtain ⟨stop, read⟩ := Parse.gives_joined ended goesOn lastEnded backGoesOn
    (Parse.noBranch_of_compile compiledSecond splitSecond) readFirst readSecond (.down lines) tokens
  obtain ⟨joined, given, same⟩ := Parse.gives_program_iff.mpr read
  refine ⟨lines, joined, ?_, same⟩
  unfold compile
  rw [split]
  simp only [parse_eq_ok_iff.mpr ⟨stop, given⟩]

end Script
