import Script.Proofs.Parse.Statement.Completeness
import Script.Proofs.Token.Lexing
import Script.Proofs.Tree.Regular

/-!
# Programs

The parser accepts exactly the grammar: a token list is parsed to a program, up to positions, if
and only if the grammar derives the program from the tokens before the first end of input. So the
grammar derives one program at most.

A source text compiles to what the grammar derives from its tokens. So a compiled program is
regular: evaluation has a rule for each of its nodes and operators.
-/

namespace Script

open Grammar

namespace Parse

variable {list : TokenList} {cursor after : Nat}

theorem program_sound (numerals : ValidNumerals list.tokens.toList) {found : Program}
    (given : program.Gives list cursor found after) :
    Statements (list.visible cursor) found.erase.body [] := by
  unfold program at given
  rw [gives_current_bind, gives_budget_bind] at given
  obtain ⟨body, statements, rfl⟩ := gives_bind_pure.mp given
  obtain ⟨reading, ended⟩ := statementsUntil_sound (statement_sound numerals) statements
  rw [TokenList.visible_of_end (List.mem_singleton.mp ended)] at reading
  exact reading

theorem program_complete {body : List Stmt} (reading : Statements (list.visible cursor) body []) :
    program.Accepts list cursor (·.erase.body = body) [] := by
  unfold program
  rw [accepts_current_bind, accepts_budget_bind]
  refine .bind (statementsUntil_complete (statement_complete list) ?_ .nil ?_ reading rfl
    (length_visible_lt_budget list cursor) (length_visible_lt_budget list cursor)) ?_
  · intro kind member
    exact .inl (List.mem_singleton.mp member)
  · intro place seen
    exact List.mem_singleton.mpr (TokenList.kind_of_visible_nil seen)
  · intro found last same behind
    exact accepts_pure same behind

end Parse

/-- A program without positions is its body without positions. -/
theorem Program.erase_eq_iff {first second : Program} :
    first.erase = second.erase ↔ first.erase.body = second.erase.body := by
  constructor
  · intro same
    rw [same]
  · intro same
    exact congrArg (Program.mk default) same

theorem parse_eq_ok_iff {tokens : List Token} {program : Program} :
    parse tokens = .ok program ↔ ∃ after, Parse.program.Gives (.ofList tokens) 0 program after := by
  constructor
  · intro parsed
    exact ⟨_, Prod.ext parsed rfl⟩
  · rintro ⟨after, given⟩
    exact congrArg Prod.fst given

theorem validNumerals_ofList {tokens : List Token} (numerals : ValidNumerals tokens) :
    ValidNumerals (TokenList.ofList tokens).tokens.toList := by
  intro token member kind
  rcases TokenList.mem_tokens_ofList member with inside | ended
  · exact numerals token inside kind
  · rw [ended] at kind
    cases kind

/-- Whatever the grammar derives is parsed. -/
theorem exists_parse_of_derives {tokens : List Token} {program : Program}
    (derives : Derives tokens program) :
    ∃ found, parse tokens = .ok found ∧ found.erase = program.erase := by
  unfold Derives at derives
  rw [← TokenList.visible_ofList] at derives
  obtain ⟨found, after, given, same, _⟩ := Parse.program_complete derives
  exact ⟨found, parse_eq_ok_iff.mpr ⟨after, given⟩, Program.erase_eq_iff.mpr same⟩

/-- The grammar derives one program at most, up to positions. -/
theorem Grammar.Derives.unique {tokens : List Token} {first second : Program}
    (one : Derives tokens first) (other : Derives tokens second) : first.erase = second.erase := by
  obtain ⟨found, parsed, same⟩ := exists_parse_of_derives one
  obtain ⟨otherFound, otherParsed, otherSame⟩ := exists_parse_of_derives other
  cases parsed.symm.trans otherParsed
  rw [← same, ← otherSame]

/-- A token list is parsed to a program, up to positions, if and only if the grammar derives it,
and the grammar derives no other. -/
theorem parse_exactly_derives (tokens : List Token) (numerals : ValidNumerals tokens)
    (program : Program) :
    ((∃ found, parse tokens = .ok found ∧ found.erase = program.erase) ↔
        Derives tokens program) ∧
      (Derives tokens program → ∀ other, Derives tokens other → other.erase = program.erase) := by
  refine ⟨⟨?_, exists_parse_of_derives⟩, fun derives other derived => derived.unique derives⟩
  rintro ⟨found, parsed, same⟩
  obtain ⟨after, given⟩ := parse_eq_ok_iff.mp parsed
  have reading := Parse.program_sound (validNumerals_ofList numerals) given
  rw [TokenList.visible_ofList, Program.erase_eq_iff.mp same] at reading
  exact reading

/-- `x->k+1;`, an end of input, and a brace that nobody reads. -/
def arrowTokens : List Token :=
  [⟨.identifier, "x", ⟨1, 1⟩⟩, ⟨.symbol .arrow, "->", ⟨1, 2⟩⟩, ⟨.identifier, "k", ⟨1, 4⟩⟩,
   ⟨.symbol .plus, "+", ⟨1, 5⟩⟩, ⟨.number, "1", ⟨1, 6⟩⟩, ⟨.symbol .semicolon, ";", ⟨1, 7⟩⟩,
   .endAt ⟨1, 8⟩, ⟨.symbol .rightBrace, "\x7d", ⟨1, 9⟩⟩]

/-- The key takes the sum, and nothing else is derived. -/
def arrowProgram : Program :=
  ⟨default, [.expression (.computed default (.identifier default "x")
    (.binary default .add (.identifier default "k") (.number default (Numeral.value "1"))))]⟩

theorem arrowTokens_derive : ValidNumerals arrowTokens ∧ Derives arrowTokens arrowProgram ∧
    ∀ other, Derives arrowTokens other → other.erase = arrowProgram.erase := by
  have numerals : ValidNumerals arrowTokens := by
    unfold ValidNumerals
    decide +kernel
  obtain ⟨accepts, unique⟩ := parse_exactly_derives arrowTokens numerals arrowProgram
  have derives : Derives arrowTokens arrowProgram := accepts.mp ⟨_, rfl, rfl⟩
  exact ⟨numerals, derives, unique derives⟩

/-! ## Compiled programs -/

/-- A compiled program is what the parser reads from the tokens of its text. -/
theorem gives_of_compile {source : String} {program : Program}
    (compiled : compile source = .ok program) :
    ∃ tokens after, tokenize source = .ok tokens ∧
      Parse.program.Gives (.ofList tokens) 0 program after := by
  unfold compile at compiled
  split at compiled
  · cases compiled
  · rename_i tokens split
    split at compiled <;> cases compiled
    rename_i parsed
    obtain ⟨after, given⟩ := parse_eq_ok_iff.mp parsed
    exact ⟨tokens, after, split, given⟩

/-- A compiled program is derived from the tokens of its text. -/
theorem derives_of_compile {source : String} {program : Program}
    (compiled : compile source = .ok program) :
    ∃ tokens, tokenize source = .ok tokens ∧ Derives tokens program := by
  obtain ⟨tokens, after, split, given⟩ := gives_of_compile compiled
  have numerals := validNumerals_ofList (validNumerals_of_tokenize split)
  have reading := Parse.program_sound numerals given
  rw [TokenList.visible_ofList] at reading
  exact ⟨tokens, split, reading⟩

/-- A compiled program is to blame for stray signals only. -/
theorem Program.regular_of_compile {source : String} {program : Program}
    (compiled : compile source = .ok program) : Regular program.blame := by
  obtain ⟨tokens, _, derives⟩ := derives_of_compile compiled
  exact regular_append.mpr ⟨regular_of_erase derives.regular, regular_stray _⟩

end Script
