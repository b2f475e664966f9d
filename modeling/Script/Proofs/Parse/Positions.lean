import Script.Proofs.Parse.Program
import Script.Proofs.Parse.Progress

/-!
# Positions do not matter to the parser

Tokens at other positions are parsed to the same tree at the other positions, or to the same fault
on another line. So two texts whose tokens differ in positions only compile alike.

* `parse_relocate`: the tokens of a list at other positions;
* `compile_of_same_tokens`: two texts with the same tokens but for positions.
-/

namespace Script

open Lexer (Ended)

/-! ## Faults on other lines -/

namespace SyntaxFault

/-- A fault as it is on some line. -/
def onLine (line : Int) : SyntaxFault → SyntaxFault
  | expected demand found => expected demand { found with position := ⟨line, 1⟩ }
  | unexpected found => unexpected { found with position := ⟨line, 1⟩ }
  | invalidTarget _ => invalidTarget line
  | duplicateParameter name procedure _ => duplicateParameter name procedure line
  | outOfBudget _ => outOfBudget line

/-- What is said about a fault depends on its line and on nothing else of its position. -/
theorem message_onLine (fault : SyntaxFault) :
    (fault.onLine fault.line).message = fault.message := by
  cases fault <;> rfl

theorem Moves.onLine {shift : Position → Position} {fault found : SyntaxFault}
    (moves : fault.Moves shift found) (line : Int) : found.onLine line = fault.onLine line := by
  cases moves <;> rfl

end SyntaxFault

/-! ## Tokens at other positions -/

theorem TokenList.ofList_of_end {front : List Token} {final : Token}
    (ended : final.kind = .endOfInput) :
    ofList (front ++ [final]) = ⟨(front ++ [final]).toArray, final, ended⟩ := by
  unfold ofList
  simp [ended]

theorem TokenList.token_ofList_map {front : List Token} {final : Token}
    (ended : final.kind = .endOfInput) (shift : Position → Position) (index : Nat) :
    (ofList ((front ++ [final]).map (Token.relocate shift))).token index =
      ((ofList (front ++ [final])).token index).relocate shift := by
  have moved : (final.relocate shift).kind = .endOfInput := ended
  rw [List.map_append, List.map_singleton, ofList_of_end moved, ofList_of_end ended]
  unfold token
  rw [List.getElem?_toArray, List.getElem?_toArray, ← List.map_singleton, ← List.map_append,
    List.getElem?_map, Option.getD_map]

/-- Tokens at other positions are parsed to the same program there, or to the same fault. -/
theorem parse_relocate {tokens front : List Token} (ends : Ended tokens front)
    (shift : Position → Position) :
    (∃ found, parse tokens = .ok found ∧ parse (tokens.map (Token.relocate shift)) =
        .ok ⟨shift found.position, relocateBlock shift found.body⟩) ∨
      ∃ fault found, parse tokens = .error fault ∧
        parse (tokens.map (Token.relocate shift)) = .error found ∧ fault.Moves shift found := by
  obtain ⟨final, rfl, ended, _⟩ := ends
  have first := TokenList.firstEnd_ofList (front ++ [final])
  have agrees := (Parse.Scene.ofFirstEnd first fun index _ _ =>
    TokenList.token_ofList_map ended shift index).agrees_program
  rcases agrees.cases with
    ⟨found, later, taken, _, _, run, runOther⟩ |
    ⟨fault, found, later, taken, _, moves, run, runOther⟩
  · exact .inl ⟨found, congrArg Prod.fst (Parse.run_of_ok run),
      congrArg Prod.fst (Parse.run_of_ok runOther)⟩
  · exact .inr ⟨fault, found, congrArg Prod.fst (Parse.run_of_error run),
      congrArg Prod.fst (Parse.run_of_error runOther), moves⟩

/-- Two lists with the same tokens but for positions are parsed alike. -/
theorem parse_of_same_tokens {tokens others front back : List Token} (ends : Ended tokens front)
    (endsOther : Ended others back)
    (same : others.map (Token.relocate fun _ => default) =
      tokens.map (Token.relocate fun _ => default)) :
    (∃ found other, parse tokens = .ok found ∧ parse others = .ok other ∧
        relocateBlock (fun _ => default) other.body =
          relocateBlock (fun _ => default) found.body) ∨
      ∃ fault found, parse tokens = .error fault ∧ parse others = .error found ∧
        ∀ line, found.onLine line = fault.onLine line := by
  have moved := parse_relocate endsOther fun _ => default
  rw [same] at moved
  rcases parse_relocate ends fun _ => default with
    ⟨found, parsed, erased⟩ | ⟨fault, unplaced, failed, erased, moves⟩
  · rcases moved with ⟨other, parsedOther, erasedOther⟩ | ⟨_, _, _, erasedOther, _⟩
    · refine .inl ⟨found, other, parsed, parsedOther, ?_⟩
      exact congrArg Program.body (Except.ok.inj (erasedOther.symm.trans erased))
    · cases erased.symm.trans erasedOther
  · rcases moved with ⟨_, _, erasedOther⟩ | ⟨found, other, failedOther, erasedOther, movesOther⟩
    · cases erased.symm.trans erasedOther
    · cases Except.error.inj (erased.symm.trans erasedOther)
      refine .inr ⟨fault, found, failed, failedOther, fun line => ?_⟩
      rw [← movesOther.onLine, moves.onLine]

/-- Two texts with the same tokens but for positions compile to the same program but for positions,
or to the same fault but for its line. -/
theorem compile_of_same_tokens {source other : String} {tokens others : List Token}
    (split : tokenize source = .ok tokens) (splitOther : tokenize other = .ok others)
    (same : others.map (Token.relocate fun _ => default) =
      tokens.map (Token.relocate fun _ => default)) :
    (∃ one two, compile source = .ok one ∧ compile other = .ok two ∧
        relocateBlock (fun _ => default) two.body = relocateBlock (fun _ => default) one.body) ∨
      ∃ fault found, compile source = .error (.grammatical fault) ∧
        compile other = .error (.grammatical found) ∧
        ∀ line, found.onLine line = fault.onLine line := by
  obtain ⟨front, ends⟩ := Lexer.exists_ended_of_tokensFrom split
  obtain ⟨back, endsOther⟩ := Lexer.exists_ended_of_tokensFrom splitOther
  unfold compile
  rw [split, splitOther]
  rcases parse_of_same_tokens ends endsOther same with
    ⟨one, two, parsed, parsedOther, bodies⟩ | ⟨fault, found, failed, failedOther, lines⟩
  · exact .inl ⟨one, two, by simp only [parsed], by simp only [parsedOther], bodies⟩
  · exact .inr ⟨fault, found, by simp only [failed], by simp only [failedOther], lines⟩

end Script
