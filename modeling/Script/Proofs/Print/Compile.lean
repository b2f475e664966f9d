import Script.Proofs.Parse.Positions
import Script.Proofs.Print.Legible

/-!
# Compiling what was printed

A printed program compiles to itself, up to positions: its spellings are laid out so that they can
be told apart, their tokens are what the grammar reads as the program, and the parser gives what the
grammar reads. The same holds of every other layout that keeps apart what would run together.

* `compile_print`: a printable program is the program of its text.
-/

namespace Script

open Grammar Lexer Spelling

/-- Laid out, spellings have gaps where they would run into each other. -/
theorem arranged_layOut (before : Option (List Char)) (raws : List (List Char)) :
    Arranged (fun first second => touches first second = true) before raws
      (layOut before raws) := by
  induction raws generalizing before with
  | nil => exact .last .none
  | cons raw raws ih =>
    unfold layOut
    refine .next ?_ ?_ (ih (some raw))
    · split
      · exact .blank (.inl rfl) .none
      · exact .none
    · rintro earlier rfl touch
      have kept : (some earlier).any (touches · raw) = true := touch
      rw [if_pos kept]
      exact List.cons_ne_nil _ _

theorem Spells.kind_ne_end {raw behind value : List Char} {kind : Kind}
    (spells : Spells raw behind kind value) : kind ≠ .endOfInput := by
  rintro rfl
  cases spells

/-- Spellings have no end of input among their tokens. -/
theorem beforeEnd_spellings {spellings : List Spelling}
    (valid : ∀ spelling ∈ spellings, spelling.Valid) (position : Position) :
    beforeEnd (spellings.map Spelling.token ++ [.endAt position]) =
      spellings.map Spelling.token := by
  unfold beforeEnd
  rw [List.takeWhile_append_of_pos]
  · rw [List.takeWhile_cons_of_neg (by simp [Token.endAt]), List.append_nil]
  · intro token member
    obtain ⟨spelling, inside, rfl⟩ := List.mem_map.mp member
    exact decide_eq_true (valid spelling inside).kind_ne_end

variable {numeral : Number → List Char} {program : Program}

theorem Program.legible (printable : program.Printable numeral) :
    Legible (program.spellings numeral) := blockLegible program.body printable

/-- The grammar reads a printable program from its tokens. -/
theorem derives_spellings (printable : program.Printable numeral) :
    Derives ((program.spellings numeral).map Spelling.token ++ [.endAt default]) program := by
  unfold Derives
  rw [beforeEnd_spellings (Program.legible printable).valid]
  have read := blockReads program.body printable []
  rwa [List.append_nil] at read

/-- Any text that arranges the spellings of a program compiles to it. -/
theorem compile_of_arranged (printable : program.Printable numeral) {text : String}
    (arranged : Arranged (fun first second => touches first second = true) none
      ((program.spellings numeral).map Spelling.raw) text.toList) :
    ∃ found, compile text = .ok found ∧ found.erase = program.erase := by
  have legible := Program.legible printable
  obtain ⟨tokens, split, spelled⟩ := tokenize_of_arranged arranged legible.valid legible.chain
  obtain ⟨unplaced, parsed, same⟩ := exists_parse_of_derives (derives_spellings printable)
  rw [← spelled] at parsed
  obtain ⟨front, ends⟩ := exists_ended_of_tokensFrom split
  -- the parser gives the same for the tokens at their positions
  rcases parse_relocate ends fun _ => default with
    ⟨found, parsedHere, moved⟩ | ⟨_, _, _, failed, _⟩
  · refine ⟨found, ?_, ?_⟩
    · unfold compile
      rw [split]
      simp only [parsedHere]
    · cases parsed.symm.trans moved
      rw [← same]
      unfold Program.erase
      rw [eraseBlock_relocate]
  · cases parsed.symm.trans failed

/-- A printable program is, up to positions, the program that its text compiles to, and so it is of
every text that lays its spellings out in another way. -/
theorem compile_print (numeral : Number → List Char) (program : Program)
    (printable : program.Printable numeral) :
    (∃ found, compile (program.print numeral) = .ok found ∧ found.erase = program.erase) ∧
    ∀ text : String, Arranged (fun first second => touches first second = true) none
      ((program.spellings numeral).map Spelling.raw) text.toList →
      ∃ found, compile text = .ok found ∧ found.erase = program.erase := by
  refine ⟨compile_of_arranged printable ?_, fun text => compile_of_arranged printable⟩
  unfold Program.print
  rw [String.toList_ofList]
  exact arranged_layOut none _

/-- A sum whose right operand has the level of the sum, and a string with a quote in it. -/
def quotingProgram : Program :=
  ⟨default, [.declare default "x" false (.binary default .subtract (.string default "a\"")
    (.binary default .add (.number default (Numeral.value "1"))
      (.unary default .negate (.member default (.identifier default "y") "z"))))]⟩

theorem quotingProgram_printed :
    quotingProgram.Printable (fun _ => ['1']) ∧
      quotingProgram.print (fun _ => ['1']) = "mut x=\"a\\\"\"-(1+-y.z);" ∧
      ∃ found, compile "mut x=\"a\\\"\"-(1+-y.z);" = .ok found ∧
        found.erase = quotingProgram.erase := by
  have isName : ∀ text ∈ ["x", "y", "z"], IsName text := by
    simp only [List.forall_mem_cons, List.not_mem_nil, false_imp_iff, implies_true, and_true]
    refine ⟨⟨⟨'x', [], rfl, rfl, by simp⟩, ?_⟩, ⟨⟨'y', [], rfl, rfl, by simp⟩, ?_⟩,
      ⟨⟨'z', [], rfl, rfl, by simp⟩, ?_⟩⟩ <;>
      (intro word; cases word <;> decide)
  have isNumeral : IsNumeral ['1'] (Numeral.value "1") :=
    ⟨.inl ⟨by decide, List.all_eq_true.mp (by decide)⟩, by decide +kernel⟩
  have printable : quotingProgram.Printable (fun _ => ['1']) :=
    ⟨⟨isName "x" (by simp), rfl, trivial, rfl, isNumeral, rfl, isName "y" (by simp),
      isName "z" (by simp)⟩, trivial⟩
  have printed : quotingProgram.print (fun _ => ['1']) = "mut x=\"a\\\"\"-(1+-y.z);" := rfl
  have compiles := (compile_print _ _ printable).1
  rw [printed] at compiles
  exact ⟨printable, printed, compiles⟩

end Script
