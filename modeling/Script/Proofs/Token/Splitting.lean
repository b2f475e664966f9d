import Script.Proofs.Token.Spelling

/-!
# How a text is split

A text is gaps and spellings in turn, each spelling cut off where the rules of its token say.

* `Splits.unique`: a text is split in one way at most;
* `tokenize_exactly_splits`: the lexer gives the tokens of that split, and a fault if there is none.
-/

namespace Script

open Lexer

/-! ## Splits -/

/-- A token with the gap before it and its text as written. -/
structure Piece where
  gap : List Char
  raw : List Char
  token : Token
deriving DecidableEq, Repr

/-- `Splits place text pieces last`: from a place on, a text is tokens with gaps before them, and a
last gap. -/
inductive Splits : Place → List Char → List Piece → List Char → Prop
  | last {place gap} : Gap [] gap → Splits place gap [] gap
  | piece {place gap raw rest kind value pieces last} : Gap (raw ++ rest) gap →
      Spells raw rest kind value → Splits ((place.after gap).after raw) rest pieces last →
      Splits place (gap ++ (raw ++ rest))
        (⟨gap, raw, ⟨kind, String.ofList value, (place.after gap).toPosition⟩⟩ :: pieces) last

/-! ## The tokens of a split -/

/-- The tokens of a split, and the end of input behind the text. -/
def splitTokens (pieces : List Piece) (finish : Place) : List Token :=
  pieces.map Piece.token ++ [.endAt finish.toPosition]

namespace Splits

variable {place : Place} {text last otherLast : List Char} {pieces others : List Piece}

/-- What the lexer finds at the start of a text that is split. -/
theorem inversion (splits : Splits place text pieces last) :
    (splitGap false text = (text, []) ∧ pieces = [] ∧ last = text) ∨
    ∃ gap c rest found others, splitGap false text = (gap, c :: rest) ∧
      lexeme c rest = .ok found ∧
      Splits ((place.after gap).after found.raw) found.rest others last ∧
      pieces = ⟨gap, found.raw, ⟨found.kind, String.ofList found.value,
        (place.after gap).toPosition⟩⟩ :: others := by
  cases splits with
  | last isGap =>
    have skipped := splitGap_of_gap isGap (fun c tail starts => by cases starts)
    rw [List.append_nil] at skipped
    exact .inl ⟨skipped, rfl, rfl⟩
  | @piece _ gap raw rest _ _ _ _ isGap spells further =>
    obtain ⟨c, tail, rfl, solid, taken⟩ := takes_of_spells spells
    have outside : StartsOutside isGapStart (c :: tail ++ rest) := by
      intro d others starts
      cases starts
      exact solid
    exact .inr ⟨gap, c, tail ++ rest, _, _, splitGap_of_gap isGap outside, taken, further, rfl⟩

/-- The lexer gives the tokens of a split. -/
theorem tokensFrom_eq (splits : Splits place text pieces last) :
    tokensFrom place text = .ok (splitTokens pieces (place.after text)) := by
  induction pieces generalizing place text with
  | nil =>
    rcases splits.inversion with ⟨all, _, _⟩ | ⟨_, _, _, _, _, _, _, _, cons⟩
    · refine tokensFrom_end ?_ rfl
      unfold nextToken
      rw [all]
    · cases cons
  | cons piece pieces ih =>
    rcases splits.inversion with ⟨_, nil, _⟩ |
      ⟨gap, c, rest, found, _, spaced, taken, further, cons⟩
    · cases nil
    · cases cons
      have step : nextToken place text =
          ⟨.ok ⟨found.kind, String.ofList found.value, (place.after gap).toPosition⟩,
            (place.after gap).after found.raw, found.rest⟩ := by
        unfold nextToken
        rw [spaced]
        simp only [taken]
      refine tokensFrom_cons (by rw [step]) (lexeme_kind_ne_end taken) ?_
      rw [step, ← after_rest spaced taken]
      exact ih further

/-- A text is split in one way at most. -/
theorem unique (one : Splits place text pieces last) (other : Splits place text others otherLast) :
    pieces = others ∧ last = otherLast := by
  induction pieces generalizing place text others with
  | nil =>
    rcases one.inversion with ⟨all, _, rfl⟩ | ⟨_, _, _, _, _, _, _, _, cons⟩
    · rcases other.inversion with ⟨_, rfl, rfl⟩ | ⟨_, _, _, _, _, spaced, _⟩
      · exact ⟨rfl, rfl⟩
      · cases all.symm.trans spaced
    · cases cons
  | cons piece pieces ih =>
    rcases one.inversion with ⟨_, nil, _⟩ | ⟨_, _, _, _, _, spaced, taken, further, cons⟩
    · cases nil
    · rcases other.inversion with ⟨all, _, _⟩ |
        ⟨_, _, _, _, _, otherSpaced, otherTaken, otherFurther, rfl⟩
      · cases all.symm.trans spaced
      · -- both have skipped the same gap and taken the same token
        cases cons
        cases spaced.symm.trans otherSpaced
        cases taken.symm.trans otherTaken
        obtain ⟨rfl, rfl⟩ := ih further otherFurther
        exact ⟨rfl, rfl⟩

end Splits

/-- What the lexer gives is a split. -/
theorem exists_splits_of_tokensFrom {place : Place} {text : List Char} {tokens : List Token}
    (split : tokensFrom place text = .ok tokens) :
    ∃ pieces last, Splits place text pieces last := by
  fun_induction tokensFrom place text generalizing tokens with
  | case1 => cases split
  | case2 place text token read ended =>
    rcases nextToken_cases read with ⟨all, _⟩ | ⟨gap, c, rest, found, _, taken, step⟩
    · exact ⟨[], text, .last (splitGap_eq_iff.mp all).2.1⟩
    · rw [step] at read
      cases read
      exact absurd ended (lexeme_kind_ne_end taken)
  | case3 place text token read goesOn rest found ih =>
    rcases nextToken_cases read with ⟨_, rfl⟩ | ⟨gap, c, tail, lexed, spaced, taken, step⟩
    · exact absurd rfl goesOn
    · rw [step] at ih found
      obtain ⟨pieces, last, splits⟩ := ih found
      obtain ⟨rfl, isGap, _⟩ := splitGap_eq_iff.mp spaced
      obtain ⟨whole, spells⟩ := lexeme_eq_ok_iff.mp taken
      rw [← whole] at isGap ⊢
      exact ⟨_, last, .piece isGap spells splits⟩
  | case4 => cases split

/-- The lexer gives the tokens of a split, if there is one. -/
theorem tokensFrom_eq_ok_iff {place : Place} {text : List Char} {tokens : List Token} :
    tokensFrom place text = .ok tokens ↔
      ∃ pieces last, Splits place text pieces last ∧
        tokens = splitTokens pieces (place.after text) := by
  constructor
  · intro split
    obtain ⟨pieces, last, splits⟩ := exists_splits_of_tokensFrom split
    rw [splits.tokensFrom_eq] at split
    cases split
    exact ⟨pieces, last, splits, rfl⟩
  · rintro ⟨pieces, last, splits, rfl⟩
    exact splits.tokensFrom_eq

/-- A text is gaps and spelled tokens in turn, in one way at most. If it is, then the lexer gives
these tokens and the end of input, and if not, a fault. -/
theorem tokenize_exactly_splits (source : String) :
    (∀ tokens, tokenize source = .ok tokens ↔
      ∃ pieces last, Splits .start source.toList pieces last ∧
        tokens = splitTokens pieces (Place.start.after source.toList)) ∧
    (∀ pieces last others otherLast, Splits .start source.toList pieces last →
      Splits .start source.toList others otherLast → pieces = others ∧ last = otherLast) ∧
    ((∃ fault, tokenize source = .error fault) ↔
      ¬ ∃ pieces last, Splits .start source.toList pieces last) := by
  refine ⟨fun tokens => tokensFrom_eq_ok_iff, fun _ _ _ _ one other => one.unique other, ?_, ?_⟩
  · rintro ⟨fault, failed⟩ ⟨pieces, last, splits⟩
    have split : tokenize source = _ := splits.tokensFrom_eq
    cases failed.symm.trans split
  · intro none
    cases split : tokenize source with
    | error fault => exact ⟨fault, rfl⟩
    | ok tokens => exact absurd (exists_splits_of_tokensFrom split) none

end Script
