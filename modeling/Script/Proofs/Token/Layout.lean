import Mathlib.Data.List.Chain
import Script.Proofs.Token.Splitting

/-!
# Layout

The same spellings may be written with other gaps between them. `Arranged apart before raws text`
says that a text is some spellings in order, with a gap between any two that must be kept apart.
Such a text has the tokens of these spellings, if each of them ends where the next one starts or
must be kept apart from it.

* `Spells.before_gap`: a token ends before any gap;
* `tokenize_of_arranged`: the tokens of a text that is arranged, but for positions.
-/

namespace Script

open Lexer

/-! ## Spellings -/

/-- A token as it is written. -/
structure Spelling where
  kind : Kind
  value : List Char
  raw : List Char
deriving DecidableEq, Repr

namespace Spelling

/-- The token that is spelled, at no position in particular. -/
def token (spelling : Spelling) : Token :=
  ⟨spelling.kind, String.ofList spelling.value, default⟩

/-- A spelling is that of its token, if nothing follows it. -/
def Valid (spelling : Spelling) : Prop := Spells spelling.raw [] spelling.kind spelling.value

/-- A spelling ends where another one starts. A numeral ends before a point only if no digit follows
it, and that is left to what follows the point. -/
structure Follows (spelling next : Spelling) : Prop where
  point : spelling.raw = ['.'] → StartsOutside isDigit next.raw
  ends : ∀ text, (next.raw = ['.'] → StartsOutside isDigit text) →
    Spells spelling.raw (next.raw ++ text) spelling.kind spelling.value

end Spelling

/-- What a piece of a split spells. -/
def Piece.spelling (piece : Piece) : Spelling :=
  ⟨piece.token.kind, piece.token.text.toList, piece.raw⟩

theorem Piece.token_spelling (piece : Piece) :
    piece.spelling.token = piece.token.relocate fun _ => default := by
  unfold spelling Spelling.token Token.relocate
  rw [String.ofList_toList]

/-! ## Arrangements -/

/-- `Arranged apart before raws text`: behind an earlier spelling, if there is one, a text is some
spellings in order with gaps around them. A gap is empty only between spellings that need not be
kept apart. -/
inductive Arranged (apart : List Char → List Char → Prop) :
    Option (List Char) → List (List Char) → List Char → Prop
  | last {before gap} : Gap [] gap → Arranged apart before [] gap
  | next {before gap raw raws text} : Gap (raw ++ text) gap →
      (∀ earlier, before = some earlier → apart earlier raw → gap ≠ []) →
      Arranged apart (some raw) raws text →
      Arranged apart before (raw :: raws) (gap ++ (raw ++ text))

/-! ## Tokens before a gap -/

/-- The rest of a text is empty or starts with a gap. -/
def StartsGap (behind : List Char) : Prop := ∀ c tail, behind = c :: tail → isGapStart c = true

theorem StartsGap.outside {behind : List Char} (starts : StartsGap behind) {part : Char → Bool}
    (excludes : ∀ {c}, isGapStart c = true → part c = false) : StartsOutside part behind :=
  fun c tail cons => excludes (starts c tail cons)

theorem Gap.starts {behind gap : List Char} (isGap : Gap behind gap) : StartsGap gap := by
  intro c tail cons
  cases isGap with
  | none => cases cons
  | blank blank =>
    cases cons
    exact isGapStart_of_blank blank
  | comment => cases cons; rfl
  | lastComment => cases cons; rfl

theorem Gap.starts_append {behind gap : List Char} (isGap : Gap behind gap) (nonempty : gap ≠ [])
    (text : List Char) : StartsGap (gap ++ text) := by
  intro c tail cons
  cases gap with
  | nil => exact absurd rfl nonempty
  | cons d rest =>
    cases cons
    exact isGap.starts _ _ rfl

/-- A token ends before any gap, and at the end of the text. -/
theorem Spells.before_gap {raw behind value text : List Char} {kind : Kind}
    (spells : Spells raw behind kind value) (starts : StartsGap text) :
    Spells raw text kind value := by
  have noDigit : StartsOutside isDigit text := starts.outside not_isDigit_of_gap
  have noWord : StartsOutside isWordPart text := starts.outside not_isWordPart_of_gap
  cases spells with
  | string quoted => exact .string quoted
  | whole digits =>
    refine .whole digits noDigit ?_
    rintro c tail rfl
    exact absurd (starts _ _ rfl) (by decide)
  | decimal whole fraction => exact .decimal whole fraction noDigit
  | keyword isWord _ spelled => exact .keyword isWord noWord spelled
  | identifier isWord _ differs => exact .identifier isWord noWord differs
  | @symbol mark =>
    refine .symbol ?_
    rintro c tail rfl longer goesOn
    obtain ⟨d, others, spelled, _⟩ := Symbol.spelling_cons mark
    obtain ⟨e, more, spelledLonger, short, _⟩ := Symbol.spelling_cons longer
    -- the longer symbol has two characters, and no symbol has a gap behind its first one
    rw [spelled] at goesOn
    have single : others = [] := by
      rw [spelledLonger] at goesOn
      have lengths := congrArg List.length goesOn
      rw [List.length_cons, List.length_append, List.length_cons, List.length_singleton] at lengths
      exact List.eq_nil_of_length_eq_zero (by omega)
    subst single
    have found := symbol_ofSpelling?_eq_some_iff.mpr goesOn
    rw [List.singleton_append, ofSpelling?_of_gap (starts c tail rfl)] at found
    cases found

/-! ## The tokens of an arrangement -/

section

variable {apart : List Char → List Char → Prop} {spelling : Spelling} {spellings : List Spelling}
  {text : List Char}

/-- Two spellings that stand in a row are kept apart, or the first one ends where the second one
starts. -/
def Joined (apart : List Char → List Char → Prop) (spelling next : Spelling) : Prop :=
  apart spelling.raw next.raw ∨ spelling.Follows next

/-- A point is not followed by a digit, unless it must be kept apart from that. -/
theorem startsOutside_of_arranged
    (arranged : Arranged apart (some spelling.raw) (spellings.map Spelling.raw) text)
    (valid : ∀ next ∈ spellings, next.Valid)
    (chain : (spelling :: spellings).IsChain (Joined apart)) (point : spelling.raw = ['.']) :
    StartsOutside isDigit text := by
  cases spellings with
  | nil =>
    cases arranged with
    | last isGap => exact isGap.starts.outside not_isDigit_of_gap
  | cons next rest =>
    cases arranged with
    | @next _ gap _ _ text isGap kept _ =>
      by_cases spaced : gap = []
      · subst spaced
        rcases (List.isChain_cons_cons.mp chain).1 with separate | follows
        · exact absurd rfl (kept _ rfl separate)
        · obtain ⟨c, tail, cons, _⟩ := takes_of_spells (valid next List.mem_cons_self)
          intro d more starts
          rw [List.nil_append, cons, List.cons_append, List.cons.injEq] at starts
          exact starts.1 ▸ follows.point point c tail cons
      · exact (isGap.starts_append spaced _).outside not_isDigit_of_gap

/-- In an arrangement, a spelling is that of its token. -/
theorem spells_of_arranged
    (arranged : Arranged apart (some spelling.raw) (spellings.map Spelling.raw) text)
    (valid : ∀ next ∈ spelling :: spellings, next.Valid)
    (chain : (spelling :: spellings).IsChain (Joined apart)) :
    Spells spelling.raw text spelling.kind spelling.value := by
  have alone : spelling.Valid := valid spelling List.mem_cons_self
  cases spellings with
  | nil =>
    cases arranged with
    | last isGap => exact alone.before_gap isGap.starts
  | cons next rest =>
    cases arranged with
    | @next _ gap _ _ text isGap kept further =>
      by_cases spaced : gap = []
      · subst spaced
        obtain ⟨joined, chainOn⟩ := List.isChain_cons_cons.mp chain
        rcases joined with separate | follows
        · exact absurd rfl (kept _ rfl separate)
        · refine follows.ends text fun point => ?_
          exact startsOutside_of_arranged further
            (fun other member => valid other (by simp [member])) chainOn point
      · exact alone.before_gap (isGap.starts_append spaced _)

/-- An arrangement of spellings is split into them. -/
theorem exists_splits_of_arranged {before : Option (List Char)} (place : Place)
    (arranged : Arranged apart before (spellings.map Spelling.raw) text)
    (valid : ∀ spelling ∈ spellings, spelling.Valid) (chain : spellings.IsChain (Joined apart)) :
    ∃ pieces last, Splits place text pieces last ∧ pieces.map Piece.spelling = spellings := by
  induction spellings generalizing place before text with
  | nil =>
    cases arranged with
    | last isGap => exact ⟨[], text, .last isGap, rfl⟩
  | cons spelling rest ih =>
    cases arranged with
    | @next _ gap _ _ text isGap kept further =>
      have spells := spells_of_arranged further valid chain
      obtain ⟨pieces, last, splits, spelled⟩ := ih ((place.after gap).after spelling.raw) further
        (fun other member => valid other (List.mem_cons_of_mem _ member)) chain.tail
      refine ⟨_, last, .piece isGap spells splits, ?_⟩
      rw [List.map_cons, spelled]
      unfold Piece.spelling
      rw [String.toList_ofList]

end

/-- The spellings of a split are those of its tokens. -/
theorem Splits.valid {place : Place} {text last : List Char} {pieces : List Piece}
    (splits : Splits place text pieces last) :
    ∀ spelling ∈ pieces.map Piece.spelling, spelling.Valid := by
  induction splits with
  | last => simp
  | piece _ spells _ ih =>
    rw [List.map_cons, List.forall_mem_cons]
    refine ⟨?_, ih⟩
    unfold Piece.spelling Spelling.Valid
    rw [String.toList_ofList]
    exact spells.before_gap fun _ _ nil => by cases nil

/-- The tokens of a split, without positions. -/
theorem splitTokens_relocate (pieces : List Piece) (finish : Place) :
    (splitTokens pieces finish).map (Token.relocate fun _ => default) =
      (pieces.map Piece.spelling).map Spelling.token ++ [.endAt default] := by
  unfold splitTokens
  rw [List.map_append, List.map_map, List.map_map]
  have spelled : Spelling.token ∘ Piece.spelling =
      Token.relocate (fun _ => default) ∘ Piece.token := funext Piece.token_spelling
  rw [spelled]
  rfl

/-- An arrangement of spellings has their tokens, at some positions. -/
theorem tokenize_of_arranged {apart : List Char → List Char → Prop} {spellings : List Spelling}
    {source : String} (arranged : Arranged apart none (spellings.map Spelling.raw) source.toList)
    (valid : ∀ spelling ∈ spellings, spelling.Valid) (chain : spellings.IsChain (Joined apart)) :
    ∃ tokens, tokenize source = .ok tokens ∧
      tokens.map (Token.relocate fun _ => default) =
        spellings.map Spelling.token ++ [.endAt default] := by
  obtain ⟨pieces, last, splits, spelled⟩ := exists_splits_of_arranged .start arranged valid chain
  refine ⟨_, splits.tokensFrom_eq, ?_⟩
  rw [splitTokens_relocate, spelled]

end Script
