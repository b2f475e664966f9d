import Script.Proofs.Parse.Positions
import Script.Proofs.Session.Joining
import Script.Proofs.Token.Layout

/-!
# Layout does not matter

A text whose spellings are written with other gaps between them has the same tokens, compiles to the
same program or fault, and runs alike. Positions differ, and go into every tree, into stored
procedures and into faults, but nothing is decided by them.

* `layout_does_not_matter`: what two texts with the same spellings have in common.
-/

namespace Script

/-! ## Programs at other positions -/

/-- Two runs have the same outcome, printed lines, value and store, up to positions inside stored
procedures. -/
structure SameRun (one two : Except Fault String × Session) : Prop where
  outcome : two.1 = one.1
  output : two.2.store.output = one.2.store.output
  last : two.2.last = one.2.last
  display : two.2.store.display two.2.last = one.2.store.display one.2.last
  store : one.2.store.Alike two.2.store

section

variable {one two : Program}
  (same : relocateBlock (fun _ => default) two.body = relocateBlock (fun _ => default) one.body)

include same

/-- Two programs without their positions run to the same end, seen without positions. -/
theorem Program.outcome_run_eq (limits : Limits) (store : Store) :
    Mirror.outcome ⟨fun _ => default, #[]⟩ (two.run limits store) =
      Mirror.outcome ⟨fun _ => default, #[]⟩ (one.run limits store) := by
  have first := runRest_mirrored ⟨fun _ => default, #[]⟩ limits .zero one.body store.cleared
  have second := runRest_mirrored ⟨fun _ => default, #[]⟩ limits .zero two.body store.cleared
  rw [Program.run_eq, Program.run_eq, ← first, ← second, same]

/-- Programs that differ in positions only run alike in every session. -/
theorem Session.sameRun (limits : Limits) (session : Session) :
    SameRun (session.run limits one) (session.run limits two) := by
  have ends := Program.outcome_run_eq same limits session.store
  have displays : ∀ {store other : Store} (value : Value),
      Mirror.store ⟨fun _ => default, #[]⟩ other = Mirror.store ⟨fun _ => default, #[]⟩ store →
        other.display value = store.display value := by
    intro store other value mirrored
    have here := (Mirror.sameContents_store ⟨fun _ => default, #[]⟩ store).display value
    have there := (Mirror.sameContents_store ⟨fun _ => default, #[]⟩ other).display value
    rw [← here, ← there, mirrored]
  cases ran : one.run limits session.store with
  | ok value after =>
    cases ranOther : two.run limits session.store with
    | ok result other =>
      rw [ran, ranOther] at ends
      obtain ⟨rfl, stores⟩ := EStateM.Result.ok.inj ends
      obtain ⟨alike, output⟩ := Store.alike_of_mirrored stores
      rw [Array.empty_append] at output
      rw [Session.run_of_ok ran, Session.run_of_ok ranOther]
      refine ⟨?_, output, rfl, displays _ stores, alike⟩
      show Except.ok (Session.mk other result).output = Except.ok (Session.mk after result).output
      unfold Session.output
      rw [output]
    | error fault other =>
      rw [ran, ranOther] at ends
      cases ends
  | error fault after =>
    cases ranOther : two.run limits session.store with
    | ok result other =>
      rw [ran, ranOther] at ends
      cases ends
    | error found other =>
      rw [ran, ranOther] at ends
      obtain ⟨rfl, stores⟩ := EStateM.Result.error.inj ends
      obtain ⟨alike, output⟩ := Store.alike_of_mirrored stores
      rw [Array.empty_append] at output
      rw [Session.run_of_error ran, Session.run_of_error ranOther]
      exact ⟨rfl, output, rfl, displays _ stores, alike⟩

theorem Program.erase_eq_of_same_bodies : two.erase = one.erase := by
  have bodies := congrArg eraseBlock same
  rw [eraseBlock_relocate, eraseBlock_relocate] at bodies
  unfold Program.erase
  rw [bodies]

end

/-! ## Texts with the same spellings -/

theorem kinds_and_texts_relocate (shift : Position → Position) (tokens : List Token) :
    (tokens.map (Token.relocate shift)).map (fun token => (token.kind, token.text)) =
      tokens.map fun token => (token.kind, token.text) := by
  rw [List.map_map]
  rfl

/-- The spellings of a text with any gaps around them and some gap between any two give a text with
the same tokens. Either both compile, to the same program up to positions, and both run alike from
every session; or both have the same fault up to its line. -/
theorem layout_does_not_matter (source : String) (tokens : List Token)
    (split : tokenize source = .ok tokens) :
    (∃ pieces last, Splits .start source.toList pieces last) ∧
    ∀ pieces last other, Splits .start source.toList pieces last →
      Arranged (fun _ _ => True) none (pieces.map Piece.raw) (String.toList other) →
      ∃ others, tokenize other = .ok others ∧
        others.map (fun token => (token.kind, token.text)) =
          tokens.map (fun token => (token.kind, token.text)) ∧
        ((∃ one two, compile source = .ok one ∧ compile other = .ok two ∧ two.erase = one.erase ∧
            ∀ limits session, SameRun (Session.run limits session one)
              (Session.run limits session two)) ∨
          ∃ fault found, compile source = .error (.grammatical fault) ∧
            compile other = .error (.grammatical found) ∧
            found.message = (fault.onLine found.line).message ∧
            ∀ line, found.onLine line = fault.onLine line) := by
  refine ⟨exists_splits_of_tokensFrom split, fun pieces last other splits arranged => ?_⟩
  have spellings : pieces.map Piece.raw = (pieces.map Piece.spelling).map Spelling.raw := by
    rw [List.map_map]
    rfl
  rw [spellings] at arranged
  have chain : (pieces.map Piece.spelling).IsChain (Joined fun _ _ => True) :=
    (List.pairwise_of_forall fun _ _ => Or.inl trivial).isChain
  obtain ⟨others, splitOther, spelled⟩ := tokenize_of_arranged arranged splits.valid chain
  have ofPieces : tokens = splitTokens pieces (Place.start.after source.toList) :=
    Except.ok.inj (split.symm.trans splits.tokensFrom_eq)
  have same : others.map (Token.relocate fun _ => default) =
      tokens.map (Token.relocate fun _ => default) := by
    rw [spelled, ofPieces, splitTokens_relocate]
  refine ⟨others, splitOther, ?_, ?_⟩
  · rw [← kinds_and_texts_relocate fun _ => default, same, kinds_and_texts_relocate]
  · rcases compile_of_same_tokens split splitOther same with
      ⟨one, two, compiled, compiledOther, bodies⟩ | ⟨fault, found, failed, failedOther, lines⟩
    · exact .inl ⟨one, two, compiled, compiledOther, Program.erase_eq_of_same_bodies bodies,
        Session.sameRun bodies⟩
    · refine .inr ⟨fault, found, failed, failedOther, ?_, lines⟩
      rw [← found.message_onLine, lines]

/-- The spellings of a text that reads a variable. -/
def readingPieces : List Piece :=
  [⟨[], ['x'], ⟨.identifier, "x", ⟨1, 1⟩⟩⟩, ⟨[], [';'], ⟨.symbol .semicolon, ";", ⟨1, 2⟩⟩⟩]

/-- A comment before the spellings, another one between them and one at the end of the text. -/
theorem readingPieces_spread :
    tokenize "x;" = .ok (splitTokens readingPieces ⟨⟨1, 3⟩, 2⟩) ∧
      Splits .start "x;".toList readingPieces [] ∧
      Arranged (fun _ _ => True) none (readingPieces.map Piece.raw) "#\nx #;\n; # x".toList ∧
      ∃ two, compile "#\nx #;\n; # x" = .ok two ∧ two.erase = readingProgram.erase := by
  have splits : Splits .start "x;".toList readingPieces [] := by
    have name : Spells ['x'] [';'] .identifier ['x'] := by
      refine .identifier ⟨'x', [], rfl, rfl, by simp⟩ ?_ ?_
      · rintro c tail ⟨⟩
        rfl
      · intro keyword
        cases keyword <;> decide
    have mark : Spells [';'] [] (.symbol .semicolon) [';'] := by
      show Spells (Symbol.spelling .semicolon) [] (.symbol .semicolon) (Symbol.spelling .semicolon)
      refine .symbol ?_
      rintro c tail ⟨⟩
    exact .piece .none name (.piece .none mark (.last .none))
  have arranged : Arranged (fun _ _ => True) none (readingPieces.map Piece.raw)
      "#\nx #;\n; # x".toList := by
    have behind : Gap [] [' ', '#', ' ', 'x'] := .blank (by simp) (.lastComment (by simp) rfl)
    have between : Gap ([';'] ++ [' ', '#', ' ', 'x']) [' ', '#', ';', '\n'] :=
      .blank (by simp) (.comment (show '\n' ∉ [';'] by simp) .none)
    have before : Gap (['x'] ++ "x #;\n; # x".toList.tail) ['#', '\n'] :=
      .comment (show '\n' ∉ [] by simp) .none
    refine .next before ?_ (.next between ?_ (.last behind))
    · intro earlier none
      cases none
    · intro _ _ _ empty
      cases empty
  have split : tokenize "x;" = .ok (splitTokens readingPieces ⟨⟨1, 3⟩, 2⟩) := splits.tokensFrom_eq
  refine ⟨split, splits, arranged, ?_⟩
  have compiled : compile "x;" = .ok readingProgram := by cbv
  obtain ⟨_, _, _, ⟨one, two, compiledOne, compiledTwo, same, _⟩ | ⟨_, _, failed, _⟩⟩ :=
    (layout_does_not_matter _ _ split).2 _ _ _ splits arranged
  · cases compiled.symm.trans compiledOne
    exact ⟨two, compiledTwo, same⟩
  · cases compiled.symm.trans failed

end Script
