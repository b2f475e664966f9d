import Script.Proofs.Parse.Window

/-!
# Two token lists that look alike

A `Scene` is a cursor in one token list and a place in another, from which both lists have the same
tokens up to and including the first end of input, but for positions. What stands before, and what
stands behind that end of input, may differ. `scene.Agrees` says that a parser does from the cursor
what another one does from the place: both move as far, and both give the same result, or the same
fault, up to positions. It also says how far at least they move if they succeed, that they never
pass the end of input, and that no bound on loops or nesting was too small, since a `Moves` fault is
none of these.

One lemma for each way to build parsers, here for the cursor, for choices and for lists. A loop may
have different numbers of rounds left in the two lists, if both are more than the tokens in sight
(`room`).
-/

namespace Script

/-- `Moves shift fault other`: two faults are the same but for the positions, which are shifted. No
fault moves that says that a bound was too small. -/
inductive SyntaxFault.Moves (shift : Position → Position) : SyntaxFault → SyntaxFault → Prop
  | expected {demand found} :
      Moves shift (.expected demand found) (.expected demand (found.relocate shift))
  | unexpected {found} : Moves shift (.unexpected found) (.unexpected (found.relocate shift))
  | invalidTarget {position : Position} :
      Moves shift (.invalidTarget position.line) (.invalidTarget (shift position).line)
  | duplicateParameter {name procedure} {position : Position} :
      Moves shift (.duplicateParameter name procedure position.line)
        (.duplicateParameter name procedure (shift position).line)

/-- A token behind a list is an end of input. -/
theorem TokenList.kind_of_size_le {list : TokenList} {index : Nat}
    (outside : list.tokens.size ≤ index) : (list.token index).kind = .endOfInput := by
  unfold TokenList.token
  rw [Array.getElem?_eq_none outside]
  exact list.ended

namespace Parse

/-! ## What moves -/

namespace Motion

variable (shift : Position → Position)

def tokens : Motion Token := ⟨Token.relocate shift, fun _ => True⟩

/-- An expression moves with its position, from which the nodes around it have theirs. -/
def expressions : Motion Expr :=
  ⟨Expr.relocate shift, fun e => (e.relocate shift).position = shift e.position⟩

def statements : Motion Stmt := ⟨Stmt.relocate shift, fun _ => True⟩

def fallbacks : Motion Fallback := ⟨Fallback.relocate shift, fun _ => True⟩

def programs : Motion Program :=
  ⟨fun program => ⟨shift program.position, relocateBlock shift program.body⟩, fun _ => True⟩

end Motion

/-! ## Scenes -/

/-- Cursors in two lists that have the same tokens from there to the end of input, but for
positions. -/
structure Scene (shift : Position → Position) (list other : TokenList) where
  cursor : Nat
  place : Nat
  /-- How many tokens stand before the end of input. -/
  room : Nat
  same : ∀ index ≤ room, other.token (place + index) = (list.token (cursor + index)).relocate shift
  goesOn : ∀ index < room, (list.token (cursor + index)).kind ≠ .endOfInput
  ended : (list.token (cursor + room)).kind = .endOfInput

namespace Scene

variable {shift : Position → Position} {list other : TokenList} (scene : Scene shift list other)

/-- The next token. -/
def token : Token := list.token scene.cursor

theorem token_other : other.token scene.place = scene.token.relocate shift :=
  scene.same 0 (Nat.zero_le _)

/-- The scene one token further on. -/
def next (positive : 0 < scene.room) : Scene shift list other where
  cursor := scene.cursor + 1
  place := scene.place + 1
  room := scene.room - 1
  same := by
    intro index inside
    have here := scene.same (index + 1) (by omega)
    rwa [Nat.add_comm index 1, ← Nat.add_assoc, ← Nat.add_assoc] at here
  goesOn := by
    intro index inside
    have here := scene.goesOn (index + 1) (by omega)
    rwa [Nat.add_comm index 1, ← Nat.add_assoc] at here
  ended := by
    have here := scene.ended
    rwa [show scene.cursor + 1 + (scene.room - 1) = scene.cursor + scene.room by omega]

/-- Before the end of input there is a token to take. -/
theorem room_pos (goesOn : scene.token.kind ≠ .endOfInput) : 0 < scene.room := by
  rcases Nat.eq_zero_or_pos scene.room with none | positive
  · have ended := scene.ended
    rw [none] at ended
    exact absurd ended goesOn
  · exact positive

/-- The tokens in sight are tokens of the list. -/
theorem room_le_size : scene.room ≤ list.tokens.size := by
  rcases Nat.lt_or_ge list.tokens.size scene.room with longer | short
  · exact absurd (TokenList.kind_of_size_le (Nat.le_add_left _ _)) (scene.goesOn _ longer)
  · exact short

theorem room_le_size_other : scene.room ≤ other.tokens.size := by
  rcases Nat.lt_or_ge other.tokens.size scene.room with longer | short
  · have behind : (other.token (scene.place + other.tokens.size)).kind = .endOfInput :=
      TokenList.kind_of_size_le (Nat.le_add_left _ _)
    rw [scene.same _ (Nat.le_of_lt longer)] at behind
    exact absurd behind (scene.goesOn _ longer)
  · exact short

/-- A scene that lies so many tokens behind another. -/
structure Ahead (later : Scene shift list other) (taken : Nat) : Prop where
  cursor : later.cursor = scene.cursor + taken
  place : later.place = scene.place + taken
  room : later.room + taken = scene.room

theorem Ahead.refl : scene.Ahead scene 0 := ⟨rfl, rfl, rfl⟩

variable {scene}

theorem Ahead.trans {later last : Scene shift list other} {taken more : Nat}
    (first : scene.Ahead later taken) (second : later.Ahead last more) :
    scene.Ahead last (taken + more) := by
  obtain ⟨cursor, place, room⟩ := first
  obtain ⟨cursor', place', room'⟩ := second
  exact ⟨by omega, by omega, by omega⟩

theorem ahead_next (positive : 0 < scene.room) : scene.Ahead (scene.next positive) 1 :=
  ⟨rfl, rfl, Nat.sub_add_cancel positive⟩

/-! ## Agreement -/

variable {α β : Type}

/-- Two outcomes agree: the same result or the same fault, but for positions, as far on. -/
inductive Agree (scene : Scene shift list other) (motion : Motion α) (progress : Nat) :
    EStateM.Result SyntaxFault Nat α → EStateM.Result SyntaxFault Nat α → Prop
  | ok {value later taken} : scene.Ahead later taken → progress ≤ taken → motion.placed value →
      Agree scene motion progress (.ok value later.cursor) (.ok (motion.move value) later.place)
  | error {fault found later taken} : scene.Ahead later taken → fault.Moves shift found →
      Agree scene motion progress (.error fault later.cursor) (.error found later.place)

/-- A parser does in one list what another does in the other, and takes at least so many tokens if
it succeeds. -/
def Agrees (scene : Scene shift list other) (motion : Motion α) (progress : Nat)
    (parser twin : Parse α) : Prop :=
  scene.Agree motion progress (parser list scene.cursor) (twin other scene.place)

variable {motion : Motion α} {target : Motion β} {progress total : Nat}

theorem agrees_pure {value moved : α} (same : moved = motion.move value)
    (placed : motion.placed value) : scene.Agrees motion 0 (pure value) (pure moved) := by
  subst same
  exact .ok (Ahead.refl scene) (Nat.le_refl _) placed

theorem agrees_throw {fault found : SyntaxFault} (moves : fault.Moves shift found) :
    scene.Agrees motion progress (throw fault) (throw found) :=
  .error (Ahead.refl scene) moves

/-- Both parsers succeed, or both fail. -/
theorem Agrees.cases {parser twin : Parse α} (agrees : scene.Agrees motion progress parser twin) :
    (∃ value later taken, scene.Ahead later taken ∧ progress ≤ taken ∧
        parser list scene.cursor = .ok value later.cursor ∧
        twin other scene.place = .ok (motion.move value) later.place) ∨
      ∃ fault found later taken, scene.Ahead later taken ∧ fault.Moves shift found ∧
        parser list scene.cursor = .error fault later.cursor ∧
        twin other scene.place = .error found later.place := by
  unfold Agrees at agrees
  generalize parser list scene.cursor = result at agrees ⊢
  generalize twin other scene.place = twinResult at agrees ⊢
  cases agrees with
  | ok ahead moves placed => exact .inl ⟨_, _, _, ahead, moves, rfl, rfl⟩
  | error ahead moves => exact .inr ⟨_, _, _, _, ahead, moves, rfl, rfl⟩

theorem Agrees.weaken {parser twin : Parse α} (agrees : scene.Agrees motion progress parser twin)
    {less : Nat} (fewer : less ≤ progress) : scene.Agrees motion less parser twin := by
  unfold Agrees at agrees ⊢
  generalize parser list scene.cursor = result at agrees
  generalize twin other scene.place = twinResult at agrees
  cases agrees with
  | ok ahead moves placed => exact .ok ahead (Nat.le_trans fewer moves) placed
  | error ahead moves => exact .error ahead moves

/-- Both take the same branch. -/
theorem agrees_if {condition : Bool} {first second twin further : Parse α}
    (holds : scene.Agrees motion progress first twin)
    (fails : scene.Agrees motion progress second further) :
    scene.Agrees motion progress (if condition then first else second)
      (if condition then twin else further) := by
  cases condition with
  | true => exact holds
  | false => exact fails

/-- What agrees from a later scene on agrees behind what was taken before. -/
theorem Agree.behind {later : Scene shift list other} {taken least : Nat}
    {result twinResult : EStateM.Result SyntaxFault Nat α}
    (agree : later.Agree motion progress result twinResult) (ahead : scene.Ahead later taken)
    (moves : least ≤ taken) : scene.Agree motion (least + progress) result twinResult := by
  cases agree with
  | ok aheadOn movesOn placed => exact .ok (ahead.trans aheadOn) (by omega) placed
  | error aheadOn movesOn => exact .error (ahead.trans aheadOn) movesOn

/-- The second parsers start where the first have ended, with fewer tokens in sight. -/
theorem agrees_bind {first twin : Parse α} {next further : α → Parse β} {least : Nat}
    (head : scene.Agrees motion least first twin)
    (tail : ∀ value (later : Scene shift list other), later.room + least ≤ scene.room →
      motion.placed value →
      later.Agrees target progress (next value) (further (motion.move value))) :
    scene.Agrees target (least + progress) (first >>= next) (twin >>= further) := by
  show scene.Agree target _ (EStateM.bind (first list) (fun value => next value list)
    scene.cursor) (EStateM.bind (twin other) (fun value => further value other) scene.place)
  unfold EStateM.bind
  unfold Agrees at head
  generalize first list scene.cursor = result at head
  generalize twin other scene.place = twinResult at head
  cases head with
  | @ok value later taken ahead moves placed =>
    have room := ahead.room
    exact (tail value later (by omega) placed).behind ahead moves
  | error ahead moves => exact .error ahead moves

/-- The tokens that count are those that the first parsers take. -/
theorem agrees_first {first twin : Parse α} {next further : α → Parse β} {least : Nat}
    (head : scene.Agrees motion least first twin)
    (tail : ∀ value (later : Scene shift list other), later.room + least ≤ scene.room →
      motion.placed value → later.Agrees target 0 (next value) (further (motion.move value))) :
    scene.Agrees target least (first >>= next) (twin >>= further) :=
  agrees_bind head tail

/-- The tokens that count are those that the second parsers take. -/
theorem agrees_second {first twin : Parse α} {next further : α → Parse β} {least : Nat}
    (head : scene.Agrees motion least first twin)
    (tail : ∀ value (later : Scene shift list other), later.room + least ≤ scene.room →
      motion.placed value →
      later.Agrees target progress (next value) (further (motion.move value))) :
    scene.Agrees target progress (first >>= next) (twin >>= further) :=
  (agrees_bind head tail).weaken (Nat.le_add_left _ _)

/-! ## The cursor -/

theorem agrees_current_bind {next further : Token → Parse α}
    (tail : scene.Agrees motion progress (next scene.token)
      (further (scene.token.relocate shift))) :
    scene.Agrees motion progress (current >>= next) (current >>= further) := by
  rw [← scene.token_other] at tail
  exact tail

/-- Both see the same kind of token. -/
theorem agrees_currentKind_bind {next further : Kind → Parse α}
    (tail : scene.Agrees motion progress (next scene.token.kind) (further scene.token.kind)) :
    scene.Agrees motion progress (currentKind >>= next) (currentKind >>= further) := by
  have seen : scene.Agrees motion progress (current >>= fun token => next token.kind)
      (current >>= fun token => further token.kind) := agrees_current_bind tail
  exact seen

/-- A check depends on the kind of a token, which does not move. -/
theorem agrees_check_bind {kinds : List Kind} {next further : Bool → Parse α}
    (tail : scene.Agrees motion progress (next (kinds.contains scene.token.kind))
      (further (kinds.contains scene.token.kind))) :
    scene.Agrees motion progress (check kinds >>= next) (check kinds >>= further) := by
  have seen : scene.Agrees motion progress (currentKind >>= fun kind => next (kinds.contains kind))
      (currentKind >>= fun kind => further (kinds.contains kind)) := agrees_currentKind_bind tail
  exact seen

/-- A bound is larger than the number of tokens in sight. -/
theorem agrees_budget_left {next : Nat → Parse α} {twin : Parse α}
    (tail : ∀ rounds, scene.room < rounds → scene.Agrees motion progress (next rounds) twin) :
    scene.Agrees motion progress (budget >>= next) twin :=
  tail (list.tokens.size + 1) (Nat.lt_succ_of_le scene.room_le_size)

theorem agrees_budget_right {parser : Parse α} {further : Nat → Parse α}
    (tail : ∀ more, scene.room < more → scene.Agrees motion progress parser (further more)) :
    scene.Agrees motion progress parser (budget >>= further) :=
  tail (other.tokens.size + 1) (Nat.lt_succ_of_le scene.room_le_size_other)

/-- So are both bounds of two parsers. -/
theorem agrees_budget_bind {next further : Nat → Parse α}
    (tail : ∀ rounds more, scene.room < rounds → scene.room < more →
      scene.Agrees motion progress (next rounds) (further more)) :
    scene.Agrees motion progress (budget >>= next) (budget >>= further) :=
  agrees_budget_left fun rounds enough => agrees_budget_right fun more enoughOther =>
    tail rounds more enough enoughOther

/-- Before the end of input both take the next token. -/
theorem agrees_advance (goesOn : scene.token.kind ≠ .endOfInput) :
    scene.Agrees (.tokens shift) 1 advance advance := by
  have goesOnOther : (other.token scene.place).kind ≠ .endOfInput := by
    rw [scene.token_other]
    exact goesOn
  have taken := gives_iff.mp ((gives_advance goesOn).mpr ⟨rfl, rfl⟩)
  have takenOther := gives_iff.mp ((gives_advance goesOnOther).mpr ⟨rfl, rfl⟩)
  unfold Agrees
  rw [taken, takenOther, scene.token_other]
  exact .ok (ahead_next (scene.room_pos goesOn)) (Nat.le_refl _) trivial

/-- At the end of input both take nothing. -/
theorem agrees_advance_end (ended : scene.token.kind = .endOfInput) :
    scene.Agrees (.tokens shift) 0 advance advance := by
  unfold advance
  refine agrees_current_bind ?_
  rw [if_pos ended, if_pos (show (scene.token.relocate shift).kind = .endOfInput from ended)]
  exact agrees_pure rfl trivial

/-- A token that is asked for is taken in both lists, or the fault is at the same token. -/
theorem agrees_expect {kind : Kind} (noEnd : kind ≠ .endOfInput) (demand : String) :
    scene.Agrees (.tokens shift) 1 (expect kind demand) (expect kind demand) := by
  unfold expect
  refine agrees_current_bind ?_
  by_cases found : scene.token.kind = kind
  · rw [if_pos found, if_pos (show (scene.token.relocate shift).kind = kind from found)]
    exact agrees_advance (found ▸ noEnd)
  · rw [if_neg found, if_neg (show (scene.token.relocate shift).kind ≠ kind from found)]
    exact agrees_throw .expected

/-- A token of a kind is taken in both lists or in none. -/
theorem agrees_accept_bind {kind : Kind} (noEnd : kind ≠ .endOfInput)
    {next further : Option Token → Parse α}
    (taken : ∀ (token : Token) (later : Scene shift list other), later.room + 1 ≤ scene.room →
      later.Agrees motion progress (next (some token)) (further (some (token.relocate shift))))
    (left : scene.Agrees motion progress (next none) (further none)) :
    scene.Agrees motion progress (accept kind >>= next) (accept kind >>= further) := by
  unfold accept acceptAny
  simp only [bind_assoc]
  refine agrees_check_bind ?_
  by_cases found : scene.token.kind = kind
  · have contained : [kind].contains scene.token.kind = true := by simp [found]
    simp only [contained, if_true, bind_assoc, pure_bind]
    exact agrees_second (agrees_advance (found ▸ noEnd)) fun token later room _ =>
      taken token later room
  · have missing : [kind].contains scene.token.kind = false := by simpa using found
    simp only [missing, Bool.false_eq_true, if_false, pure_bind]
    exact left

/-- What follows an attempt: it goes on behind what was read, or from where the attempt started. -/
theorem attempt_bind_apply (production : Parse (Option α)) (next : Option α → Parse β)
    (list : TokenList) (cursor : Nat) :
    (attempt production >>= next) list cursor =
      match production list cursor with
      | .ok (some value) after => next (some value) list after
      | .ok none _ => next none list cursor
      | .error fault after => .error fault after := by
  show EStateM.bind (EStateM.bind (production list) _) _ cursor = _
  unfold EStateM.bind
  cases production list cursor with
  | ok found after => cases found <;> rfl
  | error fault after => rfl

/-- A parser that may decline: what it gives is kept, and if it declines, both go on from where they
started. -/
theorem agrees_attempt_bind {production twin : Parse (Option α)}
    {next further : Option α → Parse β} {least : Nat}
    (attempted : scene.Agrees motion.option least production twin)
    (kept : ∀ value (later : Scene shift list other), motion.placed value →
      later.Agrees target 0 (next (some value)) (further (some (motion.move value))))
    (declined : scene.Agrees target least (next none) (further none)) :
    scene.Agrees target least (attempt production >>= next) (attempt twin >>= further) := by
  unfold Agrees at attempted ⊢
  rw [attempt_bind_apply, attempt_bind_apply]
  generalize production list scene.cursor = result at attempted
  generalize twin other scene.place = twinResult at attempted
  cases attempted with
  | @ok found later taken ahead moves placed =>
    cases found with
    | some value => exact (kept value later (placed value rfl)).behind ahead moves
    | none => exact declined
  | error ahead moves => exact .error ahead moves

/-! ## Loops and lists -/

/-- Two loops that have rounds enough for the tokens in sight agree if one round of both does. -/
theorem rounds_of_room {P : (rounds more : Nat) → Scene shift list other → Prop}
    (round : ∀ rounds more scene, (∀ later, later.room + 1 ≤ scene.room → P rounds more later) →
      P (rounds + 1) (more + 1) scene) :
    ∀ {rounds more : Nat} {scene : Scene shift list other}, scene.room < rounds →
      scene.room < more → P rounds more scene := by
  intro rounds
  induction rounds with
  | zero =>
    intro more scene none
    omega
  | succ rounds ih =>
    intro more scene enough enoughOther
    cases more with
    | zero => omega
    | succ more => exact round rounds more scene fun later room => ih (by omega) (by omega)

/-- Items with commas between them; an item takes a token, so the next one has fewer in sight. -/
theorem agrees_commaSeparated {item twin : Parse α} {bound : Nat}
    (items : ∀ scene : Scene shift list other, scene.room < bound →
      scene.Agrees motion 1 item twin) {rounds more : Nat} {scene : Scene shift list other}
    (enough : scene.room < rounds) (enoughOther : scene.room < more) (short : scene.room < bound) :
      scene.Agrees motion.list 1 (commaSeparated item rounds) (commaSeparated twin more) := by
  revert short
  refine rounds_of_room (P := fun rounds more scene => scene.room < bound →
    scene.Agrees motion.list 1 (commaSeparated item rounds) (commaSeparated twin more))
    (fun rounds more scene ih short => ?_) enough enoughOther
  refine agrees_first (items scene short) fun first later room _ => ?_
  refine agrees_accept_bind (by decide) (fun comma last roomBehind => ?_) ?_
  · refine agrees_second (ih last (by omega) (by omega)) fun others _ _ _ => ?_
    exact agrees_pure rfl trivial
  · exact agrees_pure rfl trivial

theorem agrees_commaList {item twin : Parse α} {bound : Nat}
    (items : ∀ scene : Scene shift list other, scene.room < bound →
      scene.Agrees motion 1 item twin) {scene : Scene shift list other} (short : scene.room < bound)
    (closing : Symbol) (demand : String) :
    scene.Agrees motion.list 1 (commaList item closing demand) (commaList twin closing demand) := by
  have ending : ∀ (values : List α) (later : Scene shift list other),
      later.Agrees motion.list 1 (expect (.symbol closing) demand >>= fun _ => pure values)
        (expect (.symbol closing) demand >>= fun _ => pure (motion.list.move values)) := by
    intro values later
    refine agrees_first (agrees_expect (by simp) demand) fun _ _ _ _ => ?_
    exact agrees_pure rfl trivial
  unfold commaList
  refine agrees_check_bind ?_
  cases closed : [Kind.symbol closing].contains scene.token.kind with
  | true => exact ending [] scene
  | false =>
    refine agrees_budget_bind fun rounds more enough enoughOther => ?_
    refine agrees_second (agrees_commaSeparated items enough enoughOther short)
      fun values later _ _ => ?_
    exact ending values later

end Scene

end Parse

end Script
