import Script.Proofs.Grammar.Ending

/-!
# The shape of an expression

No expression reaches beyond a place where another one can stop, so an expression that ends at a
stop is the longest one: `longest_of_stops`. Trees do not help to see this, since one text has
several plain trees. A text has only one *shape*, however: operands with joints between them, an
arrow being a joint like any operator. `Run.meets` says that two shapes of one input end alike, or
the shorter one ends before something that could continue it.
-/

namespace Script.Grammar

namespace Shape

/-- What stands between two operands. -/
inductive Joint : Kind → Prop
  | operator {level mark operator} : Operator level mark operator → Joint (.symbol mark)
  | arrow : Joint (.symbol .arrow)

/-- What starts a link other than an arrow. -/
inductive LinkStart : Kind → Prop
  | dot : LinkStart (.symbol .dot)
  | bracket : LinkStart (.symbol .leftBracket)
  | call : LinkStart (.symbol .leftParen)

/-- Primaries of one token. -/
inductive Literal : Kind → Prop
  | number : Literal .number
  | string : Literal .string
  | yes : Literal (.keyword .yes)
  | no : Literal (.keyword .no)
  | null : Literal (.keyword .null)
  | nullPointer : Literal (.keyword .nullPointer)
  | nan : Literal (.keyword .notANumber)
  | identifier : Literal .identifier

/-- What ends a list. -/
inductive Closing : Kind → Prop
  | paren : Closing (.symbol .rightParen)
  | bracket : Closing (.symbol .rightBracket)
  | brace : Closing (.symbol .rightBrace)

mutual

/-- Operands with joints between them. -/
inductive Run : List Token → List Token → Prop
  | last {input rest} : Operand input rest → Run input rest
  | more {input token middle rest} : Operand input (token :: middle) → Joint token.kind →
      Run middle rest → Run input rest

/-- An atom with operators before it and links other than arrows behind it. -/
inductive Operand : List Token → List Token → Prop
  | sign {token mark operator input rest} : token.kind = .symbol mark → Sign mark operator →
      Operand input rest → Operand (token :: input) rest
  | links {input middle rest} : Atom input middle → Links middle rest → Operand input rest

/-- A primary. -/
inductive Atom : List Token → List Token → Prop
  | literal {token rest} : Literal token.kind → Atom (token :: rest) rest
  | array {token input rest} : token.kind = .symbol .leftBracket →
      Elements .rightBracket input rest → Atom (token :: input) rest
  | object {token input rest} : token.kind = .symbol .leftBrace → Properties input rest →
      Atom (token :: input) rest
  | parentheses {opening input closing rest} : opening.kind = .symbol .leftParen →
      Run input (closing :: rest) → closing.kind = .symbol .rightParen →
      Atom (opening :: input) rest

/-- Links other than arrows. -/
inductive Links : List Token → List Token → Prop
  | none {rest} : Links rest rest
  | member {dot name middle rest} : dot.kind = .symbol .dot → name.kind = .identifier →
      Links middle rest → Links (dot :: name :: middle) rest
  | bracket {opening input closing middle rest} : opening.kind = .symbol .leftBracket →
      Run input (closing :: middle) → closing.kind = .symbol .rightBracket →
      Links middle rest → Links (opening :: input) rest
  | call {opening input middle rest} : opening.kind = .symbol .leftParen →
      Elements .rightParen input middle → Links middle rest → Links (opening :: input) rest

/-- A list up to its closing symbol. -/
inductive Elements : Symbol → List Token → List Token → Prop
  | none {closing token rest} : token.kind = .symbol closing →
      Elements closing (token :: rest) rest
  | some {closing input token rest} : Items input (token :: rest) →
      token.kind = .symbol closing → Elements closing input rest

/-- The items of a list. -/
inductive Items : List Token → List Token → Prop
  | last {input rest} : Run input rest → Items input rest
  | more {input comma middle rest} : Run input (comma :: middle) →
      comma.kind = .symbol .comma → Items middle rest → Items input rest

/-- Properties up to their closing brace. -/
inductive Properties : List Token → List Token → Prop
  | none {token rest} : token.kind = .symbol .rightBrace → Properties (token :: rest) rest
  | some {input token rest} : Entries input (token :: rest) →
      token.kind = .symbol .rightBrace → Properties input rest

/-- The properties of an object. -/
inductive Entries : List Token → List Token → Prop
  | last {key colon input rest} : key.kind = .identifier → colon.kind = .symbol .colon →
      Run input rest → Entries (key :: colon :: input) rest
  | more {key colon input comma middle rest} : key.kind = .identifier →
      colon.kind = .symbol .colon → Run input (comma :: middle) →
      comma.kind = .symbol .comma → Entries middle rest →
      Entries (key :: colon :: input) rest

end

/-! ### First tokens -/

/-- A token list that starts with a token of some kinds. -/
def StartsWith (kinds : Kind → Prop) (tokens : List Token) : Prop :=
  ∃ token tail, tokens = token :: tail ∧ kinds token.kind

theorem StartsWith.mono {kinds others : Kind → Prop} {tokens : List Token}
    (starts : StartsWith kinds tokens) (weaker : ∀ kind, kinds kind → others kind) :
    StartsWith others tokens := by
  obtain ⟨token, tail, cons, holds⟩ := starts
  exact ⟨token, tail, cons, weaker _ holds⟩

/-- What an operand starts with. -/
inductive Opens : Kind → Prop
  | literal {kind} : Literal kind → Opens kind
  | sign {mark operator} : Sign mark operator → Opens (.symbol mark)
  | array : Opens (.symbol .leftBracket)
  | object : Opens (.symbol .leftBrace)
  | parentheses : Opens (.symbol .leftParen)

/-- An atom starts with a token that starts an operand, but with no operator. So the first token
tells an atom from a signed operand. -/
theorem Atom.opens {input rest : List Token} (atom : Atom input rest) :
    StartsWith (fun kind => Opens kind ∧ ∀ mark operator, Sign mark operator →
      kind ≠ .symbol mark) input := by
  cases atom with
  | literal holds =>
    refine ⟨_, _, rfl, .literal holds, ?_⟩
    intro mark operator sign kind
    rw [kind] at holds
    cases holds
  | array kind _ =>
    refine ⟨_, _, rfl, by rw [kind]; exact .array, ?_⟩
    intro mark operator sign same
    rw [kind] at same
    cases same
    cases sign
  | object kind _ =>
    refine ⟨_, _, rfl, by rw [kind]; exact .object, ?_⟩
    intro mark operator sign same
    rw [kind] at same
    cases same
    cases sign
  | parentheses kind _ _ =>
    refine ⟨_, _, rfl, by rw [kind]; exact .parentheses, ?_⟩
    intro mark operator sign same
    rw [kind] at same
    cases same
    cases sign

theorem Operand.opens {input rest : List Token} (operand : Operand input rest) :
    StartsWith Opens input := by
  cases operand with
  | sign kind sign _ => exact ⟨_, _, rfl, by rw [kind]; exact .sign sign⟩
  | links atom _ => exact atom.opens.mono fun _ both => both.1

theorem Run.opens {input rest : List Token} (run : Run input rest) : StartsWith Opens input := by
  cases run with
  | last operand => exact operand.opens
  | more operand _ _ => exact operand.opens

theorem Items.opens {input rest : List Token} (items : Items input rest) :
    StartsWith Opens input := by
  cases items with
  | last run => exact run.opens
  | more run _ _ => exact run.opens

/-- Nothing that closes a list starts an item of it. -/
theorem Closing.not_opens {kind : Kind} (closing : Closing kind) : ¬ Opens kind := by
  intro opens
  cases closing <;>
    (cases opens with
      | literal holds => cases holds
      | sign holds => cases holds)

theorem Closing.stops {token : Token} (closing : Closing token.kind) (tail : List Token) :
    Stops 0 (token :: tail) := by
  generalize same : token.kind = kind at closing
  cases closing with
  | paren => exact Terminator.paren.stops same 0 tail
  | bracket => exact Terminator.bracket.stops same 0 tail
  | brace => exact Terminator.brace.stops same 0 tail

/-! ### Progress -/

mutual

theorem Run.shorter {input rest : List Token} : Run input rest → rest.length < input.length
  | .last operand => operand.shorter
  | .more operand _ run => by
    have first := operand.shorter
    have second := run.shorter
    rw [List.length_cons] at first
    omega

theorem Operand.shorter {input rest : List Token} :
    Operand input rest → rest.length < input.length
  | .sign _ _ operand => Nat.lt_succ_of_lt operand.shorter
  | .links atom links => Nat.lt_of_le_of_lt links.shorter atom.shorter

theorem Atom.shorter {input rest : List Token} : Atom input rest → rest.length < input.length
  | .literal _ => Nat.lt_succ_self _
  | .array _ elements => Nat.lt_succ_of_lt elements.shorter
  | .object _ properties => Nat.lt_succ_of_lt properties.shorter
  | .parentheses _ run _ => Nat.lt_succ_of_lt (Nat.lt_of_succ_lt run.shorter)

theorem Links.shorter {input rest : List Token} : Links input rest → rest.length ≤ input.length
  | .none => Nat.le_refl _
  | .member _ _ links => Nat.le_succ_of_le (Nat.le_succ_of_le links.shorter)
  | .bracket _ run _ links => by
    have first := run.shorter
    have second := links.shorter
    rw [List.length_cons] at first ⊢
    omega
  | .call _ elements links => by
    have first := elements.shorter
    have second := links.shorter
    rw [List.length_cons]
    omega

theorem Elements.shorter {closing : Symbol} {input rest : List Token} :
    Elements closing input rest → rest.length < input.length
  | .none _ => Nat.lt_succ_self _
  | .some items _ => Nat.lt_of_succ_lt items.shorter

theorem Items.shorter {input rest : List Token} : Items input rest → rest.length < input.length
  | .last run => run.shorter
  | .more run _ items => by
    have first := run.shorter
    have second := items.shorter
    rw [List.length_cons] at first
    omega

theorem Properties.shorter {input rest : List Token} :
    Properties input rest → rest.length < input.length
  | .none _ => Nat.lt_succ_self _
  | .some entries _ => Nat.lt_of_succ_lt entries.shorter

theorem Entries.shorter {input rest : List Token} :
    Entries input rest → rest.length < input.length
  | .last _ _ run => Nat.lt_succ_of_lt (Nat.lt_succ_of_lt run.shorter)
  | .more _ _ run _ entries => by
    have first := run.shorter
    have second := entries.shorter
    simp only [List.length_cons] at first ⊢
    omega

end

/-! ### Two shapes of one input -/

/-- Two rests are the same, or the longer one starts with a token of some kinds. -/
def Meets (kinds : Kind → Prop) (first second : List Token) : Prop :=
  first = second ∨ (second.length < first.length ∧ StartsWith kinds first) ∨
    (first.length < second.length ∧ StartsWith kinds second)

theorem Meets.symm {kinds : Kind → Prop} {first second : List Token}
    (meets : Meets kinds first second) : Meets kinds second first := by
  rcases meets with same | firstLonger | secondLonger
  · exact .inl same.symm
  · exact .inr (.inr firstLonger)
  · exact .inr (.inl secondLonger)

theorem Meets.mono {kinds others : Kind → Prop} {first second : List Token}
    (meets : Meets kinds first second) (weaker : ∀ kind, kinds kind → others kind) :
    Meets others first second := by
  rcases meets with same | ⟨less, starts⟩ | ⟨less, starts⟩
  · exact .inl same
  · exact .inr (.inl ⟨less, starts.mono weaker⟩)
  · exact .inr (.inr ⟨less, starts.mono weaker⟩)

theorem Joint.extends {kind : Kind} (joint : Joint kind) : Extends 0 kind := by
  cases joint with
  | operator stands => exact .operator (Nat.zero_le _) stands
  | arrow => exact .arrow

theorem LinkStart.extends {kind : Kind} (start : LinkStart kind) : Extends 0 kind := by
  cases start with
  | dot => exact .dot
  | bracket => exact .bracket
  | call => exact .call

theorem Joint.not_linkStart {kind : Kind} (joint : Joint kind) : ¬ LinkStart kind := by
  intro start
  cases start <;> (cases joint with | operator stands => cases stands)

theorem not_startsWith_of_stops {rest : List Token} (stops : Stops 0 rest) :
    ¬ StartsWith (Extends 0) rest := by
  rintro ⟨token, tail, cons, extended⟩
  exact stops token tail cons extended

/-- Rests that both stop can only meet by being the same. -/
theorem Meets.eq_of_stops {first second : List Token} (meets : Meets (Extends 0) first second)
    (firstStops : Stops 0 first) (secondStops : Stops 0 second) : first = second := by
  rcases meets with same | ⟨_, starts⟩ | ⟨_, starts⟩
  · exact same
  · exact absurd starts (not_startsWith_of_stops firstStops)
  · exact absurd starts (not_startsWith_of_stops secondStops)

/-- Where no more links are read, what is left starts with a link, if there was one. -/
theorem Links.meets_start {input rest : List Token} (links : Links input rest) :
    Meets LinkStart input rest := by
  have shorter := links.shorter
  cases links with
  | none => exact .inl rfl
  | member dot name links =>
    have tail := links.shorter
    exact .inr (.inl ⟨Nat.lt_succ_of_lt (Nat.lt_succ_of_le tail), _, _, rfl,
      by rw [dot]; exact .dot⟩)
  | bracket opening run closing links =>
    have first := run.shorter
    have tail := links.shorter
    refine .inr (.inl ⟨?_, _, _, rfl, by rw [opening]; exact .bracket⟩)
    rw [List.length_cons] at first ⊢
    omega
  | call opening elements links =>
    have first := elements.shorter
    have tail := links.shorter
    refine .inr (.inl ⟨?_, _, _, rfl, by rw [opening]; exact .call⟩)
    rw [List.length_cons]
    omega

/-- A joint behind one operand is where every other operand ends too, or lies beyond its end. -/
theorem Meets.joint {first middle rest : List Token} {token : Token}
    (meets : Meets LinkStart first (token :: middle)) (joint : Joint token.kind)
    (run : Run middle rest) : Meets (Extends 0) first rest := by
  have shorter := run.shorter
  rcases meets with same | ⟨less, starts⟩ | ⟨_, head, tail, cons, start⟩
  -- the operand that ends here could go on with the joint
  · subst same
    exact .inr (.inl ⟨Nat.lt_succ_of_lt shorter, _, _, rfl, joint.extends⟩)
  · rw [List.length_cons] at less
    exact .inr (.inl ⟨by omega, starts.mono fun _ => LinkStart.extends⟩)
  · cases cons
    exact absurd start joint.not_linkStart

mutual

/-- Two shapes of one input end alike, or the shorter one ends before something that continues
an expression. -/
theorem Run.meets {input first second : List Token} :
    Run input first → Run input second → Meets (Extends 0) first second
  | .last operand, others => by
    cases others with
    | last other => exact (operand.meets other).mono fun _ => LinkStart.extends
    | more other joint run => exact (operand.meets other).joint joint run
  | .more operand joint run, others => by
    cases others with
    -- the same with the two shapes exchanged
    | last other => exact ((operand.meets other).symm.joint joint run).symm
    | more other otherJoint otherRun =>
      -- Both operands end before a joint, which starts no link, so they end alike.
      rcases operand.meets other with same | ⟨_, _, _, cons, start⟩ | ⟨_, _, _, cons, start⟩
      · cases same
        exact run.meets otherRun
      · cases cons
        exact absurd start joint.not_linkStart
      · cases cons
        exact absurd start otherJoint.not_linkStart
termination_by structural reading => reading

/-- Two operands of one input may only differ in how many links they take. -/
theorem Operand.meets {input first second : List Token} :
    Operand input first → Operand input second → Meets LinkStart first second
  | .sign kind stands operand, others => by
    cases others with
    | sign _ _ other => exact operand.meets other
    -- an operand with a sign and one without start with different tokens
    | links atom _ =>
      obtain ⟨_, _, cons, _, noSign⟩ := atom.opens
      cases cons
      exact absurd kind (noSign _ _ stands)
  | .links atom links, others => by
    cases others with
    | sign kind stands _ =>
      obtain ⟨_, _, cons, _, noSign⟩ := atom.opens
      cases cons
      exact absurd kind (noSign _ _ stands)
    | links otherAtom otherLinks =>
      cases atom.unique otherAtom
      exact links.meets otherLinks
termination_by structural reading => reading

/-- An atom ends with a token of its own, so two atoms of one input end alike. -/
theorem Atom.unique {input first second : List Token} :
    Atom input first → Atom input second → first = second
  | .literal holds, other => by
    cases other with
    | literal _ => rfl
    | array kind _ => rw [kind] at holds; cases holds
    | object kind _ => rw [kind] at holds; cases holds
    | parentheses kind _ _ => rw [kind] at holds; cases holds
  | .array kind elements, other => by
    cases other with
    | literal holds => rw [kind] at holds; cases holds
    | array _ others => exact elements.unique .bracket others
    | object otherKind _ => rw [kind] at otherKind; cases otherKind
    | parentheses otherKind _ _ => rw [kind] at otherKind; cases otherKind
  | .object kind properties, other => by
    cases other with
    | literal holds => rw [kind] at holds; cases holds
    | array otherKind _ => rw [kind] at otherKind; cases otherKind
    | object _ others => exact properties.unique others
    | parentheses otherKind _ _ => rw [kind] at otherKind; cases otherKind
  | .parentheses kind run closing, other => by
    cases other with
    | literal holds => rw [kind] at holds; cases holds
    | array otherKind _ => rw [kind] at otherKind; cases otherKind
    | object otherKind _ => rw [kind] at otherKind; cases otherKind
    | parentheses _ otherRun otherClosing =>
      -- both runs end at a closing parenthesis, which neither could continue
      have same := (run.meets otherRun).eq_of_stops (Terminator.paren.stops closing 0 _)
        (Terminator.paren.stops otherClosing 0 _)
      cases same
      rfl
termination_by structural reading => reading

/-- Links are read alike up to where the shorter ones end. -/
theorem Links.meets {input first second : List Token} :
    Links input first → Links input second → Meets LinkStart first second
  | .none, others => others.meets_start
  | .member dot name links, others => by
    cases others with
    | none => exact (Links.member dot name links).meets_start.symm
    | member _ _ otherLinks => exact links.meets otherLinks
    | bracket kind _ _ _ => rw [dot] at kind; cases kind
    | call kind _ _ => rw [dot] at kind; cases kind
  | .bracket opening run closing links, others => by
    cases others with
    | none => exact (Links.bracket opening run closing links).meets_start.symm
    | member kind _ _ => rw [opening] at kind; cases kind
    | bracket _ otherRun otherClosing otherLinks =>
      have same := (run.meets otherRun).eq_of_stops (Terminator.bracket.stops closing 0 _)
        (Terminator.bracket.stops otherClosing 0 _)
      cases same
      exact links.meets otherLinks
    | call kind _ _ => rw [opening] at kind; cases kind
  | .call opening elements links, others => by
    cases others with
    | none => exact (Links.call opening elements links).meets_start.symm
    | member kind _ _ => rw [opening] at kind; cases kind
    | bracket kind _ _ _ => rw [opening] at kind; cases kind
    | call _ otherElements otherLinks =>
      cases elements.unique .paren otherElements
      exact links.meets otherLinks
termination_by structural reading => reading

/-- A list ends at its closing symbol, at which no item can go on. -/
theorem Elements.unique {closing : Symbol} {input first second : List Token}
    (closes : Closing (.symbol closing)) :
    Elements closing input first → Elements closing input second → first = second
  | .none kind, others => by
    cases others with
    | none _ => rfl
    | some items _ =>
      obtain ⟨_, _, cons, opens⟩ := items.opens
      cases cons
      exact absurd (kind ▸ opens) closes.not_opens
  | .some items kind, others => by
    cases others with
    | none otherKind =>
      obtain ⟨_, _, cons, opens⟩ := items.opens
      cases cons
      exact absurd (otherKind ▸ opens) closes.not_opens
    | some otherItems otherKind =>
      cases items.unique (kind ▸ closes) (otherKind ▸ closes) rfl rfl otherItems
      rfl
termination_by structural reading => reading

/-- Items end where a closing symbol stands. A comma is none, so neither list of items can stop at a
comma of the other. -/
theorem Items.unique {input first second : List Token} {firstToken secondToken : Token}
    {firstRest secondRest : List Token} (firstCloses : Closing firstToken.kind)
    (secondCloses : Closing secondToken.kind) (firstCons : first = firstToken :: firstRest)
    (secondCons : second = secondToken :: secondRest) :
    Items input first → Items input second → first = second
  | .last run, others => by
    cases others with
    | last other =>
      exact (run.meets other).eq_of_stops (firstCons ▸ firstCloses.stops _)
        (secondCons ▸ secondCloses.stops _)
    | more other comma _ =>
      -- the one item ends before a comma, so the other does; but there its closing symbol stands
      have same := (run.meets other).eq_of_stops (firstCons ▸ firstCloses.stops _)
        (Terminator.comma.stops comma 0 _)
      cases firstCons.symm.trans same
      rw [comma] at firstCloses
      cases firstCloses
  | .more run comma items, others => by
    cases others with
    | last other =>
      have same := (run.meets other).eq_of_stops (Terminator.comma.stops comma 0 _)
        (secondCons ▸ secondCloses.stops _)
      cases same.trans secondCons
      rw [comma] at secondCloses
      cases secondCloses
    | more other otherComma otherItems =>
      have same := (run.meets other).eq_of_stops (Terminator.comma.stops comma 0 _)
        (Terminator.comma.stops otherComma 0 _)
      cases same
      exact items.unique firstCloses secondCloses firstCons secondCons otherItems
termination_by structural reading => reading

/-- A property starts with a name, so an object is empty at a closing brace only. -/
theorem Properties.unique {input first second : List Token} :
    Properties input first → Properties input second → first = second
  | .none kind, others => by
    cases others with
    | none _ => rfl
    | some entries _ =>
      cases entries with
      | last key _ _ => rw [kind] at key; cases key
      | more key _ _ _ _ => rw [kind] at key; cases key
  | .some entries kind, others => by
    cases others with
    | none otherKind =>
      cases entries with
      | last key _ _ => rw [otherKind] at key; cases key
      | more key _ _ _ _ => rw [otherKind] at key; cases key
    | some otherEntries otherKind =>
      cases entries.unique (kind ▸ .brace) (otherKind ▸ .brace) rfl rfl otherEntries
      rfl
termination_by structural reading => reading

theorem Entries.unique {input first second : List Token} {firstToken secondToken : Token}
    {firstRest secondRest : List Token} (firstCloses : Closing firstToken.kind)
    (secondCloses : Closing secondToken.kind) (firstCons : first = firstToken :: firstRest)
    (secondCons : second = secondToken :: secondRest) :
    Entries input first → Entries input second → first = second
  | .last _ _ run, others => by
    cases others with
    | last _ _ other =>
      exact (run.meets other).eq_of_stops (firstCons ▸ firstCloses.stops _)
        (secondCons ▸ secondCloses.stops _)
    | more _ _ other comma _ =>
      have same := (run.meets other).eq_of_stops (firstCons ▸ firstCloses.stops _)
        (Terminator.comma.stops comma 0 _)
      cases firstCons.symm.trans same
      rw [comma] at firstCloses
      cases firstCloses
  | .more _ _ run comma entries, others => by
    cases others with
    | last _ _ other =>
      have same := (run.meets other).eq_of_stops (Terminator.comma.stops comma 0 _)
        (secondCons ▸ secondCloses.stops _)
      cases same.trans secondCons
      rw [comma] at secondCloses
      cases secondCloses
    | more _ _ other otherComma otherEntries =>
      have same := (run.meets other).eq_of_stops (Terminator.comma.stops comma 0 _)
        (Terminator.comma.stops otherComma 0 _)
      cases same
      exact entries.unique firstCloses secondCloses firstCons secondCons otherEntries
termination_by structural reading => reading

end

/-! ### Putting shapes together -/

theorem Links.append {input middle rest : List Token} :
    Links input middle → Links middle rest → Links input rest
  | .none, others => others
  | .member dot name links, others => .member dot name (links.append others)
  | .bracket opening run closing links, others =>
    .bracket opening run closing (links.append others)
  | .call opening elements links, others => .call opening elements (links.append others)
termination_by structural reading => reading

theorem Operand.append {input middle rest : List Token} :
    Operand input middle → Links middle rest → Operand input rest
  | .sign kind stands operand, others => .sign kind stands (operand.append others)
  | .links atom first, others => .links atom (first.append others)
termination_by structural reading => reading

/-- Links go behind the last operand. -/
theorem Run.append {input middle rest : List Token} :
    Run input middle → Links middle rest → Run input rest
  | .last operand, links => .last (operand.append links)
  | .more operand joint run, links => .more operand joint (run.append links)
termination_by structural reading => reading

/-- A joint and a run go behind a run. -/
theorem Run.join {input before middle rest : List Token} {token : Token} :
    Run input before → before = token :: middle → Joint token.kind → Run middle rest →
      Run input rest
  | .last operand, behind, joint, others => .more (behind ▸ operand) joint others
  | .more operand firstJoint run, behind, joint, others =>
    .more operand firstJoint (run.join behind joint others)
termination_by structural reading => reading

/-- An operator before a run goes before its first operand. -/
theorem Run.sign {token : Token} {mark : Symbol} {operator : UnaryOp} {input rest : List Token}
    (kind : token.kind = .symbol mark) (stands : Sign mark operator) (run : Run input rest) :
    Run (token :: input) rest := by
  cases run with
  | last operand => exact .last (.sign kind stands operand)
  | more operand joint others => exact .more (.sign kind stands operand) joint others

end Shape

/-! ## Trees have shapes -/

mutual

/-- Every expression has a shape. -/
theorem Level.shape {ends : KeyEnds} {n : Nat} {input rest : List Token} {e : Expr} :
    Level ends n input e rest → Shape.Run input rest
  | .operator left kind stands right =>
    left.shape.join rfl (by rw [kind]; exact .operator stands) right.shape
  | .tighter _ inner => inner.shape
  | .unary inner => inner.shape

theorem Unary.shape {ends : KeyEnds} {input rest : List Token} {e : Expr} :
    Unary ends input e rest → Shape.Run input rest
  | .sign kind stands inner => inner.shape.sign kind stands
  | .chain inner => inner.shape

/-- An arrow and its key are a joint and a run, all other links belong to the last operand. -/
theorem Chain.shape {ends : KeyEnds} {input rest : List Token} {e : Expr} :
    Chain ends input e rest → Shape.Run input rest
  | .primary inner => .last (.links inner.shape .none)
  | .member inner dot name => inner.shape.append (.member dot name .none)
  | .arrow inner kind key _ => inner.shape.join rfl (by rw [kind]; exact .arrow) key.shape
  | .bracket inner opening key closing =>
    inner.shape.append (.bracket opening key.shape closing .none)
  | .call inner opening arguments => inner.shape.append (.call opening arguments.shape .none)

theorem Primary.shape {ends : KeyEnds} {input rest : List Token} {e : Expr} :
    Primary ends input e rest → Shape.Atom input rest
  | .number kind _ => .literal (kind ▸ .number)
  | .string kind => .literal (kind ▸ .string)
  | .yes kind => .literal (kind ▸ .yes)
  | .no kind => .literal (kind ▸ .no)
  | .null (.inl kind) => .literal (kind ▸ .null)
  | .null (.inr kind) => .literal (kind ▸ .nullPointer)
  | .nan kind => .literal (kind ▸ .nan)
  | .identifier kind => .literal (kind ▸ .identifier)
  | .array kind elements => .array kind elements.shape
  | .object kind properties => .object kind properties.shape
  | .parentheses opening inner closing => .parentheses opening inner.shape closing

theorem Elements.shape {ends : KeyEnds} {closing : Symbol} {input rest : List Token}
    {elements : List Expr} :
    Elements ends closing input elements rest → Shape.Elements closing input rest
  | .none kind => .none kind
  | .some items kind => .some items.shape kind

theorem Items.shape {ends : KeyEnds} {input rest : List Token} {items : List Expr} :
    Items ends input items rest → Shape.Items input rest
  | .last inner => .last inner.shape
  | .more first comma others => .more first.shape comma others.shape

theorem Properties.shape {ends : KeyEnds} {input rest : List Token}
    {properties : List (String × Expr)} :
    Properties ends input properties rest → Shape.Properties input rest
  | .none kind => .none kind
  | .some entries kind => .some entries.shape kind

theorem Entries.shape {ends : KeyEnds} {input rest : List Token}
    {entries : List (String × Expr)} :
    Entries ends input entries rest → Shape.Entries input rest
  | .last key colon inner => .last key colon inner.shape
  | .more key colon first comma others => .more key colon first.shape comma others.shape

end

/-- A chain starts with its primary, and so with no operator. -/
theorem Chain.opens {ends : KeyEnds} {input rest : List Token} {e : Expr} :
    Chain ends input e rest → Shape.StartsWith (fun kind => Shape.Opens kind ∧
      ∀ mark operator, Sign mark operator → kind ≠ .symbol mark) input
  | .primary inner => inner.shape.opens
  | .member inner _ _ => inner.opens
  | .arrow inner _ _ _ => inner.opens
  | .bracket inner _ _ _ => inner.opens
  | .call inner _ _ => inner.opens

/-- What an expression starts with. -/
theorem Level.opens {ends : KeyEnds} {n : Nat} {input rest : List Token} {e : Expr}
    (reading : Level ends n input e rest) : Shape.StartsWith Shape.Opens input :=
  reading.shape.opens

/-- An expression that ends at a stop is the longest one. -/
theorem longest_of_stops {ends : KeyEnds} {n : Nat} {input rest : List Token} {e : Expr}
    (reading : Level ends n input e rest) (stops : Stops 0 rest) : Longest input rest := by
  intro other otherRest otherReading
  -- the other reading could only be longer where this one ends before a continuation
  rcases reading.shape.meets otherReading.shape with same | ⟨_, starts⟩ | ⟨less, _⟩
  · exact Nat.le_of_eq (congrArg List.length same)
  · exact absurd starts (Shape.not_startsWith_of_stops stops)
  · exact Nat.le_of_lt less

end Script.Grammar
