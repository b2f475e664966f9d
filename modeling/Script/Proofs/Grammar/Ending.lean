import Script.Proofs.Grammar.Reading

/-!
# Where expressions end

An expression ends where no operator and no link follows: `Stops` says so of a rest. A longest key
ends at a stop (`Longest.stops`), unless what follows it does not continue any expression at all;
`Continuable` rules that out, and every operand and every link behind an expression provides it.
-/

namespace Script.Grammar

/-! ## Stops -/

/-- A kind of token that continues an expression of a level: an operator of that level or a
tighter one, or the start of a link. -/
inductive Extends (n : Nat) : Kind → Prop
  | operator {level mark operator} : n ≤ level → Operator level mark operator →
      Extends n (.symbol mark)
  | arrow : Extends n (.symbol .arrow)
  | dot : Extends n (.symbol .dot)
  | bracket : Extends n (.symbol .leftBracket)
  | call : Extends n (.symbol .leftParen)

/-- Nothing at the start of a rest continues an expression of a level. -/
def Stops (n : Nat) (rest : List Token) : Prop :=
  ∀ token tail, rest = token :: tail → ¬ Extends n token.kind

/-- What continues an expression of a tight level continues one of a looser level as well. -/
theorem Extends.loosen {n m : Nat} {kind : Kind} (extended : Extends m kind) (looser : n ≤ m) :
    Extends n kind := by
  cases extended with
  | operator tighter stands => exact .operator (Nat.le_trans looser tighter) stands
  | arrow => exact .arrow
  | dot => exact .dot
  | bracket => exact .bracket
  | call => exact .call

theorem Stops.tighten {n m : Nat} {rest : List Token} (stops : Stops n rest) (tighter : n ≤ m) :
    Stops m rest :=
  fun token tail cons extended => stops token tail cons (extended.loosen tighter)

/-- An operator stands on one level only. -/
theorem Operator.not_extends {n : Nat} {mark : Symbol} {operator : BinaryOp}
    (stands : Operator n mark operator) : ¬ Extends (n + 1) (.symbol mark) := by
  intro extended
  cases extended with
  | operator tighter other => cases stands <;> cases other <;> omega
  | arrow => cases stands
  | dot => cases stands
  | bracket => cases stands
  | call => cases stands

/-- Where an operator stands, an operand of the next tighter level ends. -/
theorem Operator.stops {n : Nat} {mark : Symbol} {operator : BinaryOp} {token : Token}
    {tail : List Token} (stands : Operator n mark operator) (kind : token.kind = .symbol mark) :
    Stops (n + 1) (token :: tail) := by
  intro head others cons extended
  cases cons
  rw [kind] at extended
  exact stands.not_extends extended

/-- The symbols that end an expression. -/
inductive Terminator : Symbol → Prop
  | semicolon : Terminator .semicolon
  | comma : Terminator .comma
  | equals : Terminator .equals
  | paren : Terminator .rightParen
  | bracket : Terminator .rightBracket
  | brace : Terminator .rightBrace

/-- Before a closing symbol, an expression of any level ends. -/
theorem Terminator.stops {mark : Symbol} (terminator : Terminator mark) {token : Token}
    (kind : token.kind = .symbol mark) (n : Nat) (tail : List Token) :
    Stops n (token :: tail) := by
  intro head others cons extended
  cases cons
  rw [kind] at extended
  cases terminator <;> (cases extended with | operator _ stands => cases stands)

/-! ## Rests that can be read on -/

/-- Whatever starts a rest, if it could continue an expression, then every plain expression that
ends there can be read on. -/
def Continuable (rest : List Token) : Prop :=
  ¬ Stops 0 rest → ∀ input e, Plain input e rest →
    ∃ longer shorter, Plain input longer shorter ∧ shorter.length < rest.length

theorem Stops.continuable {rest : List Token} (stops : Stops 0 rest) : Continuable rest :=
  fun continues => absurd stops continues

/-- A longest expression ends at a stop if what follows can be read on. -/
theorem Longest.stops {input rest : List Token} {e : Expr} (longest : Longest input rest)
    (reading : Plain input e rest) (continuable : Continuable rest) : Stops 0 rest := by
  apply Classical.byContradiction
  intro continues
  obtain ⟨longer, shorter, other, less⟩ := continuable continues input e reading
  exact Nat.not_lt.mpr (longest longer shorter other) less

/-- Behind an operator stands an operand, so an expression before the operator can be read on. -/
theorem continuable_operator {n level : Nat} {mark : Symbol} {operator : BinaryOp} {token : Token}
    {middle rest : List Token} {right : Expr} (kind : token.kind = .symbol mark)
    (stands : Operator level mark operator) (operand : Level anywhere n middle right rest) :
    Continuable (token :: middle) := by
  intro _ input e reading
  obtain ⟨joined, whole⟩ := reading.join kind stands operand
  exact ⟨joined, rest, whole, Nat.lt_succ_of_lt operand.shorter⟩

/-- What goes behind every chain can be read on. -/
theorem continuable_link {middle rest : List Token}
    (link : ∀ {input e}, Chain anywhere input e middle → ∃ longer, Chain anywhere input longer rest)
    (shorter : rest.length < middle.length) : Continuable middle := by
  intro _ input e reading
  obtain ⟨longer, whole⟩ := reading.extend link
  exact ⟨longer, rest, whole, shorter⟩

theorem continuable_member {dot name : Token} {rest : List Token}
    (dotKind : dot.kind = .symbol .dot) (nameKind : name.kind = .identifier) :
    Continuable (dot :: name :: rest) :=
  continuable_link (fun inner => ⟨_, .member inner dotKind nameKind⟩)
    (Nat.lt_succ_of_lt (Nat.lt_succ_self _))

theorem continuable_arrow {arrow : Token} {middle rest : List Token} {key : Expr}
    (kind : arrow.kind = .symbol .arrow) (reading : Plain middle key rest) :
    Continuable (arrow :: middle) :=
  continuable_link (fun inner => ⟨_, .arrow inner kind reading trivial⟩)
    (Nat.lt_succ_of_lt reading.shorter)

theorem continuable_bracket {opening closing : Token} {middle rest : List Token} {key : Expr}
    (openKind : opening.kind = .symbol .leftBracket)
    (reading : Plain middle key (closing :: rest))
    (closeKind : closing.kind = .symbol .rightBracket) : Continuable (opening :: middle) :=
  continuable_link (fun inner => ⟨_, .bracket inner openKind reading closeKind⟩)
    (Nat.lt_succ_of_lt (Nat.lt_of_succ_lt reading.shorter))

theorem continuable_call {opening : Token} {middle rest : List Token} {arguments : List Expr}
    (kind : opening.kind = .symbol .leftParen)
    (reading : Elements anywhere .rightParen middle arguments rest) :
    Continuable (opening :: middle) :=
  continuable_link (fun inner => ⟨_, .call inner kind reading⟩)
    (Nat.lt_succ_of_lt reading.shorter)

end Script.Grammar
