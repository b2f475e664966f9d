import Mathlib.Data.List.Forall2
import Script.Proofs.Grammar.Reading
import Script.Proofs.Print

/-!
# What is printed is what the grammar reads

`Reads phrase spellings tree` says that the tokens of some spellings, before any others, are a
phrase of the grammar with that tree. There is one lemma for each rule that printing uses, and the
lemmas about trees then follow the printer. An expression is read at its own level, and in
parentheses at any level.

* `Expr.reads`: an expression is read as it is printed;
* `blockReads`: so are statements.
-/

namespace Script

open Grammar Spelling

/-- The tokens of some spellings are read as a phrase, whatever follows. -/
def Reads {α : Type} (phrase : List Token → α → List Token → Prop) (spellings : List Spelling)
    (tree : α) : Prop :=
  ∀ rest, phrase (spellings.map Spelling.token ++ rest) tree rest

/-- An expression of a level, with two more levels behind those of the binary operators: operators
before an operand, and chains. -/
def AtLevel (ends : KeyEnds) (n : Nat) (input : List Token) (e : Expr) (rest : List Token) : Prop :=
  if n < prefixLevel then Level ends n input e rest
  else if n = prefixLevel then Unary ends input e rest
  else Chain ends input e rest

variable {ends : KeyEnds} {n : Nat} {e : Expr} {phrase : List Spelling}

namespace AtLevel

variable {input rest : List Token}

theorem of_chain (chain : Chain ends input e rest) (n : Nat) : AtLevel ends n input e rest := by
  unfold AtLevel
  split
  · exact (Unary.chain chain).level n (Nat.le_of_lt ‹_›)
  · split
    · exact .chain chain
    · exact chain

theorem chain (read : AtLevel ends chainLevel input e rest) : Chain ends input e rest := read

theorem unary (read : AtLevel ends prefixLevel input e rest) : Unary ends input e rest := read

/-- An expression of a level is one of every looser level. -/
theorem loosen {m : Nat} (read : AtLevel ends m input e rest) (looser : n ≤ m) :
    AtLevel ends n input e rest := by
  unfold AtLevel at read
  split at read
  · rename_i below
    unfold AtLevel
    rw [if_pos (Nat.lt_of_le_of_lt looser below)]
    exact read.loosen looser (Nat.le_of_lt below)
  · split at read
    · rename_i same
      subst same
      unfold AtLevel
      split
      · exact read.level n (Nat.le_of_lt ‹_›)
      · rw [if_pos (by omega)]
        exact read
    · exact of_chain read n

theorem level (read : AtLevel ends n input e rest) (bound : n ≤ levelCount) :
    Level ends n input e rest := by
  unfold AtLevel at read
  split at read
  · exact read
  · rw [if_pos (show n = prefixLevel from Nat.le_antisymm bound (Nat.not_lt.mp ‹_›))] at read
    exact read.level n bound

end AtLevel

theorem text_token_name (text : String) : (name text).token.text = text := String.ofList_toList

theorem kind_token_mark (symbol : Symbol) : (mark symbol).token.kind = .symbol symbol := rfl

theorem kind_token_keyword (word : Keyword) : (keyword word).token.kind = .keyword word := rfl

/-! ## The rules for expressions -/

namespace Reads

theorem loosen {m : Nat} (read : Reads (AtLevel ends m) phrase e) (looser : n ≤ m) :
    Reads (AtLevel ends n) phrase e := fun rest => (read rest).loosen looser

/-- An expression of any level is one of the loosest. -/
theorem expression (read : Reads (AtLevel ends n) phrase e) : Reads (Level ends 0) phrase e :=
  fun rest => ((read rest).loosen (Nat.zero_le n)).level (Nat.zero_le _)

theorem primary (read : Reads (Primary ends) phrase e) : Reads (AtLevel ends chainLevel) phrase e :=
  fun rest => .of_chain (.primary (read rest)) _

/-- Parentheses make a primary expression of any other. -/
theorem parentheses (read : Reads (Level ends 0) phrase e) :
    Reads (Primary ends) (between .leftParen phrase .rightParen) e := by
  intro rest
  unfold between
  rw [List.map_cons, List.map_append, List.cons_append, List.append_assoc]
  exact .parentheses rfl (read _) rfl

/-- In parentheses, if need be, an expression is one of any level. -/
theorem enclosed {m : Nat} (read : Reads (AtLevel ends m) phrase e) (loose : Bool)
    (demands : loose = false → n ≤ m) : Reads (AtLevel ends n) (enclosed loose phrase) e := by
  unfold Script.enclosed
  cases loose with
  | true => exact fun rest => .of_chain (.primary (read.expression.parentheses rest)) n
  | false => exact read.loosen (demands rfl)

/-- An operator takes operands of its own level on the left and of the next tighter one on the
right. -/
theorem operator {mark : Symbol} {operator : BinaryOp} {left right : Expr}
    {first second : List Spelling} (stands : Operator n mark operator)
    (readLeft : Reads (AtLevel ends n) first left)
    (readRight : Reads (AtLevel ends (n + 1)) second right) :
    Reads (AtLevel ends n) (first ++ Spelling.mark mark :: second)
      (.binary default operator left right) := by
  intro rest
  -- only the levels of binary operators have operators
  have below : n < prefixLevel := stands.level_lt
  unfold AtLevel
  rw [if_pos below, List.map_append, List.append_assoc]
  exact .operator ((readLeft _).level (Nat.le_of_lt below)) rfl stands
    ((readRight rest).level below)

theorem sign {mark : Symbol} {operator : UnaryOp} (stands : Sign mark operator)
    (read : Reads (AtLevel ends prefixLevel) phrase e) :
    Reads (AtLevel ends prefixLevel) (Spelling.mark mark :: phrase) (.unary default operator e) :=
  fun rest => Unary.sign rfl stands (read rest).unary

theorem member (read : Reads (AtLevel ends chainLevel) phrase e) (property : String) :
    Reads (AtLevel ends chainLevel) (phrase ++ [mark .dot, name property])
      (.member default e property) := by
  intro rest
  -- the grammar reads the property off the token of the name
  have chain : Chain ends _ (.member default e (name property).token.text) rest :=
    .member (read ((mark .dot).token :: (name property).token :: rest)).chain rfl rfl
  rw [text_token_name] at chain
  rw [List.map_append, List.append_assoc]
  exact chain

theorem computed {key : Expr} {inner : List Spelling}
    (read : Reads (AtLevel ends chainLevel) phrase e) (readKey : Reads (Level ends 0) inner key) :
    Reads (AtLevel ends chainLevel) (phrase ++ between .leftBracket inner .rightBracket)
      (.computed default e key) := by
  intro rest
  unfold between
  rw [List.map_append, List.append_assoc, List.map_cons, List.map_append, List.cons_append,
    List.append_assoc]
  exact Chain.bracket (read _).chain rfl (readKey _) rfl

theorem call {arguments : List Expr} {inner : List Spelling}
    (read : Reads (AtLevel ends chainLevel) phrase e)
    (readArguments : Reads (Elements ends .rightParen) (inner ++ [mark .rightParen]) arguments) :
    Reads (AtLevel ends chainLevel) (phrase ++ between .leftParen inner .rightParen)
      (.call default e arguments) := by
  intro rest
  unfold between
  rw [List.map_append, List.append_assoc, List.map_cons, List.cons_append]
  exact Chain.call (read _).chain rfl (readArguments rest)

/-- Expressions with commas between them. -/
theorem items {phrases : List (List Spelling)} {elements : List Expr}
    (each : List.Forall₂ (Reads (Level ends 0)) phrases elements) (nonempty : elements ≠ []) :
    Reads (Items ends) (separated phrases) elements := by
  induction each with
  | nil => exact absurd rfl nonempty
  | @cons phrase e phrases elements read each ih =>
    cases each with
    | nil => exact fun rest => .last (read rest)
    | cons next others =>
      intro rest
      unfold separated
      rw [List.map_append, List.append_assoc]
      exact .more (read _) rfl (ih (List.cons_ne_nil _ _) rest)

theorem elements {phrases : List (List Spelling)} {elements : List Expr}
    (each : List.Forall₂ (Reads (Level ends 0)) phrases elements) (closing : Symbol) :
    Reads (Elements ends closing) (separated phrases ++ [mark closing]) elements := by
  intro rest
  by_cases none : elements = []
  · subst none
    cases each
    exact .none rfl
  · rw [List.map_append, List.append_assoc]
    exact .some (items each none _) rfl

/-- A key, a colon and a value. -/
def Entry (ends : KeyEnds) (phrase : List Spelling) (entry : String × Expr) : Prop :=
  ∃ inner, phrase = name entry.1 :: mark .colon :: inner ∧ Reads (Level ends 0) inner entry.2

theorem entries {phrases : List (List Spelling)} {properties : List (String × Expr)}
    (each : List.Forall₂ (Entry ends) phrases properties) (nonempty : properties ≠ []) :
    Reads (Entries ends) (separated phrases) properties := by
  induction each with
  | nil => exact absurd rfl nonempty
  | @cons phrase entry phrases properties read each ih =>
    obtain ⟨key, e⟩ := entry
    obtain ⟨inner, rfl, readValue⟩ := read
    intro rest
    cases each with
    | nil =>
      have last : Entries ends _ [((name key).token.text, e)] rest :=
        .last rfl (kind_token_mark .colon) (readValue rest)
      rwa [text_token_name] at last
    | @cons next _ others _ _ _ =>
      have behind := ih (List.cons_ne_nil _ _) rest
      have more : Entries ends _ (((name key).token.text, e) :: _) rest :=
        .more rfl (kind_token_mark .colon) (readValue _) (kind_token_mark .comma) behind
      rw [text_token_name] at more
      unfold separated
      rw [List.map_append, List.append_assoc]
      exact more

theorem properties {phrases : List (List Spelling)} {properties : List (String × Expr)}
    (each : List.Forall₂ (Entry ends) phrases properties) :
    Reads (Properties ends) (separated phrases ++ [mark .rightBrace]) properties := by
  intro rest
  by_cases none : properties = []
  · subst none
    cases each
    exact .none rfl
  · rw [List.map_append, List.append_assoc]
    exact .some (entries each none _) rfl

theorem array {elements : List Expr} {inner : List Spelling}
    (read : Reads (Elements ends .rightBracket) (inner ++ [mark .rightBracket]) elements) :
    Reads (Primary ends) (between .leftBracket inner .rightBracket) (.array default elements) :=
  fun rest => .array rfl (read rest)

theorem object {properties : List (String × Expr)} {inner : List Spelling}
    (read : Reads (Properties ends) (inner ++ [mark .rightBrace]) properties) :
    Reads (Primary ends) (between .leftBrace inner .rightBrace) (.object default properties) :=
  fun rest => .object rfl (read rest)

end Reads

/-- An operator with a mark stands on its level in the grammar. -/
theorem exists_operator {operator : BinaryOp} (ruled : operator.symbol?.isSome) :
    ∃ mark, operator.symbol? = some mark ∧ Operator operator.level mark operator := by
  cases operator with
  | other spelling => cases ruled
  | _ => exact ⟨_, rfl, by constructor⟩

theorem exists_sign {operator : UnaryOp} (ruled : operator.symbol?.isSome) :
    ∃ mark, operator.symbol? = some mark ∧ Sign mark operator := by
  cases operator with
  | other spelling => cases ruled
  | _ => exact ⟨_, rfl, by constructor⟩

variable {numeral : Number → List Char}

/-! ## Expressions -/

mutual

/-- An expression is read at its level as it is printed. -/
theorem Expr.reads : ∀ e : Expr, e.Printable numeral →
    Reads (AtLevel ends e.level) (e.spellings numeral) e.erase
  | .number _ value, printable => by
    refine Reads.primary fun rest => ?_
    exact .number rfl printable.2
  | .string _ value, _ => by
    refine Reads.primary fun rest => ?_
    have read : Primary ends _ (.string default (Spelling.string value).token.text) rest :=
      .string rfl
    rwa [show (Spelling.string value).token.text = value from String.ofList_toList] at read
  | .boolean _ true, _ => Reads.primary fun _ => .yes rfl
  | .boolean _ false, _ => Reads.primary fun _ => .no rfl
  | .null _, _ => Reads.primary fun _ => .null (.inl rfl)
  | .nan _, _ => Reads.primary fun _ => .nan rfl
  | .identifier _ text, _ => by
    refine Reads.primary fun rest => ?_
    have read : Primary ends _ (.identifier default (name text).token.text) rest := .identifier rfl
    rwa [text_token_name] at read
  | .array _ elements, printable =>
    Reads.primary (Reads.array (.elements (elementsRead elements printable) _))
  | .object _ properties, printable =>
    Reads.primary (Reads.object (.properties (propertiesRead properties printable)))
  | .binary _ operator left right, ⟨ruled, printableLeft, printableRight⟩ => by
    obtain ⟨mark, written, stands⟩ := exists_operator ruled
    have readLeft := (left.reads printableLeft).enclosed (n := operator.level)
      (left.level < operator.level) (by simp)
    have readRight := (right.reads printableRight).enclosed (n := operator.level + 1)
      (right.level ≤ operator.level) fun tight => Nat.lt_of_not_le (of_decide_eq_false tight)
    show Reads (AtLevel ends operator.level)
      (enclosed _ _ ++ (operator.symbol?.toList.map Spelling.mark ++ enclosed _ _)) _
    rw [written]
    exact readLeft.operator stands readRight
  | .unary _ operator operand, ⟨ruled, printable⟩ => by
    obtain ⟨mark, written, stands⟩ := exists_sign ruled
    have read := (operand.reads printable).enclosed (n := prefixLevel)
      (operand.level < prefixLevel) (by simp)
    show Reads (AtLevel ends prefixLevel)
      (operator.symbol?.toList.map Spelling.mark ++ enclosed _ _) _
    rw [written]
    exact read.sign stands
  | .member _ object property, ⟨printable, _⟩ =>
    ((object.reads printable).enclosed _ (by simp)).member property
  | .computed _ object key, ⟨printable, printableKey⟩ =>
    ((object.reads printable).enclosed _ (by simp)).computed (key.reads printableKey).expression
  | .call _ callee arguments, ⟨printable, printableArguments⟩ =>
    ((callee.reads printable).enclosed _ (by simp)).call
      (.elements (elementsRead arguments printableArguments) _)

theorem elementsRead : ∀ elements : List Expr, ElementsPrintable numeral elements →
    List.Forall₂ (Reads (Level ends 0)) (elementSpellings numeral elements)
      (eraseElements elements)
  | [], _ => .nil
  | e :: rest, ⟨printable, printableRest⟩ =>
    .cons (e.reads printable).expression (elementsRead rest printableRest)

theorem propertiesRead : ∀ properties : List (String × Expr),
    PropertiesPrintable numeral properties →
    List.Forall₂ (Reads.Entry ends) (propertySpellings numeral properties)
      (eraseProperties properties)
  | [], _ => .nil
  | (_, e) :: rest, ⟨_, printable, printableRest⟩ =>
    .cons ⟨_, rfl, (e.reads printable).expression⟩ (propertiesRead rest printableRest)

end

/-! ## The rules for statements -/

theorem declarator_kind (constant : Bool) :
    Declarator (declarator constant).token.kind constant := by
  cases constant with
  | true => exact .constant
  | false => exact .mutable

namespace Reads

variable {value : Expr} {inner valuePhrase : List Spelling} {body : List Stmt}

/-- A declaration without its semicolon, as a loop has it as well. -/
theorem declaration {text : String} {constant : Bool} (read : Reads Expression phrase value) :
    Reads Declaration (declarator constant :: name text :: mark .equals :: phrase)
      (.declare default text constant value) := by
  intro rest
  have declaration : Declaration _ (.declare default (name text).token.text constant value) rest :=
    .mk (declarator_kind constant) rfl (kind_token_mark .equals) (read rest)
  rwa [text_token_name] at declaration

/-- A statement that assigns starts with a name. -/
theorem assignment {target : Expr} {s : Stmt} (starts : ∃ text tail, phrase = name text :: tail)
    (read : Reads Expression phrase target) (readValue : Reads Expression valuePhrase value)
    (assigns : Assignment target value s) :
    Reads Statement ((phrase ++ mark .equals :: valuePhrase) ++ [mark .semicolon]) s := by
  obtain ⟨text, tail, rfl⟩ := starts
  intro rest
  have target := read ((mark .equals).token :: (valuePhrase.map Spelling.token ++
    ((mark .semicolon).token :: rest)))
  rw [List.map_append, List.map_append, List.map_cons, List.append_assoc, List.append_assoc]
  exact .assign rfl target rfl (readValue _) rfl assigns

theorem names {parameters : List String} (nonempty : parameters ≠ []) :
    Reads Names (separated (parameters.map fun text => [name text])) parameters := by
  induction parameters with
  | nil => exact absurd rfl nonempty
  | cons text parameters ih =>
    intro rest
    cases parameters with
    | nil =>
      have last : Names _ [(name text).token.text] rest := .last rfl
      rwa [text_token_name] at last
    | cons next others =>
      have more : Names _ ((name text).token.text :: _) rest :=
        .more rfl (kind_token_mark .comma) (ih (List.cons_ne_nil _ _) rest)
      rwa [text_token_name] at more

/-- Parameters have to be distinct, since the grammar refuses others. -/
theorem parameters {parameters : List String} (distinct : parameters.Nodup) :
    Reads Parameters (separated (parameters.map fun text => [name text]) ++ [mark .rightParen])
      parameters := by
  intro rest
  by_cases none : parameters = []
  · subst none
    exact .none rfl
  · rw [List.map_append, List.append_assoc]
    exact .some (names none _) distinct rfl

theorem condition (read : Reads Expression phrase value) :
    Reads Condition (between .leftParen phrase .rightParen) value := by
  intro rest
  unfold between
  rw [List.map_cons, List.map_append, List.cons_append, List.append_assoc]
  exact .mk rfl (read _) rfl

theorem block (read : Reads Statements phrase body) :
    Reads Block (between .leftBrace phrase .rightBrace) body := by
  intro rest
  unfold between
  rw [List.map_cons, List.map_append, List.cons_append, List.append_assoc]
  exact .mk rfl (read _) rfl

theorem declared {s : Stmt} (read : Reads Declaration phrase s) :
    Reads Statement (phrase ++ [mark .semicolon]) s := by
  intro rest
  rw [List.map_append, List.append_assoc]
  exact .declare (read _) rfl

theorem procedure {text : String} {names : List String} (distinct : names.Nodup)
    (readBody : Reads Statements inner body) :
    Reads Statement (keyword .procedure :: name text ::
      (parameterSpellings names ++ between .leftBrace inner .rightBrace))
      (.procedure default text names body) := by
  intro rest
  have opened := parameters distinct
    ((between .leftBrace inner .rightBrace).map Spelling.token ++ rest)
  have procedure : Statement _ (.procedure default (name text).token.text names body) rest :=
    .procedure (kind_token_keyword .procedure) rfl (kind_token_mark .leftParen) opened
      (readBody.block rest)
  rw [text_token_name, ← List.append_assoc, ← List.map_append] at procedure
  exact procedure

theorem returns (read : Reads Expression phrase value) :
    Reads Statement (keyword .returns :: (phrase ++ [mark .semicolon]))
      (.returns default value) := by
  intro rest
  rw [List.map_cons, List.map_append, List.cons_append, List.append_assoc]
  exact .returns rfl (read _) rfl

theorem incase {fallback : Fallback} {branches : List Spelling}
    (read : Reads Expression phrase value) (readBody : Reads Statements inner body)
    (readFallback : Reads Otherwise branches fallback) :
    Reads Statement (keyword .incase :: (between .leftParen phrase .rightParen ++
      (between .leftBrace inner .rightBrace ++ branches)))
      (.incase default value body fallback) := by
  intro rest
  rw [List.map_cons, List.map_append, List.map_append, List.cons_append, List.append_assoc,
    List.append_assoc]
  exact .incase rfl (read.condition _) (readBody.block _) (readFallback rest)

theorem otherwise (readBody : Reads Statements inner body) :
    Reads Otherwise (keyword .otherwise :: between .leftBrace inner .rightBrace) (.block body) :=
  fun rest => .block rfl (readBody.block rest)

theorem elif {fallback : Fallback} {branches : List Spelling}
    (read : Reads Expression phrase value) (readBody : Reads Statements inner body)
    (readFallback : Reads Otherwise branches fallback) :
    Reads Otherwise (keyword .elif :: (between .leftParen phrase .rightParen ++
      (between .leftBrace inner .rightBrace ++ branches)))
      (.elif default value body fallback) := by
  intro rest
  rw [List.map_cons, List.map_append, List.map_append, List.cons_append, List.append_assoc,
    List.append_assoc]
  exact .elif rfl (read.condition _) (readBody.block _) (readFallback rest)

/-- A counting loop: two declarations or assignments without semicolons of their own, and a
condition between them. -/
theorem drift {init : Stmt} {text : String} {test : Expr}
    {initPhrase testPhrase : List Spelling} (readInit : Reads Declaration initPhrase init)
    (readTest : Reads Expression testPhrase test) (read : Reads Expression phrase value)
    (readBody : Reads Statements inner body) :
    Reads Statement (keyword .drift :: (between .leftParen
      (initPhrase ++ mark .semicolon :: (testPhrase ++ mark .semicolon ::
        name text :: mark .equals :: phrase)) .rightParen ++
      between .leftBrace inner .rightBrace))
      (.drift default init test (.assign default text value) body) := by
  intro rest
  have updated := read ((mark .rightParen).token ::
    ((between .leftBrace inner .rightBrace).map Spelling.token ++ rest))
  have tested := readTest ((mark .semicolon).token :: (name text).token :: (mark .equals).token ::
    (phrase.map Spelling.token ++ ((mark .rightParen).token ::
      ((between .leftBrace inner .rightBrace).map Spelling.token ++ rest))))
  have drift : Statement _ (.drift default init test
      (.assign default (name text).token.text value) body) rest :=
    .drift (kind_token_keyword .drift) (kind_token_mark .leftParen) (readInit _)
      (kind_token_mark .semicolon) tested rfl rfl rfl updated rfl (readBody.block rest)
  rw [text_token_name] at drift
  simpa [between] using drift

theorem through {text : String} {constant : Bool} (read : Reads Expression phrase value)
    (readBody : Reads Statements inner body) :
    Reads Statement (keyword .drift :: (between .leftParen
      (declarator constant :: name text :: keyword .through :: phrase) .rightParen ++
      between .leftBrace inner .rightBrace))
      (.through default text constant value body) := by
  intro rest
  have iterated := read ((mark .rightParen).token ::
    ((between .leftBrace inner .rightBrace).map Spelling.token ++ rest))
  have through : Statement _ (.through default (name text).token.text constant value body) rest :=
    .through (kind_token_keyword .drift) (kind_token_mark .leftParen) (declarator_kind constant) rfl
      (kind_token_keyword .through) iterated rfl (readBody.block rest)
  rw [text_token_name] at through
  simpa [between] using through

theorem expressionStatement (read : Reads Expression phrase value) :
    Reads Statement (phrase ++ [mark .semicolon]) (.expression value) := by
  intro rest
  rw [List.map_append, List.append_assoc]
  exact .expression (read _) rfl

end Reads

/-! ## Statements -/

theorem Expr.expression {e : Expr} (printable : e.Printable numeral) :
    Reads Expression (e.spellings numeral) e.erase := (e.reads printable).expression

/-- What starts with a name is a chain, so it needs no parentheses as a target. -/
theorem Expr.level_of_isRooted {e : Expr} (rooted : e.isRooted) : e.level = chainLevel := by
  cases e with
  | binary | unary => cases rooted
  | _ => rfl

/-- A chain that is rooted in a name is written from that name on. -/
theorem Expr.starts_of_isRooted : ∀ {e : Expr}, e.isRooted →
    ∃ text tail, e.spellings numeral = name text :: tail
  | .identifier _ text, _ => ⟨text, [], rfl⟩
  | .member _ inner _, rooted | .computed _ inner _, rooted | .call _ inner _, rooted => by
    have rootedInner : inner.isRooted := rooted
    obtain ⟨text, tail, starts⟩ := starts_of_isRooted rootedInner
    unfold Expr.spellings enclosed
    rw [level_of_isRooted rootedInner, starts]
    exact ⟨text, _, rfl⟩

mutual

/-- A statement is read as it is printed. -/
theorem Stmt.reads : ∀ s : Stmt, s.Printable numeral →
    Reads Statement (s.spellings numeral) s.erase
  | .declare _ _ _ _, ⟨_, printable⟩ => (Expr.expression printable).declaration.declared
  | .assign _ text _, ⟨isName, printable⟩ =>
    Reads.assignment ⟨text, [], rfl⟩ (Expr.expression (e := .identifier default text) isName)
      (Expr.expression printable) .name
  | .assignMember _ object property _, ⟨rooted, printable, isName, printableValue⟩ =>
    Reads.assignment (Expr.starts_of_isRooted (e := .member default object property) rooted)
      (Expr.expression (e := .member default object property) ⟨printable, isName⟩)
      (Expr.expression printableValue) .member
  | .assignComputed _ object key _, ⟨rooted, printable, printableKey, printableValue⟩ =>
    Reads.assignment (Expr.starts_of_isRooted (e := .computed default object key) rooted)
      (Expr.expression (e := .computed default object key) ⟨printable, printableKey⟩)
      (Expr.expression printableValue) .computed
  | .procedure _ _ _ body, ⟨_, _, distinct, printable⟩ =>
    Reads.procedure distinct (blockReads body printable)
  | .returns _ _, printable => (Expr.expression printable).returns
  | .leave _, _ => fun _ => .leave rfl rfl
  | .proceed _, _ => fun _ => .proceed rfl rfl
  | .incase _ _ body fallback, ⟨printable, printableBody, printableFallback⟩ =>
    (Expr.expression printable).incase (blockReads body printableBody)
      (fallback.reads printableFallback)
  | .drift _ (.declare _ _ _ _) _ (.assign _ _ _) body,
      ⟨_, printableInit, printableTest, _, printable, printableBody⟩ =>
    (Expr.expression printableInit).declaration.drift (Expr.expression printableTest)
      (Expr.expression printable) (blockReads body printableBody)
  | .through _ _ _ _ body, ⟨_, printable, printableBody⟩ =>
    (Expr.expression printable).through (blockReads body printableBody)
  | .expression _, printable => (Expr.expression printable).expressionStatement

theorem Fallback.reads : ∀ fallback : Fallback, fallback.Printable numeral →
    Reads Otherwise (fallback.spellings numeral) fallback.erase
  | .nothing, _ => fun _ => .nothing
  | .block body, printable => (blockReads body printable).otherwise
  | .elif _ _ body fallback, ⟨printable, printableBody, printableFallback⟩ =>
    (Expr.expression printable).elif (blockReads body printableBody)
      (fallback.reads printableFallback)

/-- Statements are read as they are printed. -/
theorem blockReads : ∀ body : List Stmt, BlockPrintable numeral body →
    Reads Statements (blockSpellings numeral body) (eraseBlock body)
  | [], _ => fun _ => .none
  | s :: rest, ⟨printable, printableRest⟩ => by
    intro behind
    unfold blockSpellings
    rw [List.map_append, List.append_assoc]
    exact .cons (s.reads printable _) (blockReads rest printableRest behind)

end

end Script
