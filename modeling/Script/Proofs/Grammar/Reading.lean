import Script.Proofs.Grammar

/-!
# Readings of the grammar

Facts about the grammar alone, before any parser:

* `Level.shorter` and its companions: a phrase takes at least one token;
* `Level.plain`: a reading under a condition on keys is a plain reading;
* `Level.join`, `Level.extend`: a plain expression with an operator and an operand behind it, or
  with one more link behind it, is a plain expression again, whatever the levels;
* `Continuable`: a plain expression that ends before something that could continue it can be
  read on.
-/

namespace Script.Grammar

/-! ## Progress -/

mutual

/-- An expression takes at least one token. -/
theorem Level.shorter {ends : KeyEnds} {n : Nat} {input rest : List Token} {e : Expr} :
    Level ends n input e rest → rest.length < input.length
  | .operator left _ _ right => by
    have first := left.shorter
    have second := right.shorter
    rw [List.length_cons] at first
    omega
  | .tighter _ inner => inner.shorter
  | .unary inner => inner.shorter

theorem Unary.shorter {ends : KeyEnds} {input rest : List Token} {e : Expr} :
    Unary ends input e rest → rest.length < input.length
  | .sign _ _ inner => Nat.lt_succ_of_lt inner.shorter
  | .chain inner => inner.shorter

theorem Chain.shorter {ends : KeyEnds} {input rest : List Token} {e : Expr} :
    Chain ends input e rest → rest.length < input.length
  | .primary inner => inner.shorter
  | .member inner _ _ => by
    have first := inner.shorter
    simp only [List.length_cons] at first
    omega
  | .arrow inner _ key _ => by
    have first := inner.shorter
    have second := key.shorter
    rw [List.length_cons] at first
    omega
  | .bracket inner _ key _ => by
    have first := inner.shorter
    have second := key.shorter
    rw [List.length_cons] at first second
    omega
  | .call inner _ arguments => by
    have first := inner.shorter
    have second := arguments.shorter
    rw [List.length_cons] at first
    omega

theorem Primary.shorter {ends : KeyEnds} {input rest : List Token} {e : Expr} :
    Primary ends input e rest → rest.length < input.length
  | .number _ _ => Nat.lt_succ_self _
  | .string _ => Nat.lt_succ_self _
  | .yes _ => Nat.lt_succ_self _
  | .no _ => Nat.lt_succ_self _
  | .null _ => Nat.lt_succ_self _
  | .nan _ => Nat.lt_succ_self _
  | .identifier _ => Nat.lt_succ_self _
  | .array _ elements => Nat.lt_succ_of_lt elements.shorter
  | .object _ properties => Nat.lt_succ_of_lt properties.shorter
  | .parentheses _ inner _ => by
    have first := inner.shorter
    rw [List.length_cons] at first ⊢
    omega

theorem Elements.shorter {ends : KeyEnds} {closing : Symbol} {input rest : List Token}
    {elements : List Expr} :
    Elements ends closing input elements rest → rest.length < input.length
  | .none _ => Nat.lt_succ_self _
  | .some items _ => Nat.lt_of_succ_lt items.shorter

theorem Items.shorter {ends : KeyEnds} {input rest : List Token} {items : List Expr} :
    Items ends input items rest → rest.length < input.length
  | .last inner => inner.shorter
  | .more first _ others => by
    have firstShorter := first.shorter
    have othersShorter := others.shorter
    rw [List.length_cons] at firstShorter
    omega

theorem Properties.shorter {ends : KeyEnds} {input rest : List Token}
    {properties : List (String × Expr)} :
    Properties ends input properties rest → rest.length < input.length
  | .none _ => Nat.lt_succ_self _
  | .some entries _ => Nat.lt_of_succ_lt entries.shorter

theorem Entries.shorter {ends : KeyEnds} {input rest : List Token}
    {entries : List (String × Expr)} :
    Entries ends input entries rest → rest.length < input.length
  | .last _ _ inner => by
    have value := inner.shorter
    simp only [List.length_cons]
    omega
  | .more _ _ first _ others => by
    have firstShorter := first.shorter
    have othersShorter := others.shorter
    simp only [List.length_cons] at firstShorter ⊢
    omega

end

/-! ## Plain readings -/

/-- No condition on where keys end. -/
abbrev anywhere : KeyEnds := fun _ _ => True

mutual

/-- Dropping the condition on keys keeps a reading. -/
theorem Level.plain {ends : KeyEnds} {n : Nat} {input rest : List Token} {e : Expr} :
    Level ends n input e rest → Level anywhere n input e rest
  | .operator left mark operator right => .operator left.plain mark operator right.plain
  | .tighter bound inner => .tighter bound inner.plain
  | .unary inner => .unary inner.plain

theorem Unary.plain {ends : KeyEnds} {input rest : List Token} {e : Expr} :
    Unary ends input e rest → Unary anywhere input e rest
  | .sign kind stands inner => .sign kind stands inner.plain
  | .chain inner => .chain inner.plain

theorem Chain.plain {ends : KeyEnds} {input rest : List Token} {e : Expr} :
    Chain ends input e rest → Chain anywhere input e rest
  | .primary inner => .primary inner.plain
  | .member inner dot name => .member inner.plain dot name
  | .arrow inner arrow key _ => .arrow inner.plain arrow key.plain trivial
  | .bracket inner opening key closing => .bracket inner.plain opening key.plain closing
  | .call inner opening arguments => .call inner.plain opening arguments.plain

theorem Primary.plain {ends : KeyEnds} {input rest : List Token} {e : Expr} :
    Primary ends input e rest → Primary anywhere input e rest
  | .number kind value => .number kind value
  | .string kind => .string kind
  | .yes kind => .yes kind
  | .no kind => .no kind
  | .null kind => .null kind
  | .nan kind => .nan kind
  | .identifier kind => .identifier kind
  | .array kind elements => .array kind elements.plain
  | .object kind properties => .object kind properties.plain
  | .parentheses opening inner closing => .parentheses opening inner.plain closing

theorem Elements.plain {ends : KeyEnds} {closing : Symbol} {input rest : List Token}
    {elements : List Expr} :
    Elements ends closing input elements rest → Elements anywhere closing input elements rest
  | .none kind => .none kind
  | .some items kind => .some items.plain kind

theorem Items.plain {ends : KeyEnds} {input rest : List Token} {items : List Expr} :
    Items ends input items rest → Items anywhere input items rest
  | .last inner => .last inner.plain
  | .more first comma others => .more first.plain comma others.plain

theorem Properties.plain {ends : KeyEnds} {input rest : List Token}
    {properties : List (String × Expr)} :
    Properties ends input properties rest → Properties anywhere input properties rest
  | .none kind => .none kind
  | .some entries kind => .some entries.plain kind

theorem Entries.plain {ends : KeyEnds} {input rest : List Token}
    {entries : List (String × Expr)} :
    Entries ends input entries rest → Entries anywhere input entries rest
  | .last key colon inner => .last key colon inner.plain
  | .more key colon first comma others => .more key colon first.plain comma others.plain

end

/-! ## Levels -/

theorem Operator.level_lt {n : Nat} {mark : Symbol} {operator : BinaryOp}
    (stands : Operator n mark operator) : n < levelCount := by
  cases stands <;> decide

/-- Behind the last level stands a chain with the operators before it. -/
theorem Level.unary_of_last {ends : KeyEnds} {input rest : List Token} {e : Expr}
    (reading : Level ends levelCount input e rest) : Unary ends input e rest := by
  generalize last : levelCount = n at reading
  cases reading with
  | operator _ _ stands _ => exact absurd stands.level_lt (Nat.not_lt.mpr (Nat.le_of_eq last))
  | tighter below _ => exact absurd below (Nat.not_lt.mpr (Nat.le_of_eq last))
  | unary inner => exact inner

/-- An expression of a tighter level is one of every looser level. -/
theorem Level.loosen {ends : KeyEnds} {n m : Nat} {input rest : List Token} {e : Expr}
    (inner : Level ends m input e rest) (looser : n ≤ m) (bound : m ≤ levelCount) :
    Level ends n input e rest := by
  induction m with
  | zero =>
    have same : n = 0 := Nat.le_zero.mp looser
    exact same ▸ inner
  | succ m ih =>
    rcases Nat.lt_or_ge m n with above | below
    · have same : n = m + 1 := by omega
      exact same ▸ inner
    · exact ih (.tighter (by omega) inner) below (by omega)

theorem Unary.level {ends : KeyEnds} {input rest : List Token} {e : Expr} (n : Nat)
    (inner : Unary ends input e rest) (bound : n ≤ levelCount) : Level ends n input e rest :=
  (Level.unary inner).loosen bound (Nat.le_refl _)

/-! ## Reading on -/

/-- An operator of the same or a tighter level with a simple operand goes behind an expression.
The tree may change, since a tighter operator takes its left operand from inside. -/
theorem Level.joinUnary {n level : Nat} {mark : Symbol} {operator : BinaryOp} {token : Token}
    {middle rest : List Token} {operand : Expr} (kind : token.kind = .symbol mark)
    (stands : Operator level mark operator) (right : Unary anywhere middle operand rest)
    (tighter : n ≤ level) {input before : List Token} {e : Expr}
    (behind : before = token :: middle) :
    Level anywhere n input e before → ∃ joined, Level anywhere n input joined rest
  | .operator left leftKind leftStands inner => by
    -- On this very level the new operator takes the whole as its left operand; a tighter one goes
    -- into the right operand.
    rcases Nat.eq_or_lt_of_le tighter with same | strictly
    · subst same behind
      exact ⟨_, .operator (.operator left leftKind leftStands inner) kind stands
        (right.level _ stands.level_lt)⟩
    · obtain ⟨joined, reading⟩ := Level.joinUnary kind stands right strictly behind inner
      exact ⟨_, .operator left leftKind leftStands reading⟩
  | .tighter bound inner => by
    rcases Nat.eq_or_lt_of_le tighter with same | strictly
    · subst same behind
      exact ⟨_, .operator (.tighter bound inner) kind stands (right.level _ stands.level_lt)⟩
    · obtain ⟨joined, reading⟩ := Level.joinUnary kind stands right strictly behind inner
      exact ⟨_, .tighter bound reading⟩
  | .unary _ => absurd stands.level_lt (Nat.not_lt.mpr tighter)

/-- Any operator with any operand goes behind an expression. -/
theorem Level.join {n level : Nat} {mark : Symbol} {operator : BinaryOp} {token : Token}
    {input middle rest : List Token} {e operand : Expr} (left : Plain input e (token :: middle))
    (kind : token.kind = .symbol mark) (stands : Operator level mark operator) :
    Level anywhere n middle operand rest → ∃ joined, Plain input joined rest
  | .operator first firstKind firstStands second => by
    -- an operand of several operators is joined one operand after the other
    obtain ⟨inner, reading⟩ := left.join kind stands first
    exact reading.join firstKind firstStands second
  | .tighter _ inner => left.join kind stands inner
  | .unary inner => Level.joinUnary kind stands inner (Nat.zero_le _) rfl left

/-- What goes behind every chain goes behind every operand. -/
theorem Unary.extend {middle rest : List Token}
    (link : ∀ {input e}, Chain anywhere input e middle → ∃ longer, Chain anywhere input longer rest)
    {input : List Token} {e : Expr} :
    Unary anywhere input e middle → ∃ longer, Unary anywhere input longer rest
  | .sign kind stands inner => by
    obtain ⟨longer, reading⟩ := inner.extend link
    exact ⟨_, .sign kind stands reading⟩
  | .chain inner => by
    obtain ⟨longer, reading⟩ := link inner
    exact ⟨_, .chain reading⟩

/-- What goes behind every chain goes behind every expression. -/
theorem Level.extend {middle rest : List Token}
    (link : ∀ {input e}, Chain anywhere input e middle → ∃ longer, Chain anywhere input longer rest)
    {n : Nat} {input : List Token} {e : Expr} :
    Level anywhere n input e middle → ∃ longer, Level anywhere n input longer rest
  | .operator left kind stands right => by
    obtain ⟨longer, reading⟩ := right.extend link
    exact ⟨_, .operator left kind stands reading⟩
  | .tighter bound inner => by
    obtain ⟨longer, reading⟩ := inner.extend link
    exact ⟨_, .tighter bound reading⟩
  | .unary inner => by
    obtain ⟨longer, reading⟩ := inner.extend link
    exact ⟨_, .unary reading⟩

end Script.Grammar
