import Mathlib.Logic.Relation
import Script.Proofs.Value.Equality
import Script.Value.Display

/-!
# The text of a value by its paths

All parts of a value share the list of open arrays while they are shown, and yet the text of each
part depends only on the path on which it stands: `Store.textAt` says what the text is, with the
path as an argument and with no list to share. The number of arrays that are not open bounds how
deep arrays can still nest.

* `displayWithin_eq`: showing a value ends, gives the text by its path, and leaves the list of open
  arrays as it was.
* `renders_iff`: plain recursion, which does not look for cycles, ends for exactly those values in
  which no array contains itself, and gives the same text.
-/

namespace Script.Store

variable {store : Store}

/-! ## Arrays that are not open -/

/-- The number of arrays that are not on a path. -/
def closedCount (store : Store) (path : List ArrayId) : Nat :=
  (List.range store.arrays.size).countP fun id => !path.contains id

theorem closedCount_le (store : Store) (path : List ArrayId) :
    store.closedCount path ≤ store.arrays.size := by
  have bound := List.countP_le_length (p := fun id => !path.contains id)
    (l := List.range store.arrays.size)
  rwa [List.length_range] at bound

/-- An array that is opened is one less to open. -/
theorem closedCount_cons_lt {path : List ArrayId} {id : ArrayId} (inside : id < store.arrays.size)
    (closed : id ∉ path) : store.closedCount (id :: path) < store.closedCount path := by
  unfold closedCount
  obtain ⟨before, behind, split⟩ := List.append_of_mem (List.mem_range.mpr inside)
  have fewer : ∀ ids : List ArrayId, ids.countP (fun i => !(id :: path).contains i) ≤
      ids.countP (fun i => !path.contains i) := by
    intro ids
    refine List.countP_mono_left fun i _ closed => ?_
    simp only [List.contains_cons, Bool.not_or, Bool.and_eq_true] at closed
    exact closed.2
  have first := fewer before
  have last := fewer behind
  rw [split, List.countP_append, List.countP_append, List.countP_cons_of_neg (by simp),
    List.countP_cons_of_pos (by simpa using closed)]
  omega

/-! ## The text at the end of a path -/

/-- The text of a value that stands inside the arrays of a path. Each element is shown on its own,
whatever stands beside it. -/
def textAt (store : Store) (path : List ArrayId) : Value → String
  | .array id =>
    if _onPath : id ∈ path then ""
    else
      String.intercalate "," <| (store.elements id).toList.attach.map fun ⟨element, _⟩ =>
        if element = .null then "" else store.textAt (id :: path) element
  | other => store.plainText other
termination_by store.closedCount path
decreasing_by
  rename_i member _
  exact closedCount_cons_lt (lt_of_mem_elements member) _onPath

theorem textAt_array (store : Store) (path : List ArrayId) (id : ArrayId) :
    store.textAt path (.array id) =
      if id ∈ path then ""
      else
        String.intercalate "," <| (store.elements id).toList.map fun element =>
          if element = .null then "" else store.textAt (id :: path) element := by
  rw [textAt]
  split
  · rfl
  · congr 1
    exact List.attach_map_val (f := fun element =>
      if element = .null then "" else store.textAt (id :: path) element)

theorem textAt_of_plain {value : Value} (plain : ∀ id, value ≠ .array id) (path : List ArrayId) :
    store.textAt path value = store.plainText value := by
  rw [textAt]
  exact plain

/-! ## Sharing the list of open arrays -/

/-- Parts that each leave the shared state as it was can be shown one after the other. -/
theorem run_mapM_of_restores {σ α β : Type} {shown : α → StateT σ Option β} (text : α → β) {s : σ}
    {parts : List α} (restores : ∀ part ∈ parts, (shown part).run s = some (text part, s)) :
    (parts.mapM shown).run s = some (parts.map text, s) := by
  induction parts with
  | nil => rfl
  | cons part rest ih =>
    have first := restores part List.mem_cons_self
    have others := ih fun other member => restores other (List.mem_cons_of_mem _ member)
    simp only [List.mapM_cons, StateT.run_bind, first, others, Option.bind_eq_bind,
      Option.bind_some, StateT.run_pure, List.map_cons]
    rfl

theorem run_displayWithin_plain {value : Value} (plain : ∀ id, value ≠ .array id) (depth : Nat)
    (active : List ArrayId) :
    (store.displayWithin (depth + 1) value).run active = some (store.plainText value, active) := by
  cases value with
  | array id => exact absurd rfl (plain id)
  | _ => rfl

theorem run_displayWithin_open {id : ArrayId} {active : List ArrayId} (isOpen : id ∈ active)
    (depth : Nat) :
    (store.displayWithin (depth + 1) (.array id)).run active = some ("", active) := by
  simp [displayWithin, isOpen]

theorem run_displayWithin_closed {id : ArrayId} {active : List ArrayId} (closed : id ∉ active)
    {depth : Nat} {texts : List String} {after : List ArrayId}
    (shown : ((store.elements id).toList.mapM fun element =>
        if element = .null then return "" else store.displayWithin depth element).run
          (id :: active) = some (texts, after)) :
    (store.displayWithin (depth + 1) (.array id)).run active =
      some (String.intercalate "," texts, after.erase id) := by
  simp [displayWithin, closed, shown]

/-- Showing a value ends at every depth above the number of closed arrays. It gives the text by the
path and leaves the open arrays as they were. -/
theorem displayWithin_eq (store : Store) (depth : Nat) : ∀ (active : List ArrayId) (value : Value),
    store.closedCount active < depth →
      (store.displayWithin depth value).run active = some (store.textAt active value, active) := by
  induction depth with
  | zero => exact fun _ _ deep => absurd deep (Nat.not_lt_zero _)
  | succ depth ih =>
    intro active value deep
    by_cases isArray : ∃ id, value = .array id
    · obtain ⟨id, rfl⟩ := isArray
      rw [textAt_array]
      by_cases isOpen : id ∈ active
      · rw [if_pos isOpen]
        exact run_displayWithin_open isOpen depth
      · -- the elements find the array open and leave it so, and then it is closed again
        rw [if_neg isOpen, run_displayWithin_closed isOpen
          (run_mapM_of_restores (fun element =>
            if element = .null then "" else store.textAt (id :: active) element) ?_)]
        · rw [List.erase_cons_head]
        · intro element member
          have fewer := closedCount_cons_lt (lt_of_mem_elements member) isOpen
          by_cases isNull : element = .null
          · rw [if_pos isNull, if_pos isNull]
            rfl
          · rw [if_neg isNull, if_neg isNull]
            exact ih (id :: active) element (by omega)
    · have plain : ∀ id, value ≠ .array id := fun id same => isArray ⟨id, same⟩
      rw [textAt_of_plain plain]
      exact run_displayWithin_plain plain depth active

theorem display_eq (store : Store) (value : Value) :
    store.display value = store.textAt [] value := by
  have bound := store.closedCount_le []
  have shown := displayWithin_eq store (store.arrays.size + 1) [] value (by omega)
  unfold display StateT.run'
  rw [StateT.run] at shown
  rw [shown]
  rfl

/-! ## Plain recursion -/

/-- The text that plain recursion gives, which never asks whether an array is open. -/
inductive Renders (store : Store) : Value → String → Prop
  | plain {value} : (∀ id, value ≠ .array id) → Renders store value (store.plainText value)
  | array {id} (text : Value → String) :
      (∀ element ∈ (store.elements id).toList, element ≠ .null →
        Renders store element (text element)) →
      Renders store (.array id) (String.intercalate "," ((store.elements id).toList.map
        fun element => if element = .null then "" else text element))

/-- An array is an element of another one. -/
def Contains (store : Store) (outer inner : ArrayId) : Prop :=
  .array inner ∈ (store.elements outer).toList

/-- From a value, through elements of arrays alone, an array is reached that reaches itself. -/
def Cyclic (store : Store) (value : Value) : Prop :=
  ∃ id inner, value = .array id ∧ Relation.ReflTransGen store.Contains id inner ∧
    Relation.TransGen store.Contains inner inner

theorem Cyclic.of_element {outer inner : ArrayId} (contains : store.Contains outer inner)
    (cyclic : store.Cyclic (.array inner)) : store.Cyclic (.array outer) := by
  obtain ⟨id, last, same, reaches, returns⟩ := cyclic
  cases same
  exact ⟨outer, last, rfl, .head contains reaches, returns⟩

/-- A cycle that is reached from an array is reached from one of its elements. -/
theorem Cyclic.element {outer : ArrayId} (cyclic : store.Cyclic (.array outer)) :
    ∃ inner, store.Contains outer inner ∧ store.Cyclic (.array inner) := by
  obtain ⟨id, last, same, reaches, returns⟩ := cyclic
  cases same
  rcases Relation.ReflTransGen.cases_head reaches with rfl | ⟨inner, contains, further⟩
  · obtain ⟨inner, contains, back⟩ := Relation.TransGen.head'_iff.mp returns
    exact ⟨inner, contains, inner, outer, rfl, back, returns⟩
  · exact ⟨inner, contains, inner, last, rfl, further, returns⟩

/-- Plain recursion does not end in a cycle. -/
theorem Renders.not_cyclic {value : Value} {text : String} (renders : store.Renders value text) :
    ¬ store.Cyclic value := by
  induction renders with
  | plain isPlain =>
    rintro ⟨id, _, same, _⟩
    exact isPlain id same
  | array text _ ih =>
    intro cyclic
    obtain ⟨inner, contains, further⟩ := cyclic.element
    exact ih (.array inner) contains (by simp) further

theorem Renders.unique {value : Value} {first second : String}
    (one : store.Renders value first) (two : store.Renders value second) : first = second := by
  induction one generalizing second with
  | plain isPlain =>
    cases two with
    | plain => rfl
    | array => exact absurd rfl (isPlain _)
  | array text _ ih =>
    cases two with
    | plain isPlain => exact absurd rfl (isPlain _)
    | array text' renders =>
      congr 1
      refine List.map_congr_left fun element member => ?_
      by_cases isNull : element = .null
      · rw [if_pos isNull, if_pos isNull]
      · rw [if_neg isNull, if_neg isNull]
        exact ih element member isNull (renders element member isNull)

/-- Without cycles no array comes back on its own path, so plain recursion gives the text by the
path. -/
theorem renders_textAt (store : Store) (path : List ArrayId) (value : Value)
    (acyclic : ¬ store.Cyclic value)
    (away : ∀ id inner, value = .array id → Relation.ReflTransGen store.Contains id inner →
      inner ∉ path) : store.Renders value (store.textAt path value) := by
  by_cases isArray : ∃ id, value = .array id
  · obtain ⟨id, rfl⟩ := isArray
    have closed : id ∉ path := away id id rfl .refl
    rw [textAt_array, if_neg closed]
    refine .array _ fun element member isNotNull => ?_
    refine renders_textAt store (id :: path) element ?_ ?_
    · rintro ⟨inner, last, rfl, cycle⟩
      exact acyclic (.of_element member ⟨inner, last, rfl, cycle⟩)
    · rintro inner last rfl reaches among
      rcases List.mem_cons.mp among with rfl | old
      · -- the array would be reached again from one of its elements
        exact acyclic ⟨last, last, rfl, .refl, Relation.TransGen.head' member reaches⟩
      · exact away id last rfl (.head member reaches) old
  · rw [textAt_of_plain fun id same => isArray ⟨id, same⟩]
    exact .plain fun id same => isArray ⟨id, same⟩
termination_by store.closedCount path
decreasing_by exact closedCount_cons_lt (lt_of_mem_elements member) closed

theorem renders_iff (store : Store) (value : Value) (text : String) :
    store.Renders value text ↔ ¬ store.Cyclic value ∧ text = store.display value := by
  rw [display_eq]
  have renders : ¬ store.Cyclic value → store.Renders value (store.textAt [] value) :=
    fun acyclic => renders_textAt store [] value acyclic fun _ _ _ _ => List.not_mem_nil
  constructor
  · intro plain
    exact ⟨plain.not_cyclic, plain.unique (renders plain.not_cyclic)⟩
  · rintro ⟨acyclic, rfl⟩
    exact renders acyclic

/-- Showing a value ends, whatever arrays are open and whatever depth above the number of the others
is allowed. It leaves the open arrays, which all its parts share, as they were, and it shows every
array on its own path: nothing if the array is open there, else its elements with commas between
them. The result is that of plain recursion for exactly those values in which no array contains
itself. -/
theorem display_follows_paths (store : Store) (value : Value) :
    (∀ depth active, store.closedCount active < depth →
      (store.displayWithin depth value).run active = some (store.textAt active value, active)) ∧
    store.display value = store.textAt [] value ∧
    (∀ path, (∀ id, value ≠ .array id) → store.textAt path value = store.plainText value) ∧
    (∀ path id, value = .array id → store.textAt path value =
      if id ∈ path then ""
      else
        String.intercalate "," <| (store.elements id).toList.map fun element =>
          if element = .null then "" else store.textAt (id :: path) element) ∧
    (∀ text, store.Renders value text ↔ ¬ store.Cyclic value ∧ text = store.display value) := by
  refine ⟨?_, store.display_eq value, ?_, ?_, store.renders_iff value⟩
  · intro depth active deep
    exact store.displayWithin_eq depth active value deep
  · intro path plain
    exact textAt_of_plain plain path
  · rintro path id rfl
    exact store.textAt_array path id

/-- An array that holds another one twice, which holds a truth value and itself. -/
def doubled : Store :=
  { arrays := #[#[.array 1, .null, .array 1], #[.boolean true, .array 1]] }

/-- The inner array is shown at both of its places, but not inside itself; nothing of it is shown
where it is open. Plain recursion has no text for such a value. -/
theorem doubled_display : doubled.closedCount [] < 3 ∧ doubled.closedCount [1] < 3 ∧
    doubled.textAt [] (.array 0) = "true,,,true," ∧ doubled.textAt [1] (.array 0) = ",," ∧
    ∀ text, ¬ doubled.Renders (.array 0) text := by
  obtain ⟨shows, _, _, _, plain⟩ := display_follows_paths doubled (.array 0)
  have closed : doubled.closedCount [] < 3 := by decide
  have other : doubled.closedCount [1] < 3 := by decide
  have outer : doubled.Contains 0 1 := List.mem_cons_self
  have inner : doubled.Contains 1 1 := List.mem_cons_of_mem _ List.mem_cons_self
  refine ⟨closed, other, ?_, ?_, ?_⟩
  · have same : some ("true,,,true,", []) = some (doubled.textAt [] (.array 0), []) :=
      shows 3 [] closed
    exact (congrArg Prod.fst (Option.some.inj same)).symm
  · have same : some (",,", [1]) = some (doubled.textAt [1] (.array 0), [1]) := shows 3 [1] other
    exact (congrArg Prod.fst (Option.some.inj same)).symm
  · intro text renders
    exact ((plain text).mp renders).1 ⟨0, 1, rfl, .single outer, .single inner⟩

end Script.Store
