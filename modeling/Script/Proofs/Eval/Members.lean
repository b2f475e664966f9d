import Script.Eval
import Script.Proofs.Key

/-!
# Members that are written and read

An assignment to a member evaluates its parts and then writes. Writing by a key and reading by a key
agree: what was written is read at its key and nowhere else, although an array may have grown for
it, because the null elements in between are what a read beyond the end gives anyway. A write that
is refused changes nothing.

* `Run.Wrote.of_ok`: all that a write does.
* `Stmt.AssignsTo.exec_eq`: an assignment is a write in the store that its parts have led to.
* `member_writes_read_back`: the laws of reading and writing.
-/

namespace Script

/-- Whether a value has members that can be written. -/
def Value.isContainer : Value → Bool
  | .array _ | .object _ => true
  | _ => false

/-- The array or the object that a value refers to is in the store. -/
def Store.HasContainer (store : Store) : Value → Prop
  | .array id => id < store.arrays.size
  | .object id => id < store.objects.size
  | _ => False

namespace Run

/-! ## Elements of an array that may grow -/

section

variable {elements : Array Value} {index : Nat} {value : Value}

theorem size_writeAt : (writeAt elements index value).size = max elements.size (index + 1) := by
  unfold writeAt
  split
  · rw [Array.size_setIfInBounds]
    omega
  · rw [Array.size_push, Array.size_append, Array.size_replicate]
    omega

theorem getElem?_writeAt_self : (writeAt elements index value)[index]? = some value := by
  unfold writeAt
  split
  · rename_i inside
    rw [Array.getElem?_setIfInBounds_self_of_lt inside]
  · have last : index = (elements ++ Array.replicate (index - elements.size) Value.null).size := by
      rw [Array.size_append, Array.size_replicate]
      omega
    rw [Array.getElem?_push, if_pos last]

/-- Other elements are as before, and between the old end and the new one they are null. -/
theorem getElem?_writeAt_of_ne {other : Nat} (different : other ≠ index) :
    (writeAt elements index value)[other]? =
      if elements.size ≤ other ∧ other < index then some .null else elements[other]? := by
  unfold writeAt
  split
  · rename_i inside
    rw [Array.getElem?_setIfInBounds_ne (Ne.symm different), if_neg (by omega)]
  · rename_i outside
    have length :
        (elements ++ Array.replicate (index - elements.size) Value.null).size = index := by
      rw [Array.size_append, Array.size_replicate]
      omega
    rw [Array.getElem?_push, length, if_neg different]
    split
    · rename_i between
      rw [Array.getElem?_append_right between.1, Array.getElem?_replicate, if_pos (by omega)]
    · rename_i notBetween
      by_cases old : other < elements.size
      · rw [Array.getElem?_append_left old]
      · rw [Array.getElem?_eq_none (by omega), Array.getElem?_eq_none (by omega)]

end

/-! ## One read, one write -/

section

variable {store : Store} {id : Nat} {key : String} {value : Value}

theorem readElement_of_index {index : Option Nat} (found : Key.index? key = .ok index) :
    readElement id key store =
      .ok ((index.bind ((store.elements id)[·]?)).getD .null) store := by
  unfold readElement
  rw [found]
  rfl

theorem readProperty_eq :
    readProperty id key store = .ok (((store.properties id).get? key).getD .null) store := rfl

theorem writeElement_eq : writeElement id key value store =
    match Key.index? key with
    | .error fault => .error fault store
    | .ok none => .error (.invalidIndex key) store
    | .ok (some index) =>
      if Key.maxGrowth < index + 1 - (store.elements id).size then .error .hugeIndex store
      else .ok () { store with arrays := store.arrays.modify id (writeAt · index value) } := by
  unfold writeElement
  cases Key.index? key with
  | error fault => rfl
  | ok found =>
    cases found with
    | none => rfl
    | some index =>
      show (if Key.maxGrowth < index + 1 - (store.elements id).size then throw .hugeIndex
        else updateElements id (writeAt · index value) : Run Unit) store = _
      dsimp only
      split
      · rfl
      · rfl

theorem writeProperty_eq : writeProperty id key value store =
    .ok () { store with objects := store.objects.modify id (·.insert key value) } := rfl

/-- A write that is refused leaves the store as it is. -/
theorem writeMember_refused {target : Value} {fault : Fault} {after : Store}
    (refused : writeMember target (pure key) value store = .error fault after) :
    after = store := by
  cases target with
  | array id =>
    have whole : writeElement id key value store = .error fault after := refused
    rw [writeElement_eq] at whole
    split at whole
    · cases whole
      rfl
    · cases whole
      rfl
    · split at whole
      · cases whole
        rfl
      · cases whole
  | object id => cases refused
  | _ =>
    cases refused
    rfl

/-! ## What a write does -/

/-- What a store is like after a value was written to the member of a container with a key. -/
structure Wrote (store : Store) (target : Value) (key : String) (value : Value) (after : Store) :
    Prop where
  /-- The value is read at the key. -/
  written : readComputed target key after = .ok value after
  /-- At any other key the same is read as before. -/
  others : ∀ other, other ≠ key → other.length ≤ Fault.maxKeyDigits →
    ∃ old, readComputed target other store = .ok old store ∧
      readComputed target other after = .ok old after
  /-- The key of an array is an index, the array has grown to it if it was shorter, and the new
  elements before it are null. -/
  array : ∀ id, target = .array id → ∃ index, key = index.repr ∧
    (after.elements id).size = max (store.elements id).size (index + 1) ∧
    ∀ i, (store.elements id).size ≤ i → i < index → (after.elements id)[i]? = some .null
  /-- An object has its key besides those it had. -/
  object : ∀ id, target = .object id →
    ∀ k, k ∈ (after.properties id).keys ↔ k ∈ (store.properties id).keys ∨ k = key
  /-- No other array changes. -/
  arrays : ∀ id, target ≠ .array id → after.arrays[id]? = store.arrays[id]?
  /-- No other object changes. -/
  objects : ∀ id, target ≠ .object id → after.objects[id]? = store.objects[id]?
  scopes : after.scopes = store.scopes
  functions : after.functions = store.functions
  output : after.output = store.output

theorem elements_modify_self (inside : id < store.arrays.size)
    (change : Array Value → Array Value) :
    Store.elements { store with arrays := store.arrays.modify id change } id =
      change (store.elements id) := by
  unfold Store.elements
  rw [Array.getElem?_modify, if_pos rfl, Array.getElem?_eq_getElem inside]
  rfl

theorem properties_modify_self (inside : id < store.objects.size)
    (change : Table Value → Table Value) :
    Store.properties { store with objects := store.objects.modify id change } id =
      change (store.properties id) := by
  unfold Store.properties
  rw [Array.getElem?_modify, if_pos rfl, Array.getElem?_eq_getElem inside]
  rfl

/-- Different keys name different indices, or at most one of them names any. -/
theorem wrote_array (inside : id < store.arrays.size) {index : Nat}
    (named : Key.index? key = .ok (some index)) :
    Wrote store (.array id) key value
      { store with arrays := store.arrays.modify id (writeAt · index value) } := by
  have elements := elements_modify_self inside (writeAt · index value)
  constructor
  · show readElement id key _ = _
    rw [readElement_of_index named, elements, Option.bind_some, getElem?_writeAt_self]
    rfl
  · intro other different short
    obtain ⟨found, namedOther⟩ := Key.exists_index?_of_short short
    refine ⟨_, readElement_of_index namedOther, ?_⟩
    show readElement id other _ = _
    rw [readElement_of_index namedOther, elements]
    cases found with
    | none => rfl
    | some i =>
      have apart : i ≠ index := by
        rintro rfl
        exact different ((Key.index?_eq_some_iff.mp namedOther).2.trans
          (Key.index?_eq_some_iff.mp named).2.symm)
      rw [Option.bind_some, Option.bind_some, getElem?_writeAt_of_ne apart]
      -- a null element in between is read as nothing was read there before
      split
      · rename_i between
        rw [Array.getElem?_eq_none between.1]
        rfl
      · rfl
  · rintro _ ⟨⟩
    refine ⟨index, (Key.index?_eq_some_iff.mp named).2, ?_, ?_⟩
    · rw [elements, size_writeAt]
    · intro i low high
      rw [elements, getElem?_writeAt_of_ne (Nat.ne_of_lt high), if_pos ⟨low, high⟩]
  · rintro _ ⟨⟩
  · intro other different
    exact (Array.getElem?_modify ..).trans
      (if_neg fun same => different (congrArg Value.array same))
  · exact fun _ _ => rfl
  · rfl
  · rfl
  · rfl

theorem wrote_object (inside : id < store.objects.size) :
    Wrote store (.object id) key value
      { store with objects := store.objects.modify id (·.insert key value) } := by
  have properties := properties_modify_self inside (·.insert key value)
  constructor
  · show readProperty id key _ = _
    rw [readProperty_eq, properties, Table.get?_insert_self]
    rfl
  · intro other different _
    refine ⟨_, readProperty_eq, ?_⟩
    show readProperty id other _ = _
    rw [readProperty_eq, properties, Table.get?_insert_of_ne _ _ different]
  · rintro _ ⟨⟩
  · rintro _ ⟨⟩ k
    rw [properties]
    show k ∈ (Table.insertEntry key value _).map (·.1) ↔ _
    rw [Table.keys_insertEntry]
    split
    · rename_i old
      refine ⟨.inl, ?_⟩
      rintro (member | rfl)
      · exact member
      · exact old
    · rw [List.mem_append, List.mem_singleton]
      rfl
  · exact fun _ _ => rfl
  · intro other different
    exact (Array.getElem?_modify ..).trans
      (if_neg fun same => different (congrArg Value.object same))
  · rfl
  · rfl
  · rfl

theorem Wrote.of_ok {target : Value} {after : Store} (has : store.HasContainer target)
    (wrote : writeMember target (pure key) value store = .ok () after) :
    Wrote store target key value after := by
  cases target with
  | array id =>
    have whole : writeElement id key value store = .ok () after := wrote
    rw [writeElement_eq] at whole
    split at whole
    · cases whole
    · cases whole
    · rename_i index named
      split at whole
      · cases whole
      · cases whole
        exact wrote_array has named
  | object id =>
    cases wrote
    exact wrote_object has
  | _ => exact has.elim

/-- A write to an array succeeds if its key is the numeral of an index that is not too far behind
the end. -/
theorem writeMember_array_iff (short : key.length ≤ Fault.maxKeyDigits) :
    (∃ after, writeMember (.array id) (pure key) value store = .ok () after) ↔
      ∃ index : Nat, key = index.repr ∧ index + 1 - (store.elements id).size ≤ Key.maxGrowth := by
  show (∃ after, writeElement id key value store = .ok () after) ↔ _
  rw [writeElement_eq]
  constructor
  · rintro ⟨after, wrote⟩
    split at wrote
    · cases wrote
    · cases wrote
    · rename_i index named
      split at wrote
      · cases wrote
      · rename_i near
        exact ⟨index, (Key.index?_eq_some_iff.mp named).2, Nat.le_of_not_lt near⟩
  · rintro ⟨index, numeral, near⟩
    rw [Key.index?_eq_some_iff.mpr ⟨short, numeral⟩]
    simp only [if_neg (Nat.not_lt.mpr near)]
    exact ⟨_, rfl⟩

end

end Run

/-! ## Assignments -/

open Run

/-- The parts of an assignment to a member evaluate, one after the other, to a target, the text of a
key and a value. The last store is the one that they have led to. Unless the target is a container
its key is not evaluated, and any text stands for it. -/
inductive Stmt.AssignsTo (call : Call) (scope : ScopeId) (store : Store) :
    Stmt → Value → String → Value → Store → Prop
  | fixed {position object property value target x middle after} :
      object.eval call scope store = .ok target middle →
      value.eval call scope middle = .ok x after →
      AssignsTo call scope store (.assignMember position object property value) target property x
        after
  | computed {position object key value target x k middle last after} :
      object.eval call scope store = .ok target middle →
      value.eval call scope middle = .ok x last → target.isContainer = true →
      key.eval call scope last = .ok k after →
      AssignsTo call scope store (.assignComputed position object key value) target
        (after.display k) x after
  | noContainer {position object key value target text x middle after} :
      object.eval call scope store = .ok target middle →
      value.eval call scope middle = .ok x after → target.isContainer = false →
      AssignsTo call scope store (.assignComputed position object key value) target text x after

theorem writeMember_of_noContainer {target : Value} (noContainer : target.isContainer = false)
    (key : Run String) (value : Value) (store : Store) :
    writeMember target key value store = .error (.writeTo target.kind) store := by
  cases target with
  | array id => cases noContainer
  | object id => cases noContainer
  | _ => rfl

/-- A key is evaluated first, and then it is as if it had been fixed. -/
theorem writeMember_of_key {target : Value} (container : target.isContainer = true)
    {key : Run String} {text : String} {store after : Store}
    (evaluated : key store = .ok text after) (value : Value) :
    writeMember target key value store = writeMember target (pure text) value after := by
  cases target with
  | array id =>
    show EStateM.bind key _ store = writeElement id text value after
    rw [EStateM.bind, evaluated]
  | object id =>
    show EStateM.bind key _ store = writeProperty id text value after
    rw [EStateM.bind, evaluated]
  | _ => cases container

/-- A write that a value follows. -/
def writeThen (target : Value) (key : Run String) (value : Value) : Run Signal := do
  writeMember target key value
  return .normal value

theorem writeThen_ok_iff {target value : Value} {key : Run String} {store after : Store}
    {signal : Signal} : writeThen target key value store = .ok signal after ↔
      signal = .normal value ∧ writeMember target key value store = .ok () after := by
  show EStateM.bind (writeMember target key value) _ store = _ ↔ _
  unfold EStateM.bind
  cases writeMember target key value store with
  | error fault last => simp
  | ok _ last =>
    constructor
    · intro same
      cases same
      exact ⟨rfl, rfl⟩
    · rintro ⟨rfl, same⟩
      cases same
      rfl

theorem writeThen_error_iff {target value : Value} {key : Run String} {store after : Store}
    {fault : Fault} : writeThen target key value store = .error fault after ↔
      writeMember target key value store = .error fault after := by
  show EStateM.bind (writeMember target key value) _ store = _ ↔ _
  unfold EStateM.bind
  cases writeMember target key value store with
  | error refused last =>
    constructor
    · intro same
      cases same
      rfl
    · intro same
      cases same
      rfl
  | ok _ last => exact ⟨fun same => (by cases same), fun same => (by cases same)⟩

/-- Only what the write does counts. -/
theorem writeThen_congr {target value : Value} {key other : Run String} {store after : Store}
    (same : writeMember target key value store = writeMember target other value after) :
    writeThen target key value store = writeThen target other value after := by
  show EStateM.bind (writeMember target key value) _ store =
    EStateM.bind (writeMember target other value) _ after
  rw [EStateM.bind, same]
  rfl

/-- What is evaluated in turn leads from store to store. -/
theorem bind_of_ok {α β : Type} {first : Run α} {next : α → Run β} {x : α} {store middle : Store}
    (done : first store = .ok x middle) : (first >>= next) store = next x middle := by
  show EStateM.bind first next store = _
  rw [EStateM.bind, done]

/-- An assignment to a member is a write in the store that its parts have led to. -/
theorem Stmt.AssignsTo.exec_eq {call : Call} {scope : ScopeId} {store after : Store} {s : Stmt}
    {target value : Value} {text : String}
    (assigns : s.AssignsTo call scope store target text value after) (rounds : Nat) :
    s.exec call rounds scope store = writeThen target (pure text) value after := by
  cases assigns with
  | fixed first second =>
    rw [Stmt.exec, bind_of_ok first, bind_of_ok second]
    rfl
  | computed first second container third =>
    rw [Stmt.exec, bind_of_ok first, bind_of_ok second]
    refine writeThen_congr (writeMember_of_key container ?_ value)
    rw [bind_of_ok third]
    rfl
  | noContainer first second noContainer =>
    rw [Stmt.exec, bind_of_ok first, bind_of_ok second]
    refine writeThen_congr ?_
    rw [writeMember_of_noContainer noContainer, writeMember_of_noContainer noContainer]

/-- A write to a member of a container that succeeds is read back at its key and changes nothing
else; to an array it succeeds exactly with the numeral of an index that is not too far behind the
end, to an object always. An assignment is such a write after its parts are evaluated, and if it is
refused then the store is as these have left it. -/
theorem member_writes_read_back :
    (∀ (store after : Store) (target : Value) (key : String) (value : Value),
      store.HasContainer target →
      writeMember target (pure key) value store = .ok () after →
      Wrote store target key value after) ∧
    (∀ (store : Store) (id : ArrayId) (key : String) (value : Value),
      key.length ≤ Fault.maxKeyDigits →
      ((∃ after, writeMember (.array id) (pure key) value store = .ok () after) ↔
        ∃ index : Nat, key = index.repr ∧
          index + 1 - (store.elements id).size ≤ Key.maxGrowth)) ∧
    (∀ (store : Store) (id : ObjectId) (key : String) (value : Value),
      ∃ after, writeMember (.object id) (pure key) value store = .ok () after) ∧
    (∀ (call : Call) (rounds : Nat) (scope : ScopeId) (store evaluated : Store) (s : Stmt)
      (target value : Value) (key : String),
      s.AssignsTo call scope store target key value evaluated →
      (∀ signal after, s.exec call rounds scope store = .ok signal after ↔
        signal = .normal value ∧ writeMember target (pure key) value evaluated = .ok () after) ∧
      (∀ fault after, s.exec call rounds scope store = .error fault after →
        after = evaluated)) := by
  refine ⟨?_, ?_, ?_, ?_⟩
  · intro store after target key value has wrote
    exact .of_ok has wrote
  · intro store id key value short
    exact writeMember_array_iff short
  · intro store id key value
    exact ⟨_, writeProperty_eq⟩
  · intro call rounds scope store evaluated s target value key assigns
    rw [assigns.exec_eq rounds]
    refine ⟨fun signal after => writeThen_ok_iff, ?_⟩
    intro fault after refused
    exact writeMember_refused (writeThen_error_iff.mp refused)

/-- One array with an element and one with none. -/
def twoArrays : Store := { arrays := #[#[.boolean true], #[]] }

/-- Writes the member `x` of a new array. -/
def namedWrite : Stmt := .assignMember default (.array default []) "x" (.null default)

/-- A write behind the end is read back, and in between nothing is read, as before. A name is no
index of a new array, which stays. -/
theorem twoArrays_written : twoArrays.HasContainer (.array 0) ∧
    (∃ after, writeMember (.array 0) (pure "3") (.boolean false) twoArrays = .ok () after ∧
      readComputed (.array 0) "3" after = .ok (.boolean false) after ∧
      readComputed (.array 0) "2" after = .ok .null after ∧ after.arrays[1]? = some #[]) ∧
    namedWrite.AssignsTo (invoke 0 0) 0 twoArrays (.array 2) "x" .null
      { twoArrays with arrays := twoArrays.arrays.push #[] } ∧
    ∀ fault after, namedWrite.exec (invoke 0 0) 0 0 twoArrays = .error fault after →
      after.arrays.size = 3 := by
  obtain ⟨laws, accepts, _, assigns⟩ := member_writes_read_back
  have has : twoArrays.HasContainer (.array 0) := Nat.zero_lt_two
  obtain ⟨after, wrote⟩ := (accepts twoArrays 0 "3" (.boolean false) (by decide)).mpr
    ⟨3, rfl, by decide⟩
  have done := laws twoArrays after (.array 0) "3" (.boolean false) has wrote
  have parts : namedWrite.AssignsTo (invoke 0 0) 0 twoArrays (.array 2) "x" .null
      { twoArrays with arrays := twoArrays.arrays.push #[] } := .fixed rfl rfl
  refine ⟨has, ⟨after, wrote, done.written, ?_, done.arrays 1 (by decide)⟩, parts, ?_⟩
  · obtain ⟨old, before, same⟩ := done.others "2" (by decide) (by decide)
    cases before
    exact same
  · intro fault last refused
    rw [(assigns _ 0 0 twoArrays _ namedWrite _ _ _ parts).2 fault last refused]
    rfl

end Script
