import Mathlib
import Script.Proofs.Eval.Accesses
import Script.Proofs.Parse.Program

/-!
# Faults of compiled programs

In a session of compiled programs the store stays sound (`Store.Sound`): every reference leads to
something that exists, and the procedures in it are to blame for stray signals at most. So no run
comes upon a node or an operator without a rule, or upon a function that does not exist.

* `compiled_faults_are_expected`: which faults a compiled program can end with, and exactly which
  accesses to elements make it exceed a limit.
-/

namespace Script

open Run Bounds

/-- Whether a fault can be due to a program that was compiled. -/
def Fault.isExpected : Fault → Bool
  | .unknownBinary _ | .unknownUnary _ | .noRule _ _ | .notCallable .function => false
  | _ => true

theorem Fault.expected_of_ordinary {fault : Fault} (ordinary : fault.isOrdinary = true) :
    fault.isExpected = true := by
  unfold Fault.isExpected
  split
  · cases ordinary
  · cases ordinary
  · cases ordinary
  · cases ordinary
  · rfl

/-- An expected fault is one of the program itself, a limit on keys or indices, or a limit on calls
or rounds. -/
theorem Fault.cases_of_isExpected {fault : Fault} (expected : fault.isExpected = true) :
    (fault.category = .program ∧ fault ≠ .notCallable .function ∧
      ∀ spelling, fault ≠ .unknownBinary spelling ∧ fault ≠ .unknownUnary spelling) ∨
    (∃ digits, fault = .longKey digits) ∨ fault = .hugeIndex ∨ fault = .callDepth ∨
    fault = .loopRounds := by
  cases fault with
  | longKey digits => exact .inr (.inl ⟨digits, rfl⟩)
  | hugeIndex => exact .inr (.inr (.inl rfl))
  | callDepth => exact .inr (.inr (.inr (.inl rfl)))
  | loopRounds => exact .inr (.inr (.inr (.inr rfl)))
  | unknownBinary spelling => cases expected
  | unknownUnary spelling => cases expected
  | noRule kind position => cases expected
  | notCallable kind =>
    refine .inl ⟨rfl, ?_, fun _ => ⟨Fault.noConfusion, Fault.noConfusion⟩⟩
    rintro same
    rw [same] at expected
    cases expected
  | _ => exact .inl ⟨rfl, Fault.noConfusion, fun _ => ⟨Fault.noConfusion, Fault.noConfusion⟩⟩

theorem Fault.expected_of_stray {fault : Fault} (stray : fault.isStray = true) :
    fault.isExpected = true := by
  unfold Fault.isStray at stray
  split at stray
  · rfl
  · rfl
  · rfl
  · cases stray

/-! ## Sound stores -/

/-- Every reference in a store leads to something that exists. -/
def Store.Whole (store : Store) : Prop :=
  ∀ node other, store.Leads node other → store.Has other

/-- A store that compiled programs leave behind. -/
structure Store.Sound (store : Store) : Prop where
  whole : store.Whole
  outermost : store.Has (.scope Store.globalScope)
  expected : ∀ procedure, .procedure procedure ∈ store.functions →
    ∀ fault ∈ procedure.blame, fault.isExpected = true

/-- Use what exists; only faults that compiled programs can have may occur. -/
def Bounds.existing (store : Store) : Bounds where
  origin := store
  base := store.Has
  allowed := fun fault => fault.isExpected = true
  ordinary := fun _ ordinary => Fault.expected_of_ordinary ordinary
  callable := .inr fun _ has => has

/-- A sound store keeps to the bounds of what exists in it. -/
theorem Store.Sound.held {store : Store} (sound : store.Sound) : (existing store).Held store where
  grown := .refl store
  closed := fun _ leads => .inl (sound.whole _ _ leads)
  frame := fun _ has missing => absurd has missing
  blameless := fun _ found => sound.expected _ (Array.mem_of_getElem? found)

/-- A store that was left within these bounds is sound: what is referred to in it existed before or
is new. -/
theorem Store.sound_of_held {store after : Store} (sound : store.Sound)
    (held : (existing store).Held after) : after.Sound := by
  have within : ∀ node, after.Has node → (existing store).Within after node := by
    intro node has
    by_cases old : store.Has node
    · exact .inl old
    · exact .inr ⟨old, has⟩
  refine ⟨?_, held.grown.has sound.outermost, ?_⟩
  · intro node other leads
    rcases held.closed (within node leads.has) leads with old | ⟨_, has⟩
    · exact held.grown.has old
    · exact has
  · intro procedure member
    obtain ⟨id, found⟩ := Array.mem_iff_getElem?.mp member
    exact held.blameless (within (.function id) (Array.getElem?_eq_some_iff.mp found).1) found

/-- Before the first run there are two objects and one function, and they lead to each other. -/
theorem Store.whole_initial : Store.initial.Whole := by
  have console : ∀ {id : FunctionId} {found : Callable}, Store.initial.functions[id]? = some found →
      found = .builtin "console" .console :=
    fun found => Array.mem_singleton.mp (Array.mem_of_getElem? found)
  intro node other leads
  have has := leads.has
  cases leads with
  | parent lies =>
    rw [Nat.lt_one_iff.mp has] at lies
    cases lies
  | @binding scope name binding _ found refers =>
    by_cases system : scope = globalScope ∧ name = "System"
    · obtain ⟨rfl, rfl⟩ := system
      rw [show Store.initial.scopes.local? globalScope "System" = some ⟨.object 1, true⟩ from
        Scopes.local?_define_self (by decide)] at found
      cases found
      cases refers
      exact Nat.lt_succ_self 1
    · rw [show Store.initial.scopes.local? scope name = Scopes.root.local? scope name from
        Scopes.local?_define_of_ne system, Nat.lt_one_iff.mp has] at found
      cases found
  | element _ _ => exact absurd has (Nat.not_lt_zero _)
  | @property object key value _ found refers =>
    have listed := Table.mem_entries_iff.mpr found
    rcases Nat.le_one_iff_eq_zero_or_eq_one.mp (Nat.lt_succ_iff.mp has) with rfl | rfl
    · cases List.mem_singleton.mp listed
      cases refers
      exact Nat.lt_succ_self 0
    · cases List.mem_singleton.mp listed
      cases refers
      exact Nat.zero_lt_two
  | captured found => cases console found
  | receiver found => cases console found

theorem Store.sound_initial : Store.initial.Sound where
  whole := whole_initial
  outermost := Nat.zero_lt_one
  expected := by
    intro procedure member
    cases Array.mem_singleton.mp member

/-! ## Sessions -/

/-- The session after some source texts. -/
def Session.submitAll (limits : Limits) (session : Session) (sources : List String) : Session :=
  sources.foldl (fun session source => (session.submit limits source).2) session

theorem Session.submitAll_concat (limits : Limits) (session : Session) (sources : List String)
    (source : String) :
    session.submitAll limits (sources ++ [source]) =
      ((session.submitAll limits sources).submit limits source).2 := by
  unfold Session.submitAll
  rw [List.foldl_append, List.foldl_cons, List.foldl_nil]

/-- A run of a program with only stray signals to blame for keeps the store sound, also if it fails,
and fails with an expected fault. -/
theorem Session.ends_run {limits : Limits} {session : Session} {program : Program}
    (sound : session.store.Sound) (regular : Regular program.blame) :
    (session.run limits program).2.store.Sound ∧
      ∀ fault, (session.run limits program).1 = .error fault → fault.isExpected = true := by
  have within : (existing session.store).Within session.store (.scope Store.globalScope) :=
    .inl sound.outermost
  have upholds := program.run_upholds limits
    (fun fault member => Fault.expected_of_stray (regular fault member)) within
  have ends := upholds session.store (.refl _) sound.held
  refine ⟨?_, fun fault failed => Session.allowed_of_run upholds sound.held failed⟩
  unfold Session.run
  cases ran : program.run limits session.store with
  | ok value after =>
    rw [ran] at ends
    exact Store.sound_of_held sound ends.1
  | error fault after =>
    rw [ran] at ends
    exact Store.sound_of_held sound ends.1

theorem Session.sound_submit {limits : Limits} {session : Session} (source : String)
    (sound : session.store.Sound) : (session.submit limits source).2.store.Sound := by
  unfold Session.submit
  cases compiled : compile source with
  | error fault => exact sound
  | ok program =>
    have after : (session.run limits program).2.store.Sound :=
      (Session.ends_run sound (Program.regular_of_compile compiled)).1
    simp only
    split
    · rename_i ran
      rw [ran] at after
      exact after
    · rename_i ran
      rw [ran] at after
      exact after

/-- Source texts keep the store sound, whether they compile or not. -/
theorem Session.sound_submitAll {limits : Limits} (sources : List String) {session : Session}
    (sound : session.store.Sound) : (session.submitAll limits sources).store.Sound := by
  induction sources generalizing session with
  | nil => exact sound
  | cons source rest ih => exact ih (Session.sound_submit source sound)

/-- In a session of source texts, a compiled program ends with a fault of the program itself, with
a limit on keys or indices, or when calls nest too deep or a loop goes on too long. No operator or
node is without a rule, and nothing that is referred to is missing. A key is too long exactly if an
element is read or written by more digits than are read as an index, and an index is too large
exactly if an element is written too far behind the end of its array. -/
theorem compiled_faults_are_expected (limits : Limits) (earlier : List String) (source : String)
    (program : Program) (compiled : compile source = .ok program) :
    let session := Session.start.submitAll limits earlier
    let outcome := session.run limits program
    (∀ fault, outcome.1 = .error fault →
      (fault.category = .program ∧ fault ≠ .notCallable .function ∧
        ∀ spelling, fault ≠ .unknownBinary spelling ∧ fault ≠ .unknownUnary spelling) ∨
      (∃ digits, fault = .longKey digits) ∨ fault = .hugeIndex ∨ fault = .callDepth ∨
      fault = .loopRounds) ∧
    (∀ digits, outcome.1 = .error (.longKey digits) ↔
      ∃ access ∈ program.accesses limits session.store,
        access.isLong = true ∧ access.key.toList.length = digits) ∧
    (outcome.1 = .error .hugeIndex ↔
      ∃ access ∈ program.accesses limits session.store, access.isHuge = true) ∧
    session.store.Whole ∧ outcome.2.store.Whole := by
  intro session outcome
  have sound : session.store.Sound := Session.sound_submitAll earlier Store.sound_initial
  obtain ⟨after, expected⟩ : outcome.2.store.Sound ∧ _ :=
    Session.ends_run sound (Program.regular_of_compile compiled)
  refine ⟨?_, ?_, ?_, sound.whole, after.whole⟩
  · intro fault failed
    exact Fault.cases_of_isExpected (expected fault failed)
  · intro digits
    rw [Session.run_refused_iff rfl]
    simp only [Access.fault?_eq_longKey_iff]
  · rw [Session.run_refused_iff rfl]
    simp only [Access.fault?_eq_hugeIndex_iff]

/-- A write at an index that no array can be made long enough for. -/
def farWrite : Program :=
  ⟨⟨1, 1⟩, [.assignComputed ⟨1, 1⟩ (.identifier ⟨1, 1⟩ "a") (.string ⟨1, 3⟩ "9223372036854775808")
    (.identifier ⟨1, 28⟩ "a")]⟩

/-- The write is refused, behind a run that has failed. -/
theorem farWrite_refused :
    compile "a[\"9223372036854775808\"] = a;" = .ok farWrite ∧
      let session := Session.start.submitAll ⟨3, 3⟩ ["mut a = [];", "x;"]
      (session.run ⟨3, 3⟩ farWrite).1 = .error .hugeIndex ∧
        ∃ access ∈ farWrite.accesses ⟨3, 3⟩ session.store, access.isHuge = true := by
  have compiled : compile "a[\"9223372036854775808\"] = a;" = .ok farWrite := by cbv
  have failed : ((Session.start.submitAll ⟨3, 3⟩ ["mut a = [];", "x;"]).run ⟨3, 3⟩ farWrite).1 =
      .error .hugeIndex := by cbv
  obtain ⟨_, _, huge, _⟩ :=
    compiled_faults_are_expected ⟨3, 3⟩ ["mut a = [];", "x;"] _ farWrite compiled
  exact ⟨compiled, failed, huge.mp failed⟩

end Script
