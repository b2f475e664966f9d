import Mathlib.Data.List.Induction
import Mathlib.Data.List.Infix
import Mathlib.Data.List.TakeWhile
import Script.Proofs.Dialogue

/-!
# When lines make up a chunk

Lines are a chunk (`Complete`) if they open no more braces than they close (`Balanced`) and, in
case they open any, a closing brace ends the last line (`Closed`). So balanced lines are not always
a chunk: behind `{};` the dialogue waits. A comment is no exception, since its braces count like
those of any line.

* `chunk_is_shortest_complete`: a dialogue answers the shortest complete lines, and these are the
  shortest balanced ones exactly if they are closed.
* `comment_unnoticed_iff`: a comment between two chunks changes nothing else exactly if it is
  complete by itself, or if nothing stands behind it.
-/

namespace Script.Dialogue

/-! ## Braces -/

/-- How often a character occurs in some lines. -/
def occurrences (c : Char) (lines : List String) : Nat :=
  (lines.flatMap String.toList).count c

/-- Lines open no more braces than they close. -/
def Balanced (lines : List String) : Prop := occurrences '\x7b' lines ≤ occurrences '\x7d' lines

/-- The last line ends with a closing brace, blanks aside, or no line opens a brace. -/
def Closed (lines : List String) : Prop :=
  (lines.getLast?.bind fun last => (Text.trim last.toList).getLast?) = some '\x7d' ∨
    ∀ line ∈ lines, '\x7b' ∉ line.toList

/-- Lines that make up a chunk. -/
def Complete (lines : List String) : Prop := Balanced lines ∧ Closed lines

instance (lines : List String) : Decidable (Balanced lines) := inferInstanceAs (Decidable (_ ≤ _))

instance (lines : List String) : Decidable (Closed lines) := inferInstanceAs (Decidable (_ ∨ _))

instance (lines : List String) : Decidable (Complete lines) := inferInstanceAs (Decidable (_ ∧ _))

theorem braceBalance_eq (lines : List String) :
    braceBalance lines = occurrences '\x7b' lines - occurrences '\x7d' lines := by
  have counted : ∀ balance : Int, lines.foldl (fun (balance : Int) line =>
      balance + line.toList.count '\x7b' - line.toList.count '\x7d') balance =
        balance + occurrences '\x7b' lines - occurrences '\x7d' lines := by
    induction lines with
    | nil => simp [occurrences]
    | cons line rest ih =>
      intro balance
      rw [List.foldl_cons, ih]
      simp only [occurrences, List.flatMap_cons, List.count_append]
      omega
  rw [braceBalance, counted]
  omega

theorem isComplete_iff (earlier : List String) (last : String) :
    isComplete (earlier ++ [last]) last = true ↔ Complete (earlier ++ [last]) := by
  have balanced : braceBalance (earlier ++ [last]) ≤ 0 ↔ Balanced (earlier ++ [last]) := by
    rw [braceBalance_eq, Balanced]
    omega
  have opens : (!(earlier ++ [last]).any fun line => line.toList.contains '\x7b') = true ↔
      ∀ line ∈ earlier ++ [last], '\x7b' ∉ line.toList := by
    rw [Bool.not_eq_true', List.any_eq_false]
    simp only [List.contains_iff_mem]
  unfold isComplete Complete Closed
  rw [Bool.and_eq_true, decide_eq_true_iff, balanced, Bool.or_eq_true, opens, beq_iff_eq,
    List.getLast?_concat, Option.bind_some]

/-- What a line does if it does not ask to leave: only completeness counts. -/
theorem turn_eq {earlier : List String} {last : String}
    (stays : earlier = [] → isFarewell last = false) :
    turn earlier last =
      if Complete (earlier ++ [last]) then .submit (earlier ++ [last])
      else .wait (earlier ++ [last]) := by
  have remains : ¬ (earlier.isEmpty && isFarewell last) = true := by
    rw [Bool.and_eq_true, List.isEmpty_iff]
    rintro ⟨first, leaves⟩
    rw [stays first] at leaves
    cases leaves
  unfold turn
  rw [if_neg remains]
  by_cases complete : Complete (earlier ++ [last])
  · rw [if_pos complete, if_pos ((isComplete_iff _ _).mpr complete)]
  · rw [if_neg complete, if_neg fun found => complete ((isComplete_iff _ _).mp found)]

/-! ## The text of a chunk -/

/-- What is left of a text without the blanks around it: only blanks are cut off, and at neither end
of it is one left. -/
structure Stripped (text kept : List Char) : Prop where
  around : ∃ before after, text = before ++ kept ++ after ∧
    (∀ c ∈ before, Text.isBlank c = true) ∧ ∀ c ∈ after, Text.isBlank c = true
  first : ∀ c, kept.head? = some c → Text.isBlank c = false
  last : ∀ c, kept.getLast? = some c → Text.isBlank c = false

/-- What remains behind the blanks that a text starts with does not start with one. -/
theorem head?_dropWhile_blank (text : List Char) :
    ∀ c, (text.dropWhile Text.isBlank).head? = some c → Text.isBlank c = false := by
  intro c first
  have visible := List.head?_dropWhile_not Text.isBlank text
  rw [first] at visible
  simpa using visible

/-- Behind what is kept of a text there are the blanks that are found from behind. -/
theorem trimLeft_eq (text : List Char) :
    Text.trimLeft text =
      Text.trim text ++ ((Text.trimLeft text).reverse.takeWhile Text.isBlank).reverse := by
  unfold Text.trim Text.trimRight
  rw [← List.reverse_append, List.takeWhile_append_dropWhile, List.reverse_reverse]

theorem stripped_trim (text : List Char) : Stripped text (Text.trim text) where
  around := by
    refine ⟨text.takeWhile Text.isBlank,
      ((Text.trimLeft text).reverse.takeWhile Text.isBlank).reverse, ?_,
      fun _ => List.mem_takeWhile_imp, fun c member => ?_⟩
    · rw [List.append_assoc, ← trimLeft_eq]
      exact List.takeWhile_append_dropWhile.symm
    · exact List.mem_takeWhile_imp (List.mem_reverse.mp member)
  first := by
    intro c first
    refine head?_dropWhile_blank text c ?_
    show (Text.trimLeft text).head? = some c
    rw [trimLeft_eq, List.head?_append, first, Option.some_or]
  last := by
    intro c last
    unfold Text.trim Text.trimRight at last
    rw [List.getLast?_reverse] at last
    exact head?_dropWhile_blank _ c last

theorem toList_chunkText (lines : List String) :
    (chunkText lines).toList = Text.trim (String.intercalate "\n" lines).toList :=
  String.toList_ofList

/-! ## Reading a chunk -/

/-- Some lines are kept, one after the other, and nothing is printed. -/
structure Waits (limits : Limits) (dialogue : Dialogue) (lines : List String) : Prop where
  kept : ∀ part, part <+: lines →
    dialogue.proceed limits (part.map .line) = { dialogue with pending := part }
  silent : ∀ exchange ∈ dialogue.exchanges limits (lines.map .line), exchange.text = ""

/-- Some lines are read as one chunk: all but the last one are kept, and the answer to that one is
the answer to their text, which is the lines with newlines between them and without the blanks
around them. -/
def ReadsChunk (limits : Limits) (dialogue : Dialogue) (lines : List String) : Prop :=
  ∃ earlier last chunk, lines = earlier ++ [last] ∧ Waits limits dialogue earlier ∧
    Stripped ("\n".intercalate lines).toList chunk.toList ∧
    ({ dialogue with pending := earlier } : Dialogue).answer limits (.line last) =
      answerChunk limits dialogue chunk

/-- Lines have a property, and fewer of them, from the first one on, do not. -/
structure Shortest (p : List String → Prop) (lines : List String) : Prop where
  nonempty : lines ≠ []
  holds : p lines
  first : ∀ part, part <+: lines → part ≠ [] → p part → part = lines

instance (p : List String → Prop) [DecidablePred p] (lines : List String) :
    Decidable (Shortest p lines) :=
  decidable_of_iff (lines ≠ [] ∧ p lines ∧ ∀ part ∈ lines.inits, part ≠ [] → p part → part = lines)
    ⟨fun ⟨nonempty, holds, first⟩ =>
      ⟨nonempty, holds, fun part begins => first part ((List.mem_inits _ _).mpr begins)⟩,
    fun shortest => ⟨shortest.nonempty, shortest.holds,
      fun part member => shortest.first part ((List.mem_inits _ _).mp member)⟩⟩

/-- Lines that start with some that have a property start with the shortest of these. -/
theorem exists_shortest {p : List String → Prop} {lines : List String}
    (found : ∃ part, part <+: lines ∧ part ≠ [] ∧ p part) :
    ∃ read, read <+: lines ∧ Shortest p read := by
  induction lines using List.reverseRecOn with
  | nil =>
    obtain ⟨part, begins, nonempty, -⟩ := found
    exact absurd (List.prefix_nil.mp begins) nonempty
  | append_singleton earlier last ih =>
    by_cases before : ∃ part, part <+: earlier ∧ part ≠ [] ∧ p part
    · obtain ⟨read, begins, shortest⟩ := ih before
      exact ⟨read, begins.trans (List.prefix_append _ _), shortest⟩
    · obtain ⟨part, begins, nonempty, holds⟩ := found
      rcases List.prefix_concat_iff.mp begins with rfl | shorter
      · refine ⟨_, List.prefix_rfl, nonempty, holds, fun part begins some holds => ?_⟩
        rcases List.prefix_concat_iff.mp begins with whole | shorter
        · exact whole
        · exact absurd ⟨part, shorter, some, holds⟩ before
      · exact absurd ⟨part, shorter, nonempty, holds⟩ before

section

variable {limits : Limits} {dialogue : Dialogue}

theorem waits_nil (fresh : dialogue.pending = []) : Waits limits dialogue [] where
  kept := by
    intro part begins
    rw [List.prefix_nil.mp begins, List.map_nil, proceed_nil]
    simp only [← fresh]
  silent := fun _ member => nomatch member

theorem waits_concat (awake : dialogue.ended = false) {earlier : List String} {last : String}
    (waits : Waits limits dialogue earlier)
    (keeps : turn earlier last = .wait (earlier ++ [last])) :
    Waits limits dialogue (earlier ++ [last]) := by
  have before := waits.kept earlier List.prefix_rfl
  have goesOn : (dialogue.proceed limits (earlier.map .line)).ended = false := by
    rw [before]
    exact awake
  have answered : ({ dialogue with pending := earlier } : Dialogue).answer limits (.line last) =
      ("", { dialogue with pending := earlier ++ [last] }) := by
    rw [answer_line]
    simp only [keeps]
  refine ⟨fun part begins => ?_, fun exchange member => ?_⟩
  · rcases List.prefix_concat_iff.mp begins with rfl | shorter
    · rw [List.map_append, List.map_singleton, proceed_append _ goesOn, before, proceed_singleton,
        answered]
    · exact waits.kept part shorter
  · rw [List.map_append, List.map_singleton, exchanges_append _ goesOn, before,
      List.mem_append] at member
    rcases member with old | new
    · exact waits.silent exchange old
    · rw [exchanges_cons, answered, exchanges_nil, ite_self, List.mem_singleton] at new
      rw [new]

variable (fresh : dialogue.pending = []) (awake : dialogue.ended = false)

include fresh awake

/-- As long as the lines are not complete, they are kept. -/
theorem waits_of_incomplete {lines : List String}
    (stays : ∀ line, lines.head? = some line → isFarewell line = false)
    (incomplete : ∀ part, part <+: lines → part ≠ [] → ¬ Complete part) :
    Waits limits dialogue lines := by
  induction lines using List.reverseRecOn with
  | nil => exact waits_nil fresh
  | append_singleton earlier last ih =>
    have before : Waits limits dialogue earlier := by
      refine ih (fun line first => stays line ?_) fun part begins =>
        incomplete part (begins.trans (List.prefix_append _ _))
      rw [List.head?_append, first, Option.some_or]
    refine waits_concat awake before ?_
    rw [turn_eq, if_neg (incomplete _ List.prefix_rfl (by simp))]
    rintro rfl
    exact stays last rfl

theorem readsChunk_of_shortest {lines : List String}
    (stays : ∀ line, lines.head? = some line → isFarewell line = false)
    (shortest : Shortest Complete lines) : ReadsChunk limits dialogue lines := by
  obtain ⟨earlier, last, rfl⟩ : ∃ earlier last, lines = earlier ++ [last] :=
    ⟨_, _, (List.dropLast_concat_getLast shortest.nonempty).symm⟩
  have text := stripped_trim ("\n".intercalate (earlier ++ [last])).toList
  rw [← toList_chunkText] at text
  refine ⟨earlier, last, _, rfl, waits_of_incomplete fresh awake ?_ ?_, text, ?_⟩
  · intro line first
    refine stays line ?_
    rw [List.head?_append, first, Option.some_or]
  · intro part begins nonempty complete
    have whole := shortest.first part (begins.trans (List.prefix_append _ _)) nonempty complete
    have lengths := begins.length_le
    rw [whole, List.length_append, List.length_singleton] at lengths
    omega
  · rw [answer_line, turn_eq, if_pos shortest.holds]
    · simp only [← fresh]
    · rintro rfl
      exact stays last rfl

theorem complete_of_readsChunk {lines : List String} (reads : ReadsChunk limits dialogue lines) :
    Complete lines := by
  obtain ⟨earlier, last, chunk, rfl, -, -, answered⟩ := reads
  obtain ⟨pending, ended, -⟩ := answerChunk_frame limits dialogue chunk
  rw [← answered, answer_line] at pending ended
  -- A line that leaves ends the dialogue, and one that waits is pending; a chunk does neither.
  by_cases stays : earlier = [] → isFarewell last = false
  · rw [turn_eq stays] at pending
    by_contra incomplete
    rw [if_neg incomplete] at pending
    simp only [fresh] at pending
    simp at pending
  · obtain ⟨rfl, leaves⟩ := Classical.not_imp.mp stays
    have leave : turn [] last = .leave := by
      unfold turn
      rw [if_pos (by simpa using leaves)]
    simp only [leave, awake] at ended
    cases ended

/-- A dialogue reads the lines up to the first ones that are complete. -/
theorem readsChunk_iff {lines : List String}
    (stays : ∀ line, lines.head? = some line → isFarewell line = false) :
    ReadsChunk limits dialogue lines ↔ Shortest Complete lines := by
  refine ⟨fun reads => ?_, readsChunk_of_shortest fresh awake stays⟩
  refine ⟨?_, complete_of_readsChunk fresh awake reads, ?_⟩
  · obtain ⟨earlier, last, chunk, rfl, -⟩ := reads
    simp
  · intro part begins nonempty complete
    obtain ⟨earlier, last, chunk, rfl, waits, -⟩ := reads
    rcases List.prefix_concat_iff.mp begins with whole | shorter
    · exact whole
    -- The part was kept although it is complete.
    · obtain ⟨front, line, rfl⟩ : ∃ front line, part = front ++ [line] :=
        ⟨_, _, (List.dropLast_concat_getLast nonempty).symm⟩
      have before := waits.kept front ((List.prefix_append _ _).trans shorter)
      have after := waits.kept _ shorter
      have remains : front = [] → isFarewell line = false := by
        rintro rfl
        obtain ⟨rest, whole⟩ := begins
        rw [← whole] at stays
        exact stays line rfl
      have goesOn : (dialogue.proceed limits (front.map .line)).ended = false := by
        rw [before]
        exact awake
      rw [List.map_append, List.map_singleton, proceed_append _ goesOn, before, proceed_singleton,
        answer_line, turn_eq remains, if_pos complete] at after
      have frame := answerChunk_frame limits { dialogue with pending := [] }
        (chunkText (front ++ [line]))
      simp only at after
      rw [after] at frame
      exact absurd frame.1 (by simp)

end

/-- A dialogue that starts on some lines, the first of which does not ask to leave, answers the
shortest of them that are complete, and keeps them all if there are none. These are balanced, but
the shortest balanced lines are answered only if they are closed too; otherwise the dialogue waits
for more. -/
theorem chunk_is_shortest_complete (limits : Limits) (dialogue : Dialogue)
    (fresh : dialogue.pending = []) (awake : dialogue.ended = false) (lines : List String)
    (stays : ∀ line, lines.head? = some line → isFarewell line = false) :
    (∀ read, read <+: lines → (ReadsChunk limits dialogue read ↔ Shortest Complete read)) ∧
    ((∃ read, read <+: lines ∧ ReadsChunk limits dialogue read) ∨ Waits limits dialogue lines) ∧
    (∀ read, read <+: lines → Shortest Balanced read →
      (ReadsChunk limits dialogue read ↔ Closed read) ∧
      (¬ Closed read → Waits limits dialogue read)) := by
  have staysFor : ∀ {read}, read <+: lines →
      ∀ line, read.head? = some line → isFarewell line = false := by
    rintro read ⟨rest, rfl⟩ line first
    refine stays line ?_
    rw [List.head?_append, first, Option.some_or]
  refine ⟨fun read begins => readsChunk_iff fresh awake (staysFor begins), ?_, ?_⟩
  · by_cases found : ∃ part, part <+: lines ∧ part ≠ [] ∧ Complete part
    · obtain ⟨read, begins, shortest⟩ := exists_shortest found
      exact .inl ⟨read, begins, readsChunk_of_shortest fresh awake (staysFor begins) shortest⟩
    · refine .inr (waits_of_incomplete fresh awake stays ?_)
      intro part begins nonempty complete
      exact found ⟨part, begins, nonempty, complete⟩
  · intro read begins balanced
    -- Fewer lines are not balanced, so completeness of all of them is closedness.
    have onlyWhole : ∀ part, part <+: read → part ≠ [] → Complete part → part = read :=
      fun part begins nonempty complete => balanced.first part begins nonempty complete.1
    refine ⟨?_, fun unclosed => ?_⟩
    · rw [readsChunk_iff fresh awake (staysFor begins)]
      exact ⟨fun shortest => shortest.holds.2,
        fun closed => ⟨balanced.nonempty, ⟨balanced.holds, closed⟩, onlyWhole⟩⟩
    · refine waits_of_incomplete fresh awake (staysFor begins) ?_
      intro part begins nonempty complete
      rw [onlyWhole part begins nonempty complete] at complete
      exact unclosed complete.2

/-- The lines of a procedure are read up to its closing brace. -/
theorem procedure_lines_read :
    ({} : Dialogue).pending = [] ∧
      (∀ line, ["procedure f() \x7b", "\x7d", "f();"].head? = some line → isFarewell line = false) ∧
      ReadsChunk .standard {} ["procedure f() \x7b", "\x7d"] := by
  have stays : ∀ line, ["procedure f() \x7b", "\x7d", "f();"].head? = some line →
      isFarewell line = false := by
    rintro line ⟨⟩
    decide +kernel
  have shortest : Shortest Complete ["procedure f() \x7b", "\x7d"] := by decide +kernel
  exact ⟨rfl, stays, ((chunk_is_shortest_complete .standard {} rfl rfl _ stays).1 _
    (List.prefix_append _ ["f();"])).mpr shortest⟩

/-- A declaration with balanced braces is not answered: no closing brace ends it. -/
theorem balanced_declaration_waits :
    isFarewell "mut o = \x7b\x7d;" = false ∧ Shortest Balanced ["mut o = \x7b\x7d;"] ∧
      Waits .standard {} ["mut o = \x7b\x7d;"] ∧
      ¬ ReadsChunk .standard {} ["mut o = \x7b\x7d;"] := by
  have stays : ∀ line, ["mut o = \x7b\x7d;"].head? = some line → isFarewell line = false := by
    rintro line ⟨⟩
    decide +kernel
  have incomplete : ¬ Complete ["mut o = \x7b\x7d;"] := by decide +kernel
  refine ⟨stays _ rfl, by decide +kernel, waits_of_incomplete rfl rfl stays ?_, ?_⟩
  · intro part begins nonempty complete
    rcases List.prefix_concat_iff.mp (show part <+: [] ++ _ from begins) with rfl | shorter
    · exact incomplete complete
    · exact nonempty (List.prefix_nil.mp shorter)
  · rw [readsChunk_iff rfl rfl stays]
    exact fun shortest => incomplete shortest.holds

/-! ## Comments -/

theorem toList_chunkText_singleton (line : String) :
    (chunkText [line]).toList = Text.trim line.toList := toList_chunkText [line]

/-- Blanks at the end leave the first character of a text that starts with no blank. -/
theorem head?_trim {text : List Char} {c : Char} (first : (Text.trimLeft text).head? = some c) :
    (Text.trim text).head? = some c := by
  have visible : Text.isBlank c = false := head?_dropWhile_blank text c first
  obtain ⟨rest, started⟩ := List.head?_eq_some_iff.mp first
  unfold Text.trim Text.trimRight
  rw [started, List.reverse_cons, List.dropWhile_append]
  split
  · simp [visible]
  · simp

section

variable {line : String} (comment : (Text.trimLeft line.toList).head? = some '#')

include comment

theorem isFarewell_comment : isFarewell line = false := by
  have first := head?_trim comment
  unfold isFarewell
  rw [Bool.or_eq_false_iff, beq_eq_false_iff_ne, beq_eq_false_iff_ne]
  refine ⟨fun same => ?_, fun same => ?_⟩
  · rw [same] at first
    cases first
  · rw [same] at first
    cases first

theorem isRemark_comment : isRemark (chunkText [line]) = true := by
  unfold isRemark
  rw [toList_chunkText_singleton, head?_trim comment]
  simp

/-- A comment at the start of a chunk is forgotten if it is complete, and kept if not. -/
theorem answer_comment (limits : Limits) {dialogue : Dialogue} (fresh : dialogue.pending = []) :
    dialogue.answer limits (.line line) =
      if Complete [line] then ("", dialogue) else ("", { dialogue with pending := [line] }) := by
  rw [answer_line, fresh, turn_eq fun _ => isFarewell_comment comment, List.nil_append]
  by_cases complete : Complete [line]
  · simp only [if_pos complete]
    rw [answerChunk_of_isRemark limits _ (isRemark_comment comment)]
    simp only [← fresh]
  · simp only [if_neg complete]

end

/-- A comment between two chunks changes nothing at the other inputs exactly if it is complete by
itself or the last input, and nothing else in what is printed, the end of the input included,
exactly if it is complete by itself. -/
theorem comment_unnoticed_iff (limits : Limits) (start : Dialogue) (earlier rest : List Input)
    (line : String) (goesOn : (start.proceed limits earlier).ended = false)
    (between : (start.proceed limits earlier).prompt = ">>> ")
    (comment : (Text.trimLeft line.toList).head? = some '#') :
    ((start.exchanges limits (earlier ++ .line line :: rest)).eraseIdx earlier.length =
      start.exchanges limits (earlier ++ rest) ↔ rest = [] ∨ Complete [line]) ∧
    ((start.transcript limits (earlier ++ .line line :: rest)).eraseIdx earlier.length =
      start.transcript limits (earlier ++ rest) ↔ Complete [line]) := by
  have fresh := (prompt_eq_iff _).mp between
  have answered := answer_comment comment limits fresh
  have stays : ((start.proceed limits earlier).answer limits (.line line)).2.ended = false := by
    rw [answered]
    split
    · exact goesOn
    · exact goesOn
  rw [eraseIdx_exchanges _ _ goesOn stays, exchanges_append _ goesOn, List.append_cancel_left_eq,
    eraseIdx_transcript _ _ goesOn stays, transcript_append _ goesOn, List.append_cancel_left_eq,
    answered]
  by_cases complete : Complete [line]
  · rw [if_pos complete]
    exact ⟨iff_of_true rfl (.inr complete), iff_of_true rfl complete⟩
  -- The next prompt tells that the comment is still being read.
  · rw [if_neg complete]
    refine ⟨⟨fun same => ?_, ?_⟩, iff_of_false (fun same => ?_) complete⟩
    · cases rest with
      | nil => exact .inl rfl
      | cons input rest =>
        rw [exchanges_cons, exchanges_cons] at same
        have prompts := congrArg Exchange.prompt (List.cons.inj same).1
        rw [between, prompt_eq_iff] at prompts
        cases prompts
    · rintro (rfl | found)
      · rfl
      · exact absurd found complete
    · have prompts := congrArg (fun printed => printed.head?.map Prod.fst) same
      simp only [head?_transcript, Option.some.injEq] at prompts
      rw [between, prompt_eq_iff] at prompts
      cases prompts

/-- A comment with braces that balance, between two lines. -/
theorem closed_comment_unnoticed :
    (({} : Dialogue).proceed .standard [.line "true;"]).prompt = ">>> " ∧
      (Text.trimLeft " # \x7b \x7d".toList).head? = some '#' ∧
      (({} : Dialogue).transcript .standard
        [.line "true;", .line " # \x7b \x7d", .line "false;"]).eraseIdx 1 =
          ({} : Dialogue).transcript .standard [.line "true;", .line "false;"] := by
  have goesOn : (({} : Dialogue).proceed .standard [.line "true;"]).ended = false := by
    decide +kernel
  have between : (({} : Dialogue).proceed .standard [.line "true;"]).prompt = ">>> " := by
    decide +kernel
  have comment : (Text.trimLeft " # \x7b \x7d".toList).head? = some '#' := by decide +kernel
  have complete : Complete [" # \x7b \x7d"] := by decide +kernel
  exact ⟨between, comment, (comment_unnoticed_iff .standard {} [.line "true;"] [.line "false;"] _
    goesOn between comment).2.mpr complete⟩

/-- Behind a comment that opens a brace, a line is not answered. -/
theorem open_comment_swallows_line :
    (Text.trimLeft "# \x7b".toList).head? = some '#' ∧
      ({} : Dialogue).transcript .standard [.line "true;"] =
        [(">>> ", "true\n"), (">>> ", "\n" ++ farewell)] ∧
      ({} : Dialogue).transcript .standard [.line "# \x7b", .line "true;"] =
        [(">>> ", ""), ("... ", ""), ("... ", "\n" ++ farewell)] := by
  refine ⟨?_, ?_, ?_⟩
  · decide +kernel
  · decide +kernel
  · decide +kernel

end Script.Dialogue
