import Script.Dialogue

/-!
# A dialogue line by line

What a line does is decided by the lines before it that make up no chunk yet (`turn`): it asks to
leave, it is kept, or it completes a chunk. A chunk in turn is a remark, a change of mode or a
program, and none of them ends the dialogue (`answerChunk_frame`).

`exchanges` has what happens at each input and `proceed` the dialogue after all of them. Inputs
behind the end are not read. `transcript_append` says that this is what a dialogue prints.
-/

namespace Script.Dialogue

/-! ## Lines -/

/-- What a line does. -/
inductive Turn where
  /-- It ends the dialogue. -/
  | leave
  /-- It is kept with the lines before it. -/
  | wait (lines : List String)
  /-- It completes a chunk of these lines. -/
  | submit (lines : List String)
deriving DecidableEq, Repr

/-- What a line does behind lines that make up no chunk yet. -/
def turn (pending : List String) (text : String) : Turn :=
  if pending.isEmpty && isFarewell text then .leave
  else if isComplete (pending ++ [text]) text then .submit (pending ++ [text])
  else .wait (pending ++ [text])

section

variable (limits : Limits) (dialogue : Dialogue)

/-- The first prompt asks for the first line of a chunk. -/
theorem prompt_eq_iff : dialogue.prompt = ">>> " ↔ dialogue.pending = [] := by
  unfold prompt
  cases dialogue.pending with
  | nil => simp
  | cons line rest => simp

theorem answer_line (text : String) :
    dialogue.answer limits (.line text) =
      match turn dialogue.pending text with
      | .leave => (farewell, { dialogue with ended := true })
      | .wait lines => ("", { dialogue with pending := lines })
      | .submit lines => answerChunk limits { dialogue with pending := [] } (chunkText lines) := by
  by_cases leaves : (dialogue.pending.isEmpty && isFarewell text) = true
  · simp only [answer, turn, if_pos leaves]
  · by_cases complete : isComplete (dialogue.pending ++ [text]) text = true
    · simp only [answer, turn, if_neg leaves, if_pos complete]
    · simp only [answer, turn, if_neg leaves, if_neg complete]

/-! ## Chunks -/

/-- Whether a chunk is empty or starts with a comment. -/
def isRemark (source : String) : Bool := source.isEmpty || source.toList.head? == some '#'

/-- Whether a chunk asks for the other mode, in capitals or not. -/
def isToggle (source : String) : Bool :=
  decide (source.toList.map Char.toLower = "verbose-mode".toList)

/-- Whether a chunk is run. -/
def isProgram (source : String) : Bool := !isRemark source && !isToggle source

theorem answerChunk_of_isRemark {source : String} (remark : isRemark source = true) :
    answerChunk limits dialogue source = ("", dialogue) := by
  unfold answerChunk
  exact if_pos remark

theorem answerChunk_of_isToggle {source : String} (code : isRemark source = false)
    (toggle : isToggle source = true) :
    (answerChunk limits dialogue source).2 = { dialogue with verbose := !dialogue.verbose } := by
  unfold answerChunk
  rw [if_neg (by rw [isRemark] at code; simp [code]), if_pos (of_decide_eq_true toggle)]

theorem answerChunk_of_isProgram {source : String} (program : isProgram source = true) :
    answerChunk limits dialogue source =
      let evaluated := evaluate limits dialogue.frames dialogue.verbose dialogue.session source
      (evaluated.1, { dialogue with session := evaluated.2 }) := by
  unfold isProgram at program
  obtain ⟨code, mode⟩ := Bool.and_eq_true_iff.mp program
  rw [Bool.not_eq_true'] at code mode
  unfold answerChunk
  rw [if_neg (by rw [isRemark] at code; simp [code]), if_neg (of_decide_eq_false mode)]

/-- A chunk neither ends the dialogue nor counts as the start of the next one, and the machine stays
the same. -/
theorem answerChunk_frame (source : String) :
    let after := (answerChunk limits dialogue source).2
    after.pending = dialogue.pending ∧ after.ended = dialogue.ended ∧
      after.frames = dialogue.frames := by
  unfold answerChunk
  split
  · exact ⟨rfl, rfl, rfl⟩
  · split
    · exact ⟨rfl, rfl, rfl⟩
    · exact ⟨rfl, rfl, rfl⟩

end

/-! ## Runs -/

/-- One input of a dialogue: the prompt before it, the text printed for it, and the dialogue after
it. -/
structure Exchange where
  prompt : String
  text : String
  after : Dialogue

section

variable (limits : Limits)

/-- What happens at each input, up to the one that ends the dialogue. -/
def exchanges (dialogue : Dialogue) : List Input → List Exchange
  | [] => []
  | input :: rest =>
    let (text, after) := dialogue.answer limits input
    ⟨dialogue.prompt, text, after⟩ :: if after.ended then [] else after.exchanges rest

/-- The dialogue after some inputs, or after the one that ends it. -/
def proceed (dialogue : Dialogue) : List Input → Dialogue
  | [] => dialogue
  | input :: rest =>
    let after := (dialogue.answer limits input).2
    if after.ended then after else after.proceed rest

@[simp]
theorem exchanges_nil (dialogue : Dialogue) : dialogue.exchanges limits [] = [] := rfl

@[simp]
theorem proceed_nil (dialogue : Dialogue) : dialogue.proceed limits [] = dialogue := rfl

theorem exchanges_cons (dialogue : Dialogue) (input : Input) (rest : List Input) :
    dialogue.exchanges limits (input :: rest) =
      ⟨dialogue.prompt, (dialogue.answer limits input).1, (dialogue.answer limits input).2⟩ ::
        if (dialogue.answer limits input).2.ended then []
        else (dialogue.answer limits input).2.exchanges limits rest := rfl

theorem proceed_cons (dialogue : Dialogue) (input : Input) (rest : List Input) :
    dialogue.proceed limits (input :: rest) =
      if (dialogue.answer limits input).2.ended then (dialogue.answer limits input).2
      else (dialogue.answer limits input).2.proceed limits rest := rfl

theorem proceed_singleton (dialogue : Dialogue) (input : Input) :
    dialogue.proceed limits [input] = (dialogue.answer limits input).2 := by
  rw [proceed_cons, proceed_nil, ite_self]

variable {limits}

/-- Inputs that do not end a dialogue do not end it one by one. -/
theorem goesOn_of_cons {dialogue : Dialogue} {input : Input} {rest : List Input}
    (goesOn : (dialogue.proceed limits (input :: rest)).ended = false) :
    ¬ (dialogue.answer limits input).2.ended = true ∧
      ((dialogue.answer limits input).2.proceed limits rest).ended = false := by
  rw [proceed_cons] at goesOn
  by_cases ended : (dialogue.answer limits input).2.ended = true
  · rw [if_pos ended, ended] at goesOn
    cases goesOn
  · rw [if_neg ended] at goesOn
    exact ⟨ended, goesOn⟩

/-- The inputs behind some that do not end the dialogue reach the dialogue after these. -/
theorem proceed_append {dialogue : Dialogue} {earlier : List Input} (rest : List Input)
    (goesOn : (dialogue.proceed limits earlier).ended = false) :
    dialogue.proceed limits (earlier ++ rest) =
      (dialogue.proceed limits earlier).proceed limits rest := by
  induction earlier generalizing dialogue with
  | nil => rfl
  | cons input earlier ih =>
    obtain ⟨stays, goesOn⟩ := goesOn_of_cons goesOn
    rw [List.cons_append, proceed_cons, proceed_cons, if_neg stays, if_neg stays]
    exact ih goesOn

theorem exchanges_append {dialogue : Dialogue} {earlier : List Input} (rest : List Input)
    (goesOn : (dialogue.proceed limits earlier).ended = false) :
    dialogue.exchanges limits (earlier ++ rest) =
      dialogue.exchanges limits earlier ++
        (dialogue.proceed limits earlier).exchanges limits rest := by
  induction earlier generalizing dialogue with
  | nil => rfl
  | cons input earlier ih =>
    obtain ⟨stays, goesOn⟩ := goesOn_of_cons goesOn
    rw [List.cons_append, exchanges_cons, exchanges_cons, proceed_cons, if_neg stays,
      if_neg stays, if_neg stays, ih goesOn, List.cons_append]

/-- Nothing behind the input that ends a dialogue is read. -/
theorem proceed_append_of_ended {dialogue : Dialogue} {earlier : List Input} (rest : List Input)
    (awake : dialogue.ended = false) (ended : (dialogue.proceed limits earlier).ended = true) :
    dialogue.proceed limits (earlier ++ rest) = dialogue.proceed limits earlier := by
  induction earlier generalizing dialogue with
  | nil =>
    rw [proceed_nil, awake] at ended
    cases ended
  | cons input earlier ih =>
    rw [List.cons_append, proceed_cons, proceed_cons]
    rw [proceed_cons] at ended
    by_cases now : (dialogue.answer limits input).2.ended = true
    · rw [if_pos now, if_pos now]
    · rw [if_neg now] at ended
      rw [if_neg now, if_neg now]
      exact ih (Bool.eq_false_iff.mpr now) ended

theorem length_exchanges {dialogue : Dialogue} {inputs : List Input}
    (goesOn : (dialogue.proceed limits inputs).ended = false) :
    (dialogue.exchanges limits inputs).length = inputs.length := by
  induction inputs generalizing dialogue with
  | nil => rfl
  | cons input rest ih =>
    obtain ⟨stays, goesOn⟩ := goesOn_of_cons goesOn
    rw [exchanges_cons, if_neg stays, List.length_cons, List.length_cons, ih goesOn]

/-- What happens at the other inputs if one of them is left out of the record. -/
theorem eraseIdx_exchanges {dialogue : Dialogue} {earlier : List Input} (input : Input)
    (rest : List Input) (goesOn : (dialogue.proceed limits earlier).ended = false)
    (stays : ((dialogue.proceed limits earlier).answer limits input).2.ended = false) :
    (dialogue.exchanges limits (earlier ++ input :: rest)).eraseIdx earlier.length =
      dialogue.exchanges limits earlier ++
        ((dialogue.proceed limits earlier).answer limits input).2.exchanges limits rest := by
  rw [exchanges_append _ goesOn, exchanges_cons, if_neg (by simp [stays]),
    ← length_exchanges goesOn, List.eraseIdx_append_of_length_le (Nat.le_refl _), Nat.sub_self,
    List.eraseIdx_cons_zero]

theorem transcript_cons (dialogue : Dialogue) (input : Input) (rest : List Input) :
    dialogue.transcript limits (input :: rest) =
      (dialogue.prompt, (dialogue.answer limits input).1) ::
        if (dialogue.answer limits input).2.ended then []
        else (dialogue.answer limits input).2.transcript limits rest := rfl

/-- Whatever is read, the prompt comes first. -/
theorem head?_transcript (dialogue : Dialogue) (inputs : List Input) :
    (dialogue.transcript limits inputs).head?.map Prod.fst = some dialogue.prompt := by
  cases inputs with
  | nil => rfl
  | cons input rest => rfl

/-- What is printed are the prompts and texts of the exchanges, one after the other. -/
theorem transcript_append {dialogue : Dialogue} {earlier : List Input} (rest : List Input)
    (goesOn : (dialogue.proceed limits earlier).ended = false) :
    dialogue.transcript limits (earlier ++ rest) =
      (dialogue.exchanges limits earlier).map (fun exchange => (exchange.prompt, exchange.text)) ++
        (dialogue.proceed limits earlier).transcript limits rest := by
  induction earlier generalizing dialogue with
  | nil => rfl
  | cons input earlier ih =>
    obtain ⟨stays, goesOn⟩ := goesOn_of_cons goesOn
    rw [List.cons_append, transcript_cons, exchanges_cons, proceed_cons, if_neg stays,
      if_neg stays, if_neg stays, ih goesOn, List.map_cons, List.cons_append]

theorem eraseIdx_transcript {dialogue : Dialogue} {earlier : List Input} (input : Input)
    (rest : List Input) (goesOn : (dialogue.proceed limits earlier).ended = false)
    (stays : ((dialogue.proceed limits earlier).answer limits input).2.ended = false) :
    (dialogue.transcript limits (earlier ++ input :: rest)).eraseIdx earlier.length =
      (dialogue.exchanges limits earlier).map (fun exchange => (exchange.prompt, exchange.text)) ++
        ((dialogue.proceed limits earlier).answer limits input).2.transcript limits rest := by
  have lengths : earlier.length = ((dialogue.exchanges limits earlier).map
      fun exchange => (exchange.prompt, exchange.text)).length := by
    rw [List.length_map, length_exchanges goesOn]
  rw [transcript_append _ goesOn, transcript_cons, if_neg (by simp [stays]), lengths,
    List.eraseIdx_append_of_length_le (Nat.le_refl _), Nat.sub_self, List.eraseIdx_cons_zero]

end

end Script.Dialogue
