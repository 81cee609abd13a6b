import TelegramMcp.Serde.Json

/-!
# The questions of a hook and their answers

`render` numbers the options with a counter that runs through its loops; `answerFromReply` finds
the option of a number by its place in the flat list of options, and groups what it finds by
question. `numbered` is the numbering both should agree on. They do (`numbers_understood`) while the
counter, an `i32`, does not overflow. Which numbers a reply may hold is not checked
(`legalSelection_iff`).
-/

namespace TelegramMcp.Hook

open Rust

/-- `QOption`: an option of a question, with the label that the answer will have. The description is
for the person who answers and plays no part in it. -/
structure QOption where
  label : String
  description : Option String
  deriving DecidableEq

/-- `Question`: a question, with its options in the order in which they are numbered. The numbers go
on from one question to the next. -/
structure Question where
  /-- Short header tag, if Claude supplied one. -/
  header : Option String
  text : String
  /-- The user may pick more than one option. -/
  multiSelect : Bool
  options : List QOption
  deriving DecidableEq

/-- `QuestionSet`: the questions, in the order in which they are asked. -/
structure QuestionSet where
  questions : List Question
  deriving DecidableEq

/-! ## Parsing -/

/-- An option of the input; only its label has to be there. -/
def parseOption (o : Json) : Except String QOption := do
  let label ← ((o.get "label").bind Json.asStr).elim (.error "option missing `label`") .ok
  pure { label, description := (o.get "description").bind Json.asStr }

/-- One question object of the array: it needs a text and an option. -/
def parseQuestion (v : Json) : Except String Question := do
  let text ← ((v.get "question").bind Json.asStr).elim
    (.error "question object missing `question` text") .ok
  let header := (v.get "header").bind Json.asStr
  let multiSelect := ((v.get "multiSelect").bind Json.asBool).getD false
  let options ← ((v.get "options").bind Json.asArray).elim
    (.error ("question `" ++ text ++ "` has no `options` array")) .ok
  let options ← options.mapM parseOption
  if options = [] then .error ("question `" ++ text ++ "` has no options")
  else .ok { header, text, multiSelect, options }

namespace QuestionSet

/-- `QuestionSet::from_tool_input`: every question must have a text and an option, and there must be
one. -/
def fromToolInput (toolInput : Json) : Except String QuestionSet := do
  let arr ← ((toolInput.get "questions").bind Json.asArray).elim
    (.error "AskUserQuestion tool_input has no `questions` array") .ok
  let questions ← arr.mapM parseQuestion
  if questions = [] then .error "AskUserQuestion call has no questions"
  else .ok ⟨questions⟩

end QuestionSet

/-! ## Rendering -/

/-- The line of an option, with its number before it. -/
def QOption.line (opt : QOption) (n : String) : String :=
  match opt.description with
  | some d => "   " ++ n ++ ". " ++ opt.label ++ " — " ++ d ++ "\n"
  | none => "   " ++ n ++ ". " ++ opt.label ++ "\n"

/-- The lines above the options of a question. -/
def Question.heading (q : Question) : String :=
  "\n" ++ q.header.elim "" (fun h => "▸ " ++ h ++ "\n") ++ q.text ++ "\n"

/-- The line below the options, when several may be picked. -/
def Question.note (q : Question) : String :=
  if q.multiSelect then "   (multi-select — list every number that applies)\n" else ""

/-- The line above all the questions. -/
def renderHead : String :=
  "🔵 Claude needs your input — reply with the option number(s).\n"

/-- The line below them, which says how to answer. -/
def renderFoot : String :=
  "\nReply with one number per question (e.g. \"1, 4\"); for a multi-select question list each " ++
    "number you want."

/-- The text written so far, and the last number given: an `i32`, which wraps around. -/
abbrev Rendered := String × I32

/-- The counter goes up by one, as an `i32` that wraps, and is written before the option. -/
def renderOption (acc : Rendered) (opt : QOption) : Rendered :=
  let n := IntN.wrapping (acc.2.val + 1)
  (acc.1 ++ opt.line n.toText, n)

/-- The heading of a question, its options with their numbers, and what it says of picking
several. -/
def renderQuestion (acc : Rendered) (q : Question) : Rendered :=
  let (out, n) := q.options.foldl renderOption (acc.1 ++ q.heading, acc.2)
  (out ++ q.note, n)

/-- What a question is called in an answer: its header, or else its text. -/
def Question.name (q : Question) : String := q.header.getD q.text

namespace QuestionSet

/-- `QuestionSet::render`: one counter runs through the options of all questions. -/
def render (qs : QuestionSet) : String :=
  (qs.questions.foldl renderQuestion (renderHead, IntN.wrapping 0)).1 ++ renderFoot

/-! ## Answering -/

/-- The question and the option of each place in the flat list. -/
def flatOptions (qs : QuestionSet) : List (Nat × Nat) :=
  qs.questions.zipIdx.flatMap fun (q, qi) => (List.range q.options.length).map fun oi => (qi, oi)

/-- The numbers of a reply that number an option, in the order of the reply. -/
def picks (qs : QuestionSet) (reply : String) : List Nat :=
  ((reply.toList.splitOnP fun c => !c.isDigit).filterMap fun piece =>
    parseU64 (String.ofList piece)).filter fun n => 1 ≤ n && n ≤ qs.flatOptions.length

/-- A pick is added to those of its question. There is none when an index is out of range. -/
def recordPick (qs : QuestionSet) (perQuestion : List (List String)) (n : Nat) :
    Option (List (List String)) := do
  let (qi, oi) ← qs.flatOptions[n - 1]?
  let q ← qs.questions[qi]?
  let opt ← q.options[oi]?
  let chosen ← perQuestion[qi]?
  pure (perQuestion.set qi (chosen ++ [opt.label]))

/-- The line of the answer for a question: the labels picked, or that there were none. -/
def answerLine (q : Question) (chosen : List String) : String :=
  if chosen = [] then "• " ++ q.name ++ ": (no option picked)\n"
  else "• " ++ q.name ++ ": " ++ "; ".intercalate chosen ++ "\n"

/-- The answer with what was picked for each question, one line for each. -/
def numberedAnswer (questions : List Question) (perQuestion : List (List String)) : String :=
  "The user answered the AskUserQuestion prompt via Telegram (not the in-app dialog):\n" ++
    String.join (List.zipWith answerLine questions perQuestion) ++
    "Use these answers and continue — do not call AskUserQuestion again for them."

/-- The answer when the reply has none of the numbers: the reply itself, trimmed, for Claude to
interpret. -/
def freeTextAnswer (reply : String) : String :=
  "The user answered the AskUserQuestion prompt via Telegram with a free-text reply: \"" ++
    String.ofList (trim reply.toList) ++ "\". Interpret it as their answer to the question(s) " ++
    "and continue — do not call AskUserQuestion again."

/-- There is no answer when an index is out of range. -/
def answerFromReply (qs : QuestionSet) (reply : String) : Option String :=
  match qs.picks reply with
  | [] => some (freeTextAnswer reply)
  | picks =>
    (picks.foldlM qs.recordPick (List.replicate qs.questions.length [])).map
      (numberedAnswer qs.questions)

/-! ## The numbers of the options -/

/-- The options of the questions, numbered from `k + 1` on in question order. -/
def numberFrom (k : Nat) : List Question → List (Question × List (QOption × Nat))
  | [] => []
  | q :: questions =>
    (q, q.options.zipIdx (k + 1)) :: numberFrom (k + q.options.length) questions

/-- The questions with the numbers of their options, from 1 on. -/
def numbered (qs : QuestionSet) : List (Question × List (QOption × Nat)) :=
  numberFrom 0 qs.questions

/-- How many options there are in all the questions. -/
def total (qs : QuestionSet) : Nat := (qs.questions.map fun q => q.options.length).sum

/-- The text that shows questions and options with their numbers, written in a given way. -/
def rendering (number : Nat → String) (shown : List (Question × List (QOption × Nat))) : String :=
  renderHead ++
    String.join (shown.map fun e =>
      e.1.heading ++ String.join (e.2.map fun opt => opt.1.line (number opt.2)) ++ e.1.note) ++
    renderFoot

/-- The maximal runs of digits of a text. -/
def digitRuns : List Char → List (List Char)
  | [] => []
  | c :: cs =>
    if c.isDigit then (c :: cs.takeWhile Char.isDigit) :: digitRuns (cs.dropWhile Char.isDigit)
    else digitRuns cs
termination_by cs => cs.length
decreasing_by
  · exact Nat.lt_succ_of_le (List.length_dropWhile_le _ _)
  · exact Nat.lt_succ_self _

/-- The numbers that runs of digits denote, of those from 1 to the number of options and in range of
`usize`. -/
def numbersIn (qs : QuestionSet) (reply : String) : List Nat :=
  ((digitRuns reply.toList).map fun run => Nat.ofDigitChars 10 run 0).filter fun n =>
    1 ≤ n && n ≤ qs.total && n < 2 ^ 64

/-- The options with these numbers, in the order of the numbers. -/
def withNumbers (opts : List (QOption × Nat)) (ns : List Nat) : List (QOption × Nat) :=
  ns.filterMap fun n => opts.find? fun opt => opt.2 = n

/-- The options of each question that a reply picks, by their numbers. -/
def picked (qs : QuestionSet) (reply : String) : List (Question × List (QOption × Nat)) :=
  qs.numbered.map fun e => (e.1, withNumbers e.2 (qs.numbersIn reply))

/-- What is shown is what is understood: the numbers that the text shows are those by which a reply
picks. -/
structure NumbersUnderstood (qs : QuestionSet) : Prop where
  /-- `numbered` gives every option a number, from 1 on in question order. -/
  options : qs.numbered.map (fun e => (e.1, e.2.map (·.1))) =
    qs.questions.map fun q => (q, q.options)
  consecutive : qs.numbered.flatMap (fun e => e.2.map (·.2)) = List.range' 1 qs.total
  /-- These are the numbers `render` shows. -/
  rendered : qs.render = rendering toString qs.numbered
  /-- The answer lists the options that are shown with the numbers of the reply. -/
  answered (reply : String) : qs.numbersIn reply ≠ [] → qs.answerFromReply reply =
    some (numberedAnswer qs.questions
      ((qs.picked reply).map fun e => e.2.map fun opt => opt.1.label))
  verbatim (reply : String) : qs.numbersIn reply = [] →
    qs.answerFromReply reply = some (freeTextAnswer reply)

/-! ## Picks are the numbers of the reply -/

/-- What follows a run of digits is nothing, or starts with a separator. -/
theorem splitOnP_digitRuns (cs : List Char) :
    (cs.splitOnP fun c => !c.isDigit).filter (· ≠ []) = digitRuns cs := by
  fun_induction digitRuns cs with
  | case1 => simp
  | case2 c cs hc ih =>
    have hrun : ∀ d ∈ c :: cs.takeWhile Char.isDigit, (!d.isDigit) = false := by
      intro d hd
      rcases List.mem_cons.1 hd with rfl | hd
      · simpa using hc
      · simpa using List.mem_takeWhile_imp hd
    have hcut : c :: cs = (c :: cs.takeWhile Char.isDigit) ++ cs.dropWhile Char.isDigit := by
      rw [List.cons_append, List.takeWhile_append_dropWhile]
    rw [hcut]
    cases hrest : cs.dropWhile Char.isDigit with
    | nil => rw [List.append_nil, List.splitOnP_eq_singleton hrun]; simp [digitRuns]
    | cons sep rest =>
      have hsep : (!sep.isDigit) = true := by
        have hhead := List.head?_dropWhile_not Char.isDigit cs
        rw [hrest] at hhead
        simpa using hhead
      rw [hrest, List.splitOnP_cons_eq_if_modifyHead, if_pos hsep,
        List.filter_cons_of_neg (by simp)] at ih
      rw [List.splitOnP_append_cons (p := fun c : Char => !c.isDigit) _ _ hsep,
        List.splitOnP_eq_singleton hrun, List.filter_append, ih]
      simp
  | case3 c cs hc ih =>
    rw [List.splitOnP_cons_eq_if_modifyHead, if_pos (by simpa using hc),
      List.filter_cons_of_neg (by simp), ih]

/-- A run of digits is not empty and has digits only. -/
theorem mem_digitRuns {cs run : List Char} (h : run ∈ digitRuns cs) :
    run ≠ [] ∧ ∀ c ∈ run, c.isDigit := by
  fun_induction digitRuns cs with
  | case1 => cases h
  | case2 c cs hc ih =>
    rcases List.mem_cons.1 h with rfl | h
    · refine ⟨List.cons_ne_nil _ _, ?_⟩
      intro d hd
      rcases List.mem_cons.1 hd with rfl | hd
      · exact hc
      · exact List.mem_takeWhile_imp hd
    · exact ih h
  | case3 c cs hc ih => exact ih h

/-- A run of digits parses to what it denotes, when that is in range. -/
theorem parseU64_run {run : List Char} (hne : run ≠ []) (h : ∀ c ∈ run, c.isDigit) :
    parseU64 (String.ofList run) = (some (Nat.ofDigitChars 10 run 0)).filter (· < 2 ^ 64) := by
  have hdigits : digits run = some (Nat.ofDigitChars 10 run 0) :=
    if_pos ⟨hne, List.all_eq_true.2 h⟩
  rw [parseU64, String.toList_ofList]
  split
  · next cs => exact absurd (h '+' List.mem_cons_self) (by decide)
  · rw [hdigits]

/-- There are as many options to pick as there are numbers. -/
theorem length_flatOptions (qs : QuestionSet) : qs.flatOptions.length = qs.total := by
  rw [flatOptions, total, List.length_flatMap]
  congr 1
  conv_rhs => rw [← List.zipIdx_map_fst 0 qs.questions, List.map_map]
  simp

/-- The pieces between separators that parse are the runs of digits in range. -/
theorem picks_eq (qs : QuestionSet) (reply : String) : qs.picks reply = qs.numbersIn reply := by
  have hpieces (pieces : List (List Char)) :
      pieces.filterMap (fun piece => parseU64 (String.ofList piece)) =
        (pieces.filter (· ≠ [])).filterMap fun piece => parseU64 (String.ofList piece) := by
    rw [List.filterMap_filter]
    refine List.filterMap_congr ?_
    intro piece _
    cases piece with
    | nil => simp [parseU64, digits]
    | cons c cs => simp
  have hruns : (digitRuns reply.toList).filterMap
      (fun run => parseU64 (String.ofList run)) =
        ((digitRuns reply.toList).map fun run => Nat.ofDigitChars 10 run 0).filter
          (· < 2 ^ 64) := by
    rw [← List.filterMap_eq_filter, List.filterMap_map]
    refine List.filterMap_congr ?_
    intro run hrun
    obtain ⟨hne, hdigits⟩ := mem_digitRuns hrun
    rw [parseU64_run hne hdigits]
    rfl
  rw [picks, hpieces, splitOnP_digitRuns, hruns, List.filter_filter, numbersIn, length_flatOptions]

/-! ## The option of a number -/

/-- The option with a number, of options numbered in a row. -/
theorem find?_zipIdx (opts : List QOption) (s n : Nat) :
    (opts.zipIdx s).find? (fun opt => opt.2 = n) =
      if s ≤ n then (opts[n - s]?).map fun opt => (opt, n) else none := by
  induction opts generalizing s with
  | nil => simp
  | cons opt opts ih =>
    rw [List.zipIdx_cons, List.find?_cons, ih]
    rcases Nat.lt_trichotomy s n with h | rfl | h
    · have hsub : n - s = (n - (s + 1)) + 1 := by omega
      simp [Nat.ne_of_lt h, Nat.le_of_lt h, Nat.succ_le_of_lt h, hsub]
    · simp
    · simp [Nat.ne_of_gt h, Nat.not_le_of_gt h, show ¬ s + 1 ≤ n by omega]

/-- Numbers given from `k` on are above `k`. -/
theorem lt_of_mem_numberFrom {k : Nat} {questions : List Question}
    {e : Question × List (QOption × Nat)} (h : e ∈ numberFrom k questions) :
    ∀ opt ∈ e.2, k < opt.2 := by
  induction questions generalizing k with
  | nil => cases h
  | cons q questions ih =>
    intro opt hopt
    rcases List.mem_cons.1 h with rfl | h
    · exact List.le_snd_of_mem_zipIdx hopt
    · have := ih h opt hopt
      omega

/-- So a number that is not above `k` belongs to no option that is numbered from there. -/
theorem find?_eq_none_of_mem_numberFrom {k n : Nat} {questions : List Question}
    {e : Question × List (QOption × Nat)} (h : e ∈ numberFrom k questions) (hn : n ≤ k) :
    e.2.find? (fun opt => opt.2 = n) = none := by
  rw [List.find?_eq_none]
  intro opt hopt
  have := lt_of_mem_numberFrom h opt hopt
  simp only [decide_eq_true_eq]
  omega

/-- The place `m` of the flat list is that of the option numbered `m + 1`. Both count along the
questions: `j` of them were before, with `k` options. -/
theorem exists_place (questions : List Question) (j k m : Nat)
    (hm : m < (questions.map fun q => q.options.length).sum) :
    ∃ qi oi q opt,
      ((questions.zipIdx j).flatMap fun (q, qi) =>
        (List.range q.options.length).map fun oi => (qi, oi))[m]? = some (j + qi, oi) ∧
      questions[qi]? = some q ∧ q.options[oi]? = some opt ∧
      ∀ i e, (numberFrom k questions)[i]? = some e →
        e.2.find? (fun opt => opt.2 = k + m + 1) =
          if i = qi then some (opt, k + m + 1) else none := by
  induction questions generalizing j k m with
  | nil => simp at hm
  | cons q questions ih =>
    rw [List.map_cons, List.sum_cons] at hm
    rcases Nat.lt_or_ge m q.options.length with hlt | hge
    · -- an option of the first question; the numbers of the others are above
      refine ⟨0, m, q, q.options[m], ?_, rfl, List.getElem?_eq_getElem hlt, ?_⟩
      · rw [List.zipIdx_cons, List.flatMap_cons, List.getElem?_append_left (by simpa using hlt)]
        simp [hlt]
      · intro i e he
        cases i with
        | zero =>
          cases he
          rw [find?_zipIdx, if_pos (by omega), if_pos rfl, show k + m + 1 - (k + 1) = m by omega,
            List.getElem?_eq_getElem hlt]
          rfl
        | succ i =>
          rw [numberFrom, List.getElem?_cons_succ] at he
          rw [if_neg (Nat.succ_ne_zero i)]
          exact find?_eq_none_of_mem_numberFrom (List.mem_of_getElem? he) (by omega)
    · -- an option of the rest, as many places further as the first question has options
      obtain ⟨qi, oi, q', opt, hflat, hq', hopt, hfind⟩ :=
        ih (j + 1) (k + q.options.length) (m - q.options.length) (by omega)
      have hnum : k + q.options.length + (m - q.options.length) + 1 = k + m + 1 := by omega
      refine ⟨qi + 1, oi, q', opt, ?_, hq', hopt, ?_⟩
      · rw [List.zipIdx_cons, List.flatMap_cons, List.getElem?_append_right (by simpa using hge)]
        simpa [Nat.add_assoc, Nat.add_comm 1] using hflat
      · intro i e he
        rw [hnum] at hfind
        cases i with
        | zero =>
          cases he
          rw [find?_zipIdx, if_pos (by omega), if_neg (by omega),
            List.getElem?_eq_none (by omega)]
          rfl
        | succ i =>
          rw [hfind i e (by rwa [numberFrom, List.getElem?_cons_succ] at he)]
          simp

/-- Every question is numbered, also one without options. -/
theorem length_numberFrom (k : Nat) (questions : List Question) :
    (numberFrom k questions).length = questions.length := by
  induction questions generalizing k with
  | nil => rfl
  | cons q questions ih => rw [numberFrom, List.length_cons, ih, List.length_cons]

/-- So there is one entry for each question. -/
@[simp] theorem length_numbered (qs : QuestionSet) :
    qs.numbered.length = qs.questions.length := length_numberFrom 0 qs.questions

/-! ## Recording picks -/

/-- What was picked before for each question, and the labels of the options with these numbers. -/
def withLabels (qs : QuestionSet) (perQuestion : List (List String)) (ns : List Nat) :
    List (List String) :=
  List.zipWith (fun chosen e => chosen ++ (withNumbers e.2 ns).map fun opt => opt.1.label)
    perQuestion qs.numbered

/-- Adding labels leaves one list for each question. -/
theorem length_withLabels {qs : QuestionSet} {perQuestion : List (List String)} {ns : List Nat}
    (h : perQuestion.length = qs.questions.length) :
    (qs.withLabels perQuestion ns).length = qs.questions.length := by
  rw [withLabels, List.length_zipWith, length_numbered, h, Nat.min_self]

/-- A number in range is recorded under the question of its option, and nowhere else. -/
theorem recordPick_eq {qs : QuestionSet} {perQuestion : List (List String)} {n : Nat}
    (h : perQuestion.length = qs.questions.length) (hn : 1 ≤ n) (hle : n ≤ qs.total) :
    qs.recordPick perQuestion n = some (qs.withLabels perQuestion [n]) := by
  obtain ⟨qi, oi, q, opt, hflat, hq, hopt, hfind⟩ :=
    exists_place qs.questions 0 0 (n - 1) (show n - 1 < qs.total by omega)
  rw [show 0 + (n - 1) + 1 = n by omega] at hfind
  have hqi : qi < perQuestion.length := by
    rw [h]
    exact (List.getElem?_eq_some_iff.1 hq).1
  have hrecord : qs.recordPick perQuestion n =
      some (perQuestion.set qi (perQuestion[qi] ++ [opt.label])) := by
    rw [recordPick, flatOptions, hflat]
    simp [hq, hopt, List.getElem?_eq_getElem hqi]
  rw [hrecord, Option.some.injEq]
  refine List.ext_getElem (by rw [length_withLabels h, List.length_set, h]) ?_
  intro i hi hi'
  have hin : i < qs.numbered.length := by
    rw [length_numbered, ← h]
    rwa [List.length_set] at hi
  have he := hfind i _ (List.getElem?_eq_getElem hin)
  simp only [List.getElem_set, withLabels, List.getElem_zipWith, withNumbers, List.filterMap_cons,
    he]
  by_cases hiq : qi = i
  · subst hiq
    simp
  · simp [hiq, Ne.symm hiq]

/-- Labels may be added for some numbers first and for the others after that. -/
theorem withLabels_append (qs : QuestionSet) (perQuestion : List (List String)) (ms ns : List Nat) :
    qs.withLabels (qs.withLabels perQuestion ms) ns = qs.withLabels perQuestion (ms ++ ns) := by
  refine List.ext_getElem (by simp [withLabels]) ?_
  intro i hi hi'
  simp [withLabels, withNumbers]

/-- Any number of picks in range is recorded, each under its own question. -/
theorem foldlM_recordPick {qs : QuestionSet} {perQuestion : List (List String)} {ns : List Nat}
    (h : perQuestion.length = qs.questions.length) (hns : ∀ n ∈ ns, 1 ≤ n ∧ n ≤ qs.total) :
    ns.foldlM qs.recordPick perQuestion = some (qs.withLabels perQuestion ns) := by
  induction ns generalizing perQuestion with
  | nil =>
    refine congrArg some (List.ext_getElem (by simp [withLabels, h]) ?_)
    intro i hi hi'
    simp [withLabels, withNumbers]
  | cons n ns ih =>
    obtain ⟨hn, hle⟩ := hns n List.mem_cons_self
    rw [List.foldlM_cons, recordPick_eq h hn hle]
    exact (ih (length_withLabels h) fun m hm => hns m (List.mem_cons_of_mem n hm)).trans
      (congrArg some (withLabels_append qs perQuestion [n] ns))

/-- The answer lists the picked options under their questions. -/
theorem answerFromReply_eq {qs : QuestionSet} {reply : String} (h : qs.numbersIn reply ≠ []) :
    qs.answerFromReply reply = some (numberedAnswer qs.questions
      ((qs.picked reply).map fun e => e.2.map fun opt => opt.1.label)) := by
  have hrange : ∀ n ∈ qs.numbersIn reply, 1 ≤ n ∧ n ≤ qs.total := by
    intro n hn
    have := (List.mem_filter.1 hn).2
    simp only [Bool.and_eq_true, decide_eq_true_eq] at this
    exact this.1
  have hstart : qs.withLabels (List.replicate qs.questions.length []) (qs.numbersIn reply) =
      (qs.picked reply).map fun e => e.2.map fun opt => opt.1.label := by
    refine List.ext_getElem (by simp [withLabels, picked]) ?_
    intro i hi hi'
    simp [withLabels, picked]
  rw [answerFromReply, picks_eq]
  split
  · next hnil => exact absurd hnil h
  · rw [foldlM_recordPick (by simp) hrange, Option.map_some, hstart]

/-! ## The counter of the rendering -/

/-- The number that `render` writes when it has counted up to `n`. -/
def counterText (n : Nat) : String := (IntN.wrapping n : I32).toText

/-- The counter writes what it counts, as long as it does not overflow. -/
theorem counterText_of_lt {n : Nat} (h : n < 2 ^ 31) : counterText n = toString n := by
  rw [counterText, IntN.wrapping_of_mem (by omega) (by decide)]
  rfl

/-- The number written before an option is the counter's, after it went up. -/
theorem renderOption_eq (out : String) (n : Nat) (opt : QOption) :
    renderOption (out, IntN.wrapping n) opt =
      (out ++ opt.line (counterText (n + 1)), IntN.wrapping (n + 1 : Nat)) := by
  simp only [renderOption, IntN.wrapping_val_add, counterText, Int.natCast_add, Int.natCast_one]

/-- The loop over the options of a question appends a line for each, with the numbers in a row. -/
theorem foldl_renderOption (out : String) (k : Nat) (opts : List QOption) :
    opts.foldl renderOption (out, IntN.wrapping k) =
      (out ++ String.join ((opts.zipIdx (k + 1)).map fun opt => opt.1.line (counterText opt.2)),
        IntN.wrapping (k + opts.length : Nat)) := by
  induction opts generalizing out k with
  | nil => simp
  | cons opt opts ih =>
    have hlen : k + 1 + opts.length = k + (opt :: opts).length := by
      rw [List.length_cons]
      omega
    rw [List.foldl_cons, renderOption_eq, ih, List.zipIdx_cons, List.map_cons, String.join_cons,
      String.append_assoc, hlen]

/-- The loop over the questions appends a block for each. -/
theorem foldl_renderQuestion (out : String) (k : Nat) (questions : List Question) :
    (questions.foldl renderQuestion (out, IntN.wrapping k)).1 =
      out ++ String.join ((numberFrom k questions).map fun e =>
        e.1.heading ++ String.join (e.2.map fun opt => opt.1.line (counterText opt.2)) ++
          e.1.note) := by
  induction questions generalizing out k with
  | nil => simp [numberFrom]
  | cons q questions ih =>
    rw [List.foldl_cons, renderQuestion, foldl_renderOption, ih, numberFrom, List.map_cons,
      String.join_cons]
    simp only [String.append_assoc]

/-- The numbers shown are those of `numbered`, as the counter writes them. -/
theorem render_eq (qs : QuestionSet) : qs.render = rendering counterText qs.numbered := by
  have hstart : (IntN.wrapping 0 : I32) = IntN.wrapping (0 : Nat) := rfl
  rw [render, hstart, foldl_renderQuestion]
  rfl

/-- The numbers from `k + 1` on are given without a gap, over all questions. -/
theorem numberFrom_consecutive (k : Nat) (questions : List Question) :
    (numberFrom k questions).flatMap (fun e => e.2.map (·.2)) =
      List.range' (k + 1) (questions.map fun q => q.options.length).sum := by
  induction questions generalizing k with
  | nil => rfl
  | cons q questions ih =>
    rw [numberFrom, List.flatMap_cons, ih, List.map_cons, List.sum_cons, List.zipIdx_map_snd,
      Nat.add_right_comm k, List.range'_append_1]

/-- Numbering changes neither the questions nor the order of their options. -/
theorem numberFrom_options (k : Nat) (questions : List Question) :
    (numberFrom k questions).map (fun e => (e.1, e.2.map (·.1))) =
      questions.map fun q => (q, q.options) := by
  induction questions generalizing k with
  | nil => rfl
  | cons q questions ih => rw [numberFrom, List.map_cons, ih, List.map_cons, List.zipIdx_map_fst]

/-- The numbers given are those from 1 to the number of options. -/
theorem mem_numbered_iff (qs : QuestionSet) (n : Nat) :
    (∃ e ∈ qs.numbered, n ∈ e.2.map (·.2)) ↔ 1 ≤ n ∧ n ≤ qs.total := by
  have h := numberFrom_consecutive 0 qs.questions
  rw [← List.mem_flatMap (f := fun e : Question × List (QOption × Nat) => e.2.map (·.2))]
  rw [show qs.numbered.flatMap (fun e => e.2.map (·.2)) = List.range' 1 qs.total from h,
    List.mem_range'_1]
  omega

/-- Numbers that are written the same way show the same text. -/
theorem rendering_congr {qs : QuestionSet} {f g : Nat → String}
    (h : ∀ n, 1 ≤ n → n ≤ qs.total → f n = g n) :
    rendering f qs.numbered = rendering g qs.numbered := by
  have hblocks : ∀ e ∈ qs.numbered, e.2.map (fun opt => opt.1.line (f opt.2)) =
      e.2.map fun opt => opt.1.line (g opt.2) := by
    intro e he
    refine List.map_congr_left ?_
    intro opt hopt
    obtain ⟨hn, hle⟩ := (mem_numbered_iff qs opt.2).1 ⟨e, he, List.mem_map_of_mem hopt⟩
    exact congrArg opt.1.line (h opt.2 hn hle)
  rw [rendering, rendering]
  congr 3
  refine List.map_congr_left ?_
  intro e he
  rw [hblocks e he]

/-- The numbers shown are the numbers understood, for every set with fewer than `2 ^ 31` options:
the counter of the rendering has not wrapped by then, so it counts as the answer does. -/
theorem numbers_understood {qs : QuestionSet} (h : qs.total < 2 ^ 31) : qs.NumbersUnderstood where
  options := numberFrom_options 0 qs.questions
  consecutive := numberFrom_consecutive 0 qs.questions
  rendered := (render_eq qs).trans
    (rendering_congr fun _ _ hle => counterText_of_lt (Nat.lt_of_le_of_lt hle h))
  answered _ hne := answerFromReply_eq hne
  verbatim reply hnil := by rw [answerFromReply, picks_eq, hnil]

/-- A question with two options, and the input that asks it. -/
def redOrBlue : QuestionSet := ⟨[⟨none, "Pick", false, [⟨"Red", none⟩, ⟨"Blue", none⟩]⟩]⟩

/-- The input that asks it. -/
def redOrBlueInput : Json :=
  .obj [("questions", .arr [.obj [("question", .str "Pick"),
    ("options", .arr [.obj [("label", .str "Red")], .obj [("label", .str "Blue")]])]])]

/-- It and a second question, whose options go on with the numbers 3 and 4. -/
def colourAndSize : QuestionSet :=
  ⟨redOrBlue.questions ++ [⟨some "Size", "Sizes", true, [⟨"Small", none⟩, ⟨"Large", some "XL"⟩]⟩]⟩

/-- The reply picks from both questions; a number that no option has is ignored. -/
theorem numbers_understood_two :
    colourAndSize.total < 2 ^ 31 ∧ colourAndSize.NumbersUnderstood ∧
      colourAndSize.numbersIn "4, then 2 or 3; not 9" = [4, 2, 3] ∧
      colourAndSize.answerFromReply "4, then 2 or 3; not 9" =
        some (numberedAnswer colourAndSize.questions [["Blue"], ["Large", "Small"]]) := by
  have hunderstood : colourAndSize.NumbersUnderstood := numbers_understood (by decide)
  have hnumbers : colourAndSize.numbersIn "4, then 2 or 3; not 9" = [4, 2, 3] := by
    simp [numbersIn, digitRuns, colourAndSize, redOrBlue, total]
    decide
  refine ⟨by decide, hunderstood, hnumbers, ?_⟩
  rw [hunderstood.answered _ (hnumbers ▸ List.cons_ne_nil _ _), picked, hnumbers]
  rfl

/-! ## One question with many options -/

/-- One question with so many options, all alike. -/
def oneQuestion (n : Nat) : QuestionSet :=
  ⟨[⟨none, "Pick", false, List.replicate n ⟨"Option", none⟩⟩]⟩

/-- The input that asks it. -/
def oneQuestionInput (n : Nat) : Json :=
  .obj [("questions", .arr [.obj [("question", .str "Pick"),
    ("options", .arr (List.replicate n (.obj [("label", .str "Option")])))]])]

/-- Each of its options is accepted as it is. -/
theorem mapM_parseOption_replicate (n : Nat) :
    (List.replicate n (Json.obj [("label", .str "Option")])).mapM parseOption =
      .ok (List.replicate n ⟨"Option", none⟩) := by
  induction n with
  | zero => rfl
  | succ n ih =>
    rw [List.replicate_succ, List.mapM_cons, ih]
    rfl

/-- The input is accepted, with as many options as are given. -/
theorem fromToolInput_oneQuestion {n : Nat} (hn : 0 < n) :
    fromToolInput (oneQuestionInput n) = .ok (oneQuestion n) := by
  have hne : List.replicate n (⟨"Option", none⟩ : QOption) ≠ [] := by
    rw [Ne, List.replicate_eq_nil_iff]
    omega
  have hquestion : parseQuestion (.obj [("question", .str "Pick"),
      ("options", .arr (List.replicate n (.obj [("label", .str "Option")])))]) =
      ((List.replicate n (Json.obj [("label", .str "Option")])).mapM parseOption).bind
        fun options =>
          if options = [] then .error ("question `" ++ "Pick" ++ "` has no options")
          else .ok ⟨none, "Pick", false, options⟩ := rfl
  rw [mapM_parseOption_replicate, Except.bind, if_neg hne] at hquestion
  change ([_].mapM parseQuestion >>= _) = _
  rw [List.mapM_cons, hquestion]
  rfl

/-- With `2 ^ 31` options, the counter has overflowed at the last one. -/
theorem render_ne {n : Nat} (h : n + 1 = 2 ^ 31) :
    (oneQuestion (n + 1)).render ≠ rendering toString (oneQuestion (n + 1)).numbered := by
  intro heq
  have hnumbered : (oneQuestion (n + 1)).numbered =
      [(⟨none, "Pick", false, List.replicate (n + 1) ⟨"Option", none⟩⟩,
        (List.replicate n ⟨"Option", none⟩).zipIdx 1 ++ [(⟨"Option", none⟩, n + 1)])] := by
    rw [numbered, oneQuestion, numberFrom, numberFrom, List.replicate_succ', List.zipIdx_append,
      List.length_replicate, Nat.zero_add, Nat.add_comm 1, List.zipIdx_singleton]
  have hbefore : ((List.replicate n (⟨"Option", none⟩ : QOption)).zipIdx 1).map
      (fun opt => opt.1.line (counterText opt.2)) =
      ((List.replicate n (⟨"Option", none⟩ : QOption)).zipIdx 1).map
        fun opt => opt.1.line (toString opt.2) := by
    refine List.map_congr_left ?_
    intro opt hopt
    have hlt := List.snd_lt_of_mem_zipIdx hopt
    rw [List.length_replicate] at hlt
    rw [counterText_of_lt (by omega)]
  rw [render_eq, hnumbered, rendering, rendering, String.append_left_inj, String.append_right_inj]
    at heq
  simp only [List.map_cons, List.map_nil, String.join_cons, String.join_nil, List.map_append,
    String.join_append, hbefore, h, String.append_left_inj, String.append_right_inj] at heq
  simp only [QOption.line, String.append_left_inj, String.append_right_inj] at heq
  have hlast : counterText (2 ^ 31) ≠ toString (2 ^ 31) := by decide
  exact hlast heq

/-- With `2 ^ 31` options the last one is not shown with its number, as the counter has wrapped. -/
theorem not_numbers_understood :
    fromToolInput (oneQuestionInput (2 ^ 31)) = .ok (oneQuestion (2 ^ 31)) ∧
      ¬ (oneQuestion (2 ^ 31)).NumbersUnderstood := by
  obtain ⟨n, hn⟩ : ∃ n, n + 1 = 2 ^ 31 := ⟨2 ^ 31 - 1, by omega⟩
  rw [← hn]
  exact ⟨fromToolInput_oneQuestion (Nat.succ_pos n), fun h => render_ne hn h.rendered⟩

/-! ## Which selections are legal -/

/-- The options the answer lists could have been selected: none twice, and at most one of a question
that does not allow more. -/
def LegalSelection (qs : QuestionSet) (reply : String) : Prop :=
  qs.numbersIn reply ≠ [] →
    qs.answerFromReply reply = some (numberedAnswer qs.questions
      ((qs.picked reply).map fun e => e.2.map fun opt => opt.1.label)) ∧
    ∀ e ∈ qs.picked reply, e.2.Nodup ∧ (e.1.multiSelect = false → e.2.length ≤ 1)

/-- The reply repeats no number of an option, and has at most one of the numbers of each question
that does not allow more. -/
def NumbersOnce (qs : QuestionSet) (reply : String) : Prop :=
  (qs.numbersIn reply).Nodup ∧ ∀ e ∈ qs.numbered, e.1.multiSelect = false →
    ((qs.numbersIn reply).filter (· ∈ e.2.map (·.2))).length ≤ 1

/-- The options with numbers, given by the numbers alone. -/
theorem map_withNumbers (opts : List (QOption × Nat)) (ns : List Nat) :
    (withNumbers opts ns).map (·.2) = ns.filter (· ∈ opts.map (·.2)) := by
  induction ns with
  | nil => rfl
  | cons n ns ih =>
    rw [withNumbers, List.filterMap_cons]
    cases hfind : opts.find? (fun opt => opt.2 = n) with
    | none =>
      have hout : n ∉ opts.map (·.2) := by
        intro hn
        obtain ⟨opt, hopt, rfl⟩ := List.mem_map.1 hn
        simpa using List.find?_eq_none.1 hfind opt hopt
      rw [List.filter_cons_of_neg (by simpa using hout)]
      exact ih
    | some opt =>
      have hopt : opt.2 = n := by simpa using List.find?_some hfind
      have hin : n ∈ opts.map (·.2) := List.mem_map.2 ⟨opt, List.mem_of_find?_eq_some hfind, hopt⟩
      rw [List.filter_cons_of_pos (by simpa using hin), ← ih, List.map_cons, hopt]
      rfl

/-- An option is listed twice exactly when its number is. -/
theorem nodup_withNumbers_iff (opts : List (QOption × Nat)) (ns : List Nat) :
    (withNumbers opts ns).Nodup ↔ (ns.filter (· ∈ opts.map (·.2))).Nodup := by
  have hfind : ∀ opt ∈ withNumbers opts ns, opts.find? (fun o => o.2 = opt.2) = some opt := by
    intro opt hopt
    obtain ⟨n, -, hn⟩ := List.mem_filterMap.1 hopt
    have : opt.2 = n := by simpa using List.find?_some hn
    rwa [this]
  rw [← map_withNumbers]
  refine ⟨?_, List.Nodup.of_map _⟩
  intro h
  refine h.map_on ?_
  intro a ha b hb hab
  have hb' := hfind b hb
  rw [← hab, hfind a ha] at hb'
  exact Option.some.inj hb'

/-- Every number of the reply is that of an option of some question. -/
theorem nodup_numbersIn_iff (qs : QuestionSet) (reply : String) :
    (qs.numbersIn reply).Nodup ↔
      ∀ e ∈ qs.numbered, ((qs.numbersIn reply).filter (· ∈ e.2.map (·.2))).Nodup := by
  refine ⟨fun h e _ => h.filter _, ?_⟩
  intro h
  rw [List.nodup_iff_count_le_one]
  intro n
  by_cases hn : n ∈ qs.numbersIn reply
  · have hrange := (List.mem_filter.1 hn).2
    simp only [Bool.and_eq_true, decide_eq_true_eq] at hrange
    obtain ⟨e, he, hmem⟩ := (mem_numbered_iff qs n).2 hrange.1
    rw [← List.count_filter (p := fun m => m ∈ e.2.map (·.2)) (by simpa using hmem)]
    exact List.nodup_iff_count_le_one.1 (h e he) n
  · rw [List.count_eq_zero_of_not_mem hn]
    exact Nat.zero_le 1

/-- What is picked is as legal as the numbers of the reply are: no option is picked twice, and one
at most where only one is asked for, exactly when the numbers are so. -/
theorem picked_legal_iff (qs : QuestionSet) (reply : String) :
    (∀ e ∈ qs.picked reply, e.2.Nodup ∧ (e.1.multiSelect = false → e.2.length ≤ 1)) ↔
      qs.NumbersOnce reply := by
  have hlength (opts : List (QOption × Nat)) : (withNumbers opts (qs.numbersIn reply)).length =
      ((qs.numbersIn reply).filter (· ∈ opts.map (·.2))).length := by
    rw [← map_withNumbers, List.length_map]
  rw [picked, List.forall_mem_map, NumbersOnce, nodup_numbersIn_iff, ← forall₂_and]
  simp only [nodup_withNumbers_iff, hlength]

/-- Nothing in the code keeps a selection legal: it is legal exactly when the reply gives no number
twice, and one at most for a question with one answer. -/
theorem legalSelection_iff (qs : QuestionSet) (reply : String) :
    qs.LegalSelection reply ↔ qs.NumbersOnce reply := by
  rw [LegalSelection, ← picked_legal_iff]
  refine ⟨?_, fun h hne => ⟨answerFromReply_eq hne, h⟩⟩
  intro h
  by_cases hne : qs.numbersIn reply = []
  · rw [picked_legal_iff, NumbersOnce, hne]
    exact ⟨List.nodup_nil, fun _ _ _ => Nat.zero_le 1⟩
  · exact (h hne).2

/-- Both options of a question with one answer are listed, and one of them twice, as nothing counts
the picks. -/
theorem not_legalSelection :
    fromToolInput redOrBlueInput = .ok redOrBlue ∧
      redOrBlue.answerFromReply "1 2 2" =
        some (numberedAnswer redOrBlue.questions [["Red", "Blue", "Blue"]]) ∧
      ¬ redOrBlue.LegalSelection "1 2 2" := by
  have hnumbers : redOrBlue.numbersIn "1 2 2" = [1, 2, 2] := by
    simp [numbersIn, digitRuns, redOrBlue, total]
    decide
  have hne : redOrBlue.numbersIn "1 2 2" ≠ [] := by
    rw [hnumbers]
    exact List.cons_ne_nil _ _
  refine ⟨rfl, ?_, ?_⟩
  · rw [answerFromReply_eq hne, picked, hnumbers]
    rfl
  · intro h
    obtain ⟨hnodup, -⟩ := (picked_legal_iff _ _).1 (h hne).2
    rw [hnumbers] at hnodup
    exact absurd hnodup (by decide)

end QuestionSet

end TelegramMcp.Hook
