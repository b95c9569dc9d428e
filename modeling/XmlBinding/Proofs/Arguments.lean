import XmlBinding.CommandLine

/-!
# What the arguments ask for

In front of the first `--` every argument counts: switches take effect, operands name the input, and
anything else that begins with a dash is refused. Behind it stands the input, and only the argument
right behind it is heard.
-/
namespace XmlBinding.CommandLine

/-! ### The arguments by their place and kind -/

/-- The arguments in front of the first `--`. -/
def inFront (args : List String) : List String := args.takeWhile (· ≠ "--")

/-- The arguments behind the first `--`. -/
def behind (args : List String) : List String := (args.dropWhile (· ≠ "--")).tail

/-- The arguments that ask for information instead of a report. -/
def questions : List String := ["-h", "--help", "-V", "--version"]

def colorSwitches : List String := ["--color", "--no-color"]

def switches : List String := colorSwitches ++ ["--no-namespaces", "--raw-text"]

/-- An argument that names an input; a dash alone names standard input. -/
def IsOperand (arg : String) : Prop := arg = "-" ∨ arg.toList.head? ≠ some '-'

instance (arg : String) : Decidable (IsOperand arg) := by unfold IsOperand; infer_instance

/-- An argument that begins with a dash and means nothing. -/
structure IsUnknown (arg : String) : Prop where
  dashed : ¬IsOperand arg
  question : arg ∉ questions
  switch : arg ∉ switches
  separator : arg ≠ "--"

/-- All arguments that name an input. -/
def named (args : List String) : List String :=
  (inFront args).filter (IsOperand ·) ++ behind args

/-- The arguments that are taken as the name of an input. -/
def heard (args : List String) : List String :=
  (inFront args).filter (IsOperand ·) ++ (behind args).take 1

/-- What the last of the two switches for colours says. -/
def chosenColor (terminal : Bool) (args : List String) : Bool :=
  match ((inFront args).filter (· ∈ colorSwitches)).getLast? with
  | some arg => arg = "--color"
  | none => terminal

/-- The settings that the switches ask for, and the first input that is named. -/
def requested (c : Config) (args : List String) : Config where
  path := c.path.or (heard args).head?
  options :=
    { c.options with
      namespaceAware := c.options.namespaceAware && "--no-namespaces" ∉ inFront args
      trimText := c.options.trimText && "--raw-text" ∉ inFront args }
  color := chosenColor c.color args

/-- Why the arguments are refused: two inputs that are heard, or an unknown option. -/
inductive Refuses (c : Config) (args : List String) : UsageError → Prop
  | twoInputs : 2 ≤ c.path.toList.length + (heard args).length → Refuses c args .twoInputs
  | unknownOption {arg : String} : arg ∈ inFront args → IsUnknown arg →
      Refuses c args (.unknownOption arg)

/-! ### One argument -/

/-- The kinds of arguments in front of `--`. -/
inductive Kind (arg : String) : Prop
  | question (h : arg ∈ questions)
  | switch (h : arg ∈ switches)
  | unknown (h : IsUnknown arg)
  | operand (h : IsOperand arg)

theorem kind {arg : String} (h : arg ≠ "--") : Kind arg := by
  by_cases hoperand : IsOperand arg
  · exact .operand hoperand
  by_cases hquestion : arg ∈ questions
  · exact .question hquestion
  by_cases hswitch : arg ∈ switches
  · exact .switch hswitch
  · exact .unknown ⟨hoperand, hquestion, hswitch, h⟩

/-- Nothing that has a meaning of its own is an operand. -/
theorem not_operand_of_mem {arg : String} (h : arg ∈ "--" :: (questions ++ switches)) :
    ¬IsOperand arg := by
  revert arg
  decide

section Cons

variable {arg : String} (h : arg ≠ "--") (rest : List String)
include h

theorem inFront_cons : inFront (arg :: rest) = arg :: inFront rest := by
  simp [inFront, h]

theorem behind_cons : behind (arg :: rest) = behind rest := by
  simp [behind, h]

omit rest in
theorem heard_singleton : heard [arg] = [arg].filter (IsOperand ·) := by
  simp [heard, inFront, behind, h]

theorem heard_cons : heard (arg :: rest) = heard [arg] ++ heard rest := by
  rw [heard_singleton h, heard, inFront_cons h, behind_cons h, ← List.singleton_append,
    List.filter_append, List.append_assoc]
  rfl

theorem chosenColor_cons (terminal : Bool) :
    chosenColor terminal (arg :: rest) = chosenColor (chosenColor terminal [arg]) rest := by
  have hsplit : (inFront (arg :: rest)).filter (· ∈ colorSwitches) =
      (inFront [arg]).filter (· ∈ colorSwitches) ++ (inFront rest).filter (· ∈ colorSwitches) := by
    rw [inFront_cons h, inFront_cons h, ← List.filter_append]
    rfl
  rw [chosenColor, hsplit, List.getLast?_append]
  cases hlast : ((inFront rest).filter (· ∈ colorSwitches)).getLast? with
  | some last => simp [chosenColor, hlast]
  | none => simp [chosenColor, hlast]

/-- The settings are made argument by argument. -/
theorem requested_cons (c : Config) :
    requested c (arg :: rest) = requested (requested c [arg]) rest := by
  simp only [requested, heard_cons h rest, chosenColor_cons h rest, inFront_cons h]
  simp [inFront, Option.or_assoc, Bool.and_assoc]

/-- An argument that is known and names no second input is taken in, and what the rest is refused
for, the whole is refused for. -/
theorem refuses_cons {c : Config} {e : UsageError} (hknown : ¬IsUnknown arg)
    (hroom : c.path.toList.length + (heard [arg]).length ≤ 1) :
    Refuses c (arg :: rest) e ↔ Refuses (requested c [arg]) rest e := by
  have hlength : (requested c [arg]).path.toList.length =
      c.path.toList.length + (heard [arg]).length := by
    cases hpath : c.path with
    | none =>
      have hone : (heard [arg]).length ≤ 1 := by simpa [hpath] using hroom
      rcases hheard : heard [arg] with _ | ⟨path, _ | ⟨second, more⟩⟩
      · simp [requested, hpath, hheard]
      · simp [requested, hpath, hheard]
      · simp [hheard] at hone
    | some path =>
      have hnone : heard [arg] = [] := by
        rw [hpath, Option.toList_some, List.length_singleton] at hroom
        exact List.length_eq_zero_iff.mp (by omega)
      simp [requested, hpath, hnone]
  constructor
  · rintro (htwo | ⟨hmem, hunknown⟩)
    · refine .twoInputs ?_
      rw [heard_cons h rest, List.length_append] at htwo
      omega
    · rw [inFront_cons h, List.mem_cons] at hmem
      rcases hmem with rfl | hmem
      · exact absurd hunknown hknown
      · exact .unknownOption hmem hunknown
  · rintro (htwo | ⟨hmem, hunknown⟩)
    · refine .twoInputs ?_
      rw [heard_cons h rest, List.length_append]
      omega
    · refine .unknownOption ?_ hunknown
      rw [inFront_cons h]
      exact List.mem_cons_of_mem arg hmem

end Cons

/-! ### Reading -/

/-- An argument that asks for nothing changes nothing. -/
theorem requested_nil (c : Config) : requested c [] = c := by
  cases c
  simp [requested, heard, inFront, behind, chosenColor]

theorem readArgs_switch (c : Config) {arg : String} (h : arg ∈ switches) (rest : List String) :
    readArgs c (arg :: rest) = readArgs (requested c [arg]) rest := by
  have hheard : heard [arg] = [] := by
    rw [heard_singleton (by rintro rfl; exact absurd h (by decide)), List.filter_eq_nil_iff]
    intro a ha
    obtain rfl := List.mem_singleton.mp ha
    simpa using not_operand_of_mem (List.mem_cons_of_mem "--" (List.mem_append_right questions h))
  obtain rfl | rfl | rfl | rfl : arg = "--color" ∨ arg = "--no-color" ∨ arg = "--no-namespaces" ∨
      arg = "--raw-text" := by simpa [switches, colorSwitches] using h
  all_goals
    conv => lhs; unfold readArgs
    simp [requested, hheard, inFront, chosenColor, colorSwitches]

theorem readArgs_unknown (c : Config) {arg : String} (h : IsUnknown arg) (rest : List String) :
    readArgs c (arg :: rest) = .error (.unknownOption arg) := by
  have hquestion := h.question
  have hswitch := h.switch
  have hdashed := h.dashed
  simp only [questions, switches, colorSwitches, List.cons_append, List.nil_append, List.mem_cons,
    List.not_mem_nil, or_false, not_or, IsOperand] at hquestion hswitch hdashed
  unfold readArgs
  simp [hquestion, hswitch, h.separator, hdashed]

theorem readArgs_operand (c : Config) {arg : String} (h : IsOperand arg) (rest : List String) :
    readArgs c (arg :: rest) = (c.setPath arg).bind (readArgs · rest) := by
  have hplain : arg ∉ "--" :: (questions ++ switches) := fun hmem => not_operand_of_mem hmem h
  simp only [questions, switches, colorSwitches, List.cons_append, List.nil_append, List.mem_cons,
    List.not_mem_nil, or_false, not_or] at hplain
  have hplace : ¬(arg ≠ "-" ∧ arg.toList.head? = some '-') := by
    rintro ⟨hdash, hhead⟩
    exact h.elim hdash (absurd hhead)
  conv => lhs; unfold readArgs
  simp only [hplain, or_self, if_false, if_neg hplace]
  cases c.setPath arg <;> rfl

/-- Behind `--` at most one argument is looked at. -/
theorem readArgs_separator (c : Config) (rest : List String) :
    readArgs c ("--" :: rest) =
      (rest.head?.elim (.ok c) c.setPath).map .report := by
  cases rest <;> simp [readArgs, Except.map]

theorem length_path_le (c : Config) : c.path.toList.length ≤ 1 := by
  cases c.path <;> simp

/-- Nothing is wrong with arguments that name no input where no option stands. -/
theorem refuses_of_inFront_eq_nil {c : Config} {args : List String} {e : UsageError}
    (hfront : inFront args = []) :
    Refuses c args e ↔ e = .twoInputs ∧ 2 ≤ c.path.toList.length + (heard args).length := by
  constructor
  · rintro (htwo | ⟨hmem, -⟩)
    · exact ⟨rfl, htwo⟩
    · simp [hfront] at hmem
  · rintro ⟨rfl, htwo⟩
    exact .twoInputs htwo

/-- Without options and operands in front, the settings stay and the input is what stands behind. -/
theorem requested_of_inFront_eq_nil (c : Config) {args : List String} (hfront : inFront args = []) :
    requested c args = { c with path := c.path.or (heard args).head? } := by
  simp [requested, hfront, chosenColor]

/-- An operand is taken as the input if there is none. -/
theorem setPath_eq (c : Config) {arg : String} (h : arg ≠ "--") (hoperand : IsOperand arg)
    (hpath : c.path = none) : c.setPath arg = .ok (requested c [arg]) := by
  have hplain : arg ∉ "--" :: (questions ++ switches) :=
    fun hmem => not_operand_of_mem hmem hoperand
  simp only [questions, switches, colorSwitches, List.cons_append, List.nil_append, List.mem_cons,
    List.not_mem_nil, or_false, not_or] at hplain
  have hheard : heard [arg] = [arg] := by
    rw [heard_singleton h]
    simp [hoperand]
  simp [Config.setPath, requested, hpath, hheard, inFront, chosenColor,
    colorSwitches, hplain, Ne.symm]

/-- An argument that is known and names no second input is taken in. -/
theorem readArgs_cons (c : Config) {arg : String} (h : arg ≠ "--") (hquestion : arg ∉ questions)
    (hknown : ¬IsUnknown arg) (hroom : c.path.toList.length + (heard [arg]).length ≤ 1)
    (rest : List String) : readArgs c (arg :: rest) = readArgs (requested c [arg]) rest := by
  cases kind h with
  | question hmem => exact absurd hmem hquestion
  | switch hmem => exact readArgs_switch c hmem rest
  | unknown hunknown => exact absurd hunknown hknown
  | operand hoperand =>
    have hpath : c.path = none := by
      cases hpath : c.path with
      | none => rfl
      | some path =>
        rw [hpath, heard_singleton h] at hroom
        simp [hoperand] at hroom
    rw [readArgs_operand c hoperand, setPath_eq c h hoperand hpath]
    rfl

/-- A second operand is refused. -/
theorem readArgs_second (c : Config) {arg : String} (h : arg ≠ "--")
    (hroom : ¬c.path.toList.length + (heard [arg]).length ≤ 1) (rest : List String) :
    Refuses c (arg :: rest) .twoInputs ∧ readArgs c (arg :: rest) = .error .twoInputs := by
  have hoperand : IsOperand arg := by
    refine Decidable.byContradiction fun hno => hroom ?_
    rw [heard_singleton h]
    simp [hno, length_path_le c]
  refine ⟨.twoInputs ?_, ?_⟩
  · rw [heard_cons h rest, List.length_append]
    omega
  · rw [readArgs_operand c hoperand]
    cases hpath : c.path with
    | none =>
      rw [hpath, heard_singleton h] at hroom
      simp [hoperand] at hroom
    | some path =>
      simp only [Config.setPath, hpath]
      rfl

/-- Reading from `--` on. -/
theorem readArgs_separator_eq (c : Config) (rest : List String) :
    (∃ e, Refuses c ("--" :: rest) e ∧ readArgs c ("--" :: rest) = .error e) ∨
      (∀ e, ¬Refuses c ("--" :: rest) e) ∧
        readArgs c ("--" :: rest) = .ok (.report (requested c ("--" :: rest))) := by
  have hfront : inFront ("--" :: rest) = [] := rfl
  have hheard : heard ("--" :: rest) = rest.take 1 := rfl
  simp only [refuses_of_inFront_eq_nil hfront, requested_of_inFront_eq_nil c hfront, hheard,
    readArgs_separator]
  cases rest with
  | nil =>
    refine .inr ⟨?_, ?_⟩
    · rintro e ⟨-, htwo⟩
      exact absurd (length_path_le c) (Nat.not_le_of_lt htwo)
    · simp [Except.map]
  | cons path more =>
    cases hpath : c.path with
    | none => exact .inr ⟨by simp, by simp [Config.setPath, hpath, Except.map]⟩
    | some first =>
      exact .inl ⟨.twoInputs, ⟨rfl, by simp⟩, by simp [Config.setPath, hpath, Except.map]⟩

/-- **Reading the arguments.** They are refused with a reason, or they are taken in as a whole and
there is no reason to refuse them. -/
theorem readArgs_eq (c : Config) (args : List String) (h : ∀ arg ∈ inFront args, arg ∉ questions) :
    (∃ e, Refuses c args e ∧ readArgs c args = .error e) ∨
      (∀ e, ¬Refuses c args e) ∧ readArgs c args = .ok (.report (requested c args)) := by
  induction args generalizing c with
  | nil =>
    refine .inr ⟨fun e he => ?_, by rw [requested_nil]; rfl⟩
    obtain ⟨-, htwo⟩ := (refuses_of_inFront_eq_nil rfl).mp he
    exact absurd (length_path_le c) (Nat.not_le_of_lt htwo)
  | cons arg rest ih =>
    by_cases hseparator : arg = "--"
    · subst hseparator
      exact readArgs_separator_eq c rest
    rw [inFront_cons hseparator, List.forall_mem_cons] at h
    by_cases hunknown : IsUnknown arg
    · refine .inl ⟨_, .unknownOption ?_ hunknown, readArgs_unknown c hunknown rest⟩
      rw [inFront_cons hseparator]
      exact List.mem_cons_self
    by_cases hroom : c.path.toList.length + (heard [arg]).length ≤ 1
    · rw [readArgs_cons c hseparator h.1 hunknown hroom, requested_cons hseparator rest]
      simp only [refuses_cons hseparator rest hunknown hroom]
      exact ih (requested c [arg]) h.2
    · exact .inl ⟨_, readArgs_second c hseparator hroom rest⟩

/-! ### The program -/

variable {m : Type → Type} [Monad m]

/-- What becomes of an input that was read: it is mapped and reported, unless there is nothing in
it. -/
def digest (s : Surroundings m) (c : Config) (label : String)
    (unreadable : ReadError → UsageError) : Except ReadError String → m Outcome
  | .error cause => return refusal (unreadable cause)
  | .ok text => if Text.isAllBlank text then return refusal .noInput else report s c text label

/-- The input that the settings name is the one that is digested. -/
def digestNamed (s : Surroundings m) (c : Config) : m Outcome :=
  match c.path.filter (· ≠ "-") with
  | none => s.input >>= digest s c "<stdin>" .unreadableInput
  | some path => s.contentOf path >>= digest s c path (.unreadableFile path)

/-- Reading an input, looking whether there is something in it, and reporting it. -/
theorem digest_eq [LawfulMonad m] (s : Surroundings m) (c : Config) (label : String)
    (unreadable : ReadError → UsageError) (input : m (Except ReadError String)) :
    ((do
      let input ← (·.mapError unreadable) <$> input
      return match input with
        | .ok text => if Text.isAllBlank text then .error .noInput else .ok (text, label)
        | .error e => .error e : m (Except UsageError (String × String))) >>= fun
      | .error e => return refusal e
      | .ok (text, label) => report s c text label) = input >>= digest s c label unreadable := by
  simp only [bind_assoc, map_eq_pure_bind, pure_bind]
  congr 1
  funext result
  cases result with
  | error cause => rfl
  | ok text =>
    change (match if Text.isAllBlank text then Except.error UsageError.noInput
        else .ok (text, label) with
      | .error e => return refusal e
      | .ok (text, label) => report s c text label) =
        if Text.isAllBlank text then return refusal .noInput else report s c text label
    by_cases hblank : Text.isAllBlank text
    · rw [if_pos hblank, if_pos hblank]
    · rw [if_neg hblank, if_neg hblank]

/-- After reading the arguments, the input that they name is digested. -/
theorem run_report [LawfulMonad m] (s : Surroundings m) {args : List String} {c : Config}
    (h : readArgs { color := s.terminal } args = .ok (.report c)) :
    run s args = digestNamed s c := by
  unfold run digestNamed readDocument
  simp only [h]
  cases c.path with
  | none => exact digest_eq s c "<stdin>" .unreadableInput s.input
  | some path =>
    by_cases hdash : path = "-"
    · simp only [hdash, if_true, Option.filter_some]
      exact digest_eq s c "<stdin>" .unreadableInput s.input
    · have hkeep : (some path).filter (· ≠ "-") = some path := by simp [hdash]
      simp only [hdash, if_false, hkeep]
      exact digest_eq s c path (.unreadableFile path) (s.contentOf path)

/-- **What the arguments ask for.** Let no argument in front of `--` ask for help or for the
version. If an option in front of `--` is unknown, or two inputs are heard, there is no report: the
program says one of these two things and ends with code 2. Otherwise all switches in front of `--`
take effect, of those for colours the last, and what is digested is the one input that is heard, or
standard input if there is none or it is a dash. Of the arguments behind `--` only the first is
heard. -/
theorem arguments_law [LawfulMonad m] (s : Surroundings m) (args : List String)
    (h : ∀ arg ∈ inFront args, arg ∉ questions) :
    (((∃ arg ∈ inFront args, IsUnknown arg) ∨ 2 ≤ (heard args).length) →
        ∃ e, Refuses { color := s.terminal } args e ∧ run s args = pure (refusal e)) ∧
      ((∀ arg ∈ inFront args, ¬IsUnknown arg) → (heard args).length ≤ 1 →
        run s args = digestNamed s (requested { color := s.terminal } args)) := by
  rcases readArgs_eq { color := s.terminal } args h with ⟨e, hrefuses, hread⟩ | ⟨hfine, hread⟩
  · refine ⟨fun _ => ⟨e, hrefuses, by simp only [run, hread]⟩, fun hknown hone => ?_⟩
    rcases hrefuses with htwo | ⟨hmem, hunknown⟩
    · simp only [Option.toList_none, List.length_nil] at htwo
      omega
    · exact absurd hunknown (hknown _ hmem)
  · refine ⟨?_, fun _ _ => run_report s hread⟩
    rintro (⟨arg, hmem, hunknown⟩ | htwo)
    · exact absurd (.unknownOption hmem hunknown) (hfine _)
    · exact absurd (.twoInputs (by simpa using htwo)) (hfine .twoInputs)

/-- A place where every file holds the same document. -/
def everywhere (text : String) : Surroundings Id where
  input := .ok text
  contentOf _ := .ok text
  timed work := (work (), "0.0 µs")

/-- Behind `--` a switch is the name of an input, and in front of it the last colour holds. A file
and standard input are two inputs. -/
theorem arguments_law_of_switches :
    let args := ["--color", "--raw-text", "--no-color", "--", "-h"]
    let twice := ["a.xml", "--raw-text", "-"]
    (∀ arg ∈ inFront args, arg ∉ questions) ∧ (∀ arg ∈ inFront args, ¬IsUnknown arg) ∧
      (heard args).length ≤ 1 ∧
      run (everywhere "<a/>") args = report (everywhere "<a/>")
        { path := some "-h", options := { trimText := false } } "<a/>" "-h" ∧
      (∀ arg ∈ inFront twice, arg ∉ questions) ∧ 2 ≤ (heard twice).length ∧
      ∃ e, Refuses {} twice e ∧ run (everywhere "<a/>") twice = refusal e := by
  intro args twice
  have hquestions : ∀ arg ∈ inFront args, arg ∉ questions := by decide
  have hknown : ∀ arg ∈ inFront args, ¬IsUnknown arg := by
    have hswitches : ∀ arg ∈ inFront args, arg ∈ switches := by decide
    exact fun arg hmem hunknown => hunknown.switch (hswitches arg hmem)
  have hone : (heard args).length ≤ 1 := by decide
  have htwice : ∀ arg ∈ inFront twice, arg ∉ questions := by decide
  have htwo : 2 ≤ (heard twice).length := by decide
  refine ⟨hquestions, hknown, hone, ?_, htwice, htwo, ?_⟩
  · rw [(arguments_law (everywhere "<a/>") args hquestions).2 hknown hone]
    rfl
  · exact (arguments_law (everywhere "<a/>") twice htwice).1 (.inr htwo)

/-- Two inputs are named behind `--`, and the program reports the first as if it were the only
one. -/
theorem second_input_is_dropped :
    let args := ["--", "a.xml", "b.xml"]
    (∀ arg ∈ inFront args, arg ∉ questions) ∧ 2 ≤ (named args).length ∧
      (run (everywhere "<a/>") args).code = 0 := by
  decide +kernel

end XmlBinding.CommandLine
