import BetaNormal.Proofs.Shell.Lines

/-!
# Lines of a pending expression

While an expression is pending, the lines of a shell are still read for commands first.  A line goes
on with the expression, as the next line of a source file would, exactly if it does not begin like a
command.  Any other line is lost to the expression, which stays pending as it is.
-/

namespace BetaNormal

open Source

namespace Command

variable {line : Text}

def leadingWord (line : Text) : Text := line.trim.takeWhile isWordChar

def words : List Text := ["steps", "help", "exit", "EOF"]

/-- The words at which a shell is left. -/
def lastWords : List Text := ["exit", "EOF"]

/-- Whether a line begins like a command, whatever follows that. -/
def Begins (line : Text) : Prop := line.trim.head? = some '?' ∨ leadingWord line ∈ words

instance : DecidablePred Begins := fun _ => inferInstanceAs (Decidable (_ ∨ _))

theorem read_blank (blank : line.trim = []) : read line = .nothing := by
  unfold read
  rw [blank]

/-- A line that begins with an exclamation mark has no leading word, so it need not be told from
other lines that are no commands. -/
theorem read_eq (solid : line.trim ≠ []) :
    read line =
      if line.trim.head? = some '?' then .help
      else if leadingWord line = "steps" then .steps (Text.trim (line.trim.dropWhile isWordChar))
      else if leadingWord line = "help" then .help
      else if leadingWord line = "exit" then .leave
      else if leadingWord line = "EOF" then .endOfInput
      else .evaluate line.trim := by
  unfold read leadingWord
  generalize line.trim = text at solid
  cases text with
  | nil => contradiction
  | cons first rest =>
      by_cases asks : first = '?'
      · subst asks
        rfl
      · by_cases shouts : first = '!'
        · subst shouts
          rfl
        · simp [asks, shouts]

theorem read_of_not_begins (solid : line.trim ≠ []) (other : ¬ Begins line) :
    read line = .evaluate line.trim := by
  simp only [Begins, words, List.mem_cons, List.not_mem_nil, or_false, not_or] at other
  obtain ⟨asks, steps, help, exit, ends⟩ := other
  rw [read_eq solid, if_neg asks, if_neg steps, if_neg help, if_neg exit, if_neg ends]

theorem leadingWord_of_asks (asks : line.trim.head? = some '?') : leadingWord line = [] := by
  obtain ⟨rest, whole⟩ := List.head?_eq_some_iff.mp asks
  unfold leadingWord
  rw [whole]
  rfl

/-- What a line that begins like a command is read as. -/
theorem read_of_begins (begins : Begins line) :
    (leadingWord line ∉ lastWords ∧ ((∃ choice, read line = .steps choice) ∨ read line = .help)) ∨
    (leadingWord line ∈ lastWords ∧ (read line = .leave ∨ read line = .endOfInput)) := by
  have solid : line.trim ≠ [] := by
    intro blank
    have begins : none = some '?' ∨ [] ∈ words := by simpa [Begins, leadingWord, blank] using begins
    revert begins
    decide
  rw [read_eq solid]
  by_cases asks : line.trim.head? = some '?'
  · rw [if_pos asks, leadingWord_of_asks asks]
    exact .inl ⟨by decide, .inr rfl⟩
  · have word : leadingWord line ∈ words := begins.resolve_left asks
    rw [if_neg asks]
    simp only [words, List.mem_cons, List.not_mem_nil, or_false] at word
    rcases word with word | word | word | word <;> rw [word]
    · exact .inl ⟨by decide, .inl ⟨_, rfl⟩⟩
    · exact .inl ⟨by decide, .inr rfl⟩
    · exact .inr ⟨by decide, .inl rfl⟩
    · exact .inr ⟨by decide, .inr rfl⟩

end Command

namespace Shell

variable {shell : Shell} {line : Text}

/-- What a shell does with a line that goes on with what is pending. -/
def goOn (line : Text) (shell : Shell) : Response :=
  let expression := continued shell.pending line
  let next := { shell with
    pending := outstanding expression
    prompt := if isOpen expression then .secondary else .primary
    lineNumber := shell.lineNumber + 1 }
  match finished expression with
  | none => ⟨[], next, .proceeds, false⟩
  | some expression =>
      let (out, next, sequel) := next.submit expression
      ⟨out, next, sequel, false⟩

/-- A shell after lines of any kind. -/
def respondAll (lines : List Text) (shell : Shell) : Shell :=
  lines.foldl (fun shell line => (shell.respond line).shell) shell

/-- Whether a shell can be found like this between two lines. -/
def Reached (shell : Shell) : Prop :=
  ∃ session lines, shell = (ofSession session).respondAll lines

/-- What is always so between two lines: the second prompt is shown if an expression is pending, and
what is pending has been cut out of lines. -/
structure Poised (shell : Shell) : Prop where
  prompt : shell.prompt = .secondary ↔ shell.pending ≠ []
  known : ∃ earlier, shell.pending = content earlier

/-! ## One line -/

theorem poised_evaluate (line : Text) (shell : Shell) : (shell.evaluate line).2.1.Poised := by
  rw [evaluate_eq, takeUp_eq]
  constructor
  · rw [withSession]
    simp [outstanding_ne_nil_iff]
  · rw [withSession, outstanding]
    split
    · exact ⟨_, rfl⟩
    · exact ⟨[], rfl⟩

/-- A shell in which it has been chosen whether steps are left out. -/
def withQuiet (quiet : Bool) (shell : Shell) : Shell :=
  shell.withSession { shell.session with options := { shell.session.options with quiet } }

theorem exists_chooseSteps_eq (choice : Text) (shell : Shell) :
    ∃ quiet, (shell.chooseSteps choice).2 = shell.withQuiet quiet := by
  unfold chooseSteps
  split
  · exact ⟨shell.session.options.quiet, rfl⟩
  · exact ⟨_, rfl⟩

/-- A command changes nothing in a shell but whether steps are left out. -/
theorem respond_of_begins (begins : Command.Begins line) (shell : Shell) :
    (∃ quiet, (shell.respond line).shell = shell.withQuiet quiet) ∧
    ((shell.respond line).leaves = true ↔ Command.leadingWord line ∈ Command.lastWords) := by
  have same : shell = shell.withQuiet shell.session.options.quiet := rfl
  unfold respond
  rcases Command.read_of_begins begins with ⟨stays, isSteps | isHelp⟩ | ⟨leaves, isExit | isEnd⟩
  · obtain ⟨choice, isSteps⟩ := isSteps
    rw [isSteps]
    exact ⟨exists_chooseSteps_eq choice shell, by simp [stays]⟩
  · rw [isHelp]
    exact ⟨⟨_, same⟩, by simp [stays]⟩
  · rw [isExit]
    exact ⟨⟨_, same⟩, by simp [leaves]⟩
  · rw [isEnd]
    exact ⟨⟨_, same⟩, by simp [leaves]⟩

theorem respond_of_not_begins (poised : shell.Poised) (solid : line.trim ≠ [])
    (other : ¬ Command.Begins line) : shell.respond line = shell.goOn line := by
  unfold respond goOn evaluate
  rw [Command.read_of_not_begins solid other]
  simp only [takeUp_eq, assembled_trim poised.known]
  cases finished (continued shell.pending line) <;> rfl

theorem lineNumber_goOn (line : Text) (shell : Shell) :
    (shell.goOn line).shell.lineNumber = shell.lineNumber + 1 := by
  unfold goOn
  simp only
  cases finished (continued shell.pending line) with
  | none => rfl
  | some expression =>
      simp only [submit_eq_withSession]
      rfl

theorem respond_eq_goOn_iff (poised : shell.Poised) (solid : line.trim ≠ []) :
    shell.respond line = shell.goOn line ↔ ¬ Command.Begins line := by
  constructor
  · intro same begins
    -- A command may leave out the steps of later lines, but it never counts its own line.
    obtain ⟨⟨quiet, kept⟩, -⟩ := respond_of_begins begins shell
    have numbers := lineNumber_goOn line shell
    rw [← same, kept] at numbers
    simp [withQuiet, withSession] at numbers
  · exact respond_of_not_begins poised solid

theorem Poised.respond (poised : shell.Poised) (line : Text) : (shell.respond line).shell.Poised := by
  by_cases begins : Command.Begins line
  · obtain ⟨⟨quiet, kept⟩, -⟩ := respond_of_begins begins shell
    rw [kept]
    exact ⟨poised.prompt, poised.known⟩
  · by_cases blank : line.trim = []
    · unfold Shell.respond
      rw [Command.read_blank blank]
      exact poised
    · unfold Shell.respond
      rw [Command.read_of_not_begins blank begins]
      exact poised_evaluate line.trim shell

theorem Reached.poised (reached : shell.Reached) : shell.Poised := by
  obtain ⟨session, lines, rfl⟩ := reached
  have start : (ofSession session).Poised := ⟨by simp [ofSession], [], rfl⟩
  generalize ofSession session = shell at start
  induction lines generalizing shell with
  | nil => exact start
  | cons line rest ih => exact ih _ (start.respond line)

/-- While an expression is pending, the second prompt is shown.  The next line goes on with it, as it
would in a source file, exactly if it does not begin like a command.  If it does, the expression
stays pending as if there had been no line: nothing changes but whether steps are shown, and the
shell is left at the words for that. -/
theorem goes_on_unless_command (reached : shell.Reached) (waiting : shell.pending ≠ [])
    (solid : line.trim ≠ []) :
    shell.prompt = .secondary ∧
    (shell.respond line = shell.goOn line ↔ ¬ Command.Begins line) ∧
    (Command.Begins line →
      (∃ quiet, (shell.respond line).shell = shell.withQuiet quiet) ∧
      ((shell.respond line).leaves = true ↔ Command.leadingWord line ∈ Command.lastWords)) :=
  ⟨reached.poised.prompt.mpr waiting, respond_eq_goOn_iff reached.poised solid,
    fun begins => respond_of_begins begins shell⟩

/-- A shell on the command line after some lines. -/
def commandLineAfter (lines : List Text) : Shell :=
  (ofSession (.create (.ofFatal true) Session.commandLinePath true .standard .standard
    .standard)).respondAll lines

theorem reached_commandLineAfter (lines : List Text) : (commandLineAfter lines).Reached :=
  ⟨_, lines, rfl⟩

/-- A word that only begins like that of a command. -/
theorem goes_on_unless_command_exits :
    (commandLineAfter ["steps off", "(λx.(x"]).pending ≠ [] ∧ Text.trim " exits) y) " ≠ [] ∧
    (commandLineAfter ["steps off", "(λx.(x"]).prompt = .secondary ∧
    (commandLineAfter ["steps off", "(λx.(x"]).respond " exits) y) " =
      (commandLineAfter ["steps off", "(λx.(x"]).goOn " exits) y) " := by
  have waiting : (commandLineAfter ["steps off", "(λx.(x"]).pending ≠ [] := by decide +kernel
  have solid : Text.trim " exits) y) " ≠ [] := by decide
  have goesOn := goes_on_unless_command (reached_commandLineAfter _) waiting solid
  exact ⟨waiting, solid, goesOn.1, goesOn.2.1.mpr (by decide)⟩

/-- The argument of `(x steps)` on a line of its own. -/
theorem not_always_going_on :
    ¬ ∀ (shell : Shell) (line : Text), shell.Reached → shell.pending ≠ [] → line.trim ≠ [] →
      shell.respond line = shell.goOn line := by
  intro always
  have reached := reached_commandLineAfter ["(x"]
  have waiting : (commandLineAfter ["(x"]).pending ≠ [] := by decide +kernel
  have solid : Text.trim "steps)" ≠ [] := by decide
  have same := always _ "steps)" reached waiting solid
  exact (respond_eq_goOn_iff reached.poised solid).mp same (by decide)

end Shell

end BetaNormal
