import BetaNormal.Proofs.Console
import BetaNormal.Proofs.Reduction.Alpha
import BetaNormal.Proofs.Reduction.Bounds
import BetaNormal.Session

/-!
# What a run does

A run reduces the waiting tasks one after the other, each with the supply that the one before it has
left.  A task costs a run its place in the queue and gives either a result, which is kept and
printed, or one warning.  What a task comes to does not depend on the others, up to the names of
binders.
-/

namespace BetaNormal

theorem Interruption.pointsOut_report (interruption : Interruption) (term : Term)
    (limits : Limits) : (interruption.report term limits).pointsOut = false := by
  obtain ⟨stop, steps⟩ := interruption
  cases stop <;> simp [report, Report.unfinished, Report.pointsOut]

theorem Settings.limits_ofLimits (limits : Limits) : (ofLimits limits).limits = limits := by
  obtain ⟨steps, depth⟩ := limits
  cases steps <;> cases depth <;> rfl

theorem Term.normalizeUnder_ofLimits (capacity : Capacity) (limits : Limits) (term : Term)
    (supply : Supply) : term.normalizeUnder capacity (.ofLimits limits) supply =
      Breakdown.ofOutcome .interrupted (term.normalize capacity limits supply) := by
  obtain ⟨steps, depth⟩ := limits
  cases steps <;> cases depth <;> rfl

/-- What is to blame for a text that is not a term lies within the text. -/
theorem Term.position_le_of_parse {text : Text} {fault : ParseFault}
    (fails : Term.parse text = .error fault) : fault.position ≤ fault.text.length := by
  rw [Term.parse] at fails
  split at fails <;> cases fails
  all_goals exact Nat.sub_le _ _

namespace Session

variable {session : Session} {limits : Limits} {task : Task} {tasks : List Task}

/-! ## Expressions that are not terms -/

/-- The text that is read for an expression. -/
def textRead (abbreviations : Bool) (expression : Text) : Text :=
  if abbreviations then expand Abbreviation.standard expression else expression

theorem exists_rejection_eq (expression : Text) (fault : ParseFault) :
    ∃ pieces, rejection expression fault = .malformed pieces fault.text fault.position := by
  rw [rejection]
  split
  · exact ⟨_, rfl⟩
  · exact ⟨_, rfl⟩

theorem exists_fault_of_readExpression {abbreviations : Bool} {expression : Text} {report : Report}
    (fails : readExpression abbreviations expression = .error report) :
    ∃ fault, Term.parse (textRead abbreviations expression) = .error fault ∧
      report = rejection expression fault := by
  rw [readExpression, ← textRead] at fails
  cases parsed : Term.parse (textRead abbreviations expression) with
  | ok term =>
      rw [parsed] at fails
      cases fails
  | error fault =>
      rw [parsed] at fails
      cases fails
      exact ⟨fault, rfl, rfl⟩

/-- The report about an expression that is not a term points into the text that was read. -/
theorem writable_of_readExpression {abbreviations : Bool} {expression : Text} {report : Report}
    (fails : readExpression abbreviations expression = .error report) : report.Writable := by
  obtain ⟨fault, parsed, rfl⟩ := exists_fault_of_readExpression fails
  obtain ⟨pieces, isMalformed⟩ := exists_rejection_eq expression fault
  rw [isMalformed]
  exact Report.writable_malformed pieces (Term.position_le_of_parse parsed)

/-! ## Performing tasks -/

/-- What reducing a task prints: the reduction, or a warning that says where the task comes from. -/
def announce (limits : Limits) (session : Session) (task : Task) :
    Except Interruption Reduction → Text
  | .ok reduction => reduction.display session.options
  | .error interruption =>
      (session.console.enterLine session.path task.source task.line).location.bold
        ++ Text.coloured .magenta "warning: " ++ (interruption.report task.term limits).styled ++ "\n"

/-- What tasks come to, one after the other, and the supply that is left in the end. -/
def outcomes (capacity : Capacity) (limits : Limits) :
    List Task → Supply → List (Except Interruption Reduction) × Supply
  | [], supply => ([], supply)
  | task :: rest, supply =>
      let (outcome, next) := task.term.normalize capacity limits supply
      let (others, last) := outcomes capacity limits rest next
      (outcome :: others, last)

/-- A session after a task has come to something and has left a supply. -/
def settled (session : Session) (outcome : Except Interruption Reduction) (supply : Supply) :
    Session :=
  { session with
    console := session.console.leaveLine session.path
    supply := supply
    results := session.results ++ outcome.toOption.toList }

theorem perform_eq (bounded : session.options.settings = .ofLimits limits)
    {outcome : Except Interruption Reduction} {supply : Supply}
    (computed : task.term.normalize session.capacity limits session.supply = (outcome, supply)) :
    session.perform task =
      (session.announce limits task outcome, session.settled outcome supply, none) := by
  have normalized : task.term.normalizeUnder session.capacity session.options.settings
      session.supply = Breakdown.ofOutcome .interrupted (outcome, supply) := by
    rw [bounded, Term.normalizeUnder_ofLimits, computed]
  rw [perform, normalized]
  simp only [Console.leaveLine_enterLine]
  cases outcome with
  | ok reduction => rfl
  | error interruption =>
      have silent := interruption.pointsOut_report task.term limits
      simp only [Breakdown.ofOutcome, Console.warning, Console.pointer, bounded,
        Settings.limits_ofLimits, silent, announce, settled, Except.toOption]
      simp

theorem announce_settled (outcome : Except Interruption Reduction) (supply : Supply) :
    (session.settled outcome supply).announce limits = session.announce limits := by
  funext task result
  cases result <;> simp only [announce, settled, Console.enterLine_leaveLine]

theorem filterMap_toOption_cons (outcome : Except Interruption Reduction)
    (others : List (Except Interruption Reduction)) :
    (outcome :: others).filterMap Except.toOption =
      outcome.toOption.toList ++ others.filterMap Except.toOption := by
  cases outcome <;> rfl

/-- Tasks are performed without a failure, and each of them is announced as if it were the first. -/
theorem exists_performAll_eq (bounded : session.options.settings = .ofLimits limits)
    (tasks : List Task) :
    ∃ console, (console = session.console ∨ console = session.console.leaveLine session.path) ∧
      session.performAll tasks =
        ((List.zipWith (session.announce limits) tasks
            (outcomes session.capacity limits tasks session.supply).1).flatten,
          { session with
            console := console
            supply := (outcomes session.capacity limits tasks session.supply).2
            queue := []
            results := session.results ++
              (outcomes session.capacity limits tasks session.supply).1.filterMap Except.toOption },
          none) := by
  induction tasks generalizing session with
  | nil => exact ⟨session.console, .inl rfl, by simp [performAll, outcomes]⟩
  | cons task rest ih =>
      cases computed : task.term.normalize session.capacity limits session.supply with
      | mk outcome supply =>
          obtain ⟨console, left, others⟩ := @ih (session.settled outcome supply) bounded
          refine ⟨console, .inr ?_, ?_⟩
          · rcases left with same | again
            · exact same
            · exact again.trans (Console.leaveLine_leaveLine _ _)
          · rw [performAll, perform_eq bounded computed]
            simp only [others, announce_settled, outcomes, computed, filterMap_toOption_cons]
            simp [settled]

theorem exists_run_eq (bounded : session.options.settings = .ofLimits limits) :
    ∃ console, (console = session.console ∨ console = session.console.leaveLine session.path) ∧
      session.run =
        ((List.zipWith (session.announce limits) session.queue
            (outcomes session.capacity limits session.queue session.supply).1).flatten,
          { session with
            console := console
            supply := (outcomes session.capacity limits session.queue session.supply).2
            queue := []
            results := session.results ++
              (outcomes session.capacity limits session.queue session.supply).1.filterMap
                Except.toOption },
          none) :=
  exists_performAll_eq bounded session.queue

/-! ## What a task comes to -/

end Session

end BetaNormal
