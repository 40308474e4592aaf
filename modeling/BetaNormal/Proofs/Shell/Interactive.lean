import BetaNormal.Proofs.Reduction.Bounds
import BetaNormal.Proofs.Session.Run
import BetaNormal.Proofs.Shell.Lines

/-!
# An interactive session goes on

Between two lines a shell is always in the same situation: nothing waits to be reduced, the console
shows no line, and what is pending is open.  Each line leads from there to there again, whether it
is completed, rejected, reduced or given up.
-/

namespace BetaNormal

open Source

variable {limits : Limits}

namespace Session

variable {session : Session}

/-- What an expression comes to in a session if it is that of a term. -/
def answer (limits : Limits) (expression : Text) (session : Session) :
    Option (Except Interruption Reduction) :=
  (readExpression session.options.abbreviations expression).toOption.map fun term =>
    (term.normalize session.capacity limits session.supply).1

/-- How a session on the command line is found between two lines. -/
structure Waits (limits : Limits) (session : Session) : Prop where
  lenient : session.console.fatal = false
  idle : session.console.Idle
  emptied : session.queue = []
  bounded : session.options.settings = .ofLimits limits

end Session

namespace Shell

variable {shell : Shell}

/-- An expression that is submitted costs a report or comes to something.  Either way the session
waits again. -/
theorem exists_submit_eq (waits : shell.session.Waits limits) (expression : Text) :
    ∃ out session, shell.submit expression = (out, shell.withSession session, .proceeds) ∧
      session.Waits limits ∧ session.capacity = shell.session.capacity ∧
      session.results = shell.session.results ++
        ((shell.session.answer limits expression).bind Except.toOption).toList := by
  obtain ⟨lenient, idle, emptied, bounded⟩ := waits
  let entered :=
    shell.session.console.enterLine shell.session.path expression shell.lineNumber
  rw [submit, Session.add, Session.answer]
  cases read : Session.readExpression shell.session.options.abbreviations expression with
  | error report =>
      have writable := Session.writable_of_readExpression read
      have thrown : entered.throw report =
          ((entered.error report).1, entered.cleared, .proceeds) :=
        Console.throw_of_not_fatal writable lenient
      simp only [Console.conclude]
      rw [thrown]
      exact ⟨_, _, rfl, ⟨lenient, Console.idle_cleared _, emptied, bounded⟩, rfl, by
        simp [Except.toOption]⟩
  | ok term =>
      let task : Task := ⟨shell.lineNumber, expression, term⟩
      let added : Session :=
        { shell.session with
          console := entered.leaveLine shell.session.path
          queue := [task] }
      have idleAdded : added.console.Idle := idle.leaveLine_enterLine _ _ _
      have boundedAdded : added.options.settings = .ofLimits limits := bounded
      obtain ⟨console, left, performed⟩ := Session.exists_run_eq boundedAdded
      simp only [emptied, Task.enqueue]
      rw [performed]
      refine ⟨_, _, rfl, ⟨?_, ?_, rfl, bounded⟩, rfl, ?_⟩
      · rcases left with rfl | rfl <;> exact lenient
      · rcases left with rfl | rfl
        · exact idleAdded
        · exact idleAdded.leaveLine _
      · simp only [added, task, Session.outcomes, Session.filterMap_toOption_cons]
        simp [Except.toOption]

/-- How a shell is found between two lines. -/
structure Waits (limits : Limits) (shell : Shell) : Prop where
  session : shell.session.Waits limits
  prompt : shell.prompt = .secondary ↔ shell.pending ≠ []
  pending : shell.pending ≠ [] ↔ shell.pending.count ')' < shell.pending.count '('

theorem waits_takeUp (waits : shell.session.Waits limits) (line : Text) :
    (shell.takeUp line).1.Waits limits := by
  rw [takeUp_eq]
  generalize shell.assembled line = expression
  refine ⟨waits, by simp [outstanding_ne_nil_iff], ?_⟩
  rw [outstanding_ne_nil_iff]
  cases opens : isOpen expression with
  | false => simp [outstanding, opens]
  | true =>
      have more : expression.count ')' < expression.count '(' := by simpa [isOpen] using opens
      simp [outstanding, opens, more]

/-- What a line comes to if it completes an expression and that is one of a term. -/
def answer (limits : Limits) (line : Text) (shell : Shell) :
    Option (Except Interruption Reduction) :=
  (shell.takeUp line).2.bind fun expression => shell.session.answer limits expression

theorem Waits.exists_evaluate_eq (waits : shell.Waits limits) (line : Text) :
    ∃ out next, shell.evaluate line = (out, next, .proceeds) ∧ next.Waits limits ∧
      next.session.capacity = shell.session.capacity ∧
      next.session.results = shell.session.results ++
        ((shell.answer limits line).bind Except.toOption).toList := by
  have taken := waits_takeUp waits.session line
  have same : (shell.takeUp line).1.session = shell.session := by rw [takeUp_eq]
  rw [evaluate, answer]
  cases took : shell.takeUp line with
  | mk after completed =>
      rw [took] at taken same
      simp only at taken same
      cases completed with
      | none => exact ⟨_, _, rfl, taken, congrArg _ same, by simp [same]⟩
      | some expression =>
          obtain ⟨out, session, submitted, waitsAgain, capacity, results⟩ :=
            exists_submit_eq taken.session expression
          rw [same] at capacity results
          exact ⟨_, _, submitted, ⟨waitsAgain, taken.prompt, taken.pending⟩, capacity, results⟩

theorem Waits.evaluateAll (waits : shell.Waits limits) (lines : List Text) :
    (shell.evaluateAll lines).Waits limits ∧
      (shell.evaluateAll lines).session.capacity = shell.session.capacity := by
  induction lines generalizing shell with
  | nil => exact ⟨waits, rfl⟩
  | cons line rest ih =>
      obtain ⟨out, next, evaluated, waitsNext, capacity, -⟩ := waits.exists_evaluate_eq line
      have last : shell.evaluateAll (line :: rest) = next.evaluateAll rest := by
        rw [Shell.evaluateAll, Shell.evaluateAll, List.foldl_cons, evaluated]
      obtain ⟨waitsLast, capacityLast⟩ := ih waitsNext
      rw [last]
      exact ⟨waitsLast, capacityLast.trans capacity⟩

end Shell

end BetaNormal
