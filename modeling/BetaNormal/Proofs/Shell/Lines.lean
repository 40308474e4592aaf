import BetaNormal.Proofs.Source.Reading
import BetaNormal.Shell

/-!
# Expressions on lines of a shell

A shell and a source file read the same expressions from the same lines, though the shell joins raw
lines to what is pending and the file joins what the lines hold.  What a session does with the
expressions has no influence on that.
-/

namespace BetaNormal

namespace Session

/-- A session after an expression on a line of a shell has been submitted to it. -/
def submitted (session : Session) (expression : Text) (line : Nat) : Session :=
  (Shell.submit expression ⟨session, [], .primary, line⟩).2.1.session

end Session

namespace Shell

open Source

variable {shell : Shell} {line : Text} {number : Int} {listing : Listing}

/-- A shell after lines that are not commands. -/
def evaluateAll (lines : List Text) (shell : Shell) : Shell :=
  lines.foldl (fun shell line => (shell.evaluate line).2.1) shell

/-- The expressions that a shell submits to its session while it evaluates lines, each with the number
of the line on which it is complete. -/
def submissions : List Text → Shell → List (Text × Nat)
  | [], _ => []
  | line :: rest, shell =>
      ((shell.takeUp line).2.map fun expression =>
          (expression, (shell.takeUp line).1.lineNumber)).toList
        ++ submissions rest (shell.evaluate line).2.1

/-! ## One line -/

/-- What is known of an expression once a shell has taken up a further line. -/
def assembled (shell : Shell) (line : Text) : Text :=
  content (if shell.pending = [] then line else shell.pending ++ ' ' :: line)

/-- A line either leaves an expression pending under the second prompt, or it completes at most one
under the first prompt. -/
theorem takeUp_eq (line : Text) (shell : Shell) :
    shell.takeUp line =
      ({ shell with
          pending := outstanding (shell.assembled line)
          prompt := if isOpen (shell.assembled line) then .secondary else .primary
          lineNumber := shell.lineNumber + 1 },
        finished (shell.assembled line)) := by
  have whole : content (if shell.pending = [] then line else shell.pending ++ ' ' :: line) =
      shell.assembled line := rfl
  simp only [takeUp, whole, outstanding, finished]
  cases isOpen (shell.assembled line) with
  | true => simp
  | false => by_cases none : shell.assembled line = [] <;> simp [none]

theorem submit_eq_withSession (expression : Text) (shell : Shell) :
    (shell.submit expression).2.1 =
      shell.withSession (shell.session.submitted expression shell.lineNumber) := by
  rw [Session.submitted, submit, submit]
  cases shell.session.add expression shell.lineNumber with
  | mk outcome session =>
      cases outcome with
      | error report => rfl
      | ok _ =>
          simp only
          split <;> rfl

/-- A shell after a line: what is pending depends on the lines only, and the session has had the
expression that the line completes, if any. -/
theorem evaluate_eq (line : Text) (shell : Shell) :
    (shell.evaluate line).2.1 =
      (shell.takeUp line).1.withSession
        ((finished (shell.assembled line)).elim shell.session fun expression =>
          shell.session.submitted expression (shell.lineNumber + 1)) := by
  rw [evaluate, takeUp_eq]
  cases finished (shell.assembled line) with
  | none => rfl
  | some expression => exact submit_eq_withSession expression _

/-! ## All lines -/

theorem assembled_trim (known : ∃ earlier, shell.pending = content earlier) (line : Text) :
    shell.assembled line.trim = continued shell.pending line := by
  obtain ⟨earlier, whole⟩ := known
  rw [assembled]
  split
  case isTrue none => rw [none, content_trim, continued_nil]
  case isFalse given =>
    rw [whole] at given ⊢
    exact content_append_trim given line

/-- The session has had the expressions that are submitted, and nothing else. -/
theorem session_evaluateAll (lines : List Text) (shell : Shell) :
    (shell.evaluateAll lines).session =
      (shell.submissions lines).foldl
        (fun session submission => session.submitted submission.1 submission.2) shell.session := by
  induction lines generalizing shell with
  | nil => rfl
  | cons line rest ih =>
      rw [evaluateAll, List.foldl_cons, submissions, List.foldl_append]
      refine (ih _).trans (congrArg (List.foldl _ · _) ?_)
      rw [evaluate_eq, takeUp_eq]
      cases finished (shell.assembled line) <;> rfl

theorem exists_takeLines_of_submissions (known : ∃ earlier, shell.pending = content earlier)
    (agrees : shell.pending = listing.pending) (valid : listing.Valid number)
    (lines : List Text) :
    ∃ read, takeLines number lines listing = .ok read ∧
      read.closed.map Entry.text = listing.closed.map Entry.text ++
        (shell.submissions (Text.solidLines lines)).map Prod.fst ∧
      (shell.evaluateAll (Text.solidLines lines)).pending = read.pending := by
  induction lines generalizing shell listing number with
  | nil => exact ⟨listing, rfl, by simp [Text.solidLines, submissions], agrees⟩
  | cons line rest ih =>
      obtain ⟨entries, taken, validNext, pendingNext, closedNext⟩ := exists_takeLine_eq valid line
      rw [takeLines, taken]
      simp only
      by_cases blank : line.trim = []
      · -- the file reads a blank line as well, and finds what was pending
        have nothing : content line = [] := by
          rw [← content_trim, blank]
          rfl
        rw [continued_blank nothing] at pendingNext closedNext validNext ⊢
        have same : outstanding listing.pending = listing.pending ∧
            finished listing.pending = none := by
          rcases valid.pending_cases with none | opens
          · simp [none, outstanding, finished]
          · simp [opens, outstanding, finished]
        rw [same.1] at pendingNext
        rw [same.2, Option.toList_none, List.append_nil] at closedNext
        obtain ⟨read, others, closed, pending⟩ := ih known (agrees.trans pendingNext.symm) validNext
        rw [Text.solidLines_cons_blank blank, ← closedNext]
        exact ⟨read, others, closed, pending⟩
      · have assembled := assembled_trim known line
        rw [agrees] at assembled
        rw [Text.solidLines_cons blank, submissions, evaluateAll, List.foldl_cons]
        have pendingShell : (shell.evaluate line.trim).2.1.pending =
            outstanding (continued listing.pending line) := by
          rw [evaluate_eq, takeUp_eq, assembled]
          rfl
        have knownNext : ∃ earlier, (shell.evaluate line.trim).2.1.pending = content earlier := by
          rw [pendingShell, ← assembled, outstanding]
          split
          · exact ⟨_, rfl⟩
          · exact ⟨[], rfl⟩
        obtain ⟨read, others, closed, pending⟩ :=
          ih knownNext (pendingShell.trans pendingNext.symm) validNext
        refine ⟨read, others, ?_, pending⟩
        rw [closed, closedNext, takeUp_eq, assembled]
        cases finished (continued listing.pending line) <;> simp

/-- A shell and a file read the same expressions.  From the lines that a shell is given, without
those that are blank and without the blank space around them, it submits just those expressions to
its session, in order, that are complete in the listing of a file with the same lines, and what is
pending in the end is the last entry of that listing if it is to be continued.  The session of the
shell has had these expressions and no others, whatever it made of them. -/
theorem submits_what_a_file_holds (session : Session) (lines : List Text) :
    ∃ read, takeLines 1 lines ⟨[], false⟩ = .ok read ∧
      ((ofSession session).submissions (Text.solidLines lines)).map Prod.fst =
        read.closed.map Entry.text ∧
      ((ofSession session).evaluateAll (Text.solidLines lines)).pending = read.pending ∧
      ((ofSession session).evaluateAll (Text.solidLines lines)).session =
        ((ofSession session).submissions (Text.solidLines lines)).foldl
          (fun session submission => session.submitted submission.1 submission.2) session := by
  obtain ⟨read, taken, closed, pending⟩ :=
    @exists_takeLines_of_submissions (ofSession session) 1 ⟨[], false⟩ ⟨[], rfl⟩ rfl
      (Listing.valid_nil 1) lines
  exact ⟨read, taken, closed.symm, pending, session_evaluateAll _ _⟩

end Shell

end BetaNormal
