import BetaNormal.Console

/-!
# The trail of a console

A line that is entered takes the place of the one that was being worked on before, so what a
console shows of a source depends on the last line of it only.  A report that points into its text
can always be written.
-/

namespace BetaNormal

variable {trail : List Mark} {mark other : Mark} {console : Console} {path line : Text}
variable {number : Int} {report : Report}

namespace Mark

theorem record_record (same : mark.path = other.path) (trail : List Mark) :
    record mark (record other trail) = record mark trail := by
  induction trail with
  | nil => simp [record, same]
  | cons first others ih =>
      rw [record, record]
      split
      case isTrue found => rw [record, if_pos same.symm, if_pos (found.trans same.symm)]
      case isFalse absent =>
        have absent' : first.path ≠ mark.path := fun found => absent (found.trans same)
        rw [record, if_neg absent', if_neg absent', ih]

theorem mem_record (occurs : other ∈ record mark trail) : other = mark ∨ other ∈ trail := by
  induction trail with
  | nil => exact .inl (List.mem_singleton.mp occurs)
  | cons first others ih =>
      rw [record] at occurs
      split at occurs
      · exact (List.mem_cons.mp occurs).imp_right (List.mem_cons_of_mem _)
      · rcases List.mem_cons.mp occurs with rfl | later
        · exact .inr List.mem_cons_self
        · exact (ih later).imp_right (List.mem_cons_of_mem _)

end Mark

/-! ## Reports that can be written -/

namespace Report

/-- Whether nothing keeps a report from being written to its end. -/
def Writable (report : Report) : Prop := report.pointsOut = true → report.diagnosisFault = none

theorem writable_of_not_pointsOut (silent : report.pointsOut = false) : report.Writable := by
  intro points
  rw [silent] at points
  contradiction

theorem runFault_of_le {subject : Text} {length : Nat} (le : length ≤ subject.length) :
    subject.runFault length = none := by
  have notNegative : ¬ (length : Int) < -(Text.largestCount : Int) - 1 := by
    have countable : (0 : Int) ≤ Text.largestCount := Int.natCast_nonneg _
    omega
  rw [Text.runFault, if_neg notNegative, if_pos (Int.ofNat_le.mpr le)]

/-- One character is to blame. -/
theorem shownStop_malformed (pieces : List Piece) (subject : Text) (position : Nat) :
    (malformed pieces subject position).shownStop = (position : Int) + 1 := by
  have notEnd : ¬ (position : Int) + 1 = -1 := by omega
  simp only [shownStop, malformed, stopIn, if_neg notEnd, Int.max_self]

/-- The space in front of the pointer is no longer than the text, and the pointer is one sign. -/
theorem writable_malformed (pieces : List Piece) {subject : Text} {position : Nat}
    (le : position ≤ subject.length) : (malformed pieces subject position).Writable := by
  intro _
  have pointer : (malformed pieces subject position).shownStop -
      (malformed pieces subject position).start - 1 = (0 : Nat) := by
    rw [shownStop_malformed]
    simp only [malformed]
    omega
  rw [diagnosisFault, pointer]
  exact (congrArg (Option.orElse · _) (runFault_of_le le)).trans
    (runFault_of_le (Nat.zero_le _))

end Report

namespace Console

theorem pointer_snd (writable : report.Writable) (colour : Text.Colour) :
    (pointer report colour).2 = none := by
  cases points : report.pointsOut with
  | false => simp [pointer, points]
  | true => simp [pointer, points, writable points]

theorem error_snd (writable : report.Writable) (console : Console) :
    (console.error report).2 = none := pointer_snd writable .red

/-- What points into the text comes last in an error. -/
theorem error_fst (writable : report.Writable) (console : Console) :
    (console.error report).1 = (console.error { report with diagnosed := false }).1 ++
      if report.pointsOut then report.diagnosis .red ++ ['\n'] else [] := by
  have silent : (pointer { report with diagnosed := false } .red).1 = [] := by
    simp [pointer, Report.pointsOut]
  have points : (pointer report .red).1 =
      if report.pointsOut then report.diagnosis .red ++ ['\n'] else [] := by
    rw [pointer]
    split
    case isTrue points =>
      rw [writable points]
      rfl
    case isFalse => rfl
  simp only [error, silent, points, List.append_nil, Report.styled]

theorem throw_fst (report : Report) (console : Console) :
    (console.throw report).1 = (console.error report).1 := by
  rw [throw]
  split
  case h_1 failed => rw [failed]
  case h_2 wrote =>
    rw [wrote]
    split <;> rfl

theorem throw_of_not_fatal (writable : report.Writable) (fatal : console.fatal = false) :
    console.throw report = ((console.error report).1, console.cleared, .proceeds) := by
  have written := error_snd writable console
  rw [throw]
  split
  case h_1 failed =>
    rw [failed] at written
    contradiction
  case h_2 out wrote => rw [if_neg (by simp [fatal]), wrote]

/-- The report that is made of a failure. -/
def reportOf : Failure → Report
  | .reported report => report
  | .unforeseen category text => unknown category text

theorem enterLine_leaveLine (path line : Text) (number : Int) (console : Console) :
    (console.leaveLine path).enterLine path line number = console.enterLine path line number := by
  simp only [enterLine, leaveLine, Mark.record_record]

theorem leaveLine_enterLine (path line : Text) (number : Int) (console : Console) :
    (console.enterLine path line number).leaveLine path = console.leaveLine path := by
  simp only [enterLine, leaveLine, Mark.record_record]

theorem leaveLine_leaveLine (path : Text) (console : Console) :
    (console.leaveLine path).leaveLine path = console.leaveLine path := by
  simp only [leaveLine, Mark.record_record]

/-- Whether no line of any source is being worked on. -/
def Idle (console : Console) : Prop :=
  ∀ mark ∈ console.trail, mark.line = none ∧ mark.number = none

theorem Idle.leaveLine (idle : console.Idle) (path : Text) : (console.leaveLine path).Idle := by
  intro mark occurs
  rcases Mark.mem_record occurs with rfl | earlier
  · exact ⟨rfl, rfl⟩
  · exact idle mark earlier

theorem Idle.leaveLine_enterLine (idle : console.Idle) (path line : Text) (number : Int) :
    ((console.enterLine path line number).leaveLine path).Idle := by
  rw [Console.leaveLine_enterLine]
  exact idle.leaveLine path

theorem idle_cleared (console : Console) : console.cleared.Idle := by
  intro mark occurs
  obtain ⟨earlier, -, rfl⟩ := List.mem_map.mp occurs
  exact ⟨rfl, rfl⟩

end Console

end BetaNormal
