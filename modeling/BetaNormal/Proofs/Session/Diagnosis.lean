import BetaNormal.Proofs.Session.Run
import BetaNormal.Proofs.Spelling.Fault

/-!
# Pointing at a mistake

An expression that is not a term is reported with the text that was read for it, after abbreviations
have been written out, and with the place in that text up to which it could still have become one.  The
console shows the text as it is, with the one character at that place in colour, and points at it from
the line below.
-/

namespace BetaNormal

namespace Text

/-! ## Positions from the front -/

theorem place_natCast (text : Text) (position : Nat) :
    text.place position = min position text.length := by
  rw [place, if_neg (by omega), Int.toNat_natCast]

theorem before_natCast (text : Text) (position : Nat) :
    text.before position = text.take position := by
  rw [before, place_natCast]
  exact List.take_eq_take_min.symm

theorem since_natCast (text : Text) (position : Nat) :
    text.since position = text.drop position := by
  rw [since, place_natCast, List.drop_eq_drop_iff, Nat.min_assoc, Nat.min_self]

theorem between_natCast (text : Text) (start stop : Nat) :
    text.between start stop = (text.take stop).drop start := by
  have front : text.take (text.place stop) = text.take stop := before_natCast text stop
  rw [between, front, place_natCast, List.drop_eq_drop_iff, List.length_take]
  omega

/-- A text with its character at a position in some style, if there is one there, and a pointer in the
same style under it. -/
def pointedAt (style : Text → Text) (text : Text) (position : Nat) : Text :=
  [' ', ' '] ++ text.take position ++ style text[position]?.toList ++ text.drop (position + 1) ++ ['\n']
    ++ [' ', ' '] ++ List.replicate position ' ' ++ style ['^']

/-- Without a style the text is shown as it is. -/
theorem pointedAt_id (text : Text) (position : Nat) :
    pointedAt id text position =
      [' ', ' '] ++ text ++ ['\n'] ++ [' ', ' '] ++ List.replicate position ' ' ++ ['^'] := by
  have whole : text.take position ++ text[position]?.toList ++ text.drop (position + 1) = text := by
    rw [← List.take_add_one, List.take_append_drop]
  conv_rhs => rw [← whole]
  simp [pointedAt]

end Text

open Text

theorem Report.diagnosis_eq (report : Report) (colour : Colour) : report.diagnosis colour =
    [' ', ' '] ++ report.subject.before report.start
      ++ coloured colour (report.subject.between report.start report.shownStop)
      ++ report.subject.since report.shownStop ++ ['\n']
      ++ [' ', ' '] ++ run report.start ' '
      ++ coloured colour ('^' :: run (report.shownStop - report.start - 1) '~') := rfl

theorem Report.diagnosis_malformed (pieces : List Piece) (subject : Text) (position : Nat)
    (colour : Colour) :
    (malformed pieces subject position).diagnosis colour =
      pointedAt (coloured colour) subject position := by
  have stop : (malformed pieces subject position).shownStop = ((position + 1 : Nat) : Int) :=
    shownStop_malformed pieces subject position
  have start : (malformed pieces subject position).start = position := rfl
  have isSubject : (malformed pieces subject position).subject = subject := rfl
  have single : ((position + 1 : Nat) : Int) - position - 1 = 0 := by omega
  have character : (subject.take (position + 1)).drop position = subject[position]?.toList := by
    rw [List.drop_take, Nat.add_sub_cancel_left, List.take_one, List.head?_drop]
  rw [diagnosis_eq, stop, start, isSubject, single, before_natCast, between_natCast, since_natCast,
    character]
  rfl

/-- What a console writes about a malformed text ends with the text and a pointer, if there is any. -/
theorem Console.conclude_malformed (pieces : List Piece) {subject : Text} {position : Nat}
    (within : position ≤ subject.length) (console : Console) :
    (console.conclude (.failed (.reported (.malformed pieces subject position)))).1 =
      (console.error { Report.malformed pieces subject position with diagnosed := false }).1 ++
        if subject = [] then [] else pointedAt (coloured .red) subject position ++ ['\n'] := by
  have written := (throw_fst _ console).trans
    (error_fst (Report.writable_malformed pieces within) console)
  rw [Report.diagnosis_malformed] at written
  refine written.trans (congrArg _ ?_)
  cases subject with
  | nil => rfl
  | cons char subject => rfl

namespace Term

/-- A text that is refused, and not for nesting too deep, is cut by the position of the fault into what
could still have become a term and what cannot go on with it. -/
theorem exists_cutAtFault {text : Text} {fault : ParseFault} (refused : parse text = .error fault)
    (shallow : fault.cause ≠ .tooDeep) :
    ∃ front rest, text = front ++ rest ∧ fault.position = front.length ∧ CutAtFault front rest := by
  obtain ⟨front, rest, split, -, isPosition, fails | ⟨-, cut⟩⟩ := exists_of_refused refused
  · exact ⟨front, rest, split, isPosition, fails.cutAtFault shallow⟩
  · exact ⟨front, rest, split, isPosition, cut⟩

end Term

namespace Session

variable {session : Session} {expression : Text} {line : Int} {report : Report}

theorem exists_fault_of_add (rejects : (session.add expression line).1 = .error report) :
    ∃ fault, Term.parse (textRead session.options.abbreviations expression) = .error fault ∧
      report = rejection expression fault := by
  rw [add] at rejects
  split at rejects
  case h_1 given fails =>
    cases rejects
    exact exists_fault_of_readExpression fails
  case h_2 => cases rejects

/-- An expression that is not a term is reported with the text that was read and, unless that nests too
deep, with the length up to which it could still have become one.  A console shows this text as it is,
with the character at that place in colour and a pointer under it. -/
theorem rejected_is_pointed_out (rejects : (session.add expression line).1 = .error report) :
    ∃ text fault, text = textRead session.options.abbreviations expression ∧
      Term.parse text = .error fault ∧ report.kind = .malformed fault.position ∧
      report.subject = text ∧ report.start = fault.position ∧
      (fault.cause ≠ .tooDeep → fault.position ≤ text.length ∧
        ∀ count ≤ text.length, Term.Completable (text.take count) ↔ count ≤ fault.position) ∧
      (∀ console : Console, (console.conclude (.failed (.reported report))).1 =
        (console.error { report with diagnosed := false }).1 ++
          if text = [] then [] else pointedAt (coloured .red) text fault.position ++ ['\n']) ∧
      pointedAt id text fault.position =
        [' ', ' '] ++ text ++ ['\n'] ++ [' ', ' '] ++ List.replicate fault.position ' ' ++ ['^'] := by
  obtain ⟨fault, refused, rfl⟩ := exists_fault_of_add rejects
  obtain ⟨-, -, -, isText, -⟩ := Term.exists_of_refused refused
  obtain ⟨pieces, isMalformed⟩ := exists_rejection_eq expression fault
  have within : fault.position ≤ fault.text.length := Term.position_le_of_parse refused
  rw [isMalformed, isText]
  rw [isText] at within
  refine ⟨_, fault, rfl, refused, rfl, rfl, rfl, fun shallow => ⟨within, ?_⟩,
    Console.conclude_malformed pieces within, pointedAt_id _ _⟩
  obtain ⟨front, rest, split, isPosition, cut⟩ := Term.exists_cutAtFault refused shallow
  rw [split, isPosition]
  exact fun count within => cut.completable_take_iff within

/-- What comes of `TRUE` in parentheses, with nothing to apply it to. -/
def constantRefused : Except Report Unit :=
  ((create (.ofFatal true) commandLinePath true .standard .standard .standard).add "(TRUE)" 1).1

/-- The report shows what stands for `TRUE`, with the closing parenthesis in colour. -/
theorem rejected_is_pointed_out_expanded :
    ∃ report, constantRefused = .error report ∧ report.start = 11 ∧
      Term.Completable "(λx8.λy8.x8" ∧ ¬ Term.Completable "(λx8.λy8.x8)" ∧
      ∀ console : Console, (console.conclude (.failed (.reported report))).1 =
        (console.error { report with diagnosed := false }).1 ++ ("  (λx8.λy8.x8" ++
          coloured .red ")" ++ "\n" ++ "             " ++ coloured .red "^" ++ "\n") := by
  have rejects : constantRefused =
      .error (rejection "(TRUE)" ⟨"(λx8.λy8.x8)", .notTerm ')', 11⟩) := by decide +kernel
  have reads : textRead true "(TRUE)" = "(λx8.λy8.x8)" := by decide +kernel
  have refused : Term.parse "(λx8.λy8.x8)" = .error ⟨"(λx8.λy8.x8)", .notTerm ')', 11⟩ := by
    decide +kernel
  have pointed : pointedAt (coloured .red) "(λx8.λy8.x8)" 11 ++ ['\n'] = "  (λx8.λy8.x8" ++
      coloured .red ")" ++ "\n" ++ "             " ++ coloured .red "^" ++ "\n" := by decide +kernel
  obtain ⟨text, fault, isRead, parsed, -, -, isStart, longest, shown, -⟩ :=
    rejected_is_pointed_out rejects
  obtain rfl := isRead.trans reads
  obtain rfl := Except.error.inj (refused.symm.trans parsed)
  obtain ⟨-, longest⟩ := longest (by simp)
  have front : Term.Completable "(λx8.λy8.x8" := (longest 11 (by decide)).mpr (by decide)
  have whole : ¬ Term.Completable "(λx8.λy8.x8)" := fun completable =>
    absurd ((longest 12 (by decide)).mp completable) (by decide)
  refine ⟨_, rejects, isStart, front, whole, fun console => ?_⟩
  rw [shown console, if_neg (by decide), pointed]

end Session

end BetaNormal
