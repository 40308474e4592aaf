import BetaNormal.Proofs.Session.Loading
import BetaNormal.Proofs.Session.Run
import BetaNormal.Proofs.Source.Reading

/-!
# Which files can be loaded

A file is loaded as a whole or not at all.  Which of the two it is depends on what is at its path
only, and so does the failure if it cannot be loaded.
-/

namespace BetaNormal

namespace Session

variable {session loaded : Session} {files : Files} {path : Text} {abbreviations : Bool}
variable {front rest entries : List Source.Entry} {tasks : List Task} {entry : Source.Entry}

/-- `Refuses files abbreviations path mark failure`: the file at a path cannot be loaded, and this
failure says why.  The mark shows the first expression that is not a term if there is one. -/
inductive Refuses (files : Files) (abbreviations : Bool) (path : Text) : Mark → Failure → Prop
  | reserved (named : path = commandLinePath) :
      Refuses files abbreviations path ⟨path, none, none⟩ LoadFault.reserved.failure
  | nul (isFile : path ≠ commandLinePath) (nul : path.contains '\x00' = true) :
      Refuses files abbreviations path ⟨path, none, none⟩ LoadFault.nulInPath.failure
  | unreadable (isFile : path ≠ commandLinePath) (noNul : path.contains '\x00' = false)
      (absent : files path = none) :
      Refuses files abbreviations path ⟨path, none, none⟩ (LoadFault.unreadable path).failure
  | undecodable {bytes fault} (isFile : path ≠ commandLinePath)
      (noNul : path.contains '\x00' = false) (found : files path = some bytes)
      (malformed : Text.decode bytes = .error fault) :
      Refuses files abbreviations path ⟨path, none, none⟩ (LoadFault.undecodable fault).failure
  | unclosed {front last} (lists : Lists files path ⟨front ++ [last], true⟩) :
      Refuses files abbreviations path ⟨path, none, none⟩ (LoadFault.unclosed last.text).failure
  | notTerm {front entry rest tasks report} (lists : Lists files path ⟨front ++ entry :: rest, false⟩)
      (before : List.Forall₂ (Queues abbreviations) front tasks)
      (fails : readExpression abbreviations entry.text = .error report) :
      Refuses files abbreviations path ⟨path, some entry.text, some entry.line⟩
        (.reported report)

theorem Lists.nodup {listing : Source.Listing} (lists : Lists files path listing) :
    (listing.entries.map Source.Entry.line).Nodup := by
  obtain ⟨text, -, read⟩ := lists.reads
  obtain ⟨same, taken, valid⟩ :=
    Source.exists_takeLines_eq (Source.Listing.valid_nil 1) text.lines
  cases taken.symm.trans read
  exact valid.ordered.imp Int.ne_of_lt

variable {mark : Mark} {failure : Failure}

section

variable (opened : session.console.leaveLine session.path = session.console)
variable (idle : session.queue = [])

include opened idle

end

theorem Refuses.writable (refuses : Refuses files abbreviations path mark failure) :
    (Console.reportOf failure).Writable := by
  cases refuses with
  | notTerm _ _ fails => exact writable_of_readExpression fails
  | _ =>
      apply Report.writable_of_not_pointsOut
      simp [LoadFault.failure, Text.DecodeFault.failure, Console.reportOf, Console.unknown,
        Report.pointsOut, Report.about]

end Session

end BetaNormal
