import BetaNormal.Main
import BetaNormal.Operand
import BetaNormal.Program
import BetaNormal.Term.Inventory
import BetaNormal.Term.Outline
import BetaNormal.Proofs.Reduction.Completeness
import BetaNormal.Proofs.Reduction.Order
import BetaNormal.Proofs.Name.Given
import BetaNormal.Proofs.Reduction.Alpha
import BetaNormal.Proofs.Reduction.Fixed
import BetaNormal.Proofs.Reduction.Hygiene
import BetaNormal.Proofs.Reduction.Unique
import BetaNormal.Proofs.Parser
import BetaNormal.Proofs.Session.Feedback
import BetaNormal.Proofs.Console
import BetaNormal.Proofs.Session.Run
import BetaNormal.Proofs.Session.Queue
import BetaNormal.Proofs.Shell.Lines
import BetaNormal.Proofs.Shell.Interactive
import BetaNormal.Proofs.Program.File
import BetaNormal.Proofs.Alpha.Equivalence
import BetaNormal.Proofs.Substitution.Laws
import BetaNormal.Proofs.Substitution.Apart
import BetaNormal.Proofs.Alpha.Conversion
import BetaNormal.Proofs.Reduction.Free
import BetaNormal.Proofs.Reduction.Limits
import BetaNormal.Proofs.Spelling.Fault
import BetaNormal.Proofs.Substitution.Ending
import BetaNormal.Proofs.Reduction.Ending
import BetaNormal.Proofs.Reduction.Arguments
import BetaNormal.Proofs.Abbreviation.Complete
import BetaNormal.Proofs.Abbreviation.OnePass
import BetaNormal.Proofs.Source.Grouping
import BetaNormal.Proofs.Session.Display
import BetaNormal.Proofs.Session.Diagnosis
import BetaNormal.Proofs.Inventory
import BetaNormal.Proofs.Name.Calls
import BetaNormal.Proofs.Shell.Continuation
