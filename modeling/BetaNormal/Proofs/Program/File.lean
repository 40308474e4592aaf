import BetaNormal.Program
import BetaNormal.Proofs.Session.Refusal

/-!
# Reducing a file

Either a file is loaded as a whole, and every one of its terms comes to something, or one error says
why it cannot be loaded, and nothing is reduced.
-/

namespace BetaNormal

namespace Program

open CommandLine Session

variable {words : List Text} {path : Text} {options : Options} {limits : Limits} {files : Files}

end Program

end BetaNormal
