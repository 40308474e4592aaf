import BetaNormal.Text.Caseless

/-!
# Abbreviations

Names that stand for longer texts.  They are found anywhere in a text, without regard to case and
to what stands around them, so they are reserved words in every name.  The abbreviations of a table
are written out one after the other, and a later one is also found in what an earlier one has
written.
-/

namespace BetaNormal

structure Abbreviation where
  name : Text
  meaning : Text
  deriving DecidableEq, Repr

namespace Abbreviation

/-- The built-in table: the underscore, which shows the space between the two terms of an
application, and the truth values with their connectives and the conditional.  The two connectives
come before the truth values, which they mention. -/
def standard : List Abbreviation :=
  [⟨"_", " "⟩,
   ⟨"AND", "λx10.λy10.((x10 y10) FALSE)"⟩,
   ⟨"NOT", "λx9.((x9 FALSE) TRUE)"⟩,
   ⟨"TRUE", "λx8.λy8.x8"⟩,
   ⟨"FALSE", "λx7.λy7.y7"⟩,
   ⟨"COND", "λa6.λb6.λc6.((c6 a6) b6)"⟩]

def apply (abbreviation : Abbreviation) (text : Text) : Text :=
  Text.replaceCaseless abbreviation.name abbreviation.meaning text

end Abbreviation

def expand (table : List Abbreviation) (text : Text) : Text :=
  table.foldl (fun text abbreviation => abbreviation.apply text) text

end BetaNormal
