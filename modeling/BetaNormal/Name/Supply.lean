import BetaNormal.Name

/-!
# Supplies of fresh names

A supply makes names out of a fixed stem and a counter that only goes up.  A candidate that has
to be avoided is passed over for good, so no name is ever given out twice.
-/

namespace BetaNormal

/-- A stem of identifier characters, which may be empty, and the next number to be tried. -/
structure Supply where
  stem : Text
  counter : Nat
  allowed : stem.all Name.allows = true

namespace Supply

instance : DecidableEq Supply := fun ⟨stem, counter, _⟩ ⟨otherStem, otherCounter, _⟩ =>
  if same : stem = otherStem ∧ counter = otherCounter then
    isTrue (by cases same.1; cases same.2; rfl)
  else isFalse fun equal => same (by cases equal; exact ⟨rfl, rfl⟩)

theorem allows_digit (number : Nat) : Name.allows (Text.digit number) = true := by
  have below : number % 10 < 10 := Nat.mod_lt _ (by decide)
  have every : ∀ place < 10, Name.allows (Char.ofNat (48 + place)) = true := by decide
  exact every _ below

theorem all_allows_decimal (number : Nat) : (Text.decimal number).all Name.allows = true := by
  induction number using Text.decimal.induct with
  | case1 number small =>
      rw [Text.decimal, if_pos small, List.all_cons, allows_digit, List.all_nil]
      rfl
  | case2 number large inductive_hypothesis =>
      rw [Text.decimal, if_neg large, List.all_append, inductive_hypothesis, List.all_cons,
        allows_digit, List.all_nil]
      rfl

theorem decimal_ne_nil (number : Nat) : Text.decimal number ≠ [] := by
  rw [Text.decimal]
  split <;> simp

def candidate (supply : Supply) (number : Nat) : Name where
  text := supply.stem ++ Text.decimal number
  text_ne_nil := by simp [decimal_ne_nil]
  allowed := by rw [List.all_append, supply.allowed, all_allows_decimal, Bool.and_true]

/-- The first of the numbers from `number` on whose name is not to be avoided, at most `bound`
numbers further up. -/
def search (supply : Supply) (avoid : List Name) : (bound number : Nat) → Nat
  | 0, number => number
  | bound + 1, number =>
      if supply.candidate number ∈ avoid then search supply avoid bound (number + 1) else number

/-- A name outside `avoid`, and the supply that continues behind it.  Different numbers give
different names, so a search as long as `avoid` always finds one. -/
def fresh (supply : Supply) (avoid : List Name) : Name × Supply :=
  let number := supply.search avoid avoid.length supply.counter
  (supply.candidate number, { supply with counter := number + 1 })

/-- The supply with a given stem and first number, provided that they make up a name. -/
def start (stem : Text) (first : Int) : Except Name.Fault Supply :=
  match first with
  | .ofNat counter =>
      if allowed : stem.all Name.allows = true then .ok ⟨stem, counter, allowed⟩
      else .error (.at (stem ++ Text.decimal counter))
  | .negSucc below => .error (.at (stem ++ Text.integer (.negSucc below)))

/-- The supply that is used where none is given: `a0`, `a1`, and so on. -/
def standard : Supply where
  stem := ['a']
  counter := 0
  allowed := rfl

/-- Whether the last number that was tried is too large for a numeral. -/
def isOverrun (supply : Supply) : Bool := !Text.hasNumeral (supply.counter - 1)

def shown? (supply : Supply) : Option Text :=
  if Text.hasNumeral supply.counter then
    some ("NameSupply(prefix='" ++ supply.stem ++ "', counter=" ++ Text.decimal supply.counter
      ++ ")")
  else none

end Supply

end BetaNormal
