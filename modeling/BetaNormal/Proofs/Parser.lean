import BetaNormal.Term.Parser
import Mathlib.Data.List.Basic

/-!
# How the readers go on

One equation for each way in which a term can begin.  The reader of terms takes all binders at the
front at once, but what it comes to is the same as if it took one of them and read the term
behind it.  So everything about it is proved by induction along these equations, and the loop over
the binders does not show any more.
-/

namespace BetaNormal.Term

variable {text rest : Text} {name : Name} {char : Char}

/-- Whether a text begins with a character of a name. -/
def beginsInName (text : Text) : Bool := text.head?.any Name.allows

/-- What has been read in two steps was read in each of them. -/
theorem exists_of_bind_eq_ok {First Second : Type} {read : Except ParseStop First}
    {next : First → Except ParseStop Second} {result : Second}
    (reads : read >>= next = .ok result) : ∃ value, read = .ok value ∧ next value = .ok result := by
  cases read with
  | error stop => cases reads
  | ok value => exact ⟨value, rfl, reads⟩

/-! ## Names and single characters -/

theorem readName_append (name : Name) (stops : beginsInName rest = false) :
    readName (name.text ++ rest) = .ok (name, rest) := by
  have every : ∀ char ∈ name.text, Name.allows char = true :=
    List.all_eq_true.mp name.allowed
  have none : rest.takeWhile Name.allows = [] ∧ rest.dropWhile Name.allows = rest := by
    cases rest with
    | nil => exact ⟨rfl, rfl⟩
    | cons char rest =>
        have other : Name.allows char = false := by simpa [beginsInName] using stops
        simp [List.takeWhile, List.dropWhile, other]
  have front : (name.text ++ rest).takeWhile Name.allows = name.text := by
    rw [List.takeWhile_append_of_pos every, none.1, List.append_nil]
  have back : (name.text ++ rest).dropWhile Name.allows = rest := by
    rw [List.dropWhile_append_of_pos every, none.2]
  rw [readName, dif_neg (by rw [front]; exact name.text_ne_nil)]
  simp only [front, back]

theorem eq_append_of_readName (reads : readName text = .ok (name, rest)) :
    text = name.text ++ rest ∧ beginsInName rest = false := by
  unfold readName at reads
  split at reads
  · split at reads <;> cases reads
  · cases reads
    refine ⟨List.takeWhile_append_dropWhile.symm, ?_⟩
    cases left : text.dropWhile Name.allows with
    | nil => rfl
    | cons char others =>
        have stopped := List.head?_dropWhile_not Name.allows text
        rw [left] at stopped
        simpa [beginsInName] using stopped

theorem eq_cons_of_readChar {expected : Char} (reads : readChar expected text = .ok rest) :
    text = expected :: rest := by
  unfold readChar at reads
  split at reads
  · cases reads
  · split at reads
    · rename_i same
      cases reads
      rw [same]
    · cases reads

theorem readChar_cons (expected : Char) (rest : Text) :
    readChar expected (expected :: rest) = .ok rest := by
  rw [readChar, if_pos rfl]

/-! ## Terms -/

theorem readBinders_lambda (rest : Text) :
    readBinders (lambda :: rest) = (do
      let (binder, rest) ← readName rest
      let rest ← readChar '.' rest
      let (binders, rest) ← readBinders rest
      return (binder :: binders, rest)) := by
  rw [readBinders, if_pos rfl]
  simp only [bind, Except.bind, pure, Except.pure]
  split
  case h_1 named => simp only [named]
  case h_2 named =>
    split
    case h_1 pointed => simp only [named, pointed]
    case h_2 pointed =>
      simp only [named, pointed]
      split
      case h_1 chained => simp only [chained]
      case h_2 chained => simp only [chained]

theorem readBinders_of_ne_lambda (other : char ≠ lambda) :
    readBinders (char :: rest) = .ok ([], char :: rest) := by
  rw [readBinders, if_neg other]

theorem readTerm_nil (depth : Nat) : readTerm depth [] = .error (.termMissing, []) := by
  rw [readTerm, readBinders]
  rfl

theorem readTerm_lambda (depth : Nat) (rest : Text) :
    readTerm depth (lambda :: rest) = (do
      let (binder, rest) ← readName rest
      let rest ← readChar '.' rest
      let (body, rest) ← readTerm depth rest
      return (abs binder body, rest)) := by
  rw [readTerm, readBinders_lambda]
  simp only [bind_assoc, pure_bind]
  congr 1
  funext named
  obtain ⟨binder, afterName⟩ := named
  congr 1
  funext below
  rw [readTerm]
  simp only [bind_assoc, pure_bind]
  congr 1
  funext chain
  obtain ⟨binders, rest⟩ := chain
  -- both sides read the rest alike and put it below the binders
  cases rest with
  | nil => rfl
  | cons char rest =>
      by_cases opens : char = '('
      · simp only [if_pos opens]
        cases depth with
        | zero => rfl
        | succ depth => simp only [bind_assoc, pure_bind, List.foldr_cons]
      · simp only [if_neg opens]
        by_cases named : Name.allows char = true
        · simp only [if_pos named, bind_assoc, pure_bind, List.foldr_cons]
        · simp only [if_neg named]
          rfl

theorem readTerm_zero_paren (rest : Text) :
    readTerm 0 ('(' :: rest) = .error (.tooDeep, '(' :: rest) := by
  rw [readTerm, readBinders_of_ne_lambda (by decide)]
  rfl

theorem readTerm_succ_paren (depth : Nat) (rest : Text) :
    readTerm (depth + 1) ('(' :: rest) = (do
      let (function, rest) ← readTerm depth rest
      let (argument, rest) ← readTerm depth (rest.dropWhile isSpacing)
      let rest ← readChar ')' rest
      return (app function argument, rest)) := by
  rw [readTerm, readBinders_of_ne_lambda (by decide)]
  simp only [bind, Except.bind, if_true]
  cases readTerm depth rest with
  | error stop => rfl
  | ok function =>
      cases argumentRead : readTerm depth (function.2.dropWhile isSpacing) with
      | error stop => simp only [argumentRead]
      | ok argument =>
          cases closed : readChar ')' argument.2 with
          | error stop => simp only [argumentRead, closed]
          | ok rest => simp only [argumentRead, closed, pure, Except.pure, List.foldr_nil]

theorem readTerm_name (depth : Nat) (allowed : Name.allows char = true) :
    readTerm depth (char :: rest) = (do
      let (name, rest) ← readName (char :: rest)
      return (var name, rest)) := by
  have noLambda : char ≠ lambda := by
    rintro rfl
    exact absurd allowed (by decide)
  have noParen : char ≠ '(' := by
    rintro rfl
    exact absurd allowed (by decide)
  rw [readTerm, readBinders_of_ne_lambda noLambda]
  simp only [bind, Except.bind, if_neg noParen, if_pos allowed]
  cases readName (char :: rest) with
  | error stop => rfl
  | ok named => rfl

theorem readTerm_of_not_begin (depth : Nat) (noLambda : char ≠ lambda) (noParen : char ≠ '(')
    (noName : Name.allows char = false) :
    readTerm depth (char :: rest) = .error (.notTerm char, char :: rest) := by
  rw [readTerm, readBinders_of_ne_lambda noLambda]
  simp only [bind, Except.bind, if_neg noParen, noName]
  rfl

end BetaNormal.Term
