import BetaNormal.Proofs.Name
import BetaNormal.Text.Blank

/-!
# Blank space at the ends

What is stripped off a text is found from its first and its last character that are not blank.
-/

namespace BetaNormal.Text

variable {text front blank rest : Text} {char first last : Char}

theorem not_isBlank_of_allows (allowed : Name.allows char = true) : isBlank char = false := by
  have every : ∀ code < 123, Name.allows (Char.ofNat code) = true →
      (!isBlank (Char.ofNat code)) = true := by decide
  simpa using Name.of_allows (fun char => !isBlank char) every allowed

theorem trim_eq (text : Text) :
    trim text = ((text.dropWhile isBlank).reverse.dropWhile isBlank).reverse := rfl

theorem dropWhile_append_cons (solid : isBlank first = false) (front rest : Text) :
    (front ++ first :: rest).dropWhile isBlank = front.dropWhile isBlank ++ first :: rest := by
  rw [List.dropWhile_append]
  split
  case isTrue none =>
    rw [List.isEmpty_iff.mp none, List.dropWhile_cons_of_neg (by simp [solid]), List.nil_append]
  case isFalse => rfl

theorem trim_append_cons (solid : isBlank first = false) (front rest : Text) :
    trim (front ++ first :: rest) = front.dropWhile isBlank ++ trim (first :: rest) := by
  have start := dropWhile_append_cons solid [] rest
  rw [List.nil_append, List.dropWhile_nil, List.nil_append] at start
  simp only [trim, trimWhere, dropWhile_append_cons solid, start, List.reverse_append,
    List.reverse_cons, List.append_assoc, List.singleton_append]
  simp

theorem trim_cons_ne_nil (solid : isBlank first = false) (rest : Text) :
    trim (first :: rest) ≠ [] := by
  rw [trim_eq, List.dropWhile_cons_of_neg (by simp [solid]), List.reverse_cons,
    dropWhile_append_cons solid]
  simp

theorem trim_concat (solid : isBlank last = false) (front : Text) :
    trim (front ++ [last]) = front.dropWhile isBlank ++ [last] := by
  rw [trim_append_cons solid]
  simp [trim, trimWhere, solid]

theorem trim_append_blank (allBlank : blank.all isBlank = true) (text : Text) :
    trim (text ++ blank) = trim text := by
  have every := List.all_eq_true.mp allBlank
  have reversed : ∀ char ∈ blank.reverse, isBlank char = true :=
    fun char isBlank => every char (List.mem_reverse.mp isBlank)
  rw [trim_eq, trim_eq, List.dropWhile_append]
  split
  case isTrue none =>
    have gone : (blank ++ []).dropWhile isBlank = List.dropWhile isBlank [] :=
      List.dropWhile_append_of_pos every
    rw [List.append_nil] at gone
    rw [List.isEmpty_iff.mp none, gone]
    rfl
  case isFalse =>
    rw [List.reverse_append, List.dropWhile_append_of_pos reversed]

theorem trim_blank (allBlank : blank.all isBlank = true) : trim blank = [] := by
  simpa [trim, trimWhere] using trim_append_blank allBlank []

theorem trim_blank_append (allBlank : blank.all isBlank = true) (text : Text) :
    trim (blank ++ text) = trim text := by
  rw [trim_eq, trim_eq, List.dropWhile_append_of_pos (List.all_eq_true.mp allBlank)]

theorem trim_cons_blank (isBlank : isBlank char = true) (text : Text) :
    trim (char :: text) = trim text :=
  trim_blank_append (List.all_eq_true.mpr (by simp [isBlank]) : [char].all _ = true) text

/-- Nothing is stripped off a text that neither begins nor ends in blank space. -/
theorem trim_eq_self (begins : text.head?.any isBlank = false)
    (ends : text.getLast?.any isBlank = false) : trim text = text := by
  rcases List.eq_nil_or_concat text with rfl | ⟨front, last, rfl⟩
  · rfl
  · rw [List.concat_eq_append] at begins ends ⊢
    have solid : isBlank last = false := by simpa using ends
    rw [trim_concat solid]
    cases front with
    | nil => rfl
    | cons first front =>
        have solidFirst : isBlank first = false := by simpa using begins
        rw [List.dropWhile_cons_of_neg (by simp [solidFirst])]

end BetaNormal.Text
