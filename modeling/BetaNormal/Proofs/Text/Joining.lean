import BetaNormal.Proofs.Text.Lines
import Mathlib.Data.List.Basic

/-!
# Joining and cutting

Texts that are joined by a separator can be had back by cutting at it, provided that none of them has it
in it.  The same goes for lines, each of which is ended by a line feed.
-/

namespace BetaNormal.Text

variable {separator text : Text} {texts : List Text} {char : Char}

/-! ## Joining -/

theorem joined_append {front rest : List Text} (frontGiven : front ≠ []) (restGiven : rest ≠ []) :
    joined separator (front ++ rest) =
      joined separator front ++ separator ++ joined separator rest := by
  induction front with
  | nil => contradiction
  | cons first front ih =>
      cases front with
      | nil =>
          obtain ⟨second, others, rfl⟩ := List.exists_cons_of_ne_nil restGiven
          exact (joined_cons separator first second others).trans (by simp [joined])
      | cons second front =>
          have below := ih (List.cons_ne_nil _ _)
          rw [List.cons_append] at below
          rw [List.cons_append, List.cons_append, joined_cons, below, joined_cons]
          simp

/-- To join texts that have been joined comes to the same as to join them all at once. -/
theorem joined_map_joined (separator : Text) {groups : List (List Text)}
    (given : ∀ group ∈ groups, group ≠ []) :
    joined separator (groups.map (joined separator)) = joined separator groups.flatten := by
  induction groups with
  | nil => rfl
  | cons group groups ih =>
      have below := ih fun other isOther => given other (List.mem_cons_of_mem _ isOther)
      cases groups with
      | nil => simp [joined]
      | cons second groups =>
          have secondGiven := given second (List.mem_cons_of_mem _ List.mem_cons_self)
          have behind : (second :: groups).flatten ≠ [] := by simp [secondGiven]
          rw [List.flatten_cons, joined_append (given group List.mem_cons_self) behind, ← below]
          rw [List.map_cons, List.map_cons, joined_cons]

theorem map_joined (change : Char → Char) (separator : Text) (texts : List Text) :
    (joined separator texts).map change =
      joined (separator.map change) (texts.map (List.map change)) := by
  induction texts with
  | nil => rfl
  | cons first texts ih =>
      cases texts with
      | nil => simp [joined]
      | cons second texts =>
          rw [joined_cons, List.map_append, List.map_append, ih]
          exact (joined_cons _ _ _ _).symm

theorem joined_ne_nil (given : texts ≠ []) (each : ∀ text ∈ texts, text ≠ []) :
    joined separator texts ≠ [] := by
  obtain ⟨first, others, rfl⟩ := List.exists_cons_of_ne_nil given
  have firstGiven := each first List.mem_cons_self
  cases others with
  | nil => simpa [joined] using firstGiven
  | cons second others => simp [joined_cons, firstGiven]

/-! ## Cutting -/

theorem pieces_eq_splitOn (char : Char) (text : Text) : pieces char text = text.splitOn char := by
  induction text with
  | nil => rfl
  | cons first rest ih =>
      have given : rest.splitOn char ≠ [] := List.splitOn_ne_nil char rest
      rw [List.splitOn] at ih given
      rw [pieces, List.splitOn, List.splitOnP_cons_eq_if_modifyHead, ih]
      simp only [beq_iff_eq]
      split
      case isTrue => rfl
      case isFalse =>
        obtain ⟨piece, others, cut⟩ := List.exists_cons_of_ne_nil given
        rw [cut]
        rfl

theorem pieces_joined (given : texts ≠ []) (inside : ∀ text ∈ texts, char ∉ text) :
    pieces char (joined [char] texts) = texts := by
  rw [pieces_eq_splitOn]
  exact List.splitOn_intercalate char inside given

/-! ## Lines -/

theorem not_mem_of_isOneLine (oneLine : isOneLine text = true) : '\n' ∉ text := by
  intro occurs
  exact absurd (List.all_eq_true.mp oneLine _ occurs) (by decide)

/-- Each line is ended by a line feed. -/
def ended (lines : List Text) : Text := lines.flatMap fun line => line ++ ['\n']

theorem lines_ended (oneLine : ∀ text ∈ texts, isOneLine text = true) :
    lines (ended texts) = texts := by
  induction texts with
  | nil => rfl
  | cons first texts ih =>
      have below := ih fun other isOther => oneLine other (List.mem_cons_of_mem _ isOther)
      rw [ended, List.flatMap_cons, ← ended, List.append_assoc, List.singleton_append,
        lines_append (oneLine first List.mem_cons_self) (lines_newline _), List.append_nil, below]

theorem lines_joined (oneLine : ∀ text ∈ texts, isOneLine text = true)
    (given : ∀ text ∈ texts, text ≠ []) : lines (joined ['\n'] texts) = texts := by
  induction texts with
  | nil => rfl
  | cons first texts ih =>
      have first_oneLine := oneLine first List.mem_cons_self
      cases texts with
      | nil => simpa [joined] using lines_of_isOneLine (given first List.mem_cons_self) first_oneLine
      | cons second texts =>
          have below := ih (fun other isOther => oneLine other (List.mem_cons_of_mem _ isOther))
            fun other isOther => given other (List.mem_cons_of_mem _ isOther)
          rw [joined_cons, List.append_assoc, List.singleton_append,
            lines_append first_oneLine (lines_newline _), List.append_nil, below]

end BetaNormal.Text
