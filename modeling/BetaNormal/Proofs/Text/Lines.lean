import BetaNormal.Proofs.Text.Blank
import BetaNormal.Text.Lines

/-!
# Line breaks between blanks

A text can be broken wherever it has blank space.  Stripping its lines, leaving out those that are
blank and joining the others by single spaces brings such a break back to one space, and blank
space without a break stays as it is.
-/

namespace BetaNormal.Text

variable {text front gap rest first : Text} {others : List Text} {char before after : Char}

/-! ## Cutting -/

def isOneLine (text : Text) : Bool := text.all fun char => !endsReadLine char

theorem isOneLine_append (front rest : Text) :
    isOneLine (front ++ rest) = (isOneLine front && isOneLine rest) := List.all_append

theorem isBlank_of_endsReadLine (ends : endsReadLine char = true) : isBlank char = true := by
  simp only [endsReadLine, Bool.or_eq_true, decide_eq_true_eq] at ends
  rcases ends with rfl | rfl <;> decide

theorem not_endsReadLine_of_solid (solid : isBlank char = false) : endsReadLine char = false := by
  cases ends : endsReadLine char with
  | false => rfl
  | true =>
      rw [isBlank_of_endsReadLine ends] at solid
      contradiction

theorem lines_cons (inside : endsReadLine char = false) (rest : Text) :
    lines (char :: rest) = extendFirst char (lines rest) := by
  rw [lines, linesWhere, if_neg (by simp [inside])]
  · rfl
  · rintro _ rfl rfl
    contradiction

theorem lines_newline (rest : Text) : lines ('\n' :: rest) = [] :: lines rest := by
  rw [lines, linesWhere, if_pos (by decide)]
  · rfl
  · rintro _ ⟨⟩

/-- What stands behind a line end, of which a line feed after a carriage return is a part. -/
theorem exists_lines_end (ends : endsReadLine char = true) (rest : Text) :
    ∃ behind, lines (char :: rest) = [] :: lines behind ∧
      (rest = behind ∨ rest = '\n' :: behind) := by
  by_cases paired : ∃ behind, char = '\r' ∧ rest = '\n' :: behind
  · obtain ⟨behind, rfl, rfl⟩ := paired
    exact ⟨behind, by rw [lines, linesWhere]; rfl, .inr rfl⟩
  · refine ⟨rest, ?_, .inl rfl⟩
    rw [lines, linesWhere, if_pos ends]
    · rfl
    · rintro behind rfl rfl
      exact paired ⟨behind, rfl, rfl⟩

theorem lines_append (oneLine : isOneLine front = true) (cut : lines rest = first :: others) :
    lines (front ++ rest) = (front ++ first) :: others := by
  induction front with
  | nil => exact cut
  | cons char front ih =>
      simp only [isOneLine, List.all_cons, Bool.and_eq_true, Bool.not_eq_true'] at oneLine ih
      rw [List.cons_append, lines_cons oneLine.1, ih oneLine.2]
      rfl

theorem lines_of_isOneLine (given : text ≠ []) (oneLine : isOneLine text = true) :
    lines text = [text] := by
  induction text with
  | nil => contradiction
  | cons char text ih =>
      simp only [isOneLine, List.all_cons, Bool.and_eq_true, Bool.not_eq_true'] at oneLine ih
      rw [lines_cons oneLine.1]
      cases text with
      | nil => rfl
      | cons other text =>
          rw [ih (List.cons_ne_nil _ _) oneLine.2]
          rfl

theorem exists_lines_cons (inside : endsReadLine char = false) (rest : Text) :
    ∃ first others, lines (char :: rest) = (char :: first) :: others := by
  rw [lines_cons inside]
  cases lines rest with
  | nil => exact ⟨[], [], rfl⟩
  | cons first others => exact ⟨first, others, rfl⟩

theorem flatten_extendFirst (char : Char) (lines : List Text) :
    (extendFirst char lines).flatten = char :: lines.flatten := by
  cases lines <;> rfl

theorem flatten_lines (text : Text) : (lines text).flatten.Sublist text := by
  rw [lines]
  fun_induction linesWhere endsReadLine text with
  | case1 => exact List.Sublist.refl _
  | case2 rest ih => exact (ih.cons _).cons _
  | case3 char rest _ _ ih => exact ih.cons _
  | case4 char rest _ _ ih =>
      rw [flatten_extendFirst]
      exact ih.cons_cons _

theorem mem_of_mem_lines (isLine : front ∈ lines text) (occurs : char ∈ front) : char ∈ text :=
  (flatten_lines text).subset (List.mem_flatten_of_mem isLine occurs)

/-! ## What lines hold -/

/-- The lines that are not blank, without the blank space at their ends. -/
def solidLines (lines : List Text) : List Text :=
  (lines.map trim).filter fun line => !line.isEmpty

/-- A text on one line, with a space for each run of blank space that had a line end in it. -/
def unbroken (text : Text) : Text := joined [' '] (solidLines text.lines)

theorem solidLines_cons_blank (blank : trim first = []) (others : List Text) :
    solidLines (first :: others) = solidLines others := by
  simp [solidLines, blank]

theorem solidLines_cons (solid : trim first ≠ []) (others : List Text) :
    solidLines (first :: others) = trim first :: solidLines others := by
  simp [solidLines, solid]

theorem solidLines_cons_blank_char (blank : isBlank char = true) (rest : Text) :
    solidLines (lines (char :: rest)) = solidLines (lines rest) := by
  cases ends : endsReadLine char with
  | true =>
      obtain ⟨behind, cut, rfl | rfl⟩ := exists_lines_end ends rest
      · rw [cut, solidLines_cons_blank rfl]
      · rw [cut, lines_newline]
  | false =>
      rw [lines_cons ends]
      cases lines rest with
      | nil => exact solidLines_cons_blank (trim_blank (by simp [blank])) []
      | cons first others => simp [extendFirst, solidLines, trim_cons_blank blank]

theorem solidLines_blank_append (blank : gap.all isBlank = true) (rest : Text) :
    solidLines (lines (gap ++ rest)) = solidLines (lines rest) := by
  induction gap with
  | nil => rfl
  | cons char gap ih =>
      simp only [List.all_cons, Bool.and_eq_true] at blank
      rw [List.cons_append, solidLines_cons_blank_char blank.1, ih blank.2]

/-! ## Runs of blank space -/

/-- Blank space with a line end in it ends the line before it and adds none that is not blank. -/
theorem exists_lines_gap (blank : gap.all isBlank = true) (breaks : isOneLine gap = false)
    (rest : Text) :
    ∃ tail others, lines (gap ++ rest) = tail :: others ∧ tail.all isBlank = true ∧
      solidLines others = solidLines (lines rest) := by
  induction gap with
  | nil => contradiction
  | cons char gap ih =>
      simp only [List.all_cons, Bool.and_eq_true] at blank
      cases ends : endsReadLine char with
      | true =>
          obtain ⟨behind, cut, passed⟩ := exists_lines_end ends (gap ++ rest)
          refine ⟨[], lines behind, cut, rfl, ?_⟩
          rw [← solidLines_blank_append blank.2 rest]
          rcases passed with same | paired
          · rw [same]
          · rw [paired, lines_newline, solidLines_cons_blank rfl]
      | false =>
          simp only [isOneLine, List.all_cons, ends, Bool.not_false, Bool.true_and] at breaks ih
          obtain ⟨tail, others, cut, tailBlank, same⟩ := ih blank.2 breaks
          refine ⟨char :: tail, others, ?_, by simp [blank.1, tailBlank], same⟩
          rw [List.cons_append, lines_cons ends, cut]
          rfl

theorem joined_cons (separator first second : Text) (others : List Text) :
    joined separator (first :: second :: others) =
      first ++ separator ++ joined separator (second :: others) := by
  simp [joined, List.intercalate]

theorem joined_append_cons (separator front first : Text) (others : List Text) :
    joined separator ((front ++ first) :: others) = front ++ joined separator (first :: others) := by
  cases others <;> simp [joined, List.intercalate]

/-- Blank space with a line end in it counts as much as a space. -/
theorem unbroken_gap (oneLine : isOneLine (front ++ [before]) = true)
    (ends : isBlank before = false) (blank : gap.all isBlank = true)
    (breaks : isOneLine gap = false) (begins : isBlank after = false) (rest : Text) :
    unbroken (front ++ [before] ++ gap ++ after :: rest) =
      unbroken (front ++ [before] ++ [' '] ++ after :: rest) := by
  have trimmed : trim (front ++ [before]) = front.dropWhile isBlank ++ [before] :=
    trim_concat ends front
  have solid : trim (front ++ [before]) ≠ [] := by simp [trimmed]
  obtain ⟨inner, others, cut⟩ := exists_lines_cons (not_endsReadLine_of_solid begins) rest
  have solidAfter := trim_cons_ne_nil begins inner
  have split : unbroken (front ++ [before] ++ gap ++ after :: rest) =
      trim (front ++ [before]) ++ [' '] ++ unbroken (after :: rest) := by
    obtain ⟨tail, behind, gapCut, tailBlank, same⟩ := exists_lines_gap blank breaks (after :: rest)
    rw [List.append_assoc, unbroken, lines_append oneLine gapCut, solidLines_cons, same,
      trim_append_blank tailBlank, unbroken, cut, solidLines_cons solidAfter, joined_cons]
    rwa [trim_append_blank tailBlank]
  have kept : unbroken (front ++ [before] ++ [' '] ++ after :: rest) =
      trim (front ++ [before]) ++ [' '] ++ unbroken (after :: rest) := by
    have spaced : isOneLine (front ++ [before] ++ [' ']) = true := by
      rw [isOneLine_append, oneLine]
      rfl
    have whole : trim (front ++ [before] ++ [' '] ++ after :: inner) =
        trim (front ++ [before]) ++ [' '] ++ trim (after :: inner) := by
      rw [trim_append_cons begins, List.append_assoc front, List.singleton_append,
        dropWhile_append_cons ends, trimmed]
      simp
    rw [unbroken, lines_append spaced cut, solidLines_cons, whole, joined_append_cons, unbroken, cut,
      solidLines_cons solidAfter]
    rw [whole]
    simp
  rw [split, kept]

end BetaNormal.Text
