import BetaNormal.Proofs.Spelling
import BetaNormal.Proofs.Text.Lines

/-!
# Line ends in a spelling

Blank space can only stand inside the parentheses of an application, so at every line end of a
spelling more parentheses have been opened than closed, and at the end of the spelling there are as
many of both.  A spelling stays one of the same term if all its lines are joined by spaces.
-/

namespace BetaNormal

namespace Text

variable {text front rest : Text} {depth : Int} {char : Char}

/-! ## Open parentheses -/

/-- How many more parentheses a text opens than it closes. -/
def opened (text : Text) : Int := text.count '(' - text.count ')'

theorem opened_append (front rest : Text) : opened (front ++ rest) = opened front + opened rest := by
  simp only [opened, List.count_append]
  omega

theorem opened_cons (char : Char) (rest : Text) :
    opened (char :: rest) = opened [char] + opened rest := opened_append [char] rest

theorem opened_of_plain (plain : ∀ char ∈ text, char ≠ '(' ∧ char ≠ ')') : opened text = 0 := by
  have noneOpens : text.count '(' = 0 := List.count_eq_zero.mpr fun opens => (plain _ opens).1 rfl
  have noneCloses : text.count ')' = 0 :=
    List.count_eq_zero.mpr fun closes => (plain _ closes).2 rfl
  rw [opened, noneOpens, noneCloses]
  rfl

theorem opened_blank (blank : text.all isBlank = true) : opened text = 0 := by
  refine opened_of_plain fun char occurs => ?_
  have isBlank := List.all_eq_true.mp blank char occurs
  constructor <;> rintro rfl <;> exact absurd isBlank (by decide)

theorem opened_dropWhile_isBlank (text : Text) : opened (text.dropWhile isBlank) = opened text := by
  have split : text.takeWhile isBlank ++ text.dropWhile isBlank = text :=
    List.takeWhile_append_dropWhile
  have front : opened (text.takeWhile isBlank) = 0 := opened_blank List.all_takeWhile
  calc opened (text.dropWhile isBlank)
      = opened (text.takeWhile isBlank ++ text.dropWhile isBlank) := by
        rw [opened_append, front, Int.zero_add]
    _ = opened text := by rw [split]

theorem opened_reverse (text : Text) : opened text.reverse = opened text := by
  rw [opened, List.count_reverse, List.count_reverse, opened]

theorem opened_trim (text : Text) : opened text.trim = opened text := by
  rw [trim_eq, opened_reverse, opened_dropWhile_isBlank, opened_reverse, opened_dropWhile_isBlank]

/-! ## Line ends inside parentheses -/

/-- Whether parentheses are open at every line end of a text and none at its end, if so many of them
are open in front of it. -/
def BreaksInside (depth : Int) : Text → Prop
  | [] => depth = 0
  | char :: rest =>
      (endsReadLine char = true → 0 < depth) ∧ BreaksInside (depth + opened [char]) rest

/-- The same of the lines of a text. -/
def HoldsOpen (depth : Int) : List Text → Prop
  | [] => depth = 0
  | line :: others =>
      (others ≠ [] → 0 < depth + opened line) ∧ HoldsOpen (depth + opened line) others

theorem breaksInside_append (oneLine : isOneLine front = true) :
    BreaksInside depth (front ++ rest) ↔ BreaksInside (depth + opened front) rest := by
  induction front generalizing depth with
  | nil =>
      rw [List.nil_append]
      exact iff_of_eq (congrArg (BreaksInside · rest) (Int.add_zero depth).symm)
  | cons char front ih =>
      simp only [isOneLine, List.all_cons, Bool.and_eq_true, Bool.not_eq_true'] at oneLine ih
      rw [List.cons_append, BreaksInside, ih oneLine.2, opened_cons char front, Int.add_assoc]
      simp [oneLine.1]

/-- Blank space may have line ends where a parenthesis is open. -/
theorem breaksInside_blank_append {gap : Text} (blank : gap.all isBlank = true) (inside : 0 < depth)
    (behind : BreaksInside depth rest) : BreaksInside depth (gap ++ rest) := by
  induction gap with
  | nil => exact behind
  | cons char gap ih =>
      rw [List.all_cons, Bool.and_eq_true] at blank
      have none : opened [char] = 0 := opened_blank (by simp [blank.1])
      refine ⟨fun _ => inside, ?_⟩
      rw [none, Int.add_zero]
      exact ih blank.2

theorem HoldsOpen.extendFirst {lines : List Text} (holds : HoldsOpen (depth + opened [char]) lines) :
    HoldsOpen depth (Text.extendFirst char lines) := by
  cases lines with
  | nil => exact ⟨fun none => absurd rfl none, holds⟩
  | cons line others =>
      rw [HoldsOpen, Int.add_assoc, ← opened_cons] at holds
      exact holds

theorem BreaksInside.lines (breaks : BreaksInside depth text) : HoldsOpen depth text.lines := by
  have noneOpens : ∀ char, endsReadLine char = true → opened [char] = 0 := fun char ends =>
    opened_blank (by simp [isBlank_of_endsReadLine ends])
  rw [Text.lines]
  fun_induction linesWhere endsReadLine text generalizing depth with
  | case1 => exact breaks
  | case2 rest ih =>
      obtain ⟨inside, -, behind⟩ := breaks
      rw [noneOpens '\r' rfl, noneOpens '\n' rfl, Int.add_zero, Int.add_zero] at behind
      rw [HoldsOpen, show opened [] = 0 from rfl, Int.add_zero]
      exact ⟨fun _ => inside rfl, ih behind⟩
  | case3 char rest _ ends ih =>
      obtain ⟨inside, behind⟩ := breaks
      rw [noneOpens char ends, Int.add_zero] at behind
      rw [HoldsOpen, show opened [] = 0 from rfl, Int.add_zero]
      exact ⟨fun _ => inside ends, ih behind⟩
  | case4 char rest _ _ ih => exact (ih breaks.2).extendFirst

end Text

namespace Term

open Text

variable {term : Term} {text front rest gap : Text} {depth : Int} {char : Char}

/-! ## Characters of a spelling -/

def marks : List Char := [lambda, '.', '(', ')']

theorem Spelling.classify (spelled : Spelling term text) (occurs : char ∈ text) :
    Name.allows char = true ∨ isSpacing char = true ∨ char ∈ marks := by
  induction spelled with
  | var name => exact .inl (List.all_eq_true.mp name.allowed char occurs)
  | abs binder below ih =>
      rcases List.mem_append.mp occurs with front | rest
      · rcases List.mem_cons.mp front with rfl | named
        · exact .inr (.inr (by decide))
        · exact .inl (List.all_eq_true.mp binder.allowed char named)
      · rcases List.mem_cons.mp rest with rfl | inBody
        · exact .inr (.inr (by decide))
        · exact ih inBody
  | app first blank apart second function_ih argument_ih =>
      simp only [List.mem_append, List.mem_cons, List.not_mem_nil, or_false] at occurs
      rcases occurs with (((rfl | left) | between) | right) | rfl
      · exact .inr (.inr (by decide))
      · exact function_ih left
      · exact .inr (.inl (List.all_eq_true.mp blank char between))
      · exact argument_ih right
      · exact .inr (.inr (by decide))

theorem isBlank_of_isSpacing (spacing : isSpacing char = true) : isBlank char = true := by
  simp only [isSpacing, Bool.or_eq_true, decide_eq_true_eq] at spacing
  rcases spacing with ((rfl | rfl) | rfl) | rfl <;> decide

theorem not_isBlank_of_mem_marks (isMark : char ∈ marks) : isBlank char = false := by
  have every : marks.all (fun mark => !isBlank mark) = true := by decide
  simpa using List.all_eq_true.mp every char isMark

theorem Spelling.not_isBlank (spelled : Spelling term text) (occurs : char ∈ text)
    (solid : isSpacing char = false) : isBlank char = false := by
  rcases spelled.classify occurs with allowed | spacing | isMark
  · exact not_isBlank_of_allows allowed
  · rw [spacing] at solid
    contradiction
  · exact not_isBlank_of_mem_marks isMark

theorem Spelling.exists_eq_concat (spelled : Spelling term text) :
    ∃ front last, text = front ++ [last] ∧ isSpacing last = false := by
  induction spelled with
  | var name =>
      have split := List.dropLast_concat_getLast name.text_ne_nil
      have allowed := List.all_eq_true.mp name.allowed _ (List.getLast_mem name.text_ne_nil)
      refine ⟨_, _, split.symm, ?_⟩
      cases spacing : isSpacing (name.text.getLast name.text_ne_nil) with
      | false => rfl
      | true =>
          rw [not_allows_of_isSpacing spacing] at allowed
          contradiction
  | @abs body text binder below ih =>
      obtain ⟨front, last, rfl, solid⟩ := ih
      exact ⟨lambda :: binder.text ++ '.' :: front, last, by simp, solid⟩
  | app first blank apart second => exact ⟨_, ')', rfl, rfl⟩

theorem not_endsReadLine_of_allows {char : Char} (allowed : Name.allows char = true) :
    endsReadLine char = false := not_endsReadLine_of_solid (not_isBlank_of_allows allowed)

theorem isOneLine_of_allows (allowed : text.all Name.allows = true) : isOneLine text = true := by
  refine List.all_eq_true.mpr fun char occurs => ?_
  rw [not_endsReadLine_of_allows (List.all_eq_true.mp allowed char occurs)]
  rfl

theorem isOneLine_name (name : Name) : isOneLine name.text = true :=
  isOneLine_of_allows name.allowed

theorem all_isBlank (blank : gap.all isSpacing = true) : gap.all isBlank = true :=
  List.all_eq_true.mpr fun char occurs =>
    isBlank_of_isSpacing (List.all_eq_true.mp blank char occurs)

/-! ## Where a spelling breaks -/

theorem isOneLine_binder (binder : Name) : isOneLine (lambda :: binder.text ++ ['.']) = true := by
  rw [List.cons_append, isOneLine, List.all_cons, ← isOneLine, isOneLine_append,
    isOneLine_name binder]
  rfl

theorem opened_binder (binder : Name) : opened (lambda :: binder.text ++ ['.']) = 0 := by
  rw [List.cons_append, opened_cons, opened_append, opened_of_plain (plain_of_name binder)]
  rfl

theorem Spelling.breaksInside (spelled : Spelling term text) (shallow : 0 ≤ depth)
    (behind : BreaksInside depth rest) : BreaksInside depth (text ++ rest) := by
  induction spelled generalizing depth rest with
  | var name =>
      rw [breaksInside_append (isOneLine_name name), opened_of_plain (plain_of_name name),
        Int.add_zero]
      exact behind
  | @abs body text binder below ih =>
      have whole : lambda :: binder.text ++ '.' :: text ++ rest =
          lambda :: binder.text ++ ['.'] ++ (text ++ rest) := by simp
      rw [whole, breaksInside_append (isOneLine_binder binder), opened_binder, Int.add_zero]
      exact ih shallow behind
  | @app function argument left gap right first blank apart second function_ih argument_ih =>
      have whole : '(' :: left ++ gap ++ right ++ [')'] ++ rest =
          ['('] ++ (left ++ (gap ++ (right ++ ([')'] ++ rest)))) := by simp
      -- everything up to the closing parenthesis lies one deeper, the gap with its line ends too
      have deeper : 0 < depth + opened ['('] := by
        have one : opened ['('] = 1 := rfl
        omega
      have closed : depth + opened ['('] + opened [')'] = depth := by
        have one : opened ['('] = 1 := rfl
        have back : opened [')'] = -1 := rfl
        omega
      rw [whole, breaksInside_append rfl]
      refine function_ih (Int.le_of_lt deeper) ?_
      refine breaksInside_blank_append (all_isBlank blank) deeper ?_
      refine argument_ih (Int.le_of_lt deeper) ?_
      rw [breaksInside_append rfl, closed]
      exact behind

/-- At every line end of a spelling some parenthesis is open, and none is at its end. -/
theorem Spelling.holdsOpen (spelled : Spelling term text) : HoldsOpen 0 text.lines := by
  have breaks : BreaksInside 0 (text ++ []) := spelled.breaksInside (Int.le_refl 0) rfl
  rw [List.append_nil] at breaks
  exact breaks.lines

theorem Spelling.trim_first_ne_nil {first : Text} {others : List Text}
    (spelled : Spelling term text) (cut : text.lines = first :: others) : first.trim ≠ [] := by
  obtain ⟨char, rest, rfl, begins, -⟩ := spelled.exists_eq_cons
  have solid := spelled.not_isBlank List.mem_cons_self begins
  obtain ⟨inner, behind, cutAlso⟩ := exists_lines_cons (not_endsReadLine_of_solid solid) rest
  rw [cut] at cutAlso
  cases cutAlso
  exact trim_cons_ne_nil solid inner

/-! ## Spellings without line ends -/

/-- `Flattens text flat`: a text on one line counts as much as another one, wherever it stands. -/
structure Flattens (text flat : Text) : Prop where
  oneLine : isOneLine flat = true
  unbroken_eq : ∀ front rest, isOneLine front = true →
    unbroken (front ++ text ++ rest) = unbroken (front ++ flat ++ rest)

theorem Flattens.refl (oneLine : isOneLine text = true) : Flattens text text :=
  ⟨oneLine, fun _ _ _ => rfl⟩

theorem Flattens.append {flat other otherFlat : Text} (first : Flattens text flat)
    (second : Flattens other otherFlat) : Flattens (text ++ other) (flat ++ otherFlat) := by
  refine ⟨by rw [isOneLine_append, first.oneLine, second.oneLine]; rfl, fun front rest oneLine => ?_⟩
  have front' : isOneLine (front ++ flat) = true := by
    rw [isOneLine_append, oneLine, first.oneLine]
    rfl
  calc unbroken (front ++ (text ++ other) ++ rest)
      = unbroken (front ++ text ++ (other ++ rest)) := by simp
    _ = unbroken (front ++ flat ++ other ++ rest) := by
      rw [first.unbroken_eq front _ oneLine, List.append_assoc (front ++ flat)]
    _ = unbroken (front ++ (flat ++ otherFlat) ++ rest) := by
      rw [second.unbroken_eq (front ++ flat) rest front', List.append_assoc front]

/-- Blank space that stays on one line, as it is, and a space for any other. -/
def flatGap (gap : Text) : Text := if isOneLine gap then gap else [' ']

theorem isOneLine_flatGap (gap : Text) : isOneLine (flatGap gap) = true := by
  rw [flatGap]
  split
  case isTrue oneLine => exact oneLine
  case isFalse => rfl

theorem Flattens.append_gap {left flatLeft right flatRight : Text} {before after : Char}
    (first : Flattens left (flatLeft ++ [before])) (ends : isBlank before = false)
    (blank : gap.all isBlank = true) (second : Flattens (after :: right) flatRight)
    (begins : isBlank after = false) :
    Flattens (left ++ gap ++ after :: right) (flatLeft ++ [before] ++ flatGap gap ++ flatRight) := by
  have oneLineLeft : isOneLine (flatLeft ++ [before] ++ flatGap gap) = true := by
    rw [isOneLine_append, first.oneLine, isOneLine_flatGap]
    rfl
  refine ⟨by rw [isOneLine_append, oneLineLeft, second.oneLine]; rfl, fun front rest oneLine => ?_⟩
  have lead : isOneLine (front ++ flatLeft ++ [before]) = true := by
    rw [List.append_assoc, isOneLine_append, oneLine, first.oneLine]
    rfl
  have gapPassed : ∀ behind, unbroken (front ++ flatLeft ++ [before] ++ gap ++ after :: behind) =
      unbroken (front ++ flatLeft ++ [before] ++ flatGap gap ++ after :: behind) := by
    intro behind
    cases breaks : isOneLine gap with
    | true => rw [flatGap, if_pos breaks]
    | false =>
        rw [flatGap, if_neg (by simp [breaks])]
        exact unbroken_gap lead ends blank breaks begins behind
  calc unbroken (front ++ (left ++ gap ++ after :: right) ++ rest)
      = unbroken (front ++ left ++ (gap ++ after :: right ++ rest)) := by simp
    _ = unbroken (front ++ flatLeft ++ [before] ++ gap ++ after :: (right ++ rest)) := by
      rw [first.unbroken_eq front _ oneLine]
      simp
    _ = unbroken (front ++ (flatLeft ++ [before] ++ flatGap gap) ++ (after :: right) ++ rest) := by
      rw [gapPassed]
      simp
    _ = unbroken (front ++ (flatLeft ++ [before] ++ flatGap gap ++ flatRight) ++ rest) := by
      rw [second.unbroken_eq _ rest (by rw [isOneLine_append, oneLine, oneLineLeft]; rfl)]
      simp

theorem Spelling.exists_flattens (spelled : Spelling term text) :
    ∃ flat, Spelling term flat ∧ Flattens text flat := by
  induction spelled with
  | var name => exact ⟨_, .var name, .refl (isOneLine_name name)⟩
  | @abs body text binder below ih =>
      obtain ⟨flat, spelledFlat, flattens⟩ := ih
      refine ⟨_, .abs binder spelledFlat, ?_⟩
      have whole := (Flattens.refl (isOneLine_binder binder)).append flattens
      simpa using whole
  | @app function argument left gap right first blank apart second function_ih argument_ih =>
      obtain ⟨flatLeft, spelledLeft, flattensLeft⟩ := function_ih
      obtain ⟨flatRight, spelledRight, flattensRight⟩ := argument_ih
      -- the gap has a solid character on either side, whatever becomes of the two terms
      obtain ⟨init, before, rfl, ends⟩ := spelledLeft.exists_eq_concat
      obtain ⟨after, others, rfl, begins, -⟩ := second.exists_eq_cons
      have endsSolid := spelledLeft.not_isBlank (by simp) ends
      have beginsSolid := second.not_isBlank List.mem_cons_self begins
      have flatBlank : (flatGap gap).all isSpacing = true := by
        rw [flatGap]
        split
        case isTrue => exact blank
        case isFalse => rfl
      have flatApart : runsInto function argument = true → flatGap gap ≠ [] := by
        intro runs
        rw [flatGap]
        split
        case isTrue => exact apart runs
        case isFalse => exact List.cons_ne_nil _ _
      refine ⟨_, .app spelledLeft flatBlank flatApart spelledRight, ?_⟩
      have inner := flattensLeft.append_gap endsSolid (all_isBlank blank) flattensRight beginsSolid
      have opening : Flattens ['('] ['('] := .refl rfl
      have closing : Flattens [')'] [')'] := .refl rfl
      simpa using (opening.append inner).append closing

/-- A spelling on one line has nothing to be joined. -/
theorem Spelling.unbroken_eq (spelled : Spelling term text) (oneLine : isOneLine text = true) :
    unbroken text = text := by
  obtain ⟨first, others, rfl, begins, -⟩ := spelled.exists_eq_cons
  obtain ⟨front, last, same, ends⟩ := spelled.exists_eq_concat
  have beginsSolid := spelled.not_isBlank List.mem_cons_self begins
  have endsSolid := spelled.not_isBlank (by simp [same]) ends
  have untrimmed : trim (first :: others) = first :: others := by
    refine trim_eq_self (by simp [beginsSolid]) ?_
    rw [same]
    simp [endsSolid]
  rw [unbroken, lines_of_isOneLine (List.cons_ne_nil _ _) oneLine,
    solidLines_cons (by simp [untrimmed]), untrimmed]
  simp [solidLines, joined]

/-- The lines of a spelling, joined by spaces, spell the same term. -/
theorem Spelling.unbroken (spelled : Spelling term text) : Spelling term (Text.unbroken text) := by
  obtain ⟨flat, spelledFlat, flattens⟩ := spelled.exists_flattens
  have same := flattens.unbroken_eq [] [] rfl
  simp only [List.nil_append, List.append_nil] at same
  rw [same, spelledFlat.unbroken_eq flattens.oneLine]
  exact spelledFlat

end Term

end BetaNormal
