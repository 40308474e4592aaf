import BetaNormal.Proofs.Session.Feedback
import BetaNormal.Proofs.Text.Joining

/-!
# Reading what is shown

A reduction is shown on one line for its normal form and, unless they are left out, one for each of its
contractions.  No line end, tab or arrow can be part of a printed term, so the lines of the trace can be
told apart, each of them can be cut in one place only, and what stands on the two sides is read as the
redex and as what became of it.
-/

namespace BetaNormal

namespace Text

theorem isOneLine_control (code : Nat) : isOneLine (control code) = true := by
  have whole : control code = ['\x1b', '['] ++ decimal code ++ ['m'] := rfl
  rw [whole, isOneLine_append, isOneLine_append, Term.isOneLine_of_allows (Supply.all_allows_decimal code)]
  rfl

theorem isOneLine_bold (text : Text) : isOneLine text.bold = isOneLine text := by
  simp [bold, isOneLine_append, isOneLine_control]

theorem isOneLine_coloured (colour : Colour) (text : Text) :
    isOneLine (coloured colour text) = isOneLine text := by
  simp [coloured, isOneLine_append, isOneLine_control]

end Text

open Text

/-! ## Contractions -/

namespace Contraction

/-- A contraction as a session prints it, with its spaces as underscores or not. -/
def output (visibleSpaces : Bool) (contraction : Contraction) : Text :=
  contraction.redex.output visibleSpaces ++ arrow ++ contraction.result.output visibleSpaces

variable {contraction : Contraction} {visibleSpaces : Bool}

theorem output_eq (visibleSpaces : Bool) (contraction : Contraction) :
    contraction.output visibleSpaces =
      if visibleSpaces then contraction.print.spacesShown else contraction.print := by
  cases visibleSpaces with
  | false => rfl
  | true =>
      have arrow_shown : arrow.spacesShown = arrow := by decide
      simp only [spacesShown] at arrow_shown
      simp [output, Term.output, print, spacesShown, arrow_shown]

theorem isOneLine_output (visibleSpaces : Bool) (contraction : Contraction) :
    isOneLine (contraction.output visibleSpaces) = true := by
  have arrow_oneLine : isOneLine arrow = true := by decide
  simp only [output, isOneLine_append, Term.isOneLine_output, arrow_oneLine, Bool.and_self]

theorem output_ne_nil (visibleSpaces : Bool) (contraction : Contraction) :
    contraction.output visibleSpaces ≠ [] := by
  simp [output, Term.output_ne_nil]

theorem arrow_sign_not_mem_print (term : Term) : '→' ∉ term.print := by
  intro occurs
  rcases Term.classify_print occurs with allowed | isSign
  · exact absurd allowed (by decide)
  · exact absurd isSign (by decide)

/-- There is one way only to cut a printed contraction at an arrow. -/
theorem print_eq_append_iff {front rest : Text} :
    contraction.print = front ++ arrow ++ rest ↔
      front = contraction.redex.print ∧ rest = contraction.result.print := by
  have split : ∀ left right : Text,
      left ++ arrow ++ right = (left ++ ['\t']) ++ '→' :: ('\t' :: right) := by
    intro left right
    have arrow_eq : arrow = ['\t', '→', '\t'] := rfl
    simp [arrow_eq]
  have beforeArrow : '→' ∉ contraction.redex.print ++ ['\t'] := by
    simp [arrow_sign_not_mem_print]
  have behindArrow : '→' ∉ '\t' :: contraction.result.print := by
    simp [arrow_sign_not_mem_print]
  rw [print, split, split, List.append_cons_inj_of_notMem beforeArrow behindArrow]
  simp [eq_comm]

end Contraction

/-! ## Lines -/

namespace Reduction

variable {reduction : Reduction} {options : Options} {visibleSpaces : Bool}

theorem render_snd (reduction : Reduction) (visibleSpaces : Bool) :
    (reduction.render ['\n'] visibleSpaces).2 =
      joined ['\n'] (reduction.steps.map (Contraction.output visibleSpaces)) := by
  have outputs : ∀ visibleSpaces, reduction.steps.map (Contraction.output visibleSpaces) =
      reduction.steps.map fun step =>
        if visibleSpaces then step.print.spacesShown else step.print :=
    fun visibleSpaces => List.map_congr_left fun step _ => step.output_eq visibleSpaces
  cases visibleSpaces with
  | false => simp [render, outputs]
  | true =>
      have rendered : (reduction.render ['\n'] true).2 =
          (joined ['\n'] (reduction.steps.map Contraction.print)).spacesShown := rfl
      rw [rendered, spacesShown, map_joined, outputs]
      simp [Function.comp_def, spacesShown]

theorem isOneLine_outputs : ∀ text ∈ reduction.steps.map (Contraction.output visibleSpaces),
    isOneLine text = true := by
  intro text isText
  obtain ⟨step, -, rfl⟩ := List.mem_map.mp isText
  exact step.isOneLine_output visibleSpaces

theorem outputs_ne_nil : ∀ text ∈ reduction.steps.map (Contraction.output visibleSpaces),
    text ≠ [] := by
  intro text isText
  obtain ⟨step, -, rfl⟩ := List.mem_map.mp isText
  exact step.output_ne_nil visibleSpaces

theorem lines_render (reduction : Reduction) (visibleSpaces : Bool) :
    lines (reduction.render ['\n'] visibleSpaces).2 =
      reduction.steps.map (Contraction.output visibleSpaces) := by
  rw [render_snd]
  exact lines_joined isOneLine_outputs outputs_ne_nil

theorem pieces_render (given : reduction.steps ≠ []) :
    pieces '\n' (reduction.render ['\n'] visibleSpaces).2 =
      reduction.steps.map (Contraction.output visibleSpaces) := by
  rw [render_snd]
  exact pieces_joined (by simpa using given) fun text isText =>
    not_mem_of_isOneLine (isOneLine_outputs text isText)

theorem render_ne_nil (given : reduction.steps ≠ []) :
    (reduction.render ['\n'] visibleSpaces).2 ≠ [] := by
  rw [render_snd]
  exact joined_ne_nil (by simpa using given) outputs_ne_nil

/-! ## The lines of a reduction -/

/-- The line for a contraction: it is marked, and set in by two spaces. -/
def stepLine (visibleSpaces : Bool) (step : Contraction) : Text :=
  [' ', ' '] ++ coloured .cyan ['β'] ++ [' '] ++ step.output visibleSpaces

/-- The lines that a reduction is shown on: one for the normal form, and one for each contraction unless
they are left out. -/
def shownLines (options : Options) (reduction : Reduction) : List Text :=
  (reduction.term.output options.visibleSpaces).bold ::
    if options.quiet then [] else reduction.steps.map (stepLine options.visibleSpaces)

theorem display_eq (options : Options) (reduction : Reduction) :
    reduction.display options = ended (reduction.shownLines options) := by
  have shown : reduction.display options =
      (reduction.render ['\n'] options.visibleSpaces).1.bold ++ '\n' ::
        if options.quiet ∨ (reduction.render ['\n'] options.visibleSpaces).2 = [] then []
        else (pieces '\n' (reduction.render ['\n'] options.visibleSpaces).2).flatMap fun step =>
          [' ', ' '] ++ coloured .cyan ['β'] ++ [' '] ++ step ++ ['\n'] := rfl
  rw [shown, Session.render_fst, shownLines, ended, List.flatMap_cons, List.append_cons]
  congr 1
  cases options.quiet with
  | true => simp
  | false =>
      by_cases none : reduction.steps = []
      · simp [render_snd, none, joined]
      · rw [if_neg (by simp [render_ne_nil none]), pieces_render none]
        simp [List.flatMap_map, stepLine]

theorem isOneLine_shownLines :
    ∀ line ∈ reduction.shownLines options, isOneLine line = true := by
  intro line isLine
  rcases List.mem_cons.mp isLine with rfl | isStep
  · rw [isOneLine_bold, Term.isOneLine_output]
  · split at isStep
    case isTrue => cases isStep
    case isFalse =>
      obtain ⟨step, -, rfl⟩ := List.mem_map.mp isStep
      simp only [stepLine, isOneLine_append, isOneLine_coloured, step.isOneLine_output]
      rfl

end Reduction

/-! ## Reading it again -/

theorem Term.parse_print {term : Term} (shallow : deepest 0 term.print ≤ nestingAllowance) :
    parse term.print = .ok term := by
  have spelled := spelling_print term
  exact parse_eq_ok_iff.mpr ⟨spelled, spelled.deepest_eq_nesting ▸ shallow⟩

/-- `contraction.ReadFrom line`: there is one place in a line where it can be cut at an arrow, and what
stands on the two sides is read as the redex and as the result, unless its parentheses nest too deep. -/
def Contraction.ReadFrom (contraction : Contraction) (line : Text) : Prop :=
  ∃ left right,
    (∀ front rest, line = front ++ arrow ++ rest ↔ front = left ∧ rest = right) ∧
    (Term.deepest 0 left ≤ Term.nestingAllowance → Term.parse left = .ok contraction.redex) ∧
    (Term.deepest 0 right ≤ Term.nestingAllowance → Term.parse right = .ok contraction.result)

theorem Contraction.readFrom_print (contraction : Contraction) :
    contraction.ReadFrom contraction.print :=
  ⟨contraction.redex.print, contraction.result.print, fun _ _ => print_eq_append_iff,
    Term.parse_print, Term.parse_print⟩

/-- What is shown of a reduction is one line for its normal form and, unless they are left out, one for
each contraction, in order.  Without underscores for the spaces it can be read again: the lines of the
trace as the contractions, each of them cut at its arrow, and the normal form as itself. -/
theorem display_reads_back (options : Options) (reduction : Reduction) :
    reduction.display options = ended (reduction.shownLines options) ∧
    lines (reduction.display options) = reduction.shownLines options ∧
    List.Forall₂ Contraction.ReadFrom reduction.steps (lines (reduction.render "\n" false).2) ∧
    (Term.deepest 0 (reduction.render "\n" false).1 ≤ Term.nestingAllowance →
      Term.parse (reduction.render "\n" false).1 = .ok reduction.term) := by
  refine ⟨reduction.display_eq options, ?_, ?_, ?_⟩
  · rw [reduction.display_eq options]
    exact lines_ended Reduction.isOneLine_shownLines
  · have cut : lines (reduction.render "\n" false).2 =
        reduction.steps.map (Contraction.output false) := reduction.lines_render false
    rw [cut, List.forall₂_map_right_iff, List.forall₂_same]
    exact fun step _ => step.readFrom_print
  · exact Term.parse_print

end BetaNormal
