import BetaNormal.Proofs.Abbreviation.Reserved
import BetaNormal.Proofs.Session.Loading
import BetaNormal.Proofs.Session.Results

/-!
# Output as input

What a session prints for a normal form can be given to a session again.  The names in it were read
from a text whose abbreviations had been written out, or they were made up from the stem `a`, so no
abbreviation is found in them, and an underscore in the output can only stand for a space.
-/

namespace BetaNormal

namespace Term

open Text

variable {term : Term} {visibleSpaces : Bool} {char : Char}

/-! ## A printed term on a line -/

/-- A term as a session prints it, with its spaces as underscores or not. -/
def output (visibleSpaces : Bool) (term : Term) : Text :=
  if visibleSpaces then term.print.spacesShown else term.print

def outputChar (visibleSpaces : Bool) (char : Char) : Char :=
  if visibleSpaces = true ∧ char = ' ' then '_' else char

theorem output_eq_map (visibleSpaces : Bool) (term : Term) :
    term.output visibleSpaces = term.print.map (outputChar visibleSpaces) := by
  cases visibleSpaces with
  | true => simp [output, spacesShown, outputChar]
  | false =>
      have same : outputChar false = id := by
        funext char
        simp [outputChar]
      simp [output, same]

theorem written_output (visibleSpaces : Bool) (term : Term) :
    List.Forall₂ WrittenAs term.print (term.output visibleSpaces) := by
  rw [output_eq_map, List.forall₂_map_right_iff, List.forall₂_same]
  intro char _
  rw [outputChar]
  split
  case isTrue both => exact .inr ⟨both.2, rfl⟩
  case isFalse => exact .inl rfl

theorem classify_print (occurs : char ∈ term.print) :
    Name.allows char = true ∨ char ∈ signs := by
  induction term with
  | var name => exact .inl (List.all_eq_true.mp name.allowed char occurs)
  | abs binder body ih =>
      simp only [print, List.cons_append, List.mem_cons, List.mem_append] at occurs
      rcases occurs with rfl | named | rfl | inBody
      · exact .inr (by decide)
      · exact .inl (List.all_eq_true.mp binder.allowed char named)
      · exact .inr (by decide)
      · exact ih inBody
  | app function argument function_ih argument_ih =>
      have whole : (app function argument).print =
          '(' :: (function.print ++ (' ' :: (argument.print ++ [')']))) := by simp [print]
      simp only [whole, List.mem_cons, List.mem_append, List.not_mem_nil, or_false] at occurs
      rcases occurs with rfl | inFunction | rfl | inArgument | rfl
      · exact .inr (by decide)
      · exact function_ih inFunction
      · exact .inr (by decide)
      · exact argument_ih inArgument
      · exact .inr (by decide)

theorem isOneLine_print (term : Term) : isOneLine term.print = true := by
  have signs_oneLine : isOneLine signs = true := by decide
  refine List.all_eq_true.mpr fun char occurs => ?_
  rcases classify_print occurs with allowed | isSign
  · rw [not_endsReadLine_of_allows allowed]
    rfl
  · exact List.all_eq_true.mp signs_oneLine char isSign

theorem mem_output (occurs : char ∈ term.output visibleSpaces) :
    char = '_' ∨ char ∈ term.print := by
  rw [output_eq_map] at occurs
  obtain ⟨printed, isPrinted, rfl⟩ := List.mem_map.mp occurs
  rw [outputChar]
  split
  case isTrue => exact .inl rfl
  case isFalse => exact .inr isPrinted

theorem isOneLine_output (visibleSpaces : Bool) (term : Term) :
    isOneLine (term.output visibleSpaces) = true := by
  refine List.all_eq_true.mpr fun char occurs => ?_
  rcases mem_output occurs with rfl | isPrinted
  · rfl
  · exact List.all_eq_true.mp (isOneLine_print term) char isPrinted

theorem opened_output (visibleSpaces : Bool) (term : Term) :
    opened (term.output visibleSpaces) = 0 := by
  have same : ∀ text : Text, opened (text.map (outputChar visibleSpaces)) = opened text := by
    intro text
    induction text with
    | nil => rfl
    | cons char text ih =>
        rw [List.map_cons, opened_cons, ih, opened_cons char]
        rw [outputChar]
        split
        case isTrue both => rw [both.2]; rfl
        case isFalse => rfl
  have holds : BreaksInside 0 (term.print ++ []) :=
    (spelling_print term).breaksInside (Int.le_refl 0) rfl
  rw [breaksInside_append (isOneLine_print term), Int.zero_add] at holds
  rw [output_eq_map, same]
  exact holds

theorem trim_output (visibleSpaces : Bool) (term : Term) :
    trim (term.output visibleSpaces) = term.output visibleSpaces := by
  have spelled := spelling_print term
  obtain ⟨first, others, begins, firstSolid, -⟩ := spelled.exists_eq_cons
  obtain ⟨front, last, ends, lastSolid⟩ := spelled.exists_eq_concat
  have notBlank : ∀ char ∈ term.print, isSpacing char = false →
      isBlank (outputChar visibleSpaces char) = false := by
    intro char occurs solid
    rw [outputChar]
    split
    case isTrue => rfl
    case isFalse => exact spelled.not_isBlank occurs solid
  refine trim_eq_self ?_ ?_
  · simp [output_eq_map, begins, notBlank first (by simp [begins]) firstSolid]
  · simp [output_eq_map, ends, notBlank last (by simp [ends]) lastSolid]

theorem output_ne_nil (visibleSpaces : Bool) (term : Term) : term.output visibleSpaces ≠ [] := by
  obtain ⟨first, others, begins, -⟩ := (spelling_print term).exists_eq_cons
  simp [output_eq_map, begins]

end Term

/-! ## The line as a source -/

namespace Source

variable (visibleSpaces : Bool) (term : Term)

theorem content_output : content (term.output visibleSpaces) = term.output visibleSpaces := by
  have noMark : ';' ∉ term.output visibleSpaces := by
    intro occurs
    rcases Term.mem_output occurs with other | isPrinted
    · exact absurd other (by decide)
    · exact not_mem_of_spelling (Term.spelling_print term) isPrinted
  have itself : Decorates (term.output visibleSpaces) (term.output visibleSpaces) :=
    ⟨[], [], [], by simp, rfl, rfl, .inl rfl⟩
  rw [itself.content_eq noMark, Term.trim_output]

theorem takeLine_output (number : Int) (entries : List Entry) :
    takeLine (term.output visibleSpaces) number false entries =
      .ok (term.output visibleSpaces, entries ++ [⟨term.output visibleSpaces, number⟩]) := by
  have solid : content (term.output visibleSpaces) ≠ [] := by
    rw [content_output]
    exact Term.output_ne_nil visibleSpaces term
  rw [takeLine_start solid, content_output]

theorem isOpen_output : isOpen (term.output visibleSpaces) = false := by
  rw [isOpen_eq, Term.opened_output]
  rfl

/-- The line is an expression of its own, whatever comes before and after it. -/
theorem takeLines_output (number : Int) (rest : Text) (entries : List Entry) :
    takeLines number (Text.lines (term.output visibleSpaces ++ '\n' :: rest)) ⟨entries, false⟩ =
      takeLines (number + 1) rest.lines
        ⟨entries ++ [⟨term.output visibleSpaces, number⟩], false⟩ := by
  rw [Text.lines_append (Term.isOneLine_output visibleSpaces term) (Text.lines_newline rest),
    List.append_nil, takeLines]
  simp only [takeLine_output, isOpen_output]

end Source

/-! ## Reading and reducing it again -/

namespace Session

variable {start session again : Session} {reduction : Reduction} {term : Term}
variable {visibleSpaces : Bool} {shown : Text} {settings : Settings} {capacity : Capacity}

theorem readExpression_output (plain : term.IsPlain)
    (shallow : Term.deepest 0 term.print ≤ Term.nestingAllowance) (visibleSpaces : Bool) :
    readExpression true (term.output visibleSpaces) = .ok term := by
  have spelled := Term.spelling_print term
  rw [readExpression_eq_ok_iff, if_pos rfl,
    plain.expand_eq (Term.written_output visibleSpaces term), Term.parse_eq_ok_iff]
  exact ⟨spelled, spelled.deepest_eq_nesting ▸ shallow⟩

theorem Reduced.isPlain (reduced : start.Reduced reduction)
    (abbreviated : start.options.abbreviations = true)
    (stem : start.supply.stem = Supply.standard.stem) : reduction.term.IsPlain := by
  obtain ⟨expression, term, supply, accepted, sameStem, success⟩ := reduced
  rw [Accepts, abbreviated, readExpression_eq_ok_iff, if_pos rfl] at accepted
  intro name occurs
  rcases Term.names_of_normalizeUnder success name occurs with older | ⟨number, rfl⟩
  · exact Term.isPlain_of_parse accepted name older
  · exact Supply.isPlain_candidate (sameStem.trans stem) number

theorem display_nil (options : Options) (term : Term) :
    Reduction.display options ⟨term, []⟩ = (term.output options.visibleSpaces).bold ++ "\n" := by
  cases shows : options.visibleSpaces <;>
    simp [Reduction.display, Reduction.render, shows, Term.output, Text.joined, Text.spacesShown]

/-- A session with nothing else to do reads the output, reduces it in no step and prints it. -/
theorem run_output (number : Int) (idle : again.queue = [])
    (reads : readExpression again.options.abbreviations shown = .ok term)
    (reduces : term.normalizeUnder again.capacity again.options.settings again.supply =
      (.ok ⟨term, []⟩, again.supply)) :
    ∃ added last, again.add shown number = (.ok (), added) ∧
      added.run = ((term.output again.options.visibleSpaces).bold ++ "\n", last, none) ∧
      last.results = again.results ++ [⟨term, []⟩] ∧ last.supply = again.supply := by
  have new : number ∉ again.queue.map Task.line := by simp [idle]
  have added := add_eq reads new
  rw [idle, List.nil_append] at added
  obtain ⟨left, performed⟩ := exists_perform_eq
    { again with
      console := again.console.leaveLine again.path
      queue := [⟨number, shown, term⟩] }
    ⟨number, shown, term⟩ reduces
  refine ⟨_, { again with console := left, queue := [], results := again.results ++ [⟨term, []⟩] },
    added, ?_, rfl, rfl⟩
  rw [run, performAll, performed, display_nil]
  simp only [performAll, List.append_nil]

/-- `ReadsBack`: a text is the output for a normal form, and it comes back to it if it is given as a
line of a source. -/
structure ReadsBack (capacity : Capacity) (settings : Settings) (visibleSpaces : Bool)
    (normal : Term) (shown : Text) : Prop where
  line : ∀ number entries,
    Source.takeLine shown number false entries = .ok (shown, entries ++ [⟨shown, number⟩])
  closed : Source.isOpen shown = false
  lines : ∀ number rest entries,
    Source.takeLines number (Text.lines (shown ++ '\n' :: rest)) ⟨entries, false⟩ =
      Source.takeLines (number + 1) (Text.lines rest) ⟨entries ++ [⟨shown, number⟩], false⟩
  reads : readExpression true shown = .ok normal
  reduces : ∀ supply, normal.normalizeUnder capacity settings supply = (.ok ⟨normal, []⟩, supply)
  prints : ∀ (again : Session) (number : Int), again.options.abbreviations = true →
    again.options.visibleSpaces = visibleSpaces → again.options.settings = settings →
    again.capacity = capacity → again.queue = [] →
      ∃ added last, again.add shown number = (.ok (), added) ∧
        added.run = (shown.bold ++ "\n", last, none) ∧
        last.results = again.results ++ [⟨normal, []⟩] ∧ last.supply = again.supply

theorem Reduced.readsBack (reduced : start.Reduced reduction)
    (abbreviated : start.options.abbreviations = true)
    (stem : start.supply.stem = Supply.standard.stem)
    (shallow : Term.deepest 0 reduction.term.print ≤ Term.nestingAllowance) (visibleSpaces : Bool) :
    ReadsBack start.capacity start.options.settings visibleSpaces reduction.term
      (reduction.term.output visibleSpaces) := by
  have reads := readExpression_output (reduced.isPlain abbreviated stem) shallow visibleSpaces
  obtain ⟨_, _, _, -, -, success⟩ := reduced
  have again := Term.normalizeUnder_again success
  refine ⟨Source.takeLine_output _ _, Source.isOpen_output _ _, Source.takeLines_output _ _, reads,
    again, ?_⟩
  rintro session number abbreviates rfl settings capacity idle
  refine run_output number idle (abbreviates ▸ reads) ?_
  rw [capacity, settings]
  exact again session.supply

theorem render_fst (reduction : Reduction) (separator : Text) (visibleSpaces : Bool) :
    (reduction.render separator visibleSpaces).1 = reduction.term.output visibleSpaces := by
  cases visibleSpaces <;> rfl

/-- Whatever a session with abbreviations and the standard stem has found, its normal forms read
back: what is printed for one of them is an expression on a line of its own that stands for it,
reduces to it without a contraction and is printed the same. -/
theorem results_read_back {console : Console} {path : Text} {commandLine : Bool} {options : Options}
    {supply : Supply} (abbreviated : options.abbreviations = true)
    (stem : supply.stem = Supply.standard.stem)
    (reachable : Reachable (create console path commandLine options capacity supply) session)
    (isResult : reduction ∈ session.results)
    (shallow : Term.deepest 0 reduction.term.print ≤ Term.nestingAllowance)
    (separator : Text) (visibleSpaces : Bool) :
    ReadsBack capacity options.settings visibleSpaces reduction.term
      (reduction.render separator visibleSpaces).1 := by
  have reduced := (reachable.keeps rfl rfl).results reduction isResult
  rw [render_fst]
  exact reduced.readsBack abbreviated stem shallow visibleSpaces

/-- A session that has been given a term whose inner binder has to be renamed. -/
def renamedSession : Session :=
  ((create (.ofFatal true) commandLinePath true .standard .standard .standard).add
    "(λx.λy.(x_y)_y)" 1).2.run.2.1

/-- What it prints with underscores for the spaces is `λa0.(y_a0)`. -/
theorem results_read_back_renamed :
    ReadsBack .standard .standard true Term.captureAvoided
      ['λ', 'a', '0', '.', '(', 'y', '_', 'a', '0', ')'] := by
  have results : renamedSession.results =
      [⟨Term.captureAvoided,
        [⟨.abs .x (.abs .y (.app (.var .x) (.var .y))), .var .y, Term.captureAvoided⟩]⟩] := by
    decide +kernel
  have reachable : Reachable
      (create (.ofFatal true) commandLinePath true .standard .standard .standard) renamedSession :=
    .run (.add _ _ .refl)
  have rendered : Term.captureAvoided.output true =
      ['λ', 'a', '0', '.', '(', 'y', '_', 'a', '0', ')'] := by decide +kernel
  rw [← rendered]
  exact results_read_back rfl rfl reachable (results ▸ List.mem_cons_self) (by decide +kernel) "\n"
    true

end Session

end BetaNormal
