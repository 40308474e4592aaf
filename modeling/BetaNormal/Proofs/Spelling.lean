import BetaNormal.Proofs.Name
import BetaNormal.Proofs.Parser

/-!
# Spellings of a term

Which texts stand for a term: the printed term, and every text that differs from it in the blank
space between the two terms of applications only.  The parser takes these texts and no others, as
long as it has room for their parentheses, and a text stands for one term at most.

Two names in a row are the only danger.  A name is read as far as it goes, so what has been read
never ends in a character of a name with another such character behind it, and this is what the
reader leaves to whatever is read next.
-/

namespace BetaNormal.Term

variable {term function argument : Term} {text rest front left right gap : Text}
variable {depth opened : Nat}

/-! ## The relation -/

def isVariable : Term → Bool
  | var _ => true
  | _ => false

/-- Whether the two terms of an application would run into one another without a blank. -/
def runsInto (function argument : Term) : Bool :=
  function.print.getLast?.any Name.allows && argument.isVariable

/-- `Spelling term text`: a text is the printed term but for the space of each application, in the
place of which there may be any blank space, and none only where the two terms do not run into one
another. -/
inductive Spelling : Term → Text → Prop
  | var (name : Name) : Spelling (var name) name.text
  | abs {body : Term} {text : Text} (binder : Name) (below : Spelling body text) :
      Spelling (abs binder body) (lambda :: binder.text ++ '.' :: text)
  | app {function argument : Term} {left gap right : Text} (first : Spelling function left)
      (blank : gap.all isSpacing = true)
      (apart : runsInto function argument = true → gap ≠ [])
      (second : Spelling argument right) :
      Spelling (app function argument) ('(' :: left ++ gap ++ right ++ [')'])

theorem spelling_print (term : Term) : Spelling term term.print := by
  induction term with
  | var name => exact .var name
  | abs binder body ih => exact .abs binder ih
  | app function argument function_ih argument_ih =>
      have spelled : Spelling (app function argument)
          ('(' :: function.print ++ [' '] ++ argument.print ++ [')']) :=
        .app function_ih (by decide) (by simp) argument_ih
      simpa [print] using spelled

/-! ## How a spelling begins and ends -/

/-- Whether the last character of a term belongs to a name. -/
def endsInName : Term → Bool
  | var _ => true
  | abs _ body => body.endsInName
  | app _ _ => false

theorem endsInName_eq (term : Term) :
    term.endsInName = term.print.getLast?.any Name.allows := by
  induction term with
  | var name =>
      have last := List.getLast?_eq_some_getLast name.text_ne_nil
      have allowed := List.all_eq_true.mp name.allowed _ (List.getLast_mem name.text_ne_nil)
      simp [endsInName, print, last, allowed]
  | abs binder body ih =>
      have behind : (lambda :: binder.text ++ '.' :: body.print).getLast? =
          ('.' :: body.print).getLast? := by
        simp [List.getLast?_append, List.getLast?_cons]
      rw [endsInName, print, behind, ih]
      cases printed : body.print with
      | nil => rfl
      | cons first others => rw [List.getLast?_cons_cons]
  | app function argument =>
      have last : (app function argument).print.getLast? = some ')' := by
        simp [print, List.getLast?_append, List.getLast?_cons]
      rw [endsInName, last]
      rfl

theorem exists_text_eq_cons (name : Name) :
    ∃ char others, name.text = char :: others ∧ Name.allows char = true := by
  obtain ⟨text, text_ne_nil, allowed⟩ := name
  cases text with
  | nil => contradiction
  | cons char others =>
      simp only [List.all_cons, Bool.and_eq_true] at allowed
      exact ⟨char, others, rfl, allowed.1⟩

theorem not_allows_of_isSpacing {char : Char} (blank : isSpacing char = true) :
    Name.allows char = false := by
  simp only [isSpacing, Bool.or_eq_true, decide_eq_true_eq] at blank
  rcases blank with ((rfl | rfl) | rfl) | rfl <;> decide

/-- A spelling does not begin with blank space, and it begins with a character of a name only if
the term is a variable. -/
theorem Spelling.exists_eq_cons (spelled : Spelling term text) :
    ∃ char others, text = char :: others ∧ isSpacing char = false ∧
      Name.allows char = term.isVariable := by
  cases spelled with
  | var name =>
      obtain ⟨char, others, named, allowed⟩ := exists_text_eq_cons name
      refine ⟨char, others, named, ?_, allowed⟩
      cases blank : isSpacing char with
      | false => rfl
      | true =>
          rw [not_allows_of_isSpacing blank] at allowed
          contradiction
  | abs binder below => exact ⟨lambda, _, rfl, rfl, rfl⟩
  | app first blank apart second => exact ⟨'(', _, rfl, rfl, rfl⟩

theorem Spelling.dropWhile_append (spelled : Spelling term text) (rest : Text) :
    (text ++ rest).dropWhile isSpacing = text ++ rest := by
  obtain ⟨char, others, rfl, notBlank, -⟩ := spelled.exists_eq_cons
  simp [notBlank]

theorem Spelling.exists_eq_name_append {name : Name} (spelled : Spelling term text)
    (occurs : name ∈ term.names) : ∃ front rest, text = front ++ name.text ++ rest := by
  induction spelled with
  | var other =>
      obtain rfl := List.mem_singleton.mp occurs
      exact ⟨[], [], by simp⟩
  | @abs body text binder below ih =>
      rcases List.mem_cons.mp occurs with rfl | inBody
      · exact ⟨[lambda], '.' :: text, by simp⟩
      · obtain ⟨front, rest, rfl⟩ := ih inBody
        exact ⟨lambda :: binder.text ++ '.' :: front, rest, by simp⟩
  | @app function argument left gap right first blank apart second function_ih argument_ih =>
      rcases List.mem_append.mp occurs with inFunction | inArgument
      · obtain ⟨front, rest, rfl⟩ := function_ih inFunction
        exact ⟨'(' :: front, rest ++ gap ++ right ++ [')'], by simp⟩
      · obtain ⟨front, rest, rfl⟩ := argument_ih inArgument
        exact ⟨'(' :: left ++ gap ++ front, rest ++ [')'], by simp⟩

/-! ## Every spelling is read -/

/-- How deep applications are nested in a term, and so parentheses in each spelling of it. -/
def nesting : Term → Nat
  | var _ => 0
  | abs _ body => body.nesting
  | app function argument => max function.nesting argument.nesting + 1

/-- What follows the function of an application does not go on with a name that the function ends
in: it is a blank, or else the argument is no variable. -/
theorem beginsInName_gap (blank : gap.all isSpacing = true)
    (apart : runsInto function argument = true → gap ≠ []) (spelled : Spelling argument right)
    (rest : Text) (ends : function.endsInName = true) :
    beginsInName (gap ++ right ++ rest) = false := by
  cases gap with
  | cons char others =>
      simp only [List.all_cons, Bool.and_eq_true] at blank
      simpa [beginsInName] using not_allows_of_isSpacing blank.1
  | nil =>
      obtain ⟨char, others, rfl, -, begins⟩ := spelled.exists_eq_cons
      have noVariable : argument.isVariable = false := by
        cases isVariable : argument.isVariable with
        | false => rfl
        | true =>
            refine absurd rfl (apart ?_)
            rw [runsInto, ← endsInName_eq, ends, isVariable]
            rfl
      simpa [beginsInName, noVariable] using begins

/-- The other way round: where a name that the function ends in stops, the two terms are kept
apart. -/
theorem gap_ne_nil_of_runsInto
    (stops : function.endsInName = true → beginsInName (gap ++ (right ++ rest)) = false)
    (spelled : Spelling argument right) (runs : runsInto function argument = true) : gap ≠ [] := by
  rintro rfl
  rw [runsInto, ← endsInName_eq, Bool.and_eq_true] at runs
  obtain ⟨char, others, rfl, -, begins⟩ := spelled.exists_eq_cons
  have stopped := stops runs.1
  simp [beginsInName, begins, runs.2] at stopped

theorem Spelling.readTerm_eq (spelled : Spelling term front) (room : term.nesting ≤ depth)
    (stops : term.endsInName = true → beginsInName rest = false) :
    readTerm depth (front ++ rest) = .ok (term, rest) := by
  induction spelled generalizing depth rest with
  | var name =>
      obtain ⟨char, others, named, allowed⟩ := exists_text_eq_cons name
      have reads := readName_append name (stops rfl)
      rw [named, List.cons_append] at reads ⊢
      rw [readTerm_name depth allowed, reads]
      rfl
  | @abs body text binder below ih =>
      have named : readName (binder.text ++ ('.' :: text ++ rest)) =
          .ok (binder, '.' :: text ++ rest) := readName_append binder rfl
      have whole : lambda :: binder.text ++ '.' :: text ++ rest =
          lambda :: (binder.text ++ ('.' :: text ++ rest)) := by simp
      rw [whole, readTerm_lambda, named]
      simp only [bind, Except.bind, List.cons_append, readChar_cons, ih room stops]
      rfl
  | @app function argument left gap right first blank apart second function_ih argument_ih =>
      obtain ⟨fewer, rfl⟩ : ∃ fewer, depth = fewer + 1 := by
        refine ⟨depth - 1, ?_⟩
        simp only [nesting] at room
        omega
      have functionRoom : function.nesting ≤ fewer := by
        simp only [nesting] at room
        omega
      have argumentRoom : argument.nesting ≤ fewer := by
        simp only [nesting] at room
        omega
      have whole : '(' :: left ++ gap ++ right ++ [')'] ++ rest =
          '(' :: (left ++ (gap ++ right ++ ')' :: rest)) := by simp
      -- the function stops at the gap, and the argument at the closing parenthesis
      have functionRead : readTerm fewer (left ++ (gap ++ right ++ ')' :: rest)) =
          .ok (function, gap ++ right ++ ')' :: rest) :=
        function_ih functionRoom (beginsInName_gap blank apart second _)
      have gapPassed : (gap ++ right ++ ')' :: rest).dropWhile isSpacing =
          right ++ ')' :: rest := by
        rw [List.append_assoc, List.dropWhile_append_of_pos (List.all_eq_true.mp blank),
          second.dropWhile_append]
      have argumentRead : readTerm fewer (right ++ ')' :: rest) =
          .ok (argument, ')' :: rest) :=
        argument_ih argumentRoom fun _ => rfl
      rw [whole, readTerm_succ_paren, functionRead]
      simp only [bind, Except.bind, gapPassed, argumentRead, readChar_cons]
      rfl

/-- A text stands for one term at most. -/
theorem Spelling.unique {other : Term} (spelled : Spelling term text)
    (alsoSpelled : Spelling other text) : term = other := by
  have reads : readTerm (max term.nesting other.nesting) (text ++ []) = .ok (term, []) :=
    spelled.readTerm_eq (Nat.le_max_left _ _) fun _ => rfl
  have alsoReads : readTerm (max term.nesting other.nesting) (text ++ []) = .ok (other, []) :=
    alsoSpelled.readTerm_eq (Nat.le_max_right _ _) fun _ => rfl
  rw [reads] at alsoReads
  cases alsoReads
  rfl

/-! ## Nothing else is read -/

/-- What the reader has read when it leaves some rest: a spelling that fits into the room, and one
that could not go on into the rest. -/
structure ReadAs (depth : Nat) (text : Text) (term : Term) (rest : Text) : Prop where
  spelled : ∃ front, Spelling term front ∧ text = front ++ rest
  room : term.nesting ≤ depth
  stops : term.endsInName = true → beginsInName rest = false

theorem ReadAs.length_le (reads : ReadAs depth text term rest) : rest.length ≤ text.length := by
  obtain ⟨front, -, rfl⟩ := reads.spelled
  simp

theorem ReadAs.abs {binder : Name} {body : Term} {behind : Text}
    (below : ReadAs depth behind body rest) :
    ReadAs depth (lambda :: (binder.text ++ '.' :: behind)) (.abs binder body) rest := by
  obtain ⟨⟨front, spelled, rfl⟩, room, stops⟩ := below
  exact ⟨⟨_, .abs binder spelled, by simp⟩, room, stops⟩

theorem ReadAs.app {behind middle : Text} (first : ReadAs depth behind function middle)
    (second : ReadAs depth (middle.dropWhile isSpacing) argument (')' :: rest)) :
    ReadAs (depth + 1) ('(' :: behind) (.app function argument) rest := by
  obtain ⟨⟨left, functionSpelled, rfl⟩, functionRoom, functionStops⟩ := first
  obtain ⟨⟨right, argumentSpelled, passed⟩, argumentRoom, -⟩ := second
  have split : middle = middle.takeWhile isSpacing ++ (right ++ ')' :: rest) := by
    rw [← passed, List.takeWhile_append_dropWhile]
  have stops : function.endsInName = true →
      beginsInName (middle.takeWhile isSpacing ++ (right ++ ')' :: rest)) = false := by
    rw [← split]
    exact functionStops
  have apart := gap_ne_nil_of_runsInto stops argumentSpelled
  refine ⟨⟨_, .app functionSpelled List.all_takeWhile apart argumentSpelled, ?_⟩, ?_, ?_⟩
  · calc '(' :: (left ++ middle)
        = '(' :: (left ++ (middle.takeWhile isSpacing ++ (right ++ ')' :: rest))) := by
          rw [← split]
      _ = '(' :: left ++ middle.takeWhile isSpacing ++ right ++ [')'] ++ rest := by simp
  · simp only [nesting]
    omega
  · intro ends
    cases ends

theorem readAs_of_readTerm (reads : readTerm depth text = .ok (term, rest)) :
    ReadAs depth text term rest := by
  -- what stands behind a binder or a parenthesis is shorter than the whole
  induction length : text.length using Nat.strongRecOn generalizing depth text term rest with
  | ind size ih =>
    subst length
    cases text with
    | nil => simp [readTerm_nil] at reads
    | cons char behind =>
        by_cases isLambda : char = lambda
        · subst isLambda
          rw [readTerm_lambda] at reads
          obtain ⟨⟨binder, afterName⟩, named, reads⟩ := exists_of_bind_eq_ok reads
          obtain ⟨below, pointed, reads⟩ := exists_of_bind_eq_ok reads
          obtain ⟨⟨body, left⟩, bodyRead, reads⟩ := exists_of_bind_eq_ok reads
          cases reads
          obtain ⟨rfl, -⟩ := eq_append_of_readName named
          obtain rfl := eq_cons_of_readChar pointed
          refine (ih below.length ?_ bodyRead rfl).abs
          simp only [List.length_cons, List.length_append]
          omega
        by_cases isParen : char = '('
        · subst isParen
          cases depth with
          | zero => simp [readTerm_zero_paren] at reads
          | succ fewer =>
              rw [readTerm_succ_paren] at reads
              obtain ⟨⟨function, middle⟩, functionRead, reads⟩ := exists_of_bind_eq_ok reads
              obtain ⟨⟨argument, left⟩, argumentRead, reads⟩ := exists_of_bind_eq_ok reads
              obtain ⟨last, closed, reads⟩ := exists_of_bind_eq_ok reads
              cases reads
              obtain rfl := eq_cons_of_readChar closed
              have first := ih behind.length (Nat.lt_succ_self _) functionRead rfl
              have shorter := first.length_le
              have passed := (List.dropWhile_suffix (l := middle) isSpacing).length_le
              refine first.app (ih _ ?_ argumentRead rfl)
              simp only [List.length_cons]
              omega
        cases allowed : Name.allows char with
        | false => simp [readTerm_of_not_begin depth isLambda isParen allowed] at reads
        | true =>
            rw [readTerm_name depth allowed] at reads
            obtain ⟨⟨name, left⟩, named, reads⟩ := exists_of_bind_eq_ok reads
            cases reads
            obtain ⟨whole, stops⟩ := eq_append_of_readName named
            exact ⟨⟨_, .var name, whole⟩, Nat.zero_le _, fun _ => stops⟩

theorem readTerm_iff : readTerm depth text = .ok (term, rest) ↔ ReadAs depth text term rest := by
  constructor
  · exact readAs_of_readTerm
  · rintro ⟨⟨front, spelled, rfl⟩, room, stops⟩
    exact spelled.readTerm_eq room stops

/-! ## Parentheses of a text -/

/-- How deep parentheses nest in a text that stands below so many open ones. -/
def deepest (opened : Nat) : Text → Nat
  | [] => opened
  | char :: rest =>
      max opened (deepest
        (if char = '(' then opened + 1 else if char = ')' then opened - 1 else opened) rest)

theorem le_deepest (opened : Nat) (text : Text) : opened ≤ deepest opened text := by
  cases text with
  | nil => exact Nat.le_refl _
  | cons char rest => exact Nat.le_max_left _ _

/-- Characters other than parentheses do not count. -/
theorem deepest_append (plain : ∀ char ∈ text, char ≠ '(' ∧ char ≠ ')') :
    deepest opened (text ++ rest) = deepest opened rest := by
  induction text with
  | nil => rfl
  | cons char others ih =>
      have this := plain char List.mem_cons_self
      rw [List.cons_append, deepest, if_neg this.1, if_neg this.2,
        ih fun other isOther => plain other (List.mem_cons_of_mem _ isOther)]
      exact Nat.max_eq_right (le_deepest opened rest)

theorem plain_of_name (name : Name) : ∀ char ∈ name.text, char ≠ '(' ∧ char ≠ ')' := by
  intro char occurs
  have allowed := List.all_eq_true.mp name.allowed char occurs
  constructor <;> rintro rfl <;> exact absurd allowed (by decide)

theorem plain_of_binder (binder : Name) :
    ∀ char ∈ lambda :: (binder.text ++ ['.']), char ≠ '(' ∧ char ≠ ')' := by
  intro char occurs
  simp only [List.mem_cons, List.mem_append, List.not_mem_nil, or_false] at occurs
  rcases occurs with rfl | named | rfl
  · decide
  · exact plain_of_name binder char named
  · decide

theorem plain_of_blank (blank : gap.all isSpacing = true) :
    ∀ char ∈ gap, char ≠ '(' ∧ char ≠ ')' := by
  intro char occurs
  have isBlank := List.all_eq_true.mp blank char occurs
  constructor <;> rintro rfl <;> exact absurd isBlank (by decide)

theorem Spelling.deepest_eq (spelled : Spelling term front) (opened : Nat) (rest : Text) :
    deepest opened (front ++ rest) = max (opened + term.nesting) (deepest opened rest) := by
  have least := le_deepest opened rest
  induction spelled generalizing opened rest with
  | var name =>
      rw [deepest_append (plain_of_name name), nesting]
      omega
  | @abs body text binder below ih =>
      have whole : lambda :: binder.text ++ '.' :: text ++ rest =
          lambda :: (binder.text ++ ['.']) ++ (text ++ rest) := by simp
      rw [whole, deepest_append (plain_of_binder binder), ih opened rest least, nesting]
  | @app function argument left gap right first blank apart second function_ih argument_ih =>
      have whole : '(' :: left ++ gap ++ right ++ [')'] ++ rest =
          '(' :: (left ++ (gap ++ (right ++ ')' :: rest))) := by simp
      have closed : deepest (opened + 1) (')' :: rest) =
          max (opened + 1) (deepest opened rest) := rfl
      rw [whole, deepest, if_pos rfl, function_ih _ _ (le_deepest _ _),
        deepest_append (plain_of_blank blank), argument_ih _ _ (le_deepest _ _), closed, nesting]
      omega

/-! ## The parser -/

theorem parse_eq_ok_iff_readTerm :
    parse text = .ok term ↔ readTerm nestingAllowance text = .ok (term, []) := by
  unfold parse
  split
  case h_1 read => simp [read]
  case h_2 read => simp [read]
  case h_3 leftOver read =>
    simp only [read, Except.ok.injEq, Prod.mk.injEq, reduceCtorEq, false_iff, not_and]
    exact fun _ => leftOver

theorem parse_eq_ok_iff : parse text = .ok term ↔
    Spelling term text ∧ term.nesting ≤ nestingAllowance := by
  rw [parse_eq_ok_iff_readTerm, readTerm_iff]
  constructor
  · rintro ⟨⟨front, spelled, rfl⟩, room, -⟩
    rw [List.append_nil]
    exact ⟨spelled, room⟩
  · rintro ⟨spelled, room⟩
    exact ⟨⟨text, spelled, (List.append_nil text).symm⟩, room, fun _ => rfl⟩

theorem Spelling.deepest_eq_nesting (spelled : Spelling term text) :
    deepest 0 text = term.nesting := by
  have measured := spelled.deepest_eq 0 []
  rw [List.append_nil] at measured
  rw [measured, deepest]
  omega

end BetaNormal.Term
