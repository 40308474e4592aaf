import BetaNormal.Proofs.Spelling

/-!
# How reading fails

One rule for each way in which the reader of terms can give up.  Whatever holds of all texts that
are refused is proved by induction on these rules.  What makes the reader give up is the next
character alone, or that there is none: it gives up in the same place whatever stands behind that
character.
-/

namespace BetaNormal.Term

/-! ## Names and single characters -/

theorem readName_eq_error_iff {text rest : Text} {cause : ParseCause} :
    readName text = .error (cause, rest) ↔
      beginsInName text = false ∧
        cause = text.head?.elim .nameMissing .notName ∧ rest = text := by
  cases text with
  | nil => simp [readName, beginsInName, eq_comm]
  | cons char others =>
      cases allowed : Name.allows char with
      | true => simp [readName, beginsInName, allowed]
      | false => simp [readName, beginsInName, allowed, eq_comm]

theorem readChar_eq_error_iff {expected : Char} {text rest : Text} {cause : ParseCause} :
    readChar expected text = .error (cause, rest) ↔
      text.head? ≠ some expected ∧
        cause = text.head?.elim (.charMissing expected) (.notChar expected) ∧ rest = text := by
  cases text with
  | nil => simp [readChar, eq_comm]
  | cons char others =>
      by_cases same : char = expected
      · simp [readChar, same]
      · have other : ¬ expected = char := fun equal => same equal.symm
        simp [readChar, same, other, eq_comm]

theorem ne_tooDeep_of_readName {text rest : Text} {cause : ParseCause}
    (fails : readName text = .error (cause, rest)) : cause ≠ .tooDeep := by
  obtain ⟨-, rfl, -⟩ := readName_eq_error_iff.mp fails
  cases text.head? <;> simp

theorem ne_tooDeep_of_readChar {expected : Char} {text rest : Text} {cause : ParseCause}
    (fails : readChar expected text = .error (cause, rest)) : cause ≠ .tooDeep := by
  obtain ⟨-, rfl, -⟩ := readChar_eq_error_iff.mp fails
  cases text.head? <;> simp

/-- What has failed in two steps has failed in one of them. -/
theorem of_bind_eq_error {First Second : Type} {read : Except ParseStop First}
    {next : First → Except ParseStop Second} {stop : ParseStop}
    (fails : read >>= next = .error stop) :
    read = .error stop ∨ ∃ value, read = .ok value ∧ next value = .error stop := by
  cases read with
  | error other =>
      cases fails
      exact .inl rfl
  | ok value => exact .inr ⟨value, rfl, fails⟩

/-! ## The ways to give up -/

/-- The function of an application has been read, and the blank space behind it passed over. -/
structure FunctionRead (depth : Nat) (function : Term) (left gap behind : Text) : Prop where
  spelled : Spelling function left
  room : function.nesting ≤ depth
  blank : gap.all isSpacing = true
  stops : function.endsInName = true → beginsInName (gap ++ behind) = false
  noBlank : behind.head?.any isSpacing = false

/-- `Fails depth cause front rest`: the reader has passed over `front` when it gives up, with `rest`
still to come. -/
inductive Fails : (depth : Nat) → ParseCause → (front rest : Text) → Prop
  | nothing {depth} : Fails depth .termMissing [] []
  | noTerm {depth char rest} (noLambda : char ≠ lambda) (noParen : char ≠ '(')
      (noName : Name.allows char = false) : Fails depth (.notTerm char) [] (char :: rest)
  | tooDeep {rest} : Fails 0 .tooDeep [] ('(' :: rest)
  | noBinder {depth cause rest} (fails : readName rest = .error (cause, rest)) :
      Fails depth cause [lambda] rest
  | noPoint {depth cause rest} (binder : Name) (stops : beginsInName rest = false)
      (fails : readChar '.' rest = .error (cause, rest)) :
      Fails depth cause (lambda :: binder.text) rest
  | body {depth cause front rest} (binder : Name) (below : Fails depth cause front rest) :
      Fails depth cause (lambda :: (binder.text ++ '.' :: front)) rest
  | function {depth cause front rest} (below : Fails depth cause front rest) :
      Fails (depth + 1) cause ('(' :: front) rest
  | argument {depth cause front rest function left gap}
      (first : FunctionRead depth function left gap (front ++ rest))
      (below : Fails depth cause front rest) :
      Fails (depth + 1) cause ('(' :: (left ++ (gap ++ front))) rest
  | unclosed {depth cause rest function left gap argument right}
      (first : FunctionRead depth function left gap (right ++ rest))
      (second : Spelling argument right) (room : argument.nesting ≤ depth)
      (stops : argument.endsInName = true → beginsInName rest = false)
      (fails : readChar ')' rest = .error (cause, rest)) :
      Fails (depth + 1) cause ('(' :: (left ++ (gap ++ right))) rest

variable {function : Term} {text rest rest' front left gap behind : Text}
variable {depth more : Nat} {cause : ParseCause}

/-! ## The reader follows the rules -/

theorem FunctionRead.readTerm_eq (first : FunctionRead depth function left gap behind) :
    readTerm depth (left ++ (gap ++ behind)) = .ok (function, gap ++ behind) :=
  first.spelled.readTerm_eq first.room first.stops

theorem FunctionRead.dropWhile_eq (first : FunctionRead depth function left gap behind) :
    (gap ++ behind).dropWhile isSpacing = behind := by
  rw [List.dropWhile_append_of_pos (List.all_eq_true.mp first.blank)]
  cases behind with
  | nil => rfl
  | cons char others =>
      have notBlank : isSpacing char = false := first.noBlank
      simp [notBlank]

theorem exists_functionRead (reads : readTerm depth text = .ok (function, rest)) :
    ∃ left gap behind, text = left ++ (gap ++ behind) ∧ rest = gap ++ behind ∧
      FunctionRead depth function left gap behind := by
  obtain ⟨⟨left, spelled, rfl⟩, room, stops⟩ := readAs_of_readTerm reads
  have split : rest.takeWhile isSpacing ++ rest.dropWhile isSpacing = rest :=
    List.takeWhile_append_dropWhile
  have noBlank : (rest.dropWhile isSpacing).head?.any isSpacing = false := by
    have stopped := List.head?_dropWhile_not isSpacing rest
    cases found : (rest.dropWhile isSpacing).head? with
    | none => rfl
    | some char => simpa [found] using stopped
  refine ⟨left, rest.takeWhile isSpacing, rest.dropWhile isSpacing, ?_, split.symm,
    ⟨spelled, room, List.all_takeWhile, ?_, noBlank⟩⟩
  · rw [split]
  · rw [split]
    exact stops

theorem Fails.readTerm_eq (fails : Fails depth cause front rest) :
    readTerm depth (front ++ rest) = .error (cause, rest) := by
  induction fails with
  | nothing => exact readTerm_nil _
  | noTerm noLambda noParen noName => exact readTerm_of_not_begin _ noLambda noParen noName
  | tooDeep => exact readTerm_zero_paren _
  | noBinder fails =>
      rw [List.singleton_append, readTerm_lambda, fails]
      rfl
  | noPoint binder stops fails =>
      rw [List.cons_append, readTerm_lambda, readName_append binder stops]
      simp only [bind, Except.bind, fails]
  | body binder _ ih =>
      rw [List.cons_append, readTerm_lambda, List.append_assoc, readName_append binder rfl]
      simp only [bind, Except.bind, List.cons_append, readChar_cons, ih]
  | function _ ih =>
      rw [List.cons_append, readTerm_succ_paren, ih]
      rfl
  | argument first _ ih =>
      rw [List.cons_append, readTerm_succ_paren, List.append_assoc, List.append_assoc,
        first.readTerm_eq]
      simp only [bind, Except.bind, first.dropWhile_eq, ih]
  | unclosed first second room stops fails =>
      rw [List.cons_append, readTerm_succ_paren, List.append_assoc, List.append_assoc,
        first.readTerm_eq]
      simp only [bind, Except.bind, first.dropWhile_eq, second.readTerm_eq room stops, fails]

/-- Whether the rules say all of how the reader gives up on a text. -/
def Explained (text : Text) : Prop :=
  ∀ depth cause rest, readTerm depth text = .error (cause, rest) →
    ∃ front, text = front ++ rest ∧ Fails depth cause front rest

theorem explained_lambda
    (shorter : ∀ part : Text, part.length < (lambda :: behind).length → Explained part) :
    Explained (lambda :: behind) := by
  intro depth cause rest fails
  rw [readTerm_lambda] at fails
  rcases of_bind_eq_error fails with noBinder | ⟨⟨binder, afterName⟩, named, behindName⟩
  · obtain ⟨-, -, rfl⟩ := readName_eq_error_iff.mp noBinder
    exact ⟨[lambda], rfl, .noBinder noBinder⟩
  obtain ⟨rfl, stops⟩ := eq_append_of_readName named
  rcases of_bind_eq_error behindName with noPoint | ⟨body, pointed, behindPoint⟩
  · obtain ⟨-, -, rfl⟩ := readChar_eq_error_iff.mp noPoint
    exact ⟨lambda :: binder.text, rfl, .noPoint binder stops noPoint⟩
  obtain rfl := eq_cons_of_readChar pointed
  rcases of_bind_eq_error behindPoint with failsBelow | ⟨_, _, returns⟩
  · have less : body.length < (lambda :: (binder.text ++ '.' :: body)).length := by
      simp only [List.length_cons, List.length_append]
      omega
    obtain ⟨front, rfl, below⟩ := shorter body less _ _ _ failsBelow
    exact ⟨_, by simp, .body binder below⟩
  · cases returns

theorem explained_paren
    (shorter : ∀ part : Text, part.length < ('(' :: behind).length → Explained part) :
    Explained ('(' :: behind) := by
  intro depth cause rest fails
  cases depth with
  | zero =>
      rw [readTerm_zero_paren] at fails
      cases fails
      exact ⟨[], rfl, .tooDeep⟩
  | succ depth =>
      rw [readTerm_succ_paren] at fails
      rcases of_bind_eq_error fails with
        failsBelow | ⟨⟨function, middle⟩, functionRead, behindFunction⟩
      · obtain ⟨front, rfl, below⟩ := shorter _ (Nat.lt_succ_self _) _ _ _ failsBelow
        exact ⟨'(' :: front, rfl, .function below⟩
      obtain ⟨left, gap, behind, rfl, rfl, first⟩ := exists_functionRead functionRead
      rcases of_bind_eq_error behindFunction with
        failsBelow | ⟨⟨argument, last⟩, argumentRead, behindArgument⟩
      · rw [first.dropWhile_eq] at failsBelow
        have less : behind.length < ('(' :: (left ++ (gap ++ behind))).length := by
          simp only [List.length_cons, List.length_append]
          omega
        obtain ⟨front, rfl, below⟩ := shorter behind less _ _ _ failsBelow
        exact ⟨_, by simp, .argument first below⟩
      rw [first.dropWhile_eq] at argumentRead
      obtain ⟨⟨right, second, rfl⟩, room, stops⟩ := readAs_of_readTerm argumentRead
      rcases of_bind_eq_error behindArgument with unclosed | ⟨_, _, returns⟩
      · obtain ⟨-, -, rfl⟩ := readChar_eq_error_iff.mp unclosed
        exact ⟨_, by simp, .unclosed first second room stops unclosed⟩
      · cases returns

theorem explained (text : Text) : Explained text := by
  -- what stands behind a binder or a parenthesis is shorter than the whole
  induction length : text.length using Nat.strongRecOn generalizing text with
  | ind size ih =>
    subst length
    have shorter : ∀ part : Text, part.length < text.length → Explained part :=
      fun part less => ih part.length less part rfl
    cases text with
    | nil =>
        intro depth cause rest fails
        rw [readTerm_nil] at fails
        cases fails
        exact ⟨[], rfl, .nothing⟩
    | cons char behind =>
        by_cases isLambda : char = lambda
        · subst isLambda
          exact explained_lambda shorter
        by_cases isParen : char = '('
        · subst isParen
          exact explained_paren shorter
        intro depth cause rest fails
        cases allowed : Name.allows char with
        | true =>
            rw [readTerm_name depth allowed] at fails
            rcases of_bind_eq_error fails with noName | ⟨_, _, returns⟩
            · obtain ⟨begins, -⟩ := readName_eq_error_iff.mp noName
              simp [beginsInName, allowed] at begins
            · cases returns
        | false =>
            rw [readTerm_of_not_begin depth isLambda isParen allowed] at fails
            cases fails
            exact ⟨[], rfl, .noTerm isLambda isParen allowed⟩

/-! ## Only the next character counts -/

theorem head?_append_congr (same : rest'.head? = rest.head?) :
    (front ++ rest').head? = (front ++ rest).head? := by
  rw [List.head?_append, List.head?_append, same]

theorem beginsInName_congr (same : rest'.head? = rest.head?) :
    beginsInName rest' = beginsInName rest := by
  rw [beginsInName, beginsInName, same]

theorem readName_congr (fails : readName rest = .error (cause, rest))
    (same : rest'.head? = rest.head?) : readName rest' = .error (cause, rest') := by
  obtain ⟨begins, isCause, -⟩ := readName_eq_error_iff.mp fails
  rw [← same] at isCause
  exact readName_eq_error_iff.mpr ⟨(beginsInName_congr same).trans begins, isCause, rfl⟩

theorem readChar_congr {expected : Char} (fails : readChar expected rest = .error (cause, rest))
    (same : rest'.head? = rest.head?) : readChar expected rest' = .error (cause, rest') := by
  obtain ⟨other, isCause, -⟩ := readChar_eq_error_iff.mp fails
  rw [← same] at other isCause
  exact readChar_eq_error_iff.mpr ⟨other, isCause, rfl⟩

theorem FunctionRead.replace (first : FunctionRead depth function left gap rest)
    (same : rest'.head? = rest.head?) (least : depth ≤ more) :
    FunctionRead more function left gap rest' where
  spelled := first.spelled
  room := Nat.le_trans first.room least
  blank := first.blank
  stops ends := (beginsInName_congr (head?_append_congr same)).trans (first.stops ends)
  noBlank := by
    rw [same]
    exact first.noBlank

/-- What stands behind the next character makes no difference, and neither does more room for
parentheses if there was enough. -/
theorem Fails.replace (fails : Fails depth cause front rest) (shallow : cause ≠ .tooDeep)
    (same : rest'.head? = rest.head?) (least : depth ≤ more) : Fails more cause front rest' := by
  induction fails generalizing more with
  | nothing =>
      rw [List.head?_nil, List.head?_eq_none_iff] at same
      subst same
      exact .nothing
  | noTerm noLambda noParen noName =>
      rw [List.head?_cons] at same
      obtain ⟨others, rfl⟩ := List.head?_eq_some_iff.mp same
      exact .noTerm noLambda noParen noName
  | tooDeep => exact absurd rfl shallow
  | noBinder fails => exact .noBinder (readName_congr fails same)
  | noPoint binder stops fails =>
      exact .noPoint binder ((beginsInName_congr same).trans stops) (readChar_congr fails same)
  | body binder _ ih => exact .body binder (ih shallow same least)
  | function _ ih =>
      obtain ⟨fewer, rfl⟩ : ∃ fewer, more = fewer + 1 := ⟨more - 1, by omega⟩
      exact .function (ih shallow same (Nat.le_of_succ_le_succ least))
  | argument first _ ih =>
      obtain ⟨fewer, rfl⟩ : ∃ fewer, more = fewer + 1 := ⟨more - 1, by omega⟩
      have enough := Nat.le_of_succ_le_succ least
      exact .argument (first.replace (head?_append_congr same) enough) (ih shallow same enough)
  | unclosed first second room stops fails =>
      obtain ⟨fewer, rfl⟩ : ∃ fewer, more = fewer + 1 := ⟨more - 1, by omega⟩
      have enough := Nat.le_of_succ_le_succ least
      have stopsToo := fun ends => (beginsInName_congr same).trans (stops ends)
      exact .unclosed (first.replace (head?_append_congr same) enough) second
        (Nat.le_trans room enough) stopsToo (readChar_congr fails same)

end BetaNormal.Term
