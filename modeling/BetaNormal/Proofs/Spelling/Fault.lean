import BetaNormal.Proofs.Spelling.Failing

/-!
# Where a text goes wrong

A text that is refused, and not for nesting too deep, is blamed at the end of the longest part at
its front that is the beginning of some spelling.  What the reader has passed over when it gives up
can always be completed.  If it could be gone on with by the next character, the reader would have
to read the completed text, but it gives up there as well.
-/

namespace BetaNormal.Term

variable {function argument term : Term} {text rest front left right gap : Text}
variable {depth : Nat} {cause : ParseCause}

/-! ## What has been passed over can be completed -/

/-- Whether a text is the beginning of some spelling, or the whole of one. -/
def Completable (front : Text) : Prop := ∃ term rest, Spelling term (front ++ rest)

theorem Completable.of_append (completable : Completable (front ++ rest)) : Completable front := by
  obtain ⟨term, more, spelled⟩ := completable
  rw [List.append_assoc] at spelled
  exact ⟨term, _, spelled⟩

theorem completable_nil : Completable [] := ⟨var .x, _, spelling_print (var .x)⟩

theorem Completable.below (binder : Name) (body : Completable front) :
    Completable (lambda :: (binder.text ++ '.' :: front)) := by
  obtain ⟨term, rest, spelled⟩ := body
  have whole := Spelling.abs binder spelled
  exact ⟨_, rest, by simpa using whole⟩

theorem FunctionRead.spelling_app (first : FunctionRead depth function left gap (right ++ rest))
    (second : Spelling argument right) :
    Spelling (app function argument) ('(' :: left ++ gap ++ right ++ [')']) :=
  .app first.spelled first.blank (gap_ne_nil_of_runsInto first.stops second) second

theorem Completable.inFunction (below : Completable front) : Completable ('(' :: front) := by
  obtain ⟨term, rest, spelled⟩ := below
  have whole : Spelling (app term (var .x)) ('(' :: (front ++ rest) ++ [' '] ++ ['x'] ++ [')']) :=
    .app spelled (by decide) (by simp) (.var .x)
  exact ⟨_, rest ++ [' ', 'x', ')'], by simpa using whole⟩

theorem Completable.inArgument (first : FunctionRead depth function left gap (front ++ rest))
    (below : Completable front) : Completable ('(' :: (left ++ (gap ++ front))) := by
  cases front with
  | nil =>
      -- nothing of the argument is there yet, and one more blank keeps any argument apart
      have blank : (gap ++ [' ']).all isSpacing = true := by simp [first.blank, isSpacing]
      have whole : Spelling (app function (var .x))
          ('(' :: left ++ (gap ++ [' ']) ++ ['x'] ++ [')']) :=
        .app first.spelled blank (by simp) (.var .x)
      exact ⟨_, [' ', 'x', ')'], by simpa using whole⟩
  | cons char others =>
      obtain ⟨term, more, spelled⟩ := below
      have same : (char :: others ++ more ++ []).head? = (char :: others ++ rest).head? := rfl
      have whole := (first.replace same (Nat.le_refl depth)).spelling_app spelled
      exact ⟨_, more ++ [')'], by simpa using whole⟩

theorem Fails.completable (fails : Fails depth cause front rest) (shallow : cause ≠ .tooDeep) :
    Completable front := by
  induction fails with
  | nothing => exact completable_nil
  | noTerm _ _ _ => exact completable_nil
  | tooDeep => exact absurd rfl shallow
  | noBinder _ =>
      have whole : Completable ([lambda] ++ (Name.x.text ++ ['.'])) := completable_nil.below .x
      exact whole.of_append
  | noPoint binder _ _ =>
      have whole : Completable (lambda :: binder.text ++ ['.']) := completable_nil.below binder
      exact whole.of_append
  | body binder _ ih => exact (ih shallow).below binder
  | function _ ih => exact (ih shallow).inFunction
  | argument first _ ih => exact .inArgument first (ih shallow)
  | unclosed first second _ _ _ =>
      have whole := first.spelling_app second
      exact ⟨_, [')'], by simpa using whole⟩

/-! ## Nesting too deep -/

theorem Fails.depth_lt_deepest (fails : Fails depth cause front rest) (deep : cause = .tooDeep)
    (opened : Nat) : opened + depth < deepest opened (front ++ rest) := by
  induction fails generalizing opened with
  | nothing => cases deep
  | noTerm _ _ _ => cases deep
  | @tooDeep rest =>
      have least := le_deepest (opened + 1) rest
      rw [List.nil_append, deepest, if_pos rfl]
      omega
  | noBinder fails => exact absurd deep (ne_tooDeep_of_readName fails)
  | noPoint _ _ fails => exact absurd deep (ne_tooDeep_of_readChar fails)
  | @body _ _ front rest binder _ ih =>
      have whole : lambda :: (binder.text ++ '.' :: front) ++ rest =
          lambda :: (binder.text ++ ['.']) ++ (front ++ rest) := by simp
      rw [whole, deepest_append (plain_of_binder binder)]
      exact ih deep opened
  | function _ ih =>
      have below := ih deep (opened + 1)
      rw [List.cons_append, deepest, if_pos rfl]
      omega
  | argument first _ ih =>
      have below := ih deep (opened + 1)
      rw [List.cons_append, deepest, if_pos rfl, List.append_assoc, List.append_assoc,
        first.spelled.deepest_eq, deepest_append (plain_of_blank first.blank)]
      omega
  | unclosed _ _ _ _ fails => exact absurd deep (ne_tooDeep_of_readChar fails)

/-! ## The position of a fault -/

/-- A text is cut in front of its fault: what stands before it is the beginning of a spelling, and
is none any more with the next character, whatever follows. -/
structure CutAtFault (front rest : Text) : Prop where
  completable : Completable front
  hopeless : ∀ term rest', rest'.head? = rest.head? → ¬ Spelling term (front ++ rest')

theorem Fails.cutAtFault (fails : Fails depth cause front rest) (shallow : cause ≠ .tooDeep) :
    CutAtFault front rest where
  completable := fails.completable shallow
  hopeless := by
    intro term rest' same spelled
    have again := fails.replace shallow same (Nat.le_max_left depth term.nesting)
    have reads : readTerm (max depth term.nesting) (front ++ rest' ++ []) = .ok (term, []) :=
      spelled.readTerm_eq (Nat.le_max_right _ _) fun _ => rfl
    rw [List.append_nil, again.readTerm_eq] at reads
    cases reads

theorem Spelling.cutAtFault (spelled : Spelling term front)
    (stops : term.endsInName = true → beginsInName rest = false) (leftOver : rest ≠ []) :
    CutAtFault front rest where
  completable := ⟨term, [], by rwa [List.append_nil]⟩
  hopeless := by
    intro other rest' same whole
    have reads : readTerm (max term.nesting other.nesting) (front ++ rest') = .ok (term, rest') :=
      spelled.readTerm_eq (Nat.le_max_left _ _) fun ends =>
        (beginsInName_congr same).trans (stops ends)
    have readsAll : readTerm (max term.nesting other.nesting) (front ++ rest' ++ []) =
        .ok (other, []) := whole.readTerm_eq (Nat.le_max_right _ _) fun _ => rfl
    rw [List.append_nil, reads] at readsAll
    cases readsAll
    exact leftOver (List.head?_eq_none_iff.mp same.symm)

theorem CutAtFault.completable_take_iff (cut : CutAtFault front rest) {count : Nat}
    (within : count ≤ (front ++ rest).length) :
    Completable ((front ++ rest).take count) ↔ count ≤ front.length := by
  constructor
  · rintro ⟨term, more, spelled⟩
    by_contra beyond
    obtain ⟨further, rfl⟩ : ∃ further, count = front.length + (further + 1) :=
      ⟨count - front.length - 1, by omega⟩
    cases rest with
    | nil =>
        rw [List.append_nil] at within
        omega
    | cons char others =>
        rw [List.take_length_add_append, List.take_succ_cons, List.append_assoc] at spelled
        exact cut.hopeless term (char :: others.take further ++ more) rfl spelled
  · intro short
    rw [List.take_append_of_le_length short]
    have whole : Completable (front.take count ++ front.drop count) := by
      rw [List.take_append_drop]
      exact cut.completable
    exact whole.of_append

theorem CutAtFault.rest_eq_nil_iff (cut : CutAtFault front rest) :
    rest = [] ↔ ∃ term more, more ≠ [] ∧ Spelling term (front ++ rest ++ more) := by
  constructor
  · rintro rfl
    obtain ⟨term, more, spelled⟩ := cut.completable
    refine ⟨term, more, ?_, by rwa [List.append_nil]⟩
    rintro rfl
    exact cut.hopeless term [] rfl spelled
  · rintro ⟨term, more, -, spelled⟩
    cases rest with
    | nil => rfl
    | cons char others =>
        rw [List.append_assoc] at spelled
        exact absurd spelled (cut.hopeless term (char :: others ++ more) rfl)

/-- A text is refused where the reader gives up on it, or behind a term if it goes on there. -/
theorem exists_of_refused {fault : ParseFault} (refused : parse text = .error fault) :
    ∃ front rest, text = front ++ rest ∧ fault.text = text ∧ fault.position = front.length ∧
      (Fails nestingAllowance fault.cause front rest ∨
        fault.cause = .leftOver rest ∧ CutAtFault front rest) := by
  unfold parse at refused
  split at refused
  case h_1 cause rest read =>
    cases refused
    obtain ⟨front, rfl, fails⟩ := explained text _ _ _ read
    exact ⟨front, rest, rfl, rfl, by simp, .inl fails⟩
  case h_2 => cases refused
  case h_3 term rest leftOver read =>
    cases refused
    obtain ⟨⟨front, spelled, rfl⟩, -, stops⟩ := readAs_of_readTerm read
    exact ⟨front, rest, rfl, rfl, by simp, .inr ⟨rfl, spelled.cutAtFault stops leftOver⟩⟩

/-- The report of a text that is refused is about the whole text, and its position is the length of
the longest part at the front that is the beginning of some spelling: all parts up to there are,
and no longer one is.  It is the end of the text exactly if the text is the beginning of a spelling
that goes on.  The one exception is a text that was given up for nesting too deep, which it does. -/
theorem parse_blames {fault : ParseFault} (refused : parse text = .error fault) :
    fault.report = .malformed (fault.cause.pieces text) text fault.position ∧
    (fault.cause = .tooDeep → nestingAllowance < deepest 0 text) ∧
    (fault.cause ≠ .tooDeep →
      fault.position ≤ text.length ∧
      (∀ count ≤ text.length, Completable (text.take count) ↔ count ≤ fault.position) ∧
      (fault.position = text.length ↔
        ∃ term rest, rest ≠ [] ∧ Spelling term (text ++ rest))) := by
  obtain ⟨front, rest, rfl, isText, isPosition, fails⟩ := exists_of_refused refused
  refine ⟨by rw [ParseFault.report, isText], fun deep => ?_, fun shallow => ?_⟩
  · rcases fails with fails | ⟨isLeftOver, -⟩
    · simpa using fails.depth_lt_deepest deep 0
    · rw [deep] at isLeftOver
      contradiction
  · have cut : CutAtFault front rest := by
      rcases fails with fails | ⟨-, cut⟩
      · exact fails.cutAtFault shallow
      · exact cut
    rw [isPosition]
    refine ⟨by simp, fun count within => cut.completable_take_iff within, ?_⟩
    rw [← cut.rest_eq_nil_iff, List.length_append]
    simp

/-- `(xy)`: one name and nothing to apply it to. -/
theorem parse_blames_greedy :
    parse ['(', 'x', 'y', ')'] = .error ⟨['(', 'x', 'y', ')'], .notTerm ')', 3⟩ ∧
    Completable ['(', 'x', 'y'] ∧ ¬ Completable ['(', 'x', 'y', ')'] := by
  have refused : parse ['(', 'x', 'y', ')'] =
      .error ⟨['(', 'x', 'y', ')'], .notTerm ')', 3⟩ := by decide +kernel
  obtain ⟨-, longest, -⟩ := (parse_blames refused).2.2 (by simp)
  exact ⟨refused, (longest 3 (by decide)).mpr (by decide),
    fun completable => absurd ((longest 4 (by decide)).mp completable) (by decide)⟩

end BetaNormal.Term
