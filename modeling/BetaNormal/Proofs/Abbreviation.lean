import BetaNormal.Abbreviation
import BetaNormal.Proofs.Name
import BetaNormal.Proofs.Spelling
import BetaNormal.Proofs.Text.Caseless

/-!
# Abbreviations in names

The names of abbreviations are written in capital letters and underscores.  In a printed term they
can only be found inside the names of its variables and binders, since every sign between two names
separates them.
-/

namespace BetaNormal

namespace Text

variable {word text : Text} {letter char : Char}

/-! ## Letters -/

/-- Whether a character is a capital letter or the underscore. -/
def isCapital (char : Char) : Bool := ('A' ≤ char && char ≤ 'Z') || char = '_'

theorem allows_of_isCapital (capital : isCapital char = true) : Name.allows char = true := by
  have below : 'Z' ≤ 'z' := by decide
  simp only [isCapital, Bool.or_eq_true, Bool.and_eq_true, decide_eq_true_eq] at capital
  rcases capital with ⟨least, most⟩ | rfl
  · simp [Name.allows, least, Char.le_trans most below]
  · decide

/-- What becomes of a character of names in either case. -/
theorem cases_of_allows (allowed : Name.allows char = true) :
    representative char.toUpper = representative char ∧
      (representative char).toUpper = char.toUpper ∧
      Name.allows (representative char) = true ∧ (isCapital char = true → char.toUpper = char) := by
  let holds := fun char => decide (representative char.toUpper = representative char ∧
    (representative char).toUpper = char.toUpper ∧ Name.allows (representative char) = true ∧
    (isCapital char = true → char.toUpper = char))
  have every : ∀ code < 123, Name.allows (Char.ofNat code) = true →
      holds (Char.ofNat code) = true := by decide
  exact of_decide_eq_true (Name.of_allows holds every allowed)

/-- Among the characters of names a capital letter is the same as itself and its small letter. -/
theorem sameLetter_eq (capital : isCapital letter = true) (allowed : Name.allows char = true) :
    sameLetter letter char = (letter == char.toUpper) := by
  obtain ⟨-, backLetter, -, isUpper⟩ := cases_of_allows (allows_of_isCapital capital)
  obtain ⟨same, back, -⟩ := cases_of_allows allowed
  rw [sameLetter, Bool.eq_iff_iff, beq_iff_eq, beq_iff_eq]
  constructor
  · intro alike
    rw [← isUpper capital, ← backLetter, alike, back]
  · rintro rfl
    exact same

theorem allows_representative (capital : isCapital letter = true) :
    Name.allows (representative letter) = true :=
  (cases_of_allows (allows_of_isCapital capital)).2.2.1

/-- The signs that stand between the names of a printed term. -/
def signs : List Char := [Term.lambda, '.', '(', ' ', ')']

theorem representative_of_mem_signs (isSign : char ∈ signs) : representative char = char := by
  have every : signs.all (fun sign => representative sign == sign) = true := by decide
  exact beq_iff_eq.mp (List.all_eq_true.mp every char isSign)

theorem not_allows_of_mem_signs (isSign : char ∈ signs) : Name.allows char = false := by
  have every : signs.all (fun sign => !Name.allows sign) = true := by decide
  simpa using List.all_eq_true.mp every char isSign

theorem separates_of_mem_signs (capital : word.all isCapital = true) (isSign : char ∈ signs) :
    separates word char = true := by
  rw [separates, List.all_eq_true]
  intro letter isLetter
  have allowed := allows_representative (List.all_eq_true.mp capital letter isLetter)
  have different : representative letter ≠ char := by
    intro same
    rw [same, not_allows_of_mem_signs isSign] at allowed
    contradiction
  rw [sameLetter, representative_of_mem_signs isSign]
  simp [different]

theorem startsWithCaseless_iff (capital : word.all isCapital = true)
    (allowed : text.all Name.allows = true) :
    startsWithCaseless word text = true ↔ word <+: text.map Char.toUpper := by
  induction word generalizing text with
  | nil => simp [startsWithCaseless]
  | cons letter word ih =>
      rw [List.all_cons, Bool.and_eq_true] at capital
      cases text with
      | nil => simp [startsWithCaseless]
      | cons char text =>
          rw [List.all_cons, Bool.and_eq_true] at allowed
          rw [startsWithCaseless, List.map_cons, List.cons_prefix_cons, Bool.and_eq_true,
            ih capital.2 allowed.2, sameLetter_eq capital.1 allowed.1, beq_iff_eq]

theorem mentions_iff (given : word ≠ []) (capital : word.all isCapital = true)
    (allowed : text.all Name.allows = true) :
    mentions word text = true ↔ word <:+: text.map Char.toUpper := by
  induction text with
  | nil => simp [mentions_nil given, given]
  | cons char text ih =>
      have here := startsWithCaseless_iff capital allowed
      rw [List.all_cons, Bool.and_eq_true] at allowed
      rw [mentions, Bool.or_eq_true, here, ih allowed.2, List.map_cons, List.infix_cons_iff]

end Text

/-! ## Names -/

/-- A name in capital letters. -/
def Name.upper (name : Name) : Text := name.text.map Char.toUpper

namespace Text

variable {word replacement : Text} {name : Name}
variable (given : word ≠ []) (capital : word.all isCapital = true)

include given capital

theorem mentions_name : mentions word name.text = true ↔ word <:+: name.upper :=
  mentions_iff given capital name.allowed

theorem replaceCaseless_name (absent : ¬ word <:+: name.upper) :
    replaceCaseless word replacement name.text = name.text := by
  rw [← mentions_name given capital, Bool.not_eq_true] at absent
  exact replaceCaseless_of_not_mentions absent

theorem replaceCaseless_whole_name (whole : name.upper = word) :
    replaceCaseless word replacement name.text = replacement := by
  have starts : startsWithCaseless word name.text = true :=
    (startsWithCaseless_iff capital name.allowed).mpr (whole ▸ List.prefix_rfl)
  refine replaceCaseless_of_whole given starts ?_
  rw [← whole, Name.upper, List.length_map]

theorem mentions_sign {sign : Char} (isSign : sign ∈ signs) (rest : Text) :
    mentions word (sign :: rest) = mentions word rest := by
  have cut := mentions_append given (separates_of_mem_signs capital isSign) [] rest
  rwa [mentions_nil given, Bool.false_or, List.nil_append] at cut

/-- A word is found in a printed term only if it is found in one of its names. -/
theorem mentions_print (term : Term) :
    mentions word term.print = term.names.any fun name => mentions word name.text := by
  have separate : ∀ sign ∈ signs, separates word sign = true :=
    fun sign => separates_of_mem_signs capital
  induction term with
  | var name => simp [Term.print, Term.names]
  | abs binder body ih =>
      rw [Term.print, List.cons_append, mentions_sign given capital (by decide),
        mentions_append given (separate '.' (by decide)), ih, Term.names, List.any_cons]
  | app function argument function_ih argument_ih =>
      rw [Term.print, List.append_assoc, List.cons_append, List.cons_append,
        mentions_sign given capital (by decide), mentions_append given (separate ' ' (by decide)),
        mentions_append given (separate ')' (by decide)), mentions_nil given, Bool.or_false,
        function_ih, argument_ih, Term.names, List.any_append]

theorem replaceCaseless_sign {sign : Char} (isSign : sign ∈ signs) (rest : Text) :
    replaceCaseless word replacement (sign :: rest) =
      sign :: replaceCaseless word replacement rest := by
  have cut : replaceCaseless word replacement ([] ++ sign :: rest) = _ :=
    replaceCaseless_append given (separates_of_mem_signs capital isSign) [] rest
  rwa [replaceCaseless_nil given, List.nil_append, List.nil_append] at cut

end Text

end BetaNormal
