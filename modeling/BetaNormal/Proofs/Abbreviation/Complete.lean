import BetaNormal.Proofs.Abbreviation.Reserved

/-!
# Nothing is left to be written out

Each abbreviation is written out once.  No meaning brings in an earlier abbreviation, and none can
come up across the ends of what has been written, so no abbreviation is left anywhere in the text.
To write out the abbreviations a second time changes nothing.
-/

namespace BetaNormal

namespace Text

variable {word text : Text}

/-- Whether a word is found somewhere in a text, letter by letter and in whatever case. -/
def Occurs (word text : Text) : Prop :=
  ∃ front found rest, text = front ++ found ++ rest ∧
    List.Forall₂ (fun letter char => sameLetter letter char = true) word found

theorem startsWithCaseless_iff_exists : startsWithCaseless word text = true ↔
    ∃ found rest, text = found ++ rest ∧
      List.Forall₂ (fun letter char => sameLetter letter char = true) word found := by
  induction word generalizing text with
  | nil =>
      simp only [startsWithCaseless, true_iff]
      exact ⟨[], text, rfl, .nil⟩
  | cons letter word ih =>
      constructor
      · intro starts
        cases text with
        | nil => simp [startsWithCaseless] at starts
        | cons char text =>
            rw [startsWithCaseless, Bool.and_eq_true] at starts
            obtain ⟨found, rest, rfl, alike⟩ := ih.mp starts.2
            exact ⟨char :: found, rest, rfl, .cons starts.1 alike⟩
      · rintro ⟨found, rest, rfl, alike⟩
        cases alike with
        | cons here alike =>
            rw [List.cons_append, startsWithCaseless, here, Bool.true_and]
            exact ih.mpr ⟨_, rest, rfl, alike⟩

theorem mentions_iff_occurs (given : word ≠ []) : mentions word text = true ↔ Occurs word text := by
  induction text with
  | nil =>
      rw [mentions_nil given]
      constructor
      · intro found
        cases found
      · rintro ⟨front, found, rest, split, alike⟩
        obtain ⟨rfl, rfl, rfl⟩ : front = [] ∧ found = [] ∧ rest = [] := by simpa using split.symm
        cases alike
        contradiction
  | cons char text ih =>
      rw [mentions, Bool.or_eq_true, startsWithCaseless_iff_exists, ih]
      constructor
      · rintro (⟨found, rest, split, alike⟩ | ⟨front, found, rest, rfl, alike⟩)
        · exact ⟨[], found, rest, split, alike⟩
        · exact ⟨char :: front, found, rest, rfl, alike⟩
      · rintro ⟨front, found, rest, split, alike⟩
        cases front with
        | nil => exact .inl ⟨found, rest, split, alike⟩
        | cons first front =>
            obtain ⟨rfl, rfl⟩ := List.cons.inj split
            exact .inr ⟨front, found, rest, rfl, alike⟩

end Text

variable {table : List Abbreviation} {text : Text}

theorem expand_eq_self
    (absent : ∀ abbreviation ∈ table, Text.mentions abbreviation.name text = false) :
    expand table text = text := by
  induction table with
  | nil => rfl
  | cons first table ih =>
      have unchanged : first.apply text = text :=
        Text.replaceCaseless_of_not_mentions (absent first List.mem_cons_self)
      rw [expand, List.foldl_cons, ← expand, unchanged]
      exact ih fun other isOther => absent other (List.mem_cons_of_mem _ isOther)

/-- Writing out a table a second time changes nothing if no meaning brings in the name that it
stands for, or one that came before. -/
theorem expand_expand_of_final (final : Abbreviation.Final table) (text : Text) :
    expand table (expand table text) = expand table text :=
  expand_eq_self (not_mentions_expand final text)

theorem not_occurs_expand (final : Abbreviation.Final table) (text : Text)
    {abbreviation : Abbreviation} (listed : abbreviation ∈ table) :
    ¬ Text.Occurs abbreviation.name (expand table text) := by
  rw [← Text.mentions_iff_occurs (final.1 abbreviation listed), Bool.not_eq_true]
  exact not_mentions_expand final text abbreviation listed

/-- Once the built-in abbreviations of any text have been written out, none of them is found in it,
in whatever case, and there is nothing more to write out. -/
theorem expand_complete (text : Text) :
    (∀ word ∈ (["_", "AND", "NOT", "TRUE", "FALSE", "COND"] : List Text),
      ¬ Text.Occurs word (expand Abbreviation.standard text)) ∧
    expand Abbreviation.standard (expand Abbreviation.standard text) =
      expand Abbreviation.standard text := by
  constructor
  · intro word isWord
    have listed : word ∈ Abbreviation.standard.map Abbreviation.name := isWord
    obtain ⟨abbreviation, isStandard, rfl⟩ := List.mem_map.mp listed
    exact not_occurs_expand Abbreviation.final_standard text isStandard
  · exact expand_expand_of_final Abbreviation.final_standard text

example : expand Abbreviation.standard "(falſe_x)" = ("(λx7.λy7.y7 x)" : Text) := by
  decide +kernel

end BetaNormal
