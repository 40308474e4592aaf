import BetaNormal.Proofs.Abbreviation.Constants

/-!
# Reserved words

Nobody can use the names of the built-in abbreviations in a name of his own.  Once the abbreviations
of a text have been written out, none of them is found in it any more, so all names that are read
from it are plain.  A term of plain names is printed as a text that stays as it is.
-/

namespace BetaNormal

variable {table : List Abbreviation} {word text : Text}

/-! ## What is left of abbreviations -/

/-- What is not found in a text is not found after writing out abbreviations either, if the meanings
do not bring it in. -/
theorem not_mentions_expand_of_inert (given : word ≠ [])
    (named : ∀ abbreviation ∈ table, abbreviation.name ≠ [])
    (inert : ∀ abbreviation ∈ table, Text.isInert word abbreviation.meaning = true)
    (absent : Text.mentions word text = false) : Text.mentions word (expand table text) = false := by
  induction table generalizing text with
  | nil => exact absent
  | cons abbreviation table ih =>
      rw [expand, List.foldl_cons, ← expand, Abbreviation.apply]
      refine ih (fun other isOther => named other (List.mem_cons_of_mem _ isOther))
        (fun other isOther => inert other (List.mem_cons_of_mem _ isOther)) ?_
      exact Text.not_mentions_replaceCaseless (named abbreviation List.mem_cons_self) given
        (inert abbreviation List.mem_cons_self) (.inr absent)

/-- Whether no meaning of a table brings in the name that it stands for, or one that came before. -/
def Abbreviation.Final (table : List Abbreviation) : Prop :=
  (∀ abbreviation ∈ table, abbreviation.name ≠ []) ∧
  (∀ abbreviation ∈ table, Text.isInert abbreviation.name abbreviation.meaning = true) ∧
  table.Pairwise fun earlier later => Text.isInert earlier.name later.meaning = true

theorem not_mentions_expand (final : Abbreviation.Final table) (text : Text) :
    ∀ abbreviation ∈ table, Text.mentions abbreviation.name (expand table text) = false := by
  induction table generalizing text with
  | nil => simp
  | cons first table ih =>
      obtain ⟨named, inert, apart⟩ := final
      rw [List.pairwise_cons] at apart
      have namedLater : ∀ abbreviation ∈ table, abbreviation.name ≠ [] :=
        fun other isOther => named other (List.mem_cons_of_mem _ isOther)
      rw [expand, List.foldl_cons, ← expand, Abbreviation.apply]
      intro abbreviation isListed
      rcases List.mem_cons.mp isListed with rfl | later
      · have given := named abbreviation List.mem_cons_self
        refine not_mentions_expand_of_inert given namedLater apart.1 ?_
        exact Text.not_mentions_replaceCaseless given given (inert abbreviation List.mem_cons_self)
          (.inl rfl)
      · refine ih ⟨namedLater, fun other isOther => ?_, apart.2⟩ _ abbreviation later
        exact inert other (List.mem_cons_of_mem _ isOther)

theorem Abbreviation.final_standard : Final standard := by
  have named : standard.all (fun abbreviation => !abbreviation.name.isEmpty) = true := by decide
  have inert : standard.all (fun abbreviation =>
      Text.isInert abbreviation.name abbreviation.meaning) = true := by decide
  have apart : standard.Pairwise fun earlier later =>
      Text.isInert earlier.name later.meaning = true := by decide
  refine ⟨fun abbreviation isStandard => ?_, List.all_eq_true.mp inert, apart⟩
  simpa using List.all_eq_true.mp named abbreviation isStandard

/-! ## Plain names -/

theorem Abbreviation.capital_standard :
    ∀ abbreviation ∈ standard, abbreviation.name.all Text.isCapital = true := by
  have every : standard.all (fun abbreviation => abbreviation.name.all Text.isCapital) = true := by
    decide
  exact List.all_eq_true.mp every

theorem Name.isPlain_of_not_mentions {name : Name}
    (absent : ∀ abbreviation ∈ Abbreviation.standard,
      Text.mentions abbreviation.name name.text = false) : name.IsPlain := by
  intro abbreviation isStandard found
  have mentions := (Text.mentions_name (Abbreviation.final_standard.1 abbreviation isStandard)
    (Abbreviation.capital_standard abbreviation isStandard)).mpr found
  rw [absent abbreviation isStandard] at mentions
  contradiction

theorem Supply.isPlain_candidate {supply : Supply} (stem : supply.stem = standard.stem)
    (number : Nat) : (supply.candidate number).IsPlain := by
  -- each built-in abbreviation has a letter other than `a`
  have every : Abbreviation.standard.all (fun abbreviation => abbreviation.name.any fun letter =>
      !Text.sameLetter letter 'a' &&
        (List.range 10).all fun digit => !Text.sameLetter letter (Char.ofNat (48 + digit))) =
      true := by decide
  refine Name.isPlain_of_not_mentions fun abbreviation isStandard => ?_
  have hasLetter := List.all_eq_true.mp every abbreviation isStandard
  obtain ⟨letter, isLetter, other⟩ := List.any_eq_true.mp hasLetter
  simp only [Bool.and_eq_true, Bool.not_eq_true', List.all_eq_true, List.mem_range] at other
  refine Text.not_mentions_of_letter isLetter fun char occurs => ?_
  have text_eq : (supply.candidate number).text = ['a'] ++ Text.decimal number :=
    congrArg (· ++ Text.decimal number) stem
  rw [text_eq] at occurs
  rcases List.mem_append.mp occurs with inStem | inNumeral
  · obtain rfl : char = 'a' := List.mem_singleton.mp inStem
    exact other.1
  · obtain ⟨digit, isDigit, rfl⟩ := Text.exists_digit_of_mem_decimal inNumeral
    exact other.2 digit isDigit

namespace Term

variable {term : Term}

def IsPlain (term : Term) : Prop := ∀ name ∈ term.names, name.IsPlain

theorem isPlain_of_parse (read : parse (expand Abbreviation.standard text) = .ok term) :
    term.IsPlain := by
  obtain ⟨spelled, -⟩ := parse_eq_ok_iff.mp read
  intro name occurs
  obtain ⟨front, rest, split⟩ := spelled.exists_eq_name_append occurs
  refine Name.isPlain_of_not_mentions fun abbreviation isStandard => ?_
  have absent := not_mentions_expand Abbreviation.final_standard text abbreviation isStandard
  cases found : Text.mentions abbreviation.name name.text with
  | false => rfl
  | true =>
      rw [split, Text.mentions_of_infix found] at absent
      contradiction

theorem IsPlain.respectsWords (plain : term.IsPlain) : term.RespectsWords := by
  induction term with
  | var name => exact .inl (plain name List.mem_cons_self)
  | abs binder body ih =>
      exact ⟨plain binder List.mem_cons_self,
        ih fun name occurs => plain name (List.mem_cons_of_mem _ occurs)⟩
  | app function argument function_ih argument_ih =>
      exact ⟨function_ih fun name occurs => plain name (List.mem_append_left _ occurs),
        argument_ih fun name occurs => plain name (List.mem_append_right _ occurs)⟩

theorem IsPlain.writtenOut_eq (plain : term.IsPlain) : term.writtenOut = term := by
  induction term with
  | var name => simp [writtenOut, constant?_of_isPlain (plain name List.mem_cons_self)]
  | abs binder body ih =>
      rw [writtenOut, ih fun name occurs => plain name (List.mem_cons_of_mem _ occurs)]
  | app function argument function_ih argument_ih =>
      rw [writtenOut, function_ih fun name occurs => plain name (List.mem_append_left _ occurs),
        argument_ih fun name occurs => plain name (List.mem_append_right _ occurs)]

theorem IsPlain.expand_eq (plain : term.IsPlain)
    (written : List.Forall₂ Text.WrittenAs term.print text) :
    expand Abbreviation.standard text = term.print := by
  rw [plain.respectsWords.expand_eq written, plain.writtenOut_eq]

end Term

end BetaNormal
