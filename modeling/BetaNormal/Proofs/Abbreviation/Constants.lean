import BetaNormal.Proofs.Abbreviation
import BetaNormal.Proofs.Substitution
import Mathlib.Data.List.Infix

/-!
# Constants

Except for the underscore, every abbreviation of the built-in table means a closed term.  Writing
the abbreviations out is done in the text, one after the other, and what some of them mean mentions
others.  In a printed term it comes to putting the closed terms in the place of variables, provided
that the names of abbreviations are not found in any other name.
-/

namespace BetaNormal

namespace Name

def x7 : Name := ⟨['x', '7'], by decide, by decide⟩

def y7 : Name := ⟨['y', '7'], by decide, by decide⟩

def x8 : Name := ⟨['x', '8'], by decide, by decide⟩

def y8 : Name := ⟨['y', '8'], by decide, by decide⟩

def x9 : Name := ⟨['x', '9'], by decide, by decide⟩

def x10 : Name := ⟨['x', '1', '0'], by decide, by decide⟩

def y10 : Name := ⟨['y', '1', '0'], by decide, by decide⟩

def a6 : Name := ⟨['a', '6'], by decide, by decide⟩

def b6 : Name := ⟨['b', '6'], by decide, by decide⟩

def c6 : Name := ⟨['c', '6'], by decide, by decide⟩

def wordTrue : Name := ⟨['T', 'R', 'U', 'E'], by decide, by decide⟩

def wordFalse : Name := ⟨['F', 'A', 'L', 'S', 'E'], by decide, by decide⟩

end Name

namespace Term

/-! ## The constants -/

/-- `λx8.λy8.x8` -/
def truth : Term := abs .x8 (abs .y8 (var .x8))

/-- `λx7.λy7.y7` -/
def falsity : Term := abs .x7 (abs .y7 (var .y7))

/-- What the words of the built-in table mean, with given terms for the truth values that some of
them mention. -/
def meanings (true' false' : Term) : List (Text × Term) :=
  [("AND", abs .x10 (abs .y10 (app (app (var .x10) (var .y10)) false'))),
   ("NOT", abs .x9 (app (app (var .x9) false') true')),
   ("TRUE", truth),
   ("FALSE", falsity),
   ("COND", abs .a6 (abs .b6 (abs .c6 (app (app (var .c6) (var .a6)) (var .b6)))))]

/-- The words and the closed terms that they stand for. -/
def constants : List (Text × Term) := meanings truth falsity

/-- The closed term that a name stands for, in whatever case it is written. -/
def constant? (name : Name) : Option Term := constants.lookup name.upper

/-- A term with every variable that is one of the words replaced by the closed term. -/
def writtenOut : Term → Term
  | var name => (constant? name).getD (var name)
  | abs binder body => abs binder body.writtenOut
  | app function argument => app function.writtenOut argument.writtenOut

/-! ## One word after the other -/

def writeOut (word : Text) (meaning : Term) : Term → Term
  | var name => if name.upper = word then meaning else var name
  | abs binder body => abs binder (writeOut word meaning body)
  | app function argument => app (writeOut word meaning function) (writeOut word meaning argument)

def writeOutAll (table : List (Text × Term)) (term : Term) : Term :=
  table.foldl (fun term entry => writeOut entry.1 entry.2 term) term

/-- Whether a word is found in the names of a term only where it is a whole variable. -/
def OnlyWhole (word : Text) : Term → Prop
  | var name => word <:+: name.upper → name.upper = word
  | abs binder body => ¬ word <:+: binder.upper ∧ OnlyWhole word body
  | app function argument => OnlyWhole word function ∧ OnlyWhole word argument

instance decidableOnlyWhole (word : Text) : (term : Term) → Decidable (OnlyWhole word term)
  | var name => inferInstanceAs (Decidable (word <:+: name.upper → name.upper = word))
  | abs binder body =>
      have := decidableOnlyWhole word body
      inferInstanceAs (Decidable (¬ word <:+: binder.upper ∧ OnlyWhole word body))
  | app function argument =>
      have := decidableOnlyWhole word function
      have := decidableOnlyWhole word argument
      inferInstanceAs (Decidable (OnlyWhole word function ∧ OnlyWhole word argument))

variable {word other : Text} {term meaning : Term}

theorem OnlyWhole.writeOut (whole : OnlyWhole other term) (meaningWhole : OnlyWhole other meaning) :
    OnlyWhole other (writeOut word meaning term) := by
  induction term with
  | var name =>
      rw [Term.writeOut]
      split
      · exact meaningWhole
      · exact whole
  | abs binder body ih => exact ⟨whole.1, ih whole.2⟩
  | app function argument function_ih argument_ih =>
      exact ⟨function_ih whole.1, argument_ih whole.2⟩

/-- To replace a word in a printed term is to replace variables of the term. -/
theorem replaceCaseless_print (given : word ≠ []) (capital : word.all Text.isCapital = true)
    (meaning : Term) (whole : OnlyWhole word term) :
    Text.replaceCaseless word meaning.print term.print = (writeOut word meaning term).print := by
  have separate : ∀ sign ∈ Text.signs, Text.separates word sign = true :=
    fun sign => Text.separates_of_mem_signs capital
  induction term with
  | var name =>
      by_cases isWord : name.upper = word
      · rw [print, Text.replaceCaseless_whole_name given capital isWord, writeOut, if_pos isWord]
      · have absent : ¬ word <:+: name.upper := fun occurs => isWord (whole occurs)
        rw [print, Text.replaceCaseless_name given capital absent, writeOut, if_neg isWord, print]
  | abs binder body ih =>
      rw [print, List.cons_append, Text.replaceCaseless_sign given capital (by decide),
        Text.replaceCaseless_append given (separate '.' (by decide)),
        Text.replaceCaseless_name given capital whole.1, ih whole.2]
      rfl
  | app function argument function_ih argument_ih =>
      rw [print, List.append_assoc, List.cons_append, List.cons_append,
        Text.replaceCaseless_sign given capital (by decide),
        Text.replaceCaseless_append given (separate ' ' (by decide)),
        Text.replaceCaseless_append given (separate ')' (by decide)),
        Text.replaceCaseless_nil given, function_ih whole.1, argument_ih whole.2]
      simp [writeOut, print]

/-! ## All words -/

variable {table : List (Text × Term)}

/-- A table with the words that a meaning mentions written out in it, as later entries have them. -/
def resolved : List (Text × Term) → List (Text × Term)
  | [] => []
  | entry :: others => (entry.1, writeOutAll others entry.2) :: resolved others

theorem resolved_meanings :
    resolved (meanings (var .wordTrue) (var .wordFalse)) = constants := by decide

theorem writeOutAll_var (table : List (Text × Term)) (name : Name) :
    writeOutAll table (var name) = ((resolved table).lookup name.upper).getD (var name) := by
  induction table with
  | nil => rfl
  | cons entry others ih =>
      rw [writeOutAll, List.foldl_cons, ← writeOutAll, writeOut, resolved, List.lookup_cons]
      by_cases isWord : name.upper = entry.1
      · simp [isWord]
      · rw [if_neg isWord, beq_eq_false_iff_ne.mpr isWord, ih]

theorem writeOutAll_abs (table : List (Text × Term)) (binder : Name) (body : Term) :
    writeOutAll table (abs binder body) = abs binder (writeOutAll table body) := by
  induction table generalizing body with
  | nil => rfl
  | cons entry others ih => exact ih _

theorem writeOutAll_app (table : List (Text × Term)) (function argument : Term) :
    writeOutAll table (app function argument) =
      app (writeOutAll table function) (writeOutAll table argument) := by
  induction table generalizing function argument with
  | nil => rfl
  | cons entry others ih => exact ih _ _

theorem writeOutAll_meanings (term : Term) :
    writeOutAll (meanings (var .wordTrue) (var .wordFalse)) term = term.writtenOut := by
  induction term with
  | var name => rw [writeOutAll_var, resolved_meanings]; rfl
  | abs binder body ih => rw [writeOutAll_abs, ih, writtenOut]
  | app function argument function_ih argument_ih =>
      rw [writeOutAll_app, function_ih, argument_ih, writtenOut]

/-- The entry of a table of abbreviations for a word and a term. -/
def abbreviation (entry : Text × Term) : Abbreviation := ⟨entry.1, entry.2.print⟩

/-- Writing out a table in a printed term, if no meaning brings in a later word except as a whole
variable. -/
theorem expand_print
    (words : ∀ entry ∈ table, entry.1 ≠ [] ∧ entry.1.all Text.isCapital = true)
    (apart : table.Pairwise fun earlier later => OnlyWhole later.1 earlier.2)
    (whole : ∀ entry ∈ table, OnlyWhole entry.1 term) :
    expand (table.map abbreviation) term.print = (writeOutAll table term).print := by
  induction table generalizing term with
  | nil => rfl
  | cons entry others ih =>
      obtain ⟨given, capital⟩ := words entry List.mem_cons_self
      have here := replaceCaseless_print given capital entry.2 (whole entry List.mem_cons_self)
      rw [List.pairwise_cons] at apart
      have later : ∀ next ∈ others, OnlyWhole next.1 (writeOut entry.1 entry.2 term) :=
        fun next isNext =>
          (whole next (List.mem_cons_of_mem _ isNext)).writeOut (apart.1 next isNext)
      have rest := ih (fun next isNext => words next (List.mem_cons_of_mem _ isNext)) apart.2 later
      rw [List.map_cons, expand, List.foldl_cons, ← expand, Abbreviation.apply, abbreviation, here]
      exact rest

end Term

/-! ## Underscores -/

/-- How a character of a printed text may be written: as it is, or a space as an underscore. -/
def Text.WrittenAs (char written : Char) : Prop := written = char ∨ char = ' ' ∧ written = '_'

theorem Text.mentions_singleton {letter : Char} (text : Text) :
    mentions [letter] text = text.any (sameLetter letter) := by
  induction text with
  | nil => rfl
  | cons char text ih => rw [mentions, ih, startsWithCaseless, startsWithCaseless, Bool.and_true,
      List.any_cons]

theorem Text.replaceCaseless_underscore {printed text : Text}
    (written : List.Forall₂ WrittenAs printed text) (absent : mentions ['_'] printed = false) :
    replaceCaseless ['_'] [' '] text = printed := by
  rw [replaceCaseless]
  induction written with
  | nil => rfl
  | @cons char shown printed text here _ ih =>
      rw [mentions_singleton, List.any_cons, ← mentions_singleton, Bool.or_eq_false_iff] at absent
      have same : ∀ other, startsWithCaseless ['_'] (other :: text) = sameLetter '_' other := by
        intro other
        rw [startsWithCaseless, startsWithCaseless, Bool.and_true]
      rcases here with rfl | ⟨rfl, rfl⟩
      · rw [replaceCaselessFrom_other ((same shown).trans absent.1), ih absent.2]
      · have isUnderscore : sameLetter '_' '_' = true := by decide
        rw [replaceCaselessFrom_match (List.cons_ne_nil _ _) ((same '_').trans isUnderscore)]
        exact congrArg (' ' :: ·) (ih absent.2)

/-- The words of the built-in table with their meanings. -/
def Abbreviation.words : List Abbreviation :=
  (Term.meanings (.var .wordTrue) (.var .wordFalse)).map Term.abbreviation

theorem Abbreviation.standard_eq : standard = ⟨"_", " "⟩ :: words := by decide

theorem expand_of_written {printed text : Text} (written : List.Forall₂ Text.WrittenAs printed text)
    (absent : Text.mentions ['_'] printed = false) :
    expand Abbreviation.standard text = expand Abbreviation.words printed := by
  rw [Abbreviation.standard_eq, expand, List.foldl_cons, ← expand]
  exact congrArg _ (Text.replaceCaseless_underscore written absent)

/-! ## Terms with constants -/

/-- Whether no abbreviation of the built-in table is found in a name: no underscore, and none of the
words in any case. -/
def Name.IsPlain (name : Name) : Prop :=
  ∀ abbreviation ∈ Abbreviation.standard, ¬ abbreviation.name <:+: name.upper

namespace Term

variable {term : Term} {name : Name} {text : Text}

/-- Whether all names of a term are plain, up to variables that are one of the words. -/
def RespectsWords : Term → Prop
  | var name => name.IsPlain ∨ (constant? name).isSome = true
  | abs binder body => binder.IsPlain ∧ body.RespectsWords
  | app function argument => function.RespectsWords ∧ argument.RespectsWords

instance (name : Name) : Decidable name.IsPlain :=
  inferInstanceAs (Decidable (∀ abbreviation ∈ Abbreviation.standard,
    ¬ abbreviation.name <:+: name.upper))

instance decidableRespectsWords : (term : Term) → Decidable term.RespectsWords
  | var name => inferInstanceAs (Decidable (name.IsPlain ∨ (constant? name).isSome = true))
  | abs binder body =>
      have := decidableRespectsWords body
      inferInstanceAs (Decidable (binder.IsPlain ∧ body.RespectsWords))
  | app function argument =>
      have := decidableRespectsWords function
      have := decidableRespectsWords argument
      inferInstanceAs (Decidable (function.RespectsWords ∧ argument.RespectsWords))

theorem upper_mem_of_constant? (isWord : (constant? name).isSome = true) :
    name.upper ∈ constants.map Prod.fst := by
  obtain ⟨constant, found⟩ := Option.isSome_iff_exists.mp isWord
  obtain ⟨front, rest, constants_eq, -⟩ := List.lookup_eq_some_iff.mp found
  simp [constants_eq]

/-- No word is found in another one. -/
theorem eq_of_infix_word :
    ∀ abbreviation ∈ Abbreviation.standard, ∀ word ∈ constants.map Prod.fst,
      abbreviation.name <:+: word → word = abbreviation.name := by
  have every : Abbreviation.standard.all (fun abbreviation =>
      (constants.map Prod.fst).all fun word =>
        decide (abbreviation.name <:+: word → word = abbreviation.name)) = true := by
    decide
  simpa only [List.all_eq_true, decide_eq_true_eq] using every

theorem RespectsWords.onlyWhole (respects : term.RespectsWords) {abbreviation : Abbreviation}
    (isStandard : abbreviation ∈ Abbreviation.standard) : OnlyWhole abbreviation.name term := by
  induction term with
  | var name =>
      intro occurs
      rcases respects with plain | isWord
      · exact absurd occurs (plain abbreviation isStandard)
      · exact eq_of_infix_word abbreviation isStandard _ (upper_mem_of_constant? isWord) occurs
  | abs binder body ih => exact ⟨respects.1 abbreviation isStandard, ih respects.2⟩
  | app function argument function_ih argument_ih =>
      exact ⟨function_ih respects.1, argument_ih respects.2⟩

theorem RespectsWords.not_mentions_underscore (respects : term.RespectsWords) :
    Text.mentions ['_'] term.print = false := by
  have isStandard : (⟨"_", " "⟩ : Abbreviation) ∈ Abbreviation.standard := List.mem_cons_self
  rw [Text.mentions_print (List.cons_ne_nil _ _) (by decide), List.any_eq_false]
  intro name occurs
  rw [Text.mentions_name (List.cons_ne_nil _ _) (by decide)]
  intro found
  induction term with
  | var other =>
      obtain rfl := List.mem_singleton.mp occurs
      have whole : name.upper = ['_'] := respects.onlyWhole isStandard found
      rcases respects with plain | isWord
      · exact plain _ isStandard found
      · have word := upper_mem_of_constant? isWord
        rw [whole] at word
        exact absurd word (by decide)
  | abs binder body ih =>
      rcases List.mem_cons.mp occurs with rfl | below
      · exact respects.1 _ isStandard found
      · exact ih respects.2 below
  | app function argument function_ih argument_ih =>
      rcases List.mem_append.mp occurs with left | right
      · exact function_ih respects.1 left
      · exact argument_ih respects.2 right

theorem RespectsWords.expand_eq (respects : term.RespectsWords)
    (written : List.Forall₂ Text.WrittenAs term.print text) :
    expand Abbreviation.standard text = term.writtenOut.print := by
  have words : ∀ entry ∈ meanings (var .wordTrue) (var .wordFalse),
      entry.1 ≠ [] ∧ entry.1.all Text.isCapital = true := by decide
  have apart : (meanings (var .wordTrue) (var .wordFalse)).Pairwise fun earlier later =>
      OnlyWhole later.1 earlier.2 := by decide
  have whole : ∀ entry ∈ meanings (var .wordTrue) (var .wordFalse), OnlyWhole entry.1 term := by
    intro entry isEntry
    have isStandard : abbreviation entry ∈ Abbreviation.standard := by
      rw [Abbreviation.standard_eq]
      exact List.mem_cons_of_mem _ (List.mem_map_of_mem isEntry)
    exact respects.onlyWhole isStandard
  rw [expand_of_written written respects.not_mentions_underscore, Abbreviation.words,
    expand_print words apart whole, writeOutAll_meanings]

theorem constant?_of_isPlain (plain : name.IsPlain) : constant? name = none := by
  cases found : constant? name with
  | none => rfl
  | some constant =>
      have word := upper_mem_of_constant? (Option.isSome_iff_exists.mpr ⟨constant, found⟩)
      have standard : ∀ word ∈ constants.map Prod.fst,
          word ∈ Abbreviation.standard.map (·.name) := by decide
      obtain ⟨abbreviation, isStandard, same⟩ := List.mem_map.mp (standard _ word)
      exact absurd (same ▸ List.infix_rfl) (plain abbreviation isStandard)

end Term

end BetaNormal
