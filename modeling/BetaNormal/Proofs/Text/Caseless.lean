import BetaNormal.Text.Caseless

/-!
# Replacing without regard to case

No occurrence of a name reaches across a character that is no letter of the name.  So a text that
is cut at such a character may be searched, and its occurrences replaced, piece by piece.
-/

namespace BetaNormal.Text

variable {name word replacement text front rest : Text} {char letter : Char}

/-- Whether a name occurs somewhere in a text, without regard to case. -/
def mentions (name : Text) : Text → Bool
  | [] => name.isEmpty
  | char :: rest => startsWithCaseless name (char :: rest) || mentions name rest

/-- Whether a character is no letter of a name in either case. -/
def separates (name : Text) (char : Char) : Bool := name.all fun letter => !sameLetter letter char

theorem separates_cons : separates (letter :: name) char = true ↔
    sameLetter letter char = false ∧ separates name char = true := by
  simp [separates]

/-! ## Occurrences at the front -/

theorem length_le_of_startsWithCaseless (starts : startsWithCaseless name text = true) :
    name.length ≤ text.length := by
  induction name generalizing text with
  | nil => exact Nat.zero_le _
  | cons letter name ih =>
      cases text with
      | nil => simp [startsWithCaseless] at starts
      | cons char text =>
          simp only [startsWithCaseless, Bool.and_eq_true] at starts
          exact Nat.succ_le_succ (ih starts.2)

theorem startsWithCaseless_append (separate : separates name char = true) (front rest : Text) :
    startsWithCaseless name (front ++ char :: rest) = startsWithCaseless name front := by
  induction name generalizing front with
  | nil => simp [startsWithCaseless]
  | cons letter name ih =>
      obtain ⟨other, separate⟩ := separates_cons.mp separate
      cases front with
      | nil => simp [startsWithCaseless, other]
      | cons first front =>
          rw [List.cons_append, startsWithCaseless, ih separate, startsWithCaseless]

theorem startsWithCaseless_of_append (starts : startsWithCaseless name text = true)
    (rest : Text) : startsWithCaseless name (text ++ rest) = true := by
  induction name generalizing text with
  | nil => simp [startsWithCaseless]
  | cons letter name ih =>
      cases text with
      | nil => simp [startsWithCaseless] at starts
      | cons char text =>
          simp only [startsWithCaseless, Bool.and_eq_true] at starts
          simp only [List.cons_append, startsWithCaseless, starts.1, ih starts.2, Bool.and_self]

theorem startsWithCaseless_nil (given : name ≠ []) : startsWithCaseless name [] = false := by
  cases name with
  | nil => contradiction
  | cons letter name => rfl

/-! ## Occurrences anywhere -/

theorem mentions_nil (given : name ≠ []) : mentions name [] = false := by
  simpa [mentions] using given

theorem mentions_append (given : name ≠ []) (separate : separates name char = true)
    (front rest : Text) :
    mentions name (front ++ char :: rest) = (mentions name front || mentions name rest) := by
  induction front with
  | nil =>
      have here := startsWithCaseless_append separate [] rest
      rw [startsWithCaseless_nil given] at here
      rw [List.nil_append] at here ⊢
      rw [mentions_nil given, Bool.false_or, mentions, here, Bool.false_or]
  | cons first front ih =>
      have here := startsWithCaseless_append separate (first :: front) rest
      rw [List.cons_append] at here ⊢
      rw [mentions, here, ih, mentions, Bool.or_assoc]

theorem mentions_of_infix (occurs : mentions name text = true) (front rest : Text) :
    mentions name (front ++ text ++ rest) = true := by
  induction front with
  | nil =>
      induction text with
      | nil =>
          have none : name = [] := by simpa [mentions] using occurs
          subst none
          cases rest <;> simp [mentions, startsWithCaseless]
      | cons char text ih =>
          simp only [mentions, Bool.or_eq_true] at occurs
          rcases occurs with starts | later
          · have here := startsWithCaseless_of_append starts rest
            simp only [List.nil_append, List.cons_append] at here ⊢
            rw [mentions, here, Bool.true_or]
          · have below := ih later
            simp only [List.nil_append, List.cons_append] at below ⊢
            rw [mentions, below, Bool.or_true]
  | cons char front ih => simp only [List.cons_append, mentions, ih, Bool.or_true]

/-- A name with a letter that a text does not have does not occur in it. -/
theorem not_mentions_of_letter (isLetter : letter ∈ name)
    (missing : ∀ char ∈ text, sameLetter letter char = false) : mentions name text = false := by
  have noStart : ∀ text : Text, (∀ char ∈ text, sameLetter letter char = false) →
      startsWithCaseless name text = false := by
    intro text missing
    induction name generalizing text with
    | nil => simp at isLetter
    | cons first name ih =>
        cases text with
        | nil => rfl
        | cons char text =>
            rw [startsWithCaseless]
            rcases List.mem_cons.mp isLetter with rfl | later
            · rw [missing char List.mem_cons_self, Bool.false_and]
            · rw [ih later text fun other isOther => missing other (List.mem_cons_of_mem _ isOther),
                Bool.and_false]
  induction text with
  | nil => exact mentions_nil (List.ne_nil_of_mem isLetter)
  | cons char text ih =>
      rw [mentions, noStart _ missing,
        ih fun other isOther => missing other (List.mem_cons_of_mem _ isOther), Bool.or_false]

/-! ## Replacing -/

theorem replaceCaselessFrom_nil (given : name ≠ []) (passed : Nat) :
    replaceCaselessFrom name replacement passed [] = [] := by
  have some : name.isEmpty = false := by simpa using given
  cases passed <;> simp [replaceCaselessFrom, some]

theorem replaceCaselessFrom_match (given : name ≠ [])
    (starts : startsWithCaseless name (char :: rest) = true) :
    replaceCaselessFrom name replacement 0 (char :: rest) =
      replacement ++ replaceCaselessFrom name replacement (name.length - 1) rest := by
  cases name with
  | nil => contradiction
  | cons letter others => rw [replaceCaselessFrom, if_pos starts]; rfl

theorem replaceCaselessFrom_other
    (other : startsWithCaseless name (char :: rest) = false) :
    replaceCaselessFrom name replacement 0 (char :: rest) =
      char :: replaceCaselessFrom name replacement 0 rest := by
  cases name with
  | nil => simp [startsWithCaseless] at other
  | cons letter others => rw [replaceCaselessFrom, other, if_neg Bool.false_ne_true]

theorem replaceCaseless_nil (given : name ≠ []) : replaceCaseless name replacement [] = [] :=
  replaceCaselessFrom_nil given 0

theorem replaceCaselessFrom_eq_drop (given : name ≠ []) (passed : Nat) (text : Text) :
    replaceCaselessFrom name replacement passed text =
      replaceCaseless name replacement (text.drop passed) := by
  induction text generalizing passed with
  | nil => rw [List.drop_nil, replaceCaselessFrom_nil given, replaceCaseless_nil given]
  | cons char text ih =>
      cases passed with
      | zero => rfl
      | succ passed => exact ih passed

theorem replaceCaseless_of_starts (given : name ≠ [])
    (starts : startsWithCaseless name (char :: rest) = true) :
    replaceCaseless name replacement (char :: rest) =
      replacement ++ replaceCaseless name replacement (rest.drop (name.length - 1)) := by
  rw [replaceCaseless, replaceCaselessFrom_match given starts, replaceCaselessFrom_eq_drop given]

theorem replaceCaseless_of_not_starts
    (other : startsWithCaseless name (char :: rest) = false) :
    replaceCaseless name replacement (char :: rest) =
      char :: replaceCaseless name replacement rest := replaceCaselessFrom_other other

theorem replaceCaselessFrom_append (given : name ≠ []) (separate : separates name char = true)
    (rest : Text) (passed : Nat) (within : passed ≤ front.length) :
    replaceCaselessFrom name replacement passed (front ++ char :: rest) =
      replaceCaselessFrom name replacement passed front ++
        char :: replaceCaselessFrom name replacement 0 rest := by
  induction front generalizing passed with
  | nil =>
      obtain rfl : passed = 0 := by simpa using within
      have here := startsWithCaseless_append separate [] rest
      rw [startsWithCaseless_nil given] at here
      rw [replaceCaselessFrom_nil given]
      exact replaceCaselessFrom_other here
  | cons first front ih =>
      cases passed with
      | succ passed =>
          exact ih passed (Nat.le_of_succ_le_succ within)
      | zero =>
          have here := startsWithCaseless_append separate (first :: front) rest
          rw [List.cons_append] at here ⊢
          cases starts : startsWithCaseless name (first :: front) with
          | true =>
              have short := length_le_of_startsWithCaseless starts
              rw [List.length_cons] at short
              rw [starts] at here
              rw [replaceCaselessFrom_match given here, replaceCaselessFrom_match given starts,
                ih (name.length - 1) (by omega), List.append_assoc]
          | false =>
              rw [starts] at here
              rw [replaceCaselessFrom_other here, replaceCaselessFrom_other starts,
                ih 0 (Nat.zero_le _), List.cons_append]

/-- A text is replaced in piece by piece. -/
theorem replaceCaseless_append (given : name ≠ []) (separate : separates name char = true)
    (front rest : Text) :
    replaceCaseless name replacement (front ++ char :: rest) =
      replaceCaseless name replacement front ++
        char :: replaceCaseless name replacement rest :=
  replaceCaselessFrom_append given separate rest 0 (Nat.zero_le _)

theorem replaceCaseless_of_not_mentions (absent : mentions name text = false) :
    replaceCaseless name replacement text = text := by
  rw [replaceCaseless]
  induction text with
  | nil =>
      have given : name ≠ [] := by simpa [mentions] using absent
      exact replaceCaselessFrom_nil given 0
  | cons char rest ih =>
      simp only [mentions, Bool.or_eq_false_iff] at absent
      rw [replaceCaselessFrom_other absent.1, ih absent.2]

theorem replaceCaseless_of_whole (given : name ≠ [])
    (starts : startsWithCaseless name text = true) (whole : text.length = name.length) :
    replaceCaseless name replacement text = replacement := by
  cases text with
  | nil => simp [startsWithCaseless_nil given] at starts
  | cons char rest =>
      rw [List.length_cons] at whole
      rw [replaceCaseless_of_starts given starts, List.drop_eq_nil_of_le (by omega),
        replaceCaseless_nil given, List.append_nil]

/-! ## Occurrences that replacing leaves behind -/

/-- Whether a text can be put anywhere without an occurrence of a word: there is none in it, and
none reaches across its ends. -/
def isInert (word replacement : Text) : Bool :=
  replacement.head?.any (separates word) && replacement.getLast?.any (separates word)
    && !mentions word replacement

theorem startsWithCaseless_of_replaced (given : name ≠ [])
    (border : replacement.head?.any (separates word) = true) (ending : Text)
    (isEnding : ∀ letter ∈ ending, letter ∈ word)
    (starts : startsWithCaseless ending (replaceCaselessFrom name replacement 0 text) = true) :
    startsWithCaseless ending text = true := by
  induction ending generalizing text with
  | nil => simp [startsWithCaseless]
  | cons letter ending ih =>
      cases text with
      | nil => simpa [replaceCaselessFrom_nil given] using starts
      | cons char rest =>
          cases here : startsWithCaseless name (char :: rest) with
          | true =>
              -- a replacement begins with a character that is no letter of the word
              cases replacement with
              | nil => simp at border
              | cons first replacement =>
                  have other := List.all_eq_true.mp border letter (isEnding letter List.mem_cons_self)
                  rw [replaceCaselessFrom_match given here] at starts
                  simp_all [startsWithCaseless]
          | false =>
              rw [replaceCaselessFrom_other here] at starts
              simp only [startsWithCaseless, Bool.and_eq_true] at starts ⊢
              refine ⟨starts.1, ih (fun other isOther => ?_) starts.2⟩
              exact isEnding other (List.mem_cons_of_mem _ isOther)

theorem mentions_inert_append (given : word ≠ []) (inert : isInert word replacement = true)
    (rest : Text) : mentions word (replacement ++ rest) = mentions word rest := by
  simp only [isInert, Bool.and_eq_true, Bool.not_eq_true'] at inert
  obtain ⟨⟨-, border⟩, absent⟩ := inert
  rcases List.eq_nil_or_concat replacement with rfl | ⟨front, last, rfl⟩
  · simp at border
  · have separate : separates word last = true := by simpa using border
    rw [List.concat_eq_append, mentions_append given separate] at absent
    have absentFront := (Bool.or_eq_false_iff.mp absent).1
    rw [List.concat_eq_append, List.append_assoc, List.singleton_append,
      mentions_append given separate, absentFront, Bool.false_or]

/-- Replacing removes a name for good, and it brings no other word in, if only the replacement is
inert. -/
theorem not_mentions_replaceCaselessFrom (given : name ≠ []) (wordGiven : word ≠ [])
    (inert : isInert word replacement = true) (passed : Nat)
    (absent : word = name ∨ mentions word text = false) :
    mentions word (replaceCaselessFrom name replacement passed text) = false := by
  have border : replacement.head?.any (separates word) = true := by
    simp only [isInert, Bool.and_eq_true] at inert
    exact inert.1.1
  induction text generalizing passed with
  | nil => rw [replaceCaselessFrom_nil given, mentions_nil wordGiven]
  | cons char rest ih =>
      have absentRest : word = name ∨ mentions word rest = false :=
        absent.imp_right fun none => by
          simp only [mentions, Bool.or_eq_false_iff] at none
          exact none.2
      cases passed with
      | succ passed => exact ih passed absentRest
      | zero =>
          cases here : startsWithCaseless name (char :: rest) with
          | true =>
              rw [replaceCaselessFrom_match given here, mentions_inert_append wordGiven inert]
              exact ih _ absentRest
          | false =>
              have noStart : startsWithCaseless word (char :: rest) = false := by
                rcases absent with rfl | none
                · exact here
                · simp only [mentions, Bool.or_eq_false_iff] at none
                  exact none.1
              have same : replaceCaselessFrom name replacement 0 (char :: rest) =
                  char :: replaceCaselessFrom name replacement 0 rest :=
                replaceCaselessFrom_other here
              rw [same, mentions, ih 0 absentRest, Bool.or_false]
              cases starts : startsWithCaseless word
                  (char :: replaceCaselessFrom name replacement 0 rest) with
              | false => rfl
              | true =>
                  rw [← same] at starts
                  rw [startsWithCaseless_of_replaced given border word (fun _ => id) starts]
                    at noStart
                  contradiction

theorem not_mentions_replaceCaseless (given : name ≠ []) (wordGiven : word ≠ [])
    (inert : isInert word replacement = true)
    (absent : word = name ∨ mentions word text = false) :
    mentions word (replaceCaseless name replacement text) = false :=
  not_mentions_replaceCaselessFrom given wordGiven inert 0 absent

end BetaNormal.Text
