import BetaNormal.Proofs.Abbreviation.Complete

/-!
# Abbreviations in one pass

The abbreviations of a table are written out one after the other, each of them in the whole text.  For
the built-in table this comes to the same as going through the text once from left to right, where each
name that is found is replaced at once by all that it means in the end.  Names can overlap in a text, as
the two in `NOTRUE` do, and then the one on the left counts in both ways, since it comes first in the
table as well.
-/

namespace BetaNormal

namespace Text

variable {name word replacement text found front rest : Text} {char : Char}

/-! ## Occurrences that overlap -/

/-- Whether two texts agree, letter by letter and in whatever case, as far as the shorter one goes. -/
def agrees : (left right : Text) → Bool
  | char :: left, other :: right => sameLetter char other && agrees left right
  | _, _ => true

/-- Whether a name can begin somewhere in a word, and go on behind its end. -/
def beginsIn (name : Text) : (word : Text) → Bool
  | [] => false
  | letter :: word => agrees name (letter :: word) || beginsIn name word

theorem sameLetter_of_common {left right : Char} (leftSame : sameLetter left char = true)
    (rightSame : sameLetter right char = true) : sameLetter left right = true := by
  rw [sameLetter, beq_iff_eq] at *
  exact leftSame.trans rightSame.symm

theorem agrees_of_startsWithCaseless (nameStarts : startsWithCaseless name text = true)
    (wordStarts : startsWithCaseless word text = true) : agrees name word = true := by
  induction name generalizing word text with
  | nil => rfl
  | cons letter name ih =>
      cases word with
      | nil => rfl
      | cons other word =>
          cases text with
          | nil => simp [startsWithCaseless] at nameStarts
          | cons char text =>
              simp only [startsWithCaseless, Bool.and_eq_true] at nameStarts wordStarts
              rw [agrees, sameLetter_of_common nameStarts.1 wordStarts.1,
                ih nameStarts.2 wordStarts.2]
              rfl

/-- A word in which a name cannot begin is passed over. -/
theorem replaceCaseless_word_append (apart : beginsIn name word = false)
    (alike : List.Forall₂ (fun letter char => sameLetter letter char = true) word found)
    (rest : Text) :
    replaceCaseless name replacement (found ++ rest) =
      found ++ replaceCaseless name replacement rest := by
  induction alike with
  | nil => rfl
  | @cons letter char word found same alike ih =>
      rw [beginsIn, Bool.or_eq_false_iff] at apart
      have wordStarts : startsWithCaseless (letter :: word) (char :: (found ++ rest)) = true :=
        startsWithCaseless_iff_exists.mpr ⟨char :: found, rest, rfl, .cons same alike⟩
      have noStart : startsWithCaseless name (char :: (found ++ rest)) = false := by
        cases starts : startsWithCaseless name (char :: (found ++ rest)) with
        | false => rfl
        | true =>
            rw [agrees_of_startsWithCaseless starts wordStarts] at apart
            cases apart.1
      rw [List.cons_append, replaceCaseless_of_not_starts noStart, ih apart.2, List.cons_append]

end Text

/-! ## One pass -/

/-- The abbreviation whose name is found at the front of a text, and the first of them in the table if
there are several. -/
def Abbreviation.atFront? (table : List Abbreviation) (text : Text) : Option Abbreviation :=
  table.find? fun abbreviation => Text.startsWithCaseless abbreviation.name text

/-- Goes through a text once.  A name that is found is replaced by its meaning and passed over, and any
other character stays. -/
def scan (table : List Abbreviation) : Text → Text
  | [] => []
  | char :: rest =>
      match Abbreviation.atFront? table (char :: rest) with
      | some abbreviation =>
          abbreviation.meaning ++ scan table (rest.drop (abbreviation.name.length - 1))
      | none => char :: scan table rest
termination_by text => text.length
decreasing_by all_goals simp only [List.length_drop, List.length_cons]; omega

/-- A table with the meanings that its names have in the end. -/
def Abbreviation.writtenOut (table : List Abbreviation) : List Abbreviation :=
  table.map fun abbreviation => ⟨abbreviation.name, expand table abbreviation.meaning⟩

namespace Abbreviation

variable {table : List Abbreviation} {abbreviation : Abbreviation} {text rest front : Text}
variable {char : Char}

theorem scan_of_some (found : atFront? table (char :: rest) = some abbreviation) :
    scan table (char :: rest) =
      abbreviation.meaning ++ scan table (rest.drop (abbreviation.name.length - 1)) := by
  rw [scan, found]

theorem scan_of_none (absent : atFront? table (char :: rest) = none) :
    scan table (char :: rest) = char :: scan table rest := by
  rw [scan, absent]

theorem atFront?_congr {other : Text} (same : ∀ abbreviation ∈ table,
      Text.startsWithCaseless abbreviation.name text =
        Text.startsWithCaseless abbreviation.name other) :
    atFront? table text = atFront? table other := by
  induction table with
  | nil => rfl
  | cons first table ih =>
      have others := ih fun other isOther => same other (List.mem_cons_of_mem _ isOther)
      simp only [atFront?, List.find?_cons, same first List.mem_cons_self] at others ⊢
      rw [others]

theorem of_atFront? (found : atFront? table text = some abbreviation) :
    abbreviation ∈ table ∧ Text.startsWithCaseless abbreviation.name text = true :=
  ⟨List.mem_of_find?_eq_some found, by simpa using List.find?_some found⟩

theorem atFront?_nil (named : ∀ abbreviation ∈ table, abbreviation.name ≠ []) :
    atFront? table [] = none := by
  refine List.find?_eq_none.mpr fun abbreviation listed => ?_
  simp [Text.startsWithCaseless_nil (named abbreviation listed)]

/-- No name reaches across a character that is no letter of any. -/
theorem scan_append (named : ∀ abbreviation ∈ table, abbreviation.name ≠ [])
    (separate : ∀ abbreviation ∈ table, Text.separates abbreviation.name char = true)
    (front rest : Text) :
    scan table (front ++ char :: rest) = scan table front ++ char :: scan table rest := by
  have same : ∀ front, atFront? table (front ++ char :: rest) = atFront? table front :=
    fun front => atFront?_congr fun abbreviation listed =>
      Text.startsWithCaseless_append (separate abbreviation listed) front rest
  fun_induction scan table front with
  | case1 => exact scan_of_none ((same []).trans (atFront?_nil named))
  | case2 first front abbreviation found ih =>
      have short := Text.length_le_of_startsWithCaseless (of_atFront? found).2
      rw [List.length_cons] at short
      have within : abbreviation.name.length - 1 ≤ front.length := by omega
      have foundToo : atFront? table (first :: (front ++ char :: rest)) = some abbreviation :=
        (same (first :: front)).trans found
      rw [List.cons_append, scan_of_some foundToo, List.drop_append_of_le_length within, ih,
        List.append_assoc]
  | case3 first front absent ih =>
      have absentToo : atFront? table (first :: (front ++ char :: rest)) = none :=
        (same (first :: front)).trans absent
      rw [List.cons_append, scan_of_none absentToo, ih, List.cons_append]

theorem scan_append_of_last (named : ∀ abbreviation ∈ table, abbreviation.name ≠ [])
    (ends : ∀ abbreviation ∈ table, front.getLast?.any (Text.separates abbreviation.name) = true)
    (given : front ≠ []) (rest : Text) :
    scan table (front ++ rest) = scan table front ++ scan table rest := by
  obtain ⟨inner, last, rfl⟩ := (List.eq_nil_or_concat front).resolve_left given
  have separate : ∀ abbreviation ∈ table, Text.separates abbreviation.name last = true :=
    fun abbreviation listed => by simpa using ends abbreviation listed
  have whole := scan_append named separate inner rest
  have alone := scan_append named separate inner []
  rw [scan] at alone
  rw [List.concat_eq_append, List.append_assoc, List.singleton_append, whole, alone]
  simp

/-! ## One name before the others -/

/-- Whether an abbreviation can be written out in the whole of a text before another one: its meaning
neither begins nor ends in a letter of the other name, and its name cannot begin inside that name. -/
structure Precedes (earlier later : Abbreviation) : Prop where
  begins : earlier.meaning.head?.any (Text.separates later.name) = true
  ends : earlier.meaning.getLast?.any (Text.separates later.name) = true
  apart : Text.beginsIn earlier.name later.name.tail = false

variable {first other : Abbreviation} {others : List Abbreviation}

/-- Nothing is replaced in a later name that is found behind a character where the earlier one does not
begin. -/
theorem Precedes.exists_found (precedes : first.Precedes other) (named : other.name ≠ [])
    (starts : Text.startsWithCaseless other.name (char :: rest) = true) :
    ∃ found behind, rest = found ++ behind ∧ found.length = other.name.length - 1 ∧
      Text.replaceCaseless first.name first.meaning rest =
        found ++ Text.replaceCaseless first.name first.meaning behind ∧
      ∀ after, Text.startsWithCaseless other.name (char :: (found ++ after)) = true := by
  obtain ⟨name, meaning⟩ := other
  obtain ⟨found, behind, split, alike⟩ := Text.startsWithCaseless_iff_exists.mp starts
  cases alike with
  | nil => contradiction
  | @cons letter _ word found same alike =>
      obtain ⟨rfl, rfl⟩ := List.cons.inj split
      refine ⟨found, behind, rfl, ?_, Text.replaceCaseless_word_append precedes.apart alike behind,
        fun after => ?_⟩
      · simpa using alike.length_eq.symm
      · exact Text.startsWithCaseless_iff_exists.mpr ⟨_ :: found, after, rfl, .cons same alike⟩

section

variable (given : first.name ≠ []) (named : ∀ other ∈ others, other.name ≠ [])
variable (precedes : ∀ other ∈ others, first.Precedes other)

include given named precedes

theorem atFront?_replaced (noStart : Text.startsWithCaseless first.name (char :: rest) = false) :
    atFront? others (char :: Text.replaceCaseless first.name first.meaning rest) =
      atFront? others (char :: rest) := by
  refine atFront?_congr fun other isOther => Bool.eq_iff_iff.mpr ⟨fun starts => ?_, fun starts => ?_⟩
  · rw [← Text.replaceCaseless_of_not_starts noStart] at starts
    exact Text.startsWithCaseless_of_replaced given (precedes other isOther).begins other.name
      (fun _ => id) starts
  · obtain ⟨found, behind, rfl, -, replaced, startsToo⟩ :=
      (precedes other isOther).exists_found (named other isOther) starts
    rw [replaced]
    exact startsToo _

/-- To replace one name everywhere before a pass with the others comes to the same as a pass with all of
them, in which that name has the meaning that the others make of it. -/
theorem scan_replaceCaseless (meant : first.meaning ≠ []) (text : Text) :
    scan others (Text.replaceCaseless first.name first.meaning text) =
      scan (⟨first.name, scan others first.meaning⟩ :: others) text := by
  have atFront : ∀ text, atFront? (⟨first.name, scan others first.meaning⟩ :: others) text =
      if Text.startsWithCaseless first.name text then
        some ⟨first.name, scan others first.meaning⟩ else atFront? others text := by
    intro text
    rw [atFront?, List.find?_cons]
    cases Text.startsWithCaseless first.name text <;> rfl
  fun_induction scan (⟨first.name, scan others first.meaning⟩ :: others) text with
  | case1 => rw [Text.replaceCaseless_nil given, scan]
  | case2 char rest abbreviation found ih =>
      rw [atFront] at found
      cases starts : Text.startsWithCaseless first.name (char :: rest) with
      | true =>
          rw [starts, if_pos rfl] at found
          cases found
          rw [Text.replaceCaseless_of_starts given starts, scan_append_of_last named
            (fun other isOther => (precedes other isOther).ends) meant, ih]
      | false =>
          rw [starts, if_neg Bool.false_ne_true] at found
          obtain ⟨isOther, startsToo⟩ := of_atFront? found
          obtain ⟨word, behind, rfl, length, replaced, -⟩ :=
            (precedes _ isOther).exists_found (named _ isOther) startsToo
          rw [← length, List.drop_left] at ih ⊢
          have foundToo := (atFront?_replaced given named precedes starts).trans found
          rw [Text.replaceCaseless_of_not_starts starts, scan_of_some foundToo, replaced, ← length,
            List.drop_left, ih]
  | case3 char rest absent ih =>
      rw [atFront] at absent
      cases starts : Text.startsWithCaseless first.name (char :: rest) with
      | true => simp [starts] at absent
      | false =>
          rw [starts, if_neg Bool.false_ne_true] at absent
          have absentToo := (atFront?_replaced given named precedes starts).trans absent
          rw [Text.replaceCaseless_of_not_starts starts, scan_of_none absentToo, ih]

end

theorem scan_nil (text : Text) : scan [] text = text := by
  induction text with
  | nil => rw [scan]
  | cons char text ih => rw [scan_of_none rfl, ih]

/-! ## All names of a table -/

/-- The abbreviations that come before an abbreviation in a table make no difference to its meaning. -/
theorem Final.expand_meaning {front : List Abbreviation}
    (final : Final (front ++ abbreviation :: others)) :
    expand (front ++ abbreviation :: others) abbreviation.meaning =
      expand others abbreviation.meaning := by
  obtain ⟨-, inert, apart⟩ := final
  have unchanged : expand (front ++ [abbreviation]) abbreviation.meaning = abbreviation.meaning := by
    refine expand_eq_self fun earlier listed => ?_
    have earlierInert : Text.isInert earlier.name abbreviation.meaning = true := by
      rcases List.mem_append.mp listed with before | itself
      · exact (List.pairwise_append.mp apart).2.2 earlier before abbreviation List.mem_cons_self
      · obtain rfl := List.mem_singleton.mp itself
        exact inert earlier (List.mem_append_right _ List.mem_cons_self)
    simp only [Text.isInert, Bool.and_eq_true, Bool.not_eq_true'] at earlierInert
    exact earlierInert.2
  have split : front ++ abbreviation :: others = (front ++ [abbreviation]) ++ others := by simp
  rw [split, expand, List.foldl_append, ← expand, ← expand, unchanged]

/-- Whether the abbreviations of a table, each of which means something, stand in an order in which one
can be written out before the other. -/
def Ordered (table : List Abbreviation) : Prop :=
  (∀ abbreviation ∈ table, abbreviation.meaning ≠ []) ∧ table.Pairwise Precedes

theorem expand_eq_scan_of_suffix (front : List Abbreviation) (final : Final (front ++ others))
    (ordered : Ordered others) (text : Text) :
    expand others text = scan
      (others.map fun other => ⟨other.name, expand (front ++ others) other.meaning⟩) text := by
  induction others generalizing front text with
  | nil => exact (scan_nil text).symm
  | cons first others ih =>
      obtain ⟨meant, before⟩ := ordered
      rw [List.pairwise_cons] at before
      have split : front ++ first :: others = (front ++ [first]) ++ others := by simp
      have named : ∀ other ∈ first :: others, other.name ≠ [] := fun other listed =>
        final.1 other (List.mem_append_right _ listed)
      have rest : ∀ text, expand others text = scan
          (others.map fun other => ⟨other.name, expand (front ++ first :: others) other.meaning⟩)
          text := by
        rw [split] at final ⊢
        exact ih _ final ⟨fun other listed => meant other (List.mem_cons_of_mem _ listed), before.2⟩
      have whole := final.expand_meaning
      rw [rest] at whole
      rw [expand, List.foldl_cons, ← expand, apply, rest, List.map_cons, whole]
      refine scan_replaceCaseless (named first List.mem_cons_self) ?_ ?_
        (meant first List.mem_cons_self) text
      · intro other listed
        obtain ⟨original, isOther, rfl⟩ := List.mem_map.mp listed
        exact named original (List.mem_cons_of_mem _ isOther)
      · intro other listed
        obtain ⟨original, isOther, rfl⟩ := List.mem_map.mp listed
        have precedes := before.1 original isOther
        exact ⟨precedes.begins, precedes.ends, precedes.apart⟩

theorem ordered_standard : Ordered standard := by
  have meant : standard.all (fun abbreviation => !abbreviation.meaning.isEmpty) = true := by decide
  have before : standard.Pairwise fun earlier later =>
      earlier.meaning.head?.any (Text.separates later.name) = true ∧
      earlier.meaning.getLast?.any (Text.separates later.name) = true ∧
      Text.beginsIn earlier.name later.name.tail = false := by decide
  refine ⟨fun abbreviation listed => ?_, before.imp fun ⟨begins, ends, apart⟩ =>
    ⟨begins, ends, apart⟩⟩
  simpa using List.all_eq_true.mp meant abbreviation listed

theorem eq_of_agrees_standard : ∀ first ∈ standard, ∀ second ∈ standard,
    Text.agrees first.name second.name = true → first = second := by decide

end Abbreviation

/-- To write out the built-in abbreviations one after the other in the whole text comes to the same as to
go through the text once and to write out in full, at each place, the name that is found there.  There
is never more than one. -/
theorem expand_eq_scan (text : Text) :
    expand Abbreviation.standard text = scan (Abbreviation.writtenOut Abbreviation.standard) text ∧
    Abbreviation.writtenOut Abbreviation.standard =
      [⟨"_", " "⟩,
       ⟨"AND", "λx10.λy10.((x10 y10) λx7.λy7.y7)"⟩,
       ⟨"NOT", "λx9.((x9 λx7.λy7.y7) λx8.λy8.x8)"⟩,
       ⟨"TRUE", "λx8.λy8.x8"⟩,
       ⟨"FALSE", "λx7.λy7.y7"⟩,
       ⟨"COND", "λa6.λb6.λc6.((c6 a6) b6)"⟩] ∧
    ∀ first ∈ Abbreviation.standard, ∀ second ∈ Abbreviation.standard,
      Text.startsWithCaseless first.name text = true →
      Text.startsWithCaseless second.name text = true → first = second := by
  refine ⟨?_, by decide +kernel, ?_⟩
  · exact Abbreviation.expand_eq_scan_of_suffix [] Abbreviation.final_standard
      Abbreviation.ordered_standard text
  · intro first isFirst second isSecond firstStarts secondStarts
    exact Abbreviation.eq_of_agrees_standard first isFirst second isSecond
      (Text.agrees_of_startsWithCaseless firstStarts secondStarts)

example : expand Abbreviation.standard "NoTrue" = ("λx9.((x9 λx7.λy7.y7) λx8.λy8.x8)rue" : Text) := by
  decide +kernel

end BetaNormal
