import BetaNormal.Proofs.Source

/-!
# Reading any lines

Whatever its lines are, a source text can be read.  What a line adds to the expression before it does
not depend on the blank space around the line, nor on whether comments are cut off before or after the
lines are joined.
-/

namespace BetaNormal

namespace Text

variable {text front rest : Text} {first : Char}

theorem exists_eq_append_trim (text : Text) : ∃ before after : Text,
    text = before ++ trim text ++ after ∧ before.all isBlank = true ∧ after.all isBlank = true := by
  let inner := text.dropWhile isBlank
  refine ⟨text.takeWhile isBlank, (inner.reverse.takeWhile isBlank).reverse, ?_,
    List.all_takeWhile, by simp only [List.all_reverse, List.all_takeWhile]⟩
  have front : text.takeWhile isBlank ++ inner = text := List.takeWhile_append_dropWhile
  have back : trim text ++ (inner.reverse.takeWhile isBlank).reverse = inner := by
    rw [trim_eq, ← List.reverse_append, List.takeWhile_append_dropWhile, List.reverse_reverse]
  rw [List.append_assoc, back, front]

theorem trim_infix_self (text : Text) : trim text <:+: text := by
  obtain ⟨before, after, whole, -, -⟩ := exists_eq_append_trim text
  exact ⟨before, after, whole.symm⟩

theorem exists_trim_cons (solid : isBlank first = false) (rest : Text) :
    ∃ others, trim (first :: rest) = first :: others := by
  rw [trim_eq, List.dropWhile_cons_of_neg (by simp [solid]), List.reverse_cons,
    dropWhile_append_cons solid, List.reverse_append]
  exact ⟨_, rfl⟩

/-- `BeginsSolid text`: a text is empty or begins with a character that is not blank. -/
def BeginsSolid (text : Text) : Prop :=
  text = [] ∨ ∃ first rest, text = first :: rest ∧ isBlank first = false

theorem beginsSolid_trim (text : Text) : BeginsSolid (trim text) := by
  cases inner : text.dropWhile isBlank with
  | nil => exact .inl (by rw [trim_eq, inner]; rfl)
  | cons first rest =>
      have solid : isBlank first = false := by
        simpa [inner] using List.head?_dropWhile_not isBlank text
      have same : trim text = trim (first :: rest) := by
        rw [trim_eq, trim_eq, inner, List.dropWhile_cons_of_neg (by simp [solid])]
      obtain ⟨others, begins⟩ := exists_trim_cons solid rest
      exact .inr ⟨first, others, same.trans begins, solid⟩

theorem trim_trim (text : Text) : trim (trim text) = trim text := by
  obtain ⟨before, after, whole, beforeBlank, afterBlank⟩ := exists_eq_append_trim text
  conv_rhs => rw [whole]
  rw [trim_append_blank afterBlank, trim_blank_append beforeBlank]

theorem trim_append_space (trimmed : trim front = front) (given : front ≠ [])
    (begins : BeginsSolid rest) :
    trim (front ++ ' ' :: rest) =
      if trim rest = [] then front else front ++ ' ' :: trim rest := by
  rcases begins with rfl | ⟨first, others, rfl, solid⟩
  · exact (trim_append_blank rfl front).trans trimmed
  · rcases beginsSolid_trim front with none | ⟨start, inner, whole, startSolid⟩
    · exact absurd (trimmed.symm.trans none) given
    · have stays : (front ++ [' ']).dropWhile isBlank = front ++ [' '] := by
        rw [← trimmed, whole, List.cons_append, List.dropWhile_cons_of_neg (by simp [startSolid])]
      have split : front ++ ' ' :: first :: others = (front ++ [' ']) ++ first :: others := by simp
      rw [split, trim_append_cons solid, stays, if_neg (trim_cons_ne_nil solid others)]
      simp

end Text

namespace Source

open Text

variable {line earlier front rest text : Text} {char : Char}

/-! ## Comments -/

theorem comment_prefix_cons :
    comment <+: char :: rest ↔ char = ';' ∧ rest.head? = some ';' := by
  rw [comment_eq, List.cons_prefix_cons, eq_comm]
  cases rest <;> simp [List.cons_prefix_cons, eq_comm]

theorem upTo_comment_prefix (text : Text) : upTo comment text <+: text := by
  induction text with
  | nil => exact List.prefix_refl _
  | cons char rest ih =>
      rw [upTo]
      split
      · exact List.nil_prefix
      · exact List.cons_prefix_cons.mpr ⟨rfl, ih⟩

theorem not_comment_infix_upTo (text : Text) : ¬ comment <:+: upTo comment text := by
  induction text with
  | nil => simp [upTo, comment_eq]
  | cons char rest ih =>
      rw [upTo]
      split
      case isTrue => simp [comment_eq]
      case isFalse absent =>
        rw [List.infix_cons_iff, not_or]
        refine ⟨fun begins => absent ?_, ih⟩
        have shorter : char :: upTo comment rest <+: char :: rest :=
          List.cons_prefix_cons.mpr ⟨rfl, upTo_comment_prefix rest⟩
        exact List.isPrefixOf_iff_prefix.mpr (begins.trans shorter)

theorem not_comment_infix_content (line : Text) : ¬ comment <:+: content line :=
  fun occurs => not_comment_infix_upTo line (occurs.trans (trim_infix_self _))

/-- A comment does not begin in front of anything else than a semicolon. -/
theorem upTo_comment_append_cons (absent : ¬ comment <:+: front) (other : char ≠ ';')
    (rest : Text) : upTo comment (front ++ char :: rest) = front ++ char :: upTo comment rest := by
  induction front with
  | nil =>
      have begins : ¬ comment <+: char :: rest := fun begins =>
        other (comment_prefix_cons.mp begins).1
      rw [List.nil_append, upTo, if_neg (by rwa [List.isPrefixOf_iff_prefix]), List.nil_append]
  | cons first front ih =>
      rw [List.infix_cons_iff, not_or] at absent
      have begins : ¬ comment <+: first :: (front ++ char :: rest) := by
        rw [comment_prefix_cons]
        rintro ⟨rfl, next⟩
        cases front with
        | nil => exact other (Option.some.inj next)
        | cons second front => exact absent.1 (comment_prefix_cons.mpr ⟨rfl, next⟩)
      rw [List.cons_append, upTo, if_neg (by rwa [List.isPrefixOf_iff_prefix]), ih absent.2,
        List.cons_append]

theorem upTo_comment_append_blank (blank : rest.all isBlank = true) (text : Text) :
    upTo comment (text ++ rest) = upTo comment text ∨
      upTo comment (text ++ rest) = upTo comment text ++ rest := by
  have absent := not_mem_of_blank blank
  induction text with
  | nil =>
      have whole := upTo_comment_append absent []
      rw [List.append_nil] at whole
      exact .inr (by simpa [upTo] using whole)
  | cons char text ih =>
      rw [List.cons_append, upTo, upTo]
      simp only [List.isPrefixOf_iff_prefix]
      have same : comment <+: char :: (text ++ rest) ↔ comment <+: char :: text := by
        rw [comment_prefix_cons, comment_prefix_cons]
        cases text with
        | nil =>
            have next : rest.head? ≠ some ';' := fun begins =>
              absent (List.mem_of_head? begins)
            simp [next]
        | cons second text => rfl
      simp only [same]
      split
      case isTrue => exact .inl rfl
      case isFalse =>
        rcases ih with cut | kept
        · exact .inl (by rw [cut])
        · exact .inr (by rw [kept, List.cons_append])

/-! ## Expressions on several lines -/

theorem content_trim (line : Text) : content line.trim = content line := by
  obtain ⟨before, after, whole, beforeBlank, afterBlank⟩ := exists_eq_append_trim line
  have front := upTo_comment_append (not_mem_of_blank beforeBlank) (line.trim ++ after)
  rw [← List.append_assoc, ← whole] at front
  rw [content, content, front, trim_blank_append beforeBlank]
  rcases upTo_comment_append_blank afterBlank line.trim with cut | kept
  · rw [cut]
  · rw [kept, trim_append_blank afterBlank]

theorem trim_content (line : Text) : (content line).trim = content line := trim_trim _

/-- An expression as far as it is known once a further line has been taken up. -/
def continued (sofar line : Text) : Text :=
  if sofar = [] then content line
  else if content line = [] then sofar
  else sofar ++ ' ' :: content line

theorem continued_nil (line : Text) : continued [] line = content line := if_pos rfl

theorem continued_blank (blank : content line = []) (sofar : Text) :
    continued sofar line = sofar := by
  rw [continued, blank]
  split
  case isTrue none => exact none.symm
  case isFalse => exact if_pos rfl

/-- Joining a line to what is known of an expression, and then cutting off the comment and stripping
it all, comes to the same as joining what the line holds. -/
theorem content_append_trim (solid : content earlier ≠ []) (line : Text) :
    content (content earlier ++ ' ' :: line.trim) = continued (content earlier) line := by
  have kept := upTo_comment_append_cons (not_comment_infix_content earlier)
    (by decide : ' ' ≠ ';') line.trim
  have begins : BeginsSolid (upTo comment line.trim) := by
    rcases beginsSolid_trim line with none | ⟨first, rest, whole, firstSolid⟩
    · exact .inl (by rw [none]; rfl)
    · rw [whole, upTo]
      split
      case isTrue => exact .inl rfl
      case isFalse => exact .inr ⟨first, _, rfl, firstSolid⟩
  rw [content, kept, trim_append_space (trim_content earlier) solid begins, continued, if_neg solid,
    ← content_trim line]
  rfl

/-! ## Listings -/

/-- What is still to be continued of an expression: all of it, or nothing. -/
def outstanding (expression : Text) : Text := if isOpen expression then expression else []

theorem ne_nil_of_isOpen {expression : Text} (opens : isOpen expression = true) :
    expression ≠ [] := by
  rintro rfl
  contradiction

theorem outstanding_ne_nil_iff (expression : Text) :
    outstanding expression ≠ [] ↔ isOpen expression = true := by
  cases opens : isOpen expression with
  | false => simp [outstanding, opens]
  | true => simp [outstanding, opens, ne_nil_of_isOpen opens]

/-- An expression if it is complete and there is one. -/
def finished (expression : Text) : Option Text :=
  if isOpen expression ∨ expression = [] then none else some expression

namespace Listing

/-- The entries that are complete. -/
def closed (listing : Listing) : List Entry :=
  if listing.extending then listing.entries.dropLast else listing.entries

/-- The last entry if it is to be continued. -/
def pending (listing : Listing) : Text :=
  if listing.extending then (listing.entries.getLast?.map Entry.text).getD [] else []

/-- What holds of a listing in front of a line: it goes on only if its last entry is open, and its
entries are in the order of the lines before that line. -/
structure Valid (number : Int) (listing : Listing) : Prop where
  last : listing.extending = true →
    ∃ front last, listing.entries = front ++ [last] ∧ isOpen last.text = true
  ordered : (listing.entries.map Entry.line).Pairwise (· < ·)
  before : ∀ start ∈ listing.entries.map Entry.line, start < number

theorem valid_nil (number : Int) : Valid number ⟨[], false⟩ :=
  ⟨by simp, .nil, by simp⟩

variable {listing : Listing} {number : Int} {entries : List Entry} {entry : Entry}

theorem Valid.next (valid : listing.Valid number) {extending : Bool}
    (same : entries.map Entry.line = listing.entries.map Entry.line)
    (last : extending = true → ∃ front last, entries = front ++ [last] ∧ isOpen last.text = true) :
    Valid (number + 1) ⟨entries, extending⟩ where
  last := last
  ordered := same ▸ valid.ordered
  before := fun start isStart => by
    have earlier := valid.before start (same ▸ isStart)
    omega

theorem Valid.concat (valid : listing.Valid number) (expression : Text) :
    Valid (number + 1) ⟨listing.entries ++ [⟨expression, number⟩], isOpen expression⟩ where
  last := fun isOpen => ⟨_, _, rfl, isOpen⟩
  ordered := by
    rw [List.map_append, List.pairwise_append]
    refine ⟨valid.ordered, List.pairwise_singleton _ _, fun start isStart other isLast => ?_⟩
    rw [List.mem_singleton.mp isLast]
    exact valid.before start isStart
  before := by
    intro start isStart
    rw [List.map_append, List.mem_append] at isStart
    rcases isStart with earlier | isLast
    · have less := valid.before start earlier
      omega
    · rw [List.mem_singleton.mp isLast]
      exact Int.lt_succ number

/-- Whether the last entry is complete decides on which side it stands. -/
theorem closed_concat (given : entry.text ≠ []) :
    (⟨entries ++ [entry], isOpen entry.text⟩ : Listing).closed.map Entry.text =
      entries.map Entry.text ++ (finished entry.text).toList := by
  cases opens : isOpen entry.text <;> simp [closed, finished, opens, given]

theorem pending_concat :
    (⟨entries ++ [entry], isOpen entry.text⟩ : Listing).pending = outstanding entry.text := by
  cases opens : isOpen entry.text <;> simp [pending, outstanding, opens]

end Listing

variable {listing : Listing} {number : Int}

theorem Listing.Valid.pending_cases (valid : listing.Valid number) :
    listing.pending = [] ∨ isOpen listing.pending = true := by
  obtain ⟨entries, extending⟩ := listing
  cases extending with
  | false => exact .inl rfl
  | true =>
      obtain ⟨front, last, rfl, opens⟩ := valid.last rfl
      exact .inr (by simpa [Listing.pending] using opens)

/-- Any line can be taken up.  It continues the expression that is pending, and what comes of that is
pending in turn or complete. -/
theorem exists_takeLine_eq (valid : listing.Valid number) (line : Text) :
    ∃ entries,
      takeLine line number listing.extending listing.entries =
        .ok (continued listing.pending line, entries) ∧
      Listing.Valid (number + 1) ⟨entries, isOpen (continued listing.pending line)⟩ ∧
      Listing.pending ⟨entries, isOpen (continued listing.pending line)⟩ =
        outstanding (continued listing.pending line) ∧
      (Listing.closed ⟨entries, isOpen (continued listing.pending line)⟩).map Entry.text =
        listing.closed.map Entry.text ++ (finished (continued listing.pending line)).toList := by
  obtain ⟨entries, extending⟩ := listing
  cases extending with
  | false =>
      have none : Listing.pending ⟨entries, false⟩ = [] := rfl
      rw [none, continued_nil]
      by_cases blank : content line = []
      · rw [blank]
        exact ⟨entries, takeLine_blank blank number entries, valid.next rfl (by simp [isOpen]), rfl,
          by simp [Listing.closed, finished, isOpen]⟩
      · exact ⟨_, takeLine_start blank number entries, valid.concat _, Listing.pending_concat,
          Listing.closed_concat blank⟩
  | true =>
      obtain ⟨front, last, rfl, opens⟩ := valid.last rfl
      have given := ne_nil_of_isOpen opens
      have whole : Listing.pending ⟨front ++ [last], true⟩ = last.text := by
        simp [Listing.pending]
      rw [whole]
      by_cases blank : content line = []
      · rw [continued_blank blank, opens]
        exact ⟨_, takeLine_wait blank number front last,
          valid.next rfl fun _ => ⟨front, last, rfl, opens⟩,
          by simp [Listing.pending, outstanding, opens],
          by simp [Listing.closed, finished, opens]⟩
      · have joined : continued last.text line = last.text ++ ' ' :: content line := by
          rw [continued, if_neg given, if_neg blank]
        rw [joined]
        refine ⟨_, takeLine_extend blank number front last,
          valid.next (by simp) fun opens => ⟨front, _, rfl, opens⟩, Listing.pending_concat, ?_⟩
        let entry : Entry := ⟨last.text ++ ' ' :: content line, last.line⟩
        have given : entry.text ≠ [] := by simp [entry]
        simpa [Listing.closed, entry] using Listing.closed_concat given

/-- Any lines can be read. -/
theorem exists_takeLines_eq (valid : listing.Valid number) (lines : List Text) :
    ∃ read, takeLines number lines listing = .ok read ∧ read.Valid (number + lines.length) := by
  induction lines generalizing number listing with
  | nil => exact ⟨listing, rfl, by simpa using valid⟩
  | cons line rest ih =>
      obtain ⟨entries, taken, validNext, -, -⟩ := exists_takeLine_eq valid line
      obtain ⟨read, others, validRead⟩ := ih validNext
      refine ⟨read, ?_, ?_⟩
      · rw [takeLines, taken]
        exact others
      · rwa [add_length_cons]

end Source

end BetaNormal
