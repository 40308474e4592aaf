import BetaNormal.Proofs.Source.Reading
import BetaNormal.Proofs.Text.Joining

/-!
# Groups of lines

The entries of a source text are groups of its lines, one after the other.  Lines that are blank belong
to none.  An entry is what the lines of its group hold, joined by spaces, and it has the number of the
first of them.  A group is gone on with as long as it has more opening than closing parentheses, so only
the last one can be left like that.
-/

namespace BetaNormal

namespace Source

open Text

/-! ## Groups -/

/-- Lines that belong together, of which there is at least one. -/
structure Group where
  first : Entry
  others : List Entry

namespace Group

def lines (group : Group) : List Entry := group.first :: group.others

/-- The entry that is made of a group. -/
def entry (group : Group) : Entry :=
  ⟨joined [' '] (group.lines.map Entry.text), group.first.line⟩

/-- Whether each line behind the first one goes on with an expression that is open. -/
def GoesOn (group : Group) : Prop :=
  ∀ front line rest, group.others = front ++ line :: rest →
    isOpen (entry ⟨group.first, front⟩).text = true

def concat (group : Group) (line : Entry) : Group := ⟨group.first, group.others ++ [line]⟩

variable {group : Group} {line : Entry}

theorem goesOn_single (line : Entry) : GoesOn ⟨line, []⟩ := by
  intro front line rest split
  simp at split

theorem GoesOn.concat (goesOn : group.GoesOn) (opens : isOpen group.entry.text = true)
    (line : Entry) : (group.concat line).GoesOn := by
  intro front other rest split
  rcases List.eq_nil_or_concat rest with rfl | ⟨inner, last, rfl⟩
  · obtain ⟨rfl, -⟩ := List.append_inj' split rfl
    exact opens
  · have whole : group.others ++ [line] = (front ++ other :: inner) ++ [last] := by
      simpa [Group.concat] using split
    exact goesOn front other inner (List.append_inj' whole rfl).1

theorem entry_concat (group : Group) (line : Entry) :
    (group.concat line).entry = ⟨group.entry.text ++ ' ' :: line.text, group.entry.line⟩ := by
  have split : (group.concat line).lines.map Entry.text =
      group.lines.map Entry.text ++ [line.text] := by simp [Group.concat, lines]
  have given : group.lines.map Entry.text ≠ [] := by simp [lines]
  rw [entry, split, joined_append given (List.cons_ne_nil _ _)]
  simp [entry, joined, Group.concat]

end Group

/-! ## Books -/

/-- What a line holds, with its number, unless it is blank. -/
def solidEntry (number : Int) (line : Text) : List Entry :=
  if content line = [] then [] else [⟨content line, number⟩]

/-- The lines that are not blank, from a number on. -/
def solidEntries (number : Int) : List Text → List Entry
  | [] => []
  | line :: rest => solidEntry number line ++ solidEntries (number + 1) rest

theorem map_text_solidEntries (number : Int) (lines : List Text) :
    (solidEntries number lines).map Entry.text =
      (lines.map content).filter fun text => !text.isEmpty := by
  induction lines generalizing number with
  | nil => rfl
  | cons line rest ih =>
      rw [solidEntries, List.map_append, ih, List.map_cons, List.filter_cons, solidEntry]
      cases content line <;> simp

/-- `Books lines listing`: the entries of a listing are groups of the lines so far, all but the last of
them are complete, and the listing goes on if the last one is not. -/
structure Books (lines : List Entry) (listing : Listing) : Prop where
  closed : ∀ entry ∈ listing.entries.dropLast, entry.text.count '(' ≤ entry.text.count ')'
  extending : listing.extending = true ↔
    ∃ last, listing.entries.getLast? = some last ∧ last.text.count ')' < last.text.count '('
  groups : ∃ groups : List Group, listing.entries = groups.map Group.entry ∧
    groups.flatMap Group.lines = lines ∧ ∀ group ∈ groups, group.GoesOn

theorem isOpen_iff {expression : Text} :
    isOpen expression = true ↔ expression.count ')' < expression.count '(' := decide_eq_true_iff

variable {lines : List Entry} {entries front : List Entry} {last line : Entry} {listing : Listing}

theorem books_nil : Books [] ⟨[], false⟩ :=
  ⟨by simp, by simp, [], rfl, rfl, by simp⟩

/-- A listing whose last entry has been made just now goes on if that entry is open. -/
theorem books_concat (last : Entry)
    (closed : ∀ entry ∈ front, entry.text.count '(' ≤ entry.text.count ')')
    (groups : ∃ groups : List Group, front ++ [last] = groups.map Group.entry ∧
      groups.flatMap Group.lines = lines ∧ ∀ group ∈ groups, group.GoesOn) :
    Books lines ⟨front ++ [last], isOpen last.text⟩ where
  closed := by rwa [List.dropLast_concat]
  extending := by simp [isOpen_iff]
  groups := groups

theorem Books.start (books : Books lines ⟨entries, false⟩) (line : Entry) :
    Books (lines ++ [line]) ⟨entries ++ [line], isOpen line.text⟩ := by
  refine books_concat line ?_ ?_
  · intro entry isEntry
    rcases List.eq_nil_or_concat entries with rfl | ⟨front, last, rfl⟩
    · cases isEntry
    · rw [List.concat_eq_append] at books isEntry
      rcases List.mem_append.mp isEntry with earlier | isLast
      · exact books.closed entry (by rwa [List.dropLast_concat])
      · obtain rfl := List.mem_singleton.mp isLast
        have notOpen := mt books.extending.mpr Bool.false_ne_true
        simpa using notOpen
  · obtain ⟨groups, rfl, rfl, goOn⟩ := books.groups
    refine ⟨groups ++ [⟨line, []⟩], ?_, ?_, ?_⟩
    · simp [Group.entry, Group.lines, joined]
    · simp [Group.lines]
    · intro group isGroup
      rcases List.mem_append.mp isGroup with earlier | isLast
      · exact goOn group earlier
      · obtain rfl := List.mem_singleton.mp isLast
        exact Group.goesOn_single line

theorem Books.extend (books : Books lines ⟨front ++ [last], true⟩)
    (opens : isOpen last.text = true) (line : Entry) :
    Books (lines ++ [line])
      ⟨front ++ [⟨last.text ++ ' ' :: line.text, last.line⟩],
        isOpen (last.text ++ ' ' :: line.text)⟩ := by
  refine books_concat ⟨_, last.line⟩ ?_ ?_
  · simpa [List.dropLast_concat] using books.closed
  · obtain ⟨groups, isGroups, rfl, goOn⟩ := books.groups
    rcases List.eq_nil_or_concat groups with rfl | ⟨others, group, rfl⟩
    · simp at isGroups
    · rw [List.concat_eq_append] at isGroups goOn ⊢
      rw [List.map_append] at isGroups
      obtain ⟨rfl, isLast⟩ := List.append_inj' isGroups rfl
      obtain rfl : last = group.entry := by simpa using isLast
      refine ⟨others ++ [group.concat line], ?_, ?_, ?_⟩
      · rw [List.map_append, List.map_singleton, Group.entry_concat]
      · simp [Group.lines, Group.concat]
      · intro other isOther
        rcases List.mem_append.mp isOther with earlier | isNew
        · exact goOn other (List.mem_append_left _ earlier)
        · obtain rfl := List.mem_singleton.mp isNew
          exact (goOn group (List.mem_append_right _ List.mem_cons_self)).concat opens line

/-! ## One line, and all lines -/

theorem Books.exists_takeLine (books : Books lines listing) (number : Int) (line : Text) :
    ∃ text entries, takeLine line number listing.extending listing.entries = .ok (text, entries) ∧
      Books (lines ++ solidEntry number line) ⟨entries, isOpen text⟩ := by
  obtain ⟨entries, extending⟩ := listing
  by_cases blank : content line = []
  · -- a blank line is passed over, whether the last entry is waiting or not
    rw [solidEntry, if_pos blank, List.append_nil]
    cases extending with
    | false => exact ⟨[], entries, takeLine_blank blank number entries, books⟩
    | true =>
        obtain ⟨last, isLast, opens⟩ := books.extending.mp rfl
        obtain ⟨front, rfl⟩ := List.getLast?_eq_some_iff.mp isLast
        refine ⟨last.text, front ++ [last], takeLine_wait blank number front last, ?_⟩
        rwa [isOpen_iff.mpr opens]
  · rw [solidEntry, if_neg blank]
    cases extending with
    | false =>
        exact ⟨_, _, takeLine_start blank number entries, books.start ⟨content line, number⟩⟩
    | true =>
        obtain ⟨last, isLast, opens⟩ := books.extending.mp rfl
        obtain ⟨front, rfl⟩ := List.getLast?_eq_some_iff.mp isLast
        exact ⟨_, _, takeLine_extend blank number front last,
          books.extend (isOpen_iff.mpr opens) ⟨content line, number⟩⟩

theorem Books.exists_takeLines (books : Books lines listing) (number : Int) (texts : List Text) :
    ∃ read, takeLines number texts listing = .ok read ∧
      Books (lines ++ solidEntries number texts) read := by
  induction texts generalizing lines listing number with
  | nil => exact ⟨listing, rfl, by rwa [solidEntries, List.append_nil]⟩
  | cons text texts ih =>
      obtain ⟨_, _, taken, next⟩ := books.exists_takeLine number text
      obtain ⟨read, others, kept⟩ := ih next (number + 1)
      refine ⟨read, ?_, ?_⟩
      · rw [takeLines, taken]
        exact others
      · rwa [solidEntries, ← List.append_assoc]

theorem takeLines_append {number : Int} {texts : List Text} {read : Listing}
    (taken : takeLines number texts listing = .ok read) (rest : List Text) :
    takeLines number (texts ++ rest) listing = takeLines (number + texts.length) rest read := by
  induction texts generalizing number listing with
  | nil =>
      cases taken
      simp
  | cons text texts ih =>
      rw [takeLines] at taken
      rw [List.cons_append, takeLines, add_length_cons]
      split at taken
      case h_1 => cases taken
      case h_2 => exact ih taken

theorem Books.joined_texts (books : Books lines listing) :
    joined [' '] (listing.entries.map Entry.text) = joined [' '] (lines.map Entry.text) := by
  obtain ⟨groups, isGroups, rfl, -⟩ := books.groups
  have given : ∀ texts ∈ groups.map fun group => group.lines.map Entry.text, texts ≠ [] := by
    intro texts isTexts
    obtain ⟨group, -, rfl⟩ := List.mem_map.mp isTexts
    simp [Group.lines]
  have whole := joined_map_joined [' '] given
  rw [isGroups, List.map_flatMap, List.flatMap_def, ← whole]
  simp [Group.entry, Function.comp_def]

/-- Any lines can be taken up one after the other, and after each of them the books are in order: only
the last entry can have more opening than closing parentheses, and the next line is joined to it exactly
if it has.  The entries are groups of the lines that are not blank, in order, with nothing lost or added
but the spaces between them, each with the number of its first line, and a group is gone on with only
while it is open. -/
theorem takeLines_keeps_books (number : Int) (lines rest : List Text) :
    ∃ listing, takeLines number lines ⟨[], false⟩ = .ok listing ∧
      takeLines number (lines ++ rest) ⟨[], false⟩ =
        takeLines (number + lines.length) rest listing ∧
      Books (solidEntries number lines) listing ∧
      (listing.entries.map Entry.line).Pairwise (· < ·) ∧
      joined [' '] (listing.entries.map Entry.text) =
        joined [' '] ((lines.map content).filter fun text => !text.isEmpty) := by
  obtain ⟨listing, taken, books⟩ := books_nil.exists_takeLines number lines
  rw [List.nil_append] at books
  obtain ⟨read, takenToo, valid⟩ := exists_takeLines_eq (Listing.valid_nil number) lines
  cases taken.symm.trans takenToo
  refine ⟨listing, taken, takeLines_append taken rest, books, valid.ordered, ?_⟩
  rw [books.joined_texts, map_text_solidEntries]

end Source

end BetaNormal
