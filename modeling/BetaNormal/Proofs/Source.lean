import BetaNormal.Proofs.Spelling.Layout
import BetaNormal.Source

/-!
# Laid out source texts

A source text can hold expressions on any of its lines, with blank lines, comments and blank space
at the ends of lines added wherever the author likes.  What is read are the expressions alone, each
of them with its lines joined, at the number of the line on which it starts.
-/

namespace BetaNormal.Source

open Text

variable {text line shown front sofar : Text} {texts lines others rest : List Text}
variable {entries : List Entry} {number start : Int} {starts : List Int}

/-! ## One line -/

theorem comment_eq : comment = [';', ';'] := rfl

theorem upTo_comment_append (absent : ';' ∉ front) (rest : Text) :
    upTo comment (front ++ rest) = front ++ upTo comment rest := by
  induction front with
  | nil => rfl
  | cons char front ih =>
      simp only [List.mem_cons, not_or] at absent
      have begins : ¬ comment.isPrefixOf (char :: (front ++ rest)) = true := by
        rw [comment_eq, List.isPrefixOf_iff_prefix, List.cons_prefix_cons]
        exact fun same => absent.1 same.1
      rw [List.cons_append, upTo, if_neg begins, ih absent.2, List.cons_append]

theorem upTo_comment_of_prefix (begins : comment <+: text) : upTo comment text = [] := by
  obtain ⟨remark, rfl⟩ := begins
  rfl

/-- `Decorates line shown`: a line of a source text shows a line, with blank space at its ends and a
comment behind it, each of which may be missing. -/
def Decorates (line shown : Text) : Prop :=
  ∃ before after remark : Text, shown = before ++ line ++ after ++ remark ∧
    before.all isBlank = true ∧ after.all isBlank = true ∧ (remark = [] ∨ comment <+: remark)

theorem not_mem_of_blank (blank : text.all isBlank = true) : ';' ∉ text := by
  intro occurs
  exact absurd (List.all_eq_true.mp blank _ occurs) (by decide)

theorem Decorates.content_eq (decorates : Decorates line shown) (absent : ';' ∉ line) :
    content shown = line.trim := by
  obtain ⟨before, after, remark, rfl, beforeBlank, afterBlank, remarked⟩ := decorates
  have outside : ';' ∉ before ++ line ++ after := by
    simp [absent, not_mem_of_blank beforeBlank, not_mem_of_blank afterBlank]
  have none : upTo comment remark = [] := by
    rcases remarked with rfl | begins
    · rfl
    · exact upTo_comment_of_prefix begins
  rw [content, upTo_comment_append outside, none, List.append_nil, trim_append_blank afterBlank,
    trim_blank_append beforeBlank]

theorem isOpen_eq (expression : Text) : isOpen expression = decide (0 < opened expression) := by
  rw [isOpen, opened]
  congr 1
  rw [eq_iff_iff]
  omega

theorem takeLine_blank (blank : content shown = []) (number : Int) (entries : List Entry) :
    takeLine shown number false entries = .ok ([], entries) := by
  simp only [takeLine, blank]

theorem takeLine_start (solid : content shown ≠ []) (number : Int) (entries : List Entry) :
    takeLine shown number false entries =
      .ok (content shown, entries ++ [⟨content shown, number⟩]) := by
  cases shows : content shown with
  | nil => contradiction
  | cons char others => simp only [takeLine, shows]

theorem takeLine_wait (blank : content shown = []) (number : Int) (entries : List Entry)
    (last : Entry) :
    takeLine shown number true (entries ++ [last]) = .ok (last.text, entries ++ [last]) := by
  simp only [takeLine, blank, List.getLast?_concat]

theorem takeLine_extend (solid : content shown ≠ []) (number : Int) (entries : List Entry)
    (last : Entry) :
    takeLine shown number true (entries ++ [last]) =
      .ok (last.text ++ ' ' :: content shown,
        entries ++ [⟨last.text ++ ' ' :: content shown, last.line⟩]) := by
  cases shows : content shown with
  | nil => contradiction
  | cons char others =>
      simp only [takeLine, shows, List.getLast?_concat, List.dropLast_concat]

theorem add_length_cons (number : Int) (line : Text) (rest : List Text) :
    number + ((line :: rest).length : Int) = number + 1 + rest.length := by
  rw [List.length_cons]
  omega

/-! ## The lines of one expression -/

/-- `Spread lines shown`: the lines of an expression as they are shown in a source text, one after
the other, with lines between and behind them that show nothing. -/
inductive Spread : List Text → List Text → Prop
  | done : Spread [] []
  | line {line shown : Text} {others rest : List Text} (decorates : Decorates line shown)
      (below : Spread others rest) : Spread (line :: others) (shown :: rest)
  | filler {shown : Text} {lines rest : List Text} (decorates : Decorates [] shown)
      (below : Spread lines rest) : Spread lines (shown :: rest)

/-- The further lines of an expression are joined to what has been read of it, which is open up to
the last of them. -/
theorem Spread.takeLines_eq {shown : List Text} (spread : Spread others shown)
    (absent : ∀ line ∈ others, ';' ∉ line) (inside : others ≠ [] → 0 < opened sofar)
    (holds : HoldsOpen (opened sofar) others) :
    takeLines number (shown ++ rest) ⟨entries ++ [⟨sofar, start⟩], isOpen sofar⟩ =
      takeLines (number + shown.length) rest
        ⟨entries ++ [⟨joined [' '] (sofar :: solidLines others), start⟩], false⟩ := by
  induction spread generalizing number sofar with
  | done =>
      have closed : isOpen sofar = false := by
        rw [isOpen_eq, show opened sofar = 0 from holds]
        rfl
      simp [closed, solidLines, joined]
  | @line line shown others later decorates spread ih =>
      have waits : isOpen sofar = true := by
        rw [isOpen_eq, decide_eq_true_eq]
        exact inside (List.cons_ne_nil _ _)
      have content_eq := decorates.content_eq (absent line List.mem_cons_self)
      have absent' : ∀ line ∈ others, ';' ∉ line :=
        fun other isOther => absent other (List.mem_cons_of_mem _ isOther)
      rw [List.cons_append, takeLines, waits, add_length_cons]
      -- a line of blank space is waited through, and any other one is joined
      by_cases blank : line.trim = []
      · have none : opened line = 0 := by rw [← opened_trim, blank]; rfl
        simp only [takeLine_wait (content_eq.trans blank)]
        obtain ⟨inside', holds'⟩ := holds
        rw [none, Int.add_zero] at inside' holds'
        rw [ih absent' inside' holds', solidLines_cons_blank blank]
      · simp only [takeLine_extend (content_eq.symm ▸ blank), content_eq]
        have deeper : opened (sofar ++ ' ' :: line.trim) = opened sofar + opened line := by
          have space : opened [' '] = 0 := rfl
          rw [opened_append, opened_cons, opened_trim, space, Int.zero_add]
        obtain ⟨inside', holds'⟩ := holds
        rw [← deeper] at inside' holds'
        rw [ih absent' inside' holds', solidLines_cons blank, joined_cons]
        have same : sofar ++ ' ' :: line.trim = sofar ++ [' '] ++ line.trim := by simp
        rw [same, joined_append_cons]
  | @filler shown others later decorates spread ih =>
      have blank : content shown = [] := decorates.content_eq List.not_mem_nil
      -- whether the expression goes on is found out once more, from the same text
      rw [List.cons_append, takeLines, add_length_cons]
      cases waits : isOpen sofar with
      | true =>
          simp only [takeLine_wait blank]
          rw [ih absent inside holds]
      | false =>
          simp only [takeLine_blank blank]
          have same : isOpen [] = isOpen sofar := waits.symm
          rw [same, ih absent inside holds]

/-! ## The lines of a source text -/

/-- `Laid number texts lines starts`: the lines of a source text from a number on show expressions,
each of which starts on a new line, and nothing else.  The numbers of the lines on which they start
are listed. -/
inductive Laid : Int → List Text → List Text → List Int → Prop
  | done {number : Int} : Laid number [] [] []
  | filler {number : Int} {shown : Text} {texts rest : List Text} {starts : List Int}
      (decorates : Decorates [] shown) (below : Laid (number + 1) texts rest starts) :
      Laid number texts (shown :: rest) starts
  | text {number : Int} {text first shown : Text} {others spread texts rest : List Text}
      {starts : List Int} (cut : text.lines = first :: others) (decorates : Decorates first shown)
      (isSpread : Spread others spread)
      (below : Laid (number + 1 + spread.length) texts rest starts) :
      Laid number (text :: texts) (shown :: (spread ++ rest)) (number :: starts)

theorem Laid.le_start (laid : Laid number texts lines starts) : ∀ start ∈ starts, number ≤ start := by
  induction laid with
  | done => simp
  | filler decorates below ih =>
      intro start isStart
      have := ih start isStart
      omega
  | text cut decorates isSpread below ih =>
      intro start isStart
      rcases List.mem_cons.mp isStart with rfl | later
      · exact Int.le_refl _
      · have := ih start later
        omega

theorem Laid.pairwise (laid : Laid number texts lines starts) : starts.Pairwise (· < ·) := by
  induction laid with
  | done => exact .nil
  | filler decorates below ih => exact ih
  | text cut decorates isSpread below ih =>
      refine List.pairwise_cons.mpr ⟨fun start later => ?_, ih⟩
      have := below.le_start start later
      omega

theorem not_mem_of_spelling {term : Term} (spelled : Term.Spelling term text) : ';' ∉ text := by
  intro occurs
  rcases spelled.classify occurs with allowed | spacing | isMark
  · exact absurd allowed (by decide)
  · exact absurd spacing (by decide)
  · exact absurd isMark (by decide)

/-- What is read of a laid out source text: one entry for each expression, with its lines joined and
the number of the line on which it starts. -/
theorem Laid.exists_entries (laid : Laid number texts lines starts)
    (spelled : ∀ text ∈ texts, ∃ term, Term.Spelling term text) (entries : List Entry) :
    ∃ more, takeLines number lines ⟨entries, false⟩ = .ok ⟨entries ++ more, false⟩ ∧
      more.map Entry.line = starts ∧ more.map Entry.text = texts.map unbroken := by
  induction laid generalizing entries with
  | done => exact ⟨[], by simp [takeLines], rfl, rfl⟩
  | @filler number shown texts rest starts decorates below ih =>
      have blank : content shown = [] := decorates.content_eq List.not_mem_nil
      obtain ⟨more, taken, same⟩ := ih spelled entries
      refine ⟨more, ?_, same⟩
      rw [takeLines]
      simp only [takeLine_blank blank]
      exact taken
  | @text number text first shown others spread texts rest starts cut decorates isSpread below ih =>
      obtain ⟨term, spelling⟩ := spelled text List.mem_cons_self
      have absent : ∀ line ∈ first :: others, ';' ∉ line := by
        intro line isLine occurs
        exact not_mem_of_spelling spelling (mem_of_mem_lines (cut ▸ isLine) occurs)
      have solid := spelling.trim_first_ne_nil cut
      have content_eq := decorates.content_eq (absent first List.mem_cons_self)
      have holds := spelling.holdsOpen
      rw [cut, HoldsOpen, Int.zero_add, ← opened_trim] at holds
      have unbroken_eq : unbroken text = joined [' '] (first.trim :: solidLines others) := by
        rw [unbroken, cut, solidLines_cons solid]
      obtain ⟨more, taken, sameLines, sameTexts⟩ :=
        ih (fun other isOther => spelled other (List.mem_cons_of_mem _ isOther))
          (entries ++ [⟨unbroken text, number⟩])
      refine ⟨⟨unbroken text, number⟩ :: more, ?_, by simp [sameLines], by simp [sameTexts]⟩
      rw [takeLines]
      simp only [takeLine_start (content_eq.symm ▸ solid), content_eq]
      rw [isSpread.takeLines_eq (fun line isLine => absent line (List.mem_cons_of_mem _ isLine))
        holds.1 holds.2, ← unbroken_eq, taken, List.append_assoc]
      rfl

end BetaNormal.Source
