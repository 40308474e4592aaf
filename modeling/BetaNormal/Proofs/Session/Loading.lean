import BetaNormal.Proofs.Console
import BetaNormal.Proofs.Source
import BetaNormal.Session
import Mathlib.Data.List.Forall2
import Mathlib.Data.List.Nodup

/-!
# Loading a source

A session queues the expressions of its source in order, under the numbers of the lines on which
they start.  How they are laid out makes no difference.
-/

namespace BetaNormal

theorem Task.enqueue_eq {task : Task} {queue : List Task} (new : task.line ∉ queue.map Task.line) :
    task.enqueue queue = queue ++ [task] := by
  induction queue with
  | nil => rfl
  | cons first others ih =>
      simp only [List.map_cons, List.mem_cons, not_or] at new
      rw [enqueue, if_neg (Ne.symm new.1), ih new.2, List.cons_append]

namespace Session

variable {expression path text : Text} {line : Int} {session loaded : Session} {term : Term}
variable {entries : List Source.Entry} {tasks : List Task} {terms : List Term} {files : Files}

theorem readExpression_eq_ok_iff {abbreviations : Bool} :
    readExpression abbreviations expression = .ok term ↔
      Term.parse (if abbreviations then expand Abbreviation.standard expression else expression) =
        .ok term := by
  rw [readExpression]
  cases Term.parse (if abbreviations then expand Abbreviation.standard expression else expression) <;>
    simp [Except.mapError]

theorem add_eq (reads : readExpression session.options.abbreviations expression = .ok term)
    (new : line ∉ session.queue.map Task.line) :
    session.add expression line =
      (.ok (),
        { session with
          console := session.console.leaveLine session.path
          queue := session.queue ++ [⟨line, expression, term⟩] }) := by
  rw [add, reads]
  simp only [Console.leaveLine_enterLine]
  rw [Task.enqueue_eq new]

/-- Whether a task is what an entry of a source is read as. -/
structure Queues (abbreviations : Bool) (entry : Source.Entry) (task : Task) : Prop where
  line : task.line = entry.line
  source : task.source = entry.text
  reads : readExpression abbreviations entry.text = .ok task.term

/-- Entries on lines of their own that can all be read are queued one after the other. -/
theorem exists_addAll_tasks (session : Session)
    (queues : List.Forall₂ (Queues session.options.abbreviations) entries tasks)
    (apart : (session.queue.map Task.line ++ entries.map Source.Entry.line).Nodup) :
    ∃ console, (console = session.console ∨ console = session.console.leaveLine session.path) ∧
      session.addAll entries =
        (.ok (), { session with console, queue := session.queue ++ tasks }) := by
  induction entries generalizing session tasks with
  | nil =>
      cases queues
      exact ⟨session.console, .inl rfl, by simp [addAll]⟩
  | cons entry entries ih =>
      cases queues with
      | @cons _ task _ tasks here queues =>
          have new : entry.line ∉ session.queue.map Task.line := by
            intro old
            have shared := List.nodup_append.mp apart
            exact shared.2.2 entry.line old entry.line (by simp) rfl
          have same : (⟨entry.line, entry.text, task.term⟩ : Task) = task := by
            rw [← here.line, ← here.source]
          have added := add_eq here.reads new
          rw [same] at added
          obtain ⟨console, left, addedAll⟩ :=
            ih { session with
                console := session.console.leaveLine session.path
                queue := session.queue ++ [task] }
              queues (by simpa [here.line] using apart)
          refine ⟨console, .inr ?_, ?_⟩
          · rcases left with once | twice
            · exact once
            · exact twice.trans (Console.leaveLine_leaveLine _ _)
          · rw [addAll, added]
            simpa using addedAll

theorem exists_queues {abbreviations : Bool} (read : List.Forall₂ (fun entry term =>
      readExpression abbreviations entry.text = .ok term) entries terms) :
    ∃ tasks, List.Forall₂ (Queues abbreviations) entries tasks ∧
      tasks.map Task.line = entries.map Source.Entry.line ∧ tasks.map Task.term = terms := by
  induction read with
  | nil => exact ⟨[], .nil, rfl, rfl⟩
  | @cons entry term _ _ here _ ih =>
      obtain ⟨tasks, queues, lines, same⟩ := ih
      exact ⟨⟨entry.line, entry.text, term⟩ :: tasks, .cons ⟨rfl, rfl, here⟩ queues,
        congrArg (_ :: ·) lines, congrArg (_ :: ·) same⟩

theorem exists_addAll_eq (session : Session)
    (read : List.Forall₂ (fun entry term =>
      readExpression session.options.abbreviations entry.text = .ok term) entries terms)
    (apart : (session.queue.map Task.line ++ entries.map Source.Entry.line).Nodup) :
    ∃ loaded, session.addAll entries = (.ok (), loaded) ∧
      loaded.queue.map Task.line =
        session.queue.map Task.line ++ entries.map Source.Entry.line ∧
      loaded.queue.map Task.term = session.queue.map Task.term ++ terms := by
  obtain ⟨tasks, queues, lines, same⟩ := exists_queues read
  obtain ⟨console, -, added⟩ := exists_addAll_tasks session queues apart
  exact ⟨_, added, by rw [List.map_append, lines], by rw [List.map_append, same]⟩

def Holds (files : Files) (path text : Text) : Prop :=
  ∃ bytes, files path = some bytes ∧ Text.decode bytes = .ok text

/-- `Lists files path listing`: a path stands for a file, and this is the listing of its text. -/
structure Lists (files : Files) (path : Text) (listing : Source.Listing) : Prop where
  isFile : path ≠ commandLinePath
  noNul : path.contains '\x00' = false
  reads : ∃ text, Holds files path text ∧ Source.read text = .ok listing

theorem Lists.entriesAt_eq {listing : Source.Listing} (lists : Lists files path listing) :
    entriesAt files path = match listing.extending, listing.entries.getLast? with
      | true, some last => .error (.unclosed last.text)
      | _, _ => .ok listing.entries := by
  obtain ⟨-, noNul, text, ⟨bytes, found, decoded⟩, read⟩ := lists
  simp only [entriesAt, noNul, found, decoded, read, Except.mapError, bind, Except.bind, pure,
    Except.pure]
  rfl

theorem load_eq (commandLine : Bool) (isFile : session.path ≠ commandLinePath)
    (noNul : session.path.contains '\x00' = false) (holds : Holds files session.path text)
    (read : Source.read text = .ok ⟨entries, false⟩)
    (added : session.addAll entries = (.ok (), loaded)) :
    session.load commandLine files = (.ok (), loaded) := by
  have lists : Lists files session.path ⟨entries, false⟩ := ⟨isFile, noNul, text, holds, read⟩
  rw [load, if_neg isFile, lists.entriesAt_eq]
  simp only [added]

theorem readExpression_unbroken (parsed : Term.parse text = .ok term) :
    readExpression false text.unbroken = .ok term := by
  obtain ⟨spelled, room⟩ := Term.parse_eq_ok_iff.mp parsed
  exact readExpression_eq_ok_iff.mpr (Term.parse_eq_ok_iff.mpr ⟨spelled.unbroken, room⟩)

/-- Texts of terms that are laid out in a file in any way are loaded as these terms, in order, each
under the number of the line on which its text starts. -/
theorem load_laid_out {console : Console} {commandLine : Bool} {options : Options}
    {capacity : Capacity} {supply : Supply} {texts : List Text} {starts : List Int}
    (written : options.abbreviations = false) (isFile : path ≠ commandLinePath)
    (noNul : path.contains '\x00' = false) (holds : Holds files path text)
    (laid : Source.Laid 1 texts text.lines starts)
    (parsed : List.Forall₂ (fun text term => Term.parse text = .ok term) texts terms) :
    ∃ loaded, (create console path commandLine options capacity supply).load commandLine files =
        (.ok (), loaded) ∧
      loaded.queue.map Task.line = starts ∧ loaded.queue.map Task.term = terms := by
  have spelled : ∀ text ∈ texts, ∃ term, Term.Spelling term text := by
    have both := parsed.imp fun text term read =>
      show (∃ term, Term.Spelling term text) ∧ True from
        ⟨⟨term, (Term.parse_eq_ok_iff.mp read).1⟩, trivial⟩
    exact ((List.forall₂_and_left _ _).mp both).1
  obtain ⟨entries, taken, lines, sameTexts⟩ := laid.exists_entries spelled []
  have read : List.Forall₂ (fun entry term =>
      readExpression options.abbreviations entry.text = .ok term) entries terms := by
    have readTexts : List.Forall₂ (fun text term => readExpression false text = .ok term)
        (texts.map Text.unbroken) terms :=
      List.forall₂_map_left_iff.mpr (parsed.imp fun _ _ => readExpression_unbroken)
    rw [← sameTexts, List.forall₂_map_left_iff] at readTexts
    rwa [written]
  have apart : (entries.map Source.Entry.line).Nodup := by
    rw [lines]
    exact laid.pairwise.imp fun less => Int.ne_of_lt less
  obtain ⟨loaded, added, queuedLines, queuedTerms⟩ :=
    exists_addAll_eq (create console path commandLine options capacity supply) read apart
  exact ⟨loaded, load_eq commandLine isFile noNul holds taken added, queuedLines.trans lines,
    queuedTerms⟩

/-- A comment, the application of `x` to `y` on two lines with a blank one between them, and `z`. -/
def spacedFile : Text := ";;(\n(x ;; y)\n\n y)\t\nz"

def spacedFiles : Files := fun path =>
  if path = ['f'] then some (spacedFile.map fun char => UInt8.ofNat char.toNat) else none

theorem load_laid_out_spaced :
    ∃ loaded,
      (create (.ofFatal true) ['f'] false ⟨false, false, false, .standard⟩ .standard
        .standard).load false spacedFiles = (.ok (), loaded) ∧
      loaded.queue.map Task.line = [2, 5] ∧
      loaded.queue.map Task.term = [.app (.var .x) (.var .y), .var .z] := by
  have shown : Text.lines spacedFile =
      [[';', ';', '('], ['(', 'x', ' ', ';', ';', ' ', 'y', ')'], [], [' ', 'y', ')', '\t'],
        ['z']] := by decide
  have cut : Text.lines ['(', 'x', '\n', ' ', 'y', ')'] = [['(', 'x'], [' ', 'y', ')']] := by
    decide
  have comment : Source.Decorates [] [';', ';', '('] :=
    ⟨[], [], [';', ';', '('], rfl, rfl, rfl, .inr ⟨['('], rfl⟩⟩
  have first : Source.Decorates ['(', 'x'] ['(', 'x', ' ', ';', ';', ' ', 'y', ')'] :=
    ⟨[], [' '], [';', ';', ' ', 'y', ')'], rfl, rfl, rfl, .inr ⟨[' ', 'y', ')'], rfl⟩⟩
  have spread : Source.Spread [[' ', 'y', ')']] [[], [' ', 'y', ')', '\t']] :=
    .filler ⟨[], [], [], rfl, rfl, rfl, .inl rfl⟩
      (.line ⟨[], ['\t'], [], rfl, rfl, by decide, .inl rfl⟩ .done)
  have last : Source.Laid 5 [['z']] [['z']] [5] :=
    .text (Text.lines_of_isOneLine (List.cons_ne_nil _ _) rfl)
      ⟨[], [], [], rfl, rfl, rfl, .inl rfl⟩ .done .done
  have laid : Source.Laid 1 [['(', 'x', '\n', ' ', 'y', ')'], ['z']] (Text.lines spacedFile)
      [2, 5] := by
    rw [shown]
    exact .filler comment (.text cut first spread last)
  have holds : Holds spacedFiles ['f'] spacedFile := ⟨_, rfl, by decide⟩
  refine load_laid_out rfl (by decide) (by decide) holds laid ?_
  exact .cons (by decide +kernel) (.cons (by decide +kernel) .nil)

end Session

end BetaNormal
