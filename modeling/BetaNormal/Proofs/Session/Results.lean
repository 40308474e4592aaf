import BetaNormal.Proofs.Reduction.Setting
import BetaNormal.Session

/-!
# Where results come from

A session adds expressions and reduces what is waiting, again and again.  Every reduction that it has
kept belongs to an expression that it has read, and it was made with some state of its supply.
-/

namespace BetaNormal

theorem Task.mem_enqueue {task other : Task} {queue : List Task}
    (isQueued : other ∈ task.enqueue queue) : other = task ∨ other ∈ queue := by
  induction queue with
  | nil => exact .inl (List.mem_singleton.mp isQueued)
  | cons first others ih =>
      rw [enqueue] at isQueued
      split at isQueued
      · exact (List.mem_cons.mp isQueued).imp_right (List.mem_cons_of_mem _)
      · rcases List.mem_cons.mp isQueued with rfl | later
        · exact .inr List.mem_cons_self
        · exact (ih later).imp_right (List.mem_cons_of_mem _)

namespace Session

variable {start session : Session} {task : Task} {tasks : List Task}

/-- The sessions that a session can become.  What a shell does in between is to change the console
and the choice whether contractions are printed. -/
inductive Reachable (start : Session) : Session → Prop
  | refl : Reachable start start
  | add {session : Session} (expression : Text) (line : Int) (earlier : Reachable start session) :
      Reachable start (session.add expression line).2
  | run {session : Session} (earlier : Reachable start session) : Reachable start session.run.2.1
  | adjust {session : Session} (console : Console) (quiet : Bool)
      (earlier : Reachable start session) :
      Reachable start { session with console, options := { session.options with quiet } }

theorem Reachable.addAll (entries : List Source.Entry) (earlier : Reachable start session) :
    Reachable start (session.addAll entries).2 := by
  induction entries generalizing session with
  | nil => exact earlier
  | cons entry entries ih =>
      have next := earlier.add entry.text entry.line
      rw [Session.addAll]
      split
      case h_1 added =>
        rw [added] at next
        exact ih next
      case h_2 added =>
        rw [added] at next
        exact next

theorem Reachable.load (commandLine : Bool) (files : Files) (earlier : Reachable start session) :
    Reachable start (session.load commandLine files).2 := by
  rw [Session.load]
  split
  · split <;> exact earlier
  · split
    case h_1 => exact earlier
    case h_2 entries _ =>
      have next := earlier.addAll entries
      split
      case h_1 added => rwa [added] at next
      case h_2 added => rwa [added] at next

theorem exists_perform_eq {reduction : Reduction} {supply : Supply} (session : Session) (task : Task)
    (normalized : task.term.normalizeUnder session.capacity session.options.settings session.supply =
      (.ok reduction, supply)) :
    ∃ console, session.perform task =
      (reduction.display session.options,
        { session with console, supply, results := session.results ++ [reduction] }, none) := by
  rw [Session.perform]
  simp only [normalized]
  exact ⟨_, rfl⟩

/-! ## What stays true of a session -/

/-- Whether an expression is read as a term, with abbreviations written out as a session has it. -/
def Accepts (start : Session) (expression : Text) (term : Term) : Prop :=
  readExpression start.options.abbreviations expression = .ok term

/-- `Reduced start reduction`: a reduction of some expression that a session has accepted. -/
def Reduced (start : Session) (reduction : Reduction) : Prop :=
  ∃ expression term supply, start.Accepts expression term ∧ supply.stem = start.supply.stem ∧
    (term.normalizeUnder start.capacity start.options.settings supply).1 = .ok reduction

structure Keeps (start session : Session) : Prop where
  abbreviations : session.options.abbreviations = start.options.abbreviations
  settings : session.options.settings = start.options.settings
  capacity : session.capacity = start.capacity
  stem : session.supply.stem = start.supply.stem
  queue : ∀ task ∈ session.queue, start.Accepts task.source task.term
  results : ∀ reduction ∈ session.results, start.Reduced reduction

theorem Keeps.add (keeps : Keeps start session) (expression : Text) (line : Int) :
    Keeps start (session.add expression line).2 := by
  rw [Session.add]
  split
  case h_1 => exact { keeps with }
  case h_2 term read =>
    rw [keeps.abbreviations] at read
    refine { keeps with queue := fun task isQueued => ?_ }
    rcases Task.mem_enqueue isQueued with rfl | earlier
    · exact read
    · exact keeps.queue task earlier

theorem Keeps.perform (keeps : Keeps start session)
    (accepted : start.Accepts task.source task.term) :
    Keeps start (session.perform task).2.1 := by
  have stem := Term.stem_normalizeUnder session.capacity session.options.settings task.term
    session.supply
  rw [Session.perform]
  split
  case h_1 reduction supply normalized =>
    rw [normalized] at stem
    refine { keeps with stem := stem.trans keeps.stem, results := fun other isResult => ?_ }
    rcases List.mem_append.mp isResult with earlier | isLast
    · exact keeps.results other earlier
    · obtain rfl := List.mem_singleton.mp isLast
      rw [keeps.capacity, keeps.settings] at normalized
      exact ⟨task.source, task.term, session.supply, accepted, keeps.stem, by rw [normalized]⟩
  case h_2 interruption supply normalized =>
    rw [normalized] at stem
    exact { keeps with stem := stem.trans keeps.stem }
  case h_3 sign kind supply normalized =>
    rw [normalized] at stem
    exact { keeps with stem := stem.trans keeps.stem }

theorem Keeps.performAll (keeps : Keeps start session)
    (accepted : ∀ task ∈ tasks, start.Accepts task.source task.term) :
    Keeps start (session.performAll tasks).2.1 := by
  induction tasks generalizing session with
  | nil => exact { keeps with queue := fun _ isQueued => by cases isQueued }
  | cons task rest ih =>
      have acceptedRest : ∀ task ∈ rest, start.Accepts task.source task.term :=
        fun other isOther => accepted other (List.mem_cons_of_mem _ isOther)
      have next := keeps.perform (accepted task List.mem_cons_self)
      rw [Session.performAll]
      split
      case h_1 out session failure performed =>
        rw [performed] at next
        exact { next with queue := acceptedRest }
      case h_2 out session performed =>
        rw [performed] at next
        exact ih next acceptedRest

/-- A session goes on as it has begun. -/
theorem Reachable.keeps (reachable : Reachable start session) (idle : start.queue = [])
    (new : start.results = []) : Keeps start session := by
  induction reachable with
  | refl => exact ⟨rfl, rfl, rfl, rfl, by simp [idle], by simp [new]⟩
  | add expression line _ ih => exact ih.add expression line
  | run _ ih => exact ih.performAll ih.queue
  | adjust console quiet _ ih => exact { ih with }

end Session

end BetaNormal
