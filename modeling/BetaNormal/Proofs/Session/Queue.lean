import BetaNormal.Proofs.Session.Results
import BetaNormal.Proofs.Session.Run
import Mathlib.Data.List.DropRight

/-!
# What waits in a session

Between two runs a session collects the expressions that it can read.  Its queue has one place for
each line: the first expression on a line takes the place, and later ones take it over.  A run
empties the queue and accounts for every task in it.
-/

namespace BetaNormal

namespace Task

variable {task other : Task} {tasks queue : List Task}

theorem map_line_enqueue (task : Task) (queue : List Task) :
    (task.enqueue queue).map line =
      if task.line ∈ queue.map line then queue.map line else queue.map line ++ [task.line] := by
  induction queue with
  | nil => rfl
  | cons first others ih =>
      rw [enqueue]
      by_cases same : first.line = task.line
      · simp [same]
      · have different : task.line ≠ first.line := Ne.symm same
        rw [if_neg same, List.map_cons, ih]
        split <;> simp_all

theorem mem_enqueue_of_nodup (apart : (queue.map line).Nodup)
    (isQueued : other ∈ task.enqueue queue) :
    other = task ∨ (other ∈ queue ∧ other.line ≠ task.line) := by
  induction queue with
  | nil => exact .inl (List.mem_singleton.mp isQueued)
  | cons first others ih =>
      obtain ⟨new, apart⟩ := List.nodup_cons.mp apart
      rw [enqueue] at isQueued
      split at isQueued
      case isTrue same =>
        rcases List.mem_cons.mp isQueued with rfl | later
        · exact .inl rfl
        · refine .inr ⟨List.mem_cons_of_mem _ later, fun sameLine => new ?_⟩
          exact List.mem_map.mpr ⟨other, later, sameLine.trans same.symm⟩
      case isFalse different =>
        rcases List.mem_cons.mp isQueued with rfl | later
        · exact .inr ⟨List.mem_cons_self, different⟩
        · exact (ih apart later).imp_right (And.imp_left (List.mem_cons_of_mem _))

/-- `Standing tasks queue`: what stands of some tasks if each takes the place of an earlier one for
the same line.  The places are in the order in which the lines first turned up, and each of them
holds the last task for its line. -/
structure Standing (tasks queue : List Task) : Prop where
  lines : queue.map line = (tasks.map line).eraseDups
  last : ∀ task ∈ queue, tasks.reverse.find? (fun other => other.line = task.line) = some task

theorem eraseDups_concat (lines : List Int) (line : Int) :
    (lines ++ [line]).eraseDups =
      if line ∈ lines then lines.eraseDups else lines.eraseDups ++ [line] := by
  rw [List.eraseDups_append]
  split <;> simp_all [List.removeAll, List.eraseDups_cons]

theorem nodup_eraseDups (lines : List Int) : lines.eraseDups.Nodup := by
  induction lines using List.reverseRecOn with
  | nil => exact .nil
  | append_singleton lines line ih =>
      rw [eraseDups_concat]
      split
      case isTrue => exact ih
      case isFalse new =>
        refine List.nodup_append.mpr ⟨ih, List.nodup_singleton line, ?_⟩
        intro other isOther _ isLine same
        rw [List.mem_singleton.mp isLine] at same
        exact new (same ▸ List.mem_eraseDups.mp isOther)

theorem Standing.enqueue (standing : Standing tasks queue) (task : Task) :
    Standing (tasks ++ [task]) (task.enqueue queue) where
  lines := by
    have known : task.line ∈ queue.map line ↔ task.line ∈ tasks.map line := by
      rw [standing.lines, List.mem_eraseDups]
    rw [map_line_enqueue, List.map_append, List.map_singleton, eraseDups_concat, ← standing.lines]
    simp only [known]
  last := by
    intro other isQueued
    have apart : (queue.map line).Nodup := standing.lines ▸ nodup_eraseDups _
    rw [List.reverse_append, List.reverse_singleton, List.singleton_append]
    rcases mem_enqueue_of_nodup apart isQueued with rfl | ⟨earlier, differs⟩
    · simp
    · rw [List.find?_cons_of_neg (by simpa using Ne.symm differs)]
      exact standing.last other earlier

end Task

namespace Session

variable {start session loaded : Session} {limits : Limits}

/-! ## Calls -/

/-- What can be asked of a session.  A caller may also change the console in between, as it does
when it reports a failure of a call, and the choice whether contractions are printed. -/
inductive Call where
  | add (expression : Text) (line : Int)
  | run
  | adjust (console : Console) (quiet : Bool)

namespace Call

/-- What a session is after a call, whether or not the call has failed. -/
def apply (session : Session) : Call → Session
  | add expression line => (session.add expression line).2
  | run => session.run.2.1
  | adjust console quiet => { session with console, options := { session.options with quiet } }

end Call

def after (session : Session) (calls : List Call) : Session := calls.foldl Call.apply session

end Session

end BetaNormal
