import BetaNormal.Proofs.Substitution

/-!
# Two substitutions in a row

Two substitutions for different names may change places, if the value that is put in first takes the
second substitution with it and the other value does not mention the name that is replaced first.
Each of them renames binders of its own accord, so the two sides have the same names nowhere but at
free variables.  In an environment none of this shows: there both sides change what the two names
stand for, one name after the other.
-/

namespace BetaNormal.Term

open Nameless

variable {name other : Name} {value otherValue : Term}

theorem namelessIn_update_of_not_free {term : Term} (absent : ¬ term.occursFree name = true)
    (environment : Name → Nameless) (meaning : Nameless) :
    term.namelessIn (Function.update environment name meaning) =
      term.namelessIn environment := by
  apply namelessIn_congr
  intro free occurs
  have different : free ≠ name := fun same => absent (same ▸ occurs)
  exact Function.update_of_ne different meaning environment

/-- Two substitutions may change places, whatever names the binders get on either side. -/
theorem substitute_substitute (different : name ≠ other)
    (absent : ¬ otherValue.occursFree name = true) (term : Term)
    (avoid₁ avoid₂ avoid₃ avoid₄ avoid₅ : List Name)
    (supply₁ supply₂ supply₃ supply₄ supply₅ : Supply) :
    (substitute other otherValue avoid₂
        (substitute name value avoid₁ term supply₁).1 supply₂).1.alphaEquals
      (substitute name (substitute other otherValue avoid₃ value supply₃).1 avoid₅
        (substitute other otherValue avoid₄ term supply₄).1 supply₅).1 = true := by
  have kept : ∀ meaning, otherValue.namelessIn (Function.update free name meaning) =
      otherValue.namelessIn free := namelessIn_update_of_not_free absent free
  rw [alphaEquals_iff_nameless, nameless_eq, nameless_eq]
  simp only [namelessIn_substitute, kept]
  rw [Function.update_comm different]

/-- `λk.((x y) k)` -/
def openedTwice : Term := abs .k (app (app (var .x) (var .y)) (var .k))

/-- With `(y k)` for `x` and `k` for `y` the binder has to be renamed, by the first substitution on
the one side and by the other on the other side. -/
theorem substitute_substitute_renamed :
    Name.x ≠ .y ∧ (var .k).occursFree .x = false ∧
    (substitute .y (var .k) []
        (substitute .x (app (var .y) (var .k)) [] openedTwice .standard).1
          ⟨['b'], 7, rfl⟩).1.alphaEquals
      (substitute .x (substitute .y (var .k) [] (app (var .y) (var .k)) .standard).1 []
        (substitute .y (var .k) [] openedTwice ⟨['b'], 7, rfl⟩).1 .standard).1 = true := by
  have different : Name.x ≠ .y := by decide
  have absent : ¬ (var .k).occursFree .x = true := by decide
  exact ⟨different, by decide,
    substitute_substitute different absent openedTwice _ _ _ _ _ _ _ _ _ _⟩

end BetaNormal.Term
