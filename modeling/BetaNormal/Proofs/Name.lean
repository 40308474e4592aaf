import BetaNormal.Name.Supply
import Mathlib.Data.List.Nodup

/-!
# Fresh names

Different numbers have different numerals, so the names of a supply never repeat.  Among more
candidates than there are names to avoid one must be left, which is why the search of a supply is
never too short.
-/

namespace BetaNormal

namespace Name

/-! ## Characters of names -/

theorem toNat_lt_of_allows {char : Char} (allowed : allows char = true) : char.toNat < 123 := by
  have place : char.toNat = char.val.toNat := rfl
  simp only [allows, Bool.or_eq_true, Bool.and_eq_true, decide_eq_true_eq, Char.le_def,
    UInt32.le_iff_toNat_le] at allowed
  rcases allowed with (⟨-, most⟩ | ⟨-, most⟩) | rfl
  · have last : 'z'.val.toNat = 122 := rfl
    omega
  · have last : '9'.val.toNat = 57 := rfl
    omega
  · decide

/-- What is to be shown of the characters of names can be tried out on them. -/
theorem of_allows {char : Char} (holds : Char → Bool)
    (every : ∀ code < 123, allows (Char.ofNat code) = true → holds (Char.ofNat code) = true)
    (allowed : allows char = true) : holds char = true := by
  have checked := every char.toNat (toNat_lt_of_allows allowed)
  rw [Char.ofNat_toNat] at checked
  exact checked allowed

/-! ## Names of one letter -/

def letter (char : Char) (allowed : Name.allows char = true) : Name :=
  ⟨[char], List.cons_ne_nil _ _, by simp [allowed]⟩

def b : Name := letter 'b' rfl

def k : Name := letter 'k' rfl

def x : Name := letter 'x' rfl

def y : Name := letter 'y' rfl

def z : Name := letter 'z' rfl

end Name

/-! ## Numerals -/

theorem Text.digit_eq_iff (left right : Nat) :
    Text.digit left = Text.digit right ↔ left % 10 = right % 10 := by
  have apart : ∀ first < 10, ∀ second < 10,
      Char.ofNat (48 + first) = Char.ofNat (48 + second) → first = second := by decide
  constructor
  · exact apart _ (Nat.mod_lt _ (by decide)) _ (Nat.mod_lt _ (by decide))
  · intro same
    rw [Text.digit, Text.digit, same]

theorem Text.exists_digit_of_mem_decimal {char : Char} {number : Nat}
    (occurs : char ∈ Text.decimal number) : ∃ digit < 10, char = Char.ofNat (48 + digit) := by
  induction number using Text.decimal.induct with
  | case1 number small =>
      rw [Text.decimal, if_pos small, List.mem_singleton] at occurs
      exact ⟨number % 10, Nat.mod_lt _ (by decide), occurs⟩
  | case2 number large ih =>
      rw [Text.decimal, if_neg large, List.mem_append, List.mem_singleton] at occurs
      rcases occurs with front | last
      · exact ih front
      · exact ⟨number % 10, Nat.mod_lt _ (by decide), last⟩

theorem Text.decimal_injective : Function.Injective Text.decimal := by
  intro left
  induction left using Text.decimal.induct with
  | case1 left leftSmall =>
      intro right same
      rw [Text.decimal, if_pos leftSmall, Text.decimal] at same
      by_cases rightSmall : right < 10
      · rw [if_pos rightSmall, List.singleton_inj, Text.digit_eq_iff] at same
        omega
      · rw [if_neg rightSmall] at same
        have short := congrArg List.length same
        simp [Supply.decimal_ne_nil] at short
  | case2 left leftLarge ih =>
      intro right same
      rw [Text.decimal, if_neg leftLarge, Text.decimal.eq_1 right] at same
      by_cases rightSmall : right < 10
      · rw [if_pos rightSmall] at same
        have short := congrArg List.length same
        simp [Supply.decimal_ne_nil] at short
      · rw [if_neg rightSmall] at same
        obtain ⟨front, last⟩ := List.append_inj' same rfl
        rw [List.singleton_inj, Text.digit_eq_iff] at last
        have fronts : left / 10 = right / 10 := ih front
        omega

namespace Supply

theorem candidate_injective (supply : Supply) : Function.Injective supply.candidate := by
  intro left right same
  have texts := congrArg Name.text same
  exact Text.decimal_injective (List.append_cancel_left texts)

theorem mem_of_lt_search (supply : Supply) (avoid : List Name) (bound number passed : Nat)
    (start : number ≤ passed) (stop : passed < supply.search avoid bound number) :
    supply.candidate passed ∈ avoid := by
  induction bound generalizing number with
  | zero =>
      rw [search] at stop
      omega
  | succ bound ih =>
      rw [search] at stop
      split at stop
      · rename_i taken
        rcases Nat.eq_or_lt_of_le start with here | later
        · exact here ▸ taken
        · exact ih (number + 1) later stop
      · omega

theorem search_eq_of_mem (supply : Supply) (avoid : List Name) (bound number : Nat)
    (taken : supply.candidate (supply.search avoid bound number) ∈ avoid) :
    supply.search avoid bound number = number + bound := by
  induction bound generalizing number with
  | zero => rfl
  | succ bound ih =>
      rw [search] at taken ⊢
      split at taken
      · rename_i here
        rw [if_pos here, ih (number + 1) taken]
        omega
      · contradiction

theorem candidate_search_not_mem (supply : Supply) (avoid : List Name) (number : Nat) :
    supply.candidate (supply.search avoid avoid.length number) ∉ avoid := by
  intro taken
  -- one candidate more than there are names to avoid, all of them different
  let tried := (List.range (avoid.length + 1)).map fun offset =>
    supply.candidate (number + offset)
  have last := search_eq_of_mem supply avoid avoid.length number taken
  have different : tried.Nodup :=
    List.nodup_range.map fun left right same => by
      simpa using candidate_injective supply same
  have avoided : tried ⊆ avoid := by
    intro name isTried
    obtain ⟨offset, inRange, rfl⟩ := List.mem_map.mp isTried
    have inside : offset < avoid.length + 1 := List.mem_range.mp inRange
    rcases Nat.lt_or_ge offset avoid.length with early | late
    · exact mem_of_lt_search supply avoid avoid.length number _ (by omega) (by omega)
    · rw [show number + offset = supply.search avoid avoid.length number by omega]
      exact taken
  have tooMany := different.length_le_of_subset avoided
  simp only [tried, List.length_map, List.length_range] at tooMany
  omega

theorem fresh_not_mem (supply : Supply) (avoid : List Name) : (supply.fresh avoid).1 ∉ avoid :=
  candidate_search_not_mem supply avoid supply.counter

end Supply

end BetaNormal
