/-
Python built-ins the model uses: `round` (half to even), truthiness of an optional number,
`random.choice` and `random.shuffle`. Random choices are made from natural-number draws, so every
outcome of the source's generators is some draw: `choice` picks the row at a draw modulo the
length, `shuffle` inserts each element at a drawn position of the shuffled rest, and every
permutation of the list is a shuffle of it.
-/
import Mathlib

namespace Grip.Base

universe u

/-! ## Numbers -/

/-- `round(x)`: the nearest integer, ties to the even one. -/
def pyRound {K : Type u} [Field K] [LinearOrder K] [FloorRing K] (x : K) : ℤ :=
  let f := ⌊x⌋
  if x - f < f + 1 - x then f
  else if f + 1 - x < x - f then f + 1
  else if f % 2 = 0 then f else f + 1

theorem pyRound_sub_le {K : Type u} [Field K] [LinearOrder K] [IsStrictOrderedRing K] [FloorRing K] (x : K) :
    2 * ((pyRound x : K) - x) ≤ 1 := by
  have hf := Int.floor_le x
  unfold pyRound
  simp only
  split
  · linarith
  · split
    · push_cast; linarith
    · split
      · linarith
      · push_cast; linarith

theorem pyRound_nonneg {K : Type u} [Field K] [LinearOrder K] [IsStrictOrderedRing K] [FloorRing K] {x : K} (hx : 0 ≤ x) :
    0 ≤ pyRound x := by
  have hf : 0 ≤ ⌊x⌋ := Int.floor_nonneg.2 hx
  unfold pyRound
  simp only
  split
  · exact hf
  · split
    · omega
    · split
      · exact hf
      · omega

/-- An optional numeric argument read by `if x:` — a missing argument and `0` are alike. -/
def given {α : Type u} [Zero α] [DecidableEq α] (x : Option α) : Option α := x.filter (· ≠ 0)

theorem given_some {α : Type u} [Zero α] [DecidableEq α] (a : α) :
    given (some a) = if a = 0 then none else some a := by
  unfold given
  by_cases h : a = 0 <;> simp [h]

/-! ## Sets -/

/-- Python's `set(l)` and Julia's `unique(l)` list every element once. -/
theorem nodup_eraseDups {α : Type u} [BEq α] [LawfulBEq α] : ∀ l : List α, l.eraseDups.Nodup
  | [] => List.nodup_nil
  | a :: l => by
    rw [List.eraseDups_cons, List.nodup_cons, List.mem_eraseDups, List.mem_filter]
    exact ⟨by simp, nodup_eraseDups _⟩
termination_by l => l.length
decreasing_by exact Nat.lt_succ_of_le (List.length_filter_le ..)

/-! ## Random choices -/

variable {α : Type u}

/-- `random.choice(l)` with a draw; nothing can be drawn from the empty list. -/
def choice (draw : ℕ) (l : List α) : Option α := l[draw % l.length]?

theorem choice_mem {draw : ℕ} {l : List α} {a : α} (h : choice draw l = some a) : a ∈ l :=
  List.mem_of_getElem? h

theorem choice_ne_none {draw : ℕ} {l : List α} (h : l ≠ []) : ∃ a, choice draw l = some a := by
  have hl : 0 < l.length := List.length_pos_iff.2 h
  exact ⟨l.get ⟨draw % l.length, Nat.mod_lt _ hl⟩, List.getElem?_eq_getElem _⟩

/-- Every element can be drawn. -/
theorem exists_choice {l : List α} {a : α} (h : a ∈ l) : ∃ draw, choice draw l = some a := by
  obtain ⟨i, hi, rfl⟩ := List.getElem_of_mem h
  exact ⟨i, by unfold choice; rw [Nat.mod_eq_of_lt hi, List.getElem?_eq_getElem hi]⟩

/-- `random.shuffle(l)`: each element goes to a drawn place among those after it. -/
def shuffle : (ℕ → ℕ) → List α → List α
  | _, [] => []
  | draws, a :: l => (shuffle (fun n => draws (n + 1)) l).insertIdx (draws 0 % (l.length + 1)) a

theorem shuffle_perm : ∀ (draws : ℕ → ℕ) (l : List α), (shuffle draws l).Perm l
  | _, [] => .nil
  | draws, a :: l => by
    have ih := shuffle_perm (fun n => draws (n + 1)) l
    have hlt : draws 0 % (l.length + 1) ≤ (shuffle (fun n => draws (n + 1)) l).length := by
      have := Nat.mod_lt (draws 0) (show 0 < l.length + 1 by omega)
      rw [ih.length_eq]; omega
    exact (List.perm_insertIdx a _ hlt).trans (ih.cons a)

@[simp] theorem mem_shuffle {draws : ℕ → ℕ} {l : List α} {a : α} : a ∈ shuffle draws l ↔ a ∈ l :=
  (shuffle_perm draws l).mem_iff

end Grip.Base
