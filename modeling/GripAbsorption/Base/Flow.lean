/-
Flows over the edges of a finite directed graph, and quantities attached to its vertices. The net
outflow of a set of vertices is the flow over the edges that cross its boundary, so it vanishes when
none of them carries flow; a quantity summed vertex by vertex over a set is the sum over the items
attached to it. Zero-one values add up to less than their number exactly when one of them is zero.
-/
import Mathlib

namespace Grip.Base

universe u v w

/-! ## Vertex sums -/

section

variable {V : Type u} {E : Type v} {K : Type w} [Fintype E] [DecidableEq V]

section

variable [AddCommMonoid K]

/-- What the items at a vertex add up to. -/
def sumAt (place : E → V) (x : E → K) (v : V) : K := ∑ e, if place e = v then x e else 0

/-- A sum over vertices collects the items placed there. -/
theorem sum_sumAt (place : E → V) (x : E → K) (S : Finset V) : ∑ v ∈ S, sumAt place x v = ∑ e with place e ∈ S, x e := by
  unfold sumAt
  rw [Finset.sum_comm, Finset.sum_filter]
  exact Finset.sum_congr rfl fun e _ => Finset.sum_ite_eq S (place e) fun _ => x e

/-- Items that are zero at a vertex add up to zero there. -/
theorem sumAt_eq_zero {place : E → V} {x : E → K} {v : V} (h : ∀ e, place e = v → x e = 0) : sumAt place x v = 0 :=
  Finset.sum_eq_zero fun e _ => by
    split
    · rename_i he; exact h e he
    · rfl

@[simp] theorem sumAt_zero (place : E → V) (v : V) : sumAt place (fun _ => (0 : K)) v = 0 := sumAt_eq_zero fun _ _ => rfl

/-- An item alone at a vertex. -/
theorem sumAt_eq_single {place : E → V} {x : E → K} {v : V} {a : E} (ha : place a = v)
    (hx : ∀ e, place e = v → e ≠ a → x e = 0) : sumAt place x v = x a := by
  unfold sumAt
  rw [Finset.sum_eq_single a, if_pos ha]
  · intro e _ hne
    split
    · rename_i he; exact hx e he hne
    · rfl
  · exact fun h => absurd (Finset.mem_univ a) h

theorem sumAt_single [DecidableEq E] (place : E → V) (a : E) (c : K) (v : V) :
    sumAt place (fun e => if e = a then c else 0) v = if place a = v then c else 0 := by
  split
  · rename_i ha
    rw [sumAt_eq_single ha fun e _ hne => if_neg hne, if_pos rfl]
  · rename_i ha
    refine sumAt_eq_zero fun e he => if_neg fun hea => ha ?_
    rw [← hea]; exact he

end

/-- Nonnegative items that add up to zero at a vertex are zero. -/
theorem eq_zero_of_sumAt [AddCommMonoid K] [PartialOrder K] [IsOrderedAddMonoid K] {place : E → V} {x : E → K} {v : V}
    (hx : ∀ e, 0 ≤ x e) (h : sumAt place x v = 0) {e : E} (he : place e = v) : x e = 0 := by
  have hnonneg : ∀ e ∈ Finset.univ, 0 ≤ (if place e = v then x e else 0) := fun e _ => by
    split
    · exact hx e
    · exact le_rfl
  simpa [he] using (Finset.sum_eq_zero_iff_of_nonneg hnonneg).1 h e (Finset.mem_univ e)

/-! ## Flows -/

section

variable [AddCommGroup K]

/-- The flow out of a vertex less the flow into it. -/
def netOut (src dst : E → V) (flow : E → K) (v : V) : K := sumAt src flow v - sumAt dst flow v

/-- Flow inside a set of vertices cancels, and what crosses its boundary is absent. -/
theorem sum_netOut_eq_zero {src dst : E → V} {flow : E → K} {S : Finset V}
    (h : ∀ e, flow e ≠ 0 → (src e ∈ S ↔ dst e ∈ S)) : ∑ v ∈ S, netOut src dst flow v = 0 := by
  unfold netOut
  rw [Finset.sum_sub_distrib, sum_sumAt, sum_sumAt, Finset.sum_filter, Finset.sum_filter, sub_eq_zero]
  refine Finset.sum_congr rfl fun e _ => ?_
  by_cases hf : flow e = 0
  · simp [hf]
  · by_cases hs : src e ∈ S
    · rw [if_pos hs, if_pos ((h e hf).1 hs)]
    · rw [if_neg hs, if_neg fun hd => hs ((h e hf).2 hd)]

@[simp] theorem netOut_zero (src dst : E → V) (v : V) : netOut src dst (fun _ => (0 : K)) v = 0 := by
  simp [netOut]

end

end

/-! ## Zero-one sums -/

theorem sum_le_length {K : Type w} [Field K] [LinearOrder K] [IsStrictOrderedRing K] : ∀ {l : List K},
    (∀ x ∈ l, x = 0 ∨ x = 1) → l.sum ≤ l.length
  | [], _ => by simp
  | x :: l, h => by
    have ih := sum_le_length fun y hy => h y (List.mem_cons_of_mem _ hy)
    rw [List.sum_cons, List.length_cons, Nat.cast_add, Nat.cast_one]
    rcases h x (List.mem_cons_self ..) with rfl | rfl <;> linarith

/-- Zero-one values fall short of their number exactly when one of them is zero. -/
theorem sum_le_length_sub_one_iff {K : Type w} [Field K] [LinearOrder K] [IsStrictOrderedRing K] : ∀ {l : List K},
    (∀ x ∈ l, x = 0 ∨ x = 1) → (l.sum ≤ l.length - 1 ↔ 0 ∈ l)
  | [], _ => by simp
  | x :: l, h => by
    have hl : ∀ y ∈ l, y = 0 ∨ y = 1 := fun y hy => h y (List.mem_cons_of_mem _ hy)
    have ih := sum_le_length_sub_one_iff hl
    have hle := sum_le_length hl
    rw [List.sum_cons, List.length_cons, Nat.cast_add, Nat.cast_one, add_sub_cancel_right, List.mem_cons]
    rcases h x (List.mem_cons_self ..) with rfl | rfl
    · simpa using hle
    · rw [← ih, le_sub_iff_add_le, add_comm]
      simp

end Grip.Base
