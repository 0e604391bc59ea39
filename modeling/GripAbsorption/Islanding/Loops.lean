/-
What the loop constraint of `islanding_core` achieves. `find_cycles` reports the buses of a cycle; the
constraint takes the reported numbers as branch indices. So it opens some branch whose index is the
number of a bus of the cycle, and that need not be a branch of the cycle.
-/
import GripAbsorption.Islanding.Core
import GripAbsorption.Islanding.Graph

namespace Grip.Islanding

open Grip.Base

universe u

variable {K : Type u} [Field K] [LinearOrder K] {nbr ng nb nd : ℕ} {args : CoreArgs K nbr ng nb nd}
  {on off : Fin nbr → K}

/-! ## The loop constraint -/

variable [IsStrictOrderedRing K]

/-- The loop constraint says that a branch whose index is in the loop is open. -/
theorem loop_iff (hbin : ∀ i, IsBinary (args.brStatus on off i)) {L : List ℕ} (hL : ∀ ix ∈ L, 0 < ix ∧ ix ≤ nbr) :
    (L.map fun ix => ((branchAt nbr ix).map (args.brStatus on off)).getD 0).sum ≤ (L.length : K) - 1 ↔
      ∃ ix ∈ L, ∃ i, branchAt nbr ix = some i ∧ args.brStatus on off i = 0 := by
  have hat : ∀ ix ∈ L, ∃ i, branchAt nbr ix = some i := fun ix hix => ⟨_, dif_pos (hL ix hix)⟩
  have hval : ∀ x ∈ L.map fun ix => ((branchAt nbr ix).map (args.brStatus on off)).getD 0, x = 0 ∨ x = 1 := by
    intro x hx
    obtain ⟨ix, hix, rfl⟩ := List.mem_map.1 hx
    obtain ⟨i, hi⟩ := hat ix hix
    rw [hi]
    exact hbin i
  have hlen : (L.map fun ix => ((branchAt nbr ix).map (args.brStatus on off)).getD 0).length = L.length := List.length_map _
  rw [← hlen, sum_le_length_sub_one_iff hval, List.mem_map]
  constructor
  · rintro ⟨ix, hix, h⟩
    obtain ⟨i, hi⟩ := hat ix hix
    rw [hi] at h
    exact ⟨ix, hix, i, hi, h⟩
  · rintro ⟨ix, hix, i, hi, h⟩
    exact ⟨ix, hix, by rw [hi]; exact h⟩

/-! ## Loops that are broken -/

/-- Both end points of the branch are in the cycle. -/
def Inside (args : CoreArgs K nbr ng nb nd) (C : List ℕ) (i : Fin nbr) : Prop := args.F i ∈ C ∧ args.T i ∈ C

instance (C : List ℕ) (i : Fin nbr) : Decidable (Inside args C i) := inferInstanceAs (Decidable (_ ∧ _))

/-- Every index that the loop constraint uses is a branch index, and every assignment that satisfies the switching
constraints opens a branch inside every reported cycle. -/
def BreaksLoops (args : CoreArgs K nbr ng nb nd) : Prop :=
  (∀ L ∈ args.loops, ∀ ix ∈ L, 0 < ix ∧ ix ≤ nbr) ∧
    ∀ on off : Fin nbr → K, SwitchConstraints args on off → ∀ C ∈ args.loops,
      ¬ ∀ i, Inside args C i → args.brStatus on off i = 1

/-- No reported bus number exceeds the number of branches, and each reported cycle has a branch that is open for
good, or there is a reported list whose numbers, as branch indices, all belong to branches inside the cycle or
closed for good. -/
def LoopsBreakable (args : CoreArgs K nbr ng nb nd) : Prop :=
  (∀ L ∈ args.loops, ∀ ix ∈ L, ix ≤ nbr) ∧ ∀ C ∈ args.loops,
    (∃ i, Inside args C i ∧ args.switchable i = false ∧ args.brStatus0 i = false) ∨
    ∃ L ∈ args.loops, ∀ ix ∈ L, ∀ i, branchAt nbr ix = some i →
      Inside args C i ∨ args.switchable i = false ∧ args.brStatus0 i = true

instance : Decidable (LoopsBreakable args) := by unfold LoopsBreakable; infer_instance

theorem breaks_of_breakable (hpos : ∀ L ∈ args.loops, ∀ ix ∈ L, 0 < ix) (h : LoopsBreakable args) : BreaksLoops args := by
  have hvalid : ∀ L ∈ args.loops, ∀ ix ∈ L, 0 < ix ∧ ix ≤ nbr := fun L hL ix hix => ⟨hpos L hL ix hix, h.1 L hL ix hix⟩
  refine ⟨hvalid, fun on off hsw C hC hall => ?_⟩
  rcases h.2 C hC with ⟨i, hin, hs, hb⟩ | ⟨L, hL, hix⟩
  · -- the branch that is open for good is not closed
    have h0 := (hsw.fixed i).isBinary.2 hs
    have h1 := hall i hin
    unfold CoreArgs.brStatus at h1
    rw [h1, hb] at h0
    exact one_ne_zero h0
  · -- the open branch of the loop is inside the cycle or closed for good
    obtain ⟨ix, hmem, i, hi, h0⟩ := (loop_iff (fun i => (hsw.fixed i).isBinary.1) (hvalid L hL)).1 (hsw.loop L hL)
    rcases hix ix hmem i hi with hin | ⟨hs, hb⟩
    · rw [hall i hin] at h0
      exact one_ne_zero h0
    · unfold CoreArgs.brStatus at h0
      rw [(hsw.fixed i).isBinary.2 hs, hb] at h0
      exact one_ne_zero h0

theorem breakable_of_breaks (h : BreaksLoops args) : LoopsBreakable args := by
  refine ⟨fun L hL ix hix => (h.1 L hL ix hix).2, fun C hC => ?_⟩
  by_contra hnot
  push Not at hnot
  obtain ⟨hopen, hout⟩ := hnot
  -- close the branches inside the cycle and open every other that can be switched
  let v : Fin nbr → Bool := fun i => if Inside args C i then true else if args.switchable i then false else args.brStatus0 i
  have hv : ∀ i, args.switchable i = false → v i = args.brStatus0 i := by
    intro i hs
    by_cases hin : Inside args C i
    · cases hb : args.brStatus0 i with
      | false => exact absurd hb (hopen i hin hs)
      | true => simp [v, hin]
    · simp [v, hin, hs]
  choose on off hfixed hst using fun i => exists_switchFixed (K := K) (args.switchable i) (args.brStatus0 i) (hv i)
  replace hst : ∀ i, args.brStatus on off i = ofStatus (v i) := hst
  have hbin : ∀ i, IsBinary (args.brStatus on off i) := fun i => by
    rw [hst i]
    cases v i <;> simp [IsBinary, ofStatus]
  refine h.2 on off ⟨hfixed, fun L hL => ?_⟩ C hC fun i hin => by rw [hst i]; simp [v, hin, ofStatus]
  obtain ⟨ix, hix, i, hi, hnin, hns⟩ := hout L hL
  refine (loop_iff hbin (h.1 L hL)).2 ⟨ix, hix, i, hi, ?_⟩
  rw [hst i]
  cases hs : args.switchable i with
  | true => simp [v, hnin, hs, ofStatus]
  | false => simp [v, hnin, hs, hns hs, ofStatus]

/-- For every run of `find_cycles` on buses numbered from 1, the loop constraint breaks the reported loops exactly
under the condition. -/
theorem breaksLoops_iff (args : CoreArgs K nbr ng nb nd) (draws : ℕ → ℕ → ℕ) (hbus : ∀ b ∈ busList args.T args.F, 1 ≤ b)
    (hrun : findCycles args.T args.F draws = .ok args.loops) : BreaksLoops args ↔ LoopsBreakable args :=
  ⟨breakable_of_breaks, breaks_of_breakable fun L hL ix hix =>
    hbus ix ((findCycles_spec args.T args.F hrun L hL).2 ix hix)⟩

/-! ## Two small networks -/

/-- A network of closed switches, with a generator and a load at bus 1. -/
def switches {m : ℕ} (nBus : ℕ) (T F : Fin m → ℕ) (loops : List (List ℕ)) : CoreArgs ℚ m 1 0 1 where
  nBus := nBus
  T := T
  F := F
  brStatus0 := fun _ => true
  switchable := fun _ => true
  loops := loops
  G := ![1]
  PgMin := ![0]
  PgMax := ![2]
  solar := ![false]
  B := ![]
  EbMax := ![]
  E0 := ![]
  PbMax := ![]
  D := ![1]
  Pd0 := ![1]

/-- The triangle 1–2–3, whose branches happen to be numbered like its buses. -/
theorem triangle_broken : BreaksLoops (switches 3 ![2, 3, 1] ![1, 2, 3] [[2, 3, 1]]) := by
  have hrun : (findCycles ![2, 3, 1] ![1, 2, 3] fun _ _ => 0).toOption = some [[2, 3, 1]] := by decide +kernel
  rw [toOption_eq_some] at hrun
  exact (breaksLoops_iff (switches 3 ![2, 3, 1] ![1, 2, 3] [[2, 3, 1]]) (fun _ _ => 0) (by decide +kernel) hrun).2
    (by decide +kernel)

/-- The triangle 2–3–4 with a fourth branch from 2 to bus 1: opening that branch satisfies the constraint. -/
theorem triangle_with_tail_closed : (∀ b, b ∈ busList ![3, 4, 2, 2] ![2, 3, 4, 1] ↔ b ∈ Finset.Icc 1 4) ∧
    (∀ i, (![3, 4, 2, 2] : Fin 4 → ℕ) i ≠ (![2, 3, 4, 1] : Fin 4 → ℕ) i) ∧
    findCycles ![3, 4, 2, 2] ![2, 3, 4, 1] (fun _ _ => 0) = .ok [[3, 4, 2]] ∧
    ¬ BreaksLoops (switches 4 ![3, 4, 2, 2] ![2, 3, 4, 1] [[3, 4, 2]]) := by
  have hrun : (findCycles ![3, 4, 2, 2] ![2, 3, 4, 1] fun _ _ => 0).toOption = some [[3, 4, 2]] := by decide +kernel
  refine ⟨fun b => ?_, by decide, toOption_eq_some.1 hrun, fun h => ?_⟩
  · rw [show busList ![3, 4, 2, 2] ![2, 3, 4, 1] = [3, 4, 2, 1] by decide +kernel, Finset.mem_Icc]
    simp only [List.mem_cons, List.not_mem_nil, or_false]
    omega
  · exact absurd (breakable_of_breaks h) (by decide +kernel)

end Grip.Islanding
