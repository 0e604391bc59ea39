/-
Energy in a separated part of the network. The flows inside it cancel and none crosses its boundary,
so generation and battery power cover the loads; there battery power counts as fed in, while in the
energy equation it counts as taken in. The two agree only where the batteries' power adds up to zero.
-/
import GripAbsorption.Islanding.Server

namespace Grip.Islanding

open Grip.Base

universe u

variable {K : Type u} [Field K] [LinearOrder K] {nbr ng nb nd : ℕ} {args : CoreArgs K nbr ng nb nd}
  {p : Plan K nbr ng nb nd}

/-! ## Energy -/

/-- `Eb[b,k-1]`, where `Eb[b,0]` is `E0[b]`. -/
def energyBefore (args : CoreArgs K nbr ng nb nd) (p : Plan K nbr ng nb nd) (b : Fin nb) (k : Period) : K :=
  if k = .day then args.E0 b else p.Eb b .day

theorem Feasible.energy_gain (h : Feasible args p) (b : Fin nb) (k : Period) :
    p.Eb b k - energyBefore args p b k = deltaT k * p.Pb b k := by
  unfold energyBefore
  match k with
  | 0 => rw [if_pos rfl, h.energyDay b]; ring
  | 1 => rw [if_neg (by decide), h.energyNight b]; ring

/-- Over the buses of `S` in period `k`, what generation leaves after the loads is what the batteries gain. -/
def ConservesEnergy (args : CoreArgs K nbr ng nb nd) (p : Plan K nbr ng nb nd) (k : Period) (S : Finset ℕ) : Prop :=
  deltaT k * (∑ g with args.G g ∈ S, p.Pg g k - ∑ d with args.D d ∈ S, p.Pd d k) =
    ∑ b with args.B b ∈ S, (p.Eb b k - energyBefore args p b k)

instance (k : Period) (S : Finset ℕ) : Decidable (ConservesEnergy args p k S) := inferInstanceAs (Decidable (_ = _))

/-! ## Power -/

/-- No branch that the plan leaves closed joins the buses of `S` to others. -/
def Separated (args : CoreArgs K nbr ng nb nd) (p : Plan K nbr ng nb nd) (S : Finset ℕ) : Prop :=
  ∀ i, args.closed p i = true → (args.F i ∈ S ↔ args.T i ∈ S)

instance (S : Finset ℕ) : Decidable (Separated args p S) := inferInstanceAs (Decidable (∀ _, _))

variable [IsStrictOrderedRing K]

/-- An open branch carries no flow. -/
theorem Feasible.flow_eq_zero (h : Feasible args p) {i : Fin nbr} (hi : args.closed p i = false) (k : Period) :
    p.flow i k = 0 := by
  have hbin := (h.switches.fixed i).isBinary.1
  have h0 : args.brStatus p.switchOn p.switchOff i = 0 := by
    unfold CoreArgs.closed at hi
    rcases hbin with h0 | h1
    · exact h0
    · rw [CoreArgs.brStatus, h1] at hi
      exact absurd (of_decide_eq_false hi) (not_not.2 (by norm_num))
  have hflow := h.flow i k
  rw [h0, mul_zero, mul_zero] at hflow
  exact le_antisymm hflow.2 hflow.1

/-- In a separated part of the network generation and battery power cover the loads. -/
theorem Feasible.island_balance (h : Feasible args p) {S : Finset ℕ} (hS : S ⊆ Finset.Icc 1 args.nBus)
    (hcut : Separated args p S) (k : Period) :
    ∑ g with args.G g ∈ S, p.Pg g k + ∑ b with args.B b ∈ S, p.Pb b k = ∑ d with args.D d ∈ S, p.Pd d k := by
  have hbus : ∀ bus ∈ S, sumAt args.G (p.Pg · k) bus + sumAt args.B (p.Pb · k) bus =
      netOut args.F args.T (p.flow · k) bus + sumAt args.D (p.Pd · k) bus := by
    intro bus hb
    rw [← mulVec_busMatrix, ← mulVec_busMatrix, ← mulVec_busMatrix, ← mulVec_incidenceMatrix,
      h.generation k bus (hS hb), h.balance k bus (hS hb)]
  have hflow : ∑ bus ∈ S, netOut args.F args.T (p.flow · k) bus = 0 := by
    refine sum_netOut_eq_zero fun i hi => hcut i ?_
    by_contra hopen
    exact hi (h.flow_eq_zero (Bool.eq_false_iff.2 hopen) k)
  have hsum := Finset.sum_congr rfl hbus
  rw [Finset.sum_add_distrib, Finset.sum_add_distrib, hflow, zero_add] at hsum
  rw [← sum_sumAt, ← sum_sumAt, ← sum_sumAt]
  exact hsum

/-! ## The law -/

theorem deltaT_pos (k : Period) : (0 : K) < deltaT k := by
  match k with
  | 0 => simp [deltaT]
  | 1 => norm_num [deltaT]

/-- In a feasible plan a separated part of the network conserves energy exactly when its batteries' power adds up to
zero. -/
theorem conservesEnergy_iff (args : CoreArgs K nbr ng nb nd) (p : Plan K nbr ng nb nd) (h : Feasible args p) (k : Period)
    (S : Finset ℕ) (hS : S ⊆ Finset.Icc 1 args.nBus) (hcut : Separated args p S) :
    ConservesEnergy args p k S ↔ ∑ b with args.B b ∈ S, p.Pb b k = 0 := by
  have hbal := h.island_balance hS hcut k
  have hgain : ∑ b with args.B b ∈ S, (p.Eb b k - energyBefore args p b k) =
      deltaT k * ∑ b with args.B b ∈ S, p.Pb b k := by
    rw [Finset.mul_sum]
    exact Finset.sum_congr rfl fun b _ => h.energy_gain b k
  have hleft : ∑ g with args.G g ∈ S, p.Pg g k - ∑ d with args.D d ∈ S, p.Pd d k = -∑ b with args.B b ∈ S, p.Pb b k := by
    rw [← hbal]; ring
  unfold ConservesEnergy
  rw [hgain, hleft, mul_right_inj' (deltaT_pos k).ne', neg_eq_self]

/-! ## Two buses -/

/-- An open line between bus 1 with a load and bus 2 with a generator, and a half full battery at each. -/
def splitFeeder : VIPayload ℚ 1 1 2 1 where
  branchT := ![2]
  branchF := ![1]
  branchStatus := ![0]
  branchKind := !["fixed"]
  genBus := ![2]
  genPmin := ![0]
  genStatus := ![1]
  genPmax := ![5]
  genSolar := ![0]
  batBus := ![1, 2]
  batStatus := ![1, 1]
  batPmax := ![1, 1]
  batEmax := ![20, 20]
  batSoc := ![1 / 2, 1 / 2]
  shuntBus := ![1]
  shuntP := ![1]
  faultedNodes := []

def splitArgs : CoreArgs ℚ 1 1 2 1 := (readVIPayload splitFeeder).outages.coreArgs []

/-- By day the battery at bus 1 serves the load and the generator's power goes into the battery at bus 2. -/
def splitPlan : Plan ℚ 1 1 2 1 where
  switchOn := fun _ => 0
  switchOff := fun _ => 0
  Pg := ![![1, 0]]
  dPg := fun _ _ => 0
  Pb := ![![1, 0], ![-1, 0]]
  dPb := fun _ _ => 0
  Eb := ![![74 / 5, 74 / 5], ![26 / 5, 26 / 5]]
  dEb := ![![74 / 5, 74 / 5], ![26 / 5, 26 / 5]]
  Pd := ![![1, 0]]
  dPd := fun _ _ => 0
  ud := fun _ => 1
  flow := fun _ _ => 0
  dFlow := fun _ _ => 0
  R := 0
  GBvec := fun bus k => if bus = 1 ∧ k = .day then 1 else 0
  GBdvec := fun bus k => if bus = 1 ∧ k = .day then 1 else 0
  DFdvec := fun bus k => if bus = 1 ∧ k = .day then 1 else 0

theorem splitPlan_feasible : Feasible splitArgs splitPlan := by
  constructor
  · constructor <;> decide +kernel
  · constructor <;> decide +kernel
  all_goals decide +kernel

/-- Over both buses the batteries' power adds up to zero. -/
theorem whole_network_conserves : ConservesEnergy splitArgs splitPlan .day {1, 2} :=
  (conservesEnergy_iff splitArgs splitPlan splitPlan_feasible .day {1, 2} (by decide +kernel) (by decide +kernel)).2
    (by decide +kernel)

/-- Over bus 1 alone the battery serves the load and gains energy. -/
theorem discharging_battery_gains : islandingArgs splitFeeder (fun _ _ => 0) = .ok splitArgs ∧
    Feasible splitArgs splitPlan ∧ {1} ⊆ Finset.Icc 1 splitArgs.nBus ∧ Separated splitArgs splitPlan {1} ∧
    ¬ ConservesEnergy splitArgs splitPlan .day {1} := by
  refine ⟨?_, splitPlan_feasible, by decide +kernel, by decide +kernel, by decide +kernel⟩
  have hrun : (findCycles ![2] ![1] fun _ _ => 0).toOption = some [] := by decide +kernel
  rw [toOption_eq_some] at hrun
  exact bind_ok.2 ⟨[], hrun, rfl⟩

end Grip.Islanding
