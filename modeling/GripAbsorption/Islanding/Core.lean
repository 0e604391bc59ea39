/-
The constraints `islanding_core` states, over its arguments and a plan (the values of its variables).
Buses are numbered from 1; branches, generators, batteries and loads are positions of their lists.
The model is built only when every index is inside its array. The objective is left out: a plan is
feasible or not without it.
-/
import GripAbsorption.Base.Flow

namespace Grip.Islanding

open Grip.Base

universe u

/-! ## Arguments and variables -/

/-- The arguments of `islanding_core` that its constraints read. -/
structure CoreArgs (K : Type u) (nbr ng nb nd : ℕ) where
  nBus : ℕ
  F : Fin nbr → ℕ
  T : Fin nbr → ℕ
  brStatus0 : Fin nbr → Bool
  switchable : Fin nbr → Bool
  loops : List (List ℕ)
  G : Fin ng → ℕ
  PgMin : Fin ng → K
  PgMax : Fin ng → K
  solar : Fin ng → Bool
  B : Fin nb → ℕ
  EbMax : Fin nb → K
  E0 : Fin nb → K
  PbMax : Fin nb → K
  D : Fin nd → ℕ
  Pd0 : Fin nd → K

/-- The two periods, day and night. -/
abbrev Period := Fin 2

abbrev Period.day : Period := 0

abbrev Period.night : Period := 1

/-- The values of the variables. -/
structure Plan (K : Type u) (nbr ng nb nd : ℕ) where
  switchOn : Fin nbr → K
  switchOff : Fin nbr → K
  Pg : Fin ng → Period → K
  dPg : Fin ng → Period → K
  Pb : Fin nb → Period → K
  dPb : Fin nb → Period → K
  Eb : Fin nb → Period → K
  dEb : Fin nb → Period → K
  Pd : Fin nd → Period → K
  dPd : Fin nd → Period → K
  ud : Fin nd → K
  flow : Fin nbr → Period → K
  dFlow : Fin nbr → Period → K
  R : K
  GBvec : ℕ → Period → K
  GBdvec : ℕ → Period → K
  DFdvec : ℕ → Period → K

variable {K : Type u} [Field K] {nbr ng nb nd : ℕ}

/-! ## Constants -/

/-- The hours of a period: `[avg_CF*24,(1-avg_CF)*24]` with `avg_CF = 0.2`. -/
def deltaT : Period → K := ![1 / 5 * 24, (1 - 1 / 5) * 24]

def bigM : K := (100 : ℕ)

/-- `CF[i,k]`: solar generators have no capacity at night. -/
def capacityFactor (solar : Fin ng → Bool) (i : Fin ng) (k : Period) : K := if solar i ∧ k = .night then 0 else 1

/-- `CF[k]`: the entry at the linear index `k` of the matrix, which is stored by columns. -/
def capacityFactorLinear (solar : Fin ng → Bool) (k : Period) : K :=
  if h : 0 < ng then
    capacityFactor solar ⟨k.val % ng, Nat.mod_lt _ h⟩ ⟨k.val / ng, lt_of_le_of_lt (Nat.div_le_self ..) k.isLt⟩
  else 0

/-- The `ix`-th branch. -/
def branchAt (nbr ix : ℕ) : Option (Fin nbr) := if h : 0 < ix ∧ ix ≤ nbr then some ⟨ix - 1, by omega⟩ else none

/-! ## Matrices -/

/-- `sparse(at,collect(1:n),1,n_bus,n)`: where generators, batteries and loads are. -/
def busMatrix {n : ℕ} (place : Fin n → ℕ) (bus : ℕ) (j : Fin n) : K := if place j = bus then 1 else 0

/-- `incidence_matrix`. -/
def incidenceMatrix (F T : Fin nbr → ℕ) (i : Fin nbr) (bus : ℕ) : K :=
  (if F i = bus then 1 else 0) + (if T i = bus then -1 else 0)

/-- A matrix of places times a vector. -/
def mulVec {n : ℕ} (M : ℕ → Fin n → K) (x : Fin n → K) (bus : ℕ) : K := ∑ j, M bus j * x j

theorem mulVec_busMatrix {n : ℕ} (place : Fin n → ℕ) (x : Fin n → K) (bus : ℕ) :
    mulVec (busMatrix place) x bus = sumAt place x bus := by
  unfold mulVec busMatrix sumAt
  exact Finset.sum_congr rfl fun j _ => by split <;> simp

theorem mulVec_incidenceMatrix (F T : Fin nbr → ℕ) (x : Fin nbr → K) (bus : ℕ) :
    mulVec (fun bus i => incidenceMatrix F T i bus) x bus = netOut F T x bus := by
  unfold mulVec incidenceMatrix netOut sumAt
  rw [← Finset.sum_sub_distrib]
  refine Finset.sum_congr rfl fun i _ => ?_
  by_cases hF : F i = bus <;> by_cases hT : T i = bus <;> simp [hF, hT]

/-! ## Switches -/

/-- The integer 0 or 1 of a status. -/
def ofStatus (b : Bool) : K := if b then 1 else 0

def IsBinary (x : K) : Prop := x = 0 ∨ x = 1

/-- `br_status0[i] + switch_on[i] - switch_off[i]`. -/
def CoreArgs.brStatus (args : CoreArgs K nbr ng nb nd) (on off : Fin nbr → K) (i : Fin nbr) : K :=
  ofStatus (args.brStatus0 i) + on i - off i

/-- The two variables of a branch: the ones not needed are fixed to 0, the others binary. -/
def SwitchFixed (switchable status : Bool) (on off : K) : Prop :=
  if switchable = true ∧ status = false then off = 0 ∧ IsBinary on
  else if switchable = true ∧ status = true then on = 0 ∧ IsBinary off
  else off = 0 ∧ on = 0

instance [DecidableEq K] (x : K) : Decidable (IsBinary x) := inferInstanceAs (Decidable (_ ∨ _))

instance [DecidableEq K] (switchable status : Bool) (on off : K) : Decidable (SwitchFixed switchable status on off) := by
  unfold SwitchFixed; infer_instance

/-- A branch is open or closed, and one that cannot be switched keeps its status. -/
theorem SwitchFixed.isBinary {switchable status : Bool} {on off : K} (h : SwitchFixed switchable status on off) :
    IsBinary (ofStatus status + on - off) ∧ (switchable = false → ofStatus status + on - off = ofStatus status) := by
  unfold SwitchFixed at h
  unfold IsBinary ofStatus
  cases switchable with
  | false =>
    simp only [Bool.false_eq_true, false_and, if_false] at h
    cases status <;> simp [h]
  | true =>
    cases status with
    | false =>
      simp only [and_self, if_true] at h
      rcases h with ⟨h0, h1 | h1⟩ <;> simp [h0, h1]
    | true =>
      simp only [Bool.true_eq_false, and_false, and_self, if_true, if_false] at h
      rcases h with ⟨h0, h1 | h1⟩ <;> simp [h0, h1]

/-- Any status that a branch may get is reached. -/
theorem exists_switchFixed (switchable status : Bool) {v : Bool} (hv : switchable = false → v = status) :
    ∃ on off : K, SwitchFixed switchable status on off ∧ ofStatus status + on - off = ofStatus v := by
  cases switchable with
  | false =>
    refine ⟨0, 0, by simp [SwitchFixed], ?_⟩
    rw [hv rfl, add_zero, sub_zero]
  | true =>
    cases status with
    | false => exact ⟨ofStatus v, 0, by cases v <;> simp [SwitchFixed, IsBinary, ofStatus], by simp [ofStatus]⟩
    | true => exact ⟨0, ofStatus (!v), by cases v <;> simp [SwitchFixed, IsBinary, ofStatus], by cases v <;> simp [ofStatus]⟩

variable [LinearOrder K]

/-- The switching constraints: the variables are fixed or binary, and not all branches whose indices are in a loop
are closed. -/
structure SwitchConstraints (args : CoreArgs K nbr ng nb nd) (on off : Fin nbr → K) : Prop where
  fixed : ∀ i, SwitchFixed (args.switchable i) (args.brStatus0 i) (on i) (off i)
  loop : ∀ L ∈ args.loops,
    (L.map fun ix => ((branchAt nbr ix).map (args.brStatus on off)).getD 0).sum ≤ (L.length : K) - 1

/-! ## Constraints -/

/-- Every index is inside its array, and `CF[k]` needs a generator. -/
structure Built (args : CoreArgs K nbr ng nb nd) : Prop where
  loops : ∀ L ∈ args.loops, ∀ ix ∈ L, 0 < ix ∧ ix ≤ nbr
  generator : 0 < ng
  F : ∀ i, args.F i ∈ Finset.Icc 1 args.nBus
  T : ∀ i, args.T i ∈ Finset.Icc 1 args.nBus
  G : ∀ g, args.G g ∈ Finset.Icc 1 args.nBus
  B : ∀ b, args.B b ∈ Finset.Icc 1 args.nBus
  D : ∀ d, args.D d ∈ Finset.Icc 1 args.nBus

/-- The plan satisfies the constraints of the model built from the arguments. -/
structure Feasible (args : CoreArgs K nbr ng nb nd) (p : Plan K nbr ng nb nd) : Prop where
  built : Built args
  switches : SwitchConstraints args p.switchOn p.switchOff
  pg : ∀ g k, args.PgMin g ≤ p.Pg g k ∧ p.Pg g k ≤ args.PgMax g * capacityFactorLinear args.solar k
  dPg : ∀ g k, args.PgMin g ≤ p.Pg g k + p.dPg g k ∧
    p.Pg g k + p.dPg g k ≤ args.PgMax g * capacityFactorLinear args.solar k
  pb : ∀ b k, -args.PbMax b ≤ p.Pb b k ∧ p.Pb b k ≤ args.PbMax b
  dPb : ∀ b k, -args.PbMax b ≤ p.dPb b k ∧ p.dPb b k ≤ args.PbMax b
  eb : ∀ b k, 0 ≤ p.Eb b k ∧ p.Eb b k ≤ args.EbMax b
  dEb : ∀ b k, 0 ≤ p.dEb b k ∧ p.dEb b k ≤ args.EbMax b
  energyDay : ∀ b, p.Eb b .day = args.E0 b + p.Pb b .day * deltaT .day
  energyNight : ∀ b, p.Eb b .night = p.Eb b .day + p.Pb b .night * deltaT .night
  dEnergyDay : ∀ b, p.dEb b .day = args.E0 b + (p.Pb b .day + p.dPb b .day) * deltaT .day
  dEnergyNight : ∀ b, p.dEb b .night = p.dEb b .day + (p.Pb b .night + p.dPb b .night) * deltaT .night
  pd : ∀ d k, 0 ≤ p.Pd d k ∧ p.Pd d k ≤ args.Pd0 d
  dPd : ∀ d k, 0 ≤ p.dPd d k ∧ p.dPd d k ≤ bigM * p.ud d
  ud : ∀ d, IsBinary (p.ud d)
  udSum : 1 ≤ ∑ d, p.ud d
  flow : ∀ i k, -bigM * args.brStatus p.switchOn p.switchOff i ≤ p.flow i k ∧
    p.flow i k ≤ bigM * args.brStatus p.switchOn p.switchOff i
  dFlow : ∀ i k, -bigM * args.brStatus p.switchOn p.switchOff i ≤ p.dFlow i k ∧
    p.dFlow i k ≤ bigM * args.brStatus p.switchOn p.switchOff i
  pbSum : ∀ k, ∑ bus ∈ Finset.Icc 1 args.nBus, mulVec (busMatrix args.B) (p.Pb · k) bus = 0
  generation : ∀ k, ∀ bus ∈ Finset.Icc 1 args.nBus,
    mulVec (busMatrix args.G) (p.Pg · k) bus + mulVec (busMatrix args.B) (p.Pb · k) bus = p.GBvec bus k
  balance : ∀ k, ∀ bus ∈ Finset.Icc 1 args.nBus, p.GBvec bus k =
    mulVec (fun bus i => incidenceMatrix args.F args.T i bus) (p.flow · k) bus + mulVec (busMatrix args.D) (p.Pd · k) bus
  dGeneration : ∀ k, ∀ bus ∈ Finset.Icc 1 args.nBus,
    mulVec (busMatrix args.G) (fun g => p.Pg g k + p.dPg g k) bus +
      mulVec (busMatrix args.B) (fun b => p.Pb b k + p.dPb b k) bus = p.GBdvec bus k
  dDemand : ∀ k, ∀ bus ∈ Finset.Icc 1 args.nBus, mulVec (busMatrix args.D) (fun d => p.Pd d k + p.dPd d k) bus +
    mulVec (fun bus i => incidenceMatrix args.F args.T i bus) (fun i => p.flow i k + p.dFlow i k) bus = p.DFdvec bus k
  dBalance : ∀ k, ∀ bus ∈ Finset.Icc 1 args.nBus, p.GBdvec bus k = p.DFdvec bus k
  reserve : ∀ d k, p.R ≤ (1 - p.ud d) * bigM + p.dPd d k

/-- The branch statuses that are returned: `(br_status0 + value.(switch_on) - value.(switch_off)) .> 0.9`. -/
def CoreArgs.closed (args : CoreArgs K nbr ng nb nd) (p : Plan K nbr ng nb nd) (i : Fin nbr) : Bool :=
  decide (((9 : ℕ) : K) / (10 : ℕ) < args.brStatus p.switchOn p.switchOff i)

end Grip.Islanding
