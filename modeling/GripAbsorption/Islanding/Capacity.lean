/-
The upper limits of generation in `islanding_core`. The capacity factors are a matrix of generators by
periods, and the limits take `CF[k]` from it: the entry at one linear index, the same for every
generator. The matrix is stored by columns, so with two generators or more that entry belongs to the
day, and the night leaves the solar generators their whole capacity.
-/
import GripAbsorption.Islanding.Core
import GripAbsorption.Islanding.Graph

namespace Grip.Islanding

universe u

variable {K : Type u} [Field K] {nbr ng nb nd : ℕ}

/-! ## The factor that is picked -/

/-- The upper limit on `Pg[i,k]` and on `Pg[i,k] + dPg[i,k]`. -/
def CoreArgs.pgUpper (args : CoreArgs K nbr ng nb nd) (i : Fin ng) (k : Period) : K :=
  args.PgMax i * capacityFactorLinear args.solar k

theorem capacityFactor_of_not_solar {solar : Fin ng → Bool} {i : Fin ng} (h : solar i = false) (k : Period) :
    capacityFactor (K := K) solar i k = 1 := by
  simp [capacityFactor, h]

theorem capacityFactor_day (solar : Fin ng → Bool) (i : Fin ng) : capacityFactor (K := K) solar i .day = 1 := by
  simp [capacityFactor]

theorem capacityFactor_night {solar : Fin ng → Bool} {i : Fin ng} (h : solar i = true) :
    capacityFactor (K := K) solar i .night = 0 := by
  simp [capacityFactor, h]

/-- The only generator's column of factors is the matrix itself. -/
theorem capacityFactorLinear_one (solar : Fin 1 → Bool) (i : Fin 1) (k : Period) :
    capacityFactorLinear (K := K) solar k = capacityFactor solar i k := by
  unfold capacityFactorLinear
  rw [dif_pos Nat.one_pos]
  exact congrArg₂ (capacityFactor solar) (Subsingleton.elim _ i) (Fin.ext (Nat.div_one _))

/-- Both periods pick a factor of the day. -/
theorem capacityFactorLinear_of_two_le (h : 2 ≤ ng) (solar : Fin ng → Bool) (k : Period) :
    capacityFactorLinear (K := K) solar k = 1 := by
  have hday : k.val / ng = 0 := Nat.div_eq_of_lt (k.isLt.trans_le h)
  unfold capacityFactorLinear
  rw [dif_pos (by omega)]
  simp only [hday]
  exact capacityFactor_day solar _

/-! ## The night factor -/

variable [LinearOrder K]

/-- Every limit is the capacity times the generator's factor in the period; so solar generators have no power at
night, and the others keep their capacity. -/
structure NightFactor (args : CoreArgs K nbr ng nb nd) : Prop where
  upper : ∀ i k, args.pgUpper i k = args.PgMax i * capacityFactor args.solar i k
  night : ∀ p, Feasible args p → ∀ i, args.solar i = true → p.Pg i .night ≤ 0
  others : ∀ i, args.solar i = false → ∀ k, args.pgUpper i k = args.PgMax i

theorem Feasible.pg_le_upper {args : CoreArgs K nbr ng nb nd} {p : Plan K nbr ng nb nd} (h : Feasible args p) (i : Fin ng)
    (k : Period) : p.Pg i k ≤ args.pgUpper i k ∧ p.Pg i k + p.dPg i k ≤ args.pgUpper i k :=
  ⟨(h.pg i k).2, (h.dPg i k).2⟩

theorem nightFactor_of_upper {args : CoreArgs K nbr ng nb nd}
    (h : ∀ i k, args.pgUpper i k = args.PgMax i * capacityFactor args.solar i k) : NightFactor args := by
  refine ⟨h, fun p hp i hi => ?_, fun i hi k => ?_⟩
  · have hle := (hp.pg_le_upper i .night).1
    rwa [h, capacityFactor_night hi, mul_zero] at hle
  · rw [h, capacityFactor_of_not_solar hi, mul_one]

/-- For all generators, the night factor is applied to each solar one exactly when there is one generator at most, or
no solar generator has any capacity. -/
theorem nightFactor_iff (args : CoreArgs K nbr ng nb nd) :
    NightFactor args ↔ ng ≤ 1 ∨ ∀ i, args.solar i = true → args.PgMax i = 0 := by
  constructor
  · intro h
    by_cases hng : ng ≤ 1
    · exact .inl hng
    · right
      intro i hi
      -- the limit at night is the whole capacity
      have hup := h.upper i .night
      rw [CoreArgs.pgUpper, capacityFactorLinear_of_two_le (by omega), capacityFactor_night hi, mul_one, mul_zero] at hup
      exact hup
  · intro h
    apply nightFactor_of_upper
    intro i k
    unfold CoreArgs.pgUpper
    rcases Nat.lt_or_ge 1 ng with hng | hng
    · rw [capacityFactorLinear_of_two_le hng]
      cases hs : args.solar i with
      | false => rw [capacityFactor_of_not_solar hs]
      | true =>
        rw [(h.resolve_left (by omega)) i hs]
        simp only [zero_mul]
    · obtain rfl : ng = 1 := by have := i.pos; omega
      rw [capacityFactorLinear_one args.solar i]

/-! ## A solar and a conventional generator -/

/-- A solar generator and another one, of capacity 2 each, and at the other end of a line a load of 4. -/
def solarPair : CoreArgs ℚ 1 2 0 1 where
  nBus := 2
  F := ![1]
  T := ![2]
  brStatus0 := ![true]
  switchable := ![false]
  loops := []
  G := ![1, 1]
  PgMin := ![0, 0]
  PgMax := ![2, 2]
  solar := ![true, false]
  B := ![]
  EbMax := ![]
  E0 := ![]
  PbMax := ![]
  D := ![2]
  Pd0 := ![4]

/-- Both generators run at capacity, by day and at night. -/
def sunAtNight : Plan ℚ 1 2 0 1 where
  switchOn := ![0]
  switchOff := ![0]
  Pg := fun _ _ => 2
  dPg := fun _ _ => 0
  Pb := ![]
  dPb := ![]
  Eb := ![]
  dEb := ![]
  Pd := fun _ _ => 4
  dPd := fun _ _ => 0
  ud := fun _ => 1
  flow := fun _ _ => 4
  dFlow := fun _ _ => 0
  R := 0
  GBvec := fun bus _ => if bus = 1 then 4 else 0
  GBdvec := fun bus _ => if bus = 1 then 4 else 0
  DFdvec := fun bus _ => if bus = 1 then 4 else 0

/-- The line closes no loop, and the solar generator's power at night is feasible. -/
theorem solarPair_runs_at_night : findCycles solarPair.T solarPair.F (fun _ _ => 0) = .ok solarPair.loops ∧
    Feasible solarPair sunAtNight ∧ solarPair.solar 0 = true ∧ sunAtNight.Pg 0 .night = 2 ∧ ¬ NightFactor solarPair := by
  have hf : Feasible solarPair sunAtNight := by
    constructor
    · constructor <;> decide +kernel
    · constructor <;> decide +kernel
    all_goals decide +kernel
  refine ⟨by decide +kernel, hf, rfl, rfl, fun h => ?_⟩
  have hnight := h.night sunAtNight hf 0 rfl
  exact absurd hnight (by decide +kernel)

end Grip.Islanding
