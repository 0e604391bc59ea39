/-
When the islanding problem can be solved. Nothing but the loop constraint and the demand for one load can
make the constraints of sane data contradict each other: with nothing generated, stored or served every
other constraint holds, and opening every branch that may be opened is the best that can be done for the
loops. The objective is bounded, so the solver has an optimum to find exactly then; the server raises an
error otherwise, and stops.
-/
import GripAbsorption.Islanding.Loops
import GripAbsorption.Islanding.Outage
import GripAbsorption.Islanding.Isolation

namespace Grip.Islanding

open Grip.Base

variable {K : Type} [Field K] [LinearOrder K] {nbr ng nb nd : ℕ}

/-! ## Objective -/

/-- `Cd`: the value of a load, with the random draws of `rand(nd)`. -/
def loadValues (rand : Fin nd → K) (d : Fin nd) : K :=
  ((10000 : ℕ) : K) + (rand d - 1 / ((2 : ℕ) : K)) * (((10000 : ℕ) : K) / ((2 : ℕ) : K))

/-- `C_R`: a tenth of the mean value of a load. -/
def reserveValue (Cd : Fin nd → K) : K := (∑ d, Cd d) / (nd : K) * (1 / ((10 : ℕ) : K))

/-- The value to maximise: load served, reserves and stored energy, less the switching operations and the places where
reserves are counted. -/
def coreObjective (Cd : Fin nd → K) (p : Plan K nbr ng nb nd) : K :=
  ∑ k, ∑ d, Cd d * p.Pd d k + reserveValue Cd * p.R + ((100 : ℕ) : K) * ∑ b, p.Eb b .night
    - ((10 : ℕ) : K) * (∑ i, p.switchOn i + ∑ i, p.switchOff i) - ∑ d, p.ud d

/-! ## Sane data -/

/-- Nothing has to be generated, no limit is below zero, and every battery starts between empty and full. -/
structure CoreArgs.Sane (args : CoreArgs K nbr ng nb nd) : Prop where
  PgMin : ∀ g, args.PgMin g = 0
  PgMax : ∀ g, 0 ≤ args.PgMax g
  PbMax : ∀ b, 0 ≤ args.PbMax b
  charge : ∀ b, 0 ≤ args.E0 b ∧ args.E0 b ≤ args.EbMax b
  Pd0 : ∀ d, 0 ≤ args.Pd0 d

/-- The same of a payload. -/
structure VIPayload.Sane (msg : VIPayload K nbr ng nb nd) : Prop where
  genPmin : ∀ g, msg.genPmin g = 0
  genPmax : ∀ g, 0 ≤ msg.genPmax g
  batPmax : ∀ b, 0 ≤ msg.batPmax b
  batEmax : ∀ b, 0 ≤ msg.batEmax b
  batSoc : ∀ b, 0 ≤ msg.batSoc b ∧ msg.batSoc b ≤ 1
  shuntP : ∀ d, 0 ≤ msg.shuntP d

/-- Some branch whose index is in the loop is open or can be opened. -/
def Openable (args : CoreArgs K nbr ng nb nd) (L : List ℕ) : Prop :=
  ∃ ix ∈ L, ∃ i, branchAt nbr ix = some i ∧ (args.switchable i = true ∨ args.brStatus0 i = false)

/-- The model is built, there is a load, and each loop can be opened. -/
structure Solvable (args : CoreArgs K nbr ng nb nd) : Prop where
  built : Built args
  load : 0 < nd
  loops : ∀ L ∈ args.loops, Openable args L

variable [IsStrictOrderedRing K] {args : CoreArgs K nbr ng nb nd} {p : Plan K nbr ng nb nd}
  {msg : VIPayload K nbr ng nb nd}

theorem ofStatus_nonneg (b : Bool) : (0 : K) ≤ ofStatus b := by cases b <;> simp [ofStatus]

theorem VIPayload.Sane.core (h : msg.Sane) {draws : ℕ → ℕ → ℕ} (hargs : islandingArgs msg draws = .ok args) : args.Sane := by
  have hs := islandingArgs_spec hargs
  refine ⟨fun g => by rw [hs.PgMin]; exact h.genPmin g, fun g => ?_, fun b => ?_, fun b => ?_, fun d => by rw [hs.Pd0]; exact h.shuntP d⟩
  · rw [hs.PgMax]
    exact mul_nonneg (h.genPmax g) (ofStatus_nonneg _)
  · rw [hs.PbMax]
    exact mul_nonneg (h.batPmax b) (ofStatus_nonneg _)
  · have hE : 0 ≤ msg.batEmax b * ofStatus (decide (msg.batStatus b = 1)) := mul_nonneg (h.batEmax b) (ofStatus_nonneg _)
    rw [hs.E0, hs.EbMax]
    exact ⟨mul_nonneg (h.batSoc b).1 hE, mul_le_of_le_one_left hE (h.batSoc b).2⟩

/-! ## Switches -/

/-- Opening every branch that may be opened meets the switching constraints if anything does. -/
theorem exists_switchConstraints (hb : Built args) (hloops : ∀ L ∈ args.loops, Openable args L) :
    ∃ on off : Fin nbr → K, SwitchConstraints args on off := by
  let v : Fin nbr → Bool := fun i => if args.switchable i then false else args.brStatus0 i
  have hv : ∀ i, args.switchable i = false → v i = args.brStatus0 i := fun i hs => by simp [v, hs]
  choose on off hfixed hst using fun i => exists_switchFixed (K := K) (args.switchable i) (args.brStatus0 i) (hv i)
  replace hst : ∀ i, args.brStatus on off i = ofStatus (v i) := hst
  refine ⟨on, off, hfixed, fun L hL => ?_⟩
  obtain ⟨ix, hix, i, hi, hopen⟩ := hloops L hL
  refine (loop_iff (fun i => (hfixed i).isBinary.1) (hb.loops L hL)).2 ⟨ix, hix, i, hi, ?_⟩
  rw [hst i]
  rcases hopen with hs | h0
  · simp [v, hs, ofStatus]
  · simp [v, h0, ofStatus]

/-- A loop with an open branch has one that was open or can be switched. -/
theorem openable_of_constraints {on off : Fin nbr → K} (hb : Built args) (h : SwitchConstraints args on off) {L : List ℕ}
    (hL : L ∈ args.loops) : Openable args L := by
  obtain ⟨ix, hix, i, hi, h0⟩ := (loop_iff (fun i => (h.fixed i).isBinary.1) (hb.loops L hL)).1 (h.loop L hL)
  refine ⟨ix, hix, i, hi, ?_⟩
  by_contra hno
  push Not at hno
  obtain ⟨hs, hst⟩ := hno
  -- the branch would keep the status 1
  have hval := (h.fixed i).isBinary.2 (Bool.eq_false_iff.2 hs)
  unfold CoreArgs.brStatus at h0
  rw [h0, Bool.eq_true_of_not_eq_false hst] at hval
  exact zero_ne_one hval

/-! ## A plan in which nothing happens -/

theorem capacityFactorLinear_nonneg (solar : Fin ng → Bool) (k : Period) : (0 : K) ≤ capacityFactorLinear solar k := by
  unfold capacityFactorLinear
  split
  · unfold capacityFactor
    split
    exacts [le_refl _, zero_le_one]
  · exact le_refl _

/-- Generators, batteries and loads at rest, under switches that meet their constraints. -/
theorem idle_feasible (hs : args.Sane) (hb : Built args) (hnd : 0 < nd) {on off : Fin nbr → K}
    (hsw : SwitchConstraints args on off) : Feasible args (localPlan args on off (fun _ _ => 0) fun _ _ => 0) := by
  have hM : (0 : K) ≤ bigM := Nat.cast_nonneg 100
  have hst : ∀ i, (0 : K) ≤ args.brStatus on off i := fun i => by
    rcases (hsw.fixed i).isBinary.1 with h | h
    · exact h.ge
    · exact zero_le_one.trans h.ge
  have hflow : ∀ i, -bigM * args.brStatus on off i ≤ 0 ∧ 0 ≤ bigM * args.brStatus on off i := fun i => by
    have := mul_nonneg hM (hst i)
    exact ⟨by linarith, this⟩
  have hlimit : ∀ g k, args.PgMin g ≤ 0 ∧ 0 ≤ args.PgMax g * capacityFactorLinear args.solar k := fun g k =>
    ⟨(hs.PgMin g).le, mul_nonneg (hs.PgMax g) (capacityFactorLinear_nonneg _ k)⟩
  have hpb : ∀ b, -args.PbMax b ≤ 0 ∧ 0 ≤ args.PbMax b := fun b => ⟨neg_nonpos.2 (hs.PbMax b), hs.PbMax b⟩
  exact {
    built := hb
    switches := hsw
    pg := hlimit
    dPg := fun g k => by simpa [localPlan] using hlimit g k
    pb := fun b _ => hpb b
    dPb := fun b _ => hpb b
    eb := fun b _ => hs.charge b
    dEb := fun b _ => hs.charge b
    energyDay := fun b => by simp [localPlan]
    energyNight := fun b => by simp [localPlan]
    dEnergyDay := fun b => by simp [localPlan]
    dEnergyNight := fun b => by simp [localPlan]
    pd := fun d _ => ⟨le_refl _, hs.Pd0 d⟩
    dPd := fun d _ => ⟨le_refl _, by simpa [localPlan] using hM⟩
    ud := fun d => .inr rfl
    udSum := by
      have hone : (1 : K) ≤ (nd : K) := Nat.one_le_cast.2 hnd
      simpa [localPlan] using hone
    flow := fun i _ => hflow i
    dFlow := fun i _ => hflow i
    pbSum := fun k => Finset.sum_eq_zero fun bus _ => by simp [localPlan, mulVec_busMatrix, sumAt_zero]
    generation := fun k bus _ => by simp only [localPlan, mulVec_busMatrix, sumAt_zero, add_zero]
    balance := fun k bus _ => by
      simp only [localPlan, mulVec_busMatrix, mulVec_incidenceMatrix, netOut_zero, sumAt_zero, add_zero]
    dGeneration := fun k bus _ => by simp only [localPlan, mulVec_busMatrix, sumAt_zero, add_zero]
    dDemand := fun k bus _ => by
      simp only [localPlan, mulVec_busMatrix, mulVec_incidenceMatrix, netOut_zero, sumAt_zero, add_zero]
    dBalance := fun _ _ _ => rfl
    reserve := fun d _ => by simp [localPlan] }

/-- The constraints of sane data have a solution exactly when the model is built, there is a load and every loop can
be opened. -/
theorem feasible_iff (hs : args.Sane) : (∃ p, Feasible args p) ↔ Solvable args := by
  constructor
  · rintro ⟨p, h⟩
    refine ⟨h.built, ?_, fun L hL => openable_of_constraints h.built h.switches hL⟩
    rcases Nat.eq_zero_or_pos nd with rfl | hnd
    · have hsum := h.udSum
      rw [Fin.sum_univ_zero] at hsum
      exact absurd hsum (not_le.2 zero_lt_one)
    · exact hnd
  · rintro ⟨hb, hnd, hloops⟩
    obtain ⟨on, off, hsw⟩ := exists_switchConstraints hb hloops
    exact ⟨_, idle_feasible hs hb hnd hsw⟩

/-! ## The bound -/

/-- Reserves are at most `bigM`. -/
theorem Feasible.reserve_le (h : Feasible args p) : p.R ≤ bigM := by
  have hnd : 0 < nd := by
    rcases Nat.eq_zero_or_pos nd with rfl | hnd
    · have hsum := h.udSum
      rw [Fin.sum_univ_zero] at hsum
      exact absurd hsum (not_le.2 zero_lt_one)
    · exact hnd
  have hR := h.reserve ⟨0, hnd⟩ .day
  have hd := (h.dPd ⟨0, hnd⟩ .day).2
  have hcancel : (1 - p.ud ⟨0, hnd⟩) * bigM + bigM * p.ud ⟨0, hnd⟩ = (bigM : K) := by ring
  linarith

theorem IsBinary.nonneg {x : K} (h : IsBinary x) : 0 ≤ x := by
  rcases h with rfl | rfl
  exacts [le_refl _, zero_le_one]

theorem SwitchFixed.nonneg {switchable status : Bool} {on off : K} (h : SwitchFixed switchable status on off) :
    0 ≤ on ∧ 0 ≤ off := by
  unfold SwitchFixed at h
  split at h
  · exact ⟨h.2.nonneg, h.1.ge⟩
  · split at h
    · exact ⟨h.1.ge, h.2.nonneg⟩
    · exact ⟨h.2.ge, h.1.ge⟩

/-- No feasible plan is worth more than all load served, full reserves and full batteries. -/
theorem objective_le {Cd : Fin nd → K} (hCd : ∀ d, 0 ≤ Cd d) (h : Feasible args p) :
    coreObjective Cd p ≤ ∑ _k : Period, ∑ d, Cd d * args.Pd0 d + reserveValue Cd * bigM + ((100 : ℕ) : K) * ∑ b, args.EbMax b := by
  have hserved : ∑ k, ∑ d, Cd d * p.Pd d k ≤ ∑ _k : Period, ∑ d, Cd d * args.Pd0 d :=
    Finset.sum_le_sum fun k _ => Finset.sum_le_sum fun d _ => mul_le_mul_of_nonneg_left (h.pd d k).2 (hCd d)
  have hvalue : 0 ≤ reserveValue Cd :=
    mul_nonneg (div_nonneg (Finset.sum_nonneg fun d _ => hCd d) (Nat.cast_nonneg _)) (by positivity)
  have hreserve := mul_le_mul_of_nonneg_left h.reserve_le hvalue
  have hstored : ((100 : ℕ) : K) * ∑ b, p.Eb b .night ≤ ((100 : ℕ) : K) * ∑ b, args.EbMax b :=
    mul_le_mul_of_nonneg_left (Finset.sum_le_sum fun b _ => (h.eb b .night).2) (Nat.cast_nonneg _)
  have hswitch : 0 ≤ ((10 : ℕ) : K) * (∑ i, p.switchOn i + ∑ i, p.switchOff i) :=
    mul_nonneg (Nat.cast_nonneg _) (add_nonneg (Finset.sum_nonneg fun i _ => (h.switches.fixed i).nonneg.1)
      (Finset.sum_nonneg fun i _ => (h.switches.fixed i).nonneg.2))
  have hplaces : 0 ≤ ∑ d, p.ud d := Finset.sum_nonneg fun d _ => (h.ud d).nonneg
  unfold coreObjective
  linarith

/-- The value of a load is positive, whatever is drawn. -/
theorem loadValues_nonneg {rand : Fin nd → K} (h : ∀ d, 0 ≤ rand d) (d : Fin nd) : 0 ≤ loadValues rand d := by
  unfold loadValues
  have := h d
  norm_num
  linarith

/-- The same, told of the payload: a branch that can be open is a switch, is open already or has a faulted end. -/
theorem feasible_islandingArgs {msg : VIPayload K nbr ng nb nd} {draws : ℕ → ℕ → ℕ} {args : CoreArgs K nbr ng nb nd}
    (hs : msg.Sane) (hargs : islandingArgs msg draws = .ok args) :
    (∃ p, Feasible args p) ↔ Built args ∧ 0 < nd ∧ ∀ L ∈ args.loops, ∃ ix ∈ L, ∃ i, branchAt nbr ix = some i ∧
      (msg.branchKind i = "switch" ∨ msg.branchStatus i ≠ 1 ∨ AtFault msg i) := by
  have hopen : ∀ i, (args.switchable i = true ∨ args.brStatus0 i = false) ↔
      (msg.branchKind i = "switch" ∨ msg.branchStatus i ≠ 1 ∨ AtFault msg i) := by
    intro i
    obtain ⟨hst, hsw⟩ := islandingArgs_switches hargs i
    rw [hst, hsw, decide_eq_true_eq, decide_eq_false_iff_not]
    by_cases hf : AtFault msg i <;> simp [hf]
  rw [feasible_iff (hs.core hargs)]
  simp only [← hopen]
  exact ⟨fun h => ⟨h.built, h.load, h.loops⟩, fun h => ⟨h.1, h.2.1, h.2.2⟩⟩

/-- For every payload of sane data and every run of `find_cycles`, the constraints of `islanding_core` can be met
exactly when the model is built, a load is sent, and in every reported loop one of the bus numbers, taken as an index of
a branch, is that of a branch that is a switch, is open already or has a faulted end; and whatever the weights drawn, no
feasible plan exceeds a bound. -/
theorem islanding_solvable_iff (msg : VIPayload K nbr ng nb nd) (draws : ℕ → ℕ → ℕ) (args : CoreArgs K nbr ng nb nd)
    (hs : msg.Sane) (hargs : islandingArgs msg draws = .ok args) :
    ((∃ p, Feasible args p) ↔ Built args ∧ 0 < nd ∧ ∀ L ∈ args.loops, ∃ ix ∈ L, ∃ i, branchAt nbr ix = some i ∧
      (msg.branchKind i = "switch" ∨ msg.branchStatus i ≠ 1 ∨ AtFault msg i)) ∧
    ∀ rand : Fin nd → K, (∀ d, 0 ≤ rand d ∧ rand d < 1) →
      ∃ bound, ∀ p, Feasible args p → coreObjective (loadValues rand) p ≤ bound :=
  ⟨feasible_islandingArgs hs hargs,
    fun _ hrand => ⟨_, fun _ hp => objective_le (loadValues_nonneg fun d => (hrand d).1) hp⟩⟩

/-! ## Triangles -/

/-- Three closed branches between three buses, with a generator at the first bus and a load at the last. -/
def triangle (kind : Fin 3 → String) : VIPayload ℚ 3 1 0 1 where
  branchT := ![2, 3, 1]
  branchF := ![1, 2, 3]
  branchStatus := ![1, 1, 1]
  branchKind := kind
  genBus := ![1]
  genPmin := ![0]
  genStatus := ![1]
  genPmax := ![5]
  genSolar := ![0]
  batBus := ![]
  batStatus := ![]
  batPmax := ![]
  batEmax := ![]
  batSoc := ![]
  shuntBus := ![3]
  shuntP := ![2]
  faultedNodes := []

theorem triangle_solvable : ∃ args, islandingArgs (triangle !["fixed", "switch", "fixed"]) (fun _ _ => 0) = .ok args ∧
    (∃ p, Feasible args p) := by
  have hrun : (findCycles ![2, 3, 1] ![1, 2, 3] fun _ _ => 0).toOption = some [[2, 3, 1]] := by decide +kernel
  rw [toOption_eq_some] at hrun
  have hargs : islandingArgs (triangle !["fixed", "switch", "fixed"]) (fun _ _ => 0) =
      .ok ((readVIPayload (triangle !["fixed", "switch", "fixed"])).outages.coreArgs [[2, 3, 1]]) :=
    bind_ok.2 ⟨_, hrun, rfl⟩
  refine ⟨_, hargs, (islanding_solvable_iff _ _ _ ?_ hargs).1.2 ⟨?_, by decide, ?_⟩⟩
  · constructor <;> decide +kernel
  · constructor <;> decide +kernel
  · decide +kernel

end Grip.Islanding
