/-
Ratings in the two dispatches of `islanding_core`. The limits of a generator hold for its base power and
for its contingency power; a battery's hold for its base power and for the reserve power alone. So
generators are always within their ratings, and batteries are in every network exactly when their own
data keep them there: any batteries whose data do not are overloaded at a bus with a generator and a load.
-/
import GripAbsorption.Islanding.Capacity
import GripAbsorption.Islanding.Energy
import GripAbsorption.Islanding.Fleet

namespace Grip.Islanding

open Grip.Base

variable {K : Type} [Field K] [LinearOrder K] {nbr ng nb nd : ℕ} {args : CoreArgs K nbr ng nb nd} {p : Plan K nbr ng nb nd}

/-! ## Ratings -/

/-- The generators are within their ratings, in base and contingency dispatch. -/
def GensRated (args : CoreArgs K nbr ng nb nd) (p : Plan K nbr ng nb nd) : Prop :=
  ∀ g k, (args.PgMin g ≤ p.Pg g k ∧ p.Pg g k ≤ args.PgMax g) ∧
    args.PgMin g ≤ p.Pg g k + p.dPg g k ∧ p.Pg g k + p.dPg g k ≤ args.PgMax g

/-- The batteries are within their ratings, in base and contingency dispatch. -/
def BatsRated (args : CoreArgs K nbr ng nb nd) (p : Plan K nbr ng nb nd) : Prop :=
  ∀ b k, (-args.PbMax b ≤ p.Pb b k ∧ p.Pb b k ≤ args.PbMax b) ∧
    -args.PbMax b ≤ p.Pb b k + p.dPb b k ∧ p.Pb b k + p.dPb b k ≤ args.PbMax b

/-- Generators and batteries are within their ratings. -/
def RatedDispatch (args : CoreArgs K nbr ng nb nd) (p : Plan K nbr ng nb nd) : Prop :=
  GensRated args p ∧ BatsRated args p

instance (args : CoreArgs K nbr ng nb nd) (p : Plan K nbr ng nb nd) : Decidable (BatsRated args p) :=
  inferInstanceAs (Decidable (∀ _ _, _))

/-- The data of the batteries. -/
def CoreArgs.fleet (args : CoreArgs K nbr ng nb nd) : Fleet K nb := ⟨args.PbMax, args.E0, args.EbMax⟩

def VIPayload.fleet (msg : VIPayload K nbr ng nb nd) : Fleet K nb :=
  let data := readVIPayload msg
  ⟨data.PbMax, data.E0, data.EbMax⟩

theorem ServerArgs.fleet_eq {msg : VIPayload K nbr ng nb nd} (ha : ServerArgs msg args) : args.fleet = msg.fleet := by
  unfold CoreArgs.fleet VIPayload.fleet
  rw [ha.PbMax, ha.E0, ha.EbMax]

/-- What holds of every feasible plan for every answer to a payload. -/
def VIPayload.Always (msg : VIPayload K nbr ng nb nd) (P : CoreArgs K nbr ng nb nd → Plan K nbr ng nb nd → Prop) : Prop :=
  ∀ draws args, islandingArgs msg draws = .ok args → ∀ p, Feasible args p → P args p

/-! ## Generators -/

section

variable [IsStrictOrderedRing K]

/-- All generation serves the loads, so it is not negative. -/
theorem Feasible.sum_pg_nonneg (h : Feasible args p) (k : Period) : 0 ≤ ∑ g, p.Pg g k := by
  have hcut : Separated args p (Finset.Icc 1 args.nBus) := fun i _ => iff_of_true (h.built.F i) (h.built.T i)
  have hbal := h.island_balance (Finset.Subset.refl _) hcut k
  have hbat : ∑ b with args.B b ∈ Finset.Icc 1 args.nBus, p.Pb b k = 0 := by
    rw [← sum_sumAt, ← h.pbSum k]
    exact Finset.sum_congr rfl fun bus _ => (mulVec_busMatrix ..).symm
  rw [hbat, add_zero, Finset.filter_true_of_mem fun g _ => h.built.G g] at hbal
  rw [hbal]
  exact Finset.sum_nonneg fun d _ => (h.pd d k).1

/-- The limit of a generator in a period. -/
theorem Feasible.pgUpper_le (h : Feasible args p) (g : Fin ng) (k : Period) : args.pgUpper g k ≤ args.PgMax g := by
  unfold CoreArgs.pgUpper
  rcases Nat.lt_or_ge 1 ng with hng | hng
  · rw [capacityFactorLinear_of_two_le hng, mul_one]
  · obtain rfl : ng = 1 := by have := g.pos; omega
    have hcap : 0 ≤ args.PgMax g := by
      have hday := h.sum_pg_nonneg .day
      have hlim := (h.pg_le_upper g .day).1
      rw [CoreArgs.pgUpper, capacityFactorLinear_one args.solar g, capacityFactor_day, mul_one] at hlim
      rw [Fintype.sum_subsingleton _ g] at hday
      exact hday.trans hlim
    rw [capacityFactorLinear_one args.solar g]
    unfold capacityFactor
    split
    · rwa [mul_zero]
    · rw [mul_one]

theorem Feasible.gensRated (h : Feasible args p) : GensRated args p := fun g k =>
  ⟨⟨(h.pg g k).1, (h.pg g k).2.trans (h.pgUpper_le g k)⟩, (h.dPg g k).1, (h.dPg g k).2.trans (h.pgUpper_le g k)⟩

/-! ## Batteries -/

omit [IsStrictOrderedRing K] in
/-- The batteries' part of a feasible plan. -/
theorem Feasible.fleet_runs (h : Feasible args p) : args.fleet.Runs p.Pb p.dPb := by
  refine ⟨fun b => ⟨h.pb b, h.dPb b, ?_, ?_⟩, fun k => ?_⟩
  · rw [Fin.forall_fin_two]
    have hday := h.eb b .day
    have hnight := h.eb b .night
    rw [h.energyNight] at hnight
    rw [h.energyDay] at hday hnight
    exact ⟨hday, hnight⟩
  · rw [Fin.forall_fin_two]
    have hday := h.dEb b .day
    have hnight := h.dEb b .night
    rw [h.dEnergyNight] at hnight
    rw [h.dEnergyDay] at hday hnight
    exact ⟨hday, hnight⟩
  · rw [← h.pbSum k]
    simp only [mulVec_busMatrix]
    rw [sum_sumAt, Finset.filter_true_of_mem fun b _ => h.built.B b]

theorem Feasible.batsRated (h : Feasible args p) (hf : args.fleet.Confined) : BatsRated args p := fun b k =>
  ⟨h.pb b k, hf.staysWithin _ _ h.fleet_runs b k⟩

end

/-! ## A bus with a generator and a load -/

/-- The batteries of a payload at one bus, with a load `L` and a generator of twice its size. -/
def VIPayload.atOneBus (msg : VIPayload K nbr ng nb nd) (L : K) : VIPayload K 1 1 nb 1 where
  branchT := ![2]
  branchF := ![1]
  branchStatus := ![1]
  branchKind := !["fixed"]
  genBus := ![1]
  genPmin := ![0]
  genStatus := ![1]
  genPmax := ![L + L]
  genSolar := ![0]
  batBus := fun _ => 1
  batStatus := msg.batStatus
  batPmax := msg.batPmax
  batEmax := msg.batEmax
  batSoc := msg.batSoc
  shuntBus := ![1]
  shuntP := ![L]
  faultedNodes := []

/-- The arguments it leads to. -/
def VIPayload.oneBusArgs (msg : VIPayload K nbr ng nb nd) (L : K) : CoreArgs K 1 1 nb 1 :=
  (readVIPayload (msg.atOneBus L)).outages.coreArgs []

/-- The generator serves the load, and balances the reserve of the batteries. -/
def Fleet.servedPlan (f : Fleet K nb) (L : K) (Pb dPb : Fin nb → Period → K) : Plan K 1 1 nb 1 where
  switchOn := fun _ => 0
  switchOff := fun _ => 0
  Pg := fun _ _ => L
  dPg := fun _ k => -∑ b, dPb b k
  Pb := Pb
  dPb := dPb
  Eb := fun b => energyAfter (f.E0 b) (Pb b)
  dEb := fun b => energyAfter (f.E0 b) fun k => Pb b k + dPb b k
  Pd := fun _ _ => L
  dPd := fun _ _ => 0
  ud := fun _ => 1
  flow := fun _ _ => 0
  dFlow := fun _ _ => 0
  R := 0
  GBvec := fun bus _ => if bus = 1 then L else 0
  GBdvec := fun bus _ => if bus = 1 then L else 0
  DFdvec := fun bus _ => if bus = 1 then L else 0

section

variable (msg : VIPayload K nbr ng nb nd) (L : K)

theorem VIPayload.islandingArgs_atOneBus :
    islandingArgs (msg.atOneBus L) (fun _ _ => 0) = .ok (msg.oneBusArgs L) := by
  have hrun : (findCycles ![2] ![1] fun _ _ => 0).toOption = some [] := by decide +kernel
  rw [toOption_eq_some] at hrun
  exact bind_ok.2 ⟨[], hrun, rfl⟩

theorem VIPayload.nBus_oneBusArgs : (msg.oneBusArgs L).nBus = 2 := by
  change (busList ![2] ![1]).length = 2
  decide

theorem VIPayload.oneBus_limit (k : Period) :
    (msg.oneBusArgs L).PgMax 0 * capacityFactorLinear (msg.oneBusArgs L).solar k = L + L := by
  have hsolar : (msg.oneBusArgs L).solar 0 = false := by
    change decide ((0 : ℤ) = 1) = false
    decide
  rw [capacityFactorLinear_one (msg.oneBusArgs L).solar 0, capacityFactor_of_not_solar hsolar, mul_one]
  change (L + L) * ofStatus (decide ((1 : K) = 1)) = L + L
  rw [decide_eq_true rfl, ofStatus, if_pos rfl, mul_one]

omit [LinearOrder K] in
theorem sumAt_const (c : ℕ) (x : Fin nb → K) (bus : ℕ) :
    sumAt (fun _ => c) x bus = if bus = c then ∑ b, x b else 0 := by
  unfold sumAt
  by_cases h : bus = c
  · simp [h]
  · simp [h, Ne.symm h]

omit [LinearOrder K] in
/-- What one bus adds up. -/
theorem mulVec_atOne (x : Fin nb → K) (bus : ℕ) :
    mulVec (busMatrix fun _ => 1) x bus = if bus = 1 then ∑ b, x b else 0 := by
  rw [mulVec_busMatrix, sumAt_const]

theorem VIPayload.built_oneBusArgs : Built (msg.oneBusArgs L) := by
  have hone : 1 ∈ Finset.Icc 1 (msg.oneBusArgs L).nBus := by rw [msg.nBus_oneBusArgs]; decide
  have htwo : 2 ∈ Finset.Icc 1 (msg.oneBusArgs L).nBus := by rw [msg.nBus_oneBusArgs]; decide
  constructor
  case loops => exact fun _ hL => absurd hL List.not_mem_nil
  case generator => exact one_pos
  case F => exact fun i => by fin_cases i; exact hone
  case T => exact fun i => by fin_cases i; exact htwo
  case G => exact fun i => by fin_cases i; exact hone
  case B => exact fun _ => hone
  case D => exact fun i => by fin_cases i; exact hone

variable {msg L} [IsStrictOrderedRing K]

/-- The line is closed, and carries nothing. -/
theorem VIPayload.oneBus_open (i : Fin 1) :
    -bigM * (msg.oneBusArgs L).brStatus (fun _ => 0) (fun _ => 0) i ≤ 0 ∧
      0 ≤ bigM * (msg.oneBusArgs L).brStatus (fun _ => 0) (fun _ => 0) i := by
  have hclosed : (msg.oneBusArgs L).brStatus (fun _ => 0) (fun _ => 0) i = 1 := by
    fin_cases i
    change ofStatus (decide ((1 : ℤ) = 1)) + 0 - 0 = (1 : K)
    simp [ofStatus]
  have hbigM : (0 : K) ≤ bigM := Nat.cast_nonneg _
  rw [hclosed]
  constructor <;> linarith

/-- The plan is feasible when the load is large enough for the reserve powers of the batteries. -/
theorem Fleet.Runs.feasible {Pb dPb : Fin nb → Period → K} (h : msg.fleet.Runs Pb dPb)
    (hL : ∀ k, |∑ b, dPb b k| ≤ L) : Feasible (msg.oneBusArgs L) (msg.fleet.servedPlan L Pb dPb) := by
  have hL0 : 0 ≤ L := (abs_nonneg _).trans (hL .day)
  have hlim : ∀ g k, (msg.oneBusArgs L).PgMax g * capacityFactorLinear (msg.oneBusArgs L).solar k = L + L := fun g k => by
    fin_cases g
    exact msg.oneBus_limit L k
  have hG : (msg.oneBusArgs L).G = fun _ => 1 := funext fun g => by fin_cases g; rfl
  have hB : (msg.oneBusArgs L).B = fun _ => 1 := rfl
  have hD : (msg.oneBusArgs L).D = fun _ => 1 := funext fun d => by fin_cases d; rfl
  have hflow : ∀ bus, mulVec (fun bus i => incidenceMatrix (msg.oneBusArgs L).F (msg.oneBusArgs L).T i bus)
      (fun _ => (0 : K)) bus = 0 := fun bus => Finset.sum_eq_zero fun i _ => mul_zero _
  constructor
  case built => exact msg.built_oneBusArgs L
  case switches =>
    refine ⟨fun i => ?_, fun _ hL => absurd hL List.not_mem_nil⟩
    fin_cases i
    exact ⟨rfl, rfl⟩
  case pg =>
    refine fun g k => ⟨?_, ?_⟩
    · fin_cases g
      exact hL0
    · rw [hlim]
      exact le_add_of_nonneg_left hL0
  case dPg =>
    refine fun g k => ?_
    have hrange : 0 ≤ L + -∑ b, dPb b k ∧ L + -∑ b, dPb b k ≤ L + L := by
      have hsum := abs_le.1 (hL k)
      constructor <;> linarith
    rw [hlim]
    fin_cases g
    exact hrange
  case pb => exact fun b => (h.battery b).base
  case dPb => exact fun b => (h.battery b).reserve
  case eb => exact fun b => (h.battery b).energy
  case dEb => exact fun b => (h.battery b).dEnergy
  case energyDay => exact fun b => rfl
  case energyNight => exact fun b => rfl
  case dEnergyDay => exact fun b => rfl
  case dEnergyNight => exact fun b => rfl
  case pd => exact fun d k => ⟨hL0, le_of_eq (by fin_cases d; rfl)⟩
  case dPd => exact fun d k => ⟨le_rfl, mul_nonneg (Nat.cast_nonneg _) zero_le_one⟩
  case ud => exact fun d => .inr rfl
  case udSum => exact (Fin.sum_univ_one fun _ => (1 : K)).ge
  case flow => exact fun i _ => msg.oneBus_open i
  case dFlow => exact fun i _ => msg.oneBus_open i
  case pbSum =>
    intro k
    change ∑ bus ∈ Finset.Icc 1 (msg.oneBusArgs L).nBus, mulVec (busMatrix (msg.oneBusArgs L).B) (Pb · k) bus = 0
    simp only [hB, mulVec_atOne, h.sum k, ite_self, Finset.sum_const_zero]
  case generation =>
    intro k bus _
    change mulVec (busMatrix (msg.oneBusArgs L).G) (fun _ => L) bus + mulVec (busMatrix (msg.oneBusArgs L).B) (Pb · k) bus =
      if bus = 1 then L else 0
    rw [hG, hB, mulVec_atOne, mulVec_atOne, h.sum k, ite_self, add_zero, Fin.sum_univ_one]
  case balance =>
    intro k bus _
    refine Eq.symm ((congrArg₂ (· + ·) (hflow bus) ?_).trans (zero_add _))
    change mulVec (busMatrix (msg.oneBusArgs L).D) (fun _ => L) bus = if bus = 1 then L else 0
    rw [hD, mulVec_atOne, Fin.sum_univ_one]
  case dGeneration =>
    intro k bus _
    change mulVec (busMatrix (msg.oneBusArgs L).G) (fun _ => L + -∑ b, dPb b k) bus +
      mulVec (busMatrix (msg.oneBusArgs L).B) (fun b => Pb b k + dPb b k) bus = if bus = 1 then L else 0
    have hsum : ∑ b, (Pb b k + dPb b k) = ∑ b, dPb b k := by rw [Finset.sum_add_distrib, h.sum k, zero_add]
    rw [hG, hB, mulVec_atOne, mulVec_atOne, hsum, Fin.sum_univ_one]
    split <;> ring
  case dDemand =>
    intro k bus _
    have hzero : (fun i => (msg.fleet.servedPlan L Pb dPb).flow i k + (msg.fleet.servedPlan L Pb dPb).dFlow i k) =
        fun _ => (0 : K) := funext fun _ => add_zero 0
    rw [hzero, hflow, add_zero]
    change mulVec (busMatrix (msg.oneBusArgs L).D) (fun _ => L + 0) bus = if bus = 1 then L else 0
    rw [hD, mulVec_atOne, Fin.sum_univ_one, add_zero]
  case dBalance => exact fun _ _ _ => rfl
  case reserve => exact fun d k => by simp [Fleet.servedPlan]

end

/-! ## When the dispatches are rated -/

section

variable [IsStrictOrderedRing K]

/-- Batteries that stay within their ratings in every network stay within them by themselves. -/
theorem staysWithin_of_always {msg : VIPayload K nbr ng nb nd}
    (h : ∀ (nbr ng nd : ℕ) (msg' : VIPayload K nbr ng nb nd), msg'.fleet = msg.fleet → msg'.Always BatsRated) :
    msg.fleet.StaysWithin := by
  intro Pb dPb hruns b k
  let L := |∑ b, dPb b .day| + |∑ b, dPb b .night|
  have hL : ∀ k, |∑ b, dPb b k| ≤ L :=
    Fin.forall_fin_two.2 ⟨le_add_of_nonneg_right (abs_nonneg _), le_add_of_nonneg_left (abs_nonneg _)⟩
  exact (h 1 1 1 (msg.atOneBus L) rfl _ _ (msg.islandingArgs_atOneBus L) _ (hruns.feasible hL) b k).2

/-- Generators are always within their ratings, batteries that are confined too; and batteries within their ratings in
every network are confined. -/
theorem ratedDispatch_iff (msg : VIPayload K nbr ng nb nd) :
    msg.Always GensRated ∧ (msg.fleet.Confined → msg.Always RatedDispatch) ∧
    (msg.fleet.Sound → ((∀ (nbr ng nd : ℕ) (msg' : VIPayload K nbr ng nb nd), msg'.fleet = msg.fleet →
      msg'.Always RatedDispatch) ↔ msg.fleet.Confined)) := by
  have hrated : ∀ {nbr ng nd : ℕ} (msg : VIPayload K nbr ng nb nd), msg.fleet.Confined → msg.Always RatedDispatch :=
    fun msg hf draws args ha p hp =>
      ⟨hp.gensRated, hp.batsRated ((islandingArgs_spec ha).fleet_eq ▸ hf)⟩
  refine ⟨fun _ _ _ _ hp => hp.gensRated, hrated msg, fun hsound => ⟨fun hall => ?_, fun hf _ _ _ msg' heq => ?_⟩⟩
  · refine hsound.staysWithin_iff.1 (staysWithin_of_always fun nbr ng nd msg' heq draws args ha p hp => ?_)
    exact (hall nbr ng nd msg' heq draws args ha p hp).2
  · exact hrated msg' (heq ▸ hf)

end

/-! ## Two batteries at one bus -/

/-- A closed line from bus 1 with a load, a generator and two half full batteries. -/
def pairFeeder (Emax : ℚ) : VIPayload ℚ 1 1 2 1 where
  branchT := ![2]
  branchF := ![1]
  branchStatus := ![1]
  branchKind := !["fixed"]
  genBus := ![1]
  genPmin := ![0]
  genStatus := ![1]
  genPmax := ![2]
  genSolar := ![0]
  batBus := ![1, 1]
  batStatus := ![1, 1]
  batPmax := ![1, 1]
  batEmax := ![Emax, Emax]
  batSoc := ![1 / 2, 1 / 2]
  shuntBus := ![1]
  shuntP := ![1]
  faultedNodes := []

def pairArgs (Emax : ℚ) : CoreArgs ℚ 1 1 2 1 := (readVIPayload (pairFeeder Emax)).outages.coreArgs []

/-- By day the second battery charges the first at its rating, and the reserve as much again. -/
def overPlan : Plan ℚ 1 1 2 1 :=
  (pairFeeder 20).fleet.servedPlan 1 ![![1, -1 / 4], ![-1, 1 / 4]] ![![1, 0], ![0, 0]]

/-- Batteries that are filled in a day are within their ratings. -/
theorem small_batteries_rated : (pairFeeder 4).Always RatedDispatch := by
  refine (ratedDispatch_iff (pairFeeder 4)).2.1 fun b _ => ⟨.inl ?_, .inl ?_, .inl ?_⟩ <;>
    (revert b; decide +kernel)

/-- Larger ones are charged with twice their rating. -/
theorem battery_overloaded : islandingArgs (pairFeeder 20) (fun _ _ => 0) = .ok (pairArgs 20) ∧
    Feasible (pairArgs 20) overPlan ∧ overPlan.Pb 0 .day + overPlan.dPb 0 .day = 2 ∧ (pairArgs 20).PbMax 0 = 1 ∧
    ¬ (pairFeeder 20).Always RatedDispatch := by
  have hrun : (findCycles ![2] ![1] fun _ _ => 0).toOption = some [] := by decide +kernel
  rw [toOption_eq_some] at hrun
  have hargs : islandingArgs (pairFeeder 20) (fun _ _ => 0) = .ok (pairArgs 20) := bind_ok.2 ⟨[], hrun, rfl⟩
  have hplan : Feasible (pairArgs 20) overPlan := by
    constructor
    · constructor <;> decide +kernel
    · constructor <;> decide +kernel
    all_goals decide +kernel
  have hover : ¬ BatsRated (pairArgs 20) overPlan := by decide +kernel
  exact ⟨hargs, hplan, by decide +kernel, by decide +kernel, fun h => hover (h _ _ hargs _ hplan).2⟩

end Grip.Islanding
