/-
Generators and batteries at faulted nodes in the islanding plan. The server marks them as out of
service after the limits were computed, so the limits the core sees are those of the devices in
service. A faulted node is cut off from the network; what its devices do there is bounded only by its
own power balance and by the sum of all battery power being zero.
-/
import GripAbsorption.Islanding.Server
import GripAbsorption.Islanding.Energy

namespace Grip.Islanding

open Grip.Base

variable {K : Type} [Field K] [LinearOrder K] {nbr ng nb nd : ℕ} {args : CoreArgs K nbr ng nb nd}
  {p : Plan K nbr ng nb nd} {msg : VIPayload K nbr ng nb nd}

/-! ## Limits -/

/-- The most a generator may deliver in a period. -/
def CoreArgs.genLimit (args : CoreArgs K nbr ng nb nd) (g : Fin ng) (k : Period) : K :=
  args.PgMax g * capacityFactorLinear args.solar k

/-- The generators at `n` have no limit above zero in period `k`. -/
def NoGen (args : CoreArgs K nbr ng nb nd) (n : ℕ) (k : Period) : Prop := ∀ g, args.G g = n → args.genLimit g k ≤ 0

/-- The loads at `n` are zero. -/
def NoLoad (args : CoreArgs K nbr ng nb nd) (n : ℕ) : Prop := ∀ d, args.D d = n → args.Pd0 d ≤ 0

/-- No battery at `n` but `b` has a limit above zero. -/
def OnlyBattery (args : CoreArgs K nbr ng nb nd) (n : ℕ) (b : Fin nb) : Prop :=
  ∀ b', args.B b' = n → b' ≠ b → args.PbMax b' ≤ 0

instance (n : ℕ) (k : Period) : Decidable (NoGen args n k) := inferInstanceAs (Decidable (∀ _, _ → _))

instance (n : ℕ) : Decidable (NoLoad args n) := inferInstanceAs (Decidable (∀ _, _ → _))

instance (n : ℕ) (b : Fin nb) : Decidable (OnlyBattery args n b) := inferInstanceAs (Decidable (∀ _, _ → _ → _))

theorem Feasible.pg_eq_zero (h : Feasible args p) (hmin : ∀ g, args.PgMin g = 0) {g : Fin ng} {k : Period}
    (hg : args.genLimit g k ≤ 0) : p.Pg g k = 0 := by
  have hp := h.pg g k
  rw [hmin g] at hp
  exact le_antisymm (hp.2.trans hg) hp.1

theorem Feasible.pd_eq_zero (h : Feasible args p) {d : Fin nd} (hd : args.Pd0 d ≤ 0) (k : Period) : p.Pd d k = 0 :=
  le_antisymm ((h.pd d k).2.trans hd) (h.pd d k).1

/-- The power of all batteries adds up to zero. -/
theorem Feasible.pb_sum (h : Feasible args p) (k : Period) : ∑ b, p.Pb b k = 0 := by
  have hsum := h.pbSum k
  simp only [mulVec_busMatrix] at hsum
  rw [sum_sumAt, Finset.filter_true_of_mem fun b _ => h.built.B b] at hsum
  exact hsum

/-! ## Plans of one node -/

/-- The plan that generates and serves loads without flows or batteries. -/
def localPlan (args : CoreArgs K nbr ng nb nd) (on off : Fin nbr → K) (Pg : Fin ng → Period → K) (Pd : Fin nd → Period → K) :
    Plan K nbr ng nb nd where
  switchOn := on
  switchOff := off
  Pg := Pg
  dPg := fun _ _ => 0
  Pb := fun _ _ => 0
  dPb := fun _ _ => 0
  Eb := fun b _ => args.E0 b
  dEb := fun b _ => args.E0 b
  Pd := Pd
  dPd := fun _ _ => 0
  ud := fun _ => 1
  flow := fun _ _ => 0
  dFlow := fun _ _ => 0
  R := 0
  GBvec := fun bus k => sumAt args.G (Pg · k) bus
  GBdvec := fun bus k => sumAt args.G (Pg · k) bus
  DFdvec := fun bus k => sumAt args.G (Pg · k) bus

/-- When nothing at all may happen, generators may serve the loads of their own bus. -/
theorem Feasible.local {on off : Fin nbr → K} (h : Feasible args (localPlan args on off (fun _ _ => 0) fun _ _ => 0))
    (Pg : Fin ng → Period → K) (Pd : Fin nd → Period → K) (hg : ∀ g k, args.PgMin g ≤ Pg g k ∧ Pg g k ≤ args.genLimit g k)
    (hd : ∀ d k, 0 ≤ Pd d k ∧ Pd d k ≤ args.Pd0 d)
    (hbal : ∀ k bus, sumAt args.G (Pg · k) bus = sumAt args.D (Pd · k) bus) :
    Feasible args (localPlan args on off Pg Pd) where
  built := h.built
  switches := h.switches
  pg := hg
  dPg := fun g k => by simpa [localPlan, CoreArgs.genLimit] using hg g k
  pb := h.pb
  dPb := h.dPb
  eb := h.eb
  dEb := h.dEb
  energyDay := h.energyDay
  energyNight := h.energyNight
  dEnergyDay := h.dEnergyDay
  dEnergyNight := h.dEnergyNight
  pd := hd
  dPd := h.dPd
  ud := h.ud
  udSum := h.udSum
  flow := h.flow
  dFlow := h.dFlow
  pbSum := h.pbSum
  generation := fun k bus _ => by simp only [localPlan, mulVec_busMatrix, sumAt_zero, add_zero]
  balance := fun k bus _ => by
    simp only [localPlan, mulVec_busMatrix, mulVec_incidenceMatrix, netOut_zero, zero_add]
    exact hbal k bus
  dGeneration := fun k bus _ => by simp only [localPlan, mulVec_busMatrix, sumAt_zero, add_zero]
  dDemand := fun k bus _ => by
    simp only [localPlan, mulVec_busMatrix, mulVec_incidenceMatrix, netOut_zero, add_zero]
    exact (hbal k bus).symm
  dBalance := fun k bus _ => rfl
  reserve := h.reserve

/-! ## Idle devices at faulted nodes -/

/-- No generator and no battery at a faulted node takes part in a feasible plan. -/
def FaultedIdle (msg : VIPayload K nbr ng nb nd) (args : CoreArgs K nbr ng nb nd) : Prop :=
  ∀ p, Feasible args p → ∀ k, (∀ g, msg.genBus g ∈ msg.faultedNodes → p.Pg g k = 0) ∧
    ∀ b, msg.batBus b ∈ msg.faultedNodes → p.Pb b k = 0

/-- A battery of the node is without a limit, or the only one with a limit, at its node and nothing else there is in
use, or in the whole network. -/
def BatteryIdle (args : CoreArgs K nbr ng nb nd) (n : ℕ) (k : Period) (b : Fin nb) : Prop :=
  args.PbMax b ≤ 0 ∨ (OnlyBattery args n b ∧ NoGen args n k ∧ NoLoad args n) ∨ ∀ b', b' ≠ b → args.PbMax b' ≤ 0

/-- At every faulted node in every period the limits leave nothing to do: the generators or the loads are at zero, and
every battery is idle. -/
def NothingToDo (msg : VIPayload K nbr ng nb nd) (args : CoreArgs K nbr ng nb nd) : Prop :=
  ∀ n ∈ msg.faultedNodes, ∀ k, (NoGen args n k ∨ NoLoad args n) ∧ ∀ b, args.B b = n → BatteryIdle args n k b

instance (n : ℕ) (k : Period) (b : Fin nb) : Decidable (BatteryIdle args n k b) := inferInstanceAs (Decidable (_ ∨ _ ∨ _))

instance : Decidable (NothingToDo msg args) := inferInstanceAs (Decidable (∀ n ∈ msg.faultedNodes, ∀ _, _ ∧ ∀ _, _ → _))

/-! ## The converse -/

/-- If nothing at all may happen and the devices at faulted nodes are idle in every feasible plan, then no faulted node
has both a generator and a load to serve. -/
theorem ServerArgs.noGen_or_noLoad (ha : ServerArgs msg args) (hmin : ∀ g, msg.genPmin g = 0) {on off : Fin nbr → K}
    (h : Feasible args (localPlan args on off (fun _ _ => 0) fun _ _ => 0)) (hf : FaultedIdle msg args) {n : ℕ}
    (hn : n ∈ msg.faultedNodes) (k : Period) : NoGen args n k ∨ NoLoad args n := by
  by_contra hno
  unfold NoGen NoLoad at hno
  push Not at hno
  obtain ⟨⟨g, hg, hglim⟩, d, hd, hdlim⟩ := hno
  have hmin' : ∀ g, args.PgMin g = 0 := by rw [ha.PgMin]; exact hmin
  -- the generator serves as much of the load as it can
  obtain ⟨c, hc, hcg, hcd⟩ : ∃ c, 0 < c ∧ c ≤ args.genLimit g k ∧ c ≤ args.Pd0 d :=
    ⟨min (args.genLimit g k) (args.Pd0 d), lt_min hglim hdlim, min_le_left _ _, min_le_right _ _⟩
  have hplan := h.local (fun g' k' => if k' = k then (if g' = g then c else 0) else 0)
    (fun d' k' => if k' = k then (if d' = d then c else 0) else 0) (fun g' k' => ?_) (fun d' k' => ?_) fun k' bus => ?_
  · have h0 := (hf _ hplan k).1 g (by rw [← ha.G, hg]; exact hn)
    simp only [localPlan, if_pos] at h0
    exact hc.ne' h0
  · rw [hmin' g']
    split
    · rename_i hk
      split
      · rename_i hg'
        rw [hk, hg']
        exact ⟨hc.le, hcg⟩
      · exact ⟨le_rfl, (h.pg g' k').2⟩
    · exact ⟨le_rfl, (h.pg g' k').2⟩
  · split
    · split
      · rename_i hd'
        rw [hd']
        exact ⟨hc.le, hcd⟩
      · exact ⟨le_rfl, (h.pd d' k').2⟩
    · exact ⟨le_rfl, (h.pd d' k').2⟩
  · split
    · rw [sumAt_single, sumAt_single, hg, hd]
    · rw [sumAt_zero, sumAt_zero]

/-! ## A faulted node -/

theorem Separated.single {n : ℕ} (hout : ∀ i, args.F i = n ∨ args.T i = n → args.closed p i = false) :
    Separated args p {n} := by
  intro i hi
  rw [Finset.mem_singleton, Finset.mem_singleton]
  constructor
  · intro hF
    rw [hout i (.inl hF)] at hi
    cases hi
  · intro hT
    rw [hout i (.inr hT)] at hi
    cases hi

variable [IsStrictOrderedRing K]

/-- The branches at a faulted node are left open. -/
theorem ServerArgs.open (ha : ServerArgs msg args) (h : Feasible args p) {n : ℕ} (hn : n ∈ msg.faultedNodes) (i : Fin nbr)
    (hi : args.F i = n ∨ args.T i = n) : args.closed p i = false := by
  obtain ⟨hst, hsw⟩ := ha.isolated i (by
    rcases hi with hi | hi
    · exact .inr (hi ▸ hn)
    · exact .inl (hi ▸ hn))
  have hval := (h.switches.fixed i).isBinary.2 hsw
  unfold CoreArgs.closed CoreArgs.brStatus
  rw [hval, hst]
  exact decide_eq_false (by norm_num [ofStatus])

/-- At a faulted node the generators and batteries cover the loads. -/
theorem ServerArgs.node_balance (ha : ServerArgs msg args) (h : Feasible args p) {n : ℕ} (hn : n ∈ msg.faultedNodes)
    (hbus : n ∈ Finset.Icc 1 args.nBus) (k : Period) :
    sumAt args.G (p.Pg · k) n + sumAt args.B (p.Pb · k) n = sumAt args.D (p.Pd · k) n := by
  have hbal := h.island_balance (S := {n}) (Finset.singleton_subset_iff.2 hbus) (.single (ha.open h hn)) k
  rw [← sum_sumAt, ← sum_sumAt, ← sum_sumAt, Finset.sum_singleton, Finset.sum_singleton, Finset.sum_singleton] at hbal
  exact hbal

theorem Feasible.pb_eq_zero (h : Feasible args p) {b : Fin nb} (hb : args.PbMax b ≤ 0) (k : Period) : p.Pb b k = 0 := by
  have hp := h.pb b k
  exact le_antisymm (hp.2.trans hb) (by linarith [hp.1])

theorem ServerArgs.faultedIdle (ha : ServerArgs msg args) (hmin : ∀ g, msg.genPmin g = 0) (hc : NothingToDo msg args) :
    FaultedIdle msg args := by
  intro p h k
  have hmin' : ∀ g, args.PgMin g = 0 := by rw [ha.PgMin]; exact hmin
  have batteries : ∀ n ∈ msg.faultedNodes, ∀ b, args.B b = n → p.Pb b k = 0 := by
    intro n hn b hb
    rcases (hc n hn k).2 b hb with h0 | ⟨honly, hgen, hload⟩ | hrest
    · exact h.pb_eq_zero h0 k
    · -- the node's balance leaves the battery alone
      have hbal := ha.node_balance h hn (hb ▸ h.built.B b) k
      rw [sumAt_eq_zero fun g hg => h.pg_eq_zero hmin' (hgen g hg),
        sumAt_eq_zero fun d hd => h.pd_eq_zero (hload d hd) k, zero_add,
        sumAt_eq_single hb fun b' hb' hne => h.pb_eq_zero (honly b' hb' hne) k] at hbal
      exact hbal
    · have hsum := h.pb_sum k
      rw [Finset.sum_eq_single b (fun b' _ hne => h.pb_eq_zero (hrest b' hne) k)
        fun hb => absurd (Finset.mem_univ b) hb] at hsum
      exact hsum
  refine ⟨fun g hg => ?_, fun b hb => batteries _ hb b (by rw [ha.B])⟩
  rw [← ha.G] at hg
  rcases (hc _ hg k).1 with hgen | hload
  · exact h.pg_eq_zero hmin' (hgen g rfl)
  · have hbal := ha.node_balance h hg (h.built.G g) k
    rw [sumAt_eq_zero fun b hb => batteries _ hg b hb, sumAt_eq_zero fun d hd => h.pd_eq_zero (hload d hd) k,
      add_zero] at hbal
    refine eq_zero_of_sumAt (fun g => ?_) hbal rfl
    have hp := (h.pg g k).1
    rw [hmin' g] at hp
    exact hp

/-- For every payload and every run of `find_cycles`: where the limits leave nothing to do at the faulted nodes, their
generators and batteries take no part in any feasible plan; and if they take no part although nothing has to happen,
no faulted node has both a generator and a load to serve. -/
theorem faulted_devices_idle (msg : VIPayload K nbr ng nb nd) (draws : ℕ → ℕ → ℕ) (args : CoreArgs K nbr ng nb nd)
    (hmin : ∀ g, msg.genPmin g = 0) (hargs : islandingArgs msg draws = .ok args) :
    (NothingToDo msg args → FaultedIdle msg args) ∧
    ∀ on off : Fin nbr → K, Feasible args (localPlan args on off (fun _ _ => 0) fun _ _ => 0) → FaultedIdle msg args →
      ∀ n ∈ msg.faultedNodes, ∀ k, NoGen args n k ∨ NoLoad args n :=
  ⟨(islandingArgs_spec hargs).faultedIdle hmin, fun _ _ h hf _ hn k => (islandingArgs_spec hargs).noGen_or_noLoad hmin h hf hn k⟩

/-! ## Two buses -/

/-- Bus 1 with a generator of the given status and a load, a switch to bus 2, and a fault at bus 1. -/
def faultedFeeder (status : ℚ) : VIPayload ℚ 1 1 0 1 where
  branchT := ![2]
  branchF := ![1]
  branchStatus := ![1]
  branchKind := !["switch"]
  genBus := ![1]
  genPmin := ![0]
  genStatus := ![status]
  genPmax := ![5]
  genSolar := ![0]
  batBus := ![]
  batStatus := ![]
  batPmax := ![]
  batEmax := ![]
  batSoc := ![]
  shuntBus := ![1]
  shuntP := ![2]
  faultedNodes := [1]

theorem faultedFeeder_args (status : ℚ) :
    islandingArgs (faultedFeeder status) (fun _ _ => 0) = .ok ((readVIPayload (faultedFeeder status)).outages.coreArgs []) := by
  have hrun : (findCycles ![2] ![1] fun _ _ => 0).toOption = some [] := by decide +kernel
  rw [toOption_eq_some] at hrun
  exact bind_ok.2 ⟨[], hrun, rfl⟩

/-- The generator is offline. -/
theorem offline_generator_idle : FaultedIdle (faultedFeeder 0) ((readVIPayload (faultedFeeder 0)).outages.coreArgs []) :=
  (faulted_devices_idle (faultedFeeder 0) _ _ (by decide +kernel) (faultedFeeder_args 0)).1 (by decide +kernel)

/-- The generator is online: at the faulted bus it may serve the load. -/
theorem online_generator_not_idle : (∀ g, (faultedFeeder 1).genPmin g = 0) ∧
    islandingArgs (faultedFeeder 1) (fun _ _ => 0) = .ok ((readVIPayload (faultedFeeder 1)).outages.coreArgs []) ∧
    ¬ FaultedIdle (faultedFeeder 1) ((readVIPayload (faultedFeeder 1)).outages.coreArgs []) := by
  refine ⟨by decide +kernel, faultedFeeder_args 1, fun h => ?_⟩
  have hf : Feasible ((readVIPayload (faultedFeeder 1)).outages.coreArgs []) (localPlan
      ((readVIPayload (faultedFeeder 1)).outages.coreArgs []) (fun _ => 0) (fun _ => 0) (fun _ _ => 2) fun _ _ => 2) := by
    constructor
    · constructor <;> decide +kernel
    · constructor <;> decide +kernel
    all_goals decide +kernel
  exact absurd ((h _ hf 0).1 0 (by decide +kernel)) (by decide +kernel)

end Grip.Islanding
