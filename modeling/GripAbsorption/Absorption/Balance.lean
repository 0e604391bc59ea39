/-
What `check_power_balance` achieves. The imbalance is the load less the power; when it is more than
15 kW, the first battery in the random order with room for all of it takes it over, and the loop does
nothing more. Which battery that is depends on the order, whether there is one does not. Batteries that
only together have room for the imbalance are all left as they are.
-/
import GripAbsorption.Absorption.Commit

namespace Grip.Absorption

open Grip.Base

/-! ## Imbalance and room -/

/-- The power of the batteries. -/
def PowerBalance.batPower (bal : PowerBalance) : ℚ := (bal.battP.rows.map (·.2)).sum

/-- The load in excess of the power. -/
def PowerBalance.imbalance (bal : PowerBalance) : ℚ := bal.nfload + bal.vbLoad - (bal.solarP + bal.batPower)

/-- Generation is within 15 kW of the load. -/
def PowerBalance.Balanced (bal : PowerBalance) : Prop := |bal.imbalance| ≤ 15

/-- A battery at `kW` takes over the imbalance within its rate: it discharges more when there is too much load, and
less when there is too much power. -/
def Network.HasRoom (net : Network) (imbalance : ℚ) (b : String) (kW : ℚ) : Prop :=
  if 0 < imbalance then kW + imbalance ≤ net.maxDischargeRate b else -net.maxChargeRate b ≤ kW + imbalance

/-- Some battery alone has room for the whole imbalance. -/
def Network.OneHasRoom (net : Network) (bal : PowerBalance) : Prop :=
  ∃ b kW, bal.battP.get? b = some kW ∧ net.HasRoom bal.imbalance b kW

/-- The sums over the batteries of what each can discharge more, or charge more. -/
def Network.dischargeHeadroom (net : Network) (bal : PowerBalance) : ℚ :=
  (bal.battP.rows.map fun r => net.maxDischargeRate r.1 - r.2).sum

def Network.chargeHeadroom (net : Network) (bal : PowerBalance) : ℚ :=
  (bal.battP.rows.map fun r => r.2 + net.maxChargeRate r.1).sum

namespace PowerBalance

instance (bal : PowerBalance) : Decidable bal.Balanced := inferInstanceAs (Decidable (_ ≤ _))

theorem balanced_iff {bal : PowerBalance} : bal.Balanced ↔
    bal.nfload + bal.vbLoad - 15 ≤ bal.solarP + bal.batPower ∧ bal.solarP + bal.batPower ≤ bal.nfload + bal.vbLoad + 15 := by
  unfold Balanced imbalance
  rw [abs_le]
  constructor
  · rintro ⟨h1, h2⟩
    constructor <;> linarith
  · rintro ⟨h1, h2⟩
    constructor <;> linarith

/-- The balance when battery `b`, now at `kW`, takes over the imbalance. -/
def takeOver (bal : PowerBalance) (b : String) (kW : ℚ) : PowerBalance :=
  { bal with battP := bal.battP.put b (kW + bal.imbalance) }

theorem batPower_takeOver {bal : PowerBalance} {b : String} {kW : ℚ} (h : bal.battP.get? b = some kW) :
    (bal.takeOver b kW).batPower = bal.batPower + bal.imbalance := by
  have hsum := Table.sum_set Prod.snd (a := (b, kW + bal.imbalance)) (Dict.get?_eq_some.1 h) rfl
  unfold batPower takeOver Dict.put
  linarith

/-- Nothing is out of balance then. -/
theorem imbalance_takeOver {bal : PowerBalance} {b : String} {kW : ℚ} (h : bal.battP.get? b = some kW) :
    (bal.takeOver b kW).imbalance = 0 := by
  have hpower := batPower_takeOver h
  unfold imbalance at *
  rw [hpower]
  unfold takeOver
  ring

end PowerBalance

namespace Globals

/-! ## The loop -/

section

variable {room : String → ℚ → ℚ → Bool} {sign : ℚ} {battP : Dict String ℚ}

/-- Once the difference is 0 nothing changes any more. -/
theorem foldl_balanceTurn_zero : ∀ batts : List String,
    (batts.foldl (balanceTurn room sign) (battP, 0)).1 = battP
  | [] => rfl
  | b :: batts => by
    have hstep : balanceTurn room sign (battP, 0) b = (battP, 0) := by
      unfold balanceTurn
      cases hb : battP.get? b <;> simp [hb]
    rw [List.foldl_cons, hstep]
    exact foldl_balanceTurn_zero batts

/-- The first inverter of the order that has room takes the difference; without one all stay. -/
theorem foldl_balanceTurn {diff : ℚ} (hd : diff ≠ 0) : ∀ batts : List String,
    (∃ b ∈ batts, ∃ kW, battP.get? b = some kW ∧ room b kW diff = true ∧
      (batts.foldl (balanceTurn room sign) (battP, diff)).1 = battP.put b (kW + sign * diff)) ∨
    (∀ b ∈ batts, ∀ kW, battP.get? b = some kW → room b kW diff = false) ∧
      (batts.foldl (balanceTurn room sign) (battP, diff)).1 = battP
  | [] => .inr ⟨by simp, rfl⟩
  | b :: batts => by
    -- the head takes it, or leaves everything to the rest
    by_cases hroom : ∃ kW, battP.get? b = some kW ∧ room b kW diff = true
    · obtain ⟨kW, hb, hr⟩ := hroom
      have hstep : balanceTurn room sign (battP, diff) b = (battP.put b (kW + sign * diff), 0) := by
        simp [balanceTurn, hb, hr, hd]
      refine .inl ⟨b, List.mem_cons_self .., kW, hb, hr, ?_⟩
      rw [List.foldl_cons, hstep]
      exact foldl_balanceTurn_zero batts
    · have hnone : ∀ kW, battP.get? b = some kW → room b kW diff = false := fun kW hb => by
        by_contra hr
        exact hroom ⟨kW, hb, by simpa using hr⟩
      have hstep : balanceTurn room sign (battP, diff) b = (battP, diff) := by
        unfold balanceTurn
        cases hb : battP.get? b with
        | none => simp [hb]
        | some kW => simp [hb, hnone kW hb]
      rw [List.foldl_cons, hstep]
      rcases foldl_balanceTurn hd batts with ⟨c, hc, h⟩ | ⟨hall, h⟩
      · exact .inl ⟨c, List.mem_cons_of_mem _ hc, h⟩
      · refine .inr ⟨fun c hc => ?_, h⟩
        rcases List.mem_cons.1 hc with rfl | hc
        exacts [hnone, hall c hc]

end

/-! ## One check -/

section

variable (net : Network) (draws : ℕ → ℕ) {bal : PowerBalance}

theorem checkPowerBalance_of_balanced (h : bal.Balanced) : checkPowerBalance net draws bal = bal :=
  if_pos (PowerBalance.balanced_iff.1 h)

/-- Too much load: the difference is the imbalance, and added. -/
theorem checkPowerBalance_of_load (h : 15 < bal.imbalance) : checkPowerBalance net draws bal =
    { bal with battP := ((shuffle draws bal.battP.keys).foldl
        (balanceTurn (fun b kW diff => kW ≤ net.maxDischargeRate b - diff) 1) (bal.battP, bal.imbalance)).1 } := by
  have hlt : bal.solarP + bal.batPower < bal.nfload + bal.vbLoad - 15 := by
    unfold PowerBalance.imbalance at h
    linarith
  exact (if_neg fun hb => hlt.not_ge hb.1).trans (if_pos hlt)

/-- Too much power: the difference is the imbalance with the other sign, and subtracted. -/
theorem checkPowerBalance_of_power (h : bal.imbalance < -15) : checkPowerBalance net draws bal =
    { bal with battP := ((shuffle draws bal.battP.keys).foldl
        (balanceTurn (fun b kW diff => -net.maxChargeRate b + diff ≤ kW) (-1)) (bal.battP, -bal.imbalance)).1 } := by
  have hlt : bal.nfload + bal.vbLoad + 15 < bal.solarP + bal.batPower := by
    unfold PowerBalance.imbalance at h
    linarith
  have hdiff : -bal.imbalance = bal.solarP + bal.batPower - (bal.nfload + bal.vbLoad) := neg_sub _ _
  rw [hdiff]
  refine (if_neg fun hb => hlt.not_ge hb.2).trans ((if_neg ?_).trans (if_pos ?_))
  · change ¬ bal.solarP + bal.batPower < bal.nfload + bal.vbLoad - 15
    linarith
  · change bal.nfload + bal.vbLoad - 15 < bal.solarP + bal.batPower
    linarith

/-- The loop of either branch, whose test asks for the room and whose signed difference is the imbalance. -/
theorem takeOver_of_turns {room : String → ℚ → ℚ → Bool} {sign diff : ℚ} (hd : diff ≠ 0) (himb : sign * diff = bal.imbalance)
    (hroom : ∀ b kW, room b kW diff = true ↔ net.HasRoom bal.imbalance b kW) {out : PowerBalance}
    (hout : out = { bal with
      battP := ((shuffle draws bal.battP.keys).foldl (balanceTurn room sign) (bal.battP, diff)).1 }) :
    ¬ net.OneHasRoom bal ∧ out = bal ∨
      ∃ b kW, bal.battP.get? b = some kW ∧ net.HasRoom bal.imbalance b kW ∧ out = bal.takeOver b kW := by
  rcases @foldl_balanceTurn room sign bal.battP diff hd (shuffle draws bal.battP.keys) with
    ⟨b, -, kW, hb, hr, h⟩ | ⟨hall, h⟩
  · refine .inr ⟨b, kW, hb, (hroom b kW).1 hr, ?_⟩
    rw [hout, h, himb]
    rfl
  · refine .inl ⟨?_, by rw [hout, h]⟩
    rintro ⟨b, kW, hb, hr⟩
    have hmem : b ∈ shuffle draws bal.battP.keys := mem_shuffle.2 (Dict.mem_keys_iff.2 ⟨kW, hb⟩)
    have hno := hall b hmem kW hb
    rw [(hroom b kW).2 hr] at hno
    cases hno

/-- What a check does: nothing while the island is balanced or no battery has room, and else one battery
with room takes over the imbalance. -/
theorem checkPowerBalance_cases (bal : PowerBalance) :
    (bal.Balanced ∨ ¬ net.OneHasRoom bal) ∧ checkPowerBalance net draws bal = bal ∨
    ¬ bal.Balanced ∧ ∃ b kW, bal.battP.get? b = some kW ∧ net.HasRoom bal.imbalance b kW ∧
      checkPowerBalance net draws bal = bal.takeOver b kW := by
  by_cases hbal : bal.Balanced
  · exact .inl ⟨.inl hbal, checkPowerBalance_of_balanced net draws hbal⟩
  suffices h : ¬ net.OneHasRoom bal ∧ checkPowerBalance net draws bal = bal ∨
      ∃ b kW, bal.battP.get? b = some kW ∧ net.HasRoom bal.imbalance b kW ∧
        checkPowerBalance net draws bal = bal.takeOver b kW from h.imp (And.imp_left .inr) (⟨hbal, ·⟩)
  rcases lt_abs.1 (not_le.1 hbal) with hload | hpower
  · refine takeOver_of_turns net draws (by linarith) (one_mul _) (fun b kW => ?_) (checkPowerBalance_of_load net draws hload)
    rw [decide_eq_true_iff, Network.HasRoom, if_pos (by linarith), le_sub_iff_add_le]
  · refine takeOver_of_turns net draws (by linarith) (by ring) (fun b kW => ?_)
      (checkPowerBalance_of_power net draws (by linarith))
    rw [decide_eq_true_iff, Network.HasRoom, if_neg (by linarith)]
    constructor <;> intro h <;> linarith

end

/-- One battery took over the imbalance, within its rate, and nothing else changed. -/
structure Corrected (net : Network) (bal out : PowerBalance) (b : String) (kW : ℚ) : Prop where
  before : bal.battP.get? b = some kW
  after : out.battP.get? b = some (kW + bal.imbalance)
  moved : kW + bal.imbalance ≠ kW
  discharge : 0 < bal.imbalance → kW + bal.imbalance ≤ net.maxDischargeRate b
  charge : bal.imbalance < 0 → -net.maxChargeRate b ≤ kW + bal.imbalance
  others : ∀ c, c ≠ b → out.battP.get? c = bal.battP.get? c
  keys : out.battP.keys = bal.battP.keys
  loads : out.solarP = bal.solarP ∧ out.nfload = bal.nfload ∧ out.vbLoad = bal.vbLoad
  exact : out.solarP + out.batPower = out.nfload + out.vbLoad
  again : ∀ draws, checkPowerBalance net draws out = out

theorem corrected_takeOver {net : Network} {bal : PowerBalance} {b : String} {kW : ℚ} (hbal : ¬ bal.Balanced)
    (hb : bal.battP.get? b = some kW) (hr : net.HasRoom bal.imbalance b kW) :
    Corrected net bal (bal.takeOver b kW) b kW := by
  have himb := PowerBalance.imbalance_takeOver hb
  have hget : ∀ c, (bal.takeOver b kW).battP.get? c = if b = c then some (kW + bal.imbalance) else bal.battP.get? c :=
    fun c => Dict.get?_put ..
  have hne : bal.imbalance ≠ 0 := fun h => hbal (by unfold PowerBalance.Balanced; rw [h]; norm_num)
  unfold Network.HasRoom at hr
  refine ⟨hb, (hget b).trans (if_pos rfl), fun h => hne (by linarith), fun h => ?_, fun h => ?_, fun c hc => ?_, ?_,
    ⟨rfl, rfl, rfl⟩, ?_, fun draws => ?_⟩
  · rwa [if_pos h] at hr
  · rwa [if_neg h.not_gt] at hr
  · exact (hget c).trans (if_neg fun h => hc h.symm)
  · exact Table.keys_set_of_mem (Dict.mem_keys_iff.2 ⟨kW, hb⟩)
  · exact (sub_eq_zero.1 himb).symm
  · apply checkPowerBalance_of_balanced
    unfold PowerBalance.Balanced
    rw [himb]
    norm_num

/-- For every balance, all rates and every order: a check changes nothing while the island is balanced or no battery
alone has room for the imbalance, and otherwise one battery takes it over exactly; which of the two it is does not
depend on the order. -/
theorem checkPowerBalance_moves_one (net : Network) (bal : PowerBalance) :
    (bal.Balanced ∨ ¬ net.OneHasRoom bal → ∀ draws, checkPowerBalance net draws bal = bal) ∧
    (¬ bal.Balanced → net.OneHasRoom bal → ∀ draws, ∃ b kW, Corrected net bal (checkPowerBalance net draws bal) b kW) ∧
    ∀ draws draws', checkPowerBalance net draws bal = bal ↔ checkPowerBalance net draws' bal = bal := by
  have hkeep : bal.Balanced ∨ ¬ net.OneHasRoom bal → ∀ draws, checkPowerBalance net draws bal = bal := by
    intro h draws
    rcases checkPowerBalance_cases net draws bal with ⟨-, heq⟩ | ⟨hbal, b, kW, hb, hr, -⟩
    · exact heq
    · exact absurd ⟨b, kW, hb, hr⟩ (h.resolve_left hbal)
  have hmove : ¬ bal.Balanced → net.OneHasRoom bal → ∀ draws,
      ∃ b kW, Corrected net bal (checkPowerBalance net draws bal) b kW := by
    intro hbal hroom draws
    rcases checkPowerBalance_cases net draws bal with ⟨h, -⟩ | ⟨-, b, kW, hb, hr, heq⟩
    · exact (h.elim hbal fun h => h hroom).elim
    · exact ⟨b, kW, heq ▸ corrected_takeOver hbal hb hr⟩
  refine ⟨hkeep, hmove, fun draws draws' => ?_⟩
  by_cases h : bal.Balanced ∨ ¬ net.OneHasRoom bal
  · rw [hkeep h draws, hkeep h draws']
  · rw [not_or, not_not] at h
    have hchange : ∀ draws, checkPowerBalance net draws bal ≠ bal := fun draws heq => by
      obtain ⟨b, kW, hc⟩ := hmove h.1 h.2 draws
      have hafter := hc.after
      rw [heq, hc.before] at hafter
      exact hc.moved (Option.some.inj hafter).symm
    exact iff_of_false (hchange draws) (hchange draws')

/-- Two inverters that can be charged and discharged at a rate. -/
def ratedFeeders (rate : ℚ) : Network := { twoFeeders with maxChargeRate := fun _ => rate, maxDischargeRate := fun _ => rate }

/-- A load of 20 kW, which no power meets; both batteries are at rest. -/
def darkIsland : PowerBalance := ⟨0, 20, ⟨[("inverter_101", 0), ("inverter_102", 0)], by decide⟩, 0⟩

/-- At a rate of 30 kW either battery can serve the load. -/
theorem darkIsland_served : ∃ b kW,
    Corrected (ratedFeeders 30) darkIsland (checkPowerBalance (ratedFeeders 30) (fun _ => 1) darkIsland) b kW := by
  have hroom : (ratedFeeders 30).OneHasRoom darkIsland := by
    refine ⟨"inverter_101", 0, by decide, ?_⟩
    unfold Network.HasRoom
    rw [if_pos (by decide +kernel)]
    decide +kernel
  exact (checkPowerBalance_moves_one (ratedFeeders 30) darkIsland).2.1 (by decide +kernel) hroom _

/-! ## Batteries together -/

/-- The batteries together have the headroom for an imbalance of more than 15 kW. -/
def CanBalance (net : Network) (bal : PowerBalance) : Prop :=
  15 < bal.imbalance ∧ bal.imbalance ≤ net.dischargeHeadroom bal ∨
    bal.imbalance < -15 ∧ -bal.imbalance ≤ net.chargeHeadroom bal

instance (net : Network) (bal : PowerBalance) : Decidable (CanBalance net bal) := inferInstanceAs (Decidable (_ ∨ _))

theorem balanced_checkPowerBalance (net : Network) (draws : ℕ → ℕ) (bal : PowerBalance) :
    (checkPowerBalance net draws bal).Balanced ↔ bal.Balanced ∨ net.OneHasRoom bal := by
  rcases checkPowerBalance_cases net draws bal with ⟨h, heq⟩ | ⟨hbal, b, kW, hb, hr, heq⟩
  · rw [heq]
    exact ⟨.inl, fun hor => hor.elim id fun hroom => h.resolve_right fun hn => hn hroom⟩
  · refine iff_of_true ?_ (.inr ⟨b, kW, hb, hr⟩)
    rw [heq, PowerBalance.Balanced, PowerBalance.imbalance_takeOver hb]
    norm_num

/-- For every balance, all rates and every order: whenever the batteries together have the headroom the result is
balanced, if and only if this headroom is there only when one of the batteries alone has room for the imbalance. -/
theorem balances_together_iff (net : Network) (draws : ℕ → ℕ) (bal : PowerBalance) :
    (CanBalance net bal → (checkPowerBalance net draws bal).Balanced) ↔ (CanBalance net bal → net.OneHasRoom bal) := by
  refine imp_congr_right fun hcan => ?_
  have hbal : ¬ bal.Balanced := by
    unfold PowerBalance.Balanced
    rw [not_le, lt_abs]
    rcases hcan with ⟨h, -⟩ | ⟨h, -⟩
    · exact .inl h
    · exact .inr (by linarith)
  rw [balanced_checkPowerBalance, or_iff_right hbal]

/-- At a rate of 12 kW the two batteries can serve the load together, and neither is asked to. -/
theorem darkIsland_not_served : CanBalance (ratedFeeders 12) darkIsland ∧
    checkPowerBalance (ratedFeeders 12) (fun _ => 0) darkIsland = darkIsland ∧
    ¬ (checkPowerBalance (ratedFeeders 12) (fun _ => 0) darkIsland).Balanced := by
  have hbal : ¬ darkIsland.Balanced := by decide +kernel
  have hnone : ¬ (ratedFeeders 12).OneHasRoom darkIsland := by
    rintro ⟨b, kW, hb, hr⟩
    have hzero : kW = 0 := by
      rw [Dict.get?_eq_some] at hb
      simp only [darkIsland, List.mem_cons, Prod.mk.injEq, List.not_mem_nil, or_false] at hb
      rcases hb with ⟨-, h⟩ | ⟨-, h⟩ <;> exact h
    rw [hzero, Network.HasRoom, if_pos (by decide +kernel)] at hr
    have hle : 0 + darkIsland.imbalance ≤ 12 := hr
    exact absurd hle (by decide +kernel)
  rcases checkPowerBalance_cases (ratedFeeders 12) (fun _ => 0) darkIsland with ⟨-, h⟩ | ⟨-, b, kW, hb, hr, -⟩
  · exact ⟨by decide +kernel, h, by rw [h]; exact hbal⟩
  · exact absurd ⟨b, kW, hb, hr⟩ hnone

end Globals

end Grip.Absorption
