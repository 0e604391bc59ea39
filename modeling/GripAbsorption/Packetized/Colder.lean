/-
Two water heaters that are due, one colder than the other. Inside the band the colder one asks with at
least the probability of the warmer one, and below it the colder one is turned on; but a heater exactly
at the lower limit is neither inside the band nor below it.
-/
import GripAbsorption.Packetized.Pem

namespace Grip.Packetized

open Grip.Base

/-! ## The die -/

/-- `r_random() < (1.0 - np.exp(-u))` for a draw `r`. -/
noncomputable def expDice (r : ℝ) : Dice ℝ := fun _ u => decide (r < 1 - Real.exp (-u))

/-- The exponent of the request probability. -/
noncomputable def requestExponent (soc : ℝ) : ℝ := (1 - soc) / (soc - 0) * (((30 : ℕ) : ℝ) / ((180 : ℕ) : ℝ))

/-- Less charge gives a larger exponent. -/
theorem requestExponent_antitone {soc soc' : ℝ} (hpos : 0 < soc) (hle : soc ≤ soc') (hone : soc' ≤ 1) :
    requestExponent soc' ≤ requestExponent soc := by
  unfold requestExponent
  rw [sub_zero, sub_zero]
  refine mul_le_mul_of_nonneg_right ?_ (by norm_num)
  exact div_le_div₀ (by linarith) (by linarith) hpos hle

theorem reqDieRoll_expDice {soc r : ℝ} (hpos : 0 < soc) (hone : soc < 1) (k : ℕ) :
    reqDieRoll (expDice r k) soc = true ↔ r < 1 - Real.exp (-requestExponent soc) := by
  unfold reqDieRoll
  rw [if_neg (not_le.2 hpos), if_neg (not_le.2 hone)]
  exact decide_eq_true_iff

/-! ## A heater that is due -/

/-- A device is given power: it asks, or is in `EXIT_ON`. -/
def Served (result : VbDevice ℝ × Option (Effect ℝ)) : Prop :=
  (∃ req, result.2 = some (.powerRequest req)) ∨ result.1.pemState = .exitOn

/-- A water heater in `PEM_OFF` at or after its deadline, with its current temperature. -/
structure DueHeater (gld : Gld ℝ) (time : ℤ) (w : GldWaterHeater ℝ) (d : VbDevice ℝ) : Prop where
  gldDev : d.gldDev = .waterHeater w
  fresh : d.Fresh gld
  state : d.pemState = .pemOff
  due : d.stateEndsAt ≤ time

section

variable {gld : Gld ℝ} {time : ℤ} {w : GldWaterHeater ℝ} {d : VbDevice ℝ} {r : ℝ}

/-- The band is 20 degrees wide. -/
theorem GldWaterHeater.upperTemp_eq (w : GldWaterHeater ℝ) : w.upperTemp = w.lowerTemp + 20 := by
  unfold upperTemp lowerTemp pemRange
  ring

theorem DueHeater.soc_eq (h : DueHeater gld time w d) : w.soc = (w.temperature - w.lowerTemp) / 20 := by
  have hfresh := h.fresh
  unfold VbDevice.Fresh at hfresh
  rw [h.gldDev] at hfresh
  have hw : w.updateFromGld gld = w := GldDev.waterHeater.inj hfresh
  have hT : w.temperature = (gld w.id).temperature := (congrArg GldWaterHeater.temperature hw).symm
  have hsoc : w.soc = ((gld w.id).temperature - w.lowerTemp) / (w.upperTemp - w.lowerTemp) :=
    (congrArg GldWaterHeater.soc hw).symm
  rw [hsoc, w.upperTemp_eq, add_sub_cancel_left, ← hT]

/-- Where the temperature puts the heater. -/
theorem zone_waterHeater (w : GldWaterHeater ℝ) : (GldDev.waterHeater w).zone =
    if w.temperature < w.lowerTemp then .needsOn else if w.upperTemp < w.temperature then .needsOff else .comfort := by
  unfold GldDev.zone GldDev.checkStat
  simp only [GldWaterHeater.checkStat_exitOn, GldWaterHeater.checkStat_exitOff, decide_eq_true_eq, add_zero]
  rfl

/-- The request test rolls the die inside the band. -/
theorem checkStat_request_waterHeater (w : GldWaterHeater ℝ) (dice : Dice ℝ) :
    (GldDev.waterHeater w).checkStat dice .request 0 = true ↔
      (w.lowerTemp < w.temperature ∧ w.temperature < w.upperTemp) ∧ reqDieRoll (dice 0) w.soc = true := by
  have hband : (w.setpoint - (GldWaterHeater.pemRange + 0) < w.temperature ∧
      w.temperature < w.setpoint + (GldWaterHeater.pemRange + 0)) ↔ w.lowerTemp < w.temperature ∧ w.temperature < w.upperTemp := by
    rw [add_zero]
    rfl
  unfold GldDev.checkStat GldWaterHeater.checkStat
  simp only [hband, and_true, reduceCtorEq, and_false, if_false]
  split_ifs with h
  · exact (and_iff_right h).symm
  · exact iff_of_false not_false fun hb => h hb.1

/-- Inside the band the state of charge is between 0 and 1. -/
theorem DueHeater.soc_mem (h : DueHeater gld time w d) (hband : w.lowerTemp < w.temperature ∧ w.temperature < w.upperTemp) :
    0 < w.soc ∧ w.soc < 1 := by
  have hwidth := w.upperTemp_eq
  rw [h.soc_eq, div_lt_one (by norm_num)]
  exact ⟨div_pos (by linarith) (by norm_num), by linarith⟩

theorem DueHeater.roll_iff (h : DueHeater gld time w d) (hband : w.lowerTemp < w.temperature ∧ w.temperature < w.upperTemp) :
    reqDieRoll (expDice r 0) w.soc = true ↔ r < 1 - Real.exp (-requestExponent w.soc) :=
  reqDieRoll_expDice (h.soc_mem hband).1 (h.soc_mem hband).2 0

/-- A due heater is served below the band, and inside it when the die says so. -/
theorem DueHeater.served_iff (h : DueHeater gld time w d) : Served (d.pem gld (expDice r) time) ↔
    w.temperature < w.lowerTemp ∨ (w.lowerTemp < w.temperature ∧ w.temperature < w.upperTemp) ∧
      r < 1 - Real.exp (-requestExponent w.soc) := by
  have hout := VbDevice.pem_outcome (expDice r) time h.fresh
  have hzone := zone_waterHeater w
  rw [← h.gldDev] at hzone
  by_cases hlow : w.temperature < w.lowerTemp
  · -- below the band it enters `EXIT_ON`
    rw [if_pos hlow] at hzone
    refine iff_of_true ?_ (.inl hlow)
    generalize d.pem gld (expDice r) time = result at hout
    cases hout with
    | comfortOn _ _ hstate => exact .inr hstate
    | comfortOff hz | keepOn hz | waits hz | asks hz | idles hz => rw [hzone] at hz; cases hz
  rw [if_neg hlow] at hzone
  by_cases hupp : w.upperTemp < w.temperature
  · -- above it `EXIT_OFF`
    rw [if_pos hupp] at hzone
    refine iff_of_false ?_ (not_or.2 ⟨hlow, fun hb => hb.1.2.not_gt hupp⟩)
    generalize d.pem gld (expDice r) time = result at hout
    cases hout with
    | comfortOff _ _ hstate =>
      rintro (⟨req, hreq⟩ | hon)
      · cases hreq
      · rw [hstate] at hon
        cases hon
    | comfortOn hz | keepOn hz | waits hz | asks hz | idles hz => rw [hzone] at hz; cases hz
  · -- in the comfort zone the request test decides
    rw [if_neg hupp] at hzone
    rw [VbDevice.pem_off_comfort h.fresh h.state hzone, VbDevice.pemOff, if_neg (not_lt.2 h.due), h.gldDev]
    split_ifs with hreq
    · rw [checkStat_request_waterHeater] at hreq
      exact iff_of_true (.inl ⟨_, rfl⟩) (.inr ⟨hreq.1, (h.roll_iff hreq.1).1 hreq.2⟩)
    · refine iff_of_false ?_ (not_or.2 ⟨hlow, fun hb => hreq ?_⟩)
      · rintro (⟨req, hreq⟩ | hon)
        · cases hreq
        · rw [VbDevice.pemState_update, Option.getD_none, h.state] at hon
          cases hon
      · exact (checkStat_request_waterHeater w _).2 ⟨hb.1, (h.roll_iff hb.1).2 hb.2⟩

end

/-! ## Colder and warmer -/

section

variable {gld gld' : Gld ℝ} {time : ℤ} {w w' : GldWaterHeater ℝ} {d d' : VbDevice ℝ} {r : ℝ}

/-- A heater that is not at the lower limit is served when a warmer one is. -/
theorem DueHeater.served_of_warmer (h : DueHeater gld time w d) (h' : DueHeater gld' time w' d')
    (hsp : w'.setpoint = w.setpoint) (hle : w.temperature ≤ w'.temperature) (hne : w.temperature ≠ w.lowerTemp)
    (hserved : Served (d'.pem gld' (expDice r) time)) : Served (d.pem gld (expDice r) time) := by
  have hlow : w'.lowerTemp = w.lowerTemp := congrArg (· - _) hsp
  have hupp : w'.upperTemp = w.upperTemp := congrArg (· + _) hsp
  rw [h'.served_iff, hlow, hupp] at hserved
  rw [h.served_iff]
  rcases lt_or_gt_of_ne hne with hbelow | habove
  · exact .inl hbelow
  · rcases hserved with hbelow' | ⟨hband', hroll⟩
    · exact .inl (hle.trans_lt hbelow')
    · have hband : w.lowerTemp < w.temperature ∧ w.temperature < w.upperTemp := ⟨habove, hle.trans_lt hband'.2⟩
      refine .inr ⟨hband, hroll.trans_le ?_⟩
      -- the colder heater has less charge
      have hsoc : w.soc ≤ w'.soc := by
        rw [h.soc_eq, h'.soc_eq, hlow]
        linarith
      have hone : w'.soc < 1 := (h'.soc_mem ⟨hlow ▸ hband'.1, hupp ▸ hband'.2⟩).2
      have hexp := Real.exp_le_exp.2 (neg_le_neg (requestExponent_antitone (h.soc_mem hband).1 hsoc hone.le))
      linarith

/-- A heater at the lower limit is not served. -/
theorem DueHeater.not_served (h : DueHeater gld time w d) (hlim : w.temperature = w.lowerTemp) :
    ¬ Served (d.pem gld (expDice r) time) := by
  rw [h.served_iff, hlim]
  rintro (hlt | ⟨⟨hlt, -⟩, -⟩)
  · exact lt_irrefl _ hlt
  · exact lt_irrefl _ hlt

/-- The draw 0 makes every heater inside the band ask. -/
theorem DueHeater.served_zero (h : DueHeater gld time w d)
    (hband : w.lowerTemp < w.temperature ∧ w.temperature < w.upperTemp) : Served (d.pem gld (expDice 0) time) := by
  rw [h.served_iff]
  refine .inr ⟨hband, ?_⟩
  obtain ⟨hpos, hone⟩ := h.soc_mem hband
  have hexp : 0 < requestExponent w.soc := by
    unfold requestExponent
    rw [sub_zero]
    exact mul_pos (div_pos (sub_pos.2 hone) hpos) (by norm_num)
  exact sub_pos.2 (Real.exp_lt_one_iff.2 (neg_neg_of_pos hexp))

end

/-- A water heater with the given set point and temperature. -/
noncomputable def heaterAt (setpoint T : ℝ) : GldWaterHeater ℝ := .init (fun _ => ⟨T, 0, 0⟩) 1 setpoint

/-- The device, due now. -/
noncomputable def dueAt (time : ℤ) (setpoint T : ℝ) : VbDevice ℝ := ⟨.waterHeater (heaterAt setpoint T), .pemOff, time, 0, 0⟩

theorem dueHeater_dueAt (time : ℤ) (setpoint T : ℝ) :
    DueHeater (fun _ => ⟨T, 0, 0⟩) time (heaterAt setpoint T) (dueAt time setpoint T) :=
  ⟨rfl, rfl, rfl, le_rfl⟩

/-- A colder heater is served when a warmer one is, unless it is exactly at the lower limit and the warmer one asks; for
all warmer ones and all draws that is so exactly when it is not at the limit. -/
theorem served_of_warmer_iff {gld : Gld ℝ} {time : ℤ} {w : GldWaterHeater ℝ} {d : VbDevice ℝ} (h : DueHeater gld time w d) :
    (∀ gld' w' d' r, DueHeater gld' time w' d' → w'.setpoint = w.setpoint → w.temperature ≤ w'.temperature →
      ((Served (d'.pem gld' (expDice r) time) → Served (d.pem gld (expDice r) time)) ↔
        (w.temperature = w.setpoint - 10 → ¬ (w'.setpoint - 10 < w'.temperature ∧ w'.temperature < w'.setpoint + 10 ∧
          r < 1 - Real.exp (-requestExponent w'.soc))))) ∧
    ((∀ gld' w' d' r, DueHeater gld' time w' d' → w'.setpoint = w.setpoint → w.temperature ≤ w'.temperature →
      0 ≤ r → r < 1 → Served (d'.pem gld' (expDice r) time) → Served (d.pem gld (expDice r) time)) ↔
        w.temperature ≠ w.setpoint - 10) := by
  refine ⟨fun gld' w' d' r h' hsp hle => ⟨fun hmono hlim hask => ?_, fun hno hserved => ?_⟩, ?_, ?_⟩
  · exact h.not_served hlim (hmono (h'.served_iff.2 (.inr ⟨⟨hask.1, hask.2.1⟩, hask.2.2⟩)))
  · by_cases hlim : w.temperature = w.setpoint - 10
    · refine absurd (h'.served_iff.1 hserved) (not_or.2 ⟨?_, fun hask => hno hlim ⟨hask.1.1, hask.1.2, hask.2⟩⟩)
      have hlow : w'.lowerTemp = w.temperature := (congrArg (· - (10 : ℝ)) hsp).trans hlim.symm
      rw [hlow]
      exact not_lt.2 hle
    · exact h.served_of_warmer h' hsp hle hlim hserved
  · intro hmono hlim
    -- a heater at the middle of the band
    have h' := dueHeater_dueAt time w.setpoint w.setpoint
    have hserved := h'.served_zero ⟨show w.setpoint - 10 < w.setpoint by linarith, show w.setpoint < w.setpoint + 10 by linarith⟩
    refine h.not_served hlim (hmono _ _ _ 0 h' rfl ?_ le_rfl one_pos hserved)
    rw [hlim]
    exact show w.setpoint - 10 ≤ w.setpoint by linarith
  · intro hne gld' w' d' r h' hsp hle _ _
    exact h.served_of_warmer h' hsp hle hne

/-- At 115 degrees a heater is served when one at 125 degrees is. -/
theorem heater_served : Served ((dueAt 0 120 115).pem (fun _ => ⟨115, 0, 0⟩) (expDice 0) 0) := by
  have h := dueHeater_dueAt 0 120 125
  refine (served_of_warmer_iff (dueHeater_dueAt 0 120 115)).2.2 ?_ _ _ _ 0 h rfl ?_ le_rfl one_pos (h.served_zero ⟨?_, ?_⟩)
  · exact show (115 : ℝ) ≠ 120 - 10 by norm_num
  · exact show (115 : ℝ) ≤ 125 by norm_num
  · exact show (120 : ℝ) - 10 < 125 by norm_num
  · exact show (125 : ℝ) < 120 + 10 by norm_num

/-- At 110 degrees it is not, while one at 120 degrees asks. -/
theorem limit_not_served : Served ((dueAt 0 120 120).pem (fun _ => ⟨120, 0, 0⟩) (expDice 0) 0) ∧
    ¬ Served ((dueAt 0 120 110).pem (fun _ => ⟨110, 0, 0⟩) (expDice 0) 0) := by
  refine ⟨(dueHeater_dueAt 0 120 120).served_zero ⟨?_, ?_⟩, (dueHeater_dueAt 0 120 110).not_served ?_⟩
  · exact show (120 : ℝ) - 10 < 120 by norm_num
  · exact show (120 : ℝ) < 120 + 10 by norm_num
  · exact show (110 : ℝ) = 120 - 10 by norm_num

end Grip.Packetized
