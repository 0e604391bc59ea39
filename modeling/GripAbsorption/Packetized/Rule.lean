/-
The state `pem` leaves a device in. Temperature decides first, and of the old state only a running
packet is kept (`pemState_pem`): the recursion, the exits tested inside and outside of it, and the two
hysteresis values come down to this rule. Only the cached temperature has to be current, since the
exit tests read nothing else that GridLAB-D reports. The rule has no hysteresis: an exit state is left
as soon as its limit is no longer passed.
-/
import GripAbsorption.Packetized.Pem

namespace Grip.Packetized

open Grip.Base

universe u

variable {K : Type u} [Field K] [LinearOrder K]

/-! ## What the exit tests read -/

namespace GldDev

/-- The cached temperature. -/
def temperature : GldDev K → K
  | waterHeater w => w.temperature
  | hvac h => h.temperature

/-- The two objects pass the same exit tests, with any hysteresis. -/
def SameExits (a b : GldDev K) : Prop :=
  ∀ (dice : Dice K) (h : K), a.checkStat dice .exitOn h = b.checkStat dice .exitOn h ∧
    a.checkStat dice .exitOff h = b.checkStat dice .exitOff h

theorem sameExits_refl (a : GldDev K) : a.SameExits a := fun _ _ => ⟨rfl, rfl⟩

theorem SameExits.zone {a b : GldDev K} (h : a.SameExits b) : a.zone = b.zone := by
  unfold GldDev.zone
  rw [(h noDice 0).1, (h noDice 0).2]

/-- A refresh that does not change the temperature changes no exit test. -/
theorem sameExits_updateFromGld {gld : Gld K} {a : GldDev K} (h : a.temperature = (gld a.id).temperature) :
    (a.updateFromGld gld).SameExits a := by
  intro dice hyst
  cases a with
  | waterHeater w =>
    have ht : (w.updateFromGld gld).temperature = w.temperature := h.symm
    simp only [updateFromGld, checkStat, GldWaterHeater.checkStat_exitOn, GldWaterHeater.checkStat_exitOff, ht]
    exact ⟨rfl, rfl⟩
  | hvac d =>
    have ht : (d.updateFromGld gld).temperature = d.temperature := h.symm
    have hwithin : ∀ sp, (d.updateFromGld gld).within hyst sp = d.within hyst sp := fun sp => by
      simp only [GldHVAC.within, ht]
      rfl
    have hbeyond : ∀ sp dir, (d.updateFromGld gld).beyond hyst sp dir = d.beyond hyst sp dir := fun sp dir => by
      simp only [GldHVAC.beyond, ht]
      rfl
    simp only [updateFromGld, checkStat, GldHVAC.checkStat_exitOn, GldHVAC.checkStat_exitOff, hwithin, hbeyond]
    exact ⟨rfl, rfl⟩

end GldDev

/-! ## The rule -/

namespace VbDevice

/-- The cached temperature is GridLAB-D's reading. -/
def Current (gld : Gld K) (d : VbDevice K) : Prop := d.gldDev.temperature = (gld d.deviceId).temperature

/-- The exit states by temperature, else a running packet, else `PEM_OFF`. -/
def pemRule (dice : Dice K) (time : ℤ) (d : VbDevice K) : PemState :=
  if d.gldDev.checkStat dice .exitOn 0 then .exitOn
  else if d.gldDev.checkStat dice .exitOff 0 then .exitOff
  else if d.pemState = .pemOn ∧ time < d.stateEndsAt then .pemOn
  else .pemOff

variable {gld : Gld K} {dice : Dice K} {time : ℤ} {d : VbDevice K}

theorem pemRule_needsOn (h : d.gldDev.zone = .needsOn) : d.pemRule dice time = .exitOn :=
  if_pos (GldDev.checkStat_of_needsOn h dice)

theorem pemRule_needsOff (h : d.gldDev.zone = .needsOff) : d.pemRule dice time = .exitOff := by
  obtain ⟨hon, hoff⟩ := GldDev.checkStat_of_needsOff h dice
  simp [pemRule, hon, hoff]

theorem pemRule_comfort (h : d.gldDev.zone = .comfort) :
    d.pemRule dice time = if d.pemState = .pemOn ∧ time < d.stateEndsAt then .pemOn else .pemOff := by
  obtain ⟨hon, hoff⟩ := (GldDev.zone_eq_comfort dice).1 h
  simp [pemRule, hon, hoff]

/-- A refreshed device passes the same exit tests. -/
theorem Current.update (h : d.Current gld) (s : Option PemState) (e : Option ℤ) (p : Option K) :
    (d.update gld s e p).gldDev.SameExits d.gldDev :=
  GldDev.sameExits_updateFromGld h

theorem Current.pemOff (h : d.Current gld) (dice : Dice K) (time : ℤ) :
    (d.pemOff gld dice time).1.gldDev.SameExits d.gldDev ∧ (d.pemOff gld dice time).1.pemState = d.pemState := by
  unfold VbDevice.pemOff
  split
  · exact ⟨GldDev.sameExits_refl _, rfl⟩
  · split <;> exact ⟨h.update none _ none, rfl⟩

/-- The recursive call. -/
theorem Current.pem_reset (h : d.Current gld) (dice : Dice K) (time : ℤ) :
    ((d.reset gld time).pem gld dice time).1.gldDev.SameExits d.gldDev ∧
      (d.gldDev.zone = .comfort → ((d.reset gld time).pem gld dice time).1.pemState = .pemOff) := by
  have hreset : (d.reset gld time).gldDev.SameExits d.gldDev := h.update _ _ _
  have hfresh : (d.reset gld time).Fresh gld := fresh_update ..
  constructor
  · rw [VbDevice.pem, gldDev_pemBody_off hfresh rfl]
    exact hreset
  · intro hz
    rw [pem_off_comfort hfresh rfl (hreset.zone.trans hz), VbDevice.pemOff]
    split
    · rfl
    · split <;> rfl

variable [IsStrictOrderedRing K]

/-- An exit state is left in the comfort zone. -/
theorem Current.exitState {stat : Stat} (h : d.Current gld) (hs : stat = .exitOn ∨ stat = .exitOff) (dice : Dice K) (time : ℤ) :
    (d.exitState stat gld dice (pem gld dice time) time).1.gldDev.SameExits d.gldDev ∧
      (d.gldDev.zone = .comfort → (d.exitState stat gld dice (pem gld dice time) time).1.pemState = .pemOff) := by
  obtain ⟨hsame, hstate⟩ := h.pem_reset dice time
  unfold VbDevice.exitState
  split
  · exact ⟨hsame, hstate⟩
  · rename_i hx
    refine ⟨GldDev.sameExits_refl _, fun hz => (exit_zone dice ?_ hz).elim⟩
    rcases hs with rfl | rfl
    exacts [.inl (by simpa using hx), .inr (by simpa using hx)]

/-- What the handler returns passes the same exit tests as the device, and in the comfort zone its state is the rule's. -/
theorem Current.handle (h : d.Current gld) (dice : Dice K) (time : ℤ) :
    (d.handle gld dice (pem gld dice time) time).1.gldDev.SameExits d.gldDev ∧
      (d.gldDev.zone = .comfort → (d.handle gld dice (pem gld dice time) time).1.pemState = d.pemRule dice time) := by
  unfold VbDevice.handle
  cases hd : d.pemState with
  | pemOff =>
    obtain ⟨hsame, hstate⟩ := h.pemOff dice time
    refine ⟨hsame, fun hz => ?_⟩
    rw [hstate, pemRule_comfort hz]
    simp [hd]
  | pemOn =>
    obtain ⟨hsame, hstate⟩ := h.pem_reset dice time
    simp only [pemOn]
    split
    · rename_i he
      refine ⟨GldDev.sameExits_refl _, fun hz => ?_⟩
      rw [pemRule_comfort hz, if_pos ⟨hd, he⟩]
      exact hd
    · rename_i he
      refine ⟨hsame, fun hz => ?_⟩
      rw [pemRule_comfort hz, if_neg fun hr => he hr.2]
      exact hstate hz
  | exitOff =>
    obtain ⟨hsame, hstate⟩ := h.exitState (.inr rfl) dice time
    refine ⟨hsame, fun hz => (hstate hz).trans ?_⟩
    rw [pemRule_comfort hz]
    simp [hd]
  | exitOn =>
    obtain ⟨hsame, hstate⟩ := h.exitState (.inl rfl) dice time
    refine ⟨hsame, fun hz => (hstate hz).trans ?_⟩
    rw [pemRule_comfort hz]
    simp [hd]

/-- For every device whose cached temperature is current, `pem` leaves the state of the rule. -/
theorem pemState_pem (gld : Gld K) (dice : Dice K) (time : ℤ) (d : VbDevice K) (h : d.Current gld) :
    (d.pem gld dice time).1.pemState = d.pemRule dice time := by
  obtain ⟨hsame, hstate⟩ := h.handle dice time
  rw [pem_eq, pemBody]
  -- the exits of the handler's device are those of `d`
  rcases hn : d.handle gld dice (pem gld dice time) time with ⟨next, effect⟩
  rw [hn] at hsame hstate
  simp only at hsame hstate ⊢
  cases hz : d.gldDev.zone with
  | needsOn => rw [checkExits_needsOn (hsame.zone.trans hz), pemRule_needsOn hz]; rfl
  | needsOff => rw [checkExits_needsOff (hsame.zone.trans hz), pemRule_needsOff hz]; rfl
  | comfort => rw [checkExits_comfort (hsame.zone.trans hz)]; exact hstate hz

/-- A house between its bands, with a packet that runs until 210 and a load that is out of date. -/
def idleHouse : VbDevice ℚ := ⟨.hvac ⟨1, 75, 65, 2, 70, 0, 90, 0⟩, .pemOn, 210, 9 / 2, 0⟩

/-- It takes the off exit in the middle of its packet. -/
theorem idleHouse_exits : (idleHouse.pem (fun _ => ⟨70, 3, 90⟩) noDice 60).1.pemState = .exitOff :=
  (pemState_pem (fun _ => ⟨70, 3, 90⟩) noDice 60 idleHouse rfl).trans (by decide +kernel)

/-! ## Leaving an exit state -/

/-- An exit state is kept until the temperature is two degrees back inside the band. -/
def KeepsExit (gld : Gld K) (dice : Dice K) (time : ℤ) (w : GldWaterHeater K) (d : VbDevice K) : Prop :=
  (d.pemState = .exitOn → w.temperature < w.lowerTemp + (2 : ℕ) → (d.pem gld dice time).1.pemState = .exitOn) ∧
    (d.pemState = .exitOff → w.upperTemp - (2 : ℕ) < w.temperature → (d.pem gld dice time).1.pemState = .exitOff)

/-- The temperature is not in the two degrees of the band next to the limit the state was entered at. -/
def OffTheLimit (w : GldWaterHeater K) (d : VbDevice K) : Prop :=
  (d.pemState = .exitOn → w.temperature < w.lowerTemp ∨ w.lowerTemp + (2 : ℕ) ≤ w.temperature) ∧
    (d.pemState = .exitOff → w.upperTemp < w.temperature ∨ w.temperature ≤ w.upperTemp - (2 : ℕ))

theorem pemRule_waterHeater (dice : Dice K) (time : ℤ) {w : GldWaterHeater K} (hw : d.gldDev = .waterHeater w) :
    (d.pemRule dice time = .exitOn ↔ w.temperature < w.lowerTemp) ∧
      (d.pemRule dice time = .exitOff ↔ w.upperTemp < w.temperature) := by
  have hlow : w.setpoint - (GldWaterHeater.pemRange + 0) = w.lowerTemp := by rw [add_zero]; rfl
  have hupp : w.setpoint + (GldWaterHeater.pemRange + 0) = w.upperTemp := by rw [add_zero]; rfl
  have hband : w.lowerTemp < w.upperTemp := by
    unfold GldWaterHeater.lowerTemp GldWaterHeater.upperTemp GldWaterHeater.pemRange
    linarith
  unfold pemRule
  simp only [hw, GldDev.checkStat, GldWaterHeater.checkStat_exitOn, GldWaterHeater.checkStat_exitOff, hlow, hupp,
    decide_eq_true_eq]
  by_cases hl : w.temperature < w.lowerTemp
  · simp [hl, (hl.trans hband).le]
  · by_cases hu : w.upperTemp < w.temperature
    · simp [hl, hu]
    · simp only [hl, hu, if_false, iff_false]
      constructor <;> split <;> decide

/-- For every water heater with a current temperature, `pem` keeps exit states with two degrees of hysteresis exactly
when the temperature is not in these two degrees. -/
theorem keepsExit_iff (gld : Gld K) (dice : Dice K) (time : ℤ) (w : GldWaterHeater K) (d : VbDevice K)
    (hw : d.gldDev = .waterHeater w) (h : w.temperature = (gld w.id).temperature) :
    KeepsExit gld dice time w d ↔ OffTheLimit w d := by
  have hcur : d.Current gld := by
    unfold Current deviceId
    rw [hw]
    exact h
  obtain ⟨hon, hoff⟩ := pemRule_waterHeater dice time hw
  unfold KeepsExit OffTheLimit
  rw [pemState_pem gld dice time d hcur, hon, hoff]
  refine and_congr (imp_congr_right fun _ => ?_) (imp_congr_right fun _ => ?_)
  · rw [imp_iff_not_or, not_lt, or_comm]
  · rw [imp_iff_not_or, not_lt, or_comm]

/-- A water heater with the set point 130 at a temperature. -/
def heaterAt (temperature : ℚ) : GldWaterHeater ℚ := .init (fun _ => ⟨temperature, 0, 0⟩) 1 130

/-- Below its lower limit of 120 a heater is kept in `EXIT_ON`. -/
theorem cold_heater_keepsExit :
    KeepsExit (fun _ => ⟨119, 0, 0⟩) noDice 60 (heaterAt 119) (.init (.waterHeater (heaterAt 119)) .exitOn 30 (9 / 2)) :=
  (keepsExit_iff (fun _ => ⟨119, 0, 0⟩) noDice 60 (heaterAt 119) (.init (.waterHeater (heaterAt 119)) .exitOn 30 (9 / 2))
    rfl rfl).2 (by unfold OffTheLimit; decide +kernel)

/-- At 121 it leaves `EXIT_ON`, one degree above the limit at which it was entered. -/
theorem heater_leaves_at_limit : (heaterAt 121).lowerTemp = 120 ∧
    ((VbDevice.init (.waterHeater (heaterAt 121)) .exitOn 30 (9 / 2)).pem (fun _ => ⟨121, 0, 0⟩) noDice 60).1.pemState =
      .pemOff ∧
    ¬ KeepsExit (fun _ => ⟨121, 0, 0⟩) noDice 60 (heaterAt 121) (.init (.waterHeater (heaterAt 121)) .exitOn 30 (9 / 2)) := by
  refine ⟨by decide +kernel, by decide +kernel, ?_⟩
  unfold KeepsExit
  decide +kernel

end VbDevice

end Grip.Packetized
