/-
`load_control.py`, the thermostat control before PEM: on every commit each house's own thermostat is
switched off and its mode is set from the air temperature and the two set points. The three readings
are compared as the strings that GridLAB-D returns, so the mode is right when the order of the strings is
that of the temperatures where it is asked.
-/
import GripAbsorption.Base.Lexical
import GripAbsorption.Packetized.Device

namespace Grip.Absorption.LoadControl

open Grip.Base Grip.Packetized

universe u

variable {K : Type u}

/-! ## The control -/

/-- `gridlabd.set_value(house_id, "system_mode", mode)`. -/
def setMode (st : GldState K) (house : DeviceId) (mode : SystemMode) : GldState K :=
  { st with systemMode := Function.update st.systemMode house mode }

/-- `absorption` on one house, with the readings of `air_temperature`, `heating_setpoint` and
`cooling_setpoint`; `>=` and `<=` are the negations of `<`. The last comparison is made whatever the others were. -/
def absorption (st : GldState K) (house : DeviceId) (tAir tHeat tCool : Text) : GldState K :=
  let st := { st with thermostatControl := Function.update st.thermostatControl house .none }
  let st :=
    if tAir < tHeat then setMode st house .heat
    else if ¬ tAir < tHeat ∧ ¬ tCool < tAir then setMode st house .off
    else st
  if tCool < tAir then setMode st house .cool else st

/-- `on_commit`: the houses one after the other. -/
def onCommit (values : DeviceId → Text × Text × Text) (houses : List DeviceId) (st : GldState K) : GldState K :=
  houses.foldl (fun st house => absorption st house (values house).1 (values house).2.1 (values house).2.2) st

/-- The mode that the comparisons leave. -/
def chosenMode (tAir tHeat tCool : Text) : SystemMode :=
  if tCool < tAir then .cool else if tAir < tHeat then .heat else .off

/-- Every house gets a mode, and the other houses keep theirs. -/
theorem absorption_systemMode (st : GldState K) (house : DeviceId) (tAir tHeat tCool : Text) :
    (absorption st house tAir tHeat tCool).systemMode = Function.update st.systemMode house (chosenMode tAir tHeat tCool) ∧
      (absorption st house tAir tHeat tCool).thermostatControl = Function.update st.thermostatControl house .none := by
  unfold absorption chosenMode
  by_cases hcool : tCool < tAir <;> by_cases hheat : tAir < tHeat <;> simp [hcool, hheat, setMode]

/-- After a commit the mode of a house is the one its own readings choose. -/
theorem onCommit_systemMode (values : DeviceId → Text × Text × Text) : ∀ (houses : List DeviceId) (st : GldState K) (house : DeviceId),
    (onCommit values houses st).systemMode house = if house ∈ houses then
      chosenMode (values house).1 (values house).2.1 (values house).2.2 else st.systemMode house
  | [], _, _ => rfl
  | h :: houses, st, house => by
    unfold onCommit
    rw [List.foldl_cons]
    refine (onCommit_systemMode values houses _ house).trans ?_
    rw [(absorption_systemMode ..).1]
    by_cases hmem : house ∈ houses
    · simp [hmem]
    · by_cases heq : house = h
      · subst heq; simp [hmem]
      · simp [hmem, heq, Function.update_of_ne]

/-! ## Readings -/

/-- A decimal number with its unit, as `get_value` returns it. -/
def reading (d : Decimal) (unit : Text) : Text := d.text ++ ' ' :: unit

/-- The mode that the temperatures ask for. -/
def wantedMode (air heat cool : ℚ) : SystemMode := if air < heat then .heat else if cool < air then .cool else .off

theorem low_unit (unit : Text) : Low (' ' :: unit) := by
  intro c hc
  cases hc
  decide

/-- The order of two readings without superfluous zeros, exactly. -/
theorem reading_lt_iff {a b : Decimal} {s t : Sign} (ha : a.sign = some s) (hb : b.sign = some t) (hma : a.num.Printed)
    (hmb : b.num.Printed) (unit : Text) :
    (reading a unit < reading b unit ↔ a.value < b.value) ↔ AgreesOrder s a.num t b.num := by
  obtain ⟨sa, m⟩ := a
  obtain ⟨sb, n⟩ := b
  obtain rfl : sa = some s := ha
  obtain rfl : sb = some t := hb
  exact agreesOrder_iff (low_unit unit) hma hmb s t

/-- With the set points in order two comparisons decide the mode: whether it is too warm, and if not, whether it
is too cold. -/
theorem chosenMode_eq_iff {tAir tHeat tCool : Text} {air heat cool : ℚ} (h : heat ≤ cool) :
    chosenMode tAir tHeat tCool = wantedMode air heat cool ↔
      (tCool < tAir ↔ cool < air) ∧ (¬ cool < air → (tAir < tHeat ↔ air < heat)) := by
  unfold chosenMode wantedMode
  by_cases hwarm : cool < air
  · have hcold : ¬ air < heat := by linarith
    by_cases htext : tCool < tAir
    · simp [hwarm, hcold, htext]
    · by_cases hlow : tAir < tHeat <;> simp [hwarm, hcold, htext, hlow]
  · by_cases hcold : air < heat
    · by_cases htext : tCool < tAir <;> by_cases hlow : tAir < tHeat <;> simp [hwarm, hcold, htext, hlow]
    · by_cases htext : tCool < tAir <;> by_cases hlow : tAir < tHeat <;> simp [hwarm, hcold, htext, hlow]

/-! ## When the mode is right -/

/-- The mode is right exactly when the strings are in the order of the temperatures where they are asked; for
readings with signs and without superfluous zeros, when the digits that are compared first are. -/
theorem absorption_mode_iff (st : GldState K) (house : DeviceId) (unit : Text) (air heat cool : Decimal)
    (h : heat.value ≤ cool.value) :
    ((absorption st house (reading air unit) (reading heat unit) (reading cool unit)).systemMode house =
        wantedMode air.value heat.value cool.value ↔
      (reading cool unit < reading air unit ↔ cool.value < air.value) ∧
        (¬ cool.value < air.value → (reading air unit < reading heat unit ↔ air.value < heat.value))) ∧
    ∀ sa sh sc : Sign, air.sign = some sa → heat.sign = some sh → cool.sign = some sc →
      air.num.Printed → heat.num.Printed → cool.num.Printed →
      ((absorption st house (reading air unit) (reading heat unit) (reading cool unit)).systemMode house =
          wantedMode air.value heat.value cool.value ↔
        AgreesOrder sc cool.num sa air.num ∧ (¬ cool.value < air.value → AgreesOrder sa air.num sh heat.num)) := by
  have hmode : (absorption st house (reading air unit) (reading heat unit) (reading cool unit)).systemMode house =
      chosenMode (reading air unit) (reading heat unit) (reading cool unit) := by
    rw [(absorption_systemMode ..).1, Function.update_self]
  rw [hmode, chosenMode_eq_iff h]
  refine ⟨Iff.rfl, fun sa sh sc ha hh hc hma hmh hmc => ?_⟩
  rw [reading_lt_iff hc ha hmc hma, reading_lt_iff ha hh hma hmh]

/-- After a commit every house of the list has the mode that its temperatures ask for exactly when the strings of each
are in the order of the temperatures where they are asked; the other houses keep their modes. -/
theorem onCommit_modes_iff (unit : Text) (air heat cool : DeviceId → Decimal) (houses : List DeviceId) (st : GldState K)
    (h : ∀ house ∈ houses, (heat house).value ≤ (cool house).value) {st' : GldState K}
    (hst' : onCommit (fun i => (reading (air i) unit, reading (heat i) unit, reading (cool i) unit)) houses st = st') :
    ((∀ house ∈ houses, st'.systemMode house = wantedMode (air house).value (heat house).value (cool house).value) ↔
      ∀ house ∈ houses,
        (reading (cool house) unit < reading (air house) unit ↔ (cool house).value < (air house).value) ∧
          (¬ (cool house).value < (air house).value →
            (reading (air house) unit < reading (heat house) unit ↔ (air house).value < (heat house).value))) ∧
      ∀ house ∉ houses, st'.systemMode house = st.systemMode house := by
  subst hst'
  refine ⟨forall₂_congr fun house hmem => ?_, fun house hmem => ?_⟩
  · rw [onCommit_systemMode, if_pos hmem]
    exact chosenMode_eq_iff (h house hmem)
  · rw [onCommit_systemMode, if_neg hmem]

/-- A whole number of degrees. -/
def degrees (int : Text) (h : int.all Char.isDigit = true) (hne : int ≠ []) : Decimal := ⟨some .plus, .whole int h hne⟩

def seventy : Decimal := degrees "70".toList (by decide) (by decide)

def sixtyFive : Decimal := degrees "65".toList (by decide) (by decide)

def seventySix : Decimal := degrees "76".toList (by decide) (by decide)

theorem degrees_values : seventy.value = 70 ∧ sixtyFive.value = 65 ∧ seventySix.value = 76 := by decide +kernel

theorem degrees_printed : seventy.num.Printed ∧ sixtyFive.num.Printed ∧ seventySix.num.Printed :=
  ⟨⟨by decide, by decide, by rintro f ⟨⟩⟩, ⟨by decide, by decide, by rintro f ⟨⟩⟩, ⟨by decide, by decide, by rintro f ⟨⟩⟩⟩

def untouched : GldState ℚ := ⟨fun _ => .full, fun _ => .heat, fun _ => 130, fun _ => false, fun _ => none⟩

/-- At 70 degF between 65 and 76 degF the mode is right exactly when the digits are in order, as they are. -/
theorem absorption_mode_mild :
    ((absorption untouched (.house 1) "+70 degF".toList "+65 degF".toList "+76 degF".toList).systemMode (.house 1) =
        wantedMode 70 65 76 ↔
      AgreesOrder .plus seventySix.num .plus seventy.num ∧
        (¬ (76 : ℚ) < 70 → AgreesOrder .plus seventy.num .plus sixtyFive.num)) ∧
    AgreesOrder .plus seventySix.num .plus seventy.num ∧ AgreesOrder .plus seventy.num .plus sixtyFive.num := by
  obtain ⟨hair, hheat, hcool⟩ := degrees_values
  obtain ⟨pair, pheat, pcool⟩ := degrees_printed
  have h := (absorption_mode_iff untouched (.house 1) "degF".toList seventy sixtyFive seventySix
    (by rw [hheat, hcool]; norm_num)).2 .plus .plus .plus rfl rfl rfl pair pheat pcool
  rw [hair, hheat, hcool] at h
  exact ⟨h, by decide +kernel, by decide +kernel⟩

/-- 9.5 degF is compared by its first digit: a house that has to be heated is cooled. -/
theorem absorption_mode_wrong :
    (absorption untouched (.house 1) "+9.5 degF".toList "+65 degF".toList "+76 degF".toList).systemMode (.house 1) = .cool ∧
      wantedMode (19 / 2) 65 76 = .heat ∧
    ¬ ∀ (st : GldState ℚ) (house : DeviceId) (unit : Text) (air heat cool : Decimal), heat.value ≤ cool.value →
      (absorption st house (reading air unit) (reading heat unit) (reading cool unit)).systemMode house =
        wantedMode air.value heat.value cool.value := by
  refine ⟨by decide +kernel, by decide +kernel, fun hall => ?_⟩
  have h := hall untouched (.house 1) "degF".toList ⟨some .plus, "9".toList, some "5".toList, by decide, by decide, by decide⟩
    sixtyFive seventySix (by decide +kernel)
  revert h
  decide +kernel

end Grip.Absorption.LoadControl
