/-
The device objects of `packetized/vb_device.py`: water heaters and houses as GridLAB-D reports
them, their temperature tests (`checkStat`), the commands they are sent, and the packetized
energy management (PEM) automaton of one device (`pem`).

Numbers are the elements of an ordered field, so Python floats are taken as exact. GridLAB-D's
readings are a function of the device that stays fixed while one control step runs. A house with
a zero deadband makes the source divide by zero; here its state of charge is then `0`.
-/
import GripAbsorption.Base.Python

namespace Grip.Packetized

open Grip.Base

universe u

/-! ## Names, readings, commands -/

/-- GridLAB-D names the devices of customer `n` `house_n` and `waterheater_n`. -/
inductive DeviceId
  | house (n : ℕ)
  | waterheater (n : ℕ)
  deriving DecidableEq, Repr

/-- What GridLAB-D reports for a device: `temperature` or `air_temperature`, `actual_load` or
`hvac_load` in kW, and (houses) `outdoor_temperature`. -/
structure Reading (K : Type u) where
  temperature : K
  load : K
  outdoor : K

/-- The readings of all devices at one instant. -/
abbrev Gld (K : Type u) := DeviceId → Reading K

inductive ThermostatControl
  | full
  | none
  deriving DecidableEq, Repr

inductive SystemMode
  | off
  | heat
  | cool
  deriving DecidableEq, Repr

inductive Command
  | turnOn
  | turnOff
  deriving DecidableEq, Repr

/-- The GridLAB-D properties the controller writes, and the last command each device was sent
(a history variable). -/
structure GldState (K : Type u) where
  thermostatControl : DeviceId → ThermostatControl
  systemMode : DeviceId → SystemMode
  tankSetpoint : DeviceId → K
  customerInterrupted : ℕ → Bool
  lastCommand : DeviceId → Option Command

section

variable {K : Type u}

/-- The command is recorded as the last one sent to the device. -/
def GldState.record (st : GldState K) (id : DeviceId) (c : Command) : GldState K :=
  { st with lastCommand := Function.update st.lastCommand id (some c) }

@[simp] theorem GldState.record_thermostatControl (st : GldState K) (id : DeviceId) (c : Command) :
    (st.record id c).thermostatControl = st.thermostatControl := rfl

@[simp] theorem GldState.record_customerInterrupted (st : GldState K) (id : DeviceId) (c : Command) :
    (st.record id c).customerInterrupted = st.customerInterrupted := rfl

@[simp] theorem GldState.record_lastCommand (st : GldState K) (id : DeviceId) (c : Command) :
    (st.record id c).lastCommand = Function.update st.lastCommand id (some c) := rfl

end

/-! ## Epochs and die rolls -/

/-- Seconds between device updates. -/
def commEpochSec : ℤ := 30
/-- Seconds a granted packet lasts. -/
def controlEpochSec : ℤ := 180

/-- The outcome of the comparison `r_random() < 1 - exp(-u)` in turn `k` of a temperature test's
loop over set points, as a function of `u`. -/
abbrev Dice (K : Type u) := ℕ → K → Bool

section

variable {K : Type u} [Field K] [LinearOrder K]

/-- `REQ_die_roll`: whether a device at the given state of charge asks for power. -/
def reqDieRoll (roll : K → Bool) (soc : K) : Bool :=
  if soc ≤ 0 then true
  else if soc ≥ 1 then false
  else roll ((1 - soc) / (soc - 0) * (30 / 180))

/-- The status a temperature is tested for. -/
inductive Stat
  | request
  | exitOn
  | exitOff
  deriving DecidableEq, Repr

/-! ## Water heaters -/

/-- The water heater of a customer. -/
structure GldWaterHeater (K : Type u) where
  customer : ℕ
  setpoint : K
  temperature : K
  kw : K
  soc : K

namespace GldWaterHeater

def id (w : GldWaterHeater K) : DeviceId := .waterheater w.customer

/-- The half width of the comfort band, fixed in the constructor. -/
def pemRange : K := 10

def upperTemp (w : GldWaterHeater K) : K := w.setpoint + pemRange

def lowerTemp (w : GldWaterHeater K) : K := w.setpoint - pemRange

def updateFromGld (gld : Gld K) (w : GldWaterHeater K) : GldWaterHeater K :=
  { w with
    temperature := (gld w.id).temperature
    kw := (gld w.id).load
    soc := ((gld w.id).temperature - w.lowerTemp) / (w.upperTemp - w.lowerTemp) }

/-- The constructor: the tank set point and a first reading. -/
def init (gld : Gld K) (customer : ℕ) (setpoint : K) : GldWaterHeater K :=
  updateFromGld gld ⟨customer, setpoint, 0, 0, 0⟩

/-- The stored energy `soc_kWh` reports after a refresh (`kWh = 2`, `deltaT = 20`). -/
def socKWh (w : GldWaterHeater K) : K := 2 / 20 * w.soc * (w.upperTemp - w.lowerTemp)

/-- `check_stat`. The chain of `elif`s returns `None` when a request roll fails, which the callers
read as `False`. -/
def checkStat (w : GldWaterHeater K) (dice : Dice K) (stat : Stat) (hysteresis : K) : Bool :=
  let T := w.temperature
  if (w.setpoint - (pemRange + hysteresis) < T ∧ T < w.setpoint + (pemRange + hysteresis)) ∧ stat = .request then
    reqDieRoll (dice 0) w.soc
  else if T < w.setpoint - (pemRange + hysteresis) ∧ stat = .exitOn then true
  else if T > w.setpoint + (pemRange + hysteresis) ∧ stat = .exitOff then true
  else false

def turnOn (w : GldWaterHeater K) (st : GldState K) : GldState K :=
  { st with tankSetpoint := Function.update st.tankSetpoint w.id (w.upperTemp + 1) }

def turnOff (w : GldWaterHeater K) (st : GldState K) : GldState K :=
  { st with tankSetpoint := Function.update st.tankSetpoint w.id (w.lowerTemp - 1) }

end GldWaterHeater

/-! ## Houses -/

/-- The house of a customer, with its heating and cooling. -/
structure GldHVAC (K : Type u) where
  customer : ℕ
  setpointUpp : K
  setpointLow : K
  pemRange : K
  temperature : K
  kw : K
  outsideT : K
  soc : K

namespace GldHVAC

def id (h : GldHVAC K) : DeviceId := .house h.customer

def updateFromGld (gld : Gld K) (h : GldHVAC K) : GldHVAC K :=
  let T := (gld h.id).temperature
  let middleT := h.setpointLow + (h.setpointUpp - h.setpointLow) / 2
  { h with
    temperature := T
    kw := (gld h.id).load
    outsideT := (gld h.id).outdoor
    soc :=
      if (gld h.id).outdoor ≤ middleT then (T - (h.setpointLow - h.pemRange)) / (h.pemRange * 2)
      else ((h.setpointUpp + h.pemRange) - T) / (h.pemRange * 2) }

/-- The constructor: `cooling_setpoint`, `heating_setpoint`, `thermostat_deadband` and a first
reading. -/
def init (gld : Gld K) (customer : ℕ) (cooling heating deadband : K) : GldHVAC K :=
  updateFromGld gld ⟨customer, cooling, heating, deadband, 0, 0, 0, 0⟩

/-- The stored energy `soc_kWh` reports after a refresh (`kWh = 2`, `deltaT = 4`). -/
def socKWh (h : GldHVAC K) : K := 2 / 4 * h.soc * (h.pemRange * 2)

/-- The temperature is inside the band around a set point. -/
def within (h : GldHVAC K) (hysteresis setpoint : K) : Bool :=
  setpoint - (h.pemRange + hysteresis) < h.temperature ∧ h.temperature < setpoint + (h.pemRange + hysteresis)

/-- The temperature is beyond a set point's band, on the side `dir` points to. -/
def beyond (h : GldHVAC K) (hysteresis setpoint dir : K) : Bool :=
  0 > -h.temperature * dir + (setpoint + (h.pemRange + hysteresis) * dir) * dir

/-- `check_stat`. Both loops carry `exitoff` and whether `True` was returned; nothing after a
`return True` runs. -/
def checkStat (h : GldHVAC K) (dice : Dice K) (stat : Stat) (hysteresis : K) : Bool :=
  let (exitoff, returned) := [(0, h.setpointUpp), (1, h.setpointLow)].foldl
    (fun (acc : Bool × Bool) (p : ℕ × K) =>
      if acc.2 then acc
      else if h.within hysteresis p.2 then (false, decide (stat = .request) && reqDieRoll (dice p.1) h.soc)
      else acc) (true, false)
  let (exitoff, returned) := [(h.setpointUpp, 1), (h.setpointLow, -1)].foldl
    (fun (acc : Bool × Bool) (p : K × K) =>
      if acc.2 then acc
      else if h.beyond hysteresis p.1 p.2 then (false, decide (stat = .exitOn))
      else acc) (exitoff, returned)
  returned || (exitoff && decide (stat = .exitOff))

def turnOn (h : GldHVAC K) (st : GldState K) : GldState K :=
  let st := { st with thermostatControl := Function.update st.thermostatControl h.id .none }
  if h.temperature > h.setpointUpp - 2 then { st with systemMode := Function.update st.systemMode h.id .cool }
  else if h.temperature < h.setpointLow + 2 then { st with systemMode := Function.update st.systemMode h.id .heat }
  else st

def turnOff (h : GldHVAC K) (st : GldState K) : GldState K :=
  { st with
    thermostatControl := Function.update st.thermostatControl h.id .none
    systemMode := Function.update st.systemMode h.id .off }

end GldHVAC

/-! ## Devices of either kind -/

/-- A GridLAB-D device object. -/
inductive GldDev (K : Type u)
  | waterHeater (w : GldWaterHeater K)
  | hvac (h : GldHVAC K)

namespace GldDev

def id : GldDev K → DeviceId
  | waterHeater w => w.id
  | hvac h => h.id

def kw : GldDev K → K
  | waterHeater w => w.kw
  | hvac h => h.kw

def soc : GldDev K → K
  | waterHeater w => w.soc
  | hvac h => h.soc

def updateFromGld (gld : Gld K) : GldDev K → GldDev K
  | waterHeater w => waterHeater (w.updateFromGld gld)
  | hvac h => hvac (h.updateFromGld gld)

def socKWh : GldDev K → K
  | waterHeater w => w.socKWh
  | hvac h => h.socKWh

def checkStat (dice : Dice K) (stat : Stat) (hysteresis : K) : GldDev K → Bool
  | waterHeater w => w.checkStat dice stat hysteresis
  | hvac h => h.checkStat dice stat hysteresis

def turnOn (st : GldState K) (d : GldDev K) : GldState K :=
  match d with
  | waterHeater w => (w.turnOn st).record w.id .turnOn
  | hvac h => (h.turnOn st).record h.id .turnOn

def turnOff (st : GldState K) (d : GldDev K) : GldState K :=
  match d with
  | waterHeater w => (w.turnOff st).record w.id .turnOff
  | hvac h => (h.turnOff st).record h.id .turnOff

@[simp] theorem id_updateFromGld (gld : Gld K) (d : GldDev K) : (d.updateFromGld gld).id = d.id := by
  cases d <;> rfl

@[simp] theorem updateFromGld_updateFromGld (gld : Gld K) (d : GldDev K) :
    (d.updateFromGld gld).updateFromGld gld = d.updateFromGld gld := by
  cases d <;> rfl

end GldDev

/-! ## Effects -/

structure PowerRequest (K : Type u) where
  deviceId : DeviceId
  kw : K
  sec : ℤ

structure TurnOn (K : Type u) where
  gld : GldDev K
  kw : K

structure TurnOff (K : Type u) where
  gld : GldDev K

/-- What a device asks of the battery in one step. -/
inductive Effect (K : Type u)
  | powerRequest (r : PowerRequest K)
  | turnOn (e : TurnOn K)
  | turnOff (e : TurnOff K)

namespace Effect

/-- The effect's `on` flag. -/
def on : Effect K → Bool
  | turnOn _ => true
  | _ => false

/-- The effect's `kw`. -/
def kw : Effect K → K
  | powerRequest r => r.kw
  | turnOn e => e.kw
  | turnOff _ => 0

end Effect

/-- The container of the effects of one step. -/
structure Effects (K : Type u) where
  powerRequests : List (PowerRequest K)
  turnOn : List (TurnOn K)
  turnOff : List (TurnOff K)

namespace Effects

def empty : Effects K := ⟨[], [], []⟩

def append (es : Effects K) : Effect K → Effects K
  | .powerRequest r => { es with powerRequests := es.powerRequests ++ [r] }
  | .turnOn e => { es with turnOn := es.turnOn ++ [e] }
  | .turnOff e => { es with turnOff := es.turnOff ++ [e] }

/-- Send all `turn_on` effects, then all `turn_off` effects. -/
def send (es : Effects K) (st : GldState K) : GldState K :=
  es.turnOff.foldl (fun st e => e.gld.turnOff st) (es.turnOn.foldl (fun st e => e.gld.turnOn st) st)

end Effects

/-! ## The PEM automaton -/

inductive PemState
  | pemOff
  | pemOn
  | exitOff
  | exitOn
  deriving DecidableEq, Repr

structure VbDevice (K : Type u) where
  gldDev : GldDev K
  pemState : PemState
  stateEndsAt : ℤ
  lastPowerDrawKw : K
  kw : K

namespace VbDevice

/-- The device's name is its GridLAB-D object's. -/
def deviceId (d : VbDevice K) : DeviceId := d.gldDev.id

/-- The constructor: the measured load is the object's at construction. -/
def init (gldDev : GldDev K) (pemState : PemState) (stateEndsAt : ℤ) (lastPowerDrawKw : K) : VbDevice K :=
  ⟨gldDev, pemState, stateEndsAt, lastPowerDrawKw, gldDev.kw⟩

/-- `update`: a new device with the given fields; a missing argument, and a `0` given for a
number, leave the default. -/
def update (gld : Gld K) (d : VbDevice K) (pemState : Option PemState) (stateEndsAt : Option ℤ)
    (lastPowerDrawKw : Option K) : VbDevice K :=
  init (d.gldDev.updateFromGld gld) (pemState.getD d.pemState) ((given stateEndsAt).getD d.stateEndsAt)
    ((given lastPowerDrawKw).getD (if d.kw > 0 then d.kw else d.lastPowerDrawKw))

def turnOn (d : VbDevice K) : TurnOn K := ⟨d.gldDev, d.lastPowerDrawKw⟩

def turnOff (d : VbDevice K) : TurnOff K := ⟨d.gldDev⟩

/-- `check_exits`: the comfort exits, tested without hysteresis. -/
def checkExits (gld : Gld K) (dice : Dice K) (d : VbDevice K) : VbDevice K × Option (Effect K) :=
  if d.gldDev.checkStat dice .exitOn 0 then (d.update gld (some .exitOn) (some 0) none, some (.turnOn d.turnOn))
  else if d.gldDev.checkStat dice .exitOff 0 then
    (d.update gld (some .exitOff) (some 0) none, some (.turnOff d.turnOff))
  else (d, none)

def pemOff (gld : Gld K) (dice : Dice K) (time : ℤ) (d : VbDevice K) : VbDevice K × Option (Effect K) :=
  if time < d.stateEndsAt then (d, none)
  else if d.gldDev.checkStat dice .request 0 then
    (d.update gld none (some (time + commEpochSec)) none,
      some (.powerRequest ⟨d.deviceId, d.lastPowerDrawKw, controlEpochSec⟩))
  else (d.update gld none (some (time + commEpochSec)) none, some (.turnOff d.turnOff))

/-- The handlers of the other states call `pem` again, on a device they have put in `PEM_OFF`. -/
abbrev Handler (K : Type u) := VbDevice K → VbDevice K × Option (Effect K)

def pemOn (gld : Gld K) (pem : Handler K) (time : ℤ) (d : VbDevice K) : VbDevice K × Option (Effect K) :=
  if time < d.stateEndsAt then (d, some (.turnOn d.turnOn))
  else pem (d.update gld (some .pemOff) (some time) none)

/-- `exit_off` and `exit_on`, which differ in the status they test. -/
def exitState (stat : Stat) (gld : Gld K) (dice : Dice K) (pem : Handler K) (time : ℤ) (d : VbDevice K) :
    VbDevice K × Option (Effect K) :=
  if !d.gldDev.checkStat dice stat 2 then
    let (next, effect) := pem (d.update gld (some .pemOff) (some time) none)
    (next, some (effect.getD (.turnOff d.turnOff)))
  else (d, none)

def exitOff (gld : Gld K) (dice : Dice K) (pem : Handler K) (time : ℤ) (d : VbDevice K) :
    VbDevice K × Option (Effect K) :=
  exitState .exitOff gld dice pem time d

def exitOn (gld : Gld K) (dice : Dice K) (pem : Handler K) (time : ℤ) (d : VbDevice K) :
    VbDevice K × Option (Effect K) :=
  exitState .exitOn gld dice pem time d

/-- The handler of the device's state. -/
def handle (gld : Gld K) (dice : Dice K) (pem : Handler K) (time : ℤ) (d : VbDevice K) :
    VbDevice K × Option (Effect K) :=
  match d.pemState with
  | .pemOff => d.pemOff gld dice time
  | .pemOn => d.pemOn gld pem time
  | .exitOff => d.exitOff gld dice pem time
  | .exitOn => d.exitOn gld dice pem time

/-- The body of `pem`, with the recursive call as an argument: the state's handler, then the
comfort exits of the device it returns, whose effect wins. -/
def pemBody (gld : Gld K) (dice : Dice K) (pem : Handler K) (time : ℤ) (d : VbDevice K) :
    VbDevice K × Option (Effect K) :=
  let (next, effect) := d.handle gld dice pem time
  let (next, exitEffect) := next.checkExits gld dice
  (next, exitEffect.or effect)

/-- `pem`. Every recursive call is on a device in `PEM_OFF`, whose handler makes no further call,
so one unfolding is the whole recursion (`pem_eq`). -/
def pem (gld : Gld K) (dice : Dice K) (time : ℤ) (d : VbDevice K) : VbDevice K × Option (Effect K) :=
  pemBody gld dice (pemBody gld dice (fun d => (d, none)) time) time d

def requestAccepted (gld : Gld K) (time : ℤ) (d : VbDevice K) : VbDevice K × TurnOn K :=
  if d.pemState ≠ .pemOff then (d, d.turnOn)
  else (d.update gld (some .pemOn) (some (time + controlEpochSec)) none, d.turnOn)

end VbDevice

end

end Grip.Packetized
