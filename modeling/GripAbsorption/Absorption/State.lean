/-
The state of `absorption.py`: its global variables as a record, the static data it reads from the
GridLAB-D model, what a commit meets from outside (readings, faults, the islands the switching
plan leaves, the rows of the island optimisation, random draws) and the errors a lookup raises.

A supernode `supernode_{:03d}` and a customer's house `house_n` are their numbers. The vb_device
objects of `all_devices` are shared with a battery until the battery's first step replaces them by
updated copies; their GridLAB-D objects stay shared, but are refreshed before every use, so a
battery's devices and `all_devices` are modelled as separate values.
-/
import GripAbsorption.Base.Run
import GripAbsorption.Packetized.Run

namespace Grip.Absorption

open Grip.Base Grip.Packetized

/-! ## The network -/

/-- An island: the numbers of its supernodes. -/
abbrev Island := List ℕ

/-- The GridLAB-D model: its supernodes, the customers with a house or a water heater, each
device's `supernode_name`, the thermostat data of a house, and the inverters. -/
structure Network where
  supernodes : List ℕ
  houses : List ℕ
  waterheaters : List ℕ
  houses_nodup : houses.Nodup
  supernodeName : DeviceId → ℕ
  coolingSetpoint : ℕ → ℚ
  heatingSetpoint : ℕ → ℚ
  thermostatDeadband : ℕ → ℚ
  /-- the inverter a battery object is attached to -/
  parent : String → Option String
  /-- an inverter's `max_charge_rate` and `max_discharge_rate` in kW -/
  maxChargeRate : String → ℚ
  maxDischargeRate : String → ℚ

/-- The devices at one supernode, as `map_devices_to_nodes` finds them. -/
structure NodeDevices where
  houses : List ℕ
  waterheaters : List ℕ

/-! ## Errors -/

/-- The dictionaries whose lookups can fail. -/
inductive DictName
  | powerbal
  | virtualBattery
  | deviceMap
  | allDevices
  | loadPerHouse
  | resultColumn
  | gldObject
  deriving DecidableEq, Repr

inductive Err
  | keyError (d : DictName)
  /-- `None` is subscripted -/
  | noneType (d : DictName)
  | attributeError
  /-- a random choice from nothing -/
  | valueError
  /-- an integer from an infinity -/
  | overflowError
  deriving DecidableEq, Repr

/-! ## Globals -/

/-- `Pbal`: the power balance of an island. -/
structure PowerBalance where
  solarP : ℚ
  nfload : ℚ
  battP : Dict String ℚ
  vbLoad : ℚ

abbrev Batteries := Dict Island (VirtualBattery ℚ)

abbrev AllDevices := Table (VbDevice.deviceId : VbDevice ℚ → DeviceId)

/-- The global variables, the GridLAB-D properties the controller writes, and (a history variable)
the setpoint of every `packetize_island` call so far. -/
structure Globals where
  tStart : ℤ
  reIsland : Bool
  islands : Option (List Island)
  allDevices : Option AllDevices
  islandedDevices : List DeviceId
  islanded : Bool
  deviceMap : Option (Dict ℕ NodeDevices)
  loadPerHouse : Dict Island ℚ
  virtualBattery : Option Batteries
  faultedNodes : List ℕ
  housesOff : List ℕ
  powerbal : Dict Island PowerBalance
  gldState : GldState ℚ
  packetized : List (Island × ℚ)

/-- The globals when the simulation starts. -/
def Globals.init (tStart : ℤ) (gldState : GldState ℚ) : Globals where
  tStart := tStart
  reIsland := false
  islands := none
  allDevices := none
  islandedDevices := []
  islanded := false
  deviceMap := none
  loadPerHouse := Dict.empty
  virtualBattery := none
  faultedNodes := []
  housesOff := []
  powerbal := Dict.empty
  gldState := gldState
  packetized := []

/-! ## Inputs -/

/-- The random outcomes of one result column, or of one `packetize_island` call. -/
structure Chance where
  dice : DeviceId → Dice ℚ
  /-- the order of the power requests -/
  requests : ℕ → ℕ
  /-- the house each turn of the disconnect and reconnect loops picks -/
  disconnect : ℕ → ℕ
  reconnect : ℕ → ℕ

/-- One row of results of the island optimisation: its columns with their values. -/
abbrev Row := Dict String ℚ

/-- What an island's management step meets. -/
structure ManageInput where
  time : ℤ
  gld : Gld ℚ
  row : Island → Row
  chance : Island → String → Chance
  /-- the order in which `check_power_balance` tries the inverters -/
  inverters : Island → ℕ → ℕ

/-- What a commit meets. -/
structure CommitInput extends ManageInput where
  /-- `supernode_fault` -/
  fault : ℕ → Bool
  /-- the virtual islands after the switching plan was carried out -/
  partition : List Island
  /-- the mean of an island's baseline load, in kW -/
  baselineMean : Island → ℚ
  /-- the iteration order of an island's sets of devices -/
  setOrder : Island → ℕ → ℕ
  /-- the clock has reached the day and hour of `STOPTIME` -/
  atStop : Bool

/-! ## Lookups and writes -/

namespace Globals

/-- `Virtual_Battery[tuple(island)]`. -/
def battery (s : Globals) (island : Island) : Except Err (VirtualBattery ℚ) :=
  match s.virtualBattery with
  | none => .error (.noneType .virtualBattery)
  | some vbs => orRaise (.keyError .virtualBattery) (vbs.get? island)

/-- The battery object of an island, changed in place. -/
def setBattery (s : Globals) (island : Island) (vb : VirtualBattery ℚ) : Globals :=
  { s with virtualBattery := s.virtualBattery.map (·.put island vb) }

/-- `device_map['supernode_{:03d}'.format(node)]`. -/
def nodeDevices (s : Globals) (node : ℕ) : Except Err NodeDevices :=
  match s.deviceMap with
  | none => .error (.noneType .deviceMap)
  | some m => orRaise (.keyError .deviceMap) (m.get? node)

/-- `all_devices[id]`. -/
def device (s : Globals) (id : DeviceId) : Except Err (VbDevice ℚ) :=
  match s.allDevices with
  | none => .error (.noneType .allDevices)
  | some ds => orRaise (.keyError .allDevices) (ds.find? id)

/-- The object `all_devices[id]`, changed in place. -/
def setDevice (s : Globals) (d : VbDevice ℚ) : Globals :=
  { s with allDevices := s.allDevices.map (·.set d) }

/-- `meter_n.customer_interrupted = flag`. -/
def setInterrupted (s : Globals) (n : ℕ) (flag : Bool) : Globals :=
  { s with gldState := { s.gldState with
      customerInterrupted := Function.update s.gldState.customerInterrupted n flag } }

theorem battery_eq_ok {s : Globals} {island : Island} {vb : VirtualBattery ℚ} :
    s.battery island = .ok vb ↔ ∃ vbs, s.virtualBattery = some vbs ∧ vbs.get? island = some vb := by
  unfold battery
  cases s.virtualBattery with
  | none => simp
  | some vbs => simp

theorem battery_setBattery (s : Globals) {island island' : Island} {vb vb' : VirtualBattery ℚ}
    (h : s.battery island = .ok vb) : (s.setBattery island vb').battery island' =
      if island = island' then .ok vb' else s.battery island' := by
  obtain ⟨vbs, hs, -⟩ := battery_eq_ok.1 h
  unfold battery setBattery
  rw [hs]
  simp only [Option.map_some, Dict.get?_put]
  split <;> rfl

end Globals

end Grip.Absorption
