/-
The virtual battery of `packetized/virtual_battery.py` and one control step of an island
(`packetize_island` in `absorption.py`): the devices are refreshed, every device makes one PEM
step under the setpoint cap, the power requests are admitted in a random order, and the
resulting commands are sent.

The source's methods change the battery in place; here each returns the new battery.
-/
import GripAbsorption.Base.Table
import GripAbsorption.Packetized.Pem

namespace Grip.Packetized

open Grip.Base

universe u

variable {K : Type u} [Field K] [LinearOrder K]

/-- `self.devices`: the devices under their ids, in insertion order. -/
abbrev Devices (K : Type u) := Table (VbDevice.deviceId : VbDevice K → DeviceId)

structure VirtualBattery (K : Type u) where
  devices : Devices K
  setpoint : K
  timeSec : ℤ
  soc : K

/-- `d.gld_dev.soc_kWh()` refreshes the device's GridLAB-D object. -/
def VbDevice.refresh (gld : Gld K) (d : VbDevice K) : VbDevice K := { d with gldDev := d.gldDev.updateFromGld gld }

@[simp] theorem VbDevice.deviceId_refresh (gld : Gld K) (d : VbDevice K) : (d.refresh gld).deviceId = d.deviceId :=
  GldDev.id_updateFromGld gld d.gldDev

theorem VbDevice.refresh_of_fresh {gld : Gld K} {d : VbDevice K} (h : d.Fresh gld) : d.refresh gld = d := by
  unfold VbDevice.refresh; rw [h]

namespace VirtualBattery

/-- Refresh all devices and sum their stored energy. -/
def updateSoc (gld : Gld K) (vb : VirtualBattery K) : VirtualBattery K :=
  let devices := vb.devices.mapRows (·.refresh gld) (VbDevice.deviceId_refresh gld)
  { vb with devices := devices, soc := (devices.rows.map (·.gldDev.socKWh)).sum }

/-- The constructor; the default setpoint is 100 kW. -/
def init (gld : Gld K) (devices : List (VbDevice K)) : VirtualBattery K :=
  updateSoc gld { devices := Table.ofList _ devices, setpoint := 100, timeSec := 0, soc := 0 }

def addDevice (vb : VirtualBattery K) (d : VbDevice K) : VirtualBattery K := { vb with devices := vb.devices.set d }

/-- `apply_updates`: a device that is not in the battery is skipped. -/
def applyUpdates (gld : Gld K) (vb : VirtualBattery K) (deviceUpdates : List (VbDevice K)) : VirtualBattery K :=
  updateSoc gld { vb with devices := deviceUpdates.foldl Table.replace vb.devices }

variable [FloorRing K]

/-- What the loop of `apply_pem_changes` has built so far. -/
structure Changes (K : Type u) where
  devices : Devices K
  effects : Effects K
  totalload : K

/-- The loop body of `apply_pem_changes`: under the cap a `turn_on` effect is kept, at the cap the
device is put in `PEM_OFF` and turned off; a device without an effect is not written. -/
def pemChange (gld : Gld K) (dice : DeviceId → Dice K) (vb : VirtualBattery K) (acc : Changes K) (device : VbDevice K) :
    Changes K :=
  let (newdevice, effect) := device.pem gld (dice device.deviceId) vb.timeSec
  match effect with
  | some effect =>
    if effect.on then
      if acc.totalload < (pyRound vb.setpoint : K) then
        { devices := acc.devices.set newdevice
          effects := acc.effects.append effect
          totalload := acc.totalload + effect.kw }
      else
        { acc with
          devices := acc.devices.set (device.update gld (some .pemOff) none none)
          effects := acc.effects.append (.turnOff device.turnOff) }
    else
      { acc with
        devices := acc.devices.set newdevice
        effects := acc.effects.append effect }
  | none => acc

def applyPemChanges (gld : Gld K) (dice : DeviceId → Dice K) (vb : VirtualBattery K) :
    VirtualBattery K × Effects K × K :=
  let acc := vb.devices.rows.foldl (pemChange gld dice vb) ⟨Table.empty _, Effects.empty, 0⟩
  ({ vb with devices := acc.devices }, acc.effects, acc.totalload)

/-- Whether a request is admitted at a running load: it brings the load no further from the
setpoint. -/
def admits (setpoint totalkw kw : K) : Bool := |totalkw + kw - setpoint| ≤ |totalkw - setpoint|

/-- What the loop of `handle_power_requests` has done so far. -/
structure Admission (K : Type u) where
  devices : Devices K
  totalkw : K
  accepted : List (TurnOn K)

/-- The loop body of `handle_power_requests`. -/
def handleRequest (gld : Gld K) (vb : VirtualBattery K) (acc : Admission K) (r : PowerRequest K) : Admission K :=
  if admits vb.setpoint acc.totalkw r.kw then
    match acc.devices.find? r.deviceId with
    | none => acc
    | some device =>
      let (device, requestAccepted) := device.requestAccepted gld vb.timeSec
      { devices := acc.devices.set device
        totalkw := acc.totalkw + r.kw
        accepted := acc.accepted ++ [requestAccepted] }
  else acc

/-- `handle_power_requests`, on requests already in their random order. -/
def handlePowerRequests (gld : Gld K) (vb : VirtualBattery K) (powerRequests : List (PowerRequest K)) :
    VirtualBattery K × List (TurnOn K) × K :=
  let acc := powerRequests.foldl (handleRequest gld vb) ⟨vb.devices, (vb.devices.rows.map (·.kw)).sum, []⟩
  ({ vb with devices := acc.devices }, acc.accepted, acc.totalkw)

/-- `next`. The shuffle reorders the requests in the returned effects too. -/
def next (gld : Gld K) (dice : DeviceId → Dice K) (draws : ℕ → ℕ) (vb : VirtualBattery K) (setpoint : Option K)
    (deviceUpdates : List (VbDevice K)) (time : Option ℤ) : VirtualBattery K × Effects K × K :=
  let vb := { vb with setpoint := (given setpoint).getD vb.setpoint, timeSec := (given time).getD vb.timeSec }
  let vb := vb.applyUpdates gld deviceUpdates
  let (vb, effects, totalload) := vb.applyPemChanges gld dice
  if effects.powerRequests ≠ [] then
    let requests := shuffle draws effects.powerRequests
    let (vb, accepted, totalload) := vb.handlePowerRequests gld requests
    (vb, { effects with powerRequests := requests, turnOn := effects.turnOn ++ accepted }, totalload)
  else (vb, effects, totalload)

/-- `packetize_island` on one battery: refresh the devices, step, send the commands, and measure
the load. -/
def packetize (gld : Gld K) (dice : DeviceId → Dice K) (draws : ℕ → ℕ) (time : ℤ) (vb : VirtualBattery K)
    (st : GldState K) : VirtualBattery K × GldState K × K :=
  let deviceUpdates := vb.devices.rows.map fun d => d.update gld none none none
  let (vb, effects, _) := vb.next gld dice draws (some vb.setpoint) deviceUpdates (some time)
  (vb, effects.send st, (vb.devices.rows.map fun d => (d.gldDev.updateFromGld gld).kw).sum)

end VirtualBattery

end Grip.Packetized
