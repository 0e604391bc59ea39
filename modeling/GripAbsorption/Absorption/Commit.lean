/-
`on_commit` of `absorption.py` with islanding, packetizing and absorption on, `packetize_baseline`
and `test_setpoint` off: devices are initialised at the start; a change of faults brings a new
partition of the network, after which houses outside the islanded devices get their thermostat
back; a new partition gets new batteries; every three minutes the islands are managed, at other
times their batteries only make a packetized step.

The writes of `shutoff_loads`, of the switching plan and of `update_flexible_load` are read by
nothing below and left out, with what the first and the last raise when there is no device map: a run
whose first commit is not at the start stops at its first fault or at the stop time.
-/
import GripAbsorption.Absorption.Management

namespace Grip.Absorption

open Grip.Base Grip.Packetized

/-! ## Devices -/

/-- `map_devices_to_nodes`. -/
def mapDevicesToNodes (net : Network) : Dict ℕ NodeDevices :=
  Table.ofList _ (net.supernodes.map fun node => (node,
    { houses := net.houses.filter fun n => net.supernodeName (.house n) = node
      waterheaters := net.waterheaters.filter fun n => net.supernodeName (.waterheater n) = node }))

namespace Globals

/-- `initialize_devices`. -/
def initializeDevices (net : Network) (inp : CommitInput) (s : Globals) : Globals :=
  let endsAt := inp.time - s.tStart
  let waterheaters := net.waterheaters.map fun n =>
    VbDevice.init (.waterHeater (.init inp.gld n (s.gldState.tankSetpoint (.waterheater n)))) .pemOff endsAt (9 / 2)
  let houses := net.houses.map fun n =>
    VbDevice.init (.hvac (.init inp.gld n (net.coolingSetpoint n) (net.heatingSetpoint n) (net.thermostatDeadband n)))
      .pemOff endsAt (9 / 2)
  { s with
    deviceMap := some (mapDevicesToNodes net)
    allDevices := some (Table.ofList _ (waterheaters ++ houses)) }

/-! ## Batteries of a partition -/

/-- The sets of houses and water heaters of an island's supernodes. -/
def islandSets (s : Globals) (island : Island) : Except Err (List ℕ × List ℕ) :=
  island.foldlM (fun sets node => do
    let nd ← s.nodeDevices node
    return (sets.1 ∪ nd.houses, sets.2 ∪ nd.waterheaters)) ([], [])

/-- The body of `update_VB`'s loop: the battery of one island. -/
def islandBattery (inp : CommitInput) (acc : Globals × Batteries) (island : Island) :
    Except Err (Globals × Batteries) := do
  let (s, vbs) := acc
  let (houses, waterheaters) ← s.islandSets island
  let houses := (shuffle (inp.setOrder island) houses).map DeviceId.house
  let waterheaters := (shuffle (inp.setOrder island) waterheaters).map DeviceId.waterheater
  let devices ← (waterheaters ++ houses).mapM s.device
  return ({ s with islandedDevices := s.islandedDevices ++ houses ++ waterheaters },
    vbs.put island (VirtualBattery.init inp.gld devices))

/-- A missing or empty device map is made anew. -/
def ensureDeviceMap (net : Network) (s : Globals) : Globals :=
  match s.deviceMap with
  | none => { s with deviceMap := some (mapDevicesToNodes net) }
  | some m => if m.rows = [] then { s with deviceMap := some (mapDevicesToNodes net) } else s

/-- `update_VB`, its result assigned to `Virtual_Battery`. -/
def updateVB (net : Network) (inp : CommitInput) (islands : List Island) (s : Globals) : Except Err Globals := do
  let s := s.ensureDeviceMap net
  let (s, vbs) ← islands.foldlM (islandBattery inp) ({ s with islandedDevices := [] }, Dict.empty)
  return { s with virtualBattery := if vbs.rows = [] then none else some vbs }

/-! ## Faults -/

/-- The body of `new_fault_detected`'s loop. -/
def faultTurn (fault : ℕ → Bool) (acc : List ℕ × Bool) (sn : ℕ) : List ℕ × Bool :=
  if fault sn then if sn ∈ acc.1 then acc else (acc.1 ++ [sn], true)
  else if sn ∈ acc.1 then (acc.1.filter (· ≠ sn), true) else acc

/-- `new_fault_detected`: the new list of faulted nodes, and whether it changed. -/
def newFaultDetected (net : Network) (fault : ℕ → Bool) (s : Globals) : List ℕ × Bool :=
  net.supernodes.foldl (faultTurn fault) (s.faultedNodes, false)

/-- `temp_control_absorption`. -/
def tempControlAbsorption (st : GldState ℚ) (n : ℕ) : GldState ℚ :=
  { st with thermostatControl := Function.update st.thermostatControl (.house n) .full }

/-- The loop that gives every house that is not islanded its thermostat back. -/
def releaseHouses (net : Network) (s : Globals) : Globals :=
  { s with gldState := net.houses.foldl (fun st n =>
      if .house n ∈ s.islandedDevices then st else tempControlAbsorption st n) s.gldState }

/-- `not Virtual_Battery`. -/
def noBattery (s : Globals) : Bool :=
  match s.virtualBattery with
  | none => true
  | some vbs => vbs.rows.isEmpty

/-- A changed partition comes in force: the islands, whether they are new ones, and batteries when
there were none. -/
def adoptPartition (net : Network) (inp : CommitInput) (s : Globals) : Except Err Globals := do
  let s := { s with
    reIsland := decide (s.islands ≠ some inp.partition), islands := some inp.partition, islanded := true }
  let s ← (if s.noBattery ∧ s.reIsland then s.updateVB net inp inp.partition else pure s)
  return s.releaseHouses net

/-- `get_island_baseline_data`: the mean load of an island, shared by 60 houses a supernode. -/
def islandBaselineData (inp : CommitInput) (islands : List Island) (s : Globals) : Globals :=
  { s with loadPerHouse := islands.foldl (fun d island =>
      d.put island (inp.baselineMean island / (island.length * 60 : ℕ))) s.loadPerHouse }

/-- New batteries for new islands. -/
def reIslandBatteries (net : Network) (inp : CommitInput) (s : Globals) : Except Err Globals :=
  if s.reIsland then do
    let s ← s.updateVB net inp (s.islands.getD [])
    return { s.islandBaselineData inp (s.islands.getD []) with reIsland := false }
  else pure s

/-! ## Control -/

/-- Seconds between management steps. -/
def tManage : ℤ := 180

/-- The body of the loop over the islands between management steps. -/
def packetizeTurn (net : Network) (inp : ManageInput) (s : Globals) (island : Island) : Except Err Globals := do
  let (s, load) ← s.packetizeIsland inp island ""
  let bal ← orRaise (.keyError .powerbal) (s.powerbal.get? island)
  let bal := checkPowerBalance net (inp.inverters island) { bal with vbLoad := load }
  return { s with powerbal := s.powerbal.put island bal }

/-- The commit is a management step. -/
def Manages (inp : CommitInput) (s : Globals) : Prop :=
  (inp.time - s.tStart) % tManage = 0 ∧ s.islandedDevices ≠ [] ∧ s.islanded = true ∧ inp.atStop = false

instance (inp : CommitInput) (s : Globals) : Decidable (s.Manages inp) :=
  inferInstanceAs (Decidable (_ ∧ _ ∧ _ ∧ _))

/-- The control part of a commit. `islands` is `None` only while `islanded` is false. -/
def control (net : Network) (inp : CommitInput) (s : Globals) : Except Err Globals :=
  if s.Manages inp then s.islandManagement net inp.toManageInput
  else if s.islandedDevices ≠ [] ∧ s.islanded then (s.islands.getD []).foldlM (packetizeTurn net inp.toManageInput) s
  else pure s

/-- The part of `on_commit` before control. -/
def prepare (net : Network) (s : Globals) (inp : CommitInput) : Except Err Globals := do
  let s := if inp.time - s.tStart = 0 then s.initializeDevices net inp else s
  let faults := s.newFaultDetected net inp.fault
  let s := { s with faultedNodes := faults.1 }
  let s ← (if faults.2 then s.adoptPartition net inp else pure s)
  s.reIslandBatteries net inp

/-- `on_commit`. -/
def onCommit (net : Network) (s : Globals) (inp : CommitInput) : Except Err Globals := do
  let s ← s.prepare net inp
  s.control net inp

end Globals

/-! ## A small network -/

/-- Two feeders: customer 1 at supernode 101, customer 2 at supernode 102. -/
def twoFeeders : Network where
  supernodes := [101, 102]
  houses := [1, 2]
  waterheaters := [1, 2]
  houses_nodup := by decide
  supernodeName
    | .house n | .waterheater n => 100 + n
  coolingSetpoint := fun _ => 75
  heatingSetpoint := fun _ => 65
  thermostatDeadband := fun _ => 2
  parent := fun _ => none
  maxChargeRate := fun _ => 0
  maxDischargeRate := fun _ => 0

/-- All thermostats are GridLAB-D's, nobody is interrupted and nothing was commanded. -/
def untouched : GldState ℚ := ⟨fun _ => .full, fun _ => .off, fun _ => 130, fun _ => false, fun _ => none⟩

/-- A result row of the optimiser for the island `name`: the battery's load and the shed. -/
def resultRow (name : String) (load shed : ℚ) : Row :=
  Table.ofList _ [("nfload", 10), ("shed", shed), ("sh_all", 0), ("i_" ++ name, load)]

/-- A commit with the given fault and partition; every device is at 70 degrees and draws nothing, every
die comes up, and every draw is the first. -/
def smallCommit (time : ℤ) (faulted : ℕ → Bool) (partition : List Island) (row : Island → Row) : CommitInput where
  time := time
  gld := fun _ => ⟨70, 0, 70⟩
  row := row
  chance := fun _ _ => ⟨fun _ _ _ => true, fun _ => 0, fun _ => 0, fun _ => 0⟩
  inverters := fun _ _ => 0
  fault := faulted
  partition := partition
  baselineMean := fun _ => 60
  setOrder := fun _ _ => 0
  atStop := false

end Grip.Absorption
