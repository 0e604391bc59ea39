/-
`island_management` of `absorption.py`: the optimiser's result row of an island is processed column
by column in reverse alphabetical order. A column is read by the first of the tests `solar`,
`shed`, `i_` and `battery` its name passes; a `shed` column lowers the battery's setpoint or
disconnects and reconnects houses, an `i_` column sets the setpoint and runs `packetize_island`.
-/
import GripAbsorption.Absorption.State

namespace Grip.Absorption

open Grip.Base Grip.Packetized

/-! ## Column names -/

/-- `pat in s` on strings. -/
def isIn (pat s : String) : Bool := decide (pat.toList <:+: s.toList)

/-- How the chain of `elif`s over a column's name reads it. -/
inductive ColumnKind
  | solar
  | shed
  | virtual
  | battery
  | other
  deriving DecidableEq, Repr

def columnKind (c : String) : ColumnKind :=
  if isIn "solar" c then .solar
  else if isIn "shed" c then .shed
  else if isIn "i_" c then .virtual
  else if isIn "battery" c then .battery
  else .other

/-- `"_".join(map(str, sorted(island)))`. -/
def islandStr (island : Island) : String := "_".intercalate ((island.insertionSort (· ≤ ·)).map Nat.repr)

/-- The columns in the order of `sorted(results.columns, reverse=True)`. -/
def Row.sorted (row : Row) : List (String × ℚ) := row.rows.insertionSort fun p q => q.1 ≤ p.1

namespace Globals

/-! ## Houses -/

/-- The customers whose house is a device of the battery, in its order. -/
def houseKeys (vb : VirtualBattery ℚ) : List ℕ :=
  vb.devices.keys.filterMap fun
    | .house n => some n
    | .waterheater _ => none

/-- The `try` block of `turn_off_house`: an exception leaves what was done before it. -/
def detachHouse (s : Globals) (island : Island) (n : ℕ) : Globals :=
  match s.battery island with
  | .error _ => s
  | .ok vb =>
    match vb.devices.find? (.house n) with
    | none => s
    | some h =>
      let s := { s with gldState := h.gldDev.turnOff s.gldState }
      let vb := { vb with devices := vb.devices.pop (.house n) }
      match vb.devices.find? (.waterheater n) with
      | none => s.setBattery island vb
      | some w =>
        let s := { s with gldState := w.gldDev.turnOff s.gldState }
        s.setBattery island { vb with devices := vb.devices.pop (.waterheater n) }

def turnOffHouse (s : Globals) (island : Island) (n : ℕ) : Globals :=
  (s.detachHouse island n).setInterrupted n true

/-- `turn_on_house`. -/
def turnOnHouse (s : Globals) (island : Island) (n : ℕ) (t : ℤ) : Except Err Globals := do
  let h ← s.device (.house n)
  let h := { h with stateEndsAt := t - s.tStart }
  let s := s.setDevice h
  let w ← s.device (.waterheater n)
  let w := { w with stateEndsAt := t - s.tStart }
  let s := s.setDevice w
  let vb ← s.battery island
  let s := s.setBattery island ((vb.addDevice h).addDevice w)
  return s.setInterrupted n false

/-- The disconnect loop: while the battery has a house, one is drawn and turned off. A draw from
the island's supernodes from 100 on precedes, and fails when there is none. -/
def disconnectLoop (island : Island) (draws : ℕ → ℕ) : ℕ → ℕ → Globals → Except Err Globals
  | _, 0, s => return s
  | turn, k + 1, s => do
    if island.filter (100 ≤ ·) = [] then throw .valueError
    let vb ← s.battery island
    match choice (draws turn) (houseKeys vb) with
    | none => disconnectLoop island draws (turn + 1) k s
    | some n =>
      let s := s.turnOffHouse island n
      disconnectLoop island draws (turn + 1) k { s with housesOff := s.housesOff ++ [n] }

/-- The reconnect loop: a house is drawn from all houses that are off. -/
def reconnectLoop (island : Island) (t : ℤ) (draws : ℕ → ℕ) : ℕ → ℕ → Globals → Except Err Globals
  | _, 0, s => return s
  | turn, k + 1, s => do
    let n ← orRaise .valueError (choice (draws turn) s.housesOff)
    let s ← s.turnOnHouse island n t
    reconnectLoop island t draws (turn + 1) k { s with housesOff := s.housesOff.filter (· ≠ n) }

/-! ## Columns -/

/-- `int(round(load_shed/load_per_house))` of a positive shed; the quotient by zero is infinite. -/
def housesFor (x loadPerHouse : ℚ) : Except Err ℤ :=
  if loadPerHouse = 0 then throw .overflowError else return pyRound (x / loadPerHouse)

/-- The houses of the island's supernodes. -/
def housesOfNodes (s : Globals) (island : Island) : Except Err ℕ :=
  island.foldlM (fun total node => do return total + (← s.nodeDevices node).houses.length) 0

/-- The houses a positive shed calls for, and the setpoint it leaves: none when the battery absorbs
it, all when everything is shed and the battery has no setpoint left, else the shed's share. -/
def calledFor (s : Globals) (island : Island) (row : Row) (x : ℚ) : Except Err (ℚ × ℤ) := do
  let vb ← s.battery island
  if 0 ≤ pyRound (vb.setpoint - x) then return (vb.setpoint - x, 0)
  let all ← orRaise (.keyError .resultColumn) (row.get? "sh_all")
  if all ≠ 0 ∧ pyRound vb.setpoint = 0 then return (vb.setpoint, ← s.housesOfNodes island)
  let loadPerHouse ← orRaise (.keyError .loadPerHouse) (s.loadPerHouse.get? island)
  return (vb.setpoint, ← housesFor x loadPerHouse)

/-- The numbers of turns of the two loops: the disconnect count is lowered by the houses that are off
only when it is no less than they are. -/
def turns (called : ℤ) (off : ℕ) : ℕ × ℕ :=
  if (off : ℤ) ≤ called then ((called - off).toNat, 0) else (called.toNat, (off - called).toNat)

/-- A column read as `shed`. -/
def shedColumn (s : Globals) (inp : ManageInput) (island : Island) (c : String) (x : ℚ) : Except Err Globals := do
  if 0 < x then
    let (setpoint, called) ← s.calledFor island (inp.row island) x
    let vb ← s.battery island
    let s := s.setBattery island { vb with setpoint := setpoint }
    let (disconnect, reconnect) := turns called s.housesOff.length
    let s ← disconnectLoop island (inp.chance island c).disconnect 0 disconnect s
    reconnectLoop island inp.time (inp.chance island c).reconnect 0 reconnect s
  else pure s

/-- `packetize_island`, and the load it returns. -/
def packetizeIsland (s : Globals) (inp : ManageInput) (island : Island) (c : String) : Except Err (Globals × ℚ) := do
  let vb ← s.battery island
  let chance := inp.chance island c
  let (vb', gldState, load) := vb.packetize inp.gld chance.dice chance.requests (inp.time - s.tStart) s.gldState
  let s := { s.setBattery island vb' with gldState := gldState, packetized := s.packetized ++ [(island, vb.setpoint)] }
  return (s, load)

/-- A column read as `i_`. -/
def virtualColumn (s : Globals) (inp : ManageInput) (island : Island) (c : String) (x : ℚ) :
    Except Err (Globals × ℚ) := do
  let vb ← s.battery island
  (s.setBattery island { vb with setpoint := x }).packetizeIsland inp island c

/-- The body of the loop over the columns. -/
def column (net : Network) (inp : ManageInput) (island : Island) (acc : Globals × PowerBalance) (c : String × ℚ) :
    Except Err (Globals × PowerBalance) := do
  let (s, bal) := acc
  let (name, x) := c
  match columnKind name with
  | .solar => return (s, { bal with solarP := bal.solarP + x })
  | .shed => return (← s.shedColumn inp island name x, { bal with nfload := bal.nfload - x })
  | .virtual =>
    let (s, load) ← s.virtualColumn inp island name x
    return (s, { bal with vbLoad := load })
  | .battery =>
    let inv ← orRaise (.keyError .gldObject) (net.parent name)
    return (s, { bal with battP := bal.battP.put inv (-x) })
  | .other => return (s, bal)

/-! ## Power balance -/

/-- One turn of a balancing loop: an inverter with room for the whole difference takes it. -/
def balanceTurn (room : String → ℚ → ℚ → Bool) (sign : ℚ) (acc : Dict String ℚ × ℚ) (b : String) : Dict String ℚ × ℚ :=
  let (battP, diff) := acc
  match battP.get? b with
  | none => acc
  | some kW => if room b kW diff ∧ diff ≠ 0 then (battP.put b (kW + sign * diff), 0) else acc

/-- `check_power_balance`. GridLAB-D counts discharging as positive. -/
def checkPowerBalance (net : Network) (draws : ℕ → ℕ) (bal : PowerBalance) : PowerBalance :=
  let totload := bal.nfload + bal.vbLoad
  let power := bal.solarP + (bal.battP.rows.map (·.2)).sum
  let batts := shuffle draws bal.battP.keys
  if totload - 15 ≤ power ∧ power ≤ totload + 15 then bal
  else if power < totload - 15 then
    { bal with battP := (batts.foldl (balanceTurn (fun b kW diff => kW ≤ net.maxDischargeRate b - diff) 1)
        (bal.battP, totload - power)).1 }
  else if power > totload - 15 then
    { bal with battP := (batts.foldl (balanceTurn (fun b kW diff => -net.maxChargeRate b + diff ≤ kW) (-1))
        (bal.battP, power - totload)).1 }
  else bal

/-! ## The step -/

/-- The body of `island_management`'s loop: one island. -/
def manageIsland (net : Network) (inp : ManageInput) (s : Globals) (island : Island) : Except Err Globals := do
  -- `get_island_management_data` reads the battery's state of charge
  let _ ← s.battery island
  let row := inp.row island
  let nfload ← orRaise .attributeError (row.get? "nfload")
  let (s, bal) ← row.sorted.foldlM (column net inp island) (s, ⟨0, nfload, Dict.empty, 0⟩)
  return { s with powerbal := s.powerbal.put island (checkPowerBalance net (inp.inverters island) bal) }

/-- `island_management`. -/
def islandManagement (net : Network) (inp : ManageInput) (s : Globals) : Except Err Globals :=
  (s.islands.getD []).foldlM (manageIsland net inp) s

end Globals

end Grip.Absorption
