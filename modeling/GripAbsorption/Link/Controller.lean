/-
The controller as a client of the server. A commit that finds a change of faults asks for the islands and
goes on with the branches of the reply; a management step asks once for each island in force, with what the
islands before it have left. Between two questions a commit does what it does when the replies are given to
it beforehand, as the rows and the partition of its input.
-/
import GripAbsorption.Absorption.Batteries
import GripAbsorption.Link.Server

namespace Grip.Link

open Grip.Base Grip.Islanding Grip.Absorption Grip.Packetized

/-! ## State -/

/-- What goes wrong at the controller's end. -/
inductive Failure
  | control (e : Absorption.Err)
  | islanding (e : ProcessErr)
  /-- the reply is not the JSON text of a table -/
  | json

/-- What is the same in all commits: the network, the swing bus, the inverters, and `str` of a float. -/
structure Site where
  net : Absorption.Network
  swingSn : ℕ
  inverters : List Text
  str : ℚ → Text

/-- The global variables, and what `process_islands` sets in GridLAB-D. -/
structure State where
  globals : Globals
  gld : IslandGld

/-- What a commit meets, other than the replies: readings and random draws. -/
structure Scene where
  time : ℤ
  gld : Gld ℚ
  chance : Island → String → Chance
  inverters : Island → ℕ → ℕ
  fault : ℕ → Bool
  baselineMean : Island → ℚ
  setOrder : Island → ℕ → ℕ
  atStop : Bool
  /-- the clock in the requests to manage -/
  clock : Dispatch.Stamp
  /-- the objects that `get_islanding_data` and `get_island_management_data` read -/
  feeder : Islanding.Network ℚ
  resources : Resources ℚ
  /-- the orders in which `process_islands` iterates and pops its sets -/
  order : ℕ → ℕ
  draws : ℕ → ℕ → ℕ

/-- The input of the commit, with the partition and the rows of the replies. -/
def Scene.input (c : Scene) (partition : List Island) (row : Island → Row) : CommitInput where
  time := c.time
  gld := c.gld
  row := row
  chance := c.chance
  inverters := c.inverters
  fault := c.fault
  partition := partition
  baselineMean := c.baselineMean
  setOrder := c.setOrder
  atStop := c.atStop

/-- `t_inc`, in minutes. -/
def tInc : ℤ := 3

/-! ## Requests -/

/-- The state of charge of an island's virtual battery and its number of devices. -/
def reading (s : Globals) (island : Island) : Except Absorption.Err (ℚ × ℕ) := do
  let vb ← s.battery island
  return (vb.soc, vb.devices.rows.length)

/-- The request to manage an island. -/
def manageRequest (site : Site) (c : Scene) (s : Globals) (island : Island) : Except Absorption.Err Dispatch.IMDatadump :=
  getIslandManagementData site.str c.resources c.clock tInc island (reading s island)

/-- The names of the faulted nodes. -/
def faultedNames (s : Globals) : List Text := s.faultedNodes.map supernodeName

/-- The request to island, and the map back from bus numbers. -/
def islandRequest (site : Site) (c : Scene) (s : Globals) : Except ProcessErr (Datadump × Dict ℕ ℕ) :=
  getIslandingData site.str c.feeder (faultedNames s)

/-- `islanding` after the reply, and `process_islands`: the virtual islands. -/
def partitionOf (site : Site) (c : Scene) (s : State) (mapback : Dict ℕ ℕ) (branches : List ResultRow) :
    Except ProcessErr (IslandGld × List Island) := do
  let results ← mapBack mapback branches
  processIslands ⟨site.swingSn, faultedNames s.globals, site.inverters⟩ c.order (supernodes results).length c.draws
    results s.gld

/-! ## The client -/

abbrev Controller (α : Type) := Client Message Reply (Except Failure α)

/-- The client that has the result, or has failed. -/
def finish {ε α : Type} (failure : ε → Failure) (x : Except ε α) : Controller α := .done (x.mapError failure)

/-- `island_management`: the islands one after the other. -/
def manage (site : Site) (c : Scene) : List Island → Globals → Controller Globals
  | [], s => .done (.ok s)
  | island :: islands, s =>
    match manageRequest site c s island with
    | .error e => .done (.error (.control e))
    | .ok data => .ask (.management data) fun
      | .setpoints row =>
        match s.manageIsland site.net (c.input [] fun _ => row).toManageInput island with
        | .error e => .done (.error (.control e))
        | .ok s => manage site c islands s
      | _ => .done (.error .json)

/-- The control part of a commit. -/
def controlClient (site : Site) (c : Scene) (s : Globals) : Controller Globals :=
  if s.Manages (c.input [] fun _ => Dict.empty) then manage site c (s.islands.getD []) s
  else finish .control (s.control site.net (c.input [] fun _ => Dict.empty))

/-- The devices are initialised at the start. -/
def initialized (site : Site) (c : Scene) (s : Globals) : Globals :=
  if c.time - s.tStart = 0 then s.initializeDevices site.net (c.input [] fun _ => Dict.empty) else s

/-- The faults are read. -/
def scanned (site : Site) (c : Scene) (s : Globals) : Globals :=
  { initialized site c s with faultedNodes := ((initialized site c s).newFaultDetected site.net c.fault).1 }

/-- There is a change of faults. -/
def FaultChange (site : Site) (c : Scene) (s : Globals) : Prop :=
  ((initialized site c s).newFaultDetected site.net c.fault).2 = true

instance (site : Site) (c : Scene) (s : Globals) : Decidable (FaultChange site c s) :=
  inferInstanceAs (Decidable (_ = true))

/-- The islands of the reply come in force. -/
def adopt (site : Site) (c : Scene) (s : State) (mapback : Dict ℕ ℕ) (branches : List ResultRow) : Except Failure State := do
  let (gld, partition) ← (partitionOf site c s mapback branches).mapError .islanding
  let inp := c.input partition fun _ => Dict.empty
  let globals ← (s.globals.adoptPartition site.net inp).mapError .control
  let globals ← (globals.reIslandBatteries site.net inp).mapError .control
  return ⟨globals, gld⟩

/-- The part of a commit before control. -/
def prepareClient (site : Site) (c : Scene) (s : State) : Controller State :=
  let s' : State := { s with globals := scanned site c s.globals }
  if FaultChange site c s.globals then
    match islandRequest site c s'.globals with
    | .error e => .done (.error (.islanding e))
    | .ok (data, mapback) => .ask (.islanding data) fun
      | .branches branches => .done (adopt site c s' mapback branches)
      | _ => .done (.error .json)
  else
    finish .control do
      let globals ← s'.globals.reIslandBatteries site.net (c.input [] fun _ => Dict.empty)
      return { s' with globals }

/-- A client that goes on unless it has failed. -/
def andThen {α β : Type} (x : Controller α) (f : α → Controller β) : Controller β :=
  x.bind fun
    | .error e => .done (.error e)
    | .ok a => f a

/-- `on_commit`. -/
def commit (site : Site) (c : Scene) (s : State) : Controller State :=
  andThen (prepareClient site c s) fun s =>
    andThen (controlClient site c s.globals) fun globals => .done (.ok { s with globals })

/-- The commits of a simulation. -/
def commits (site : Site) : List Scene → State → Controller State
  | [], s => .done (.ok s)
  | c :: cs, s => andThen (commit site c s) (commits site cs)

/-- The simulation: the ping of `JuliaServer.start`, and the commits. -/
def simulation (site : Site) (sentAt : Text) (cs : List Scene) (s : State) : Controller State :=
  .ask (.plain sentAt) fun _ => commits site cs s

end Grip.Link
