/-
`get_islanding_data` collects branches, generators, batteries and loads, numbers the buses that are end
points of branches from 1 in the order of the sorted strings in their names, and writes the columns as
text; the server splits and parses them. Where every name's first digits are the padded number of its
bus, both sides have the same numbers.

Powers and energies are numbers in the units asked for; `str` writes them.
-/
import GripAbsorption.Base.Numbering
import GripAbsorption.Islanding.Isolation

namespace Grip.Islanding

open Grip.Base

/-! ## Objects -/

/-- The branch classes of `branchkind`, in its order. -/
inductive BranchClass
  | switch
  | overheadLine
  | undergroundLine
  deriving DecidableEq, Repr

structure BranchObject where
  name : Text
  cls : BranchClass
  toNode : Text
  fromNode : Text
  status : Text

structure TriplexMeter (K : Type) where
  measuredRealPower : K
  supernodeName : Text

structure SolarObject (K : Type) where
  name : Text
  ratedPower : K
  generatorStatus : Text

/-- A battery, with the charge rate of the inverter that is its parent, if it has one. -/
structure BatteryObject (K : Type) where
  name : Text
  parentRate : Option K
  stateOfCharge : K
  capacity : K
  generatorStatus : Text

structure Supernode where
  name : Text
  bustype : Text

/-- The objects that are read. -/
structure Network (K : Type) where
  branches : Table BranchObject.name
  meters : Table (id : Text → Text)
  triplexMeters : List (TriplexMeter K)
  solars : Table (SolarObject.name (K := K))
  batteries : Table (BatteryObject.name (K := K))
  supernodes : List Supernode

/-! ## Tables -/

structure BranchRow where
  id : Text
  t : Text
  f : Text
  status : ℤ
  kind : Text

/-- A number in a column: an integer, or a float. -/
inductive Num (K : Type)
  | int (i : ℤ)
  | float (x : K)

structure GenRow (K : Type) where
  id : Text
  bus : Text
  Pmin : ℤ
  Pmax : Num K
  status : ℤ
  solar : ℤ

structure BatRow (K : Type) where
  id : Text
  bus : Text
  Pmax : K
  soc : K
  Emax : K
  status : ℤ

structure ShuntRow (K : Type) where
  id : Text
  bus : Text
  P : K

/-- `re.search(r'\d+',name).group()`. -/
def reSearch (name : Text) : Except ProcessErr Text := orRaise .attributeError (digitRun name)

/-- `switchstat`. -/
def switchstat (status : Text) : Option ℤ :=
  if status = "CLOSED".toList then some 1 else if status = "OPEN".toList then some 0 else none

/-- `genstat`. -/
def genstat (status : Text) : Option ℤ :=
  if status = "OFFLINE".toList then some 0 else if status = "ONLINE".toList then some 1 else none

/-- `branchkind`. -/
def branchkind : BranchClass → Text
  | .switch => "switch".toList
  | .overheadLine => "fixed".toList
  | .undergroundLine => "fixed".toList

section

variable {K : Type} [Field K] [LinearOrder K]

/-- The branches, class by class. -/
def Network.branchObjects (net : Network K) : List BranchObject :=
  [BranchClass.switch, .overheadLine, .undergroundLine].flatMap fun cl => net.branches.rows.filter (·.cls = cl)

def branchRow (b : BranchObject) : Except ProcessErr BranchRow := do
  let t ← reSearch b.toNode
  let f ← reSearch b.fromNode
  let status ← orRaise .keyError (switchstat b.status)
  return ⟨b.name, t, f, status, branchkind b.cls⟩

/-- `powerMW`: the power of the triplex meters at each meter. -/
def powerMW (net : Network K) : Except ProcessErr (Dict Text K) :=
  net.triplexMeters.foldlM (fun powerMW t => do
    let P ← orRaise .keyError (powerMW.get? t.supernodeName)
    return powerMW.put t.supernodeName (P + t.measuredRealPower)) (Table.ofList Prod.fst (net.meters.rows.map fun m => (m, 0)))

def shuntRow (load : Text × K) : Except ProcessErr (ShuntRow K) := do
  return ⟨load.1, ← reSearch load.1, load.2⟩

def solarRow (g : SolarObject K) : Except ProcessErr (GenRow K) := do
  let bus ← reSearch g.name
  let status ← orRaise .keyError (genstat g.generatorStatus)
  return ⟨g.name, bus, 0, .float g.ratedPower, status, 1⟩

def batRow (b : BatteryObject K) : Except ProcessErr (BatRow K) := do
  let bus ← reSearch b.name
  let Pmax ← orRaise .keyError b.parentRate
  let status ← orRaise .keyError (genstat b.generatorStatus)
  return ⟨b.name, bus, Pmax, b.stateOfCharge, b.capacity, status⟩

/-- The generator of a swing bus. -/
def swingRow (sn : Supernode) : Except ProcessErr (GenRow K) := do
  return ⟨"swing_".toList ++ sn.name, ← reSearch sn.name, 0, .int 1000, 1, 0⟩

/-- `branchdata`, `gendata`, `batdata` and `shuntdata`. -/
structure Frames (K : Type) where
  branch : List BranchRow
  gen : List (GenRow K)
  bat : List (BatRow K)
  shunt : List (ShuntRow K)

def Network.frames (net : Network K) : Except ProcessErr (Frames K) := do
  let branch ← net.branchObjects.mapM branchRow
  let powerMW ← powerMW net
  let shunt ← powerMW.rows.mapM shuntRow
  let pvs ← net.solars.rows.mapM solarRow
  let bat ← net.batteries.rows.mapM batRow
  let swing ← (net.supernodes.filter (·.bustype = "SWING".toList)).mapM swingRow
  return ⟨branch, (Table.ofList GenRow.id (pvs ++ swing)).rows, bat, shunt⟩

/-- The loads that draw power and the branches between different buses. -/
def Frames.sent (frames : Frames K) : Frames K :=
  { frames with
    branch := frames.branch.filter fun r => r.t ≠ r.f
    shunt := frames.shunt.filter (0 < ·.P) }

/-! ## Bus numbers -/

/-- `sorted(list(buses))`, as integers. -/
def sortedBuses (branch : List BranchRow) : List ℕ :=
  ((branch.map (·.t) ++ branch.map (·.f)).eraseDups.insertionSort (· ≤ ·)).map intOf

/-- `busmap`. -/
def busmap (branch : List BranchRow) : Dict ℕ ℕ := numbering (sortedBuses branch)

/-- `busmap[int(b)]`. -/
def busIndex (busmap : Dict ℕ ℕ) (b : Text) : Except ProcessErr ℕ := orRaise .keyError (busmap.get? (intOf b))

/-- An empty dictionary makes a frame without columns. -/
def hasColumns {α : Type} (rows : List α) : Except ProcessErr Unit := if rows = [] then throw .attributeError else pure ()

/-- The columns of bus numbers, renumbered, and `fnodes`. -/
structure Indices where
  t : List ℕ
  f : List ℕ
  gen : List ℕ
  bat : List ℕ
  shunt : List ℕ
  fnodes : List ℕ

def Frames.indices (frames : Frames K) (busmap : Dict ℕ ℕ) (faultedNodes : List Text) : Except ProcessErr Indices := do
  let t ← frames.branch.mapM (busIndex busmap ·.t)
  let f ← frames.branch.mapM (busIndex busmap ·.f)
  hasColumns frames.gen
  let gen ← frames.gen.mapM (busIndex busmap ·.bus)
  hasColumns frames.bat
  let bat ← frames.bat.mapM (busIndex busmap ·.bus)
  let shunt ← frames.shunt.mapM (busIndex busmap ·.bus)
  let fnodes ← faultedNodes.mapM fun n => do busIndex busmap (← reSearch n)
  return ⟨t, f, gen, bat, shunt, fnodes⟩

/-! ## The message -/

/-- The columns of `datadump`. -/
structure Datadump where
  branchId : Text
  branchT : Text
  branchF : Text
  branchR : Text
  branchX : Text
  branchStatus : Text
  branchKind : Text
  genBus : Text
  genPmin : Text
  genPmax : Text
  genStatus : Text
  genSolar : Text
  batBus : Text
  batPmax : Text
  batStatus : Text
  batEmax : Text
  batSoc : Text
  shuntBus : Text
  shuntP : Text
  faultedNodes : Text

/-- The columns of bus numbers. -/
def Datadump.indexColumns (data : Datadump) : List Text :=
  [data.branchT, data.branchF, data.genBus, data.batBus, data.shuntBus, data.faultedNodes]

/-- `convert`, with the function that writes an element. -/
def convert {α : Type} (str : α → Text) (l : List α) : Text := join (l.map str)

def Num.text (str : K → Text) : Num K → Text
  | .int i => intText i
  | .float x => str x

def datadump (str : K → Text) (frames : Frames K) (indices : Indices) : Datadump where
  branchId := convert id (frames.branch.map (·.id))
  branchT := convert natText indices.t
  branchF := convert natText indices.f
  branchR := convert intText (frames.branch.map fun _ => 0)
  branchX := convert str (frames.branch.map fun _ => ((1 : ℕ) : K) / (10 : ℕ))
  branchStatus := convert intText (frames.branch.map (·.status))
  branchKind := convert id (frames.branch.map (·.kind))
  genBus := convert natText indices.gen
  genPmin := convert intText (frames.gen.map (·.Pmin))
  genPmax := convert (Num.text str) (frames.gen.map (·.Pmax))
  genStatus := convert intText (frames.gen.map (·.status))
  genSolar := convert intText (frames.gen.map (·.solar))
  batBus := convert natText indices.bat
  batPmax := convert str (frames.bat.map (·.Pmax))
  batStatus := convert intText (frames.bat.map (·.status))
  batEmax := convert str (frames.bat.map (·.Emax))
  batSoc := convert str (frames.bat.map (·.soc))
  shuntBus := convert natText indices.shunt
  shuntP := convert str (frames.shunt.map (·.P))
  faultedNodes := convert natText indices.fnodes

/-- `get_islanding_data`: the message, and the numbers of the buses by their indices. -/
def getIslandingData (str : K → Text) (net : Network K) (faultedNodes : List Text) :
    Except ProcessErr (Datadump × Dict ℕ ℕ) := do
  let frames ← net.frames
  hasColumns frames.shunt
  hasColumns frames.branch
  let busmap := busmap frames.sent.branch
  let indices ← frames.sent.indices busmap faultedNodes
  return (datadump str frames.sent indices, inverse busmap)

/-- The server reads the columns of bus numbers as those of `msg`. -/
structure ReadsIndices {nbr ng nb nd : ℕ} (data : Datadump) (msg : VIPayload K nbr ng nb nd) : Prop where
  T : readInts data.branchT = some ((List.ofFn msg.branchT).map Int.ofNat)
  F : readInts data.branchF = some ((List.ofFn msg.branchF).map Int.ofNat)
  G : readInts data.genBus = some ((List.ofFn msg.genBus).map Int.ofNat)
  B : readInts data.batBus = some ((List.ofFn msg.batBus).map Int.ofNat)
  D : readInts data.shuntBus = some ((List.ofFn msg.shuntBus).map Int.ofNat)
  faultedNodes : readInts data.faultedNodes = some (msg.faultedNodes.map Int.ofNat)

end

end Grip.Islanding
