/-
The request to manage an island, from the controller's readings to what the optimiser is given. Every
column of `get_island_management_data` is made by a loop over the same batteries, so that the server reads
one value for each of them in one order; the state of charge is a part of the capacity, so each battery
starts between empty and full. No request of the controller makes the optimisation unsolvable.
-/
import GripAbsorption.Absorption.Management
import GripAbsorption.Dispatch.Request

namespace Grip.Absorption

open Grip.Base Grip.Islanding Grip.Dispatch

/-! ## Readings -/

/-- A battery object, with the charge rate (in W) of the inverter that is its parent, if it has one. The
capacity is in Wh. -/
structure ManagedBattery (K : Type) where
  name : Text
  supernodeName : Text
  generatorStatus : Text
  stateOfCharge : K
  capacity : K
  parentRate : Option K

structure ManagedSolar where
  name : Text
  supernodeName : Text
  generatorStatus : Text

/-- The objects that are read. -/
structure Resources (K : Type) where
  batteries : List (ManagedBattery K)
  solars : List ManagedSolar

section

variable {K : Type} [Field K]

/-- `convert_power_units(x,'Wh','kW')` and `convert_power_units(x,'W','kW')`, of a number. -/
def toKW (x : K) : K := x * (1000 : ℕ) / (1000000 : ℕ)

/-- The object is at a supernode of the island and online. -/
def isManaged (island : Island) (supernodeName generatorStatus : Text) : Except Err Bool := do
  let digits ← orRaise .attributeError (digitRun supernodeName)
  return decide (intOf digits ∈ island ∧ generatorStatus = "ONLINE".toList)

/-- `[x for x in l if isManaged(x)]`. -/
def managed {α : Type} (cond : α → Except Err Bool) (l : List α) : Except Err (List α) := do
  let flags ← l.mapM cond
  return ((l.zip flags).filter (·.2)).map (·.1)

/-- What the three columns hold of a battery: `E0_battery`, `Emax_battery` and `Pmax_battery`. -/
def batteryColumns (b : ManagedBattery K) : Except Err (K × K × K) := do
  let rate ← orRaise (.keyError .gldObject) b.parentRate
  return (b.stateOfCharge * toKW b.capacity, toKW b.capacity, toKW rate)

/-- `get_island_management_data`, with the virtual battery's state of charge and number of devices. -/
def getIslandManagementData (str : K → Text) (res : Resources K) (clock : Stamp) (tInc : ℤ) (island : Island)
    (virtualBattery : Except Err (K × ℕ)) : Except Err IMDatadump := do
  let batteries ← managed (fun b => isManaged island b.supernodeName b.generatorStatus) res.batteries
  let solar ← managed (fun s => isManaged island s.supernodeName s.generatorStatus) res.solars
  let columns ← batteries.mapM batteryColumns
  let (soc, ndev) ← virtualBattery
  return {
    island := islandStr island
    t0 := clock
    tInc := tInc
    solargens := convert id (solar.map (·.name))
    batteries := convert id (batteries.map (·.name))
    e0Battery := convert str (columns.map (·.1))
    emaxBattery := convert str (columns.map (·.2.1))
    pmaxBattery := convert str (columns.map (·.2.2))
    e0Virtualb := convert str [soc]
    emaxVirtualb := convert natText [ndev * 5]
    gens := convert id []
    pmaxGens := convert str [] }

end

/-! ## What the server reads -/

section

variable {α : Type} {cond : α → Except Err Bool} {l l' : List α}

/-- The condition, where nothing is raised. -/
def holds (cond : α → Except Err Bool) (x : α) : Bool := (cond x).toOption.getD false

theorem managed_eq (h : managed cond l = .ok l') : l' = l.filter (holds cond) := by
  obtain ⟨flags, hflags, hl'⟩ := bind_ok.1 h
  cases hl'
  have hrows := forall₂_of_mapM hflags
  clear h hflags
  induction hrows with
  | nil => rfl
  | @cons x b l flags hx _ ih =>
    have hholds : holds cond x = b := by unfold holds; rw [hx]; rfl
    rw [List.zip_cons_cons, List.filter_cons, List.filter_cons, hholds]
    cases b with
    | false => simpa using ih
    | true => simpa using ih

end

variable {K : Type} [Field K] {str : K → Text} {res : Resources K} {clock : Stamp} {tInc : ℤ} {island : Island}
  {virtualBattery : Except Err (K × ℕ)} {msg : IMDatadump}

/-- The online batteries of the island. -/
def Resources.islandBatteries (res : Resources K) (island : Island) : List (ManagedBattery K) :=
  res.batteries.filter (holds fun b => isManaged island b.supernodeName b.generatorStatus)

/-- The online solar generators of the island. -/
def Resources.islandSolars (res : Resources K) (island : Island) : List ManagedSolar :=
  res.solars.filter (holds fun s => isManaged island s.supernodeName s.generatorStatus)

/-- What a server that reads the request gets: one entry a battery in every column. -/
def Resources.arrays (res : Resources K) (clock : Stamp) (tInc : ℤ) (island : Island) (soc : K) (ndev : ℕ) : IMArrays K where
  island := islandStr island
  t0 := clock
  tInc := tInc
  batteries := (res.islandBatteries island).map (·.name)
  e0Battery := (res.islandBatteries island).map fun b => b.stateOfCharge * toKW b.capacity
  emaxBattery := (res.islandBatteries island).map fun b => toKW b.capacity
  pmaxBattery := (res.islandBatteries island).map fun b => toKW (b.parentRate.getD 0)
  e0Virtualb := [soc]
  emaxVirtualb := [((ndev * 5 : ℕ) : K)]
  gens := []
  pmaxGens := []
  solargens := (res.islandSolars island).map (·.name)

/-- Names are words, the numbers that are written are doubles, and the devices can be counted in one. -/
structure Resources.Fits (res : Resources K) (double : Set K) (island : Island) (soc : K) (ndev : ℕ) : Prop where
  batteries : ∀ b ∈ res.batteries, IsWord b.name
  solars : ∀ s ∈ res.solars, IsWord s.name
  charge : ∀ b ∈ res.islandBatteries island, b.stateOfCharge * toKW b.capacity ∈ double
  capacity : ∀ b ∈ res.islandBatteries island, toKW b.capacity ∈ double
  rate : ∀ b ∈ res.islandBatteries island, toKW (b.parentRate.getD 0) ∈ double
  soc : soc ∈ double
  ndev : ndev * 5 ≤ 2 ^ 53

/-- The columns of the batteries that are managed. -/
theorem columns_eq {bs : List (ManagedBattery K)} {columns : List (K × K × K)} (h : bs.mapM batteryColumns = .ok columns) :
    columns = bs.map fun b => (b.stateOfCharge * toKW b.capacity, toKW b.capacity, toKW (b.parentRate.getD 0)) := by
  rw [← List.forall₂_eq_eq_eq, List.forall₂_map_right_iff]
  refine (forall₂_of_mapM h).flip.imp fun c b hb => ?_
  obtain ⟨rate, hrate, hb⟩ := bind_ok.1 hb
  cases hb
  rw [orRaise_eq_ok.1 hrate]
  rfl

/-- What is in a request that is sent. -/
structure Requested (str : K → Text) (res : Resources K) (clock : Stamp) (tInc : ℤ) (island : Island) (soc : K) (ndev : ℕ)
    (msg : IMDatadump) : Prop where
  t0 : msg.t0 = clock
  tInc : msg.tInc = tInc
  solargens : msg.solargens = convert id ((res.islandSolars island).map (·.name))
  batteries : msg.batteries = convert id ((res.islandBatteries island).map (·.name))
  e0Battery : msg.e0Battery = convert str ((res.islandBatteries island).map fun b => b.stateOfCharge * toKW b.capacity)
  emaxBattery : msg.emaxBattery = convert str ((res.islandBatteries island).map fun b => toKW b.capacity)
  pmaxBattery : msg.pmaxBattery = convert str ((res.islandBatteries island).map fun b => toKW (b.parentRate.getD 0))
  e0Virtualb : msg.e0Virtualb = convert str [soc]
  emaxVirtualb : msg.emaxVirtualb = convert natText [ndev * 5]
  gens : msg.gens = []
  pmaxGens : msg.pmaxGens = []
  island : msg.island = islandStr island

theorem requested (h : getIslandManagementData str res clock tInc island virtualBattery = .ok msg) :
    ∃ soc ndev, virtualBattery = .ok (soc, ndev) ∧ Requested str res clock tInc island soc ndev msg := by
  obtain ⟨batteries, hbatteries, h⟩ := bind_ok.1 h
  obtain ⟨solar, hsolar, h⟩ := bind_ok.1 h
  obtain ⟨columns, hcolumns, h⟩ := bind_ok.1 h
  obtain ⟨⟨soc, ndev⟩, hvb, h⟩ := bind_ok.1 h
  cases h
  obtain rfl := managed_eq hbatteries
  obtain rfl := managed_eq hsolar
  obtain rfl := columns_eq hcolumns
  refine ⟨soc, ndev, hvb, rfl, rfl, rfl, rfl, ?_, ?_, ?_, rfl, rfl, rfl, rfl, rfl⟩
  all_goals exact congrArg (convert str) (List.map_map ..)

variable {parseFloat : Text → Option K} {double : Set K} {soc : K} {ndev : ℕ}

/-- The server reads every column as it was written. -/
theorem Requested.read (h : Requested str res clock tInc island soc ndev msg) (hc : FloatCodec str parseFloat double)
    (hf : res.Fits double island soc ndev) :
    readIMPayload parseFloat msg = some (res.arrays clock tInc island soc ndev) := by
  have hbatteries : split (convert id ((res.islandBatteries island).map (·.name))) = _ :=
    split_convert (List.forall_mem_map.2 fun b hb => hf.batteries b (List.mem_of_mem_filter hb))
  have hsolars : split (convert id ((res.islandSolars island).map (·.name))) = _ :=
    split_convert (List.forall_mem_map.2 fun s hs => hf.solars s (List.mem_of_mem_filter hs))
  have he0 := hc.read_float (List.forall_mem_map.2 hf.charge)
  have hemax := hc.read_float (List.forall_mem_map.2 hf.capacity)
  have hpmax := hc.read_float (List.forall_mem_map.2 hf.rate)
  have hsoc := hc.read_float (List.forall_mem_singleton.2 hf.soc)
  have hndev := hc.read_nat (List.forall_mem_singleton.2 hf.ndev)
  have hnone : readWith parseFloat [] = some [] := rfl
  unfold readIMPayload
  simp only [h.island, h.t0, h.tInc, h.solargens, h.batteries, h.e0Battery, h.emaxBattery, h.pmaxBattery, h.e0Virtualb,
    h.emaxVirtualb, h.gens, h.pmaxGens, hbatteries, hsolars, he0, hemax, hpmax, hsoc, hndev, hnone, Option.bind_eq_bind,
    Option.bind_some, Option.pure_def]
  rfl

variable [LinearOrder K] [IsStrictOrderedRing K]

/-- Batteries have a state of charge between 0 and 1, and no negative capacity or rate. -/
structure Resources.Sane (res : Resources K) : Prop where
  stateOfCharge : ∀ b ∈ res.batteries, 0 ≤ b.stateOfCharge ∧ b.stateOfCharge ≤ 1
  capacity : ∀ b ∈ res.batteries, 0 ≤ b.capacity
  rate : ∀ b ∈ res.batteries, 0 ≤ b.parentRate.getD 0

theorem toKW_nonneg {x : K} (h : 0 ≤ x) : 0 ≤ toKW x := by
  unfold toKW
  positivity

/-- Every battery starts between empty and full. -/
theorem Resources.Sane.arrays (h : res.Sane) (clock : Stamp) (tInc : ℤ) (island : Island) (soc : K) (ndev : ℕ) :
    (res.arrays clock tInc island soc ndev).Sane where
  gens := fun x hx => by cases hx
  rates := List.forall_mem_map.2 fun b hb => toKW_nonneg (h.rate b (List.mem_of_mem_filter hb))
  charge := fun i => by
    simp only [Resources.arrays, entry, Nat.add_sub_cancel, List.getElem?_map]
    cases hb : (res.islandBatteries island)[i]? with
    | none => exact ⟨le_refl _, le_refl _⟩
    | some b =>
      have hmem := List.mem_of_mem_filter (List.mem_of_getElem? hb)
      obtain ⟨h0, h1⟩ := h.stateOfCharge b hmem
      have hcap := toKW_nonneg (h.capacity b hmem)
      exact ⟨mul_nonneg h0 hcap, mul_le_of_le_one_left hcap h1⟩
  aligned := by simp [IMArrays.Aligned, Resources.arrays]
  virtuals := rfl

/-- Every request that is sent is read entry by entry; and whatever the baseline tables of the island hold, as long as
loads and solar power are not negative and the rows are in the order of time: a model that is built from the request has
a feasible plan and a bounded objective, its answer is a solution, and the row that is sent back is balanced and within
the limits of its interval where no two columns have one name. -/
theorem request_solvable (str : K → Text) (parseFloat : Text → Option K) (double : Set K) (res : Resources K)
    (clock : Stamp) (tInc : ℤ) (island : Island) (soc : K) (ndev : ℕ) (msg : IMDatadump)
    (hc : FloatCodec str parseFloat double) (hf : res.Fits double island soc ndev) (hs : res.Sane)
    (h : getIslandManagementData str res clock tInc island (.ok (soc, ndev)) = .ok msg) :
    ∃ a : IMArrays K, readIMPayload parseFloat msg = some a ∧ a = res.arrays clock tInc island soc ndev ∧ a.Aligned ∧
      ∀ (tables : IslandTables K) (d : IslandModel K tables.nsolar a.pmaxGens.length a.pmaxBattery.length),
        tables.Sane → buildModel (a.args tables) = .ok d →
        (∃ x, Feasible d x) ∧ (∃ bound, ∀ x, Feasible d x → bound ≤ objective d x) ∧
        ∀ o, Solves d o → o.status.solved = true ∧ Feasible d o.values ∧
          ∀ row, Dispatch.manageIsland (a.args tables) o = .ok row → WellNamed (a.args tables) →
            Dispatched (a.args tables) d row := by
  obtain ⟨soc', ndev', hvb, hr⟩ := requested h
  cases hvb
  have hsane := hs.arrays clock tInc island soc ndev
  refine ⟨_, hr.read hc hf, rfl, hsane.aligned, fun tables d ht hd => ?_⟩
  obtain ⟨hfeasible, hbounded⟩ := solvable_of_sane hsane ht hd
  refine ⟨hfeasible, hbounded, fun o ho => ?_⟩
  obtain ⟨hsolved, hvalues⟩ := solved_of_sane hsane ht hd ho
  exact ⟨hsolved, hvalues, fun row hrow hn => dispatched_of_solved hn hd hsolved hvalues hrow⟩

/-! ## An island of one battery -/

def islandResources : Resources ℚ where
  batteries := [⟨"battery_101".toList, "supernode_101".toList, "ONLINE".toList, 1 / 2, 1000, some 1000⟩,
    ⟨"battery_102".toList, "supernode_102".toList, "ONLINE".toList, 1, 500, some 200⟩]
  solars := [⟨"solar_101".toList, "supernode_101".toList, "ONLINE".toList⟩]

theorem islandResources_fits : islandResources.Fits {1 / 10, 1 / 2, 1} [101] 1 2 := by
  have hbattery : islandResources.islandBatteries [101] =
      [⟨"battery_101".toList, "supernode_101".toList, "ONLINE".toList, 1 / 2, 1000, some 1000⟩] := by
    rfl
  constructor
  case batteries => decide +kernel
  case solars => decide +kernel
  case ndev => norm_num
  case soc => simp
  all_goals
    rw [hbattery]
    norm_num [toKW]

theorem islandResources_sane : islandResources.Sane := by
  constructor <;> norm_num [islandResources]

/-- Two baseline rows three minutes apart. -/
def twoRows : IslandTables ℚ where
  nsolar := 0
  load := [⟨⟨0, "-04:00"⟩, 1, 2⟩, ⟨⟨180, "-04:00"⟩, 1, 2⟩]
  solarNames := fun _ => ""
  solar := [fun _ => 0, fun _ => 0]

theorem islandResources_solvable : ∃ msg a d,
    getIslandManagementData fewDoubles islandResources ⟨0, "-04:00"⟩ 3 [101] (.ok (1, 2)) = .ok msg ∧
    readIMPayload parseFew msg = some a ∧ buildModel (a.args twoRows) = .ok d ∧ ∃ x, Feasible d x := by
  have hrun : (getIslandManagementData fewDoubles islandResources ⟨0, "-04:00"⟩ 3 [101] (.ok (1, 2))).toOption.isSome = true := by
    decide +kernel
  obtain ⟨msg, hmsg⟩ := Option.isSome_iff_exists.1 hrun
  rw [toOption_eq_some] at hmsg
  obtain ⟨a, hread, rfl, -, h⟩ := request_solvable fewDoubles parseFew _ islandResources ⟨0, "-04:00"⟩ 3 [101] 1 2 msg
    fewDoubles_codec islandResources_fits islandResources_sane hmsg
  have htables : twoRows.Sane := ⟨by decide +kernel, by decide +kernel, by decide +kernel⟩
  obtain ⟨d, hd⟩ : ∃ d, buildModel ((islandResources.arrays ⟨0, "-04:00"⟩ 3 [101] 1 2).args twoRows) = .ok d := ⟨_, rfl⟩
  exact ⟨msg, _, d, hmsg, hread, hd, (h twoRows d htables hd).1⟩

end Grip.Absorption
