/-
A request to manage an island, on the server's side: `read_IMpayload` splits and parses the columns, the
baseline tables of the island are read, and `manage_island` is called with both. Whatever the tables hold,
the model that is built from sane data is one the optimiser can solve.
-/
import GripAbsorption.Islanding.Columns
import GripAbsorption.Dispatch.Clock
import GripAbsorption.Dispatch.Row

namespace Grip.Dispatch

open Grip.Base Grip.Islanding

/-! ## The message -/

/-- The fields of the message. -/
structure IMDatadump where
  island : String
  t0 : Stamp
  tInc : ℤ
  solargens : Text
  batteries : Text
  e0Battery : Text
  emaxBattery : Text
  pmaxBattery : Text
  e0Virtualb : Text
  emaxVirtualb : Text
  gens : Text
  pmaxGens : Text

/-- What `read_IMpayload` returns. -/
structure IMArrays (K : Type) where
  island : String
  t0 : Stamp
  tInc : ℤ
  batteries : List Text
  e0Battery : List K
  emaxBattery : List K
  pmaxBattery : List K
  e0Virtualb : List K
  emaxVirtualb : List K
  gens : List Text
  pmaxGens : List K
  solargens : List Text

/-- `read_IMpayload`, with the function that parses a `Float64`. -/
def readIMPayload {K : Type} (parseFloat : Text → Option K) (msg : IMDatadump) : Option (IMArrays K) := do
  let batteries := split msg.batteries
  let e0Battery ← readWith parseFloat msg.e0Battery
  let emaxBattery ← readWith parseFloat msg.emaxBattery
  let pmaxBattery ← readWith parseFloat msg.pmaxBattery
  let e0Virtualb ← readWith parseFloat msg.e0Virtualb
  let emaxVirtualb ← readWith parseFloat msg.emaxVirtualb
  let gens := split msg.gens
  let pmaxGens ← readWith parseFloat msg.pmaxGens
  let solargens := split msg.solargens
  return ⟨msg.island, msg.t0, msg.tInc, batteries, e0Battery, emaxBattery, pmaxBattery, e0Virtualb, emaxVirtualb,
    gens, pmaxGens, solargens⟩

/-! ## The call -/

/-- The tables of `load_baseline-$island.csv` and `solar_baseline-$island.csv`. -/
structure IslandTables (K : Type) where
  nsolar : ℕ
  load : List (BaselineRow K)
  solarNames : Fin nsolar → String
  solar : List (Fin nsolar → K)

section

variable {K : Type} [Field K]

/-- The arguments of `manage_island`. The server passes `solargens` to nothing. -/
def IMArrays.args (a : IMArrays K) (tables : IslandTables K) :
    ManageArgs K tables.nsolar a.pmaxGens.length a.pmaxBattery.length where
  t0 := a.t0
  tInc := a.tInc
  island := a.island
  loadBaseline := tables.load
  solarNames := tables.solarNames
  psBaseline := tables.solar
  gens := a.gens.map String.ofList
  pmaxGens := a.pmaxGens.get
  batteries := a.batteries.map String.ofList
  pmaxBattery := a.pmaxBattery.get
  e0Battery := fun b => entry a.e0Battery (b + 1)
  emaxBattery := fun b => entry a.emaxBattery (b + 1)
  e0Virtualb := a.e0Virtualb
  emaxVirtualb := a.emaxVirtualb

/-- `@assert(length(Pmax_battery)==length(E0_battery)==length(Emax_battery))`. -/
def IMArrays.Aligned (a : IMArrays K) : Prop :=
  a.pmaxBattery.length = a.e0Battery.length ∧ a.e0Battery.length = a.emaxBattery.length

instance (a : IMArrays K) : Decidable a.Aligned := inferInstanceAs (Decidable (_ ∧ _))

variable [LinearOrder K]

/-- What the solver may answer: the values of a plan it reports as solved are feasible, and it solves a model that
has a feasible plan and an objective bounded below. -/
structure Solves {nsolar ngens nbatt : ℕ} (d : IslandModel K nsolar ngens nbatt) (o : Answer K nsolar ngens nbatt) : Prop where
  feasible : o.status.solved = true → Feasible d o.values
  solved : (∃ x, Feasible d x) → (∃ bound, ∀ x, Feasible d x → bound ≤ objective d x) → o.status.solved = true

/-- The server's branch for a request to manage: the row it sends. -/
def Manages (parseFloat : Text → Option K) (files : String → Option (IslandTables K)) (msg : IMDatadump) (row : Row K) : Prop :=
  ∃ a tables d o, readIMPayload parseFloat msg = some a ∧ files a.island = some tables ∧ a.Aligned ∧
    buildModel (a.args tables) = .ok d ∧ Solves d o ∧ manageIsland (a.args tables) o = .ok row

end

/-! ## Sane data -/

section

variable {K : Type} [Field K] [LinearOrder K]

theorem mem_startAt {α : Type} {i : ℕ} {xs : List α} {x : α} (h : x ∈ startAt i xs) : x ∈ xs := by
  rcases List.mem_append.1 h with h | h
  exacts [List.mem_of_mem_drop h, List.mem_of_mem_take h]

theorem mem_everyNth {α : Type} {s : ℕ} {xs : List α} {x : α} (h : x ∈ everyNth s xs) : x ∈ xs := by
  obtain ⟨j, -, hj⟩ := List.mem_filterMap.1 h
  exact List.mem_of_getElem? hj

theorem entry_nonneg {xs : List K} (h : ∀ x ∈ xs, 0 ≤ x) (k : ℕ) : 0 ≤ entry xs k := by
  unfold entry
  cases hx : xs[k - 1]? with
  | none => exact le_refl _
  | some x => exact h x (List.mem_of_getElem? hx)

/-- Loads and solar power are not negative, and the rows of the load table are in the order of time. -/
structure IslandTables.Sane (tables : IslandTables K) : Prop where
  load : ∀ r ∈ tables.load, 0 ≤ r.fBaseline ∧ 0 ≤ r.nfBaseline
  solar : ∀ r ∈ tables.solar, ∀ s, 0 ≤ r s
  ordered : tables.load.Pairwise fun r r' => r.timestamp.sec ≤ r'.timestamp.sec

/-- Limits are not negative, every battery is between empty and full, and there is one virtual battery. -/
structure IMArrays.Sane (a : IMArrays K) : Prop where
  gens : ∀ x ∈ a.pmaxGens, 0 ≤ x
  rates : ∀ x ∈ a.pmaxBattery, 0 ≤ x
  charge : ∀ b, 0 ≤ entry a.e0Battery (b + 1) ∧ entry a.e0Battery (b + 1) ≤ entry a.emaxBattery (b + 1)
  aligned : a.Aligned
  virtuals : a.e0Virtualb.length = a.emaxVirtualb.length

variable {a : IMArrays K} {tables : IslandTables K}

omit [Field K] [LinearOrder K] in
/-- The first two rows that are kept are rows of the table in its order. -/
theorem firstStep_everyNth_nonneg {rows : List (BaselineRow K)} {s : ℕ} (hs : 0 < s)
    (hrows : rows.Pairwise fun r r' => r.timestamp.sec ≤ r'.timestamp.sec) {step : ℤ}
    (h : firstStep (everyNth s rows) = .ok step) : 0 ≤ step := by
  have hfirst := getElem?_everyNth hs rows 0
  have hsecond := getElem?_everyNth hs rows 1
  generalize everyNth s rows = kept at h hfirst hsecond
  match kept, h with
  | r₁ :: r₂ :: _, h =>
    cases h
    rw [zero_mul, List.getElem?_cons_zero] at hfirst
    rw [one_mul, List.getElem?_cons_succ, List.getElem?_cons_zero] at hsecond
    obtain ⟨h₁, hr₁⟩ := List.getElem?_eq_some_iff.1 hfirst.symm
    obtain ⟨h₂, hr₂⟩ := List.getElem?_eq_some_iff.1 hsecond.symm
    have hle := List.pairwise_iff_getElem.1 hrows 0 s h₁ h₂ hs
    rw [hr₁, hr₂] at hle
    omega

variable [IsStrictOrderedRing K]

/-- The model built from sane data has no negative limit. -/
theorem buildModel_nonneg (ha : a.Sane) (ht : tables.Sane)
    {d : IslandModel K tables.nsolar a.pmaxGens.length a.pmaxBattery.length} (h : buildModel (a.args tables) = .ok d) :
    d.Nonneg ∧ d.e0Virtualb.length = d.emaxVirtualb.length := by
  unfold buildModel at h
  obtain ⟨i, -, h⟩ := bind_ok.1 h
  obtain ⟨-, -, h⟩ := bind_ok.1 h
  obtain ⟨step, -, h⟩ := bind_ok.1 h
  obtain ⟨s, hs, h⟩ := bind_ok.1 h
  obtain ⟨delta, hdelta, h⟩ := bind_ok.1 h
  obtain ⟨-, -, h⟩ := bind_ok.1 h
  obtain ⟨-, -, h⟩ := bind_ok.1 h
  cases h
  -- a series holds entries of its column only
  have hseries : ∀ f : BaselineRow K → K, (∀ r ∈ tables.load, 0 ≤ f r) →
      ∀ k, 0 ≤ entry (everyNth s (startAt i (tables.load.map f))) k := by
    refine fun f hf k => entry_nonneg (fun x hx => ?_) k
    obtain ⟨r, hr, rfl⟩ := List.mem_map.1 (mem_startAt (mem_everyNth hx))
    exact hf r hr
  refine ⟨⟨fun k _ => hseries _ (fun r hr => (ht.load r hr).2) k, fun k _ => hseries _ (fun r hr => (ht.load r hr).1) k,
    fun n k _ => entry_nonneg (fun x hx => ?_) k, fun g => ha.gens _ (List.get_mem ..), fun b => ha.rates _ (List.get_mem ..),
    fun b => ha.charge b, ?_⟩, ha.virtuals⟩
  · obtain ⟨r, hr, rfl⟩ := List.mem_map.1 hx
    exact ht.solar r (List.mem_of_mem_take (mem_startAt (mem_everyNth hr))) n
  · have hstep := firstStep_everyNth_nonneg (pos_of_strideOf hs) ht.ordered hdelta
    have hcast : (0 : K) ≤ (delta : K) := Int.cast_nonneg hstep
    positivity

/-- Such a model can be solved: shedding everything is feasible. -/
theorem solvable_of_sane (ha : a.Sane) (ht : tables.Sane)
    {d : IslandModel K tables.nsolar a.pmaxGens.length a.pmaxBattery.length} (h : buildModel (a.args tables) = .ok d) :
    (∃ x, Feasible d x) ∧ ∃ bound, ∀ x, Feasible d x → bound ≤ objective d x := by
  obtain ⟨hd, hv⟩ := buildModel_nonneg ha ht h
  exact ⟨⟨d.shedAll, IslandModel.shedAll_feasible hd hv⟩, _, fun _ hx => IslandModel.objective_bound hd hx⟩

/-- Every answer of the solver to such a model is a solution. -/
theorem solved_of_sane (ha : a.Sane) (ht : tables.Sane)
    {d : IslandModel K tables.nsolar a.pmaxGens.length a.pmaxBattery.length} (h : buildModel (a.args tables) = .ok d)
    {o : Answer K tables.nsolar a.pmaxGens.length a.pmaxBattery.length} (ho : Solves d o) :
    o.status.solved = true ∧ Feasible d o.values := by
  obtain ⟨hfeasible, hbounded⟩ := solvable_of_sane ha ht h
  have hsolved := ho.solved hfeasible hbounded
  exact ⟨hsolved, ho.feasible hsolved⟩

omit [IsStrictOrderedRing K] in
/-- The row of a solution is a dispatch. -/
theorem dispatched_of_solved {d : IslandModel K tables.nsolar a.pmaxGens.length a.pmaxBattery.length}
    (hn : WellNamed (a.args tables)) (hd : buildModel (a.args tables) = .ok d)
    {o : Answer K tables.nsolar a.pmaxGens.length a.pmaxBattery.length} (hsolved : o.status.solved = true)
    (hx : Feasible d o.values) {row : Row K} (hrow : manageIsland (a.args tables) o = .ok row) :
    Dispatched (a.args tables) d row := by
  unfold manageIsland at hrow
  rw [hd] at hrow
  cases hrow
  have hs := shows_columns hn o.atSecond (d.nonflexLoad 2)
  unfold Answer.atSecond at hs
  rw [if_pos hsolved] at hs
  unfold results Answer.atSecond
  rw [if_pos hsolved]
  exact hs.dispatched hn hd hx

end

end Grip.Dispatch
