/-
The baseline tables of an island. `get_island_baseline_data` adds up the columns of an island's supernodes, and
writes the sums to files that bear the island's name; the server reads the files of the island a request names.
A file name says which supernodes it is for, so every island is managed on its own loads, and where the baseline
is sane every request that can be modelled is solved on them.
-/
import GripAbsorption.Absorption.Request
import GripAbsorption.Absorption.Setpoint
import GripAbsorption.Dispatch.Clock

namespace Grip.Absorption

open Grip.Base Grip.Islanding Grip.Dispatch

/-! ## Tables -/

/-- What `pd.read_csv` makes of a file with a column of timestamps: the other columns have an entry for each of them. -/
structure Sheet (K : Type) where
  timestamp : List Stamp
  columns : Dict Text (List K)
  aligned : ∀ c ∈ columns.rows, c.2.length = timestamp.length

/-- `Loads_baseline.csv`, `Ps_baseline.csv`, and `generator_status` of the objects that have one. -/
structure Baseline (K : Type) where
  loads : Sheet K
  solar : Sheet K
  generatorStatus : Text → Option Text

inductive BaselineErr
  | keyError
  | attributeError
  | valueError
  /-- GridLAB-D has no such value -/
  | noValue
  deriving DecidableEq, Repr

/-- `'<kind>_load_{:03d}[kW]'.format(n)`. -/
def loadColumn (kind : String) (n : ℕ) : Text := kind.toList ++ "_load_".toList ++ pad3 n ++ "[kW]".toList

section

variable {K : Type} [Field K]

/-- The column, as a row of numbers; 0 where it has none. -/
def Sheet.value (s : Sheet K) (name : Text) (j : ℕ) : K := ((s.columns.get? name).bind (·[j]?)).getD 0

/-- `xs += ys`, of columns. -/
def addColumn (xs ys : List K) : List K := List.zipWith (· + ·) xs ys

/-- The body of the loop over the supernodes: `f_baseline` and `nf_baseline`, the second of which is the total load at
that point. -/
def nodeTurn (loads : Sheet K) (acc : List K × List K) (n : ℕ) : Except BaselineErr (List K × List K) :=
  match loads.columns.get? (loadColumn "hvac" n) with
  | none => return acc
  | some hvac => do
    let wh ← orRaise .keyError (loads.columns.get? (loadColumn "wh" n))
    let total ← orRaise .keyError (loads.columns.get? (loadColumn "total" n))
    return (addColumn (addColumn acc.1 hvac) wh, addColumn acc.2 total)

/-- `c.split(':')[0].strip(' ')`. -/
def objectName (c : Text) : Text := ((c.takeWhile (· ≠ ':')).dropWhile (· = ' ')).rdropWhile (· = ' ')

/-- The solar column is that of an online generator at a supernode of the island. -/
def isOnlineAt (generatorStatus : Text → Option Text) (island : Island) (c : Text) : Except BaselineErr Bool := do
  let digits ← orRaise .attributeError (digitRun c)
  if intOf digits ∈ island then
    let status ← orRaise .noValue (generatorStatus (objectName c))
    return decide (status = "ONLINE".toList)
  else return false

/-- The columns of `island_gens`. -/
def islandGens (generatorStatus : Text → Option Text) (island : Island) :
    List (Text × List K) → Except BaselineErr (List (Text × List K))
  | [] => return []
  | c :: cs => do
    let keep ← isOnlineAt generatorStatus island c.1
    let gens ← islandGens generatorStatus island cs
    return if keep then c :: gens else gens

/-- `xs.mean()`, which is no number of an empty column. -/
def mean (xs : List K) : Option K := if xs = [] then none else some (xs.sum / (xs.length : K))

/-- What is made of the baseline for an island: the two tables, and the mean of its total load. -/
def islandTables (b : Baseline K) (island : Island) : Except BaselineErr (IslandTables K × Option K) := do
  let zeros := List.replicate b.loads.timestamp.length (0 : K)
  let (f, total) ← island.foldlM (nodeTurn b.loads) (zeros, zeros)
  let gens ← islandGens b.generatorStatus island b.solar.columns.rows
  if b.solar.timestamp.length ≠ b.loads.timestamp.length then throw .valueError
  return ({
    nsolar := gens.length
    load := (b.loads.timestamp.zip (f.zip total)).map fun (t, f, total) => ⟨t, f, total - f⟩
    solarNames := fun s => String.ofList (gens.get s).1
    solar := (List.range b.solar.timestamp.length).map fun j s => ((gens.get s).2[j]?).getD 0 }, mean total)

/-- `get_island_baseline_data`: the files by the names of their islands, and the mean loads. -/
def getIslandBaselineData (b : Baseline K) (islands : List Island)
    (acc : Dict String (IslandTables K) × Dict Island (Option K)) :
    Except BaselineErr (Dict String (IslandTables K) × Dict Island (Option K)) :=
  islands.foldlM (fun (files, means) island => do
    let (tables, m) ← islandTables b island
    return (files.put (islandStr island) tables, means.put island m)) acc

end

/-! ## Names of files -/

/-- The parts of a file's name between the underscores. -/
theorem parts_islandStr (island : Island) : ((islandStr island).toList.splitOn '_').filter (· ≠ []) =
    (island.insertionSort (· ≤ ·)).map natText := by
  have htext : (islandStr island).toList = ['_'].intercalate ((island.insertionSort (· ≤ ·)).map natText) := by
    unfold islandStr
    rw [String.toList_intercalate, List.map_map]
    exact congrArg _ (List.map_congr_left fun n _ => Nat.toList_repr)
  rw [htext]
  by_cases hnil : island.insertionSort (· ≤ ·) = []
  · rw [hnil]
    decide
  · rw [List.splitOn_intercalate _ (List.forall_mem_map.2 fun n _ hmem => ?_) (by simpa using hnil),
      List.filter_eq_self.2 (List.forall_mem_map.2 fun n _ => by simpa using natText_ne_nil n)]
    exact absurd (isDigit_natText hmem) (by decide)

/-- A file's name says which supernodes it is for. -/
theorem perm_of_islandStr {i j : Island} (h : islandStr i = islandStr j) : i.Perm j := by
  have hinj : Function.Injective natText := fun a b hab => by
    rw [← intOf_natText a, hab, intOf_natText]
  have hparts := parts_islandStr i
  rw [h, parts_islandStr] at hparts
  have hsorted := hinj.list_map hparts
  exact (List.perm_insertionSort _ i).symm.trans (hsorted ▸ List.perm_insertionSort _ j)

/-! ## Sums -/

section

variable {K : Type} [Field K]

theorem getD_addColumn {xs ys : List K} (h : xs.length = ys.length) (j : ℕ) :
    ((addColumn xs ys)[j]?).getD 0 = (xs[j]?).getD 0 + (ys[j]?).getD 0 := by
  unfold addColumn
  rw [List.getElem?_zipWith]
  by_cases hj : j < xs.length
  · rw [List.getElem?_eq_getElem hj, List.getElem?_eq_getElem (h ▸ hj)]
    rfl
  · rw [List.getElem?_eq_none (not_lt.1 hj), List.getElem?_eq_none (h ▸ not_lt.1 hj)]
    simp

omit [Field K] in
theorem Sheet.length_of_get? {s : Sheet K} {name : Text} {xs : List K} (h : s.columns.get? name = some xs) :
    xs.length = s.timestamp.length := s.aligned (name, xs) (Dict.get?_eq_some.1 h)

theorem Sheet.value_of_get? {s : Sheet K} {name : Text} {xs : List K} (h : s.columns.get? name = some xs) (j : ℕ) :
    s.value name j = (xs[j]?).getD 0 := by
  unfold Sheet.value
  rw [h]
  rfl

/-- The supernodes of an island that have an HVAC column. -/
def Sheet.metered (loads : Sheet K) (island : Island) : List ℕ :=
  island.filter fun n => (loads.columns.get? (loadColumn "hvac" n)).isSome

/-- The HVAC and water heater loads of an island's supernodes, and all their load. -/
def Sheet.flexible (loads : Sheet K) (island : Island) (j : ℕ) : K :=
  ((loads.metered island).map fun n => loads.value (loadColumn "hvac" n) j + loads.value (loadColumn "wh" n) j).sum

def Sheet.total (loads : Sheet K) (island : Island) (j : ℕ) : K :=
  ((loads.metered island).map fun n => loads.value (loadColumn "total" n) j).sum

omit [Field K] in
theorem Sheet.metered_cons (loads : Sheet K) (n : ℕ) (island : Island) : loads.metered (n :: island) =
    if (loads.columns.get? (loadColumn "hvac" n)).isSome then n :: loads.metered island else loads.metered island := by
  unfold Sheet.metered
  rw [List.filter_cons]

/-- The loop over the supernodes adds their sums to what it starts from. -/
theorem foldlM_nodeTurn {loads : Sheet K} : ∀ {island : Island} {acc acc' : List K × List K},
    acc.1.length = loads.timestamp.length → acc.2.length = loads.timestamp.length →
    island.foldlM (nodeTurn loads) acc = .ok acc' →
    acc'.1.length = loads.timestamp.length ∧ acc'.2.length = loads.timestamp.length ∧ ∀ j,
      (acc'.1[j]?).getD 0 = (acc.1[j]?).getD 0 + loads.flexible island j ∧
      (acc'.2[j]?).getD 0 = (acc.2[j]?).getD 0 + loads.total island j
  | [], acc, acc', h1, h2, h => by
    cases h
    exact ⟨h1, h2, fun j => by simp [Sheet.flexible, Sheet.total, Sheet.metered]⟩
  | n :: island, acc, acc', h1, h2, h => by
    rw [List.foldlM_cons, bind_ok] at h
    obtain ⟨acc₁, hn, h⟩ := h
    unfold nodeTurn at hn
    cases hhvac : loads.columns.get? (loadColumn "hvac" n) with
    | none =>
      rw [hhvac] at hn
      cases hn
      obtain ⟨l1, l2, hsum⟩ := foldlM_nodeTurn h1 h2 h
      refine ⟨l1, l2, fun j => ?_⟩
      have hmetered := loads.metered_cons n island
      rw [hhvac, Option.isSome_none, if_neg Bool.false_ne_true] at hmetered
      unfold Sheet.flexible Sheet.total at hsum ⊢
      rw [hmetered]
      exact hsum j
    | some hvac =>
      rw [hhvac] at hn
      obtain ⟨wh, hwh, hn⟩ := bind_ok.1 hn
      obtain ⟨total, htotal, hn⟩ := bind_ok.1 hn
      cases hn
      rw [orRaise_eq_ok] at hwh htotal
      have lhvac := loads.length_of_get? hhvac
      have lwh := loads.length_of_get? hwh
      have ltotal := loads.length_of_get? htotal
      have l1 : (addColumn acc.1 hvac).length = loads.timestamp.length := by simp [addColumn, h1, lhvac]
      have l1' : (addColumn (addColumn acc.1 hvac) wh).length = loads.timestamp.length := by
        unfold addColumn at l1 ⊢
        simp [l1, lwh]
      have l2 : (addColumn acc.2 total).length = loads.timestamp.length := by simp [addColumn, h2, ltotal]
      obtain ⟨l3, l4, hsum⟩ := foldlM_nodeTurn l1' l2 h
      refine ⟨l3, l4, fun j => ?_⟩
      have hmetered := loads.metered_cons n island
      rw [hhvac, Option.isSome_some, if_pos rfl] at hmetered
      obtain ⟨hf, ht⟩ := hsum j
      rw [getD_addColumn (l1.trans lwh.symm), getD_addColumn (h1.trans lhvac.symm)] at hf
      rw [getD_addColumn (h2.trans ltotal.symm)] at ht
      unfold Sheet.flexible at hf ⊢
      unfold Sheet.total at ht ⊢
      rw [hmetered, List.map_cons, List.sum_cons, List.map_cons, List.sum_cons, loads.value_of_get? hhvac,
        loads.value_of_get? hwh, loads.value_of_get? htotal]
      exact ⟨hf.trans (by ring), ht.trans (by ring)⟩

/-! ## The files of an island -/

/-- The columns of the island's online generators, where nothing is raised. -/
def Baseline.gens (b : Baseline K) (island : Island) : List (Text × List K) :=
  b.solar.columns.rows.filter fun c => (isOnlineAt b.generatorStatus island c.1).toOption.getD false

omit [Field K] in
theorem islandGens_eq {generatorStatus : Text → Option Text} {island : Island} : ∀ {cols gens : List (Text × List K)},
    islandGens generatorStatus island cols = .ok gens →
    gens = cols.filter fun c => (isOnlineAt generatorStatus island c.1).toOption.getD false
  | [], gens, h => by cases h; rfl
  | c :: cols, gens, h => by
    obtain ⟨keep, hkeep, h⟩ := bind_ok.1 h
    obtain ⟨rest, hrest, h⟩ := bind_ok.1 h
    cases h
    obtain rfl := islandGens_eq hrest
    rw [List.filter_cons, hkeep]
    rfl

/-- The tables hold the island's sums in the order of the baseline, and its online generators as they are. -/
structure FiledFor (b : Baseline K) (island : Island) (tables : IslandTables K) : Prop where
  timestamps : tables.load.map BaselineRow.timestamp = b.loads.timestamp
  flexible : ∀ j r, tables.load[j]? = some r → r.fBaseline = b.loads.flexible island j
  nonflexible : ∀ j r, tables.load[j]? = some r → r.nfBaseline = b.loads.total island j - b.loads.flexible island j
  gens : List.ofFn tables.solarNames = (b.gens island).map fun c => String.ofList c.1
  solar : tables.solar.length = tables.load.length ∧ ∀ j row, tables.solar[j]? = some row →
    List.ofFn row = (b.gens island).map fun c => b.solar.value c.1 j

theorem islandTables_filed {b : Baseline K} {island : Island} {tables : IslandTables K} {m : Option K}
    (h : islandTables b island = .ok (tables, m)) : FiledFor b island tables := by
  obtain ⟨⟨f, total⟩, hsums, h⟩ := bind_ok.1 h
  obtain ⟨gens, hgens, h⟩ := bind_ok.1 h
  obtain rfl : gens = b.gens island := islandGens_eq hgens
  split at h
  · cases h
  · rename_i hlen
    rw [not_not] at hlen
    cases h
    obtain ⟨l1, l2, hsum⟩ := foldlM_nodeTurn (by simp) (by simp) hsums
    have hrow : ∀ j r, ((b.loads.timestamp.zip (f.zip total)).map fun (t, f, total) =>
        (⟨t, f, total - f⟩ : BaselineRow K))[j]? = some r →
        r.fBaseline = b.loads.flexible island j ∧ r.nfBaseline = b.loads.total island j - b.loads.flexible island j := by
      intro j r hr
      rw [List.getElem?_map, Option.map_eq_some_iff] at hr
      obtain ⟨⟨t, x, y⟩, hxy, rfl⟩ := hr
      obtain ⟨-, hxy⟩ := List.getElem?_zip_eq_some.1 hxy
      obtain ⟨hx, hy⟩ := List.getElem?_zip_eq_some.1 hxy
      obtain ⟨hf, ht⟩ := hsum j
      have hzero : ((List.replicate b.loads.timestamp.length (0 : K))[j]?).getD 0 = 0 := by
        rw [List.getElem?_replicate]
        split <;> rfl
      rw [hzero, zero_add] at hf ht
      simp only at hx hy
      rw [hx, Option.getD_some] at hf
      rw [hy, Option.getD_some] at ht
      exact ⟨hf, by rw [← hf, ← ht]⟩
    constructor
    case timestamps =>
      rw [List.map_map]
      exact List.map_fst_zip (by simp [l1, l2])
    case flexible => exact fun j r hr => (hrow j r hr).1
    case nonflexible => exact fun j r hr => (hrow j r hr).2
    case gens =>
      show List.ofFn ((fun c : Text × List K => String.ofList c.1) ∘ (b.gens island).get) = _
      rw [← List.map_ofFn, List.ofFn_get]
    case solar =>
      refine ⟨by simp [hlen, l1, l2], fun j row hrow => ?_⟩
      rw [List.getElem?_map, Option.map_eq_some_iff] at hrow
      obtain ⟨k, hk, rfl⟩ := hrow
      obtain rfl : k = j := by
        rw [List.getElem?_range (by simpa using (List.getElem?_eq_some_iff.1 hk).1)] at hk
        exact (Option.some.inj hk).symm
      show List.ofFn ((fun c : Text × List K => (c.2[k]?).getD 0) ∘ (b.gens island).get) = _
      rw [← List.map_ofFn, List.ofFn_get]
      refine List.map_congr_left fun c hc => (Sheet.value_of_get? ?_ k).symm
      exact Dict.get?_eq_some.2 (List.mem_of_mem_filter hc)

/-- Tables for some supernodes are tables for them in another order. -/
theorem FiledFor.perm {b : Baseline K} {i j : Island} {tables : IslandTables K} (h : FiledFor b i tables) (hp : i.Perm j) :
    FiledFor b j tables := by
  have hmetered : (b.loads.metered i).Perm (b.loads.metered j) := hp.filter _
  have hflexible : ∀ k, b.loads.flexible i k = b.loads.flexible j k := fun k => (hmetered.map _).sum_eq
  have htotal : ∀ k, b.loads.total i k = b.loads.total j k := fun k => (hmetered.map _).sum_eq
  have hgens : b.gens i = b.gens j := by
    have honline : ∀ c, isOnlineAt b.generatorStatus i c = isOnlineAt b.generatorStatus j c := fun c => by
      unfold isOnlineAt
      simp only [hp.mem_iff]
    unfold Baseline.gens
    simp only [honline]
  constructor
  case timestamps => exact h.timestamps
  case flexible => exact fun k r hr => (h.flexible k r hr).trans (hflexible k)
  case nonflexible => exact fun k r hr => by rw [h.nonflexible k r hr, hflexible, htotal]
  case gens => exact hgens ▸ h.gens
  case solar => exact hgens ▸ h.solar

/-- After the loop the file that bears an island's name is for the island, whatever was there before. -/
theorem getIslandBaselineData_filed {b : Baseline K} : ∀ {islands : List Island}
    {acc acc' : Dict String (IslandTables K) × Dict Island (Option K)}, getIslandBaselineData b islands acc = .ok acc' →
    ∀ island, island ∈ islands ∨ (∃ tables, acc.1.get? (islandStr island) = some tables ∧ FiledFor b island tables) →
      ∃ tables, acc'.1.get? (islandStr island) = some tables ∧ FiledFor b island tables
  | [], acc, acc', h, island, hi => by
    cases h
    exact hi.resolve_left (List.not_mem_nil)
  | i :: islands, (files, means), acc', h, island, hi => by
    unfold getIslandBaselineData at h
    rw [List.foldlM_cons, bind_ok] at h
    obtain ⟨acc₁, hstep, h⟩ := h
    obtain ⟨⟨tables, m⟩, htables, hstep⟩ := bind_ok.1 hstep
    cases hstep
    refine getIslandBaselineData_filed h island ?_
    by_cases hname : islandStr i = islandStr island
    · refine .inr ⟨tables, (Dict.get?_put ..).trans (if_pos hname), ?_⟩
      exact (islandTables_filed htables).perm (perm_of_islandStr hname)
    · rcases hi with hi | ⟨old, hold, hfiled⟩
      · exact .inl ((List.mem_cons.1 hi).resolve_left fun he => hname (he ▸ rfl))
      · exact .inr ⟨old, ((Dict.get?_put ..).trans (if_neg hname)).trans hold, hfiled⟩

end

/-! ## Requests on the files -/

section

variable {K : Type} [Field K] [LinearOrder K] [IsStrictOrderedRing K]

/-- At every time a supernode's load is at least what its HVAC and water heaters draw, solar power is not negative, and
the rows are in the order of time. -/
structure Baseline.Sane (b : Baseline K) : Prop where
  loads : ∀ n j, 0 ≤ b.loads.value (loadColumn "hvac" n) j ∧ 0 ≤ b.loads.value (loadColumn "wh" n) j ∧
    b.loads.value (loadColumn "hvac" n) j + b.loads.value (loadColumn "wh" n) j ≤ b.loads.value (loadColumn "total" n) j
  solar : ∀ name j, 0 ≤ b.solar.value name j
  ordered : b.loads.timestamp.Pairwise fun t t' => t.sec ≤ t'.sec

theorem FiledFor.sane {b : Baseline K} {island : Island} {tables : IslandTables K} (h : FiledFor b island tables)
    (hb : b.Sane) : tables.Sane where
  load := fun r hr => by
    obtain ⟨j, hj⟩ := List.mem_iff_getElem?.1 hr
    rw [h.flexible j r hj, h.nonflexible j r hj, sub_nonneg]
    refine ⟨List.sum_nonneg (List.forall_mem_map.2 fun n _ => ?_), List.sum_le_sum fun n _ => (hb.loads n j).2.2⟩
    exact add_nonneg (hb.loads n j).1 (hb.loads n j).2.1
  solar := fun row hrow s => by
    obtain ⟨j, hj⟩ := List.mem_iff_getElem?.1 hrow
    have hmem : row s ∈ List.ofFn row := (List.mem_ofFn' _ _).2 ⟨s, rfl⟩
    rw [h.solar.2 j row hj] at hmem
    obtain ⟨c, -, hc⟩ := List.mem_map.1 hmem
    exact hc ▸ hb.solar c.1 j
  ordered := by
    have hordered := hb.ordered
    rw [← h.timestamps, List.pairwise_map] at hordered
    exact hordered

/-- The row `j` is `t_inc` minutes after the first row of the clock, past the last row with the first one again. -/
def SecondAt (timestamps : List Stamp) (clock : Stamp) (tInc : ℤ) (j : ℕ) : Prop :=
  ∃ i s t t', timestamps.findIdx? (· = clock) = some i ∧ 0 < s ∧ s < timestamps.length ∧
    timestamps[0]? = some t ∧ timestamps[1]? = some t' ∧ 60 * tInc = s * (t'.sec - t.sec) ∧
    j = (i + s) % timestamps.length

omit [Field K] [LinearOrder K] [IsStrictOrderedRing K] in
theorem firstStep_times {rows : List (BaselineRow K)} {step : ℤ} (h : firstStep rows = .ok step) :
    ∃ t t', (rows.map BaselineRow.timestamp)[0]? = some t ∧ (rows.map BaselineRow.timestamp)[1]? = some t' ∧
      step = t'.sec - t.sec := by
  rcases rows with _ | ⟨r₁, _ | ⟨r₂, rows⟩⟩
  · cases h
  · cases h
  · cases h
    exact ⟨r₁.timestamp, r₂.timestamp, rfl, rfl, rfl⟩

omit [LinearOrder K] [IsStrictOrderedRing K] in
/-- The second interval of a model is that row. -/
theorem nonflexLoad_second {nsolar ngens nbatt : ℕ} {a : ManageArgs K nsolar ngens nbatt}
    {d : IslandModel K nsolar ngens nbatt} (h : buildModel a = .ok d) :
    ∃ j r, SecondAt (a.loadBaseline.map BaselineRow.timestamp) a.t0 a.tInc j ∧ a.loadBaseline[j]? = some r ∧
      d.nonflexLoad 2 = r.nfBaseline := by
  obtain ⟨t0, s, hstarts, hover⟩ := buildModel_over h
  obtain ⟨hlen, -, -⟩ := buildModel_spec h
  obtain ⟨step, hstep, hminutes⟩ := hstarts.minutes
  have ht0 := Finset.mem_Icc.1 hstarts.start
  have hs : 1 * s < a.loadBaseline.length := by
    rw [← lt_everyNth hstarts.stride, ← Nat.ceilDiv_eq_add_pred_div]
    rw [hover.horizon, ManageArgs.series, length_column _ (by omega) hstarts.stride] at hlen
    omega
  have hmod : (t0 - 1 + 1 * s) % a.loadBaseline.length < a.loadBaseline.length := Nat.mod_lt _ (by omega)
  have hrow := List.getElem?_eq_getElem hmod
  refine ⟨_, _, ?_, hrow, ?_⟩
  · obtain ⟨t, t', ht, ht', rfl⟩ := firstStep_times hstep
    refine ⟨t0 - 1, s, t, t', ?_, hstarts.stride, ?_, ht, ht', hminutes, ?_⟩
    · rw [List.findIdx?_map]
      exact hstarts.first
    · rw [List.length_map]
      omega
    · rw [List.length_map, one_mul]
  · rw [hover.nonflexLoad, ManageArgs.series]
    unfold entry
    rw [getElem?_column _ (by omega) hstarts.stride hs, hrow]
    rfl

/-- What a row that is sent back for an island is, on the files of a baseline: it balances the island within its limits,
and the load it balances is what the island's supernodes draw besides the devices, `t_inc` minutes after the clock. -/
def RowFor (b : Baseline K) (clock : Stamp) (tInc : ℤ) (island : Island) {nsolar ngens nbatt : ℕ}
    (a : ManageArgs K nsolar ngens nbatt) (d : IslandModel K nsolar ngens nbatt) (row : Dispatch.Row K) : Prop :=
  Dispatched a d row ∧ ∃ j, SecondAt b.loads.timestamp clock tInc j ∧
    row.column "nfload" = b.loads.total island j - b.loads.flexible island j

/-- For every sane baseline and every list of islands whose files are written: the file under an island's name is for
that island, and a request to manage one of them is answered exactly when a model is built from its file, by a row for
that island where no two columns have one name. -/
theorem baseline_request_answered (str : K → Text) (parseFloat : Text → Option K) (double : Set K) (b : Baseline K)
    (res : Resources K) (clock : Stamp) (tInc : ℤ) (islands : List Island) (island : Island) (soc : K) (ndev : ℕ)
    (acc files : Dict String (IslandTables K) × Dict Island (Option K)) (msg : IMDatadump)
    (hc : FloatCodec str parseFloat double) (hf : res.Fits double island soc ndev) (hs : res.Sane) (hb : b.Sane)
    (hfiles : getIslandBaselineData b islands acc = .ok files) (hi : island ∈ islands)
    (h : getIslandManagementData str res clock tInc island (.ok (soc, ndev)) = .ok msg) :
    ∃ tables, files.1.get? (islandStr island) = some tables ∧ FiledFor b island tables ∧
      ((∃ row, Manages parseFloat files.1.get? msg row) ↔
        ∃ d, buildModel ((res.arrays clock tInc island soc ndev).args tables) = .ok d) ∧
      ∀ row, Manages parseFloat files.1.get? msg row →
        ∃ d, buildModel ((res.arrays clock tInc island soc ndev).args tables) = .ok d ∧
          (WellNamed ((res.arrays clock tInc island soc ndev).args tables) →
            RowFor b clock tInc island ((res.arrays clock tInc island soc ndev).args tables) d row) := by
  obtain ⟨soc', ndev', hvb, hr⟩ := requested h
  cases hvb
  have hread := hr.read hc hf
  have hsane := hs.arrays clock tInc island soc ndev
  obtain ⟨tables, htables, hfiled⟩ := getIslandBaselineData_filed hfiles island (.inl hi)
  have ht := hfiled.sane hb
  refine ⟨tables, htables, hfiled, ⟨?_, ?_⟩, ?_⟩
  · rintro ⟨row, a, tables', d, o, ha, htables', -, hd, -⟩
    cases hread.symm.trans ha
    cases htables.symm.trans htables'
    exact ⟨d, hd⟩
  · rintro ⟨d, hd⟩
    obtain ⟨hnonneg, hvirtual⟩ := buildModel_nonneg hsane ht hd
    have hshed := IslandModel.shedAll_feasible hnonneg hvirtual
    have hrow : Dispatch.manageIsland ((res.arrays clock tInc island soc ndev).args tables) ⟨.optimal, d.shedAll⟩ =
        .ok (results _ d ⟨.optimal, d.shedAll⟩) := bind_ok.2 ⟨d, hd, rfl⟩
    exact ⟨_, _, tables, d, _, hread, htables, hsane.aligned, hd, ⟨fun _ => hshed, fun _ _ => rfl⟩, hrow⟩
  · rintro row ⟨a, tables', d, o, ha, htables', -, hd, ho, hrow⟩
    cases hread.symm.trans ha
    cases htables.symm.trans htables'
    refine ⟨d, hd, fun hn => ?_⟩
    obtain ⟨hsolved, hvalues⟩ := solved_of_sane hsane ht hd ho
    have hdispatched := dispatched_of_solved hn hd hsolved hvalues hrow
    obtain ⟨j, r, hsecond, hj, hload⟩ := nonflexLoad_second hd
    refine ⟨hdispatched, j, hfiled.timestamps ▸ hsecond, ?_⟩
    rw [hdispatched.nfload, hload]
    exact hfiled.nonflexible j r hj

end

/-! ## A baseline of one supernode -/

def nodeBaseline : Baseline ℚ where
  loads := ⟨[⟨0, "-04:00"⟩, ⟨180, "-04:00"⟩],
    Table.ofList _ [(loadColumn "total" 101, [5, 6]), (loadColumn "hvac" 101, [1, 2]), (loadColumn "wh" 101, [2, 2])], by decide⟩
  solar := ⟨[⟨0, "-04:00"⟩, ⟨180, "-04:00"⟩], Table.ofList _ [("inv_supernode_101_solar:VA_Out.real[kW]".toList, [0, 3])],
    by decide⟩
  generatorStatus := fun _ => some "ONLINE".toList

/-- No other supernode has a column. -/
theorem nodeBaseline_other {kind : String} (hk : kind ∈ ["total", "hvac", "wh"]) {n : ℕ} (hn : n ≠ 101) (j : ℕ) :
    nodeBaseline.loads.value (loadColumn kind n) j = 0 := by
  have hne : ∀ kind' ∈ ["total", "hvac", "wh"], loadColumn kind' 101 ≠ loadColumn kind n := by
    intro kind' hk' h
    by_cases he : kind' = kind
    · subst he
      exact hn (pad3_injective (by simpa [loadColumn] using h.symm))
    · -- the three kinds begin with different letters
      have hhead := congrArg List.head? h
      simp only [List.mem_cons, List.not_mem_nil, or_false] at hk hk'
      rcases hk with rfl | rfl | rfl <;> rcases hk' with rfl | rfl | rfl <;> simp [loadColumn] at he hhead
  have hget : nodeBaseline.loads.columns.get? (loadColumn kind n) = none := by
    unfold Dict.get?
    rw [Option.map_eq_none_iff, Table.find?_eq_none]
    intro hmem
    have hkeys : nodeBaseline.loads.columns.keys = ["total", "hvac", "wh"].map (loadColumn · 101) := by decide
    rw [hkeys] at hmem
    obtain ⟨kind', hk', he⟩ := List.mem_map.1 hmem
    exact hne kind' hk' he
  unfold Sheet.value
  rw [hget]
  rfl

theorem nodeBaseline_sane : nodeBaseline.Sane where
  loads := fun n j => by
    by_cases hn : n = 101
    · subst hn
      match j with
      | 0 => decide +kernel
      | 1 => decide +kernel
      | j + 2 =>
        show (0 : ℚ) ≤ 0 ∧ (0 : ℚ) ≤ 0 ∧ (0 : ℚ) + 0 ≤ 0
        norm_num
    · rw [nodeBaseline_other (by decide) hn, nodeBaseline_other (by decide) hn, nodeBaseline_other (by decide) hn]
      norm_num
  solar := fun name j => by
    unfold Sheet.value
    cases hc : nodeBaseline.solar.columns.get? name with
    | none => exact le_refl _
    | some xs =>
      have hmem := Dict.get?_eq_some.1 hc
      have hrows : nodeBaseline.solar.columns.rows = [("inv_supernode_101_solar:VA_Out.real[kW]".toList, [0, 3])] := by decide
      rw [hrows, List.mem_singleton] at hmem
      cases hmem
      match j with
      | 0 => decide +kernel
      | 1 => decide +kernel
      | j + 2 => exact le_refl _
  ordered := by decide

theorem nodeBaseline_answered : ∃ files msg row,
    getIslandBaselineData nodeBaseline [[101]] (Dict.empty, Dict.empty) = .ok files ∧
    getIslandManagementData fewDoubles islandResources ⟨0, "-04:00"⟩ 3 [101] (.ok (1, 2)) = .ok msg ∧
    Manages parseFew files.1.get? msg row := by
  obtain ⟨files, hfiles⟩ := Option.isSome_iff_exists.1 (show
    (getIslandBaselineData nodeBaseline [[101]] (Dict.empty, Dict.empty)).toOption.isSome = true by decide +kernel)
  obtain ⟨msg, hmsg⟩ := Option.isSome_iff_exists.1 (show
    (getIslandManagementData fewDoubles islandResources ⟨0, "-04:00"⟩ 3 [101] (.ok (1, 2))).toOption.isSome = true by
      decide +kernel)
  rw [toOption_eq_some] at hfiles hmsg
  have hmodel : ((getIslandBaselineData nodeBaseline [[101]] (Dict.empty, Dict.empty)).toOption.bind fun files =>
      (files.1.get? (islandStr [101])).map fun tables =>
        (buildModel ((islandResources.arrays ⟨0, "-04:00"⟩ 3 [101] 1 2).args tables)).toOption.isSome) = some true := by
    decide +kernel
  obtain ⟨tables, htables, -, hanswered, -⟩ := baseline_request_answered fewDoubles parseFew _ nodeBaseline islandResources
    ⟨0, "-04:00"⟩ 3 [[101]] [101] 1 2 _ files msg fewDoubles_codec islandResources_fits islandResources_sane
    nodeBaseline_sane hfiles (List.mem_singleton_self _) hmsg
  rw [hfiles] at hmodel
  simp only [Except.toOption, Option.bind_some, htables, Option.map_some, Option.some.injEq] at hmodel
  obtain ⟨d, hd⟩ := Option.isSome_iff_exists.1 hmodel
  obtain ⟨row, hrow⟩ := hanswered.2 ⟨d, toOption_eq_some.1 hd⟩
  exact ⟨files, msg, row, hfiles, hmsg, hrow⟩

end Grip.Absorption
