/-
The row `manage_island` returns: the second interval of the solver's plan, or zeros when the solver
did not succeed, with the second nonflexible load. A solved row balances the island and stays within
the limits of its interval; the zeros of a failed solve balance it only when there is no load.
-/
import GripAbsorption.Base.Table
import GripAbsorption.Dispatch.Baseline

namespace Grip.Dispatch

open Grip.Base

variable {K : Type} [Field K] [LinearOrder K] {nsolar ngens nbatt : ℕ}

/-! ## The row -/

/-- `termination_status(m)`. -/
inductive Status
  | optimal
  | almostOptimal
  | locallySolved
  | other
  deriving DecidableEq, Repr

/-- The statuses whose values are read. -/
def Status.solved : Status → Bool
  | optimal | almostOptimal | locallySolved => true
  | other => false

/-- What the solver answers; the values mean something only when it solved the model. -/
structure Answer (K : Type) (nsolar ngens nbatt : ℕ) where
  status : Status
  values : Plan K nsolar ngens nbatt

/-- The values the row is made of. -/
structure Values (K : Type) (nsolar ngens nbatt : ℕ) where
  solar : Fin nsolar → K
  gens : Fin ngens → K
  batt : Fin nbatt → K
  virt : K
  shed : K

/-- Interval 2 of the plan, or zeros. -/
def Answer.atSecond (o : Answer K nsolar ngens nbatt) : Values K nsolar ngens nbatt :=
  if o.status.solved then ⟨(o.values.Ps · 2), (o.values.Pg · 2), (o.values.Pb · 2), o.values.Pvb 2, o.values.Dshed 2⟩
  else ⟨fun _ => 0, fun _ => 0, fun _ => 0, 0, 0⟩

/-- The name of the virtual battery's column. -/
def ManageArgs.virtName (a : ManageArgs K nsolar ngens nbatt) : String := "i_" ++ a.island

/-- The columns, in the order in which the dictionaries are merged. -/
def columns (a : ManageArgs K nsolar ngens nbatt) (nfload : K) (v : Values K nsolar ngens nbatt) : List (String × K) :=
  (List.ofFn a.solarNames).zip (List.ofFn v.solar) ++ a.gens.zip (List.ofFn v.gens) ++
    a.batteries.zip (List.ofFn v.batt) ++
    [(a.virtName, v.virt), ("shed", v.shed), ("sh_all", if v.shed = nfload then 1 else 0), ("nfload", nfload)]

/-- The results: a later column replaces an earlier one of the same name. -/
abbrev Row (K : Type) := Dict String K

def results (a : ManageArgs K nsolar ngens nbatt) (d : IslandModel K nsolar ngens nbatt)
    (o : Answer K nsolar ngens nbatt) : Row K :=
  Table.ofList Prod.fst (columns a (d.nonflexLoad 2) o.atSecond)

/-- `manage_island`, given the solver's answer. -/
def manageIsland (a : ManageArgs K nsolar ngens nbatt) (o : Answer K nsolar ngens nbatt) : Except Err (Row K) := do
  let d ← buildModel a
  return results a d o

/-! ## What a row should be -/

/-- `results[name]`. -/
def Row.column (row : Row K) (name : String) : K := (row.get? name).getD 0

variable (a : ManageArgs K nsolar ngens nbatt) (d : IslandModel K nsolar ngens nbatt) (row : Row K)

/-- Generator and solar power is the load, less the shed, plus the power of the batteries. -/
def Balanced : Prop :=
  (a.gens.map row.column).sum + ∑ s, row.column (a.solarNames s) =
    row.column "nfload" - row.column "shed" + row.column a.virtName + (a.batteries.map row.column).sum

/-- A row that balances the island within the limits of interval 2. -/
structure Dispatched : Prop where
  balanced : Balanced a row
  nfload : row.column "nfload" = d.nonflexLoad 2
  shed : 0 ≤ row.column "shed" ∧ row.column "shed" ≤ row.column "nfload"
  solar : ∀ s, 0 ≤ row.column (a.solarNames s) ∧ row.column (a.solarNames s) ≤ d.pSolar s 2
  gens : ∀ (g : Fin ngens) (name : String), a.gens[g.val]? = some name →
    0 ≤ row.column name ∧ row.column name ≤ a.pmaxGens g
  batteries : ∀ (b : Fin nbatt) (name : String), a.batteries[b.val]? = some name →
    -a.pmaxBattery b ≤ row.column name ∧ row.column name ≤ a.pmaxBattery b
  virt : 0 ≤ row.column a.virtName ∧ row.column a.virtName ≤ d.pmaxVirtualb 2

/-- A row in which nothing is generated, stored, consumed or shed. -/
structure Idle : Prop where
  nfload : row.column "nfload" = d.nonflexLoad 2
  shed : row.column "shed" = 0
  solar : ∀ s, row.column (a.solarNames s) = 0
  gens : ∀ name ∈ a.gens, row.column name = 0
  batteries : ∀ name ∈ a.batteries, row.column name = 0
  virt : row.column a.virtName = 0

/-- Each generator and battery has a name, and no two columns have one name. -/
structure WellNamed : Prop where
  gens : a.gens.length = ngens
  batteries : a.batteries.length = nbatt
  distinct : (List.ofFn a.solarNames ++ a.gens ++ a.batteries ++ [a.virtName, "shed", "sh_all", "nfload"]).Nodup

/-! ## Reading the row -/

section

variable {a d}

omit [Field K] [LinearOrder K] in
theorem map_fst_zip_ofFn {n : ℕ} {names : List String} (f : Fin n → K) (h : names.length = n) :
    (names.zip (List.ofFn f)).map Prod.fst = names :=
  List.map_fst_zip (by simp [h])

theorem names_columns (hn : WellNamed a) (nfload : K) (v : Values K nsolar ngens nbatt) :
    (columns a nfload v).map Prod.fst =
      List.ofFn a.solarNames ++ a.gens ++ a.batteries ++ [a.virtName, "shed", "sh_all", "nfload"] := by
  unfold columns
  rw [List.map_append, List.map_append, List.map_append, map_fst_zip_ofFn v.solar (by simp),
    map_fst_zip_ofFn v.gens hn.gens, map_fst_zip_ofFn v.batt hn.batteries]
  rfl

/-- With distinct names every column can be read back. -/
theorem column_of_mem (hn : WellNamed a) {nfload x : K} {v : Values K nsolar ngens nbatt} {name : String}
    (h : (name, x) ∈ columns a nfload v) :
    Row.column (Table.ofList Prod.fst (columns a nfload v)) name = x := by
  have hrows : (Table.ofList Prod.fst (columns a nfload v)).rows = columns a nfload v :=
    Table.rows_ofList (by rw [names_columns hn]; exact hn.distinct)
  unfold Row.column
  rw [Dict.get?_eq_some.2 (hrows.symm ▸ h)]
  rfl

omit [Field K] [LinearOrder K] in
theorem mem_zip_ofFn {n : ℕ} {names : List String} (f : Fin n → K) {i : Fin n} {name : String}
    (h : names[i.val]? = some name) : (name, f i) ∈ names.zip (List.ofFn f) := by
  refine List.mem_of_getElem? (i := i.val) ?_
  rw [List.getElem?_zip_eq_some]
  exact ⟨h, by simp⟩

omit [LinearOrder K] in
/-- The sum of the columns of a family of units. -/
theorem sum_columns {n : ℕ} {names : List String} (f : Fin n → K) (hl : names.length = n) {r : String → K}
    (h : ∀ i : Fin n, ∀ name, names[i.val]? = some name → r name = f i) : (names.map r).sum = ∑ i, f i := by
  subst hl
  rw [← List.sum_ofFn]
  congr 1
  refine List.ext_getElem (by simp) fun i hi hi' => ?_
  rw [List.getElem_map, List.getElem_ofFn]
  exact h ⟨i, by simpa using hi⟩ _ (List.getElem?_eq_getElem _)

/-- The row of well-named values. -/
structure Shows (v : Values K nsolar ngens nbatt) (nfload : K) (row : Row K) : Prop where
  solar : ∀ s, row.column (a.solarNames s) = v.solar s
  gens : ∀ (g : Fin ngens) (name : String), a.gens[g.val]? = some name → row.column name = v.gens g
  batt : ∀ (b : Fin nbatt) (name : String), a.batteries[b.val]? = some name → row.column name = v.batt b
  virt : row.column a.virtName = v.virt
  shed : row.column "shed" = v.shed
  nfload : row.column "nfload" = nfload

theorem shows_columns (hn : WellNamed a) (v : Values K nsolar ngens nbatt) (nfload : K) :
    Shows (a := a) v nfload (Table.ofList Prod.fst (columns a nfload v)) where
  solar := fun s => column_of_mem hn (by
    have h : (a.solarNames s, v.solar s) ∈ (List.ofFn a.solarNames).zip (List.ofFn v.solar) :=
      mem_zip_ofFn v.solar (by simp)
    unfold columns; simp only [List.mem_append]; exact .inl (.inl (.inl h)))
  gens := fun g name h => column_of_mem hn (by
    unfold columns; simp only [List.mem_append]; exact .inl (.inl (.inr (mem_zip_ofFn v.gens h))))
  batt := fun b name h => column_of_mem hn (by
    unfold columns; simp only [List.mem_append]; exact .inl (.inr (mem_zip_ofFn v.batt h)))
  virt := column_of_mem hn (by simp [columns])
  shed := column_of_mem hn (by simp [columns])
  nfload := column_of_mem hn (by simp [columns])

variable {row}

omit [LinearOrder K] in
/-- Balance in terms of the values. -/
theorem Shows.balanced_iff {v : Values K nsolar ngens nbatt} {nfload : K} (hs : Shows (a := a) v nfload row)
    (hn : WellNamed a) :
    Balanced a row ↔ ∑ g, v.gens g + ∑ s, v.solar s = nfload - v.shed + v.virt + ∑ b, v.batt b := by
  unfold Balanced
  rw [sum_columns v.gens hn.gens hs.gens, sum_columns v.batt hn.batteries hs.batt, hs.virt, hs.shed, hs.nfload]
  simp only [hs.solar]

/-! ## The dispatch -/

/-- A row of a feasible plan's values in interval 2. -/
theorem Shows.dispatched {x : Plan K nsolar ngens nbatt} (hn : WellNamed a) (hd : buildModel a = .ok d)
    (hs : Shows (a := a) ⟨(x.Ps · 2), (x.Pg · 2), (x.Pb · 2), x.Pvb 2, x.Dshed 2⟩ (d.nonflexLoad 2) row)
    (hx : Feasible d x) : Dispatched a d row := by
  obtain ⟨hlen, hg, hb⟩ := buildModel_spec hd
  have h2 : 2 ∈ Finset.Icc 1 d.horizon := Finset.mem_Icc.2 ⟨by omega, hlen⟩
  refine ⟨(hs.balanced_iff hn).2 (hx.balance 2 h2), hs.nfload, ?_, fun s => ?_, fun g name hname => ?_,
    fun b name hname => ?_, ?_⟩
  · rw [hs.shed, hs.nfload]; exact hx.dshed 2 h2
  · rw [hs.solar]; exact hx.ps s 2 h2
  · rw [hs.gens g name hname, ← hg]; exact hx.pg g 2 h2
  · rw [hs.batt b name hname, ← hb]; exact hx.pb b 2 h2
  · rw [hs.virt]; exact hx.pvb 2 h2

omit [LinearOrder K] in
/-- A row of zeros is idle, and balances only if there is no load. -/
theorem Shows.idle (hn : WellNamed a)
    (hs : Shows (a := a) ⟨fun _ => 0, fun _ => 0, fun _ => 0, 0, 0⟩ (d.nonflexLoad 2) row) :
    Idle a d row ∧ (Balanced a row ↔ d.nonflexLoad 2 = 0) := by
  refine ⟨⟨hs.nfload, hs.shed, hs.solar, fun name hname => ?_, fun name hname => ?_, hs.virt⟩, ?_⟩
  · obtain ⟨i, hi, rfl⟩ := List.getElem_of_mem hname
    exact hs.gens ⟨i, hn.gens ▸ hi⟩ _ (List.getElem?_eq_getElem hi)
  · obtain ⟨i, hi, rfl⟩ := List.getElem_of_mem hname
    exact hs.batt ⟨i, hn.batteries ▸ hi⟩ _ (List.getElem?_eq_getElem hi)
  · rw [hs.balanced_iff hn]
    simp only [Finset.sum_const_zero, add_zero, sub_zero]
    exact eq_comm

/-- Every row returned after a successful solve (of a model whose reported values are feasible)
balances the island within the limits of its interval. After any other solve the row is idle, and
balances the island only if there is no load. -/
theorem manageIsland_dispatch {o : Answer K nsolar ngens nbatt} (hn : WellNamed a) (hd : buildModel a = .ok d)
    (hf : o.status.solved = true → Feasible d o.values) (hrow : manageIsland a o = .ok row) :
    (o.status.solved = true → Dispatched a d row) ∧
      (o.status.solved = false → Idle a d row ∧ (Balanced a row ↔ d.nonflexLoad 2 = 0)) := by
  unfold manageIsland at hrow
  rw [hd] at hrow
  cases hrow
  have hs : Shows (a := a) o.atSecond (d.nonflexLoad 2) (results a d o) := shows_columns hn o.atSecond (d.nonflexLoad 2)
  constructor
  · intro hsolved
    have hv : o.atSecond =
        ⟨(o.values.Ps · 2), (o.values.Pg · 2), (o.values.Pb · 2), o.values.Pvb 2, o.values.Dshed 2⟩ := if_pos hsolved
    rw [hv] at hs
    exact hs.dispatched hn hd (hf hsolved)
  · intro hfailed
    have hv : o.atSecond = ⟨fun _ => 0, fun _ => 0, fun _ => 0, 0, 0⟩ := if_neg (by simp [hfailed])
    rw [hv] at hs
    exact hs.idle hn

end

/-! ## Rows that balance and rows that do not -/

instance (a : ManageArgs K nsolar ngens nbatt) : Decidable (WellNamed a) :=
  decidable_of_iff (a.gens.length = ngens ∧ a.batteries.length = nbatt ∧
      (List.ofFn a.solarNames ++ a.gens ++ a.batteries ++ [a.virtName, "shed", "sh_all", "nfload"]).Nodup)
    ⟨fun ⟨h1, h2, h3⟩ => ⟨h1, h2, h3⟩, fun h => ⟨h.1, h.2, h.3⟩⟩

instance (a : ManageArgs K nsolar ngens nbatt) (row : Row K) : Decidable (Balanced a row) :=
  inferInstanceAs (Decidable (_ = _))

/-- An island of one battery, two baseline rows three minutes apart. -/
def smallIsland : ManageArgs ℚ 0 0 1 where
  t0 := ⟨0, "-04:00"⟩
  tInc := 3
  island := "101"
  loadBaseline := [⟨⟨0, "-04:00"⟩, 1, 2⟩, ⟨⟨180, "-04:00"⟩, 1, 2⟩]
  solarNames := fun _ => ""
  psBaseline := [fun _ => 0, fun _ => 0]
  gens := []
  pmaxGens := fun _ => 0
  batteries := ["battery_101"]
  pmaxBattery := fun _ => 5
  e0Battery := fun _ => 2
  emaxBattery := fun _ => 8
  e0Virtualb := [6]
  emaxVirtualb := [10]

/-- The first battery covers the second interval's load. -/
def firstDischarges {nbatt : ℕ} : Plan ℚ 0 0 nbatt where
  Ps := fun _ _ => 0
  Pg := fun _ _ => 0
  Pb := fun b k => if b.val = 0 ∧ k = 2 then -2 else 0
  Pvb := fun _ => 0
  Dshed := entry [2, 0]
  Eb := fun b k => if b.val = 0 ∧ k = 3 then 19 / 10 else 2
  Evb := entry [6, 119 / 20, 118 / 20]
  custComfort := fun _ => 0

theorem smallIsland_dispatched : ∃ d row, buildModel smallIsland = .ok d ∧
    manageIsland smallIsland ⟨.optimal, firstDischarges⟩ = .ok row ∧ Row.column row "battery_101" = -2 ∧
    Dispatched smallIsland d row :=
  ⟨_, _, rfl, rfl, by decide +kernel,
    (manageIsland_dispatch (by decide +kernel) rfl (fun _ => by decide +kernel) rfl).1 rfl⟩

/-- The island with a second battery of the same name. -/
def twinBatteries : ManageArgs ℚ 0 0 2 :=
  { smallIsland with
    batteries := ["battery_101", "battery_101"]
    pmaxBattery := fun _ => 5
    e0Battery := fun _ => 2
    emaxBattery := fun _ => 8 }

/-- A failed solve reports a load that nothing covers; and of two columns of one name only the second
is reported. -/
theorem unbalanced_rows :
    (∃ d row, buildModel smallIsland = .ok d ∧ manageIsland smallIsland ⟨.other, d.shedAll⟩ = .ok row ∧
      ¬ Balanced smallIsland row) ∧
    ∃ d row, buildModel twinBatteries = .ok d ∧ Feasible d firstDischarges ∧
      manageIsland twinBatteries ⟨.optimal, firstDischarges⟩ = .ok row ∧ ¬ Balanced twinBatteries row :=
  ⟨⟨_, _, rfl, rfl, by decide +kernel⟩, _, _, rfl, by decide +kernel, rfl, by decide +kernel⟩

end Grip.Dispatch
