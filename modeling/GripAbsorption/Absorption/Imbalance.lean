/-
What a row of the optimiser leaves out of balance. `island_management` adds up the columns of the row: solar
power, the shed and the inverters of the batteries as they are, and for the virtual battery the load its
devices are measured at. The row itself is balanced, so the island is out of balance by what the measured load
differs from the one dispatched, and `check_power_balance` moves that to one battery or leaves it.
-/
import GripAbsorption.Absorption.Balance
import GripAbsorption.Absorption.Houses
import GripAbsorption.Absorption.Setpoint
import GripAbsorption.Dispatch.Row

namespace Grip.Absorption

open Grip.Base Grip.Packetized

/-! ## Columns of one kind -/

/-- The sum of the columns that are read as of one kind. -/
def sumOf (kind : ColumnKind) (cols : List (String × ℚ)) : ℚ :=
  ((cols.filter fun c => columnKind c.1 = kind).map (·.2)).sum

/-- The inverters of the columns that are read as a battery's. -/
def invertersOf (net : Network) (cols : List (String × ℚ)) : List String :=
  (cols.filter fun c => columnKind c.1 = .battery).filterMap fun c => net.parent c.1

theorem sumOf_cons (kind : ColumnKind) (c : String × ℚ) (cols : List (String × ℚ)) :
    sumOf kind (c :: cols) = (if columnKind c.1 = kind then c.2 else 0) + sumOf kind cols := by
  unfold sumOf
  by_cases h : columnKind c.1 = kind
  · simp [h]
  · simp [h]

theorem sumOf_perm {kind : ColumnKind} {cols cols' : List (String × ℚ)} (h : cols.Perm cols') :
    sumOf kind cols = sumOf kind cols' :=
  ((h.filter _).map _).sum_eq

/-- The load the devices of a battery are measured at. -/
def measured (gld : Gld ℚ) (vb : VirtualBattery ℚ) : ℚ := (vb.devices.rows.map fun d => (d.gldDev.updateFromGld gld).kw).sum

/-- The load of the devices that the power is for: what is left of it when the other load has been served. -/
def PowerBalance.served (bal : PowerBalance) : ℚ := bal.solarP + bal.batPower - bal.nfload

theorem PowerBalance.imbalance_eq (bal : PowerBalance) : bal.imbalance = bal.vbLoad - bal.served := by
  unfold imbalance served
  ring

namespace Globals

variable {net : Network} {inp : ManageInput} {island : Island} {s s' : Globals} {bal bal' : PowerBalance}

/-! ## The entries of a row -/

/-- What the columns enter, when each battery has an inverter of its own that has no entry yet. -/
structure Booked (net : Network) (cols : List (String × ℚ)) (bal bal' : PowerBalance) : Prop where
  solarP : bal'.solarP = bal.solarP + sumOf .solar cols
  nfload : bal'.nfload = bal.nfload - sumOf .shed cols
  batPower : bal'.batPower = bal.batPower - sumOf .battery cols
  keys : bal'.battP.keys = bal.battP.keys ++ invertersOf net cols
  entries : ∀ b kW, bal'.battP.get? b = some kW → bal.battP.get? b = some kW ∨
    ∃ c ∈ cols, columnKind c.1 = .battery ∧ net.parent c.1 = some b ∧ kW = -c.2

/-- A column that is no battery's has no inverter. -/
theorem invertersOf_cons_of_ne {c : String × ℚ} {cols : List (String × ℚ)} (h : columnKind c.1 ≠ .battery) :
    invertersOf net (c :: cols) = invertersOf net cols := by
  unfold invertersOf
  rw [List.filter_cons_of_neg (by simpa using h)]

theorem invertersOf_cons {c : String × ℚ} {cols : List (String × ℚ)} {inv : String} (h : columnKind c.1 = .battery)
    (hinv : net.parent c.1 = some inv) : invertersOf net (c :: cols) = inv :: invertersOf net cols := by
  unfold invertersOf
  rw [List.filter_cons_of_pos (by simpa using h)]
  exact List.filterMap_cons_some hinv

/-- A column that is no battery's leaves the inverters alone. -/
theorem Booked.cons {c : String × ℚ} {cols : List (String × ℚ)} {bal₁ : PowerBalance} (h : Booked net cols bal₁ bal')
    (hk : columnKind c.1 ≠ .battery) (hsolar : bal₁.solarP = bal.solarP + if columnKind c.1 = .solar then c.2 else 0)
    (hshed : bal₁.nfload = bal.nfload - if columnKind c.1 = .shed then c.2 else 0) (hbatt : bal₁.battP = bal.battP) :
    Booked net (c :: cols) bal bal' where
  solarP := by rw [h.solarP, hsolar, sumOf_cons]; ring
  nfload := by rw [h.nfload, hshed, sumOf_cons]; ring
  batPower := by
    have hpower : bal₁.batPower = bal.batPower := by unfold PowerBalance.batPower; rw [hbatt]
    rw [h.batPower, hpower, sumOf_cons, if_neg hk, zero_add]
  keys := by rw [h.keys, hbatt, invertersOf_cons_of_ne hk]
  entries := fun b kW hb => by
    rcases h.entries b kW hb with hb | ⟨c', hc', hcol⟩
    · exact .inl (hbatt ▸ hb)
    · exact .inr ⟨c', List.mem_cons_of_mem _ hc', hcol⟩

/-- A battery's column enters its inverter. -/
theorem Booked.cons_battery {c : String × ℚ} {cols : List (String × ℚ)} {inv : String} (hk : columnKind c.1 = .battery)
    (hinv : net.parent c.1 = some inv) (hfresh : inv ∉ bal.battP.keys)
    (h : Booked net cols { bal with battP := bal.battP.put inv (-c.2) } bal') : Booked net (c :: cols) bal bal' := by
  have hrows : (bal.battP.put inv (-c.2)).rows = bal.battP.rows ++ [(inv, -c.2)] := Table.rows_set_of_notMem hfresh
  constructor
  case solarP => rw [h.solarP, sumOf_cons, if_neg (by rw [hk]; exact fun h => by cases h), zero_add]
  case nfload => rw [h.nfload, sumOf_cons, if_neg (by rw [hk]; exact fun h => by cases h), zero_add]
  case batPower =>
    rw [h.batPower, sumOf_cons, if_pos hk]
    unfold PowerBalance.batPower
    rw [hrows]
    simp only [List.map_append, List.map_cons, List.map_nil, List.sum_append, List.sum_singleton]
    ring
  case keys =>
    rw [h.keys, invertersOf_cons hk hinv]
    unfold Table.keys
    rw [hrows]
    simp
  case entries =>
    intro b kW hb
    rcases h.entries b kW hb with hb | ⟨c', hc', hcol⟩
    · rw [Dict.get?_put] at hb
      split at hb
      · rename_i he
        cases hb
        exact .inr ⟨c, List.mem_cons_self .., hk, he ▸ hinv, rfl⟩
      · exact .inl hb
    · exact .inr ⟨c', List.mem_cons_of_mem _ hc', hcol⟩

/-- The columns of a row are entered one by one. -/
theorem columns_booked {cols : List (String × ℚ)} (hfresh : (bal.battP.keys ++ invertersOf net cols).Nodup)
    (h : cols.foldlM (column net inp island) (s, bal) = .ok (s', bal')) : Booked net cols bal bal' := by
  induction cols generalizing s bal with
  | nil =>
    cases h
    constructor
    case entries => exact fun _ _ h => .inl h
    all_goals simp [sumOf, invertersOf]
  | cons c cols ih =>
    obtain ⟨name, x⟩ := c
    rw [List.foldlM_cons, bind_ok] at h
    obtain ⟨⟨s₁, bal₁⟩, hcol, h⟩ := h
    simp only [column] at hcol
    cases hk : columnKind name with
    | solar =>
      rw [hk] at hcol
      cases hcol
      rw [invertersOf_cons_of_ne (by simp [hk])] at hfresh
      exact (ih (by exact hfresh) h).cons (by simp [hk]) (by simp [hk]) (by simp [hk]) rfl
    | shed =>
      rw [hk] at hcol
      obtain ⟨s₂, -, hcol⟩ := bind_ok.1 hcol
      cases hcol
      rw [invertersOf_cons_of_ne (by simp [hk])] at hfresh
      exact (ih (by exact hfresh) h).cons (by simp [hk]) (by simp [hk]) (by simp [hk]) rfl
    | virtual =>
      rw [hk] at hcol
      obtain ⟨⟨s₂, load⟩, -, hcol⟩ := bind_ok.1 hcol
      cases hcol
      rw [invertersOf_cons_of_ne (by simp [hk])] at hfresh
      exact (ih (by exact hfresh) h).cons (by simp [hk]) (by simp [hk]) (by simp [hk]) rfl
    | battery =>
      rw [hk] at hcol
      obtain ⟨inv, hinv, hcol⟩ := bind_ok.1 hcol
      cases hcol
      rw [orRaise_eq_ok] at hinv
      rw [invertersOf_cons hk hinv] at hfresh
      have hnew : inv ∉ bal.battP.keys := fun hmem =>
        (List.nodup_append.1 hfresh).2.2 inv hmem inv (List.mem_cons_self ..) rfl
      refine .cons_battery hk hinv hnew (ih ?_ h)
      -- the new entry moves from the columns to the table
      have hkeys : (bal.battP.put inv (-x)).keys = bal.battP.keys ++ [inv] := by
        unfold Table.keys
        rw [show (bal.battP.put inv (-x)).rows = _ from Table.rows_set_of_notMem hnew, List.map_append]
        rfl
      rwa [hkeys, List.append_assoc]
    | other =>
      rw [hk] at hcol
      cases hcol
      rw [invertersOf_cons_of_ne (by simp [hk])] at hfresh
      exact (ih (by exact hfresh) h).cons (by simp [hk]) (by simp [hk]) (by simp [hk]) rfl

/-! ## The measured load -/

/-- The columns that are no virtual battery's keep the measured load. -/
theorem columns_vbLoad {cols : List (String × ℚ)} (hc : ∀ c ∈ cols, columnKind c.1 ≠ .virtual)
    (h : cols.foldlM (column net inp island) (s, bal) = .ok (s', bal')) : bal'.vbLoad = bal.vbLoad := by
  refine foldlM_invariant (P := fun a => a.2.vbLoad = bal.vbLoad) (fun c hmem a a' ha hcol => ?_) rfl h
  obtain ⟨s, bal⟩ := a
  obtain ⟨name, x⟩ := c
  simp only [column] at hcol
  cases hk : columnKind name with
  | solar => rw [hk] at hcol; cases hcol; exact ha
  | shed =>
    rw [hk] at hcol
    obtain ⟨s₁, -, hcol⟩ := bind_ok.1 hcol
    cases hcol
    exact ha
  | virtual => exact absurd hk (hc _ hmem)
  | battery =>
    rw [hk] at hcol
    obtain ⟨inv, -, hcol⟩ := bind_ok.1 hcol
    cases hcol
    exact ha
  | other => rw [hk] at hcol; cases hcol; exact ha

/-- The battery's column enters the load its devices are measured at after the step. -/
theorem column_measured {v : String × ℚ} (hv : columnKind v.1 = .virtual)
    (h : column net inp island (s, bal) v = .ok (s', bal')) :
    ∃ vb, s'.battery island = .ok vb ∧ bal'.vbLoad = measured inp.gld vb := by
  obtain ⟨name, x⟩ := v
  simp only [column] at h
  rw [show columnKind name = .virtual from hv] at h
  obtain ⟨⟨s₂, load⟩, hcol, h⟩ := bind_ok.1 h
  cases h
  obtain ⟨vb, hb, hcol⟩ := bind_ok.1 hcol
  obtain ⟨vb', hb', rfl, rfl⟩ := packetizeIsland_eq_ok.1 hcol
  exact ⟨_, (battery_setBattery _ hb').trans (if_pos rfl), rfl⟩

/-- On a plain row with a column of the battery and no other virtual one, the load entered is the one measured after
the step. -/
theorem columns_measured {row : Row} {v : String × ℚ} (hrow : PlainRow row) (hv : v ∈ row.rows)
    (hkind : columnKind v.1 = .virtual) (honly : ∀ c ∈ row.rows, columnKind c.1 = .virtual → c = v)
    (h : row.sorted.foldlM (column net inp island) (s, bal) = .ok (s', bal')) :
    ∃ vb, s'.battery island = .ok vb ∧ bal'.vbLoad = measured inp.gld vb := by
  obtain ⟨pre, post, hsplit⟩ := List.append_of_mem (Row.mem_sorted.2 hv)
  have hmem : ∀ c ∈ post, c ∈ row.rows := fun c hc =>
    Row.mem_sorted.1 (hsplit ▸ List.mem_append_right _ (List.mem_cons_of_mem _ hc))
  have hnodup : (row.sorted.map Prod.fst).Nodup :=
    ((List.perm_insertionSort _ _).map Prod.fst).nodup_iff.2 row.nodup
  have hsorted := row.pairwise_sorted
  rw [hsplit, List.map_append, List.map_cons, List.nodup_append, List.nodup_cons] at hnodup
  rw [hsplit, List.pairwise_append, List.pairwise_cons] at hsorted
  have hvirtual : ∀ c ∈ post, columnKind c.1 ≠ .virtual := fun c hc hk =>
    hnodup.2.1.1 (honly c (hmem c hc) hk ▸ List.mem_map_of_mem hc)
  -- after the battery's column there is no shed, since its name is greater
  have hshed : ∀ c ∈ post, columnKind c.1 ≠ .shed := fun c hc hk => by
    have hkey : ∀ c ∈ row.rows, c.1 ∈ row.keys := fun c hc => List.mem_map_of_mem hc
    have hle : c.1 ≤ v.1 := hsorted.2.1.1 c hc
    rw [(hrow _ (hkey c (hmem c hc))).1 hk] at hle
    exact absurd ((hrow _ (hkey v hv)).2 hkind) (not_lt.2 hle)
  rw [hsplit, List.foldlM_append, bind_ok] at h
  obtain ⟨⟨s₁, bal₁⟩, -, h⟩ := h
  rw [List.foldlM_cons, bind_ok] at h
  obtain ⟨⟨s₂, bal₂⟩, hcol, hpost⟩ := h
  obtain ⟨vb, hb, hload⟩ := column_measured hkind hcol
  have hsame : s' = s₂ := columns_same (fun c hc => ⟨hshed c hc, hvirtual c hc⟩) hpost
  exact ⟨vb, hsame ▸ hb, (columns_vbLoad hvirtual hpost).trans hload⟩

/-! ## The optimiser's row -/

section

variable {nsolar ngens nbatt : ℕ} {a : Dispatch.ManageArgs ℚ nsolar ngens nbatt}

/-- The names of an island's request: each solar and battery column is read as one, and no two batteries share their
inverter. The controller sends no generators. -/
structure WellRead (net : Network) (island : Island) (a : Dispatch.ManageArgs ℚ nsolar ngens nbatt) : Prop where
  named : Dispatch.WellNamed a
  island : a.island = islandStr island
  gens : a.gens = []
  solar : ∀ i, columnKind (a.solarNames i) = .solar
  batteries : ∀ name ∈ a.batteries, columnKind name = .battery
  inverters : (a.batteries.filterMap net.parent).Nodup

theorem WellRead.virtName (h : WellRead net island a) : a.virtName = virtualName island := by
  unfold Dispatch.ManageArgs.virtName virtualName
  rw [h.island]

theorem virtualName_lt (island : Island) : virtualName island < "shed" := by
  unfold virtualName
  rw [String.lt_iff_toList_lt, String.toList_append]
  exact List.Lex.rel (by decide)

/-- The sum of named columns of one kind. -/
theorem sumOf_zip_ofFn {n : ℕ} {names : List String} {f : Fin n → ℚ} (hl : names.length = n) {kind : ColumnKind}
    (k : ColumnKind) (hk : ∀ name ∈ names, columnKind name = kind) :
    sumOf k (names.zip (List.ofFn f)) = if kind = k then ∑ i, f i else 0 := by
  have hkind : ∀ c ∈ names.zip (List.ofFn f), columnKind c.1 = kind := fun c hc => hk _ (List.of_mem_zip hc).1
  unfold sumOf
  split
  · rename_i he
    rw [List.filter_eq_self.2 fun c hc => by simpa [he] using hkind c hc, List.map_snd_zip (by simp [hl]), List.sum_ofFn]
  · rename_i hne
    rw [List.filter_eq_nil_iff.2 fun c hc => by simpa [hkind c hc] using hne]
    rfl

theorem sumOf_append (kind : ColumnKind) (cols cols' : List (String × ℚ)) :
    sumOf kind (cols ++ cols') = sumOf kind cols + sumOf kind cols' := by
  unfold sumOf
  rw [List.filter_append, List.map_append, List.sum_append]

/-- The sums of the optimiser's columns: a generator's is never added. -/
theorem WellRead.sums (h : WellRead net island a) (nfload : ℚ) (v : Dispatch.Values ℚ nsolar ngens nbatt) :
    sumOf .solar (Dispatch.columns a nfload v) = ∑ i, v.solar i ∧
      sumOf .shed (Dispatch.columns a nfload v) = v.shed ∧
      sumOf .battery (Dispatch.columns a nfload v) = ∑ i, v.batt i := by
  have hsolar : ∀ name ∈ List.ofFn a.solarNames, columnKind name = .solar := fun name hname => by
    obtain ⟨i, rfl⟩ := (List.mem_ofFn' _ _).1 hname
    exact h.solar i
  have hvirtual : columnKind a.virtName = .virtual := by rw [h.virtName]; exact columnKind_virtualName island
  have hrest : ∀ k : ColumnKind, sumOf k [(a.virtName, v.virt), ("shed", v.shed),
      ("sh_all", if v.shed = nfload then 1 else 0), ("nfload", nfload)] =
        (if k = .virtual then v.virt else 0) + (if k = .shed then v.shed else 0) +
          if k = .other then (if v.shed = nfload then 1 else 0) + nfload else 0 := fun k => by
    rw [sumOf_cons, sumOf_cons, sumOf_cons, sumOf_cons, hvirtual, show columnKind "shed" = .shed by decide,
      show columnKind "sh_all" = .other by decide, show columnKind "nfload" = .other by decide]
    cases k <;> simp [sumOf]
  unfold Dispatch.columns
  simp only [sumOf_append, hrest, sumOf_zip_ofFn (List.length_ofFn (f := a.solarNames)) _ hsolar,
    sumOf_zip_ofFn h.named.batteries _ h.batteries, h.gens, List.zip_nil_left]
  refine ⟨?_, ?_, ?_⟩ <;> simp [sumOf]

/-- Of the optimiser's columns only the batteries' are read as a battery's. -/
theorem WellRead.invertersOf (h : WellRead net island a) (nfload : ℚ) (v : Dispatch.Values ℚ nsolar ngens nbatt) :
    invertersOf net (Dispatch.columns a nfload v) = a.batteries.filterMap net.parent := by
  have hnames : ∀ cols : List (String × ℚ), Absorption.invertersOf net cols =
      ((cols.map Prod.fst).filter (columnKind · = .battery)).filterMap net.parent := fun cols => by
    unfold Absorption.invertersOf
    rw [List.filter_map, List.filterMap_map]
    rfl
  have hsolar : (List.ofFn a.solarNames).filter (columnKind · = .battery) = [] := by
    rw [List.filter_eq_nil_iff]
    intro name hname
    obtain ⟨i, rfl⟩ := (List.mem_ofFn' _ _).1 hname
    simp [h.solar]
  have hrest : [a.virtName, "shed", "sh_all", "nfload"].filter (columnKind · = .battery) = [] := by
    have hvirtual : columnKind a.virtName = .virtual := by rw [h.virtName]; exact columnKind_virtualName island
    rw [List.filter_cons_of_neg (by simp [hvirtual])]
    decide
  rw [hnames, Dispatch.names_columns h.named, h.gens, List.append_nil, List.filter_append, List.filter_append, hsolar,
    hrest, List.nil_append, List.append_nil, List.filter_eq_self.2 fun name hname => by simpa using h.batteries name hname]

/-- Of the optimiser's columns only the virtual battery's is read as one, and the shed as a shed. -/
theorem WellRead.kinds (h : WellRead net island a) {nfload : ℚ} {v : Dispatch.Values ℚ nsolar ngens nbatt}
    {c : String × ℚ} (hc : c ∈ Dispatch.columns a nfload v) :
    (columnKind c.1 = .virtual → c = (virtualName island, v.virt)) ∧ (columnKind c.1 = .shed → c.1 = "shed") := by
  have hgens : a.gens.zip (List.ofFn v.gens) = [] := by rw [h.gens, List.zip_nil_left]
  have hkind : columnKind c.1 = .solar ∨ columnKind c.1 = .battery ∨ c = (a.virtName, v.virt) ∨ c = ("shed", v.shed) ∨
      columnKind c.1 = .other := by
    unfold Dispatch.columns at hc
    simp only [hgens, List.append_nil, List.mem_append, List.mem_cons, List.not_mem_nil, or_false] at hc
    rcases hc with (hc | hc) | rfl | rfl | rfl | rfl
    · obtain ⟨i, hi⟩ := (List.mem_ofFn' _ _).1 (List.of_mem_zip hc).1
      exact .inl (hi ▸ h.solar i)
    · exact .inr (.inl (h.batteries _ (List.of_mem_zip hc).1))
    · exact .inr (.inr (.inl rfl))
    · exact .inr (.inr (.inr (.inl rfl)))
    · exact .inr (.inr (.inr (.inr (by decide : columnKind "sh_all" = .other))))
    · exact .inr (.inr (.inr (.inr (by decide : columnKind "nfload" = .other))))
  rcases hkind with hk | hk | rfl | rfl | hk
  · simp [hk]
  · simp [hk]
  · rw [h.virtName, columnKind_virtualName]
    simp
  · rw [show columnKind "shed" = .shed by decide]
    simp
  · simp [hk]

/-- The row of the columns as they stand, where the names are distinct. -/
theorem WellRead.rows (h : WellRead net island a) (nfload : ℚ) (v : Dispatch.Values ℚ nsolar ngens nbatt) :
    (Table.ofList Prod.fst (Dispatch.columns a nfload v)).rows = Dispatch.columns a nfload v :=
  Table.rows_ofList (by rw [Dispatch.names_columns h.named]; exact h.named.distinct)

/-- A step on a row of columns enters what the row says and the load the devices are measured at. What is left for the
devices is the power of solar panels and batteries when it has served the load that is not shed. -/
theorem manageIsland_entry (h : WellRead net island a) {nfload : ℚ} {v : Dispatch.Values ℚ nsolar ngens nbatt}
    (hrow : inp.row island = Table.ofList Prod.fst (Dispatch.columns a nfload v))
    (hs : manageIsland net inp s island = .ok s') : ∃ bal vb,
      s'.powerbal.get? island = some (checkPowerBalance net (inp.inverters island) bal) ∧ s'.battery island = .ok vb ∧
      bal.vbLoad = measured inp.gld vb ∧ Booked net (inp.row island).sorted ⟨0, nfload, Dict.empty, 0⟩ bal ∧
      bal.served = ∑ i, v.solar i - ∑ i, v.batt i - (nfload - v.shed) := by
  have hrows : (inp.row island).rows = Dispatch.columns a nfload v := by rw [hrow]; exact h.rows nfload v
  have hperm : (inp.row island).sorted.Perm (Dispatch.columns a nfload v) := hrows ▸ List.perm_insertionSort _ _
  obtain ⟨vb₀, nf, s₁, bal, -, hnf, hf, rfl⟩ := manageIsland_eq_ok.1 hs
  have hload : nf = nfload := by
    rw [Dict.get?_eq_some, hrows] at hnf
    have hmem : ("nfload", nfload) ∈ (inp.row island).rows := by rw [hrows]; simp [Dispatch.columns]
    have hsame : (inp.row island).get? "nfload" = some nf := Dict.get?_eq_some.2 (hrows ▸ hnf)
    rw [Dict.get?_eq_some.2 hmem] at hsame
    exact (Option.some.inj hsame).symm
  subst hload
  have hplain : PlainRow (inp.row island) := fun c hc => by
    obtain ⟨p, hp, rfl⟩ := List.mem_map.1 hc
    obtain ⟨hvirtual, hshed⟩ := h.kinds (hrows ▸ hp)
    exact ⟨hshed, fun hk => by rw [hvirtual hk]; exact virtualName_lt island⟩
  have hfresh : (Table.keys (Dict.empty : Dict String ℚ) ++ Absorption.invertersOf net (inp.row island).sorted).Nodup := by
    have hinv : (Absorption.invertersOf net (inp.row island).sorted).Perm (a.batteries.filterMap net.parent) := by
      rw [← h.invertersOf nf v]
      exact (hperm.filter _).filterMap _
    exact hinv.nodup_iff.2 h.inverters
  have hb := columns_booked hfresh hf
  obtain ⟨vb, hvb, hmeasured⟩ := columns_measured (v := (virtualName island, v.virt)) hplain
    (by rw [hrows, ← h.virtName]; simp [Dispatch.columns]) (columnKind_virtualName island)
    (fun c hc hk => (h.kinds (hrows ▸ hc)).1 hk) hf
  refine ⟨bal, vb, (Dict.get?_put ..).trans (if_pos rfl), hvb, hmeasured, hb, ?_⟩
  obtain ⟨hsolar, hshed, hbatt⟩ := h.sums nf v
  unfold PowerBalance.served
  rw [hb.solarP, hb.nfload, hb.batPower, sumOf_perm hperm, sumOf_perm hperm, sumOf_perm hperm, hsolar, hshed, hbatt]
  have hzero : PowerBalance.batPower ⟨0, nf, Dict.empty, 0⟩ = 0 := rfl
  rw [hzero]
  ring

end

/-- The row is one `manage_island` returns, where the solver says whether it solved the model and its values are
feasible then. -/
def Optimised (net : Network) (island : Island) (solved : Bool) (row : Row) : Prop :=
  ∃ (nsolar ngens nbatt : ℕ) (a : Dispatch.ManageArgs ℚ nsolar ngens nbatt) (d : Dispatch.IslandModel ℚ nsolar ngens nbatt)
    (o : Dispatch.Answer ℚ nsolar ngens nbatt), WellRead net island a ∧ Dispatch.buildModel a = .ok d ∧
      o.status.solved = solved ∧ (solved = true → Dispatch.Feasible d o.values) ∧ Dispatch.manageIsland a o = .ok row

/-- The load of the devices a row makes power for: what the virtual battery is given, and where there is no plan the
load that is not met, as a debt. -/
def planned (row : Row) (island : Island) (solved : Bool) : ℚ :=
  if solved then Dispatch.Row.column row (virtualName island) else -Dispatch.Row.column row "nfload"

/-- The entry a row makes: its columns are entered, and the power left for the devices is the planned one. -/
structure RowEntry (net : Network) (row : Row) (island : Island) (solved : Bool) (bal : PowerBalance) : Prop where
  booked : Booked net row.sorted ⟨0, Dispatch.Row.column row "nfload", Dict.empty, 0⟩ bal
  served : bal.served = planned row island solved

theorem Optimised.entry {solved : Bool} (h : Optimised net island solved (inp.row island))
    (hs : manageIsland net inp s island = .ok s') : ∃ bal vb,
      s'.powerbal.get? island = some (checkPowerBalance net (inp.inverters island) bal) ∧ s'.battery island = .ok vb ∧
      bal.vbLoad = measured inp.gld vb ∧ RowEntry net (inp.row island) island solved bal := by
  obtain ⟨nsolar, ngens, nbatt, a, d, o, hread, hd, rfl, hf, hrow⟩ := h
  obtain ⟨d', hd', hrow⟩ := bind_ok.1 hrow
  cases hd.symm.trans hd'
  have hrow : inp.row island = Table.ofList Prod.fst (Dispatch.columns a (d.nonflexLoad 2) o.atSecond) :=
    (Except.ok.inj hrow).symm
  obtain ⟨bal, vb, hbal, hvb, hload, hbooked, hserved⟩ := manageIsland_entry hread hrow hs
  have hshows := Dispatch.shows_columns hread.named o.atSecond (d.nonflexLoad 2)
  have hnfload : Dispatch.Row.column (inp.row island) "nfload" = d.nonflexLoad 2 := by rw [hrow, hshows.nfload]
  refine ⟨bal, vb, hbal, hvb, hload, ⟨hnfload ▸ hbooked, hserved.trans ?_⟩⟩
  unfold planned
  rw [hnfload, hrow, ← hread.virtName, hshows.virt]
  unfold Dispatch.Answer.atSecond
  cases ho : o.status.solved with
  | false => simp
  | true =>
    obtain ⟨hlen, -, -⟩ := Dispatch.buildModel_spec hd
    have hbalance := (hf ho).balance 2 (Finset.mem_Icc.2 ⟨by omega, hlen⟩)
    have hgens : ngens = 0 := by rw [← hread.named.gens, hread.gens]; rfl
    subst hgens
    rw [Finset.univ_eq_empty, Finset.sum_empty] at hbalance
    simp only [if_true]
    linarith

/-! ## What a check leaves -/

/-- What a check leaves of an entry: all of it while the power is within 15 kW of the measured load or no battery alone
has room for the difference, and else one battery has taken over the difference within its rate. -/
structure Checked (net : Network) (bal out : PowerBalance) : Prop where
  kept : |bal.vbLoad - bal.served| ≤ 15 ∨ ¬ net.OneHasRoom bal → out = bal
  corrected : 15 < |bal.vbLoad - bal.served| → net.OneHasRoom bal → ∃ b kW, Corrected net bal out b kW

theorem checked_checkPowerBalance (draws : ℕ → ℕ) (bal : PowerBalance) : Checked net bal (checkPowerBalance net draws bal) := by
  have hbalanced : bal.Balanced ↔ |bal.vbLoad - bal.served| ≤ 15 := by
    unfold PowerBalance.Balanced
    rw [bal.imbalance_eq]
  rcases checkPowerBalance_cases net draws bal with ⟨h, heq⟩ | ⟨hnot, b, kW, hb, hr, heq⟩
  · refine ⟨fun _ => heq, fun hlt hroom => ?_⟩
    rcases h with h | h
    · exact absurd (hbalanced.1 h) (not_le.2 hlt)
    · exact absurd hroom h
  · refine ⟨fun h => ?_, fun _ _ => ⟨b, kW, heq ▸ corrected_takeOver hnot hb hr⟩⟩
    rcases h with h | h
    · exact absurd (hbalanced.2 h) hnot
    · exact absurd ⟨b, kW, hb, hr⟩ h

/-- The entry of an island is what a check has left of one that is as `before` says, with the load its devices are
measured at. -/
def Settled (net : Network) (inp : ManageInput) (s : Globals) (island : Island) (before : PowerBalance → Prop) : Prop :=
  ∃ bal out vb, before bal ∧ s.battery island = .ok vb ∧ bal.vbLoad = measured inp.gld vb ∧
    s.powerbal.get? island = some out ∧ Checked net bal out

/-- Two states with one entry and one battery of an island are settled alike. -/
theorem Settled.congr {before : PowerBalance → Prop} (h : Settled net inp s island before)
    (hbal : s'.powerbal.get? island = s.powerbal.get? island) (hvb : s'.battery island = s.battery island) :
    Settled net inp s' island before := by
  obtain ⟨bal, out, vb, hb, hv, hload, hout, hc⟩ := h
  exact ⟨bal, out, vb, hb, hvb.trans hv, hload, hbal.trans hout, hc⟩

/-- A step without a setpoint enters the new load into the entry there was. -/
def Remeasured (s : Globals) (island : Island) (bal : PowerBalance) : Prop :=
  ∃ old, s.powerbal.get? island = some old ∧ bal = { old with vbLoad := bal.vbLoad }

theorem packetizeTurn_settled (h : packetizeTurn net inp s island = .ok s') :
    Settled net inp s' island (Remeasured s island) := by
  obtain ⟨⟨s₁, load⟩, hrun, h⟩ := bind_ok.1 h
  obtain ⟨bal, hbal, h⟩ := bind_ok.1 h
  cases h
  rw [orRaise_eq_ok] at hbal
  obtain ⟨vb, hvb, rfl, hload⟩ := packetizeIsland_eq_ok.1 hrun
  exact ⟨{ bal with vbLoad := load }, _, _, ⟨bal, hbal, rfl⟩, (battery_setBattery s hvb).trans (if_pos rfl), hload,
    (Dict.get?_put ..).trans (if_pos rfl), checked_checkPowerBalance ..⟩

/-! ## Turns of other islands -/

theorem Move.battery_of_ne {j : Island} (h : Move inp island s s') (hj : island ≠ j) : s'.battery j = s.battery j := by
  cases h with
  | setpoint x hb => exact (battery_setBattery s hb).trans (if_neg hj)
  | packetize h =>
    obtain ⟨vb, hb, rfl, -⟩ := packetizeIsland_eq_ok.1 h
    exact (battery_setBattery s hb).trans (if_neg hj)
  | off hb hn =>
    obtain ⟨vb', st, he, -⟩ := turnOffHouse_spec hb hn
    rw [he]
    exact (battery_setBattery s hb).trans (if_neg hj)
  | on hn h =>
    obtain ⟨d, e, vb, hd, he, hb, rfl⟩ := turnOnHouse_eq_ok.1 h
    exact (battery_setBattery ((s.setDevice _).setDevice _) hb).trans (if_neg hj)

/-- A turn leaves the entry and the battery of every other island. -/
theorem Turn.of_ne {j : Island} (h : Turn inp island s s') (hj : island ≠ j) :
    s'.powerbal.get? j = s.powerbal.get? j ∧ s'.battery j = s.battery j := by
  obtain ⟨s₁, bal, hm, rfl⟩ := h.moves
  refine ⟨?_, ?_⟩
  · rw [← (unmoved_of_moves hm).powerbal]
    exact (Dict.get?_put ..).trans (if_neg hj)
  · show s₁.battery j = s.battery j
    clear h
    induction hm with
    | refl => rfl
    | tail _ hm ih => exact (hm.battery_of_ne hj).trans ih

/-- A round of turns settles each island of it from what its own turn settles it from, and leaves the other islands. -/
theorem round_settled {f : Globals → Island → Except Err Globals} {before : Globals → Island → PowerBalance → Prop}
    {islands : List Island}
    (hturn : ∀ i ∈ islands, ∀ c c', f c i = .ok c' → Turn inp i c c' ∧ Settled net inp c' i (before c i))
    (hbefore : ∀ j c c', c'.powerbal.get? j = c.powerbal.get? j → before c' j = before c j) (hn : islands.Nodup)
    (h : islands.foldlM f s = .ok s') (i : Island) : (i ∈ islands → Settled net inp s' i (before s i)) ∧
      (i ∉ islands → s'.powerbal.get? i = s.powerbal.get? i ∧ s'.battery i = s.battery i) := by
  induction islands generalizing s with
  | nil =>
    cases h
    exact ⟨fun hi => (List.not_mem_nil hi).elim, fun _ => ⟨rfl, rfl⟩⟩
  | cons k islands ih =>
    rw [List.foldlM_cons, bind_ok] at h
    obtain ⟨c, hk, h⟩ := h
    rw [List.nodup_cons] at hn
    obtain ⟨hturnk, hsettled⟩ := hturn k (List.mem_cons_self ..) s c hk
    obtain ⟨hin, hout⟩ := ih (fun j hj => hturn j (List.mem_cons_of_mem _ hj)) hn.2 h
    by_cases he : k = i
    · -- no later turn is this island's
      subst he
      obtain ⟨hbal, hvb⟩ := hout hn.1
      exact ⟨fun _ => hsettled.congr hbal hvb, fun hi => (hi (List.mem_cons_self ..)).elim⟩
    · obtain ⟨hbal, hvb⟩ := hturnk.of_ne he
      refine ⟨fun hi => ?_, fun hi => ?_⟩
      · rw [← hbefore i s c hbal]
        exact hin ((List.mem_cons.1 hi).resolve_left fun h => he h.symm)
      · obtain ⟨hbal', hvb'⟩ := hout fun h => hi (List.mem_cons_of_mem _ h)
        exact ⟨hbal'.trans hbal, hvb'.trans hvb⟩

/-! ## Commits -/

/-- The entry of an island before a check: in a management step the one its row makes, else the one there was with the
new load. -/
def Unchecked (net : Network) (inp : CommitInput) (solved : Island → Bool) (s : Globals) (island : Island) :
    PowerBalance → Prop :=
  if s.Manages inp then RowEntry net (inp.row island) island (solved island) else Remeasured s island

/-- The control part settles the islands in force while some device is islanded, and leaves the entries of all others. -/
theorem control_settled {inp : CommitInput} {solved : Island → Bool} (hn : (s.islands.getD []).Nodup)
    (hrows : s.Manages inp → ∀ i ∈ s.islands.getD [], Optimised net i (solved i) (inp.row i))
    (h : s.control net inp = .ok s') (i : Island) :
    (i ∈ s.islands.getD [] ∧ s.islandedDevices ≠ [] ∧ s.islanded = true →
      Settled net inp.toManageInput s' i (Unchecked net inp solved s i)) ∧
    (i ∉ s.islands.getD [] ∨ s.islandedDevices = [] ∨ s.islanded = false → s'.powerbal.get? i = s.powerbal.get? i) := by
  -- a round over the islands in force is all there is while some device is islanded
  have hround : ∀ {before : PowerBalance → Prop}, s.islandedDevices ≠ [] → s.islanded = true →
      ((i ∈ s.islands.getD [] → Settled net inp.toManageInput s' i before) ∧
        (i ∉ s.islands.getD [] → s'.powerbal.get? i = s.powerbal.get? i ∧ s'.battery i = s.battery i)) →
      (i ∈ s.islands.getD [] ∧ s.islandedDevices ≠ [] ∧ s.islanded = true → Settled net inp.toManageInput s' i before) ∧
        (i ∉ s.islands.getD [] ∨ s.islandedDevices = [] ∨ s.islanded = false → s'.powerbal.get? i = s.powerbal.get? i) := by
    rintro before hd hisl ⟨hin, hout⟩
    refine ⟨fun hi => hin hi.1, ?_⟩
    rintro (hi | hi | hi)
    · exact (hout hi).1
    · exact absurd hi hd
    · exact absurd (hisl.symm.trans hi) (by decide)
  unfold control at h
  unfold Unchecked
  split at h
  · rename_i hm
    have hmanaged : ∀ i ∈ s.islands.getD [], ∀ c c', manageIsland net inp.toManageInput c i = .ok c' →
        Turn inp.toManageInput i c c' ∧
          Settled net inp.toManageInput c' i (RowEntry net (inp.row i) i (solved i)) := by
      intro i hi c c' hc
      obtain ⟨bal, vb, hbal, hvb, hload, hentry⟩ := (hrows hm i hi).entry hc
      exact ⟨manageIsland_turn hc, bal, _, vb, hentry, hvb, hload, hbal, checked_checkPowerBalance ..⟩
    rw [if_pos hm]
    exact hround hm.2.1 hm.2.2.1 (round_settled hmanaged (fun _ _ _ _ => rfl) hn h i)
  · rename_i hm
    rw [if_neg hm]
    split at h
    · rename_i hp
      have hpacketized : ∀ i ∈ s.islands.getD [], ∀ c c', packetizeTurn net inp.toManageInput c i = .ok c' →
          Turn inp.toManageInput i c c' ∧ Settled net inp.toManageInput c' i (Remeasured c i) :=
        fun i _ c c' hc => ⟨packetizeTurn_turn hc, packetizeTurn_settled hc⟩
      exact hround hp.1 hp.2 (round_settled hpacketized (fun _ _ _ hbal => by unfold Remeasured; rw [hbal]) hn h i)
    · rename_i hp
      cases h
      exact ⟨fun hi => absurd hi.2 hp, fun _ => rfl⟩

/-- What a commit should do to the entries: those of the islands in force are settled while some device is islanded, and
the others stay. -/
def CommitSettles (net : Network) (solved : CommitInput → Island → Bool) (s : Globals) (inp : CommitInput) : Prop :=
  ∀ s₁ s', s.prepare net inp = .ok s₁ → s₁.control net inp = .ok s' →
    (s₁.Manages inp → ∀ i ∈ s₁.islands.getD [], Optimised net i (solved inp i) (inp.row i)) →
    s₁.powerbal = s.powerbal ∧ ∀ i,
      (i ∈ s₁.islands.getD [] ∧ s₁.islandedDevices ≠ [] ∧ s₁.islanded = true →
        Settled net inp.toManageInput s' i (Unchecked net inp (solved inp) s₁ i)) ∧
      (i ∉ s₁.islands.getD [] ∨ s₁.islandedDevices = [] ∨ s₁.islanded = false → s'.powerbal.get? i = s.powerbal.get? i)

/-- Between commits no new islands are pending and the islands in force are distinct. -/
structure Resting (net : Network) (s : Globals) : Prop where
  mapped : s.Mapped net
  reIsland : s.reIsland = false
  distinct : (s.islands.getD []).Nodup

theorem Resting.prepare {inp : CommitInput} (h : Resting net s) (hn : inp.partition.Nodup)
    (hs : s.prepare net inp = .ok s') : Resting net s' ∧ s'.powerbal = s.powerbal := by
  have hp := prepare_spec h.mapped h.reIsland hs
  refine ⟨⟨hp.mapped, hp.reIsland, ?_⟩, hp.powerbal⟩
  by_cases hc : s.ChangesPartition net inp
  · rw [(hp.new hc).1]
    exact hn
  · rw [(hp.same hc).1]
    exact h.distinct

theorem Resting.control {inp : CommitInput} (h : Resting net s) (hs : s.control net inp = .ok s') : Resting net s' := by
  have hsame : SameIslands s s' :=
    control_invariant (P := SameIslands s) (fun _ _ _ _ ht hc => hc.trans ht.same) (.refl s) hs
  exact ⟨h.mapped.congr hsame.deviceMap, hsame.reIsland.trans h.reIsland, by rw [hsame.islands]; exact h.distinct⟩

/-- For every run of commits whose partitions list no island twice: whenever the rows of a management step are ones the
optimiser returns, the step enters the power of each island for the load planned, each later commit keeps it for the
load it was for, and exactly when that differs by more than 15 kW from the load measured and one battery has room for
the difference, such a battery takes it over within its rate. -/
theorem commits_settled (net : Network) (tStart : ℤ) (st : GldState ℚ) (solved : CommitInput → Island → Bool)
    (inps : List CommitInput) (hn : ∀ inp ∈ inps, inp.partition.Nodup) :
    AllSteps (raising (onCommit net)) (CommitSettles net solved) (init tStart st) inps := by
  have hdistinct : AllSteps (raising (onCommit net)) (fun _ inp => inp.partition.Nodup) (init tStart st) inps :=
    allSteps_of_forall fun inp hinp _ => hn inp hinp
  refine allSteps_of_invariant (fun s inp s' (hs : Resting net s) hc hstep => ?_) (fun s inp hs hc => ?_)
    ⟨fun _ hm => (by cases hm), rfl, List.nodup_nil⟩ hdistinct
  · obtain ⟨s₁, hs₁, hstep⟩ := bind_ok.1 (toOption_eq_some.1 hstep)
    exact (hs.prepare hc hs₁).1.control hstep
  · intro s₁ s' hs₁ hs' hrows
    obtain ⟨hrest, hbal⟩ := hs.prepare hc hs₁
    exact ⟨hbal, fun i => hbal ▸ control_settled hrest.distinct hrows hs' i⟩

/-- The two feeders with a battery at the first, which can give 50 kW. -/
def batteryFeeders : Network := { twoFeeders with
  parent := fun b => if b = "battery_101" then some "inverter_101" else none
  maxDischargeRate := fun _ => 50 }

/-- The row of an island of one battery that covers the load. -/
def solvedRow : Row :=
  (Dispatch.manageIsland Dispatch.smallIsland ⟨.optimal, Dispatch.firstDischarges⟩).toOption.getD Dict.empty

theorem solvedRow_optimised : Optimised batteryFeeders [101] true solvedRow := by
  refine ⟨0, 0, 1, Dispatch.smallIsland, _, ⟨.optimal, Dispatch.firstDischarges⟩, ?_, rfl, rfl,
    fun _ => by decide +kernel, rfl⟩
  constructor
  case solar => exact fun i => i.elim0
  case named => decide +kernel
  all_goals decide +kernel

/-- A fault at 180 islands the first feeder, and the island is managed on that row while each device draws 20 kW. -/
def managedFault : CommitInput :=
  { smallCommit 180 (· = 102) [[101]] fun _ => solvedRow with gld := fun _ => ⟨70, 20, 70⟩ }

/-- The battery, at 2 kW in the plan, takes over the 40 kW of the two devices. -/
theorem managedFault_settled : ∃ s s₁ s' out,
    onCommit batteryFeeders (init 0 untouched) (smallCommit 0 (fun _ => false) [] fun _ => solvedRow) = .ok s ∧
    s.prepare batteryFeeders managedFault = .ok s₁ ∧ s₁.control batteryFeeders managedFault = .ok s' ∧
    Settled batteryFeeders managedFault.toManageInput s' [101] (RowEntry batteryFeeders solvedRow [101] true) ∧
    s'.powerbal.get? [101] = some out ∧ out.battP.get? "inverter_101" = some 42 := by
  have hall := commits_settled batteryFeeders 0 untouched (fun _ _ => true)
    [smallCommit 0 (fun _ => false) [] fun _ => solvedRow, managedFault] (by decide)
  rw [allSteps_cons] at hall
  have hrun : ((onCommit batteryFeeders (init 0 untouched) (smallCommit 0 (fun _ => false) [] fun _ => solvedRow)).toOption.bind
      fun s => (s.prepare batteryFeeders managedFault).toOption.bind fun s₁ =>
        (s₁.control batteryFeeders managedFault).toOption.map fun s' => (decide (s₁.Manages managedFault),
          s₁.islands, (s'.powerbal.get? [101]).bind fun out => out.battP.get? "inverter_101")) =
      some (true, some [[101]], some 42) := by
    decide +kernel
  rw [Option.bind_eq_some_iff] at hrun
  obtain ⟨s, hs, hrun⟩ := hrun
  rw [Option.bind_eq_some_iff] at hrun
  obtain ⟨s₁, hs₁, hrun⟩ := hrun
  rw [Option.map_eq_some_iff] at hrun
  obtain ⟨s', hs', hrun⟩ := hrun
  simp only [Prod.mk.injEq, decide_eq_true_eq, Option.bind_eq_some_iff] at hrun
  obtain ⟨hm, hi, out, hout, htaken⟩ := hrun
  have hstep := (allSteps_cons.1 (hall.2 s hs)).1 s₁ s' (toOption_eq_some.1 hs₁) (toOption_eq_some.1 hs') fun _ i hmem => by
    rw [hi, Option.getD_some, List.mem_singleton] at hmem
    exact hmem ▸ solvedRow_optimised
  have hsettled := (hstep.2 [101]).1 ⟨by rw [hi]; exact List.mem_singleton_self _, hm.2.1, hm.2.2.1⟩
  unfold Unchecked at hsettled
  rw [if_pos hm] at hsettled
  exact ⟨s, s₁, s', out, toOption_eq_some.1 hs, toOption_eq_some.1 hs₁, toOption_eq_some.1 hs', hsettled, hout, htaken⟩

end Globals

end Grip.Absorption
