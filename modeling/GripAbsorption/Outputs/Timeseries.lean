/-
`timeseries_gen` of `data_post_process.py`: `timeseries.csv` out of five recorder files. Each file is read
into lists of its own and the lists are joined by position. The baseline's rows are those whose timestamp
holds one of the generation file's, and the load's are all rows, so a row compares values of one time exactly
when the load file and the matches in the baseline file stand at the same positions as the generation file.
-/
import GripAbsorption.Base.Decimal
import GripAbsorption.Outputs.EventLog

namespace Grip.Outputs

open Grip.Base

/-! ## Reading the files -/

/-- The recorder files, a missing one as `none`. -/
structure Files where
  /-- `timeseries_data_gen_strg.csv` -/
  genStr : Option (List Row)
  /-- `total_load.csv` -/
  load : Option (List Row)
  /-- `flexible_load_HVAC.csv` -/
  flexHVAC : Option (List Row)
  /-- `flexible_load_WH.csv` -/
  flexWH : Option (List Row)
  /-- `baseline.csv` -/
  baseline : Option (List Row)

inductive SeriesErr
  | indexError
  | valueError
  | zeroDivisionError
  deriving DecidableEq, Repr

/-- `float(row[i].split(" ")[0])`. -/
def leadingNumber (row : Row) (i : ℕ) : Except SeriesErr ℚ := do
  let cell ← orRaise .indexError row[i]?
  orRaise .valueError (parseFloat (cell.takeWhile (· ≠ ' ')))

/-- `float(row[i])`. -/
def wholeNumber (row : Row) (i : ℕ) : Except SeriesErr ℚ := do
  let cell ← orRaise .indexError row[i]?
  orRaise .valueError (parseFloat cell)

/-- What `value` makes of each row without a `#` in its first cell; a blank line has no first cell. -/
def readRows {β : Type} (value : Row → Except SeriesErr β) : List Row → Except SeriesErr (List β)
  | [] => return []
  | row :: rows => do
    let timestamp ← orRaise .indexError row.head?
    if '#' ∈ timestamp then readRows value rows
    else do
      let v ← value row
      let vs ← readRows value rows
      return v :: vs

/-- A row of the generation and storage file. -/
structure GenStr where
  timestamp : Text
  generation : ℚ
  storagePower : ℚ
  storageEnergy : ℚ

def readGenStr (row : Row) : Except SeriesErr GenStr := do
  let timestamp ← orRaise .indexError row.head?
  let n := leadingNumber row
  let generation := (← n 1) + (← n 2) + (← n 3)
  let storagePower := (← n 4) + (← n 5) + (← n 6)
  let storageEnergy := (← n 7) * (← n 10) + (← n 8) * (← n 11) + (← n 9) * (← n 12)
  return ⟨timestamp, generation, storagePower, storageEnergy⟩

/-- The values a baseline row adds: one for each timestamp its own contains. -/
def readBaseline (timeseries : List Text) (row : Row) : Except SeriesErr (List ℚ) :=
  (timeseries.filter (· <:+: row.headD [])).mapM fun _ => wholeNumber row 1

/-- `unserved_load`; nothing is computed without a baseline file. -/
def unservedLoad (timeseries : List Text) (totalLoad : List ℚ) : Option (List Row) → Except SeriesErr (List ℚ)
  | none => return []
  | some rows => do
    let baseline ← readRows (readBaseline timeseries) rows
    let last ← orRaise .indexError baseline.flatten.getLast?
    if last = 0 ∧ totalLoad ≠ [] then throw .zeroDivisionError
    return List.zipWith (fun base act => (base - act) / last * 100) baseline.flatten totalLoad

/-! ## Writing -/

/-- The lists that are joined. -/
structure Series where
  genStr : List GenStr
  totalLoad : List ℚ
  flexibleLoad : List ℚ
  unservedLoad : List ℚ

/-- A row of `timeseries.csv`. -/
structure SeriesRow where
  timestamp : Text
  generation : ℚ
  totalLoad : ℚ
  flexibleLoad : ℚ
  unserved : ℚ
  storagePower : ℚ
  storageEnergy : ℚ
  deriving DecidableEq

def collect (f : Files) : Except SeriesErr Series := do
  let genStr ← readRows readGenStr (f.genStr.getD [])
  let totalLoad ← readRows (leadingNumber · 1) (f.load.getD [])
  let flexHVAC ← readRows (leadingNumber · 1) (f.flexHVAC.getD [])
  let flexWH ← readRows (leadingNumber · 1) (f.flexWH.getD [])
  let unserved ← unservedLoad (genStr.map (·.timestamp)) totalLoad f.baseline
  return ⟨genStr, totalLoad, List.zipWith (· + ·) flexHVAC flexWH, unserved⟩

/-- The `i`-th row; an index outside one of the lists raises. -/
def Series.row (s : Series) (i : ℕ) : Option SeriesRow := do
  let g ← s.genStr[i]?
  let totalLoad ← s.totalLoad[i]?
  let flexibleLoad ← s.flexibleLoad[i]?
  let unserved ← s.unservedLoad[i]?
  return ⟨g.timestamp, g.generation, totalLoad, flexibleLoad, unserved, g.storagePower, g.storageEnergy⟩

/-- The rows written until one raises. -/
def writeRows (row : ℕ → Option SeriesRow) : List ℕ → List SeriesRow × Option SeriesErr
  | [] => ([], none)
  | i :: is =>
    match row i with
    | none => ([], some .indexError)
    | some r => (r :: (writeRows row is).1, (writeRows row is).2)

/-- `timeseries_gen`: the rows of `timeseries.csv` below its header, and what it raised. -/
def timeseriesGen (f : Files) : List SeriesRow × Option SeriesErr :=
  match collect f with
  | .ok s => writeRows s.row (List.range s.genStr.length)
  | .error e => ([], some e)

theorem getElem?_writeRows {row : ℕ → Option SeriesRow} : ∀ {is : List ℕ} {k : ℕ} {r : SeriesRow},
    (writeRows row is).1[k]? = some r → ∃ i, is[k]? = some i ∧ row i = some r
  | [], k, r, h => by simp [writeRows] at h
  | i :: is, k, r, h => by
    rw [writeRows] at h
    cases hi : row i with
    | none => simp [hi] at h
    | some r' =>
      rw [hi] at h
      cases k with
      | zero =>
        obtain rfl : r' = r := by simpa using h
        exact ⟨i, rfl, hi⟩
      | succ k =>
        have htail : (writeRows row is).1[k]? = some r := by simpa using h
        obtain ⟨j, hj, hr⟩ := getElem?_writeRows htail
        exact ⟨j, hj, hr⟩

/-! ## What the files say -/

/-- The rows that are read. -/
def dataRows (file : Option (List Row)) : List Row := (file.getD []).filter IsData

/-- A row's timestamp. -/
def stamp (row : Row) : Text := row.headD []

/-- The load file holds the load `v` for the timestamp. -/
def LoadAt (f : Files) (timestamp : Text) (v : ℚ) : Prop :=
  ∃ row ∈ dataRows f.load, stamp row = timestamp ∧ leadingNumber row 1 = .ok v

/-- The baseline file holds the baseline `b` for the timestamp. -/
def BaselineAt (f : Files) (timestamp : Text) (b : ℚ) : Prop :=
  ∃ row ∈ dataRows f.baseline, stamp row = timestamp ∧ wholeNumber row 1 = .ok b

/-- The rows of the baseline file whose timestamps contain one of the generation file's, each with that one. -/
def matched (f : Files) : List (Text × Row) :=
  (dataRows f.baseline).flatMap fun row =>
    (((dataRows f.genStr).map stamp).filter (· <:+: stamp row)).map fun timestamp => (timestamp, row)

/-- The last matched baseline. -/
def LastMatched (f : Files) (last : ℚ) : Prop := ∃ m ∈ (matched f).getLast?, wholeNumber m.2 1 = .ok last

/-- The row's load and unserved energy are of its own time. -/
def SameTime (f : Files) (r : SeriesRow) : Prop :=
  ∃ v b last, LoadAt f r.timestamp v ∧ BaselineAt f r.timestamp b ∧ LastMatched f last ∧
    r.totalLoad = v ∧ r.unserved = (b - v) / last * 100

/-- At position `i` the load file has the load of the generation file's timestamp there, and the matches have its
baseline. -/
def AlignedAt (f : Files) (i : ℕ) : Prop :=
  ∃ g l m, (dataRows f.genStr)[i]? = some g ∧ (dataRows f.load)[i]? = some l ∧ (matched f)[i]? = some m ∧
    (∀ v, leadingNumber l 1 = .ok v → LoadAt f (stamp g) v) ∧ ∀ b, wholeNumber m.2 1 = .ok b → BaselineAt f (stamp g) b

/-- At position `i` the generation file, the load file and the matches have one timestamp. -/
def StampedAt (f : Files) (i : ℕ) : Prop :=
  ∃ g l m, (dataRows f.genStr)[i]? = some g ∧ (dataRows f.load)[i]? = some l ∧ (matched f)[i]? = some m ∧
    stamp l = stamp g ∧ stamp m.2 = stamp g

/-- No two rows of the load file hold one value, and no two of the baseline file. -/
structure Distinct (f : Files) : Prop where
  load : ((dataRows f.load).map (leadingNumber · 1)).Nodup
  baseline : ((dataRows f.baseline).map (wholeNumber · 1)).Nodup

/-- The values read are those of the data rows, in their order. -/
theorem forall₂_readRows {β : Type} {value : Row → Except SeriesErr β} : ∀ {rows : List Row} {l : List β},
    readRows value rows = .ok l → List.Forall₂ (fun row v => value row = .ok v) (rows.filter IsData) l
  | [], l, h => by
    cases h
    exact .nil
  | row :: rows, l, h => by
    obtain ⟨timestamp, ht, h⟩ := bind_ok.1 h
    rw [orRaise_eq_ok] at ht
    by_cases hmark : '#' ∈ timestamp
    · have hdata : ¬ IsData row := by
        rintro ⟨t, hmem, ht'⟩
        rw [ht] at hmem
        cases hmem
        exact ht' hmark
      rw [if_pos hmark] at h
      rw [List.filter_cons_of_neg (by simpa using hdata)]
      exact forall₂_readRows h
    · have hdata : IsData row := ⟨timestamp, ht, hmark⟩
      rw [if_neg hmark] at h
      obtain ⟨v, hv, h⟩ := bind_ok.1 h
      obtain ⟨vs, hvs, h⟩ := bind_ok.1 h
      cases h
      rw [List.filter_cons_of_pos (by simpa using hdata)]
      exact .cons hv (forall₂_readRows hvs)

theorem timestamp_readGenStr {row : Row} {g : GenStr} (h : readGenStr row = .ok g) : g.timestamp = stamp row := by
  obtain ⟨timestamp, ht, h⟩ := bind_ok.1 h
  rw [orRaise_eq_ok] at ht
  have hg : g.timestamp = timestamp := by
    simp only [bind_ok] at h
    obtain ⟨x1, -, x2, -, x3, -, x4, -, x5, -, x6, -, x7, -, x8, -, x9, -, x10, -, x11, -, x12, -, h⟩ := h
    cases h
    rfl
  rw [hg, stamp, List.headD_eq_head?_getD, ht, Option.getD_some]

/-- The baselines are those of the matches, in their order. -/
theorem forall₂_baseline {f : Files} {rows : List Row} (hf : f.baseline = some rows) {baseline : List (List ℚ)}
    (h : readRows (readBaseline ((dataRows f.genStr).map stamp)) rows = .ok baseline) :
    List.Forall₂ (fun m b => wholeNumber m.2 1 = .ok b) (matched f) baseline.flatten := by
  have hrows := forall₂_readRows h
  have hdata : dataRows f.baseline = rows.filter IsData := by rw [dataRows, hf, Option.getD_some]
  unfold matched
  rw [hdata]
  generalize rows.filter IsData = data at hrows
  generalize (dataRows f.genStr).map stamp = timeseries at hrows
  clear h
  induction hrows with
  | nil => exact .nil
  | cons hrow _ ih =>
    rw [List.flatMap_cons, List.flatten_cons]
    refine List.rel_append ?_ ih
    have hmatch := forall₂_of_mapM hrow
    rw [List.forall₂_map_left_iff]
    exact hmatch

/-- What is joined. -/
structure Joined (f : Files) (s : Series) : Prop where
  genStr : List.Forall₂ (fun row g => g.timestamp = stamp row) (dataRows f.genStr) s.genStr
  totalLoad : List.Forall₂ (fun row v => leadingNumber row 1 = .ok v) (dataRows f.load) s.totalLoad
  unserved : s.unservedLoad = [] ∨ ∃ baseline last, List.Forall₂ (fun m b => wholeNumber m.2 1 = .ok b) (matched f) baseline ∧
    baseline.getLast? = some last ∧ (last = 0 → s.totalLoad = []) ∧
    s.unservedLoad = List.zipWith (fun base act => (base - act) / last * 100) baseline s.totalLoad

theorem joined_of_collect {f : Files} {s : Series} (h : collect f = .ok s) : Joined f s := by
  obtain ⟨genStr, hgen, h⟩ := bind_ok.1 h
  obtain ⟨totalLoad, hload, h⟩ := bind_ok.1 h
  obtain ⟨flexHVAC, -, h⟩ := bind_ok.1 h
  obtain ⟨flexWH, -, h⟩ := bind_ok.1 h
  obtain ⟨unserved, hun, h⟩ := bind_ok.1 h
  cases h
  have hg : List.Forall₂ (fun row g => g.timestamp = stamp row) (dataRows f.genStr) genStr :=
    (forall₂_readRows hgen).imp fun _ _ => timestamp_readGenStr
  refine ⟨hg, forall₂_readRows hload, ?_⟩
  have htimes : genStr.map (·.timestamp) = (dataRows f.genStr).map stamp := by
    rw [← List.forall₂_eq_eq_eq, List.forall₂_map_left_iff, List.forall₂_map_right_iff]
    exact hg.flip
  rw [htimes] at hun
  cases hb : f.baseline with
  | none =>
    rw [hb] at hun
    cases hun
    exact .inl rfl
  | some rows =>
    rw [hb] at hun
    obtain ⟨baseline, hbase, hun⟩ := bind_ok.1 hun
    obtain ⟨last, hlast, hun⟩ := bind_ok.1 hun
    rw [orRaise_eq_ok] at hlast
    refine .inr ⟨baseline.flatten, last, forall₂_baseline hb hbase, hlast, ?_⟩
    by_cases hzero : last = 0 ∧ totalLoad ≠ []
    · rw [if_pos hzero] at hun
      cases hun
    · rw [if_neg hzero] at hun
      cases hun
      exact ⟨fun h0 => by_contra fun hne => hzero ⟨h0, hne⟩, rfl⟩

/-! ## When a row compares values of one time -/

theorem lastMatched_unique {f : Files} {a b : ℚ} (ha : LastMatched f a) (hb : LastMatched f b) : a = b := by
  obtain ⟨m, hm, hma⟩ := ha
  obtain ⟨n, hn, hnb⟩ := hb
  obtain rfl : m = n := Option.some_inj.1 (hm.symm.trans hn)
  exact Except.ok.inj (hma.symm.trans hnb)

/-- A row written is made of the entries at its position. -/
theorem exists_of_written {f : Files} {i : ℕ} {r : SeriesRow} (h : (timeseriesGen f).1[i]? = some r) :
    ∃ g l m v b last, (dataRows f.genStr)[i]? = some g ∧ (dataRows f.load)[i]? = some l ∧ (matched f)[i]? = some m ∧
      leadingNumber l 1 = .ok v ∧ wholeNumber m.2 1 = .ok b ∧ LastMatched f last ∧ last ≠ 0 ∧
      r.timestamp = stamp g ∧ r.totalLoad = v ∧ r.unserved = (b - v) / last * 100 := by
  unfold timeseriesGen at h
  cases hs : collect f with
  | error e => simp [hs] at h
  | ok s =>
    rw [hs] at h
    obtain ⟨k, hk, hrow⟩ := getElem?_writeRows h
    obtain rfl : i = k := by
      rw [List.getElem?_eq_some_iff] at hk
      obtain ⟨hlt, hk⟩ := hk
      rwa [List.getElem_range] at hk
    have hj := joined_of_collect hs
    simp only [Series.row, Option.bind_eq_bind, Option.bind_eq_some_iff, Option.pure_def, Option.some_inj] at hrow
    obtain ⟨g, hg, v, hv, flex, -, u, hu, rfl⟩ := hrow
    obtain ⟨grow, hgrow, ht⟩ := getElem?_of_forall₂ hj.genStr hg
    obtain ⟨l, hl, hlv⟩ := getElem?_of_forall₂ hj.totalLoad hv
    rcases hj.unserved with hnil | ⟨baseline, last, hbase, hlast, hzero, hzip⟩
    · rw [hnil] at hu
      cases hu
    · rw [hzip, List.getElem?_zipWith_eq_some] at hu
      obtain ⟨b, v', hb, hv', rfl⟩ := hu
      obtain rfl : v = v' := Option.some_inj.1 (hv.symm.trans hv')
      obtain ⟨m, hm, hmb⟩ := getElem?_of_forall₂ hbase hb
      obtain ⟨mlast, hml, hmlast⟩ := getLast?_of_forall₂ hbase hlast
      refine ⟨grow, l, m, v, b, last, hgrow, hl, hm, hlv, hmb, ⟨mlast, hml, hmlast⟩, fun h0 => ?_, ht, rfl, rfl⟩
      rw [hzero h0] at hv
      cases hv

/-- A row compares values of its own time exactly when the files are aligned at its position. -/
theorem sameTime_iff {f : Files} {i : ℕ} {r : SeriesRow} (h : (timeseriesGen f).1[i]? = some r) :
    SameTime f r ↔ AlignedAt f i := by
  obtain ⟨g, l, m, v, b, last, hg, hl, hm, hv, hb, hlast, hne, ht, hload, hun⟩ := exists_of_written h
  constructor
  · rintro ⟨v', b', last', hv', hb', hlast', hload', hun'⟩
    obtain rfl : v = v' := hload.symm.trans hload'
    obtain rfl : last = last' := lastMatched_unique hlast hlast'
    -- the same unserved energy out of the same load and last baseline has the same baseline in it
    obtain rfl : b = b' := by
      have heq := hun.symm.trans hun'
      field_simp at heq
      linarith
    rw [ht] at hv' hb'
    refine ⟨g, l, m, hg, hl, hm, fun w hw => ?_, fun w hw => ?_⟩
    · rw [hv] at hw
      cases hw
      exact hv'
    · rw [hb] at hw
      cases hw
      exact hb'
  · rintro ⟨g', l', m', hg', hl', hm', hloads, hbases⟩
    rw [hg] at hg'
    rw [hl] at hl'
    rw [hm] at hm'
    cases hg'
    cases hl'
    cases hm'
    rw [← ht] at hloads hbases
    exact ⟨v, b, last, hloads v hv, hbases b hb, hlast, hload, hun⟩

theorem mem_dataRows_of_matched {f : Files} {i : ℕ} {m : Text × Row} (h : (matched f)[i]? = some m) :
    m.2 ∈ dataRows f.baseline := by
  obtain ⟨row, hrow, hm⟩ := List.mem_flatMap.1 (List.mem_of_getElem? h)
  obtain ⟨t, -, rfl⟩ := List.mem_map.1 hm
  exact hrow

theorem StampedAt.aligned {f : Files} {i : ℕ} (h : StampedAt f i) : AlignedAt f i := by
  obtain ⟨g, l, m, hg, hl, hm, hls, hms⟩ := h
  refine ⟨g, l, m, hg, hl, hm, fun w hw => ?_, fun w hw => ?_⟩
  · exact ⟨l, List.mem_of_getElem? hl, hls, hw⟩
  · exact ⟨m.2, mem_dataRows_of_matched hm, hms, hw⟩

/-- Where values tell the rows apart, they are of one time only if the timestamps are. -/
theorem sameTime_iff_stamped {f : Files} (hd : Distinct f) {i : ℕ} {r : SeriesRow} (h : (timeseriesGen f).1[i]? = some r) :
    SameTime f r ↔ StampedAt f i := by
  rw [sameTime_iff h]
  constructor
  · rintro ⟨g, l, m, hg, hl, hm, hloads, hbases⟩
    obtain ⟨g', l', m', v, b, -, -, hl', hm', hv, hb, -⟩ := exists_of_written h
    obtain rfl : l = l' := Option.some_inj.1 (hl.symm.trans hl')
    obtain rfl : m = m' := Option.some_inj.1 (hm.symm.trans hm')
    refine ⟨g, l, m, hg, hl, hm, ?_, ?_⟩
    · obtain ⟨row, hrow, hstamp, hval⟩ := hloads v hv
      rwa [List.inj_on_of_nodup_map hd.load hrow (List.mem_of_getElem? hl) (hval.trans hv.symm)] at hstamp
    · obtain ⟨row, hrow, hstamp, hval⟩ := hbases b hb
      rwa [List.inj_on_of_nodup_map hd.baseline hrow (mem_dataRows_of_matched hm) (hval.trans hb.symm)] at hstamp
  · exact StampedAt.aligned

/-- It is so in every row if the load file starts with the timestamps of the generation file, and the rows of the
baseline file that match are stamped with them too. -/
theorem sameTime_of_prefix {f : Files} (hload : (dataRows f.genStr).map stamp <+: (dataRows f.load).map stamp)
    (hbase : (matched f).map (fun m => stamp m.2) = (dataRows f.genStr).map stamp) :
    ∀ r ∈ (timeseriesGen f).1, SameTime f r := by
  intro r hr
  obtain ⟨i, hi⟩ := List.getElem?_of_mem hr
  obtain ⟨g, l, m, v, b, last, hg, hl, hm, hv, hb, -⟩ := exists_of_written hi
  have hgi : ((dataRows f.genStr).map stamp)[i]? = some (stamp g) := by rw [List.getElem?_map, hg]; rfl
  refine (sameTime_iff hi).2 (StampedAt.aligned ⟨g, l, m, hg, hl, hm, ?_, ?_⟩)
  · have hli : ((dataRows f.load).map stamp)[i]? = some (stamp l) := by rw [List.getElem?_map, hl]; rfl
    obtain ⟨rest, hrest⟩ := hload
    rw [← hrest, List.getElem?_append_left (List.getElem?_eq_some_iff.1 hgi).1, hgi] at hli
    exact (Option.some_inj.1 hli).symm
  · have hmi : ((matched f).map fun m => stamp m.2)[i]? = some (stamp m.2) := by rw [List.getElem?_map, hm]; rfl
    rw [hbase] at hmi
    exact Option.some_inj.1 (hmi.symm.trans hgi)

/-- A row written has the load and the baseline of its own time exactly when the entries at its position have their
values, which for distinct values is to say their timestamps; all rows do if the files are in one order and the load
file starts where the generation file does. -/
theorem timeseriesGen_sameTime (f : Files) :
    (∀ i r, (timeseriesGen f).1[i]? = some r →
      (SameTime f r ↔ AlignedAt f i) ∧ (Distinct f → (SameTime f r ↔ StampedAt f i))) ∧
      ((dataRows f.genStr).map stamp <+: (dataRows f.load).map stamp →
        (matched f).map (fun m => stamp m.2) = (dataRows f.genStr).map stamp → ∀ r ∈ (timeseriesGen f).1, SameTime f r) :=
  ⟨fun _ _ h => ⟨sameTime_iff h, fun hd => sameTime_iff_stamped hd h⟩, fun hload hbase => sameTime_of_prefix hload hbase⟩

/-! ## A load file with a row before -/

/-- Unique timestamps in the files that are joined, and those of the generation file in the others. -/
structure Recorded (f : Files) : Prop where
  genStr : ((dataRows f.genStr).map stamp).Nodup
  load : ((dataRows f.load).map stamp).Nodup
  baseline : ((dataRows f.baseline).map stamp).Nodup
  load_covers : ∀ row ∈ dataRows f.genStr, stamp row ∈ (dataRows f.load).map stamp
  baseline_covers : ∀ row ∈ dataRows f.genStr, stamp row ∈ (dataRows f.baseline).map stamp

def csvRow (row : List String) : Row := row.map String.toList

/-- Two minutes of generation, with the given rows in the load file. -/
def twoMinutes (load : List Row) : Files where
  genStr := some [csvRow ["# timestamp", "gen"], csvRow ("00:01" :: List.replicate 12 "+1 kW"),
    csvRow ("00:02" :: List.replicate 12 "+1 kW")]
  load := some load
  flexHVAC := some [csvRow ["00:01", "+3 kW"], csvRow ["00:02", "+3 kW"]]
  flexWH := some [csvRow ["00:01", "+2 kW"], csvRow ["00:02", "+2 kW"]]
  baseline := some [csvRow ["00:00", "30"], csvRow ["00:01", "40"], csvRow ["00:02", "50"]]

def alignedFiles : Files := twoMinutes [csvRow ["00:01", "+20 kW"], csvRow ["00:02", "+30 kW"]]

/-- The load file has a row for the minute before. -/
def shiftedFiles : Files := twoMinutes [csvRow ["00:00", "+10 kW"], csvRow ["00:01", "+20 kW"], csvRow ["00:02", "+30 kW"]]

def firstAligned : SeriesRow := ⟨"00:01".toList, 3, 20, 5, 40, 3, 3⟩

theorem timeseriesGen_aligned :
    (SameTime alignedFiles firstAligned ↔ StampedAt alignedFiles 0) ∧ ∀ r ∈ (timeseriesGen alignedFiles).1, SameTime alignedFiles r :=
  ⟨((timeseriesGen_sameTime alignedFiles).1 0 firstAligned (by decide +kernel)).2 ⟨by decide +kernel, by decide +kernel⟩,
    (timeseriesGen_sameTime alignedFiles).2 (by decide +kernel) (by decide +kernel)⟩

/-- The minute 00:01 gets the load of 00:00. -/
theorem timeseriesGen_shifted :
    Recorded shiftedFiles ∧ (timeseriesGen shiftedFiles).1[0]? = some ⟨"00:01".toList, 3, 10, 5, 60, 3, 3⟩ ∧
      LoadAt shiftedFiles "00:01".toList 20 ∧ ¬ ∀ r ∈ (timeseriesGen shiftedFiles).1, SameTime shiftedFiles r := by
  have hrow : (timeseriesGen shiftedFiles).1[0]? = some ⟨"00:01".toList, 3, 10, 5, 60, 3, 3⟩ := by decide +kernel
  refine ⟨⟨by decide +kernel, by decide +kernel, by decide +kernel, by decide +kernel, by decide +kernel⟩, hrow,
    ⟨csvRow ["00:01", "+20 kW"], by decide +kernel, by decide +kernel, by decide +kernel⟩, fun hall => ?_⟩
  obtain ⟨v, -, -, hload, -, -, hv, -⟩ := hall _ (List.mem_of_getElem? hrow)
  subst hv
  -- no row of 00:01 holds 10
  have hnone : ¬ ∃ row ∈ dataRows shiftedFiles.load, stamp row = "00:01".toList ∧ leadingNumber row 1 = .ok 10 := by
    decide +kernel
  exact hnone hload

end Grip.Outputs
