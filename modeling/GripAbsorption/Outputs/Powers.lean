/-
The second half of `voltdump.py`: `powers.csv` out of the files `power_dump_*`. Headers and values are
collected from one file after the other and meet by position alone, so a time that one file lacks, or whose
row there is not read, moves the values of the files after it under the headers of others.
-/
import GripAbsorption.Outputs.Complex
import GripAbsorption.Outputs.Voltages

namespace Grip.Outputs

open Grip.Base

/-! ## The reader -/

/-- A header with the file and the column it is from. -/
structure HeaderCell where
  name : Text
  file : Text
  column : ℕ

/-- A value with the time, file and column it was read from. -/
structure PowerEntry (τ V : Type) where
  time : τ
  file : Text
  column : ℕ
  value : V

/-- The variables of the loop; `headers` is without the `Timestamp` in front. -/
structure PowerState (τ V : Type) where
  headers : List HeaderCell
  data : Dict τ (List (PowerEntry τ V))

def dumpPrefix : Text := "power_dump_".toList

section

variable {τ V : Type} [DecidableEq τ]

namespace PowerState

def init : PowerState τ V := ⟨[], Dict.empty⟩

/-- `headers.extend(row[1:])`. -/
def addHeaders (s : PowerState τ V) (file : Text) (cells : List Text) : PowerState τ V :=
  { s with headers := s.headers ++ cells.mapIdx fun k name => ⟨name, file, k⟩ }

def valuesAt (s : PowerState τ V) (t : τ) : List (PowerEntry τ V) := (s.data.get? t).getD []

/-- `if not timestamp in data.keys() : data[timestamp] = []`. -/
def touch (s : PowerState τ V) (t : τ) : PowerState τ V :=
  if (s.data.get? t).isSome then s else { s with data := s.data.put t [] }

/-- `data[timestamp].extend(values)`. -/
def extend (s : PowerState τ V) (t : τ) (file : Text) (values : List V) : PowerState τ V :=
  { s with data := s.data.put t (s.valuesAt t ++ values.mapIdx fun k v => ⟨t, file, k, v⟩) }

variable (strptime : Text → Option τ) (parse : Text → Except ReadErr V)

/-- The values of a row, each read by `to_complex`; one that is not read drops them all. -/
def record (s : PowerState τ V) (t : τ) (file : Text) (cells : List Text) : PowerState τ V :=
  match cells.mapM parse with
  | .ok values => (s.touch t).extend t file values
  | .error _ => s.touch t

def step (file : Text) (s : PowerState τ V) : Row → Except DumpErr (PowerState τ V)
  | [] => throw .indexError
  | [] :: _ => throw .indexError
  | (c :: cs) :: cells =>
    if c = '#' then return if c :: cs = timestampMark then s.addHeaders file cells else s
    else do
      let t ← orRaise .valueError (strptime (c :: cs))
      return s.record parse t file cells

/-- One file of the directory. -/
def readFile (s : PowerState τ V) (file : Text × List Row) : Except DumpErr (PowerState τ V) :=
  if dumpPrefix <+: file.1 then file.2.foldlM (step strptime parse file.1) s else return s

end PowerState

/-- The reader's state after all files, in the order in which `os.listdir` names them. -/
def readPowers (strptime : Text → Option τ) (parse : Text → Except ReadErr V) (files : List (Text × List Row)) :
    Except DumpErr (PowerState τ V) :=
  files.foldlM (PowerState.readFile strptime parse) .init

/-- Every value of `powers.csv` was read at its row's time, and stands under the header of its file and column. The
rows are written in the order in which their times were first read. -/
def PowerState.Aligned (s : PowerState τ V) : Prop :=
  ∀ row ∈ s.data.rows, ∀ (p : ℕ) (e : PowerEntry τ V), row.2[p]? = some e →
    e.time = row.1 ∧ ∃ h, s.headers[p]? = some h ∧ h.file = e.file ∧ h.column = e.column

end

/-! ## The dumps as strips of columns -/

/-- A row of a file that has at least one column. -/
structure Strip where
  file : Text
  width : ℕ
  pos : 0 < width
  deriving DecidableEq

namespace Strip

/-- The places `(file, 0)`, …, `(file, n - 1)`. -/
def cells (file : Text) (n : ℕ) : List (Text × ℕ) := (List.range n).map (file, ·)

def places (b : Strip) : List (Text × ℕ) := cells b.file b.width

/-- The strip of a row with `n` cells, if it has any. -/
def ofWidth (file : Text) (n : ℕ) : Option Strip := if h : 0 < n then some ⟨file, n, h⟩ else none

/-- The strips `bs` are the first ones of `hs`; only the last may be shorter. -/
def Fits : List Strip → List Strip → Prop
  | [], _ => True
  | _ :: _, [] => False
  | b :: bs, h :: hs => b.file = h.file ∧ (b.width = h.width ∧ Fits bs hs ∨ b.width < h.width ∧ bs = [])

instance decidableFits : ∀ bs hs, Decidable (Fits bs hs)
  | [], _ => isTrue trivial
  | _ :: _, [] => isFalse id
  | b :: bs, h :: hs =>
    have := decidableFits bs hs
    inferInstanceAs (Decidable (b.file = h.file ∧ (b.width = h.width ∧ Fits bs hs ∨ b.width < h.width ∧ bs = [])))

end Strip

section

variable {τ V : Type} [DecidableEq τ] (strptime : Text → Option τ) (parse : Text → Except ReadErr V)

/-- The row names columns. -/
def headingOf (file : Text) (row : Row) : Option Strip :=
  if row.head? = some timestampMark then Strip.ofWidth file row.tail.length else none

/-- The row has the time `t`, and all its cells are read. -/
def readingOf (t : τ) (file : Text) (row : Row) : Option Strip :=
  if (row.headD []).head? ≠ some '#' ∧ strptime (row.headD []) = some t ∧ ∀ cell ∈ row.tail, (parse cell).isOk then
    Strip.ofWidth file row.tail.length
  else none

/-- The rows of all dumps with their files, in the order they are read. -/
def dumpRows (files : List (Text × List Row)) : List (Text × Row) :=
  (files.filter fun file => dumpPrefix <+: file.1).flatMap fun file => file.2.map (file.1, ·)

def headings (files : List (Text × List Row)) : List Strip := (dumpRows files).filterMap fun r => headingOf r.1 r.2

def readings (t : τ) (files : List (Text × List Row)) : List Strip :=
  (dumpRows files).filterMap fun r => readingOf strptime parse t r.1 r.2

end

/-! ## Strips -/

namespace Strip

theorem cells_split (file : Text) {n m : ℕ} (h : n < m) : ∃ rest, cells file m = cells file n ++ (file, n) :: rest := by
  obtain ⟨k, rfl⟩ := Nat.exists_eq_add_of_lt h
  rw [cells, add_assoc, List.range_add, List.map_append, List.range_succ_eq_map]
  exact ⟨_, rfl⟩

theorem places_ofWidth (file : Text) (n : ℕ) : (ofWidth file n).toList.flatMap places = cells file n := by
  unfold ofWidth
  by_cases h : 0 < n
  · rw [dif_pos h]
    simp [places]
  · rw [dif_neg h, Nat.eq_zero_of_not_pos h]
    rfl

/-- Strips start with a column 0. -/
theorem places_cons (b : Strip) (bs : List Strip) : ∃ rest, (b :: bs).flatMap places = (b.file, 0) :: rest := by
  obtain ⟨rest, h⟩ := cells_split b.file b.pos
  refine ⟨rest ++ bs.flatMap places, ?_⟩
  rw [List.flatMap_cons, places, h]
  rfl

/-- No strip starts at a later column. -/
theorem places_prefix_cons {bs : List Strip} {file : Text} {n : ℕ} (hn : 0 < n) {l : List (Text × ℕ)} :
    bs.flatMap places <+: (file, n) :: l ↔ bs = [] := by
  constructor
  · intro h
    cases bs with
    | nil => rfl
    | cons b bs =>
      obtain ⟨rest, hb⟩ := places_cons b bs
      rw [hb, List.cons_prefix_cons] at h
      have h0 : 0 = n := congrArg Prod.snd h.1
      omega
  · rintro rfl
    exact List.nil_prefix

theorem cons_prefix_places {hs : List Strip} {file : Text} {n : ℕ} (hn : 0 < n) {l : List (Text × ℕ)} :
    ¬ (file, n) :: l <+: hs.flatMap places := by
  intro h
  cases hs with
  | nil => simpa using h.length_le
  | cons b hs =>
    obtain ⟨rest, hb⟩ := places_cons b hs
    rw [hb, List.cons_prefix_cons] at h
    have h0 : n = 0 := congrArg Prod.snd h.1
    omega

/-- Places in their order are the first ones exactly when strip for strip they are. -/
theorem places_prefix_iff : ∀ {bs hs : List Strip}, bs.flatMap places <+: hs.flatMap places ↔ Fits bs hs
  | [], hs => by simp [Fits]
  | b :: bs, [] => by
    obtain ⟨rest, hb⟩ := places_cons b bs
    rw [hb]
    simp [Fits]
  | b :: bs, h :: hs => by
    by_cases hfile : b.file = h.file
    · rw [List.flatMap_cons, List.flatMap_cons, Fits, places, places, hfile]
      rcases lt_trichotomy b.width h.width with hw | hw | hw
      · -- the header goes on behind the row
        obtain ⟨rest, hrest⟩ := cells_split h.file hw
        rw [hrest, List.append_assoc, List.prefix_append_right_inj, List.cons_append, places_prefix_cons b.pos]
        simp [hw, hw.ne]
      · rw [hw, List.prefix_append_right_inj, places_prefix_iff]
        simp
      · obtain ⟨rest, hrest⟩ := cells_split h.file hw
        rw [hrest, List.append_assoc, List.prefix_append_right_inj, List.cons_append]
        simp [cons_prefix_places h.pos, hw.ne', hw.le]
    · obtain ⟨rest, hb⟩ := places_cons b bs
      obtain ⟨rest', hh⟩ := places_cons h hs
      rw [hb, hh, List.cons_prefix_cons, Fits]
      simp [hfile]

end Strip

/-! ## One row -/

def HeaderCell.place (h : HeaderCell) : Text × ℕ := (h.file, h.column)

def PowerEntry.place {τ V : Type} (e : PowerEntry τ V) : Text × ℕ := (e.file, e.column)

/-- What a value was read for. -/
def PowerEntry.origin {τ V : Type} (e : PowerEntry τ V) : τ × Text × ℕ := (e.time, e.place)

section

variable {τ V : Type} [DecidableEq τ] {strptime : Text → Option τ} {parse : Text → Except ReadErr V}

namespace PowerState

/-- What the values under a time were read for. -/
def originsAt (s : PowerState τ V) (t : τ) : List (τ × Text × ℕ) := (s.valuesAt t).map PowerEntry.origin

@[simp] theorem valuesAt_touch (s : PowerState τ V) (t t' : τ) : (s.touch t).valuesAt t' = s.valuesAt t' := by
  unfold touch valuesAt
  split
  · rfl
  · rename_i h
    rw [Dict.get?_put]
    split
    · rename_i ht
      rw [← ht, Option.not_isSome_iff_eq_none.1 h]
      rfl
    · rfl

@[simp] theorem headers_touch (s : PowerState τ V) (t : τ) : (s.touch t).headers = s.headers := by
  unfold touch
  split <;> rfl

omit [DecidableEq τ] in
theorem map_place_addHeaders (s : PowerState τ V) (file : Text) (cells : List Text) :
    (s.addHeaders file cells).headers.map HeaderCell.place =
      s.headers.map HeaderCell.place ++ Strip.cells file cells.length := by
  have hnew : (cells.mapIdx fun k name => HeaderCell.mk name file k).map HeaderCell.place = Strip.cells file cells.length :=
    List.ext_getElem (by simp [Strip.cells]) (by simp [Strip.cells, HeaderCell.place])
  rw [addHeaders, List.map_append, hnew]

theorem originsAt_extend (s : PowerState τ V) (t t' : τ) (file : Text) (values : List V) :
    (s.extend t file values).originsAt t' =
      s.originsAt t' ++ if t = t' then (Strip.cells file values.length).map (t', ·) else [] := by
  have hnew : (values.mapIdx fun k v => PowerEntry.mk t file k v).map PowerEntry.origin =
      (Strip.cells file values.length).map (t, ·) :=
    List.ext_getElem (by simp [Strip.cells]) (by simp [Strip.cells, PowerEntry.origin, PowerEntry.place])
  unfold originsAt extend
  rw [valuesAt, Dict.get?_put]
  split
  · rename_i h
    subst h
    rw [Option.getD_some, List.map_append, hnew]
  · rw [List.append_nil, valuesAt]

variable (parse) in
@[simp] theorem headers_record (s : PowerState τ V) (t : τ) (file : Text) (cells : List Text) :
    (s.record parse t file cells).headers = s.headers := by
  unfold record
  split
  · exact headers_touch s t
  · exact headers_touch s t

/-- All values of a row are added, or none. -/
theorem originsAt_record {s : PowerState τ V} {t : τ} (file : Text) {row : Row} (hc : (row.headD []).head? ≠ some '#')
    (ht : strptime (row.headD []) = some t) (t' : τ) : (s.record parse t file row.tail).originsAt t' =
      s.originsAt t' ++ ((readingOf strptime parse t' file row).toList.flatMap Strip.places).map (t', ·) := by
  have htouch : (s.touch t).originsAt t' = s.originsAt t' := by simp [originsAt]
  unfold record readingOf
  cases hm : row.tail.mapM parse with
  | error e =>
    have hnone : ¬ ∀ cell ∈ row.tail, (parse cell).isOk := by
      rw [← isOk_mapM_iff, hm]
      exact Bool.false_ne_true
    rw [if_neg fun h => hnone h.2.2]
    exact htouch.trans (List.append_nil _).symm
  | ok values =>
    have hall : ∀ cell ∈ row.tail, (parse cell).isOk := by
      rw [← isOk_mapM_iff, hm]
      rfl
    have hlen : row.tail.length = values.length := (forall₂_of_mapM hm).length_eq
    change ((s.touch t).extend t file values).originsAt t' = _
    rw [originsAt_extend, htouch, ← hlen]
    by_cases h : t = t'
    · subst h
      rw [if_pos rfl, if_pos ⟨hc, ht, hall⟩, Strip.places_ofWidth]
    · rw [if_neg h, if_neg fun h' => h (Option.some.inj (ht.symm.trans h'.2.1))]
      rfl

/-- What one row adds. -/
theorem step_spec {file : Text} {s s' : PowerState τ V} {row : Row} (h : s.step strptime parse file row = .ok s') :
    s'.headers.map HeaderCell.place =
        s.headers.map HeaderCell.place ++ (headingOf file row).toList.flatMap Strip.places ∧
      ∀ t, s'.originsAt t =
        s.originsAt t ++ ((readingOf strptime parse t file row).toList.flatMap Strip.places).map (t, ·) := by
  match row, h with
  | (c :: cs) :: cells, h =>
    rw [step] at h
    by_cases hc : c = '#'
    · -- only the row of column names counts
      have hread : ∀ t, readingOf strptime parse t file ((c :: cs) :: cells) = none :=
        fun t => if_neg fun h => h.1 (congrArg some hc)
      rw [if_pos hc] at h
      by_cases hmark : c :: cs = timestampMark
      · have hhead : headingOf file ((c :: cs) :: cells) = Strip.ofWidth file cells.length :=
          if_pos (congrArg some hmark)
        rw [if_pos hmark] at h
        cases h
        rw [map_place_addHeaders, hhead, Strip.places_ofWidth]
        exact ⟨rfl, fun t => by rw [hread]; exact (List.append_nil _).symm⟩
      · have hhead : headingOf file ((c :: cs) :: cells) = none := if_neg fun hm => hmark (Option.some.inj hm)
        rw [if_neg hmark] at h
        cases h
        exact ⟨by simp [hhead], fun t => by simp [hread]⟩
    · have hhead : headingOf file ((c :: cs) :: cells) = none :=
        if_neg fun hm => hc (List.cons.inj (Option.some.inj hm)).1
      have hc' : (((c :: cs) :: cells).headD []).head? ≠ some '#' := fun hs => hc (Option.some.inj hs)
      rw [if_neg hc] at h
      obtain ⟨t, ht, h⟩ := bind_ok.1 h
      rw [orRaise_eq_ok] at ht
      cases h
      exact ⟨by simp [hhead], originsAt_record file hc' ht⟩

/-! ## All rows -/

/-- What a run of rows adds. -/
theorem run_spec : ∀ {rows : List (Text × Row)} {s s' : PowerState τ V},
    rows.foldlM (fun s r => s.step strptime parse r.1 r.2) s = .ok s' →
    s'.headers.map HeaderCell.place =
        s.headers.map HeaderCell.place ++ (rows.filterMap fun r => headingOf r.1 r.2).flatMap Strip.places ∧
      ∀ t, s'.originsAt t = s.originsAt t ++
        ((rows.filterMap fun r => readingOf strptime parse t r.1 r.2).flatMap Strip.places).map (t, ·)
  | [], s, s', h => by
    cases h
    simp
  | r :: rows, s, s', h => by
    rw [List.foldlM_cons] at h
    obtain ⟨s1, h1, h⟩ := bind_ok.1 h
    obtain ⟨hheads, hvals⟩ := step_spec h1
    obtain ⟨hheads', hvals'⟩ := run_spec h
    refine ⟨?_, fun t => ?_⟩
    · rw [hheads', hheads, List.append_assoc, ← List.flatMap_append]
      cases hr : headingOf r.1 r.2 <;> simp [hr]
    · rw [hvals' t, hvals t, List.append_assoc, ← List.map_append, ← List.flatMap_append]
      cases hr : readingOf strptime parse t r.1 r.2 <;> simp [hr]

/-- The loop over the files is one over the rows of all dumps. -/
theorem foldlM_readFile : ∀ {files : List (Text × List Row)} (s : PowerState τ V),
    files.foldlM (readFile strptime parse) s = (dumpRows files).foldlM (fun s r => s.step strptime parse r.1 r.2) s
  | [], _ => rfl
  | file :: files, s => by
    by_cases h : dumpPrefix <+: file.1
    · have hrows : dumpRows (file :: files) = file.2.map (file.1, ·) ++ dumpRows files := by simp [dumpRows, h]
      rw [hrows, List.foldlM_append, List.foldlM_map, List.foldlM_cons, readFile, if_pos h]
      exact congrArg _ (funext fun s' => foldlM_readFile s')
    · have hrows : dumpRows (file :: files) = dumpRows files := by simp [dumpRows, h]
      rw [hrows, List.foldlM_cons, readFile, if_neg h]
      exact foldlM_readFile s

end PowerState

/-- Dumps that are read give the headers of all of them, and under each time the values of its rows. -/
theorem readPowers_spec {files : List (Text × List Row)} {s : PowerState τ V}
    (h : readPowers strptime parse files = .ok s) :
    s.headers.map HeaderCell.place = (headings files).flatMap Strip.places ∧
      ∀ t, s.originsAt t = ((readings strptime parse t files).flatMap Strip.places).map (t, ·) := by
  rw [readPowers, PowerState.foldlM_readFile] at h
  exact PowerState.run_spec h

theorem map_prefix_map_iff {α β γ : Type} {f : α → γ} {g : β → γ} {l : List α} {m : List β} :
    l.map f <+: m.map g ↔ ∀ (p : ℕ) (a : α), l[p]? = some a → ∃ b, m[p]? = some b ∧ g b = f a := by
  rw [List.prefix_iff_getElem?]
  constructor
  · intro h p a ha
    obtain ⟨hp, rfl⟩ := List.getElem?_eq_some_iff.1 ha
    have hb := h p ((List.length_map f).symm ▸ hp)
    rwa [List.getElem_map, List.getElem?_map, Option.map_eq_some_iff] at hb
  · intro h p hp
    rw [List.getElem_map, List.getElem?_map, Option.map_eq_some_iff]
    exact h p _ (List.getElem?_eq_getElem _)

theorem readPowers_aligned_iff {files : List (Text × List Row)} {s : PowerState τ V}
    (h : readPowers strptime parse files = .ok s) :
    s.Aligned ↔ ∀ t, Strip.Fits (readings strptime parse t files) (headings files) := by
  obtain ⟨hheads, hvals⟩ := readPowers_spec h
  have hplaces : ∀ t, (s.valuesAt t).map PowerEntry.place = (readings strptime parse t files).flatMap Strip.places := by
    intro t
    have hsnd := congrArg (List.map Prod.snd) (hvals t)
    rw [PowerState.originsAt, List.map_map, List.map_map] at hsnd
    exact hsnd.trans (List.map_id _)
  have hfits : ∀ t, Strip.Fits (readings strptime parse t files) (headings files) ↔
      ∀ (p : ℕ) (e : PowerEntry τ V), (s.valuesAt t)[p]? = some e → ∃ h, s.headers[p]? = some h ∧ h.place = e.place := by
    intro t
    rw [← Strip.places_prefix_iff, ← hplaces, ← hheads, map_prefix_map_iff]
  constructor
  · intro hal t
    refine (hfits t).2 fun p e he => ?_
    cases hg : s.data.get? t with
    | none =>
      rw [PowerState.valuesAt, hg] at he
      cases he
    | some values =>
      rw [PowerState.valuesAt, hg] at he
      obtain ⟨-, h, hh, hfile, hcolumn⟩ := hal (t, values) (Dict.get?_eq_some.1 hg) p e he
      exact ⟨h, hh, Prod.ext hfile hcolumn⟩
  · intro hfit row hrow p e he
    have hvalues : s.valuesAt row.1 = row.2 := by
      rw [PowerState.valuesAt, Dict.get?_eq_some.2 hrow]
      rfl
    rw [← hvalues] at he
    obtain ⟨h, hh, hplace⟩ := (hfits row.1).1 (hfit row.1) p e he
    have hmem : e.origin ∈ s.originsAt row.1 := List.mem_map_of_mem (List.mem_of_getElem? he)
    rw [hvals] at hmem
    obtain ⟨place, -, horigin⟩ := List.mem_map.1 hmem
    exact ⟨(congrArg Prod.fst horigin).symm, h, hh, congrArg Prod.fst hplace, congrArg Prod.snd hplace⟩

end

/-! ## Both halves -/

/-- The values of `voltages.csv` stand under their columns exactly when each block of the dump lists the nodes in the
order in which they first occur, and those of `powers.csv` exactly when the rows of each time belong to the first rows of
column names, one to each. -/
theorem dumps_aligned_iff {τ V : Type} [LinearOrder τ] (strptime : Text → Option τ) (complexOf : Text → Text → Option V)
    (parse : Text → Except ReadErr V) :
    (∀ (rows : List Row) (s : VoltState τ V), readVolts strptime complexOf rows = .ok s →
      (s.Aligned ↔ Line.InOrder (lines strptime complexOf false rows))) ∧
    ∀ (files : List (Text × List Row)) (s : PowerState τ V), readPowers strptime parse files = .ok s →
      (s.Aligned ↔ ∀ t, Strip.Fits (readings strptime parse t files) (headings files)) :=
  ⟨fun _ _ h => readVolts_aligned_iff h, fun _ _ h => readPowers_aligned_iff h⟩

/-! ## Dumps in order and out of order -/

/-- A time by its digits. -/
def clock (s : Text) : Option ℕ := some (intOf (s.filter Char.isDigit))

def complexText (re im : Text) : Option (ℚ × ℚ) := do
  return (← parseFloat re, ← parseFloat im)

def voltBlock (time : String) (nodes : List (String × String)) : List Row :=
  [("# run at " ++ time ++ " UTC on 2 nodes").toList] :: voltHeader ::
    nodes.map fun n => [n.1, n.2, "0", n.2, "0", n.2, "0"].map String.toList

/-- Two blocks that list the nodes in different orders. -/
def swappedBlocks : List Row :=
  voltBlock "2020-01-01 00:00:00" [("n1", "1"), ("n2", "2")] ++ voltBlock "2020-01-01 00:01:00" [("n2", "2"), ("n1", "1")]

def powerDump (name meter : String) (values : List (String × String)) : Text × List Row :=
  (("power_dump_" ++ name).toList,
    ["# timestamp", meter].map String.toList :: values.map fun v => [v.1 ++ " UTC", v.2].map String.toList)

/-- Two files, the first without the second time. -/
def gappedDumps : List (Text × List Row) :=
  [powerDump "1.csv" "m1" [("2020-01-01 00:00:00", "+1+0j")],
    powerDump "2.csv" "m2" [("2020-01-01 00:00:00", "+2+0j"), ("2020-01-01 00:01:00", "+3+0j")]]

/-- In the second row the voltage of `n2` stands under `n1_A`, and the power of `m2` under `m1`. -/
theorem dumps_misplaced :
    (∃ s, readVolts clock complexText swappedBlocks = .ok s ∧ s.nodes[1]? = some "n1_A".toList ∧
      (s.written[1]?.bind fun row => row.2[0]?.map Entry.node) = some "n2".toList ∧ ¬ s.Aligned) ∧
    ∃ s, readPowers clock (toComplex (fun _ => 1) fun _ => 0) gappedDumps = .ok s ∧
      s.headers[0]?.map HeaderCell.name = some "m1".toList ∧
      (s.data.rows[1]?.bind fun row => row.2[0]?.map PowerEntry.value) = some (3, 0) ∧ ¬ s.Aligned := by
  constructor
  · have hread : ((readVolts clock complexText swappedBlocks).toOption.map fun s =>
        (s.nodes[1]?, s.written[1]?.bind fun row => row.2[0]?.map Entry.node)) =
          some (some "n1_A".toList, some "n2".toList) := by decide +kernel
    obtain ⟨s, hs, hv⟩ := Option.map_eq_some_iff.1 hread
    rw [toOption_eq_some] at hs
    obtain ⟨hnode, hentry⟩ := Prod.mk.inj hv
    refine ⟨s, hs, hnode, hentry, fun hal => ?_⟩
    have hord := (readVolts_aligned_iff hs).1 hal
    exact absurd (hord 20200101000100 ["n2".toList, "n1".toList] (by decide +kernel) 0 "n2".toList "n1".toList rfl
      (by decide +kernel)) (by decide)
  · have hread : ((readPowers clock (toComplex (fun _ => 1) fun _ => 0) gappedDumps).toOption.map fun s =>
        (s.headers[0]?.map HeaderCell.name, s.data.rows[1]?.bind fun row => row.2[0]?.map PowerEntry.value)) =
          some (some "m1".toList, some (3, 0)) := by decide +kernel
    obtain ⟨s, hs, hv⟩ := Option.map_eq_some_iff.1 hread
    rw [toOption_eq_some] at hs
    obtain ⟨hheader, hentry⟩ := Prod.mk.inj hv
    refine ⟨s, hs, hheader, hentry, fun hal => ?_⟩
    exact absurd ((readPowers_aligned_iff hs).1 hal 20200101000100) (by decide +kernel)

/-- Both blocks list the nodes in one order. -/
def orderedBlocks : List Row :=
  voltBlock "2020-01-01 00:00:00" [("n1", "1"), ("n2", "2")] ++ voltBlock "2020-01-01 00:01:00" [("n1", "1"), ("n2", "2")]

/-- Both files have the one time. -/
def evenDumps : List (Text × List Row) :=
  [powerDump "1.csv" "m1" [("2020-01-01 00:00:00", "+1+0j")], powerDump "2.csv" "m2" [("2020-01-01 00:00:00", "+2+0j")]]

theorem dumps_aligned_ordered :
    (∃ s, readVolts clock complexText orderedBlocks = .ok s ∧ s.Aligned) ∧
      ∃ s, readPowers clock (toComplex (fun _ => 1) fun _ => 0) evenDumps = .ok s ∧ s.Aligned := by
  constructor
  · have hok : (readVolts clock complexText orderedBlocks).toOption.isSome := by decide +kernel
    obtain ⟨s, hs⟩ := Option.isSome_iff_exists.1 hok
    rw [toOption_eq_some] at hs
    refine ⟨s, hs, ((dumps_aligned_iff clock complexText (toComplex (fun _ => 1) fun _ => 0)).1 _ s hs).2 ?_⟩
    intro t ns hns k node name hk hname
    have hlines : lines clock complexText false orderedBlocks =
        [.block 20200101000000, .reading "n1".toList, .reading "n2".toList,
          .block 20200101000100, .reading "n1".toList, .reading "n2".toList] := by decide +kernel
    rw [hlines] at hns hname
    -- either block lists them
    have hnodes : ns = ["n1".toList, "n2".toList] := by
      by_cases h0 : 20200101000000 = t <;> by_cases h1 : 20200101000100 = t <;>
        simp_all [Line.readAt, Line.leading]
    rw [show Line.nodes _ = ns from hnodes.symm ▸ by decide +kernel, hk] at hname
    exact Option.some.inj hname
  · have hok : (readPowers clock (toComplex (fun _ => 1) fun _ => 0) evenDumps).toOption.isSome := by decide +kernel
    obtain ⟨s, hs⟩ := Option.isSome_iff_exists.1 hok
    rw [toOption_eq_some] at hs
    refine ⟨s, hs, ((dumps_aligned_iff clock complexText (toComplex (fun _ => 1) fun _ => 0)).2 _ s hs).2 fun t => ?_⟩
    by_cases ht : 20200101000000 = t
    · subst ht
      decide +kernel
    · have hrows : ∀ r ∈ dumpRows evenDumps,
          (r.2.headD []).head? = some '#' ∨ clock (r.2.headD []) = some 20200101000000 := by decide +kernel
      have hnone : readings clock (toComplex (fun _ => 1) fun _ => 0) t evenDumps = [] := by
        refine List.filterMap_eq_nil_iff.2 fun r hr => if_neg fun hread => ?_
        rcases hrows r hr with hmark | hclock
        · exact hread.1 hmark
        · exact ht (Option.some.inj (hclock.symm.trans hread.2.1))
      rw [hnone]
      trivial

end Grip.Outputs
