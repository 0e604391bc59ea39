/-
`log_gen` of `data_post_process.py`: the event log `log.csv` out of the recorder's `log_rec.csv`. A row is
compared with the row before it; a value counts as changed when it is not a part of the earlier value, and
is logged when its column is a status or a fault type. Both files are read and written row by row; the rows
are what the `csv` reader yields and what its writer is given.
-/
import GripAbsorption.Base.Text
import GripAbsorption.Base.Run

namespace Grip.Outputs

open Grip.Base

/-- A row of a CSV file. -/
abbrev Row := List Text

/-! ## The loop -/

def timestampMark : Text := "# timestamp".toList

def logHeader : Row := ["timestamp".toList, "type".toList, "name".toList, "value".toList]

/-- The type under which a change of the property is logged. -/
def logType (name : Text) : Option Text :=
  if "status".toList <:+: name then some "EVENT".toList
  else if "fault_type".toList <:+: name then some "FAULT".toList
  else none

/-- The variables of the loop. -/
structure LogState where
  propertyType : Row
  logEntry : List Row
  prevRow : Row

/-- One item of a row with its index. An index out of range raises; what is logged so far stays. -/
def compareItem (propertyType prevRow : Row) (timestamp : Text) (log : List Row) (p : Text × ℕ) :
    Except (List Row) (List Row) := do
  let prev ← orRaise log prevRow[p.2]?
  if p.1 <:+: prev then pure log
  else
    let name ← orRaise log propertyType[p.2]?
    pure (log ++ ((logType name).map fun type => [timestamp, type, name, p.1]).toList)

/-- One row. A blank line has no first field. -/
def LogState.record (s : LogState) (row : Row) : Except (List Row) LogState :=
  match row with
  | [] => .error s.logEntry
  | timestamp :: _ =>
    if '#' ∈ timestamp ∧ ¬ timestampMark <:+: timestamp then .ok s
    else if timestampMark <:+: timestamp then .ok { s with propertyType := row }
    else if s.prevRow = [] then .ok { s with prevRow := row }
    else do
      let log ← row.zipIdx.foldlM (compareItem s.propertyType s.prevRow timestamp) s.logEntry
      pure { s with logEntry := log, prevRow := row }

/-- The entries logged: after an exception those up to it. -/
def logEntries (rows : List Row) : List Row :=
  match rows.foldlM LogState.record ⟨[], [], []⟩ with
  | .ok s => s.logEntry
  | .error log => log

/-- `log_gen`: `log.csv` from `log_rec.csv`, if it can be opened. -/
def logGen (file : Option (List Row)) : List Row := logHeader :: (file.map logEntries).getD []

/-! ## Rows and cells -/

/-- A line of the recorder's preamble. -/
def IsComment (row : Row) : Prop := ∃ timestamp ∈ row.head?, '#' ∈ timestamp ∧ ¬ timestampMark <:+: timestamp

def IsHeader (row : Row) : Prop := ∃ timestamp ∈ row.head?, timestampMark <:+: timestamp

def IsData (row : Row) : Prop := ∃ timestamp ∈ row.head?, '#' ∉ timestamp

instance : DecidablePred IsComment := fun row =>
  inferInstanceAs (Decidable (∃ timestamp ∈ row.head?, '#' ∈ timestamp ∧ ¬ timestampMark <:+: timestamp))

instance : DecidablePred IsHeader := fun row =>
  inferInstanceAs (Decidable (∃ timestamp ∈ row.head?, timestampMark <:+: timestamp))

instance : DecidablePred IsData := fun row => inferInstanceAs (Decidable (∃ timestamp ∈ row.head?, '#' ∉ timestamp))

/-- A column's values in two consecutive data rows, with the later row's timestamp. -/
structure Cell where
  timestamp : Text
  name : Text
  earlier : Text
  later : Text
  deriving DecidableEq

/-- The columns of two rows. -/
def rowCells (timestamp : Text) (header earlier later : Row) : List Cell :=
  (header.zip (earlier.zip later)).map fun p => ⟨timestamp, p.1, p.2.1, p.2.2⟩

/-- The cells of consecutive rows, in row and column order. -/
def cells (header : Row) (data : List Row) : List Cell :=
  (data.zip data.tail).flatMap fun p => rowCells (p.2.headD []) header p.1 p.2

namespace Cell

/-- The cell's column is one the log is about. -/
def Tracked (c : Cell) : Prop := "status".toList <:+: c.name ∨ "fault_type".toList <:+: c.name

/-- A tracked cell's entry. -/
def entry (c : Cell) : Option Row := (logType c.name).map fun type => [c.timestamp, type, c.name, c.later]

/-- The entry as the loop makes it. -/
def logged (c : Cell) : Option Row := if c.later <:+: c.earlier then none else c.entry

/-- An entry for every change. -/
def change (c : Cell) : Option Row := if c.later ≠ c.earlier then c.entry else none

instance (c : Cell) : Decidable c.Tracked := inferInstanceAs (Decidable (_ ∨ _))

end Cell

/-- One entry per change of a tracked column. -/
def changes (header : Row) (data : List Row) : List Row := (cells header data).filterMap Cell.change

/-! ## What a row adds -/

variable {header earlier row : Row} {timestamp : Text} {n : ℕ}

theorem compareItem_eq {prev name item : Text} {i : ℕ} {log : List Row} (hprev : earlier[i]? = some prev)
    (hname : header[i]? = some name) : compareItem header earlier timestamp log (item, i) =
      .ok (log ++ (Cell.logged ⟨timestamp, name, prev, item⟩).toList) := by
  unfold compareItem Cell.logged Cell.entry
  simp only [hprev, hname, orRaise]
  by_cases hp : item <:+: prev
  · simp [hp, bind, Except.bind, pure, Except.pure]
  · simp [hp, bind, Except.bind, pure, Except.pure]

/-- The loop over the items, from column `k` on. -/
theorem foldlM_compareItem (header earlier : Row) (timestamp : Text) : ∀ (row : Row) (k : ℕ) (log : List Row), k + row.length ≤ header.length →
    k + row.length ≤ earlier.length → (row.zipIdx k).foldlM (compareItem header earlier timestamp) log =
      .ok (log ++ (rowCells timestamp (header.drop k) (earlier.drop k) row).filterMap Cell.logged)
  | [], k, log, _, _ => by simp [rowCells, pure, Except.pure]
  | item :: row, k, log, hh, he => by
    rw [List.length_cons] at hh he
    have hprev := List.getElem?_eq_getElem (show k < earlier.length by omega)
    have hname := List.getElem?_eq_getElem (show k < header.length by omega)
    rw [List.zipIdx_cons, List.foldlM_cons, compareItem_eq hprev hname]
    refine (foldlM_compareItem header earlier timestamp row (k + 1) _ (by omega) (by omega)).trans ?_
    rw [List.drop_eq_getElem_cons (show k < header.length by omega),
      List.drop_eq_getElem_cons (show k < earlier.length by omega), List.append_assoc]
    unfold rowCells
    rw [List.zip_cons_cons, List.zip_cons_cons, List.map_cons, List.filterMap_cons]
    cases Cell.logged ⟨timestamp, header[k], earlier[k], item⟩ <;> rfl

theorem eq_cons_of_header (h : IsHeader row) : ∃ timestamp rest, row = timestamp :: rest ∧ timestampMark <:+: timestamp := by
  obtain ⟨timestamp, hhead, h⟩ := h
  exact ⟨timestamp, row.tail, List.eq_cons_of_mem_head? hhead, h⟩

theorem eq_cons_of_data (h : IsData row) : ∃ timestamp rest, row = timestamp :: rest ∧ '#' ∉ timestamp := by
  obtain ⟨timestamp, hhead, h⟩ := h
  exact ⟨timestamp, row.tail, List.eq_cons_of_mem_head? hhead, h⟩

theorem not_mark_of_not_mem (h : '#' ∉ timestamp) : ¬ timestampMark <:+: timestamp :=
  fun hmark => h (hmark.subset (by decide))

namespace LogState

variable {s : LogState}

/-- Comment lines change nothing. -/
theorem record_comment (h : IsComment row) : s.record row = .ok s := by
  obtain ⟨timestamp, hhead, h⟩ := h
  rw [List.eq_cons_of_mem_head? hhead, record, if_pos h]

theorem record_header (h : IsHeader row) : s.record row = .ok { s with propertyType := row } := by
  obtain ⟨timestamp, rest, rfl, hmark⟩ := eq_cons_of_header h
  rw [record, if_neg fun hc => hc.2 hmark, if_pos hmark]

theorem record_first (h : IsData row) (hprev : s.prevRow = []) : s.record row = .ok { s with prevRow := row } := by
  obtain ⟨timestamp, rest, rfl, hmark⟩ := eq_cons_of_data h
  rw [record, if_neg fun hc => hmark hc.1, if_neg (not_mark_of_not_mem hmark), if_pos hprev]

/-- A data row after another logs the cells of both. -/
theorem record_next (h : IsData row) (hprev : s.prevRow ≠ []) (hh : row.length ≤ s.propertyType.length)
    (he : row.length ≤ s.prevRow.length) : s.record row = .ok { s with
      logEntry := s.logEntry ++ (rowCells (row.headD []) s.propertyType s.prevRow row).filterMap Cell.logged
      prevRow := row } := by
  obtain ⟨timestamp, rest, rfl, hmark⟩ := eq_cons_of_data h
  have hloop := foldlM_compareItem s.propertyType s.prevRow timestamp (timestamp :: rest) 0 s.logEntry (by omega) (by omega)
  rw [record, if_neg fun hc => hmark hc.1, if_neg (not_mark_of_not_mem hmark), if_neg hprev, hloop]
  rfl

/-- The data rows after a first one. -/
theorem run_data : ∀ {data : List Row} {s : LogState}, IsData s.prevRow → s.prevRow.length = n →
    (∀ row ∈ data, IsData row ∧ row.length = n) → n ≤ s.propertyType.length →
      ∃ s', data.foldlM record s = .ok s' ∧
        s'.logEntry = s.logEntry ++ (cells s.propertyType (s.prevRow :: data)).filterMap Cell.logged
  | [], s, _, _, _, _ => ⟨s, rfl, by simp [cells]⟩
  | row :: data, s, hprev, hlen, hdata, hn => by
    obtain ⟨⟨hrow, hlen'⟩, hrest⟩ := List.forall_mem_cons.1 hdata
    have hne : s.prevRow ≠ [] := by
      obtain ⟨timestamp, rest, he, -⟩ := eq_cons_of_data hprev
      rw [he]; exact List.cons_ne_nil _ _
    rw [List.foldlM_cons, record_next hrow hne (by omega) (by omega)]
    obtain ⟨s', hs', hlog⟩ := run_data (s := { s with
      logEntry := s.logEntry ++ (rowCells (row.headD []) s.propertyType s.prevRow row).filterMap Cell.logged
      prevRow := row }) hrow hlen' hrest hn
    refine ⟨s', hs', hlog.trans ?_⟩
    simp only [cells, List.tail_cons, List.zip_cons_cons, List.flatMap_cons, List.filterMap_append, List.append_assoc]

end LogState

/-! ## The log -/

theorem foldlM_filter_comments (rows : List Row) (s : LogState) :
    (rows.filter fun row => ¬ IsComment row).foldlM LogState.record s = rows.foldlM LogState.record s := by
  rw [List.foldlM_filter]
  congr 1
  funext s row
  by_cases h : IsComment row
  · simp [h, LogState.record_comment h, pure, Except.pure]
  · simp [h]

theorem logEntries_of_run {rows : List Row} {s : LogState} (h : rows.foldlM LogState.record ⟨[], [], []⟩ = .ok s) :
    logEntries rows = s.logEntry := by
  unfold logEntries
  rw [h]

/-- What the file logs: the cells of consecutive data rows whose later value is no part of the earlier one. -/
theorem logEntries_eq {rows data : List Row} (hfile : rows.filter (fun row => ¬ IsComment row) = header :: data)
    (hheader : IsHeader header) (hdata : ∀ row ∈ data, IsData row ∧ row.length = n) (hn : n ≤ header.length) :
    logEntries rows = (cells header data).filterMap Cell.logged := by
  have hrun : ∃ s, data.foldlM LogState.record ⟨header, [], []⟩ = .ok s ∧
      s.logEntry = (cells header data).filterMap Cell.logged := by
    cases data with
    | nil => exact ⟨⟨header, [], []⟩, rfl, rfl⟩
    | cons row data =>
      obtain ⟨⟨hrow, hlen⟩, hrest⟩ := List.forall_mem_cons.1 hdata
      rw [List.foldlM_cons, LogState.record_first hrow rfl]
      exact LogState.run_data (s := ⟨header, [], row⟩) hrow hlen hrest hn
  obtain ⟨s, hs, hlog⟩ := hrun
  refine (logEntries_of_run (s := s) ?_).trans hlog
  rw [← foldlM_filter_comments, hfile, List.foldlM_cons, LogState.record_header hheader]
  exact hs

namespace Cell

theorem entry_eq_none {c : Cell} : c.entry = none ↔ ¬ c.Tracked := by
  unfold entry logType Tracked
  by_cases hs : "status".toList <:+: c.name
  · rw [if_pos hs]; exact iff_of_false (by simp) fun h => h (.inl hs)
  · rw [if_neg hs]
    by_cases hf : "fault_type".toList <:+: c.name
    · rw [if_pos hf]; exact iff_of_false (by simp) fun h => h (.inr hf)
    · rw [if_neg hf]; exact iff_of_true rfl fun h => h.elim hs hf

theorem logged_of_not_part {c : Cell} (h : ¬ c.later <:+: c.earlier) : c.logged = c.change := by
  have hne : c.later ≠ c.earlier := fun heq => h (heq ▸ List.infix_rfl)
  rw [logged, if_neg h, change, if_pos hne]

/-- The loop leaves entries out and invents none. -/
theorem logged_none_or (c : Cell) : c.logged = none ∨ c.logged = c.change := by
  by_cases hpart : c.later <:+: c.earlier
  · exact .inl (if_pos hpart)
  · exact .inr (logged_of_not_part hpart)

theorem logged_eq_change_iff {c : Cell} :
    c.logged = c.change ↔ (c.Tracked → c.later <:+: c.earlier → c.later = c.earlier) := by
  by_cases hpart : c.later <:+: c.earlier
  · have hlogged : c.logged = none := if_pos hpart
    by_cases heq : c.later = c.earlier
    · have hchange : c.change = none := if_neg (not_not_intro heq)
      exact iff_of_true (hlogged.trans hchange.symm) fun _ _ => heq
    · have hchange : c.change = c.entry := if_pos heq
      rw [hlogged, hchange, eq_comm, entry_eq_none]
      exact ⟨fun h ht => absurd ht h, fun h ht => heq (h ht hpart)⟩
  · exact iff_of_true (logged_of_not_part hpart) fun _ h => absurd h hpart

end Cell

/-- Whatever is logged is a change, in order. -/
theorem logGen_sublist {rows data : List Row} (hfile : rows.filter (fun row => ¬ IsComment row) = header :: data)
    (hheader : IsHeader header) (hdata : ∀ row ∈ data, IsData row ∧ row.length = n) (hn : n ≤ header.length) :
    (logGen (some rows)).Sublist (logHeader :: changes header data) := by
  show (logHeader :: logEntries rows).Sublist _
  rw [logEntries_eq hfile hheader hdata hn]
  exact (filterMap_sublist_filterMap Cell.logged_none_or _).cons_cons _

/-- `log.csv` has one entry per change exactly when no tracked value is followed by another that is a part of it. -/
theorem logGen_eq_iff {rows data : List Row} (hfile : rows.filter (fun row => ¬ IsComment row) = header :: data)
    (hheader : IsHeader header) (hdata : ∀ row ∈ data, IsData row ∧ row.length = n) (hn : n ≤ header.length) :
    logGen (some rows) = logHeader :: changes header data ↔
      ∀ c ∈ cells header data, c.Tracked → c.later <:+: c.earlier → c.later = c.earlier := by
  show logHeader :: logEntries rows = _ ↔ _
  rw [List.cons_inj_right, logEntries_eq hfile hheader hdata hn, changes,
    filterMap_eq_filterMap_iff Cell.logged_none_or]
  exact forall₂_congr fun c _ => Cell.logged_eq_change_iff

/-! ## Two recordings -/

def recordedHeader : Row := ["# timestamp", "sw_101:status", "supernode_101:fault_type"].map String.toList

def recordedRows (values : List (List String)) : List Row := values.map (List.map String.toList)

/-- A switch and a supernode as the recorder writes them. -/
def recording (values : List (List String)) : List Row :=
  ["# file...... log_rec.csv".toList] :: recordedHeader :: recordedRows values

/-- A switch that opens is logged. -/
theorem opening_logged :
    logGen (some (recording [["00:00", "CLOSED", "NONE"], ["00:01", "OPEN", "NONE"]])) = logHeader ::
        changes recordedHeader (recordedRows [["00:00", "CLOSED", "NONE"], ["00:01", "OPEN", "NONE"]]) ∧
      changes recordedHeader (recordedRows [["00:00", "CLOSED", "NONE"], ["00:01", "OPEN", "NONE"]]) =
        [["00:01", "EVENT", "sw_101:status", "OPEN"].map String.toList] :=
  ⟨(logGen_eq_iff (n := 3) (by decide) (by decide) (by decide) (by decide)).2 (by decide), by decide⟩

/-- A fault of three phases that shrinks to one of them is not. -/
theorem shrinking_not_logged :
    logGen (some (recording [["00:00", "CLOSED", "SW-ABC"], ["00:01", "CLOSED", "SW-A"]])) ≠ logHeader ::
        changes recordedHeader (recordedRows [["00:00", "CLOSED", "SW-ABC"], ["00:01", "CLOSED", "SW-A"]]) ∧
      changes recordedHeader (recordedRows [["00:00", "CLOSED", "SW-ABC"], ["00:01", "CLOSED", "SW-A"]]) =
        [["00:01", "FAULT", "supernode_101:fault_type", "SW-A"].map String.toList] := by
  decide

end Grip.Outputs
