/-
The first half of `voltdump.py`: `voltages.csv` out of `volt_dump.csv`, whose blocks each have a time and a
row for each node. The columns are named in the order in which nodes first occur, and a block's values are
written in the order of its rows, so they stand under their own columns exactly when every block lists the
nodes in that order. The assertion that is to check this compares the list of columns with itself.
-/
import GripAbsorption.Base.Table
import GripAbsorption.Outputs.EventLog

namespace Grip.Outputs

open Grip.Base

/-! ## The reader -/

inductive Phase
  | A
  | B
  | C
  deriving DecidableEq, Repr

/-- `node+"_A"`. -/
def column (node : Text) : Phase → Text
  | .A => node ++ "_A".toList
  | .B => node ++ "_B".toList
  | .C => node ++ "_C".toList

def phases : List Phase := [.A, .B, .C]

inductive DumpErr
  /-- a blank line -/
  | indexError
  /-- `header` before any comment -/
  | nameError
  /-- a time that `strptime` does not read -/
  | valueError
  | assertionError
  deriving DecidableEq, Repr

/-- A value with the time, node and phase it was read for. -/
structure Entry (τ V : Type) where
  time : τ
  node : Text
  phase : Phase
  value : V

/-- The variables of the script. -/
structure VoltState (τ V : Type) where
  data : Dict τ (List (Entry τ V))
  nodes : List Text
  /-- `lastnodes` is the list `nodes` itself, not `[]` -/
  aliased : Bool
  timestamp : Option τ
  header : Option Row

def voltHeader : Row :=
  ["node_name", "voltA_real", "voltA_imag", "voltB_real", "voltB_imag", "voltC_real", "voltC_imag"].map String.toList

/-- `s.find(pattern)`. -/
def find (pattern s : Text) : Option ℕ := s.tails.findIdx? fun t => pattern <+: t

section

variable {τ V : Type} [DecidableEq τ] (strptime : Text → Option τ) (complexOf : Text → Text → Option V)

/-- The time a comment announces; `none` if it announces none, and then an error if the time cannot be read. -/
def announced (cell : Text) : Option (Option τ) :=
  match find " at ".toList cell with
  | some tpos => if 0 < tpos then some (strptime ((cell.drop (tpos + 4)).take 23)) else none
  | none => none

/-- `complex(float(row[1]),float(row[2]))` and the other two phases; without all six numbers the row is ignored. -/
def readPhases (row : Row) : Option (Phase → V) := do
  let a ← complexOf (← row[1]?) (← row[2]?)
  let b ← complexOf (← row[3]?) (← row[4]?)
  let c ← complexOf (← row[5]?) (← row[6]?)
  return fun
    | .A => a
    | .B => b
    | .C => c

namespace VoltState

def init : VoltState τ V := ⟨Dict.empty, ["Timestamp".toList], false, none, none⟩

def lastnodes (s : VoltState τ V) : List Text := if s.aliased then s.nodes else []

/-- A row that starts with `#`. -/
def comment (s : VoltState τ V) (cell : Text) : Except DumpErr (VoltState τ V) :=
  match announced strptime cell with
  | none => return { s with header := some [] }
  | some time => do
    let t ← orRaise .valueError time
    return { s with timestamp := some t, data := s.data.put t [], header := some [] }

/-- The row after it, with the assertions on the header and on the nodes. -/
def heading (s : VoltState τ V) (row : Row) : Except DumpErr (VoltState τ V) :=
  if row ≠ voltHeader then .error .assertionError
  else if s.lastnodes ≠ [] then
    if s.lastnodes = s.nodes then .ok { s with header := some row } else .error .assertionError
  else .ok { s with header := some row, aliased := s.nodes ≠ [] }

/-- `nodes.extend` for a node without columns. -/
def addNode (nodes : List Text) (node : Text) : List Text :=
  if nodes.contains (column node .A) then nodes else nodes ++ phases.map (column node)

/-- `data[timestamp].extend([A,B,C])`; there is no such key before the first time. -/
def extended (s : VoltState τ V) (node : Text) (value : Phase → V) : Dict τ (List (Entry τ V)) :=
  match s.timestamp with
  | none => s.data
  | some t =>
    match s.data.get? t with
    | none => s.data
    | some values => s.data.put t (values ++ phases.map fun p => ⟨t, node, p, value p⟩)

/-- Any other row; its columns stay if its values have no key to go to. -/
def record (s : VoltState τ V) (node : Text) (row : Row) : VoltState τ V :=
  match readPhases complexOf row with
  | none => s
  | some value => { s with nodes := addNode s.nodes node, data := s.extended node value }

def step (s : VoltState τ V) : Row → Except DumpErr (VoltState τ V)
  | [] => throw .indexError
  | cell :: cells =>
    if cell.head? = some '#' then s.comment strptime cell
    else
      match s.header with
      | none => throw .nameError
      | some [] => s.heading (cell :: cells)
      | some (_ :: _) => return s.record complexOf cell (cell :: cells)

end VoltState

/-- The reader's state after all rows of `volt_dump.csv`. -/
def readVolts (rows : List Row) : Except DumpErr (VoltState τ V) :=
  rows.foldlM (VoltState.step strptime complexOf) .init

/-! ## The dump as lines -/

/-- What a row is to the columns and the values: it starts a block, or is read for a node. -/
inductive Line (τ : Type)
  | block (t : τ)
  | reading (node : Text)
  deriving DecidableEq

/-- Whether a row is behind a header once it was read: any but a comment is. -/
def isHeaded (row : Row) : Bool := (row.headD []).head? ≠ some '#'

/-- A row, behind a header or not, as a line. -/
def lineOf (headed : Bool) (row : Row) : Option (Line τ) :=
  if isHeaded row then
    if headed then (readPhases complexOf row).map fun _ => .reading (row.headD []) else none
  else (announced strptime (row.headD [])).join.map Line.block

def lines : Bool → List Row → List (Line τ)
  | _, [] => []
  | headed, row :: rows => (lineOf strptime complexOf headed row).toList ++ lines (isHeaded row) rows

end

namespace Line

variable {τ : Type} [DecidableEq τ]

/-- The nodes read before the next block. -/
def leading : List (Line τ) → List Text
  | .reading node :: ls => node :: leading ls
  | _ => []

/-- All nodes read, in order. -/
def read : List (Line τ) → List Text
  | [] => []
  | .reading node :: ls => node :: read ls
  | .block _ :: ls => read ls

/-- The nodes of the dump, in the order they first occur. -/
def nodes (ls : List (Line τ)) : List Text := (read ls).eraseDups

/-- The nodes read in the last block of a time, if it has one. -/
def readAt (t : τ) : List (Line τ) → Option (List Text)
  | [] => none
  | .reading _ :: ls => readAt t ls
  | .block t' :: ls => (readAt t ls).or (if t' = t then some (leading ls) else none)

/-- The `k`-th reading of every time is for the `k`-th node. -/
def InOrder (ls : List (Line τ)) : Prop :=
  ∀ (t : τ) (ns : List Text), readAt t ls = some ns → ∀ (k : ℕ) (node name : Text), ns[k]? = some node →
    (nodes ls)[k]? = some name → node = name

end Line

/-! ## What is written -/

section

variable {τ V : Type}

namespace VoltState

variable [LinearOrder τ]

/-- The rows of `voltages.csv` below the header `nodes`, by time; the values are printed in polar form. -/
def written (s : VoltState τ V) : List (τ × List (Entry τ V)) := s.data.rows.insertionSort fun a b => a.1 ≤ b.1

/-- Every value written under a column was read at the row's time, for the node and phase of the column. -/
def Aligned (s : VoltState τ V) : Prop :=
  ∀ row ∈ s.written, ∀ (p : ℕ) (e : Entry τ V) (name : Text), row.2[p]? = some e → s.nodes[p + 1]? = some name →
    e.time = row.1 ∧ name = column e.node e.phase

end VoltState

/-! ## One row -/

/-- What a value was read for. -/
def Entry.origin (e : Entry τ V) : τ × Text × Phase := (e.time, e.node, e.phase)

/-- What the values of a block are read for, in their order. -/
def places (t : τ) (ns : List Text) : List (τ × Text × Phase) := ns.flatMap fun node => phases.map fun p => (t, node, p)

variable [DecidableEq τ] {strptime : Text → Option τ} {complexOf : Text → Text → Option V}

namespace VoltState

/-- Whether a header was read since the last comment. -/
def headed (s : VoltState τ V) : Bool := s.header.getD [] ≠ []

/-- What a line does to the state. -/
def Does (s s' : VoltState τ V) : Option (Line τ) → Prop
  | none => s'.nodes = s.nodes ∧ s'.timestamp = s.timestamp ∧ s'.data = s.data
  | some (.block t) => s'.nodes = s.nodes ∧ s'.timestamp = some t ∧ s'.data = s.data.put t []
  | some (.reading node) => s'.nodes = addNode s.nodes node ∧ s'.timestamp = s.timestamp ∧
    ∃ value, s'.data = s.extended node value

theorem does_comment {s s' : VoltState τ V} {cell : Text} (h : s.comment strptime cell = .ok s') :
    s'.header = some [] ∧ Does s s' ((announced strptime cell).join.map Line.block) := by
  unfold comment at h
  cases ha : announced strptime cell with
  | none =>
    rw [ha] at h
    cases h
    exact ⟨rfl, rfl, rfl, rfl⟩
  | some time =>
    rw [ha] at h
    obtain ⟨t, ht, h⟩ := bind_ok.1 h
    rw [orRaise_eq_ok] at ht
    cases h
    rw [ht]
    exact ⟨rfl, rfl, rfl, rfl⟩

/-- The assertions that a heading passes change nothing. -/
theorem does_heading {s s' : VoltState τ V} {row : Row} (h : s.heading row = .ok s') :
    s'.header = some row ∧ Does s s' none := by
  unfold heading at h
  split at h
  · cases h
  · split at h
    · split at h
      · cases h
        exact ⟨rfl, rfl, rfl, rfl⟩
      · cases h
    · cases h
      exact ⟨rfl, rfl, rfl, rfl⟩

variable (complexOf) in
theorem does_record (s : VoltState τ V) (node : Text) (row : Row) :
    (s.record complexOf node row).header = s.header ∧
      Does s (s.record complexOf node row) ((readPhases complexOf row).map fun _ => .reading node) := by
  unfold record
  cases readPhases complexOf row with
  | none => exact ⟨rfl, rfl, rfl, rfl⟩
  | some value => exact ⟨rfl, rfl, rfl, value, rfl⟩

/-- A row that does not stop the reader does what its line says. -/
theorem does_step {s s' : VoltState τ V} {row : Row} (h : s.step strptime complexOf row = .ok s') :
    s'.headed = isHeaded row ∧ Does s s' (lineOf strptime complexOf s.headed row) := by
  cases row with
  | nil => cases h
  | cons cell cells =>
    rw [step] at h
    by_cases hc : cell.head? = some '#'
    · have hrow : isHeaded (cell :: cells) = false := by simp [isHeaded, hc]
      rw [if_pos hc] at h
      obtain ⟨hheader, hdoes⟩ := does_comment h
      rw [lineOf, hrow]
      exact ⟨by simp [headed, hheader], hdoes⟩
    · have hrow : isHeaded (cell :: cells) = true := by simp [isHeaded, hc]
      rw [if_neg hc] at h
      cases hh : s.header with
      | none =>
        rw [hh] at h
        cases h
      | some header =>
        rw [hh] at h
        cases header with
        | nil =>
          obtain ⟨hheader, hdoes⟩ := does_heading h
          have hs : s.headed = false := by simp [headed, hh]
          rw [lineOf, hrow, hs]
          exact ⟨by simp [headed, hheader], hdoes⟩
        | cons name names =>
          cases h
          obtain ⟨hheader, hdoes⟩ := does_record complexOf s cell (cell :: cells)
          have hs : s.headed = true := by simp [headed, hh]
          rw [lineOf, hrow, hs]
          exact ⟨by simp [headed, hheader, hh], hdoes⟩

/-! ## All rows -/

/-- The current time is a key. -/
def Keyed (s : VoltState τ V) : Prop := ∀ t, s.timestamp = some t → ∃ values, s.data.get? t = some values

/-- What the values under a time were read for. -/
def originsAt (s : VoltState τ V) (t : τ) : Option (List (τ × Text × Phase)) := (s.data.get? t).map (List.map Entry.origin)

/-- What they are read for after further lines. -/
def originsAfter (s : VoltState τ V) (ls : List (Line τ)) (t : τ) : Option (List (τ × Text × Phase)) :=
  match Line.readAt t ls with
  | some ns => some (places t ns)
  | none => (s.originsAt t).map (· ++ if s.timestamp = some t then places t (Line.leading ls) else [])

theorem originsAfter_nil (s : VoltState τ V) (t : τ) : s.originsAfter [] t = s.originsAt t := by
  simp [originsAfter, Line.readAt, Line.leading, places]

/-- A block starts a time anew. -/
theorem does_block {s s' : VoltState τ V} {t : τ} (h : Does s s' (some (.block t))) (ls : List (Line τ)) :
    s'.Keyed ∧ ∀ t', s'.originsAfter ls t' = s.originsAfter (.block t :: ls) t' := by
  obtain ⟨-, htime, hdata⟩ := h
  refine ⟨fun t' ht' => ⟨[], ?_⟩, fun t' => ?_⟩
  · rw [htime] at ht'
    cases ht'
    rw [hdata, Dict.get?_put, if_pos rfl]
  · unfold originsAfter originsAt
    rw [Line.readAt, htime, hdata, Dict.get?_put]
    cases Line.readAt t' ls with
    | some ns => rfl
    | none =>
      by_cases ht : t = t'
      · subst ht
        simp
      · simp [ht, Line.leading, places]

/-- A reading goes to the end of the current block. -/
theorem does_reading {s s' : VoltState τ V} {node : Text} (hk : s.Keyed) (h : Does s s' (some (.reading node)))
    (ls : List (Line τ)) : s'.Keyed ∧ ∀ t', s'.originsAfter ls t' = s.originsAfter (.reading node :: ls) t' := by
  obtain ⟨-, htime, value, hdata⟩ := h
  unfold extended at hdata
  cases ht : s.timestamp with
  | none =>
    rw [ht] at hdata htime
    refine ⟨fun t' ht' => ?_, fun t' => ?_⟩
    · rw [htime] at ht'
      cases ht'
    · unfold originsAfter originsAt
      rw [Line.readAt, htime, hdata, ht]
      simp
  | some t =>
    obtain ⟨values, hv⟩ := hk t ht
    rw [ht] at hdata htime
    simp only [hv] at hdata
    refine ⟨fun t' ht' => ?_, fun t' => ?_⟩
    · rw [htime] at ht'
      cases ht'
      exact ⟨_, by rw [hdata, Dict.get?_put, if_pos rfl]⟩
    · unfold originsAfter originsAt
      rw [Line.readAt, htime, hdata, Dict.get?_put, ht]
      cases Line.readAt t' ls with
      | some ns => rfl
      | none =>
        by_cases htt : t = t'
        · subst htt
          simp [hv, Line.leading, places, Entry.origin, phases]
        · simp [htt]

/-- A run ends with the columns and the values that its lines make. -/
theorem run_spec : ∀ {rows : List Row} {s s' : VoltState τ V}, s.Keyed →
    rows.foldlM (step strptime complexOf) s = .ok s' →
    s'.nodes = (Line.read (lines strptime complexOf s.headed rows)).foldl addNode s.nodes ∧
      ∀ t, s'.originsAt t = s.originsAfter (lines strptime complexOf s.headed rows) t
  | [], s, s', _, h => by
    cases h
    exact ⟨rfl, fun t => (originsAfter_nil s t).symm⟩
  | row :: rows, s, s', hk, h => by
    rw [List.foldlM_cons] at h
    obtain ⟨s1, h1, h⟩ := bind_ok.1 h
    obtain ⟨hheaded, hdoes⟩ := does_step h1
    rw [lines]
    rw [← hheaded]
    cases hl : lineOf strptime complexOf s.headed row with
    | none =>
      rw [hl] at hdoes
      obtain ⟨hn, ht, hd⟩ := hdoes
      have hk1 : s1.Keyed := by
        intro t hts
        rw [ht] at hts
        rw [hd]
        exact hk t hts
      obtain ⟨hnodes, horigins⟩ := run_spec hk1 h
      rw [hn] at hnodes
      refine ⟨hnodes, fun t => (horigins t).trans ?_⟩
      simp only [originsAfter, originsAt, ht, hd, Option.toList_none, List.nil_append]
    | some line =>
      rw [hl] at hdoes
      cases line with
      | block t =>
        obtain ⟨hk1, hafter⟩ := does_block hdoes (lines strptime complexOf s1.headed rows)
        obtain ⟨hnodes, horigins⟩ := run_spec hk1 h
        rw [hdoes.1] at hnodes
        exact ⟨hnodes, fun t => (horigins t).trans (hafter t)⟩
      | reading node =>
        obtain ⟨hk1, hafter⟩ := does_reading hk hdoes (lines strptime complexOf s1.headed rows)
        obtain ⟨hnodes, horigins⟩ := run_spec hk1 h
        rw [hdoes.1] at hnodes
        exact ⟨hnodes, fun t => (horigins t).trans (hafter t)⟩

end VoltState

end

/-! ## Columns -/

/-- The letter of a phase. -/
def Phase.letter : Phase → Char
  | .A => 'A'
  | .B => 'B'
  | .C => 'C'

theorem column_eq (node : Text) (p : Phase) : column node p = node ++ ['_', p.letter] := by
  cases p <;> rfl

theorem column_inj {n m : Text} {p q : Phase} : column n p = column m q ↔ n = m ∧ p = q := by
  constructor
  · intro h
    rw [column_eq, column_eq] at h
    obtain ⟨rfl, hs⟩ := List.append_inj' h rfl
    refine ⟨rfl, ?_⟩
    cases p <;> cases q <;> first | rfl | exact absurd hs (by decide)
  · rintro ⟨rfl, rfl⟩
    rfl

/-- The names of a dump's columns. -/
def columnsOf (nodes : List Text) : List Text := "Timestamp".toList :: nodes.flatMap fun node => phases.map (column node)

theorem column_mem_columnsOf {node : Text} {nodes : List Text} : column node .A ∈ columnsOf nodes ↔ node ∈ nodes := by
  have hstamp : column node .A ≠ "Timestamp".toList := by
    intro h
    have hlast := congrArg List.getLast? h
    simp [column] at hlast
  unfold columnsOf
  rw [List.mem_cons, List.mem_flatMap]
  constructor
  · rintro (h | ⟨n, hn, h⟩)
    · exact absurd h hstamp
    · obtain ⟨p, -, hp⟩ := List.mem_map.1 h
      rwa [(column_inj.1 hp).1] at hn
  · exact fun h => .inr ⟨node, h, List.mem_map_of_mem (by decide)⟩

/-- The columns are those of the nodes in the order they first occur. -/
theorem foldl_addNode (ns : List Text) : ns.foldl VoltState.addNode ["Timestamp".toList] = columnsOf ns.eraseDups := by
  induction ns using List.reverseRecOn with
  | nil => rfl
  | append_singleton ns node ih =>
    have hmem : column node .A ∈ columnsOf ns.eraseDups ↔ node ∈ ns := column_mem_columnsOf.trans List.mem_eraseDups
    rw [List.foldl_append, ih, List.foldl_cons, List.foldl_nil, VoltState.addNode, List.eraseDups_append]
    by_cases h : node ∈ ns
    · rw [if_pos (List.contains_iff_mem.2 (hmem.2 h))]
      simp [List.removeAll, h]
    · rw [if_neg fun hc => h (hmem.1 (List.contains_iff_mem.1 hc))]
      simp [List.removeAll, h, columnsOf, List.eraseDups_cons]

/-- Three entries for each node, one a phase. -/
theorem getElem?_flatMap_phases {α β : Type} (f : α → Phase → β) : ∀ (l : List α) (k : ℕ) {j : ℕ}, j < 3 →
    (l.flatMap fun a => phases.map (f a))[3 * k + j]? = l[k]?.bind fun a => phases[j]?.map (f a)
  | [], _, _, _ => by simp
  | a :: l, 0, j, hj => by
    rw [List.flatMap_cons, mul_zero, zero_add, List.getElem?_append_left (by simpa [phases] using hj), List.getElem?_map]
    rfl
  | a :: l, k + 1, j, hj => by
    have hlen : (phases.map (f a)).length = 3 := rfl
    rw [List.flatMap_cons, List.getElem?_append_right (by omega), hlen, show 3 * (k + 1) + j - 3 = 3 * k + j by omega,
      getElem?_flatMap_phases f l k hj]
    rfl

theorem getElem?_columnsOf (nodes : List Text) (k : ℕ) {j : ℕ} (hj : j < 3) :
    (columnsOf nodes)[3 * k + j + 1]? = nodes[k]?.bind fun node => phases[j]?.map (column node) := by
  rw [columnsOf, List.getElem?_cons_succ, getElem?_flatMap_phases column nodes k hj]

theorem getElem?_places {τ : Type} (t : τ) (ns : List Text) (k : ℕ) {j : ℕ} (hj : j < 3) :
    (places t ns)[3 * k + j]? = ns[k]?.bind fun node => phases[j]?.map fun p => (t, node, p) :=
  getElem?_flatMap_phases (fun node p => (t, node, p)) ns k hj

/-! ## When the values stand under their columns -/

section

variable {τ V : Type} [LinearOrder τ] {strptime : Text → Option τ} {complexOf : Text → Text → Option V}

/-- A dump that is read gives the columns of its nodes, and under each time the values of its last block. -/
theorem readVolts_spec {rows : List Row} {s : VoltState τ V} (h : readVolts strptime complexOf rows = .ok s) :
    s.nodes = columnsOf (Line.nodes (lines strptime complexOf false rows)) ∧
      ∀ t, s.originsAt t = (Line.readAt t (lines strptime complexOf false rows)).map (places t) := by
  have hkeyed : (VoltState.init : VoltState τ V).Keyed := by
    intro t ht
    cases ht
  obtain ⟨hnodes, horigins⟩ := VoltState.run_spec hkeyed h
  refine ⟨hnodes.trans (foldl_addNode _), fun t => (horigins t).trans ?_⟩
  have hempty : (VoltState.init : VoltState τ V).originsAt t = none := rfl
  unfold VoltState.originsAfter
  rw [hempty]
  change (match Line.readAt t (lines strptime complexOf false rows) with
    | some ns => some (places t ns)
    | none => none) = _
  cases Line.readAt t (lines strptime complexOf false rows) <;> rfl

theorem mem_written {s : VoltState τ V} {row : τ × List (Entry τ V)} : row ∈ s.written ↔ s.data.get? row.1 = some row.2 := by
  unfold VoltState.written
  rw [List.mem_insertionSort, Dict.get?_eq_some]

theorem readVolts_aligned_iff {rows : List Row} {s : VoltState τ V} (h : readVolts strptime complexOf rows = .ok s) :
    s.Aligned ↔ Line.InOrder (lines strptime complexOf false rows) := by
  obtain ⟨hnodes, horigins⟩ := readVolts_spec h
  constructor
  · intro hal t ns hr k node name hk hname
    have ho := horigins t
    rw [hr] at ho
    obtain ⟨es, hes, heq⟩ := Option.map_eq_some_iff.1 ho
    -- the value for phase A in the block's `k`-th row
    have hp := getElem?_places t ns k (show 0 < 3 by omega)
    rw [hk, ← heq, List.getElem?_map] at hp
    obtain ⟨e, he, heo⟩ := Option.map_eq_some_iff.1 hp
    have hc := getElem?_columnsOf (Line.nodes (lines strptime complexOf false rows)) k (show 0 < 3 by omega)
    rw [hname, ← hnodes] at hc
    obtain ⟨-, hcol⟩ := hal (t, es) (mem_written.2 hes) _ e _ he hc
    have hnode : e.node = node := congrArg (fun o => o.2.1) heo
    rw [← hnode]
    exact (column_inj.1 hcol).1.symm
  · intro hord row hrow p e name he hname
    have ho := horigins row.1
    rw [VoltState.originsAt, mem_written.1 hrow] at ho
    obtain ⟨ns, hr, heq⟩ := Option.map_eq_some_iff.1 ho.symm
    have hj : p % 3 < 3 := Nat.mod_lt _ (by omega)
    have hpp : 3 * (p / 3) + p % 3 = p := Nat.div_add_mod p 3
    have hp := getElem?_places row.1 ns (p / 3) hj
    rw [hpp, heq, List.getElem?_map, he] at hp
    obtain ⟨node, hk, hp⟩ := Option.bind_eq_some_iff.1 hp.symm
    obtain ⟨ph, hph, hp⟩ := Option.map_eq_some_iff.1 hp
    have hc := getElem?_columnsOf (Line.nodes (lines strptime complexOf false rows)) (p / 3) hj
    rw [hpp, ← hnodes, hname] at hc
    obtain ⟨node', hk', hc⟩ := Option.bind_eq_some_iff.1 hc.symm
    rw [hph] at hc
    cases hc
    obtain rfl : node = node' := hord row.1 ns hr _ node node' hk hk'
    obtain ⟨htime, hnode, hphase⟩ : row.1 = e.time ∧ node = e.node ∧ ph = e.phase := by
      simpa [Entry.origin] using hp
    exact ⟨htime.symm, by rw [hnode, hphase]⟩

end

end Grip.Outputs
