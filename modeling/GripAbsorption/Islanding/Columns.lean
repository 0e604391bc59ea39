/-
`read_VIpayload` on the text of the message. Every column is split and parsed by itself, so the columns
stay aligned because no token is lost or added: integers that fit `Int`, words and floats are read as
they were written. Writing and reading floats is left open, with what both languages say of it.
-/
import GripAbsorption.Islanding.Renumber

namespace Grip.Islanding

open Grip.Base

/-! ## Reading -/

/-- `[parse(T, ss) for ss in split(s)]`. -/
def readWith {β : Type} (parse : Text → Option β) (s : Text) : Option (List β) := (split s).mapM parse

/-- `xs .* ys`: elements at the same place, or the only element of one with each of the other. -/
def broadcast {α β γ : Type} (f : α → β → γ) : List α → List β → Option (List γ)
  | [x], ys => some (ys.map (f x))
  | xs, [y] => some (xs.map (f · y))
  | xs, ys => if xs.length = ys.length then some (List.zipWith f xs ys) else none

/-- What `read_VIpayload` returns, as arrays. -/
structure VIArrays (K : Type) where
  branch : List Text
  T : List ℤ
  F : List ℤ
  R : List K
  X : List K
  brSt : List Bool
  switchable : List Bool
  G : List ℤ
  PgMin : List K
  PgMax : List K
  geSt : List Bool
  solar : List Bool
  B : List ℤ
  PbMax : List K
  EbMax : List K
  E0 : List K
  baSt : List Bool
  D : List K
  Pd0 : List K
  faultedNodes : List ℤ

variable {K : Type} [Field K]

/-- `read_VIpayload`, with the function that parses a `Float64`. -/
def readArrays [DecidableEq K] (parseFloat : Text → Option K) (msg : Datadump) : Option (VIArrays K) := do
  let branch := split msg.branchId
  let T ← readInts msg.branchT
  let F ← readInts msg.branchF
  let R ← readWith parseFloat msg.branchR
  let X ← readWith parseFloat msg.branchX
  let brSt ← readInts msg.branchStatus
  let switchable := (split msg.branchKind).map fun ss => decide (ss = "switch".toList)
  let G ← readInts msg.genBus
  let PgMin ← readWith parseFloat msg.genPmin
  let genStatus ← readWith parseFloat msg.genStatus
  let geSt := genStatus.map fun s => decide (s = 1)
  let genPmax ← readWith parseFloat msg.genPmax
  let PgMax ← broadcast (fun x st => x * ofStatus st) genPmax geSt
  let solar ← readInts msg.genSolar
  let B ← readInts msg.batBus
  let batStatus ← readWith parseFloat msg.batStatus
  let baSt := batStatus.map fun s => decide (s = 1)
  let batPmax ← readWith parseFloat msg.batPmax
  let PbMax ← broadcast (fun x st => x * ofStatus st) batPmax baSt
  let batEmax ← readWith parseFloat msg.batEmax
  let EbMax ← broadcast (fun x st => x * ofStatus st) batEmax baSt
  let batSoc ← readWith parseFloat msg.batSoc
  let E0 ← broadcast (fun x e => x * e) batSoc EbMax
  let D ← readWith parseFloat msg.shuntBus
  let Pd0 ← readWith parseFloat msg.shuntP
  let faultedNodes ← readInts msg.faultedNodes
  return {
    branch, T, F, R, X
    brSt := brSt.map fun i => decide (i = 1)
    switchable, G, PgMin, PgMax, geSt
    solar := solar.map fun i => decide (i = 1)
    B, PbMax, EbMax, E0, baSt, D, Pd0, faultedNodes }

/-! ## Round trips -/

section

variable {α β γ : Type}

/-- A column is read as it was written when every element is. -/
theorem readWith_convert {str : α → Text} {parse : Text → Option β} {f : α → β} {l : List α}
    (hword : ∀ x ∈ l, IsWord (str x)) (hparse : ∀ x ∈ l, parse (str x) = some (f x)) :
    readWith parse (convert str l) = some (l.map f) := by
  unfold readWith convert
  rw [split_join (List.forall_mem_map.2 hword)]
  induction l with
  | nil => rfl
  | cons x l ih =>
    rw [List.forall_mem_cons] at hword hparse
    rw [List.map_cons, List.mapM_cons, hparse.1, ih hword.2 hparse.2]
    rfl

theorem readInts_convert {l : List ℤ} (h : ∀ i ∈ l, -2 ^ 63 ≤ i ∧ i < 2 ^ 63) : readInts (convert intText l) = some l :=
  readInts_join.2 ⟨rfl, h⟩

theorem readInts_convert_natText {l : List ℕ} (h : ∀ n ∈ l, n < 2 ^ 63) :
    readInts (convert natText l) = some (l.map Int.ofNat) :=
  readInts_join_natText.2 ⟨rfl, h⟩

theorem split_convert {l : List Text} (h : ∀ w ∈ l, IsWord w) : split (convert id l) = l := by
  unfold convert
  rw [List.map_id, split_join h]

/-- Columns of the same table are combined record by record. -/
theorem broadcast_map (f : β → γ → β) (g : α → β) (h : α → γ) (l : List α) :
    broadcast f (l.map g) (l.map h) = some (l.map fun x => f (g x) (h x)) := by
  match l with
  | [] => rfl
  | [x] => rfl
  | x :: y :: l =>
    unfold broadcast
    simp [List.zipWith_map]

/-- Entry `i` of a column is the value of record `i`, and there are no other entries. -/
def ColumnOf (rows : List α) (value : α → Option β) (column : List β) : Prop :=
  List.Forall₂ (fun r x => value r = some x) rows column

theorem columnOf_map (f : α → β) (rows : List α) : ColumnOf rows (fun r => some (f r)) (rows.map f) :=
  List.forall₂_map_right_iff.2 (List.forall₂_same.2 fun _ _ => rfl)

theorem ColumnOf.map {value : α → Option β} {rows : List α} {column : List β} (h : ColumnOf rows value column) (f : β → γ) :
    ColumnOf rows (fun r => (value r).map f) (column.map f) :=
  List.forall₂_map_right_iff.2 (h.imp fun _ _ hx => congrArg (Option.map f) hx)

end

/-! ## Tables -/

/-- What the two languages say of the floats they write and read: `repr` has no white space and is read as the same
double, and so is an integer up to `2 ^ 53`. -/
structure FloatCodec (str : K → Text) (parseFloat : Text → Option K) (double : Set K) : Prop where
  word : ∀ x ∈ double, IsWord (str x)
  float : ∀ x ∈ double, parseFloat (str x) = some x
  int : ∀ i : ℤ, |i| ≤ 2 ^ 53 → parseFloat (intText i) = some (i : K)
  tenth : ((1 : ℕ) : K) / (10 : ℕ) ∈ double

def Num.value : Num K → K
  | .int i => i
  | .float x => x

/-- The number is a double, or an integer that is read as itself. -/
def Num.Fits (double : Set K) : Num K → Prop
  | .int i => |i| ≤ 2 ^ 53
  | .float x => x ∈ double

/-- Texts are words, integers fit `Int`, or a double where they are read as one, and floats are doubles. -/
structure Frames.Fits (frames : Frames K) (double : Set K) : Prop where
  words : ∀ r ∈ frames.branch, IsWord r.id ∧ IsWord r.kind
  brStatus : ∀ r ∈ frames.branch, -2 ^ 63 ≤ r.status ∧ r.status < 2 ^ 63
  genInts : ∀ r ∈ frames.gen, |r.Pmin| ≤ 2 ^ 53 ∧ |r.status| ≤ 2 ^ 53
  solar : ∀ r ∈ frames.gen, -2 ^ 63 ≤ r.solar ∧ r.solar < 2 ^ 63
  genPmax : ∀ r ∈ frames.gen, r.Pmax.Fits double
  batStatus : ∀ r ∈ frames.bat, |r.status| ≤ 2 ^ 53
  batFloats : ∀ r ∈ frames.bat, r.Pmax ∈ double ∧ r.Emax ∈ double ∧ r.soc ∈ double
  shuntP : ∀ r ∈ frames.shunt, r.P ∈ double
  buses : (sortedBuses frames.branch).length ≤ 2 ^ 53

/-- The number of the bus in a column. -/
def busOf (busmap : Dict ℕ ℕ) (b : Text) : Option ℕ := busmap.get? (intOf b)

/-- Entry `i` of every array is the value of record `i` of its table. -/
structure ReadFrom (busmap : Dict ℕ ℕ) (frames : Frames K) (faultedNodes : List Text) (v : VIArrays K) : Prop where
  branch : ColumnOf frames.branch (fun r => some r.id) v.branch
  T : ColumnOf frames.branch (fun r => (busOf busmap r.t).map Int.ofNat) v.T
  F : ColumnOf frames.branch (fun r => (busOf busmap r.f).map Int.ofNat) v.F
  R : ColumnOf frames.branch (fun _ => some 0) v.R
  X : ColumnOf frames.branch (fun _ => some (((1 : ℕ) : K) / (10 : ℕ))) v.X
  brSt : ColumnOf frames.branch (fun r => some (decide (r.status = 1))) v.brSt
  switchable : ColumnOf frames.branch (fun r => some (decide (r.kind = "switch".toList))) v.switchable
  G : ColumnOf frames.gen (fun r => (busOf busmap r.bus).map Int.ofNat) v.G
  PgMin : ColumnOf frames.gen (fun r => some (r.Pmin : K)) v.PgMin
  PgMax : ColumnOf frames.gen (fun r => some (r.Pmax.value * ofStatus (decide (r.status = 1)))) v.PgMax
  geSt : ColumnOf frames.gen (fun r => some (decide (r.status = 1))) v.geSt
  solar : ColumnOf frames.gen (fun r => some (decide (r.solar = 1))) v.solar
  B : ColumnOf frames.bat (fun r => (busOf busmap r.bus).map Int.ofNat) v.B
  PbMax : ColumnOf frames.bat (fun r => some (r.Pmax * ofStatus (decide (r.status = 1)))) v.PbMax
  EbMax : ColumnOf frames.bat (fun r => some (r.Emax * ofStatus (decide (r.status = 1)))) v.EbMax
  E0 : ColumnOf frames.bat (fun r => some (r.soc * (r.Emax * ofStatus (decide (r.status = 1))))) v.E0
  baSt : ColumnOf frames.bat (fun r => some (decide (r.status = 1))) v.baSt
  D : ColumnOf frames.shunt (fun r => (busOf busmap r.bus).map fun i : ℕ => (i : K)) v.D
  Pd0 : ColumnOf frames.shunt (fun r => some r.P) v.Pd0
  faultedNodes : ColumnOf faultedNodes (fun n => ((digitRun n).bind (busOf busmap)).map Int.ofNat) v.faultedNodes

section

variable {str : K → Text} {parseFloat : Text → Option K} {double : Set K}

theorem FloatCodec.read_float (hc : FloatCodec str parseFloat double) {l : List K} (h : ∀ x ∈ l, x ∈ double) :
    readWith parseFloat (convert str l) = some l := by
  have hread := readWith_convert (f := id) (fun x hx => hc.word x (h x hx)) fun x hx => hc.float x (h x hx)
  rwa [List.map_id] at hread

theorem FloatCodec.read_int (hc : FloatCodec str parseFloat double) {l : List ℤ} (h : ∀ i ∈ l, |i| ≤ 2 ^ 53) :
    readWith parseFloat (convert intText l) = some (l.map fun i : ℤ => (i : K)) :=
  readWith_convert (fun i _ => isWord_intText i) fun i hi => hc.int i (h i hi)

theorem FloatCodec.read_nat (hc : FloatCodec str parseFloat double) {l : List ℕ} (h : ∀ n ∈ l, n ≤ 2 ^ 53) :
    readWith parseFloat (convert natText l) = some (l.map fun n : ℕ => (n : K)) := by
  refine readWith_convert (fun n _ => isWord_natText n) fun n hn => ?_
  have hint := hc.int n (by rw [abs_of_nonneg (Int.natCast_nonneg n)]; exact_mod_cast h n hn)
  rwa [Int.cast_natCast] at hint

theorem FloatCodec.read_num (hc : FloatCodec str parseFloat double) {l : List (Num K)} (h : ∀ x ∈ l, x.Fits double) :
    readWith parseFloat (convert (Num.text str) l) = some (l.map Num.value) := by
  refine readWith_convert (fun x hx => ?_) fun x hx => ?_
  · cases x with
    | int i => exact isWord_intText i
    | float x => exact hc.word x (h _ hx)
  · cases x with
    | int i => exact hc.int i (h _ hx)
    | float x => exact hc.float x (h _ hx)

/-- The arrays that the server reads. -/
def Frames.arrays (frames : Frames K) (indices : Indices) : VIArrays K where
  branch := frames.branch.map (·.id)
  T := indices.t.map Int.ofNat
  F := indices.f.map Int.ofNat
  R := frames.branch.map fun _ => 0
  X := frames.branch.map fun _ => ((1 : ℕ) : K) / (10 : ℕ)
  brSt := frames.branch.map fun r => decide (r.status = 1)
  switchable := frames.branch.map fun r => decide (r.kind = "switch".toList)
  G := indices.gen.map Int.ofNat
  PgMin := frames.gen.map fun r => (r.Pmin : K)
  PgMax := frames.gen.map fun r => r.Pmax.value * ofStatus (decide (r.status = 1))
  geSt := frames.gen.map fun r => decide (r.status = 1)
  solar := frames.gen.map fun r => decide (r.solar = 1)
  B := indices.bat.map Int.ofNat
  PbMax := frames.bat.map fun r => r.Pmax * ofStatus (decide (r.status = 1))
  EbMax := frames.bat.map fun r => r.Emax * ofStatus (decide (r.status = 1))
  E0 := frames.bat.map fun r => r.soc * (r.Emax * ofStatus (decide (r.status = 1)))
  baSt := frames.bat.map fun r => decide (r.status = 1)
  D := indices.shunt.map fun i : ℕ => (i : K)
  Pd0 := frames.shunt.map (·.P)
  faultedNodes := indices.fnodes.map Int.ofNat

variable [CharZero K] [DecidableEq K] {frames : Frames K} {indices : Indices}

/-- Every column is read as it was written. -/
theorem readArrays_datadump (hc : FloatCodec str parseFloat double) (hf : frames.Fits double)
    (hindex : ∀ column ∈ [indices.t, indices.f, indices.gen, indices.bat, indices.shunt, indices.fnodes],
      ∀ i ∈ column, i ≤ 2 ^ 53) :
    readArrays parseFloat (datadump str frames indices) = some (frames.arrays indices) := by
  have hbus : ∀ column ∈ [indices.t, indices.f, indices.gen, indices.bat, indices.fnodes],
      readInts (convert natText column) = some (column.map Int.ofNat) := by
    intro column hcol
    refine readInts_convert_natText fun i hi => lt_of_le_of_lt (hindex column ?_ i hi) (by norm_num)
    simp only [List.mem_cons, List.not_mem_nil, or_false] at hcol ⊢
    tauto
  simp only [List.forall_mem_cons, List.not_mem_nil, false_imp_iff, implies_true, and_true] at hbus
  obtain ⟨hT, hF, hG, hB, hfnodes⟩ := hbus
  have hD := hc.read_nat (hindex indices.shunt (by simp))
  have hid := split_convert (List.forall_mem_map.2 fun r hr => (hf.words r hr).1)
  have hkind := split_convert (List.forall_mem_map.2 fun r hr => (hf.words r hr).2)
  have hR := hc.read_int (List.forall_mem_map.2 fun (r : BranchRow) (_ : r ∈ frames.branch) => show |(0 : ℤ)| ≤ 2 ^ 53 by norm_num)
  have hX := hc.read_float (List.forall_mem_map.2 fun (r : BranchRow) (_ : r ∈ frames.branch) => hc.tenth)
  have hbrSt := readInts_convert (List.forall_mem_map.2 hf.brStatus)
  have hPgMin := hc.read_int (List.forall_mem_map.2 fun r hr => (hf.genInts r hr).1)
  have hgeSt := hc.read_int (List.forall_mem_map.2 fun r hr => (hf.genInts r hr).2)
  have hPgMax := hc.read_num (List.forall_mem_map.2 hf.genPmax)
  have hsolar := readInts_convert (List.forall_mem_map.2 hf.solar)
  have hbaSt := hc.read_int (List.forall_mem_map.2 hf.batStatus)
  have hPbMax := hc.read_float (List.forall_mem_map.2 fun r hr => (hf.batFloats r hr).1)
  have hEmax := hc.read_float (List.forall_mem_map.2 fun r hr => (hf.batFloats r hr).2.1)
  have hsoc := hc.read_float (List.forall_mem_map.2 fun r hr => (hf.batFloats r hr).2.2)
  have hP := hc.read_float (List.forall_mem_map.2 hf.shuntP)
  -- a status is read as a float, and compared as one
  have hstatus : ∀ i : ℤ, decide ((i : K) = 1) = decide (i = 1) := fun i => decide_eq_decide.2 Int.cast_eq_one
  unfold readArrays datadump Frames.arrays
  simp only [hT, hF, hG, hB, hfnodes, hD, hid, hkind, hR, hX, hbrSt, hPgMin, hgeSt, hPgMax, hsolar, hbaSt, hPbMax, hEmax, hsoc,
    hP, hstatus, List.map_map, Function.comp_def, broadcast_map, Option.bind_eq_bind, Option.bind_some, Option.pure_def,
    Int.cast_zero]

end

section

variable [LinearOrder K] {frames : Frames K} {indices : Indices} {faultedNodes : List Text}

omit [LinearOrder K] in
/-- The arrays have one entry for each record, in the order of the records. -/
theorem readFrom_arrays {busmap : Dict ℕ ℕ} (h : IndicesOf busmap frames faultedNodes indices) :
    ReadFrom busmap frames faultedNodes (frames.arrays indices) where
  branch := columnOf_map ..
  T := ColumnOf.map h.t _
  F := ColumnOf.map h.f _
  R := columnOf_map ..
  X := columnOf_map ..
  brSt := columnOf_map ..
  switchable := columnOf_map ..
  G := ColumnOf.map h.gen _
  PgMin := columnOf_map ..
  PgMax := columnOf_map ..
  geSt := columnOf_map ..
  solar := columnOf_map ..
  B := ColumnOf.map h.bat _
  PbMax := columnOf_map ..
  EbMax := columnOf_map ..
  E0 := columnOf_map ..
  baSt := columnOf_map ..
  D := ColumnOf.map h.shunt _
  Pd0 := columnOf_map ..
  faultedNodes := by
    refine ColumnOf.map (h.fnodes.imp fun name i ⟨s, hs, hi⟩ => ?_) _
    rw [hs]
    exact hi

/-- The floats of the frames are doubles. -/
structure Frames.FloatsIn (frames : Frames K) (double : Set K) : Prop where
  gen : ∀ r ∈ frames.gen, ∀ x, r.Pmax = .float x → x ∈ double
  bat : ∀ r ∈ frames.bat, r.Pmax ∈ double ∧ r.Emax ∈ double ∧ r.soc ∈ double
  shunt : ∀ r ∈ frames.shunt, r.P ∈ double

omit [Field K] [LinearOrder K] in
theorem switchstat_mem {status : Text} {i : ℤ} (h : switchstat status = some i) : i = 0 ∨ i = 1 := by
  unfold switchstat at h
  split at h
  · exact .inr (Option.some_inj.1 h).symm
  · split at h
    · exact .inl (Option.some_inj.1 h).symm
    · cases h

omit [Field K] [LinearOrder K] in
theorem genstat_mem {status : Text} {i : ℤ} (h : genstat status = some i) : i = 0 ∨ i = 1 := by
  unfold genstat at h
  split at h
  · exact .inl (Option.some_inj.1 h).symm
  · split at h
    · exact .inr (Option.some_inj.1 h).symm
    · cases h

omit [Field K] [LinearOrder K] in
theorem isWord_branchkind (cl : BranchClass) : IsWord (branchkind cl) := by
  cases cl <;> decide +kernel

omit [Field K] [LinearOrder K] in
theorem fits_of_mem {i : ℤ} (h : i = 0 ∨ i = 1) : |i| ≤ 2 ^ 53 ∧ -2 ^ 63 ≤ i ∧ i < 2 ^ 63 := by
  rcases h with rfl | rfl <;> norm_num

omit [Field K] [LinearOrder K] in
theorem branchRow_fits {b : BranchObject} {r : BranchRow} (hname : IsWord b.name) (h : branchRow b = .ok r) :
    (IsWord r.id ∧ IsWord r.kind) ∧ (r.status = 0 ∨ r.status = 1) := by
  obtain ⟨t, -, h⟩ := bind_ok.1 h
  obtain ⟨f, -, h⟩ := bind_ok.1 h
  obtain ⟨status, hstatus, h⟩ := bind_ok.1 h
  cases h
  exact ⟨⟨hname, isWord_branchkind b.cls⟩, switchstat_mem (orRaise_eq_ok.1 hstatus)⟩

/-- What the row of a generator needs to fit, whatever its limit is. -/
structure GenRow.Flagged (r : GenRow K) : Prop where
  Pmin : r.Pmin = 0
  status : r.status = 0 ∨ r.status = 1
  solar : r.solar = 0 ∨ r.solar = 1

omit [Field K] [LinearOrder K] in
theorem solarRow_flagged {g : SolarObject K} {r : GenRow K} (h : solarRow g = .ok r) : r.Flagged ∧ ∃ x, r.Pmax = .float x := by
  obtain ⟨bus, -, h⟩ := bind_ok.1 h
  obtain ⟨status, hstatus, h⟩ := bind_ok.1 h
  cases h
  exact ⟨⟨rfl, genstat_mem (orRaise_eq_ok.1 hstatus), .inr rfl⟩, _, rfl⟩

omit [Field K] [LinearOrder K] in
theorem swingRow_flagged {sn : Supernode} {r : GenRow K} (h : swingRow sn = .ok r) : r.Flagged ∧ r.Pmax = .int 1000 := by
  obtain ⟨bus, -, h⟩ := bind_ok.1 h
  cases h
  exact ⟨⟨rfl, .inr rfl, .inl rfl⟩, rfl⟩

omit [Field K] [LinearOrder K] in
theorem batRow_status {b : BatteryObject K} {r : BatRow K} (h : batRow b = .ok r) : r.status = 0 ∨ r.status = 1 := by
  obtain ⟨bus, -, h⟩ := bind_ok.1 h
  obtain ⟨Pmax, -, h⟩ := bind_ok.1 h
  obtain ⟨status, hstatus, h⟩ := bind_ok.1 h
  cases h
  exact genstat_mem (orRaise_eq_ok.1 hstatus)

/-- The rows that are collected have words, integers that fit, and the floats of the network. -/
theorem Network.frames_fit {net : Network K} {double : Set K} (h : net.frames = .ok frames)
    (hnames : ∀ b ∈ net.branches.rows, IsWord b.name) (hfloats : frames.FloatsIn double)
    (hbuses : (sortedBuses frames.sent.branch).length ≤ 2 ^ 53) : frames.sent.Fits double := by
  obtain ⟨hbranch, ⟨pvs, swing, hpvs, hswing, hgen⟩, hbat⟩ := frames_collected h
  have hbranchRow : ∀ r ∈ frames.branch, (IsWord r.id ∧ IsWord r.kind) ∧ (r.status = 0 ∨ r.status = 1) := by
    intro r hr
    obtain ⟨b, hb, hrow⟩ := mem_of_mapM hbranch hr
    exact branchRow_fits (hnames b (mem_branchObjects hb)) hrow
  have hgenRow : ∀ r ∈ frames.gen, r.Flagged ∧ (r.Pmax = .int 1000 ∨ ∃ x, r.Pmax = .float x) := by
    intro r hr
    rw [hgen] at hr
    rcases List.mem_append.1 (Table.mem_of_mem_ofList hr) with hr | hr
    · obtain ⟨g, -, hrow⟩ := mem_of_mapM hpvs hr
      exact (solarRow_flagged hrow).imp_right .inr
    · obtain ⟨sn, -, hrow⟩ := mem_of_mapM hswing hr
      exact (swingRow_flagged hrow).imp_right .inl
  have hbatRow : ∀ r ∈ frames.bat, r.status = 0 ∨ r.status = 1 := by
    intro r hr
    obtain ⟨b, -, hrow⟩ := mem_of_mapM hbat hr
    exact batRow_status hrow
  exact {
    words := fun r hr => (hbranchRow r (List.mem_of_mem_filter hr)).1
    brStatus := fun r hr => (fits_of_mem (hbranchRow r (List.mem_of_mem_filter hr)).2).2
    genInts := fun r hr => ⟨by rw [(hgenRow r hr).1.Pmin]; norm_num, (fits_of_mem (hgenRow r hr).1.status).1⟩
    solar := fun r hr => (fits_of_mem (hgenRow r hr).1.solar).2
    genPmax := fun r hr => by
      rcases (hgenRow r hr).2 with hint | ⟨x, hfloat⟩
      · rw [hint]; exact show |(1000 : ℤ)| ≤ 2 ^ 53 by norm_num
      · rw [hfloat]; exact hfloats.gen r hr x hfloat
    batStatus := fun r hr => (fits_of_mem (hbatRow r hr)).1
    batFloats := hfloats.bat
    shuntP := fun r hr => hfloats.shunt r (List.mem_of_mem_filter hr)
    buses := hbuses }

/-- Integers are read if they fit, words always, and the arrays of a table entry by entry. -/
theorem payload_read [CharZero K] {str : K → Text} {parseFloat : Text → Option K} {double : Set K}
    (hc : FloatCodec str parseFloat double) :
    (∀ l : List ℤ, readInts (convert intText l) = some l ↔ ∀ i ∈ l, -2 ^ 63 ≤ i ∧ i < 2 ^ 63) ∧
    (∀ l : List Text, (∀ w ∈ l, IsWord w) → split (convert id l) = l) ∧
    ∀ (frames : Frames K) (faultedNodes : List Text) (indices : Indices), frames.Fits double →
      frames.indices (busmap frames.branch) faultedNodes = .ok indices →
      ∃ v, readArrays parseFloat (datadump str frames indices) = some v ∧
        ReadFrom (busmap frames.branch) frames faultedNodes v := by
  refine ⟨fun l => ?_, fun l => split_convert, fun frames faultedNodes indices hf hix => ?_⟩
  · exact readInts_join.trans (and_iff_right rfl)
  · have h := indicesOf hix
    refine ⟨_, readArrays_datadump hc hf fun column hcol i hi => ?_, readFrom_arrays h⟩
    exact (h.range column hcol i hi).2.trans hf.buses

end

/-! ## Two lines -/

/-- `repr` of a few doubles. -/
def fewDoubles (x : ℚ) : Text :=
  if x = 1 / 10 then "0.1".toList else if x = 1 / 2 then "0.5".toList else "1.0".toList

/-- Their values, and those of integers. -/
def parseFew (s : Text) : Option ℚ :=
  if s = "0.1".toList then some (1 / 10)
  else if s = "0.5".toList then some (1 / 2)
  else if s = "1.0".toList then some 1
  else (parseSigned s).map fun i : ℤ => (i : ℚ)

theorem fewDoubles_codec : FloatCodec fewDoubles parseFew {1 / 10, 1 / 2, 1} where
  word := by
    simp only [Set.mem_insert_iff, Set.mem_singleton_iff, forall_eq_or_imp, forall_eq]
    decide +kernel
  float := by
    simp only [Set.mem_insert_iff, Set.mem_singleton_iff, forall_eq_or_imp, forall_eq]
    decide +kernel
  int i _ := by
    have hint := parseSigned_intText i
    -- a text with a point is not an integer
    have hne : ∀ s : Text, parseSigned s = none → intText i ≠ s := fun s hs he => by rw [he, hs] at hint; cases hint
    unfold parseFew
    rw [if_neg (hne _ (by decide +kernel)), if_neg (hne _ (by decide +kernel)), if_neg (hne _ (by decide +kernel)), hint,
      Option.map_some]
  tenth := by simp

/-- Two lines between three buses, with a generator, a battery and two loads. -/
def lineFrames : Frames ℚ where
  branch := [⟨"l1".toList, "002".toList, "001".toList, 1, "switch".toList⟩,
    ⟨"l2".toList, "003".toList, "002".toList, 0, "fixed".toList⟩]
  gen := [⟨"swing_supernode_001".toList, "001".toList, 0, .int 1000, 1, 0⟩]
  bat := [⟨"battery_002".toList, "002".toList, 1 / 2, 1, 1, 1⟩]
  shunt := [⟨"meter_002".toList, "002".toList, 1 / 2⟩, ⟨"meter_003".toList, "003".toList, 1⟩]

theorem lineFrames_read : ∃ indices, lineFrames.indices (busmap lineFrames.branch) [supernodeName 3] = .ok indices ∧
    ∃ v, readArrays parseFew (datadump fewDoubles lineFrames indices) = some v ∧
      ReadFrom (busmap lineFrames.branch) lineFrames [supernodeName 3] v := by
  have hrun : (lineFrames.indices (busmap lineFrames.branch) [supernodeName 3]).toOption.isSome = true := by decide +kernel
  obtain ⟨indices, hindices⟩ := Option.isSome_iff_exists.1 hrun
  rw [toOption_eq_some] at hindices
  have hfits : lineFrames.Fits {1 / 10, 1 / 2, 1} := by
    constructor
    case genPmax =>
      simp only [lineFrames, List.forall_mem_cons, List.not_mem_nil, false_imp_iff, implies_true, and_true]
      exact show |(1000 : ℤ)| ≤ 2 ^ 53 by norm_num
    case batFloats => simp [lineFrames]
    case shuntP => simp [lineFrames]
    all_goals decide +kernel
  exact ⟨indices, hindices, (payload_read fewDoubles_codec).2.2 _ _ _ hfits hindices⟩

/-- An integer that does not fit is not read. -/
theorem payload_overflow : readInts (convert intText [2 ^ 63]) = none ∧
    ¬ ∀ l : List ℤ, readInts (convert intText l) = some l := by
  have hnone : readInts (convert intText [2 ^ 63]) = none := by decide +kernel
  exact ⟨hnone, fun h => by rw [h] at hnone; cases hnone⟩

end Grip.Islanding
