/-
A request to island, from the controller's readings to the solver. The server reads the columns of
`get_islanding_data` as one payload, whose data are sane when the readings are; every index is in its
array, and there is a generator. What is left of the condition for an answer are the loads that draw power
and the loops that `find_cycles` reports.
-/
import GripAbsorption.Islanding.Columns
import GripAbsorption.Islanding.Solvable

namespace Grip.Islanding

open Grip.Base

variable {K : Type} [Field K]

/-! ## Reading -/

/-- What `read_VIpayload` returns, as arrays. -/
def VIData.arrays {nbr ng nb nd : ℕ} (data : VIData K nbr ng nb nd) (branch : Fin nbr → Text) (R X : Fin nbr → K) :
    VIArrays K where
  branch := List.ofFn branch
  T := (List.ofFn data.T).map Int.ofNat
  F := (List.ofFn data.F).map Int.ofNat
  R := List.ofFn R
  X := List.ofFn X
  brSt := List.ofFn data.brSt
  switchable := List.ofFn data.switchable
  G := (List.ofFn data.G).map Int.ofNat
  PgMin := List.ofFn data.PgMin
  PgMax := List.ofFn data.PgMax
  geSt := List.ofFn data.geSt
  solar := List.ofFn data.solar
  B := (List.ofFn data.B).map Int.ofNat
  PbMax := List.ofFn data.PbMax
  EbMax := List.ofFn data.EbMax
  E0 := List.ofFn data.E0
  baSt := List.ofFn data.baSt
  D := (List.ofFn data.D).map fun i : ℕ => (i : K)
  Pd0 := List.ofFn data.Pd0
  faultedNodes := data.faultedNodes.map Int.ofNat

/-- The server reads the message as the payload `msg`, with the names `branch` of its branches. -/
def ServerReads [DecidableEq K] (parseFloat : Text → Option K) (data : Datadump) {nbr ng nb nd : ℕ} (branch : Fin nbr → Text)
    (msg : VIPayload K nbr ng nb nd) : Prop :=
  ∃ R X, readArrays parseFloat data = some ((readVIPayload msg).arrays branch R X)

/-- A message is read with the same ends of branches, however it is read as a payload. -/
theorem ServerReads.ends_eq [DecidableEq K] {parseFloat : Text → Option K} {data : Datadump} {nbr ng nb nd : ℕ}
    {branch branch' : Fin nbr → Text} {msg msg' : VIPayload K nbr ng nb nd} (h : ServerReads parseFloat data branch msg)
    (h' : ServerReads parseFloat data branch' msg') : msg.branchT = msg'.branchT ∧ msg.branchF = msg'.branchF := by
  obtain ⟨R, X, hread⟩ := h
  obtain ⟨R', X', hread'⟩ := h'
  have hsame := Option.some.inj (hread.symm.trans hread')
  have hofNat : Function.Injective (List.map Int.ofNat) := List.map_injective_iff.2 fun _ _ => Int.ofNat.inj
  exact ⟨List.ofFn_injective (hofNat (congrArg VIArrays.T hsame)), List.ofFn_injective (hofNat (congrArg VIArrays.F hsame))⟩

/-- So `find_cycles` reports the same loops. -/
theorem ServerReads.loops_eq [DecidableEq K] {parseFloat : Text → Option K} {data : Datadump} {nbr ng nb nd : ℕ}
    {branch branch' : Fin nbr → Text} {msg msg' : VIPayload K nbr ng nb nd} {draws : ℕ → ℕ → ℕ}
    {args' : CoreArgs K nbr ng nb nd} (h : ServerReads parseFloat data branch msg)
    (h' : ServerReads parseFloat data branch' msg') (hargs' : islandingArgs msg' draws = .ok args') :
    ∃ args, islandingArgs msg draws = .ok args ∧ args.loops = args'.loops := by
  obtain ⟨loops, hloops, hrun⟩ := bind_ok.1 hargs'
  cases hrun
  obtain ⟨hT, hF⟩ := h.ends_eq h'
  have hcycles : findCycles (readVIPayload msg).outages.T (readVIPayload msg).outages.F draws = .ok loops := by
    change findCycles msg.branchT msg.branchF draws = .ok loops
    rw [hT, hF]
    exact hloops
  exact ⟨_, bind_ok.2 ⟨loops, hcycles, rfl⟩, rfl⟩

/-- The frames as a payload. -/
def Frames.payload (frames : Frames K) (indices : Indices) :
    VIPayload K frames.branch.length frames.gen.length frames.bat.length frames.shunt.length where
  branchT := fun i => indices.t.getD i 0
  branchF := fun i => indices.f.getD i 0
  branchStatus := fun i => (frames.branch.get i).status
  branchKind := fun i => String.ofList (frames.branch.get i).kind
  genBus := fun g => indices.gen.getD g 0
  genPmin := fun g => (frames.gen.get g).Pmin
  genStatus := fun g => (frames.gen.get g).status
  genPmax := fun g => (frames.gen.get g).Pmax.value
  genSolar := fun g => (frames.gen.get g).solar
  batBus := fun b => indices.bat.getD b 0
  batStatus := fun b => (frames.bat.get b).status
  batPmax := fun b => (frames.bat.get b).Pmax
  batEmax := fun b => (frames.bat.get b).Emax
  batSoc := fun b => (frames.bat.get b).soc
  shuntBus := fun d => indices.shunt.getD d 0
  shuntP := fun d => (frames.shunt.get d).P
  faultedNodes := indices.fnodes

section

variable {α β : Type}

theorem ofFn_get_map (l : List α) (f : α → β) : List.ofFn (fun i => f (l.get i)) = l.map f :=
  List.ext_getElem (by simp) fun i _ _ => by simp

theorem ofFn_getD {n : ℕ} {l : List ℕ} (h : l.length = n) : List.ofFn (fun i : Fin n => l.getD i 0) = l := by
  subst h
  refine List.ext_getElem (by simp) fun i _ hi => ?_
  rw [List.getElem_ofFn, List.getD_eq_getElem _ _ hi]

theorem mem_getD {n : ℕ} {l : List ℕ} (h : l.length = n) (i : Fin n) : l.getD i 0 ∈ l := by
  rw [List.getD_eq_getElem _ _ (h ▸ i.isLt)]
  exact List.getElem_mem _

end

variable {frames : Frames K} {indices : Indices} {faultedNodes : List Text}

/-- The arrays that are read are those of the payload. -/
theorem arrays_payload [DecidableEq K] [CharZero K] {busmap : Dict ℕ ℕ} (h : IndicesOf busmap frames faultedNodes indices) :
    frames.arrays indices = (readVIPayload (frames.payload indices)).arrays (fun i => (frames.branch.get i).id) (fun _ => 0)
      fun _ => ((1 : ℕ) : K) / (10 : ℕ) := by
  -- a status is read as a float, and a kind is compared as a string
  have hstatus : ∀ i : ℤ, decide ((i : K) = 1) = decide (i = 1) := fun i => decide_eq_decide.2 Int.cast_eq_one
  have hkind : ∀ s : Text, decide (String.ofList s = "switch") = decide (s = "switch".toList) := fun s =>
    decide_eq_decide.2 ⟨fun he => by rw [← he, String.toList_ofList], fun he => by rw [he, String.ofList_toList]⟩
  unfold Frames.arrays VIData.arrays readVIPayload Frames.payload
  simp only [hstatus, hkind, ofFn_getD h.t.length_eq.symm, ofFn_getD h.f.length_eq.symm, ofFn_getD h.gen.length_eq.symm,
    ofFn_getD h.bat.length_eq.symm, ofFn_getD h.shunt.length_eq.symm]
  rw [← ofFn_get_map frames.branch, ← ofFn_get_map frames.branch, ← ofFn_get_map frames.branch, ← ofFn_get_map frames.branch,
    ← ofFn_get_map frames.branch, ← ofFn_get_map frames.gen, ← ofFn_get_map frames.gen, ← ofFn_get_map frames.gen,
    ← ofFn_get_map frames.gen, ← ofFn_get_map frames.bat, ← ofFn_get_map frames.bat, ← ofFn_get_map frames.bat,
    ← ofFn_get_map frames.bat, ← ofFn_get_map frames.shunt]

/-- The columns of the branches that were read, and the other ones of integers. -/
structure ReadColumns (data : Datadump) (v : VIArrays K) : Prop where
  branch : v.branch = split data.branchId
  T : readInts data.branchT = some v.T
  F : readInts data.branchF = some v.F
  brSt : ∃ l, readInts data.branchStatus = some l ∧ v.brSt = l.map fun i => decide (i = 1)
  switchable : v.switchable = (split data.branchKind).map fun ss => decide (ss = "switch".toList)
  G : readInts data.genBus = some v.G
  B : readInts data.batBus = some v.B
  faultedNodes : readInts data.faultedNodes = some v.faultedNodes

theorem readColumns_readArrays [DecidableEq K] {parseFloat : Text → Option K} {data : Datadump} {v : VIArrays K}
    (h : readArrays parseFloat data = some v) : ReadColumns data v := by
  obtain ⟨T, hT, h⟩ := Option.bind_eq_some_iff.1 h
  obtain ⟨F, hF, h⟩ := Option.bind_eq_some_iff.1 h
  obtain ⟨_, -, h⟩ := Option.bind_eq_some_iff.1 h
  obtain ⟨_, -, h⟩ := Option.bind_eq_some_iff.1 h
  obtain ⟨brSt, hbrSt, h⟩ := Option.bind_eq_some_iff.1 h
  obtain ⟨G, hG, h⟩ := Option.bind_eq_some_iff.1 h
  obtain ⟨_, -, h⟩ := Option.bind_eq_some_iff.1 h
  obtain ⟨_, -, h⟩ := Option.bind_eq_some_iff.1 h
  obtain ⟨_, -, h⟩ := Option.bind_eq_some_iff.1 h
  obtain ⟨_, -, h⟩ := Option.bind_eq_some_iff.1 h
  obtain ⟨_, -, h⟩ := Option.bind_eq_some_iff.1 h
  obtain ⟨B, hB, h⟩ := Option.bind_eq_some_iff.1 h
  obtain ⟨_, -, h⟩ := Option.bind_eq_some_iff.1 h
  obtain ⟨_, -, h⟩ := Option.bind_eq_some_iff.1 h
  obtain ⟨_, -, h⟩ := Option.bind_eq_some_iff.1 h
  obtain ⟨_, -, h⟩ := Option.bind_eq_some_iff.1 h
  obtain ⟨_, -, h⟩ := Option.bind_eq_some_iff.1 h
  obtain ⟨_, -, h⟩ := Option.bind_eq_some_iff.1 h
  obtain ⟨_, -, h⟩ := Option.bind_eq_some_iff.1 h
  obtain ⟨_, -, h⟩ := Option.bind_eq_some_iff.1 h
  obtain ⟨_, -, h⟩ := Option.bind_eq_some_iff.1 h
  obtain ⟨fnodes, hfnodes, h⟩ := Option.bind_eq_some_iff.1 h
  cases h
  exact ⟨rfl, hT, hF, ⟨brSt, hbrSt, rfl⟩, rfl, hG, hB, hfnodes⟩

section

variable [LinearOrder K] {net : Network K} {str : K → Text} {parseFloat : Text → Option K} {double : Set K}
  {data : Datadump} {mapback : Dict ℕ ℕ} {nbr ng nb nd : ℕ} {branch : Fin nbr → Text} {msg : VIPayload K nbr ng nb nd}

/-- What the server reads of a request are the numbers that were sent. -/
theorem ServerReads.mapsBack (hread : ServerReads parseFloat data branch msg) (hpad : net.EndsPadded)
    (h : getIslandingData str net faultedNodes = .ok (data, mapback))
    (hnames : ∀ name ∈ faultedNodes, ∃ b, name = supernodeName b) :
    MapsBack mapback msg.faultedNodes faultedNodes ∧ ∀ i, msg.branchT i ≠ msg.branchF i := by
  obtain ⟨frames, indices, hf, hix, rfl, -⟩ := getIslandingData_spec h
  obtain ⟨R, X, hread⟩ := hread
  obtain ⟨-, hT, hF, -, -, hG, hB, hfnodes⟩ := readColumns_readArrays hread
  -- the numbers of the loads are among those of the branches, which were read
  have hfit : ∀ i ∈ indices.shunt, i < 2 ^ 63 := by
    intro i hi
    have hmem := (mem_indices_iff hpad hf hix i).2 (hix.range indices.shunt (by simp) i hi)
    rcases List.mem_append.1 hmem with hmem | hmem
    · exact (readInts_join_natText.1 hT).2 i hmem
    · exact (readInts_join_natText.1 hF).2 i hmem
  let msg' : VIPayload K nbr ng nb indices.shunt.length :=
    { msg with shuntBus := indices.shunt.get, shuntP := fun _ => 0 }
  have hreads : ReadsIndices (datadump str frames.sent indices) msg' :=
    ⟨hT, hF, hG, hB, readInts_join_natText.2 ⟨by rw [List.ofFn_get], hfit⟩, hfnodes⟩
  have hback := mapsBack_sent hpad h hnames hreads
  exact hback

end

/-! ## Sane readings -/

section

variable [LinearOrder K] {net : Network K} {str : K → Text} {parseFloat : Text → Option K} {double : Set K}
  {data : Datadump} {mapback : Dict ℕ ℕ}

/-- Ratings and capacities are not negative, and batteries have a state of charge between 0 and 1. -/
structure Network.Sane (net : Network K) : Prop where
  ratedPower : ∀ g ∈ net.solars.rows, 0 ≤ g.ratedPower
  rate : ∀ b ∈ net.batteries.rows, 0 ≤ b.parentRate.getD 0
  capacity : ∀ b ∈ net.batteries.rows, 0 ≤ b.capacity
  stateOfCharge : ∀ b ∈ net.batteries.rows, 0 ≤ b.stateOfCharge ∧ b.stateOfCharge ≤ 1

/-- A request has a generator, and its indices are those of the rows sent. -/
theorem getIslandingData_indices (h : getIslandingData str net faultedNodes = .ok (data, mapback)) :
    ∃ frames indices, net.frames = .ok frames ∧ frames.gen ≠ [] ∧ data = datadump str frames.sent indices ∧
      IndicesOf (busmap frames.sent.branch) frames.sent faultedNodes indices := by
  obtain ⟨frames, hframes, h⟩ := bind_ok.1 h
  obtain ⟨_, -, h⟩ := bind_ok.1 h
  obtain ⟨_, -, h⟩ := bind_ok.1 h
  obtain ⟨indices, hindices, h⟩ := bind_ok.1 h
  cases h
  refine ⟨frames, indices, hframes, fun hnil => ?_, rfl, indicesOf hindices⟩
  -- without generators the frame has no column of buses
  obtain ⟨_, -, h⟩ := bind_ok.1 hindices
  obtain ⟨_, -, h⟩ := bind_ok.1 h
  obtain ⟨_, hgen, -⟩ := bind_ok.1 h
  unfold hasColumns at hgen
  rw [if_pos (show frames.sent.gen = [] from hnil)] at hgen
  cases hgen

variable [IsStrictOrderedRing K]

theorem Network.Sane.gen (hs : net.Sane) (h : net.frames = .ok frames) {r : GenRow K} (hr : r ∈ frames.gen) :
    r.Pmin = 0 ∧ 0 ≤ r.Pmax.value := by
  obtain ⟨-, ⟨pvs, swing, hpvs, hswing, hgen⟩, -⟩ := frames_collected h
  rw [hgen] at hr
  rcases List.mem_append.1 (Table.mem_of_mem_ofList hr) with hr | hr
  · obtain ⟨g, hg, hrow⟩ := mem_of_mapM hpvs hr
    obtain ⟨bus, -, hrow⟩ := bind_ok.1 hrow
    obtain ⟨status, -, hrow⟩ := bind_ok.1 hrow
    cases hrow
    exact ⟨rfl, hs.ratedPower g hg⟩
  · obtain ⟨sn, -, hrow⟩ := mem_of_mapM hswing hr
    obtain ⟨bus, -, hrow⟩ := bind_ok.1 hrow
    cases hrow
    exact ⟨rfl, Int.cast_nonneg (by norm_num)⟩

omit [IsStrictOrderedRing K] in
theorem Network.Sane.bat (hs : net.Sane) (h : net.frames = .ok frames) {r : BatRow K} (hr : r ∈ frames.bat) :
    0 ≤ r.Pmax ∧ 0 ≤ r.Emax ∧ 0 ≤ r.soc ∧ r.soc ≤ 1 := by
  obtain ⟨b, hb, hrow⟩ := mem_of_mapM (frames_collected h).bat hr
  obtain ⟨bus, -, hrow⟩ := bind_ok.1 hrow
  obtain ⟨Pmax, hPmax, hrow⟩ := bind_ok.1 hrow
  obtain ⟨status, -, hrow⟩ := bind_ok.1 hrow
  cases hrow
  have hrate := hs.rate b hb
  rw [orRaise_eq_ok.1 hPmax] at hrate
  exact ⟨hrate, hs.capacity b hb, hs.stateOfCharge b hb⟩

/-- The payload of sane readings is sane. -/
theorem Network.Sane.payload (hs : net.Sane) (h : net.frames = .ok frames) (indices : Indices) :
    (frames.sent.payload indices).Sane where
  genPmin := fun g => by
    change (((frames.gen.get g).Pmin : ℤ) : K) = 0
    rw [(hs.gen h (List.get_mem frames.gen g)).1, Int.cast_zero]
  genPmax := fun g => (hs.gen h (List.get_mem frames.gen g)).2
  batPmax := fun b => (hs.bat h (List.get_mem frames.bat b)).1
  batEmax := fun b => (hs.bat h (List.get_mem frames.bat b)).2.1
  batSoc := fun b => (hs.bat h (List.get_mem frames.bat b)).2.2
  shuntP := fun d => (of_decide_eq_true (List.mem_filter.1 (List.get_mem frames.sent.shunt d)).2).le

/-! ## The model is built -/

omit [IsStrictOrderedRing K] in
/-- All indices but those of the loops are inside their arrays. -/
theorem built_iff (hpad : net.EndsPadded) (hf : net.frames = .ok frames) (hgen : frames.gen ≠ [])
    (h : IndicesOf (busmap frames.sent.branch) frames.sent faultedNodes indices) (loops : List (List ℕ)) :
    Built ((readVIPayload (frames.sent.payload indices)).outages.coreArgs loops) ↔
      ∀ L ∈ loops, ∀ ix ∈ L, 0 < ix ∧ ix ≤ frames.sent.branch.length := by
  have hcount : (busList (frames.sent.payload indices).branchT (frames.sent.payload indices).branchF).length =
      (sortedBuses frames.sent.branch).length := by
    unfold busList
    change ((List.ofFn fun i : Fin _ => indices.t.getD i 0) ++ List.ofFn fun i : Fin _ => indices.f.getD i 0).eraseDups.length = _
    rw [ofFn_getD h.t.length_eq.symm, ofFn_getD h.f.length_eq.symm]
    exact length_eraseDups_of_mem_iff (mem_indices_iff hpad hf h)
  have hrange : ∀ {column : List ℕ} {n : ℕ}, column ∈ [indices.t, indices.f, indices.gen, indices.bat, indices.shunt, indices.fnodes] →
      column.length = n → ∀ i : Fin n, column.getD i 0 ∈ Finset.Icc 1 (busList (frames.sent.payload indices).branchT
        (frames.sent.payload indices).branchF).length := by
    intro column n hc hn i
    have hi := h.range column hc _ (mem_getD hn i)
    rw [hcount]
    exact Finset.mem_Icc.2 hi
  exact ⟨fun hb => hb.loops, fun hl => {
    loops := hl
    generator := List.length_pos_iff.2 hgen
    F := hrange (by simp) h.f.length_eq.symm
    T := hrange (by simp) h.t.length_eq.symm
    G := hrange (by simp) h.gen.length_eq.symm
    B := hrange (by simp) h.bat.length_eq.symm
    D := hrange (by simp) h.shunt.length_eq.symm }⟩

/-! ## Requests that are answered -/

omit [IsStrictOrderedRing K] in
/-- The server reads a request as the payload of its rows. -/
theorem serverReads_payload [CharZero K] (hc : FloatCodec str parseFloat double)
    (hwords : ∀ b ∈ net.branches.rows, IsWord b.name) (hframes : net.frames = .ok frames) (hfloats : frames.FloatsIn double)
    (hbuses : (sortedBuses frames.sent.branch).length ≤ 2 ^ 53)
    (hix : IndicesOf (busmap frames.sent.branch) frames.sent faultedNodes indices) :
    ServerReads parseFloat (datadump str frames.sent indices) (fun i => (frames.sent.branch.get i).id)
      (frames.sent.payload indices) := by
  refine ⟨fun _ => 0, fun _ => ((1 : ℕ) : K) / (10 : ℕ), ?_⟩
  have hread := readArrays_datadump hc (net.frames_fit hframes hwords hfloats hbuses) fun column hcol i hi =>
    (hix.range column hcol i hi).2.trans hbuses
  rw [hread, arrays_payload hix]

/-- When the problem of a payload has a solution. -/
theorem feasible_payload (hpad : net.EndsPadded) (hs : net.Sane) (hframes : net.frames = .ok frames) (hgen : frames.gen ≠ [])
    (hix : IndicesOf (busmap frames.sent.branch) frames.sent faultedNodes indices) {draws : ℕ → ℕ → ℕ}
    {args : CoreArgs K _ _ _ _} (hargs : islandingArgs (frames.sent.payload indices) draws = .ok args) :
    (∃ p, Feasible args p) ↔ (∃ r ∈ frames.shunt, 0 < r.P) ∧ ∀ L ∈ args.loops,
      (∀ ix ∈ L, 0 < ix ∧ ix ≤ frames.sent.branch.length) ∧ ∃ ix ∈ L, ∃ i, branchAt frames.sent.branch.length ix = some i ∧
        ((frames.sent.payload indices).branchKind i = "switch" ∨ (frames.sent.payload indices).branchStatus i ≠ 1 ∨
          AtFault (frames.sent.payload indices) i) := by
  have hload : (∃ r ∈ frames.shunt, 0 < r.P) ↔ 0 < frames.sent.shunt.length := by
    rw [List.length_pos_iff_exists_mem]
    simp [Frames.sent]
  rw [feasible_islandingArgs (hs.payload hframes indices) hargs, hload]
  obtain ⟨loops, -, hrun⟩ := bind_ok.1 hargs
  cases hrun
  rw [built_iff hpad hframes hgen hix loops]
  exact ⟨fun ⟨hb, hl, ho⟩ => ⟨hl, fun L hL => ⟨hb L hL, ho L hL⟩⟩,
    fun ⟨hl, ho⟩ => ⟨fun L hL => (ho L hL).1, hl, fun L hL => (ho L hL).2⟩⟩

/-- For every network of padded names and sane readings: the server reads a request to island as one payload, and after
any run of `find_cycles` that ends, the problem has a solution exactly when some load draws power, every bus number in a
reported loop is the index of a branch, and one of each loop is that of a branch that is a switch, is open or has a
faulted end. -/
theorem request_answered_iff (str : K → Text) (parseFloat : Text → Option K) (double : Set K) (net : Network K)
    (faultedNodes : List Text) (data : Datadump) (mapback : Dict ℕ ℕ) (frames : Frames K)
    (hc : FloatCodec str parseFloat double) (hpad : net.EndsPadded) (hwords : ∀ b ∈ net.branches.rows, IsWord b.name)
    (hframes : net.frames = .ok frames) (hfloats : frames.FloatsIn double)
    (hbuses : (sortedBuses frames.sent.branch).length ≤ 2 ^ 53) (hs : net.Sane)
    (h : getIslandingData str net faultedNodes = .ok (data, mapback)) :
    ∃ msg : VIPayload K frames.sent.branch.length frames.sent.gen.length frames.sent.bat.length frames.sent.shunt.length,
      ServerReads parseFloat data (fun i => (frames.sent.branch.get i).id) msg ∧
      ∀ (draws : ℕ → ℕ → ℕ) (args : CoreArgs K _ _ _ _), islandingArgs msg draws = .ok args →
        ((∃ p, Feasible args p) ↔ (∃ r ∈ frames.shunt, 0 < r.P) ∧ ∀ L ∈ args.loops,
          (∀ ix ∈ L, 0 < ix ∧ ix ≤ frames.sent.branch.length) ∧ ∃ ix ∈ L, ∃ i, branchAt frames.sent.branch.length ix = some i ∧
            (msg.branchKind i = "switch" ∨ msg.branchStatus i ≠ 1 ∨ AtFault msg i)) := by
  obtain ⟨frames', indices, hframes', hgen, rfl, hix⟩ := getIslandingData_indices h
  cases hframes'.symm.trans hframes
  exact ⟨frames.sent.payload indices, serverReads_payload hc hwords hframes hfloats hbuses hix,
    fun draws args hargs => feasible_payload hpad hs hframes hgen hix hargs⟩

end

/-! ## The small feeder -/

theorem smallFeeder_padded : smallFeeder.EndsPadded := by
  simp only [Network.EndsPadded, smallFeeder, List.forall_mem_cons, List.not_mem_nil, false_imp_iff, implies_true, and_true]
  exact ⟨⟨⟨12, by decide +kernel⟩, ⟨12, by decide +kernel⟩⟩, ⟨⟨101, by decide +kernel⟩, ⟨12, by decide +kernel⟩⟩,
    ⟨⟨12, by decide +kernel⟩, ⟨1003, by decide +kernel⟩⟩⟩

theorem smallFeeder_sane : smallFeeder.Sane := by
  constructor <;> norm_num [smallFeeder]

/-- The float a number is, if it is one. -/
def floatOf : Num ℚ → Option ℚ
  | .float x => some x
  | .int _ => none

/-- The readings are a few doubles, the load draws power, and there are three buses. -/
theorem smallFeeder_frames {frames : Frames ℚ} (hframes : smallFeeder.frames = .ok frames) :
    frames.FloatsIn {1 / 10, 1 / 2, 1} ∧ (∃ r ∈ frames.shunt, 0 < r.P) ∧ (sortedBuses frames.sent.branch).length = 3 := by
  have hrows : (smallFeeder.frames.toOption.map fun frames => (frames.gen.map (floatOf ·.Pmax),
      frames.bat.map fun r => (r.Pmax, r.Emax, r.soc), frames.shunt.map (·.P), (sortedBuses frames.sent.branch).length)) =
      some ([some 1, none], [(1, 1, 1)], [1 / 2], 3) := by
    decide +kernel
  rw [hframes] at hrows
  simp only [Except.toOption, Option.map_some, Option.some.injEq, Prod.mk.injEq] at hrows
  obtain ⟨hgen, hbat, hshunt, hcount⟩ := hrows
  refine ⟨⟨fun r hr x hx => ?_, fun r hr => ?_, fun r hr => ?_⟩, ?_, hcount⟩
  · have hmem := List.mem_map_of_mem (f := fun r : GenRow ℚ => floatOf r.Pmax) hr
    rw [hgen, hx] at hmem
    have hone : x = 1 := by simpa [floatOf] using hmem
    simp [hone]
  · have hmem := List.mem_map_of_mem (f := fun r : BatRow ℚ => (r.Pmax, r.Emax, r.soc)) hr
    rw [hbat, List.mem_singleton] at hmem
    injection hmem with hP hmem
    injection hmem with hE hsoc
    simp [hP, hE, hsoc]
  · have hmem := List.mem_map_of_mem (f := ShuntRow.P) hr
    rw [hshunt, List.mem_singleton] at hmem
    simp [hmem]
  · obtain ⟨r, hr, hP⟩ := List.mem_map.1 (show 1 / 2 ∈ frames.shunt.map (·.P) by simp [hshunt])
    exact ⟨r, hr, by rw [hP]; norm_num⟩

/-- The server reads the request with bus 101 at fault, and finds no loop in it. -/
theorem smallFeeder_loopless {data : Datadump} {mapback : Dict ℕ ℕ}
    (hdata : getIslandingData fewDoubles smallFeeder [supernodeName 101] = .ok (data, mapback)) :
    ∃ frames indices args, smallFeeder.frames = .ok frames ∧ frames.gen ≠ [] ∧
      IndicesOf (busmap frames.sent.branch) frames.sent [supernodeName 101] indices ∧
      ServerReads parseFew data (fun i => (frames.sent.branch.get i).id) (frames.sent.payload indices) ∧
      islandingArgs (frames.sent.payload indices) (fun _ _ => 0) = .ok args ∧ args.loops = [] := by
  have hloops : (smallFeeder.frames.toOption.bind fun frames =>
      (frames.sent.indices (busmap frames.sent.branch) [supernodeName 101]).toOption.bind fun indices =>
        (islandingArgs (frames.sent.payload indices) fun _ _ => 0).toOption.map (·.loops)) = some [] := by
    decide +kernel
  obtain ⟨frames, _, hframes, hgen, -, -⟩ := getIslandingData_indices hdata
  obtain ⟨frames', hframes', hdata⟩ := bind_ok.1 hdata
  cases hframes'.symm.trans hframes
  obtain ⟨_, -, hdata⟩ := bind_ok.1 hdata
  obtain ⟨_, -, hdata⟩ := bind_ok.1 hdata
  obtain ⟨indices, hindices, hdata⟩ := bind_ok.1 hdata
  cases hdata
  obtain ⟨hfloats, -, hcount⟩ := smallFeeder_frames hframes
  have hix := indicesOf hindices
  have hwords : ∀ b ∈ smallFeeder.branches.rows, IsWord b.name := by decide +kernel
  have hread := serverReads_payload fewDoubles_codec hwords hframes hfloats (by rw [hcount]; norm_num) hix
  rw [hframes, Except.toOption, Option.bind_some, hindices, Except.toOption, Option.bind_some] at hloops
  obtain ⟨args, hargs, hloops⟩ := Option.map_eq_some_iff.1 hloops
  exact ⟨frames, indices, args, hframes, hgen, hix, hread, toOption_eq_some.1 hargs, hloops⟩

/-- The feeder's load draws power and there is no loop, so its request is answered. -/
theorem smallFeeder_answered : ∃ data mapback frames,
    getIslandingData fewDoubles smallFeeder [supernodeName 101] = .ok (data, mapback) ∧ smallFeeder.frames = .ok frames ∧
    ∃ msg : VIPayload ℚ frames.sent.branch.length frames.sent.gen.length frames.sent.bat.length frames.sent.shunt.length,
      ServerReads parseFew data (fun i => (frames.sent.branch.get i).id) msg ∧
      ∃ args, islandingArgs msg (fun _ _ => 0) = .ok args ∧ args.loops = [] ∧ ∃ p, Feasible args p := by
  have hrun : (getIslandingData fewDoubles smallFeeder [supernodeName 101]).toOption.isSome = true := by decide +kernel
  obtain ⟨⟨data, mapback⟩, hdata⟩ := Option.isSome_iff_exists.1 hrun
  rw [toOption_eq_some] at hdata
  obtain ⟨frames, indices, args', hframes, -, -, hread', hargs', hloops'⟩ := smallFeeder_loopless hdata
  obtain ⟨hfloats, hload, hcount⟩ := smallFeeder_frames hframes
  obtain ⟨msg, hread, hanswer⟩ := request_answered_iff fewDoubles parseFew _ smallFeeder [supernodeName 101] data mapback frames
    fewDoubles_codec smallFeeder_padded (by decide +kernel) hframes hfloats (by rw [hcount]; norm_num) smallFeeder_sane hdata
  obtain ⟨args, hargs, hloops⟩ := hread.loops_eq hread' hargs'
  rw [hloops'] at hloops
  refine ⟨data, mapback, frames, hdata, hframes, msg, hread, args, hargs, hloops, (hanswer _ args hargs).2 ⟨hload, ?_⟩⟩
  rw [hloops]
  simp

end Grip.Islanding
