/-
The renumbering of buses. When the first digits in the names of the branches' ends are padded numbers,
different strings are different numbers, so `busmap` numbers the end points of the branches sent from 1
to their count; the server counts the same buses in the columns it reads, and mapping its reply back
restores the numbers. Indices that are looked up in `busmap` are in range whatever the names are.
-/
import GripAbsorption.Islanding.Payload

namespace Grip.Islanding

open Grip.Base

variable {K : Type} [Field K] [LinearOrder K]

/-! ## Names -/

/-- The first digits of the name are a padded number. -/
def Padded (name : Text) : Prop := ∃ n, digitRun name = some (pad3 n)

/-- The number of the bus in a name. -/
def busNumber (name : Text) : Option ℕ := (digitRun name).map intOf

theorem digitRun_supernodeName (n : ℕ) : digitRun (supernodeName n) = some (pad3 n) := by
  have hnone : "supernode_".toList.all (fun c => !c.isDigit) = true := by decide +kernel
  unfold supernodeName
  rw [digitRun_append fun c hc => by simpa using List.all_eq_true.1 hnone c hc, digitRun_pad3]

/-- Padded strings are equal when their numbers are. -/
theorem eq_of_padded {name name' s s' : Text} (h : Padded name) (h' : Padded name') (hs : digitRun name = some s)
    (hs' : digitRun name' = some s') (he : intOf s = intOf s') : s = s' := by
  obtain ⟨n, hn⟩ := h
  obtain ⟨n', hn'⟩ := h'
  rw [hn] at hs
  rw [hn'] at hs'
  cases hs
  cases hs'
  rw [intOf_pad3, intOf_pad3] at he
  rw [he]

/-- The branches between different buses, in the order of the message. -/
def Network.sentBranches (net : Network K) : List BranchObject :=
  net.branchObjects.filter fun b => busNumber b.toNode ≠ busNumber b.fromNode

/-- The numbers of the buses that are end points of branches between different buses. -/
def Network.ends (net : Network K) : Set ℕ :=
  {n | ∃ b ∈ net.sentBranches, busNumber b.toNode = some n ∨ busNumber b.fromNode = some n}

/-- The first digits in the names of the branches' ends are padded numbers. -/
def Network.EndsPadded (net : Network K) : Prop := ∀ b ∈ net.branches.rows, Padded b.toNode ∧ Padded b.fromNode

/-! ## The branches sent -/

/-- The row of a branch. -/
structure RowOf (b : BranchObject) (r : BranchRow) : Prop where
  id : r.id = b.name
  t : digitRun b.toNode = some r.t
  f : digitRun b.fromNode = some r.f

theorem RowOf.busNumber {b : BranchObject} {r : BranchRow} (h : RowOf b r) :
    busNumber b.toNode = some (intOf r.t) ∧ busNumber b.fromNode = some (intOf r.f) := by
  unfold Islanding.busNumber
  rw [h.t, h.f]
  exact ⟨rfl, rfl⟩

theorem rowOf_branchRow {b : BranchObject} {r : BranchRow} (h : branchRow b = .ok r) : RowOf b r := by
  obtain ⟨t, ht, h⟩ := bind_ok.1 h
  obtain ⟨f, hf, h⟩ := bind_ok.1 h
  obtain ⟨status, -, h⟩ := bind_ok.1 h
  cases h
  exact ⟨rfl, orRaise_eq_ok.1 ht, orRaise_eq_ok.1 hf⟩

omit [Field K] [LinearOrder K] in
theorem mem_branchObjects {net : Network K} {b : BranchObject} (h : b ∈ net.branchObjects) : b ∈ net.branches.rows := by
  obtain ⟨cl, -, hb⟩ := List.mem_flatMap.1 h
  exact List.mem_of_mem_filter hb

variable {net : Network K} {frames : Frames K}

/-- The rows of the frames, by the objects they are read from. -/
structure Network.Collected (net : Network K) (frames : Frames K) : Prop where
  branch : net.branchObjects.mapM branchRow = .ok frames.branch
  gen : ∃ pvs swing, net.solars.rows.mapM solarRow = .ok pvs ∧
    (net.supernodes.filter (·.bustype = "SWING".toList)).mapM swingRow = .ok swing ∧
    frames.gen = (Table.ofList GenRow.id (pvs ++ swing)).rows
  bat : net.batteries.rows.mapM batRow = .ok frames.bat

omit [LinearOrder K] in
theorem frames_collected (h : net.frames = .ok frames) : net.Collected frames := by
  obtain ⟨branch, hbranch, h⟩ := bind_ok.1 h
  obtain ⟨power, -, h⟩ := bind_ok.1 h
  obtain ⟨shunt, -, h⟩ := bind_ok.1 h
  obtain ⟨pvs, hpvs, h⟩ := bind_ok.1 h
  obtain ⟨bat, hbat, h⟩ := bind_ok.1 h
  obtain ⟨swing, hswing, h⟩ := bind_ok.1 h
  cases h
  exact ⟨hbranch, ⟨pvs, swing, hpvs, hswing, rfl⟩, hbat⟩

omit [LinearOrder K] in
/-- The frame of branches, row by row. -/
theorem frames_branch (h : net.frames = .ok frames) : List.Forall₂ RowOf net.branchObjects frames.branch :=
  (forall₂_of_mapM (frames_collected h).branch).imp fun _ _ => rowOf_branchRow

/-- The branches sent are those whose numbers differ. -/
theorem sent_branch (hpad : net.EndsPadded) (h : net.frames = .ok frames) :
    List.Forall₂ RowOf net.sentBranches frames.sent.branch := by
  have hrows := frames_branch h
  have hall : List.Forall₂ (fun b r => RowOf b r ∧ Padded b.toNode ∧ Padded b.fromNode) net.branchObjects frames.branch :=
    List.forall₂_iff_zip.2 ⟨hrows.length_eq, fun hz =>
      ⟨List.forall₂_zip hrows hz, hpad _ (mem_branchObjects (List.of_mem_zip hz).1)⟩⟩
  -- the source compares strings; padded strings differ exactly when their numbers do
  refine (List.rel_filter (fun b r hb => ?_) hall).imp fun b r hb => hb.1
  obtain ⟨hbr, hto, hfrom⟩ := hb
  change decide (busNumber b.toNode ≠ busNumber b.fromNode) = true ↔ decide (r.t ≠ r.f) = true
  rw [decide_eq_true_eq, decide_eq_true_eq, hbr.busNumber.1, hbr.busNumber.2, ne_eq, Option.some_inj]
  exact not_congr ⟨eq_of_padded hto hfrom hbr.t hbr.f, congrArg intOf⟩

/-! ## The numbering -/

theorem mem_sortedBuses {branch : List BranchRow} {n : ℕ} :
    n ∈ sortedBuses branch ↔ ∃ r ∈ branch, intOf r.t = n ∨ intOf r.f = n := by
  unfold sortedBuses
  simp only [List.mem_map, List.mem_insertionSort, List.mem_eraseDups, List.mem_append]
  constructor
  · rintro ⟨s, ⟨r, hr, rfl⟩ | ⟨r, hr, rfl⟩, rfl⟩
    exacts [⟨r, hr, .inl rfl⟩, ⟨r, hr, .inr rfl⟩]
  · rintro ⟨r, hr, rfl | rfl⟩
    exacts [⟨r.t, .inl ⟨r, hr, rfl⟩, rfl⟩, ⟨r.f, .inr ⟨r, hr, rfl⟩, rfl⟩]

/-- The strings of the columns come from padded names. -/
theorem padded_column (hpad : net.EndsPadded) (h : net.frames = .ok frames) {s : Text}
    (hs : s ∈ frames.sent.branch.map (·.t) ++ frames.sent.branch.map (·.f)) :
    ∃ name, Padded name ∧ digitRun name = some s := by
  have hrows := sent_branch hpad h
  have hmem : ∀ b ∈ net.sentBranches, b ∈ net.branches.rows := fun b hb =>
    mem_branchObjects (List.mem_of_mem_filter hb)
  rcases List.mem_append.1 hs with hs | hs
  · obtain ⟨r, hr, rfl⟩ := List.mem_map.1 hs
    obtain ⟨b, hb, hbr⟩ := mem_of_forall₂ hrows hr
    exact ⟨b.toNode, (hpad b (hmem b hb)).1, hbr.t⟩
  · obtain ⟨r, hr, rfl⟩ := List.mem_map.1 hs
    obtain ⟨b, hb, hbr⟩ := mem_of_forall₂ hrows hr
    exact ⟨b.fromNode, (hpad b (hmem b hb)).2, hbr.f⟩

theorem nodup_sortedBuses (hpad : net.EndsPadded) (h : net.frames = .ok frames) :
    (sortedBuses frames.sent.branch).Nodup := by
  unfold sortedBuses
  refine List.Nodup.map_on (fun s hs s' hs' he => ?_) ((List.perm_insertionSort _ _).nodup_iff.2 (nodup_eraseDups _))
  rw [List.mem_insertionSort, List.mem_eraseDups] at hs hs'
  obtain ⟨name, hname, hrun⟩ := padded_column hpad h hs
  obtain ⟨name', hname', hrun'⟩ := padded_column hpad h hs'
  exact eq_of_padded hname hname' hrun hrun' he

/-- The buses numbered are the end points of the branches sent. -/
theorem mem_sortedBuses_iff_ends (hpad : net.EndsPadded) (h : net.frames = .ok frames) {n : ℕ} :
    n ∈ sortedBuses frames.sent.branch ↔ n ∈ net.ends := by
  have hrows := sent_branch hpad h
  have hnumber : ∀ {b r}, RowOf b r →
      (busNumber b.toNode = some n ↔ intOf r.t = n) ∧ (busNumber b.fromNode = some n ↔ intOf r.f = n) := by
    intro b r hbr
    rw [hbr.busNumber.1, hbr.busNumber.2, Option.some_inj, Option.some_inj]
    exact ⟨Iff.rfl, Iff.rfl⟩
  rw [mem_sortedBuses]
  constructor
  · rintro ⟨r, hr, hn⟩
    obtain ⟨b, hb, hbr⟩ := mem_of_forall₂ hrows hr
    exact ⟨b, hb, hn.imp (hnumber hbr).1.2 (hnumber hbr).2.2⟩
  · rintro ⟨b, hb, hn⟩
    obtain ⟨r, hr, hbr⟩ := mem_of_forall₂ hrows.flip hb
    exact ⟨r, hr, hn.imp (hnumber hbr).1.1 (hnumber hbr).2.1⟩

/-- `busmap` numbers the end points of the branches sent. -/
theorem busmap_numbers (hpad : net.EndsPadded) (h : net.frames = .ok frames) :
    Numbers (busmap frames.sent.branch) net.ends (sortedBuses frames.sent.branch).length := by
  have hends : net.ends = {n | n ∈ sortedBuses frames.sent.branch} :=
    Set.ext fun n => (mem_sortedBuses_iff_ends hpad h).symm
  rw [hends]
  exact numbers_numbering (nodup_sortedBuses hpad h)

/-! ## The indices -/

/-- The indices are those of the tables' buses. -/
structure IndicesOf (busmap : Dict ℕ ℕ) (frames : Frames K) (faultedNodes : List Text) (indices : Indices) : Prop where
  t : List.Forall₂ (fun r i => busmap.get? (intOf r.t) = some i) frames.branch indices.t
  f : List.Forall₂ (fun r i => busmap.get? (intOf r.f) = some i) frames.branch indices.f
  gen : List.Forall₂ (fun r i => busmap.get? (intOf r.bus) = some i) frames.gen indices.gen
  bat : List.Forall₂ (fun r i => busmap.get? (intOf r.bus) = some i) frames.bat indices.bat
  shunt : List.Forall₂ (fun r i => busmap.get? (intOf r.bus) = some i) frames.shunt indices.shunt
  fnodes : List.Forall₂ (fun name i => ∃ s, digitRun name = some s ∧ busmap.get? (intOf s) = some i) faultedNodes indices.fnodes

theorem forall₂_busIndex {α : Type} {busmap : Dict ℕ ℕ} {bus : α → Text} {l : List α} {is : List ℕ}
    (h : l.mapM (fun a => busIndex busmap (bus a)) = .ok is) :
    List.Forall₂ (fun a i => busmap.get? (intOf (bus a)) = some i) l is :=
  (forall₂_of_mapM h).imp fun _ _ h => orRaise_eq_ok.1 h

omit [Field K] [LinearOrder K] in
theorem indicesOf {busmap : Dict ℕ ℕ} {faultedNodes : List Text} {indices : Indices}
    (h : frames.indices busmap faultedNodes = .ok indices) : IndicesOf busmap frames faultedNodes indices := by
  obtain ⟨t, ht, h⟩ := bind_ok.1 h
  obtain ⟨f, hf, h⟩ := bind_ok.1 h
  obtain ⟨_, -, h⟩ := bind_ok.1 h
  obtain ⟨gen, hgen, h⟩ := bind_ok.1 h
  obtain ⟨_, -, h⟩ := bind_ok.1 h
  obtain ⟨bat, hbat, h⟩ := bind_ok.1 h
  obtain ⟨shunt, hshunt, h⟩ := bind_ok.1 h
  obtain ⟨fnodes, hfnodes, h⟩ := bind_ok.1 h
  cases h
  refine ⟨forall₂_busIndex ht, forall₂_busIndex hf, forall₂_busIndex hgen, forall₂_busIndex hbat,
    forall₂_busIndex hshunt, (forall₂_of_mapM hfnodes).imp fun name i h => ?_⟩
  obtain ⟨s, hs, h⟩ := bind_ok.1 h
  exact ⟨s, orRaise_eq_ok.1 hs, orRaise_eq_ok.1 h⟩

theorem getIslandingData_spec {str : K → Text} {faultedNodes : List Text} {data : Datadump} {mapback : Dict ℕ ℕ}
    (h : getIslandingData str net faultedNodes = .ok (data, mapback)) : ∃ frames indices, net.frames = .ok frames ∧
      IndicesOf (busmap frames.sent.branch) frames.sent faultedNodes indices ∧
      data = datadump str frames.sent indices ∧ mapback = inverse (busmap frames.sent.branch) := by
  obtain ⟨frames, hframes, h⟩ := bind_ok.1 h
  obtain ⟨_, -, h⟩ := bind_ok.1 h
  obtain ⟨_, -, h⟩ := bind_ok.1 h
  obtain ⟨indices, hindices, h⟩ := bind_ok.1 h
  cases h
  exact ⟨frames, indices, hframes, indicesOf hindices, rfl, rfl⟩

/-! ## The server's side -/

section

variable {faultedNodes : List Text} {indices : Indices}

omit [Field K] [LinearOrder K] in
/-- Every index sent is in range. -/
theorem IndicesOf.range {branch : List BranchRow} (h : IndicesOf (busmap branch) frames faultedNodes indices) :
    ∀ column ∈ [indices.t, indices.f, indices.gen, indices.bat, indices.shunt, indices.fnodes],
      ∀ i ∈ column, i ∈ Set.Icc 1 (sortedBuses branch).length := by
  have hcolumn : ∀ {α : Type} {R : α → ℕ → Prop} {l : List α} {is : List ℕ}, List.Forall₂ R l is →
      (∀ a i, R a i → ∃ b, (busmap branch).get? b = some i) → ∀ i ∈ is, i ∈ Set.Icc 1 (sortedBuses branch).length := by
    intro α R l is hl hR i hi
    obtain ⟨a, -, ha⟩ := mem_of_forall₂ hl hi
    obtain ⟨b, hb⟩ := hR a i ha
    exact mem_Icc_of_numbering hb
  intro column hc
  simp only [List.mem_cons, List.not_mem_nil, or_false] at hc
  rcases hc with rfl | rfl | rfl | rfl | rfl | rfl
  · exact hcolumn h.t fun r i hr => ⟨_, hr⟩
  · exact hcolumn h.f fun r i hr => ⟨_, hr⟩
  · exact hcolumn h.gen fun r i hr => ⟨_, hr⟩
  · exact hcolumn h.bat fun r i hr => ⟨_, hr⟩
  · exact hcolumn h.shunt fun r i hr => ⟨_, hr⟩
  · exact hcolumn h.fnodes fun name i ⟨s, _, hs⟩ => ⟨_, hs⟩

/-- Every number from 1 on is the index of an end of some branch. -/
theorem mem_indices_iff (hpad : net.EndsPadded) (hf : net.frames = .ok frames)
    (h : IndicesOf (busmap frames.sent.branch) frames.sent faultedNodes indices) (i : ℕ) :
    i ∈ indices.t ++ indices.f ↔ i ∈ Set.Icc 1 (sortedBuses frames.sent.branch).length := by
  have hn := busmap_numbers hpad hf
  have hrange := h.range
  rw [List.mem_append]
  constructor
  · rintro (hi | hi)
    exacts [hrange indices.t (by simp) i hi, hrange indices.f (by simp) i hi]
  · intro hi
    -- the number was given to a bus, and some row has that bus as an end
    obtain ⟨b, hb⟩ := (hn.range i).1 hi
    have hmem : b ∈ sortedBuses frames.sent.branch := (mem_sortedBuses_iff_ends hpad hf).2 ((hn.mem b).2 ⟨i, hb⟩)
    obtain ⟨r, hr, rfl | rfl⟩ := mem_sortedBuses.1 hmem
    · obtain ⟨j, hj, hrj⟩ := mem_of_forall₂ h.t.flip hr
      cases hrj.symm.trans hb
      exact .inl hj
    · obtain ⟨j, hj, hrj⟩ := mem_of_forall₂ h.f.flip hr
      cases hrj.symm.trans hb
      exact .inr hj

theorem eq_of_readInts {l l' : List ℕ} (h : readInts (convert natText l) = some (l'.map Int.ofNat)) : l' = l :=
  List.map_injective_iff.2 Int.ofNat_injective (readInts_join_natText.1 h).1

omit [LinearOrder K] in
/-- The server can read indices that fit. -/
theorem exists_readsIndices (str : K → Text) (frames : Frames K) (hlen : indices.t.length = indices.f.length)
    (hfit : ∀ column ∈ [indices.t, indices.f, indices.gen, indices.bat, indices.shunt, indices.fnodes],
      ∀ i ∈ column, i < 2 ^ 63) :
    ∃ (nbr ng nb nd : ℕ) (msg : VIPayload K nbr ng nb nd), ReadsIndices (datadump str frames indices) msg := by
  have hread : ∀ {column : List ℕ}, (∀ i ∈ column, i < 2 ^ 63) → ∀ {l : List ℕ}, l = column →
      readInts (convert natText column) = some (l.map Int.ofNat) := by
    rintro column hc l rfl
    exact readInts_join_natText.2 ⟨rfl, hc⟩
  have hF : List.ofFn (fun i : Fin indices.t.length => indices.f.get (i.cast hlen)) = indices.f :=
    List.ext_getElem (by rw [List.length_ofFn, hlen]) fun i _ _ => by simp
  -- only the index columns matter here, so the other columns are anything
  refine ⟨indices.t.length, indices.gen.length, indices.bat.length, indices.shunt.length,
    { branchT := indices.t.get
      branchF := fun i => indices.f.get (i.cast hlen)
      branchStatus := fun _ => 0
      branchKind := fun _ => ""
      genBus := indices.gen.get
      genPmin := fun _ => 0
      genStatus := fun _ => 0
      genPmax := fun _ => 0
      genSolar := fun _ => 0
      batBus := indices.bat.get
      batStatus := fun _ => 0
      batPmax := fun _ => 0
      batEmax := fun _ => 0
      batSoc := fun _ => 0
      shuntBus := indices.shunt.get
      shuntP := fun _ => 0
      faultedNodes := indices.fnodes }, ?_⟩
  constructor
  · exact hread (hfit _ (by simp)) (List.ofFn_get _)
  · exact hread (hfit _ (by simp)) hF
  · exact hread (hfit _ (by simp)) (List.ofFn_get _)
  · exact hread (hfit _ (by simp)) (List.ofFn_get _)
  · exact hread (hfit _ (by simp)) (List.ofFn_get _)
  · exact hread (hfit _ (by simp)) rfl

/-- The row has the bus numbers of the branch. -/
structure Restored (b : BranchObject) (r : ResultRow) : Prop where
  t : busNumber b.toNode = some r.t
  f : busNumber b.fromNode = some r.f

/-- The reply, mapped back, has the bus numbers of the branches sent. -/
theorem mapBack_reply (hpad : net.EndsPadded) (hf : net.frames = .ok frames)
    (h : IndicesOf (busmap frames.sent.branch) frames.sent faultedNodes indices) {reply : List ResultRow}
    (ht : reply.map (·.t) = indices.t) (hfr : reply.map (·.f) = indices.f) :
    ∃ results, mapBack (inverse (busmap frames.sent.branch)) reply = .ok results ∧
      List.Forall₂ Restored net.sentBranches results ∧ results.map (·.id) = reply.map (·.id) := by
  have hn := busmap_numbers hpad hf
  -- each row of the reply has the indices sent for its branch
  have hbranch : List.Forall₂ (fun b row => ∃ t f, busNumber b.toNode = some t ∧ busNumber b.fromNode = some f ∧
      (inverse (busmap frames.sent.branch)).get? row.t = some t ∧
      (inverse (busmap frames.sent.branch)).get? row.f = some f) net.sentBranches reply := by
    have hT := h.t
    have hF := h.f
    rw [← ht, List.forall₂_map_right_iff] at hT
    rw [← hfr, List.forall₂_map_right_iff] at hF
    have hrows := List.Forall₂.mp (fun r row hT hF => And.intro hT hF) hT hF
    refine (forall₂_comp (sent_branch hpad hf) hrows).imp fun b row ⟨r, hbr, hrt, hrf⟩ => ?_
    exact ⟨intOf r.t, intOf r.f, hbr.busNumber.1, hbr.busNumber.2, hn.get?_inverse.2 hrt, hn.get?_inverse.2 hrf⟩
  obtain ⟨results, hresults⟩ : ∃ results, mapBack (inverse (busmap frames.sent.branch)) reply = .ok results := by
    refine exists_mapM fun row hrow => ?_
    obtain ⟨b, -, t, f, -, -, ht, hf⟩ := mem_of_forall₂ hbranch hrow
    exact ⟨{ row with t, f }, by unfold mapBackRow; rw [ht, hf]; rfl⟩
  have hback := forall₂_of_mapM hresults
  have hrestored : List.Forall₂ Restored net.sentBranches results := by
    refine (forall₂_comp hbranch hback).imp fun b r ⟨row, ⟨t, f, hbt, hbf, hrt, hrf⟩, hmap⟩ => ?_
    unfold mapBackRow at hmap
    rw [hrt, hrf] at hmap
    cases hmap
    exact ⟨hbt, hbf⟩
  refine ⟨results, hresults, hrestored, ?_⟩
  rw [← List.forall₂_eq_eq_eq, List.forall₂_map_left_iff, List.forall₂_map_right_iff]
  refine hback.flip.imp fun r row hmap => ?_
  obtain ⟨t, -, hmap⟩ := bind_ok.1 hmap
  obtain ⟨f, -, hmap⟩ := bind_ok.1 hmap
  cases hmap
  rfl

/-- Names without white space are read as they are. -/
theorem names_read (hpad : net.EndsPadded) (hf : net.frames = .ok frames)
    (hwords : ∀ b ∈ net.branches.rows, IsWord b.name) :
    split (convert id (frames.sent.branch.map (·.id))) = net.sentBranches.map (·.name) := by
  have hids : frames.sent.branch.map (·.id) = net.sentBranches.map (·.name) := by
    rw [← List.forall₂_eq_eq_eq, List.forall₂_map_left_iff, List.forall₂_map_right_iff]
    exact (sent_branch hpad hf).flip.imp fun r b hbr => hbr.id
  unfold convert
  rw [List.map_id, hids]
  refine split_join fun w hw => ?_
  obtain ⟨b, hb, rfl⟩ := List.mem_map.1 hw
  exact hwords b (mem_branchObjects (List.mem_of_mem_filter hb))

/-- The server counts the buses that were numbered. -/
theorem nBus_sent (hpad : net.EndsPadded) (hf : net.frames = .ok frames)
    (h : IndicesOf (busmap frames.sent.branch) frames.sent faultedNodes indices) {str : K → Text} {nbr ng nb nd : ℕ}
    {msg : VIPayload K nbr ng nb nd} (hreads : ReadsIndices (datadump str frames.sent indices) msg)
    (loops : List (List ℕ)) :
    ((readVIPayload msg).outages.coreArgs loops).nBus = (sortedBuses frames.sent.branch).length := by
  change (busList msg.branchT msg.branchF).length = _
  unfold busList
  rw [eq_of_readInts hreads.T, eq_of_readInts hreads.F]
  exact length_eraseDups_of_mem_iff (mem_indices_iff hpad hf h)

/-- The server's reply, mapped back, has the numbers of the branches sent and the ids the server read. -/
theorem mapBack_branchResults (hpad : net.EndsPadded) (hf : net.frames = .ok frames)
    (h : IndicesOf (busmap frames.sent.branch) frames.sent faultedNodes indices) {str : K → Text} {nbr ng nb nd : ℕ}
    {msg : VIPayload K nbr ng nb nd} (hreads : ReadsIndices (datadump str frames.sent indices) msg)
    (names : Fin nbr → Text) (loops : List (List ℕ)) (p : Plan K nbr ng nb nd) : ∃ results,
      mapBack (inverse (busmap frames.sent.branch))
        (branchResults names msg ((readVIPayload msg).outages.coreArgs loops) p) = .ok results ∧
      List.Forall₂ Restored net.sentBranches results ∧ results.map (·.id) = List.ofFn names := by
  set reply := branchResults names msg ((readVIPayload msg).outages.coreArgs loops) p with hreply
  have ht : reply.map (·.t) = indices.t := by
    rw [hreply, branchResults, List.map_ofFn, ← eq_of_readInts hreads.T]
    rfl
  have hf' : reply.map (·.f) = indices.f := by
    rw [hreply, branchResults, List.map_ofFn, ← eq_of_readInts hreads.F]
    rfl
  have hids : reply.map (·.id) = List.ofFn names := by
    rw [hreply, branchResults, List.map_ofFn]
    rfl
  rw [← hids]
  exact mapBack_reply hpad hf h ht hf'

/-- The renumbering is a bijection onto 1 to `n`, every index sent is in range, the server counts `n` buses in what it
reads, and the reply mapped back has the original numbers. -/
theorem busmap_agrees (str : K → Text) (net : Network K) (faultedNodes : List Text) (data : Datadump) (mapback : Dict ℕ ℕ)
    (hpad : net.EndsPadded) (h : getIslandingData str net faultedNodes = .ok (data, mapback)) :
    ∃ branch : List BranchRow, (∃ frames, net.frames = .ok frames ∧ branch = frames.sent.branch) ∧
      (∀ b, b ∈ (busmap branch).keys ↔ b ∈ net.ends) ∧
      Set.BijOn (fun b => ((busmap branch).get? b).getD 0) net.ends (Set.Icc 1 (sortedBuses branch).length) ∧
      (∀ column ∈ data.indexColumns, ∃ l : List ℕ, column = convert natText l ∧
        ∀ i ∈ l, i ∈ Set.Icc 1 (sortedBuses branch).length) ∧
      ((sortedBuses branch).length < 2 ^ 63 →
        ∃ (nbr ng nb nd : ℕ) (msg : VIPayload K nbr ng nb nd), ReadsIndices data msg) ∧
      ∀ (nbr ng nb nd : ℕ) (msg : VIPayload K nbr ng nb nd) (loops : List (List ℕ)), ReadsIndices data msg →
        ((readVIPayload msg).outages.coreArgs loops).nBus = (sortedBuses branch).length ∧
        ∀ (names : Fin nbr → Text) (p : Plan K nbr ng nb nd), ∃ results,
          mapBack mapback (branchResults names msg ((readVIPayload msg).outages.coreArgs loops) p) = .ok results ∧
          List.Forall₂ Restored net.sentBranches results ∧
          ((∀ b ∈ net.branches.rows, IsWord b.name) → split data.branchId = List.ofFn names →
            results.map (·.id) = net.sentBranches.map (·.name)) := by
  obtain ⟨frames, indices, hf, hix, rfl, rfl⟩ := getIslandingData_spec h
  have hn := busmap_numbers hpad hf
  have hrange := hix.range
  refine ⟨frames.sent.branch, ⟨frames, hf, rfl⟩, fun b => ?_, hn.bijOn, fun column hc => ?_, fun hfit => ?_, ?_⟩
  · rw [hn.mem, Dict.mem_keys_iff]
  · simp only [Datadump.indexColumns, datadump, List.mem_cons, List.not_mem_nil, or_false] at hc
    rcases hc with rfl | rfl | rfl | rfl | rfl | rfl
    exacts [⟨_, rfl, hrange indices.t (by simp)⟩, ⟨_, rfl, hrange indices.f (by simp)⟩,
      ⟨_, rfl, hrange indices.gen (by simp)⟩, ⟨_, rfl, hrange indices.bat (by simp)⟩,
      ⟨_, rfl, hrange indices.shunt (by simp)⟩, ⟨_, rfl, hrange indices.fnodes (by simp)⟩]
  · refine exists_readsIndices str frames.sent (hix.t.length_eq.symm.trans hix.f.length_eq) fun column hc i hi => ?_
    exact lt_of_le_of_lt (hrange column hc i hi).2 hfit
  · intro nbr ng nb nd msg loops hreads
    refine ⟨nBus_sent hpad hf hix hreads loops, fun names p => ?_⟩
    obtain ⟨results, hresults, hrestored, hids⟩ := mapBack_branchResults hpad hf hix hreads names loops p
    refine ⟨results, hresults, hrestored, fun hwords hnames => ?_⟩
    rw [hids, ← names_read hpad hf hwords]
    exact hnames.symm

/-- What is sent for faulted supernodes maps back to them, and no branch sent is a self-loop. -/
theorem mapsBack_sent {str : K → Text} {data : Datadump} {mapback : Dict ℕ ℕ} (hpad : net.EndsPadded)
    (h : getIslandingData str net faultedNodes = .ok (data, mapback))
    (hfaulted : ∀ name ∈ faultedNodes, ∃ b, name = supernodeName b) {nbr ng nb nd : ℕ} {msg : VIPayload K nbr ng nb nd}
    (hreads : ReadsIndices data msg) :
    MapsBack mapback msg.faultedNodes faultedNodes ∧ ∀ i, msg.branchT i ≠ msg.branchF i := by
  obtain ⟨frames, indices, hf, hix, rfl, rfl⟩ := getIslandingData_spec h
  have hn := busmap_numbers hpad hf
  refine ⟨⟨fun i j b hi hj => ?_, fun name hname => ?_⟩, fun i hloop => ?_⟩
  · exact Option.some_inj.1 ((hn.get?_inverse.1 hi).symm.trans (hn.get?_inverse.1 hj))
  · obtain ⟨b, rfl⟩ := hfaulted name hname
    obtain ⟨j, hj, s, hs, hget⟩ := mem_of_forall₂ hix.fnodes.flip hname
    rw [digitRun_supernodeName] at hs
    cases hs
    rw [intOf_pad3] at hget
    have hfn : msg.faultedNodes = indices.fnodes := eq_of_readInts hreads.faultedNodes
    exact ⟨j, hfn ▸ hj, b, hn.get?_inverse.2 hget, rfl⟩
  · -- the row of the branch would have equal strings
    have hT := hix.t
    have hF := hix.f
    rw [← eq_of_readInts hreads.T, List.ofFn_eq_map, List.forall₂_map_right_iff] at hT
    rw [← eq_of_readInts hreads.F, List.ofFn_eq_map, List.forall₂_map_right_iff] at hF
    have hrows := List.Forall₂.mp (fun r i hT hF => And.intro hT hF) hT hF
    obtain ⟨r, hr, ht, hf'⟩ := mem_of_forall₂ hrows (List.mem_finRange i)
    rw [← hloop] at hf'
    have hmem : ∀ s ∈ [r.t, r.f], ∃ name, Padded name ∧ digitRun name = some s := by
      intro s hs
      refine padded_column hpad hf (List.mem_append.2 ?_)
      rcases List.mem_pair.1 hs with rfl | rfl
      exacts [.inl (List.mem_map_of_mem hr), .inr (List.mem_map_of_mem hr)]
    obtain ⟨name, hname, hrun⟩ := hmem r.t (by simp)
    obtain ⟨name', hname', hrun'⟩ := hmem r.f (by simp)
    exact of_decide_eq_true (List.mem_filter.1 hr).2 (eq_of_padded hname hname' hrun hrun' (hn.inj _ _ _ ht hf'))

end

/-! ## A feeder with a self-loop -/

/-- Two switches and a line within supernode 12, with a device of each kind. -/
def smallFeeder : Network ℚ where
  branches := ⟨[⟨"line".toList, .overheadLine, "node_012_a".toList, "node_012_b".toList, "CLOSED".toList⟩,
    ⟨"sw1".toList, .switch, "supernode_101".toList, "supernode_012".toList, "CLOSED".toList⟩,
    ⟨"sw2".toList, .switch, "supernode_012".toList, "supernode_1003".toList, "OPEN".toList⟩], by decide +kernel⟩
  meters := ⟨["meter_101".toList], by decide +kernel⟩
  triplexMeters := [⟨1 / 2, "meter_101".toList⟩]
  solars := ⟨[⟨"solar_012".toList, 1, "ONLINE".toList⟩], by decide +kernel⟩
  batteries := ⟨[⟨"battery_101".toList, some 1, 1, 1, "ONLINE".toList⟩], by decide +kernel⟩
  supernodes := [⟨"supernode_1003".toList, "SWING".toList⟩]

theorem smallFeeder_numbered : ∃ data mapback,
    getIslandingData (fun _ => ['1']) smallFeeder [supernodeName 101] = .ok (data, mapback) ∧ ∃ branch,
      Set.BijOn (fun b => ((busmap branch).get? b).getD 0) smallFeeder.ends (Set.Icc 1 (sortedBuses branch).length) := by
  have hrun : (getIslandingData (fun _ => ['1']) smallFeeder [supernodeName 101]).toOption.isSome = true := by
    decide +kernel
  obtain ⟨⟨data, mapback⟩, hdata⟩ := Option.isSome_iff_exists.1 hrun
  rw [toOption_eq_some] at hdata
  have hpad : smallFeeder.EndsPadded := by
    intro b hb
    simp only [smallFeeder, List.mem_cons, List.not_mem_nil, or_false] at hb
    rcases hb with rfl | rfl | rfl
    · exact ⟨⟨12, by decide +kernel⟩, ⟨12, by decide +kernel⟩⟩
    · exact ⟨⟨101, by decide +kernel⟩, ⟨12, by decide +kernel⟩⟩
    · exact ⟨⟨12, by decide +kernel⟩, ⟨1003, by decide +kernel⟩⟩
  obtain ⟨branch, -, -, hbij, -⟩ := busmap_agrees _ smallFeeder _ data mapback hpad hdata
  exact ⟨data, mapback, hdata, branch, hbij⟩

end Grip.Islanding
