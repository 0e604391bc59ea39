/-
What a reply does to the network. The scheme is armed with the names of the branches whose status in the plan is
not the one GridLAB-D had; when these are toggled every branch has its status in the plan, so the islands that are
returned are the components of the network as it then is, without the swing bus's and without the faulted buses.
-/
import GripAbsorption.Islanding.Flags
import GripAbsorption.Islanding.Request
import GripAbsorption.Islanding.Shutoff

namespace Grip.Islanding

open Grip.Base

/-! ## The armed branches -/

/-- The names in the text the scheme is armed with. -/
def armedNames (armed : Text) : List Text := if armed = [] then [] else armed.splitOn '|'

/-- The text is the names with bars between them. -/
theorem armed_toggleSwitches (gld : IslandGld) : ∀ switchlist : List Text,
    (gld.toggleSwitches switchlist).armed = ['|'].intercalate switchlist
  | [] => rfl
  | [s] => by
    rw [List.intercalate_singleton]
    rfl
  | s :: s' :: switchlist => by
    have ih := armed_toggleSwitches gld (s' :: switchlist)
    rw [List.intercalate_cons_cons, ← ih]
    unfold IslandGld.toggleSwitches
    simp

/-- A name that is armed as one. -/
structure IsArmable (name : Text) : Prop where
  word : IsWord name
  noBar : '|' ∉ name

/-- The names are those of the list. -/
theorem armedNames_toggleSwitches (gld : IslandGld) {switchlist : List Text} (h : ∀ s ∈ switchlist, IsArmable s) :
    armedNames (gld.toggleSwitches switchlist).armed = switchlist := by
  rw [armed_toggleSwitches]
  unfold armedNames
  cases switchlist with
  | nil => rfl
  | cons s switchlist =>
    have hne : ['|'].intercalate (s :: switchlist) ≠ [] := by
      cases switchlist with
      | nil =>
        rw [List.intercalate_singleton]
        exact (h s (List.mem_cons_self ..)).word.ne_nil
      | cons s' switchlist =>
        rw [List.intercalate_cons_cons]
        simp
    rw [if_neg hne, List.splitOn_intercalate '|' (fun s hs => (h s hs).noBar) (List.cons_ne_nil _ _)]

/-- The status of a branch when the armed ones are toggled. -/
def toggled (armed : Text) (b : BranchObject) : Bool :=
  if (armedNames armed).any (· = b.name) then !b.closed else b.closed

/-! ## The rows of the reply -/

variable {K : Type} [Field K] [LinearOrder K] {net : Network K} {frames : Frames K} {indices : Indices}
  {faulted : List ℕ} {str : K → Text} {parseFloat : Text → Option K} {nbr ng nb nd : ℕ} {branch : Fin nbr → Text}
  {msg : VIPayload K nbr ng nb nd}

/-- The rows sent are those of the branches sent. -/
theorem sent_rows (hpad : net.EndsPadded) (h : net.frames = .ok frames) :
    List.Forall₂ (fun b r => branchRow b = .ok r) net.sentBranches frames.sent.branch := by
  have hrows := sent_branch hpad h
  refine List.forall₂_iff_zip.2 ⟨hrows.length_eq, fun {b r} hz => ?_⟩
  obtain ⟨hb, hr⟩ := List.of_mem_zip hz
  -- names are unique, so the row is read from the branch of its name
  obtain ⟨b', hb', hrow⟩ := mem_of_mapM (frames_collected h).branch (List.mem_of_mem_filter hr)
  have hname : b.name = b'.name := (List.forall₂_zip hrows hz).id.symm.trans (rowOf_branchRow hrow).id
  rwa [List.inj_on_of_nodup_map net.branches.nodup (mem_branchObjects (List.mem_of_mem_filter hb)) (mem_branchObjects hb') hname]

omit [Field K] [LinearOrder K] in
/-- The numbers sent for the faulted nodes are theirs. -/
theorem mem_fnodes {busmap : Dict ℕ ℕ} (h : IndicesOf busmap frames (faulted.map supernodeName) indices) {i : ℕ} :
    i ∈ indices.fnodes ↔ ∃ b ∈ faulted, busmap.get? b = some i := by
  have hfnodes := List.forall₂_map_left_iff.1 h.fnodes
  constructor
  · intro hi
    obtain ⟨b, hb, s, hs, hget⟩ := mem_of_forall₂ hfnodes hi
    rw [digitRun_supernodeName] at hs
    cases hs
    exact ⟨b, hb, by rwa [intOf_pad3] at hget⟩
  · rintro ⟨b, hb, hget⟩
    obtain ⟨j, hj, s, hs, hget'⟩ := mem_of_forall₂ hfnodes.flip hb
    rw [digitRun_supernodeName] at hs
    cases hs
    rw [intOf_pad3, hget] at hget'
    cases hget'
    exact hj

/-- The server reads the entry `i` of the columns for the row. -/
structure ReadAs (busmap : Dict ℕ ℕ) (branch : Fin nbr → Text) (msg : VIPayload K nbr ng nb nd) (r : BranchRow) (i : Fin nbr) :
    Prop where
  id : r.id = branch i
  T : busmap.get? (intOf r.t) = some (msg.branchT i)
  F : busmap.get? (intOf r.f) = some (msg.branchF i)
  status : r.status = 1 ↔ msg.branchStatus i = 1
  kind : r.kind = "switch".toList ↔ msg.branchKind i = "switch"

omit [Field K] [LinearOrder K] in
theorem forall₂_of_map_eq_ofFn {α β : Type} {l : List α} {n : ℕ} {f : α → β} {g : Fin n → β} (h : l.map f = List.ofFn g) :
    List.Forall₂ (fun a i => f a = g i) l (List.finRange n) := by
  rwa [List.ofFn_eq_map, ← List.forall₂_eq_eq_eq, List.forall₂_map_left_iff, List.forall₂_map_right_iff] at h

/-- A request is read row by row. -/
theorem readAs_of_serverReads (hf : net.frames = .ok frames)
    (hix : IndicesOf (busmap frames.sent.branch) frames.sent (faulted.map supernodeName) indices)
    (hwords : ∀ b ∈ net.branches.rows, IsWord b.name)
    (h : ServerReads parseFloat (datadump str frames.sent indices) branch msg) :
    List.Forall₂ (ReadAs (busmap frames.sent.branch) branch msg) frames.sent.branch (List.finRange nbr) := by
  obtain ⟨R, X, h⟩ := h
  obtain ⟨hbranch, hT, hF, ⟨l, hl, hbrSt⟩, hswitchable, -, -, -⟩ := readColumns_readArrays h
  have hrow : ∀ r ∈ frames.sent.branch, IsWord r.id ∧ IsWord r.kind := fun r hr => by
    obtain ⟨b, hb, hrow⟩ := mem_of_mapM (frames_collected hf).branch (List.mem_of_mem_filter hr)
    exact (branchRow_fits (hwords b (mem_branchObjects hb)) hrow).1
  have hid : frames.sent.branch.map (·.id) = List.ofFn branch :=
    (split_convert (List.forall_mem_map.2 fun r hr => (hrow r hr).1)).symm.trans hbranch.symm
  have hstatus : frames.sent.branch.map (fun r => decide (r.status = 1)) = List.ofFn fun i => decide (msg.branchStatus i = 1) := by
    refine Eq.trans ?_ hbrSt.symm
    rw [(readInts_join.1 hl).1, List.map_map]
    rfl
  have hkind : frames.sent.branch.map (fun r => decide (r.kind = "switch".toList)) =
      List.ofFn fun i => decide (msg.branchKind i = "switch") := by
    refine Eq.trans ?_ hswitchable.symm
    change _ = (split (convert id (frames.sent.branch.map (·.kind)))).map _
    rw [split_convert (List.forall_mem_map.2 fun r hr => (hrow r hr).2), List.map_map]
    rfl
  have hTs := hix.t
  have hFs := hix.f
  rw [← eq_of_readInts hT, List.ofFn_eq_map, List.forall₂_map_right_iff] at hTs
  rw [← eq_of_readInts hF, List.ofFn_eq_map, List.forall₂_map_right_iff] at hFs
  have hends := List.Forall₂.mp (fun _ _ ht hf => And.intro ht hf) hTs hFs
  have hcols := List.Forall₂.mp (fun _ _ hs hk => And.intro hs hk) (forall₂_of_map_eq_ofFn hstatus) (forall₂_of_map_eq_ofFn hkind)
  have hall := List.Forall₂.mp (fun _ _ he hc => And.intro he hc) hends hcols
  refine List.Forall₂.mp (fun r i hid ⟨⟨ht, hf⟩, hs, hk⟩ => ?_) (forall₂_of_map_eq_ofFn hid) hall
  exact ⟨hid, ht, hf, decide_eq_decide.1 hs, decide_eq_decide.1 hk⟩

/-- What a row of the mapped results says of its branch: the plan opens it at a faulted bus, and changes switches only
elsewhere. -/
structure Answers (faulted : List ℕ) (b : BranchObject) (r : ResultRow) : Prop where
  id : r.id = b.name
  t : busNumber b.toNode = some r.t
  f : busNumber b.fromNode = some r.f
  st00 : r.st00 = b.closed
  isolated : r.t ∈ faulted ∨ r.f ∈ faulted → r.st1 = false
  fixed : b.cls ≠ .switch → r.t ∉ faulted → r.f ∉ faulted → r.st1 = b.closed

theorem status_of_branchRow {b : BranchObject} {r : BranchRow} (h : branchRow b = .ok r) :
    (r.status = 1 ↔ b.closed = true) ∧ (b.cls ≠ .switch → r.kind ≠ "switch".toList) := by
  obtain ⟨t, -, h⟩ := bind_ok.1 h
  obtain ⟨f, -, h⟩ := bind_ok.1 h
  obtain ⟨status, hstatus, h⟩ := bind_ok.1 h
  cases h
  refine ⟨?_, fun hcls => ?_⟩
  · unfold BranchObject.closed
    rw [decide_eq_true_eq]
    rw [orRaise_eq_ok] at hstatus
    unfold switchstat at hstatus
    split at hstatus
    · rename_i hclosed
      cases hstatus
      exact iff_of_true rfl hclosed
    · rename_i hclosed
      refine iff_of_false (fun h1 => ?_) hclosed
      split at hstatus
      · cases hstatus
        cases h1
      · cases hstatus
  · change branchkind b.cls ≠ _
    cases hc : b.cls with
    | switch => exact absurd hc hcls
    | overheadLine => decide
    | undergroundLine => decide

variable [IsStrictOrderedRing K] {args : CoreArgs K nbr ng nb nd} {p : Plan K nbr ng nb nd} {results : List ResultRow}
  {data : Datadump} {mapback : Dict ℕ ℕ} {draws : ℕ → ℕ → ℕ}

omit [IsStrictOrderedRing K] in
/-- A reply to a request can be mapped back. -/
theorem exists_mapBack (hpad : net.EndsPadded) (hwords : ∀ b ∈ net.branches.rows, IsWord b.name)
    (h : getIslandingData str net (faulted.map supernodeName) = .ok (data, mapback))
    (hread : ServerReads parseFloat data branch msg) (hargs : islandingArgs msg draws = .ok args) (p : Plan K nbr ng nb nd) :
    ∃ results, mapBack mapback (branchResults branch msg args p) = .ok results := by
  obtain ⟨frames, indices, hf, hix, rfl, rfl⟩ := getIslandingData_spec h
  have hn := busmap_numbers hpad hf
  have hserver := islandingArgs_spec hargs
  refine exists_mapM fun row hrow => ?_
  obtain ⟨i, rfl⟩ := (List.mem_ofFn' ..).1 hrow
  obtain ⟨r, -, hri⟩ := mem_of_forall₂ (readAs_of_serverReads hf hix hwords hread) (List.mem_finRange i)
  refine ⟨⟨branch i, intOf r.t, intOf r.f, (readVIPayload msg).brSt i, args.brStatus0 i, args.closed p i⟩, ?_⟩
  unfold mapBackRow
  simp only [hserver.T, hserver.F, hn.get?_inverse.2 hri.T, hn.get?_inverse.2 hri.F]
  rfl

/-- The rows of a reply to a request answer for the branches sent, one after the other. -/
theorem answers_results (hpad : net.EndsPadded) (hwords : ∀ b ∈ net.branches.rows, IsWord b.name)
    (h : getIslandingData str net (faulted.map supernodeName) = .ok (data, mapback))
    (hread : ServerReads parseFloat data branch msg) (hargs : islandingArgs msg draws = .ok args)
    (hfix : ∀ i, SwitchFixed (args.switchable i) (args.brStatus0 i) (p.switchOn i) (p.switchOff i))
    (hresults : mapBack mapback (branchResults branch msg args p) = .ok results) :
    List.Forall₂ (Answers faulted) net.sentBranches results := by
  obtain ⟨frames, indices, hf, hix, rfl, rfl⟩ := getIslandingData_spec h
  have hn := busmap_numbers hpad hf
  have hserver := islandingArgs_spec hargs
  have hfaulted : msg.faultedNodes = indices.fnodes := by
    obtain ⟨R, X, hread⟩ := hread
    exact eq_of_readInts (readColumns_readArrays hread).faultedNodes
  -- a bus is faulted exactly when its number was sent as faulted
  have hmem : ∀ {n i}, (busmap frames.sent.branch).get? n = some i → (i ∈ msg.faultedNodes ↔ n ∈ faulted) := fun hi => by
    rw [hfaulted, mem_fnodes hix]
    constructor
    · rintro ⟨b, hb, hbi⟩
      rwa [hn.inj _ _ _ hi hbi]
    · exact fun hb => ⟨_, hb, hi⟩
  have hback := forall₂_of_mapM hresults
  rw [branchResults, List.ofFn_eq_map, List.forall₂_map_left_iff] at hback
  have hrows := forall₂_comp (sent_rows hpad hf) (forall₂_comp (readAs_of_serverReads hf hix hwords hread) hback)
  refine hrows.imp fun b row hread => ?_
  obtain ⟨r, hbr, i, hri, hmap⟩ := hread
  have hrow := rowOf_branchRow hbr
  obtain ⟨hstatus, hkind⟩ := status_of_branchRow hbr
  obtain ⟨hst, hsw⟩ := islandingArgs_switches hargs i
  unfold mapBackRow at hmap
  simp only [hserver.T, hserver.F, hn.get?_inverse.2 hri.T, hn.get?_inverse.2 hri.F] at hmap
  cases hmap
  have hat : AtFault msg i ↔ intOf r.t ∈ faulted ∨ intOf r.f ∈ faulted := or_congr (hmem hri.T) (hmem hri.F)
  have hclosed : decide (msg.branchStatus i = 1) = b.closed := by
    rw [Bool.eq_iff_iff, decide_eq_true_eq, ← hri.status, hstatus]
  constructor
  case id => exact hri.id.symm.trans hrow.id
  case t => exact hrow.busNumber.1
  case f => exact hrow.busNumber.2
  case st00 => exact hclosed
  case isolated =>
    intro hends
    refine closed_of_faulted hserver (hfix i) ?_
    rw [hserver.T, hserver.F]
    exact hat.2 hends
  case fixed =>
    intro hcls ht hf
    have hno : ¬ AtFault msg i := fun h => (hat.1 h).elim ht hf
    have hfixed : args.switchable i = false := hsw.trans (decide_eq_false fun h => hkind hcls (hri.kind.2 h.1))
    refine (closed_of_not_switchable (hfix i) hfixed).trans (hst.trans ?_)
    rw [← hclosed]
    exact decide_eq_decide.2 (and_iff_left hno)

/-! ## The network after toggling -/

section

variable {gld gld' : IslandGld} {results : List ResultRow} {armed : Text}

/-- The names of the rows whose status changes. -/
def switchesToOpen (results : List ResultRow) : List Text := (results.filter fun r => r.st00 ≠ r.st1).map (·.id)

omit [Field K] [LinearOrder K] [IsStrictOrderedRing K]

theorem nodup_sentNames : (net.sentBranches.map (·.name)).Nodup := by
  have hnodup : net.sentBranches.Nodup := (nodup_findBranches (List.Nodup.of_map _ net.branches.nodup)).filter _
  refine hnodup.map_on fun b hb b' hb' h => ?_
  exact List.inj_on_of_nodup_map net.branches.nodup (mem_branchObjects (List.mem_of_mem_filter hb))
    (mem_branchObjects (List.mem_of_mem_filter hb')) h

theorem ids_of_answers (h : List.Forall₂ (Answers faulted) net.sentBranches results) :
    results.map (·.id) = net.sentBranches.map (·.name) := by
  rw [← List.forall₂_eq_eq_eq, List.forall₂_map_left_iff, List.forall₂_map_right_iff]
  exact h.flip.imp fun _ _ hr => hr.id

theorem isArmable_of_answers (h : List.Forall₂ (Answers faulted) net.sentBranches results)
    (hnames : ∀ b ∈ net.branches.rows, IsArmable b.name) : ∀ s ∈ switchesToOpen results, IsArmable s := by
  intro s hs
  obtain ⟨r, hr, rfl⟩ := List.mem_map.1 hs
  obtain ⟨b, hb, hbr⟩ := mem_of_forall₂ h (List.mem_of_mem_filter hr)
  exact hbr.id ▸ hnames b (mem_branchObjects (List.mem_of_mem_filter hb))

/-- When the armed branches are toggled a branch that was sent has its status in the plan. -/
theorem Answers.toggled {b : BranchObject} {r : ResultRow} (hbr : Answers faulted b r) (hr : r ∈ results)
    (hids : (results.map (·.id)).Nodup) (harmed : armedNames armed = switchesToOpen results) :
    toggled armed b = r.st1 := by
  have hmem : (armedNames armed).any (· = b.name) = true ↔ r.st00 ≠ r.st1 := by
    simp only [List.any_eq_true, decide_eq_true_eq, exists_eq_right]
    rw [harmed, ← hbr.id]
    constructor
    · intro h
      obtain ⟨r', hr', hid⟩ := List.mem_map.1 h
      obtain rfl := List.inj_on_of_nodup_map hids (List.mem_of_mem_filter hr') hr hid
      exact of_decide_eq_true (List.mem_filter.1 hr').2
    · exact fun h => List.mem_map_of_mem (List.mem_filter.2 ⟨hr, decide_eq_true h⟩)
  unfold Islanding.toggled
  rw [← hbr.st00]
  split
  · rename_i h
    rw [hmem] at h
    cases hst00 : r.st00 <;> cases hst1 : r.st1 <;> simp_all
  · rename_i h
    exact not_not.1 fun hne => h (hmem.2 hne)

/-- The rows of the plan, before their buses are mapped back. -/
theorem planned_of_answers {plan : List ResultRow} (h : List.Forall₂ (Answers faulted) net.sentBranches results)
    (hresults : mapBack mapback plan = .ok results) (harmed : armedNames armed = switchesToOpen results) :
    List.Forall₂ (fun br r => br.name = r.id ∧ Islanding.toggled armed br = r.st1) net.sentBranches plan := by
  have hids : (results.map (·.id)).Nodup := ids_of_answers h ▸ nodup_sentNames
  have hrows : List.Forall₂ (fun br r => Answers faulted br r ∧ r ∈ results) net.sentBranches results :=
    List.forall₂_iff_zip.2 ⟨h.length_eq, fun hz => ⟨List.forall₂_zip h hz, (List.of_mem_zip hz).2⟩⟩
  refine (forall₂_comp hrows (forall₂_of_mapM hresults).flip).imp fun br row ⟨r, ⟨hans, hr⟩, hmap⟩ => ?_
  have htoggled := hans.toggled hr hids harmed
  have hname := hans.id
  obtain ⟨t, -, hmap⟩ := bind_ok.1 hmap
  obtain ⟨f, -, hmap⟩ := bind_ok.1 hmap
  cases hmap
  exact ⟨hname.symm, htoggled⟩

/-- A branch joins the two buses when the armed ones are toggled. -/
def Joined (net : Network K) (armed : Text) (a b : ℕ) : Prop :=
  ∃ br ∈ net.branches.rows, toggled armed br = true ∧
    (busNumber br.toNode = some a ∧ busNumber br.fromNode = some b ∨ busNumber br.toNode = some b ∧ busNumber br.fromNode = some a)

/-- The branches of the network join what the rows of the plan join. -/
theorem reaches_joined (h : List.Forall₂ (Answers faulted) net.sentBranches results)
    (harmed : armedNames armed = switchesToOpen results) {a b : ℕ} :
    Relation.ReflTransGen (Joined net armed) a b ↔ Relation.ReflTransGen (Linked results) a b := by
  have hids : (results.map (·.id)).Nodup := ids_of_answers h ▸ nodup_sentNames
  have hjoined : Joined net armed ≤ Relation.ReflTransGen (Linked results) := by
    rintro a b ⟨br, hbr, hst, hends⟩
    by_cases hsent : busNumber br.toNode = busNumber br.fromNode
    · -- a branch within a bus
      obtain rfl : a = b := by
        rcases hends with ⟨ht, hf⟩ | ⟨ht, hf⟩ <;> rw [ht, hf] at hsent <;> cases hsent <;> rfl
      exact .refl
    · have hmem : br ∈ net.sentBranches := List.mem_filter.2 ⟨mem_findBranches.2 hbr, decide_eq_true hsent⟩
      obtain ⟨r, hr, hans⟩ := mem_of_forall₂ h.flip hmem
      refine .single ⟨r, hr, (hans.toggled hr hids harmed).symm.trans hst, ?_⟩
      rw [hans.t, hans.f] at hends
      simpa using hends
  have hlinked : Linked results ≤ Joined net armed := by
    rintro a b ⟨r, hr, hst, hends⟩
    obtain ⟨br, hbr, hans⟩ := mem_of_forall₂ h hr
    refine ⟨br, mem_branchObjects (List.mem_of_mem_filter hbr), (hans.toggled hr hids harmed).trans hst, ?_⟩
    rw [hans.t, hans.f]
    simpa using hends
  exact ⟨Relation.reflTransGen_closed hjoined a b, Relation.ReflTransGen.mono hlinked a b⟩

/-- The buses of the rows are the ends of branches. -/
theorem mem_supernodes_iff_ends (h : List.Forall₂ (Answers faulted) net.sentBranches results) {n : ℕ} :
    n ∈ supernodes results ↔ n ∈ net.ends := by
  rw [mem_supernodes]
  constructor
  · rintro ⟨r, hr, hn⟩
    obtain ⟨b, hb, hans⟩ := mem_of_forall₂ h hr
    exact ⟨b, hb, by rw [hans.t, hans.f]; simpa using hn⟩
  · rintro ⟨b, hb, hn⟩
    obtain ⟨r, hr, hans⟩ := mem_of_forall₂ h.flip hb
    exact ⟨r, hr, by rw [hans.t, hans.f] at hn; simpa using hn⟩

end

/-! ## The islands returned -/

section

variable {scene : IslandScene} {gld gld' : IslandGld} {island : List ℕ} {acc acc' : IslandGld × List (List ℕ)}

omit [Field K] [LinearOrder K] [IsStrictOrderedRing K]

/-- Marking inverters leaves the scheme as it is. -/
theorem armed_markInverters {inverters : List Text} (h : inverters.foldlM (markInverter island) gld = .ok gld') :
    gld'.armed = gld.armed :=
  @foldlM_invariant _ _ _ (markInverter island) (fun g => g.armed = gld.armed) _ _ _
    (fun i _ g g' hg hmark => by
      obtain ⟨digits, -, hmark⟩ := bind_ok.1 hmark
      cases hmark
      split <;> exact hg) rfl h

/-- An island without the swing bus is returned unless its first bus is faulted. -/
theorem processIsland_returned (h : processIsland scene acc island = .ok acc') : acc'.1.armed = acc.1.armed ∧
    acc.2 ⊆ acc'.2 ∧ (scene.swingSn ∉ island →
      (∀ first, island.head? = some first → supernodeName first ∉ scene.faultedNodes) → island ∈ acc'.2) := by
  unfold processIsland at h
  simp only at h
  split at h
  · rename_i hswing
    cases h
    exact ⟨rfl, fun _ hc => hc, fun hno => absurd hswing hno⟩
  · obtain ⟨gld, hgld, h⟩ := bind_ok.1 h
    obtain ⟨first, hfirst, h⟩ := bind_ok.1 h
    cases h
    refine ⟨armed_markInverters hgld, fun c hc => ?_, fun _ hfault => ?_⟩
    · simp only
      split
      · exact List.mem_append_left _ hc
      · exact hc
    · simp only [hfault first (orRaise_eq_ok.1 hfirst), not_false_eq_true, if_true]
      exact List.mem_append_right _ (List.mem_singleton_self _)

/-- The islands one after the other. -/
theorem processIslands_returned : ∀ {groups : List (List ℕ)} {acc : IslandGld × List (List ℕ)},
    groups.foldlM (processIsland scene) acc = .ok acc' → acc'.1.armed = acc.1.armed ∧ acc.2 ⊆ acc'.2 ∧
      ∀ c ∈ groups, scene.swingSn ∉ c → (∀ first, c.head? = some first → supernodeName first ∉ scene.faultedNodes) →
        c ∈ acc'.2
  | [], acc, h => by
    cases h
    simp
  | c :: groups, acc, h => by
    rw [List.foldlM_cons, bind_ok] at h
    obtain ⟨acc₁, hstep, h⟩ := h
    obtain ⟨harmed₁, hsub₁, hin₁⟩ := processIsland_returned hstep
    obtain ⟨harmed, hsub, hin⟩ := processIslands_returned h
    refine ⟨harmed.trans harmed₁, fun d hd => hsub (hsub₁ hd), fun d hd hswing hfirst => ?_⟩
    rcases List.mem_cons.1 hd with rfl | hd
    exacts [hsub (hin₁ hswing hfirst), hin d hd hswing hfirst]

end

/-! ## What is carried out -/

/-- What a reply does: the scheme is armed with switches, and with the closed branches at faulted buses; when the armed
branches are toggled every branch has its status in the plan and the faulted buses are cut off, and the islands are the
components without the swing bus and without a faulted bus. -/
structure CarriedOut (net : Network K) (swingSn : ℕ) (faulted : List ℕ) (inverters : List Text) (plan : List ResultRow)
    (gld gld' : IslandGld) (islands : List (List ℕ)) : Prop where
  planned : List.Forall₂ (fun br r => br.name = r.id ∧ toggled gld'.armed br = r.st1) net.sentBranches plan
  nodup : (armedNames gld'.armed).Nodup
  armed : ∀ s ∈ armedNames gld'.armed, ∃ br ∈ net.sentBranches, br.name = s ∧
    (br.cls = .switch ∨ br.closed = true ∧ ∃ n ∈ faulted, busNumber br.toNode = some n ∨ busNumber br.fromNode = some n)
  isolated : ∀ n ∈ faulted, ∀ m, Joined net gld'.armed n m → m = n
  island : ∀ c ∈ islands, ∀ a ∈ c, ∀ b, b ∈ c ↔ Relation.ReflTransGen (Joined net gld'.armed) a b
  covered : ∀ a, (∃ c ∈ islands, a ∈ c) ↔
    a ∈ net.ends ∧ a ∉ faulted ∧ ¬ Relation.ReflTransGen (Joined net gld'.armed) a swingSn
  marked : ∀ i, gld'.islandedState i = true ↔ gld.islandedState i = true ∨ i ∈ inverters ∧
    ∃ n ∈ net.ends, inverterNumber i = some n ∧ ¬ Relation.ReflTransGen (Joined net gld'.armed) n swingSn

section

variable {gld gld' : IslandGld} {results : List ResultRow} {islands : List (List ℕ)} {swingSn : ℕ} {inverters : List Text}
  {armed : Text} {order : ℕ → ℕ} {fuel : ℕ} {cycleDraws : ℕ → ℕ → ℕ}

omit [Field K] [LinearOrder K] [IsStrictOrderedRing K]

/-- No row joins a faulted bus to another. -/
theorem unlinked_of_answers (h : List.Forall₂ (Answers faulted) net.sentBranches results) {n : ℕ} (hn : n ∈ faulted) (m : ℕ) :
    ¬ Linked results n m := by
  rintro ⟨r, hr, hst, hends⟩
  obtain ⟨b, -, hans⟩ := mem_of_forall₂ h hr
  rw [hans.isolated (by rcases hends with ⟨rfl, -⟩ | ⟨-, rfl⟩ <;> simp [hn])] at hst
  cases hst

theorem noSelfLoops_of_answers (h : List.Forall₂ (Answers faulted) net.sentBranches results) : NoSelfLoops results := by
  intro r hr _ htf
  obtain ⟨b, hb, hans⟩ := mem_of_forall₂ h hr
  exact of_decide_eq_true (List.mem_filter.1 hb).2 (by rw [hans.t, hans.f, htf])

/-- The groups of a net are the components of the toggled network; a faulted bus is alone in its group. -/
theorem groups_of_answers {groups : List (List ℕ)} (h : List.Forall₂ (Answers faulted) net.sentBranches results)
    (harmed : armedNames armed = switchesToOpen results) (hfuel : (supernodes results).length ≤ fuel)
    (hgroups : newIslands order fuel cycleDraws results = .ok groups) :
    (∀ c ∈ groups, ∀ a ∈ c, ∀ b, b ∈ c ↔ Relation.ReflTransGen (Joined net armed) a b) ∧
      (∀ c ∈ groups, ∀ n ∈ faulted, n ∈ c → ∀ a ∈ c, a = n) ∧ ∀ a, a ∈ net.ends ↔ ∃ c ∈ groups, a ∈ c := by
  obtain ⟨groups', hgroups', -, hflatten, -, hgroup⟩ := newIslands_spec (noSelfLoops_of_answers h) order hfuel cycleDraws
  obtain rfl : groups = groups' := by rw [hgroups] at hgroups'; cases hgroups'; rfl
  have hcomponent : ∀ c ∈ groups, ∀ a ∈ c, ∀ b, b ∈ c ↔ Relation.ReflTransGen (Joined net armed) a b := by
    intro c hc a ha b
    obtain ⟨r, -, hr⟩ := hgroup c hc
    rw [reaches_joined h harmed, hr]
    exact ⟨fun hb => (Relation.ReflTransGen.stdSymm.symm _ _ ((hr a).1 ha)).trans hb, fun hb => ((hr a).1 ha).trans hb⟩
  refine ⟨hcomponent, fun c hc n hn hnc a ha => ?_, fun a => ?_⟩
  · rcases Relation.ReflTransGen.cases_head ((reaches_joined h harmed).1 ((hcomponent c hc n hnc a).1 ha)) with he | ⟨m, hm, -⟩
    exacts [he.symm, (unlinked_of_answers h hn m hm).elim]
  · rw [← mem_supernodes_iff_ends h, ← hflatten, List.mem_flatten]

/-- An armed branch is a switch, or closed and at a faulted bus. -/
theorem armed_of_answers (h : List.Forall₂ (Answers faulted) net.sentBranches results) {s : Text}
    (hs : s ∈ switchesToOpen results) : ∃ br ∈ net.sentBranches, br.name = s ∧ (br.cls = .switch ∨
      br.closed = true ∧ ∃ n ∈ faulted, busNumber br.toNode = some n ∨ busNumber br.fromNode = some n) := by
  obtain ⟨r, hr, rfl⟩ := List.mem_map.1 hs
  obtain ⟨hr, hne⟩ := List.mem_filter.1 hr
  obtain ⟨b, hb, hans⟩ := mem_of_forall₂ h hr
  have hne : r.st00 ≠ r.st1 := of_decide_eq_true hne
  refine ⟨b, hb, hans.id.symm, or_iff_not_imp_left.2 fun hcls => ?_⟩
  -- a line keeps its status away from the faulted buses
  have hat : r.t ∈ faulted ∨ r.f ∈ faulted := by
    by_contra hno
    rw [not_or] at hno
    exact hne (hans.st00.trans (hans.fixed hcls hno.1 hno.2).symm)
  refine ⟨?_, ?_⟩
  · rw [hans.isolated hat, hans.st00] at hne
    simpa using hne
  · rw [hans.t, hans.f]
    rcases hat with hat | hat
    exacts [⟨_, hat, .inl rfl⟩, ⟨_, hat, .inr rfl⟩]

/-- A run of `process_islands` on rows that answer for the branches carries the plan out. -/
theorem carriedOut_of_answers {plan : List ResultRow} (h : List.Forall₂ (Answers faulted) net.sentBranches results)
    (hresults : mapBack mapback plan = .ok results) (hnames : ∀ b ∈ net.branches.rows, IsArmable b.name)
    (hfuel : (supernodes results).length ≤ fuel)
    (hrun : processIslands ⟨swingSn, faulted.map supernodeName, inverters⟩ order fuel cycleDraws results gld =
      .ok (gld', islands)) : CarriedOut net swingSn faulted inverters plan gld gld' islands := by
  obtain ⟨groups, hgroups, hfold⟩ := bind_ok.1 hrun
  obtain ⟨harmed', -, hreturned⟩ := processIslands_returned hfold
  have harmed : armedNames gld'.armed = switchesToOpen results := by
    rw [show gld'.armed = _ from harmed']
    exact armedNames_toggleSwitches gld (isArmable_of_answers h hnames)
  obtain ⟨hcomponent, halone, hends⟩ := groups_of_answers h harmed hfuel hgroups
  constructor
  case planned => exact planned_of_answers h hresults harmed
  case nodup =>
    rw [harmed]
    exact (ids_of_answers h ▸ nodup_sentNames).sublist (List.filter_sublist.map _)
  case armed => exact fun s hs => armed_of_answers h (harmed ▸ hs)
  case isolated =>
    intro n hn m hm
    rcases Relation.ReflTransGen.cases_head ((reaches_joined h harmed).1 (.single hm)) with he | ⟨m', hm', -⟩
    exacts [he.symm, (unlinked_of_answers h hn m' hm').elim]
  case island =>
    intro c hc
    obtain ⟨groups', hgroups', hmem, -⟩ := mem_processIslands hrun hc
    cases hgroups.symm.trans hgroups'
    exact hcomponent c hmem
  case covered =>
    intro a
    constructor
    · rintro ⟨c, hc, ha⟩
      obtain ⟨groups', hgroups', hmem, hswing, first, hfirst, hnot⟩ := mem_processIslands hrun hc
      cases hgroups.symm.trans hgroups'
      have hfirstIn : first ∈ c := List.mem_of_mem_head? hfirst
      refine ⟨(hends a).2 ⟨c, hmem, ha⟩, fun hfault => hnot ?_, fun hreach => hswing ((hcomponent c hmem a ha _).2 hreach)⟩
      rw [halone c hmem a hfault ha first hfirstIn]
      exact List.mem_map_of_mem hfault
    · rintro ⟨hin, hfault, hswing⟩
      obtain ⟨c, hc, ha⟩ := (hends a).1 hin
      refine ⟨c, hreturned c hc (fun hs => hswing ((hcomponent c hc a ha _).1 hs)) fun first hfirst hmem => ?_, ha⟩
      obtain ⟨n, hn, hname⟩ := List.mem_map.1 hmem
      obtain rfl := supernodeName_injective hname
      exact hfault (halone c hc n hn (List.mem_of_mem_head? hfirst) a ha ▸ hn)
  case marked =>
    intro i
    refine (flags_processIslands hrun hgroups i).trans (or_congr Iff.rfl ?_)
    constructor
    · rintro ⟨c, hc, hswing, hi, n, hn, hnc⟩
      exact ⟨hi, n, (hends n).2 ⟨c, hc, hnc⟩, hn, fun hreach => hswing ((hcomponent c hc n hnc _).2 hreach)⟩
    · rintro ⟨hi, n, hin, hn, hswing⟩
      obtain ⟨c, hc, hnc⟩ := (hends n).1 hin
      exact ⟨c, hc, fun hs => hswing ((hcomponent c hc n hnc _).1 hs), hi, n, hn, hnc⟩

end

end Grip.Islanding
