/-
`on_commit` without load control. At a change of faults every faulted node is walked downstream of, the loads on the
way are shut off and the closed branches at it join the scheme; nothing is asked of the server. The walk has the
network as GridLAB-D then has it, in which what the scheme was told before may have been carried out or not.

At the stop time `update_flexible_load` comes last. What it writes is read by nothing, and it is left out with what it
raises: at a stop without a device map, or on a load that is no number.
-/
import GripAbsorption.Absorption.Faults
import GripAbsorption.Islanding.Isolation
import GripAbsorption.Protection.Loads

namespace Grip.Protection

open Grip.Base Grip.Islanding Grip.Absorption

/-! ## State -/

/-- The global variables that are used, what is set in GridLAB-D, and (a history variable) the text the scheme was
armed with each time it was told to toggle. -/
structure State where
  tStart : ℤ
  deviceMap : Option (Dict Text NodeDevices)
  faultedNodes : List Text
  loads : GldLoads
  island : IslandGld
  orders : List Text

/-- The start of a simulation. -/
def State.init (tStart : ℤ) (loads : GldLoads) (island : IslandGld) : State := ⟨tStart, none, [], loads, island, []⟩

/-- What a commit meets. -/
structure CommitInput where
  time : ℤ
  clock : Text
  fault : Text → Bool
  feeder : Feeder

/-! ## The commit -/

/-- The body of the loop over the supernodes, with `faultchange`. -/
def faultTurn (net : Network) (inp : CommitInput) (acc : State × Bool) (sn : Text) : Except Err (State × Bool) :=
  if inp.fault sn then
    if ¬ acc.1.faultedNodes.contains sn then do
      let loads ← shutoffLoads net acc.1.deviceMap inp.clock acc.1.loads sn
      return ({ acc.1 with faultedNodes := acc.1.faultedNodes ++ [sn], loads := loads }, true)
    else return acc
  else
    if acc.1.faultedNodes.contains sn then
      return ({ acc.1 with faultedNodes := acc.1.faultedNodes.filter (· ≠ sn) }, true)
    else return acc

/-- `new_fault_detected`. -/
def State.newFaultDetected (net : Network) (inp : CommitInput) (s : State) : Except Err (State × Bool) :=
  net.supernodes.foldlM (faultTurn net inp) (s, false)

/-- `shutoff_noislanding` with the calls it makes, and `switches_to_open` so far. -/
def shutoffNode (net : Network) (deviceMap : Option (Dict Text NodeDevices)) (inp : CommitInput) (fuel : ℕ)
    (acc : GldLoads × List Text) (node : Text) : Except Err (GldLoads × List Text) := do
  let result ← (shutoffNoislanding inp.feeder.branches.rows fuel node).mapError .shutoff
  let loads ← result.calls.foldlM (shutoffLoads net deviceMap inp.clock) acc.1
  return (loads, acc.2 ++ result.openswitches)

/-- `toggle_switches`. -/
def State.toggleSwitches (s : State) (switchlist : List Text) : State :=
  { s with
    island := s.island.toggleSwitches switchlist
    orders := s.orders ++ [(s.island.toggleSwitches switchlist).armed] }

/-- The device map is made at the first commit. -/
def State.mapDevices (net : Network) (inp : CommitInput) (s : State) : State :=
  if inp.time - s.tStart = 0 then { s with deviceMap := some (mapDevicesToNodes net) } else s

/-- `on_commit`. -/
def onCommit (net : Network) (fuel : ℕ) (s : State) (inp : CommitInput) : Except Err State := do
  let scan ← (s.mapDevices net inp).newFaultDetected net inp
  if scan.2 then
    let done ← scan.1.faultedNodes.foldlM (shutoffNode net scan.1.deviceMap inp fuel) (scan.1.loads, [])
    return { scan.1 with loads := done.1 }.toggleSwitches done.2
  else return scan.1

/-! ## The scan -/

variable {net : Network} {inp : CommitInput} {s s' : State} {fuel : ℕ}

/-- Between commits: the list of faulted nodes has supernodes only, each once, and is empty as long as there is no
device map. -/
structure Mapped (net : Network) (s : State) : Prop where
  nodup : s.faultedNodes.Nodup
  subset : s.faultedNodes ⊆ net.supernodes
  deviceMap : s.deviceMap = some (mapDevicesToNodes net) ∨ s.deviceMap = none ∧ s.faultedNodes = []

theorem mapped_init (net : Network) (tStart : ℤ) (loads : GldLoads) (island : IslandGld) :
    Mapped net (.init tStart loads island) :=
  ⟨List.nodup_nil, List.nil_subset _, .inr ⟨rfl, rfl⟩⟩

theorem Mapped.mapDevices (h : Mapped net s) : Mapped net (s.mapDevices net inp) := by
  unfold State.mapDevices
  split
  · exact ⟨h.nodup, h.subset, .inl rfl⟩
  · exact h

/-- What a scan that has called as `scan` says has made of `s`. -/
def Scans (net : Network) (clock : Text) (s : State) (scan : FaultScan Text) (r : State × Bool) : Prop :=
  ∃ loads, r = ({ s with faultedNodes := scan.faultedNodes, loads := loads }, scan.faultchange) ∧
    ShutOff net (fun k n => k = clock ∧ n ∈ scan.shutoff) s.loads loads

/-- With a device map each turn of the scan is made, with its call. -/
theorem Scans.turn {scan : FaultScan Text} {r : State × Bool} (hmap : s.deviceMap = some (mapDevicesToNodes net))
    (h : Scans net inp.clock s scan r) (sn : Text) :
    ∃ r', faultTurn net inp r sn = .ok r' ∧ Scans net inp.clock s (scan.turn inp.fault sn) r' := by
  obtain ⟨loads, rfl, hloads⟩ := h
  unfold faultTurn FaultScan.turn
  simp only [List.contains_iff_mem]
  by_cases hfault : inp.fault sn
  · rw [if_pos hfault, if_pos hfault]
    by_cases hmem : sn ∈ scan.faultedNodes
    · rw [if_neg (not_not.2 hmem), if_neg (not_not.2 hmem)]
      exact ⟨_, rfl, loads, rfl, hloads⟩
    · rw [if_pos hmem, if_pos hmem]
      obtain ⟨loads', hcall, hshut⟩ := shutoffLoads_spec net inp.clock loads sn
      have hcall' : shutoffLoads net s.deviceMap inp.clock loads sn = .ok loads' := by rw [hmap, hcall]
      rw [hcall']
      refine ⟨_, rfl, loads', rfl, (hloads.trans hshut).congr fun k n => ?_⟩
      rw [List.mem_append, List.mem_singleton, and_or_left]
  · rw [if_neg hfault, if_neg hfault]
    by_cases hmem : sn ∈ scan.faultedNodes
    · rw [if_pos hmem, if_pos hmem]
      exact ⟨_, rfl, loads, rfl, hloads⟩
    · rw [if_neg hmem, if_neg hmem]
      exact ⟨_, rfl, loads, rfl, hloads⟩

/-- With a device map the scan is made. -/
theorem newFaultDetected_mapped (inp : CommitInput) (hmap : s.deviceMap = some (mapDevicesToNodes net)) : ∃ r,
    s.newFaultDetected net inp = .ok r ∧ Scans net inp.clock s (scanFaults inp.fault net.supernodes s.faultedNodes) r := by
  have hloop : ∀ (supernodes : List Text) (scan : FaultScan Text) (r : State × Bool), Scans net inp.clock s scan r →
      ∃ r', supernodes.foldlM (faultTurn net inp) r = .ok r' ∧
        Scans net inp.clock s (supernodes.foldl (FaultScan.turn inp.fault) scan) r' := by
    intro supernodes
    induction supernodes with
    | nil => exact fun scan r h => ⟨r, rfl, h⟩
    | cons sn supernodes ih =>
      intro scan r h
      obtain ⟨r₁, hr₁, h₁⟩ := h.turn hmap sn
      obtain ⟨r₂, hr₂, h₂⟩ := ih _ r₁ h₁
      exact ⟨r₂, by rw [List.foldlM_cons, hr₁]; exact hr₂, h₂⟩
  exact hloop net.supernodes ⟨s.faultedNodes, [], false⟩ (s, false) ⟨s.loads, rfl, .refl fun _ _ h => List.not_mem_nil h.2⟩

/-- Without one it is made as long as there is no fault, and finds none. -/
theorem newFaultDetected_unmapped (net : Network) (inp : CommitInput) (hmap : s.deviceMap = none) (hnone : s.faultedNodes = []) :
    ((∃ r, s.newFaultDetected net inp = .ok r) ↔ ∀ sn ∈ net.supernodes, inp.fault sn = false) ∧
      ∀ r, s.newFaultDetected net inp = .ok r → r = (s, false) := by
  have hturn : ∀ sn, faultTurn net inp (s, false) sn = if inp.fault sn then .error .noneType else .ok (s, false) := by
    intro sn
    unfold faultTurn
    simp only [hnone, hmap, shutoffLoads_none, List.contains_iff_mem, List.not_mem_nil, not_false_eq_true, if_true, if_false]
    rfl
  unfold State.newFaultDetected
  induction net.supernodes with
  | nil => exact ⟨iff_of_true ⟨_, rfl⟩ fun _ h => absurd h List.not_mem_nil, fun r h => by cases h; rfl⟩
  | cons sn supernodes ih =>
    rw [List.foldlM_cons, hturn, List.forall_mem_cons]
    cases hfault : inp.fault sn with
    | true =>
      refine ⟨iff_of_false ?_ fun h => Bool.noConfusion h.1, ?_⟩
      · rintro ⟨r, hr⟩
        cases hr
      · intro r hr
        cases hr
    | false =>
      rw [and_iff_right rfl]
      exact ih

/-! ## The walks -/

/-- The node is downstream of one of the nodes. -/
def DownstreamOf (feeder : Feeder) (nodes : Text → Prop) (node : Text) : Prop :=
  ∃ m, nodes m ∧ Reaches (downstream feeder.branches.rows) m node

/-- The branches that are opened for one of the nodes, by their names. -/
def OpenedFor (feeder : Feeder) (nodes : Text → Prop) (name : Text) : Prop :=
  ∃ br ∈ feeder.branches.rows, br.name = name ∧ ∃ m, nodes m ∧ Feeder.ToOpen m br

/-- What a walk that ends returns. -/
theorem of_shutoffNoislanding {feeder : Feeder} {node : Text} {result : Shutoff}
    (h : shutoffNoislanding feeder.branches.rows fuel node = .ok result) :
    (∀ n, n ∈ result.calls ↔ Reaches (downstream feeder.branches.rows) node n) ∧
      ∀ name, name ∈ result.openswitches ↔ ∃ br ∈ feeder.branches.rows, br.name = name ∧ Feeder.ToOpen node br := by
  obtain ⟨turnoff, hturnoff, h⟩ := bind_ok.1 h
  cases h
  refine ⟨reaches_of_levels feeder.nextNodes_eq hturnoff, fun name => ?_⟩
  simp only [List.mem_map, List.mem_filter, mem_findBranches, decide_eq_true_eq]
  refine exists_congr fun br => ⟨?_, ?_⟩
  · rintro ⟨⟨⟨hbr, hat⟩, hsolar, hbattery, hst⟩, hname⟩
    exact ⟨hbr, hname, hat, hst, hsolar, hbattery⟩
  · rintro ⟨hbr, hname, hat, hst, hsolar, hbattery⟩
    exact ⟨⟨⟨hbr, hat⟩, hsolar, hbattery, hst⟩, hname⟩

/-- A walk ends, with enough fuel, when no cycle is downstream. -/
theorem exists_shutoffNoislanding {feeder : Feeder} {node : Text} (hacyc : feeder.AcyclicFrom node)
    (hfuel : feeder.branches.rows.length < fuel) : ∃ result,
      shutoffNoislanding feeder.branches.rows fuel node = .ok result := by
  obtain ⟨turnoff, hturnoff, -⟩ : ∃ turnoff, levels (nextNodes (findBranches feeder.branches.rows)) .running fuel
      [node] [node] = .ok turnoff ∧ ∀ b, b ∈ turnoff ↔ Reaches (downstream feeder.branches.rows) node b :=
    levels_spec feeder.nextNodes_eq feeder.downstream_subset hacyc (by rwa [List.length_map])
  exact ⟨_, bind_ok.2 ⟨turnoff, hturnoff, rfl⟩⟩

/-- What the loop over the faulted nodes has done. -/
structure Walked (net : Network) (inp : CommitInput) (nodes : List Text) (acc acc' : GldLoads × List Text) : Prop where
  acyclic : ∀ m ∈ nodes, inp.feeder.AcyclicFrom m
  loads : ShutOff net (fun k n => k = inp.clock ∧ DownstreamOf inp.feeder (· ∈ nodes) n) acc.1 acc'.1
  switches : ∀ name, name ∈ acc'.2 ↔ name ∈ acc.2 ∨ OpenedFor inp.feeder (· ∈ nodes) name

theorem downstreamOf_cons {feeder : Feeder} {m n : Text} {nodes : List Text} : DownstreamOf feeder (· ∈ m :: nodes) n ↔
    Reaches (downstream feeder.branches.rows) m n ∨ DownstreamOf feeder (· ∈ nodes) n := by
  unfold DownstreamOf
  simp only [List.mem_cons, or_and_right, exists_or, exists_eq_left]

theorem openedFor_cons {feeder : Feeder} {m name : Text} {nodes : List Text} : OpenedFor feeder (· ∈ m :: nodes) name ↔
    (∃ br ∈ feeder.branches.rows, br.name = name ∧ Feeder.ToOpen m br) ∨ OpenedFor feeder (· ∈ nodes) name := by
  unfold OpenedFor
  simp only [List.mem_cons, or_and_right, exists_or, exists_eq_left, and_or_left]

theorem walked_of_foldlM : ∀ {nodes : List Text} {acc acc' : GldLoads × List Text},
    nodes.foldlM (shutoffNode net (some (mapDevicesToNodes net)) inp fuel) acc = .ok acc' → Walked net inp nodes acc acc'
  | [], acc, acc', h => by
    cases h
    refine ⟨fun m hm => absurd hm List.not_mem_nil, .refl ?_, fun name => (or_iff_left ?_).symm⟩
    · rintro k n ⟨-, m, hm, -⟩
      exact List.not_mem_nil hm
    · rintro ⟨br, -, -, m, hm, -⟩
      exact List.not_mem_nil hm
  | m :: nodes, acc, acc', h => by
    rw [List.foldlM_cons, bind_ok] at h
    obtain ⟨acc₁, hturn, h⟩ := h
    obtain ⟨result, hresult, hturn⟩ := bind_ok.1 hturn
    rw [mapError_eq_ok] at hresult
    obtain ⟨loads, hloads, hturn⟩ := bind_ok.1 hturn
    cases hturn
    obtain ⟨loads', hloads', hshut⟩ := foldlM_shutoffLoads net inp.clock result.calls acc.1
    cases hloads'.symm.trans hloads
    obtain ⟨hcalls, hopen⟩ := of_shutoffNoislanding hresult
    have hrest := walked_of_foldlM h
    refine ⟨List.forall_mem_cons.2 ⟨inp.feeder.ends_of_shutoff hresult, hrest.acyclic⟩, ?_, fun name => ?_⟩
    · refine (hshut.trans hrest.loads).congr fun k n => ?_
      rw [hcalls, downstreamOf_cons, and_or_left]
    · rw [hrest.switches, List.mem_append, hopen, or_assoc, openedFor_cons]

theorem exists_foldlM_shutoffNode (hfuel : inp.feeder.branches.rows.length < fuel) : ∀ {nodes : List Text}
    (acc : GldLoads × List Text), (∀ m ∈ nodes, inp.feeder.AcyclicFrom m) →
      ∃ acc', nodes.foldlM (shutoffNode net (some (mapDevicesToNodes net)) inp fuel) acc = .ok acc'
  | [], acc, _ => ⟨acc, rfl⟩
  | m :: nodes, acc, h => by
    rw [List.forall_mem_cons] at h
    obtain ⟨result, hresult⟩ := exists_shutoffNoislanding h.1 hfuel
    obtain ⟨loads, hloads, -⟩ := foldlM_shutoffLoads net inp.clock result.calls acc.1
    obtain ⟨acc', hacc'⟩ := exists_foldlM_shutoffNode hfuel (loads, acc.2 ++ result.openswitches) h.2
    refine ⟨acc', ?_⟩
    rw [List.foldlM_cons, bind_ok]
    exact ⟨_, bind_ok.2 ⟨result, mapError_eq_ok.2 hresult, bind_ok.2 ⟨loads, hloads, rfl⟩⟩, hacc'⟩

/-! ## One commit -/

/-- A supernode with its flag set. -/
def Faulted (net : Network) (inp : CommitInput) (n : Text) : Prop := n ∈ net.supernodes ∧ inp.fault n = true

/-- Some flag is not as the list has it. -/
def Change (net : Network) (s : State) (inp : CommitInput) : Prop :=
  ∃ n ∈ net.supernodes, ¬ (inp.fault n = true ↔ n ∈ s.faultedNodes)

/-- What a commit that returns has done. -/
structure Committed (net : Network) (inp : CommitInput) (s s' : State) : Prop where
  tStart : s'.tStart = s.tStart
  mapped : Mapped net s'
  deviceMap : s'.deviceMap = (s.mapDevices net inp).deviceMap
  faultedNodes : ∀ n, n ∈ s'.faultedNodes ↔ Faulted net inp n
  loads : ShutOff net (fun k n => k = inp.clock ∧ Change net s inp ∧ DownstreamOf inp.feeder (Faulted net inp) n)
    s.loads s'.loads
  same : ¬ Change net s inp → s'.island = s.island ∧ s'.orders = s.orders
  ordered : Change net s inp → ∃ switches, s'.island = s.island.toggleSwitches switches ∧
    s'.orders = s.orders ++ [s'.island.armed] ∧ ∀ name, name ∈ switches ↔ OpenedFor inp.feeder (Faulted net inp) name

/-- The commit at the start makes the device map, others leave all as it is. -/
theorem mapDevices_eq (net : Network) (inp : CommitInput) (s : State) : ∃ m, s.mapDevices net inp = { s with deviceMap := m } := by
  unfold State.mapDevices
  split
  exacts [⟨_, rfl⟩, ⟨s.deviceMap, rfl⟩]

/-- What a scan that returns has done. -/
structure Detected (net : Network) (inp : CommitInput) (s : State) (r : State × Bool) : Prop where
  frame : r.1 = { s with faultedNodes := r.1.faultedNodes, loads := r.1.loads }
  mapped : Mapped net r.1
  faultedNodes : ∀ n, n ∈ r.1.faultedNodes ↔ Faulted net inp n
  change : r.2 = true ↔ Change net s inp
  loads : ShutOff net (fun k n => k = inp.clock ∧ Faulted net inp n ∧ n ∉ s.faultedNodes) s.loads r.1.loads
  deviceMap : r.2 = true → s.deviceMap = some (mapDevicesToNodes net)

theorem detected {r : State × Bool} (hm : Mapped net s) (h : s.newFaultDetected net inp = .ok r) : Detected net inp s r := by
  rcases hm.deviceMap with hmap | ⟨hnone, hempty⟩
  · obtain ⟨r', hr', loads, rfl, hloads⟩ := newFaultDetected_mapped inp hmap
    cases hr'.symm.trans h
    have hscan := scanned_scanFaults inp.fault hm.nodup net.supernodes_nodup
    have htracks := hscan.tracks hm.subset
    refine ⟨rfl, ⟨hscan.nodup, fun n hn => ((htracks.mem n).1 hn).1, .inl hmap⟩, htracks.mem, hscan.faultchange,
      hloads.congr fun k n => ?_, fun _ => hmap⟩
    exact and_congr_right fun _ => hscan.mem_shutoff n
  · obtain ⟨hiff, hsame⟩ := newFaultDetected_unmapped net inp hnone hempty
    have hno : ∀ n, ¬ Faulted net inp n := fun n hn => by
      have hfault := hn.2
      rw [hiff.1 ⟨r, h⟩ n hn.1] at hfault
      cases hfault
    obtain rfl := hsame r h
    refine ⟨rfl, hm, fun n => ?_, ?_, .refl fun k n hc => hno n hc.2.1, fun h => Bool.noConfusion h⟩
    · show n ∈ s.faultedNodes ↔ _
      rw [hempty]
      exact iff_of_false List.not_mem_nil (hno n)
    · refine iff_of_false Bool.false_ne_true ?_
      rintro ⟨n, hn, hne⟩
      rw [hempty] at hne
      exact hne (iff_of_false (fun hf => hno n ⟨hn, hf⟩) List.not_mem_nil)

/-- The scan raises exactly when a fault comes before the device map. -/
theorem newFaultDetected_ends_iff (hm : Mapped net s) : (∃ r, s.newFaultDetected net inp = .ok r) ↔
    ((∃ n, Faulted net inp n) → s.deviceMap ≠ none) := by
  rcases hm.deviceMap with hmap | ⟨hnone, hempty⟩
  · obtain ⟨r, hr, -⟩ := newFaultDetected_mapped inp hmap
    exact iff_of_true ⟨r, hr⟩ fun _ h => by rw [hmap] at h; cases h
  · rw [(newFaultDetected_unmapped net inp hnone hempty).1]
    constructor
    · rintro h ⟨n, hn, hfault⟩
      rw [h n hn] at hfault
      cases hfault
    · intro h n hn
      by_contra hfault
      exact h ⟨n, hn, by simpa using hfault⟩ hnone

theorem change_mapDevices : Change net (s.mapDevices net inp) inp ↔ Change net s inp := by
  obtain ⟨m, hs₀⟩ := mapDevices_eq net inp s
  rw [hs₀]
  rfl

theorem committed_of_onCommit (hm : Mapped net s) (h : onCommit net fuel s inp = .ok s') : Committed net inp s s' := by
  obtain ⟨r, hr, h⟩ := bind_ok.1 h
  have hd := detected hm.mapDevices hr
  obtain ⟨htStart, hisland, horders, hmap⟩ : r.1.tStart = s.tStart ∧ r.1.island = s.island ∧ r.1.orders = s.orders ∧
      r.1.deviceMap = (s.mapDevices net inp).deviceMap := by
    obtain ⟨m, hs₀⟩ := mapDevices_eq net inp s
    rw [hd.frame, hs₀]
    exact ⟨rfl, rfl, rfl, rfl⟩
  have hcalls : ShutOff net (fun k n => k = inp.clock ∧ Faulted net inp n ∧ n ∉ s.faultedNodes) s.loads r.1.loads := by
    have hloads := hd.loads
    obtain ⟨m, hs₀⟩ := mapDevices_eq net inp s
    rwa [hs₀] at hloads
  -- a node that has become faulted is a change
  have hnew : ∀ n, Faulted net inp n → n ∉ s.faultedNodes → Change net s inp :=
    fun n hn hold => ⟨n, hn.1, fun hiff => hold (hiff.1 hn.2)⟩
  have hchange : r.2 = true ↔ Change net s inp := hd.change.trans change_mapDevices
  by_cases hr2 : r.2 = true
  · rw [if_pos hr2] at h
    obtain ⟨done, hdone, h⟩ := bind_ok.1 h
    cases h
    rw [hmap, hd.deviceMap hr2] at hdone
    have hwalked := walked_of_foldlM hdone
    have hnodes : (· ∈ r.1.faultedNodes) = Faulted net inp := funext fun n => propext (hd.faultedNodes n)
    refine ⟨htStart, ⟨hd.mapped.nodup, hd.mapped.subset, hd.mapped.deviceMap⟩, hmap, hd.faultedNodes, ?_, fun hno => ?_,
      fun _ => ?_⟩
    · have hloads := hwalked.loads
      rw [hnodes] at hloads
      refine (hcalls.trans hloads).congr fun k n => ?_
      rw [← and_or_left]
      refine and_congr_right fun _ => ⟨?_, fun hdown => .inr hdown.2⟩
      rintro (⟨hn, -⟩ | hdown)
      · exact ⟨hchange.1 hr2, n, hn, .refl⟩
      · exact ⟨hchange.1 hr2, hdown⟩
    · exact absurd (hchange.1 hr2) hno
    · have hswitches := hwalked.switches
      rw [hnodes] at hswitches
      refine ⟨done.2, ?_, ?_, fun name => (hswitches name).trans (or_iff_right List.not_mem_nil)⟩
      · show r.1.island.toggleSwitches done.2 = _
        rw [hisland]
      · show r.1.orders ++ _ = _
        rw [horders]
        rfl
  · rw [if_neg hr2] at h
    cases h
    have hno : ¬ Change net s inp := fun hc => hr2 (hchange.2 hc)
    refine ⟨htStart, hd.mapped, hmap, hd.faultedNodes, hcalls.congr fun k n => ?_, fun _ => ⟨hisland, horders⟩,
      fun hc => absurd hc hno⟩
    exact and_congr_right fun _ => iff_of_false (fun hn => hno (hnew n hn.1 hn.2)) fun hc => hno hc.1

/-! ## When a commit returns -/

/-- What a commit needs to return: the device map before any fault, and at a change no cycle downstream of a fault. -/
def Ends (net : Network) (inp : CommitInput) (s : State) : Prop :=
  ((∃ n, Faulted net inp n) → (s.mapDevices net inp).deviceMap ≠ none) ∧
    (Change net s inp → ∀ m, Faulted net inp m → inp.feeder.AcyclicFrom m)

theorem ends_of_onCommit (hm : Mapped net s) (h : onCommit net fuel s inp = .ok s') : Ends net inp s := by
  obtain ⟨r, hr, h⟩ := bind_ok.1 h
  have hd := detected hm.mapDevices hr
  refine ⟨(newFaultDetected_ends_iff hm.mapDevices).1 ⟨r, hr⟩, fun hc m hmf => ?_⟩
  have hr2 : r.2 = true := hd.change.2 (change_mapDevices.2 hc)
  have hmap : r.1.deviceMap = (s.mapDevices net inp).deviceMap := by rw [hd.frame]
  rw [if_pos hr2] at h
  obtain ⟨done, hdone, -⟩ := bind_ok.1 h
  rw [hmap, hd.deviceMap hr2] at hdone
  exact (walked_of_foldlM hdone).acyclic m ((hd.faultedNodes m).2 hmf)

theorem exists_onCommit (hm : Mapped net s) (h : Ends net inp s) (hfuel : inp.feeder.branches.rows.length < fuel) :
    ∃ s', onCommit net fuel s inp = .ok s' := by
  obtain ⟨r, hr⟩ := (newFaultDetected_ends_iff hm.mapDevices).2 h.1
  have hd := detected hm.mapDevices hr
  have hmap : r.1.deviceMap = (s.mapDevices net inp).deviceMap := by rw [hd.frame]
  by_cases hr2 : r.2 = true
  · have hacyc := h.2 (change_mapDevices.1 (hd.change.1 hr2))
    obtain ⟨done, hdone⟩ : ∃ done, r.1.faultedNodes.foldlM (shutoffNode net (some (mapDevicesToNodes net)) inp fuel)
        (r.1.loads, []) = .ok done :=
      exists_foldlM_shutoffNode hfuel _ fun m hm => hacyc m ((hd.faultedNodes m).1 hm)
    rw [← hd.deviceMap hr2, ← hmap] at hdone
    refine ⟨({ r.1 with loads := done.1 } : State).toggleSwitches done.2, bind_ok.2 ⟨r, hr, ?_⟩⟩
    rw [if_pos hr2]
    exact bind_ok.2 ⟨done, hdone, rfl⟩
  · exact ⟨r.1, bind_ok.2 ⟨r, hr, if_neg hr2⟩⟩

end Grip.Protection
