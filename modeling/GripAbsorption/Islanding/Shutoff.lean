/-
Isolation of a fault without islanding. `shutoff_noislanding` follows the closed branches from the faulted
node in the direction from `from` to `to`, level by level and with no record of the nodes it has seen, so
a cycle of closed branches keeps it going for ever; `get_connected_group` keeps one. Without a cycle
downstream it shuts off what is downstream.
-/
import GripAbsorption.Base.Levels
import GripAbsorption.Islanding.Payload

namespace Grip.Islanding

open Grip.Base

/-! ## The network -/

/-- `find`, for each class of `branchkind` in turn. -/
def findBranches (objects : List BranchObject) : List BranchObject :=
  [BranchClass.switch, .overheadLine, .undergroundLine].flatMap fun cl => objects.filter (·.cls = cl)

/-- Switches and lines by their names; GridLAB-D knows two statuses. -/
structure Feeder where
  branches : Table BranchObject.name
  status : ∀ b ∈ branches.rows, b.status = "CLOSED".toList ∨ b.status = "OPEN".toList

theorem mem_findBranches {objects : List BranchObject} {b : BranchObject} : b ∈ findBranches objects ↔ b ∈ objects := by
  unfold findBranches
  simp only [List.mem_flatMap, List.mem_filter, decide_eq_true_eq]
  constructor
  · rintro ⟨cl, -, hb, -⟩
    exact hb
  · intro hb
    exact ⟨b.cls, by cases b.cls <;> simp, hb, rfl⟩

theorem nodup_findBranches {objects : List BranchObject} (h : objects.Nodup) : (findBranches objects).Nodup := by
  unfold findBranches
  refine List.nodup_flatMap.2 ⟨fun cl _ => h.filter _, ?_⟩
  refine List.Pairwise.imp (fun hne b hb hb' => ?_) (show List.Pairwise (· ≠ ·) _ by decide)
  rw [List.mem_filter, decide_eq_true_eq] at hb hb'
  exact hne (hb.2.symm.trans hb'.2)

/-! ## The walk -/

/-- `gridlabd.get_value(s,"status")=="CLOSED"`. -/
def BranchObject.closed (s : BranchObject) : Bool := s.status = "CLOSED".toList

/-- `switchstat[gridlabd.get_value(link,'status')]`. -/
def isClosed (link : BranchObject) : Except ProcessErr Bool :=
  if link.status = "CLOSED".toList then .ok true else if link.status = "OPEN".toList then .ok false else .error .keyError

/-- The far end of a closed branch is one of the next nodes. -/
def linkTurn (nodes : List Text) (link : BranchObject) : Except ProcessErr (List Text) := do
  return if ← isClosed link then nodes ++ [link.toNode] else nodes

/-- `next_nodes` of a node. -/
def nextNodes (branches : List BranchObject) (node : Text) : Except ProcessErr (List Text) :=
  (branches.filter (·.fromNode = node)).foldlM linkTurn []

/-- The nodes `shutoff_loads` is called on, and the branches to open. -/
structure Shutoff where
  calls : List Text
  openswitches : List Text

/-- `shutoff_noislanding`. -/
def shutoffNoislanding (objects : List BranchObject) (fuel : ℕ) (faultedNode : Text) : Except ProcessErr Shutoff := do
  let branches := findBranches objects
  let openswitches := branches.filter fun br => br.toNode = faultedNode ∨ br.fromNode = faultedNode
  let turnoff ← levels (nextNodes branches) .running fuel [faultedNode] [faultedNode]
  let openswitches := openswitches.filter fun s =>
    ¬ "solar".toList <:+: s.name ∧ ¬ "battery".toList <:+: s.name ∧ s.closed
  return ⟨turnoff, openswitches.map (·.name)⟩

/-! ## Downstream -/

/-- The ends of the closed branches that start at a node. -/
def downstream (objects : List BranchObject) (node : Text) : List Text :=
  (((findBranches objects).filter (·.fromNode = node)).filter (·.closed)).map (·.toNode)

/-- A closed branch leads from one node to another. -/
theorem mem_downstream {objects : List BranchObject} {a b : Text} : b ∈ downstream objects a ↔
    ∃ br ∈ objects, br.fromNode = a ∧ br.toNode = b ∧ br.closed = true := by
  unfold downstream
  simp only [List.mem_map, List.mem_filter, mem_findBranches, decide_eq_true_eq]
  constructor
  · rintro ⟨br, ⟨⟨hbr, hfrom⟩, hst⟩, hto⟩
    exact ⟨br, hbr, hfrom, hto, hst⟩
  · rintro ⟨br, hbr, hfrom, hto, hst⟩
    exact ⟨br, ⟨⟨hbr, hfrom⟩, hst⟩, hto⟩

namespace Feeder

variable (net : Feeder)

/-- No lookup of a status fails. -/
theorem foldlM_linkTurn : ∀ {links : List BranchObject} (nodes : List Text), (∀ b ∈ links, b ∈ net.branches.rows) →
    links.foldlM linkTurn nodes = .ok (nodes ++ (links.filter (·.closed)).map (·.toNode))
  | [], nodes, _ => by simp; rfl
  | link :: links, nodes, h => by
    rw [List.forall_mem_cons] at h
    rw [List.foldlM_cons]
    rcases net.status link h.1 with hst | hst
    · have hturn : linkTurn nodes link = .ok (nodes ++ [link.toNode]) := by
        rw [linkTurn, isClosed, if_pos hst]
        rfl
      rw [hturn, List.filter_cons_of_pos (show link.closed = true from decide_eq_true hst)]
      refine (foldlM_linkTurn (nodes ++ [link.toNode]) h.2).trans ?_
      rw [List.map_cons, List.append_assoc, List.singleton_append]
    · have hne : ¬ link.status = "CLOSED".toList := by rw [hst]; decide +kernel
      have hturn : linkTurn nodes link = .ok nodes := by
        rw [linkTurn, isClosed, if_neg hne, if_pos hst]
        rfl
      rw [hturn, List.filter_cons_of_neg (show ¬ link.closed = true from fun hc => hne (of_decide_eq_true hc))]
      exact foldlM_linkTurn nodes h.2

theorem nextNodes_eq (node : Text) :
    nextNodes (findBranches net.branches.rows) node = .ok (downstream net.branches.rows node) := by
  unfold nextNodes downstream
  exact net.foldlM_linkTurn [] fun b hb => mem_findBranches.1 (List.mem_of_mem_filter hb)

theorem downstream_subset (node : Text) : downstream net.branches.rows node ⊆ net.branches.rows.map (·.toNode) := by
  intro b hb
  obtain ⟨br, hbr, -, rfl, -⟩ := mem_downstream.1 hb
  exact List.mem_map_of_mem hbr

/-- No directed cycle of closed branches can be reached from the node. -/
def AcyclicFrom (node : Text) : Prop := Base.AcyclicFrom (downstream net.branches.rows) node

theorem loop_ends_iff (faultedNode : Text) : (∃ fuel turnoff,
    levels (nextNodes (findBranches net.branches.rows)) .running fuel [faultedNode] [faultedNode] = .ok turnoff) ↔
      net.AcyclicFrom faultedNode :=
  levels_ends_iff net.nextNodes_eq net.downstream_subset faultedNode

theorem ends_of_shutoff {fuel : ℕ} {faultedNode : Text} {result : Shutoff}
    (h : shutoffNoislanding net.branches.rows fuel faultedNode = .ok result) : net.AcyclicFrom faultedNode := by
  obtain ⟨turnoff, hturnoff, -⟩ := bind_ok.1 h
  exact (net.loop_ends_iff faultedNode).1 ⟨fuel, turnoff, hturnoff⟩

/-- The loop ends exactly when no directed cycle of closed branches can be reached from the faulted node. -/
theorem shutoff_ends_iff (faultedNode : Text) :
    (∃ fuel result, shutoffNoislanding net.branches.rows fuel faultedNode = .ok result) ↔ net.AcyclicFrom faultedNode := by
  constructor
  · rintro ⟨fuel, result, h⟩
    exact net.ends_of_shutoff h
  · intro hacyc
    obtain ⟨fuel, turnoff, h⟩ := (net.loop_ends_iff faultedNode).2 hacyc
    exact ⟨fuel, _, bind_ok.2 ⟨turnoff, h, rfl⟩⟩

end Feeder

/-- A line each way between two nodes. -/
def loopFeeder : Feeder where
  branches := ⟨[⟨"l1".toList, .overheadLine, "b".toList, "a".toList, "CLOSED".toList⟩,
    ⟨"l2".toList, .overheadLine, "a".toList, "b".toList, "CLOSED".toList⟩], by decide +kernel⟩
  status := by decide +kernel

/-- With a fault at one of them the walk goes round for ever. -/
theorem loopFeeder_runs : ¬ ∃ fuel result, shutoffNoislanding loopFeeder.branches.rows fuel "a".toList = .ok result := by
  rintro ⟨fuel, result, h⟩
  refine loopFeeder.ends_of_shutoff h "a".toList .refl (.tail (b := "b".toList) (.single ?_) ?_) <;> decide +kernel

/-! ## What is shut off -/

namespace Feeder

variable (net : Feeder)

/-- The branches at the faulted node that are opened. -/
def ToOpen (faultedNode : Text) (br : BranchObject) : Prop :=
  (br.toNode = faultedNode ∨ br.fromNode = faultedNode) ∧ br.closed = true ∧
    ¬ "solar".toList <:+: br.name ∧ ¬ "battery".toList <:+: br.name

instance (faultedNode : Text) : DecidablePred (ToOpen faultedNode) := fun _ => inferInstanceAs (Decidable (_ ∧ _))

theorem nodup_names : ((findBranches net.branches.rows).map (·.name)).Nodup :=
  List.Nodup.map_on (fun _ hx _ hy he => List.inj_on_of_nodup_map net.branches.nodup (mem_findBranches.1 hx)
    (mem_findBranches.1 hy) he) (nodup_findBranches (List.Nodup.of_map _ net.branches.nodup))

/-- Without a cycle downstream `shutoff_loads` is called on the nodes downstream, and the closed branches at the faulted
node are returned once each. -/
theorem shutoff_spec {faultedNode : Text} (hacyc : net.AcyclicFrom faultedNode) {fuel : ℕ}
    (hfuel : net.branches.rows.length < fuel) : ∃ result,
      shutoffNoislanding net.branches.rows fuel faultedNode = .ok result ∧
      (∀ node, node ∈ result.calls ↔ Reaches (downstream net.branches.rows) faultedNode node) ∧
      result.openswitches.Nodup ∧
      ∀ s, s ∈ result.openswitches ↔ ∃ br ∈ net.branches.rows, br.name = s ∧ ToOpen faultedNode br := by
  obtain ⟨turnoff, hturnoff, hcalls⟩ : ∃ turnoff, levels (nextNodes (findBranches net.branches.rows)) .running fuel
      [faultedNode] [faultedNode] = .ok turnoff ∧ ∀ b, b ∈ turnoff ↔ Reaches (downstream net.branches.rows) faultedNode b :=
    levels_spec net.nextNodes_eq net.downstream_subset hacyc (by rwa [List.length_map])
  refine ⟨_, bind_ok.2 ⟨turnoff, hturnoff, rfl⟩, hcalls, ?_, fun s => ?_⟩
  · exact net.nodup_names.sublist ((List.filter_sublist.trans List.filter_sublist).map _)
  · simp only [List.mem_map, List.mem_filter, mem_findBranches, decide_eq_true_eq]
    refine exists_congr fun br => ⟨?_, ?_⟩
    · rintro ⟨⟨⟨hbr, hat⟩, hsolar, hbattery, hst⟩, hname⟩
      exact ⟨hbr, hname, hat, hst, hsolar, hbattery⟩
    · rintro ⟨hbr, hname, hat, hst, hsolar, hbattery⟩
      exact ⟨⟨⟨hbr, hat⟩, hsolar, hbattery, hst⟩, hname⟩

end Feeder

/-- Two ways from `a` to `d`, and a switch to a solar generator. -/
def diamondFeeder : Feeder where
  branches := ⟨[⟨"l1".toList, .overheadLine, "b".toList, "a".toList, "CLOSED".toList⟩,
    ⟨"l2".toList, .undergroundLine, "c".toList, "a".toList, "CLOSED".toList⟩,
    ⟨"l3".toList, .overheadLine, "d".toList, "b".toList, "CLOSED".toList⟩,
    ⟨"l4".toList, .overheadLine, "d".toList, "c".toList, "CLOSED".toList⟩,
    ⟨"l5".toList, .overheadLine, "a".toList, "d".toList, "OPEN".toList⟩,
    ⟨"sw_solar".toList, .switch, "solar".toList, "a".toList, "CLOSED".toList⟩], by decide +kernel⟩
  status := by decide +kernel

theorem diamondFeeder_shutoff : ∃ result, shutoffNoislanding diamondFeeder.branches.rows 7 "a".toList = .ok result ∧
    "d".toList ∈ result.calls ∧ "l1".toList ∈ result.openswitches ∧ "sw_solar".toList ∉ result.openswitches := by
  have hrun : (shutoffNoislanding diamondFeeder.branches.rows 7 "a".toList).toOption.isSome = true := by decide +kernel
  obtain ⟨result, hresult⟩ := Option.isSome_iff_exists.1 hrun
  rw [toOption_eq_some] at hresult
  obtain ⟨r, hr, hcalls, -, hopen⟩ := diamondFeeder.shutoff_spec (diamondFeeder.ends_of_shutoff hresult)
    (show diamondFeeder.branches.rows.length < 7 by decide)
  refine ⟨r, hr, (hcalls _).2 (.tail (b := "b".toList) (.single ?_) ?_), (hopen _).2 ?_, fun hmem => ?_⟩
  · decide +kernel
  · decide +kernel
  · exact ⟨_, List.mem_cons_self .., by decide +kernel, by decide +kernel⟩
  · obtain ⟨br, hbr, hname, -, -, hsolar, -⟩ := (hopen _).1 hmem
    refine hsolar ?_
    rw [hname]
    decide +kernel

end Grip.Islanding
