/-
What `shutoff_loads` does to the loads at a supernode: inverters go offline, with a line in the file of each,
triplex meters out of service, and water heaters are overridden. Nothing undoes it, so after any calls the loads that
are off are those that were and those at the nodes of the calls.

A water heater is found in the device map, which has the supernodes of the list only; inverters and meters are found
at any node.
-/
import GripAbsorption.Base.Latch
import GripAbsorption.Islanding.Shutoff

namespace Grip.Protection

open Grip.Base Grip.Islanding

/-! ## Loads -/

/-- A triplex meter, an inverter, a house or a water heater with its `supernode_name`. -/
structure LoadObject where
  name : Text
  supernodeName : Text

/-- What is found of the GridLAB-D model: the supernodes of `supernode_list`, and the loads by class. -/
structure Network where
  supernodes : List Text
  supernodes_nodup : supernodes.Nodup
  meters : List LoadObject
  inverters : List LoadObject
  houses : List LoadObject
  waterheaters : List LoadObject

/-- The entry of a supernode in the device map. -/
structure NodeDevices where
  houses : List Text
  waterheaters : List Text

/-- The names of the loads at a node. -/
def namesAt (objects : List LoadObject) (node : Text) : List Text :=
  (objects.filter (·.supernodeName = node)).map (·.name)

/-- `map_devices_to_nodes`. -/
def mapDevicesToNodes (net : Network) : Dict Text NodeDevices :=
  Table.ofList _ (net.supernodes.map fun node => (node,
    { houses := namesAt net.houses node
      waterheaters := namesAt net.waterheaters node }))

inductive Err
  /-- a lookup fails, or the walk downstream has not ended yet -/
  | shutoff (e : ProcessErr)
  /-- `None` is searched -/
  | noneType
  deriving DecidableEq, Repr

/-- What is set of a load, by its name, and the text of its file of power. -/
structure GldLoads where
  pOut : Text → Text
  generatorStatus : Text → Text
  pOutFile : Text → Text
  serviceStatus : Text → Text
  reOverride : Text → Text

/-- The line that is appended at a time of the clock. -/
def zeroLine (clock : Text) : Text := clock ++ ", 0\n".toList

/-- The three writes for one inverter. -/
def shutoffInverter (clock : Text) (gld : GldLoads) (inv : Text) : GldLoads :=
  { gld with
    pOut := Function.update gld.pOut inv "0".toList
    generatorStatus := Function.update gld.generatorStatus inv "OFFLINE".toList
    pOutFile := Function.update gld.pOutFile inv (gld.pOutFile inv ++ zeroLine clock) }

/-- The water heaters at a node, none at a node that is not in the map. -/
def waterheatersAt (map : Dict Text NodeDevices) (node : Text) : List Text :=
  match map.get? node with
  | none => []
  | some devices => devices.waterheaters

/-- `shutoff_loads`. -/
def shutoffLoads (net : Network) (deviceMap : Option (Dict Text NodeDevices)) (clock : Text) (gld : GldLoads) (node : Text) :
    Except Err GldLoads := do
  let gld := (namesAt net.inverters node).foldl (shutoffInverter clock) gld
  let gld := { gld with
    serviceStatus := (namesAt net.meters node).foldl (Function.update · · "OUT_OF_SERVICE".toList) gld.serviceStatus }
  let map ← orRaise .noneType deviceMap
  return { gld with reOverride := (waterheatersAt map node).foldl (Function.update · · "OV_OFF".toList) gld.reOverride }

/-! ## What is off -/

/-- `shutoff_loads` was called at the clock on the node. -/
abbrev Calls := Text → Text → Prop

/-- A load of that name is at the node of a call. -/
def Hit (objects : List LoadObject) (calls : Calls) (name : Text) : Prop :=
  ∃ o ∈ objects, o.name = name ∧ ∃ clock, calls clock o.supernodeName

/-- What the calls have done. -/
structure ShutOff (net : Network) (calls : Calls) (gld gld' : GldLoads) : Prop where
  pOut : Latched (Hit net.inverters calls) "0".toList gld.pOut gld'.pOut
  generatorStatus : Latched (Hit net.inverters calls) "OFFLINE".toList gld.generatorStatus gld'.generatorStatus
  pOutFile : ∀ inv, Extended zeroLine (fun clock => ∃ o ∈ net.inverters, o.name = inv ∧ calls clock o.supernodeName)
    (gld.pOutFile inv) (gld'.pOutFile inv)
  serviceStatus : Latched (Hit net.meters calls) "OUT_OF_SERVICE".toList gld.serviceStatus gld'.serviceStatus
  reOverride : Latched (Hit net.waterheaters fun clock node => node ∈ net.supernodes ∧ calls clock node) "OV_OFF".toList
    gld.reOverride gld'.reOverride

variable {net : Network} {objects : List LoadObject} {calls calls' : Calls} {gld gld' gld'' : GldLoads} {clock node : Text}

theorem mem_namesAt {name : Text} : name ∈ namesAt objects node ↔ ∃ o ∈ objects, o.name = name ∧ o.supernodeName = node := by
  unfold namesAt
  simp only [List.mem_map, List.mem_filter, decide_eq_true_eq]
  constructor
  · rintro ⟨o, ⟨ho, hnode⟩, hname⟩
    exact ⟨o, ho, hname, hnode⟩
  · rintro ⟨o, ho, hname, hnode⟩
    exact ⟨o, ⟨ho, hnode⟩, hname⟩

theorem hit_congr (h : ∀ clock node, calls clock node ↔ calls' clock node) (name : Text) :
    Hit objects calls name ↔ Hit objects calls' name := by
  unfold Hit
  simp only [h]

theorem hit_or {name : Text} : Hit objects (fun clock node => calls clock node ∨ calls' clock node) name ↔
    Hit objects calls name ∨ Hit objects calls' name := by
  unfold Hit
  constructor
  · rintro ⟨o, ho, hname, clock, h | h⟩
    exacts [.inl ⟨o, ho, hname, clock, h⟩, .inr ⟨o, ho, hname, clock, h⟩]
  · rintro (⟨o, ho, hname, clock, h⟩ | ⟨o, ho, hname, clock, h⟩)
    exacts [⟨o, ho, hname, clock, .inl h⟩, ⟨o, ho, hname, clock, .inr h⟩]

namespace ShutOff

theorem refl (h : ∀ clock node, ¬ calls clock node) : ShutOff net calls gld gld where
  pOut := .refl fun _ ⟨_, _, _, clock, hc⟩ => h clock _ hc
  generatorStatus := .refl fun _ ⟨_, _, _, clock, hc⟩ => h clock _ hc
  pOutFile _ := .refl fun clock ⟨_, _, _, hc⟩ => h clock _ hc
  serviceStatus := .refl fun _ ⟨_, _, _, clock, hc⟩ => h clock _ hc
  reOverride := .refl fun _ ⟨_, _, _, clock, _, hc⟩ => h clock _ hc

theorem congr (h : ShutOff net calls gld gld') (hiff : ∀ clock node, calls clock node ↔ calls' clock node) :
    ShutOff net calls' gld gld' where
  pOut := h.pOut.congr (hit_congr hiff)
  generatorStatus := h.generatorStatus.congr (hit_congr hiff)
  pOutFile inv := (h.pOutFile inv).congr fun clock => by simp only [hiff]
  serviceStatus := h.serviceStatus.congr (hit_congr hiff)
  reOverride := h.reOverride.congr (hit_congr fun clock node => and_congr_right fun _ => hiff clock node)

theorem trans (h : ShutOff net calls gld gld') (h' : ShutOff net calls' gld' gld'') :
    ShutOff net (fun clock node => calls clock node ∨ calls' clock node) gld gld'' where
  pOut := (h.pOut.trans h'.pOut).congr fun _ => hit_or.symm
  generatorStatus := (h.generatorStatus.trans h'.generatorStatus).congr fun _ => hit_or.symm
  pOutFile inv := ((h.pOutFile inv).trans (h'.pOutFile inv)).congr fun clock => by
    simp only [and_or_left, exists_or]
  serviceStatus := (h.serviceStatus.trans h'.serviceStatus).congr fun _ => hit_or.symm
  reOverride := (h.reOverride.trans h'.reOverride).congr fun name => by
    rw [← hit_or]
    exact hit_congr (fun clock node => and_or_left.symm) name

end ShutOff

/-! ## One call -/

/-- The inverters at a node, each with the three writes. -/
theorem foldl_shutoffInverter (clock : Text) : ∀ (invs : List Text) (gld : GldLoads),
    Latched (· ∈ invs) "0".toList gld.pOut (invs.foldl (shutoffInverter clock) gld).pOut ∧
      Latched (· ∈ invs) "OFFLINE".toList gld.generatorStatus (invs.foldl (shutoffInverter clock) gld).generatorStatus ∧
      (∀ inv, Extended zeroLine (fun k => inv ∈ invs ∧ k = clock) (gld.pOutFile inv)
        ((invs.foldl (shutoffInverter clock) gld).pOutFile inv)) ∧
      (invs.foldl (shutoffInverter clock) gld).serviceStatus = gld.serviceStatus ∧
      (invs.foldl (shutoffInverter clock) gld).reOverride = gld.reOverride
  | [], gld => ⟨.refl fun _ => List.not_mem_nil, .refl fun _ => List.not_mem_nil,
      fun _ => .refl fun _ h => List.not_mem_nil h.1, rfl, rfl⟩
  | i :: invs, gld => by
    obtain ⟨hp, hg, hf, hs, hr⟩ := foldl_shutoffInverter clock invs (shutoffInverter clock gld i)
    rw [List.foldl_cons]
    refine ⟨?_, ?_, fun inv => ?_, hs, hr⟩
    · exact ((latched_foldl_update _ [i] gld.pOut).trans hp).congr fun n => by simp
    · exact ((latched_foldl_update _ [i] gld.generatorStatus).trans hg).congr fun n => by simp
    · -- the file of the first inverter gets a line
      have hfirst : Extended zeroLine (fun k => inv = i ∧ k = clock) (gld.pOutFile inv)
          ((shutoffInverter clock gld i).pOutFile inv) := by
        by_cases hi : inv = i
        · subst hi
          refine ⟨[clock], ?_, fun k => by simp⟩
          show Function.update gld.pOutFile inv _ inv = _
          rw [Function.update_self]
          simp
        · have hkept : (shutoffInverter clock gld i).pOutFile inv = gld.pOutFile inv := Function.update_of_ne hi ..
          rw [hkept]
          exact .refl fun k hk => hi hk.1
      refine (hfirst.trans (hf inv)).congr fun k => ?_
      rw [List.mem_cons, or_and_right]

theorem mem_waterheatersAt {name : Text} : name ∈ waterheatersAt (mapDevicesToNodes net) node ↔
    node ∈ net.supernodes ∧ name ∈ namesAt net.waterheaters node := by
  have hrows : (mapDevicesToNodes net).rows = net.supernodes.map fun n => (n,
      (⟨namesAt net.houses n, namesAt net.waterheaters n⟩ : NodeDevices)) :=
    Table.rows_ofList (by
      rw [List.map_map]
      exact (List.map_id' net.supernodes).symm ▸ net.supernodes_nodup)
  unfold waterheatersAt
  cases hget : (mapDevicesToNodes net).get? node with
  | none =>
    refine iff_of_false List.not_mem_nil fun h => ?_
    have hkey : node ∈ (mapDevicesToNodes net).keys := by
      rw [Table.mem_keys, hrows]
      exact ⟨_, List.mem_map_of_mem h.1, rfl⟩
    obtain ⟨d, hd⟩ := Dict.mem_keys_iff.1 hkey
    rw [hd] at hget
    cases hget
  | some d =>
    rw [Dict.get?_eq_some, hrows] at hget
    obtain ⟨n, hn, he⟩ := List.mem_map.1 hget
    cases he
    exact (and_iff_right hn).symm

/-- With a device map a call returns, and does what it says at its node. -/
theorem shutoffLoads_spec (net : Network) (clock : Text) (gld : GldLoads) (node : Text) : ∃ gld',
    shutoffLoads net (some (mapDevicesToNodes net)) clock gld node = .ok gld' ∧
      ShutOff net (fun k n => k = clock ∧ n = node) gld gld' := by
  have hat : ∀ objects name, name ∈ namesAt objects node ↔ Hit objects (fun k n => k = clock ∧ n = node) name := by
    intro objects name
    rw [mem_namesAt]
    simp only [Hit, exists_and_right, exists_eq, true_and]
  obtain ⟨hp, hg, hf, hs, hr⟩ := foldl_shutoffInverter clock (namesAt net.inverters node) gld
  refine ⟨_, rfl, hp.congr (hat _), hg.congr (hat _), fun inv => (hf inv).congr fun k => ?_, ?_, ?_⟩
  · rw [mem_namesAt]
    constructor
    · rintro ⟨⟨o, ho, hname, hnode⟩, hk⟩
      exact ⟨o, ho, hname, hk, hnode⟩
    · rintro ⟨o, ho, hname, hk, hnode⟩
      exact ⟨⟨o, ho, hname, hnode⟩, hk⟩
  · have hmeters := latched_foldl_update "OUT_OF_SERVICE".toList (namesAt net.meters node)
      ((namesAt net.inverters node).foldl (shutoffInverter clock) gld).serviceStatus
    rw [hs] at hmeters ⊢
    exact hmeters.congr (hat _)
  · have hheaters := latched_foldl_update "OV_OFF".toList (waterheatersAt (mapDevicesToNodes net) node)
      ((namesAt net.inverters node).foldl (shutoffInverter clock) gld).reOverride
    rw [hr] at hheaters ⊢
    refine hheaters.congr fun name => ?_
    rw [mem_waterheatersAt, mem_namesAt]
    constructor
    · rintro ⟨hnode, o, ho, hname, rfl⟩
      exact ⟨o, ho, hname, clock, hnode, rfl, rfl⟩
    · rintro ⟨o, ho, hname, k, hnode, -, rfl⟩
      exact ⟨hnode, o, ho, hname, rfl⟩

/-- Without one it raises. -/
theorem shutoffLoads_none (net : Network) (clock : Text) (gld : GldLoads) (node : Text) :
    shutoffLoads net none clock gld node = .error .noneType := rfl

/-! ## Calls -/

/-- A loop of calls. -/
theorem foldlM_shutoffLoads (net : Network) (clock : Text) : ∀ (nodes : List Text) (gld : GldLoads), ∃ gld',
    nodes.foldlM (shutoffLoads net (some (mapDevicesToNodes net)) clock) gld = .ok gld' ∧
      ShutOff net (fun k n => k = clock ∧ n ∈ nodes) gld gld'
  | [], gld => ⟨gld, rfl, .refl fun _ _ h => List.not_mem_nil h.2⟩
  | node :: nodes, gld => by
    obtain ⟨gld₁, h₁, hs₁⟩ := shutoffLoads_spec net clock gld node
    obtain ⟨gld₂, h₂, hs₂⟩ := foldlM_shutoffLoads net clock nodes gld₁
    refine ⟨gld₂, by rw [List.foldlM_cons, h₁]; exact h₂, (hs₁.trans hs₂).congr fun k n => ?_⟩
    rw [List.mem_cons, and_or_left]

end Grip.Protection
