/-
What `update_VB` builds: a battery for every island of the partition and for no other, holding
devices of the island's own supernodes, and the list of all islanded devices.
-/
import GripAbsorption.Absorption.Moves
import GripAbsorption.Absorption.Commit

namespace Grip.Absorption

open Grip.Base Grip.Packetized Relation

/-! ## Where a device is -/

/-- The device exists and its supernode is one of the island's. -/
def Network.At (net : Network) (island : Island) : DeviceId → Prop
  | .house n => n ∈ net.houses ∧ net.supernodeName (.house n) ∈ island
  | .waterheater n => n ∈ net.waterheaters ∧ net.supernodeName (.waterheater n) ∈ island

theorem Network.At.mem {net : Network} {island : Island} {id : DeviceId} (h : net.At island id) :
    net.supernodeName id ∈ island := by
  cases id <;> exact h.2

namespace Globals

variable {net : Network} {inp : ManageInput} {island : Island} {s s' : Globals}

theorem battery_congr (h : s'.virtualBattery = s.virtualBattery) (i : Island) : s'.battery i = s.battery i := by
  unfold battery
  rw [h]

theorem noBattery_congr (h : s'.virtualBattery = s.virtualBattery) : s'.noBattery = s.noBattery := by
  unfold noBattery
  rw [h]

def HasBattery (s : Globals) (island : Island) : Prop := ∃ vb, s.battery island = .ok vb

theorem hasBattery_iff : s.HasBattery island ↔ ∃ ks, s.virtualBattery.map Table.keys = some ks ∧ island ∈ ks := by
  unfold HasBattery
  simp only [battery_eq_ok]
  constructor
  · rintro ⟨vb, vbs, hs, hvb⟩
    exact ⟨vbs.keys, by rw [hs]; rfl, Dict.mem_keys_iff.2 ⟨vb, hvb⟩⟩
  · rintro ⟨ks, hks, hi⟩
    obtain ⟨vbs, hs, rfl⟩ := Option.map_eq_some_iff.1 hks
    obtain ⟨vb, hvb⟩ := Dict.mem_keys_iff.1 hi
    exact ⟨vb, vbs, hs, hvb⟩

theorem HasBattery.congr (h : s.HasBattery island)
    (hk : s'.virtualBattery.map Table.keys = s.virtualBattery.map Table.keys) : s'.HasBattery island := by
  rw [hasBattery_iff] at *
  rw [hk]; exact h

theorem HasBattery.move {i : Island} (h : s.HasBattery i) (hm : Move inp island s s') : s'.HasBattery i :=
  h.congr hm.unmoved.batteries

theorem HasBattery.moves {i : Island} (h : s.HasBattery i) (hm : ReflTransGen (Move inp island) s s') :
    s'.HasBattery i :=
  h.congr (unmoved_of_moves hm).batteries

/-! ## Devices of an island -/

/-- The device map is missing or the network's. -/
def Mapped (net : Network) (s : Globals) : Prop := ∀ m, s.deviceMap = some m → m = mapDevicesToNodes net

theorem nodeDevices_eq {node : ℕ} {nd : NodeDevices} (hm : s.Mapped net) (h : s.nodeDevices node = .ok nd) :
    nd = ⟨net.houses.filter fun n => net.supernodeName (.house n) = node,
      net.waterheaters.filter fun n => net.supernodeName (.waterheater n) = node⟩ := by
  unfold nodeDevices at h
  cases hd : s.deviceMap with
  | none => rw [hd] at h; cases h
  | some m =>
    rw [hd] at h
    have hrow := Dict.get?_eq_some.1 (orRaise_eq_ok.1 h)
    rw [hm m hd] at hrow
    obtain ⟨x, -, hx⟩ := List.mem_map.1 (Table.mem_of_mem_ofList hrow)
    cases hx; rfl

/-- The loop over an island's nodes adds their houses and water heaters to the sets. -/
theorem foldlM_nodeDevices (hm : s.Mapped net) : ∀ {nodes : List ℕ} {acc sets : List ℕ × List ℕ},
    nodes.foldlM (fun sets node => do
      let nd ← s.nodeDevices node
      return (sets.1 ∪ nd.houses, sets.2 ∪ nd.waterheaters)) acc = .ok sets →
    (∀ n, n ∈ sets.1 ↔ n ∈ acc.1 ∨ net.At nodes (.house n)) ∧
      (∀ n, n ∈ sets.2 ↔ n ∈ acc.2 ∨ net.At nodes (.waterheater n))
  | [], acc, sets, h => by
    cases h
    simp [Network.At]
  | node :: nodes, acc, sets, h => by
    rw [List.foldlM_cons, bind_ok] at h
    obtain ⟨acc', hacc, h⟩ := h
    obtain ⟨nd, hnd, hacc⟩ := bind_ok.1 hacc
    cases hacc
    obtain rfl := nodeDevices_eq hm hnd
    obtain ⟨h1, h2⟩ := foldlM_nodeDevices hm h
    simp only [List.mem_union_iff, List.mem_filter, decide_eq_true_eq, Network.At, List.mem_cons] at h1 h2 ⊢
    refine ⟨fun n => ?_, fun n => ?_⟩
    · rw [h1 n]; tauto
    · rw [h2 n]; tauto

/-- The sets of an island's devices. -/
theorem islandSets_spec (hm : s.Mapped net) {sets : List ℕ × List ℕ} (h : s.islandSets island = .ok sets) :
    (∀ n, n ∈ sets.1 ↔ net.At island (.house n)) ∧ (∀ n, n ∈ sets.2 ↔ net.At island (.waterheater n)) := by
  simpa using foldlM_nodeDevices hm h

theorem mapM_device {s : Globals} : ∀ {ids : List DeviceId} {ds : List (VbDevice ℚ)}, ids.mapM s.device = .ok ds →
    ds.map VbDevice.deviceId = ids
  | [], ds, h => by cases h; rfl
  | id :: ids, ds, h => by
    rw [List.mapM_cons, bind_ok] at h
    obtain ⟨d, hd, h⟩ := h
    obtain ⟨ds', hds, h⟩ := bind_ok.1 h
    cases h
    rw [List.map_cons, deviceId_of_device hd, mapM_device hds]

theorem keys_init {gld : Gld ℚ} {ds : List (VbDevice ℚ)} {id : DeviceId}
    (h : id ∈ (VirtualBattery.init gld ds).devices.keys) : id ∈ ds.map VbDevice.deviceId := by
  unfold VirtualBattery.init VirtualBattery.updateSoc at h
  rw [Table.keys_mapRows] at h
  obtain ⟨d, hd, rfl⟩ := Table.mem_keys.1 h
  exact List.mem_map_of_mem (Table.mem_of_mem_ofList hd)

/-- The battery of one island. -/
theorem islandBattery_spec {inp : CommitInput} {acc acc' : Globals × Batteries} (hm : acc.1.Mapped net)
    (h : islandBattery inp acc island = .ok acc') : ∃ ids vb,
      acc' = ({ acc.1 with islandedDevices := acc.1.islandedDevices ++ ids }, acc.2.put island vb) ∧
      (∀ id, id ∈ ids ↔ net.At island id) ∧ ∀ id ∈ vb.devices.keys, net.At island id := by
  obtain ⟨s, vbs⟩ := acc
  simp only [islandBattery] at h
  obtain ⟨⟨hs, ws⟩, hsets, h⟩ := bind_ok.1 h
  obtain ⟨ds, hds, h⟩ := bind_ok.1 h
  cases h
  obtain ⟨h1, h2⟩ := islandSets_spec hm hsets
  have hids := mapM_device hds
  refine ⟨(shuffle (inp.setOrder island) hs).map .house ++ (shuffle (inp.setOrder island) ws).map .waterheater, _,
    by rw [List.append_assoc], fun id => ?_, fun id hid => ?_⟩
  · cases id with
    | house n => simp [h1 n]
    | waterheater n => simp [h2 n]
  · have hid := keys_init hid
    rw [hids] at hid
    cases id with
    | house n => simpa [h1 n] using hid
    | waterheater n => simpa [h2 n] using hid

/-! ## The partition -/

/-- The loop over the islands: their devices are listed, and each gets a battery of its own devices. -/
theorem islandBatteries_spec {inp : CommitInput} : ∀ {islands : List Island} {acc acc' : Globals × Batteries},
    islands.foldlM (islandBattery inp) acc = .ok acc' → acc.1.Mapped net → ∃ ids,
      acc'.1 = { acc.1 with islandedDevices := acc.1.islandedDevices ++ ids } ∧
      (∀ id, id ∈ ids ↔ ∃ i ∈ islands, net.At i id) ∧ (∀ i, i ∈ acc'.2.keys ↔ i ∈ acc.2.keys ∨ i ∈ islands) ∧
      ∀ i vb, acc'.2.get? i = some vb → acc.2.get? i = some vb ∨ ∀ id ∈ vb.devices.keys, net.At i id
  | [], acc, acc', h, _ => by
    cases h
    exact ⟨[], by rw [List.append_nil], by simp, by simp, fun i vb h => .inl h⟩
  | island :: islands, acc, acc', h, hm => by
    rw [List.foldlM_cons, bind_ok] at h
    obtain ⟨acc₁, h₁, h⟩ := h
    obtain ⟨ids₁, vb₁, rfl, hids₁, hvb₁⟩ := islandBattery_spec hm h₁
    obtain ⟨ids, hs, hids, hkeys, hdev⟩ := islandBatteries_spec h hm
    refine ⟨ids₁ ++ ids, by rw [hs, List.append_assoc], fun id => ?_, fun i => ?_, fun i vb hi => ?_⟩
    · rw [List.mem_append, hids₁, hids]
      simp
    · rw [hkeys, show i ∈ (acc.2.put island vb₁).keys ↔ _ from Table.mem_keys_set, List.mem_cons]
      tauto
    · rcases hdev i vb hi with h₂ | h₂
      · rw [Dict.get?_put] at h₂
        by_cases he : island = i
        · rw [if_pos he] at h₂
          cases h₂
          exact .inr (he ▸ hvb₁)
        · rw [if_neg he] at h₂
          exact .inl h₂
      · exact .inr h₂

/-- The batteries and the list of islanded devices are those of the partition. -/
structure Partitioned (net : Network) (islands : List Island) (s : Globals) : Prop where
  deviceMap : s.deviceMap = some (mapDevicesToNodes net)
  islanded : ∀ id, id ∈ s.islandedDevices ↔ ∃ i ∈ islands, net.At i id
  batteries : ∀ i, s.HasBattery i ↔ i ∈ islands
  devices : ∀ i vb, s.battery i = .ok vb → ∀ id ∈ vb.devices.keys, net.At i id
  noBattery : s.noBattery = true ↔ islands = []

theorem ensureDeviceMap_eq (hm : s.Mapped net) :
    s.ensureDeviceMap net = { s with deviceMap := some (mapDevicesToNodes net) } := by
  unfold ensureDeviceMap
  cases hd : s.deviceMap with
  | none => rfl
  | some m =>
    simp only
    split
    · rfl
    · rw [← hm m hd, ← hd]

theorem updateVB_spec {inp : CommitInput} {islands : List Island} (hm : s.Mapped net)
    (h : s.updateVB net inp islands = .ok s') : Partitioned net islands s' ∧ ∃ ids vbs,
      s' = { s with deviceMap := some (mapDevicesToNodes net), islandedDevices := ids, virtualBattery := vbs } := by
  unfold updateVB at h
  rw [ensureDeviceMap_eq hm] at h
  obtain ⟨⟨s₁, vbs⟩, hf, h⟩ := bind_ok.1 h
  cases h
  obtain ⟨ids, rfl, hids, hkeys, hdev⟩ := islandBatteries_spec hf (show Mapped net _ from fun m hm => by cases hm; rfl)
  have hk : ∀ i, i ∈ vbs.keys ↔ i ∈ islands := fun i => by simpa [Dict.empty, Table.keys] using hkeys i
  have hempty : vbs.rows = [] ↔ islands = [] := by
    rw [← List.map_eq_nil_iff (f := Prod.fst), List.eq_nil_iff_forall_not_mem, List.eq_nil_iff_forall_not_mem]
    exact forall_congr' fun i => not_congr (hk i)
  refine ⟨⟨rfl, by simpa using hids, fun i => ?_, fun i vb hb => ?_, ?_⟩, ids, _, rfl⟩
  · rw [hasBattery_iff, ← hk]
    split
    · rename_i he
      simp [he, Table.keys]
    · simp
  · obtain ⟨vbs', hs, hg⟩ := battery_eq_ok.1 hb
    simp only at hs
    split at hs
    · cases hs
    · cases hs
      exact (hdev i vb hg).resolve_left (by simp [Dict.empty, Dict.get?, Table.find?, Table.empty])
  · unfold noBattery
    simp only
    split
    · rename_i hs
      split at hs
      · rename_i he; simpa using hempty.1 he
      · cases hs
    · rename_i hs
      split at hs
      · cases hs
      · cases hs
        rw [List.isEmpty_iff, hempty]

/-! ## Before control -/

/-- The commit brings a partition that is not the one in force. -/
def ChangesPartition (net : Network) (s : Globals) (inp : CommitInput) : Prop :=
  (s.newFaultDetected net inp.fault).2 = true ∧ s.islands ≠ some inp.partition

instance (inp : CommitInput) : Decidable (s.ChangesPartition net inp) := inferInstanceAs (Decidable (_ ∧ _))

/-- The release loop over some houses. -/
theorem thermostatControl_release (s : Globals) (n : ℕ) : ∀ (hs : List ℕ) (st : GldState ℚ), (hs.foldl (fun st n =>
    if .house n ∈ s.islandedDevices then st else tempControlAbsorption st n) st).thermostatControl (.house n) =
      if n ∈ hs ∧ .house n ∉ s.islandedDevices then .full else st.thermostatControl (.house n)
  | [], st => by simp
  | m :: hs, st => by
    rw [List.foldl_cons, thermostatControl_release s n hs]
    by_cases hn : n = m
    · subst hn
      by_cases hd : DeviceId.house n ∈ s.islandedDevices <;> simp [hd, tempControlAbsorption]
    · by_cases hd : DeviceId.house m ∈ s.islandedDevices <;> simp [hd, hn, tempControlAbsorption]

theorem thermostatControl_releaseHouses (net : Network) (s : Globals) (n : ℕ) :
    (s.releaseHouses net).gldState.thermostatControl (.house n) =
      if n ∈ net.houses ∧ .house n ∉ s.islandedDevices then .full else s.gldState.thermostatControl (.house n) :=
  thermostatControl_release s n net.houses s.gldState

/-- What the part of a commit before control does to a state with no new islands pending. -/
structure Prepared (net : Network) (inp : CommitInput) (s s' : Globals) : Prop where
  tStart : s'.tStart = s.tStart
  mapped : s'.Mapped net
  reIsland : s'.reIsland = false
  islanded : s'.islanded = (s.islanded || (s.newFaultDetected net inp.fault).2)
  powerbal : s'.powerbal = s.powerbal
  housesOff : s'.housesOff = s.housesOff
  same : ¬ s.ChangesPartition net inp → s'.islands = s.islands ∧ s'.virtualBattery = s.virtualBattery ∧
    s'.islandedDevices = s.islandedDevices
  new : s.ChangesPartition net inp → s'.islands = some inp.partition ∧ Partitioned net inp.partition s'
  /-- thermostats change only by release, which goes by the old list of islanded devices unless
  there was no battery -/
  thermostat : ∃ ids, (∀ n, s'.gldState.thermostatControl (.house n) =
      if (s.newFaultDetected net inp.fault).2 = true ∧ n ∈ net.houses ∧ .house n ∉ ids then .full
      else s.gldState.thermostatControl (.house n)) ∧
    (s.ChangesPartition net inp ∧ s.noBattery = true → ∀ id, id ∈ ids ↔ ∃ i ∈ inp.partition, net.At i id) ∧
    (¬ (s.ChangesPartition net inp ∧ s.noBattery = true) → ids = s.islandedDevices)

theorem Mapped.congr (hm : s.Mapped net) (h : s'.deviceMap = s.deviceMap) : s'.Mapped net := by
  unfold Mapped; rw [h]; exact hm

theorem Partitioned.congr {islands : List Island} (h : Partitioned net islands s) (hd : s'.deviceMap = s.deviceMap)
    (hi : s'.islandedDevices = s.islandedDevices) (hv : s'.virtualBattery = s.virtualBattery) :
    Partitioned net islands s' := by
  have hb := battery_congr hv
  refine ⟨hd.trans h.deviceMap, by rw [hi]; exact h.islanded, fun i => ?_, fun i vb hvb => ?_, ?_⟩
  · unfold HasBattery; rw [hb]; exact h.batteries i
  · exact h.devices i vb (by rw [← hb]; exact hvb)
  · rw [noBattery_congr hv]; exact h.noBattery

/-- New batteries for a partition that is in force. -/
theorem reIslandBatteries_spec {inp : CommitInput} {islands : List Island} (hm : s.Mapped net) (hr : s.reIsland = true)
    (hi : s.islands = some islands) (h : s.reIslandBatteries net inp = .ok s') :
    Partitioned net islands s' ∧ ∃ dm ids vbs load, s' = { s with
      deviceMap := dm, islandedDevices := ids, virtualBattery := vbs, loadPerHouse := load, reIsland := false } := by
  unfold reIslandBatteries at h
  rw [if_pos hr, hi] at h
  obtain ⟨s₁, h₁, h⟩ := bind_ok.1 h
  cases h
  obtain ⟨hp, ids, vbs, rfl⟩ := updateVB_spec hm h₁
  exact ⟨hp.congr rfl rfl rfl, _, ids, vbs, _, rfl⟩

/-- A changed fault list: the partition is adopted and the houses outside the listed devices are
released. -/
theorem adoptPartition_spec {inp : CommitInput} (hm : s.Mapped net) (h : s.adoptPartition net inp = .ok s') :
    (∃ dm devs vbs st, s' = { s with
      reIsland := decide (s.islands ≠ some inp.partition), islands := some inp.partition, islanded := true,
      deviceMap := dm, islandedDevices := devs, virtualBattery := vbs, gldState := st }) ∧ s'.Mapped net ∧
    (∀ n, s'.gldState.thermostatControl (.house n) =
      if n ∈ net.houses ∧ .house n ∉ s'.islandedDevices then .full else s.gldState.thermostatControl (.house n)) ∧
    (s.islands ≠ some inp.partition ∧ s.noBattery = true →
      ∀ id, id ∈ s'.islandedDevices ↔ ∃ i ∈ inp.partition, net.At i id) ∧
    (¬ (s.islands ≠ some inp.partition ∧ s.noBattery = true) →
      s'.virtualBattery = s.virtualBattery ∧ s'.islandedDevices = s.islandedDevices) := by
  unfold adoptPartition at h
  obtain ⟨s₁, h₁, h⟩ := bind_ok.1 h
  cases h
  have hnb : ∀ r i d, noBattery { s with reIsland := r, islands := i, islanded := d } = s.noBattery := fun _ _ _ => rfl
  by_cases hc : s.islands ≠ some inp.partition ∧ s.noBattery = true
  · rw [if_pos ⟨hnb _ _ _ ▸ hc.2, decide_eq_true hc.1⟩] at h₁
    obtain ⟨hp, ids, vbs, rfl⟩ := updateVB_spec (s := { s with
      reIsland := decide (s.islands ≠ some inp.partition), islands := some inp.partition, islanded := true }) hm h₁
    exact ⟨⟨_, ids, vbs, _, rfl⟩, fun m hm => by cases hm; rfl, thermostatControl_releaseHouses net _,
      fun _ => hp.islanded, fun hn => absurd hc hn⟩
  · rw [if_neg fun ⟨hb, hr⟩ => hc ⟨of_decide_eq_true hr, hb⟩] at h₁
    cases h₁
    exact ⟨⟨_, _, _, _, rfl⟩, hm, thermostatControl_releaseHouses net _, fun hc' => absurd hc' hc, fun _ => ⟨rfl, rfl⟩⟩

/-- The part of a commit before control: the devices, the faults, the partition, the batteries. -/
theorem prepare_eq_ok {inp : CommitInput} (hm : s.Mapped net) (h : s.prepare net inp = .ok s') : ∃ s₀ s₁,
    (∃ dm ad fs, s₀ = { s with deviceMap := dm, allDevices := ad, faultedNodes := fs }) ∧ s₀.Mapped net ∧
    (if (s.newFaultDetected net inp.fault).2 then s₀.adoptPartition net inp else pure s₀) = .ok s₁ ∧
    s₁.reIslandBatteries net inp = .ok s' := by
  obtain ⟨dm, ad, hs₀, hdm⟩ : ∃ dm ad, (if inp.time - s.tStart = 0 then s.initializeDevices net inp else s) =
      { s with deviceMap := dm, allDevices := ad } ∧ ∀ m, dm = some m → m = mapDevicesToNodes net := by
    split
    · exact ⟨_, _, rfl, fun m hm => by cases hm; rfl⟩
    · exact ⟨_, _, rfl, hm⟩
  unfold prepare at h
  rw [hs₀] at h
  obtain ⟨s₁, h₁, h⟩ := bind_ok.1 h
  exact ⟨_, s₁, ⟨dm, ad, _, rfl⟩, hdm, h₁, h⟩

theorem prepare_spec {inp : CommitInput} (hm : s.Mapped net) (hr : s.reIsland = false)
    (h : s.prepare net inp = .ok s') : Prepared net inp s s' := by
  obtain ⟨-, s₁, ⟨dm, ad, fs, rfl⟩, hdm, h₁, h⟩ := prepare_eq_ok hm h
  cases hf : (s.newFaultDetected net inp.fault).2 with
  | false =>
    -- no change of faults: nothing happens
    have hsame : ¬ s.ChangesPartition net inp := fun hc => by rw [hc.1] at hf; cases hf
    simp only [hf] at h₁
    cases h₁
    unfold reIslandBatteries at h
    rw [if_neg (by simp [hr])] at h
    cases h
    refine ⟨rfl, hdm, hr, by simp [hf], rfl, rfl, fun _ => ⟨rfl, rfl, rfl⟩, fun hc => absurd hc hsame,
      s.islandedDevices, fun n => ?_, fun hc => absurd hc.1 hsame, fun _ => rfl⟩
    rw [if_neg (by simp [hf])]
  | true =>
    rw [if_pos hf] at h₁
    obtain ⟨⟨dm', devs, vbs, st, rfl⟩, hm', hth, hnone, hsome⟩ := adoptPartition_spec hdm h₁
    by_cases hi : s.islands = some inp.partition
    · -- the partition in force again
      have hsame : ¬ s.ChangesPartition net inp := fun hc => hc.2 hi
      obtain ⟨hvbs, hdevs⟩ := hsome fun hc => hc.1 hi
      unfold reIslandBatteries at h
      rw [if_neg (by simp [hi])] at h
      cases h
      refine ⟨rfl, hm', by simp [hi], by simp [hf], rfl, rfl, fun _ => ⟨hi.symm, hvbs, hdevs⟩,
        fun hc => absurd hc hsame, devs, fun n => ?_, fun hc => absurd hc.1 hsame, fun _ => hdevs⟩
      rw [hth n]; simp [hf]
    · have hnew : s.ChangesPartition net inp := ⟨hf, hi⟩
      obtain ⟨hp, dm₂, ids, vbs₂, load, rfl⟩ := reIslandBatteries_spec hm' (decide_eq_true hi) rfl h
      refine ⟨rfl, fun m hm => ?_, rfl, by simp [hf], rfl, rfl, fun hc => absurd hnew hc, fun _ => ⟨rfl, hp⟩, devs,
        fun n => ?_, fun hc => hnone ⟨hi, hc.2⟩, fun hc => (hsome fun hb => hc ⟨hnew, hb.2⟩).2⟩
      · rw [hp.deviceMap] at hm; cases hm; rfl
      · simpa [hf] using hth n

/-! ## Control -/

/-- The variables control leaves alone, and the islands that have a battery. -/
structure SameIslands (s s' : Globals) : Prop where
  tStart : s'.tStart = s.tStart
  reIsland : s'.reIsland = s.reIsland
  islands : s'.islands = s.islands
  islandedDevices : s'.islandedDevices = s.islandedDevices
  islanded : s'.islanded = s.islanded
  deviceMap : s'.deviceMap = s.deviceMap
  batteries : s'.virtualBattery.map Table.keys = s.virtualBattery.map Table.keys

theorem SameIslands.refl (s : Globals) : SameIslands s s := ⟨rfl, rfl, rfl, rfl, rfl, rfl, rfl⟩

theorem SameIslands.trans {s'' : Globals} (h : SameIslands s s') (h' : SameIslands s' s'') : SameIslands s s'' :=
  ⟨h'.tStart.trans h.tStart, h'.reIsland.trans h.reIsland, h'.islands.trans h.islands,
    h'.islandedDevices.trans h.islandedDevices, h'.islanded.trans h.islanded, h'.deviceMap.trans h.deviceMap,
    h'.batteries.trans h.batteries⟩

theorem Unmoved.balanced (h : Unmoved s s') (bal : Dict Island PowerBalance) :
    SameIslands s { s' with powerbal := bal } :=
  ⟨h.tStart, h.reIsland, h.islands, h.islandedDevices, h.islanded, h.deviceMap, h.batteries⟩

/-- One island's turn of control: moves, and the entry of a power balance. -/
structure Turn (inp : ManageInput) (island : Island) (s s' : Globals) : Prop where
  moves : ∃ s₁ bal, ReflTransGen (Move inp island) s s₁ ∧ s' = { s₁ with powerbal := s₁.powerbal.put island bal }

theorem Turn.same (h : Turn inp island s s') : SameIslands s s' := by
  obtain ⟨s₁, bal, hm, rfl⟩ := h.moves
  exact (unmoved_of_moves hm).balanced _

theorem Turn.mem_powerbal (h : Turn inp island s s') {i : Island} :
    i ∈ s'.powerbal.keys ↔ i = island ∨ i ∈ s.powerbal.keys := by
  obtain ⟨s₁, bal, hm, rfl⟩ := h.moves
  rw [← (unmoved_of_moves hm).powerbal]
  exact Table.mem_keys_set

/-- What every move keeps, and the entry of a power balance, a turn keeps. -/
theorem Turn.invariant {P : Globals → Prop} (hmove : ∀ s s', Move inp island s s' → P s → P s')
    (hbal : ∀ s bal, P s → P { s with powerbal := bal }) (h : Turn inp island s s') (hp : P s) : P s' := by
  obtain ⟨s₁, bal, hm, rfl⟩ := h.moves
  refine hbal _ _ ?_
  clear h
  induction hm with
  | refl => exact hp
  | tail _ hm ih => exact hmove _ _ hm ih

theorem manageIsland_turn (h : manageIsland net inp s island = .ok s') : Turn inp island s s' :=
  ⟨manageIsland_moves h⟩

theorem packetizeTurn_turn (h : packetizeTurn net inp s island = .ok s') : Turn inp island s s' := by
  obtain ⟨⟨s₁, load⟩, h₁, h⟩ := bind_ok.1 h
  obtain ⟨bal, -, h⟩ := bind_ok.1 h
  cases h
  exact ⟨s₁, _, .single (.packetize h₁), rfl⟩

/-- The rule of control: what every turn on an island in force keeps, control keeps. -/
theorem control_invariant {inp : CommitInput} {P : Globals → Prop}
    (hturn : ∀ i ∈ s.islands.getD [], ∀ c c', Turn inp.toManageInput i c c' → P c → P c') (hp : P s)
    (h : s.control net inp = .ok s') : P s' := by
  unfold control at h
  split at h
  · exact foldlM_invariant (fun i hi c c' hc hm => hturn i hi c c' (manageIsland_turn hm) hc) hp h
  · split at h
    · exact foldlM_invariant (fun i hi c c' hc hm => hturn i hi c c' (packetizeTurn_turn hm) hc) hp h
    · cases h; exact hp

end Globals

end Grip.Absorption
