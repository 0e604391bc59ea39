/-
What a management step can do to the globals, as moves: change the island's setpoint, run
`packetize_island`, turn a house of the battery off, turn a house of `houses_off` on. Every step of
`island_management` on an island is a sequence of moves followed by the entry of its power balance
(`manageIsland_moves`), so a law that every move keeps is kept by the step.
-/
import GripAbsorption.Absorption.Management
import GripAbsorption.Packetized.Frame

namespace Grip.Absorption.Globals

open Grip.Base Grip.Packetized Relation

/-! ## Moves -/

/-- One move of a management step on an island. -/
inductive Move (inp : ManageInput) (island : Island) : Globals → Globals → Prop
  | setpoint {s : Globals} {vb : VirtualBattery ℚ} (x : ℚ) (battery : s.battery island = .ok vb) :
      Move inp island s (s.setBattery island { vb with setpoint := x })
  | packetize {s s' : Globals} {c : String} {load : ℚ} (run : s.packetizeIsland inp island c = .ok (s', load)) :
      Move inp island s s'
  | off {s : Globals} {vb : VirtualBattery ℚ} {n : ℕ} (battery : s.battery island = .ok vb) (key : n ∈ houseKeys vb) :
      Move inp island s
        { s.turnOffHouse island n with housesOff := (s.turnOffHouse island n).housesOff ++ [n] }
  | on {s s' : Globals} {n : ℕ} (off : n ∈ s.housesOff) (run : s.turnOnHouse island n inp.time = .ok s') :
      Move inp island s { s' with housesOff := s'.housesOff.filter (· ≠ n) }

/-- The moves of an `i_` column. -/
inductive VirtualMove (inp : ManageInput) (island : Island) : Globals → Globals → Prop
  | setpoint {s : Globals} {vb : VirtualBattery ℚ} (x : ℚ) (battery : s.battery island = .ok vb) :
      VirtualMove inp island s (s.setBattery island { vb with setpoint := x })
  | packetize {s s' : Globals} {c : String} {load : ℚ} (run : s.packetizeIsland inp island c = .ok (s', load)) :
      VirtualMove inp island s s'

theorem VirtualMove.move {inp : ManageInput} {island : Island} {s s' : Globals} (h : VirtualMove inp island s s') :
    Move inp island s s' := by
  cases h with
  | setpoint x hb => exact .setpoint x hb
  | packetize h => exact .packetize h

variable {net : Network} {inp : ManageInput} {island : Island}

/-! ## Loops -/

/-- A loop of turns that each turn a house off keeps every preorder along which houses are turned off. -/
theorem disconnectLoop_rel (R : Globals → Globals → Prop) (hrefl : ∀ s, R s s) (htrans : ∀ {s t u}, R s t → R t u → R s u)
    (hoff : ∀ {s : Globals} {vb : VirtualBattery ℚ} {n : ℕ}, s.battery island = .ok vb → n ∈ houseKeys vb →
      R s { s.turnOffHouse island n with housesOff := (s.turnOffHouse island n).housesOff ++ [n] }) (draws : ℕ → ℕ) :
    ∀ (k turn : ℕ) (s s' : Globals), disconnectLoop island draws turn k s = .ok s' → R s s'
  | 0, _, _, _, h => by cases h; exact hrefl _
  | k + 1, turn, s, s', h => by
    rw [disconnectLoop] at h
    split at h
    · cases h
    · obtain ⟨vb, hb, h⟩ := bind_ok.1 h
      cases hc : choice (draws turn) (houseKeys vb) with
      | none =>
        rw [hc] at h
        exact disconnectLoop_rel R hrefl htrans hoff draws k _ _ _ h
      | some n =>
        rw [hc] at h
        exact htrans (hoff hb (choice_mem hc)) (disconnectLoop_rel R hrefl htrans hoff draws k _ _ _ h)

theorem disconnectLoop_moves (draws : ℕ → ℕ) : ∀ (k turn : ℕ) (s s' : Globals),
    disconnectLoop island draws turn k s = .ok s' → ReflTransGen (Move inp island) s s' :=
  disconnectLoop_rel (ReflTransGen (Move inp island)) (fun _ => .refl) .trans (fun hb hn => .single (.off hb hn)) draws

theorem reconnectLoop_moves (draws : ℕ → ℕ) : ∀ (k turn : ℕ) (s s' : Globals),
    reconnectLoop island inp.time draws turn k s = .ok s' → ReflTransGen (Move inp island) s s'
  | 0, _, _, _, h => by cases h; exact .refl
  | k + 1, turn, s, s', h => by
    rw [reconnectLoop] at h
    obtain ⟨n, hn, h⟩ := bind_ok.1 h
    obtain ⟨s₁, hs, h⟩ := bind_ok.1 h
    exact .head (.on (choice_mem (orRaise_eq_ok.1 hn)) hs) (reconnectLoop_moves draws k _ _ _ h)

/-! ## Columns -/

/-- A positive shed: the setpoint, the disconnect loop, the reconnect loop. -/
theorem shedColumn_eq_ok {s s' : Globals} {c : String} {x : ℚ} (hx : 0 < x) :
    s.shedColumn inp island c x = .ok s' ↔ ∃ setpoint called vb s₁,
      s.calledFor island (inp.row island) x = .ok (setpoint, called) ∧ s.battery island = .ok vb ∧
      disconnectLoop island (inp.chance island c).disconnect 0 (turns called s.housesOff.length).1
        (s.setBattery island { vb with setpoint := setpoint }) = .ok s₁ ∧
      reconnectLoop island inp.time (inp.chance island c).reconnect 0 (turns called s.housesOff.length).2 s₁ = .ok s' := by
  unfold shedColumn
  rw [if_pos hx]
  simp only [bind_ok, Prod.exists]
  constructor
  · rintro ⟨sp, called, hc, vb, hb, s₁, h₁, h₂⟩
    exact ⟨sp, called, vb, s₁, hc, hb, h₁, h₂⟩
  · rintro ⟨sp, called, vb, s₁, hc, hb, h₁, h₂⟩
    exact ⟨sp, called, hc, vb, hb, s₁, h₁, h₂⟩

theorem shedColumn_moves {s s' : Globals} {c : String} {x : ℚ} (h : s.shedColumn inp island c x = .ok s') :
    ReflTransGen (Move inp island) s s' := by
  by_cases hx : 0 < x
  · obtain ⟨sp, called, vb, s₁, -, hb, h₁, h₂⟩ := (shedColumn_eq_ok hx).1 h
    exact .head (.setpoint sp hb) ((disconnectLoop_moves _ _ _ _ _ h₁).trans (reconnectLoop_moves _ _ _ _ _ h₂))
  · unfold shedColumn at h
    rw [if_neg hx] at h
    cases h
    exact .refl

theorem virtualColumn_moves {s s' : Globals} {c : String} {x load : ℚ}
    (h : s.virtualColumn inp island c x = .ok (s', load)) : ReflTransGen (VirtualMove inp island) s s' := by
  obtain ⟨vb, hb, h⟩ := bind_ok.1 h
  exact .head (.setpoint x hb) (.single (.packetize h))

/-- A column other than a shed makes an `i_` column's moves. -/
theorem column_virtualMoves {acc acc' : Globals × PowerBalance} {c : String × ℚ} (hc : columnKind c.1 ≠ .shed)
    (h : column net inp island acc c = .ok acc') : ReflTransGen (VirtualMove inp island) acc.1 acc'.1 := by
  obtain ⟨s, bal⟩ := acc
  obtain ⟨name, x⟩ := c
  simp only [column] at h
  cases hk : columnKind name with
  | solar => rw [hk] at h; cases h; exact .refl
  | shed => exact absurd hk hc
  | virtual =>
    rw [hk] at h
    obtain ⟨⟨s, load⟩, hv, h⟩ := bind_ok.1 h
    cases h
    exact virtualColumn_moves hv
  | battery =>
    rw [hk] at h
    obtain ⟨inv, -, h⟩ := bind_ok.1 h
    cases h
    exact .refl
  | other => rw [hk] at h; cases h; exact .refl

theorem column_moves {acc acc' : Globals × PowerBalance} {c : String × ℚ}
    (h : column net inp island acc c = .ok acc') : ReflTransGen (Move inp island) acc.1 acc'.1 := by
  by_cases hc : columnKind c.1 = .shed
  · obtain ⟨s, bal⟩ := acc
    obtain ⟨name, x⟩ := c
    simp only [column, show columnKind name = .shed from hc] at h
    obtain ⟨s, hs, h⟩ := bind_ok.1 h
    cases h
    exact shedColumn_moves hs
  · exact ReflTransGen.mono (fun _ _ => VirtualMove.move) _ _ (column_virtualMoves hc h)

/-! ## The step -/

theorem manageIsland_eq_ok {s s' : Globals} : manageIsland net inp s island = .ok s' ↔ ∃ vb nfload s₁ bal,
    s.battery island = .ok vb ∧ (inp.row island).get? "nfload" = some nfload ∧
    (inp.row island).sorted.foldlM (column net inp island) (s, ⟨0, nfload, Dict.empty, 0⟩) = .ok (s₁, bal) ∧
    s' = { s₁ with powerbal := s₁.powerbal.put island (checkPowerBalance net (inp.inverters island) bal) } := by
  unfold manageIsland
  simp only [bind_ok, orRaise_eq_ok, Prod.exists, pure, Except.pure, Except.ok.injEq]
  constructor
  · rintro ⟨vb, hb, nfload, hn, s₁, bal, hf, rfl⟩
    exact ⟨vb, nfload, s₁, bal, hb, hn, hf, rfl⟩
  · rintro ⟨vb, nfload, s₁, bal, hb, hn, hf, rfl⟩
    exact ⟨vb, hb, nfload, hn, s₁, bal, hf, rfl⟩

/-- A management step is a sequence of moves and the entry of the power balance. -/
theorem manageIsland_moves {s s' : Globals} (h : manageIsland net inp s island = .ok s') :
    ∃ s₁ bal, ReflTransGen (Move inp island) s s₁ ∧ s' = { s₁ with powerbal := s₁.powerbal.put island bal } := by
  obtain ⟨vb, nfload, s₁, bal, -, -, hf, rfl⟩ := manageIsland_eq_ok.1 h
  refine ⟨s₁, _, ?_, rfl⟩
  exact foldlM_invariant (P := fun acc => ReflTransGen (Move inp island) s acc.1)
    (fun c _ acc acc' hacc hcol => hacc.trans (column_moves hcol)) .refl hf

/-! ## Single operations -/

theorem mem_houseKeys {vb : VirtualBattery ℚ} {n : ℕ} : n ∈ houseKeys vb ↔ .house n ∈ vb.devices.keys := by
  unfold houseKeys
  rw [List.mem_filterMap]
  constructor
  · rintro ⟨id, hid, h⟩
    cases id with
    | house m => cases h; exact hid
    | waterheater m => cases h
  · intro h; exact ⟨.house n, h, rfl⟩

theorem packetizeIsland_eq_ok {s s' : Globals} {c : String} {load : ℚ} :
    s.packetizeIsland inp island c = .ok (s', load) ↔ ∃ vb, s.battery island = .ok vb ∧
      let r := vb.packetize inp.gld (inp.chance island c).dice (inp.chance island c).requests (inp.time - s.tStart) s.gldState
      s' = { s.setBattery island r.1 with gldState := r.2.1, packetized := s.packetized ++ [(island, vb.setpoint)] } ∧
        load = r.2.2 := by
  unfold packetizeIsland
  simp only [bind_ok, pure, Except.pure, Except.ok.injEq, Prod.mk.injEq, eq_comm (b := s'), eq_comm (b := load)]

theorem turnOnHouse_eq_ok {s s' : Globals} {n : ℕ} {t : ℤ} : s.turnOnHouse island n t = .ok s' ↔
    ∃ h w vb, s.device (.house n) = .ok h ∧
      (s.setDevice { h with stateEndsAt := t - s.tStart }).device (.waterheater n) = .ok w ∧ s.battery island = .ok vb ∧
      s' = (((s.setDevice { h with stateEndsAt := t - s.tStart }).setDevice
        { w with stateEndsAt := t - s.tStart }).setBattery island ((vb.addDevice
          { h with stateEndsAt := t - s.tStart }).addDevice { w with stateEndsAt := t - s.tStart })).setInterrupted n false := by
  unfold turnOnHouse
  simp only [bind_ok, pure, Except.pure, Except.ok.injEq]
  constructor
  · rintro ⟨h, hh, w, hw, vb, hb, rfl⟩
    exact ⟨h, w, vb, hh, hw, hb, rfl⟩
  · rintro ⟨h, w, vb, hh, hw, hb, rfl⟩
    exact ⟨h, hh, w, hw, vb, hb, rfl⟩

theorem deviceId_of_device {s : Globals} {id : DeviceId} {d : VbDevice ℚ} (h : s.device id = .ok d) : d.deviceId = id := by
  unfold device at h
  split at h
  · cases h
  · exact (Table.find?_eq_some.1 (orRaise_eq_ok.1 h)).2

/-- The commands of turning off a house and maybe its water heater. -/
theorem turnOff_thermostats {st st' : GldState ℚ} {vb : VirtualBattery ℚ} {ids : List DeviceId} {h : GldDev ℚ} {n : ℕ}
    (hid : h.id = .house n) (hids : ∀ id ∈ ids, id ∈ vb.devices.keys) (hn : .house n ∈ ids)
    (hst : st' = h.turnOff st ∨ ∃ w : GldDev ℚ, w.id ∈ ids ∧ st' = w.turnOff (h.turnOff st)) :
    st'.customerInterrupted = st.customerInterrupted ∧
      (∀ id, id ∉ vb.devices.keys → st'.thermostatControl id = st.thermostatControl id) ∧
      (∀ id, id = .house n ∨ st.thermostatControl id = .none → st'.thermostatControl id = .none) := by
  have hne : ∀ id, id ∉ vb.devices.keys → id ≠ h.id := fun id hi e => hi (hids id (by rw [e, hid]; exact hn))
  have hoff : ∀ id, id = .house n ∨ st.thermostatControl id = .none → (h.turnOff st).thermostatControl id = .none := by
    rintro id (rfl | hi)
    · exact GldDev.thermostatControl_turnOff_none st h (.inl ⟨hid.symm, n, rfl⟩)
    · exact GldDev.thermostatControl_turnOff_none st h (.inr hi)
  rcases hst with rfl | ⟨w, hw, rfl⟩
  · exact ⟨h.customerInterrupted_turnOff st, fun id hi => h.thermostatControl_turnOff st (hne id hi), hoff⟩
  · refine ⟨(w.customerInterrupted_turnOff _).trans (h.customerInterrupted_turnOff st), fun id hi => ?_, fun id hi => ?_⟩
    · have hwid : id ≠ w.id := fun e => hi (hids id (by rw [e]; exact hw))
      exact (w.thermostatControl_turnOff _ hwid).trans (h.thermostatControl_turnOff st (hne id hi))
    · exact GldDev.thermostatControl_turnOff_none _ w (.inr (hoff id hi))

/-- Detaching a house of the battery turns the house and its water heater off and takes them out. -/
theorem detachHouse_spec {s : Globals} {vb : VirtualBattery ℚ} {n : ℕ} (hb : s.battery island = .ok vb)
    (hn : n ∈ houseKeys vb) : ∃ vb' gldState,
      s.detachHouse island n = { s.setBattery island vb' with gldState := gldState } ∧
      (∀ id, id ∈ vb'.devices.keys ↔ id ∈ vb.devices.keys ∧ id ≠ .house n ∧ id ≠ .waterheater n) ∧
      gldState.customerInterrupted = s.gldState.customerInterrupted ∧
      (∀ id, id ∉ vb.devices.keys → gldState.thermostatControl id = s.gldState.thermostatControl id) ∧
      (∀ id, id = .house n ∨ s.gldState.thermostatControl id = .none → gldState.thermostatControl id = .none) := by
  have hkey := mem_houseKeys.1 hn
  obtain ⟨h, hh⟩ := Table.mem_keys_iff_find?.1 hkey
  have hid : h.gldDev.id = .house n := (Table.find?_eq_some.1 hh).2
  unfold detachHouse
  rw [hb]
  simp only [hh]
  cases hw : (vb.devices.pop (.house n)).find? (.waterheater n) with
  | none =>
    refine ⟨_, _, rfl, fun id => ?_, turnOff_thermostats hid (fun _ hi => hi) hkey (.inl rfl)⟩
    have hnw := Table.find?_eq_none.1 hw
    rw [Table.mem_keys_pop] at hnw ⊢
    constructor
    · rintro ⟨hi, hne⟩
      exact ⟨hi, hne, fun e => hnw ⟨e ▸ hi, by simp⟩⟩
    · rintro ⟨hi, hne, -⟩; exact ⟨hi, hne⟩
  | some w =>
    have hwid : w.gldDev.id = .waterheater n := (Table.find?_eq_some.1 hw).2
    have hwkey : w.gldDev.id ∈ vb.devices.keys := by
      rw [hwid]; exact (Table.mem_keys_pop.1 (Table.mem_keys_iff_find?.2 ⟨w, hw⟩)).1
    refine ⟨_, _, rfl, fun id => ?_, turnOff_thermostats hid (fun _ hi => hi) hkey (.inr ⟨w.gldDev, hwkey, rfl⟩)⟩
    rw [Table.mem_keys_pop, Table.mem_keys_pop, and_assoc]

/-- `turn_off_house` detaches the house and interrupts its meter. -/
theorem turnOffHouse_spec {s : Globals} {vb : VirtualBattery ℚ} {n : ℕ} (hb : s.battery island = .ok vb)
    (hn : n ∈ houseKeys vb) : ∃ vb' gldState,
      s.turnOffHouse island n = { s.setBattery island vb' with gldState := gldState } ∧
      (∀ id, id ∈ vb'.devices.keys ↔ id ∈ vb.devices.keys ∧ id ≠ .house n ∧ id ≠ .waterheater n) ∧
      gldState.customerInterrupted = Function.update s.gldState.customerInterrupted n true ∧
      (∀ id, id ∉ vb.devices.keys → gldState.thermostatControl id = s.gldState.thermostatControl id) ∧
      (∀ id, id = .house n ∨ s.gldState.thermostatControl id = .none → gldState.thermostatControl id = .none) := by
  obtain ⟨vb', st, he, hids, hint, hout, hin⟩ := detachHouse_spec hb hn
  refine ⟨vb', { st with customerInterrupted := Function.update st.customerInterrupted n true }, ?_, hids, ?_, hout, hin⟩
  · rw [turnOffHouse, he]; rfl
  · rw [hint]

/-! ## What a move changes -/

/-- The variables no move touches, and the islands that have a battery. -/
structure Unmoved (s s' : Globals) : Prop where
  tStart : s'.tStart = s.tStart
  reIsland : s'.reIsland = s.reIsland
  islands : s'.islands = s.islands
  islandedDevices : s'.islandedDevices = s.islandedDevices
  islanded : s'.islanded = s.islanded
  deviceMap : s'.deviceMap = s.deviceMap
  loadPerHouse : s'.loadPerHouse = s.loadPerHouse
  faultedNodes : s'.faultedNodes = s.faultedNodes
  powerbal : s'.powerbal = s.powerbal
  batteries : s'.virtualBattery.map Table.keys = s.virtualBattery.map Table.keys
  allDevices : s'.allDevices.map Table.keys = s.allDevices.map Table.keys

theorem batteries_setBattery {s : Globals} {vb : VirtualBattery ℚ} (h : s.battery island = .ok vb)
    (vb' : VirtualBattery ℚ) :
    (s.setBattery island vb').virtualBattery.map Table.keys = s.virtualBattery.map Table.keys := by
  obtain ⟨vbs, hs, hvb⟩ := battery_eq_ok.1 h
  unfold setBattery
  rw [hs]
  exact congrArg some (Table.keys_set_of_mem (Dict.mem_keys_iff.2 ⟨vb, hvb⟩))

theorem keys_setDevice {s : Globals} {d e : VbDevice ℚ} (h : s.device d.deviceId = .ok e) :
    (s.setDevice d).allDevices.map Table.keys = s.allDevices.map Table.keys := by
  unfold device at h
  unfold setDevice
  cases ha : s.allDevices with
  | none => rfl
  | some ds =>
    rw [ha] at h
    exact congrArg some (Table.keys_set_of_mem (Table.mem_keys_iff_find?.2 ⟨e, orRaise_eq_ok.1 h⟩))

variable {s s' : Globals}

theorem Move.unmoved (h : Move inp island s s') : Unmoved s s' := by
  cases h with
  | setpoint x hb => exact ⟨rfl, rfl, rfl, rfl, rfl, rfl, rfl, rfl, rfl, batteries_setBattery hb _, rfl⟩
  | packetize h =>
    obtain ⟨vb, hb, rfl, -⟩ := packetizeIsland_eq_ok.1 h
    exact ⟨rfl, rfl, rfl, rfl, rfl, rfl, rfl, rfl, rfl, batteries_setBattery hb _, rfl⟩
  | off hb hn =>
    obtain ⟨vb', st, he, -⟩ := turnOffHouse_spec hb hn
    rw [he]
    exact ⟨rfl, rfl, rfl, rfl, rfl, rfl, rfl, rfl, rfl, batteries_setBattery hb _, rfl⟩
  | on hn h =>
    obtain ⟨d, e, vb, hd, he, hb, rfl⟩ := turnOnHouse_eq_ok.1 h
    have h1 := keys_setDevice (s := s) (d := { d with stateEndsAt := inp.time - s.tStart }) (e := d)
      (show s.device d.deviceId = .ok d by rw [deviceId_of_device hd]; exact hd)
    have h2 := keys_setDevice (d := { e with stateEndsAt := inp.time - s.tStart }) (e := e)
      (show (s.setDevice _).device e.deviceId = .ok e by rw [deviceId_of_device he]; exact he)
    exact ⟨rfl, rfl, rfl, rfl, rfl, rfl, rfl, rfl, rfl, batteries_setBattery (s := (s.setDevice _).setDevice _) hb _,
      h2.trans h1⟩

theorem Unmoved.trans {s'' : Globals} (h : Unmoved s s') (h' : Unmoved s' s'') : Unmoved s s'' where
  tStart := h'.tStart.trans h.tStart
  reIsland := h'.reIsland.trans h.reIsland
  islands := h'.islands.trans h.islands
  islandedDevices := h'.islandedDevices.trans h.islandedDevices
  islanded := h'.islanded.trans h.islanded
  deviceMap := h'.deviceMap.trans h.deviceMap
  loadPerHouse := h'.loadPerHouse.trans h.loadPerHouse
  faultedNodes := h'.faultedNodes.trans h.faultedNodes
  powerbal := h'.powerbal.trans h.powerbal
  batteries := h'.batteries.trans h.batteries
  allDevices := h'.allDevices.trans h.allDevices

theorem unmoved_of_moves (h : ReflTransGen (Move inp island) s s') : Unmoved s s' := by
  induction h with
  | refl => exact ⟨rfl, rfl, rfl, rfl, rfl, rfl, rfl, rfl, rfl, rfl, rfl⟩
  | tail _ hm ih => exact ih.trans hm.unmoved

/-! ## Devices -/

/-- The batteries of `s'` are those of `s`, maybe with fewer devices. -/
def Shrinks (s s' : Globals) : Prop := ∀ i vb', s'.battery i = .ok vb' →
  ∃ vb, s.battery i = .ok vb ∧ ∀ id ∈ vb'.devices.keys, id ∈ vb.devices.keys

theorem Shrinks.refl (s : Globals) : Shrinks s s := fun _ vb hb => ⟨vb, hb, fun _ h => h⟩

theorem Shrinks.trans {s'' : Globals} (h : Shrinks s s') (h' : Shrinks s' s'') : Shrinks s s'' := by
  intro i vb'' hb''
  obtain ⟨vb', hb', hids'⟩ := h' i vb'' hb''
  obtain ⟨vb, hb, hids⟩ := h i vb' hb'
  exact ⟨vb, hb, fun id hid => hids id (hids' id hid)⟩

/-- A battery is written back with some of its devices. -/
theorem shrinks_setBattery {r : Globals} {vb vb' : VirtualBattery ℚ} (hr : ∀ i, r.battery i = s.battery i)
    (hb : s.battery island = .ok vb) (hids : ∀ id ∈ vb'.devices.keys, id ∈ vb.devices.keys) :
    Shrinks s (r.setBattery island vb') := by
  intro i vb₁ hb₁
  rw [battery_setBattery r (by rw [hr]; exact hb)] at hb₁
  split at hb₁
  · rename_i he
    subst he
    cases hb₁
    exact ⟨vb, hb, hids⟩
  · exact ⟨vb₁, (hr i).symm.trans hb₁, fun _ h => h⟩

theorem VirtualMove.shrinks (h : VirtualMove inp island s s') : Shrinks s s' := by
  cases h with
  | setpoint x hb => exact shrinks_setBattery (fun _ => rfl) hb fun _ h => h
  | packetize h =>
    obtain ⟨vb, hb, rfl, -⟩ := packetizeIsland_eq_ok.1 h
    exact shrinks_setBattery (fun _ => rfl) hb fun _ => VirtualBattery.mem_keys_of_packetize _ _ _ _ _ _

theorem turnOffHouse_shrinks {vb : VirtualBattery ℚ} {n : ℕ} (hb : s.battery island = .ok vb) (hn : n ∈ houseKeys vb) :
    Shrinks s (s.turnOffHouse island n) := by
  obtain ⟨vb', st, he, hids, -⟩ := turnOffHouse_spec hb hn
  rw [he]
  exact shrinks_setBattery (fun _ => rfl) hb fun id hid => ((hids id).1 hid).1

/-- Turning a customer on adds the ids of its house and water heater to the island's battery. -/
theorem turnOnHouse_devices {n : ℕ} {t : ℤ} (h : s.turnOnHouse island n t = .ok s') {island' : Island}
    {vb' : VirtualBattery ℚ} (hb' : s'.battery island' = .ok vb') : ∃ vb, s.battery island' = .ok vb ∧
      ∀ id ∈ vb'.devices.keys, id ∈ vb.devices.keys ∨ (island' = island ∧ (id = .house n ∨ id = .waterheater n)) := by
  obtain ⟨d, e, vb, hd, he, hb, rfl⟩ := turnOnHouse_eq_ok.1 h
  have hset := (battery_setBattery ((s.setDevice _).setDevice _) hb).symm.trans hb'
  split at hset
  · rename_i hi
    subst hi
    cases hset
    refine ⟨vb, hb, fun id hid => ?_⟩
    rcases Table.mem_keys_set.1 hid with rfl | hid
    · exact .inr ⟨rfl, .inr (show e.deviceId = _ from deviceId_of_device he)⟩
    · rcases Table.mem_keys_set.1 hid with rfl | hid
      · exact .inr ⟨rfl, .inl (show d.deviceId = _ from deviceId_of_device hd)⟩
      · exact .inl hid
  · exact ⟨vb', hset, fun id hid => .inl hid⟩

/-- The ids of a battery: a move adds none but those of a customer that was off. -/
theorem Move.devices (h : Move inp island s s') {island' : Island} {vb' : VirtualBattery ℚ}
    (hb' : s'.battery island' = .ok vb') : ∃ vb, s.battery island' = .ok vb ∧ ∀ id ∈ vb'.devices.keys,
      id ∈ vb.devices.keys ∨ (island' = island ∧ ∃ n ∈ s.housesOff, id = .house n ∨ id = .waterheater n) := by
  have fewer : Shrinks s s' → ∃ vb, s.battery island' = .ok vb ∧ ∀ id ∈ vb'.devices.keys,
      id ∈ vb.devices.keys ∨ (island' = island ∧ ∃ n ∈ s.housesOff, id = .house n ∨ id = .waterheater n) := by
    intro hs
    obtain ⟨vb, hb, hids⟩ := hs _ _ hb'
    exact ⟨vb, hb, fun id hid => .inl (hids id hid)⟩
  cases h with
  | setpoint x hb => exact fewer (show VirtualMove inp island s _ from .setpoint x hb).shrinks
  | packetize h => exact fewer (VirtualMove.packetize h).shrinks
  | off hb hn => exact fewer (turnOffHouse_shrinks hb hn)
  | on hn h =>
    obtain ⟨vb, hb, hids⟩ := turnOnHouse_devices h hb'
    exact ⟨vb, hb, fun id hi => (hids id hi).imp_right fun ⟨hi, hid⟩ => ⟨hi, _, hn, hid⟩⟩

/-- A move takes over thermostats of the island's battery only, and hands none back. -/
theorem Move.thermostat (h : Move inp island s s') (id : DeviceId) :
    (s'.gldState.thermostatControl id = s.gldState.thermostatControl id ∨
        ∃ vb, s.battery island = .ok vb ∧ id ∈ vb.devices.keys) ∧
      (s.gldState.thermostatControl id = .none → s'.gldState.thermostatControl id = .none) := by
  cases h with
  | setpoint x hb => exact ⟨.inl rfl, fun h => h⟩
  | packetize h =>
    obtain ⟨vb, hb, rfl, -⟩ := packetizeIsland_eq_ok.1 h
    refine ⟨?_, fun h => VirtualBattery.thermostatControl_packetize_none _ _ _ _ _ _ h⟩
    by_cases hi : id ∈ vb.devices.keys
    · exact .inr ⟨vb, hb, hi⟩
    · exact .inl (VirtualBattery.thermostatControl_packetize _ _ _ _ _ _ hi)
  | off hb hn =>
    rename_i vb n
    obtain ⟨vb', st, he, -, -, hout, hin⟩ := turnOffHouse_spec hb hn
    rw [he]
    refine ⟨?_, fun h => hin id (.inr h)⟩
    by_cases hi : id ∈ vb.devices.keys
    · exact .inr ⟨vb, hb, hi⟩
    · exact .inl (hout id hi)
  | on hn h =>
    obtain ⟨d, e, vb, hd, he, hb, rfl⟩ := turnOnHouse_eq_ok.1 h
    exact ⟨.inl rfl, fun h => h⟩

/-- A house that a move adds to `houses_off` was a device of the island's battery, and its thermostat
is taken over. -/
theorem Move.housesOff (h : Move inp island s s') {n : ℕ} (hn : n ∈ s'.housesOff) : n ∈ s.housesOff ∨
    s'.gldState.thermostatControl (.house n) = .none ∧ ∃ vb, s.battery island = .ok vb ∧ .house n ∈ vb.devices.keys := by
  cases h with
  | setpoint x hb => exact .inl hn
  | packetize h =>
    obtain ⟨vb, hb, rfl, -⟩ := packetizeIsland_eq_ok.1 h
    exact .inl hn
  | off hb hkey =>
    obtain ⟨vb', st, he, -, -, -, hin⟩ := turnOffHouse_spec hb hkey
    rw [he] at hn ⊢
    rcases List.mem_append.1 hn with hn | hn
    · exact .inl hn
    · obtain rfl := List.mem_singleton.1 hn
      exact .inr ⟨hin _ (.inl rfl), _, hb, mem_houseKeys.1 hkey⟩
  | on hoff h =>
    obtain ⟨d, e, vb, hd, he, hb, rfl⟩ := turnOnHouse_eq_ok.1 h
    exact .inl (List.mem_of_mem_filter hn)

end Grip.Absorption.Globals
