/-
A row that sheds load, carried out. In an optimal plan the virtual battery draws nothing while load is shed, so the row gives
the island's battery the setpoint 0, and the packetized step under it sends no command but off commands. The shed itself only
turns houses off, or puts houses back that stay as they are: managing an island that sheds turns nothing on.
-/
import GripAbsorption.Absorption.Imbalance
import GripAbsorption.Dispatch.Optimum
import GripAbsorption.Packetized.Idle

namespace Grip.Absorption.Globals

open Grip.Base Grip.Packetized Relation

variable {net : Network} {inp : ManageInput} {island : Island} {s s' : Globals} {P : VbDevice ℚ → Prop}

/-! ## The devices of the controller -/

/-- What holds of the devices whatever the controller does to them: it gives them readings, states and deadlines. -/
structure Lasting (P : VbDevice ℚ → Prop) : Prop where
  update : ∀ gld d s e, P d → P (d.update gld s e none)
  refresh : ∀ gld d, P d → P (d.refresh gld)
  deadline : ∀ (d : VbDevice ℚ) (e : ℤ), P d → P { d with stateEndsAt := e }

/-- It holds of all devices, the global ones and those of the batteries. -/
structure Everywhere (P : VbDevice ℚ → Prop) (s : Globals) : Prop where
  devices : ∀ ds, s.allDevices = some ds → ∀ d ∈ ds.rows, P d
  batteries : ∀ i vb, s.battery i = .ok vb → ∀ d ∈ vb.devices.rows, P d

theorem Everywhere.setBattery {vb vb' : VirtualBattery ℚ} (h : Everywhere P s) (hb : s.battery island = .ok vb)
    (hvb : ∀ d ∈ vb'.devices.rows, P d) : Everywhere P (s.setBattery island vb') where
  devices := h.devices
  batteries := fun i vb₁ hb₁ => by
    rw [battery_setBattery s hb] at hb₁
    split at hb₁
    · cases hb₁
      exact hvb
    · exact h.batteries i vb₁ hb₁

theorem Everywhere.setDevice {d : VbDevice ℚ} (h : Everywhere P s) (hd : P d) : Everywhere P (s.setDevice d) where
  devices := fun ds hds e he => by
    obtain ⟨ds', hds', rfl⟩ := Option.map_eq_some_iff.1 hds
    rcases Table.mem_set.1 he with rfl | ⟨he, -⟩
    · exact hd
    · exact h.devices ds' hds' e he
  batteries := h.batteries

/-- The rest of the globals does not matter. -/
theorem Everywhere.congr (h : Everywhere P s) (hd : s'.allDevices = s.allDevices)
    (hv : s'.virtualBattery = s.virtualBattery) : Everywhere P s' where
  devices := fun ds hds => h.devices ds (hd ▸ hds)
  batteries := fun i vb hb => h.batteries i vb (by rw [← battery_congr hv]; exact hb)

theorem Everywhere.of_device {id : DeviceId} {d : VbDevice ℚ} (h : Everywhere P s) (hd : s.device id = .ok d) : P d := by
  unfold device at hd
  split at hd
  · cases hd
  · rename_i ds hds
    exact h.devices ds hds d (Table.find?_eq_some.1 (orRaise_eq_ok.1 hd)).1

/-- Turning a house off writes back a battery with some of its rows, and commands nothing on. -/
theorem turnOffHouse_rows {vb : VirtualBattery ℚ} {n : ℕ} (hb : s.battery island = .ok vb) (hn : n ∈ houseKeys vb) :
    ∃ vb' gldState, s.turnOffHouse island n = { s.setBattery island vb' with gldState := gldState } ∧
      (∀ d ∈ vb'.devices.rows, d ∈ vb.devices.rows) ∧
      ∀ id, gldState.lastCommand id = s.gldState.lastCommand id ∨ gldState.lastCommand id = some .turnOff := by
  obtain ⟨h, hh⟩ := Table.mem_keys_iff_find?.1 (mem_houseKeys.1 hn)
  have hoff : ∀ (st : GldState ℚ) (g : GldDev ℚ) id,
      (g.turnOff st).lastCommand id = st.lastCommand id ∨ (g.turnOff st).lastCommand id = some .turnOff := by
    intro st g id
    rw [GldDev.lastCommand_turnOff, Function.update_apply]
    split
    · exact .inr rfl
    · exact .inl rfl
  unfold turnOffHouse detachHouse
  rw [hb]
  simp only [hh]
  cases hw : (vb.devices.pop (.house n)).find? (.waterheater n) with
  | none => exact ⟨_, _, rfl, fun d hd => (Table.mem_pop.1 hd).1, hoff s.gldState h.gldDev⟩
  | some w =>
    refine ⟨_, _, rfl, fun d hd => (Table.mem_pop.1 (Table.mem_pop.1 hd).1).1, fun id => ?_⟩
    rcases hoff (h.gldDev.turnOff s.gldState) w.gldDev id with h₁ | h₁
    · rcases hoff s.gldState h.gldDev id with h₂ | h₂
      · exact .inl (h₁.trans h₂)
      · exact .inr (h₁.trans h₂)
    · exact .inr h₁

/-- Every move keeps what lasts. -/
theorem Everywhere.move (hP : Lasting P) (h : Everywhere P s) (hm : Move inp island s s') : Everywhere P s' := by
  cases hm with
  | setpoint x hb => exact h.setBattery hb fun d hd => h.batteries _ _ hb d hd
  | packetize hrun =>
    obtain ⟨vb, hb, rfl, -⟩ := packetizeIsland_eq_ok.1 hrun
    refine (h.setBattery hb ?_).congr rfl rfl
    exact VirtualBattery.packetize_closed (hP.update inp.gld) (h.batteries _ _ hb)
  | off hb hn =>
    obtain ⟨vb', st, he, hrows, -⟩ := turnOffHouse_rows hb hn
    rw [he]
    exact (h.setBattery hb fun d hd => h.batteries _ _ hb d (hrows d hd)).congr rfl rfl
  | on hn hrun =>
    obtain ⟨d, e, vb, hd, he, hb, rfl⟩ := turnOnHouse_eq_ok.1 hrun
    have hdP := hP.deadline d (inp.time - s.tStart) (h.of_device hd)
    have h₁ := h.setDevice hdP
    have heP := hP.deadline e (inp.time - s.tStart) (h₁.of_device he)
    refine ((h₁.setDevice heP).setBattery hb fun x hx => ?_).congr rfl rfl
    rcases Table.mem_set.1 hx with rfl | ⟨hx, -⟩
    · exact heP
    · rcases Table.mem_set.1 hx with rfl | ⟨hx, -⟩
      · exact hdP
      · exact h.batteries _ _ hb x hx

theorem Everywhere.moves (hP : Lasting P) (h : Everywhere P s) (hm : ReflTransGen (Move inp island) s s') :
    Everywhere P s' := by
  induction hm with
  | refl => exact h
  | tail _ hm ih => exact ih.move hP hm

/-! ## Before control -/

theorem mapM_device_closed {ids : List DeviceId} {ds : List (VbDevice ℚ)} (h : Everywhere P s)
    (hds : ids.mapM s.device = .ok ds) : ∀ d ∈ ds, P d := by
  intro d hd
  obtain ⟨id, -, hid⟩ := mem_of_mapM hds hd
  exact h.of_device hid

theorem init_closed (hP : Lasting P) (gld : Gld ℚ) {ds : List (VbDevice ℚ)} (h : ∀ d ∈ ds, P d) :
    ∀ d ∈ (VirtualBattery.init gld ds).devices.rows, P d := by
  intro d hd
  unfold VirtualBattery.init VirtualBattery.updateSoc at hd
  simp only [Table.rows_mapRows] at hd
  obtain ⟨e, he, rfl⟩ := List.mem_map.1 hd
  exact hP.refresh gld e (h e (Table.mem_of_mem_ofList he))

/-- New batteries hold global devices. -/
theorem Everywhere.updateVB {inp : CommitInput} {islands : List Island} (hP : Lasting P) (h : Everywhere P s)
    (hs : s.updateVB net inp islands = .ok s') : Everywhere P s' := by
  unfold Globals.updateVB at hs
  obtain ⟨⟨s₁, vbs⟩, hf, hs⟩ := bind_ok.1 hs
  cases hs
  have hensure : (s.ensureDeviceMap net).allDevices = s.allDevices := by
    unfold ensureDeviceMap
    split
    · rfl
    · split <;> rfl
  -- the loop leaves the global devices alone
  have hloop : s₁.allDevices = s.allDevices ∧ ∀ i vb, vbs.get? i = some vb → ∀ d ∈ vb.devices.rows, P d := by
    refine foldlM_invariant (P := fun acc : Globals × Batteries => acc.1.allDevices = s.allDevices ∧
      ∀ i vb, acc.2.get? i = some vb → ∀ d ∈ vb.devices.rows, P d) (fun i _ acc acc' hacc hstep => ?_)
      ⟨hensure, fun i vb hvb => by simp [Dict.empty, Dict.get?, Table.find?, Table.empty] at hvb⟩ hf
    obtain ⟨s₂, vbs₂⟩ := acc
    simp only [islandBattery] at hstep
    obtain ⟨⟨hs, ws⟩, -, hstep⟩ := bind_ok.1 hstep
    obtain ⟨ds, hds, hstep⟩ := bind_ok.1 hstep
    cases hstep
    have hdev : s₂.device = s.device := by
      unfold device
      rw [show s₂.allDevices = s.allDevices from hacc.1]
    refine ⟨hacc.1, fun j vb hvb => ?_⟩
    rw [Dict.get?_put] at hvb
    split at hvb
    · cases hvb
      exact init_closed hP inp.gld (mapM_device_closed h (hdev ▸ hds))
    · exact hacc.2 j vb hvb
  refine ⟨fun ds hds => h.devices ds (hloop.1 ▸ hds), fun i vb hb => ?_⟩
  obtain ⟨vbs', hvbs', hget⟩ := battery_eq_ok.1 hb
  simp only at hvbs'
  split at hvbs'
  · cases hvbs'
  · cases hvbs'
    exact hloop.2 i vb hget

/-- The part of a commit before control. -/
theorem Everywhere.prepare {inp : CommitInput} (hP : Lasting P)
    (hinit : ∀ g e, P (VbDevice.init g .pemOff e (9 / 2))) (h : Everywhere P s) (hs : s.prepare net inp = .ok s') :
    Everywhere P s' := by
  unfold Globals.prepare at hs
  obtain ⟨s₁, h₁, hs⟩ := bind_ok.1 hs
  have hstart : Everywhere P (if inp.time - s.tStart = 0 then s.initializeDevices net inp else s) := by
    split
    · refine ⟨fun ds hds d hd => ?_, h.batteries⟩
      cases hds
      rcases List.mem_append.1 (Table.mem_of_mem_ofList hd) with hd | hd
      · obtain ⟨n, -, rfl⟩ := List.mem_map.1 hd
        exact hinit _ _
      · obtain ⟨n, -, rfl⟩ := List.mem_map.1 hd
        exact hinit _ _
    · exact h
  generalize (if inp.time - s.tStart = 0 then s.initializeDevices net inp else s) = s₀ at hstart h₁
  have hadopted : Everywhere P s₁ := by
    split at h₁
    · unfold adoptPartition at h₁
      obtain ⟨s₂, h₂, h₁⟩ := bind_ok.1 h₁
      cases h₁
      refine Everywhere.congr (s := s₂) ?_ rfl rfl
      split at h₂
      · refine Everywhere.updateVB hP ?_ h₂
        exact hstart.congr rfl rfl
      · cases h₂
        exact hstart.congr rfl rfl
    · cases h₁
      exact hstart.congr rfl rfl
  unfold reIslandBatteries at hs
  split at hs
  · obtain ⟨s₂, h₂, hs⟩ := bind_ok.1 hs
    cases hs
    have hnew : Everywhere P s₂ := Everywhere.updateVB hP hadopted h₂
    exact hnew.congr rfl rfl
  · cases hs
    exact hadopted

theorem Everywhere.control {inp : CommitInput} (hP : Lasting P) (h : Everywhere P s) (hs : s.control net inp = .ok s') :
    Everywhere P s' :=
  control_invariant (P := Everywhere P) (fun _ _ _ _ ht hc =>
    ht.invariant (fun _ _ hm hs => hs.move hP hm) (fun _ _ hs => hs.congr rfl rfl) hc) h hs

/-! ## Nothing is turned on -/

/-- From `s` to `s'` no device of any battery was turned on, and the packetized runs were the island's, all without power. -/
structure Spared (island : Island) (s s' : Globals) : Prop where
  command : ∀ id, s'.gldState.lastCommand id = s.gldState.lastCommand id ∨ s'.gldState.lastCommand id = some .turnOff
  runs : ∃ runs, s'.packetized = s.packetized ++ runs ∧ ∀ run ∈ runs, run = (island, 0)

theorem Spared.refl (s : Globals) : Spared island s s := ⟨fun _ => .inl rfl, [], (List.append_nil _).symm, by simp⟩

theorem Spared.trans {s'' : Globals} (h : Spared island s s') (h' : Spared island s' s'') : Spared island s s'' where
  command := fun id => by
    rcases h'.command id with h₁ | h₁
    · exact (h.command id).imp h₁.trans h₁.trans
    · exact .inr h₁
  runs := by
    obtain ⟨l, hl, hall⟩ := h.runs
    obtain ⟨l', hl', hall'⟩ := h'.runs
    refine ⟨l ++ l', by rw [hl', hl, List.append_assoc], fun run hrun => ?_⟩
    exact (List.mem_append.1 hrun).elim (hall run) (hall' run)

/-- A step that runs no packetized step, and gives no command but off commands. -/
theorem spared_of_command (hp : s'.packetized = s.packetized) (hc : ∀ id,
    s'.gldState.lastCommand id = s.gldState.lastCommand id ∨ s'.gldState.lastCommand id = some .turnOff) :
    Spared island s s' :=
  ⟨hc, [], by rw [hp, List.append_nil], by simp⟩

/-- Houses that are put back get no command. -/
theorem reconnectLoop_spared (draws : ℕ → ℕ) : ∀ (k turn : ℕ) (s s' : Globals),
    reconnectLoop island inp.time draws turn k s = .ok s' → Spared island s s'
  | 0, _, s, _, h => by
    cases h
    exact .refl s
  | k + 1, turn, s, s', h => by
    rw [reconnectLoop] at h
    obtain ⟨n, -, h⟩ := bind_ok.1 h
    obtain ⟨s₁, hs, h⟩ := bind_ok.1 h
    obtain ⟨d, e, vb, -, -, -, rfl⟩ := turnOnHouse_eq_ok.1 hs
    refine Spared.trans ?_ (reconnectLoop_spared draws k _ _ _ h)
    exact spared_of_command rfl fun id => .inl rfl

theorem shedColumn_spared {c : String} {x : ℚ} (h : s.shedColumn inp island c x = .ok s') : Spared island s s' := by
  by_cases hx : 0 < x
  · obtain ⟨sp, called, vb, s₁, -, hb, h₁, h₂⟩ := (shedColumn_eq_ok hx).1 h
    have hoff : Spared island (s.setBattery island { vb with setpoint := sp }) s₁ := by
      refine disconnectLoop_rel (Spared island) .refl .trans (fun hb hn => ?_) _ _ _ _ _ h₁
      obtain ⟨vb', st, he, -, hoff⟩ := turnOffHouse_rows hb hn
      rw [he]
      exact spared_of_command rfl hoff
    have hset : Spared island s (s.setBattery island { vb with setpoint := sp }) := spared_of_command rfl fun id => .inl rfl
    exact (hset.trans hoff).trans (reconnectLoop_spared _ _ _ _ _ h₂)
  · unfold shedColumn at h
    rw [if_neg hx] at h
    cases h
    exact .refl s

/-- The battery's column, where it gives no power. -/
theorem virtualColumn_spared {c : String} {load : ℚ} (hgld : ∀ id, 0 ≤ (inp.gld id).load)
    (hs : Everywhere (fun d => 0 < d.lastPowerDrawKw) s) (h : s.virtualColumn inp island c 0 = .ok (s', load)) :
    Spared island s s' := by
  obtain ⟨vb, hb, h⟩ := bind_ok.1 h
  obtain ⟨vb', hb', rfl, -⟩ := packetizeIsland_eq_ok.1 h
  rw [battery_setBattery s hb, if_pos rfl] at hb'
  cases hb'
  refine ⟨fun id => ?_, [(island, 0)], rfl, fun run hrun => List.mem_singleton.1 hrun⟩
  have hsp : ({ vb with setpoint := 0 } : VirtualBattery ℚ).setpoint ≤ 0 := le_refl 0
  exact VirtualBattery.lastCommand_packetize_of_nonpos hsp hgld (fun d hd => hs.batteries _ _ hb d hd) id

theorem column_spared {acc acc' : Globals × PowerBalance} {c : String × ℚ} (hgld : ∀ id, 0 ≤ (inp.gld id).load)
    (hs : Everywhere (fun d => 0 < d.lastPowerDrawKw) acc.1) (hc : columnKind c.1 = .virtual → c.2 = 0)
    (h : column net inp island acc c = .ok acc') : Spared island acc.1 acc'.1 := by
  obtain ⟨s, bal⟩ := acc
  obtain ⟨name, x⟩ := c
  simp only [column] at h
  cases hk : columnKind name with
  | solar => rw [hk] at h; cases h; exact .refl s
  | shed =>
    rw [hk] at h
    obtain ⟨s₁, h₁, h⟩ := bind_ok.1 h
    cases h
    exact shedColumn_spared h₁
  | virtual =>
    obtain rfl : x = 0 := hc hk
    rw [hk] at h
    obtain ⟨⟨s₁, load⟩, h₁, h⟩ := bind_ok.1 h
    cases h
    exact virtualColumn_spared hgld hs h₁
  | battery =>
    rw [hk] at h
    obtain ⟨inv, -, h⟩ := bind_ok.1 h
    cases h
    exact .refl s
  | other => rw [hk] at h; cases h; exact .refl s

theorem lasting_lastPowerDrawKw : Lasting fun d => 0 < d.lastPowerDrawKw where
  update := fun _ _ s e h => VbDevice.lastPowerDrawKw_update_pos h s e
  refresh := fun _ _ h => h
  deadline := fun _ _ h => h

/-- A management step on a row that gives the battery no power. -/
theorem manageIsland_spared (hgld : ∀ id, 0 ≤ (inp.gld id).load) (hs : Everywhere (fun d => 0 < d.lastPowerDrawKw) s)
    (hrow : ∀ c ∈ (inp.row island).rows, columnKind c.1 = .virtual → c.2 = 0)
    (h : manageIsland net inp s island = .ok s') : Spared island s s' := by
  obtain ⟨vb, nfload, s₁, bal, -, -, hf, rfl⟩ := manageIsland_eq_ok.1 h
  have hinv : Spared island s s₁ ∧ Everywhere (fun d => 0 < d.lastPowerDrawKw) s₁ := by
    refine foldlM_invariant (P := fun acc : Globals × PowerBalance => Spared island s acc.1 ∧
      Everywhere (fun d => 0 < d.lastPowerDrawKw) acc.1) (fun c hc acc acc' hacc hcol => ?_) ⟨.refl s, hs⟩ hf
    exact ⟨hacc.1.trans (column_spared hgld hacc.2 (hrow c (Row.mem_sorted.1 hc)) hcol),
      hacc.2.moves lasting_lastPowerDrawKw (column_moves hcol)⟩
  refine hinv.1.trans ?_
  exact spared_of_command rfl fun id => .inl rfl

/-! ## Rows that shed -/

/-- The row is the one of an optimal plan, over no more than 1111 intervals, and it sheds load. -/
def Sheds (net : Network) (island : Island) (row : Row) : Prop :=
  ∃ (nsolar ngens nbatt : ℕ) (a : Dispatch.ManageArgs ℚ nsolar ngens nbatt) (d : Dispatch.IslandModel ℚ nsolar ngens nbatt)
    (o : Dispatch.Answer ℚ nsolar ngens nbatt), WellRead net island a ∧ Dispatch.buildModel a = .ok d ∧ 0 < d.deltaT ∧
      9 * d.horizon < 10000 ∧ o.status = .optimal ∧ Dispatch.Optimal d o.values ∧ Dispatch.manageIsland a o = .ok row ∧
      0 < Dispatch.Row.column row "shed"

/-- Such a row gives the battery no power. -/
theorem Sheds.virtual {row : Row} (h : Sheds net island row) : row.get? (virtualName island) = some 0 ∧
    ∀ c ∈ row.rows, columnKind c.1 = .virtual → c.2 = 0 := by
  obtain ⟨nsolar, ngens, nbatt, a, d, o, hread, hd, ht, hlen, ho, hopt, hrow, hshed⟩ := h
  obtain ⟨d', hd', hrow⟩ := bind_ok.1 hrow
  cases hd.symm.trans hd'
  obtain rfl : Dispatch.results a d o = row := Except.ok.inj hrow
  obtain ⟨htwo, -, -⟩ := Dispatch.buildModel_spec hd
  have hsecond : o.atSecond = ⟨(o.values.Ps · 2), (o.values.Pg · 2), (o.values.Pb · 2), o.values.Pvb 2, o.values.Dshed 2⟩ := by
    unfold Dispatch.Answer.atSecond
    rw [ho]
    rfl
  have hshows := Dispatch.shows_columns hread.named o.atSecond (d.nonflexLoad 2)
  unfold Dispatch.results at hshed ⊢
  rw [hshows.shed, hsecond] at hshed
  have hzero : o.atSecond.virt = 0 := by
    rw [hsecond]
    refine hopt.virtual_idle ht (Finset.mem_Icc.2 ⟨by omega, htwo⟩) hshed ?_
    rwa [Nat.add_sub_cancel]
  refine ⟨Dict.get?_eq_some.2 ?_, fun c hc hk => ?_⟩
  · rw [hread.rows, ← hread.virtName, ← hzero]
    simp [Dispatch.columns]
  · rw [hread.rows] at hc
    rw [(hread.kinds hc).1 hk]
    exact hzero

/-! ## Commits -/

/-- What a commit that manages should do: the turn of an island on whose row an optimal plan sheds load turns nothing on, and
runs the island's battery without power. -/
def CommitSpares (net : Network) (s : Globals) (inp : CommitInput) : Prop :=
  ∀ s₁ before island after c c', s.prepare net inp = .ok s₁ → s₁.Manages inp →
    s₁.islands.getD [] = before ++ island :: after → before.foldlM (manageIsland net inp.toManageInput) s₁ = .ok c →
    manageIsland net inp.toManageInput c island = .ok c' → Sheds net island (inp.row island) →
    (∀ id, 0 ≤ (inp.gld id).load) →
    Spared island c c' ∧ (island, 0) ∈ c'.packetized.drop c.packetized.length

/-- In every run of commits, whatever the rows, a management step that sheds load by an optimal plan turns nothing on. -/
theorem commits_spared (net : Network) (tStart : ℤ) (st : GldState ℚ) (inps : List CommitInput) :
    AllSteps (raising (onCommit net)) (CommitSpares net) (init tStart st) inps := by
  have hP := lasting_lastPowerDrawKw
  have hinit : ∀ g e, 0 < (VbDevice.init g .pemOff e (9 / 2 : ℚ)).lastPowerDrawKw := fun g e => by
    show (0 : ℚ) < 9 / 2
    norm_num
  refine allSteps_of_invariant (fun s inp s' (hs : Everywhere (fun d => 0 < d.lastPowerDrawKw) s) (_ : True) hstep => ?_)
    (fun s inp hs _ => ?_) ?_ (allSteps_of_forall fun _ _ _ => trivial)
  · obtain ⟨s₁, hs₁, hstep⟩ := bind_ok.1 (toOption_eq_some.1 hstep)
    exact (hs.prepare hP hinit hs₁).control hP hstep
  · intro s₁ before island after c c' hs₁ _ _ hbefore hturn hsheds hgld
    have hc : Everywhere (fun d => 0 < d.lastPowerDrawKw) c := by
      refine foldlM_invariant (fun i _ c c' hc hm => ?_) (hs.prepare hP hinit hs₁) hbefore
      exact (manageIsland_turn hm).invariant (fun _ _ hm hs => hs.move hP hm) (fun _ _ hs => hs.congr rfl rfl) hc
    exact ⟨manageIsland_spared hgld hc hsheds.virtual.2 hturn, manageIsland_packetized hsheds.virtual.1 hturn⟩
  · exact ⟨fun ds hds => (by cases hds), fun i vb hb => by cases hb⟩

/-- The row of the dim island. -/
def dimRow : Row := (Dispatch.manageIsland Dispatch.dimArgs ⟨.optimal, Dispatch.dimPlan⟩).toOption.getD Dict.empty

theorem dimRow_sheds : Sheds batteryFeeders [101] dimRow := by
  refine ⟨1, 0, 1, Dispatch.dimArgs, Dispatch.dimIsland, ⟨.optimal, Dispatch.dimPlan⟩, ?_, Dispatch.dimArgs_model,
    by decide +kernel, by decide, rfl, Dispatch.dimPlan_optimal, rfl, by decide +kernel⟩
  constructor
  case solar => exact fun _ => (by decide : columnKind "solar_101" = .solar)
  case named => decide +kernel
  all_goals decide +kernel

/-- A fault at 180 islands the first feeder, and the island is managed on that row. -/
def dimFault : CommitInput := smallCommit 180 (· = 102) [[101]] fun _ => dimRow

theorem dimFault_spared : ∃ c c', manageIsland batteryFeeders dimFault.toManageInput c [101] = .ok c' ∧
    Spared [101] c c' ∧ ([101], 0) ∈ c'.packetized.drop c.packetized.length := by
  have hall := commits_spared batteryFeeders 0 untouched [smallCommit 0 (fun _ => false) [] fun _ => dimRow, dimFault]
  rw [allSteps_cons] at hall
  have hrun : ((onCommit batteryFeeders (init 0 untouched) (smallCommit 0 (fun _ => false) [] fun _ => dimRow)).toOption.bind
      fun s => (s.prepare batteryFeeders dimFault).toOption.bind fun s₁ =>
        (manageIsland batteryFeeders dimFault.toManageInput s₁ [101]).toOption.map fun _ =>
          (decide (s₁.Manages dimFault), s₁.islands)) = some (true, some [[101]]) := by
    decide +kernel
  rw [Option.bind_eq_some_iff] at hrun
  obtain ⟨s, hs, hrun⟩ := hrun
  rw [Option.bind_eq_some_iff] at hrun
  obtain ⟨s₁, hs₁, hrun⟩ := hrun
  rw [Option.map_eq_some_iff] at hrun
  obtain ⟨c', hc', hrun⟩ := hrun
  simp only [Prod.mk.injEq, decide_eq_true_eq] at hrun
  obtain ⟨hm, hi⟩ := hrun
  rw [toOption_eq_some] at hs₁ hc'
  have hstep := (allSteps_cons.1 (hall.2 s hs)).1 s₁ [] [101] [] s₁ c' hs₁ hm (by rw [hi]; rfl) rfl hc' dimRow_sheds
    fun _ => le_refl _
  exact ⟨s₁, c', hc', hstep⟩

end Grip.Absorption.Globals
