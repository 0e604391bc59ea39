/-
The agreement of a device's PEM state with the last command it was sent. Every verdict but one
sends the command of the state it puts the device in. The exception is a request: it puts the
device in `PEM_OFF` and sends nothing, so when it is refused the device keeps its last command,
and a device whose packet has just ended keeps running.
-/
import GripAbsorption.Packetized.Run

namespace Grip.Packetized

open Grip.Base

universe u

variable {K : Type u} [Field K] [LinearOrder K]

/-! ## Commands sent -/

namespace GldDev

theorem lastCommand_turnOn (st : GldState K) (d : GldDev K) :
    (d.turnOn st).lastCommand = Function.update st.lastCommand d.id (some .turnOn) := by
  cases d with
  | waterHeater w => rfl
  | hvac h =>
    simp only [turnOn, GldState.record_lastCommand, GldHVAC.turnOn, id]
    split
    · rfl
    · split <;> rfl

omit [LinearOrder K] in
theorem lastCommand_turnOff (st : GldState K) (d : GldDev K) :
    (d.turnOff st).lastCommand = Function.update st.lastCommand d.id (some .turnOff) := by
  cases d <;> rfl

end GldDev

omit [Field K] [LinearOrder K] in
/-- A loop that sends one command to each object of a list. -/
theorem lastCommand_foldl {ε : Type u} {act : GldState K → ε → GldState K} {c : Command} (id : ε → DeviceId)
    (hact : ∀ st e, (act st e).lastCommand = Function.update st.lastCommand (id e) (some c)) (x : DeviceId) :
    ∀ (es : List ε) (st : GldState K),
      (es.foldl act st).lastCommand x = if x ∈ es.map id then some c else st.lastCommand x
  | [], st => by simp
  | e :: es, st => by
    rw [List.foldl_cons, lastCommand_foldl id hact x es, hact, List.map_cons]
    by_cases hx : x ∈ es.map id
    · rw [if_pos hx, if_pos (List.mem_cons_of_mem _ hx)]
    · rw [if_neg hx, Function.update_apply]
      simp only [List.mem_cons, hx, or_false]

/-- The last command after a step's effects: an off command wins over an on command. -/
theorem lastCommand_send (es : Effects K) (st : GldState K) (x : DeviceId) :
    (es.send st).lastCommand x =
      if x ∈ es.turnOff.map (·.gld.id) then some .turnOff
      else if x ∈ es.turnOn.map (·.gld.id) then some .turnOn else st.lastCommand x := by
  unfold Effects.send
  rw [lastCommand_foldl (fun e : TurnOff K => e.gld.id) fun st e => GldDev.lastCommand_turnOff st e.gld]
  rw [lastCommand_foldl (fun e : TurnOn K => e.gld.id) fun st e => GldDev.lastCommand_turnOn st e.gld]

/-! ## Agreement -/

/-- A running device was last turned on, any other was not. -/
def VbDevice.Agrees (st : GldState K) (d : VbDevice K) : Prop :=
  d.pemState.isOn = true ↔ st.lastCommand d.deviceId = some .turnOn

namespace Site

/-- Every device of the site agrees with its last command. -/
def Agrees (s : Site K) : Prop := ∀ d ∈ s.vb.devices.rows, d.Agrees s.gldState

/-- Every device is off and was never commanded. -/
def Unused (s : Site K) : Prop :=
  ∀ d ∈ s.vb.devices.rows, d.pemState = .pemOff ∧ s.gldState.lastCommand d.deviceId = none

omit [Field K] [LinearOrder K] in
theorem Unused.agrees {s : Site K} (h : s.Unused) : s.Agrees := by
  intro d hd
  obtain ⟨hs, hl⟩ := h d hd
  simp [VbDevice.Agrees, hs, hl, PemState.isOn]

instance (s : Site K) : Decidable s.Agrees :=
  inferInstanceAs (Decidable (∀ d ∈ s.vb.devices.rows, (d.pemState.isOn = true ↔ _)))

instance (s : Site K) : Decidable s.Unused :=
  inferInstanceAs (Decidable (∀ d ∈ s.vb.devices.rows, _ ∧ _))

variable [FloorRing K]

/-- The step leaves every device in agreement. -/
def StepAgrees (s : Site K) (i : StepInput K) : Prop := (s.step i).Agrees

/-- A running device that asks for a packet gets it. -/
def RenewalsGranted (s : Site K) (i : StepInput K) : Prop :=
  ∀ p ∈ s.sweep i, p.1.pemState.isOn = true → p.2.request ≠ none → p.1.deviceId ∈ (s.granted i).map PowerRequest.deviceId

instance (s : Site K) (i : StepInput K) : Decidable (s.StepAgrees i) := inferInstanceAs (Decidable (s.step i).Agrees)

instance (s : Site K) (i : StepInput K) : Decidable (s.RenewalsGranted i) :=
  inferInstanceAs (Decidable (∀ p ∈ s.sweep i, _ → _ → _))

variable [IsStrictOrderedRing K] {s : Site K} {i : StepInput K} {p : VbDevice K × Verdict K}

omit [IsStrictOrderedRing K] in
theorem mem_requests_of_granted {r : PowerRequest K} (hr : r ∈ s.granted i) :
    r ∈ (s.sweep i).filterMap (·.2.request) :=
  mem_shuffle.1 ((admitted_sublist _ _ _).subset hr)

/-- Only a device that asks is granted a request. -/
theorem request_of_granted (hp : p ∈ s.sweep i) (h : p.1.deviceId ∈ (s.granted i).map PowerRequest.deviceId) :
    ∃ r, p.2.request = some r := by
  obtain ⟨r, hr, hid⟩ := List.mem_map.1 h
  have hm : p.1.deviceId ∈ ((s.sweep i).filterMap (·.2.request)).map PowerRequest.deviceId :=
    List.mem_map.2 ⟨r, mem_requests_of_granted hr, hid⟩
  exact (mem_map_filterMap_iff (s.ids_sweep i) (fun q hq r => (sound_of_mem hq).id_request) hp).1 hm

/-- The granted requests are the ones turned on. -/
theorem ids_grantEffects {x : DeviceId} :
    x ∈ (grantEffects ((s.ready i).applyPemChanges i.gld i.dice).1.devices (s.granted i)).map (·.gld.id) ↔
      x ∈ (s.granted i).map PowerRequest.deviceId := by
  have hkeys : ∀ r ∈ s.granted i, r.deviceId ∈ ((s.ready i).applyPemChanges i.gld i.dice).1.devices.keys := by
    intro r hr
    unfold Table.keys
    rw [(VirtualBattery.applyPemChanges_eq i.gld i.dice (s.ready i)).1]
    exact (requests_sweep _ _ _ _ (fun _ => fresh_ready) (s.ready i).devices.nodup).2 r (mem_requests_of_granted hr)
  unfold grantEffects
  simp only [List.mem_map, List.mem_filterMap, Option.map_eq_some_iff]
  constructor
  · rintro ⟨-, ⟨r, hr, d, hd, rfl⟩, rfl⟩
    exact ⟨r, hr, (Table.find?_eq_some.1 hd).2.symm⟩
  · rintro ⟨r, hr, rfl⟩
    obtain ⟨d, hd⟩ := Table.mem_keys_iff_find?.1 (hkeys r hr)
    exact ⟨d.turnOn, ⟨r, hr, d, hd, rfl⟩, (Table.find?_eq_some.1 hd).2⟩

/-- The command a device was last sent when the step ends. -/
theorem lastCommand_step (hp : p ∈ s.sweep i) :
    (s.step i).gldState.lastCommand p.1.deviceId =
      if p.2.turnOff ≠ none then some .turnOff
      else if p.2.turnOn ≠ none ∨ p.1.deviceId ∈ (s.granted i).map PowerRequest.deviceId then some .turnOn
      else s.gldState.lastCommand p.1.deviceId := by
  obtain ⟨requests, hst⟩ := s.gldState_step i
  have hoff := mem_map_filterMap_iff (s.ids_sweep i) (fun q hq e => (sound_of_mem hq).id_turnOff) hp
  have hon := mem_map_filterMap_iff (s.ids_sweep i) (fun q hq e => (sound_of_mem hq).id_turnOn) hp
  rw [hst, lastCommand_send]
  refine if_congr (hoff.trans Option.ne_none_iff_exists'.symm) rfl (if_congr ?_ rfl rfl)
  rw [List.map_append, List.mem_append, ids_grantEffects, hon, Option.ne_none_iff_exists']

/-! ## The step law -/

/-- One device: after the step it agrees with its last command unless it asked in vain while running. -/
theorem agrees_grant_iff (hag : s.Agrees) (hp : p ∈ s.sweep i) {n : VbDevice K} (hn : p.2.next = some n) :
    (grant i.gld (s.ready i).timeSec ((s.granted i).map PowerRequest.deviceId) n).Agrees (s.step i).gldState ↔
      (p.1.pemState.isOn = true → p.2.request ≠ none → p.1.deviceId ∈ (s.granted i).map PowerRequest.deviceId) := by
  have hnid : n.deviceId = p.1.deviceId := deviceId_next_sweep hp hn
  have hlast := lastCommand_step hp
  have hsound := sound_of_mem hp
  have hask := request_of_granted hp
  obtain ⟨d, hd, hup⟩ := mem_ready.1 (mem_sweep hp).1
  have hold : p.1.pemState.isOn = true ↔ s.gldState.lastCommand p.1.deviceId = some .turnOn := by
    rw [← hup, VbDevice.deviceId_update]
    exact hag d hd
  unfold VbDevice.Agrees
  rw [deviceId_grant, hnid, hlast]
  by_cases hg : p.1.deviceId ∈ (s.granted i).map PowerRequest.deviceId
  · -- granted: it asked, and is put in `PEM_ON` and turned on
    obtain ⟨r, hr⟩ := hask hg
    obtain ⟨hnoff, -, hnoOff⟩ := hsound.of_request hr hn
    have hon : (grant i.gld (s.ready i).timeSec ((s.granted i).map PowerRequest.deviceId) n).pemState.isOn = true := by
      rw [grant_pemOff (by rw [hnid]; exact hg) hnoff]
      rfl
    simp [hon, hg, hnoOff]
  · have hgrant : grant i.gld (s.ready i).timeSec ((s.granted i).map PowerRequest.deviceId) n = n :=
      grant_of_notMem (by rw [hnid]; exact hg)
    rw [hgrant]
    rcases hv : p.2 with ⟨m, e⟩ | ⟨m, e⟩ | ⟨m, e⟩ | ⟨m, r⟩ | _ <;> rw [hv] at hn hsound <;> cases hn
    · simp [hsound.2.2, Verdict.turnOff, Verdict.turnOn, Verdict.request]
    · simp [hsound.2.2, Verdict.turnOff, Verdict.request, PemState.isOn]
    · simp [hsound.2.2, Verdict.turnOff, Verdict.request]
    · -- refused: it is off, and its last command is the old one
      have hoff : n.pemState.isOn = false := by rw [hsound.2.2]; rfl
      simp [hoff, hg, hold, Verdict.turnOff, Verdict.turnOn, Verdict.request]

/-- In a site that agrees, a step leaves every device in agreement if and only if it grants every
request of a running device. -/
theorem stepAgrees_iff (hag : s.Agrees) (i : StepInput K) : s.StepAgrees i ↔ s.RenewalsGranted i := by
  unfold StepAgrees Agrees
  rw [rows_step]
  simp only [List.mem_map, List.mem_filterMap]
  constructor
  · intro h p hp hon hr
    obtain ⟨r, hr'⟩ := Option.ne_none_iff_exists'.1 hr
    obtain ⟨n, hn⟩ : ∃ n, p.2.next = some n := by
      rcases hv : p.2 with _ | _ | _ | ⟨n, r'⟩ | _ <;> rw [hv] at hr' <;> cases hr'
      exact ⟨n, rfl⟩
    exact (agrees_grant_iff hag hp hn).1 (h _ ⟨n, ⟨p, hp, hn⟩, rfl⟩) hon hr
  · rintro h - ⟨n, ⟨p, hp, hn⟩, rfl⟩
    exact (agrees_grant_iff hag hp hn).2 (h p hp)

theorem agrees_run_iff (is : List (StepInput K)) (s : Site K) (hag : s.Agrees) :
    AllSteps (total step) StepAgrees s is ↔ AllSteps (total step) RenewalsGranted s is := by
  refine allSteps_iff_of_invariant (fun s i hs => stepAgrees_iff hs i) ?_ is s hag
  rintro s i s' - hp hs
  cases hs
  exact hp

/-- Along a run from devices that are off and were never commanded, agreement holds after every step
if and only if every step grants every request of a running device. -/
theorem unused_agrees_run_iff (s : Site K) (is : List (StepInput K)) (h : s.Unused) :
    AllSteps (total step) StepAgrees s is ↔ AllSteps (total step) RenewalsGranted s is :=
  agrees_run_iff is s h.agrees

end Site

/-! ## A refused renewal -/

/-- A refused request of a device that does not run leaves it off, and a granted one turns it on. -/
theorem granted_heater_agrees :
    AllSteps (total Site.step) Site.StepAgrees heaterSite [heaterStep 30 0, heaterStep 60 100, heaterStep 90 100] :=
  (Site.unused_agrees_run_iff _ _ (by decide +kernel)).2 (by decide +kernel)

/-- A packet granted at 30 ends at 210, where the renewal is refused: the heater is `PEM_OFF` and
still turned on. -/
theorem refused_renewal_runs :
    heaterSite.Unused ∧ ([heaterStep 30 100, heaterStep 210 0].map (·.time)).IsChain (· ≤ ·) ∧
      ¬ AllSteps (total Site.step) Site.StepAgrees heaterSite [heaterStep 30 100, heaterStep 210 0] := by
  refine ⟨by decide +kernel, by decide +kernel, by decide +kernel⟩

end Grip.Packetized
