/-
Runs of control steps of one island's battery. A step first refreshes every device (`ready`);
the sweep and the admission of the refreshed battery then determine the table and the commands
it leaves (`rows_packetize`, `gldState_packetize`). Over runs, two laws and the steps that break
them: the set of managed devices, and the agreement of a device's PEM state with its last
command.
-/
import GripAbsorption.Base.Run
import GripAbsorption.Packetized.Step

namespace Grip.Packetized

open Grip.Base

universe u

variable {K : Type u} [Field K] [LinearOrder K]

/-! ## The refreshed battery -/

/-- The state a step works on: the time of the step (0 leaves the old time) and current readings. -/
def VirtualBattery.ready (gld : Gld K) (time : ℤ) (vb : VirtualBattery K) : VirtualBattery K :=
  ({ vb with timeSec := (given (some time)).getD vb.timeSec } : VirtualBattery K).applyUpdates gld
    (vb.devices.rows.map fun d => d.update gld none none none)

namespace VirtualBattery

variable {gld : Gld K} {dice : DeviceId → Dice K} {draws : ℕ → ℕ} {time : ℤ}

theorem rows_ready (vb : VirtualBattery K) :
    (vb.ready gld time).devices.rows = vb.devices.rows.map fun d => d.update gld none none none := by
  have h := Table.foldl_replace (fun d : VbDevice K => d.update gld none none none)
    (fun d => VbDevice.deviceId_update d none none none) vb.devices
  refine (congrArg (fun t : Devices K => t.rows.map (·.refresh gld)) h).trans ?_
  rw [Table.rows_mapRows, List.map_map]
  exact List.map_congr_left fun d _ => VbDevice.refresh_of_fresh (VbDevice.fresh_update d none none none)

theorem fresh_of_mem_ready {vb : VirtualBattery K} {d : VbDevice K} (h : d ∈ (vb.ready gld time).devices.rows) :
    d.Fresh gld := by
  rw [rows_ready] at h
  obtain ⟨e, -, rfl⟩ := List.mem_map.1 h
  exact VbDevice.fresh_update e none none none

theorem mem_keys_ready {vb : VirtualBattery K} {id : DeviceId} :
    id ∈ (vb.ready gld time).devices.keys ↔ id ∈ vb.devices.keys := by
  unfold Table.keys
  rw [rows_ready, List.map_map]
  simp only [Function.comp_def, VbDevice.deviceId_update]

variable [FloorRing K]

/-- The requests admitted on a refreshed battery, in the order of the shuffle. -/
def granted (gld : Gld K) (dice : DeviceId → Dice K) (draws : ℕ → ℕ) (vb : VirtualBattery K) :
    List (PowerRequest K) :=
  admitted vb.setpoint (measuredLoad ((vb.pemSweep gld dice).filterMap (·.2.next)))
    (shuffle draws ((vb.pemSweep gld dice).filterMap (·.2.request)))

end VirtualBattery

/-! ## One verdict -/

/-- The states of a device that runs. -/
def PemState.isOn : PemState → Bool
  | pemOn | exitOn => true
  | pemOff | exitOff => false

theorem PemState.isOn_eq_true {s : PemState} : s.isOn = true ↔ s = .pemOn ∨ s = .exitOn := by
  cases s <;> decide

theorem PemState.isOn_eq_false {s : PemState} : s.isOn = false ↔ s = .pemOff ∨ s = .exitOff := by
  cases s <;> decide

/-- What a verdict on `d` can be, whatever the running load. -/
def Verdict.Sound (time : ℤ) (d : VbDevice K) : Verdict K → Prop
  | .kept n e => n.gldDev = d.gldDev ∧ e.gld = d.gldDev ∧ n.pemState.isOn = true
  | .curtailed n e => n.gldDev = d.gldDev ∧ e.gld = d.gldDev ∧ n.pemState = .pemOff
  | .off n e => n.gldDev = d.gldDev ∧ e.gld = d.gldDev ∧ n.pemState.isOn = false
  | .asks n r => n.gldDev = d.gldDev ∧ r.deviceId = d.deviceId ∧ n.pemState = .pemOff
  | .dropped => d.gldDev.zone = .comfort ∧ d.pemState = .pemOff ∧ time < d.stateEndsAt

variable {gld : Gld K} {dice : DeviceId → Dice K} {time : ℤ} {cap : K}

theorem verdict_sound [IsStrictOrderedRing K] {load : K} {die : Dice K} {d : VbDevice K} (hf : d.Fresh gld) :
    (verdict gld cap load d (d.pem gld die time)).Sound time d := by
  have h := VbDevice.pem_outcome die time hf
  generalize d.pem gld die time = r at h
  cases h with
  | comfortOn hz hd hs =>
    by_cases hl : load < cap <;> simp only [verdict, hl, if_true, if_false]
    · exact ⟨hd, rfl, by rw [hs]; rfl⟩
    · exact ⟨hf, rfl, rfl⟩
  | keepOn hz hs he =>
    by_cases hl : load < cap <;> simp only [verdict, hl, if_true, if_false]
    · exact ⟨rfl, rfl, by rw [hs]; rfl⟩
    · exact ⟨hf, rfl, rfl⟩
  | comfortOff hz hd hs => exact ⟨hd, rfl, by rw [hs]; rfl⟩
  | idles hz hl hd hs => exact ⟨hd, rfl, by rw [hs]; rfl⟩
  | asks hz hl hd hs => exact ⟨hd, rfl, hs⟩
  | waits hz hs he => exact ⟨hz, hs, he⟩

theorem verdict_sound_of_mem [IsStrictOrderedRing K] {load : K} {ds : List (VbDevice K)} (hf : ∀ d ∈ ds, d.Fresh gld)
    {p : VbDevice K × Verdict K} (hp : p ∈ sweep gld dice time cap load ds) : p.2.Sound time p.1 := by
  obtain ⟨hd, l, hl⟩ := mem_sweep hp
  rw [hl]
  exact verdict_sound (hf _ hd)

namespace Verdict.Sound

variable {d : VbDevice K} {v : Verdict K}

theorem id_turnOn (h : v.Sound time d) {e : TurnOn K} (he : v.turnOn = some e) : e.gld.id = d.deviceId := by
  cases v with
  | kept n e' => cases he; exact congrArg GldDev.id h.2.1
  | _ => cases he

theorem id_turnOff (h : v.Sound time d) {e : TurnOff K} (he : v.turnOff = some e) : e.gld.id = d.deviceId := by
  cases v with
  | curtailed n e' => cases he; exact congrArg GldDev.id h.2.1
  | off n e' => cases he; exact congrArg GldDev.id h.2.1
  | _ => cases he

theorem id_request (h : v.Sound time d) {r : PowerRequest K} (hr : v.request = some r) : r.deviceId = d.deviceId := by
  cases v with
  | asks n r' => cases hr; exact h.2.1
  | _ => cases hr

/-- A device that asks is written in `PEM_OFF`, and no command is sent to it. -/
theorem of_request (h : v.Sound time d) {r : PowerRequest K} (hr : v.request = some r) {n : VbDevice K}
    (hn : v.next = some n) : n.pemState = .pemOff ∧ v.turnOn = none ∧ v.turnOff = none := by
  cases v with
  | asks n' r' => cases hn; exact ⟨h.2.2, rfl, rfl⟩
  | _ => cases hr

end Verdict.Sound

/-- A device is not written exactly when it waits for its next request. -/
theorem verdict_next_eq_none [IsStrictOrderedRing K] {load : K} {die : Dice K} {d : VbDevice K} (hf : d.Fresh gld) :
    (verdict gld cap load d (d.pem gld die time)).next = none ↔
      d.gldDev.zone = .comfort ∧ d.pemState = .pemOff ∧ time < d.stateEndsAt := by
  rw [← (VbDevice.pem_outcome die time hf).effect_eq_none]
  rcases d.pem gld die time with ⟨n, _ | (r | e | e)⟩
  · simp [verdict, Verdict.next]
  · simp [verdict, Verdict.next]
  · by_cases hl : load < cap <;> simp [verdict, hl, Verdict.next]
  · simp [verdict, Verdict.next]

/-- The requests of a sweep come from distinct devices, all of which it writes. -/
theorem requests_sweep [IsStrictOrderedRing K] (dice : DeviceId → Dice K) (time : ℤ) (cap load : K)
    {ds : List (VbDevice K)} (hf : ∀ d ∈ ds, d.Fresh gld)
    (hn : (ds.map VbDevice.deviceId).Nodup) :
    (((sweep gld dice time cap load ds).filterMap (·.2.request)).map PowerRequest.deviceId).Nodup ∧
      ∀ r ∈ (sweep gld dice time cap load ds).filterMap (·.2.request),
        r.deviceId ∈ ((sweep gld dice time cap load ds).filterMap (·.2.next)).map VbDevice.deviceId := by
  have hmem : ∀ p ∈ sweep gld dice time cap load ds, ∀ r, p.2.request = some r →
      r.deviceId = p.1.deviceId ∧ ∃ n, p.2.next = some n ∧ n.deviceId = p.1.deviceId := by
    intro p hp r hr
    have hs := verdict_sound_of_mem hf hp
    have hid : ∀ n, p.2.next = some n → n.deviceId = p.1.deviceId := fun n => deviceId_next_sweep hp
    rcases hv : p.2 with _ | _ | _ | ⟨n, r'⟩ | _ <;> rw [hv] at hs hr hid <;> cases hr
    exact ⟨hs.2.1, n, rfl, hid n rfl⟩
  constructor
  · refine List.Nodup.sublist (sublist_map_filterMap (fun p => p.1.deviceId)
      fun p hp r hr => (hmem p hp r hr).1) ?_
    rw [← map_fst_sweep gld dice time cap load ds, List.map_map] at hn
    exact hn
  · intro r hr
    obtain ⟨p, hp, hpr⟩ := List.mem_filterMap.1 hr
    obtain ⟨hid, n, hn, hnid⟩ := hmem p hp r hpr
    rw [hid, ← hnid]
    exact List.mem_map_of_mem (List.mem_filterMap.2 ⟨p, hp, hn⟩)

/-! ## What a step leaves -/

namespace VirtualBattery

variable [FloorRing K] {draws : ℕ → ℕ}

/-- `next` once the updates are applied. -/
def act (gld : Gld K) (dice : DeviceId → Dice K) (draws : ℕ → ℕ) (vb : VirtualBattery K) :
    VirtualBattery K × Effects K × K :=
  let (vb, effects, totalload) := vb.applyPemChanges gld dice
  if effects.powerRequests ≠ [] then
    let requests := shuffle draws effects.powerRequests
    let (vb, accepted, totalload) := vb.handlePowerRequests gld requests
    (vb, { effects with powerRequests := requests, turnOn := effects.turnOn ++ accepted }, totalload)
  else (vb, effects, totalload)

theorem packetize_eq_act (vb : VirtualBattery K) (st : GldState K) :
    vb.packetize gld dice draws time st =
      let (vb, effects, _) := (vb.ready gld time).act gld dice draws
      (vb, effects.send st, (vb.devices.rows.map fun d => (d.gldDev.updateFromGld gld).kw).sum) := by
  have hsp : (given (some vb.setpoint)).getD vb.setpoint = vb.setpoint := by
    rw [given_some]; split <;> rfl
  have hnext : vb.next gld dice draws (some vb.setpoint) (vb.devices.rows.map fun d => d.update gld none none none)
      (some time) = (vb.ready gld time).act gld dice draws := by
    unfold next
    rw [hsp]
    rfl
  unfold packetize
  simp only [hnext]

/-- The table and the commands of a step on a refreshed battery: the sweep decides, and the admitted
requests are turned on. -/
theorem act_spec [IsStrictOrderedRing K] (dice : DeviceId → Dice K) (draws : ℕ → ℕ) (vb : VirtualBattery K)
    (hf : ∀ d ∈ vb.devices.rows, d.Fresh gld) :
    let s := vb.pemSweep gld dice
    let ok := vb.granted gld dice draws
    (vb.act gld dice draws).1.devices.rows =
        (s.filterMap (·.2.next)).map (grant gld vb.timeSec (ok.map PowerRequest.deviceId)) ∧
      (vb.act gld dice draws).1.timeSec = vb.timeSec ∧ (vb.act gld dice draws).1.setpoint = vb.setpoint ∧
      (vb.act gld dice draws).2.1.turnOn =
        s.filterMap (·.2.turnOn) ++ grantEffects (vb.applyPemChanges gld dice).1.devices ok ∧
      (vb.act gld dice draws).2.1.turnOff = s.filterMap (·.2.turnOff) := by
  intro s ok
  obtain ⟨hrows, heff, -⟩ := applyPemChanges_eq gld dice vb
  obtain ⟨hnd, hkeys⟩ := requests_sweep dice vb.timeSec (pyRound vb.setpoint : K) 0 hf vb.devices.nodup
  obtain ⟨h1, h2, -⟩ := handlePowerRequests_eq gld (vb.applyPemChanges gld dice).1
    (shuffle draws (s.filterMap (·.2.request)))
    (fun r hr => by unfold Table.keys; rw [hrows]; exact hkeys r (mem_shuffle.1 hr))
    (((shuffle_perm draws _).map _).nodup_iff.2 hnd)
  rw [hrows] at h1 h2
  have hok : ok = admitted vb.setpoint (measuredLoad (s.filterMap (·.2.next)))
    (shuffle draws (s.filterMap (·.2.request))) := rfl
  unfold act
  rcases hp : vb.applyPemChanges gld dice with ⟨vb', effects, load⟩
  have hvb : vb'.timeSec = vb.timeSec ∧ vb'.setpoint = vb.setpoint := by
    have : vb' = (vb.applyPemChanges gld dice).1 := by rw [hp]
    rw [this]; exact ⟨rfl, rfl⟩
  rw [hp] at heff hrows h1 h2
  simp only at heff hrows h1 h2
  rw [hvb.1, hvb.2, ← hok] at h1
  rw [hvb.2, ← hok] at h2
  subst heff
  by_cases hr : s.filterMap (·.2.request) = []
  · -- nothing is asked for, so nothing is granted
    have hnil : ok = [] := by rw [hok, hr]; rfl
    simp only [s] at hr
    simp only [hr, ne_eq, not_true_eq_false, if_false, hnil, List.map_nil, grantEffects, List.filterMap_nil,
      List.append_nil]
    refine ⟨?_, hvb.1, hvb.2, rfl, rfl⟩
    rw [hrows]
    exact ((List.map_congr_left fun d _ => grant_nil d).trans (List.map_id _)).symm
  · simp only [s] at hr
    simp only [ne_eq, hr, not_false_eq_true, if_true]
    exact ⟨h1, hvb.1, hvb.2, by rw [h2], rfl⟩

end VirtualBattery

/-! ## Sites -/

/-- One island's battery and the GridLAB-D properties of its devices. -/
structure Site (K : Type u) where
  vb : VirtualBattery K
  gldState : GldState K

/-- What a control step meets: its time, GridLAB-D's readings, the die rolls, the order of the
requests and the setpoint in force. -/
structure StepInput (K : Type u) where
  time : ℤ
  gld : Gld K
  dice : DeviceId → Dice K
  draws : ℕ → ℕ
  setpoint : K

namespace Site

/-- The battery with the setpoint of a step, refreshed. -/
def ready (s : Site K) (i : StepInput K) : VirtualBattery K :=
  ({ s.vb with setpoint := i.setpoint } : VirtualBattery K).ready i.gld i.time

theorem mem_ready {s : Site K} {i : StepInput K} {e : VbDevice K} :
    e ∈ (s.ready i).devices.rows ↔ ∃ d ∈ s.vb.devices.rows, d.update i.gld none none none = e := by
  unfold ready
  rw [VirtualBattery.rows_ready, List.mem_map]

theorem fresh_ready {s : Site K} {i : StepInput K} {e : VbDevice K} (h : e ∈ (s.ready i).devices.rows) :
    e.Fresh i.gld :=
  VirtualBattery.fresh_of_mem_ready h

variable [FloorRing K]

/-- The devices of a step with their verdicts. -/
def sweep (s : Site K) (i : StepInput K) : List (VbDevice K × Verdict K) := (s.ready i).pemSweep i.gld i.dice

/-- The requests a step admits. -/
def granted (s : Site K) (i : StepInput K) : List (PowerRequest K) := (s.ready i).granted i.gld i.dice i.draws

/-- One `packetize_island` step. -/
def step (s : Site K) (i : StepInput K) : Site K :=
  let (vb, st, _) := ({ s.vb with setpoint := i.setpoint } : VirtualBattery K).packetize i.gld i.dice i.draws i.time
    s.gldState
  ⟨vb, st⟩

theorem ids_sweep (s : Site K) (i : StepInput K) : ((s.sweep i).map (·.1.deviceId)).Nodup :=
  VirtualBattery.nodup_pemSweep i.gld i.dice (s.ready i)

variable [IsStrictOrderedRing K]

theorem sound_of_mem {s : Site K} {i : StepInput K} {p : VbDevice K × Verdict K} (hp : p ∈ s.sweep i) :
    p.2.Sound (s.ready i).timeSec p.1 :=
  verdict_sound_of_mem (fun _ => fresh_ready) hp

theorem rows_step (s : Site K) (i : StepInput K) : (s.step i).vb.devices.rows =
    ((s.sweep i).filterMap (·.2.next)).map
      (grant i.gld (s.ready i).timeSec ((s.granted i).map PowerRequest.deviceId)) := by
  unfold step
  rw [VirtualBattery.packetize_eq_act]
  exact (VirtualBattery.act_spec i.dice i.draws (s.ready i) fun _ => fresh_ready).1

theorem gldState_step (s : Site K) (i : StepInput K) : ∃ requests, (s.step i).gldState = Effects.send ⟨requests,
    (s.sweep i).filterMap (·.2.turnOn) ++ grantEffects ((s.ready i).applyPemChanges i.gld i.dice).1.devices (s.granted i),
    (s.sweep i).filterMap (·.2.turnOff)⟩ s.gldState := by
  obtain ⟨-, -, -, hon, hoff⟩ := VirtualBattery.act_spec i.dice i.draws (s.ready i)
    fun _ => fresh_ready
  refine ⟨((s.ready i).act i.gld i.dice i.draws).2.1.powerRequests, ?_⟩
  have hstep : (s.step i).gldState = ((s.ready i).act i.gld i.dice i.draws).2.1.send s.gldState := by
    unfold step
    rw [VirtualBattery.packetize_eq_act]
    rfl
  rw [hstep]
  unfold Effects.send
  rw [hon, hoff]
  rfl

end Site

/-! ## A site of one water heater -/

/-- A water heater at its set point that draws nothing. -/
def warm : Gld ℚ := fun _ => ⟨130, 0, 0⟩

/-- A battery of one water heater in `PEM_OFF`, never commanded. -/
def heaterSite : Site ℚ where
  vb := VirtualBattery.init warm
    [VbDevice.init (.waterHeater (GldWaterHeater.init warm 1 130)) .pemOff 0 (9 / 2)]
  gldState := ⟨fun _ => .full, fun _ => .off, fun _ => 130, fun _ => false, fun _ => none⟩

/-- A control step in which every die comes up. -/
def heaterStep (time : ℤ) (setpoint : ℚ) : StepInput ℚ := ⟨time, warm, fun _ _ _ => true, fun _ => 0, setpoint⟩

end Grip.Packetized
