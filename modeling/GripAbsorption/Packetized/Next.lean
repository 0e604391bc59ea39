/-
One call of `VirtualBattery.next` with any arguments. The setpoint, the time and the device updates
are taken over and every device is refreshed (`updated`); what follows is the step on a refreshed
battery (`nextOn_eq_act`). Every row the call leaves comes from one device and its verdict
(`mem_nextOn`), and how often a device is named among the effects is read off its verdict.
-/
import GripAbsorption.Packetized.Run

namespace Grip.Packetized

open Grip.Base

universe u

variable {K : Type u} [Field K] [LinearOrder K]

/-- What one call of `next` is given and meets. -/
structure NextInput (K : Type u) where
  setpoint : Option K
  deviceUpdates : List (VbDevice K)
  time : Option ℤ
  gld : Gld K
  dice : DeviceId → Dice K
  draws : ℕ → ℕ

/-! ## The updated battery -/

namespace VirtualBattery

/-- The battery once its arguments are taken over. -/
def updated (vb : VirtualBattery K) (i : NextInput K) : VirtualBattery K :=
  ({ vb with
      setpoint := (given i.setpoint).getD vb.setpoint
      timeSec := (given i.time).getD vb.timeSec } : VirtualBattery K).applyUpdates i.gld i.deviceUpdates

variable {vb : VirtualBattery K} {i : NextInput K} {d : VbDevice K}

@[simp] theorem timeSec_updated : (vb.updated i).timeSec = (given i.time).getD vb.timeSec := rfl

@[simp] theorem setpoint_updated : (vb.updated i).setpoint = (given i.setpoint).getD vb.setpoint := rfl

theorem fresh_updated (h : d ∈ (vb.updated i).devices.rows) : d.Fresh i.gld := by
  obtain ⟨e, -, rfl⟩ := List.mem_map.1 h
  exact GldDev.updateFromGld_updateFromGld i.gld e.gldDev

/-- A row of the updated battery is an old row or an update, refreshed. -/
theorem mem_updated (h : d ∈ (vb.updated i).devices.rows) :
    ∃ e, e.refresh i.gld = d ∧ e.deviceId ∈ vb.devices.keys ∧ (e ∈ vb.devices.rows ∨ e ∈ i.deviceUpdates) := by
  obtain ⟨e, he, rfl⟩ := List.mem_map.1 h
  have hk : e.deviceId ∈ (i.deviceUpdates.foldl Table.replace vb.devices).keys := Table.mem_keys.2 ⟨e, he, rfl⟩
  rw [Table.keys_foldl_replace] at hk
  exact ⟨e, rfl, hk, Table.mem_foldl_replace _ _ he⟩

/-! ## The call -/

variable [FloorRing K]

/-- `next` on a bundle of arguments. -/
def nextOn (vb : VirtualBattery K) (i : NextInput K) : VirtualBattery K × Effects K × K :=
  vb.next i.gld i.dice i.draws i.setpoint i.deviceUpdates i.time

theorem nextOn_eq_act (vb : VirtualBattery K) (i : NextInput K) :
    vb.nextOn i = (vb.updated i).act i.gld i.dice i.draws := rfl

/-- The devices of the call with their verdicts. -/
def verdicts (vb : VirtualBattery K) (i : NextInput K) : List (VbDevice K × Verdict K) :=
  (vb.updated i).pemSweep i.gld i.dice

/-- The requests of the call that are admitted, in the order of the shuffle. -/
def admittedRequests (vb : VirtualBattery K) (i : NextInput K) : List (PowerRequest K) :=
  (vb.updated i).granted i.gld i.dice i.draws

/-- The ids of the devices that are granted a packet. -/
def grantedIds (vb : VirtualBattery K) (i : NextInput K) : List DeviceId :=
  (vb.admittedRequests i).map PowerRequest.deviceId

/-- The list `handle_power_requests` returns in the call. -/
def acceptedRequests (vb : VirtualBattery K) (i : NextInput K) : List (TurnOn K) :=
  let (vb, effects, _) := (vb.updated i).applyPemChanges i.gld i.dice
  (vb.handlePowerRequests i.gld (shuffle i.draws effects.powerRequests)).2.1

variable (vb i)

theorem ids_verdicts : ((vb.verdicts i).map (·.1.deviceId)).Nodup := nodup_pemSweep i.gld i.dice (vb.updated i)

variable [IsStrictOrderedRing K]

variable {i} {p : VbDevice K × Verdict K}

theorem sound_verdict (hp : p ∈ vb.verdicts i) : p.2.Sound (vb.updated i).timeSec p.1 :=
  verdict_sound_of_mem (fun _ => fresh_updated) hp

/-- Each device asks once at most, and one that asks stays in the table. -/
theorem requests_verdicts : (((vb.verdicts i).filterMap (·.2.request)).map PowerRequest.deviceId).Nodup ∧
    ∀ r ∈ (vb.verdicts i).filterMap (·.2.request),
      r.deviceId ∈ ((vb.verdicts i).filterMap (·.2.next)).map VbDevice.deviceId :=
  requests_sweep i.dice (vb.updated i).timeSec (pyRound (vb.updated i).setpoint : K) 0 (fun _ => fresh_updated)
    (vb.updated i).devices.nodup

omit [IsStrictOrderedRing K] in
theorem applyPemChanges_updated :
    ((vb.updated i).applyPemChanges i.gld i.dice).1.devices.rows = (vb.verdicts i).filterMap (·.2.next) ∧
      ((vb.updated i).applyPemChanges i.gld i.dice).2.1.powerRequests = (vb.verdicts i).filterMap (·.2.request) := by
  obtain ⟨hrows, heff, -⟩ := applyPemChanges_eq i.gld i.dice (vb.updated i)
  exact ⟨hrows, by rw [heff]; rfl⟩

/-- Each granted request is answered by one `turn_on` effect of its device, and counted on top of the
measured loads. -/
theorem handlePowerRequests_updated :
    vb.acceptedRequests i =
        grantEffects ((vb.updated i).applyPemChanges i.gld i.dice).1.devices (vb.admittedRequests i) ∧
      (((vb.updated i).applyPemChanges i.gld i.dice).1.handlePowerRequests i.gld
          (shuffle i.draws ((vb.verdicts i).filterMap (·.2.request)))).2.2 =
        measuredLoad ((vb.verdicts i).filterMap (·.2.next)) + ((vb.admittedRequests i).map PowerRequest.kw).sum := by
  obtain ⟨hrows, hreq⟩ := vb.applyPemChanges_updated (i := i)
  obtain ⟨hnd, hkeys⟩ := vb.requests_verdicts (i := i)
  obtain ⟨-, heff, hload⟩ := handlePowerRequests_eq i.gld ((vb.updated i).applyPemChanges i.gld i.dice).1
    (shuffle i.draws ((vb.verdicts i).filterMap (·.2.request)))
    (fun r hr => by unfold Table.keys; rw [hrows]; exact hkeys r (mem_shuffle.1 hr))
    (((shuffle_perm i.draws _).map _).nodup_iff.2 hnd)
  rw [hrows] at heff hload
  have hacc : vb.acceptedRequests i = (((vb.updated i).applyPemChanges i.gld i.dice).1.handlePowerRequests i.gld
      (shuffle i.draws ((vb.updated i).applyPemChanges i.gld i.dice).2.1.powerRequests)).2.1 := rfl
  rw [hacc, hreq]
  exact ⟨heff, hload⟩

theorem acceptedRequests_eq : vb.acceptedRequests i =
    grantEffects ((vb.updated i).applyPemChanges i.gld i.dice).1.devices (vb.admittedRequests i) :=
  vb.handlePowerRequests_updated.1

/-- The load the call returns once a request is granted. -/
theorem totalload_nextOn (h : vb.admittedRequests i ≠ []) : (vb.nextOn i).2.2 =
    measuredLoad ((vb.verdicts i).filterMap (·.2.next)) + ((vb.admittedRequests i).map PowerRequest.kw).sum := by
  obtain ⟨-, hreq⟩ := vb.applyPemChanges_updated (i := i)
  have hne : (vb.verdicts i).filterMap (·.2.request) ≠ [] := fun hnil => h <| by
    have : vb.admittedRequests i = admitted (vb.updated i).setpoint (measuredLoad ((vb.verdicts i).filterMap (·.2.next)))
      (shuffle i.draws ((vb.verdicts i).filterMap (·.2.request))) := rfl
    rw [this, hnil]; rfl
  rw [← vb.handlePowerRequests_updated.2, nextOn_eq_act, act]
  rw [← hreq] at hne ⊢
  generalize (vb.updated i).applyPemChanges i.gld i.dice = r at hne ⊢
  obtain ⟨vb', effects, load⟩ := r
  simp only [if_pos hne]

theorem nextOn_spec :
    (vb.nextOn i).1.devices.rows = ((vb.verdicts i).filterMap (·.2.next)).map
        (grant i.gld (vb.updated i).timeSec (vb.grantedIds i)) ∧
      (vb.nextOn i).1.timeSec = (vb.updated i).timeSec ∧
      (vb.nextOn i).2.1.turnOn = (vb.verdicts i).filterMap (·.2.turnOn) ++ vb.acceptedRequests i ∧
      (vb.nextOn i).2.1.turnOff = (vb.verdicts i).filterMap (·.2.turnOff) := by
  obtain ⟨hrows, htime, -, hon, hoff⟩ := act_spec i.dice i.draws (vb.updated i) fun _ => fresh_updated
  rw [nextOn_eq_act, acceptedRequests_eq]
  exact ⟨hrows, htime, hon, hoff⟩

omit [IsStrictOrderedRing K] in
theorem powerRequests_nextOn :
    (vb.nextOn i).2.1.powerRequests = shuffle i.draws ((vb.verdicts i).filterMap (·.2.request)) := by
  obtain ⟨-, hreq⟩ := vb.applyPemChanges_updated (i := i)
  rw [nextOn_eq_act, act, ← hreq]
  rcases (vb.updated i).applyPemChanges i.gld i.dice with ⟨vb', effects, load⟩
  by_cases hr : effects.powerRequests = []
  · simp [hr, shuffle]
  · simp [hr]

/-! ## Rows and effects of one device -/

/-- A row the call leaves comes from one device: its verdict's row, granted if its request was. -/
theorem mem_nextOn {d : VbDevice K} : d ∈ (vb.nextOn i).1.devices.rows ↔
    ∃ p ∈ vb.verdicts i, ∃ n, p.2.next = some n ∧ grant i.gld (vb.updated i).timeSec (vb.grantedIds i) n = d := by
  rw [(vb.nextOn_spec (i := i)).1]
  simp only [List.mem_map, List.mem_filterMap]
  constructor
  · rintro ⟨n, ⟨p, hp, hn⟩, hd⟩; exact ⟨p, hp, n, hn, hd⟩
  · rintro ⟨p, hp, n, hn, hd⟩; exact ⟨n, ⟨p, hp, hn⟩, hd⟩

/-- The granted requests name distinct devices that asked. -/
theorem grantedIds_asked : vb.grantedIds i ⊆ ((vb.verdicts i).filterMap (·.2.request)).map PowerRequest.deviceId ∧
    (vb.grantedIds i).Nodup := by
  obtain ⟨hnd, -⟩ := vb.requests_verdicts (i := i)
  have hsub := (admitted_sublist (vb.updated i).setpoint (measuredLoad ((vb.verdicts i).filterMap (·.2.next)))
    (shuffle i.draws ((vb.verdicts i).filterMap (·.2.request)))).map PowerRequest.deviceId
  have hperm := (shuffle_perm i.draws ((vb.verdicts i).filterMap (·.2.request))).map PowerRequest.deviceId
  exact ⟨fun x hx => hperm.subset (hsub.subset hx), (hperm.nodup_iff.2 hnd).sublist hsub⟩

theorem request_of_mem_grantedIds (hp : p ∈ vb.verdicts i) (h : p.1.deviceId ∈ vb.grantedIds i) :
    ∃ r, p.2.request = some r :=
  (mem_map_filterMap_iff (vb.ids_verdicts i) (fun _ hq _ => (vb.sound_verdict hq).id_request) hp).1
    (vb.grantedIds_asked.1 h)

theorem map_id_acceptedRequests : (vb.acceptedRequests i).map (·.gld.id) = vb.grantedIds i := by
  rw [acceptedRequests_eq]
  have hkeys : ∀ r ∈ vb.admittedRequests i,
      r.deviceId ∈ ((vb.updated i).applyPemChanges i.gld i.dice).1.devices.keys := by
    intro r hr
    have hid : r.deviceId ∈ vb.grantedIds i := List.mem_map_of_mem hr
    obtain ⟨q, hq, hqid⟩ := List.mem_map.1 (vb.grantedIds_asked.1 hid)
    unfold Table.keys
    rw [vb.applyPemChanges_updated.1, ← hqid]
    exact vb.requests_verdicts.2 q hq
  exact map_id_grantEffects hkeys

theorem count_turnOn (hp : p ∈ vb.verdicts i) : ((vb.nextOn i).2.1.turnOn.map (·.gld.id)).count p.1.deviceId =
    (if p.2.turnOn.isSome then 1 else 0) + if p.1.deviceId ∈ vb.grantedIds i then 1 else 0 := by
  rw [vb.nextOn_spec.2.2.1, List.map_append, List.count_append, map_id_acceptedRequests]
  rw [count_map_filterMap (vb.ids_verdicts i) (fun _ hq _ => (vb.sound_verdict hq).id_turnOn) hp]
  rw [vb.grantedIds_asked.2.count]

theorem count_turnOff (hp : p ∈ vb.verdicts i) :
    ((vb.nextOn i).2.1.turnOff.map (·.gld.id)).count p.1.deviceId = if p.2.turnOff.isSome then 1 else 0 := by
  rw [vb.nextOn_spec.2.2.2]
  exact count_map_filterMap (vb.ids_verdicts i) (fun _ hq _ => (vb.sound_verdict hq).id_turnOff) hp

theorem count_powerRequests (hp : p ∈ vb.verdicts i) :
    ((vb.nextOn i).2.1.powerRequests.map PowerRequest.deviceId).count p.1.deviceId =
      if p.2.request.isSome then 1 else 0 := by
  rw [powerRequests_nextOn, ((shuffle_perm i.draws _).map PowerRequest.deviceId).count_eq]
  exact count_map_filterMap (vb.ids_verdicts i) (fun _ hq _ => (vb.sound_verdict hq).id_request) hp

end VirtualBattery

/-- A call at a time under a setpoint, without updates, in which every die comes up. -/
def heaterCall (time : ℤ) (setpoint : ℚ) : NextInput ℚ :=
  ⟨some setpoint, [], some time, warm, fun _ _ _ => true, fun _ => 0⟩

end Grip.Packetized
