/-
Which devices a battery keeps. `apply_pem_changes` writes a device into the new table only with an
effect, and the one outcome of `pem` without an effect is a comfortable device that waits, in
`PEM_OFF`, for a deadline still to come. Such a device is lost. The deadlines `pem_off` gives have
passed by the next control step; the deadline of a packet that the cap curtails has not.
-/
import GripAbsorption.Packetized.Run

namespace Grip.Packetized

open Grip.Base

universe u

variable {K : Type u} [Field K] [LinearOrder K]

/-! ## Waiting -/

/-- The device, read afresh, is comfortable and off and its deadline is still to come. -/
structure VbDevice.Waits (gld : Gld K) (time : ℤ) (d : VbDevice K) : Prop where
  zone : (d.gldDev.updateFromGld gld).zone = .comfort
  off : d.pemState = .pemOff
  early : time < d.stateEndsAt

instance (gld : Gld K) (time : ℤ) (d : VbDevice K) : Decidable (d.Waits gld time) :=
  decidable_of_iff ((d.gldDev.updateFromGld gld).zone = .comfort ∧ d.pemState = .pemOff ∧ time < d.stateEndsAt)
    ⟨fun ⟨hz, ho, ht⟩ => ⟨hz, ho, ht⟩, fun h => ⟨h.zone, h.off, h.early⟩⟩

namespace Site

/-- No device of the site waits when the step comes. -/
def NoneWaits (s : Site K) (i : StepInput K) : Prop :=
  ∀ d ∈ s.vb.devices.rows, ¬ d.Waits i.gld ((given (some i.time)).getD s.vb.timeSec)

instance (s : Site K) (i : StepInput K) : Decidable (s.NoneWaits i) :=
  inferInstanceAs (Decidable (∀ d ∈ s.vb.devices.rows, ¬ d.Waits i.gld ((given (some i.time)).getD s.vb.timeSec)))

variable [FloorRing K]

/-- The step leaves the set of managed devices as it is. -/
def KeepsDevices (s : Site K) (i : StepInput K) : Prop :=
  ∀ id, id ∈ (s.step i).vb.devices.keys ↔ id ∈ s.vb.devices.keys

/-- Every managed device is swept, and nothing else. -/
theorem mem_keys_iff_sweep {s : Site K} {i : StepInput K} {id : DeviceId} :
    id ∈ s.vb.devices.keys ↔ ∃ p ∈ s.sweep i, p.1.deviceId = id := by
  have hready : id ∈ (s.ready i).devices.keys ↔ id ∈ s.vb.devices.keys := VirtualBattery.mem_keys_ready
  rw [← hready, Table.mem_keys]
  constructor
  · rintro ⟨d, hd, rfl⟩
    obtain ⟨v, hv⟩ := exists_mem_sweep i.gld i.dice (s.ready i).timeSec (pyRound (s.ready i).setpoint : K) 0 hd
    exact ⟨(d, v), hv, rfl⟩
  · rintro ⟨p, hp, rfl⟩
    exact ⟨p.1, (mem_sweep hp).1, rfl⟩

variable [IsStrictOrderedRing K]

/-- The sweep drops exactly the waiting devices. -/
theorem next_sweep_eq_none {s : Site K} {i : StepInput K} {p : VbDevice K × Verdict K} (hp : p ∈ s.sweep i) :
    p.2.next = none ↔ ∃ d ∈ s.vb.devices.rows, d.deviceId = p.1.deviceId ∧
      d.Waits i.gld ((given (some i.time)).getD s.vb.timeSec) := by
  obtain ⟨hd, l, hl⟩ := mem_sweep hp
  rw [hl, verdict_next_eq_none (fresh_ready hd)]
  obtain ⟨d, hmem, he⟩ := mem_ready.1 hd
  rw [← he]
  constructor
  · rintro ⟨hz, ho, ht⟩
    exact ⟨d, hmem, (VbDevice.deviceId_update ..).symm, hz, ho, ht⟩
  · rintro ⟨d', hmem', hid, hw⟩
    obtain rfl := s.vb.devices.key_inj hmem' hmem (hid.trans (VbDevice.deviceId_update ..))
    exact ⟨hw.zone, hw.off, hw.early⟩

theorem mem_keys_step {s : Site K} {i : StepInput K} {id : DeviceId} :
    id ∈ (s.step i).vb.devices.keys ↔ ∃ p ∈ s.sweep i, p.1.deviceId = id ∧ p.2.next ≠ none := by
  unfold Table.keys
  rw [rows_step, List.map_map]
  simp only [List.mem_map, List.mem_filterMap, Function.comp_apply, deviceId_grant]
  constructor
  · rintro ⟨n, ⟨p, hp, hn⟩, rfl⟩
    exact ⟨p, hp, (deviceId_next_sweep hp hn).symm, by simp [hn]⟩
  · rintro ⟨p, hp, rfl, hn⟩
    obtain ⟨n, hn⟩ := Option.ne_none_iff_exists'.1 hn
    exact ⟨n, ⟨p, hp, hn⟩, deviceId_next_sweep hp hn⟩

/-- A step keeps the managed devices if and only if none of them waits. -/
theorem keepsDevices_step_iff (s : Site K) (i : StepInput K) : s.KeepsDevices i ↔ s.NoneWaits i := by
  constructor
  · intro h d hd hw
    obtain ⟨p, hp, hid⟩ := (mem_keys_iff_sweep (i := i)).1 (Table.mem_keys.2 ⟨d, hd, rfl⟩)
    obtain ⟨q, hq, hqid, hn⟩ := mem_keys_step.1 ((h d.deviceId).2 (Table.mem_keys.2 ⟨d, hd, rfl⟩))
    exact hn ((next_sweep_eq_none hq).2 ⟨d, hd, hqid.symm, hw⟩)
  · intro h id
    rw [mem_keys_step, mem_keys_iff_sweep (i := i)]
    constructor
    · rintro ⟨p, hp, hid, -⟩; exact ⟨p, hp, hid⟩
    · rintro ⟨p, hp, hid⟩
      refine ⟨p, hp, hid, fun hn => ?_⟩
      obtain ⟨d, hd, -, hw⟩ := (next_sweep_eq_none hp).1 hn
      exact h d hd hw

/-- A run keeps the managed devices at every step if and only if at no step a device waits. -/
theorem keepsDevices_run_iff (s : Site K) (is : List (StepInput K)) :
    AllSteps (total step) KeepsDevices s is ↔ AllSteps (total step) NoneWaits s is :=
  ⟨AllSteps.mono fun s i => (keepsDevices_step_iff s i).1, AllSteps.mono fun s i => (keepsDevices_step_iff s i).2⟩

end Site

/-! ## A device lost to a curtailed packet -/

/-- With room under the setpoint the granted packet runs, and the device stays. -/
theorem running_device_kept :
    AllSteps (total Site.step) Site.KeepsDevices heaterSite [heaterStep 30 100, heaterStep 60 100, heaterStep 90 100] :=
  (Site.keepsDevices_run_iff _ _).2 (by decide +kernel)

/-- A packet granted at 30 until 210 is curtailed at 60, and at 90 the device is gone. -/
theorem curtailed_device_lost :
    (∀ d ∈ heaterSite.vb.devices.rows, d.pemState = .pemOff ∧ d.stateEndsAt ≤ 30) ∧
      ([heaterStep 30 100, heaterStep 60 0, heaterStep 90 100].map (·.time)).IsChain (fun t t' => t + commEpochSec ≤ t') ∧
      ¬ AllSteps (total Site.step) Site.KeepsDevices heaterSite
        [heaterStep 30 100, heaterStep 60 0, heaterStep 90 100] := by
  refine ⟨by decide +kernel, by decide +kernel, fun h => ?_⟩
  have h90 := (allSteps_cons.1 ((allSteps_cons.1 ((allSteps_cons.1 h).2 _ rfl)).2 _ rfl)).1 (.waterheater 1)
  exact absurd (h90.2 (by decide +kernel)) (by decide +kernel)

end Grip.Packetized
