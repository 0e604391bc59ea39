/-
What `handle_power_requests` admits. A request is accepted exactly when the count stays within half
its size of the setpoint, and the count only grows; so every acceptance brings the count closer to the
setpoint, and what was refused once would be refused at the end. This holds for loads on either side
of the setpoint, for requests of different sizes and in every order.
-/
import GripAbsorption.Packetized.Step

namespace Grip.Packetized

open Grip.Base

universe u

variable {K : Type u} [Field K] [LinearOrder K]

/-! ## The count -/

/-- The count after the admitted requests. -/
def admittedLoad (setpoint load : K) (rs : List (PowerRequest K)) : K :=
  load + ((admitted setpoint load rs).map PowerRequest.kw).sum

@[simp] theorem admittedLoad_nil (setpoint load : K) : admittedLoad setpoint load [] = load := by
  simp [admittedLoad, admitted, admission]

theorem admittedLoad_cons_of_admits {setpoint load : K} {r : PowerRequest K} (rs : List (PowerRequest K))
    (h : VirtualBattery.admits setpoint load r.kw = true) :
    admittedLoad setpoint load (r :: rs) = admittedLoad setpoint (load + r.kw) rs := by
  unfold admittedLoad
  rw [admitted_cons, if_pos h, List.map_cons, List.sum_cons, add_assoc]

theorem admittedLoad_cons_of_refused {setpoint load : K} {r : PowerRequest K} (rs : List (PowerRequest K))
    (h : ¬ VirtualBattery.admits setpoint load r.kw = true) :
    admittedLoad setpoint load (r :: rs) = admittedLoad setpoint load rs := by
  unfold admittedLoad
  rw [admitted_cons, if_neg h]

variable [IsStrictOrderedRing K] {setpoint : K}

theorem le_admittedLoad : ∀ {load : K} {rs : List (PowerRequest K)}, (∀ r ∈ rs, 0 < r.kw) →
    load ≤ admittedLoad setpoint load rs
  | load, [], _ => by simp
  | load, r :: rs, h => by
    have hrest : ∀ q ∈ rs, 0 < q.kw := fun q hq => h q (List.mem_cons_of_mem _ hq)
    by_cases hok : VirtualBattery.admits setpoint load r.kw = true
    · have hpos := h r (List.mem_cons_self ..)
      rw [admittedLoad_cons_of_admits rs hok]
      exact (le_add_of_nonneg_right hpos.le).trans (le_admittedLoad hrest)
    · rw [admittedLoad_cons_of_refused rs hok]
      exact le_admittedLoad hrest

omit [IsStrictOrderedRing K] in
/-- The distance to the setpoint does not grow. -/
theorem distance_admittedLoad : ∀ (load : K) (rs : List (PowerRequest K)),
    |admittedLoad setpoint load rs - setpoint| ≤ |load - setpoint|
  | load, [] => by simp
  | load, r :: rs => by
    by_cases hok : VirtualBattery.admits setpoint load r.kw = true
    · rw [admittedLoad_cons_of_admits rs hok]
      exact (distance_admittedLoad (load + r.kw) rs).trans (of_decide_eq_true hok)
    · rw [admittedLoad_cons_of_refused rs hok]
      exact distance_admittedLoad load rs

/-- The count exceeds the setpoint by half the largest accepted size at most, or not more than at the start. -/
theorem admittedLoad_le {m : K} : ∀ {load : K} {rs : List (PowerRequest K)}, (∀ r ∈ rs, 0 < r.kw) →
    (∀ r ∈ admitted setpoint load rs, r.kw ≤ m) → admittedLoad setpoint load rs ≤ max load (setpoint + m / 2)
  | load, [], _, _ => by simp
  | load, r :: rs, h, hm => by
    have hrest : ∀ q ∈ rs, 0 < q.kw := fun q hq => h q (List.mem_cons_of_mem _ hq)
    rw [admitted_cons] at hm
    by_cases hok : VirtualBattery.admits setpoint load r.kw = true
    · rw [if_pos hok] at hm
      rw [admittedLoad_cons_of_admits rs hok]
      refine (admittedLoad_le hrest fun q hq => hm q (List.mem_cons_of_mem _ hq)).trans (max_le ?_ (le_max_right ..))
      -- the count with `r` is within half of `r`
      have hhalf := (admits_iff (h r (List.mem_cons_self ..))).1 hok
      have hr := hm r (List.mem_cons_self ..)
      exact le_max_of_le_right (by linarith)
    · rw [if_neg hok] at hm
      rw [admittedLoad_cons_of_refused rs hok]
      exact admittedLoad_le hrest hm

/-- What was refused at some count is refused at the last one. -/
theorem refused_at_end : ∀ {load : K} {rs : List (PowerRequest K)}, (∀ r ∈ rs, 0 < r.kw) →
    ∀ r ∈ rs, r ∉ admitted setpoint load rs → VirtualBattery.admits setpoint (admittedLoad setpoint load rs) r.kw = false
  | load, q :: rs, h, r, hr, hnot => by
    have hrest : ∀ q ∈ rs, 0 < q.kw := fun q hq => h q (List.mem_cons_of_mem _ hq)
    rw [admitted_cons] at hnot
    by_cases hok : VirtualBattery.admits setpoint load q.kw = true
    · rw [if_pos hok, List.mem_cons, not_or] at hnot
      rw [admittedLoad_cons_of_admits rs hok]
      exact refused_at_end hrest r ((List.mem_cons.1 hr).resolve_left hnot.1) hnot.2
    · rw [if_neg hok] at hnot
      rw [admittedLoad_cons_of_refused rs hok]
      rcases List.mem_cons.1 hr with rfl | hr
      · -- the count has not decreased since
        have hpos := h r (List.mem_cons_self ..)
        have hle : load ≤ admittedLoad setpoint load rs := le_admittedLoad hrest
        rw [admits_iff hpos] at hok
        rw [← Bool.not_eq_true, admits_iff hpos]
        intro hend
        apply hok
        linarith
      · exact refused_at_end hrest r hr hnot

/-! ## What is returned -/

/-- The requests come from distinct devices of the battery in `PEM_OFF`, and ask for something. -/
structure VirtualBattery.Asked (vb : VirtualBattery K) (rs : List (PowerRequest K)) : Prop where
  positive : ∀ r ∈ rs, 0 < r.kw
  waiting : ∀ r ∈ rs, ∃ d ∈ vb.devices.rows, d.deviceId = r.deviceId ∧ d.pemState = .pemOff
  distinct : (rs.map PowerRequest.deviceId).Nodup

/-- The result of an admission that accepted the requests `ok` of `rs`. -/
structure Admitted (vb : VirtualBattery K) (rs ok : List (PowerRequest K))
    (out : VirtualBattery K × List (TurnOn K) × K) : Prop where
  subset : ok ⊆ rs
  effects : out.2.1.map (·.gld.id) = ok.map PowerRequest.deviceId
  load : out.2.2 = VirtualBattery.measuredLoad vb.devices.rows + (ok.map PowerRequest.kw).sum
  distance : |out.2.2 - vb.setpoint| ≤ |VirtualBattery.measuredLoad vb.devices.rows - vb.setpoint|
  overshoot : ∀ m, (∀ r ∈ ok, r.kw ≤ m) →
    out.2.2 ≤ max (VirtualBattery.measuredLoad vb.devices.rows) (vb.setpoint + m / 2)
  maximal : ∀ r ∈ rs, r ∉ ok → ¬ |out.2.2 + r.kw - vb.setpoint| ≤ |out.2.2 - vb.setpoint|
  keys : out.1.devices.keys = vb.devices.keys
  accepted : ∀ d ∈ out.1.devices.rows, d.deviceId ∈ ok.map PowerRequest.deviceId →
    d.pemState = .pemOn ∧ d.stateEndsAt = vb.timeSec + controlEpochSec
  unchanged : ∀ d, d.deviceId ∉ ok.map PowerRequest.deviceId → (d ∈ out.1.devices.rows ↔ d ∈ vb.devices.rows)

namespace VirtualBattery

variable {vb : VirtualBattery K}

omit [IsStrictOrderedRing K] in
/-- The granted rows of waiting devices run their packets. -/
theorem pemOn_of_granted (gld : Gld K) {rs : List (PowerRequest K)} (h : vb.Asked rs) (ht : 0 ≤ vb.timeSec)
    {ids : List DeviceId} (hids : ids ⊆ rs.map PowerRequest.deviceId) {d : VbDevice K} (hid : d.deviceId ∈ ids)
    (hd : d ∈ vb.devices.rows.map (grant gld vb.timeSec ids)) :
    d.pemState = .pemOn ∧ d.stateEndsAt = vb.timeSec + controlEpochSec := by
  obtain ⟨e, he, rfl⟩ := List.mem_map.1 hd
  rw [deviceId_grant] at hid
  obtain ⟨r, hr, hre⟩ := List.mem_map.1 (hids hid)
  obtain ⟨e', he', hide, hoff⟩ := h.waiting r hr
  obtain rfl := vb.devices.key_inj he he' (hre.symm.trans hide.symm)
  rw [stateEndsAt_grant hid hoff ht, grant_pemOff hid hoff]
  exact ⟨rfl, rfl⟩

omit [IsStrictOrderedRing K] in
/-- The other rows are left as they were. -/
theorem mem_map_grant_of_notMem (gld : Gld K) (time : ℤ) {ids : List DeviceId} {rows : List (VbDevice K)} {d : VbDevice K}
    (hid : d.deviceId ∉ ids) : d ∈ rows.map (grant gld time ids) ↔ d ∈ rows := by
  rw [List.mem_map]
  constructor
  · rintro ⟨e, he, rfl⟩
    rw [deviceId_grant] at hid
    rwa [grant_of_notMem hid]
  · exact fun hd => ⟨d, hd, grant_of_notMem hid⟩

/-- For every starting load and setpoint, requests from waiting devices are admitted towards the setpoint and
maximally, in every order. -/
theorem handlePowerRequests_admits (gld : Gld K) (vb : VirtualBattery K) (rs : List (PowerRequest K)) (h : vb.Asked rs)
    (ht : 0 ≤ vb.timeSec) (draws : ℕ → ℕ) :
    ∃ ok, Admitted vb rs ok (vb.handlePowerRequests gld (shuffle draws rs)) := by
  have hpos : ∀ r ∈ shuffle draws rs, 0 < r.kw := fun r hr => h.positive r (mem_shuffle.1 hr)
  have hkeys : ∀ r ∈ shuffle draws rs, r.deviceId ∈ vb.devices.keys := fun r hr => by
    obtain ⟨d, hd, hid, -⟩ := h.waiting r (mem_shuffle.1 hr)
    exact Table.mem_keys.2 ⟨d, hd, hid⟩
  obtain ⟨hrows, heff, hload⟩ := handlePowerRequests_eq gld vb (shuffle draws rs) hkeys
    (((shuffle_perm draws rs).map _).nodup_iff.2 h.distinct)
  have hsub := (admitted_sublist vb.setpoint (measuredLoad vb.devices.rows) (shuffle draws rs)).subset
  replace hload : (vb.handlePowerRequests gld (shuffle draws rs)).2.2 =
    admittedLoad vb.setpoint (measuredLoad vb.devices.rows) (shuffle draws rs) := hload
  refine ⟨admitted vb.setpoint (measuredLoad vb.devices.rows) (shuffle draws rs), fun r hr => mem_shuffle.1 (hsub hr), ?_,
    hload, ?_, fun m hm => ?_, fun r hr hnot => ?_, ?_, fun d hd hid => ?_, fun d hid => ?_⟩
  · rw [heff]
    exact map_id_grantEffects fun r hr => hkeys r (hsub hr)
  · rw [hload]
    exact distance_admittedLoad _ _
  · rw [hload]
    exact admittedLoad_le hpos hm
  · rw [hload]
    exact of_decide_eq_false (refused_at_end hpos r (mem_shuffle.2 hr) hnot)
  · unfold Table.keys
    rw [hrows, List.map_map]
    exact List.map_congr_left fun d _ => deviceId_grant _ d
  · have hids := List.map_subset PowerRequest.deviceId fun r hr => mem_shuffle.1 (hsub hr)
    exact pemOn_of_granted gld h ht hids hid (hrows ▸ hd)
  · rw [hrows]
    exact mem_map_grant_of_notMem gld _ hid

/-- A battery of two waiting heaters, under the setpoint 100. -/
def twoHeaters : VirtualBattery ℚ :=
  let gld : Gld ℚ := fun _ => ⟨130, 48, 0⟩
  .init gld ([1, 2].map fun n => .init (.waterHeater (.init gld n 130)) .pemOff 0 (9 / 2))

/-- From 96 kW, the request that comes first is admitted, and the other would go further past the setpoint. -/
theorem two_heaters_admitted : ∃ ok, Admitted twoHeaters [⟨.waterheater 1, 9 / 2, 180⟩, ⟨.waterheater 2, 2, 180⟩] ok
    (twoHeaters.handlePowerRequests (fun _ => ⟨130, 48, 0⟩)
      (shuffle (fun _ => 1) [⟨.waterheater 1, 9 / 2, 180⟩, ⟨.waterheater 2, 2, 180⟩])) :=
  handlePowerRequests_admits (fun _ => ⟨130, 48, 0⟩) twoHeaters [⟨.waterheater 1, 9 / 2, 180⟩, ⟨.waterheater 2, 2, 180⟩]
    ⟨by decide +kernel, by decide +kernel, by decide +kernel⟩ (by decide) _

end VirtualBattery

end Grip.Packetized
