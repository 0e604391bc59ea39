/-
What becomes of each device in a call of `next`. A device that stays in the battery is turned on, or
turned off, or has asked for power in vain, exactly one of the three, and its new PEM state is the
one that goes with it. The effects name no other device.
-/
import GripAbsorption.Packetized.Next

namespace Grip.Packetized

open Grip.Base

universe u

variable {K : Type u} [Field K] [LinearOrder K]

/-! ## The ids in a step's effects -/

namespace Effects

/-- The devices turned on. -/
def ons (es : Effects K) : List DeviceId := es.turnOn.map (·.gld.id)

/-- The devices turned off. -/
def offs (es : Effects K) : List DeviceId := es.turnOff.map (·.gld.id)

/-- The devices that asked for power. -/
def askers (es : Effects K) : List DeviceId := es.powerRequests.map PowerRequest.deviceId

end Effects

/-- The three ways a device that stays in the battery can come out of a call with the effects `es`,
whose requests of the devices `accepted` were accepted. -/
inductive Outcome (es : Effects K) (accepted : List DeviceId) (d : VbDevice K) : Prop
  | on (on : es.ons.count d.deviceId = 1) (off : es.offs.count d.deviceId = 0)
      (asked : d.deviceId ∈ es.askers → d.deviceId ∈ accepted) (state : d.pemState = .pemOn ∨ d.pemState = .exitOn)
  | off (on : es.ons.count d.deviceId = 0) (off : es.offs.count d.deviceId = 1)
      (asked : d.deviceId ∉ es.askers) (state : d.pemState = .pemOff ∨ d.pemState = .exitOff)
  | refused (on : es.ons.count d.deviceId = 0) (off : es.offs.count d.deviceId = 0)
      (asked : es.askers.count d.deviceId = 1) (refused : d.deviceId ∉ accepted) (state : d.pemState = .pemOff)

namespace VirtualBattery

variable [FloorRing K]

/-- After the call each device has one outcome, no device is turned on and off, and every effect
names a device of the battery. -/
structure EachOnce (vb : VirtualBattery K) (i : NextInput K) : Prop where
  outcome : ∀ d ∈ (vb.nextOn i).1.devices.rows,
    Outcome (vb.nextOn i).2.1 ((vb.acceptedRequests i).map (·.gld.id)) d
  exclusive : ∀ id, ¬ (id ∈ (vb.nextOn i).2.1.ons ∧ id ∈ (vb.nextOn i).2.1.offs)
  named : ∀ id, id ∈ (vb.nextOn i).2.1.ons ∨ id ∈ (vb.nextOn i).2.1.offs ∨ id ∈ (vb.nextOn i).2.1.askers →
    id ∈ (vb.nextOn i).1.devices.keys

variable [IsStrictOrderedRing K] (vb : VirtualBattery K) {i : NextInput K} {p : VbDevice K × Verdict K}

/-! ## One device -/

/-- The outcome of a device is read off its verdict. -/
theorem outcome_of_verdict (hp : p ∈ vb.verdicts i) {n : VbDevice K} (hn : p.2.next = some n) :
    Outcome (vb.nextOn i).2.1 ((vb.acceptedRequests i).map (·.gld.id))
      (grant i.gld (vb.updated i).timeSec (vb.grantedIds i) n) := by
  have hnid : n.deviceId = p.1.deviceId := deviceId_next_sweep hp hn
  have hon := vb.count_turnOn hp
  have hoff := vb.count_turnOff hp
  have hask := vb.count_powerRequests hp
  have hsound := vb.sound_verdict hp
  have hasked := vb.request_of_mem_grantedIds hp
  rw [map_id_acceptedRequests]
  have hdid : (grant i.gld (vb.updated i).timeSec (vb.grantedIds i) n).deviceId = p.1.deviceId := by
    rw [deviceId_grant, hnid]
  by_cases hg : p.1.deviceId ∈ vb.grantedIds i
  · -- it asked, and is put in `PEM_ON`
    obtain ⟨r, hr⟩ := hasked hg
    obtain ⟨hnoff, hnoOn, hnoOff⟩ := hsound.of_request hr hn
    have hstate : (grant i.gld (vb.updated i).timeSec (vb.grantedIds i) n).pemState = .pemOn := by
      rw [grant_pemOff (by rw [hnid]; exact hg) hnoff]
      rfl
    refine .on ?_ ?_ (fun _ => hdid ▸ hg) (.inl hstate)
    · rw [Effects.ons, hdid, hon, if_pos hg, hnoOn]; rfl
    · rw [Effects.offs, hdid, hoff, hnoOff]; rfl
  · -- its row and effects are the verdict's: kept, curtailed, off or a refused request
    have hgrant : grant i.gld (vb.updated i).timeSec (vb.grantedIds i) n = n := grant_of_notMem (by rw [hnid]; exact hg)
    rw [if_neg hg] at hon
    rw [hgrant] at hdid ⊢
    have hnot : p.2.request = none → p.1.deviceId ∉ (vb.nextOn i).2.1.askers := by
      intro hr
      rw [hr] at hask
      exact List.count_eq_zero.1 hask
    rcases hv : p.2 with ⟨m, e⟩ | ⟨m, e⟩ | ⟨m, e⟩ | ⟨m, r⟩ | _ <;> rw [hv] at hn hsound hon hoff hask hnot <;> cases hn
    · refine .on ?_ ?_ (fun h => absurd (hdid ▸ h) (hnot rfl)) ?_
      · rw [Effects.ons, hdid, hon]; rfl
      · rw [Effects.offs, hdid, hoff]; rfl
      · exact PemState.isOn_eq_true.1 hsound.2.2
    · refine .off ?_ ?_ (hdid ▸ hnot rfl) (.inl hsound.2.2)
      · rw [Effects.ons, hdid, hon]; rfl
      · rw [Effects.offs, hdid, hoff]; rfl
    · refine .off ?_ ?_ (hdid ▸ hnot rfl) ?_
      · rw [Effects.ons, hdid, hon]; rfl
      · rw [Effects.offs, hdid, hoff]; rfl
      · exact PemState.isOn_eq_false.1 hsound.2.2
    · refine .refused ?_ ?_ ?_ (hdid ▸ hg) hsound.2.2
      · rw [Effects.ons, hdid, hon]; rfl
      · rw [Effects.offs, hdid, hoff]; rfl
      · rw [Effects.askers, hdid, hask]; rfl

/-! ## All devices -/

/-- An effect names a device whose verdict writes a row. -/
theorem named_nextOn {id : DeviceId}
    (h : id ∈ (vb.nextOn i).2.1.ons ∨ id ∈ (vb.nextOn i).2.1.offs ∨ id ∈ (vb.nextOn i).2.1.askers) :
    id ∈ (vb.nextOn i).1.devices.keys := by
  have written : ∀ p ∈ vb.verdicts i, p.2.turnOn ≠ none ∨ p.2.turnOff ≠ none ∨ p.2.request ≠ none →
      p.1.deviceId ∈ (vb.nextOn i).1.devices.keys := by
    intro p hp he
    obtain ⟨n, hn⟩ := Verdict.exists_next he
    refine Table.mem_keys.2 ⟨_, vb.mem_nextOn.2 ⟨p, hp, n, hn, rfl⟩, ?_⟩
    rw [deviceId_grant, deviceId_next_sweep hp hn]
  have asker : ∀ q ∈ (vb.verdicts i).filterMap (·.2.request), q.deviceId ∈ (vb.nextOn i).1.devices.keys := by
    intro q hq
    obtain ⟨p, hp, hpq⟩ := List.mem_filterMap.1 hq
    rw [(vb.sound_verdict hp).id_request hpq]
    exact written p hp (.inr (.inr (by simp [hpq])))
  rcases h with h | h | h
  · rw [Effects.ons, vb.nextOn_spec.2.2.1, List.map_append, List.mem_append, map_id_acceptedRequests] at h
    rcases h with h | h
    · obtain ⟨e, he, rfl⟩ := List.mem_map.1 h
      obtain ⟨p, hp, hpe⟩ := List.mem_filterMap.1 he
      rw [(vb.sound_verdict hp).id_turnOn hpe]
      exact written p hp (.inl (by simp [hpe]))
    · obtain ⟨q, hq, rfl⟩ := List.mem_map.1 (vb.grantedIds_asked.1 h)
      exact asker q hq
  · obtain ⟨e, he, rfl⟩ := List.mem_map.1 h
    rw [vb.nextOn_spec.2.2.2] at he
    obtain ⟨p, hp, hpe⟩ := List.mem_filterMap.1 he
    rw [(vb.sound_verdict hp).id_turnOff hpe]
    exact written p hp (.inr (.inl (by simp [hpe])))
  · obtain ⟨q, hq, rfl⟩ := List.mem_map.1 h
    rw [powerRequests_nextOn, mem_shuffle] at hq
    exact asker q hq

/-- Every device a call keeps has exactly one outcome, whatever the battery, the arguments, the
readings, the die rolls and the order of the requests. -/
theorem nextOn_eachOnce (i : NextInput K) : vb.EachOnce i := by
  have outcome : ∀ d ∈ (vb.nextOn i).1.devices.rows,
      Outcome (vb.nextOn i).2.1 ((vb.acceptedRequests i).map (·.gld.id)) d := by
    intro d hd
    obtain ⟨p, hp, n, hn, rfl⟩ := vb.mem_nextOn.1 hd
    exact vb.outcome_of_verdict hp hn
  refine ⟨outcome, ?_, fun id => vb.named_nextOn⟩
  rintro id ⟨hon, hoff⟩
  -- a device with both effects would have no outcome
  obtain ⟨d, hd, rfl⟩ := Table.mem_keys.1 (vb.named_nextOn (.inl hon))
  have hpos := List.count_pos_iff.2 hon
  have hpos' := List.count_pos_iff.2 hoff
  cases outcome d hd with
  | on _ h => omega
  | off h => omega
  | refused h => omega

/-- A call that refuses a request. -/
theorem heater_eachOnce : heaterSite.vb.EachOnce (heaterCall 30 (1 / 4)) :=
  nextOn_eachOnce heaterSite.vb (heaterCall 30 (1 / 4))

end VirtualBattery

end Grip.Packetized
