/-
How long a granted packet lasts. Over runs of calls of `next` and of `add_device`, at times that do
not go back, a device in `PEM_ON` was granted its packet by one call of the run, has been in
`PEM_ON` since, and its deadline is one control epoch after that call's time. A deadline that has
come ends the packet, so the call lies within the last control epoch.
-/
import GripAbsorption.Packetized.Next

namespace Grip.Packetized

open Grip.Base

universe u

variable {K : Type u} [Field K] [LinearOrder K]

/-! ## One call -/

section

variable [IsStrictOrderedRing K] {gld : Gld K} {dice : Dice K} {time : ℤ} {cap load : K} {d n : VbDevice K}

/-- Only a device whose packet runs is left in `PEM_ON` by its verdict, and it is left as it is. -/
theorem pemOn_verdict (hf : d.Fresh gld) (hn : (verdict gld cap load d (d.pem gld dice time)).next = some n)
    (hs : n.pemState = .pemOn) : n = d ∧ time < d.stateEndsAt := by
  have ho := VbDevice.pem_outcome dice time hf
  generalize d.pem gld dice time = r at ho hn
  cases ho with
  | comfortOn _ _ h =>
    by_cases hl : load < cap
    · simp only [verdict, hl, if_true] at hn
      cases hn
      rw [h] at hs; cases hs
    · simp only [verdict, hl, if_false] at hn
      cases hn; cases hs
  | keepOn _ _ h =>
    by_cases hl : load < cap
    · simp only [verdict, hl, if_true] at hn
      cases hn
      exact ⟨rfl, h⟩
    · simp only [verdict, hl, if_false] at hn
      cases hn; cases hs
  | comfortOff _ _ h => cases hn; rw [h] at hs; cases hs
  | waits _ _ _ => cases hn
  | asks _ _ _ h _ => cases hn; rw [h] at hs; cases hs
  | idles _ _ _ h _ => cases hn; rw [h] at hs; cases hs

end

namespace VirtualBattery

variable [FloorRing K] [IsStrictOrderedRing K] {vb : VirtualBattery K} {i : NextInput K} {d : VbDevice K}

/-- A device the call leaves in `PEM_ON` was so before with the same deadline, still to come, or
was granted a packet by the call. -/
theorem pemOn_nextOn (hd : d ∈ (vb.nextOn i).1.devices.rows) (hs : d.pemState = .pemOn) :
    (d ∈ (vb.updated i).devices.rows ∧ (vb.updated i).timeSec < d.stateEndsAt) ∨
      (d.deviceId ∈ vb.grantedIds i ∧
        (0 ≤ (vb.updated i).timeSec → d.stateEndsAt = (vb.updated i).timeSec + controlEpochSec)) := by
  obtain ⟨p, hp, n, hn, rfl⟩ := vb.mem_nextOn.1 hd
  obtain ⟨hmem, l, hl⟩ := mem_sweep hp
  by_cases hg : n.deviceId ∈ vb.grantedIds i
  · -- the row is a granted one
    right
    refine ⟨by rw [deviceId_grant]; exact hg, fun ht => ?_⟩
    obtain ⟨r, hr⟩ := vb.request_of_mem_grantedIds hp (deviceId_next_sweep hp hn ▸ hg)
    obtain ⟨hstate, -, -⟩ := (vb.sound_verdict hp).of_request hr hn
    exact stateEndsAt_grant hg hstate ht
  · -- only a device whose packet runs is left in `PEM_ON`
    left
    rw [grant_of_notMem hg] at hs ⊢
    rw [hl] at hn
    obtain ⟨rfl, he⟩ := pemOn_verdict (fresh_updated hmem) hn hs
    exact ⟨hmem, he⟩

end VirtualBattery

/-! ## Runs -/

/-- The operations on a battery. -/
inductive Operation (K : Type u)
  | next (i : NextInput K)
  | addDevice (d : VbDevice K)

/-- The updates carry the PEM states and the deadlines of the devices they are for, as updates made by
`device.update()` do. -/
def NextInput.Reports (i : NextInput K) (vb : VirtualBattery K) : Prop :=
  ∀ u ∈ i.deviceUpdates, ∀ d ∈ vb.devices.rows, u.deviceId = d.deviceId →
    u.pemState = d.pemState ∧ u.stateEndsAt = d.stateEndsAt

namespace VirtualBattery

/-- Time does not go back, updates report readings, and added devices are in `PEM_OFF`. -/
def Admissible (vb : VirtualBattery K) : Operation K → Prop
  | .next i => (∀ t, i.time = some t → vb.timeSec ≤ t) ∧ i.Reports vb
  | .addDevice d => d.pemState = .pemOff

instance (vb : VirtualBattery K) : (op : Operation K) → Decidable (vb.Admissible op)
  | .next i => inferInstanceAs (Decidable ((∀ t, i.time = some t → vb.timeSec ≤ t) ∧
      ∀ u ∈ i.deviceUpdates, ∀ d ∈ vb.devices.rows, u.deviceId = d.deviceId →
        u.pemState = d.pemState ∧ u.stateEndsAt = d.stateEndsAt))
  | .addDevice d => inferInstanceAs (Decidable (d.pemState = .pemOff))

variable [FloorRing K]

def operate (vb : VirtualBattery K) : Operation K → VirtualBattery K
  | .next i => (vb.nextOn i).1
  | .addDevice d => vb.addDevice d

/-- The battery after a run. -/
def run (vb : VirtualBattery K) (ops : List (Operation K)) : VirtualBattery K := ops.foldl operate vb

theorem run_append (vb : VirtualBattery K) (ops ops' : List (Operation K)) :
    vb.run (ops ++ ops') = (vb.run ops).run ops' := List.foldl_append

/-- A request of the device was accepted in a call of the run at time `a`, its deadline is one control
epoch later, and it has been in `PEM_ON` ever since. -/
def GrantedAt (vb : VirtualBattery K) (ops : List (Operation K)) (d : VbDevice K) (a : ℤ) : Prop :=
  ∃ pre i post, ops = pre ++ .next i :: post ∧ d.deviceId ∈ ((vb.run pre).acceptedRequests i).map (·.gld.id) ∧
    (vb.run (pre ++ [.next i])).timeSec = a ∧ d.stateEndsAt = a + controlEpochSec ∧
    ∀ mid, mid <+: post →
      ∃ e ∈ (vb.run (pre ++ .next i :: mid)).devices.rows, e.deviceId = d.deviceId ∧ e.pemState = .pemOn

/-- Every running packet was granted in the run, no later than now. -/
structure Scheduled (vb : VirtualBattery K) (ops : List (Operation K)) : Prop where
  time : 0 ≤ (vb.run ops).timeSec
  granted : ∀ d ∈ (vb.run ops).devices.rows, d.pemState = .pemOn →
    ∃ a ≤ (vb.run ops).timeSec, vb.GrantedAt ops d a

variable {vb : VirtualBattery K} {ops : List (Operation K)} {i : NextInput K} {d e : VbDevice K} {a : ℤ}

/-- A packet that keeps running was granted when it was granted. -/
theorem GrantedAt.snoc {op : Operation K} (h : vb.GrantedAt ops e a) (hid : e.deviceId = d.deviceId)
    (hends : e.stateEndsAt = d.stateEndsAt) (hd : d ∈ (vb.run (ops ++ [op])).devices.rows) (hs : d.pemState = .pemOn) :
    vb.GrantedAt (ops ++ [op]) d a := by
  obtain ⟨pre, i, post, hops, hacc, ha, he, hsince⟩ := h
  refine ⟨pre, i, post ++ [op], by rw [hops]; simp, hid ▸ hacc, ha, hends ▸ he, fun mid hmid => ?_⟩
  rcases List.prefix_concat_iff.1 hmid with rfl | hmid
  · have hall : pre ++ .next i :: (post ++ [op]) = ops ++ [op] := by rw [hops]; simp
    rw [hall]
    exact ⟨d, hd, rfl, hs⟩
  · obtain ⟨e', he', hid', hs'⟩ := hsince mid hmid
    exact ⟨e', he', hid'.trans hid, hs'⟩

omit [FloorRing K] in
theorem le_timeSec_updated (h : ∀ t, i.time = some t → vb.timeSec ≤ t) : vb.timeSec ≤ (vb.updated i).timeSec := by
  rw [timeSec_updated]
  cases ht : i.time with
  | none => simp [given]
  | some t =>
    rw [given_some]
    split
    · exact le_refl _
    · exact h t ht

omit [FloorRing K] in
/-- A device of the updated battery has the PEM state and the deadline of the device it comes from. -/
theorem mem_updated_reports (hr : i.Reports vb) (h : d ∈ (vb.updated i).devices.rows) :
    ∃ e ∈ vb.devices.rows, e.deviceId = d.deviceId ∧ e.pemState = d.pemState ∧ e.stateEndsAt = d.stateEndsAt := by
  obtain ⟨u, rfl, hk, hu⟩ := mem_updated h
  rw [VbDevice.deviceId_refresh]
  rcases hu with hu | hu
  · exact ⟨u, hu, rfl, rfl, rfl⟩
  · obtain ⟨e, he, hid⟩ := Table.mem_keys.1 hk
    obtain ⟨hs, hends⟩ := hr u hu e he hid.symm
    exact ⟨e, he, hid, hs.symm, hends.symm⟩

/-! ## The schedule of a run -/

variable [IsStrictOrderedRing K]

/-- One call. -/
theorem Scheduled.next (h : vb.Scheduled ops) (hop : (vb.run ops).Admissible (.next i)) :
    vb.Scheduled (ops ++ [Operation.next i]) ∧ ∀ d ∈ (vb.run (ops ++ [Operation.next i])).devices.rows,
      d.pemState = .pemOn → (vb.run (ops ++ [Operation.next i])).timeSec < d.stateEndsAt := by
  obtain ⟨htime, hrep⟩ := hop
  have hrun : vb.run (ops ++ [Operation.next i]) = ((vb.run ops).nextOn i).1 := run_append vb ops [Operation.next i]
  have hnow : (vb.run (ops ++ [Operation.next i])).timeSec = ((vb.run ops).updated i).timeSec := by
    rw [hrun]; exact (vb.run ops).nextOn_spec.2.1
  have hle := le_timeSec_updated htime
  have hpos : 0 ≤ ((vb.run ops).updated i).timeSec := h.time.trans hle
  have step : ∀ d ∈ (vb.run (ops ++ [Operation.next i])).devices.rows, d.pemState = .pemOn →
      (∃ a ≤ (vb.run (ops ++ [Operation.next i])).timeSec, vb.GrantedAt (ops ++ [Operation.next i]) d a) ∧
        (vb.run (ops ++ [Operation.next i])).timeSec < d.stateEndsAt := by
    intro d hd hs
    have hd' := hd
    rw [hrun] at hd'
    rw [hnow]
    rcases pemOn_nextOn hd' hs with ⟨hup, hlt⟩ | ⟨hg, hends⟩
    · -- the packet was running
      obtain ⟨e, he, hid, hse, hee⟩ := mem_updated_reports hrep hup
      obtain ⟨a, ha, hgr⟩ := h.granted e he (hse.trans hs)
      exact ⟨⟨a, ha.trans hle, hgr.snoc hid hee hd hs⟩, hlt⟩
    · -- the call grants it
      have hends := hends hpos
      refine ⟨⟨((vb.run ops).updated i).timeSec, le_refl _, ops, i, [], rfl, ?_, hnow, hends, ?_⟩, ?_⟩
      · rw [map_id_acceptedRequests]; exact hg
      · intro mid hmid
        rw [List.prefix_nil.1 hmid]
        exact ⟨d, hd, rfl, hs⟩
      · rw [hends]; unfold controlEpochSec; omega
  exact ⟨⟨by rw [hnow]; exact hpos, fun d hd hs => (step d hd hs).1⟩, fun d hd hs => (step d hd hs).2⟩

omit [IsStrictOrderedRing K] in
theorem Scheduled.addDevice (h : vb.Scheduled ops) (hop : (vb.run ops).Admissible (.addDevice d)) :
    vb.Scheduled (ops ++ [Operation.addDevice d]) := by
  have hrun : vb.run (ops ++ [Operation.addDevice d]) = (vb.run ops).addDevice d :=
    run_append vb ops [Operation.addDevice d]
  have hnow : (vb.run (ops ++ [Operation.addDevice d])).timeSec = (vb.run ops).timeSec := by rw [hrun]; rfl
  refine ⟨by rw [hnow]; exact h.time, fun e he hs => ?_⟩
  have he' := he
  rw [hrun] at he'
  rcases Table.mem_set.1 he' with rfl | ⟨hold, -⟩
  · -- the device added is in `PEM_OFF`
    rw [hop] at hs; cases hs
  · obtain ⟨a, ha, hgr⟩ := h.granted e hold hs
    exact ⟨a, hnow.symm ▸ ha, hgr.snoc rfl rfl he hs⟩

/-- Every run of admissible operations keeps the schedule. -/
theorem Scheduled.run (hvb : vb.Scheduled []) :
    ∀ ops : List (Operation K), AllSteps (total operate) Admissible vb ops → vb.Scheduled ops := by
  intro ops
  induction ops using List.reverseRecOn with
  | nil => exact fun _ => hvb
  | append_singleton ops op ih =>
    intro h
    obtain ⟨hops, hop⟩ := allSteps_total_append.1 h
    have hop := (allSteps_cons.1 hop).1
    cases op with
    | next i => exact ((ih hops).next hop).1
    | addDevice d => exact (ih hops).addDevice hop

omit [IsStrictOrderedRing K] in
theorem scheduled_nil (ht : vb.timeSec = 0) (h : ∀ d ∈ vb.devices.rows, d.pemState ≠ .pemOn) : vb.Scheduled [] :=
  ⟨ht.ge, fun d hd hs => absurd hs (h d hd)⟩

/-- A granted packet never outlives its control epoch: after every call, a device in `PEM_ON` has a
deadline to come, no more than one control epoch away, and a request of it was accepted within the
last control epoch and has kept it in `PEM_ON` since. -/
theorem packet_within_epoch (vb : VirtualBattery K) (ht : vb.timeSec = 0) (h : ∀ d ∈ vb.devices.rows, d.pemState ≠ .pemOn)
    (ops : List (Operation K)) (i : NextInput K) (hops : AllSteps (total operate) Admissible vb (ops ++ [.next i])) :
    let now := (vb.run (ops ++ [.next i])).timeSec
    ∀ d ∈ (vb.run (ops ++ [.next i])).devices.rows, d.pemState = .pemOn →
      now < d.stateEndsAt ∧ d.stateEndsAt ≤ now + controlEpochSec ∧
        ∃ a, now - controlEpochSec < a ∧ a ≤ now ∧ vb.GrantedAt (ops ++ [.next i]) d a := by
  intro now d hd hs
  obtain ⟨hpre, hop⟩ := allSteps_total_append.1 hops
  obtain ⟨hsched, hlt⟩ := ((scheduled_nil ht h).run ops hpre).next (allSteps_cons.1 hop).1
  have hlt : now < d.stateEndsAt := hlt d hd hs
  obtain ⟨a, ha, hgr⟩ := hsched.granted d hd hs
  have hends : d.stateEndsAt = a + controlEpochSec := by
    obtain ⟨_, _, _, _, _, _, he, _⟩ := hgr
    exact he
  have ha : a ≤ now := ha
  exact ⟨hlt, by omega, a, by omega, ha, hgr⟩

/-- A heater at its set point, in `PEM_OFF`. -/
def spareHeater : VbDevice ℚ := VbDevice.init (.waterHeater (GldWaterHeater.init warm 2 130)) .pemOff 0 (9 / 2)

/-- Two calls with a device added in between. -/
def heaterOps : List (Operation ℚ) := [.next (heaterCall 30 100), .addDevice spareHeater, .next (heaterCall 60 100)]

/-- A heater granted a packet at 30 runs at 60, and one added meanwhile waits. -/
theorem heater_packet_runs : ∃ d ∈ (heaterSite.vb.run heaterOps).devices.rows, d.pemState = .pemOn ∧
    ∃ a, 60 - controlEpochSec < a ∧ a ≤ 60 ∧ heaterSite.vb.GrantedAt heaterOps d a := by
  have hon : ∃ d ∈ (heaterSite.vb.run heaterOps).devices.rows, d.pemState = .pemOn := by decide +kernel
  obtain ⟨d, hd, hs⟩ := hon
  have hnow : (heaterSite.vb.run heaterOps).timeSec = 60 := by decide +kernel
  obtain ⟨-, -, a, hlo, hhi, hgr⟩ := packet_within_epoch heaterSite.vb rfl (by decide +kernel)
    [.next (heaterCall 30 100), .addDevice spareHeater] (heaterCall 60 100) (by decide +kernel) d hd hs
  exact ⟨d, hd, hs, a, hnow ▸ hlo, hnow ▸ hhi, hgr⟩

end VirtualBattery

end Grip.Packetized
