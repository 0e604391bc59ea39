/-
What a control step leaves alone: a battery gains no device, and the thermostat of a device outside
the battery and the interruption of a customer stay as they are.
-/
import GripAbsorption.Packetized.Retention
import GripAbsorption.Packetized.Command

namespace Grip.Packetized

open Grip.Base

universe u

variable {K : Type u} [Field K] [LinearOrder K]

/-! ## One command -/

namespace GldDev

theorem customerInterrupted_turnOn (st : GldState K) (d : GldDev K) :
    (d.turnOn st).customerInterrupted = st.customerInterrupted := by
  cases d with
  | waterHeater w => rfl
  | hvac h =>
    simp only [turnOn, GldState.record_customerInterrupted, GldHVAC.turnOn]
    split
    · rfl
    · split <;> rfl

omit [LinearOrder K] in
theorem customerInterrupted_turnOff (st : GldState K) (d : GldDev K) :
    (d.turnOff st).customerInterrupted = st.customerInterrupted := by
  cases d <;> rfl

theorem thermostatControl_turnOn (st : GldState K) (d : GldDev K) {x : DeviceId} (h : x ≠ d.id) :
    (d.turnOn st).thermostatControl x = st.thermostatControl x := by
  cases d with
  | waterHeater w => rfl
  | hvac g =>
    have hx : Function.update st.thermostatControl g.id .none x = st.thermostatControl x := Function.update_of_ne h ..
    simp only [turnOn, GldState.record_thermostatControl, GldHVAC.turnOn]
    split
    · exact hx
    · split <;> exact hx

omit [LinearOrder K] in
theorem thermostatControl_turnOff (st : GldState K) (d : GldDev K) {x : DeviceId} (h : x ≠ d.id) :
    (d.turnOff st).thermostatControl x = st.thermostatControl x := by
  cases d with
  | waterHeater w => rfl
  | hvac g => exact Function.update_of_ne h ..

omit [LinearOrder K] in
theorem thermostatControl_turnOff_none (st : GldState K) (d : GldDev K) {x : DeviceId}
    (h : x = d.id ∧ (∃ n, x = .house n) ∨ st.thermostatControl x = .none) :
    (d.turnOff st).thermostatControl x = .none := by
  cases d with
  | waterHeater w =>
    rcases h with ⟨hx, n, hn⟩ | h
    · cases hn.symm.trans hx
    · exact h
  | hvac g =>
    by_cases hx : x = g.id
    · rw [hx]; exact Function.update_self ..
    · rcases h with ⟨he, -⟩ | h
      · exact absurd he hx
      · exact (Function.update_of_ne hx ..).trans h

/-- A command never hands a thermostat back. -/
theorem thermostatControl_turnOn_none (st : GldState K) (d : GldDev K) {x : DeviceId}
    (h : st.thermostatControl x = .none) : (d.turnOn st).thermostatControl x = .none := by
  by_cases hx : x = d.id
  · cases d with
    | waterHeater w => exact h
    | hvac g =>
      have hu : Function.update st.thermostatControl g.id .none x = .none := by rw [hx]; exact Function.update_self ..
      simp only [turnOn, GldState.record_thermostatControl, GldHVAC.turnOn]
      split
      · exact hu
      · split <;> exact hu
  · rw [thermostatControl_turnOn st d hx]; exact h

end GldDev

/-- A property of the written state that every command keeps is kept by a step's commands. -/
theorem send_invariant {P : GldState K → Prop} {es : Effects K}
    (hon : ∀ e ∈ es.turnOn, ∀ st, P st → P (e.gld.turnOn st)) (hoff : ∀ e ∈ es.turnOff, ∀ st, P st → P (e.gld.turnOff st))
    {st : GldState K} (h : P st) : P (es.send st) := by
  have fold : ∀ {ε : Type u} {act : GldState K → ε → GldState K} (l : List ε),
      (∀ e ∈ l, ∀ st, P st → P (act st e)) → ∀ st, P st → P (l.foldl act st) := by
    intro ε act l
    induction l with
    | nil => intro _ st hst; exact hst
    | cons e l ih =>
      intro hl st hst
      exact ih (fun x hx => hl x (List.mem_cons_of_mem _ hx)) _ (hl e (List.mem_cons_self ..) st hst)
  exact fold _ hoff _ (fold _ hon _ h)

/-! ## One step -/

namespace VirtualBattery

variable [FloorRing K] [IsStrictOrderedRing K] (gld : Gld K) (dice : DeviceId → Dice K) (draws : ℕ → ℕ) (time : ℤ)
  (vb : VirtualBattery K) (st : GldState K)

omit [IsStrictOrderedRing K] in
/-- A battery's step as a step of its site, under the setpoint in force. -/
theorem step_eq : (⟨vb, st⟩ : Site K).step ⟨time, gld, dice, draws, vb.setpoint⟩ =
    ⟨(vb.packetize gld dice draws time st).1, (vb.packetize gld dice draws time st).2.1⟩ := rfl

theorem mem_keys_of_packetize {id : DeviceId} (h : id ∈ (vb.packetize gld dice draws time st).1.devices.keys) :
    id ∈ vb.devices.keys := by
  have hs : id ∈ ((⟨vb, st⟩ : Site K).step ⟨time, gld, dice, draws, vb.setpoint⟩).vb.devices.keys := h
  obtain ⟨p, hp, hid, -⟩ := Site.mem_keys_step.1 hs
  exact Site.mem_keys_iff_sweep.2 ⟨p, hp, hid⟩

/-- The commands of a step go to devices of the battery. -/
theorem packetize_invariant {P : GldState K → Prop}
    (hon : ∀ d : GldDev K, d.id ∈ vb.devices.keys → ∀ st, P st → P (d.turnOn st))
    (hoff : ∀ d : GldDev K, d.id ∈ vb.devices.keys → ∀ st, P st → P (d.turnOff st)) (h : P st) :
    P (vb.packetize gld dice draws time st).2.1 := by
  obtain ⟨requests, he⟩ := (⟨vb, st⟩ : Site K).gldState_step ⟨time, gld, dice, draws, vb.setpoint⟩
  rw [step_eq] at he
  have swept : ∀ p ∈ (⟨vb, st⟩ : Site K).sweep ⟨time, gld, dice, draws, vb.setpoint⟩, p.1.deviceId ∈ vb.devices.keys :=
    fun p hp => Site.mem_keys_iff_sweep.2 ⟨p, hp, rfl⟩
  rw [show (vb.packetize gld dice draws time st).2.1 = _ from he]
  refine send_invariant (fun e hmem => hon e.gld ?_) (fun e hmem => hoff e.gld ?_) h
  · rcases List.mem_append.1 hmem with hmem | hmem
    · obtain ⟨p, hp, hpe⟩ := List.mem_filterMap.1 hmem
      rw [(Site.sound_of_mem hp).id_turnOn hpe]
      exact swept p hp
    · have hid := Site.ids_grantEffects.1 (List.mem_map.2 ⟨e, hmem, rfl⟩)
      obtain ⟨r, hr, hid⟩ := List.mem_map.1 hid
      obtain ⟨p, hp, hpr⟩ := List.mem_filterMap.1 (Site.mem_requests_of_granted hr)
      rw [← hid, (Site.sound_of_mem hp).id_request hpr]
      exact swept p hp
  · obtain ⟨p, hp, hpe⟩ := List.mem_filterMap.1 hmem
    rw [(Site.sound_of_mem hp).id_turnOff hpe]
    exact swept p hp

theorem customerInterrupted_packetize :
    (vb.packetize gld dice draws time st).2.1.customerInterrupted = st.customerInterrupted :=
  packetize_invariant (P := fun st' => st'.customerInterrupted = st.customerInterrupted) gld dice draws time vb st
    (fun d _ st' h => (d.customerInterrupted_turnOn st').trans h)
    (fun d _ st' h => (d.customerInterrupted_turnOff st').trans h) rfl

theorem thermostatControl_packetize {x : DeviceId} (hx : x ∉ vb.devices.keys) :
    (vb.packetize gld dice draws time st).2.1.thermostatControl x = st.thermostatControl x :=
  have hne : ∀ d : GldDev K, d.id ∈ vb.devices.keys → x ≠ d.id := fun d hd e => hx (by rw [e]; exact hd)
  packetize_invariant (P := fun st' => st'.thermostatControl x = st.thermostatControl x) gld dice draws time vb st
    (fun d hd st' h => (d.thermostatControl_turnOn st' (hne d hd)).trans h)
    (fun d hd st' h => (d.thermostatControl_turnOff st' (hne d hd)).trans h) rfl

theorem thermostatControl_packetize_none {x : DeviceId} (h : st.thermostatControl x = .none) :
    (vb.packetize gld dice draws time st).2.1.thermostatControl x = .none :=
  packetize_invariant (P := fun st' => st'.thermostatControl x = .none) gld dice draws time vb st
    (fun d _ st' h => d.thermostatControl_turnOn_none st' h)
    (fun d _ st' h => d.thermostatControl_turnOff_none st' (.inr h)) h

end VirtualBattery

end Grip.Packetized
