/-
A battery without power. At a setpoint of 0 `apply_pem_changes` is at its cap from the start, so whatever would run is turned
off, and `handle_power_requests` admits nothing, since every request would bring the load further away: a control step sends
no command but off commands.
-/
import GripAbsorption.Packetized.Load
import GripAbsorption.Packetized.Command

namespace Grip.Packetized

open Grip.Base

universe u

variable {K : Type u} [Field K] [LinearOrder K] {gld : Gld K} {dice : DeviceId → Dice K} {time : ℤ} {cap : K}

/-! ## What an update keeps -/

section

variable {P : VbDevice K → Prop}

namespace VbDevice

/-- A state, a deadline and the readings `gld` are all a step changes of a device: what this keeps, `pem` keeps. -/
theorem checkExits_closed {d : VbDevice K} {die : Dice K} (hup : ∀ d s e, P d → P (d.update gld s e none)) (h : P d) :
    P (d.checkExits gld die).1 := by
  unfold checkExits
  split
  · exact hup _ _ _ h
  · split
    · exact hup _ _ _ h
    · exact h

theorem pemBody_closed {d : VbDevice K} {die : Dice K} {handler : Handler K}
    (hup : ∀ d s e, P d → P (d.update gld s e none)) (hh : ∀ d, P d → P (handler d).1) (h : P d) :
    P (pemBody gld die handler time d).1 := by
  have hexit : ∀ stat, P (d.exitState stat gld die handler time).1 := fun stat => by
    unfold exitState
    split
    · exact hh _ (hup _ _ _ h)
    · exact h
  refine checkExits_closed hup (d := (d.handle gld die handler time).1) ?_
  unfold VbDevice.handle
  cases d.pemState with
  | pemOff =>
    simp only [pemOff]
    split
    · exact h
    · split <;> exact hup _ _ _ h
  | pemOn =>
    simp only [pemOn]
    split
    · exact h
    · exact hh _ (hup _ _ _ h)
  | exitOff => exact hexit _
  | exitOn => exact hexit _

theorem pem_closed {d : VbDevice K} {die : Dice K} (hup : ∀ d s e, P d → P (d.update gld s e none)) (h : P d) :
    P (d.pem gld die time).1 :=
  pemBody_closed hup (fun _ hd => pemBody_closed hup (fun _ hd => hd) hd) h

end VbDevice

theorem verdict_closed {load : K} {die : Dice K} {d n : VbDevice K} (hup : ∀ d s e, P d → P (d.update gld s e none))
    (h : P d) (hn : (verdict gld cap load d (d.pem gld die time)).next = some n) : P n := by
  have hpem : P (d.pem gld die time).1 := VbDevice.pem_closed hup h
  generalize d.pem gld die time = r at hpem hn
  unfold verdict at hn
  split at hn
  · split at hn
    · cases hn
      exact hpem
    · cases hn
      exact hup _ _ _ h
  · cases hn
    exact hpem
  · cases hn
    exact hpem
  · cases hn

theorem grant_closed {ids : List DeviceId} {d : VbDevice K} (hup : ∀ d s e, P d → P (d.update gld s e none)) (h : P d) :
    P (grant gld time ids d) := by
  unfold grant VbDevice.requestAccepted
  split
  · split
    · exact h
    · exact hup _ _ _ h
  · exact h

namespace VirtualBattery

variable [FloorRing K] [IsStrictOrderedRing K] {draws : ℕ → ℕ}

/-- So does a control step, for all devices of the battery. -/
theorem packetize_closed {vb : VirtualBattery K} {st : GldState K} (hup : ∀ d s e, P d → P (d.update gld s e none))
    (h : ∀ d ∈ vb.devices.rows, P d) : ∀ d ∈ (vb.packetize gld dice draws time st).1.devices.rows, P d := by
  intro d hd
  rw [packetize_eq_act] at hd
  change d ∈ ((vb.ready gld time).act gld dice draws).1.devices.rows at hd
  rw [(act_spec dice draws (vb.ready gld time) fun _ => fresh_of_mem_ready).1] at hd
  obtain ⟨n, hn, rfl⟩ := List.mem_map.1 hd
  obtain ⟨p, hp, hpn⟩ := List.mem_filterMap.1 hn
  obtain ⟨hrow, l, hl⟩ := mem_sweep hp
  rw [rows_ready] at hrow
  obtain ⟨e, he, hep⟩ := List.mem_map.1 hrow
  rw [hl] at hpn
  exact grant_closed hup (verdict_closed hup (hep ▸ hup _ _ _ (h e he)) hpn)

end VirtualBattery

end

/-! ## A setpoint of 0 -/

/-- Above the cap nothing is kept on. -/
theorem turnOn_sweep_of_le : ∀ {load : K} {ds : List (VbDevice K)}, cap ≤ load →
    (sweep gld dice time cap load ds).filterMap (·.2.turnOn) = []
  | _, [], _ => rfl
  | load, d :: ds, h => by
    have hoff : (verdict gld cap load d (d.pem gld (dice d.deviceId) time)).turnOn = none := by
      unfold verdict
      split
      · rw [if_neg h.not_gt]
        rfl
      all_goals rfl
    have hload : (verdict gld cap load d (d.pem gld (dice d.deviceId) time)).load = 0 := by rw [load_eq, hoff]; rfl
    rw [sweep, List.filterMap_cons_none (by exact hoff)]
    exact turnOn_sweep_of_le (by rwa [hload, add_zero])

/-- A load that is not below the setpoint is not added to. -/
theorem admitted_eq_nil [IsStrictOrderedRing K] {setpoint load : K} (hle : setpoint ≤ load) :
    ∀ {rs : List (PowerRequest K)}, (∀ r ∈ rs, 0 < r.kw) → admitted setpoint load rs = []
  | [], _ => rfl
  | r :: rs, h => by
    have hpos := h r (List.mem_cons_self ..)
    have hno : ¬ VirtualBattery.admits setpoint load r.kw = true := fun hok => by
      have hhalf := (admits_iff hpos).1 hok
      linarith
    rw [admitted_cons, if_neg hno]
    exact admitted_eq_nil hle fun q hq => h q (List.mem_cons_of_mem _ hq)

/-- A device whose readings are current, that draws no negative load and would be given a positive packet. -/
structure VbDevice.Draws (gld : Gld K) (d : VbDevice K) : Prop where
  fresh : d.Fresh gld
  last : 0 < d.lastPowerDrawKw
  kw : 0 ≤ d.kw
  load : 0 ≤ d.gldDev.kw

theorem VbDevice.lastPowerDrawKw_update_pos {d : VbDevice K} (h : 0 < d.lastPowerDrawKw) (s : Option PemState) (e : Option ℤ) :
    0 < (d.update gld s e none).lastPowerDrawKw := by
  change 0 < if d.kw > 0 then d.kw else d.lastPowerDrawKw
  split
  · assumption
  · exact h

theorem VbDevice.Draws.update {d : VbDevice K} (h : d.Draws gld) (s : Option PemState) (e : Option ℤ) :
    (d.update gld s e none).Draws gld := by
  have hload : 0 ≤ (d.gldDev.updateFromGld gld).kw := by
    rw [show d.gldDev.updateFromGld gld = d.gldDev from h.fresh]
    exact h.load
  exact ⟨fresh_update .., lastPowerDrawKw_update_pos h.last s e, hload, hload⟩

/-- Where no reading is negative, a refreshed device draws. -/
theorem VbDevice.draws_update {d : VbDevice K} (hgld : ∀ id, 0 ≤ (gld id).load) (h : 0 < d.lastPowerDrawKw) :
    (d.update gld none none none).Draws gld := by
  have hload : 0 ≤ (d.gldDev.updateFromGld gld).kw := by
    cases d.gldDev with
    | waterHeater w => exact hgld w.id
    | hvac v => exact hgld v.id
  exact ⟨fresh_update .., lastPowerDrawKw_update_pos h none none, hload, hload⟩

namespace VirtualBattery

variable [FloorRing K] [IsStrictOrderedRing K] {draws : ℕ → ℕ} {vb : VirtualBattery K}

/-- On refreshed devices nothing is granted at a setpoint that is not positive. -/
theorem granted_eq_nil (hsp : vb.setpoint ≤ 0) (h : ∀ d ∈ vb.devices.rows, d.Draws gld) : vb.granted gld dice draws = [] := by
  have hmem : ∀ p ∈ vb.pemSweep gld dice, p.1.Draws gld := fun p hp => h _ (mem_sweep hp).1
  refine admitted_eq_nil (hsp.trans (List.sum_nonneg fun kw hkw => ?_)) fun r hr => ?_
  · obtain ⟨n, hn, rfl⟩ := List.mem_map.1 hkw
    obtain ⟨p, hp, hpn⟩ := List.mem_filterMap.1 hn
    obtain ⟨-, l, hl⟩ := mem_sweep hp
    rw [hl] at hpn
    exact (verdict_closed (P := VbDevice.Draws gld) (fun d s e hd => hd.update s e) (hmem p hp) hpn).kw
  · obtain ⟨p, hp, hpr⟩ := List.mem_filterMap.1 (mem_shuffle.1 hr)
    obtain ⟨-, l, hl⟩ := mem_sweep hp
    rw [hl] at hpr
    have hd := hmem p hp
    have hsized : p.1.Sized gld p.1.packet :=
      ⟨hd.fresh, ⟨hd.last, le_max_left ..⟩, (le_max_left ..).trans (le_max_right ..),
        (le_max_right ..).trans (le_max_right ..)⟩
    exact ((verdict_sized hsized).2 r hpr).1

/-- A control step of a battery without power leaves the last command of every device as it was, or turns it off. -/
theorem lastCommand_packetize_of_nonpos {st : GldState K} (hsp : vb.setpoint ≤ 0) (hgld : ∀ id, 0 ≤ (gld id).load)
    (h : ∀ d ∈ vb.devices.rows, 0 < d.lastPowerDrawKw) (id : DeviceId) :
    (vb.packetize gld dice draws time st).2.1.lastCommand id = st.lastCommand id ∨
      (vb.packetize gld dice draws time st).2.1.lastCommand id = some .turnOff := by
  have hdraws : ∀ d ∈ (vb.ready gld time).devices.rows, d.Draws gld := by
    intro d hd
    rw [rows_ready] at hd
    obtain ⟨e, he, rfl⟩ := List.mem_map.1 hd
    exact VbDevice.draws_update hgld (h e he)
  obtain ⟨-, -, -, hon, -⟩ := act_spec dice draws (vb.ready gld time) fun _ => fresh_of_mem_ready
  have hcap : (pyRound (vb.ready gld time).setpoint : K) ≤ 0 := by
    have hround := pyRound_sub_le (vb.ready gld time).setpoint
    have hsp' : (vb.ready gld time).setpoint ≤ 0 := hsp
    have hlt : ¬ 1 ≤ pyRound (vb.ready gld time).setpoint := fun hone => by
      have hone : (1 : K) ≤ pyRound (vb.ready gld time).setpoint := by exact_mod_cast hone
      linarith
    exact_mod_cast Int.lt_add_one_iff.1 (not_le.1 hlt)
  have hgranted : (vb.ready gld time).granted gld dice draws = [] := granted_eq_nil hsp hdraws
  rw [hgranted] at hon
  have hnone : ((vb.ready gld time).act gld dice draws).2.1.turnOn = [] := by
    rw [hon]
    exact List.append_eq_nil_iff.2 ⟨turnOn_sweep_of_le hcap, rfl⟩
  have hcommand := lastCommand_send ((vb.ready gld time).act gld dice draws).2.1 st id
  rw [packetize_eq_act]
  simp only
  rw [hcommand, hnone]
  split
  · exact .inr rfl
  · exact .inl rfl

end VirtualBattery

end Grip.Packetized
