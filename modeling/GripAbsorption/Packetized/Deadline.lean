/-
When a device in `PEM_OFF` can ask again. `pem_off` sets the deadline one communication epoch ahead,
and a refused request leaves it there. Two ways into `PEM_OFF` keep the old deadline instead: the cap
of `apply_pem_changes`, which gives `update` a state and no deadline, and an exit state left at time
0, a deadline that `update` reads as missing. A device then waits for whatever deadline it had.
-/
import GripAbsorption.Packetized.Next

namespace Grip.Packetized

open Grip.Base

universe u

variable {K : Type u} [Field K] [LinearOrder K] {gld : Gld K}

/-! ## The deadline `pem` gives -/

namespace VbDevice

variable {dice : Dice K} {time : ℤ} {d : VbDevice K}

/-- The device is in an exit state and its temperature asks for neither exit. -/
def LeavesExit (d : VbDevice K) : Prop :=
  (d.pemState = .exitOff ∨ d.pemState = .exitOn) ∧ d.gldDev.zone = .comfort

instance (d : VbDevice K) : Decidable d.LeavesExit := inferInstanceAs (Decidable (_ ∧ _))

/-- `pem_off` leaves an early device alone, and gives any other a deadline within the epoch. -/
theorem stateEndsAt_pemOff (gld : Gld K) (dice : Dice K) (time : ℤ) (d : VbDevice K) :
    (d.pemOff gld dice time).1.stateEndsAt ≤ time + commEpochSec ∨
      time < d.stateEndsAt ∧ d.pemOff gld dice time = (d, none) := by
  unfold pemOff
  by_cases he : time < d.stateEndsAt
  · rw [if_pos he]
    exact .inr ⟨he, rfl⟩
  · have hnext : (d.update gld none (some (time + commEpochSec)) none).stateEndsAt ≤ time + commEpochSec := by
      rw [stateEndsAt_update, given_some]
      split
      · unfold commEpochSec; simp only [Option.getD_none]; omega
      · exact le_refl _
    rw [if_neg he]
    left
    split <;> exact hnext

/-- The deadline of a device in `PEM_OFF` that got an effect. -/
theorem stateEndsAt_pem [IsStrictOrderedRing K] (dice : Dice K) (time : ℤ) (hf : d.Fresh gld)
    (hs : (d.pem gld dice time).1.pemState = .pemOff) (he : (d.pem gld dice time).2 ≠ none) :
    (d.pem gld dice time).1.stateEndsAt ≤ time + commEpochSec ∨
      time = 0 ∧ d.LeavesExit ∧ (d.pem gld dice time).1.stateEndsAt = d.stateEndsAt := by
  have hz : d.gldDev.zone = .comfort := by
    have ho := pem_outcome dice time hf
    generalize d.pem gld dice time = r at ho hs
    cases ho with
    | comfortOn _ _ h => rw [h] at hs; cases hs
    | comfortOff _ _ h => rw [h] at hs; cases hs
    | keepOn h _ _ => exact h
    | waits h _ _ => exact h
    | asks h _ _ _ _ => exact h
    | idles h _ _ _ _ => exact h
  cases hd : d.pemState with
  | pemOff =>
    rw [pem_off_comfort hf hd hz] at he ⊢
    rcases stateEndsAt_pemOff gld dice time d with h | ⟨-, h⟩
    · exact .inl h
    · rw [h] at he; exact absurd rfl he
  | pemOn =>
    rw [pem_on_comfort hf hd hz] at hs ⊢
    by_cases hl : time < d.stateEndsAt
    · rw [if_pos hl] at hs; rw [hd] at hs; cases hs
    · rw [if_neg hl]
      rcases stateEndsAt_pemOff gld dice time (d.reset gld time) with h | ⟨h, -⟩
      · exact .inl h
      · obtain ⟨-, hends⟩ := reset_early h
        exact absurd (hends ▸ h) hl
  | exitOff =>
    rw [pem_exit_comfort hf (.inl hd) hz]
    rcases stateEndsAt_pemOff gld dice time (d.reset gld time) with h | ⟨h, hr⟩
    · exact .inl h
    · obtain ⟨ht, hends⟩ := reset_early h
      exact .inr ⟨ht, ⟨.inl hd, hz⟩, by rw [hr]; exact hends⟩
  | exitOn =>
    rw [pem_exit_comfort hf (.inr hd) hz]
    rcases stateEndsAt_pemOff gld dice time (d.reset gld time) with h | ⟨h, hr⟩
    · exact .inl h
    · obtain ⟨ht, hends⟩ := reset_early h
      exact .inr ⟨ht, ⟨.inr hd, hz⟩, by rw [hr]; exact hends⟩

/-- At time 0 a device that leaves an exit state is turned off and keeps a deadline to come. -/
theorem pem_leavesExit [IsStrictOrderedRing K] (dice : Dice K) (hf : d.Fresh gld) (hx : d.LeavesExit)
    (he : 0 < d.stateEndsAt) :
    ∃ n, d.pem gld dice 0 = (n, some (.turnOff d.turnOff)) ∧ n.pemState = .pemOff ∧ n.stateEndsAt = d.stateEndsAt := by
  have hends : (d.reset gld 0).stateEndsAt = d.stateEndsAt := by
    unfold reset; rw [stateEndsAt_update, given_some, if_pos rfl]; rfl
  rw [pem_exit_comfort hf hx.1 hx.2, pemOff, if_pos (by rw [hends]; exact he)]
  exact ⟨_, rfl, rfl, hends⟩

end VbDevice

/-! ## The deadline a verdict leaves -/

/-- The verdict puts the device in `PEM_OFF` and lets it keep its deadline. -/
def Verdict.KeepsDeadline (time : ℤ) (d : VbDevice K) : Verdict K → Prop
  | .curtailed _ _ => True
  | .off _ _ => time = 0 ∧ d.LeavesExit
  | _ => False

instance (time : ℤ) (d : VbDevice K) : (v : Verdict K) → Decidable (v.KeepsDeadline time d)
  | .curtailed _ _ => isTrue trivial
  | .off _ _ => inferInstanceAs (Decidable (_ ∧ _))
  | .kept _ _ | .asks _ _ | .dropped => isFalse id

variable [IsStrictOrderedRing K] {dice : Dice K} {time : ℤ} {cap load : K} {d n : VbDevice K}

theorem stateEndsAt_verdict (hf : d.Fresh gld) (hn : (verdict gld cap load d (d.pem gld dice time)).next = some n)
    (hs : n.pemState = .pemOff) : n.stateEndsAt ≤ time + commEpochSec ∨
      (verdict gld cap load d (d.pem gld dice time)).KeepsDeadline time d ∧ n.stateEndsAt = d.stateEndsAt := by
  have hends := VbDevice.stateEndsAt_pem dice time hf
  have hsound : (verdict gld cap load d (d.pem gld dice time)).Sound time d := verdict_sound hf
  rcases hp : d.pem gld dice time with ⟨m, _ | (r | e | e)⟩ <;> rw [hp] at hn hends hsound
  · cases hn
  · cases hn
    rcases hends hs (by simp) with h | ⟨h0, ⟨hx, hz⟩, hkeep⟩
    · exact .inl h
    · -- at time 0 such a device is turned off
      rcases lt_or_ge 0 d.stateEndsAt with hlt | hle
      · obtain ⟨m', hpem, -⟩ := VbDevice.pem_leavesExit dice hf ⟨hx, hz⟩ hlt
        rw [h0] at hp
        cases hpem.symm.trans hp
      · left
        simp only at hkeep
        rw [hkeep]; unfold commEpochSec; omega
  · by_cases hl : load < cap
    · simp only [verdict, hl, if_true] at hn hsound
      cases hn
      have hon := hsound.2.2
      rw [hs] at hon
      cases hon
    · simp only [verdict, hl, if_false] at hn ⊢
      cases hn
      exact .inr ⟨trivial, rfl⟩
  · cases hn
    rcases hends hs (by simp) with h | ⟨h0, hx, hkeep⟩
    · exact .inl h
    · exact .inr ⟨⟨h0, hx⟩, hkeep⟩

/-- A deadline to come that is kept is left in `PEM_OFF`, and the device has not asked. -/
theorem next_of_keepsDeadline (hf : d.Fresh gld) (he : time + commEpochSec < d.stateEndsAt)
    (hk : (verdict gld cap load d (d.pem gld dice time)).KeepsDeadline time d) :
    ∃ n, (verdict gld cap load d (d.pem gld dice time)).next = some n ∧ n.pemState = .pemOff ∧
      n.stateEndsAt = d.stateEndsAt ∧ (verdict gld cap load d (d.pem gld dice time)).request = none := by
  rcases hp : d.pem gld dice time with ⟨m, _ | (r | e | e)⟩ <;> rw [hp] at hk
  · exact hk.elim
  · exact hk.elim
  · by_cases hl : load < cap
    · simp only [verdict, hl, if_true] at hk
      exact hk.elim
    · simp only [verdict, hl, if_false]
      exact ⟨_, rfl, rfl, rfl, rfl⟩
  · obtain ⟨h0, hx⟩ := hk
    subst h0
    unfold commEpochSec at he
    obtain ⟨m', hpem, hs, hends⟩ := VbDevice.pem_leavesExit dice hf hx (by omega)
    cases hpem.symm.trans hp
    exact ⟨m, rfl, hs, hends, rfl⟩

/-! ## The law -/

namespace VirtualBattery

variable [FloorRing K] {vb : VirtualBattery K} {i : NextInput K}

omit [IsStrictOrderedRing K] in
/-- The state after a call. -/
def after (vb : VirtualBattery K) (i : NextInput K) : VirtualBattery K := (vb.nextOn i).1

/-- After the call every device in `PEM_OFF` can ask within one communication epoch. -/
def AsksSoon (vb : VirtualBattery K) (i : NextInput K) : Prop :=
  ∀ d ∈ (vb.after i).devices.rows, d.pemState = .pemOff → d.stateEndsAt ≤ (vb.after i).timeSec + commEpochSec

/-- No device whose deadline is more than one communication epoch away is curtailed at the cap, or
leaves an exit state at time 0. -/
def NoneLocked (vb : VirtualBattery K) (i : NextInput K) : Prop :=
  ∀ p ∈ vb.verdicts i, (vb.updated i).timeSec + commEpochSec < p.1.stateEndsAt →
    ¬ p.2.KeepsDeadline (vb.updated i).timeSec p.1

instance (vb : VirtualBattery K) (i : NextInput K) : Decidable (vb.AsksSoon i) :=
  inferInstanceAs (Decidable (∀ d ∈ (vb.after i).devices.rows, _ → _))

instance (vb : VirtualBattery K) (i : NextInput K) : Decidable (vb.NoneLocked i) :=
  inferInstanceAs (Decidable (∀ p ∈ vb.verdicts i, _ → _))

theorem asksSoon_iff (vb : VirtualBattery K) (i : NextInput K) : vb.AsksSoon i ↔ vb.NoneLocked i := by
  have htime : (vb.after i).timeSec = (vb.updated i).timeSec := vb.nextOn_spec.2.1
  unfold AsksSoon NoneLocked
  rw [htime]
  constructor
  · intro h p hp hlate hk
    obtain ⟨hd, l, hl⟩ := mem_sweep hp
    rw [hl] at hk
    obtain ⟨n, hn, hs, hends, hr⟩ := next_of_keepsDeadline (fresh_updated hd) hlate hk
    rw [← hl] at hn hr
    have hnot : p.1.deviceId ∉ vb.grantedIds i := fun hg => by
      obtain ⟨r, hr'⟩ := vb.request_of_mem_grantedIds hp hg
      rw [hr] at hr'; cases hr'
    have hgrant : grant i.gld (vb.updated i).timeSec (vb.grantedIds i) n = n :=
      grant_of_notMem (by rw [deviceId_next_sweep hp hn]; exact hnot)
    have hle := h n (vb.mem_nextOn.2 ⟨p, hp, n, hn, hgrant⟩) hs
    rw [hends] at hle
    omega
  · intro h d hd hs
    obtain ⟨p, hp, n, hn, rfl⟩ := vb.mem_nextOn.1 hd
    obtain ⟨hmem, l, hl⟩ := mem_sweep hp
    by_cases hg : n.deviceId ∈ vb.grantedIds i
    · -- a granted device is not in `PEM_OFF`
      rw [grant, if_pos hg, VbDevice.requestAccepted] at hs
      split at hs
      · rename_i hne; exact absurd hs hne
      · cases hs
    · rw [grant_of_notMem hg] at hs ⊢
      have hnv := hn
      rw [hl] at hnv
      rcases stateEndsAt_verdict (fresh_updated hmem) hnv hs with hle | ⟨hk, hends⟩
      · exact hle
      · rw [← hl] at hk
        by_contra hlate
        exact h p hp (by rw [← hends]; omega) hk

/-- Along every run of calls, every device in `PEM_OFF` can always ask within one communication epoch
if and only if no call locks a device. -/
theorem asksSoon_run_iff (vb : VirtualBattery K) (is : List (NextInput K)) :
    AllSteps (total after) AsksSoon vb is ↔ AllSteps (total after) NoneLocked vb is :=
  ⟨AllSteps.mono fun vb i => (vb.asksSoon_iff i).1, AllSteps.mono fun vb i => (vb.asksSoon_iff i).2⟩

/-- A packet that runs out leaves a device that can ask again at once. -/
theorem expired_heater_asks_soon :
    AllSteps (total after) AsksSoon heaterSite.vb [heaterCall 30 100, heaterCall 60 100, heaterCall 210 (1 / 4)] :=
  (asksSoon_run_iff _ _).2 (by decide +kernel)

/-- A packet granted at 30 until 210 is curtailed at 60: the heater is `PEM_OFF` and cannot ask before
210. -/
theorem curtailed_heater_locked :
    (∀ d ∈ heaterSite.vb.devices.rows, d.pemState = .pemOff ∧ d.stateEndsAt ≤ 30) ∧
      ([heaterCall 30 100, heaterCall 60 (1 / 4)].map (·.time)) = [some 30, some 60] ∧
      ¬ AllSteps (total after) AsksSoon heaterSite.vb [heaterCall 30 100, heaterCall 60 (1 / 4)] := by
  refine ⟨by decide +kernel, rfl, by decide +kernel⟩

end VirtualBattery

end Grip.Packetized
