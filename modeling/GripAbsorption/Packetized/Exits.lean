/-
The deadline of a device that takes a comfort exit. `check_exits` asks `update` for the deadline 0, and
`update` reads a 0 as missing: the device keeps the deadline it has, which is still to come whenever
it did not come from an exit state. So the deadline is dropped in the runs that take no exit, and in
no others.
-/
import GripAbsorption.Packetized.Deadline
import GripAbsorption.Packetized.Packet

namespace Grip.Packetized

open Grip.Base

universe u

variable {K : Type u} [Field K] [LinearOrder K]

/-! ## What update returns -/

/-- The states of the two comfort exits. -/
def PemState.IsExit (s : PemState) : Prop := s = .exitOff ∨ s = .exitOn

instance (s : PemState) : Decidable s.IsExit := inferInstanceAs (Decidable (_ ∨ _))

theorem PemState.not_isExit_pemOff : ¬ PemState.pemOff.IsExit := by decide

theorem PemState.not_isExit_pemOn : ¬ PemState.pemOn.IsExit := by decide

namespace VbDevice

variable {gld : Gld K} {dice : Dice K} {time : ℤ} {d : VbDevice K}

/-- `update` returns every value it was given. -/
structure UpdatesExactly (gld : Gld K) (d : VbDevice K) (s : Option PemState) (e : Option ℤ) (p : Option K) : Prop where
  pemState : ∀ x, s = some x → (d.update gld s e p).pemState = x
  stateEndsAt : ∀ x, e = some x → (d.update gld s e p).stateEndsAt = x
  lastPowerDrawKw : ∀ x, p = some x → (d.update gld s e p).lastPowerDrawKw = x

/-- A value that was given is returned unless it is 0 and the default is not. -/
theorem given_getD_eq_iff {α : Type u} [Zero α] [DecidableEq α] (x : Option α) (a : α) :
    (∀ y, x = some y → (given x).getD a = y) ↔ (x = some 0 → a = 0) := by
  cases x with
  | none => simp
  | some y =>
    simp only [Option.some.injEq, forall_eq', given_some]
    by_cases hy : y = 0
    · simp [hy]
    · simp [hy]

/-- `update` is exact when no number given is 0, or the value it falls back on is 0 too. -/
theorem updatesExactly_iff (gld : Gld K) (d : VbDevice K) (s : Option PemState) (e : Option ℤ) (p : Option K) :
    UpdatesExactly gld d s e p ↔
      (e = some 0 → d.stateEndsAt = 0) ∧ (p = some 0 → ¬ 0 < d.kw ∧ d.lastPowerDrawKw = 0) := by
  have hkw : (if d.kw > 0 then d.kw else d.lastPowerDrawKw) = 0 ↔ ¬ 0 < d.kw ∧ d.lastPowerDrawKw = 0 := by
    split
    · rename_i hpos
      exact iff_of_false hpos.ne' fun h => h.1 hpos
    · rename_i hpos
      exact (and_iff_right hpos).symm
  rw [← hkw, ← given_getD_eq_iff p, ← given_getD_eq_iff e]
  constructor
  · exact fun h => ⟨h.stateEndsAt, h.lastPowerDrawKw⟩
  · rintro ⟨he, hp⟩
    exact ⟨fun x hx => by rw [hx]; rfl, he, hp⟩

/-! ## The deadline of an exit -/

/-- The exits keep the deadline of the device they are tested on. -/
theorem stateEndsAt_checkExits (gld : Gld K) (dice : Dice K) (d : VbDevice K) :
    (d.checkExits gld dice).1.stateEndsAt = d.stateEndsAt := by
  have hkeep : ∀ s, (d.update gld (some s) (some 0) none).stateEndsAt = d.stateEndsAt := fun s => by
    rw [stateEndsAt_update, given_some, if_pos rfl]
    rfl
  unfold checkExits
  split
  · exact hkeep _
  · split
    · exact hkeep _
    · rfl

theorem stateEndsAt_pemBody (gld : Gld K) (dice : Dice K) (h : Handler K) (time : ℤ) (d : VbDevice K) :
    (pemBody gld dice h time d).1.stateEndsAt = (d.handle gld dice h time).1.stateEndsAt :=
  stateEndsAt_checkExits ..

theorem stateEndsAt_pemOff_pos (gld : Gld K) (dice : Dice K) (ht : 0 ≤ time) (d : VbDevice K) :
    0 < (d.pemOff gld dice time).1.stateEndsAt := by
  unfold pemOff
  split
  · rename_i he
    exact ht.trans_lt he
  · have hpos : 0 < (d.update gld none (some (time + commEpochSec)) none).stateEndsAt := by
      rw [stateEndsAt_update, deadline_kept ht, commEpochSec]
      omega
    split <;> exact hpos

/-- `pem` gives a device that is in no exit state a deadline after time 0, whatever state it puts it in. -/
theorem stateEndsAt_pem_pos (gld : Gld K) (dice : Dice K) (ht : 0 ≤ time) (hd : ¬ d.pemState.IsExit) :
    0 < (d.pem gld dice time).1.stateEndsAt := by
  have hoff : ∀ (h : Handler K) {e : VbDevice K}, e.pemState = .pemOff →
      0 < (pemBody gld dice h time e).1.stateEndsAt := fun h e he => by
    rw [stateEndsAt_pemBody, handle, he]
    exact stateEndsAt_pemOff_pos gld dice ht e
  unfold pem
  cases hs : d.pemState with
  | pemOff => exact hoff _ hs
  | pemOn =>
    rw [stateEndsAt_pemBody, handle, hs]
    simp only [pemOn]
    split
    · rename_i he
      exact ht.trans_lt he
    · exact hoff _ rfl
  | exitOff => exact absurd (.inl hs) hd
  | exitOn => exact absurd (.inr hs) hd

end VbDevice

/-! ## Verdicts that take an exit -/

section

variable [IsStrictOrderedRing K] {gld : Gld K} {dice : Dice K} {time : ℤ} {cap load : K} {d n : VbDevice K}

/-- The verdict overrules the device at the cap. -/
def Verdict.Curtails : Verdict K → Prop
  | .curtailed _ _ => True
  | _ => False

omit [IsStrictOrderedRing K] in
instance : (v : Verdict K) → Decidable v.Curtails
  | .curtailed _ _ => isTrue trivial
  | .kept _ _ | .off _ _ | .asks _ _ | .dropped => isFalse id

/-- Outside the comfort zone, a device that is not curtailed is left in the exit state that `pem` puts it in. -/
theorem exit_of_zone (hf : d.Fresh gld) (hz : d.gldDev.zone ≠ .comfort)
    (hv : ¬ (verdict gld cap load d (d.pem gld dice time)).Curtails) :
    (verdict gld cap load d (d.pem gld dice time)).next = some (d.pem gld dice time).1 ∧
      (d.pem gld dice time).1.pemState.IsExit ∧ (verdict gld cap load d (d.pem gld dice time)).request = none := by
  have ho := VbDevice.pem_outcome dice time hf
  generalize d.pem gld dice time = r at ho hv ⊢
  cases ho with
  | comfortOn _ _ h =>
    by_cases hl : load < cap
    · simp only [verdict, hl, if_true]
      exact ⟨rfl, .inr h, rfl⟩
    · simp only [verdict, hl, if_false] at hv
      exact absurd trivial hv
  | comfortOff _ _ h => exact ⟨rfl, .inl h, rfl⟩
  | keepOn h _ _ | waits h _ _ | asks h _ _ _ _ | idles h _ _ _ _ => exact absurd h hz

/-- Only such a device is left in an exit state. -/
theorem zone_of_exit (hf : d.Fresh gld) (hn : (verdict gld cap load d (d.pem gld dice time)).next = some n)
    (hx : n.pemState.IsExit) :
    d.gldDev.zone ≠ .comfort ∧ ¬ (verdict gld cap load d (d.pem gld dice time)).Curtails := by
  have ho := VbDevice.pem_outcome dice time hf
  generalize d.pem gld dice time = r at ho hn ⊢
  cases ho with
  | comfortOn hz _ h =>
    by_cases hl : load < cap
    · simp only [verdict, hl, if_true]
      exact ⟨by rw [hz]; decide, id⟩
    · simp only [verdict, hl, if_false] at hn
      cases hn
      exact absurd hx PemState.not_isExit_pemOff
  | keepOn _ h _ =>
    by_cases hl : load < cap
    · simp only [verdict, hl, if_true] at hn
      cases hn
      exact absurd (h ▸ hx) PemState.not_isExit_pemOn
    · simp only [verdict, hl, if_false] at hn
      cases hn
      exact absurd hx PemState.not_isExit_pemOff
  | comfortOff hz _ _ => exact ⟨by rw [hz]; decide, id⟩
  | waits _ _ _ => cases hn
  | asks _ _ _ h _ | idles _ _ _ h _ =>
    cases hn
    exact absurd (h ▸ hx) PemState.not_isExit_pemOff

end

/-! ## The law -/

namespace VirtualBattery

variable [FloorRing K] {vb : VirtualBattery K} {i : NextInput K}

/-- After the call every device in an exit state has the deadline 0. -/
def DropsDeadlines (vb : VirtualBattery K) (i : NextInput K) : Prop :=
  ∀ d ∈ (vb.after i).devices.rows, d.pemState.IsExit → d.stateEndsAt = 0

/-- No device takes a comfort exit: each is within its comfort limits at the call's readings, or overruled at the cap. -/
def NoExit (vb : VirtualBattery K) (i : NextInput K) : Prop :=
  ∀ p ∈ vb.verdicts i, p.1.gldDev.zone ≠ .comfort → p.2.Curtails

instance (vb : VirtualBattery K) (i : NextInput K) : Decidable (vb.DropsDeadlines i) :=
  inferInstanceAs (Decidable (∀ d ∈ (vb.after i).devices.rows, _ → _))

instance (vb : VirtualBattery K) (i : NextInput K) : Decidable (vb.NoExit i) :=
  inferInstanceAs (Decidable (∀ p ∈ vb.verdicts i, _ → _))

omit [FloorRing K] in
/-- No device is in an exit state, and the time is not negative. -/
structure NoneExited (vb : VirtualBattery K) : Prop where
  time : 0 ≤ vb.timeSec
  states : ∀ d ∈ vb.devices.rows, ¬ d.pemState.IsExit

variable [IsStrictOrderedRing K]

/-- A device is left in an exit state only by taking the exit. -/
theorem states_after (h : vb.NoExit i) : ∀ d ∈ (vb.after i).devices.rows, ¬ d.pemState.IsExit := by
  intro d hd hx
  obtain ⟨p, hp, n, hn, rfl⟩ := vb.mem_nextOn.1 hd
  obtain ⟨hmem, l, hl⟩ := mem_sweep hp
  have hnx : n.pemState.IsExit := by
    unfold grant VbDevice.requestAccepted at hx
    split at hx
    · split at hx
      · exact hx
      · exact absurd hx PemState.not_isExit_pemOn
    · exact hx
  rw [hl] at hn
  obtain ⟨hz, hv⟩ := zone_of_exit (fresh_updated hmem) hn hnx
  exact hv (hl ▸ h p hp hz)

omit [FloorRing K] [IsStrictOrderedRing K] in
theorem NoneExited.updated (h : vb.NoneExited) (hadm : vb.Admissible (.next i)) :
    0 ≤ (vb.updated i).timeSec ∧ ∀ d ∈ (vb.updated i).devices.rows, ¬ d.pemState.IsExit := by
  refine ⟨h.time.trans (le_timeSec_updated hadm.1), fun d hd => ?_⟩
  obtain ⟨e, he, -, hs, -⟩ := mem_updated_reports hadm.2 hd
  exact hs ▸ h.states e he

theorem dropsDeadlines_iff (h : vb.NoneExited) (hadm : vb.Admissible (.next i)) : vb.DropsDeadlines i ↔ vb.NoExit i := by
  obtain ⟨htime, hstates⟩ := h.updated hadm
  constructor
  · intro hdrop p hp hz
    by_contra hv
    obtain ⟨hmem, l, hl⟩ := mem_sweep hp
    rw [hl] at hv
    obtain ⟨hn, hx, hr⟩ := exit_of_zone (fresh_updated hmem) hz hv
    rw [← hl] at hn hr
    -- the device asked for nothing, so its row is the one `pem` returned
    have hnot : p.1.deviceId ∉ vb.grantedIds i := fun hg => by
      obtain ⟨r, hr'⟩ := vb.request_of_mem_grantedIds hp hg
      rw [hr] at hr'; cases hr'
    have hgrant : grant i.gld (vb.updated i).timeSec (vb.grantedIds i)
        (p.1.pem i.gld (i.dice p.1.deviceId) (vb.updated i).timeSec).1 = _ :=
      grant_of_notMem (by rw [deviceId_next_sweep hp hn]; exact hnot)
    have hends := hdrop _ (vb.mem_nextOn.2 ⟨p, hp, _, hn, hgrant⟩) hx
    exact (VbDevice.stateEndsAt_pem_pos i.gld (i.dice p.1.deviceId) htime (hstates p.1 hmem)).ne' hends
  · intro hno d hd hx
    exact absurd hx (states_after hno d hd)

theorem NoneExited.after (h : vb.NoneExited) (hadm : vb.Admissible (.next i)) (hno : vb.NoExit i) :
    (vb.after i).NoneExited := by
  refine ⟨?_, states_after hno⟩
  have htime : (vb.after i).timeSec = (vb.updated i).timeSec := vb.nextOn_spec.2.1
  rw [htime]
  exact (h.updated hadm).1

/-- In every run from devices in `PEM_OFF`, at times that do not go back and with updates that report readings, the
exits drop the deadlines if and only if no call takes an exit. And `update` is exact if and only if no number it is
given is 0, where it would fall back on another one. -/
theorem exits_drop_deadlines_iff (vb : VirtualBattery K) (is : List (NextInput K)) (ht : 0 ≤ vb.timeSec)
    (hoff : ∀ d ∈ vb.devices.rows, d.pemState = .pemOff)
    (hadm : AllSteps (total VirtualBattery.after) (fun vb i => vb.Admissible (.next i)) vb is) :
    (AllSteps (total VirtualBattery.after) DropsDeadlines vb is ↔ AllSteps (total VirtualBattery.after) NoExit vb is) ∧
      ∀ (gld : Gld K) (d : VbDevice K) (s : Option PemState) (e : Option ℤ) (p : Option K),
        VbDevice.UpdatesExactly gld d s e p ↔
          (e = some 0 → d.stateEndsAt = 0) ∧ (p = some 0 → ¬ 0 < d.kw ∧ d.lastPowerDrawKw = 0) := by
  refine ⟨?_, VbDevice.updatesExactly_iff⟩
  have hstart : vb.NoneExited := ⟨ht, fun d hd => by rw [hoff d hd]; exact PemState.not_isExit_pemOff⟩
  have hrun : AllSteps (total VirtualBattery.after) (fun vb i => vb.Admissible (.next i) ∧ vb.DropsDeadlines i) vb is ↔
      AllSteps (total VirtualBattery.after) (fun vb i => vb.Admissible (.next i) ∧ vb.NoExit i) vb is := by
    refine allSteps_iff_of_invariant (fun vb i (hinv : vb.NoneExited) => ?_) (fun vb i vb' hinv hp hs => ?_) is vb hstart
    · exact and_congr_right fun ha => dropsDeadlines_iff hinv ha
    · cases hs
      exact hinv.after hp.1 ((dropsDeadlines_iff hinv hp.1).1 hp.2)
  constructor
  · exact fun h => (hrun.1 (hadm.and h)).mono fun _ _ hc => hc.2
  · exact fun h => (hrun.2 (hadm.and h)).mono fun _ _ hc => hc.2

/-- The heater at its set point takes no exit. -/
theorem warm_heater_drops : AllSteps (total VirtualBattery.after) DropsDeadlines heaterSite.vb
    [heaterCall 30 100, heaterCall 60 100] :=
  (exits_drop_deadlines_iff heaterSite.vb [heaterCall 30 100, heaterCall 60 100] (by decide) (by decide +kernel)
    (by decide +kernel)).1.2 (by decide +kernel)

/-- A call at 30 that finds the heater below its comfort limit. -/
def coldCall : NextInput ℚ := { heaterCall 30 100 with gld := fun _ => ⟨119, 0, 0⟩ }

/-- The heater goes to `EXIT_ON` with the deadline 60 of the request it did not make, and `update` does not take the
deadline 0 over. -/
theorem cold_heater_keeps_deadline : (∀ d ∈ heaterSite.vb.devices.rows, d.pemState = .pemOff ∧ d.stateEndsAt = 0) ∧
    (heaterSite.vb.after coldCall).devices.rows.map (fun d => (d.pemState, d.stateEndsAt)) = [(.exitOn, 60)] ∧
    ¬ AllSteps (total VirtualBattery.after) DropsDeadlines heaterSite.vb [coldCall] ∧
    ¬ VbDevice.UpdatesExactly warm (VbDevice.init (.waterHeater (GldWaterHeater.init warm 1 130)) .pemOn 60 (9 / 2))
      (some .exitOn) (some 0) none := by
  refine ⟨by decide +kernel, by decide +kernel, by decide +kernel, fun h => ?_⟩
  exact absurd (h.stateEndsAt 0 rfl) (by decide +kernel)

end VirtualBattery

end Grip.Packetized
