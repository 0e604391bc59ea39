/-
How much load a call of `next` admits. `apply_pem_changes` counts the packets it keeps and stops at
the rounded setpoint, one packet late at most. `handle_power_requests` counts anew: it starts from
the measured loads, and a request is accepted only if the count stays within half a packet of the
setpoint. Each count keeps its own bound; a device that was told to run and draws nothing is in the
first count and not in the second.
-/
import GripAbsorption.Packetized.Next

namespace Grip.Packetized

open Grip.Base

universe u

variable {K : Type u} [Field K] [LinearOrder K]

/-! ## Packet sizes -/

/-- The largest packet a device can be given: its packet size, or a measured load, which `update`
takes over as the packet size. -/
def VbDevice.packet (d : VbDevice K) : K := max d.lastPowerDrawKw (max d.kw d.gldDev.kw)

/-- The largest packet size in the battery. -/
def VirtualBattery.largestPacket (vb : VirtualBattery K) : K := (vb.devices.rows.map VbDevice.packet).foldl max 0

omit [Field K] in
theorem le_foldl_max {a x : K} : ∀ {l : List K}, (x ≤ a ∨ x ∈ l) → x ≤ l.foldl max a
  | [], h => h.resolve_right List.not_mem_nil
  | b :: l, h => by
    refine le_foldl_max (l := l) ?_
    rcases h with h | h
    · exact .inl (h.trans (le_max_left ..))
    · rcases List.mem_cons.1 h with rfl | h
      exacts [.inl (le_max_right ..), .inr h]

/-- A size of a packet no larger than `p`. -/
def Within (p kw : K) : Prop := 0 < kw ∧ kw ≤ p

/-- Every packet size `update` can give the device is positive, and no larger than `p`. -/
structure VbDevice.Sized (gld : Gld K) (p : K) (d : VbDevice K) : Prop where
  fresh : d.Fresh gld
  last : Within p d.lastPowerDrawKw
  kw : d.kw ≤ p
  load : d.gldDev.kw ≤ p

/-- The packet an effect asks for or grants. -/
def Effect.Sized (p : K) : Effect K → Prop
  | .powerRequest r => Within p r.kw
  | .turnOn e => Within p e.kw
  | .turnOff _ => True

/-- A device and its effect are within `p`. -/
def SizedResult (gld : Gld K) (p : K) (r : VbDevice K × Option (Effect K)) : Prop :=
  r.1.Sized gld p ∧ ∀ e, r.2 = some e → e.Sized p

namespace VbDevice

variable {gld : Gld K} {dice : Dice K} {time : ℤ} {p : K} {d : VbDevice K}

theorem Sized.update (h : d.Sized gld p) (s : Option PemState) (e : Option ℤ) :
    (d.update gld s e none).Sized gld p := by
  have hload : (d.gldDev.updateFromGld gld).kw ≤ p := by
    rw [show d.gldDev.updateFromGld gld = d.gldDev from h.fresh]; exact h.load
  refine ⟨fresh_update .., ?_, hload, hload⟩
  change Within p (if d.kw > 0 then d.kw else d.lastPowerDrawKw)
  split
  · exact ⟨by assumption, h.kw⟩
  · exact h.last

theorem Sized.pemOff (h : d.Sized gld p) : SizedResult gld p (d.pemOff gld dice time) := by
  unfold VbDevice.pemOff
  split
  · exact ⟨h, fun e he => by cases he⟩
  · split
    · exact ⟨h.update .., fun e he => by cases he; exact h.last⟩
    · exact ⟨h.update .., fun e he => by cases he; trivial⟩

theorem Sized.checkExits (dice : Dice K) (h : d.Sized gld p) : SizedResult gld p (d.checkExits gld dice) := by
  unfold VbDevice.checkExits
  split
  · exact ⟨h.update .., fun e he => by cases he; exact h.last⟩
  · split
    · exact ⟨h.update .., fun e he => by cases he; trivial⟩
    · exact ⟨h, fun e he => by cases he⟩

theorem Sized.exitState {handler : Handler K} (hh : ∀ x : VbDevice K, x.Sized gld p → SizedResult gld p (handler x))
    (h : d.Sized gld p) (stat : Stat) : SizedResult gld p (d.exitState stat gld dice handler time) := by
  unfold VbDevice.exitState
  split
  · obtain ⟨hn, he⟩ := hh _ (h.update (some .pemOff) (some time))
    refine ⟨hn, fun e hx => ?_⟩
    cases hr : (handler (d.update gld (some .pemOff) (some time) none)).2 with
    | none => simp only [hr] at hx; cases hx; trivial
    | some x => simp only [hr] at hx; cases hx; exact he x hr
  · exact ⟨h, fun e he => by cases he⟩

theorem Sized.pemBody {handler : Handler K} (hh : ∀ x : VbDevice K, x.Sized gld p → SizedResult gld p (handler x))
    (h : d.Sized gld p) : SizedResult gld p (pemBody gld dice handler time d) := by
  have hhandle : SizedResult gld p (d.handle gld dice handler time) := by
    unfold VbDevice.handle
    cases d.pemState with
    | pemOff => exact h.pemOff
    | pemOn =>
      unfold VbDevice.pemOn
      simp only
      split
      · exact ⟨h, fun e he => by cases he; exact h.last⟩
      · exact hh _ (h.update ..)
    | exitOff => exact h.exitState hh _
    | exitOn => exact h.exitState hh _
  obtain ⟨hn, he⟩ := hhandle.1.checkExits dice
  refine ⟨hn, fun e hx => ?_⟩
  rcases Option.or_eq_some_iff.1 hx with hx | ⟨-, hx⟩
  · exact he e hx
  · exact hhandle.2 e hx

/-- `pem` gives no packet outside the device's sizes. -/
theorem Sized.pem (h : d.Sized gld p) : SizedResult gld p (d.pem gld dice time) :=
  Sized.pemBody (fun _ hx => Sized.pemBody (fun _ hy => ⟨hy, fun e he => by cases he⟩) hx) h

end VbDevice

/-! ## The two counts -/

section

variable [IsStrictOrderedRing K] {gld : Gld K} {dice : DeviceId → Dice K} {time : ℤ} {cap p : K}

omit [IsStrictOrderedRing K] in
theorem verdict_sized {load : K} {die : Dice K} {d : VbDevice K} (h : d.Sized gld p) :
    (∀ e, (verdict gld cap load d (d.pem gld die time)).turnOn = some e → load < cap ∧ e.kw ≤ p) ∧
      ∀ r, (verdict gld cap load d (d.pem gld die time)).request = some r → Within p r.kw := by
  have hr : SizedResult gld p (d.pem gld die time) := h.pem
  rcases hp : d.pem gld die time with ⟨n, _ | (r | e | e)⟩ <;> rw [hp] at hr
  · exact ⟨fun _ he => (by cases he), fun _ he => (by cases he)⟩
  · exact ⟨fun _ he => (by cases he), fun _ he => by cases he; exact hr.2 _ rfl⟩
  · by_cases hl : load < cap
    · simp only [verdict, hl, if_true]
      exact ⟨fun _ he => (by cases he; exact ⟨trivial, (hr.2 _ rfl).2⟩), fun _ he => (by cases he)⟩
    · simp only [verdict, hl, if_false]
      exact ⟨fun _ he => (by cases he), fun _ he => (by cases he)⟩
  · exact ⟨fun _ he => (by cases he), fun _ he => (by cases he)⟩

omit [LinearOrder K] [IsStrictOrderedRing K] in
theorem load_eq (v : Verdict K) : v.load = (v.turnOn.map TurnOn.kw).getD 0 := by
  cases v <;> rfl

/-- The packets kept under the cap overshoot it by one packet at most. -/
theorem sweep_load_le (dice : DeviceId → Dice K) (time : ℤ) (cap : K) :
    ∀ (load : K) (ds : List (VbDevice K)), (∀ d ∈ ds, d.Sized gld p) →
      load + (((sweep gld dice time cap load ds).filterMap (·.2.turnOn)).map TurnOn.kw).sum ≤ max load (cap + p)
  | load, [], _ => by simp [sweep]
  | load, d :: ds, h => by
    have hon : ∀ e, (verdict gld cap load d (d.pem gld (dice d.deviceId) time)).turnOn = some e →
        load < cap ∧ e.kw ≤ p := (verdict_sized (h d (List.mem_cons_self ..))).1
    have ih := sweep_load_le dice time cap (load + (verdict gld cap load d (d.pem gld (dice d.deviceId) time)).load) ds
      fun e he => h e (List.mem_cons_of_mem _ he)
    rw [sweep, List.filterMap_cons]
    rw [load_eq] at ih ⊢
    cases hv : (verdict gld cap load d (d.pem gld (dice d.deviceId) time)).turnOn with
    | none =>
      simpa [hv] using ih
    | some e =>
      -- the packet was kept below the cap, so it ends within one packet of it
      obtain ⟨hlt, hle⟩ := hon e hv
      have hover : load + e.kw ≤ cap + p := by linarith
      simp only [hv, Option.map_some, Option.getD_some, List.map_cons, List.sum_cons] at ih ⊢
      rw [← add_assoc]
      exact (ih.trans (max_le hover (le_refl _))).trans (le_max_right ..)

/-- A request that is admitted leaves the count at most half its size above the setpoint. -/
theorem admits_le {setpoint load kw : K} (hpos : 0 < kw) (h : VirtualBattery.admits setpoint load kw = true) :
    2 * (load + kw) ≤ 2 * setpoint + kw := by
  have hhalf := (admits_iff hpos).1 h
  linarith

/-- The count after the last admitted request. -/
theorem admitted_load_le {setpoint : K} (hp : 0 ≤ p) : ∀ (load : K) (rs : List (PowerRequest K)),
    (∀ r ∈ rs, Within p r.kw) → admitted setpoint load rs ≠ [] →
      2 * (load + ((admitted setpoint load rs).map PowerRequest.kw).sum) ≤ 2 * setpoint + p
  | _, [], _, hne => absurd rfl hne
  | load, r :: rs, h, hne => by
    obtain ⟨hpos, hle⟩ := h r (List.mem_cons_self ..)
    have hrest : ∀ q ∈ rs, Within p q.kw := fun q hq => h q (List.mem_cons_of_mem _ hq)
    rw [admitted_cons] at hne ⊢
    by_cases hok : VirtualBattery.admits setpoint load r.kw = true
    · have hcount := admits_le hpos hok
      rw [if_pos hok, List.map_cons, List.sum_cons, ← add_assoc]
      by_cases hnil : admitted setpoint (load + r.kw) rs = []
      · rw [hnil]
        simp only [List.map_nil, List.sum_nil, add_zero]
        linarith
      · -- a later request is admitted, and the bound is its
        exact admitted_load_le hp (load + r.kw) rs hrest hnil
    · rw [if_neg hok] at hne ⊢
      exact admitted_load_le hp load rs hrest hne

end

/-! ## The bound -/

namespace Effects

/-- The load of all `turn_on` effects. -/
def load (es : Effects K) : K := (es.turnOn.map TurnOn.kw).sum

end Effects

namespace VirtualBattery

variable [FloorRing K] [IsStrictOrderedRing K]

omit [FloorRing K] [IsStrictOrderedRing K] in
theorem sized_updated {vb : VirtualBattery K} {i : NextInput K}
    (hpos : ∀ d ∈ (vb.updated i).devices.rows, 0 < d.lastPowerDrawKw) {d : VbDevice K}
    (hd : d ∈ (vb.updated i).devices.rows) : d.Sized i.gld (vb.updated i).largestPacket := by
  have hmax : d.packet ≤ (vb.updated i).largestPacket := le_foldl_max (.inr (List.mem_map_of_mem hd))
  have hkw := (le_max_right ..).trans hmax
  exact ⟨fresh_updated hd, ⟨hpos d hd, (le_max_left ..).trans hmax⟩, (le_max_left ..).trans hkw,
    (le_max_right ..).trans hkw⟩

/-- The packets `apply_pem_changes` keeps stay within the setpoint, 0.5 and one packet. -/
theorem applyPemChanges_load_le (vb : VirtualBattery K) (i : NextInput K) (hsp : 0 ≤ (vb.updated i).setpoint)
    (hpos : ∀ d ∈ (vb.updated i).devices.rows, 0 < d.lastPowerDrawKw) :
    ((vb.updated i).applyPemChanges i.gld i.dice).2.1.load ≤
      (vb.updated i).setpoint + 1 / 2 + (vb.updated i).largestPacket := by
  have hp : 0 ≤ (vb.updated i).largestPacket := le_foldl_max (.inl (le_refl _))
  have hround := pyRound_sub_le (vb.updated i).setpoint
  have hsweep := sweep_load_le i.dice (vb.updated i).timeSec (pyRound (vb.updated i).setpoint : K) 0 _
    fun d hd => sized_updated hpos hd
  rw [zero_add] at hsweep
  rw [(applyPemChanges_eq i.gld i.dice (vb.updated i)).2.1]
  refine (show Effects.load _ ≤ _ from hsweep).trans (max_le ?_ ?_)
  · linarith
  · linarith

/-- Once a request is accepted, the load counted is within half a packet of the setpoint. -/
theorem totalload_nextOn_le (vb : VirtualBattery K) (i : NextInput K)
    (hpos : ∀ d ∈ (vb.updated i).devices.rows, 0 < d.lastPowerDrawKw) (hne : vb.acceptedRequests i ≠ []) :
    (vb.nextOn i).2.2 ≤ (vb.updated i).setpoint + (vb.updated i).largestPacket / 2 := by
  have hp : 0 ≤ (vb.updated i).largestPacket := le_foldl_max (.inl (le_refl _))
  have hadm : vb.admittedRequests i ≠ [] := fun hnil => hne (by rw [acceptedRequests_eq, hnil]; rfl)
  rw [vb.totalload_nextOn hadm]
  have hwithin : ∀ r ∈ shuffle i.draws ((vb.verdicts i).filterMap (·.2.request)),
      Within (vb.updated i).largestPacket r.kw := by
    intro r hr
    obtain ⟨q, hq, hqr⟩ := List.mem_filterMap.1 (mem_shuffle.1 hr)
    obtain ⟨hd, l, hl⟩ := mem_sweep hq
    rw [hl] at hqr
    exact (verdict_sized (sized_updated hpos hd)).2 r hqr
  have hle : 2 * (measuredLoad ((vb.verdicts i).filterMap (·.2.next)) +
      ((vb.admittedRequests i).map PowerRequest.kw).sum) ≤ 2 * (vb.updated i).setpoint + (vb.updated i).largestPacket :=
    admitted_load_le hp _ _ hwithin hadm
  linarith

/-- What a call admits, in a battery with setpoint at least 0 and positive packet sizes: the packets
that `apply_pem_changes` keeps stay within the setpoint, 0.5 and one packet; once a request is
accepted the load the call counts is within half a packet of the setpoint; and the load turned on is
within the setpoint, 0.5 and one packet unless it is more than the load counted. -/
theorem nextOn_load_le (vb : VirtualBattery K) (i : NextInput K) (hsp : 0 ≤ (vb.updated i).setpoint)
    (hpos : ∀ d ∈ (vb.updated i).devices.rows, 0 < d.lastPowerDrawKw) :
    let sp := (vb.updated i).setpoint
    let p := (vb.updated i).largestPacket
    ((vb.updated i).applyPemChanges i.gld i.dice).2.1.load ≤ sp + 1 / 2 + p ∧
      (vb.acceptedRequests i ≠ [] → (vb.nextOn i).2.2 ≤ sp + p / 2) ∧
      ((vb.nextOn i).2.1.load ≤ sp + 1 / 2 + p ∨
        (vb.nextOn i).2.2 < (vb.nextOn i).2.1.load ∧ (vb.nextOn i).2.2 ≤ sp + p / 2) := by
  intro sp p
  have hp : 0 ≤ p := le_foldl_max (.inl (le_refl _))
  have hkept : ((vb.updated i).applyPemChanges i.gld i.dice).2.1.load ≤ sp + 1 / 2 + p :=
    applyPemChanges_load_le vb i hsp hpos
  have hcounted : vb.acceptedRequests i ≠ [] → (vb.nextOn i).2.2 ≤ sp + p / 2 := totalload_nextOn_le vb i hpos
  refine ⟨hkept, hcounted, ?_⟩
  by_cases hne : vb.acceptedRequests i = []
  · -- nothing is turned on but what `apply_pem_changes` keeps
    left
    have heff : (vb.nextOn i).2.1.load = ((vb.updated i).applyPemChanges i.gld i.dice).2.1.load := by
      unfold Effects.load
      rw [vb.nextOn_spec.2.2.1, hne, List.append_nil, (applyPemChanges_eq i.gld i.dice (vb.updated i)).2.1]
      rfl
    rw [heff]; exact hkept
  · have hle := hcounted hne
    rcases lt_or_ge (vb.nextOn i).2.2 (vb.nextOn i).2.1.load with hlt | hge
    · exact .inr ⟨hlt, hle⟩
    · left; linarith

/-! ## Commands the measurement does not show yet -/

/-- A heater at its set point that draws nothing, with a packet of 4 kW. -/
def idleHeater (customer : ℕ) (state : PemState) (stateEndsAt : ℤ) : VbDevice ℚ :=
  VbDevice.init (.waterHeater (GldWaterHeater.init warm customer 130)) state stateEndsAt 4

/-- Two heaters with running packets and one that may ask. -/
def lagging : VirtualBattery ℚ :=
  init warm [idleHeater 1 .pemOn 180, idleHeater 2 .pemOn 180, idleHeater 3 .pemOff 0]

/-- With one running packet the bound holds. -/
theorem heater_load_le : (heaterSite.vb.nextOn (heaterCall 30 5)).2.1.load ≤ 5 + 1 / 2 + 9 / 2 ∨
    (heaterSite.vb.nextOn (heaterCall 30 5)).2.2 < (heaterSite.vb.nextOn (heaterCall 30 5)).2.1.load ∧
      (heaterSite.vb.nextOn (heaterCall 30 5)).2.2 ≤ 5 + 9 / 2 / 2 := by
  have hsp : (heaterSite.vb.updated (heaterCall 30 5)).setpoint = 5 := by decide +kernel
  have hp : (heaterSite.vb.updated (heaterCall 30 5)).largestPacket = 9 / 2 := by decide +kernel
  obtain ⟨-, -, h⟩ := nextOn_load_le heaterSite.vb (heaterCall 30 5) (by decide +kernel) (by decide +kernel)
  simp only [hsp, hp] at h
  exact h

/-- At setpoint 5 the two running packets of 4 kW are kept, measured as 0, and a third is granted. -/
theorem lagging_load_exceeds :
    0 ≤ (lagging.updated (heaterCall 30 5)).setpoint ∧
      (∀ d ∈ (lagging.updated (heaterCall 30 5)).devices.rows, 0 < d.lastPowerDrawKw) ∧
      ¬ (lagging.nextOn (heaterCall 30 5)).2.1.load ≤
        (lagging.updated (heaterCall 30 5)).setpoint + 1 / 2 + (lagging.updated (heaterCall 30 5)).largestPacket := by
  decide +kernel

end VirtualBattery

end Grip.Packetized
