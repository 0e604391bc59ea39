/-
The setpoint cap of `apply_pem_changes`. Of the devices whose `pem` effect is `turn_on`, those that
are kept come first in table order: a device is kept exactly while the packets kept before it sum to
less than the rounded setpoint, so the load returned is at most one packet late. The devices after
them are turned off, and every other effect passes.
-/
import GripAbsorption.Packetized.Step

namespace Grip.Packetized

open Grip.Base

universe u

variable {K : Type u} [Field K] [LinearOrder K]

/-! ## Amounts under a cap -/

/-- How many of the amounts are taken from a running load on, while it is below the cap. -/
def countUnder (cap : K) : K → List K → ℕ
  | _, [] => 0
  | load, w :: ws => if load < cap then countUnder cap (load + w) ws + 1 else 0

theorem countUnder_le (cap : K) : ∀ (load : K) (ws : List K), countUnder cap load ws ≤ ws.length
  | _, [] => le_rfl
  | load, w :: ws => by
    rw [countUnder]
    split
    · exact Nat.succ_le_succ (countUnder_le cap (load + w) ws)
    · exact Nat.zero_le _

theorem countUnder_of_not_lt {cap load : K} (h : ¬ load < cap) (ws : List K) : countUnder cap load ws = 0 := by
  cases ws with
  | nil => rfl
  | cons w ws => rw [countUnder, if_neg h]

/-- An amount is taken exactly when those taken before it leave the load below the cap. -/
theorem lt_countUnder_iff (cap : K) : ∀ (load : K) {ws : List K} {i : ℕ}, i < ws.length →
    (i < countUnder cap load ws ↔ load + ((ws.take (countUnder cap load ws)).take i).sum < cap)
  | _, [], _, h => absurd h (Nat.not_lt_zero _)
  | load, w :: ws, i, h => by
    rw [countUnder]
    split
    · rename_i hlt
      cases i with
      | zero => simpa using hlt
      | succ i =>
        have ih := lt_countUnder_iff cap (load + w) (Nat.lt_of_succ_lt_succ h)
        rw [Nat.succ_lt_succ_iff, ih, List.take_succ_cons, List.take_succ_cons, List.sum_cons, add_assoc]
    · rename_i hge
      simpa using hge

/-- The load goes over the cap by less than the last amount taken. -/
theorem sum_countUnder_lt [IsStrictOrderedRing K] (cap : K) : ∀ (load : K) (ws : List K),
    countUnder cap load ws = 0 ∨ ∃ w, (ws.take (countUnder cap load ws)).getLast? = some w ∧
      load + (ws.take (countUnder cap load ws)).sum < cap + w
  | _, [] => .inl rfl
  | load, w :: ws => by
    rw [countUnder]
    split
    · rename_i hlt
      rw [List.take_succ_cons, List.sum_cons, ← add_assoc]
      rcases sum_countUnder_lt cap (load + w) ws with h0 | ⟨v, hv, hsum⟩
      · rw [h0]
        exact .inr ⟨w, rfl, by simpa using hlt⟩
      · exact .inr ⟨v, by rw [List.getLast?_cons, hv]; rfl, hsum⟩
    · exact .inl rfl

/-! ## The devices that would run -/

/-- A device whose `pem` effect is `turn_on`, with the device and the effect `pem` returns. -/
structure Starter (K : Type u) where
  device : VbDevice K
  next : VbDevice K
  effect : TurnOn K

def VbDevice.starter (gld : Gld K) (dice : DeviceId → Dice K) (time : ℤ) (d : VbDevice K) : Option (Starter K) :=
  match d.pem gld (dice d.deviceId) time with
  | (n, some (.turnOn e)) => some ⟨d, n, e⟩
  | _ => none

variable {gld : Gld K} {dice : DeviceId → Dice K} {time : ℤ} {cap : K}

theorem starter_of_turnOn {d n : VbDevice K} {e : TurnOn K} (h : d.pem gld (dice d.deviceId) time = (n, some (.turnOn e))) :
    d.starter gld dice time = some ⟨d, n, e⟩ := by
  rw [VbDevice.starter, h]

/-- A device that would not run adds nothing and is not curtailed. -/
theorem verdict_of_starter_none {d : VbDevice K} (h : d.starter gld dice time = none) (cap load : K) :
    (verdict gld cap load d (d.pem gld (dice d.deviceId) time)).turnOn = none ∧
      (verdict gld cap load d (d.pem gld (dice d.deviceId) time)).load = 0 := by
  unfold VbDevice.starter at h
  rcases hp : d.pem gld (dice d.deviceId) time with ⟨n, _ | (r | e | e)⟩ <;> rw [hp] at h
  · exact ⟨rfl, rfl⟩
  · exact ⟨rfl, rfl⟩
  · cases h
  · exact ⟨rfl, rfl⟩

theorem exists_of_starter {d : VbDevice K} {s : Starter K} (h : d.starter gld dice time = some s) :
    s.device = d ∧ d.pem gld (dice d.deviceId) time = (s.next, some (.turnOn s.effect)) := by
  unfold VbDevice.starter at h
  rcases hp : d.pem gld (dice d.deviceId) time with ⟨n, _ | (r | e | e)⟩ <;> rw [hp] at h <;> cases h
  exact ⟨rfl, rfl⟩

theorem sweep_cons {load : K} {d : VbDevice K} (ds : List (VbDevice K)) {v : Verdict K}
    (hv : verdict gld cap load d (d.pem gld (dice d.deviceId) time) = v) :
    (sweep gld dice time cap load (d :: ds)).filterMap (·.2.turnOn) =
        v.turnOn.toList ++ (sweep gld dice time cap (load + v.load) ds).filterMap (·.2.turnOn) ∧
      ((sweep gld dice time cap load (d :: ds)).map (·.2.load)).sum =
        v.load + ((sweep gld dice time cap (load + v.load) ds).map (·.2.load)).sum ∧
      ∀ p, p ∈ sweep gld dice time cap load (d :: ds) ↔ p = (d, v) ∨ p ∈ sweep gld dice time cap (load + v.load) ds := by
  subst hv
  simp only [sweep, List.filterMap_eq_flatMap_toList, List.flatMap_cons, List.map_cons, List.sum_cons, List.mem_cons,
    implies_true, and_self]

/-- A sweep keeps the first `n` of the starters `ss` and curtails the rest. -/
structure SweepKeeps (gld : Gld K) (dice : DeviceId → Dice K) (time : ℤ) (cap load : K) (ds : List (VbDevice K))
    (ss : List (Starter K)) (n : ℕ) : Prop where
  turnOn : (sweep gld dice time cap load ds).filterMap (·.2.turnOn) = (ss.take n).map (·.effect)
  sum : ((sweep gld dice time cap load ds).map (·.2.load)).sum = ((ss.take n).map (·.effect.kw)).sum
  kept : ∀ s ∈ ss.take n, (s.device, .kept s.next s.effect) ∈ sweep gld dice time cap load ds
  cut : ∀ s ∈ ss.drop n, (s.device, .curtailed (s.device.update gld (some .pemOff) none none) s.device.turnOff) ∈
    sweep gld dice time cap load ds

namespace SweepKeeps

variable {load : K} {d : VbDevice K} {ds : List (VbDevice K)} {s : Starter K} {ss : List (Starter K)} {n : ℕ}

/-- A device that would not run changes nothing. -/
theorem skip (h : SweepKeeps gld dice time cap load ds ss n) (hs : d.starter gld dice time = none) :
    SweepKeeps gld dice time cap load (d :: ds) ss n := by
  obtain ⟨hon, hload⟩ := verdict_of_starter_none hs cap load
  obtain ⟨hon', hsum, hmem⟩ := @sweep_cons K _ _ gld dice time cap load d ds _ rfl
  rw [hon, hload, add_zero] at hon'
  rw [hload, add_zero, zero_add] at hsum
  rw [hload, add_zero] at hmem
  exact ⟨hon'.trans h.turnOn, hsum.trans h.sum, fun s hm => (hmem _).2 (.inr (h.kept s hm)),
    fun s hm => (hmem _).2 (.inr (h.cut s hm))⟩

/-- Under the cap a starter is the next one kept. -/
theorem keep (h : SweepKeeps gld dice time cap (load + s.effect.kw) ds ss n) (hs : d.starter gld dice time = some s)
    (hlt : load < cap) : SweepKeeps gld dice time cap load (d :: ds) (s :: ss) (n + 1) := by
  obtain ⟨rfl, hp⟩ := exists_of_starter hs
  have hv : verdict gld cap load s.device (s.device.pem gld (dice s.device.deviceId) time) = .kept s.next s.effect := by
    rw [hp, verdict, if_pos hlt]
  obtain ⟨hon, hsum, hmem⟩ := sweep_cons ds hv
  refine ⟨hon.trans (congrArg (s.effect :: ·) h.turnOn), ?_, fun t hm => ?_, fun t hm => (hmem _).2 (.inr (h.cut t hm))⟩
  · rw [List.take_succ_cons, List.map_cons, List.sum_cons, ← h.sum]
    exact hsum
  · rw [List.take_succ_cons] at hm
    rcases List.mem_cons.1 hm with rfl | hm
    · exact (hmem _).2 (.inl rfl)
    · exact (hmem _).2 (.inr (h.kept t hm))

/-- At the cap a starter is curtailed, and the load stays at the cap. -/
theorem curtail (h : SweepKeeps gld dice time cap load ds ss 0) (hs : d.starter gld dice time = some s)
    (hlt : ¬ load < cap) : SweepKeeps gld dice time cap load (d :: ds) (s :: ss) 0 := by
  obtain ⟨rfl, hp⟩ := exists_of_starter hs
  have hv : verdict gld cap load s.device (s.device.pem gld (dice s.device.deviceId) time) =
      .curtailed (s.device.update gld (some .pemOff) none none) s.device.turnOff := by
    rw [hp, verdict, if_neg hlt]
  obtain ⟨hon, hsum, hmem⟩ := sweep_cons ds hv
  rw [show Verdict.load (.curtailed _ _) = (0 : K) from rfl, add_zero] at hon hmem hsum
  rw [zero_add] at hsum
  refine ⟨hon.trans h.turnOn, hsum.trans h.sum, fun t hm => absurd hm List.not_mem_nil, fun t hm => ?_⟩
  rcases List.mem_cons.1 hm with rfl | hm
  · exact (hmem _).2 (.inl rfl)
  · exact (hmem _).2 (.inr (h.cut t hm))

end SweepKeeps

variable (gld dice time cap) in
/-- The sweep keeps the first starters, as many as are under the cap, and curtails the rest. -/
theorem sweep_starters : ∀ (load : K) (ds : List (VbDevice K)),
    SweepKeeps gld dice time cap load ds (ds.filterMap (VbDevice.starter gld dice time))
      (countUnder cap load ((ds.filterMap (VbDevice.starter gld dice time)).map (·.effect.kw)))
  | _, [] => ⟨rfl, rfl, fun _ h => absurd h List.not_mem_nil, fun _ h => absurd h List.not_mem_nil⟩
  | load, d :: ds => by
    cases hs : d.starter gld dice time with
    | none =>
      rw [List.filterMap_cons_none hs]
      exact (sweep_starters load ds).skip hs
    | some s =>
      rw [List.filterMap_cons_some hs, List.map_cons, countUnder]
      by_cases hlt : load < cap
      · rw [if_pos hlt]
        exact (sweep_starters (load + s.effect.kw) ds).keep hs hlt
      · have hrest := sweep_starters load ds
        rw [countUnder_of_not_lt hlt] at hrest
        rw [if_neg hlt]
        exact hrest.curtail hs hlt

/-! ## What apply_pem_changes returns -/

namespace VirtualBattery

variable [FloorRing K]

/-- The devices that would run, in table order. -/
def starters (gld : Gld K) (dice : DeviceId → Dice K) (vb : VirtualBattery K) : List (Starter K) :=
  vb.devices.rows.filterMap (VbDevice.starter gld dice vb.timeSec)

/-- The request a device makes. -/
def asks (gld : Gld K) (dice : DeviceId → Dice K) (vb : VirtualBattery K) (d : VbDevice K) : Option (PowerRequest K) :=
  match (d.pem gld (dice d.deviceId) vb.timeSec).2 with
  | some (.powerRequest r) => some r
  | _ => none

/-- The `turn_off` effect a device gets when the devices `cut` are curtailed. -/
def stops (gld : Gld K) (dice : DeviceId → Dice K) (vb : VirtualBattery K) (cut : List DeviceId) (d : VbDevice K) :
    Option (TurnOff K) :=
  match (d.pem gld (dice d.deviceId) vb.timeSec).2 with
  | some (.turnOff e) => some e
  | some (.turnOn _) => if d.deviceId ∈ cut then some d.turnOff else none
  | _ => none

/-- `apply_pem_changes` keeps the first `n` of the devices that would run. -/
structure KeepsFirst (gld : Gld K) (dice : DeviceId → Dice K) (vb : VirtualBattery K) (n : ℕ) : Prop where
  /-- a device is kept exactly when the packets kept before it are under the cap -/
  kept_iff : ∀ i < (vb.starters gld dice).length,
    i < n ↔ ((((vb.starters gld dice).take n).take i).map (·.effect.kw)).sum < (pyRound vb.setpoint : K)
  turnOn : (vb.applyPemChanges gld dice).2.1.turnOn = ((vb.starters gld dice).take n).map (·.effect)
  kept : ∀ s ∈ (vb.starters gld dice).take n,
    (vb.applyPemChanges gld dice).1.devices.find? s.device.deviceId = some s.next
  load : (vb.applyPemChanges gld dice).2.2 = (((vb.starters gld dice).take n).map (·.effect.kw)).sum
  load_lt : (vb.applyPemChanges gld dice).2.2 = 0 ∨ ∃ s, ((vb.starters gld dice).take n).getLast? = some s ∧
    (vb.applyPemChanges gld dice).2.2 < pyRound vb.setpoint + s.effect.kw
  /-- the devices after them are off -/
  curtailed : ∀ s ∈ (vb.starters gld dice).drop n, s.device.turnOff ∈ (vb.applyPemChanges gld dice).2.1.turnOff ∧
    ∃ d, (vb.applyPemChanges gld dice).1.devices.find? s.device.deviceId = some d ∧ d.pemState = .pemOff
  requests : (vb.applyPemChanges gld dice).2.1.powerRequests = vb.devices.rows.filterMap (vb.asks gld dice)
  turnOff : (vb.applyPemChanges gld dice).2.1.turnOff = vb.devices.rows.filterMap
    (vb.stops gld dice (((vb.starters gld dice).drop n).map (·.device.deviceId)))
  /-- every other effect passes with its device -/
  passes : ∀ d ∈ vb.devices.rows, ∀ next e, d.pem gld (dice d.deviceId) vb.timeSec = (next, some e) → e.on = false →
    (vb.applyPemChanges gld dice).1.devices.find? d.deviceId = some next

variable {vb : VirtualBattery K}

/-- The row of a device in the new table, by its verdict. -/
theorem find?_of_mem_pemSweep {d n : VbDevice K} {v : Verdict K} (h : (d, v) ∈ vb.pemSweep gld dice)
    (hn : v.next = some n) : (vb.applyPemChanges gld dice).1.devices.find? d.deviceId = some n := by
  refine Table.find?_eq_some.2 ⟨?_, deviceId_next_sweep (p := (d, v)) h hn⟩
  rw [(applyPemChanges_eq gld dice vb).1]
  exact List.mem_filterMap.2 ⟨(d, v), h, hn⟩

theorem verdict_unique {d d' : VbDevice K} {v v' : Verdict K} (h : (d, v) ∈ vb.pemSweep gld dice)
    (h' : (d', v') ∈ vb.pemSweep gld dice) (hid : d.deviceId = d'.deviceId) : v = v' :=
  congrArg Prod.snd (List.inj_on_of_nodup_map (nodup_pemSweep gld dice vb) h h' hid)

theorem filterMap_pemSweep {β : Type u} {f : Verdict K → Option β} {g : VbDevice K → Option β}
    (h : ∀ p ∈ vb.pemSweep gld dice, f p.2 = g p.1) :
    (vb.pemSweep gld dice).filterMap (fun p => f p.2) = vb.devices.rows.filterMap g := by
  have hfst : vb.devices.rows = (vb.pemSweep gld dice).map Prod.fst := (map_fst_sweep ..).symm
  rw [hfst, List.filterMap_map]
  exact List.filterMap_congr h

theorem request_verdict {p : VbDevice K × Verdict K} (hp : p ∈ vb.pemSweep gld dice) :
    p.2.request = vb.asks gld dice p.1 := by
  obtain ⟨-, l, hl⟩ := mem_sweep hp
  rw [hl]
  unfold asks
  rcases p.1.pem gld (dice p.1.deviceId) vb.timeSec with ⟨next, _ | (r | e | e)⟩
  · rfl
  · rfl
  · change (if l < (pyRound vb.setpoint : K) then Verdict.kept next e else _).request = none
    split <;> rfl
  · rfl

/-- A starter is curtailed exactly when its id is among those after the first `n`. -/
theorem turnOff_verdict {n : ℕ} {p : VbDevice K × Verdict K} (hp : p ∈ vb.pemSweep gld dice)
    (hkept : ∀ s ∈ (vb.starters gld dice).take n, (s.device, Verdict.kept s.next s.effect) ∈ vb.pemSweep gld dice)
    (hcut : ∀ s ∈ (vb.starters gld dice).drop n,
      (s.device, Verdict.curtailed (s.device.update gld (some .pemOff) none none) s.device.turnOff) ∈ vb.pemSweep gld dice) :
    p.2.turnOff = vb.stops gld dice (((vb.starters gld dice).drop n).map (·.device.deviceId)) p.1 := by
  obtain ⟨d, v⟩ := p
  obtain ⟨hd, l, hl⟩ := mem_sweep hp
  dsimp only at hd hl ⊢
  unfold stops
  rcases hpem : d.pem gld (dice d.deviceId) vb.timeSec with ⟨next, _ | (r | e | e)⟩
  · rw [hl, hpem]; rfl
  · rw [hl, hpem]; rfl
  · have hs : (⟨d, next, e⟩ : Starter K) ∈ vb.starters gld dice :=
      List.mem_filterMap.2 ⟨d, hd, starter_of_turnOn hpem⟩
    rw [← List.take_append_drop n (vb.starters gld dice), List.mem_append] at hs
    simp only
    by_cases hmem : d.deviceId ∈ ((vb.starters gld dice).drop n).map (·.device.deviceId)
    · obtain ⟨s, hsm, hsd⟩ := List.mem_map.1 hmem
      obtain ⟨d', hd', hs'⟩ := List.mem_filterMap.1 (List.mem_of_mem_drop hsm)
      obtain rfl : s.device = d := vb.devices.key_inj ((exists_of_starter hs').1 ▸ hd') hd hsd
      rw [if_pos hmem, verdict_unique hp (hcut s hsm) rfl]
      rfl
    · have hs' := hs.resolve_right fun h => hmem (List.mem_map.2 ⟨_, h, rfl⟩)
      rw [if_neg hmem, verdict_unique hp (hkept _ hs') rfl]
      rfl
  · rw [hl, hpem]; rfl

/-- `apply_pem_changes` keeps a prefix of the devices that would run, as long as it is under the cap. -/
theorem applyPemChanges_keepsFirst [IsStrictOrderedRing K] (gld : Gld K) (dice : DeviceId → Dice K) (vb : VirtualBattery K) :
    ∃ n ≤ (vb.starters gld dice).length, vb.KeepsFirst gld dice n := by
  obtain ⟨hon, hsum, hkept, hcut⟩ := sweep_starters gld dice vb.timeSec (pyRound vb.setpoint : K) 0 vb.devices.rows
  obtain ⟨hrows, heff, hload⟩ := applyPemChanges_eq gld dice vb
  set n := countUnder (pyRound vb.setpoint : K) 0 ((vb.starters gld dice).map (·.effect.kw)) with hn
  refine ⟨n, (countUnder_le ..).trans (by rw [List.length_map]), ?_⟩
  have hld : (vb.applyPemChanges gld dice).2.2 = (((vb.starters gld dice).take n).map (·.effect.kw)).sum := hload.trans hsum
  refine ⟨fun i hi => ?_, heff ▸ hon, fun s hs => find?_of_mem_pemSweep (hkept s hs) rfl, hld, ?_, fun s hs => ?_, ?_, ?_,
    fun d hd next e hp he => ?_⟩
  · have hi : i < ((vb.starters gld dice).map (·.effect.kw)).length := by rwa [List.length_map]
    have h := lt_countUnder_iff (pyRound vb.setpoint : K) 0 hi
    rw [List.map_take, List.map_take, ← zero_add (List.sum _)]
    exact h
  · rw [hld, List.map_take, ← zero_add (List.sum _)]
    rcases sum_countUnder_lt (pyRound vb.setpoint : K) 0 ((vb.starters gld dice).map (·.effect.kw)) with h0 | ⟨w, hw, hlt⟩
    · rw [hn, h0]
      exact .inl (by simp)
    · rw [← List.map_take, List.getLast?_map] at hw
      obtain ⟨s, hs, rfl⟩ := Option.map_eq_some_iff.1 hw
      exact .inr ⟨s, hs, hlt⟩
  · refine ⟨?_, s.device.update gld (some .pemOff) none none, find?_of_mem_pemSweep (hcut s hs) rfl, by simp⟩
    rw [heff]
    exact List.mem_filterMap.2 ⟨_, hcut s hs, rfl⟩
  · rw [heff]
    exact filterMap_pemSweep fun p hp => request_verdict hp
  · rw [heff]
    exact filterMap_pemSweep fun p hp => turnOff_verdict hp hkept hcut
  · obtain ⟨v, hv⟩ := exists_mem_sweep gld dice vb.timeSec (pyRound vb.setpoint : K) 0 hd
    obtain ⟨-, l, hl⟩ := mem_sweep hv
    refine find?_of_mem_pemSweep hv ?_
    dsimp only at hl
    rw [hl, hp]
    cases e with
    | turnOn e => cases he
    | powerRequest r => rfl
    | turnOff e => rfl

/-- Three heaters with running packets of 4 kW under a setpoint of 5 kW. -/
def threeRunning : VirtualBattery ℚ :=
  let gld : Gld ℚ := fun _ => ⟨130, 4, 0⟩
  { init gld ([1, 2, 3].map fun n => .init (.waterHeater (.init gld n 130)) .pemOn 180 4) with setpoint := 5, timeSec := 30 }

/-- Two of them are kept, the second one over the setpoint. -/
theorem threeRunning_keepsFirst :
    (∃ n ≤ (threeRunning.starters (fun _ => ⟨130, 4, 0⟩) fun _ _ _ => true).length,
      threeRunning.KeepsFirst (fun _ => ⟨130, 4, 0⟩) (fun _ _ _ => true) n) ∧
    (threeRunning.applyPemChanges (fun _ => ⟨130, 4, 0⟩) fun _ _ _ => true).2.2 = 8 :=
  ⟨applyPemChanges_keepsFirst (fun _ => ⟨130, 4, 0⟩) (fun _ _ _ => true) threeRunning, by decide +kernel⟩

end VirtualBattery

end Grip.Packetized
