/-
One control step of a virtual battery as lists: the sweep of `apply_pem_changes` gives every
device a verdict under the running load, and the admission of `handle_power_requests` decides
every request at its running load. The battery a step leaves and the effects it returns are read
off the two (`applyPemChanges_eq`, `handlePowerRequests_eq`, `packetize_eq`).
-/
import GripAbsorption.Packetized.Battery

namespace Grip.Packetized

open Grip.Base

universe u

variable {K : Type u} [Field K] [LinearOrder K]

/-! ## Ids -/

namespace VbDevice

variable {gld : Gld K} {dice : Dice K} {time : ℤ}

theorem deviceId_checkExits (d : VbDevice K) : (d.checkExits gld dice).1.deviceId = d.deviceId := by
  unfold checkExits
  split
  · exact deviceId_update ..
  · split
    · exact deviceId_update ..
    · rfl

theorem deviceId_pemOff (d : VbDevice K) : (d.pemOff gld dice time).1.deviceId = d.deviceId := by
  unfold pemOff
  split
  · rfl
  · split <;> exact deviceId_update ..

theorem deviceId_pemBody {h : Handler K} (d : VbDevice K)
    (hh : (h (d.reset gld time)).1.deviceId = d.deviceId) : (pemBody gld dice h time d).1.deviceId = d.deviceId := by
  have hexit : ∀ stat, (d.exitState stat gld dice h time).1.deviceId = d.deviceId := fun stat => by
    unfold exitState
    split
    · exact hh
    · rfl
  refine (deviceId_checkExits (d.handle gld dice h time).1).trans ?_
  unfold handle
  cases d.pemState with
  | pemOff => exact deviceId_pemOff d
  | pemOn =>
    simp only [pemOn]
    split
    · rfl
    · exact hh
  | exitOff => exact hexit _
  | exitOn => exact hexit _

variable (gld dice time) in
@[simp] theorem deviceId_pem (d : VbDevice K) : (d.pem gld dice time).1.deviceId = d.deviceId := by
  have hr : (d.reset gld time).deviceId = d.deviceId := deviceId_update ..
  refine deviceId_pemBody d ((deviceId_checkExits _).trans ?_)
  exact (deviceId_pemOff _).trans hr

@[simp] theorem deviceId_requestAccepted (d : VbDevice K) : (d.requestAccepted gld time).1.deviceId = d.deviceId := by
  unfold requestAccepted
  split
  · rfl
  · exact deviceId_update ..

end VbDevice

/-! ## The sweep -/

/-- What `apply_pem_changes` does with one device. -/
inductive Verdict (K : Type u)
  /-- a `turn_on` under the cap -/
  | kept (next : VbDevice K) (e : TurnOn K)
  /-- a `turn_on` at the cap -/
  | curtailed (next : VbDevice K) (e : TurnOff K)
  | off (next : VbDevice K) (e : TurnOff K)
  | asks (next : VbDevice K) (r : PowerRequest K)
  /-- no effect: not written to the new table -/
  | dropped

namespace Verdict

def next : Verdict K → Option (VbDevice K)
  | kept n _ | curtailed n _ | off n _ | asks n _ => some n
  | dropped => none

def turnOn : Verdict K → Option (TurnOn K)
  | kept _ e => some e
  | _ => none

def turnOff : Verdict K → Option (TurnOff K)
  | curtailed _ e | off _ e => some e
  | _ => none

def request : Verdict K → Option (PowerRequest K)
  | asks _ r => some r
  | _ => none

/-- What the verdict adds to the running load. -/
def load : Verdict K → K
  | kept _ e => e.kw
  | _ => 0

omit [Field K] [LinearOrder K] in
/-- A device with an effect is written. -/
theorem exists_next {v : Verdict K} (h : v.turnOn ≠ none ∨ v.turnOff ≠ none ∨ v.request ≠ none) :
    ∃ n, v.next = some n := by
  cases v with
  | dropped => simp [turnOn, turnOff, request] at h
  | _ => exact ⟨_, rfl⟩

end Verdict

/-- The verdict on a device with the given `pem` result at a running load. -/
def verdict (gld : Gld K) (cap load : K) (d : VbDevice K) : VbDevice K × Option (Effect K) → Verdict K
  | (n, some (.turnOn e)) =>
    if load < cap then .kept n e else .curtailed (d.update gld (some .pemOff) none none) d.turnOff
  | (n, some (.turnOff e)) => .off n e
  | (n, some (.powerRequest r)) => .asks n r
  | (_, none) => .dropped

theorem deviceId_next_verdict {gld : Gld K} {cap load : K} {d n : VbDevice K} {r : VbDevice K × Option (Effect K)}
    (hr : r.1.deviceId = d.deviceId) (h : (verdict gld cap load d r).next = some n) : n.deviceId = d.deviceId := by
  unfold verdict at h
  split at h
  · split at h <;> cases h
    · exact hr
    · exact VbDevice.deviceId_update ..
  · cases h; exact hr
  · cases h; exact hr
  · cases h

/-- The devices with their verdicts, in table order, from a running load on. -/
def sweep (gld : Gld K) (dice : DeviceId → Dice K) (time : ℤ) (cap : K) :
    K → List (VbDevice K) → List (VbDevice K × Verdict K)
  | _, [] => []
  | load, d :: ds =>
    let v := verdict gld cap load d (d.pem gld (dice d.deviceId) time)
    (d, v) :: sweep gld dice time cap (load + v.load) ds

variable {gld : Gld K} {dice : DeviceId → Dice K} {time : ℤ} {cap : K}

variable (gld dice time cap) in
@[simp] theorem map_fst_sweep : ∀ (load : K) (ds : List (VbDevice K)),
    (sweep gld dice time cap load ds).map Prod.fst = ds
  | _, [] => rfl
  | load, d :: ds => by simp only [sweep, List.map_cons, map_fst_sweep _ ds]

theorem mem_sweep : ∀ {load : K} {ds : List (VbDevice K)} {p : VbDevice K × Verdict K},
    p ∈ sweep gld dice time cap load ds →
      p.1 ∈ ds ∧ ∃ l, p.2 = verdict gld cap l p.1 (p.1.pem gld (dice p.1.deviceId) time)
  | _, [], _, h => by cases h
  | load, d :: ds, p, h => by
    rw [sweep] at h
    rcases List.mem_cons.1 h with rfl | h
    · exact ⟨List.mem_cons_self .., load, rfl⟩
    · obtain ⟨hm, l, hl⟩ := mem_sweep h
      exact ⟨List.mem_cons_of_mem _ hm, l, hl⟩

variable (gld dice time cap) in
theorem exists_mem_sweep (load : K) {ds : List (VbDevice K)} {d : VbDevice K} (h : d ∈ ds) :
    ∃ v, (d, v) ∈ sweep gld dice time cap load ds := by
  rw [← map_fst_sweep gld dice time cap load ds] at h
  obtain ⟨⟨d, v⟩, hm, rfl⟩ := List.mem_map.1 h
  exact ⟨v, hm⟩

theorem deviceId_next_sweep {load : K} {ds : List (VbDevice K)} {p : VbDevice K × Verdict K} {n : VbDevice K}
    (hp : p ∈ sweep gld dice time cap load ds) (hn : p.2.next = some n) : n.deviceId = p.1.deviceId := by
  obtain ⟨-, l, hl⟩ := mem_sweep hp
  rw [hl] at hn
  exact deviceId_next_verdict (VbDevice.deviceId_pem ..) hn

namespace VirtualBattery

variable [FloorRing K]

/-- The loop body on a device that is not in the new table, by its verdict. -/
theorem pemChange_spec (gld : Gld K) (dice : DeviceId → Dice K) (vb : VirtualBattery K) (acc : Changes K) {d : VbDevice K}
    (hd : d.deviceId ∉ acc.devices.keys) :
    let v := verdict gld (pyRound vb.setpoint) acc.totalload d (d.pem gld (dice d.deviceId) vb.timeSec)
    let r := pemChange gld dice vb acc d
    r.devices.rows = acc.devices.rows ++ v.next.toList ∧
      r.effects = ⟨acc.effects.powerRequests ++ v.request.toList, acc.effects.turnOn ++ v.turnOn.toList,
        acc.effects.turnOff ++ v.turnOff.toList⟩ ∧
      r.totalload = acc.totalload + v.load := by
  have hid := VbDevice.deviceId_pem gld (dice d.deviceId) vb.timeSec d
  have hset : ∀ n : VbDevice K, n.deviceId = d.deviceId → (acc.devices.set n).rows = acc.devices.rows ++ [n] :=
    fun n hn => Table.rows_set_of_notMem (by rw [hn]; exact hd)
  rcases hp : d.pem gld (dice d.deviceId) vb.timeSec with ⟨n, _ | (r | e | e)⟩ <;> rw [hp] at hid
  · simp [pemChange, hp, verdict, Verdict.next, Verdict.request, Verdict.turnOn, Verdict.turnOff, Verdict.load]
  · simp [pemChange, hp, verdict, Verdict.next, Verdict.request, Verdict.turnOn, Verdict.turnOff, Verdict.load,
      Effect.on, Effects.append, hset n hid]
  · by_cases hl : acc.totalload < (pyRound vb.setpoint : K)
    · simp [pemChange, hp, verdict, Verdict.next, Verdict.request, Verdict.turnOn, Verdict.turnOff, Verdict.load,
        Effect.on, Effect.kw, Effects.append, hset n hid, hl]
    · have hcut := hset (d.update gld (some .pemOff) none none) (VbDevice.deviceId_update ..)
      simp [pemChange, hp, verdict, Verdict.next, Verdict.request, Verdict.turnOn, Verdict.turnOff, Verdict.load,
        Effect.on, Effects.append, hcut, hl]
  · simp [pemChange, hp, verdict, Verdict.next, Verdict.request, Verdict.turnOn, Verdict.turnOff, Verdict.load,
      Effect.on, Effects.append, hset n hid]

theorem foldl_pemChange (gld : Gld K) (dice : DeviceId → Dice K) (vb : VirtualBattery K) :
    ∀ (ds : List (VbDevice K)) (acc : Changes K),
    (ds.map VbDevice.deviceId).Nodup → (∀ d ∈ ds, d.deviceId ∉ acc.devices.keys) →
    let s := sweep gld dice vb.timeSec (pyRound vb.setpoint) acc.totalload ds
    let r := ds.foldl (pemChange gld dice vb) acc
    r.devices.rows = acc.devices.rows ++ s.filterMap (·.2.next) ∧
      r.effects = ⟨acc.effects.powerRequests ++ s.filterMap (·.2.request), acc.effects.turnOn ++ s.filterMap (·.2.turnOn),
        acc.effects.turnOff ++ s.filterMap (·.2.turnOff)⟩ ∧
      r.totalload = acc.totalload + (s.map (·.2.load)).sum
  | [], acc, _, _ => by simp [sweep]
  | d :: ds, acc, hn, hd => by
    rw [List.map_cons, List.nodup_cons] at hn
    obtain ⟨hrows, heff, hload⟩ := pemChange_spec gld dice vb acc (hd d (List.mem_cons_self ..))
    -- the row written for `d` keeps its id, and later devices have other ids
    have hfresh : ∀ e ∈ ds, e.deviceId ∉ (pemChange gld dice vb acc d).devices.keys := by
      intro e he hk
      rw [Table.keys, hrows, List.map_append, List.mem_append] at hk
      rcases hk with hk | hk
      · exact hd e (List.mem_cons_of_mem _ he) hk
      · obtain ⟨n, hm, hne⟩ := List.mem_map.1 hk
        have hnd := deviceId_next_verdict (VbDevice.deviceId_pem ..) (Option.mem_toList.1 hm)
        exact hn.1 (hnd.symm.trans hne ▸ List.mem_map_of_mem he)
    have h := foldl_pemChange gld dice vb ds _ hn.2 hfresh
    rw [hrows, heff, hload] at h
    simp only [List.filterMap_eq_flatMap_toList, List.append_assoc, add_assoc] at h
    simp only [List.foldl_cons, sweep, List.filterMap_eq_flatMap_toList, List.flatMap_cons, List.map_cons, List.sum_cons]
    exact h

/-- The sweep of the battery's own table. -/
def pemSweep (gld : Gld K) (dice : DeviceId → Dice K) (vb : VirtualBattery K) : List (VbDevice K × Verdict K) :=
  sweep gld dice vb.timeSec (pyRound vb.setpoint) 0 vb.devices.rows

/-- The sweep meets every device once. -/
theorem nodup_pemSweep (gld : Gld K) (dice : DeviceId → Dice K) (vb : VirtualBattery K) :
    ((vb.pemSweep gld dice).map (·.1.deviceId)).Nodup := by
  have h := vb.devices.nodup
  rw [← map_fst_sweep gld dice vb.timeSec (pyRound vb.setpoint : K) 0 vb.devices.rows, List.map_map] at h
  exact h

/-- `apply_pem_changes` reads everything off the sweep. -/
theorem applyPemChanges_eq (gld : Gld K) (dice : DeviceId → Dice K) (vb : VirtualBattery K) :
    (vb.applyPemChanges gld dice).1.devices.rows = (vb.pemSweep gld dice).filterMap (·.2.next) ∧
      (vb.applyPemChanges gld dice).2.1 = ⟨(vb.pemSweep gld dice).filterMap (·.2.request),
        (vb.pemSweep gld dice).filterMap (·.2.turnOn), (vb.pemSweep gld dice).filterMap (·.2.turnOff)⟩ ∧
      (vb.applyPemChanges gld dice).2.2 = ((vb.pemSweep gld dice).map (·.2.load)).sum := by
  have h := foldl_pemChange gld dice vb vb.devices.rows ⟨Table.empty _, Effects.empty, 0⟩
    vb.devices.nodup (fun d _ hd => by cases hd)
  simpa [applyPemChanges, pemSweep, Effects.empty] using h

end VirtualBattery

/-! ## Admission -/

/-- The decision on each request, from a running load on. -/
def admission (setpoint : K) : K → List (PowerRequest K) → List (PowerRequest K × Bool)
  | _, [] => []
  | load, r :: rs =>
    let ok := VirtualBattery.admits setpoint load r.kw
    (r, ok) :: admission setpoint (if ok then load + r.kw else load) rs

/-- The admitted requests. -/
def admitted (setpoint load : K) (rs : List (PowerRequest K)) : List (PowerRequest K) :=
  ((admission setpoint load rs).filter (·.2)).map (·.1)

theorem admitted_cons (setpoint load : K) (r : PowerRequest K) (rs : List (PowerRequest K)) :
    admitted setpoint load (r :: rs) = if VirtualBattery.admits setpoint load r.kw then
      r :: admitted setpoint (load + r.kw) rs else admitted setpoint load rs := by
  unfold admitted
  rw [admission]
  by_cases h : VirtualBattery.admits setpoint load r.kw = true <;> simp [h]

theorem admitted_sublist (setpoint : K) : ∀ (load : K) (rs : List (PowerRequest K)),
    (admitted setpoint load rs).Sublist rs
  | _, [] => .slnil
  | load, r :: rs => by
    rw [admitted_cons]
    split
    · exact (admitted_sublist setpoint _ rs).cons_cons r
    · exact (admitted_sublist setpoint _ rs).cons r

/-- A request is admitted exactly when the count stays within half its size of the setpoint. -/
theorem admits_iff [IsStrictOrderedRing K] {setpoint load kw : K} (hpos : 0 < kw) :
    VirtualBattery.admits setpoint load kw = true ↔ 2 * load + kw ≤ 2 * setpoint := by
  rw [VirtualBattery.admits, decide_eq_true_iff]
  constructor
  · intro h
    by_contra hover
    refine h.not_gt ((abs_lt.2 ⟨?_, ?_⟩).trans_le (le_abs_self _)) <;> linarith
  · intro h
    rw [abs_of_nonpos (a := load - setpoint) (by linarith)]
    exact abs_le.2 ⟨by linarith, by linarith⟩

/-- A device after the requests of the devices `ids` were accepted. -/
def grant (gld : Gld K) (time : ℤ) (ids : List DeviceId) (d : VbDevice K) : VbDevice K :=
  if d.deviceId ∈ ids then (d.requestAccepted gld time).1 else d

@[simp] theorem deviceId_grant (ids : List DeviceId) (d : VbDevice K) : (grant gld time ids d).deviceId = d.deviceId := by
  unfold grant
  split
  · exact VbDevice.deviceId_requestAccepted d
  · rfl

@[simp] theorem grant_nil (d : VbDevice K) : grant gld time [] d = d := by simp [grant]

theorem grant_of_notMem {ids : List DeviceId} {d : VbDevice K} (h : d.deviceId ∉ ids) : grant gld time ids d = d := if_neg h

/-- A granted device in `PEM_OFF` gets its packet. -/
theorem grant_pemOff {ids : List DeviceId} {d : VbDevice K} (h : d.deviceId ∈ ids) (hd : d.pemState = .pemOff) :
    grant gld time ids d = d.update gld (some .pemOn) (some (time + controlEpochSec)) none := by
  rw [grant, if_pos h, VbDevice.requestAccepted, if_neg (not_not.2 hd)]

/-- The packet's deadline is not 0, and so not read as missing. -/
theorem stateEndsAt_grant {ids : List DeviceId} {d : VbDevice K} (h : d.deviceId ∈ ids) (hd : d.pemState = .pemOff)
    (ht : 0 ≤ time) : (grant gld time ids d).stateEndsAt = time + controlEpochSec := by
  rw [grant_pemOff h hd, VbDevice.stateEndsAt_update]
  exact VbDevice.given_getD_self _ (by unfold controlEpochSec; omega) _

/-- The `turn_on` effects of accepted requests. -/
def grantEffects (devices : Devices K) (rs : List (PowerRequest K)) : List (TurnOn K) :=
  rs.filterMap fun r => (devices.find? r.deviceId).map VbDevice.turnOn

omit [Field K] [LinearOrder K] in
/-- The `turn_on` effects of accepted requests go to their devices. -/
theorem map_id_grantEffects {devices : Devices K} : ∀ {rs : List (PowerRequest K)},
    (∀ r ∈ rs, r.deviceId ∈ devices.keys) →
      (grantEffects devices rs).map (·.gld.id) = rs.map PowerRequest.deviceId
  | [], _ => rfl
  | r :: rs, h => by
    obtain ⟨d, hd⟩ := Table.mem_keys_iff_find?.1 (h r (List.mem_cons_self ..))
    have hid : d.gldDev.id = r.deviceId := (Table.find?_eq_some.1 hd).2
    have ih := map_id_grantEffects fun q hq => h q (List.mem_cons_of_mem _ hq)
    unfold grantEffects at ih ⊢
    rw [List.filterMap_cons_some (by rw [hd]; rfl), List.map_cons, List.map_cons, ih]
    exact congrArg (· :: _) hid

namespace VirtualBattery

/-- Admitting a request grants it to its device, when the requests of `ids` are done. -/
theorem handleRequest_admitted {gld : Gld K} {vb : VirtualBattery K} {base : Devices K} {ids : List DeviceId}
    {acc : Admission K} {r : PowerRequest K} (ha : acc.devices.rows = base.rows.map (grant gld vb.timeSec ids))
    (hrb : r.deviceId ∈ base.keys)
    (hri : r.deviceId ∉ ids) (hok : admits vb.setpoint acc.totalkw r.kw = true) :
    let res := handleRequest gld vb acc r
    res.devices.rows = base.rows.map (grant gld vb.timeSec (ids ++ [r.deviceId])) ∧ res.totalkw = acc.totalkw + r.kw ∧
      res.accepted = acc.accepted ++ grantEffects base [r] := by
  obtain ⟨d, hd⟩ := Table.mem_keys_iff_find?.1 hrb
  obtain ⟨hdm, hdid⟩ := Table.find?_eq_some.1 hd
  have hgd : grant gld vb.timeSec ids d = d := if_neg (by rw [hdid]; exact hri)
  have hfind : acc.devices.find? r.deviceId = some d :=
    Table.find?_eq_some.2 ⟨by rw [ha, ← hgd]; exact List.mem_map_of_mem hdm, hdid⟩
  have hstep : handleRequest gld vb acc r = ⟨acc.devices.set (d.requestAccepted gld vb.timeSec).1, acc.totalkw + r.kw,
      acc.accepted ++ [(d.requestAccepted gld vb.timeSec).2]⟩ := by
    unfold handleRequest
    rw [if_pos hok, hfind]
  have hdt : (d.requestAccepted gld vb.timeSec).2 = d.turnOn := by
    unfold VbDevice.requestAccepted; split <;> rfl
  have hid : (d.requestAccepted gld vb.timeSec).1.deviceId = r.deviceId := (VbDevice.deviceId_requestAccepted d).trans hdid
  have hmem : (d.requestAccepted gld vb.timeSec).1.deviceId ∈ acc.devices.keys :=
    Table.mem_keys_iff_find?.2 ⟨d, hid ▸ hfind⟩
  rw [hstep]
  refine ⟨?_, rfl, by simp [grantEffects, hd, hdt]⟩
  -- exactly the row of `d` changes
  rw [Table.rows_set_of_mem hmem, ha, List.map_map]
  refine List.map_congr_left fun e he => ?_
  simp only [Function.comp_apply, deviceId_grant, hid]
  by_cases hed : e.deviceId = r.deviceId
  · rw [if_pos hed, base.key_inj he hdm (hed.trans hdid.symm), grant, if_pos (by simp [hdid])]
  · rw [if_neg hed]
    unfold grant
    simp [hed]

/-- The loop over requests of distinct devices of the table, the requests of `ids` being done. -/
theorem foldl_handleRequest (gld : Gld K) (vb : VirtualBattery K) (base : Devices K) :
    ∀ (rs : List (PowerRequest K)) (ids : List DeviceId) (acc : Admission K),
      acc.devices.rows = base.rows.map (grant gld vb.timeSec ids) →
      (∀ r ∈ rs, r.deviceId ∈ base.keys ∧ r.deviceId ∉ ids) → (rs.map PowerRequest.deviceId).Nodup →
      let ok := admitted vb.setpoint acc.totalkw rs
      let res := rs.foldl (handleRequest gld vb) acc
      res.devices.rows = base.rows.map (grant gld vb.timeSec (ids ++ ok.map PowerRequest.deviceId)) ∧
        res.totalkw = acc.totalkw + (ok.map PowerRequest.kw).sum ∧
        res.accepted = acc.accepted ++ grantEffects base ok
  | [], ids, acc, ha, _, _ => by simpa [admitted, admission, grantEffects] using ha
  | r :: rs, ids, acc, ha, hr, hn => by
    rw [List.map_cons, List.nodup_cons] at hn
    obtain ⟨hrb, hri⟩ := hr r (List.mem_cons_self ..)
    have hrest : ∀ q ∈ rs, q.deviceId ∈ base.keys ∧ q.deviceId ∉ ids := fun q hq => hr q (List.mem_cons_of_mem _ hq)
    rw [List.foldl_cons, admitted_cons]
    by_cases hok : admits vb.setpoint acc.totalkw r.kw = true
    · obtain ⟨hrows, hkw, hacc⟩ := handleRequest_admitted ha hrb hri hok
      have hlater : ∀ q ∈ rs, q.deviceId ∈ base.keys ∧ q.deviceId ∉ ids ++ [r.deviceId] := by
        intro q hq
        rw [List.mem_append, List.mem_singleton, not_or]
        exact ⟨(hrest q hq).1, (hrest q hq).2, fun e => hn.1 (e ▸ List.mem_map_of_mem hq)⟩
      have h := foldl_handleRequest gld vb base rs (ids ++ [r.deviceId]) _ hrows hlater hn.2
      rw [hkw, hacc] at h
      rw [if_pos hok]
      simpa [grantEffects, List.filterMap_eq_flatMap_toList, add_assoc] using h
    · have hsame : handleRequest gld vb acc r = acc := by
        unfold handleRequest
        rw [if_neg hok]
      rw [if_neg hok, hsame]
      exact foldl_handleRequest gld vb base rs ids acc ha hrest hn.2

/-- The measured load the admission starts from. -/
def measuredLoad (devices : List (VbDevice K)) : K := (devices.map (·.kw)).sum

theorem handlePowerRequests_eq (gld : Gld K) (vb : VirtualBattery K) (rs : List (PowerRequest K))
    (hr : ∀ r ∈ rs, r.deviceId ∈ vb.devices.keys) (hn : (rs.map PowerRequest.deviceId).Nodup) :
    let ok := admitted vb.setpoint (measuredLoad vb.devices.rows) rs
    (vb.handlePowerRequests gld rs).1.devices.rows =
        vb.devices.rows.map (grant gld vb.timeSec (ok.map PowerRequest.deviceId)) ∧
      (vb.handlePowerRequests gld rs).2.1 = grantEffects vb.devices ok ∧
      (vb.handlePowerRequests gld rs).2.2 = measuredLoad vb.devices.rows + (ok.map PowerRequest.kw).sum := by
  obtain ⟨h1, h2, h3⟩ := foldl_handleRequest gld vb vb.devices rs [] ⟨vb.devices, measuredLoad vb.devices.rows, []⟩
    ((List.map_congr_left fun d _ => grant_nil d).trans (List.map_id _)).symm (fun r h => ⟨hr r h, List.not_mem_nil⟩) hn
  exact ⟨h1, h3, h2⟩

end VirtualBattery

end Grip.Packetized
