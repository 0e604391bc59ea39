/-
The three records of a customer that is off: the list `houses_off`, the interrupted meter and the
batteries that its house and water heater left. Every move of a management step keeps them in
agreement; `update_VB` rebuilds the batteries from the device map without looking at `houses_off`, so
a new partition must leave out the customers that are off.
-/
import GripAbsorption.Absorption.Houses

namespace Grip.Absorption

open Grip.Base Grip.Packetized Relation

/-- The customer of a device. -/
def customerOf : DeviceId → ℕ
  | .house n => n
  | .waterheater n => n

instance (net : Network) (island : Island) : ∀ id, Decidable (net.At island id)
  | .house _ => inferInstanceAs (Decidable (_ ∧ _))
  | .waterheater _ => inferInstanceAs (Decidable (_ ∧ _))

/-- The customer has a device in the island. -/
def Network.Serves (net : Network) (island : Island) (n : ℕ) : Prop :=
  net.At island (.house n) ∨ net.At island (.waterheater n)

instance (net : Network) (island : Island) (n : ℕ) : Decidable (net.Serves island n) :=
  inferInstanceAs (Decidable (_ ∨ _))

theorem Network.At.serves {net : Network} {island : Island} : ∀ {id : DeviceId}, net.At island id →
    net.Serves island (customerOf id)
  | .house _, h => .inl h
  | .waterheater _, h => .inr h

theorem Network.Serves.mem {net : Network} {island : Island} {n : ℕ} (h : net.Serves island n) :
    n ∈ net.houses ++ net.waterheaters := by
  rcases h with h | h
  · exact List.mem_append_left _ h.1
  · exact List.mem_append_right _ h.1

namespace Globals

variable {net : Network} {inp : ManageInput} {island : Island} {s s' : Globals}

/-! ## The records -/

/-- The list has no duplicates, a house is in it exactly when its meter is interrupted, and then neither its device nor
its water heater is in a battery. -/
structure Recorded (s : Globals) : Prop where
  nodup : s.housesOff.Nodup
  interrupted : ∀ n, s.gldState.customerInterrupted n = true ↔ n ∈ s.housesOff
  off : ∀ i vb, s.battery i = .ok vb → ∀ id ∈ vb.devices.keys, customerOf id ∉ s.housesOff

/-- A customer's devices are in one battery at most. -/
def Apart (s : Globals) : Prop := ∀ i j vb vb', s.battery i = .ok vb → s.battery j = .ok vb' →
  ∀ id ∈ vb.devices.keys, ∀ id' ∈ vb'.devices.keys, customerOf id = customerOf id' → i = j

theorem Apart.shrinks (h : Apart s) (hs : Shrinks s s') : Apart s' := by
  intro i j vb vb' hi hj id hid id' hid' he
  obtain ⟨vb₀, hi₀, hsub⟩ := hs i vb hi
  obtain ⟨vb₁, hj₁, hsub'⟩ := hs j vb' hj
  exact h i j vb₀ vb₁ hi₀ hj₁ id (hsub id hid) id' (hsub' id' hid') he

/-! ## Moves -/

/-- A house of the battery goes over to the list. -/
theorem Recorded.append {vb : VirtualBattery ℚ} {n : ℕ} (h : Recorded s) (ha : Apart s) (hb : s.battery island = .ok vb)
    (hn : n ∈ houseKeys vb) :
    Recorded { s.turnOffHouse island n with housesOff := (s.turnOffHouse island n).housesOff ++ [n] } := by
  obtain ⟨vb', st, he, hids, hint, -⟩ := turnOffHouse_spec hb hn
  have hnot : n ∉ s.housesOff := h.off island vb hb _ (mem_houseKeys.1 hn)
  rw [he]
  constructor
  case nodup =>
    exact h.nodup.append (List.nodup_singleton n) (List.disjoint_singleton.2 hnot)
  case interrupted =>
    intro m
    change st.customerInterrupted m = true ↔ m ∈ s.housesOff ++ [n]
    rw [hint]
    exact interrupted_append h.interrupted n m
  case off =>
    intro i vbi hbi id hid hoff
    have hbi := (battery_setBattery s hb).symm.trans hbi
    rcases List.mem_append.1 hoff with hoff | hoff
    · -- a customer that was off before
      split at hbi
      · cases hbi
        exact h.off island vb hb id ((hids id).1 hid).1 hoff
      · exact h.off i vbi hbi id hid hoff
    · -- the customer turned off, whose devices were in this battery only
      have hcust : customerOf id = n := List.mem_singleton.1 hoff
      split at hbi
      · cases hbi
        obtain ⟨-, hh, hw⟩ := (hids id).1 hid
        cases id with
        | house m => exact hh (congrArg _ hcust)
        | waterheater m => exact hw (congrArg _ hcust)
      · rename_i hi
        exact hi (ha island i vb vbi hb hbi _ (mem_houseKeys.1 hn) id hid hcust.symm)

/-- A house of the list goes back to the island's battery. -/
theorem Recorded.remove {n : ℕ} {t : ℤ} {r : Globals} (h : Recorded s) (ha : Apart s) (hn : n ∈ s.housesOff)
    (hon : s.turnOnHouse island n t = .ok r) :
    Recorded { r with housesOff := r.housesOff.filter (· ≠ n) } ∧ Apart r := by
  obtain ⟨hr, hint, -⟩ := turnOnHouse_spec hon
  have hcust : ∀ {id : DeviceId}, id = .house n ∨ id = .waterheater n → customerOf id = n := by
    rintro id (rfl | rfl) <;> rfl
  refine ⟨⟨?_, fun m => ?_, fun i vb' hb' id hid hoff => ?_⟩, fun i j vb vb' hi hj id hid id' hid' he => ?_⟩
  · rw [hr]
    exact h.nodup.filter _
  · change r.gldState.customerInterrupted m = true ↔ m ∈ r.housesOff.filter (· ≠ n)
    rw [hint, hr]
    exact interrupted_filter h.interrupted n m
  · obtain ⟨vb, hb, hids⟩ := turnOnHouse_devices hon hb'
    obtain ⟨hmem, hne⟩ := List.mem_filter.1 hoff
    -- a device that was added belongs to the customer that left the list
    rcases hids id hid with hid | ⟨-, hid⟩
    · exact h.off i vb hb id hid (hr ▸ hmem)
    · exact of_decide_eq_true hne (hcust hid)
  · obtain ⟨vb₀, hi₀, hids⟩ := turnOnHouse_devices hon hi
    obtain ⟨vb₁, hj₁, hids'⟩ := turnOnHouse_devices hon hj
    -- the customer's devices were in no battery before
    rcases hids id hid with hid | ⟨rfl, hid⟩
    · rcases hids' id' hid' with hid' | ⟨rfl, hid'⟩
      · exact ha i j vb₀ vb₁ hi₀ hj₁ id hid id' hid' he
      · exact absurd hn (by rw [← hcust hid', ← he]; exact h.off i vb₀ hi₀ id hid)
    · rcases hids' id' hid' with hid' | ⟨rfl, -⟩
      · exact absurd hn (by rw [← hcust hid, he]; exact h.off j vb₁ hj₁ id' hid')
      · rfl

/-- Every move keeps the records. -/
theorem Recorded.move (h : Recorded s) (ha : Apart s) (hm : Move inp island s s') : Recorded s' ∧ Apart s' := by
  have virtual : VirtualMove inp island s s' → Recorded s' ∧ Apart s' := by
    intro hv
    obtain ⟨hoff, hint⟩ := hv.housesOff
    refine ⟨⟨hoff ▸ h.nodup, fun n => by rw [hint, hoff]; exact h.interrupted n, fun i vb' hb' id hid => ?_⟩,
      ha.shrinks hv.shrinks⟩
    obtain ⟨vb, hb, hsub⟩ := hv.shrinks i vb' hb'
    rw [hoff]
    exact h.off i vb hb id (hsub id hid)
  cases hm with
  | setpoint x hb => exact virtual (.setpoint x hb)
  | packetize hrun => exact virtual (.packetize hrun)
  | off hb hn => exact ⟨h.append ha hb hn, ha.shrinks (turnOffHouse_shrinks hb hn)⟩
  | on hn hon => exact h.remove ha hn hon

theorem Recorded.moves (h : Recorded s) (ha : Apart s) (hm : ReflTransGen (Move inp island) s s') :
    Recorded s' ∧ Apart s' := by
  induction hm with
  | refl => exact ⟨h, ha⟩
  | tail _ hm ih => exact ih.1.move ih.2 hm

/-! ## Drawing a house that is off -/

/-- The mean loads of a house are not negative. -/
def LoadsNonneg (s : Globals) : Prop := ∀ i x, s.loadPerHouse.get? i = some x → 0 ≤ x

theorem calledFor_nonneg {row : Row} {x setpoint : ℚ} {called : ℤ} (hl : LoadsNonneg s) (hx : 0 < x)
    (h : s.calledFor island row x = .ok (setpoint, called)) : 0 ≤ called := by
  unfold calledFor at h
  obtain ⟨vb, -, h⟩ := bind_ok.1 h
  split at h
  · cases h; rfl
  · obtain ⟨all, -, h⟩ := bind_ok.1 h
    split at h
    · obtain ⟨houses, -, h⟩ := bind_ok.1 h
      cases h
      omega
    · obtain ⟨load, hload, h⟩ := bind_ok.1 h
      obtain ⟨called', hcalled, h⟩ := bind_ok.1 h
      cases h
      unfold housesFor at hcalled
      split at hcalled
      · cases hcalled
      · cases hcalled
        exact pyRound_nonneg (div_nonneg hx.le (hl island load (orRaise_eq_ok.1 hload)))

theorem turnOnHouse_not_valueError (s : Globals) (island : Island) (n : ℕ) (t : ℤ) :
    Ensures (· ≠ Err.valueError) (fun _ => True) (s.turnOnHouse island n t) := by
  have hdevice : ∀ (s : Globals) id, Ensures (· ≠ Err.valueError) (fun _ => True) (s.device id) := by
    intro s id
    unfold device
    split
    · exact fun h => by cases h
    · exact ensures_orRaise (fun _ h => by cases h) fun _ _ => trivial
  have hbattery : ∀ s : Globals, Ensures (· ≠ Err.valueError) (fun _ => True) (s.battery island) := by
    intro s
    unfold battery
    split
    · exact fun h => by cases h
    · exact ensures_orRaise (fun _ h => by cases h) fun _ _ => trivial
  unfold turnOnHouse
  refine ensures_bind (hdevice s _) fun h _ _ => ensures_bind (hdevice _ _) fun w _ _ => ?_
  exact ensures_bind (hbattery _) fun vb _ _ => trivial

/-- The reconnect loop finds a house in every turn when it has no more turns than there are houses off. -/
theorem reconnectLoop_draws (t : ℤ) (draws : ℕ → ℕ) : ∀ (k turn : ℕ) (s : Globals), s.housesOff.Nodup →
    k ≤ s.housesOff.length → reconnectLoop island t draws turn k s ≠ .error .valueError
  | 0, _, _, _, _, h => by cases h
  | k + 1, turn, s, hnd, hk, h => by
    rw [reconnectLoop] at h
    obtain ⟨n, hn⟩ : ∃ n, choice (draws turn) s.housesOff = some n :=
      choice_ne_none (List.ne_nil_of_length_pos (by omega))
    rw [hn] at h
    change (s.turnOnHouse island n t >>= fun r =>
      reconnectLoop island t draws (turn + 1) k { r with housesOff := r.housesOff.filter (· ≠ n) }) = _ at h
    cases hon : s.turnOnHouse island n t with
    | error e =>
      rw [hon] at h
      exact (turnOnHouse_not_valueError s island n t).of_error hon (Except.error.inj h)
    | ok r =>
      rw [hon] at h
      -- the list gets one house shorter in each turn
      obtain ⟨hr, -⟩ := turnOnHouse_spec hon
      have hlen := length_filter_ne hnd (choice_mem hn)
      refine reconnectLoop_draws t draws k (turn + 1) { r with housesOff := r.housesOff.filter (· ≠ n) } ?_ ?_ h
      · rw [hr]; exact hnd.filter _
      · change k ≤ (r.housesOff.filter (· ≠ n)).length
        rw [hr]; omega

theorem disconnectLoop_length (draws : ℕ → ℕ) (k turn : ℕ) (s s' : Globals)
    (h : disconnectLoop island draws turn k s = .ok s') : s.housesOff.length ≤ s'.housesOff.length := by
  refine disconnectLoop_rel (fun a b => a.housesOff.length ≤ b.housesOff.length) (fun _ => le_rfl) le_trans
    (fun {s vb n} hb hn => ?_) draws k turn s s' h
  obtain ⟨vb', st, he, -⟩ := turnOffHouse_spec hb hn
  rw [he]
  change s.housesOff.length ≤ (s.housesOff ++ [n]).length
  rw [List.length_append]
  omega

/-- A shed column whose reconnect loop draws from an empty list. -/
def RunsDry (inp : ManageInput) (island : Island) (s : Globals) (c : String × ℚ) : Prop :=
  columnKind c.1 = .shed ∧ 0 < c.2 ∧ ∃ setpoint called vb s₁,
    s.calledFor island (inp.row island) c.2 = .ok (setpoint, called) ∧ s.battery island = .ok vb ∧
    disconnectLoop island (inp.chance island c.1).disconnect 0 (turns called s.housesOff.length).1
      (s.setBattery island { vb with setpoint := setpoint }) = .ok s₁ ∧
    reconnectLoop island inp.time (inp.chance island c.1).reconnect 0 (turns called s.housesOff.length).2 s₁ =
      .error .valueError

theorem Recorded.not_runsDry (h : Recorded s) (ha : Apart s) (hl : LoadsNonneg s) (c : String × ℚ) :
    ¬ RunsDry inp island s c := by
  rintro ⟨-, hx, setpoint, called, vb, s₁, hcalled, hb, hdis, hdry⟩
  have hpos := calledFor_nonneg hl hx hcalled
  have hlen := disconnectLoop_length _ _ _ _ _ hdis
  have hmoves : ReflTransGen (Move inp island) s s₁ :=
    .head (.setpoint setpoint hb) (disconnectLoop_moves _ _ _ _ _ hdis)
  refine reconnectLoop_draws _ _ _ _ s₁ (h.moves ha hmoves).1.nodup ?_ hdry
  -- the turns are the houses off, less a number called for that is not negative
  change s.housesOff.length ≤ s₁.housesOff.length at hlen
  unfold turns
  split
  · exact Nat.zero_le _
  · simp only
    omega

/-! ## Before control -/

theorem customerInterrupted_release (s : Globals) : ∀ (hs : List ℕ) (st : GldState ℚ), (hs.foldl (fun st n =>
    if .house n ∈ s.islandedDevices then st else tempControlAbsorption st n) st).customerInterrupted =
      st.customerInterrupted
  | [], _ => rfl
  | n :: hs, st => by
    rw [List.foldl_cons, customerInterrupted_release s hs]
    split <;> rfl

theorem loadsNonneg_baseline {inp : CommitInput} : ∀ (islands : List Island) (d : Dict Island ℚ),
    (∀ i x, d.get? i = some x → 0 ≤ x) → (∀ i ∈ islands, 0 ≤ inp.baselineMean i) → ∀ i x,
    (islands.foldl (fun d island => d.put island (inp.baselineMean island / (island.length * 60 : ℕ))) d).get? i = some x →
      0 ≤ x
  | [], _, hd, _ => hd
  | island :: islands, d, hd, hm => by
    refine loadsNonneg_baseline islands _ (fun i x hx => ?_) fun i hi => hm i (List.mem_cons_of_mem _ hi)
    rw [Dict.get?_put] at hx
    split at hx
    · cases hx
      exact div_nonneg (hm island (List.mem_cons_self ..)) (Nat.cast_nonneg _)
    · exact hd i x hx

/-- Adopting a partition interrupts and restores no meter. -/
theorem adoptPartition_meters {inp : CommitInput} (hm : s.Mapped net) (h : s.adoptPartition net inp = .ok s') :
    s'.gldState.customerInterrupted = s.gldState.customerInterrupted ∧ s'.loadPerHouse = s.loadPerHouse := by
  obtain ⟨s₁, h₁, h⟩ := bind_ok.1 h
  cases h
  have hs₁ : s₁.gldState = s.gldState ∧ s₁.loadPerHouse = s.loadPerHouse := by
    split at h₁
    · obtain ⟨-, ids, vbs, rfl⟩ := updateVB_spec (s := { s with
        reIsland := decide (s.islands ≠ some inp.partition), islands := some inp.partition, islanded := true }) hm h₁
      exact ⟨rfl, rfl⟩
    · cases h₁
      exact ⟨rfl, rfl⟩
  refine ⟨?_, hs₁.2⟩
  rw [← hs₁.1]
  exact customerInterrupted_release s₁ net.houses s₁.gldState

theorem reIslandBatteries_meters {inp : CommitInput} (hm : s.Mapped net) (h : s.reIslandBatteries net inp = .ok s') :
    s'.gldState = s.gldState ∧ (LoadsNonneg s →
      (s.reIsland = true → ∀ i ∈ s.islands.getD [], 0 ≤ inp.baselineMean i) → LoadsNonneg s') := by
  unfold reIslandBatteries at h
  split at h
  · rename_i hr
    obtain ⟨s₁, h₁, h⟩ := bind_ok.1 h
    cases h
    obtain ⟨-, ids, vbs, rfl⟩ := updateVB_spec hm h₁
    exact ⟨rfl, fun hl hb => loadsNonneg_baseline (s.islands.getD []) s.loadPerHouse hl (hb hr)⟩
  · cases h
    exact ⟨rfl, fun hl _ => hl⟩

/-- Before control no meter is interrupted or restored, and the mean loads stay as good as the baseline's. -/
theorem prepare_meters {inp : CommitInput} (hm : s.Mapped net) (hr : s.reIsland = false)
    (h : s.prepare net inp = .ok s') : s'.gldState.customerInterrupted = s.gldState.customerInterrupted ∧
      (LoadsNonneg s → (s.ChangesPartition net inp → ∀ i ∈ inp.partition, 0 ≤ inp.baselineMean i) → LoadsNonneg s') := by
  obtain ⟨-, s₁, ⟨dm, ad, fs, rfl⟩, hdm, h₁, h⟩ := prepare_eq_ok hm h
  split at h₁
  · rename_i hf
    obtain ⟨hst, hload⟩ := adoptPartition_meters hdm h₁
    obtain ⟨⟨dm', devs, vbs, st, rfl⟩, hm', -⟩ := adoptPartition_spec hdm h₁
    obtain ⟨hst', hload'⟩ := reIslandBatteries_meters hm' h
    refine ⟨?_, fun hl hb => hload' hl fun hr => hb ⟨hf, of_decide_eq_true hr⟩⟩
    rw [hst']; exact hst
  · cases h₁
    obtain ⟨hst', hload'⟩ := reIslandBatteries_meters hdm h
    refine ⟨?_, fun hl hb => hload' hl fun hr' => ?_⟩
    · rw [hst']
    · rw [show _ = false from hr] at hr'
      cases hr'

/-! ## A commit -/

/-- The new partition leaves out the customers that are off, has the devices of a customer in one island, and comes
with mean loads that are not negative. -/
structure LeavesOut (net : Network) (s : Globals) (inp : CommitInput) : Prop where
  together : ∀ i ∈ inp.partition, ∀ j ∈ inp.partition, ∀ n ∈ net.houses ++ net.waterheaters,
    net.Serves i n → net.Serves j n → i = j
  off : ∀ i ∈ inp.partition, ∀ n ∈ s.housesOff, ¬ net.Serves i n
  loads : ∀ i ∈ inp.partition, 0 ≤ inp.baselineMean i

instance (inp : CommitInput) : Decidable (LeavesOut net s inp) :=
  decidable_of_iff (_ ∧ _ ∧ _) ⟨fun h => ⟨h.1, h.2.1, h.2.2⟩, fun h => ⟨h.together, h.off, h.loads⟩⟩

/-- A commit that changes the partition leaves out the customers that are off. -/
def PartitionLeavesOut (net : Network) (s : Globals) (inp : CommitInput) : Prop :=
  s.ChangesPartition net inp → LeavesOut net s inp

instance (inp : CommitInput) : Decidable (PartitionLeavesOut net s inp) := inferInstanceAs (Decidable (_ → _))

/-- What holds between commits. -/
structure Ledger (net : Network) (s : Globals) : Prop where
  mapped : s.Mapped net
  reIsland : s.reIsland = false
  recorded : Recorded s
  apart : Apart s
  loads : LoadsNonneg s

theorem ledger_init (net : Network) (tStart : ℤ) {st : GldState ℚ} (hst : ∀ n, st.customerInterrupted n = false) :
    Ledger net (init tStart st) where
  mapped := fun m hm => by cases hm
  reIsland := rfl
  recorded :=
    { nodup := List.nodup_nil
      interrupted := fun n => by simp [init, hst n]
      off := fun i vb hb => by cases hb }
  apart := fun i j vb vb' hb => by cases hb
  loads := fun i x hx => by cases hx

theorem Ledger.moves (h : Ledger net s) (hm : ReflTransGen (Move inp island) s s') : Ledger net s' := by
  obtain ⟨hr, ha⟩ := h.recorded.moves h.apart hm
  have hu := unmoved_of_moves hm
  refine ⟨h.mapped.congr hu.deviceMap, hu.reIsland.trans h.reIsland, hr, ha, ?_⟩
  unfold LoadsNonneg
  rw [hu.loadPerHouse]
  exact h.loads

theorem Ledger.balanced (h : Ledger net s) (bal : Dict Island PowerBalance) : Ledger net { s with powerbal := bal } :=
  ⟨h.mapped, h.reIsland, ⟨h.recorded.nodup, h.recorded.interrupted, h.recorded.off⟩, h.apart, h.loads⟩

theorem Ledger.turn (h : Ledger net s) (ht : Turn inp island s s') : Ledger net s' :=
  ht.invariant (fun _ _ hm hp => hp.moves (.single hm)) (fun _ bal hp => hp.balanced bal) h

/-- A new partition that leaves out the customers that are off keeps the records. -/
theorem Ledger.prepare {inp : CommitInput} (h : Ledger net s) (hc : PartitionLeavesOut net s inp)
    (hs : s.prepare net inp = .ok s') : Ledger net s' := by
  have hp := prepare_spec h.mapped h.reIsland hs
  obtain ⟨hint, hload⟩ := prepare_meters h.mapped h.reIsland hs
  have hmeters : ∀ n, s'.gldState.customerInterrupted n = true ↔ n ∈ s'.housesOff := by
    intro n
    rw [hint, hp.housesOff]
    exact h.recorded.interrupted n
  have hnd : s'.housesOff.Nodup := by rw [hp.housesOff]; exact h.recorded.nodup
  have hloads := hload h.loads fun hch => (hc hch).loads
  by_cases hch : s.ChangesPartition net inp
  · -- the batteries are those of the new partition
    obtain ⟨-, hpart⟩ := hp.new hch
    have hin : ∀ i vb, s'.battery i = .ok vb → ∀ id ∈ vb.devices.keys,
        i ∈ inp.partition ∧ net.Serves i (customerOf id) := fun i vb hb id hid =>
      ⟨(hpart.batteries i).1 ⟨vb, hb⟩, (hpart.devices i vb hb id hid).serves⟩
    refine ⟨hp.mapped, hp.reIsland, ⟨hnd, hmeters, fun i vb hb id hid hoff => ?_⟩, ?_, hloads⟩
    · obtain ⟨hi, hserves⟩ := hin i vb hb id hid
      exact (hc hch).off i hi _ (hp.housesOff ▸ hoff) hserves
    · intro i j vb vb' hb hb' id hid id' hid' he
      obtain ⟨hi, hserves⟩ := hin i vb hb id hid
      obtain ⟨hj, hserves'⟩ := hin j vb' hb' id' hid'
      rw [← he] at hserves'
      exact (hc hch).together i hi j hj _ hserves.mem hserves hserves'
  · -- the batteries stay
    obtain ⟨-, hv, -⟩ := hp.same hch
    have hb := battery_congr hv
    refine ⟨hp.mapped, hp.reIsland, ⟨hnd, hmeters, fun i vb hvb id hid => ?_⟩, ?_, hloads⟩
    · rw [hp.housesOff]
      exact h.recorded.off i vb (by rw [← hb]; exact hvb) id hid
    · intro i j vb vb' hi hj
      exact h.apart i j vb vb' (by rw [← hb]; exact hi) (by rw [← hb]; exact hj)

theorem Ledger.onCommit {inp : CommitInput} (h : Ledger net s) (hc : PartitionLeavesOut net s inp)
    (hs : s.onCommit net inp = .ok s') : Ledger net s' := by
  obtain ⟨s₁, hs₁, hs⟩ := bind_ok.1 hs
  exact control_invariant (fun _ _ _ _ ht hp => hp.turn ht) (h.prepare hc hs₁) hs

/-! ## Runs -/

/-- The commit, if it completes, leaves the records in agreement. -/
def KeepsRecords (net : Network) (s : Globals) (inp : CommitInput) : Prop :=
  ∀ s', s.onCommit net inp = .ok s' → Recorded s'

/-- On no column of the island's row does the reconnect loop draw from an empty list. -/
def ColumnsDraw (net : Network) (inp : ManageInput) (s : Globals) (island : Island) : Prop :=
  ∀ nfload, (inp.row island).get? "nfload" = some nfload →
    AllSteps (raising (column net inp island)) (fun acc c => ¬ RunsDry inp island acc.1 c)
      (s, ⟨0, nfload, Dict.empty, 0⟩) (inp.row island).sorted

/-- In the commit's management step, if it is one, the reconnect loop never draws from an empty list. -/
def NeverRunsDry (net : Network) (s : Globals) (inp : CommitInput) : Prop :=
  ∀ s₁, s.prepare net inp = .ok s₁ → s₁.Manages inp →
    AllSteps (raising (manageIsland net inp.toManageInput)) (ColumnsDraw net inp.toManageInput) s₁ (s₁.islands.getD [])

theorem Ledger.columnsDraw (h : Ledger net s) : ColumnsDraw net inp s island := by
  intro nfload _
  refine allSteps_of_invariant (fun acc c acc' (ha : Ledger net acc.1) (_ : True) hcol => ?_)
    (fun acc c ha _ => ha.recorded.not_runsDry ha.apart ha.loads c) h fun _ _ => trivial
  exact ha.moves (column_moves (toOption_eq_some.1 hcol))

theorem Ledger.neverRunsDry {inp : CommitInput} (h : Ledger net s) (hc : PartitionLeavesOut net s inp) :
    NeverRunsDry net s inp := by
  intro s₁ hs₁ _
  refine allSteps_of_invariant (fun c i c' (hl : Ledger net c) (_ : True) hstep => ?_)
    (fun c i hl _ => hl.columnsDraw) (h.prepare hc hs₁) fun _ _ => trivial
  exact hl.turn (manageIsland_turn (toOption_eq_some.1 hstep))

/-- Along every run of commits whose new partitions leave out the customers that are off, the records agree after every
commit, and the reconnect loop never draws from an empty list. -/
theorem commits_keep_records (net : Network) (tStart : ℤ) (st : GldState ℚ) (inps : List CommitInput)
    (hst : ∀ n, st.customerInterrupted n = false)
    (hc : AllSteps (raising (onCommit net)) (PartitionLeavesOut net) (init tStart st) inps) :
    Recorded (init tStart st) ∧ AllSteps (raising (onCommit net))
      (fun s inp => KeepsRecords net s inp ∧ NeverRunsDry net s inp) (init tStart st) inps := by
  refine ⟨(ledger_init net tStart hst).recorded, ?_⟩
  exact allSteps_of_invariant (fun s inp s' hs hc hstep => hs.onCommit hc (toOption_eq_some.1 hstep))
    (fun s inp hs hc => ⟨fun s' hs' => (hs.onCommit hc hs').recorded, hs.neverRunsDry hc⟩) (ledger_init net tStart hst) hc

/-! ## House 1 off -/

/-- A result row of the optimiser for the island `name`: the battery's load, the shed, and whether it is everything. -/
def shedRow (name : String) (load shed all : ℚ) : Row :=
  Table.ofList _ [("nfload", 10), ("shed", shed), ("sh_all", all), ("i_" ++ name, load)]

/-- The first feeder is islanded at 180, and a shed at 360 turns house 1 off. -/
def houseOneOff : List CommitInput :=
  [smallCommit 0 (fun _ => false) [] fun _ => resultRow "101" 0 0,
    smallCommit 180 (· = 102) [[101]] fun _ => resultRow "101" 0 0,
    smallCommit 360 (· = 102) [[101]] fun _ => shedRow "101" 0 10 1]

/-- At 540 the fault moves, and the new partition is the second feeder alone. -/
theorem second_feeder_keeps_records : Recorded (init 0 untouched) ∧ AllSteps (raising (onCommit twoFeeders))
    (fun s inp => KeepsRecords twoFeeders s inp ∧ NeverRunsDry twoFeeders s inp) (init 0 untouched)
    (houseOneOff ++ [smallCommit 540 (· = 101) [[102]] fun _ => resultRow "102" 0 0]) :=
  commits_keep_records twoFeeders 0 untouched _ (fun _ => rfl) (by decide +kernel)

/-- At 540 both feeders become one island: house 1 is in its battery and still in the list. A shed at 720 turns it off
again, and at 900 the reconnect loop draws from an empty list. -/
theorem rejoined_house_off_twice : (∀ n, untouched.customerInterrupted n = false) ∧
    ¬ AllSteps (raising (onCommit twoFeeders)) (KeepsRecords twoFeeders) (init 0 untouched)
      (houseOneOff ++ [smallCommit 540 (fun _ => false) [[101, 102]] fun _ => shedRow "101_102" 0 0 0]) ∧
    ¬ AllSteps (raising (onCommit twoFeeders))
      (fun s inp => Ensures (· ≠ .valueError) (fun _ => True) (s.onCommit twoFeeders inp)) (init 0 untouched)
      (houseOneOff ++ [smallCommit 540 (fun _ => false) [[101, 102]] fun _ => shedRow "101_102" 0 0 0,
        smallCommit 720 (fun _ => false) [[101, 102]] fun _ => shedRow "101_102" 100 20 1,
        smallCommit 900 (fun _ => false) [[101, 102]] fun _ => shedRow "101_102" 0 20 0]) := by
  refine ⟨fun _ => rfl, fun h => ?_, by decide +kernel⟩
  have hoff := h.mono (D := fun s inp => ∀ s', s.onCommit twoFeeders inp = .ok s' →
    ∀ vb, s'.battery [101, 102] = .ok vb → ∀ id ∈ vb.devices.keys, customerOf id ∉ s'.housesOff)
    fun s inp hk s' hs vb hb => (hk s' hs).off _ vb hb
  revert hoff
  decide +kernel

end Globals

end Grip.Absorption
