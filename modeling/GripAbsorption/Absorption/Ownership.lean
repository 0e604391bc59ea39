/-
Which battery manages a device. `update_VB` gives every island the devices of its own supernodes, and
disconnecting only takes devices away; but the reconnect loop draws from all houses that are off, so
a house of one island can come back in the battery of another.
-/
import GripAbsorption.Absorption.Houses

namespace Grip.Absorption.Globals

open Grip.Base Grip.Packetized Relation

variable {net : Network} {inp : ManageInput} {island : Island} {s s' : Globals}

/-! ## The invariant -/

/-- A battery holds devices of its own island's supernodes only, and the islands with a battery are disjoint. -/
structure Owned (net : Network) (s : Globals) : Prop where
  devices : ∀ i vb, s.battery i = .ok vb → ∀ id ∈ vb.devices.keys, net.supernodeName id ∈ i
  disjoint : ∀ i j, s.HasBattery i → s.HasBattery j → i ≠ j → i.Disjoint j

/-- A device is in one battery at most, the one of the island that contains its supernode. -/
def ManagedOnce (net : Network) (s : Globals) : Prop :=
  ∀ i vb, s.battery i = .ok vb → ∀ id ∈ vb.devices.keys, net.supernodeName id ∈ i ∧
    ∀ j vb', s.battery j = .ok vb' → id ∈ vb'.devices.keys → j = i

theorem Owned.managedOnce (h : Owned net s) : ManagedOnce net s := by
  intro i vb hb id hid
  refine ⟨h.devices i vb hb id hid, fun j vb' hb' hid' => ?_⟩
  by_contra hne
  exact h.disjoint j i ⟨vb', hb'⟩ ⟨vb, hb⟩ hne (h.devices j vb' hb' id hid') (h.devices i vb hb id hid)

theorem Owned.shrinks (h : Owned net s) (hs : Shrinks s s')
    (hk : s'.virtualBattery.map Table.keys = s.virtualBattery.map Table.keys) : Owned net s' := by
  refine ⟨fun i vb' hb' id hid => ?_, fun i j hi hj => h.disjoint i j (hi.congr hk.symm) (hj.congr hk.symm)⟩
  obtain ⟨vb, hb, hids⟩ := hs i vb' hb'
  exact h.devices i vb hb id (hids id hid)

theorem owned_updateVB {inp : CommitInput} {islands : List Island} (hm : s.Mapped net)
    (hdis : islands.Pairwise List.Disjoint) (h : s.updateVB net inp islands = .ok s') : Owned net s' := by
  obtain ⟨hp, -⟩ := updateVB_spec hm h
  refine ⟨fun i vb hb id hid => (hp.devices i vb hb id hid).mem, fun i j hi hj hne => ?_⟩
  have : Std.Symm (α := Island) List.Disjoint := ⟨fun _ _ h => h.symm⟩
  exact hdis.forall ((hp.batteries i).1 hi) ((hp.batteries j).1 hj) hne

/-! ## Steps that reconnect nothing -/

theorem disconnectLoop_shrinks (draws : ℕ → ℕ) : ∀ (k turn : ℕ) (s s' : Globals),
    disconnectLoop island draws turn k s = .ok s' → Shrinks s s' :=
  disconnectLoop_rel Shrinks .refl .trans (fun hb hn => turnOffHouse_shrinks hb hn) draws

/-- The shed calls for no fewer houses than are off, so the step reconnects none. -/
def ReconnectsNone (s : Globals) (p : ManageInput × Island) : Prop :=
  ∀ x, (p.1.row p.2).get? "shed" = some x → 0 < x →
    ∀ r, s.calledFor p.2 (p.1.row p.2) x = .ok r → (s.housesOff.length : ℤ) ≤ r.2

instance (p : ManageInput × Island) : Decidable (ReconnectsNone s p) := by unfold ReconnectsNone; infer_instance

theorem shedPart_shrinks {p : ManageInput × Island} (hn : ReconnectsNone s p) (h : s.shedPart p.1 p.2 = .ok s') :
    Shrinks s s' := by
  unfold shedPart at h
  cases hx : (p.1.row p.2).get? "shed" with
  | none => rw [hx] at h; cases h; exact .refl _
  | some x =>
    rw [hx] at h
    by_cases hpos : 0 < x
    · obtain ⟨sp, called, vb, s₁, hr, hb, h₁, h₂⟩ := (shedColumn_eq_ok hpos).1 h
      simp only [turns, if_pos (hn x hx hpos _ hr)] at h₁ h₂
      cases h₂
      have hrest := disconnectLoop_shrinks _ _ _ _ _ h₁
      exact (show VirtualMove p.1 p.2 s _ from .setpoint sp hb).shrinks.trans hrest
    · simp only [shedColumn, if_neg hpos] at h
      cases h
      exact .refl _

theorem manageStep_shrinks {p : ManageInput × Island} (hrow : PlainRow (p.1.row p.2)) (hn : ReconnectsNone s p)
    (h : manageStep net s p = .ok s') : Shrinks s s' := by
  obtain ⟨s₁, s₂, bal, hshed, hmoves, rfl⟩ := manageIsland_plain hrow h
  have hsh : Shrinks s s₂ := by
    clear h
    induction hmoves with
    | refl => exact shedPart_shrinks hn hshed
    | tail _ hm ih => exact ih.trans hm.shrinks
  exact hsh

/-! ## Steps that reconnect the island's own houses -/

/-- The customers that are off or that the island's battery may turn off have both devices in the island. -/
structure OwnCustomers (net : Network) (s : Globals) (island : Island) : Prop where
  house : ∀ n ∈ s.housesOff, net.supernodeName (.house n) ∈ island
  waterheater : ∀ n ∈ s.housesOff, net.supernodeName (.waterheater n) ∈ island
  battery : ∀ vb, s.battery island = .ok vb → ∀ n ∈ houseKeys vb, net.supernodeName (.waterheater n) ∈ island

instance : Decidable (OwnCustomers net s island) :=
  decidable_of_iff ((∀ n ∈ s.housesOff, net.supernodeName (.house n) ∈ island) ∧
      (∀ n ∈ s.housesOff, net.supernodeName (.waterheater n) ∈ island) ∧
      ∀ vb, s.battery island = .ok vb → ∀ n ∈ houseKeys vb, net.supernodeName (.waterheater n) ∈ island)
    ⟨fun ⟨h₁, h₂, h₃⟩ => ⟨h₁, h₂, h₃⟩, fun ⟨h₁, h₂, h₃⟩ => ⟨h₁, h₂, h₃⟩⟩

/-- Every move on an island whose customers are its own keeps the ownership and the customers. -/
theorem Owned.move (h : Owned net s) (hc : OwnCustomers net s island) (hm : Move inp island s s') :
    Owned net s' ∧ OwnCustomers net s' island := by
  have hk := hm.unmoved.batteries
  have own : ∀ n ∈ s.housesOff, ∀ id, id = .house n ∨ id = .waterheater n → net.supernodeName id ∈ island := by
    rintro n hn id (rfl | rfl)
    · exact hc.house n hn
    · exact hc.waterheater n hn
  -- a house that is new in the list was in the island's battery
  have hoff : ∀ n ∈ s'.housesOff, n ∈ s.housesOff ∨ ∃ vb, s.battery island = .ok vb ∧ .house n ∈ vb.devices.keys :=
    fun n hn => (hm.housesOff hn).imp_right And.right
  refine ⟨⟨fun i vb' hb' id hid => ?_, fun i j hi hj => h.disjoint i j (hi.congr hk.symm) (hj.congr hk.symm)⟩,
    fun n hn => ?_, fun n hn => ?_, fun vb' hb' n hn => ?_⟩
  · obtain ⟨vb, hb, hids⟩ := hm.devices hb'
    rcases hids id hid with hid | ⟨rfl, n, hn, hid⟩
    · exact h.devices i vb hb id hid
    · exact own n hn id hid
  · rcases hoff n hn with hn | ⟨vb, hb, hkey⟩
    · exact hc.house n hn
    · exact h.devices island vb hb _ hkey
  · rcases hoff n hn with hn | ⟨vb, hb, hkey⟩
    · exact hc.waterheater n hn
    · exact hc.battery vb hb n (mem_houseKeys.2 hkey)
  · obtain ⟨vb, hb, hids⟩ := hm.devices hb'
    rcases hids _ (mem_houseKeys.1 hn) with hid | ⟨-, m, hm, hid | hid⟩
    · exact hc.battery vb hb n (mem_houseKeys.2 hid)
    · cases hid
      exact hc.waterheater n hm
    · cases hid

/-! ## Runs -/

/-- The step reconnects no house, or only customers of its island. -/
def ReconnectsSafely (net : Network) (s : Globals) (p : ManageInput × Island) : Prop :=
  PlainRow (p.1.row p.2) ∧ ReconnectsNone s p ∨ OwnCustomers net s p.2

instance (p : ManageInput × Island) : Decidable (ReconnectsSafely net s p) := inferInstanceAs (Decidable (_ ∨ _))

theorem Owned.manageStep {p : ManageInput × Island} (h : Owned net s) (hc : ReconnectsSafely net s p)
    (hs : manageStep net s p = .ok s') : Owned net s' := by
  rcases hc with ⟨hrow, hn⟩ | hown
  · exact h.shrinks (manageStep_shrinks hrow hn hs) (manageIsland_turn hs).same.batteries
  · refine ((manageIsland_turn hs).invariant (P := fun c => Owned net c ∧ OwnCustomers net c p.2) ?_ ?_ ⟨h, hown⟩).1
    · exact fun c c' hm hc => hc.1.move hc.2 hm
    · exact fun c bal hc => ⟨⟨hc.1.devices, hc.1.disjoint⟩, ⟨hc.2.house, hc.2.waterheater, hc.2.battery⟩⟩

/-- The step, if it completes, leaves every device in the battery of its own island only. -/
def LeavesManagedOnce (net : Network) (s : Globals) (p : ManageInput × Island) : Prop :=
  ∀ s', manageStep net s p = .ok s' → ManagedOnce net s'

/-- Along every run of management steps from batteries that `update_VB` built on disjoint islands: if every step
reconnects customers of its island only, every device stays in the battery of its island. -/
theorem devices_managed_once (net : Network) (inp : CommitInput) (islands : List Island) (s s₀ : Globals)
    (steps : List (ManageInput × Island)) (hm : s.Mapped net) (hdis : islands.Pairwise List.Disjoint)
    (hvb : s.updateVB net inp islands = .ok s₀)
    (h : AllSteps (raising (manageStep net)) (ReconnectsSafely net) s₀ steps) :
    AllSteps (raising (manageStep net)) (LeavesManagedOnce net) s₀ steps :=
  allSteps_of_invariant (fun _ _ _ ho hc hs => ho.manageStep hc (toOption_eq_some.1 hs))
    (fun _ _ ho hc _ hs => (ho.manageStep hc hs).managedOnce) (owned_updateVB hm hdis hvb) h

/-- House 1 is turned off and on again by the first island. -/
theorem returned_house_managed_once : ∃ s, twoIslands = .ok s ∧
    AllSteps (raising (manageStep twoFeeders)) (LeavesManagedOnce twoFeeders) s
      [shedStep 180 101 "101" 0, shedStep 360 101 "101" 10, shedStep 540 101 "101" (1 / 4)] := by
  obtain ⟨s, hs, -⟩ := twoIslands_kept
  have h : ∀ s, twoIslands = .ok s → AllSteps (raising (manageStep twoFeeders)) (ReconnectsSafely twoFeeders) s
      [shedStep 180 101 "101" 0, shedStep 360 101 "101" 10, shedStep 540 101 "101" (1 / 4)] := by decide +kernel
  exact ⟨s, hs, devices_managed_once twoFeeders _ [[101], [102]] _ s _ (fun m hm => by cases hm; rfl) (by simp) hs (h s hs)⟩

/-- House 1 is turned off by the first island and on again by the second, whose battery then manages it. -/
theorem stray_house_managed_elsewhere : ∃ s, twoIslands = .ok s ∧
    ¬ AllSteps (raising (manageStep twoFeeders)) (LeavesManagedOnce twoFeeders) s
      [shedStep 180 101 "101" 0, shedStep 360 101 "101" 10, shedStep 540 102 "102" (1 / 4)] := by
  obtain ⟨s, hs, -⟩ := twoIslands_kept
  refine ⟨s, hs, fun h => ?_⟩
  have h₁ := h.mono (D := fun s p => ∀ s', manageStep twoFeeders s p = .ok s' → ∀ vb, s'.battery [102] = .ok vb →
      ∀ id ∈ vb.devices.keys, twoFeeders.supernodeName id ∈ [102]) fun s p hl s' hs' vb hb id hid =>
    (hl s' hs' [102] vb hb id hid).1
  have h₂ : ∀ s, twoIslands = .ok s → ¬ AllSteps (raising (manageStep twoFeeders)) (fun s p =>
      ∀ s', manageStep twoFeeders s p = .ok s' → ∀ vb, s'.battery [102] = .ok vb →
        ∀ id ∈ vb.devices.keys, twoFeeders.supernodeName id ∈ [102]) s
      [shedStep 180 101 "101" 0, shedStep 360 101 "101" 10, shedStep 540 102 "102" (1 / 4)] := by decide +kernel
  exact h₂ s hs h₁

end Grip.Absorption.Globals
