/-
Which houses run under the controller. A thermostat is taken over only for houses of the batteries
in force, and given back by the release loop of a fault change, which goes by the list of islanded
devices. When batteries exist, that list is still the old partition's, so a house that the new
partition leaves out keeps its thermostat off.
-/
import GripAbsorption.Absorption.Batteries

namespace Grip.Absorption.Globals

open Grip.Base Grip.Packetized Relation

variable {net : Network} {inp : ManageInput} {island : Island} {s s' : Globals}

/-! ## The invariant -/

/-- Every house whose thermostat is taken over belongs to one of the islands. -/
def TakenWithin (net : Network) (islands : List Island) (s : Globals) : Prop :=
  ∀ n, s.gldState.thermostatControl (.house n) = .none → ∃ i ∈ islands, net.At i (.house n)

/-- Thermostats are taken over in the islands in force only. -/
def Within (net : Network) (s : Globals) : Prop := TakenWithin net (s.islands.getD []) s

/-- What holds between commits. -/
structure Housed (net : Network) (s : Globals) : Prop where
  mapped : s.Mapped net
  reIsland : s.reIsland = false
  islanded : ∀ id, id ∈ s.islandedDevices ↔ ∃ i ∈ s.islands.getD [], net.At i id
  noBattery : s.noBattery = true ↔ s.islands.getD [] = []
  devices : ∀ i vb, s.battery i = .ok vb → ∀ n, .house n ∈ vb.devices.keys → ∃ j ∈ s.islands.getD [], net.At j (.house n)
  within : Within net s
  off : ∀ n ∈ s.housesOff, s.gldState.thermostatControl (.house n) = .none

theorem noBattery_iff : s.noBattery = true ↔
    s.virtualBattery.map Table.keys = none ∨ s.virtualBattery.map Table.keys = some [] := by
  unfold Globals.noBattery
  cases s.virtualBattery with
  | none => simp
  | some vbs => simp [Table.keys]

theorem Housed.move (h : Housed net s) (hm : Move inp island s s') : Housed net s' := by
  have hu := hm.unmoved
  have hdev : ∀ i vb, s'.battery i = .ok vb → ∀ n, .house n ∈ vb.devices.keys →
      ∃ j ∈ s.islands.getD [], net.At j (.house n) := by
    intro i vb' hb' n hn
    obtain ⟨vb, hb, hids⟩ := hm.devices hb'
    rcases hids _ hn with hn | ⟨-, m, hm, he | he⟩
    · exact h.devices i vb hb n hn
    · cases he
      exact h.within _ (h.off _ hm)
    · cases he
  refine ⟨h.mapped.congr hu.deviceMap, hu.reIsland.trans h.reIsland, ?_, ?_, ?_, ?_, ?_⟩
  · rw [hu.islandedDevices, hu.islands]; exact h.islanded
  · rw [noBattery_iff, hu.batteries, ← noBattery_iff, hu.islands]; exact h.noBattery
  · rw [hu.islands]; exact hdev
  · unfold Within
    rw [hu.islands]
    intro n hn
    rcases (hm.thermostat (.house n)).1 with he | ⟨vb, hb, hk⟩
    · exact h.within n (he ▸ hn)
    · exact h.devices _ vb hb n hk
  · intro n hn
    rcases hm.housesOff hn with hn | ⟨hn, -⟩
    · exact (hm.thermostat (.house n)).2 (h.off n hn)
    · exact hn

theorem Housed.balanced (h : Housed net s) (bal : Dict Island PowerBalance) : Housed net { s with powerbal := bal } :=
  ⟨h.mapped, h.reIsland, h.islanded, h.noBattery, h.devices, h.within, h.off⟩

theorem Housed.control {inp : CommitInput} (h : Housed net s) (hc : s.control net inp = .ok s') : Housed net s' :=
  control_invariant (fun _ _ _ _ ht hp => ht.invariant (fun _ _ hm hp => hp.move hm) (fun _ bal hp => hp.balanced bal) hp)
    h hc

/-! ## A commit -/

/-- When there are batteries, a new partition holds every house whose thermostat is taken over. -/
def PartitionHolds (net : Network) (s : Globals) (inp : CommitInput) : Prop :=
  s.ChangesPartition net inp → s.noBattery = false → TakenWithin net inp.partition s

/-- A thermostat taken over after the partition was adopted was so before. -/
theorem Housed.taken_before {inp : CommitInput} (h : Housed net s) (hs : s.prepare net inp = .ok s') {n : ℕ}
    (hn : s'.gldState.thermostatControl (.house n) = .none) : s.gldState.thermostatControl (.house n) = .none := by
  obtain ⟨ids, hth, -⟩ := (prepare_spec h.mapped h.reIsland hs).thermostat
  rw [hth n] at hn
  split at hn
  · cases hn
  · exact hn

/-- The release loop goes by the old list unless the batteries were missing, so a thermostat taken over stays so. -/
theorem Housed.taken_after {inp : CommitInput} (h : Housed net s) (hs : s.prepare net inp = .ok s')
    (hb : ¬ (s.ChangesPartition net inp ∧ s.noBattery = true)) {n : ℕ}
    (hn : s.gldState.thermostatControl (.house n) = .none) : s'.gldState.thermostatControl (.house n) = .none := by
  obtain ⟨ids, hth, -, hold⟩ := (prepare_spec h.mapped h.reIsland hs).thermostat
  rw [hth n, if_neg, hn]
  rintro ⟨-, -, hid⟩
  rw [hold hb, h.islanded] at hid
  exact hid (h.within n hn)

/-- After a new partition the houses taken over, those that are off among them, are within it. -/
theorem Housed.taken_new {inp : CommitInput} (h : Housed net s) (hc : PartitionHolds net s inp)
    (hs : s.prepare net inp = .ok s') (hch : s.ChangesPartition net inp) :
    TakenWithin net inp.partition s' ∧ ∀ n ∈ s.housesOff, s'.gldState.thermostatControl (.house n) = .none := by
  cases hb : s.noBattery with
  | true =>
    -- without batteries there was no island, so no thermostat was taken over
    have hnone : ∀ n, s.gldState.thermostatControl (.house n) ≠ .none := by
      intro n hn
      obtain ⟨i, hi, -⟩ := h.within n hn
      rw [h.noBattery.1 hb] at hi
      cases hi
    exact ⟨fun n hn => absurd (h.taken_before hs hn) (hnone n), fun n hn => absurd (h.off n hn) (hnone n)⟩
  | false =>
    have hkeep : ¬ (s.ChangesPartition net inp ∧ s.noBattery = true) := by
      rintro ⟨-, hb'⟩
      rw [hb] at hb'
      cases hb'
    exact ⟨fun n hn => hc hch hb n (h.taken_before hs hn), fun n hn => h.taken_after hs hkeep (h.off n hn)⟩

theorem Housed.prepare {inp : CommitInput} (h : Housed net s) (hc : PartitionHolds net s inp)
    (hs : s.prepare net inp = .ok s') : Housed net s' := by
  have hp := prepare_spec h.mapped h.reIsland hs
  by_cases hch : s.ChangesPartition net inp
  · obtain ⟨hi, hpart⟩ := hp.new hch
    obtain ⟨hwithin, hoff⟩ := h.taken_new hc hs hch
    refine ⟨hp.mapped, hp.reIsland, ?_, ?_, ?_, ?_, ?_⟩
    · rw [hi]; exact hpart.islanded
    · rw [hi]; exact hpart.noBattery
    · rw [hi]
      exact fun i vb hb n hn => ⟨i, (hpart.batteries i).1 ⟨vb, hb⟩, hpart.devices i vb hb _ hn⟩
    · unfold Within; rw [hi]; exact hwithin
    · rw [hp.housesOff]; exact hoff
  · obtain ⟨hi, hv, hd⟩ := hp.same hch
    have hb := battery_congr hv
    refine ⟨hp.mapped, hp.reIsland, ?_, ?_, fun i vb hvb => ?_, ?_, ?_⟩
    · rw [hd, hi]; exact h.islanded
    · rw [noBattery_congr hv, hi]; exact h.noBattery
    · rw [hi]; exact h.devices i vb (by rw [← hb]; exact hvb)
    · unfold Within; rw [hi]; exact fun n hn => h.within n (h.taken_before hs hn)
    · rw [hp.housesOff]
      exact fun n hn => h.taken_after hs (fun hc => hch hc.1) (h.off n hn)

theorem Housed.onCommit {inp : CommitInput} (h : Housed net s) (hc : PartitionHolds net s inp)
    (hs : s.onCommit net inp = .ok s') : Housed net s' := by
  obtain ⟨s₁, hs₁, hs⟩ := bind_ok.1 hs
  exact (h.prepare hc hs₁).control hs

/-- The converse: a new partition that leaves out a house taken over leaves it taken over. -/
theorem Housed.partitionHolds {inp : CommitInput} (h : Housed net s) (hs : s.onCommit net inp = .ok s')
    (hw : Within net s') : PartitionHolds net s inp := by
  obtain ⟨s₁, hs₁, hs⟩ := bind_ok.1 hs
  intro hch hb n hn
  have hn₁ := h.taken_after hs₁ (fun hc => by rw [hc.2] at hb; cases hb) hn
  -- control hands no thermostat back and keeps the islands
  have hctl := control_invariant (P := fun c => c.gldState.thermostatControl (.house n) = .none ∧ c.islands = s₁.islands)
    (fun i _ c c' ht hc => ⟨ht.invariant (fun _ _ hm => (hm.thermostat _).2) (fun _ _ h => h) hc.1,
      ht.same.islands.trans hc.2⟩) ⟨hn₁, rfl⟩ hs
  obtain ⟨i, hi, hat⟩ := hw n hctl.1
  rw [hctl.2, ((prepare_spec h.mapped h.reIsland hs₁).new hch).1] at hi
  exact ⟨i, hi, hat⟩

/-! ## Runs -/

/-- The commit, if it completes, leaves every thermostat that is taken over within the islands. -/
def LeavesWithin (net : Network) (s : Globals) (inp : CommitInput) : Prop :=
  ∀ s', s.onCommit net inp = .ok s' → Within net s'

def Completes (net : Network) (s : Globals) (inp : CommitInput) : Prop := ∃ s', s.onCommit net inp = .ok s'

theorem housed_init (net : Network) (tStart : ℤ) {st : GldState ℚ}
    (hst : ∀ n, st.thermostatControl (.house n) = .full) : Housed net (init tStart st) where
  mapped := fun m hm => by cases hm
  reIsland := rfl
  islanded := fun id => by simp [init]
  noBattery := ⟨fun _ => rfl, fun _ => rfl⟩
  devices := fun i vb h => by cases h
  within := fun n hn => by rw [show (init tStart st).gldState = st from rfl, hst n] at hn; cases hn
  off := fun n h => by cases h

/-- Along every run of commits from thermostats that are GridLAB-D's: if every new partition holds the
houses taken over, they stay within the islands after every commit, and in a run whose commits
complete only then. -/
theorem commits_within (net : Network) (tStart : ℤ) (st : GldState ℚ) (inps : List CommitInput)
    (hst : ∀ n, st.thermostatControl (.house n) = .full) :
    (AllSteps (raising (onCommit net)) (PartitionHolds net) (init tStart st) inps →
      AllSteps (raising (onCommit net)) (LeavesWithin net) (init tStart st) inps) ∧
    (AllSteps (raising (onCommit net)) (Completes net) (init tStart st) inps →
      AllSteps (raising (onCommit net)) (LeavesWithin net) (init tStart st) inps →
      AllSteps (raising (onCommit net)) (PartitionHolds net) (init tStart st) inps) := by
  constructor
  · exact allSteps_of_invariant (fun s inp s' hs hc hstep => Housed.onCommit hs hc (toOption_eq_some.1 hstep))
      (fun s inp hs hc s' hstep => (Housed.onCommit hs hc hstep).within) (housed_init net tStart hst)
  · intro hok hin
    refine allSteps_of_invariant (fun s inp s' hs hc hstep => ?_) (fun s inp hs hc => ?_) (housed_init net tStart hst)
      (hok.and hin)
    · have hstep := toOption_eq_some.1 hstep
      exact hs.onCommit (hs.partitionHolds hstep (hc.2 s' hstep)) hstep
    · obtain ⟨s', hstep⟩ := hc.1
      exact hs.partitionHolds hstep (hc.2 s' hstep)

/-- The first feeder is islanded at 180; at 360 the same partition comes again. -/
theorem lasting_island_within :
    AllSteps (raising (onCommit twoFeeders)) (LeavesWithin twoFeeders) (init 0 untouched)
      [smallCommit 0 (fun _ => false) [] fun _ => resultRow "101" 5 0,
        smallCommit 180 (· = 102) [[101]] fun _ => resultRow "101" 5 0,
        smallCommit 360 (fun _ => false) [[101]] fun _ => resultRow "101" 5 0] := by
  refine (commits_within twoFeeders 0 untouched _ fun _ => rfl).1 ?_
  refine AllSteps.mono (C := fun s inp => ¬ (s.ChangesPartition twoFeeders inp ∧ s.noBattery = false))
    (fun s inp hn hch hb => absurd ⟨hch, hb⟩ hn) ?_
  decide +kernel

/-- The first feeder is islanded at 180 and the island dissolves at 360: house 1, which was turned off
at 180, keeps its thermostat off. -/
theorem dissolved_island_keeps_house :
    (∀ n, untouched.thermostatControl (.house n) = .full) ∧
      ¬ AllSteps (raising (onCommit twoFeeders)) (LeavesWithin twoFeeders) (init 0 untouched)
        [smallCommit 0 (fun _ => false) [] fun _ => resultRow "101" 5 0,
          smallCommit 180 (· = 102) [[101]] fun _ => resultRow "101" 5 0,
          smallCommit 360 (fun _ => false) [] fun _ => resultRow "101" 5 0] := by
  refine ⟨fun _ => rfl, fun h => ?_⟩
  have h1 := h.mono (D := fun s inp => ∀ s' ∈ (s.onCommit twoFeeders inp).toOption,
    s'.gldState.thermostatControl (.house 1) = .none → ∃ i ∈ s'.islands.getD [], 101 ∈ i) fun s inp hl s' hs hn => by
      obtain ⟨i, hi, hat⟩ := hl s' (toOption_eq_some.1 hs) 1 hn
      exact ⟨i, hi, hat.2⟩
  revert h1
  decide +kernel

end Grip.Absorption.Globals
