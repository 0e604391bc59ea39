/-
The lookups of `powerbal[tuple(island)]` and `Virtual_Battery[tuple(island)]` in a commit. The
battery of every island in force is there, since a new partition gets new batteries. A power
balance is entered by management steps only, so a new partition off the three-minute grid meets the
packetized branch without one, unless its islands were managed before.
-/
import GripAbsorption.Absorption.Batteries

namespace Grip.Absorption.Globals

open Grip.Base Grip.Packetized Relation

variable {net : Network} {inp : ManageInput} {island : Island} {s s' : Globals}

/-! ## Management steps -/

/-- Not a failed lookup of a power balance or a battery. -/
def Harmless (e : Err) : Prop :=
  e ≠ .keyError .powerbal ∧ e ≠ .keyError .virtualBattery ∧ e ≠ .noneType .virtualBattery

instance (e : Err) : Decidable (Harmless e) := inferInstanceAs (Decidable (_ ∧ _ ∧ _))

theorem HasBattery.ensures (h : s.HasBattery island) :
    Ensures Harmless (fun vb => s.battery island = .ok vb) (s.battery island) := by
  obtain ⟨vb, hb⟩ := h
  rw [hb]; rfl

theorem device_ensures (s : Globals) (id : DeviceId) : Ensures Harmless (fun _ => True) (s.device id) := by
  unfold device
  split
  · exact ensures_throw (by decide)
  · exact ensures_orRaise (fun _ => by decide) fun _ _ => trivial

theorem turnOnHouse_ensures (h : s.HasBattery island) (n : ℕ) :
    Ensures Harmless (fun _ => True) (s.turnOnHouse island n inp.time) := by
  refine ensures_bind (device_ensures s _) fun d hd _ => ensures_bind (device_ensures _ _) fun e he _ => ?_
  exact ensures_bind (P := fun _ => True) (h.ensures.mono fun _ _ _ => trivial) fun vb _ _ => trivial

theorem disconnectLoop_ensures (inp : ManageInput) (draws : ℕ → ℕ) : ∀ (k turn : ℕ) (s : Globals), s.HasBattery island →
    Ensures Harmless (fun s' => s'.HasBattery island) (disconnectLoop island draws turn k s)
  | 0, _, _, h => h
  | k + 1, turn, s, h => by
    rw [disconnectLoop]
    split
    · exact ensures_throw (by decide)
    · refine ensures_bind h.ensures fun vb hb _ => ?_
      cases hc : choice (draws turn) (houseKeys vb) with
      | none => exact disconnectLoop_ensures inp draws k _ _ h
      | some n =>
        have hmove : Move inp island s _ := .off hb (choice_mem hc)
        exact disconnectLoop_ensures inp draws k _ _ (h.move hmove)

theorem reconnectLoop_ensures (draws : ℕ → ℕ) : ∀ (k turn : ℕ) (s : Globals), s.HasBattery island →
    Ensures Harmless (fun s' => s'.HasBattery island) (reconnectLoop island inp.time draws turn k s)
  | 0, _, _, h => h
  | k + 1, turn, s, h => by
    rw [reconnectLoop]
    refine ensures_bind (P := fun n => n ∈ s.housesOff)
      (ensures_orRaise (fun _ => by decide) fun n hn => choice_mem hn) fun n _ hn => ?_
    refine ensures_bind (turnOnHouse_ensures h n) fun s₁ hs _ => ?_
    exact reconnectLoop_ensures draws k _ _ (h.move (.on hn hs))

theorem nodeDevices_ensures (s : Globals) (node : ℕ) : Ensures Harmless (fun _ => True) (s.nodeDevices node) := by
  unfold nodeDevices
  split
  · exact ensures_throw (by decide)
  · exact ensures_orRaise (fun _ => by decide) fun _ _ => trivial

theorem calledFor_ensures (h : s.HasBattery island) (row : Row) (x : ℚ) :
    Ensures Harmless (fun _ => True) (s.calledFor island row x) := by
  unfold calledFor
  refine ensures_bind h.ensures fun vb _ _ => ?_
  split
  · trivial
  refine ensures_bind (P := fun _ => True) (ensures_orRaise (fun _ => by decide) fun _ _ => trivial)
    fun all _ _ => ?_
  split
  · refine ensures_bind (P := fun _ => True) ?_ fun _ _ _ => trivial
    refine ensures_foldlM (fun node _ total _ => ?_) trivial
    exact ensures_bind (nodeDevices_ensures s node) fun _ _ _ => trivial
  · refine ensures_bind (P := fun _ => True) (ensures_orRaise (fun _ => by decide) fun _ _ => trivial)
      fun l _ _ => ?_
    refine ensures_bind (P := fun _ => True) ?_ fun _ _ _ => trivial
    unfold housesFor
    split
    · exact ensures_throw (by decide)
    · trivial

theorem shedColumn_ensures (h : s.HasBattery island) (c : String) (x : ℚ) :
    Ensures Harmless (fun _ => True) (s.shedColumn inp island c x) := by
  unfold shedColumn
  split
  · refine ensures_bind (calledFor_ensures h _ x) fun p _ _ => ?_
    refine ensures_bind h.ensures fun vb hb _ => ?_
    have h₁ := h.move (show Move inp island s _ from .setpoint p.1 hb)
    refine ensures_bind (disconnectLoop_ensures inp _ _ _ _ h₁) fun s₁ _ h₂ => ?_
    exact (reconnectLoop_ensures _ _ _ _ h₂).mono fun _ _ _ => trivial
  · trivial

theorem packetizeIsland_ensures (h : s.HasBattery island) (c : String) :
    Ensures Harmless (fun _ => True) (s.packetizeIsland inp island c) := by
  unfold packetizeIsland
  exact ensures_bind h.ensures fun _ _ _ => trivial

/-- A column of an island with a battery raises no bad lookup. -/
theorem column_ensures {acc : Globals × PowerBalance} (h : acc.1.HasBattery island) (c : String × ℚ) :
    Ensures Harmless (fun acc' => acc'.1.HasBattery island) (column net inp island acc c) := by
  suffices hs : Ensures Harmless (fun _ => True) (column net inp island acc c) by
    exact hs.mono fun acc' hacc _ => h.moves (column_moves hacc)
  obtain ⟨s, bal⟩ := acc
  obtain ⟨name, x⟩ := c
  simp only [column]
  cases columnKind name with
  | solar => trivial
  | shed => exact ensures_bind (shedColumn_ensures h name x) fun _ _ _ => trivial
  | virtual =>
    refine ensures_bind (P := fun _ => True) ?_ fun _ _ _ => trivial
    unfold virtualColumn
    refine ensures_bind h.ensures fun vb hb _ => ?_
    exact packetizeIsland_ensures (h.move (show Move inp island s _ from .setpoint x hb)) name
  | battery =>
    exact ensures_bind (P := fun _ => True) (ensures_orRaise (fun _ => by decide) fun _ _ => trivial)
      fun _ _ _ => trivial
  | other => trivial

theorem manageIsland_ensures (h : s.HasBattery island) :
    Ensures Harmless (fun s' => island ∈ s'.powerbal.keys) (manageIsland net inp s island) := by
  unfold manageIsland
  refine ensures_bind h.ensures fun vb _ _ => ?_
  refine ensures_bind (P := fun _ => True) (ensures_orRaise (fun _ => by decide) fun _ _ => trivial)
    fun nfload _ _ => ?_
  refine ensures_bind (P := fun _ => True) ?_ fun p _ _ => ?_
  · refine Ensures.mono (P := fun acc => acc.1.HasBattery island) ?_ fun _ _ _ => trivial
    exact ensures_foldlM (fun c _ acc hacc => column_ensures hacc c) h
  · exact Table.mem_keys_set.2 (.inl rfl)

/-! ## Commits -/

theorem updateVB_ensures (inp : CommitInput) (islands : List Island) (s : Globals) :
    Ensures Harmless (fun _ => True) (s.updateVB net inp islands) := by
  unfold updateVB
  refine ensures_bind (P := fun _ => True) ?_ fun _ _ _ => trivial
  refine ensures_foldlM (fun i _ acc _ => ?_) trivial
  unfold islandBattery
  refine ensures_bind (P := fun _ => True) ?_ fun sets _ _ => ?_
  · exact ensures_foldlM (Q := fun _ => True)
      (fun node _ sets _ => ensures_bind (nodeDevices_ensures _ node) fun _ _ _ => trivial) trivial
  · refine ensures_bind (P := fun _ => True) ?_ fun _ _ _ => trivial
    have dev : ∀ ids : List DeviceId, Ensures Harmless (fun _ => True) (ids.mapM acc.1.device) := by
      intro ids
      induction ids with
      | nil => trivial
      | cons id ids ih =>
        rw [List.mapM_cons]
        exact ensures_bind (device_ensures _ id) fun _ _ _ => ensures_bind ih fun _ _ _ => trivial
    exact dev _

theorem prepare_ensures (inp : CommitInput) (s : Globals) : Ensures Harmless (fun _ => True) (s.prepare net inp) := by
  unfold prepare
  generalize (if inp.time - s.tStart = 0 then s.initializeDevices net inp else s) = s₀
  refine ensures_bind (P := fun _ => True) ?_ fun s₁ _ _ => ?_
  · split
    · unfold adoptPartition
      refine ensures_bind (P := fun _ => True) ?_ fun _ _ _ => trivial
      split
      · exact updateVB_ensures _ _ _
      · trivial
    · trivial
  · unfold reIslandBatteries
    split
    · exact ensures_bind (updateVB_ensures _ _ _) fun _ _ _ => trivial
    · trivial

/-- Between commits: every island in force has its battery and, once there are islanded devices, its
power balance. -/
structure Entered (net : Network) (s : Globals) : Prop where
  mapped : s.Mapped net
  reIsland : s.reIsland = false
  islanded : s.islandedDevices ≠ [] → s.islanded = true
  batteries : ∀ i ∈ s.islands.getD [], s.HasBattery i
  balances : s.islandedDevices ≠ [] → ∀ i ∈ s.islands.getD [], i ∈ s.powerbal.keys

/-- A new partition is adopted at a management step, or all its islands were managed before. -/
def PartitionManaged (net : Network) (s : Globals) (inp : CommitInput) : Prop :=
  s.ChangesPartition net inp → ((inp.time - s.tStart) % tManage = 0 ∧ inp.atStop = false) ∨
    ∀ i ∈ inp.partition, i ∈ s.powerbal.keys

instance (inp : CommitInput) : Decidable (s.PartitionManaged net inp) := inferInstanceAs (Decidable (_ → _))

theorem control_ensures {inp : CommitInput} (hb : ∀ i ∈ s.islands.getD [], s.HasBattery i)
    (hbal : ¬ s.Manages inp → s.islandedDevices ≠ [] → ∀ i ∈ s.islands.getD [], i ∈ s.powerbal.keys)
    (hisl : s.islandedDevices ≠ [] → s.islanded = true) :
    Ensures Harmless (fun s' => SameIslands s s' ∧ (s.islandedDevices ≠ [] → ∀ i ∈ s.islands.getD [], i ∈ s'.powerbal.keys))
      (s.control net inp) := by
  have keep : ∀ {c : Globals} {i : Island}, SameIslands s c → i ∈ s.islands.getD [] → c.HasBattery i :=
    fun hc hi => (hb _ hi).congr hc.batteries
  unfold control
  split
  · refine Ensures.mono (ensures_foldlM_forall (Q := SameIslands s) (A := fun i (c : Globals) => i ∈ c.powerbal.keys)
      (fun i hi c hc => ?_) (.refl s)) fun s' _ ⟨hs, hall, _⟩ => ⟨hs, fun _ => hall⟩
    refine (manageIsland_ensures (keep hc hi)).mono fun c' hm hin => ?_
    have ht := manageIsland_turn hm
    exact ⟨hc.trans ht.same, hin, fun x hx => ht.mem_powerbal.2 (.inr hx)⟩
  · rename_i hnm
    split
    · rename_i hdev
      have hbal := hbal hnm hdev.1
      refine Ensures.mono (ensures_foldlM (Q := fun c => SameIslands s c ∧ ∀ i ∈ s.islands.getD [], i ∈ c.powerbal.keys)
        (fun i hi c hc => ?_) ⟨.refl s, hbal⟩) fun s' _ ⟨hs, hall⟩ => ⟨hs, fun _ => hall⟩
      suffices h : Ensures Harmless (fun _ => True) (packetizeTurn net inp.toManageInput c i) by
        refine h.mono fun c' hm _ => ?_
        have ht := packetizeTurn_turn hm
        exact ⟨hc.1.trans ht.same, fun x hx => ht.mem_powerbal.2 (.inr (hc.2 x hx))⟩
      unfold packetizeTurn
      refine ensures_bind (packetizeIsland_ensures (keep hc.1 hi) "") fun p hp _ => ?_
      refine ensures_bind (P := fun _ => True) (ensures_orRaise (fun hn => ?_) fun _ _ => trivial) fun _ _ _ => trivial
      -- the balance is there, and packetizing does not touch the balances
      have hk := (Move.packetize (show c.packetizeIsland inp.toManageInput i "" = .ok (p.1, p.2) from hp)).unmoved.powerbal
      obtain ⟨bal, hbal'⟩ := Dict.mem_keys_iff.1 (hc.2 i hi)
      rw [hk, hbal'] at hn
      cases hn
    · rename_i hno
      exact ⟨.refl s, fun hd => absurd (show s.islandedDevices ≠ [] ∧ s.islanded = true from ⟨hd, hisl hd⟩) hno⟩

theorem onCommit_ensures {inp : CommitInput} (h : Entered net s) (hc : s.PartitionManaged net inp) :
    Ensures Harmless (Entered net) (s.onCommit net inp) := by
  unfold onCommit
  refine ensures_bind (prepare_ensures inp s) fun s₁ hs₁ _ => ?_
  have hp := prepare_spec h.mapped h.reIsland hs₁
  have hbat : ∀ i ∈ s₁.islands.getD [], s₁.HasBattery i := by
    by_cases hch : s.ChangesPartition net inp
    · obtain ⟨hi, hpart⟩ := hp.new hch
      rw [hi]
      exact fun i hi => (hpart.batteries i).2 hi
    · obtain ⟨hi, hv, -⟩ := hp.same hch
      rw [hi]
      exact fun i hi => (h.batteries i hi).congr (congrArg _ hv)
  have hisl : s₁.islandedDevices ≠ [] → s₁.islanded = true := by
    intro hd
    rw [hp.islanded, Bool.or_eq_true]
    by_cases hch : s.ChangesPartition net inp
    · exact .inr hch.1
    · rw [(hp.same hch).2.2] at hd
      exact .inl (h.islanded hd)
  refine (control_ensures hbat ?_ hisl).mono fun s' _ ⟨hsame, hbal⟩ => ?_
  · intro hnm hd
    by_cases hch : s.ChangesPartition net inp
    · rw [(hp.new hch).1, hp.powerbal]
      rcases hc hch with ⟨ht, hstop⟩ | hall
      · exact absurd ⟨by rw [hp.tStart]; exact ht, hd, hisl hd, hstop⟩ hnm
      · exact hall
    · obtain ⟨hi, -, hdev⟩ := hp.same hch
      rw [hi, hp.powerbal]
      exact h.balances (by rw [← hdev]; exact hd)
  · refine ⟨hp.mapped.congr hsame.deviceMap, hsame.reIsland.trans hp.reIsland, ?_, ?_, ?_⟩
    · rw [hsame.islandedDevices, hsame.islanded]; exact hisl
    · rw [hsame.islands]
      exact fun i hi => (hbat i hi).congr hsame.batteries
    · rw [hsame.islands, hsame.islandedDevices]; exact hbal

/-- The commit fails, if at all, for another reason than a missing power balance or battery. -/
def FindsEntries (net : Network) (s : Globals) (inp : CommitInput) : Prop :=
  ∀ e, s.onCommit net inp = .error e → Harmless e

instance (inp : CommitInput) : Decidable (s.FindsEntries net inp) :=
  match h : s.onCommit net inp with
  | .ok _ => isTrue fun e he => by rw [h] at he; cases he
  | .error e => decidable_of_iff (Harmless e)
      ⟨fun he e' h' => by rw [h] at h'; cases h'; exact he, fun hf => hf e h⟩

theorem entered_init (net : Network) (tStart : ℤ) (st : GldState ℚ) : Entered net (init tStart st) where
  mapped := fun m hm => by cases hm
  reIsland := rfl
  islanded := fun h => absurd rfl h
  batteries := fun i h => by cases h
  balances := fun h => absurd rfl h

/-- A run of commits that adopts new partitions at management steps only, or partitions of islands
managed before, never fails to find a power balance or a battery. -/
theorem commits_find_entries (net : Network) (tStart : ℤ) (st : GldState ℚ) (inps : List CommitInput)
    (h : AllSteps (raising (onCommit net)) (PartitionManaged net) (init tStart st) inps) :
    AllSteps (raising (onCommit net)) (FindsEntries net) (init tStart st) inps := by
  refine allSteps_of_invariant (fun s inp s' (hs : Entered net s) hc hstep => ?_) (fun s inp hs hc => ?_)
    (entered_init net tStart st) h
  · exact (onCommit_ensures hs hc).of_ok (toOption_eq_some.1 hstep)
  · exact fun e he => (onCommit_ensures hs hc).of_error he

/-- A fault at 180 islands the first feeder: the management step enters the balance that the commit
at 210 looks up. -/
theorem managed_partition_found :
    AllSteps (raising (onCommit twoFeeders)) (FindsEntries twoFeeders) (init 0 untouched)
      [smallCommit 0 (fun _ => false) [] fun _ => resultRow "101" 5 0,
        smallCommit 180 (· = 102) [[101]] fun _ => resultRow "101" 5 0,
        smallCommit 210 (· = 102) [[101]] fun _ => resultRow "101" 5 0] :=
  commits_find_entries _ _ _ _ (by decide +kernel)

/-- A fault at 30 islands the first feeder: no management step has entered its balance. -/
theorem unmanaged_partition_fails :
    ¬ AllSteps (raising (onCommit twoFeeders)) (FindsEntries twoFeeders) (init 0 untouched)
      [smallCommit 0 (fun _ => false) [] fun _ => resultRow "101" 5 0,
        smallCommit 30 (· = 102) [[101]] fun _ => resultRow "101" 5 0] := by
  decide +kernel

end Grip.Absorption.Globals
