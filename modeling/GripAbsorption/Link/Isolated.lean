/-
Faults along a simulation. At every change of faults a new partition is asked for, and whatever plan the
server replies with, every branch at a faulted supernode is open; so the supernode is a component of its own,
which is no virtual island. Between changes neither the faults nor the islands change.
-/
import GripAbsorption.Link.Session

namespace Grip.Link

open Grip.Base Grip.Islanding Grip.Absorption Grip.Packetized

variable {parseFloat : Text → Option ℚ} {site : Site} {c : Scene} {log : List (Message × Reply)}

/-! ## Faulted nodes -/

section

variable {s s' : Globals}

/-- A scan leaves the list that the flags ask for; without a change it leaves the list as it is. -/
theorem newFaultDetected_spec (net : Absorption.Network) (fault : ℕ → Bool) (s : Globals) :
    (∀ n, n ∈ (s.newFaultDetected net fault).1 ↔ if n ∈ net.supernodes then fault n = true else n ∈ s.faultedNodes) ∧
      ((s.newFaultDetected net fault).2 = false → (s.newFaultDetected net fault).1 = s.faultedNodes) := by
  unfold Globals.newFaultDetected
  induction net.supernodes using List.reverseRecOn with
  | nil => simp
  | append_singleton done sn ih =>
    rw [List.foldl_concat]
    obtain ⟨hmem, hsame⟩ := ih
    generalize done.foldl (Globals.faultTurn fault) (s.faultedNodes, false) = acc at hmem hsame
    unfold Globals.faultTurn
    refine ⟨fun n => ?_, fun h => ?_⟩
    · by_cases hn : n = sn
      · subst hn
        rw [if_pos (List.mem_append_right _ (List.mem_singleton_self n))]
        split_ifs <;> simp_all
      · have hiff : n ∈ done ++ [sn] ↔ n ∈ done := by simp [hn]
        rw [← if_congr hiff.symm rfl rfl, ← hmem]
        split_ifs <;> simp [hn]
    · split_ifs at h ⊢ <;> simp_all

theorem faultedNodes_control {inp : CommitInput} (h : s.control site.net inp = .ok s') :
    s'.faultedNodes = s.faultedNodes :=
  Globals.control_invariant (P := fun s' => s'.faultedNodes = s.faultedNodes)
    (fun _ _ _ _ ht hc => ht.invariant (fun _ _ hm hc => hm.unmoved.faultedNodes.trans hc) (fun _ _ hc => hc) hc) rfl h

/-- The faults in a commit are those the flags show. -/
theorem mem_scanned (site : Site) (c : Scene) (s : Globals) (n : ℕ) : n ∈ (scanned site c s).faultedNodes ↔
    if n ∈ site.net.supernodes then c.fault n = true else n ∈ s.faultedNodes := by
  have hinit : (initialized site c s).faultedNodes = s.faultedNodes := by
    unfold initialized
    split <;> rfl
  rw [← hinit]
  exact (newFaultDetected_spec site.net c.fault (initialized site c s)).1 n

theorem scanned_of_same (h : ¬ FaultChange site c s) : (scanned site c s).faultedNodes = s.faultedNodes := by
  have hinit : (initialized site c s).faultedNodes = s.faultedNodes := by
    unfold initialized
    split <;> rfl
  rw [← hinit]
  exact (newFaultDetected_spec site.net c.fault (initialized site c s)).2 (Bool.eq_false_iff.2 h)

end

/-! ## The partition of a reply -/

section

variable {s : State} {data : Datadump} {mapback : Dict ℕ ℕ}

/-- No virtual island of the reply has the swing bus or a faulted supernode in it. -/
theorem partition_isolated (hpad : c.feeder.EndsPadded) (h : islandRequest site c s.globals = .ok (data, mapback))
    {branches : List ResultRow} (hislands : Islands parseFloat data branches) {gld : IslandGld} {partition : List Island}
    (hp : partitionOf site c s mapback branches = .ok (gld, partition)) :
    ∀ island ∈ partition, site.swingSn ∉ island ∧ ∀ b ∈ s.globals.faultedNodes, b ∉ island := by
  intro island hisland
  cases hislands with
  | @plan nbr ng nb nd branch msg draws args p hread hargs hplan =>
    have hnames : ∀ name ∈ faultedNames s.globals, ∃ b, name = supernodeName b := fun name hname => by
      obtain ⟨b, -, rfl⟩ := List.mem_map.1 hname
      exact ⟨b, rfl⟩
    obtain ⟨hback, hloop⟩ := hread.mapsBack hpad h hnames
    have hserver := islandingArgs_spec hargs
    obtain ⟨results, hresults, hprocess⟩ := bind_ok.1 hp
    obtain ⟨groups, hgroups, hmem, hswing, first, hfirst, hnot⟩ := mem_processIslands hprocess hisland
    refine ⟨hswing, fun b hb hbi => ?_⟩
    -- the faulted supernode has no closed branch, so it is the only one of its group
    have hname : supernodeName b ∈ faultedNames s.globals := List.mem_map_of_mem hb
    set scene : IslandScene := ⟨site.swingSn, faultedNames s.globals, site.inverters⟩
    have hback' : MapsBack mapback msg.faultedNodes scene.faultedNodes := hback
    have hunlinked := faulted_unlinked hserver hplan.switches.fixed hback' hresults hname
    obtain ⟨groups', hgroups', hnodup, -, -, hgroup⟩ :=
      newIslands_spec (noSelfLoops_of_newIslands hgroups) c.order le_rfl c.draws
    obtain rfl : groups = groups' := by rw [hgroups] at hgroups'; cases hgroups'; rfl
    obtain ⟨r, -, hr⟩ := hgroup island hmem
    have halone := group_of_unlinked hunlinked ((List.nodup_flatten.1 hnodup).1 island hmem) hr hbi
    rw [halone] at hfirst
    cases hfirst
    exact hnot hname

end

/-! ## Along a simulation -/

/-- The islands in force are disjoint, and no faulted supernode and no swing bus is in one. -/
structure Isolated (site : Site) (s : Globals) : Prop where
  disjoint : (s.islands.getD []).flatten.Nodup
  swing : ∀ island ∈ s.islands.getD [], site.swingSn ∉ island
  faulted : ∀ island ∈ s.islands.getD [], ∀ b ∈ s.faultedNodes, b ∉ island

variable {s s' : State} {inp : CommitInput}

/-- A commit keeps the islands isolated, and its faults are those the flags show. -/
theorem Exchanged.isolated (h : Exchanged parseFloat site c s inp log s') (hpad : c.feeder.EndsPadded)
    (hs : Isolated site s.globals) : Isolated site s'.globals := by
  cases h with
  | @intro partition row s₁ s' gld first rest hprepare hislands hcontrol _ =>
    obtain ⟨hisl, hfaulted⟩ := islands_prepare hprepare
    have hisl' : s'.islands = s₁.islands := islands_control hcontrol
    have hfaulted' : s'.faultedNodes = s₁.faultedNodes := faultedNodes_control hcontrol
    suffices hiso : Isolated site s₁ by
      constructor
      · rw [hisl']; exact hiso.disjoint
      · rw [hisl']; exact hiso.swing
      · rw [hisl', hfaulted']; exact hiso.faulted
    unfold IslandExchange at hislands
    by_cases hf : FaultChange site c s.globals
    · rw [if_pos hf] at hislands hisl
      obtain ⟨data, mapback, branches, hrequest, hbranches, -, hpartition⟩ := hislands
      have hiso := partition_isolated hpad hrequest hbranches hpartition
      obtain ⟨results, groups, -, -, -, hnodup, -⟩ := partitionOf_spec hpartition
      constructor
      · rw [hisl]; exact hnodup
      · rw [hisl]; exact fun island hi => (hiso island hi).1
      · rw [hisl, hfaulted]; exact fun island hi => (hiso island hi).2
    · rw [if_neg hf] at hisl
      constructor
      · rw [hisl]; exact hs.disjoint
      · rw [hisl]; exact hs.swing
      · rw [hisl, hfaulted, scanned_of_same hf]; exact hs.faulted

/-- The faults are supernodes, and after a commit those whose flag is set. -/
theorem Exchanged.faulted (h : Exchanged parseFloat site c s inp log s') (hs : ∀ n ∈ s.globals.faultedNodes, n ∈ site.net.supernodes)
    (n : ℕ) : n ∈ s'.globals.faultedNodes ↔ n ∈ site.net.supernodes ∧ c.fault n = true := by
  cases h with
  | intro hprepare _ hcontrol _ =>
    rw [show _ = _ from faultedNodes_control hcontrol, (islands_prepare hprepare).2, mem_scanned]
    split
    · rename_i hn
      rw [and_iff_right hn]
    · rename_i hn
      exact iff_of_false (fun h => hn (hs n h)) fun h => hn h.1

/-- The flags of the last commit are those of the faults. -/
def Shown (site : Site) (cs : List Scene) (s : Globals) : Prop :=
  ∀ n, n ∈ s.faultedNodes ↔ n ∈ site.net.supernodes ∧ ∃ c, cs.getLast? = some c ∧ c.fault n = true

theorem Session.isolated {cs : List Scene} {inps : List CommitInput} (h : Session parseFloat site s cs inps log s')
    (hpad : ∀ c ∈ cs, c.feeder.EndsPadded) (hiso : Isolated site s.globals)
    (hs : ∀ n ∈ s.globals.faultedNodes, n ∈ site.net.supernodes) :
    Isolated site s'.globals ∧ (cs ≠ [] → Shown site cs s'.globals) := by
  induction h with
  | nil => exact ⟨hiso, fun h => (h rfl).elim⟩
  | @cons s s₁ s' c cs inp inps log log' h hs' ih =>
    rw [List.forall_mem_cons] at hpad
    have hfaulted := h.faulted hs
    obtain ⟨hiso', hshown⟩ := ih hpad.2 (h.isolated hpad.1 hiso) fun n hn => ((hfaulted n).1 hn).1
    refine ⟨hiso', fun _ => ?_⟩
    cases hs' with
    | nil =>
      intro n
      rw [hfaulted]
      simp
    | cons =>
      have hshown := hshown (List.cons_ne_nil _ _)
      unfold Shown at hshown ⊢
      rwa [List.getLast?_cons_cons]

/-- Whatever plans and rows the server replies with, in every order of turns: after the commits the islands in force are
disjoint, and no supernode that is flagged as faulted in the last commit is in one, nor is the swing bus. -/
theorem simulation_isolated (parseFloat : Text → Option ℚ) (site : Site) (sentAt : Text) (cs : List Scene) (tStart : ℤ)
    (st : GldState ℚ) (gld : IslandGld) (hpad : ∀ c ∈ cs, c.feeder.EndsPadded) :
    Always (Serves parseFloat) (fun x => ∀ s', x = .ok s' → Isolated site s'.globals ∧
      ∀ c, cs.getLast? = some c → ∀ n ∈ site.net.supernodes, c.fault n = true →
        ∀ island ∈ s'.globals.islands.getD [], n ∉ island)
      (simulation site sentAt cs ⟨.init tStart st, gld⟩) := by
  refine fun p hp => Config.always_iff.2 fun log x hrun s' hx => ?_
  subst hx
  obtain ⟨inps, hs⟩ := (returns_commits (s := ⟨.init tStart st, gld⟩) List.nodup_nil).1 (Config.run_done_iff.1 hrun)
  have hstart : Isolated site (.init tStart st) := ⟨List.nodup_nil, fun _ h => (List.not_mem_nil h).elim, fun _ h => (List.not_mem_nil h).elim⟩
  obtain ⟨hiso, hshown⟩ := hs.isolated hpad hstart fun _ h => (List.not_mem_nil h).elim
  refine ⟨hiso, fun c hc n hn hfault island hi => hiso.faulted island hi n ?_⟩
  have hne : cs ≠ [] := by
    rintro rfl
    cases hc
  exact (hshown hne n).2 ⟨hn, c, hc, hfault⟩

/-! ## The small feeder -/

/-- The feeders of customers 1 and 2, with the swing bus 1003. -/
def smallSite : Site := ⟨twoFeeders, 1003, [], fewDoubles⟩

/-- The small feeder with a fault at supernode 101. -/
def faultScene : Scene where
  time := 0
  gld := fun _ => ⟨70, 0, 70⟩
  chance := fun _ _ => ⟨fun _ _ _ => true, fun _ => 0, fun _ => 0, fun _ => 0⟩
  inverters := fun _ _ => 0
  fault := fun n => n = 101
  baselineMean := fun _ => 60
  setOrder := fun _ _ => 0
  atStop := false
  clock := ⟨0, "-04:00"⟩
  feeder := smallFeeder
  resources := islandResources
  order := fun _ => 0
  draws := fun _ _ => 0

theorem faultScene_isolated : Always (Serves parseFew) (fun x => ∀ s', x = .ok s' → Isolated smallSite s'.globals ∧
      ∀ c, [faultScene].getLast? = some c → ∀ n ∈ smallSite.net.supernodes, c.fault n = true →
        ∀ island ∈ s'.globals.islands.getD [], n ∉ island)
    (simulation smallSite "noon".toList [faultScene] ⟨.init 0 untouched, ⟨[], fun _ => false⟩⟩) :=
  simulation_isolated parseFew smallSite "noon".toList [faultScene] 0 untouched ⟨[], fun _ => false⟩
    (List.forall_mem_singleton.2 smallFeeder_padded)

end Grip.Link
