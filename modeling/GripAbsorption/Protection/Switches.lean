/-
The network along a run without load control, when nothing but the scheme changes it. A branch at a faulted node is named
once for each of its ends that is faulted and once again at every change as long as it is closed; toggled or not, it is
never closed again. So the network of any commit is the one of the start without the branches at the nodes that have had a
fault, other than the solar and the battery switches and what is not connected to the scheme.
-/
import GripAbsorption.Islanding.Switching
import GripAbsorption.Protection.Run

namespace Grip.Protection

open Grip.Base Grip.Islanding

/-! ## Orders -/

/-- The branch when GridLAB-D has carried out an order to toggle, if it is connected to the scheme. -/
def toggleBranch (connected : Text → Bool) (armed : Text) (b : BranchObject) : BranchObject :=
  if connected b.name then { b with status := if toggled armed b then "CLOSED".toList else "OPEN".toList } else b

theorem name_toggleBranch (connected : Text → Bool) (armed : Text) (b : BranchObject) :
    (toggleBranch connected armed b).name = b.name := by
  unfold toggleBranch
  split <;> rfl

/-- The network when the order has been carried out. -/
def carryOut (connected : Text → Bool) (feeder : Feeder) (armed : Text) : Feeder where
  branches := feeder.branches.mapRows (toggleBranch connected armed) (name_toggleBranch connected armed)
  status := by
    intro b hb
    rw [Table.rows_mapRows] at hb
    obtain ⟨b', hb', rfl⟩ := List.mem_map.1 hb
    unfold toggleBranch
    split
    · dsimp only
      split
      exacts [.inl rfl, .inr rfl]
    · exact feeder.status b' hb'

/-- A run in which each commit has the network that the one before has left, with its orders carried out. -/
inductive Undisturbed (net : Network) (fuel : ℕ) (connected : Text → Bool) (s₀ : State) (feeder₀ : Feeder) :
    List CommitInput → State → Feeder → Prop
  | start : Undisturbed net fuel connected s₀ feeder₀ [] s₀ feeder₀
  | commit {inps : List CommitInput} {inp : CommitInput} {s s' : State} {feeder : Feeder}
      (h : Undisturbed net fuel connected s₀ feeder₀ inps s feeder) (hfeeder : inp.feeder = feeder)
      (hcommit : onCommit net fuel s inp = .ok s') :
      Undisturbed net fuel connected s₀ feeder₀ (inps ++ [inp]) s'
        ((s'.orders.drop s.orders.length).foldl (carryOut connected) feeder)

/-- The branch is one that faults of the commits open. -/
def Isolates (net : Network) (connected : Text → Bool) (inps : List CommitInput) (b : BranchObject) : Prop :=
  connected b.name = true ∧ (¬ "solar".toList <:+: b.name ∧ ¬ "battery".toList <:+: b.name) ∧
    ∃ c ∈ inps, Faulted net c b.toNode ∨ Faulted net c b.fromNode

/-- What has become of a branch. -/
structure Opened (net : Network) (connected : Text → Bool) (inps : List CommitInput) (b b' : BranchObject) : Prop where
  name : b'.name = b.name
  cls : b'.cls = b.cls
  toNode : b'.toNode = b.toNode
  fromNode : b'.fromNode = b.fromNode
  closed : b'.closed = true ↔ b.closed = true ∧ ¬ Isolates net connected inps b

variable {net : Network} {connected : Text → Bool} {fuel : ℕ} {inps : List CommitInput} {inp : CommitInput} {s s' : State}
  {feeder feeder₀ : Feeder} {tStart : ℤ} {loads : GldLoads} {island : IslandGld} {armed : Text} {b b' : BranchObject}

theorem closed_toggleBranch : (toggleBranch connected armed b).closed =
    if connected b.name then toggled armed b else b.closed := by
  unfold toggleBranch
  split
  · cases htog : toggled armed b
    · rfl
    · rfl
  · rfl

theorem isolates_concat : Isolates net connected (inps ++ [inp]) b ↔ Isolates net connected inps b ∨
    Isolates net connected [inp] b := by
  unfold Isolates
  rw [← and_or_left, ← and_or_left]
  refine and_congr_right fun _ => and_congr_right fun _ => ?_
  simp only [List.mem_append, or_and_right, exists_or]

theorem opened_refl (b : BranchObject) : Opened net connected [] b b := by
  refine ⟨rfl, rfl, rfl, rfl, (and_iff_left ?_).symm⟩
  rintro ⟨-, -, c, hc, -⟩
  exact List.not_mem_nil hc

/-! ## One commit -/

/-- The names an order is made of. -/
theorem mem_armed {switches : List Text} {s : State} (hnames : ∀ b ∈ feeder.branches.rows, IsArmable b.name)
    (hswitches : ∀ name, name ∈ switches ↔ OpenedFor feeder (Faulted net inp) name) (hb : b ∈ feeder.branches.rows) :
    b.name ∈ armedNames (s.island.toggleSwitches switches).armed ↔ ∃ m, Faulted net inp m ∧ Feeder.ToOpen m b := by
  rw [armedNames_toggleSwitches, hswitches]
  · constructor
    · rintro ⟨br, hbr, hname, h⟩
      rwa [feeder.branches.key_inj hb hbr hname.symm]
    · exact fun h => ⟨b, hb, rfl, h⟩
  · intro name hname
    obtain ⟨br, hbr, rfl, -⟩ := (hswitches name).1 hname
    exact hnames br hbr

/-- An order opens the branches at the faulted nodes and no other. -/
theorem closed_of_order {switches : List Text} {s : State} (hnames : ∀ b ∈ feeder.branches.rows, IsArmable b.name)
    (hswitches : ∀ name, name ∈ switches ↔ OpenedFor feeder (Faulted net inp) name) (hb : b ∈ feeder.branches.rows) :
    (toggleBranch connected (s.island.toggleSwitches switches).armed b).closed = true ↔
      b.closed = true ∧ ¬ Isolates net connected [inp] b := by
  have hmem := mem_armed (s := s) hnames hswitches hb
  have hany : (armedNames (s.island.toggleSwitches switches).armed).any (· = b.name) = true ↔
      ∃ m, Faulted net inp m ∧ Feeder.ToOpen m b := by
    rw [← hmem]
    simp
  have hiso : connected b.name = true → b.closed = true → ((∃ m, Faulted net inp m ∧ Feeder.ToOpen m b) ↔
      Isolates net connected [inp] b) := by
    intro hconn hclosed
    unfold Feeder.ToOpen Isolates
    simp only [List.mem_singleton, exists_eq_left, hconn, hclosed, true_and]
    constructor
    · rintro ⟨m, hm, rfl | rfl, hname⟩
      exacts [⟨hname, .inl hm⟩, ⟨hname, .inr hm⟩]
    · rintro ⟨hname, hm | hm⟩
      exacts [⟨_, hm, .inl rfl, hname⟩, ⟨_, hm, .inr rfl, hname⟩]
  rw [closed_toggleBranch]
  by_cases hconn : connected b.name = true
  · rw [if_pos hconn]
    unfold toggled
    by_cases hopen : ∃ m, Faulted net inp m ∧ Feeder.ToOpen m b
    · have hclosed : b.closed = true := hopen.choose_spec.2.2.1
      rw [if_pos (hany.2 hopen), hclosed]
      exact iff_of_false (by simp) fun h => h.2 ((hiso hconn hclosed).1 hopen)
    · rw [if_neg fun h => hopen (hany.1 h)]
      exact ⟨fun hclosed => ⟨hclosed, fun h => hopen ((hiso hconn hclosed).2 h)⟩, And.left⟩
  · rw [if_neg hconn]
    exact (and_iff_left fun h => hconn h.1).symm

/-- One commit and its orders: the branches at its faults join those that are open. -/
theorem opened_commit (hran : Ran net tStart loads inps s) (hc : Committed net inp s s') (hfeeder : inp.feeder = feeder)
    (hnames : ∀ b ∈ feeder.branches.rows, IsArmable b.name)
    (h : List.Forall₂ (Opened net connected inps) feeder₀.branches.rows feeder.branches.rows) :
    List.Forall₂ (Opened net connected (inps ++ [inp])) feeder₀.branches.rows
      ((s'.orders.drop s.orders.length).foldl (carryOut connected) feeder).branches.rows := by
  by_cases hchange : Change net s inp
  · obtain ⟨switches, hisland, horders, hswitches⟩ := hc.ordered hchange
    rw [hfeeder] at hswitches
    rw [horders, List.drop_left, hisland]
    show List.Forall₂ _ _ (feeder.branches.rows.map _)
    rw [List.forall₂_map_right_iff]
    refine List.forall₂_iff_zip.2 ⟨h.length_eq, fun {b b'} hz => ?_⟩
    have hb := List.forall₂_zip h hz
    obtain ⟨-, hb'⟩ := List.of_mem_zip hz
    have hclosed : (toggleBranch connected (s.island.toggleSwitches switches).armed b').closed = true ↔ _ :=
      closed_of_order hnames hswitches hb'
    have hsame : Isolates net connected [inp] b' ↔ Isolates net connected [inp] b := by
      unfold Isolates
      rw [hb.name, hb.toNode, hb.fromNode]
    refine ⟨(name_toggleBranch ..).trans hb.name, ?_, ?_, ?_, ?_⟩
    · unfold toggleBranch
      split <;> exact hb.cls
    · unfold toggleBranch
      split <;> exact hb.toNode
    · unfold toggleBranch
      split <;> exact hb.fromNode
    · rw [hclosed, hb.closed, hsame, isolates_concat, not_or, and_assoc]
  · obtain ⟨-, horders⟩ := hc.same hchange
    rw [horders, List.drop_length]
    -- the flags are those of the commit before
    have hbefore : ∀ n, Faulted net inp n → ∃ c ∈ inps, Faulted net c n := by
      intro n hn
      have hmem : n ∈ s.faultedNodes := by
        by_contra hno
        exact hchange ⟨n, hn.1, fun hiff => hno (hiff.1 hn.2)⟩
      obtain ⟨-, hflag⟩ := (hran.faultedNodes n).1 hmem
      unfold flagAfter at hflag
      cases hlast : inps.getLast? with
      | none => rw [hlast] at hflag; cases hflag
      | some c =>
        rw [hlast] at hflag
        exact ⟨c, List.mem_of_getLast? hlast, hn.1, hflag⟩
    refine h.imp fun b b' hb => ⟨hb.name, hb.cls, hb.toNode, hb.fromNode, hb.closed.trans (and_congr_right fun _ => not_congr ?_)⟩
    rw [isolates_concat]
    refine ⟨.inl, fun h => h.elim id ?_⟩
    rintro ⟨hconn, hname, c, hc, hends⟩
    obtain rfl := List.mem_singleton.1 hc
    refine ⟨hconn, hname, ?_⟩
    rcases hends with hf | hf
    · obtain ⟨c', hc', hf'⟩ := hbefore _ hf
      exact ⟨c', hc', .inl hf'⟩
    · obtain ⟨c', hc', hf'⟩ := hbefore _ hf
      exact ⟨c', hc', .inr hf'⟩

/-! ## Runs -/

theorem ran_of_undisturbed (h : Undisturbed net fuel connected (.init tStart loads island) feeder₀ inps s feeder) :
    Ran net tStart loads inps s := by
  induction h with
  | start => exact ran_init net tStart loads island
  | commit _ _ hcommit ih => exact ih.commit (committed_of_onCommit ih.mapped hcommit)

/-- Every commit of a run meets the network of the start without the branches at the nodes that had a fault before it, as far as
they are connected to the scheme and their names say neither solar nor battery; and the run leaves it without
those of all its faults, cleared or not. -/
theorem undisturbed_opened (net : Network) (fuel : ℕ) (connected : Text → Bool) (tStart : ℤ) (loads : GldLoads)
    (island : IslandGld) (feeder₀ feeder : Feeder) (inps : List CommitInput) (s : State)
    (hnames : ∀ b ∈ feeder₀.branches.rows, IsArmable b.name)
    (h : Undisturbed net fuel connected (.init tStart loads island) feeder₀ inps s feeder) :
    (∀ before c, before ++ [c] <+: inps →
        List.Forall₂ (Opened net connected before) feeder₀.branches.rows c.feeder.branches.rows) ∧
      List.Forall₂ (Opened net connected inps) feeder₀.branches.rows feeder.branches.rows := by
  induction h with
  | start => exact ⟨fun before c hpre => by simp at hpre, List.forall₂_same.2 fun b _ => opened_refl b⟩
  | @commit inps inp s s' feeder h hfeeder hcommit ih =>
    have hran := ran_of_undisturbed h
    have hnames' : ∀ b ∈ feeder.branches.rows, IsArmable b.name := by
      intro b' hb'
      obtain ⟨b, hb, hopened⟩ := mem_of_forall₂ ih.2 hb'
      rw [hopened.name]
      exact hnames b hb
    refine ⟨forall_prefix_concat.2 ⟨ih.1, ?_⟩, ?_⟩
    · rw [hfeeder]
      exact ih.2
    · exact opened_commit hran (committed_of_onCommit hran.mapped hcommit) hfeeder hnames' ih.2

/-! ## A fault that clears -/

/-- The supernodes of the diamond, each with a meter and an inverter. -/
def diamondNet : Network where
  supernodes := ["a".toList, "b".toList, "c".toList, "d".toList]
  supernodes_nodup := by decide +kernel
  meters := [⟨"m_b".toList, "b".toList⟩, ⟨"m_d".toList, "d".toList⟩]
  inverters := [⟨"i_d".toList, "d".toList⟩]
  houses := []
  waterheaters := []

def untouchedLoads : GldLoads where
  pOut _ := "5".toList
  generatorStatus _ := "ONLINE".toList
  pOutFile _ := []
  serviceStatus _ := "IN_SERVICE".toList
  reOverride _ := "OV_NORMAL".toList

def diamondStart : State := .init 0 untouchedLoads ⟨[], fun _ => false⟩

/-- The bottom of the diamond fails at the start, and is repaired. -/
def failing (feeder : Feeder) : CommitInput := ⟨0, "noon".toList, fun n => n = "d".toList, feeder⟩

def repaired (feeder : Feeder) : CommitInput := ⟨60, "one".toList, fun _ => false, feeder⟩

theorem diamondFeeder_armable (b : BranchObject) (hb : b ∈ diamondFeeder.branches.rows) : IsArmable b.name := by
  refine ⟨?_, ?_⟩
  · exact (show ∀ b ∈ diamondFeeder.branches.rows, IsWord b.name by decide +kernel) b hb
  · exact (show ∀ b ∈ diamondFeeder.branches.rows, '|' ∉ b.name by decide +kernel) b hb

/-- A line to it is open for good. -/
theorem diamondFeeder_opened : ∃ inps s feeder,
    Undisturbed diamondNet 7 (fun _ => true) diamondStart diamondFeeder inps s feeder ∧ (∀ n, flagAfter inps n = false) ∧
      ∃ b ∈ feeder.branches.rows, b.name = "l3".toList ∧ b.closed = false := by
  have hfirst : (onCommit diamondNet 7 diamondStart (failing diamondFeeder)).toOption.isSome = true := by decide +kernel
  obtain ⟨s₁, hs₁⟩ := Option.isSome_iff_exists.1 hfirst
  obtain ⟨feeder₁, h₁⟩ : ∃ feeder₁, Undisturbed diamondNet 7 (fun _ => true) diamondStart diamondFeeder
      [failing diamondFeeder] s₁ feeder₁ := ⟨_, .commit .start rfl (toOption_eq_some.1 hs₁)⟩
  -- the fault clears, so the second commit walks nowhere
  have hlen := (undisturbed_opened _ _ _ _ _ _ _ _ _ _ diamondFeeder_armable h₁).2.length_eq
  have hno : ∀ n, ¬ Faulted diamondNet (repaired feeder₁) n := fun n hn => Bool.noConfusion hn.2
  have hends : Ends diamondNet (repaired feeder₁) s₁ := ⟨fun ⟨n, hn⟩ => absurd hn (hno n), fun _ m hm => absurd hm (hno m)⟩
  have hfuel : (repaired feeder₁).feeder.branches.rows.length < 7 := by
    show feeder₁.branches.rows.length < 7
    rw [← hlen]
    decide
  obtain ⟨s₂, hs₂⟩ := exists_onCommit (ran_of_undisturbed h₁).mapped hends hfuel
  have h₂ := h₁.commit rfl hs₂
  refine ⟨_, _, _, h₂, fun n => rfl, ?_⟩
  have hl3 : (⟨"l3".toList, .overheadLine, "d".toList, "b".toList, "CLOSED".toList⟩ : BranchObject) ∈
      diamondFeeder.branches.rows := List.mem_cons_of_mem _ (List.mem_cons_of_mem _ (List.mem_cons_self ..))
  obtain ⟨b, hb, hopened⟩ := mem_of_forall₂ (undisturbed_opened _ _ _ _ _ _ _ _ _ _ diamondFeeder_armable h₂).2.flip hl3
  refine ⟨b, hb, hopened.name, Bool.eq_false_iff.2 fun hclosed => (hopened.closed.1 hclosed).2 ?_⟩
  exact ⟨rfl, ⟨by decide +kernel, by decide +kernel⟩, failing diamondFeeder, List.mem_cons_self ..,
    .inl ⟨by decide +kernel, by decide +kernel⟩⟩

end Grip.Protection
