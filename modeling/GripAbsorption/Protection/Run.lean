/-
Runs of commits without load control. A load that has been shut off stays off whatever becomes of the fault, so what is
off at the end can be read off the flags and the networks of the commits; and the run comes to its end exactly when no
walk goes round a cycle and the device map was there before the first fault.
-/
import GripAbsorption.Protection.Commit

namespace Grip.Protection

open Grip.Base Grip.Islanding

/-- A simulation's commits. -/
def commits (net : Network) (fuel : ℕ) (s : State) (inps : List CommitInput) : Except Err State :=
  inps.foldlM (onCommit net fuel) s

/-! ## What happens in a run -/

/-- A flag after some commits; none is set at the start. -/
def flagAfter (inps : List CommitInput) (n : Text) : Bool := (inps.getLast?.map fun inp => inp.fault n).getD false

/-- The flags of the supernodes are not those of the commit before. -/
def ChangeAt (net : Network) (before : List CommitInput) (inp : CommitInput) : Prop :=
  ∃ n ∈ net.supernodes, inp.fault n ≠ flagAfter before n

/-- At some change of flags the node was downstream of a fault, in the network of that commit. -/
def CalledIn (net : Network) (inps : List CommitInput) : Calls := fun clock node =>
  ∃ before inp, before ++ [inp] <+: inps ∧ inp.clock = clock ∧ ChangeAt net before inp ∧
    DownstreamOf inp.feeder (Faulted net inp) node

/-- What a commit needs to return, after those before it. -/
structure EndsAt (net : Network) (tStart : ℤ) (before : List CommitInput) (inp : CommitInput) : Prop where
  mapped : (∃ n, Faulted net inp n) → ∃ c ∈ before ++ [inp], c.time = tStart
  acyclic : ChangeAt net before inp → ∀ m, Faulted net inp m → inp.feeder.AcyclicFrom m

variable {net : Network} {tStart : ℤ} {loads : GldLoads} {island : IslandGld} {inps : List CommitInput} {inp : CommitInput}
  {s s' : State} {fuel : ℕ}

theorem calledIn_concat {clock node : Text} : CalledIn net (inps ++ [inp]) clock node ↔
    CalledIn net inps clock node ∨
      inp.clock = clock ∧ ChangeAt net inps inp ∧ DownstreamOf inp.feeder (Faulted net inp) node :=
  exists_prefix_concat

/-! ## Runs that return -/

/-- What the commits have done. -/
structure Ran (net : Network) (tStart : ℤ) (loads : GldLoads) (inps : List CommitInput) (s : State) : Prop where
  started : s.tStart = tStart
  mapped : Mapped net s
  deviceMap : s.deviceMap ≠ none ↔ ∃ c ∈ inps, c.time = tStart
  faultedNodes : ∀ n, n ∈ s.faultedNodes ↔ n ∈ net.supernodes ∧ flagAfter inps n = true
  loads : ShutOff net (CalledIn net inps) loads s.loads

theorem ran_init (net : Network) (tStart : ℤ) (loads : GldLoads) (island : IslandGld) :
    Ran net tStart loads [] (.init tStart loads island) := by
  refine ⟨rfl, mapped_init net tStart loads island, ?_, fun n => ?_, .refl ?_⟩
  · exact iff_of_false (fun h => h rfl) fun ⟨_, hc, _⟩ => List.not_mem_nil hc
  · exact iff_of_false List.not_mem_nil fun h => Bool.noConfusion h.2
  · rintro clock node ⟨before, inp, hpre, -⟩
    have hnil := List.prefix_nil.1 hpre
    simp at hnil

theorem Ran.change (h : Ran net tStart loads inps s) : Change net s inp ↔ ChangeAt net inps inp := by
  unfold Change ChangeAt
  refine exists_congr fun n => and_congr_right fun hn => not_congr ?_
  rw [h.faultedNodes, and_iff_right hn]
  exact Bool.eq_iff_iff.symm

/-- There is a device map from the first commit at the start on. -/
theorem Ran.mapDevices (h : Ran net tStart loads inps s) :
    (s.mapDevices net inp).deviceMap ≠ none ↔ ∃ c ∈ inps ++ [inp], c.time = tStart := by
  unfold State.mapDevices
  simp only [List.mem_append, List.mem_singleton, or_and_right, exists_or, exists_eq_left]
  rw [← h.deviceMap]
  split
  · rename_i htime
    exact iff_of_true (fun hno => by cases hno) (.inr ((sub_eq_zero.1 htime).trans h.started))
  · rename_i htime
    exact (or_iff_left fun he => htime (sub_eq_zero.2 (he.trans h.started.symm))).symm

theorem Ran.ends (h : Ran net tStart loads inps s) : Ends net inp s ↔ EndsAt net tStart inps inp := by
  constructor
  · rintro ⟨hm, hacyc⟩
    exact ⟨fun hf => h.mapDevices.1 (hm hf), fun hc => hacyc (h.change.2 hc)⟩
  · rintro ⟨hm, hacyc⟩
    exact ⟨fun hf => h.mapDevices.2 (hm hf), fun hc => hacyc (h.change.1 hc)⟩

theorem Ran.commit (h : Ran net tStart loads inps s) (hc : Committed net inp s s') : Ran net tStart loads (inps ++ [inp]) s' := by
  refine ⟨hc.tStart.trans h.started, hc.mapped, ?_, fun n => ?_, ?_⟩
  · rw [hc.deviceMap]
    exact h.mapDevices
  · rw [hc.faultedNodes]
    unfold Faulted flagAfter
    rw [List.getLast?_concat]
    rfl
  · refine (h.loads.trans hc.loads).congr fun clock node => ?_
    rw [calledIn_concat, h.change, eq_comm (a := clock)]

theorem commits_concat : commits net fuel s (inps ++ [inp]) = .ok s' ↔
    ∃ s₁, commits net fuel s inps = .ok s₁ ∧ onCommit net fuel s₁ inp = .ok s' := by
  unfold commits
  rw [List.foldlM_append, bind_ok]
  refine exists_congr fun s₁ => and_congr_right fun _ => ?_
  rw [List.foldlM_cons, bind_ok]
  constructor
  · rintro ⟨s₂, h, hs⟩
    cases hs
    exact h
  · exact fun h => ⟨s', h, rfl⟩

theorem ran_of_commits (h : commits net fuel (.init tStart loads island) inps = .ok s') : Ran net tStart loads inps s' := by
  induction inps using List.reverseRecOn generalizing s' with
  | nil => cases h; exact ran_init net tStart loads island
  | append_singleton inps inp ih =>
    obtain ⟨s₁, hs₁, h⟩ := commits_concat.1 h
    exact (ih hs₁).commit (committed_of_onCommit (ih hs₁).mapped h)

theorem endsAt_of_commits (h : commits net fuel (.init tStart loads island) inps = .ok s') :
    ∀ before c, before ++ [c] <+: inps → EndsAt net tStart before c := by
  induction inps using List.reverseRecOn generalizing s' with
  | nil =>
    intro before c hpre
    simp at hpre
  | append_singleton inps inp ih =>
    obtain ⟨s₁, hs₁, h⟩ := commits_concat.1 h
    have hran := ran_of_commits hs₁
    exact forall_prefix_concat.2 ⟨ih hs₁, hran.ends.1 (ends_of_onCommit hran.mapped h)⟩

theorem exists_commits (hfuel : ∀ c ∈ inps, c.feeder.branches.rows.length < fuel)
    (h : ∀ before c, before ++ [c] <+: inps → EndsAt net tStart before c) :
    ∃ s', commits net fuel (.init tStart loads island) inps = .ok s' := by
  induction inps using List.reverseRecOn with
  | nil => exact ⟨_, rfl⟩
  | append_singleton inps inp ih =>
    rw [forall_prefix_concat] at h
    simp only [List.mem_append, List.mem_singleton, or_imp, forall_and, forall_eq] at hfuel
    obtain ⟨s₁, hs₁⟩ := ih hfuel.1 h.1
    have hran := ran_of_commits hs₁
    obtain ⟨s', hs'⟩ := exists_onCommit hran.mapped (hran.ends.2 h.2) hfuel.2
    exact ⟨s', commits_concat.2 ⟨s₁, hs₁, hs'⟩⟩

/-- Whatever the networks of the commits: the run comes to its end exactly when the device map is made before the first fault
and no walk meets a cycle. What is then off is what was off at the start, and the loads at the nodes that were
downstream of a fault when the flags changed; the last flags say what is faulted, and undo nothing. -/
theorem commits_shut_off (net : Network) (tStart : ℤ) (loads : GldLoads) (island : IslandGld) (inps : List CommitInput) :
    ((∃ fuel s', commits net fuel (.init tStart loads island) inps = .ok s') ↔
        ∀ before c, before ++ [c] <+: inps → EndsAt net tStart before c) ∧
      ∀ fuel s', commits net fuel (.init tStart loads island) inps = .ok s' →
        (∀ n, n ∈ s'.faultedNodes ↔ n ∈ net.supernodes ∧ flagAfter inps n = true) ∧
          ShutOff net (CalledIn net inps) loads s'.loads := by
  refine ⟨⟨?_, fun h => ?_⟩, fun fuel s' h => ⟨(ran_of_commits h).faultedNodes, (ran_of_commits h).loads⟩⟩
  · rintro ⟨fuel, s', h⟩
    exact endsAt_of_commits h
  · -- fuel for the largest network
    refine ⟨(inps.map fun c => c.feeder.branches.rows.length).sum + 1, exists_commits (fun c hc => ?_) h⟩
    exact Nat.lt_succ_of_le (List.le_sum_of_mem (List.mem_map_of_mem hc))

end Grip.Protection
