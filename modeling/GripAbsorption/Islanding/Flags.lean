/-
The `islanded_state` of the inverters over the calls of `process_islands`. A call sets the flag of every
inverter whose supernode is cut off from the swing bus, and no call ever clears a flag. So the flags
follow the topology as long as no flagged inverter is connected again.
-/
import GripAbsorption.Islanding.Isolation

namespace Grip.Islanding

open Grip.Base

/-! ## Flags -/

/-- The supernode in an inverter's name: `int(re.search(r'\d+',i).group())`. -/
def inverterNumber (i : Text) : Option ℕ := (digitRun i).map intOf

/-- The inverter's supernode is in the component. -/
def InIsland (i : Text) (island : List ℕ) : Prop := ∃ n, inverterNumber i = some n ∧ n ∈ island

theorem markInverter_spec {island : List ℕ} {gld gld' : IslandGld} {i : Text} (h : markInverter island gld i = .ok gld')
    (j : Text) : gld'.islandedState j = true ↔ gld.islandedState j = true ∨ j = i ∧ InIsland i island := by
  obtain ⟨digits, hd, h⟩ := bind_ok.1 h
  have hin : InIsland i island ↔ intOf digits ∈ island := by
    simp [InIsland, inverterNumber, orRaise_eq_ok.1 hd]
  rw [hin]
  split at h
  · rename_i hmem
    cases h
    by_cases hj : j = i
    · simp [hj, hmem]
    · simp [hj]
  · rename_i hmem
    cases h
    simp [hmem]

section

variable {scene : IslandScene} {acc acc' : IslandGld × List (List ℕ)}

/-- One turn flags the inverters of its island, if the swing bus is not in it. -/
theorem flags_processIsland {island : List ℕ} (h : processIsland scene acc island = .ok acc') (j : Text) :
    acc'.1.islandedState j = true ↔
      acc.1.islandedState j = true ∨ scene.swingSn ∉ island ∧ j ∈ scene.inverters ∧ InIsland j island := by
  unfold processIsland at h
  simp only at h
  split at h
  · rename_i hswing
    cases h
    simp [hswing]
  · rename_i hswing
    obtain ⟨gld, hgld, h⟩ := bind_ok.1 h
    obtain ⟨first, -, h⟩ := bind_ok.1 h
    cases h
    have hmarked : gld.islandedState j = true ↔ acc.1.islandedState j = true ∨
        ∃ i ∈ scene.inverters, j = i ∧ InIsland i island :=
      @foldlM_or _ _ _ (markInverter island) (fun g => g.islandedState j = true) _ _ _ _
        (fun i _ g g' hi => markInverter_spec hi j) hgld
    refine hmarked.trans (or_congr_right ⟨?_, fun ⟨_, hj, hin⟩ => ⟨j, hj, rfl, hin⟩⟩)
    rintro ⟨i, hi, rfl, hin⟩
    exact ⟨hswing, hi, hin⟩

theorem flags_processIslands {order : ℕ → ℕ} {fuel : ℕ} {draws : ℕ → ℕ → ℕ} {results : List ResultRow} {gld : IslandGld}
    (h : processIslands scene order fuel draws results gld = .ok acc') {groups : List (List ℕ)}
    (hgroups : newIslands order fuel draws results = .ok groups) (j : Text) :
    acc'.1.islandedState j = true ↔ gld.islandedState j = true ∨
      ∃ c ∈ groups, scene.swingSn ∉ c ∧ j ∈ scene.inverters ∧ InIsland j c := by
  obtain ⟨groups', hgroups', h⟩ := bind_ok.1 h
  rw [hgroups] at hgroups'
  cases hgroups'
  exact @foldlM_or _ _ _ (processIsland scene) (fun acc => acc.1.islandedState j = true) _ _ _ _
    (fun c _ acc acc' hc => flags_processIsland hc j) h

end

/-! ## Tables that are processed -/

section

variable {results : List ResultRow}

/-- The net of a table with a closed branch from a bus to itself is not built. -/
theorem noSelfLoops_of_newIslands {order : ℕ → ℕ} {fuel : ℕ} {draws : ℕ → ℕ → ℕ} {groups : List (List ℕ)}
    (h : newIslands order fuel draws results = .ok groups) : NoSelfLoops results := by
  intro r hr hst hloop
  obtain ⟨net, hnet, -⟩ := bind_ok.1 h
  obtain ⟨rows, hrows, -⟩ := bind_ok.1 hnet
  have hmem : r.t ∈ shuffle order (supernodes results) := mem_shuffle.2 (mem_supernodes.2 ⟨r, hr, .inl rfl⟩)
  obtain ⟨row, hrow⟩ := ok_of_mapM hrows r.t hmem
  obtain ⟨near, hnear, -⟩ := bind_ok.1 hrow
  obtain ⟨ends, hends, -⟩ := bind_ok.1 hnear
  -- the branch has no other end
  have hnil : [] ∈ otherEnds (links results) r.t := by
    unfold otherEnds
    rw [List.map_map]
    refine List.mem_map.2 ⟨(r.t, r.f), List.mem_filter.2 ⟨mem_links.2 ⟨r, hr, hst, rfl⟩, by simp⟩, ?_⟩
    simp [hloop]
  obtain ⟨n, hn⟩ := ok_of_mapM hends [] hnil
  cases hn

/-- The supernode is in a component that does not contain the swing bus. -/
def Islanded (swingSn : ℕ) (results : List ResultRow) (n : ℕ) : Prop :=
  n ∈ supernodes results ∧ ¬ Relation.ReflTransGen (Linked results) n swingSn

theorem islanded_iff (h : NoSelfLoops results) {order : ℕ → ℕ} {draws : ℕ → ℕ → ℕ} {groups : List (List ℕ)}
    (hgroups : newIslands order (supernodes results).length draws results = .ok groups) (swingSn n : ℕ) :
    Islanded swingSn results n ↔ ∃ c ∈ groups, swingSn ∉ c ∧ n ∈ c := by
  obtain ⟨groups', hgroups', -, hmem, -, hgroup⟩ := newIslands_spec h order le_rfl draws
  rw [hgroups] at hgroups'
  cases hgroups'
  -- the component of `n` holds what `n` reaches
  have hreach : ∀ c ∈ groups, n ∈ c → (swingSn ∈ c ↔ Relation.ReflTransGen (Linked results) n swingSn) := by
    intro c hc hn
    obtain ⟨r, -, hr⟩ := hgroup c hc
    rw [hr]
    exact ⟨(symm ((hr n).1 hn)).trans, ((hr n).1 hn).trans⟩
  constructor
  · rintro ⟨hn, hcut⟩
    obtain ⟨c, hc, hnc⟩ := List.mem_flatten.1 ((hmem n).2 hn)
    exact ⟨c, hc, fun hs => hcut ((hreach c hc hnc).1 hs), hnc⟩
  · rintro ⟨c, hc, hs, hnc⟩
    exact ⟨(hmem n).1 (List.mem_flatten.2 ⟨c, hc, hnc⟩), fun hcut => hs ((hreach c hc hnc).2 hcut)⟩

end

/-! ## Calls -/

/-- What is the same in all calls: the swing bus, and inverters with a supernode in each name. -/
structure InverterNet where
  swingSn : ℕ
  inverters : List Text
  named : ∀ i ∈ inverters, ∃ n, inverterNumber i = some n

/-- What one call is given and meets. -/
structure IslandCall where
  faultedNodes : List Text
  results : List ResultRow
  order : ℕ → ℕ
  draws : ℕ → ℕ → ℕ

namespace InverterNet

/-- One call of `process_islands`; no search takes more turns than there are supernodes. -/
def call (net : InverterNet) (gld : IslandGld) (c : IslandCall) : Except ProcessErr IslandGld := do
  let (gld, _) ← processIslands ⟨net.swingSn, c.faultedNodes, net.inverters⟩ c.order (supernodes c.results).length c.draws
    c.results gld
  return gld

/-- After the call, which returns, exactly the inverters cut off from the swing bus are flagged. -/
def Follows (net : InverterNet) (gld : IslandGld) (c : IslandCall) : Prop :=
  ∃ gld', net.call gld c = .ok gld' ∧ ∀ i ∈ net.inverters,
    (gld'.islandedState i = true ↔ ∃ n, inverterNumber i = some n ∧ Islanded net.swingSn c.results n)

/-- No closed branch joins a supernode to itself, and every inverter flagged before is cut off still. -/
def NoneReconnected (net : InverterNet) (gld : IslandGld) (c : IslandCall) : Prop :=
  NoSelfLoops c.results ∧ ∀ i ∈ net.inverters, gld.islandedState i = true →
    ∃ n, inverterNumber i = some n ∧ Islanded net.swingSn c.results n

variable {net : InverterNet} {gld gld' : IslandGld} {c : IslandCall}

/-- A table without such branches is processed. -/
theorem call_returns (net : InverterNet) (gld : IslandGld) (h : NoSelfLoops c.results) : ∃ gld', net.call gld c = .ok gld' := by
  obtain ⟨groups, hgroups, -, -, -, hgroup⟩ := newIslands_spec h c.order le_rfl c.draws
  have hne : ∀ g ∈ groups, g ≠ [] := by
    rintro g hg rfl
    obtain ⟨r, -, hr⟩ := hgroup [] hg
    cases (hr r).2 .refl
  have hdigits : ∀ i ∈ net.inverters, ∃ digits, digitRun i = some digits := fun i hi => by
    obtain ⟨n, hn⟩ := net.named i hi
    obtain ⟨digits, hd, -⟩ := Option.map_eq_some_iff.1 hn
    exact ⟨digits, hd⟩
  obtain ⟨acc, hacc⟩ :=
    @processIslands_returns ⟨net.swingSn, c.faultedNodes, net.inverters⟩ hdigits _ _ _ _ _ hgroups hne gld
  exact ⟨acc.1, bind_ok.2 ⟨acc, hacc, rfl⟩⟩

/-- The flags after a call: those before, and the inverters cut off. -/
theorem flags_call (h : net.call gld c = .ok gld') : NoSelfLoops c.results ∧ ∀ i ∈ net.inverters,
    (gld'.islandedState i = true ↔ gld.islandedState i = true ∨
      ∃ n, inverterNumber i = some n ∧ Islanded net.swingSn c.results n) := by
  obtain ⟨acc, hacc, h⟩ := bind_ok.1 h
  cases h
  obtain ⟨groups, hgroups, -⟩ := bind_ok.1 hacc
  have hloops := noSelfLoops_of_newIslands hgroups
  refine ⟨hloops, fun i hi => ?_⟩
  rw [flags_processIslands hacc hgroups]
  simp only [islanded_iff hloops hgroups, InIsland]
  refine or_congr_right ⟨?_, ?_⟩
  · rintro ⟨g, hg, hs, -, n, hn, hng⟩
    exact ⟨n, hn, g, hg, hs, hng⟩
  · rintro ⟨n, hn, g, hg, hs, hng⟩
    exact ⟨g, hg, hs, hi, n, hn, hng⟩

theorem follows_iff (net : InverterNet) (gld : IslandGld) (c : IslandCall) :
    net.Follows gld c ↔ net.NoneReconnected gld c := by
  constructor
  · rintro ⟨gld', hcall, hflags⟩
    obtain ⟨hloops, hspec⟩ := flags_call hcall
    exact ⟨hloops, fun i hi hflag => (hflags i hi).1 ((hspec i hi).2 (.inl hflag))⟩
  · rintro ⟨hloops, hstale⟩
    obtain ⟨gld', hcall⟩ := net.call_returns gld hloops
    obtain ⟨-, hspec⟩ := flags_call hcall
    exact ⟨gld', hcall, fun i hi => (hspec i hi).trans (or_iff_right_of_imp (hstale i hi))⟩

/-- Along every sequence of calls, from any flags, each call leaves the flags that the topology asks for if and only if
every call has each flagged inverter in its table, cut off from the swing bus still. -/
theorem flags_follow_iff (net : InverterNet) (gld : IslandGld) (calls : List IslandCall) :
    AllSteps (raising net.call) net.Follows gld calls ↔ AllSteps (raising net.call) net.NoneReconnected gld calls :=
  ⟨AllSteps.mono fun gld c => (net.follows_iff gld c).1, AllSteps.mono fun gld c => (net.follows_iff gld c).2⟩

/-! ## A feeder that is cut off and connected again -/

/-- The swing bus 101 and the inverter of supernode 102. -/
def inverter102 : InverterNet := ⟨101, ["inverter_102".toList], fun i hi => ⟨102, by rw [List.mem_singleton.1 hi]; decide⟩⟩

/-- A call with the branch 101–102 open or closed. -/
def feederCall (closed : Bool) : IslandCall :=
  ⟨[], [⟨"switch_1".toList, 102, 101, true, true, closed⟩], fun _ => 0, fun _ _ => 0⟩

theorem islanded_feeder : Islanded 101 (feederCall false).results 102 ∧ ¬ Islanded 101 (feederCall true).results 102 := by
  constructor
  · refine ⟨by decide, fun h => ?_⟩
    rcases Relation.ReflTransGen.cases_head h with h | ⟨m, ⟨r, hr, hst, -⟩, -⟩
    · cases h
    · -- the only branch is open
      rw [List.mem_singleton.1 hr] at hst
      cases hst
  · intro h
    exact h.2 (.single ⟨_, List.mem_singleton_self _, rfl, .inl ⟨rfl, rfl⟩⟩)

/-- Once flagged, the inverter stays flagged when its supernode is connected again. -/
theorem reconnected_inverter_flagged : ¬ AllSteps (raising inverter102.call) inverter102.Follows ⟨[], fun _ => false⟩
    [feederCall false, feederCall true] := by
  intro h
  obtain ⟨⟨gld, hcall, hflags⟩, hrest⟩ := allSteps_cons.1 h
  have hflag : gld.islandedState "inverter_102".toList = true :=
    (hflags _ (List.mem_singleton_self _)).2 ⟨102, by decide, islanded_feeder.1⟩
  have hsecond := (allSteps_cons.1 (hrest gld (toOption_eq_some.2 hcall))).1
  obtain ⟨-, hcut⟩ := (inverter102.follows_iff gld _).1 hsecond
  obtain ⟨n, hn, hisl⟩ := hcut _ (List.mem_singleton_self _) hflag
  obtain rfl : 102 = n := Option.some.inj ((show inverterNumber "inverter_102".toList = some 102 by decide).symm.trans hn)
  exact islanded_feeder.2 hisl

end InverterNet

end Grip.Islanding
