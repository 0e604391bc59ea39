/-
From the solver's answer to the virtual islands. The server replies with one row for each branch, whose
bus numbers `islanding` maps back; `process_islands` arms the branches that change, groups the buses
and drops the islands that contain the swing bus or start with a faulted one. A faulted bus is an island
of its own, since every branch at it is open, so looking at the first bus of an island is enough.
-/
import GripAbsorption.Islanding.Components
import GripAbsorption.Islanding.Server

namespace Grip.Islanding

open Grip.Base

/-! ## The reply -/

section

variable {K : Type} [Field K] [LinearOrder K] {nbr ng nb nd : ℕ}

/-- `branch_results`: a row for each branch, with its status before the outages, after them and in the plan. -/
def branchResults (branch : Fin nbr → Text) (msg : VIPayload K nbr ng nb nd) (args : CoreArgs K nbr ng nb nd)
    (p : Plan K nbr ng nb nd) : List ResultRow :=
  List.ofFn fun i => ⟨branch i, args.T i, args.F i, (readVIPayload msg).brSt i, args.brStatus0 i, args.closed p i⟩

end

/-- The bus numbers of a row mapped back by `busmap`. -/
def mapBackRow (busmap : Dict ℕ ℕ) (r : ResultRow) : Except ProcessErr ResultRow := do
  let t ← orRaise .keyError (busmap.get? r.t)
  let f ← orRaise .keyError (busmap.get? r.f)
  return { r with t, f }

/-- The bus numbers of the results mapped back. -/
def mapBack (busmap : Dict ℕ ℕ) (results : List ResultRow) : Except ProcessErr (List ResultRow) :=
  results.mapM (mapBackRow busmap)

/-! ## Islands -/

/-- What `process_islands` sets in GridLAB-D: the branches the switching scheme was last armed with and
told to toggle, and the `islanded_state` of the inverters. -/
structure IslandGld where
  armed : Text
  islandedState : Text → Bool

/-- What `process_islands` reads. -/
structure IslandScene where
  swingSn : ℕ
  faultedNodes : List Text
  inverters : List Text

/-- `"supernode_{:03d}".format(n)`. -/
def supernodeName (n : ℕ) : Text := "supernode_".toList ++ pad3 n

/-- `toggle_switches`. -/
def IslandGld.toggleSwitches (gld : IslandGld) (switchlist : List Text) : IslandGld :=
  { gld with armed := switchlist.dropLast.flatMap (· ++ ['|']) ++ switchlist.getLastD [] }

/-- The inverters of an island without the swing bus. -/
def markInverter (island : List ℕ) (gld : IslandGld) (i : Text) : Except ProcessErr IslandGld := do
  let digits ← orRaise .attributeError (digitRun i)
  return if intOf digits ∈ island then { gld with islandedState := Function.update gld.islandedState i true } else gld

/-- One turn of the loop of `process_islands`. -/
def processIsland (scene : IslandScene) (acc : IslandGld × List (List ℕ)) (island : List ℕ) :
    Except ProcessErr (IslandGld × List (List ℕ)) :=
  let (gld, virtualIslands) := acc
  if scene.swingSn ∈ island then return (gld, virtualIslands)
  else do
    let gld ← scene.inverters.foldlM (markInverter island) gld
    let first ← orRaise .indexError island.head?
    return (gld, if supernodeName first ∉ scene.faultedNodes then virtualIslands ++ [island] else virtualIslands)

/-- `process_islands`. -/
def processIslands (scene : IslandScene) (order : ℕ → ℕ) (fuel : ℕ) (draws : ℕ → ℕ → ℕ) (results : List ResultRow)
    (gld : IslandGld) : Except ProcessErr (IslandGld × List (List ℕ)) := do
  let gld := gld.toggleSwitches ((results.filter fun r => r.st00 ≠ r.st1).map (·.id))
  let islands ← newIslands order fuel draws results
  islands.foldlM (processIsland scene) (gld, [])

theorem supernodeName_injective : Function.Injective supernodeName :=
  fun _ _ h => pad3_injective (List.append_cancel_left h)

/-! ## What is returned -/

section

variable {scene : IslandScene} {acc acc' : IslandGld × List (List ℕ)} {island : List ℕ}

/-- One turn keeps the islands found and may add its own. -/
theorem mem_processIsland (h : processIsland scene acc island = .ok acc') {c : List ℕ} (hc : c ∈ acc'.2) :
    c ∈ acc.2 ∨ c = island ∧ scene.swingSn ∉ island ∧ ∃ first, island.head? = some first ∧
      supernodeName first ∉ scene.faultedNodes := by
  unfold processIsland at h
  simp only at h
  split at h
  · cases h; exact .inl hc
  · rename_i hswing
    obtain ⟨gld, -, h⟩ := bind_ok.1 h
    obtain ⟨first, hfirst, h⟩ := bind_ok.1 h
    cases h
    simp only at hc
    split at hc
    · rename_i hfault
      rcases List.mem_append.1 hc with hc | hc
      · exact .inl hc
      · exact .inr ⟨List.mem_singleton.1 hc, hswing, first, orRaise_eq_ok.1 hfirst, hfault⟩
    · exact .inl hc

/-- The virtual islands are groups of the net without the swing bus, and their first bus has no fault. -/
theorem mem_processIslands {order : ℕ → ℕ} {fuel : ℕ} {draws : ℕ → ℕ → ℕ} {results : List ResultRow} {gld : IslandGld}
    (h : processIslands scene order fuel draws results gld = .ok acc') {c : List ℕ} (hc : c ∈ acc'.2) :
    ∃ groups, newIslands order fuel draws results = .ok groups ∧ c ∈ groups ∧ scene.swingSn ∉ c ∧
      ∃ first, c.head? = some first ∧ supernodeName first ∉ scene.faultedNodes := by
  unfold processIslands at h
  obtain ⟨groups, hgroups, h⟩ := bind_ok.1 h
  refine ⟨groups, hgroups, ?_⟩
  have hinv := @foldlM_invariant _ _ _ (processIsland scene)
    (fun acc => ∀ c ∈ acc.2, c ∈ groups ∧ scene.swingSn ∉ c ∧
      ∃ first, c.head? = some first ∧ supernodeName first ∉ scene.faultedNodes)
  refine hinv (fun island hisland acc acc' hacc hstep c hc => ?_) (by simp) h c hc
  rcases mem_processIsland hstep hc with hc | ⟨rfl, hswing, hfirst⟩
  exacts [hacc c hc, ⟨hisland, hswing, hfirst⟩]

/-- Nothing is raised when every inverter's name has a digit. -/
theorem processIslands_returns (hinv : ∀ i ∈ scene.inverters, ∃ digits, digitRun i = some digits) {order : ℕ → ℕ}
    {fuel : ℕ} {draws : ℕ → ℕ → ℕ} {results : List ResultRow} {groups : List (List ℕ)}
    (h : newIslands order fuel draws results = .ok groups) (hne : ∀ c ∈ groups, c ≠ []) (gld : IslandGld) :
    ∃ acc', processIslands scene order fuel draws results gld = .ok acc' := by
  have hmark : ∀ island gld,
      Ensures (fun _ => False) (fun _ => True) (scene.inverters.foldlM (markInverter island) gld) := by
    intro island gld
    refine ensures_foldlM (fun i hi c _ => ?_) trivial
    obtain ⟨digits, hd⟩ := hinv i hi
    unfold markInverter
    rw [hd]
    exact trivial
  have hall : Ensures (fun _ => False) (fun _ => True) (processIslands scene order fuel draws results gld) := by
    unfold processIslands
    rw [h]
    refine ensures_foldlM (fun island hisland acc _ => ?_) trivial
    unfold processIsland
    simp only
    split
    · exact trivial
    · refine ensures_bind (hmark island acc.1) fun gld' _ _ => ?_
      obtain ⟨first, rest, rfl⟩ := List.exists_cons_of_ne_nil (hne island hisland)
      exact trivial
  cases hrun : processIslands scene order fuel draws results gld with
  | ok acc' => exact ⟨acc', rfl⟩
  | error e => exact (hall.of_error hrun).elim

end

/-! ## Faulted buses -/

section

variable {results : List ResultRow} {b : ℕ}

/-- A bus that no closed branch joins to another is a group of its own. -/
theorem group_of_unlinked (hb : ∀ m, ¬ Linked results b m) {c : List ℕ} (hc : c.Nodup) {r : ℕ}
    (hr : ∀ n, n ∈ c ↔ Relation.ReflTransGen (Linked results) r n) (hbc : b ∈ c) : c = [b] := by
  -- the group's root reaches `b`, and `b` reaches nothing else
  have hrb : r = b := by
    rcases Relation.ReflTransGen.cases_tail ((hr b).1 hbc) with h | ⟨m, -, hm⟩
    exacts [h.symm, (hb m hm.symm).elim]
  have hmem : ∀ n, n ∈ c ↔ n ∈ [b] := fun n => by
    rw [hr, hrb, List.mem_singleton]
    constructor
    · intro h
      rcases Relation.ReflTransGen.cases_head h with h | ⟨m, hm, -⟩
      exacts [h.symm, (hb m hm).elim]
    · rintro rfl; exact .refl
  exact List.perm_singleton.1 ((List.perm_ext_iff_of_nodup hc (List.nodup_singleton b)).2 hmem)

variable {K : Type} [Field K] [LinearOrder K] {nbr ng nb nd : ℕ} {msg : VIPayload K nbr ng nb nd}
  {args : CoreArgs K nbr ng nb nd} {p : Plan K nbr ng nb nd} {busmap : Dict ℕ ℕ} {scene : IslandScene}

/-- The branch has an end at a faulted node. -/
def AtFault (msg : VIPayload K nbr ng nb nd) (i : Fin nbr) : Prop :=
  msg.branchT i ∈ msg.faultedNodes ∨ msg.branchF i ∈ msg.faultedNodes

instance (i : Fin nbr) : Decidable (AtFault msg i) := inferInstanceAs (Decidable (_ ∨ _))

/-- The status after the outages, and which branches can still be switched. -/
theorem islandingArgs_switches {draws : ℕ → ℕ → ℕ} (h : islandingArgs msg draws = .ok args) (i : Fin nbr) :
    args.brStatus0 i = decide (msg.branchStatus i = 1 ∧ ¬ AtFault msg i) ∧
      args.switchable i = decide (msg.branchKind i = "switch" ∧ ¬ AtFault msg i) := by
  obtain ⟨loops, -, h⟩ := bind_ok.1 h
  cases h
  have hout : i ∈ isolateNodes msg.branchT msg.branchF msg.faultedNodes ↔ AtFault msg i := mem_isolateNodes
  by_cases hi : AtFault msg i
  · rw [decide_eq_false fun h => h.2 hi, decide_eq_false fun h => h.2 hi]
    exact ⟨if_pos (hout.2 hi), if_pos (hout.2 hi)⟩
  · simp only [hi, not_false_eq_true, and_true]
    exact ⟨if_neg fun h => hi (hout.1 h), if_neg fun h => hi (hout.1 h)⟩

/-- A row that was mapped back is the row of some branch. -/
theorem mem_mapBack {branch : Fin nbr → Text} (h : mapBack busmap (branchResults branch msg args p) = .ok results)
    {r : ResultRow} (hr : r ∈ results) :
    ∃ i, busmap.get? (args.T i) = some r.t ∧ busmap.get? (args.F i) = some r.f ∧ r.st1 = args.closed p i := by
  obtain ⟨row, hrow, hmap⟩ := mem_of_forall₂ (forall₂_of_mapM h) hr
  obtain ⟨i, rfl⟩ := (List.mem_ofFn' ..).1 hrow
  obtain ⟨t, ht, hmap⟩ := bind_ok.1 hmap
  obtain ⟨f, hf, hmap⟩ := bind_ok.1 hmap
  cases hmap
  exact ⟨i, orRaise_eq_ok.1 ht, orRaise_eq_ok.1 hf, rfl⟩

/-- The results are mapped back by the inverse of the numbering, which is injective, and the names of
the faulted nodes are those of the faulted numbers sent. -/
structure MapsBack (busmap : Dict ℕ ℕ) (sent : List ℕ) (faultedNodes : List Text) : Prop where
  inj : ∀ i j b, busmap.get? i = some b → busmap.get? j = some b → i = j
  faulted : ∀ name ∈ faultedNodes, ∃ j ∈ sent, ∃ b, busmap.get? j = some b ∧ name = supernodeName b

/-- Branches between different buses are mapped back to such branches. -/
theorem noSelfLoops_mapBack {branch : Fin nbr → Text} {sent : List ℕ} {names : List Text}
    (hback : MapsBack busmap sent names) (hloop : ∀ i, args.T i ≠ args.F i)
    (h : mapBack busmap (branchResults branch msg args p) = .ok results) : NoSelfLoops results := by
  intro r hr _ htf
  obtain ⟨i, hT, hF, -⟩ := mem_mapBack h hr
  exact hloop i (hback.inj _ _ _ hT (htf ▸ hF))

variable [IsStrictOrderedRing K]

/-- A branch that cannot be switched keeps the status it has after the outages. -/
theorem closed_of_not_switchable {i : Fin nbr}
    (h : SwitchFixed (args.switchable i) (args.brStatus0 i) (p.switchOn i) (p.switchOff i))
    (hs : args.switchable i = false) : args.closed p i = args.brStatus0 i := by
  have hval := h.isBinary.2 hs
  -- the status is 0 or 1, on either side of the threshold 0.9
  unfold CoreArgs.closed CoreArgs.brStatus
  rw [hval]
  cases args.brStatus0 i with
  | false =>
    refine decide_eq_false (not_lt.2 ?_)
    simp only [ofStatus, Bool.false_eq_true, if_false]
    positivity
  | true =>
    refine decide_eq_true ?_
    simp only [ofStatus, if_true]
    norm_num

theorem closed_of_faulted (hargs : ServerArgs msg args) {i : Fin nbr}
    (h : SwitchFixed (args.switchable i) (args.brStatus0 i) (p.switchOn i) (p.switchOff i))
    (hi : args.T i ∈ msg.faultedNodes ∨ args.F i ∈ msg.faultedNodes) : args.closed p i = false := by
  obtain ⟨hst, hsw⟩ := hargs.isolated i hi
  rw [closed_of_not_switchable h hsw, hst]

/-- No closed branch of the mapped results is at a faulted node. -/
theorem faulted_unlinked (hargs : ServerArgs msg args)
    (hfix : ∀ i, SwitchFixed (args.switchable i) (args.brStatus0 i) (p.switchOn i) (p.switchOff i))
    (hback : MapsBack busmap msg.faultedNodes scene.faultedNodes) {branch : Fin nbr → Text}
    (h : mapBack busmap (branchResults branch msg args p) = .ok results) (hb : supernodeName b ∈ scene.faultedNodes)
    (m : ℕ) : ¬ Linked results b m := by
  rintro ⟨r, hr, hst, hends⟩
  obtain ⟨j, hj, b', hjb, hname⟩ := hback.faulted _ hb
  obtain rfl := supernodeName_injective hname
  obtain ⟨i, hT, hF, hclosed⟩ := mem_mapBack h hr
  -- the numbers of the row's ends are mapped back injectively, so the branch has a faulted end
  have hopen : args.closed p i = false := by
    refine closed_of_faulted hargs (hfix i) ?_
    rcases hends with ⟨rfl, -⟩ | ⟨-, rfl⟩
    · exact .inl (hback.inj _ _ _ hT hjb ▸ hj)
    · exact .inr (hback.inj _ _ _ hF hjb ▸ hj)
  rw [hclosed, hopen] at hst
  cases hst

/-- Faulted nodes are isolated from the server's arguments to the virtual islands. -/
theorem faulted_isolated (msg : VIPayload K nbr ng nb nd) (cycleDraws : ℕ → ℕ → ℕ) (args : CoreArgs K nbr ng nb nd)
    (hargs : islandingArgs msg cycleDraws = .ok args) (p : Plan K nbr ng nb nd)
    (hfix : ∀ i, SwitchFixed (args.switchable i) (args.brStatus0 i) (p.switchOn i) (p.switchOff i)) :
    (∀ i, AtFault msg i → args.closed p i = false) ∧
    (∀ i, msg.branchKind i ≠ "switch" → args.closed p i = decide (msg.branchStatus i = 1 ∧ ¬ AtFault msg i)) ∧
    ∀ (branch : Fin nbr → Text) (busmap : Dict ℕ ℕ) (results : List ResultRow) (scene : IslandScene) (order : ℕ → ℕ)
      (draws : ℕ → ℕ → ℕ) (fuel : ℕ) (gld : IslandGld), (∀ i, msg.branchT i ≠ msg.branchF i) →
      MapsBack busmap msg.faultedNodes scene.faultedNodes →
      mapBack busmap (branchResults branch msg args p) = .ok results → (supernodes results).length ≤ fuel →
      ∃ groups, newIslands order fuel draws results = .ok groups ∧
        (∀ b ∈ supernodes results, supernodeName b ∈ scene.faultedNodes → [b] ∈ groups ∧ ∀ c ∈ groups, b ∈ c → c = [b]) ∧
        (∀ out, processIslands scene order fuel draws results gld = .ok out →
          ∀ b, supernodeName b ∈ scene.faultedNodes → ∀ island ∈ out.2, b ∉ island) ∧
        ((∀ i ∈ scene.inverters, ∃ digits, digitRun i = some digits) →
          ∃ out, processIslands scene order fuel draws results gld = .ok out) := by
  have hserver := islandingArgs_spec hargs
  refine ⟨fun i hi => closed_of_faulted hserver (hfix i) (by rw [hserver.T, hserver.F]; exact hi), fun i hi => ?_, ?_⟩
  · obtain ⟨hst, hsw⟩ := islandingArgs_switches hargs i
    rw [closed_of_not_switchable (hfix i) (hsw.trans (decide_eq_false fun h => hi h.1)), hst]
  intro branch busmap results scene order draws fuel gld hloop hback hresults hfuel
  have hnoloop : NoSelfLoops results :=
    noSelfLoops_mapBack hback (fun i => by rw [hserver.T, hserver.F]; exact hloop i) hresults
  obtain ⟨groups, hgroups, hnodup, hmem, -, hgroup⟩ := newIslands_spec hnoloop order hfuel draws
  have halone : ∀ b, supernodeName b ∈ scene.faultedNodes → ∀ c ∈ groups, b ∈ c → c = [b] := by
    intro b hb c hc hbc
    obtain ⟨r, -, hr⟩ := hgroup c hc
    have hunlinked := faulted_unlinked hserver hfix hback hresults hb
    exact group_of_unlinked hunlinked ((List.nodup_flatten.1 hnodup).1 c hc) hr hbc
  refine ⟨groups, hgroups, fun b hbs hb => ⟨?_, halone b hb⟩, fun out hout b hb island hisland hbi => ?_, fun hinv => ?_⟩
  · obtain ⟨c, hc, hbc⟩ := List.mem_flatten.1 ((hmem b).2 hbs)
    exact halone b hb c hc hbc ▸ hc
  · -- the first bus of the island of a faulted bus is that bus
    obtain ⟨groups', hgroups', hc, -, first, hfirst, hnot⟩ := mem_processIslands hout hisland
    rw [hgroups] at hgroups'
    cases hgroups'
    rw [halone b hb island hc hbi] at hfirst
    cases hfirst
    exact hnot hb
  · refine processIslands_returns hinv hgroups (fun c hc hnil => ?_) gld
    obtain ⟨r, -, hr⟩ := hgroup c hc
    have hrc := (hr r).2 .refl
    rw [hnil] at hrc
    cases hrc

end

/-! ## A faulted end of a feeder -/

/-- The switch 1–2 and the line 2–3, both closed, with a fault at bus 3. -/
def faultedEnd : VIPayload ℚ 2 0 0 0 where
  branchT := ![2, 3]
  branchF := ![1, 2]
  branchStatus := ![1, 1]
  branchKind := !["switch", "fixed"]
  genBus := ![]
  genPmin := ![]
  genStatus := ![]
  genPmax := ![]
  genSolar := ![]
  batBus := ![]
  batStatus := ![]
  batPmax := ![]
  batEmax := ![]
  batSoc := ![]
  shuntBus := ![]
  shuntP := ![]
  faultedNodes := [3]

/-- Nothing is switched. -/
def idlePlan : Plan ℚ 2 0 0 0 where
  switchOn := fun _ => 0
  switchOff := fun _ => 0
  Pg := ![]
  dPg := ![]
  Pb := ![]
  dPb := ![]
  Eb := ![]
  dEb := ![]
  Pd := ![]
  dPd := ![]
  ud := ![]
  flow := fun _ _ => 0
  dFlow := fun _ _ => 0
  R := 0
  GBvec := fun _ _ => 0
  GBdvec := fun _ _ => 0
  DFdvec := fun _ _ => 0

/-- The buses are the supernodes 101 to 103, the first of them the swing bus. -/
def endMap : Dict ℕ ℕ := ⟨[(1, 101), (2, 102), (3, 103)], by decide⟩

def endScene : IslandScene := ⟨101, [supernodeName 103], ["inverter_103".toList]⟩

theorem faultedEnd_isolated : ∃ results out, mapBack endMap (branchResults (fun _ => []) faultedEnd
      ((readVIPayload faultedEnd).outages.coreArgs []) idlePlan) = .ok results ∧
    processIslands endScene (fun _ => 0) 3 (fun _ _ => 0) results ⟨[], fun _ => false⟩ = .ok out ∧
    ∀ island ∈ out.2, 103 ∉ island := by
  have hrun : (findCycles ![2, 3] ![1, 2] fun _ _ => 0).toOption = some [] := by decide +kernel
  rw [toOption_eq_some] at hrun
  have hargs : islandingArgs faultedEnd (fun _ _ => 0) = .ok ((readVIPayload faultedEnd).outages.coreArgs []) :=
    bind_ok.2 ⟨[], hrun, rfl⟩
  obtain ⟨results, hresults⟩ : ∃ results, mapBack endMap (branchResults (fun _ => []) faultedEnd
      ((readVIPayload faultedEnd).outages.coreArgs []) idlePlan) = .ok results := ⟨_, rfl⟩
  have hlen : (supernodes results).length ≤ 3 := by
    cases hresults
    decide
  have hback : MapsBack endMap faultedEnd.faultedNodes endScene.faultedNodes := by
    refine ⟨fun i j b hi hj => ?_, fun name hname => ⟨3, by decide, 103, by decide, List.mem_singleton.1 hname⟩⟩
    rw [Dict.get?_eq_some] at hi hj
    simp only [endMap, List.mem_cons, Prod.mk.injEq, List.not_mem_nil, or_false] at hi hj
    omega
  obtain ⟨-, -, h⟩ := faulted_isolated faultedEnd (fun _ _ => 0) _ hargs idlePlan (by decide +kernel)
  obtain ⟨groups, -, -, hout, hreturns⟩ := h (fun _ => []) endMap results endScene (fun _ => 0) (fun _ _ => 0) 3
    ⟨[], fun _ => false⟩ (by decide) hback hresults hlen
  obtain ⟨out, hout'⟩ := hreturns fun i hi => ⟨"103".toList, by rw [List.mem_singleton.1 hi]; decide⟩
  exact ⟨results, out, hresults, hout', hout out hout' 103 (List.mem_singleton_self _)⟩

end Grip.Islanding
