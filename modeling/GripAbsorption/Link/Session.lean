/-
What a simulation over the link amounts to. The replies of the server, put into the input of each commit,
make the run of `on_commit` that gives the same globals; each request is made of the state at its turn, and
each reply is what the server answers to that request. So what holds along every run of commits holds along
every simulation, whatever the order in which the two programs take their turns.
-/
import GripAbsorption.Islanding.Flags
import GripAbsorption.Link.Controller

namespace Grip.Link

open Grip.Base Grip.Islanding Grip.Absorption Grip.Packetized

/-! ## Clients that may fail -/

section

variable {parseFloat : Text → Option ℚ} {α β ε : Type} {log : List (Message × Reply)}

theorem returns_finish {failure : ε → Failure} {x : Except ε α} {a : α} :
    Returns (Serves parseFloat) (finish failure x) log (.ok a) ↔ log = [] ∧ x = .ok a := by
  unfold finish
  rw [returns_done, eq_comm (a := Except.ok a), mapError_eq_ok]

theorem returns_andThen {x : Controller α} {f : α → Controller β} {b : β} :
    Returns (Serves parseFloat) (andThen x f) log (.ok b) ↔ ∃ log₁ a log₂, log = log₁ ++ log₂ ∧
      Returns (Serves parseFloat) x log₁ (.ok a) ∧ Returns (Serves parseFloat) (f a) log₂ (.ok b) := by
  unfold andThen
  rw [returns_bind]
  constructor
  · rintro ⟨log₁, r, log₂, rfl, h₁, h₂⟩
    cases r with
    | error e => simp at h₂
    | ok a => exact ⟨log₁, a, log₂, rfl, h₁, h₂⟩
  · rintro ⟨log₁, a, log₂, rfl, h₁, h₂⟩
    exact ⟨log₁, _, log₂, rfl, h₁, h₂⟩

end

variable {parseFloat : Text → Option ℚ} {site : Site} {c : Scene} {log : List (Message × Reply)}

/-! ## Management -/

section

variable {s s' : Globals} {island : Island} {islands : List Island}

/-- An island's turn reads its own row only, and no partition. -/
theorem manageIsland_row {p p' : List Island} {row row' : Island → Row} (h : row island = row' island) :
    Globals.manageIsland site.net (c.input p row).toManageInput s island =
      Globals.manageIsland site.net (c.input p' row').toManageInput s island := by
  have hshed : ∀ (s : Globals) name x, s.shedColumn (c.input p row).toManageInput island name x =
      s.shedColumn (c.input p' row').toManageInput island name x := by
    intro s name x
    unfold Globals.shedColumn
    simp only [Scene.input, h]
  have hcolumn : Globals.column site.net (c.input p row).toManageInput island =
      Globals.column site.net (c.input p' row').toManageInput island := by
    funext acc col
    unfold Globals.column
    simp only [hshed]
    rfl
  unfold Globals.manageIsland
  rw [hcolumn]
  simp only [Scene.input, h]

/-- The question an island's turn asks, and its answer. -/
def Asked (parseFloat : Text → Option ℚ) (site : Site) (c : Scene) (row : Island → Row) (turn : Globals × Island)
    (e : Message × Reply) : Prop :=
  ∃ data files, manageRequest site c turn.1 turn.2 = .ok data ∧ e = (.management data, .setpoints (row turn.2)) ∧
    Dispatch.Manages parseFloat files data (row turn.2)

/-- The turns of the islands. -/
def turns (site : Site) (inp : ManageInput) (s : Globals) (islands : List Island) : List (Globals × Island) :=
  visits (raising (Globals.manageIsland site.net inp)) s islands

theorem turns_cons {inp : ManageInput} {s₁ : Globals} (h : Globals.manageIsland site.net inp s island = .ok s₁) :
    turns site inp s (island :: islands) = (s, island) :: turns site inp s₁ islands := by
  unfold turns
  rw [visits, show raising (Globals.manageIsland site.net inp) s island = some s₁ from toOption_eq_some.2 h]

/-- Rows of other islands make no difference to a loop over the islands. -/
theorem manageIslands_row {p : List Island} {row row' : Island → Row} (h : ∀ i ∈ islands, row i = row' i) :
    islands.foldlM (Globals.manageIsland site.net (c.input p row).toManageInput) s =
        islands.foldlM (Globals.manageIsland site.net (c.input p row').toManageInput) s ∧
      turns site (c.input p row).toManageInput s islands = turns site (c.input p row').toManageInput s islands := by
  induction islands generalizing s with
  | nil => exact ⟨rfl, rfl⟩
  | cons island islands ih =>
    have hhead := @manageIsland_row site c s island p p row row' (h island (List.mem_cons_self ..))
    unfold turns at ih ⊢
    rw [List.foldlM_cons, List.foldlM_cons, visits, visits, hhead]
    simp only [raising, hhead]
    cases Globals.manageIsland site.net (c.input p row').toManageInput s island with
    | error e => exact ⟨rfl, rfl⟩
    | ok s₁ =>
      obtain ⟨hfold, hturns⟩ := @ih s₁ fun i hi => h i (List.mem_cons_of_mem _ hi)
      exact ⟨hfold, congrArg _ hturns⟩

/-- The islands take turns in their order. -/
theorem mem_turns {inp : ManageInput} {turn : Globals × Island} (h : turn ∈ turns site inp s islands) : turn.2 ∈ islands := by
  induction islands generalizing s with
  | nil => cases h
  | cons island islands ih =>
    unfold turns at h
    rw [visits] at h
    rcases List.mem_cons.1 h with rfl | h
    · exact List.mem_cons_self ..
    · refine List.mem_cons_of_mem _ ?_
      cases hs : raising (Globals.manageIsland site.net inp) s island with
      | none => rw [hs] at h; cases h
      | some s₁ => rw [hs] at h; exact ih h

theorem asked_row {inp : ManageInput} {row row' : Island → Row} (h : ∀ i ∈ islands, row i = row' i)
    (hlog : List.Forall₂ (Asked parseFloat site c row') (turns site inp s islands) log) :
    List.Forall₂ (Asked parseFloat site c row) (turns site inp s islands) log := by
  obtain ⟨hlen, hzip⟩ := List.forall₂_iff_zip.1 hlog
  refine List.forall₂_iff_zip.2 ⟨hlen, fun {turn e} hmem => ?_⟩
  have hasked := hzip hmem
  unfold Asked at hasked ⊢
  rw [h turn.2 (mem_turns (List.of_mem_zip hmem).1)]
  exact hasked

/-- The loop over the islands is that of `island_management` with the rows of the replies. -/
theorem returns_manage (hn : islands.Nodup) (p : List Island) :
    Returns (Serves parseFloat) (manage site c islands s) log (.ok s') ↔ ∃ row,
      islands.foldlM (Globals.manageIsland site.net (c.input p row).toManageInput) s = .ok s' ∧
      List.Forall₂ (Asked parseFloat site c row) (turns site (c.input p row).toManageInput s islands) log := by
  induction islands generalizing s log with
  | nil =>
    unfold manage
    rw [returns_done]
    constructor
    · rintro ⟨rfl, he⟩
      cases he
      exact ⟨fun _ => Dict.empty, rfl, .nil⟩
    · rintro ⟨row, hrun, hlog⟩
      cases hrun
      cases hlog
      exact ⟨rfl, rfl⟩
  | cons island islands ih =>
    obtain ⟨hisland, hn⟩ := List.nodup_cons.1 hn
    constructor
    · intro h
      unfold manage at h
      split at h
      · simp at h
      · rename_i data hdata
        obtain ⟨rep, rest, rfl, hserve, h⟩ := returns_ask.1 h
        obtain ⟨row₀, rfl, files, hmanages⟩ := serves_management.1 hserve
        simp only at h
        split at h
        · simp at h
        · rename_i s₁ hs₁
          obtain ⟨row, hrun, hlog⟩ := (ih hn).1 h
          -- the reply is the island's row; the other islands keep theirs
          have hrow : ∀ i ∈ islands, Function.update row island row₀ i = row i := fun i hi =>
            Function.update_of_ne (ne_of_mem_of_not_mem hi hisland) row₀ row
          have hhead : Globals.manageIsland site.net (c.input p (Function.update row island row₀)).toManageInput s island =
              .ok s₁ := by
            rw [← hs₁]
            exact manageIsland_row (Function.update_self ..)
          obtain ⟨hfold, hturns⟩ := @manageIslands_row site c s₁ islands p _ _ hrow
          refine ⟨Function.update row island row₀, ?_, ?_⟩
          · rw [List.foldlM_cons, hhead]
            exact hfold.trans hrun
          · rw [turns_cons hhead, hturns]
            refine .cons ⟨data, files, hdata, ?_, ?_⟩ (asked_row hrow hlog)
            · rw [Function.update_self]
            · rw [Function.update_self]; exact hmanages
    · rintro ⟨row, hrun, hlog⟩
      rw [List.foldlM_cons, bind_ok] at hrun
      obtain ⟨s₁, hs₁, hrun⟩ := hrun
      rw [turns_cons hs₁] at hlog
      cases hlog with
      | cons hasked hlog =>
        obtain ⟨data, files, hdata, rfl, hmanages⟩ := hasked
        unfold manage
        rw [hdata]
        refine returns_ask.2 ⟨_, _, rfl, .setpoints hmanages, ?_⟩
        simp only
        rw [@manageIsland_row site c s island [] p (fun _ => row island) row rfl, hs₁]
        exact (ih hn).2 ⟨row, hrun, hlog⟩

end

/-! ## The partition -/

section

variable {s s' : State} {scene : IslandScene}

/-- The islands that are kept are in the order of the groups. -/
theorem processIslands_sublist {islands : List Island} {acc acc' : IslandGld × List Island}
    (h : islands.foldlM (processIsland scene) acc = .ok acc') : ∃ l, acc'.2 = acc.2 ++ l ∧ l.Sublist islands := by
  induction islands generalizing acc with
  | nil =>
    cases h
    exact ⟨[], (List.append_nil _).symm, .slnil⟩
  | cons island islands ih =>
    rw [List.foldlM_cons, bind_ok] at h
    obtain ⟨acc₁, hstep, h⟩ := h
    obtain ⟨l, hl, hsub⟩ := ih h
    unfold processIsland at hstep
    simp only at hstep
    split at hstep
    · cases hstep
      exact ⟨l, hl, hsub.cons _⟩
    · obtain ⟨gld, -, hstep⟩ := bind_ok.1 hstep
      obtain ⟨first, -, hstep⟩ := bind_ok.1 hstep
      cases hstep
      simp only at hl
      split at hl
      · exact ⟨island :: l, by rw [hl, List.append_assoc]; rfl, hsub.cons_cons _⟩
      · exact ⟨l, hl, hsub.cons _⟩

/-- The virtual islands are groups of the net: disjoint, and none is empty. -/
theorem partitionOf_spec {mapback : Dict ℕ ℕ} {branches : List ResultRow} {gld : IslandGld} {partition : List Island}
    (h : partitionOf site c s mapback branches = .ok (gld, partition)) : ∃ results groups,
      mapBack mapback branches = .ok results ∧ newIslands c.order (supernodes results).length c.draws results = .ok groups ∧
      partition.Sublist groups ∧ partition.flatten.Nodup ∧ partition.Nodup := by
  obtain ⟨results, hresults, h⟩ := bind_ok.1 h
  obtain ⟨groups, hgroups, h⟩ := bind_ok.1 h
  obtain ⟨l, hl, hsub⟩ := processIslands_sublist h
  obtain rfl : partition = l := hl
  obtain ⟨groups', hgroups', hnodup, -, -, hgroup⟩ := newIslands_spec (noSelfLoops_of_newIslands hgroups) c.order le_rfl c.draws
  obtain rfl : groups = groups' := by rw [hgroups] at hgroups'; cases hgroups'; rfl
  refine ⟨results, groups, hresults, hgroups, hsub, hnodup.sublist hsub.flatten, ?_⟩
  refine List.Pairwise.sublist hsub ((List.nodup_flatten.1 hnodup).2.imp_of_mem ?_)
  rintro a b ha - hdisjoint rfl
  obtain ⟨r, -, hr⟩ := hgroup a ha
  exact hdisjoint ((hr r).2 .refl) ((hr r).2 .refl)

end

/-! ## Before control -/

section

variable {s s' : State}

/-- The globals when the request to island is made. -/
def State.scanned (site : Site) (c : Scene) (s : State) : State := { s with globals := Link.scanned site c s.globals }

/-- The exchange about the islands: at a change of faults there is one request, whose reply gives the partition. -/
def IslandExchange (parseFloat : Text → Option ℚ) (site : Site) (c : Scene) (s : State) (partition : List Island)
    (gld : IslandGld) (log : List (Message × Reply)) : Prop :=
  if FaultChange site c s.globals then
    ∃ data mapback branches, islandRequest site c (s.scanned site c).globals = .ok (data, mapback) ∧
      Islands parseFloat data branches ∧ log = [(.islanding data, .branches branches)] ∧
      partitionOf site c (s.scanned site c) mapback branches = .ok (gld, partition)
  else log = [] ∧ gld = s.gld

/-- What is done before control, where the partition is read at a change of faults only, and no row is. -/
theorem prepare_input (s : Globals) (partition : List Island) (row : Island → Row) :
    s.prepare site.net (c.input partition row) = (do
      let s ← (if FaultChange site c s then
          (scanned site c s).adoptPartition site.net (c.input partition fun _ => Dict.empty)
        else pure (scanned site c s))
      s.reIslandBatteries site.net (c.input [] fun _ => Dict.empty)) :=
  rfl

theorem prepare_row {s : Globals} {partition : List Island} {row row' : Island → Row} :
    s.prepare site.net (c.input partition row) = s.prepare site.net (c.input partition row') := by
  rw [prepare_input, prepare_input]

theorem returns_prepare (row : Island → Row) : Returns (Serves parseFloat) (prepareClient site c s) log (.ok s') ↔
    ∃ partition, s.globals.prepare site.net (c.input partition row) = .ok s'.globals ∧
      IslandExchange parseFloat site c s partition s'.gld log := by
  simp only [prepare_input, IslandExchange]
  unfold prepareClient
  by_cases hf : FaultChange site c s.globals
  · simp only [if_pos hf]
    constructor
    · intro h
      split at h
      · simp at h
      · rename_i data mapback hdata
        obtain ⟨rep, rest, rfl, hserve, h⟩ := returns_ask.1 h
        obtain ⟨branches, rfl, hbranches⟩ := serves_islanding.1 hserve
        obtain ⟨rfl, hadopt⟩ := returns_done.1 h
        obtain ⟨⟨gld, partition⟩, hpartition, hadopt⟩ := bind_ok.1 hadopt.symm
        obtain ⟨globals, hglobals, hadopt⟩ := bind_ok.1 hadopt
        obtain ⟨globals', hglobals', hadopt⟩ := bind_ok.1 hadopt
        cases hadopt
        rw [mapError_eq_ok] at hpartition hglobals hglobals'
        exact ⟨partition, bind_ok.2 ⟨globals, hglobals, hglobals'⟩, data, mapback, branches, hdata, hbranches, rfl, hpartition⟩
    · rintro ⟨partition, hprepare, data, mapback, branches, hdata, hbranches, rfl, hpartition⟩
      obtain ⟨globals, hglobals, hglobals'⟩ := bind_ok.1 hprepare
      split
      · rename_i e he
        cases he.symm.trans hdata
      · rename_i data' mapback' hdata'
        cases hdata'.symm.trans hdata
        refine returns_ask.2 ⟨_, [], rfl, .islands hbranches, returns_done.2 ⟨rfl, ?_⟩⟩
        refine (bind_ok.2 ⟨_, mapError_eq_ok.2 hpartition, bind_ok.2 ⟨globals, mapError_eq_ok.2 hglobals, ?_⟩⟩).symm
        exact bind_ok.2 ⟨_, mapError_eq_ok.2 hglobals', rfl⟩
  · simp only [if_neg hf]
    rw [returns_finish]
    constructor
    · rintro ⟨rfl, h⟩
      obtain ⟨globals, hglobals, h⟩ := bind_ok.1 h
      cases h
      exact ⟨[], hglobals, rfl, rfl⟩
    · rintro ⟨partition, hprepare, rfl, hgld⟩
      refine ⟨rfl, bind_ok.2 ⟨_, hprepare, ?_⟩⟩
      cases s'
      cases hgld
      rfl

end

/-! ## Control -/

section

variable {s s' : Globals}

/-- The exchange of control: at a management step one request for each island, at its turn. -/
def ManageExchange (parseFloat : Text → Option ℚ) (site : Site) (c : Scene) (row : Island → Row) (s : Globals)
    (log : List (Message × Reply)) : Prop :=
  if s.Manages (c.input [] row) then
    List.Forall₂ (Asked parseFloat site c row) (turns site (c.input [] row).toManageInput s (s.islands.getD [])) log
  else log = []

theorem returns_control (hn : (s.islands.getD []).Nodup) (partition : List Island) :
    Returns (Serves parseFloat) (controlClient site c s) log (.ok s') ↔
      ∃ row, s.control site.net (c.input partition row) = .ok s' ∧ ManageExchange parseFloat site c row s log := by
  unfold controlClient Globals.control ManageExchange
  by_cases hm : s.Manages (c.input [] fun _ => Dict.empty)
  · have hm' : ∀ p row, s.Manages (c.input p row) := fun _ _ => hm
    simp only [if_pos hm, if_pos (hm' _ _)]
    exact returns_manage hn []
  · have hm' : ∀ p row, ¬ s.Manages (c.input p row) := fun _ _ => hm
    simp only [if_neg hm, if_neg (hm' _ _)]
    rw [returns_finish]
    exact ⟨fun ⟨hlog, h⟩ => ⟨fun _ => Dict.empty, h, hlog⟩, fun ⟨_, h, hlog⟩ => ⟨hlog, h⟩⟩

/-- New batteries: what `update_VB` assigns. -/
theorem updateVB_assigns {inp : CommitInput} {islands : List Island} (h : s.updateVB site.net inp islands = .ok s') :
    ∃ map ids vbs, s' = { s with deviceMap := map, islandedDevices := ids, virtualBattery := vbs } := by
  obtain ⟨⟨s₁, vbs⟩, hloop, h⟩ := bind_ok.1 h
  cases h
  have hinv := @foldlM_invariant _ _ _ (Globals.islandBattery inp)
    (fun acc => ∃ map ids, acc.1 = { s with deviceMap := map, islandedDevices := ids })
  have hstart : ∃ map ids, ({ s.ensureDeviceMap site.net with islandedDevices := [] } : Globals) =
      { s with deviceMap := map, islandedDevices := ids } := by
    unfold Globals.ensureDeviceMap
    split
    · exact ⟨_, _, rfl⟩
    · split
      · exact ⟨_, _, rfl⟩
      · exact ⟨s.deviceMap, _, rfl⟩
  have hloop' := hinv (fun island _ acc acc' hacc hstep => ?_) hstart hloop
  · obtain ⟨map, ids, hs₁⟩ := hloop'
    obtain rfl : s₁ = _ := hs₁
    exact ⟨map, ids, _, rfl⟩
  · obtain ⟨map, ids, hacc⟩ := hacc
    obtain ⟨sets, -, hstep⟩ := bind_ok.1 hstep
    obtain ⟨devices, -, hstep⟩ := bind_ok.1 hstep
    cases hstep
    exact ⟨map, _, by rw [hacc]⟩

/-- Before control: the islands in force are the partition of a reply or those before, and the faults are read. -/
theorem islands_prepare {partition : List Island} {row : Island → Row}
    (h : s.prepare site.net (c.input partition row) = .ok s') :
    s'.islands = (if FaultChange site c s then some partition else s.islands) ∧
      s'.faultedNodes = (scanned site c s).faultedNodes := by
  rw [prepare_input] at h
  obtain ⟨s₁, h₁, h⟩ := bind_ok.1 h
  have hlast : s'.islands = s₁.islands ∧ s'.faultedNodes = s₁.faultedNodes := by
    unfold Globals.reIslandBatteries at h
    split at h
    · obtain ⟨s₂, h₂, h⟩ := bind_ok.1 h
      obtain ⟨map, ids, vbs, rfl⟩ := updateVB_assigns h₂
      cases h
      exact ⟨rfl, rfl⟩
    · cases h
      exact ⟨rfl, rfl⟩
  rw [hlast.1, hlast.2]
  split at h₁
  · rename_i hf
    rw [if_pos hf]
    obtain ⟨s₂, h₂, h₁⟩ := bind_ok.1 h₁
    cases h₁
    split at h₂
    · obtain ⟨map, ids, vbs, rfl⟩ := updateVB_assigns h₂
      exact ⟨rfl, rfl⟩
    · cases h₂
      exact ⟨rfl, rfl⟩
  · rename_i hf
    rw [if_neg hf]
    cases h₁
    refine ⟨?_, rfl⟩
    unfold scanned initialized
    split <;> rfl

theorem islands_control {inp : CommitInput} (h : s.control site.net inp = .ok s') : s'.islands = s.islands :=
  Globals.control_invariant (P := fun s' => s'.islands = s.islands) (fun _ _ _ _ ht hc => ht.same.islands.trans hc) rfl h

end

/-! ## Commits -/

/-- A commit with the replies in its input, and the exchange in which they are given: the islands first, then their
rows. -/
inductive Exchanged (parseFloat : Text → Option ℚ) (site : Site) (c : Scene) (s : State) :
    CommitInput → List (Message × Reply) → State → Prop
  | intro {partition : List Island} {row : Island → Row} {s₁ s' : Globals} {gld : IslandGld}
      {first rest : List (Message × Reply)} (hprepare : s.globals.prepare site.net (c.input partition row) = .ok s₁)
      (hislands : IslandExchange parseFloat site c s partition gld first)
      (hcontrol : s₁.control site.net (c.input partition row) = .ok s')
      (hrows : ManageExchange parseFloat site c row s₁ rest) :
      Exchanged parseFloat site c s (c.input partition row) (first ++ rest) ⟨s', gld⟩

variable {s s' : State} {inp : CommitInput}

/-- The commit is `on_commit` with that input. -/
theorem Exchanged.onCommit (h : Exchanged parseFloat site c s inp log s') :
    s.globals.onCommit site.net inp = .ok s'.globals := by
  cases h with
  | intro hprepare _ hcontrol _ => exact bind_ok.2 ⟨_, hprepare, hcontrol⟩

/-- The islands before control, and after it, are different ones. -/
theorem IslandExchange.nodup {partition : List Island} {row : Island → Row} {gld : IslandGld} {s₁ : Globals}
    (h : IslandExchange parseFloat site c s partition gld log) (hn : (s.globals.islands.getD []).Nodup)
    (hprepare : s.globals.prepare site.net (c.input partition row) = .ok s₁) : (s₁.islands.getD []).Nodup := by
  rw [(islands_prepare hprepare).1]
  unfold IslandExchange at h
  split at h
  · rename_i hf
    obtain ⟨data, mapback, branches, -, -, -, hpartition⟩ := h
    obtain ⟨results, groups, -, -, -, -, hp⟩ := partitionOf_spec hpartition
    rw [if_pos hf]
    exact hp
  · rename_i hf
    rwa [if_neg hf]

theorem Exchanged.nodup (h : Exchanged parseFloat site c s inp log s') (hn : (s.globals.islands.getD []).Nodup) :
    (s'.globals.islands.getD []).Nodup := by
  cases h with
  | intro hprepare hislands hcontrol _ =>
    rw [islands_control hcontrol]
    exact hislands.nodup hn hprepare

theorem returns_commit (hn : (s.globals.islands.getD []).Nodup) :
    Returns (Serves parseFloat) (commit site c s) log (.ok s') ↔ ∃ inp, Exchanged parseFloat site c s inp log s' := by
  unfold commit
  rw [returns_andThen]
  constructor
  · rintro ⟨first, s₁, rest, rfl, h₁, h₂⟩
    obtain ⟨rest, globals, last, rfl, hcontrol, hdone⟩ := returns_andThen.1 h₂
    obtain ⟨rfl, hs'⟩ := returns_done.1 hdone
    cases hs'
    rw [List.append_nil]
    -- the partition is known before the rows
    obtain ⟨partition, hprepare, hislands⟩ := (returns_prepare fun _ => Dict.empty).1 h₁
    obtain ⟨row, hcontrol, hrows⟩ := (returns_control (hislands.nodup hn hprepare) partition).1 hcontrol
    exact ⟨_, .intro (prepare_row.trans hprepare) hislands hcontrol hrows⟩
  · rintro ⟨inp, h⟩
    cases h with
    | @intro partition row s₁ s' gld first rest hprepare hislands hcontrol hrows =>
      refine ⟨first, ⟨s₁, gld⟩, rest, rfl, (returns_prepare row).2 ⟨partition, hprepare, hislands⟩, ?_⟩
      refine returns_andThen.2 ⟨rest, s', [], (List.append_nil _).symm, ?_, returns_done.2 ⟨rfl, rfl⟩⟩
      exact (returns_control (hislands.nodup hn hprepare) partition).2 ⟨row, hcontrol, hrows⟩

/-! ## Simulations -/

/-- The commits of a simulation, with their inputs and the whole exchange. -/
inductive Session (parseFloat : Text → Option ℚ) (site : Site) :
    State → List Scene → List CommitInput → List (Message × Reply) → State → Prop
  | nil (s : State) : Session parseFloat site s [] [] [] s
  | cons {s s₁ s' : State} {c : Scene} {cs : List Scene} {inp : CommitInput} {inps : List CommitInput}
      {log log' : List (Message × Reply)} (h : Exchanged parseFloat site c s inp log s₁)
      (hs : Session parseFloat site s₁ cs inps log' s') : Session parseFloat site s (c :: cs) (inp :: inps) (log ++ log') s'

variable {cs : List Scene} {inps : List CommitInput}

theorem Session.commits (h : Session parseFloat site s cs inps log s') :
    inps.foldlM (Globals.onCommit site.net) s.globals = .ok s'.globals := by
  induction h with
  | nil => rfl
  | cons h _ ih =>
    rw [List.foldlM_cons]
    exact bind_ok.2 ⟨_, h.onCommit, ih⟩

theorem returns_commits : ∀ {cs : List Scene} {s : State} {log : List (Message × Reply)},
    (s.globals.islands.getD []).Nodup → (Returns (Serves parseFloat) (commits site cs s) log (.ok s') ↔
      ∃ inps, Session parseFloat site s cs inps log s')
  | [], s, log, _ => by
    unfold Link.commits
    rw [returns_done]
    constructor
    · rintro ⟨rfl, h⟩
      cases h
      exact ⟨[], .nil s'⟩
    · rintro ⟨inps, h⟩
      cases h
      exact ⟨rfl, rfl⟩
  | c :: cs, s, log, hn => by
    unfold Link.commits
    rw [returns_andThen]
    constructor
    · rintro ⟨log₁, s₁, log₂, rfl, h₁, h₂⟩
      obtain ⟨inp, h₁⟩ := (returns_commit hn).1 h₁
      obtain ⟨inps, h₂⟩ := (returns_commits (h₁.nodup hn)).1 h₂
      exact ⟨inp :: inps, .cons h₁ h₂⟩
    · rintro ⟨inps, h⟩
      cases h with
      | cons h₁ h₂ =>
        exact ⟨_, _, _, rfl, (returns_commit hn).2 ⟨_, h₁⟩, (returns_commits (h₁.nodup hn)).2 ⟨_, h₂⟩⟩

/-! ## Runs of the two programs -/

/-- Whatever the order of turns: the simulation is through with its commits exactly when the replies of the server, put
into the inputs, make a run of `on_commit` to the same globals, and the messages are the ping and the requests of that
run with the replies to them. -/
theorem simulation_refines (parseFloat : Text → Option ℚ) (site : Site) (sentAt : Text) (cs : List Scene) (tStart : ℤ)
    (st : GldState ℚ) (gld : IslandGld) (log : List (Message × Reply)) (s' : State) :
    Config.Run (Serves parseFloat) (.start (simulation site sentAt cs ⟨.init tStart st, gld⟩))
        ⟨.running (.done (.ok s')), [], [], true, log⟩ ↔
      ∃ inps log', log = (.plain sentAt, .received (receivedText sentAt)) :: log' ∧
        inps.foldlM (Globals.onCommit site.net) (.init tStart st) = .ok s'.globals ∧
        Session parseFloat site ⟨.init tStart st, gld⟩ cs inps log' s' := by
  have hn : ((Globals.init tStart st).islands.getD []).Nodup := List.nodup_nil
  rw [Config.run_done_iff]
  unfold simulation
  rw [returns_ask]
  constructor
  · rintro ⟨p, rest, rfl, hserve, h⟩
    cases serves_plain.1 hserve
    obtain ⟨inps, hs⟩ := (returns_commits (s := ⟨.init tStart st, gld⟩) hn).1 h
    exact ⟨inps, rest, rfl, hs.commits, hs⟩
  · rintro ⟨inps, rest, rfl, -, hs⟩
    exact ⟨_, rest, rfl, .received sentAt, (returns_commits (s := ⟨.init tStart st, gld⟩) hn).2 ⟨inps, hs⟩⟩

/-! ## Ends -/

/-- No reply fails to be the table that was asked for. -/
def Legible {α : Type} (x : Except Failure α) : Prop := x ≠ .error .json

section

variable {α β ε : Type}

theorem legible_mapError {failure : ε → Failure} (hf : ∀ e, failure e ≠ .json) (x : Except ε α) :
    Legible (x.mapError failure) := by
  cases x with
  | error e => exact fun h => hf e (Except.error.inj h)
  | ok a => exact fun h => by cases h

theorem legible_bind {x : Except Failure α} {f : α → Except Failure β} (hx : Legible x) (hf : ∀ a, Legible (f a)) :
    Legible (x >>= f) := by
  cases x with
  | error e => exact fun h => hx (congrArg Except.error (Except.error.inj h))
  | ok a => exact hf a

theorem always_andThen {x : Controller α} {f : α → Controller β} (hx : Always (Serves parseFloat) Legible x)
    (hf : ∀ a, Always (Serves parseFloat) Legible (f a)) : Always (Serves parseFloat) Legible (andThen x f) := by
  unfold andThen
  rw [always_bind]
  induction x with
  | done r =>
    cases r with
    | error e => exact fun h => hx (congrArg Except.error (Except.error.inj h))
    | ok a => exact hf a
  | ask r next ih => exact fun p hp => ih p (hx p hp)

end

theorem always_manage (islands : List Island) (s : Globals) :
    Always (Serves parseFloat) Legible (manage site c islands s) := by
  induction islands generalizing s with
  | nil => exact fun h => by cases h
  | cons island islands ih =>
    unfold manage
    split
    · exact fun h => by cases h
    · intro p hp
      obtain ⟨row, rfl, -⟩ := serves_management.1 hp
      simp only
      split
      · exact fun h => by cases h
      · exact ih _

theorem always_prepare (s : State) : Always (Serves parseFloat) Legible (prepareClient site c s) := by
  unfold prepareClient
  simp only
  split
  · split
    · exact fun h => by cases h
    · intro p hp
      obtain ⟨branches, rfl, -⟩ := serves_islanding.1 hp
      refine legible_bind (legible_mapError (fun _ h => by cases h) _) fun _ => ?_
      refine legible_bind (legible_mapError (fun _ h => by cases h) _) fun _ => ?_
      refine legible_bind (legible_mapError (fun _ h => by cases h) _) fun _ => ?_
      exact fun h => by cases h
  · exact legible_mapError (fun _ h => by cases h) _

theorem always_commits (cs : List Scene) (s : State) : Always (Serves parseFloat) Legible (commits site cs s) := by
  induction cs generalizing s with
  | nil => exact fun h => by cases h
  | cons c cs ih =>
    refine always_andThen (always_andThen (always_prepare s) fun s₁ => always_andThen ?_ fun _ h => by cases h) ih
    unfold controlClient
    split
    · exact always_manage _ _
    · exact legible_mapError (fun _ h => by cases h) _

/-- The server has stopped at the request. -/
def Stopped (parseFloat : Text → Option ℚ) : Message → Prop
  | .plain _ => False
  | .islanding data => NoIslands parseFloat data
  | .management data => ∃ files, ∀ row, ¬ Dispatch.Manages parseFloat files data row

/-- In every order of turns at most one message is under way, each reply received is one to the request it is received
for, and there is an end: then the controller has finished, with no reply that it could not read, or it waits for a
server that has stopped at its request, which is no ping. -/
theorem simulation_ends (parseFloat : Text → Option ℚ) (site : Site) (sentAt : Text) (cs : List Scene) (s : State) :
    (∀ config, Config.Run (Serves parseFloat) (.start (simulation site sentAt cs s)) config →
      (config.underWay ≤ 1 ∧ ∀ e ∈ config.log, Serves parseFloat e.1 (some e.2)) ∧
      (config.Stuck (Serves parseFloat) ↔ (∃ x, Legible x ∧ config.phase = .running (.done x) ∧ config.up = true) ∨
        ∃ m next, config.phase = .waiting m next ∧ config.underWay = 0 ∧ config.up = false ∧ Stopped parseFloat m)) ∧
    ∀ run : ℕ → Config Message Reply (Except Failure State), run 0 = .start (simulation site sentAt cs s) →
      ∃ n, ¬ Config.Step (Serves parseFloat) (run n) (run (n + 1)) := by
  have hlegible : Always (Serves parseFloat) Legible (simulation site sentAt cs s) := fun _ _ => always_commits cs s
  refine ⟨fun config hrun => ⟨Config.run_lockstep hrun, fun hstuck => ?_, ?_⟩, fun run => Config.run_ends _ run⟩
  · rcases (Config.ends_iff serves_total).1 ⟨hrun, hstuck⟩ with ⟨log, x, h, rfl⟩ | ⟨log, m, next, h, hm, rfl⟩
    · exact .inl ⟨x, hlegible.answered h, rfl, rfl⟩
    · refine .inr ⟨m, next, rfl, rfl, rfl, ?_⟩
      cases hm with
      | noIslands hno => exact hno
      | noSetpoints hno => exact ⟨_, hno⟩
  · rintro (⟨x, -, hphase, -⟩ | ⟨m, next, hphase, -, hup, -⟩)
    · cases Config.run_iff_valid.1 hrun with
      | running => cases hphase; exact fun _ h => by cases h
      | asked => cases hphase
      | answered => cases hphase
      | stopped => cases hphase
    · cases Config.run_iff_valid.1 hrun with
      | running => cases hphase
      | asked => cases hup
      | answered => cases hup
      | stopped => exact fun _ h => by cases h

end Grip.Link
