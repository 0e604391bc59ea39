/-
The network along a simulation. The scheme is armed and the islands are formed at a change of faults only, so what
the last change has carried out is what holds after all the commits: the islands in force are components of the
network that its plan has left.
-/
import GripAbsorption.Islanding.Switching
import GripAbsorption.Link.Isolated

namespace Grip.Link

open Grip.Base Grip.Islanding Grip.Absorption Grip.Packetized

variable {parseFloat : Text → Option ℚ} {site : Site} {c : Scene} {log : List (Message × Reply)}

/-! ## Changes of faults -/

/-- A scan finds a change when some flag is not the one in the list. -/
theorem newFaultDetected_change (net : Absorption.Network) (fault : ℕ → Bool) (s : Globals) :
    (s.newFaultDetected net fault).2 = true ↔ ∃ n ∈ net.supernodes, ¬ (fault n = true ↔ n ∈ s.faultedNodes) := by
  suffices hscan : ∀ done : List ℕ, (done.foldl (Globals.faultTurn fault) (s.faultedNodes, false)).2 = true ↔
      ∃ n ∈ done, ¬ (fault n = true ↔ n ∈ s.faultedNodes) from hscan net.supernodes
  intro done
  induction done using List.reverseRecOn with
  | nil => simp
  | append_singleton done sn ih =>
    have hmem := (newFaultDetected_spec { net with supernodes := done } fault s).1 sn
    change sn ∈ (done.foldl (Globals.faultTurn fault) (s.faultedNodes, false)).1 ↔ _ at hmem
    rw [List.foldl_concat]
    generalize done.foldl (Globals.faultTurn fault) (s.faultedNodes, false) = acc at hmem ih
    -- a node that was scanned before has its flag in the list
    have hnew : (Globals.faultTurn fault acc sn).2 = true ↔ acc.2 = true ∨ ¬ (fault sn = true ↔ sn ∈ acc.1) := by
      unfold Globals.faultTurn
      split_ifs <;> simp_all
    rw [hnew, ih, hmem]
    simp only [List.mem_append, List.mem_singleton, or_and_right, exists_or, exists_eq_left]
    by_cases hdone : sn ∈ done
    · rw [if_pos hdone]
      simp only [not_true_eq_false, or_false]
      exact ⟨.inl, fun h => h.elim id fun h => ⟨sn, hdone, h⟩⟩
    · rw [if_neg hdone]

theorem faultChange_iff {s : Globals} :
    FaultChange site c s ↔ ∃ n ∈ site.net.supernodes, ¬ (c.fault n = true ↔ n ∈ s.faultedNodes) := by
  have hinit : (initialized site c s).faultedNodes = s.faultedNodes := by
    unfold initialized
    split <;> rfl
  rw [← hinit]
  exact newFaultDetected_change site.net c.fault (initialized site c s)

/-! ## One commit -/

/-- The exchange is about managing islands only. -/
def OnlyManages (log : List (Message × Reply)) : Prop := ∀ x ∈ log, ∃ data, x.1 = .management data

section

variable {s s' : State} {inp : CommitInput}

theorem ManageExchange.onlyManages {row : Island → Row} {s : Globals} (h : ManageExchange parseFloat site c row s log) :
    OnlyManages log := by
  unfold ManageExchange at h
  split at h
  · intro x hx
    obtain ⟨turn, -, data, -, -, rfl, -⟩ := mem_of_forall₂ h hx
    exact ⟨data, rfl⟩
  · rw [h]
    exact fun x hx => (List.not_mem_nil hx).elim

/-- Without a change the network and the islands stay, and the server is asked to manage only. -/
theorem Exchanged.same (h : Exchanged parseFloat site c s inp log s') (hc : ¬ FaultChange site c s.globals) :
    s'.gld = s.gld ∧ s'.globals.islands = s.globals.islands ∧ s'.globals.faultedNodes = s.globals.faultedNodes ∧
      OnlyManages log := by
  cases h with
  | @intro partition row s₁ s' gld first rest hprepare hislands hcontrol hrows =>
    unfold IslandExchange at hislands
    rw [if_neg hc] at hislands
    obtain ⟨rfl, rfl⟩ := hislands
    obtain ⟨hisl, hfaulted⟩ := islands_prepare hprepare
    rw [if_neg hc] at hisl
    refine ⟨rfl, (islands_control hcontrol).trans hisl, ?_, hrows.onlyManages⟩
    exact (faultedNodes_control hcontrol).trans (hfaulted.trans (scanned_of_same hc))

/-- What a scene's feeder needs for its request to be read as it is. -/
structure Scene.Readable (c : Scene) : Prop where
  padded : c.feeder.EndsPadded
  names : ∀ b ∈ c.feeder.branches.rows, IsArmable b.name

/-- At a change the plan of the reply is carried out. -/
theorem Exchanged.carriedOut (h : Exchanged parseFloat site c s inp log s') (hc : FaultChange site c s.globals)
    (hread : c.Readable) : ∃ data plan rest, log = (.islanding data, .branches plan) :: rest ∧ OnlyManages rest ∧
      CarriedOut c.feeder site.swingSn s'.globals.faultedNodes site.inverters plan s.gld s'.gld (s'.globals.islands.getD []) := by
  cases h with
  | @intro partition row s₁ s' gld first rest hprepare hislands hcontrol hrows =>
    unfold IslandExchange at hislands
    rw [if_pos hc] at hislands
    obtain ⟨data, mapback, plan, hrequest, hplan, rfl, hpartition⟩ := hislands
    obtain ⟨hisl, hfaulted⟩ := islands_prepare hprepare
    rw [if_pos hc] at hisl
    refine ⟨data, plan, rest, rfl, hrows.onlyManages, ?_⟩
    have hisl' : s'.islands.getD [] = partition := by rw [islands_control hcontrol, hisl]; rfl
    have hfaulted' : s'.faultedNodes = (scanned site c s.globals).faultedNodes := (faultedNodes_control hcontrol).trans hfaulted
    obtain ⟨results, hresults, hprocess⟩ := bind_ok.1 hpartition
    cases hplan with
    | plan hread' hargs hp =>
      have hanswers := answers_results hread.padded (fun b hb => (hread.names b hb).word) hrequest hread' hargs
        hp.switches.fixed hresults
      rw [hisl', hfaulted']
      exact carriedOut_of_answers hanswers hresults hread.names le_rfl hprocess

end

/-! ## The last change -/

section

variable {s s' : State} {cs cs' : List Scene} {inps : List CommitInput}

/-- A session in two parts. -/
theorem session_append (h : Session parseFloat site s (cs ++ cs') inps log s') : ∃ s₁ inps₁ inps₂ log₁ log₂,
    Session parseFloat site s cs inps₁ log₁ s₁ ∧ Session parseFloat site s₁ cs' inps₂ log₂ s' ∧ log = log₁ ++ log₂ := by
  induction cs generalizing s inps log with
  | nil => exact ⟨s, [], inps, [], log, .nil s, h, rfl⟩
  | cons c cs ih =>
    cases h with
    | cons hc h =>
      obtain ⟨s₁, inps₁, inps₂, log₁, log₂, h₁, h₂, rfl⟩ := ih h
      exact ⟨s₁, _, inps₂, _, log₂, .cons hc h₁, h₂, (List.append_assoc ..).symm⟩

/-- The flags that a list of commits leaves behind; none is set at the start. -/
def lastFlags (cs : List Scene) (n : ℕ) : Bool := (cs.getLast?.map fun c => c.fault n).getD false

/-- The flags change at `c`, and do not change again after it. -/
structure LastChange (supernodes : List ℕ) (before : List Scene) (c : Scene) (after : List Scene) : Prop where
  change : ∃ n ∈ supernodes, c.fault n ≠ lastFlags before n
  same : ∀ c' ∈ after, ∀ n ∈ supernodes, c'.fault n = c.fault n

/-- The faults of a session are those of the last flags. -/
theorem Session.faulted (h : Session parseFloat site s cs inps log s') (hs : ∀ n ∈ s.globals.faultedNodes, n ∈ site.net.supernodes)
    (hstart : cs = [] → s.globals.faultedNodes = []) (n : ℕ) :
    n ∈ s'.globals.faultedNodes ↔ n ∈ site.net.supernodes ∧ lastFlags cs n = true := by
  induction h with
  | nil => simp [hstart rfl, lastFlags]
  | @cons s s₁ s' c cs inp inps log log' hc h ih =>
    have hfaulted := hc.faulted hs
    cases h with
    | nil => exact hfaulted n
    | @cons _ s₂ _ c' cs _ _ _ _ hc' h' =>
      refine (ih (fun n hn => ((hfaulted n).1 hn).1) (fun h => (List.cons_ne_nil _ _ h).elim)).trans (and_congr_right fun _ => ?_)
      unfold lastFlags
      rw [List.getLast?_cons_cons]

/-- While the flags stay, so do the network and the islands. -/
theorem Session.same (h : Session parseFloat site s cs inps log s')
    (hs : ∀ c ∈ cs, ∀ n ∈ site.net.supernodes, (c.fault n = true ↔ n ∈ s.globals.faultedNodes)) :
    s'.gld = s.gld ∧ s'.globals.islands = s.globals.islands ∧ s'.globals.faultedNodes = s.globals.faultedNodes ∧
      OnlyManages log := by
  induction h with
  | nil => exact ⟨rfl, rfl, rfl, fun x hx => (List.not_mem_nil hx).elim⟩
  | @cons s s₁ s' c cs inp inps log log' hc h ih =>
    rw [List.forall_mem_cons] at hs
    have hno : ¬ FaultChange site c s.globals := by
      rw [faultChange_iff]
      rintro ⟨n, hn, hne⟩
      exact hne (hs.1 n hn)
    obtain ⟨hgld, hisl, hfaulted, hlog⟩ := hc.same hno
    obtain ⟨hgld', hisl', hfaulted', hlog'⟩ := ih (by rw [hfaulted]; exact hs.2)
    refine ⟨hgld'.trans hgld, hisl'.trans hisl, hfaulted'.trans hfaulted, fun x hx => ?_⟩
    rcases List.mem_append.1 hx with hx | hx
    exacts [hlog x hx, hlog' x hx]

/-- Once marked as islanded an inverter stays marked. -/
theorem Session.marked (h : Session parseFloat site s cs inps log s') (hread : ∀ c ∈ cs, c.Readable) (i : Text)
    (hi : s.gld.islandedState i = true) : s'.gld.islandedState i = true := by
  induction h with
  | nil => exact hi
  | @cons s s₁ s' c cs inp inps log log' hc h ih =>
    rw [List.forall_mem_cons] at hread
    refine ih hread.2 ?_
    by_cases hchange : FaultChange site c s.globals
    · obtain ⟨data, plan, rest, -, -, hcarried⟩ := hc.carriedOut hchange hread.1
      exact (hcarried.marked i).2 (.inl hi)
    · rw [(hc.same hchange).1]
      exact hi

end

/-- Whatever plans and rows the server replies with, and in whatever order the two programs take turns: after the commits
the plan of the last request to island is carried out on the network that GridLAB-D had at the last change of faults.
Nothing but rows of setpoints was asked for since, and no inverter has lost its mark. -/
theorem simulation_switched (parseFloat : Text → Option ℚ) (site : Site) (sentAt : Text) (before after : List Scene) (c : Scene)
    (tStart : ℤ) (st : GldState ℚ) (gld : IslandGld) (log : List (Message × Reply)) (s' : State)
    (hread : ∀ c' ∈ before ++ c :: after, c'.Readable) (hlast : LastChange site.net.supernodes before c after)
    (hrun : Config.Run (Serves parseFloat) (.start (simulation site sentAt (before ++ c :: after) ⟨.init tStart st, gld⟩))
      ⟨.running (.done (.ok s')), [], [], true, log⟩) :
    (∀ n, n ∈ s'.globals.faultedNodes ↔ n ∈ site.net.supernodes ∧ c.fault n = true) ∧
      ∃ log₁ data plan log₂ gld₀, log = log₁ ++ (.islanding data, .branches plan) :: log₂ ∧ OnlyManages log₂ ∧
        (∀ i, gld.islandedState i = true → gld₀.islandedState i = true) ∧
        CarriedOut c.feeder site.swingSn s'.globals.faultedNodes site.inverters plan gld₀ s'.gld
          (s'.globals.islands.getD []) := by
  rw [Config.run_done_iff] at hrun
  unfold simulation at hrun
  obtain ⟨p, rest, rfl, -, hrun⟩ := returns_ask.1 hrun
  obtain ⟨inps, hs⟩ := (returns_commits (s := ⟨.init tStart st, gld⟩) List.nodup_nil).1 hrun
  obtain ⟨s₁, _, _, log₁, log₂, hbefore, hrest, rfl⟩ := session_append hs
  cases hrest with
  | @cons _ s₂ _ _ _ _ _ logc loga hc hafter =>
    have hfaulted := hbefore.faulted (fun n hn => (List.not_mem_nil hn).elim) fun _ => rfl
    have hsub : ∀ n ∈ s₁.globals.faultedNodes, n ∈ site.net.supernodes := fun n hn => ((hfaulted n).1 hn).1
    have hchange : FaultChange site c s₁.globals := by
      obtain ⟨n, hn, hne⟩ := hlast.change
      refine faultChange_iff.2 ⟨n, hn, fun hiff => hne ?_⟩
      rw [hfaulted, and_iff_right hn] at hiff
      exact Bool.eq_iff_iff.2 hiff
    have hflags := hc.faulted hsub
    obtain ⟨hgld, hisl, hsame, hlog⟩ := hafter.same fun c' hc' n hn => by
      rw [hlast.same c' hc' n hn, hflags, and_iff_right hn]
    obtain ⟨data, plan, rest, rfl, hmanages, hcarried⟩ := hc.carriedOut hchange (hread c (by simp))
    rw [hgld, hisl, hsame]
    refine ⟨hflags, (.plain sentAt, p) :: log₁, data, plan, rest ++ loga, s₁.gld, by simp, fun x hx => ?_, fun i hi => ?_,
      hcarried⟩
    · rcases List.mem_append.1 hx with hx | hx
      exacts [hmanages x hx, hlog x hx]
    · exact hbefore.marked (fun c' hc' => hread c' (List.mem_append_left _ hc')) i hi

/-! ## The small feeder, cut at a fault -/

/-- The buses of the small feeder. -/
def cutNet : Absorption.Network := { twoFeeders with supernodes := [101, 12, 1003] }

def cutSite : Site := ⟨cutNet, 1003, ["inverter_012".toList], fewDoubles⟩

/-- At the start of a simulation. -/
def cutStart : State := ⟨.init 0 untouched, ⟨[], fun _ => false⟩⟩

theorem faultScene_readable : faultScene.Readable := by
  refine ⟨smallFeeder_padded, fun b hb => ⟨?_, ?_⟩⟩
  · exact (show ∀ b ∈ smallFeeder.branches.rows, IsWord b.name by decide +kernel) b hb
  · exact (show ∀ b ∈ smallFeeder.branches.rows, '|' ∉ b.name by decide +kernel) b hb

/-- The request is answered with some plan. -/
theorem faultScene_islands : ∃ data mapback plan results,
    getIslandingData fewDoubles smallFeeder ([101].map supernodeName) = .ok (data, mapback) ∧ Islands parseFew data plan ∧
      mapBack mapback plan = .ok results ∧ List.Forall₂ (Answers [101]) smallFeeder.sentBranches results := by
  have hrun : (getIslandingData fewDoubles smallFeeder ([101].map supernodeName)).toOption.isSome = true := by decide +kernel
  obtain ⟨⟨data, mapback⟩, hdata⟩ := Option.isSome_iff_exists.1 hrun
  rw [toOption_eq_some] at hdata
  have hwords : ∀ b ∈ smallFeeder.branches.rows, IsWord b.name := fun b hb => (faultScene_readable.names b hb).word
  obtain ⟨frames, indices, args, hframes, hgen, hix, hread, hargs, hloops⟩ := smallFeeder_loopless hdata
  obtain ⟨p, hp⟩ := (feasible_payload smallFeeder_padded smallFeeder_sane hframes hgen hix hargs).2
    ⟨(smallFeeder_frames hframes).2.1, by rw [hloops]; simp⟩
  obtain ⟨results, hresults⟩ := exists_mapBack smallFeeder_padded hwords hdata hread hargs p
  exact ⟨data, mapback, _, results, hdata, .plan hread hargs hp, hresults,
    answers_results smallFeeder_padded hwords hdata hread hargs hp.switches.fixed hresults⟩

/-- The virtual islands: bus 12, if the plan leaves it cut off from the swing bus. -/
def cutIslands (joined : Bool) : List Island := if joined then [] else [[12]]

/-- The reply is mapped back and carried out. -/
theorem faultScene_partition : ∃ data mapback plan gld joined,
    getIslandingData fewDoubles smallFeeder ([101].map supernodeName) = .ok (data, mapback) ∧ Islands parseFew data plan ∧
      partitionOf cutSite faultScene (cutStart.scanned cutSite faultScene) mapback plan = .ok (gld, cutIslands joined) := by
  obtain ⟨data, mapback, plan, results, hdata, hplan, hresults, hanswers⟩ := faultScene_islands
  have hsent : smallFeeder.sentBranches.map (fun b => (b.name, busNumber b.toNode, busNumber b.fromNode, b.closed)) =
      [("sw1".toList, some 101, some 12, true), ("sw2".toList, some 12, some 1003, false)] := by
    decide +kernel
  have hrows : List.Forall₂ (fun x r => r.id = x.1 ∧ x.2.1 = some r.t ∧ x.2.2.1 = some r.f ∧ r.st00 = x.2.2.2 ∧
      (r.t ∈ [101] ∨ r.f ∈ [101] → r.st1 = false)) (smallFeeder.sentBranches.map fun b =>
        (b.name, busNumber b.toNode, busNumber b.fromNode, b.closed)) results :=
    List.forall₂_map_left_iff.2 (hanswers.imp fun b r h => ⟨h.id, h.t, h.f, h.st00, h.isolated⟩)
  rw [hsent] at hrows
  obtain ⟨⟨id₁, t₁, f₁, _, x₁, y₁⟩, _, ⟨hid₁, ht₁, hf₁, hst₁, hopen⟩, hrest, rfl⟩ := List.forall₂_cons_left_iff.1 hrows
  obtain ⟨⟨id₂, t₂, f₂, _, x₂, y₂⟩, _, ⟨hid₂, ht₂, hf₂, hst₂, -⟩, hnil, rfl⟩ := List.forall₂_cons_left_iff.1 hrest
  cases hnil
  cases hid₁
  cases hid₂
  cases ht₁
  cases ht₂
  cases hf₁
  cases hf₂
  cases hst₁
  cases hst₂
  obtain rfl : y₁ = false := hopen (.inl (List.mem_singleton_self _))
  -- the switch to the swing bus is open or closed in the plan
  have hprocess : ((processIslands ⟨1003, faultedNames (cutStart.scanned cutSite faultScene).globals, cutSite.inverters⟩
      (fun _ => 0) 3 (fun _ _ => 0) [⟨"sw1".toList, 101, 12, true, x₁, false⟩, ⟨"sw2".toList, 12, 1003, false, x₂, y₂⟩]
        cutStart.gld).toOption.map (·.2)) = some (cutIslands y₂) := by
    cases x₁ <;> cases x₂ <;> cases y₂ <;> decide +kernel
  obtain ⟨⟨gld, partition⟩, hrun, hpartition⟩ := Option.map_eq_some_iff.1 hprocess
  obtain rfl : partition = cutIslands y₂ := hpartition
  exact ⟨data, mapback, plan, gld, y₂, hdata, hplan, bind_ok.2 ⟨_, hresults, toOption_eq_some.1 hrun⟩⟩

/-- The commit is made, without a question to manage: no device is on the island. -/
theorem faultScene_prepared (joined : Bool) (row : Island → Row) : ∃ s₁,
    cutStart.globals.prepare cutNet (faultScene.input (cutIslands joined) row) = .ok s₁ ∧ s₁.islandedDevices = [] := by
  have hrun : (cutStart.globals.prepare cutNet (faultScene.input (cutIslands joined) row)).toOption.map (·.islandedDevices) =
      some [] := by
    cases joined <;> rfl
  obtain ⟨s₁, hs₁, hnone⟩ := Option.map_eq_some_iff.1 hrun
  exact ⟨s₁, toOption_eq_some.1 hs₁, hnone⟩

/-- The simulation of the one commit ends. -/
theorem faultScene_runs : ∃ log s', Config.Run (Serves parseFew) (.start (simulation cutSite "noon".toList [faultScene] cutStart))
    ⟨.running (.done (.ok s')), [], [], true, log⟩ := by
  obtain ⟨data, mapback, plan, gld, joined, hdata, hplan, hpartition⟩ := faultScene_partition
  obtain ⟨s₁, hprepare, hnone⟩ := faultScene_prepared joined fun _ => Dict.empty
  have hchange : FaultChange cutSite faultScene cutStart.globals := by
    show ((initialized cutSite faultScene cutStart.globals).newFaultDetected cutNet faultScene.fault).2 = true
    rfl
  have hmanages : ∀ p, ¬ s₁.Manages (faultScene.input p fun _ => Dict.empty) := fun _ h => h.2.1 hnone
  have hislands : IslandExchange parseFew cutSite faultScene cutStart (cutIslands joined) gld
      [(.islanding data, .branches plan)] := by
    unfold IslandExchange
    rw [if_pos hchange]
    exact ⟨data, mapback, plan, hdata, hplan, rfl, hpartition⟩
  have hcontrol : s₁.control cutNet (faultScene.input (cutIslands joined) fun _ => Dict.empty) = .ok s₁ := by
    unfold Globals.control
    rw [if_neg (hmanages _), if_neg fun h => h.1 hnone]
    rfl
  have hrows : ManageExchange parseFew cutSite faultScene (fun _ => Dict.empty) s₁ [] := by
    unfold ManageExchange
    rw [if_neg (hmanages _)]
  have hsession := Session.cons (Exchanged.intro hprepare hislands hcontrol hrows) (.nil _)
  have hreturns := (returns_commits (s := cutStart) List.nodup_nil).2 ⟨_, hsession⟩
  exact ⟨_, _, Config.run_done_iff.2 (returns_ask.2 ⟨_, _, rfl, serves_plain.2 rfl, hreturns⟩)⟩

theorem faultScene_switched : ∃ log s', Config.Run (Serves parseFew)
      (.start (simulation cutSite "noon".toList [faultScene] cutStart)) ⟨.running (.done (.ok s')), [], [], true, log⟩ ∧
    ∃ plan gld₀, CarriedOut smallFeeder 1003 s'.globals.faultedNodes ["inverter_012".toList] plan gld₀ s'.gld
      (s'.globals.islands.getD []) := by
  obtain ⟨log, s', hrun⟩ := faultScene_runs
  obtain ⟨-, _, _, plan, _, gld₀, -, -, -, hcarried⟩ := simulation_switched parseFew cutSite "noon".toList [] [] faultScene 0
    untouched ⟨[], fun _ => false⟩ log s' (List.forall_mem_singleton.2 faultScene_readable)
    ⟨⟨101, by decide, by decide⟩, by simp⟩ hrun
  exact ⟨log, s', hrun, plan, gld₀, hcarried⟩

end Grip.Link
