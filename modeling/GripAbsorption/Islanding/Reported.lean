/-
Which cycles `find_cycles` can report. Some draws lead a walk round any simple cycle, from any of its nodes,
and each of the `2n` searches can follow a cycle of its own: so a set of cycles is what some run reports exactly
when it is not empty and has at most as many elements as there are searches. Only a network without a loop is
sure to be reported as one.
-/
import GripAbsorption.Islanding.Cycles

namespace Grip.Islanding

open Grip.Base

variable {m : ℕ} {T F : Fin m → ℕ}

/-! ## Neighbours -/

theorem mem_busList_of_adj {a b : ℕ} (h : (branchGraph T F).Adj a b) : a ∈ busList T F := by
  unfold branchGraph at h
  rw [SimpleGraph.fromRel_adj] at h
  rw [mem_busList]
  rcases h.2 with ⟨k, hk, -⟩ | ⟨k, -, hk⟩
  exacts [.inl ⟨k, hk⟩, .inr ⟨k, hk⟩]

/-- The ends of a branch are neighbours. -/
theorem mem_neighbors {a b : ℕ} (h : (branchGraph T F).Adj a b) :
    (busList T F).idxOf b ∈ neighbors T F ((busList T F).idxOf a) := by
  refine List.mem_filter.2 ⟨List.mem_range.2 (List.idxOf_lt_length_of_mem (mem_busList_of_adj h.symm)), decide_eq_true ?_⟩
  unfold branchGraph at h
  rw [SimpleGraph.fromRel_adj] at h
  unfold adjacency
  rcases h.2 with ⟨k, rfl, rfl⟩ | ⟨k, rfl, rfl⟩
  · exact (Nat.add_pos_left (List.countP_pos_iff.2 ⟨k, List.mem_finRange k, decide_eq_true ⟨rfl, rfl⟩⟩) _).ne'
  · exact (Nat.add_pos_right _ (List.countP_pos_iff.2 ⟨k, List.mem_finRange k, decide_eq_true ⟨rfl, rfl⟩⟩)).ne'

/-! ## A walk round a cycle -/

/-- Some draws lead the walk along any path of new nodes back to the origin. Draws for earlier turns do not matter. -/
theorem walk_along {origin : ℕ} : ∀ (rest : List ℕ) {left id : ℕ} {visited : List ℕ},
    List.IsChain (fun a b => b ∈ neighbors T F a) (id :: (rest ++ [origin])) → (origin :: (visited ++ rest)).Nodup →
    rest.length < left → 2 ≤ visited.length + rest.length →
    ∃ draws : ℕ → ℕ, ∀ draws', (∀ k, visited.length < k → draws' k = draws k) →
      walk T F origin draws' left (visited.length + 1) visited id =
        .ok (some ((origin :: (visited ++ rest)).eraseDups.insertionSort (· ≤ ·)))
  | [], left + 1, id, visited, hchain, hnodup, hleft, htwo => by
    have hback : origin ∈ neighbors T F id := by simpa using hchain
    have hnew : origin ∉ visited := fun h => (List.nodup_cons.1 hnodup).1 (List.mem_append_left _ h)
    have hlen : 2 ≤ visited.length := by simpa using htwo
    have hmem : origin ∈ notVisited origin (visited.length + 1) visited (neighbors T F id) := by
      unfold notVisited
      rw [if_pos (by omega)]
      exact List.mem_filter.2 ⟨hback, decide_eq_true hnew⟩
    obtain ⟨draw, hdraw⟩ := exists_choice hmem
    refine ⟨fun _ => draw, fun draws' hdraws => ?_⟩
    rw [walk, hdraws _ (Nat.lt_succ_self _), hdraw, List.append_nil]
    exact if_pos rfl
  | next :: rest, left + 1, id, visited, hchain, hnodup, hleft, htwo => by
    have hnear : next ∈ neighbors T F id := by
      rw [List.cons_append, List.isChain_cons_cons] at hchain
      exact hchain.1
    have hne : next ≠ origin := by
      rintro rfl
      exact (List.nodup_cons.1 hnodup).1 (by simp)
    have hnew : next ∉ visited := fun h =>
      (List.nodup_append.1 (List.nodup_cons.1 hnodup).2).2.2 next h next (List.mem_cons_self ..) rfl
    have hmem : next ∈ notVisited origin (visited.length + 1) visited (neighbors T F id) := by
      unfold notVisited
      split
      · exact List.mem_filter.2 ⟨hnear, decide_eq_true hnew⟩
      · split
        · exact List.mem_filter.2 ⟨hnear, decide_eq_true (by simp [hne, hnew])⟩
        · exact hnear
    obtain ⟨draw, hdraw⟩ := exists_choice hmem
    have happend : visited ++ [next] ++ rest = visited ++ next :: rest := by simp
    have hrest : rest.length < left := by simpa using hleft
    rw [List.cons_append, List.isChain_cons_cons] at hchain
    rw [← happend] at hnodup
    obtain ⟨draws, hrun⟩ := walk_along rest hchain.2 hnodup hrest (by simp at htwo ⊢; omega)
    refine ⟨Function.update draws (visited.length + 1) draw, fun draws' hdraws => ?_⟩
    rw [walk, hdraws _ (Nat.lt_succ_self _), Function.update_self, hdraw]
    simp only [if_neg hne, if_neg hnew]
    have hlen : (visited ++ [next]).length = visited.length + 1 := by simp
    rw [← happend, ← hrun draws' fun k hk => ?_, hlen]
    rw [hdraws k (by omega), Function.update_of_ne (by omega)]

/-- The nodes of a simple cycle after its first, up to the last of them. -/
theorem support_cycle {b : ℕ} {p : (branchGraph T F).Walk b b} (hp : p.IsCycle) :
    ∃ middle, p.support = b :: (middle ++ [b]) ∧ (b :: middle).Nodup ∧ 2 ≤ middle.length := by
  have htail : p.support.tail ≠ [] := List.ne_nil_of_length_pos (by
    rw [List.length_tail, p.length_support]
    exact Nat.lt_of_lt_of_le (by decide) hp.three_le_length)
  have hlast : p.support.tail.getLast htail = b := by
    rw [List.getLast_tail, p.getLast_support]
  have hsplit : p.support.tail = p.support.tail.dropLast ++ [b] :=
    (List.dropLast_append_getLast htail).symm.trans (by rw [hlast])
  refine ⟨p.support.tail.dropLast, ?_, ?_, ?_⟩
  · rw [← hsplit]
    exact p.cons_tail_support.symm
  · have hnodup := hp.support_nodup
    rw [hsplit] at hnodup
    exact (List.perm_append_singleton b _).nodup_iff.1 hnodup
  · rw [List.length_dropLast, List.length_tail, p.length_support]
    have := hp.three_le_length
    omega

/-- For every simple cycle some draws make the walk find it. -/
theorem exists_walk (hloop : ∀ k, T k ≠ F k) {b : ℕ} {p : (branchGraph T F).Walk b b} (hp : p.IsCycle) :
    ∃ (draws : ℕ → ℕ) (c : List ℕ), walk T F (draws 0 % (busList T F).length) draws (busList T F).length 1 []
        (draws 0 % (busList T F).length) = .ok (some c) ∧
      IsCycleSet T F c ∧ (c.map (bus T F)).toFinset = p.support.toFinset := by
  obtain ⟨middle, hsupp, hnodup, htwo⟩ := support_cycle hp
  have hmem : ∀ a ∈ b :: middle, a ∈ busList T F := fun a ha => by
    have ha' : a ∈ p.support := hsupp ▸ List.mem_append_left [b] ha
    obtain ⟨_, -, hadj⟩ := SimpleGraph.adj_of_mem_walk_support p hp.not_nil ha'
    exact mem_busList_of_adj hadj
  have hlt : ∀ j ∈ (b :: middle).map (busList T F).idxOf, j < (busList T F).length := fun j hj => by
    obtain ⟨a, ha, rfl⟩ := List.mem_map.1 hj
    exact List.idxOf_lt_length_of_mem (hmem a ha)
  -- the cycle by its internal numbers
  have hchain : List.IsChain (fun a b => b ∈ neighbors T F a)
      ((busList T F).idxOf b :: (middle.map (busList T F).idxOf ++ [(busList T F).idxOf b])) := by
    have hadj := p.isChain_adj_support
    rw [hsupp] at hadj
    simpa using List.isChain_map_of_isChain (busList T F).idxOf (fun _ _ => mem_neighbors) hadj
  have hinternal : ((b :: middle).map (busList T F).idxOf).Nodup :=
    hnodup.map_on fun a ha a' ha' h => by rw [← bus_idxOf T F (hmem a ha), h, bus_idxOf T F (hmem a' ha')]
  have hroom : (middle.map (busList T F).idxOf).length < (busList T F).length := by
    have hsub : (b :: middle).map (busList T F).idxOf ⊆ List.range (busList T F).length := fun j hj =>
      List.mem_range.2 (hlt j hj)
    have hle := (hinternal.subperm hsub).length_le
    rw [List.length_range] at hle
    exact hle
  have hfresh : ((busList T F).idxOf b :: ([] ++ middle.map (busList T F).idxOf)).Nodup := hinternal
  obtain ⟨draws, hrun⟩ := walk_along (middle.map (busList T F).idxOf) hchain hfresh hroom (by simpa using htwo)
  have horigin : (busList T F).idxOf b < (busList T F).length := hlt _ (List.mem_cons_self ..)
  have hwalk := hrun (Function.update draws 0 ((busList T F).idxOf b)) fun k hk =>
    Function.update_of_ne (Nat.pos_iff_ne_zero.1 hk) ..
  refine ⟨Function.update draws 0 ((busList T F).idxOf b),
    ((b :: middle).map (busList T F).idxOf).eraseDups.insertionSort (· ≤ ·), ?_, ?_, ?_⟩
  · rw [Function.update_self, Nat.mod_eq_of_lt horigin]
    exact hwalk
  · obtain ⟨found, hfound, hcycle⟩ := walk_found hloop (Function.update draws 0 ((busList T F).idxOf b))
      (busList T F).length (visited_start horigin) (Nat.add_zero _)
    exact hcycle _ (Except.ok.inj (hfound.symm.trans hwalk))
  · ext a
    rw [List.mem_toFinset, List.mem_toFinset, hsupp, ← List.cons_append, List.mem_append, List.mem_singleton,
      or_iff_left_of_imp fun h => h ▸ List.mem_cons_self .., List.mem_map]
    constructor
    · rintro ⟨j, hj, rfl⟩
      obtain ⟨a, ha, rfl⟩ := List.mem_map.1 (List.mem_eraseDups.1 ((List.mem_insertionSort _).1 hj))
      rwa [bus_idxOf T F (hmem a ha)]
    · intro ha
      exact ⟨_, (List.mem_insertionSort _).2 (List.mem_eraseDups.2 (List.mem_map_of_mem ha)), bus_idxOf T F (hmem a ha)⟩

/-! ## The searches -/

/-- Every search keeps one cycle at most. -/
theorem searches_ok (hloop : ∀ k, T k ≠ F k) (hn : 0 < (busList T F).length) (draws : ℕ → ℕ → ℕ) :
    ∀ (iters : List ℕ) {acc : List (List ℕ)}, (acc.Nodup ∧ ∀ c ∈ acc, IsCycleSet T F c) →
      ∃ cycles, iters.foldlM (search T F draws) acc = .ok cycles ∧ (cycles.Nodup ∧ ∀ c ∈ cycles, IsCycleSet T F c) ∧
        cycles.length ≤ acc.length + iters.length
  | [], acc, h => ⟨acc, rfl, h, le_refl _⟩
  | iter :: iters, acc, h => by
    cases hs : search T F draws acc iter with
    | error e => exact ((search_found hloop hn draws h iter).of_error hs).elim
    | ok acc₁ =>
      have hlen : acc₁.length ≤ acc.length + 1 := by
        obtain ⟨found, -, rfl⟩ := (search_ok T F).1 hs
        rw [List.length_append]
        exact Nat.add_le_add_left ((List.length_filter_le ..).trans found.length_toList_le) _
      obtain ⟨cycles, hrun, hcycles, hle⟩ := searches_ok hloop hn draws iters ((search_found hloop hn draws h iter).of_ok hs)
      refine ⟨cycles, by rw [List.foldlM_cons, hs]; exact hrun, hcycles, ?_⟩
      rw [List.length_cons]
      omega

/-- When every search finds a cycle, what is kept are the cycles found. -/
theorem searches_follow {draws : ℕ → ℕ → ℕ} {f : ℕ → List ℕ} (hf : ∀ iter, walk T F (draws iter 0 % (busList T F).length)
      (draws iter) (busList T F).length 1 [] (draws iter 0 % (busList T F).length) = .ok (some (f iter))) :
    ∀ k, ∃ cycles, (List.range k).foldlM (search T F draws) [] = .ok cycles ∧ ∀ c, c ∈ cycles ↔ ∃ iter < k, f iter = c
  | 0 => ⟨[], rfl, by simp⟩
  | k + 1 => by
    obtain ⟨cycles, hrun, hmem⟩ := searches_follow hf k
    refine ⟨cycles ++ (some (f k)).toList.filter (· ∉ cycles), ?_, fun c => ?_⟩
    · rw [List.range_succ, List.foldlM_append, hrun]
      have hstep : search T F draws cycles k = .ok (cycles ++ (some (f k)).toList.filter (· ∉ cycles)) :=
        (search_ok T F).2 ⟨_, hf k, rfl⟩
      exact bind_ok.2 ⟨cycles, rfl, bind_ok.2 ⟨_, hstep, rfl⟩⟩
    · rw [List.mem_append, hmem, List.mem_filter, Option.mem_toList, decide_eq_true_eq, hmem]
      constructor
      · rintro (⟨iter, hiter, rfl⟩ | ⟨hc, -⟩)
        exacts [⟨iter, by omega, rfl⟩, ⟨k, by omega, Option.some.inj hc⟩]
      · rintro ⟨iter, hiter, rfl⟩
        rcases Nat.lt_succ_iff_lt_or_eq.1 hiter with hlt | rfl
        · exact .inl ⟨iter, hlt, rfl⟩
        · by_cases hold : ∃ i < iter, f i = f iter
          exacts [.inl hold, .inr ⟨rfl, hold⟩]

/-- What `find_cycles` returns, by internal numbers. -/
theorem findCycles_eq (hm : m ≠ 0) {draws : ℕ → ℕ → ℕ} {loops : List (List ℕ)} :
    findCycles T F draws = .ok loops ↔
      ∃ cycles, (List.range ((busList T F).length * 2)).foldlM (search T F draws) [] = .ok cycles ∧
        loops = (cycles.map fun c => c.map (bus T F)).insertionSort (· ≤ ·) := by
  unfold findCycles
  rw [if_neg hm]
  refine bind_ok.trans (exists_congr fun cycles => and_congr_right fun _ => ?_)
  rw [pure, Except.instMonad, eq_comm]
  exact Except.ok.injEq ..|>.to_iff

/-- The sets that are returned are the node sets of the cycles kept. -/
theorem mem_loops {cycles : List (List ℕ)} {S : Finset ℕ} :
    S ∈ (((cycles.map fun c => c.map (bus T F)).insertionSort (· ≤ ·)).map List.toFinset).toFinset ↔
      ∃ c ∈ cycles, (c.map (bus T F)).toFinset = S := by
  rw [List.mem_toFinset, (((List.perm_insertionSort _ _).map List.toFinset).mem_iff), List.map_map]
  exact List.mem_map

theorem length_busList_pos (hm : m ≠ 0) : 0 < (busList T F).length :=
  List.length_pos_of_mem ((mem_busList T F).2 (.inl ⟨⟨0, Nat.pos_of_ne_zero hm⟩, rfl⟩))

/-- What is returned are cycles, one a search at most. -/
theorem findCycles_found (hm : m ≠ 0) (hloop : ∀ k, T k ≠ F k) (draws : ℕ → ℕ → ℕ) : ∃ cycles : List (List ℕ),
    findCycles T F draws = .ok ((cycles.map fun c => c.map (bus T F)).insertionSort (· ≤ ·)) ∧
      cycles.length ≤ (busList T F).length * 2 ∧ ∀ c ∈ cycles, IsCycleSet T F c := by
  have hstart : ([] : List (List ℕ)).Nodup ∧ ∀ c ∈ ([] : List (List ℕ)), IsCycleSet T F c := by simp
  obtain ⟨cycles, hrun, ⟨-, hcycles⟩, hlen⟩ := searches_ok hloop (length_busList_pos hm) draws
    (List.range ((busList T F).length * 2)) hstart
  exact ⟨cycles, (findCycles_eq hm).2 ⟨cycles, hrun, rfl⟩, by simpa using hlen, hcycles⟩

/-- Some run goes through any cycles, if there are enough searches for them. -/
theorem exists_findCycles (hm : m ≠ 0) (hloop : ∀ k, T k ≠ F k) {C : Finset (Finset ℕ)} (hC : C.Nonempty)
    (hcard : C.card ≤ (busList T F).length * 2)
    (hcycles : ∀ S ∈ C, ∃ b, ∃ p : (branchGraph T F).Walk b b, p.IsCycle ∧ p.support.toFinset = S) :
    ∃ draws loops, findCycles T F draws = .ok loops ∧ (loops.map List.toFinset).toFinset = C := by
  -- the search `iter` follows the element of that number, and one past the last follows some element
  have hmem : ∀ iter, C.toList.getD iter hC.choose ∈ C := fun iter => by
    rw [List.getD_eq_getElem?_getD]
    cases hget : C.toList[iter]? with
    | none => exact hC.choose_spec
    | some S => exact Finset.mem_toList.1 (List.mem_of_getElem? hget)
  have hsearch : ∀ iter, ∃ (draws : ℕ → ℕ) (c : List ℕ), walk T F (draws 0 % (busList T F).length) draws
      (busList T F).length 1 [] (draws 0 % (busList T F).length) = .ok (some c) ∧
      (c.map (bus T F)).toFinset = C.toList.getD iter hC.choose := fun iter => by
    obtain ⟨b, p, hp, hset⟩ := hcycles _ (hmem iter)
    obtain ⟨draws, c, hwalk, -, hc⟩ := exists_walk hloop hp
    exact ⟨draws, c, hwalk, hc.trans hset⟩
  choose draws f hwalk hf using hsearch
  obtain ⟨cycles, hrun, hkept⟩ := searches_follow hwalk ((busList T F).length * 2)
  refine ⟨draws, _, (findCycles_eq hm).2 ⟨cycles, hrun, rfl⟩, ?_⟩
  ext S
  rw [mem_loops]
  constructor
  · rintro ⟨c, hc, rfl⟩
    obtain ⟨iter, -, rfl⟩ := (hkept c).1 hc
    exact hf iter ▸ hmem iter
  · intro hS
    obtain ⟨iter, hiter, rfl⟩ := List.getElem_of_mem (Finset.mem_toList.2 hS)
    have hlt : iter < (busList T F).length * 2 := by
      rw [Finset.length_toList] at hiter
      omega
    refine ⟨f iter, (hkept _).2 ⟨iter, hlt, rfl⟩, ?_⟩
    rw [hf, List.getD_eq_getElem?_getD, List.getElem?_eq_getElem hiter, Option.getD_some]

/-- For every nonempty list of branches without self-loops: a nonempty set of node sets is what some run of
`find_cycles` returns exactly when its elements are the node sets of simple cycles, no more of them than twice the
number of buses; and every run returns nothing exactly when there is no simple cycle. -/
theorem findCycles_reports (T F : Fin m → ℕ) (hm : m ≠ 0) (hloop : ∀ k, T k ≠ F k) :
    (∀ C : Finset (Finset ℕ), C.Nonempty →
      ((∃ draws loops, findCycles T F draws = .ok loops ∧ (loops.map List.toFinset).toFinset = C) ↔
        C.card ≤ (busList T F).length * 2 ∧
          ∀ S ∈ C, ∃ b, ∃ p : (branchGraph T F).Walk b b, p.IsCycle ∧ p.support.toFinset = S)) ∧
      ((∀ draws, findCycles T F draws = .ok []) ↔ (branchGraph T F).IsAcyclic) := by
  refine ⟨fun C hC => ⟨?_, fun h => exists_findCycles hm hloop hC h.1 h.2⟩, fun hnone b p hp => ?_, fun hacyclic draws => ?_⟩
  · rintro ⟨draws, loops, hloops, rfl⟩
    obtain ⟨cycles, hrun, hlen, hcycles⟩ := findCycles_found hm hloop draws
    obtain rfl := Except.ok.inj (hrun.symm.trans hloops)
    refine ⟨(List.toFinset_card_le _).trans (by simpa using hlen), fun S hS => ?_⟩
    obtain ⟨c, hc, rfl⟩ := mem_loops.1 hS
    obtain ⟨b, p, hp, hset⟩ := (hcycles c hc).cycle
    exact ⟨b, p, hp, hset.symm⟩
  · have hone : ∀ S ∈ ({p.support.toFinset} : Finset (Finset ℕ)), ∃ b, ∃ p : (branchGraph T F).Walk b b,
        p.IsCycle ∧ p.support.toFinset = S := fun S hS => ⟨b, p, hp, (Finset.mem_singleton.1 hS).symm⟩
    have hroom : ({p.support.toFinset} : Finset (Finset ℕ)).card ≤ (busList T F).length * 2 := by
      have := length_busList_pos (T := T) (F := F) hm
      rw [Finset.card_singleton]
      omega
    obtain ⟨draws, loops, hloops, hset⟩ := exists_findCycles hm hloop (Finset.singleton_nonempty _) hroom hone
    cases (hnone draws).symm.trans hloops
    exact absurd hset (Finset.singleton_ne_empty _).symm
  · obtain ⟨cycles, hrun, -, hcycles⟩ := findCycles_found hm hloop draws
    have hnil : cycles = [] := List.eq_nil_iff_forall_not_mem.2 fun c hc => by
      obtain ⟨b, p, hp, -⟩ := (hcycles c hc).cycle
      exact hacyclic p hp
    rw [hrun, hnil]
    rfl

/-- A triangle with a tail, where every run that finds something finds the triangle. -/
theorem triangle_reported : ∃ draws loops, findCycles ![1, 2, 3, 3] ![2, 3, 1, 4] draws = .ok loops ∧
    (loops.map List.toFinset).toFinset = {{1, 2, 3}} := by
  have hadj : ∀ a b, (∃ k, (![1, 2, 3, 3] : Fin 4 → ℕ) k = a ∧ (![2, 3, 1, 4] : Fin 4 → ℕ) k = b) → a ≠ b →
      (branchGraph ![1, 2, 3, 3] ![2, 3, 1, 4]).Adj a b := fun a b h hne => by
    unfold branchGraph
    rw [SimpleGraph.fromRel_adj]
    exact ⟨hne, .inl h⟩
  have h12 := hadj 1 2 ⟨0, rfl, rfl⟩ (by decide)
  have h23 := hadj 2 3 ⟨1, rfl, rfl⟩ (by decide)
  have h31 := hadj 3 1 ⟨2, rfl, rfl⟩ (by decide)
  refine ((findCycles_reports _ _ (by decide) (by decide)).1 {{1, 2, 3}} (Finset.singleton_nonempty _)).2
    ⟨by decide, fun S hS => ⟨1, .cons h12 (.cons h23 (.cons h31 .nil)), ?_, ?_⟩⟩
  · rw [SimpleGraph.Walk.isCycle_iff_isPath_tail_and_le_length]
    simp [SimpleGraph.Walk.cons_isPath_iff]
  · rw [Finset.mem_singleton.1 hS]
    show ([1, 2, 3, 1] : List ℕ).toFinset = {1, 2, 3}
    decide

end Grip.Islanding
