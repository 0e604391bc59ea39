/-
What `find_cycles` finds. The nodes a walk has visited, with its origin, form a path of the graph, so
there are never more of them than nodes, and the walk is over before it has taken more turns than
that. It can return to the origin from its third turn on only, and then the path is closed to a simple
cycle. Cycles are compared as sorted lists of internal numbers, so none is kept twice.
-/
import GripAbsorption.Islanding.Graph

namespace Grip.Islanding

open Grip.Base

variable {m : ℕ} (T F : Fin m → ℕ)

/-! ## The graph of the branches -/

/-- The undirected graph of the branches, on bus numbers. -/
def branchGraph : SimpleGraph ℕ := SimpleGraph.fromRel fun a b => ∃ k, T k = a ∧ F k = b

/-- `nodes[i]`: the bus with an internal number. -/
def bus (i : ℕ) : ℕ := (busList T F).getD i 0

theorem nodup_busList : (busList T F).Nodup := nodup_eraseDups _

theorem bus_eq {i : ℕ} (h : i < (busList T F).length) : bus T F i = (busList T F).get ⟨i, h⟩ := by
  unfold bus
  rw [List.getD_eq_getElem?_getD, List.getElem?_eq_getElem h]
  rfl

theorem bus_inj {i j : ℕ} (hi : i < (busList T F).length) (hj : j < (busList T F).length) (h : bus T F i = bus T F j) :
    i = j := by
  rw [bus_eq T F hi, bus_eq T F hj] at h
  exact congrArg Fin.val ((nodup_busList T F).injective_get h)

theorem bus_idxOf {b : ℕ} (h : b ∈ busList T F) : bus T F ((busList T F).idxOf b) = b := by
  rw [bus_eq T F (List.idxOf_lt_length_of_mem h)]
  exact List.getElem_idxOf _

variable {T F}

/-- Internal neighbours are joined by a branch. -/
theorem adj_of_mem_neighbors (hloop : ∀ k, T k ≠ F k) {i j : ℕ} (h : j ∈ neighbors T F i) :
    (branchGraph T F).Adj (bus T F j) (bus T F i) := by
  have hT : ∀ k, bus T F ((busList T F).idxOf (T k)) = T k := fun k => bus_idxOf T F ((mem_busList T F).2 (.inl ⟨k, rfl⟩))
  have hF : ∀ k, bus T F ((busList T F).idxOf (F k)) = F k := fun k => bus_idxOf T F ((mem_busList T F).2 (.inr ⟨k, rfl⟩))
  have hadj : adjacency T F j i ≠ 0 := of_decide_eq_true (List.mem_filter.1 h).2
  unfold branchGraph
  rw [SimpleGraph.fromRel_adj]
  -- a nonzero entry counts some branch between the two
  have hbranch : ∃ k, bus T F j = F k ∧ bus T F i = T k ∨ bus T F j = T k ∧ bus T F i = F k := by
    obtain hpos | hpos : 0 < _ ∨ 0 < _ := Nat.add_pos_iff_pos_or_pos.1 (Nat.pos_of_ne_zero hadj)
    · obtain ⟨k, -, hk⟩ := List.countP_pos_iff.1 hpos
      obtain ⟨hj, hi⟩ := of_decide_eq_true hk
      exact ⟨k, .inl ⟨by rw [← hj, hF], by rw [← hi, hT]⟩⟩
    · obtain ⟨k, -, hk⟩ := List.countP_pos_iff.1 hpos
      obtain ⟨hj, hi⟩ := of_decide_eq_true hk
      exact ⟨k, .inr ⟨by rw [← hj, hT], by rw [← hi, hF]⟩⟩
  obtain ⟨k, ⟨hj, hi⟩ | ⟨hj, hi⟩⟩ := hbranch
  · exact ⟨by rw [hj, hi]; exact (hloop k).symm, .inr ⟨k, hi.symm, hj.symm⟩⟩
  · exact ⟨by rw [hj, hi]; exact hloop k, .inl ⟨k, hj.symm, hi.symm⟩⟩

/-! ## The walk as a path -/

/-- The nodes visited lie on a path from the node the walk is at back to its origin. -/
structure Visited (T F : Fin m → ℕ) (origin id : ℕ) (visited : List ℕ) : Prop where
  lt : ∀ j ∈ origin :: visited, j < (busList T F).length
  nodup : (origin :: visited).Nodup
  path : ∃ p : (branchGraph T F).Walk (bus T F id) (bus T F origin), p.support = (visited.reverse ++ [origin]).map (bus T F)

/-- The list holds the internal numbers of the nodes of a simple cycle. -/
structure IsCycleSet (T F : Fin m → ℕ) (cycle : List ℕ) : Prop where
  sorted : cycle.Pairwise (· ≤ ·)
  nodup : cycle.Nodup
  lt : ∀ j ∈ cycle, j < (busList T F).length
  cycle : ∃ b, ∃ p : (branchGraph T F).Walk b b, p.IsCycle ∧ (cycle.map (bus T F)).toFinset = p.support.toFinset

section

variable {origin id next : ℕ} {visited : List ℕ}

theorem visited_start (h : origin < (busList T F).length) : Visited T F origin origin [] :=
  ⟨by simpa using h, List.nodup_singleton _, .nil, by simp⟩

namespace Visited

/-- There is room for every node visited and the origin. -/
theorem length_lt (h : Visited T F origin id visited) : visited.length < (busList T F).length := by
  have hsub : origin :: visited ⊆ List.range (busList T F).length := fun j hj => List.mem_range.2 (h.lt j hj)
  have hle := (h.nodup.subperm hsub).length_le
  rwa [List.length_range] at hle

theorem nodup_support (h : Visited T F origin id visited) : ((visited.reverse ++ [origin]).map (bus T F)).Nodup := by
  have hperm : (visited.reverse ++ [origin]).Perm (origin :: visited) :=
    List.perm_append_comm.trans ((List.reverse_perm visited).cons origin)
  refine (hperm.nodup_iff.2 h.nodup).map_on fun i hi j hj hij => ?_
  exact bus_inj T F (h.lt i (hperm.mem_iff.1 hi)) (h.lt j (hperm.mem_iff.1 hj)) hij

/-- One step to a node not visited before. -/
theorem step (h : Visited T F origin id visited) (hloop : ∀ k, T k ≠ F k) (hnext : next ∈ neighbors T F id)
    (hnew : next ∉ origin :: visited) : Visited T F origin next (visited ++ [next]) := by
  have hperm : (origin :: (visited ++ [next])).Perm (next :: origin :: visited) :=
    List.perm_append_singleton next (origin :: visited)
  obtain ⟨p, hp⟩ := h.path
  refine ⟨fun j hj => ?_, hperm.nodup_iff.2 (List.nodup_cons.2 ⟨hnew, h.nodup⟩),
    .cons (adj_of_mem_neighbors hloop hnext) p, ?_⟩
  · rcases List.mem_cons.1 (hperm.mem_iff.1 hj) with rfl | hj
    exacts [neighbors_lt T F hnext, h.lt j hj]
  · rw [SimpleGraph.Walk.support_cons, hp]
    simp

/-- Without a node visited the walk is at its origin. -/
theorem id_of_nil (h : Visited T F origin id []) : bus T F id = bus T F origin := by
  obtain ⟨p, hp⟩ := h.path
  have hcons := p.cons_tail_support.trans hp
  exact (List.cons.inj hcons).1

/-- Back at the origin after two nodes or more, the path is closed. -/
theorem close (h : Visited T F origin id visited) (hloop : ∀ k, T k ≠ F k) (hback : origin ∈ neighbors T F id)
    (htwo : 2 ≤ visited.length) : IsCycleSet T F ((origin :: visited).eraseDups.insertionSort (· ≤ ·)) := by
  have hmem : ∀ j, j ∈ (origin :: visited).eraseDups.insertionSort (· ≤ ·) ↔ j ∈ origin :: visited := fun j => by
    rw [List.mem_insertionSort, List.mem_eraseDups]
  obtain ⟨p, hp⟩ := h.path
  have hpath : p.IsPath := .mk' (hp ▸ h.nodup_support)
  have hlen : p.length = visited.length := by
    have hsupp := congrArg List.length hp
    rw [p.length_support] at hsupp
    simpa using hsupp
  have hcycle : (SimpleGraph.Walk.cons (adj_of_mem_neighbors hloop hback) p).IsCycle := by
    rw [SimpleGraph.Walk.isCycle_iff_isPath_tail_and_le_length, SimpleGraph.Walk.length_cons]
    exact ⟨by simpa using hpath, by omega⟩
  refine ⟨List.pairwise_insertionSort _ _, (List.perm_insertionSort _ _).nodup_iff.2 (nodup_eraseDups _),
    fun j hj => h.lt j ((hmem j).1 hj), _, _, hcycle, ?_⟩
  ext b
  simp only [List.mem_toFinset, List.mem_map, hmem, SimpleGraph.Walk.support_cons, hp, List.mem_cons, List.mem_append,
    List.mem_reverse, List.not_mem_nil, or_false]
  constructor
  · rintro ⟨j, hj, rfl⟩
    exact .inr ⟨j, hj.symm, rfl⟩
  · rintro (rfl | ⟨j, hj, rfl⟩)
    exacts [⟨origin, .inl rfl, rfl⟩, ⟨j, hj.symm, rfl⟩]

end Visited

/-- What the walk may go to: from the third turn on the origin or a new node, before that a new node only. -/
theorem notVisited_spec (h : Visited T F origin id visited) (hloop : ∀ k, T k ≠ F k)
    (hnext : next ∈ notVisited origin (visited.length + 1) visited (neighbors T F id)) :
    next ∉ visited ∧ (next = origin → 2 ≤ visited.length) := by
  unfold notVisited at hnext
  split at hnext
  · rename_i hi
    exact ⟨of_decide_eq_true (List.mem_filter.1 hnext).2, fun _ => by omega⟩
  · split at hnext
    · have hnot : next ∉ origin :: visited := of_decide_eq_true (List.mem_filter.1 hnext).2
      exact ⟨fun hv => hnot (List.mem_cons_of_mem _ hv), fun he => absurd (he ▸ List.mem_cons_self ..) hnot⟩
    · -- the first turn leaves the origin
      have hnil : visited = [] := List.length_eq_zero_iff.1 (by omega)
      subst hnil
      refine ⟨List.not_mem_nil, fun he => ?_⟩
      have hne := (adj_of_mem_neighbors hloop hnext).ne
      rw [he, h.id_of_nil] at hne
      exact absurd rfl hne

end

/-! ## The searches -/

/-- The walk ends in time, with a cycle if it returns to its origin. -/
theorem walk_found (hloop : ∀ k, T k ≠ F k) {origin : ℕ} (draws : ℕ → ℕ) : ∀ (left : ℕ) {id : ℕ} {visited : List ℕ},
    Visited T F origin id visited → left + visited.length = (busList T F).length →
    ∃ found, walk T F origin draws left (visited.length + 1) visited id = .ok found ∧
      ∀ cycle, found = some cycle → IsCycleSet T F cycle
  | 0, _, _, h, hleft => absurd h.length_lt (by omega)
  | left + 1, id, visited, h, hleft => by
    rw [walk]
    cases hc : choice (draws (visited.length + 1)) (notVisited origin (visited.length + 1) visited (neighbors T F id)) with
    | none => exact ⟨none, rfl, fun _ h => by cases h⟩
    | some next =>
      have hmem := choice_mem hc
      obtain ⟨hnew, hback⟩ := notVisited_spec h hloop hmem
      have hnext := notVisited_subset hmem
      simp only
      by_cases he : next = origin
      · subst he
        rw [if_pos rfl]
        exact ⟨_, rfl, fun cycle hcycle => by cases hcycle; exact h.close hloop hnext (hback rfl)⟩
      · rw [if_neg he, if_neg hnew]
        have hstep := h.step hloop hnext (by simp [he, hnew])
        have hlen : (visited ++ [next]).length = visited.length + 1 := by simp
        have ih := walk_found hloop draws left hstep (by omega)
        rwa [hlen] at ih

/-- One search keeps distinct cycles. -/
theorem search_found (hloop : ∀ k, T k ≠ F k) (hn : 0 < (busList T F).length) (draws : ℕ → ℕ → ℕ) {cycles : List (List ℕ)}
    (hc : cycles.Nodup ∧ ∀ c ∈ cycles, IsCycleSet T F c) (iter : ℕ) :
    Ensures (fun _ => False) (fun cycles => cycles.Nodup ∧ ∀ c ∈ cycles, IsCycleSet T F c) (search T F draws cycles iter) := by
  obtain ⟨found, hfound, hcycle⟩ := walk_found hloop (draws iter) (busList T F).length
    (visited_start (T := T) (F := F) (Nat.mod_lt (draws iter 0) hn)) (by simp)
  rw [(search_ok T F).2 ⟨found, hfound, rfl⟩]
  have hnew : ∀ c ∈ found.toList.filter (· ∉ cycles), found = some c ∧ c ∉ cycles := fun c hmem => by
    obtain ⟨hf, hnot⟩ := List.mem_filter.1 hmem
    exact ⟨Option.mem_toList.1 hf, of_decide_eq_true hnot⟩
  refine ⟨List.nodup_append.2 ⟨hc.1, (Option.toList_nodup found).filter _, ?_⟩, fun c hmem => ?_⟩
  · rintro c hmem _ hmem' rfl
    exact (hnew c hmem').2 hmem
  · rcases List.mem_append.1 hmem with hmem | hmem
    exacts [hc.2 c hmem, hcycle c (hnew c hmem).1]

/-- Two cycles with the same buses are the same list. -/
theorem IsCycleSet.eq_of_toFinset {c c' : List ℕ} (h : IsCycleSet T F c) (h' : IsCycleSet T F c')
    (hset : (c.map (bus T F)).toFinset = (c'.map (bus T F)).toFinset) : c = c' := by
  have hsub : ∀ {c c' : List ℕ}, IsCycleSet T F c → IsCycleSet T F c' →
      (c.map (bus T F)).toFinset = (c'.map (bus T F)).toFinset → ∀ j ∈ c, j ∈ c' := by
    intro c c' h h' hset j hj
    have hb : bus T F j ∈ (c'.map (bus T F)).toFinset := hset ▸ List.mem_toFinset.2 (List.mem_map_of_mem hj)
    obtain ⟨i, hi, hij⟩ := List.mem_map.1 (List.mem_toFinset.1 hb)
    exact bus_inj T F (h'.lt i hi) (h.lt j hj) hij ▸ hi
  have hperm : c.Perm c' := (List.perm_ext_iff_of_nodup h.nodup h'.nodup).2 fun j =>
    ⟨hsub h h' hset j, hsub h' h hset.symm j⟩
  exact hperm.eq_of_pairwise (fun _ _ _ _ => le_antisymm) h.sorted h'.sorted

/-- For every nonempty list of branches without self-loops and all choices, `find_cycles` returns, every list it
returns is the node set of a simple cycle, and none is returned twice. -/
theorem findCycles_sound (T F : Fin m → ℕ) (hm : m ≠ 0) (hloop : ∀ k, T k ≠ F k) (draws : ℕ → ℕ → ℕ) :
    ∃ loops, findCycles T F draws = .ok loops ∧
      (∀ L ∈ loops, L.Nodup ∧ ∃ b, ∃ p : (branchGraph T F).Walk b b, p.IsCycle ∧ 3 ≤ p.length ∧ L.toFinset = p.support.toFinset) ∧
      (loops.map List.toFinset).Nodup := by
  have hn : 0 < (busList T F).length :=
    List.length_pos_of_mem ((mem_busList T F).2 (.inl ⟨⟨0, Nat.pos_of_ne_zero hm⟩, rfl⟩))
  have hall : Ensures (fun _ => False) (fun cycles => cycles.Nodup ∧ ∀ c ∈ cycles, IsCycleSet T F c)
      ((List.range ((busList T F).length * 2)).foldlM (search T F draws) []) :=
    ensures_foldlM (fun iter _ cycles hc => search_found hloop hn draws hc iter) (by simp)
  cases hrun : (List.range ((busList T F).length * 2)).foldlM (search T F draws) [] with
  | error e => exact (hall.of_error hrun).elim
  | ok cycles =>
    obtain ⟨hnodup, hcycles⟩ := hall.of_ok hrun
    have hloops : findCycles T F draws = .ok ((cycles.map fun c => c.map (bus T F)).insertionSort (· ≤ ·)) := by
      unfold findCycles
      rw [if_neg hm]
      exact bind_ok.2 ⟨cycles, hrun, rfl⟩
    refine ⟨_, hloops, fun L hL => ?_, ?_⟩
    · obtain ⟨c, hc, rfl⟩ := List.mem_map.1 ((List.mem_insertionSort _).1 hL)
      obtain ⟨b, p, hp, hset⟩ := (hcycles c hc).cycle
      refine ⟨(hcycles c hc).nodup.map_on fun i hi j hj => ?_, b, p, hp, hp.three_le_length, hset⟩
      exact bus_inj T F ((hcycles c hc).lt i hi) ((hcycles c hc).lt j hj)
    · rw [((List.perm_insertionSort _ _).map List.toFinset).nodup_iff, List.map_map]
      exact hnodup.map_on fun c hc c' hc' h => (hcycles c hc).eq_of_toFinset (hcycles c' hc') h

/-- A triangle with two parallel branches and a tail. -/
theorem triangle_cycles_sound : ∃ loops, findCycles ![1, 2, 3, 3, 3] ![2, 3, 1, 1, 4] (fun iter i => iter + i) = .ok loops ∧
    (∀ L ∈ loops, L.Nodup ∧ ∃ b, ∃ p : (branchGraph ![1, 2, 3, 3, 3] ![2, 3, 1, 1, 4]).Walk b b,
      p.IsCycle ∧ 3 ≤ p.length ∧ L.toFinset = p.support.toFinset) ∧ (loops.map List.toFinset).Nodup :=
  findCycles_sound _ _ (by decide) (by decide) _

end Grip.Islanding
