/-
`find_cycles` of `graph_tools.jl`: from a random origin a walk goes to random neighbours it has not
visited until it is back at the origin, which yields the sorted list of the nodes walked, or has no
neighbour left. Nodes are numbered internally in the order of their first occurrence in T and F
(from 0 here), and the cycles found are translated back at the end.
-/
import GripAbsorption.Base.Run
import GripAbsorption.Base.Python

namespace Grip.Islanding

open Grip.Base

/-- What can go wrong in the Julia server. -/
inductive Err
  /-- an index outside an array -/
  | boundsError
  /-- `error in find_cycles. Traversed the whole graph???` -/
  | traversedWholeGraph
  deriving DecidableEq, Repr

/-! ## The network as a graph -/

section

variable {m : ℕ} (T F : Fin m → ℕ)

/-- `unique(vcat(T,F))`. -/
def busList : List ℕ := (List.ofFn T ++ List.ofFn F).eraseDups

theorem mem_busList {b : ℕ} : b ∈ busList T F ↔ (∃ i, T i = b) ∨ ∃ i, F i = b := by
  unfold busList
  rw [List.mem_eraseDups, List.mem_append, List.mem_ofFn, List.mem_ofFn]

/-- `adjacency`: the number of branches between two nodes, by their internal numbers. -/
def adjacency (i j : ℕ) : ℕ :=
  let nodes := busList T F
  (List.finRange m).countP (fun k => nodes.idxOf (F k) = i ∧ nodes.idxOf (T k) = j) +
    (List.finRange m).countP (fun k => nodes.idxOf (T k) = i ∧ nodes.idxOf (F k) = j)

/-- `findnz(adj[:,i])[1]`. -/
def neighbors (i : ℕ) : List ℕ := (List.range (busList T F).length).filter fun j => adjacency T F j i ≠ 0

theorem neighbors_lt {i j : ℕ} (h : j ∈ neighbors T F i) : j < (busList T F).length :=
  List.mem_range.1 (List.mem_of_mem_filter h)

/-! ## The walk -/

/-- The neighbours the walk may go to on its `i`-th turn: at first any, then not back to the origin at
once, then none that was visited. -/
def notVisited (origin i : ℕ) (visited near : List ℕ) : List ℕ :=
  if 2 < i then near.filter (· ∉ visited)
  else if i = 2 then near.filter (· ∉ origin :: visited)
  else near

/-- The `while` loop from turn `i` on, with `left` turns until the whole graph is traversed; the cycle
it finds, if any. -/
def walk (origin : ℕ) (draws : ℕ → ℕ) : (left i : ℕ) → (visited : List ℕ) → (id : ℕ) → Except Err (Option (List ℕ))
  | 0, _, _, _ => throw .traversedWholeGraph
  | left + 1, i, visited, id =>
    match choice (draws i) (notVisited origin i visited (neighbors T F id)) with
    | none => return none
    | some next =>
      if next = origin then return some ((origin :: visited).eraseDups.insertionSort (· ≤ ·))
      else walk origin draws left (i + 1) (if next ∈ visited then visited else visited ++ [next]) next

/-- One of the `n_iter` searches. -/
def search (draws : ℕ → ℕ → ℕ) (cycles : List (List ℕ)) (iter : ℕ) : Except Err (List (List ℕ)) := do
  let n := (busList T F).length
  let origin := draws iter 0 % n
  match ← walk T F origin (draws iter) n 1 [] origin with
  | none => return cycles
  | some cycle => return if cycle ∈ cycles then cycles else cycles ++ [cycle]

/-- `find_cycles`. `getset` asks for the type of the first branch's entry, so there has to be one. -/
def findCycles (draws : ℕ → ℕ → ℕ) : Except Err (List (List ℕ)) := do
  if m = 0 then throw .boundsError
  let nodes := busList T F
  let cycles ← (List.range (nodes.length * 2)).foldlM (search T F draws) []
  return (cycles.map fun cycle => cycle.map fun i => nodes.getD i 0).insertionSort (· ≤ ·)

/-! ## What is found -/

theorem notVisited_subset {origin i j : ℕ} {visited near : List ℕ} (h : j ∈ notVisited origin i visited near) : j ∈ near := by
  unfold notVisited at h
  split at h
  · exact List.mem_of_mem_filter h
  · split at h
    · exact List.mem_of_mem_filter h
    · exact h

/-- A cycle that the walk finds holds the origin and is made of internal numbers. -/
theorem walk_spec {origin : ℕ} {draws : ℕ → ℕ} (ho : origin < (busList T F).length) : ∀ {left i : ℕ} {visited : List ℕ}
    {id : ℕ} {cycle : List ℕ}, (∀ j ∈ visited, j < (busList T F).length) →
    walk T F origin draws left i visited id = .ok (some cycle) → origin ∈ cycle ∧ ∀ j ∈ cycle, j < (busList T F).length
  | 0, _, _, _, _, _, h => by cases h
  | left + 1, i, visited, id, cycle, hv, h => by
    rw [walk] at h
    cases hc : choice (draws i) (notVisited origin i visited (neighbors T F id)) with
    | none => rw [hc] at h; cases h
    | some next =>
      rw [hc] at h
      have hnext := neighbors_lt T F (notVisited_subset (choice_mem hc))
      simp only at h
      split at h
      · cases h
        simp only [List.mem_insertionSort, List.mem_eraseDups, List.mem_cons]
        refine ⟨.inl trivial, fun j hj => ?_⟩
        rcases hj with rfl | hj
        · exact ho
        · exact hv j hj
      · refine walk_spec ho (fun j hj => ?_) h
        split at hj
        · exact hv j hj
        · rcases List.mem_append.1 hj with hj | hj
          · exact hv j hj
          · rw [List.mem_singleton.1 hj]; exact hnext

/-- A search adds the cycle that its walk finds, if it is new. -/
theorem search_ok {draws : ℕ → ℕ → ℕ} {cycles cycles' : List (List ℕ)} {iter : ℕ} :
    search T F draws cycles iter = .ok cycles' ↔
      ∃ found, walk T F (draws iter 0 % (busList T F).length) (draws iter) (busList T F).length 1 []
          (draws iter 0 % (busList T F).length) = .ok found ∧
        cycles' = cycles ++ found.toList.filter (· ∉ cycles) := by
  refine bind_ok.trans (exists_congr fun found => and_congr_right fun _ => ?_)
  cases found with
  | none => simp [pure, Except.pure, eq_comm]
  | some cycle =>
    by_cases hmem : cycle ∈ cycles
    · simp [pure, Except.pure, hmem, eq_comm]
    · simp [pure, Except.pure, hmem, eq_comm]

theorem search_spec {draws : ℕ → ℕ → ℕ} {cycles cycles' : List (List ℕ)} {iter : ℕ} (hn : 0 < (busList T F).length)
    (h : search T F draws cycles iter = .ok cycles')
    (hc : ∀ c ∈ cycles, c ≠ [] ∧ ∀ j ∈ c, j < (busList T F).length) :
    ∀ c ∈ cycles', c ≠ [] ∧ ∀ j ∈ c, j < (busList T F).length := by
  obtain ⟨found, hf, rfl⟩ := (search_ok T F).1 h
  intro c hmem
  rcases List.mem_append.1 hmem with hmem | hmem
  · exact hc c hmem
  · obtain rfl := Option.mem_toList.1 (List.mem_of_mem_filter hmem)
    obtain ⟨ho, hlt⟩ := walk_spec T F (Nat.mod_lt _ hn) (by simp) hf
    exact ⟨List.ne_nil_of_mem ho, hlt⟩

/-- Every reported cycle is a nonempty list of buses of the network. -/
theorem findCycles_spec {draws : ℕ → ℕ → ℕ} {loops : List (List ℕ)} (h : findCycles T F draws = .ok loops) :
    ∀ L ∈ loops, L ≠ [] ∧ ∀ b ∈ L, b ∈ busList T F := by
  unfold findCycles at h
  split at h
  · cases h
  · rename_i hm
    obtain ⟨cycles, hc, h⟩ := bind_ok.1 h
    cases h
    have hn : 0 < (busList T F).length :=
      List.length_pos_of_mem ((mem_busList T F).2 (.inl ⟨⟨0, Nat.pos_of_ne_zero hm⟩, rfl⟩))
    have hall := foldlM_invariant (P := fun cycles => ∀ c ∈ cycles, c ≠ [] ∧ ∀ j ∈ c, j < (busList T F).length)
      (fun _ _ _ _ hc hs => search_spec T F hn hs hc) (by simp) hc
    intro L hL
    obtain ⟨c, hmem, rfl⟩ := List.mem_map.1 ((List.mem_insertionSort _).1 hL)
    obtain ⟨hne, hlt⟩ := hall c hmem
    refine ⟨fun hnil => hne (List.map_eq_nil_iff.1 hnil), fun b hb => ?_⟩
    obtain ⟨j, hj, rfl⟩ := List.mem_map.1 hb
    rw [List.getD_eq_getElem?_getD, List.getElem?_eq_getElem (hlt j hj)]
    exact List.getElem_mem _

end

end Grip.Islanding
