/-
`process_islands`: the buses of the branch results are grouped into the islands that the closed branches
connect, inverters outside the swing bus's island are marked, and the islands without the swing bus and
without a fault at their first bus are returned. Python's sets are iterated in the order of a shuffle
and popped by draws; `while` loops have fuel, and `running` says that it did not suffice.
-/
import GripAbsorption.Base.Search
import GripAbsorption.Base.Table
import GripAbsorption.Base.Text

namespace Grip.Islanding

open Grip.Base

/-- What can go wrong while islands are processed. -/
inductive ProcessErr
  | keyError
  | indexError
  /-- no match of a regular expression -/
  | attributeError
  /-- the loop has not ended yet -/
  | running
  deriving DecidableEq, Repr

/-- A row of the branch results, with the numbers of its buses: the status before the fault, after it
and in the answer. -/
structure ResultRow where
  id : Text
  t : ℕ
  f : ℕ
  st00 : Bool
  st0 : Bool
  st1 : Bool

/-! ## The net -/

/-- `set(list(results.t)+list(results.f))`. -/
def supernodes (results : List ResultRow) : List ℕ := (results.map (·.t) ++ results.map (·.f)).eraseDups

/-- The end points of the closed branches. -/
def links (results : List ResultRow) : List (ℕ × ℕ) := (results.filter (·.st1)).map fun r => (r.t, r.f)

/-- The links with an end at `n`, less that end. -/
def otherEnds (links : List (ℕ × ℕ)) (n : ℕ) : List (List ℕ) :=
  ((links.filter fun l => l.1 = n ∨ l.2 = n).map fun l => [l.1, l.2]).map fun l => l.filter (· ≠ n)

/-- `set([l[0] for l in net[n]])`: a link from `n` to itself has no other end. -/
def linkedTo (links : List (ℕ × ℕ)) (n : ℕ) : Except ProcessErr (List ℕ) := do
  let ends ← (otherEnds links n).mapM fun l => orRaise .indexError l.head?
  return ends.eraseDups

/-- `net`, with the supernodes in the order their set is iterated. -/
def buildNet (links : List (ℕ × ℕ)) (supernodes : List ℕ) : Except ProcessErr (Dict ℕ (List ℕ)) := do
  let rows ← supernodes.mapM fun n => do return (n, ← linkedTo links n)
  return Table.ofList Prod.fst rows

/-! ## Components -/

/-- `graph[node]`. -/
def adjacent (graph : Dict ℕ (List ℕ)) (node : ℕ) : Except ProcessErr (List ℕ) := orRaise .keyError (graph.get? node)

/-- `get_connected_group`: the group in the order the nodes were popped, and the nodes seen. -/
def getConnectedGroup (graph : Dict ℕ (List ℕ)) (fuel : ℕ) (draws : ℕ → ℕ) (node : ℕ) (alreadySeen : List ℕ) :
    Except ProcessErr (List ℕ × List ℕ) := do
  let s ← (Search.start node alreadySeen).run (adjacent graph) .running fuel draws
  return (s.result, s.seen)

/-- One turn of the loop of `get_components`. -/
def visitNode (graph : Dict ℕ (List ℕ)) (fuel : ℕ) (draws : ℕ → ℕ → ℕ) (acc : List ℕ × List (List ℕ)) (node : ℕ) :
    Except ProcessErr (List ℕ × List (List ℕ)) :=
  let (alreadySeen, result) := acc
  if node ∈ alreadySeen then return (alreadySeen, result)
  else do
    let (connectedGroup, alreadySeen) ← getConnectedGroup graph fuel (draws node) node alreadySeen
    return (alreadySeen, result ++ [connectedGroup])

/-- `get_components`. -/
def getComponents (graph : Dict ℕ (List ℕ)) (fuel : ℕ) (draws : ℕ → ℕ → ℕ) : Except ProcessErr (List (List ℕ)) := do
  let (_, result) ← graph.keys.foldlM (visitNode graph fuel draws) ([], [])
  return result

/-- `new_islands`. -/
def newIslands (order : ℕ → ℕ) (fuel : ℕ) (draws : ℕ → ℕ → ℕ) (results : List ResultRow) :
    Except ProcessErr (List (List ℕ)) := do
  let net ← buildNet (links results) (shuffle order (supernodes results))
  getComponents net fuel draws

/-! ## The search of the net -/

/-- The branches join `a` and `b` directly. -/
def Linked (results : List ResultRow) (a b : ℕ) : Prop :=
  ∃ r ∈ results, r.st1 = true ∧ (r.t = a ∧ r.f = b ∨ r.t = b ∧ r.f = a)

theorem Linked.symm {results : List ResultRow} {a b : ℕ} (h : Linked results a b) : Linked results b a := by
  obtain ⟨r, hr, hst, h⟩ := h
  exact ⟨r, hr, hst, h.symm⟩

instance (results : List ResultRow) : Std.Symm (Linked results) := ⟨fun _ _ => Linked.symm⟩

theorem mem_supernodes {results : List ResultRow} {n : ℕ} : n ∈ supernodes results ↔ ∃ r ∈ results, r.t = n ∨ r.f = n := by
  unfold supernodes
  rw [List.mem_eraseDups, List.mem_append, List.mem_map, List.mem_map]
  constructor
  · rintro (⟨r, hr, h⟩ | ⟨r, hr, h⟩)
    exacts [⟨r, hr, .inl h⟩, ⟨r, hr, .inr h⟩]
  · rintro ⟨r, hr, h | h⟩
    exacts [.inl ⟨r, hr, h⟩, .inr ⟨r, hr, h⟩]

theorem mem_links {results : List ResultRow} {l : ℕ × ℕ} :
    l ∈ links results ↔ ∃ r ∈ results, r.st1 = true ∧ (r.t, r.f) = l := by
  simp [links, and_assoc]

section

variable {results : List ResultRow} {n : ℕ}

/-- No closed branch joins a bus to itself. -/
def NoSelfLoops (results : List ResultRow) : Prop := ∀ r ∈ results, r.st1 = true → r.t ≠ r.f

/-- Every link at `n` has one other end. -/
theorem otherEnds_eq {links : List (ℕ × ℕ)} (h : ∀ l ∈ links, l.1 ≠ l.2) :
    otherEnds links n = (links.filter fun l => l.1 = n ∨ l.2 = n).map fun l => [if l.1 = n then l.2 else l.1] := by
  unfold otherEnds
  rw [List.map_map]
  refine List.map_congr_left fun l hl => ?_
  obtain ⟨hmem, hn⟩ := List.mem_filter.1 hl
  have hne := h l hmem
  rcases of_decide_eq_true hn with rfl | rfl
  · simp [hne.symm]
  · simp [hne]

theorem linkedTo_spec (h : NoSelfLoops results) (n : ℕ) :
    ∃ near, linkedTo (links results) n = .ok near ∧ ∀ m, m ∈ near ↔ Linked results n m := by
  have hne : ∀ l ∈ links results, l.1 ≠ l.2 := fun l hl => by
    obtain ⟨r, hr, hst, rfl⟩ := mem_links.1 hl
    exact h r hr hst
  unfold linkedTo
  rw [otherEnds_eq hne, mapM_eq_ok (g := fun l => l.headD 0) fun l hl => ?_]
  · refine ⟨_, rfl, fun m => ?_⟩
    rw [List.mem_eraseDups, List.map_map, List.mem_map]
    constructor
    · rintro ⟨l, hl, rfl⟩
      obtain ⟨hmem, hn⟩ := List.mem_filter.1 hl
      obtain ⟨r, hr, hst, rfl⟩ := mem_links.1 hmem
      refine ⟨r, hr, hst, ?_⟩
      -- without self-loops a link has `n` at one end only
      rcases of_decide_eq_true hn with hn | hn
      · exact .inl ⟨hn, (if_pos hn).symm⟩
      · have hrn : r.t ≠ n := fun e => h r hr hst (e.trans hn.symm)
        exact .inr ⟨(if_neg hrn).symm, hn⟩
    · rintro ⟨r, hr, hst, ⟨rfl, rfl⟩ | ⟨rfl, rfl⟩⟩
      · exact ⟨(r.t, r.f), List.mem_filter.2 ⟨mem_links.2 ⟨r, hr, hst, rfl⟩, by simp⟩, by simp⟩
      · exact ⟨(r.t, r.f), List.mem_filter.2 ⟨mem_links.2 ⟨r, hr, hst, rfl⟩, by simp⟩, by simp [h r hr hst]⟩
  · obtain ⟨l, -, rfl⟩ := List.mem_map.1 hl
    rfl

/-- The net lists for each bus the buses it is linked to. -/
theorem buildNet_spec (h : NoSelfLoops results) {nodes : List ℕ} (hnodes : nodes.Nodup) : ∃ net, ∃ next : ℕ → List ℕ,
    buildNet (links results) nodes = .ok net ∧ net.keys = nodes ∧ (∀ n ∈ nodes, net.get? n = some (next n)) ∧
      ∀ n m, m ∈ next n ↔ Linked results n m := by
  choose next hnext hmem using linkedTo_spec h
  have hfst : (nodes.map fun n => (n, next n)).map Prod.fst = nodes := by
    rw [List.map_map]
    exact List.map_id nodes
  have hrows : ((nodes.map fun n => (n, next n)).map Prod.fst).Nodup := hfst.symm ▸ hnodes
  refine ⟨Table.ofList Prod.fst (nodes.map fun n => (n, next n)), next, ?_, ?_, fun n hn => ?_, hmem⟩
  · unfold buildNet
    rw [mapM_eq_ok fun n _ => by rw [hnext n]; rfl]
    rfl
  · unfold Table.keys
    rw [Table.rows_ofList hrows, hfst]
  · rw [Dict.get?_eq_some, Table.rows_ofList hrows]
    exact List.mem_map_of_mem hn

theorem getComponents_eq (graph : Dict ℕ (List ℕ)) (fuel : ℕ) (draws : ℕ → ℕ → ℕ) :
    getComponents graph fuel draws = components (adjacent graph) .running fuel draws graph.keys := by
  have hstep : visitNode graph fuel draws = visitComponent (adjacent graph) .running fuel draws := by
    funext acc node
    unfold visitNode visitComponent getConnectedGroup
    by_cases h : node ∈ acc.1
    · rw [if_pos h]
      exact if_pos h
    · rw [if_neg h]
      refine (if_neg h).trans ?_
      cases (Search.start node acc.1).run (adjacent graph) .running fuel (draws node) <;> rfl
  unfold getComponents components
  rw [hstep]
  rfl

/-- The groups of the search of a net, as far as later steps need them. -/
theorem newIslands_spec (h : NoSelfLoops results) (order : ℕ → ℕ) {fuel : ℕ} (hfuel : (supernodes results).length ≤ fuel)
    (draws : ℕ → ℕ → ℕ) : ∃ groups, newIslands order fuel draws results = .ok groups ∧ groups.flatten.Nodup ∧
      (∀ n, n ∈ groups.flatten ↔ n ∈ supernodes results) ∧
      (∀ a ∈ supernodes results, ∀ b ∈ supernodes results,
        (∃ c ∈ groups, a ∈ c ∧ b ∈ c) ↔ Relation.ReflTransGen (Linked results) a b) ∧
      ∀ c ∈ groups, ∃ r ∈ supernodes results, ∀ n, n ∈ c ↔ Relation.ReflTransGen (Linked results) r n := by
  have hperm := shuffle_perm order (supernodes results)
  obtain ⟨net, next, hnet, hkeys, hget, hmem⟩ := buildNet_spec h (hperm.nodup_iff.2 (nodup_eraseDups _))
  have hreach : Reaches next = Relation.ReflTransGen (Linked results) := by
    unfold Reaches
    exact congrArg _ (funext fun a => funext fun b => propext (hmem a b))
  have hclosed : ∀ a ∈ shuffle order (supernodes results), ∀ b ∈ next a, b ∈ shuffle order (supernodes results) := by
    intro a _ b hb
    obtain ⟨r, hr, -, h⟩ := (hmem a b).1 hb
    refine mem_shuffle.2 (mem_supernodes.2 ⟨r, hr, ?_⟩)
    rcases h with ⟨-, hb⟩ | ⟨hb, -⟩
    exacts [.inr hb, .inl hb]
  have hadj : ∀ a ∈ shuffle order (supernodes results), adjacent net a = .ok (next a) := fun a ha => by
    rw [adjacent, hget a ha]
    rfl
  have hsymm : ∀ a b, b ∈ next a → a ∈ next b := fun a b hb => (hmem b a).2 ((hmem a b).1 hb).symm
  obtain ⟨groups, hrun, hgroups⟩ := components_spec .running hsymm hclosed hadj
    (hperm.length_eq.trans_le hfuel) draws
  refine ⟨groups, ?_, by simpa only [mem_shuffle, hreach] using hgroups⟩
  unfold newIslands
  rw [hnet]
  change getComponents net fuel draws = _
  rw [getComponents_eq, hkeys]
  exact hrun

/-- The islands are exactly the components: the search ends, every end point of a branch is in one list
and once, and two are in one list if and only if closed branches join them. -/
theorem newIslands_components (results : List ResultRow) (h : ∀ r ∈ results, r.t ≠ r.f) (order : ℕ → ℕ)
    (draws : ℕ → ℕ → ℕ) (fuel : ℕ) (hfuel : (supernodes results).length ≤ fuel) :
    ∃ groups, newIslands order fuel draws results = .ok groups ∧
      (∀ n, groups.flatten.count n = if ∃ r ∈ results, r.t = n ∨ r.f = n then 1 else 0) ∧
      ∀ a b, a ∈ groups.flatten → b ∈ groups.flatten →
        ((∃ c ∈ groups, a ∈ c ∧ b ∈ c) ↔ Relation.ReflTransGen (Linked results) a b) := by
  obtain ⟨groups, hrun, hnodup, hmem, hsame, -⟩ := newIslands_spec (fun r hr _ => h r hr) order hfuel draws
  refine ⟨groups, hrun, fun n => ?_, fun a b ha hb => hsame a ((hmem a).1 ha) b ((hmem b).1 hb)⟩
  split
  · rename_i hn
    exact List.count_eq_one_of_mem hnodup ((hmem n).2 (mem_supernodes.2 hn))
  · rename_i hn
    exact List.count_eq_zero_of_not_mem fun hc => hn (mem_supernodes.1 ((hmem n).1 hc))

end

/-- The triangle 1–2–3 with an open branch, a parallel one and a fourth bus behind an open branch. -/
theorem newIslands_triangle : ∃ groups,
    newIslands (fun _ => 1) 4 (fun _ _ => 1) [⟨[], 2, 1, true, true, true⟩, ⟨[], 3, 2, true, true, true⟩,
      ⟨[], 1, 3, true, true, false⟩, ⟨[], 1, 2, false, false, true⟩, ⟨[], 4, 3, true, true, false⟩] = .ok groups ∧
      (∀ n, groups.flatten.count n = if n ∈ Finset.Icc 1 4 then 1 else 0) := by
  obtain ⟨groups, hrun, hcount, -⟩ := newIslands_components [⟨[], 2, 1, true, true, true⟩, ⟨[], 3, 2, true, true, true⟩,
      ⟨[], 1, 3, true, true, false⟩, ⟨[], 1, 2, false, false, true⟩, ⟨[], 4, 3, true, true, false⟩] (by decide)
    (fun _ => 1) (fun _ _ => 1) 4 (by decide)
  refine ⟨groups, hrun, fun n => ?_⟩
  rw [hcount]
  refine if_congr ?_ rfl rfl
  simp [Finset.mem_Icc]
  omega

end Grip.Islanding
