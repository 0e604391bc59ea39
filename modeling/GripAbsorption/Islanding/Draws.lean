/-
`randi` of `graph_tools.jl` in the 64-bit integers it is computed in, and `find_cycles` with the
integers that `rand(Int)` returns. `abs` of the least integer is that integer again, so its remainder
is not positive: `randi(n)` leaves 1..n for this one draw, unless `n` divides 2^63. Every index error of
`find_cycles` on a network with branches comes from such a draw, and without one the indices are those
that `findCycles` draws with natural numbers.
-/
import GripAbsorption.Islanding.Graph

namespace Grip.Islanding

open Grip.Base

/-- `randi(n)` when `rand(Int)` returns `r`. -/
def randi (r n : Int64) : Int64 := r.abs % n + 1

/-! ## The range of randi -/

theorem natAbs_toInt_abs (r : Int64) : r.abs.toInt.natAbs = r.toInt.natAbs := by
  by_cases h : r = Int64.minValue
  · subst h; decide
  · have hmin : r.toBitVec ≠ BitVec.intMin 64 := fun h' => h (Int64.toBitVec.inj h')
    have habs : r.abs.toInt = r.toInt.natAbs := BitVec.toInt_abs_eq_natAbs_of_ne_intMin hmin
    rw [habs, Int.natAbs_natCast]

theorem toInt_abs_nonneg {r : Int64} : 0 ≤ r.abs.toInt ↔ r ≠ Int64.minValue := by
  constructor
  · rintro h rfl
    exact absurd h (by decide)
  · intro h
    have hmin : r.toBitVec ≠ BitVec.intMin 64 := fun h' => h (Int64.toBitVec.inj h')
    have habs : r.abs.toInt = r.toInt.natAbs := BitVec.toInt_abs_eq_natAbs_of_ne_intMin hmin
    omega

/-- The sum with 1 does not wrap, as the remainder is less than `n`. -/
theorem toInt_randi {r n : Int64} (hn : 0 < n) : (randi r n).toInt = r.abs.toInt.tmod n.toInt + 1 := by
  have hpos : 0 < n.toInt := Int64.lt_iff_toInt_lt.1 hn
  have hlt := Int.tmod_lt_of_pos r.abs.toInt hpos
  have hgt := Int.lt_tmod_of_pos r.abs.toInt hpos
  have hn' := n.toInt_lt
  have hone : (1 : Int64).toInt = 1 := rfl
  unfold randi
  rw [Int64.toInt_add, Int64.toInt_mod, hone]
  exact Int.bmod_eq_of_le (by omega) (by omega)

/-- Any draw but the least is as good as a natural number. -/
theorem toInt_randi_of_ne {r n : Int64} (hn : 0 < n) (h : r ≠ Int64.minValue) :
    (randi r n).toInt = ((r.toInt.natAbs % n.toInt.natAbs : ℕ) : ℤ) + 1 := by
  have hnn : 0 ≤ r.abs.toInt.tmod n.toInt := Int.tmod_nonneg _ (toInt_abs_nonneg.2 h)
  rw [toInt_randi hn, ← natAbs_toInt_abs, ← Int.natAbs_tmod, Int.natAbs_of_nonneg hnn]

theorem randi_le {r n : Int64} (hn : 0 < n) : randi r n ≤ n := by
  rw [Int64.le_iff_toInt_le, toInt_randi hn]
  exact Int.tmod_lt_of_pos _ (Int64.lt_iff_toInt_lt.1 hn)

theorem one_le_randi {r n : Int64} (hn : 0 < n) : 1 ≤ randi r n ↔ r ≠ Int64.minValue ∨ n.toInt ∣ 2 ^ 63 := by
  have hone : (1 : Int64).toInt = 1 := rfl
  rw [Int64.le_iff_toInt_le, hone]
  by_cases h : r = Int64.minValue
  · subst h
    have hmin : Int64.minValue.abs.toInt = -2 ^ 63 := rfl
    have hnn : 0 ≤ (2 ^ 63 : ℤ).tmod n.toInt := Int.tmod_nonneg _ (by norm_num)
    rw [toInt_randi hn, hmin, Int.neg_tmod, Int.dvd_iff_tmod_eq_zero]
    constructor
    · exact fun h => .inr (by linarith)
    · rintro (h | h)
      · exact absurd rfl h
      · rw [h]; decide
  · rw [toInt_randi_of_ne hn h]
    simp only [ne_eq, h, not_false_eq_true, true_or, iff_true]
    omega

/-! ## find_cycles with the integers drawn -/

namespace Draws

/-- What stops `find_cycles`, an index error with the length of the array and the index. -/
inductive Failure
  | boundsError (size : ℕ) (i : Int64)
  /-- `error in find_cycles. Traversed the whole graph???` -/
  | traversedWholeGraph
  deriving DecidableEq, Repr

/-- `a[i]`, counted from 1. -/
def getIndex (a : List ℕ) (i : Int64) : Except Failure ℕ :=
  match if 1 ≤ i then a[(i.toInt - 1).toNat]? else none with
  | some x => return x
  | none => throw (.boundsError a.length i)

variable {m : ℕ} (T F : Fin m → ℕ)

/-- The `while` loop, see `Islanding.walk`; a neighbour is drawn by `randi`. -/
def walk (origin : ℕ) (draws : ℕ → Int64) : (left i : ℕ) → (visited : List ℕ) → (id : ℕ) →
    Except Failure (Option (List ℕ))
  | 0, _, _, _ => throw .traversedWholeGraph
  | left + 1, i, visited, id => do
    let near := notVisited origin i visited (neighbors T F id)
    if near = [] then return none
    let next ← getIndex near (randi (draws i) (.ofNat near.length))
    if next = origin then return some ((origin :: visited).eraseDups.insertionSort (· ≤ ·))
    else walk origin draws left (i + 1) (if next ∈ visited then visited else visited ++ [next]) next

/-- `push!(cycles, cycle)` for a new cycle. -/
def addFound (cycles : List (List ℕ)) (found : Option (List ℕ)) : List (List ℕ) :=
  found.elim cycles fun cycle => if cycles.contains cycle then cycles else cycles ++ [cycle]

/-- One of the `n_iter` searches. The origin is an index of `neighbors`, which has an entry for each node. -/
def search (draws : ℕ → ℕ → Int64) (cycles : List (List ℕ)) (iter : ℕ) : Except Failure (List (List ℕ)) := do
  let n := (busList T F).length
  let origin ← getIndex (List.range n) (randi (draws iter 0) (.ofNat n))
  return addFound cycles (← walk T F origin (draws iter) n 1 [] origin)

/-- `find_cycles` when `rand(Int)` returns `draws iter turn`. -/
def findCycles (draws : ℕ → ℕ → Int64) : Except Failure (List (List ℕ)) := do
  if m = 0 then throw (.boundsError 0 1)
  let nodes := busList T F
  let cycles ← (List.range (nodes.length * 2)).foldlM (search T F draws) []
  return (cycles.map fun cycle => cycle.map fun i => nodes.getD i 0).insertionSort (· ≤ ·)

/-! ## Which draws stop it -/

section

variable {T F}

/-- The least integer was drawn from `size` elements, and its remainder is not 0. -/
def LeastDrawn (draws : ℕ → ℕ → Int64) : Failure → Prop
  | .boundsError size i =>
    ∃ iter turn, draws iter turn = Int64.minValue ∧ ¬ size ∣ 2 ^ 63 ∧ i = randi Int64.minValue (.ofNat size)
  | .traversedWholeGraph => True

theorem toInt_ofNat_length {a : List ℕ} (ha : a ≠ []) (hlen : a.length < 2 ^ 63) :
    0 < Int64.ofNat a.length ∧ (Int64.ofNat a.length).toInt = a.length := by
  have hpos := List.length_pos_iff.2 ha
  have hn : (Int64.ofNat a.length).toInt = a.length := Int64.toInt_ofNat_of_lt hlen
  refine ⟨Int64.lt_iff_toInt_lt.2 ?_, hn⟩
  rw [hn]
  exact Int.natCast_pos.2 hpos

/-- The element at the draw modulo the length. -/
theorem getIndex_randi {a : List ℕ} (ha : a ≠ []) (hlen : a.length < 2 ^ 63) {r : Int64}
    (h : r ≠ Int64.minValue ∨ a.length ∣ 2 ^ 63) :
    ∃ x, choice r.toInt.natAbs a = some x ∧ getIndex a (randi r (.ofNat a.length)) = .ok x := by
  obtain ⟨hpos, hn⟩ := toInt_ofNat_length ha hlen
  have hone : 1 ≤ randi r (.ofNat a.length) := by
    refine (one_le_randi hpos).2 (h.imp_right fun h => ?_)
    rw [hn]
    exact_mod_cast h
  have hidx : ((randi r (.ofNat a.length)).toInt - 1).toNat = r.toInt.natAbs % a.length := by
    rcases eq_or_ne r Int64.minValue with rfl | hr
    · have hdvd := h.resolve_left (by simp)
      have htm : (2 ^ 63 : ℤ).tmod a.length = 0 := Int.dvd_iff_tmod_eq_zero.1 (by exact_mod_cast hdvd)
      have hmin : Int64.minValue.abs.toInt = -2 ^ 63 := rfl
      have habs : Int64.minValue.toInt.natAbs = 2 ^ 63 := rfl
      rw [toInt_randi hpos, hn, hmin, Int.neg_tmod, htm, habs, Nat.mod_eq_zero_of_dvd hdvd]
      rfl
    · rw [toInt_randi_of_ne hpos hr, hn, Int.natAbs_natCast, add_sub_cancel_right, Int.toNat_natCast]
  obtain ⟨x, hx⟩ : ∃ x, choice r.toInt.natAbs a = some x := choice_ne_none ha
  refine ⟨x, hx, ?_⟩
  unfold getIndex
  rw [if_pos hone, hidx, show a[r.toInt.natAbs % a.length]? = some x from hx]
  rfl

theorem getIndex_least {a : List ℕ} (ha : a ≠ []) (hlen : a.length < 2 ^ 63) (h : ¬ a.length ∣ 2 ^ 63) :
    getIndex a (randi Int64.minValue (.ofNat a.length)) =
      .error (.boundsError a.length (randi Int64.minValue (.ofNat a.length))) := by
  obtain ⟨hpos, hn⟩ := toInt_ofNat_length ha hlen
  have hone : ¬ 1 ≤ randi Int64.minValue (.ofNat a.length) := by
    intro h1
    rcases (one_le_randi hpos).1 h1 with h1 | h1
    · exact h1 rfl
    · rw [hn] at h1
      exact h (by exact_mod_cast h1)
  unfold getIndex
  rw [if_neg hone]
  rfl

/-- An index that `randi` draws is in the array, unless the least integer was drawn. -/
theorem ensures_getIndex (draws : ℕ → ℕ → Int64) {a : List ℕ} (ha : a ≠ []) (hlen : a.length < 2 ^ 63) (iter turn : ℕ) :
    Ensures (LeastDrawn draws) (· ∈ a) (getIndex a (randi (draws iter turn) (.ofNat a.length))) := by
  by_cases h : draws iter turn ≠ Int64.minValue ∨ a.length ∣ 2 ^ 63
  · obtain ⟨x, hx, hget⟩ := getIndex_randi ha hlen h
    rw [hget]
    exact choice_mem hx
  · obtain ⟨hr, hdvd⟩ := not_or.1 h
    rw [not_not.1 hr, getIndex_least ha hlen hdvd]
    exact ⟨iter, turn, not_not.1 hr, hdvd, rfl⟩

theorem length_notVisited_le (origin i : ℕ) (visited : List ℕ) (id : ℕ) :
    (notVisited origin i visited (neighbors T F id)).length ≤ (busList T F).length := by
  have hnear : (neighbors T F id).length ≤ (busList T F).length :=
    (List.length_filter_le ..).trans (by rw [List.length_range])
  unfold notVisited
  split
  · exact (List.length_filter_le ..).trans hnear
  · split
    · exact (List.length_filter_le ..).trans hnear
    · exact hnear

theorem ensures_walk {draws : ℕ → ℕ → Int64} (hlen : (busList T F).length < 2 ^ 63) (iter origin : ℕ) :
    ∀ (left i : ℕ) (visited : List ℕ) (id : ℕ),
      Ensures (LeastDrawn draws) (fun _ => True) (walk T F origin (draws iter) left i visited id)
  | 0, _, _, _ => ensures_throw trivial
  | left + 1, i, visited, id => by
    unfold walk
    by_cases hnear : notVisited origin i visited (neighbors T F id) = []
    · rw [if_pos hnear]; trivial
    · rw [if_neg hnear]
      refine ensures_bind (ensures_getIndex draws hnear ((length_notVisited_le ..).trans_lt hlen) iter i) fun next _ _ => ?_
      split
      · trivial
      · exact ensures_walk hlen iter origin left (i + 1) _ next

theorem busList_ne_nil (hm : m ≠ 0) : busList T F ≠ [] :=
  List.ne_nil_of_mem ((mem_busList T F).2 (.inl ⟨⟨0, Nat.pos_of_ne_zero hm⟩, rfl⟩))

theorem ensures_search {draws : ℕ → ℕ → Int64} (hne : busList T F ≠ []) (hlen : (busList T F).length < 2 ^ 63)
    (cycles : List (List ℕ)) (iter : ℕ) :
    Ensures (LeastDrawn draws) (fun _ => True) (search T F draws cycles iter) := by
  have hidx : List.range (busList T F).length ≠ [] := by simpa using hne
  have horigin := ensures_getIndex draws hidx (by rwa [List.length_range]) iter 0
  rw [List.length_range] at horigin
  unfold search
  refine ensures_bind horigin fun origin _ _ => ?_
  refine ensures_bind (ensures_walk hlen iter origin _ 1 [] origin) fun found _ _ => ?_
  cases found <;> trivial

theorem ensures_findCycles {draws : ℕ → ℕ → Int64} (hm : m ≠ 0) (hlen : (busList T F).length < 2 ^ 63) :
    Ensures (LeastDrawn draws) (fun _ => True) (findCycles T F draws) := by
  unfold findCycles
  rw [if_neg hm]
  refine ensures_bind (P := fun _ => True) ?_ fun _ _ _ => trivial
  exact ensures_foldlM (fun iter _ cycles _ => ensures_search (busList_ne_nil hm) hlen cycles iter) trivial

/-! ## The walk with natural numbers -/

/-- The errors without the array and the index. -/
def Failure.err : Failure → Err
  | .boundsError _ _ => .boundsError
  | .traversedWholeGraph => .traversedWholeGraph

/-- The natural numbers that stand for the integers drawn. -/
def natural (draws : ℕ → ℕ → Int64) (iter turn : ℕ) : ℕ := (draws iter turn).toInt.natAbs

theorem mapError_walk {draws : ℕ → ℕ → Int64} (hlen : (busList T F).length < 2 ^ 63) {iter : ℕ}
    (hd : ∀ turn, draws iter turn ≠ Int64.minValue) (origin : ℕ) : ∀ (left i : ℕ) (visited : List ℕ) (id : ℕ),
      (walk T F origin (draws iter) left i visited id).mapError Failure.err =
        Islanding.walk T F origin (natural draws iter) left i visited id
  | 0, _, _, _ => rfl
  | left + 1, i, visited, id => by
    unfold walk Islanding.walk
    by_cases hnear : notVisited origin i visited (neighbors T F id) = []
    · rw [if_pos hnear, hnear]; rfl
    · obtain ⟨next, hnext, hget⟩ := getIndex_randi hnear ((length_notVisited_le ..).trans_lt hlen) (.inl (hd i))
      rw [if_neg hnear, hget, show choice (natural draws iter i) _ = some next from hnext]
      change (if next = origin then _ else _ : Except Failure _).mapError Failure.err = if next = origin then _ else _
      split
      · rfl
      · exact mapError_walk hlen hd origin left (i + 1) _ next

theorem mapError_search {draws : ℕ → ℕ → Int64} (hne : busList T F ≠ []) (hlen : (busList T F).length < 2 ^ 63)
    {iter : ℕ} (hd : ∀ turn, draws iter turn ≠ Int64.minValue) (cycles : List (List ℕ)) :
    (search T F draws cycles iter).mapError Failure.err = Islanding.search T F (natural draws) cycles iter := by
  have hidx : List.range (busList T F).length ≠ [] := by simpa using hne
  obtain ⟨origin, ho, hget⟩ := getIndex_randi hidx (by rwa [List.length_range]) (.inl (hd 0))
  have horigin : origin = natural draws iter 0 % (busList T F).length := by
    unfold choice at ho
    rw [List.length_range, List.getElem?_eq_some_iff] at ho
    obtain ⟨hlt, rfl⟩ := ho
    rw [List.getElem_range]
    rfl
  rw [List.length_range] at hget
  unfold search Islanding.search
  simp only [← horigin]
  rw [mapError_bind, hget, ← mapError_walk hlen hd]
  change (walk T F origin (draws iter) _ 1 [] origin >>= _).mapError Failure.err = _
  rw [mapError_bind]
  refine bind_congr fun found => ?_
  cases found with
  | none => rfl
  | some cycle =>
    refine congrArg Except.ok ?_
    simp only [addFound, Option.elim, List.contains_iff_mem]

/-- Without the least integer among the draws `find_cycles` is as it is with natural numbers. -/
theorem mapError_findCycles {draws : ℕ → ℕ → Int64} (hlen : (busList T F).length < 2 ^ 63)
    (hd : ∀ iter turn, draws iter turn ≠ Int64.minValue) :
    (findCycles T F draws).mapError Failure.err = Islanding.findCycles T F (natural draws) := by
  unfold findCycles Islanding.findCycles
  by_cases hm : m = 0
  · rw [if_pos hm, if_pos hm]; rfl
  · rw [if_neg hm, if_neg hm]
    change (List.foldlM (search T F draws) [] _ >>= _).mapError Failure.err = List.foldlM _ [] _ >>= _
    rw [mapError_bind, mapError_foldlM fun cycles iter => mapError_search (busList_ne_nil hm) hlen (hd iter) cycles]
    rfl

end

end Draws

/-! ## The range, exactly -/

/-- `randi(n)` is in 1..n unless the least integer is drawn and `n` does not divide 2^63; an index error of
`find_cycles` comes from such a draw. -/
theorem randi_valid (r n : Int64) (hn : 0 < n) :
    ((1 ≤ randi r n ∧ randi r n ≤ n) ↔ r ≠ Int64.minValue ∨ n.toInt ∣ 2 ^ 63) ∧
      ∀ {m : ℕ} (T F : Fin m → ℕ) (draws : ℕ → ℕ → Int64), m ≠ 0 → (busList T F).length < 2 ^ 63 →
        ∀ size i, Draws.findCycles T F draws = .error (.boundsError size i) →
          ∃ iter turn, draws iter turn = Int64.minValue ∧ ¬ size ∣ 2 ^ 63 ∧ i = randi (draws iter turn) (.ofNat size) := by
  constructor
  · rw [← one_le_randi hn]
    exact ⟨fun h => h.1, fun h => ⟨h, randi_le hn⟩⟩
  · intro m T F draws hm hlen size i h
    obtain ⟨iter, turn, hr, hdvd, hi⟩ := (Draws.ensures_findCycles hm hlen).of_error h
    exact ⟨iter, turn, hr, hdvd, by rw [hr]; exact hi⟩

/-- A triangle. -/
def triangleTo : Fin 3 → ℕ := ![1, 2, 3]

def triangleFrom : Fin 3 → ℕ := ![2, 3, 1]

theorem randi_valid_triangle :
    (1 ≤ randi 7 3 ∧ randi 7 3 ≤ 3) ∧
      ∃ iter turn, (fun _ _ => Int64.minValue : ℕ → ℕ → Int64) iter turn = Int64.minValue ∧ ¬ 3 ∣ 2 ^ 63 ∧
        (-1 : Int64) = randi ((fun _ _ => Int64.minValue : ℕ → ℕ → Int64) iter turn) (.ofNat 3) :=
  ⟨(randi_valid 7 3 (by decide)).1.2 (.inl (by decide)),
    (randi_valid 7 3 (by decide)).2 triangleTo triangleFrom (fun _ _ => Int64.minValue) (by decide) (by decide) 3 (-1) (by decide)⟩

/-- The least integer sends `randi(3)` to -1, and the first search in a triangle stops there. -/
theorem randi_least :
    ¬ (∀ r n : Int64, 0 < n → 1 ≤ randi r n ∧ randi r n ≤ n) ∧ randi Int64.minValue 3 = -1 ∧
      Draws.findCycles triangleTo triangleFrom (fun _ _ => Int64.minValue) = .error (.boundsError 3 (-1)) := by
  have h : randi Int64.minValue 3 = -1 := by decide
  refine ⟨fun hall => ?_, h, by decide⟩
  have h1 := (hall Int64.minValue 3 (by decide)).1
  rw [h] at h1
  exact absurd h1 (by decide)

end Grip.Islanding
