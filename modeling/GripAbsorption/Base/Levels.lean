/-
A graph expanded level by level without a record of the nodes that were seen: each level holds the
successors of the one before, once for every way to get there. The loop ends exactly when no cycle can
be reached from the root, and then it has listed the nodes that can be reached.

Successors come from a lookup that may raise.
-/
import GripAbsorption.Base.Search

namespace Grip.Base

open Relation

universe u v

variable {α : Type u} {ε : Type v}

/-! ## The loop -/

/-- One node of a level: its successors are listed, and join the next level. -/
def levelTurn (step : α → Except ε (List α)) (acc : List α × List α) (node : α) : Except ε (List α × List α) :=
  step node >>= fun new => pure (acc.1 ++ new, acc.2 ++ new)

/-- `while next:` with the nodes listed so far; `running` is the error of a loop out of fuel. -/
def levels (step : α → Except ε (List α)) (running : ε) : ℕ → List α → List α → Except ε (List α)
  | _, done, [] => .ok done
  | 0, _, _ :: _ => .error running
  | fuel + 1, done, n :: next =>
    (n :: next).foldlM (levelTurn step) (done, []) >>= fun acc => levels step running fuel acc.1 acc.2

/-- The nodes `n` levels on. -/
def level (succs : α → List α) : ℕ → List α → List α
  | 0, next => next
  | n + 1, next => level succs n (next.flatMap succs)

section

variable {step : α → Except ε (List α)} {succs : α → List α} {running : ε}

theorem foldlM_levelTurn (hstep : ∀ a, step a = .ok (succs a)) : ∀ (next done new : List α),
    next.foldlM (levelTurn step) (done, new) = .ok (done ++ next.flatMap succs, new ++ next.flatMap succs)
  | [], done, new => by simp; rfl
  | a :: next, done, new => by
    rw [List.foldlM_cons, levelTurn, hstep]
    change next.foldlM (levelTurn step) (done ++ succs a, new ++ succs a) = _
    rw [foldlM_levelTurn hstep next]
    simp

/-- A level that is not empty is followed by the next one. -/
theorem levels_succ (hstep : ∀ a, step a = .ok (succs a)) {next : List α} (hne : next ≠ []) (fuel : ℕ) (done : List α) :
    levels step running (fuel + 1) done next =
      levels step running fuel (done ++ next.flatMap succs) (next.flatMap succs) := by
  cases next with
  | nil => exact absurd rfl hne
  | cons a next =>
    rw [levels, foldlM_levelTurn hstep]
    rfl

theorem level_nil : ∀ n, level succs n [] = []
  | 0 => rfl
  | n + 1 => level_nil n

/-- The loop returns after an empty level. -/
theorem level_eq_nil_of_levels (hstep : ∀ a, step a = .ok (succs a)) {result : List α} :
    ∀ {fuel : ℕ} {done next : List α}, levels step running fuel done next = .ok result → ∃ n, level succs n next = []
  | _, _, [], _ => ⟨0, rfl⟩
  | 0, _, _ :: _, h => by cases h
  | fuel + 1, done, a :: next, h => by
    rw [levels_succ hstep (List.cons_ne_nil a next)] at h
    obtain ⟨n, hn⟩ := level_eq_nil_of_levels hstep h
    exact ⟨n + 1, hn⟩

/-- With fuel up to an empty level the loop returns. -/
theorem levels_of_level_eq_nil (hstep : ∀ a, step a = .ok (succs a)) :
    ∀ {n fuel : ℕ} (done : List α) {next : List α}, level succs n next = [] → n ≤ fuel →
      ∃ result, levels step running fuel done next = .ok result
  | n, fuel, done, [], _, _ => ⟨done, by cases fuel <;> rfl⟩
  | 0, _, _, _ :: _, h, _ => by cases h
  | n + 1, 0, _, _ :: _, _, hn => by omega
  | n + 1, fuel + 1, done, a :: next, h, hn => by
    have hnil : level succs n ((a :: next).flatMap succs) = [] := h
    obtain ⟨result, hresult⟩ :=
      levels_of_level_eq_nil hstep (done ++ (a :: next).flatMap succs) hnil (Nat.le_of_succ_le_succ hn)
    exact ⟨result, (levels_succ hstep (List.cons_ne_nil a next) fuel done).trans hresult⟩

/-- When the loop returns, the nodes of all levels are listed. -/
theorem mem_levels (hstep : ∀ a, step a = .ok (succs a)) {result : List α} : ∀ {fuel : ℕ} {done next : List α},
    levels step running fuel done next = .ok result → ∀ b, b ∈ result ↔ b ∈ done ∨ ∃ m, b ∈ level succs (m + 1) next
  | fuel, done, [], h, b => by
    have hdone : levels step running fuel done [] = .ok done := by cases fuel <;> rfl
    rw [hdone] at h
    cases h
    simp [level_nil]
  | 0, _, _ :: _, h, _ => by cases h
  | fuel + 1, done, a :: next, h, b => by
    rw [levels_succ hstep (List.cons_ne_nil a next)] at h
    rw [mem_levels hstep h, List.mem_append, or_assoc]
    refine or_congr_right ⟨?_, ?_⟩
    · rintro (hb | ⟨m, hb⟩)
      exacts [⟨0, hb⟩, ⟨m + 1, hb⟩]
    · rintro ⟨m, hb⟩
      cases m with
      | zero => exact .inl hb
      | succ m => exact .inr ⟨m, hb⟩

/-! ## Levels and walks -/

theorem level_succ (next : List α) : ∀ n, level succs (n + 1) next = (level succs n next).flatMap succs
  | 0 => rfl
  | n + 1 => level_succ (next.flatMap succs) n

theorem mem_level_succ {next : List α} {n : ℕ} {b : α} :
    b ∈ level succs (n + 1) next ↔ ∃ a ∈ level succs n next, b ∈ succs a := by
  rw [level_succ, List.mem_flatMap]

/-- The nodes that can be reached are those of the levels. -/
theorem reaches_iff_mem_level {root b : α} : Reaches succs root b ↔ ∃ n, b ∈ level succs n [root] := by
  constructor
  · intro h
    induction h with
    | refl => exact ⟨0, List.mem_singleton_self root⟩
    | tail _ hb ih =>
      obtain ⟨n, hn⟩ := ih
      exact ⟨n + 1, mem_level_succ.2 ⟨_, hn, hb⟩⟩
  · rintro ⟨n, hb⟩
    induction n generalizing b with
    | zero => rw [List.mem_singleton.1 hb]
    | succ n ih =>
      obtain ⟨a, ha, hb⟩ := mem_level_succ.1 hb
      exact (ih ha).tail hb

/-- A walk from the root to a node, with the nodes it passes, the last one first. -/
inductive Walk (succs : α → List α) (root : α) : α → List α → Prop
  | root : Walk succs root root [root]
  | step {a b : α} {nodes : List α} (h : Walk succs root a nodes) (hb : b ∈ succs a) : Walk succs root b (b :: nodes)

theorem walk_of_mem_level {root b : α} : ∀ {n : ℕ}, b ∈ level succs n [root] →
    ∃ nodes, Walk succs root b nodes ∧ nodes.length = n + 1
  | 0, h => by
    obtain rfl := List.mem_singleton.1 h
    exact ⟨_, .root, rfl⟩
  | n + 1, h => by
    obtain ⟨a, ha, hb⟩ := mem_level_succ.1 h
    obtain ⟨nodes, hw, hlen⟩ := walk_of_mem_level ha
    exact ⟨_, .step hw hb, by rw [List.length_cons, hlen]⟩

/-- Every node of a walk is reached from the root, and is the last one or leads to it. -/
theorem Walk.mem {root b : α} {nodes : List α} (h : Walk succs root b nodes) {a : α} (ha : a ∈ nodes) :
    Reaches succs root a ∧ (a = b ∨ TransGen (fun a b => b ∈ succs a) a b) := by
  induction h generalizing a with
  | root => rw [List.mem_singleton.1 ha]; exact ⟨.refl, .inl rfl⟩
  | @step c b nodes hw hb ih =>
    rcases List.mem_cons.1 ha with rfl | ha
    · have hc : c ∈ nodes := by cases hw <;> exact List.mem_cons_self ..
      exact ⟨(ih hc).1.tail hb, .inl rfl⟩
    · rcases (ih ha).2 with rfl | hto
      · exact ⟨(ih ha).1, .inr (.single hb)⟩
      · exact ⟨(ih ha).1, .inr (hto.tail hb)⟩

/-- No cycle can be reached. -/
def AcyclicFrom (succs : α → List α) (root : α) : Prop :=
  ∀ c, Reaches succs root c → ¬ TransGen (fun a b => b ∈ succs a) c c

/-- Without cycles a walk passes no node twice. -/
theorem Walk.nodup {root b : α} {nodes : List α} (hacyc : AcyclicFrom succs root) (h : Walk succs root b nodes) :
    nodes.Nodup := by
  induction h with
  | root => exact List.nodup_singleton root
  | step hw hb ih =>
    refine List.nodup_cons.2 ⟨fun hmem => ?_, ih⟩
    obtain ⟨hreach, rfl | hto⟩ := hw.mem hmem
    · exact hacyc _ hreach (.single hb)
    · exact hacyc _ hreach (hto.tail hb)

theorem Walk.subset {root b : α} {nodes all : List α} (hall : ∀ a, succs a ⊆ all) (h : Walk succs root b nodes) :
    nodes ⊆ root :: all := by
  induction h with
  | root => exact List.cons_subset_cons _ (List.nil_subset all)
  | step _ hb ih => exact List.cons_subset.2 ⟨List.mem_cons_of_mem _ (hall _ hb), ih⟩

/-- Without cycles the levels are empty from the number of nodes on. -/
theorem level_eq_nil_of_acyclic {root : α} {all : List α} (hall : ∀ a, succs a ⊆ all) (hacyc : AcyclicFrom succs root) :
    level succs (all.length + 1) [root] = [] := by
  rw [List.eq_nil_iff_forall_not_mem]
  intro b hb
  obtain ⟨nodes, hw, hlen⟩ := walk_of_mem_level hb
  have hle := (hw.nodup hacyc).subperm (hw.subset hall) |>.length_le
  rw [hlen, List.length_cons] at hle
  omega

/-- From a cycle there are walks of every length. -/
theorem level_ne_nil_of_cycle {root c : α} (hc : Reaches succs root c) (hcycle : TransGen (fun a b => b ∈ succs a) c c)
    (n : ℕ) : ∃ b ∈ level succs n [root], Reaches succs b c := by
  induction n with
  | zero => exact ⟨root, List.mem_singleton_self root, hc⟩
  | succ n ih =>
    obtain ⟨b, hb, hreach⟩ := ih
    -- a node that reaches `c` has a successor that does, on the cycle if it is `c`
    have hnext : ∃ d, d ∈ succs b ∧ Reaches succs d c := by
      rcases hreach.cases_head with rfl | hhead
      · exact TransGen.head'_iff.1 hcycle
      · exact hhead
    obtain ⟨d, hd, hreach'⟩ := hnext
    exact ⟨d, mem_level_succ.2 ⟨b, hb, hd⟩, hreach'⟩

/-- What a loop that returns has listed is what can be reached. -/
theorem reaches_of_levels (hstep : ∀ a, step a = .ok (succs a)) {root : α} {fuel : ℕ} {result : List α}
    (h : levels step running fuel [root] [root] = .ok result) (b : α) : b ∈ result ↔ Reaches succs root b := by
  rw [mem_levels hstep h, reaches_iff_mem_level]
  constructor
  · rintro (hb | ⟨m, hb⟩)
    exacts [⟨0, hb⟩, ⟨m + 1, hb⟩]
  · rintro ⟨n, hb⟩
    cases n with
    | zero => exact .inl hb
    | succ n => exact .inr ⟨n, hb⟩

/-- Without cycles the loop ends, and has listed the nodes that can be reached. -/
theorem levels_spec (hstep : ∀ a, step a = .ok (succs a)) {all : List α} (hall : ∀ a, succs a ⊆ all) {root : α}
    (hacyc : AcyclicFrom succs root) {fuel : ℕ} (hfuel : all.length < fuel) :
    ∃ result, levels step running fuel [root] [root] = .ok result ∧ ∀ b, b ∈ result ↔ Reaches succs root b := by
  have hnil := level_eq_nil_of_acyclic hall hacyc
  obtain ⟨result, h⟩ : ∃ result, levels step running fuel [root] [root] = .ok result :=
    levels_of_level_eq_nil hstep [root] hnil hfuel
  exact ⟨result, h, reaches_of_levels hstep h⟩

/-- The loop ends exactly when no cycle can be reached. -/
theorem levels_ends_iff (hstep : ∀ a, step a = .ok (succs a)) {all : List α} (hall : ∀ a, succs a ⊆ all) (root : α) :
    (∃ fuel result, levels step running fuel [root] [root] = .ok result) ↔ AcyclicFrom succs root := by
  constructor
  · rintro ⟨fuel, result, h⟩ c hc hcycle
    obtain ⟨n, hn⟩ := level_eq_nil_of_levels hstep h
    obtain ⟨b, hb, -⟩ := level_ne_nil_of_cycle hc hcycle n
    rw [hn] at hb
    cases hb
  · intro hacyc
    obtain ⟨result, h, -⟩ := levels_spec hstep hall hacyc (Nat.lt_succ_self _)
    exact ⟨_, result, h⟩

end

end Grip.Base
