/-
Search of a graph with a work list whose elements are taken out in any order. `search` runs one work
list until it is empty and shares the set of seen nodes with earlier searches; `components` starts
one from every node not seen before. In a symmetric graph the searches list the classes of
reachability, each node once (`components_spec`), and the number of nodes is fuel enough.

Neighbours come from a lookup that may raise, and the order of the work list from draws.
-/
import GripAbsorption.Base.Run
import GripAbsorption.Base.Python

namespace Grip.Base

universe u v

variable {α : Type u} {ε : Type v} [DecidableEq α]

/-! ## One search -/

/-- A running search: the work list, the seen nodes and the nodes taken out so far. -/
structure Search (α : Type u) where
  nodes : List α
  seen : List α
  result : List α

namespace Search

/-- Take out `n`, whose neighbours are `near`: those not seen yet join the work list. -/
def take (s : Search α) (n : α) (near : List α) : Search α :=
  ⟨near.filter (· ∉ n :: s.seen) ∪ s.nodes.erase n, n :: s.seen, s.result ++ [n]⟩

/-- A search from `root`. -/
def start (root : α) (seen : List α) : Search α := ⟨[root], seen, []⟩

/-- Take out drawn nodes until none is left; `running` is the error of a search out of fuel. -/
def run (adj : α → Except ε (List α)) (running : ε) : ℕ → (ℕ → ℕ) → Search α → Except ε (Search α)
  | 0, _, s => if s.nodes = [] then .ok s else .error running
  | fuel + 1, draws, s =>
    match choice (draws 0) s.nodes with
    | none => .ok s
    | some n => adj n >>= fun near => run adj running fuel (fun k => draws (k + 1)) (s.take n near)

end Search

/-- `b` can be reached from `a`. -/
abbrev Reaches (next : α → List α) : α → α → Prop := Relation.ReflTransGen fun a b => b ∈ next a

/-- The invariant of a search from `root` after the nodes `old` were seen. -/
structure Explores (next : α → List α) (root : α) (old : List α) (s : Search α) : Prop where
  nodup : s.nodes.Nodup
  fresh : ∀ n ∈ s.nodes, n ∉ s.seen
  seen : ∀ n, n ∈ s.seen ↔ n ∈ old ∨ n ∈ s.result
  resultNodup : s.result.Nodup
  resultNew : ∀ n ∈ s.result, n ∉ old
  reached : ∀ n, n ∈ s.nodes ∨ n ∈ s.result → Reaches next root n
  closed : ∀ a ∈ s.result, ∀ b ∈ next a, b ∈ s.seen ∨ b ∈ s.nodes
  root : root ∈ s.nodes ∨ root ∈ s.result

section

variable {next : α → List α} {root : α} {old : List α} {s : Search α} {n : α}

theorem mem_nodes_take {near : List α} {m : α} (hs : s.nodes.Nodup) :
    m ∈ (s.take n near).nodes ↔ (m ∈ near ∧ m ≠ n ∧ m ∉ s.seen) ∨ (m ∈ s.nodes ∧ m ≠ n) := by
  unfold Search.take
  rw [List.mem_union_iff, List.mem_filter, hs.mem_erase_iff, decide_eq_true_eq, List.mem_cons, not_or]
  exact or_congr Iff.rfl and_comm

omit [DecidableEq α] in
theorem explores_start (h : root ∉ old) : Explores next root old (.start root old) where
  nodup := List.nodup_singleton root
  fresh := fun n hn => by rw [List.mem_singleton.1 hn]; exact h
  seen := fun n => by simp [Search.start]
  resultNodup := List.nodup_nil
  resultNew := fun n hn => by cases hn
  reached := by
    rintro n (hn | hn)
    · rw [List.mem_singleton.1 hn]
    · cases hn
  closed := fun a ha => by cases ha
  root := .inl (List.mem_singleton_self root)

/-- Taking out one node keeps the invariant. -/
theorem Explores.take (h : Explores next root old s) (hn : n ∈ s.nodes) :
    Explores next root old (s.take n (next n)) := by
  have hfresh := h.fresh n hn
  have hnew : n ∉ s.result := fun hr => hfresh ((h.seen n).2 (.inr hr))
  have hmem : ∀ m, m ∈ (s.take n (next n)).nodes ↔ _ := fun m => mem_nodes_take h.nodup
  refine ⟨(h.nodup.erase n).union _, fun m hm => ?_, fun m => ?_, ?_, fun m hm => ?_, fun m hm => ?_,
    fun a ha b hb => ?_, ?_⟩
  · change m ∉ n :: s.seen
    rw [List.mem_cons, not_or]
    rcases (hmem m).1 hm with ⟨-, hne, hs⟩ | ⟨hold, hne⟩
    exacts [⟨hne, hs⟩, ⟨hne, h.fresh m hold⟩]
  · change m ∈ n :: s.seen ↔ m ∈ old ∨ m ∈ s.result ++ [n]
    rw [List.mem_cons, List.mem_append, List.mem_singleton, h.seen]
    tauto
  · exact List.nodup_append.2 ⟨h.resultNodup, List.nodup_singleton n,
      fun a ha b hb => by rw [List.mem_singleton.1 hb]; rintro rfl; exact hnew ha⟩
  · rcases List.mem_append.1 hm with hm | hm
    · exact h.resultNew m hm
    · rw [List.mem_singleton.1 hm]
      exact fun ho => hfresh ((h.seen n).2 (.inl ho))
  · have hroot := h.reached n (.inl hn)
    rcases hm with hm | hm
    · rcases (hmem m).1 hm with ⟨hnear, -⟩ | ⟨hold, -⟩
      exacts [hroot.tail hnear, h.reached m (.inl hold)]
    · rcases List.mem_append.1 hm with hm | hm
      · exact h.reached m (.inr hm)
      · rw [List.mem_singleton.1 hm]; exact hroot
  · -- a neighbour is the node itself, was seen, or is now in the work list
    rw [hmem]
    change b ∈ n :: s.seen ∨ _
    rw [List.mem_cons]
    by_cases hbn : b = n
    · exact .inl (.inl hbn)
    rcases List.mem_append.1 ha with ha | ha
    · rcases h.closed a ha b hb with hs | hw
      exacts [.inl (.inr hs), .inr (.inr ⟨hw, hbn⟩)]
    · rw [List.mem_singleton.1 ha] at hb
      by_cases hs : b ∈ s.seen
      exacts [.inl (.inr hs), .inr (.inl ⟨hb, hbn, hs⟩)]
  · by_cases hr : root = n
    · exact .inr (List.mem_append.2 (.inr (List.mem_singleton.2 hr)))
    · rcases h.root with hw | hw
      exacts [.inl ((hmem root).2 (.inr ⟨hw, hr⟩)), .inr (List.mem_append.2 (.inl hw))]

/-- One more node is seen. -/
theorem countP_notMem_cons_lt {seen : List α} (hn : n ∉ seen) : ∀ {all : List α}, n ∈ all →
    all.countP (· ∉ n :: seen) < all.countP (· ∉ seen)
  | a :: l, h => by
    have hle : l.countP (· ∉ n :: seen) ≤ l.countP (· ∉ seen) :=
      List.countP_mono_left fun x _ hx => by simp only [decide_eq_true_eq, List.mem_cons, not_or] at hx ⊢; exact hx.2
    rw [List.countP_cons, List.countP_cons]
    by_cases ha : a = n
    · subst ha
      simp only [List.mem_cons_self, not_true_eq_false, decide_false, Bool.false_eq_true, if_false, hn,
        not_false_eq_true, decide_true, if_true]
      omega
    · have ih := countP_notMem_cons_lt hn ((List.mem_cons.1 h).resolve_left fun e => ha e.symm)
      simp only [List.mem_cons, ha, false_or] at ih ⊢
      omega

/-- With fuel for the nodes not seen yet, the search ends with an empty work list. -/
theorem Explores.run {adj : α → Except ε (List α)} (running : ε) {all : List α}
    (hall : ∀ n, Reaches next root n → n ∈ all ∧ adj n = .ok (next n)) :
    ∀ (fuel : ℕ) (draws : ℕ → ℕ) (s : Search α), Explores next root old s →
      all.countP (· ∉ s.seen) ≤ fuel →
      ∃ s', s.run adj running fuel draws = .ok s' ∧ Explores next root old s' ∧ s'.nodes = []
  | 0, draws, s, h, hfuel => by
    have hnil : s.nodes = [] := by
      by_contra hne
      obtain ⟨n, hn⟩ := List.exists_mem_of_ne_nil _ hne
      have hpos : 0 < all.countP (· ∉ s.seen) :=
        List.countP_pos_iff.2 ⟨n, (hall n (h.reached n (.inl hn))).1, by simpa using h.fresh n hn⟩
      omega
    exact ⟨s, by rw [Search.run, if_pos hnil], h, hnil⟩
  | fuel + 1, draws, s, h, hfuel => by
    rw [Search.run]
    cases hc : choice (draws 0) s.nodes with
    | none =>
      refine ⟨s, rfl, h, ?_⟩
      by_contra hne
      obtain ⟨n, hn⟩ : ∃ n, choice (draws 0) s.nodes = some n := choice_ne_none hne
      rw [hc] at hn; cases hn
    | some n =>
      have hn := choice_mem hc
      obtain ⟨hmem, hadj⟩ := hall n (h.reached n (.inl hn))
      have hless : all.countP (· ∉ (s.take n (next n)).seen) < all.countP (· ∉ s.seen) :=
        countP_notMem_cons_lt (h.fresh n hn) hmem
      obtain ⟨s', hrun, hs'⟩ := Explores.run running hall fuel (fun k => draws (k + 1)) _ (h.take hn) (by omega)
      exact ⟨s', by simp only [hadj]; exact hrun, hs'⟩

omit [DecidableEq α] in
/-- The result of a search that no earlier search came near: what the root reaches. -/
theorem Explores.mem_result (h : Explores next root old s) (hend : s.nodes = [])
    (hold : ∀ n, Reaches next root n → n ∉ old) : n ∈ s.result ↔ Reaches next root n := by
  refine ⟨fun hn => h.reached n (.inr hn), fun hn => ?_⟩
  induction hn with
  | refl => exact h.root.resolve_left (by rw [hend]; exact List.not_mem_nil)
  | @tail a b ha hb ih =>
    rcases h.closed a ih b hb with hs | hw
    · exact ((h.seen b).1 hs).resolve_left (hold b (ha.tail hb))
    · rw [hend] at hw; cases hw

end

/-! ## All components -/

/-- A search from every node not seen before. -/
def visitComponent (adj : α → Except ε (List α)) (running : ε) (fuel : ℕ) (draws : α → ℕ → ℕ)
    (acc : List α × List (List α)) (node : α) : Except ε (List α × List (List α)) :=
  if node ∈ acc.1 then .ok acc
  else (Search.start node acc.1).run adj running fuel (draws node) >>= fun s => .ok (s.seen, acc.2 ++ [s.result])

def components (adj : α → Except ε (List α)) (running : ε) (fuel : ℕ) (draws : α → ℕ → ℕ) (nodes : List α) :
    Except ε (List (List α)) :=
  nodes.foldlM (visitComponent adj running fuel draws) ([], []) >>= fun acc => .ok acc.2

/-- The invariant of the loop after the roots `done`. -/
structure Covers (next : α → List α) (done : List α) (acc : List α × List (List α)) : Prop where
  seen : ∀ n, n ∈ acc.1 ↔ n ∈ acc.2.flatten
  reached : ∀ n, n ∈ acc.2.flatten ↔ ∃ r ∈ done, Reaches next r n
  nodup : acc.2.flatten.Nodup
  group : ∀ c ∈ acc.2, ∃ r ∈ done, ∀ n, n ∈ c ↔ Reaches next r n

section

variable {next : α → List α} {adj : α → Except ε (List α)} {nodes : List α}

omit [DecidableEq α] in
theorem Reaches.symm (hsymm : ∀ a b, b ∈ next a → a ∈ next b) {a b : α} (h : Reaches next a b) : Reaches next b a := by
  have : Std.Symm fun a b => b ∈ next a := ⟨hsymm⟩
  exact Relation.ReflTransGen.stdSymm.symm a b h

omit [DecidableEq α] in
theorem Reaches.mem (hclosed : ∀ a ∈ nodes, ∀ b ∈ next a, b ∈ nodes) {a b : α} (ha : a ∈ nodes)
    (h : Reaches next a b) : b ∈ nodes := by
  induction h with
  | refl => exact ha
  | @tail b c _ hc ih => exact hclosed b ih c hc

omit [DecidableEq α] in
/-- A root that was seen lies in an earlier component, with all it reaches. -/
theorem Covers.skip {done : List α} {acc : List α × List (List α)} {root : α} (h : Covers next done acc)
    (hs : root ∈ acc.1) : Covers next (done ++ [root]) acc := by
  obtain ⟨r, hr, hrr⟩ := (h.reached root).1 ((h.seen root).1 hs)
  refine ⟨h.seen, fun n => ?_, h.nodup, fun c hc => ?_⟩
  · rw [h.reached]
    constructor
    · rintro ⟨q, hq, hqn⟩
      exact ⟨q, List.mem_append.2 (.inl hq), hqn⟩
    · rintro ⟨q, hq, hqn⟩
      rcases List.mem_append.1 hq with hq | hq
      · exact ⟨q, hq, hqn⟩
      · rw [List.mem_singleton.1 hq] at hqn
        exact ⟨r, hr, hrr.trans hqn⟩
  · obtain ⟨q, hq, hqc⟩ := h.group c hc
    exact ⟨q, List.mem_append.2 (.inl hq), hqc⟩

omit [DecidableEq α] in
/-- The component of a root that was not seen joins the others. -/
theorem Covers.add {done : List α} {acc : List α × List (List α)} {root : α} {s : Search α} (h : Covers next done acc)
    (hexp : Explores next root acc.1 s) (hresult : ∀ n, n ∈ s.result ↔ Reaches next root n) :
    Covers next (done ++ [root]) (s.seen, acc.2 ++ [s.result]) := by
  have hflat : (acc.2 ++ [s.result]).flatten = acc.2.flatten ++ s.result := by simp
  refine ⟨fun n => ?_, fun n => ?_, ?_, fun c hc => ?_⟩
  · rw [hflat, List.mem_append, hexp.seen, h.seen]
  · simp only [hflat, List.mem_append]
    rw [h.reached, hresult]
    constructor
    · rintro (⟨q, hq, hqn⟩ | hn)
      exacts [⟨q, .inl hq, hqn⟩, ⟨root, .inr (List.mem_singleton_self root), hn⟩]
    · rintro ⟨q, hq | hq, hqn⟩
      exacts [.inl ⟨q, hq, hqn⟩, .inr (List.mem_singleton.1 hq ▸ hqn)]
  · change (acc.2 ++ [s.result]).flatten.Nodup
    rw [hflat]
    -- what this search found was not seen by the searches before it
    refine h.nodup.append hexp.resultNodup fun a ha ha' => ?_
    exact hexp.resultNew a ha' ((h.seen a).2 ha)
  · rcases List.mem_append.1 hc with hc | hc
    · obtain ⟨q, hq, hqc⟩ := h.group c hc
      exact ⟨q, List.mem_append.2 (.inl hq), hqc⟩
    · rw [List.mem_singleton.1 hc]
      exact ⟨root, List.mem_append.2 (.inr (List.mem_singleton_self root)), hresult⟩

/-- One turn of the loop. -/
theorem Covers.visit (running : ε) {done : List α} {acc : List α × List (List α)} {root : α} {fuel : ℕ}
    (hsymm : ∀ a b, b ∈ next a → a ∈ next b) (hclosed : ∀ a ∈ nodes, ∀ b ∈ next a, b ∈ nodes)
    (hadj : ∀ a ∈ nodes, adj a = .ok (next a)) (hfuel : nodes.length ≤ fuel) (draws : α → ℕ → ℕ)
    (h : Covers next done acc) (hroot : root ∈ nodes) :
    ∃ acc', visitComponent adj running fuel draws acc root = .ok acc' ∧ Covers next (done ++ [root]) acc' := by
  unfold visitComponent
  by_cases hs : root ∈ acc.1
  · rw [if_pos hs]
    exact ⟨acc, rfl, h.skip hs⟩
  · rw [if_neg hs]
    have hall : ∀ n, Reaches next root n → n ∈ nodes ∧ adj n = .ok (next n) := fun n hn =>
      ⟨hn.mem hclosed hroot, hadj n (hn.mem hclosed hroot)⟩
    obtain ⟨s, hrun, hexp, hend⟩ := Explores.run running hall fuel (draws root) _ (explores_start hs)
      (List.countP_le_length.trans hfuel)
    rw [hrun]
    -- nothing the root reaches was seen: the root would have been reached from there
    have hapart : ∀ n, Reaches next root n → n ∉ acc.1 := fun n hn hseen => hs <| by
      obtain ⟨r, hr, hrn⟩ := (h.reached n).1 ((h.seen n).1 hseen)
      exact (h.seen root).2 ((h.reached root).2 ⟨r, hr, hrn.trans (Reaches.symm hsymm hn)⟩)
    exact ⟨_, rfl, h.add hexp fun n => hexp.mem_result hend hapart⟩

/-- The loop over the remaining roots. -/
theorem Covers.run (running : ε) {fuel : ℕ} (hsymm : ∀ a b, b ∈ next a → a ∈ next b)
    (hclosed : ∀ a ∈ nodes, ∀ b ∈ next a, b ∈ nodes) (hadj : ∀ a ∈ nodes, adj a = .ok (next a))
    (hfuel : nodes.length ≤ fuel) (draws : α → ℕ → ℕ) :
    ∀ (rest done : List α) (acc : List α × List (List α)), (∀ n ∈ rest, n ∈ nodes) → Covers next done acc →
      ∃ acc', rest.foldlM (visitComponent adj running fuel draws) acc = .ok acc' ∧ Covers next (done ++ rest) acc'
  | [], done, acc, _, h => ⟨acc, rfl, by rw [List.append_nil]; exact h⟩
  | root :: rest, done, acc, hrest, h => by
    obtain ⟨acc₁, hvisit, h₁⟩ := h.visit running hsymm hclosed hadj hfuel draws (hrest root (List.mem_cons_self ..))
    obtain ⟨acc₂, hfold, h₂⟩ := Covers.run running hsymm hclosed hadj hfuel draws rest (done ++ [root]) acc₁
      (fun n hn => hrest n (List.mem_cons_of_mem _ hn)) h₁
    exact ⟨acc₂, by rw [List.foldlM_cons, hvisit]; exact hfold, by rw [List.append_cons]; exact h₂⟩

/-- In a symmetric graph on `nodes` the search ends, lists every node once, and lists two nodes
together exactly when one reaches the other, whatever the order of the nodes and the draws. -/
theorem components_spec (running : ε) {fuel : ℕ} (hsymm : ∀ a b, b ∈ next a → a ∈ next b)
    (hclosed : ∀ a ∈ nodes, ∀ b ∈ next a, b ∈ nodes) (hadj : ∀ a ∈ nodes, adj a = .ok (next a))
    (hfuel : nodes.length ≤ fuel) (draws : α → ℕ → ℕ) :
    ∃ groups, components adj running fuel draws nodes = .ok groups ∧ groups.flatten.Nodup ∧
      (∀ n, n ∈ groups.flatten ↔ n ∈ nodes) ∧
      (∀ a ∈ nodes, ∀ b ∈ nodes, (∃ c ∈ groups, a ∈ c ∧ b ∈ c) ↔ Reaches next a b) ∧
      ∀ c ∈ groups, ∃ r ∈ nodes, ∀ n, n ∈ c ↔ Reaches next r n := by
  have hstart : Covers next [] ([], []) := ⟨fun n => by simp, fun n => by simp, List.nodup_nil, fun c hc => by cases hc⟩
  obtain ⟨acc, hfold, h⟩ := Covers.run running hsymm hclosed hadj hfuel draws nodes [] _ (fun n hn => hn) hstart
  rw [List.nil_append] at h
  have hmem : ∀ n, n ∈ acc.2.flatten ↔ n ∈ nodes := fun n => by
    rw [h.reached]
    constructor
    · rintro ⟨r, hr, hrn⟩; exact hrn.mem hclosed hr
    · intro hn; exact ⟨n, hn, .refl⟩
  refine ⟨acc.2, by unfold components; rw [hfold]; rfl, h.nodup, hmem, fun a ha b hb => ?_, h.group⟩
  constructor
  · rintro ⟨c, hc, hac, hbc⟩
    obtain ⟨r, -, hr⟩ := h.group c hc
    exact (Reaches.symm hsymm ((hr a).1 hac)).trans ((hr b).1 hbc)
  · intro hab
    obtain ⟨c, hc, hac⟩ := List.mem_flatten.1 ((hmem a).2 ha)
    obtain ⟨r, -, hr⟩ := h.group c hc
    exact ⟨c, hc, hac, (hr b).2 (((hr a).1 hac).trans hab)⟩

end

end Grip.Base
