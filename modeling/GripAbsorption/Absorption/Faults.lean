/-
`new_fault_detected` from call to call. One call scans the supernodes and makes the list of faulted nodes
agree with the flags as far as it has got; so after every call the list is that of the flags, the result
says whether that is a change, and every node that has become faulted is shut off once.
-/
import GripAbsorption.Absorption.Commit

namespace Grip.Absorption

open Grip.Base

universe u

variable {α : Type u} [DecidableEq α]

/-! ## One call -/

/-- A running scan: `faulted_nodes`, the calls of `shutoff_loads` and `faultchange`. -/
structure FaultScan (α : Type u) where
  faultedNodes : List α
  shutoff : List α
  faultchange : Bool

/-- The body of the loop over the supernodes. -/
def FaultScan.turn (fault : α → Bool) (acc : FaultScan α) (sn : α) : FaultScan α :=
  if fault sn then
    if sn ∉ acc.faultedNodes then ⟨acc.faultedNodes ++ [sn], acc.shutoff ++ [sn], true⟩ else acc
  else
    if sn ∈ acc.faultedNodes then ⟨acc.faultedNodes.filter (· ≠ sn), acc.shutoff, true⟩ else acc

/-- `new_fault_detected`, with the calls of `shutoff_loads`. -/
def scanFaults (fault : α → Bool) (supernodes faultedNodes : List α) : FaultScan α :=
  supernodes.foldl (FaultScan.turn fault) ⟨faultedNodes, [], false⟩

/-- `faulted_nodes` after calls with the given flags. -/
def faultedAfter (supernodes : List α) (calls : List (α → Bool)) : List α :=
  calls.foldl (fun faultedNodes fault => (scanFaults fault supernodes faultedNodes).faultedNodes) []

/-- The commit makes the same scan. -/
theorem Globals.newFaultDetected_eq (net : Network) (fault : ℕ → Bool) (s : Globals) : s.newFaultDetected net fault =
    ((scanFaults fault net.supernodes s.faultedNodes).faultedNodes,
      (scanFaults fault net.supernodes s.faultedNodes).faultchange) := by
  have hloop : ∀ (supernodes : List ℕ) (acc : FaultScan ℕ),
      supernodes.foldl (faultTurn fault) (acc.faultedNodes, acc.faultchange) =
        ((supernodes.foldl (FaultScan.turn fault) acc).faultedNodes,
          (supernodes.foldl (FaultScan.turn fault) acc).faultchange) := by
    intro supernodes
    induction supernodes with
    | nil => intro acc; rfl
    | cons sn supernodes ih =>
      intro acc
      have hturn : faultTurn fault (acc.faultedNodes, acc.faultchange) sn =
          ((acc.turn fault sn).faultedNodes, (acc.turn fault sn).faultchange) := by
        unfold faultTurn FaultScan.turn
        split_ifs <;> simp_all
      rw [List.foldl_cons, hturn, ih, List.foldl_cons]
  exact hloop net.supernodes ⟨s.faultedNodes, [], false⟩

/-! ## The scan -/

/-- What holds when the nodes `done` have been scanned, from the list `old`. -/
structure Scanned (fault : α → Bool) (old done : List α) (acc : FaultScan α) : Prop where
  nodup : acc.faultedNodes.Nodup
  mem : ∀ n, n ∈ acc.faultedNodes ↔ if n ∈ done then fault n = true else n ∈ old
  faultchange : acc.faultchange = true ↔ ∃ n ∈ done, ¬ (fault n = true ↔ n ∈ old)
  shutoff : ∀ n, acc.shutoff.count n = if n ∈ done ∧ fault n = true ∧ n ∉ old then 1 else 0

variable {fault : α → Bool} {old done supernodes : List α} {acc : FaultScan α} {sn : α}

theorem scanned_start (h : old.Nodup) : Scanned fault old [] ⟨old, [], false⟩ := by
  refine ⟨h, fun n => ?_, ?_, fun n => ?_⟩ <;> simp

/-- A node joins the list, leaves it, or is there already when its flag says so. -/
theorem turn_cases (fault : α → Bool) (acc : FaultScan α) (sn : α) :
    (fault sn = true ∧ sn ∉ acc.faultedNodes ∧
      acc.turn fault sn = ⟨acc.faultedNodes ++ [sn], acc.shutoff ++ [sn], true⟩) ∨
    (fault sn = false ∧ sn ∈ acc.faultedNodes ∧
      acc.turn fault sn = ⟨acc.faultedNodes.filter (· ≠ sn), acc.shutoff, true⟩) ∨
    ((fault sn = true ↔ sn ∈ acc.faultedNodes) ∧ acc.turn fault sn = acc) := by
  unfold FaultScan.turn
  by_cases hmem : sn ∈ acc.faultedNodes
  · cases hfault : fault sn with
    | true => exact .inr (.inr ⟨by simp [hmem], by simp [hmem]⟩)
    | false => exact .inr (.inl ⟨rfl, hmem, by simp [hmem]⟩)
  · cases hfault : fault sn with
    | true => exact .inl ⟨rfl, hmem, by simp [hmem]⟩
    | false => exact .inr (.inr ⟨by simp [hmem], by simp [hmem]⟩)

/-- One more node is scanned: it settles its own membership and leaves that of the others. -/
theorem Scanned.extend {acc' : FaultScan α} (h : Scanned fault old done acc) (hsn : sn ∉ done)
    (hnodup : acc'.faultedNodes.Nodup) (hother : ∀ n, n ≠ sn → (n ∈ acc'.faultedNodes ↔ n ∈ acc.faultedNodes))
    (hself : sn ∈ acc'.faultedNodes ↔ fault sn = true)
    (hchange : acc'.faultchange = true ↔ acc.faultchange = true ∨ ¬ (fault sn = true ↔ sn ∈ acc.faultedNodes))
    (hcount : ∀ n, acc'.shutoff.count n = acc.shutoff.count n + if n = sn ∧ fault sn = true ∧ sn ∉ acc.faultedNodes then 1 else 0) :
    Scanned fault old (done ++ [sn]) acc' := by
  have hold : sn ∈ acc.faultedNodes ↔ sn ∈ old := by rw [h.mem, if_neg hsn]
  have hscanned : ∀ n, n ∈ done ++ [sn] ↔ n ∈ done ∨ n = sn := fun n => by rw [List.mem_append, List.mem_singleton]
  refine ⟨hnodup, fun n => ?_, ?_, fun n => ?_⟩
  · by_cases hn : n = sn
    · subst hn
      rw [if_pos ((hscanned n).2 (.inr rfl)), hself]
    · rw [hother n hn, h.mem]
      simp only [hscanned, hn, or_false]
  · rw [hchange, h.faultchange, hold]
    simp only [List.mem_append, List.mem_singleton, or_and_right, exists_or, exists_eq_left]
  · rw [hcount, h.shutoff]
    by_cases hn : n = sn
    · subst hn
      simp only [hold, hsn, false_and, if_false, true_and, hscanned, or_true, Nat.zero_add]
    · simp only [hn, false_and, if_false, hscanned, or_false, Nat.add_zero]

theorem Scanned.turn (h : Scanned fault old done acc) (hsn : sn ∉ done) :
    Scanned fault old (done ++ [sn]) (acc.turn fault sn) := by
  rcases turn_cases fault acc sn with ⟨hfault, hmem, hturn⟩ | ⟨hfault, hmem, hturn⟩ | ⟨hiff, hturn⟩ <;> rw [hturn]
  · refine h.extend hsn ?_ (fun n hn => ?_) ?_ ?_ fun n => ?_
    · exact List.nodup_append.2 ⟨h.nodup, List.nodup_singleton sn, fun a ha b hb he => hmem (List.mem_singleton.1 hb ▸ he ▸ ha)⟩
    · rw [List.mem_append, List.mem_singleton, or_iff_left hn]
    · exact iff_of_true (by simp) hfault
    · exact iff_of_true rfl (.inr fun hiff => hmem (hiff.1 hfault))
    · rw [List.count_append, List.count_singleton]
      by_cases hn : n = sn
      · simp [hn, hfault, hmem]
      · simp [hn, Ne.symm hn]
  · refine h.extend hsn (h.nodup.filter _) (fun n hn => ?_) ?_ ?_ fun n => ?_
    · simp [hn]
    · simp [hfault]
    · exact iff_of_true rfl (.inr fun hiff => by rw [hiff.2 hmem] at hfault; cases hfault)
    · rw [if_neg fun hc => hc.2.2 hmem, Nat.add_zero]
  · refine h.extend hsn h.nodup (fun n _ => Iff.rfl) hiff.symm ?_ fun n => ?_
    · exact (or_iff_left fun hno => hno hiff).symm
    · rw [if_neg fun hc => hc.2.2 (hiff.1 hc.2.1), Nat.add_zero]

/-- A whole scan. -/
theorem scanned_scanFaults (fault : α → Bool) (hold : old.Nodup) (h : supernodes.Nodup) :
    Scanned fault old supernodes (scanFaults fault supernodes old) := by
  unfold scanFaults
  induction supernodes using List.reverseRecOn with
  | nil => exact scanned_start hold
  | append_singleton done sn ih =>
    rw [List.foldl_concat]
    have hparts := List.nodup_append.1 h
    exact (ih hparts.1).turn fun hsn => hparts.2.2 sn hsn sn (List.mem_singleton_self sn) rfl

/-- `shutoff_loads` is called on the nodes that have become faulted. -/
theorem Scanned.mem_shutoff (h : Scanned fault old done acc) (n : α) :
    n ∈ acc.shutoff ↔ (n ∈ done ∧ fault n = true) ∧ n ∉ old := by
  rw [← List.count_pos_iff, h.shutoff, and_assoc]
  split
  · rename_i hnew
    exact iff_of_true Nat.one_pos hnew
  · rename_i hnew
    exact iff_of_false (lt_irrefl 0) hnew

/-! ## Calls -/

/-- The list of faulted nodes follows the flags. -/
structure Tracks (supernodes : List α) (fault : α → Bool) (before : List α) (scan : FaultScan α) : Prop where
  nodup : scan.faultedNodes.Nodup
  mem : ∀ n, n ∈ scan.faultedNodes ↔ n ∈ supernodes ∧ fault n = true
  faultchange : scan.faultchange = true ↔ {n | n ∈ scan.faultedNodes} ≠ {n | n ∈ before}
  shutoff : ∀ n, scan.shutoff.count n = if n ∈ scan.faultedNodes ∧ n ∉ before then 1 else 0

/-- A scan from a list of supernodes tracks the flags. -/
theorem Scanned.tracks (h : Scanned fault old supernodes acc) (hold : old ⊆ supernodes) : Tracks supernodes fault old acc := by
  have hmem : ∀ n, n ∈ acc.faultedNodes ↔ n ∈ supernodes ∧ fault n = true := fun n => by
    rw [h.mem]
    by_cases hn : n ∈ supernodes
    · rw [if_pos hn, and_iff_right hn]
    · rw [if_neg hn]
      exact iff_of_false (fun ho => hn (hold ho)) fun hc => hn hc.1
  refine ⟨h.nodup, hmem, ?_, fun n => ?_⟩
  · rw [h.faultchange, ne_eq, Set.ext_iff, not_forall]
    refine exists_congr fun n => ?_
    change _ ↔ ¬ (n ∈ acc.faultedNodes ↔ n ∈ old)
    rw [hmem]
    constructor
    · rintro ⟨hn, hne⟩
      rwa [and_iff_right hn]
    · intro hne
      by_cases hn : n ∈ supernodes
      · exact ⟨hn, by rwa [and_iff_right hn] at hne⟩
      · exact absurd (iff_of_false (fun hc => hn hc.1) fun ho => hn (hold ho)) hne
  · rw [h.shutoff]
    exact if_congr (by rw [hmem, and_assoc]) rfl rfl

theorem faultedAfter_concat (supernodes : List α) (calls : List (α → Bool)) (fault : α → Bool) :
    faultedAfter supernodes (calls ++ [fault]) =
      (scanFaults fault supernodes (faultedAfter supernodes calls)).faultedNodes := by
  unfold faultedAfter
  rw [List.foldl_concat]

/-- Between calls the list has supernodes only, each once. -/
theorem faultedAfter_spec (h : supernodes.Nodup) (calls : List (α → Bool)) :
    (faultedAfter supernodes calls).Nodup ∧ faultedAfter supernodes calls ⊆ supernodes := by
  induction calls using List.reverseRecOn with
  | nil => exact ⟨List.nodup_nil, List.nil_subset _⟩
  | append_singleton calls fault ih =>
    rw [faultedAfter_concat]
    have htracks := (scanned_scanFaults fault ih.1 h).tracks ih.2
    exact ⟨htracks.nodup, fun n hn => ((htracks.mem n).1 hn).1⟩

/-- After any calls the next one tracks the flags. -/
theorem faults_tracked (h : supernodes.Nodup) (calls : List (α → Bool)) (fault : α → Bool) :
    Tracks supernodes fault (faultedAfter supernodes calls) (scanFaults fault supernodes (faultedAfter supernodes calls)) := by
  obtain ⟨hnodup, hsub⟩ := faultedAfter_spec h calls
  exact (scanned_scanFaults fault hnodup h).tracks hsub

/-- A fault at 1 clears while one at 3 appears. -/
theorem faults_tracked_three : (scanFaults (· ≠ 1) [1, 2, 3] (faultedAfter [1, 2, 3] [(· ≠ 3)])).faultchange = true ∧
    Tracks [1, 2, 3] (· ≠ 1) (faultedAfter [1, 2, 3] [(· ≠ 3)])
      (scanFaults (· ≠ 1) [1, 2, 3] (faultedAfter [1, 2, 3] [(· ≠ 3)])) :=
  ⟨by decide, faults_tracked (by decide) [(· ≠ 3)] (· ≠ 1)⟩

end Grip.Absorption
