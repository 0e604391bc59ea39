/-
What an optimal plan of `manage_island` does. Of the units at an interval one may give more power while another takes it:
the plan stays feasible where both have room, and the objective changes by what the power costs the one and is worth to the
other. At an optimum no such transfer gains, so power goes to the unit it is worth most to: the load before any store, and
the stores before it is left unused.
-/
import GripAbsorption.Dispatch.Row

namespace Grip.Dispatch

open Function

universe u

variable {K : Type u} [Field K] [LinearOrder K] {nsolar ngens nbatt : ℕ}

/-- A feasible plan of the least objective. -/
structure Optimal (d : IslandModel K nsolar ngens nbatt) (x : Plan K nsolar ngens nbatt) : Prop where
  feasible : Feasible d x
  least : ∀ y, Feasible d y → objective d x ≤ objective d y

/-! ## Units -/

/-- What gives or takes power at an interval; load that is shed gives it. -/
inductive PowerUnit (nsolar ngens nbatt : ℕ)
  | solar (s : Fin nsolar)
  | gen (g : Fin ngens)
  | batt (b : Fin nbatt)
  | virt
  | shed
  deriving DecidableEq

/-- A store that is lower by `e` after the interval `k`. -/
def lowered (k : ℕ) (e : K) (f : ℕ → K) : ℕ → K := fun j => if k < j then f j - e else f j

namespace Plan

/-- The plan in which a unit gives `p` more at the interval `k`. What a battery gives is missing from it later, and what the
virtual battery gives may be missing from the comfort floor. -/
def give (x : Plan K nsolar ngens nbatt) (deltaT : K) (k : ℕ) (p : K) : PowerUnit nsolar ngens nbatt → Plan K nsolar ngens nbatt
  | .solar s => { x with Ps := update x.Ps s (update (x.Ps s) k (x.Ps s k + p)) }
  | .gen g => { x with Pg := update x.Pg g (update (x.Pg g) k (x.Pg g k + p)) }
  | .batt b =>
    { x with
      Pb := update x.Pb b (update (x.Pb b) k (x.Pb b k - p))
      Eb := update x.Eb b (lowered k (p * deltaT) (x.Eb b)) }
  | .virt =>
    { x with
      Pvb := update x.Pvb k (x.Pvb k - p)
      Evb := lowered k (p * deltaT) x.Evb
      custComfort := lowered k (max 0 (p * deltaT)) x.custComfort }
  | .shed => { x with Dshed := update x.Dshed k (x.Dshed k + p) }

omit [LinearOrder K] in
/-- What the units give at an interval, in all. -/
def net (x : Plan K nsolar ngens nbatt) (k : ℕ) : K :=
  ∑ g, x.Pg g k + ∑ s, x.Ps s k + x.Dshed k - x.Pvb k - ∑ b, x.Pb b k

end Plan

/-- The constraints on one unit. -/
def Within (d : IslandModel K nsolar ngens nbatt) (x : Plan K nsolar ngens nbatt) : PowerUnit nsolar ngens nbatt → Prop
  | .solar s => ∀ k ∈ Finset.Icc 1 d.horizon, 0 ≤ x.Ps s k ∧ x.Ps s k ≤ d.pSolar s k
  | .gen g => ∀ k ∈ Finset.Icc 1 d.horizon, 0 ≤ x.Pg g k ∧ x.Pg g k ≤ d.pmaxGens g
  | .batt b =>
    (∀ k ∈ Finset.Icc 1 d.horizon, -d.pmaxBattery b ≤ x.Pb b k ∧ x.Pb b k ≤ d.pmaxBattery b) ∧
    (∀ k ∈ Finset.Icc 1 (d.horizon + 1), 0 ≤ x.Eb b k ∧ x.Eb b k ≤ d.emaxBattery b) ∧ x.Eb b 1 = d.e0Battery b ∧
    ∀ k ∈ Finset.Icc 1 d.horizon, x.Eb b (k + 1) = x.Eb b k + x.Pb b k * d.deltaT
  | .virt =>
    (∀ k ∈ Finset.Icc 1 d.horizon, 0 ≤ x.Pvb k ∧ x.Pvb k ≤ d.pmaxVirtualb k) ∧
    (∀ k ∈ Finset.Icc 1 (d.horizon + 1), x.custComfort k ≤ 0 ∧ 0 + x.custComfort k ≤ x.Evb k ∧ x.Evb k ≤ entry d.emaxOp 1) ∧
    x.Evb 1 = entry d.e0Virtualb 1 ∧ ∀ k ∈ Finset.Icc 1 d.horizon,
      x.Evb (k + 1) = efficiency * x.Evb k + x.Pvb k * d.deltaT - d.flexLoad k * d.deltaT
  | .shed => ∀ k ∈ Finset.Icc 1 d.horizon, 0 ≤ x.Dshed k ∧ x.Dshed k ≤ d.nonflexLoad k

variable {d : IslandModel K nsolar ngens nbatt} {x : Plan K nsolar ngens nbatt} {k : ℕ} {p : K}
  {r q : PowerUnit nsolar ngens nbatt}

/-- The constraints are those on the units and the balance. -/
theorem feasible_iff : Feasible d x ↔ (∀ r, Within d x r) ∧ ∀ k ∈ Finset.Icc 1 d.horizon, x.net k = d.nonflexLoad k := by
  constructor
  · refine fun h => ⟨fun r => ?_, fun k hk => ?_⟩
    · cases r with
      | solar s => exact h.ps s
      | gen g => exact h.pg g
      | batt b => exact ⟨h.pb b, h.eb b, h.ebStart b, h.ebNext b⟩
      | virt => exact ⟨h.pvb, fun k hk => ⟨h.custComfort k hk, h.ccomf k hk, h.evb k hk⟩, h.evbStart, h.evbNext⟩
      | shed => exact h.dshed
    · unfold Plan.net
      rw [h.balance k hk]
      ring
  · rintro ⟨h, hnet⟩
    obtain ⟨hpvb, hvirt, hstart, hnext⟩ := h .virt
    exact ⟨fun s => h (.solar s), fun g => h (.gen g), fun b => (h (.batt b)).1, hpvb, h .shed, fun b => (h (.batt b)).2.1,
      fun b => (h (.batt b)).2.2.1, fun b => (h (.batt b)).2.2.2, fun k hk => (hvirt k hk).1, fun k hk => (hvirt k hk).2.1,
      fun k hk => (hvirt k hk).2.2, hstart, hnext, fun k hk => by rw [← hnet k hk]; unfold Plan.net; ring⟩

/-! ## One unit gives more -/

/-- The other units are not touched. -/
theorem within_give_of_ne (h : q ≠ r) : Within d (x.give d.deltaT k p r) q ↔ Within d x q := by
  cases r with
  | solar s =>
    cases q with
    | solar s' =>
      have hne : s' ≠ s := fun he => h (by rw [he])
      simp only [Within, Plan.give, update_of_ne hne]
    | _ => exact Iff.rfl
  | gen g =>
    cases q with
    | gen g' =>
      have hne : g' ≠ g := fun he => h (by rw [he])
      simp only [Within, Plan.give, update_of_ne hne]
    | _ => exact Iff.rfl
  | batt b =>
    cases q with
    | batt b' =>
      have hne : b' ≠ b := fun he => h (by rw [he])
      simp only [Within, Plan.give, update_of_ne hne]
    | _ => exact Iff.rfl
  | virt =>
    cases q with
    | virt => exact absurd rfl h
    | _ => exact Iff.rfl
  | shed =>
    cases q with
    | shed => exact absurd rfl h
    | _ => exact Iff.rfl

/-- Two units give one after the other, in either order. -/
theorem give_comm (h : r ≠ q) (deltaT p p' : K) :
    (x.give deltaT k p r).give deltaT k p' q = (x.give deltaT k p' q).give deltaT k p r := by
  cases r with
  | solar s =>
    cases q with
    | solar s' =>
      have hne : s ≠ s' := fun he => h (by rw [he])
      simp only [Plan.give, update_of_ne hne, update_of_ne hne.symm, update_comm hne]
    | _ => rfl
  | gen g =>
    cases q with
    | gen g' =>
      have hne : g ≠ g' := fun he => h (by rw [he])
      simp only [Plan.give, update_of_ne hne, update_of_ne hne.symm, update_comm hne]
    | _ => rfl
  | batt b =>
    cases q with
    | batt b' =>
      have hne : b ≠ b' := fun he => h (by rw [he])
      simp only [Plan.give, update_of_ne hne, update_of_ne hne.symm, update_comm hne]
    | _ => rfl
  | virt =>
    cases q with
    | virt => exact absurd rfl h
    | _ => rfl
  | shed =>
    cases q with
    | shed => exact absurd rfl h
    | _ => rfl

omit [LinearOrder K] in
theorem sum_update {n : ℕ} (f : Fin n → ℕ → K) (i : Fin n) (k j : ℕ) (v : K) :
    ∑ m, update f i (update (f i) k (f i k + v)) m j = ∑ m, f m j + if j = k then v else 0 := by
  have hterm : ∀ m, update f i (update (f i) k (f i k + v)) m j = f m j + if m = i then (if j = k then v else 0) else 0 := by
    intro m
    by_cases hm : m = i
    · subst hm
      by_cases hj : j = k
      · subst hj; simp
      · simp [hj]
    · simp [hm]
  rw [Finset.sum_congr rfl fun m _ => hterm m, Finset.sum_add_distrib, Finset.sum_ite_eq' Finset.univ i]
  simp

/-- The units give `p` more at the interval, and what they gave at the others. -/
theorem net_give (j : ℕ) : (x.give d.deltaT k p r).net j = x.net j + if j = k then p else 0 := by
  unfold Plan.net
  cases r with
  | solar s => simp only [Plan.give, sum_update]; ring
  | gen g => simp only [Plan.give, sum_update]; ring
  | batt b =>
    simp only [Plan.give, sub_eq_add_neg _ p, sum_update]
    split <;> ring
  | virt =>
    by_cases hj : j = k
    · subst hj
      simp only [Plan.give, update_self, if_true]
      ring
    · simp only [Plan.give, update_of_ne hj, if_neg hj, add_zero]
  | shed =>
    by_cases hj : j = k
    · subst hj
      simp only [Plan.give, update_self, if_true]
      ring
    · simp only [Plan.give, update_of_ne hj, if_neg hj, add_zero]

/-! ## Room -/

omit [LinearOrder K] in
theorem lowered_one (hk : 1 ≤ k) (e : K) (f : ℕ → K) : lowered k e f 1 = f 1 := if_neg (by omega)

omit [LinearOrder K] in
/-- A store that is charged with `g` goes on as before, after it has been charged with less at one interval. -/
theorem lowered_next {f g : ℕ → K} {j : ℕ} {deltaT c : K} (h : f (j + 1) = f j + g j * deltaT + c) :
    lowered k (p * deltaT) f (j + 1) = lowered k (p * deltaT) f j + update g k (g k - p) j * deltaT + c := by
  unfold lowered
  rcases lt_trichotomy j k with hj | rfl | hj
  · rw [if_neg (by omega), if_neg (by omega), update_of_ne (by omega), h]
  · rw [if_pos (by omega), if_neg (by omega), update_self, h]
    ring
  · rw [if_pos (by omega), if_pos hj, update_of_ne (by omega), h]
    ring

omit [Field K] [LinearOrder K] in
theorem forall_update {P : ℕ → K → Prop} {s : Finset ℕ} {f : ℕ → K} {v : K} (h : ∀ j ∈ s, P j (f j)) (hv : P k v) :
    ∀ j ∈ s, P j (update f k v j) := by
  intro j hj
  by_cases hjk : j = k
  · subst hjk
    rwa [update_self]
  · rw [update_of_ne hjk]
    exact h j hj

omit [LinearOrder K] in
theorem forall_lowered {P : K → Prop} {n : ℕ} {f : ℕ → K} {e : K} (h : ∀ j ∈ Finset.Icc 1 n, P (f j))
    (he : ∀ j ∈ Finset.Icc (k + 1) n, P (f j - e)) : ∀ j ∈ Finset.Icc 1 n, P (lowered k e f j) := by
  intro j hj
  unfold lowered
  split
  · rename_i hkj
    exact he j (Finset.mem_Icc.2 ⟨hkj, (Finset.mem_Icc.1 hj).2⟩)
  · exact h j hj

theorem within_give_batt {b : Fin nbatt} (hk : k ∈ Finset.Icc 1 d.horizon) (h : Within d x (.batt b))
    (hp : -d.pmaxBattery b ≤ x.Pb b k - p ∧ x.Pb b k - p ≤ d.pmaxBattery b)
    (he : ∀ j ∈ Finset.Icc (k + 1) (d.horizon + 1), 0 ≤ x.Eb b j - p * d.deltaT ∧ x.Eb b j - p * d.deltaT ≤ d.emaxBattery b) :
    Within d (x.give d.deltaT k p (.batt b)) (.batt b) := by
  obtain ⟨hpb, heb, hstart, hnext⟩ := h
  simp only [Within, Plan.give, update_self]
  refine ⟨forall_update (P := fun _ v => -d.pmaxBattery b ≤ v ∧ v ≤ d.pmaxBattery b) hpb hp,
    forall_lowered (P := fun v => 0 ≤ v ∧ v ≤ d.emaxBattery b) heb he, ?_, fun j hj => ?_⟩
  · rw [lowered_one (Finset.mem_Icc.1 hk).1, hstart]
  · have hc := lowered_next (k := k) (p := p) (c := 0) ((hnext j hj).trans (add_zero _).symm)
    rwa [add_zero] at hc

variable [IsStrictOrderedRing K]

/-- The comfort floor follows the virtual battery down, and stays where it is when the battery rises. -/
theorem within_give_virt (hk : k ∈ Finset.Icc 1 d.horizon) (h : Within d x .virt)
    (hp : 0 ≤ x.Pvb k - p ∧ x.Pvb k - p ≤ d.pmaxVirtualb k)
    (he : ∀ j ∈ Finset.Icc (k + 1) (d.horizon + 1), x.Evb j - p * d.deltaT ≤ entry d.emaxOp 1) :
    Within d (x.give d.deltaT k p .virt) .virt := by
  obtain ⟨hpvb, hvirt, hstart, hnext⟩ := h
  simp only [Within, Plan.give]
  refine ⟨forall_update (P := fun j v => 0 ≤ v ∧ v ≤ d.pmaxVirtualb j) hpvb hp, fun j hj => ?_, ?_, fun j hj => ?_⟩
  · obtain ⟨hzero, hfloor, hmax⟩ := hvirt j hj
    unfold lowered
    split
    · rename_i hkj
      have hlow := le_max_left 0 (p * d.deltaT)
      have hhigh := le_max_right 0 (p * d.deltaT)
      exact ⟨by linarith, by linarith, he j (Finset.mem_Icc.2 ⟨hkj, (Finset.mem_Icc.1 hj).2⟩)⟩
    · exact ⟨hzero, hfloor, hmax⟩
  · rw [lowered_one (Finset.mem_Icc.1 hk).1, hstart]
  · have hc : x.Evb (j + 1) = x.Evb j + x.Pvb j * d.deltaT + -(d.flexLoad j * d.deltaT) := by
      rw [hnext j hj, efficiency]
      ring
    rw [lowered_next hc, efficiency]
    ring

/-- A unit can give more power at the interval than it does. -/
def CanGive (d : IslandModel K nsolar ngens nbatt) (x : Plan K nsolar ngens nbatt) (k : ℕ) : PowerUnit nsolar ngens nbatt → Prop
  | .solar s => x.Ps s k < d.pSolar s k
  | .gen g => x.Pg g k < d.pmaxGens g
  | .batt b => -d.pmaxBattery b < x.Pb b k ∧ ∀ j ∈ Finset.Icc (k + 1) (d.horizon + 1), 0 < x.Eb b j
  | .virt => 0 < x.Pvb k
  | .shed => x.Dshed k < d.nonflexLoad k

/-- A unit can give less power, or take more. -/
def CanTake (d : IslandModel K nsolar ngens nbatt) (x : Plan K nsolar ngens nbatt) (k : ℕ) : PowerUnit nsolar ngens nbatt → Prop
  | .solar s => 0 < x.Ps s k
  | .gen g => 0 < x.Pg g k
  | .batt b => x.Pb b k < d.pmaxBattery b ∧ ∀ j ∈ Finset.Icc (k + 1) (d.horizon + 1), x.Eb b j < d.emaxBattery b
  | .virt => x.Pvb k < d.pmaxVirtualb k ∧ ∀ j ∈ Finset.Icc (k + 1) (d.horizon + 1), x.Evb j < entry d.emaxOp 1
  | .shed => 0 < x.Dshed k

omit [Field K] [IsStrictOrderedRing K] in
/-- Finitely many positive bounds leave room for some positive amount. -/
theorem exists_pos_le [Zero K] [NoMaxOrder K] (s : Finset ℕ) {f : ℕ → K} (h : ∀ j ∈ s, 0 < f j) : ∃ e, 0 < e ∧ ∀ j ∈ s, e ≤ f j := by
  rcases s.eq_empty_or_nonempty with rfl | hs
  · obtain ⟨e, he⟩ := exists_gt (0 : K)
    exact ⟨e, he, fun j hj => absurd hj (Finset.notMem_empty j)⟩
  · obtain ⟨i, hi, hmin⟩ := s.exists_min_image f hs
    exact ⟨f i, h i hi, hmin⟩

theorem room_give (hk : k ∈ Finset.Icc 1 d.horizon) (ht : 0 < d.deltaT) (h : Within d x r) (hr : CanGive d x k r) :
    ∃ e, 0 < e ∧ ∀ p, 0 ≤ p → p ≤ e → Within d (x.give d.deltaT k p r) r := by
  cases r with
  | solar s =>
    refine ⟨d.pSolar s k - x.Ps s k, sub_pos.2 hr, fun p hp hle => ?_⟩
    simp only [Within, Plan.give, update_self]
    exact forall_update (P := fun j v => 0 ≤ v ∧ v ≤ d.pSolar s j) h ⟨add_nonneg (h k hk).1 hp, by linarith⟩
  | gen g =>
    refine ⟨d.pmaxGens g - x.Pg g k, sub_pos.2 hr, fun p hp hle => ?_⟩
    simp only [Within, Plan.give, update_self]
    exact forall_update (P := fun _ v => 0 ≤ v ∧ v ≤ d.pmaxGens g) h ⟨add_nonneg (h k hk).1 hp, by linarith⟩
  | batt b =>
    obtain ⟨hpower, henergy⟩ := hr
    obtain ⟨m, hm, hmin⟩ := exists_pos_le _ henergy
    refine ⟨min (x.Pb b k + d.pmaxBattery b) (m / d.deltaT), lt_min (by linarith) (div_pos hm ht), fun p hp hle => ?_⟩
    have hrate := hle.trans (min_le_left ..)
    have hstore : p * d.deltaT ≤ m := (le_div_iff₀ ht).1 (hle.trans (min_le_right ..))
    have hpos : 0 ≤ p * d.deltaT := mul_nonneg hp ht.le
    refine within_give_batt hk h ⟨by linarith, by linarith [(h.1 k hk).2]⟩ fun j hj => ?_
    have hj' : j ∈ Finset.Icc 1 (d.horizon + 1) := Finset.Icc_subset_Icc_left (by omega) hj
    exact ⟨by linarith [hmin j hj], by linarith [(h.2.1 j hj').2]⟩
  | virt =>
    refine ⟨x.Pvb k, hr, fun p hp hle => within_give_virt hk h ⟨by linarith, by linarith [(h.1 k hk).2]⟩ fun j hj => ?_⟩
    have hj' : j ∈ Finset.Icc 1 (d.horizon + 1) := Finset.Icc_subset_Icc_left (by omega) hj
    linarith [(h.2.1 j hj').2.2, mul_nonneg hp ht.le]
  | shed =>
    refine ⟨d.nonflexLoad k - x.Dshed k, sub_pos.2 hr, fun p hp hle => ?_⟩
    simp only [Within, Plan.give]
    exact forall_update (P := fun j v => 0 ≤ v ∧ v ≤ d.nonflexLoad j) h ⟨add_nonneg (h k hk).1 hp, by linarith⟩

theorem room_take (hk : k ∈ Finset.Icc 1 d.horizon) (ht : 0 < d.deltaT) (h : Within d x r) (hr : CanTake d x k r) :
    ∃ e, 0 < e ∧ ∀ p, 0 ≤ p → p ≤ e → Within d (x.give d.deltaT k (-p) r) r := by
  cases r with
  | solar s =>
    refine ⟨x.Ps s k, hr, fun p hp hle => ?_⟩
    simp only [Within, Plan.give, update_self]
    exact forall_update (P := fun j v => 0 ≤ v ∧ v ≤ d.pSolar s j) h ⟨by linarith, by linarith [(h k hk).2]⟩
  | gen g =>
    refine ⟨x.Pg g k, hr, fun p hp hle => ?_⟩
    simp only [Within, Plan.give, update_self]
    exact forall_update (P := fun _ v => 0 ≤ v ∧ v ≤ d.pmaxGens g) h ⟨by linarith, by linarith [(h k hk).2]⟩
  | batt b =>
    obtain ⟨hpower, henergy⟩ := hr
    obtain ⟨m, hm, hmin⟩ := exists_pos_le _ fun j hj => sub_pos.2 (henergy j hj)
    refine ⟨min (d.pmaxBattery b - x.Pb b k) (m / d.deltaT), lt_min (sub_pos.2 hpower) (div_pos hm ht), fun p hp hle => ?_⟩
    have hrate := hle.trans (min_le_left ..)
    have hstore : p * d.deltaT ≤ m := (le_div_iff₀ ht).1 (hle.trans (min_le_right ..))
    have hpos : 0 ≤ p * d.deltaT := mul_nonneg hp ht.le
    refine within_give_batt hk h ⟨by linarith [(h.1 k hk).1], by linarith⟩ fun j hj => ?_
    have hj' : j ∈ Finset.Icc 1 (d.horizon + 1) := Finset.Icc_subset_Icc_left (by omega) hj
    rw [neg_mul, sub_neg_eq_add]
    exact ⟨by linarith [(h.2.1 j hj').1], by linarith [hmin j hj]⟩
  | virt =>
    obtain ⟨hpower, henergy⟩ := hr
    obtain ⟨m, hm, hmin⟩ := exists_pos_le _ fun j hj => sub_pos.2 (henergy j hj)
    refine ⟨min (d.pmaxVirtualb k - x.Pvb k) (m / d.deltaT), lt_min (sub_pos.2 hpower) (div_pos hm ht), fun p hp hle => ?_⟩
    have hrate := hle.trans (min_le_left ..)
    have hstore : p * d.deltaT ≤ m := (le_div_iff₀ ht).1 (hle.trans (min_le_right ..))
    refine within_give_virt hk h ⟨by linarith [(h.1 k hk).1], by linarith⟩ fun j hj => ?_
    rw [neg_mul, sub_neg_eq_add]
    linarith [hmin j hj]
  | shed =>
    refine ⟨x.Dshed k, hr, fun p hp hle => ?_⟩
    simp only [Within, Plan.give]
    exact forall_update (P := fun j v => 0 ≤ v ∧ v ≤ d.nonflexLoad j) h ⟨by linarith, by linarith [(h k hk).2]⟩

/-! ## Prices -/

/-- The weight of what is stored, and of the comfort floor. -/
def storeVal : K := ((9 : ℕ) : K) / ((10 : ℕ) : K)

/-- What energy from a unit costs. A store has less of it at the end; from the virtual battery it is missing from the comfort
floor at every interval that is left as well. -/
def price (d : IslandModel K nsolar ngens nbatt) (k : ℕ) : PowerUnit nsolar ngens nbatt → K
  | .solar _ | .gen _ => 0
  | .batt _ => storeVal
  | .virt => storeVal * ((d.horizon + 2 - k : ℕ) : K)
  | .shed => ((1000 : ℕ) : K)

/-- What energy is worth that a unit takes. -/
def worth : PowerUnit nsolar ngens nbatt → K
  | .solar _ | .gen _ => 0
  | .batt _ | .virt => storeVal
  | .shed => ((1000 : ℕ) : K)

omit [LinearOrder K] [IsStrictOrderedRing K] in
theorem sum_update_of_mem (f : ℕ → K) {s : Finset ℕ} (hk : k ∈ s) (v : K) :
    ∑ j ∈ s, update f k (f k + v) j = ∑ j ∈ s, f j + v := by
  have hterm : ∀ j ∈ s, update f k (f k + v) j = f j + if j = k then v else 0 := by
    intro j _
    by_cases hj : j = k
    · subst hj; simp
    · simp [hj]
  rw [Finset.sum_congr rfl hterm, Finset.sum_add_distrib, Finset.sum_ite_eq' s k, if_pos hk]

omit [LinearOrder K] [IsStrictOrderedRing K] in
theorem sum_lowered (f : ℕ → K) (e : K) (n : ℕ) :
    ∑ j ∈ Finset.Icc 1 n, lowered k e f j = ∑ j ∈ Finset.Icc 1 n, f j - ((n - k : ℕ) : K) * e := by
  have hterm : ∀ j ∈ Finset.Icc 1 n, lowered k e f j = f j - if k < j then e else 0 := by
    intro j _
    unfold lowered
    split <;> simp
  have hlater : (Finset.Icc 1 n).filter (k < ·) = Finset.Ioc k n := by
    ext j
    simp only [Finset.mem_filter, Finset.mem_Icc, Finset.mem_Ioc]
    omega
  rw [Finset.sum_congr rfl hterm, Finset.sum_sub_distrib, ← Finset.sum_filter, hlater, Finset.sum_const, Nat.card_Ioc,
    nsmul_eq_mul]

omit [IsStrictOrderedRing K] in
/-- What the objective gains when a unit gives `p` more. -/
theorem objective_give (hk : k ∈ Finset.Icc 1 d.horizon) : objective d (x.give d.deltaT k p r) = objective d x + match r with
    | .solar _ | .gen _ => 0
    | .batt _ => storeVal * (p * d.deltaT)
    | .virt => storeVal * (p * d.deltaT) + storeVal * (((d.horizon + 1 - k : ℕ) : K) * max 0 (p * d.deltaT))
    | .shed => ((1000 : ℕ) : K) * (p * d.deltaT) := by
  have hlast : k < d.horizon + 1 := Nat.lt_succ_of_le (Finset.mem_Icc.1 hk).2
  cases r with
  | solar s => exact (add_zero _).symm
  | gen g => exact (add_zero _).symm
  | batt b =>
    have hsum : ∑ m, update x.Eb b (lowered k (p * d.deltaT) (x.Eb b)) m (d.horizon + 1) =
        ∑ m, x.Eb m (d.horizon + 1) - p * d.deltaT := by
      have hterm : ∀ m, update x.Eb b (lowered k (p * d.deltaT) (x.Eb b)) m (d.horizon + 1) =
          x.Eb m (d.horizon + 1) - if m = b then p * d.deltaT else 0 := by
        intro m
        by_cases hm : m = b
        · subst hm
          rw [update_self, lowered, if_pos hlast, if_pos rfl]
        · rw [update_of_ne hm, if_neg hm, sub_zero]
      rw [Finset.sum_congr rfl fun m _ => hterm m, Finset.sum_sub_distrib, Finset.sum_ite_eq' Finset.univ b]
      simp
    simp only [objective, Plan.give, hsum, storeVal]
    ring
  | virt =>
    have hend : lowered k (p * d.deltaT) x.Evb (d.horizon + 1) = x.Evb (d.horizon + 1) - p * d.deltaT := if_pos hlast
    simp only [objective, Plan.give, hend, sum_lowered, storeVal]
    ring
  | shed =>
    simp only [objective, Plan.give, sum_update_of_mem x.Dshed hk]
    ring

omit [IsStrictOrderedRing K] in
theorem objective_give_pos (hk : k ∈ Finset.Icc 1 d.horizon) (hp : 0 ≤ p * d.deltaT) :
    objective d (x.give d.deltaT k p r) = objective d x + price d k r * (p * d.deltaT) := by
  rw [objective_give hk]
  cases r with
  | virt =>
    have hle := (Finset.mem_Icc.1 hk).2
    have hcast : ((d.horizon + 2 - k : ℕ) : K) = ((d.horizon + 1 - k : ℕ) : K) + 1 := by
      rw [← Nat.cast_succ, Nat.succ_eq_add_one]
      congr 1
      omega
    simp only [max_eq_right hp, price, hcast]
    ring
  | _ => simp only [price, zero_mul]

theorem objective_give_neg (hk : k ∈ Finset.Icc 1 d.horizon) (hp : 0 ≤ p * d.deltaT) :
    objective d (x.give d.deltaT k (-p) r) = objective d x - worth r * (p * d.deltaT) := by
  rw [objective_give hk, neg_mul]
  cases r with
  | virt =>
    simp only [max_eq_left (neg_nonpos.2 hp), worth]
    ring
  | _ =>
    simp only [worth]
    ring

/-! ## The order of merit -/

/-- At an optimum no unit could give power to another that it is worth more to. -/
theorem Optimal.merit_order (h : Optimal d x) (ht : 0 < d.deltaT) (hk : k ∈ Finset.Icc 1 d.horizon) (hne : r ≠ q)
    (hr : CanGive d x k r) (hq : CanTake d x k q) : worth q ≤ price d k r := by
  obtain ⟨hwithin, hnet⟩ := feasible_iff.1 h.feasible
  obtain ⟨e, he, hgive⟩ := room_give hk ht (hwithin r) hr
  obtain ⟨e', he', htake⟩ := room_take hk ht (hwithin q) hq
  -- the transfer of what both have room for
  obtain ⟨p, hp, hpe, hpe'⟩ : ∃ p, 0 < p ∧ p ≤ e ∧ p ≤ e' := ⟨min e e', lt_min he he', min_le_left .., min_le_right ..⟩
  have henergy : 0 < p * d.deltaT := mul_pos hp ht
  have hfeasible : Feasible d ((x.give d.deltaT k p r).give d.deltaT k (-p) q) := by
    refine feasible_iff.2 ⟨fun u => ?_, fun j hj => ?_⟩
    · by_cases huq : u = q
      · subst huq
        rw [give_comm hne, within_give_of_ne hne.symm]
        exact htake p hp.le hpe'
      · rw [within_give_of_ne huq]
        by_cases hur : u = r
        · subst hur
          exact hgive p hp.le hpe
        · exact (within_give_of_ne hur).2 (hwithin u)
    · rw [net_give, net_give, ← hnet j hj]
      split <;> ring
  have hcost := h.least _ hfeasible
  rw [objective_give_neg hk henergy.le, objective_give_pos hk henergy.le] at hcost
  refine le_of_mul_le_mul_right ?_ henergy
  linarith

/-! ## What an optimal plan does -/

/-- What the plan does at an interval. Load is shed only when all generators and solar panels give what they can, and each
battery gives its most or is empty at some later time; and the virtual battery then draws nothing, when not too many
intervals are left for the comfort floor to weigh more. A generator or solar panel gives less than it can only when no load
is shed and every store takes its most or is full at some later time. -/
structure Economical (d : IslandModel K nsolar ngens nbatt) (x : Plan K nsolar ngens nbatt) (k : ℕ) : Prop where
  sources : 0 < x.Dshed k → (∀ s, x.Ps s k = d.pSolar s k) ∧ ∀ g, x.Pg g k = d.pmaxGens g
  batteries : 0 < x.Dshed k → ∀ b, x.Pb b k = -d.pmaxBattery b ∨
    ∃ j ∈ Finset.Icc (k + 1) (d.horizon + 1), x.Eb b j = 0
  virtual : 0 < x.Dshed k → 9 * (d.horizon + 2 - k) < 10000 → x.Pvb k = 0
  unused : (∃ s, x.Ps s k < d.pSolar s k) ∨ (∃ g, x.Pg g k < d.pmaxGens g) → x.Dshed k = 0 ∧
    (∀ b, x.Pb b k = d.pmaxBattery b ∨ ∃ j ∈ Finset.Icc (k + 1) (d.horizon + 1), x.Eb b j = d.emaxBattery b) ∧
    (x.Pvb k = d.pmaxVirtualb k ∨ ∃ j ∈ Finset.Icc (k + 1) (d.horizon + 1), x.Evb j = entry d.emaxOp 1)
  comfort : x.custComfort k = min 0 (x.Evb k)

theorem storeVal_pos : (0 : K) < storeVal := div_pos (Nat.cast_pos.2 (by omega)) (Nat.cast_pos.2 (by omega))

/-- What is stored weighs less than load that is shed, over as long as `9 * n < 10000`. -/
theorem storeVal_mul_lt {n : ℕ} (h : 9 * n < 10000) : storeVal * (n : K) < ((1000 : ℕ) : K) := by
  rw [storeVal, div_mul_eq_mul_div, div_lt_iff₀ (Nat.cast_pos.2 (by omega)), ← Nat.cast_mul, ← Nat.cast_mul]
  exact Nat.cast_lt.2 (by omega)

namespace Optimal

/-- The comfort floor is as high as it can be. -/
theorem custComfort_eq (h : Optimal d x) (hk : k ∈ Finset.Icc 1 (d.horizon + 1)) : x.custComfort k = min 0 (x.Evb k) := by
  have hle : ∀ j ∈ Finset.Icc 1 (d.horizon + 1), x.custComfort j ≤ min 0 (x.Evb j) := fun j hj =>
    le_min (h.feasible.custComfort j hj) (by simpa using h.feasible.ccomf j hj)
  have hfeasible : Feasible d { x with custComfort := fun j => min 0 (x.Evb j) } :=
    { h.feasible with
      custComfort := fun j _ => min_le_left ..
      ccomf := fun j _ => by rw [zero_add]; exact min_le_right .. }
  have hcost := h.least _ hfeasible
  have hsum : ∑ j ∈ Finset.Icc 1 (d.horizon + 1), min 0 (x.Evb j) ≤ ∑ j ∈ Finset.Icc 1 (d.horizon + 1), x.custComfort j := by
    refine le_of_mul_le_mul_left ?_ (storeVal_pos (K := K))
    simp only [objective] at hcost
    unfold storeVal
    linarith
  exact (Finset.sum_eq_sum_iff_of_le hle).1 (le_antisymm (Finset.sum_le_sum hle) hsum) k hk

/-- No unit gives power while load is shed, unless it is priced above it. -/
theorem shed_last (h : Optimal d x) (ht : 0 < d.deltaT) (hk : k ∈ Finset.Icc 1 d.horizon) (hne : r ≠ .shed)
    (hprice : price d k r < ((1000 : ℕ) : K)) (hshed : 0 < x.Dshed k) : ¬ CanGive d x k r := fun hr =>
  hprice.not_ge (h.merit_order ht hk hne hr (q := .shed) hshed)

/-- No generator or solar panel has power left while a unit could take it that it is worth something to. -/
theorem free_first (h : Optimal d x) (ht : 0 < d.deltaT) (hk : k ∈ Finset.Icc 1 d.horizon) (hprice : price d k r = 0)
    (hr : CanGive d x k r) (hq : 0 < worth (K := K) q) (hne : r ≠ q) : ¬ CanTake d x k q := fun htake =>
  hq.not_ge ((h.merit_order ht hk hne hr htake).trans_eq hprice)

/-- The virtual battery draws nothing while load is shed. -/
theorem virtual_idle (h : Optimal d x) (ht : 0 < d.deltaT) (hk : k ∈ Finset.Icc 1 d.horizon) (hshed : 0 < x.Dshed k)
    (hlen : 9 * (d.horizon + 2 - k) < 10000) : x.Pvb k = 0 := by
  by_contra hv
  refine h.shed_last ht hk (r := .virt) (by simp) (storeVal_mul_lt hlen) hshed ?_
  exact lt_of_le_of_ne (h.feasible.pvb k hk).1 (Ne.symm hv)

/-- At every interval an optimal plan is economical. -/
theorem economical (h : Optimal d x) (ht : 0 < d.deltaT) (hk : k ∈ Finset.Icc 1 d.horizon) : Economical d x k := by
  have hk' : k ∈ Finset.Icc 1 (d.horizon + 1) := Finset.Icc_subset_Icc_right (by omega) hk
  have hshedPos : (0 : K) < ((1000 : ℕ) : K) := Nat.cast_pos.2 (by omega)
  have hbatt : storeVal < ((1000 : ℕ) : K) := by simpa using storeVal_mul_lt (K := K) (n := 1) (by omega)
  constructor
  case sources =>
    refine fun hshed => ⟨fun s => ?_, fun g => ?_⟩
    · exact eq_of_le_of_not_lt (h.feasible.ps s k hk).2 (h.shed_last ht hk (r := .solar s) (by simp) hshedPos hshed)
    · exact eq_of_le_of_not_lt (h.feasible.pg g k hk).2 (h.shed_last ht hk (r := .gen g) (by simp) hshedPos hshed)
  case batteries =>
    intro hshed b
    by_contra hb
    push Not at hb
    refine h.shed_last ht hk (r := .batt b) (by simp) hbatt hshed ⟨?_, fun j hj => ?_⟩
    · exact lt_of_le_of_ne (h.feasible.pb b k hk).1 (Ne.symm hb.1)
    · exact lt_of_le_of_ne (h.feasible.eb b j (Finset.Icc_subset_Icc_left (by omega) hj)).1 (Ne.symm (hb.2 j hj))
  case virtual => exact fun hshed hlen => h.virtual_idle ht hk hshed hlen
  case unused =>
    intro hspare
    -- what has power left costs nothing
    obtain ⟨r, hr, hprice, hfree⟩ : ∃ r, CanGive d x k r ∧ price d k r = 0 ∧ ∀ q, worth (K := K) q ≠ 0 → r ≠ q := by
      rcases hspare with ⟨s, hs⟩ | ⟨g, hg⟩
      · exact ⟨.solar s, hs, rfl, fun q hq hrq => hq (by rw [← hrq]; rfl)⟩
      · exact ⟨.gen g, hg, rfl, fun q hq hrq => hq (by rw [← hrq]; rfl)⟩
    have hno : ∀ q, 0 < worth (K := K) q → ¬ CanTake d x k q := fun q hq =>
      h.free_first ht hk hprice hr hq (hfree q hq.ne')
    refine ⟨?_, fun b => ?_, ?_⟩
    · exact (eq_of_le_of_not_lt (h.feasible.dshed k hk).1 (hno .shed hshedPos)).symm
    · by_contra hb
      push Not at hb
      refine hno (.batt b) storeVal_pos ⟨lt_of_le_of_ne (h.feasible.pb b k hk).2 hb.1, fun j hj => ?_⟩
      exact lt_of_le_of_ne (h.feasible.eb b j (Finset.Icc_subset_Icc_left (by omega) hj)).2 (hb.2 j hj)
    · by_contra hv
      push Not at hv
      refine hno .virt storeVal_pos ⟨lt_of_le_of_ne (h.feasible.pvb k hk).2 hv.1, fun j hj => ?_⟩
      exact lt_of_le_of_ne (h.feasible.evb j (Finset.Icc_subset_Icc_left (by omega) hj)) (hv.2 j hj)
  case comfort => exact h.custComfort_eq hk'

end Optimal

/-- An island with 3 kW of load, a solar panel of 1 kW and an empty battery, two baseline rows three minutes apart. -/
def dimArgs : ManageArgs ℚ 1 0 1 where
  t0 := ⟨0, "-04:00"⟩
  tInc := 3
  island := "101"
  loadBaseline := [⟨⟨0, "-04:00"⟩, 0, 3⟩, ⟨⟨180, "-04:00"⟩, 0, 3⟩]
  solarNames := fun _ => "solar_101"
  psBaseline := [fun _ => 1, fun _ => 1]
  gens := []
  pmaxGens := fun _ => 0
  batteries := ["battery_101"]
  pmaxBattery := fun _ => 5
  e0Battery := fun _ => 0
  emaxBattery := fun _ => 6
  e0Virtualb := [4]
  emaxVirtualb := [10]

/-- Its model. -/
def dimIsland : IslandModel ℚ 1 0 1 where
  horizon := 2
  nonflexLoad := entry [3, 3]
  flexLoad := entry [0, 0]
  pSolar := fun _ => entry [1, 1]
  pmaxGens := fun _ => 0
  pmaxBattery := fun _ => 5
  e0Battery := fun _ => 0
  emaxBattery := fun _ => 6
  e0Virtualb := [4]
  emaxVirtualb := [10]
  deltaT := (180 : ℤ) / ((60 : ℕ) : ℚ) / ((60 : ℕ) : ℚ)

theorem dimArgs_model : buildModel dimArgs = .ok dimIsland := rfl

/-- The panel serves what it can. -/
def dimPlan : Plan ℚ 1 0 1 where
  Ps := fun _ _ => 1
  Pg := fun _ _ => 0
  Pb := fun _ _ => 0
  Pvb := fun _ => 0
  Dshed := fun _ => 2
  Eb := fun _ _ => 0
  Evb := fun _ => 4
  custComfort := fun _ => 0

/-- What the battery would give it must have been charged with before, at the cost of more shed. -/
theorem dimPlan_optimal : Optimal dimIsland dimPlan := by
  refine ⟨by decide +kernel, fun y hy => ?_⟩
  have hone : 1 ∈ Finset.Icc 1 dimIsland.horizon := by decide
  have htwo : 2 ∈ Finset.Icc 1 dimIsland.horizon := by decide
  have hdata : ∀ k ∈ Finset.Icc 1 dimIsland.horizon, dimIsland.nonflexLoad k = 3 ∧ dimIsland.flexLoad k = 0 ∧
      dimIsland.pmaxVirtualb k = 0 ∧ dimIsland.pSolar 0 k = 1 := by decide +kernel
  have hstep : dimIsland.deltaT = 1 / 20 := by decide +kernel
  have hshed : ∀ k ∈ Finset.Icc 1 dimIsland.horizon, y.Pvb k = 0 ∧ 2 + y.Pb 0 k ≤ y.Dshed k := fun k hk => by
    obtain ⟨hload, -, hmax, hpanel⟩ := hdata k hk
    have hbalance := hy.balance k hk
    have hsolar := (hy.ps 0 k hk).2
    have hvirt : y.Pvb k = 0 := le_antisymm ((hy.pvb k hk).2.trans_eq hmax) (hy.pvb k hk).1
    simp only [Fin.sum_univ_one, Fin.sum_univ_zero, hvirt, hload] at hbalance
    exact ⟨hvirt, by linarith⟩
  have hbatt : y.Eb 0 3 = (y.Pb 0 1 + y.Pb 0 2) * (1 / 20) := by
    have hfirst : y.Eb 0 2 = y.Eb 0 1 + y.Pb 0 1 * _ := hy.ebNext 0 1 hone
    have hsecond : y.Eb 0 3 = y.Eb 0 2 + y.Pb 0 2 * _ := hy.ebNext 0 2 htwo
    have hstart : y.Eb 0 1 = 0 := hy.ebStart 0
    rw [hsecond, hfirst, hstart, hstep]
    ring
  have hvirt : y.Evb 3 = 4 := by
    have hfirst : y.Evb 2 = 1 * y.Evb 1 + y.Pvb 1 * _ - _ * _ := hy.evbNext 1 hone
    have hsecond : y.Evb 3 = 1 * y.Evb 2 + y.Pvb 2 * _ - _ * _ := hy.evbNext 2 htwo
    have hstart : y.Evb 1 = 4 := hy.evbStart
    rw [hsecond, hfirst, hstart, (hshed 1 hone).1, (hshed 2 htwo).1, (hdata 1 hone).2.1, (hdata 2 htwo).2.1]
    ring
  have hcomfort : ∑ j ∈ Finset.Icc 1 3, y.custComfort j ≤ 0 :=
    Finset.sum_nonpos fun j hj => hy.custComfort j hj
  have hplan : objective dimIsland dimPlan = 1000 * 4 * (1 / 20) - 9 / 10 * 4 := by decide +kernel
  have hsum : ∑ k ∈ Finset.Icc 1 dimIsland.horizon, y.Dshed k = y.Dshed 1 + y.Dshed 2 := by
    rw [show Finset.Icc 1 dimIsland.horizon = {1, 2} by decide, Finset.sum_pair (by decide)]
  have hpos := (hy.eb 0 3 (by decide)).1
  rw [hplan]
  unfold objective
  rw [hsum, Fin.sum_univ_one, show dimIsland.horizon + 1 = 3 from rfl, hstep, hbatt, hvirt]
  rw [hbatt] at hpos
  push_cast
  linarith [(hshed 1 hone).2, (hshed 2 htwo).2]

/-- It sheds, with the panel in full use. -/
theorem dimPlan_economical : 0 < dimPlan.Dshed 1 ∧ Economical dimIsland dimPlan 1 :=
  ⟨by decide +kernel, dimPlan_optimal.economical (by decide +kernel) (by decide)⟩

end Grip.Dispatch
