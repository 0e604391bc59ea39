/-
The optimisation `manage_island` builds in `packetized/island_management.jl`: its data, variables,
constraints and objective. It always has a feasible point: all powers at 0, the whole nonflexible
load shed, the batteries at rest and the virtual battery discharging at the flexible load, with the
comfort floor following it down. The objective is bounded below by the battery limits.

Arrays are functions of Julia's indices, which count from 1; there is one virtual battery.
-/
import GripAbsorption.Base.Flow

namespace Grip.Dispatch

universe u

variable {K : Type u} [Field K] [LinearOrder K] {nsolar ngens nbatt : ℕ}

/-! ## Data and variables -/

/-- `xs[k]` of a Julia vector. -/
def entry (xs : List K) (k : ℕ) : K := (xs[k - 1]?).getD 0

/-- What the model is built from: series over `1..K` and one limit for each unit. -/
structure IslandModel (K : Type u) (nsolar ngens nbatt : ℕ) where
  horizon : ℕ
  nonflexLoad : ℕ → K
  flexLoad : ℕ → K
  pSolar : Fin nsolar → ℕ → K
  pmaxGens : Fin ngens → K
  pmaxBattery : Fin nbatt → K
  e0Battery : Fin nbatt → K
  emaxBattery : Fin nbatt → K
  e0Virtualb : List K
  emaxVirtualb : List K
  deltaT : K

/-- The values of the variables. -/
structure Plan (K : Type u) (nsolar ngens nbatt : ℕ) where
  Ps : Fin nsolar → ℕ → K
  Pg : Fin ngens → ℕ → K
  Pb : Fin nbatt → ℕ → K
  Pvb : ℕ → K
  Dshed : ℕ → K
  Eb : Fin nbatt → ℕ → K
  Evb : ℕ → K
  custComfort : ℕ → K

namespace IslandModel

/-- `Emax_virtualb` as the model uses it: `E0_virtualb` where that is larger (vectors are compared
lexicographically). -/
def emaxOp (d : IslandModel K nsolar ngens nbatt) : List K :=
  if d.emaxVirtualb < d.e0Virtualb then d.e0Virtualb else d.emaxVirtualb

omit [LinearOrder K] in
/-- `Pmax_virtualb`. -/
def pmaxVirtualb (d : IslandModel K nsolar ngens nbatt) (k : ℕ) : K := (2 : ℕ) * d.flexLoad k

end IslandModel

/-! ## Constraints and objective -/

def efficiency : K := 1

/-- The plan satisfies every constraint. -/
structure Feasible (d : IslandModel K nsolar ngens nbatt) (x : Plan K nsolar ngens nbatt) : Prop where
  ps : ∀ s, ∀ k ∈ Finset.Icc 1 d.horizon, 0 ≤ x.Ps s k ∧ x.Ps s k ≤ d.pSolar s k
  pg : ∀ g, ∀ k ∈ Finset.Icc 1 d.horizon, 0 ≤ x.Pg g k ∧ x.Pg g k ≤ d.pmaxGens g
  pb : ∀ b, ∀ k ∈ Finset.Icc 1 d.horizon, -d.pmaxBattery b ≤ x.Pb b k ∧ x.Pb b k ≤ d.pmaxBattery b
  pvb : ∀ k ∈ Finset.Icc 1 d.horizon, 0 ≤ x.Pvb k ∧ x.Pvb k ≤ d.pmaxVirtualb k
  dshed : ∀ k ∈ Finset.Icc 1 d.horizon, 0 ≤ x.Dshed k ∧ x.Dshed k ≤ d.nonflexLoad k
  eb : ∀ b, ∀ k ∈ Finset.Icc 1 (d.horizon + 1), 0 ≤ x.Eb b k ∧ x.Eb b k ≤ d.emaxBattery b
  ebStart : ∀ b, x.Eb b 1 = d.e0Battery b
  ebNext : ∀ b, ∀ k ∈ Finset.Icc 1 d.horizon, x.Eb b (k + 1) = x.Eb b k + x.Pb b k * d.deltaT
  custComfort : ∀ k ∈ Finset.Icc 1 (d.horizon + 1), x.custComfort k ≤ 0
  ccomf : ∀ k ∈ Finset.Icc 1 (d.horizon + 1), 0 + x.custComfort k ≤ x.Evb k
  evb : ∀ k ∈ Finset.Icc 1 (d.horizon + 1), x.Evb k ≤ entry d.emaxOp 1
  evbStart : x.Evb 1 = entry d.e0Virtualb 1
  evbNext : ∀ k ∈ Finset.Icc 1 d.horizon,
    x.Evb (k + 1) = efficiency * x.Evb k + x.Pvb k * d.deltaT - d.flexLoad k * d.deltaT
  balance : ∀ k ∈ Finset.Icc 1 d.horizon,
    ∑ g, x.Pg g k + ∑ s, x.Ps s k = d.nonflexLoad k - x.Dshed k + x.Pvb k + ∑ b, x.Pb b k

instance (d : IslandModel K nsolar ngens nbatt) (x : Plan K nsolar ngens nbatt) : Decidable (Feasible d x) :=
  decidable_of_iff ((∀ s, ∀ k ∈ Finset.Icc 1 d.horizon, 0 ≤ x.Ps s k ∧ x.Ps s k ≤ d.pSolar s k) ∧
      (∀ g, ∀ k ∈ Finset.Icc 1 d.horizon, 0 ≤ x.Pg g k ∧ x.Pg g k ≤ d.pmaxGens g) ∧
      (∀ b, ∀ k ∈ Finset.Icc 1 d.horizon, -d.pmaxBattery b ≤ x.Pb b k ∧ x.Pb b k ≤ d.pmaxBattery b) ∧
      (∀ k ∈ Finset.Icc 1 d.horizon, 0 ≤ x.Pvb k ∧ x.Pvb k ≤ d.pmaxVirtualb k) ∧
      (∀ k ∈ Finset.Icc 1 d.horizon, 0 ≤ x.Dshed k ∧ x.Dshed k ≤ d.nonflexLoad k) ∧
      (∀ b, ∀ k ∈ Finset.Icc 1 (d.horizon + 1), 0 ≤ x.Eb b k ∧ x.Eb b k ≤ d.emaxBattery b) ∧
      (∀ b, x.Eb b 1 = d.e0Battery b) ∧
      (∀ b, ∀ k ∈ Finset.Icc 1 d.horizon, x.Eb b (k + 1) = x.Eb b k + x.Pb b k * d.deltaT) ∧
      (∀ k ∈ Finset.Icc 1 (d.horizon + 1), x.custComfort k ≤ 0) ∧
      (∀ k ∈ Finset.Icc 1 (d.horizon + 1), 0 + x.custComfort k ≤ x.Evb k) ∧
      (∀ k ∈ Finset.Icc 1 (d.horizon + 1), x.Evb k ≤ entry d.emaxOp 1) ∧
      x.Evb 1 = entry d.e0Virtualb 1 ∧
      (∀ k ∈ Finset.Icc 1 d.horizon,
        x.Evb (k + 1) = efficiency * x.Evb k + x.Pvb k * d.deltaT - d.flexLoad k * d.deltaT) ∧
      ∀ k ∈ Finset.Icc 1 d.horizon,
        ∑ g, x.Pg g k + ∑ s, x.Ps s k = d.nonflexLoad k - x.Dshed k + x.Pvb k + ∑ b, x.Pb b k)
    ⟨fun ⟨h1, h2, h3, h4, h5, h6, h7, h8, h9, h10, h11, h12, h13, h14⟩ =>
        ⟨h1, h2, h3, h4, h5, h6, h7, h8, h9, h10, h11, h12, h13, h14⟩,
      fun h => ⟨h.1, h.2, h.3, h.4, h.5, h.6, h.7, h.8, h.9, h.10, h.11, h.12, h.13, h.14⟩⟩

omit [LinearOrder K] in
/-- The value to minimise: shed energy, less the stored energy at the end and the comfort floor. -/
def objective (d : IslandModel K nsolar ngens nbatt) (x : Plan K nsolar ngens nbatt) : K :=
  ((1000 : ℕ) : K) * (∑ k ∈ Finset.Icc 1 d.horizon, x.Dshed k) * d.deltaT
    - ((9 : ℕ) : K) / ((10 : ℕ) : K) * ∑ b, x.Eb b (d.horizon + 1)
    - ((9 : ℕ) : K) / ((10 : ℕ) : K) * x.Evb (d.horizon + 1)
    - ((9 : ℕ) : K) / ((10 : ℕ) : K) * ∑ k ∈ Finset.Icc 1 (d.horizon + 1), x.custComfort k

/-! ## A feasible plan -/

/-- Loads, solar output, limits and the time step are not negative, and each battery starts within its
limit. -/
structure IslandModel.Nonneg (d : IslandModel K nsolar ngens nbatt) : Prop where
  nonflexLoad : ∀ k ∈ Finset.Icc 1 d.horizon, 0 ≤ d.nonflexLoad k
  flexLoad : ∀ k ∈ Finset.Icc 1 d.horizon, 0 ≤ d.flexLoad k
  pSolar : ∀ s, ∀ k ∈ Finset.Icc 1 d.horizon, 0 ≤ d.pSolar s k
  pmaxGens : ∀ g, 0 ≤ d.pmaxGens g
  pmaxBattery : ∀ b, 0 ≤ d.pmaxBattery b
  e0Battery : ∀ b, 0 ≤ d.e0Battery b ∧ d.e0Battery b ≤ d.emaxBattery b
  deltaT : 0 ≤ d.deltaT

namespace IslandModel

/-- The energy the flexible load has drawn before `k`. -/
def drawn (d : IslandModel K nsolar ngens nbatt) (k : ℕ) : K :=
  ∑ j ∈ Finset.Icc 1 (k - 1), d.flexLoad j * d.deltaT

/-- Everything off: the nonflexible load is shed and the virtual battery covers the flexible load. -/
def shedAll (d : IslandModel K nsolar ngens nbatt) : Plan K nsolar ngens nbatt where
  Ps := fun _ _ => 0
  Pg := fun _ _ => 0
  Pb := fun _ _ => 0
  Pvb := fun _ => 0
  Dshed := d.nonflexLoad
  Eb := fun b _ => d.e0Battery b
  Evb := fun k => entry d.e0Virtualb 1 - d.drawn k
  custComfort := fun k => min 0 (entry d.e0Virtualb 1 - d.drawn k)

variable {d : IslandModel K nsolar ngens nbatt}

/-- The adjusted limit is not below the start. -/
theorem e0_le_emaxOp (h : d.e0Virtualb.length = d.emaxVirtualb.length) :
    entry d.e0Virtualb 1 ≤ entry d.emaxOp 1 := by
  unfold emaxOp
  -- vectors are compared lexicographically, so not less means the first entry is not less
  by_cases hlt : d.emaxVirtualb < d.e0Virtualb
  · rw [if_pos hlt]
  · rw [if_neg hlt]
    generalize d.e0Virtualb = e0 at h hlt ⊢
    generalize d.emaxVirtualb = emax at h hlt ⊢
    cases e0 with
    | nil =>
      obtain rfl : emax = [] := List.eq_nil_of_length_eq_zero h.symm
      exact le_refl (entry ([] : List K) 1)
    | cons a es =>
      cases emax with
      | nil => cases h
      | cons b ms =>
        change a ≤ b
        by_contra hba
        exact hlt (List.cons_lt_cons_iff.2 (.inl (not_le.1 hba)))

omit [LinearOrder K] in
theorem drawn_succ (d : IslandModel K nsolar ngens nbatt) {k : ℕ} (hk : 1 ≤ k) :
    d.drawn (k + 1) = d.drawn k + d.flexLoad k * d.deltaT := by
  obtain ⟨j, rfl⟩ : ∃ j, k = j + 1 := ⟨k - 1, by omega⟩
  unfold drawn
  simp only [Nat.add_sub_cancel]
  exact Finset.sum_Icc_succ_top (by omega) _

variable [IsStrictOrderedRing K]

theorem Nonneg.drawn (h : d.Nonneg) {k : ℕ} (hk : k ≤ d.horizon + 1) : 0 ≤ d.drawn k := by
  refine Finset.sum_nonneg fun j hj => mul_nonneg (h.flexLoad j ?_) h.deltaT
  rw [Finset.mem_Icc] at hj ⊢
  omega

/-- Shedding everything is feasible. -/
theorem shedAll_feasible (h : d.Nonneg) (hv : d.e0Virtualb.length = d.emaxVirtualb.length) :
    Feasible d d.shedAll where
  ps := fun s k hk => ⟨le_refl _, h.pSolar s k hk⟩
  pg := fun g _ _ => ⟨le_refl _, h.pmaxGens g⟩
  pb := fun b _ _ => ⟨neg_nonpos.2 (h.pmaxBattery b), h.pmaxBattery b⟩
  pvb := fun k hk => ⟨le_refl _, mul_nonneg (Nat.cast_nonneg 2) (h.flexLoad k hk)⟩
  dshed := fun k hk => ⟨h.nonflexLoad k hk, le_refl _⟩
  eb := fun b _ _ => h.e0Battery b
  ebStart := fun _ => rfl
  ebNext := fun b k _ => by simp [shedAll]
  custComfort := fun k _ => min_le_left ..
  ccomf := fun k _ => by rw [zero_add]; exact min_le_right ..
  evb := fun k hk => by
    -- the battery only loses energy from its start on
    have hdrawn := h.drawn (Finset.mem_Icc.1 hk).2
    have hmax := e0_le_emaxOp hv
    change entry d.e0Virtualb 1 - d.drawn k ≤ _
    linarith
  evbStart := by simp [shedAll, IslandModel.drawn]
  evbNext := fun k hk => by
    simp only [shedAll, efficiency, drawn_succ d (Finset.mem_Icc.1 hk).1]
    ring
  balance := fun k _ => by simp [shedAll]

/-! ## The bound -/

/-- No feasible plan stores more than the limits. -/
theorem objective_bound (h : d.Nonneg) {x : Plan K nsolar ngens nbatt} (hx : Feasible d x) :
    -(((9 : ℕ) : K) / ((10 : ℕ) : K) * (∑ b, d.emaxBattery b + entry d.emaxOp 1)) ≤ objective d x := by
  have hend : d.horizon + 1 ∈ Finset.Icc 1 (d.horizon + 1) := Finset.mem_Icc.2 ⟨by omega, le_refl _⟩
  have hw : (0 : K) ≤ ((9 : ℕ) : K) / ((10 : ℕ) : K) := by positivity
  have hshed : 0 ≤ ((1000 : ℕ) : K) * (∑ k ∈ Finset.Icc 1 d.horizon, x.Dshed k) * d.deltaT :=
    mul_nonneg (mul_nonneg (Nat.cast_nonneg _) (Finset.sum_nonneg fun k hk => (hx.dshed k hk).1)) h.deltaT
  have hbatt : ∑ b, x.Eb b (d.horizon + 1) ≤ ∑ b, d.emaxBattery b :=
    Finset.sum_le_sum fun b _ => (hx.eb b _ hend).2
  have hvirt := hx.evb _ hend
  have hcomf : ∑ k ∈ Finset.Icc 1 (d.horizon + 1), x.custComfort k ≤ 0 :=
    Finset.sum_nonpos fun k hk => hx.custComfort k hk
  -- the terms of the objective are bounded one by one
  unfold objective
  generalize ((9 : ℕ) : K) / ((10 : ℕ) : K) = w at hw ⊢
  have h1 := mul_le_mul_of_nonneg_left hbatt hw
  have h2 := mul_le_mul_of_nonneg_left hvirt hw
  have h3 := mul_nonpos_of_nonneg_of_nonpos hw hcomf
  linarith [mul_add w (∑ b, d.emaxBattery b) (entry d.emaxOp 1)]

/-- The model always has a solution, whatever the start of the virtual battery, and its objective is
bounded below. -/
theorem model_solvable (h : d.Nonneg) (hv : d.e0Virtualb.length = d.emaxVirtualb.length) :
    (∃ x, Feasible d x) ∧ ∃ bound, ∀ x, Feasible d x → bound ≤ objective d x :=
  ⟨⟨d.shedAll, shedAll_feasible h hv⟩, _, fun _ hx => objective_bound h hx⟩

omit [IsStrictOrderedRing K] in
instance (d : IslandModel K nsolar ngens nbatt) : Decidable d.Nonneg :=
  decidable_of_iff ((∀ k ∈ Finset.Icc 1 d.horizon, 0 ≤ d.nonflexLoad k) ∧
      (∀ k ∈ Finset.Icc 1 d.horizon, 0 ≤ d.flexLoad k) ∧ (∀ s, ∀ k ∈ Finset.Icc 1 d.horizon, 0 ≤ d.pSolar s k) ∧
      (∀ g, 0 ≤ d.pmaxGens g) ∧ (∀ b, 0 ≤ d.pmaxBattery b) ∧
      (∀ b, 0 ≤ d.e0Battery b ∧ d.e0Battery b ≤ d.emaxBattery b) ∧ 0 ≤ d.deltaT)
    ⟨fun ⟨h1, h2, h3, h4, h5, h6, h7⟩ => ⟨h1, h2, h3, h4, h5, h6, h7⟩,
      fun h => ⟨h.1, h.2, h.3, h.4, h.5, h.6, h.7⟩⟩

/-- Three intervals, a solar unit and a battery; the virtual battery starts above its limit. -/
def overfull : IslandModel ℚ 1 0 1 where
  horizon := 3
  nonflexLoad := entry [5, 4, 3]
  flexLoad := entry [2, 2, 1]
  pSolar := fun _ => entry [0, 1, 2]
  pmaxGens := fun _ => 0
  pmaxBattery := fun _ => 3
  e0Battery := fun _ => 1
  emaxBattery := fun _ => 6
  e0Virtualb := [12]
  emaxVirtualb := [10]
  deltaT := 1 / 20

theorem overfull_solvable :
    (∃ x, Feasible overfull x) ∧ ∃ bound, ∀ x, Feasible overfull x → bound ≤ objective overfull x :=
  model_solvable (by decide +kernel) rfl

end IslandModel

end Grip.Dispatch
