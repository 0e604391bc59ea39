/-
The clock of the series `manage_island` optimises over. Each series is rotated so that it starts at
the row of `t0`, and then every `s`-th entry is kept: vectors and table rows are rotated by slicing and
concatenation, the solar columns after a transposition. The `j`-th entry of each of them comes from
one and the same row of the baseline.
-/
import GripAbsorption.Dispatch.Baseline

namespace Grip.Dispatch

open Grip.Base

universe u v

/-! ## Rotating and filtering -/

section

variable {α : Type u} {β : Type v}

theorem startAt_eq_rotate {i : ℕ} {xs : List α} (h : i ≤ xs.length) : startAt i xs = xs.rotate i :=
  (List.rotate_eq_drop_append_take h).symm

/-- A list of what is at the first places, none of which is missing. -/
theorem getElem?_filterMap_range {f : ℕ → Option α} : ∀ {n : ℕ}, (∀ j < n, ∃ a, f j = some a) → ∀ j : ℕ,
    ((List.range n).filterMap f)[j]? = if j < n then f j else none
  | 0, _, j => by simp
  | n + 1, h, j => by
    have ih := getElem?_filterMap_range fun k (hk : k < n) => h k (Nat.lt_succ_of_lt hk)
    obtain ⟨a, ha⟩ := h n (Nat.lt_succ_self n)
    have hlen : ((List.range n).filterMap f).length = n := by
      rw [List.length_filterMap_eq_countP, List.countP_eq_length.2, List.length_range]
      intro k hk
      obtain ⟨b, hb⟩ := h k (Nat.lt_succ_of_lt (List.mem_range.1 hk))
      simp [hb]
    rw [List.range_succ, List.filterMap_append, List.filterMap_cons_some ha, List.filterMap_nil, List.getElem?_append, hlen]
    rcases lt_trichotomy j n with hj | rfl | hj
    · rw [if_pos hj, ih, if_pos hj, if_pos (by omega)]
    · rw [if_neg (lt_irrefl j), if_pos (Nat.lt_succ_self j), ha, Nat.sub_self]
      rfl
    · rw [if_neg (by omega), if_neg (by omega)]
      exact List.getElem?_eq_none (by simp; omega)

/-- The last kept row is a row of the table, and there is no next one. -/
theorem lt_everyNth {s : ℕ} (hs : 0 < s) (n j : ℕ) : j < (n + s - 1) / s ↔ j * s < n := by
  rw [Nat.lt_iff_add_one_le, Nat.le_div_iff_mul_le hs, Nat.add_mul, one_mul]
  omega

theorem getElem?_everyNth {s : ℕ} (hs : 0 < s) (xs : List α) (j : ℕ) : (everyNth s xs)[j]? = xs[j * s]? := by
  unfold everyNth
  rw [getElem?_filterMap_range fun k hk => ⟨_, List.getElem?_eq_getElem ((lt_everyNth hs _ k).1 hk)⟩]
  split
  · rfl
  · rename_i hj
    rw [lt_everyNth hs, not_lt] at hj
    exact (List.getElem?_eq_none hj).symm

/-- Past the end a rotated column goes on with the first row. -/
theorem getElem?_column {i s j : ℕ} {xs : List α} (f : α → β) (hi : i < xs.length) (hs : 0 < s) (hj : j * s < xs.length) :
    (everyNth s (startAt i (xs.map f)))[j]? = (xs[(i + j * s) % xs.length]?).map f := by
  have hlen : (xs.map f).length = xs.length := List.length_map f
  rw [getElem?_everyNth hs, startAt_eq_rotate (hlen ▸ hi.le), List.getElem?_rotate (hlen ▸ hj), Nat.add_comm, hlen,
    List.getElem?_map]

theorem length_column {i s : ℕ} {xs : List α} (f : α → β) (hi : i ≤ xs.length) (hs : 0 < s) :
    (everyNth s (startAt i (xs.map f))).length = xs.length ⌈/⌉ s := by
  have hlen : (xs.map f).length = xs.length := List.length_map f
  rw [length_everyNth hs, length_startAt (hlen ▸ hi), hlen, Nat.ceilDiv_eq_add_pred_div]

theorem startAt_map (f : α → β) (i : ℕ) (xs : List α) : startAt i (xs.map f) = (startAt i xs).map f := by
  simp [startAt]

theorem everyNth_map (f : α → β) (s : ℕ) (xs : List α) : everyNth s (xs.map f) = (everyNth s xs).map f := by
  unfold everyNth
  rw [List.map_filterMap, List.length_map]
  exact congrArg (fun g => List.filterMap g _) (funext fun j => List.getElem?_map ..)

end

/-! ## The series of a call -/

variable {K : Type} [Field K] {nsolar ngens nbatt : ℕ}

/-- The series after rotation and filtering. -/
structure Series (K : Type) (nsolar : ℕ) where
  nonflexLoad : List K
  flexLoad : List K
  pmaxVirtualb : List K
  pSolar : Fin nsolar → List K

/-- The series from row `t0` on (rows count from 1), in strides of `s` rows. -/
def ManageArgs.series (a : ManageArgs K nsolar ngens nbatt) (t0 s : ℕ) : Series K nsolar where
  nonflexLoad := everyNth s (startAt (t0 - 1) (a.loadBaseline.map BaselineRow.nfBaseline))
  flexLoad := everyNth s (startAt (t0 - 1) (a.loadBaseline.map BaselineRow.fBaseline))
  pmaxVirtualb := (everyNth s (startAt (t0 - 1) (a.loadBaseline.map BaselineRow.fBaseline))).map fun x => (2 : ℕ) * x
  pSolar := fun g => everyNth s ((startAt (t0 - 1) (a.psBaseline.take a.loadBaseline.length)).map (· g))

/-- Row `t0` is the first that has the timestamp of the call, and `s` is its increment in rows. -/
structure ManageArgs.Starts (a : ManageArgs K nsolar ngens nbatt) (t0 s : ℕ) : Prop where
  start : t0 ∈ Finset.Icc 1 a.loadBaseline.length
  first : a.loadBaseline.findIdx? (fun r => r.timestamp = a.t0) = some (t0 - 1)
  stride : 1 ≤ s
  minutes : ∃ step, firstStep a.loadBaseline = .ok step ∧ 60 * a.tInc = s * step

/-- The model is over these series. -/
structure IslandModel.Over (d : IslandModel K nsolar ngens nbatt) (ser : Series K nsolar) : Prop where
  horizon : d.horizon = ser.nonflexLoad.length
  nonflexLoad : d.nonflexLoad = entry ser.nonflexLoad
  flexLoad : d.flexLoad = entry ser.flexLoad
  pmaxVirtualb : d.pmaxVirtualb = entry ser.pmaxVirtualb
  pSolar : ∀ g, d.pSolar g = entry (ser.pSolar g)

/-- All series have one entry for each kept row, and their `j`-th entries are those of one row of the baseline. -/
structure Series.SameClock (ser : Series K nsolar) (a : ManageArgs K nsolar ngens nbatt) (t0 s : ℕ) : Prop where
  lengths : let n := a.loadBaseline.length ⌈/⌉ s
    ser.nonflexLoad.length = n ∧ ser.flexLoad.length = n ∧ ser.pmaxVirtualb.length = n ∧ ∀ g, (ser.pSolar g).length = n
  rows : ∀ j ∈ Finset.Icc 1 (a.loadBaseline.length ⌈/⌉ s), ∃ row ps,
    a.loadBaseline[(t0 - 1 + (j - 1) * s) % a.loadBaseline.length]? = some row ∧
      a.psBaseline[(t0 - 1 + (j - 1) * s) % a.loadBaseline.length]? = some ps ∧
      ser.nonflexLoad[j - 1]? = some row.nfBaseline ∧ ser.flexLoad[j - 1]? = some row.fBaseline ∧
      ser.pmaxVirtualb[j - 1]? = some ((2 : ℕ) * row.fBaseline) ∧ ∀ g, (ser.pSolar g)[j - 1]? = some (ps g)

theorem entry_map {f : K → K} (hf : f 0 = 0) (xs : List K) (k : ℕ) : entry (xs.map f) k = f (entry xs k) := by
  unfold entry
  rw [List.getElem?_map]
  cases xs[k - 1]? with
  | none => exact hf.symm
  | some x => rfl

omit [Field K] in
theorem stride_of_strideOf {tInc step : ℤ} {s : ℕ} (h : strideOf tInc step = .ok s) : 60 * tInc = s * step := by
  unfold strideOf at h
  split at h
  · cases h
  · rename_i hdvd
    split at h
    · cases h
    · split at h
      · cases h
      · cases h
        rw [Int.toNat_of_nonneg (by omega)]
        exact (Int.ediv_mul_cancel (by tauto)).symm

/-- A model is built over the series of its arguments. -/
theorem buildModel_over {a : ManageArgs K nsolar ngens nbatt} {d : IslandModel K nsolar ngens nbatt}
    (h : buildModel a = .ok d) : ∃ t0 s, a.Starts t0 s ∧ d.Over (a.series t0 s) := by
  unfold buildModel at h
  obtain ⟨i, hi, h⟩ := bind_ok.1 h
  obtain ⟨-, -, h⟩ := bind_ok.1 h
  obtain ⟨step, hstep, h⟩ := bind_ok.1 h
  obtain ⟨s, hs, h⟩ := bind_ok.1 h
  obtain ⟨delta, -, h⟩ := bind_ok.1 h
  obtain ⟨-, -, h⟩ := bind_ok.1 h
  obtain ⟨-, -, h⟩ := bind_ok.1 h
  cases h
  rw [orRaise_eq_ok] at hi
  have hlt : i < a.loadBaseline.length := (List.findIdx?_eq_some_iff_getElem.1 hi).1
  refine ⟨i + 1, s, ⟨Finset.mem_Icc.2 ⟨by omega, hlt⟩, hi, pos_of_strideOf hs, step, hstep, stride_of_strideOf hs⟩, ?_⟩
  refine ⟨rfl, rfl, rfl, funext fun k => ?_, fun g => ?_⟩
  · exact (entry_map (mul_zero _) _ k).symm
  · exact congrArg entry (everyNth_map ..).symm

/-- For every baseline with a solar table of as many rows, every start and every stride, all series refer to the
same clock time, and a model is built over such series. -/
theorem series_sameClock (a : ManageArgs K nsolar ngens nbatt) (hsolar : a.psBaseline.length = a.loadBaseline.length) :
    (∀ t0 ∈ Finset.Icc 1 a.loadBaseline.length, ∀ s, 1 ≤ s → (a.series t0 s).SameClock a t0 s) ∧
      ∀ d, buildModel a = .ok d → ∃ t0 s, a.Starts t0 s ∧ d.Over (a.series t0 s) ∧ (a.series t0 s).SameClock a t0 s := by
  have hclock : ∀ t0 ∈ Finset.Icc 1 a.loadBaseline.length, ∀ s, 1 ≤ s → (a.series t0 s).SameClock a t0 s := by
    intro t0 ht0 s hs
    rw [Finset.mem_Icc] at ht0
    have hi : t0 - 1 < a.loadBaseline.length := by omega
    have hip : t0 - 1 < a.psBaseline.length := hi.trans_eq hsolar.symm
    have hsol : ∀ g, (a.series t0 s).pSolar g = everyNth s (startAt (t0 - 1) (a.psBaseline.map (· g))) := fun g => by
      rw [startAt_map, ManageArgs.series, List.take_of_length_le hsolar.le]
    refine ⟨⟨length_column _ hi.le hs, length_column _ hi.le hs, ?_, fun g => ?_⟩, fun j hj => ?_⟩
    · exact (List.length_map _).trans (length_column _ hi.le hs)
    · rw [hsol, length_column _ hip.le hs, hsolar]
    · -- the `j`-th kept row is a row of the rotated table
      rw [Finset.mem_Icc, Nat.ceilDiv_eq_add_pred_div] at hj
      have hlt : (j - 1) * s < a.loadBaseline.length := (lt_everyNth hs _ _).1 (by omega)
      have hmod : (t0 - 1 + (j - 1) * s) % a.loadBaseline.length < a.loadBaseline.length := Nat.mod_lt _ (by omega)
      have hrow := List.getElem?_eq_getElem hmod
      have hps := List.getElem?_eq_getElem (hmod.trans_eq hsolar.symm)
      have hload : ∀ f : BaselineRow K → K, (everyNth s (startAt (t0 - 1) (a.loadBaseline.map f)))[j - 1]? =
          some (f a.loadBaseline[(t0 - 1 + (j - 1) * s) % a.loadBaseline.length]) := fun f => by
        rw [getElem?_column f hi hs hlt, hrow, Option.map_some]
      refine ⟨_, _, hrow, hps, hload _, hload _, ?_, fun g => ?_⟩
      · rw [ManageArgs.series, List.getElem?_map, hload, Option.map_some]
      · have hcol := getElem?_column (· g) hip hs (hlt.trans_eq hsolar.symm)
        simp only [hsolar] at hcol
        rw [hsol, hcol, hps, Option.map_some]
  refine ⟨hclock, fun d hd => ?_⟩
  obtain ⟨t0, s, hstarts, hover⟩ := buildModel_over hd
  exact ⟨t0, s, hstarts, hover, hclock t0 hstarts.start s hstarts.stride⟩

/-- Five rows three minutes apart and a call from the fourth on in steps of six minutes. -/
def fiveRows : ManageArgs ℚ 1 0 0 where
  t0 := ⟨540, "-04:00"⟩
  tInc := 6
  island := "101"
  loadBaseline := (List.range 5).map fun n => ⟨⟨180 * n, "-04:00"⟩, n, 10 + n⟩
  solarNames := fun _ => "solar_101"
  psBaseline := (List.range 5).map fun n _ => 20 + n
  gens := []
  pmaxGens := ![]
  batteries := []
  pmaxBattery := ![]
  e0Battery := ![]
  emaxBattery := ![]
  e0Virtualb := [6]
  emaxVirtualb := [10]

/-- The stride passes the seam between the fifth row and the first. -/
theorem fiveRows_sameClock : (fiveRows.series 4 2).SameClock fiveRows 4 2 ∧
    (fiveRows.series 4 2).nonflexLoad = [13, 10, 12] ∧ (fiveRows.series 4 2).pSolar 0 = [23, 20, 22] :=
  ⟨(series_sameClock fiveRows rfl).1 4 (by decide) 2 (by decide), by decide +kernel, by decide +kernel⟩

end Grip.Dispatch
