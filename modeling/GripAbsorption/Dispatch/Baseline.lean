/-
From the arguments of `manage_island` to its model: the baseline tables are rotated so that they
start at `t0`, and every `t_inc / t_index`-th row is kept. A missing start, a table too short, a
stride that is no whole number and a failed assertion end the call.
-/
import GripAbsorption.Base.Run
import GripAbsorption.Dispatch.Model

namespace Grip.Dispatch

open Grip.Base

universe u

/-! ## Tables -/

/-- A timestamp such as `2020-10-15T00:00:00-04:00`: the local date and time in seconds, and the last
six characters. -/
structure Stamp where
  sec : ℤ
  zone : String
  deriving DecidableEq, Repr

/-- A row of the load baseline. -/
structure BaselineRow (K : Type) where
  timestamp : Stamp
  fBaseline : K
  nfBaseline : K

/-- What ends a call of `manage_island`. -/
inductive Err
  | boundsError
  | inexactError
  | argumentError
  | assertionError
  deriving DecidableEq, Repr

/-- The arguments. The three battery vectors have one length (an assertion), and the solar table one
column for each of its names. -/
structure ManageArgs (K : Type) (nsolar ngens nbatt : ℕ) where
  t0 : Stamp
  tInc : ℤ
  island : String
  loadBaseline : List (BaselineRow K)
  solarNames : Fin nsolar → String
  psBaseline : List (Fin nsolar → K)
  gens : List String
  pmaxGens : Fin ngens → K
  batteries : List String
  pmaxBattery : Fin nbatt → K
  e0Battery : Fin nbatt → K
  emaxBattery : Fin nbatt → K
  e0Virtualb : List K
  emaxVirtualb : List K

section

variable {α : Type u}

/-- `vcat(xs[i+1:end], xs[1:i])`. -/
def startAt (i : ℕ) (xs : List α) : List α := xs.drop i ++ xs.take i

/-- `xs[1:s:end]` for a stride `s` of at least 1. -/
def everyNth (s : ℕ) (xs : List α) : List α :=
  (List.range ((xs.length + s - 1) / s)).filterMap fun j => xs[j * s]?

theorem length_startAt {i : ℕ} {xs : List α} (h : i ≤ xs.length) : (startAt i xs).length = xs.length := by
  simp only [startAt, List.length_append, List.length_drop, List.length_take]
  omega

theorem length_everyNth {s : ℕ} (hs : 0 < s) (xs : List α) : (everyNth s xs).length = (xs.length + s - 1) / s := by
  unfold everyNth
  rw [List.length_filterMap_eq_countP, List.countP_eq_length.2, List.length_range]
  intro j hj
  have hj : (j + 1) * s ≤ xs.length + s - 1 := (Nat.le_div_iff_mul_le hs).1 (List.mem_range.1 hj)
  have hlt : j * s < xs.length := by rw [Nat.add_mul, one_mul] at hj; omega
  simp [List.getElem?_eq_getElem hlt]

end

/-! ## The model of a call -/

section

variable {K : Type}

/-- The seconds from the first row to the second. -/
def firstStep : List (BaselineRow K) → Except Err ℤ
  | r₁ :: r₂ :: _ => .ok (r₂.timestamp.sec - r₁.timestamp.sec)
  | _ => .error .boundsError

/-- A check that ends the call when it fails. -/
def require (e : Err) (p : Prop) [Decidable p] : Except Err Unit := if p then .ok () else .error e

/-- `convert(Int64, t_inc / t_index)`, where `t_index` is the first step of the baseline in minutes, as
a stride. No row is left by a negative one, and there is no second row then. -/
def strideOf (tInc step : ℤ) : Except Err ℕ :=
  if step = 0 ∨ ¬ step ∣ 60 * tInc then .error .inexactError
  else if 60 * tInc / step = 0 then .error .argumentError
  else if 60 * tInc / step < 0 then .error .boundsError
  else .ok (60 * tInc / step).toNat

variable [Field K] {nsolar ngens nbatt : ℕ}

/-- The data of the model. -/
def buildModel (a : ManageArgs K nsolar ngens nbatt) : Except Err (IslandModel K nsolar ngens nbatt) := do
  let i ← orRaise .boundsError (a.loadBaseline.findIdx? fun r => r.timestamp = a.t0)
  require .boundsError (a.loadBaseline.length ≤ a.psBaseline.length)
  let nonflexLoad := startAt i (a.loadBaseline.map BaselineRow.nfBaseline)
  let flexLoad := startAt i (a.loadBaseline.map BaselineRow.fBaseline)
  let psBaseline := startAt i (a.psBaseline.take a.loadBaseline.length)
  let stride ← strideOf a.tInc (← firstStep a.loadBaseline)
  let deltaSec ← firstStep (everyNth stride a.loadBaseline)
  let nonflexLoad := everyNth stride nonflexLoad
  let flexLoad := everyNth stride flexLoad
  let psBaseline := everyNth stride psBaseline
  require .assertionError (a.e0Virtualb.length = a.emaxVirtualb.length)
  require .boundsError (a.e0Virtualb.length ≠ 0)
  return {
    horizon := nonflexLoad.length
    nonflexLoad := entry nonflexLoad
    flexLoad := entry flexLoad
    pSolar := fun s => entry (psBaseline.map (· s))
    pmaxGens := a.pmaxGens
    pmaxBattery := a.pmaxBattery
    e0Battery := a.e0Battery
    emaxBattery := a.emaxBattery
    e0Virtualb := a.e0Virtualb
    emaxVirtualb := a.emaxVirtualb
    deltaT := (deltaSec : K) / ((60 : ℕ) : K) / ((60 : ℕ) : K) }

omit [Field K] in
theorem two_le_of_firstStep {rows : List (BaselineRow K)} {step : ℤ} (h : firstStep rows = .ok step) :
    2 ≤ rows.length := by
  rcases rows with _ | ⟨r₁, _ | ⟨r₂, rows⟩⟩
  · cases h
  · cases h
  · simp

theorem pos_of_strideOf {tInc step : ℤ} {s : ℕ} (h : strideOf tInc step = .ok s) : 0 < s := by
  unfold strideOf at h
  split at h
  · cases h
  · split at h
    · cases h
    · split at h
      · cases h
      · cases h; omega

/-- A model is built over two intervals at least, under the limits of the arguments. -/
theorem buildModel_spec {a : ManageArgs K nsolar ngens nbatt} {d : IslandModel K nsolar ngens nbatt}
    (h : buildModel a = .ok d) : 2 ≤ d.horizon ∧ d.pmaxGens = a.pmaxGens ∧ d.pmaxBattery = a.pmaxBattery := by
  unfold buildModel at h
  obtain ⟨i, hi, h⟩ := bind_ok.1 h
  obtain ⟨-, -, h⟩ := bind_ok.1 h
  obtain ⟨step, -, h⟩ := bind_ok.1 h
  obtain ⟨s, hs, h⟩ := bind_ok.1 h
  obtain ⟨delta, hdelta, h⟩ := bind_ok.1 h
  obtain ⟨-, -, h⟩ := bind_ok.1 h
  obtain ⟨-, -, h⟩ := bind_ok.1 h
  cases h
  refine ⟨?_, rfl, rfl⟩
  -- the second kept row of the table exists, and the load columns have as many rows
  have hpos := pos_of_strideOf hs
  have hlen := two_le_of_firstStep hdelta
  have hi : i ≤ a.loadBaseline.length := (List.findIdx?_eq_some_iff_getElem.1 (orRaise_eq_ok.1 hi)).1.le
  rw [length_everyNth hpos] at hlen ⊢
  rwa [length_startAt (by simpa using hi), List.length_map]

end

end Grip.Dispatch
