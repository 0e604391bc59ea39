/-
The batteries of `islanding_core` by themselves: base power and reserve power are each within the
rating, base power adds up to zero in each period, and energy stays within the capacity. Whether their
sum can exceed the rating is settled by the batteries' data alone: a battery has to have more room, or
to hold more, than the rating moves in a day, and another one has to stand against it.
-/
import GripAbsorption.Islanding.Core

namespace Grip.Islanding

universe u

variable {K : Type u} [Field K] {nb : ℕ}

/-! ## Energy over the two periods -/

/-- The energy at the end of a period. -/
def energyAfter (E0 : K) (P : Period → K) : Period → K
  | 0 => E0 + P .day * deltaT .day
  | 1 => E0 + P .day * deltaT .day + P .night * deltaT .night

theorem energyAfter_day (E0 : K) (P : Period → K) : energyAfter E0 P .day = E0 + P .day * deltaT .day := rfl

theorem energyAfter_night (E0 : K) (P : Period → K) :
    energyAfter E0 P .night = E0 + P .day * deltaT .day + P .night * deltaT .night := rfl

/-- The batteries: what each gives or takes at most, holds at first and can hold. -/
structure Fleet (K : Type u) (nb : ℕ) where
  PbMax : Fin nb → K
  E0 : Fin nb → K
  EbMax : Fin nb → K

namespace Fleet

variable [LinearOrder K]

/-- What the constraints ask of one battery's base and reserve power. -/
structure RunsAt (f : Fleet K nb) (b : Fin nb) (P dP : Period → K) : Prop where
  base : ∀ k, -f.PbMax b ≤ P k ∧ P k ≤ f.PbMax b
  reserve : ∀ k, -f.PbMax b ≤ dP k ∧ dP k ≤ f.PbMax b
  energy : ∀ k, 0 ≤ energyAfter (f.E0 b) P k ∧ energyAfter (f.E0 b) P k ≤ f.EbMax b
  dEnergy : ∀ k, 0 ≤ energyAfter (f.E0 b) (fun k => P k + dP k) k ∧ energyAfter (f.E0 b) (fun k => P k + dP k) k ≤ f.EbMax b

/-- The constraints that are about batteries only. -/
structure Runs (f : Fleet K nb) (Pb dPb : Fin nb → Period → K) : Prop where
  battery : ∀ b, f.RunsAt b (Pb b) (dPb b)
  sum : ∀ k, ∑ b, Pb b k = 0

/-- The batteries stay within their ratings whenever base and reserve power are used together. -/
def StaysWithin (f : Fleet K nb) : Prop :=
  ∀ Pb dPb, f.Runs Pb dPb → ∀ b k, -f.PbMax b ≤ Pb b k + dPb b k ∧ Pb b k + dPb b k ≤ f.PbMax b

/-- The battery has a rating, and energy to give or room to take some. -/
def CanGive (f : Fleet K nb) (b : Fin nb) : Prop := 0 < f.PbMax b ∧ 0 < f.E0 b

def CanTake (f : Fleet K nb) (b : Fin nb) : Prop := 0 < f.PbMax b ∧ f.E0 b < f.EbMax b

/-- The energies of a battery and of the others leave no use for more than its rating. -/
structure Limited (f : Fleet K nb) (b : Fin nb) : Prop where
  charge : f.EbMax b - f.E0 b ≤ f.PbMax b * deltaT .day ∨ ∀ b', b' ≠ b → ¬ f.CanGive b'
  discharge : f.E0 b ≤ f.PbMax b * deltaT .day ∨ ∀ b', b' ≠ b → ¬ f.CanTake b'
  night : f.EbMax b ≤ f.PbMax b * deltaT .night ∨ ¬ (f.CanGive b ∧ f.CanTake b) ∨
    ∀ b', b' ≠ b → 0 < f.PbMax b' → f.EbMax b' ≤ 0

/-- Every battery with a rating is limited. -/
def Confined (f : Fleet K nb) : Prop := ∀ b, 0 < f.PbMax b → f.Limited b

/-- Ratings are not negative, and no battery holds less than nothing or more than it can. -/
structure Sound (f : Fleet K nb) : Prop where
  rating : ∀ b, 0 ≤ f.PbMax b
  energy : ∀ b, 0 ≤ f.E0 b ∧ f.E0 b ≤ f.EbMax b

/-! ## Exchanging charge and discharge -/

/-- The batteries with empty and full exchanged. -/
def flip (f : Fleet K nb) : Fleet K nb := ⟨f.PbMax, fun b => f.EbMax b - f.E0 b, f.EbMax⟩

variable [IsStrictOrderedRing K] {f : Fleet K nb} {Pb dPb : Fin nb → Period → K}

omit [LinearOrder K] [IsStrictOrderedRing K] in
theorem energyAfter_flip (f : Fleet K nb) (b : Fin nb) (P : Period → K) (k : Period) :
    f.EbMax b - energyAfter (f.E0 b) P k = energyAfter (f.EbMax b - f.E0 b) (fun k => -P k) k := by
  match k with
  | 0 => simp only [energyAfter]; ring
  | 1 => simp only [energyAfter]; ring

theorem RunsAt.flip {b : Fin nb} {P dP : Period → K} (h : f.RunsAt b P dP) :
    f.flip.RunsAt b (fun k => -P k) fun k => -dP k := by
  have hsum : (fun k => -P k + -dP k) = fun k => -(P k + dP k) := funext fun k => by ring
  refine ⟨fun k => ?_, fun k => ?_, fun k => ?_, fun k => ?_⟩
  · have hbase := h.base k
    exact ⟨neg_le_neg hbase.2, neg_le.2 hbase.1⟩
  · have hres := h.reserve k
    exact ⟨neg_le_neg hres.2, neg_le.2 hres.1⟩
  · have hen := h.energy k
    rw [Fleet.flip, ← energyAfter_flip]
    exact ⟨sub_nonneg.2 hen.2, sub_le_self _ hen.1⟩
  · have hen := h.dEnergy k
    rw [hsum, Fleet.flip, ← energyAfter_flip]
    exact ⟨sub_nonneg.2 hen.2, sub_le_self _ hen.1⟩

theorem Runs.flip (h : f.Runs Pb dPb) : f.flip.Runs (fun b k => -Pb b k) fun b k => -dPb b k :=
  ⟨fun b => (h.battery b).flip, fun k => by rw [Finset.sum_neg_distrib, h.sum k, neg_zero]⟩

omit [LinearOrder K] [IsStrictOrderedRing K] in
theorem flip_flip (f : Fleet K nb) : f.flip.flip = f := by
  cases f
  simp [Fleet.flip]

theorem flip_canGive {b : Fin nb} : f.flip.CanGive b ↔ f.CanTake b := by
  unfold CanGive CanTake Fleet.flip
  rw [sub_pos]

theorem flip_canTake {b : Fin nb} : f.flip.CanTake b ↔ f.CanGive b := by
  unfold CanGive CanTake Fleet.flip
  rw [sub_lt_self_iff]

theorem Limited.flip {b : Fin nb} (h : f.Limited b) : f.flip.Limited b := by
  refine ⟨?_, ?_, ?_⟩
  · have hroom : f.flip.EbMax b - f.flip.E0 b = f.E0 b := sub_sub_cancel _ _
    rw [hroom]
    simp only [flip_canGive]
    exact h.discharge
  · simp only [flip_canTake]
    exact h.charge
  · simp only [flip_canGive, flip_canTake]
    rw [and_comm]
    exact h.night

theorem Confined.flip (h : f.Confined) : f.flip.Confined := fun b hb => (h b hb).flip

theorem StaysWithin.flip (h : f.StaysWithin) : f.flip.StaysWithin := by
  intro Pb dPb hruns b k
  have hflip := hruns.flip
  rw [flip_flip] at hflip
  have hle := h _ _ hflip b k
  refine ⟨?_, ?_⟩
  · have := hle.2
    simp only [Fleet.flip] at *
    linarith
  · have := hle.1
    simp only [Fleet.flip] at *
    linarith

/-! ## Limited batteries stay within their ratings -/

omit [LinearOrder K] [IsStrictOrderedRing K] in
theorem deltaT_day [CharZero K] : (deltaT .day : K) = 24 / 5 := by
  norm_num [deltaT]

omit [LinearOrder K] [IsStrictOrderedRing K] in
theorem deltaT_night [CharZero K] : (deltaT .night : K) = 96 / 5 := by
  norm_num [deltaT]

/-- Where one battery's base power is positive, another's is negative. -/
theorem Runs.exists_neg (h : f.Runs Pb dPb) {b : Fin nb} {k : Period} (hb : 0 < Pb b k) :
    ∃ b', b' ≠ b ∧ Pb b' k < 0 ∧ 0 < f.PbMax b' := by
  by_contra hno
  push Not at hno
  have hnonneg : ∀ c, 0 ≤ Pb c k := by
    intro c
    by_contra hc
    rw [not_le] at hc
    have hne : c ≠ b := fun hcb => hc.not_gt (hcb ▸ hb)
    have hrating := hno c hne hc
    have hbase := (h.battery c).base k
    linarith
  have hpos : 0 < ∑ c, Pb c k := Finset.sum_pos' (fun c _ => hnonneg c) ⟨b, Finset.mem_univ b, hb⟩
  exact hpos.ne' (h.sum k)

/-- By day, power above the rating needs room for it and another battery that gives. -/
theorem Runs.le_day (h : f.Runs Pb dPb) (hf : f.Confined) (b : Fin nb) : Pb b .day + dPb b .day ≤ f.PbMax b := by
  by_contra hover
  rw [not_le] at hover
  have hres := (h.battery b).reserve .day
  have hpos : 0 < Pb b .day := by linarith
  have hrating : 0 < f.PbMax b := hpos.trans_le ((h.battery b).base .day).2
  have henergy := ((h.battery b).dEnergy .day).2
  obtain ⟨b', hne, hneg, hrating'⟩ := h.exists_neg hpos
  have hgive := ((h.battery b').energy .day).1
  rw [energyAfter_day, deltaT_day] at henergy hgive
  rcases (hf b hrating).charge with hroom | hnone
  · rw [deltaT_day] at hroom
    linarith
  · exact hnone b' hne ⟨hrating', by linarith⟩

/-- While no battery with a rating holds energy, nothing is exchanged by day. -/
theorem Runs.day_eq_zero (h : f.Runs Pb dPb) (hempty : ∀ c, 0 < f.PbMax c → f.E0 c ≤ 0) (b : Fin nb) :
    Pb b .day = 0 := by
  have hnonneg : ∀ c, 0 ≤ Pb c .day := by
    intro c
    by_contra hc
    rw [not_le] at hc
    have hbase := (h.battery c).base .day
    have henergy := ((h.battery c).energy .day).1
    have hE0 := hempty c (by linarith)
    rw [energyAfter_day, deltaT_day] at henergy
    linarith
  exact (Finset.sum_eq_zero_iff_of_nonneg fun c _ => hnonneg c).1 (h.sum .day) b (Finset.mem_univ b)

/-- While all of them are full, neither. -/
theorem Runs.day_eq_zero_of_full (h : f.Runs Pb dPb) (hfull : ∀ c, 0 < f.PbMax c → f.EbMax c ≤ f.E0 c) (b : Fin nb) :
    Pb b .day = 0 :=
  neg_eq_zero.1 (h.flip.day_eq_zero (fun c hc => sub_nonpos.2 (hfull c hc)) b)

/-- At night, power above the rating needs a capacity that both limits of the day rule out. -/
theorem Runs.le_night (h : f.Runs Pb dPb) (hf : f.Confined) (b : Fin nb) : Pb b .night + dPb b .night ≤ f.PbMax b := by
  by_contra hover
  rw [not_le] at hover
  have hres := (h.battery b).reserve .night
  have hpos : 0 < Pb b .night := by linarith
  have hrating : 0 < f.PbMax b := hpos.trans_le ((h.battery b).base .night).2
  have henergyDay := ((h.battery b).dEnergy .day).1
  have henergy := ((h.battery b).dEnergy .night).2
  have hday := (h.battery b).energy .day
  have hnight := ((h.battery b).energy .night).2
  obtain ⟨b', hne, hneg, hrating'⟩ := h.exists_neg hpos
  have hgive := ((h.battery b').energy .night).1
  have hcap := ((h.battery b').energy .day).2
  rw [energyAfter_night, deltaT_day, deltaT_night] at henergy hgive hnight
  rw [energyAfter_day, deltaT_day] at henergyDay hcap hday
  obtain ⟨hch, hdis, hni⟩ := hf b hrating
  rw [deltaT_day] at hch hdis
  rw [deltaT_night] at hni
  rcases hni with hroom | hside | hnone
  · linarith
  · by_cases hE0 : f.E0 b ≤ 0
    · -- all are empty: nothing was stored by day that could be given at night
      have hnone := hch.resolve_left (by linarith)
      have hempty : ∀ c, 0 < f.PbMax c → f.E0 c ≤ 0 := by
        intro c hc
        by_cases hcb : c = b
        · rwa [hcb]
        · exact not_lt.1 fun hE => hnone c hcb ⟨hc, hE⟩
      have hzero := h.day_eq_zero hempty b'
      have hE0' := hempty b' hrating'
      linarith
    · -- all are full: this battery cannot take anything
      have hfull : f.EbMax b ≤ f.E0 b := not_lt.1 fun hE => hside ⟨⟨hrating, not_le.1 hE0⟩, hrating, hE⟩
      have hnone := hdis.resolve_left (by linarith)
      have hfull' : ∀ c, 0 < f.PbMax c → f.EbMax c ≤ f.E0 c := by
        intro c hc
        by_cases hcb : c = b
        · rwa [hcb]
        · exact not_lt.1 fun hE => hnone c hcb ⟨hc, hE⟩
      have hzero := h.day_eq_zero_of_full hfull' b
      linarith
  · have hcap' := hnone b' hne hrating'
    linarith

theorem Runs.le (h : f.Runs Pb dPb) (hf : f.Confined) (b : Fin nb) (k : Period) : Pb b k + dPb b k ≤ f.PbMax b :=
  match k with
  | 0 => h.le_day hf b
  | 1 => h.le_night hf b

/-- Limited batteries stay within their ratings. -/
theorem Confined.staysWithin (hf : f.Confined) : f.StaysWithin := by
  intro Pb dPb h b k
  have hlower := h.flip.le hf.flip b k
  refine ⟨?_, h.le hf b k⟩
  have hrating : f.flip.PbMax b = f.PbMax b := rfl
  linarith

/-! ## Batteries that are not limited -/

/-- Two batteries with given powers, all others at rest. -/
def between (b b' : Fin nb) (P P' : Period → K) (c : Fin nb) (k : Period) : K :=
  if c = b then P k else if c = b' then P' k else 0

omit [LinearOrder K] [IsStrictOrderedRing K] in
theorem between_left (b b' : Fin nb) (P P' : Period → K) : between b b' P P' b = P := by
  funext k
  simp [between]

omit [LinearOrder K] [IsStrictOrderedRing K] in
theorem between_right {b b' : Fin nb} (hne : b' ≠ b) (P P' : Period → K) : between b b' P P' b' = P' := by
  funext k
  simp [between, hne]

omit [LinearOrder K] [IsStrictOrderedRing K] in
theorem between_other {b b' c : Fin nb} (hb : c ≠ b) (hb' : c ≠ b') (P P' : Period → K) :
    between b b' P P' c = fun _ => 0 := by
  funext k
  simp [between, hb, hb']

theorem Sound.idle (h : f.Sound) (b : Fin nb) : f.RunsAt b (fun _ => 0) fun _ => 0 := by
  have hrating : -f.PbMax b ≤ 0 ∧ 0 ≤ f.PbMax b := ⟨neg_nonpos.2 (h.rating b), h.rating b⟩
  have hrest : ∀ k, energyAfter (f.E0 b) (fun _ => 0) k = f.E0 b := fun k => by
    match k with
    | 0 => simp [energyAfter]
    | 1 => simp [energyAfter]
  refine ⟨fun _ => hrating, fun _ => hrating, fun k => ?_, fun k => ?_⟩
  · rw [hrest]
    exact h.energy b
  · simp only [add_zero]
    rw [hrest]
    exact h.energy b

/-- Two batteries exchange base power. -/
theorem Sound.runs_between (h : f.Sound) {b b' : Fin nb} (hne : b' ≠ b) {P P' dP dP' : Period → K}
    (hb : f.RunsAt b P dP) (hb' : f.RunsAt b' P' dP') (hsum : ∀ k, P k + P' k = 0) :
    f.Runs (between b b' P P') (between b b' dP dP') := by
  refine ⟨fun c => ?_, fun k => ?_⟩
  · by_cases hcb : c = b
    · subst hcb
      rwa [between_left, between_left]
    · by_cases hcb' : c = b'
      · subst hcb'
        rwa [between_right hne, between_right hne]
      · rw [between_other hcb hcb', between_other hcb hcb']
        exact h.idle c
  · rw [Finset.sum_eq_add b b' hne.symm (fun c _ hc => ?_) (by simp) (by simp), between_left, between_right hne, hsum]
    rw [between_other hc.1 hc.2]

/-- The constraints on one battery, written out for its powers by day and at night. -/
theorem runsAt_of {b : Fin nb} {p q r s : K} (hp : -f.PbMax b ≤ p ∧ p ≤ f.PbMax b) (hq : -f.PbMax b ≤ q ∧ q ≤ f.PbMax b)
    (hr : -f.PbMax b ≤ r ∧ r ≤ f.PbMax b) (hs : -f.PbMax b ≤ s ∧ s ≤ f.PbMax b)
    (hday : 0 ≤ f.E0 b + p * (24 / 5) ∧ f.E0 b + p * (24 / 5) ≤ f.EbMax b)
    (hnight : 0 ≤ f.E0 b + p * (24 / 5) + q * (96 / 5) ∧ f.E0 b + p * (24 / 5) + q * (96 / 5) ≤ f.EbMax b)
    (hdDay : 0 ≤ f.E0 b + (p + r) * (24 / 5) ∧ f.E0 b + (p + r) * (24 / 5) ≤ f.EbMax b)
    (hdNight : 0 ≤ f.E0 b + (p + r) * (24 / 5) + (q + s) * (96 / 5) ∧
      f.E0 b + (p + r) * (24 / 5) + (q + s) * (96 / 5) ≤ f.EbMax b) : f.RunsAt b ![p, q] ![r, s] := by
  rw [← deltaT_day] at hday hdDay
  rw [← deltaT_day, ← deltaT_night] at hnight hdNight
  exact ⟨Fin.forall_fin_two.2 ⟨hp, hq⟩, Fin.forall_fin_two.2 ⟨hr, hs⟩, Fin.forall_fin_two.2 ⟨hday, hnight⟩,
    Fin.forall_fin_two.2 ⟨hdDay, hdNight⟩⟩

/-- Some positive number is below finitely many positive ones. -/
theorem exists_pos_le (xs : List K) (hxs : ∀ x ∈ xs, 0 < x) : ∃ e, 0 < e ∧ ∀ x ∈ xs, e ≤ x := by
  induction xs with
  | nil => exact ⟨1, one_pos, by simp⟩
  | cons x xs ih =>
    obtain ⟨e, he, hle⟩ := ih fun y hy => hxs y (List.mem_cons_of_mem _ hy)
    refine ⟨min x e, lt_min (hxs x (List.mem_cons_self ..)) he, fun y hy => ?_⟩
    rcases List.mem_cons.1 hy with rfl | hy
    · exact min_le_left _ _
    · exact (min_le_right _ _).trans (hle y hy)

/-- A battery with more room than a day's rating fills exceeds its rating when another one gives. -/
theorem StaysWithin.charge (hw : f.StaysWithin) (h : f.Sound) {b : Fin nb} (hb : 0 < f.PbMax b) :
    f.EbMax b - f.E0 b ≤ f.PbMax b * deltaT .day ∨ ∀ b', b' ≠ b → ¬ f.CanGive b' := by
  by_contra hno
  push Not at hno
  obtain ⟨hroom, b', hne, hb', hE'⟩ := hno
  rw [deltaT_day] at hroom
  obtain ⟨e, he, hle⟩ := exists_pos_le
    [f.PbMax b, f.PbMax b', f.E0 b' * 5 / 24, (f.EbMax b - f.E0 b - f.PbMax b * (24 / 5)) * 5 / 24] (by
      simp only [List.forall_mem_cons, List.not_mem_nil, false_imp_iff, implies_true, and_true]
      refine ⟨hb, hb', ?_, ?_⟩ <;> linarith)
  simp only [List.forall_mem_cons, List.not_mem_nil, false_imp_iff, implies_true, and_true] at hle
  obtain ⟨h1, h2, h3, h4⟩ := hle
  have hE := h.energy b
  have hE2 := h.energy b'
  -- by day `e` goes from `b'` to `b`, and the reserve of `b` is its whole rating
  have hrun : f.RunsAt b ![e, 0] ![f.PbMax b, 0] := by
    refine runsAt_of ?_ ?_ ?_ ?_ ?_ ?_ ?_ ?_ <;> constructor <;> linarith
  have hrun' : f.RunsAt b' ![-e, 0] ![0, 0] := by
    refine runsAt_of ?_ ?_ ?_ ?_ ?_ ?_ ?_ ?_ <;> constructor <;> linarith
  have hle := (hw _ _ (h.runs_between hne hrun hrun' (by rw [Fin.forall_fin_two]; simp)) b .day).2
  rw [between_left, between_left] at hle
  have hover : e + f.PbMax b ≤ f.PbMax b := hle
  linarith

theorem Sound.flip (h : f.Sound) : f.flip.Sound :=
  ⟨h.rating, fun b => ⟨sub_nonneg.2 (h.energy b).2, sub_le_self _ (h.energy b).1⟩⟩

theorem StaysWithin.discharge (hw : f.StaysWithin) (h : f.Sound) {b : Fin nb} (hb : 0 < f.PbMax b) :
    f.E0 b ≤ f.PbMax b * deltaT .day ∨ ∀ b', b' ≠ b → ¬ f.CanTake b' := by
  have hcharge := @StaysWithin.charge _ _ _ _ _ f.flip hw.flip h.flip b hb
  have hroom : f.flip.EbMax b - f.flip.E0 b = f.E0 b := sub_sub_cancel _ _
  rw [hroom] at hcharge
  simp only [flip_canGive] at hcharge
  exact hcharge

/-- A battery whose capacity is more than a night's rating fills, while the others are empty: it gives some energy by
day, which comes back at night. -/
theorem StaysWithin.night_of_empty (hw : f.StaysWithin) (h : f.Sound) {b b' : Fin nb} (hne : b' ≠ b) (hb : f.CanGive b)
    (hb' : f.CanTake b') (hE : f.E0 b ≤ f.PbMax b * deltaT .day) : f.EbMax b ≤ f.PbMax b * deltaT .night := by
  by_contra hover
  rw [not_le, deltaT_night] at hover
  rw [deltaT_day] at hE
  obtain ⟨hM, hE0⟩ := hb
  obtain ⟨hM', hroom'⟩ := hb'
  obtain ⟨e, he, hle⟩ := exists_pos_le
    [f.PbMax b, f.PbMax b', f.E0 b * 5 / 24, (f.EbMax b' - f.E0 b') * 5 / 24,
      (f.EbMax b - f.PbMax b * (96 / 5)) * 5 / 24] (by
      simp only [List.forall_mem_cons, List.not_mem_nil, false_imp_iff, implies_true, and_true]
      refine ⟨hM, hM', ?_, ?_, ?_⟩ <;> linarith)
  simp only [List.forall_mem_cons, List.not_mem_nil, false_imp_iff, implies_true, and_true] at hle
  obtain ⟨h1, h2, h3, h4, h5⟩ := hle
  have hEn := h.energy b
  have hEn' := h.energy b'
  -- the reserve empties `b` by day and adds its whole rating at night
  have hrun : f.RunsAt b ![-e, e / 4] ![e - f.E0 b * 5 / 24, f.PbMax b] := by
    refine runsAt_of ?_ ?_ ?_ ?_ ?_ ?_ ?_ ?_ <;> constructor <;> linarith
  have hrun' : f.RunsAt b' ![e, -(e / 4)] ![0, 0] := by
    refine runsAt_of ?_ ?_ ?_ ?_ ?_ ?_ ?_ ?_ <;> constructor <;> linarith
  have hle := (hw _ _ (h.runs_between hne hrun hrun' (by rw [Fin.forall_fin_two]; simp)) b .night).2
  rw [between_left, between_left] at hle
  have hover' : e / 4 + f.PbMax b ≤ f.PbMax b := hle
  linarith

theorem StaysWithin.night (hw : f.StaysWithin) (h : f.Sound) {b : Fin nb} (hb : 0 < f.PbMax b) :
    f.EbMax b ≤ f.PbMax b * deltaT .night ∨ ¬ (f.CanGive b ∧ f.CanTake b) ∨
      ∀ b', b' ≠ b → 0 < f.PbMax b' → f.EbMax b' ≤ 0 := by
  by_contra hno
  push Not at hno
  obtain ⟨hover, ⟨hgive, htake⟩, b', hne, hb', hcap'⟩ := hno
  have hcharge := hw.charge h hb
  have hdischarge := hw.discharge h hb
  have hlarge := hover
  rw [deltaT_night] at hlarge
  rw [deltaT_day] at hcharge hdischarge
  by_cases hroom : f.EbMax b - f.E0 b ≤ f.PbMax b * (24 / 5)
  · -- the others are full
    have hnone := hdischarge.resolve_left (by linarith) b' hne
    have hfull : f.EbMax b' ≤ f.E0 b' := not_lt.1 fun hE => hnone ⟨hb', hE⟩
    have hflip := @StaysWithin.night_of_empty _ _ _ _ _ f.flip hw.flip h.flip b b' hne (flip_canGive.2 htake)
      (flip_canTake.2 ⟨hb', hcap'.trans_le hfull⟩) (by rw [deltaT_day]; exact hroom)
    exact hover.not_ge hflip
  · -- the others are empty
    have hnone := hcharge.resolve_left hroom b' hne
    have hempty : f.E0 b' ≤ 0 := not_lt.1 fun hE => hnone ⟨hb', hE⟩
    have hdis : f.E0 b ≤ f.PbMax b * deltaT .day := by
      rw [deltaT_day]
      exact hdischarge.resolve_right fun hno => hno b' hne ⟨hb', hempty.trans_lt hcap'⟩
    exact hover.not_ge (hw.night_of_empty h hne hgive ⟨hb', hempty.trans_lt hcap'⟩ hdis)

/-- Batteries stay within their ratings exactly when they are limited. -/
theorem Sound.staysWithin_iff (h : f.Sound) : f.StaysWithin ↔ f.Confined :=
  ⟨fun hw _ hb => ⟨hw.charge h hb, hw.discharge h hb, hw.night h hb⟩, Confined.staysWithin⟩

end Fleet

end Grip.Islanding
