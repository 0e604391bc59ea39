/-
The temperature bands of a house. `check_stat` tests both set points with strict inequalities, so a
temperature exactly on an outer limit is in no band and beyond none, and counts as between them; and
`turn_on` picks heating or cooling by two degrees around the set points, whatever the deadband is and
whichever of the two the state of charge is about.
-/
import GripAbsorption.Packetized.Pem

namespace Grip.Packetized.GldHVAC

universe u

variable {K : Type u} [Field K] [LinearOrder K] [IsStrictOrderedRing K] {d : GldHVAC K} {h : K}

/-! ## The tests as intervals -/

omit [IsStrictOrderedRing K] in
theorem within_iff {sp : K} :
    d.within h sp = true ↔ sp - (d.pemRange + h) < d.temperature ∧ d.temperature < sp + (d.pemRange + h) :=
  decide_eq_true_iff

theorem beyond_upp_iff : d.beyond h d.setpointUpp 1 = true ↔ d.setpointUpp + (d.pemRange + h) < d.temperature := by
  unfold beyond
  rw [decide_eq_true_iff]
  constructor <;> intro hlt <;> linarith

theorem beyond_low_iff : d.beyond h d.setpointLow (-1) = true ↔ d.temperature < d.setpointLow - (d.pemRange + h) := by
  unfold beyond
  rw [decide_eq_true_iff]
  constructor <;> intro hlt <;> linarith

omit [IsStrictOrderedRing K] in
/-- A request is rolled for each set point whose band has the temperature. -/
theorem checkStat_request (d : GldHVAC K) (dice : Dice K) (h : K) : d.checkStat dice .request h =
    (d.within h d.setpointUpp && reqDieRoll (dice 0) d.soc || d.within h d.setpointLow && reqDieRoll (dice 1) d.soc) := by
  simp only [checkStat, List.foldl_cons, List.foldl_nil]
  cases d.within h d.setpointUpp <;> cases d.within h d.setpointLow <;>
    cases d.beyond h d.setpointUpp 1 <;> cases d.beyond h d.setpointLow (-1) <;>
    cases reqDieRoll (dice 0) d.soc <;> cases reqDieRoll (dice 1) d.soc <;> rfl

/-! ## Classification -/

/-- What the three tests are for. -/
structure Classified (d : GldHVAC K) (h : K) : Prop where
  exitOn : ∀ dice, d.checkStat dice .exitOn h = true ↔
    d.temperature > d.setpointUpp + d.pemRange + h ∨ d.temperature < d.setpointLow - d.pemRange - h
  exitOff : ∀ dice, d.checkStat dice .exitOff h = true ↔
    d.setpointLow + d.pemRange + h ≤ d.temperature ∧ d.temperature ≤ d.setpointUpp - d.pemRange - h
  request : ∀ dice, d.checkStat dice .request h = true → ∃ sp ∈ [d.setpointUpp, d.setpointLow],
    sp - (d.pemRange + h) < d.temperature ∧ d.temperature < sp + (d.pemRange + h)
  outer : ∀ dice, d.setpointUpp + d.pemRange + h ≤ d.temperature ∨ d.temperature ≤ d.setpointLow - d.pemRange - h →
    d.checkStat dice .exitOff h = false

theorem exitOn_iff (dice : Dice K) : d.checkStat dice .exitOn h = true ↔
    d.temperature > d.setpointUpp + d.pemRange + h ∨ d.temperature < d.setpointLow - d.pemRange - h := by
  rw [checkStat_exitOn, Bool.or_eq_true, beyond_upp_iff, beyond_low_iff, add_assoc, sub_sub]

/-- The test for `EXIT_OFF` is also met on the outer limits. -/
theorem exitOff_iff (hset : d.setpointLow ≤ d.setpointUpp) (hp : 0 < d.pemRange) (hh : 0 ≤ h) (dice : Dice K) :
    d.checkStat dice .exitOff h = true ↔
      (d.setpointLow + d.pemRange + h ≤ d.temperature ∧ d.temperature ≤ d.setpointUpp - d.pemRange - h) ∨
      d.temperature = d.setpointUpp + d.pemRange + h ∨ d.temperature = d.setpointLow - d.pemRange - h := by
  have hbool : d.checkStat dice .exitOff h = true ↔
      (¬ d.within h d.setpointUpp = true ∧ ¬ d.within h d.setpointLow = true) ∧
      ¬ d.beyond h d.setpointUpp 1 = true ∧ ¬ d.beyond h d.setpointLow (-1) = true := by
    rw [checkStat_exitOff]
    simp only [Bool.and_eq_true, Bool.not_eq_true', Bool.not_eq_true, and_assoc]
  rw [hbool, within_iff, within_iff, beyond_upp_iff, beyond_low_iff]
  constructor
  · rintro ⟨⟨hupp, hlow⟩, houtUpp, houtLow⟩
    rw [not_lt] at houtUpp houtLow
    by_cases hbelow : d.temperature ≤ d.setpointUpp - (d.pemRange + h)
    · by_cases habove : d.setpointLow + (d.pemRange + h) ≤ d.temperature
      · exact .inl ⟨by linarith, by linarith⟩
      · -- below both bands
        have hle : d.temperature ≤ d.setpointLow - (d.pemRange + h) := by
          by_contra hlt
          exact hlow ⟨not_le.1 hlt, not_le.1 habove⟩
        exact .inr (.inr (by linarith))
    · -- above the upper band
      have hle : d.setpointUpp + (d.pemRange + h) ≤ d.temperature := by
        by_contra hlt
        exact hupp ⟨not_le.1 hbelow, not_le.1 hlt⟩
      exact .inr (.inl (by linarith))
  · rintro (⟨hlow, hupp⟩ | heq | heq)
    · refine ⟨⟨fun hw => ?_, fun hw => ?_⟩, fun hlt => ?_, fun hlt => ?_⟩ <;> linarith
    · refine ⟨⟨fun hw => ?_, fun hw => ?_⟩, fun hlt => ?_, fun hlt => ?_⟩ <;> linarith
    · refine ⟨⟨fun hw => ?_, fun hw => ?_⟩, fun hlt => ?_, fun hlt => ?_⟩ <;> linarith

omit [IsStrictOrderedRing K] in
theorem request_within {dice : Dice K} (hreq : d.checkStat dice .request h = true) :
    d.within h d.setpointUpp = true ∨ d.within h d.setpointLow = true := by
  rw [checkStat_request, Bool.or_eq_true, Bool.and_eq_true, Bool.and_eq_true] at hreq
  exact hreq.imp And.left And.left

/-- The tests classify a temperature exactly when it is on neither outer limit. -/
theorem classified_iff (hset : d.setpointLow ≤ d.setpointUpp) (hp : 0 < d.pemRange) (hh : 0 ≤ h) :
    d.Classified h ↔
      d.temperature ≠ d.setpointUpp + d.pemRange + h ∧ d.temperature ≠ d.setpointLow - d.pemRange - h := by
  constructor
  · intro hc
    have hoff : ¬ (d.temperature = d.setpointUpp + d.pemRange + h ∨ d.temperature = d.setpointLow - d.pemRange - h) := by
      intro hT
      have hexit := (exitOff_iff hset hp hh noDice).2 (.inr hT)
      rw [hc.outer noDice (hT.imp ge_of_eq le_of_eq)] at hexit
      cases hexit
    exact not_or.1 hoff
  · rintro ⟨hupp, hlow⟩
    have hexit : ∀ dice, d.checkStat dice .exitOff h = true ↔
        d.setpointLow + d.pemRange + h ≤ d.temperature ∧ d.temperature ≤ d.setpointUpp - d.pemRange - h := fun dice =>
      (exitOff_iff hset hp hh dice).trans (or_iff_left (not_or.2 ⟨hupp, hlow⟩))
    refine ⟨exitOn_iff, hexit, fun dice hreq => ?_, fun dice houter => ?_⟩
    · rcases request_within hreq with hw | hw
      · exact ⟨_, by simp, within_iff.1 hw⟩
      · exact ⟨_, by simp, within_iff.1 hw⟩
    · rw [← Bool.not_eq_true, hexit]
      rintro ⟨hl, hu⟩
      rcases houter with houter | houter <;> linarith

/-- A house set to 65 and 76 degrees with a deadband of 2, at 90 degrees outside. -/
def summerHouse (T : ℚ) : GldHVAC ℚ := init (fun _ => ⟨T, 0, 90⟩) 1 76 65 2

theorem summerHouse_classified : (summerHouse 77).Classified 0 :=
  (classified_iff (d := summerHouse 77) (by decide +kernel) (by decide +kernel) le_rfl).2
    ⟨by decide +kernel, by decide +kernel⟩

/-- On its outer limit the house is told to stay off. -/
theorem summerHouse_exitOff : (summerHouse 78).checkStat noDice .exitOff 0 = true ∧ ¬ (summerHouse 78).Classified 0 := by
  have hoff : (summerHouse 78).checkStat noDice .exitOff 0 = true := by decide +kernel
  refine ⟨hoff, fun hc => ?_⟩
  rw [hc.outer noDice (.inl (by decide +kernel))] at hoff
  cases hoff

/-! ## The direction of a grant -/

/-- Some roll of the dice makes the house ask for power. -/
def CanRequest (d : GldHVAC K) : Prop := ∃ dice, d.checkStat dice .request 0 = true

/-- The state of charge is about heating. -/
def heating (d : GldHVAC K) : Bool := d.outsideT ≤ d.setpointLow + (d.setpointUpp - d.setpointLow) / ((2 : ℕ) : K)

/-- `turn_on` sets the mode that raises the state of charge, whatever the mode was. -/
def RunsRight (d : GldHVAC K) : Prop :=
  ∀ st : GldState K, (d.turnOn st).systemMode d.id = if d.heating then .heat else .cool

theorem canRequest_iff : d.CanRequest ↔ (d.within 0 d.setpointUpp = true ∨ d.within 0 d.setpointLow = true) ∧ d.soc < 1 := by
  constructor
  · rintro ⟨dice, hreq⟩
    refine ⟨request_within hreq, lt_of_not_ge fun hsoc => ?_⟩
    have hno : ∀ roll, reqDieRoll roll d.soc = false := fun roll => by
      unfold reqDieRoll
      rw [if_neg (not_le.2 (zero_lt_one.trans_le hsoc)), if_pos hsoc]
    rw [checkStat_request, hno, hno, Bool.and_false, Bool.and_false] at hreq
    cases hreq
  · rintro ⟨hw, hsoc⟩
    have hyes : reqDieRoll (fun _ => true) d.soc = true := by
      unfold reqDieRoll
      rw [if_neg (not_le.2 hsoc), ite_self]
    refine ⟨fun _ _ => true, ?_⟩
    rw [checkStat_request, hyes, Bool.and_true, Bool.and_true, Bool.or_eq_true]
    exact hw

omit [IsStrictOrderedRing K] in
/-- What `turn_on` does to the mode. -/
theorem systemMode_turnOn (d : GldHVAC K) (st : GldState K) : (d.turnOn st).systemMode d.id =
    if d.temperature > d.setpointUpp - 2 then .cool
    else if d.temperature < d.setpointLow + 2 then .heat
    else st.systemMode d.id := by
  unfold turnOn
  split_ifs <;> simp

omit [IsStrictOrderedRing K] in
/-- The mode is right exactly when the margins of two degrees say so. -/
theorem runsRight_iff : d.RunsRight ↔
    if d.heating then d.temperature ≤ d.setpointUpp - 2 ∧ d.temperature < d.setpointLow + 2
    else d.setpointUpp - 2 < d.temperature := by
  unfold RunsRight
  simp only [systemMode_turnOn]
  constructor
  · intro h
    -- a house that was off shows what is set
    have hoff := h ⟨fun _ => .full, fun _ => .off, fun _ => 0, fun _ => false, fun _ => none⟩
    by_cases hcool : d.setpointUpp - 2 < d.temperature
    · rw [if_pos hcool] at hoff
      cases hmode : d.heating with
      | true =>
        rw [hmode] at hoff
        cases hoff
      | false => rwa [if_neg Bool.false_ne_true]
    · rw [if_neg hcool] at hoff
      by_cases hheat : d.temperature < d.setpointLow + 2
      · rw [if_pos hheat] at hoff
        cases hmode : d.heating with
        | true =>
          rw [if_pos rfl]
          exact ⟨not_lt.1 hcool, hheat⟩
        | false =>
          rw [hmode] at hoff
          cases hoff
      · rw [if_neg hheat] at hoff
        cases hmode : d.heating <;> rw [hmode] at hoff <;> cases hoff
  · intro h st
    cases hheat : d.heating with
    | false =>
      rw [hheat, if_neg Bool.false_ne_true] at h
      rw [if_pos h, if_neg Bool.false_ne_true]
    | true =>
      rw [hheat, if_pos rfl] at h
      rw [if_neg (not_lt.2 h.1), if_pos h.2, if_pos rfl]

section

variable {gld : Gld K} {customer : ℕ} {upp low p : K}

/-- The state of charge is below 1 on the near side of the band of the mode's set point. -/
theorem soc_init_lt_one_iff (hp : 0 < p) : (init gld customer upp low p).soc < 1 ↔
    if (init gld customer upp low p).heating then (gld (.house customer)).temperature < low + p
    else upp - p < (gld (.house customer)).temperature := by
  have hp2 : 0 < p * 2 := by linarith
  have hheating : (init gld customer upp low p).heating =
    decide ((gld (.house customer)).outdoor ≤ low + (upp - low) / 2) := rfl
  have hsoc : (init gld customer upp low p).soc =
      if (gld (.house customer)).outdoor ≤ low + (upp - low) / 2 then
        ((gld (.house customer)).temperature - (low - p)) / (p * 2)
      else ((upp + p) - (gld (.house customer)).temperature) / (p * 2) := rfl
  rw [hsoc, hheating]
  by_cases h : (gld (.house customer)).outdoor ≤ low + (upp - low) / 2
  · rw [if_pos h, decide_eq_true h, if_pos rfl, div_lt_one hp2]
    constructor <;> intro hlt <;> linarith
  · rw [if_neg h, decide_eq_false h, if_neg Bool.false_ne_true, div_lt_one hp2]
    constructor <;> intro hlt <;> linarith

/-- A house can ask in heating mode within the lower band, in cooling mode within the upper one. -/
theorem canRequest_init (hset : low ≤ upp) (hp : 0 < p) : (init gld customer upp low p).CanRequest ↔
    if (init gld customer upp low p).heating then low - p < (gld (.house customer)).temperature ∧
      (gld (.house customer)).temperature < low + p
    else upp - p < (gld (.house customer)).temperature ∧ (gld (.house customer)).temperature < upp + p := by
  have hwithin : ∀ sp, (init gld customer upp low p).within 0 sp = true ↔
      sp - p < (gld (.house customer)).temperature ∧ (gld (.house customer)).temperature < sp + p := fun sp => by
    rw [within_iff]
    change sp - (p + 0) < (gld (.house customer)).temperature ∧ (gld (.house customer)).temperature < sp + (p + 0) ↔ _
    rw [add_zero]
  rw [canRequest_iff, soc_init_lt_one_iff hp]
  change ((init gld customer upp low p).within 0 upp = true ∨ (init gld customer upp low p).within 0 low = true) ∧ _ ↔ _
  rw [hwithin, hwithin]
  cases (init gld customer upp low p).heating with
  | true =>
    rw [if_pos rfl, if_pos rfl]
    constructor
    · rintro ⟨hw | hw, hlt⟩
      · exact ⟨by linarith, hlt⟩
      · exact ⟨hw.1, hlt⟩
    · intro hw
      exact ⟨.inr hw, hw.2⟩
  | false =>
    rw [if_neg Bool.false_ne_true, if_neg Bool.false_ne_true]
    constructor
    · rintro ⟨hw | hw, hlt⟩
      · exact ⟨hlt, hw.2⟩
      · exact ⟨hlt, by linarith⟩
    · intro hw
      exact ⟨.inl hw, hw.1⟩

/-- A house that may be granted power runs in the right direction exactly when the margins of two degrees agree with its
mode; for all temperatures that is so exactly when the deadband is at most 2 and fits twice between the set points. -/
theorem runsRight_init_iff (hset : low ≤ upp) (hp : 0 < p) (customer : ℕ) :
    (∀ gld : Gld K, (init gld customer upp low p).CanRequest →
      ((init gld customer upp low p).RunsRight ↔
        if (init gld customer upp low p).heating then (gld (.house customer)).temperature ≤ upp - 2 ∧
          (gld (.house customer)).temperature < low + 2
        else upp - 2 < (gld (.house customer)).temperature)) ∧
    ((∀ gld : Gld K, (init gld customer upp low p).CanRequest → (init gld customer upp low p).RunsRight) ↔
      p ≤ 2 ∧ p + 2 ≤ upp - low) := by
  refine ⟨fun _ _ => runsRight_iff, fun h => ?_, fun ⟨hp2, hgap⟩ gld hreq => ?_⟩
  · -- heating weather, at a temperature in the lower band
    have hheat : ∀ T, low - p < T → T < low + p → T ≤ upp - 2 ∧ T < low + 2 := by
      intro T hl hu
      have hmode : (init (fun _ => ⟨T, 0, low⟩) customer upp low p).heating = true :=
        decide_eq_true (show low ≤ low + (upp - low) / 2 by linarith)
      have hright := h (fun _ => ⟨T, 0, low⟩) ((canRequest_init hset hp).2 (by rw [hmode]; exact ⟨hl, hu⟩))
      rw [runsRight_iff, hmode] at hright
      exact hright
    constructor
    · by_contra hlt
      rw [not_le] at hlt
      exact lt_irrefl _ (hheat (low + 2) (by linarith) (by linarith)).2
    · by_contra hlt
      rw [not_le] at hlt
      obtain ⟨T, hT, hTp⟩ := exists_between (show max (low - p) (upp - 2) < low + p from
        max_lt (by linarith) (by linarith))
      have hle := (hheat T ((le_max_left _ _).trans_lt hT) hTp).1
      exact absurd ((le_max_right _ _).trans_lt hT) (not_lt.2 hle)
  · rw [canRequest_init hset hp] at hreq
    rw [runsRight_iff]
    cases hmode : (init gld customer upp low p).heating with
    | true =>
      rw [hmode, if_pos rfl] at hreq
      rw [if_pos rfl]
      exact ⟨show (gld (.house customer)).temperature ≤ upp - 2 by linarith,
        show (gld (.house customer)).temperature < low + 2 by linarith⟩
    | false =>
      rw [hmode, if_neg Bool.false_ne_true] at hreq
      rw [if_neg Bool.false_ne_true]
      exact show upp - 2 < (gld (.house customer)).temperature by linarith

end

/-- A house set to 65 and 76 degrees, at 40 degrees outside. -/
def winterHouse (p T : ℚ) : GldHVAC ℚ := init (fun _ => ⟨T, 0, 40⟩) 1 76 65 p

theorem winterHouse_runsRight : (winterHouse 2 66).CanRequest ∧ (winterHouse 2 66).RunsRight := by
  have hreq : (winterHouse 2 66).CanRequest := ⟨fun _ _ => true, by decide +kernel⟩
  exact ⟨hreq, ((runsRight_init_iff (by norm_num) (by norm_num) 1).2.2 ⟨by norm_num, by norm_num⟩) _ hreq⟩

/-- With a deadband of 4 it asks for power at 68 degrees and is left off. -/
theorem winterHouse_left_off : (winterHouse 4 68).CanRequest ∧
    (∀ st : GldState ℚ, st.systemMode (.house 1) = .off → ((winterHouse 4 68).turnOn st).systemMode (.house 1) = .off) ∧
    ¬ (winterHouse 4 68).RunsRight := by
  have hoff : ∀ st : GldState ℚ, ((winterHouse 4 68).turnOn st).systemMode (.house 1) = st.systemMode (.house 1) := by
    intro st
    refine (systemMode_turnOn (winterHouse 4 68) st).trans ?_
    rw [if_neg (by decide +kernel), if_neg (by decide +kernel)]
    rfl
  refine ⟨⟨fun _ _ => true, by decide +kernel⟩, fun st hst => (hoff st).trans hst, fun h => ?_⟩
  have hno := runsRight_iff.1 h
  revert hno
  decide +kernel

end Grip.Packetized.GldHVAC
