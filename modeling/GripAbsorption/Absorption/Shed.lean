/-
How many houses of an island are off after a management step. A positive shed calls for a number of
houses, which the step compares with all houses that are off, of whatever island; the disconnect
count is lowered by them only when it is no less, and nothing is adjusted when the shed is zero. So
the count follows the shed exactly when these differences do not matter.
-/
import GripAbsorption.Absorption.Houses

namespace Grip.Absorption.Globals

open Grip.Base Grip.Packetized Relation

variable {net : Network} {inp : ManageInput} {island : Island} {s s' : Globals}

/-! ## Counting -/

/-- The houses of the island that are interrupted. -/
def ownOff (net : Network) (s : Globals) (island : Island) : ℕ :=
  net.houses.countP fun n => decide (net.supernodeName (.house n) ∈ island) && s.gldState.customerInterrupted n

theorem Kept.ownOff_eq (h : Kept net s) (island : Island) :
    ownOff net s island = s.housesOff.countP fun n => decide (net.supernodeName (.house n) ∈ island) := by
  unfold ownOff
  rw [List.countP_eq_length_filter, List.countP_eq_length_filter]
  refine List.Perm.length_eq ((List.perm_ext_iff_of_nodup (net.houses_nodup.filter _) (h.nodup.filter _)).2 fun n => ?_)
  simp only [List.mem_filter, Bool.and_eq_true, decide_eq_true_eq, h.interrupted n]
  constructor
  · rintro ⟨-, hi, ho⟩; exact ⟨ho, hi⟩
  · rintro ⟨ho, hi⟩; exact ⟨h.houses n ho, hi, ho⟩

theorem Kept.ownOff_le (h : Kept net s) (island : Island) : ownOff net s island ≤ s.housesOff.length := by
  rw [h.ownOff_eq]; exact List.countP_le_length

/-- All houses that are off are the island's when their numbers agree. -/
theorem Kept.allOwn_iff (h : Kept net s) (island : Island) :
    AllOwn net s island ↔ ownOff net s island = s.housesOff.length := by
  rw [h.ownOff_eq, List.countP_eq_length]
  simp [AllOwn]

theorem ownOff_congr (h : s'.gldState.customerInterrupted = s.gldState.customerInterrupted) :
    ownOff net s' island = ownOff net s island := by
  unfold ownOff; rw [h]

/-! ## The shed column -/

section

variable {x : ℚ} {r : ℚ × ℤ} {vb : VirtualBattery ℚ}

/-- The shed's setpoint keeps the law and the devices. -/
theorem Kept.setpoint (h : Kept net s) (hb : s.battery island = .ok vb) (y : ℚ) :
    Kept net (s.setBattery island { vb with setpoint := y }) ∧
      (s.setBattery island { vb with setpoint := y }).battery island = .ok { vb with setpoint := y } := by
  refine ⟨?_, by rw [battery_setBattery s hb, if_pos rfl]⟩
  have hm : VirtualMove (ManageInput.mk 0 (fun _ => ⟨0, 0, 0⟩) (fun _ => Dict.empty)
      (fun _ _ => ⟨fun _ _ _ => true, fun _ => 0, fun _ => 0, fun _ => 0⟩) fun _ _ => 0) island s _ := .setpoint y hb
  exact (h.virtualMoves (.single hm)).1

/-- A shed disconnects houses of the island, and then reconnects. -/
theorem Kept.shed_loops (h : Kept net s) (hrow : (inp.row island).get? "shed" = some x) (hx : 0 < x)
    (hr : s.calledFor island (inp.row island) x = .ok r) (hb : s.battery island = .ok vb)
    (hs : s.shedPart inp island = .ok s') : ∃ s₁ off, Kept net s₁ ∧ s₁.housesOff = s.housesOff ++ off ∧
      off.length = min (turns r.2 s.housesOff.length).1 (houseKeys vb).length ∧
      (∀ n ∈ off, net.supernodeName (.house n) ∈ island) ∧
      reconnectLoop island inp.time (inp.chance island "shed").reconnect 0 (turns r.2 s.housesOff.length).2 s₁ = .ok s' := by
  unfold shedPart at hs
  rw [hrow] at hs
  obtain ⟨sp, called, vb', s₁, hr', hb', h₁, h₂⟩ := (shedColumn_eq_ok hx).1 hs
  rw [hr] at hr'
  rw [hb] at hb'
  cases hr'
  cases hb'
  obtain ⟨hk, hbat⟩ := h.setpoint hb sp
  obtain ⟨hk₁, off, hoff, hlen, hown⟩ := disconnectLoop_spec _ _ _ _ _ _ hk hbat h₁
  exact ⟨s₁, off, hk₁, hoff, hlen, hown, h₂⟩

/-- A shed that calls for at least the houses that are off disconnects the difference. -/
theorem Kept.shed_disconnects (h : Kept net s) (hrow : (inp.row island).get? "shed" = some x) (hx : 0 < x)
    (hr : s.calledFor island (inp.row island) x = .ok r) (hb : s.battery island = .ok vb)
    (hle : (s.housesOff.length : ℤ) ≤ r.2) (hs : s.shedPart inp island = .ok s') : Kept net s' ∧
      ownOff net s' island = ownOff net s island + min (r.2 - s.housesOff.length).toNat (houseKeys vb).length := by
  obtain ⟨s₁, off, hk', hoff, hlen, hown, hturns⟩ := h.shed_loops hrow hx hr hb hs
  simp only [turns, if_pos hle] at hlen hturns
  cases hturns
  refine ⟨hk', ?_⟩
  have hall : off.countP (fun n => decide (net.supernodeName (.house n) ∈ island)) = off.length :=
    List.countP_eq_length.2 fun n hn => decide_eq_true (hown n hn)
  rw [hk'.ownOff_eq, h.ownOff_eq, hoff, List.countP_append, hall, hlen]

/-- A shed that calls for fewer houses than are off disconnects that many as well and then reconnects
down to the sum. -/
theorem Kept.shed_reconnects (h : Kept net s) (hrow : (inp.row island).get? "shed" = some x) (hx : 0 < x)
    (hr : s.calledFor island (inp.row island) x = .ok r) (hb : s.battery island = .ok vb)
    (hlt : r.2 < s.housesOff.length) (hall : AllOwn net s island) (hs : s.shedPart inp island = .ok s') :
    Kept net s' ∧ 0 ≤ r.2 ∧ (ownOff net s' island : ℤ) = r.2 + min r.2 (houseKeys vb).length := by
  obtain ⟨s₁, off, hk₁, hoff, hlen, hown, hturns⟩ := h.shed_loops hrow hx hr hb hs
  simp only [turns, if_neg (not_le.2 hlt)] at hlen hturns
  have hall₁ : AllOwn net s₁ island := by
    intro n hn
    rw [hoff] at hn
    rcases List.mem_append.1 hn with hn | hn
    · exact hall n hn
    · exact hown n hn
  obtain ⟨hk', hall', hlen'⟩ := reconnectLoop_spec _ _ _ _ _ _ hk₁ hall₁ hturns
  rw [hoff, List.length_append, hlen] at hlen'
  have hcount := (hk'.allOwn_iff island).1 hall'
  have hpos : 0 ≤ r.2 := by
    -- a negative number would reconnect more houses than are off
    by_contra hneg
    have h0 : r.2.toNat = 0 := by omega
    omega
  exact ⟨hk', hpos, by omega⟩

end

/-! ## Sheds that are followed -/

/-- After the step the island's houses that are off are as many as the shed calls for, up to those that
were off or in the battery; none without a shed. -/
def Follows (net : Network) (s : Globals) (p : ManageInput × Island) : Prop :=
  ∀ s', manageStep net s p = .ok s' → ∀ x, (p.1.row p.2).get? "shed" = some x →
    (x ≤ 0 → ownOff net s' p.2 = 0) ∧
    (0 < x → ∀ r, s.calledFor p.2 (p.1.row p.2) x = .ok r → ∀ vb, s.battery p.2 = .ok vb →
      (ownOff net s' p.2 : ℤ) = min r.2 (ownOff net s p.2 + (houseKeys vb).length))

instance (p : ManageInput × Island) : Decidable (Follows net s p) := by unfold Follows; infer_instance

/-- The differences do not matter: without a shed no house of the island is off; with one, all houses that
are off are the island's and none is disconnected on the way to reconnecting, or the shed calls for all. -/
def Followable (net : Network) (s : Globals) (p : ManageInput × Island) : Prop :=
  PlainRow (p.1.row p.2) ∧ ∀ x, (p.1.row p.2).get? "shed" = some x →
    (x ≤ 0 → ownOff net s p.2 = 0) ∧
    (0 < x → ∀ r, s.calledFor p.2 (p.1.row p.2) x = .ok r → ∀ vb, s.battery p.2 = .ok vb →
      (AllOwn net s p.2 ∧ ((s.housesOff.length : ℤ) ≤ r.2 ∨ r.2 = 0 ∨ houseKeys vb = [])) ∨
        (s.housesOff.length + (houseKeys vb).length : ℤ) ≤ r.2)

instance (p : ManageInput × Island) : Decidable (Followable net s p) := by unfold Followable; infer_instance

/-- The island's houses that are off after a step or its shed, by the cases of the two counts. -/
def Counted (net : Network) (s : Globals) (p : ManageInput × Island) (s' : Globals) : Prop :=
  ∀ x, (p.1.row p.2).get? "shed" = some x → (x ≤ 0 → ownOff net s' p.2 = ownOff net s p.2) ∧
    (0 < x → ∀ r, s.calledFor p.2 (p.1.row p.2) x = .ok r → ∀ vb, s.battery p.2 = .ok vb →
      ((s.housesOff.length : ℤ) ≤ r.2 →
        ownOff net s' p.2 = ownOff net s p.2 + min (r.2 - s.housesOff.length).toNat (houseKeys vb).length) ∧
      (r.2 < s.housesOff.length → 0 ≤ r.2 ∧ (ownOff net s' p.2 : ℤ) = r.2 + min r.2 (houseKeys vb).length))

/-- Houses are reconnected only when all that are off are the island's. -/
def ReconnectsOwn (net : Network) (s : Globals) (p : ManageInput × Island) : Prop :=
  ∀ x, (p.1.row p.2).get? "shed" = some x → 0 < x →
    ∀ r, s.calledFor p.2 (p.1.row p.2) x = .ok r → r.2 < s.housesOff.length → AllOwn net s p.2

instance (p : ManageInput × Island) : Decidable (ReconnectsOwn net s p) := by unfold ReconnectsOwn; infer_instance

theorem Kept.shedPart {p : ManageInput × Island} (h : Kept net s) (hown : ReconnectsOwn net s p)
    (hs : s.shedPart p.1 p.2 = .ok s') : Kept net s' ∧ Counted net s p s' := by
  obtain ⟨inp, island⟩ := p
  cases hx : (inp.row island).get? "shed" with
  | none =>
    have h0 := hs
    unfold Globals.shedPart at h0
    rw [hx] at h0
    cases h0
    exact ⟨h, fun x hx' => by rw [hx] at hx'; cases hx'⟩
  | some x =>
    have hcol := hs
    unfold Globals.shedPart at hcol
    rw [hx] at hcol
    by_cases hpos : 0 < x
    · -- the column completes, so the called number and the battery are there
      obtain ⟨sp, called, vb, s₀, hr, hb, -⟩ := (shedColumn_eq_ok hpos).1 hcol
      suffices hc : Kept net s' ∧ ((s.housesOff.length : ℤ) ≤ called →
          ownOff net s' island = ownOff net s island + min (called - s.housesOff.length).toNat (houseKeys vb).length) ∧
          (called < s.housesOff.length → 0 ≤ called ∧ (ownOff net s' island : ℤ) = called + min called (houseKeys vb).length) by
        refine ⟨hc.1, fun y hy => ?_⟩
        rw [show y = x from Option.some.inj (hy.symm.trans hx)]
        refine ⟨fun hn => absurd hpos (not_lt.2 hn), fun _ r hr' vb' hb' => ?_⟩
        rw [show r = (sp, called) from Except.ok.inj (hr'.symm.trans hr), show vb' = vb from Except.ok.inj (hb'.symm.trans hb)]
        exact hc.2
      by_cases hle : (s.housesOff.length : ℤ) ≤ called
      · obtain ⟨hk, hcount⟩ := h.shed_disconnects hx hpos hr hb hle hs
        exact ⟨hk, fun _ => hcount, fun hlt => absurd hle (not_le.2 hlt)⟩
      · have hlt := not_le.1 hle
        obtain ⟨hk, hcount⟩ := h.shed_reconnects hx hpos hr hb hlt (hown x hx hpos _ hr hlt) hs
        exact ⟨hk, fun hle' => absurd hle' hle, fun _ => hcount⟩
    · simp only [shedColumn, if_neg hpos] at hcol
      cases hcol
      refine ⟨h, fun y hy => ?_⟩
      rw [show y = x from Option.some.inj (hy.symm.trans hx)]
      exact ⟨fun _ => rfl, fun hp => absurd hp hpos⟩

/-- A completed step on a plain row that reconnects houses of the island only. -/
theorem Kept.manageStep {p : ManageInput × Island} (h : Kept net s) (hrow : PlainRow (p.1.row p.2))
    (hown : ReconnectsOwn net s p) (hs : manageStep net s p = .ok s') : Kept net s' ∧ Counted net s p s' := by
  obtain ⟨s₁, s₂, bal, hshed, hmoves, rfl⟩ := manageIsland_plain hrow hs
  obtain ⟨hk₁, hc⟩ := h.shedPart hown hshed
  -- what follows the shed changes neither the law nor the count
  obtain ⟨hk₂, hint⟩ := hk₁.virtualMoves hmoves
  have hcount : ownOff net { s₂ with powerbal := s₂.powerbal.put p.2 bal } p.2 = ownOff net s₁ p.2 := ownOff_congr hint
  refine ⟨⟨hk₂.nodup, hk₂.houses, hk₂.interrupted, hk₂.devices, hk₂.disjoint⟩, ?_⟩
  unfold Counted
  rw [hcount]
  exact hc

theorem Followable.reconnectsOwn {p : ManageInput × Island} (h : Followable net s p) (hs : manageStep net s p = .ok s') :
    ReconnectsOwn net s p := by
  intro x hx hpos r hr hlt
  obtain ⟨vb, -, -, -, hb, -⟩ := manageIsland_eq_ok.1 hs
  rcases (h.2 x hx).2 hpos r hr vb hb with ⟨hall, -⟩ | hle
  · exact hall
  · omega

/-- A step follows its shed exactly under the condition, when it completes on a plain row and reconnects
houses of the island only. -/
theorem Kept.follows_iff {p : ManageInput × Island} (h : Kept net s) (hrow : PlainRow (p.1.row p.2))
    (hown : ReconnectsOwn net s p) (hs : Globals.manageStep net s p = .ok s') : Follows net s p ↔ Followable net s p := by
  obtain ⟨-, hc⟩ := h.manageStep hrow hown hs
  have hle := h.ownOff_le p.2
  have hiff := h.allOwn_iff p.2
  have hnil : ∀ vb : VirtualBattery ℚ, houseKeys vb = [] ↔ (houseKeys vb).length = 0 := fun _ => List.length_eq_zero_iff.symm
  constructor
  · intro hf
    refine ⟨hrow, fun x hx => ⟨fun hx0 => ?_, fun hpos r hr vb hb => ?_⟩⟩
    · rw [← (hc x hx).1 hx0]; exact (hf s' hs x hx).1 hx0
    · have hcount := (hc x hx).2 hpos r hr vb hb
      have hwant := (hf s' hs x hx).2 hpos r hr vb hb
      rw [hiff, hnil]
      by_cases hr' : (s.housesOff.length : ℤ) ≤ r.2
      · have := hcount.1 hr'
        omega
      · have := hcount.2 (not_le.1 hr')
        have := hiff.1 (hown x hx hpos r hr (not_le.1 hr'))
        omega
  · rintro ⟨-, hf⟩ s'' hs'' x hx
    rw [show s'' = s' from Except.ok.inj (hs''.symm.trans hs)]
    refine ⟨fun hx0 => ((hc x hx).1 hx0).trans ((hf x hx).1 hx0), fun hpos r hr vb hb => ?_⟩
    have hcount := (hc x hx).2 hpos r hr vb hb
    have hcond := (hf x hx).2 hpos r hr vb hb
    rw [hiff, hnil] at hcond
    by_cases hr' : (s.housesOff.length : ℤ) ≤ r.2
    · have := hcount.1 hr'
      omega
    · have := hcount.2 (not_le.1 hr')
      have := hiff.1 (hown x hx hpos r hr (not_le.1 hr'))
      omega

theorem Followable.kept {p : ManageInput × Island} (h : Followable net s p) (hk : Kept net s)
    (hs : Globals.manageStep net s p = .ok s') : Kept net s' :=
  (hk.manageStep h.1 (h.reconnectsOwn hs) hs).1

/-! ## Runs -/

/-- The step completes on a plain row and reconnects houses of the island only. -/
def Orderly (net : Network) (s : Globals) (p : ManageInput × Island) : Prop :=
  PlainRow (p.1.row p.2) ∧ ReconnectsOwn net s p ∧ ∃ s', Globals.manageStep net s p = .ok s'

/-- Along every run of management steps: if every step meets the condition, the houses off follow the shed after
every step; and in a run of orderly steps only then. -/
theorem sheds_followed (net : Network) (s : Globals) (steps : List (ManageInput × Island)) (h : Kept net s) :
    (AllSteps (raising (manageStep net)) (Followable net) s steps →
      AllSteps (raising (manageStep net)) (Follows net) s steps) ∧
    (AllSteps (raising (manageStep net)) (Orderly net) s steps →
      AllSteps (raising (manageStep net)) (Follows net) s steps →
      AllSteps (raising (manageStep net)) (Followable net) s steps) := by
  constructor
  · refine allSteps_of_invariant (fun s p s' hk hc hs => hc.kept hk (toOption_eq_some.1 hs)) (fun s p hk hc => ?_) h
    intro s' hs
    exact (hk.follows_iff hc.1 (hc.reconnectsOwn hs) hs).2 hc s' hs
  · intro hord hf
    refine allSteps_of_invariant (fun s p s' hk hc hs => ?_) (fun s p hk hc => ?_) h (hord.and hf)
    · exact (hk.manageStep hc.1.1 hc.1.2.1 (toOption_eq_some.1 hs)).1
    · obtain ⟨⟨hrow, hown, s', hs⟩, hf⟩ := hc
      exact (hk.follows_iff hrow hown hs).1 hf

/-- Everything is shed in the first island, twice. -/
theorem repeated_shed_followed : ∃ s, twoIslands = .ok s ∧ AllSteps (raising (manageStep twoFeeders)) (Follows twoFeeders) s
    [shedStep 180 101 "101" 0, shedStep 360 101 "101" 10, shedStep 540 101 "101" 10] := by
  obtain ⟨s, hs, hk⟩ := twoIslands_kept
  refine ⟨s, hs, (sheds_followed twoFeeders s _ hk).1 ?_⟩
  have h : ∀ s, twoIslands = .ok s → AllSteps (raising (manageStep twoFeeders)) (Followable twoFeeders) s
      [shedStep 180 101 "101" 0, shedStep 360 101 "101" 10, shedStep 540 101 "101" 10] := by decide +kernel
  exact h s hs

/-- Everything is shed in the first island, then nothing: house 1 stays interrupted. -/
theorem ended_shed_keeps_house_off : ∃ s, twoIslands = .ok s ∧
    ¬ AllSteps (raising (manageStep twoFeeders)) (Follows twoFeeders) s
      [shedStep 180 101 "101" 0, shedStep 360 101 "101" 10, shedStep 540 101 "101" 0] := by
  obtain ⟨s, hs, -⟩ := twoIslands_kept
  have h : ∀ s, twoIslands = .ok s → ¬ AllSteps (raising (manageStep twoFeeders)) (Follows twoFeeders) s
      [shedStep 180 101 "101" 0, shedStep 360 101 "101" 10, shedStep 540 101 "101" 0] := by decide +kernel
  exact ⟨s, hs, h s hs⟩

end Grip.Absorption.Globals
