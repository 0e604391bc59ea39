/-
What one PEM step of a device can do. A device's temperature puts it in one of three zones
(`needsOn`, `needsOff`, `comfort`): the outcome of `check_stat` for the two comfort exits without
hysteresis. On a device whose cached reading is current, `pem` is described by its zone, state
and deadline alone (`pem_outcome`); the later modules read the automaton only through it.
-/
import GripAbsorption.Packetized.Device

namespace Grip.Packetized

open Grip.Base

universe u

variable {K : Type u} [Field K] [LinearOrder K]

/-! ## Temperature tests -/

namespace GldWaterHeater

theorem checkStat_exitOn (w : GldWaterHeater K) (dice : Dice K) (h : K) :
    w.checkStat dice .exitOn h = decide (w.temperature < w.setpoint - (pemRange + h)) := by
  simp [checkStat]

theorem checkStat_exitOff (w : GldWaterHeater K) (dice : Dice K) (h : K) :
    w.checkStat dice .exitOff h = decide (w.setpoint + (pemRange + h) < w.temperature) := by
  simp [checkStat]

end GldWaterHeater

namespace GldHVAC

theorem checkStat_exitOn (d : GldHVAC K) (dice : Dice K) (h : K) :
    d.checkStat dice .exitOn h = (d.beyond h d.setpointUpp 1 || d.beyond h d.setpointLow (-1)) := by
  simp only [checkStat, List.foldl_cons, List.foldl_nil]
  cases d.within h d.setpointUpp <;> cases d.within h d.setpointLow <;>
    cases d.beyond h d.setpointUpp 1 <;> cases d.beyond h d.setpointLow (-1) <;> rfl

theorem checkStat_exitOff (d : GldHVAC K) (dice : Dice K) (h : K) :
    d.checkStat dice .exitOff h = (!d.within h d.setpointUpp && !d.within h d.setpointLow &&
      !d.beyond h d.setpointUpp 1 && !d.beyond h d.setpointLow (-1)) := by
  simp only [checkStat, List.foldl_cons, List.foldl_nil]
  cases d.within h d.setpointUpp <;> cases d.within h d.setpointLow <;>
    cases d.beyond h d.setpointUpp 1 <;> cases d.beyond h d.setpointLow (-1) <;> rfl

theorem beyond_mono [IsStrictOrderedRing K] {d : GldHVAC K} {h sp dir : K} (hh : 0 ≤ h) (hd : dir * dir = 1)
    (hb : d.beyond h sp dir = true) : d.beyond 0 sp dir = true := by
  simp only [beyond, decide_eq_true_eq] at *
  have e : ∀ x : K, (d.pemRange + x) * dir * dir = d.pemRange + x := fun x => by rw [mul_assoc, hd, mul_one]
  linarith [e h, e 0, add_mul sp ((d.pemRange + h) * dir) dir, add_mul sp ((d.pemRange + 0) * dir) dir]

theorem within_mono [IsStrictOrderedRing K] {d : GldHVAC K} {h sp : K} (hh : 0 ≤ h)
    (hw : d.within 0 sp = true) : d.within h sp = true := by
  simp only [within, decide_eq_true_eq] at *
  constructor <;> linarith [hw.1, hw.2]

end GldHVAC

namespace GldDev

/-- The exit tests roll no die. -/
theorem checkStat_exitOn_dice (d : GldDev K) (dice dice' : Dice K) (h : K) :
    d.checkStat dice .exitOn h = d.checkStat dice' .exitOn h := by
  cases d with
  | waterHeater w => simp only [checkStat, GldWaterHeater.checkStat_exitOn]
  | hvac g => simp only [checkStat, GldHVAC.checkStat_exitOn]

theorem checkStat_exitOff_dice (d : GldDev K) (dice dice' : Dice K) (h : K) :
    d.checkStat dice .exitOff h = d.checkStat dice' .exitOff h := by
  cases d with
  | waterHeater w => simp only [checkStat, GldWaterHeater.checkStat_exitOff]
  | hvac g => simp only [checkStat, GldHVAC.checkStat_exitOff]

/-- Beyond the widened limit is beyond the limit. -/
theorem exitOn_of_hysteresis [IsStrictOrderedRing K] {d : GldDev K} {dice : Dice K} {h : K} (hh : 0 ≤ h)
    (hx : d.checkStat dice .exitOn h = true) : d.checkStat dice .exitOn 0 = true := by
  cases d with
  | waterHeater w =>
    simp only [checkStat, GldWaterHeater.checkStat_exitOn, decide_eq_true_eq] at *
    linarith
  | hvac g =>
    simp only [checkStat, GldHVAC.checkStat_exitOn, Bool.or_eq_true] at *
    exact hx.imp (GldHVAC.beyond_mono hh (by ring)) (GldHVAC.beyond_mono hh (by ring))

/-- A temperature that asks for `EXIT_OFF` with hysteresis asks for some exit without it. A house
exactly at its widened outer limit asks for `EXIT_ON`. -/
theorem exit_of_exitOff_hysteresis [IsStrictOrderedRing K] {d : GldDev K} {dice : Dice K} {h : K} (hh : 0 ≤ h)
    (hx : d.checkStat dice .exitOff h = true) :
    d.checkStat dice .exitOn 0 = true ∨ d.checkStat dice .exitOff 0 = true := by
  cases d with
  | waterHeater w =>
    simp only [checkStat, GldWaterHeater.checkStat_exitOn, GldWaterHeater.checkStat_exitOff, decide_eq_true_eq] at *
    right; linarith
  | hvac g =>
    simp only [checkStat, GldHVAC.checkStat_exitOn, GldHVAC.checkStat_exitOff, Bool.and_eq_true, Bool.not_eq_true',
      Bool.or_eq_true] at *
    obtain ⟨⟨⟨hu, hl⟩, -⟩, -⟩ := hx
    have inner : ∀ sp, g.within h sp = false → g.within 0 sp = false := fun sp hf => by
      by_contra hc
      rw [GldHVAC.within_mono hh (by simpa using hc)] at hf
      cases hf
    by_cases hb : g.beyond 0 g.setpointUpp 1 = true ∨ g.beyond 0 g.setpointLow (-1) = true
    · exact .inl hb
    · rw [not_or] at hb
      exact .inr ⟨⟨⟨inner _ hu, inner _ hl⟩, by simpa using hb.1⟩, by simpa using hb.2⟩

end GldDev

/-! ## Zones -/

/-- Where a device's temperature lies: beyond the limit that turns it on, beyond the one that
turns it off, or in between. -/
inductive Zone
  | needsOn
  | needsOff
  | comfort
  deriving DecidableEq, Repr

/-- No die comes up. -/
def noDice : Dice K := fun _ _ => false

def GldDev.zone (d : GldDev K) : Zone :=
  if d.checkStat noDice .exitOn 0 then .needsOn
  else if d.checkStat noDice .exitOff 0 then .needsOff
  else .comfort

namespace GldDev

theorem checkStat_of_needsOn {d : GldDev K} (hz : d.zone = .needsOn) (dice : Dice K) :
    d.checkStat dice .exitOn 0 = true := by
  rw [checkStat_exitOn_dice d dice noDice]
  unfold zone at hz
  split at hz
  · assumption
  · split at hz <;> cases hz

theorem checkStat_of_needsOff {d : GldDev K} (hz : d.zone = .needsOff) (dice : Dice K) :
    d.checkStat dice .exitOn 0 = false ∧ d.checkStat dice .exitOff 0 = true := by
  rw [checkStat_exitOn_dice d dice noDice, checkStat_exitOff_dice d dice noDice]
  unfold zone at hz
  split at hz
  · cases hz
  · rename_i h
    split at hz
    · exact ⟨by simpa using h, by assumption⟩
    · cases hz

theorem zone_eq_comfort {d : GldDev K} (dice : Dice K) :
    d.zone = .comfort ↔ d.checkStat dice .exitOn 0 = false ∧ d.checkStat dice .exitOff 0 = false := by
  rw [checkStat_exitOn_dice d dice noDice, checkStat_exitOff_dice d dice noDice]
  unfold zone
  split
  · rename_i h; simp [h]
  · split
    · rename_i h; simp [h]
    · rename_i h h'; simp [h, h']

end GldDev

/-! ## The recursion -/

namespace VbDevice

variable (gld : Gld K) (dice : Dice K) (time : ℤ)

/-- `PEM_OFF` makes no recursive call. -/
theorem pemBody_off (h h' : Handler K) {d : VbDevice K} (hd : d.pemState = .pemOff) :
    pemBody gld dice h time d = pemBody gld dice h' time d := by
  unfold pemBody handle
  rw [hd]

theorem handle_congr {h h' : Handler K} (hh : ∀ d : VbDevice K, d.pemState = .pemOff → h d = h' d)
    (d : VbDevice K) : handle gld dice h time d = handle gld dice h' time d := by
  have he := hh (d.update gld (some .pemOff) (some time) none) rfl
  unfold handle
  cases d.pemState with
  | pemOff => rfl
  | pemOn => simp only [pemOn, he]
  | exitOff => simp only [exitOff, exitState, he]
  | exitOn => simp only [exitOn, exitState, he]

/-- `pem` is the recursion of the source. -/
theorem pem_eq (d : VbDevice K) : d.pem gld dice time = pemBody gld dice (pem gld dice time) time d := by
  have hh : handle gld dice (pemBody gld dice (fun d => (d, none)) time) time d =
      handle gld dice (pem gld dice time) time d :=
    handle_congr gld dice time (fun e he => pemBody_off gld dice time _ _ he) d
  rw [pem, pemBody, hh]
  rfl

/-! ## Outcomes -/

/-- The cached reading is GridLAB-D's. -/
def Fresh (d : VbDevice K) : Prop := d.gldDev.updateFromGld gld = d.gldDev

variable {gld dice time}

theorem fresh_update (d : VbDevice K) (s : Option PemState) (e : Option ℤ) (p : Option K) :
    Fresh gld (d.update gld s e p) := by
  unfold Fresh update init; simp

theorem Fresh.gldDev_update {d : VbDevice K} (hf : Fresh gld d) (s : Option PemState) (e : Option ℤ) (p : Option K) :
    (d.update gld s e p).gldDev = d.gldDev := hf

@[simp] theorem pemState_update (d : VbDevice K) (s : Option PemState) (e : Option ℤ) (p : Option K) :
    (d.update gld s e p).pemState = s.getD d.pemState := rfl

@[simp] theorem stateEndsAt_update (d : VbDevice K) (s : Option PemState) (e : Option ℤ) (p : Option K) :
    (d.update gld s e p).stateEndsAt = (given e).getD d.stateEndsAt := rfl

@[simp] theorem deviceId_update (d : VbDevice K) (s : Option PemState) (e : Option ℤ) (p : Option K) :
    (d.update gld s e p).deviceId = d.deviceId := GldDev.id_updateFromGld gld d.gldDev

theorem given_getD_self (e : ℤ) (h : e ≠ 0) (x : ℤ) : (given (some e)).getD x = e := by
  rw [given_some, if_neg h]; rfl

theorem checkExits_comfort {d : VbDevice K} (hz : d.gldDev.zone = .comfort) : d.checkExits gld dice = (d, none) := by
  obtain ⟨h1, h2⟩ := (GldDev.zone_eq_comfort dice).1 hz
  simp [checkExits, h1, h2]

theorem checkExits_needsOn {d : VbDevice K} (hz : d.gldDev.zone = .needsOn) :
    d.checkExits gld dice = (d.update gld (some .exitOn) (some 0) none, some (.turnOn d.turnOn)) := by
  simp [checkExits, GldDev.checkStat_of_needsOn hz dice]

theorem checkExits_needsOff {d : VbDevice K} (hz : d.gldDev.zone = .needsOff) :
    d.checkExits gld dice = (d.update gld (some .exitOff) (some 0) none, some (.turnOff d.turnOff)) := by
  obtain ⟨h1, h2⟩ := GldDev.checkStat_of_needsOff hz dice
  simp [checkExits, h1, h2]

/-- Outside the comfort zone an exit state needs no look at the handlers. -/
theorem exit_zone [IsStrictOrderedRing K] {d : GldDev K} (dice : Dice K)
    (hx : d.checkStat dice .exitOn 2 = true ∨ d.checkStat dice .exitOff 2 = true) : d.zone ≠ .comfort := by
  intro hz
  obtain ⟨h1, h2⟩ := (GldDev.zone_eq_comfort dice).1 hz
  rcases hx with hx | hx
  · rw [GldDev.exitOn_of_hysteresis zero_le_two hx] at h1; cases h1
  · rcases GldDev.exit_of_exitOff_hysteresis zero_le_two hx with h | h
    · rw [h] at h1; cases h1
    · rw [h] at h2; cases h2

/-- The device is `PEM_OFF` or `PEM_ON` and its deadline has not passed. -/
def Locked (time : ℤ) (d : VbDevice K) : Prop :=
  (d.pemState = .pemOff ∨ d.pemState = .pemOn) ∧ time < d.stateEndsAt

/-- What `pem` can return for a device. -/
inductive PemOutcome (gld : Gld K) (dice : Dice K) (time : ℤ) (d : VbDevice K) :
    VbDevice K × Option (Effect K) → Prop
  /-- beyond the on limit: `EXIT_ON`, turned on -/
  | comfortOn {next : VbDevice K} {kw : K} (zone : d.gldDev.zone = .needsOn) (dev : next.gldDev = d.gldDev)
      (state : next.pemState = .exitOn) : PemOutcome gld dice time d (next, some (.turnOn ⟨d.gldDev, kw⟩))
  /-- beyond the off limit: `EXIT_OFF`, turned off -/
  | comfortOff {next : VbDevice K} (zone : d.gldDev.zone = .needsOff) (dev : next.gldDev = d.gldDev)
      (state : next.pemState = .exitOff) : PemOutcome gld dice time d (next, some (.turnOff d.turnOff))
  /-- a running packet -/
  | keepOn (zone : d.gldDev.zone = .comfort) (state : d.pemState = .pemOn) (early : time < d.stateEndsAt) :
      PemOutcome gld dice time d (d, some (.turnOn d.turnOn))
  /-- waiting for the next request: no effect at all -/
  | waits (zone : d.gldDev.zone = .comfort) (state : d.pemState = .pemOff) (early : time < d.stateEndsAt) :
      PemOutcome gld dice time d (d, none)
  /-- asks for a packet -/
  | asks {next : VbDevice K} {kw : K} (zone : d.gldDev.zone = .comfort) (due : ¬ d.Locked time)
      (dev : next.gldDev = d.gldDev) (state : next.pemState = .pemOff)
      (deadline : 0 ≤ time → next.stateEndsAt = time + commEpochSec) :
      PemOutcome gld dice time d (next, some (.powerRequest ⟨d.deviceId, kw, controlEpochSec⟩))
  /-- does not ask: turned off. An exit state left at time 0 keeps its old deadline. -/
  | idles {next : VbDevice K} (zone : d.gldDev.zone = .comfort) (due : ¬ d.Locked time)
      (dev : next.gldDev = d.gldDev) (state : next.pemState = .pemOff)
      (deadline : 0 ≤ time → next.stateEndsAt = time + commEpochSec ∨
        (time = 0 ∧ next.stateEndsAt = d.stateEndsAt)) :
      PemOutcome gld dice time d (next, some (.turnOff d.turnOff))

theorem gldDev_pemOff {d : VbDevice K} (hf : Fresh gld d) : (d.pemOff gld dice time).1.gldDev = d.gldDev := by
  unfold pemOff
  split
  · rfl
  · split <;> exact hf

/-- Whatever the handler did, outside the comfort zone the exit decides. -/
theorem pemBody_exit {h : Handler K} {d : VbDevice K} (hh : (d.handle gld dice h time).1.gldDev = d.gldDev)
    (hf : Fresh gld d) (hz : d.gldDev.zone ≠ .comfort) :
    PemOutcome gld dice time d (pemBody gld dice h time d) := by
  unfold pemBody
  rcases hx : d.handle gld dice h time with ⟨next, effect⟩
  rw [hx] at hh
  simp only at hh
  have hfn : Fresh gld next := by unfold Fresh at *; rw [hh]; exact hf
  cases hzd : d.gldDev.zone with
  | comfort => exact absurd hzd hz
  | needsOn =>
    simp only
    rw [checkExits_needsOn (d := next) (by rw [hh]; exact hzd)]
    simp only [turnOn, hh]
    exact .comfortOn hzd ((hfn.gldDev_update _ _ _).trans hh) rfl
  | needsOff =>
    simp only
    rw [checkExits_needsOff (d := next) (by rw [hh]; exact hzd)]
    have ht : next.turnOff = d.turnOff := by unfold turnOff; rw [hh]
    simp only [ht]
    exact .comfortOff hzd ((hfn.gldDev_update _ _ _).trans hh) rfl

/-- In the comfort zone the handler's result stands. -/
theorem pemBody_comfort {h : Handler K} {d : VbDevice K} (hh : (d.handle gld dice h time).1.gldDev = d.gldDev)
    (hz : d.gldDev.zone = .comfort) : pemBody gld dice h time d = d.handle gld dice h time := by
  unfold pemBody
  rcases hx : d.handle gld dice h time with ⟨next, effect⟩
  rw [hx] at hh
  simp only at hh ⊢
  rw [checkExits_comfort (by rw [hh]; exact hz)]
  rfl

theorem gldDev_pemBody_off {h : Handler K} {d : VbDevice K} (hf : Fresh gld d) (hd : d.pemState = .pemOff) :
    (pemBody gld dice h time d).1.gldDev = d.gldDev := by
  have hh : (d.handle gld dice h time).1.gldDev = d.gldDev := by
    unfold handle; rw [hd]; exact gldDev_pemOff hf
  by_cases hz : d.gldDev.zone = .comfort
  · rw [pemBody_comfort hh hz]; exact hh
  · have := pemBody_exit hh hf hz
    generalize pemBody gld dice h time d = r at this
    cases this <;> first | rfl | assumption

theorem gldDev_handle {d : VbDevice K} (hf : Fresh gld d) :
    (d.handle gld dice (pem gld dice time) time).1.gldDev = d.gldDev := by
  have hoff : ((d.update gld (some .pemOff) (some time) none).pem gld dice time).1.gldDev = d.gldDev :=
    gldDev_pemBody_off (fresh_update ..) rfl |>.trans hf
  have hexit : ∀ stat, (d.exitState stat gld dice (pem gld dice time) time).1.gldDev = d.gldDev := fun stat => by
    unfold exitState
    split
    · exact hoff
    · rfl
  unfold handle
  cases d.pemState with
  | pemOff => exact gldDev_pemOff hf
  | pemOn =>
    simp only [pemOn]
    split
    · rfl
    · exact hoff
  | exitOff => exact hexit _
  | exitOn => exact hexit _

/-- `pem` of a `PEM_OFF` device in the comfort zone. -/
theorem pem_off_comfort {d : VbDevice K} (hf : Fresh gld d) (hd : d.pemState = .pemOff)
    (hz : d.gldDev.zone = .comfort) : d.pem gld dice time = d.pemOff gld dice time := by
  rw [pem_eq, pemBody_comfort (gldDev_handle hf) hz]
  unfold handle; rw [hd]

/-- The device the other handlers put in `PEM_OFF`. -/
def reset (gld : Gld K) (time : ℤ) (d : VbDevice K) : VbDevice K := d.update gld (some .pemOff) (some time) none

/-- `update` reads the deadline 0 as missing, so only at time 0 can the reset device be early. -/
theorem reset_early {d : VbDevice K} (h : time < (d.reset gld time).stateEndsAt) :
    time = 0 ∧ (d.reset gld time).stateEndsAt = d.stateEndsAt := by
  unfold reset at *
  rw [stateEndsAt_update, given_some] at *
  by_cases ht : time = 0
  · rw [if_pos ht]; exact ⟨ht, rfl⟩
  · rw [if_neg ht] at h; simp at h

theorem reset_pem {d : VbDevice K} (hf : Fresh gld d) (hz : d.gldDev.zone = .comfort) :
    (d.reset gld time).pem gld dice time = (d.reset gld time).pemOff gld dice time :=
  pem_off_comfort (fresh_update ..) rfl (by rw [reset, hf.gldDev_update]; exact hz)

/-- A deadline `pem_off` gives is kept. -/
theorem deadline_kept (ht : 0 ≤ time) (x : ℤ) : (given (some (time + commEpochSec))).getD x = time + commEpochSec :=
  given_getD_self _ (by unfold commEpochSec; omega) x

/-- A due device that is reset asks for power or is turned off. -/
theorem reset_outcome (dice : Dice K) {d : VbDevice K} (hf : Fresh gld d) (hz : d.gldDev.zone = .comfort) (hl : ¬ d.Locked time)
    (he : ¬ time < (d.reset gld time).stateEndsAt) :
    PemOutcome gld dice time d ((d.reset gld time).pem gld dice time) := by
  have hdev : (d.reset gld time).gldDev = d.gldDev := hf
  have hnext : ∀ t, ((d.reset gld time).update gld none t none).gldDev = d.gldDev := fun t =>
    ((fresh_update d _ _ _ : Fresh gld (d.reset gld time)).gldDev_update _ t _).trans hdev
  rw [reset_pem hf hz, pemOff, if_neg he]
  split
  · have hid : (d.reset gld time).deviceId = d.deviceId := deviceId_update ..
    rw [hid]
    exact .asks hz hl (hnext _) rfl fun ht => deadline_kept ht _
  · have hoff : (d.reset gld time).turnOff = d.turnOff := by unfold turnOff; rw [hdev]
    rw [hoff]
    exact .idles hz hl (hnext _) rfl fun ht => .inl (deadline_kept ht _)

/-- `pem` of a `PEM_ON` device in the comfort zone. -/
theorem pem_on_comfort {d : VbDevice K} (hf : Fresh gld d) (hd : d.pemState = .pemOn) (hz : d.gldDev.zone = .comfort) :
    d.pem gld dice time =
      if time < d.stateEndsAt then (d, some (.turnOn d.turnOn)) else (d.reset gld time).pemOff gld dice time := by
  rw [pem_eq, pemBody_comfort (gldDev_handle hf) hz, ← reset_pem hf hz]
  unfold handle; rw [hd]; rfl

/-- In the comfort zone an exit state is left. -/
theorem exitState_comfort [IsStrictOrderedRing K] {stat : Stat} {d : VbDevice K} (hf : Fresh gld d)
    (hz : d.gldDev.zone = .comfort) (hs : stat = .exitOn ∨ stat = .exitOff) :
    d.exitState stat gld dice (pem gld dice time) time = (((d.reset gld time).pemOff gld dice time).1,
      some (((d.reset gld time).pemOff gld dice time).2.getD (.turnOff d.turnOff))) := by
  have hx : d.gldDev.checkStat dice stat 2 = false := by
    by_contra hc
    refine exit_zone dice ?_ hz
    rcases hs with rfl | rfl
    exacts [.inl (by simpa using hc), .inr (by simpa using hc)]
  rw [← reset_pem hf hz]
  unfold exitState
  rw [hx]
  rfl

/-- `pem` of a device that leaves an exit state. -/
theorem pem_exit_comfort [IsStrictOrderedRing K] {d : VbDevice K} (hf : Fresh gld d)
    (hd : d.pemState = .exitOff ∨ d.pemState = .exitOn) (hz : d.gldDev.zone = .comfort) :
    d.pem gld dice time = (((d.reset gld time).pemOff gld dice time).1,
      some (((d.reset gld time).pemOff gld dice time).2.getD (.turnOff d.turnOff))) := by
  rw [pem_eq, pemBody_comfort (gldDev_handle hf) hz]
  unfold handle
  rcases hd with hd | hd <;> rw [hd]
  · exact exitState_comfort hf hz (.inr rfl)
  · exact exitState_comfort hf hz (.inl rfl)

/-- An exit state left in the comfort zone. -/
theorem exitState_outcome [IsStrictOrderedRing K] {stat : Stat} {d : VbDevice K} (hf : Fresh gld d)
    (hz : d.gldDev.zone = .comfort) (hs : stat = .exitOn ∨ stat = .exitOff) (hl : ¬ d.Locked time)
    (hd : d.pemState ≠ .pemOff) : PemOutcome gld dice time d (d.exitState stat gld dice (pem gld dice time) time) := by
  rw [exitState_comfort hf hz hs]
  by_cases he : time < (d.reset gld time).stateEndsAt
  · rw [pemOff, if_pos he]
    obtain ⟨ht, hends⟩ := reset_early he
    exact .idles hz hl hf rfl fun _ => .inr ⟨ht, hends⟩
  · have ho := reset_outcome dice hf hz hl he
    rw [reset_pem hf hz] at ho
    generalize (d.reset gld time).pemOff gld dice time = r at ho
    cases ho with
    | waits _ h _ => exact absurd h hd
    | comfortOn h h1 h2 => exact .comfortOn h h1 h2
    | comfortOff h h1 h2 => exact .comfortOff h h1 h2
    | keepOn h h1 h2 => exact .keepOn h h1 h2
    | asks h h1 h2 h3 h4 => exact .asks h h1 h2 h3 h4
    | idles h h1 h2 h3 h4 => exact .idles h h1 h2 h3 h4

/-- The spec of `pem`. -/
theorem pem_outcome [IsStrictOrderedRing K] (dice : Dice K) (time : ℤ) {d : VbDevice K} (hf : Fresh gld d) :
    PemOutcome gld dice time d (d.pem gld dice time) := by
  rw [pem_eq]
  by_cases hz : d.gldDev.zone = .comfort
  swap
  · exact pemBody_exit (gldDev_handle hf) hf hz
  rw [pemBody_comfort (gldDev_handle hf) hz]
  unfold handle
  cases hd : d.pemState with
  | pemOff =>
    simp only [pemOff]
    split
    · exact .waits hz hd (by assumption)
    · rename_i hdue
      have hl : ¬ d.Locked time := fun h => hdue h.2
      split
      · exact .asks hz hl hf hd fun ht => deadline_kept ht _
      · exact .idles hz hl hf hd fun ht => .inl (deadline_kept ht _)
  | pemOn =>
    simp only [pemOn]
    split
    · exact .keepOn hz hd (by assumption)
    · rename_i hdue
      have hl : ¬ d.Locked time := fun h => hdue h.2
      refine reset_outcome dice hf hz hl fun he => ?_
      obtain ⟨-, hends⟩ := reset_early he
      exact hdue (hends ▸ he)
  | exitOff =>
    have hl : ¬ d.Locked time := fun h => by rcases h.1 with h | h <;> rw [hd] at h <;> cases h
    exact exitState_outcome hf hz (.inr rfl) hl (by rw [hd]; decide)
  | exitOn =>
    have hl : ¬ d.Locked time := fun h => by rcases h.1 with h | h <;> rw [hd] at h <;> cases h
    exact exitState_outcome hf hz (.inl rfl) hl (by rw [hd]; decide)

/-- A device gets no effect exactly when it waits, comfortable, for its next request. -/
theorem PemOutcome.effect_eq_none {d : VbDevice K} {r : VbDevice K × Option (Effect K)}
    (h : PemOutcome gld dice time d r) :
    r.2 = none ↔ d.gldDev.zone = .comfort ∧ d.pemState = .pemOff ∧ time < d.stateEndsAt := by
  cases h with
  | comfortOn hz => simp [hz]
  | comfortOff hz => simp [hz]
  | keepOn _ hs => simp [hs]
  | waits hz hs he => simp [hz, hs, he]
  | asks _ hl => exact ⟨by simp, fun ⟨_, hs, he⟩ => absurd ⟨.inl hs, he⟩ hl⟩
  | idles _ hl => exact ⟨by simp, fun ⟨_, hs, he⟩ => absurd ⟨.inl hs, he⟩ hl⟩

end VbDevice

end Grip.Packetized
