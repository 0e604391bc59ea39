/-
The setpoint a shed leaves. The columns of a result row are processed in reverse alphabetical order,
so the `shed` column lowers the setpoint first and the `i_<island>` column then sets it to the
battery's load and runs the packetized step: the step always runs under that load, and a shed the
battery was to absorb is lost.
-/
import GripAbsorption.Absorption.Batteries

namespace Grip.Absorption

open Grip.Base Grip.Packetized Relation

/-! ## The column of an island's battery -/

theorem isIn_eq_false {pat s : String} {c : Char} (hp : c ∈ pat.toList) (hs : c ∉ s.toList) : isIn pat s = false :=
  decide_eq_false fun h => hs (h.subset hp)

/-- The island's name is digits and underscores. -/
theorem char_islandStr {island : Island} {c : Char} (h : c ∈ (islandStr island).toList) : c.isDigit = true ∨ c = '_' := by
  have join : ∀ (parts : List (List Char)), (∀ p ∈ parts, ∀ c ∈ p, c.isDigit = true) →
      ∀ c ∈ List.intercalate ['_'] parts, c.isDigit = true ∨ c = '_' := by
    intro parts hp c hc
    induction parts with
    | nil => cases hc
    | cons p parts ih =>
      cases parts with
      | nil => simp only [List.intercalate, List.intersperse, List.flatten_cons, List.flatten_nil, List.append_nil] at hc
               exact .inl (hp p (List.mem_cons_self ..) c hc)
      | cons q parts =>
        rw [List.intercalate_cons_cons] at hc
        simp only [List.mem_append, List.mem_singleton] at hc
        rcases hc with (hc | hc) | hc
        · exact .inl (hp p (List.mem_cons_self ..) c hc)
        · exact .inr hc
        · exact ih (fun x hx => hp x (List.mem_cons_of_mem _ hx)) hc
  unfold islandStr at h
  rw [String.toList_intercalate, List.map_map] at h
  refine join _ (fun p hp c hc => ?_) c h
  obtain ⟨n, -, rfl⟩ := List.mem_map.1 hp
  simp only [Function.comp_apply, Nat.toList_repr] at hc
  exact Nat.isDigit_of_mem_toDigits (by decide) (by decide) hc

/-- The name of the battery's column. -/
def virtualName (island : Island) : String := "i_" ++ islandStr island

theorem columnKind_virtualName (island : Island) : columnKind (virtualName island) = .virtual := by
  have hs : 's' ∉ (virtualName island).toList := by
    unfold virtualName
    rw [String.toList_append, List.mem_append, not_or]
    refine ⟨by decide, fun h => ?_⟩
    rcases char_islandStr h with h | h
    · exact absurd h (by decide)
    · exact absurd h (by decide)
  have hi : isIn "i_" (virtualName island) = true := by
    unfold isIn virtualName
    rw [String.toList_append]
    exact decide_eq_true (List.prefix_append _ _).isInfix
  have h1 : isIn "solar" (virtualName island) = false := isIn_eq_false (by decide : 's' ∈ "solar".toList) hs
  have h2 : isIn "shed" (virtualName island) = false := isIn_eq_false (by decide : 's' ∈ "shed".toList) hs
  unfold columnKind
  rw [h1, h2, hi]
  rfl

namespace Globals

variable {net : Network} {inp : ManageInput} {island : Island} {s s' : Globals}

/-! ## The packetized runs of a step -/

theorem Move.packetized (h : Move inp island s s') : s.packetized <+: s'.packetized := by
  cases h with
  | setpoint x hb => exact List.prefix_rfl
  | packetize h =>
    obtain ⟨vb, hb, rfl, -⟩ := packetizeIsland_eq_ok.1 h
    exact List.prefix_append _ _
  | off hb hn =>
    obtain ⟨vb', st, he, -⟩ := turnOffHouse_spec hb hn
    rw [he]
    exact List.prefix_rfl
  | on hn h =>
    obtain ⟨d, e, vb, hd, he, hb, rfl⟩ := turnOnHouse_eq_ok.1 h
    exact List.prefix_rfl

/-- Columns only add packetized runs. -/
theorem columns_packetized {cols : List (String × ℚ)} {acc acc' : Globals × PowerBalance}
    (h : cols.foldlM (column net inp island) acc = .ok acc') : acc.1.packetized <+: acc'.1.packetized := by
  refine foldlM_invariant (P := fun a => acc.1.packetized <+: a.1.packetized) (fun c _ a a' ha hcol => ?_)
    List.prefix_rfl h
  refine ha.trans ?_
  have hm := column_moves hcol
  generalize a'.1 = r at hm
  induction hm with
  | refl => exact List.prefix_rfl
  | tail _ hm ih => exact ih.trans hm.packetized

/-- The battery's column runs the packetized step under its own value. -/
theorem column_virtualName {acc acc' : Globals × PowerBalance} {v : ℚ}
    (h : column net inp island acc (virtualName island, v) = .ok acc') :
    acc'.1.packetized = acc.1.packetized ++ [(island, v)] := by
  obtain ⟨s, bal⟩ := acc
  simp only [column, columnKind_virtualName] at h
  obtain ⟨⟨s₂, load⟩, hv, h⟩ := bind_ok.1 h
  cases h
  obtain ⟨vb, hb, hv⟩ := bind_ok.1 hv
  obtain ⟨vb', hb', rfl, -⟩ := packetizeIsland_eq_ok.1 hv
  rw [battery_setBattery s hb, if_pos rfl] at hb'
  cases hb'
  rfl

/-- Every step whose row has the battery's column runs the packetized step under that column's value. -/
theorem manageIsland_packetized {v : ℚ} (hv : (inp.row island).get? (virtualName island) = some v)
    (h : manageIsland net inp s island = .ok s') : (island, v) ∈ s'.packetized.drop s.packetized.length := by
  obtain ⟨vb, nfload, s₁, bal, -, -, hf, rfl⟩ := manageIsland_eq_ok.1 h
  have hmem : (virtualName island, v) ∈ (inp.row island).sorted := (List.mem_insertionSort _).2 (Dict.get?_eq_some.1 hv)
  obtain ⟨pre, post, hsplit⟩ := List.append_of_mem hmem
  rw [hsplit, List.foldlM_append, bind_ok] at hf
  obtain ⟨acc₁, hpre, hf⟩ := hf
  rw [List.foldlM_cons, bind_ok] at hf
  obtain ⟨acc₂, hcol, hpost⟩ := hf
  obtain ⟨l₁, h₁⟩ := columns_packetized hpre
  obtain ⟨l₂, h₂⟩ := columns_packetized hpost
  rw [column_virtualName hcol, ← h₁] at h₂
  have hall : s₁.packetized = s.packetized ++ (l₁ ++ (island, v) :: l₂) := by rw [← h₂]; simp
  show (island, v) ∈ s₁.packetized.drop s.packetized.length
  rw [hall, List.drop_left]
  simp

/-! ## A shed the battery absorbs -/

/-- The setpoint in force for an island. -/
def inForce (s : Globals) (island : Island) : Option ℚ := (s.battery island).toOption.map VirtualBattery.setpoint

/-- The optimiser gives the island's battery the load `v` and sheds `x` of it, and `island_management`
has the battery absorb the shed. -/
structure Absorbs (inp : ManageInput) (island : Island) (s : Globals) (v x : ℚ) : Prop where
  virtual : (inp.row island).get? (virtualName island) = some v
  shed : (inp.row island).get? "shed" = some x
  pos : 0 < x
  le : x ≤ v
  absorbed : ∃ s₀, s.inForce island = some s₀ ∧ 0 ≤ pyRound (s₀ - x)

/-- All packetized runs of the step from `s` to `s'` are under the setpoint `y`, which is in force at its end. -/
def RunsUnder (s s' : Globals) (island : Island) (y : ℚ) : Prop :=
  (∀ run ∈ s'.packetized.drop s.packetized.length, run = (island, y)) ∧ s'.inForce island = some y

instance (y : ℚ) : Decidable (RunsUnder s s' island y) := inferInstanceAs (Decidable (_ ∧ _))

/-- An absorbed shed is always lost: no completed step runs under the setpoint lowered by the shed. -/
theorem absorbed_shed_lost (net : Network) (inp : ManageInput) (island : Island) (s s' : Globals) (v x : ℚ)
    (h : Absorbs inp island s v x) (hs : manageIsland net inp s island = .ok s') : ¬ RunsUnder s s' island (v - x) := by
  rintro ⟨hall, -⟩
  have hrun := hall _ (manageIsland_packetized h.virtual hs)
  have hx := h.pos
  rw [Prod.mk.injEq] at hrun
  linarith [hrun.2]

/-- The first feeder is islanded and managed at 180, which leaves the setpoint 5; at 360 the optimiser
gives the battery 5 kW and sheds 2 kW. -/
theorem absorbing_step : ∃ s s',
    last (raising (onCommit twoFeeders)) (init 0 untouched)
      [smallCommit 0 (fun _ => false) [] fun _ => resultRow "101" 5 0,
        smallCommit 180 (· = 102) [[101]] fun _ => resultRow "101" 5 0] = some s ∧
    Absorbs (smallCommit 360 (· = 102) [[101]] fun _ => resultRow "101" 5 2).toManageInput [101] s 5 2 ∧
    manageIsland twoFeeders (smallCommit 360 (· = 102) [[101]] fun _ => resultRow "101" 5 2).toManageInput s [101] = .ok s' ∧
    s'.packetized.drop s.packetized.length = [([101], 5)] ∧ s'.inForce [101] = some 5 := by
  obtain ⟨s, hs⟩ := Option.isSome_iff_exists.1 (show (last (raising (onCommit twoFeeders)) (init 0 untouched)
      [smallCommit 0 (fun _ => false) [] fun _ => resultRow "101" 5 0,
        smallCommit 180 (· = 102) [[101]] fun _ => resultRow "101" 5 0]).isSome = true by decide +kernel)
  have hall : ∀ s ∈ last (raising (onCommit twoFeeders)) (init 0 untouched)
      [smallCommit 0 (fun _ => false) [] fun _ => resultRow "101" 5 0,
        smallCommit 180 (· = 102) [[101]] fun _ => resultRow "101" 5 0], s.inForce [101] = some 5 ∧
      ((manageIsland twoFeeders (smallCommit 360 (· = 102) [[101]] fun _ => resultRow "101" 5 2).toManageInput s
        [101]).toOption.map fun s' => (s'.packetized.drop s.packetized.length, s'.inForce [101])) =
          some ([([101], 5)], some 5) := by decide +kernel
  obtain ⟨h5, hstep⟩ := hall s hs
  obtain ⟨s', hs', he⟩ := Option.map_eq_some_iff.1 hstep
  obtain ⟨hp, hf⟩ := Prod.mk.inj he
  exact ⟨s, s', hs, ⟨by decide +kernel, by decide +kernel, by norm_num, by norm_num, 5, h5, by decide +kernel⟩,
    toOption_eq_some.1 hs', hp, hf⟩

theorem absorbed_shed_lost_small : ∃ s s', Absorbs (smallCommit 360 (· = 102) [[101]] fun _ =>
    resultRow "101" 5 2).toManageInput [101] s 5 2 ∧ ¬ RunsUnder s s' [101] (5 - 2) := by
  obtain ⟨s, s', -, ha, hs, -⟩ := absorbing_step
  exact ⟨s, s', ha, absorbed_shed_lost twoFeeders _ [101] s s' 5 2 ha hs⟩

/-- The step at 360 should run under 3 kW; it runs under 5. -/
theorem absorbed_shed_runs_at_load : ¬ ∀ (net : Network) (inp : ManageInput) (island : Island) (s s' : Globals) (v x : ℚ),
    Absorbs inp island s v x → manageIsland net inp s island = .ok s' → RunsUnder s s' island (v - x) := by
  intro h
  obtain ⟨s, s', -, ha, hs, hp, hf⟩ := absorbing_step
  have hr := (h twoFeeders _ [101] s s' 5 2 ha hs).2
  rw [hf] at hr
  exact absurd hr (by decide +kernel)

end Globals

end Grip.Absorption
