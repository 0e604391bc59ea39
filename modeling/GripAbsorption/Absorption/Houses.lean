/-
The houses a management step turns off and on. On a row whose column names are not mixed up, the
`shed` column is processed first and alone moves houses (`manageIsland_plain`). The law `Kept` ties
the list `houses_off` to the interrupted meters and the batteries; the disconnect loop keeps it, and
so does the reconnect loop while every house that is off belongs to the island.
-/
import GripAbsorption.Absorption.Batteries

namespace Grip.Absorption

open Grip.Base Grip.Packetized Relation

/-! ## Rows -/

/-- The column names of a row are not mixed up: no column but `shed` is read as a shed, and the ones
read as `i_` come after it in the reverse order. -/
def PlainRow (row : Row) : Prop :=
  ∀ c ∈ row.keys, (columnKind c = .shed → c = "shed") ∧ (columnKind c = .virtual → c < "shed")

instance (row : Row) : Decidable (PlainRow row) := inferInstanceAs (Decidable (∀ c ∈ row.keys, _))

theorem Row.pairwise_sorted (row : Row) : row.sorted.Pairwise fun p q => q.1 ≤ p.1 := by
  have : Std.Total fun p q : String × ℚ => q.1 ≤ p.1 := ⟨fun p q => le_total q.1 p.1⟩
  have : IsTrans (String × ℚ) fun p q => q.1 ≤ p.1 := ⟨fun _ _ _ h h' => le_trans h' h⟩
  exact List.pairwise_insertionSort _ _

theorem Row.mem_sorted {row : Row} {p : String × ℚ} : p ∈ row.sorted ↔ p ∈ row.rows := List.mem_insertionSort _

namespace Globals

variable {net : Network} {inp : ManageInput} {island : Island} {s s' : Globals}

/-- What the `shed` column does, if there is one. -/
def shedPart (s : Globals) (inp : ManageInput) (island : Island) : Except Err Globals :=
  match (inp.row island).get? "shed" with
  | none => return s
  | some x => s.shedColumn inp island "shed" x

/-- The columns after the shed. -/
theorem columns_virtualMoves {cols : List (String × ℚ)} {acc acc' : Globals × PowerBalance}
    (hc : ∀ c ∈ cols, columnKind c.1 ≠ .shed) (h : cols.foldlM (column net inp island) acc = .ok acc') :
    ReflTransGen (VirtualMove inp island) acc.1 acc'.1 :=
  foldlM_invariant (P := fun a => ReflTransGen (VirtualMove inp island) acc.1 a.1)
    (fun c hmem _ _ ha hcol => ha.trans (column_virtualMoves (hc c hmem) hcol)) .refl h

/-- The columns before the shed change no global. -/
theorem columns_same {cols : List (String × ℚ)} {acc acc' : Globals × PowerBalance}
    (hc : ∀ c ∈ cols, columnKind c.1 ≠ .shed ∧ columnKind c.1 ≠ .virtual)
    (h : cols.foldlM (column net inp island) acc = .ok acc') : acc'.1 = acc.1 := by
  refine foldlM_invariant (P := fun a => a.1 = acc.1) (fun c hmem a a' ha hcol => ?_) rfl h
  obtain ⟨s, bal⟩ := a
  obtain ⟨name, x⟩ := c
  simp only [column] at hcol
  cases hk : columnKind name with
  | solar => rw [hk] at hcol; cases hcol; exact ha
  | shed => exact absurd hk (hc _ hmem).1
  | virtual => exact absurd hk (hc _ hmem).2
  | battery =>
    rw [hk] at hcol
    obtain ⟨inv, -, hcol⟩ := bind_ok.1 hcol
    cases hcol
    exact ha
  | other => rw [hk] at hcol; cases hcol; exact ha

/-- On a plain row a step is the shed, the moves of an `i_` column and the entry of the power balance. -/
theorem manageIsland_plain (hrow : PlainRow (inp.row island)) (h : manageIsland net inp s island = .ok s') :
    ∃ s₁ s₂ bal, s.shedPart inp island = .ok s₁ ∧ ReflTransGen (VirtualMove inp island) s₁ s₂ ∧
      s' = { s₂ with powerbal := s₂.powerbal.put island bal } := by
  obtain ⟨vb, nfload, s₂, bal, -, -, hf, rfl⟩ := manageIsland_eq_ok.1 h
  unfold shedPart
  have hkey : ∀ c ∈ (inp.row island).sorted, c.1 ∈ (inp.row island).keys := fun c hc =>
    List.mem_map_of_mem (Row.mem_sorted.1 hc)
  cases hx : (inp.row island).get? "shed" with
  | none =>
    refine ⟨s, s₂, _, rfl, columns_virtualMoves (fun c hc hk => ?_) hf, rfl⟩
    have hn : "shed" ∈ (inp.row island).keys := (hrow _ (hkey c hc)).1 hk ▸ hkey c hc
    obtain ⟨x, hx'⟩ := Dict.mem_keys_iff.1 hn
    rw [hx] at hx'
    cases hx'
  | some x =>
    obtain ⟨pre, post, hsplit⟩ := List.append_of_mem (Row.mem_sorted.2 (Dict.get?_eq_some.1 hx))
    -- the names of the columns are distinct, so `shed` stands neither before nor after
    have hnodup : ((inp.row island).sorted.map Prod.fst).Nodup :=
      ((List.perm_insertionSort _ _).map Prod.fst).nodup_iff.2 (inp.row island).nodup
    have hsorted := (inp.row island).pairwise_sorted
    rw [hsplit, List.map_append, List.map_cons, List.nodup_append, List.nodup_cons] at hnodup
    rw [hsplit, List.pairwise_append] at hsorted
    have hshed : ∀ c ∈ pre ++ post, columnKind c.1 ≠ .shed := by
      intro c hc hk
      have hmem : c ∈ (inp.row island).sorted := by
        rw [hsplit]; rcases List.mem_append.1 hc with hc | hc <;> simp [hc]
      have he := (hrow _ (hkey c hmem)).1 hk
      rcases List.mem_append.1 hc with hc | hc
      · exact hnodup.2.2 _ (List.mem_map_of_mem hc) _ (List.mem_cons_self ..) he
      · exact hnodup.2.1.1 (show "shed" ∈ post.map Prod.fst from he ▸ List.mem_map_of_mem hc)
    have hvirtual : ∀ c ∈ pre, columnKind c.1 ≠ .virtual := by
      intro c hc hk
      have hmem : c ∈ (inp.row island).sorted := by rw [hsplit]; exact List.mem_append_left _ hc
      exact absurd ((hrow _ (hkey c hmem)).2 hk) (not_lt.2 (hsorted.2.2 c hc _ (List.mem_cons_self ..)))
    rw [hsplit, List.foldlM_append, bind_ok] at hf
    obtain ⟨⟨s₀, bal₀⟩, hpre, hf⟩ := hf
    obtain rfl : s₀ = s := columns_same
      (fun c hc => ⟨hshed c (List.mem_append_left _ hc), hvirtual c hc⟩) hpre
    rw [List.foldlM_cons, bind_ok] at hf
    obtain ⟨acc, hcol, hpost⟩ := hf
    simp only [column, show columnKind "shed" = .shed by decide] at hcol
    obtain ⟨s₁, hs₁, hcol⟩ := bind_ok.1 hcol
    cases hcol
    exact ⟨s₁, s₂, _, hs₁, columns_virtualMoves (fun c hc => hshed c (List.mem_append_right _ hc)) hpost, rfl⟩

/-! ## The law of houses off -/

/-- The houses that are off are distinct, are the interrupted ones and in no battery; a battery holds
houses of its own island; the islands with a battery are disjoint. -/
structure Kept (net : Network) (s : Globals) : Prop where
  nodup : s.housesOff.Nodup
  houses : ∀ n ∈ s.housesOff, n ∈ net.houses
  interrupted : ∀ n, s.gldState.customerInterrupted n = true ↔ n ∈ s.housesOff
  devices : ∀ i vb, s.battery i = .ok vb → ∀ n ∈ houseKeys vb, net.At i (.house n) ∧ n ∉ s.housesOff
  disjoint : ∀ i j, s.HasBattery i → s.HasBattery j → i ≠ j → i.Disjoint j

/-- Every house that is off belongs to the island. -/
def AllOwn (net : Network) (s : Globals) (island : Island) : Prop :=
  ∀ n ∈ s.housesOff, net.supernodeName (.house n) ∈ island

instance : Decidable (AllOwn net s island) := inferInstanceAs (Decidable (∀ n ∈ s.housesOff, _))

theorem nodup_houseKeys (vb : VirtualBattery ℚ) : (houseKeys vb).Nodup := by
  refine List.Nodup.filterMap (fun a b n ha hb => ?_) vb.devices.nodup
  cases a with
  | house m =>
    cases b with
    | house m' =>
      simp only [Option.mem_def, Option.some.injEq] at ha hb
      rw [ha, hb]
    | waterheater m' => cases hb
  | waterheater m => cases ha

/-- A step that leaves the houses alone and adds no device keeps the law. -/
theorem Kept.congr (h : Kept net s) (hoff : s'.housesOff = s.housesOff)
    (hint : s'.gldState.customerInterrupted = s.gldState.customerInterrupted)
    (hkeys : s'.virtualBattery.map Table.keys = s.virtualBattery.map Table.keys)
    (hdev : Shrinks s s') : Kept net s' := by
  refine ⟨hoff ▸ h.nodup, hoff ▸ h.houses, fun n => ?_, fun i vb' hb' n hn => ?_, fun i j hi hj => ?_⟩
  · rw [hint, hoff]; exact h.interrupted n
  · obtain ⟨vb, hb, hids⟩ := hdev i vb' hb'
    rw [hoff]
    exact h.devices i vb hb n (mem_houseKeys.2 (hids _ (mem_houseKeys.1 hn)))
  · exact h.disjoint i j (hi.congr hkeys.symm) (hj.congr hkeys.symm)

theorem VirtualMove.housesOff (h : VirtualMove inp island s s') : s'.housesOff = s.housesOff ∧
    s'.gldState.customerInterrupted = s.gldState.customerInterrupted := by
  cases h with
  | setpoint x hb => exact ⟨rfl, rfl⟩
  | packetize h =>
    obtain ⟨vb, hb, rfl, -⟩ := packetizeIsland_eq_ok.1 h
    exact ⟨rfl, VirtualBattery.customerInterrupted_packetize _ _ _ _ _ _⟩

/-- The moves of an `i_` column keep the law and turn no house off or on. -/
theorem Kept.virtualMoves (h : Kept net s) (hm : ReflTransGen (VirtualMove inp island) s s') : Kept net s' ∧
    s'.gldState.customerInterrupted = s.gldState.customerInterrupted := by
  induction hm with
  | refl => exact ⟨h, rfl⟩
  | tail _ hm ih =>
    exact ⟨ih.1.congr hm.housesOff.1 hm.housesOff.2 hm.move.unmoved.batteries hm.shrinks,
      hm.housesOff.2.trans ih.2⟩

/-- The interrupted meters are the listed ones after a house joins the list. -/
theorem interrupted_append {off : List ℕ} {interrupted : ℕ → Bool} (h : ∀ m, interrupted m = true ↔ m ∈ off) (n m : ℕ) :
    Function.update interrupted n true m = true ↔ m ∈ off ++ [n] := by
  rw [Function.update_apply, List.mem_append, List.mem_singleton]
  split
  · rename_i he; simp [he]
  · rename_i he; simp [h m, he]

/-- The interrupted meters are the listed ones after a house leaves the list. -/
theorem interrupted_filter {off : List ℕ} {interrupted : ℕ → Bool} (h : ∀ m, interrupted m = true ↔ m ∈ off) (n m : ℕ) :
    Function.update interrupted n false m = true ↔ m ∈ off.filter (· ≠ n) := by
  rw [Function.update_apply, List.mem_filter]
  split
  · rename_i he; simp [he]
  · rename_i he; simp [h m, he]

/-! ## Turning a house off -/

/-- A battery that loses one of its houses has one house less. -/
theorem length_houseKeys {vb vb' : VirtualBattery ℚ} {n : ℕ} (hn : n ∈ houseKeys vb)
    (h : ∀ m, m ∈ houseKeys vb' ↔ m ∈ houseKeys vb ∧ m ≠ n) : (houseKeys vb').length + 1 = (houseKeys vb).length := by
  have hp : (houseKeys vb').Perm ((houseKeys vb).erase n) := by
    refine (List.perm_ext_iff_of_nodup (nodup_houseKeys vb') ((nodup_houseKeys vb).erase n)).2 fun m => ?_
    rw [h, (nodup_houseKeys vb).mem_erase_iff, and_comm]
  have hlen := hp.length_eq
  rw [List.length_erase_of_mem hn] at hlen
  have hpos : 0 < (houseKeys vb).length := List.length_pos_of_mem hn
  omega

/-- The law after a house of the battery went over to the list, by what changed. -/
theorem Kept.append {vb vb' : VirtualBattery ℚ} {n : ℕ} (h : Kept net s) (hb : s.battery island = .ok vb)
    (hn : n ∈ houseKeys vb) (hoff : s'.housesOff = s.housesOff ++ [n])
    (hint : s'.gldState.customerInterrupted = Function.update s.gldState.customerInterrupted n true)
    (hbat : ∀ i, s'.battery i = if island = i then .ok vb' else s.battery i)
    (hkeys : s'.virtualBattery.map Table.keys = s.virtualBattery.map Table.keys)
    (hmem : ∀ m, m ∈ houseKeys vb' ↔ m ∈ houseKeys vb ∧ m ≠ n) : Kept net s' := by
  obtain ⟨hat, hnot⟩ := h.devices island vb hb n hn
  have hoff' : ∀ m, m ∈ s'.housesOff ↔ m ∈ s.housesOff ∨ m = n := fun m => by rw [hoff]; simp
  constructor
  case nodup =>
    rw [hoff]
    exact h.nodup.append (List.nodup_singleton n) (List.disjoint_singleton.2 hnot)
  case houses =>
    intro m hm
    rcases (hoff' m).1 hm with hm | rfl
    · exact h.houses m hm
    · exact hat.1
  case interrupted =>
    intro m
    rw [hint, hoff]
    exact interrupted_append h.interrupted n m
  case devices =>
    intro i vbi hbi m hm
    rw [hbat] at hbi
    rw [hoff']
    split at hbi
    · rename_i he
      subst he
      cases hbi
      obtain ⟨hm, hne⟩ := (hmem m).1 hm
      obtain ⟨ha, ho⟩ := h.devices _ vb hb m hm
      exact ⟨ha, by simp [ho, hne]⟩
    · rename_i hne
      obtain ⟨ha, ho⟩ := h.devices i vbi hbi m hm
      refine ⟨ha, ?_⟩
      rintro (hm' | rfl)
      · exact ho hm'
      · -- a house has one supernode, and the two islands are disjoint
        exact h.disjoint island i ⟨vb, hb⟩ ⟨vbi, hbi⟩ hne hat.2 ha.2
  case disjoint => exact fun i j hi hj => h.disjoint i j (hi.congr hkeys.symm) (hj.congr hkeys.symm)

/-- A house of the battery goes over to the list. -/
theorem Kept.off {vb : VirtualBattery ℚ} {n : ℕ} (h : Kept net s) (hb : s.battery island = .ok vb)
    (hn : n ∈ houseKeys vb) :
    let s' := { s.turnOffHouse island n with housesOff := (s.turnOffHouse island n).housesOff ++ [n] }
    Kept net s' ∧ s'.housesOff = s.housesOff ++ [n] ∧
      ∃ vb', s'.battery island = .ok vb' ∧ (houseKeys vb').length + 1 = (houseKeys vb).length := by
  obtain ⟨vb', st, he, hids, hint, -⟩ := turnOffHouse_spec hb hn
  have hmem : ∀ m, m ∈ houseKeys vb' ↔ m ∈ houseKeys vb ∧ m ≠ n := by
    intro m
    rw [mem_houseKeys, mem_houseKeys, hids]
    simp
  rw [he]
  refine ⟨h.append hb hn rfl hint (fun i => battery_setBattery s hb) (batteries_setBattery hb vb') hmem, rfl, vb', ?_,
    length_houseKeys hn hmem⟩
  exact (battery_setBattery s hb).trans (if_pos rfl)

/-- The disconnect loop turns off as many houses of the island as it has turns, up to those of the battery. -/
theorem disconnectLoop_spec (draws : ℕ → ℕ) : ∀ (k turn : ℕ) (s s' : Globals) (vb : VirtualBattery ℚ), Kept net s →
    s.battery island = .ok vb → disconnectLoop island draws turn k s = .ok s' → Kept net s' ∧
      ∃ off, s'.housesOff = s.housesOff ++ off ∧ off.length = min k (houseKeys vb).length ∧
        ∀ n ∈ off, net.supernodeName (.house n) ∈ island
  | 0, _, s, s', vb, hk, hb, h => by cases h; exact ⟨hk, [], by simp⟩
  | k + 1, turn, s, s', vb, hk, hb, h => by
    rw [disconnectLoop] at h
    split at h
    · cases h
    · obtain ⟨vb₀, hb₀, h⟩ := bind_ok.1 h
      rw [hb] at hb₀
      cases hb₀
      cases hc : choice (draws turn) (houseKeys vb) with
      | none =>
        -- nothing is left to turn off
        have hnil : houseKeys vb = [] := by
          by_contra hne
          obtain ⟨n, hn⟩ : ∃ n, choice (draws turn) (houseKeys vb) = some n := choice_ne_none hne
          rw [hc] at hn
          cases hn
        rw [hc] at h
        obtain ⟨hk', off, h1, h2, h3⟩ := disconnectLoop_spec draws k _ _ _ vb hk hb h
        exact ⟨hk', off, h1, by rw [h2, hnil]; simp, h3⟩
      | some n =>
        rw [hc] at h
        have hn := choice_mem hc
        obtain ⟨hk₁, hoff₁, vb', hb', hlen⟩ := hk.off hb hn
        obtain ⟨hk', off, h1, h2, h3⟩ := disconnectLoop_spec draws k _ _ _ vb' hk₁ hb' h
        refine ⟨hk', n :: off, ?_, ?_, fun m hm => ?_⟩
        · rw [h1, hoff₁, List.append_assoc]; rfl
        · rw [List.length_cons, h2]; omega
        · rcases List.mem_cons.1 hm with rfl | hm
          · exact (hk.devices island vb hb _ hn).1.2
          · exact h3 m hm

/-! ## Turning a house on -/

/-- `turn_on_house` restores the meter, and the islands with a battery stay. -/
theorem turnOnHouse_spec {n : ℕ} {t : ℤ} (h : s.turnOnHouse island n t = .ok s') : s'.housesOff = s.housesOff ∧
    s'.gldState.customerInterrupted = Function.update s.gldState.customerInterrupted n false ∧
    s'.virtualBattery.map Table.keys = s.virtualBattery.map Table.keys := by
  obtain ⟨d, e, vb, hd, he, hb, rfl⟩ := turnOnHouse_eq_ok.1 h
  exact ⟨rfl, rfl, batteries_setBattery (s := (s.setDevice _).setDevice _) hb _⟩

/-- A house of the island goes back to its battery. -/
theorem Kept.on {n : ℕ} {t : ℤ} {r : Globals} (h : Kept net s) (hn : n ∈ s.housesOff)
    (hown : net.supernodeName (.house n) ∈ island) (hon : s.turnOnHouse island n t = .ok r) :
    let s' := { r with housesOff := r.housesOff.filter (· ≠ n) }
    Kept net s' ∧ s'.housesOff = s.housesOff.filter (· ≠ n) := by
  intro s'
  obtain ⟨hr, hint, hkeys⟩ := turnOnHouse_spec hon
  have hoff : s'.housesOff = s.housesOff.filter (· ≠ n) := by rw [← hr]
  have hmem : ∀ m, m ∈ s'.housesOff ↔ m ∈ s.housesOff ∧ m ≠ n := fun m => by rw [hoff]; simp
  refine ⟨?_, hoff⟩
  constructor
  case nodup => rw [hoff]; exact h.nodup.filter _
  case houses => exact fun m hm => h.houses m ((hmem m).1 hm).1
  case interrupted =>
    intro m
    rw [hoff]
    exact (congrArg (· m = true) hint).to_iff.trans (interrupted_filter h.interrupted n m)
  case devices =>
    intro i vb' hb' m hm
    obtain ⟨vb, hb, hids⟩ := turnOnHouse_devices hon hb'
    rw [hmem]
    rcases hids _ (mem_houseKeys.1 hm) with hid | ⟨rfl, hid | hid⟩
    · obtain ⟨ha, ho⟩ := h.devices i vb hb m (mem_houseKeys.2 hid)
      exact ⟨ha, fun hm => ho hm.1⟩
    · cases hid
      exact ⟨⟨h.houses n hn, hown⟩, fun hm => hm.2 rfl⟩
    · cases hid
  case disjoint => exact fun i j hi hj => h.disjoint i j (hi.congr hkeys.symm) (hj.congr hkeys.symm)

theorem length_filter_ne {l : List ℕ} {n : ℕ} (hl : l.Nodup) (hn : n ∈ l) : (l.filter (· ≠ n)).length + 1 = l.length := by
  have hfilter : l.filter (· ≠ n) = l.erase n := by
    rw [hl.erase_eq_filter]
    exact List.filter_congr fun m _ => by by_cases hm : m = n <;> simp [hm]
  have hpos : 0 < l.length := List.length_pos_of_mem hn
  rw [hfilter, List.length_erase_of_mem hn]
  omega

/-- The reconnect loop turns on a house each turn, when all that are off belong to the island. -/
theorem reconnectLoop_spec (t : ℤ) (draws : ℕ → ℕ) : ∀ (k turn : ℕ) (s s' : Globals), Kept net s → AllOwn net s island →
    reconnectLoop island t draws turn k s = .ok s' →
      Kept net s' ∧ AllOwn net s' island ∧ s'.housesOff.length + k = s.housesOff.length
  | 0, _, _, _, hk, ha, h => by cases h; exact ⟨hk, ha, rfl⟩
  | k + 1, turn, s, s', hk, ha, h => by
    rw [reconnectLoop] at h
    obtain ⟨n, hn, h⟩ := bind_ok.1 h
    obtain ⟨r, hr, h⟩ := bind_ok.1 h
    have hn := choice_mem (orRaise_eq_ok.1 hn)
    obtain ⟨hk₁, hoff⟩ := hk.on hn (ha n hn) hr
    have ha₁ : AllOwn net { r with housesOff := r.housesOff.filter (· ≠ n) } island := by
      intro m hm
      rw [hoff] at hm
      exact ha m (List.mem_of_mem_filter hm)
    obtain ⟨hk', ha', hlen⟩ := reconnectLoop_spec t draws k _ _ _ hk₁ ha₁ h
    rw [hoff] at hlen
    have hone := length_filter_ne hk.nodup hn
    exact ⟨hk', ha', by omega⟩

/-! ## Runs of management steps -/

/-- A management step of one island. -/
def manageStep (net : Network) (s : Globals) (p : ManageInput × Island) : Except Err Globals :=
  manageIsland net p.1 s p.2

/-- Batteries that `update_VB` built on disjoint islands, with no house off, satisfy the law. -/
theorem kept_updateVB {inp : CommitInput} {islands : List Island} (hm : s.Mapped net)
    (hdis : islands.Pairwise List.Disjoint) (hoff : s.housesOff = [])
    (hint : ∀ n, s.gldState.customerInterrupted n = false) (h : s.updateVB net inp islands = .ok s') : Kept net s' := by
  obtain ⟨hp, ids, vbs, rfl⟩ := updateVB_spec hm h
  refine ⟨by simp [hoff], by simp [hoff], fun n => by simp [hoff, hint n], fun i vb hb n hn => ?_, fun i j hi hj hne => ?_⟩
  · exact ⟨hp.devices i vb hb _ (mem_houseKeys.1 hn), by simp [hoff]⟩
  · have : Std.Symm (α := Island) List.Disjoint := ⟨fun _ _ h => h.symm⟩
    exact hdis.forall ((hp.batteries i).1 hi) ((hp.batteries j).1 hj) hne

/-! ## Two islands -/

/-- Both feeders of the small network are islands, with the batteries `update_VB` builds. -/
def twoIslands : Except Err Globals :=
  ((init 0 untouched).initializeDevices twoFeeders (smallCommit 0 (fun _ => false) [] fun _ => Dict.empty)).updateVB
    twoFeeders (smallCommit 0 (fun _ => false) [] fun _ => Dict.empty) [[101], [102]]

theorem twoIslands_kept : ∃ s, twoIslands = .ok s ∧ Kept twoFeeders s := by
  have hok : ∀ e, twoIslands ≠ .error e := by
    intro e he
    have h : twoIslands.toOption.isSome = true := by decide +kernel
    rw [he] at h
    cases h
  cases h : twoIslands with
  | error e => exact absurd h (hok e)
  | ok s => exact ⟨s, rfl, kept_updateVB (fun m hm => by cases hm; rfl) (by simp) rfl (fun _ => rfl) h⟩

/-- A management step of the island of one supernode at time `t`, whose battery has no load, under a shed of `x` kW
that is everything. -/
def shedStep (t : ℤ) (node : ℕ) (name : String) (x : ℚ) : ManageInput × Island :=
  ((smallCommit t (fun _ => false) [] fun _ => Table.ofList _
    [("nfload", x), ("shed", x), ("sh_all", 1), ("i_" ++ name, 0)]).toManageInput, [node])

end Globals

end Grip.Absorption
