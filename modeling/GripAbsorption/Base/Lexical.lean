/-
The order of strings on decimal numbers. Strings are compared character by character, so two numbers
are compared by their leading digits, however many digits follow. For numbers written without
superfluous zeros this is the order of the values exactly when the integer parts are equally long, or
the shorter one is no larger than as many leading digits of the longer; behind minus signs it is the
reverse of that order, and behind different signs the plus comes first.
-/
import GripAbsorption.Base.Decimal

namespace Grip.Base

/-! ## Digits -/

theorem intOf_cons (c : Char) (s : Text) : intOf (c :: s) = 10 ^ s.length * (c.toNat - '0'.toNat) + intOf s := by
  unfold intOf
  rw [Nat.ofDigitChars_cons, Nat.ofDigitChars_eq_ofDigitChars_zero, mul_zero, zero_add]

theorem digit_bounds {c : Char} (h : c.isDigit = true) : 48 ≤ c.toNat ∧ c.toNat ≤ 57 := Char.isDigit_iff_toNat.1 h

theorem intOf_lt : ∀ {s : Text}, s.all Char.isDigit = true → intOf s < 10 ^ s.length
  | [], _ => by decide
  | c :: s, h => by
    rw [List.all_cons, Bool.and_eq_true] at h
    have ih := intOf_lt h.2
    have hc := digit_bounds h.1
    have hdigit : c.toNat - '0'.toNat ≤ 9 := by
      change c.toNat - 48 ≤ 9
      omega
    rw [intOf_cons, List.length_cons, pow_succ]
    nlinarith

theorem char_lt_iff {c d : Char} : c < d ↔ c.toNat < d.toNat := Iff.rfl

/-- A higher leading digit outweighs all digits after it. -/
theorem leading_lt {p x y a b : ℕ} (hxy : x < y) (ha : a < p) : p * x + a < p * y + b := by
  have hmul : p * (x + 1) ≤ p * y := Nat.mul_le_mul_left p hxy
  rw [Nat.mul_succ] at hmul
  omega

/-- Equally many digits are compared by their values, and then what follows. -/
theorem append_lt_append_iff {s t : Text} : ∀ {a b : Text}, a.length = b.length → a.all Char.isDigit = true →
    b.all Char.isDigit = true → (a ++ s < b ++ t ↔ intOf a < intOf b ∨ intOf a = intOf b ∧ s < t)
  | [], [], _, _, _ => by simp
  | c :: a, d :: b, hl, ha, hb => by
    rw [List.all_cons, Bool.and_eq_true] at ha hb
    have hl' : a.length = b.length := Nat.succ_injective hl
    have ih := append_lt_append_iff (s := s) (t := t) hl' ha.2 hb.2
    have hc := digit_bounds ha.1
    have hd := digit_bounds hb.1
    have hlta := intOf_lt ha.2
    have hltb := intOf_lt hb.2
    rw [List.cons_append, List.cons_append, List.cons_lt_cons_iff, ih, char_lt_iff, intOf_cons, intOf_cons, hl']
    rw [hl'] at hlta
    rcases lt_trichotomy c.toNat d.toNat with h | h | h
    · exact iff_of_true (.inl h) (.inl (leading_lt (by simp; omega) hlta))
    · obtain rfl : c = d := Char.toNat_inj.1 h
      simp
    · have hgt := leading_lt (b := intOf a) (show d.toNat - '0'.toNat < c.toNat - '0'.toNat by simp; omega) hltb
      refine iff_of_false ?_ ?_
      · rintro (h' | ⟨rfl, -⟩) <;> omega
      · rintro (h' | ⟨h', -⟩) <;> omega

/-! ## Fractions -/

/-- The value of digits after a point. -/
def fraction (f : Text) : ℚ := intOf f / 10 ^ f.length

theorem fraction_nil : fraction [] = 0 := by simp [fraction, intOf]

theorem fraction_nonneg (f : Text) : 0 ≤ fraction f := by unfold fraction; positivity

theorem fraction_lt_one {f : Text} (h : f.all Char.isDigit = true) : fraction f < 1 := by
  have hlt : (intOf f : ℚ) < 10 ^ f.length := by exact_mod_cast intOf_lt h
  unfold fraction
  rw [div_lt_one (by positivity)]
  exact hlt

theorem fraction_cons (c : Char) (f : Text) : fraction (c :: f) = (((c.toNat - '0'.toNat : ℕ) : ℚ) + fraction f) / 10 := by
  unfold fraction
  rw [intOf_cons, List.length_cons]
  push_cast
  field_simp
  ring

/-- What stands after a number: nothing, or a character before the point and the digits. -/
def Low (rest : Text) : Prop := ∀ c ∈ rest.head?, c.toNat < '.'.toNat

theorem Low.lt_cons {rest : Text} (h : Low rest) {c : Char} (hc : '.'.toNat ≤ c.toNat) (t : Text) : rest < c :: t := by
  cases rest with
  | nil => exact List.nil_lt_cons ..
  | cons d s => exact List.cons_lt_cons_iff.2 (.inl (char_lt_iff.2 ((h d rfl).trans_le hc)))

theorem Low.not_cons_lt {rest : Text} (h : Low rest) {c : Char} (hc : '.'.toNat ≤ c.toNat) (t : Text) : ¬ c :: t < rest :=
  List.lt_asymm (h.lt_cons hc t)

/-- The last digit is not a zero. -/
def Trimmed (f : Text) : Prop := ∃ c ∈ f.getLast?, c ≠ '0'

theorem Trimmed.of_cons {c : Char} {f : Text} (h : Trimmed (c :: f)) (hf : f ≠ []) : Trimmed f := by
  obtain ⟨d, hd, hne⟩ := h
  refine ⟨d, ?_, hne⟩
  rwa [List.getLast?_cons_of_ne_nil hf] at hd

theorem fraction_pos : ∀ {f : Text}, f.all Char.isDigit = true → Trimmed f → 0 < fraction f
  | [], _, h => by obtain ⟨c, hc, -⟩ := h; cases hc
  | c :: f, hall, h => by
    rw [List.all_cons, Bool.and_eq_true] at hall
    have hnn := fraction_nonneg f
    rw [fraction_cons]
    by_cases hf : f = []
    · subst hf
      obtain ⟨d, hd, hne⟩ := h
      cases hd
      have hc := digit_bounds hall.1
      have h48 : c.toNat ≠ 48 := fun h' => hne (Char.toNat_inj.1 h')
      have hpos : 0 < c.toNat - '0'.toNat := by simp; omega
      positivity
    · have hpos := fraction_pos hall.2 (h.of_cons hf)
      positivity

/-- Digits after a point are compared by their value. -/
theorem fraction_lt_iff {rest : Text} (hrest : Low rest) : ∀ {f g : Text}, f.all Char.isDigit = true →
    g.all Char.isDigit = true → (f ≠ [] → Trimmed f) → (g ≠ [] → Trimmed g) →
    (f ++ rest < g ++ rest ↔ fraction f < fraction g)
  | [], [], _, _, _, _ => by simp
  | [], d :: g, _, hg, _, htg => by
    rw [List.all_cons, Bool.and_eq_true] at hg
    refine iff_of_true (hrest.lt_cons ?_ _) ?_
    · exact (show '.'.toNat ≤ 48 by decide).trans (digit_bounds hg.1).1
    · have hpos := fraction_pos (by rw [List.all_cons, hg.1, hg.2]; rfl) (htg (by simp))
      rwa [fraction_nil]
  | c :: f, [], hf, _, htf, _ => by
    rw [List.all_cons, Bool.and_eq_true] at hf
    refine iff_of_false (hrest.not_cons_lt ?_ _) ?_
    · exact (show '.'.toNat ≤ 48 by decide).trans (digit_bounds hf.1).1
    · rw [fraction_nil]
      exact (fraction_nonneg (c :: f)).not_gt
  | c :: f, d :: g, hf, hg, htf, htg => by
    rw [List.all_cons, Bool.and_eq_true] at hf hg
    have ih := fraction_lt_iff hrest hf.2 hg.2 (fun h => (htf (by simp)).of_cons h) (fun h => (htg (by simp)).of_cons h)
    have hc := digit_bounds hf.1
    have hd := digit_bounds hg.1
    have hf0 := fraction_nonneg f
    have hg0 := fraction_nonneg g
    have hf1 := fraction_lt_one hf.2
    have hg1 := fraction_lt_one hg.2
    rw [List.cons_append, List.cons_append, List.cons_lt_cons_iff, ih, char_lt_iff, fraction_cons, fraction_cons,
      div_lt_div_iff_of_pos_right (by norm_num)]
    rcases lt_trichotomy c.toNat d.toNat with h | h | h
    · have hle : ((c.toNat - '0'.toNat : ℕ) : ℚ) + 1 ≤ ((d.toNat - '0'.toNat : ℕ) : ℚ) := by
        have : c.toNat - '0'.toNat + 1 ≤ d.toNat - '0'.toNat := by simp; omega
        exact_mod_cast this
      exact iff_of_true (.inl h) (by linarith)
    · obtain rfl : c = d := Char.toNat_inj.1 h
      simp
    · have hle : ((d.toNat - '0'.toNat : ℕ) : ℚ) + 1 ≤ ((c.toNat - '0'.toNat : ℕ) : ℚ) := by
        have : d.toNat - '0'.toNat + 1 ≤ c.toNat - '0'.toNat := by simp; omega
        exact_mod_cast this
      refine iff_of_false ?_ (by linarith)
      rintro (h' | ⟨rfl, -⟩) <;> omega

/-! ## Numerals -/

/-- Written without superfluous zeros: digits before the point, no zero before another digit, and no point
without a digit or with a zero at the end. -/
structure Numeral.Printed (n : Numeral) : Prop where
  int_ne_nil : n.int ≠ []
  leading : n.int.head? = some '0' → n.int = ['0']
  trimmed : ∀ f ∈ n.frac, Trimmed f

/-- What stands behind the integer part. -/
def Numeral.tail (n : Numeral) (rest : Text) : Text := (n.frac.map ('.' :: ·)).getD [] ++ rest

section

variable {m n : Numeral} {rest : Text}

theorem Numeral.text_append (n : Numeral) (rest : Text) : n.text ++ rest = n.int ++ n.tail rest := by
  rw [Numeral.text, Numeral.tail, List.append_assoc]

theorem Numeral.value_eq (n : Numeral) : n.value = intOf n.int + fraction (n.frac.getD []) := rfl

theorem Numeral.value_nonneg (n : Numeral) : 0 ≤ n.value := by
  rw [n.value_eq]
  have := fraction_nonneg (n.frac.getD [])
  positivity

theorem tail_lt_tail_iff (hrest : Low rest) (hm : m.Printed) (hn : n.Printed) :
    m.tail rest < n.tail rest ↔ fraction (m.frac.getD []) < fraction (n.frac.getD []) := by
  have hfm := m.frac_digits
  have hfn := n.frac_digits
  unfold Numeral.tail
  cases hmf : m.frac with
  | none =>
    rw [hmf] at hfm
    cases hnf : n.frac with
    | none => simp
    | some g =>
      rw [hnf] at hfn
      have hpos := fraction_pos hfn (hn.trimmed g hnf)
      refine iff_of_true (hrest.lt_cons le_rfl (g ++ rest)) ?_
      rw [Option.getD_none, fraction_nil]
      exact hpos
  | some f =>
    rw [hmf] at hfm
    cases hnf : n.frac with
    | none =>
      refine iff_of_false (hrest.not_cons_lt le_rfl (f ++ rest)) ?_
      rw [Option.getD_none, fraction_nil]
      exact (fraction_nonneg _).not_gt
    | some g =>
      rw [hnf] at hfn
      have hlt := fraction_lt_iff hrest hfm hfn (fun _ => hm.trimmed f hmf) fun _ => hn.trimmed g hnf
      exact (List.cons_lt_cons_iff.trans (by simp)).trans hlt

/-- With equally long integer parts the order is that of the values. -/
theorem text_lt_of_length_eq (hrest : Low rest) (hm : m.Printed) (hn : n.Printed) (hl : m.int.length = n.int.length) :
    m.text ++ rest < n.text ++ rest ↔ m.value < n.value := by
  have hm1 := fraction_lt_one m.frac_digits
  have hn1 := fraction_lt_one n.frac_digits
  have hm0 := fraction_nonneg (m.frac.getD [])
  have hn0 := fraction_nonneg (n.frac.getD [])
  rw [m.text_append, n.text_append, append_lt_append_iff hl m.int_digits n.int_digits, tail_lt_tail_iff hrest hm hn,
    m.value_eq, n.value_eq]
  rcases lt_trichotomy (intOf m.int) (intOf n.int) with h | h | h
  · have hle : (intOf m.int : ℚ) + 1 ≤ intOf n.int := by exact_mod_cast h
    exact iff_of_true (.inl h) (by linarith)
  · rw [h]
    simp
  · have hle : (intOf n.int : ℚ) + 1 ≤ intOf m.int := by exact_mod_cast h
    refine iff_of_false ?_ (by linarith)
    rintro (h' | ⟨h', -⟩) <;> omega

/-- A digit is after the point and what stands after a number. -/
theorem tail_lt_cons (hrest : Low rest) {c : Char} (hc : c.isDigit = true) (t : Text) : m.tail rest < c :: t := by
  have hc' := digit_bounds hc
  unfold Numeral.tail
  cases m.frac with
  | none => exact hrest.lt_cons (show 46 ≤ c.toNat by omega) t
  | some f => exact List.cons_lt_cons_iff.2 (.inl (show 46 < c.toNat by omega))

/-- A shorter integer part comes first exactly when it is no larger than the leading digits of the longer. -/
theorem text_lt_of_length_lt (hrest : Low rest) (hl : m.int.length < n.int.length) :
    (m.text ++ rest < n.text ++ rest ↔ intOf m.int ≤ intOf (n.int.take m.int.length)) ∧
      (n.text ++ rest < m.text ++ rest ↔ intOf (n.int.take m.int.length) < intOf m.int) := by
  obtain ⟨c, t, hct⟩ := List.exists_cons_of_ne_nil (l := n.int.drop m.int.length) (by simpa using hl)
  have hsplit : n.text ++ rest = n.int.take m.int.length ++ c :: (t ++ n.tail rest) := by
    rw [n.text_append, ← List.cons_append, ← hct, ← List.append_assoc, List.take_append_drop]
  have hdig := n.int_digits
  rw [← List.take_append_drop m.int.length n.int, List.all_append, Bool.and_eq_true, hct, List.all_cons,
    Bool.and_eq_true] at hdig
  have hlen : m.int.length = (n.int.take m.int.length).length := by rw [List.length_take]; omega
  have hlt := tail_lt_cons (m := m) hrest hdig.2.1 (t ++ n.tail rest)
  rw [hsplit, m.text_append, append_lt_append_iff hlen m.int_digits hdig.1,
    append_lt_append_iff hlen.symm hdig.1 m.int_digits]
  constructor
  · simp only [hlt, and_true]
    omega
  · simp only [List.lt_asymm hlt, and_false, or_false]

/-- A shorter integer part is a smaller value. -/
theorem value_lt_of_length_lt (hm : m.Printed) (hn : n.Printed) (hl : m.int.length < n.int.length) : m.value < n.value := by
  obtain ⟨c, t, hct⟩ := List.exists_cons_of_ne_nil hn.int_ne_nil
  have hdig := n.int_digits
  rw [hct, List.all_cons, Bool.and_eq_true] at hdig
  have hmpos := List.length_pos_iff.2 hm.int_ne_nil
  -- a leading zero is the only digit, and then nothing is shorter
  have hc0 : c ≠ '0' := by
    rintro rfl
    rw [hn.leading (by rw [hct]; rfl), List.length_singleton] at hl
    omega
  have hc : 1 ≤ c.toNat - '0'.toNat := by
    have hb := digit_bounds hdig.1
    have h48 : c.toNat ≠ 48 := fun h => hc0 (Char.toNat_inj.1 h)
    simp
    omega
  have hlen : m.int.length ≤ t.length := by
    rw [hct, List.length_cons] at hl
    omega
  have hint : intOf m.int + 1 ≤ intOf n.int := by
    calc intOf m.int + 1 ≤ 10 ^ m.int.length := intOf_lt m.int_digits
      _ ≤ 10 ^ t.length := Nat.pow_le_pow_right (by norm_num) hlen
      _ ≤ 10 ^ t.length * (c.toNat - '0'.toNat) := Nat.le_mul_of_pos_right _ hc
      _ ≤ intOf n.int := by rw [hct, intOf_cons]; exact Nat.le_add_right ..
  have hint' : (intOf m.int : ℚ) + 1 ≤ intOf n.int := by exact_mod_cast hint
  have hm1 := fraction_lt_one m.frac_digits
  have hn0 := fraction_nonneg (n.frac.getD [])
  rw [m.value_eq, n.value_eq]
  linarith

/-! ## When the orders agree -/

/-- The integer parts are equally long, or the shorter one is no larger than as many leading digits of the
longer. -/
def KeepsOrder (m n : Numeral) : Prop :=
  if m.int.length ≤ n.int.length then m.int.length = n.int.length ∨ intOf m.int ≤ intOf (n.int.take m.int.length)
  else intOf n.int ≤ intOf (m.int.take n.int.length)

instance (m n : Numeral) : Decidable (KeepsOrder m n) := by unfold KeepsOrder; infer_instance

theorem keepsOrder_iff (hrest : Low rest) (hm : m.Printed) (hn : n.Printed) :
    (m.text ++ rest < n.text ++ rest ↔ m.value < n.value) ↔ KeepsOrder m n := by
  unfold KeepsOrder
  rcases lt_trichotomy m.int.length n.int.length with hl | hl | hl
  · have hval := value_lt_of_length_lt hm hn hl
    rw [if_pos hl.le, (text_lt_of_length_lt hrest hl).1]
    simp only [hval, iff_true, hl.ne, false_or]
  · rw [if_pos hl.le]
    exact iff_of_true (text_lt_of_length_eq hrest hm hn hl) (.inl hl)
  · have hval := value_lt_of_length_lt hn hm hl
    rw [if_neg hl.not_ge, (text_lt_of_length_lt hrest hl).2]
    simp only [hval.not_gt, iff_false, not_lt]

/-- The order of the texts is the reverse of that of the values exactly when the values are equal or the order is not
kept. -/
theorem reversed_iff (hrest : Low rest) (hm : m.Printed) (hn : n.Printed) :
    (m.text ++ rest < n.text ++ rest ↔ n.value < m.value) ↔ m.value = n.value ∨ ¬ KeepsOrder m n := by
  rw [← keepsOrder_iff hrest hm hn]
  rcases lt_trichotomy m.value n.value with h | h | h
  · simp only [h, h.not_gt, h.ne, iff_true, iff_false, false_or]
  · -- equal values have equally long integer parts
    have hl : m.int.length = n.int.length := by
      rcases lt_trichotomy m.int.length n.int.length with hl | hl | hl
      · exact absurd h (value_lt_of_length_lt hm hn hl).ne
      · exact hl
      · exact absurd h (value_lt_of_length_lt hn hm hl).ne'
    rw [text_lt_of_length_eq hrest hm hn hl]
    simp only [h, lt_irrefl, true_or]
  · simp only [h, h.not_gt, h.ne', iff_true, iff_false, false_or, not_not]

/-- The order of two numbers behind signs is that of their values. -/
def AgreesOrder : Sign → Numeral → Sign → Numeral → Prop
  | .plus, m, .plus, n => KeepsOrder m n
  | .minus, m, .minus, n => m.value = n.value ∨ ¬ KeepsOrder m n
  | .plus, _, .minus, _ => False
  | .minus, m, .plus, n => m.value = 0 ∧ n.value = 0

instance : ∀ s m t n, Decidable (AgreesOrder s m t n)
  | .plus, m, .plus, n => inferInstanceAs (Decidable (KeepsOrder m n))
  | .minus, m, .minus, n => inferInstanceAs (Decidable (m.value = n.value ∨ ¬ KeepsOrder m n))
  | .plus, _, .minus, _ => inferInstanceAs (Decidable False)
  | .minus, m, .plus, n => inferInstanceAs (Decidable (m.value = 0 ∧ n.value = 0))

theorem agreesOrder_iff (hrest : Low rest) (hm : m.Printed) (hn : n.Printed) (s t : Sign) :
    (s.char :: (m.text ++ rest) < t.char :: (n.text ++ rest) ↔ s.apply m.value < t.apply n.value) ↔ AgreesOrder s m t n := by
  have hkeep := keepsOrder_iff hrest hm hn
  have hm0 := m.value_nonneg
  have hn0 := n.value_nonneg
  cases s with
  | plus =>
    cases t with
    | plus => exact (iff_congr (List.cons_lt_cons_iff.trans (by simp)) Iff.rfl).trans hkeep
    | minus =>
      have htext : Sign.plus.char :: (m.text ++ rest) < Sign.minus.char :: (n.text ++ rest) :=
        List.cons_lt_cons_iff.2 (.inl (by decide))
      have hval : ¬ Sign.plus.apply m.value < Sign.minus.apply n.value := by
        simp only [Sign.apply]
        linarith
      simp only [htext, hval, AgreesOrder, iff_false, not_true_eq_false]
  | minus =>
    cases t with
    | plus =>
      have htext : ¬ Sign.minus.char :: (m.text ++ rest) < Sign.plus.char :: (n.text ++ rest) := by
        rw [List.cons_lt_cons_iff]
        rintro (h | ⟨h, -⟩)
        · exact absurd h (by decide)
        · exact absurd h (by decide)
      simp only [htext, AgreesOrder, Sign.apply, false_iff, not_lt]
      constructor
      · intro h
        constructor <;> linarith
      · rintro ⟨h1, h2⟩
        rw [h1, h2]
        norm_num
    | minus =>
      have htext : Sign.minus.char :: (m.text ++ rest) < Sign.minus.char :: (n.text ++ rest) ↔ m.text ++ rest < n.text ++ rest :=
        List.cons_lt_cons_iff.trans (by simp)
      rw [htext]
      simp only [Sign.apply, neg_lt_neg_iff, AgreesOrder]
      exact reversed_iff hrest hm hn

end

end Grip.Base
