/-
Decimal numbers as text: digits with an optional point and sign, and what `float` and `complex` of
Python make of a text. Both read the longest number at the start of what is left of it, so a number
is read back when what follows cannot continue it. Values are exact. `inf`, `nan`, digits other than
the ASCII ones and underscores between digits are not read.
-/
import GripAbsorption.Base.Text

namespace Grip.Base

/-! ## Decimal numbers -/

/-- Digits, or digits and a point with digits after it, or either side of the point alone. -/
structure Numeral where
  int : Text
  frac : Option Text
  int_digits : int.all Char.isDigit = true
  frac_digits : (frac.getD []).all Char.isDigit = true
  ne_nil : int ++ frac.getD [] ≠ []

/-- The value of the digits before and after a point. -/
def decimalValue (int frac : Text) : ℚ := intOf int + intOf frac / 10 ^ frac.length

namespace Numeral

def text (n : Numeral) : Text := n.int ++ (n.frac.map ('.' :: ·)).getD []

def value (n : Numeral) : ℚ := decimalValue n.int (n.frac.getD [])

/-- A number without a point. -/
def whole (int : Text) (h : int.all Char.isDigit = true) (hne : int ≠ []) : Numeral :=
  ⟨int, none, h, rfl, by rwa [Option.getD_none, List.append_nil]⟩

theorem mem_text (n : Numeral) {c : Char} (h : c ∈ n.text) : c.isDigit = true ∨ c = '.' := by
  obtain ⟨int, frac, hint, hfrac, hne⟩ := n
  rcases List.mem_append.1 h with h | h
  · exact .inl (List.all_eq_true.1 hint c h)
  · cases frac with
    | none => cases h
    | some f =>
      rcases List.mem_cons.1 h with rfl | h
      · exact .inr rfl
      · exact .inl (List.all_eq_true.1 hfrac c h)

/-- A numeral has no sign and no letter in it. -/
theorem ne_of_mem {n : Numeral} {c d : Char} (h : c ∈ n.text) (hd : d.isDigit = false ∧ d ≠ '.') : c ≠ d := by
  rintro rfl
  rcases n.mem_text h with hc | hc
  · rw [hd.1] at hc; cases hc
  · exact hd.2 hc

theorem text_ne_nil (n : Numeral) : n.text ≠ [] := by
  obtain ⟨int, frac, hint, hfrac, hne⟩ := n
  cases frac with
  | none => simpa [text] using hne
  | some f => simp [text]

end Numeral

inductive Sign
  | plus
  | minus
  deriving DecidableEq, Repr

namespace Sign

def char : Sign → Char
  | plus => '+'
  | minus => '-'

def apply : Sign → ℚ → ℚ
  | plus, x => x
  | minus, x => -x

end Sign

/-- A decimal number, with its sign if one is written. -/
structure Decimal where
  sign : Option Sign
  num : Numeral

namespace Decimal

def text (d : Decimal) : Text := (d.sign.map Sign.char).toList ++ d.num.text

def value (d : Decimal) : ℚ := (d.sign.getD .plus).apply d.num.value

theorem mem_text (d : Decimal) {c : Char} (h : c ∈ d.text) : c.isDigit = true ∨ c = '.' ∨ c = '+' ∨ c = '-' := by
  obtain ⟨s, n⟩ := d
  rcases List.mem_append.1 h with h | h
  · cases s with
    | none => cases h
    | some s =>
      obtain rfl := List.mem_singleton.1 h
      cases s
      · exact .inr (.inr (.inl rfl))
      · exact .inr (.inr (.inr rfl))
  · exact (n.mem_text h).imp_right .inl

theorem text_ne_nil (d : Decimal) : d.text ≠ [] := fun h => d.num.text_ne_nil (List.append_eq_nil_iff.1 h).2

end Decimal

/-- The letters for the imaginary unit. -/
inductive ImagUnit
  | i
  | j
  deriving DecidableEq, Repr

def ImagUnit.char : ImagUnit → Char
  | i => 'i'
  | j => 'j'

/-! ## Reading -/

/-- A sign, if there is one. -/
def scanSign : Text → Sign × Text
  | '-' :: t => (.minus, t)
  | '+' :: t => (.plus, t)
  | t => (.plus, t)

/-- The longest decimal at the start. -/
def scanDecimal (s : Text) : Option (ℚ × Text) :=
  let int := s.takeWhile Char.isDigit
  match s.dropWhile Char.isDigit with
  | '.' :: t =>
    let frac := t.takeWhile Char.isDigit
    if int ++ frac = [] then none else some (decimalValue int frac, t.dropWhile Char.isDigit)
  | t => if int = [] then none else some (decimalValue int [], t)

/-- An exponent, if there is one. -/
def scanExponent : Text → ℤ × Text
  | [] => (0, [])
  | c :: t =>
    let digits := (scanSign t).2.takeWhile Char.isDigit
    if (c = 'e' ∨ c = 'E') ∧ digits ≠ [] then
      (match (scanSign t).1 with
        | .plus => intOf digits
        | .minus => -intOf digits,
        (scanSign t).2.dropWhile Char.isDigit)
    else (0, c :: t)

/-- The longest number at the start. -/
def scanFloat (s : Text) : Option (ℚ × Text) :=
  (scanDecimal (scanSign s).2).map fun p =>
    ((scanSign s).1.apply p.1 * 10 ^ (scanExponent p.2).1, (scanExponent p.2).2)

/-- `str.isspace` of one character. -/
def pySpace (c : Char) : Bool :=
  c.toNat ∈ [0x20, 0x85, 0xA0, 0x1680, 0x2028, 0x2029, 0x202F, 0x205F, 0x3000] ||
    (9 ≤ c.toNat && c.toNat ≤ 13) || (28 ≤ c.toNat && c.toNat ≤ 31) || (0x2000 ≤ c.toNat && c.toNat ≤ 0x200A)

/-- `s.strip(chars)`. -/
def stripOf (p : Char → Bool) (s : Text) : Text := (s.dropWhile p).rdropWhile p

/-- `float(s)`. -/
def parseFloat (s : Text) : Option ℚ :=
  match scanFloat (stripOf pySpace s) with
  | some (x, []) => some x
  | _ => none

/-- The imaginary unit at the start. -/
def scanUnit : Text → Option Text
  | 'j' :: t => some t
  | 'J' :: t => some t
  | _ => none

/-- A sign alone counts as that many imaginary units. -/
def scanCoefficient (s : Text) : ℚ × Text := (scanFloat s).getD ((scanSign s).1.apply 1, (scanSign s).2)

/-- A number, an imaginary number, or both with a sign between, at the start. -/
def scanComplex (s : Text) : Option ((ℚ × ℚ) × Text) :=
  match scanFloat s with
  | none => (scanUnit (scanCoefficient s).2).map fun t => ((0, (scanCoefficient s).1), t)
  | some (x, t) =>
    if t.head? = some '+' ∨ t.head? = some '-' then
      (scanUnit (scanCoefficient t).2).map fun u => ((x, (scanCoefficient t).1), u)
    else
      match scanUnit t with
      | some u => some ((0, x), u)
      | none => some ((x, 0), t)

/-- `complex(s)`, real and imaginary part; parentheses around the number are allowed. -/
def parseComplex (s : Text) : Option (ℚ × ℚ) :=
  match s.dropWhile pySpace with
  | '(' :: t =>
    match scanComplex (t.dropWhile pySpace) with
    | some (z, u) =>
      match u.dropWhile pySpace with
      | ')' :: v => if v.dropWhile pySpace = [] then some z else none
      | _ => none
    | none => none
  | t =>
    match scanComplex t with
    | some (z, u) => if u.dropWhile pySpace = [] then some z else none
    | none => none

/-! ## What is read back -/

/-- What follows a number and cannot continue it. -/
def Ends (rest : Text) : Prop := ∀ c ∈ rest.head?, c.isDigit = false ∧ c ≠ '.' ∧ c ≠ 'e' ∧ c ≠ 'E'

theorem ends_nil : Ends [] := by intro c hc; cases hc

theorem ends_cons {c : Char} {t : Text} (h : c.isDigit = false ∧ c ≠ '.' ∧ c ≠ 'e' ∧ c ≠ 'E') : Ends (c :: t) := by
  intro d hd
  cases hd
  exact h

theorem Ends.dropWhile {rest : Text} (h : Ends rest) : rest.dropWhile Char.isDigit = rest ∧ rest.takeWhile Char.isDigit = [] := by
  cases rest with
  | nil => exact ⟨rfl, rfl⟩
  | cons c t =>
    have hc := (h c rfl).1
    exact ⟨List.dropWhile_cons_of_neg (by simp [hc]), List.takeWhile_cons_of_neg (by simp [hc])⟩

theorem takeWhile_digits {s rest : Text} (hs : s.all Char.isDigit = true) (hr : rest.takeWhile Char.isDigit = []) :
    (s ++ rest).takeWhile Char.isDigit = s := by
  rw [List.takeWhile_append_of_pos (List.all_eq_true.1 hs), hr, List.append_nil]

theorem dropWhile_digits {s rest : Text} (hs : s.all Char.isDigit = true) :
    (s ++ rest).dropWhile Char.isDigit = rest.dropWhile Char.isDigit :=
  List.dropWhile_append_of_pos (List.all_eq_true.1 hs)

theorem scanDecimal_text (n : Numeral) {rest : Text} (h : Ends rest) : scanDecimal (n.text ++ rest) = some (n.value, rest) := by
  obtain ⟨int, frac, hint, hfrac, hne⟩ := n
  cases frac with
  | none =>
    have htake : (int ++ rest).takeWhile Char.isDigit = int := takeWhile_digits hint h.dropWhile.2
    have hdrop : (int ++ rest).dropWhile Char.isDigit = rest := (dropWhile_digits hint).trans h.dropWhile.1
    have hpoint : ∀ t, rest ≠ '.' :: t := by rintro t rfl; exact (h '.' rfl).2.1 rfl
    simp only [Option.getD_none, List.append_nil] at hne
    simp only [Numeral.text, Numeral.value, Option.map_none, Option.getD_none, List.append_nil]
    unfold scanDecimal
    rw [htake, hdrop]
    split
    · exact absurd rfl (hpoint _)
    · rw [if_neg hne]
  | some f =>
    have htake : (int ++ ('.' :: f ++ rest)).takeWhile Char.isDigit = int := takeWhile_digits hint rfl
    have hdrop : (int ++ ('.' :: f ++ rest)).dropWhile Char.isDigit = '.' :: (f ++ rest) := dropWhile_digits hint
    have hf : (f ++ rest).takeWhile Char.isDigit = f := takeWhile_digits hfrac h.dropWhile.2
    have hrest : (f ++ rest).dropWhile Char.isDigit = rest := (dropWhile_digits hfrac).trans h.dropWhile.1
    simp only [Numeral.text, Numeral.value, Option.map_some, Option.getD_some, List.append_assoc]
    unfold scanDecimal
    rw [htake, hdrop]
    simp only [hf, hrest]
    exact if_neg hne

theorem scanExponent_of_ends {rest : Text} (h : Ends rest) : scanExponent rest = (0, rest) := by
  cases rest with
  | nil => rfl
  | cons c t =>
    have hc := h c rfl
    rw [scanExponent, if_neg (by rintro ⟨rfl | rfl, -⟩ <;> simp at hc)]

/-- A numeral has no sign of its own. -/
theorem scanSign_numeral (n : Numeral) (rest : Text) : scanSign (n.text ++ rest) = (.plus, n.text ++ rest) := by
  obtain ⟨c, t, ht⟩ := List.exists_cons_of_ne_nil n.text_ne_nil
  have hc : c.isDigit = true ∨ c = '.' := n.mem_text (by rw [ht]; exact List.mem_cons_self ..)
  rw [ht, List.cons_append]
  unfold scanSign
  split
  · rename_i h
    cases h
    simp at hc
  · rename_i h
    cases h
    simp at hc
  · rfl

theorem scanSign_text (d : Decimal) (rest : Text) :
    scanSign (d.text ++ rest) = (d.sign.getD .plus, d.num.text ++ rest) := by
  obtain ⟨s, n⟩ := d
  cases s with
  | none => exact scanSign_numeral n rest
  | some s => cases s <;> rfl

/-- A decimal number is read back. -/
theorem scanFloat_text (d : Decimal) {rest : Text} (h : Ends rest) : scanFloat (d.text ++ rest) = some (d.value, rest) := by
  unfold scanFloat
  rw [scanSign_text, scanDecimal_text d.num h]
  simp [scanExponent_of_ends h, Decimal.value]

/-- Stripping takes off what follows a body without the characters to strip. -/
theorem stripOf_append {p : Char → Bool} {body post : Text} (hbody : ∀ c ∈ body, p c = false) (hpost : ∀ c ∈ post, p c = true) :
    stripOf p (body ++ post) = body := by
  have hstop : ∀ l : Text, (∀ c ∈ l, p c = false) → l.dropWhile p = l := by
    intro l hl
    cases l with
    | nil => rfl
    | cons c l => exact List.dropWhile_cons_of_neg (by simp [hl c (List.mem_cons_self ..)])
  have hright : (body ++ post).rdropWhile p = body := by
    unfold List.rdropWhile
    rw [List.reverse_append, List.dropWhile_append_of_pos (by simpa using hpost),
      hstop _ (by simpa using hbody), List.reverse_reverse]
  unfold stripOf
  cases body with
  | nil =>
    have hall : post.dropWhile p = [] := List.dropWhile_eq_nil_iff.2 hpost
    rw [List.nil_append, hall]
    rfl
  | cons c body =>
    rw [List.cons_append, List.dropWhile_cons_of_neg (by simp [hbody c (List.mem_cons_self ..)]), ← List.cons_append]
    exact hright

theorem stripOf_of_none {p : Char → Bool} {s : Text} (h : ∀ c ∈ s, p c = false) : stripOf p s = s := by
  have hs : stripOf p (s ++ []) = s := stripOf_append h fun c hc => by cases hc
  rwa [List.append_nil] at hs

theorem pySpace_of_mem_text {d : Decimal} {c : Char} (h : c ∈ d.text) : pySpace c = false := by
  rcases d.mem_text h with hc | rfl | rfl | rfl
  · have hd : 48 ≤ c.toNat ∧ c.toNat ≤ 57 := Char.isDigit_iff_toNat.1 hc
    simp only [pySpace, List.mem_cons, List.not_mem_nil, or_false, Bool.or_eq_false_iff, Bool.and_eq_false_iff,
      decide_eq_false_iff_not]
    omega
  · decide
  · decide
  · decide

/-- A decimal number is a float literal. -/
theorem parseFloat_text (d : Decimal) : parseFloat d.text = some d.value := by
  have hscan := scanFloat_text d ends_nil
  rw [List.append_nil] at hscan
  rw [parseFloat, stripOf_of_none fun c hc => pySpace_of_mem_text hc, hscan]

/-- A decimal number and something after it is none. -/
theorem parseFloat_append (d : Decimal) {rest : Text} (h : Ends rest) (hne : rest ≠ []) (hspace : ∀ c ∈ rest, pySpace c = false) :
    parseFloat (d.text ++ rest) = none := by
  have hstrip : stripOf pySpace (d.text ++ rest) = d.text ++ rest := by
    refine stripOf_of_none fun c hc => ?_
    rcases List.mem_append.1 hc with hc | hc
    · exact pySpace_of_mem_text hc
    · exact hspace c hc
  rw [parseFloat, hstrip, scanFloat_text d h]
  cases rest with
  | nil => exact absurd rfl hne
  | cons c t => rfl

theorem ends_sign (s : Sign) (t : Text) : Ends (s.char :: t) := by
  refine ends_cons ?_
  cases s <;> decide

theorem ends_imag (k : ImagUnit) (rest : Text) : Ends (k.char :: rest) := ends_cons (by cases k <;> decide)

/-- Two decimal numbers, the second one signed, at the start. -/
theorem scanComplex_text (a : Decimal) (s : Sign) (n : Numeral) {rest : Text} (hrest : Ends rest) :
    scanComplex (a.text ++ s.char :: (n.text ++ rest)) = (scanUnit rest).map fun u => ((a.value, s.apply n.value), u) := by
  have ha := scanFloat_text a (ends_sign s (n.text ++ rest))
  have hb : scanFloat (s.char :: (n.text ++ rest)) = some (s.apply n.value, rest) := scanFloat_text ⟨some s, n⟩ hrest
  have hhead : (s.char :: (n.text ++ rest)).head? = some '+' ∨ (s.char :: (n.text ++ rest)).head? = some '-' := by
    cases s
    · exact .inl rfl
    · exact .inr rfl
  unfold scanComplex
  rw [ha]
  simp only [if_pos hhead, scanCoefficient, hb, Option.getD_some]

/-- They are a complex literal if the imaginary unit follows and nothing else but white space. -/
theorem parseComplex_text (a : Decimal) (s : Sign) (n : Numeral) {rest : Text} (hrest : Ends rest) :
    parseComplex (a.text ++ s.char :: (n.text ++ rest)) =
      ((scanUnit rest).filter fun u => u.dropWhile pySpace = []).map fun _ => (a.value, s.apply n.value) := by
  obtain ⟨c, t, ht⟩ := List.exists_cons_of_ne_nil a.text_ne_nil
  have hmem : c ∈ a.text := by rw [ht]; exact List.mem_cons_self ..
  have hdrop : (a.text ++ s.char :: (n.text ++ rest)).dropWhile pySpace = a.text ++ s.char :: (n.text ++ rest) := by
    rw [ht, List.cons_append, List.dropWhile_cons_of_neg (by simp [pySpace_of_mem_text hmem])]
  have hparen : ∀ v, a.text ++ s.char :: (n.text ++ rest) ≠ '(' :: v := by
    intro v hv
    rw [ht, List.cons_append] at hv
    obtain rfl : c = '(' := (List.cons.inj hv).1
    rcases a.mem_text hmem with hc | hc | hc | hc <;> simp at hc
  unfold parseComplex
  rw [hdrop]
  split
  · rename_i h
    exact absurd h (hparen _)
  · rw [scanComplex_text a s n hrest]
    cases hu : scanUnit rest with
    | none => rfl
    | some u =>
      simp only [Option.map_some, Option.filter_some, decide_eq_true_eq]
      split <;> rfl

end Grip.Base
