/-
`convert_power_units` of `absorption.py` and `packetized/vb_device.py` (the same text twice): a power
as GridLAB-D prints it, in another unit. A complex value is told by its imaginary unit and its real
part is taken to be what stands after the first `+`. That is the real part if both parts are printed
with `+`; with a minus sign the piece is no number, or there is no piece at all. A plain real number is
converted with either sign.
-/
import GripAbsorption.Base.Decimal
import GripAbsorption.Base.Run

namespace Grip.Absorption

open Grip.Base

/-! ## The conversion -/

/-- The keys of `cnvrt`. -/
inductive PowerUnit
  | kW
  | W
  | VA
  | MW
  | Wh
  | MWh
  deriving DecidableEq, Repr

namespace PowerUnit

def text : PowerUnit → Text
  | kW => "kW".toList
  | W => "W".toList
  | VA => "VA".toList
  | MW => "MW".toList
  | Wh => "Wh".toList
  | MWh => "MWh".toList

def cnvrt : PowerUnit → ℚ
  | kW => 1000
  | W => 1000000
  | VA => 1000000
  | MW => 1
  | Wh => 1000000
  | MWh => 1

/-- The characters of `' '+in_unit`. -/
def strips (u : PowerUnit) (c : Char) : Bool := c ∈ ' ' :: u.text

end PowerUnit

/-- What `convert_power_units` raises. -/
inductive ConvertErr
  /-- no piece after a `+` -/
  | indexError
  /-- the piece is no number -/
  | valueError
  deriving DecidableEq, Repr

def convertPowerUnits (strVal : Text) (inUnit outUnit : PowerUnit) : Except ConvertErr ℚ := do
  let piece ←
    if 'j' ∈ strVal ∨ 'i' ∈ strVal then orRaise .indexError (strVal.splitOnP (· = '+'))[1]?
    else pure strVal
  let val ← orRaise .valueError (parseFloat (stripOf inUnit.strips piece))
  return val * outUnit.cnvrt / inUnit.cnvrt

/-! ## Values as GridLAB-D prints them -/

/-- A complex value: both parts with their signs, the imaginary unit, and the unit. -/
def rectangular (s : Sign) (re : Numeral) (t : Sign) (im : Numeral) (k : ImagUnit) (u : PowerUnit) : Text :=
  s.char :: (re.text ++ t.char :: (im.text ++ k.char :: ' ' :: u.text))

/-- A real value with its sign. -/
def plain (s : Sign) (x : Numeral) (u : PowerUnit) : Text := s.char :: (x.text ++ ' ' :: u.text)

theorem strips_of_isDigit {u : PowerUnit} {c : Char} (h : c.isDigit = true) : u.strips c = false := by
  have hall : (' ' :: u.text).all (fun d => !d.isDigit) = true := by cases u <;> rfl
  rw [PowerUnit.strips, decide_eq_false_iff_not]
  intro hm
  have hc := List.all_eq_true.1 hall c hm
  rw [h] at hc
  cases hc

theorem strips_numeral {u : PowerUnit} {n : Numeral} {c : Char} (h : c ∈ n.text) : u.strips c = false := by
  rcases n.mem_text h with hc | rfl
  · exact strips_of_isDigit hc
  · cases u <;> decide

/-- The strip takes off the unit and the blank before it, and no character of a number. -/
theorem strip_unit {u : PowerUnit} {body : Text} (h : ∀ c ∈ body, u.strips c = false) :
    stripOf u.strips (body ++ ' ' :: u.text) = body :=
  stripOf_append h fun _ hc => decide_eq_true hc

theorem imag_mem_rectangular (s : Sign) (re : Numeral) (t : Sign) (im : Numeral) (k : ImagUnit) (u : PowerUnit) :
    'j' ∈ rectangular s re t im k u ∨ 'i' ∈ rectangular s re t im k u := by
  cases k
  · exact .inr (by simp [rectangular, ImagUnit.char])
  · exact .inl (by simp [rectangular, ImagUnit.char])

theorem imag_notMem_plain (s : Sign) (x : Numeral) (u : PowerUnit) : ¬ ('j' ∈ plain s x u ∨ 'i' ∈ plain s x u) := by
  have hnone : ∀ c : Char, c.isDigit = false → c ≠ '.' → c ≠ s.char → c ∉ ' ' :: u.text → c ∉ plain s x u := by
    intro c hdig hdot hs hu hc
    rcases List.mem_cons.1 hc with hc | hc
    · exact hs hc
    · rcases List.mem_append.1 hc with hc | hc
      · exact Numeral.ne_of_mem hc ⟨hdig, hdot⟩ rfl
      · exact hu hc
  rintro (h | h)
  · exact hnone 'j' (by decide) (by decide) (by cases s <;> decide) (by cases u <;> decide) h
  · exact hnone 'i' (by decide) (by decide) (by cases s <;> decide) (by cases u <;> decide) h

/-! ## The piece after the first plus -/

/-- What stands after the first `+`, up to the next one. -/
theorem second_piece {a b : Text} (ha : ∀ c ∈ a, c ≠ '+') (hb : ∀ c ∈ b, c ≠ '+') (rest : Text) :
    ((a ++ '+' :: b).splitOnP (· = '+'))[1]? = some b ∧ ((a ++ '+' :: (b ++ '+' :: rest)).splitOnP (· = '+'))[1]? = some b := by
  have ha' : ∀ c ∈ a, decide (c = '+') = false := fun c hc => decide_eq_false (ha c hc)
  have hb' : ∀ c ∈ b, decide (c = '+') = false := fun c hc => decide_eq_false (hb c hc)
  rw [List.splitOnP_append_cons_of_forall_mem ha' '+' (by simp), List.splitOnP_eq_singleton hb',
    List.splitOnP_append_cons_of_forall_mem ha' '+' (by simp), List.splitOnP_append_cons_of_forall_mem hb' '+' (by simp)]
  exact ⟨rfl, rfl⟩

section

variable {s t : Sign} {re im x : Numeral} {k : ImagUnit} {u v : PowerUnit}

theorem convert_of_piece {piece : Text} (hpiece : ((rectangular s re t im k u).splitOnP (· = '+'))[1]? = some piece) :
    convertPowerUnits (rectangular s re t im k u) u v = match parseFloat (stripOf u.strips piece) with
      | some val => .ok (val * v.cnvrt / u.cnvrt)
      | none => .error .valueError := by
  unfold convertPowerUnits
  rw [if_pos (imag_mem_rectangular ..), hpiece]
  change (orRaise ConvertErr.valueError (parseFloat (stripOf u.strips piece)) >>= _) = _
  cases parseFloat (stripOf u.strips piece) <;> rfl

theorem strip_numeral : stripOf u.strips re.text = re.text := stripOf_of_none fun _ hc => strips_numeral hc

theorem tail_ne_plus (k : ImagUnit) (u : PowerUnit) : ∀ c ∈ k.char :: ' ' :: u.text, c ≠ '+' := by
  cases k <;> cases u <;> simp [ImagUnit.char, PowerUnit.text]

theorem numeral_ne_plus {n : Numeral} {rest : Text} (h : ∀ c ∈ rest, c ≠ '+') : ∀ c ∈ n.text ++ rest, c ≠ '+' :=
  List.forall_mem_append.2 ⟨fun _ hc => Numeral.ne_of_mem hc (by decide), h⟩

theorem strips_imag : ∀ c ∈ im.text ++ [k.char], u.strips c = false := by
  refine List.forall_mem_append.2 ⟨fun _ hc => strips_numeral hc, List.forall_mem_singleton.2 ?_⟩
  cases k <;> cases u <;> decide

theorem space_imagUnit (k : ImagUnit) : pySpace k.char = false := by cases k <;> decide

theorem space_imag : ∀ c ∈ im.text ++ [k.char], pySpace c = false := by
  refine List.forall_mem_append.2 ⟨fun _ hc => pySpace_of_mem_text (d := ⟨none, im⟩) hc, List.forall_mem_singleton.2 ?_⟩
  exact space_imagUnit k

/-- Both parts with a plus: the piece is the real part. -/
theorem convert_plus_plus :
    convertPowerUnits (rectangular .plus re .plus im k u) u v = .ok (re.value * v.cnvrt / u.cnvrt) := by
  have hpiece : ((rectangular .plus re .plus im k u).splitOnP (· = '+'))[1]? = some re.text :=
    (second_piece (a := []) (by simp) (fun _ hc => Numeral.ne_of_mem hc (by decide)) _).2
  have hval : parseFloat re.text = some re.value := parseFloat_text ⟨none, re⟩
  rw [convert_of_piece hpiece, strip_numeral, hval]

/-- The real part with a plus and the other with a minus: the piece goes on to the end and is no number. -/
theorem convert_plus_minus :
    convertPowerUnits (rectangular .plus re .minus im k u) u v = .error .valueError := by
  have hplus : ∀ c ∈ re.text ++ '-' :: (im.text ++ k.char :: ' ' :: u.text), c ≠ '+' :=
    numeral_ne_plus (List.forall_mem_cons.2 ⟨by decide, numeral_ne_plus (tail_ne_plus k u)⟩)
  have hpiece : ((rectangular .plus re .minus im k u).splitOnP (· = '+'))[1]? =
      some (re.text ++ '-' :: (im.text ++ k.char :: ' ' :: u.text)) := (second_piece (a := []) (by simp) hplus []).1
  have hbody : ∀ c ∈ re.text ++ '-' :: (im.text ++ [k.char]), u.strips c = false :=
    List.forall_mem_append.2 ⟨fun _ hc => strips_numeral hc, List.forall_mem_cons.2 ⟨by cases u <;> decide, strips_imag⟩⟩
  have hstrip : stripOf u.strips (re.text ++ '-' :: (im.text ++ k.char :: ' ' :: u.text)) =
      re.text ++ '-' :: (im.text ++ [k.char]) := by
    rw [← strip_unit hbody, List.append_assoc, List.cons_append, List.append_assoc, List.singleton_append]
  have hnone : parseFloat (re.text ++ '-' :: (im.text ++ [k.char])) = none :=
    parseFloat_append ⟨none, re⟩ (ends_sign .minus _) (by simp) (List.forall_mem_cons.2 ⟨by decide, space_imag⟩)
  rw [convert_of_piece hpiece, hstrip, hnone]

/-- The real part with a minus and the other with a plus: the piece is the other part with its unit. -/
theorem convert_minus_plus :
    convertPowerUnits (rectangular .minus re .plus im k u) u v = .error .valueError := by
  have hminus : ∀ c ∈ '-' :: re.text, c ≠ '+' :=
    List.forall_mem_cons.2 ⟨by decide, fun _ hc => Numeral.ne_of_mem hc (by decide)⟩
  have hpiece : ((rectangular .minus re .plus im k u).splitOnP (· = '+'))[1]? =
      some (im.text ++ k.char :: ' ' :: u.text) := (second_piece hminus (numeral_ne_plus (tail_ne_plus k u)) []).1
  have hstrip : stripOf u.strips (im.text ++ k.char :: ' ' :: u.text) = im.text ++ [k.char] := by
    rw [List.append_cons, strip_unit strips_imag]
  have hnone : parseFloat (im.text ++ [k.char]) = none :=
    parseFloat_append ⟨none, im⟩ (ends_imag k []) (by simp) (List.forall_mem_singleton.2 (space_imagUnit k))
  rw [convert_of_piece hpiece, hstrip, hnone]

/-- Both parts with a minus: there is no piece. -/
theorem convert_minus_minus :
    convertPowerUnits (rectangular .minus re .minus im k u) u v = .error .indexError := by
  have hplus : ∀ c ∈ rectangular .minus re .minus im k u, c ≠ '+' :=
    List.forall_mem_cons.2 ⟨by decide,
      numeral_ne_plus (List.forall_mem_cons.2 ⟨by decide, numeral_ne_plus (tail_ne_plus k u)⟩)⟩
  unfold convertPowerUnits
  rw [if_pos (imag_mem_rectangular ..), List.splitOnP_eq_singleton fun c hc => decide_eq_false (hplus c hc)]
  rfl

/-- A plain real number is converted. -/
theorem convert_plain : convertPowerUnits (plain s x u) u v = .ok (s.apply x.value * v.cnvrt / u.cnvrt) := by
  have hbody : ∀ c ∈ s.char :: x.text, u.strips c = false :=
    List.forall_mem_cons.2 ⟨by cases u <;> cases s <;> decide, fun _ hc => strips_numeral hc⟩
  have hstrip : stripOf u.strips (plain s x u) = (⟨some s, x⟩ : Decimal).text := strip_unit hbody
  unfold convertPowerUnits
  rw [if_neg (imag_notMem_plain s x u)]
  change (orRaise ConvertErr.valueError (parseFloat (stripOf u.strips (plain s x u))) >>= _) = _
  rw [hstrip, parseFloat_text]
  rfl

end

/-! ## Which values are converted -/

/-- A complex value is converted to its real part exactly when both parts are printed with `+`; a plain real
value always is converted. -/
theorem convertPowerUnits_iff (u v : PowerUnit) :
    (∀ (s : Sign) (re : Numeral) (t : Sign) (im : Numeral) (k : ImagUnit),
      convertPowerUnits (rectangular s re t im k u) u v = .ok (s.apply re.value * (v.cnvrt / u.cnvrt)) ↔
        s = .plus ∧ t = .plus) ∧
      ∀ (s : Sign) (x : Numeral),
        convertPowerUnits (plain s x u) u v = .ok (s.apply x.value * (v.cnvrt / u.cnvrt)) := by
  refine ⟨fun s re t im k => ?_, fun s x => ?_⟩
  · cases s <;> cases t
    · rw [convert_plus_plus, ← mul_div_assoc]
      simp [Sign.apply]
    · simp [convert_plus_minus]
    · simp [convert_minus_plus]
    · simp [convert_minus_minus]
  · rw [convert_plain, mul_div_assoc]

def thousand : Numeral := .whole "1000".toList (by decide) (by decide)

def twoHundred : Numeral := .whole "200".toList (by decide) (by decide)

/-- `-1000+200i VA` is not converted, nor are the other two with a minus. -/
theorem convert_negative_real :
    (¬ ∀ (s : Sign) (re : Numeral) (t : Sign) (im : Numeral) (k : ImagUnit) (u v : PowerUnit),
      convertPowerUnits (rectangular s re t im k u) u v = .ok (s.apply re.value * (v.cnvrt / u.cnvrt))) ∧
    rectangular .minus thousand .plus twoHundred .i .VA = "-1000+200i VA".toList ∧
      convertPowerUnits "-1000+200i VA".toList .VA .kW = .error .valueError ∧
      convertPowerUnits "+1000-200i VA".toList .VA .kW = .error .valueError ∧
      convertPowerUnits "-1000-200i VA".toList .VA .kW = .error .indexError := by
  have h : convertPowerUnits "-1000+200i VA".toList .VA .kW = .error .valueError := by decide +kernel
  refine ⟨fun hall => ?_, by decide +kernel, h, by decide +kernel, by decide +kernel⟩
  have hok := hall .minus thousand .plus twoHundred .i .VA .kW
  rw [show rectangular .minus thousand .plus twoHundred .i .VA = "-1000+200i VA".toList by decide +kernel, h] at hok
  cases hok

end Grip.Absorption
