/-
`re_complex` and `to_complex` of `voltdump.py`: the complex values of the power dumps, in polar form with
degrees or radians, or in rectangular form. The expression takes both `i` and `j` for the imaginary unit, but
a rectangular value is left to `complex`, which knows `j` alone: a row with an `i` in it is dropped.
-/
import GripAbsorption.Base.Decimal
import GripAbsorption.Base.Regex
import GripAbsorption.Base.Run

namespace Grip.Outputs

open Grip.Base

/-! ## The expression -/

/-- `[+-]`. -/
def signClass : Pattern := .one fun c => c = '+' || c = '-'

/-- `[+-][0-9]*\.?[0-9]+|[+-][0-9]+.[0-9]+[eE][0-9]+`; the bare point is any character of the line. -/
def signedNumber : Pattern :=
  .alt (.seq signClass (.seq (.many Char.isDigit) (.seq (.opt (.one (· = '.'))) (.many1 Char.isDigit))))
    (.seq signClass (.seq (.many1 Char.isDigit) (.seq (.one (· ≠ '\n')) (.seq (.many1 Char.isDigit)
      (.seq (.one fun c => c = 'e' || c = 'E') (.many1 Char.isDigit))))))

/-- `re_complex`: two numbers, and a letter out of `ijdr`. -/
def reComplex : List Pattern := [signedNumber, signedNumber, .one fun c => c ∈ "ijdr".toList]

/-! ## The value -/

/-- What `to_complex` raises. -/
inductive ReadErr
  /-- from `float` -/
  | notFloat (s : Text)
  /-- `complex('%s') is not valid` -/
  | notValid (s : Text)
  deriving DecidableEq, Repr

/-- `float(s)` or its exception. -/
def readFloat (s : Text) : Except ReadErr ℚ := orRaise (.notFloat s) (parseFloat s)

section

variable (cos sin : ℚ → ℚ)

/-- `complex(m*math.cos(a),m*math.sin(a))`. -/
def polar (m a : ℚ) : ℚ × ℚ := (m * cos a, m * sin a)

/-- `to_complex`, over the cosine and sine of `math`. The pieces are taken from the first match. -/
def toComplex (s : Text) : Except ReadErr (ℚ × ℚ) :=
  match reSplit reComplex s with
  | _ :: g1 :: g2 :: g3 :: _ :: _ =>
    if g3 = ['d'] then do
      let m ← readFloat g1
      let a ← readFloat g2
      return polar cos sin m (a * (31415926 / 10000000) / 180)
    else if g3 = ['r'] then do
      let m ← readFloat g1
      let a ← readFloat g2
      return polar cos sin m a
    else orRaise (.notValid s) (parseComplex s)
  | _ => orRaise (.notValid s) (parseComplex s)

/-- `list(map(lambda x:to_complex(x),row[1:]))` on the cells of a row; any exception drops them all. -/
def readCells (cells : List Text) : Except ReadErr (List (ℚ × ℚ)) := cells.mapM (toComplex cos sin)

/-! ## Rectangular values -/

/-- Two signed decimal numbers and the imaginary unit. -/
structure Rect where
  reSign : Sign
  re : Numeral
  imSign : Sign
  im : Numeral
  unit : ImagUnit

namespace Rect

def text (v : Rect) : Text := v.reSign.char :: (v.re.text ++ v.imSign.char :: (v.im.text ++ [v.unit.char]))

/-- `a + b*1j`. -/
def value (v : Rect) : ℚ × ℚ := (v.reSign.apply v.re.value, v.imSign.apply v.im.value)

theorem ne_of_mem_text {v : Rect} {c d : Char} (h : c ∈ v.text) (hd : d.isDigit = false ∧ d ≠ '.') (hr : d ≠ v.reSign.char)
    (hi : d ≠ v.imSign.char) (hu : d ≠ v.unit.char) : c ≠ d := by
  rcases List.mem_cons.1 h with rfl | h
  · exact hr.symm
  · rcases List.mem_append.1 h with h | h
    · exact Numeral.ne_of_mem h hd
    · rcases List.mem_cons.1 h with rfl | h
      · exact hi.symm
      · rcases List.mem_append.1 h with h | h
        · exact Numeral.ne_of_mem h hd
        · rw [List.mem_singleton.1 h]
          exact hu.symm

/-- No letter for a polar form is in it. -/
theorem polar_notMem (v : Rect) : 'd' ∉ v.text ∧ 'r' ∉ v.text := by
  have hsign : ∀ s : Sign, 'd' ≠ s.char ∧ 'r' ≠ s.char := by intro s; cases s <;> decide
  have hunit : ∀ k : ImagUnit, 'd' ≠ k.char ∧ 'r' ≠ k.char := by intro k; cases k <;> decide
  exact ⟨fun h => ne_of_mem_text h (by decide) (hsign _).1 (hsign _).1 (hunit _).1 rfl,
    fun h => ne_of_mem_text h (by decide) (hsign _).2 (hsign _).2 (hunit _).2 rfl⟩

end Rect

/-- Without a letter for a polar form the value is left to `complex`. -/
theorem toComplex_of_notMem {s : Text} (hd : 'd' ∉ s) (hr : 'r' ∉ s) :
    toComplex cos sin s = orRaise (.notValid s) (parseComplex s) := by
  unfold toComplex
  split
  · rename_i g0 g1 g2 g3 g4 rest hsplit
    -- the third group is cut out of `s`
    have hmem : g3 ∈ reSplit reComplex s := by simp [hsplit]
    have hg3 : ∀ c ∈ g3, c ∈ s := fun c hc => mem_reSplit hmem hc
    rw [if_neg (by rintro rfl; exact hd (hg3 'd' (by simp))), if_neg (by rintro rfl; exact hr (hg3 'r' (by simp)))]
  · rfl

/-- `complex` knows `j` alone. -/
theorem parseComplex_rect (v : Rect) : parseComplex v.text = match v.unit with
    | .j => some v.value
    | .i => none := by
  obtain ⟨s, a, t, b, k⟩ := v
  have hends : Ends [k.char] := ends_imag k []
  have hparse : parseComplex (Rect.text ⟨s, a, t, b, k⟩) =
      ((scanUnit [k.char]).filter fun u => u.dropWhile pySpace = []).map fun _ => (s.apply a.value, t.apply b.value) :=
    parseComplex_text ⟨some s, a⟩ t b hends
  rw [hparse]
  cases k <;> rfl

theorem toComplex_rect (v : Rect) : toComplex cos sin v.text = match v.unit with
    | .j => .ok v.value
    | .i => .error (.notValid v.text) := by
  rw [toComplex_of_notMem cos sin v.polar_notMem.1 v.polar_notMem.2, parseComplex_rect]
  cases v.unit <;> rfl

/-- A rectangular value is read exactly when its imaginary unit is written `j`, and a row of such values exactly when
all of them are. -/
theorem toComplex_iff :
    (∀ v : Rect, toComplex cos sin v.text = .ok v.value ↔ v.unit = .j) ∧
      ∀ row : List Rect, readCells cos sin (row.map Rect.text) = .ok (row.map Rect.value) ↔ ∀ v ∈ row, v.unit = .j := by
  have hone : ∀ v : Rect, (∃ z, toComplex cos sin v.text = .ok z) ↔ v.unit = .j := by
    intro v
    rw [toComplex_rect]
    cases v.unit <;> simp
  have hval : ∀ v : Rect, v.unit = .j → toComplex cos sin v.text = .ok v.value := by
    intro v hv
    rw [toComplex_rect, hv]
  refine ⟨fun v => ⟨fun h => (hone v).1 ⟨_, h⟩, hval v⟩, fun row => ⟨fun h v hv => ?_, fun h => ?_⟩⟩
  · exact (hone v).1 (ok_of_mapM h _ (List.mem_map_of_mem hv))
  · rw [readCells, List.mapM_map]
    exact mapM_eq_ok fun v hv => hval v (h v hv)

end

def one : Numeral := .whole "1".toList (by decide) (by decide)

def two : Numeral := .whole "2".toList (by decide) (by decide)

/-- `+1+2i` is taken by the expression and refused by `complex`. -/
theorem toComplex_i :
    reSplit reComplex "+1+2i".toList = ["", "+1", "+2", "i", ""].map String.toList ∧
      toComplex (fun _ => 1) (fun _ => 0) "+1+2i".toList = .error (.notValid "+1+2i".toList) ∧
      (Rect.mk .plus one .plus two .i).text = "+1+2i".toList ∧
      ¬ ∀ v : Rect, toComplex (fun _ => 1) (fun _ => 0) v.text = .ok v.value := by
  have h : toComplex (fun _ => 1) (fun _ => 0) "+1+2i".toList = .error (.notValid "+1+2i".toList) := by decide +kernel
  refine ⟨by decide +kernel, h, by decide +kernel, fun hall => ?_⟩
  have hok := hall ⟨.plus, one, .plus, two, .i⟩
  rw [show (Rect.mk .plus one .plus two .i).text = "+1+2i".toList by decide +kernel, h] at hok
  cases hok

end Grip.Outputs
