/-
Text as Python writes it and Julia reads it: decimal numerals, padded ones, the first run of digits in
a name, and words joined by a blank and split at white space again. Names are ASCII, where `\d` is one
of ten digits.
-/
import Mathlib

namespace Grip.Base

/-- A string, as its characters. -/
abbrev Text := List Char

/-! ## Numerals -/

/-- `str(n)`. -/
def natText (n : ℕ) : Text := Nat.toDigits 10 n

def intText : ℤ → Text
  | .ofNat n => natText n
  | .negSucc n => '-' :: natText (n + 1)

/-- `"{:03d}".format(n)`. -/
def pad3 (n : ℕ) : Text := List.replicate (3 - (natText n).length) '0' ++ natText n

/-- `int(s)` of a run of digits. -/
def intOf (s : Text) : ℕ := Nat.ofDigitChars 10 s 0

theorem isDigit_natText {n : ℕ} {c : Char} (hc : c ∈ natText n) : c.isDigit = true :=
  Nat.isDigit_of_mem_toDigits (by omega) (by omega) hc

theorem natText_ne_nil (n : ℕ) : natText n ≠ [] := List.ne_nil_of_length_pos Nat.length_toDigits_pos

@[simp] theorem intOf_natText (n : ℕ) : intOf (natText n) = n := Nat.ofDigitChars_ten_toDigits

@[simp] theorem intOf_pad3 (n : ℕ) : intOf (pad3 n) = n := by
  unfold intOf pad3
  rw [Nat.ofDigitChars_append, Nat.ofDigitChars_replicate_zero, mul_zero]
  exact intOf_natText n

theorem pad3_injective : Function.Injective pad3 := fun a b h => by
  rw [← intOf_pad3 a, h, intOf_pad3]

/-- The digits alone, if there are any and nothing else. -/
def parseDigits (s : Text) : Option ℕ := if s ≠ [] ∧ s.all Char.isDigit then some (intOf s) else none

/-- A numeral with a sign or without one. -/
def parseSigned : Text → Option ℤ
  | '-' :: digits => (parseDigits digits).map fun n => -(n : ℤ)
  | '+' :: digits => (parseDigits digits).map fun n => (n : ℤ)
  | digits => (parseDigits digits).map fun n => (n : ℤ)

/-- `parse(Int, s)`: a decimal numeral of an `Int64`. -/
def parseInt (s : Text) : Option ℤ := (parseSigned s).filter fun i => -2 ^ 63 ≤ i ∧ i < 2 ^ 63

@[simp] theorem parseDigits_natText (n : ℕ) : parseDigits (natText n) = some n := by
  unfold parseDigits
  rw [if_pos ⟨natText_ne_nil n, List.all_eq_true.2 fun c hc => isDigit_natText hc⟩, intOf_natText]

theorem parseSigned_natText (n : ℕ) : parseSigned (natText n) = some (n : ℤ) := by
  -- the first character is a digit, so no sign
  have hsign : ∀ c ∈ natText n, c ≠ '-' ∧ c ≠ '+' := by
    intro c hc
    have hd := isDigit_natText hc
    constructor <;> (rintro rfl; cases hd)
  have hval := parseDigits_natText n
  generalize natText n = s at hsign hval
  unfold parseSigned
  split
  · exact absurd rfl (hsign _ (List.mem_cons_self ..)).1
  · exact absurd rfl (hsign _ (List.mem_cons_self ..)).2
  · rw [hval]; rfl

theorem parseSigned_intText : ∀ i : ℤ, parseSigned (intText i) = some i
  | .ofNat n => parseSigned_natText n
  | .negSucc n => by
    rw [intText, parseSigned, parseDigits_natText]
    rfl

/-- An integer is read if it fits, and then as it was written. -/
theorem parseInt_intText {i j : ℤ} : parseInt (intText i) = some j ↔ j = i ∧ -2 ^ 63 ≤ i ∧ i < 2 ^ 63 := by
  unfold parseInt
  rw [parseSigned_intText, Option.filter_eq_some_iff, Option.some_inj, decide_eq_true_eq]
  constructor
  · rintro ⟨rfl, h⟩; exact ⟨rfl, h⟩
  · rintro ⟨rfl, h⟩; exact ⟨rfl, h⟩

/-! ## The digits of a name -/

/-- `re.search(r'\d+', s).group()`; without a digit there is no match. -/
def digitRun (s : Text) : Option Text :=
  match (s.dropWhile fun c => !c.isDigit).takeWhile Char.isDigit with
  | [] => none
  | c :: run => some (c :: run)

/-- A prefix without digits does not matter. -/
theorem digitRun_append {s : Text} (hs : ∀ c ∈ s, c.isDigit = false) (t : Text) : digitRun (s ++ t) = digitRun t := by
  unfold digitRun
  rw [List.dropWhile_append_of_pos fun c hc => by rw [hs c hc]; rfl]

theorem digitRun_digits {s : Text} (hne : s ≠ []) (hs : ∀ c ∈ s, c.isDigit = true) : digitRun s = some s := by
  cases s with
  | nil => exact absurd rfl hne
  | cons c s =>
    unfold digitRun
    rw [List.dropWhile_cons_of_neg (by simpa using hs c (List.mem_cons_self ..)), List.takeWhile_eq_self_iff.2 hs]

theorem digitRun_pad3 (n : ℕ) : digitRun (pad3 n) = some (pad3 n) := by
  refine digitRun_digits (fun h => natText_ne_nil n (List.append_eq_nil_iff.1 h).2) fun c hc => ?_
  rcases List.mem_append.1 hc with hc | hc
  · rw [List.eq_of_mem_replicate hc]; rfl
  · exact isDigit_natText hc

/-! ## Words -/

/-- `isspace` of Julia: ASCII white space, `U+0085` and the category Zs. -/
def isSpace (c : Char) : Bool :=
  c.toNat ∈ [0x20, 0x85, 0xA0, 0x1680, 0x202F, 0x205F, 0x3000] ||
    (9 ≤ c.toNat && c.toNat ≤ 13) || (0x2000 ≤ c.toNat && c.toNat ≤ 0x200A)

/-- `" ".join(words)`. -/
def join (words : List Text) : Text := [' '].intercalate words

/-- `split(s)`: the words between white space. -/
def split (s : Text) : List Text := (s.splitOnP isSpace).filter (· ≠ [])

/-- A word that survives: not empty and without white space. -/
structure IsWord (w : Text) : Prop where
  ne_nil : w ≠ []
  noSpace : ∀ c ∈ w, isSpace c = false

instance : DecidablePred IsWord := fun w =>
  decidable_of_iff (w ≠ [] ∧ w.all (fun c => !isSpace c) = true)
    ⟨fun h => ⟨h.1, fun c hc => by simpa using List.all_eq_true.1 h.2 c hc⟩,
      fun h => ⟨h.ne_nil, List.all_eq_true.2 fun c hc => by simp [h.noSpace c hc]⟩⟩

theorem split_word {w : Text} (h : IsWord w) : split w = [w] := by
  unfold split
  rw [List.splitOnP_eq_singleton h.noSpace]
  simp [h.ne_nil]

theorem split_append_space {c : Char} (hc : isSpace c = true) (s t : Text) : split (s ++ c :: t) = split s ++ split t := by
  unfold split
  rw [List.splitOnP_append_cons s t hc, List.filter_append]

/-- Joined words are split into the same words. -/
theorem split_join : ∀ {words : List Text}, (∀ w ∈ words, IsWord w) → split (join words) = words
  | [], _ => by decide
  | [w], h => by
    rw [join, List.intercalate_singleton]
    exact split_word (h w (List.mem_singleton_self w))
  | w :: v :: words, h => by
    have ih : split (join (v :: words)) = v :: words := split_join fun u hu => h u (List.mem_cons_of_mem _ hu)
    have hcons : join (w :: v :: words) = w ++ ' ' :: join (v :: words) := by
      unfold join
      rw [List.intercalate_cons_cons]
      simp
    rw [hcons, split_append_space (by decide), split_word (h w (List.mem_cons_self ..)), ih]
    rfl

theorem isSpace_of_isDigit {c : Char} (h : c.isDigit = true) : isSpace c = false := by
  have hd : 48 ≤ c.toNat ∧ c.toNat ≤ 57 := Char.isDigit_iff_toNat.1 h
  simp only [isSpace, List.mem_cons, List.not_mem_nil, or_false, Bool.or_eq_false_iff, Bool.and_eq_false_iff,
    decide_eq_false_iff_not]
  omega

theorem isWord_natText (n : ℕ) : IsWord (natText n) :=
  ⟨natText_ne_nil n, fun _ hc => isSpace_of_isDigit (isDigit_natText hc)⟩

theorem isWord_intText : ∀ i : ℤ, IsWord (intText i)
  | .ofNat n => isWord_natText n
  | .negSucc n => by
    refine ⟨List.cons_ne_nil _ _, fun c hc => ?_⟩
    rcases List.mem_cons.1 hc with rfl | hc
    · decide
    · exact isSpace_of_isDigit (isDigit_natText hc)

/-- `[parse(Int, ss) for ss in split(s)]`. -/
def readInts (s : Text) : Option (List ℤ) := (split s).mapM parseInt

/-- A column of integers is read if they fit, and then as it was written. -/
theorem readInts_join {l r : List ℤ} :
    readInts (join (l.map intText)) = some r ↔ r = l ∧ ∀ i ∈ l, -2 ^ 63 ≤ i ∧ i < 2 ^ 63 := by
  unfold readInts
  rw [split_join fun w hw => by obtain ⟨i, -, rfl⟩ := List.mem_map.1 hw; exact isWord_intText i]
  induction l generalizing r with
  | nil => simp [eq_comm]
  | cons i l ih =>
    rw [List.map_cons, List.mapM_cons, Option.bind_eq_bind, Option.bind_eq_some_iff, List.forall_mem_cons]
    simp only [parseInt_intText, Option.bind_eq_bind, Option.bind_eq_some_iff, ih, Option.pure_def, Option.some_inj]
    constructor
    · rintro ⟨j, ⟨rfl, hi⟩, js, ⟨rfl, hl⟩, rfl⟩
      exact ⟨rfl, hi, hl⟩
    · rintro ⟨rfl, hi, hl⟩
      exact ⟨i, ⟨rfl, hi⟩, l, ⟨rfl, hl⟩, rfl⟩

/-- A column of natural numbers is read if they fit, and then as it was written. -/
theorem readInts_join_natText {l : List ℕ} {r : List ℤ} :
    readInts (join (l.map natText)) = some r ↔ r = l.map Int.ofNat ∧ ∀ n ∈ l, n < 2 ^ 63 := by
  have hmap : l.map natText = (l.map Int.ofNat).map intText := by
    rw [List.map_map]
    rfl
  rw [hmap, readInts_join, List.forall_mem_map]
  refine and_congr_right fun _ => forall₂_congr fun n _ => ?_
  change -2 ^ 63 ≤ (n : ℤ) ∧ (n : ℤ) < 2 ^ 63 ↔ _
  omega

end Grip.Base
