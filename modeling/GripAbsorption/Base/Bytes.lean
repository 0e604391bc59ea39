/-
Bytes and how Python shows them. `repr` of a bytes object is ASCII: printable bytes stand for themselves,
the quote and the backslash are escaped, other bytes are written with their hexadecimal digits. So what
stands between the quotes is the text that the bytes encode exactly when nothing is escaped.
-/
import GripAbsorption.Base.Text

namespace Grip.Base

/-! ## `repr` -/

/-- The UTF-8 bytes of a text. -/
def utf8 (t : Text) : List UInt8 := t.flatMap String.utf8EncodeChar

/-- A hexadecimal digit. -/
def hexDigit (n : ℕ) : Char := Nat.digitChar (n % 16)

def charOf (b : UInt8) : Char := Char.ofNat b.toNat

/-- How one byte is shown between quotes. -/
def reprByte (quote b : UInt8) : Text :=
  if b = quote ∨ b = 92 then ['\\', charOf b]
  else if b = 9 then "\\t".toList
  else if b = 10 then "\\n".toList
  else if b = 13 then "\\r".toList
  else if b < 32 ∨ 127 ≤ b then ['\\', 'x', hexDigit (b.toNat / 16), hexDigit b.toNat]
  else [charOf b]

/-- The quote is `'`, unless the bytes have one and no `"`. -/
def reprQuote (bs : List UInt8) : UInt8 := if 39 ∈ bs ∧ 34 ∉ bs then 34 else 39

/-- `repr(bs)`, which is `str(bs)`. -/
def reprBytes (bs : List UInt8) : Text :=
  let quote := reprQuote bs
  'b' :: charOf quote :: (bs.flatMap (reprByte quote) ++ [charOf quote])

/-- `s[2:-1]`. -/
def inner (s : Text) : Text := (s.drop 2).dropLast

@[simp] theorem inner_reprBytes (bs : List UInt8) : inner (reprBytes bs) = bs.flatMap (reprByte (reprQuote bs)) :=
  List.dropLast_concat

/-! ## Lengths -/

section

variable {α β : Type} {f : α → List β}

theorem length_le_flatMap : ∀ {l : List α}, (∀ a ∈ l, 1 ≤ (f a).length) → l.length ≤ (l.flatMap f).length
  | [], _ => le_rfl
  | a :: l, h => by
    rw [List.forall_mem_cons] at h
    have hl := length_le_flatMap h.2
    rw [List.flatMap_cons, List.length_append, List.length_cons]
    omega

/-- A list keeps its length only when every element does. -/
theorem length_eq_one_of_flatMap : ∀ {l : List α}, (∀ a ∈ l, 1 ≤ (f a).length) → (l.flatMap f).length = l.length →
    ∀ a ∈ l, (f a).length = 1
  | [], _, _ => by simp
  | a :: l, h, heq => by
    rw [List.forall_mem_cons] at h ⊢
    have hl := length_le_flatMap h.2
    rw [List.flatMap_cons, List.length_append, List.length_cons] at heq
    exact ⟨by omega, length_eq_one_of_flatMap h.2 (by omega)⟩

end

/-! ## Bytes shown as themselves -/

/-- The byte is shown as itself. -/
structure IsShown (quote b : UInt8) : Prop where
  ne_quote : b ≠ quote
  ne_backslash : b ≠ 92
  printable : ¬ (b < 32 ∨ 127 ≤ b)

theorem reprByte_of_isShown {quote b : UInt8} (h : IsShown quote b) : reprByte quote b = [charOf b] := by
  have hspace : ∀ n : UInt8, n < 32 → b ≠ n := fun n hn he => h.printable (.inl (he ▸ hn))
  unfold reprByte
  rw [if_neg (by rintro (rfl | rfl) <;> [exact h.ne_quote rfl; exact h.ne_backslash rfl]), if_neg (hspace 9 (by decide)),
    if_neg (hspace 10 (by decide)), if_neg (hspace 13 (by decide)), if_neg h.printable]

/-- Other bytes take more characters. -/
theorem two_le_length_reprByte {quote b : UInt8} (h : ¬ IsShown quote b) : 2 ≤ (reprByte quote b).length := by
  unfold reprByte
  split_ifs with hquote htab hnl hcr hhex
  · simp
  · simp
  · simp
  · simp
  · simp
  · rw [not_or] at hquote
    exact absurd ⟨hquote.1, hquote.2, hhex⟩ h

theorem one_le_length_reprByte (quote b : UInt8) : 1 ≤ (reprByte quote b).length := by
  by_cases h : IsShown quote b
  · rw [reprByte_of_isShown h, List.length_singleton]
  · exact le_of_lt (two_le_length_reprByte h)

/-! ## Characters shown as themselves -/

/-- A printable ASCII character other than the backslash. -/
def IsPlain (c : Char) : Prop := (32 ≤ c.toNat ∧ c.toNat ≤ 126) ∧ c ≠ '\\'

instance : DecidablePred IsPlain := fun _ => inferInstanceAs (Decidable (_ ∧ _))

/-- The byte of an ASCII character. -/
def byteOf (c : Char) : UInt8 := UInt8.ofNat c.toNat

theorem charOf_byteOf {c : Char} (h : c.toNat ≤ 127) : charOf (byteOf c) = c := by
  unfold charOf byteOf
  rw [UInt8.toNat_ofNat_of_lt' (h.trans_lt (by decide)), Char.ofNat_toNat]

theorem utf8EncodeChar_ascii {c : Char} (h : c.utf8Size = 1) : String.utf8EncodeChar c = [byteOf c] := by
  rw [String.utf8EncodeChar_eq_singleton h]
  rfl

theorem utf8Size_eq_one_iff {c : Char} : c.utf8Size = 1 ↔ c.toNat ≤ 127 := by
  rw [Char.utf8Size_eq_one_iff, UInt32.le_iff_toNat_le]
  rfl

theorem byteOf_eq_iff {c d : Char} (hc : c.toNat ≤ 127) (hd : d.toNat ≤ 127) : byteOf c = byteOf d ↔ c = d :=
  ⟨fun h => by rw [← charOf_byteOf hc, h, charOf_byteOf hd], congrArg byteOf⟩

theorem isShown_byteOf_iff {quote : UInt8} {c : Char} (h : c.toNat ≤ 127) :
    IsShown quote (byteOf c) ↔ IsPlain c ∧ byteOf c ≠ quote := by
  have hbyte : (byteOf c).toNat = c.toNat := UInt8.toNat_ofNat_of_lt' (h.trans_lt (by decide))
  have hprint : ¬ (byteOf c < 32 ∨ 127 ≤ byteOf c) ↔ 32 ≤ c.toNat ∧ c.toNat ≤ 126 := by
    rw [UInt8.lt_iff_toNat_lt, UInt8.le_iff_toNat_le, hbyte]
    change ¬ (c.toNat < 32 ∨ 127 ≤ c.toNat) ↔ _
    omega
  have hback : byteOf c = 92 ↔ c = '\\' := @byteOf_eq_iff c '\\' h (by decide)
  constructor
  · intro hs
    exact ⟨⟨hprint.1 hs.printable, fun he => hs.ne_backslash (hback.2 he)⟩, hs.ne_quote⟩
  · rintro ⟨⟨hrange, hne⟩, hquote⟩
    exact ⟨hquote, fun he => hne (hback.1 he), hprint.2 hrange⟩

/-- How the bytes of a character are shown. -/
def reprChar (quote : UInt8) (c : Char) : Text := (String.utf8EncodeChar c).flatMap (reprByte quote)

theorem flatMap_reprByte_utf8 (quote : UInt8) (t : Text) : (utf8 t).flatMap (reprByte quote) = t.flatMap (reprChar quote) :=
  List.flatMap_assoc

theorem reprChar_ascii {c : Char} (h : c.toNat ≤ 127) (quote : UInt8) : reprChar quote c = reprByte quote (byteOf c) := by
  unfold reprChar
  rw [utf8EncodeChar_ascii (utf8Size_eq_one_iff.2 h), List.flatMap_singleton]

theorem utf8Size_le_length_reprChar (quote : UInt8) (c : Char) : c.utf8Size ≤ (reprChar quote c).length := by
  have hle := @length_le_flatMap _ _ (reprByte quote) (String.utf8EncodeChar c) fun b _ => one_le_length_reprByte quote b
  rwa [String.length_utf8EncodeChar] at hle

/-- A character that is shown by one character is plain and not the quote. -/
theorem isPlain_of_length_reprChar {quote : UInt8} {c : Char} (h : (reprChar quote c).length = 1) :
    IsPlain c ∧ byteOf c ≠ quote := by
  have hsize := utf8Size_le_length_reprChar quote c
  have hpos := c.utf8Size_pos
  have hascii : c.toNat ≤ 127 := utf8Size_eq_one_iff.1 (by omega)
  rw [reprChar_ascii hascii] at h
  by_contra hno
  have htwo := two_le_length_reprByte fun hs => hno ((isShown_byteOf_iff hascii).1 hs)
  omega

theorem reprChar_of_isPlain {quote : UInt8} {c : Char} (h : IsPlain c) (hq : byteOf c ≠ quote) : reprChar quote c = [c] := by
  have hascii : c.toNat ≤ 127 := by have := h.1.2; omega
  rw [reprChar_ascii hascii, reprByte_of_isShown ((isShown_byteOf_iff hascii).2 ⟨h, hq⟩), charOf_byteOf hascii]

/-- A text is shown as itself exactly when its characters are plain and none is the quote. -/
theorem flatMap_reprChar_eq_iff {quote : UInt8} {t : Text} :
    t.flatMap (reprChar quote) = t ↔ ∀ c ∈ t, IsPlain c ∧ byteOf c ≠ quote := by
  constructor
  · intro h c hc
    have hone : ∀ c ∈ t, 1 ≤ (reprChar quote c).length := fun c _ =>
      Nat.le_trans c.utf8Size_pos (utf8Size_le_length_reprChar quote c)
    exact isPlain_of_length_reprChar (length_eq_one_of_flatMap hone (congrArg List.length h) c hc)
  · intro h
    have hchar : ∀ c ∈ t, reprChar quote c = [c] := fun c hc => reprChar_of_isPlain (h c hc).1 (h c hc).2
    rw [List.flatMap_congr hchar]
    exact List.flatMap_singleton' t

/-! ## Quotes -/

theorem mem_utf8_iff {t : Text} (h : ∀ c ∈ t, c.toNat ≤ 127) {d : Char} (hd : d.toNat ≤ 127) :
    byteOf d ∈ utf8 t ↔ d ∈ t := by
  unfold utf8
  rw [List.mem_flatMap]
  constructor
  · rintro ⟨c, hc, hb⟩
    rw [utf8EncodeChar_ascii (utf8Size_eq_one_iff.2 (h c hc)), List.mem_singleton, byteOf_eq_iff hd (h c hc)] at hb
    exact hb ▸ hc
  · intro hmem
    exact ⟨d, hmem, by rw [utf8EncodeChar_ascii (utf8Size_eq_one_iff.2 hd)]; exact List.mem_singleton_self _⟩

/-- What stands between the quotes is the text exactly when its characters are plain and not both quotes occur. -/
theorem inner_reprBytes_utf8 (t : Text) :
    inner (reprBytes (utf8 t)) = t ↔ (∀ c ∈ t, IsPlain c) ∧ ¬ ('\'' ∈ t ∧ '"' ∈ t) := by
  rw [inner_reprBytes, flatMap_reprByte_utf8, flatMap_reprChar_eq_iff, forall₂_and]
  refine and_congr_right fun hplain => ?_
  have hascii : ∀ c ∈ t, c.toNat ≤ 127 := fun c hc => by have := (hplain c hc).1.2; omega
  have hsingle : (39 : UInt8) ∈ utf8 t ↔ '\'' ∈ t := @mem_utf8_iff t hascii '\'' (by decide)
  have hdouble : (34 : UInt8) ∈ utf8 t ↔ '"' ∈ t := @mem_utf8_iff t hascii '"' (by decide)
  have hquote : ∀ d : Char, d.toNat ≤ 127 → ((∀ c ∈ t, byteOf c ≠ byteOf d) ↔ d ∉ t) := by
    intro d hd
    refine ⟨fun h hmem => h d hmem rfl, fun h c hc he => h ?_⟩
    rwa [← (byteOf_eq_iff (hascii c hc) hd).1 he]
  unfold reprQuote
  split_ifs with hq
  · rw [hsingle, hdouble] at hq
    exact (hquote '"' (by decide)).trans (iff_of_true hq.2 fun hboth => hq.2 hboth.2)
  · rw [hsingle, hdouble, not_and_not_right] at hq
    exact (hquote '\'' (by decide)).trans ⟨fun hno hboth => hno hboth.1, fun hno hmem => hno ⟨hmem, hq hmem⟩⟩

end Grip.Base
