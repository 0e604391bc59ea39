/-
Regular expressions as a backtracking matcher tries them: the matches at the start of a text in order of
preference, and `re.split` with groups. The expressions have classes of characters, greedy repetition of a
class, options, sequences and alternatives, and their groups stand side by side.
-/
import GripAbsorption.Base.Text

namespace Grip.Base

/-! ## Matching -/

inductive Pattern
  /-- one character of a class -/
  | one (p : Char → Bool)
  /-- any number of them, as many as possible first -/
  | many (p : Char → Bool)
  | opt (r : Pattern)
  | seq (r q : Pattern)
  | alt (r q : Pattern)

namespace Pattern

/-- At least one character of a class. -/
def many1 (p : Char → Bool) : Pattern := seq (one p) (many p)

/-- The prefixes of characters of a class, the longest first, with what is left. -/
def prefixes (p : Char → Bool) : Text → List (Text × Text)
  | [] => [([], [])]
  | c :: t => (if p c then (prefixes p t).map fun m => (c :: m.1, m.2) else []) ++ [([], c :: t)]

/-- The matches at the start of a text, with what is left, in the order they are tried. -/
def matchesAt : Pattern → Text → List (Text × Text)
  | one _, [] => []
  | one p, c :: t => if p c then [([c], t)] else []
  | many p, s => prefixes p s
  | opt r, s => r.matchesAt s ++ [([], s)]
  | seq r q, s => (r.matchesAt s).flatMap fun m => (q.matchesAt m.2).map fun n => (m.1 ++ n.1, n.2)
  | alt r q, s => r.matchesAt s ++ q.matchesAt s

theorem prefixes_sound {p : Char → Bool} : ∀ {s : Text} {m : Text × Text}, m ∈ prefixes p s → m.1 ++ m.2 = s
  | [], m, h => by
    rw [List.mem_singleton.1 h]
    rfl
  | c :: t, m, h => by
    rcases List.mem_append.1 h with h | h
    · split at h
      · obtain ⟨n, hn, rfl⟩ := List.mem_map.1 h
        rw [List.cons_append, prefixes_sound hn]
      · cases h
    · rw [List.mem_singleton.1 h]
      rfl

/-- What is matched and what is left make up the text. -/
theorem matchesAt_sound : ∀ {r : Pattern} {s : Text} {m : Text × Text}, m ∈ r.matchesAt s → m.1 ++ m.2 = s
  | one p, [], m, h => by cases h
  | one p, c :: t, m, h => by
    rw [matchesAt] at h
    split at h
    · rw [List.mem_singleton.1 h]
      rfl
    · cases h
  | many p, s, m, h => prefixes_sound h
  | opt r, s, m, h => by
    rcases List.mem_append.1 h with h | h
    · exact matchesAt_sound h
    · rw [List.mem_singleton.1 h]
      rfl
  | seq r q, s, m, h => by
    obtain ⟨a, ha, h⟩ := List.mem_flatMap.1 h
    obtain ⟨b, hb, rfl⟩ := List.mem_map.1 h
    rw [List.append_assoc, matchesAt_sound hb, matchesAt_sound ha]
  | alt r q, s, m, h => by
    rcases List.mem_append.1 h with h | h
    · exact matchesAt_sound h
    · exact matchesAt_sound h

end Pattern

/-! ## Groups -/

/-- The matches of consecutive groups: what each group matched, and what is left. -/
def matchGroups : List Pattern → Text → List (List Text × Text)
  | [], s => [([], s)]
  | r :: rs, s => (r.matchesAt s).flatMap fun m => (matchGroups rs m.2).map fun n => (m.1 :: n.1, n.2)

theorem matchGroups_sound : ∀ {rs : List Pattern} {s : Text} {m : List Text × Text}, m ∈ matchGroups rs s →
    m.1.flatten ++ m.2 = s
  | [], s, m, h => by
    rw [List.mem_singleton.1 h]
    rfl
  | r :: rs, s, m, h => by
    obtain ⟨a, ha, h⟩ := List.mem_flatMap.1 h
    obtain ⟨b, hb, rfl⟩ := List.mem_map.1 h
    rw [List.flatten_cons, List.append_assoc, matchGroups_sound hb, Pattern.matchesAt_sound ha]

/-! ## Splitting -/

/-- The pieces of a text, `skip` characters of which were matched, behind the text `before` that was not. -/
def splitFrom (rs : List Pattern) : (skip : ℕ) → (before : Text) → Text → List Text
  | _, before, [] => [before]
  | skip + 1, before, _ :: t => splitFrom rs skip before t
  | 0, before, c :: t =>
    match (matchGroups rs (c :: t)).head? with
    | some m => before :: m.1 ++ splitFrom rs (m.1.flatten.length - 1) [] t
    | none => splitFrom rs 0 (before ++ [c]) t

/-- `re.split`, for groups that together match no empty text: the texts between the leftmost matches, with what the
groups matched in between. -/
def reSplit (rs : List Pattern) (s : Text) : List Text := splitFrom rs 0 [] s

/-- Every character of a piece is one of the text. -/
theorem mem_splitFrom {rs : List Pattern} : ∀ {skip : ℕ} {before s piece : Text} {c : Char},
    piece ∈ splitFrom rs skip before s → c ∈ piece → c ∈ before ∨ c ∈ s
  | _, before, [], piece, c, h, hc => by
    rw [splitFrom, List.mem_singleton] at h
    subst h
    exact .inl hc
  | skip + 1, before, d :: t, piece, c, h, hc => by
    rw [splitFrom] at h
    exact (mem_splitFrom h hc).imp_right (List.mem_cons_of_mem d)
  | 0, before, d :: t, piece, c, h, hc => by
    rw [splitFrom] at h
    split at h
    · rename_i m hm
      have hsound := matchGroups_sound (List.mem_of_mem_head? hm)
      rcases List.mem_append.1 h with h | h
      · rcases List.mem_cons.1 h with rfl | h
        · exact .inl hc
        · refine .inr ?_
          rw [← hsound]
          exact List.mem_append_left _ (List.mem_flatten.2 ⟨piece, h, hc⟩)
      · rcases mem_splitFrom h hc with hmem | hmem
        · cases hmem
        · exact .inr (List.mem_cons_of_mem d hmem)
    · rcases mem_splitFrom h hc with hmem | hmem
      · rcases List.mem_append.1 hmem with hmem | hmem
        · exact .inl hmem
        · rw [List.mem_singleton.1 hmem]
          exact .inr (List.mem_cons_self ..)
      · exact .inr (List.mem_cons_of_mem d hmem)

theorem mem_reSplit {rs : List Pattern} {s piece : Text} (h : piece ∈ reSplit rs s) {c : Char} (hc : c ∈ piece) : c ∈ s :=
  (mem_splitFrom h hc).resolve_left (by simp)

end Grip.Base
