/-
Keys numbered from 1 in the order of a list, as a dictionary, and the dictionary that takes the numbers
back. For a list without duplicates the numbering is a bijection of its elements with 1 to its length.
-/
import GripAbsorption.Base.Table
import GripAbsorption.Base.Python

namespace Grip.Base

universe u v

variable {κ : Type u} {ν : Type v} [DecidableEq κ] [DecidableEq ν]

/-- `{k: i for i, k in zip(range(1, n + 1), l)}`. -/
def numbering (l : List κ) : Dict κ ℕ := Table.ofList Prod.fst (l.zip (List.range' 1 l.length))

/-- `{d[k]: k for k in d}`. -/
def inverse (d : Dict κ ν) : Dict ν κ := Table.ofList Prod.fst (d.rows.map Prod.swap)

/-- The dictionary is a bijection of `S` with 1 to `n`. -/
structure Numbers (d : Dict κ ℕ) (S : Set κ) (n : ℕ) : Prop where
  mem : ∀ k, k ∈ S ↔ ∃ i, d.get? k = some i
  range : ∀ i, i ∈ Set.Icc 1 n ↔ ∃ k, d.get? k = some i
  inj : ∀ k k' i, d.get? k = some i → d.get? k' = some i → k = k'

theorem get?_numbering {l : List κ} (h : l.Nodup) {k : κ} {i : ℕ} :
    (numbering l).get? k = some i ↔ ∃ j, l[j]? = some k ∧ i = j + 1 := by
  have hlen : l.length ≤ (List.range' 1 l.length).length := by rw [List.length_range']
  have hkeys : ((l.zip (List.range' 1 l.length)).map Prod.fst).Nodup := by
    rw [List.map_fst_zip hlen]
    exact h
  unfold numbering
  rw [Dict.get?_eq_some, Table.rows_ofList hkeys, List.mem_iff_getElem?]
  refine exists_congr fun j => ?_
  rw [List.getElem?_zip_eq_some]
  refine and_congr_right fun hj => ?_
  have hlt : j < l.length := (List.getElem?_eq_some_iff.1 hj).1
  rw [List.getElem?_range' hlt, Option.some.injEq]
  omega

/-- The numbers are from 1 to the length, also with duplicates. -/
theorem mem_Icc_of_numbering {l : List κ} {k : κ} {i : ℕ} (h : (numbering l).get? k = some i) : i ∈ Set.Icc 1 l.length := by
  have hmem := (List.of_mem_zip (Table.mem_of_mem_ofList (Dict.get?_eq_some.1 h))).2
  rw [List.mem_range'_1] at hmem
  exact ⟨hmem.1, by omega⟩

/-- A list without duplicates is numbered by a bijection. -/
theorem numbers_numbering {l : List κ} (h : l.Nodup) : Numbers (numbering l) {k | k ∈ l} l.length where
  mem k := by
    change k ∈ l ↔ _
    rw [List.mem_iff_getElem?]
    constructor
    · rintro ⟨j, hj⟩; exact ⟨j + 1, (get?_numbering h).2 ⟨j, hj, rfl⟩⟩
    · rintro ⟨i, hi⟩
      obtain ⟨j, hj, -⟩ := (get?_numbering h).1 hi
      exact ⟨j, hj⟩
  range i := by
    rw [Set.mem_Icc]
    constructor
    · rintro ⟨hpos, hle⟩
      have hlt : i - 1 < l.length := by omega
      exact ⟨_, (get?_numbering h).2 ⟨i - 1, List.getElem?_eq_getElem hlt, by omega⟩⟩
    · rintro ⟨k, hk⟩
      obtain ⟨j, hj, rfl⟩ := (get?_numbering h).1 hk
      have hlt : j < l.length := (List.getElem?_eq_some_iff.1 hj).1
      omega
  inj k k' i hk hk' := by
    obtain ⟨j, hj, rfl⟩ := (get?_numbering h).1 hk
    obtain ⟨j', hj', he⟩ := (get?_numbering h).1 hk'
    obtain rfl : j = j' := by omega
    exact Option.some_inj.1 (hj.symm.trans hj')

section

variable {d : Dict κ ℕ} {S : Set κ} {n : ℕ}

theorem Numbers.bijOn (h : Numbers d S n) : Set.BijOn (fun k => (d.get? k).getD 0) S (Set.Icc 1 n) := by
  refine ⟨fun k hk => ?_, fun k hk k' hk' he => ?_, fun i hi => ?_⟩
  · obtain ⟨i, hi⟩ := (h.mem k).1 hk
    change (d.get? k).getD 0 ∈ Set.Icc 1 n
    rw [hi]
    exact (h.range i).2 ⟨k, hi⟩
  · obtain ⟨i, hi⟩ := (h.mem k).1 hk
    obtain ⟨i', hi'⟩ := (h.mem k').1 hk'
    simp only [hi, hi', Option.getD_some] at he
    exact h.inj k k' i hi (he ▸ hi')
  · obtain ⟨k, hk⟩ := (h.range i).1 hi
    exact ⟨k, (h.mem k).2 ⟨i, hk⟩, by simp [hk]⟩

/-- Numbers are taken back to what they number. -/
theorem Numbers.get?_inverse (h : Numbers d S n) {k : κ} {i : ℕ} : (inverse d).get? i = some k ↔ d.get? k = some i := by
  have hvalues : ((d.rows.map Prod.swap).map Prod.fst).Nodup := by
    rw [List.map_map]
    refine List.Nodup.map_on (fun a ha b hb he => ?_) (List.Nodup.of_map _ d.nodup)
    obtain ⟨k, i⟩ := a
    obtain ⟨k', i'⟩ := b
    change i = i' at he
    subst he
    rw [h.inj k k' i (Dict.get?_eq_some.2 ha) (Dict.get?_eq_some.2 hb)]
  unfold inverse
  rw [Dict.get?_eq_some, Table.rows_ofList hvalues, Dict.get?_eq_some, List.mem_map]
  constructor
  · rintro ⟨⟨k', i'⟩, hm, he⟩
    cases he
    exact hm
  · intro hm; exact ⟨(k, i), hm, rfl⟩

end

/-- A list of all the numbers from 1 to `n` has `n` different elements. -/
theorem length_eraseDups_of_mem_iff {l : List ℕ} {n : ℕ} (h : ∀ i, i ∈ l ↔ i ∈ Set.Icc 1 n) : l.eraseDups.length = n := by
  have hperm : l.eraseDups.Perm (List.range' 1 n) :=
    (List.perm_ext_iff_of_nodup (nodup_eraseDups l) List.nodup_range').2 fun i => by
      rw [List.mem_eraseDups, h, Set.mem_Icc, List.mem_range'_1]
      omega
  rw [hperm.length_eq, List.length_range']

end Grip.Base
