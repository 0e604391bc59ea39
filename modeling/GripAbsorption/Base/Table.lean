/-
Insertion-ordered tables: a finite list of rows, at most one for each key, in the order in which
the keys were first written. Writing a key that is present replaces its row in place, writing a
new key appends; `pop` deletes. `Dict` is the table of key–value pairs keyed by the first
component. The laws say what a lookup finds after each operation and which rows remain.
-/
import Mathlib

namespace Grip.Base

universe u v w

/-- A table of rows with distinct keys. -/
structure Table {α : Type u} {κ : Type v} (key : α → κ) where
  rows : List α
  nodup : (rows.map key).Nodup

namespace Table

variable {α : Type u} {κ : Type v} {key : α → κ}

@[ext] theorem ext {s t : Table key} (h : s.rows = t.rows) : s = t := by
  cases s; cases t; cases h; rfl

/-- The table with no rows. -/
def empty (key : α → κ) : Table key := ⟨[], List.nodup_nil⟩

/-- The keys, in table order. -/
def keys (t : Table key) : List κ := t.rows.map key

theorem mem_keys {t : Table key} {k : κ} : k ∈ t.keys ↔ ∃ a ∈ t.rows, key a = k := List.mem_map

theorem key_inj (t : Table key) {a b : α} (ha : a ∈ t.rows) (hb : b ∈ t.rows) (h : key a = key b) : a = b :=
  List.inj_on_of_nodup_map t.nodup ha hb h

@[simp] theorem rows_empty : (empty key).rows = [] := rfl

/-! ## Rewriting rows -/

/-- The rows under a map that keeps every key. -/
def mapRows (t : Table key) (f : α → α) (hf : ∀ a, key (f a) = key a) : Table key :=
  ⟨t.rows.map f, by
    rw [List.map_map, show key ∘ f = key from funext hf]; exact t.nodup⟩

@[simp] theorem rows_mapRows (t : Table key) (f : α → α) (hf : ∀ a, key (f a) = key a) :
    (t.mapRows f hf).rows = t.rows.map f := rfl

@[simp] theorem keys_mapRows (t : Table key) (f : α → α) (hf : ∀ a, key (f a) = key a) :
    (t.mapRows f hf).keys = t.keys := by
  unfold keys; rw [rows_mapRows, List.map_map, show key ∘ f = key from funext hf]

variable [DecidableEq κ]

/-! ## Lookup -/

/-- The row with key `k`. -/
def find? (t : Table key) (k : κ) : Option α := t.rows.find? fun a => key a = k

theorem find?_eq_some {t : Table key} {k : κ} {a : α} : t.find? k = some a ↔ a ∈ t.rows ∧ key a = k := by
  constructor
  · intro h
    exact ⟨List.mem_of_find?_eq_some h, by simpa using List.find?_some h⟩
  · rintro ⟨ha, rfl⟩
    unfold find?
    rcases hf : t.rows.find? (fun b => key b = key a) with _ | b
    · rw [List.find?_eq_none] at hf
      exact absurd (decide_eq_true rfl) (hf a ha)
    · have hb : key b = key a := by simpa using List.find?_some hf
      rw [t.key_inj (List.mem_of_find?_eq_some hf) ha hb]

theorem find?_eq_none {t : Table key} {k : κ} : t.find? k = none ↔ k ∉ t.keys := by
  unfold find? keys
  rw [List.find?_eq_none, List.mem_map]
  simp

theorem mem_keys_iff_find? {t : Table key} {k : κ} : k ∈ t.keys ↔ ∃ a, t.find? k = some a := by
  rw [mem_keys]
  constructor
  · rintro ⟨a, ha, hk⟩; exact ⟨a, find?_eq_some.2 ⟨ha, hk⟩⟩
  · rintro ⟨a, h⟩; exact ⟨a, find?_eq_some.1 h⟩

/-! ## Writing a row -/

/-- Replace the row with the key of `a`, or append `a`. -/
def setRow (key : α → κ) (a : α) : List α → List α
  | [] => [a]
  | b :: l => if key b = key a then a :: l else b :: setRow key a l

theorem setRow_of_notMem (a : α) : ∀ l : List α, key a ∉ l.map key → setRow key a l = l ++ [a]
  | [], _ => rfl
  | b :: l, h => by
    simp only [List.map_cons, List.mem_cons, not_or] at h
    rw [setRow, if_neg (Ne.symm h.1), setRow_of_notMem a l h.2]
    rfl

theorem map_setRow_of_mem (a : α) : ∀ l : List α, key a ∈ l.map key → (setRow key a l).map key = l.map key
  | [], h => by cases h
  | b :: l, h => by
    by_cases hb : key b = key a
    · rw [setRow, if_pos hb]; simp [hb]
    · rw [setRow, if_neg hb, List.map_cons, List.map_cons, map_setRow_of_mem a l ?_]
      rcases List.mem_cons.1 h with h | h
      · exact absurd h.symm hb
      · exact h

theorem setRow_eq_map (a : α) : ∀ l : List α, (l.map key).Nodup → key a ∈ l.map key →
    setRow key a l = l.map fun b => if key b = key a then a else b
  | [], _, h => by cases h
  | b :: l, hn, h => by
    rw [List.map_cons, List.nodup_cons] at hn
    by_cases hb : key b = key a
    · have hid : l.map (fun c => if key c = key a then a else c) = l := by
        refine (List.map_congr_left fun c hc => if_neg fun e => hn.1 ?_).trans (List.map_id l)
        rw [hb, ← e]; exact List.mem_map_of_mem hc
      rw [setRow, if_pos hb, List.map_cons, if_pos hb, hid]
    · rw [setRow, if_neg hb, List.map_cons, if_neg hb, setRow_eq_map a l hn.2]
      exact (List.mem_cons.1 h).resolve_left (Ne.symm hb)

theorem nodup_setRow (a : α) (l : List α) (h : (l.map key).Nodup) : ((setRow key a l).map key).Nodup := by
  by_cases ha : key a ∈ l.map key
  · rw [map_setRow_of_mem a l ha]; exact h
  · rw [setRow_of_notMem a l ha, List.map_append, List.nodup_append]
    refine ⟨h, by simp, ?_⟩
    rintro x hx y hy rfl
    simp only [List.map_cons, List.map_nil, List.mem_singleton] at hy
    exact ha (hy ▸ hx)

theorem mem_setRow {a b : α} : ∀ {l : List α}, (l.map key).Nodup →
    (b ∈ setRow key a l ↔ b = a ∨ (b ∈ l ∧ key b ≠ key a))
  | [], _ => by simp [setRow]
  | c :: l, h => by
    rw [List.map_cons, List.nodup_cons] at h
    by_cases hc : key c = key a
    · rw [setRow, if_pos hc, List.mem_cons]
      constructor
      · rintro (rfl | hb)
        · exact .inl rfl
        · exact .inr ⟨List.mem_cons_of_mem _ hb, fun e => h.1 (hc.trans e.symm ▸ List.mem_map_of_mem hb)⟩
      · rintro (rfl | ⟨hb, hne⟩)
        · exact .inl rfl
        · rcases List.mem_cons.1 hb with rfl | hb
          · exact absurd hc hne
          · exact .inr hb
    · rw [setRow, if_neg hc, List.mem_cons, mem_setRow h.2, List.mem_cons]
      constructor
      · rintro (rfl | rfl | ⟨hb, hne⟩)
        exacts [.inr ⟨.inl rfl, hc⟩, .inl rfl, .inr ⟨.inr hb, hne⟩]
      · rintro (rfl | ⟨rfl | hb, hne⟩)
        exacts [.inr (.inl rfl), .inl rfl, .inr (.inr ⟨hb, hne⟩)]

/-- Write the row `a` under its key. -/
def set (t : Table key) (a : α) : Table key := ⟨setRow key a t.rows, nodup_setRow a t.rows t.nodup⟩

theorem mem_set {t : Table key} {a b : α} : b ∈ (t.set a).rows ↔ b = a ∨ (b ∈ t.rows ∧ key b ≠ key a) :=
  mem_setRow t.nodup

theorem rows_set_of_notMem {t : Table key} {a : α} (h : key a ∉ t.keys) : (t.set a).rows = t.rows ++ [a] :=
  setRow_of_notMem a t.rows h

/-- Writing under a present key rewrites that row alone. -/
theorem rows_set_of_mem {t : Table key} {a : α} (h : key a ∈ t.keys) :
    (t.set a).rows = t.rows.map fun b => if key b = key a then a else b :=
  setRow_eq_map a t.rows t.nodup h

theorem keys_set_of_mem {t : Table key} {a : α} (h : key a ∈ t.keys) : (t.set a).keys = t.keys :=
  map_setRow_of_mem a t.rows h

theorem mem_keys_set {t : Table key} {a : α} {k : κ} : k ∈ (t.set a).keys ↔ k = key a ∨ k ∈ t.keys := by
  simp only [mem_keys, mem_set]
  constructor
  · rintro ⟨b, rfl | ⟨hb, -⟩, rfl⟩
    exacts [.inl rfl, .inr ⟨b, hb, rfl⟩]
  · rintro (rfl | ⟨b, hb, rfl⟩)
    · exact ⟨a, .inl rfl, rfl⟩
    · by_cases hk : key b = key a
      · exact ⟨a, .inl rfl, hk.symm⟩
      · exact ⟨b, .inr ⟨hb, hk⟩, rfl⟩

/-- Writing a row under a present key exchanges its summand for the row's. -/
theorem sum_set {M : Type w} [AddCommMonoid M] (f : α → M) {t : Table key} {a b : α} (hb : b ∈ t.rows) (hk : key b = key a) :
    ((t.set a).rows.map f).sum + f b = (t.rows.map f).sum + f a := by
  suffices h : ∀ l : List α, (l.map key).Nodup → b ∈ l → ((setRow key a l).map f).sum + f b = (l.map f).sum + f a from
    h t.rows t.nodup hb
  intro l hn hb
  induction l with
  | nil => cases hb
  | cons c l ih =>
    rw [List.map_cons, List.nodup_cons] at hn
    by_cases hc : key c = key a
    · -- no other row has the key
      obtain rfl : c = b := by
        rcases List.mem_cons.1 hb with h | h
        · exact h.symm
        · exact absurd (hc.trans hk.symm ▸ List.mem_map_of_mem h) hn.1
      rw [setRow, if_pos hc, List.map_cons, List.map_cons, List.sum_cons, List.sum_cons]
      rw [add_comm (f a), add_comm (f c), add_right_comm]
    · have hb := (List.mem_cons.1 hb).resolve_left fun e => hc (e ▸ hk)
      rw [setRow, if_neg hc, List.map_cons, List.map_cons, List.sum_cons, List.sum_cons, add_assoc, ih hn.2 hb, add_assoc]

theorem find?_set (t : Table key) (a : α) (k : κ) :
    (t.set a).find? k = if key a = k then some a else t.find? k := by
  split
  · rename_i h; exact find?_eq_some.2 ⟨mem_set.2 (.inl rfl), h⟩
  · rename_i h
    rcases hf : t.find? k with _ | b
    · rw [find?_eq_none, mem_keys_set, not_or]
      exact ⟨fun e => h e.symm, find?_eq_none.1 hf⟩
    · obtain ⟨hb, rfl⟩ := find?_eq_some.1 hf
      exact find?_eq_some.2 ⟨mem_set.2 (.inr ⟨hb, fun e => h e.symm⟩), rfl⟩

/-- Write the row `a` if its key is present. -/
def replace (t : Table key) (a : α) : Table key :=
  match t.find? (key a) with
  | none => t
  | some _ => t.set a

theorem replace_of_mem {t : Table key} {a : α} (h : key a ∈ t.keys) : t.replace a = t.set a := by
  obtain ⟨b, hb⟩ := mem_keys_iff_find?.1 h
  unfold replace; rw [hb]

theorem replace_of_notMem {t : Table key} {a : α} (h : key a ∉ t.keys) : t.replace a = t := by
  unfold replace; rw [find?_eq_none.2 h]

@[simp] theorem keys_replace (t : Table key) (a : α) : (t.replace a).keys = t.keys := by
  by_cases h : key a ∈ t.keys
  · rw [replace_of_mem h, keys_set_of_mem h]
  · rw [replace_of_notMem h]

@[simp] theorem keys_foldl_replace : ∀ (l : List α) (t : Table key), (l.foldl replace t).keys = t.keys
  | [], _ => rfl
  | a :: l, t => by rw [List.foldl_cons, keys_foldl_replace l, keys_replace]

/-- A row after replacements is an old row or one of the replacements. -/
theorem mem_foldl_replace {b : α} : ∀ (l : List α) (t : Table key), b ∈ (l.foldl replace t).rows → b ∈ t.rows ∨ b ∈ l
  | [], _, h => .inl h
  | a :: l, t, h => by
    rcases mem_foldl_replace l _ h with h | h
    · by_cases ha : key a ∈ t.keys
      · rw [replace_of_mem ha] at h
        rcases mem_set.1 h with rfl | ⟨h, -⟩
        exacts [.inr (List.mem_cons_self ..), .inl h]
      · rw [replace_of_notMem ha] at h
        exact .inl h
    · exact .inr (List.mem_cons_of_mem _ h)

/-- A loop that replaces each row of the table under its own key. -/
theorem foldl_replace (f : α → α) (hf : ∀ a, key (f a) = key a) (t : Table key) :
    (t.rows.map f).foldl replace t = t.mapRows f hf := by
  -- after a prefix, its rows are rewritten and the others are not
  suffices h : ∀ (post pre : List α) (s : Table key), s.rows = pre.map f ++ post →
      ((post.map f).foldl replace s).rows = (pre ++ post).map f from ext (h t.rows [] t rfl)
  intro post
  induction post with
  | nil => intro pre s hs; simpa using hs
  | cons a post ih =>
    intro pre s hs
    have ha : key (f a) ∈ s.keys := by rw [mem_keys, hs]; exact ⟨a, by simp, (hf a).symm⟩
    have hn := s.nodup
    rw [hs, List.map_append, List.map_cons, List.nodup_append, List.nodup_cons] at hn
    have keep : ∀ c, (c ∈ pre.map f ∨ c ∈ post) → (if key c = key (f a) then f a else c) = c := by
      rintro c hc
      refine if_neg fun e => ?_
      rw [hf] at e
      rcases hc with hc | hc
      · exact hn.2.2 _ (List.mem_map_of_mem hc) _ (List.mem_cons_self ..) e
      · exact hn.2.1.1 (e ▸ List.mem_map_of_mem hc)
    have hset : (s.set (f a)).rows = (pre ++ [a]).map f ++ post := by
      rw [rows_set_of_mem ha, hs, List.map_append, List.map_cons, if_pos (hf a).symm]
      rw [List.map_congr_left fun c hc => keep c (.inl hc), List.map_congr_left fun c hc => keep c (.inr hc)]
      simp
    rw [List.map_cons, List.foldl_cons, replace_of_mem ha, ih (pre ++ [a]) _ hset]
    simp

/-! ## Deleting a row -/

/-- Delete the row with key `k`. -/
def pop (t : Table key) (k : κ) : Table key :=
  ⟨t.rows.filter fun a => key a ≠ k, t.nodup.sublist (List.filter_sublist.map key)⟩

theorem mem_pop {t : Table key} {k : κ} {b : α} : b ∈ (t.pop k).rows ↔ b ∈ t.rows ∧ key b ≠ k := by
  simp [pop]

theorem mem_keys_pop {t : Table key} {k k' : κ} : k' ∈ (t.pop k).keys ↔ k' ∈ t.keys ∧ k' ≠ k := by
  simp only [mem_keys, mem_pop]
  constructor
  · rintro ⟨a, ⟨ha, hne⟩, rfl⟩; exact ⟨⟨a, ha, rfl⟩, hne⟩
  · rintro ⟨⟨a, ha, rfl⟩, hne⟩; exact ⟨a, ⟨ha, hne⟩, rfl⟩

/-! ## Building a table -/

/-- Write the rows one after the other. -/
def ofList (key : α → κ) (l : List α) : Table key := l.foldl set (empty key)

theorem mem_foldl_set {b : α} : ∀ (l : List α) (t : Table key), b ∈ (l.foldl set t).rows → b ∈ t.rows ∨ b ∈ l
  | [], _, h => .inl h
  | a :: l, t, h => by
    rcases mem_foldl_set l _ h with h | h
    · rcases mem_set.1 h with rfl | ⟨h, -⟩
      exacts [.inr (List.mem_cons_self ..), .inl h]
    · exact .inr (List.mem_cons_of_mem _ h)

theorem mem_of_mem_ofList {l : List α} {b : α} (h : b ∈ (ofList key l).rows) : b ∈ l := by
  rcases mem_foldl_set l _ h with h | h
  · cases h
  · exact h

theorem rows_foldl_set : ∀ (l : List α) (t : Table key), ((t.rows ++ l).map key).Nodup → (l.foldl set t).rows = t.rows ++ l
  | [], t, _ => by simp
  | a :: l, t, h => by
    have hn : key a ∉ t.keys := by
      rw [List.map_append, List.map_cons, List.nodup_append] at h
      exact fun hk => h.2.2 _ hk _ (List.mem_cons_self ..) rfl
    have hset := rows_set_of_notMem hn
    rw [List.foldl_cons, rows_foldl_set l (t.set a) (by rw [hset]; simpa using h), hset]
    simp

/-- Rows with distinct keys are all kept. -/
theorem rows_ofList {l : List α} (h : (l.map key).Nodup) : (ofList key l).rows = l :=
  rows_foldl_set l (empty key) h

end Table

/-! ## Selecting rows -/

/-- The keys of selected and renamed rows are among the old keys, in order. -/
theorem sublist_map_filterMap {α : Type u} {β : Type v} {κ : Type w} {f : α → Option β} (key : α → κ) {key' : β → κ} :
    ∀ {l : List α}, (∀ a ∈ l, ∀ b, f a = some b → key' b = key a) → ((l.filterMap f).map key').Sublist (l.map key)
  | [], _ => .slnil
  | a :: l, h => by
    have ih := sublist_map_filterMap key (l := l) fun b hb => h b (List.mem_cons_of_mem _ hb)
    cases hf : f a with
    | none => rw [List.filterMap_cons_none hf]; exact ih.cons _
    | some b =>
      rw [List.filterMap_cons_some hf, List.map_cons, List.map_cons, h a (List.mem_cons_self ..) b hf]
      exact ih.cons_cons _

/-- Whether a row was selected can be told from the keys. -/
theorem mem_map_filterMap_iff {α : Type u} {β : Type v} {κ : Type w} {f : α → Option β} {key : α → κ} {key' : β → κ}
    {l : List α} (hn : (l.map key).Nodup) (h : ∀ a ∈ l, ∀ b, f a = some b → key' b = key a) {a : α} (ha : a ∈ l) :
    key a ∈ (l.filterMap f).map key' ↔ ∃ b, f a = some b := by
  rw [List.mem_map]
  constructor
  · rintro ⟨b, hb, hk⟩
    obtain ⟨a', ha', hb⟩ := List.mem_filterMap.1 hb
    obtain rfl := List.inj_on_of_nodup_map hn ha' ha ((h a' ha' b hb).symm.trans hk)
    exact ⟨b, hb⟩
  · rintro ⟨b, hb⟩
    exact ⟨b, List.mem_filterMap.2 ⟨a, ha, hb⟩, h a ha b hb⟩

/-- The key of a row occurs once among the selected rows, or not at all. -/
theorem count_map_filterMap {α : Type u} {β : Type v} {κ : Type w} [DecidableEq κ] {f : α → Option β} {key : α → κ}
    {key' : β → κ} {l : List α} (hn : (l.map key).Nodup) (h : ∀ a ∈ l, ∀ b, f a = some b → key' b = key a) {a : α}
    (ha : a ∈ l) : ((l.filterMap f).map key').count (key a) = if (f a).isSome then 1 else 0 := by
  have hmem := mem_map_filterMap_iff hn h ha
  split
  · rename_i hs
    exact List.count_eq_one_of_mem (hn.sublist (sublist_map_filterMap key h)) (hmem.2 (Option.isSome_iff_exists.1 hs))
  · rename_i hs
    exact List.count_eq_zero_of_not_mem fun hm => hs (Option.isSome_iff_exists.2 (hmem.1 hm))

/-! ## Dictionaries -/

/-- An insertion-ordered dictionary: the table of its key–value pairs. -/
abbrev Dict (κ : Type u) (ν : Type v) := Table (Prod.fst : κ × ν → κ)

namespace Dict

variable {κ : Type u} {ν : Type v} [DecidableEq κ]

/-- The value under `k`. -/
def get? (d : Dict κ ν) (k : κ) : Option ν := (d.find? k).map Prod.snd

/-- `d[k] = v`. -/
def put (d : Dict κ ν) (k : κ) (v : ν) : Dict κ ν := d.set (k, v)

theorem get?_eq_some {d : Dict κ ν} {k : κ} {v : ν} : d.get? k = some v ↔ (k, v) ∈ d.rows := by
  unfold get?
  rw [Option.map_eq_some_iff]
  constructor
  · rintro ⟨⟨k', v'⟩, h, rfl⟩
    obtain ⟨hm, rfl⟩ := Table.find?_eq_some.1 h
    exact hm
  · intro h; exact ⟨(k, v), Table.find?_eq_some.2 ⟨h, rfl⟩, rfl⟩

theorem get?_put (d : Dict κ ν) (k k' : κ) (v : ν) :
    (d.put k v).get? k' = if k = k' then some v else d.get? k' := by
  unfold get? put
  rw [Table.find?_set]
  split <;> rfl

/-- `{}`. -/
def empty : Dict κ ν := Table.empty Prod.fst

theorem mem_keys_iff {d : Dict κ ν} {k : κ} : k ∈ d.keys ↔ ∃ v, d.get? k = some v := by
  rw [Table.mem_keys]
  constructor
  · rintro ⟨⟨k, v⟩, h, rfl⟩; exact ⟨v, get?_eq_some.2 h⟩
  · rintro ⟨v, h⟩; exact ⟨(k, v), get?_eq_some.1 h, rfl⟩

end Dict

end Grip.Base
