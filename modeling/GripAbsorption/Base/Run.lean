/-
Runs of a partial step function over a list of inputs. `visits` lists the state before each step
together with the step's input; `last` is the state a run ends in, if no step gets stuck. The run
lemma is the induction every safety theorem uses: an invariant that holds at the start and that
each step preserves, whenever its side condition holds, holds before and after every step of a
run whose steps all meet the side condition.
-/
import Mathlib

namespace Grip.Base

universe u v w

section

variable {σ : Type u} {ι : Type v}

/-- A partial step: the next state under an input, or `none` when the step fails. -/
abbrev PartialStep (σ : Type u) (ι : Type v) := σ → ι → Option σ

/-- A total step function as a partial step. -/
abbrev total (step : σ → ι → σ) : PartialStep σ ι := fun s i => some (step s i)

/-- A step that may raise, as a partial step: an exception ends the run. -/
abbrev raising {ε : Type w} (step : σ → ι → Except ε σ) : PartialStep σ ι := fun s i => (step s i).toOption

/-- The state before each step of a run, with the step's input; the run stops at a failing step. -/
def visits (step : PartialStep σ ι) : σ → List ι → List (σ × ι)
  | _, [] => []
  | s, i :: is => (s, i) :: match step s i with
    | some s' => visits step s' is
    | none => []

/-- The state a run ends in. -/
def last (step : PartialStep σ ι) : σ → List ι → Option σ
  | s, [] => some s
  | s, i :: is => (step s i).bind fun s' => last step s' is

/-- Every step of the run from `s` on `is` meets the side condition `C`. -/
def AllSteps (step : PartialStep σ ι) (C : σ → ι → Prop) (s : σ) (is : List ι) : Prop :=
  ∀ p ∈ visits step s is, C p.1 p.2

variable {step : PartialStep σ ι} {C : σ → ι → Prop} {Inv : σ → Prop}

instance [∀ s i, Decidable (C s i)] (s : σ) (is : List ι) : Decidable (AllSteps step C s is) :=
  inferInstanceAs (Decidable (∀ p ∈ visits step s is, C p.1 p.2))

@[simp] theorem allSteps_nil (s : σ) : AllSteps step C s [] := by
  intro p hp; cases hp

theorem allSteps_cons {s : σ} {i : ι} {is : List ι} :
    AllSteps step C s (i :: is) ↔ C s i ∧ ∀ s', step s i = some s' → AllSteps step C s' is := by
  unfold AllSteps
  rw [visits]
  constructor
  · intro h
    refine ⟨h (s, i) (List.mem_cons_self ..), fun s' hs p hp => h p ?_⟩
    rw [hs]; exact List.mem_cons_of_mem _ hp
  · rintro ⟨hc, h⟩ p hp
    rcases List.mem_cons.1 hp with rfl | hp
    · exact hc
    · cases hs : step s i with
      | none => rw [hs] at hp; cases hp
      | some s' => rw [hs] at hp; exact h s' hs p hp

/-- A run of a total step function is one of its first inputs and one of the others. -/
theorem allSteps_total_append {f : σ → ι → σ} {js : List ι} : ∀ {is : List ι} {s : σ},
    AllSteps (total f) C s (is ++ js) ↔ AllSteps (total f) C s is ∧ AllSteps (total f) C (is.foldl f s) js
  | [], s => by simp
  | i :: is, s => by
    rw [List.cons_append, allSteps_cons, allSteps_cons, and_assoc]
    refine and_congr_right fun _ => ?_
    simp only [Option.some.injEq, forall_eq', List.foldl_cons]
    exact allSteps_total_append

/-- A side condition on the inputs alone is met along every run. -/
theorem allSteps_of_forall : ∀ {is : List ι} {s : σ}, (∀ i ∈ is, ∀ s, C s i) → AllSteps step C s is
  | [], s, _ => allSteps_nil s
  | i :: _, s, h => allSteps_cons.2 ⟨h i (List.mem_cons_self ..) s,
      fun _ _ => allSteps_of_forall fun j hj => h j (List.mem_cons_of_mem _ hj)⟩

theorem AllSteps.mono {D : σ → ι → Prop} (hCD : ∀ s i, C s i → D s i) {s : σ} {is : List ι}
    (h : AllSteps step C s is) : AllSteps step D s is :=
  fun p hp => hCD _ _ (h p hp)

theorem AllSteps.and {D : σ → ι → Prop} {s : σ} {is : List ι} (hc : AllSteps step C s is) (hd : AllSteps step D s is) :
    AllSteps step (fun s i => C s i ∧ D s i) s is :=
  fun p hp => ⟨hc p hp, hd p hp⟩

/-- The run lemma: under the side conditions the invariant holds before every step. -/
theorem visits_invariant (hstep : ∀ s i s', Inv s → C s i → step s i = some s' → Inv s') :
    ∀ (is : List ι) (s : σ), Inv s → AllSteps step C s is → ∀ p ∈ visits step s is, Inv p.1
  | [], _, _, _, _, hp => by cases hp
  | i :: is, s, hi, hc, p, hp => by
    obtain ⟨hci, hcs⟩ := allSteps_cons.1 hc
    rw [visits] at hp
    rcases List.mem_cons.1 hp with rfl | hp
    · exact hi
    · cases hs : step s i with
      | none => rw [hs] at hp; cases hp
      | some s' =>
        rw [hs] at hp
        exact visits_invariant hstep is s' (hstep s i s' hi hci hs) (hcs s' hs) p hp

/-- A step property that follows from the invariant and the side condition holds at every step. -/
theorem allSteps_of_invariant {P : σ → ι → Prop}
    (hstep : ∀ s i s', Inv s → C s i → step s i = some s' → Inv s')
    (hP : ∀ s i, Inv s → C s i → P s i) {s : σ} {is : List ι} (hi : Inv s) (hc : AllSteps step C s is) :
    AllSteps step P s is :=
  fun p hp => hP p.1 p.2 (visits_invariant hstep is s hi hc p hp) (hc p hp)

/-- Two step properties that agree in every state of the invariant, the first of which keeps it,
hold along the same runs. -/
theorem allSteps_iff_of_invariant {P : σ → ι → Prop} (hiff : ∀ s i, Inv s → (P s i ↔ C s i))
    (hstep : ∀ s i s', Inv s → P s i → step s i = some s' → Inv s') :
    ∀ (is : List ι) (s : σ), Inv s → (AllSteps step P s is ↔ AllSteps step C s is)
  | [], s, _ => by simp
  | i :: is, s, hi => by
    rw [allSteps_cons, allSteps_cons, ← hiff s i hi]
    refine and_congr_right fun hp => forall_congr' fun s' => ?_
    refine imp_congr_right fun hs => ?_
    exact allSteps_iff_of_invariant hiff hstep is s' (hstep s i s' hi hp hs)

/-! ## What comes before an input -/

/-- An input with those before it: the last one or one of the others. -/
theorem exists_prefix_concat {P : List ι → ι → Prop} {is : List ι} {j : ι} :
    (∃ before i, before ++ [i] <+: is ++ [j] ∧ P before i) ↔ (∃ before i, before ++ [i] <+: is ∧ P before i) ∨ P is j := by
  constructor
  · rintro ⟨before, i, hpre, h⟩
    rcases List.prefix_concat_iff.1 hpre with heq | hpre
    · obtain ⟨rfl, hi⟩ := List.append_inj' heq rfl
      cases hi
      exact .inr h
    · exact .inl ⟨before, i, hpre, h⟩
  · rintro (⟨before, i, hpre, h⟩ | h)
    · exact ⟨before, i, hpre.trans (List.prefix_append is [j]), h⟩
    · exact ⟨is, j, List.prefix_rfl, h⟩

theorem forall_prefix_concat {P : List ι → ι → Prop} {is : List ι} {j : ι} :
    (∀ before i, before ++ [i] <+: is ++ [j] → P before i) ↔ (∀ before i, before ++ [i] <+: is → P before i) ∧ P is j := by
  constructor
  · intro h
    exact ⟨fun before i hpre => h before i (hpre.trans (List.prefix_append is [j])), h is j List.prefix_rfl⟩
  · rintro ⟨h, hlast⟩ before i hpre
    rcases List.prefix_concat_iff.1 hpre with heq | hpre
    · obtain ⟨rfl, hi⟩ := List.append_inj' heq rfl
      cases hi
      exact hlast
    · exact h before i hpre

end

/-! ## Exceptions -/

section

variable {ε : Type u} {α β : Type v}

theorem bind_ok {x : Except ε α} {f : α → Except ε β} {b : β} :
    (x >>= f) = .ok b ↔ ∃ a, x = .ok a ∧ f a = .ok b := by
  cases x with
  | error e => simp [bind, Except.bind]
  | ok a => simp [bind, Except.bind]

/-- A loop that may raise keeps what every iteration keeps. -/
theorem foldlM_invariant {β : Type v} {γ : Type w} {f : β → γ → Except ε β} {P : β → Prop} :
    ∀ {l : List γ} {b b' : β}, (∀ a ∈ l, ∀ c c', P c → f c a = .ok c' → P c') → P b → l.foldlM f b = .ok b' → P b'
  | [], b, b', _, hb, h => by cases h; exact hb
  | a :: l, b, b', hf, hb, h => by
    rw [List.foldlM_cons, bind_ok] at h
    obtain ⟨c, hc, h⟩ := h
    exact foldlM_invariant (fun x hx => hf x (List.mem_cons_of_mem _ hx)) (hf a (List.mem_cons_self ..) b c hb hc) h

/-- A loop whose iterations each may add to what holds, and take nothing away. -/
theorem foldlM_or {β : Type v} {γ : Type w} {f : β → γ → Except ε β} {P : β → Prop} {A : γ → Prop} :
    ∀ {l : List γ} {b b' : β}, (∀ a ∈ l, ∀ c c', f c a = .ok c' → (P c' ↔ P c ∨ A a)) → l.foldlM f b = .ok b' →
      (P b' ↔ P b ∨ ∃ a ∈ l, A a)
  | [], b, b', _, h => by cases h; simp
  | a :: l, b, b', hf, h => by
    rw [List.foldlM_cons, bind_ok] at h
    obtain ⟨c, hc, h⟩ := h
    rw [foldlM_or (fun x hx => hf x (List.mem_cons_of_mem _ hx)) h, hf a (List.mem_cons_self ..) b c hc, or_assoc]
    simp

/-- A comprehension none of whose elements raises. -/
theorem mapM_eq_ok {f : α → Except ε β} {g : α → β} : ∀ {l : List α}, (∀ a ∈ l, f a = .ok (g a)) → l.mapM f = .ok (l.map g)
  | [], _ => rfl
  | a :: l, h => by
    rw [List.mapM_cons, h a (List.mem_cons_self ..), mapM_eq_ok fun b hb => h b (List.mem_cons_of_mem _ hb)]
    rfl

/-- What a comprehension returns comes element by element. -/
theorem forall₂_of_mapM {f : α → Except ε β} : ∀ {l : List α} {l' : List β}, l.mapM f = .ok l' →
    List.Forall₂ (fun a b => f a = .ok b) l l'
  | [], _, h => by cases h; exact .nil
  | a :: l, _, h => by
    rw [List.mapM_cons, bind_ok] at h
    obtain ⟨b, hb, h⟩ := h
    obtain ⟨l', hl', h⟩ := bind_ok.1 h
    cases h
    exact .cons hb (forall₂_of_mapM hl')

/-- A comprehension returns when every element does. -/
theorem exists_mapM {f : α → Except ε β} : ∀ {l : List α}, (∀ a ∈ l, ∃ b, f a = .ok b) → ∃ l', l.mapM f = .ok l'
  | [], _ => ⟨[], rfl⟩
  | a :: l, h => by
    obtain ⟨b, hb⟩ := h a (List.mem_cons_self ..)
    obtain ⟨l', hl'⟩ := exists_mapM fun c hc => h c (List.mem_cons_of_mem _ hc)
    exact ⟨b :: l', by rw [List.mapM_cons, hb, hl']; rfl⟩

/-- A comprehension returns only when every element does. -/
theorem ok_of_mapM {f : α → Except ε β} : ∀ {l : List α} {l' : List β}, l.mapM f = .ok l' → ∀ a ∈ l, ∃ b, f a = .ok b
  | a :: l, _, h, x, hx => by
    rw [List.mapM_cons, bind_ok] at h
    obtain ⟨b, hb, h⟩ := h
    obtain ⟨l', hl', -⟩ := bind_ok.1 h
    rcases List.mem_cons.1 hx with rfl | hx
    exacts [⟨b, hb⟩, ok_of_mapM hl' x hx]

theorem isOk_iff {x : Except ε α} : x.isOk = true ↔ ∃ a, x = .ok a := by
  cases x <;> simp [Except.isOk, Except.toBool]

theorem isOk_mapM_iff {f : α → Except ε β} {l : List α} : (l.mapM f).isOk = true ↔ ∀ a ∈ l, (f a).isOk = true := by
  rw [isOk_iff]
  constructor
  · rintro ⟨l', h⟩ a ha
    exact isOk_iff.2 (ok_of_mapM h a ha)
  · exact fun h => exists_mapM fun a ha => isOk_iff.1 (h a ha)

/-- Two lists related to a third element by element. -/
theorem forall₂_comp {γ : Type w} {R : α → β → Prop} {S : β → γ → Prop} : ∀ {l : List α} {u : List β} {v : List γ},
    List.Forall₂ R l u → List.Forall₂ S u v → List.Forall₂ (fun a c => ∃ b, R a b ∧ S b c) l v
  | _, _, _, .nil, .nil => .nil
  | _, _, _, .cons hab hl, .cons hbc hv => .cons ⟨_, hab, hbc⟩ (forall₂_comp hl hv)

theorem mem_of_forall₂ {R : α → β → Prop} {b : β} : ∀ {l : List α} {l' : List β}, List.Forall₂ R l l' → b ∈ l' →
    ∃ a ∈ l, R a b
  | _, _, .cons (a := a) hab h, hb => by
    rcases List.mem_cons.1 hb with rfl | hb
    · exact ⟨a, List.mem_cons_self .., hab⟩
    · obtain ⟨c, hc, hcb⟩ := mem_of_forall₂ h hb
      exact ⟨c, List.mem_cons_of_mem _ hc, hcb⟩

theorem getElem?_of_forall₂ {R : α → β → Prop} {b : β} : ∀ {l : List α} {l' : List β} {i : ℕ}, List.Forall₂ R l l' →
    l'[i]? = some b → ∃ a, l[i]? = some a ∧ R a b
  | _, _, 0, .cons hab _, hb => by
    cases hb
    exact ⟨_, rfl, hab⟩
  | _, _, i + 1, .cons _ h, hb => getElem?_of_forall₂ (i := i) h hb

theorem getLast?_of_forall₂ {R : α → β → Prop} {l : List α} {l' : List β} {b : β} (h : List.Forall₂ R l l')
    (hb : l'.getLast? = some b) : ∃ a, l.getLast? = some a ∧ R a b := by
  rw [List.getLast?_eq_getElem?] at hb ⊢
  rw [h.length_eq]
  exact getElem?_of_forall₂ h hb

/-- What a comprehension returns comes from its elements. -/
theorem mem_of_mapM {f : α → Except ε β} {l : List α} {l' : List β} (h : l.mapM f = .ok l') {b : β} (hb : b ∈ l') :
    ∃ a ∈ l, f a = .ok b :=
  @mem_of_forall₂ _ _ (fun a b => f a = .ok b) b l l' (forall₂_of_mapM h) hb

/-- A selection that drops more leaves a part of the list in the same order. -/
theorem filterMap_sublist_filterMap {f g : α → Option β} (h : ∀ a, f a = none ∨ f a = g a) : ∀ l : List α,
    (l.filterMap f).Sublist (l.filterMap g)
  | [] => .slnil
  | a :: l => by
    have ih := filterMap_sublist_filterMap h l
    cases hg : g a with
    | none =>
      have hf : f a = none := (h a).elim id fun hfg => hfg.trans hg
      rwa [List.filterMap_cons_none hf, List.filterMap_cons_none hg]
    | some b =>
      rw [List.filterMap_cons_some hg]
      rcases h a with hf | hf
      · rw [List.filterMap_cons_none hf]; exact ih.cons b
      · rw [List.filterMap_cons_some (hf.trans hg)]; exact ih.cons_cons b

/-- It leaves all of it only when it drops nothing more. -/
theorem filterMap_eq_filterMap_iff {f g : α → Option β} (h : ∀ a, f a = none ∨ f a = g a) : ∀ {l : List α},
    l.filterMap f = l.filterMap g ↔ ∀ a ∈ l, f a = g a
  | [] => by simp
  | a :: l => by
    rw [List.forall_mem_cons, ← filterMap_eq_filterMap_iff h]
    constructor
    · intro heq
      have hlen : (l.filterMap f).length ≤ (l.filterMap g).length := (filterMap_sublist_filterMap h l).length_le
      rcases h a with hf | hf
      · cases hg : g a with
        | none =>
          rw [List.filterMap_cons_none hf, List.filterMap_cons_none hg] at heq
          exact ⟨hf, heq⟩
        | some b =>
          -- the dropped element is missing
          rw [List.filterMap_cons_none hf, List.filterMap_cons_some hg] at heq
          rw [heq, List.length_cons] at hlen
          omega
      · refine ⟨hf, ?_⟩
        rw [List.filterMap_cons, List.filterMap_cons, hf] at heq
        cases hg : g a with
        | none => rw [hg] at heq; exact heq
        | some b => rw [hg] at heq; exact (List.cons.inj heq).2
    · rintro ⟨hf, heq⟩
      rw [List.filterMap_cons, List.filterMap_cons, hf, heq]

@[simp] theorem mapError_eq_ok {ε' : Type u} {g : ε → ε'} {x : Except ε α} {a : α} : x.mapError g = .ok a ↔ x = .ok a := by
  cases x <;> simp [Except.mapError]

/-- Errors may be renamed step by step. -/
theorem mapError_bind {ε' : Type u} (g : ε → ε') (x : Except ε α) (f : α → Except ε β) :
    (x >>= f).mapError g = x.mapError g >>= fun a => (f a).mapError g := by
  cases x <;> rfl

theorem mapError_foldlM {ε' : Type u} {γ : Type w} {r : ε → ε'} {f : β → γ → Except ε β} {g : β → γ → Except ε' β}
    (h : ∀ b a, (f b a).mapError r = g b a) : ∀ (l : List γ) (b : β), (l.foldlM f b).mapError r = l.foldlM g b
  | [], _ => rfl
  | a :: l, b => by
    rw [List.foldlM_cons, List.foldlM_cons, mapError_bind, h]
    exact bind_congr fun b' => mapError_foldlM h l b'

/-- The value of a dictionary lookup, or the error raised when the key is missing. -/
def orRaise (e : ε) : Option α → Except ε α
  | some a => .ok a
  | none => .error e

@[simp] theorem orRaise_eq_ok {e : ε} {x : Option α} {a : α} : orRaise e x = .ok a ↔ x = some a := by
  cases x <;> simp [orRaise]

@[simp] theorem orRaise_eq_error {e e' : ε} {x : Option α} : orRaise e x = .error e' ↔ x = none ∧ e = e' := by
  cases x <;> simp [orRaise]

instance decidableOfOk {x : Except ε α} {P : α → Prop} [DecidablePred P] : Decidable (∀ a, x = .ok a → P a) :=
  match x with
  | .ok a => decidable_of_iff (P a) ⟨fun h _ e => by cases e; exact h, fun h => h a rfl⟩
  | .error _ => isTrue nofun

instance decidableOfSome {x : Option α} {P : α → Prop} [DecidablePred P] : Decidable (∀ a, x = some a → P a) :=
  match x with
  | some a => decidable_of_iff (P a) ⟨fun h _ e => by cases e; exact h, fun h => h a rfl⟩
  | none => isTrue nofun

/-- Only errors of `E` are raised, and what is returned satisfies `P`. -/
def Ensures (E : ε → Prop) (P : α → Prop) : Except ε α → Prop
  | .ok a => P a
  | .error e => E e

instance {E : ε → Prop} {P : α → Prop} [DecidablePred E] [DecidablePred P] : ∀ x, Decidable (Ensures E P x)
  | .ok a => inferInstanceAs (Decidable (P a))
  | .error e => inferInstanceAs (Decidable (E e))

section

variable {E : ε → Prop} {P : α → Prop} {Q : β → Prop}

theorem Ensures.of_ok {x : Except ε α} (h : Ensures E P x) {a : α} (hx : x = .ok a) : P a := by
  rw [hx] at h; exact h

theorem Ensures.of_error {x : Except ε α} (h : Ensures E P x) {e : ε} (hx : x = .error e) : E e := by
  rw [hx] at h; exact h

theorem Ensures.mono {P' : α → Prop} {x : Except ε α} (h : Ensures E P x) (hP : ∀ a, x = .ok a → P a → P' a) :
    Ensures E P' x := by
  cases x with
  | error e => exact h
  | ok a => exact hP a rfl h

theorem ensures_throw {e : ε} (he : E e) : Ensures E P (.error e) := he

theorem ensures_bind {x : Except ε α} {f : α → Except ε β} (hx : Ensures E P x)
    (hf : ∀ a, x = .ok a → P a → Ensures E Q (f a)) : Ensures E Q (x >>= f) := by
  cases x with
  | error e => exact hx
  | ok a => exact hf a rfl hx

theorem ensures_orRaise {e : ε} {x : Option α} (he : x = none → E e) (hP : ∀ a, x = some a → P a) :
    Ensures E P (orRaise e x) := by
  cases x with
  | none => exact he rfl
  | some a => exact hP a rfl

theorem ensures_foldlM {γ : Type w} {f : β → γ → Except ε β} : ∀ {l : List γ} {b : β},
    (∀ a ∈ l, ∀ c, Q c → Ensures E Q (f c a)) → Q b → Ensures E Q (l.foldlM f b)
  | [], _, _, hb => hb
  | a :: l, b, hf, hb => by
    rw [List.foldlM_cons]
    refine ensures_bind (hf a (List.mem_cons_self ..) b hb) fun c _ hc => ?_
    exact ensures_foldlM (fun x hx => hf x (List.mem_cons_of_mem _ hx)) hc

/-- A loop whose iterations keep `Q`, and each leave `A` of their element and every `A` that holds. -/
theorem ensures_foldlM_forall {γ : Type w} {f : β → γ → Except ε β} {A : γ → β → Prop} : ∀ {l : List γ} {b : β},
    (∀ a ∈ l, ∀ c, Q c → Ensures E (fun c' => Q c' ∧ A a c' ∧ ∀ x, A x c → A x c') (f c a)) → Q b →
      Ensures E (fun c => Q c ∧ (∀ a ∈ l, A a c) ∧ ∀ x, A x b → A x c) (l.foldlM f b)
  | [], _, _, hb => ⟨hb, by simp, fun _ h => h⟩
  | a :: l, b, hf, hb => by
    rw [List.foldlM_cons]
    refine ensures_bind (hf a (List.mem_cons_self ..) b hb) fun c _ ⟨hc, ha, hk⟩ => ?_
    refine (ensures_foldlM_forall (fun x hx => hf x (List.mem_cons_of_mem _ hx)) hc).mono fun c' _ ⟨hc', hl, hk'⟩ => ?_
    refine ⟨hc', fun x hx => ?_, fun x hx => hk' x (hk x hx)⟩
    rcases List.mem_cons.1 hx with rfl | hx
    exacts [hk' x ha, hl x hx]

end

@[simp] theorem toOption_eq_some {x : Except ε α} {a : α} : x.toOption = some a ↔ x = .ok a := by
  cases x <;> simp [Except.toOption]

end

end Grip.Base
