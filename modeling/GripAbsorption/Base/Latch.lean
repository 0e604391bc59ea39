/-
Writes that are never undone. A map is latched when some of its keys have been given one fixed value and the
others have been left alone, a text is extended when lines for some keys have been appended to it; two latches
in a row are one latch of the keys of both, so what a whole run does is read off its steps.
-/
import Mathlib

namespace Grip.Base

universe u v w

variable {α : Type u} {β : Type v} {γ : Type w}

/-! ## Maps -/

/-- The keys that are hit have the value, the others what they had. -/
structure Latched (hit : α → Prop) (value : β) (old new : α → β) : Prop where
  latched : ∀ a, hit a → new a = value
  kept : ∀ a, ¬ hit a → new a = old a

namespace Latched

variable {hit hit' : α → Prop} {value : β} {old mid new : α → β}

theorem refl (h : ∀ a, ¬ hit a) : Latched hit value old old := ⟨fun a ha => absurd ha (h a), fun _ _ => rfl⟩

theorem congr (h : Latched hit value old new) (hiff : ∀ a, hit a ↔ hit' a) : Latched hit' value old new :=
  ⟨fun a ha => h.latched a ((hiff a).2 ha), fun a ha => h.kept a fun ha' => ha ((hiff a).1 ha')⟩

theorem trans (h : Latched hit value old mid) (h' : Latched hit' value mid new) :
    Latched (fun a => hit a ∨ hit' a) value old new := by
  refine ⟨fun a ha => ?_, fun a ha => ?_⟩
  · by_cases ha' : hit' a
    · exact h'.latched a ha'
    · rw [h'.kept a ha', h.latched a (ha.resolve_right ha')]
  · rw [not_or] at ha
    rw [h'.kept a ha.2, h.kept a ha.1]

end Latched

/-- A loop that writes one value under some keys. -/
theorem latched_foldl_update [DecidableEq α] (value : β) : ∀ (l : List α) (old : α → β),
    Latched (· ∈ l) value old (l.foldl (fun f a => Function.update f a value) old)
  | [], old => .refl fun _ => List.not_mem_nil
  | a :: l, old => by
    have hfirst : Latched (· = a) value old (Function.update old a value) :=
      ⟨fun b hb => by rw [hb, Function.update_self], fun b hb => Function.update_of_ne hb ..⟩
    exact (hfirst.trans (latched_foldl_update value l _)).congr fun b => List.mem_cons.symm

/-! ## Texts -/

/-- A line for each hit, in some order and perhaps more than once, follows what was there. -/
def Extended (line : α → List γ) (hit : α → Prop) (old new : List γ) : Prop :=
  ∃ as : List α, new = old ++ as.flatMap line ∧ ∀ a, a ∈ as ↔ hit a

namespace Extended

variable {line : α → List γ} {hit hit' : α → Prop} {old mid new : List γ}

theorem refl (h : ∀ a, ¬ hit a) : Extended line hit old old := ⟨[], by simp, fun a => by simpa using h a⟩

theorem congr (h : Extended line hit old new) (hiff : ∀ a, hit a ↔ hit' a) : Extended line hit' old new := by
  obtain ⟨as, hnew, has⟩ := h
  exact ⟨as, hnew, fun a => (has a).trans (hiff a)⟩

theorem trans (h : Extended line hit old mid) (h' : Extended line hit' mid new) :
    Extended line (fun a => hit a ∨ hit' a) old new := by
  obtain ⟨as, rfl, has⟩ := h
  obtain ⟨as', rfl, has'⟩ := h'
  refine ⟨as ++ as', ?_, fun a => ?_⟩
  · rw [List.flatMap_append, List.append_assoc]
  · rw [List.mem_append, has, has']

end Extended

end Grip.Base
