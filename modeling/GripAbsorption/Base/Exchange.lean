/-
A client that asks a server over two first-in first-out queues and waits for each answer, beside a server
that takes one request at a time and either answers it or stops for good. What the server may do with a
request is a relation, so it may draw or solve. The log lists the requests answered so far, each with the
answer the client got. Whatever the order of the turns, at most one message is under way, and the client
does what it would do if every request were answered on the spot.
-/
import Mathlib.Logic.Relation
import Mathlib.Tactic

namespace Grip.Base

/-- A client: it has a result, or it asks and goes on with the answer. -/
inductive Client (Req Rep α : Type)
  | done (a : α)
  | ask (r : Req) (next : Rep → Client Req Rep α)

variable {Req Rep α β : Type}

namespace Client

/-- The client that goes on with another one. -/
def bind : Client Req Rep α → (α → Client Req Rep β) → Client Req Rep β
  | done a, f => f a
  | ask r next, f => ask r fun p => (next p).bind f

end Client

/-! ## Answers on the spot -/

section

variable (handles : Req → Option Rep → Prop)

/-- The client `c`, after the requests of the log were answered, is `c'`. -/
inductive Answered (c : Client Req Rep α) : List (Req × Rep) → Client Req Rep α → Prop
  | start : Answered c [] c
  | step {log : List (Req × Rep)} {r : Req} {next : Rep → Client Req Rep α} {p : Rep}
      (h : Answered c log (.ask r next)) (hp : handles r (some p)) : Answered c (log ++ [(r, p)]) (next p)

/-- Whatever the answers are, the result of the client meets `P`. -/
def Always (P : α → Prop) : Client Req Rep α → Prop
  | .done a => P a
  | .ask r next => ∀ p, handles r (some p) → Always P (next p)

/-- The client has its result after the requests of the log. -/
def Returns (c : Client Req Rep α) (log : List (Req × Rep)) (a : α) : Prop := Answered handles c log (.done a)

end

section

variable {handles : Req → Option Rep → Prop} {c c' c'' : Client Req Rep α} {log log' : List (Req × Rep)} {a : α}
  {r : Req} {p : Rep} {next : Rep → Client Req Rep α}

theorem Answered.trans (h : Answered handles c log c') (h' : Answered handles c' log' c'') :
    Answered handles c (log ++ log') c'' := by
  induction h' with
  | start => rwa [List.append_nil]
  | step _ hp ih =>
    rw [← List.append_assoc]
    exact ih.step hp

/-- Every answer in the log is one the server may give to its request. -/
theorem Answered.handled (h : Answered handles c log c') : ∀ e ∈ log, handles e.1 (some e.2) := by
  induction h with
  | start => simp
  | step _ hp ih =>
    intro e he
    rcases List.mem_append.1 he with he | he
    · exact ih e he
    · rw [List.mem_singleton.1 he]
      exact hp

theorem answered_done : Answered handles (.done a) log c' ↔ log = [] ∧ c' = .done a := by
  constructor
  · intro h
    induction h with
    | start => exact ⟨rfl, rfl⟩
    | step _ _ ih => cases ih.2
  · rintro ⟨rfl, rfl⟩
    exact .start

/-- A log of a client that asks is empty, or starts with its request. -/
theorem answered_ask : Answered handles (.ask r next) log c' ↔
    (log = [] ∧ c' = .ask r next) ∨ ∃ p rest, log = (r, p) :: rest ∧ handles r (some p) ∧ Answered handles (next p) rest c' := by
  constructor
  · intro h
    induction h with
    | start => exact .inl ⟨rfl, rfl⟩
    | step h hp ih =>
      right
      rcases ih with ⟨rfl, he⟩ | ⟨p, rest, rfl, hr, hrest⟩
      · cases he
        exact ⟨_, [], rfl, hp, .start⟩
      · exact ⟨p, _, rfl, hr, hrest.step hp⟩
  · rintro (⟨rfl, rfl⟩ | ⟨p, rest, rfl, hp, hrest⟩)
    · exact .start
    · exact (Answered.start.step hp).trans hrest

@[simp] theorem returns_done {b : α} : Returns handles (.done a) log b ↔ log = [] ∧ b = a := by
  simp [Returns, answered_done]

theorem returns_ask : Returns handles (.ask r next) log a ↔
    ∃ p rest, log = (r, p) :: rest ∧ handles r (some p) ∧ Returns handles (next p) rest a := by
  simp [Returns, answered_ask]

theorem always_bind {P : β → Prop} {f : α → Client Req Rep β} : ∀ {c : Client Req Rep α},
    Always handles P (c.bind f) ↔ Always handles (fun a => Always handles P (f a)) c
  | .done _ => Iff.rfl
  | .ask _ _ => forall₂_congr fun _ _ => always_bind

theorem Always.answered {P : α → Prop} (h : Always handles P c) (ha : Answered handles c log c') : Always handles P c' := by
  induction ha with
  | start => exact h
  | step _ hp ih => exact ih _ hp

/-- A client and its successor share the log. -/
theorem returns_bind {f : α → Client Req Rep β} {b : β} : ∀ {c : Client Req Rep α} {log : List (Req × Rep)},
    Returns handles (c.bind f) log b ↔
      ∃ log₁ a log₂, log = log₁ ++ log₂ ∧ Returns handles c log₁ a ∧ Returns handles (f a) log₂ b
  | .done a, log => by
    constructor
    · exact fun h => ⟨[], a, log, rfl, returns_done.2 ⟨rfl, rfl⟩, h⟩
    · rintro ⟨log₁, a', log₂, rfl, h₁, h₂⟩
      obtain ⟨rfl, rfl⟩ := returns_done.1 h₁
      exact h₂
  | .ask r next, log => by
    rw [Client.bind, returns_ask]
    constructor
    · rintro ⟨p, rest, rfl, hp, h⟩
      obtain ⟨log₁, a, log₂, rfl, h₁, h₂⟩ := returns_bind.1 h
      exact ⟨(r, p) :: log₁, a, log₂, rfl, returns_ask.2 ⟨p, log₁, rfl, hp, h₁⟩, h₂⟩
    · rintro ⟨log₁, a, log₂, rfl, h₁, h₂⟩
      obtain ⟨p, rest, rfl, hp, h⟩ := returns_ask.1 h₁
      exact ⟨p, rest ++ log₂, rfl, hp, returns_bind.2 ⟨rest, a, log₂, rfl, h, h₂⟩⟩

end

/-! ## Two queues -/

/-- Where the client is: it runs, or it waits for the answer to the request it sent. -/
inductive Phase (Req Rep α : Type)
  | running (c : Client Req Rep α)
  | waiting (r : Req) (next : Rep → Client Req Rep α)

/-- The client, the messages under way in both directions, whether the server runs, and the log. -/
structure Config (Req Rep α : Type) where
  phase : Phase Req Rep α
  requests : List Req
  replies : List Rep
  up : Bool
  log : List (Req × Rep)

namespace Config

/-- The client is about to start beside a server that waits. -/
def start (c : Client Req Rep α) : Config Req Rep α := ⟨.running c, [], [], true, []⟩

/-- The messages under way. -/
def underWay (s : Config Req Rep α) : ℕ := s.requests.length + s.replies.length

/-- One turn of the client or of the server. -/
inductive Step (handles : Req → Option Rep → Prop) : Config Req Rep α → Config Req Rep α → Prop
  | send {r : Req} {next : Rep → Client Req Rep α} {rs : List Req} {ps : List Rep} {up : Bool} {log : List (Req × Rep)} :
      Step handles ⟨.running (.ask r next), rs, ps, up, log⟩ ⟨.waiting r next, rs ++ [r], ps, up, log⟩
  | serve {ph : Phase Req Rep α} {r : Req} {p : Rep} {rs : List Req} {ps : List Rep} {log : List (Req × Rep)}
      (h : handles r (some p)) : Step handles ⟨ph, r :: rs, ps, true, log⟩ ⟨ph, rs, ps ++ [p], true, log⟩
  | stop {ph : Phase Req Rep α} {r : Req} {rs : List Req} {ps : List Rep} {log : List (Req × Rep)}
      (h : handles r none) : Step handles ⟨ph, r :: rs, ps, true, log⟩ ⟨ph, rs, ps, false, log⟩
  | receive {r : Req} {next : Rep → Client Req Rep α} {rs : List Req} {p : Rep} {ps : List Rep} {up : Bool}
      {log : List (Req × Rep)} :
      Step handles ⟨.waiting r next, rs, p :: ps, up, log⟩ ⟨.running (next p), rs, ps, up, log ++ [(r, p)]⟩

/-- Any turns of the two. -/
abbrev Run (handles : Req → Option Rep → Prop) : Config Req Rep α → Config Req Rep α → Prop :=
  Relation.ReflTransGen (Step handles)

/-- Nobody has a turn. -/
def Stuck (handles : Req → Option Rep → Prop) (s : Config Req Rep α) : Prop := ∀ s', ¬ Step handles s s'

/-- What a run of the client `c` may look like: at most one message is under way, and it belongs to the
request the client waits for. -/
inductive Valid (handles : Req → Option Rep → Prop) (c : Client Req Rep α) : Config Req Rep α → Prop
  | running {c' : Client Req Rep α} {log : List (Req × Rep)} (h : Answered handles c log c') :
      Valid handles c ⟨.running c', [], [], true, log⟩
  | asked {r : Req} {next : Rep → Client Req Rep α} {log : List (Req × Rep)} (h : Answered handles c log (.ask r next)) :
      Valid handles c ⟨.waiting r next, [r], [], true, log⟩
  | answered {r : Req} {next : Rep → Client Req Rep α} {log : List (Req × Rep)} {p : Rep}
      (h : Answered handles c log (.ask r next)) (hp : handles r (some p)) :
      Valid handles c ⟨.waiting r next, [], [p], true, log⟩
  | stopped {r : Req} {next : Rep → Client Req Rep α} {log : List (Req × Rep)}
      (h : Answered handles c log (.ask r next)) (hr : handles r none) :
      Valid handles c ⟨.waiting r next, [], [], false, log⟩

section

variable {handles : Req → Option Rep → Prop} {c : Client Req Rep α} {s s' : Config Req Rep α}

/-- A turn keeps what a run looks like. -/
theorem Valid.step (hv : Valid handles c s) (h : Step handles s s') : Valid handles c s' := by
  cases hv with
  | running ha =>
    cases h with
    | send => exact .asked ha
  | asked ha =>
    cases h with
    | serve hp => exact .answered ha hp
    | stop hr => exact .stopped ha hr
  | answered ha hp =>
    cases h with
    | receive => exact .running (ha.step hp)
  | stopped ha hr => cases h

/-- The turns in which a log comes about. -/
theorem run_of_answered {c' : Client Req Rep α} {log : List (Req × Rep)} (h : Answered handles c log c') :
    Run handles (start c) ⟨.running c', [], [], true, log⟩ := by
  induction h with
  | start => exact .refl
  | step _ hp ih => exact ((ih.tail .send).tail (.serve hp)).tail .receive

/-- The configurations of a run are exactly those. -/
theorem run_iff_valid : Run handles (start c) s ↔ Valid handles c s := by
  constructor
  · intro h
    induction h with
    | refl => exact .running .start
    | tail _ hstep ih => exact ih.step hstep
  · intro h
    cases h with
    | running ha => exact run_of_answered ha
    | asked ha => exact (run_of_answered ha).tail .send
    | answered ha hp => exact ((run_of_answered ha).tail .send).tail (.serve hp)
    | stopped ha hr => exact ((run_of_answered ha).tail .send).tail (.stop hr)

theorem run_done_iff {log : List (Req × Rep)} {a : α} :
    Run handles (start c) ⟨.running (.done a), [], [], true, log⟩ ↔ Returns handles c log a := by
  rw [run_iff_valid]
  constructor
  · rintro ⟨h⟩
    exact h
  · exact .running

/-- What every result meets, the client ends with in every order of turns, and the other way round. -/
theorem always_iff {P : α → Prop} :
    Always handles P c ↔ ∀ log a, Run handles (start c) ⟨.running (.done a), [], [], true, log⟩ → P a := by
  constructor
  · exact fun h log a hrun => h.answered (run_done_iff.1 hrun)
  · intro h
    have hreturns : ∀ log a, Returns handles c log a → P a := fun log a hr => h log a (run_done_iff.2 hr)
    clear h
    induction c with
    | done a => exact hreturns [] a .start
    | ask r next ih =>
      exact fun p hp => ih p fun log a hr => hreturns _ a (returns_ask.2 ⟨p, log, rfl, hp, hr⟩)

/-- At most one message is under way, and every answer received is one to the request it was received for. -/
theorem run_lockstep (h : Run handles (start c) s) : s.underWay ≤ 1 ∧ ∀ e ∈ s.log, handles e.1 (some e.2) := by
  cases run_iff_valid.1 h with
  | running ha => exact ⟨Nat.zero_le _, ha.handled⟩
  | asked ha => exact ⟨le_refl _, ha.handled⟩
  | answered ha => exact ⟨le_refl _, ha.handled⟩
  | stopped ha => exact ⟨Nat.zero_le _, ha.handled⟩

/-- Where a run ends: the client has its result, or it waits forever on a request that stopped the server. -/
theorem ends_iff (htotal : ∀ r, ∃ o, handles r o) : (Run handles (start c) s ∧ s.Stuck handles) ↔
    (∃ log a, Returns handles c log a ∧ s = ⟨.running (.done a), [], [], true, log⟩) ∨
    ∃ log r next, Answered handles c log (.ask r next) ∧ handles r none ∧ s = ⟨.waiting r next, [], [], false, log⟩ := by
  rw [run_iff_valid]
  constructor
  · rintro ⟨hv, hstuck⟩
    cases hv with
    | @running c' log ha =>
      cases c' with
      | done a => exact .inl ⟨log, a, ha, rfl⟩
      | ask r next => exact (hstuck _ .send).elim
    | @asked r _ _ _ =>
      obtain ⟨o, ho⟩ := htotal r
      cases o with
      | none => exact (hstuck _ (.stop ho)).elim
      | some p => exact (hstuck _ (.serve ho)).elim
    | answered => exact (hstuck _ .receive).elim
    | stopped ha hr => exact .inr ⟨_, _, _, ha, hr, rfl⟩
  · rintro (⟨log, a, ha, rfl⟩ | ⟨log, r, next, ha, hr, rfl⟩)
    · exact ⟨.running ha, fun _ h => by cases h⟩
    · exact ⟨.stopped ha hr, fun _ h => by cases h⟩

/-- From a client that runs alone, every order of turns ends. -/
theorem acc_running : ∀ (c : Client Req Rep α) (log : List (Req × Rep)),
    Acc (fun s' s => Step handles s s') ⟨.running c, [], [], true, log⟩
  | .done a, log => ⟨_, fun _ h => by cases h⟩
  | .ask r next, log => by
    refine ⟨_, fun _ h => ?_⟩
    cases h with
    | send =>
      refine ⟨_, fun _ h => ?_⟩
      cases h with
      | serve =>
        refine ⟨_, fun _ h => ?_⟩
        cases h with
        | receive => exact acc_running (next _) _
      | stop => exact ⟨_, fun _ h => by cases h⟩

/-- No run goes on forever. -/
theorem run_ends (c : Client Req Rep α) (run : ℕ → Config Req Rep α) (h0 : run 0 = start c) :
    ∃ n, ¬ Step handles (run n) (run (n + 1)) := by
  by_contra hall
  push Not at hall
  have hno : ∀ s : Config Req Rep α, Acc (fun s' s => Step handles s s') s → ∀ n, run n ≠ s := by
    intro s hacc
    induction hacc with
    | intro s _ ih =>
      rintro n rfl
      exact ih _ (hall n) (n + 1) rfl
  exact hno _ (acc_running c []) 0 h0

end

end Config

end Grip.Base
