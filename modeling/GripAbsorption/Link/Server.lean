/-
The loop of `server.jl`. It takes a message and answers it before it takes the next one: a message without
an operation is acknowledged, a request to island is answered with the branches of a plan, and a request to
manage with a row of setpoints. Nothing is caught, so that whatever is raised ends the program.
-/
import GripAbsorption.Base.Exchange
import GripAbsorption.Absorption.Request
import GripAbsorption.Islanding.Request

namespace Grip.Link

open Grip.Base Grip.Islanding

/-! ## Messages -/

/-- What the controller sends: a message with the time it was sent at, or data for one of the two operations. -/
inductive Message
  | plain (sentAt : Text)
  | islanding (data : Datadump)
  | management (data : Dispatch.IMDatadump)

/-- What the server sends. -/
inductive Reply
  | received (text : Text)
  | branches (results : List ResultRow)
  | setpoints (row : Dispatch.Row ℚ)

/-- `"Recieved message sent at '$(sent_at)'"`. -/
def receivedText (sentAt : Text) : Text := "Recieved message sent at '".toList ++ sentAt ++ "'".toList

/-! ## The server -/

section

variable (parseFloat : Text → Option ℚ)

/-- The branches the server may reply to a request to island, after some draws of `find_cycles` and with some plan
of the solver. -/
inductive Islands (data : Datadump) : List ResultRow → Prop
  | plan {nbr ng nb nd : ℕ} {branch : Fin nbr → Text} {msg : VIPayload ℚ nbr ng nb nd} {draws : ℕ → ℕ → ℕ}
      {args : CoreArgs ℚ nbr ng nb nd} {p : Plan ℚ nbr ng nb nd} (hread : ServerReads parseFloat data branch msg)
      (hargs : islandingArgs msg draws = .ok args) (hp : Feasible args p) : Islands data (branchResults branch msg args p)

/-- The server may stop at a request to island: on data it cannot read, in `find_cycles`, or without a plan. -/
inductive NoIslands (data : Datadump) : Prop
  | unread (h : ∀ (nbr ng nb nd : ℕ) (branch : Fin nbr → Text) (msg : VIPayload ℚ nbr ng nb nd),
      ¬ ServerReads parseFloat data branch msg)
  | raised {nbr ng nb nd : ℕ} {branch : Fin nbr → Text} {msg : VIPayload ℚ nbr ng nb nd} {draws : ℕ → ℕ → ℕ}
      {e : Islanding.Err} (hread : ServerReads parseFloat data branch msg) (hargs : islandingArgs msg draws = .error e)
  | unsolved {nbr ng nb nd : ℕ} {branch : Fin nbr → Text} {msg : VIPayload ℚ nbr ng nb nd} {draws : ℕ → ℕ → ℕ}
      {args : CoreArgs ℚ nbr ng nb nd} (hread : ServerReads parseFloat data branch msg)
      (hargs : islandingArgs msg draws = .ok args) (h : ¬ ∃ p, Feasible args p)

/-- What the server may do with a message. The baseline tables are those it finds when it reads the request. -/
inductive Serves : Message → Option Reply → Prop
  | received (sentAt : Text) : Serves (.plain sentAt) (some (.received (receivedText sentAt)))
  | islands {data : Datadump} {results : List ResultRow} (h : Islands parseFloat data results) :
      Serves (.islanding data) (some (.branches results))
  | noIslands {data : Datadump} (h : NoIslands parseFloat data) : Serves (.islanding data) none
  | setpoints {data : Dispatch.IMDatadump} {files : String → Option (Dispatch.IslandTables ℚ)} {row : Dispatch.Row ℚ}
      (h : Dispatch.Manages parseFloat files data row) : Serves (.management data) (some (.setpoints row))
  | noSetpoints {data : Dispatch.IMDatadump} {files : String → Option (Dispatch.IslandTables ℚ)}
      (h : ∀ row, ¬ Dispatch.Manages parseFloat files data row) : Serves (.management data) none

end

section

variable {parseFloat : Text → Option ℚ}

/-- The server does something with every message. -/
theorem serves_total (m : Message) : ∃ o, Serves parseFloat m o := by
  cases m with
  | plain sentAt => exact ⟨_, .received sentAt⟩
  | islanding data =>
    by_cases hread : ∃ (nbr ng nb nd : ℕ) (branch : Fin nbr → Text) (msg : VIPayload ℚ nbr ng nb nd),
        ServerReads parseFloat data branch msg
    · obtain ⟨nbr, ng, nb, nd, branch, msg, hread⟩ := hread
      cases hargs : islandingArgs msg fun _ _ => 0 with
      | error e => exact ⟨_, .noIslands (.raised hread hargs)⟩
      | ok args =>
        by_cases hp : ∃ p, Feasible args p
        · obtain ⟨p, hp⟩ := hp
          exact ⟨_, .islands (.plan hread hargs hp)⟩
        · exact ⟨_, .noIslands (.unsolved hread hargs hp)⟩
    · refine ⟨_, .noIslands (.unread fun nbr ng nb nd branch msg h => hread ?_)⟩
      exact ⟨nbr, ng, nb, nd, branch, msg, h⟩
  | management data =>
    by_cases hrow : ∃ row, Dispatch.Manages parseFloat (fun _ => none) data row
    · obtain ⟨row, hrow⟩ := hrow
      exact ⟨_, .setpoints hrow⟩
    · exact ⟨_, .noSetpoints fun row h => hrow ⟨row, h⟩⟩

theorem serves_plain {sentAt : Text} {o : Option Reply} :
    Serves parseFloat (.plain sentAt) o ↔ o = some (.received (receivedText sentAt)) := by
  constructor
  · intro h
    cases h
    rfl
  · rintro rfl
    exact .received sentAt

/-- A request to island is answered with branches. -/
theorem serves_islanding {data : Datadump} {p : Reply} :
    Serves parseFloat (.islanding data) (some p) ↔ ∃ results, p = .branches results ∧ Islands parseFloat data results := by
  constructor
  · intro h
    cases h with
    | islands h => exact ⟨_, rfl, h⟩
  · rintro ⟨results, rfl, h⟩
    exact .islands h

/-- A request to manage is answered with setpoints. -/
theorem serves_management {data : Dispatch.IMDatadump} {p : Reply} :
    Serves parseFloat (.management data) (some p) ↔
      ∃ row, p = .setpoints row ∧ ∃ files, Dispatch.Manages parseFloat files data row := by
  constructor
  · intro h
    cases h with
    | setpoints h => exact ⟨_, rfl, _, h⟩
  · rintro ⟨row, rfl, files, h⟩
    exact .setpoints h

end

end Grip.Link
