/-
From an islanding payload to the arguments of `islanding_core`: `read_VIpayload` turns the message's
columns into data, the limits of generators and batteries being zero when they are offline; the
server then takes the branches at faulted nodes out of service and marks the generators and batteries
there, which `islanding_core` does not look at. Columns of one table have one length.
-/
import GripAbsorption.Islanding.Core
import GripAbsorption.Islanding.Graph

namespace Grip.Islanding

open Grip.Base

/-! ## Payload -/

/-- The columns of a request to island, as numbers. -/
structure VIPayload (K : Type) (nbr ng nb nd : ℕ) where
  branchT : Fin nbr → ℕ
  branchF : Fin nbr → ℕ
  branchStatus : Fin nbr → ℤ
  branchKind : Fin nbr → String
  genBus : Fin ng → ℕ
  genPmin : Fin ng → K
  genStatus : Fin ng → K
  genPmax : Fin ng → K
  genSolar : Fin ng → ℤ
  batBus : Fin nb → ℕ
  batStatus : Fin nb → K
  batPmax : Fin nb → K
  batEmax : Fin nb → K
  batSoc : Fin nb → K
  shuntBus : Fin nd → ℕ
  shuntP : Fin nd → K
  faultedNodes : List ℕ

/-- What `read_VIpayload` returns. -/
structure VIData (K : Type) (nbr ng nb nd : ℕ) where
  T : Fin nbr → ℕ
  F : Fin nbr → ℕ
  brSt : Fin nbr → Bool
  switchable : Fin nbr → Bool
  G : Fin ng → ℕ
  PgMin : Fin ng → K
  PgMax : Fin ng → K
  geSt : Fin ng → Bool
  solar : Fin ng → Bool
  B : Fin nb → ℕ
  PbMax : Fin nb → K
  EbMax : Fin nb → K
  E0 : Fin nb → K
  baSt : Fin nb → Bool
  D : Fin nd → ℕ
  Pd0 : Fin nd → K
  faultedNodes : List ℕ

section

variable {K : Type} [Field K] [DecidableEq K] {nbr ng nb nd : ℕ}

/-- `read_VIpayload`. -/
def readVIPayload (msg : VIPayload K nbr ng nb nd) : VIData K nbr ng nb nd where
  T := msg.branchT
  F := msg.branchF
  brSt := fun i => msg.branchStatus i = 1
  switchable := fun i => msg.branchKind i = "switch"
  G := msg.genBus
  PgMin := msg.genPmin
  geSt := fun g => msg.genStatus g = 1
  PgMax := fun g => msg.genPmax g * ofStatus (msg.genStatus g = 1)
  solar := fun g => msg.genSolar g = 1
  B := msg.batBus
  baSt := fun b => msg.batStatus b = 1
  PbMax := fun b => msg.batPmax b * ofStatus (msg.batStatus b = 1)
  EbMax := fun b => msg.batEmax b * ofStatus (msg.batStatus b = 1)
  E0 := fun b => msg.batSoc b * (msg.batEmax b * ofStatus (msg.batStatus b = 1))
  D := msg.shuntBus
  Pd0 := msg.shuntP
  faultedNodes := msg.faultedNodes

/-! ## Outages -/

/-- `findall(at.==n)`. -/
def findAll {m : ℕ} (place : Fin m → ℕ) (n : ℕ) : List (Fin m) := (List.finRange m).filter fun i => place i = n

@[simp] theorem mem_findAll {m : ℕ} {place : Fin m → ℕ} {n : ℕ} {i : Fin m} : i ∈ findAll place n ↔ place i = n := by
  simp [findAll]

/-- `isolate_nodes`: the branches at the faulted nodes. -/
def isolateNodes (T F : Fin nbr → ℕ) (fnodes : List ℕ) : List (Fin nbr) :=
  (fnodes.flatMap fun n => findAll T n ++ findAll F n).eraseDups

theorem mem_isolateNodes {T F : Fin nbr → ℕ} {fnodes : List ℕ} {i : Fin nbr} :
    i ∈ isolateNodes T F fnodes ↔ T i ∈ fnodes ∨ F i ∈ fnodes := by
  unfold isolateNodes
  simp only [List.mem_eraseDups, List.mem_flatMap, List.mem_append, mem_findAll]
  constructor
  · rintro ⟨n, hn, h | h⟩
    · exact .inl (h ▸ hn)
    · exact .inr (h ▸ hn)
  · rintro (h | h)
    · exact ⟨_, h, .inl rfl⟩
    · exact ⟨_, h, .inr rfl⟩

/-- `st[out] .= false`. -/
def setFalse {m : ℕ} (st : Fin m → Bool) (out : List (Fin m)) : Fin m → Bool := fun i => if i ∈ out then false else st i

/-- The data with the outages of the faulted nodes. -/
def VIData.outages (data : VIData K nbr ng nb nd) : VIData K nbr ng nb nd :=
  let brFailures := isolateNodes data.T data.F data.faultedNodes
  { data with
    switchable := setFalse data.switchable brFailures
    brSt := setFalse data.brSt brFailures
    geSt := setFalse data.geSt (data.faultedNodes.flatMap (findAll data.G))
    baSt := setFalse data.baSt (data.faultedNodes.flatMap (findAll data.B)) }

/-! ## The call of the core -/

/-- The arguments of `islanding_core`. -/
def VIData.coreArgs (data : VIData K nbr ng nb nd) (loops : List (List ℕ)) : CoreArgs K nbr ng nb nd where
  nBus := (busList data.T data.F).length
  F := data.F
  T := data.T
  brStatus0 := data.brSt
  switchable := data.switchable
  loops := loops
  G := data.G
  PgMin := data.PgMin
  PgMax := data.PgMax
  solar := data.solar
  B := data.B
  EbMax := data.EbMax
  E0 := data.E0
  PbMax := data.PbMax
  D := data.D
  Pd0 := data.Pd0

/-- The server's call for a request, with the random draws of `find_cycles`. -/
def islandingArgs (msg : VIPayload K nbr ng nb nd) (draws : ℕ → ℕ → ℕ) : Except Err (CoreArgs K nbr ng nb nd) := do
  let data := (readVIPayload msg).outages
  let loops ← findCycles data.T data.F draws
  return data.coreArgs loops

/-- The arguments are the payload's data, with the branches at faulted nodes open and not switchable. -/
structure ServerArgs (msg : VIPayload K nbr ng nb nd) (args : CoreArgs K nbr ng nb nd) : Prop where
  T : args.T = msg.branchT
  F : args.F = msg.branchF
  isolated : ∀ i, args.T i ∈ msg.faultedNodes ∨ args.F i ∈ msg.faultedNodes →
    args.brStatus0 i = false ∧ args.switchable i = false
  G : args.G = msg.genBus
  PgMin : args.PgMin = msg.genPmin
  PgMax : args.PgMax = (readVIPayload msg).PgMax
  solar : args.solar = (readVIPayload msg).solar
  B : args.B = msg.batBus
  PbMax : args.PbMax = (readVIPayload msg).PbMax
  EbMax : args.EbMax = (readVIPayload msg).EbMax
  E0 : args.E0 = (readVIPayload msg).E0
  D : args.D = msg.shuntBus
  Pd0 : args.Pd0 = msg.shuntP

theorem islandingArgs_spec {msg : VIPayload K nbr ng nb nd} {draws : ℕ → ℕ → ℕ} {args : CoreArgs K nbr ng nb nd}
    (h : islandingArgs msg draws = .ok args) : ServerArgs msg args := by
  obtain ⟨loops, -, h⟩ := bind_ok.1 h
  cases h
  refine ⟨rfl, rfl, fun i hi => ?_, rfl, rfl, rfl, rfl, rfl, rfl, rfl, rfl, rfl, rfl⟩
  have hmem := mem_isolateNodes.2 hi
  exact ⟨if_pos hmem, if_pos hmem⟩

end

end Grip.Islanding
