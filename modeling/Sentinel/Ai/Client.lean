/-
Sentinel.Ai.Client — `sentinel_ai`: the token budget, the model tiers and
`LLMClient.complete_structured`.

A call runs up to its request to the provider, waits, and goes on with the
response. Other calls on the same client run in between. Fractions are
exact.
-/
import Mathlib.Data.Rat.Defs
import Mathlib.Algebra.Order.Field.Rat
import Sentinel.Py.Json
import Sentinel.Trace.Run

namespace Sentinel.Ai

open Sentinel.Py

/-! ## `models` and `routing` -/

inductive ModelTier where
  | high
  | mid
  | low
  deriving DecidableEq, Repr

structure TokenUsage where
  inputTokens : ℕ
  outputTokens : ℕ
  deriving DecidableEq, Repr

/-- `TokenUsage.total`. -/
def TokenUsage.total (usage : TokenUsage) : ℕ := usage.inputTokens + usage.outputTokens

structure StructuredCallResult where
  data : List (Str × Json)
  usage : TokenUsage
  modelUsed : Str
  requestedTier : ModelTier
  effectiveTier : ModelTier

/-- `StructuredCallResult.degraded`. -/
def StructuredCallResult.degraded (result : StructuredCallResult) : Bool :=
  result.effectiveTier ≠ result.requestedTier

/-- `DEFAULT_MODEL_IDS`. -/
def defaultModelIds : ModelTier → Option Str
  | .high => some "claude-opus-5".toList
  | .mid => some "claude-sonnet-5".toList
  | .low => some "claude-haiku-4-5-20251001".toList

/-- `DEGRADE_TIER`. -/
def degradeTier : ModelTier → ModelTier
  | .high => .mid
  | .mid => .low
  | .low => .low

/-! ## `budget` -/

/-- `DEGRADE_THRESHOLD`. -/
def degradeThreshold : ℚ := 4 / 5

structure TokenBudget where
  limit : ℤ
  used : ℤ := 0
  deriving DecidableEq, Repr

namespace TokenBudget

/-- `fraction_used`. -/
def fractionUsed (budget : TokenBudget) : ℚ :=
  if budget.limit ≤ 0 then 1 else min 1 ((budget.used : ℚ) / budget.limit)

/-- `is_exhausted`. -/
def isExhausted (budget : TokenBudget) : Bool := budget.limit ≤ budget.used

/-- `is_under_pressure`. -/
def isUnderPressure (budget : TokenBudget) : Bool := degradeThreshold ≤ budget.fractionUsed

/-- `record`. -/
def record (budget : TokenBudget) (usage : TokenUsage) : TokenBudget :=
  { budget with used := budget.used + usage.total }

end TokenBudget

/-- The message of `BudgetExhaustedError`. -/
def budgetExhaustedMessage (budget : TokenBudget) : Str :=
  "LLM token budget exhausted: ".toList ++ ofInt budget.used ++ "/".toList ++
    ofInt budget.limit ++ (" used. This scan's remaining AI-assisted phases should be marked " ++
      "degraded/skipped rather than retried (docs/01 §3.4).").toList

/-! ## `client` -/

/-- `_RESULT_TOOL_NAME`. -/
def resultToolName : Str := "emit_result".toList

def missingToolMessage : Str :=
  ("Model response contained no 'emit_result' tool_use block — " ++
    "forced tool_choice should make this impossible; treat as a " ++
    "provider-side error, not a parseable-prose fallback (ADR-0001).").toList

/-- The arguments of `complete_structured`. -/
structure CompletionRequest where
  tier : ModelTier
  system : Str
  prompt : Str
  schema : Json
  maxTokens : ℤ := 1024

/-- The keywords of `create` that vary; the tool is `emit_result` with the
schema, and its use is forced. -/
structure CreateCall where
  model : Str
  maxTokens : ℤ
  system : Str
  prompt : Str
  inputSchema : Json

/-- A block of a response; an attribute may be missing. -/
structure ContentBlock where
  type : Option Str := none
  name : Option Str := none
  input : List (Str × Json) := []

structure MessageResponse where
  content : List ContentBlock
  usage : TokenUsage

/-- How a call may fail: `create` may raise what it likes. -/
inductive CallError where
  | budgetExhausted (message : Str)
  | keyError (tier : ModelTier)
  | valueError (message : Str)
  | provider (message : Str)
  deriving DecidableEq

structure LLMClient where
  budget : TokenBudget
  modelIds : ModelTier → Option Str := defaultModelIds

/-- What a call that waits for the provider will need. -/
structure PendingCall where
  request : CompletionRequest
  effectiveTier : ModelTier
  model : Str

/-- `complete_structured` up to the request. -/
def LLMClient.begin (client : LLMClient) (request : CompletionRequest) :
    Except CallError (PendingCall × CreateCall) :=
  if client.budget.isExhausted then
    .error (.budgetExhausted (budgetExhaustedMessage client.budget))
  else
    let effectiveTier :=
      if client.budget.isUnderPressure then degradeTier request.tier else request.tier
    match client.modelIds effectiveTier with
    | none => .error (.keyError effectiveTier)
    | some model => .ok (⟨request, effectiveTier, model⟩,
        ⟨model, request.maxTokens, request.system, request.prompt, request.schema⟩)

/-- `_extract_tool_input`. -/
def extractToolInput (response : MessageResponse) : Except CallError (List (Str × Json)) :=
  match response.content.find? fun block =>
      block.type = some "tool_use".toList ∧ block.name = some resultToolName with
  | some block => .ok block.input
  | none => .error (.valueError missingToolMessage)

/-- `complete_structured` behind the request: the usage is recorded, then
the result is taken out of the response. -/
def LLMClient.finish (client : LLMClient) (call : PendingCall) (response : MessageResponse) :
    LLMClient × Except CallError StructuredCallResult :=
  ({ client with budget := client.budget.record response.usage },
    (extractToolInput response).map fun data =>
      ⟨data, response.usage, call.model, call.request.tier, call.effectiveTier⟩)

/-! ## Calls on one client -/

/-- A request to the provider: which one of the client's it is, whose call
has made it, and what had been used then. -/
structure Created where
  number : ℕ
  caller : ℕ
  used : ℤ
  request : CompletionRequest
  call : CreateCall

/-- A call that waits, and its request. -/
structure Waiting where
  made : Created
  call : PendingCall

/-- A call that has ended, and its request if it got so far. -/
structure Ended where
  caller : ℕ
  made : Option Created
  outcome : Except CallError StructuredCallResult

/-- The client, the calls that wait, and what has happened: the requests
made, the usages recorded and the calls that have ended, the latest first. -/
structure ClientRun where
  client : LLMClient
  pending : ℕ → Option Waiting := fun _ => none
  created : List Created := []
  recorded : List TokenUsage := []
  ended : List Ended := []

/-- A call is made, its response comes, or `create` raises. -/
inductive ClientAction where
  | call (i : ℕ) (request : CompletionRequest)
  | responds (i : ℕ) (response : MessageResponse)
  | raises (i : ℕ) (message : Str)

def ClientRun.setPending (s : ClientRun) (i : ℕ) (call : Option Waiting) : ClientRun :=
  { s with pending := fun j => if j = i then call else s.pending j }

/-- The request that a call makes now. -/
def ClientRun.next (s : ClientRun) (i : ℕ) (request : CompletionRequest) (create : CreateCall) :
    Created := ⟨s.created.length, i, s.client.budget.used, request, create⟩

/-- One action. A number is used for one call at a time. -/
def ClientRun.step (s : ClientRun) : ClientAction → ClientRun
  | .call i request =>
      match s.pending i with
      | some _ => s
      | none =>
          match s.client.begin request with
          | .error e => { s with ended := ⟨i, none, .error e⟩ :: s.ended }
          | .ok (pending, create) =>
              { s.setPending i (some ⟨s.next i request create, pending⟩) with
                created := s.next i request create :: s.created }
  | .responds i response =>
      match s.pending i with
      | none => s
      | some waiting =>
          let (client, outcome) := s.client.finish waiting.call response
          { s.setPending i none with
            client := client
            recorded := response.usage :: s.recorded
            ended := ⟨i, some waiting.made, outcome⟩ :: s.ended }
  | .raises i message =>
      match s.pending i with
      | none => s
      | some waiting =>
          { s.setPending i none with
            ended := ⟨i, some waiting.made, .error (.provider message)⟩ :: s.ended }

end Sentinel.Ai
