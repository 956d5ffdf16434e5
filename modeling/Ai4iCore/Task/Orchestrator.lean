import Ai4iCore.Task.Service

/-!
# Routing a task request

`_run_inference` (routes/inference.py) and `Orchestrator.route_inference`
(orchestrator/orchestrator.py): every route of the task pipeline takes a body, unwraps a try-it
envelope, fills in the task type of its route, and has the orchestrator resolve the service that
the body names. The class that runs is that of the service; the task type is checked against
`allowedTaskTypes` and handed on.
-/

namespace Ai4iCore.Task

open Checked

/-- The surroundings of a request. -/
structure Env where
  /-- the model registry; `none` raises -/
  resolve : Value → Option ServiceInfo
  /-- the `X-Tier-ID` header, empty when there is none -/
  tierId : String
  /-- `get_fallbacks` of a service -/
  fallbacks : Value → List Value
  catalogue : Catalogue
  engine : Engine

/-- A request body: its own fields, whether it has a `service_name`, and its `payload` when that
is an object. -/
structure Body where
  payload : Payload
  hasServiceName : Bool
  inner : Option Payload
  deriving DecidableEq, Repr

/-- `ALLOWED_TASK_TYPES`. -/
def allowedTaskTypes : List Text :=
  ["NMT".toList, "ASR".toList, "OCR".toList, "NER".toList, "TTS".toList, "PII".toList,
    "LANGUAGE_DETECTION".toList, "SPEAKER_DIARIZATION".toList, "LANGUAGE_DIARIZATION".toList,
    "TRANSLITERATION".toList, "AUDIO_LANGUAGE_DETECTION".toList, "SMR".toList]

/-- `_validate_task_type` lets a task type through. -/
def accepted (taskType : Text) : Bool := upper taskType ∈ allowedTaskTypes

/-! ## The service -/

def Config.withServiceId (c : Config) (id : Value) : Config :=
  { c with fields := c.fields.set "serviceId" id }

def Config.serviceId (c : Config) : Option Value := field c.fields ["serviceId"]

/-- `_resolve_service_and_model`. -/
def resolveServiceAndModel (env : Env) (p : Payload) : Except Failure ServiceInfo := do
  -- `resolve_smr_service` is not implemented
  let id ← orRaise (p.config.serviceId.or (p.serviceId.filter Value.truthy)) .valueError
  let info ← orRaise (env.resolve id) .runtimeError
  require info.isPublished .lookupError
  return { info with serviceId := id }

/-- `_enforce_tier_gate`. -/
def enforceTierGate (env : Env) (info : ServiceInfo) : Except Failure Unit :=
  require (env.tierId = "" || info.tierIds.isEmpty || env.tierId ∈ info.tierIds) .permissionError

/-- The service a payload names, when the caller may use it. -/
def resolveOpen (env : Env) (p : Payload) : Except Failure ServiceInfo := do
  let info ← resolveServiceAndModel env p
  enforceTierGate env info
  return info

/-- `_get_task_service`. -/
def getTaskService (info : ServiceInfo) : Except Failure TaskClass :=
  orRaise (taskServiceRegistry.get? info.classInstance) .runtimeError

/-! ## Failover -/

/-- What a request leaves: its ai-inference spans, and the service that answered with the items
it processed. -/
structure Served where
  spans : List Span
  answer : Except Failure (ServiceInfo × List Item)

/-- The loop over the fallbacks in `_run_with_fallbacks`; `outcome n` is what happens to the
`n`-th service that is run. -/
def tryFallbacks (env : Env) (p : Payload) (outcome : Nat → Outcome) :
    List Value → Nat → Served
  | [], _ => ⟨[], .error .unavailable⟩
  | fallbackId :: rest, n =>
    let payload := { p with config := p.config.withServiceId fallbackId }
    match resolveOpen env payload with
    -- no longer resolvable, or out of tier: skipped
    | .error _ => tryFallbacks env p outcome rest n
    | .ok info =>
      match getTaskService info with
      | .error e => ⟨[], .error e⟩
      | .ok cls =>
        let ran := process env.engine env.catalogue cls info payload (outcome n)
        match ran.ending with
        | .ok items => ⟨ran.spans, .ok (info, items)⟩
        | .error .unavailable =>
          -- a fallback that answered a part ends the loop
          if ran.completedGroups = 0 then
            let served := tryFallbacks env p outcome rest (n + 1)
            { served with spans := ran.spans ++ served.spans }
          else ⟨ran.spans, .error .unavailable⟩
        | .error e => ⟨ran.spans, .error e⟩

/-- `_run_with_fallbacks`. -/
def runWithFallbacks (env : Env) (p : Payload) (info : ServiceInfo) (outcome : Nat → Outcome) :
    Served :=
  match getTaskService info with
  | .error e => ⟨[], .error e⟩
  | .ok cls =>
    let ran := process env.engine env.catalogue cls info p (outcome 0)
    match ran.ending with
    | .ok items => ⟨ran.spans, .ok (info, items)⟩
    | .error .unavailable =>
      if ran.completedGroups = 0 && !(env.fallbacks info.serviceId).isEmpty then
        let served := tryFallbacks env p outcome (env.fallbacks info.serviceId) 1
        { served with spans := ran.spans ++ served.spans }
      else ⟨ran.spans, .error .unavailable⟩
    | .error e => ⟨ran.spans, .error e⟩

/-! ## The routes -/

/-- The task type that `route_inference` reads: `payload.get("task_type", "")`, in a call of
`upper`. -/
def taskTypeOf (p : Payload) : Except Failure Text :=
  match p.taskType with
  | none => .ok []
  | some (.str t) => .ok t
  | some _ => .error .typeError

/-- The checks of `route_inference`, up to the service it runs first. -/
def openedService (env : Env) (p : Payload) : Except Failure ServiceInfo := do
  let taskType ← taskTypeOf p
  require (accepted taskType) .valueError
  resolveOpen env p

/-- `route_inference`. -/
def routeInference (env : Env) (p : Payload) (outcome : Nat → Outcome) : Served :=
  match openedService env p with
  | .error e => ⟨[], .error e⟩
  | .ok info => runWithFallbacks env p info outcome

/-- The envelope of a try-it request is unwrapped, and its service id goes with the payload. -/
def Body.unwrap (body : Body) : Payload :=
  match body.inner with
  | none => body.payload
  | some inner =>
    if !body.hasServiceName then body.payload
    else
      match body.payload.serviceId.filter Value.truthy with
      | some id =>
        if inner.config.serviceId.isSome then inner
        else { inner with config := inner.config.withServiceId id }
      | none => inner

/-- `default_task_type` of a dedicated route, for a body without a task type. -/
def Payload.withDefault (p : Payload) (default : Option Text) : Payload :=
  match default with
  | none => p
  | some t => if p.taskType.any Value.truthy then p else { p with taskType := some (.str t) }

/-- `_run_inference`, on the route with this `default_task_type` (none on the unified route). -/
def handle (env : Env) (default : Option Text) (body : Body) (outcome : Nat → Outcome) :
    Served :=
  routeInference env (body.unwrap.withDefault default) outcome

end Ai4iCore.Task
