import Ai4iCore.Guardrail.Mask

/-!
# The guardrail context

`build_guardrail_context` merges the policies that apply to a request — those of its
application and the global ones — into one context: a flat list of policy types and a flat
list of scopes. `apply_input_guardrail` and `process_response_text` read the two lists
independently of each other.
-/

namespace Ai4iCore.Guardrail

/-! ## Policies -/

/-- `guardrail_scope`. -/
inductive Scope
  | input
  | output
  | both
  deriving DecidableEq, Repr

/-- Which of the two directions of a call a scope names. -/
def Scope.coversInput : Scope → Bool
  | .input | .both => true
  | .output => false

def Scope.coversOutput : Scope → Bool
  | .output | .both => true
  | .input => false

/-- A policy as `get_policy` returns it. `types` is what `parse_policy_types` makes of it,
`none` when it raises `PolicyFieldsError`; a category it names is there with its status. -/
structure Policy where
  isActive : Bool
  category : Option Bool
  subCategory : Option Bool
  types : Option (List PolicyType)
  scope : Option Scope

/-- `GuardrailContext`. -/
structure Context where
  appliedPolicyIds : List Int := []
  policyTypes : List PolicyType := []
  scopes : List Scope := []
  tokenToOriginal : Dict Text Text := []

def Context.needsInputMask (ctx : Context) : Bool := ctx.scopes.any Scope.coversInput

def Context.needsOutputMask (ctx : Context) : Bool := ctx.scopes.any Scope.coversOutput

def Context.active (ctx : Context) : Bool := !ctx.appliedPolicyIds.isEmpty

/-- What a request sees of the policies: `none` where the lookup raises `GuardrailError`. -/
structure Lookup where
  appPolicyIds : Option (List Int)
  globalPolicyIds : Option (List Int)
  getPolicy : Int → Option Policy

/-- The loop of `build_guardrail_context`. -/
def addPolicies (getPolicy : Int → Option Policy) : List Int → Context → Option Context
  | [], ctx => some ctx
  | pid :: rest, ctx =>
    if pid = 0 then addPolicies getPolicy rest ctx
    else
      match getPolicy pid with
      | none => none
      | some policy =>
        if !policy.isActive || policy.category = some false || policy.subCategory = some false then
          addPolicies getPolicy rest ctx
        else
          match policy.types with
          | none => none
          | some types => addPolicies getPolicy rest { ctx with
              appliedPolicyIds := ctx.appliedPolicyIds ++ [pid]
              policyTypes := ctx.policyTypes ++ types
              scopes := ctx.scopes ++ policy.scope.toList }

/-- `build_guardrail_context`. -/
def buildGuardrailContext (lookup : Lookup) : Option Context :=
  match lookup.appPolicyIds, lookup.globalPolicyIds with
  | some app, some global =>
    addPolicies lookup.getPolicy (app ++ global.filter (· ∉ app)) {}
  | _, _ => none

/-! ## Both directions -/

/-- The body of a chat request, as far as the proxy reads it. -/
structure Payload where
  model : String
  messages : List Message
  /-- whether `stream_options.include_usage` is `true`, when `stream_options` is an object that
  has it -/
  includeUsage : Option Bool
  deriving DecidableEq

/-- `apply_input_guardrail`, with the context it leaves. -/
def applyInputGuardrail (engine : Engine) (payload : Payload) (ctx : Context) :
    Except MaskError (Payload × Context) :=
  if !ctx.needsInputMask || ctx.policyTypes.isEmpty then .ok (payload, ctx)
  else
    match maskMessages engine ctx.policyTypes payload.messages [] with
    | .error e => .error e
    | .ok (messages, mapping) =>
      .ok ({ payload with messages },
        { ctx with tokenToOriginal := Guardrail.tokenToOriginal mapping })

/-- `apply_output_guardrail`. -/
def applyOutputGuardrail (engine : Engine) (text : Text) (ctx : Context) : Except MaskError Text :=
  if !ctx.needsOutputMask || ctx.policyTypes.isEmpty then .ok text
  else (mask engine ctx.policyTypes text []).map Prod.fst

/-- `unmask_response`. -/
def unmaskResponse (text : Text) (ctx : Context) : Text :=
  if ctx.tokenToOriginal = [] then text else unmask text ctx.tokenToOriginal

/-- `process_response_text`. -/
def processResponseText (engine : Engine) (text : Text) (ctx : Context) : Except MaskError Text :=
  let text := if ctx.needsInputMask then unmaskResponse text ctx else text
  if ctx.needsOutputMask then applyOutputGuardrail engine text ctx else .ok text

end Ai4iCore.Guardrail
