import NpsSdk.Base64
import NpsSdk.GoTable
import NpsSdk.GoTime
import NpsSdk.JsonText
import NpsSdk.Transition

/-! The store of LLM contexts. A mutation is reserved before the provider runs, and committed or aborted after it; in
between the context it appends to or resets is held for it. Contexts expire unless they are held and leave a tombstone,
outcomes are retained under the owner and the idempotency key, and every call but a commit sweeps what has elapsed.
Readings of the clock, fresh names and the standard library's printing are inputs of a call. -/

namespace NpsSdk.Nwp

/-! ### Requests and answers -/

inductive LlmContextOperation where
  | create
  | append
  | fork
  | reset
  | release
  | other (name : GoString)
  deriving DecidableEq

def LlmContextOperation.text : LlmContextOperation → GoString
  | .create => "create"
  | .append => "append"
  | .fork => "fork"
  | .reset => "reset"
  | .release => "release"
  | .other name => name

inductive LlmContextState where
  | busy
  | active
  | released
  | expired
  | failed
  deriving DecidableEq

structure LlmToolCallDto where
  callID : GoString
  toolName : GoString
  argumentsJSON : GoString
  deriving DecidableEq

structure ToolParameterDto where
  name : GoString
  type : GoString
  description : Option GoString
  required : Bool
  deriving DecidableEq

structure LlmToolDefinitionDto where
  name : GoString
  description : Option GoString
  parameters : List ToolParameterDto
  deriving DecidableEq

structure LlmMessageDto where
  role : GoString
  content : Option GoString
  toolCallID : Option GoString := none
  toolName : Option GoString := none
  toolCalls : List LlmToolCallDto := []
  deriving DecidableEq

structure LlmContextOwner where
  nid : GoString
  securityScope : GoString
  deriving DecidableEq

/-- A nil slice and an empty one have different fingerprints. -/
structure LlmContextBinding where
  model : GoString
  systemMessages : Option (List LlmMessageDto)
  tools : Option (List LlmToolDefinitionDto)
  runtimeRevision : GoString
  deriving DecidableEq

structure LlmContextMutationRequest where
  operation : LlmContextOperation
  owner : LlmContextOwner
  contextID : Option GoString
  baseVersion : Option UInt64
  binding : LlmContextBinding
  messages : List LlmMessageDto
  ttlSeconds : Option UInt32
  idempotencyKey : GoString
  requestID : GoString
  deriving DecidableEq

structure LlmContextMutationReservation where
  reservationID : GoString
  request : LlmContextMutationRequest
  bindingFingerprint : GoString
  baseTranscript : List LlmMessageDto
  effectiveTTLSeconds : Option UInt32
  parentContextID : Option GoString
  parentVersion : Option UInt64
  deriving DecidableEq

structure LlmContextSnapshot where
  contextID : GoString
  version : UInt64
  state : LlmContextState
  transcript : List LlmMessageDto
  binding : LlmContextBinding
  expiresAt : Option Time
  deriving DecidableEq

structure LlmContextReceiptDto where
  contextID : GoString
  version : UInt64
  operation : LlmContextOperation
  state : LlmContextState
  expiresAt : Option GoString := none
  parentContextID : Option GoString := none
  parentVersion : Option UInt64 := none
  deriving DecidableEq

structure LlmContextStatusDto where
  state : LlmContextState
  contextID : Option GoString := none
  version : Option UInt64 := none
  expiresAt : Option GoString := none
  requestID : Option GoString := none
  errorCode : Option GoString := none
  deriving DecidableEq

inductive LlmContextStoreError where
  | store (errorCode message : GoString) (currentVersion : Option UInt64)
  | plain (message : GoString)
  deriving DecidableEq

def llmCompleteActionID : GoString := "llm.complete"
def llmContextReleaseActionID : GoString := "llm.context.release"

def errActionParamsInvalid : GoString := "NWP-ACTION-PARAMS-INVALID"
def errActionIdempotencyConflict : GoString := "NWP-ACTION-IDEMPOTENCY-CONFLICT"
def errLlmContextNotFound : GoString := "NWP-LLM-CONTEXT-NOT-FOUND"
def errLlmContextExpired : GoString := "NWP-LLM-CONTEXT-EXPIRED"
def errLlmContextVersionConflict : GoString := "NWP-LLM-CONTEXT-VERSION-CONFLICT"
def errLlmContextBindingMismatch : GoString := "NWP-LLM-CONTEXT-BINDING-MISMATCH"
def errLlmContextForbidden : GoString := "NWP-LLM-CONTEXT-FORBIDDEN"
def errLlmContextLimitExceeded : GoString := "NWP-LLM-CONTEXT-LIMIT-EXCEEDED"
def errLlmContextOperationUnsupported : GoString := "NWP-LLM-CONTEXT-OPERATION-UNSUPPORTED"

def paramsInvalid (message : GoString) : LlmContextStoreError :=
  .store errActionParamsInvalid message none

def notFound : LlmContextStoreError :=
  .store errLlmContextNotFound "context or retained outcome not found" none

def forbidden : LlmContextStoreError :=
  .store errLlmContextForbidden "the caller does not own this context" none

/-! ### The fingerprint of a binding -/

section

abbrev Json := JsonValue JsonNumber

/-- A member that is left out where it is nil. -/
def member (name : String) (value : Option GoString) : List (String × Json) :=
  value.toList.map fun text => (name, .string text)

def toolCallJSON (c : LlmToolCallDto) : Json :=
  .object [("call_id", .string c.callID), ("tool_name", .string c.toolName),
    ("arguments_json", .string c.argumentsJSON)]

def messageJSON (m : LlmMessageDto) : Json :=
  .object (("role", .string m.role) :: (member "content" m.content ++ member "tool_call_id" m.toolCallID ++
    member "tool_name" m.toolName ++
    if m.toolCalls = [] then [] else [("tool_calls", .array (m.toolCalls.map toolCallJSON))]))

def parameterJSON (p : ToolParameterDto) : Json :=
  .object (("name", .string p.name) :: ("type", .string p.type) ::
    (member "description" p.description ++ [("required", .bool p.required)]))

def toolJSON (t : LlmToolDefinitionDto) : Json :=
  .object (("name", .string t.name) :: (member "description" t.description ++
    if t.parameters = [] then [] else [("parameters", .array (t.parameters.map parameterJSON))]))

/-- A slice; the nil slice is `null`. -/
def sliceJSON {α : Type} (f : α → Json) : Option (List α) → Json
  | some items => .array (items.map f)
  | none => .null

/-- The members in the order of the struct. -/
def bindingJSON (b : LlmContextBinding) : Json :=
  .object [("model", .string b.model), ("system_messages", sliceJSON messageJSON b.systemMessages),
    ("tools", sliceJSON toolJSON b.tools), ("runtime_revision", .string b.runtimeRevision)]

end

/-- What the standard library supplies: a hash, `%q`, and `time.RFC3339Nano` in the zone of the clock. -/
structure LlmPlatform where
  sha256 : List UInt8 → List UInt8
  quote : GoString → GoString
  formatTime : Time → GoString

def bindingFingerprint (pf : LlmPlatform) (b : LlmContextBinding) : GoString :=
  GoString.ofAscii (Hex.encode
    (pf.sha256 (GoString.bytes (GoString.ofChars (JsonValue.marshal jsonNumber (bindingJSON b))))))

/-! ### The store -/

/-- A nil map of operations supports none. -/
structure LlmContextStoreOptions where
  maxContextsPerPrincipal : UInt32 := 0
  defaultTTLSeconds : UInt32 := 0
  maxTTLSeconds : UInt32 := 0
  tombstoneSeconds : UInt32 := 0
  idempotencyTTL : Duration := 0
  supportedOperations : Option (LlmContextOperation → Bool) := none

def orDefault {α : Type} [DecidableEq α] [Zero α] (value default : α) : α :=
  if value = 0 then default else value

def standardOperations (operation : LlmContextOperation) : Bool :=
  operation ∈ [.create, .append, .fork, .reset, .release]

def LlmContextStoreOptions.withDefaults (o : LlmContextStoreOptions) : LlmContextStoreOptions where
  maxContextsPerPrincipal := orDefault o.maxContextsPerPrincipal 32
  defaultTTLSeconds := orDefault o.defaultTTLSeconds 3600
  maxTTLSeconds := orDefault o.maxTTLSeconds 3600
  tombstoneSeconds := orDefault o.tombstoneSeconds 86400
  idempotencyTTL := orDefault o.idempotencyTTL (24 * GoTime.hour)
  supportedOperations := some (o.supportedOperations.getD standardOperations)

structure LlmContextEntry where
  contextID : GoString
  owner : LlmContextOwner
  version : UInt64
  state : LlmContextState
  binding : LlmContextBinding
  bindingFingerprint : GoString
  transcript : List LlmMessageDto
  ttlSeconds : UInt32
  expiresAt : Option Time
  tombstoneUntil : Option Time := none
  /-- Empty while no reservation holds the context. -/
  reservationID : GoString := []
  deriving DecidableEq

inductive OutcomeState where
  | busy
  | completed
  | failed
  deriving DecidableEq

structure LlmIdempotencyEntry where
  state : OutcomeState
  retainUntil : Time
  requestID : GoString := []
  reservationID : GoString := []
  errorCode : GoString := []
  receipt : Option LlmContextReceiptDto := none
  contextID : GoString := []
  baseVersion : Option UInt64 := none
  deriving DecidableEq

structure InMemoryLlmContextStore where
  contexts : GoTable LlmContextEntry := ∅
  idempotency : GoTable LlmIdempotencyEntry := ∅
  reservations : GoTable LlmContextMutationReservation := ∅

def unitSeparator : GoString := [.char '\x1f']

def ownerKey (owner : LlmContextOwner) (action key : GoString) : GoString :=
  owner.nid ++ unitSeparator ++ owner.securityScope ++ unitSeparator ++ action ++ unitSeparator ++ key

def completionKey (request : LlmContextMutationRequest) : GoString :=
  ownerKey request.owner llmCompleteActionID request.idempotencyKey

def isLocatorRune : GoRune → Bool
  | .char c => c.isAlphanum || c = '_' || c = '-'
  | .byte _ => false

/-- 22 to 128 characters of base64url. -/
def isContextID (value : GoString) : Bool :=
  22 ≤ value.length && value.length ≤ 128 && value.all isLocatorRune

def validateContextID (value : GoString) : Except LlmContextStoreError Unit :=
  if isContextID value then .ok ()
  else .error (paramsInvalid "context_id must be a 22-128 character unpadded base64url locator")

/-- An empty text is left out of an answer. -/
def optionalString (value : GoString) : Option GoString := if value = [] then none else some value

variable (pf : LlmPlatform) (options : LlmContextStoreOptions)

def seconds (n : UInt32) : Duration := n.toNat * GoTime.second

namespace InMemoryLlmContextStore

/-! ### Sweeping -/

def expires (now : Time) (entry : LlmContextEntry) : Bool :=
  entry.state = .active && entry.reservationID = [] && entry.expiresAt.any (· ≤ now)

/-- A context that is not held expires in time and leaves a tombstone. -/
def expire (now : Time) (entry : LlmContextEntry) : LlmContextEntry :=
  if expires now entry then
    { entry with state := .expired, expiresAt := none,
                 tombstoneUntil := some (now + seconds options.tombstoneSeconds) }
  else entry

def elapsed (now : Time) (entry : LlmContextEntry) : Bool :=
  (entry.state = .expired || entry.state = .released) && entry.tombstoneUntil.any (· ≤ now)

def forgotten (now : Time) (outcome : LlmIdempotencyEntry) : Bool :=
  outcome.state ≠ .busy && outcome.retainUntil ≤ now

variable (s : InMemoryLlmContextStore) (owner : LlmContextOwner)

/-- The store after a sweep, and the number of changes. -/
def sweepLocked (now : Time) : InMemoryLlmContextStore × Nat :=
  let contexts := s.contexts.map fun _ entry => expire options now entry
  let kept := contexts.filter fun _ entry => !elapsed now entry
  let outcomes := s.idempotency.filter fun _ outcome => !forgotten now outcome
  ({ s with contexts := kept, idempotency := outcomes },
    (s.contexts.filter fun _ entry => expires now entry).size +
      (contexts.filter fun _ entry => elapsed now entry).size +
      (s.idempotency.filter fun _ outcome => forgotten now outcome).size)

def sweep (now : Time) : InMemoryLlmContextStore :=
  (s.sweepLocked options now).1

/-! ### Checks -/

variable (contextID : GoString)

def requireEntry : Except LlmContextStoreError LlmContextEntry :=
  match s.contexts[contextID]? with
  | some entry => .ok entry
  | none => .error notFound

def requireMutable : Except LlmContextStoreError LlmContextEntry :=
  match s.requireEntry contextID with
  | .error err => .error err
  | .ok entry =>
    if entry.owner ≠ owner then .error forbidden
    else if entry.state = .expired then
      .error (.store errLlmContextExpired "the context expired" (some entry.version))
    else if entry.state = .released then .error notFound
    else .ok entry

def ensureSupported (operation : LlmContextOperation) : Except LlmContextStoreError Unit :=
  if options.supportedOperations.any (· operation) then .ok ()
  else
    .error (.store errLlmContextOperationUnsupported
      ("context operation " ++ pf.quote operation.text ++ " is not advertised") none)

def live (entry : LlmContextEntry) : Bool :=
  entry.owner = owner && entry.state = .active

def allocates (operation : LlmContextOperation) : Bool := operation = .create || operation = .fork

def pending (reservation : LlmContextMutationReservation) : Bool :=
  reservation.request.owner = owner && allocates reservation.request.operation

def ensureAllocationAvailable : Except LlmContextStoreError Unit :=
  if options.maxContextsPerPrincipal.toNat ≤ (s.contexts.filter fun _ entry => live owner entry).size +
      (s.reservations.filter fun _ reservation => pending owner reservation).size then
    .error (.store errLlmContextLimitExceeded "the principal's live context limit has been reached" none)
  else .ok ()

def isSystem (message : LlmMessageDto) : Bool := message.role = "system"

variable (request : LlmContextMutationRequest)

def validateRequest : Except LlmContextStoreError Unit := do
  if request.operation = .release then throw (paramsInvalid "release uses the lifecycle action")
  if request.idempotencyKey = [] then
    throw (paramsInvalid "a stateful request requires idempotency_key")
  if request.ttlSeconds = some 0 then throw (paramsInvalid "ttl_seconds must be greater than zero")
  if request.operation = .create then
    if request.contextID.isSome || request.baseVersion.isSome then
      throw (paramsInvalid "create forbids context_id and base_version")
  else
    if request.contextID.isNone || request.baseVersion.isNone then
      throw (paramsInvalid "append/fork/reset require context_id and base_version")
    validateContextID (request.contextID.getD [])
  if request.operation ≠ .fork ∧ request.messages = [] then
    throw (paramsInvalid "only fork may carry an empty message delta")
  if (request.operation = .append ∨ request.operation = .fork) ∧ request.messages.any isSystem then
    throw (.store errLlmContextBindingMismatch "append/fork deltas must not contain system messages" none)

def clampTTL (value : UInt32) : UInt32 := min value options.maxTTLSeconds

/-- A fork inherits what is left of its parent's time, in seconds that are begun. -/
def effectiveTTL (entry : LlmContextEntry) (now : Time) : Option UInt32 :=
  match request.ttlSeconds with
  | some value => some (clampTTL options value)
  | none =>
    if request.operation = .fork then
      entry.expiresAt.map fun expiresAt =>
        let remaining := GoTime.sub expiresAt now
        UInt32.ofInt (max 1 (Int.tdiv ((remaining + GoTime.second - 1).bmod (2 ^ 64)) GoTime.second))
    else if entry.ttlSeconds = 0 then none
    else some entry.ttlSeconds

def newReservation (reservationID : GoString)
    (transcript : List LlmMessageDto) (ttl : Option UInt32) (parentID : Option GoString)
    (parentVersion : Option UInt64) : LlmContextMutationReservation where
  reservationID := reservationID
  request := request
  bindingFingerprint := bindingFingerprint pf request.binding
  baseTranscript := transcript
  effectiveTTLSeconds := ttl
  parentContextID := parentID
  parentVersion := parentVersion

def versionConflict (entry : LlmContextEntry) : LlmContextStoreError :=
  .store errLlmContextVersionConflict "the context version is stale or a mutation is running"
    (some entry.version)

/-! ### Reserving -/

/-- The readings of the clock in a call, in order; not every call takes all of them. -/
structure Readings where
  first : Time
  second : Time
  third : Time

/-- The reservation of a request for a context that is there. -/
def admitMutation (reservationID : GoString) (now : Time) (entry : LlmContextEntry) :
    Except LlmContextStoreError LlmContextMutationReservation := do
  if entry.reservationID ≠ [] ∨ some entry.version ≠ request.baseVersion then
    throw (versionConflict entry)
  if (request.operation = .append ∨ request.operation = .fork) ∧
      entry.bindingFingerprint ≠ bindingFingerprint pf request.binding then
    throw (.store errLlmContextBindingMismatch "the request binding differs from the retained binding" none)
  if request.operation = .fork then
    s.ensureAllocationAvailable options request.owner
  let forked := request.operation = .fork
  return newReservation pf request reservationID entry.transcript (effectiveTTL options request entry now)
    (if forked then some entry.contextID else none) (if forked then some entry.version else none)

/-- The reservation of a request, without its effect on the store. -/
def admission (reservationID : GoString)
    (now : Time) : Except LlmContextStoreError LlmContextMutationReservation := do
  validateRequest request
  ensureSupported pf options request.operation
  if (s.idempotency[completionKey request]?).isSome then
    throw (.store errActionIdempotencyConflict "an outcome already exists for this idempotency key" none)
  if request.operation = .create then
    s.ensureAllocationAvailable options request.owner
    let ttl := clampTTL options (request.ttlSeconds.getD options.defaultTTLSeconds)
    return newReservation pf request reservationID [] (some ttl) none none
  else
    let entry ← s.requireMutable request.owner (request.contextID.getD [])
    s.admitMutation pf options request reservationID now entry

/-- The reservation is stored, holds its context unless it makes a new one, and its key is busy. -/
def hold (reservation : LlmContextMutationReservation) (retainUntil : Time) : InMemoryLlmContextStore :=
  let request := reservation.request
  { contexts :=
      match request.contextID.bind (s.contexts[·]?) with
      | some entry =>
        if allocates request.operation then s.contexts
        else
          s.contexts.insert (request.contextID.getD [])
            { entry with reservationID := reservation.reservationID }
      | none => s.contexts
    reservations := s.reservations.insert reservation.reservationID reservation
    idempotency := s.idempotency.insert (completionKey request)
      { state := .busy, requestID := request.requestID, reservationID := reservation.reservationID,
        retainUntil := retainUntil } }

def reserve (reservationID : GoString)
    (clock : Readings) : Except LlmContextStoreError LlmContextMutationReservation × InMemoryLlmContextStore :=
  let s := s.sweep options clock.first
  match s.admission pf options request reservationID clock.second with
  | .error err => (.error err, s)
  | .ok reservation => (.ok reservation, s.hold reservation (clock.third + options.idempotencyTTL))

/-! ### Committing and aborting -/

/-- A reservation as a caller passes it: by the name it was given, either the very one or a copy. -/
structure ReservationRef where
  reservationID : GoString
  copied : Bool := false
  deriving DecidableEq

def requireReservation (reservation : Option ReservationRef) :
    Except LlmContextStoreError LlmContextMutationReservation :=
  match reservation with
  | none => .error (.plain "context reservation is nil")
  | some reservation =>
    match s.reservations[reservation.reservationID]? with
    | some current =>
      if reservation.copied then .error (.plain "context reservation is not active") else .ok current
    | none => .error (.plain "context reservation is not active")

/-- The answers of the factory are tried until one is not in use, eight at most. -/
def nextContextID (factory : Nat → Except GoString GoString) : Nat → Except LlmContextStoreError GoString
  | 0 => .error (.plain "context ID factory repeatedly produced collisions")
  | attempts + 1 =>
    match factory (8 - (attempts + 1)) with
    | .error err => .error (.plain err)
    | .ok value =>
      match validateContextID value with
      | .error err => .error err
      | .ok () =>
        match s.contexts[value]? with
        | none => .ok value
        | some _ => nextContextID factory attempts

/-- The entry a commit stores, and the key it stores it under. -/
def committed (current : LlmContextMutationReservation)
    (assistantResult : LlmMessageDto) (factory : Nat → Except GoString GoString) (expiry : Option Time) :
    Except LlmContextStoreError (GoString × LlmContextEntry) :=
  let request := current.request
  if allocates request.operation then
    match s.nextContextID factory 8 with
    | .error err => .error err
    | .ok contextID =>
      let base := if request.operation = .fork then current.baseTranscript else []
      .ok (contextID,
        { contextID := contextID, owner := request.owner, version := 1, state := .active,
          binding := request.binding, bindingFingerprint := current.bindingFingerprint,
          transcript := base ++ request.messages ++ [assistantResult],
          ttlSeconds := current.effectiveTTLSeconds.getD 0, expiresAt := expiry })
  else
    match s.requireEntry (request.contextID.getD []) with
    | .error err => .error err
    | .ok entry =>
      let entry :=
        { entry with version := entry.version + 1, state := .active, reservationID := [],
                     expiresAt := expiry, ttlSeconds := current.effectiveTTLSeconds.getD 0 }
      .ok (request.contextID.getD [],
        if request.operation = .reset then
          { entry with binding := request.binding, bindingFingerprint := current.bindingFingerprint,
                       transcript := request.messages ++ [assistantResult] }
        else { entry with transcript := entry.transcript ++ request.messages ++ [assistantResult] })

/-- The entry is stored, the reservation is gone and its outcome is completed. -/
def settle (current : LlmContextMutationReservation) (key : GoString)
    (entry : LlmContextEntry) (receipt : LlmContextReceiptDto) (retainUntil : Time) :
    InMemoryLlmContextStore where
  contexts := s.contexts.insert key entry
  idempotency := s.idempotency.insert (completionKey current.request)
    { state := .completed, requestID := current.request.requestID, receipt := some receipt,
      retainUntil := retainUntil }
  reservations := s.reservations.erase current.reservationID

def commit (reservation : Option ReservationRef)
    (assistantResult : LlmMessageDto) (factory : Nat → Except GoString GoString) (clock : Readings) :
    Except LlmContextStoreError LlmContextReceiptDto × InMemoryLlmContextStore :=
  match s.requireReservation reservation with
  | .error err => (.error err, s)
  | .ok current =>
    let expiry := current.effectiveTTLSeconds.map fun ttl => clock.first + seconds ttl
    match s.committed current assistantResult factory expiry with
    | .error err => (.error err, s)
    | .ok (key, entry) =>
      let receipt : LlmContextReceiptDto :=
        { contextID := entry.contextID, version := entry.version,
          operation := current.request.operation, state := .active,
          expiresAt := expiry.map pf.formatTime, parentContextID := current.parentContextID,
          parentVersion := current.parentVersion }
      (.ok receipt, s.settle current key entry receipt (clock.second + options.idempotencyTTL))

/-- The context is let go if it is held by this reservation. -/
def clearReservation (reservation : LlmContextMutationReservation) : GoTable LlmContextEntry :=
  match reservation.request.contextID with
  | none => s.contexts
  | some contextID =>
    match s.contexts[contextID]? with
    | none => s.contexts
    | some entry =>
      if entry.reservationID = reservation.reservationID then
        s.contexts.insert contextID { entry with reservationID := [] }
      else s.contexts

/-- The context is let go, the reservation is gone and its outcome is failed. -/
def drop (current : LlmContextMutationReservation) (errorCode : GoString)
    (retainUntil : Time) : InMemoryLlmContextStore where
  contexts := s.clearReservation current
  idempotency := s.idempotency.insert (completionKey current.request)
    { state := .failed, requestID := current.request.requestID, errorCode := errorCode,
      retainUntil := retainUntil }
  reservations := s.reservations.erase current.reservationID

def abort (reservation : Option ReservationRef) (errorCode : GoString)
    (clock : Readings) : Except LlmContextStoreError Unit × InMemoryLlmContextStore :=
  match s.requireReservation reservation with
  | .error err => (.error err, s)
  | .ok current =>
    (.ok (), (s.drop current errorCode (clock.first + options.idempotencyTTL)).sweep options clock.second)

/-! ### Releasing -/

/-- The receipt of an earlier release of the same context at the same version. -/
def replayed (prior : LlmIdempotencyEntry) (contextID : GoString) (baseVersion : UInt64) :
    Option LlmContextReceiptDto :=
  if prior.state = .completed ∧ prior.contextID = contextID ∧ prior.baseVersion = some baseVersion then
    prior.receipt
  else none

/-- The entry and its new version are a tombstone, and the outcome is completed. -/
def retire (key contextID : GoString) (entry : LlmContextEntry)
    (baseVersion : UInt64) (receipt : LlmContextReceiptDto) (tombstoneUntil retainUntil : Time) :
    InMemoryLlmContextStore :=
  { s with
    contexts := s.contexts.insert contextID
      { entry with version := entry.version + 1, state := .released, expiresAt := none,
                   tombstoneUntil := some tombstoneUntil }
    idempotency := s.idempotency.insert key
      { state := .completed, receipt := some receipt, contextID := contextID,
        baseVersion := some baseVersion, retainUntil := retainUntil } }

def releaseLocked (baseVersion : UInt64) (idempotencyKey : GoString) (clock : Readings) :
    Except LlmContextStoreError (LlmContextReceiptDto × InMemoryLlmContextStore) := do
  ensureSupported pf options .release
  validateContextID contextID
  if idempotencyKey = [] then throw (paramsInvalid "release requires idempotency_key")
  let key := ownerKey owner llmContextReleaseActionID idempotencyKey
  match s.idempotency[key]? with
  | some prior =>
    match replayed prior contextID baseVersion with
    | some receipt => return (receipt, s)
    | none =>
      throw (.store errActionIdempotencyConflict "a release with this idempotency key already exists"
        none)
  | none =>
    let entry ← s.requireMutable owner contextID
    if entry.reservationID ≠ [] ∨ entry.version ≠ baseVersion then throw (versionConflict entry)
    let receipt : LlmContextReceiptDto :=
      { contextID := contextID, version := entry.version + 1, operation := .release, state := .released }
    return (receipt, s.retire key contextID entry baseVersion receipt
      (clock.second + seconds options.tombstoneSeconds) (clock.third + options.idempotencyTTL))

def release (baseVersion : UInt64) (idempotencyKey : GoString) (clock : Readings) :
    Except LlmContextStoreError LlmContextReceiptDto × InMemoryLlmContextStore :=
  let s := s.sweep options clock.first
  match s.releaseLocked pf options owner contextID baseVersion idempotencyKey clock with
  | .error err => (.error err, s)
  | .ok (receipt, s) => (.ok receipt, s)

/-! ### Reading -/

def statusOfEntry (entry : LlmContextEntry) : LlmContextStatusDto where
  state := if entry.reservationID ≠ [] then .busy else entry.state
  contextID := some entry.contextID
  version := some entry.version
  requestID :=
    if entry.reservationID ≠ [] then
      (s.reservations[entry.reservationID]?).bind fun r => optionalString r.request.requestID
    else none
  expiresAt := entry.expiresAt.map pf.formatTime

def statusByContextLocked : Except LlmContextStoreError LlmContextStatusDto :=
  match validateContextID contextID with
  | .error err => .error err
  | .ok () =>
    match s.contexts[contextID]? with
    | none => .error notFound
    | some entry => if entry.owner ≠ owner then .error forbidden else .ok (s.statusOfEntry pf entry)

def statusFromReceiptLocked (receipt : LlmContextReceiptDto) : Except LlmContextStoreError LlmContextStatusDto :=
  match s.contexts[receipt.contextID]? with
  | some _ => s.statusByContextLocked pf owner receipt.contextID
  | none =>
    .ok { state := receipt.state, contextID := some receipt.contextID, version := some receipt.version,
          expiresAt := receipt.expiresAt }

/-- The status of an outcome; one that is completed has its receipt. -/
def statusOfOutcome (outcome : LlmIdempotencyEntry) : Except LlmContextStoreError LlmContextStatusDto :=
  match outcome.state with
  | .busy => .ok { state := .busy, requestID := optionalString outcome.requestID }
  | .failed =>
    .ok { state := .failed, requestID := optionalString outcome.requestID,
          errorCode := optionalString outcome.errorCode }
  | .completed =>
    match outcome.receipt with
    | some receipt => s.statusFromReceiptLocked pf owner receipt
    | none => .error (.plain "runtime error: invalid memory address or nil pointer dereference")

def statusLocked (contextID idempotencyKey : Option GoString) : Except LlmContextStoreError LlmContextStatusDto :=
  match contextID, idempotencyKey with
  | none, some key =>
    match s.idempotency[ownerKey owner llmCompleteActionID key]? with
    | none => .error notFound
    | some outcome => s.statusOfOutcome pf owner outcome
  | some contextID, none => s.statusByContextLocked pf owner contextID
  | _, _ => .error (paramsInvalid "status requires exactly one locator")

def status (contextID idempotencyKey : Option GoString) (now : Time) :
    Except LlmContextStoreError LlmContextStatusDto × InMemoryLlmContextStore :=
  let s := s.sweep options now
  (s.statusLocked pf owner contextID idempotencyKey, s)

def snapshotLocked : Except LlmContextStoreError LlmContextSnapshot :=
  match s.requireMutable owner contextID with
  | .error err => .error err
  | .ok entry =>
    .ok { contextID := entry.contextID, version := entry.version, state := entry.state,
          transcript := entry.transcript, binding := entry.binding, expiresAt := entry.expiresAt }

def snapshot (now : Time) : Except LlmContextStoreError LlmContextSnapshot × InMemoryLlmContextStore :=
  let s := s.sweep options now
  (s.snapshotLocked owner contextID, s)

/-! ### Calls -/

inductive Event where
  | reserve (request : LlmContextMutationRequest) (reservationID : GoString) (clock : Readings)
  | commit (reservation : Option ReservationRef) (assistantResult : LlmMessageDto)
      (factory : Nat → Except GoString GoString) (clock : Readings)
  | abort (reservation : Option ReservationRef) (errorCode : GoString) (clock : Readings)
  | release (owner : LlmContextOwner) (contextID : GoString) (baseVersion : UInt64)
      (idempotencyKey : GoString) (clock : Readings)
  | status (owner : LlmContextOwner) (contextID idempotencyKey : Option GoString) (now : Time)
  | snapshot (owner : LlmContextOwner) (contextID : GoString) (now : Time)
  | sweepExpired (now : Time)

inductive Answer where
  | reservation (reservation : LlmContextMutationReservation)
  | receipt (receipt : LlmContextReceiptDto)
  | aborted
  | status (status : LlmContextStatusDto)
  | snapshot (snapshot : LlmContextSnapshot)
  | swept (changed : Nat)
  deriving DecidableEq

def answered {α : Type} (f : α → Answer) (result : Except LlmContextStoreError α × InMemoryLlmContextStore) :
    Except LlmContextStoreError Answer × InMemoryLlmContextStore :=
  (result.1.map f, result.2)

def call : Event → Except LlmContextStoreError Answer × InMemoryLlmContextStore
  | .reserve request reservationID clock =>
    answered .reservation (s.reserve pf options request reservationID clock)
  | .commit reservation assistantResult factory clock =>
    answered .receipt (s.commit pf options reservation assistantResult factory clock)
  | .abort reservation errorCode clock =>
    answered (fun _ => .aborted) (s.abort options reservation errorCode clock)
  | .release owner contextID baseVersion idempotencyKey clock =>
    answered .receipt (s.release pf options owner contextID baseVersion idempotencyKey clock)
  | .status owner contextID idempotencyKey now =>
    answered .status (s.status pf options owner contextID idempotencyKey now)
  | .snapshot owner contextID now => answered .snapshot (s.snapshot options owner contextID now)
  | .sweepExpired now => (.ok (.swept (s.sweepLocked options now).2), s.sweep options now)

/-- Every call is possible in every state. -/
def step (event : Event) : Option InMemoryLlmContextStore :=
  some (s.call pf options event).2

end InMemoryLlmContextStore

end NpsSdk.Nwp
