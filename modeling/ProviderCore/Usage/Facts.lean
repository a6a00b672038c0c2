import ProviderCore.Usage.Cost

/-!
# Facts about requests and attempts

The status vocabulary of `provider-usage/src/attempt.rs` and `lifecycle.rs` and the records of
`repository.rs` that the tracker builds and a repository stores.  Times are wall-clock
milliseconds.
-/

namespace ProviderCore.Usage

/-! ## Attempts (`attempt.rs`) -/

/-- Evidence that an attempt reached the upstream. -/
inductive DispatchEvidence
  | notInvoked
  | dispatchInvoked
  | responseObserved
deriving DecidableEq

def DispatchEvidence.isConfirmedDispatch : DispatchEvidence → Bool
  | .dispatchInvoked | .responseObserved => true
  | .notInvoked => false

inductive LogicalStatus
  | inProgress
  | succeeded
  | failed
  | canceled
  | incomplete
deriving DecidableEq

inductive TrackingGapReason
  | writeFailed
  | writerSaturated
  | recoveredInFlight
  | ambiguousCancel
  | observationLost
deriving DecidableEq

inductive TrackingState
  | complete
  | gap (reason : TrackingGapReason)
deriving DecidableEq

/-! ## The terminal merge (`lifecycle.rs`) -/

inductive ExecutionOutcome
  | stableSuccessTerminal
  | stableFailure
  | translatorOrStreamError
  | eofWithoutSuccessTerminal
  | recoveredOldRunActive
deriving DecidableEq

inductive DeliveryOutcome
  | cleanEof
  | clientDrop
  | errorBeforeBytes
  | errorAfterBytes
  | unknown
deriving DecidableEq

/-- Combine an execution and a delivery outcome into the logical terminal. -/
def mergeLogicalTerminal (execution : ExecutionOutcome) (delivery : DeliveryOutcome) :
    LogicalStatus :=
  match delivery with
  | .clientDrop =>
    match execution with
    | .stableSuccessTerminal => .succeeded
    | _ => .canceled
  | .errorBeforeBytes => .failed
  | .cleanEof | .errorAfterBytes | .unknown =>
    match execution with
    | .stableSuccessTerminal => if delivery = .cleanEof then .succeeded else .incomplete
    | .stableFailure => .failed
    | .translatorOrStreamError | .eofWithoutSuccessTerminal | .recoveredOldRunActive => .incomplete

/-! ## Records (`repository.rs`) -/

/-- The protocol of the public endpoint a request came in on. -/
inductive EndpointProtocol
  | responses
  | chatCompletions
  | messages
deriving DecidableEq

def EndpointProtocol.asStr : EndpointProtocol → String
  | .responses => "openai_responses"
  | .chatCompletions => "openai_chat_completions"
  | .messages => "claude_messages"

/-- Identity and routing snapshot written right after authentication. -/
structure LogicalRequestStart where
  requestId : String
  ownerUserId : String
  apiKeyId : Option String
  apiKeyLabel : Option String
  apiKeyGroupLabels : Option (List String)
  endpoint : Option EndpointProtocol
  clientModelRaw : Option String
  routingModel : Option String
  reasoningEffort : Option String
  startedAtMs : ℤ
deriving DecidableEq

structure LogicalRequestTerminal where
  requestId : String
  completedAtMs : ℤ
  status : LogicalStatus
  execution : Option ExecutionOutcome
  delivery : Option DeliveryOutcome
  finalAttemptId : Option String
  tracking : TrackingState
  stateVersion : ℕ
deriving DecidableEq

inductive LogicalWriteOutcome
  | written
  | missingRequest
  | alreadyKnown
deriving DecidableEq

inductive AttemptOutcome
  | succeeded
  | failed
  | cancelled
deriving DecidableEq

inductive AttemptFailoverReason
  | authenticationExhausted
  | quotaExhausted
  | rateLimited
  | capacityExhausted
  | preconnectFailure
deriving DecidableEq

/-- One attempt's complete facts, written once after its response ended. -/
structure AttemptFacts where
  attemptId : String
  logicalRequestId : String
  sequence : U32
  provider : ProviderKind
  accountId : String
  credentialIdentityRevision : U64
  configuredModel : Option String
  providerReportedModel : Option String
  startedAtMs : ℤ
  firstTokenAtMs : Option ℤ
  completedAtMs : ℤ
  outcome : Option AttemptOutcome
  failoverReason : Option AttemptFailoverReason
  dispatchEvidence : DispatchEvidence
  tracking : TrackingState
  contract : UsageContractSnapshot
  observation : ProviderUsageObservation
  price : PriceResolution
  cost : ObservedCatalogCost
deriving DecidableEq

/-- Terminal result for a finite-quota accounting claim; an absent cost releases the claim. -/
structure QuotaLedgerEntry where
  entryId : String
  apiKeyId : String
  dispatched : Bool
  costAtoms : Option String
  resolvedAtMs : ℤ
  attempts : List AttemptFacts
deriving DecidableEq

end ProviderCore.Usage
