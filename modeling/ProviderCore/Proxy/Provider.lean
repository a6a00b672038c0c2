import ProviderCore.Routing.Router

/-!
# Requests and errors at the provider interface

A payload is known by what it parses to, and is `none` when it is no JSON.  Of a request's metadata
only what the drivers read is kept; an error keeps its kind, its message and its failover reason.
-/

namespace ProviderCore

abbrev Bytes := List UInt8

inductive ProviderErrorKind
  | invalidRequest
  | authentication
  | rateLimited
  | capacity
  | upstream
  | internal
deriving DecidableEq

structure ProviderError where
  kind : ProviderErrorKind
  message : String
  failoverReason : Option Routing.ProviderFailoverReason := none
deriving DecidableEq

structure RequestMetadata where
  sessionId : Option String := none
  /-- The tenant-isolated session key; never forwarded. -/
  routingSessionId : Option String := none
  /-- The caller's scope, from the authenticated key. -/
  routingScope : Option String := none
  previousResponseId : Option String := none
deriving DecidableEq

structure ProviderRequest where
  format : Routing.WireFormat
  model : String
  payload : Option Json
  metadata : RequestMetadata

end ProviderCore
