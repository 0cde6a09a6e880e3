import Residue.Basic

/-!
# `processRequest` and `isRequestAllowed`

The per-request half of `LogRequestHandler` (lines 198–268 and 291–321): how a client is
resolved for a request, when the checks are bypassed, and what a dispatched request has been
checked for. The side effect `updateUnknownLoggerUserFromRequest` only records a user for an
unknown logger, which nothing here reads, and is left out.

`processRequest_dispatched` is the one inversion lemma for the function; everything later
cites it (and `processRequest_client`) instead of unfolding.
-/

namespace Residue

variable (cfg : Configuration)

/-- `LogRequestHandler::isRequestAllowed`: the logger is known (or unknown loggers are
allowed), is not the server's own, is not blacklisted, and the client's token for it is
valid when the request was received. -/
def isRequestAllowed (w : Server) (request : LogRequest) : Bool :=
  match request.client with
  | none => false
  | some c =>
    (cfg.hasFlag .allowUnknownLoggers || cfg.isKnownLogger request.loggerId) &&
      request.loggerId != residueLoggerId &&
      !cfg.isBlacklisted request.loggerId &&
      c.client.isValidToken cfg request.loggerId request.token w request.dateReceived

/-- The guard of lines 210–216: a request with no client attached is looked up by its
`client_id` only when plain log requests are allowed, for the server and for its logger
(an unknown logger counts as allowing them when unknown loggers are). -/
def allowsPlainLookup (request : LogRequest) : Bool :=
  cfg.hasFlag .allowPlainLogRequest &&
    (cfg.hasLoggerFlag request.loggerId .allowPlainLogRequest ||
      (!cfg.isKnownLogger request.loggerId && cfg.hasFlag .allowUnknownLoggers)) &&
    !request.clientId.isEmpty

/-- Lines 207–222: the client the caller holds, else the request's own, else for a plain
request the registered client of its `client_id`. -/
def resolveClient (w : Server) (request : LogRequest) (held : Option ClientPtr) :
    Option ClientPtr :=
  match held, request.client with
  | some c, _ => some c
  | none, some c => some c
  | none, none =>
    if allowsPlainLookup cfg request then w.findClient request.clientId else none

/-- `bypassChecks` (line 201): the caller holds a client and does not force the checks.
`clientRef = none` is a null `clientRef`. -/
def bypassChecks (clientRef : Option (Option ClientPtr)) (forceCheck : Bool) : Bool :=
  !forceCheck && clientRef.join.isSome

/-- Lines 242–243: `setClientId(client->id())` and `setClient(client)`. -/
def LogRequest.withClient (r : LogRequest) (c : ClientPtr) : LogRequest :=
  { r with clientId := c.client.id, client := some c }

/-- What `processRequest` returns: the client it resolved, which is also what it stores in
`*clientRef`, and the request it passed to `dispatch` (`none` when it returned `false`). -/
structure ProcessResult where
  client : Option ClientPtr
  dispatched : Option LogRequest
deriving DecidableEq, Repr

/-- Lines 236–267, once a client `c` is resolved: the request with `c` attached, if it is
dispatched. -/
def processResolved (w : Server) (request : LogRequest) (c : ClientPtr) (bypass : Bool) :
    Option LogRequest :=
  if !bypass && !c.client.isAlive request.dateReceived then none
  else
    let request := request.withClient c
    if request.isValid then
      if !bypass && !isRequestAllowed cfg w request then none
      else some request
    else none

/-- `LogRequestHandler::processRequest`. -/
def processRequest (w : Server) (request : LogRequest) (clientRef : Option (Option ClientPtr))
    (forceCheck : Bool) : ProcessResult :=
  match resolveClient cfg w request clientRef.join with
  | none => ⟨none, none⟩
  | some c => ⟨some c, processResolved cfg w request c (bypassChecks clientRef forceCheck)⟩

/-! ## Small lemmas -/

section
variable {r : LogRequest} {c : ClientPtr}

@[simp] theorem withClient_client : (r.withClient c).client = some c := rfl
@[simp] theorem withClient_clientId : (r.withClient c).clientId = c.client.id := rfl
@[simp] theorem withClient_loggerId : (r.withClient c).loggerId = r.loggerId := rfl
@[simp] theorem withClient_token : (r.withClient c).token = r.token := rfl
@[simp] theorem withClient_dateReceived : (r.withClient c).dateReceived = r.dateReceived := rfl
@[simp] theorem withClient_ipAddr : (r.withClient c).ipAddr = r.ipAddr := rfl
@[simp] theorem withClient_isValid : (r.withClient c).isValid = r.isValid := rfl
@[simp] theorem withClient_msg : (r.withClient c).msg = r.msg := rfl

end

@[simp] theorem bypassChecks_true {ref : Option (Option ClientPtr)} :
    bypassChecks ref true = false := rfl

@[simp] theorem resolveClient_held {w : Server} {r : LogRequest} {c : ClientPtr} :
    resolveClient cfg w r (some c) = some c := rfl

theorem isRequestAllowed_withClient {w : Server} {r : LogRequest} {c : ClientPtr} :
    isRequestAllowed cfg w (r.withClient c) =
      ((cfg.hasFlag .allowUnknownLoggers || cfg.isKnownLogger r.loggerId) &&
        r.loggerId != residueLoggerId && !cfg.isBlacklisted r.loggerId &&
        c.client.isValidToken cfg r.loggerId r.token w r.dateReceived) := rfl

/-- A client `processRequest` finds without one held or attached was looked up by id, under
the plain-request guard, and is fresh. -/
theorem resolveClient_lookup {w : Server} {r : LogRequest} {c : ClientPtr}
    (hr : r.client = none) (h : resolveClient cfg w r none = some c) :
    allowsPlainLookup cfg r = true ∧ w.findClient r.clientId = some c := by
  simp only [resolveClient, hr] at h
  split at h
  · exact ⟨‹_›, h⟩
  · cases h

/-- The client `processRequest` stores in `*clientRef` is the one it resolved. -/
theorem processRequest_client {w : Server} {r : LogRequest} {ref : Option (Option ClientPtr)}
    {f : Bool} :
    (processRequest cfg w r ref f).client = resolveClient cfg w r ref.join := by
  unfold processRequest
  split <;> simp_all

theorem processResolved_eq_some {w : Server} {r d : LogRequest} {c : ClientPtr} {b : Bool} :
    processResolved cfg w r c b = some d ↔
      r.isValid = true ∧
        (b = true ∨ (c.client.isAlive r.dateReceived = true ∧
          isRequestAllowed cfg w (r.withClient c) = true)) ∧
        r.withClient c = d := by
  unfold processResolved
  cases b <;> cases ha : c.client.isAlive r.dateReceived <;> cases hv : r.isValid <;>
    cases hal : isRequestAllowed cfg w (r.withClient c) <;> simp [ha, hv, hal]

/-- **Inversion of `processRequest`.** A request is dispatched exactly when a client was
resolved, the request is valid, and either the checks were bypassed or the client is alive
at `dateReceived` and `isRequestAllowed` holds; what is dispatched is the request with that
client attached. -/
theorem processRequest_dispatched {w : Server} {r d : LogRequest}
    {ref : Option (Option ClientPtr)} {f : Bool} :
    (processRequest cfg w r ref f).dispatched = some d ↔
      ∃ c, resolveClient cfg w r ref.join = some c ∧ r.isValid = true ∧
        (bypassChecks ref f = true ∨
          (c.client.isAlive r.dateReceived = true ∧
            isRequestAllowed cfg w (r.withClient c) = true)) ∧
        r.withClient c = d := by
  unfold processRequest
  split <;> simp_all [processResolved_eq_some]

theorem processRequest_of_resolved {w : Server} {r : LogRequest} {ref : Option (Option ClientPtr)}
    {f : Bool} {c : ClientPtr} (h : resolveClient cfg w r ref.join = some c) :
    processRequest cfg w r ref f = ⟨some c, processResolved cfg w r c (bypassChecks ref f)⟩ := by
  unfold processRequest
  rw [h]

/-- A dispatched request carries the client `processRequest` resolved. -/
theorem dispatched_client {w : Server} {r d : LogRequest} {ref : Option (Option ClientPtr)}
    {f : Bool} (h : (processRequest cfg w r ref f).dispatched = some d) :
    d.client = (processRequest cfg w r ref f).client := by
  obtain ⟨c, hc, -, -, rfl⟩ := (processRequest_dispatched cfg).1 h
  rw [processRequest_client, hc, withClient_client]

end Residue
