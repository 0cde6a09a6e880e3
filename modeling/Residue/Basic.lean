import Mathlib.Data.List.Basic

/-!
# Residue: the data the log dispatcher reads

The values `LogRequestHandler` (`src/logging/log-request-handler.cc`) works on: the
configuration it queries, the clients and tokens of the registry, the integrity task, the
fields of a `LogRequest`, and the request queue.

`Configuration`, `Client`, `Registry`, `ClientIntegrityTask`, `RequestQueue` and `LogRequest`
are declared in files that are not among the sources. The configuration is taken as any answer
to the queries the handler makes; clients, tokens, the integrity task and the queue follow
the spec (§3, §4.3, §4.4, §4.6, §4.9), and say so in their docstrings.

A `Client*` is modelled as the client it points to together with the number of registry
sweeps that had happened when the registry handed it out (`ClientPtr.generation`): a sweep
may free any client it evicts, so a pointer is only safe to read while no sweep has happened
since.
-/

namespace Residue

/-- `RESIDUE_LOGGER_ID` (`log.h`): the server's own logger, never writable by clients. -/
def residueLoggerId : String := "residue"

/-- The `Configuration::Flag` values the handler tests. -/
inductive Flag
  | allowPlainLogRequest
  | allowBulkLogRequest
  | allowUnknownLoggers
  | compression
deriving DecidableEq, Repr

/-- The queries `LogRequestHandler` makes of `m_registry->configuration()`. The class is not
in the sources, so a configuration is any answer to them. -/
structure Configuration where
  hasFlag : Flag → Bool
  hasLoggerFlag : String → Flag → Bool
  isKnownLogger : String → Bool
  isBlacklisted : String → Bool
  /-- Modelled from the spec (§4.8): a logger "configured as not requiring tokens" answers
  `false`. -/
  requiresToken : String → Bool
  maxItemsInBulk : Nat

/-! ## Clients and tokens -/

/-- Modelled from the spec (§3): a client session, with the fields the handler reads. -/
structure Client where
  id : String
  dateCreated : Nat
  age : Nat
  isKnown : Bool
deriving DecidableEq, Repr

/-- Modelled from the spec (§3): `isAlive(now) == dateCreated + age > now`. -/
def Client.isAlive (c : Client) (compareTo : Nat) : Bool :=
  decide (compareTo < c.dateCreated + c.age)

/-- Modelled from the spec (§3): a token of one client for one logger; `life = 0` never
expires. -/
structure Token where
  clientId : String
  loggerId : String
  value : String
  issuedAt : Nat
  life : Nat
deriving DecidableEq, Repr

/-- Modelled from the spec (§3): `isValid(now) == issuedAt + lifeSeconds > now`. -/
def Token.isValid (t : Token) (compareTo : Nat) : Bool :=
  t.life == 0 || decide (compareTo < t.issuedAt + t.life)

/-- Where the integrity task's thread is in an execution: between executions, or past
`registry.sweep(now)`, or past `tokenStore.sweepExpired(now)` as well, with the `now` it
read. -/
inductive Execution
  | idle
  | registrySwept (now : Nat)
  | tokensSwept (now : Nat)
deriving DecidableEq, Repr

/-- Modelled from the spec (§4.9): `ClientIntegrityTask`, of which the handler reads only the
time of the last execution. -/
structure ClientIntegrityTask where
  lastExecution : Nat
  execution : Execution
deriving DecidableEq, Repr

/-- The state the dispatcher thread shares with the other threads: the clock `Utils::now()`,
the registry's clients and token store, and its integrity task (`nullptr` is `none`).
`sweeps` counts the registry sweeps so far; the code has no such counter, it is what a
pointer's `generation` is compared with. -/
structure Server where
  now : Nat
  clients : List Client
  tokens : List Token
  clientIntegrityTask : Option ClientIntegrityTask
  sweeps : Nat
deriving DecidableEq, Repr

/-- A `Client*`: the client and the sweep count when the registry handed it out. -/
structure ClientPtr where
  client : Client
  generation : Nat
deriving DecidableEq, Repr

/-- Modelled from the spec (§4.3): `Registry::findClient`, a fresh pointer to the registered
client of that id. -/
def Server.findClient (w : Server) (clientId : String) : Option ClientPtr :=
  (w.clients.find? fun c => c.id == clientId).map fun c => ⟨c, w.sweeps⟩

/-- Modelled from the spec (§4.4, §4.8): `Client::isValidToken`, the stored token of this
client for the logger matches and is valid at `compareTo`, unless the logger needs none. -/
def Client.isValidToken (cfg : Configuration) (c : Client) (loggerId token : String)
    (w : Server) (compareTo : Nat) : Bool :=
  !cfg.requiresToken loggerId ||
    (w.tokens.find? fun t => t.clientId == c.id && t.loggerId == loggerId).any
      fun t => t.value == token && t.isValid compareTo

/-- Modelled from the spec (§4.9): the next statement of `ClientIntegrityTask::execute`, each
taken under its own lock: `registry.sweep(now)` drops (and frees) the clients dead at `now`,
`tokenStore.sweepExpired(now)` the tokens expired at that same `now`, and only then
`lastExecution = now`. -/
def Server.integrityStep (w : Server) : Server :=
  match w.clientIntegrityTask with
  | none => w
  | some t =>
    match t.execution with
    | .idle => { w with clients := w.clients.filter (·.isAlive w.now), sweeps := w.sweeps + 1,
                        clientIntegrityTask := some { t with execution := .registrySwept w.now } }
    | .registrySwept now => { w with tokens := w.tokens.filter (·.isValid now),
                                     clientIntegrityTask := some { t with execution := .tokensSwept now } }
    | .tokensSwept now => { w with clientIntegrityTask := some ⟨now, .idle⟩ }

/-- A whole execution of the integrity task with no other thread stepping in between. -/
def Server.execute (w : Server) : Server := w.integrityStep.integrityStep.integrityStep

theorem findClient_generation {w : Server} {id : String} {p : ClientPtr}
    (h : w.findClient id = some p) : p.generation = w.sweeps ∧ p.client.id = id := by
  simp only [Server.findClient, Option.map_eq_some'] at h
  obtain ⟨c, hc, rfl⟩ := h
  exact ⟨rfl, by simpa using List.find?_some hc⟩

/-! ## Requests -/

/-- `Request::StatusCode`. -/
inductive StatusCode
  | statusOk
  | badRequest
  | continue
deriving DecidableEq, Repr

/-- The fields of a `LogRequest` the handler reads or writes; `isValid` is what
`deserialize` decided. -/
structure LogRequest where
  loggerId : String
  msg : String
  token : String
  clientId : String
  client : Option ClientPtr
  ipAddr : String
  dateReceived : Nat
  isValid : Bool
deriving DecidableEq, Repr

/-- What `RequestHandler::handle` (not in the sources) leaves in the request it fills:
the envelope (with the client it was decrypted for, if any), the status, and for a JSON
array the items as `LogRequest::deserialize` makes them. -/
structure Decoded where
  request : LogRequest
  statusCode : StatusCode
  bulk : Option (List LogRequest)
deriving DecidableEq, Repr

/-- The line `dispatch` writes: the message under its logger, with `%client_id` and `%ip`
bound to the request's. -/
structure LogLine where
  loggerId : String
  msg : String
  clientId : String
  ipAddr : String
deriving DecidableEq, Repr

/-- `LogRequestHandler::dispatch`, as far as what reaches the log file. -/
def LogRequest.line (r : LogRequest) : LogLine := ⟨r.loggerId, r.msg, r.clientId, r.ipAddr⟩

/-! ## The request queue -/

/-- Modelled from the spec (§4.6): `m_queue`, the dual-buffer request queue. `push` appends to
`backlog` under the queue lock; `size` and `pull` act on `queue`; `switchContext` swaps the
buffers. -/
structure RequestQueue (α : Type) where
  queue : List α
  backlog : List α
deriving DecidableEq, Repr

namespace RequestQueue

variable {α : Type} (q : RequestQueue α)

def empty : RequestQueue α := ⟨[], []⟩

def push (a : α) : RequestQueue α := { q with backlog := q.backlog ++ [a] }

def size : Nat := q.queue.length

/-- `pull()`: the head of the buffer being drained; `none` on an empty buffer, where the
code has no defined behaviour. -/
def pull : Option (α × RequestQueue α) :=
  match q.queue with
  | [] => none
  | a :: rest => some (a, { q with queue := rest })

def switchContext : RequestQueue α := ⟨q.backlog, q.queue⟩

@[simp] theorem push_queue (a : α) : (q.push a).queue = q.queue := rfl
@[simp] theorem push_backlog (a : α) : (q.push a).backlog = q.backlog ++ [a] := rfl
@[simp] theorem switchContext_queue : q.switchContext.queue = q.backlog := rfl
@[simp] theorem switchContext_backlog : q.switchContext.backlog = q.queue := rfl

theorem pull_eq_some {a : α} {q' : RequestQueue α} (h : q.pull = some (a, q')) :
    q.queue = a :: q'.queue ∧ q'.backlog = q.backlog := by
  unfold pull at h
  split at h
  · cases h
  · cases h; exact ⟨‹_›, rfl⟩

theorem pull_isSome (h : q.queue ≠ []) : q.pull.isSome := by
  unfold pull; split <;> simp_all

end RequestQueue

end Residue
