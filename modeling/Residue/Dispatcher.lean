import Residue.Bulk

/-!
# The dispatcher among the other threads

The server as a state machine: session threads push raw requests (`handle`), the integrity
task sweeps the registry and the token store and then records the time, the clock advances,
connection and token handlers add clients and tokens, and the one dispatcher thread runs
`processRequestQueue` step by step. Any interleaving of these is a run; `Reachable` is every
state and history a run can produce.

A dispatcher step is at most one `pull()`, one head of the bulk loop, one call of
`processRequest`, or the `switchContext()` that ends a round. Each step records at most one
`Label`, so a run's history is the sequence of what the threads did. `DispatchStep` says
once what a dispatcher step can do; every later proof cases on it.

`RequestHandler::handle`, which decrypts and decodes a pulled request, is not among the
sources; it is the parameter `decode`, any function of the server state and the raw
request.
-/

namespace Residue

/-- Where the dispatcher thread is in `processRequestQueue` (lines 83–196): between rounds
(`sleep_for(100 ms)`); at the test `i < total` with `left = total - i` pulls due; before
`processRequest(&request, nullptr, true)` for a single request; at the head of the bulk loop
of `envelope` with the items still to go and the loop's locals; or at the call of line 151
for the item `request`. -/
inductive Phase
  | idle
  | round (left : Nat)
  | single (left : Nat) (request : LogRequest)
  | bulk (left : Nat) (envelope : LogRequest) (items : List LogRequest) (s : BulkState)
  | bulkProcess (left : Nat) (envelope : LogRequest) (items : List LogRequest) (s : BulkState)
      (request : LogRequest)
deriving DecidableEq, Repr

/-- The pulls still due in the current round, if the dispatcher is in one. -/
def Phase.left : Phase → Option Nat
  | .idle => none
  | .round left | .single left _ | .bulk left _ _ _ | .bulkProcess left _ _ _ _ => some left

/-- The queue, the shared server state and the dispatcher. -/
structure System (ρ : Type) where
  queue : RequestQueue ρ
  server : Server
  phase : Phase
deriving DecidableEq, Repr

/-- A step of one of the threads: a session thread's `LogRequestHandler::handle`, the
integrity task's next statement, a second passing, a connection or token handler adding a
client or a token, or the dispatcher's next step. -/
inductive Action (ρ : Type)
  | handle (r : ρ)
  | integrity
  | tick
  | connect (c : Client)
  | issue (t : Token)
  | dispatch

/-- What a step did, as far as the properties below look: `call w c` is a call of
`processRequest` with arguments `c` at server state `w`, and `integrity` a registry sweep. -/
inductive Label (ρ : Type)
  | push (r : ρ)
  | pull (r : ρ)
  | integrity
  | call (w : Server) (call : Call)
  | switchContext
deriving DecidableEq, Repr

/-- Modelled from the spec (§4.3): `add(Client)`, insert or replace. -/
def Server.connect (w : Server) (c : Client) : Server :=
  { w with clients := c :: w.clients.filter (·.id != c.id) }

/-- Modelled from the spec (§4.4): `issue`, replacing the token of the same client and
logger. -/
def Server.issue (w : Server) (t : Token) : Server :=
  { w with tokens := t :: w.tokens.filter fun u => !(u.clientId == t.clientId &&
                                                     u.loggerId == t.loggerId) }

variable {ρ : Type} (cfg : Configuration) (decode : Server → ρ → Decoded)

/-- Lines 105–178 after `raw` is pulled: the phase the dispatcher goes to. A request that
fails to decode ends the round (`return` at line 114). A single request gets its client's
id (lines 171–173). -/
def afterPull (w : Server) (left : Nat) (raw : ρ) : Phase :=
  let d := decode w raw
  let request := d.request
  if (!request.isValid && d.bulk.isNone) || d.statusCode != .continue then .idle
  else
    match d.bulk with
    | some items =>
      if cfg.hasFlag .allowBulkLogRequest then .bulk left request items (.init w request)
      else .round left
    | none =>
      .single left (match request.client with
        | some c => { request with clientId := c.client.id }
        | none => request)

/-- Where a pull can lead: the round ends, the request is dropped, or a single request or a
bulk loop (with its locals as initialised) is next. -/
theorem afterPull_cases (w : Server) (left : Nat) (raw : ρ) :
    afterPull cfg decode w left raw = .idle ∨ afterPull cfg decode w left raw = .round left ∨
      (∃ r, afterPull cfg decode w left raw = .single left r) ∨
      ∃ env items, afterPull cfg decode w left raw = .bulk left env items (.init w env) := by
  unfold afterPull
  dsimp only
  split
  · exact .inl rfl
  · split
    · split
      · exact .inr (.inr (.inr ⟨_, _, rfl⟩))
      · exact .inr (.inl rfl)
    · exact .inr (.inr (.inl ⟨_, rfl⟩))

/-- The dispatcher thread's next step; `none` is a `pull()` from an empty buffer. -/
def dispatchStep (s : System ρ) : Option (System ρ × Option (Label ρ)) :=
  match s.phase with
  | .idle => some ({ s with phase := .round s.queue.size }, none)
  | .round 0 => some ({ s with queue := s.queue.switchContext, phase := .idle },
      some .switchContext)
  | .round (left + 1) => s.queue.pull.map fun (raw, q) =>
      ({ s with queue := q, phase := afterPull cfg decode s.server left raw }, some (.pull raw))
  | .single left request => some ({ s with phase := .round left },
      some (.call s.server ⟨request, none, true⟩))
  | .bulk left _ [] _ => some ({ s with phase := .round left }, none)
  | .bulk left envelope (item :: items) st =>
    match bulkHead cfg s.server envelope st item with
    | none => some ({ s with phase := .round left }, none)
    | some none => some ({ s with phase := .bulk left envelope items st }, none)
    | some (some (st', request)) =>
      some ({ s with phase := .bulkProcess left envelope items st' request }, none)
  | .bulkProcess left envelope items st request =>
    let st' := st.afterCall ((st.call request).run cfg s.server)
    some ({ s with phase := .bulk left envelope items st' }, some (.call s.server (st.call request)))

/-- What a dispatcher step can do: start a round of `size()` pulls; end one with
`switchContext()`; pull the next request; make the call of a single request; leave a bulk
loop that is done or at its cap; skip an invalid item; take the head of the loop for a valid
item; or make that item's call. -/
inductive DispatchStep : System ρ → System ρ → Option (Label ρ) → Prop
  | start {s : System ρ} : s.phase = .idle →
      DispatchStep s { s with phase := .round s.queue.size } none
  | finish {s : System ρ} : s.phase = .round 0 →
      DispatchStep s { s with queue := s.queue.switchContext, phase := .idle } (some .switchContext)
  | pull {s : System ρ} {left : Nat} {raw : ρ} {q : RequestQueue ρ} :
      s.phase = .round (left + 1) → s.queue.pull = some (raw, q) →
      DispatchStep s { s with queue := q, phase := afterPull cfg decode s.server left raw }
        (some (.pull raw))
  | single {s : System ρ} {left : Nat} {r : LogRequest} : s.phase = .single left r →
      DispatchStep s { s with phase := .round left } (some (.call s.server ⟨r, none, true⟩))
  | leave {s : System ρ} {left : Nat} {env : LogRequest} {items : List LogRequest}
      {st : BulkState} : s.phase = .bulk left env items st →
      (items = [] ∨ ∃ item rest, items = item :: rest ∧ bulkHead cfg s.server env st item = none) →
      DispatchStep s { s with phase := .round left } none
  | skip {s : System ρ} {left : Nat} {env item : LogRequest} {items : List LogRequest}
      {st : BulkState} : s.phase = .bulk left env (item :: items) st →
      bulkHead cfg s.server env st item = some none →
      DispatchStep s { s with phase := .bulk left env items st } none
  | head {s : System ρ} {left : Nat} {env item r : LogRequest} {items : List LogRequest}
      {st st' : BulkState} : s.phase = .bulk left env (item :: items) st →
      bulkHead cfg s.server env st item = some (some (st', r)) →
      DispatchStep s { s with phase := .bulkProcess left env items st' r } none
  | call {s : System ρ} {left : Nat} {env r : LogRequest} {items : List LogRequest}
      {st : BulkState} : s.phase = .bulkProcess left env items st r →
      DispatchStep s
        { s with phase := .bulk left env items (st.afterCall ((st.call r).run cfg s.server)) }
        (some (.call s.server (st.call r)))

theorem dispatchStep_cases {s s' : System ρ} {l : Option (Label ρ)}
    (h : dispatchStep cfg decode s = some (s', l)) : DispatchStep cfg decode s s' l := by
  unfold dispatchStep at h
  split at h
  · cases h; exact .start ‹_›
  · cases h; exact .finish ‹_›
  · obtain ⟨⟨raw, q⟩, hq, he⟩ := Option.map_eq_some'.1 h
    cases he
    exact .pull ‹_› hq
  · cases h; exact .single ‹_›
  · cases h; exact .leave ‹_› (.inl rfl)
  · split at h <;> cases h
    · exact .leave ‹_› (.inr ⟨_, _, rfl, ‹_›⟩)
    · exact .skip ‹_› ‹_›
    · exact .head ‹_› ‹_›
  · cases h; exact .call ‹_›

/-- One step of the thread that takes action `a`. The integrity task's registry sweep is
recorded; its other two statements are not. -/
def step (s : System ρ) : Action ρ → Option (System ρ × Option (Label ρ))
  | .handle r => some ({ s with queue := s.queue.push r }, some (.push r))
  | .integrity => some ({ s with server := s.server.integrityStep },
      if s.server.clientIntegrityTask.any (·.execution == .idle) then some .integrity else none)
  | .tick => some ({ s with server := { s.server with now := s.server.now + 1 } }, none)
  | .connect c => some ({ s with server := s.server.connect c }, none)
  | .issue t => some ({ s with server := s.server.issue t }, none)
  | .dispatch => dispatchStep cfg decode s

/-- The server starts with an empty queue and an idle dispatcher, and any registry. -/
def System.init (w : Server) : System ρ := ⟨.empty, w, .idle⟩

/-- The states a run reaches, with the history that got there. -/
inductive Reachable : System ρ → List (Label ρ) → Prop
  | init (w : Server) : Reachable (.init w) []
  | step {s s' : System ρ} {L : List (Label ρ)} {l : Option (Label ρ)} (a : Action ρ) :
      Reachable s L → step cfg decode s a = some (s', l) → Reachable s' (L ++ l.toList)

/-- A run of the actions in order, with the labels it records. -/
def run (s : System ρ) : List (Action ρ) → Option (System ρ × List (Label ρ))
  | [] => some (s, [])
  | a :: as => (step cfg decode s a).bind fun (s', l) =>
      (run s' as).map fun (s'', L) => (s'', l.toList ++ L)

@[simp] theorem run_nil (s : System ρ) : run cfg decode s [] = some (s, []) := rfl

theorem run_cons_eq_some {s s' : System ρ} {a : Action ρ} {as : List (Action ρ)}
    {L' : List (Label ρ)} (h : run cfg decode s (a :: as) = some (s', L')) :
    ∃ s₁ l L₁, step cfg decode s a = some (s₁, l) ∧ run cfg decode s₁ as = some (s', L₁) ∧
      L' = l.toList ++ L₁ := by
  simp only [run, Option.bind_eq_some, Option.map_eq_some'] at h
  obtain ⟨⟨s₁, l⟩, h₁, ⟨s₂, L₂⟩, h₂, heq⟩ := h
  simp only [Prod.mk.injEq] at heq
  obtain ⟨rfl, rfl⟩ := heq
  exact ⟨s₁, l, L₂, h₁, h₂, rfl⟩

theorem reachable_run : ∀ {as : List (Action ρ)} {s s' : System ρ} {L L' : List (Label ρ)},
    Reachable cfg decode s L → run cfg decode s as = some (s', L') →
      Reachable cfg decode s' (L ++ L')
  | [], _, _, _, _, h, hr => by
    obtain ⟨rfl, rfl⟩ := Prod.mk.inj (Option.some.inj hr)
    simpa using h
  | a :: _, _, _, _, _, h, hr => by
    obtain ⟨_, _, _, h₁, h₂, rfl⟩ := run_cons_eq_some cfg decode hr
    simpa using reachable_run (Reachable.step a h h₁) h₂

theorem reachable_of_run (w : Server) (as : List (Action ρ)) {s : System ρ}
    {L : List (Label ρ)} (h : run cfg decode (.init w) as = some (s, L)) :
    Reachable cfg decode s L := by
  simpa using reachable_run cfg decode (Reachable.init w) h

/-! ## The calls of a history -/

def Label.call? : Label ρ → Option (Server × Call)
  | .call w c => some (w, c)
  | _ => none

/-- The calls of a history, with the server state each was made at. -/
def callsOf (L : List (Label ρ)) : List (Server × Call) := L.filterMap Label.call?

/-- The records the calls of a history passed to `dispatch`, in order. -/
def dispatchedOf (L : List (Label ρ)) : List LogRequest := dispatches cfg (callsOf L)

@[simp] theorem callsOf_nil : callsOf ([] : List (Label ρ)) = [] := rfl

@[simp] theorem callsOf_append {L L' : List (Label ρ)} :
    callsOf (L ++ L') = callsOf L ++ callsOf L' := List.filterMap_append _ _ _

@[simp] theorem dispatchedOf_append {L L' : List (Label ρ)} :
    dispatchedOf cfg (L ++ L') = dispatchedOf cfg L ++ dispatchedOf cfg L' := by
  simp [dispatchedOf]

/-- A step of a thread other than the dispatcher leaves the dispatcher where it is and records
no call. -/
theorem step_env {s s' : System ρ} {a : Action ρ} {l : Option (Label ρ)} (ha : a ≠ .dispatch)
    (hs : step cfg decode s a = some (s', l)) : s'.phase = s.phase ∧ callsOf l.toList = [] := by
  cases a with
  | dispatch => exact absurd rfl ha
  | integrity => cases hs; exact ⟨rfl, by split <;> rfl⟩
  | handle | tick | connect | issue => cases hs; exact ⟨rfl, rfl⟩

/-! ## A small server

The configuration, registry and requests the concrete runs of the later files use. Raw
requests are taken already decoded (`decodeNone`). -/

/-- Bulk and plain requests allowed; `app` and `plain` are known loggers, only `plain`
takes plain requests; every logger requires a token; bulks of at most five items. -/
def smallConfig : Configuration where
  hasFlag f := f == .allowPlainLogRequest || f == .allowBulkLogRequest
  hasLoggerFlag l f := l == "plain" && f == .allowPlainLogRequest
  isKnownLogger l := l == "app" || l == "plain" || l == residueLoggerId
  isBlacklisted _ := false
  requiresToken _ := true
  maxItemsInBulk := 5

/-- Two long-lived clients and one that dies at second 101. -/
def alice : Client := ⟨"alice", 0, 3600, false⟩
def bob : Client := ⟨"bob", 0, 3600, false⟩
def carol : Client := ⟨"carol", 0, 101, false⟩

/-- At second 100, each client holds the never-expiring token `T` for its loggers; the
integrity task last ran at second 0. -/
def smallServer : Server where
  now := 100
  clients := [alice, bob, carol]
  tokens := [⟨"alice", "app", "T", 0, 0⟩, ⟨"alice", "plain", "T", 0, 0⟩,
             ⟨"bob", "plain", "T", 0, 0⟩, ⟨"carol", "app", "T", 0, 0⟩]
  clientIntegrityTask := some ⟨0, .idle⟩
  sweeps := 0

/-- A valid record for `logger` with this token and `client_id`, as deserialized. -/
def record (logger token clientId : String) : LogRequest :=
  ⟨logger, "hello", token, clientId, none, "", 0, true⟩

/-- A bulk envelope decrypted for `c`, received at second 100. -/
def bulkFor (c : Client) (items : List LogRequest) : Decoded :=
  ⟨⟨"", "", "", c.id, some ⟨c, 0⟩, "10.0.0.1", 100, false⟩, .continue, some items⟩

def decodeNone (_ : Server) (d : Decoded) : Decoded := d

end Residue
