import Residue.Drain

/-!
# What a dispatched request has been checked for

`processRequest` checks a request in full only when it is forced to or holds no client; a
later item of a bulk that follows a dispatched one takes the fast path (`bypassChecks`)
with the client the bulk loop carries over. What the fast path still guarantees comes from
the loop's locals: whenever validation is not forced, the client held was alive when the
envelope was received, since it is the client of the item just dispatched and every item of
a bulk carries the envelope's `dateReceived`. So in every run every dispatched record is
valid and its client alive at its own `dateReceived` (`dispatched_valid_alive`).

`isRequestAllowed` is not carried over that way: an item on the fast path is dispatched
whatever its logger and token (`bulk_dispatches_unchecked_item`, a write to the server's own
logger). The other runs of this file are the stale pointer and the attribution drift that
follow a rejected item.
-/

namespace Residue

variable {ρ : Type} (cfg : Configuration) (decode : Server → ρ → Decoded)

/-- What the dispatched record `d` satisfies: it is valid, and its client was alive when it
was received. -/
def LiveRecord (d : LogRequest) : Prop :=
  d.isValid = true ∧ ∃ p, d.client = some p ∧ p.client.isAlive d.dateReceived = true

/-- The bulk loop's locals, for `envelope`: whenever validation is not forced, the client held
was alive when the envelope was received. -/
def HeldAlive (envelope : LogRequest) (s : BulkState) : Prop :=
  s.forceClientValidation = false →
    ∃ p, s.currentClient = some p ∧ p.client.isAlive envelope.dateReceived = true

/-- `HeldAlive` in the bulk loop; at the call of line 151 the item also carries the envelope's
`dateReceived`. -/
def Phase.HeldAlive : Phase → Prop
  | .bulk _ env _ st => Residue.HeldAlive env st
  | .bulkProcess _ env _ st r => Residue.HeldAlive env st ∧ r.dateReceived = env.dateReceived
  | _ => True

/-- A call dispatches only live records if, when it bypasses the checks, it holds a client
alive when its request was received. -/
theorem liveRecord_of_call {w : Server} {c : Call} {d : LogRequest}
    (hb : bypassChecks c.clientRef c.forceCheck = true →
      ∃ p, c.clientRef = some (some p) ∧ p.client.isAlive c.request.dateReceived = true)
    (hd : (c.run cfg w).dispatched = some d) : LiveRecord d := by
  obtain ⟨p, hres, hv, hch, rfl⟩ := (processRequest_dispatched cfg).1 hd
  refine ⟨hv, p, rfl, ?_⟩
  rcases hch with hbp | ⟨ha, -⟩
  · obtain ⟨q, hq, ha⟩ := hb hbp
    obtain rfl : q = p := by simpa [hq] using hres
    simpa using ha
  · simpa using ha

/-- The call of line 151 from locals that hold a live client dispatches only live records,
and leaves locals that do. -/
theorem heldAlive_call {w : Server} {env r : LogRequest} {st : BulkState}
    (hs : HeldAlive env st) (hr : r.dateReceived = env.dateReceived) :
    (∀ d, ((st.call r).run cfg w).dispatched = some d → LiveRecord d) ∧
      HeldAlive env (st.afterCall ((st.call r).run cfg w)) := by
  have hlive : ∀ d, ((st.call r).run cfg w).dispatched = some d → LiveRecord d :=
    fun d => liveRecord_of_call cfg fun hb => by
      obtain ⟨hf, -⟩ := call_bypass.1 hb
      obtain ⟨p, hp, ha⟩ := hs hf
      exact ⟨p, by simp [hp], by simpa [hr] using ha⟩
  refine ⟨hlive, fun hf => ?_⟩
  obtain ⟨d, hd⟩ := Option.isSome_iff_exists.1
    (by simpa [afterCall_forceClientValidation] using hf :
      ((st.call r).run cfg w).dispatched.isSome)
  obtain ⟨-, p, hp, ha⟩ := hlive d hd
  obtain ⟨q, -, -, -, rfl⟩ := (processRequest_dispatched cfg).1 hd
  refine ⟨p, ?_, by simpa [hr] using ha⟩
  rw [afterCall_currentClient]
  exact (dispatched_client cfg hd).symm.trans hp

theorem heldAlive_revalidate {w : Server} {env : LogRequest} {st : BulkState}
    (hs : HeldAlive env st) : HeldAlive env (st.revalidate w) := by
  unfold BulkState.revalidate
  split
  · intro hf; cases hf
  · exact hs

/-- The invariant of `dispatched_valid_alive`. -/
structure LiveInv (s : System ρ) (L : List (Label ρ)) : Prop where
  held : s.phase.HeldAlive
  dispatched : ∀ d ∈ dispatchedOf cfg L, LiveRecord d

theorem liveRecords_append_call {L : List (Label ρ)} {w : Server} {c : Call}
    (hd : ∀ d ∈ dispatchedOf cfg L, LiveRecord d)
    (hc : ∀ d, (c.run cfg w).dispatched = some d → LiveRecord d) :
    ∀ d ∈ dispatchedOf cfg (L ++ [.call w c]), LiveRecord d := by
  intro d hd'
  rcases List.mem_append.1 (dispatchedOf_append cfg ▸ hd') with hd' | hd'
  · exact hd d hd'
  · exact hc d (by simpa [dispatchedOf, callsOf, Label.call?, dispatches] using hd')

theorem liveInv_dispatch {s s' : System ρ} {L : List (Label ρ)} {l : Option (Label ρ)}
    (h : LiveInv cfg s L) (hs : DispatchStep cfg decode s s' l) :
    LiveInv cfg s' (L ++ l.toList) := by
  obtain ⟨hh, hd⟩ := h
  cases hs with
  | start _ | finish _ | leave _ _ =>
    exact ⟨trivial, by simpa [dispatchedOf, callsOf, Label.call?] using hd⟩
  | @pull left raw q _ _ =>
    refine ⟨?_, by simpa [dispatchedOf, callsOf, Label.call?] using hd⟩
    rcases afterPull_cases cfg decode s.server left raw with hp | hp | ⟨r, hp⟩ | ⟨env, items, hp⟩ <;>
      simp only [hp, Phase.HeldAlive]
    exact fun hf => by cases hf
  | @single left r hp =>
    exact ⟨trivial, liveRecords_append_call cfg hd
      fun d => liveRecord_of_call cfg fun hb => by simp [bypassChecks] at hb⟩
  | skip hp _ =>
    simp only [hp, Phase.HeldAlive] at hh
    exact ⟨hh, by simpa using hd⟩
  | head hp hh' =>
    simp only [hp, Phase.HeldAlive] at hh
    simp only [bulkHead, Option.some.injEq] at hh'
    split_ifs at hh' <;> cases hh'
    exact ⟨⟨heldAlive_revalidate hh, bulkRequest_dateReceived⟩, by simpa using hd⟩
  | call hp =>
    simp only [hp, Phase.HeldAlive] at hh
    obtain ⟨hlive, hnext⟩ := heldAlive_call cfg hh.1 hh.2
    exact ⟨hnext, liveRecords_append_call cfg hd hlive⟩

theorem liveInv_reachable {s : System ρ} {L : List (Label ρ)}
    (h : Reachable cfg decode s L) : LiveInv cfg s L := by
  induction h with
  | init w => exact ⟨trivial, by simp [dispatchedOf, callsOf]⟩
  | @step s s' L l a _ hs ih =>
    by_cases ha : a = .dispatch
    · subst ha
      exact liveInv_dispatch cfg decode ih (dispatchStep_cases cfg decode hs)
    · obtain ⟨hp, hc⟩ := step_env cfg decode ha hs
      exact ⟨hp ▸ ih.held, by simpa [dispatchedOf, hc] using ih.dispatched⟩

/-- **Every dispatched record is valid and alive.** In every run, every request passed to
`dispatch`, single or bulk, checked or on the fast path, is valid and carries a client that
was alive at the request's own `dateReceived`. -/
theorem dispatched_valid_alive {s : System ρ} {L : List (Label ρ)}
    (h : Reachable cfg decode s L) :
    ∀ d ∈ dispatchedOf cfg L,
      d.isValid = true ∧ ∃ p, d.client = some p ∧ p.client.isAlive d.dateReceived = true :=
  (liveInv_reachable cfg decode h).dispatched

/-! ### Runs on the small server -/

/-- A record of the small server's client `alice` as the bulk loop passes it on. -/
def inEnvelope (r : LogRequest) : LogRequest := { r with ipAddr := "10.0.0.1", dateReceived := 100 }

/-- A bulk decrypted for `alice` whose second item writes to the server's own logger. -/
def residueBulk : Decoded :=
  bulkFor alice [record "app" "T" "alice", record residueLoggerId "T" "alice"]

/-- The calls the bulk loop makes for `residueBulk`: the first checked, the second on the
fast path. -/
def firstCall : Call := ⟨inEnvelope (record "app" "T" "alice"), some (some ⟨alice, 0⟩), true⟩
def fastCall : Call :=
  ⟨inEnvelope (record residueLoggerId "T" "alice"), some (some ⟨alice, 0⟩), false⟩

theorem residue_bulk_valid_alive :
    Reachable smallConfig decodeNone
        ⟨⟨[], []⟩, smallServer,
          .bulk 0 residueBulk.request [] ⟨2, 100, some ⟨alice, 0⟩, "alice", false⟩⟩
        [.push residueBulk, .switchContext, .pull residueBulk, .call smallServer firstCall,
          .call smallServer fastCall] ∧
      ∀ d ∈ dispatchedOf smallConfig [Label.push residueBulk, .switchContext, .pull residueBulk,
          .call smallServer firstCall, .call smallServer fastCall],
        d.isValid = true ∧ ∃ p, d.client = some p ∧ p.client.isAlive d.dateReceived = true :=
  have h := reachable_of_run smallConfig decodeNone smallServer
    (.handle residueBulk :: List.replicate 8 .dispatch) (by decide)
  ⟨h, dispatched_valid_alive smallConfig decodeNone h⟩

/-- The dispatcher writes to the `residue` logger for a client: the second item of
`residueBulk` takes the fast path and is dispatched though `isRequestAllowed` rejects it. -/
theorem bulk_dispatches_unchecked_item :
    Reachable smallConfig decodeNone
        ⟨⟨[], []⟩, smallServer,
          .bulk 0 residueBulk.request [] ⟨2, 100, some ⟨alice, 0⟩, "alice", false⟩⟩
        [.push residueBulk, .switchContext, .pull residueBulk, .call smallServer firstCall,
          .call smallServer fastCall] ∧
      (fastCall.run smallConfig smallServer).dispatched =
        some ((inEnvelope (record residueLoggerId "T" "alice")).withClient ⟨alice, 0⟩) ∧
      isRequestAllowed smallConfig smallServer
        ((inEnvelope (record residueLoggerId "T" "alice")).withClient ⟨alice, 0⟩) = false :=
  ⟨reachable_of_run smallConfig decodeNone smallServer
    (.handle residueBulk :: List.replicate 8 .dispatch) (by decide), by decide, by decide⟩

/-- A bulk decrypted for `alice` whose third item names `bob`, for the logger that takes
plain requests. -/
def driftBulk : Decoded :=
  bulkFor alice [record "app" "T" "alice", record "app" "T" "alice", record "plain" "T" "bob"]

/-- The calls after an integrity execution at second 100 (which evicts no one): the second
item is re-resolved under `alice`'s id, the third under the id it names. -/
def revalidatedCall : Call := ⟨inEnvelope (record "app" "T" "alice"), some none, true⟩
def foreignCall : Call := ⟨inEnvelope (record "plain" "T" "bob"), some none, true⟩

/-- One envelope, two clients: after the re-resolution of `alice` is refused (its logger
takes no plain requests), the next item of `alice`'s bulk is looked up by the id it names
and dispatched as `bob`'s, though `alice` is still registered. -/
theorem bulk_for_alice_dispatched_as_bob :
    Reachable smallConfig decodeNone
        ⟨⟨[], []⟩, smallServer.execute,
          .bulk 0 driftBulk.request [] ⟨3, 100, some ⟨bob, 1⟩, "bob", false⟩⟩
        [.push driftBulk, .switchContext, .pull driftBulk, .call smallServer firstCall,
          .integrity, .call smallServer.execute revalidatedCall,
          .call smallServer.execute foreignCall] ∧
      driftBulk.request.client = some ⟨alice, 0⟩ ∧
      (revalidatedCall.run smallConfig smallServer.execute).dispatched = none ∧
      (foreignCall.run smallConfig smallServer.execute).dispatched.map LogRequest.clientId =
        some bob.id ∧
      alice ∈ smallServer.execute.clients :=
  ⟨reachable_of_run smallConfig decodeNone smallServer
    (.handle driftBulk :: List.replicate 6 .dispatch ++
      List.replicate 3 .integrity ++ List.replicate 4 .dispatch) (by decide),
    rfl, by decide, by decide, by decide⟩

/-- A bulk decrypted for `carol`, whose first item carries a wrong token. -/
def carolBulk : Decoded := bulkFor carol [record "app" "X" "carol", record "app" "T" "carol"]

/-- The server a second later, after an integrity execution that evicts `carol`. -/
def sweptServer : Server := { smallServer with now := 101 }.execute

/-- The calls of `carolBulk`: the first is rejected, the second keeps `carol`'s pointer. -/
def rejectedCall : Call := ⟨inEnvelope (record "app" "X" "carol"), some (some ⟨carol, 0⟩), true⟩
def staleCall : Call := ⟨inEnvelope (record "app" "T" "carol"), some (some ⟨carol, 0⟩), true⟩

/-- A client evicted by the integrity task is still used: the first item of `carolBulk` is
rejected, so validation is already forced and the re-validation block is skipped; the second
item goes through the pointer obtained before the sweep, to a client no longer registered,
and is dispatched. -/
theorem stale_client_after_rejected_item :
    Reachable smallConfig decodeNone
        ⟨⟨[], []⟩, sweptServer,
          .bulk 0 carolBulk.request [] ⟨2, 100, some ⟨carol, 0⟩, "carol", false⟩⟩
        [.push carolBulk, .switchContext, .pull carolBulk, .call smallServer rejectedCall,
          .integrity, .call sweptServer staleCall] ∧
      (rejectedCall.run smallConfig smallServer).dispatched = none ∧
      (staleCall.run smallConfig sweptServer).client = some ⟨carol, 0⟩ ∧
      0 < sweptServer.sweeps ∧ carol ∉ sweptServer.clients ∧
      (staleCall.run smallConfig sweptServer).dispatched.isSome :=
  ⟨reachable_of_run smallConfig decodeNone smallServer
    (.handle carolBulk :: List.replicate 6 .dispatch ++ .tick ::
      List.replicate 3 .integrity ++ List.replicate 2 .dispatch) (by decide),
    by decide, by decide, by decide, by decide, by decide⟩

/-- The same stale read after a dispatched item: the head of the second item runs before the
sweep, finds no execution since the bulk began and keeps `carol`'s pointer, and the call made
after the registry sweep reads it on the fast path. -/
example :
    Reachable smallConfig decodeNone
        ⟨⟨[], []⟩, { { smallServer with now := 101 } with
            clients := [alice, bob], sweeps := 1,
            clientIntegrityTask := some ⟨0, .registrySwept 101⟩ },
          .bulk 0 (bulkFor carol [record "app" "T" "carol", record "app" "T" "carol"]).request []
            ⟨2, 100, some ⟨carol, 0⟩, "carol", false⟩⟩
        [.push (bulkFor carol [record "app" "T" "carol", record "app" "T" "carol"]),
          .switchContext, .pull (bulkFor carol [record "app" "T" "carol", record "app" "T" "carol"]),
          .call smallServer ⟨inEnvelope (record "app" "T" "carol"), some (some ⟨carol, 0⟩), true⟩,
          .integrity,
          .call { { smallServer with now := 101 } with
              clients := [alice, bob], sweeps := 1,
              clientIntegrityTask := some ⟨0, .registrySwept 101⟩ }
            ⟨inEnvelope (record "app" "T" "carol"), some (some ⟨carol, 0⟩), false⟩] :=
  reachable_of_run smallConfig decodeNone smallServer
    (.handle (bulkFor carol [record "app" "T" "carol", record "app" "T" "carol"]) ::
      List.replicate 7 .dispatch ++ [.tick, .integrity, .dispatch]) (by decide)

end Residue
