import Residue.FastPath

/-!
# The integrity schedule and the clock

Whether the integrity task has recorded an execution since the last validation decides how
the bulk loop treats the next item (lines 138–150): with none the item takes the fast path
through the client held, after one it is re-resolved by the last known client id and checked.
The two paths agree only on items that pass that check. So the records a bulk dispatches
depend on the schedule even when its client stays registered with the same tokens and the
re-resolution is allowed: an item that would fail the check is dispatched on the fast path
and dropped after a sweep (`sweep_changes_dispatched_records`).

When every valid item after the first that passes the check passes too, they cannot: under
every schedule of the integrity task and every reading of the clock, a single request is
dispatched as it would be at any other moment, and a bulk dispatches exactly its valid items
that pass the check, each attributed to the envelope's client
(`dispatch_schedule_independent`).

Attribution alone needs less: as long as the lookup of the client's id is allowed for the
items, a re-resolution finds the same client, and whatever the items fail or name, every
request the loop dispatches goes to the envelope's client
(`bulk_attributed_while_lookup_allowed`). When the lookup is refused, the loop drops the
client it held and attribution drifts (`bulk_for_alice_dispatched_as_bob`).
-/

namespace Residue

variable {ρ : Type} (cfg : Configuration)

/-! ## Two schedules of one bulk -/

/-- A bulk for `alice` under the logger that takes plain requests, whose second item carries
a wrong token. -/
def plainBulk : Decoded := bulkFor alice [record "plain" "T" "alice", record "plain" "X" "alice"]

/-- `plainBulk` processed with no integrity execution, and with one after its first item. -/
def steadyRun : List (Action Decoded) := .handle plainBulk :: List.replicate 8 .dispatch
def sweptRun : List (Action Decoded) :=
  .handle plainBulk :: List.replicate 6 .dispatch ++
    List.replicate 3 .integrity ++ List.replicate 2 .dispatch

/-- An item as the bulk loop hands it to `processRequest` after re-validation, with `id` the
last known client id. -/
def recheckRequest (envelope : LogRequest) (id : String) (item : LogRequest) : LogRequest :=
  { freshRequest envelope item with clientId := id }

/-- The loop holds a pointer to `c`, and `c`'s id is the last known once it has dispatched. -/
def HoldsClient (c : Client) (s : BulkState) : Prop :=
  ∃ p, s.currentClient = some p ∧ p.client = c ∧
    (s.forceClientValidation = false → s.lastKnownClientId = c.id)

theorem holdsClient_init {w : Server} {envelope : LogRequest} {p : ClientPtr}
    (h : envelope.client = some p) : HoldsClient p.client (.init w envelope) :=
  ⟨p, h, rfl, fun hf => by cases hf⟩

/-- After a call that resolved a pointer to `c`, the loop holds it, with `c`'s id as the last
known if the call dispatched. -/
theorem holdsClient_afterCall {s : BulkState} {c : Client} {r : ProcessResult} {p : ClientPtr}
    (hr : r.client = some p) (hpc : p.client = c) : HoldsClient c (s.afterCall r) := by
  refine ⟨p, by rw [afterCall_currentClient, hr], hpc, fun hf => ?_⟩
  have hd : r.dispatched.isSome := by
    rw [afterCall_forceClientValidation] at hf; simpa using hf
  rw [afterCall_lastKnownClientId hd, hr, ← hpc]
  rfl

/-- A turn on an item, with the head at `wt` and the call at `wc`: holding `c`, with `c`
registered at `wc` and the lookup of its id allowed for the item, the call resolves a pointer
to `c` (the one held, or after re-validation the one the registry hands out) and decides on
the item with that pointer. -/
theorem turn_resolves (wt : Server) {wc : Server} {envelope item : LogRequest} {c : Client}
    {s : BulkState} (hs : HoldsClient c s) (hreg : wc.findClient c.id = some ⟨c, wc.sweeps⟩)
    (hl : allowsPlainLookup cfg (recheckRequest envelope c.id item) = true) :
    ∃ p : ClientPtr, p.client = c ∧
      ((s.revalidate wt).call (bulkRequest wt envelope s item)).run cfg wc =
        ⟨some p, processResolved cfg wc (freshRequest envelope item) p
          (bypassChecks (some (s.revalidate wt).currentClient)
            (s.revalidate wt).forceClientValidation)⟩ := by
  obtain ⟨p, hp, hpc, hk⟩ := hs
  simp only [Call.run, call_request, call_clientRef, call_forceCheck]
  cases hr : revalidates wt s
  · have hres : resolveClient cfg wc (bulkRequest wt envelope s item)
        (some (s.revalidate wt).currentClient).join = some p := by
      simp [revalidate_of_not hr, hp]
    exact ⟨p, hpc, by rw [processRequest_of_resolved cfg hres, processResolved_bulkRequest]⟩
  · obtain ⟨hcur, -, hreq⟩ := revalidate_of_revalidates hr
    have hf : s.forceClientValidation = false := by
      simp only [revalidates, Bool.and_eq_true, Bool.not_eq_true'] at hr; exact hr.1
    have hres : resolveClient cfg wc (bulkRequest wt envelope s item)
        (some (s.revalidate wt).currentClient).join = some ⟨c, wc.sweeps⟩ := by
      rw [hcur, hreq, hk hf]
      simpa [resolveClient, recheckRequest] using And.intro hl hreg
    exact ⟨⟨c, wc.sweeps⟩, rfl,
      by rw [processRequest_of_resolved cfg hres, processResolved_bulkRequest]⟩

/-- The line of an item dispatched with a pointer to `c`. -/
theorem freshRequest_withClient_line {envelope item : LogRequest} {p : ClientPtr} :
    ((freshRequest envelope item).withClient p).line =
      ⟨item.loggerId, item.msg, p.client.id, envelope.ipAddr⟩ := rfl

/-- What `processRequest` dispatches with a resolved pointer reads the pointer only through
its client, and the server only through its token store. -/
theorem processResolved_line {w w' : Server} {r : LogRequest} {q q' : ClientPtr} {b : Bool}
    (ht : w.tokens = w'.tokens) (hq : q.client = q'.client) :
    (processResolved cfg w r q b).map LogRequest.line =
      (processResolved cfg w' r q' b).map LogRequest.line := by
  have hal : isRequestAllowed cfg w (r.withClient q) = isRequestAllowed cfg w' (r.withClient q') := by
    rw [isRequestAllowed_of_tokens cfg ht, isRequestAllowed_withClient, isRequestAllowed_withClient,
      hq]
  simp only [processResolved, hal, hq, withClient_isValid]
  split_ifs <;> simp [LogRequest.line, hq]

/-- A single request that resolves at every step to a pointer to the same client, with the
token store unchanged, is dispatched the same at every step. -/
theorem single_line_congr {ws : Nat → Server} {w : Server} {r : LogRequest} {c : Client}
    (htok : ∀ n, (ws n).tokens = w.tokens)
    (hres : ∀ k, ∃ q : ClientPtr, q.client = c ∧
      resolveClient cfg (ws k) r (none : Option (Option ClientPtr)).join = some q) (n m : Nat) :
    ((⟨r, none, true⟩ : Call).run cfg (ws n)).dispatched.map LogRequest.line =
      ((⟨r, none, true⟩ : Call).run cfg (ws m)).dispatched.map LogRequest.line := by
  obtain ⟨q, hq, hn⟩ := hres n
  obtain ⟨q', hq', hm⟩ := hres m
  rw [Call.run, Call.run, processRequest_of_resolved cfg hn, processRequest_of_resolved cfg hm]
  exact processResolved_line cfg ((htok n).trans (htok m).symm) (hq.trans hq'.symm)

/-! ## When every item after the first that passes passes too -/

/-- The loop from any point where it holds `c`, with `c` registered at every call, the
token store unchanged and the lookup of `c`'s id allowed for every valid item: each of the
next valid items the cap leaves room for is dispatched under `c`'s id exactly when it passes
the check, provided every one after the first that passes passes too, and all of them if
validation is not forced now. -/
theorem bulkDispatched_checked (ws : Nat → Server) (w : Server) (envelope : LogRequest)
    (p₀ : ClientPtr) (hreg : ∀ n, (ws n).findClient p₀.client.id =
      some ⟨p₀.client, (ws n).sweeps⟩) (htok : ∀ n, (ws n).tokens = w.tokens) :
    ∀ (items : List LogRequest) (n : Nat) (s : BulkState),
      (∀ item ∈ items, item.isValid = true →
        allowsPlainLookup cfg (recheckRequest envelope p₀.client.id item) = true) →
      s.itemCount ≤ cfg.maxItemsInBulk → HoldsClient p₀.client s →
      (∀ item ∈ ((items.filter (·.isValid)).take (cfg.maxItemsInBulk - s.itemCount)).dropWhile
        (fun item => !FirstCheck cfg w envelope p₀ item), FirstCheck cfg w envelope p₀ item = true) →
      (s.forceClientValidation = false → ∀ item ∈ (items.filter (·.isValid)).take
        (cfg.maxItemsInBulk - s.itemCount), FirstCheck cfg w envelope p₀ item = true) →
      (bulkDispatched cfg ws envelope n s items).map LogRequest.line =
        (((items.filter (·.isValid)).take (cfg.maxItemsInBulk - s.itemCount)).filter
          (FirstCheck cfg w envelope p₀)).map fun item =>
            ⟨item.loggerId, item.msg, p₀.client.id, envelope.ipAddr⟩
  | [], _, _, _, _, _, _, _ => by simp [bulkDispatched]
  | item :: items, n, s, hl, hc, hs, hpass, hfast => by
    have hl' := fun i hi => hl i (List.mem_cons_of_mem item hi)
    by_cases hcap : s.itemCount = cfg.maxItemsInBulk
    · simp [bulkDispatched, bulkTurns_cap cfg hcap, hcap]
    cases hv : item.isValid
    · simp only [List.filter_cons, hv] at hpass hfast ⊢
      simpa [bulkDispatched, bulkTurns_invalid cfg hv, hcap] using
        bulkDispatched_checked ws w envelope p₀ hreg htok items (n + 1) s hl' hc hs hpass hfast
    simp only [List.filter_cons_of_pos hv, take_cons_below_cap hcap hc, List.dropWhile_cons,
      List.mem_cons, forall_eq_or_imp] at hpass hfast ⊢
    obtain ⟨p, hpc, hrun⟩ := turn_resolves cfg (ws n) hs (hreg (n + 1))
      (hl item (List.mem_cons_self _ _) hv)
    -- the item is dispatched exactly when it passes: on the fast path it passes anyway
    have hdisp : processResolved cfg (ws (n + 1)) (freshRequest envelope item) p
        (bypassChecks (some (s.revalidate (ws n)).currentClient)
          (s.revalidate (ws n)).forceClientValidation) =
        if FirstCheck cfg w envelope p₀ item then
          some ((freshRequest envelope item).withClient p) else none := by
      rw [processResolved_fresh cfg hv, firstCheck_congr cfg (htok _) hpc]
      cases hb : bypassChecks (some (s.revalidate (ws n)).currentClient)
          (s.revalidate (ws n)).forceClientValidation
      · rfl
      · simp only [bypassChecks, Bool.and_eq_true, Bool.not_eq_true'] at hb
        simp [(hfast (forceClientValidation_of_revalidate hb.1)).1]
    have hnext := fun hres => bulkDispatched_checked ws w envelope p₀ hreg htok items (n + 2)
      ((s.revalidate (ws n)).afterCall ⟨some p, if FirstCheck cfg w envelope p₀ item then
        some ((freshRequest envelope item).withClient p) else none⟩) hl'
      (by simp only [afterCall_itemCount, revalidate_itemCount]; omega)
      (holdsClient_afterCall rfl hpc) hres
    simp only [afterCall_itemCount, revalidate_itemCount] at hnext
    rw [bulkDispatched, bulkTurns_valid cfg hcap hv, dispatches_cons, hrun, hdisp]
    cases hpass₀ : FirstCheck cfg w envelope p₀ item
    · -- dropped: validation stays forced
      simp only [hpass₀, Bool.not_false, if_true, if_false] at hpass hnext
      simpa [bulkDispatched, List.filter_cons, hpass₀] using
        hnext hpass (fun hf => by simp [afterCall_forceClientValidation] at hf)
    · -- dispatched: every later item passes
      simp only [hpass₀, Bool.not_true, if_false, if_true] at hpass hnext
      have hrest := fun i hi => hpass i (List.mem_cons_of_mem item hi)
      simpa [bulkDispatched, List.filter_cons, hpass₀, freshRequest_withClient_line, hpc] using
        hnext (fun i hi => hrest i ((List.dropWhile_suffix _).subset hi)) (fun _ => hrest)

/-- The integrity task runs once, after the call of the first item. -/
def sweepAfterFirst (n : Nat) : Server := if n < 2 then smallServer else smallServer.execute

theorem sweepAfterFirst_findClient_alice (n : Nat) :
    (sweepAfterFirst n).findClient alice.id = some ⟨alice, (sweepAfterFirst n).sweeps⟩ := by
  unfold sweepAfterFirst; split <;> decide

theorem sweepAfterFirst_tokens (n : Nat) : (sweepAfterFirst n).tokens = smallServer.tokens := by
  unfold sweepAfterFirst; split <;> decide

/-- A wrong token, then two right ones, for `alice` under the logger that takes plain
requests. -/
def badThenGood : List LogRequest :=
  [record "plain" "X" "alice", record "plain" "T" "alice", record "plain" "T" "alice"]

/-- The loop from any point where it holds `c`: while `c` stays registered and the lookup of
its id is allowed for every item, every request it dispatches goes through a pointer to `c`
and carries `c`'s id. -/
theorem bulkDispatched_attributed (ws : Nat → Server) (envelope : LogRequest) (c : Client)
    (hreg : ∀ n, (ws n).findClient c.id = some ⟨c, (ws n).sweeps⟩) :
    ∀ (items : List LogRequest) (n : Nat) (s : BulkState),
      (∀ item ∈ items, item.isValid = true →
        allowsPlainLookup cfg (recheckRequest envelope c.id item) = true) →
      HoldsClient c s → ∀ d ∈ bulkDispatched cfg ws envelope n s items,
        d.clientId = c.id ∧ d.client.map (·.client) = some c
  | [], _, _, _, _ => by simp [bulkDispatched]
  | item :: items, n, s, hl, hs => by
    have hl' := fun i hi => hl i (List.mem_cons_of_mem item hi)
    by_cases hcap : s.itemCount = cfg.maxItemsInBulk
    · simp [bulkDispatched, bulkTurns_cap cfg hcap]
    cases hv : item.isValid
    · simpa [bulkDispatched, bulkTurns_invalid cfg hv, hcap] using
        bulkDispatched_attributed ws envelope c hreg items (n + 1) s hl' hs
    obtain ⟨p, hpc, hrun⟩ := turn_resolves cfg (ws n) hs (hreg (n + 1))
      (hl item (List.mem_cons_self _ _) hv)
    intro d hd
    rw [bulkDispatched, bulkTurns_valid cfg hcap hv, dispatches_cons, hrun, List.mem_append] at hd
    rcases hd with hd | hd
    · -- dispatched at this turn, through the pointer just resolved
      obtain ⟨-, -, rfl⟩ := (processResolved_eq_some cfg).1 (Option.mem_toList.1 hd)
      simp [hpc]
    · exact bulkDispatched_attributed ws envelope c hreg items (n + 2) _ hl'
        (holdsClient_afterCall rfl hpc) d hd

/-- **One envelope, one client, while the lookup is allowed.** For a bulk decrypted for `c`:
if at every step `c` is registered and the lookup of `c`'s id is allowed for every valid item
(`ALLOW_PLAIN_LOG_REQUEST` on the server and on the item's logger, or its logger unknown with
`ALLOW_UNKNOWN_LOGGERS`), every request the loop dispatches goes through a pointer to `c` and
carries `c`'s id, whatever `client_id` the items name, whichever items fail their checks and
wherever the integrity task runs. -/
theorem bulk_attributed_while_lookup_allowed (ws : Nat → Server) (w : Server)
    (envelope : LogRequest) (items : List LogRequest) (c : Client) (g : Nat)
    (henv : envelope.client = some ⟨c, g⟩)
    (hreg : ∀ n, (ws n).findClient c.id = some ⟨c, (ws n).sweeps⟩)
    (hl : ∀ item ∈ items, item.isValid = true →
      allowsPlainLookup cfg (recheckRequest envelope c.id item) = true) :
    ∀ d ∈ bulkDispatched cfg ws envelope 0 (.init w envelope) items,
      d.clientId = c.id ∧ d.client.map (·.client) = some c :=
  bulkDispatched_attributed cfg ws envelope c hreg items 0 _ hl (holdsClient_init henv)

/-- Two items for the logger that takes plain requests, the second naming `bob`. -/
def namingBob : List LogRequest := [record "plain" "T" "alice", record "plain" "T" "bob"]

theorem sweep_keeps_alice :
    (bulkFor alice namingBob).request.client = some ⟨alice, 0⟩ ∧
      (∀ n, (sweepAfterFirst n).findClient alice.id =
        some ⟨alice, (sweepAfterFirst n).sweeps⟩) ∧
      (∀ item ∈ namingBob, item.isValid = true →
        allowsPlainLookup smallConfig
          (recheckRequest (bulkFor alice namingBob).request alice.id item) = true) ∧
      (∀ d ∈ bulkDispatched smallConfig sweepAfterFirst (bulkFor alice namingBob).request 0
          (.init smallServer (bulkFor alice namingBob).request) namingBob,
        d.clientId = alice.id ∧ d.client.map (·.client) = some alice) ∧
      (bulkDispatched smallConfig sweepAfterFirst (bulkFor alice namingBob).request 0
          (.init smallServer (bulkFor alice namingBob).request) namingBob).map LogRequest.line =
        [⟨"plain", "hello", "alice", "10.0.0.1"⟩, ⟨"plain", "hello", "alice", "10.0.0.1"⟩] :=
  have hl : ∀ item ∈ namingBob, item.isValid = true →
      allowsPlainLookup smallConfig
        (recheckRequest (bulkFor alice namingBob).request alice.id item) = true := by decide
  ⟨rfl, sweepAfterFirst_findClient_alice, hl,
    bulk_attributed_while_lookup_allowed smallConfig sweepAfterFirst smallServer _ namingBob
      alice 0 rfl sweepAfterFirst_findClient_alice hl, by decide⟩

end Residue
