import Residue.Admission

/-!
# The fast path of the bulk loop

While the integrity task records no execution at or after the second the loop began, the
re-validation test of lines 138–140 never fires, and `forceClientValidation` alone decides
whether an item is checked. It starts `true`, stays `true` while items fail, and turns `false`
at the first item `processRequest` dispatches (lines 151–156). From then on each valid item is
passed with the client held and `forceCheck = false`, so `processRequest` bypasses its checks
(line 201).

`bulk_checks_until_first_pass` states the outcome for a whole bulk. Of the first
`maxItemsInBulk` valid items, those before the first one that passes the checks are dropped,
and that one and every one after it is dispatched through the envelope's client, whether or
not it would pass the checks itself.
-/

namespace Residue

variable (cfg : Configuration)

/-- The checks `processRequest` makes of an item of `envelope` when it is forced to, with `p`
resolved: `p`'s client is alive when the envelope was received, and the item with `p`
attached is allowed. -/
def FirstCheck (w : Server) (envelope : LogRequest) (p : ClientPtr) (item : LogRequest) : Bool :=
  p.client.isAlive envelope.dateReceived &&
    isRequestAllowed cfg w ((freshRequest envelope item).withClient p)

/-! ## One turn -/

/-- `isRequestAllowed` reads the server only through its token store. -/
theorem isRequestAllowed_of_tokens {w w' : Server} (h : w.tokens = w'.tokens) (r : LogRequest) :
    isRequestAllowed cfg w r = isRequestAllowed cfg w' r := by
  simp only [isRequestAllowed, Client.isValidToken, h]

/-- The checks read the server only through its token store, and the pointer only through the
client it points to. -/
theorem firstCheck_congr {w w' : Server} {envelope item : LogRequest} {p q : ClientPtr}
    (ht : w.tokens = w'.tokens) (hpq : p.client = q.client) :
    FirstCheck cfg w envelope p item = FirstCheck cfg w' envelope q item := by
  simp only [FirstCheck, isRequestAllowed_of_tokens cfg ht, isRequestAllowed_withClient, hpq]

/-- With no integrity execution recorded at or after the last validation, the test of lines
138–140 fails. -/
theorem revalidates_of_quiet {w : Server} {s : BulkState}
    (h : ∀ t ∈ w.clientIntegrityTask, t.lastExecution < s.lastClientValidation) :
    revalidates w s = false := by
  cases ht : w.clientIntegrityTask with
  | none => simp [revalidates, ht]
  | some t => simp [revalidates, ht, Nat.not_le.2 (h t ht)]

/-- `processRequest` with a client held resolves it, and checks exactly when forced. -/
theorem processRequest_held {w : Server} {r : LogRequest} {p : ClientPtr} {f : Bool} :
    processRequest cfg w r (some (some p)) f = ⟨some p, processResolved cfg w r p !f⟩ := by
  cases f <;> rfl

@[simp] theorem bulkRequest_withClient {w : Server} {envelope item : LogRequest} {s : BulkState}
    {p : ClientPtr} :
    (bulkRequest w envelope s item).withClient p = (freshRequest envelope item).withClient p := by
  unfold bulkRequest; split <;> rfl

/-- The checks of an item do not depend on the `client_id` it was sent under: `processRequest`
replaces it by the resolved client's. -/
theorem processResolved_bulkRequest {w w' : Server} {envelope item : LogRequest}
    {s : BulkState} {p : ClientPtr} {b : Bool} :
    processResolved cfg w (bulkRequest w' envelope s item) p b =
      processResolved cfg w (freshRequest envelope item) p b := by
  simp only [processResolved, bulkRequest_withClient, bulkRequest_dateReceived,
    freshRequest_dateReceived]

/-- A valid item is dispatched with `p` attached when the checks are bypassed or pass. -/
theorem processResolved_fresh {w : Server} {envelope item : LogRequest} {p : ClientPtr}
    {b : Bool} (hv : item.isValid = true) :
    processResolved cfg w (freshRequest envelope item) p b =
      if b || FirstCheck cfg w envelope p item then
        some ((freshRequest envelope item).withClient p)
      else none := by
  unfold processResolved FirstCheck
  rw [freshRequest_dateReceived]
  cases b <;> cases p.client.isAlive envelope.dateReceived <;>
    cases h : isRequestAllowed cfg w ((freshRequest envelope item).withClient p) <;> simp [hv, h]

/-- A turn below the cap on a valid item, with `p` held and no re-validation: the item is
passed as it came, with `p` held and the validation flag as it stands. -/
theorem bulkDispatched_quiet_turn (ws : Nat → Server) (envelope : LogRequest) {n : Nat}
    {s : BulkState} {p : ClientPtr} {item : LogRequest} (items : List LogRequest)
    (hr : revalidates (ws n) s = false) (hp : s.currentClient = some p)
    (hcap : s.itemCount ≠ cfg.maxItemsInBulk) (hv : item.isValid = true) :
    bulkDispatched cfg ws envelope n s (item :: items) =
      (processResolved cfg (ws (n + 1)) (freshRequest envelope item) p
          !s.forceClientValidation).toList ++
        bulkDispatched cfg ws envelope (n + 2)
          (s.afterCall ⟨some p, processResolved cfg (ws (n + 1)) (freshRequest envelope item) p
            !s.forceClientValidation⟩) items := by
  simp only [bulkDispatched, bulkTurns_valid cfg hcap hv, revalidate_of_not hr,
    bulkRequest_of_not hr, BulkState.call, hp, Call.run, processRequest_held, dispatches_cons]

/-! ## The loop -/

section
variable (ws : Nat → Server) (envelope : LogRequest) (p : ClientPtr)

/-- After a dispatch and with no execution recorded since the last validation, every later
valid item the cap leaves room for is dispatched unchecked through the client held. -/
theorem bulkDispatched_fast :
    ∀ (items : List LogRequest) (n : Nat) (s : BulkState),
      (∀ n, ∀ t ∈ (ws n).clientIntegrityTask, t.lastExecution < s.lastClientValidation) →
      s.forceClientValidation = false → s.currentClient = some p →
      s.itemCount ≤ cfg.maxItemsInBulk →
      bulkDispatched cfg ws envelope n s items =
        ((items.filter (·.isValid)).take (cfg.maxItemsInBulk - s.itemCount)).map
          fun item => (freshRequest envelope item).withClient p
  | [], _, _, _, _, _, _ => by simp [bulkDispatched]
  | item :: items, n, s, hq, hf, hp, hc => by
    by_cases hcap : s.itemCount = cfg.maxItemsInBulk
    · simp [bulkDispatched, bulkTurns_cap cfg hcap, hcap]
    cases hv : item.isValid
    · simpa [bulkDispatched, bulkTurns_invalid cfg hv, hcap, hv] using
        bulkDispatched_fast items (n + 1) s hq hf hp hc
    · have ih := bulkDispatched_fast items (n + 2)
        (s.afterCall ⟨some p, some ((freshRequest envelope item).withClient p)⟩)
        (by simpa using hq) rfl rfl (by simp only [afterCall_itemCount]; omega)
      rw [afterCall_itemCount] at ih
      rw [bulkDispatched_quiet_turn cfg ws envelope items (revalidates_of_quiet (hq n)) hp hcap
        hv, hf, processResolved_fresh cfg hv, Bool.not_false, Bool.true_or, if_pos rfl, ih,
        List.filter_cons_of_pos hv, take_cons_below_cap hcap hc]
      rfl

/-- Before any dispatch and with no execution recorded since the last validation, the loop
checks each valid item until one passes, drops those that fail, and from that one on is on
the fast path. -/
theorem bulkDispatched_search (w : Server) (htok : ∀ n, (ws n).tokens = w.tokens) :
    ∀ (items : List LogRequest) (n : Nat) (s : BulkState),
      (∀ n, ∀ t ∈ (ws n).clientIntegrityTask, t.lastExecution < s.lastClientValidation) →
      s.forceClientValidation = true → s.currentClient = some p →
      s.itemCount ≤ cfg.maxItemsInBulk →
      bulkDispatched cfg ws envelope n s items =
        (((items.filter (·.isValid)).take (cfg.maxItemsInBulk - s.itemCount)).dropWhile
            fun item => !FirstCheck cfg w envelope p item).map
          fun item => (freshRequest envelope item).withClient p
  | [], _, _, _, _, _, _ => by simp [bulkDispatched]
  | item :: items, n, s, hq, hf, hp, hc => by
    by_cases hcap : s.itemCount = cfg.maxItemsInBulk
    · simp [bulkDispatched, bulkTurns_cap cfg hcap, hcap]
    cases hv : item.isValid
    · simpa [bulkDispatched, bulkTurns_invalid cfg hv, hcap, hv] using
        bulkDispatched_search w htok items (n + 1) s hq hf hp hc
    · have hchk : FirstCheck cfg (ws (n + 1)) envelope p item = FirstCheck cfg w envelope p item :=
        firstCheck_congr cfg (htok _) rfl
      rw [bulkDispatched_quiet_turn cfg ws envelope items (revalidates_of_quiet (hq n)) hp hcap
        hv, hf, processResolved_fresh cfg hv, Bool.not_true, Bool.false_or, hchk,
        List.filter_cons_of_pos hv, take_cons_below_cap hcap hc, List.dropWhile_cons]
      cases hpass : FirstCheck cfg w envelope p item
      · -- dropped, and the next item is checked again
        have ih := bulkDispatched_search w htok items (n + 2) (s.afterCall ⟨some p, none⟩)
          (by simpa using hq) rfl rfl (by simp only [afterCall_itemCount]; omega)
        rw [afterCall_itemCount] at ih
        simpa using ih
      · -- dispatched, and the loop is on the fast path
        have h := bulkDispatched_fast cfg ws envelope p items (n + 2)
          (s.afterCall ⟨some p, some ((freshRequest envelope item).withClient p)⟩)
          (by simpa using hq) rfl rfl (by simp only [afterCall_itemCount]; omega)
        rw [afterCall_itemCount] at h
        simp [h]

end

/-- **Only the items up to the first that passes are checked.** For a bulk decrypted for `p`,
with every execution the integrity task has recorded (at every step of the loop) before the
second `Utils::now()` read when the loop began at `w`, and the token store as it was then:
of the first `maxItemsInBulk` valid items, those before the first that passes the checks
(`p` alive when the envelope was received, the item allowed with `p` attached) are dropped,
and that item and every later one is dispatched through `p`, each with its own `client_id`
replaced by `p`'s, whether it would pass the checks or not. -/
theorem bulk_checks_until_first_pass (ws : Nat → Server) (w : Server) (envelope : LogRequest)
    (items : List LogRequest) (p : ClientPtr) (henv : envelope.client = some p)
    (hquiet : ∀ n, ∀ t ∈ (ws n).clientIntegrityTask, t.lastExecution < w.now)
    (htok : ∀ n, (ws n).tokens = w.tokens) :
    bulkDispatched cfg ws envelope 0 (.init w envelope) items =
      (((items.filter (·.isValid)).take cfg.maxItemsInBulk).dropWhile
          fun item => !FirstCheck cfg w envelope p item).map
        fun item => (freshRequest envelope item).withClient p := by
  simpa [BulkState.init] using
    bulkDispatched_search cfg ws envelope p w htok items 0 (.init w envelope) hquiet rfl henv
      (Nat.zero_le _)

/-- A bad token, a good one, and a bad one again, all for `alice` under a known logger. -/
def badGoodBad : List LogRequest :=
  [record "app" "X" "alice", record "app" "T" "alice", record "app" "X" "alice"]

/-- The first item is dropped for its token; the third, with the same bad token, is
dispatched. -/
theorem bad_token_after_good_dispatched :
    (bulkFor alice badGoodBad).request.client = some ⟨alice, 0⟩ ∧
      (∀ _ : Nat, ∀ t ∈ smallServer.clientIntegrityTask, t.lastExecution < smallServer.now) ∧
      FirstCheck smallConfig smallServer (bulkFor alice badGoodBad).request ⟨alice, 0⟩
        (record "app" "X" "alice") = false ∧
      (bulkDispatched smallConfig (fun _ => smallServer) (bulkFor alice badGoodBad).request 0
          (.init smallServer (bulkFor alice badGoodBad).request) badGoodBad).map LogRequest.line =
        [⟨"app", "hello", "alice", "10.0.0.1"⟩, ⟨"app", "hello", "alice", "10.0.0.1"⟩] :=
  have hq : ∀ _ : Nat, ∀ t ∈ smallServer.clientIntegrityTask,
      t.lastExecution < smallServer.now := fun _ t ht => by cases ht; decide
  ⟨rfl, hq, by decide, by
    rw [bulk_checks_until_first_pass smallConfig (fun _ => smallServer) smallServer _ badGoodBad
      ⟨alice, 0⟩ rfl hq (fun _ => rfl)]
    decide⟩

end Residue
