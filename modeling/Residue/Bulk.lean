import Residue.Policy

/-!
# The bulk loop of `processRequestQueue`

Lines 117–165: the items of a JSON array are processed in order, under the cap
`maxItemsInBulk` and one client validation that is carried from item to item. The dispatcher
takes each valid item in two steps, and the other threads run between them as between any
two items. The head of the loop (`bulkHead`, lines 127–150) checks the cap and runs the
re-validation test against the integrity task's `lastExecution()`. The call of line 151
(`BulkState.call`) then runs `processRequest`, which reads the registry and the token store
as they are by then. Nothing locks the two together: a sweep can come after the test and
before the call.

`bulkTurns` runs the loop to its end against any sequence of server states, one per step of
the dispatcher, and records each call with the state it was made at. The calls and the
dispatched records are read off it (`bulkCalls`, `bulkDispatched`), so the theorem of this
file (`bulk_calls_first_valid`) holds under every schedule of the other threads.
-/

namespace Residue

variable (cfg : Configuration)

/-- The arguments of one call of `processRequest`. -/
structure Call where
  request : LogRequest
  clientRef : Option (Option ClientPtr)
  forceCheck : Bool
deriving DecidableEq, Repr

/-- The call made at server state `w`. -/
def Call.run (w : Server) (call : Call) : ProcessResult :=
  processRequest cfg w call.request call.clientRef call.forceCheck

/-- The records calls made at the given server states pass to `dispatch`, in order. -/
def dispatches (calls : List (Server × Call)) : List LogRequest :=
  calls.filterMap fun (w, c) => (c.run cfg w).dispatched

/-- The locals of the bulk loop (lines 120–126). -/
structure BulkState where
  itemCount : Nat
  lastClientValidation : Nat
  currentClient : Option ClientPtr
  lastKnownClientId : String
  forceClientValidation : Bool
deriving DecidableEq, Repr

/-- Their values before the first item, with `Utils::now()` read at `w`. -/
def BulkState.init (w : Server) (request : LogRequest) : BulkState :=
  ⟨0, w.now, request.client, request.clientId, true⟩

/-- The test of lines 138–140: the client held is not already to be validated and the
integrity task has run since the last validation. -/
def revalidates (w : Server) (s : BulkState) : Bool :=
  !s.forceClientValidation &&
    w.clientIntegrityTask.any fun t => decide (s.lastClientValidation ≤ t.lastExecution)

/-- Lines 133–137: a deserialized item holds no client and gets the envelope's address and
time. -/
def freshRequest (envelope item : LogRequest) : LogRequest :=
  { item with client := none, ipAddr := envelope.ipAddr, dateReceived := envelope.dateReceived }

/-- Lines 133–148: the item as it is passed to `processRequest`, after an integrity execution
under the last known client id. -/
def bulkRequest (w : Server) (envelope : LogRequest) (s : BulkState) (item : LogRequest) :
    LogRequest :=
  if revalidates w s then { freshRequest envelope item with clientId := s.lastKnownClientId }
  else freshRequest envelope item

/-- Lines 141–149 on the locals: the held pointer is dropped and validation forced. -/
def BulkState.revalidate (w : Server) (s : BulkState) : BulkState :=
  if revalidates w s then
    { s with forceClientValidation := true, currentClient := none,
             lastClientValidation := w.now }
  else s

/-- The head of `for (auto it = j.begin(); it != j.end(); ++it)` at server state `w`: `none` is
the `break` at `maxItemsInBulk`, `some none` skips an invalid item, and a valid one leaves
the locals and the request for the call of line 151. -/
def bulkHead (w : Server) (envelope : LogRequest) (s : BulkState) (item : LogRequest) :
    Option (Option (BulkState × LogRequest)) :=
  if s.itemCount = cfg.maxItemsInBulk then none
  else if item.isValid then some (some (s.revalidate w, bulkRequest w envelope s item))
  else some none

/-- Line 151: `processRequest(&requestItem, &currentClient, forceClientValidation)`. -/
def BulkState.call (s : BulkState) (request : LogRequest) : Call :=
  ⟨request, some s.currentClient, s.forceClientValidation⟩

/-- Lines 152–158: the locals after `processRequest` returned `r`. -/
def BulkState.afterCall (s : BulkState) (r : ProcessResult) : BulkState :=
  match r.dispatched with
  | some _ =>
    { s with currentClient := r.client, forceClientValidation := false,
             lastKnownClientId := (r.client.map (·.client.id)).getD "",
             itemCount := s.itemCount + 1 }
  | none =>
    { s with currentClient := r.client, forceClientValidation := true,
             itemCount := s.itemCount + 1 }

/-- The bulk loop over `items` when its `n`-th step sees server state `ws n`: each call it
makes, with the server state it was made at. A valid item takes two steps, its head and its
call. -/
def bulkTurns (ws : Nat → Server) (envelope : LogRequest) :
    Nat → BulkState → List LogRequest → List (Server × Call)
  | _, _, [] => []
  | n, s, item :: items =>
    match bulkHead cfg (ws n) envelope s item with
    | none => []
    | some none => bulkTurns ws envelope (n + 1) s items
    | some (some (s', request)) =>
      (ws (n + 1), s'.call request) :: bulkTurns ws envelope (n + 2)
        (s'.afterCall ((s'.call request).run cfg (ws (n + 1)))) items

/-- The calls the bulk loop makes. -/
def bulkCalls (ws : Nat → Server) (envelope : LogRequest) (n : Nat) (s : BulkState)
    (items : List LogRequest) : List Call :=
  (bulkTurns cfg ws envelope n s items).map Prod.snd

/-- The records the bulk loop passes to `dispatch`. -/
def bulkDispatched (ws : Nat → Server) (envelope : LogRequest) (n : Nat) (s : BulkState)
    (items : List LogRequest) : List LogRequest :=
  dispatches cfg (bulkTurns cfg ws envelope n s items)

/-! ## Small lemmas -/

section
variable {w : Server} {s : BulkState} {r : ProcessResult} {envelope item : LogRequest}

@[simp] theorem dispatches_nil : dispatches cfg [] = [] := rfl

@[simp] theorem dispatches_cons {c : Call} {calls : List (Server × Call)} :
    dispatches cfg ((w, c) :: calls) = (c.run cfg w).dispatched.toList ++ dispatches cfg calls := by
  cases h : (c.run cfg w).dispatched <;> simp [dispatches, h]

@[simp] theorem dispatches_append {calls calls' : List (Server × Call)} :
    dispatches cfg (calls ++ calls') = dispatches cfg calls ++ dispatches cfg calls' :=
  List.filterMap_append _ _ _

@[simp] theorem freshRequest_client : (freshRequest envelope item).client = none := rfl
@[simp] theorem freshRequest_isValid : (freshRequest envelope item).isValid = item.isValid := rfl
@[simp] theorem freshRequest_dateReceived :
    (freshRequest envelope item).dateReceived = envelope.dateReceived := rfl

@[simp] theorem call_request {q : LogRequest} : (s.call q).request = q := rfl
@[simp] theorem call_clientRef {q : LogRequest} : (s.call q).clientRef = some s.currentClient :=
  rfl
@[simp] theorem call_forceCheck {q : LogRequest} :
    (s.call q).forceCheck = s.forceClientValidation := rfl

@[simp] theorem revalidate_itemCount : (s.revalidate w).itemCount = s.itemCount := by
  unfold BulkState.revalidate; split <;> rfl

@[simp] theorem afterCall_itemCount : (s.afterCall r).itemCount = s.itemCount + 1 := by
  unfold BulkState.afterCall; split <;> rfl

@[simp] theorem afterCall_currentClient : (s.afterCall r).currentClient = r.client := by
  unfold BulkState.afterCall; split <;> rfl

theorem afterCall_forceClientValidation :
    (s.afterCall r).forceClientValidation = r.dispatched.isNone := by
  unfold BulkState.afterCall; split <;> simp_all

@[simp] theorem revalidate_lastKnownClientId :
    (s.revalidate w).lastKnownClientId = s.lastKnownClientId := by
  unfold BulkState.revalidate; split <;> rfl

@[simp] theorem afterCall_lastClientValidation :
    (s.afterCall r).lastClientValidation = s.lastClientValidation := by
  unfold BulkState.afterCall; split <;> rfl

theorem afterCall_lastKnownClientId (h : r.dispatched.isSome) :
    (s.afterCall r).lastKnownClientId = (r.client.map (·.client.id)).getD "" := by
  unfold BulkState.afterCall; split <;> simp_all

theorem forceClientValidation_of_revalidate (h : (s.revalidate w).forceClientValidation = false) :
    s.forceClientValidation = false := by
  unfold BulkState.revalidate at h; split at h <;> simp_all

theorem revalidate_of_not (h : revalidates w s = false) : s.revalidate w = s := by
  simp [BulkState.revalidate, h]

theorem bulkRequest_of_not (h : revalidates w s = false) :
    bulkRequest w envelope s item = freshRequest envelope item := by
  simp [bulkRequest, h]

/-- After the test fired, no client is held, validation is forced, and the item goes to
`processRequest` with no client under the last known client id. -/
theorem revalidate_of_revalidates (h : revalidates w s = true) :
    (s.revalidate w).currentClient = none ∧ (s.revalidate w).forceClientValidation = true ∧
      bulkRequest w envelope s item =
        { freshRequest envelope item with clientId := s.lastKnownClientId } := by
  simp [BulkState.revalidate, bulkRequest, h]

@[simp] theorem bulkRequest_client : (bulkRequest w envelope s item).client = none := by
  unfold bulkRequest; split <;> rfl
@[simp] theorem bulkRequest_isValid : (bulkRequest w envelope s item).isValid = item.isValid := by
  unfold bulkRequest; split <;> rfl
@[simp] theorem bulkRequest_dateReceived :
    (bulkRequest w envelope s item).dateReceived = envelope.dateReceived := by
  unfold bulkRequest; split <;> rfl

/-- The call of line 151 bypasses the checks exactly when validation is not forced and a
client is held. -/
theorem call_bypass {q : LogRequest} :
    bypassChecks (s.call q).clientRef (s.call q).forceCheck = true ↔
      s.forceClientValidation = false ∧ s.currentClient.isSome := by
  simp [bypassChecks]

end

/-! ## The loop, turn by turn -/

section
variable {ws : Nat → Server} {envelope item : LogRequest} {items : List LogRequest}
  {n : Nat} {s : BulkState}

@[simp] theorem bulkTurns_nil : bulkTurns cfg ws envelope n s [] = [] := rfl

theorem bulkTurns_cap (h : s.itemCount = cfg.maxItemsInBulk) :
    bulkTurns cfg ws envelope n s (item :: items) = [] := by
  simp [bulkTurns, bulkHead, h]

theorem bulkTurns_invalid (hv : item.isValid = false) :
    bulkTurns cfg ws envelope n s (item :: items) =
      if s.itemCount = cfg.maxItemsInBulk then [] else bulkTurns cfg ws envelope (n + 1) s items := by
  by_cases hcap : s.itemCount = cfg.maxItemsInBulk <;> simp [bulkTurns, bulkHead, hcap, hv]

/-- A valid item below the cap: the head at `ws n`, then the call at `ws (n + 1)`. -/
theorem bulkTurns_valid (hcap : s.itemCount ≠ cfg.maxItemsInBulk) (hv : item.isValid = true) :
    bulkTurns cfg ws envelope n s (item :: items) =
      (ws (n + 1), (s.revalidate (ws n)).call (bulkRequest (ws n) envelope s item)) ::
        bulkTurns cfg ws envelope (n + 2) ((s.revalidate (ws n)).afterCall
          (((s.revalidate (ws n)).call (bulkRequest (ws n) envelope s item)).run cfg (ws (n + 1))))
          items := by
  simp [bulkTurns, bulkHead, hcap, hv]

end

/-- `r` is `item` as the bulk loop hands it to `processRequest`: with no client, the
envelope's `ipAddr` and `dateReceived`, and some `client_id`. -/
def BulkItem (envelope item r : LogRequest) : Prop :=
  ∃ id, r = { item with client := none, clientId := id, ipAddr := envelope.ipAddr,
                        dateReceived := envelope.dateReceived }

theorem bulkRequest_bulkItem {w : Server} {envelope item : LogRequest} {s : BulkState} :
    BulkItem envelope item (bulkRequest w envelope s item) := by
  unfold bulkRequest
  split
  · exact ⟨_, rfl⟩
  · exact ⟨item.clientId, rfl⟩

/-- Below the cap, a valid item takes one of the places left. -/
theorem take_cons_below_cap {α : Type} {m i : Nat} (hcap : i ≠ m) (hi : i ≤ m) (x : α)
    (l : List α) : (x :: l).take (m - i) = x :: l.take (m - (i + 1)) := by
  obtain ⟨k, hk⟩ := Nat.exists_eq_succ_of_ne_zero (show m - i ≠ 0 by omega)
  rw [hk, List.take_succ_cons, show m - (i + 1) = k by omega]

/-- The loop from any point below the cap: the calls are made on the next valid items, as
many as the cap leaves room for. -/
theorem bulkCalls_take (ws : Nat → Server) (envelope : LogRequest) :
    ∀ (items : List LogRequest) (n : Nat) (s : BulkState), s.itemCount ≤ cfg.maxItemsInBulk →
      List.Forall₂ (BulkItem envelope)
        ((items.filter (·.isValid)).take (cfg.maxItemsInBulk - s.itemCount))
        ((bulkCalls cfg ws envelope n s items).map Call.request)
  | [], _, _, _ => by simp [bulkCalls]
  | item :: items, n, s, hs => by
    by_cases hcap : s.itemCount = cfg.maxItemsInBulk
    · simp [bulkCalls, bulkTurns_cap cfg hcap, hcap]
    cases hv : item.isValid
    · simpa [bulkCalls, bulkTurns_invalid cfg hv, hcap, hv] using
        bulkCalls_take ws envelope items (n + 1) s hs
    · have ih := bulkCalls_take ws envelope items (n + 2)
        (((s.revalidate (ws n)).afterCall
          (((s.revalidate (ws n)).call (bulkRequest (ws n) envelope s item)).run cfg (ws (n + 1)))))
        (by simp only [afterCall_itemCount, revalidate_itemCount]; omega)
      simp only [afterCall_itemCount, revalidate_itemCount] at ih
      simp only [bulkCalls, bulkTurns_valid cfg hcap hv, List.map_cons, call_request,
        List.filter_cons_of_pos hv, take_cons_below_cap hcap hs]
      exact List.Forall₂.cons bulkRequest_bulkItem ih

/-- **Bulk cap and order.** Under any schedule of the other threads, the bulk loop calls
`processRequest` on exactly the first `maxItemsInBulk` valid items of the array (all of
them if there are fewer), in array order, each with the envelope's `ipAddr` and
`dateReceived`; invalid items are skipped without being counted. -/
theorem bulk_calls_first_valid (ws : Nat → Server) (w : Server)
    (envelope : LogRequest) (items : List LogRequest) :
    List.Forall₂ (BulkItem envelope)
      ((items.filter (·.isValid)).take cfg.maxItemsInBulk)
      ((bulkCalls cfg ws envelope 0 (BulkState.init w envelope) items).map Call.request) := by
  simpa [BulkState.init] using
    bulkCalls_take cfg ws envelope items 0 (BulkState.init w envelope) (Nat.zero_le _)

end Residue
