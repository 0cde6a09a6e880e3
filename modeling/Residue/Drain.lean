import Residue.Dispatcher

/-!
# Draining the queue

The queue under every interleaving of `handle()` with the dispatcher's rounds: nothing
pushed is lost, duplicated or reordered, and the dispatcher never pulls from an empty
buffer (`queue_conservation`). Both rest on one invariant, `QueueInv`: during a round the
buffer being drained holds exactly the pulls still due, which is what makes
`switchContext()` at the end of a round safe.

A round does not always end that way: a request that fails to decode ends it at once,
without `switchContext()` (`round_stops_at_failed_request`). What it leaves in the buffer is
not lost: the dispatcher alone, with the producers idle, pulls every request pushed so far
in finitely many steps (`dispatch_drains`).
-/

namespace Residue

variable {ρ : Type} (cfg : Configuration) (decode : Server → ρ → Decoded)

/-- The request a label pushed, if any. -/
def Label.pushed? : Label ρ → Option ρ
  | .push r => some r
  | _ => none

/-- The request a label pulled, if any. -/
def Label.pulled? : Label ρ → Option ρ
  | .pull r => some r
  | _ => none

/-- The requests pushed in a history, in order. -/
def pushes (L : List (Label ρ)) : List ρ := L.filterMap Label.pushed?

/-- The requests pulled in a history, in order. -/
def pulls (L : List (Label ρ)) : List ρ := L.filterMap Label.pulled?

/-- Pulled, then still to drain, then pushed since: exactly what was pushed. During a round
the buffer being drained holds the pulls still due. -/
structure QueueInv (s : System ρ) (L : List (Label ρ)) : Prop where
  conserved : pulls L ++ s.queue.queue ++ s.queue.backlog = pushes L
  draining : ∀ left, s.phase.left = some left → s.queue.queue.length = left

@[simp] theorem pulls_append {L L' : List (Label ρ)} : pulls (L ++ L') = pulls L ++ pulls L' :=
  List.filterMap_append _ _ _
@[simp] theorem pushes_append {L L' : List (Label ρ)} :
    pushes (L ++ L') = pushes L ++ pushes L' := List.filterMap_append _ _ _

theorem afterPull_left (w : Server) (left : Nat) (raw : ρ) :
    (afterPull cfg decode w left raw).left = none ∨
      (afterPull cfg decode w left raw).left = some left := by
  rcases afterPull_cases cfg decode w left raw with h | h | ⟨_, h⟩ | ⟨_, _, h⟩ <;>
    simp [h, Phase.left]

theorem queueInv_dispatch {s s' : System ρ} {L : List (Label ρ)} {l : Option (Label ρ)}
    (h : QueueInv s L) (hs : DispatchStep cfg decode s s' l) :
    QueueInv s' (L ++ l.toList) := by
  obtain ⟨hc, hd⟩ := h
  cases hs with
  | start hp => exact ⟨by simpa using hc, fun _ hl => by simp_all [Phase.left, RequestQueue.size]⟩
  | finish hp =>
    have hq : s.queue.queue = [] :=
      List.eq_nil_of_length_eq_zero (hd 0 (by simp [hp, Phase.left]))
    refine ⟨?_, fun _ hl => by simp [Phase.left] at hl⟩
    simpa [pulls, pushes, Label.pushed?, Label.pulled?, hq] using hc
  | @pull left raw q hp hpull =>
    obtain ⟨hqq, hqb⟩ := RequestQueue.pull_eq_some _ hpull
    have hlen := hd (left + 1) (by simp [hp, Phase.left])
    rw [hqq] at hlen
    refine ⟨by simpa [pulls, pushes, Label.pushed?, Label.pulled?, hqq, hqb] using hc,
      fun l' hl => ?_⟩
    rcases afterPull_left cfg decode s.server left raw with h' | h'
    · simp_all
    · simp only [h', Option.some.injEq] at hl
      simp_all
  | single hp | call hp =>
    refine ⟨?_, fun _ hl => hd _ (by simp_all [Phase.left])⟩
    simpa [pulls, pushes, Label.pushed?, Label.pulled?] using hc
  | leave hp _ | skip hp _ | head hp _ =>
    exact ⟨by simpa using hc, fun _ hl => hd _ (by simp_all [Phase.left])⟩

theorem queueInv_step {s s' : System ρ} {L : List (Label ρ)} {a : Action ρ}
    {l : Option (Label ρ)} (h : QueueInv s L) (hs : step cfg decode s a = some (s', l)) :
    QueueInv s' (L ++ l.toList) := by
  cases a with
  | handle r =>
    cases hs
    refine ⟨?_, h.draining⟩
    simpa [pulls, pushes, Label.pushed?, Label.pulled?] using congrArg (· ++ [r]) h.conserved
  | integrity =>
    cases hs
    refine ⟨?_, h.draining⟩
    split <;> simpa [pulls, pushes, Label.pushed?, Label.pulled?] using h.conserved
  | tick | connect _ | issue _ => cases hs; exact ⟨by simpa using h.conserved, h.draining⟩
  | dispatch => exact queueInv_dispatch cfg decode h (dispatchStep_cases cfg decode hs)

theorem queueInv_reachable {s : System ρ} {L : List (Label ρ)}
    (h : Reachable cfg decode s L) : QueueInv s L := by
  induction h with
  | init w => exact ⟨rfl, fun _ hl => by simp [System.init, Phase.left] at hl⟩
  | step _ _ hs ih => exact queueInv_step cfg decode ih hs

/-- **Request-queue conservation and FIFO.** Under any interleaving of `handle()` calls
with the dispatcher's rounds, including rounds cut short by a failed request, the requests
pulled so far, then those in the buffer being drained, then those in the backlog are
exactly the requests pushed, in push order; and the dispatcher never pulls from an empty
buffer. -/
theorem queue_conservation {s : System ρ} {L : List (Label ρ)}
    (h : Reachable cfg decode s L) :
    pulls L ++ s.queue.queue ++ s.queue.backlog = pushes L ∧
      ∀ left, s.phase = .round (left + 1) → s.queue.queue ≠ [] := by
  obtain ⟨hc, hd⟩ := queueInv_reachable cfg decode h
  refine ⟨hc, fun left hp hq => ?_⟩
  simpa [hq] using hd (left + 1) (by simp [hp, Phase.left])

/-- A request `RequestHandler::handle` rejects, and one it accepts. -/
def rejected : Decoded := ⟨record "app" "T" "alice", .badRequest, none⟩
def accepted : Decoded := ⟨record "app" "T" "alice", .continue, none⟩

theorem queue_conservation_failed_round :
    Reachable smallConfig decodeNone ⟨⟨[accepted], []⟩, smallServer, .idle⟩
        [.push rejected, .push accepted, .switchContext, .pull rejected] ∧
      (pulls [.push rejected, .push accepted, .switchContext, .pull rejected] ++ [accepted] ++
          [] = pushes [Label.push rejected, .push accepted, .switchContext, .pull rejected] ∧
        ∀ left, Phase.idle = .round (left + 1) → [accepted] ≠ []) :=
  have h := reachable_of_run smallConfig decodeNone smallServer
    [.handle rejected, .handle accepted, .dispatch, .dispatch, .dispatch, .dispatch] (by decide)
  ⟨h, queue_conservation smallConfig decodeNone h⟩

/-- A round that reads `total = 2` stops at its first request, which fails to decode: it
pulls one request, does not call `switchContext()`, and leaves the other in the buffer
being drained. -/
theorem round_stops_at_failed_request :
    run smallConfig decodeNone (.init smallServer)
        [.handle rejected, .handle accepted, .dispatch, .dispatch, .dispatch] =
      some (⟨⟨[rejected, accepted], []⟩, smallServer, .round 2⟩,
        [.push rejected, .push accepted, .switchContext]) ∧
    dispatchStep smallConfig decodeNone ⟨⟨[rejected, accepted], []⟩, smallServer, .round 2⟩ =
      some (⟨⟨[accepted], []⟩, smallServer, .idle⟩, some (.pull rejected)) := by
  decide

/-! ## The dispatcher alone drains the queue -/

/-- Raw requests pushed and not yet pulled. -/
def System.pending (s : System ρ) : Nat := s.queue.queue.length + s.queue.backlog.length

/-- At most how many steps a round with `left` pulls due takes before its next pull or its
`switchContext()`. -/
def roundRank : Nat → Nat
  | 0 => 2
  | _ + 1 => 0

/-- A bound on the dispatcher's steps before its next pull, while requests are pending:
`drainEmpty` says whether the buffer being drained is empty. A bulk item takes two steps. -/
def Phase.rank (drainEmpty : Bool) : Phase → Nat
  | .idle => if drainEmpty then 3 else 1
  | .round left => roundRank left
  | .single left _ => roundRank left + 1
  | .bulk left _ items _ => roundRank left + 2 * items.length + 1
  | .bulkProcess left _ items _ _ => roundRank left + 2 * items.length + 2

/-- The measure of `dispatch_drains`: pending requests, then steps to the next pull. -/
def System.drainMeasure (s : System ρ) : Nat × Nat :=
  (s.pending, s.phase.rank s.queue.queue.isEmpty)

/-- The dispatcher never pushes. -/
theorem pushes_dispatch {s s' : System ρ} {l : Option (Label ρ)}
    (hs : DispatchStep cfg decode s s' l) : pushes l.toList = [] := by
  cases hs <;> rfl

/-- A step that leaves the queue alone must bring the next pull closer. -/
theorem drainMeasure_lt_of_rank {s s' : System ρ} (hq : s'.queue = s.queue)
    (hr : s'.phase.rank s.queue.queue.isEmpty < s.phase.rank s.queue.queue.isEmpty) :
    Prod.Lex (· < ·) (· < ·) s'.drainMeasure s.drainMeasure := by
  simp only [System.drainMeasure, System.pending, hq]
  exact Prod.Lex.right _ hr

/-- The dispatcher can always step: it never pulls from an empty buffer. -/
theorem dispatchStep_isSome {s : System ρ} {L : List (Label ρ)} (h : QueueInv s L) :
    (dispatchStep cfg decode s).isSome := by
  unfold dispatchStep
  split
  case h_3 left hp =>
    have hq := h.draining (left + 1) (by simp [hp, Phase.left])
    simpa using RequestQueue.pull_isSome s.queue (List.ne_nil_of_length_pos (by omega))
  case h_6 => split <;> rfl
  all_goals rfl

/-- While requests are pending, each step of the dispatcher either pulls or brings the next
pull closer. -/
theorem drainMeasure_lt {s s' : System ρ} {L : List (Label ρ)} {l : Option (Label ρ)}
    (h : QueueInv s L) (hn : s.pending ≠ 0) (hs : DispatchStep cfg decode s s' l) :
    Prod.Lex (· < ·) (· < ·) s'.drainMeasure s.drainMeasure := by
  cases hs with
  | start hp =>
    refine drainMeasure_lt_of_rank rfl ?_
    cases hq : s.queue.queue <;> simp [Phase.rank, roundRank, RequestQueue.size, hp, hq]
  | finish hp =>
    have hq := List.eq_nil_of_length_eq_zero (h.draining 0 (by simp [hp, Phase.left]))
    cases hb : s.queue.backlog
    · simp [System.pending, hq, hb] at hn
    · simp [System.drainMeasure, System.pending, Prod.lex_def, Phase.rank, roundRank, hp, hq, hb]
  | pull hp hpull =>
    obtain ⟨hqq, hqb⟩ := RequestQueue.pull_eq_some _ hpull
    simp [System.drainMeasure, System.pending, Prod.lex_def, hqq, hqb]
  | single hp | call hp => exact drainMeasure_lt_of_rank rfl (by simp [Phase.rank, hp])
  | leave hp _ => exact drainMeasure_lt_of_rank rfl (by simp only [Phase.rank, hp]; omega)
  | skip hp _ | head hp _ =>
    exact drainMeasure_lt_of_rank rfl (by simp only [Phase.rank, hp, List.length_cons]; omega)

/-- **The dispatcher alone drains the queue.** From every reachable state, with no other
thread taking a step, finitely many steps of the dispatcher, none a pull from an empty
buffer, pull every request pushed so far: requests a round left in the buffer when it
stopped at a failed request are pulled by the rounds after it. -/
theorem dispatch_drains {s : System ρ} {L : List (Label ρ)} (h : Reachable cfg decode s L) :
    ∃ n s' L', run cfg decode s (List.replicate n .dispatch) = some (s', L') ∧
      pulls (L ++ L') = pushes L := by
  by_cases hn : s.pending = 0
  · have hc := (queueInv_reachable cfg decode h).conserved
    simp only [System.pending, Nat.add_eq_zero, List.length_eq_zero] at hn
    exact ⟨0, s, [], rfl, by simpa [hn] using hc⟩
  · have inv := queueInv_reachable cfg decode h
    obtain ⟨⟨s', l⟩, hs⟩ := Option.isSome_iff_exists.1 (dispatchStep_isSome cfg decode inv)
    have hlt := drainMeasure_lt cfg decode inv hn (dispatchStep_cases cfg decode hs)
    obtain ⟨n, s'', L', hr, hp⟩ := dispatch_drains (Reachable.step .dispatch h hs)
    refine ⟨n + 1, s'', l.toList ++ L', by simp [run, step, hs, hr], ?_⟩
    simpa [pushes_dispatch cfg decode (dispatchStep_cases cfg decode hs)] using hp
termination_by s.drainMeasure
decreasing_by exact hlt

theorem failed_round_drained :
    Reachable smallConfig decodeNone ⟨⟨[accepted], []⟩, smallServer, .idle⟩
        [.push rejected, .push accepted, .switchContext, .pull rejected] ∧
      ∃ n s' L', run smallConfig decodeNone ⟨⟨[accepted], []⟩, smallServer, .idle⟩
          (List.replicate n .dispatch) = some (s', L') ∧
        pulls ([Label.push rejected, .push accepted, .switchContext, .pull rejected] ++ L') =
          pushes [Label.push rejected, .push accepted, .switchContext, .pull rejected] :=
  have h := reachable_of_run smallConfig decodeNone smallServer
    [.handle rejected, .handle accepted, .dispatch, .dispatch, .dispatch, .dispatch] (by decide)
  ⟨h, dispatch_drains smallConfig decodeNone h⟩

end Residue
