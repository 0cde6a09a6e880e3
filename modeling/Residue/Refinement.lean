import Residue.Schedule

/-!
# The loop functions inside a run

`bulkTurns` runs the loop of one bulk against a sequence of server states, one per step of the
dispatcher. This file shows that this is what the dispatcher does inside the server. From
any state, under any interleaving of the other threads up to the next pull, the calls the
dispatcher records are those of the request it is in (`Phase.turns`, a single request or a
bulk) run against the server states its own steps saw (`dispatcherView`). They are a prefix
of them while the request is in progress, and all of them once it is done
(`run_refines_turns`).

The schedule is exposed: any `ws` that agrees with the states the dispatcher saw will do. So
what `bulk_calls_first_valid`, `dispatch_schedule_independent`, `bulk_checks_until_first_pass`
or `bulk_attributed_while_lookup_allowed` say of a schedule holds of a run of the server
whenever their hypotheses hold of the server states along it.
-/

namespace Residue

variable {ρ : Type} (cfg : Configuration) (decode : Server → ρ → Decoded)

def Action.isDispatch : Action ρ → Bool
  | .dispatch => true
  | _ => false

/-- The server state at each step the dispatcher takes in a run of the actions. -/
def dispatcherView (s : System ρ) : List (Action ρ) → List Server
  | [] => []
  | a :: as =>
    match step cfg decode s a with
    | none => []
    | some (s', _) => (if a.isDispatch then [s.server] else []) ++ dispatcherView s' as

/-- The calls still to come in the request the dispatcher is in, when its `n`-th step from
here sees server state `ws n`. -/
def Phase.turns (ws : Nat → Server) (n : Nat) : Phase → List (Server × Call)
  | .single _ r => [(ws n, ⟨r, none, true⟩)]
  | .bulk _ env items st => bulkTurns cfg ws env n st items
  | .bulkProcess _ env items st r =>
    (ws n, st.call r) :: bulkTurns cfg ws env (n + 1) (st.afterCall ((st.call r).run cfg (ws n))) items
  | _ => []

/-- The dispatcher is processing a request. -/
def Phase.inRequest : Phase → Bool
  | .single .. | .bulk .. | .bulkProcess .. => true
  | _ => false

theorem turns_of_not_inRequest {ph : Phase} {ws : Nat → Server} {n : Nat}
    (h : ph.inRequest = false) : ph.turns cfg ws n = [] := by
  cases ph <;> simp_all [Phase.inRequest, Phase.turns]

theorem dispatcherView_cons {s s₁ : System ρ} {a : Action ρ} {l : Option (Label ρ)}
    {as : List (Action ρ)} (hs : step cfg decode s a = some (s₁, l)) :
    dispatcherView cfg decode s (a :: as) =
      (if a.isDispatch then [s.server] else []) ++ dispatcherView cfg decode s₁ as := by
  simp [dispatcherView, hs]

/-- One step of the dispatcher: the calls of the request from here are those the step records
followed by those of the request from the state it leads to, one step further along the
schedule; or the step pulls. -/
theorem turns_dispatch {s s₁ : System ρ} {l : Option (Label ρ)} (ws : Nat → Server) (n : Nat)
    (hw : ws n = s.server) (hs : DispatchStep cfg decode s s₁ l) :
    (∃ r, l = some (.pull r)) ∨
      s.phase.turns cfg ws n = callsOf l.toList ++ s₁.phase.turns cfg ws (n + 1) := by
  cases hs with
  | start hp | finish hp => exact .inr (by simp [hp, Phase.turns, callsOf, Label.call?])
  | pull _ _ => exact .inl ⟨_, rfl⟩
  | single hp => exact .inr (by simp [hp, Phase.turns, callsOf, Label.call?, hw])
  | leave hp hend =>
    refine .inr ?_
    rcases hend with rfl | ⟨item, rest, rfl, hh⟩
    · simp [hp, Phase.turns]
    · simp [hp, Phase.turns, bulkTurns, hw, hh]
  | skip hp hh => exact .inr (by simp [hp, Phase.turns, bulkTurns, hw, hh])
  | head hp hh => exact .inr (by simp [hp, Phase.turns, bulkTurns, hw, hh])
  | call hp => exact .inr (by simp [hp, Phase.turns, callsOf, Label.call?, hw])

/-- `run_refines_turns` from the `n`-th step of the schedule. -/
theorem run_refines_turns_from (ws : Nat → Server) :
    ∀ (as : List (Action ρ)) (n : Nat) {s s' : System ρ} {L' : List (Label ρ)},
      run cfg decode s as = some (s', L') → pulls L' = [] →
      (∀ k w, (dispatcherView cfg decode s as)[k]? = some w → ws (n + k) = w) →
      callsOf L' <+: s.phase.turns cfg ws n ∧
        (s'.phase.inRequest = false → callsOf L' = s.phase.turns cfg ws n)
  | [], n, s, _, _, hr, _, _ => by
    obtain ⟨rfl, rfl⟩ := Prod.mk.inj (Option.some.inj hr)
    exact ⟨List.nil_prefix, fun h => (turns_of_not_inRequest cfg h).symm⟩
  | a :: as, n, s, _, _, hr, hn, hws => by
    obtain ⟨s₁, l, L₁, hs, hr₁, rfl⟩ := run_cons_eq_some cfg decode hr
    simp only [pulls_append, List.append_eq_nil] at hn
    rw [dispatcherView_cons cfg decode hs] at hws
    by_cases ha : a = .dispatch
    · subst ha
      simp only [Action.isDispatch, if_true, List.singleton_append] at hws
      have hw : ws n = s.server := hws 0 s.server (by simp)
      have ih := run_refines_turns_from ws as (n + 1) hr₁ hn.2
        fun k w hk => by simpa [Nat.add_right_comm n 1 k] using hws (k + 1) w (by simpa using hk)
      rcases turns_dispatch cfg decode ws n hw (dispatchStep_cases cfg decode hs) with
        ⟨r, rfl⟩ | heq
      · simp [pulls, Label.pulled?] at hn
      · rw [heq, callsOf_append]
        exact ⟨(List.prefix_append_right_inj _).2 ih.1, fun h => by rw [ih.2 h]⟩
    · obtain ⟨hp, hc⟩ := step_env cfg decode ha hs
      have hnd : a.isDispatch = false := by cases a <;> simp_all [Action.isDispatch]
      simp only [hnd, if_false, List.nil_append] at hws
      have ih := run_refines_turns_from ws as n hr₁ hn.2 hws
      rw [hp] at ih
      simpa [hc] using ih

/-- **The dispatcher runs the loop functions.** From any state, under any interleaving of the
other threads up to the next pull, the calls the dispatcher records, each with the server
state it was made at, are a prefix of those of the request it is in, run against any
schedule `ws` whose `k`-th state is the one the dispatcher's `k`-th step saw; and all of them
once the request is done. -/
theorem run_refines_turns {as : List (Action ρ)} {s s' : System ρ} {L' : List (Label ρ)}
    (hr : run cfg decode s as = some (s', L')) (hn : pulls L' = []) (ws : Nat → Server)
    (hws : ∀ k w, (dispatcherView cfg decode s as)[k]? = some w → ws k = w) :
    callsOf L' <+: s.phase.turns cfg ws 0 ∧
      (s'.phase.inRequest = false → callsOf L' = s.phase.turns cfg ws 0) :=
  run_refines_turns_from cfg decode ws as 0 hr hn fun k w hk => by simpa using hws k w hk

/-- `driftBulk`'s loop just entered on the small server, with an integrity execution after
its first item, run to the end of the loop. -/
def driftItems : List LogRequest :=
  [record "app" "T" "alice", record "app" "T" "alice", record "plain" "T" "bob"]
def driftStart : System Decoded :=
  ⟨⟨[], []⟩, smallServer, .bulk 0 driftBulk.request driftItems (.init smallServer driftBulk.request)⟩
def driftActions : List (Action Decoded) :=
  [.dispatch, .dispatch, .integrity, .integrity, .integrity, .dispatch, .dispatch, .dispatch,
    .dispatch, .dispatch]
def driftTrace : List (Label Decoded) :=
  [.call smallServer firstCall, .integrity, .call smallServer.execute revalidatedCall,
    .call smallServer.execute foreignCall]

/-- The states the dispatcher saw, then the last one. -/
def driftSchedule (k : Nat) : Server :=
  (dispatcherView smallConfig decodeNone driftStart driftActions).getD k smallServer.execute

theorem drift_bulk_in_run :
    run smallConfig decodeNone driftStart driftActions =
        some (⟨⟨[], []⟩, smallServer.execute, .round 0⟩, driftTrace) ∧
      pulls driftTrace = [] ∧
      (∀ k w, (dispatcherView smallConfig decodeNone driftStart driftActions)[k]? = some w →
        driftSchedule k = w) ∧
      callsOf driftTrace <+: driftStart.phase.turns smallConfig driftSchedule 0 ∧
      (Phase.inRequest (.round 0) = false →
        callsOf driftTrace = driftStart.phase.turns smallConfig driftSchedule 0) :=
  have hr : run smallConfig decodeNone driftStart driftActions =
      some (⟨⟨[], []⟩, smallServer.execute, .round 0⟩, driftTrace) := by decide
  have hws : ∀ k w, (dispatcherView smallConfig decodeNone driftStart driftActions)[k]? = some w →
      driftSchedule k = w := fun k w hk => by simp [driftSchedule, List.getD_eq_getElem?_getD, hk]
  ⟨hr, rfl, hws, run_refines_turns smallConfig decodeNone hr rfl driftSchedule hws⟩

end Residue
