import Mathlib.Data.List.Basic

/-!
# Starting and destroying handlers

`LogRequestHandler::start` (lines 33–74) starts its dispatch workers in the loop
`for (; idx <= NUM_OF_DISPATCH_THREADS; ++idx)`, whose counter is a function-local
`static int idx`: one counter for the whole process, never reset. The destructor (lines
25–31) sets `m_stopped` and joins the workers.

A process is any sequence of constructions, `start()` calls and destructions. The counter
makes `start()` create workers once per process, not once per handler:
`dispatch_workers_per_process` bounds all workers ever created by `NUM_OF_DISPATCH_THREADS`,
and `second_handler_has_no_dispatcher` is a second handler left without one.
-/

namespace Residue

/-- `NUM_OF_DISPATCH_THREADS` (line 63). -/
def numOfDispatchThreads : Nat := 1

/-- A `LogRequestHandler` as far as its workers go: `m_stopped`, `m_backgroundWorkers` (each
worker by the value of `idx` it was started under), whether `start()` has been called on it
and whether it has been destroyed (the last two are not fields of the class). -/
structure Handler where
  stopped : Bool
  backgroundWorkers : List Nat
  started : Bool
  destroyed : Bool
deriving DecidableEq, Repr

/-- The workers of a handler that run the dispatch loop `while (!m_stopped)`. -/
def Handler.running (h : Handler) : Nat := if h.stopped then 0 else h.backgroundWorkers.length

/-- `start()`'s `static int idx`, and the handlers of the process in order of construction. -/
structure Process where
  idx : Nat
  handlers : List Handler
deriving DecidableEq, Repr

/-- No handler yet; `static int idx = 1`. -/
def Process.init : Process := ⟨1, []⟩

/-- The loop `for (; idx <= NUM_OF_DISPATCH_THREADS; ++idx)` pushing a worker per turn: the
final `idx` and the workers. -/
def spawn (idx : Nat) (ws : List Nat) : Nat × List Nat :=
  if idx ≤ numOfDispatchThreads then spawn (idx + 1) (ws ++ [idx]) else (idx, ws)
termination_by numOfDispatchThreads + 1 - idx

/-- `LogRequestHandler::start` on `h` with the counter at `idx`. -/
def Handler.start (idx : Nat) (h : Handler) : Nat × Handler :=
  let (idx', ws) := spawn idx h.backgroundWorkers
  (idx', { h with stopped := false, backgroundWorkers := ws, started := true })

/-- `~LogRequestHandler`: `m_stopped = true`, then every worker is joined. -/
def Handler.destroy (h : Handler) : Handler := { h with stopped := true, destroyed := true }

/-- What a process does to its handlers: construct one, call `start()` on the `i`-th, or
destroy the `i`-th. -/
inductive Op
  | construct
  | start (i : Nat)
  | destroy (i : Nat)

/-- One operation; `none` for a handler that does not exist or is already destroyed. -/
def Process.step (p : Process) : Op → Option Process
  | .construct => some { p with handlers := p.handlers ++ [⟨false, [], false, false⟩] }
  | .start i =>
    match p.handlers[i]? with
    | some h => if h.destroyed then none
      else some ⟨(h.start p.idx).1, p.handlers.set i (h.start p.idx).2⟩
    | none => none
  | .destroy i =>
    match p.handlers[i]? with
    | some h => if h.destroyed then none else some { p with handlers := p.handlers.set i h.destroy }
    | none => none

def Process.run (p : Process) : List Op → Option Process
  | [] => some p
  | o :: os => (p.step o).bind (·.run os)

inductive Process.Reachable : Process → Prop
  | init : Process.Reachable .init
  | step {p p' : Process} (o : Op) : Process.Reachable p → p.step o = some p' →
      Process.Reachable p'

/-! ## The counter -/

/-- The loop of `start()` in closed form: workers for every `idx` up to
`NUM_OF_DISPATCH_THREADS`, after which `idx` is one past it. -/
theorem spawn_eq (idx : Nat) (ws : List Nat) :
    spawn idx ws = if idx ≤ numOfDispatchThreads then
      (numOfDispatchThreads + 1, ws ++ List.range' idx (numOfDispatchThreads + 1 - idx))
    else (idx, ws) := by
  induction idx, ws using spawn.induct with
  | case1 idx ws h ih =>
    rw [spawn, if_pos h, ih, if_pos h]
    split
    · have : numOfDispatchThreads + 1 - idx = numOfDispatchThreads + 1 - (idx + 1) + 1 := by
        omega
      rw [this, List.range'_succ, List.append_assoc, List.singleton_append]
    · obtain rfl : idx = numOfDispatchThreads := by omega
      simp
  | case2 idx ws h => rw [spawn, if_neg h, if_neg h]

/-- After `start()` the counter is past `NUM_OF_DISPATCH_THREADS`, if it was not already. -/
@[simp] theorem Handler.start_idx (idx : Nat) (h : Handler) :
    (h.start idx).1 = max idx (numOfDispatchThreads + 1) := by
  simp only [Handler.start, spawn_eq]
  split <;> omega

/-- `start()` adds a worker for each value of the counter up to `NUM_OF_DISPATCH_THREADS`:
none once the counter has passed it. -/
@[simp] theorem Handler.start_backgroundWorkers (idx : Nat) (h : Handler) :
    (h.start idx).2.backgroundWorkers =
      h.backgroundWorkers ++ List.range' idx (numOfDispatchThreads + 1 - idx) := by
  simp only [Handler.start, spawn_eq]
  split
  · rfl
  · simp [show numOfDispatchThreads + 1 - idx = 0 by omega]

@[simp] theorem Handler.destroy_backgroundWorkers (h : Handler) :
    h.destroy.backgroundWorkers = h.backgroundWorkers := rfl

theorem Handler.running_le (h : Handler) : h.running ≤ h.backgroundWorkers.length := by
  unfold Handler.running; split <;> omega

/-! ## Workers of the whole process -/

def workerCount : List Handler → Nat
  | [] => 0
  | h :: hs => h.backgroundWorkers.length + workerCount hs

@[simp] theorem workerCount_nil : workerCount [] = 0 := rfl
@[simp] theorem workerCount_cons (h : Handler) (hs : List Handler) :
    workerCount (h :: hs) = h.backgroundWorkers.length + workerCount hs := rfl

@[simp] theorem workerCount_append (l l' : List Handler) :
    workerCount (l ++ l') = workerCount l + workerCount l' := by
  induction l with
  | nil => simp
  | cons a l ih => simp [ih]; omega

/-- Replacing the `i`-th handler changes the count by the difference of their workers. -/
theorem workerCount_set {l : List Handler} {i : Nat} {h : Handler} (x : Handler)
    (hi : l[i]? = some h) :
    workerCount (l.set i x) + h.backgroundWorkers.length =
      workerCount l + x.backgroundWorkers.length := by
  induction l generalizing i with
  | nil => simp at hi
  | cons a l ih =>
    cases i with
    | zero => cases List.getElem?_cons_zero ▸ hi; simp; omega
    | succ i => have := ih (List.getElem?_cons_succ ▸ hi); simp; omega

/-- The counter has moved once per worker created, and never past
`NUM_OF_DISPATCH_THREADS + 1`. -/
structure Process.Inv (p : Process) : Prop where
  counted : workerCount p.handlers + 1 = p.idx
  bounded : p.idx ≤ numOfDispatchThreads + 1

theorem Process.Inv.step {p p' : Process} {o : Op} (hp : p.Inv) (hs : p.step o = some p') :
    p'.Inv := by
  obtain ⟨hc, hb⟩ := hp
  cases o with
  | construct =>
    cases hs
    exact ⟨by simpa using hc, hb⟩
  | start i =>
    simp only [Process.step] at hs
    split at hs <;> [split at hs; cases hs] <;> cases hs
    rename_i h hi _
    have hw := workerCount_set (h.start p.idx).2 hi
    simp only [Handler.start_backgroundWorkers, List.length_append, List.length_range'] at hw
    constructor <;> simp only [Handler.start_idx] <;> omega
  | destroy i =>
    simp only [Process.step] at hs
    split at hs <;> [split at hs; cases hs] <;> cases hs
    rename_i h hi _
    have hw := workerCount_set h.destroy hi
    simp only [Handler.destroy_backgroundWorkers] at hw
    exact ⟨by dsimp only; omega, hb⟩

theorem Process.Reachable.inv {p : Process} (h : p.Reachable) : p.Inv := by
  induction h with
  | init => exact ⟨rfl, by simp [Process.init, numOfDispatchThreads]⟩
  | step _ _ hs ih => exact ih.step hs

theorem Process.reachable_run {p p' : Process} {os : List Op} (hp : p.Reachable)
    (h : p.run os = some p') : p'.Reachable := by
  induction os generalizing p with
  | nil => cases h; exact hp
  | cons o os ih =>
    simp only [Process.run, Option.bind_eq_some] at h
    obtain ⟨q, hq, h⟩ := h
    exact ih (hp.step o hq) h

theorem length_filter_running_le (l : List Handler) :
    (l.filter fun h => 0 < h.running).length ≤ workerCount l := by
  induction l with
  | nil => rfl
  | cons a l ih =>
    have := a.running_le
    by_cases ha : 0 < a.running <;> simp [List.filter_cons, ha] <;> omega

/-- **At most `NUM_OF_DISPATCH_THREADS` dispatchers per process.** After any sequence of
constructions, `start()` calls and destructions, at most `NUM_OF_DISPATCH_THREADS` handlers
have a worker running the dispatch loop, however many handlers have been started: the
counter is shared by all of them. -/
theorem dispatch_workers_per_process {p : Process} (h : p.Reachable) :
    (p.handlers.filter fun h => 0 < h.running).length ≤ numOfDispatchThreads := by
  obtain ⟨hc, hb⟩ := h.inv
  have := length_filter_running_le p.handlers
  omega

/-! ## Two handlers -/

def twoHandlers : List Op := [.construct, .construct, .start 0, .start 1]

theorem twoHandlers_run :
    Process.init.run twoHandlers =
      some ⟨2, [⟨false, [1], true, false⟩, ⟨false, [], true, false⟩]⟩ := by
  simp [twoHandlers, Process.run, Process.step, Process.init, Handler.start, spawn_eq,
    numOfDispatchThreads]

theorem one_dispatcher_for_two_handlers :
    Process.Reachable ⟨2, [⟨false, [1], true, false⟩, ⟨false, [], true, false⟩]⟩ ∧
      ([⟨false, [1], true, false⟩, ⟨false, [], true, false⟩].filter
        fun h : Handler => 0 < h.running).length ≤ numOfDispatchThreads :=
  have h := Process.reachable_run .init twoHandlers_run
  ⟨h, dispatch_workers_per_process h⟩

/-- Both handlers are started and neither is stopped or destroyed, but the second has no
worker: its `start()` found the counter already at `2`. -/
theorem second_handler_has_no_dispatcher :
    Process.init.run twoHandlers =
        some ⟨2, [⟨false, [1], true, false⟩, ⟨false, [], true, false⟩]⟩ ∧
      Handler.running ⟨false, [], true, false⟩ = 0 :=
  ⟨twoHandlers_run, rfl⟩

end Residue
