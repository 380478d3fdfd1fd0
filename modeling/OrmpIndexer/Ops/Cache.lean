/-
# OrmpIndexer.Ops.Cache — the cache of what was collected

`MetricsCache` of `ops.rs` and the handler of `/metrics` above it. A task in the background collects from the
database again and again. Requests are answered with what was collected last, and collect for themselves only
as long as nothing was. Any number of requests come at any time, and a client that goes away stops its request
wherever it is, which drops the guard of `refresh_lock` if the request has it.

`CacheWorld` has, besides the cache, what happened to it: the refreshes that ended, and the answers with what had
been refreshed when their requests came. Instants and durations count nanoseconds; how an `f64` shows them is
`asSecsF64`.
-/
import OrmpIndexer.Config.Environment
import OrmpIndexer.Foundation.Sessions
import OrmpIndexer.Ops

namespace OrmpIndexer

open Foundation Foundation.Task

namespace Ops

structure MetricsCacheState (Time : Type) where
  snapshot : Option DbMetricsSnapshot
  lastSuccessAt : Option Nat
  lastSuccessTimestampSeconds : Option Time
  lastRefreshDurationSeconds : Option Time
  lastRefreshSuccess : Bool
  refreshErrorsTotal : Nat
  lastError : Option String

/-- The fields of `MetricsCache` that do not change. -/
structure MetricsCache where
  refreshDelay : Nat
  refreshTimeout : Nat
  staleAfter : Nat

def MetricsCache.new (config : MetricsConfig) : MetricsCache where
  refreshDelay := config.refreshDelayMs * 1000000
  refreshTimeout := config.refreshTimeoutMs * 1000000
  staleAfter := config.refreshDelayMs * 1000000 * 3

def MetricsCacheState.new (Time : Type) : MetricsCacheState Time where
  snapshot := none
  lastSuccessAt := none
  lastSuccessTimestampSeconds := none
  lastRefreshDurationSeconds := none
  lastRefreshSuccess := true
  refreshErrorsTotal := 0
  lastError := none

/-- What comes of a collection under its timeout. -/
inductive Collected where
  | ok (snapshot : DbMetricsSnapshot)
  | failed (error : String)
  | elapsed

structure Response where
  status : Nat
  body : String
deriving DecidableEq, Repr

/-! ## The program -/

inductive CacheOp where
  /-- A request comes in. -/
  | accept
  | snapshotIsSome
  | lockRefresh
  /-- The guard is dropped. -/
  | unlockRefresh
  | now
  /-- Of a `refresh` that is forced or not. -/
  | collect (force : Bool)
  | storeSnapshot (startedAt : Nat) (snapshot : DbMetricsSnapshot)
  | recordRefreshFailure (startedAt : Nat) (error : String)
  | snapshot
  | runtimeMetrics
  | sleep (delay : Nat)
  | respond (response : Response)

/-- The replies; none of these calls fails. -/
abbrev CacheReply (Time : Type) : CacheOp → Type
  | .snapshotIsSome => Bool
  | .now => Nat
  | .collect _ => Collected
  | .snapshot => Option DbMetricsSnapshot × MetricsCacheStatus Time × Option String
  | .runtimeMetrics => MetricsSnapshot Time
  | _ => Unit

abbrev Cached (Time α : Type) := Task CacheOp (CacheReply Time) Empty α

section

variable {Time : Type}

def await (op : CacheOp) : Cached Time (CacheReply Time op) := Task.await op

end

section

variable {Time : Type} [ToString Time] (asSecsF64 : Nat → Time) (cache : MetricsCache)

/-- The part of `refresh` that collects. -/
def collectGuarded (force : Bool) : Cached Time Unit := do
  let startedAt ← await CacheOp.now
  let result ← await (CacheOp.collect force)
  match result with
  | .ok snapshot => await (CacheOp.storeSnapshot startedAt snapshot)
  | .failed error => await (CacheOp.recordRefreshFailure startedAt error)
  | .elapsed => await (CacheOp.recordRefreshFailure startedAt
      s!"collect ORMP indexer metrics exceeded {asSecsF64 cache.refreshTimeout}s timeout")
  await CacheOp.unlockRefresh

def refresh (force : Bool) : Cached Time Unit := do
  await CacheOp.lockRefresh
  if force then collectGuarded asSecsF64 cache force
  else do
    let isSome ← await CacheOp.snapshotIsSome
    if isSome then await CacheOp.unlockRefresh else collectGuarded asSecsF64 cache force

/-- The first turns of `spawn_refresh_loop`. -/
def refreshLoop : Nat → Cached Time Unit
  | 0 => return ()
  | turns + 1 => do
      refresh asSecsF64 cache true
      await (CacheOp.sleep cache.refreshDelay)
      refreshLoop turns

/-- The part of `render` that reads the cache. -/
def renderSnapshot : Cached Time (Except String String) := do
  let (snapshot, status, lastError) ← await CacheOp.snapshot
  match snapshot with
  | some snapshot => do
      let runtime ← await CacheOp.runtimeMetrics
      return .ok (formatMetricsWithStatus snapshot.checkpoints snapshot.rowCounts runtime status)
  | none =>
      return .error ("metrics snapshot unavailable" ++ (lastError.map fun error => ": " ++ error).getD "")

def render : Cached Time (Except String String) := do
  let isSome ← await CacheOp.snapshotIsSome
  if !isSome then refresh asSecsF64 cache false
  renderSnapshot

def metricsResponse : Except String String → Response
  | .ok metrics => ⟨200, metrics⟩
  | .error error => ⟨503, "metrics unavailable: " ++ error⟩

def metricsHandler : Cached Time Unit := do
  await CacheOp.accept
  let result ← render asSecsF64 cache
  await (CacheOp.respond (metricsResponse result))

/-- What is started: the loop, as far as some number of turns, or a request. -/
inductive Role where
  | refreshLoop (turns : Nat)
  | request

def role : Role → Cached Time Unit
  | .refreshLoop turns => refreshLoop asSecsF64 cache turns
  | .request => metricsHandler asSecsF64 cache

end

/-! ## The cache and what happened to it -/

/-- A refresh that ended. -/
structure Refresh (Time : Type) where
  result : Except String DbMetricsSnapshot
  startedAt : Nat
  endedAt : Nat
  timestamp : Time

/-- An answer, and the refreshes that had ended when its request came. -/
structure Answer (Time : Type) where
  began : List (Refresh Time)
  response : Response

/-- The cache, its lock and the clock. Lists have the LATEST FIRST. -/
structure CacheWorld (Time : Type) where
  state : MetricsCacheState Time
  holder : Option Nat
  now : Nat
  refreshes : List (Refresh Time)
  /-- For the requests that came in, the refreshes before. -/
  began : Nat → Option (List (Refresh Time))
  answers : List (Answer Time)

section

variable {Time : Type} [LT Time] [DecidableLT Time] (asSecsF64 : Nat → Time) (cache : MetricsCache)

/-- `MetricsCache::snapshot`. -/
def snapshot (state : MetricsCacheState Time) (now : Nat) :
    Option DbMetricsSnapshot × MetricsCacheStatus Time × Option String :=
  let snapshotAgeSeconds := state.lastSuccessAt.map fun lastSuccessAt => asSecsF64 (now - lastSuccessAt)
  let status : MetricsCacheStatus Time := {
    lastSuccessTimestampSeconds := state.lastSuccessTimestampSeconds
    snapshotAgeSeconds
    lastRefreshDurationSeconds := state.lastRefreshDurationSeconds
    lastRefreshSuccess := state.lastRefreshSuccess
    refreshErrorsTotal := state.refreshErrorsTotal
    stale := (snapshotAgeSeconds.map fun age => decide (asSecsF64 cache.staleAfter < age)).getD true }
  (state.snapshot, status, state.lastError)

omit [LT Time] [DecidableLT Time] in
/-- The updates of a refresh that ended at some instant. -/
def ended (refresh : Refresh Time) (state : MetricsCacheState Time) : MetricsCacheState Time :=
  match refresh.result with
  | .ok snapshot => {
      snapshot := some snapshot
      lastSuccessAt := some refresh.endedAt
      lastSuccessTimestampSeconds := some refresh.timestamp
      lastRefreshDurationSeconds := some (asSecsF64 (refresh.endedAt - refresh.startedAt))
      lastRefreshSuccess := true
      refreshErrorsTotal := state.refreshErrorsTotal
      lastError := none }
  | .error error => { state with
      lastRefreshDurationSeconds := some (asSecsF64 (refresh.endedAt - refresh.startedAt))
      lastRefreshSuccess := false
      refreshErrorsTotal := saturatingAdd state.refreshErrorsTotal 1
      lastError := some error }

/-- What a call is answered with. -/
def cacheAnswers (w : CacheWorld Time) : (op : CacheOp) → CacheReply Time op → Prop
  | .snapshotIsSome, isSome => isSome = w.state.snapshot.isSome
  | .lockRefresh, _ => w.holder = none
  | .now, now => now = w.now
  | .snapshot, view => view = snapshot asSecsF64 cache w.state w.now
  | _, _ => True

omit [LT Time] [DecidableLT Time] in
def CacheWorld.ended (w : CacheWorld Time) (refresh : Refresh Time) : CacheWorld Time :=
  { w with state := Ops.ended asSecsF64 refresh w.state, refreshes := refresh :: w.refreshes }

omit [LT Time] [DecidableLT Time] in
/-- What a call of task `i` changes; the system clock shows `timestamp`. -/
def CacheWorld.record (i : Nat) (timestamp : Time) (w : CacheWorld Time) : CacheOp → CacheWorld Time
  | .accept => { w with began := Function.update w.began i (some w.refreshes) }
  | .lockRefresh => { w with holder := some i }
  | .unlockRefresh => { w with holder := none }
  | .storeSnapshot startedAt snapshot => w.ended asSecsF64 ⟨.ok snapshot, startedAt, w.now, timestamp⟩
  | .recordRefreshFailure startedAt error =>
      w.ended asSecsF64 ⟨.error error, startedAt, w.now, timestamp⟩
  | .respond response => { w with answers := ⟨(w.began i).getD [], response⟩ :: w.answers }
  | _ => w

/-- A call is answered some time after it was made. -/
def CacheServes (i : Nat) (w : CacheWorld Time) (op : CacheOp) :
    Except Empty (CacheReply Time op) → CacheWorld Time → Prop
  | .ok a, w' => ∃ now timestamp, w.now ≤ now ∧ cacheAnswers asSecsF64 cache { w with now } op a ∧
      w' = { w with now }.record asSecsF64 i timestamp op
  | .error _, _ => False

/-- Nothing happens when a task starts. -/
def cacheBegins (_ : Role) (w : CacheWorld Time) : CacheWorld Time := w

/-- A task that stops drops the guard if it has it. -/
def cacheEnds (i : Nat) (w : CacheWorld Time) : CacheWorld Time :=
  { w with
    holder := if w.holder = some i then none else w.holder
    began := Function.update w.began i none }

/-- A new cache. -/
def CacheWorld.new (now : Nat) : CacheWorld Time :=
  ⟨.new Time, none, now, [], fun _ => none, []⟩

end

end Ops

end OrmpIndexer
