/-
# OrmpIndexer.Metrics — what the process counts

`metrics.rs`. The process keeps one row of counters for each scope, a chain with its dataset, and every
`record_` function changes one row; the row is there from the first call on. What the source reads from a
clock, seconds in an `f64`, is a value of a type `Time` here, handed to the functions that read it.

Most fields only ever count up. `Counter` names them, `Note.adds` says how much a call adds to each, and
`shown_recordNote` is all the rest of the development needs to know of the functions below: the counter of a
scope is the sum of what was added, up to `u64::MAX`.
-/
import OrmpIndexer.Database
import OrmpIndexer.Planner

namespace OrmpIndexer

open Foundation

structure ConfiguredScopeMetricsRow where
  chainId : Nat
  dataset : String
  startBlock : Nat
  batchSize : Nat
deriving DecidableEq, Repr

/-- An entry of `incomplete_serves_total`. -/
structure IncompleteServes where
  reason : String
  count : Nat
deriving DecidableEq, Repr

instance : Keyed IncompleteServes String :=
  ⟨(·.reason), compare, String.instTransOrd, String.instLawfulEqOrd⟩

structure RuntimeMetricsRow (Time : Type) where
  chainId : Nat
  dataset : String
  targetBlock : Option Nat
  remainingBlocks : Option Nat
  datalensHeadHeight : Option Nat
  datalensHeadObservedTimestampSeconds : Option Time
  datalensHeadAdvancedTimestampSeconds : Option Time
  chainLastSuccessTimestampSeconds : Option Time
  checkpointLastForwardAdvanceTimestampSeconds : Option Time
  consecutiveFailures : Nat
  chainPassSuccessTotal : Nat
  chainPassFailureTotal : Nat
  rangesSuccessTotal : Nat
  rangesFailureTotal : Nat
  blocksProcessedTotal : Nat
  recordsReadTotal : Nat
  recordsDecodedTotal : Nat
  recordsWrittenTotal : Nat
  batchDurationSecondsSum : Time
  batchDurationSecondsCount : Nat
  datalensLogRequestsSuccessTotal : Nat
  datalensLogRequestsFailureTotal : Nat
  datalensBlockRequestsSuccessTotal : Nat
  datalensBlockRequestsFailureTotal : Nat
  reorgRollbacksTotal : Nat
  incompleteServesTotal : Table IncompleteServes

/-- What is known of a range that was committed, without its duration. -/
structure RangeSuccessMetrics where
  blocksProcessed : Nat
  recordsRead : Nat
  recordsDecoded : Nat
  recordsWritten : Nat
  remainingBlocks : Nat
deriving DecidableEq, Repr

/-- Rows are stored under their `MetricsScopeKey`. -/
instance keyedConfiguredScope : Keyed ConfiguredScopeMetricsRow (Nat × String) :=
  ⟨fun row => (row.chainId, row.dataset), compare, Std.instTransOrdProd, Std.instLawfulEqOrdProd⟩

instance keyedRuntimeRow {Time : Type} : Keyed (RuntimeMetricsRow Time) (Nat × String) :=
  ⟨fun row => (row.chainId, row.dataset), compare, Std.instTransOrdProd, Std.instLawfulEqOrdProd⟩

structure MetricsState (Time : Type) where
  configuredScopes : Table ConfiguredScopeMetricsRow
  runtimeRows : Table (RuntimeMetricsRow Time)

structure MetricsSnapshot (Time : Type) where
  configuredScopes : List ConfiguredScopeMetricsRow
  runtimeRows : List (RuntimeMetricsRow Time)

namespace Metrics

variable {Time : Type} [Zero Time] [Add Time]

/-- `MetricsState::default`. -/
def initial : MetricsState Time := ⟨.empty, .empty⟩

/-- A row before the first call. -/
def runtimeRow (chainId : Nat) (dataset : String) : RuntimeMetricsRow Time where
  chainId := chainId
  dataset := dataset
  targetBlock := none
  remainingBlocks := none
  datalensHeadHeight := none
  datalensHeadObservedTimestampSeconds := none
  datalensHeadAdvancedTimestampSeconds := none
  chainLastSuccessTimestampSeconds := none
  checkpointLastForwardAdvanceTimestampSeconds := none
  consecutiveFailures := 0
  chainPassSuccessTotal := 0
  chainPassFailureTotal := 0
  rangesSuccessTotal := 0
  rangesFailureTotal := 0
  blocksProcessedTotal := 0
  recordsReadTotal := 0
  recordsDecodedTotal := 0
  recordsWrittenTotal := 0
  batchDurationSecondsSum := 0
  batchDurationSecondsCount := 0
  datalensLogRequestsSuccessTotal := 0
  datalensLogRequestsFailureTotal := 0
  datalensBlockRequestsSuccessTotal := 0
  datalensBlockRequestsFailureTotal := 0
  reorgRollbacksTotal := 0
  incompleteServesTotal := .empty

/-! ## One call on its row -/

/-- What a caller reports about a scope. -/
inductive Note where
  | chainHead (latestBlock targetBlock : Nat)
  | chainPass (success : Bool) (consecutiveFailures : Nat)
  | remainingBlocks (remainingBlocks : Nat)
  | rangeSuccess (metrics : RangeSuccessMetrics)
  | rangeFailure
  | datalensRequest (operation : String) (success : Bool)
  | incompleteServe (reason : String)
  | reorgRollback
deriving DecidableEq, Repr

section

variable (now duration : Time) (row : RuntimeMetricsRow Time)

def recordChainHead (latestBlock targetBlock : Nat) : RuntimeMetricsRow Time :=
  -- any head above the one before counts as an advance, also after the head fell
  let advanced := row.datalensHeadHeight.all fun previous => decide (previous < latestBlock)
  { row with
    datalensHeadHeight := some latestBlock
    targetBlock := some targetBlock
    datalensHeadObservedTimestampSeconds := some now
    datalensHeadAdvancedTimestampSeconds :=
      if advanced then some now else row.datalensHeadAdvancedTimestampSeconds }

def recordChainPass (success : Bool) (consecutiveFailures : Nat) : RuntimeMetricsRow Time :=
  let row := { row with consecutiveFailures }
  if success then
    { row with
      chainPassSuccessTotal := saturatingAdd row.chainPassSuccessTotal 1
      chainLastSuccessTimestampSeconds := some now }
  else { row with chainPassFailureTotal := saturatingAdd row.chainPassFailureTotal 1 }

def recordRemainingBlocks (remainingBlocks : Nat) : RuntimeMetricsRow Time :=
  { row with remainingBlocks := some remainingBlocks }

def recordRangeSuccess (metrics : RangeSuccessMetrics) : RuntimeMetricsRow Time :=
  { row with
    rangesSuccessTotal := saturatingAdd row.rangesSuccessTotal 1
    blocksProcessedTotal := saturatingAdd row.blocksProcessedTotal metrics.blocksProcessed
    recordsReadTotal := saturatingAdd row.recordsReadTotal metrics.recordsRead
    recordsDecodedTotal := saturatingAdd row.recordsDecodedTotal metrics.recordsDecoded
    recordsWrittenTotal := saturatingAdd row.recordsWrittenTotal metrics.recordsWritten
    batchDurationSecondsSum := row.batchDurationSecondsSum + duration
    batchDurationSecondsCount := saturatingAdd row.batchDurationSecondsCount 1
    remainingBlocks := some metrics.remainingBlocks
    checkpointLastForwardAdvanceTimestampSeconds := some now }

def recordRangeFailure : RuntimeMetricsRow Time :=
  { row with rangesFailureTotal := saturatingAdd row.rangesFailureTotal 1 }

def recordDatalensRequest (operation : String) (success : Bool) : RuntimeMetricsRow Time :=
  if operation = "logs" then
    if success then
      { row with
        datalensLogRequestsSuccessTotal := saturatingAdd row.datalensLogRequestsSuccessTotal 1 }
    else
      { row with
        datalensLogRequestsFailureTotal := saturatingAdd row.datalensLogRequestsFailureTotal 1 }
  else if operation = "blocks" then
    if success then
      { row with
        datalensBlockRequestsSuccessTotal := saturatingAdd row.datalensBlockRequestsSuccessTotal 1 }
    else
      { row with
        datalensBlockRequestsFailureTotal := saturatingAdd row.datalensBlockRequestsFailureTotal 1 }
  else row

/-- The number an entry of `incomplete_serves_total` shows, zero before there is one. -/
def incompleteServes (reason : String) : Nat :=
  ((row.incompleteServesTotal.get reason).map (·.count)).getD 0

def recordIncompleteServe (reason : String) : RuntimeMetricsRow Time :=
  { row with
    incompleteServesTotal := row.incompleteServesTotal.upsert
      ⟨reason, saturatingAdd (incompleteServes row reason) 1⟩ }

def recordReorgRollback : RuntimeMetricsRow Time :=
  { row with reorgRollbacksTotal := saturatingAdd row.reorgRollbacksTotal 1 }

/-- The function of the source behind each note. -/
def recordNote : Note → RuntimeMetricsRow Time
  | .chainHead latestBlock targetBlock => recordChainHead now row latestBlock targetBlock
  | .chainPass success consecutiveFailures => recordChainPass now row success consecutiveFailures
  | .remainingBlocks remainingBlocks => recordRemainingBlocks row remainingBlocks
  | .rangeSuccess metrics => recordRangeSuccess now duration row metrics
  | .rangeFailure => recordRangeFailure row
  | .datalensRequest operation success => recordDatalensRequest row operation success
  | .incompleteServe reason => recordIncompleteServe row reason
  | .reorgRollback => recordReorgRollback row

end

/-- The row of a scope. -/
def scopeRow (state : MetricsState Time) (chainId : Nat) (dataset : String) : RuntimeMetricsRow Time :=
  (state.runtimeRows.get (chainId, dataset)).getD (runtimeRow chainId dataset)

/-- A `record_` function: the row is created if it is missing, and changed. -/
def record (now duration : Time) (chainId : Nat) (dataset : String) (note : Note)
    (state : MetricsState Time) : MetricsState Time :=
  { state with
    runtimeRows := state.runtimeRows.upsert
      (recordNote now duration (scopeRow state chainId dataset) note) }

def recordConfiguredScopes (enabledChains : List ChainConfig) (state : MetricsState Time) :
    MetricsState Time :=
  { state with
    configuredScopes := enabledChains.foldl (fun scopes chain =>
      match chainDataset chain.chainId with
      | .error _ => scopes
      | .ok dataset => scopes.upsert
          { chainId := chain.chainId, dataset, startBlock := chain.startBlock,
            batchSize := chain.batchSize }) state.configuredScopes }

/-- The values of the two maps, in the order of their keys. -/
def snapshot (state : MetricsState Time) : MetricsSnapshot Time where
  configuredScopes := state.configuredScopes.select fun _ => true
  runtimeRows := state.runtimeRows.select fun _ => true

/-! ## Counters -/

/-- The fields of a row that count up. -/
inductive Counter where
  | chainPassSuccess
  | chainPassFailure
  | rangesSuccess
  | rangesFailure
  | blocksProcessed
  | recordsRead
  | recordsDecoded
  | recordsWritten
  | batchDurationCount
  | logRequestsSuccess
  | logRequestsFailure
  | blockRequestsSuccess
  | blockRequestsFailure
  | reorgRollbacks
  | incompleteServes (reason : String)
deriving DecidableEq, Repr

/-- What a counter shows. -/
def shown (row : RuntimeMetricsRow Time) : Counter → Nat
  | .chainPassSuccess => row.chainPassSuccessTotal
  | .chainPassFailure => row.chainPassFailureTotal
  | .rangesSuccess => row.rangesSuccessTotal
  | .rangesFailure => row.rangesFailureTotal
  | .blocksProcessed => row.blocksProcessedTotal
  | .recordsRead => row.recordsReadTotal
  | .recordsDecoded => row.recordsDecodedTotal
  | .recordsWritten => row.recordsWrittenTotal
  | .batchDurationCount => row.batchDurationSecondsCount
  | .logRequestsSuccess => row.datalensLogRequestsSuccessTotal
  | .logRequestsFailure => row.datalensLogRequestsFailureTotal
  | .blockRequestsSuccess => row.datalensBlockRequestsSuccessTotal
  | .blockRequestsFailure => row.datalensBlockRequestsFailureTotal
  | .reorgRollbacks => row.reorgRollbacksTotal
  | .incompleteServes reason => Metrics.incompleteServes row reason

/-- What a note adds to a counter. -/
def Note.adds : Note → Counter → Nat
  | .chainPass success _, .chainPassSuccess => if success then 1 else 0
  | .chainPass success _, .chainPassFailure => if success then 0 else 1
  | .rangeSuccess _, .rangesSuccess => 1
  | .rangeSuccess metrics, .blocksProcessed => metrics.blocksProcessed
  | .rangeSuccess metrics, .recordsRead => metrics.recordsRead
  | .rangeSuccess metrics, .recordsDecoded => metrics.recordsDecoded
  | .rangeSuccess metrics, .recordsWritten => metrics.recordsWritten
  | .rangeSuccess _, .batchDurationCount => 1
  | .rangeFailure, .rangesFailure => 1
  | .datalensRequest operation success, .logRequestsSuccess =>
      if operation = "logs" ∧ success then 1 else 0
  | .datalensRequest operation success, .logRequestsFailure =>
      if operation = "logs" ∧ !success then 1 else 0
  | .datalensRequest operation success, .blockRequestsSuccess =>
      if operation = "blocks" ∧ success then 1 else 0
  | .datalensRequest operation success, .blockRequestsFailure =>
      if operation = "blocks" ∧ !success then 1 else 0
  | .incompleteServe reason, .incompleteServes reason' => if reason = reason' then 1 else 0
  | .reorgRollback, .reorgRollbacks => 1
  | _, _ => 0

omit [Zero Time] [Add Time] in
theorem incompleteServes_record (row : RuntimeMetricsRow Time) (reason reason' : String) :
    incompleteServes (recordIncompleteServe row reason) reason' =
      if reason = reason' then saturatingAdd (incompleteServes row reason) 1
      else incompleteServes row reason' := by
  rw [incompleteServes, recordIncompleteServe, Table.get_upsert]
  show (((if reason = reason' then _ else _ : Option IncompleteServes).map (·.count)).getD 0 : Nat) = _
  split <;> rfl

omit [Zero Time] in
/-- A note adds to the counters and stops at `u64::MAX`. -/
theorem shown_recordNote {now duration : Time} {row : RuntimeMetricsRow Time}
    (hbound : ∀ c, shown row c ≤ u64Max) (note : Note) (c : Counter) :
    shown (recordNote now duration row note) c = min (shown row c + note.adds c) u64Max := by
  have unchanged : shown row c = min (shown row c + 0) u64Max := (min_eq_left (hbound c)).symm
  cases note with
  | chainHead | remainingBlocks | rangeFailure | rangeSuccess | reorgRollback =>
      cases c <;> first | rfl | exact unchanged
  | chainPass success consecutiveFailures =>
      cases success <;> cases c <;> first | rfl | exact unchanged
  | incompleteServe reason =>
      cases c with
      | incompleteServes reason' =>
          show incompleteServes (recordIncompleteServe row reason) reason' =
            min (incompleteServes row reason' + if reason = reason' then 1 else 0) u64Max
          rw [incompleteServes_record]
          split
          · subst reason'
            rfl
          · exact unchanged
      | _ => exact unchanged
  | datalensRequest operation success =>
      show shown (recordDatalensRequest row operation success) c = _
      unfold recordDatalensRequest
      split
      · subst operation
        cases success <;> cases c <;> first | rfl | exact unchanged
      · split
        · subst operation
          cases success <;> cases c <;> first | rfl | exact unchanged
        · rename_i hlogs hblocks
          have hnone : (Note.datalensRequest operation success).adds c = 0 := by
            cases c <;> simp [Note.adds, hlogs, hblocks]
          rw [hnone]
          exact unchanged

omit [Zero Time] in
theorem key_recordNote (now duration : Time) (row : RuntimeMetricsRow Time) (note : Note) :
    Keyed.key (recordNote now duration row note) = Keyed.key row := by
  cases note with
  | chainPass success consecutiveFailures => cases success <;> rfl
  | datalensRequest operation success =>
      show Keyed.key (recordDatalensRequest row operation success) = _
      unfold recordDatalensRequest
      split
      · cases success <;> rfl
      · split
        · cases success <;> rfl
        · rfl
  | _ => rfl

section

variable {state : MetricsState Time} {chainId : Nat} {dataset : String}

omit [Add Time] in
theorem key_scopeRow (state : MetricsState Time) (chainId : Nat) (dataset : String) :
    Keyed.key (scopeRow state chainId dataset) = (chainId, dataset) := by
  rw [scopeRow]
  cases hrow : state.runtimeRows.get (chainId, dataset) with
  | none => rfl
  | some row => exact Table.key_of_get hrow

/-- A note changes the row of its scope, and no other. -/
theorem scopeRow_record (now duration : Time) (note : Note) (chainId' : Nat) (dataset' : String) :
    scopeRow (record now duration chainId dataset note state) chainId' dataset' =
      if (chainId, dataset) = (chainId', dataset') then
        recordNote now duration (scopeRow state chainId dataset) note
      else scopeRow state chainId' dataset' := by
  have hkey : Keyed.key (recordNote now duration (scopeRow state chainId dataset) note) =
      (chainId, dataset) := (key_recordNote _ _ _ _).trans (key_scopeRow state chainId dataset)
  rw [scopeRow, record, Table.get_upsert, hkey]
  split
  · rfl
  · rfl

end

/-- The numbers of a scope's counters. -/
def total (state : MetricsState Time) (chainId : Nat) (dataset : String) (c : Counter) : Nat :=
  shown (scopeRow state chainId dataset) c

omit [Add Time] in
theorem total_initial (chainId : Nat) (dataset : String) (c : Counter) :
    total (initial : MetricsState Time) chainId dataset c = 0 := by
  rw [total, scopeRow, initial, Table.get_empty]
  cases c with
  | incompleteServes reason =>
      show (((Table.empty : Table IncompleteServes).get reason).map (·.count)).getD 0 = 0
      rw [Table.get_empty]
      rfl
  | _ => rfl

end Metrics

end OrmpIndexer
