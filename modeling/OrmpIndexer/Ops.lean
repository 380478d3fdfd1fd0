/-
# OrmpIndexer.Ops — what operators see

`ops.rs`: what is read from the database for the metrics page, and the page as text. The page is what a scraper
reads, so a call of `append_metric` is a `Sample` here and `appendMetric` is the text it appends; the lines that the
source writes without that function are texts. `updated_at` is no column of the tables modelled here and is handed
in, as are the seconds that the source has in an `f64`.
-/
import OrmpIndexer.Foundation.Exposition
import OrmpIndexer.Metrics

namespace OrmpIndexer

open Foundation Foundation.Exposition

/-- A checkpoint as it is read for the page: all columns as text. -/
structure CheckpointRow where
  chainId : String
  dataset : String
  nextBlock : String
  updatedAt : String
  updatedTimestampSeconds : Option String
deriving DecidableEq, Repr

/-- The number of rows of a table; `COUNT(*)::BIGINT` is signed. -/
structure LegacyTableRowCount where
  tableName : String
  rowCount : Int
deriving DecidableEq, Repr

/-- What a refresh reads from the database. -/
structure DbMetricsSnapshot where
  checkpoints : List CheckpointRow
  rowCounts : List LegacyTableRowCount
deriving DecidableEq, Repr

/-- How the cache of these snapshots is doing when a page is written. -/
structure MetricsCacheStatus (Time : Type) where
  lastSuccessTimestampSeconds : Option Time
  snapshotAgeSeconds : Option Time
  lastRefreshDurationSeconds : Option Time
  lastRefreshSuccess : Bool
  refreshErrorsTotal : Nat
  stale : Bool
deriving DecidableEq, Repr

namespace Ops

/-- The tables whose rows are counted, in the order of the page. -/
def LEGACY_TABLES : List String :=
  ["ormp_hash_imported", "ormp_message_accepted", "ormp_message_assigned", "ormp_message_dispatched",
    "msgport_message_recv", "msgport_message_sent", "signature_pub_signature_submittion"]

/-! ## From the database -/

/-- The rows of a table. -/
def count {ρ κ : Type} [Keyed ρ κ] (table : Table ρ) : Int := (table.select fun _ => true).length

/-- The checkpoints, in the order of their keys; `updatedAt` has both forms of the column. -/
def checkpointRows (updatedAt : Checkpoint → String × Option String) (db : Database) :
    List CheckpointRow :=
  (db.checkpoint.select fun _ => true).map fun checkpoint => {
    chainId := toString checkpoint.chainId
    dataset := checkpoint.dataset
    nextBlock := toString checkpoint.nextBlock
    updatedAt := (updatedAt checkpoint).1
    updatedTimestampSeconds := (updatedAt checkpoint).2 }

/-- `collect_db_metrics_snapshot`, when both queries succeed. -/
def collectDbMetricsSnapshot (updatedAt : Checkpoint → String × Option String) (db : Database) :
    DbMetricsSnapshot where
  checkpoints := checkpointRows updatedAt db
  rowCounts := [
    ⟨"ormp_hash_imported", count db.ormpHashImported⟩,
    ⟨"ormp_message_accepted", count db.ormpMessageAccepted⟩,
    ⟨"ormp_message_assigned", count db.ormpMessageAssigned⟩,
    ⟨"ormp_message_dispatched", count db.ormpMessageDispatched⟩,
    ⟨"msgport_message_recv", count db.msgportMessageRecv⟩,
    ⟨"msgport_message_sent", count db.msgportMessageSent⟩,
    ⟨"signature_pub_signature_submittion", count db.signaturePubSignatureSubmittion⟩]

/-! ## Lines of text -/

/-- `str::replace` of one character. -/
def replace (text : String) (c : Char) (by' : String) : String :=
  String.ofList (text.toList.flatMap fun d => if d = c then by'.toList else [d])

/-- A backslash first, then a quote. A newline is left as it is. -/
def escapeLabelValue (value : String) : String := replace (replace value '\\' "\\\\") '"' "\\\""

/-- The line of a sample, also if it has no labels: then the braces are empty. -/
def appendMetric (metric : Sample) : String :=
  metric.name ++ "\x7b" ++
    String.join (metric.labels.zipIdx.map fun ((key, value), index) =>
      (if index > 0 then "," else "") ++ key ++ "=\"" ++ escapeLabelValue value ++ "\"") ++
    "\x7d " ++ metric.value ++ "\n"

/-- The calls of `append_metric` one after the other. -/
def appendMetrics (metrics : List Sample) : String := String.join (metrics.map appendMetric)

/-- One call of `append_metric`. -/
def metric {α : Type} [ToString α] (name : String) (labels : List (String × String)) (value : α) :
    List Sample :=
  [⟨name, labels, toString value⟩]

/-- `append_optional_metric`. -/
def optionalMetric {α : Type} [ToString α] (name : String) (labels : List (String × String))
    (value : Option α) : List Sample :=
  match value with
  | some value => metric name labels value
  | none => []

/-- The two comments in front of a metric. -/
def header (name help kind : String) : String :=
  "#" ++ (" HELP " ++ name ++ " " ++ help) ++ "\n" ++ ("#" ++ (" TYPE " ++ name ++ " " ++ kind) ++ "\n")

/-- Comments are written for all metrics of a piece, before its first sample. -/
def headers (metrics : List (String × String × String)) : String :=
  String.join (metrics.map fun (name, help, kind) => header name help kind)

/-- The labels of every sample of a chain. -/
def runtimeLabels (chainId : Nat) (dataset : String) : List (String × String) :=
  [("chain_id", toString chainId), ("dataset", dataset)]

def resultLabels (chainId : Nat) (dataset result : String) : List (String × String) :=
  runtimeLabels chainId dataset ++ [("result", result)]

def stageLabels (chainId : Nat) (dataset stage : String) : List (String × String) :=
  runtimeLabels chainId dataset ++ [("stage", stage)]

def operationResultLabels (chainId : Nat) (dataset operation result : String) :
    List (String × String) :=
  runtimeLabels chainId dataset ++ [("operation", operation), ("result", result)]

/-! ## The pieces of the page -/

section

variable {Time : Type} [ToString Time]

/-- The metrics of the cache come first on the page. -/
def cacheHeaders : List (String × String × String) := [
  ("ormp_metrics_snapshot_last_success_timestamp_seconds",
    "Unix timestamp of the last successful DB-backed ORMP metrics snapshot refresh.", "gauge"),
  ("ormp_metrics_snapshot_age_seconds",
    "Seconds since the last successful DB-backed ORMP metrics snapshot refresh.", "gauge"),
  ("ormp_metrics_refresh_duration_seconds",
    "Duration of the most recent DB-backed ORMP metrics snapshot refresh.", "gauge"),
  ("ormp_metrics_refresh_success",
    "Whether the most recent DB-backed ORMP metrics snapshot refresh succeeded.", "gauge"),
  ("ormp_metrics_refresh_errors_total",
    "Failed DB-backed ORMP metrics snapshot refresh attempts.", "counter"),
  ("ormp_metrics_snapshot_stale",
    "Whether the DB-backed ORMP metrics snapshot is older than the configured freshness threshold.",
    "gauge")]

/-- What is not known before the first refresh has no sample. -/
def cacheMetrics (cacheStatus : MetricsCacheStatus Time) : List Sample :=
  optionalMetric "ormp_metrics_snapshot_last_success_timestamp_seconds" []
      cacheStatus.lastSuccessTimestampSeconds ++
    optionalMetric "ormp_metrics_snapshot_age_seconds" [] cacheStatus.snapshotAgeSeconds ++
    optionalMetric "ormp_metrics_refresh_duration_seconds" [] cacheStatus.lastRefreshDurationSeconds ++
    metric "ormp_metrics_refresh_success" [] (if cacheStatus.lastRefreshSuccess then 1 else 0 : Nat) ++
    metric "ormp_metrics_refresh_errors_total" [] cacheStatus.refreshErrorsTotal ++
    metric "ormp_metrics_snapshot_stale" [] (if cacheStatus.stale then 1 else 0 : Nat)

/-- Then those of the checkpoints. -/
def checkpointHeaders : List (String × String × String) := [
  ("ormp_indexer_checkpoint_next_block", "Next block recorded per chain and dataset.", "gauge"),
  ("ormp_indexer_checkpoint_updated_timestamp_seconds",
    "Unix timestamp of the checkpoint row update.", "gauge")]

/-- The two lines of a checkpoint; the first is written without `append_metric`. -/
def checkpointText (checkpoint : CheckpointRow) : String :=
  "ormp_indexer_checkpoint_next_block" ++ "\x7bchain_id=\"" ++ escapeLabelValue checkpoint.chainId ++
    "\",dataset=\"" ++ escapeLabelValue checkpoint.dataset ++ "\"\x7d " ++ checkpoint.nextBlock ++ "\n" ++
    appendMetrics (optionalMetric "ormp_indexer_checkpoint_updated_timestamp_seconds"
      [("chain_id", checkpoint.chainId), ("dataset", checkpoint.dataset)]
      checkpoint.updatedTimestampSeconds)

/-- How many checkpoints there are: a sample without braces. -/
def checkpointRowsText (checkpoints : List CheckpointRow) : String :=
  header "ormp_indexer_checkpoint_rows" "Total checkpoint rows." "gauge" ++
    ("ormp_indexer_checkpoint_rows" ++ " " ++ toString checkpoints.length ++ "\n")

/-- Then those of the configured scopes. -/
def scopeHeaders : List (String × String × String) := [
  ("ormp_indexer_configured_scope_info", "Configured ORMP indexer scope information.", "gauge"),
  ("ormp_indexer_checkpoint_present",
    "Whether the configured ORMP indexer scope has a checkpoint row.", "gauge")]

/-- The row is the checkpoint of the scope. -/
def isOf (scope : ConfiguredScopeMetricsRow) (checkpoint : CheckpointRow) : Bool :=
  checkpoint.chainId == toString scope.chainId && checkpoint.dataset == scope.dataset

/-- The two lines of a configured scope. -/
def scopeText (checkpoints : List CheckpointRow) (scope : ConfiguredScopeMetricsRow) : String :=
  let checkpointPresent := checkpoints.any (isOf scope)
  "ormp_indexer_configured_scope_info" ++ "\x7bchain_id=\"" ++ toString scope.chainId ++ "\",dataset=\"" ++
    escapeLabelValue scope.dataset ++ "\",start_block=\"" ++ toString scope.startBlock ++
    "\",batch_size=\"" ++ toString scope.batchSize ++ "\"\x7d 1\n" ++
    ("ormp_indexer_checkpoint_present" ++ "\x7bchain_id=\"" ++ toString scope.chainId ++ "\",dataset=\"" ++
      escapeLabelValue scope.dataset ++ "\"\x7d " ++ (if checkpointPresent then "1\n" else "0\n"))

/-- The line of a checkpoint that belongs to no configured scope. -/
def presentText (checkpoint : CheckpointRow) : String :=
  "ormp_indexer_checkpoint_present" ++ "\x7bchain_id=\"" ++ escapeLabelValue checkpoint.chainId ++
    "\",dataset=\"" ++ escapeLabelValue checkpoint.dataset ++ "\"\x7d 1\n"

/-- Then those of the running process, and after them the tables. -/
def runtimeHeaders : List (String × String × String) := [
  ("ormp_indexer_target_block",
    "Current target block after Datalens head buffer per chain and dataset.", "gauge"),
  ("ormp_indexer_remaining_blocks", "Current remaining blocks per chain and dataset.", "gauge"),
  ("ormp_indexer_datalens_head_height",
    "Latest Datalens head height observed by the ORMP indexer.", "gauge"),
  ("ormp_indexer_datalens_head_observed_timestamp_seconds",
    "Unix timestamp of the last Datalens head observation.", "gauge"),
  ("ormp_indexer_datalens_head_advanced_timestamp_seconds",
    "Unix timestamp of the last Datalens head advancement.", "gauge"),
  ("ormp_indexer_chain_last_success_timestamp_seconds",
    "Unix timestamp of the last successful ORMP chain pass.", "gauge"),
  ("ormp_indexer_checkpoint_last_forward_advance_timestamp_seconds",
    "Unix timestamp of the last forward checkpoint advancement.", "gauge"),
  ("ormp_indexer_consecutive_failures", "Consecutive ORMP chain pass failures.", "gauge"),
  ("ormp_indexer_chain_passes_total", "ORMP chain passes by result.", "counter"),
  ("ormp_indexer_ranges_total", "ORMP Datalens ranges by result.", "counter"),
  ("ormp_indexer_blocks_processed_total", "ORMP blocks processed successfully.", "counter"),
  ("ormp_indexer_records_total", "ORMP records by result stage.", "counter"),
  ("ormp_indexer_batch_duration_seconds", "ORMP successful batch duration summary.", "summary"),
  ("ormp_indexer_datalens_requests_total",
    "ORMP Datalens requests by operation and result.", "counter"),
  ("ormp_indexer_reorg_rollbacks_total", "ORMP reorg rollbacks.", "counter"),
  ("ormp_indexer_incomplete_serves_total",
    "ORMP queries that stopped on provider_error or budget_exhausted.", "counter")]

/-- Requests by operation and result. -/
def datalensRequestMetrics (row : RuntimeMetricsRow Time) : List Sample :=
  [("logs", row.datalensLogRequestsSuccessTotal, row.datalensLogRequestsFailureTotal),
    ("blocks", row.datalensBlockRequestsSuccessTotal, row.datalensBlockRequestsFailureTotal)].flatMap
    fun (operation, success, failure) =>
      metric "ormp_indexer_datalens_requests_total"
          (operationResultLabels row.chainId row.dataset operation "success") success ++
        metric "ormp_indexer_datalens_requests_total"
          (operationResultLabels row.chainId row.dataset operation "failure") failure

/-- The samples of a chain. Heights and times have none until they are known, counters always have one. -/
def rowMetrics (row : RuntimeMetricsRow Time) : List Sample :=
  let labels := runtimeLabels row.chainId row.dataset
  optionalMetric "ormp_indexer_target_block" labels row.targetBlock ++
    optionalMetric "ormp_indexer_remaining_blocks" labels row.remainingBlocks ++
    optionalMetric "ormp_indexer_datalens_head_height" labels row.datalensHeadHeight ++
    optionalMetric "ormp_indexer_datalens_head_observed_timestamp_seconds" labels
      row.datalensHeadObservedTimestampSeconds ++
    optionalMetric "ormp_indexer_datalens_head_advanced_timestamp_seconds" labels
      row.datalensHeadAdvancedTimestampSeconds ++
    optionalMetric "ormp_indexer_chain_last_success_timestamp_seconds" labels
      row.chainLastSuccessTimestampSeconds ++
    optionalMetric "ormp_indexer_checkpoint_last_forward_advance_timestamp_seconds" labels
      row.checkpointLastForwardAdvanceTimestampSeconds ++
    metric "ormp_indexer_consecutive_failures" labels row.consecutiveFailures ++
    metric "ormp_indexer_chain_passes_total" (resultLabels row.chainId row.dataset "success")
      row.chainPassSuccessTotal ++
    metric "ormp_indexer_chain_passes_total" (resultLabels row.chainId row.dataset "failure")
      row.chainPassFailureTotal ++
    metric "ormp_indexer_ranges_total" (resultLabels row.chainId row.dataset "success")
      row.rangesSuccessTotal ++
    metric "ormp_indexer_ranges_total" (resultLabels row.chainId row.dataset "failure")
      row.rangesFailureTotal ++
    metric "ormp_indexer_blocks_processed_total" labels row.blocksProcessedTotal ++
    metric "ormp_indexer_records_total" (stageLabels row.chainId row.dataset "read")
      row.recordsReadTotal ++
    metric "ormp_indexer_records_total" (stageLabels row.chainId row.dataset "decoded")
      row.recordsDecodedTotal ++
    metric "ormp_indexer_records_total" (stageLabels row.chainId row.dataset "written")
      row.recordsWrittenTotal ++
    metric "ormp_indexer_batch_duration_seconds_sum" labels row.batchDurationSecondsSum ++
    metric "ormp_indexer_batch_duration_seconds_count" labels row.batchDurationSecondsCount ++
    datalensRequestMetrics row ++
    metric "ormp_indexer_reorg_rollbacks_total" labels row.reorgRollbacksTotal ++
    (row.incompleteServesTotal.select fun _ => true).flatMap fun serves =>
      metric "ormp_indexer_incomplete_serves_total" (labels ++ [("reason", serves.reason)]) serves.count

/-- A table without a count is shown with 0. -/
def tableText (rowCounts : List LegacyTableRowCount) (table : String) : String :=
  let count := ((rowCounts.find? (·.tableName == table)).map (·.rowCount)).getD 0
  "ormp_indexer_legacy_table_rows" ++ "\x7btable=\"" ++ table ++ "\"\x7d " ++ toString count ++ "\n"

/-- `format_metrics_with_status`: the pieces one after the other. -/
def formatMetricsWithStatus (checkpoints : List CheckpointRow) (rowCounts : List LegacyTableRowCount)
    (runtime : MetricsSnapshot Time) (cacheStatus : MetricsCacheStatus Time) : String :=
  headers cacheHeaders ++ appendMetrics (cacheMetrics cacheStatus) ++
    headers checkpointHeaders ++ String.join (checkpoints.map checkpointText) ++
    checkpointRowsText checkpoints ++
    headers scopeHeaders ++ String.join (runtime.configuredScopes.map (scopeText checkpoints)) ++
    String.join ((checkpoints.filter fun checkpoint =>
      !runtime.configuredScopes.any (isOf · checkpoint)).map presentText) ++
    headers runtimeHeaders ++
    String.join (runtime.runtimeRows.map fun row => appendMetrics (rowMetrics row)) ++
    headers [("ormp_indexer_legacy_table_rows", "Legacy GraphQL table row counts.", "gauge")] ++
    String.join (LEGACY_TABLES.map (tableText rowCounts))

end

end Ops

end OrmpIndexer
