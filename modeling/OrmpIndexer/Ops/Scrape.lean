/-
# OrmpIndexer.Ops.Scrape — what a scrape finds

A page is rendered from two sources: what was collected from the database at some time before, and the metrics
as they are now. `scrape` is what a scraper finds in it under a series. It finds the next block of every stored
checkpoint, and which of the configured scopes have none (`scrape_tells_database`); in a running process it
finds every counter of every chain (`scrape_tells_counters`).

The texts a page is made of are on one line. For the metrics that is so in every run (`plain_together`); for what
is stored and for the clocks it is taken.
-/
import OrmpIndexer.Ops.Page
import OrmpIndexer.Runner.Counters

namespace OrmpIndexer.Ops

open Foundation Foundation.Task Foundation.Exposition Metrics Runner

/-- What a scraper finds under a series, if it can read the page. -/
def scrape (page : String) (name : String) (labels : List (String × String)) : Option (Option String) :=
  (readPage page.toList).map (valueOf · name labels)

section

variable {Time : Type} [ToString Time]

/-- The page of what was collected and of the metrics. -/
def rendered (collected : DbMetricsSnapshot) (state : MetricsState Time)
    (cacheStatus : MetricsCacheStatus Time) : String :=
  formatMetricsWithStatus collected.checkpoints collected.rowCounts (Metrics.snapshot state) cacheStatus

/-- What a page shows of a database is on one line. -/
structure PlainDb (updatedAt : Checkpoint → String × Option String) (db : Database) : Prop where
  datasets : ∀ checkpoint ∈ db.checkpoint.select fun _ => true, OneLine checkpoint.dataset
  seconds : ∀ checkpoint seconds, (updatedAt checkpoint).2 = some seconds → OneLine seconds

/-- What a page shows of the metrics is on one line. -/
structure PlainMetrics (state : MetricsState Time) : Prop where
  scopes : ∀ scope ∈ state.configuredScopes.select fun _ => true, OneLine scope.dataset
  rows : ∀ row ∈ state.runtimeRows.select fun _ => true, OneLine row.dataset ∧
    ∀ serves ∈ row.incompleteServesTotal.select fun _ => true, OneLine serves.reason

variable {updatedAt : Checkpoint → String × Option String} {db : Database} {state : MetricsState Time}

theorem plainPage (hdb : PlainDb updatedAt db) (hstate : PlainMetrics state)
    (htimes : ∀ time : Time, OneLine (toString time)) :
    PlainPage (collectDbMetricsSnapshot updatedAt db).checkpoints (Metrics.snapshot state) where
  checkpoints row hrow := by
    obtain ⟨checkpoint, hcheckpoint, rfl⟩ := List.mem_map.mp hrow
    exact ⟨oneLine_nat _, hdb.datasets checkpoint hcheckpoint, oneLine_nat _,
      fun seconds => hdb.seconds checkpoint seconds⟩
  scopes := hstate.scopes
  rows := hstate.rows
  times := htimes

theorem runtimeLabels_inj {chainId chainId' : Nat} {dataset dataset' : String}
    (h : runtimeLabels chainId dataset = runtimeLabels chainId' dataset') :
    (chainId, dataset) = (chainId', dataset') := by
  obtain ⟨⟨_, hchain⟩, ⟨_, hdataset⟩, _⟩ : _ ∧ _ ∧ _ := by
    simpa only [runtimeLabels, List.cons.injEq, Prod.mk.injEq] using h
  have hdecimal := congrArg String.toList hchain
  rw [toList_toString_nat, toList_toString_nat] at hdecimal
  exact Prod.ext (decimal_inj hdecimal) hdataset

/-- Different keys are different labels. -/
theorem injective_labels :
    Function.Injective fun key : Nat × String => runtimeLabels key.1 key.2 :=
  fun _ _ h => runtimeLabels_inj h

omit [ToString Time] in
/-- What a page is about is stored under keys. -/
theorem keyedPage (updatedAt : Checkpoint → String × Option String) (db : Database)
    (state : MetricsState Time) :
    KeyedPage (collectDbMetricsSnapshot updatedAt db).checkpoints (Metrics.snapshot state) where
  checkpoints := by
    have hkeys := (db.checkpoint.nodup_keys_select fun _ => true).map injective_labels
    rw [List.map_map] at hkeys
    show ((checkpointRows updatedAt db).map checkpointLabels).Nodup
    rw [checkpointRows, List.map_map]
    exact hkeys
  scopes := by
    have hkeys := (state.configuredScopes.nodup_keys_select fun _ => true).map injective_labels
    rw [List.map_map] at hkeys
    exact hkeys
  rows := by
    have hkeys := (state.runtimeRows.nodup_keys_select fun _ => true).map injective_labels
    rw [List.map_map] at hkeys
    exact hkeys
  reasons row _ := row.incompleteServesTotal.nodup_keys_select fun _ => true

/-- **A page is what it was made of.** A scraper that reads the page finds the samples and no others, and no
series twice. -/
theorem page_is_read (hdb : PlainDb updatedAt db) (hstate : PlainMetrics state)
    (htimes : ∀ time : Time, OneLine (toString time)) (cacheStatus : MetricsCacheStatus Time) :
    ∃ samples, readPage (rendered (collectDbMetricsSnapshot updatedAt db) state cacheStatus).toList =
        some samples ∧
      samples = pageMetrics (collectDbMetricsSnapshot updatedAt db).checkpoints
        (collectDbMetricsSnapshot updatedAt db).rowCounts (Metrics.snapshot state) cacheStatus ∧
      (samples.map Sample.series).Nodup :=
  ⟨_, readPage_of_reads (reads_page (plainPage hdb hstate htimes) _ cacheStatus), rfl,
    nodup_series_page (keyedPage updatedAt db state) _ cacheStatus⟩

/-- A dataset with everything that is escaped. -/
def quotedCheckpoint : Checkpoint := ⟨46, "a\"b\\c", 101⟩

def quotedDb : Database := { Database.empty with checkpoint := Table.empty.upsert quotedCheckpoint }

theorem plain_quotedDb : PlainDb (fun _ => ("", some "7")) quotedDb where
  datasets checkpoint hmem := by
    have hget := (Table.mem_select.mp hmem).1
    change (Table.empty.upsert quotedCheckpoint).get _ = _ at hget
    rw [Table.get_upsert, Table.get_empty] at hget
    split at hget
    · obtain rfl := Option.some.inj hget
      exact oneLine_ofList _ (by decide)
    · cases hget
  seconds checkpoint seconds hseconds := by
    obtain rfl := Option.some.inj hseconds
    exact oneLine_ofList _ (by decide)

/-- Metrics that know the scopes of one chain. -/
def oneScope : MetricsState Nat := recordConfiguredScopes oneChain.enabledChains initial

/-- Before the first refresh. -/
def unrefreshed : MetricsCacheStatus Nat := ⟨none, none, none, true, 0, true⟩

theorem oneLine_times : ∀ time : Nat, OneLine (toString time) := oneLine_nat

theorem plain_oneScope : PlainMetrics oneScope where
  scopes scope hscope := by
    have hall : ∀ scope ∈ oneScope.configuredScopes.select fun _ => true, OneLine scope.dataset := by
      decide +kernel
    exact hall scope hscope
  rows row hrow := by
    have hget := (Table.mem_select.mp hrow).1
    change (Table.empty : Table (RuntimeMetricsRow Nat)).get _ = _ at hget
    rw [Table.get_empty] at hget
    cases hget

/-- A page about a dataset full of quotes is read as it was meant. -/
theorem page_is_read_quoted :
    ∃ samples, readPage (rendered (collectDbMetricsSnapshot (fun _ => ("", some "7")) quotedDb) oneScope
        unrefreshed).toList = some samples ∧
      valueOf samples "ormp_indexer_checkpoint_next_block"
        [("chain_id", "46"), ("dataset", "a\"b\\c")] = some "101" := by
  obtain ⟨samples, hread, hsamples, _⟩ :=
    page_is_read plain_quotedDb plain_oneScope oneLine_times unrefreshed
  refine ⟨samples, hread, ?_⟩
  rw [hsamples]
  rfl

theorem scrape_eq (hdb : PlainDb updatedAt db) (hstate : PlainMetrics state)
    (htimes : ∀ time : Time, OneLine (toString time)) (cacheStatus : MetricsCacheStatus Time)
    (name : String) (labels : List (String × String)) :
    scrape (rendered (collectDbMetricsSnapshot updatedAt db) state cacheStatus) name labels =
      some (valueOf (pageMetrics (collectDbMetricsSnapshot updatedAt db).checkpoints
        (collectDbMetricsSnapshot updatedAt db).rowCounts (Metrics.snapshot state) cacheStatus)
        name labels) := by
  rw [scrape, rendered, readPage_of_reads (reads_page (plainPage hdb hstate htimes) _ cacheStatus)]
  rfl

/-! ## Checkpoints -/

section

variable {chainId : Nat} {dataset : String}

omit [ToString Time]

end

end

/-! ## Counters -/

/-- The metric of a counter, and the labels it has besides the chain and the dataset. -/
def counterSeries : Counter → String × List (String × String)
  | .chainPassSuccess => ("ormp_indexer_chain_passes_total", [("result", "success")])
  | .chainPassFailure => ("ormp_indexer_chain_passes_total", [("result", "failure")])
  | .rangesSuccess => ("ormp_indexer_ranges_total", [("result", "success")])
  | .rangesFailure => ("ormp_indexer_ranges_total", [("result", "failure")])
  | .blocksProcessed => ("ormp_indexer_blocks_processed_total", [])
  | .recordsRead => ("ormp_indexer_records_total", [("stage", "read")])
  | .recordsDecoded => ("ormp_indexer_records_total", [("stage", "decoded")])
  | .recordsWritten => ("ormp_indexer_records_total", [("stage", "written")])
  | .batchDurationCount => ("ormp_indexer_batch_duration_seconds_count", [])
  | .logRequestsSuccess =>
      ("ormp_indexer_datalens_requests_total", [("operation", "logs"), ("result", "success")])
  | .logRequestsFailure =>
      ("ormp_indexer_datalens_requests_total", [("operation", "logs"), ("result", "failure")])
  | .blockRequestsSuccess =>
      ("ormp_indexer_datalens_requests_total", [("operation", "blocks"), ("result", "success")])
  | .blockRequestsFailure =>
      ("ormp_indexer_datalens_requests_total", [("operation", "blocks"), ("result", "failure")])
  | .reorgRollbacks => ("ormp_indexer_reorg_rollbacks_total", [])
  | .incompleteServes reason => ("ormp_indexer_incomplete_serves_total", [("reason", reason)])

section

variable {Time : Type} [ToString Time]

/-- The sample of a counter in a row that has it. -/
def counterSample (row : RuntimeMetricsRow Time) (c : Counter) : Sample :=
  ⟨(counterSeries c).1, runtimeLabels row.chainId row.dataset ++ (counterSeries c).2,
    toString (shown row c)⟩

/-- Every counter but those of incomplete answers is in every row. -/
theorem counterSample_mem (row : RuntimeMetricsRow Time) {c : Counter}
    (hc : ∀ reason, c ≠ .incompleteServes reason) : counterSample row c ∈ rowMetrics row := by
  have hrequests : ∀ s ∈ datalensRequestMetrics row, s ∈ rowMetrics row := fun s hs => by
    iterate 2 refine List.mem_append_left _ ?_
    exact List.mem_append_right _ hs
  cases c with
  | incompleteServes reason => exact absurd rfl (hc reason)
  | chainPassSuccess =>
      iterate 12 refine List.mem_append_left _ ?_
      exact List.mem_append_right _ (List.mem_singleton.mpr rfl)
  | chainPassFailure =>
      iterate 11 refine List.mem_append_left _ ?_
      exact List.mem_append_right _ (List.mem_singleton.mpr rfl)
  | rangesSuccess =>
      iterate 10 refine List.mem_append_left _ ?_
      exact List.mem_append_right _ (List.mem_singleton.mpr rfl)
  | rangesFailure =>
      iterate 9 refine List.mem_append_left _ ?_
      exact List.mem_append_right _ (List.mem_singleton.mpr rfl)
  | blocksProcessed =>
      iterate 8 refine List.mem_append_left _ ?_
      refine List.mem_append_right _ (List.mem_singleton.mpr ?_)
      rw [counterSample, counterSeries, List.append_nil]
      rfl
  | recordsRead =>
      iterate 7 refine List.mem_append_left _ ?_
      exact List.mem_append_right _ (List.mem_singleton.mpr rfl)
  | recordsDecoded =>
      iterate 6 refine List.mem_append_left _ ?_
      exact List.mem_append_right _ (List.mem_singleton.mpr rfl)
  | recordsWritten =>
      iterate 5 refine List.mem_append_left _ ?_
      exact List.mem_append_right _ (List.mem_singleton.mpr rfl)
  | batchDurationCount =>
      iterate 3 refine List.mem_append_left _ ?_
      refine List.mem_append_right _ (List.mem_singleton.mpr ?_)
      rw [counterSample, counterSeries, List.append_nil]
      rfl
  | logRequestsSuccess =>
      refine hrequests _ (List.mem_append_left _ (List.mem_append_left _ ?_))
      exact List.mem_singleton.mpr rfl
  | logRequestsFailure =>
      refine hrequests _ (List.mem_append_left _ (List.mem_append_right _ ?_))
      exact List.mem_singleton.mpr rfl
  | blockRequestsSuccess =>
      refine hrequests _ (List.mem_append_right _ (List.mem_append_left _
        (List.mem_append_left _ ?_)))
      exact List.mem_singleton.mpr rfl
  | blockRequestsFailure =>
      refine hrequests _ (List.mem_append_right _ (List.mem_append_left _
        (List.mem_append_right _ ?_)))
      exact List.mem_singleton.mpr rfl
  | reorgRollbacks =>
      refine List.mem_append_left _ (List.mem_append_right _ (List.mem_singleton.mpr ?_))
      rw [counterSample, counterSeries, List.append_nil]
      rfl

/-- What a row says of a counter. -/
theorem valueOf_counter (row : RuntimeMetricsRow Time) (c : Counter) :
    (valueOf (rowMetrics row) (counterSeries c).1
      (runtimeLabels row.chainId row.dataset ++ (counterSeries c).2)).getD "0" =
      toString (shown row c) := by
  have hnodup := nodup_rowMetrics (row.incompleteServesTotal.nodup_keys_select fun _ => true)
  have hsaid : ∀ c, counterSample row c ∈ rowMetrics row → (valueOf (rowMetrics row) (counterSeries c).1
      (runtimeLabels row.chainId row.dataset ++ (counterSeries c).2)).getD "0" =
        toString (shown row c) := fun c hmem => by
    have hvalue := valueOf_of_mem hnodup hmem
    rw [counterSample] at hvalue
    dsimp only at hvalue
    rw [hvalue]
    rfl
  by_cases hc : ∀ reason, c ≠ .incompleteServes reason
  · exact hsaid c (counterSample_mem row hc)
  obtain ⟨reason, hc⟩ := not_forall.mp hc
  obtain rfl := not_not.mp hc
  cases hget : row.incompleteServesTotal.get reason with
  | some serves =>
      obtain rfl : serves.reason = reason := Table.key_of_get hget
      have hserves : serves ∈ row.incompleteServesTotal.select fun _ => true :=
        Table.mem_select.mpr ⟨hget, rfl⟩
      refine hsaid _ (List.mem_append_right _ (List.mem_flatMap.mpr ⟨serves, hserves, ?_⟩))
      have hshown : shown row (.incompleteServes serves.reason) = serves.count := by
        show ((row.incompleteServesTotal.get serves.reason).map (·.count)).getD 0 = serves.count
        rw [hget]
        rfl
      rw [counterSample, hshown]
      exact List.mem_singleton.mpr rfl
  | none =>
      have hshown : shown row (.incompleteServes reason) = 0 := by
        show ((row.incompleteServesTotal.get reason).map (·.count)).getD 0 = 0
        rw [hget]
        rfl
      have hother : ∀ series ∈ rowSeries, series.1 ≠ "ormp_indexer_incomplete_serves_total" := by
        decide +kernel
      rw [hshown, valueOf_eq_none fun s hs heq => ?_]
      · rfl
      -- a row has no series of a reason it has no entry for
      have hmem := (series_rowMetrics row).subset (List.mem_map.mpr ⟨s, hs, rfl⟩)
      rw [heq] at hmem
      obtain ⟨series, hseries, hlabeled⟩ := List.mem_map.mp hmem
      rcases List.mem_append.mp hseries with hrow | hreason
      · exact hother series hrow (congrArg Prod.fst hlabeled)
      · obtain ⟨serves, hserves, rfl⟩ := List.mem_map.mp hreason
        have hlabels := List.append_cancel_left (congrArg Prod.snd hlabeled)
        obtain rfl : serves.reason = reason := by simpa [reasonSeries, counterSeries] using hlabels
        have hentry := (Table.mem_select.mp hserves).1
        rw [show Keyed.key serves = serves.reason from rfl, hget] at hentry
        cases hentry

theorem name_counterSeries (c : Counter) : (counterSeries c).1 ∈ rowNames := by
  cases c with
  | incompleteServes reason => exact List.mem_append_right _ (List.mem_singleton.mpr rfl)
  | _ => decide +kernel

variable [Zero Time] [Add Time]
variable {updatedAt : Checkpoint → String × Option String} {db : Database} {state : MetricsState Time}

omit [Add Time] in
/-- A scrape finds every counter of every scope; one that is missing has not counted anything. -/
theorem scrape_counter (hdb : PlainDb updatedAt db) (hstate : PlainMetrics state)
    (htimes : ∀ time : Time, OneLine (toString time)) (cacheStatus : MetricsCacheStatus Time)
    (chainId : Nat) (dataset : String) (c : Counter) :
    (scrape (rendered (collectDbMetricsSnapshot updatedAt db) state cacheStatus) (counterSeries c).1
      (runtimeLabels chainId dataset ++ (counterSeries c).2)).map (·.getD "0") =
      some (toString (total state chainId dataset c)) := by
  rw [scrape_eq hdb hstate htimes, valueOf_page_runtimeRows (name_counterSeries c), Option.map_some]
  refine congrArg some ?_
  have hkeyed := keyedPage updatedAt db state
  have htake : (runtimeLabels chainId dataset ++ (counterSeries c).2).take 2 =
      runtimeLabels chainId dataset := rfl
  cases hrow : state.runtimeRows.get (chainId, dataset) with
  | some row =>
      have hkey : (row.chainId, row.dataset) = (chainId, dataset) := Table.key_of_get hrow
      obtain ⟨rfl, rfl⟩ := Prod.mk.inj hkey
      have hmem : row ∈ (Metrics.snapshot state).runtimeRows := Table.mem_select.mpr ⟨hrow, rfl⟩
      rw [valueOf_flatMap_of_mem (fun _ _ => take_labels_rowMetrics) hkeyed.rows hmem htake,
        valueOf_counter, total, scopeRow, hrow]
      rfl
  | none =>
      have hnone : (runtimeLabels chainId dataset ++ (counterSeries c).2).take 2 ∉
          (Metrics.snapshot state).runtimeRows.map fun row => runtimeLabels row.chainId row.dataset := by
        rw [htake]
        intro hmem
        obtain ⟨row, hmem, hlabels⟩ := List.mem_map.mp hmem
        have hkey : (row.chainId, row.dataset) = (chainId, dataset) := runtimeLabels_inj hlabels
        have hget := (Table.mem_select.mp hmem).1
        rw [show Keyed.key row = _ from hkey, hrow] at hget
        cases hget
      have htotal : total state chainId dataset c = 0 := by
        have hscope : scopeRow state chainId dataset =
            scopeRow (initial : MetricsState Time) chainId dataset := by
          rw [scopeRow, scopeRow, hrow, initial, Table.get_empty]
        rw [total, hscope]
        exact total_initial chainId dataset c
      rw [valueOf_flatMap_of_notMem (fun _ _ => take_labels_rowMetrics) hnone, htotal]
      rfl

/-! ### In a running process -/

omit [ToString Time] [Zero Time] in
/-- A note brings its own reason and no other. -/
theorem reasons_recordNote {now duration : Time} {row : RuntimeMetricsRow Time} {note : Note}
    (hknown : Known note)
    (hrow : ∀ serves ∈ row.incompleteServesTotal.select fun _ => true, OneLine serves.reason) :
    ∀ serves ∈ (recordNote now duration row note).incompleteServesTotal.select fun _ => true,
      OneLine serves.reason := by
  cases note with
  | chainPass success consecutiveFailures => cases success <;> exact hrow
  | datalensRequest operation success =>
      show ∀ serves ∈ (recordDatalensRequest row operation success).incompleteServesTotal.select _, _
      unfold recordDatalensRequest
      split
      · cases success <;> exact hrow
      · split
        · cases success <;> exact hrow
        · exact hrow
  | incompleteServe reason =>
      intro serves hserves
      have hget := (Table.mem_select.mp hserves).1
      change (row.incompleteServesTotal.upsert _).get serves.reason = some serves at hget
      rw [Table.get_upsert] at hget
      split at hget
      · rename_i hreason
        change reason = serves.reason at hreason
        rw [← hreason]
        rcases hknown with rfl | rfl <;> exact oneLine_ofList _ (by decide)
      · exact hrow serves (Table.mem_select.mpr ⟨hget, rfl⟩)
  | chainHead | remainingBlocks | rangeSuccess | rangeFailure | reorgRollback => exact hrow

omit [ToString Time] in
theorem plain_record {now duration : Time} {chainId : Nat} {note : Note} (hknown : Known note)
    (h : PlainMetrics state) :
    PlainMetrics (Metrics.record now duration chainId EVM_LOGS_DATASET note state) where
  scopes := h.scopes
  rows row hrow := by
    have hget := (Table.mem_select.mp hrow).1
    change (state.runtimeRows.upsert _).get (Keyed.key row) = some row at hget
    rw [Table.get_upsert] at hget
    split at hget
    · obtain rfl := Option.some.inj hget
      have hkey := (key_recordNote now duration (scopeRow state chainId EVM_LOGS_DATASET) note).trans
        (key_scopeRow state chainId EVM_LOGS_DATASET)
      have hdataset : (recordNote now duration (scopeRow state chainId EVM_LOGS_DATASET)
          note).dataset = EVM_LOGS_DATASET := congrArg Prod.snd hkey
      refine ⟨by rw [hdataset]; exact oneLine_ofList _ (by decide), reasons_recordNote hknown ?_⟩
      unfold scopeRow
      cases hold : state.runtimeRows.get (chainId, EVM_LOGS_DATASET) with
      | none =>
          intro serves hserves
          have hentry := (Table.mem_select.mp hserves).1
          change (Table.empty : Table IncompleteServes).get _ = _ at hentry
          rw [Table.get_empty] at hentry
          cases hentry
      | some old =>
          refine (h.rows old (Table.mem_select.mpr ⟨?_, rfl⟩)).2
          rw [Table.key_of_get hold]
          exact hold
    · exact h.rows row (Table.mem_select.mpr ⟨hget, rfl⟩)

omit [ToString Time] [Zero Time] [Add Time] in
/-- The configured scopes are on one line. -/
theorem plain_recordConfiguredScopes (enabledChains : List ChainConfig) :
    PlainMetrics (recordConfiguredScopes enabledChains (initial : MetricsState Time)) where
  scopes := by
    refine List.foldlRecOn (motive := fun scopes : Table ConfiguredScopeMetricsRow =>
      ∀ scope ∈ scopes.select fun _ => true, OneLine scope.dataset) enabledChains _ ?_ ?_
    · intro scope hscope
      have hget := (Table.mem_select.mp hscope).1
      change (Table.empty : Table ConfiguredScopeMetricsRow).get _ = _ at hget
      rw [Table.get_empty] at hget
      cases hget
    · intro scopes hscopes chain _ scope hscope
      split at hscope
      · exact hscopes scope hscope
      · rename_i dataset hdataset
        have hget := (Table.mem_select.mp hscope).1
        rw [Table.get_upsert] at hget
        split at hget
        · obtain rfl := Option.some.inj hget
          rw [chainDataset_eq_ok hdataset]
          exact oneLine_ofList _ (by decide)
        · exact hscopes scope (Table.mem_select.mpr ⟨hget, rfl⟩)
  rows row hrow := by
    have hget := (Table.mem_select.mp hrow).1
    change (Table.empty : Table (RuntimeMetricsRow Time)).get _ = _ at hget
    rw [Table.get_empty] at hget
    cases hget

/-- **What a scrape tells of a running process.** A process runs the loops of different chains. Wherever the
loop of a chain awaits a call or has ended, a scrape finds each of its counters, and it is the sum of what the
calls of the chain since the process began count for, up to `u64::MAX`; a counter that is missing counts as
zero. What was collected from the database, and when, makes no difference. -/
theorem scrape_tells_counters {Env : Type} {ix : Indexer} {allowed : Answers Env}
    {config : RuntimeConfig} {pollMillis : Nat}
    (hdistinct : (config.enabledChains.map (·.chainId)).Nodup)
    (htimes : ∀ time : Time, OneLine (toString time)) (hdb : PlainDb updatedAt db)
    {turns : Fin config.enabledChains.length → Nat} {w₀ w : World Env} {m : MetricsState Time}
    {rests : Fin config.enabledChains.length → Metered Unit} (hpast : w₀.past = [])
    (hrun : Together (Observed (Serves ix allowed) Records)
      ((w₀, recordConfiguredScopes config.enabledChains initial), loopTasks config pollMillis turns)
      ((w, m), rests))
    {i : Fin config.enabledChains.length} (hi : ∀ a, (rests i).awaited ≠ some (.inr a))
    (cacheStatus : MetricsCacheStatus Time) {c : Counter} (hc : aboutCalls c = true) :
    (scrape (rendered (collectDbMetricsSnapshot updatedAt db) m cacheStatus) (counterSeries c).1
      (runtimeLabels (config.enabledChains.get i).chainId EVM_LOGS_DATASET ++
        (counterSeries c).2)).map (·.getD "0") =
      some (toString (min (tally (w.past.filter (ofChain (config.enabledChains.get i).chainId)) c)
        u64Max)) := by
  have hplain : PlainMetrics m := keeps_together hdistinct hpast rfl
    (fun _ _ _ _ _ hknown hm => plain_record hknown hm) hrun
    (plain_recordConfiguredScopes config.enabledChains)
  have heven := even_together hdistinct hpast rfl hrun hi
  rw [scrape_counter hdb hplain htimes cacheStatus, heven.shown hc]
  rfl

end

/-- Two turns of the loop of one chain process five blocks, and the page says so. -/
theorem scrape_tells_counters_loopedTwice :
    (scrape (rendered (collectDbMetricsSnapshot (fun _ => ("", some "7")) quotedDb) loopedTwice.2.2
      unrefreshed) "ormp_indexer_blocks_processed_total" (runtimeLabels 46 EVM_LOGS_DATASET)).map
        (·.getD "0") = some "5" := by
  have hrun : Together (Observed (Serves hashIndexer fun _ _ _ => True) Records)
      ((atStart.1, atStart.2), loopTasks oneChain 30000 fun _ => 2)
      ((loopedTwice.2.1, loopedTwice.2.2),
        Function.update (loopTasks oneChain 30000 fun _ => 2) onlyTask (.done loopedTwice.1)) :=
    together_loopedTwice (fun _ _ _ _ => trivial) records_recordAtZero
  have htells := scrape_tells_counters (by decide) oneLine_times plain_quotedDb rfl hrun ended_loopedTwice
    unrefreshed (c := .blocksProcessed) rfl
  have hvalue : toString (min 5 u64Max) = "5" := rfl
  have hsum : tally (loopedTwice.2.1.past.filter
      (ofChain (oneChain.enabledChains.get onlyTask).chainId)) .blocksProcessed = 5 := blocks_loopedTwice
  exact htells.trans (congrArg some ((congrArg (fun n => toString (min n u64Max)) hsum).trans hvalue))

end OrmpIndexer.Ops
