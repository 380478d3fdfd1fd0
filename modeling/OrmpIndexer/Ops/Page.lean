/-
# OrmpIndexer.Ops.Page — the metrics page as a scraper reads it

`pageMetrics` are the samples of a page. A page whose labels stay on one line is read as these samples, all of them
and no others (`reads_page`), and no series is among them twice (`nodup_series_page`), so what the page says of a
series is one value. Keys of tables are what makes the labels different: checkpoints, configured scopes and runtime
rows are stored under the chain and the dataset that label their samples.

A newline in a label is the one thing that cannot be read: `escape_label_value` leaves it as it is.
-/
import OrmpIndexer.Ops

namespace OrmpIndexer.Ops

open Foundation Foundation.Exposition

/-! ## The text of a sample -/

/-- Replacing twice is replacing each character once. -/
theorem toList_escapeLabelValue (value : String) :
    (escapeLabelValue value).toList = value.toList.flatMap escapeChar := by
  simp only [escapeLabelValue, replace, String.toList_ofList, List.flatMap_assoc]
  refine List.flatMap_congr fun c _ => ?_
  by_cases hbackslash : c = '\\'
  · subst hbackslash
    rfl
  · by_cases hquote : c = '"'
    · subst hquote
      rfl
    · rw [if_neg hbackslash, List.flatMap_singleton, if_neg hquote, escapeChar]
      · exact hbackslash
      · exact hquote

/-- The labels of `append_metric`, from the one with this index on. -/
theorem toList_join_labels (labels : List (String × String)) (first : Nat) :
    (String.join ((labels.zipIdx first).map fun ((key, value), index) =>
      (if index > 0 then "," else "") ++ key ++ "=\"" ++ escapeLabelValue value ++ "\"")).toList =
    (if first > 0 ∧ labels ≠ [] then [','] else []) ++ labelsText labels := by
  induction labels generalizing first with
  | nil => simp [labelsText]
  | cons label labels ih =>
      obtain ⟨key, value⟩ := label
      have hlabel : (key ++ "=\"" ++ escapeLabelValue value ++ "\"").toList =
          labelText (key, value) := by
        simp [labelText, String.toList_append, toList_escapeLabelValue]
      rw [List.zipIdx_cons, List.map_cons, String.join_cons, String.toList_append, ih]
      have hsep : (if first > 0 then "," else "").toList =
          if first > 0 then [','] else [] := by split <;> rfl
      simp only [String.append_assoc, String.toList_append] at hlabel ⊢
      rw [hsep, hlabel]
      cases labels with
      | nil => simp [labelsText]
      | cons next labels => simp [labelsText]

/-- `append_metric` writes a sample as scrapers read it. -/
theorem appendMetric_eq (s : Sample) : appendMetric s = s.text := by
  have hlabels := toList_join_labels s.labels 0
  rw [if_neg (by simp), List.nil_append] at hlabels
  apply String.toList_inj.mp
  rw [Sample.text, String.toList_ofList, Sample.line]
  simp [appendMetric, String.toList_append, hlabels]

/-- Pieces of a page are read one by one. -/
theorem appendMetrics_append (metrics metrics' : List Sample) :
    appendMetrics (metrics ++ metrics') = appendMetrics metrics ++ appendMetrics metrics' := by
  rw [appendMetrics, List.map_append, String.join_append]
  rfl

/-- Writable samples are read back. -/
theorem reads_appendMetrics {metrics : List Sample} (h : ∀ s ∈ metrics, s.Writable) :
    Reads (appendMetrics metrics) metrics := by
  have hreads : Reads (appendMetrics metrics) (metrics.flatMap fun s => [s]) :=
    reads_join appendMetric (fun s => [s]) fun s hs => by
      rw [appendMetric_eq]
      exact reads_sample (h s hs)
  rw [List.flatMap_singleton'] at hreads
  exact hreads

/-- What the comments in front of a metric consist of is on one line. -/
def PlainHeader (m : String × String × String) : Prop := OneLine m.1 ∧ OneLine m.2.1 ∧ OneLine m.2.2

/-- Comments are skipped. -/
theorem reads_header {m : String × String × String} (h : PlainHeader m) :
    Reads (header m.1 m.2.1 m.2.2) [] := by
  obtain ⟨hname, hhelp, hkind⟩ := h
  have hspace : OneLine " " := oneLine_ofList _ (by decide)
  have hhelp' : OneLine (" HELP " ++ m.1 ++ " " ++ m.2.1) :=
    (((oneLine_ofList _ (by decide)).append hname).append hspace).append hhelp
  have hkind' : OneLine (" TYPE " ++ m.1 ++ " " ++ m.2.2) :=
    (((oneLine_ofList _ (by decide)).append hname).append hspace).append hkind
  unfold header
  exact (reads_comment hhelp').append (reads_comment hkind')

theorem reads_headers {metrics : List (String × String × String)}
    (h : ∀ m ∈ metrics, PlainHeader m) : Reads (headers metrics) [] := by
  have hreads := reads_join (fun m : String × String × String => header m.1 m.2.1 m.2.2)
    (fun _ => []) fun m hm => reads_header (h m hm)
  rw [List.flatMap_eq_nil_iff.mpr fun _ _ => rfl] at hreads
  exact hreads

/-- The comments in front of the tables' metric. -/
def tableHeaders : List (String × String × String) :=
  [("ormp_indexer_legacy_table_rows", "Legacy GraphQL table row counts.", "gauge")]

/-- All comments of the page are such. -/
theorem plain_headers :
    ∀ metrics ∈ [cacheHeaders, checkpointHeaders, scopeHeaders, runtimeHeaders, tableHeaders],
      ∀ m ∈ metrics, PlainHeader m := by
  simp only [cacheHeaders, checkpointHeaders, scopeHeaders, runtimeHeaders, tableHeaders,
    List.forall_mem_cons, PlainHeader, List.not_mem_nil, false_implies, implies_true, and_true]
  and_intros
  all_goals exact oneLine_ofList _ (by decide)

/-! ## The samples of the page -/

/-- The labels of the samples of a checkpoint. -/
def checkpointLabels (checkpoint : CheckpointRow) : List (String × String) :=
  [("chain_id", checkpoint.chainId), ("dataset", checkpoint.dataset)]

/-- The samples that `checkpointText` writes. -/
def checkpointMetrics (checkpoint : CheckpointRow) : List Sample :=
  metric "ormp_indexer_checkpoint_next_block" (checkpointLabels checkpoint) checkpoint.nextBlock ++
    optionalMetric "ormp_indexer_checkpoint_updated_timestamp_seconds" (checkpointLabels checkpoint)
      checkpoint.updatedTimestampSeconds

/-- Whether there is a checkpoint, as a sample. -/
def presentMetrics (labels : List (String × String)) (present : Bool) : List Sample :=
  metric "ormp_indexer_checkpoint_present" labels (if present then 1 else 0 : Nat)

/-- The samples that `scopeText` writes. -/
def scopeMetrics (checkpoints : List CheckpointRow) (scope : ConfiguredScopeMetricsRow) :
    List Sample :=
  metric "ormp_indexer_configured_scope_info" (runtimeLabels scope.chainId scope.dataset ++
      [("start_block", toString scope.startBlock), ("batch_size", toString scope.batchSize)]) (1 : Nat) ++
    presentMetrics (runtimeLabels scope.chainId scope.dataset) (checkpoints.any (isOf scope))

/-- The sample that `tableText` writes. -/
def tableMetrics (rowCounts : List LegacyTableRowCount) (table : String) : List Sample :=
  metric "ormp_indexer_legacy_table_rows" [("table", table)]
    (((rowCounts.find? (·.tableName == table)).map (·.rowCount)).getD 0)

/-! ## The lines that are written by hand -/

/-- A text without backslashes and quotes needs no escape. -/
theorem escapeLabelValue_eq_self {value : String} (h : ∀ c ∈ value.toList, c ≠ '\\' ∧ c ≠ '"') :
    escapeLabelValue value = value := by
  apply String.toList_inj.mp
  rw [toList_escapeLabelValue]
  conv_rhs => rw [← List.flatMap_singleton' value.toList]
  refine List.flatMap_congr fun c hc => ?_
  obtain ⟨hbackslash, hquote⟩ := h c hc
  rw [escapeChar]
  · exact hbackslash
  · exact hquote

theorem escapeLabelValue_ofList (value : List Char)
    (h : value.all (fun c => c != '\\' && c != '"') = true) :
    escapeLabelValue (String.ofList value) = String.ofList value :=
  escapeLabelValue_eq_self fun c hc => by
    rw [String.toList_ofList] at hc
    simpa using List.all_eq_true.mp h c hc

theorem escapeLabelValue_nat (n : Nat) : escapeLabelValue (toString n) = toString n :=
  escapeLabelValue_eq_self fun c hc => by
    rw [toList_toString_nat] at hc
    have hdigit := isDigit_of_mem_decimal hc
    refine ⟨?_, ?_⟩
    · rintro rfl
      exact absurd hdigit (by decide)
    · rintro rfl
      exact absurd hdigit (by decide)

/-- A line with the labels of a checkpoint, as the source writes it out. -/
theorem append_checkpoint_labels (name chainId dataset value : String) :
    name ++ "\x7bchain_id=\"" ++ escapeLabelValue chainId ++ "\",dataset=\"" ++
        escapeLabelValue dataset ++ "\"\x7d " ++ value ++ "\n" =
      appendMetric ⟨name, [("chain_id", chainId), ("dataset", dataset)], value⟩ := by
  apply String.toList_inj.mp
  simp [appendMetric, List.zipIdx]

/-- The same with a number that is part of the text. -/
theorem append_labels_one (name chainId dataset : String) :
    name ++ "\x7bchain_id=\"" ++ escapeLabelValue chainId ++ "\",dataset=\"" ++
        escapeLabelValue dataset ++ "\"\x7d 1\n" =
      appendMetrics (metric name [("chain_id", chainId), ("dataset", dataset)] (1 : Nat)) := by
  apply String.toList_inj.mp
  simp [appendMetrics, metric, appendMetric, List.zipIdx]
  rfl

/-- The same with a number that depends on a condition. -/
theorem append_present_labels (name chainId dataset : String) (present : Bool) :
    name ++ "\x7bchain_id=\"" ++ escapeLabelValue chainId ++ "\",dataset=\"" ++
        escapeLabelValue dataset ++ "\"\x7d " ++ (if present then "1\n" else "0\n") =
      appendMetrics (metric name [("chain_id", chainId), ("dataset", dataset)]
        (if present then 1 else 0 : Nat)) := by
  apply String.toList_inj.mp
  cases present with
  | true =>
      simp [appendMetrics, metric, appendMetric, List.zipIdx]
      rfl
  | false => simp [appendMetrics, metric, appendMetric, List.zipIdx]

/-- The line of a scope, which has four labels. -/
theorem append_scope_labels (name chainId dataset startBlock batchSize : String) :
    name ++ "\x7bchain_id=\"" ++ escapeLabelValue chainId ++ "\",dataset=\"" ++
        escapeLabelValue dataset ++ "\",start_block=\"" ++ escapeLabelValue startBlock ++
        "\",batch_size=\"" ++ escapeLabelValue batchSize ++ "\"\x7d 1\n" =
      appendMetrics (metric name [("chain_id", chainId), ("dataset", dataset),
        ("start_block", startBlock), ("batch_size", batchSize)] (1 : Nat)) := by
  apply String.toList_inj.mp
  simp [appendMetrics, metric, appendMetric, List.zipIdx]
  rfl

/-- The line of a table, which has one. -/
theorem append_table_label (name table value : String) :
    name ++ "\x7btable=\"" ++ escapeLabelValue table ++ "\"\x7d " ++ value ++ "\n" =
      appendMetric ⟨name, [("table", table)], value⟩ := by
  apply String.toList_inj.mp
  simp [appendMetric, List.zipIdx]

theorem appendMetrics_singleton (s : Sample) : appendMetrics [s] = appendMetric s := by
  rw [appendMetrics, List.map_singleton, String.join_cons, String.join_nil, String.append_empty]

/-- The lines written by hand are those `append_metric` would write. -/
theorem checkpointText_eq (checkpoint : CheckpointRow) :
    checkpointText checkpoint = appendMetrics (checkpointMetrics checkpoint) := by
  unfold checkpointText checkpointMetrics
  rw [append_checkpoint_labels, appendMetrics_append]
  exact congrArg (· ++ _) (appendMetrics_singleton _).symm

theorem presentText_eq (checkpoint : CheckpointRow) :
    presentText checkpoint = appendMetrics (presentMetrics (checkpointLabels checkpoint) true) := by
  unfold presentText
  exact append_labels_one _ _ _

theorem scopeText_eq (checkpoints : List CheckpointRow) (scope : ConfiguredScopeMetricsRow) :
    scopeText checkpoints scope = appendMetrics (scopeMetrics checkpoints scope) := by
  have hinfo := append_scope_labels "ormp_indexer_configured_scope_info" (toString scope.chainId)
    scope.dataset (toString scope.startBlock) (toString scope.batchSize)
  have hpresent := append_present_labels "ormp_indexer_checkpoint_present" (toString scope.chainId)
    scope.dataset (checkpoints.any (isOf scope))
  rw [escapeLabelValue_nat, escapeLabelValue_nat, escapeLabelValue_nat] at hinfo
  rw [escapeLabelValue_nat] at hpresent
  unfold scopeText scopeMetrics
  rw [appendMetrics_append]
  exact congrArg₂ (· ++ ·) hinfo hpresent

theorem tableText_eq (rowCounts : List LegacyTableRowCount) {table : String}
    (h : table ∈ LEGACY_TABLES) :
    tableText rowCounts table = appendMetrics (tableMetrics rowCounts table) := by
  have hescape : ∀ table ∈ LEGACY_TABLES, escapeLabelValue table = table := by
    simp only [LEGACY_TABLES, List.forall_mem_cons, List.not_mem_nil, false_implies, implies_true,
      and_true]
    and_intros
    all_goals exact escapeLabelValue_ofList _ (by decide)
  unfold tableText tableMetrics
  rw [metric, appendMetrics_singleton, ← append_table_label, hescape table h]

/-! ## The series of a runtime row -/

section

variable {Time : Type} [ToString Time]

/-- What holds of the one sample holds of the list. -/
theorem forall_metric {α : Type} [ToString α] {P : Sample → Prop} {name : String}
    {labels : List (String × String)} {value : α} :
    (∀ s ∈ metric name labels value, P s) ↔ P ⟨name, labels, toString value⟩ :=
  List.forall_mem_singleton

theorem forall_optionalMetric {α : Type} [ToString α] {P : Sample → Prop} {name : String}
    {labels : List (String × String)} {value : Option α} :
    (∀ s ∈ optionalMetric name labels value, P s) ↔
      ∀ v, value = some v → P ⟨name, labels, toString v⟩ := by
  cases value with
  | none => simp [optionalMetric]
  | some v => simp [optionalMetric, metric]

/-- The metrics of a row, with the labels they have besides the chain and the dataset. -/
def rowSeries : List (String × List (String × String)) := [
  ("ormp_indexer_target_block", []),
  ("ormp_indexer_remaining_blocks", []),
  ("ormp_indexer_datalens_head_height", []),
  ("ormp_indexer_datalens_head_observed_timestamp_seconds", []),
  ("ormp_indexer_datalens_head_advanced_timestamp_seconds", []),
  ("ormp_indexer_chain_last_success_timestamp_seconds", []),
  ("ormp_indexer_checkpoint_last_forward_advance_timestamp_seconds", []),
  ("ormp_indexer_consecutive_failures", []),
  ("ormp_indexer_chain_passes_total", [("result", "success")]),
  ("ormp_indexer_chain_passes_total", [("result", "failure")]),
  ("ormp_indexer_ranges_total", [("result", "success")]),
  ("ormp_indexer_ranges_total", [("result", "failure")]),
  ("ormp_indexer_blocks_processed_total", []),
  ("ormp_indexer_records_total", [("stage", "read")]),
  ("ormp_indexer_records_total", [("stage", "decoded")]),
  ("ormp_indexer_records_total", [("stage", "written")]),
  ("ormp_indexer_batch_duration_seconds_sum", []),
  ("ormp_indexer_batch_duration_seconds_count", []),
  ("ormp_indexer_datalens_requests_total", [("operation", "logs"), ("result", "success")]),
  ("ormp_indexer_datalens_requests_total", [("operation", "logs"), ("result", "failure")]),
  ("ormp_indexer_datalens_requests_total", [("operation", "blocks"), ("result", "success")]),
  ("ormp_indexer_datalens_requests_total", [("operation", "blocks"), ("result", "failure")]),
  ("ormp_indexer_reorg_rollbacks_total", [])]

/-- The series of incomplete answers, one for each reason. -/
def reasonSeries (serves : IncompleteServes) : String × List (String × String) :=
  ("ormp_indexer_incomplete_serves_total", [("reason", serves.reason)])

/-- A series of a row. -/
def rowLabeled (chainId : Nat) (dataset : String) (series : String × List (String × String)) :
    String × List (String × String) :=
  (series.1, runtimeLabels chainId dataset ++ series.2)

/-- A metric that may be missing has its series or none. -/
theorem series_optionalMetric {α : Type} [ToString α] {name : String}
    {labels : List (String × String)} {value : Option α} {rest l : List (String × List (String × String))}
    (h : rest.Sublist l) :
    ((optionalMetric name labels value).map Sample.series ++ rest).Sublist ((name, labels) :: l) := by
  cases value with
  | none => exact h.cons _
  | some v => exact h.cons_cons _

theorem series_metric {α : Type} [ToString α] {name : String} {labels : List (String × String)}
    {value : α} {rest l : List (String × List (String × String))} (h : rest.Sublist l) :
    ((metric name labels value).map Sample.series ++ rest).Sublist ((name, labels) :: l) :=
  h.cons_cons _

/-- A row has its series, but for what is not known yet. -/
theorem series_rowMetrics (row : RuntimeMetricsRow Time) :
    ((rowMetrics row).map Sample.series).Sublist
      ((rowSeries ++ (row.incompleteServesTotal.select fun _ => true).map reasonSeries).map
        (rowLabeled row.chainId row.dataset)) := by
  have hreasons : ((row.incompleteServesTotal.select fun _ => true).flatMap fun serves =>
      metric "ormp_indexer_incomplete_serves_total"
        (runtimeLabels row.chainId row.dataset ++ [("reason", serves.reason)]) serves.count).map
          Sample.series =
      ((row.incompleteServesTotal.select fun _ => true).map reasonSeries).map
        (rowLabeled row.chainId row.dataset) := by
    rw [List.map_flatMap, List.map_map, ← List.flatMap_pure_eq_map]
    rfl
  unfold rowMetrics datalensRequestMetrics
  simp only [rowSeries, List.map_append, List.map_cons, List.cons_append, List.nil_append,
    List.flatMap_cons, List.flatMap_nil, List.append_nil, List.append_assoc]
  rw [hreasons]
  -- what may not be known comes first
  iterate 7 refine series_optionalMetric ?_
  iterate 16 refine series_metric ?_
  exact List.Sublist.refl _

/-! ## Every line can be read -/

/-- Labels that can be read: names, and values on one line. -/
def PlainLabels (labels : List (String × String)) : Prop :=
  ∀ label ∈ labels, IsName label.1 ∧ OneLine label.2

theorem oneLine_nat (n : Nat) : OneLine (toString n) := fun h => by
  rw [toList_toString_nat] at h
  exact absurd (isDigit_of_mem_decimal h) (by decide)

theorem oneLine_int (n : Int) : OneLine (toString n) := by
  cases n with
  | ofNat n => exact oneLine_nat n
  | negSucc n => exact (oneLine_ofList ['-'] (by decide)).append (oneLine_nat (n + 1))

theorem oneLine_metric {α : Type} [ToString α] {name : String} {labels : List (String × String)}
    {value : α} (h : OneLine (toString value)) : ∀ s ∈ metric name labels value, OneLine s.value :=
  forall_metric.mpr h

theorem oneLine_optionalMetric {α : Type} [ToString α] {name : String}
    {labels : List (String × String)} {value : Option α} (h : ∀ a : α, OneLine (toString a)) :
    ∀ s ∈ optionalMetric name labels value, OneLine s.value :=
  forall_optionalMetric.mpr fun v _ => h v

theorem plain_runtimeLabels (chainId : Nat) {dataset : String} (h : OneLine dataset) :
    PlainLabels (runtimeLabels chainId dataset) := by
  refine List.forall_mem_cons.mpr ⟨⟨isName_ofList _ (by decide), oneLine_nat chainId⟩, ?_⟩
  exact List.forall_mem_singleton.mpr ⟨isName_ofList _ (by decide), h⟩

/-- The series of a row have such labels. -/
theorem plain_rowSeries : ∀ series ∈ rowSeries, IsName series.1 ∧ PlainLabels series.2 := by
  simp only [rowSeries, PlainLabels, List.forall_mem_cons, List.not_mem_nil, false_implies,
    implies_true, and_true]
  and_intros
  all_goals first | exact isName_ofList _ (by decide) | exact oneLine_ofList _ (by decide)

/-- What is not a number in a page is on one line: the datasets, the reasons, and what the database and the
clocks are shown as. -/
structure PlainPage (checkpoints : List CheckpointRow) (runtime : MetricsSnapshot Time) : Prop where
  checkpoints : ∀ checkpoint ∈ checkpoints, OneLine checkpoint.chainId ∧ OneLine checkpoint.dataset ∧
    OneLine checkpoint.nextBlock ∧ ∀ seconds, checkpoint.updatedTimestampSeconds = some seconds →
      OneLine seconds
  scopes : ∀ scope ∈ runtime.configuredScopes, OneLine scope.dataset
  rows : ∀ row ∈ runtime.runtimeRows, OneLine row.dataset ∧
    ∀ serves ∈ row.incompleteServesTotal.select fun _ => true, OneLine serves.reason
  times : ∀ time : Time, OneLine (toString time)

/-- The samples of a row can be read if its dataset and its reasons are on one line. -/
theorem writable_rowMetrics {row : RuntimeMetricsRow Time} (hdataset : OneLine row.dataset)
    (hreasons : ∀ serves ∈ row.incompleteServesTotal.select fun _ => true, OneLine serves.reason)
    (htimes : ∀ time : Time, OneLine (toString time)) : ∀ s ∈ rowMetrics row, s.Writable := by
  have hvalues : ∀ s ∈ rowMetrics row, OneLine s.value := by
    unfold rowMetrics
    iterate 20 refine List.forall_mem_append.mpr ⟨?_, ?_⟩
    iterate 3 exact oneLine_optionalMetric oneLine_nat
    iterate 4 exact oneLine_optionalMetric htimes
    iterate 9 exact oneLine_metric (oneLine_nat _)
    · exact oneLine_metric (htimes _)
    · exact oneLine_metric (oneLine_nat _)
    · intro s hs
      obtain ⟨operation, _, hs⟩ := List.mem_flatMap.mp hs
      rcases List.mem_append.mp hs with hs | hs
      · exact oneLine_metric (oneLine_nat _) s hs
      · exact oneLine_metric (oneLine_nat _) s hs
    · exact oneLine_metric (oneLine_nat _)
    · intro s hs
      obtain ⟨serves, _, hs⟩ := List.mem_flatMap.mp hs
      exact oneLine_metric (oneLine_nat _) s hs
  have hplain : ∀ series ∈ rowSeries ++
      (row.incompleteServesTotal.select fun _ => true).map reasonSeries,
      IsName series.1 ∧ PlainLabels series.2 := by
    intro series hseries
    rcases List.mem_append.mp hseries with hrow | hreason
    · exact plain_rowSeries series hrow
    · obtain ⟨serves, hserves, rfl⟩ := List.mem_map.mp hreason
      refine ⟨isName_ofList _ (by decide), fun label hlabel => ?_⟩
      rw [List.mem_singleton.mp hlabel]
      exact ⟨isName_ofList _ (by decide), hreasons serves hserves⟩
  intro s hs
  have hmem := (series_rowMetrics row).subset (List.mem_map.mpr ⟨s, hs, rfl⟩)
  obtain ⟨series, hseries, heq⟩ := List.mem_map.mp hmem
  obtain ⟨hname, hlabels⟩ := hplain series hseries
  refine ⟨?_, ?_, hvalues s hs⟩
  · have hseries : series.1 = s.name := congrArg Prod.fst heq
    exact hseries ▸ hname
  · have hseries : runtimeLabels row.chainId row.dataset ++ series.2 = s.labels :=
      congrArg Prod.snd heq
    rw [← hseries]
    exact List.forall_mem_append.mpr ⟨plain_runtimeLabels row.chainId hdataset, hlabels⟩

theorem writable_cacheMetrics (htimes : ∀ time : Time, OneLine (toString time))
    (cacheStatus : MetricsCacheStatus Time) : ∀ s ∈ cacheMetrics cacheStatus, s.Writable := by
  have hnone : PlainLabels [] := fun label hlabel => absurd hlabel List.not_mem_nil
  simp only [cacheMetrics, List.forall_mem_append, forall_metric, forall_optionalMetric]
  and_intros
  all_goals first
    | exact fun _ _ => ⟨isName_ofList _ (by decide), hnone, htimes _⟩
    | exact ⟨isName_ofList _ (by decide), hnone, oneLine_nat _⟩

/-! ## The page is read -/

/-- The checkpoints that no configured scope has. -/
def otherCheckpoints (checkpoints : List CheckpointRow) (scopes : List ConfiguredScopeMetricsRow) :
    List CheckpointRow :=
  checkpoints.filter fun checkpoint => !scopes.any (isOf · checkpoint)

/-- The samples of a page. -/
def pageMetrics (checkpoints : List CheckpointRow) (rowCounts : List LegacyTableRowCount)
    (runtime : MetricsSnapshot Time) (cacheStatus : MetricsCacheStatus Time) : List Sample :=
  cacheMetrics cacheStatus ++ checkpoints.flatMap checkpointMetrics ++
    metric "ormp_indexer_checkpoint_rows" [] checkpoints.length ++
    runtime.configuredScopes.flatMap (scopeMetrics checkpoints) ++
    (otherCheckpoints checkpoints runtime.configuredScopes).flatMap
      (fun checkpoint => presentMetrics (checkpointLabels checkpoint) true) ++
    runtime.runtimeRows.flatMap rowMetrics ++ LEGACY_TABLES.flatMap (tableMetrics rowCounts)

theorem plain_checkpointLabels {checkpoint : CheckpointRow} (hchain : OneLine checkpoint.chainId)
    (hdataset : OneLine checkpoint.dataset) : PlainLabels (checkpointLabels checkpoint) := by
  refine List.forall_mem_cons.mpr ⟨⟨isName_ofList _ (by decide), hchain⟩, ?_⟩
  exact List.forall_mem_singleton.mpr ⟨isName_ofList _ (by decide), hdataset⟩

/-- A list of texts is read piece by piece. -/
theorem reads_texts {α : Type} {text : α → String} {metrics : α → List Sample} {l : List α}
    (htext : ∀ a ∈ l, text a = appendMetrics (metrics a))
    (h : ∀ a ∈ l, ∀ s ∈ metrics a, s.Writable) :
    Reads (String.join (l.map text)) (l.flatMap metrics) :=
  reads_join text metrics fun a ha => by
    rw [htext a ha]
    exact reads_appendMetrics (h a ha)

section

variable {checkpoints : List CheckpointRow} {runtime : MetricsSnapshot Time}

theorem reads_checkpoints (h : PlainPage checkpoints runtime) :
    Reads (String.join (checkpoints.map checkpointText)) (checkpoints.flatMap checkpointMetrics) := by
  refine reads_texts (fun checkpoint _ => checkpointText_eq checkpoint) fun checkpoint hmem => ?_
  obtain ⟨hchain, hdataset, hnext, hseconds⟩ := h.checkpoints checkpoint hmem
  have hlabels := plain_checkpointLabels hchain hdataset
  refine List.forall_mem_append.mpr ⟨forall_metric.mpr ?_, forall_optionalMetric.mpr ?_⟩
  · exact ⟨isName_ofList _ (by decide), hlabels, hnext⟩
  · exact fun seconds hsome => ⟨isName_ofList _ (by decide), hlabels, hseconds seconds hsome⟩

theorem reads_checkpointRows (checkpoints : List CheckpointRow) :
    Reads (checkpointRowsText checkpoints)
      (metric "ormp_indexer_checkpoint_rows" [] checkpoints.length) := by
  unfold checkpointRowsText
  refine Reads.behind ?_ ?_
  · exact reads_bare (isName_ofList _ (by decide)) (oneLine_nat _)
  · refine reads_header (m := ("ormp_indexer_checkpoint_rows", "Total checkpoint rows.", "gauge"))
      ⟨?_, ?_, ?_⟩
    all_goals exact oneLine_ofList _ (by decide)

theorem reads_scopes (h : PlainPage checkpoints runtime) :
    Reads (String.join (runtime.configuredScopes.map (scopeText checkpoints)))
      (runtime.configuredScopes.flatMap (scopeMetrics checkpoints)) := by
  refine reads_texts (fun scope _ => scopeText_eq checkpoints scope) fun scope hmem => ?_
  have hlabels := plain_runtimeLabels scope.chainId (h.scopes scope hmem)
  refine List.forall_mem_append.mpr ⟨forall_metric.mpr ?_, forall_metric.mpr ?_⟩
  · refine ⟨isName_ofList _ (by decide), List.forall_mem_append.mpr ⟨hlabels, ?_⟩, oneLine_nat 1⟩
    refine List.forall_mem_cons.mpr ⟨⟨isName_ofList _ (by decide), oneLine_nat _⟩, ?_⟩
    exact List.forall_mem_singleton.mpr ⟨isName_ofList _ (by decide), oneLine_nat _⟩
  · exact ⟨isName_ofList _ (by decide), hlabels, oneLine_nat _⟩

theorem reads_others (h : PlainPage checkpoints runtime) :
    Reads (String.join ((otherCheckpoints checkpoints runtime.configuredScopes).map presentText))
      ((otherCheckpoints checkpoints runtime.configuredScopes).flatMap fun checkpoint =>
        presentMetrics (checkpointLabels checkpoint) true) := by
  refine reads_texts (fun checkpoint _ => presentText_eq checkpoint) fun checkpoint hmem => ?_
  obtain ⟨hchain, hdataset, _, _⟩ := h.checkpoints checkpoint (List.mem_of_mem_filter hmem)
  exact forall_metric.mpr ⟨isName_ofList _ (by decide), plain_checkpointLabels hchain hdataset,
    oneLine_nat 1⟩

theorem reads_tables (rowCounts : List LegacyTableRowCount) :
    Reads (String.join (LEGACY_TABLES.map (tableText rowCounts)))
      (LEGACY_TABLES.flatMap (tableMetrics rowCounts)) := by
  have hplain : ∀ table ∈ LEGACY_TABLES, OneLine table := by
    simp only [LEGACY_TABLES, List.forall_mem_cons, List.not_mem_nil, false_implies, implies_true,
      and_true]
    and_intros
    all_goals exact oneLine_ofList _ (by decide)
  refine reads_texts (fun table hmem => tableText_eq rowCounts hmem) fun table hmem => ?_
  refine forall_metric.mpr ⟨isName_ofList _ (by decide), ?_, oneLine_int _⟩
  exact List.forall_mem_singleton.mpr ⟨isName_ofList _ (by decide), hplain table hmem⟩

/-- A page is read as its samples. -/
theorem reads_page (h : PlainPage checkpoints runtime) (rowCounts : List LegacyTableRowCount)
    (cacheStatus : MetricsCacheStatus Time) :
    Reads (formatMetricsWithStatus checkpoints rowCounts runtime cacheStatus)
      (pageMetrics checkpoints rowCounts runtime cacheStatus) := by
  have hcache := reads_appendMetrics (writable_cacheMetrics h.times cacheStatus)
  have hruntime : Reads (String.join (runtime.runtimeRows.map fun row => appendMetrics (rowMetrics row)))
      (runtime.runtimeRows.flatMap rowMetrics) :=
    reads_texts (fun _ _ => rfl) fun row hmem =>
      writable_rowMetrics (h.rows row hmem).1 (h.rows row hmem).2 h.times
  unfold formatMetricsWithStatus pageMetrics
  refine Reads.append ?_ (reads_tables rowCounts)
  refine Reads.before ?_ (reads_headers (plain_headers tableHeaders (by simp)))
  refine Reads.append ?_ hruntime
  refine Reads.before ?_ (reads_headers (plain_headers _ (by simp)))
  refine Reads.append ?_ (reads_others h)
  refine Reads.append ?_ (reads_scopes h)
  refine Reads.before ?_ (reads_headers (plain_headers _ (by simp)))
  refine Reads.append ?_ (reads_checkpointRows checkpoints)
  refine Reads.append ?_ (reads_checkpoints h)
  refine Reads.before ?_ (reads_headers (plain_headers _ (by simp)))
  exact hcache.behind (reads_headers (plain_headers _ (by simp)))

end

/-! ## No series twice -/

/-- What a page is about, it is about once. -/
structure KeyedPage (checkpoints : List CheckpointRow) (runtime : MetricsSnapshot Time) : Prop where
  checkpoints : (checkpoints.map checkpointLabels).Nodup
  scopes : (runtime.configuredScopes.map fun scope => runtimeLabels scope.chainId scope.dataset).Nodup
  rows : (runtime.runtimeRows.map fun row => runtimeLabels row.chainId row.dataset).Nodup
  reasons : ∀ row ∈ runtime.runtimeRows,
    ((row.incompleteServesTotal.select fun _ => true).map (·.reason)).Nodup

/-- The series of the cache are those of its comments. -/
theorem series_cacheMetrics (cacheStatus : MetricsCacheStatus Time) :
    ((cacheMetrics cacheStatus).map Sample.series).Sublist (cacheHeaders.map fun m => (m.1, [])) := by
  unfold cacheMetrics
  simp only [cacheHeaders, List.map_append, List.map_cons, List.map_nil, List.append_assoc]
  iterate 3 refine series_optionalMetric ?_
  exact List.Sublist.refl _

theorem series_checkpointMetrics (checkpoint : CheckpointRow) :
    ((checkpointMetrics checkpoint).map Sample.series).Sublist
      (checkpointHeaders.map fun m => (m.1, checkpointLabels checkpoint)) := by
  unfold checkpointMetrics
  rw [List.map_append]
  refine series_metric ?_
  have hoptional : ((optionalMetric "ormp_indexer_checkpoint_updated_timestamp_seconds"
      (checkpointLabels checkpoint) checkpoint.updatedTimestampSeconds).map Sample.series ++ []).Sublist
        [("ormp_indexer_checkpoint_updated_timestamp_seconds", checkpointLabels checkpoint)] :=
    series_optionalMetric (.refl [])
  rw [List.append_nil] at hoptional
  exact hoptional

/-- No row has a series twice: the reasons of incomplete answers are keys of a table. -/
theorem nodup_rowMetrics {row : RuntimeMetricsRow Time}
    (h : ((row.incompleteServesTotal.select fun _ => true).map (·.reason)).Nodup) :
    ((rowMetrics row).map Sample.series).Nodup := by
  have hlabeled : Function.Injective (rowLabeled row.chainId row.dataset) := fun series series' heq =>
    Prod.ext (Prod.mk.inj heq).1 (List.append_cancel_left (Prod.mk.inj heq).2)
  have hreasons : ((row.incompleteServesTotal.select fun _ => true).map reasonSeries).Nodup := by
    have hinjective : Function.Injective fun reason : String =>
        ("ormp_indexer_incomplete_serves_total", [("reason", reason)]) := fun reason reason' heq => by
      simpa using heq
    have hmap := h.map hinjective
    rw [List.map_map] at hmap
    exact hmap
  have hother : ∀ series ∈ rowSeries, series.1 ≠ "ormp_indexer_incomplete_serves_total" := by
    decide +kernel
  refine (series_rowMetrics row).nodup (List.Nodup.map hlabeled ?_)
  refine List.nodup_append.mpr ⟨by decide +kernel, hreasons, fun series hseries series' hseries' => ?_⟩
  obtain ⟨serves, _, rfl⟩ := List.mem_map.mp hseries'
  exact fun heq => hother series hseries (congrArg Prod.fst heq)

/-! ### Which metrics are where -/

/-- The metrics are among those of the list. -/
theorem name_of_sublist {metrics : List Sample} {l : List (String × List (String × String))}
    (h : (metrics.map Sample.series).Sublist l) : ∀ s ∈ metrics, s.name ∈ l.map Prod.fst := fun s hs =>
  List.mem_map.mpr ⟨s.series, h.subset (List.mem_map.mpr ⟨s, hs, rfl⟩), rfl⟩

/-- The metrics of a runtime row. -/
def rowNames : List String := rowSeries.map Prod.fst ++ ["ormp_indexer_incomplete_serves_total"]

theorem name_rowMetrics {row : RuntimeMetricsRow Time} : ∀ s ∈ rowMetrics row, s.name ∈ rowNames := by
  intro s hs
  have hname := name_of_sublist (series_rowMetrics row) s hs
  rw [List.map_map] at hname
  obtain ⟨series, hseries, heq⟩ := List.mem_map.mp hname
  rw [← heq]
  rcases List.mem_append.mp hseries with hrow | hreason
  · exact List.mem_append_left _ (List.mem_map.mpr ⟨series, hrow, rfl⟩)
  · obtain ⟨serves, _, rfl⟩ := List.mem_map.mp hreason
    exact List.mem_append_right _ (List.mem_singleton.mpr rfl)

/-- The first two labels of a row's sample are the chain and the dataset. -/
theorem take_labels_rowMetrics {row : RuntimeMetricsRow Time} :
    ∀ s ∈ rowMetrics row, s.labels.take 2 = runtimeLabels row.chainId row.dataset := by
  intro s hs
  have hmem := (series_rowMetrics row).subset (List.mem_map.mpr ⟨s, hs, rfl⟩)
  obtain ⟨series, _, heq⟩ := List.mem_map.mp hmem
  have hlabels : runtimeLabels row.chainId row.dataset ++ series.2 = s.labels := congrArg Prod.snd heq
  rw [← hlabels]
  rfl

variable {checkpoints : List CheckpointRow} {runtime : MetricsSnapshot Time}

/-- A checkpoint of a scope has its labels. -/
theorem isOf_iff {scope : ConfiguredScopeMetricsRow} {checkpoint : CheckpointRow} :
    isOf scope checkpoint = true ↔
      checkpointLabels checkpoint = runtimeLabels scope.chainId scope.dataset := by
  simp [isOf, checkpointLabels, runtimeLabels]

omit [ToString Time] in
/-- Checkpoints of different keys have different series. -/
theorem nodup_checkpoints (h : KeyedPage checkpoints runtime) :
    ((checkpoints.flatMap checkpointMetrics).map Sample.series).Nodup := by
  refine nodup_series_flatMap checkpointLabels id (fun checkpoint _ s hs => ?_) h.checkpoints
    fun checkpoint _ => ?_
  · have hmem := (series_checkpointMetrics checkpoint).subset (List.mem_map.mpr ⟨s, hs, rfl⟩)
    obtain ⟨m, _, heq⟩ := List.mem_map.mp hmem
    exact (congrArg Prod.snd heq).symm
  · refine (series_checkpointMetrics checkpoint).nodup (List.Nodup.of_map Prod.fst ?_)
    rw [List.map_map]
    show (checkpointHeaders.map (·.1)).Nodup
    decide +kernel

/-- What a page says of checkpoints and scopes. -/
def presence (checkpoints : List CheckpointRow) (runtime : MetricsSnapshot Time) : List Sample :=
  runtime.configuredScopes.flatMap (scopeMetrics checkpoints) ++
    (otherCheckpoints checkpoints runtime.configuredScopes).flatMap fun checkpoint =>
      presentMetrics (checkpointLabels checkpoint) true

omit [ToString Time] in
/-- Whether a scope has a checkpoint is said once, by the scope or by the checkpoint. -/
theorem nodup_scopes (h : KeyedPage checkpoints runtime) :
    ((presence checkpoints runtime).map Sample.series).Nodup := by
  have hscopes : ((runtime.configuredScopes.flatMap (scopeMetrics checkpoints)).map
      Sample.series).Nodup := by
    refine nodup_series_flatMap (fun scope => runtimeLabels scope.chainId scope.dataset) (·.take 2)
      (fun scope _ s hs => ?_) h.scopes fun scope _ => ?_
    · rcases List.mem_append.mp hs with hs | hs
      all_goals
        rw [List.mem_singleton.mp hs]
        rfl
    · refine List.Nodup.of_map Prod.fst ?_
      show ["ormp_indexer_configured_scope_info", "ormp_indexer_checkpoint_present"].Nodup
      decide +kernel
  have hothers : (((otherCheckpoints checkpoints runtime.configuredScopes).flatMap fun checkpoint =>
      presentMetrics (checkpointLabels checkpoint) true).map Sample.series).Nodup := by
    refine nodup_series_flatMap checkpointLabels id (fun checkpoint _ s hs => ?_)
      (h.checkpoints.sublist (List.Sublist.map _ List.filter_sublist)) fun checkpoint _ =>
        List.nodup_singleton _
    rw [List.mem_singleton.mp hs]
    rfl
  rw [presence, List.map_append, List.nodup_append]
  refine ⟨hscopes, hothers, fun series hseries series' hseries' heq => ?_⟩
  obtain ⟨s, hs, rfl⟩ := List.mem_map.mp hseries
  obtain ⟨s', hs', rfl⟩ := List.mem_map.mp hseries'
  obtain ⟨scope, hscope, hs⟩ := List.mem_flatMap.mp hs
  obtain ⟨checkpoint, hcheckpoint, hs'⟩ := List.mem_flatMap.mp hs'
  rw [List.mem_singleton.mp hs'] at heq
  rcases List.mem_append.mp hs with hs | hs
  · rw [List.mem_singleton.mp hs] at heq
    have hname : "ormp_indexer_configured_scope_info" = "ormp_indexer_checkpoint_present" :=
      congrArg Prod.fst heq
    exact absurd hname (by decide +kernel)
  · -- the checkpoint is not of this scope
    rw [List.mem_singleton.mp hs] at heq
    have hnone := (List.mem_filter.mp hcheckpoint).2
    have hof : isOf scope checkpoint = true := isOf_iff.mpr (congrArg Prod.snd heq).symm
    rw [List.any_eq_true.mpr ⟨scope, hscope, hof⟩] at hnone
    cases hnone

/-- The tables have different names. -/
theorem nodup_tables (rowCounts : List LegacyTableRowCount) :
    ((LEGACY_TABLES.flatMap (tableMetrics rowCounts)).map Sample.series).Nodup := by
  refine nodup_series_flatMap (fun table => [table]) (·.map Prod.snd) (fun table _ s hs => ?_) ?_
    fun table _ => List.nodup_singleton _
  · rw [List.mem_singleton.mp hs]
    rfl
  · decide +kernel

/-! ### The pieces of a page -/

variable {cacheStatus : MetricsCacheStatus Time} {rowCounts : List LegacyTableRowCount}

theorem name_cacheMetrics (cacheStatus : MetricsCacheStatus Time) :
    ∀ s ∈ cacheMetrics cacheStatus, s.name ∈ cacheHeaders.map fun m => m.1 := by
  have hname := name_of_sublist (series_cacheMetrics cacheStatus)
  rw [List.map_map] at hname
  exact hname

omit [ToString Time] in
theorem name_checkpoints (checkpoints : List CheckpointRow) :
    ∀ s ∈ checkpoints.flatMap checkpointMetrics, s.name ∈ checkpointHeaders.map fun m => m.1 :=
  names_flatMap fun checkpoint _ s hs => by
    have hname := name_of_sublist (series_checkpointMetrics checkpoint) s hs
    rw [List.map_map] at hname
    exact hname

omit [ToString Time] in
theorem name_checkpointRows (checkpoints : List CheckpointRow) :
    ∀ s ∈ metric "ormp_indexer_checkpoint_rows" [] checkpoints.length,
      s.name ∈ ["ormp_indexer_checkpoint_rows"] :=
  forall_metric.mpr (List.mem_singleton.mpr rfl)

omit [ToString Time] in
theorem name_presence (checkpoints : List CheckpointRow) (runtime : MetricsSnapshot Time) :
    ∀ s ∈ presence checkpoints runtime, s.name ∈ scopeHeaders.map fun m => m.1 := by
  have hpresent : ∀ {labels present}, ∀ s ∈ presentMetrics labels present,
      s.name ∈ scopeHeaders.map fun m => m.1 := fun s hs => by
    rw [List.mem_singleton.mp hs]
    exact List.mem_cons_of_mem _ (List.mem_singleton.mpr rfl)
  intro s hs
  rcases List.mem_append.mp hs with hs | hs
  · refine names_flatMap (fun scope _ s hs => ?_) s hs
    rcases List.mem_append.mp hs with hs | hs
    · rw [List.mem_singleton.mp hs]
      exact List.mem_cons_self
    · exact hpresent s hs
  · exact names_flatMap (fun checkpoint _ => hpresent) s hs

theorem name_runtimeRows (runtime : MetricsSnapshot Time) :
    ∀ s ∈ runtime.runtimeRows.flatMap rowMetrics, s.name ∈ rowNames :=
  names_flatMap fun _ _ => name_rowMetrics

omit [ToString Time] in
theorem name_tables (rowCounts : List LegacyTableRowCount) :
    ∀ s ∈ LEGACY_TABLES.flatMap (tableMetrics rowCounts), s.name ∈ ["ormp_indexer_legacy_table_rows"] :=
  names_flatMap fun table _ s hs => by
    rw [List.mem_singleton.mp hs]
    exact List.mem_singleton.mpr rfl

/-- The page by what its samples are about. -/
theorem pageMetrics_eq (checkpoints : List CheckpointRow) (rowCounts : List LegacyTableRowCount)
    (runtime : MetricsSnapshot Time) (cacheStatus : MetricsCacheStatus Time) :
    pageMetrics checkpoints rowCounts runtime cacheStatus =
      cacheMetrics cacheStatus ++ checkpoints.flatMap checkpointMetrics ++
        metric "ormp_indexer_checkpoint_rows" [] checkpoints.length ++ presence checkpoints runtime ++
        runtime.runtimeRows.flatMap rowMetrics ++ LEGACY_TABLES.flatMap (tableMetrics rowCounts) := by
  simp only [pageMetrics, presence, List.append_assoc]

/-- No page has a series twice. -/
theorem nodup_series_page (h : KeyedPage checkpoints runtime) (rowCounts : List LegacyTableRowCount)
    (cacheStatus : MetricsCacheStatus Time) :
    ((pageMetrics checkpoints rowCounts runtime cacheStatus).map Sample.series).Nodup := by
  have hcache : ((cacheMetrics cacheStatus).map Sample.series).Nodup :=
    (series_cacheMetrics cacheStatus).nodup (by decide +kernel)
  have hcount : ((metric "ormp_indexer_checkpoint_rows" [] checkpoints.length).map
      Sample.series).Nodup := List.nodup_singleton _
  have hrows : ((runtime.runtimeRows.flatMap rowMetrics).map Sample.series).Nodup :=
    nodup_series_flatMap (fun row => runtimeLabels row.chainId row.dataset) (·.take 2)
      (fun row _ => take_labels_rowMetrics) h.rows fun row hrow => nodup_rowMetrics (h.reasons row hrow)
  rw [pageMetrics_eq]
  -- every piece has metrics of its own
  have names₂ := names_append (name_cacheMetrics cacheStatus) (name_checkpoints checkpoints)
  have names₃ := names_append names₂ (name_checkpointRows checkpoints)
  have names₄ := names_append names₃ (name_presence checkpoints runtime)
  have names₅ := names_append names₄ (name_runtimeRows runtime)
  have nodup₂ := nodup_series_append hcache (nodup_checkpoints h) (name_cacheMetrics cacheStatus)
    (name_checkpoints checkpoints) (by decide +kernel)
  have nodup₃ := nodup_series_append nodup₂ hcount names₂ (name_checkpointRows checkpoints)
    (by decide +kernel)
  have nodup₄ := nodup_series_append nodup₃ (nodup_scopes h) names₃
    (name_presence checkpoints runtime) (by decide +kernel)
  have nodup₅ := nodup_series_append nodup₄ hrows names₄ (name_runtimeRows runtime)
    (by decide +kernel)
  exact nodup_series_append nodup₅ (nodup_tables rowCounts) names₅ (name_tables rowCounts)
    (by decide +kernel)

/-! ### Where a metric is -/

/-- Nor is one of the running process. -/
theorem valueOf_page_runtimeRows {name : String} (h : name ∈ rowNames)
    (labels : List (String × String)) :
    valueOf (pageMetrics checkpoints rowCounts runtime cacheStatus) name labels =
      valueOf (runtime.runtimeRows.flatMap rowMetrics) name labels := by
  have hother : ∀ name ∈ rowNames,
      (name ∉ cacheHeaders.map fun m => m.1) ∧ (name ∉ checkpointHeaders.map fun m => m.1) ∧
        name ∉ ["ormp_indexer_checkpoint_rows"] ∧ (name ∉ scopeHeaders.map fun m => m.1) ∧
        name ∉ ["ormp_indexer_legacy_table_rows"] := by decide +kernel
  obtain ⟨hcache, hcheckpoints, hcount, hscopes, htables⟩ := hother name h
  rw [pageMetrics_eq, valueOf_append_left (name_tables _) htables, List.append_assoc, List.append_assoc,
    List.append_assoc, valueOf_append_right (name_cacheMetrics _) hcache,
    valueOf_append_right (name_checkpoints _) hcheckpoints,
    valueOf_append_right (name_checkpointRows _) hcount, valueOf_append_right (name_presence _ _) hscopes]

end

end OrmpIndexer.Ops
