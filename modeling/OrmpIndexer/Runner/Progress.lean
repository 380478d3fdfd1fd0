/-
# OrmpIndexer.Runner.Progress — where an answer can move the checkpoint

A log answer comes with two ends of a served window and a reason, each optional and unchecked. The
runner compares the start with the request and cuts the end off at the request, but it never compares
the two with each other: a window that ends before it starts is committed, and the checkpoint goes back
(`BackwardWindow`). That is the only way out of the planned range.
-/
import OrmpIndexer.Runner.Passes

namespace OrmpIndexer

open Foundation Foundation.Task

namespace Runner

variable {Env : Type}

/-- The answer starts where it was asked to, ends at least two blocks earlier, and its logs decode. -/
def BackwardWindow (decoder : EventDecoder) (fromBlock : Nat) (result : DatalensLogQueryResult) :
    Prop :=
  result.servedStart = some fromBlock ∧
    (∃ servedEnd, result.servedEnd = some servedEnd ∧ servedEnd + 1 < fromBlock) ∧
    ∃ events, decodeAll decoder result.logs = .ok events

/-- The log query is answered by `answer`; everything else may be answered in any way. -/
def AnswersLogs (answer : DatalensLogQueryResult) : Answers Env
  | _, .queryLogs _, result => result = answer
  | _, _, _ => True

/-- However the other calls are answered, processing the range from `w` on ends with an error and the
checkpoint unchanged, or with a checkpoint between the first block and the end of the range. -/
def StaysInRange (ix : Indexer) (chain : ChainConfig) (dataset : String) (range : BlockRange)
    (result : DatalensLogQueryResult) (w : World Env) : Prop :=
  ∀ r w', Reaches (Serves ix (AnswersLogs result)) (w, processRange chain dataset range)
      (w', .done r) →
    match r with
    | .error _ => nextBlock chain dataset w'.db = nextBlock chain dataset w.db
    | .ok _ => range.fromBlock ≤ nextBlock chain dataset w'.db ∧
        nextBlock chain dataset w'.db ≤ range.toBlock + 1

section

variable {ix : Indexer} {chain : ChainConfig} {dataset : String} {range : BlockRange}
variable {result : DatalensLogQueryResult} {w : World Env}

theorem staysInRange_of_not_backward (hrange : range.fromBlock ≤ range.toBlock)
    (hnext : nextBlock chain dataset w.db = range.fromBlock)
    (h : ¬BackwardWindow ix.decoder range.fromBlock result) :
    StaysInRange ix chain dataset range result w := by
  have wp : Wp (Serves ix (AnswersLogs result)) (fun _ _ => True)
      (fun _ w' => range.fromBlock ≤ nextBlock chain dataset w'.db ∧
        nextBlock chain dataset w'.db ≤ range.toBlock + 1)
      (fun _ w' => nextBlock chain dataset w'.db = nextBlock chain dataset w.db)
      (processRange chain dataset range) w := by
    refine wp_processRange (fun _ _ _ _ => trivial) (fun e w' hw => by rw [hw.db])
      (fun report w' _ _ hw => ?_) (fun answer servedEnd events anchors w' commits => ?_)
    · rw [hw.db, hnext]
      omega
    · obtain rfl : answer = result := commits.answer
      -- the window starts where it was asked to, so only its end can be wrong
      have forward : ¬servedEnd + 1 < range.fromBlock := fun hlt =>
        h ⟨commits.starts, ⟨servedEnd, commits.ends, hlt⟩, events, commits.decoded⟩
      refine ⟨trivial, fun report written _ _ _ => ?_⟩
      change _ ≤ nextBlock chain dataset (ix.postgres.writeEventsAndAdvanceCheckpoint _ _ _ _ _ _) ∧
        nextBlock chain dataset (ix.postgres.writeEventsAndAdvanceCheckpoint _ _ _ _ _ _) ≤ _
      rw [nextBlock_commit]
      omega
  intro r w' hr
  have hdone := wp.reaches hr
  cases r <;> exact hdone

/-! ### The failing answer, executed -/

/-- A reader that gives this log answer and a finalized head. -/
def givesLogs (result : DatalensLogQueryResult) : World Env → (op : Op) → Except Error (Reply op)
  | _, .queryLogs _ => .ok result
  | _, .finalizedHead _ => .ok 0
  | _, _ => .error ["no answer"]

theorem answersLogs_givesLogs (ix : Indexer) (result : DatalensLogQueryResult) (w : World Env)
    (op : Op) (a : Reply op)
    (h : reply ix (givesLogs result) w op = .ok a) : AnswersLogs result w op a := by
  cases op with
  | queryLogs query => exact (Except.ok.inj h).symm
  | _ => trivial

/-- A range that ends before it starts has anchors in every mode: those of its logs, or none. -/
theorem eval_blockAnchorsForRange (ix : Indexer) (chain : ChainConfig) (dataset : String)
    (logs : List DatalensLog) (result : DatalensLogQueryResult) (w : World Env) {range : BlockRange}
    (hrange : range.toBlock < range.fromBlock) : ∃ anchors w',
      (blockAnchorsForRange chain dataset range logs).eval (simulate ix (givesLogs result)) w =
        (.ok (some anchors), w') := by
  unfold blockAnchorsForRange
  cases hmode : chain.finalityMode.usesReorgProtection with
  | false => exact ⟨_, w, rfl⟩
  | true =>
      refine ⟨[], w.record ix.postgres (.finalizedHead chain.chainId) (.ok 0), ?_⟩
      have head : (finalizedHead chain.chainId).eval (simulate ix (givesLogs result)) w =
          (.ok 0, w.record ix.postgres (.finalizedHead chain.chainId) (.ok 0)) :=
        eval_call (.finalizedHead chain.chainId) rfl
      rw [if_neg (by simp), eval_bind_of_ok head]
      dsimp only
      rw [if_pos (by omega)]
      rfl

theorem not_staysInRange_of_backward (hrange : range.fromBlock ≤ range.toBlock)
    (hmax : range.toBlock ≤ u64Max) (h : BackwardWindow ix.decoder range.fromBlock result) :
    ¬StaysInRange ix chain dataset range result w := by
  obtain ⟨hstart, ⟨servedEnd, hend, hlt⟩, events, hdecoded⟩ := h
  obtain ⟨w₁, hdecode⟩ := eval_decodeLogs (givesLogs result)
    (w.record ix.postgres (.queryLogs (logQuery chain range)) (.ok result)) hdecoded
  have ends : (servedTo range servedEnd).toBlock < (servedTo range servedEnd).fromBlock := by
    show min servedEnd range.toBlock < range.fromBlock
    omega
  obtain ⟨anchors, w₂, hanchors⟩ :=
    eval_blockAnchorsForRange ix chain dataset result.logs result w₁ ends
  have hlogs : reply ix (givesLogs result) w (.queryLogs (logQuery chain range)) = .ok result := rfl
  obtain ⟨report, hrun, _⟩ := eval_processRange hlogs hstart hend hdecode (by omega) hanchors
  intro hstays
  -- that run is one of those `StaysInRange` is about
  have hreach := reaches_eval (serves_simulate (answersLogs_givesLogs ix result))
    (processRange chain dataset range) w
  rw [hrun] at hreach
  have hlow : range.fromBlock ≤ nextBlock chain dataset
      (ix.postgres.writeEventsAndAdvanceCheckpoint w₂.db events anchors chain.chainId dataset
        (min servedEnd range.toBlock + 1)) := (hstays _ _ hreach).1
  rw [nextBlock_commit] at hlow
  omega

/-! ## Over a run -/

/-- No log answer has a backward window. -/
def ForwardWindows (decoder : EventDecoder) : Answers Env
  | _, .queryLogs query, result => ¬BackwardWindow decoder query.fromBlock result
  | _, _, _ => True

/-- The call is a rollback, or it does not lower the checkpoint. -/
def NeverLowers (ix : Indexer) (chain : ChainConfig) (dataset : String) (w : World Env) (op : Op) :
    Prop :=
  (∀ rollbackBlock, op ≠ .rollbackLegacyFrom chain.chainId dataset rollbackBlock) →
    nextBlock chain dataset w.db ≤ nextBlock chain dataset (effect ix.postgres w.db op)

theorem keeps_neverLowers {config : RuntimeConfig} :
    @Keeps Env ix (ForwardWindows ix.decoder) config chain dataset
      (NeverLowers ix chain dataset) (fun _ => True) where
  call _ hop _ := by rw [effect_of_isRead hop]
  quiet _ _ := trivial
  insert {w} _ := ⟨fun _ => Nat.le_of_eq nextBlock_insert.symm, trivial⟩
  rollback _ _ _ := ⟨fun h => absurd rfl (h _), fun _ => trivial⟩
  commit {range w result servedEnd events anchors w'} _ turn commits := by
    obtain ⟨_, _, _, _, planned⟩ := turn
    refine ⟨fun _ => ?_, fun _ => trivial⟩
    have forward : ¬servedEnd + 1 < range.fromBlock := fun hlt =>
      commits.answer ⟨commits.starts, ⟨servedEnd, commits.ends, hlt⟩, events, commits.decoded⟩
    have hnext : nextBlock chain dataset w'.db = range.fromBlock := by
      rw [commits.quiet.db, planned.start]
    have := planned.nonempty
    show _ ≤ nextBlock chain dataset
      (ix.postgres.writeEventsAndAdvanceCheckpoint _ _ _ _ _ (min servedEnd range.toBlock + 1))
    rw [nextBlock_commit, hnext]
    omega

end

/-- **Where the checkpoint can go.** Processing a planned range ends with an error and the checkpoint
unchanged, or with a checkpoint between `from_block` and `to_block + 1`, exactly if the log answer is no
backward window. In a run without backward windows no call but a rollback lowers the checkpoint. -/
theorem checkpoint_stays_in_range (ix : Indexer) (chain : ChainConfig) {dataset : String}
    (hd : chainDataset chain.chainId = .ok dataset) :
    (∀ (range : BlockRange) (result : DatalensLogQueryResult) (w : World Env),
      range.fromBlock ≤ range.toBlock → range.toBlock ≤ u64Max →
      nextBlock chain dataset w.db = range.fromBlock →
      (StaysInRange ix chain dataset range result w ↔
        ¬BackwardWindow ix.decoder range.fromBlock result)) ∧
    ∀ (config : RuntimeConfig) (w : World Env) (op : Op)
      (next : Except Error (Reply op) → Async ChainRunReport),
      Reachable (Serves ix (ForwardWindows ix.decoder)) (fun _ => True) (fun w w' => w' = w)
        (runChainOnce config chain) w (.call op next) →
      (∀ rollbackBlock, op ≠ .rollbackLegacyFrom chain.chainId dataset rollbackBlock) →
      ∀ r w', Serves ix (ForwardWindows ix.decoder) w op r w' →
        nextBlock chain dataset w.db ≤ nextBlock chain dataset w'.db := by
  refine ⟨fun range result w hrange hmax hnext => ⟨fun hstays hback => ?_, fun h => ?_⟩,
    fun config w op next hr hop r w' hw => ?_⟩
  · exact not_staysInRange_of_backward hrange hmax hback hstays
  · exact staysInRange_of_not_backward hrange hnext h
  · have call := (keeps_neverLowers.reachable hd (fun _ _ _ => trivial) (fun _ _ => trivial)
      (fun _ _ _ _ => trivial) hr).2.1
    rw [hw.2]
    cases r with
    | ok a => exact call hop
    | error e => exact Nat.le_refl _

/-- An answer without logs. -/
def served (start stop : Nat) : DatalensLogQueryResult where
  logs := []
  servedStart := some start
  servedEnd := some stop
  incompleteReason := none

/-- The checkpoint is at block 100. -/
def atHundred : World Unit where
  db := Postgres.insertCheckpoint .empty 46 EVM_LOGS_DATASET 100
  past := []
  env := ()

/-- The range from 100 to 109 is asked for, and the window is said to be from 100 to 5: the checkpoint
goes back to block 6. -/
theorem backward_window_lowers_checkpoint :
    nextBlock (darwinia 100 10 .finalized) EVM_LOGS_DATASET atHundred.db = 100 ∧
      ∃ report w', Reaches (Serves hashIndexer (AnswersLogs (served 100 5)))
        (atHundred, processRange (darwinia 100 10 .finalized) EVM_LOGS_DATASET ⟨100, 109⟩)
        (w', .done (.ok report)) ∧ nextBlock (darwinia 100 10 .finalized) EVM_LOGS_DATASET w'.db = 6 := by
  refine ⟨by decide +kernel, _, _, reaches_eval
    (serves_simulate (answersLogs_givesLogs hashIndexer (served 100 5))) _ _, ?_⟩
  decide +kernel

/-- One window that ends before it starts, and one that does not. -/
theorem checkpoint_stays_in_range_atHundred :
    ¬StaysInRange hashIndexer (darwinia 100 10 .latest) EVM_LOGS_DATASET ⟨100, 109⟩ (served 100 5)
        atHundred ∧
      StaysInRange hashIndexer (darwinia 100 10 .latest) EVM_LOGS_DATASET ⟨100, 109⟩ (served 100 104)
        atHundred := by
  have next : nextBlock (darwinia 100 10 .latest) EVM_LOGS_DATASET atHundred.db = 100 := by decide +kernel
  obtain ⟨perRange, _⟩ :=
    @checkpoint_stays_in_range Unit hashIndexer (darwinia 100 10 .latest) EVM_LOGS_DATASET rfl
  constructor
  · intro h
    exact (perRange ⟨100, 109⟩ _ _ (by decide) (by decide) next).mp h
      ⟨rfl, ⟨5, rfl, by decide⟩, [], rfl⟩
  · refine (perRange ⟨100, 109⟩ _ _ (by decide) (by decide) next).mpr ?_
    rintro ⟨_, ⟨servedEnd, hend, hlt⟩, _⟩
    cases hend
    exact absurd hlt (by decide)

end Runner

end OrmpIndexer
