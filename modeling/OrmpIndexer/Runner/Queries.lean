/-
# OrmpIndexer.Runner.Queries — how many log queries a pass makes

What a server answers decides how a range ends: nothing served, a part of it, a window with other ends, no
headers for its anchors. All these end the loop, except one: a range that was committed up to the end it was
asked for. So the ranges of a pass follow each other without a gap, and a pass asks for as many of them as
there are batches between the checkpoint and the target, at most (`pass_ends`).

A pass is started with an empty history here, so that the history is what the pass did.
-/
import OrmpIndexer.Runner.Forks
import OrmpIndexer.Runner.Loop

namespace OrmpIndexer

open Foundation Foundation.Task

namespace Runner

variable {Env : Type}

/-! ## What a pass did -/

/-- The log queries made, the OLDEST FIRST. -/
def logQueries : List Call → List DatalensLogQuery
  | [] => []
  | ⟨.queryLogs query, _⟩ :: past => logQueries past ++ [query]
  | _ :: past => logQueries past

/-- The checkpoint after the reorg check: the block rolled back to, or the one that was read. -/
def firstCheckpoint : List Call → Option Nat
  | [] => none
  | ⟨.rollbackLegacyFrom _ _ rollbackBlock, .ok _⟩ :: _ => some rollbackBlock
  | ⟨.selectCheckpoint _ _, .ok nextBlock⟩ :: _ => some nextBlock
  | _ :: past => firstCheckpoint past

/-- The head the pass was told. -/
def headTold : List Call → Option Nat
  | [] => none
  | ⟨.latestBlock _ _, .ok latestBlock⟩ :: _ => some latestBlock
  | _ :: past => headTold past

/-- No more log queries than there are batches from the first checkpoint to the target. -/
def WithinBatches (config : RuntimeConfig) (chain : ChainConfig) (past : List Call) : Prop :=
  logQueries past ≠ [] → ∃ first latestBlock, firstCheckpoint past = some first ∧
    headTold past = some latestBlock ∧
    (logQueries past).length ≤
      (latestBlock - config.datalens.headBufferBlocks + 1 - first) ⌈/⌉ chain.batchSize

/-- The last call committed the chain up to this block. -/
def JustCommitted (chain : ChainConfig) (dataset : String) (toBlock : Nat) (past : List Call) :
    Prop :=
  ∃ events anchors written earlier, past =
    ⟨.writeEventsAndAdvanceCheckpoint events anchors chain.chainId dataset (toBlock + 1),
      .ok written⟩ :: earlier

/-- A log query is made if it is the first one, or the range of the one before was committed up to the end
it was asked for. -/
def AskedInTurn (chain : ChainConfig) (dataset : String) (w : World Env) (op : Op) : Prop :=
  ∀ query, op = .queryLogs query → ∀ previous, lastLogQuery w.past = some previous →
    JustCommitted chain dataset previous.toBlock w.past

/-- The call is no log query. -/
def NoLogQuery (op : Op) : Prop := ∀ query, op ≠ .queryLogs query

theorem lastLogQuery_eq (past : List Call) : lastLogQuery past = (logQueries past).getLast? := by
  induction past with
  | nil => rfl
  | cons call past ih =>
      obtain ⟨op, r⟩ := call
      cases op with
      | queryLogs query => exact (List.getLast?_concat).symm
      | _ => exact ih

theorem logQueries_cons {op : Op} (h : NoLogQuery op) (r : Except Error (Reply op))
    (past : List Call) : logQueries (⟨op, r⟩ :: past) = logQueries past := by
  cases op with
  | queryLogs query => exact absurd rfl (h query)
  | _ => rfl

section

variable {ix : Indexer} {allowed : Answers Env} {config : RuntimeConfig} {chain : ChainConfig}
variable {dataset : String} {α : Type} {w : World Env}

theorem askedInTurn_of_noLogQuery {op : Op} (h : NoLogQuery op) :
    AskedInTurn chain dataset w op :=
  fun query hop => absurd hop (h query)

theorem withinBatches_of_eq_nil {past : List Call} (h : logQueries past = []) :
    WithinBatches config chain past :=
  fun hne => absurd h hne

/-! ## Up to the head -/

/-- As long as a pass makes no log queries, there are none. -/
theorem wp_unasked {t : Async α} (ht : Calls NoLogQuery t) (h : logQueries w.past = []) :
    Wp (Serves ix allowed) (fun w op => logQueries w.past = [] ∧ NoLogQuery op)
      (fun _ w => logQueries w.past = []) (fun _ w => logQueries w.past = []) t w := by
  refine ht.wp (A := fun w : World Env => logQueries w.past = []) (fun w op hop hw => ?_)
    (fun _ _ hw => hw) (fun _ _ hw => hw) h
  refine ⟨⟨hw, hop⟩, fun r w' hserves => ?_⟩
  obtain ⟨_, rfl⟩ := hserves
  exact (logQueries_cons hop r w.past).trans hw

theorem wp_firstCheckpoint_readOrCreate :
    Wp (Serves ix allowed) (fun _ _ => True)
      (fun checkpoint w => firstCheckpoint w.past = some checkpoint.nextBlock) (fun _ _ => True)
      (readOrCreate chain.chainId dataset chain.startBlock) w := by
  refine wp_readOrCreate trivial (fun _ _ _ => trivial) trivial (fun _ _ _ => trivial)
    fun nextBlock w' _ _ hpast => ?_
  rw [hpast]
  rfl

theorem wp_firstCheckpoint_check {next : Nat} (h : firstCheckpoint w.past = some next) :
    Wp (Serves ix allowed) (fun _ _ => True)
      (fun rollback w => firstCheckpoint w.past = some (rollback.getD next)) (fun _ _ => True)
      (rollbackReorgedAnchors config chain dataset next) w := by
  refine wp_rollbackReorgedAnchors (fun _ _ _ _ => trivial) (fun _ _ _ => trivial) (fun _ => h)
    (fun finalized _ _ => h) fun finalized window anchors blocks w' answered => ?_
  obtain ⟨_, rfl, _, rfl⟩ := answered.answer
  exact ⟨fun _ => h, fun _ => ⟨fun _ => h, fun rollbackBlock _ => ⟨trivial, fun _ => rfl⟩⟩⟩

/-- The reorg check leaves the checkpoint the loop begins with. -/
theorem wp_checkedCheckpoint {checkpoint : Checkpoint}
    (hfirst : firstCheckpoint w.past = some checkpoint.nextBlock) (h : logQueries w.past = []) :
    Wp (Serves ix allowed) (fun w op => logQueries w.past = [] ∧ NoLogQuery op)
      (fun checkpoint w => firstCheckpoint w.past = some checkpoint.nextBlock ∧
        logQueries w.past = []) (fun _ w => logQueries w.past = [])
      (checkedCheckpoint config chain dataset checkpoint) w := by
  unfold checkedCheckpoint
  split
  · have hcalls : Calls NoLogQuery
        (rollbackReorgedAnchors config chain dataset checkpoint.nextBlock) :=
      calls_rollbackReorgedAnchors (fun _ => nofun) (fun _ _ _ => nofun) (fun _ _ => nofun)
        fun _ _ => nofun
    rw [wp_bind]
    refine ((wp_unasked hcalls h).and (wp_firstCheckpoint_check hfirst)).mono
      (fun _ _ hcall => hcall.1) (fun rollback w' hw' => ?_) (fun _ _ herror => herror.1)
    cases rollback <;> exact ⟨hw'.2, hw'.1⟩
  · exact ⟨hfirst, h⟩

/-! ## The loop -/

/-- `w'` is `w` after the log query of a range and calls of other kinds. -/
structure Asked (chain : ChainConfig) (range : BlockRange) (w w' : World Env) : Prop where
  first : firstCheckpoint w'.past = firstCheckpoint w.past
  head : headTold w'.past = headTold w.past
  queries : logQueries w'.past = logQueries w.past ++ [logQuery chain range]

/-- The calls a range makes after its log query. -/
def AfterQuery : Op → Prop
  | .decode _ | .finalizedHead _ | .queryBlocks _ | .writeEventsAndAdvanceCheckpoint .. => True
  | _ => False

theorem noLogQuery_of_afterQuery {op : Op} (h : AfterQuery op) : NoLogQuery op := by
  rintro query rfl
  exact h

theorem Asked.record {range : BlockRange} {w' : World Env} (h : Asked chain range w w') {op : Op}
    (hop : AfterQuery op) (r : Except Error (Reply op)) :
    Asked chain range w (w'.record ix.postgres op r) := by
  have hsame : firstCheckpoint (⟨op, r⟩ :: w'.past) = firstCheckpoint w'.past ∧
      headTold (⟨op, r⟩ :: w'.past) = headTold w'.past := by
    cases op <;> first | exact ⟨rfl, rfl⟩ | exact hop.elim
  exact {
    first := hsame.1.trans h.first
    head := hsame.2.trans h.head
    queries := (logQueries_cons (noLogQuery_of_afterQuery hop) r w'.past).trans h.queries }

/-- A range makes one log query, and it is its first call. -/
theorem wp_asked {range : BlockRange} :
    Wp (Serves ix allowed)
      (fun w' op => (w' = w ∧ op = .queryLogs (logQuery chain range)) ∨
        (Asked chain range w w' ∧ NoLogQuery op))
      (fun _ w' => Asked chain range w w') (fun _ w' => Asked chain range w w')
      (processRange chain dataset range) w := by
  have asked : ∀ r, Asked chain range w
      (w.record ix.postgres (.queryLogs (logQuery chain range)) r) := fun _ => ⟨rfl, rfl, rfl⟩
  rw [processRange, wp_bind, queryRangeOnce, wp_withContext]
  refine (wp_call (.queryLogs (logQuery chain range))).mpr
    ⟨.inl ⟨rfl, rfl⟩, fun result _ _ => ?_, fun e => asked _⟩
  refine Calls.wp (P := AfterQuery) (A := Asked chain range w)
    (calls_processSuccessfulRange (fun _ => trivial) trivial (fun _ => trivial)
      fun _ _ _ _ => trivial)
    (fun w' op hop hw' => ⟨.inr ⟨hw', noLogQuery_of_afterQuery hop⟩, fun r w'' hserves => ?_⟩)
    (fun _ _ hw' => hw') (fun _ _ hw' => hw') (asked _)
  obtain ⟨_, rfl⟩ := hserves
  exact hw'.record hop r

/-- After a range that does not end the loop, its last block was committed right before. -/
theorem wp_justCommitted {range : BlockRange} :
    Wp (Serves ix allowed) (fun _ _ => True)
      (fun report w' => report.stopPoll = false → report.nextBlock = range.toBlock + 1 ∧
        JustCommitted chain dataset range.toBlock w'.past) (fun _ _ => True)
      (processRange chain dataset range) w := by
  refine wp_processRange (fun _ _ _ _ => trivial) (fun _ _ _ => trivial)
    (fun report w' _ hstop _ hgoes => ?_) fun result servedEnd events anchors w' commits => ?_
  · rw [hstop] at hgoes
    cases hgoes
  · refine ⟨trivial, fun report written hnext hwhole _ hgoes => ?_⟩
    have hend := hwhole hgoes
    rw [hend] at hnext
    refine ⟨hnext, events, anchors, written, w'.past, ?_⟩
    show (⟨.writeEventsAndAdvanceCheckpoint events anchors chain.chainId dataset
      (min servedEnd range.toBlock + 1), .ok written⟩ : Call) :: w'.past = _
    rw [hend]

/-- The loop, begun at `first` and told of `latestBlock`, in front of a range or at its end. -/
structure InTurn (config : RuntimeConfig) (chain : ChainConfig) (dataset : String)
    (first latestBlock next : Nat) (stop : Bool) (w : World Env) : Prop where
  first_eq : firstCheckpoint w.past = some first
  head_eq : headTold w.past = some latestBlock
  within : (logQueries w.past).length ≤
    (latestBlock - config.datalens.headBufferBlocks + 1 - first) ⌈/⌉ chain.batchSize
  -- the loop goes on: the ranges so far were whole batches, or the target is reached
  next_eq : stop = false → next = min (first + chain.batchSize * (logQueries w.past).length)
    (latestBlock - config.datalens.headBufferBlocks + 1)
  committed : stop = false → ∀ previous, lastLogQuery w.past = some previous →
    JustCommitted chain dataset previous.toBlock w.past

variable {first latestBlock : Nat}

theorem InTurn.withinBatches {next : Nat} {stop : Bool}
    (h : InTurn config chain dataset first latestBlock next stop w) :
    WithinBatches config chain w.past :=
  fun _ => ⟨first, latestBlock, h.first_eq, h.head_eq, h.within⟩

theorem InTurn.asked_within (hbatch : 0 < chain.batchSize) {next : Nat} {range : BlockRange}
    (h : InTurn config chain dataset first latestBlock next false w)
    (hle : next ≤ latestBlock - config.datalens.headBufferBlocks) {w' : World Env}
    (asked : Asked chain range w w') : (logQueries w'.past).length ≤
      (latestBlock - config.datalens.headBufferBlocks + 1 - first) ⌈/⌉ chain.batchSize := by
  have hnext := h.next_eq rfl
  rw [asked.queries, List.length_append, List.length_singleton, Nat.add_one_le_iff, ← Nat.not_le,
    ceilDiv_le_iff_le_mul hbatch]
  -- the blocks before `next` are the batches asked for, and `next` itself is not past the target
  omega

/-- One range keeps the account. -/
theorem InTurn.step (hbatch : 0 < chain.batchSize) {next : Nat} {range : BlockRange}
    (h : InTurn config chain dataset first latestBlock next false w)
    (hle : next ≤ latestBlock - config.datalens.headBufferBlocks)
    (plan : Planned chain (latestBlock - config.datalens.headBufferBlocks) next range)
    {w' : World Env} (asked : Asked chain range w w') {report : ProcessedRangeReport}
    (hreport : report.stopPoll = false → report.nextBlock = range.toBlock + 1 ∧
      JustCommitted chain dataset range.toBlock w'.past) :
    InTurn config chain dataset first latestBlock report.nextBlock report.stopPoll w' where
  first_eq := asked.first.trans h.first_eq
  head_eq := asked.head.trans h.head_eq
  within := h.asked_within hbatch hle asked
  next_eq hgoes := by
    have hnext := h.next_eq rfl
    have hend := (hreport hgoes).1
    have hstop := plan.stop
    rw [asked.queries, List.length_append, List.length_singleton, Nat.mul_add_one]
    omega
  committed hgoes previous hprevious := by
    rw [lastLogQuery_eq, asked.queries, List.getLast?_concat] at hprevious
    obtain rfl := Option.some.inj hprevious
    exact (hreport hgoes).2

theorem wp_processRange_inTurn (hbatch : 0 < chain.batchSize) {next : Nat} {range : BlockRange}
    (h : InTurn config chain dataset first latestBlock next false w)
    (hle : next ≤ latestBlock - config.datalens.headBufferBlocks)
    (plan : Planned chain (latestBlock - config.datalens.headBufferBlocks) next range) :
    Wp (Serves ix allowed)
      (fun w op => WithinBatches config chain w.past ∧ AskedInTurn chain dataset w op)
      (fun report => InTurn config chain dataset first latestBlock report.nextBlock report.stopPoll)
      (fun _ w => WithinBatches config chain w.past) (processRange chain dataset range) w := by
  have within : ∀ {w'}, Asked chain range w w' → WithinBatches config chain w'.past :=
    fun asked _ => ⟨first, latestBlock, asked.first.trans h.first_eq, asked.head.trans h.head_eq,
      h.asked_within hbatch hle asked⟩
  refine (wp_asked.and wp_justCommitted).mono (fun w' op hcall => ?_) (fun report w' hend => ?_)
    (fun _ w' hend => within hend.1)
  · rcases hcall.1 with ⟨rfl, rfl⟩ | ⟨asked, hop⟩
    · exact ⟨h.withinBatches, fun _ _ => h.committed rfl⟩
    · exact ⟨within asked, askedInTurn_of_noLogQuery hop⟩
  · exact h.step hbatch hle plan hend.1 hend.2

/-- The pass from the reorg check on. -/
theorem wp_runToHead_inTurn (hbatch : 0 < chain.batchSize) {checkpoint : Checkpoint}
    (hfirst : firstCheckpoint w.past = some checkpoint.nextBlock) (h : logQueries w.past = []) :
    Wp (Serves ix allowed)
      (fun w op => WithinBatches config chain w.past ∧ AskedInTurn chain dataset w op)
      (fun _ w => WithinBatches config chain w.past) (fun _ w => WithinBatches config chain w.past)
      (runToHead config chain dataset checkpoint) w := by
  have hhead : NoLogQuery (headOp chain) := fun _ => nofun
  have hnone : ∀ r, logQueries (w.record ix.postgres (headOp chain) r).past = [] :=
    fun r => (logQueries_cons hhead r w.past).trans h
  rw [runToHead, wp_bind, wp_withContext]
  refine (wp_call (headOp chain)).mpr ⟨⟨withinBatches_of_eq_nil h, askedInTurn_of_noLogQuery hhead⟩,
    fun latestBlock _ _ => ?_, fun e => withinBatches_of_eq_nil (hnone _)⟩
  dsimp only
  split
  · exact withinBatches_of_eq_nil (hnone _)
  rename_i hle
  have hle := Nat.not_lt.mp hle
  rw [wp_bind]
  refine wp_runRanges_polling (InTurn config chain dataset checkpoint.nextBlock latestBlock)
    (fun next range w' hL hnext plan => wp_processRange_inTurn hbatch hL hnext plan)
    (fun _ _ _ hL => hL.withinBatches) (fun _ _ _ _ hL => hL.withinBatches) _ ?_
  have hqueries := hnone (.ok latestBlock)
  exact {
    first_eq := hfirst
    head_eq := rfl
    within := by
      rw [hqueries]
      exact Nat.zero_le _
    next_eq := fun _ => by
      rw [hqueries, List.length_nil, Nat.mul_zero, Nat.add_zero]
      exact (Nat.min_eq_left (Nat.le_succ_of_le hle)).symm
    committed := fun _ previous hprevious => by
      rw [lastLogQuery_eq, hqueries] at hprevious
      cases hprevious }

theorem wp_runChainOnce_inTurn (config : RuntimeConfig) (hbatch : 0 < chain.batchSize)
    {w : World Env} (h : w.past = []) :
    Wp (Serves ix allowed)
      (fun w op => WithinBatches config chain w.past ∧ AskedInTurn chain EVM_LOGS_DATASET w op)
      (fun _ w => WithinBatches config chain w.past) (fun _ w => WithinBatches config chain w.past)
      (runChainOnce config chain) w := by
  have hnone : logQueries w.past = [] := by rw [h]; rfl
  have weaken : ∀ {w : World Env} {op : Op}, logQueries w.past = [] ∧ NoLogQuery op →
      WithinBatches config chain w.past ∧ AskedInTurn chain EVM_LOGS_DATASET w op :=
    fun hcall => ⟨withinBatches_of_eq_nil hcall.1, askedInTurn_of_noLogQuery hcall.2⟩
  rw [runChainOnce, wp_bind, wp_ofExcept]
  refine ⟨fun dataset hd => ?_, fun _ _ => withinBatches_of_eq_nil hnone⟩
  obtain rfl := chainDataset_eq_ok hd
  have hcalls : Calls NoLogQuery
      (readOrCreate chain.chainId EVM_LOGS_DATASET chain.startBlock) :=
    calls_bind (calls_await (by rintro _ ⟨⟩)) fun _ => calls_bind (calls_await (by rintro _ ⟨⟩))
      fun _ => trivial
  rw [wp_bind, wp_withContext]
  refine ((wp_unasked hcalls hnone).and wp_firstCheckpoint_readOrCreate).mono
    (fun _ _ hcall => weaken hcall.1) (fun checkpoint w' hread => ?_)
    (fun _ _ herror => withinBatches_of_eq_nil herror.1)
  rw [wp_bind]
  refine (wp_checkedCheckpoint hread.2 hread.1).mono (fun _ _ hcall => weaken hcall)
    (fun checkpoint w' hchecked => ?_) (fun _ _ herror => withinBatches_of_eq_nil herror)
  exact wp_runToHead_inTurn hbatch hchecked.1 hchecked.2

end

/-- **A pass always ends.** Whatever is stored and whatever is answered: the loop takes as many turns as
there are batches from the checkpoint to the target, at most, so more fuel changes nothing; a pass makes at
most that many log queries; and it makes a further one only when the range of the one before was committed,
up to the end it was asked for, right before. -/
theorem pass_ends (ix : Indexer) (config : RuntimeConfig) {chain : ChainConfig}
    (hbatch : 0 < chain.batchSize) :
    (∀ (dataset : String) (targetBlock fuel : Nat) (checkpoint : Checkpoint)
      (report : ChainRunReport),
      (targetBlock + 1 - checkpoint.nextBlock) ⌈/⌉ chain.batchSize ≤ fuel →
      runRanges chain dataset targetBlock fuel checkpoint report false =
        runRanges chain dataset targetBlock (targetBlock + 1 - checkpoint.nextBlock) checkpoint
          report false) ∧
    ∀ (db : Database) (env : Env) (w : World Env) (t : Async ChainRunReport),
      Reaches (Serves ix AnyAnswer) (⟨db, [], env⟩, runChainOnce config chain) (w, t) →
      WithinBatches config chain w.past ∧
      ∀ query next, t = .call (.queryLogs query) next →
        ∀ previous, lastLogQuery w.past = some previous →
          JustCommitted chain EVM_LOGS_DATASET previous.toBlock w.past := by
  refine ⟨fun dataset targetBlock fuel checkpoint report hfuel => ?_, fun db env w t hr => ?_⟩
  · have hblocks : (targetBlock + 1 - checkpoint.nextBlock) ⌈/⌉ chain.batchSize ≤
        targetBlock + 1 - checkpoint.nextBlock := by
      rw [ceilDiv_le_iff_le_mul hbatch]
      exact Nat.le_mul_of_pos_left _ hbatch
    exact runRanges_congr_fuel (turnsLeft_batches hbatch) report false hfuel hblocks
  · have start : (⟨db, [], env⟩ : World Env).past = [] := rfl
    have pass : Wp (Serves ix AnyAnswer) _ _ _ t w :=
      (wp_runChainOnce_inTurn config hbatch start).reaches hr
    refine ⟨pass.holds (fun _ _ hcall => hcall.1) (fun _ _ hdone => hdone) (fun _ _ herror => herror),
      fun query next hcall previous hprevious => ?_⟩
    subst hcall
    exact pass.1.2 query rfl previous hprevious

/-- A reader that is at this head and serves every log query in full, without logs. -/
def servesUpTo (head : Nat) : World Unit → (op : Op) → Except Error (Reply op)
  | _, .latestBlock .. => .ok head
  | _, .queryLogs query => .ok ⟨[], some query.fromBlock, some query.toBlock, none⟩
  | _, _ => .error ["no answer"]

theorem serves_servesUpTo (head : Nat) (w : World Unit) (op : Op) :
    Serves hashIndexer AnyAnswer w op (simulate hashIndexer (servesUpTo head) w op).1
      (simulate hashIndexer (servesUpTo head) w op).2 :=
  serves_simulate (fun _ _ _ _ => trivial) w op

/-- From block 5 on, two blocks at a time: the blocks up to 8 are two queries. -/
theorem pass_ends_servesUpTo : ∃ (w : World Unit) (r : Except Error ChainRunReport),
    Reaches (Serves hashIndexer AnyAnswer)
      (⟨.empty, [], ()⟩, runChainOnce ⟨⟨0⟩, [], 10⟩ (darwinia 5 2 .finalized)) (w, .done r) ∧
    logQueries w.past = [⟨46, 5, 6, [], [], .finalized⟩, ⟨46, 7, 8, [], [], .finalized⟩] ∧
    WithinBatches ⟨⟨0⟩, [], 10⟩ (darwinia 5 2 .finalized) w.past := by
  have hr := reaches_eval (serves_servesUpTo 8)
    (runChainOnce ⟨⟨0⟩, [], 10⟩ (darwinia 5 2 .finalized)) ⟨.empty, [], ()⟩
  refine ⟨_, _, hr, by decide +kernel, ?_⟩
  have hbatch : 0 < (darwinia 5 2 .finalized).batchSize := by decide
  exact ((pass_ends hashIndexer ⟨⟨0⟩, [], 10⟩ hbatch).2 .empty () _ _ hr).1

end Runner

end OrmpIndexer
