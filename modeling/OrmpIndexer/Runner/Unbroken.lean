/-
# OrmpIndexer.Runner.Unbroken — no chain loses a block while others run

`Runner.Coverage` is about one chain alone. A process indexes all chains into one database at the same time, and
chains with reorganisations roll back beside the others. In the modes `finalized` and `durable` a chain still
loses no block (`no_chain_loses_blocks`): the ranges it commits tile the blocks its checkpoint has passed, and a
range is committed with the events of all its logs.
-/
import OrmpIndexer.Runner.Balance

namespace OrmpIndexer

open Foundation Foundation.Task Metrics

namespace Runner

variable {Env Time : Type}

/-- What may be answered about chains with these logs: a served window is in order and has all logs of its
blocks. -/
def CompleteChains (logsOf : Nat → Nat → List DatalensLog) : Answers Env
  | _, .queryLogs query, result => ∀ servedStart servedEnd, result.servedStart = some servedStart →
      result.servedEnd = some servedEnd → servedStart ≤ servedEnd ∧
        ∀ n, servedStart ≤ n → n ≤ servedEnd → ∀ log ∈ logsOf query.chainId n, log ∈ result.logs
  | _, _, _ => True

theorem CompleteChains.ordered {logsOf : Nat → Nat → List DatalensLog} {w : World Env} {op : Op}
    {a : Reply op} (h : CompleteChains logsOf w op a) : OrderedWindows w op a := by
  cases op with
  | queryLogs query =>
      intro servedStart servedEnd hstart hend
      exact (h servedStart servedEnd hstart hend).1
  | _ => trivial

theorem steady_completeChains (ix : Indexer) (logsOf : Nat → Nat → List DatalensLog) :
    Steady ix (CompleteChains logsOf : Answers Env) where
  forward _ _ _ h := h.ordered.forward
  steady _ _ op _ h := by
    cases op <;> exact h

/-- The commits of a chain since the process began. -/
def commitsOfChain (chainId : Nat) (w : World Env) : List Commit :=
  commits (w.past.filter (ofChain chainId))

/-- The ranges that the chain committed tile the blocks from `start` to its checkpoint, and have their events. -/
structure Unbroken (decoder : EventDecoder) (logsOf : Nat → Nat → List DatalensLog) (chain : ChainConfig)
    (start : Nat) (w : World Env) : Prop where
  tiles : Tiles (fun c : Commit => c.range.fromBlock) (fun c => c.range.toBlock) start
    (commitsOfChain chain.chainId w) (nextBlock chain EVM_LOGS_DATASET w.db)
  complete : ∀ c ∈ commitsOfChain chain.chainId w, c.Complete decoder (logsOf chain.chainId)

section

variable {ix : Indexer} {config : RuntimeConfig} {chain : ChainConfig} {start : Nat}
variable {logsOf : Nat → Nat → List DatalensLog} {w w' : World Env}

theorem Unbroken.congr (h : Unbroken ix.decoder logsOf chain start w)
    (hpast : commitsOfChain chain.chainId w' = commitsOfChain chain.chainId w)
    (hnext : nextBlock chain EVM_LOGS_DATASET w'.db = nextBlock chain EVM_LOGS_DATASET w.db) :
    Unbroken ix.decoder logsOf chain start w' := by
  refine ⟨?_, ?_⟩
  · rw [hpast, hnext]
    exact h.tiles
  · rw [hpast]
    exact h.complete

theorem commitsOfChain_quiet (chainId : Nat) (hw : Extends Call.Quiet w w') :
    commitsOfChain chainId w' = commitsOfChain chainId w := by
  obtain ⟨new, hnew, hquiet⟩ := hw.past
  rw [commitsOfChain, hnew, List.filter_append,
    commits_append_quiet fun c hc => hquiet c (List.mem_of_mem_filter hc)]
  rfl

theorem Unbroken.quiet (h : Unbroken ix.decoder logsOf chain start w) (hw : Extends Call.Quiet w w') :
    Unbroken ix.decoder logsOf chain start w' :=
  h.congr (commitsOfChain_quiet _ hw) (by rw [hw.db])

/-- A commit is the last one of its chain. -/
theorem commitsOfChain_commit {range : BlockRange} {result : DatalensLogQueryResult} {servedEnd : Nat}
    {events : List LegacyOrmPEvent} {anchors : List BlockAnchor} {allowed : Answers Env}
    (hc : CommitsAt ix allowed chain EVM_LOGS_DATASET range w result servedEnd events anchors w')
    (written : Nat) : commitsOfChain chain.chainId (w'.record ix.postgres
      (commitOp chain EVM_LOGS_DATASET range servedEnd events anchors) (.ok written)) =
        commitsOfChain chain.chainId w ++ [.ofRange range servedEnd events anchors] := by
  have hquery : lastLogQuery (w'.past.filter (ofChain chain.chainId)) = some (logQuery chain range) :=
    lastLogQuery_filter hc.lastLogQuery
  have hpast : (w'.record ix.postgres (commitOp chain EVM_LOGS_DATASET range servedEnd events anchors)
      (.ok written)).past.filter (ofChain chain.chainId) =
        ⟨commitOp chain EVM_LOGS_DATASET range servedEnd events anchors, .ok written⟩ ::
          w'.past.filter (ofChain chain.chainId) :=
    List.filter_cons_of_pos (beq_self_eq_true _)
  rw [commitsOfChain, hpast, commits, ← commitsOfChain_quiet _ hc.quiet, commitsOfChain]
  refine congrArg (_ ++ ·) ?_
  simp only [commitOf, commitOp, hquery]
  rfl

/-- A commit continues the tiling, with the events of all logs of its range. -/
theorem Unbroken.commit (h : Unbroken ix.decoder logsOf chain start w) {range : BlockRange}
    {result : DatalensLogQueryResult} {servedEnd : Nat} {events : List LegacyOrmPEvent}
    {anchors : List BlockAnchor}
    (turn : Turn (CompleteChains logsOf) config chain (nextBlock chain EVM_LOGS_DATASET w.db) range w)
    (hc : CommitsAt ix (CompleteChains logsOf) chain EVM_LOGS_DATASET range w result servedEnd events
      anchors w') (written : Nat) :
    Unbroken ix.decoder logsOf chain start (w'.record ix.postgres
      (commitOp chain EVM_LOGS_DATASET range servedEnd events anchors) (.ok written)) := by
  obtain ⟨_, _, _, _, planned⟩ := turn
  obtain ⟨hordered, hwindow⟩ := hc.answer _ _ hc.starts hc.ends
  have hcommits := commitsOfChain_commit hc written
  refine ⟨?_, fun c hmem => ?_⟩
  · have hbefore : Tiles (fun c : Commit => c.range.fromBlock) (fun c => c.range.toBlock) start
        (commitsOfChain chain.chainId w) range.fromBlock := by
      rw [planned.start]
      exact h.tiles
    have hnext : nextBlock chain EVM_LOGS_DATASET (w'.record ix.postgres
        (commitOp chain EVM_LOGS_DATASET range servedEnd events anchors) (.ok written)).db =
          min servedEnd range.toBlock + 1 := nextBlock_commit
    rw [hcommits, hnext]
    exact hbefore.concat (i := Commit.ofRange range servedEnd events anchors)
      (le_min hordered planned.nonempty)
  · rw [hcommits] at hmem
    rcases List.mem_append.mp hmem with hmem | hmem
    · exact h.complete c hmem
    · obtain rfl := List.mem_singleton.mp hmem
      intro n hfrom hto log hlog
      have hserved : log ∈ result.logs :=
        hwindow n hfrom (Nat.le_trans hto (Nat.min_le_left _ _)) log hlog
      obtain ⟨es, hes⟩ := decode_of_decodeAll hc.decoded log hserved
      exact ⟨es, hes, fun e he => (mem_of_decodeAll hc.decoded).mpr ⟨log, hserved, es, hes, he⟩⟩

/-- A pass of a chain without reorganisations keeps it; nothing is said of the others. -/
theorem keeps_unbroken : Keeps ix (CompleteChains logsOf) config chain EVM_LOGS_DATASET
    (fun (w : World Env) _ => chain.finalityMode.usesReorgProtection = false →
      Unbroken ix.decoder logsOf chain start w)
    (fun w => chain.finalityMode.usesReorgProtection = false →
      Unbroken ix.decoder logsOf chain start w) where
  call h _ := h
  quiet h hw hmode := (h hmode).quiet hw
  insert h := by
    refine ⟨h, fun hmode => (h hmode).congr ?_ nextBlock_insert⟩
    exact congrArg commits (List.filter_cons_of_neg Bool.false_ne_true)
  rollback h mode rolls :=
    ⟨fun hmode => (h hmode).quiet rolls.answered.quiet,
      fun _ hmode => absurd (mode.symm.trans hmode) (by decide)⟩
  commit h turn hc :=
    ⟨fun hmode => (h hmode).quiet hc.quiet, fun written hmode => (h hmode).commit turn hc written⟩

theorem unbroken_atStart (hpast : w.past = []) :
    Unbroken ix.decoder logsOf chain (nextBlock chain EVM_LOGS_DATASET w.db) w := by
  have hnone : commitsOfChain chain.chainId w = [] := by
    rw [commitsOfChain, hpast]
    rfl
  refine ⟨?_, fun c hc => ?_⟩
  · rw [hnone]
    exact .nil
  · rw [hnone] at hc
    cases hc

end

/-- **No chain loses a block.** In a process that runs the loops of different chains, wherever the loop of a chain
in the modes `finalized` and `durable` awaits a call or has ended, the ranges that the chain has committed since
the process began tile the blocks its stored checkpoint has passed, and every log of those blocks decodes to
events that were committed for it; whatever fails, and whatever the other chains do. -/
theorem no_chain_loses_blocks [Zero Time] [Add Time] {ix : Indexer} {config : RuntimeConfig}
    {pollMillis : Nat} {logsOf : Nat → Nat → List DatalensLog}
    (hdistinct : (config.enabledChains.map (·.chainId)).Nodup)
    {turns : Fin config.enabledChains.length → Nat} {w₀ w : World Env} {m₀ m : MetricsState Time}
    {rests : Fin config.enabledChains.length → Metered Unit} (hpast : w₀.past = [])
    (hmetrics : m₀.runtimeRows = .empty)
    (hrun : Together (Observed (Serves ix (CompleteChains logsOf)) Records)
      ((w₀, m₀), loopTasks config pollMillis turns) ((w, m), rests))
    {i : Fin config.enabledChains.length} (hi : ∀ a, (rests i).awaited ≠ some (.inr a))
    (hmode : (config.enabledChains.get i).finalityMode = .finalized ∨
      (config.enabledChains.get i).finalityMode = .durable) :
    Tiles (fun c : Commit => c.range.fromBlock) (fun c => c.range.toBlock)
        (nextBlock (config.enabledChains.get i) EVM_LOGS_DATASET w₀.db)
        (commitsOfChain (config.enabledChains.get i).chainId w)
        (nextBlock (config.enabledChains.get i) EVM_LOGS_DATASET w.db) ∧
      ∀ n, nextBlock (config.enabledChains.get i) EVM_LOGS_DATASET w₀.db ≤ n →
        n < nextBlock (config.enabledChains.get i) EVM_LOGS_DATASET w.db →
        ∀ log ∈ logsOf (config.enabledChains.get i).chainId n,
          ∃ events, ix.decoder.decode log = .ok events ∧ ∀ e ∈ events,
            e ∈ writtenEvents (commitsOfChain (config.enabledChains.get i).chainId w) := by
  have mode : (config.enabledChains.get i).finalityMode.usesReorgProtection = false := by
    rcases hmode with h | h <;> rw [h] <;> rfl
  have hknown := known_together (steady_completeChains ix logsOf) hdistinct
    (I := fun i w => (config.enabledChains.get i).finalityMode.usesReorgProtection = false →
      Unbroken ix.decoder logsOf (config.enabledChains.get i)
        (nextBlock (config.enabledChains.get i) EVM_LOGS_DATASET w₀.db) w)
    (fun i _ _ hprogress hpast h hmode => (h hmode).congr (congrArg commits hpast.symm)
      (nextBlock_congr hprogress).symm)
    (fun _ => keeps_unbroken) hpast hmetrics (fun _ _ => unbroken_atStart hpast) hrun hi
  obtain ⟨tiles, complete⟩ := hknown.2 mode
  refine ⟨tiles, fun n hlo hhi log hlog => ?_⟩
  obtain ⟨c, hc, hfrom, hto⟩ := tiles.exists_mem hlo hhi
  obtain ⟨events, hdecode, hevents⟩ := complete c hc n hfrom hto log hlog
  exact ⟨events, hdecode, fun e he => List.mem_flatMap.mpr ⟨c, hc, hevents e he⟩⟩

theorem completeChains_servesThreeLogs (w : World Unit) (op : Op) (a : Reply op)
    (h : reply hashIndexer servesThreeLogs w op = .ok a) : CompleteChains (fun _ => threeLogs) w op a := by
  cases op with
  | queryLogs query => exact completeWindows_servesThreeLogs w (.queryLogs query) a h
  | _ => trivial

/-- The second turn went on after the partial serve of the first; the log of block 9 was committed. -/
theorem no_chain_loses_blocks_loopedTwice :
    nextBlock (darwinia 5 3 .finalized) EVM_LOGS_DATASET loopedTwice.2.1.db = 10 ∧
      ∃ events, hashDecoder.decode (sampleLog 46 9 "0xaaaaa1" s!"0x{9}") = .ok events ∧
        ∀ e ∈ events, e ∈ writtenEvents (commitsOfChain 46 loopedTwice.2.1) := by
  have hrun : Together (Observed (Serves hashIndexer (CompleteChains fun _ => threeLogs)) Records)
      ((atStart.1, atStart.2), loopTasks oneChain 30000 fun _ => 2)
      ((loopedTwice.2.1, loopedTwice.2.2),
        Function.update (loopTasks oneChain 30000 fun _ => 2) onlyTask (.done loopedTwice.1)) :=
    together_loopedTwice completeChains_servesThreeLogs records_recordAtZero
  have hcommitted : ∀ n, 5 ≤ n →
      n < nextBlock (darwinia 5 3 .finalized) EVM_LOGS_DATASET loopedTwice.2.1.db →
      ∀ log ∈ threeLogs n, ∃ events, hashDecoder.decode log = .ok events ∧
        ∀ e ∈ events, e ∈ writtenEvents (commitsOfChain 46 loopedTwice.2.1) :=
    (no_chain_loses_blocks (by decide) rfl rfl hrun ended_loopedTwice (.inl rfl)).2
  refine ⟨nextBlock_loopedTwice, hcommitted 9 (by decide) ?_ _ (by simp [threeLogs])⟩
  rw [nextBlock_loopedTwice]
  decide

end Runner

end OrmpIndexer
