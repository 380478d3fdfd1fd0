/-
# OrmpIndexer.Runner.Coverage — no block is lost

In the modes `finalized` and `durable` the chain does not change under the indexer, so there is one list
of logs for every block. The ranges a run commits tile the chain from `start_block` to the checkpoint,
and a committed range has all its logs. The invariant (`Covered`) says nothing about passes: it is kept
by every commit, whatever was served, and nothing else moves the checkpoint.
-/
import OrmpIndexer.Foundation.Tiling
import OrmpIndexer.Runner.Passes

namespace OrmpIndexer

open Foundation Foundation.Task

namespace Runner

/-- What a server may answer about a chain with these logs: a served window is in order and has all
matching logs of its blocks. When it serves, how far, and why it stopped are open. -/
def CompleteWindows (logsOf : Nat → List DatalensLog) : Answers Unit
  | _, .queryLogs _, result => ∀ servedStart servedEnd, result.servedStart = some servedStart →
      result.servedEnd = some servedEnd → servedStart ≤ servedEnd ∧
        ∀ n, servedStart ≤ n → n ≤ servedEnd → ∀ log ∈ logsOf n, log ∈ result.logs
  | _, _, _ => True

/-- The committed ranges tile the blocks below the checkpoint. -/
def CommitsTile (chain : ChainConfig) (dataset : String) (w : World Unit) : Prop :=
  Tiles (fun c : Commit => c.range.fromBlock) (fun c => c.range.toBlock) chain.startBlock
    (commits w.past) (nextBlock chain dataset w.db)

/-- A store that has never seen the chain, before the first pass. -/
def NotBegun (chain : ChainConfig) (dataset : String) (w : World Unit) : Prop :=
  w.db.checkpoint.get (chain.chainId, dataset) = none ∧ w.past = []

/-- Every log of the range decodes, and its events are in the commit. -/
def Commit.Complete (decoder : EventDecoder) (logsOf : Nat → List DatalensLog) (c : Commit) : Prop :=
  ∀ n, c.range.fromBlock ≤ n → n ≤ c.range.toBlock → ∀ log ∈ logsOf n,
    ∃ events, decoder.decode log = .ok events ∧ ∀ e ∈ events, e ∈ c.events

/-- The event last written under the row id of `e` is the one stored there. -/
def StoredAsLastWritten (w : World Unit) (e : LegacyOrmPEvent) : Prop :=
  ∃ last, lastWhere (fun e' => eventKey e' == eventKey e) (writtenEvents (commits w.past)) =
      some last ∧
    w.db.eventRow (eventKey e) = some (rowOf last)

structure Covered (ix : Indexer) (chain : ChainConfig) (dataset : String)
    (logsOf : Nat → List DatalensLog) (w : World Unit) : Prop where
  tiles : CommitsTile chain dataset w
  complete : ∀ c ∈ commits w.past, c.Complete ix.decoder logsOf
  written : ∀ e ∈ writtenEvents (commits w.past), StoredAsLastWritten w e

section

variable {ix : Indexer} {chain : ChainConfig} {dataset : String}
variable {logsOf : Nat → List DatalensLog} {w w' : World Unit}

theorem covered_congr (h : Covered ix chain dataset logsOf w)
    (hnext : nextBlock chain dataset w'.db = nextBlock chain dataset w.db)
    (hrow : ∀ k, w'.db.eventRow k = w.db.eventRow k) (hpast : commits w'.past = commits w.past) :
    Covered ix chain dataset logsOf w' where
  tiles := by
    rw [CommitsTile, hpast, hnext]
    exact h.tiles
  complete := by
    rw [hpast]
    exact h.complete
  written e he := by
    rw [hpast] at he
    rw [StoredAsLastWritten, hpast, hrow]
    exact h.written e he

/-- The events of the new commit overwrite, and nothing else changes. -/
theorem storedAsLastWritten_record {op : Op} {r : Except Error (Reply op)}
    {c : Commit} (hcommits : commits (w.record ix.postgres op r).past = commits w.past ++ [c])
    (hrow : ∀ k, (w.record ix.postgres op r).db.eventRow k =
      (ix.postgres.writeEvents w.db c.events).eventRow k)
    (h : ∀ e ∈ writtenEvents (commits w.past), StoredAsLastWritten w e) :
    ∀ e ∈ writtenEvents (commits (w.record ix.postgres op r).past),
      StoredAsLastWritten (w.record ix.postgres op r) e := by
  intro e he
  have hwritten : writtenEvents (commits w.past ++ [c]) =
      writtenEvents (commits w.past) ++ c.events := by simp [writtenEvents]
  rw [hcommits, hwritten] at he
  rw [StoredAsLastWritten, hcommits, hwritten, hrow, lastWhere_append,
    Postgres.eventRow_writeEvents]
  cases hlast : lastWhere (fun e' => eventKey e' == eventKey e) c.events with
  | some last => exact ⟨last, rfl, rfl⟩
  | none =>
      -- no new event has the row id of `e`, so `e` is an old one
      have hnew : e ∉ c.events := fun h => by
        have := lastWhere_eq_none_iff.mp hlast e h
        simp at this
      exact h e ((List.mem_append.mp he).resolve_right hnew)

variable {config : RuntimeConfig} {range : BlockRange} {result : DatalensLogQueryResult}
variable {servedEnd : Nat} {events : List LegacyOrmPEvent} {anchors : List BlockAnchor}

/-- A served range is complete: its logs are in the answer, and all of them were decoded. -/
theorem complete_of_commitsAt
    (h : CommitsAt ix (CompleteWindows logsOf) chain dataset range w result servedEnd events anchors
      w') : (Commit.ofRange range servedEnd events anchors).Complete ix.decoder logsOf := by
  intro n hfrom hto log hlog
  change range.fromBlock ≤ n at hfrom
  change n ≤ min servedEnd range.toBlock at hto
  obtain ⟨_, hwindow⟩ := h.answer _ _ h.starts h.ends
  have hmem : log ∈ result.logs := hwindow n hfrom (by omega) log hlog
  obtain ⟨es, hes⟩ := decode_of_decodeAll h.decoded log hmem
  exact ⟨es, hes, fun e he => (mem_of_decodeAll h.decoded).mpr ⟨log, hmem, es, hes, he⟩⟩

theorem covered_commit (h : Covered ix chain dataset logsOf w)
    (turn : Turn (CompleteWindows logsOf) config chain (nextBlock chain dataset w.db) range w)
    (hc : CommitsAt ix (CompleteWindows logsOf) chain dataset range w result servedEnd events anchors
      w') (written : Nat) :
    Covered ix chain dataset logsOf (w'.record ix.postgres
      (commitOp chain dataset range servedEnd events anchors) (.ok written)) := by
  obtain ⟨_, _, _, _, planned⟩ := turn
  have hcommits := hc.commits_record written
  refine ⟨?_, ?_, ?_⟩
  -- the new range begins where the tiling ends
  · have ordered : range.fromBlock ≤ servedEnd := (hc.answer _ _ hc.starts hc.ends).1
    have nonempty : range.fromBlock ≤ min servedEnd range.toBlock := by
      have := planned.nonempty
      omega
    have before : Tiles (fun c : Commit => c.range.fromBlock) (fun c => c.range.toBlock)
        chain.startBlock (commits w.past) range.fromBlock := by
      rw [planned.start]
      exact h.tiles
    rw [CommitsTile, hcommits]
    show Tiles _ _ _ _ (nextBlock chain dataset
      (ix.postgres.writeEventsAndAdvanceCheckpoint w'.db events anchors chain.chainId dataset
        (min servedEnd range.toBlock + 1)))
    rw [nextBlock_commit]
    exact before.concat (i := Commit.ofRange range servedEnd events anchors) nonempty
  -- it is complete, and the ranges before it stay so
  · intro c hmem
    rw [hcommits] at hmem
    rcases List.mem_append.mp hmem with hmem | hmem
    · exact h.complete c hmem
    · rw [List.mem_singleton.mp hmem]
      exact complete_of_commitsAt hc
  -- its events overwrite, and the others are stored as before
  · have h' : Covered ix chain dataset logsOf w' :=
      covered_congr h (by rw [hc.quiet.db]) (fun _ => by rw [hc.quiet.db]) (commits_quiet hc.quiet)
    refine storedAsLastWritten_record (c := .ofRange range servedEnd events anchors) ?_
      (fun k => rfl) h'.written
    rw [hcommits, commits_quiet hc.quiet]

/-- What every pass keeps when no block can be reorganised. -/
theorem keeps_covered (hmode : chain.finalityMode.usesReorgProtection = false) :
    Keeps ix (CompleteWindows logsOf) config chain dataset
      (fun w _ => Covered ix chain dataset logsOf w) (Covered ix chain dataset logsOf) where
  call h _ := h
  quiet h hw := covered_congr h (by rw [hw.db]) (fun _ => by rw [hw.db]) (commits_quiet hw)
  insert {w} h := ⟨h, covered_congr h nextBlock_insert (fun _ => rfl) (List.append_nil _)⟩
  -- these modes never roll back
  rollback _ mode _ := by rw [hmode] at mode; cases mode
  commit h turn hc :=
    ⟨covered_congr h (by rw [hc.quiet.db]) (fun _ => by rw [hc.quiet.db]) (commits_quiet hc.quiet),
      covered_commit h turn hc⟩

end

/-- **No block range is lost.** In the modes without reorganisations, in every state a run reaches
(calls may fail, the process may stop between any two of them), the committed ranges tile the blocks from
`start_block` to the checkpoint, and every log of those blocks decodes to events that were committed and
are stored as last written. -/
theorem no_block_lost {ix : Indexer} {config : RuntimeConfig} {chain : ChainConfig}
    {dataset : String} {logsOf : Nat → List DatalensLog}
    (hd : chainDataset chain.chainId = .ok dataset)
    (hmode : chain.finalityMode = .finalized ∨ chain.finalityMode = .durable) {w : World Unit}
    {t : Async ChainRunReport}
    (hr : Reachable (Serves ix (CompleteWindows logsOf)) (NotBegun chain dataset)
      (fun w w' => w' = w) (runChainOnce config chain) w t) :
    CommitsTile chain dataset w ∧
      ∀ n, chain.startBlock ≤ n → n < nextBlock chain dataset w.db → ∀ log ∈ logsOf n,
        ∃ events, ix.decoder.decode log = .ok events ∧ ∀ e ∈ events,
          e ∈ writtenEvents (commits w.past) ∧ StoredAsLastWritten w e := by
  have mode : chain.finalityMode.usesReorgProtection = false := by
    rcases hmode with h | h <;> rw [h] <;> rfl
  have inv : Covered ix chain dataset logsOf w := by
    refine ((keeps_covered mode).reachable hd (fun _ _ h => h) (fun w ⟨hnone, hpast⟩ => ?_)
      (fun w w' h hw => hw ▸ h) hr).1
    refine ⟨?_, by simp [hpast, commits], by simp [hpast, commits, writtenEvents]⟩
    rw [CommitsTile, hpast, nextBlock, hnone]
    exact .nil
  refine ⟨inv.tiles, fun n hlo hhi log hlog => ?_⟩
  obtain ⟨c, hc, hfrom, hto⟩ := inv.tiles.exists_mem hlo hhi
  obtain ⟨events, hdecode, hevents⟩ := inv.complete c hc n hfrom hto log hlog
  refine ⟨events, hdecode, fun e he => ?_⟩
  have hwritten : e ∈ writtenEvents (commits w.past) :=
    List.mem_flatMap.mpr ⟨c, hc, hevents e he⟩
  exact ⟨hwritten, inv.written e hwritten⟩

/-- A chain with a log in each of three blocks. -/
def threeLogs (n : Nat) : List DatalensLog :=
  if n = 5 ∨ n = 7 ∨ n = 9 then [sampleLog 46 n "0xaaaaa1" s!"0x{n}"] else []

/-- The head is block 9. The first request is served up to block 6 only, the others in full. -/
def servesThreeLogs : World Unit → (op : Op) → Except Error (Reply op)
  | _, .latestBlock .. => .ok 9
  | _, .queryLogs query =>
      let served : BlockRange :=
        ⟨query.fromBlock, if query.fromBlock = 5 then 6 else max query.fromBlock query.toBlock⟩
      .ok {
        logs := (blockNumbers served).flatMap threeLogs
        servedStart := some served.fromBlock
        servedEnd := some served.toBlock
        incompleteReason := if query.fromBlock = 5 then some .pending else none }
  | _, _ => .error []

theorem completeWindows_servesThreeLogs (w : World Unit) (op : Op) (a : Reply op)
    (h : reply hashIndexer servesThreeLogs w op = .ok a) : CompleteWindows threeLogs w op a := by
  cases op with
  | queryLogs query =>
      cases h
      intro servedStart servedEnd hstart hend
      cases hstart
      cases hend
      constructor
      · dsimp only
        split <;> omega
      · intro n hfrom hto log hlog
        exact List.mem_flatMap.mpr ⟨n, mem_blockNumbers.mpr ⟨hfrom, hto⟩, hlog⟩
  | _ => trivial

/-- After two passes. -/
def indexedTwice : World Unit :=
  evalPasses (simulate hashIndexer servesThreeLogs) id
    (runChainOnce ⟨⟨0⟩, [], 0⟩ (darwinia 5 3 .finalized)) 2 ⟨.empty, [], ()⟩

/-- The second pass goes on after the partial serve of the first; the log of block 9 is stored. -/
theorem no_block_lost_indexedTwice :
    nextBlock (darwinia 5 3 .finalized) EVM_LOGS_DATASET indexedTwice.db = 10 ∧
      CommitsTile (darwinia 5 3 .finalized) EVM_LOGS_DATASET indexedTwice ∧
      ∃ events, hashDecoder.decode (sampleLog 46 9 "0xaaaaa1" s!"0x{9}") = .ok events ∧
        ∀ e ∈ events, e ∈ writtenEvents (commits indexedTwice.past) ∧
          StoredAsLastWritten indexedTwice e := by
  have next : nextBlock (darwinia 5 3 .finalized) EVM_LOGS_DATASET indexedTwice.db = 10 := by decide +kernel
  have reachable : Reachable (Serves hashIndexer (CompleteWindows threeLogs))
      (NotBegun (darwinia 5 3 .finalized) EVM_LOGS_DATASET) (fun w w' => w' = w)
      (runChainOnce ⟨⟨0⟩, [], 0⟩ (darwinia 5 3 .finalized)) indexedTwice
      (runChainOnce ⟨⟨0⟩, [], 0⟩ (darwinia 5 3 .finalized)) := by
    refine reachable_evalPasses (serves_simulate completeWindows_servesThreeLogs) (fun _ => ?_)
      ⟨Table.get_empty _, rfl⟩ 2
    rfl
  obtain ⟨tiles, stored⟩ := no_block_lost rfl (.inl rfl) reachable
  exact ⟨next, tiles, stored 9 (by decide) (by rw [next]; decide) _ (by simp [threeLogs])⟩

end Runner

end OrmpIndexer
