/-
# OrmpIndexer.Runner.Forks — rows and anchors of different forks

The logs of a range and the headers its anchors are made of are two requests. If the chain reorganises
between them, the rows of one fork are committed with the anchors of another; later checks compare the
anchors only, so the rows stay. Nothing in a pass compares the two answers: the committed events carry
the hashes of their anchors exactly if the answers happen to agree (`HeadersMatchLogs`).
-/
import OrmpIndexer.Runner.Passes

namespace OrmpIndexer

open Foundation Foundation.Task

namespace Runner

variable {Env : Type}

/-- Every committed event in a block with a committed anchor carries the hash stored for the block. The
hash of an event is that of its log (`EventDecoder.keepsLog`). -/
def SameFork (chain : ChainConfig) (dataset : String) (events : List LegacyOrmPEvent)
    (anchors : List BlockAnchor) (db : Database) : Prop :=
  ∀ e ∈ events, (∃ a ∈ anchors, a.blockNumber = e.metadata.blockNumber) →
    ∃ a, db.blockAnchor.get (chain.chainId, dataset, e.metadata.blockNumber) = some a ∧
      e.metadata.blockHash = some a.blockHash

/-- The answers the range was indexed from agree: a log with an event, in a block the headers were asked
for, carries the hash the header listed for its block has. -/
def HeadersMatchLogs (decoder : EventDecoder) (past : List Call) : Prop :=
  ∀ result query headers, lastLogs past = some result →
    headersSinceLogs past = some (query, headers) →
    ∀ log ∈ result.logs, (∃ e es, decoder.decode log = .ok (e :: es)) →
      query.fromBlock ≤ log.blockNumber → log.blockNumber ≤ query.toBlock →
      ∀ block, listedBlock headers.blocks log.blockNumber = some block →
        log.blockHash = some block.blockHash

/-- Every answer is allowed. -/
def AnyAnswer : Answers Env := fun _ _ _ => True

section

variable {ix : Indexer} {allowed : Answers Env} {chain : ChainConfig} {dataset : String}
variable {range : BlockRange} {w w₁ w' : World Env} {result : DatalensLogQueryResult}
variable {servedEnd : Nat} {events : List LegacyOrmPEvent} {anchors : List BlockAnchor}

/-- The decoder's calls leave no trace in the answers. -/
theorem answers_of_decode (h : Extends Call.IsDecode
      (w.record ix.postgres (.queryLogs (logQuery chain range)) (.ok result)) w₁) :
    lastLogs w₁.past = some result ∧ headersSinceLogs w₁.past = none := by
  obtain ⟨new, hnew, hdecode⟩ := h.past
  rw [hnew]
  clear hnew h
  induction new with
  | nil => exact ⟨rfl, rfl⟩
  | cons call new ih =>
      obtain ⟨log, hlog⟩ := hdecode call List.mem_cons_self
      obtain ⟨op, r⟩ := call
      change op = .decode log at hlog
      subst hlog
      exact ih fun c hc => hdecode c (List.mem_cons_of_mem _ hc)

/-- The anchor stored for a block of the checked range is the header listed for it. -/
theorem get_anchor_commit {checked : BlockRange} {blocks : List DatalensBlock}
    (headers : blockAnchorsFromBlocks chain.chainId dataset chain.finalityMode checked blocks =
      .ok anchors) {db : Database} {next n : Nat} {block : DatalensBlock}
    (hfrom : checked.fromBlock ≤ n) (hto : n ≤ checked.toBlock)
    (hlisted : listedBlock blocks n = some block) :
    (ix.postgres.writeEventsAndAdvanceCheckpoint db events anchors chain.chainId dataset
      next).blockAnchor.get (chain.chainId, dataset, n) =
      some ⟨chain.chainId, dataset, n, block.blockHash, block.parentHash, chain.finalityMode⟩ := by
  have unique : lastWhere (fun a => Keyed.key a == (chain.chainId, dataset, n)) anchors =
      some ⟨chain.chainId, dataset, n, block.blockHash, block.parentHash, chain.finalityMode⟩ := by
    refine lastWhere_eq_of_forall ((mem_blockAnchorsFromBlocks headers).mpr
      ⟨n, hfrom, hto, block, hlisted, rfl⟩) (by simp [Keyed.key]) fun a ha hkey => ?_
    obtain ⟨m, _, _, block', hlisted', rfl⟩ := (mem_blockAnchorsFromBlocks headers).mp ha
    obtain rfl : m = n := by simpa [Keyed.key] using hkey
    rw [hlisted] at hlisted'
    cases hlisted'
    rfl
  rw [Postgres.blockAnchor_commit, Postgres.get_foldl_upsert_anchor, unique]
  rfl

theorem sameFork_commit_iff (mode : chain.finalityMode.usesReorgProtection = true)
    (h : CommitsAt ix allowed chain dataset range w result servedEnd events anchors w') :
    SameFork chain dataset events anchors
      (effect ix.postgres w'.db (commitOp chain dataset range servedEnd events anchors)) ↔
      HeadersMatchLogs ix.decoder w'.past := by
  obtain ⟨w₁, hdecode, hanchors⟩ := h.anchored
  obtain ⟨hlogs, hheaders⟩ := answers_of_decode hdecode
  cases hanchors with
  -- not in a mode with anchors
  | fromLogs mode' =>
      rw [mode] at mode'
      cases mode'
  | allFinal _ _ _ =>
      -- no anchors, and no headers to disagree with
      refine iff_of_true (fun e _ ⟨a, ha, _⟩ => (nomatch ha)) fun r q b _ hsince => ?_
      change headersSinceLogs w₁.past = some (q, b) at hsince
      rw [hheaders] at hsince
      cases hsince
  | @fromHeaders finalized blocks anchors checked _ _ hchecked _ _ _ headers =>
      constructor
      -- an event of the log is committed, and its block is anchored by the header
      · intro same r q b hlast hsince log hlog hdecodes hfrom hto block hlisted
        change lastLogs w₁.past = some r at hlast
        rw [hlogs] at hlast
        cases hlast
        cases hsince
        obtain ⟨e, es, hes⟩ := hdecodes
        have hmem : e ∈ events := (mem_of_decodeAll h.decoded).mpr ⟨log, hlog, _, hes, by simp⟩
        have keeps := ix.decoder.keepsLog hes e List.mem_cons_self
        obtain ⟨a, hget, hhash⟩ := same e hmem ⟨_, (mem_blockAnchorsFromBlocks headers).mpr
          ⟨log.blockNumber, hfrom, hto, block, hlisted, rfl⟩, keeps.blockNumber.symm⟩
        rw [keeps.blockNumber] at hget
        have hget' := hget.symm.trans (get_anchor_commit headers hfrom hto hlisted)
        cases hget'
        rw [← keeps.blockHash, hhash]
      -- the anchor of the event's block is the header listed for it, and the event has its log's hash
      · intro hmatch e he ⟨a, ha, hblock⟩
        obtain ⟨n, hfrom, hto, block, hlisted, rfl⟩ := (mem_blockAnchorsFromBlocks headers).mp ha
        change n = e.metadata.blockNumber at hblock
        subst hblock
        refine ⟨_, get_anchor_commit headers hfrom hto hlisted, ?_⟩
        obtain ⟨log, hlog, es, hes, hmem⟩ := (mem_of_decodeAll h.decoded).mp he
        have keeps := ix.decoder.keepsLog hes e hmem
        rw [keeps.blockNumber] at hfrom hto hlisted
        rw [keeps.blockHash]
        refine hmatch result _ blocks hlogs rfl log hlog ?_ hfrom hto block hlisted
        cases es with
        | nil => cases hmem
        | cons e' es => exact ⟨e', es, hes⟩

/-- At every commit of a pass the two agree. -/
def CommitsSameFork (ix : Indexer) (chain : ChainConfig) (dataset : String) (w : World Env) (op : Op) :
    Prop :=
  ∀ events anchors chainId' dataset' next,
    op = .writeEventsAndAdvanceCheckpoint events anchors chainId' dataset' next →
    (SameFork chain dataset events anchors (effect ix.postgres w.db op) ↔
      HeadersMatchLogs ix.decoder w.past)

theorem keeps_commitsSameFork {config : RuntimeConfig}
    (mode : chain.finalityMode.usesReorgProtection = true) :
    Keeps ix allowed config chain dataset (CommitsSameFork ix chain dataset) (fun _ => True) where
  call _ hop := by
    rintro _ _ _ _ _ rfl
    exact hop.elim
  quiet _ _ := trivial
  insert _ := ⟨fun _ _ _ _ _ h => (nomatch h), trivial⟩
  rollback _ _ _ := ⟨fun _ _ _ _ _ h => (nomatch h), fun _ => trivial⟩
  commit _ _ commits := by
    refine ⟨fun _ _ _ _ _ h => ?_, fun _ => trivial⟩
    cases h
    exact sameFork_commit_iff mode commits

end

/-- **Rows and anchors of one fork.** In the modes with anchors, at every commit of every run, against
every reader: after the commit each of its events in an anchored block carries the hash of the anchor
stored for the block, exactly if the log answer and the block answer of the range agree. -/
theorem committed_events_match_anchors_iff {ix : Indexer} {config : RuntimeConfig}
    {chain : ChainConfig} {dataset : String} (hd : chainDataset chain.chainId = .ok dataset)
    (hmode : chain.finalityMode = .safe ∨ chain.finalityMode = .latest) {w w' : World Env}
    {events : List LegacyOrmPEvent} {anchors : List BlockAnchor} {chainId' : Nat}
    {dataset' : String} {nextBlock written : Nat}
    {next : Except Error Nat → Async ChainRunReport}
    (hr : Reachable (Serves ix AnyAnswer) (fun _ => True) (fun _ _ => True)
      (runChainOnce config chain) w
      (.call (.writeEventsAndAdvanceCheckpoint events anchors chainId' dataset' nextBlock) next))
    (hs : Serves ix AnyAnswer w
      (.writeEventsAndAdvanceCheckpoint events anchors chainId' dataset' nextBlock) (.ok written) w') :
    SameFork chain dataset events anchors w'.db ↔ HeadersMatchLogs ix.decoder w.past := by
  have mode : chain.finalityMode.usesReorgProtection = true := by
    rcases hmode with h | h <;> rw [h] <;> rfl
  have agree := ((keeps_commitsSameFork mode).reachable hd (fun _ _ _ => trivial)
    (fun _ _ => trivial) (fun _ _ _ _ => trivial) hr).2.1
  rw [hs.2]
  exact agree events anchors chainId' dataset' nextBlock rfl

/-- Block 5 has a log, and its header has this hash. -/
def oneBlock (blockHash : String) : World Unit → (op : Op) → Except Error (Reply op)
  | _, .latestBlock .. => .ok 5
  | _, .finalizedHead _ => .ok 0
  | _, .queryLogs _ => .ok ⟨[sampleLog 46 5 "0xaaaaa1" "0x05"], some 5, some 5, none⟩
  | _, .queryBlocks _ => .ok ⟨[⟨46, 5, blockHash, none⟩], some 5, some 5, none⟩
  | _, _ => .error []

/-- The event of the log. -/
def importedEvent : LegacyOrmPEvent :=
  .hashImported {
    metadata := {
      id := "46-5-0x01-0", chainId := 46, blockNumber := 5, blockHash := some "0xaaaaa1"
      blockTimestamp := 1700000000000, transactionHash := "0x01", transactionIndex := 0, logIndex := 0
      contractAddress := "0x13b2211a7ca45db2808f6db05557ce5347e3634e", transactionFrom := none }
    srcChainId := 1, targetChainId := 46, oracle := "0x03", channel := "0x02", msgIndex := 0
    hash := "0x05" }

/-- The commit of block 5. -/
abbrev commitFive (blockHash : String) : Op :=
  .writeEventsAndAdvanceCheckpoint [importedEvent]
    [⟨46, EVM_LOGS_DATASET, 5, blockHash, none, .latest⟩] 46 EVM_LOGS_DATASET 6

/-- The first pass, up to that commit. -/
def beforeCommit (blockHash : String) : World Unit × Async ChainRunReport :=
  (runChainOnce ⟨⟨0⟩, [], 10⟩ (darwinia 5 1 .latest)).evalUntil
    (simulate hashIndexer (oneBlock blockHash)) (· == commitFive blockHash) ⟨.empty, [], ()⟩

theorem reachable_beforeCommit (blockHash : String)
    (h : (beforeCommit blockHash).2.awaited = some (commitFive blockHash)) :
    ∃ next, Reachable (Serves hashIndexer AnyAnswer) (fun _ => True) (fun _ _ => True)
      (runChainOnce ⟨⟨0⟩, [], 10⟩ (darwinia 5 1 .latest)) (beforeCommit blockHash).1
      (.call (commitFive blockHash) next) := by
  obtain ⟨next, hnext⟩ := eq_call_of_awaited h
  refine ⟨next, ?_⟩
  rw [← hnext]
  exact (Reachable.start trivial).reaches
    (reaches_evalUntil (serves_simulate fun _ _ _ _ => trivial) _ _ _)

theorem serves_commitFive (blockHash : String) (w : World Unit) :
    Serves hashIndexer AnyAnswer w (commitFive blockHash) (.ok 1)
      (w.record hashIndexer.postgres (commitFive blockHash) (.ok 1)) := by
  refine ⟨fun a ha => ⟨?_, trivial⟩, rfl⟩
  cases ha
  rfl

/-- One chain answers both requests, and the row and its anchor are of one fork. -/
theorem committed_events_match_anchors_oneChain : ∃ (w : World Unit)
    (next : Except Error Nat → Async ChainRunReport) (w' : World Unit),
    Reachable (Serves hashIndexer AnyAnswer) (fun _ => True) (fun _ _ => True)
      (runChainOnce ⟨⟨0⟩, [], 10⟩ (darwinia 5 1 .latest)) w (.call (commitFive "0xaaaaa1") next) ∧
    Serves hashIndexer AnyAnswer w (commitFive "0xaaaaa1") (.ok 1) w' ∧
    SameFork (darwinia 5 1 .latest) EVM_LOGS_DATASET [importedEvent]
      [⟨46, EVM_LOGS_DATASET, 5, "0xaaaaa1", none, .latest⟩] w'.db := by
  obtain ⟨next, hr⟩ := reachable_beforeCommit "0xaaaaa1" rfl
  have hs := serves_commitFive "0xaaaaa1" (beforeCommit "0xaaaaa1").1
  refine ⟨_, next, _, hr, hs, (committed_events_match_anchors_iff rfl (.inr rfl) hr hs).mpr ?_⟩
  intro result query headers hlogs hheaders log hlog _ _ _ block hlisted
  have logs : (lastLogs (beforeCommit "0xaaaaa1").1.past).map
      (fun r => r.logs.all fun log => log.blockHash == some "0xaaaaa1") = some true := by
    rfl
  have blocks : (headersSinceLogs (beforeCommit "0xaaaaa1").1.past).map
      (fun h => h.2.blocks.all fun block => block.blockHash == "0xaaaaa1") = some true := by
    rfl
  rw [hlogs] at logs
  rw [hheaders] at blocks
  have hashOfLog := List.all_eq_true.mp (Option.some.inj logs) log hlog
  have hashOfBlock := List.all_eq_true.mp (Option.some.inj blocks) block (mem_of_lastWhere hlisted)
  rw [eq_of_beq hashOfLog, eq_of_beq hashOfBlock]

/-- The chain reorganises between the log query and the block query: the row is of the fork with hash
`0xaaaaa1`, its anchor of the one with hash `0xbbbbb2`. -/
theorem reorg_between_requests_mixes_forks : ∃ (w : World Unit)
    (next : Except Error Nat → Async ChainRunReport) (w' : World Unit),
    Reachable (Serves hashIndexer AnyAnswer) (fun _ => True) (fun _ _ => True)
      (runChainOnce ⟨⟨0⟩, [], 10⟩ (darwinia 5 1 .latest)) w (.call (commitFive "0xbbbbb2") next) ∧
    Serves hashIndexer AnyAnswer w (commitFive "0xbbbbb2") (.ok 1) w' ∧
    ¬SameFork (darwinia 5 1 .latest) EVM_LOGS_DATASET [importedEvent]
      [⟨46, EVM_LOGS_DATASET, 5, "0xbbbbb2", none, .latest⟩] w'.db := by
  obtain ⟨next, hr⟩ := reachable_beforeCommit "0xbbbbb2" rfl
  refine ⟨_, next, _, hr, serves_commitFive _ _, fun same => ?_⟩
  obtain ⟨a, hget, hhash⟩ := same importedEvent (by simp) ⟨_, List.mem_singleton_self _, rfl⟩
  have stored : (((beforeCommit "0xbbbbb2").1.record hashIndexer.postgres (commitFive "0xbbbbb2")
      (.ok 1)).db.blockAnchor.get (46, EVM_LOGS_DATASET, 5)).map (·.blockHash) = some "0xbbbbb2" := by
    rfl
  have hget' : ((beforeCommit "0xbbbbb2").1.record hashIndexer.postgres (commitFive "0xbbbbb2")
      (.ok 1)).db.blockAnchor.get (46, EVM_LOGS_DATASET, 5) = some a := hget
  rw [hget'] at stored
  have hanchor : a.blockHash = "0xbbbbb2" := Option.some.inj stored
  rw [hanchor] at hhash
  exact absurd hhash (by decide)

end Runner

end OrmpIndexer
