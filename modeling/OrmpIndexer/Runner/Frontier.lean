/-
# OrmpIndexer.Runner.Frontier — nothing is stored at or beyond the checkpoint

The HTTP client keeps the logs of the window the server SAYS it served; the runner cuts the end of that
window off at the requested block, but keeps the logs. So the checkpoint stays below a log that was
served beyond the request (`Overreaches`). The other way to leave rows beyond the checkpoint is a
rollback that does not find them: a signature row is filed under the chain its payload names, and is
otherwise found through the anchor of its block alone (`FindsSignatures`).
-/
import OrmpIndexer.Runner.Passes

namespace OrmpIndexer

open Foundation Foundation.Task

namespace Runner

variable {Env : Type}

/-- The row is what a log of the chain below block `next` decodes to. -/
def FromLogBelow (decoder : EventDecoder) (chainId next : Nat) (r : LegacyRow) : Prop :=
  ∃ log events, decoder.decode log = .ok events ∧ log.chainId = chainId ∧ log.blockNumber < next ∧
    ∃ e ∈ events, rowOf e = r

/-- Every stored event row comes from a log below the checkpoint. -/
def BelowCheckpoint (ix : Indexer) (chain : ChainConfig) (dataset : String) (w : World Env) : Prop :=
  ∀ k r, w.db.eventRow k = some r →
    FromLogBelow ix.decoder chain.chainId (nextBlock chain dataset w.db) r

/-- What the HTTP client answers: the logs of some page, whose window is in order. -/
def HttpAnswers : Answers Env
  | _, .queryLogs query, result => (∃ page, DatalensHttpClient.queryLogs page query = .ok result) ∧
      ∀ servedStart servedEnd, result.servedStart = some servedStart →
        result.servedEnd = some servedEnd → servedStart ≤ servedEnd
  | _, _, _ => True

/-- The answer is one the runner commits, with an event beyond the requested block. -/
def Overreaches (decoder : EventDecoder) (query : DatalensLogQuery) (result : DatalensLogQueryResult) :
    Prop :=
  result.servedStart = some query.fromBlock ∧ result.servedEnd.isSome ∧
    ∃ events, decodeAll decoder result.logs = .ok events ∧
      ∃ e ∈ events, query.toBlock < e.metadata.blockNumber

/-- Every stored signature row from the rollback block on names the chain or is selected by an anchor. -/
def FindsSignatures (pg : Postgres) (db : Database) (chainId : Nat) (dataset : String)
    (rollbackBlock : Nat) : Prop :=
  ∀ id s, db.signaturePubSignatureSubmittion.get id = some s → rollbackBlock ≤ s.blockNumber →
    s.chainId = chainId ∨ pg.selectedByAnchor db chainId dataset rollbackBlock s = true

/-- The condition on the steps of a run: log answers do not overreach, and rollbacks find the signature
rows. -/
def WithinRequest (ix : Indexer) : Answers Env
  | _, .queryLogs query, result => ¬Overreaches ix.decoder query result
  | w, .rollbackLegacyFrom chainId dataset rollbackBlock, _ =>
      FindsSignatures ix.postgres w.db chainId dataset rollbackBlock
  | _, _, _ => True

/-- Both. -/
def HttpWithinRequest (ix : Indexer) : Answers Env :=
  fun w op a => HttpAnswers w op a ∧ WithinRequest ix w op a

section

variable {ix : Indexer} {chain : ChainConfig} {dataset : String} {w w' : World Env}

theorem FromLogBelow.mono {decoder : EventDecoder} {chainId next next' : Nat} {r : LegacyRow}
    (h : FromLogBelow decoder chainId next r) (hle : next ≤ next') :
    FromLogBelow decoder chainId next' r := by
  obtain ⟨log, events, hdecode, hchain, hlt, he⟩ := h
  exact ⟨log, events, hdecode, hchain, by omega, he⟩

theorem FromLogBelow.lower {decoder : EventDecoder} {chainId next next' : Nat} {r : LegacyRow}
    (h : FromLogBelow decoder chainId next r) (hlt : r.blockNumber < next') :
    FromLogBelow decoder chainId next' r := by
  obtain ⟨log, events, hdecode, hchain, _, e, he, rfl⟩ := h
  refine ⟨log, events, hdecode, hchain, ?_, e, he, rfl⟩
  rw [← (decoder.keepsLog hdecode e he).blockNumber, ← blockNumber_rowOf]
  exact hlt

/-- A row of the chain is filed under the chain, unless it is a signature row. -/
theorem FromLogBelow.chainId_eq {decoder : EventDecoder} {chainId next : Nat} {r : LegacyRow}
    (h : FromLogBelow decoder chainId next r) :
    r.chainId = chainId ∨ ∃ s, r = .signaturePubSignatureSubmittion s := by
  obtain ⟨log, events, hdecode, rfl, _, e, he, rfl⟩ := h
  rcases chainId_rowOf e with h | ⟨s, rfl⟩
  · exact .inl (h.trans (decoder.keepsLog hdecode e he).chainId)
  · exact .inr ⟨_, rfl⟩

/-- A rollback that finds the signature rows leaves only rows below its block. -/
theorem blockNumber_lt_of_rollback {pg : Postgres} {db : Database} {decoder : EventDecoder}
    {chainId next rollbackBlock : Nat} {k : LegacyTable × String} {r : LegacyRow}
    (hfinds : FindsSignatures pg db chainId dataset rollbackBlock)
    (horigin : ∀ r, db.eventRow k = some r → FromLogBelow decoder chainId next r)
    (h : (pg.rollbackLegacyFrom db chainId dataset rollbackBlock).eventRow k = some r) :
    db.eventRow k = some r ∧ r.blockNumber < rollbackBlock := by
  rw [Postgres.eventRow_rollbackLegacyFrom, Option.filter_eq_some_iff] at h
  obtain ⟨hrow, hkept⟩ := h
  refine ⟨hrow, Nat.lt_of_not_le fun hle => ?_⟩
  have selected : pg.rollbackSelects db chainId dataset rollbackBlock r = true := by
    -- a row above the block is deleted by its chain, or is a signature row that is found
    rcases (horigin r hrow).chainId_eq with hchain | ⟨s, rfl⟩
    · simp [Postgres.rollbackSelects, Postgres.rolledBack, hchain, hle]
    · have stored : db.signaturePubSignatureSubmittion.get k.2 = some s := by
        obtain ⟨t, id⟩ := k
        cases t <;> simp_all [Database.eventRow]
      rcases hfinds k.2 s stored hle with hchain | hanchor
      · have : (LegacyRow.signaturePubSignatureSubmittion s).chainId = chainId := hchain
        simp [Postgres.rollbackSelects, Postgres.rolledBack, this, hle]
      · simp [Postgres.rollbackSelects, hanchor]
  simp [selected] at hkept

variable {range : BlockRange} {result : DatalensLogQueryResult} {servedEnd : Nat}
variable {events : List LegacyOrmPEvent} {anchors : List BlockAnchor}

/-- The committed events come from logs of the committed range. -/
theorem fromLogBelow_of_commitsAt
    (h : CommitsAt ix (HttpWithinRequest ix) chain dataset range w result servedEnd events anchors w')
    {e : LegacyOrmPEvent} (he : e ∈ events) :
    FromLogBelow ix.decoder chain.chainId (min servedEnd range.toBlock + 1) (rowOf e) := by
  obtain ⟨⟨⟨page, hpage⟩, _⟩, within⟩ := h.answer
  obtain ⟨log, hlog, es, hdecode, hes⟩ := (mem_of_decodeAll h.decoded).mp he
  obtain ⟨hchain, _, _, _, hserved⟩ := mem_queryLogs hpage hlog
  refine ⟨log, es, hdecode, hchain, ?_, e, hes, rfl⟩
  have hblock : e.metadata.blockNumber = log.blockNumber :=
    (ix.decoder.keepsLog hdecode e hes).blockNumber
  -- the client bounds a log by the served window only, not by the request
  have hrequest : ¬range.toBlock < e.metadata.blockNumber := fun hlt =>
    within ⟨h.starts, by rw [h.ends]; rfl, events, h.decoded, e, he, hlt⟩
  rw [h.ends, Option.getD_some] at hserved
  omega

theorem belowCheckpoint_commit {config : RuntimeConfig} (h : BelowCheckpoint ix chain dataset w)
    (turn : Turn (HttpWithinRequest ix) config chain (nextBlock chain dataset w.db) range w)
    (hc : CommitsAt ix (HttpWithinRequest ix) chain dataset range w result servedEnd events anchors w')
    (written : Nat) :
    BelowCheckpoint ix chain dataset (w'.record ix.postgres
      (commitOp chain dataset range servedEnd events anchors) (.ok written)) := by
  obtain ⟨_, _, _, _, planned⟩ := turn
  intro k r hr
  change (ix.postgres.writeEvents w'.db events).eventRow k = some r at hr
  show FromLogBelow _ _ (nextBlock chain dataset (ix.postgres.writeEventsAndAdvanceCheckpoint _ _ _ _ _
    (min servedEnd range.toBlock + 1))) r
  rw [nextBlock_commit]
  rcases ix.postgres.eventRow_writeEvents_eq_some hr with ⟨e, he, _, rfl⟩ | hold
  · exact fromLogBelow_of_commitsAt hc he
  · rw [hc.quiet.db] at hold
    -- The checkpoint has not gone back: the window starts at it and is in order.
    have ordered : range.fromBlock ≤ servedEnd := hc.answer.1.2 _ _ hc.starts hc.ends
    have := planned.start
    have := planned.nonempty
    exact (h k r hold).mono (by omega)

theorem keeps_belowCheckpoint {config : RuntimeConfig} :
    @Keeps Env ix (HttpWithinRequest ix) config chain dataset
      (fun w _ => BelowCheckpoint ix chain dataset w) (BelowCheckpoint ix chain dataset) where
  call h _ := h
  quiet h hw k r hr := by
    rw [hw.db] at hr ⊢
    exact h k r hr
  insert {w} h := by
    refine ⟨h, fun k r hr => ?_⟩
    have hnext : nextBlock chain dataset
        (w.record ix.postgres (insertOp chain dataset) (.ok ())).db =
        nextBlock chain dataset w.db := nextBlock_insert
    rw [hnext]
    exact h k r hr
  rollback {w _ _ _ _ rollbackBlock w'} h _ hroll := by
    have h' : BelowCheckpoint ix chain dataset w' := by
      intro k r hr
      rw [hroll.answered.quiet.db] at hr ⊢
      exact h k r hr
    refine ⟨h', fun ha k r hr => ?_⟩
    obtain ⟨hrow, hlt⟩ := blockNumber_lt_of_rollback ha.2 (fun r hr => h' k r hr) hr
    have hnext : nextBlock chain dataset
        (w'.record ix.postgres (rollbackOp chain dataset rollbackBlock) (.ok ())).db =
        rollbackBlock := nextBlock_rollback
    rw [hnext]
    exact (h' k r hrow).lower hlt
  commit {_ w _ _ _ _ w'} h turn hc := by
    refine ⟨fun k r hr => ?_, belowCheckpoint_commit h turn hc⟩
    rw [hc.quiet.db] at hr ⊢
    exact h k r hr

end

/-- **Nothing is stored at or beyond the checkpoint**, in every state of a run against the HTTP client
in which no log answer overreaches its request and every rollback finds the signature rows. -/
theorem stored_below_checkpoint {ix : Indexer} {config : RuntimeConfig} {chain : ChainConfig}
    {dataset : String} (hd : chainDataset chain.chainId = .ok dataset) {w : World Env}
    {t : Async ChainRunReport}
    (hr : Reachable (Serves ix (HttpWithinRequest ix)) (fun w => ∀ k, w.db.eventRow k = none)
      (fun w w' => w' = w) (runChainOnce config chain) w t) :
    BelowCheckpoint ix chain dataset w := by
  refine (keeps_belowCheckpoint.reachable hd (fun _ _ h => h) (fun w hempty k r hr => ?_)
    (fun w w' h hw => hw ▸ h) hr).1
  rw [hempty k] at hr
  cases hr

/-- A page with a log in block 103 and one in block 112. -/
def twoLogs (servedStart servedEnd : Nat) : QueryPage where
  servedStart := some servedStart
  servedEnd := some servedEnd
  incompleteReason := none
  nextCursor := none
  rows := [103, 112].map fun n => {
    asLog := .ok {
      blockNumber := n, blockHash := "0xaaaaa1", blockTimestamp := some 1700000000,
      transactionHash := "0x01", transactionIndex := 0, logIndex := 0, address := "0x02", topics := [],
      data := s!"0x{n}", transactionFrom := none }
    asBlock := .error [] }

/-- The head is block 109, it is final, and every request is served from its first block on. -/
def servesTwoLogs (servedEnd : DatalensLogQuery → Nat) :
    World Unit → (op : Op) → Except Error (Reply op)
  | _, .latestBlock .. => .ok 109
  | _, .finalizedHead _ => .ok 109
  | _, .queryLogs query =>
      if query.fromBlock ≤ servedEnd query then
        DatalensHttpClient.queryLogs (.ok (twoLogs query.fromBlock (servedEnd query))) query
      else .error []
  | _, _ => .error []

section

variable {servedEnd : DatalensLogQuery → Nat} {w : World Unit}

theorem answer_servesTwoLogs {query : DatalensLogQuery} {a : DatalensLogQueryResult}
    (h : reply hashIndexer (servesTwoLogs servedEnd) w (.queryLogs query) = .ok a) :
    query.fromBlock ≤ servedEnd query ∧
      DatalensHttpClient.queryLogs (.ok (twoLogs query.fromBlock (servedEnd query))) query = .ok a := by
  change (if query.fromBlock ≤ servedEnd query then
    DatalensHttpClient.queryLogs (.ok (twoLogs query.fromBlock (servedEnd query))) query
    else .error []) = .ok a at h
  split at h
  · exact ⟨by assumption, h⟩
  · cases h

theorem httpAnswers_servesTwoLogs (op : Op) (a : Reply op)
    (h : reply hashIndexer (servesTwoLogs servedEnd) w op = .ok a) : HttpAnswers w op a := by
  cases op with
  | queryLogs query =>
      obtain ⟨ordered, hpage⟩ := answer_servesTwoLogs h
      refine ⟨⟨_, hpage⟩, fun start stop hstart hstop => ?_⟩
      rw [(window_queryLogs hpage).1] at hstart
      rw [(window_queryLogs hpage).2] at hstop
      cases hstart
      cases hstop
      exact ordered
  | _ => trivial

end

/-- One pass over an empty store. -/
def indexTwoLogs (servedEnd : DatalensLogQuery → Nat) : World Unit :=
  evalPasses (simulate hashIndexer (servesTwoLogs servedEnd)) id
    (runChainOnce ⟨⟨0⟩, [], 0⟩ (darwinia 100 10 .latest)) 1 ⟨.empty, [], ()⟩

theorem reachable_indexTwoLogs {servedEnd : DatalensLogQuery → Nat} {allowed : Answers Unit}
    (h : ∀ w op a, reply hashIndexer (servesTwoLogs servedEnd) w op = .ok a → allowed w op a) :
    Reachable (Serves hashIndexer allowed) (fun w => ∀ k, w.db.eventRow k = none)
      (fun w w' => w' = w) (runChainOnce ⟨⟨0⟩, [], 0⟩ (darwinia 100 10 .latest))
      (indexTwoLogs servedEnd) (runChainOnce ⟨⟨0⟩, [], 0⟩ (darwinia 100 10 .latest)) := by
  refine reachable_evalPasses (serves_simulate h) (fun _ => ?_) (fun k => eventRow_empty k) 1
  rfl

/-- Blocks 100 to 109 are asked for and blocks 100 to 115 are served: the log of block 112 is stored, and
the checkpoint is 110. -/
theorem overreach_stores_beyond_checkpoint : ∃ (w : World Unit) (t : Async ChainRunReport),
    Reachable (Serves hashIndexer HttpAnswers) (fun w => ∀ k, w.db.eventRow k = none)
      (fun w w' => w' = w) (runChainOnce ⟨⟨0⟩, [], 0⟩ (darwinia 100 10 .latest)) w t ∧
    nextBlock (darwinia 100 10 .latest) EVM_LOGS_DATASET w.db = 110 ∧
    (w.db.eventRow (.ormpHashImported, "0x112")).map (·.blockNumber) = some 112 ∧
    ¬BelowCheckpoint hashIndexer (darwinia 100 10 .latest) EVM_LOGS_DATASET w := by
  have next : nextBlock (darwinia 100 10 .latest) EVM_LOGS_DATASET
      (indexTwoLogs fun query => query.toBlock + 6).db = 110 := by decide +kernel
  have stored : ((indexTwoLogs fun query => query.toBlock + 6).db.eventRow
      (.ormpHashImported, "0x112")).map (·.blockNumber) = some 112 := by decide +kernel
  refine ⟨_, _, reachable_indexTwoLogs fun _ => httpAnswers_servesTwoLogs, next, stored,
    fun below => ?_⟩
  obtain ⟨r, hr, hblock⟩ := Option.map_eq_some_iff.mp stored
  obtain ⟨log, events, hdecode, _, hlt, e, he, rfl⟩ := below _ r hr
  rw [blockNumber_rowOf, (hashIndexer.decoder.keepsLog hdecode e he).blockNumber] at hblock
  omega

/-- The same page served up to the request. -/
theorem stored_below_checkpoint_servedAsRequested :
    nextBlock (darwinia 100 10 .latest) EVM_LOGS_DATASET
        (indexTwoLogs fun query => query.toBlock).db = 110 ∧
      BelowCheckpoint hashIndexer (darwinia 100 10 .latest) EVM_LOGS_DATASET
        (indexTwoLogs fun query => query.toBlock) := by
  refine ⟨by decide +kernel, stored_below_checkpoint rfl
    (reachable_indexTwoLogs fun w op a h => ⟨httpAnswers_servesTwoLogs op a h, ?_⟩)⟩
  cases op with
  | queryLogs query =>
      rintro ⟨_, _, events, hdecoded, e, he, hlt⟩
      obtain ⟨_, hpage⟩ := answer_servesTwoLogs h
      obtain ⟨log, hlog, es, hdecode, hes⟩ := (mem_of_decodeAll hdecoded).mp he
      obtain ⟨_, start, hstart, _, hserved⟩ := mem_queryLogs hpage hlog
      rw [(window_queryLogs hpage).2] at hserved
      rw [(hashIndexer.decoder.keepsLog hdecode e hes).blockNumber] at hlt
      change log.blockNumber ≤ query.toBlock at hserved
      omega
  | rollbackLegacyFrom chainId dataset rollbackBlock => cases h
  | _ => trivial

end Runner

end OrmpIndexer
