/-
# OrmpIndexer.Runner.Canonical — a chain that reorganises between passes

A block is known by its number and its hash, and the logs of a block never change. What can change is
which hash is canonical at a number (`CanonicalChain.hashAt`). A reader that answers from one canonical
chain gives complete answers for the blocks the chain has (`CanonicalAnswers`); between two passes the
chain may be replaced by another one that agrees with it where a reorganisation cannot reach (`Reorg`).
-/
import OrmpIndexer.Database.Rollback
import OrmpIndexer.Foundation.Layers
import OrmpIndexer.Runner.Frontier

namespace OrmpIndexer

open Foundation Foundation.Task

namespace Runner

/-! ## The rows of a block -/

/-- The events of the logs that decode. -/
def eventsOf (decoder : EventDecoder) (logs : List DatalensLog) : List LegacyOrmPEvent :=
  logs.flatMap fun log =>
    match decoder.decode log with
    | .ok events => events
    | .error _ => []

theorem eventsOf_of_decodeAll {decoder : EventDecoder} {logs : List DatalensLog}
    {events : List LegacyOrmPEvent} (h : decodeAll decoder logs = .ok events) :
    eventsOf decoder logs = events := by
  induction logs generalizing events with
  | nil =>
      cases h
      rfl
  | cons log logs ih =>
      obtain ⟨first, rest, hfirst, hrest, rfl⟩ := decodeAll_cons_eq_ok.mp h
      rw [eventsOf, List.flatMap_cons, hfirst]
      exact congrArg (first ++ ·) (ih hrest)

theorem mem_eventsOf {decoder : EventDecoder} {logs : List DatalensLog} {e : LegacyOrmPEvent} :
    e ∈ eventsOf decoder logs ↔ ∃ log ∈ logs, ∃ es, decoder.decode log = .ok es ∧ e ∈ es := by
  rw [eventsOf, List.mem_flatMap]
  refine exists_congr fun log => and_congr_right fun _ => ?_
  cases decoder.decode log with
  | ok es => simp
  | error e => simp

/-- The matching logs of every block a chain can have. -/
structure BlockLogs (chainId : Nat) where
  logs (blockNumber : Nat) (blockHash : String) : List DatalensLog
  ofBlock : ∀ {n blockHash}, ∀ log ∈ logs n blockHash, log.chainId = chainId ∧ log.blockNumber = n

namespace BlockLogs

variable {chainId : Nat} (blocks : BlockLogs chainId) (decoder : EventDecoder)

def events (blockNumber : Nat) (blockHash : String) : List LegacyOrmPEvent :=
  eventsOf decoder (blocks.logs blockNumber blockHash)

/-- The rows decoded from a block, by table and row id. -/
def rows (blockNumber : Nat) (blockHash : String) (k : LegacyTable × String) : Option LegacyRow :=
  (lastWhere (fun e => eventKey e == k) (blocks.events decoder blockNumber blockHash)).map rowOf

variable {blocks decoder} {n : Nat} {blockHash : String} {k : LegacyTable × String} {r : LegacyRow}

theorem mem_events_of_rows (h : blocks.rows decoder n blockHash k = some r) :
    ∃ e ∈ blocks.events decoder n blockHash, eventKey e = k ∧ rowOf e = r := by
  obtain ⟨e, he, rfl⟩ := Option.map_eq_some_iff.mp h
  exact ⟨e, mem_of_lastWhere he, by simpa using holds_of_lastWhere he, rfl⟩

theorem blockNumber_of_mem_events {e : LegacyOrmPEvent} (h : e ∈ blocks.events decoder n blockHash) :
    e.metadata.blockNumber = n := by
  obtain ⟨log, hlog, es, hdecode, he⟩ := mem_eventsOf.mp h
  rw [(decoder.keepsLog hdecode e he).blockNumber, (blocks.ofBlock log hlog).2]

theorem blockNumber_of_rows (h : blocks.rows decoder n blockHash k = some r) : r.blockNumber = n := by
  obtain ⟨e, he, _, rfl⟩ := mem_events_of_rows h
  rw [blockNumber_rowOf, blockNumber_of_mem_events he]

theorem fromLogBelow_of_rows (h : blocks.rows decoder n blockHash k = some r) {next : Nat}
    (hlt : n < next) : FromLogBelow decoder chainId next r := by
  obtain ⟨e, he, _, rfl⟩ := mem_events_of_rows h
  obtain ⟨log, hlog, es, hdecode, hes⟩ := mem_eventsOf.mp he
  obtain ⟨hchain, hblock⟩ := blocks.ofBlock log hlog
  exact ⟨log, es, hdecode, hchain, by omega, e, hes, rfl⟩

end BlockLogs

/-! ## The canonical chain -/

/-- One canonical chain: its blocks, and that no row id occurs in two of them. -/
structure CanonicalChain {chainId : Nat} (decoder : EventDecoder) (blocks : BlockLogs chainId) where
  hashAt : Nat → String
  head : Nat
  unique : ∀ {m n}, m ≤ head → n ≤ head → ∀ e ∈ blocks.events decoder m (hashAt m),
    ∀ e' ∈ blocks.events decoder n (hashAt n), eventKey e = eventKey e' → m = n

namespace CanonicalChain

variable {chainId : Nat} {decoder : EventDecoder} {blocks : BlockLogs chainId}

/-- The logs of the blocks of a range. -/
def logs (view : CanonicalChain decoder blocks) (range : BlockRange) : List DatalensLog :=
  (blockNumbers range).flatMap fun n => blocks.logs n (view.hashAt n)

/-- The rows decoded from a block of the chain. -/
def rows (view : CanonicalChain decoder blocks) (n : Nat) : LegacyTable × String → Option LegacyRow :=
  blocks.rows decoder n (view.hashAt n)

/-- The rows a range of blocks writes are those of its blocks. -/
theorem layered_logs {view : CanonicalChain decoder blocks} {range : BlockRange}
    {events : List LegacyOrmPEvent} (hdecode : decodeAll decoder (view.logs range) = .ok events)
    (hhead : range.toBlock ≤ view.head) :
    Layered view.rows range.fromBlock (range.toBlock + 1) fun k =>
      (lastWhere (fun e => eventKey e == k) events).map rowOf := by
  have hevents : events =
      (blockNumbers range).flatMap fun n => blocks.events decoder n (view.hashAt n) := by
    rw [← eventsOf_of_decodeAll hdecode, logs, eventsOf, List.flatMap_assoc]
    rfl
  -- only one block has events under a key
  have alone : ∀ {n k e}, n ∈ blockNumbers range → e ∈ blocks.events decoder n (view.hashAt n) →
      eventKey e = k → lastWhere (fun e => eventKey e == k) events =
        lastWhere (fun e => eventKey e == k) (blocks.events decoder n (view.hashAt n)) := by
    intro n k e hn he hk
    rw [hevents]
    apply lastWhere_flatMap_of_unique hn
    intro m hm hne e' he'
    refine beq_eq_false_iff_ne.mpr fun hk' => hne ?_
    have hmle := (mem_blockNumbers.mp hm).2
    have hnle := (mem_blockNumbers.mp hn).2
    exact view.unique (by omega) (by omega) e' he' e he (hk'.trans hk.symm)
  intro k r
  constructor
  · intro hr
    obtain ⟨e, he, rfl⟩ := Option.map_eq_some_iff.mp hr
    have hmem := mem_of_lastWhere he
    rw [hevents] at hmem
    obtain ⟨n, hn, hen⟩ := List.mem_flatMap.mp hmem
    have hk : eventKey e = k := by simpa using holds_of_lastWhere he
    obtain ⟨hfrom, hto⟩ := mem_blockNumbers.mp hn
    refine ⟨n, hfrom, by omega, ?_⟩
    rw [alone hn hen hk] at he
    show (lastWhere _ _).map rowOf = _
    rw [he]
    rfl
  · rintro ⟨n, hfrom, hto, hr⟩
    have hn : n ∈ blockNumbers range := mem_blockNumbers.mpr ⟨hfrom, by omega⟩
    obtain ⟨e, he, hk, _⟩ := BlockLogs.mem_events_of_rows hr
    show (lastWhere _ events).map rowOf = some r
    rw [alone hn he hk]
    exact hr

end CanonicalChain

/-! ## Answers from one chain, and reorganisations between passes -/

/-- The block was reported at or below the finalized head. -/
def Final (chainId : Nat) (past : List Call) (n : Nat) : Prop :=
  ∃ finalized : Nat, (⟨.finalizedHead chainId, .ok finalized⟩ : Call) ∈ past ∧ n ≤ finalized

/-- The finalized heads reported so far. -/
def reportedUpTo (finalized : Nat) (past : List Call) : Bool :=
  past.all fun
    | ⟨.finalizedHead _, .ok before⟩ => before ≤ finalized
    | _ => true

theorem le_of_reportedUpTo {finalized chainId before : Nat} {past : List Call}
    (h : reportedUpTo finalized past = true)
    (hmem : (⟨.finalizedHead chainId, .ok before⟩ : Call) ∈ past) : before ≤ finalized := by
  simpa using List.all_eq_true.mp h _ hmem

section

variable {decoder : EventDecoder} (config : RuntimeConfig) (chain : ChainConfig) (dataset : String)
variable {blocks : BlockLogs chain.chainId}

/-- The reader answers from the canonical chain: completely as far as the chain goes, and with finalized
heads that never decrease. -/
def CanonicalAnswers : Answers (CanonicalChain decoder blocks)
  | w, .latestBlock .., latestBlock => latestBlock ≤ w.env.head
  | w, .finalizedHead chainId, finalized =>
      ∀ before : Nat, (⟨.finalizedHead chainId, .ok before⟩ : Call) ∈ w.past → before ≤ finalized
  | w, .queryLogs query, result => query.toBlock ≤ w.env.head →
      result.servedStart = some query.fromBlock ∧ result.servedEnd = some query.toBlock ∧
        result.logs = w.env.logs ⟨query.fromBlock, query.toBlock⟩
  | w, .queryBlocks query, result => query.toBlock ≤ w.env.head →
      result.covers query.fromBlock query.toBlock = true ∧
        ∀ n, query.fromBlock ≤ n → n ≤ query.toBlock →
          ∃ block, listedBlock result.blocks n = some block ∧ block.blockHash = w.env.hashAt n
  | _, _, _ => True

/-- Another chain becomes canonical between two passes. It has every block that is indexed, and agrees
with the old one on the blocks that were reported final and on those below the reorg window. -/
structure Reorg (w w' : World (CanonicalChain decoder blocks)) : Prop where
  db : w'.db = w.db
  past : w'.past = w.past
  reaches : ∀ n, chain.startBlock ≤ n → n < nextBlock chain dataset w.db → n ≤ w'.env.head
  final : ∀ n, Final chain.chainId w.past n → w'.env.hashAt n = w.env.hashAt n
  agrees : ∀ n, chain.startBlock ≤ n → n < nextBlock chain dataset w.db - config.reorgWindowBlocks →
    w'.env.hashAt n = w.env.hashAt n

/-- The condition on the steps of a run. No anchored block inside the reorg window is reported final
while the canonical chain has other rows there; and rollbacks find the signature rows. -/
def FinalAsAnchored (pg : Postgres) : Answers (CanonicalChain decoder blocks)
  | w, .finalizedHead _, finalized => ∀ n anchor, chain.startBlock ≤ n →
      nextBlock chain dataset w.db - config.reorgWindowBlocks ≤ n → n ≤ finalized →
      w.db.blockAnchor.get (chain.chainId, dataset, n) = some anchor →
      blocks.rows decoder n anchor.blockHash = w.env.rows n
  | w, .rollbackLegacyFrom chainId dataset' rollbackBlock, _ =>
      FindsSignatures pg w.db chainId dataset' rollbackBlock
  | _, _, _ => True

/-- Both. -/
def CanonicalFinalAsAnchored (pg : Postgres) : Answers (CanonicalChain decoder blocks) :=
  fun w op a => CanonicalAnswers chain w op a ∧ FinalAsAnchored config chain dataset pg w op a

end

end Runner

end OrmpIndexer
