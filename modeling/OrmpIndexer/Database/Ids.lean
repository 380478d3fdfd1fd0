/-
# OrmpIndexer.Database.Ids — does every log have a row of its own?

All chains write into the same seven tables. An assignment is filed under the id of its log, which names the
chain, the block, and the log in the block. The rows of the port and of the signatures have the id of the
former indexer: block number, five digits of the block hash, log index, and no chain.

A log keeps its row exactly as long as no other log has the same id (`oneRowPerLog_iff`). So assignments are
never lost, and the other logs are lost exactly when two chains agree in all three parts (`one_row_per_log_iff`).
-/
import OrmpIndexer.Database.Replay
import OrmpIndexer.Database.Spelling
import Mathlib.Data.Finset.Basic
import Mathlib.Data.Set.Function

namespace OrmpIndexer

open Foundation

/-- A log that the client made of a row, with its event. -/
structure DecodesTo (crates : Crates) (log : DatalensLog) (e : LegacyOrmPEvent) : Prop where
  client : ∃ row chainId, logFromRow row chainId = .ok log
  event : decodeEvmLog crates log = .ok e

/-- The logs whose events belong into a table. -/
def logsOf (logs : Finset DatalensLog) (event : DatalensLog → LegacyOrmPEvent) (t : LegacyTable) :
    Set DatalensLog :=
  {log | log ∈ logs ∧ (eventKey (event log)).1 = t}

/-- Every log has its row, and there are no other rows. -/
structure OneRowPerLog (db : Database) (logs : Finset DatalensLog)
    (event : DatalensLog → LegacyOrmPEvent) (t : LegacyTable) : Prop where
  row : ∀ log ∈ logsOf logs event t, db.eventRow (eventKey (event log)) = some (rowOf (event log))
  bijOn : Set.BijOn (fun log => (eventKey (event log)).2) (logsOf logs event t)
    {id | (db.eventRow (t, id)).isSome}

/-- Logs of different chains differ in the block number, in the log index or in what is kept of the hash. -/
def ChainsApart (logs : Finset DatalensLog) (event : DatalensLog → LegacyOrmPEvent)
    (t : LegacyTable) : Prop :=
  ∀ log ∈ logsOf logs event t, ∀ log' ∈ logsOf logs event t,
    log.blockNumber = log'.blockNumber → log.logIndex = log'.logIndex →
      log.blockHash.map blockHashPrefix = log'.blockHash.map blockHashPrefix →
        log.chainId = log'.chainId

section

variable {crates : Crates} {logs : Finset DatalensLog} {event : DatalensLog → LegacyOrmPEvent}

/-! ## Rows -/

theorem eventKey_of_mem {t : LegacyTable} {log : DatalensLog} (h : log ∈ logsOf logs event t) :
    eventKey (event log) = (t, (eventKey (event log)).2) := by
  rw [← h.2]

variable {pg : Postgres} {db : Database} {batches : List (List DatalensLog)}

theorem writeBatches_eq : batches.foldl (fun db batch => pg.writeEvents db (batch.map event)) db =
    pg.writeEvents db (batches.flatten.map event) := by
  have hmap : ∀ d, batches.foldl (fun db batch => pg.writeEvents db (batch.map event)) d =
      (batches.map (List.map event)).foldl pg.writeEvents d := fun d => by rw [List.foldl_map]
  rw [hmap, pg.foldl_writeEvents, List.map_flatten]

/-- The logs of a table have one row each exactly if their ids are different. -/
theorem oneRowPerLog_iff (hdb : ∀ k, db.eventRow k = none)
    (hbatches : ∀ log, log ∈ batches.flatten ↔ log ∈ logs) (t : LegacyTable) :
    OneRowPerLog (batches.foldl (fun db batch => pg.writeEvents db (batch.map event)) db) logs
        event t ↔
      Set.InjOn (fun log => (eventKey (event log)).2) (logsOf logs event t) := by
  rw [writeBatches_eq]
  have hrow : ∀ k, (pg.writeEvents db (batches.flatten.map event)).eventRow k =
      (lastWhere (fun log => eventKey (event log) == k) batches.flatten).map (rowOf ∘ event) := by
    intro k
    rw [pg.eventRow_writeEvents, hdb, Option.or_none, lastWhere_map, Option.map_map]
  refine ⟨fun h => h.bijOn.injOn, fun hinj => ⟨fun log hlog => ?_, ⟨fun log hlog => ?_, hinj, ?_⟩⟩⟩
  · have hlast : lastWhere (fun log' => eventKey (event log') == eventKey (event log))
        batches.flatten = some log := by
      refine lastWhere_eq_of_forall ((hbatches log).mpr hlog.1) (beq_self_eq_true _) ?_
      intro log' hlog' hkey
      have hkey : eventKey (event log') = eventKey (event log) := beq_iff_eq.mp hkey
      refine hinj ⟨(hbatches log').mp hlog', ?_⟩ hlog (congrArg Prod.snd hkey)
      rw [hkey]
      exact hlog.2
    rw [hrow, hlast]
    rfl
  · show Option.isSome _ = true
    rw [← eventKey_of_mem hlog, hrow, Option.isSome_map, lastWhere_isSome_iff]
    exact ⟨log, (hbatches log).mpr hlog.1, beq_self_eq_true _⟩
  · intro id hid
    have hid : Option.isSome _ = true := hid
    rw [hrow, Option.isSome_map, lastWhere_isSome_iff] at hid
    obtain ⟨log, hlog, hkey⟩ := hid
    have hkey : eventKey (event log) = (t, id) := beq_iff_eq.mp hkey
    exact ⟨log, ⟨(hbatches log).mp hlog, congrArg Prod.fst hkey⟩, congrArg Prod.snd hkey⟩

/-! ## Ids -/

theorem DecodesTo.place {log : DatalensLog} {e : LegacyOrmPEvent} (h : DecodesTo crates log e) :
    ∃ hash, log.blockHash = some hash ∧ e.metadata.blockHash = some hash ∧
      e.metadata.blockNumber = log.blockNumber ∧ e.metadata.logIndex = (log.logIndex : Int) ∧
      e.metadata.id = logId log.chainId log.blockNumber log.transactionHash log.logIndex := by
  obtain ⟨row, chainId, hlog⟩ := h.client
  obtain ⟨rfl, hsome, hid⟩ := logFromRow_eq_ok hlog
  obtain ⟨hash, hhash⟩ := Option.isSome_iff_exists.mp hsome
  have hkeeps := keepsLog_of_decodeEvmLog h.event
  exact ⟨hash, hhash, hkeeps.blockHash.trans hhash, hkeeps.blockNumber, hkeeps.logIndex,
    Option.some.inj (hkeeps.id.symm.trans hid)⟩

theorem id_messageAssigned {e : LegacyOrmPEvent} (h : (eventKey e).1 = .ormpMessageAssigned) :
    (eventKey e).2 = e.metadata.id := by
  cases e with
  | messageAssigned a => rfl
  | _ => cases h

/-- The tables whose rows have the id of the former indexer. -/
def legacyIdTables : List LegacyTable :=
  [.msgportMessageRecv, .msgportMessageSent, .signaturePubSignatureSubmittion]

theorem id_of_legacyIdTables {e : LegacyOrmPEvent} (h : (eventKey e).1 ∈ legacyIdTables) :
    (eventKey e).2 = legacyEventLogId e.metadata := by
  cases e with
  | msgportMessageRecv _ => rfl
  | msgportMessageSent _ => rfl
  | signatureSubmittion _ => rfl
  | _ => simp [eventKey, LegacyRow.key, LegacyRow.table, rowOf, legacyIdTables] at h

section

variable (hdecoded : ∀ log ∈ logs, DecodesTo crates log (event log))
  (hone : ∀ log ∈ logs, ∀ log' ∈ logs, log.chainId = log'.chainId →
    log.blockNumber = log'.blockNumber → log.logIndex = log'.logIndex → log = log')

include hdecoded hone

theorem injOn_ids_messageAssigned : Set.InjOn (fun log => (eventKey (event log)).2)
    (logsOf logs event .ormpMessageAssigned) := by
  intro log hlog log' hlog' h
  obtain ⟨_, _, _, _, _, hid⟩ := (hdecoded log hlog.1).place
  obtain ⟨_, _, _, _, _, hid'⟩ := (hdecoded log' hlog'.1).place
  have h : (eventKey (event log)).2 = (eventKey (event log')).2 := h
  rw [id_messageAssigned hlog.2, id_messageAssigned hlog'.2, hid, hid'] at h
  obtain ⟨hchain, hnumber, hindex⟩ := logId_inj h
  exact hone log hlog.1 log' hlog'.1 hchain hnumber hindex

theorem injOn_ids_iff {t : LegacyTable} (ht : t ∈ legacyIdTables) :
    Set.InjOn (fun log => (eventKey (event log)).2) (logsOf logs event t) ↔
      ChainsApart logs event t := by
  have hids : ∀ log ∈ logsOf logs event t, ∀ log' ∈ logsOf logs event t,
      (eventKey (event log)).2 = (eventKey (event log')).2 ↔
        log.blockNumber = log'.blockNumber ∧
          log.blockHash.map blockHashPrefix = log'.blockHash.map blockHashPrefix ∧
          log.logIndex = log'.logIndex := by
    intro log hlog log' hlog'
    obtain ⟨hash, hhash, hkept, hnumber, hindex, _⟩ := (hdecoded log hlog.1).place
    obtain ⟨hash', hhash', hkept', hnumber', hindex', _⟩ := (hdecoded log' hlog'.1).place
    rw [id_of_legacyIdTables (hlog.2 ▸ ht), id_of_legacyIdTables (hlog'.2 ▸ ht),
      legacyEventLogId_eq_iff hkept hkept' hindex hindex', hnumber, hnumber', hhash, hhash']
    simp
  constructor
  · intro hinj log hlog log' hlog' hnumber hindex hkept
    rw [hinj hlog hlog' ((hids log hlog log' hlog').mpr ⟨hnumber, hkept, hindex⟩)]
  · intro hapart log hlog log' hlog' h
    obtain ⟨hnumber, hkept, hindex⟩ := (hids log hlog log' hlog').mp h
    exact hone log hlog.1 log' hlog'.1 (hapart log hlog log' hlog' hnumber hindex hkept) hnumber hindex

/-- **One row per log.** Whatever the order and the batches, every assignment has its row. The logs of the port
and of the signatures have theirs exactly if chains do not agree in block number, log index and kept hash. -/
theorem one_row_per_log_iff (pg : Postgres) {db : Database} (hdb : ∀ k, db.eventRow k = none)
    {batches : List (List DatalensLog)} (hbatches : ∀ log, log ∈ batches.flatten ↔ log ∈ logs) :
    OneRowPerLog (batches.foldl (fun db batch => pg.writeEvents db (batch.map event)) db) logs
      event .ormpMessageAssigned ∧
    ∀ t ∈ legacyIdTables,
      (OneRowPerLog (batches.foldl (fun db batch => pg.writeEvents db (batch.map event)) db) logs
        event t ↔ ChainsApart logs event t) :=
  ⟨(oneRowPerLog_iff hdb hbatches _).mpr (injOn_ids_messageAssigned hdecoded hone),
    fun _ ht => (oneRowPerLog_iff hdb hbatches _).trans (injOn_ids_iff hdecoded hone ht)⟩

end

end

/-! ## Two chains at the same height -/

def encodeFlag : List Token → List UInt8
  | [.bool flag, .bytes []] => bigEndian 32 flag.toNat ++ bigEndian 32 64 ++ bigEndian 32 0
  | _ => []

/-- `ethabi` for a flag and empty bytes. -/
def decodeFlag : List ParamType → List UInt8 → Except Error (List Token)
  | [.bool, .bytes], data => .ok [.bool (ofBigEndian (data.take 32) == 1), .bytes []]
  | _, _ => .error ["not a flag and bytes"]

def flagCrates : Crates := { wordCrates with abiDecode := decodeFlag }

/-- A message that the port delivered. -/
def deliveredMessage : ContractEvent :=
  .msgportMessageRecv ⟨List.replicate 32 0x33, List.length_replicate⟩ true []

/-- Where the client puts its log. -/
def deliveredPlace (chainId : Nat) (blockHash : String) : DatalensLog where
  id := some (logId chainId 12054798 "0x2a8d" 4)
  chainId := chainId
  blockNumber := 12054798
  blockHash := some blockHash
  parentHash := none
  blockTimestamp := some 1732494016
  transactionHash := "0x2a8d"
  transactionIndex := some 0
  logIndex := 4
  address := MSGPORT_ADDRESS
  transactionFrom := none
  topics := []
  data := "0x"

def deliveredLog (chainId : Nat) (blockHash : String) : DatalensLog :=
  deliveredMessage.emit encodeFlag .indexedInTopics (deliveredPlace chainId blockHash)

/-- The row of the answer. -/
def deliveredValue (blockHash : String) : Value where
  asLog := .ok {
    blockNumber := 12054798
    blockHash := blockHash
    blockTimestamp := some 1732494016
    transactionHash := "0x2a8d"
    transactionIndex := 0
    logIndex := 4
    address := MSGPORT_ADDRESS
    topics := deliveredMessage.topics .indexedInTopics
    data := ContractEvent.spelled (encodeFlag (deliveredMessage.dataTokens .indexedInTopics))
    transactionFrom := none }
  asBlock := .error ["missing field number"]

theorem decodesTo_deliveredLog (chainId : Nat) (blockHash : String) :
    ∃ m, DecodesTo flagCrates (deliveredLog chainId blockHash) (.msgportMessageRecv m) := by
  have haddress : HexText MSGPORT_ADDRESS := by
    unfold HexText
    decide +kernel
  have hhash : HexText "0x2a8d" := by
    unfold HexText
    decide +kernel
  have hpresent : MetadataPresent (deliveredPlace chainId blockHash) :=
    ⟨rfl, rfl, hhash, rfl, Nat.le_of_ble_eq_true rfl, haddress, nofun⟩
  have hundone : decodeFlag (deliveredMessage.dataTypes .indexedInTopics)
      (encodeFlag (deliveredMessage.dataTokens .indexedInTopics)) =
        .ok (deliveredMessage.dataTokens .indexedInTopics) := by rfl
  obtain ⟨metadata, _, hsmall, -⟩ := decodeEvmLog_emit
    (documented_withAbi documented_wordCrates decodeFlag) deliveredMessage .indexedInTopics
    hpresent hundone
  exact ⟨_, ⟨deliveredValue blockHash, chainId, rfl⟩, hsmall nofun⟩

/-- The logs of chain 1 and of chain 46 at that height. -/
def twoDelivered (blockHash blockHash' : String) : Finset DatalensLog :=
  {deliveredLog 1 blockHash, deliveredLog 46 blockHash'}

/-- The events of the two. -/
theorem exists_events_twoDelivered (blockHash blockHash' : String) :
    ∃ event : DatalensLog → LegacyOrmPEvent,
      (∀ log ∈ twoDelivered blockHash blockHash', DecodesTo flagCrates log (event log)) ∧
      ∀ log, (eventKey (event log)).1 = .msgportMessageRecv := by
  obtain ⟨m, hm⟩ := decodesTo_deliveredLog 1 blockHash
  obtain ⟨m', hm'⟩ := decodesTo_deliveredLog 46 blockHash'
  refine ⟨fun log => .msgportMessageRecv (if log.chainId = 1 then m else m'), fun log hlog => ?_,
    fun _ => rfl⟩
  rcases Finset.mem_insert.mp hlog with rfl | hlog
  · exact hm
  · obtain rfl := Finset.mem_singleton.mp hlog
    exact hm'

/-- The chain determines the log. -/
theorem twoDelivered_determined {blockHash blockHash' : String} :
    ∀ log ∈ twoDelivered blockHash blockHash', ∀ log' ∈ twoDelivered blockHash blockHash',
      log.chainId = log'.chainId → log = log' := by
  intro log hlog log' hlog' hchain
  rcases Finset.mem_insert.mp hlog with rfl | hlog <;>
    rcases Finset.mem_insert.mp hlog' with rfl | hlog'
  · rfl
  · obtain rfl := Finset.mem_singleton.mp hlog'
    cases hchain
  · obtain rfl := Finset.mem_singleton.mp hlog
    cases hchain
  · rw [Finset.mem_singleton.mp hlog, Finset.mem_singleton.mp hlog']

/-- Block hashes that differ in their first five digits keep the two rows apart. -/
theorem one_row_per_log_iff_twoDelivered :
    ∃ event : DatalensLog → LegacyOrmPEvent,
      OneRowPerLog ([[deliveredLog 46 "0x6de65e48"], [deliveredLog 1 "0x5bcb0e48"]].foldl
          (fun db batch => Postgres.legacyStore.writeEvents db (batch.map event)) .empty)
        (twoDelivered "0x5bcb0e48" "0x6de65e48") event .msgportMessageRecv := by
  obtain ⟨event, hdecoded, _⟩ := exists_events_twoDelivered "0x5bcb0e48" "0x6de65e48"
  refine ⟨event, ((one_row_per_log_iff hdecoded
    (fun log hlog log' hlog' h _ _ => twoDelivered_determined log hlog log' hlog' h)
    Postgres.legacyStore eventRow_empty ?_).2 _ (by decide)).mpr ?_⟩
  · intro log
    simp [twoDelivered, or_comm]
  · have hkept : blockHashPrefix "0x5bcb0e48" ≠ blockHashPrefix "0x6de65e48" := by decide +kernel
    intro log hlog log' hlog' _ _ h
    rcases Finset.mem_insert.mp hlog.1 with rfl | hmem <;>
      rcases Finset.mem_insert.mp hlog'.1 with rfl | hmem'
    · rfl
    · obtain rfl := Finset.mem_singleton.mp hmem'
      exact absurd (Option.some.inj h) hkept
    · obtain rfl := Finset.mem_singleton.mp hmem
      exact absurd (Option.some.inj h).symm hkept
    · rw [Finset.mem_singleton.mp hmem, Finset.mem_singleton.mp hmem']

/-- Block hashes with the same five digits do not: one message replaces the other. -/
theorem delivered_row_replaced :
    ∃ event : DatalensLog → LegacyOrmPEvent,
      (∀ log ∈ twoDelivered "0x6de65e48" "0x6de65aaa", DecodesTo flagCrates log (event log)) ∧
      (∀ log ∈ twoDelivered "0x6de65e48" "0x6de65aaa", ∀ log' ∈ twoDelivered "0x6de65e48" "0x6de65aaa",
        log.chainId = log'.chainId → log.blockNumber = log'.blockNumber →
          log.blockHash = log'.blockHash ∧ (log.logIndex = log'.logIndex → log = log')) ∧
      ¬ OneRowPerLog ([[deliveredLog 1 "0x6de65e48"], [deliveredLog 46 "0x6de65aaa"]].foldl
          (fun db batch => Postgres.legacyStore.writeEvents db (batch.map event)) .empty)
        (twoDelivered "0x6de65e48" "0x6de65aaa") event .msgportMessageRecv := by
  obtain ⟨event, hdecoded, htable⟩ := exists_events_twoDelivered "0x6de65e48" "0x6de65aaa"
  refine ⟨event, hdecoded, fun log hlog log' hlog' hchain _ => ?_, fun h => ?_⟩
  · have hsame := twoDelivered_determined log hlog log' hlog' hchain
    exact ⟨congrArg _ hsame, fun _ => hsame⟩
  have hbatches : ∀ log, log ∈ [[deliveredLog 1 "0x6de65e48"], [deliveredLog 46 "0x6de65aaa"]].flatten ↔
      log ∈ twoDelivered "0x6de65e48" "0x6de65aaa" := by
    intro log
    simp [twoDelivered]
  have hapart := (injOn_ids_iff hdecoded
    (fun log hlog log' hlog' h _ _ => twoDelivered_determined log hlog log' hlog' h) (by decide)).mp
      ((oneRowPerLog_iff eventRow_empty hbatches _).mp h)
  have hkept : blockHashPrefix "0x6de65e48" = blockHashPrefix "0x6de65aaa" := by decide +kernel
  have hchain : (deliveredLog 1 "0x6de65e48").chainId = (deliveredLog 46 "0x6de65aaa").chainId :=
    hapart _ ⟨Finset.mem_insert_self _ _, htable _⟩ _
      ⟨Finset.mem_insert_of_mem (Finset.mem_singleton_self _), htable _⟩ rfl rfl
      (congrArg some hkept)
  cases hchain

end OrmpIndexer
