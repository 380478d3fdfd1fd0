/-
# OrmpIndexer.Decoder.Evm — from a log to its event

`decoder/evm.rs` and `decoder/types.rs`. The first topic selects the decoder; the metadata is read from
the log alone (`keepsLog_of_evmMetadata` says what it keeps).

`EventDecoder` is the trait the runner is generic in, together with the one law the rest of the
development needs: an event keeps the chain, the block and the block hash of its log.
-/
import OrmpIndexer.Datalens.Types
import OrmpIndexer.Datalens.Query
import OrmpIndexer.Decoder.Abi
import OrmpIndexer.Planner

namespace OrmpIndexer

/-- What all events of a log share. A log without an id, a time or an index in its transaction is refused. -/
def evmMetadata (log : DatalensLog) : Except Error ChainLogMetadata := do
  let blockTimestamp ← contextOption "EVM log is missing block timestamp" log.blockTimestamp
  let blockTimestamp ← contextOption "EVM block timestamp overflows u64"
    (normalizeBlockTimestamp blockTimestamp)
  let id ← contextOption "EVM log is missing legacy event id" log.id
  let transactionHash ← normalizeHex log.transactionHash
  let transactionIndex ←
    contextOption "EVM log is missing transaction index" log.transactionIndex
  let logIndex ← i32TryFrom "EVM log index overflows i32" log.logIndex
  let contractAddress ← normalizeHex log.address
  let transactionFrom ← log.transactionFrom.mapM normalizeHex
  return {
    id, chainId := log.chainId, blockNumber := log.blockNumber, blockHash := log.blockHash,
    blockTimestamp, transactionHash, transactionIndex, logIndex, contractAddress,
    transactionFrom }

/-- The first topic chooses the decoder. -/
def decodeEvmLog (crates : Crates) (log : DatalensLog) : Except Error LegacyOrmPEvent := do
  let topic0 ← log.topics.head?.mapM normalizeHex
  let topic0 ← contextOption "EVM log is missing topic0" topic0
  let metadata ← evmMetadata log
  let data ← context "decode EVM log data" (decodeHex crates log.data)
  if topic0 = ORMP_HASH_IMPORTED_TOPIC then
    decodeHashImported crates metadata log.topics data
  else if topic0 = ORMP_MESSAGE_ACCEPTED_TOPIC then
    decodeMessageAccepted crates metadata log.topics data
  else if topic0 = ORMP_MESSAGE_ASSIGNED_TOPIC then
    decodeMessageAssigned crates metadata log.topics data
  else if topic0 = ORMP_MESSAGE_DISPATCHED_TOPIC then
    decodeMessageDispatched crates metadata log.topics data
  else if topic0 = MSGPORT_MESSAGE_RECV_TOPIC then
    decodeMsgportMessageRecv crates metadata log.topics data
  else if topic0 = MSGPORT_MESSAGE_SENT_TOPIC then
    decodeMsgportMessageSent crates metadata log.topics data
  else if topic0 = SIGNATURE_PUB_SIGNATURE_SUBMITTION_TOPIC then
    decodeSignatureSubmittion crates metadata log.topics data
  else .error [s!"unsupported ORMP EVM event topic0 {topic0}"]

/-- What a log's metadata keeps of the log. -/
structure KeepsLog (log : DatalensLog) (metadata : ChainLogMetadata) : Prop where
  id : log.id = some metadata.id
  chainId : metadata.chainId = log.chainId
  blockNumber : metadata.blockNumber = log.blockNumber
  blockHash : metadata.blockHash = log.blockHash
  logIndex : metadata.logIndex = log.logIndex

theorem keepsLog_of_evmMetadata {log : DatalensLog} {metadata : ChainLogMetadata}
    (h : evmMetadata log = .ok metadata) : KeepsLog log metadata := by
  simp only [evmMetadata, bind_eq_ok, contextOption_eq_ok, i32TryFrom_eq_ok] at h
  obtain ⟨_, _, _, _, id, hid, _, _, _, _, i, ⟨_, hi⟩, _, _, _, _, h⟩ := h
  cases h
  exact ⟨hid, rfl, rfl, rfl, hi⟩

theorem keepsLog_of_decodeEvmLog {crates : Crates} {log : DatalensLog} {e : LegacyOrmPEvent}
    (h : decodeEvmLog crates log = .ok e) : KeepsLog log e.metadata := by
  simp only [decodeEvmLog, bind_eq_ok] at h
  obtain ⟨_, _, _, _, metadata, hmetadata, data, _, h⟩ := h
  have carried : e.metadata = metadata := by
    split at h
    · exact decodeHashImported_metadata crates _ _ e h
    split at h
    · exact decodeMessageAccepted_metadata crates _ _ e h
    split at h
    · exact decodeMessageAssigned_metadata crates _ _ e h
    split at h
    · exact decodeMessageDispatched_metadata crates _ _ e h
    split at h
    · exact decodeMsgportMessageRecv_metadata crates _ _ e h
    split at h
    · exact decodeMsgportMessageSent_metadata crates _ _ e h
    split at h
    · exact decodeSignatureSubmittion_metadata crates _ _ e h
    · cases h
  rw [carried]
  exact keepsLog_of_evmMetadata hmetadata

/-! ## Decoders -/

/-- `EventDecoder`: what the runner decodes logs with. -/
structure EventDecoder where
  decode : DatalensLog → Except Error (List LegacyOrmPEvent)
  keepsLog : ∀ {log events}, decode log = .ok events → ∀ e ∈ events, KeepsLog log e.metadata

/-- One event for each log. -/
def EvmEventDecoder (crates : Crates) : EventDecoder where
  decode log := (decodeEvmLog crates log).map fun event => [event]
  keepsLog {log events} h e he := by
    cases hd : decodeEvmLog crates log with
    | error m => simp [hd, Except.map] at h
    | ok e' =>
        simp only [hd, Except.map, Except.ok.injEq] at h
        subst h
        rw [List.mem_singleton.mp he]
        exact keepsLog_of_decodeEvmLog hd

end OrmpIndexer
