/-
# OrmpIndexer.Schema.Rows — the rows of the seven event tables

`schema/rows.rs`. Every row keeps the block and the chain of the log, with one exception that matters
to everything that selects rows by chain: the `chainId` of a signature row is the chain NAMED IN THE
PAYLOAD. The three rules for `id` are the message hash (or the imported hash), the id of the log, and
`legacyEventLogId`.
-/
import OrmpIndexer.Schema.Types

namespace OrmpIndexer

/-- A row of `ormp_hash_imported`: an oracle has imported the hash of a message on its target chain. -/
structure OrmpHashImportedRow where
  id : String
  blockNumber : Nat
  transactionHash : String
  blockTimestamp : Nat
  chainId : Nat
  srcChainId : Nat
  targetChainId : Nat
  oracle : String
  channel : String
  msgIndex : Nat
  hash : String
deriving DecidableEq, Repr

/-- The imported hash is the row id, so the same hash imported again is the same row. -/
def OrmpHashImportedRow.fromEvent (e : HashImported) : OrmpHashImportedRow where
  id := e.hash
  blockNumber := e.metadata.blockNumber
  transactionHash := e.metadata.transactionHash
  blockTimestamp := e.metadata.blockTimestamp
  chainId := e.metadata.chainId
  srcChainId := e.srcChainId
  targetChainId := e.targetChainId
  oracle := e.oracle
  channel := e.channel
  msgIndex := e.msgIndex
  hash := e.hash

/-- A row of `ormp_message_accepted`: a message as its source chain accepted it. The last six columns are those
of the assignment. -/
structure OrmpMessageAcceptedRow where
  id : String
  blockNumber : Nat
  transactionHash : String
  blockTimestamp : Nat
  chainId : Nat
  logIndex : Int
  msgHash : String
  channel : String
  index : Nat
  fromChainId : Nat
  fromAddress : String
  toChainId : Nat
  toAddress : String
  gasLimit : Nat
  encoded : String
  oracle : Option String
  oracleAssigned : Option Bool
  oracleAssignedFee : Option Nat
  relayer : Option String
  relayerAssigned : Option Bool
  relayerAssignedFee : Option Nat
deriving DecidableEq, Repr

/-- The message hash is the row id. No event fills the assignment columns; the backfill does. -/
def OrmpMessageAcceptedRow.fromEvent (e : MessageAccepted) : OrmpMessageAcceptedRow where
  id := e.msgHash
  blockNumber := e.metadata.blockNumber
  transactionHash := e.metadata.transactionHash
  blockTimestamp := e.metadata.blockTimestamp
  chainId := e.metadata.chainId
  logIndex := e.metadata.logIndex
  msgHash := e.msgHash
  channel := e.channel
  index := e.index
  fromChainId := e.fromChainId
  fromAddress := e.fromAddress
  toChainId := e.toChainId
  toAddress := e.toAddress
  gasLimit := e.gasLimit
  encoded := e.encoded
  oracle := none
  oracleAssigned := none
  oracleAssignedFee := none
  relayer := none
  relayerAssigned := none
  relayerAssignedFee := none

/-- A row of `ormp_message_assigned`: the oracle and the relayer that a message was assigned to, and their fees. -/
structure OrmpMessageAssignedRow where
  id : String
  blockNumber : Nat
  transactionHash : String
  blockTimestamp : Nat
  chainId : Nat
  msgHash : String
  oracle : String
  relayer : String
  oracleFee : Nat
  relayerFee : Nat
  params : String
deriving DecidableEq, Repr

/-- A message may be assigned more than once, so the row id is that of the log. -/
def OrmpMessageAssignedRow.fromEvent (e : MessageAssigned) : OrmpMessageAssignedRow where
  id := e.metadata.id
  blockNumber := e.metadata.blockNumber
  transactionHash := e.metadata.transactionHash
  blockTimestamp := e.metadata.blockTimestamp
  chainId := e.metadata.chainId
  msgHash := e.msgHash
  oracle := e.oracle
  relayer := e.relayer
  oracleFee := e.oracleFee
  relayerFee := e.relayerFee
  params := e.params

/-- A row of `ormp_message_dispatched`: a message has been delivered on its target chain. -/
structure OrmpMessageDispatchedRow where
  id : String
  blockNumber : Nat
  transactionHash : String
  blockTimestamp : Nat
  chainId : Nat
  targetChainId : Nat
  msgHash : String
  dispatchResult : Bool
deriving DecidableEq, Repr

/-- The message hash is the row id. The chain that delivers is the target chain. -/
def OrmpMessageDispatchedRow.fromEvent (e : MessageDispatched) : OrmpMessageDispatchedRow where
  id := e.msgHash
  blockNumber := e.metadata.blockNumber
  transactionHash := e.metadata.transactionHash
  blockTimestamp := e.metadata.blockTimestamp
  chainId := e.metadata.chainId
  targetChainId := e.targetChainId
  msgHash := e.msgHash
  dispatchResult := e.dispatchResult

/-- A row of `msgport_message_recv`: a port has received a message. -/
structure MsgportMessageRecvRow where
  id : String
  blockNumber : Nat
  transactionHash : String
  blockTimestamp : Nat
  transactionIndex : Int
  logIndex : Int
  chainId : Nat
  portAddress : String
  msgId : String
  result : Bool
  returnData : String
deriving DecidableEq, Repr

/-- The row id is `legacyEventLogId`, which names no chain. -/
def MsgportMessageRecvRow.fromEvent (e : MsgportMessageRecv) : MsgportMessageRecvRow where
  id := legacyEventLogId e.metadata
  blockNumber := e.metadata.blockNumber
  transactionHash := e.metadata.transactionHash
  blockTimestamp := e.metadata.blockTimestamp
  transactionIndex := e.metadata.transactionIndex
  logIndex := e.metadata.logIndex
  chainId := e.metadata.chainId
  portAddress := e.metadata.contractAddress
  msgId := e.msgId
  result := e.result
  returnData := e.returnData

/-- A row of `msgport_message_sent`: a port has sent a message. -/
structure MsgportMessageSentRow where
  id : String
  blockNumber : Nat
  transactionHash : String
  blockTimestamp : Nat
  transactionIndex : Int
  logIndex : Int
  chainId : Nat
  portAddress : String
  transactionFrom : Option String
  fromChainId : Nat
  msgId : String
  fromDapp : String
  toChainId : Nat
  toDapp : String
  message : String
  params : String
deriving DecidableEq, Repr

/-- The chain of the log is the chain the message is sent from. -/
def MsgportMessageSentRow.fromEvent (e : MsgportMessageSent) : MsgportMessageSentRow where
  id := legacyEventLogId e.metadata
  blockNumber := e.metadata.blockNumber
  transactionHash := e.metadata.transactionHash
  blockTimestamp := e.metadata.blockTimestamp
  transactionIndex := e.metadata.transactionIndex
  logIndex := e.metadata.logIndex
  chainId := e.metadata.chainId
  portAddress := e.metadata.contractAddress
  transactionFrom := e.metadata.transactionFrom
  fromChainId := e.metadata.chainId
  msgId := e.msgId
  fromDapp := e.fromDapp
  toChainId := e.toChainId
  toDapp := e.toDapp
  message := e.message
  params := e.params

/-- A row of `signature_pub_signature_submittion`: a signer has published a signature for a message of some chain. -/
structure SignaturePubSignatureSubmittionRow where
  id : String
  blockNumber : Nat
  transactionHash : String
  blockTimestamp : Nat
  chainId : Nat
  channel : String
  signer : String
  msgIndex : Nat
  signature : String
  data : String
deriving DecidableEq, Repr

/-- The one row that is filed under a chain of its payload. -/
def SignaturePubSignatureSubmittionRow.fromEvent (e : SignatureSubmittion) :
    SignaturePubSignatureSubmittionRow where
  id := legacyEventLogId e.metadata
  blockNumber := e.metadata.blockNumber
  transactionHash := e.metadata.transactionHash
  blockTimestamp := e.metadata.blockTimestamp
  -- not the chain of the log
  chainId := e.chainId
  channel := e.channel
  signer := e.signer
  msgIndex := e.msgIndex
  signature := e.signature
  data := e.data

end OrmpIndexer
