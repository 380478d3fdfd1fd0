/-
# OrmpIndexer.Schema.Types — decoded events and the ids of their rows

`schema/types.rs`. An event is the metadata of the log it was decoded from and the payload of one of
seven contracts events. In the source the payloads are struct variants of one enum, and every
`from_event` panics on a foreign variant; here each payload is a structure of its own, so that the
row constructors of `Schema.Rows` are total.
-/
import OrmpIndexer.Basic

namespace OrmpIndexer

open Foundation

/-- Where the log of an event stands. -/
structure ChainLogMetadata where
  id : String
  chainId : Nat
  blockNumber : Nat
  blockHash : Option String
  blockTimestamp : Nat
  transactionHash : String
  transactionIndex : Int
  logIndex : Int
  contractAddress : String
  transactionFrom : Option String
deriving DecidableEq, Repr

/-- `strip_prefix("0x")`, else `strip_prefix("0X")`, else the text itself. -/
def stripHexPrefix (s : List Char) : List Char :=
  match s with
  | '0' :: 'x' :: rest => rest
  | '0' :: 'X' :: rest => rest
  | _ => s

/-- The prefix of exactly `n` bytes, if it ends between two characters. -/
def bytePrefix : Nat → List Char → Option (List Char)
  | 0, _ => some []
  | _ + 1, [] => none
  | n + 1, c :: s =>
      if c.utf8Size ≤ n + 1 then (bytePrefix (n + 1 - c.utf8Size) s).map (c :: ·) else none

def utf8Length (s : List Char) : Nat := (s.map Char.utf8Size).sum

/-- The first five bytes of a block hash without its `0x`, in lower case. -/
def blockHashPrefix (blockHash : String) : String :=
  let blockHash := stripHexPrefix blockHash.toList
  let kept := (bytePrefix (min (utf8Length blockHash) 5) blockHash).getD blockHash
  toAsciiLowercase (String.ofList kept)

/-- The row id of the events that have no hash of their own: block, fork and log index. -/
def legacyEventLogId (metadata : ChainLogMetadata) : String :=
  match metadata.blockHash with
  | none => metadata.id
  | some blockHash =>
      s!"{formatPadded 10 metadata.blockNumber}-{blockHashPrefix blockHash}-{formatPaddedInt 6 metadata.logIndex}"

theorem toList_legacyEventLogId_of_hash {metadata : ChainLogMetadata} {hash : String}
    (hhash : metadata.blockHash = some hash) :
    (legacyEventLogId metadata).toList = (decimal metadata.blockNumber).leftpad 10 '0' ++ '-' ::
      ((blockHashPrefix hash).toList ++ '-' :: (formatPaddedInt 6 metadata.logIndex).toList) := by
  rw [legacyEventLogId, hhash]
  simp [toString, toList_formatPadded]

theorem toList_legacyEventLogId {metadata : ChainLogMetadata} {hash : String} {index : Nat}
    (hhash : metadata.blockHash = some hash) (hindex : metadata.logIndex = (index : Int)) :
    (legacyEventLogId metadata).toList = (decimal metadata.blockNumber).leftpad 10 '0' ++ '-' ::
      ((blockHashPrefix hash).toList ++ '-' :: (decimal index).leftpad 6 '0') := by
  have hpadded : formatPaddedInt 6 (index : Int) = formatPadded 6 index := rfl
  rw [toList_legacyEventLogId_of_hash hhash, hindex, hpadded, toList_formatPadded]

/-- The id names the block, what is kept of its hash, and the log. -/
theorem legacyEventLogId_eq_iff {m m' : ChainLogMetadata} {hash hash' : String} {index index' : Nat}
    (hhash : m.blockHash = some hash) (hhash' : m'.blockHash = some hash')
    (hindex : m.logIndex = (index : Int)) (hindex' : m'.logIndex = (index' : Int)) :
    legacyEventLogId m = legacyEventLogId m' ↔
      m.blockNumber = m'.blockNumber ∧ blockHashPrefix hash = blockHashPrefix hash' ∧
        index = index' := by
  rw [← String.toList_inj, toList_legacyEventLogId hhash hindex,
    toList_legacyEventLogId hhash' hindex']
  constructor
  · intro h
    obtain ⟨hnumber, hrest⟩ :=
      append_sep_inj (dash_notMem_leftpad 10 _) (dash_notMem_leftpad 10 _) h
    -- the kept text may have a dash, the index has none
    have hreverse := congrArg List.reverse hrest
    simp only [List.reverse_append, List.reverse_cons, List.append_assoc, List.singleton_append]
      at hreverse
    obtain ⟨hdigits, hkept⟩ := append_sep_inj (by simpa using dash_notMem_leftpad 6 index)
      (by simpa using dash_notMem_leftpad 6 index') hreverse
    exact ⟨leftpad_decimal_inj hnumber, String.toList_inj.mp (List.reverse_inj.mp hkept),
      leftpad_decimal_inj (List.reverse_inj.mp hdigits)⟩
  · rintro ⟨hnumber, hkept, hindices⟩
    rw [hnumber, hkept, hindices]

/-- The seven events, with what their decoders read from the log. -/
structure HashImported where
  metadata : ChainLogMetadata
  srcChainId : Nat
  targetChainId : Nat
  oracle : String
  channel : String
  msgIndex : Nat
  hash : String
deriving DecidableEq, Repr

structure MessageAccepted where
  metadata : ChainLogMetadata
  msgHash : String
  channel : String
  index : Nat
  fromChainId : Nat
  fromAddress : String
  toChainId : Nat
  toAddress : String
  gasLimit : Nat
  encoded : String
deriving DecidableEq, Repr

structure MessageAssigned where
  metadata : ChainLogMetadata
  msgHash : String
  oracle : String
  relayer : String
  oracleFee : Nat
  relayerFee : Nat
  params : String
deriving DecidableEq, Repr

structure MessageDispatched where
  metadata : ChainLogMetadata
  targetChainId : Nat
  msgHash : String
  dispatchResult : Bool
deriving DecidableEq, Repr

structure MsgportMessageRecv where
  metadata : ChainLogMetadata
  msgId : String
  result : Bool
  returnData : String
deriving DecidableEq, Repr

structure MsgportMessageSent where
  metadata : ChainLogMetadata
  msgId : String
  fromDapp : String
  toChainId : Nat
  toDapp : String
  message : String
  params : String
deriving DecidableEq, Repr

structure SignatureSubmittion where
  metadata : ChainLogMetadata
  chainId : Nat
  channel : String
  signer : String
  msgIndex : Nat
  signature : String
  data : String
deriving DecidableEq, Repr

/-- An event of the indexer. -/
inductive LegacyOrmPEvent where
  | hashImported (e : HashImported)
  | messageAccepted (e : MessageAccepted)
  | messageAssigned (e : MessageAssigned)
  | messageDispatched (e : MessageDispatched)
  | msgportMessageRecv (e : MsgportMessageRecv)
  | msgportMessageSent (e : MsgportMessageSent)
  | signatureSubmittion (e : SignatureSubmittion)
deriving DecidableEq, Repr

/-- The metadata of the log an event was decoded from. -/
def LegacyOrmPEvent.metadata : LegacyOrmPEvent → ChainLogMetadata
  | hashImported e => e.metadata
  | messageAccepted e => e.metadata
  | messageAssigned e => e.metadata
  | messageDispatched e => e.metadata
  | msgportMessageRecv e => e.metadata
  | msgportMessageSent e => e.metadata
  | signatureSubmittion e => e.metadata

end OrmpIndexer
