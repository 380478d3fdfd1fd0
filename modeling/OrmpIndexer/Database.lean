/-
# OrmpIndexer.Database — the PostgreSQL store

`database.rs` and the migrations: seven event tables, the block anchors and the checkpoints, as `Table`s
keyed by the primary keys of the schema, and every statement the indexer runs on them. A transaction is
a function on `Database`, because PostgreSQL makes it one: it happens as a whole or not at all.

NUMERIC columns hold what the source writes into them, `u64` and `u128` values, so reading one back and
parsing it never fails and is left out; `FinalityMode.fromStr_asStr` is the same fact for the finality
column. `updated_at` is written and never read, and is left out too. What the server's locale decides,
the order of texts and the lower case of letters beyond ASCII, is a parameter (`Locale`).
-/
import OrmpIndexer.Checkpoint
import OrmpIndexer.Foundation.Table
import OrmpIndexer.Schema.Assignments
import Mathlib.Data.List.Dedup
import Mathlib.Data.List.Sort

namespace OrmpIndexer

open Foundation

/-! ## Tables -/

instance : Keyed OrmpHashImportedRow String := ⟨(·.id), compare, inferInstance, inferInstance⟩
instance : Keyed OrmpMessageAcceptedRow String := ⟨(·.id), compare, inferInstance, inferInstance⟩
instance : Keyed OrmpMessageAssignedRow String := ⟨(·.id), compare, inferInstance, inferInstance⟩
instance : Keyed OrmpMessageDispatchedRow String := ⟨(·.id), compare, inferInstance, inferInstance⟩
instance : Keyed MsgportMessageRecvRow String := ⟨(·.id), compare, inferInstance, inferInstance⟩
instance : Keyed MsgportMessageSentRow String := ⟨(·.id), compare, inferInstance, inferInstance⟩
instance : Keyed SignaturePubSignatureSubmittionRow String :=
  ⟨(·.id), compare, inferInstance, inferInstance⟩

/-- Composite keys are compared column by column. -/
instance ordCheckpointKey : Ord (Nat × String) := lexOrd
instance ordDatasetBlock : Ord (String × Nat) := lexOrd
instance ordBlockAnchorKey : Ord (Nat × String × Nat) := lexOrd

/-- `PRIMARY KEY (chain_id, dataset)`. -/
instance : Keyed Checkpoint (Nat × String) :=
  ⟨fun c => (c.chainId, c.dataset), compare, inferInstance, inferInstance⟩

/-- `PRIMARY KEY (chain_id, dataset, block_number)`. -/
instance : Keyed BlockAnchor (Nat × String × Nat) :=
  ⟨fun a => (a.chainId, a.dataset, a.blockNumber), compare, inferInstance, inferInstance⟩

theorem Checkpoint.key_of_get {t : Table Checkpoint} {chainId : Nat} {dataset : String}
    {row : Checkpoint} (h : t.get (chainId, dataset) = some row) :
    row.chainId = chainId ∧ row.dataset = dataset := by
  simpa [Keyed.key] using Table.key_of_get h

theorem BlockAnchor.key_of_get {t : Table BlockAnchor} {chainId : Nat} {dataset : String} {n : Nat}
    {anchor : BlockAnchor} (h : t.get (chainId, dataset, n) = some anchor) :
    anchor.chainId = chainId ∧ anchor.dataset = dataset ∧ anchor.blockNumber = n := by
  simpa [Keyed.key] using Table.key_of_get h

structure Database where
  ormpHashImported : Table OrmpHashImportedRow
  ormpMessageAccepted : Table OrmpMessageAcceptedRow
  ormpMessageAssigned : Table OrmpMessageAssignedRow
  ormpMessageDispatched : Table OrmpMessageDispatchedRow
  msgportMessageRecv : Table MsgportMessageRecvRow
  msgportMessageSent : Table MsgportMessageSentRow
  signaturePubSignatureSubmittion : Table SignaturePubSignatureSubmittionRow
  blockAnchor : Table BlockAnchor
  checkpoint : Table Checkpoint

/-- The database after the migrations. -/
def Database.empty : Database where
  ormpHashImported := .empty
  ormpMessageAccepted := .empty
  ormpMessageAssigned := .empty
  ormpMessageDispatched := .empty
  msgportMessageRecv := .empty
  msgportMessageSent := .empty
  signaturePubSignatureSubmittion := .empty
  blockAnchor := .empty
  checkpoint := .empty

/-- What the server's locale decides. -/
structure Locale where
  /-- The order of `ORDER BY` on texts. -/
  le : String → String → Bool
  le_total : ∀ s t, le s t || le t s
  le_trans : ∀ s t u, le s t → le t u → le s u
  le_antisymm : ∀ s t, le s t → le t s → s = t
  /-- `LOWER` of a character. -/
  lower : Char → Char
  lower_ascii : ∀ c, c.toNat < 128 → lower c = c.toLower

/-- The locale `C`: texts in the order of their code points, letters beyond ASCII left alone. -/
def Locale.c : Locale where
  le s t := decide (s ≤ t)
  le_total := decide_le_total
  le_trans := decide_le_trans
  le_antisymm := decide_le_antisymm
  lower := Char.toLower
  lower_ascii _ _ := rfl

/-- The accepted row with its six assignment columns NULL. -/
def OrmpMessageAcceptedRow.core (r : OrmpMessageAcceptedRow) : OrmpMessageAcceptedRow :=
  { r with
    oracle := none, oracleAssigned := none, oracleAssignedFee := none
    relayer := none, relayerAssigned := none, relayerAssignedFee := none }

/-- The configuration of a `PostgresCheckpointStore` or a `PostgresEventWriter`. -/
structure Postgres where
  assignmentConfig : AssignmentConfig
  locale : Locale

namespace Postgres

/-- The store of the production configuration, in the locale `C`. -/
def legacyStore : Postgres := ⟨.legacyDefaults, .c⟩

/-- `contains_address` of `database.rs`: the candidate is compared as it is. -/
def containsAddress (addresses : List String) (candidate : String) : Bool :=
  addresses.any fun address => eqIgnoreAsciiCase address candidate

variable (self : Postgres)

/-! ## Assignment columns -/

/-- `ORDER BY block_number ASC` in a SELECT of `block_number::TEXT AS block_number`. A bare name is that of the
output column, so numerals are compared, and not numbers: 10 comes before 9. -/
def blockNumberLe (m n : Nat) : Bool := self.locale.le (toString m) (toString n)

/-- `ORDER BY block_number ASC, id ASC`, with the output column again. -/
def assignmentLe (r s : OrmpMessageAssignedRow) : Bool :=
  if r.blockNumber = s.blockNumber then self.locale.le r.id s.id
  else self.blockNumberLe r.blockNumber s.blockNumber

/-- The assignments of some messages, in the order they are applied. -/
def assignmentsOf (db : Database) (msgHashes : List String) : List OrmpMessageAssignedRow :=
  (db.ormpMessageAssigned.select fun row => msgHashes.contains row.msgHash).insertionSort
    fun r s => self.assignmentLe r s = true

/-- The condition of the `CASE` in the backfill statement, with `$2` and `$8` bound. -/
def oracleCase (oracleMatch legacyB49eOracleMatch : Bool) (r : OrmpMessageAcceptedRow) : Bool :=
  oracleMatch || (legacyB49eOracleMatch &&
    ((r.chainId == 1 && r.fromChainId == 1 && r.toChainId == 46 &&
        decide (LEGACY_B49E_ORACLE_FROM_BLOCK ≤ r.blockNumber)) ||
      (r.chainId == 46 && r.fromChainId == 46 &&
        decide (LEGACY_B49E_DARWINIA_FROM_BLOCK ≤ r.blockNumber)) ||
      (r.chainId == 42161 && r.fromChainId == 42161 &&
        decide (LEGACY_B49E_ARBITRUM_FROM_BLOCK ≤ r.blockNumber))))

/-- The SET list of the backfill statement, `CASE` by `CASE`. -/
def setAssignment (row : OrmpMessageAssignedRow)
    (oracleMatch legacyB49eOracleMatch relayerMatch : Bool) (oracleValue : String)
    (r : OrmpMessageAcceptedRow) : OrmpMessageAcceptedRow :=
  let oracleCase := oracleCase oracleMatch legacyB49eOracleMatch r
  { r with
    oracle := if oracleCase then some oracleValue else r.oracle
    oracleAssigned := if oracleCase then some true else r.oracleAssigned
    oracleAssignedFee := if oracleCase then some row.oracleFee else r.oracleAssignedFee
    relayer := if relayerMatch then some row.relayer else r.relayer
    relayerAssigned := if relayerMatch then some true else r.relayerAssigned
    relayerAssignedFee := if relayerMatch then some row.relayerFee else r.relayerAssignedFee }

def backfillMessageAssignment (db : Database) (row : OrmpMessageAssignedRow) : Database :=
  let legacyB49eOracleMatch := eqIgnoreAsciiCase row.oracle LEGACY_B49E_ORACLE
  let oracleMatch :=
    containsAddress self.assignmentConfig.oracleAddresses row.oracle && !legacyB49eOracleMatch
  let relayerMatch := containsAddress self.assignmentConfig.relayerAddresses row.relayer
  let oracleValue := acceptedOracleValue row.msgHash row.oracle
  -- the statement is not even run when no column would be set
  if !oracleMatch && !legacyB49eOracleMatch && !relayerMatch then db
  else
    { db with
      ormpMessageAccepted := db.ormpMessageAccepted.updateWhere (fun r => r.id == row.msgHash)
        (setAssignment row oracleMatch legacyB49eOracleMatch relayerMatch oracleValue)
        (fun _ => rfl) }

def backfillAcceptedAssignment (db : Database) (row : OrmpMessageAcceptedRow) : Database :=
  (self.assignmentsOf db [row.msgHash]).foldl self.backfillMessageAssignment db

/-! ## Writing events -/

def insertHashImported (db : Database) (row : OrmpHashImportedRow) : Database :=
  { db with ormpHashImported := db.ormpHashImported.upsert row }

/-- The row the INSERT of an accepted row leaves. The six assignment columns are not part of the
statement: a new row has them NULL, a row that is there already (`old`) keeps its own. -/
def keepAssignments (old : Option OrmpMessageAcceptedRow) (row : OrmpMessageAcceptedRow) :
    OrmpMessageAcceptedRow :=
  { row with
    oracle := old.bind (·.oracle)
    oracleAssigned := old.bind (·.oracleAssigned)
    oracleAssignedFee := old.bind (·.oracleAssignedFee)
    relayer := old.bind (·.relayer)
    relayerAssigned := old.bind (·.relayerAssigned)
    relayerAssignedFee := old.bind (·.relayerAssignedFee) }

def insertMessageAccepted (db : Database) (row : OrmpMessageAcceptedRow) : Database :=
  { db with
    ormpMessageAccepted :=
      db.ormpMessageAccepted.upsert (keepAssignments (db.ormpMessageAccepted.get row.id) row) }

def insertMessageAssigned (db : Database) (row : OrmpMessageAssignedRow) : Database :=
  { db with ormpMessageAssigned := db.ormpMessageAssigned.upsert row }

def insertMessageDispatched (db : Database) (row : OrmpMessageDispatchedRow) : Database :=
  { db with ormpMessageDispatched := db.ormpMessageDispatched.upsert row }

def insertMsgportMessageRecv (db : Database) (row : MsgportMessageRecvRow) : Database :=
  { db with msgportMessageRecv := db.msgportMessageRecv.upsert row }

def insertMsgportMessageSent (db : Database) (row : MsgportMessageSentRow) : Database :=
  { db with msgportMessageSent := db.msgportMessageSent.upsert row }

def insertSignatureSubmittion (db : Database) (row : SignaturePubSignatureSubmittionRow) :
    Database :=
  { db with signaturePubSignatureSubmittion := db.signaturePubSignatureSubmittion.upsert row }

def writeLegacyEvent (db : Database) (event : LegacyOrmPEvent) : Database :=
  match event with
  | .hashImported e => insertHashImported db (.fromEvent e)
  | .messageAccepted e =>
      -- assignments of the message may be stored already
      let row := OrmpMessageAcceptedRow.fromEvent e
      self.backfillAcceptedAssignment (insertMessageAccepted db row) row
  | .messageAssigned e =>
      -- the message may not be accepted yet, and then nothing is updated
      let row := OrmpMessageAssignedRow.fromEvent e
      self.backfillMessageAssignment (insertMessageAssigned db row) row
  | .messageDispatched e => insertMessageDispatched db (.fromEvent e)
  | .msgportMessageRecv e => insertMsgportMessageRecv db (.fromEvent e)
  | .msgportMessageSent e => insertMsgportMessageSent db (.fromEvent e)
  | .signatureSubmittion e => insertSignatureSubmittion db (.fromEvent e)

/-- `PostgresEventWriter::write_events`. -/
def writeEvents (db : Database) (events : List LegacyOrmPEvent) : Database :=
  events.foldl self.writeLegacyEvent db

/-! ## Anchors and checkpoints -/

def upsertBlockAnchors (db : Database) (anchors : List BlockAnchor) : Database :=
  { db with blockAnchor := anchors.foldl Table.upsert db.blockAnchor }

def upsertCheckpoint (db : Database) (chainId : Nat) (dataset : String) (nextBlock : Nat) :
    Database :=
  { db with checkpoint := db.checkpoint.upsert { chainId, dataset, nextBlock } }

/-- `PostgresEventWriter::write_events_and_advance_checkpoint`. -/
def writeEventsAndAdvanceCheckpoint (db : Database) (events : List LegacyOrmPEvent)
    (anchors : List BlockAnchor) (chainId : Nat) (dataset : String) (nextBlock : Nat) : Database :=
  -- one transaction, and the checkpoint is its last statement
  let db := self.writeEvents db events
  let db := upsertBlockAnchors db anchors
  upsertCheckpoint db chainId dataset nextBlock

/-- The INSERT of `read_or_create`. -/
def insertCheckpoint (db : Database) (chainId : Nat) (dataset : String) (startBlock : Nat) :
    Database :=
  { db with checkpoint := db.checkpoint.insertIfAbsent { chainId, dataset, nextBlock := startBlock } }

/-- `read_block_anchors`. The order is again that of the numerals. -/
def readBlockAnchors (db : Database) (chainId : Nat) (dataset : String) (fromBlock toBlock : Nat) :
    List BlockAnchor :=
  (db.blockAnchor.select fun anchor =>
    anchor.chainId == chainId && anchor.dataset == dataset &&
      decide (fromBlock ≤ anchor.blockNumber) && decide (anchor.blockNumber ≤ toBlock)).insertionSort
    fun a b => self.blockNumberLe a.blockNumber b.blockNumber = true

/-! ## Rollback -/

/-- The condition of every `DELETE ... WHERE chain_id = $1 AND block_number >= $2`. -/
def rolledBack (chainId rollbackBlock rowChainId rowBlockNumber : Nat) : Bool :=
  rowChainId == chainId && decide (rollbackBlock ≤ rowBlockNumber)

def rolledBackAssignmentMsgHashes (db : Database) (chainId rollbackBlock : Nat) : List String :=
  ((db.ormpMessageAssigned.select fun row =>
    rolledBack chainId rollbackBlock row.chainId row.blockNumber).map (·.msgHash)).dedup

/-- `LOWER(LEFT(REGEXP_REPLACE(block_hash, '^0[xX]', ''), 5))`. -/
def anchorHashPrefix (blockHash : String) : String :=
  String.ofList (((stripHexPrefix blockHash.toList).take 5).map self.locale.lower)

/-- The LIKE pattern that looks for the signature rows of an anchored block. -/
def anchorPattern (anchor : BlockAnchor) : String :=
  lpad (toString anchor.blockNumber) 10 '0' ++ "-" ++ self.anchorHashPrefix anchor.blockHash ++ "-%"

/-- The join condition of the signature rows with the anchors. -/
def anchorSelects (anchor : BlockAnchor) (row : SignaturePubSignatureSubmittionRow) : Bool :=
  row.blockNumber == anchor.blockNumber && like row.id (self.anchorPattern anchor)

/-- Some anchor of the chain from the rollback block on selects the signature row. -/
def selectedByAnchor (db : Database) (chainId : Nat) (dataset : String) (rollbackBlock : Nat)
    (row : SignaturePubSignatureSubmittionRow) : Bool :=
  (db.blockAnchor.select fun anchor =>
    anchor.chainId == chainId && anchor.dataset == dataset &&
      decide (rollbackBlock ≤ anchor.blockNumber)).any fun anchor => self.anchorSelects anchor row

def deleteSignatureSubmittionsBySourceAnchors (db : Database) (chainId : Nat) (dataset : String)
    (rollbackBlock : Nat) : Database :=
  { db with
    signaturePubSignatureSubmittion := db.signaturePubSignatureSubmittion.deleteWhere
      (self.selectedByAnchor db chainId dataset rollbackBlock) }

/-- The loop over `LEGACY_ROLLBACK_TABLES`. -/
def deleteLegacyRows (db : Database) (chainId rollbackBlock : Nat) : Database :=
  let gone := rolledBack chainId rollbackBlock
  { db with
    ormpHashImported := db.ormpHashImported.deleteWhere fun r => gone r.chainId r.blockNumber
    ormpMessageAccepted := db.ormpMessageAccepted.deleteWhere fun r => gone r.chainId r.blockNumber
    ormpMessageAssigned := db.ormpMessageAssigned.deleteWhere fun r => gone r.chainId r.blockNumber
    ormpMessageDispatched :=
      db.ormpMessageDispatched.deleteWhere fun r => gone r.chainId r.blockNumber
    msgportMessageRecv := db.msgportMessageRecv.deleteWhere fun r => gone r.chainId r.blockNumber
    msgportMessageSent := db.msgportMessageSent.deleteWhere fun r => gone r.chainId r.blockNumber
    signaturePubSignatureSubmittion :=
      db.signaturePubSignatureSubmittion.deleteWhere fun r => gone r.chainId r.blockNumber }

/-- The UPDATE that sets the six assignment columns of some messages to NULL. -/
def clearAssignments (db : Database) (msgHashes : List String) : Database :=
  { db with
    ormpMessageAccepted := db.ormpMessageAccepted.updateWhere
      (fun r => msgHashes.contains r.msgHash) OrmpMessageAcceptedRow.core (fun _ => rfl) }

def recomputeAcceptedAssignments (db : Database) (msgHashes : List String) : Database :=
  if msgHashes.isEmpty then db
  else
    let db := clearAssignments db msgHashes
    (self.assignmentsOf db msgHashes).foldl self.backfillMessageAssignment db

def deleteBlockAnchors (db : Database) (chainId : Nat) (dataset : String) (rollbackBlock : Nat) :
    Database :=
  { db with
    blockAnchor := db.blockAnchor.deleteWhere fun anchor =>
      anchor.chainId == chainId && anchor.dataset == dataset &&
        decide (rollbackBlock ≤ anchor.blockNumber) }

/-- `PostgresCheckpointStore::rollback_legacy_from`. -/
def rollbackLegacyFrom (db : Database) (chainId : Nat) (dataset : String) (rollbackBlock : Nat) :
    Database :=
  -- one transaction; the order matters: the hashes are read before the assigned rows are deleted, and the
  -- anchors select signature rows before they are deleted themselves
  let assignmentMsgHashes := rolledBackAssignmentMsgHashes db chainId rollbackBlock
  let db := self.deleteSignatureSubmittionsBySourceAnchors db chainId dataset rollbackBlock
  let db := deleteLegacyRows db chainId rollbackBlock
  let db := self.recomputeAcceptedAssignments db assignmentMsgHashes
  let db := deleteBlockAnchors db chainId dataset rollbackBlock
  upsertCheckpoint db chainId dataset rollbackBlock

end Postgres

end OrmpIndexer
