/-
# OrmpIndexer.TronRecovery.Storage — the recovery's store

`tron_recovery/storage.rs`. A store exists while its session holds the advisory lock. `commit` first looks
for what the database already has of every event, one statement after the other, and then writes the
adjusted events and the checkpoint in ONE transaction.

The first part is the asynchronous code. The second part is what its statements select, as functions on
`Database`: the comparison with an accepted row (`conflicts`) and the rows of an assignment
(`selectsAssignment`). The pure function `adjust` is the body of the loop of `commit` on a database that stays as
it is.
-/
import OrmpIndexer.Database
import OrmpIndexer.TronRecovery.Rpc

namespace OrmpIndexer

open Foundation

/-- `LOWER` of a text. -/
def Locale.lowerText (locale : Locale) (s : String) : String :=
  String.ofList (s.toList.map locale.lower)

namespace TronRecovery

namespace RecoveryStore

/-! ## The asynchronous code -/

/-- The tables the recovery needs. Their migrations belong to the indexer. -/
def tables : List String :=
  ["ormp_message_accepted", "ormp_message_assigned", "msgport_message_sent",
    "ormp_indexer_checkpoint"]

def checkTables : List String → Async Unit
  | [] => return ()
  | table :: tables => do
      let present ← await (.tableExists table)
      check present s!"ORMP table {table} missing; run the owning indexer's migrations first"
      checkTables tables

/-- Whether the session got the lock. -/
def lock : Async Bool := do
  let locked ← await .tryAdvisoryLock
  if !locked then return false
  else
    checkTables tables
    return true

/-- `PostgresCheckpointStore::read_or_create`. -/
def readOrCreate (chainId : Nat) (dataset : String) (startBlock : Nat) : Async Nat := do
  await (.insertCheckpoint chainId dataset startBlock)
  await (.selectCheckpoint chainId dataset)

def nextBlock (start : Nat) : Async Nat := readOrCreate CHAIN_ID DATASET start

def checkPrecedingMessage : Async Unit := do
  let missing ← await .precedingMessage
  let hash := missing.getD ""
  check missing.isNone
    s!"existing Tron imported root has no source message; recover the preceding source history before advancing: {hash}"

def checkExisting : LegacyOrmPEvent → Async Unit
  | .messageAccepted e => do
      let conflicting ← await (.messageConflicts e)
      check (!conflicting)
        s!"existing ORMP message conflicts with confirmed Tron event {e.msgHash}"
  | _ => return ()

/-- The body of the loop of `commit`. -/
def adjustEvent (event : LegacyOrmPEvent) : Async LegacyOrmPEvent := do
  checkExisting event
  match event with
  | .messageAccepted e =>
      -- the log index of an existing row may be local to its transaction, and stays
      match ← await (.acceptedMetadata e.msgHash) with
      | some (blockTimestamp, logIndex) =>
          return .messageAccepted { e with metadata := { e.metadata with blockTimestamp, logIndex } }
      | none => return event
  | .messageAssigned e => do
      -- an existing row of the assignment may have another id, and keeps it
      let ids ← await (.assignmentIds e)
      check (ids.length ≤ 1)
        "multiple existing Tron assignment rows; reconcile duplicates first"
      match ids with
      | id :: _ => return .messageAssigned { e with metadata := { e.metadata with id } }
      | [] => return event
  | _ => return event

def adjustEvents : List LegacyOrmPEvent → Async (List LegacyOrmPEvent)
  | [] => return []
  | event :: events => do
      let event ← adjustEvent event
      let events ← adjustEvents events
      return event :: events

def commit (events : List LegacyOrmPEvent) (nextBlock : Nat) : Async Unit := do
  let events ← adjustEvents events
  let _ ← withContext "commit Tron events and recovery checkpoint"
    (await (.writeEventsAndAdvanceCheckpoint events [] CHAIN_ID DATASET nextBlock))
  return ()

/-! ## What the statements select -/

section

variable (locale : Locale) (db : Database)

/-- The row under the message hash differs from the event. -/
def conflicts (e : MessageAccepted) : Bool :=
  match db.ormpMessageAccepted.get e.msgHash with
  | none => false
  | some r =>
      r.chainId != e.metadata.chainId || r.blockNumber != e.metadata.blockNumber ||
      locale.lowerText r.transactionHash != locale.lowerText e.metadata.transactionHash ||
      r.channel != e.channel || r.index != e.index || r.fromChainId != e.fromChainId ||
      r.fromAddress != e.fromAddress || r.toChainId != e.toChainId || r.toAddress != e.toAddress ||
      r.gasLimit != e.gasLimit || r.encoded != e.encoded || r.msgHash != e.msgHash

/-- The columns the recovery keeps of an accepted row. -/
def acceptedMetadata (msgHash : String) : Option (Nat × Int) :=
  (db.ormpMessageAccepted.get msgHash).map fun r => (r.blockTimestamp, r.logIndex)

/-- The row is one of the assignment. -/
def selectsAssignment (e : MessageAssigned) (r : OrmpMessageAssignedRow) : Bool :=
  r.chainId == CHAIN_ID &&
    locale.lowerText r.transactionHash == locale.lowerText e.metadata.transactionHash &&
    r.msgHash == e.msgHash && r.oracle == e.oracle && r.relayer == e.relayer &&
    r.oracleFee == e.oracleFee && r.relayerFee == e.relayerFee && r.params == e.params

def assignmentIds (e : MessageAssigned) : List String :=
  (db.ormpMessageAssigned.select (selectsAssignment locale e)).map (·.id)

/-- The imported roots of messages from Tron to Darwinia. -/
def importedRoots : List OrmpHashImportedRow :=
  db.ormpHashImported.select fun r => r.srcChainId == CHAIN_ID && r.targetChainId == 46

/-- The hash of the latest imported root, if its source message is missing. Of two roots with the largest
index either is the latest. -/
def PrecedingMessage (missing : Option String) : Prop :=
  (importedRoots db = [] ∧ missing = none) ∨
    ∃ root ∈ importedRoots db, (∀ r ∈ importedRoots db, r.msgIndex ≤ root.msgIndex) ∧
      missing = if (db.ormpMessageAccepted.select fun r =>
          r.msgHash == root.hash && r.fromChainId == CHAIN_ID).isEmpty then some root.hash else none

end

/-! ## The loop on one database -/

section

variable (locale : Locale) (db : Database)

/-- The body of the loop of `commit`, all statements answered by one database. -/
def adjust : LegacyOrmPEvent → Except Error LegacyOrmPEvent
  | .messageAccepted e => do
      ensure (!conflicts locale db e)
        s!"existing ORMP message conflicts with confirmed Tron event {e.msgHash}"
      match acceptedMetadata db e.msgHash with
      | some (blockTimestamp, logIndex) =>
          return .messageAccepted { e with metadata := { e.metadata with blockTimestamp, logIndex } }
      | none => return .messageAccepted e
  | .messageAssigned e => do
      ensure ((assignmentIds locale db e).length ≤ 1)
        "multiple existing Tron assignment rows; reconcile duplicates first"
      match assignmentIds locale db e with
      | id :: _ => return .messageAssigned { e with metadata := { e.metadata with id } }
      | [] => return .messageAssigned e
  | event => .ok event

end

end RecoveryStore

end TronRecovery

end OrmpIndexer
