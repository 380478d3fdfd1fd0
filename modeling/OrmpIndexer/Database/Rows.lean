/-
# OrmpIndexer.Database.Rows — the seven event tables as one

Writes and deletes treat the seven event tables alike, each through its own statement. `eventRow` reads
them as ONE finite map from a table and an id to a row, and everything that does not concern the
assignment columns is said about that map: a write is an update at one key
(`eventRow_writeLegacyEvent`), a rollback is a filter (`eventRow_rollbackLegacyFrom`). An accepted row
appears in the map without its assignment columns (`core`); `Database.Assignments` is about those.
-/
import OrmpIndexer.Database
import OrmpIndexer.Foundation.LastWrite

namespace OrmpIndexer

open Foundation

/-! ## Rows of any table -/

/-- The seven event tables. -/
inductive LegacyTable where
  | ormpHashImported
  | ormpMessageAccepted
  | ormpMessageAssigned
  | ormpMessageDispatched
  | msgportMessageRecv
  | msgportMessageSent
  | signaturePubSignatureSubmittion
deriving DecidableEq, Repr

@[simp]
theorem OrmpMessageAcceptedRow.core_core (r : OrmpMessageAcceptedRow) : r.core.core = r.core := rfl

theorem id_eq_of_core {r s : OrmpMessageAcceptedRow} (h : r.core = s) : r.id = s.id := by
  rw [← h]
  rfl

@[simp]
theorem OrmpMessageAcceptedRow.core_fromEvent (e : MessageAccepted) :
    (OrmpMessageAcceptedRow.fromEvent e).core = .fromEvent e := rfl

/-- A row of an event table. -/
inductive LegacyRow where
  | ormpHashImported (r : OrmpHashImportedRow)
  | ormpMessageAccepted (r : OrmpMessageAcceptedRow)
  | ormpMessageAssigned (r : OrmpMessageAssignedRow)
  | ormpMessageDispatched (r : OrmpMessageDispatchedRow)
  | msgportMessageRecv (r : MsgportMessageRecvRow)
  | msgportMessageSent (r : MsgportMessageSentRow)
  | signaturePubSignatureSubmittion (r : SignaturePubSignatureSubmittionRow)
deriving DecidableEq, Repr

namespace LegacyRow

def table : LegacyRow → LegacyTable
  | ormpHashImported _ => .ormpHashImported
  | ormpMessageAccepted _ => .ormpMessageAccepted
  | ormpMessageAssigned _ => .ormpMessageAssigned
  | ormpMessageDispatched _ => .ormpMessageDispatched
  | msgportMessageRecv _ => .msgportMessageRecv
  | msgportMessageSent _ => .msgportMessageSent
  | signaturePubSignatureSubmittion _ => .signaturePubSignatureSubmittion

def id : LegacyRow → String
  | ormpHashImported r => r.id
  | ormpMessageAccepted r => r.id
  | ormpMessageAssigned r => r.id
  | ormpMessageDispatched r => r.id
  | msgportMessageRecv r => r.id
  | msgportMessageSent r => r.id
  | signaturePubSignatureSubmittion r => r.id

def blockNumber : LegacyRow → Nat
  | ormpHashImported r => r.blockNumber
  | ormpMessageAccepted r => r.blockNumber
  | ormpMessageAssigned r => r.blockNumber
  | ormpMessageDispatched r => r.blockNumber
  | msgportMessageRecv r => r.blockNumber
  | msgportMessageSent r => r.blockNumber
  | signaturePubSignatureSubmittion r => r.blockNumber

/-- The `chain_id` column. -/
def chainId : LegacyRow → Nat
  | ormpHashImported r => r.chainId
  | ormpMessageAccepted r => r.chainId
  | ormpMessageAssigned r => r.chainId
  | ormpMessageDispatched r => r.chainId
  | msgportMessageRecv r => r.chainId
  | msgportMessageSent r => r.chainId
  | signaturePubSignatureSubmittion r => r.chainId

/-- The table and the primary key. -/
def key (r : LegacyRow) : LegacyTable × String := (r.table, r.id)

end LegacyRow

/-- The row an event is stored as. -/
def rowOf : LegacyOrmPEvent → LegacyRow
  | .hashImported e => .ormpHashImported (.fromEvent e)
  | .messageAccepted e => .ormpMessageAccepted (.fromEvent e)
  | .messageAssigned e => .ormpMessageAssigned (.fromEvent e)
  | .messageDispatched e => .ormpMessageDispatched (.fromEvent e)
  | .msgportMessageRecv e => .msgportMessageRecv (.fromEvent e)
  | .msgportMessageSent e => .msgportMessageSent (.fromEvent e)
  | .signatureSubmittion e => .signaturePubSignatureSubmittion (.fromEvent e)

/-- The table and the id under which an event is stored. -/
def eventKey (e : LegacyOrmPEvent) : LegacyTable × String := (rowOf e).key

theorem blockNumber_rowOf (e : LegacyOrmPEvent) : (rowOf e).blockNumber = e.metadata.blockNumber := by
  cases e <;> rfl

/-- Only signature rows can be filed under another chain than the one that emitted the log. -/
theorem chainId_rowOf (e : LegacyOrmPEvent) :
    (rowOf e).chainId = e.metadata.chainId ∨ ∃ s, e = .signatureSubmittion s := by
  cases e with
  | signatureSubmittion s => exact .inr ⟨s, rfl⟩
  | _ => exact .inl rfl

/-! ## The map of all event rows -/

/-- The row stored under a table and an id, without assignment columns. -/
def Database.eventRow (db : Database) : LegacyTable × String → Option LegacyRow
  | (.ormpHashImported, id) => (db.ormpHashImported.get id).map .ormpHashImported
  | (.ormpMessageAccepted, id) =>
      (db.ormpMessageAccepted.get id).map fun r => .ormpMessageAccepted r.core
  | (.ormpMessageAssigned, id) => (db.ormpMessageAssigned.get id).map .ormpMessageAssigned
  | (.ormpMessageDispatched, id) => (db.ormpMessageDispatched.get id).map .ormpMessageDispatched
  | (.msgportMessageRecv, id) => (db.msgportMessageRecv.get id).map .msgportMessageRecv
  | (.msgportMessageSent, id) => (db.msgportMessageSent.get id).map .msgportMessageSent
  | (.signaturePubSignatureSubmittion, id) =>
      (db.signaturePubSignatureSubmittion.get id).map .signaturePubSignatureSubmittion

@[simp]
theorem eventRow_empty (k : LegacyTable × String) : Database.empty.eventRow k = none := by
  obtain ⟨t, id⟩ := k
  cases t <;> simp [Database.empty, Database.eventRow]

/-! ## Anchors of a range -/

/-- The anchor belongs to the chain and the dataset, and its block to the range. -/
def anchorInRange (chainId : Nat) (dataset : String) (fromBlock toBlock : Nat) (anchor : BlockAnchor) :
    Bool :=
  anchor.chainId == chainId && anchor.dataset == dataset &&
    decide (fromBlock ≤ anchor.blockNumber) && decide (anchor.blockNumber ≤ toBlock)

section

variable {chainId : Nat} {dataset : String} {fromBlock toBlock : Nat} {anchor : BlockAnchor}

theorem anchorInRange_iff : anchorInRange chainId dataset fromBlock toBlock anchor = true ↔
    anchor.chainId = chainId ∧ anchor.dataset = dataset ∧ fromBlock ≤ anchor.blockNumber ∧
      anchor.blockNumber ≤ toBlock := by
  simp [anchorInRange, and_assoc]

theorem mem_select_anchorInRange {t : Table BlockAnchor} :
    anchor ∈ t.select (anchorInRange chainId dataset fromBlock toBlock) ↔
      t.get (chainId, dataset, anchor.blockNumber) = some anchor ∧
        fromBlock ≤ anchor.blockNumber ∧ anchor.blockNumber ≤ toBlock := by
  rw [Table.mem_select, anchorInRange_iff]
  constructor
  · rintro ⟨hget, rfl, rfl, hblocks⟩
    exact ⟨hget, hblocks⟩
  · rintro ⟨hget, hblocks⟩
    obtain ⟨rfl, rfl, _⟩ := BlockAnchor.key_of_get hget
    exact ⟨hget, rfl, rfl, hblocks⟩

/-- Reading the stored anchors of a range finds for each block the one stored for it. -/
theorem lastWhere_eq_get_anchor {t : Table BlockAnchor} {anchors : List BlockAnchor}
    (hread : ∀ anchor, anchor ∈ anchors ↔
      t.get (chainId, dataset, anchor.blockNumber) = some anchor ∧
        fromBlock ≤ anchor.blockNumber ∧ anchor.blockNumber ≤ toBlock)
    {n : Nat} (hfrom : fromBlock ≤ n) (hto : n ≤ toBlock) :
    lastWhere (fun anchor => anchor.blockNumber == n) anchors = t.get (chainId, dataset, n) := by
  cases hlast : lastWhere (fun anchor => anchor.blockNumber == n) anchors with
  | some anchor =>
      have hblock : anchor.blockNumber = n := by simpa using holds_of_lastWhere hlast
      have hget := ((hread anchor).mp (mem_of_lastWhere hlast)).1
      rw [hblock] at hget
      exact hget.symm
  | none =>
      apply Eq.symm
      apply Option.eq_none_iff_forall_not_mem.mpr
      intro anchor hget
      obtain ⟨_, _, rfl⟩ := BlockAnchor.key_of_get hget
      have hmem := (hread anchor).mpr ⟨hget, hfrom, hto⟩
      have hother := lastWhere_eq_none_iff.mp hlast anchor hmem
      rw [beq_self_eq_true] at hother
      cases hother

end

/-- Deleting the anchors of a chain and a dataset from a block on. -/
theorem get_deleteWhere_anchor {t : Table BlockAnchor} {p : BlockAnchor → Bool} {chainId : Nat}
    {dataset : String} {rollbackBlock : Nat}
    (hp : ∀ a, p a = true ↔ a.chainId = chainId ∧ a.dataset = dataset ∧ rollbackBlock ≤ a.blockNumber)
    (chainId' : Nat) (dataset' : String) (n : Nat) :
    (t.deleteWhere p).get (chainId', dataset', n) =
      if chainId' = chainId ∧ dataset' = dataset ∧ rollbackBlock ≤ n then none
      else t.get (chainId', dataset', n) := by
  rw [Table.get_deleteWhere]
  cases hget : t.get (chainId', dataset', n) with
  | none => simp
  | some a =>
      obtain ⟨rfl, rfl, rfl⟩ := BlockAnchor.key_of_get hget
      by_cases h : p a = true
      · rw [if_pos ((hp a).mp h)]
        simp [Option.filter, h]
      · rw [if_neg fun hsel => h ((hp a).mpr hsel)]
        simp [Option.filter, h]

namespace Postgres

/-- An UPDATE of the assignment columns of accepted rows. -/
theorem eventRow_updateAccepted {db : Database} {p : OrmpMessageAcceptedRow → Bool}
    {f : OrmpMessageAcceptedRow → OrmpMessageAcceptedRow}
    (hf : ∀ r, Keyed.key (f r) = Keyed.key r) (hcore : ∀ r, (f r).core = r.core)
    (k : LegacyTable × String) :
    Database.eventRow
      { db with ormpMessageAccepted := db.ormpMessageAccepted.updateWhere p f hf } k =
      db.eventRow k := by
  obtain ⟨t, id⟩ := k
  cases t with
  | ormpMessageAccepted =>
      simp only [Database.eventRow, Table.get_updateWhere, Option.map_map]
      refine congrArg (Option.map · _) (funext fun r => ?_)
      simp only [Function.comp]
      split
      · rw [hcore]
      · rfl
  | _ => rfl

@[simp]
theorem core_setAssignment (a : OrmpMessageAssignedRow) (p q s : Bool) (v : String)
    (r : OrmpMessageAcceptedRow) : (setAssignment a p q s v r).core = r.core := rfl

variable (self : Postgres)

@[simp]
theorem eventRow_backfillMessageAssignment (db : Database) (a : OrmpMessageAssignedRow)
    (k : LegacyTable × String) :
    (self.backfillMessageAssignment db a).eventRow k = db.eventRow k := by
  unfold backfillMessageAssignment
  extract_lets
  split
  · rfl
  · exact eventRow_updateAccepted _ (core_setAssignment _ _ _ _ _) k

@[simp]
theorem eventRow_foldl_backfill (l : List OrmpMessageAssignedRow) (db : Database)
    (k : LegacyTable × String) :
    (l.foldl self.backfillMessageAssignment db).eventRow k = db.eventRow k := by
  induction l generalizing db with
  | nil => rfl
  | cons a l ih => rw [List.foldl_cons, ih, eventRow_backfillMessageAssignment]

/-- Inserting into one table, read through the map. -/
theorem map_get_upsert {ρ : Type} [Keyed ρ String] (t : Table ρ) (r : ρ) (f : ρ → LegacyRow)
    (id : String) : ((t.upsert r).get id).map f =
      if Keyed.key r = id then some (f r) else (t.get id).map f := by
  rw [Table.get_upsert]
  split <;> rfl

/-- A statement that puts a row into its table and leaves the other six alone. -/
theorem eventRow_of_put {db db' : Database} (r : LegacyRow)
    (put : ∀ id, db'.eventRow (r.table, id) = if r.id = id then some r else db.eventRow (r.table, id))
    (keep : ∀ t id, t ≠ r.table → db'.eventRow (t, id) = db.eventRow (t, id))
    (k : LegacyTable × String) :
    db'.eventRow k = if r.key = k then some r else db.eventRow k := by
  obtain ⟨t, id⟩ := k
  by_cases ht : t = r.table
  · subst ht
    rw [put]
    simp [LegacyRow.key]
  · rw [keep t id ht, if_neg]
    intro hkey
    exact ht (congrArg Prod.fst hkey).symm

theorem eventRow_insertMessageAccepted (db : Database) (row : OrmpMessageAcceptedRow)
    (k : LegacyTable × String) :
    (insertMessageAccepted db row).eventRow k =
      if (LegacyRow.ormpMessageAccepted row.core).key = k then some (.ormpMessageAccepted row.core)
      else db.eventRow k := by
  refine eventRow_of_put (.ormpMessageAccepted row.core) (fun id => ?_) (fun t id h => ?_) k
  · exact map_get_upsert db.ormpMessageAccepted _ (fun r => .ormpMessageAccepted r.core) id
  · cases t <;> first | rfl | exact absurd rfl h

/-- Writing an event sets the row at its key and no other. -/
theorem eventRow_writeLegacyEvent (db : Database) (e : LegacyOrmPEvent)
    (k : LegacyTable × String) :
    (self.writeLegacyEvent db e).eventRow k =
      if eventKey e = k then some (rowOf e) else db.eventRow k := by
  cases e with
  | messageAccepted e =>
      -- the backfill behind the INSERT does not show in the map
      rw [writeLegacyEvent, backfillAcceptedAssignment, eventRow_foldl_backfill,
        eventRow_insertMessageAccepted]
      rfl
  | messageAssigned e =>
      rw [writeLegacyEvent, eventRow_backfillMessageAssignment]
      refine eventRow_of_put (rowOf (.messageAssigned e)) (fun id => ?_) (fun t id h => ?_) k
      · exact map_get_upsert db.ormpMessageAssigned (.fromEvent e) .ormpMessageAssigned id
      · cases t <;> first | rfl | exact absurd rfl h
  | hashImported e =>
      refine eventRow_of_put (rowOf (.hashImported e)) (fun id => ?_) (fun t id h => ?_) k
      · exact map_get_upsert db.ormpHashImported (.fromEvent e) .ormpHashImported id
      · cases t <;> first | rfl | exact absurd rfl h
  | messageDispatched e =>
      refine eventRow_of_put (rowOf (.messageDispatched e)) (fun id => ?_) (fun t id h => ?_) k
      · exact map_get_upsert db.ormpMessageDispatched (.fromEvent e) .ormpMessageDispatched id
      · cases t <;> first | rfl | exact absurd rfl h
  | msgportMessageRecv e =>
      refine eventRow_of_put (rowOf (.msgportMessageRecv e)) (fun id => ?_) (fun t id h => ?_) k
      · exact map_get_upsert db.msgportMessageRecv (.fromEvent e) .msgportMessageRecv id
      · cases t <;> first | rfl | exact absurd rfl h
  | msgportMessageSent e =>
      refine eventRow_of_put (rowOf (.msgportMessageSent e)) (fun id => ?_) (fun t id h => ?_) k
      · exact map_get_upsert db.msgportMessageSent (.fromEvent e) .msgportMessageSent id
      · cases t <;> first | rfl | exact absurd rfl h
  | signatureSubmittion e =>
      refine eventRow_of_put (rowOf (.signatureSubmittion e)) (fun id => ?_) (fun t id h => ?_) k
      · exact map_get_upsert db.signaturePubSignatureSubmittion (.fromEvent e)
          .signaturePubSignatureSubmittion id
      · cases t <;> first | rfl | exact absurd rfl h

/-- After a list of events every key holds the row of the LAST event written there. -/
theorem eventRow_writeEvents (db : Database) (events : List LegacyOrmPEvent)
    (k : LegacyTable × String) :
    (self.writeEvents db events).eventRow k =
      ((lastWhere (fun e => eventKey e == k) events).map rowOf).or (db.eventRow k) := by
  unfold writeEvents
  induction events using List.reverseRecOn with
  | nil => rfl
  | append_singleton events e ih =>
      rw [List.foldl_append, List.foldl_cons, List.foldl_nil, eventRow_writeLegacyEvent, ih,
        lastWhere_concat]
      by_cases h : eventKey e = k <;> simp [h]

/-- Every row is the one written last or one that was there. -/
theorem eventRow_writeEvents_eq_some {db : Database} {events : List LegacyOrmPEvent}
    {k : LegacyTable × String} {r : LegacyRow}
    (h : (self.writeEvents db events).eventRow k = some r) :
    (∃ e ∈ events, eventKey e = k ∧ rowOf e = r) ∨ db.eventRow k = some r := by
  rw [eventRow_writeEvents, Option.or_eq_some_iff] at h
  rcases h with h | ⟨_, h⟩
  · obtain ⟨e, he, rfl⟩ := Option.map_eq_some_iff.mp h
    exact .inl ⟨e, mem_of_lastWhere he, by simpa using holds_of_lastWhere he, rfl⟩
  · exact .inr h

/-! ## Rollback, on the map -/

/-- The rows a rollback deletes: those of the chain from the rollback block on, and the signature rows
that an anchor selects. -/
def rollbackSelects (db : Database) (chainId : Nat) (dataset : String) (rollbackBlock : Nat)
    (r : LegacyRow) : Bool :=
  rolledBack chainId rollbackBlock r.chainId r.blockNumber ||
    match r with
    | .signaturePubSignatureSubmittion s =>
        self.selectedByAnchor db chainId dataset rollbackBlock s
    | _ => false

theorem map_get_deleteWhere {ρ : Type} [Keyed ρ String] (t : Table ρ) (p : ρ → Bool)
    (f : ρ → LegacyRow) (q : LegacyRow → Bool) (h : ∀ r, q (f r) = !p r) (id : String) :
    ((t.deleteWhere p).get id).map f = ((t.get id).map f).filter q := by
  rw [Table.get_deleteWhere, Option.filter_map]
  refine congrArg (Option.map f) (congrArg (Option.filter · _) (funext fun r => ?_))
  exact (h r).symm

theorem filter_map_of_forall {ρ : Type} (o : Option ρ) (f : ρ → LegacyRow) (q : LegacyRow → Bool)
    (h : ∀ r, q (f r) = true) : (o.map f).filter q = o.map f := by
  cases o <;> simp [h]

theorem eventRow_deleteLegacyRows (db : Database) (chainId rollbackBlock : Nat)
    (k : LegacyTable × String) :
    (deleteLegacyRows db chainId rollbackBlock).eventRow k =
      (db.eventRow k).filter fun r => !rolledBack chainId rollbackBlock r.chainId r.blockNumber := by
  obtain ⟨t, id⟩ := k
  cases t <;> exact map_get_deleteWhere _ _ _ _ (fun _ => rfl) id

theorem eventRow_deleteSignatures (db : Database) (chainId : Nat) (dataset : String)
    (rollbackBlock : Nat) (k : LegacyTable × String) :
    (self.deleteSignatureSubmittionsBySourceAnchors db chainId dataset rollbackBlock).eventRow k =
      (db.eventRow k).filter fun r =>
        match r with
        | .signaturePubSignatureSubmittion s =>
            !self.selectedByAnchor db chainId dataset rollbackBlock s
        | _ => true := by
  obtain ⟨t, id⟩ := k
  cases t with
  | signaturePubSignatureSubmittion => exact map_get_deleteWhere _ _ _ _ (fun _ => rfl) id
  | _ => exact (filter_map_of_forall _ _ _ fun _ => rfl).symm

theorem eventRow_recompute (db : Database) (msgHashes : List String) (k : LegacyTable × String) :
    (self.recomputeAcceptedAssignments db msgHashes).eventRow k = db.eventRow k := by
  unfold recomputeAcceptedAssignments
  split
  · rfl
  · dsimp only
    rw [eventRow_foldl_backfill]
    exact eventRow_updateAccepted _ OrmpMessageAcceptedRow.core_core k

/-- A rollback is a filter on the event rows. -/
theorem eventRow_rollbackLegacyFrom (db : Database) (chainId : Nat) (dataset : String)
    (rollbackBlock : Nat) (k : LegacyTable × String) :
    (self.rollbackLegacyFrom db chainId dataset rollbackBlock).eventRow k =
      (db.eventRow k).filter fun r =>
        !self.rollbackSelects db chainId dataset rollbackBlock r := by
  have tail : (self.rollbackLegacyFrom db chainId dataset rollbackBlock).eventRow k =
      (deleteLegacyRows (self.deleteSignatureSubmittionsBySourceAnchors db chainId dataset
        rollbackBlock) chainId rollbackBlock).eventRow k :=
    self.eventRow_recompute _ _ k
  rw [tail, eventRow_deleteLegacyRows, eventRow_deleteSignatures, Option.filter_filter]
  refine congrArg (Option.filter · _) (funext fun r => ?_)
  unfold rollbackSelects
  cases r <;> simp [Bool.and_comm]

/-! ## Anchors and checkpoints -/

/-- The database with other anchors and checkpoints. -/
def withProgress (anchors : Table BlockAnchor) (checkpoints : Table Checkpoint) (db : Database) :
    Database :=
  { db with blockAnchor := anchors, checkpoint := checkpoints }

section

variable (anchors : Table BlockAnchor) (checkpoints : Table Checkpoint)

theorem backfill_withProgress (db : Database) (a : OrmpMessageAssignedRow) :
    self.backfillMessageAssignment (withProgress anchors checkpoints db) a =
      withProgress anchors checkpoints (self.backfillMessageAssignment db a) := by
  unfold backfillMessageAssignment
  extract_lets
  split <;> rfl

theorem foldl_backfill_withProgress (l : List OrmpMessageAssignedRow) (db : Database) :
    l.foldl self.backfillMessageAssignment (withProgress anchors checkpoints db) =
      withProgress anchors checkpoints (l.foldl self.backfillMessageAssignment db) := by
  induction l generalizing db with
  | nil => rfl
  | cons a l ih => rw [List.foldl_cons, List.foldl_cons, backfill_withProgress, ih]

theorem writeLegacyEvent_withProgress (db : Database) (e : LegacyOrmPEvent) :
    self.writeLegacyEvent (withProgress anchors checkpoints db) e =
      withProgress anchors checkpoints (self.writeLegacyEvent db e) := by
  cases e with
  | messageAccepted e =>
      exact self.foldl_backfill_withProgress anchors checkpoints
        (self.assignmentsOf (insertMessageAccepted db (.fromEvent e)) [e.msgHash])
        (insertMessageAccepted db (.fromEvent e))
  | messageAssigned e =>
      exact self.backfill_withProgress anchors checkpoints (insertMessageAssigned db (.fromEvent e))
        (.fromEvent e)
  | _ => rfl

/-- Events are written whatever the anchors and checkpoints are. -/
theorem writeEvents_withProgress (db : Database) (events : List LegacyOrmPEvent) :
    self.writeEvents (withProgress anchors checkpoints db) events =
      withProgress anchors checkpoints (self.writeEvents db events) := by
  unfold writeEvents
  induction events generalizing db with
  | nil => rfl
  | cons e events ih => rw [List.foldl_cons, List.foldl_cons, writeLegacyEvent_withProgress, ih]

theorem recompute_withProgress (db : Database) (msgHashes : List String) :
    self.recomputeAcceptedAssignments (withProgress anchors checkpoints db) msgHashes =
      withProgress anchors checkpoints (self.recomputeAcceptedAssignments db msgHashes) := by
  unfold recomputeAcceptedAssignments
  split
  · rfl
  · exact self.foldl_backfill_withProgress anchors checkpoints
      (self.assignmentsOf (clearAssignments db msgHashes) msgHashes) (clearAssignments db msgHashes)

end

/-- The tables that hold no events. -/
def progress (db : Database) : Table BlockAnchor × Table Checkpoint := (db.blockAnchor, db.checkpoint)

/-- What does not care about anchors and checkpoints leaves them alone. -/
theorem progress_eq_of_withProgress (f : Database → Database)
    (h : ∀ anchors checkpoints db,
      f (withProgress anchors checkpoints db) = withProgress anchors checkpoints (f db))
    (db : Database) : progress (f db) = progress db := by
  have same : withProgress db.blockAnchor db.checkpoint db = db := rfl
  have hf := h db.blockAnchor db.checkpoint db
  rw [same] at hf
  rw [hf]
  rfl

/-- Writing events leaves anchors and checkpoints alone. -/
theorem progress_writeEvents (db : Database) (events : List LegacyOrmPEvent) :
    progress (self.writeEvents db events) = progress db :=
  progress_eq_of_withProgress (self.writeEvents · events)
    (fun a c db => self.writeEvents_withProgress a c db events) db

theorem progress_recompute (db : Database) (msgHashes : List String) :
    progress (self.recomputeAcceptedAssignments db msgHashes) = progress db :=
  progress_eq_of_withProgress (self.recomputeAcceptedAssignments · msgHashes)
    (fun a c db => self.recompute_withProgress a c db msgHashes) db

theorem get_foldl_upsert_anchor (anchors : List BlockAnchor) (t : Table BlockAnchor)
    (k : Nat × String × Nat) :
    (anchors.foldl Table.upsert t).get k =
      (lastWhere (fun a => Keyed.key a == k) anchors).or (t.get k) := by
  induction anchors using List.reverseRecOn with
  | nil => rfl
  | append_singleton anchors a ih =>
      rw [List.foldl_append, List.foldl_cons, List.foldl_nil, Table.get_upsert, ih, lastWhere_concat]
      by_cases h : Keyed.key a = k <;> simp [h]

/-! ## Anchors of a range -/

theorem blockNumberLe_total (m n : Nat) :
    self.blockNumberLe m n = true ∨ self.blockNumberLe n m = true := by
  simpa [blockNumberLe] using self.locale.le_total (toString m) (toString n)

theorem blockNumberLe_trans {l m n : Nat} (hlm : self.blockNumberLe l m = true)
    (hmn : self.blockNumberLe m n = true) : self.blockNumberLe l n = true :=
  self.locale.le_trans _ _ _ hlm hmn

/-- A number has one numeral. -/
theorem blockNumberLe_antisymm {m n : Nat} (hmn : self.blockNumberLe m n = true)
    (hnm : self.blockNumberLe n m = true) : m = n :=
  toString_nat_inj (self.locale.le_antisymm _ _ hmn hnm)

/-- The order in which anchors are read. -/
def AnchorLe (a b : BlockAnchor) : Prop := self.blockNumberLe a.blockNumber b.blockNumber = true

instance : DecidableRel self.AnchorLe := fun a b =>
  inferInstanceAs (Decidable (self.blockNumberLe a.blockNumber b.blockNumber = true))

instance : Std.Total self.AnchorLe := ⟨fun a b => self.blockNumberLe_total a.blockNumber b.blockNumber⟩

instance : IsTrans BlockAnchor self.AnchorLe := ⟨fun _ _ _ => self.blockNumberLe_trans⟩

theorem mem_readBlockAnchors {db : Database} {chainId : Nat} {dataset : String}
    {fromBlock toBlock : Nat} {anchor : BlockAnchor} :
    anchor ∈ self.readBlockAnchors db chainId dataset fromBlock toBlock ↔
      db.blockAnchor.get (chainId, dataset, anchor.blockNumber) = some anchor ∧
        fromBlock ≤ anchor.blockNumber ∧ anchor.blockNumber ≤ toBlock :=
  (List.mem_insertionSort _).trans mem_select_anchorInRange

theorem pairwise_readBlockAnchors (db : Database) (chainId : Nat) (dataset : String)
    (fromBlock toBlock : Nat) :
    (self.readBlockAnchors db chainId dataset fromBlock toBlock).Pairwise self.AnchorLe :=
  List.pairwise_insertionSort self.AnchorLe _

/-- The anchor that is read for a block is the one stored for it. -/
theorem get_of_readBlockAnchors {db : Database} {chainId : Nat} {dataset : String}
    {fromBlock toBlock n : Nat} {anchor : BlockAnchor}
    (h : lastWhere (fun anchor => anchor.blockNumber == n)
      (self.readBlockAnchors db chainId dataset fromBlock toBlock) = some anchor) :
    db.blockAnchor.get (chainId, dataset, n) = some anchor := by
  have hblock : anchor.blockNumber = n := by simpa using holds_of_lastWhere h
  rw [← hblock]
  exact (self.mem_readBlockAnchors.mp (mem_of_lastWhere h)).1

/-- Which anchors are read depends on the anchors of the chain only. -/
theorem readBlockAnchors_congr {db db' : Database} {chainId : Nat} {dataset : String}
    (h : ∀ n, db.blockAnchor.get (chainId, dataset, n) = db'.blockAnchor.get (chainId, dataset, n))
    (fromBlock toBlock : Nat) : self.readBlockAnchors db chainId dataset fromBlock toBlock =
      self.readBlockAnchors db' chainId dataset fromBlock toBlock := by
  have hsame : ∀ anchor, anchor ∈ self.readBlockAnchors db chainId dataset fromBlock toBlock ↔
      anchor ∈ self.readBlockAnchors db' chainId dataset fromBlock toBlock := by
    intro anchor
    rw [self.mem_readBlockAnchors, self.mem_readBlockAnchors, h]
  have hnodup : ∀ db, (self.readBlockAnchors db chainId dataset fromBlock toBlock).Nodup := by
    intro db
    exact (List.perm_insertionSort _ _).nodup_iff.mpr (Table.nodup_select _ _)
  apply List.Perm.eq_of_pairwise _ (self.pairwise_readBlockAnchors db chainId dataset fromBlock toBlock)
    (self.pairwise_readBlockAnchors db' chainId dataset fromBlock toBlock)
  · exact (List.perm_ext_iff_of_nodup (hnodup db) (hnodup db')).mpr hsame
  · -- of one block number there is one anchor
    intro a b ha hb hab hba
    have hblock := self.blockNumberLe_antisymm hab hba
    have hgeta := (self.mem_readBlockAnchors.mp ha).1
    have hgetb := (self.mem_readBlockAnchors.mp hb).1
    rw [← h, ← hblock, hgeta] at hgetb
    exact Option.some.inj hgetb

/-- Every stored anchor of the range is read. -/
theorem lastWhere_readBlockAnchors {db : Database} {chainId : Nat} {dataset : String}
    {fromBlock toBlock n : Nat} (hfrom : fromBlock ≤ n) (hto : n ≤ toBlock) :
    lastWhere (fun anchor => anchor.blockNumber == n)
      (self.readBlockAnchors db chainId dataset fromBlock toBlock) =
        db.blockAnchor.get (chainId, dataset, n) :=
  lastWhere_eq_get_anchor (fun _ => self.mem_readBlockAnchors) hfrom hto

section

variable (db : Database) (events : List LegacyOrmPEvent) (anchors : List BlockAnchor)
  (chainId : Nat) (dataset : String) (nextBlock rollbackBlock : Nat)

theorem checkpoint_commit :
    (self.writeEventsAndAdvanceCheckpoint db events anchors chainId dataset nextBlock).checkpoint =
      db.checkpoint.upsert { chainId, dataset, nextBlock } := by
  have h : (self.writeEvents db events).checkpoint = db.checkpoint :=
    congrArg Prod.snd (self.progress_writeEvents db events)
  rw [← h]
  rfl

theorem blockAnchor_commit :
    (self.writeEventsAndAdvanceCheckpoint db events anchors chainId dataset nextBlock).blockAnchor =
      anchors.foldl Table.upsert db.blockAnchor := by
  have h : (self.writeEvents db events).blockAnchor = db.blockAnchor :=
    congrArg Prod.fst (self.progress_writeEvents db events)
  rw [← h]
  rfl

/-- The database just before a rollback touches anchors and checkpoint. -/
def rolledBackRows : Database :=
  self.recomputeAcceptedAssignments
    (deleteLegacyRows (self.deleteSignatureSubmittionsBySourceAnchors db chainId dataset
      rollbackBlock) chainId rollbackBlock) (rolledBackAssignmentMsgHashes db chainId rollbackBlock)

theorem progress_rolledBackRows :
    progress (self.rolledBackRows db chainId dataset rollbackBlock) = progress db :=
  self.progress_recompute _ _

theorem checkpoint_rollback :
    (self.rollbackLegacyFrom db chainId dataset rollbackBlock).checkpoint =
      db.checkpoint.upsert { chainId, dataset, nextBlock := rollbackBlock } := by
  have h : (self.rolledBackRows db chainId dataset rollbackBlock).checkpoint = db.checkpoint :=
    congrArg Prod.snd (self.progress_rolledBackRows db chainId dataset rollbackBlock)
  rw [← h]
  rfl

theorem blockAnchor_rollback :
    (self.rollbackLegacyFrom db chainId dataset rollbackBlock).blockAnchor =
      db.blockAnchor.deleteWhere fun anchor =>
        anchor.chainId == chainId && anchor.dataset == dataset &&
          decide (rollbackBlock ≤ anchor.blockNumber) := by
  have h : (self.rolledBackRows db chainId dataset rollbackBlock).blockAnchor = db.blockAnchor :=
    congrArg Prod.fst (self.progress_rolledBackRows db chainId dataset rollbackBlock)
  rw [← h]
  rfl

end

end Postgres

end OrmpIndexer
