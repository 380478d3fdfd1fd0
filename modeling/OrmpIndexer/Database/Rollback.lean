/-
# OrmpIndexer.Database.Rollback — what a rollback takes back

All chains share the event tables, and a rollback selects the rows of its chain by the `chain_id` column.
For six tables that is the chain that emitted the log. A signature row is filed under the chain its
PAYLOAD names: a rollback deletes the rows of other chains that name its chain, and finds the rows of its
own chain that name another one through the anchors alone, by block number and by the id's beginning.

The rows are those of a list of events written to a store without event rows; anchors and checkpoints are
arbitrary. `LastWritten` says which events are stored.
-/
import OrmpIndexer.Database.Assignments
import OrmpIndexer.Planner

namespace OrmpIndexer

open Foundation

namespace Postgres

/-! ## Stored events -/

/-- The event is the last one of its row id, so its row is the stored one. -/
def LastWritten (events : List LegacyOrmPEvent) (e : LegacyOrmPEvent) : Prop :=
  lastWhere (fun e' => eventKey e' == eventKey e) events = some e

instance (events : List LegacyOrmPEvent) (e : LegacyOrmPEvent) : Decidable (LastWritten events e) :=
  inferInstanceAs (Decidable (_ = some e))

/-- A store without event rows. -/
def NoEvents (db : Database) : Prop := ∀ k, db.eventRow k = none

section

variable {pg : Postgres} {base : Database} {events : List LegacyOrmPEvent}

theorem eventRow_of_lastWritten (hbase : NoEvents base) {e : LegacyOrmPEvent}
    (h : LastWritten events e) : (pg.writeEvents base events).eventRow (eventKey e) = some (rowOf e) := by
  rw [eventRow_writeEvents, h, hbase]
  rfl

theorem lastWritten_of_eventRow (hbase : NoEvents base) {k : LegacyTable × String} {r : LegacyRow}
    (h : (pg.writeEvents base events).eventRow k = some r) :
    ∃ e, LastWritten events e ∧ eventKey e = k ∧ rowOf e = r := by
  rw [eventRow_writeEvents, hbase, Option.or_none] at h
  obtain ⟨e, he, rfl⟩ := Option.map_eq_some_iff.mp h
  have hkey : eventKey e = k := by simpa using holds_of_lastWhere he
  subst hkey
  exact ⟨e, he, rfl, rfl⟩

/-- Accepted rows are those of accepted events. -/
theorem accepted_of_written (hbase : NoEvents base) {id : String} {r : OrmpMessageAcceptedRow}
    (h : (pg.writeEvents base events).ormpMessageAccepted.get id = some r) :
    ∃ e, LastWritten events (.messageAccepted e) ∧ r.core = .fromEvent e := by
  have hrow : (pg.writeEvents base events).eventRow (.ormpMessageAccepted, id) =
      some (.ormpMessageAccepted r.core) := by simp only [Database.eventRow, h, Option.map_some]
  obtain ⟨e, he, _, hr⟩ := lastWritten_of_eventRow hbase hrow
  cases e with
  | messageAccepted e => exact ⟨e, he, (LegacyRow.ormpMessageAccepted.inj hr).symm⟩
  | _ => cases hr

theorem id_eq_msgHash (hbase : NoEvents base) {id : String} {r : OrmpMessageAcceptedRow}
    (h : (pg.writeEvents base events).ormpMessageAccepted.get id = some r) : r.id = r.msgHash := by
  obtain ⟨e, _, hcore⟩ := accepted_of_written hbase h
  show r.core.id = r.core.msgHash
  rw [hcore]
  rfl

end

/-! ## Other chains -/

/-- The rollback leaves the rows of other chains and the rows of the chain below its block, assignment
columns aside. -/
structure KeepsRows (pg : Postgres) (db : Database) (events : List LegacyOrmPEvent) (chainId : Nat)
    (dataset : String) (rollbackBlock : Nat) : Prop where
  other : ∀ e, LastWritten events e → e.metadata.chainId ≠ chainId →
    (pg.rollbackLegacyFrom db chainId dataset rollbackBlock).eventRow (eventKey e) = some (rowOf e)
  below : ∀ e, LastWritten events e → e.metadata.chainId = chainId →
    e.metadata.blockNumber < rollbackBlock →
    (pg.rollbackLegacyFrom db chainId dataset rollbackBlock).eventRow (eventKey e) = some (rowOf e)

/-- No stored signature row of another chain names the chain from the rollback block on, or is selected
by an anchor of the chain. -/
def SparesSignatures (pg : Postgres) (db : Database) (events : List LegacyOrmPEvent) (chainId : Nat)
    (dataset : String) (rollbackBlock : Nat) : Prop :=
  ∀ s : SignatureSubmittion, LastWritten events (.signatureSubmittion s) →
    s.metadata.chainId ≠ chainId →
    ¬(s.chainId = chainId ∧ rollbackBlock ≤ s.metadata.blockNumber) ∧
      pg.selectedByAnchor db chainId dataset rollbackBlock (.fromEvent s) = false

/-- The rollback leaves the accepted rows of other chains, assignment columns included. -/
def KeepsColumns (pg : Postgres) (db : Database) (chainId : Nat) (dataset : String)
    (rollbackBlock : Nat) : Prop :=
  ∀ id r, db.ormpMessageAccepted.get id = some r → r.chainId ≠ chainId →
    (pg.rollbackLegacyFrom db chainId dataset rollbackBlock).ormpMessageAccepted.get id = some r

/-- The store without the assignments of the chain from the rollback block on. -/
def withoutAssignments (db : Database) (chainId rollbackBlock : Nat) : Database :=
  { db with
    ormpMessageAssigned := db.ormpMessageAssigned.deleteWhere fun r =>
      rolledBack chainId rollbackBlock r.chainId r.blockNumber }

/-- The lane holds what the assignments below the rollback settle on, and NULL if there are none. -/
def SettledBelow (pg : Postgres) (db : Database) (chainId rollbackBlock : Nat)
    (r : OrmpMessageAcceptedRow) (lane : Lane) : Prop :=
  r.lane lane =
    ((pg.settled (withoutAssignments db chainId rollbackBlock) lane r).map (value lane)).getD .null

section

variable {pg : Postgres} {base : Database} {events : List LegacyOrmPEvent}
variable {chainId : Nat} {dataset : String} {rollbackBlock : Nat}

/-- A stored event survives a rollback exactly if the rollback does not select its row. -/
theorem eventRow_rollback_iff {db : Database} {e : LegacyOrmPEvent}
    (h : db.eventRow (eventKey e) = some (rowOf e)) :
    (pg.rollbackLegacyFrom db chainId dataset rollbackBlock).eventRow (eventKey e) = some (rowOf e) ↔
      pg.rollbackSelects db chainId dataset rollbackBlock (rowOf e) = false := by
  rw [eventRow_rollbackLegacyFrom, h, Option.filter_eq_some_iff]
  simp

/-- A row that is no signature row is selected by its chain and its block. -/
theorem rollbackSelects_of_not_signature {db : Database} {e : LegacyOrmPEvent}
    (h : ∀ s, e ≠ .signatureSubmittion s) :
    pg.rollbackSelects db chainId dataset rollbackBlock (rowOf e) =
      rolledBack chainId rollbackBlock e.metadata.chainId e.metadata.blockNumber := by
  cases e with
  | signatureSubmittion s => exact absurd rfl (h s)
  | _ => exact Bool.or_false _

/-- An anchor selects signature rows of its own block. -/
theorem selectedByAnchor_le {db : Database} {row : SignaturePubSignatureSubmittionRow}
    (h : pg.selectedByAnchor db chainId dataset rollbackBlock row = true) :
    rollbackBlock ≤ row.blockNumber := by
  obtain ⟨anchor, hanchor, hselects⟩ := List.any_eq_true.mp h
  have hle := (Table.mem_select.mp hanchor).2
  simp only [Bool.and_eq_true, decide_eq_true_eq] at hle
  have hblock := beq_iff_eq.mp (Bool.and_eq_true_iff.mp hselects).1
  omega

/-- Nothing below its block is selected by a rollback. -/
theorem rollbackSelects_below {db : Database} {e : LegacyOrmPEvent}
    (h : e.metadata.blockNumber < rollbackBlock) :
    pg.rollbackSelects db chainId dataset rollbackBlock (rowOf e) = false := by
  rw [← blockNumber_rowOf] at h
  have hrolled : rolledBack chainId rollbackBlock (rowOf e).chainId (rowOf e).blockNumber = false := by
    simp only [rolledBack, Bool.and_eq_false_iff, decide_eq_false_iff_not]
    exact .inr (by omega)
  unfold rollbackSelects
  rw [hrolled, Bool.false_or]
  cases hrow : rowOf e with
  | signaturePubSignatureSubmittion s =>
      rw [hrow] at h
      apply Bool.eq_false_of_not_eq_true
      intro hanchor
      have hle := selectedByAnchor_le hanchor
      change s.blockNumber < rollbackBlock at h
      omega
  | _ => rfl

theorem keepsRows_iff (hbase : NoEvents base) :
    KeepsRows pg (pg.writeEvents base events) events chainId dataset rollbackBlock ↔
      SparesSignatures pg (pg.writeEvents base events) events chainId dataset rollbackBlock := by
  constructor
  · intro h s hs hchain
    have hkept := (eventRow_rollback_iff (eventRow_of_lastWritten hbase hs)).mp (h.other _ hs hchain)
    simp only [rollbackSelects, rowOf, Bool.or_eq_false_iff] at hkept
    refine ⟨fun ⟨hnames, hle⟩ => ?_, hkept.2⟩
    have hrolled : rolledBack chainId rollbackBlock s.chainId s.metadata.blockNumber = false := hkept.1
    simp [rolledBack, hnames, hle] at hrolled
  · intro h
    constructor
    · intro e he hchain
      apply (eventRow_rollback_iff (eventRow_of_lastWritten hbase he)).mpr
      -- only a signature row can be in danger
      by_cases hsig : ∃ s, e = .signatureSubmittion s
      · obtain ⟨s, rfl⟩ := hsig
        obtain ⟨hnames, hanchor⟩ := h s he hchain
        have hrolled : rolledBack chainId rollbackBlock s.chainId s.metadata.blockNumber = false := by
          simp only [rolledBack, Bool.and_eq_false_iff, beq_eq_false_iff_ne, decide_eq_false_iff_not]
          by_cases hc : s.chainId = chainId
          · exact .inr fun hle => hnames ⟨hc, hle⟩
          · exact .inl hc
        show (rolledBack chainId rollbackBlock s.chainId s.metadata.blockNumber ||
          pg.selectedByAnchor _ chainId dataset rollbackBlock (.fromEvent s)) = false
        rw [hrolled, hanchor]
        rfl
      · rw [rollbackSelects_of_not_signature fun s hs => hsig ⟨s, hs⟩]
        simp [rolledBack, hchain]
    · intro e he _ hlt
      exact (eventRow_rollback_iff (eventRow_of_lastWritten hbase he)).mpr (rollbackSelects_below hlt)

theorem keepsColumns_iff (hbase : NoEvents base) :
    KeepsColumns pg (pg.writeEvents base events) chainId dataset rollbackBlock ↔
      ∀ id r, (pg.writeEvents base events).ormpMessageAccepted.get id = some r →
        r.chainId ≠ chainId → r.msgHash ∈ rolledBackAssignmentMsgHashes (pg.writeEvents base events)
          chainId rollbackBlock →
        ∀ lane, pg.SettledBelow (pg.writeEvents base events) chainId rollbackBlock r lane := by
  have settles : ∀ lane r, pg.settled (pg.rollbackLegacyFrom (pg.writeEvents base events) chainId
      dataset rollbackBlock) lane r =
      pg.settled (withoutAssignments (pg.writeEvents base events) chainId rollbackBlock) lane r :=
    fun lane r => by
      rw [settled, assignmentsOf, ormpMessageAssigned_rollback]
      rfl
  refine forall_congr' fun id => forall_congr' fun r => forall_congr' fun hr =>
    forall_congr' fun hchain => ?_
  -- a row of another chain is not deleted, but its message may be recomputed
  have kept : ((pg.writeEvents base events).ormpMessageAccepted.get id).filter
      (fun r => !rolledBack chainId rollbackBlock r.chainId r.blockNumber) = some r := by
    rw [hr]
    simp [rolledBack, hchain]
  have hlane := pg.lane_recomputed (pg.rollbackLegacyFrom (pg.writeEvents base events) chainId dataset
    rollbackBlock) (rolledBackAssignmentMsgHashes (pg.writeEvents base events) chainId rollbackBlock)
    (id_eq_msgHash hbase hr)
  rw [get_accepted_rollback, kept, Option.map_some, Option.some.injEq]
  constructor
  · intro h hmem lane
    have := hlane lane
    rw [h, if_pos hmem, settles] at this
    exact this
  · intro h
    apply accepted_ext (pg.core_recomputed _ _ r)
    intro lane
    rw [hlane]
    split
    · rename_i hmem
      rw [settles]
      exact (h hmem lane).symm
    · rfl

end

/-- **A rollback touches one chain.** After any events of any chains it leaves the rows of other chains,
and the rows of its chain below its block, exactly if it spares the signature rows of other chains. The
assignment columns of another chain's accepted row stay as they are exactly if the message lost no
assignment or the columns were already settled by the ones that are left. -/
theorem rollback_keeps_other_chains_iff (pg : Postgres) (base : Database) (hbase : NoEvents base)
    (events : List LegacyOrmPEvent) (chainId : Nat) (dataset : String) (rollbackBlock : Nat) :
    (KeepsRows pg (pg.writeEvents base events) events chainId dataset rollbackBlock ↔
      SparesSignatures pg (pg.writeEvents base events) events chainId dataset rollbackBlock) ∧
    (KeepsColumns pg (pg.writeEvents base events) chainId dataset rollbackBlock ↔
      ∀ id r, (pg.writeEvents base events).ormpMessageAccepted.get id = some r →
        r.chainId ≠ chainId → r.msgHash ∈ rolledBackAssignmentMsgHashes (pg.writeEvents base events)
          chainId rollbackBlock →
        ∀ lane, pg.SettledBelow (pg.writeEvents base events) chainId rollbackBlock r lane) :=
  ⟨keepsRows_iff hbase, keepsColumns_iff hbase⟩

/-- A signature submitted on one chain for messages of another. -/
def signature (chainId blockNumber namedChainId : Nat) : SignatureSubmittion where
  metadata := {
    id := s!"{chainId}-{blockNumber}-0x01-0", chainId, blockNumber, blockHash := some "0xaaaaa1"
    blockTimestamp := 1700000000000, transactionHash := "0x01", transactionIndex := 0, logIndex := 0
    contractAddress := "0x57aa601a0377f5ab313c5a955ee874f5d495fc92", transactionFrom := none }
  chainId := namedChainId
  channel := "0x02"
  signer := "0x03"
  msgIndex := 0
  signature := "0x"
  data := "0x"

/-- Chain 1 has a signature for chain 46 in its block 900: a rollback of chain 46 to ITS block 100
deletes it. -/
theorem rollback_deletes_signature_of_other_chain :
    ¬KeepsRows legacyStore
      (legacyStore.writeEvents .empty [.signatureSubmittion (signature 1 900 46)])
      [.signatureSubmittion (signature 1 900 46)] 46 EVM_LOGS_DATASET 100 := by
  intro h
  have kept := h.other (.signatureSubmittion (signature 1 900 46)) (by decide +kernel) (by decide)
  have gone : (legacyStore.rollbackLegacyFrom
      (legacyStore.writeEvents .empty [.signatureSubmittion (signature 1 900 46)]) 46
      EVM_LOGS_DATASET 100).eventRow (eventKey (.signatureSubmittion (signature 1 900 46))) = none := by
    decide +kernel
  rw [gone] at kept
  cases kept

/-- A signature for a third chain stays. -/
theorem rollback_keeps_other_chains_third :
    KeepsRows legacyStore
      (legacyStore.writeEvents .empty [.signatureSubmittion (signature 1 900 137)])
      [.signatureSubmittion (signature 1 900 137)] 46 EVM_LOGS_DATASET 100 := by
  refine (rollback_keeps_other_chains_iff legacyStore .empty eventRow_empty
    [.signatureSubmittion (signature 1 900 137)] 46 EVM_LOGS_DATASET 100).1.mpr fun s hs _ => ?_
  cases List.mem_singleton.mp (mem_of_lastWhere hs)
  exact ⟨by decide, by decide +kernel⟩

end Postgres

end OrmpIndexer
