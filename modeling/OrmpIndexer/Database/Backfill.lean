/-
# OrmpIndexer.Database.Backfill — the assignment columns reflect the stored assignments

Accepted and assigned events arrive in any order, several assignments may count for one message, and a
rollback may delete any of them. `Backfilled` is the invariant that survives all of it: a lane of an
accepted row is NULL when no stored assignment applies, and otherwise holds what ONE of the applying
assignments writes. Which one depends on the history; `Database.Replay` is about that.

An event is a function of its log, so "one log" is "one event" here: `OneLog` says that a message hash is
accepted by one event and an assignment id belongs to one event.
-/
import OrmpIndexer.Database.Assignments
import OrmpIndexer.Planner

namespace OrmpIndexer

open Foundation

namespace Postgres

/-! ## The actions of the store -/

variable {Event : LegacyOrmPEvent → Prop}

/-- What the writer and the checkpoint store do to the database. -/
inductive StoreAction where
  | writeEvents (events : List LegacyOrmPEvent)
  | writeEventsAndAdvanceCheckpoint (events : List LegacyOrmPEvent) (anchors : List BlockAnchor)
      (chainId : Nat) (dataset : String) (nextBlock : Nat)
  | rollbackLegacyFrom (chainId : Nat) (dataset : String) (rollbackBlock : Nat)

/-- The events an action writes. -/
def StoreAction.events : StoreAction → List LegacyOrmPEvent
  | writeEvents events => events
  | writeEventsAndAdvanceCheckpoint events _ _ _ _ => events
  | rollbackLegacyFrom _ _ _ => []

variable (pg : Postgres)

def perform (db : Database) : StoreAction → Database
  | .writeEvents events => pg.writeEvents db events
  | .writeEventsAndAdvanceCheckpoint events anchors chainId dataset nextBlock =>
      pg.writeEventsAndAdvanceCheckpoint db events anchors chainId dataset nextBlock
  | .rollbackLegacyFrom chainId dataset rollbackBlock =>
      pg.rollbackLegacyFrom db chainId dataset rollbackBlock

/-- The database after some actions, from an empty one. -/
def after (actions : List StoreAction) : Database := actions.foldl pg.perform .empty

/-! ## The invariant -/

/-- Every message hash is accepted by one event, every assignment id belongs to one event. -/
structure OneLog (Event : LegacyOrmPEvent → Prop) : Prop where
  accepted : ∀ e e', Event (.messageAccepted e) → Event (.messageAccepted e') →
    e.msgHash = e'.msgHash → e = e'
  assigned : ∀ e e', Event (.messageAssigned e) → Event (.messageAssigned e') →
    e.metadata.id = e'.metadata.id → e = e'

/-- Events that are determined by their row ids are of one log each. -/
theorem oneLog_of_keys
    (h : ∀ e e', Event e → Event e' → eventKey e = eventKey e' → e = e') : OneLog Event where
  accepted e e' he he' hid := by
    have := h _ _ he he' (show (LegacyTable.ormpMessageAccepted, e.msgHash) =
      (LegacyTable.ormpMessageAccepted, e'.msgHash) by rw [hid])
    exact LegacyOrmPEvent.messageAccepted.inj this
  assigned e e' he he' hid := by
    have := h _ _ he he' (show (LegacyTable.ormpMessageAssigned, e.metadata.id) =
      (LegacyTable.ormpMessageAssigned, e'.metadata.id) by rw [hid])
    exact LegacyOrmPEvent.messageAssigned.inj this

/-- The assigned row is stored. -/
def Stored (db : Database) (a : OrmpMessageAssignedRow) : Prop :=
  db.ormpMessageAssigned.get a.id = some a

/-- The lane is NULL if no stored assignment applies, and else what one of them writes. -/
def Reflects (db : Database) (r : OrmpMessageAcceptedRow) (lane : Lane) : Prop :=
  (r.lane lane = .null ∧ ∀ a, Stored db a → pg.applies lane r a = false) ∨
    ∃ a, Stored db a ∧ pg.applies lane r a = true ∧ r.lane lane = value lane a

/-- The rows come from the events of the run, and every lane reflects the stored assignments. -/
structure Backfilled (Event : LegacyOrmPEvent → Prop) (db : Database) : Prop where
  accepted : ∀ id r, db.ormpMessageAccepted.get id = some r →
    ∃ e, Event (.messageAccepted e) ∧ r.core = .fromEvent e
  assigned : ∀ id a, db.ormpMessageAssigned.get id = some a →
    ∃ e, Event (.messageAssigned e) ∧ a = .fromEvent e
  reflects : ∀ id r, db.ormpMessageAccepted.get id = some r → ∀ lane, pg.Reflects db r lane

variable {pg} {db : Database}

theorem backfilled_empty : pg.Backfilled Event .empty where
  accepted id r h := by simp [Database.empty] at h
  assigned id a h := by simp [Database.empty] at h
  reflects id r h := by simp [Database.empty] at h

/-- The id of a stored accepted row is the hash of its message. -/
theorem Backfilled.id_eq (h : pg.Backfilled Event db) {id : String} {r : OrmpMessageAcceptedRow}
    (hr : db.ormpMessageAccepted.get id = some r) : r.id = r.msgHash := by
  obtain ⟨e, _, hcore⟩ := h.accepted id r hr
  show r.core.id = r.core.msgHash
  rw [hcore]
  rfl

/-- A recomputed lane reflects what it was recomputed from. -/
theorem reflects_of_settled {r : OrmpMessageAcceptedRow} {lane : Lane}
    (h : r.lane lane = ((pg.settled db lane r).map (value lane)).getD .null) :
    pg.Reflects db r lane := by
  cases hs : pg.settled db lane r with
  | none =>
      rw [hs] at h
      exact .inl ⟨h, pg.settled_eq_none_iff.mp hs⟩
  | some a =>
      rw [hs] at h
      obtain ⟨hstored, happlies⟩ := pg.settled_eq_some hs
      exact .inr ⟨a, hstored, happlies, h⟩

/-- A lane on which nothing applies is NULL. -/
theorem Reflects.null_of_settled {r : OrmpMessageAcceptedRow} {lane : Lane}
    (h : pg.Reflects db r lane) (hs : pg.settled db lane r = none) : r.lane lane = .null := by
  rcases h with ⟨h, _⟩ | ⟨a, hstored, happlies, _⟩
  · exact h
  · rw [pg.settled_eq_none_iff.mp hs a hstored] at happlies
    cases happlies

theorem settled_congr {r s : OrmpMessageAcceptedRow} (h : r.core = s.core) (lane : Lane) :
    pg.settled db lane r = pg.settled db lane s := by
  have hid : r.id = s.id := (id_eq_of_core h).trans rfl
  rw [settled, settled, hid, funext (pg.applies_congr h lane)]

/-- Where nothing stored applies to a message, the row it had before is NULL, too: it reflects the same
assignments. -/
theorem Backfilled.null_of_settled (h : pg.Backfilled Event db) (hone : OneLog Event)
    {e : MessageAccepted} (he : Event (.messageAccepted e)) {lane : Lane}
    (hs : pg.settled db lane (.fromEvent e) = none) :
    ((db.ormpMessageAccepted.get e.msgHash).map (·.lane lane)).getD .null = .null := by
  cases hold : db.ormpMessageAccepted.get e.msgHash with
  | none => rfl
  | some old =>
      obtain ⟨e', he', hcore⟩ := h.accepted _ _ hold
      have hmsg : e'.msgHash = e.msgHash := by
        rw [← Table.key_of_get hold]
        exact (id_eq_of_core hcore).symm
      obtain rfl := hone.accepted e' e he' he hmsg
      exact (h.reflects _ _ hold lane).null_of_settled ((settled_congr hcore lane).trans hs)

/-! ## Every action keeps the invariant -/

theorem backfilled_writeAccepted (hone : OneLog Event) {e : MessageAccepted}
    (he : Event (.messageAccepted e)) (h : pg.Backfilled Event db) :
    pg.Backfilled Event (pg.writeLegacyEvent db (.messageAccepted e)) := by
  have assigned := pg.get_assigned_writeLegacyEvent db (.messageAccepted e)
  have stored : ∀ a, Stored (pg.writeLegacyEvent db (.messageAccepted e)) a ↔ Stored db a :=
    fun a => by rw [Stored, assigned, Stored]
  have settledIff : ∀ lane r, pg.settled (pg.writeLegacyEvent db (.messageAccepted e)) lane r =
      pg.settled db lane r := fun lane r =>
    pg.lastWhere_applies_congr (List.mem_singleton_self _) (List.mem_singleton_self _)
      fun a _ => stored a
  refine ⟨fun id r hr => ?_, fun id a ha => h.assigned id a (by rwa [assigned] at ha),
    fun id r hr lane => ?_⟩
  · rw [get_writeAccepted] at hr
    split at hr
    · cases hr
      exact ⟨e, he, pg.core_acceptedAfter db e⟩
    · exact h.accepted id r hr
  · rw [get_writeAccepted] at hr
    split at hr
    · rename_i hid
      cases hr
      have hcore := pg.core_acceptedAfter db e
      -- the INSERT is followed by a backfill from all stored assignments
      apply reflects_of_settled
      rw [settledIff, settled_congr (s := .fromEvent e) hcore, lane_acceptedAfter]
      cases hs : pg.settled db lane (.fromEvent e) with
      | some a => rfl
      | none =>
          -- nothing applies: the columns the row kept are those of the same message, and NULL
          exact h.null_of_settled hone he hs
    · rcases h.reflects id r hr lane with ⟨hnull, hnone⟩ | ⟨a, ha, happlies, hvalue⟩
      · exact .inl ⟨hnull, fun a ha => hnone a ((stored a).mp ha)⟩
      · exact .inr ⟨a, (stored a).mpr ha, happlies, hvalue⟩

/-- A new assigned row replaces none but itself. -/
theorem stored_writeAssigned (hone : OneLog Event) {e : MessageAssigned}
    (he : Event (.messageAssigned e)) (h : pg.Backfilled Event db) (a : OrmpMessageAssignedRow) :
    Stored (pg.writeLegacyEvent db (.messageAssigned e)) a ↔ a = .fromEvent e ∨ Stored db a := by
  rw [Stored, get_assigned_writeLegacyEvent]
  dsimp only
  split
  · rename_i hid
    rw [Option.some.injEq, eq_comm]
    refine ⟨.inl, fun ha => ha.elim (fun ha => ha) fun ha => ?_⟩
    -- the id belongs to one event, so the old row was the same
    obtain ⟨e', he', rfl⟩ := h.assigned _ _ ha
    rw [hone.assigned e' e he' he hid.symm]
  · rename_i hid
    refine ⟨.inr, fun ha => ha.elim (fun ha => ?_) fun ha => ha⟩
    exact absurd (by rw [ha]; rfl) hid

theorem backfilled_writeAssigned (hone : OneLog Event) {e : MessageAssigned}
    (he : Event (.messageAssigned e)) (h : pg.Backfilled Event db) :
    pg.Backfilled Event (pg.writeLegacyEvent db (.messageAssigned e)) := by
  have assigned := pg.get_assigned_writeLegacyEvent db (.messageAssigned e)
  have stored := stored_writeAssigned hone he h
  refine ⟨?_, ?_, ?_⟩
  · intro id r hr
    rw [get_writeAssigned] at hr
    obtain ⟨r, hold, rfl⟩ := Option.map_eq_some_iff.mp hr
    rw [core_assign]
    exact h.accepted id r hold
  · intro id a ha
    rw [assigned] at ha
    dsimp only at ha
    split at ha
    · cases ha
      exact ⟨e, he, rfl⟩
    · exact h.assigned id a ha
  · intro id r hr lane
    rw [get_writeAssigned] at hr
    obtain ⟨r, hold, rfl⟩ := Option.map_eq_some_iff.mp hr
    have happ : ∀ a, pg.applies lane (pg.assign r (.fromEvent e)) a = pg.applies lane r a :=
      pg.applies_congr (pg.core_assign r _) lane
    unfold Reflects
    simp only [happ, lane_assign, stored]
    -- a new assignment that applies decides; one that does not leaves the lane and its reason
    cases hnew : pg.applies lane r (.fromEvent e) with
    | true => exact .inr ⟨_, .inl rfl, hnew, if_pos rfl⟩
    | false =>
        rcases h.reflects id r hold lane with ⟨hnull, hnone⟩ | ⟨a, ha, happlies, hvalue⟩
        · refine .inl ⟨hnull, fun a ha => ha.elim (fun ha => by rw [ha, hnew]) (hnone a)⟩
        · exact .inr ⟨a, .inr ha, happlies, hvalue⟩

theorem backfilled_writeLegacyEvent (hone : OneLog Event) {e : LegacyOrmPEvent} (he : Event e)
    (h : pg.Backfilled Event db) : pg.Backfilled Event (pg.writeLegacyEvent db e) := by
  cases e with
  | messageAccepted e => exact backfilled_writeAccepted hone he h
  | messageAssigned e => exact backfilled_writeAssigned hone he h
  | _ => exact ⟨h.accepted, h.assigned, h.reflects⟩

theorem backfilled_writeEvents (hone : OneLog Event) {events : List LegacyOrmPEvent}
    (he : ∀ e ∈ events, Event e) (h : pg.Backfilled Event db) :
    pg.Backfilled Event (pg.writeEvents db events) := by
  unfold writeEvents
  induction events generalizing db with
  | nil => exact h
  | cons e events ih =>
      exact ih (fun e' he' => he e' (List.mem_cons_of_mem e he'))
        (backfilled_writeLegacyEvent hone (he e List.mem_cons_self) h)

theorem stored_rollback {chainId rollbackBlock : Nat} {dataset : String}
    {a : OrmpMessageAssignedRow} :
    Stored (pg.rollbackLegacyFrom db chainId dataset rollbackBlock) a ↔
      Stored db a ∧ rolledBack chainId rollbackBlock a.chainId a.blockNumber = false := by
  rw [Stored, ormpMessageAssigned_rollback, Table.get_deleteWhere_eq_some, Stored]

theorem backfilled_rollback (chainId : Nat) (dataset : String) (rollbackBlock : Nat)
    (h : pg.Backfilled Event db) :
    pg.Backfilled Event (pg.rollbackLegacyFrom db chainId dataset rollbackBlock) := by
  have before : ∀ {id r}, (pg.rollbackLegacyFrom db chainId dataset
      rollbackBlock).ormpMessageAccepted.get id = some r →
      ∃ old, db.ormpMessageAccepted.get id = some old ∧
        pg.recomputed (pg.rollbackLegacyFrom db chainId dataset rollbackBlock)
          (rolledBackAssignmentMsgHashes db chainId rollbackBlock) old = r := by
    intro id r hr
    rw [get_accepted_rollback] at hr
    obtain ⟨old, hold, hr⟩ := Option.map_eq_some_iff.mp hr
    exact ⟨old, Option.eq_some_of_filter_eq_some hold, hr⟩
  refine ⟨?_, ?_, ?_⟩
  · intro id r hr
    obtain ⟨old, hold, rfl⟩ := before hr
    rw [core_recomputed]
    exact h.accepted id old hold
  · intro id a ha
    rw [ormpMessageAssigned_rollback] at ha
    exact h.assigned id a (Table.get_deleteWhere_eq_some.mp ha).1
  · intro id r hr lane
    obtain ⟨old, hold, rfl⟩ := before hr
    have hlane := pg.lane_recomputed (pg.rollbackLegacyFrom db chainId dataset rollbackBlock)
      (rolledBackAssignmentMsgHashes db chainId rollbackBlock) (h.id_eq hold) lane
    have hcore := pg.core_recomputed (pg.rollbackLegacyFrom db chainId dataset rollbackBlock)
      (rolledBackAssignmentMsgHashes db chainId rollbackBlock) old
    split at hlane
    -- recomputed from what is left
    · exact reflects_of_settled (by rw [hlane, settled_congr hcore])
    · rename_i hmem
      -- no assignment of this message was deleted
      have kept : ∀ a, pg.applies lane old a = true →
          (Stored (pg.rollbackLegacyFrom db chainId dataset rollbackBlock) a ↔ Stored db a) := by
        intro a ha
        rw [stored_rollback]
        refine and_iff_left_of_imp fun hstored => Bool.eq_false_of_not_eq_true fun hgone => hmem ?_
        refine (mem_rolledBackAssignmentMsgHashes db chainId rollbackBlock).mpr
          ⟨a, hstored, hgone, ?_⟩
        rw [pg.applies_msgHash ha, h.id_eq hold]
      unfold Reflects
      simp only [pg.applies_congr hcore, hlane]
      rcases h.reflects id old hold lane with ⟨hnull, hnone⟩ | ⟨a, ha, happlies, hvalue⟩
      · exact .inl ⟨hnull, fun a ha => hnone a (stored_rollback.mp ha).1⟩
      · exact .inr ⟨a, (kept a happlies).mpr ha, happlies, hvalue⟩

theorem backfilled_perform (hone : OneLog Event) (action : StoreAction)
    (he : ∀ e ∈ action.events, Event e) (h : pg.Backfilled Event db) :
    pg.Backfilled Event (pg.perform db action) := by
  cases action with
  | writeEvents events => exact backfilled_writeEvents hone he h
  | writeEventsAndAdvanceCheckpoint events anchors chainId dataset nextBlock =>
      have written : pg.Backfilled Event (pg.writeEvents db events) :=
        backfilled_writeEvents hone he h
      exact ⟨written.accepted, written.assigned, written.reflects⟩
  | rollbackLegacyFrom chainId dataset rollbackBlock => exact backfilled_rollback _ _ _ h

/-- The events of a run. -/
def EventOf (actions : List StoreAction) (e : LegacyOrmPEvent) : Prop :=
  ∃ action ∈ actions, e ∈ action.events

/-- The invariant holds after every run. -/
theorem backfilled_after (hone : OneLog Event) (actions : List StoreAction)
    (he : ∀ e, EventOf actions e → Event e) : pg.Backfilled Event (pg.after actions) := by
  unfold after
  induction actions using List.reverseRecOn with
  | nil => exact backfilled_empty
  | append_singleton actions action ih =>
      rw [List.foldl_append, List.foldl_cons, List.foldl_nil]
      refine backfilled_perform hone action (fun e hmem => he e ⟨action, by simp, hmem⟩) (ih ?_)
      rintro e ⟨a, ha, hmem⟩
      exact he e ⟨a, List.mem_append_left _ ha, hmem⟩

/-! ## The columns -/

/-- The columns of a lane are the three values of one assigned row that counts, and NULL if there is no
such row. -/
structure ColumnsReflect (db : Database) (columns : LaneColumns)
    (counts : OrmpMessageAssignedRow → Prop) (address : OrmpMessageAssignedRow → String)
    (fee : OrmpMessageAssignedRow → Nat) : Prop where
  assigned_iff : columns.assigned = some true ↔ ∃ a, Stored db a ∧ counts a
  assigned : (∃ a, Stored db a ∧ counts a) → ∃ a, Stored db a ∧ counts a ∧
    columns.address = some (address a) ∧ columns.fee = some (fee a)
  unassigned : (¬∃ a, Stored db a ∧ counts a) →
    columns.address = none ∧ columns.assigned = none ∧ columns.fee = none

theorem columnsReflect_of_reflects {r : OrmpMessageAcceptedRow} {lane : Lane}
    {counts : OrmpMessageAssignedRow → Prop} {address : OrmpMessageAssignedRow → String}
    {fee : OrmpMessageAssignedRow → Nat} (h : pg.Reflects db r lane)
    (hcounts : ∀ a, counts a ↔ pg.applies lane r a = true)
    (hvalue : ∀ a, counts a → value lane a = ⟨some (address a), some true, some (fee a)⟩) :
    ColumnsReflect db (r.lane lane) counts address fee := by
  rcases h with ⟨hnull, hnone⟩ | ⟨a, hstored, happlies, hlane⟩
  · have : ¬∃ a, Stored db a ∧ counts a := by
      rintro ⟨a, ha, hc⟩
      rw [hcounts, hnone a ha] at hc
      cases hc
    rw [hnull]
    exact ⟨iff_of_false (by simp [LaneColumns.null]) this, fun h => absurd h this,
      fun _ => ⟨rfl, rfl, rfl⟩⟩
  · have hc := (hcounts a).mpr happlies
    rw [hlane, hvalue a hc]
    exact ⟨iff_of_true rfl ⟨a, hstored, hc⟩, fun _ => ⟨a, hstored, hc, rfl, rfl⟩,
      fun h => absurd ⟨a, hstored, hc⟩ h⟩

/-- **The assignment columns always reflect the stored assignments.** After any sequence of event writes
and rollbacks on any chains, the oracle columns and the relayer columns of every accepted row are those of
a stored assignment of the message that satisfies the rule, and NULL exactly when there is none. -/
theorem assignmentColumns_reflect (pg : Postgres) (actions : List StoreAction)
    (hone : OneLog (EventOf actions)) (id : String) (r : OrmpMessageAcceptedRow)
    (hr : (pg.after actions).ormpMessageAccepted.get id = some r) :
    ColumnsReflect (pg.after actions) ⟨r.oracle, r.oracleAssigned, r.oracleAssignedFee⟩
        (fun a => a.msgHash = r.msgHash ∧
          isOracleAssignmentForAccepted r a pg.assignmentConfig = true)
        (fun a => acceptedOracleValue r.id a.oracle) (·.oracleFee) ∧
      ColumnsReflect (pg.after actions) ⟨r.relayer, r.relayerAssigned, r.relayerAssignedFee⟩
        (fun a => a.msgHash = r.msgHash ∧
          OrmpIndexer.containsAddress pg.assignmentConfig.relayerAddresses a.relayer = true)
        (·.relayer) (·.relayerFee) := by
  have inv : pg.Backfilled (EventOf actions) (pg.after actions) :=
    backfilled_after hone actions fun _ h => h
  have hid := inv.id_eq hr
  -- what a lane asks for besides the message
  have counts : ∀ {lane a} (asked : Bool), pg.applies lane r a = (r.id == a.msgHash && asked) →
      (a.msgHash = r.msgHash ∧ asked = true ↔ pg.applies lane r a = true) := by
    intro lane a asked happlies
    rw [happlies, hid, Bool.and_eq_true, beq_iff_eq, eq_comm]
  constructor
  · refine columnsReflect_of_reflects (inv.reflects id r hr .oracle)
      (fun a => counts _ rfl) fun a ha => ?_
    rw [hid, ← ha.1]
    rfl
  · exact columnsReflect_of_reflects (inv.reflects id r hr .relayer)
      (fun a => counts _ rfl) fun a _ => rfl

/-! ## A run -/

/-- The metadata of a log, as the decoder builds it. -/
def logMetadata (chainId blockNumber logIndex : Nat) (blockHash : String) : ChainLogMetadata where
  id := s!"{chainId}-{blockNumber}-0x01-{logIndex}"
  chainId := chainId
  blockNumber := blockNumber
  blockHash := some blockHash
  blockTimestamp := 1700000000000
  transactionHash := "0x01"
  transactionIndex := 0
  logIndex := logIndex
  contractAddress := "0x13b2211a7ca45db2808f6db05557ce5347e3634e"
  transactionFrom := none

def acceptedEvent (chainId blockNumber : Nat) (msgHash : String) : LegacyOrmPEvent :=
  .messageAccepted {
    metadata := logMetadata chainId blockNumber 0 "0xaaaaa1", msgHash, channel := "0x02",
    index := 0, fromChainId := chainId, fromAddress := "0x03", toChainId := 1, toAddress := "0x04",
    gasLimit := 0, encoded := "0x" }

def assignedEvent (chainId blockNumber logIndex : Nat) (msgHash oracle : String) (oracleFee : Nat) :
    LegacyOrmPEvent :=
  .messageAssigned {
    metadata := logMetadata chainId blockNumber logIndex "0xaaaaa1", msgHash, oracle,
    relayer := "0x05", oracleFee, relayerFee := 0, params := "0x" }

/-- Two oracles are assigned to a message, and the later assignment is rolled back. -/
def rolledBackAssignment : List StoreAction :=
  [.writeEvents [acceptedEvent 46 5 "0xaa",
      assignedEvent 46 6 1 "0xaa" "0x8d8a2bd991c1d900c59a82a2eeb0df44e0671aab" 7],
    .writeEvents [assignedEvent 46 9 1 "0xaa" "0x2cdc7178013de451ed99607ac15def6bab8c37e6" 8],
    .rollbackLegacyFrom 46 EVM_LOGS_DATASET 9]

theorem oneLog_rolledBackAssignment : OneLog (EventOf rolledBackAssignment) := by
  have keys : ∀ e ∈ rolledBackAssignment.flatMap (·.events),
      ∀ e' ∈ rolledBackAssignment.flatMap (·.events), eventKey e = eventKey e' → e = e' := by
    decide +kernel
  apply oneLog_of_keys
  intro e e' he he'
  obtain ⟨a, ha, hmem⟩ := he
  obtain ⟨a', ha', hmem'⟩ := he'
  exact keys e (List.mem_flatMap.mpr ⟨a, ha, hmem⟩) e' (List.mem_flatMap.mpr ⟨a', ha', hmem'⟩)

/-- The first oracle is back in the columns. -/
theorem assignmentColumns_reflect_rolledBack :
    ∃ r, (legacyStore.after rolledBackAssignment).ormpMessageAccepted.get "0xaa" = some r ∧
      r.oracleAssignedFee = some 7 ∧
      ColumnsReflect (legacyStore.after rolledBackAssignment)
        ⟨r.oracle, r.oracleAssigned, r.oracleAssignedFee⟩
        (fun a => a.msgHash = r.msgHash ∧
          isOracleAssignmentForAccepted r a legacyStore.assignmentConfig = true)
        (fun a => acceptedOracleValue r.id a.oracle) (·.oracleFee) := by
  have row : ((legacyStore.after rolledBackAssignment).ormpMessageAccepted.get "0xaa").map
      (·.oracleAssignedFee) = some (some 7) := by decide +kernel
  obtain ⟨r, hr, hfee⟩ := Option.map_eq_some_iff.mp row
  exact ⟨r, hr, hfee, (assignmentColumns_reflect legacyStore rolledBackAssignment
    oneLog_rolledBackAssignment "0xaa" r hr).1⟩

end Postgres

end OrmpIndexer
