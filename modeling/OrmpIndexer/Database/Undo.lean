/-
# OrmpIndexer.Database.Undo — writing and rolling back

A chain is written up to a block and then further; a rollback to the block should take the second part
back. It does for the anchors and the checkpoint. The event rows come back if the second part overwrote
none of them and its signature rows are found. The assignment columns are a matter of order: written,
they hold what the LAST assignment of the chain gave them; recomputed, they hold what the last one by block
number and id gives them, both AS TEXT, and as texts they do not sort like blocks and log indexes.
-/
import OrmpIndexer.Database.Replay
import OrmpIndexer.Database.Rollback

namespace OrmpIndexer

open Foundation

namespace Postgres

/-- What one `write_events_and_advance_checkpoint` writes. -/
structure Batch where
  events : List LegacyOrmPEvent
  anchors : List BlockAnchor
  nextBlock : Nat

def commitBatches (pg : Postgres) (chainId : Nat) (dataset : String) (db : Database)
    (batches : List Batch) : Database :=
  batches.foldl (fun db batch => pg.writeEventsAndAdvanceCheckpoint db batch.events batch.anchors
    chainId dataset batch.nextBlock) db

/-- The batches hold events and anchors of the chain in blocks that satisfy `p`. -/
def BatchesIn (chainId : Nat) (dataset : String) (p : Nat → Prop) (batches : List Batch) : Prop :=
  ∀ batch ∈ batches,
    (∀ e ∈ batch.events, e.metadata.chainId = chainId ∧ p e.metadata.blockNumber) ∧
    ∀ anchor ∈ batch.anchors,
      anchor.chainId = chainId ∧ anchor.dataset = dataset ∧ p anchor.blockNumber

instance (chainId : Nat) (dataset : String) (p : Nat → Prop) [DecidablePred p] (batches : List Batch) :
    Decidable (BatchesIn chainId dataset p batches) :=
  inferInstanceAs (Decidable (∀ batch ∈ batches, _ ∧ _))

def eventsOf (batches : List Batch) : List LegacyOrmPEvent := batches.flatMap (·.events)

/-! ## Committed batches -/

def anchorsOf (batches : List Batch) : List BlockAnchor := batches.flatMap (·.anchors)

/-- The checkpoints after the batches. -/
def checkpointsAfter (chainId : Nat) (dataset : String) (checkpoints : Table Checkpoint)
    (batches : List Batch) : Table Checkpoint :=
  batches.foldl (fun t batch => t.upsert ⟨chainId, dataset, batch.nextBlock⟩) checkpoints

theorem BatchesIn.events {chainId : Nat} {dataset : String} {p : Nat → Prop} {batches : List Batch}
    (h : BatchesIn chainId dataset p batches) :
    ∀ e ∈ eventsOf batches, e.metadata.chainId = chainId ∧ p e.metadata.blockNumber := by
  intro e he
  obtain ⟨batch, hbatch, he⟩ := List.mem_flatMap.mp he
  exact (h batch hbatch).1 e he

theorem BatchesIn.anchors {chainId : Nat} {dataset : String} {p : Nat → Prop} {batches : List Batch}
    (h : BatchesIn chainId dataset p batches) :
    ∀ a ∈ anchorsOf batches, a.chainId = chainId ∧ a.dataset = dataset ∧ p a.blockNumber := by
  intro a ha
  obtain ⟨batch, hbatch, ha⟩ := List.mem_flatMap.mp ha
  exact (h batch hbatch).2 a ha

/-- Committed batches: their events, anchors and checkpoints, each written on its own. -/
theorem commitBatches_eq (pg : Postgres) (chainId : Nat) (dataset : String) (db : Database)
    (batches : List Batch) :
    pg.commitBatches chainId dataset db batches =
      withProgress ((anchorsOf batches).foldl Table.upsert db.blockAnchor)
        (checkpointsAfter chainId dataset db.checkpoint batches)
        (pg.writeEvents db (eventsOf batches)) := by
  induction batches using List.reverseRecOn with
  | nil => rfl
  | append_singleton batches batch ih =>
      have hevents : eventsOf (batches ++ [batch]) = eventsOf batches ++ batch.events := by
        simp [eventsOf]
      have hanchors : anchorsOf (batches ++ [batch]) = anchorsOf batches ++ batch.anchors := by
        simp [anchorsOf]
      have hcommit : pg.commitBatches chainId dataset db (batches ++ [batch]) =
          pg.writeEventsAndAdvanceCheckpoint (pg.commitBatches chainId dataset db batches)
            batch.events batch.anchors chainId dataset batch.nextBlock := by
        simp [commitBatches]
      have hcheckpoints : checkpointsAfter chainId dataset db.checkpoint (batches ++ [batch]) =
          (checkpointsAfter chainId dataset db.checkpoint batches).upsert
            ⟨chainId, dataset, batch.nextBlock⟩ := by
        simp [checkpointsAfter]
      rw [hcommit, ih, hevents, hanchors, hcheckpoints, writeEvents_append, List.foldl_append,
        writeEventsAndAdvanceCheckpoint, writeEvents_withProgress]
      rfl

/-- Both parts, one after the other. -/
theorem commitBatches_both (pg : Postgres) (chainId : Nat) (dataset : String)
    (before after : List Batch) :
    pg.commitBatches chainId dataset (pg.commitBatches chainId dataset .empty before) after =
      withProgress ((anchorsOf after).foldl Table.upsert
          ((anchorsOf before).foldl Table.upsert .empty))
        (checkpointsAfter chainId dataset (checkpointsAfter chainId dataset .empty before) after)
        (pg.writeEvents (pg.writeEvents .empty (eventsOf before)) (eventsOf after)) := by
  rw [commitBatches_eq pg chainId dataset (pg.commitBatches chainId dataset .empty before),
    commitBatches_eq pg chainId dataset .empty before, writeEvents_withProgress]
  rfl

/-! ## The condition -/

/-- After the second part and the rollback the lane holds what it held before. If the second part has
stored an assignment of the message, the lane is recomputed from the first part; if not, the second part
must not have changed it. -/
structure LaneUndone (pg : Postgres) (db : Database) (events : List LegacyOrmPEvent)
    (r : OrmpMessageAcceptedRow) (lane : Lane) : Prop where
  reassigned : ∀ a, LastWritten events (.messageAssigned a) → a.msgHash = r.msgHash →
    r.lane lane = ((pg.settled db lane r).map (value lane)).getD .null
  untouched : (∀ a, LastWritten events (.messageAssigned a) → a.msgHash ≠ r.msgHash) →
    ((lastWhere (pg.applies lane r) (assignedRows events)).map (value lane)).getD (r.lane lane) =
      r.lane lane

section

variable {pg : Postgres} {anchors : Table BlockAnchor} {checkpoints : Table Checkpoint}
variable {before after : List LegacyOrmPEvent} {chainId : Nat} {dataset : String} {rollbackBlock : Nat}

@[simp]
theorem eventRow_withProgress (db : Database) (k : LegacyTable × String) :
    (withProgress anchors checkpoints db).eventRow k = db.eventRow k := by
  obtain ⟨t, id⟩ := k
  cases t <;> rfl

/-- The row at a key after both parts: the second part decides. -/
theorem eventRow_both (k : LegacyTable × String) :
    (pg.writeEvents (pg.writeEvents .empty before) after).eventRow k =
      ((lastWhere (fun e => eventKey e == k) after).map rowOf).or
        ((lastWhere (fun e => eventKey e == k) before).map rowOf) := by
  rw [eventRow_writeEvents, eventRow_writeEvents, eventRow_empty, Option.or_none]

theorem eventRow_before (k : LegacyTable × String) :
    (pg.writeEvents .empty before).eventRow k =
      (lastWhere (fun e => eventKey e == k) before).map rowOf := by
  rw [eventRow_writeEvents, eventRow_empty, Option.or_none]

/-- A row of the chain at or above the rollback block is selected, unless it is a signature row that is not
found. -/
theorem rollbackSelects_rowOf_iff {db : Database} {e : LegacyOrmPEvent}
    (hchain : e.metadata.chainId = chainId) (hle : rollbackBlock ≤ e.metadata.blockNumber) :
    pg.rollbackSelects db chainId dataset rollbackBlock (rowOf e) = true ↔
      ∀ s, e = .signatureSubmittion s → s.chainId = chainId ∨
        pg.selectedByAnchor db chainId dataset rollbackBlock (.fromEvent s) = true := by
  by_cases hsig : ∃ s, e = .signatureSubmittion s
  · obtain ⟨s, rfl⟩ := hsig
    have hle : rollbackBlock ≤ s.metadata.blockNumber := hle
    have rolled : rolledBack chainId rollbackBlock s.chainId s.metadata.blockNumber = true ↔
        s.chainId = chainId := by simp [rolledBack, hle]
    show (rolledBack chainId rollbackBlock s.chainId s.metadata.blockNumber ||
      pg.selectedByAnchor db chainId dataset rollbackBlock (.fromEvent s)) = true ↔ _
    rw [Bool.or_eq_true, rolled]
    constructor
    · intro h t ht
      cases ht
      exact h
    · intro h
      exact h s rfl
  · rw [rollbackSelects_of_not_signature fun s hs => hsig ⟨s, hs⟩]
    refine iff_of_true ?_ fun s hs => absurd ⟨s, hs⟩ hsig
    simp [rolledBack, hchain, hle]

/-- If the event rows come back, the second part overwrote none of them. -/
theorem fresh_of_undone
    (hbefore : ∀ e ∈ before, e.metadata.chainId = chainId ∧ e.metadata.blockNumber < rollbackBlock)
    (hafter : ∀ e ∈ after, e.metadata.chainId = chainId ∧ rollbackBlock ≤ e.metadata.blockNumber)
    {selects : LegacyRow → Bool} (h : ∀ k,
      ((pg.writeEvents (pg.writeEvents .empty before) after).eventRow k).filter (fun r => !selects r) =
        (pg.writeEvents .empty before).eventRow k) :
    ∀ s ∈ after, ∀ p ∈ before, eventKey s ≠ eventKey p := by
  intro s hs p hp hkey
  -- under a shared key a row of the second part would have to be one of the first, whose block is below
  obtain ⟨e, he⟩ := exists_lastWhere (p := fun e => eventKey e == eventKey s) hs (by simp)
  obtain ⟨q, hq⟩ := exists_lastWhere (p := fun e => eventKey e == eventKey s) hp (by simp [hkey])
  have hrow := h (eventKey s)
  rw [eventRow_both, eventRow_before, he, hq] at hrow
  have same : rowOf e = rowOf q := Option.some.inj (Option.eq_some_of_filter_eq_some hrow)
  have hblock := congrArg LegacyRow.blockNumber same
  rw [blockNumber_rowOf, blockNumber_rowOf] at hblock
  have := (hafter e (mem_of_lastWhere he)).2
  have := (hbefore q (mem_of_lastWhere hq)).2
  omega

/-- The event rows come back exactly if the second part overwrote none of them and its signature rows are
found. -/
theorem eventRow_undone_iff
    (hbefore : ∀ e ∈ before, e.metadata.chainId = chainId ∧ e.metadata.blockNumber < rollbackBlock)
    (hafter : ∀ e ∈ after, e.metadata.chainId = chainId ∧ rollbackBlock ≤ e.metadata.blockNumber)
    {db : Database} (hdb : ∀ k, db.eventRow k =
      (pg.writeEvents (pg.writeEvents .empty before) after).eventRow k) :
    (∀ k, (pg.rollbackLegacyFrom db chainId dataset rollbackBlock).eventRow k =
      (pg.writeEvents .empty before).eventRow k) ↔
    (∀ s ∈ after, ∀ p ∈ before, eventKey s ≠ eventKey p) ∧
      ∀ s, LastWritten after (.signatureSubmittion s) → s.chainId = chainId ∨
        pg.selectedByAnchor db chainId dataset rollbackBlock (.fromEvent s) = true := by
  simp only [eventRow_rollbackLegacyFrom, hdb]
  -- without a row of the first part under its key, an event of the second has to be selected
  have gone : (∀ s ∈ after, ∀ p ∈ before, eventKey s ≠ eventKey p) → ∀ {e k},
      lastWhere (fun e => eventKey e == k) after = some e →
      (((pg.writeEvents (pg.writeEvents .empty before) after).eventRow k).filter
          (fun r => !pg.rollbackSelects db chainId dataset rollbackBlock r) =
        (pg.writeEvents .empty before).eventRow k ↔
        pg.rollbackSelects db chainId dataset rollbackBlock (rowOf e) = true) := by
    intro fresh e k he
    have hkey : eventKey e = k := by simpa using holds_of_lastWhere he
    have none : lastWhere (fun e => eventKey e == k) before = none :=
      lastWhere_eq_none_iff.mpr fun p hp => by
        simpa [hkey] using (fresh e (mem_of_lastWhere he) p hp).symm
    rw [eventRow_both, eventRow_before, he, none, Option.map_some, Option.some_or, Option.map_none,
      Option.filter_some]
    cases pg.rollbackSelects db chainId dataset rollbackBlock (rowOf e) <;> simp
  constructor
  · intro h
    have fresh := fresh_of_undone hbefore hafter h
    refine ⟨fresh, fun s hs => ?_⟩
    obtain ⟨hchain, hle⟩ := hafter _ (mem_of_lastWhere hs)
    exact (rollbackSelects_rowOf_iff hchain hle).mp ((gone fresh hs).mp (h _)) s rfl
  · rintro ⟨fresh, found⟩ k
    cases hlast : lastWhere (fun e => eventKey e == k) after with
    | some e =>
        obtain ⟨hchain, hle⟩ := hafter e (mem_of_lastWhere hlast)
        refine (gone fresh hlast).mpr ((rollbackSelects_rowOf_iff hchain hle).mpr ?_)
        rintro s rfl
        have hkey : eventKey (.signatureSubmittion s) = k := by simpa using holds_of_lastWhere hlast
        exact found s (by rw [LastWritten, hkey]; exact hlast)
    | none =>
        rw [eventRow_both, eventRow_before, hlast, Option.map_none, Option.none_or]
        cases hfirst : lastWhere (fun e => eventKey e == k) before with
        | none => rfl
        | some p =>
            have hlt := (hbefore p (mem_of_lastWhere hfirst)).2
            rw [Option.map_some, Option.filter_some, rollbackSelects_below hlt]
            rfl

/-! ### The assignment columns -/

/-- The assignments of the second part that are stored when the rollback begins. -/
theorem mem_rolledBack_iff
    (hbefore : ∀ e ∈ before, e.metadata.chainId = chainId ∧ e.metadata.blockNumber < rollbackBlock)
    (hafter : ∀ e ∈ after, e.metadata.chainId = chainId ∧ rollbackBlock ≤ e.metadata.blockNumber)
    {db : Database} (hdb : ∀ k, db.eventRow k =
      (pg.writeEvents (pg.writeEvents .empty before) after).eventRow k) {msgHash : String} :
    msgHash ∈ rolledBackAssignmentMsgHashes db chainId rollbackBlock ↔
      ∃ a, LastWritten after (.messageAssigned a) ∧ a.msgHash = msgHash := by
  rw [mem_rolledBackAssignmentMsgHashes]
  constructor
  -- an assigned row that goes is one the second part wrote last: the first part wrote below the block
  · rintro ⟨row, hrow, hrolled, rfl⟩
    have stored : db.eventRow (.ormpMessageAssigned, row.id) = some (.ormpMessageAssigned row) := by
      simp only [Database.eventRow, hrow, Option.map_some]
    rw [hdb, eventRow_both, Option.or_eq_some_iff] at stored
    rcases stored with stored | ⟨_, stored⟩
    · obtain ⟨e, he, hrowOf⟩ := Option.map_eq_some_iff.mp stored
      cases e with
      | messageAssigned a =>
          cases LegacyRow.ormpMessageAssigned.inj hrowOf
          exact ⟨a, he, rfl⟩
      | _ => cases hrowOf
    · obtain ⟨e, he, hrowOf⟩ := Option.map_eq_some_iff.mp stored
      have hlt := (hbefore e (mem_of_lastWhere he)).2
      rw [← blockNumber_rowOf, hrowOf] at hlt
      have hle := of_decide_eq_true (Bool.and_eq_true_iff.mp hrolled).2
      change row.blockNumber < rollbackBlock at hlt
      omega
  · rintro ⟨a, ha, rfl⟩
    obtain ⟨hchain, hle⟩ := hafter _ (mem_of_lastWhere ha)
    have stored : db.eventRow (.ormpMessageAssigned, a.metadata.id) =
        some (.ormpMessageAssigned (.fromEvent a)) := by
      rw [hdb, eventRow_both]
      exact Option.or_eq_some_iff.mpr (.inl (Option.map_eq_some_iff.mpr ⟨_, ha, rfl⟩))
    obtain ⟨row, hrow, heq⟩ := Option.map_eq_some_iff.mp stored
    obtain rfl := LegacyRow.ormpMessageAssigned.inj heq
    refine ⟨.fromEvent a, hrow, ?_, rfl⟩
    change rolledBack chainId rollbackBlock a.metadata.chainId a.metadata.blockNumber = true
    change a.metadata.chainId = chainId at hchain
    change rollbackBlock ≤ a.metadata.blockNumber at hle
    simp [rolledBack, hchain, hle]

/-- The second part leaves the core of an accepted row of the first part, and assigns to it. -/
theorem get_both (fresh : ∀ s ∈ after, ∀ p ∈ before, eventKey s ≠ eventKey p) {e : MessageAccepted}
    (he : .messageAccepted e ∈ before) {r : OrmpMessageAcceptedRow}
    (hr : (pg.writeEvents .empty before).ormpMessageAccepted.get e.msgHash = some r) :
    (pg.writeEvents (pg.writeEvents .empty before) after).ormpMessageAccepted.get e.msgHash =
      some ((assignedRows after).foldl pg.assign r) := by
  have hnone : ∀ s ∈ after, accepts e.msgHash s = false := fun s hs => by
    apply beq_eq_false_iff_ne.mpr
    exact fresh s hs _ he
  rw [get_writeEvents_tail pg after _ hnone, hr]
  rfl

/-- What the recomputation makes of such a row is the row itself exactly if its lanes come back. -/
theorem recomputed_eq_iff {back : Database} {msgHashes : List String} {r : OrmpMessageAcceptedRow}
    (hid : r.id = r.msgHash)
    (hstored : ∀ a, Stored back a ↔ Stored (pg.writeEvents .empty before) a)
    (hmem : r.msgHash ∈ msgHashes ↔ ∃ a, LastWritten after (.messageAssigned a) ∧
      a.msgHash = r.msgHash) :
    pg.recomputed back msgHashes ((assignedRows after).foldl pg.assign r) = r ↔
      ∀ lane, pg.LaneUndone (pg.writeEvents .empty before) after r lane := by
  have hcore : ((assignedRows after).foldl pg.assign r).core = r.core := pg.core_foldl_assign _ r
  have hmsg : ((assignedRows after).foldl pg.assign r).msgHash = r.msgHash := by
    show ((assignedRows after).foldl pg.assign r).core.msgHash = r.core.msgHash
    rw [hcore]
  have hsettled : ∀ lane, pg.settled back lane ((assignedRows after).foldl pg.assign r) =
      pg.settled (pg.writeEvents .empty before) lane r := fun lane => by
    rw [settled_congr hcore]
    exact pg.lastWhere_applies_congr (List.mem_singleton_self _) (List.mem_singleton_self _)
      fun a _ => hstored a
  have hlane : ∀ lane, (pg.recomputed back msgHashes
      ((assignedRows after).foldl pg.assign r)).lane lane = _ := fun lane =>
    pg.lane_recomputed back msgHashes ((id_eq_of_core hcore).trans (hid.trans hmsg.symm)) lane
  have ext : pg.recomputed back msgHashes ((assignedRows after).foldl pg.assign r) = r ↔
      ∀ lane, (pg.recomputed back msgHashes ((assignedRows after).foldl pg.assign r)).lane lane =
        r.lane lane :=
    ⟨fun h lane => by rw [h], accepted_ext (by rw [core_recomputed, hcore])⟩
  refine ext.trans (forall_congr' fun lane => ?_)
  rw [hlane, hmsg]
  split
  -- recomputed: the lane is what the first part's assignments settle on
  · rename_i h
    obtain ⟨a, ha, hmsg⟩ := hmem.mp h
    rw [hsettled]
    exact ⟨fun h => ⟨fun _ _ _ => h.symm, fun hnone => absurd hmsg (hnone a ha)⟩,
      fun h => (h.reassigned a ha hmsg).symm⟩
  -- not recomputed: the lane is what the second part has left in it
  · rename_i h
    have hnone : ∀ a, LastWritten after (.messageAssigned a) → a.msgHash ≠ r.msgHash :=
      fun a ha hmsg => h (hmem.mpr ⟨a, ha, hmsg⟩)
    rw [lane_foldl_assign]
    exact ⟨fun h => ⟨fun a ha hmsg => absurd hmsg (hnone a ha), fun _ => h⟩, fun h => h.untouched hnone⟩

/-- If the event rows come back, an accepted row of the first part comes back exactly if its lanes do. -/
theorem accepted_undone_iff
    (hbefore : ∀ e ∈ before, e.metadata.chainId = chainId ∧ e.metadata.blockNumber < rollbackBlock)
    (hafter : ∀ e ∈ after, e.metadata.chainId = chainId ∧ rollbackBlock ≤ e.metadata.blockNumber)
    (fresh : ∀ s ∈ after, ∀ p ∈ before, eventKey s ≠ eventKey p)
    (hrow : ∀ k, (pg.rollbackLegacyFrom (withProgress anchors checkpoints
      (pg.writeEvents (pg.writeEvents .empty before) after)) chainId dataset rollbackBlock).eventRow k =
      (pg.writeEvents .empty before).eventRow k)
    {id : String} {r : OrmpMessageAcceptedRow}
    (hr : (pg.writeEvents .empty before).ormpMessageAccepted.get id = some r) :
    (pg.rollbackLegacyFrom (withProgress anchors checkpoints
      (pg.writeEvents (pg.writeEvents .empty before) after)) chainId dataset
      rollbackBlock).ormpMessageAccepted.get id = some r ↔
    ∀ lane, pg.LaneUndone (pg.writeEvents .empty before) after r lane := by
  obtain ⟨e, he, hcore⟩ := accepted_of_written eventRow_empty hr
  obtain rfl : e.msgHash = id := by
    have key : r.id = id := Table.key_of_get hr
    rw [← key, id_eq_of_core hcore]
    rfl
  have hmem := mem_of_lastWhere he
  have hblock : ((assignedRows after).foldl pg.assign r).blockNumber = e.metadata.blockNumber := by
    show ((assignedRows after).foldl pg.assign r).core.blockNumber = _
    rw [core_foldl_assign, hcore]
    rfl
  -- the row lies below the block, so it is not deleted
  have hkept : rolledBack chainId rollbackBlock ((assignedRows after).foldl pg.assign r).chainId
      ((assignedRows after).foldl pg.assign r).blockNumber = false := by
    have hlt := (hbefore _ hmem).2
    change e.metadata.blockNumber < rollbackBlock at hlt
    rw [hblock]
    simp only [rolledBack, Bool.and_eq_false_iff, decide_eq_false_iff_not]
    exact .inr (by omega)
  have hget : (withProgress anchors checkpoints
      (pg.writeEvents (pg.writeEvents .empty before) after)).ormpMessageAccepted.get e.msgHash =
      some ((assignedRows after).foldl pg.assign r) := get_both fresh hmem hr
  rw [get_accepted_rollback, hget, Option.filter_some, hkept, Bool.not_false, if_pos rfl,
    Option.map_some, Option.some.injEq]
  refine recomputed_eq_iff (id_eq_msgHash eventRow_empty hr) (fun a => ?_)
    (mem_rolledBack_iff hbefore hafter fun k => eventRow_withProgress _ k)
  -- the assignments left are those of the first part
  have hassigned := hrow (.ormpMessageAssigned, a.id)
  have hinj : Function.Injective LegacyRow.ormpMessageAssigned :=
    fun _ _ h => LegacyRow.ormpMessageAssigned.inj h
  rw [Stored, Stored, Option.map_injective hinj hassigned]

/-! ### Anchors and checkpoints -/

theorem anchors_undone {before after : List BlockAnchor}
    (hbefore : ∀ a ∈ before, a.blockNumber < rollbackBlock)
    (hafter : ∀ a ∈ after, a.chainId = chainId ∧ a.dataset = dataset ∧ rollbackBlock ≤ a.blockNumber) :
    (after.foldl Table.upsert (before.foldl Table.upsert .empty)).deleteWhere (fun anchor =>
      anchor.chainId == chainId && anchor.dataset == dataset &&
        decide (rollbackBlock ≤ anchor.blockNumber)) = before.foldl Table.upsert .empty := by
  apply Table.ext
  intro k
  rw [Table.get_deleteWhere, get_foldl_upsert_anchor, get_foldl_upsert_anchor, Table.get_empty,
    Option.or_none]
  cases hlast : lastWhere (fun a => Keyed.key a == k) after with
  | none =>
      rw [Option.none_or]
      cases hfirst : lastWhere (fun a => Keyed.key a == k) before with
      | none => rfl
      | some a =>
          have := hbefore a (mem_of_lastWhere hfirst)
          have hdecide : decide (rollbackBlock ≤ a.blockNumber) = false := by
            rw [decide_eq_false_iff_not]
            omega
          simp [hdecide]
  | some a =>
      obtain ⟨hchain, hdataset, hle⟩ := hafter a (mem_of_lastWhere hlast)
      have hkey : Keyed.key a = k := by simpa using holds_of_lastWhere hlast
      -- the two parts anchor different blocks
      have none : lastWhere (fun a => Keyed.key a == k) before = none := by
        refine lastWhere_eq_none_iff.mpr fun p hp => beq_eq_false_iff_ne.mpr fun hpkey => ?_
        have hblock : p.blockNumber = a.blockNumber :=
          congrArg (fun k => k.2.2) (hpkey.trans hkey.symm)
        have := hbefore p hp
        omega
      rw [none, Option.some_or, Option.filter_some]
      simp [hchain, hdataset, hle]

/-- Anchors and checkpoints do not matter to a lane. -/
theorem laneUndone_withProgress {db : Database} {r : OrmpMessageAcceptedRow} {lane : Lane} :
    pg.LaneUndone (withProgress anchors checkpoints db) after r lane ↔
      pg.LaneUndone db after r lane :=
  ⟨fun h => ⟨h.reassigned, h.untouched⟩, fun h => ⟨h.reassigned, h.untouched⟩⟩

theorem get_checkpointsAfter (t : Table Checkpoint) (batches : List Batch) {k : Nat × String}
    (h : k ≠ (chainId, dataset)) : (checkpointsAfter chainId dataset t batches).get k = t.get k := by
  unfold checkpointsAfter
  induction batches generalizing t with
  | nil => rfl
  | cons batch batches ih =>
      rw [List.foldl_cons, ih, Table.get_upsert, if_neg]
      exact fun hkey => h hkey.symm

/-- The checkpoint of the chain is the only one the batches touch. -/
theorem checkpoints_undone (t : Table Checkpoint) (batches : List Batch) (nextBlock : Nat) :
    (checkpointsAfter chainId dataset t batches).upsert ⟨chainId, dataset, nextBlock⟩ =
      t.upsert ⟨chainId, dataset, nextBlock⟩ := by
  apply Table.ext
  intro k
  rw [Table.get_upsert, Table.get_upsert]
  split
  · rfl
  · rename_i h
    exact get_checkpointsAfter t batches fun hk => h hk.symm

end

/-! ## The theorem -/

/-- When a rollback takes the second part back. -/
structure Undoable (pg : Postgres) (chainId : Nat) (dataset : String) (rollbackBlock : Nat)
    (before after : List Batch) : Prop where
  /-- No event of the second part has the row id of an event of the first. -/
  fresh : ∀ s ∈ eventsOf after, ∀ p ∈ eventsOf before, eventKey s ≠ eventKey p
  /-- The signature rows of the second part name the chain or are selected by an anchor. -/
  found : ∀ s, LastWritten (eventsOf after) (.signatureSubmittion s) → s.chainId = chainId ∨
    pg.selectedByAnchor (pg.commitBatches chainId dataset
      (pg.commitBatches chainId dataset .empty before) after) chainId dataset rollbackBlock
      (.fromEvent s) = true
  /-- The assignment columns of the first part come back. -/
  lanes : ∀ id r,
    (pg.commitBatches chainId dataset .empty before).ormpMessageAccepted.get id = some r →
    ∀ lane, pg.LaneUndone (pg.commitBatches chainId dataset .empty before) (eventsOf after) r lane

/-- **Rollback undoes writing.** Batches below a block, further batches from the block on, and a rollback
to the block: this leaves every table as the first part alone with its checkpoint at the block, exactly
under the condition `Undoable`. -/
theorem rollback_undoes_writing_iff (pg : Postgres) (chainId : Nat) (dataset : String)
    (rollbackBlock : Nat) (before after : List Batch)
    (hbefore : BatchesIn chainId dataset (· < rollbackBlock) before)
    (hafter : BatchesIn chainId dataset (rollbackBlock ≤ ·) after) :
    pg.rollbackLegacyFrom (pg.commitBatches chainId dataset
        (pg.commitBatches chainId dataset .empty before) after) chainId dataset rollbackBlock =
      upsertCheckpoint (pg.commitBatches chainId dataset .empty before) chainId dataset
        rollbackBlock ↔
    Undoable pg chainId dataset rollbackBlock before after := by
  have hbeforeEvents := hbefore.events
  have hafterEvents := hafter.events
  have hfirst := commitBatches_eq pg chainId dataset .empty before
  have hboth := commitBatches_both pg chainId dataset before after
  have hrows := @eventRow_undone_iff pg (eventsOf before) (eventsOf after) chainId dataset
    rollbackBlock hbeforeEvents hafterEvents (pg.commitBatches chainId dataset
      (pg.commitBatches chainId dataset .empty before) after) fun k => by
        rw [hboth, eventRow_withProgress]
  have hright : ∀ k, (upsertCheckpoint (pg.commitBatches chainId dataset .empty before) chainId
      dataset rollbackBlock).eventRow k = (pg.writeEvents .empty (eventsOf before)).eventRow k :=
    fun k => by
      rw [hfirst]
      exact eventRow_withProgress _ k
  have haccepted : ∀ id, (pg.commitBatches chainId dataset .empty before).ormpMessageAccepted.get id =
      (pg.writeEvents .empty (eventsOf before)).ormpMessageAccepted.get id := fun id => by
    rw [hfirst]
    rfl
  have hlanes : ∀ {r lane}, pg.LaneUndone (pg.commitBatches chainId dataset .empty before)
      (eventsOf after) r lane ↔
      pg.LaneUndone (pg.writeEvents .empty (eventsOf before)) (eventsOf after) r lane := by
    rw [hfirst]
    exact laneUndone_withProgress
  constructor
  -- equal databases have equal event rows and equal lanes
  · intro h
    have hrow := fun k => (congrArg (Database.eventRow · k) h).trans (hright k)
    obtain ⟨fresh, found⟩ := hrows.mp hrow
    refine ⟨fresh, found, fun id r hr lane => hlanes.mpr ?_⟩
    rw [haccepted] at hr
    have hback : (pg.rollbackLegacyFrom _ chainId dataset rollbackBlock).ormpMessageAccepted.get id =
        some r := (congrArg (fun db => db.ormpMessageAccepted.get id) h).trans ((haccepted id).trans hr)
    rw [hboth] at hrow hback
    exact (accepted_undone_iff hbeforeEvents hafterEvents fresh hrow hr).mp hback lane
  -- a database is its event rows, its lanes, its anchors and its checkpoints
  · intro h
    have hrow := hrows.mpr ⟨h.fresh, h.found⟩
    refine database_ext (fun k => (hrow k).trans (hright k).symm) (fun id r r' hr hr' lane => ?_) ?_ ?_
    · change (pg.commitBatches chainId dataset .empty before).ormpMessageAccepted.get id = some r' at hr'
      have hundone := h.lanes id r' hr'
      rw [haccepted] at hr'
      rw [hboth] at hrow hr
      have hback := (accepted_undone_iff hbeforeEvents hafterEvents h.fresh hrow hr').mpr fun lane =>
        hlanes.mp (hundone lane)
      rw [hr] at hback
      cases hback
      rfl
    · rw [blockAnchor_rollback, hboth]
      show _ = (pg.commitBatches chainId dataset .empty before).blockAnchor
      rw [hfirst]
      exact anchors_undone (fun a ha => (hbefore.anchors a ha).2.2) hafter.anchors
    · rw [checkpoint_rollback, hboth]
      show _ = (pg.commitBatches chainId dataset .empty before).checkpoint.upsert _
      rw [hfirst]
      exact checkpoints_undone _ after rollbackBlock

/-- A message is accepted, and two oracles are assigned to it in one block. -/
def assignedTwice : List Batch :=
  [⟨[acceptedEvent 46 5 "0xaa",
      assignedEvent 46 6 9 "0xaa" "0x8d8a2bd991c1d900c59a82a2eeb0df44e0671aab" 7,
      assignedEvent 46 6 10 "0xaa" "0x2cdc7178013de451ed99607ac15def6bab8c37e6" 8], [], 9⟩]

/-- Another assignment, in a block that is rolled back. -/
def assignedAgain : List Batch :=
  [⟨[assignedEvent 46 9 1 "0xaa" "0x8d8a2bd991c1d900c59a82a2eeb0df44e0671aab" 9],
    [⟨46, EVM_LOGS_DATASET, 9, "0xaaaaa1", none, .latest⟩], 10⟩]

/-- The assignment with log index 10 was the last of its block; as a text its id comes before that of log
index 9, so the recomputation ends with log index 9. -/
theorem rollback_reorders_assignments :
    BatchesIn 46 EVM_LOGS_DATASET (· < 9) assignedTwice ∧
    BatchesIn 46 EVM_LOGS_DATASET (9 ≤ ·) assignedAgain ∧
    legacyStore.rollbackLegacyFrom (legacyStore.commitBatches 46 EVM_LOGS_DATASET
        (legacyStore.commitBatches 46 EVM_LOGS_DATASET .empty assignedTwice) assignedAgain) 46
        EVM_LOGS_DATASET 9 ≠
      upsertCheckpoint (legacyStore.commitBatches 46 EVM_LOGS_DATASET .empty assignedTwice) 46
        EVM_LOGS_DATASET 9 := by
  refine ⟨by decide, by decide, fun h => ?_⟩
  have fees := congrArg (fun db => (db.ormpMessageAccepted.get "0xaa").map (·.oracleAssignedFee)) h
  have fee : ((upsertCheckpoint (legacyStore.commitBatches 46 EVM_LOGS_DATASET .empty assignedTwice) 46
      EVM_LOGS_DATASET 9).ormpMessageAccepted.get "0xaa").map (·.oracleAssignedFee) =
      some (some 8) := rfl
  have fee' : ((legacyStore.rollbackLegacyFrom (legacyStore.commitBatches 46 EVM_LOGS_DATASET
      (legacyStore.commitBatches 46 EVM_LOGS_DATASET .empty assignedTwice) assignedAgain) 46
      EVM_LOGS_DATASET 9).ormpMessageAccepted.get "0xaa").map (·.oracleAssignedFee) =
      some (some 7) := by decide +kernel
  rw [fee, fee'] at fees
  cases fees

def assignedOnce : List Batch :=
  [⟨[acceptedEvent 46 5 "0xaa",
      assignedEvent 46 6 9 "0xaa" "0x8d8a2bd991c1d900c59a82a2eeb0df44e0671aab" 7], [], 9⟩]

/-- Another assignment, and a signature for messages of chain 1, in a block that is rolled back. -/
def assignedAndSigned : List Batch :=
  [⟨[assignedEvent 46 9 1 "0xaa" "0x2cdc7178013de451ed99607ac15def6bab8c37e6" 8,
      .signatureSubmittion (signature 46 9 1)],
    [⟨46, EVM_LOGS_DATASET, 9, "0xaaaaa1", none, .latest⟩], 10⟩]

theorem undoable_assignedAndSigned :
    Undoable legacyStore 46 EVM_LOGS_DATASET 9 assignedOnce assignedAndSigned where
  fresh := by decide +kernel
  found s hs := by
    rcases List.mem_cons.mp (mem_of_lastWhere hs) with h | h
    · cases h
    · cases List.mem_singleton.mp h
      exact .inr rfl
  lanes id r hr lane := by
    have rows : ∀ r ∈ (legacyStore.commitBatches 46 EVM_LOGS_DATASET .empty
        assignedOnce).ormpMessageAccepted.select fun _ => true, r.msgHash = "0xaa" ∧
        ∀ lane ∈ [Lane.oracle, Lane.relayer], r.lane lane = ((legacyStore.settled
          (legacyStore.commitBatches 46 EVM_LOGS_DATASET .empty assignedOnce) lane r).map
            (value lane)).getD .null := by
      decide +kernel
    have key : Keyed.key r = id := Table.key_of_get hr
    obtain ⟨hmsg, hlanes⟩ := rows r (Table.mem_select.mpr ⟨key ▸ hr, rfl⟩)
    refine ⟨fun _ _ _ => hlanes lane (by cases lane <;> simp), fun hnone => ?_⟩
    have last : LastWritten (eventsOf assignedAndSigned)
        (assignedEvent 46 9 1 "0xaa" "0x2cdc7178013de451ed99607ac15def6bab8c37e6" 8) := by
      rfl
    exact absurd hmsg.symm (hnone _ last)

/-- Both are taken back. -/
theorem rollback_undoes_writing_assignedAndSigned :
    legacyStore.rollbackLegacyFrom (legacyStore.commitBatches 46 EVM_LOGS_DATASET
        (legacyStore.commitBatches 46 EVM_LOGS_DATASET .empty assignedOnce) assignedAndSigned) 46
        EVM_LOGS_DATASET 9 =
      upsertCheckpoint (legacyStore.commitBatches 46 EVM_LOGS_DATASET .empty assignedOnce) 46
        EVM_LOGS_DATASET 9 :=
  (rollback_undoes_writing_iff legacyStore 46 EVM_LOGS_DATASET 9 assignedOnce assignedAndSigned
    (by decide) (by decide)).mpr undoable_assignedAndSigned

end Postgres

end OrmpIndexer
