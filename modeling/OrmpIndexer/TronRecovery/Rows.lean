/-
# OrmpIndexer.TronRecovery.Rows — the rows about an event, before and after a commit

A row of the retired indexer and a row of the recovery are about the same event if they have the same chain,
transaction and message. Everything else may differ: the id, the place in the block, the letter case of the
transaction hash (`LegacyRow.message`).

`place` is the key under which a commit stores an event. The first part says where it is for each kind of
event, and which rows about the event the database had (`place_messageAssigned`). The second part is what a
commit makes of the rows about an event (`of_mem_rowsAbout_commit`, `mem_rowsAbout_commit`).
-/
import OrmpIndexer.Database.Rows
import OrmpIndexer.TronRecovery.Environment

namespace OrmpIndexer

open Foundation

/-- A row without its id and its place, the transaction hash in lower case. -/
def LegacyRow.message (locale : Locale) : LegacyRow → LegacyRow
  | .ormpMessageAccepted r => .ormpMessageAccepted
      { r.core with
        id := "", blockNumber := 0, blockTimestamp := 0, logIndex := 0
        transactionHash := locale.lowerText r.transactionHash }
  | .ormpMessageAssigned r => .ormpMessageAssigned
      { r with
        id := "", blockNumber := 0, blockTimestamp := 0
        transactionHash := locale.lowerText r.transactionHash }
  | .msgportMessageSent r => .msgportMessageSent
      { r with
        id := "", blockNumber := 0, blockTimestamp := 0, transactionIndex := 0, logIndex := 0
        portAddress := "", transactionFrom := none
        transactionHash := locale.lowerText r.transactionHash }
  | r => r

namespace TronRecovery

variable (locale : Locale)

/-- The message of an event: what a row about it has in common with the event. -/
def messageOf (e : LegacyOrmPEvent) : LegacyRow := (rowOf e).message locale

/-- The keys of the rows about an event. -/
def RowsAbout (db : Database) (e : LegacyOrmPEvent) : Set (LegacyTable × String) :=
  {k | ∃ r, db.eventRow k = some r ∧ r.message locale = messageOf locale e}

variable {locale}

/-- A row is about one message. -/
theorem messageOf_eq_of_mem {db : Database} {e f : LegacyOrmPEvent} {k : LegacyTable × String}
    (he : k ∈ RowsAbout locale db e) (hf : k ∈ RowsAbout locale db f) :
    messageOf locale e = messageOf locale f := by
  obtain ⟨r, hr, hre⟩ := he
  obtain ⟨r', hr', hrf⟩ := hf
  rw [hr] at hr'
  cases hr'
  rw [← hre, hrf]

/-! ## Where a commit stores an event -/

variable (locale) in
/-- The event a commit writes for an event. -/
def adjusted (db : Database) (e : LegacyOrmPEvent) : LegacyOrmPEvent :=
  ((RecoveryStore.adjust locale db e).toOption).getD e

variable (locale) in
def place (db : Database) (e : LegacyOrmPEvent) : LegacyTable × String :=
  eventKey (adjusted locale db e)

variable {db : Database}

theorem adjusted_of_ok {e e' : LegacyOrmPEvent} (h : RecoveryStore.adjust locale db e = .ok e') :
    adjusted locale db e = e' := by
  rw [adjusted, h]
  rfl

/-- A commit that gets to its transaction has adjusted every event. -/
theorem eq_map_adjusted {events events' : List LegacyOrmPEvent}
    (h : events.mapM (RecoveryStore.adjust locale db) = .ok events') :
    events' = events.map (adjusted locale db) ∧
      ∀ e ∈ events, RecoveryStore.adjust locale db e = .ok (adjusted locale db e) := by
  induction events generalizing events' with
  | nil =>
      cases h
      exact ⟨rfl, fun _ he => nomatch he⟩
  | cons e events ih =>
      rw [List.mapM_cons] at h
      simp only [bind_eq_ok] at h
      obtain ⟨e', he', rest, hrest, h⟩ := h
      cases h
      obtain ⟨rfl, hall⟩ := ih hrest
      refine ⟨by rw [List.map_cons, adjusted_of_ok he'], fun f hf => ?_⟩
      rcases List.mem_cons.mp hf with rfl | hf
      · rw [adjusted_of_ok he', he']
      · exact hall f hf

/-- What an accepted event is adjusted to, and what must hold of the row under its hash. -/
theorem adjust_messageAccepted {a : MessageAccepted} {e' : LegacyOrmPEvent}
    (h : RecoveryStore.adjust locale db (.messageAccepted a) = .ok e') :
    RecoveryStore.conflicts locale db a = false ∧ ∃ (blockTimestamp : Nat) (logIndex : Int),
      e' = .messageAccepted { a with metadata := { a.metadata with blockTimestamp, logIndex } } := by
  simp only [RecoveryStore.adjust, bind_eq_ok] at h
  obtain ⟨_, hfree, h⟩ := h
  refine ⟨?_, ?_⟩
  · cases hconflicts : RecoveryStore.conflicts locale db a with
    | false => rfl
    | true =>
        rw [hconflicts] at hfree
        cases hfree
  · split at h
    · cases h
      exact ⟨_, _, rfl⟩
    · cases h
      exact ⟨a.metadata.blockTimestamp, a.metadata.logIndex, rfl⟩

theorem adjust_messageAssigned {a : MessageAssigned} {e' : LegacyOrmPEvent}
    (h : RecoveryStore.adjust locale db (.messageAssigned a) = .ok e') :
    (RecoveryStore.assignmentIds locale db a = [] ∧ e' = .messageAssigned a) ∨
      ∃ id, RecoveryStore.assignmentIds locale db a = [id] ∧
        e' = .messageAssigned { a with metadata := { a.metadata with id } } := by
  simp only [RecoveryStore.adjust, bind_eq_ok] at h
  obtain ⟨_, hone, h⟩ := h
  cases hids : RecoveryStore.assignmentIds locale db a with
  | nil =>
      rw [hids] at h
      cases h
      exact .inl ⟨rfl, rfl⟩
  | cons id ids =>
      rw [hids] at h hone
      cases ids with
      | nil =>
          cases h
          exact .inr ⟨id, rfl, rfl⟩
      | cons id' ids => cases hone

/-- Adjusting keeps the message. -/
theorem messageOf_adjust {e e' : LegacyOrmPEvent} (h : RecoveryStore.adjust locale db e = .ok e') :
    messageOf locale e' = messageOf locale e := by
  cases e with
  | messageAccepted a =>
      obtain ⟨_, _, _, rfl⟩ := adjust_messageAccepted h
      rfl
  | messageAssigned a =>
      rcases adjust_messageAssigned h with ⟨_, rfl⟩ | ⟨_, _, rfl⟩ <;> rfl
  | _ =>
      cases h
      rfl

@[simp]
theorem messageOf_adjusted (db : Database) (e : LegacyOrmPEvent) :
    messageOf locale (adjusted locale db e) = messageOf locale e := by
  cases h : RecoveryStore.adjust locale db e with
  | ok e' => rw [adjusted_of_ok h, messageOf_adjust h]
  | error error =>
      rw [adjusted, h]
      rfl

/-- The table of a message is the table of its event. -/
theorem table_messageOf (locale : Locale) (e : LegacyOrmPEvent) :
    (messageOf locale e).table = (rowOf e).table := by
  cases e <;> rfl

theorem fst_place (locale : Locale) (db : Database) (e : LegacyOrmPEvent) :
    (place locale db e).1 = (rowOf e).table := by
  rw [← table_messageOf locale e, ← messageOf_adjusted db e, table_messageOf]
  rfl

theorem fst_of_mem_rowsAbout {e : LegacyOrmPEvent} {k : LegacyTable × String}
    (h : k ∈ RowsAbout locale db e) : k.1 = (rowOf e).table := by
  obtain ⟨r, hr, hmessage⟩ := h
  have htable : r.table = (rowOf e).table := by
    rw [← table_messageOf locale e, ← hmessage]
    cases r <;> rfl
  rw [← htable]
  obtain ⟨t, id⟩ := k
  cases t <;>
    obtain ⟨_, _, rfl⟩ := Option.map_eq_some_iff.mp hr <;> rfl

theorem place_messageAccepted {a : MessageAccepted}
    (h : RecoveryStore.adjust locale db (.messageAccepted a) =
      .ok (adjusted locale db (.messageAccepted a))) :
    place locale db (.messageAccepted a) = (.ormpMessageAccepted, a.msgHash) := by
  obtain ⟨_, _, _, hadjusted⟩ := adjust_messageAccepted h
  rw [place, hadjusted]
  rfl

/-- Sent events of a range are stored at different places. -/
theorem place_inj_of_sent {events : List LegacyOrmPEvent} (hevents : TronEvents events)
    {e f : LegacyOrmPEvent} (he : e ∈ events) (hf : f ∈ events) (hsent : IsMsgportMessageSent e)
    (hplace : place locale db e = place locale db f) : e = f := by
  obtain ⟨m, rfl⟩ := hsent
  have htable := fst_place locale db f
  rw [← hplace] at htable
  rcases (hevents.event f hf).kind with ⟨a, rfl⟩ | ⟨a, rfl⟩ | ⟨m', rfl⟩ <;> try cases htable
  exact hevents.legacyEventLogId_inj he hf (Prod.mk.inj hplace).2

/-- The rows of the statement for assignments are the rows about the event. -/
theorem mem_rowsAbout_messageAssigned {a : MessageAssigned} (hchain : a.metadata.chainId = CHAIN_ID)
    {k : LegacyTable × String} : k ∈ RowsAbout locale db (.messageAssigned a) ↔
      ∃ id ∈ RecoveryStore.assignmentIds locale db a, k = (.ormpMessageAssigned, id) := by
  have hselects : ∀ r : OrmpMessageAssignedRow,
      (LegacyRow.ormpMessageAssigned r).message locale =
          messageOf locale (.messageAssigned a) ↔
        RecoveryStore.selectsAssignment locale a r = true := by
    intro r
    simp [LegacyRow.message, messageOf, rowOf, OrmpMessageAssignedRow.fromEvent,
      RecoveryStore.selectsAssignment, hchain]
    tauto
  constructor
  · rintro ⟨r, hr, hmessage⟩
    obtain ⟨t, id⟩ := k
    cases t with
    | ormpMessageAssigned =>
        obtain ⟨row, hrow, rfl⟩ := Option.map_eq_some_iff.mp hr
        refine ⟨id, ?_, rfl⟩
        have hkey : row.id = id := Table.key_of_get hrow
        subst hkey
        exact List.mem_map.mpr
          ⟨row, Table.mem_select.mpr ⟨hrow, (hselects row).mp hmessage⟩, rfl⟩
    | _ =>
        -- the message names its table
        obtain ⟨row, _, rfl⟩ := Option.map_eq_some_iff.mp hr
        cases hmessage
  · rintro ⟨id, hid, rfl⟩
    obtain ⟨row, hrow, rfl⟩ := List.mem_map.mp hid
    obtain ⟨hget, hselected⟩ := Table.mem_select.mp hrow
    refine ⟨.ormpMessageAssigned row, ?_, (hselects row).mpr hselected⟩
    exact Option.map_eq_some_iff.mpr ⟨row, hget, rfl⟩

/-- An assignment has at most one row, and that is where it is stored. Without a row it is stored under the
recovery's own id. -/
theorem place_messageAssigned {a : MessageAssigned} (hchain : a.metadata.chainId = CHAIN_ID)
    (h : RecoveryStore.adjust locale db (.messageAssigned a) =
      .ok (adjusted locale db (.messageAssigned a))) :
    (RowsAbout locale db (.messageAssigned a) = ∅ ∧
        place locale db (.messageAssigned a) = (.ormpMessageAssigned, a.metadata.id)) ∨
      RowsAbout locale db (.messageAssigned a) = {place locale db (.messageAssigned a)} := by
  rcases adjust_messageAssigned h with ⟨hids, hadjusted⟩ | ⟨id, hids, hadjusted⟩
  · left
    refine ⟨Set.eq_empty_iff_forall_notMem.mpr fun k hk => ?_, by rw [place, hadjusted]; rfl⟩
    obtain ⟨id, hid, _⟩ := (mem_rowsAbout_messageAssigned hchain).mp hk
    rw [hids] at hid
    cases hid
  · right
    have hplace : place locale db (.messageAssigned a) = (.ormpMessageAssigned, id) := by
      rw [place, hadjusted]
      rfl
    ext k
    rw [mem_rowsAbout_messageAssigned hchain, hids, hplace]
    simp

/-- A row under the message hash that does not conflict is about the event. -/
theorem messageOf_of_conflicts {a : MessageAccepted}
    (h : RecoveryStore.conflicts locale db a = false) {r : LegacyRow}
    (hr : db.eventRow (.ormpMessageAccepted, a.msgHash) = some r) :
    r.message locale = messageOf locale (.messageAccepted a) := by
  obtain ⟨row, hrow, rfl⟩ := Option.map_eq_some_iff.mp hr
  simp only [RecoveryStore.conflicts, hrow, Bool.or_eq_false_iff, bne_eq_false_iff_eq] at h
  obtain ⟨⟨⟨⟨⟨⟨⟨⟨⟨⟨⟨hchain, hblock⟩, htransaction⟩, hchannel⟩, hindex⟩, hfromChain⟩, hfrom⟩, htoChain⟩, hto⟩,
    hgas⟩, hencoded⟩, hhash⟩ := h
  simp [LegacyRow.message, messageOf, rowOf, OrmpMessageAcceptedRow.core,
    OrmpMessageAcceptedRow.fromEvent, hchain, htransaction, hchannel, hindex, hfromChain, hfrom,
    htoChain, hto, hgas, hencoded, hhash]

/-- The database after the transaction of a commit. -/
def committed (postgres : Postgres) (db : Database) (events : List LegacyOrmPEvent)
    (nextBlock : Nat) : Database :=
  postgres.writeEventsAndAdvanceCheckpoint db (events.map (adjusted postgres.locale db)) []
    CHAIN_ID DATASET nextBlock

/-- On a store of its own a commit reads one database. -/
theorem reads_storeServes (postgres : Postgres) (db : Database) :
    RecoveryStore.Reads (StoreServes postgres) (fun s _ => s = db) (· = db) postgres.locale db := by
  refine .of_isRead fun op hop => ?_
  rintro _ rfl
  refine ⟨rfl, fun r s' hserves => ?_⟩
  cases r with
  | error error => exact ⟨hserves, fun _ hr => nomatch hr⟩
  | ok r =>
      refine ⟨hserves.2.trans (effect_of_isRead hop), fun r' hr => ?_⟩
      cases hr
      exact hserves.1

/-- A commit that succeeds on a store of its own has adjusted every event and run its transaction. -/
theorem commit_eq_ok {postgres : Postgres} {db db' : Database} {events : List LegacyOrmPEvent}
    {nextBlock : Nat} (h : Task.Reaches (StoreServes postgres)
      (db, RecoveryStore.commit events nextBlock) (db', .done (.ok ()))) :
    (∀ e ∈ events, RecoveryStore.adjust postgres.locale db e =
        .ok (adjusted postgres.locale db e)) ∧
      db' = committed postgres db events nextBlock := by
  have hwp : Task.Wp (StoreServes postgres) (fun s _ => s = db)
      (fun _ s => (∀ e ∈ events, RecoveryStore.adjust postgres.locale db e =
        .ok (adjusted postgres.locale db e)) ∧ s = committed postgres db events nextBlock)
      (fun _ _ => True) (RecoveryStore.commit events nextBlock) db := by
    refine RecoveryStore.wp_commit (reads_storeServes postgres db) (fun _ _ _ => trivial) rfl ?_
    rintro events' _ rfl hadjusted
    obtain ⟨rfl, hok⟩ := eq_map_adjusted hadjusted
    exact Task.wp_await.mpr ⟨rfl, fun _ s' hserves => ⟨hok, hserves.2⟩, fun _ _ _ => trivial⟩
  exact hwp.reaches h

section

variable {σ : Type} {answer : σ → (op : Op) → Except Error (Reply op) × σ} {s : σ}

variable (answer s locale db) in
/-- The statements of `commit` that read are answered from the database, without an effect. -/
structure AnswersReads : Prop where
  messageConflicts : ∀ e, (await (.messageConflicts e)).eval answer s =
    (.ok (RecoveryStore.conflicts locale db e), s)
  acceptedMetadata : ∀ msgHash, (await (.acceptedMetadata msgHash)).eval answer s =
    (.ok (RecoveryStore.acceptedMetadata db msgHash), s)
  assignmentIds : ∀ e, (await (.assignmentIds e)).eval answer s =
    (.ok (RecoveryStore.assignmentIds locale db e), s)

variable (hreads : AnswersReads locale db answer s)

include hreads

theorem eval_adjustEvent {e e' : LegacyOrmPEvent} (h : RecoveryStore.adjust locale db e = .ok e') :
    (RecoveryStore.adjustEvent e).eval answer s = (.ok e', s) := by
  rw [← h]
  cases e with
  | messageAccepted a =>
      have hfree := (adjust_messageAccepted h).1
      have hcheck : (RecoveryStore.checkExisting (.messageAccepted a)).eval answer s =
          (.ok (), s) := by
        rw [RecoveryStore.checkExisting]
        refine (Task.eval_bind_of_ok (hreads.messageConflicts a)).trans ?_
        rw [hfree]
        rfl
      rw [RecoveryStore.adjustEvent, Task.eval_bind_of_ok hcheck]
      refine (Task.eval_bind_of_ok (hreads.acceptedMetadata a.msgHash)).trans ?_
      rw [RecoveryStore.adjust, hfree]
      cases RecoveryStore.acceptedMetadata db a.msgHash <;> rfl
  | messageAssigned a =>
      refine (Task.eval_bind_of_ok (hreads.assignmentIds a)).trans ?_
      rw [RecoveryStore.adjust]
      rcases RecoveryStore.assignmentIds locale db a with _ | ⟨id, _ | ⟨id', ids⟩⟩ <;> rfl
  | _ => rfl

theorem eval_adjustEvents {events : List LegacyOrmPEvent}
    (hok : ∀ e ∈ events, RecoveryStore.adjust locale db e = .ok (adjusted locale db e)) :
    (RecoveryStore.adjustEvents events).eval answer s = (.ok (events.map (adjusted locale db)), s) := by
  induction events with
  | nil => rfl
  | cons e events ih =>
      rw [RecoveryStore.adjustEvents,
        Task.eval_bind_of_ok (eval_adjustEvent hreads (hok e List.mem_cons_self)),
        Task.eval_bind_of_ok (ih fun f hf => hok f (List.mem_cons_of_mem e hf))]
      rfl

/-- If every event can be adjusted, the transaction writes the adjusted events. -/
theorem eval_commit {events : List LegacyOrmPEvent} {nextBlock written : Nat} {s' : σ}
    (hok : ∀ e ∈ events, RecoveryStore.adjust locale db e = .ok (adjusted locale db e))
    (hwrite : answer s (.writeEventsAndAdvanceCheckpoint (events.map (adjusted locale db)) []
      CHAIN_ID DATASET nextBlock) = (.ok written, s')) :
    (RecoveryStore.commit events nextBlock).eval answer s = (.ok (), s') := by
  rw [RecoveryStore.commit, Task.eval_bind_of_ok (eval_adjustEvents hreads hok)]
  exact Task.eval_bind_of_ok (Task.eval_mapError_of_ok hwrite)

end

/-- If every event can be adjusted, the commit succeeds. -/
theorem reaches_commit (postgres : Postgres) {db : Database} {events : List LegacyOrmPEvent}
    (nextBlock : Nat) (hok : ∀ e ∈ events, RecoveryStore.adjust postgres.locale db e =
      .ok (adjusted postgres.locale db e)) :
    Task.Reaches (StoreServes postgres) (db, RecoveryStore.commit events nextBlock)
      (committed postgres db events nextBlock, .done (.ok ())) := by
  have hreads : AnswersReads postgres.locale db (simulateStore postgres) db :=
    ⟨fun _ => rfl, fun _ => rfl, fun _ => rfl⟩
  have heval : (RecoveryStore.commit events nextBlock).eval (simulateStore postgres) db =
      (.ok (), committed postgres db events nextBlock) := eval_commit hreads hok rfl
  have hreaches := Task.reaches_eval (storeServes_simulateStore postgres)
    (RecoveryStore.commit events nextBlock) db
  rw [heval] at hreaches
  exact hreaches

section

variable {postgres : Postgres} {events : List LegacyOrmPEvent} {nextBlock : Nat}
  {e : LegacyOrmPEvent} {k : LegacyTable × String}

theorem eventRow_committed :
    (committed postgres db events nextBlock).eventRow k =
      ((lastWhere (fun f => place postgres.locale db f == k) events).map fun f =>
        rowOf (adjusted postgres.locale db f)).or (db.eventRow k) := by
  have hrows : (committed postgres db events nextBlock).eventRow k =
      (postgres.writeEvents db (events.map (adjusted postgres.locale db))).eventRow k := by
    obtain ⟨t, id⟩ := k
    cases t <;> rfl
  rw [hrows, Postgres.eventRow_writeEvents, lastWhere_map, Option.map_map]
  rfl

/-- A row about an event has been written for an event with the same message, or it was there and
nothing has been written over it. -/
theorem of_mem_rowsAbout_commit
    (hk : k ∈ RowsAbout postgres.locale (committed postgres db events nextBlock) e) :
    (∃ f ∈ events, place postgres.locale db f = k ∧
        messageOf postgres.locale f = messageOf postgres.locale e) ∨
      k ∈ RowsAbout postgres.locale db e ∧ ∀ f ∈ events, place postgres.locale db f ≠ k := by
  obtain ⟨r, hr, hmessage⟩ := hk
  rw [eventRow_committed] at hr
  cases hlast : lastWhere (fun f => place postgres.locale db f == k) events with
  | none =>
      rw [hlast] at hr
      exact .inr ⟨⟨r, hr, hmessage⟩, by simpa using lastWhere_eq_none_iff.mp hlast⟩
  | some f =>
      rw [hlast] at hr
      cases hr
      have hf := mem_of_lastWhere hlast
      refine .inl ⟨f, hf, by simpa using holds_of_lastWhere hlast, ?_⟩
      rw [← messageOf_adjusted db f]
      exact hmessage

/-- If only the event's message is written under a key, and something is or was there, then a row about the
event is there. -/
theorem mem_rowsAbout_commit
    (hsame : ∀ f ∈ events, place postgres.locale db f = k →
      messageOf postgres.locale f = messageOf postgres.locale e)
    (hk : (∃ f ∈ events, place postgres.locale db f = k) ∨ k ∈ RowsAbout postgres.locale db e) :
    k ∈ RowsAbout postgres.locale (committed postgres db events nextBlock) e := by
  cases hlast : lastWhere (fun f => place postgres.locale db f == k) events with
  | none =>
      have hnone := lastWhere_eq_none_iff.mp hlast
      rcases hk with ⟨f, hf, hplace⟩ | ⟨r, hr, hmessage⟩
      · exact absurd hplace (by simpa using hnone f hf)
      · exact ⟨r, by rw [eventRow_committed, hlast]; exact hr, hmessage⟩
  | some f =>
      have hf := mem_of_lastWhere hlast
      refine ⟨rowOf (adjusted postgres.locale db f), by rw [eventRow_committed, hlast]; rfl, ?_⟩
      rw [← hsame f hf (by simpa using holds_of_lastWhere hlast)]
      exact messageOf_adjusted db f

end

end TronRecovery

end OrmpIndexer
