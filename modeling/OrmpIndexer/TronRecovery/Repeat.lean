/-
# OrmpIndexer.TronRecovery.Repeat — a commit and the same commit again

A commit checks an accepted event against the row under its message hash and then writes over that row with
the row's own timestamp and log index, so the row keeps its event columns. The second time every check
finds what the first commit wrote: the accepted rows agree with their events, an assignment has its one row, and
all events are adjusted as they were (`adjust_again`). The same rows are written once more
(`Postgres.writeEvents_twice`).
-/
import OrmpIndexer.Database.Replay
import OrmpIndexer.TronRecovery.Duplicates

namespace OrmpIndexer

open Foundation Foundation.Task

/-- The event columns of an accepted row, the transaction hash in lower case. -/
def OrmpMessageAcceptedRow.eventColumns (locale : Locale) (r : OrmpMessageAcceptedRow) :
    OrmpMessageAcceptedRow :=
  { r.core with transactionHash := locale.lowerText r.transactionHash }

namespace TronRecovery

/-- No row under the recovery's own id of an assignment is about something else. -/
def FreeIds (locale : Locale) (db : Database) (events : List LegacyOrmPEvent) : Prop :=
  ∀ a, .messageAssigned a ∈ events → ∀ r,
    db.eventRow (.ormpMessageAssigned, a.metadata.id) = some r →
      r.message locale = messageOf locale (.messageAssigned a)

/-- A message hash is accepted once, and an assignment is made once. -/
structure Once (locale : Locale) (events : List LegacyOrmPEvent) : Prop where
  accepted : ∀ a b, .messageAccepted a ∈ events → .messageAccepted b ∈ events →
    a.msgHash = b.msgHash → a = b
  assigned : ∀ a b, .messageAssigned a ∈ events → .messageAssigned b ∈ events →
    messageOf locale (.messageAssigned a) = messageOf locale (.messageAssigned b) → a = b

/-- The store when no call fails. -/
def Answers (postgres : Postgres) (db : Database) (op : Op) (r : Except Error (Reply op))
    (db' : Database) : Prop :=
  ∃ a, r = .ok a ∧ storeAnswers postgres.locale db op a ∧ db' = effect postgres db op

/-- The statement for an assignment selects its one row. -/
theorem assignmentIds_of_rowsAbout {locale : Locale} {db : Database} {a : MessageAssigned}
    (hchain : a.metadata.chainId = CHAIN_ID) {id : String}
    (hrows : RowsAbout locale db (.messageAssigned a) = {(.ormpMessageAssigned, id)}) :
    RecoveryStore.assignmentIds locale db a = [id] := by
  have hmem : ∀ id', id' ∈ RecoveryStore.assignmentIds locale db a ↔ id' = id := by
    intro id'
    have hrow : (.ormpMessageAssigned, id') ∈ RowsAbout locale db (.messageAssigned a) ↔
        id' = id := by
      rw [hrows]
      simp
    rw [← hrow, mem_rowsAbout_messageAssigned hchain]
    simp
  have hnodup : (RecoveryStore.assignmentIds locale db a).Nodup := by
    refine (Table.nodup_select _ _).map_on fun r hr r' hr' hid => ?_
    have hget := (Table.mem_select.mp hr).1
    have hget' := (Table.mem_select.mp hr').1
    have hkey : Keyed.key r = Keyed.key r' := hid
    rw [hkey, hget'] at hget
    exact (Option.some.inj hget).symm
  refine List.perm_singleton.mp ((List.perm_ext_iff_of_nodup hnodup (List.nodup_singleton id)).mpr ?_)
  simpa using hmem

section

variable {postgres : Postgres} {db : Database} {events : List LegacyOrmPEvent} (next : Nat)
  (hevents : TronEvents events) (honce : Once postgres.locale events)
  (hids : FreeIds postgres.locale db events)
  (hok : ∀ e ∈ events, RecoveryStore.adjust postgres.locale db e =
    .ok (adjusted postgres.locale db e))

include hevents hok

/-- An assignment is written where a row about it is, or where none is. -/
theorem messageOf_of_place {a : MessageAssigned}
    (hids : FreeIds postgres.locale db events) (ha : .messageAssigned a ∈ events) {r : LegacyRow}
    (hr : db.eventRow (place postgres.locale db (.messageAssigned a)) = some r) :
    r.message postgres.locale = messageOf postgres.locale (.messageAssigned a) := by
  rcases place_messageAssigned (hevents.event _ ha).chainId (hok _ ha) with ⟨_, hplace⟩ | hrows
  · rw [hplace] at hr
    exact hids a ha r hr
  · have hmem : place postgres.locale db (.messageAssigned a) ∈
        RowsAbout postgres.locale db (.messageAssigned a) := by
      rw [hrows]
      exact Set.mem_singleton _
    obtain ⟨r', hr', hmessage⟩ := hmem
    cases hr.symm.trans hr'
    exact hmessage

include honce hids

theorem place_inj_of_once {e f : LegacyOrmPEvent} (he : e ∈ events) (hf : f ∈ events)
    (hplace : place postgres.locale db e = place postgres.locale db f) : e = f := by
  refine place_inj hevents hok honce.accepted
    (fun a b ha hb hsame _ => honce.assigned a b ha hb hsame) (fun a b _ hb hmem => ?_) he hf hplace
  obtain ⟨r, hr, _⟩ := hmem
  exact ⟨_, r, hr, hids b hb r hr⟩

/-- The adjusted events have different keys. -/
theorem eventKey_adjusted_inj : ∀ e ∈ events.map (adjusted postgres.locale db),
    ∀ e' ∈ events.map (adjusted postgres.locale db), eventKey e = eventKey e' → e = e' := by
  intro e he e' he' hkey
  obtain ⟨f, hf, rfl⟩ := List.mem_map.mp he
  obtain ⟨f', hf', rfl⟩ := List.mem_map.mp he'
  rw [place_inj_of_once hevents honce hids hok hf hf' hkey]

/-- Every event has the row it was adjusted to. -/
theorem eventRow_place {e : LegacyOrmPEvent} (he : e ∈ events) :
    (committed postgres db events next).eventRow (place postgres.locale db e) =
      some (rowOf (adjusted postgres.locale db e)) := by
  rw [eventRow_committed]
  cases hlast : lastWhere (fun f => place postgres.locale db f == place postgres.locale db e)
      events with
  | none => exact absurd (lastWhere_eq_none_iff.mp hlast e he) (by simp)
  | some f =>
      have hplace := by simpa using holds_of_lastWhere hlast
      rw [place_inj_of_once hevents honce hids hok (mem_of_lastWhere hlast) he hplace]
      rfl

/-- The rows about an assignment of the list are the one that was written. -/
theorem rowsAbout_committed {a : MessageAssigned} (ha : .messageAssigned a ∈ events) :
    RowsAbout postgres.locale (committed postgres db events next) (.messageAssigned a) =
      {place postgres.locale db (.messageAssigned a)} := by
  apply Set.Subset.antisymm
  · intro k hk
    rcases of_mem_rowsAbout_commit hk with ⟨f, hf, hplace, hsame⟩ | ⟨hk, hfree⟩
    · rcases (hevents.event f hf).kind with ⟨b, rfl⟩ | ⟨b, rfl⟩ | ⟨b, rfl⟩
      · cases hsame
      · rw [honce.assigned b a hf ha hsame] at hplace
        exact hplace.symm
      · cases hsame
    · rw [rowsAbout_assigned hevents hok ha ⟨k, hk⟩] at hk
      exact absurd hk.symm (hfree _ ha)
  · rintro _ rfl
    exact ⟨_, eventRow_place next hevents honce hids hok ha, messageOf_adjusted db _⟩

/-- The second time an event is adjusted as it was. -/
theorem adjust_again {e : LegacyOrmPEvent} (he : e ∈ events) :
    RecoveryStore.adjust postgres.locale (committed postgres db events next) e =
      .ok (adjusted postgres.locale db e) := by
  have hrow := eventRow_place next hevents honce hids hok he
  rcases (hevents.event e he).kind with ⟨a, rfl⟩ | ⟨a, rfl⟩ | ⟨m, rfl⟩
  · obtain ⟨_, blockTimestamp, logIndex, hadjusted⟩ := adjust_messageAccepted (hok _ he)
    rw [place_messageAccepted (hok _ he), hadjusted] at hrow
    obtain ⟨r, hget, hcore⟩ := Option.map_eq_some_iff.mp hrow
    have hcore : r.core = .fromEvent
        { a with metadata := { a.metadata with blockTimestamp, logIndex } } :=
      LegacyRow.ormpMessageAccepted.inj hcore
    -- the row agrees with the event, and has the timestamp and the log index it was adjusted to
    have hfree : RecoveryStore.conflicts postgres.locale (committed postgres db events next) a =
        false := by
      simp only [OrmpMessageAcceptedRow.core, OrmpMessageAcceptedRow.fromEvent,
        OrmpMessageAcceptedRow.mk.injEq] at hcore
      simp [RecoveryStore.conflicts, hget, hcore]
    have hmetadata : RecoveryStore.acceptedMetadata (committed postgres db events next) a.msgHash =
        some (blockTimestamp, logIndex) := by
      rw [RecoveryStore.acceptedMetadata, hget]
      show some (r.core.blockTimestamp, r.core.logIndex) = _
      rw [hcore]
      rfl
    rw [RecoveryStore.adjust, hfree, hmetadata, hadjusted]
    rfl
  · have hrows := rowsAbout_committed next hevents honce hids hok he
    have hchain := (hevents.event _ he).chainId
    rcases adjust_messageAssigned (hok _ he) with ⟨_, hadjusted⟩ | ⟨id, _, hadjusted⟩ <;>
      rw [place, hadjusted] at hrows <;>
      rw [RecoveryStore.adjust, assignmentIds_of_rowsAbout hchain hrows, hadjusted] <;> rfl
  · rfl

end

section

variable {postgres : Postgres} {db : Database} {events : List LegacyOrmPEvent} (next : Nat)

theorem wp_await_answers {op : Op} {Q : Reply op → Database → Prop} (hop : IsRead op)
    (hQ : ∀ a, storeAnswers postgres.locale db op a → Q a db) :
    Wp (Answers postgres) (fun _ _ => True) Q (fun _ _ => False) (await op) db := by
  refine wp_await.mpr ⟨trivial, ?_, ?_⟩
  · rintro a _ ⟨_, ha, hanswers, rfl⟩
    cases ha
    rw [effect_of_isRead hop]
    exact hQ a hanswers
  · rintro e _ ⟨_, he, _⟩
    cases he

theorem wp_adjustEvent_answers {e e' : LegacyOrmPEvent} {Q : LegacyOrmPEvent → Database → Prop}
    (hok : RecoveryStore.adjust postgres.locale db e = .ok e') (hQ : Q e' db) :
    Wp (Answers postgres) (fun _ _ => True) Q (fun _ _ => False) (RecoveryStore.adjustEvent e) db := by
  cases e with
  | messageAccepted a =>
      have hfree := (adjust_messageAccepted hok).1
      have hconflicts : IsRead (.messageConflicts a) := trivial
      have hmetadata : IsRead (.acceptedMetadata a.msgHash) := trivial
      refine wp_bind.mpr (wp_bind.mpr (wp_await_answers hconflicts fun conflicting hc => ?_))
      obtain rfl : conflicting = false := hc.trans hfree
      refine wp_bind.mpr (wp_await_answers hmetadata fun metadata hm => ?_)
      obtain rfl := hm
      rw [RecoveryStore.adjust, hfree] at hok
      cases hold : RecoveryStore.acceptedMetadata db a.msgHash <;>
        rw [hold] at hok <;> cases hok <;> exact hQ
  | messageAssigned a =>
      have hids : IsRead (.assignmentIds a) := trivial
      change Wp _ _ Q _ (await (.assignmentIds a) >>= fun ids => _) db
      refine wp_bind.mpr (wp_await_answers hids fun ids hperm => ?_)
      have hperm : ids.Perm (RecoveryStore.assignmentIds postgres.locale db a) := hperm
      rcases adjust_messageAssigned hok with ⟨hnone, rfl⟩ | ⟨id, hone, rfl⟩
      · rw [hnone, List.perm_nil] at hperm
        subst hperm
        exact hQ
      · rw [hone, List.perm_singleton] at hperm
        subst hperm
        exact hQ
  | _ =>
      cases hok
      exact hQ

theorem wp_adjustEvents_answers {Q : List LegacyOrmPEvent → Database → Prop}
    (hok : ∀ e ∈ events, RecoveryStore.adjust postgres.locale db e =
      .ok (adjusted postgres.locale db e))
    (hQ : Q (events.map (adjusted postgres.locale db)) db) :
    Wp (Answers postgres) (fun _ _ => True) Q (fun _ _ => False)
      (RecoveryStore.adjustEvents events) db := by
  induction events generalizing Q with
  | nil => exact hQ
  | cons e events ih =>
      refine wp_bind.mpr (wp_adjustEvent_answers (hok e List.mem_cons_self) ?_)
      exact wp_bind.mpr (ih (fun f hf => hok f (List.mem_cons_of_mem e hf)) hQ)

/-- If every event can be adjusted, a store on which no call fails gets through the commit. -/
theorem wp_commit_answers (hok : ∀ e ∈ events, RecoveryStore.adjust postgres.locale db e =
      .ok (adjusted postgres.locale db e)) :
    Wp (Answers postgres) (fun _ _ => True) (fun _ s => s = committed postgres db events next)
      (fun _ _ => False) (RecoveryStore.commit events next) db := by
  refine wp_bind.mpr (wp_adjustEvents_answers hok ?_)
  refine wp_bind.mpr (wp_mapError.mpr (wp_await.mpr ⟨trivial, ?_, ?_⟩))
  · rintro _ _ ⟨_, _, _, rfl⟩
    rfl
  · rintro e _ ⟨_, he, _⟩
    cases he

/-- A commit that does not get to its transaction has changed nothing. -/
theorem wp_commit_serves : Wp (StoreServes postgres) (fun s _ => s = db)
    (fun _ s => s = committed postgres db events next) (fun _ s => s = db)
    (RecoveryStore.commit events next) db := by
  refine RecoveryStore.wp_commit (reads_storeServes postgres db) (fun _ _ h => h) rfl ?_
  rintro adjusted _ rfl hadjusted
  obtain ⟨rfl, _⟩ := eq_map_adjusted hadjusted
  exact wp_await.mpr ⟨rfl, fun _ _ hserves => hserves.2, fun _ _ hserves => hserves⟩

/-- An accepted event is written over a row with the row's own event columns. -/
theorem eventColumns_adjusted {locale : Locale} {a : MessageAccepted} {e' : LegacyOrmPEvent}
    (h : RecoveryStore.adjust locale db (.messageAccepted a) = .ok e') {r : OrmpMessageAcceptedRow}
    (hr : db.ormpMessageAccepted.get a.msgHash = some r) :
    ∃ a', e' = .messageAccepted a' ∧
      (OrmpMessageAcceptedRow.fromEvent a').eventColumns locale = r.eventColumns locale := by
  have hfree := (adjust_messageAccepted h).1
  have hmetadata : RecoveryStore.acceptedMetadata db a.msgHash =
      some (r.blockTimestamp, r.logIndex) := by
    rw [RecoveryStore.acceptedMetadata, hr]
    rfl
  rw [RecoveryStore.adjust, hfree, hmetadata] at h
  cases h
  refine ⟨_, rfl, ?_⟩
  have hid : r.id = a.msgHash := Table.key_of_get hr
  simp only [RecoveryStore.conflicts, hr, Bool.or_eq_false_iff, bne_eq_false_iff_eq] at hfree
  simp [OrmpMessageAcceptedRow.eventColumns, OrmpMessageAcceptedRow.core,
    OrmpMessageAcceptedRow.fromEvent, hfree, hid]

/-- A commit keeps the event columns of every accepted row. -/
theorem eventColumns_committed (hok : ∀ e ∈ events, RecoveryStore.adjust postgres.locale db e =
      .ok (adjusted postgres.locale db e)) {id : String} {r : OrmpMessageAcceptedRow}
    (hr : db.ormpMessageAccepted.get id = some r) :
    ∃ r', (committed postgres db events next).ormpMessageAccepted.get id = some r' ∧
      r'.eventColumns postgres.locale = r.eventColumns postgres.locale := by
  have hof : ∀ {s : OrmpMessageAcceptedRow},
      (committed postgres db events next).eventRow (.ormpMessageAccepted, id) =
        some (.ormpMessageAccepted s.core) →
      s.eventColumns postgres.locale = r.eventColumns postgres.locale →
      ∃ r', (committed postgres db events next).ormpMessageAccepted.get id = some r' ∧
        r'.eventColumns postgres.locale = r.eventColumns postgres.locale := by
    intro s hs hcolumns
    obtain ⟨r', hr', hcore⟩ := Option.map_eq_some_iff.mp hs
    refine ⟨r', hr', Eq.trans ?_ hcolumns⟩
    have hcore := LegacyRow.ormpMessageAccepted.inj hcore
    have hhash := congrArg OrmpMessageAcceptedRow.transactionHash hcore
    have hhash : r'.transactionHash = s.transactionHash := hhash
    rw [OrmpMessageAcceptedRow.eventColumns, OrmpMessageAcceptedRow.eventColumns, hcore, hhash]
  have hold : db.eventRow (.ormpMessageAccepted, id) = some (.ormpMessageAccepted r.core) :=
    congrArg (Option.map _) hr
  cases hlast : lastWhere (fun f => place postgres.locale db f == (.ormpMessageAccepted, id))
      events with
  | none =>
      refine hof ?_ rfl
      rw [eventRow_committed, hlast]
      exact hold
  | some e =>
      have he := mem_of_lastWhere hlast
      have hplace : place postgres.locale db e = (.ormpMessageAccepted, id) := by
        simpa using holds_of_lastWhere hlast
      have htable := fst_place postgres.locale db e
      rw [hplace] at htable
      cases e with
      | messageAccepted a =>
          rw [place_messageAccepted (hok _ he)] at hplace
          obtain rfl : a.msgHash = id := (Prod.mk.inj hplace).2
          obtain ⟨a', ha', hcolumns⟩ := eventColumns_adjusted (hok _ he) hr
          refine hof (s := .fromEvent a') ?_ hcolumns
          rw [eventRow_committed, hlast, Option.map_some, ha']
          rfl
      | _ => cases htable

/-- What an assignment is written over is the same assignment. -/
theorem writesOver_adjusted (hevents : TronEvents events) (hids : FreeIds postgres.locale db events)
    (hok : ∀ e ∈ events, RecoveryStore.adjust postgres.locale db e =
      .ok (adjusted postgres.locale db e)) :
    Postgres.WritesOver db (events.map (adjusted postgres.locale db)) := by
  intro a' ha' row hrow
  obtain ⟨e, he, hadjusted⟩ := List.mem_map.mp ha'
  have hplace : place postgres.locale db e = (.ormpMessageAssigned, a'.metadata.id) := by
    rw [place, hadjusted]
    rfl
  have hmessage : messageOf postgres.locale (.messageAssigned a') = messageOf postgres.locale e := by
    rw [← hadjusted, messageOf_adjusted]
  rcases (hevents.event e he).kind with ⟨a, rfl⟩ | ⟨a, rfl⟩ | ⟨m, rfl⟩
  · cases hmessage
  · have hold : db.eventRow (place postgres.locale db (.messageAssigned a)) =
        some (.ormpMessageAssigned row) := by
      rw [hplace]
      exact congrArg (Option.map _) hrow
    have hsame := (messageOf_of_place hevents hok hids he hold).trans hmessage.symm
    have hcolumns := LegacyRow.ormpMessageAssigned.inj hsame
    have hhash := congrArg OrmpMessageAssignedRow.msgHash hcolumns
    have horacle := congrArg OrmpMessageAssignedRow.oracle hcolumns
    have hrelayer := congrArg OrmpMessageAssignedRow.relayer hcolumns
    exact ⟨hhash, horacle, hrelayer⟩
  · cases hmessage

/-- The second commit writes what is there. -/
theorem committed_again (hevents : TronEvents events) (honce : Once postgres.locale events)
    (hids : FreeIds postgres.locale db events)
    (hok : ∀ e ∈ events, RecoveryStore.adjust postgres.locale db e =
      .ok (adjusted postgres.locale db e)) :
    committed postgres (committed postgres db events next) events next =
      committed postgres db events next := by
  have hsame : events.map (adjusted postgres.locale (committed postgres db events next)) =
      events.map (adjusted postgres.locale db) :=
    List.map_congr_left fun e he =>
      adjusted_of_ok (adjust_again next hevents honce hids hok he)
  have htwice : postgres.writeEvents (postgres.writeEvents db _) _ = _ :=
    Postgres.writeEvents_twice (eventKey_adjusted_inj hevents honce hids hok)
      (writesOver_adjusted hevents hids hok)
  rw [committed, hsame]
  set written := postgres.writeEvents db (events.map (adjusted postgres.locale db)) with hwritten
  have hafter : committed postgres db events next = Postgres.withProgress written.blockAnchor
      (written.checkpoint.upsert ⟨CHAIN_ID, DATASET, next⟩) written := rfl
  rw [Postgres.writeEventsAndAdvanceCheckpoint, hafter, postgres.writeEvents_withProgress, htwice]
  -- the checkpoint is there, too
  have hcheckpoint := Table.upsert_of_get
    (Table.get_upsert_self written.checkpoint ⟨CHAIN_ID, DATASET, next⟩)
  exact congrArg (Postgres.withProgress written.blockAnchor · written) hcheckpoint

end

/-- **Commits are conflict-safe and repeatable.** A commit that fails changes nothing. One that succeeds keeps
the event columns of every accepted row, and the same commit again succeeds and changes nothing. -/
theorem commit_conflict_safe (postgres : Postgres) {db : Database} {events : List LegacyOrmPEvent}
    (nextBlock : Nat) (hevents : TronEvents events) (honce : Once postgres.locale events)
    (hids : FreeIds postgres.locale db events) :
    (∀ db' error, Reaches (StoreServes postgres) (db, RecoveryStore.commit events nextBlock)
      (db', .done (.error error)) → db' = db) ∧
    ∀ db', Reaches (StoreServes postgres) (db, RecoveryStore.commit events nextBlock)
        (db', .done (.ok ())) →
      (∀ id r, db.ormpMessageAccepted.get id = some r →
        ∃ r', db'.ormpMessageAccepted.get id = some r' ∧
          r'.eventColumns postgres.locale = r.eventColumns postgres.locale) ∧
      (∀ db'' result, Reaches (Answers postgres) (db', RecoveryStore.commit events nextBlock)
        (db'', .done result) → result = .ok () ∧ db'' = db') ∧
      ∀ db'' result, Reaches (StoreServes postgres) (db', RecoveryStore.commit events nextBlock)
        (db'', .done result) → db'' = db' := by
  refine ⟨fun db' error hfails => ?_, fun db' hcommit => ?_⟩
  · have hwp := (wp_commit_serves nextBlock).reaches hfails
    exact hwp
  obtain ⟨hok, rfl⟩ := commit_eq_ok hcommit
  have hagain : ∀ e ∈ events, RecoveryStore.adjust postgres.locale
      (committed postgres db events nextBlock) e =
        .ok (adjusted postgres.locale (committed postgres db events nextBlock) e) := by
    intro e he
    have h := adjust_again nextBlock hevents honce hids hok he
    rw [adjusted_of_ok h, h]
  have hsame := committed_again nextBlock hevents honce hids hok
  refine ⟨fun id r hr => ?_, fun db'' result hruns => ?_, fun db'' result hruns => ?_⟩
  · exact eventColumns_committed nextBlock hok hr
  · have hwp := (wp_commit_answers nextBlock hagain).reaches hruns
    cases result with
    | ok u => exact ⟨rfl, hwp.trans hsame⟩
    | error error => exact hwp.elim
  · have hwp := (wp_commit_serves nextBlock).reaches hruns
    cases result with
    | ok u => exact hwp.trans hsame
    | error error => exact hwp

/-- The assignment that has been imported is committed twice. -/
theorem commit_conflict_safe_retiredAssignment :
    Reaches (StoreServes Postgres.legacyStore)
      (retiredAssignment, RecoveryStore.commit sampleEvents 87383929)
      (committed Postgres.legacyStore retiredAssignment sampleEvents 87383929, .done (.ok ())) ∧
    ∀ db'' result, Reaches (Answers Postgres.legacyStore)
      (committed Postgres.legacyStore retiredAssignment sampleEvents 87383929,
        RecoveryStore.commit sampleEvents 87383929) (db'', .done result) →
      result = .ok () ∧
        db'' = committed Postgres.legacyStore retiredAssignment sampleEvents 87383929 := by
  have hfirst := reaches_commit Postgres.legacyStore 87383929 adjust_sample_retiredAssignment
  refine ⟨hfirst, ((commit_conflict_safe Postgres.legacyStore 87383929 tronEvents_sample ?_ ?_).2 _
    hfirst).2.1⟩
  · constructor
    · intro a b ha
      simp [sampleEvents] at ha
    · intro a b ha hb _
      have ha : a = sampleAssigned := by simpa [sampleEvents] using ha
      have hb : b = sampleAssigned := by simpa [sampleEvents] using hb
      rw [ha, hb]
  · intro a ha r hr
    have ha : a = sampleAssigned := by simpa [sampleEvents] using ha
    subst ha
    have hnone : retiredAssignment.eventRow (.ormpMessageAssigned, sampleAssigned.metadata.id) =
        none := by decide +kernel
    rw [hnone] at hr
    cases hr

end TronRecovery

end OrmpIndexer
