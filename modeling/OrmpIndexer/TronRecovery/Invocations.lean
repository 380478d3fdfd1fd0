/-
# OrmpIndexer.TronRecovery.Invocations — invocations that exclude each other

The recovery is a command that is run again and again, and two of its runs may overlap. The state they share is
the database and the advisory lock (`World`); a run that stops, at its end or anywhere before, ends its
session and with it the lock. What has been sampled and started is recorded beside it.

A run writes only while it holds the lock (`Obligation`), so what it relies on in the meantime is that the database
stays as it is (`Others`). The invariant is `Inv`: from the first block of the run that created the checkpoint up to
the checkpoint everything is covered, and the checkpoint is no further than one block behind a sampled head.
`relyGuarantee` discharges the obligations of the rule for processes on one state.
-/
import OrmpIndexer.Foundation.Sessions
import OrmpIndexer.TronRecovery.Coverage

namespace OrmpIndexer

open Foundation Foundation.Task

namespace TronRecovery

/-! ## The system -/

structure World where
  db : Database
  /-- The invocation whose session holds the advisory lock. -/
  lock : Option Nat
  /-- The confirmed heads sampled so far. -/
  sampled : List Nat
  /-- The first block of the invocation that created the checkpoint. -/
  origin : Option Nat
  /-- The `--from-block` of the invocations so far, in the order they started. -/
  started : List Nat

/-- The world before the first invocation. -/
def World.initial (db : Database) : World := ⟨db, none, [], none, []⟩

/-- The world after a successful call of an invocation. -/
def World.record (postgres : Postgres) (i : Nat) (w : World) : (op : Op) → Reply op → World
  | .nowBlock, head => { w with sampled := head.toList ++ w.sampled }
  | .tryAdvisoryLock, locked => if locked then { w with lock := some i } else w
  | .insertCheckpoint chainId dataset startBlock, _ =>
      { w with
        db := Postgres.insertCheckpoint w.db chainId dataset startBlock
        origin := if (w.db.checkpoint.get (chainId, dataset)).isSome then w.origin
          else some startBlock }
  | op, _ => { w with db := effect postgres w.db op }

/-- The lock is free, or it is not. -/
def lockAnswers (w : World) : (op : Op) → Reply op → Prop
  | .tryAdvisoryLock, locked => locked = w.lock.isNone
  | _, _ => True

/-- A call of an invocation may fail without effect; a successful one is answered by the chain, the database
and the lock. -/
def Serves (postgres : Postgres) (chain : Chain) (i : Nat) (w : World) (op : Op)
    (r : Except Error (Reply op)) (w' : World) : Prop :=
  match r with
  | .error _ => w' = w
  | .ok a => nodeAnswers chain op a ∧ storeAnswers postgres.locale w.db op a ∧
      lockAnswers w op a ∧ w' = w.record postgres i op a

/-- An invocation starts. -/
def begins (args : Args) (w : World) : World := { w with started := w.started ++ [args.fromBlock] }

/-- An invocation stops, and its session ends. -/
def ends (i : Nat) (w : World) : World := if w.lock = some i then { w with lock := none } else w

/-- An invocation that is not a dry run. -/
def invocation (crates : Crates) (args : Args) : Async Unit :=
  run crates { args with dryRun := false }

/-! ## The invariant and the obligations -/

/-- The recovery's checkpoint. -/
def savedProgress (db : Database) : Option Nat :=
  (db.checkpoint.get (CHAIN_ID, DATASET)).map (·.nextBlock)

/-- No checkpoint is lost or lowered. -/
def NeverLowers (w w' : World) : Prop :=
  ∀ n, savedProgress w.db = some n → ∃ n', savedProgress w'.db = some n' ∧ n ≤ n'

/-- What an invocation relies on. -/
structure Others (i : Nat) (w w' : World) : Prop where
  locked : w.lock = some i → w'.lock = some i ∧ w'.db = w.db ∧ w'.origin = w.origin
  sampled : ∀ head ∈ w.sampled, head ∈ w'.sampled

section

variable (crates : Crates) (chain : Chain) (postgres : Postgres)

structure Inv (w : World) : Prop where
  ownIds : OwnIds crates chain postgres.locale w.db
  progress : ∀ next, savedProgress w.db = some next → ∃ first, w.origin = some first ∧
    first ≤ next ∧ (next ≤ first ∨ ∃ head ∈ w.sampled, next ≤ head + 1) ∧
    Covered crates chain postgres.locale w.db first next

/-- The transaction is that of a range from the checkpoint on. -/
structure CommitsRange (w : World) (adjusted : List LegacyOrmPEvent) (next : Nat) : Prop where
  head : ∃ head ∈ w.sampled, next ≤ head + 1
  range : ∃ cursor events, savedProgress w.db = some cursor ∧ cursor ≤ next ∧
    RangeEvents crates chain cursor next events ∧
    events.mapM (RecoveryStore.adjust postgres.locale w.db) = .ok adjusted

/-- An invocation writes under the lock, to its own checkpoint, and ranges of the chain. -/
def Obligation (i : Nat) (w : World) : Op → Prop
  | .insertCheckpoint chainId dataset _ =>
      w.lock = some i ∧ chainId = CHAIN_ID ∧ dataset = DATASET
  | .writeEventsAndAdvanceCheckpoint adjusted anchors chainId dataset next =>
      w.lock = some i ∧ chainId = CHAIN_ID ∧ dataset = DATASET ∧ anchors = [] ∧
        CommitsRange crates chain postgres w adjusted next
  | _ => True

end

/-! ## One call -/

theorem neverLowers_refl (w : World) : NeverLowers w w := fun n hn => ⟨n, hn, Nat.le_refl n⟩

theorem NeverLowers.trans {w w' w'' : World} (h : NeverLowers w w') (h' : NeverLowers w' w'') :
    NeverLowers w w'' := by
  intro n hn
  obtain ⟨n', hn', hle⟩ := h n hn
  obtain ⟨n'', hn'', hle'⟩ := h' n' hn'
  exact ⟨n'', hn'', hle.trans hle'⟩

theorem others_refl (i : Nat) (w : World) : Others i w w :=
  ⟨fun h => ⟨h, rfl, rfl⟩, fun _ h => h⟩

theorem Others.trans {i : Nat} {w w' w'' : World} (h : Others i w w') (h' : Others i w' w'') :
    Others i w w'' where
  locked hlock := by
    obtain ⟨hlock', hdb, horigin⟩ := h.locked hlock
    obtain ⟨hlock'', hdb', horigin'⟩ := h'.locked hlock'
    exact ⟨hlock'', hdb'.trans hdb, horigin'.trans horigin⟩
  sampled head hhead := h'.sampled head (h.sampled head hhead)

theorem savedProgress_committed (postgres : Postgres) (db : Database)
    (events : List LegacyOrmPEvent) (next : Nat) :
    savedProgress (committed postgres db events next) = some next := by
  rw [savedProgress, committed, Postgres.checkpoint_commit, Table.get_upsert]
  rfl

theorem savedProgress_insertCheckpoint (db : Database) (start : Nat) :
    savedProgress (Postgres.insertCheckpoint db CHAIN_ID DATASET start) =
      some ((savedProgress db).getD start) := by
  rw [savedProgress, Postgres.insertCheckpoint, Table.get_insertIfAbsent, savedProgress]
  cases db.checkpoint.get (CHAIN_ID, DATASET) <;> rfl

theorem eventRow_insertCheckpoint (db : Database) (chainId : Nat) (dataset : String) (start : Nat) :
    (Postgres.insertCheckpoint db chainId dataset start).eventRow = db.eventRow := by
  funext ⟨t, id⟩
  cases t <;> rfl

section

variable {crates : Crates} {chain : Chain} {postgres : Postgres} {i : Nat} {w : World}

/-- The invariant is about the event rows, the checkpoint, its origin and the heads. -/
theorem Inv.congr {w' : World} (h : Inv crates chain postgres w)
    (hrows : w'.db.eventRow = w.db.eventRow) (hprogress : savedProgress w'.db = savedProgress w.db)
    (horigin : w'.origin = w.origin) (hsampled : ∀ head ∈ w.sampled, head ∈ w'.sampled) :
    Inv crates chain postgres w' where
  ownIds := by
    intro n log hlog a ha r hr
    rw [hrows] at hr
    exact h.ownIds n log hlog a ha r hr
  progress next hnext := by
    rw [hprogress] at hnext
    obtain ⟨first, hfirst, hle, hhead, hcovered⟩ := h.progress next hnext
    refine ⟨first, horigin.trans hfirst, hle, ?_, ?_⟩
    · exact hhead.imp_right fun ⟨head, hmem, hle⟩ => ⟨head, hsampled head hmem, hle⟩
    · have hkept : ∀ e, Kept postgres.locale w'.db e = Kept postgres.locale w.db e := by
        intro e
        rw [Kept, Kept, RowsAbout, RowsAbout, hrows]
      intro n hn hnext' log hlog
      obtain ⟨e, he, hcase⟩ := hcovered n hn hnext' log hlog
      exact ⟨e, he, by rw [hkept]; exact hcase⟩

/-- The transaction of a commit keeps the invariant. -/
theorem Inv.committed (h : Inv crates chain postgres w) {adjusted : List LegacyOrmPEvent}
    {next : Nat} (hrange : CommitsRange crates chain postgres w adjusted next) :
    Inv crates chain postgres { w with db :=
      postgres.writeEventsAndAdvanceCheckpoint w.db adjusted [] CHAIN_ID DATASET next } ∧
    NeverLowers w { w with db :=
      postgres.writeEventsAndAdvanceCheckpoint w.db adjusted [] CHAIN_ID DATASET next } := by
  obtain ⟨cursor, events, hcursor, hle, hevents, hadjusted⟩ := hrange.range
  obtain ⟨rfl, hok⟩ := eq_map_adjusted hadjusted
  change Inv crates chain postgres { w with db := TronRecovery.committed postgres w.db events next } ∧
    NeverLowers w { w with db := TronRecovery.committed postgres w.db events next }
  refine ⟨⟨h.ownIds.committed hevents hok, fun n hn => ?_⟩, fun n hn => ?_⟩
  · obtain ⟨first, horigin, hfirst, _, hcovered⟩ := h.progress cursor hcursor
    cases (savedProgress_committed postgres w.db events next).symm.trans hn
    exact ⟨first, horigin, hfirst.trans hle, .inr hrange.head,
      hcovered.committed hevents hok h.ownIds hfirst hle⟩
  · cases hcursor.symm.trans hn
    exact ⟨next, savedProgress_committed postgres w.db events next, hle⟩

/-- So does the creation of the checkpoint. -/
theorem Inv.insertCheckpoint (h : Inv crates chain postgres w) (start : Nat) :
    Inv crates chain postgres
      (w.record postgres i (.insertCheckpoint CHAIN_ID DATASET start) ()) ∧
    NeverLowers w (w.record postgres i (.insertCheckpoint CHAIN_ID DATASET start) ()) := by
  have hsaved := savedProgress_insertCheckpoint w.db start
  cases hprogress : savedProgress w.db with
  | some next =>
      rw [hprogress] at hsaved
      have hsome : (w.db.checkpoint.get (CHAIN_ID, DATASET)).isSome := by
        rw [← Option.isSome_map (f := (·.nextBlock))]
        exact Option.isSome_of_eq_some hprogress
      refine ⟨h.congr (eventRow_insertCheckpoint _ _ _ _) (hsaved.trans hprogress.symm) ?_
        fun _ hhead => hhead, fun n hn => ⟨n, ?_, Nat.le_refl n⟩⟩
      · exact if_pos hsome
      · rw [hprogress] at hn
        cases hn
        exact hsaved
  | none =>
      rw [hprogress, Option.getD_none] at hsaved
      refine ⟨⟨?_, fun n hn => ?_⟩, fun n hn => ?_⟩
      · intro n log hlog a ha r hr
        change (Postgres.insertCheckpoint w.db _ _ _).eventRow _ = _ at hr
        rw [eventRow_insertCheckpoint] at hr
        exact h.ownIds n log hlog a ha r hr
      · cases hsaved.symm.trans hn
        have hnone : ¬(w.db.checkpoint.get (CHAIN_ID, DATASET)).isSome := by
          rw [← Option.isSome_map (f := (·.nextBlock))]
          exact Option.not_isSome_iff_eq_none.mpr hprogress
        -- nothing lies between the first block and the checkpoint
        exact ⟨start, if_neg hnone, Nat.le_refl _, .inl (Nat.le_refl _), fun n hn hn' => by omega⟩
      · rw [hprogress] at hn
        cases hn

theorem record_of_isRead {op : Op} (h : IsRead op) (a : Reply op) : w.record postgres i op a = w := by
  cases op <;> first | rfl | exact h.elim

theorem obligation_of_isRead {op : Op} (h : IsRead op) :
    Obligation crates chain postgres i w op := by
  cases op <;> trivial

/-- What an invocation does is what the others rely on. -/
theorem guarantees_call {w₁ w' : World} {op : Op} {r : Except Error (Reply op)}
    (hop : Obligation crates chain postgres i w op) (hothers : Others i w w₁)
    (hinv : Inv crates chain postgres w₁) (hserves : Serves postgres chain i w₁ op r w') :
    Guarantees (Inv crates chain postgres) Others NeverLowers i w₁ w' := by
  have same : Guarantees (Inv crates chain postgres) Others NeverLowers i w₁ w₁ :=
    ⟨hinv, neverLowers_refl w₁, fun j _ => others_refl j w₁⟩
  cases r with
  | error error =>
      obtain rfl : w' = w₁ := hserves
      exact same
  | ok a =>
      obtain ⟨_, _, hlock, rfl⟩ := hserves
      cases op with
      | nowBlock =>
          have hsampled : ∀ head ∈ w₁.sampled, head ∈ a.toList ++ w₁.sampled :=
            fun head hhead => List.mem_append_right _ hhead
          exact ⟨hinv.congr rfl rfl rfl hsampled, neverLowers_refl w₁,
            fun j _ => ⟨fun h => ⟨h, rfl, rfl⟩, hsampled⟩⟩
      | tryAdvisoryLock =>
          cases a with
          | false => exact same
          | true =>
              have hfree : w₁.lock = none := Option.isNone_iff_eq_none.mp hlock.symm
              refine ⟨hinv.congr rfl rfl rfl fun _ h => h, neverLowers_refl w₁, fun j _ => ?_⟩
              refine ⟨fun h => ?_, fun _ h => h⟩
              rw [hfree] at h
              cases h
      | insertCheckpoint chainId dataset start =>
          obtain ⟨hlocked, rfl, rfl⟩ := hop
          obtain ⟨hlocked, _⟩ := hothers.locked hlocked
          obtain ⟨hinv', hlowers⟩ := hinv.insertCheckpoint (i := i) start
          refine ⟨hinv', hlowers, fun j hj => ⟨fun h => ?_, fun _ h => h⟩⟩
          exact absurd (Option.some.inj (h.symm.trans hlocked)) hj
      | writeEventsAndAdvanceCheckpoint adjusted anchors chainId dataset next =>
          obtain ⟨hlocked, rfl, rfl, rfl, hrange⟩ := hop
          obtain ⟨hlocked, hdb, _⟩ := hothers.locked hlocked
          have hrange : CommitsRange crates chain postgres w₁ adjusted next := by
            obtain ⟨head, hhead, hle⟩ := hrange.head
            refine ⟨⟨head, hothers.sampled head hhead, hle⟩, ?_⟩
            rw [hdb]
            exact hrange.range
          obtain ⟨hinv', hlowers⟩ := hinv.committed hrange
          refine ⟨hinv', hlowers, fun j hj => ⟨fun h => ?_, fun _ h => h⟩⟩
          exact absurd (Option.some.inj (h.symm.trans hlocked)) hj
      | _ => exact same

theorem guarantees_begins (args : Args) (h : Inv crates chain postgres w) :
    Guarantees (Inv crates chain postgres) Others NeverLowers i w (begins args w) :=
  ⟨h.congr rfl rfl rfl fun _ h => h, neverLowers_refl w,
    fun _ _ => ⟨fun h => ⟨h, rfl, rfl⟩, fun _ h => h⟩⟩

theorem guarantees_ends (h : Inv crates chain postgres w) :
    Guarantees (Inv crates chain postgres) Others NeverLowers i w (ends i w) := by
  unfold ends
  split
  · rename_i hlock
    refine ⟨h.congr rfl rfl rfl fun _ h => h, neverLowers_refl w, fun j hj => ?_⟩
    refine ⟨fun h => ?_, fun _ h => h⟩
    exact absurd (Option.some.inj (h.symm.trans hlock)) hj
  · exact ⟨h, neverLowers_refl w, fun j _ => others_refl j w⟩

end

/-! ## One invocation -/

section

variable (crates : Crates) (chain : Chain) (postgres : Postgres) (i : Nat)

/-- What one invocation sees: the others may move before every answer. -/
abbrev Seeing : World → (op : Op) → Except Error (Reply op) → World → Prop :=
  Disturbed (Serves postgres chain) (Inv crates chain postgres) Others i

/-- The invocation holds the lock, has sampled a head, and knows `P` of the database. -/
structure Holding (head : Nat) (P : Database → Prop) (w : World) : Prop where
  lock : w.lock = some i
  head : head ∈ w.sampled
  inv : Inv crates chain postgres w
  db : P w.db

variable {crates chain postgres i} {head : Nat} {P : Database → Prop} {w : World}

theorem Holding.others {w' : World} (h : Holding crates chain postgres i head P w)
    (hothers : Others i w w') (hinv : Inv crates chain postgres w') :
    Holding crates chain postgres i head P w' := by
  obtain ⟨hlock, hdb, _⟩ := hothers.locked h.lock
  exact ⟨hlock, hothers.sampled head h.head, hinv, hdb ▸ h.db⟩

/-- A read under the lock is answered by the chain and by the database that is known. -/
theorem safe_holding {op : Op} (hop : IsRead op) :
    Safe (Seeing crates chain postgres i) (Obligation crates chain postgres i)
      (Holding crates chain postgres i head P) op
      (fun a => nodeAnswers chain op a ∧ ∃ db, P db ∧ storeAnswers postgres.locale db op a) := by
  refine fun w hw => ⟨obligation_of_isRead hop, ?_⟩
  rintro r w' ⟨w₁, hothers, hinv, hserves⟩
  have hw₁ := hw.others hothers hinv
  cases r with
  | error error =>
      obtain rfl : w' = w₁ := hserves
      exact ⟨hw₁, fun _ h => nomatch h⟩
  | ok a =>
      obtain ⟨hnode, hstore, _, rfl⟩ := hserves
      rw [record_of_isRead hop]
      refine ⟨hw₁, fun b hb => ?_⟩
      cases hb
      exact ⟨hnode, w₁.db, hw₁.db, hstore⟩

theorem safe_getBlockByNumber (number : Nat) :
    Safe (Seeing crates chain postgres i) (Obligation crates chain postgres i)
      (Holding crates chain postgres i head P) (.getBlockByNumber number)
      (· = chain.block number) := by
  have h : IsRead (.getBlockByNumber number) := trivial
  exact (safe_holding h).imp fun _ h => h.1

theorem safe_getTransactionByHash (hash : String) :
    Safe (Seeing crates chain postgres i) (Obligation crates chain postgres i)
      (Holding crates chain postgres i head P) (.getTransactionByHash hash)
      (· = chain.transaction hash) := by
  have h : IsRead (.getTransactionByHash hash) := trivial
  exact (safe_holding h).imp fun _ h => h.1

theorem reads_holding (db : Database) :
    RecoveryStore.Reads (Seeing crates chain postgres i) (Obligation crates chain postgres i)
      (Holding crates chain postgres i head (· = db)) postgres.locale db := by
  refine .of_isRead fun op hop w hw => ⟨obligation_of_isRead hop, fun r w' hserves => ?_⟩
  obtain ⟨hw', hknown⟩ := (safe_holding hop w hw).2 r w' hserves
  refine ⟨hw', fun a ha => ?_⟩
  obtain ⟨_, _, rfl, hstore⟩ := hknown a ha
  exact hstore

/-- The transaction of a commit moves the checkpoint to the end of its range. -/
theorem wp_commitRange {cursor next : Nat} {events : List LegacyOrmPEvent}
    {Q : Unit → World → Prop} (hevents : RangeEvents crates chain cursor next events)
    (hcursor : cursor ≤ next) (hnext : next ≤ head + 1)
    (hw : Holding crates chain postgres i head (savedProgress · = some cursor) w)
    (hQ : ∀ w', Holding crates chain postgres i head (savedProgress · = some next) w' → Q () w') :
    Wp (Seeing crates chain postgres i) (Obligation crates chain postgres i) Q (fun _ _ => True)
      (RecoveryStore.commit events next) w := by
  have hsaved : savedProgress w.db = some cursor := hw.db
  refine RecoveryStore.wp_commit (A := Holding crates chain postgres i head (· = w.db))
    (reads_holding w.db) (fun _ _ _ => trivial) ⟨hw.lock, hw.head, hw.inv, rfl⟩ ?_
  intro adjusted w' hw' hadjusted
  have hop : Obligation crates chain postgres i w' (.writeEventsAndAdvanceCheckpoint adjusted []
      CHAIN_ID DATASET next) := by
    have hdb : w'.db = w.db := hw'.db
    refine ⟨hw'.lock, rfl, rfl, rfl, ⟨head, hw'.head, hnext⟩, cursor, events, ?_, hcursor, hevents, ?_⟩
    · rw [hdb, hsaved]
    · rw [hdb, hadjusted]
  refine wp_await.mpr ⟨hop, ?_, fun _ _ _ => trivial⟩
  rintro written w'' ⟨w₁, hothers, hinv, hserves⟩
  have hafter := (guarantees_call hop hothers hinv hserves).1
  have hw₁ := hw'.others hothers hinv
  obtain ⟨_, _, _, rfl⟩ := hserves
  obtain ⟨rfl, _⟩ := eq_map_adjusted hadjusted
  refine hQ _ ⟨hw₁.lock, hw₁.head, hafter, ?_⟩
  have hdb : w₁.db = w.db := hw₁.db
  show savedProgress (postgres.writeEventsAndAdvanceCheckpoint w₁.db _ [] CHAIN_ID DATASET next) = _
  rw [hdb]
  exact savedProgress_committed postgres w.db events next

/-- The loop commits range after range, and ends one block behind the last. -/
theorem wp_recoverRanges {stop batchSize : Nat} (hstop : stop ≤ head) (hmax : stop ≤ u64Max)
    (fuel : Nat) {cursor : Nat} (ranges count : Nat) {Q : Nat × Nat → World → Prop}
    (hcursor : cursor ≤ stop + 1) (hfuel : stop + 1 - cursor ≤ fuel)
    (hw : Holding crates chain postgres i head (savedProgress · = some cursor) w)
    (hQ : ∀ n w', Holding crates chain postgres i head (savedProgress · = some (stop + 1)) w' →
      Q n w') :
    Wp (Seeing crates chain postgres i) (Obligation crates chain postgres i) Q (fun _ _ => True)
      (recoverRanges crates true stop batchSize fuel cursor ranges count) w := by
  induction fuel generalizing cursor ranges count w with
  | zero =>
      have hend : cursor = stop + 1 := by omega
      subst hend
      exact hQ _ w hw
  | succ fuel ih =>
      rw [recoverRanges]
      split
      · rename_i hle
        have hrange : cursor ≤ min (saturatingAdd cursor (batchSize - 1)) stop := by
          unfold saturatingAdd
          exact Nat.le_min.mpr ⟨Nat.le_min.mpr ⟨Nat.le_add_right _ _, hle.trans hmax⟩, hle⟩
        refine wp_bind.mpr (wp_fetchLogs
          (A := Holding crates chain postgres i head (savedProgress · = some cursor))
          (fun _ _ _ => trivial) (fun _ => safe_holding trivial) _ hw hrange ?_)
        rintro logs rangeEnd w' hw' ⟨⟨honly, hall⟩, _⟩ hlength hstart hend
        refine wp_bind.mpr (wp_decodeLogs (B := fun number block => block = chain.block number)
          (T := fun hash tx => tx = chain.transaction hash) (fun _ _ _ => trivial)
          safe_getBlockByNumber safe_getTransactionByHash Seen.valid_empty hw' ?_)
        intro events w'' hw'' hdecoded hpositions _
        have hevents := rangeEvents_of_forall₂ honly (hall hlength) hdecoded hpositions
        refine wp_bind.mpr (wp_ofExcept.mpr ⟨fun next hnext => ?_, fun _ _ => trivial⟩)
        obtain ⟨rfl, _⟩ := checkedAdd_eq_some.mp (contextOption_eq_ok.mp hnext)
        have hend : rangeEnd ≤ stop := hend.trans (Nat.min_le_right _ _)
        refine wp_bind.mpr (wp_commitRange hevents (by omega) (by omega) hw'' fun w₃ hw₃ => ?_)
        exact ih _ _ (by omega) (by omega) hw₃
      · have hend : cursor = stop + 1 := by omega
        subst hend
        exact hQ _ w hw

/-- The part of an invocation behind the lock. -/
theorem wp_executeFrom {args : Args} {stop : Nat} (hstop : stop ≤ head) (hmax : stop ≤ u64Max)
    (hw : Holding crates chain postgres i head (fun _ => True) w) :
    Wp (Seeing crates chain postgres i) (Obligation crates chain postgres i) (fun _ _ => True)
      (fun _ _ => True) (executeFrom crates args true stop) w := by
  have hpreceding : IsRead .precedingMessage := trivial
  rw [executeFrom]
  refine wp_bind.mpr (wp_bind.mpr ((safe_holding hpreceding).wp hw (fun missing w' hw' _ => ?_)
    fun _ _ _ => trivial))
  refine wp_check hw' (fun _ _ _ => trivial) fun _ => ?_
  have hop : Obligation crates chain postgres i w'
      (.insertCheckpoint CHAIN_ID DATASET args.fromBlock) := ⟨hw'.lock, rfl, rfl⟩
  refine wp_bind.mpr (wp_bind.mpr (wp_await.mpr ⟨hop, ?_, fun _ _ _ => trivial⟩))
  rintro created w'' ⟨w₁, hothers, hinv, hserves⟩
  have hafter := (guarantees_call hop hothers hinv hserves).1
  have hw₁ := hw'.others hothers hinv
  obtain ⟨_, _, _, rfl⟩ := hserves
  have hstart : Holding crates chain postgres i head
      (savedProgress · = some ((savedProgress w₁.db).getD args.fromBlock))
      (w₁.record postgres i (.insertCheckpoint CHAIN_ID DATASET args.fromBlock) created) :=
    ⟨hw₁.lock, hw₁.head, hafter, savedProgress_insertCheckpoint _ _⟩
  generalize (savedProgress w₁.db).getD args.fromBlock = start at hstart
  have hselect : IsRead (.selectCheckpoint CHAIN_ID DATASET) := trivial
  refine (safe_holding hselect).wp hstart (fun next w₃ hw₃ hanswer => ?_) fun _ _ _ => trivial
  obtain ⟨_, db, hdb, hget⟩ := hanswer
  obtain rfl : next = start := by
    have hget : db.checkpoint.get (CHAIN_ID, DATASET) = some ⟨CHAIN_ID, DATASET, next⟩ := hget
    rw [savedProgress, hget] at hdb
    exact Option.some.inj hdb
  dsimp only
  split
  · trivial
  · refine wp_bind.mpr (wp_recoverRanges hstop hmax _ 0 0 (by omega) (Nat.le_refl _) hw₃ ?_)
    exact fun _ _ _ => trivial

/-- `checkTables` reads. -/
theorem wp_checkTables {Q : Unit → World → Prop} (tables : List String)
    (hw : Holding crates chain postgres i head P w)
    (hQ : ∀ w', Holding crates chain postgres i head P w' → Q () w') :
    Wp (Seeing crates chain postgres i) (Obligation crates chain postgres i) Q (fun _ _ => True)
      (RecoveryStore.checkTables tables) w := by
  induction tables generalizing w with
  | nil => exact hQ w hw
  | cons table tables ih =>
      have hread : IsRead (.tableExists table) := trivial
      refine wp_bind.mpr ((safe_holding hread).wp hw (fun present w' hw' _ => ?_) fun _ _ _ => trivial)
      exact wp_bind.mpr (wp_check hw' (fun _ _ _ => trivial) fun _ => ih hw')

/-- A session that gets the lock holds it. -/
theorem wp_lock {Q : Bool → World → Prop} (hhead : head ∈ w.sampled)
    (hbusy : ∀ w', Q false w')
    (hQ : ∀ w', Holding crates chain postgres i head (fun _ => True) w' → Q true w') :
    Wp (Seeing crates chain postgres i) (Obligation crates chain postgres i) Q (fun _ _ => True)
      RecoveryStore.lock w := by
  have hop : Obligation crates chain postgres i w .tryAdvisoryLock := trivial
  refine wp_bind.mpr (wp_await.mpr ⟨hop, ?_, fun _ _ _ => trivial⟩)
  rintro locked w' ⟨w₁, hothers, hinv, hserves⟩
  have hafter := (guarantees_call hop hothers hinv hserves).1
  obtain ⟨_, _, _, rfl⟩ := hserves
  cases locked with
  | false => exact hbusy _
  | true =>
      refine wp_bind.mpr (wp_checkTables (P := fun _ => True) _
        ⟨rfl, hothers.sampled head hhead, hafter, trivial⟩ ?_)
      exact hQ

/-- A confirmed head is sampled. -/
theorem wp_confirmedHead {Q : Nat → World → Prop} (hQ : ∀ head w', head ∈ w'.sampled → Q head w') :
    Wp (Seeing crates chain postgres i) (Obligation crates chain postgres i) Q (fun _ _ => True)
      TronRpc.confirmedHead w := by
  refine wp_bind.mpr (wp_await.mpr ⟨trivial, ?_, fun _ _ _ => trivial⟩)
  rintro answer w' ⟨w₁, _, _, _, _, _, rfl⟩
  refine wp_ofExcept.mpr ⟨fun head hhead => hQ head _ ?_, fun _ _ => trivial⟩
  obtain rfl : answer = some head := contextOption_eq_ok.mp hhead
  exact List.mem_cons_self

theorem wp_ensureMainnet {Q : Unit → World → Prop} (hQ : ∀ w', Q () w') :
    Wp (Seeing crates chain postgres i) (Obligation crates chain postgres i) Q (fun _ _ => True)
      TronRpc.ensureMainnet w := by
  refine wp_bind.mpr (wp_await.mpr ⟨trivial, fun answer w' _ => ?_, fun _ _ _ => trivial⟩)
  refine wp_bind.mpr (wp_ofExcept.mpr ⟨fun chain _ => ?_, fun _ _ => trivial⟩)
  refine wp_bind.mpr (wp_ofExcept.mpr ⟨fun id _ => ?_, fun _ _ => trivial⟩)
  exact wp_ofExcept.mpr ⟨fun _ _ => hQ w', fun _ _ => trivial⟩

/-- An invocation meets its obligations. -/
theorem wp_invocation (args : Args) (w : World) :
    Wp (Seeing crates chain postgres i) (Obligation crates chain postgres i) (fun _ _ => True)
      (fun _ _ => True) (invocation crates args) w := by
  have hcheck : ∀ {p : Bool} {message : String} {Q : Unit → World → Prop} {w : World},
      (p = true → Q () w) → Wp (Seeing crates chain postgres i) (Obligation crates chain postgres i)
        Q (fun _ _ => True) (check p message) w :=
    fun hQ => wp_check (A := fun _ => True) trivial (fun _ _ _ => trivial) hQ
  rw [invocation, run, execute]
  refine wp_bind.mpr (hcheck fun _ => wp_bind.mpr (wp_ensureMainnet fun w₁ => ?_))
  refine wp_bind.mpr (wp_confirmedHead fun head w₂ hhead => ?_)
  refine wp_bind.mpr (hcheck fun hmax => wp_bind.mpr (hcheck fun hstop => ?_))
  have hstop := of_decide_eq_true hstop
  have hmax := of_decide_eq_true hmax
  -- the code behind the checks
  have hlock : Wp (Seeing crates chain postgres i) (Obligation crates chain postgres i)
      (fun _ _ => True) (fun _ _ => True) (do
        if ← RecoveryStore.lock then
          executeFrom crates { args with dryRun := false } true (args.toBlock.getD head)
        else return ()) w₂ := by
    refine wp_bind.mpr (wp_lock hhead (fun _ => trivial) fun w₃ hw₃ => ?_)
    exact wp_executeFrom hstop hmax.le hw₃
  cases htoBlock : args.toBlock with
  | none =>
      rw [htoBlock] at hlock
      exact hlock
  | some toBlock =>
      rw [htoBlock] at hlock
      exact wp_bind.mpr (hcheck fun _ => hlock)

end

/-- The proof obligations of the rule. -/
theorem relyGuarantee (crates : Crates) (chain : Chain) (postgres : Postgres) :
    RelyGuarantee (Serves postgres chain) begins ends (invocation crates)
      (Inv crates chain postgres) Others (Obligation crates chain postgres) NeverLowers where
  refl := others_refl
  trans _ _ _ _ h h' := h.trans h'
  start _ args _ h := guarantees_begins args h
  stop _ _ h := guarantees_ends h
  call _ _ _ _ _ _ hop hothers hinv hserves := guarantees_call hop hothers hinv hserves
  process _ args w _ := wp_invocation args (begins args w)

/-- Before the first invocation there is no checkpoint, and nothing to cover. -/
theorem inv_initial {crates : Crates} {chain : Chain} {postgres : Postgres} {db : Database}
    (hids : OwnIds crates chain postgres.locale db) (hnone : savedProgress db = none) :
    Inv crates chain postgres (World.initial db) where
  ownIds := hids
  progress next hnext := by
    have hnext : savedProgress db = some next := hnext
    rw [hnone] at hnext
    cases hnext

end TronRecovery

end OrmpIndexer
