/-
# OrmpIndexer.Runner.History — what a run has stored so far

The checkpoint a world has for a chain (`World.nextBlock`) and the commits in its past (`commits`, the
OLDEST FIRST). A commit does not say which range it commits: the range begins where the log query
before it began, and ends right before the checkpoint it sets.
-/
import OrmpIndexer.Database.Rows
import OrmpIndexer.Runner.Rules

namespace OrmpIndexer

open Foundation

namespace Runner

variable {Env : Type}

/-! ## The checkpoint of a chain -/

/-- The first block of the chain that is not indexed: the stored checkpoint, or `start_block` before
there is one. -/
def nextBlock (chain : ChainConfig) (dataset : String) (db : Database) : Nat :=
  ((db.checkpoint.get (chain.chainId, dataset)).map (·.nextBlock)).getD chain.startBlock

section

variable {chain : ChainConfig} {dataset : String} {postgres : Postgres} {db : Database}

theorem nextBlock_of_get {c : Checkpoint} (h : db.checkpoint.get (chain.chainId, dataset) = some c) :
    nextBlock chain dataset db = c.nextBlock := by
  rw [nextBlock, h]
  rfl

/-- `read_or_create` changes nothing but the missing checkpoint. -/
@[simp]
theorem nextBlock_insert : nextBlock chain dataset
    (Postgres.insertCheckpoint db chain.chainId dataset chain.startBlock) =
      nextBlock chain dataset db := by
  simp only [nextBlock, Postgres.insertCheckpoint, Table.get_insertIfAbsent]
  cases db.checkpoint.get (chain.chainId, dataset) <;> simp [Keyed.key]

@[simp]
theorem nextBlock_commit {events : List LegacyOrmPEvent} {anchors : List BlockAnchor} {next : Nat} :
    nextBlock chain dataset
      (postgres.writeEventsAndAdvanceCheckpoint db events anchors chain.chainId dataset next) =
      next := by
  simp [nextBlock, Postgres.checkpoint_commit, Table.get_upsert, Keyed.key]

@[simp]
theorem nextBlock_rollback {rollbackBlock : Nat} : nextBlock chain dataset
    (postgres.rollbackLegacyFrom db chain.chainId dataset rollbackBlock) = rollbackBlock := by
  simp [nextBlock, Postgres.checkpoint_rollback, Table.get_upsert, Keyed.key]

end

/-! ## Commits -/

/-- A committed range with its events and anchors. -/
structure Commit where
  range : BlockRange
  events : List LegacyOrmPEvent
  anchors : List BlockAnchor

/-- The log query made last. -/
def lastLogQuery : List Call → Option DatalensLogQuery
  | [] => none
  | ⟨.queryLogs query, _⟩ :: _ => some query
  | _ :: past => lastLogQuery past

/-- The log answer received last. -/
def lastLogs : List Call → Option DatalensLogQueryResult
  | [] => none
  | ⟨.queryLogs _, .ok result⟩ :: _ => some result
  | _ :: past => lastLogs past

/-- The block answer received since the last log query. -/
def headersSinceLogs : List Call → Option (DatalensBlockQuery × DatalensBlockQueryResult)
  | [] => none
  | ⟨.queryLogs _, _⟩ :: _ => none
  | ⟨.queryBlocks query, .ok result⟩ :: _ => some (query, result)
  | _ :: past => headersSinceLogs past

/-- The commit a call is, if it is one and succeeded. -/
def commitOf (call : Call) (past : List Call) : Option Commit :=
  match call with
  | ⟨.writeEventsAndAdvanceCheckpoint events anchors _ _ nextBlock, .ok _⟩ =>
      (lastLogQuery past).map fun query =>
        { range := { fromBlock := query.fromBlock, toBlock := nextBlock - 1 }, events, anchors }
  | _ => none

def commits : List Call → List Commit
  | [] => []
  | call :: past => commits past ++ (commitOf call past).toList

/-- The events committed, in the order they were written. -/
def writtenEvents (commits : List Commit) : List LegacyOrmPEvent :=
  commits.flatMap (·.events)

theorem commitOf_quiet {call : Call} (h : call.Quiet) (past : List Call) :
    commitOf call past = none := by
  obtain ⟨op, r⟩ := call
  rcases h with h | ⟨e, h⟩
  · cases op <;> first | rfl | exact h.elim
  · cases r with
    | ok a => cases h
    | error e => cases op <;> rfl

theorem commits_append_quiet {new past : List Call} (h : ∀ c ∈ new, c.Quiet) :
    commits (new ++ past) = commits past := by
  induction new with
  | nil => rfl
  | cons call new ih =>
      rw [List.cons_append, commits, commitOf_quiet (h call List.mem_cons_self),
        ih fun c hc => h c (List.mem_cons_of_mem _ hc)]
      exact List.append_nil _

/-- Between two commits there is none. -/
theorem commits_quiet {w w' : World Env} (h : Extends Call.Quiet w w') :
    commits w'.past = commits w.past := by
  obtain ⟨new, hnew, hquiet⟩ := h.past
  rw [hnew, commits_append_quiet hquiet]

/-- Calls that are no log queries. -/
def Call.NoLogQuery (c : Call) : Prop := ∀ query, c.op ≠ .queryLogs query

theorem lastLogQuery_append {new past : List Call} (h : ∀ c ∈ new, c.NoLogQuery) :
    lastLogQuery (new ++ past) = lastLogQuery past := by
  induction new with
  | nil => rfl
  | cons call new ih =>
      rw [← ih fun c hc => h c (List.mem_cons_of_mem _ hc), List.cons_append]
      obtain ⟨op, r⟩ := call
      cases op with
      | queryLogs query => exact absurd rfl (h _ List.mem_cons_self query)
      | _ => rfl

section

variable {ix : Indexer} {allowed : Answers Env} {chain : ChainConfig} {dataset : String}
variable {range : BlockRange} {w w' : World Env} {result : DatalensLogQueryResult} {servedEnd : Nat}
variable {events : List LegacyOrmPEvent} {anchors : List BlockAnchor}

theorem AnchorsFor.noLogQuery {logs : List DatalensLog}
    (h : AnchorsFor ix allowed chain dataset range logs w anchors w') :
    Extends Call.NoLogQuery w w' := by
  have head : ∀ r, Extends Call.NoLogQuery w
      (w.record ix.postgres (.finalizedHead chain.chainId) r) := fun r =>
    extends_record_read (show IsRead (.finalizedHead _) from trivial) (by simp [Call.NoLogQuery])
  cases h with
  | fromLogs => exact .refl w
  | allFinal => exact head _
  | fromHeaders =>
      exact (head _).trans (extends_record_read (show IsRead (.queryBlocks _) from trivial)
        (by simp [Call.NoLogQuery]))

/-- At its commit, the range is the one the logs were queried for. -/
theorem CommitsAt.lastLogQuery
    (h : CommitsAt ix allowed chain dataset range w result servedEnd events anchors w') :
    lastLogQuery w'.past = some (logQuery chain range) := by
  obtain ⟨w₁, hdecode, hanchors⟩ := h.anchored
  have rest : Extends Call.NoLogQuery
      (w.record ix.postgres (.queryLogs (logQuery chain range)) (.ok result)) w' := by
    refine (hdecode.imp ?_).trans hanchors.noLogQuery
    rintro c ⟨log, hlog⟩ query
    rw [hlog]
    simp
  obtain ⟨new, hnew, hno⟩ := rest.past
  rw [hnew, lastLogQuery_append hno]
  rfl

/-- The commit of a range, as it stands in the history. -/
def Commit.ofRange (range : BlockRange) (servedEnd : Nat) (events : List LegacyOrmPEvent)
    (anchors : List BlockAnchor) : Commit where
  range := servedTo range servedEnd
  events := events
  anchors := anchors

theorem CommitsAt.commits_record
    (h : CommitsAt ix allowed chain dataset range w result servedEnd events anchors w')
    (written : Nat) :
    commits (w'.record ix.postgres (commitOp chain dataset range servedEnd events anchors)
      (.ok written)).past = commits w.past ++ [.ofRange range servedEnd events anchors] := by
  show commits w'.past ++ (commitOf ⟨commitOp chain dataset range servedEnd events anchors,
    .ok written⟩ w'.past).toList = _
  rw [commits_quiet h.quiet]
  refine congrArg (commits w.past ++ ·) ?_
  simp only [commitOf, commitOp, h.lastLogQuery]
  rfl

end

end Runner

end OrmpIndexer
