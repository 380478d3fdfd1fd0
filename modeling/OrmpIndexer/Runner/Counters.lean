/-
# OrmpIndexer.Runner.Counters — the metrics tell what was done

The counters of a scope are changed in many places of a pass. `counted` says what each of them counts, in terms
of the calls of the chain and their answers alone: so many committed ranges, so many events in them, so many
requests that failed. `tally` adds it up over all calls since the process began.

Wherever the loop of a chain awaits a call, the counters of its scope are these sums, up to `u64::MAX`
(`counters_tell`), whatever is answered and in whatever order the loops of the chains take turns. Between a
call and the next one the counters are behind: `Owes` says by how much, every `record_` pays a part of it, and
nothing is owed when the next call is made.
-/
import OrmpIndexer.Runner.Metered

namespace OrmpIndexer

open Foundation Foundation.Task Metrics

namespace Runner

/-! ## What the counters count -/

/-- The answered calls of a chain that are counted. -/
def ofChain (chainId : Nat) (call : Call) : Bool :=
  match call.op with
  | .queryLogs query => query.chainId == chainId
  | .queryBlocks query => query.chainId == chainId
  | .rollbackLegacyFrom c _ _ => c == chainId
  | .writeEventsAndAdvanceCheckpoint _ _ c _ _ => c == chainId
  | _ => false

/-- An incomplete answer is counted if it is warned about, under its reason. -/
def warned : Option IncompleteReason → Counter → Nat
  | some .providerError, .incompleteServes reason => if "provider_error" = reason then 1 else 0
  | some .budgetExhausted, .incompleteServes reason => if "budget_exhausted" = reason then 1 else 0
  | _, _ => 0

theorem warned_of_ne {c : Counter} (h : ∀ reason, c ≠ .incompleteServes reason)
    (reason : Option IncompleteReason) : warned reason c = 0 := by
  unfold warned
  split
  · exact absurd rfl (h _)
  · exact absurd rfl (h _)
  · rfl

/-- What an answered call counts for, given the counted calls of the chain before it. -/
def counted : Call → List Call → Counter → Nat
  | ⟨.queryLogs _, .ok _⟩, _, .logRequestsSuccess => 1
  | ⟨.queryLogs _, .error _⟩, _, .logRequestsFailure => 1
  | ⟨.queryLogs _, .error _⟩, _, .rangesFailure => 1
  | ⟨.queryLogs query, .ok result⟩, _, .incompleteServes reason =>
      -- a window that does not begin where it should is an error before it is a warning
      if result.servedEnd = none ∨ result.servedStart = some query.fromBlock then
        warned result.incompleteReason (.incompleteServes reason)
      else 0
  | ⟨.queryBlocks _, .ok _⟩, _, .blockRequestsSuccess => 1
  | ⟨.queryBlocks _, .error _⟩, _, .blockRequestsFailure => 1
  | ⟨.queryBlocks query, .ok result⟩, _, .incompleteServes reason =>
      if result.covers query.fromBlock query.toBlock then 0
      else warned result.incompleteReason (.incompleteServes reason)
  | ⟨.rollbackLegacyFrom .., .ok _⟩, _, .reorgRollbacks => 1
  | ⟨.writeEventsAndAdvanceCheckpoint .., .ok _⟩, _, .rangesSuccess => 1
  | ⟨.writeEventsAndAdvanceCheckpoint .., .ok _⟩, _, .batchDurationCount => 1
  | ⟨.writeEventsAndAdvanceCheckpoint events .., .ok _⟩, _, .recordsDecoded => events.length
  | ⟨.writeEventsAndAdvanceCheckpoint .., .ok written⟩, _, .recordsWritten => written
  | ⟨.writeEventsAndAdvanceCheckpoint .., .ok _⟩, past, .recordsRead =>
      ((lastLogs past).map (·.logs.length)).getD 0
  | ⟨.writeEventsAndAdvanceCheckpoint _ _ _ _ nextBlock, .ok _⟩, past, .blocksProcessed =>
      ((lastLogQuery past).map fun query => saturatingAdd (nextBlock - 1 - query.fromBlock) 1).getD 0
  | _, _, _ => 0

/-- The sums over all calls of a chain. -/
def tally : List Call → Counter → Nat
  | [], _ => 0
  | answered :: past, c => tally past c + counted answered past c

/-- All counters but those of the passes. -/
def aboutCalls : Counter → Bool
  | .chainPassSuccess | .chainPassFailure => false
  | _ => true

/-! ## The calls that were answered, and the metrics -/

section

variable {Time : Type} [Zero Time]

/-- Any call may be answered by anything. -/
def AnyReply (past : List Call) (op : Op) (r : Except Error (Reply op)) (past' : List Call) : Prop :=
  past' = ⟨op, r⟩ :: past

/-- The calls since the process began, the LATEST FIRST, and the metrics. -/
abbrev Watched (Time : Type) := List Call × MetricsState Time

/-- The counted calls of a chain. -/
def pastOf (chainId : Nat) (s : Watched Time) : List Call := s.1.filter (ofChain chainId)

/-- The counters are behind the calls by so much. -/
structure Owes (chainId : Nat) (past : List Call) (t : Counter → Nat) (s : Watched Time) : Prop where
  calls : pastOf chainId s = past
  owes : ∀ c, aboutCalls c = true →
    min (total s.2 chainId EVM_LOGS_DATASET c + t c) u64Max = min (tally past c) u64Max
  bound : ∀ c, total s.2 chainId EVM_LOGS_DATASET c ≤ u64Max

/-- Nothing is owed. -/
def Even (chainId : Nat) (s : Watched Time) : Prop := ∃ past, Owes chainId past (fun _ => 0) s

/-- Incomplete answers are reported under one of two reasons. -/
def Known : Note → Prop
  | .incompleteServe reason => reason = "provider_error" ∨ reason = "budget_exhausted"
  | _ => True

/-- The call or the aside is about this chain, if it is about one. -/
def Own (chainId : Nat) : Op ⊕ Aside → Prop
  | .inl op => (∀ c r, ofChain c ⟨op, r⟩ = false) ∨ ∀ c r, ofChain c ⟨op, r⟩ = (chainId == c)
  | .inr (.record c dataset note) => c = chainId ∧ dataset = EVM_LOGS_DATASET ∧ Known note
  | .inr (.sleep _) => True

/-- At a call nothing is owed. -/
def EvenAtCalls (chainId : Nat) (s : Watched Time) (op : Op ⊕ Aside) : Prop :=
  Own chainId op ∧ (op.isLeft = true → Even chainId s)

variable {chainId : Nat} {past : List Call} {t : Counter → Nat} {s s' : Watched Time}

theorem Even.shown (h : Even chainId s) {c : Counter} (hc : aboutCalls c = true) :
    total s.2 chainId EVM_LOGS_DATASET c = min (tally (pastOf chainId s) c) u64Max := by
  obtain ⟨past, howes⟩ := h
  have hsum := howes.owes c hc
  rw [Nat.add_zero, min_eq_left (howes.bound c)] at hsum
  rw [howes.calls]
  exact hsum

/-- What is owed is what was not counted yet. -/
theorem Owes.congr (h : Owes chainId past t s) {t' : Counter → Nat} (ht : ∀ c, t c = t' c) :
    Owes chainId past t' s := by
  obtain rfl : t = t' := funext ht
  exact h

/-- A counted call. -/
theorem Owes.call (h : Owes chainId past (fun _ => 0) s) {op : Op} {r : Except Error (Reply op)}
    (hown : ofChain chainId ⟨op, r⟩ = true) :
    Owes chainId (⟨op, r⟩ :: past) (counted ⟨op, r⟩ past) (⟨op, r⟩ :: s.1, s.2) where
  calls := by
    rw [pastOf, List.filter_cons_of_pos hown]
    exact congrArg _ h.calls
  owes c hc := by
    have hsum := h.owes c hc
    have hbound := h.bound c
    rw [Nat.add_zero, min_eq_left hbound] at hsum
    show min (total s.2 chainId EVM_LOGS_DATASET c + _) u64Max = min (tally past c + _) u64Max
    rw [hsum]
    omega
  bound := h.bound

/-- A call that is not counted. -/
theorem Owes.skip (h : Owes chainId past t s) {op : Op} {r : Except Error (Reply op)}
    (hother : ofChain chainId ⟨op, r⟩ = false) : Owes chainId past t (⟨op, r⟩ :: s.1, s.2) where
  calls := by
    rw [pastOf, List.filter_cons_of_neg (by rw [hother]; exact Bool.false_ne_true)]
    exact h.calls
  owes := h.owes
  bound := h.bound

variable [Add Time]

/-- What the asides of the runner do to the metrics; what the clocks show is open. -/
def Records : Aside → MetricsState Time → MetricsState Time → Prop
  | .record chainId dataset note, m, m' =>
      ∃ now duration, m' = Metrics.record now duration chainId dataset note m
  | .sleep _, m, m' => m' = m

/-- A note pays what it adds. -/
theorem Owes.note {note : Note} (h : Owes chainId past t s) {t' : Counter → Nat}
    (ht : ∀ c, aboutCalls c = true → t c = note.adds c + t' c) (now duration : Time) :
    Owes chainId past t' (s.1, Metrics.record now duration chainId EVM_LOGS_DATASET note s.2) := by
  have hshown : ∀ c, total (Metrics.record now duration chainId EVM_LOGS_DATASET note s.2) chainId
      EVM_LOGS_DATASET c =
        min (total s.2 chainId EVM_LOGS_DATASET c + note.adds c) u64Max := fun c => by
    rw [total, scopeRow_record, if_pos rfl]
    exact shown_recordNote h.bound note c
  refine ⟨h.calls, fun c hc => ?_, fun c => ?_⟩
  · have hsum := h.owes c hc
    rw [ht c hc] at hsum
    rw [hshown]
    omega
  · rw [hshown]
    exact min_le_right _ _

/-! ## Rules -/

section

variable {α β : Type} {Q : α → Watched Time → Prop} {E : Error → Watched Time → Prop}

/-- The rule of a counted call. -/
theorem wp_counted {op : Op} {f : Except Error (Reply op) → Metered α}
    (hown : ∀ c r, ofChain c ⟨op, r⟩ = (chainId == c)) (h : Owes chainId past (fun _ => 0) s)
    (hnext : ∀ r s', Owes chainId (⟨op, r⟩ :: past) (counted ⟨op, r⟩ past) s' →
      Wp (Observed AnyReply Records) (EvenAtCalls chainId) Q E (f r) s') :
    Wp (Observed AnyReply Records) (EvenAtCalls chainId) Q E
      ((await op).attempt.lift >>= f) s := by
  refine ⟨⟨.inr hown, fun _ => ⟨past, h⟩⟩, fun r s' hs => hnext r s' ?_⟩
  obtain ⟨hanswered, hmetrics⟩ := hs
  obtain rfl : s' = (⟨op, r⟩ :: s.1, s.2) := Prod.ext hanswered hmetrics
  exact h.call ((hown chainId r).trans (beq_self_eq_true _))

/-- The rule of a call of `crate::metrics`. -/
theorem wp_record {note : Note} {f : Unit → Metered α} (hknown : Known note) (t' : Counter → Nat)
    (h : Owes chainId past t s) (ht : ∀ c, aboutCalls c = true → t c = note.adds c + t' c)
    (hnext : ∀ s', Owes chainId past t' s' →
      Wp (Observed AnyReply Records) (EvenAtCalls chainId) Q E (f ()) s') :
    Wp (Observed AnyReply Records) (EvenAtCalls chainId) Q E
      (Metered.record chainId EVM_LOGS_DATASET note >>= f) s := by
  refine ⟨⟨⟨rfl, rfl, hknown⟩, by rintro ⟨⟩⟩, fun r s' hs => ?_⟩
  obtain ⟨rfl, hcalls, now, duration, hmetrics⟩ := hs
  obtain rfl : s' = (s.1, Metrics.record now duration chainId EVM_LOGS_DATASET note s.2) :=
    Prod.ext hcalls hmetrics
  exact hnext _ (h.note ht now duration)

/-- The rule of calls that are not counted. -/
theorem wp_uncounted {u : Async β} {f : β → Metered α}
    (hcalls : Calls (fun op => ∀ c r, ofChain c ⟨op, r⟩ = false) u)
    (h : Owes chainId past (fun _ => 0) s)
    (hnext : ∀ b s', Owes chainId past (fun _ => 0) s' →
      Wp (Observed AnyReply Records) (EvenAtCalls chainId) Q E (f b) s')
    (hfail : ∀ e s', Owes chainId past (fun _ => 0) s' → E e s') :
    Wp (Observed AnyReply Records) (EvenAtCalls chainId) Q E (u.lift >>= f) s := by
  induction u generalizing s with
  | done r =>
      cases r with
      | ok b => exact hnext b s h
      | error e => exact hfail e s h
  | call op next ih =>
      refine ⟨⟨.inl hcalls.1, fun _ => ⟨past, h⟩⟩, fun r s' hs => ih r (hcalls.2 r) ?_⟩
      obtain ⟨hanswered, hmetrics⟩ := hs
      obtain rfl : s' = (⟨op, r⟩ :: s.1, s.2) := Prod.ext hanswered hmetrics
      exact h.skip (hcalls.1 chainId r)

/-- The rule of `warn_stuck_incomplete`. -/
theorem wp_warnStuckIncomplete {reason : Option IncompleteReason} {f : Unit → Metered α}
    (h : Owes chainId past t s) (ht : ∀ c, aboutCalls c = true → t c = warned reason c)
    (hnext : ∀ s', Owes chainId past (fun _ => 0) s' →
      Wp (Observed AnyReply Records) (EvenAtCalls chainId) Q E (f ()) s') :
    Wp (Observed AnyReply Records) (EvenAtCalls chainId) Q E
      (Metered.warnStuckIncomplete chainId EVM_LOGS_DATASET reason >>= f) s := by
  have nothing : (∀ c, warned reason c = 0) → Owes chainId past (fun _ => 0) s := fun hnone =>
    ⟨h.calls, fun c hc => by rw [← h.owes c hc, ht c hc, hnone], h.bound⟩
  cases reason with
  | none => exact hnext s (nothing fun c => by cases c <;> rfl)
  | some reason =>
      cases reason with
      | pending | notFollowedYet => exact hnext s (nothing fun c => by cases c <;> rfl)
      | providerError =>
          refine wp_record (.inl rfl) (fun _ => 0) h (fun c hc => (ht c hc).trans ?_) hnext
          cases c <;> rfl
      | budgetExhausted =>
          refine wp_record (.inr rfl) (fun _ => 0) h (fun c hc => (ht c hc).trans ?_) hnext
          cases c <;> rfl

/-- A call whose failure counts for nothing. -/
theorem wp_counted_context {op : Op} {message : String} {f : Reply op → Metered α}
    (hown : ∀ c r, ofChain c ⟨op, r⟩ = (chainId == c)) (h : Owes chainId past (fun _ => 0) s)
    (hnext : ∀ a s', Owes chainId (⟨op, .ok a⟩ :: past) (counted ⟨op, .ok a⟩ past) s' →
      Wp (Observed AnyReply Records) (EvenAtCalls chainId) Q E (f a) s')
    (hfail : ∀ e s', Owes chainId (⟨op, .error e⟩ :: past) (counted ⟨op, .error e⟩ past) s' →
      E (message :: e) s') :
    Wp (Observed AnyReply Records) (EvenAtCalls chainId) Q E
      ((withContext message (await op)).lift >>= f) s := by
  refine ⟨⟨.inr hown, fun _ => ⟨past, h⟩⟩, fun r s' hs => ?_⟩
  obtain ⟨hanswered, hmetrics⟩ := hs
  obtain rfl : s' = (⟨op, r⟩ :: s.1, s.2) := Prod.ext hanswered hmetrics
  have howes := h.call ((hown chainId r).trans (beq_self_eq_true _))
  cases r with
  | ok a => exact hnext a _ howes
  | error e => exact hfail e _ howes

/-- The answer to a block query is counted at once; the warning is owed. -/
theorem wp_queryBlocks {message : String} {query : DatalensBlockQuery}
    {f : DatalensBlockQueryResult → Metered α} (hchain : query.chainId = chainId)
    (h : Owes chainId past (fun _ => 0) s)
    (hnext : ∀ blocks s', Owes chainId (⟨.queryBlocks query, .ok blocks⟩ :: past)
      (fun c => if blocks.covers query.fromBlock query.toBlock then 0
        else warned blocks.incompleteReason c) s' →
      Wp (Observed AnyReply Records) (EvenAtCalls chainId) Q (fun _ => Even chainId) (f blocks) s') :
    Wp (Observed AnyReply Records) (EvenAtCalls chainId) Q (fun _ => Even chainId)
      (Metered.queryBlocks chainId EVM_LOGS_DATASET message query >>= f) s := by
  refine wp_bind.mpr (wp_counted (fun c r => by rw [← hchain]; rfl) h fun r s₁ h₁ => ?_)
  cases r with
  | ok blocks =>
      refine wp_record trivial _ h₁ (fun c _ => ?_) fun s₂ h₂ => hnext blocks s₂ h₂
      cases c with
      | incompleteServes reason => exact (Nat.zero_add _).symm
      | _ =>
          rw [warned_of_ne (by rintro _ ⟨⟩), ite_self]
          rfl
  | error e =>
      refine wp_record trivial (fun _ => 0) h₁ (fun c _ => ?_) fun s₂ h₂ => ⟨_, h₂⟩
      cases c <;> rfl

end

/-! ## A pass -/

section

variable {config : RuntimeConfig} {chain : ChainConfig} {range : BlockRange}

omit [Add Time] in
theorem Owes.even (h : Owes chainId past t s) (ht : ∀ c, aboutCalls c = true → t c = 0) :
    Even chainId s :=
  ⟨past, h.calls, fun c hc => by rw [← h.owes c hc, ht c hc], h.bound⟩

theorem wp_meteredRollback {checkpointNextBlock : Nat} (h : Owes chain.chainId past (fun _ => 0) s) :
    Wp (Observed AnyReply Records) (EvenAtCalls chain.chainId) (fun _ => Even chain.chainId)
      (fun _ => Even chain.chainId)
      (Metered.rollbackReorgedAnchors config chain EVM_LOGS_DATASET checkpointNextBlock) s := by
  unfold Metered.rollbackReorgedAnchors
  cases checkedSub checkpointNextBlock 1 with
  | none => exact ⟨past, h⟩
  | some toBlock => ?_
  refine wp_uncounted (calls_withContext fun _ _ => rfl) h (fun finalized s₁ h₁ => ?_)
    fun _ _ h' => ⟨_, h'⟩
  dsimp only
  split
  · exact ⟨_, h₁⟩
  refine wp_uncounted (calls_withContext fun _ _ => rfl) h₁ (fun anchors s₂ h₂ => ?_)
    fun _ _ h' => ⟨_, h'⟩
  refine wp_queryBlocks rfl h₂ fun blocks s₃ h₃ => ?_
  split
  · rename_i hcovers
    refine wp_warnStuckIncomplete h₃ (fun c _ => ?_) fun s₄ h₄ => ⟨_, h₄⟩
    rw [if_neg (by simpa using hcovers)]
  · rename_i hcovers
    have h₃ := h₃.congr fun c => if_pos (by simpa using hcovers)
    split
    · exact ⟨_, h₃⟩
    · refine wp_counted_context (fun _ _ => rfl) h₃ (fun _ s₄ h₄ => ?_)
        fun _ _ h' => h'.even fun c _ => by cases c <;> rfl
      refine wp_record trivial (fun _ => 0) h₄ (fun c _ => ?_) fun s₅ h₅ => ⟨_, h₅⟩
      cases c <;> rfl

theorem wp_meteredAnchors {logs : List DatalensLog} (h : Owes chain.chainId past (fun _ => 0) s) :
    Wp (Observed AnyReply Records) (EvenAtCalls chain.chainId)
      (fun _ s' => ∃ past', Owes chain.chainId past' (fun _ => 0) s' ∧
        lastLogQuery past' = lastLogQuery past ∧ lastLogs past' = lastLogs past)
      (fun _ => Even chain.chainId)
      (Metered.blockAnchorsForRange chain EVM_LOGS_DATASET range logs) s := by
  unfold Metered.blockAnchorsForRange
  split
  · exact ⟨past, h, rfl, rfl⟩
  refine wp_uncounted (calls_withContext fun _ _ => rfl) h (fun finalized s₁ h₁ => ?_)
    fun _ _ h' => ⟨_, h'⟩
  dsimp only
  split
  · exact ⟨past, h₁, rfl, rfl⟩
  refine wp_queryBlocks rfl h₁ fun blocks s₂ h₂ => ?_
  split
  · rename_i hcovers
    refine wp_warnStuckIncomplete h₂ (fun c _ => ?_) fun s₃ h₃ => ⟨_, h₃, rfl, rfl⟩
    rw [if_neg (by simpa using hcovers)]
  · rename_i hcovers
    have h₂ := h₂.congr fun c => if_pos (by simpa using hcovers)
    exact wp_bind.mpr (wp_ofExcept.mpr ⟨fun anchors _ => ⟨_, h₂, rfl, rfl⟩, fun _ _ => ⟨_, h₂⟩⟩)

theorem wp_meteredSuccessfulRange {targetBlock : Nat} {result : DatalensLogQueryResult}
    (h : Owes chain.chainId (⟨.queryLogs (logQuery chain range), .ok result⟩ :: past)
      (fun c => if result.servedEnd = none ∨ result.servedStart = some range.fromBlock then
        warned result.incompleteReason c else 0) s) :
    Wp (Observed AnyReply Records) (EvenAtCalls chain.chainId) (fun _ => Even chain.chainId)
      (fun _ => Even chain.chainId)
      (Metered.processSuccessfulRange chain EVM_LOGS_DATASET range targetBlock result) s := by
  unfold Metered.processSuccessfulRange
  cases hend : result.servedEnd with
  | none =>
      refine wp_warnStuckIncomplete h (fun c _ => ?_) fun s' h' => ⟨_, h'⟩
      exact if_pos (.inl hend)
  | some servedEnd => ?_
  -- without the right start it is an error, and nothing is owed
  have hopen : result.servedStart ≠ some range.fromBlock → Even chain.chainId s := fun hne =>
    h.even fun c _ => if_neg (by rw [hend]; simpa using hne)
  refine wp_bind.mpr (wp_ofExcept.mpr ⟨fun servedStart hstart => ?_, fun e he => hopen ?_⟩)
  · rw [contextOption_eq_ok] at hstart
    split
    · rename_i hne
      exact hopen (by rw [hstart]; simpa using hne)
    rename_i hfrom
    obtain rfl : servedStart = range.fromBlock := not_not.mp hfrom
    refine wp_warnStuckIncomplete h (fun c _ => if_pos (.inr hstart)) fun s₁ h₁ => ?_
    refine wp_uncounted (calls_decodeLogs (fun _ _ _ => rfl) _) h₁ (fun events s₂ h₂ => ?_)
      fun _ _ h' => ⟨_, h'⟩
    refine wp_bind.mpr (wp_ofExcept.mpr ⟨fun nextBlock hnext => ?_, fun _ _ => ⟨_, h₂⟩⟩)
    obtain ⟨rfl, _⟩ := checkedAdd_eq_some.mp (contextOption_eq_ok.mp hnext)
    refine wp_bind.mpr ((wp_meteredAnchors h₂).imp (fun anchors s₃ hanchors => ?_) fun _ _ he => he)
    obtain ⟨past', h₃, hquery, hlogs⟩ := hanchors
    cases anchors with
    | none => exact ⟨_, h₃⟩
    | some anchors =>
        refine wp_counted_context (fun _ _ => rfl) h₃ (fun written s₄ h₄ => ?_)
          fun _ _ h' => h'.even fun c _ => by cases c <;> rfl
        refine wp_record trivial (fun _ => 0) h₄ (fun c _ => ?_) fun s₅ h₅ => ⟨_, h₅⟩
        cases c with
        | blocksProcessed =>
            simp only [counted, hquery]
            rfl
        | recordsRead =>
            simp only [counted, hlogs]
            rfl
        | _ => rfl
  · rintro hstart
    rw [hstart] at he
    cases he

theorem wp_meteredRange {targetBlock : Nat} (h : Even chain.chainId s) :
    Wp (Observed AnyReply Records) (EvenAtCalls chain.chainId) (fun _ => Even chain.chainId)
      (fun _ => Even chain.chainId)
      (Metered.processRange chain EVM_LOGS_DATASET range targetBlock) s := by
  obtain ⟨past, h⟩ := h
  refine ⟨⟨.inr fun _ _ => rfl, fun _ => ⟨past, h⟩⟩, fun r s' hs => ?_⟩
  obtain ⟨hanswered, hmetrics⟩ := hs
  obtain rfl : s' = (⟨.queryLogs (logQuery chain range), r⟩ :: s.1, s.2) :=
    Prod.ext hanswered hmetrics
  have hown : ofChain chain.chainId ⟨.queryLogs (logQuery chain range), r⟩ = true :=
    beq_self_eq_true _
  cases r with
  | ok result =>
      refine wp_record trivial _ (h.call hown) (fun c _ => ?_) fun s₂ h₂ => wp_meteredSuccessfulRange h₂
      cases c with
      | incompleteServes reason => exact (Nat.zero_add _).symm
      | _ =>
          rw [warned_of_ne (by rintro _ ⟨⟩), ite_self]
          rfl
  | error e =>
      -- the failed request, and then the failed range
      refine wp_record trivial (fun c => Note.rangeFailure.adds c) (h.call hown) (fun c _ => ?_)
        fun s₂ h₂ => ?_
      · cases c <;> rfl
      · exact wp_record trivial (fun _ => 0) h₂ (fun c _ => (Nat.add_zero _).symm) fun s₃ h₃ => ⟨_, h₃⟩

theorem wp_meteredRanges {targetBlock fuel : Nat} {checkpoint : Checkpoint} {report : ChainRunReport}
    {stopPoll : Bool} (h : Even chain.chainId s) :
    Wp (Observed AnyReply Records) (EvenAtCalls chain.chainId) (fun _ => Even chain.chainId)
      (fun _ => Even chain.chainId)
      (Metered.runRanges chain EVM_LOGS_DATASET targetBlock fuel checkpoint report stopPoll) s := by
  induction fuel generalizing checkpoint report stopPoll s with
  | zero => exact h
  | succ fuel ih =>
      unfold Metered.runRanges
      split
      · refine wp_bind.mpr (wp_ofExcept.mpr ⟨fun planned _ => ?_, fun _ _ => h⟩)
        exact wp_bind.mpr ((wp_meteredRange h).imp (fun _ _ h' => ih h') fun _ _ he => he)
      · exact h

/-- What a pass reports is what it has done. -/
theorem wp_meteredPass (h : Even chain.chainId s) :
    Wp (Observed AnyReply Records) (EvenAtCalls chain.chainId) (fun _ => Even chain.chainId)
      (fun _ => Even chain.chainId) (Metered.runChainOnce config chain) s := by
  refine wp_bind.mpr (wp_ofExcept.mpr ⟨fun dataset hdataset => ?_, fun _ _ => h⟩)
  obtain rfl := chainDataset_eq_ok hdataset
  obtain ⟨past, h⟩ := h
  refine wp_uncounted (calls_mapError ?_) h (fun checkpoint s₁ h₁ => ?_) fun _ _ h' => ⟨_, h'⟩
  · exact calls_bind (calls_await fun _ _ => rfl) fun _ =>
      calls_bind (calls_await fun _ _ => rfl) fun _ => trivial
  have hchecked : Wp (Observed AnyReply Records) (EvenAtCalls chain.chainId)
      (fun _ => Even chain.chainId) (fun _ => Even chain.chainId)
      (Metered.checkedCheckpoint config chain EVM_LOGS_DATASET checkpoint) s₁ := by
    unfold Metered.checkedCheckpoint
    split
    · refine wp_bind.mpr ((wp_meteredRollback h₁).imp (fun rollbackBlock _ h' => ?_) fun _ _ he => he)
      cases rollbackBlock <;> exact h'
    · exact ⟨_, h₁⟩
  refine wp_bind.mpr (hchecked.imp (fun checkpoint s₂ h₂ => ?_) fun _ _ he => he)
  obtain ⟨past₂, h₂⟩ := h₂
  refine wp_uncounted (calls_withContext fun _ _ => rfl) h₂ (fun latestBlock s₃ h₃ => ?_)
    fun _ _ h' => ⟨_, h'⟩
  refine wp_record trivial (fun _ => 0) h₃ (fun c _ => by cases c <;> rfl) fun s₄ h₄ => ?_
  dsimp only
  split
  · exact wp_record trivial (fun _ => 0) h₄ (fun c _ => by cases c <;> rfl) fun s₅ h₅ => ⟨_, h₅⟩
  · exact wp_bind.mpr ((wp_meteredRanges ⟨_, h₄⟩).imp (fun _ _ h' => h') fun _ _ he => he)

end

/-! ## The loops of all chains -/

theorem wp_sleep {α : Type} {Q : α → Watched Time → Prop} {E : Error → Watched Time → Prop}
    {millis : Nat} {f : Unit → Metered α}
    (h : Wp (Observed AnyReply Records) (EvenAtCalls chainId) Q E (f ()) s) :
    Wp (Observed AnyReply Records) (EvenAtCalls chainId) Q E (Metered.sleep millis >>= f) s := by
  refine ⟨⟨trivial, by rintro ⟨⟩⟩, fun r s' hs => ?_⟩
  obtain ⟨rfl, hcalls, hmetrics⟩ := hs
  obtain rfl : s' = s := Prod.ext hcalls hmetrics
  exact h

/-- The counters of passes are not about calls. -/
theorem wp_recordChainPass {α : Type} {Q : α → Watched Time → Prop} {E : Error → Watched Time → Prop}
    {success : Bool} {failures : Nat} {f : Unit → Metered α} (h : Even chainId s)
    (hnext : ∀ s', Even chainId s' →
      Wp (Observed AnyReply Records) (EvenAtCalls chainId) Q E (f ()) s') :
    Wp (Observed AnyReply Records) (EvenAtCalls chainId) Q E
      (Metered.recordChainPass chainId success failures >>= f) s := by
  unfold Metered.recordChainPass
  cases hdataset : chainDataset chainId with
  | error e => exact hnext s h
  | ok dataset =>
      obtain rfl := chainDataset_eq_ok hdataset
      obtain ⟨past, h⟩ := h
      refine wp_record trivial (fun _ => 0) h (fun c hc => ?_) fun s' h' => hnext s' ⟨_, h'⟩
      cases c <;> first | rfl | cases hc

theorem wp_runChainLoop {config : RuntimeConfig} {pollMillis : Nat} {chain : ChainConfig}
    {turns failures : Nat} (h : Even chain.chainId s) :
    Wp (Observed AnyReply Records) (EvenAtCalls chain.chainId) (fun _ => Even chain.chainId)
      (fun _ => Even chain.chainId)
      (Metered.runChainLoop config pollMillis chain turns failures) s := by
  induction turns generalizing failures s with
  | zero => exact h
  | succ turns ih =>
      refine wp_bind.mpr (wp_attempt.mpr ((wp_meteredPass h).imp (fun report s₁ h₁ => ?_)
        fun e s₁ h₁ => ?_))
      · refine wp_recordChainPass h₁ fun s₂ h₂ => ?_
        split
        · exact wp_sleep (ih h₂)
        · exact ih h₂
      · exact wp_recordChainPass h₁ fun s₂ h₂ => wp_sleep (ih h₂)

/-- The same calls of the chain, and the same row. -/
def SameScope (chainId : Nat) (s s' : Watched Time) : Prop :=
  pastOf chainId s = pastOf chainId s' ∧
    scopeRow s.2 chainId EVM_LOGS_DATASET = scopeRow s'.2 chainId EVM_LOGS_DATASET

omit [Add Time] in
theorem SameScope.even (hsame : SameScope chainId s s') (h : Even chainId s) : Even chainId s' := by
  obtain ⟨past, h⟩ := h
  have htotal : ∀ c, total s.2 chainId EVM_LOGS_DATASET c = total s'.2 chainId EVM_LOGS_DATASET c :=
    fun c => congrArg (shown · c) hsame.2
  refine ⟨past, hsame.1.symm.trans h.calls, fun c hc => ?_, fun c => ?_⟩
  · rw [← htotal]
    exact h.owes c hc
  · rw [← htotal]
    exact h.bound c

/-- Where the calls and the counters of a chain are the same, what concerns the chain does the same. -/
theorem alike_sameScope (chainId : Nat) :
    Alike (Observed AnyReply Records) (Own chainId)
      (SameScope chainId : Watched Time → Watched Time → Prop) := by
  rintro s s' op r t' hown hsame hserves
  cases op with
  | inl op =>
      obtain ⟨hanswered, hmetrics⟩ := hserves
      obtain rfl : t' = (⟨op, r⟩ :: s'.1, s'.2) := Prod.ext hanswered hmetrics
      refine ⟨(⟨op, r⟩ :: s.1, s.2), ⟨rfl, rfl⟩, ?_, hsame.2⟩
      have hpast := hsame.1
      rw [pastOf, pastOf] at hpast ⊢
      rw [List.filter_cons, List.filter_cons, hpast]
  | inr a =>
      cases a with
      | sleep millis =>
          obtain ⟨rfl, hcalls, hmetrics⟩ := hserves
          obtain rfl : t' = s' := Prod.ext hcalls hmetrics
          exact ⟨s, ⟨rfl, rfl, rfl⟩, hsame⟩
      | record c dataset note =>
          obtain ⟨rfl, hcalls, now, duration, hmetrics⟩ := hserves
          obtain ⟨rfl, rfl, _⟩ := hown
          refine ⟨(s.1, Metrics.record now duration _ _ note s.2), ⟨rfl, rfl, now, duration, rfl⟩,
            ?_, ?_⟩
          · rw [pastOf, pastOf, hcalls]
            exact hsame.1
          · rw [hmetrics, scopeRow_record, scopeRow_record, if_pos rfl, if_pos rfl, hsame.2]

/-- What concerns another chain changes neither. -/
theorem sameScope_of_ne {other : Nat} (hne : other ≠ chainId) {op : Op ⊕ Aside}
    {r : Except Error (WithAsides Aside Reply op)} (hown : Own other op)
    (hserves : Observed AnyReply Records s op r s') : SameScope chainId s s' := by
  cases op with
  | inl op =>
      obtain ⟨hanswered, hmetrics⟩ := hserves
      obtain rfl : s' = (⟨op, r⟩ :: s.1, s.2) := Prod.ext hanswered hmetrics
      have hother : ofChain chainId ⟨op, r⟩ = false := by
        rcases hown with hnone | hown
        · exact hnone _ _
        · exact (hown _ r).trans (beq_false_of_ne hne)
      refine ⟨?_, rfl⟩
      rw [pastOf, pastOf, List.filter_cons_of_neg (by rw [hother]; exact Bool.false_ne_true)]
  | inr a =>
      cases a with
      | sleep millis =>
          obtain ⟨_, hcalls, hmetrics⟩ := hserves
          obtain rfl : s' = s := Prod.ext hcalls hmetrics
          exact ⟨rfl, rfl⟩
      | record c dataset note =>
          obtain ⟨_, hcalls, now, duration, hmetrics⟩ := hserves
          obtain ⟨rfl, rfl, _⟩ := hown
          refine ⟨by rw [pastOf, pastOf, hcalls], ?_⟩
          rw [hmetrics, scopeRow_record, if_neg fun h => hne (Prod.mk.inj h).1]

/-- Two places of a list of different chains are two chains. -/
theorem chainId_ne {config : RuntimeConfig}
    (hdistinct : (config.enabledChains.map (·.chainId)).Nodup)
    {i j : Fin config.enabledChains.length} (hij : i ≠ j) :
    (config.enabledChains.get j).chainId ≠ (config.enabledChains.get i).chainId := by
  intro h
  apply hij
  apply Fin.ext
  have hid : (config.enabledChains.map (·.chainId))[i.val]? =
      (config.enabledChains.map (·.chainId))[j.val]? := by
    simpa using h.symm
  exact (List.getElem?_inj (by simp) hdistinct).mp hid

/-- The loops of different chains do not disturb each other's counters. -/
theorem separate_scopes {config : RuntimeConfig}
    (hdistinct : (config.enabledChains.map (·.chainId)).Nodup) :
    Separate (Observed AnyReply Records)
      (fun i : Fin config.enabledChains.length => Own (config.enabledChains.get i).chainId)
      (fun i => EvenAtCalls (config.enabledChains.get i).chainId)
      (fun i (s s' : Watched Time) => SameScope (config.enabledChains.get i).chainId s s') where
  alike _ := alike_sameScope _
  obligation _ _ _ _ hsame hop := ⟨hop.1, fun hcall => hsame.even (hop.2 hcall)⟩
  other _ _ hij _ _ _ _ hown hserves := sameScope_of_ne (chainId_ne hdistinct hij) hown hserves

/-- What the counters are about, in the world with its metrics. -/
def watch {Env : Type} (s : World Env × MetricsState Time) : Watched Time := (s.1.past, s.2)

theorem watch_serves {Env : Type} {ix : Indexer} {allowed : Answers Env}
    (s : World Env × MetricsState Time) (op : Op ⊕ Aside)
    (r : Except Error (WithAsides Aside Reply op)) (s' : World Env × MetricsState Time)
    (hserves : Observed (Serves ix allowed) Records s op r s') :
    Observed AnyReply Records (watch s) op r (watch s') := by
  cases op with
  | inl op =>
      obtain ⟨⟨_, hw⟩, hm⟩ := hserves
      refine ⟨?_, hm⟩
      show s'.1.past = _
      rw [hw]
      rfl
  | inr a =>
      obtain ⟨hr, hw, hm⟩ := hserves
      exact ⟨hr, congrArg (·.past) hw, hm⟩

omit [Add Time] in
theorem even_atStart (chainId : Nat) {m : MetricsState Time} (hm : m.runtimeRows = .empty) :
    Even chainId (([], m) : Watched Time) := by
  have hzero : ∀ c, total m chainId EVM_LOGS_DATASET c = 0 := fun c => by
    have hrow : scopeRow m chainId EVM_LOGS_DATASET = scopeRow initial chainId EVM_LOGS_DATASET := by
      rw [scopeRow, scopeRow, hm]
      rfl
    rw [total, hrow]
    exact total_initial chainId EVM_LOGS_DATASET c
  refine ⟨[], rfl, fun c _ => ?_, fun c => ?_⟩
  · rw [hzero]
    rfl
  · rw [hzero]
    exact Nat.zero_le _

section

variable {Env : Type} {ix : Indexer} {allowed : Answers Env} {config : RuntimeConfig} {pollMillis : Nat}
variable {turns : Fin config.enabledChains.length → Nat} {w₀ w : World Env} {m₀ m : MetricsState Time}
variable {rests : Fin config.enabledChains.length → Metered Unit}

/-- Of the world only the past matters. -/
theorem watched_together (hpast : w₀.past = []) (hrun : Together (Observed (Serves ix allowed) Records)
      ((w₀, m₀), loopTasks config pollMillis turns) ((w, m), rests)) :
    Together (Observed AnyReply Records) (([], m₀), loopTasks config pollMillis turns)
      ((w.past, m), rests) := by
  have hwatched := hrun.map watch watch_serves
  have hstart : watch (w₀, m₀) = (([], m₀) : Watched Time) := by rw [watch, hpast]
  dsimp only at hwatched
  rw [hstart] at hwatched
  exact hwatched

/-- Wherever a loop awaits a call or has ended, nothing is owed. -/
theorem even_together (hdistinct : (config.enabledChains.map (·.chainId)).Nodup)
    (hpast : w₀.past = []) (hmetrics : m₀.runtimeRows = .empty)
    (hrun : Together (Observed (Serves ix allowed) Records)
      ((w₀, m₀), loopTasks config pollMillis turns) ((w, m), rests))
    {i : Fin config.enabledChains.length} (hi : ∀ a, (rests i).awaited ≠ some (.inr a)) :
    Even (config.enabledChains.get i).chainId (w.past, m) := by
  have hwp := (watched_together hpast hrun).wp (separate_scopes hdistinct) (fun i s op hop => hop.1)
    (fun i _ s s' hsame => hsame.even) (fun i _ s s' hsame => hsame.even)
    (fun i => wp_runChainLoop (even_atStart _ hmetrics)) i
  dsimp only at hwp
  cases hrest : rests i with
  | done r =>
      rw [hrest] at hwp
      cases r <;> exact hwp
  | call op next =>
      rw [hrest] at hwp
      cases op with
      | inl op => exact hwp.1.2 rfl
      | inr a =>
          refine absurd ?_ (hi a)
          rw [hrest]
          rfl

/-- What the calls and notes of the loops keep holds all along. -/
theorem keeps_together (hdistinct : (config.enabledChains.map (·.chainId)).Nodup)
    (hpast : w₀.past = []) (hmetrics : m₀.runtimeRows = .empty) {I : MetricsState Time → Prop}
    (hnote : ∀ now duration chainId note m, Known note → I m →
      I (Metrics.record now duration chainId EVM_LOGS_DATASET note m))
    (hrun : Together (Observed (Serves ix allowed) Records)
      ((w₀, m₀), loopTasks config pollMillis turns) ((w, m), rests)) (hstart : I m₀) : I m := by
  have hkeeps := Together.keeps (I := fun s => I s.2) (separate_scopes hdistinct)
    (fun i s op hop => hop.1) (fun i _ s s' hsame => hsame.even) (fun i _ s s' hsame => hsame.even)
    (fun i s op r s' hown hserves hs => ?_) (watched_together hpast hrun)
    (fun i => wp_runChainLoop (even_atStart _ hmetrics)) hstart
  · exact hkeeps
  · cases op with
    | inl op =>
        obtain ⟨_, hmetrics⟩ := hserves
        rw [hmetrics]
        exact hs
    | inr a =>
        cases a with
        | sleep millis =>
            obtain ⟨_, _, hmetrics⟩ := hserves
            rw [hmetrics]
            exact hs
        | record c dataset note =>
            obtain ⟨_, _, now, duration, hmetrics⟩ := hserves
            obtain ⟨rfl, rfl, hknown⟩ := hown
            rw [hmetrics]
            exact hnote now duration _ note s.2 hknown hs

/-- **The metrics tell what was done.** In a process that runs the loops of different chains, whatever is
answered, wherever the loop of a chain awaits a call or has ended, each counter of its scope is the sum of
what the calls of the chain since the process began count for, up to `u64::MAX`. -/
theorem counters_tell (hdistinct : (config.enabledChains.map (·.chainId)).Nodup)
    (hpast : w₀.past = []) (hmetrics : m₀.runtimeRows = .empty)
    (hrun : Together (Observed (Serves ix allowed) Records)
      ((w₀, m₀), loopTasks config pollMillis turns) ((w, m), rests))
    {i : Fin config.enabledChains.length} (hi : ∀ a, (rests i).awaited ≠ some (.inr a)) {c : Counter}
    (hc : aboutCalls c = true) :
    total m (config.enabledChains.get i).chainId EVM_LOGS_DATASET c =
      min (tally (w.past.filter (ofChain (config.enabledChains.get i).chainId)) c) u64Max :=
  (even_together hdistinct hpast hmetrics hrun hi).shown hc

end

end

theorem records_recordAtZero (a : Aside) (m : MetricsState Nat) : Records a m (recordAtZero a m) := by
  cases a with
  | record chainId dataset note => exact ⟨0, 0, rfl⟩
  | sleep millis => rfl

theorem blocks_loopedTwice :
    tally (loopedTwice.2.1.past.filter (ofChain 46)) .blocksProcessed = 5 := by
  decide +kernel

/-- Five blocks of one chain were processed in two turns: two, because the first request was served in part, and
three, because that is how many a request is for. -/
theorem counters_tell_loopedTwice :
    total loopedTwice.2.2 46 EVM_LOGS_DATASET .blocksProcessed = min 5 u64Max ∧
      total loopedTwice.2.2 46 EVM_LOGS_DATASET .recordsDecoded = min 3 u64Max := by
  have hrun : Together (Observed (Serves hashIndexer fun _ _ _ => True) Records)
      ((atStart.1, atStart.2), loopTasks oneChain 30000 fun _ => 2)
      ((loopedTwice.2.1, loopedTwice.2.2),
        Function.update (loopTasks oneChain 30000 fun _ => 2) onlyTask (.done loopedTwice.1)) :=
    together_loopedTwice (fun _ _ _ _ => trivial) records_recordAtZero
  have htells : ∀ c, aboutCalls c = true → total loopedTwice.2.2 46 EVM_LOGS_DATASET c =
      min (tally (loopedTwice.2.1.past.filter (ofChain 46)) c) u64Max := fun c hc => by
    have htold := counters_tell (by decide) rfl rfl hrun ended_loopedTwice hc
    exact htold
  have hdecoded : tally (loopedTwice.2.1.past.filter (ofChain 46)) .recordsDecoded = 3 := by
    decide +kernel
  exact ⟨blocks_loopedTwice ▸ htells _ rfl, hdecoded ▸ htells _ rfl⟩

end Runner

end OrmpIndexer
