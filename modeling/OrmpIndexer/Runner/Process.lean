/-
# OrmpIndexer.Runner.Process — what passes keep, the loops keep

A property of one chain, its checkpoint and its calls, that every pass keeps (`Keeps`) holds all along in a
process that runs the loops of different chains (`known_together`): what the other chains do is about their own
checkpoints and anchors, and their calls are not calls of this chain. The counters of the chain are even at the same
points, so a property may be about both.
-/
import OrmpIndexer.Runner.Counters

namespace OrmpIndexer

open Foundation Foundation.Task Metrics

namespace Runner

variable {Env Time : Type} [Zero Time] [Add Time] {ix : Indexer} {config : RuntimeConfig}
variable {allowed : Answers Env}

/-- What concerns a chain is the same: its checkpoint and anchors, its calls, and its counters. -/
def SameChain (chainId : Nat) (s s' : World Env × MetricsState Time) : Prop :=
  SameProgress chainId EVM_LOGS_DATASET s.1.db s'.1.db ∧ SameScope chainId (watch s) (watch s')

/-- The call or the aside is about this chain, and so is what it reads and writes. -/
def OwnStep (chainId : Nat) (op : Op ⊕ Aside) : Prop :=
  Own chainId op ∧ ∀ o, op = .inl o → OwnCall chainId EVM_LOGS_DATASET o

/-- Answers that are allowed whatever the world is, with no window that ends before it begins. -/
structure Steady (ix : Indexer) (allowed : Answers Env) : Prop where
  forward : ∀ w op a, allowed w op a → ForwardWindows ix.decoder w op a
  steady : ∀ w w' op a, allowed w op a → allowed w' op a

/-- At a call nothing is owed, and `I` holds. -/
def KnownAtCalls (chain : ChainConfig) (I : World Env → Prop) (s : World Env × MetricsState Time)
    (op : Op ⊕ Aside) : Prop :=
  EvenAtCalls chain.chainId (watch s) op ∧
    Plain (fun w o => OwnCall chain.chainId EVM_LOGS_DATASET o ∧ I w) s op

/-- `I` is about the checkpoint, the anchors and the calls of the chain. -/
def AboutChain (chainId : Nat) (I : World Env → Prop) : Prop :=
  ∀ w w' : World Env, SameProgress chainId EVM_LOGS_DATASET w.db w'.db →
    w.past.filter (ofChain chainId) = w'.past.filter (ofChain chainId) → I w → I w'

omit [Add Time] in
theorem AboutChain.same {chainId : Nat} {I : World Env → Prop} (h : AboutChain chainId I)
    {s s' : World Env × MetricsState Time} (hsame : SameChain chainId s s') (hI : I s.1) : I s'.1 :=
  h s.1 s'.1 hsame.1 hsame.2.1 hI

theorem alike_sameChain (hallowed : Steady ix allowed) (chainId : Nat) :
    Alike (Observed (Serves ix allowed) Records) (OwnStep chainId)
      (SameChain chainId : World Env × MetricsState Time → World Env × MetricsState Time → Prop) := by
  rintro s s' op r t' ⟨hown, hcall⟩ ⟨hprogress, hscope⟩ hserves
  obtain ⟨t, ht, hscope'⟩ := alike_sameScope chainId (watch s) (watch s') op r (watch t') hown hscope
    (watch_serves s' op r t' hserves)
  cases op with
  | inl op =>
      obtain ⟨⟨hanswers, hw'⟩, _⟩ := hserves
      obtain ⟨hpast, hmetrics⟩ := ht
      obtain ⟨w, ⟨hstore, hw⟩, hprogress'⟩ := alike_sameProgress ix chainId EVM_LOGS_DATASET s.1 s'.1
        op r t'.1 (hcall op rfl) hprogress
        ⟨fun a ha => ⟨(hanswers a ha).1, hallowed.forward _ _ _ (hanswers a ha).2⟩, hw'⟩
      refine ⟨(w, s.2), ⟨⟨fun a ha => ⟨(hstore a ha).1, ?_⟩, hw⟩, rfl⟩, hprogress', ?_⟩
      · exact hallowed.steady _ _ _ _ (hanswers a ha).2
      · have hview : watch (w, s.2) = t := Prod.ext (by rw [hw]; exact hpast.symm) hmetrics.symm
        rw [hview]
        exact hscope'
  | inr a =>
      obtain ⟨hr, hw', _⟩ := hserves
      obtain ⟨_, hpast, hrecords⟩ := ht
      refine ⟨(s.1, t.2), ⟨hr, rfl, hrecords⟩, ?_, ?_⟩
      · rw [hw']
        exact hprogress
      · have hview : watch (s.1, t.2) = t := Prod.ext hpast.symm rfl
        rw [hview]
        exact hscope'

/-- The loops of different chains leave alone what is known of each other. -/
theorem separate_loops (hallowed : Steady ix allowed)
    (hdistinct : (config.enabledChains.map (·.chainId)).Nodup)
    {I : Fin config.enabledChains.length → World Env → Prop}
    (habout : ∀ i, AboutChain (config.enabledChains.get i).chainId (I i)) :
    Separate (Observed (Serves ix allowed) Records)
      (fun i : Fin config.enabledChains.length => OwnStep (config.enabledChains.get i).chainId)
      (fun i => KnownAtCalls (config.enabledChains.get i) (I i))
      (fun i (s s' : World Env × MetricsState Time) =>
        SameChain (config.enabledChains.get i).chainId s s') where
  alike _ := alike_sameChain hallowed _
  obligation i s s' op hsame hop := by
    refine ⟨(separate_scopes hdistinct).obligation i (watch s) (watch s') op hsame.2 hop.1, ?_⟩
    cases op with
    | inl op => exact ⟨hop.2.1, (habout i).same hsame hop.2.2⟩
    | inr a => trivial
  other i j hij s op r s' hown hserves := by
    have hne := chainId_ne hdistinct hij
    refine ⟨?_, sameScope_of_ne hne hown.1 (watch_serves s op r s' hserves)⟩
    cases op with
    | inl op =>
        rw [hserves.1.2]
        cases r with
        | ok a =>
            exact sameProgress_effect_of_ne (fun h => hne (Prod.mk.inj h).1.symm) (hown.2 op rfl)
              ix.postgres s.1.db
        | error e => exact ⟨rfl, fun _ => rfl⟩
    | inr a =>
        rw [hserves.2.1]
        exact ⟨rfl, fun _ => rfl⟩

omit [Zero Time] [Add Time] in
/-- A pass makes its own calls only, and keeps what passes keep. -/
theorem wp_knownPass {chain : ChainConfig} {I : World Env → Prop}
    (hkeeps : Keeps ix allowed config chain EVM_LOGS_DATASET (fun w _ => I w) I) {w : World Env}
    (h : I w) : Wp (Serves ix allowed) (fun w op => OwnCall chain.chainId EVM_LOGS_DATASET op ∧ I w)
      (fun _ => I) (fun _ => I) (runChainOnce config chain) w := by
  have hcalls : Wp (Serves ix allowed) (fun _ => OwnCall chain.chainId EVM_LOGS_DATASET)
      (fun _ _ => True) (fun _ _ => True) (runChainOnce config chain) w :=
    (calls_runChainOnce config chain).wp (A := fun _ => True)
      (fun _ _ hop _ => ⟨hop, fun _ _ _ => trivial⟩) (fun _ _ h => h) (fun _ _ h => h) trivial
  have hpass : Wp (Serves ix allowed) (fun w _ => I w) (fun _ => I) (fun _ => I)
      (runChainOnce config chain) w := by
    cases hdataset : chainDataset chain.chainId with
    | error e =>
        -- the pass ends before its first call
        rw [runChainOnce, hdataset]
        exact h
    | ok dataset =>
        obtain rfl := chainDataset_eq_ok hdataset
        refine (hkeeps.passRules.wp_runChainOnce hdataset h).imp (fun _ _ hpass => ?_)
          fun _ _ he => he
        obtain ⟨_, hL⟩ := hpass
        exact hL.1
  exact (hcalls.and hpass).imp (fun _ _ h => h.2) fun _ _ h => h.2

/-- And so do the turns of its loop. -/
theorem wp_knownLoop {chain : ChainConfig} {I : World Env → Prop}
    (hkeeps : Keeps ix allowed config chain EVM_LOGS_DATASET (fun w _ => I w) I) {pollMillis turns : Nat}
    {s : World Env × MetricsState Time} (heven : Even chain.chainId (watch s)) (h : I s.1) :
    Wp (Observed (Serves ix allowed) Records) (KnownAtCalls chain I)
      (fun _ s => Even chain.chainId (watch s) ∧ I s.1) (fun _ s => Even chain.chainId (watch s) ∧ I s.1)
      (Metered.runChainLoop config pollMillis chain turns 0) s := by
  refine Wp.and (Wp.view watch watch_serves (wp_runChainLoop heven)) (wp_of_erase ?_)
  rw [Metered.erase_runChainLoop]
  exact wp_repeated (fun w => wp_knownPass hkeeps) turns h

/-- What passes keep of their chain holds wherever the loop of the chain awaits a call or has ended, whatever the
loops of other chains do, and nothing is owed to its counters there. -/
theorem known_together (hallowed : Steady ix allowed)
    (hdistinct : (config.enabledChains.map (·.chainId)).Nodup)
    {I : Fin config.enabledChains.length → World Env → Prop}
    (habout : ∀ i, AboutChain (config.enabledChains.get i).chainId (I i))
    (hkeeps : ∀ i, Keeps ix allowed config (config.enabledChains.get i) EVM_LOGS_DATASET
      (fun w _ => I i w) (I i))
    {pollMillis : Nat} {turns : Fin config.enabledChains.length → Nat} {w₀ w : World Env}
    {m₀ m : MetricsState Time} {rests : Fin config.enabledChains.length → Metered Unit}
    (hpast : w₀.past = []) (hmetrics : m₀.runtimeRows = .empty) (hstart : ∀ i, I i w₀)
    (hrun : Together (Observed (Serves ix allowed) Records)
      ((w₀, m₀), loopTasks config pollMillis turns) ((w, m), rests))
    {i : Fin config.enabledChains.length} (hi : ∀ a, (rests i).awaited ≠ some (.inr a)) :
    Even (config.enabledChains.get i).chainId (watch (w, m)) ∧ I i w := by
  have heven : ∀ chainId, Even chainId (watch (w₀, m₀)) := fun chainId => by
    rw [watch, hpast]
    exact even_atStart chainId hmetrics
  have hwp := hrun.wp (separate_loops hallowed hdistinct habout)
    (Q := fun i _ s => Even (config.enabledChains.get i).chainId (watch s) ∧ I i s.1)
    (E := fun i _ s => Even (config.enabledChains.get i).chainId (watch s) ∧ I i s.1)
    (fun _ _ _ hop => ⟨hop.1.1, fun o ho => by subst ho; exact hop.2.1⟩)
    (fun i _ _ _ hsame hknown => ⟨hsame.2.even hknown.1, (habout i).same hsame hknown.2⟩)
    (fun i _ _ _ hsame hknown => ⟨hsame.2.even hknown.1, (habout i).same hsame hknown.2⟩)
    (fun i => wp_knownLoop (hkeeps i) (heven _) (hstart i)) i
  dsimp only at hwp
  cases hrest : rests i with
  | done r =>
      rw [hrest] at hwp
      cases r <;> exact hwp
  | call op next =>
      rw [hrest] at hwp
      cases op with
      | inl op => exact ⟨hwp.1.1.2 rfl, hwp.1.2.2⟩
      | inr a =>
          refine absurd ?_ (hi a)
          rw [hrest]
          rfl

end Runner

end OrmpIndexer
