/-
# OrmpIndexer.Foundation.Task — asynchronous programs and what they do in an environment

An asynchronous function is a sequence of awaited calls whose replies come from outside: a server, a
database, another component. `Task Op Reply ε α` is that function as a tree. It is either `done`
with a result or an error, or it awaits a call `op` and continues with the reply, which is a value
or an error like every reply that crosses a process boundary.

The environment is a relation `serves s op r s'`: in state `s` the call `op` may be answered by `r`,
and that leaves the state `s'`. On top of it stand

* `Task.Wp` — the weakest precondition of a task, with an obligation `G s op` at every awaited call;
  it commutes with the operations that build tasks, so a function is verified by rewriting;
* `Task.Step` and `Task.Reaches` — execution call by call, every prefix of which satisfies `Wp`;
* `Task.Reachable` — one task started again and again: the process may stop between any two calls,
  and what happens `between` two starts is up to the environment. `Reachable.wp` is the invariant
  rule of such runs.
-/
import Mathlib.Logic.Relation
import Mathlib.Tactic.Common

namespace OrmpIndexer.Foundation

/-- An asynchronous program: finished, or awaiting the reply to a call. -/
inductive Task (Op : Type) (Reply : Op → Type) (ε α : Type) : Type where
  | done (result : Except ε α)
  | call (op : Op) (next : Except ε (Reply op) → Task Op Reply ε α)

namespace Task

variable {Op : Type} {Reply : Op → Type} {ε α β : Type}

/-- Run the first task; hand its value to the second one, or end with its error. -/
def bind : Task Op Reply ε α → (α → Task Op Reply ε β) → Task Op Reply ε β
  | done (.ok a), f => f a
  | done (.error e), _ => done (.error e)
  | call op next, f => call op fun r => (next r).bind f

instance : Monad (Task Op Reply ε) where
  pure a := done (.ok a)
  bind := bind

/-- Await one call; an error reply is the error of the task (the `?` operator). -/
def await (op : Op) : Task Op Reply ε (Reply op) := call op done

/-- A computation without calls. -/
def ofExcept (r : Except ε α) : Task Op Reply ε α := done r

/-- Change the error of a task. -/
def mapError (f : ε → ε) : Task Op Reply ε α → Task Op Reply ε α
  | done (.ok a) => done (.ok a)
  | done (.error e) => done (.error (f e))
  | call op next => call op fun r => (next r).mapError f

/-- Run a task and go on with its result, a value or an error (`match task.await`). -/
def attempt : Task Op Reply ε α → Task Op Reply ε (Except ε α)
  | done r => done (.ok r)
  | call op next => call op fun r => (next r).attempt

@[simp]
theorem done_ok_bind (a : α) (f : α → Task Op Reply ε β) : (done (.ok a) >>= f) = f a := rfl

@[simp]
theorem done_error_bind (e : ε) (f : α → Task Op Reply ε β) :
    (done (.error e) >>= f) = done (.error e) := rfl

@[simp]
theorem call_bind (op : Op) (next : Except ε (Reply op) → Task Op Reply ε α)
    (f : α → Task Op Reply ε β) : (call op next >>= f) = call op fun r => next r >>= f := rfl

/-! ## Weakest preconditions -/

variable {σ : Type} (serves : σ → (op : Op) → Except ε (Reply op) → σ → Prop)

/-- Started in `s`, the task meets `G` at every call it awaits, `Q` if it ends with a value and `E`
if it ends with an error, whatever the environment answers. -/
def Wp (G : σ → Op → Prop) (Q : α → σ → Prop) (E : ε → σ → Prop) : Task Op Reply ε α → σ → Prop
  | done (.ok a), s => Q a s
  | done (.error e), s => E e s
  | call op next, s => G s op ∧ ∀ r s', serves s op r s' → Wp G Q E (next r) s'

variable {serves} {G : σ → Op → Prop} {Q : α → σ → Prop} {E : ε → σ → Prop}

@[simp]
theorem wp_done_ok {a : α} {s : σ} :
    Wp serves G Q E (done (.ok a) : Task Op Reply ε α) s ↔ Q a s := Iff.rfl

@[simp]
theorem wp_pure {a : α} {s : σ} :
    Wp serves G Q E (pure a : Task Op Reply ε α) s ↔ Q a s := Iff.rfl

@[simp]
theorem wp_done_error {e : ε} {s : σ} :
    Wp serves G Q E (done (.error e) : Task Op Reply ε α) s ↔ E e s := Iff.rfl

theorem wp_ofExcept {r : Except ε α} {s : σ} :
    Wp serves G Q E (ofExcept r : Task Op Reply ε α) s ↔
      (∀ a, r = .ok a → Q a s) ∧ ∀ e, r = .error e → E e s := by
  cases r <;> simp [ofExcept]

theorem wp_await {op : Op} {Q : Reply op → σ → Prop} {s : σ} :
    Wp serves G Q E (await op) s ↔
      G s op ∧ (∀ a s', serves s op (.ok a) s' → Q a s') ∧
        ∀ e s', serves s op (.error e) s' → E e s' := by
  refine and_congr_right fun _ => ⟨fun h => ⟨fun a s' => h (.ok a) s', fun e s' => h (.error e) s'⟩,
    fun h r s' => ?_⟩
  cases r with
  | ok a => exact h.1 a s'
  | error e => exact h.2 e s'

theorem wp_bind {Q : β → σ → Prop} {t : Task Op Reply ε α} {f : α → Task Op Reply ε β} {s : σ} :
    Wp serves G Q E (t >>= f) s ↔ Wp serves G (fun a => Wp serves G Q E (f a)) E t s := by
  induction t generalizing s with
  | done r => cases r <;> rfl
  | call op next ih =>
      refine and_congr_right fun _ => ?_
      exact forall_congr' fun r => forall_congr' fun s' => imp_congr_right fun _ => ih r

theorem wp_mapError {f : ε → ε} {t : Task Op Reply ε α} {s : σ} :
    Wp serves G Q E (t.mapError f) s ↔ Wp serves G Q (fun e => E (f e)) t s := by
  induction t generalizing s with
  | done r => cases r <;> rfl
  | call op next ih =>
      refine and_congr_right fun _ => ?_
      exact forall_congr' fun r => forall_congr' fun s' => imp_congr_right fun _ => ih r

theorem wp_attempt {Q : Except ε α → σ → Prop} {t : Task Op Reply ε α} {s : σ} :
    Wp serves G Q E t.attempt s ↔
      Wp serves G (fun a => Q (.ok a)) (fun e => Q (.error e)) t s := by
  induction t generalizing s with
  | done r => cases r <;> rfl
  | call op next ih =>
      refine and_congr_right fun _ => ?_
      exact forall_congr' fun r => forall_congr' fun s' => imp_congr_right fun _ => ih r

/-- Consequence: weaker obligations and postconditions hold as well. -/
theorem Wp.mono {G' : σ → Op → Prop} {Q' : α → σ → Prop} {E' : ε → σ → Prop}
    {t : Task Op Reply ε α} {s : σ} (h : Wp serves G Q E t s) (hG : ∀ s op, G s op → G' s op)
    (hQ : ∀ a s, Q a s → Q' a s) (hE : ∀ e s, E e s → E' e s) : Wp serves G' Q' E' t s := by
  induction t generalizing s with
  | done r =>
      cases r with
      | ok a => exact hQ a s h
      | error e => exact hE e s h
  | call op next ih => exact ⟨hG s op h.1, fun r s' hs => ih r (h.2 r s' hs)⟩

/-- Weaker postconditions, the obligations unchanged. -/
theorem Wp.imp {Q' : α → σ → Prop} {E' : ε → σ → Prop} {t : Task Op Reply ε α} {s : σ}
    (h : Wp serves G Q E t s) (hQ : ∀ a s, Q a s → Q' a s) (hE : ∀ e s, E e s → E' e s) :
    Wp serves G Q' E' t s :=
  h.mono (fun _ _ h => h) hQ hE

/-- Two proofs about one task, put together. -/
theorem Wp.and {G' : σ → Op → Prop} {Q' : α → σ → Prop} {E' : ε → σ → Prop}
    {t : Task Op Reply ε α} {s : σ} (h : Wp serves G Q E t s) (h' : Wp serves G' Q' E' t s) :
    Wp serves (fun s op => G s op ∧ G' s op) (fun a s => Q a s ∧ Q' a s)
      (fun e s => E e s ∧ E' e s) t s := by
  induction t generalizing s with
  | done r => cases r <;> exact ⟨h, h'⟩
  | call op next ih => exact ⟨⟨h.1, h'.1⟩, fun r s' hs => ih r (h.2 r s' hs) (h'.2 r s' hs)⟩

/-- What the obligations and both postconditions say of the state holds where the task stands. -/
theorem Wp.holds {I : σ → Prop} {t : Task Op Reply ε α} {s : σ} (h : Wp serves G Q E t s)
    (hG : ∀ s op, G s op → I s) (hQ : ∀ a s, Q a s → I s) (hE : ∀ e s, E e s → I s) : I s := by
  match t with
  | done (.ok a) => exact hQ a s h
  | done (.error e) => exact hE e s h
  | call op next => exact hG s op h.1

/-- In the states of `A` the call may be made, the answer leaves it in `A`, and a reply satisfies `P`. -/
def Safe (serves : σ → (op : Op) → Except ε (Reply op) → σ → Prop) (G : σ → Op → Prop)
    (A : σ → Prop) (op : Op) (P : Reply op → Prop) : Prop :=
  ∀ s, A s → G s op ∧ ∀ r s', serves s op r s' → A s' ∧ ∀ a, r = .ok a → P a

theorem Safe.wp {A : σ → Prop} {op : Op} {P : Reply op → Prop} {Q : Reply op → σ → Prop}
    (h : Safe serves G A op P) {s : σ} (hs : A s) (hQ : ∀ a s', A s' → P a → Q a s')
    (hE : ∀ e s', A s' → E e s') : Wp serves G Q E (await op) s := by
  obtain ⟨hG, hserves⟩ := h s hs
  refine wp_await.mpr ⟨hG, fun a s' ha => ?_, fun e s' he => hE e s' (hserves _ s' he).1⟩
  obtain ⟨hA, hP⟩ := hserves _ s' ha
  exact hQ a s' hA (hP a rfl)

theorem Safe.imp {A : σ → Prop} {op : Op} {P P' : Reply op → Prop} (h : Safe serves G A op P)
    (hP : ∀ a, P a → P' a) : Safe serves G A op P' := by
  intro s hs
  obtain ⟨hG, hserves⟩ := h s hs
  refine ⟨hG, fun r s' hr => ?_⟩
  obtain ⟨hA, hanswer⟩ := hserves r s' hr
  exact ⟨hA, fun a ha => hP a (hanswer a ha)⟩

/-- A computation without calls stays in its state. -/
theorem wp_ofExcept_of {A : σ → Prop} {r : Except ε α} {s : σ} (hs : A s)
    (hQ : ∀ a, r = .ok a → Q a s) (hE : ∀ e s', A s' → E e s') :
    Wp serves G Q E (ofExcept r) s :=
  wp_ofExcept.mpr ⟨hQ, fun e _ => hE e s hs⟩

/-! ## Execution -/

variable (serves)

/-- One awaited call is answered. -/
inductive Step : σ × Task Op Reply ε α → σ × Task Op Reply ε α → Prop where
  | call {s s' : σ} {op : Op} {next : Except ε (Reply op) → Task Op Reply ε α}
      {r : Except ε (Reply op)} (h : serves s op r s') : Step (s, .call op next) (s', next r)

/-- Any number of awaited calls are answered. -/
def Reaches : σ × Task Op Reply ε α → σ × Task Op Reply ε α → Prop :=
  Relation.ReflTransGen (Step serves)

variable {serves}

/-- What holds of a task holds of it after every prefix of its calls. -/
theorem Wp.reaches {c c' : σ × Task Op Reply ε α} (h : Wp serves G Q E c.2 c.1)
    (hr : Reaches serves c c') : Wp serves G Q E c'.2 c'.1 := by
  induction hr with
  | refl => exact h
  | tail _ hs ih =>
      cases hs with
      | call hs => exact ih.2 _ _ hs

variable (serves)

/-- The states of a process that starts `pass` again and again. It may stop anywhere (`restart` asks
nothing of the task it abandons), and `between` says what can happen before the next start. -/
inductive Reachable (init : σ → Prop) (between : σ → σ → Prop) (pass : Task Op Reply ε α) :
    σ → Task Op Reply ε α → Prop where
  | start {s : σ} (h : init s) : Reachable init between pass s pass
  | step {s s' : σ} {op : Op} {next : Except ε (Reply op) → Task Op Reply ε α}
      {r : Except ε (Reply op)} (hr : Reachable init between pass s (.call op next))
      (h : serves s op r s') : Reachable init between pass s' (next r)
  | restart {s s' : σ} {t : Task Op Reply ε α} (hr : Reachable init between pass s t)
      (h : between s s') : Reachable init between pass s' pass

variable {serves} {init : σ → Prop} {between : σ → σ → Prop} {pass : Task Op Reply ε α}

/-- The invariant rule of runs. `I` holds initially and across restarts; a pass started in `I` meets
its obligations, and `I` holds wherever it can be abandoned: at its calls and at its ends. -/
theorem Reachable.wp {I : σ → Prop} (hinit : ∀ s, init s → I s)
    (hbetween : ∀ s s', I s → between s s' → I s')
    (hpass : ∀ s, I s → Wp serves G Q E pass s) (hG : ∀ s op, G s op → I s)
    (hQ : ∀ a s, Q a s → I s) (hE : ∀ e s, E e s → I s) {s : σ} {t : Task Op Reply ε α}
    (h : Reachable serves init between pass s t) : I s ∧ Wp serves G Q E t s := by
  induction h with
  | start h => exact ⟨hinit _ h, hpass _ (hinit _ h)⟩
  | step _ hs ih => exact ⟨(ih.2.2 _ _ hs).holds hG hQ hE, ih.2.2 _ _ hs⟩
  | restart _ hb ih => exact ⟨hbetween _ _ ih.1 hb, hpass _ (hbetween _ _ ih.1 hb)⟩

/-- A run may continue a reachable pass by any number of answered calls. -/
theorem Reachable.reaches {c c' : σ × Task Op Reply ε α}
    (h : Reachable serves init between pass c.1 c.2) (hr : Reaches serves c c') :
    Reachable serves init between pass c'.1 c'.2 := by
  induction hr with
  | refl => exact h
  | tail _ hs ih =>
      cases hs with
      | call hs => exact ih.step hs

/-! ## Deterministic environments -/

section

variable (answer : σ → (op : Op) → Except ε (Reply op) × σ)

/-- Execute a task to its end against an environment that is a function. -/
def eval : Task Op Reply ε α → σ → Except ε α × σ
  | done r, s => (r, s)
  | call op next, s => (next (answer s op).1).eval (answer s op).2

variable {answer}

@[simp]
theorem eval_done (r : Except ε α) (s : σ) :
    (done r : Task Op Reply ε α).eval answer s = (r, s) := rfl

@[simp]
theorem eval_ofExcept (r : Except ε α) (s : σ) :
    (ofExcept r : Task Op Reply ε α).eval answer s = (r, s) := rfl

@[simp]
theorem eval_await (op : Op) (s : σ) :
    (await op : Task Op Reply ε (Reply op)).eval answer s = answer s op := rfl

/-- If the first part ends with a value, the rest goes on from there. -/
theorem eval_bind_of_ok {t : Task Op Reply ε α} {f : α → Task Op Reply ε β} {s s' : σ} {a : α}
    (h : t.eval answer s = (.ok a, s')) : (t >>= f).eval answer s = (f a).eval answer s' := by
  induction t generalizing s with
  | done r =>
      cases h
      rfl
  | call op next ih => exact ih _ h

/-- If the first part fails, so does the whole. -/
theorem eval_bind_of_error {t : Task Op Reply ε α} {f : α → Task Op Reply ε β} {s s' : σ} {e : ε}
    (h : t.eval answer s = (.error e, s')) : (t >>= f).eval answer s = (.error e, s') := by
  induction t generalizing s with
  | done r =>
      cases h
      rfl
  | call op next ih => exact ih _ h

/-- The context of an error does not concern a task that ends with a value. -/
theorem eval_mapError_of_ok {f : ε → ε} {t : Task Op Reply ε α} {s s' : σ} {a : α}
    (h : t.eval answer s = (.ok a, s')) : (t.mapError f).eval answer s = (.ok a, s') := by
  induction t generalizing s with
  | done r =>
      cases h
      rfl
  | call op next ih => exact ih _ h

/-- Such an execution is one of the executions of the relation that allows all its answers. -/
theorem reaches_eval (h : ∀ s op, serves s op (answer s op).1 (answer s op).2)
    (t : Task Op Reply ε α) (s : σ) :
    Reaches serves (s, t) ((t.eval answer s).2, .done (t.eval answer s).1) := by
  induction t generalizing s with
  | done r => exact .refl
  | call op next ih => exact .head (.call (h s op)) (ih _ _)

/-- The environment has an answer to every call that comes up. -/
def meets (answer : σ → (op : Op) → Except ε (Reply op) × σ) (ready : σ → Op → Bool) : Task Op Reply ε α → σ → Bool
  | done _, _ => true
  | call op next, s => ready s op && (next (answer s op).1).meets answer ready (answer s op).2

/-- An environment that sometimes has no answer. -/
theorem reaches_eval_of_meets {ready : σ → Op → Bool}
    (h : ∀ s op, ready s op = true → serves s op (answer s op).1 (answer s op).2)
    {t : Task Op Reply ε α} {s : σ} (ht : t.meets answer ready s = true) :
    Reaches serves (s, t) ((t.eval answer s).2, .done (t.eval answer s).1) := by
  induction t generalizing s with
  | done r => exact .refl
  | call op next ih =>
      rw [meets, Bool.and_eq_true] at ht
      exact .head (.call (h s op ht.1)) (ih _ ht.2)

/-- What is proved of all executions holds of this one. -/
theorem Wp.eval (h : ∀ s op, serves s op (answer s op).1 (answer s op).2) {t : Task Op Reply ε α}
    {s s' : σ} {a : α} (hwp : Wp serves G Q E t s) (heval : t.eval answer s = (.ok a, s')) :
    Q a s' := by
  have hdone := hwp.reaches (reaches_eval h t s)
  rw [heval] at hdone
  exact hdone

/-- Execute a task up to a call of some kind. -/
def evalUntil (answer : σ → (op : Op) → Except ε (Reply op) × σ) (stop : Op → Bool) :
    Task Op Reply ε α → σ → σ × Task Op Reply ε α
  | done r, s => (s, done r)
  | call op next, s =>
      if stop op then (s, call op next)
      else (next (answer s op).1).evalUntil answer stop (answer s op).2

theorem reaches_evalUntil (h : ∀ s op, serves s op (answer s op).1 (answer s op).2)
    (stop : Op → Bool) (t : Task Op Reply ε α) (s : σ) :
    Reaches serves (s, t) (t.evalUntil answer stop s) := by
  induction t generalizing s with
  | done r => exact .refl
  | call op next ih =>
      unfold evalUntil
      split
      · exact .refl
      · exact .head (.call (h s op)) (ih _ _)

/-- The call a task awaits. -/
def awaited : Task Op Reply ε α → Option Op
  | done _ => none
  | call op _ => some op

theorem eq_call_of_awaited {t : Task Op Reply ε α} {op : Op} (h : t.awaited = some op) :
    ∃ next, t = call op next := by
  cases t with
  | done r => cases h
  | call op' next =>
      cases h
      exact ⟨next, rfl⟩

variable (answer)

/-- `n` passes one after the other, with `turn` after every pass. -/
def evalPasses (turn : σ → σ) (pass : Task Op Reply ε α) : Nat → σ → σ
  | 0, s => s
  | n + 1, s => turn (pass.eval answer (evalPasses turn pass n s)).2

variable {answer}

/-- Executed passes are a run. -/
theorem reachable_evalPasses {turn : σ → σ}
    (hserves : ∀ s op, serves s op (answer s op).1 (answer s op).2)
    (hturn : ∀ s, between s (turn s)) {s : σ} (h : init s) (n : Nat) :
    Reachable serves init between pass (evalPasses answer turn pass n s) pass := by
  induction n with
  | zero => exact .start h
  | succ n ih => exact (ih.reaches (reaches_eval hserves pass _)).restart (hturn _)

end

/-! ## Results, whatever the environment answers -/

/-- Every value the task can end with satisfies `P`. -/
def Returns (P : α → Prop) : Task Op Reply ε α → Prop
  | done (.ok a) => P a
  | done (.error _) => True
  | call _ next => ∀ r, Returns P (next r)

theorem returns_bind {P : β → Prop} {t : Task Op Reply ε α} {f : α → Task Op Reply ε β} :
    Returns P (t >>= f) ↔ Returns (fun a => Returns P (f a)) t := by
  induction t with
  | done r => cases r <;> rfl
  | call op next ih => exact forall_congr' ih

theorem returns_mapError {P : α → Prop} {f : ε → ε} {t : Task Op Reply ε α} :
    Returns P (t.mapError f) ↔ Returns P t := by
  induction t with
  | done r => cases r <;> rfl
  | call op next ih => exact forall_congr' ih

theorem returns_ofExcept {P : α → Prop} {r : Except ε α} (h : ∀ a, r = .ok a → P a) :
    Returns P (ofExcept r : Task Op Reply ε α) := by
  cases r with
  | ok a => exact h a rfl
  | error e => trivial

theorem returns_of_forall {P : α → Prop} (h : ∀ a, P a) (t : Task Op Reply ε α) : Returns P t := by
  induction t with
  | done r =>
      cases r with
      | ok a => exact h a
      | error e => trivial
  | call op next ih => exact ih

theorem Returns.imp {P P' : α → Prop} {t : Task Op Reply ε α} (h : Returns P t)
    (himp : ∀ a, P a → P' a) : Returns P' t := by
  induction t with
  | done r =>
      cases r with
      | ok a => exact himp a h
      | error e => trivial
  | call op next ih => exact fun r => ih r (h r)

/-- Two continuations that agree on every value the task can end with give the same program. -/
theorem Returns.bind_congr {P : α → Prop} {t : Task Op Reply ε α}
    {f g : α → Task Op Reply ε β} (h : Returns P t) (hfg : ∀ a, P a → f a = g a) :
    t >>= f = t >>= g := by
  induction t with
  | done r =>
      cases r with
      | ok a => exact hfg a h
      | error e => rfl
  | call op next ih =>
      rw [call_bind, call_bind]
      exact congrArg (call op) (funext fun r => ih r (h r))

/-! ## The calls of a task -/

/-- All calls satisfy `P`, whatever is answered. -/
def Calls (P : Op → Prop) : Task Op Reply ε α → Prop
  | done _ => True
  | call op next => P op ∧ ∀ r, Calls P (next r)

variable {P : Op → Prop}

theorem calls_bind_of_returns {R : α → Prop} {t : Task Op Reply ε α} {f : α → Task Op Reply ε β}
    (ht : Calls P t) (hreturns : Returns R t) (hf : ∀ a, R a → Calls P (f a)) :
    Calls P (t >>= f) := by
  induction t with
  | done r =>
      cases r with
      | ok a => exact hf a hreturns
      | error e => trivial
  | call op next ih => exact ⟨ht.1, fun r => ih r (ht.2 r) (hreturns r)⟩

theorem calls_bind {t : Task Op Reply ε α} {f : α → Task Op Reply ε β} (ht : Calls P t)
    (hf : ∀ a, Calls P (f a)) : Calls P (t >>= f) :=
  calls_bind_of_returns ht (returns_of_forall (fun _ => trivial) t) fun a _ => hf a

theorem calls_mapError {f : ε → ε} {t : Task Op Reply ε α} (ht : Calls P t) :
    Calls P (t.mapError f) := by
  induction t with
  | done r => cases r <;> trivial
  | call op next ih => exact ⟨ht.1, fun r => ih r (ht.2 r)⟩

theorem calls_await {op : Op} (h : P op) : Calls P (await op : Task Op Reply ε (Reply op)) :=
  ⟨h, fun _ => trivial⟩

theorem calls_ofExcept (r : Except ε α) : Calls P (ofExcept r : Task Op Reply ε α) := trivial

/-- If the calls of a task stay in the states of `A`, so does the task. -/
theorem Calls.wp {A : σ → Prop} {t : Task Op Reply ε α} (ht : Calls P t)
    (hcall : ∀ s op, P op → A s → G s op ∧ ∀ r s', serves s op r s' → A s')
    (hQ : ∀ a s, A s → Q a s) (hE : ∀ e s, A s → E e s) {s : σ} (hs : A s) :
    Wp serves G Q E t s := by
  induction t generalizing s with
  | done r =>
      cases r with
      | ok a => exact hQ a s hs
      | error e => exact hE e s hs
  | call op next ih =>
      obtain ⟨hG, hserves⟩ := hcall s op ht.1 hs
      exact ⟨hG, fun r s' hr => ih r (ht.2 r) (hserves r s' hr)⟩

end Task

end OrmpIndexer.Foundation
