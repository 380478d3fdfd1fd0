/-
# OrmpIndexer.Foundation.Together — tasks that run at the same time

Each task of a family is somewhere in its program, and a step is one step of one of them (`Together`): no task
begins again and none is stopped, which a state in the middle of a run allows for. What is shown of each task
alone holds of it beside the others if they are `Separate` (`Together.wp`).

`repeated n t` is a task that runs `t` `n` times, whatever comes of it. Beside others of its kind it does what
tasks do that begin again when they have ended (`interleaved_of_repeated`).
-/
import OrmpIndexer.Foundation.Interleaving
import Mathlib.Logic.Function.Basic

namespace OrmpIndexer.Foundation

namespace Task

variable {Op : Type} {Reply : Op → Type} {ε α β σ ι : Type} [DecidableEq ι]
variable {serves : σ → (op : Op) → Except ε (Reply op) → σ → Prop}

/-- One of the tasks makes a step. -/
inductive Turn (serves : σ → (op : Op) → Except ε (Reply op) → σ → Prop) :
    σ × (ι → Task Op Reply ε α) → σ × (ι → Task Op Reply ε α) → Prop where
  | step {s s' : σ} {tasks : ι → Task Op Reply ε α} {t : Task Op Reply ε α} (i : ι)
      (h : Step serves (s, tasks i) (s', t)) : Turn serves (s, tasks) (s', Function.update tasks i t)

/-- They run at the same time, each as far as it has come. -/
def Together (serves : σ → (op : Op) → Except ε (Reply op) → σ → Prop) :
    σ × (ι → Task Op Reply ε α) → σ × (ι → Task Op Reply ε α) → Prop :=
  Relation.ReflTransGen (Turn serves)

omit [DecidableEq ι] in
/-- What holds of a task in one state holds of it in a state that is answered alike, if its obligations say
which calls it makes. -/
theorem Wp.carry {P : Op → Prop} {R : σ → σ → Prop} {G : σ → Op → Prop} {Q : α → σ → Prop}
    {E : ε → σ → Prop} (hR : Alike serves P R) (hP : ∀ s op, G s op → P op)
    (hG : ∀ s s' op, R s s' → G s op → G s' op) (hQ : ∀ a s s', R s s' → Q a s → Q a s')
    (hE : ∀ e s s', R s s' → E e s → E e s') {t : Task Op Reply ε α} {s s' : σ}
    (h : Wp serves G Q E t s) (hs : R s s') : Wp serves G Q E t s' := by
  induction t generalizing s s' with
  | done r =>
      cases r with
      | ok a => exact hQ a s s' hs h
      | error e => exact hE e s s' hs h
  | call op next ih =>
      refine ⟨hG s s' op hs h.1, fun r t' ht => ?_⟩
      obtain ⟨t, ht, hR⟩ := hR s s' op r t' (hP s op h.1) hs ht
      exact ih r (h.2 r t ht) hR

/-- The rule of tasks that run at the same time. -/
theorem Together.wp {G : ι → σ → Op → Prop} {P : ι → Op → Prop} {R : ι → σ → σ → Prop}
    {Q : ι → α → σ → Prop} {E : ι → ε → σ → Prop} (hsep : Separate serves P G R)
    (hP : ∀ i s op, G i s op → P i op) (hQ : ∀ i a s s', R i s s' → Q i a s → Q i a s')
    (hE : ∀ i e s s', R i s s' → E i e s → E i e s') {c c' : σ × (ι → Task Op Reply ε α)}
    (h : Together serves c c') (hwp : ∀ i, Wp serves (G i) (Q i) (E i) (c.2 i) c.1) (i : ι) :
    Wp serves (G i) (Q i) (E i) (c'.2 i) c'.1 := by
  induction h generalizing i with
  | refl => exact hwp i
  | tail _ hturn ih =>
      obtain @⟨s, s', tasks, t, j, hstep⟩ := hturn
      generalize hfrom : tasks j = before at hstep
      cases hstep with
      | @call _ _ op next r hs =>
          have hj := ih j
          dsimp only at hj
          rw [hfrom] at hj
          dsimp only
          by_cases hij : i = j
          · subst hij
            rw [Function.update_self]
            exact hj.2 r s' hs
          · rw [Function.update_of_ne hij]
            refine (ih i).carry (hsep.alike i) (hP i) (hsep.obligation i) (hQ i) (hE i) ?_
            exact hsep.other i j hij s op r s' (hP j s op hj.1) hs

/-- What every call keeps that a task may make holds all along. -/
theorem Together.keeps {G : ι → σ → Op → Prop} {P : ι → Op → Prop} {R : ι → σ → σ → Prop}
    {Q : ι → α → σ → Prop} {E : ι → ε → σ → Prop} (hsep : Separate serves P G R)
    (hP : ∀ i s op, G i s op → P i op) (hQ : ∀ i a s s', R i s s' → Q i a s → Q i a s')
    (hE : ∀ i e s s', R i s s' → E i e s → E i e s') {I : σ → Prop}
    (hI : ∀ i s op r s', P i op → serves s op r s' → I s → I s')
    {c c' : σ × (ι → Task Op Reply ε α)} (h : Together serves c c')
    (hwp : ∀ i, Wp serves (G i) (Q i) (E i) (c.2 i) c.1) (hstart : I c.1) : I c'.1 := by
  induction h with
  | refl => exact hstart
  | tail hrun hturn ih =>
      obtain @⟨s, s', tasks, t, j, hstep⟩ := hturn
      have hj := Together.wp hsep hP hQ hE hrun hwp j
      dsimp only at hj
      generalize tasks j = before at hstep hj
      cases hstep with
      | call hs => exact hI j _ _ _ _ (hP j _ _ hj.1) hs ih

omit [DecidableEq ι] in
/-- What is shown of a task in a view of an environment holds in the environment. -/
theorem Wp.view {τ : Type} {serves' : τ → (op : Op) → Except ε (Reply op) → τ → Prop}
    {G : τ → Op → Prop} {Q : α → τ → Prop} {E : ε → τ → Prop} (view : σ → τ)
    (hview : ∀ s op r s', serves s op r s' → serves' (view s) op r (view s'))
    {t : Task Op Reply ε α} {s : σ} (h : Wp serves' G Q E t (view s)) :
    Wp serves (fun s => G (view s)) (fun a s => Q a (view s)) (fun e s => E e (view s)) t s := by
  induction t generalizing s with
  | done r => cases r <;> exact h
  | call op next ih => exact ⟨h.1, fun r s' hs => ih r (h.2 r _ (hview s op r s' hs))⟩

omit [DecidableEq ι] in
/-- A run in an environment is one in every environment that may do more. -/
theorem Reachable.mono {serves serves' : σ → (op : Op) → Except ε (Reply op) → σ → Prop}
    (hserves : ∀ s op r s', serves s op r s' → serves' s op r s') {init : σ → Prop}
    {between : σ → σ → Prop} {pass t : Task Op Reply ε α} {s : σ}
    (h : Reachable serves init between pass s t) : Reachable serves' init between pass s t := by
  induction h with
  | start h => exact .start h
  | step _ hs ih => exact ih.step (hserves _ _ _ _ hs)
  | restart _ hb ih => exact ih.restart hb

/-- What happens in an environment happens in one that is a view of it. -/
theorem Together.map {τ : Type} {serves' : τ → (op : Op) → Except ε (Reply op) → τ → Prop}
    (view : σ → τ) (hview : ∀ s op r s', serves s op r s' → serves' (view s) op r (view s'))
    {c c' : σ × (ι → Task Op Reply ε α)} (h : Together serves c c') :
    Together serves' (view c.1, c.2) (view c'.1, c'.2) := by
  induction h with
  | refl => exact .refl
  | tail _ hturn ih =>
      obtain @⟨s, s', tasks, t, j, hstep⟩ := hturn
      refine ih.tail (.step j ?_)
      dsimp only
      generalize tasks j = before at hstep
      cases hstep with
      | call hs => exact .call (hview _ _ _ _ hs)

/-- One of them may go on by any number of steps. -/
theorem together_of_reaches {s s' : σ} {tasks : ι → Task Op Reply ε α} {t : Task Op Reply ε α} (i : ι)
    (h : Reaches serves (s, tasks i) (s', t)) :
    Together serves (s, tasks) (s', Function.update tasks i t) := by
  generalize hc : (s', t) = c at h
  induction h generalizing s' t with
  | refl =>
      obtain ⟨rfl, rfl⟩ := Prod.mk.inj hc
      rw [Function.update_eq_self]
      exact .refl
  | @tail c₁ c₂ _ hs ih =>
      obtain rfl := hc
      obtain ⟨s₁, t₁⟩ := c₁
      have hturn : Turn serves (s₁, Function.update tasks i t₁)
          (s', Function.update (Function.update tasks i t₁) i t) :=
        .step i (by rw [Function.update_self]; exact hs)
      rw [Function.update_idem] at hturn
      exact (ih rfl).tail hturn

/-! ## Tasks that begin again -/

/-- Run a task some number of times, whatever comes of it. -/
def repeated : Nat → Task Op Reply ε α → Task Op Reply ε Unit
  | 0, _ => done (.ok ())
  | n + 1, t => t.attempt >>= fun _ => repeated n t

omit [DecidableEq ι] in
/-- What every run of a task keeps, it keeps when it is repeated. -/
theorem wp_repeated {G : σ → Op → Prop} {I : σ → Prop} {t : Task Op Reply ε α}
    (ht : ∀ s, I s → Wp serves G (fun _ => I) (fun _ => I) t s) (n : Nat) {s : σ} (hs : I s) :
    Wp serves G (fun _ => I) (fun _ => I) (repeated n t) s := by
  induction n generalizing s with
  | zero => exact hs
  | succ n ih =>
      refine wp_bind.mpr (wp_attempt.mpr ?_)
      exact (ht s hs).imp (fun _ _ h => ih h) fun _ _ h => ih h

/-- What is left of a repeated task: nothing, or `t` and then the task itself some number of times. -/
def Continues (pass t : Task Op Reply ε α) (rest : Task Op Reply ε Unit) : Prop :=
  rest = done (.ok ()) ∨ ∃ n, rest = t.attempt >>= fun _ => repeated n pass

omit [DecidableEq ι] in
theorem continues_repeated (n : Nat) (pass : Task Op Reply ε α) :
    Continues pass pass (repeated n pass) := by
  cases n with
  | zero => exact .inl rfl
  | succ n => exact .inr ⟨n, rfl⟩

variable {init : σ → Prop} {between : σ → σ → Prop} {pass : ι → Task Op Reply ε α}

/-- Where a repeated task awaits a call, so does the task that begins again, at once or after that. -/
theorem interleaved_awaits {s : σ} {i : ι} {op : Op}
    {next : Except ε (Reply op) → Task Op Reply ε Unit} (n : Nat)
    {tasks : ι → Task Op Reply ε α} (h : Interleaved serves init between pass s tasks)
    (hcall : call op next = (tasks i).attempt >>= fun _ => repeated n (pass i)) :
    ∃ next' n', Interleaved serves init between pass s (Function.update tasks i (call op next')) ∧
      ∀ r, next r = (next' r).attempt >>= fun _ => repeated n' (pass i) := by
  induction n generalizing tasks with
  | zero =>
      cases htask : tasks i with
      | done r =>
          rw [htask] at hcall
          cases hcall
      | call op' next' =>
          rw [htask] at hcall
          cases hcall
          refine ⟨next', 0, ?_, fun _ => rfl⟩
          rw [← htask, Function.update_eq_self]
          exact h
  | succ n ih =>
      cases htask : tasks i with
      | done r =>
          -- it has ended, and begins again
          rw [htask] at hcall
          have hagain := h.again htask
          have hcall' : call op next =
              (Function.update tasks i (pass i) i).attempt >>= fun _ => repeated n (pass i) := by
            rw [Function.update_self]
            exact hcall
          obtain ⟨next', n', hrun, hnext⟩ := ih hagain hcall'
          rw [Function.update_idem] at hrun
          exact ⟨next', n', hrun, hnext⟩
      | call op' next' =>
          rw [htask] at hcall
          cases hcall
          refine ⟨next', n + 1, ?_, fun _ => rfl⟩
          rw [← htask, Function.update_eq_self]
          exact h

/-- Repeated tasks beside each other do what tasks do that begin again when they have ended. -/
theorem interleaved_of_repeated {s s' : σ} {n : ι → Nat} {rests : ι → Task Op Reply ε Unit}
    (h : Together serves (s, fun i => repeated (n i) (pass i)) (s', rests)) (hinit : init s) :
    ∃ tasks, Interleaved serves init between pass s' tasks ∧
      ∀ i, Continues (pass i) (tasks i) (rests i) := by
  generalize hc : (s', rests) = c at h
  induction h generalizing s' rests with
  | refl =>
      cases hc
      exact ⟨pass, .start hinit, fun i => continues_repeated (n i) (pass i)⟩
  | tail _ hturn ih =>
      obtain @⟨s₁, s₂, rests₁, rest, j, hstep⟩ := hturn
      cases hc
      obtain ⟨tasks, hrun, hcontinues⟩ := ih rfl
      generalize hfrom : rests₁ j = before at hstep
      cases hstep with
      | @call _ _ op next r hs =>
          rcases hcontinues j with hdone | ⟨n', hmore⟩
          · rw [hfrom] at hdone
            cases hdone
          rw [hfrom] at hmore
          obtain ⟨next', n'', hrun', hnext⟩ := interleaved_awaits n' hrun hmore
          have hstep' := hrun'.step (Function.update_self j _ tasks) hs
          rw [Function.update_idem] at hstep'
          refine ⟨_, hstep', fun i => ?_⟩
          by_cases hij : i = j
          · subst hij
            rw [Function.update_self, Function.update_self]
            exact .inr ⟨n'', hnext r⟩
          · rw [Function.update_of_ne hij, Function.update_of_ne hij]
            exact hcontinues i

end Task

end OrmpIndexer.Foundation
