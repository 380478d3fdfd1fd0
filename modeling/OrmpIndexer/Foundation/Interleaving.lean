/-
# OrmpIndexer.Foundation.Interleaving — tasks side by side

A process runs one task for each index, and they take turns call by call: whatever the order, a step is
the answer to the call some task awaits (`Task.Interleaved`). All of them share the state.

A task that is alone meets its obligations; beside others it still does if what they do to the state makes
no difference to it. `Separate` says so with a relation for each task, of states that are the same to it,
and `Interleaved.wp` is the rule: what is shown of each task alone holds of all of them side by side.
-/
import OrmpIndexer.Foundation.Task

namespace OrmpIndexer.Foundation

namespace Task

variable {Op : Type} {Reply : Op → Type} {ε α σ ι : Type}
variable {serves : σ → (op : Op) → Except ε (Reply op) → σ → Prop}
variable {G : σ → Op → Prop} {Q : α → σ → Prop} {E : ε → σ → Prop}

variable {P : Op → Prop}

/-! ## States that are answered alike -/

/-- `R` relates states in which the calls in `P` are answered alike. -/
def Alike (serves : σ → (op : Op) → Except ε (Reply op) → σ → Prop) (P : Op → Prop)
    (R : σ → σ → Prop) : Prop :=
  ∀ s s' op r t', P op → R s s' → serves s' op r t' → ∃ t, serves s op r t ∧ R t t'

/-- What holds of a task in one state holds of it in a state that is answered alike. -/
theorem Wp.transport {R : σ → σ → Prop} (hR : Alike serves P R)
    (hG : ∀ s s' op, R s s' → G s op → G s' op) (hQ : ∀ a s s', R s s' → Q a s → Q a s')
    (hE : ∀ e s s', R s s' → E e s → E e s') {t : Task Op Reply ε α} {s s' : σ}
    (hcalls : Calls P t) (h : Wp serves G Q E t s) (hs : R s s') : Wp serves G Q E t s' := by
  induction t generalizing s s' with
  | done r =>
      cases r with
      | ok a => exact hQ a s s' hs h
      | error e => exact hE e s s' hs h
  | call op next ih =>
      refine ⟨hG s s' op hs h.1, fun r t' ht => ?_⟩
      obtain ⟨t, ht, hR⟩ := hR s s' op r t' hcalls.1 hs ht
      exact ih r (hcalls.2 r) (h.2 r t ht) hR

/-! ## Tasks side by side -/

variable [DecidableEq ι]

variable (serves) in
/-- The states of a process with several tasks. A task that ends begins again, and the process may stop
anywhere; `between` says what can happen before it starts again. -/
inductive Interleaved (init : σ → Prop) (between : σ → σ → Prop) (pass : ι → Task Op Reply ε α) :
    σ → (ι → Task Op Reply ε α) → Prop where
  | start {s : σ} (h : init s) : Interleaved init between pass s pass
  | step {s s' : σ} {tasks : ι → Task Op Reply ε α} {i : ι} {op : Op}
      {next : Except ε (Reply op) → Task Op Reply ε α} {r : Except ε (Reply op)}
      (hr : Interleaved init between pass s tasks) (hi : tasks i = .call op next)
      (h : serves s op r s') : Interleaved init between pass s' (Function.update tasks i (next r))
  | again {s : σ} {tasks : ι → Task Op Reply ε α} {i : ι} {r : Except ε α}
      (hr : Interleaved init between pass s tasks) (hi : tasks i = .done r) :
      Interleaved init between pass s (Function.update tasks i (pass i))
  | restart {s s' : σ} {tasks : ι → Task Op Reply ε α}
      (hr : Interleaved init between pass s tasks) (h : between s s') :
      Interleaved init between pass s' pass

variable {init : σ → Prop} {between : σ → σ → Prop} {pass : ι → Task Op Reply ε α}

/-- One task may go on by any number of answered calls. -/
theorem Interleaved.reaches {s s' : σ} {tasks : ι → Task Op Reply ε α} {i : ι}
    {t : Task Op Reply ε α} (h : Interleaved serves init between pass s tasks)
    (hr : Reaches serves (s, tasks i) (s', t)) :
    Interleaved serves init between pass s' (Function.update tasks i t) := by
  generalize hc : (s', t) = c at hr
  induction hr generalizing s' t with
  | refl =>
      obtain ⟨rfl, rfl⟩ := Prod.mk.inj hc
      rw [Function.update_eq_self]
      exact h
  | tail hr hs ih =>
      cases hs with
      | call hs =>
          obtain ⟨rfl, rfl⟩ := Prod.mk.inj hc
          have hstep := (ih rfl).step (Function.update_self i _ tasks) hs
          rw [Function.update_idem] at hstep
          exact hstep

/-- What a task calls makes no difference to another one. -/
structure Separate (serves : σ → (op : Op) → Except ε (Reply op) → σ → Prop) (P : ι → Op → Prop)
    (G : ι → σ → Op → Prop) (R : ι → σ → σ → Prop) : Prop where
  alike : ∀ i, Alike serves (P i) (R i)
  obligation : ∀ i s s' op, R i s s' → G i s op → G i s' op
  other : ∀ i j, i ≠ j → ∀ s op r s', P j op → serves s op r s' → R i s s'

/-- The rule of tasks side by side. -/
theorem Interleaved.wp {P : ι → Op → Prop} {G : ι → σ → Op → Prop} {R : ι → σ → σ → Prop}
    (hsep : Separate serves P G R) (hcalls : ∀ i, Calls (P i) (pass i))
    (hpass : ∀ i s, Wp serves (G i) (fun _ _ => True) (fun _ _ => True) (pass i) s) {s : σ}
    {tasks : ι → Task Op Reply ε α} (h : Interleaved serves init between pass s tasks) (i : ι) :
    Calls (P i) (tasks i) ∧
      Wp serves (G i) (fun _ _ => True) (fun _ _ => True) (tasks i) s := by
  have fresh : ∀ i s, Calls (P i) (pass i) ∧
      Wp serves (G i) (fun _ _ => True) (fun _ _ => True) (pass i) s :=
    fun i s => ⟨hcalls i, hpass i s⟩
  induction h generalizing i with
  | start h => exact fresh i _
  | @step s s' tasks j op next r hr hj hs ih =>
      have hcall := ih j
      rw [hj] at hcall
      by_cases hij : i = j
      · subst hij
        rw [Function.update_self]
        exact ⟨hcall.1.2 r, hcall.2.2 r s' hs⟩
      · rw [Function.update_of_ne hij]
        obtain ⟨hown, hwp⟩ := ih i
        refine ⟨hown, hwp.transport (hsep.alike i) (hsep.obligation i) (fun _ _ _ _ h => h)
          (fun _ _ _ _ h => h) hown ?_⟩
        exact hsep.other i j hij s op r s' hcall.1.1 hs
  | @again s tasks j r hr hj ih =>
      by_cases hij : i = j
      · subst hij
        rw [Function.update_self]
        exact fresh i _
      · rw [Function.update_of_ne hij]
        exact ih i
  | restart hr h ih => exact fresh i _

end Task

end OrmpIndexer.Foundation
