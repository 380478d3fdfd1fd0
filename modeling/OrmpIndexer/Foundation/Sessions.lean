/-
# OrmpIndexer.Foundation.Sessions — processes that come and go on one state

Any number of processes share a state. One may start at any time, with arguments of its own, its calls are
answered in turn with those of the others, and it may stop anywhere, at its end or before (`Move`).

The rule is rely and guarantee. `R i s s'` is what process `i` relies on while it awaits a reply: the others
turn `s` into `s'` at most so. Process `i` is verified alone, against an environment that may disturb it so
before every answer (`Disturbed`), and what it does must be what all others rely on (`Guarantees`). Then the
invariant `I` holds of every state reached, and every move relates two states by `T`
(`RelyGuarantee.moves`).
-/
import OrmpIndexer.Foundation.Task

namespace OrmpIndexer.Foundation

namespace Task

variable {Op : Type} {Reply : Op → Type} {ε α σ ι Arg : Type} [DecidableEq ι]

/-- The shared state, and what the processes still have to do. -/
abbrev System (Op : Type) (Reply : Op → Type) (ε α σ ι : Type) :=
  σ × (ι → Option (Task Op Reply ε α))

variable (serves : ι → σ → (op : Op) → Except ε (Reply op) → σ → Prop) (begins : Arg → σ → σ)
  (ends : ι → σ → σ) (pass : Arg → Task Op Reply ε α)

/-- A process starts, has a call answered, or stops. -/
inductive Move : System Op Reply ε α σ ι → System Op Reply ε α σ ι → Prop where
  | start {s : σ} {tasks : ι → Option (Task Op Reply ε α)} {i : ι} (arg : Arg)
      (hi : tasks i = none) :
      Move (s, tasks) (begins arg s, Function.update tasks i (some (pass arg)))
  | call {s s' : σ} {tasks : ι → Option (Task Op Reply ε α)} {i : ι} {op : Op}
      {next : Except ε (Reply op) → Task Op Reply ε α} {r : Except ε (Reply op)}
      (hi : tasks i = some (.call op next)) (h : serves i s op r s') :
      Move (s, tasks) (s', Function.update tasks i (some (next r)))
  | stop {s : σ} {tasks : ι → Option (Task Op Reply ε α)} {i : ι} {t : Task Op Reply ε α}
      (hi : tasks i = some t) : Move (s, tasks) (ends i s, Function.update tasks i none)

/-- Any number of moves. -/
def Moves : System Op Reply ε α σ ι → System Op Reply ε α σ ι → Prop :=
  Relation.ReflTransGen (Move serves begins ends pass)

/-- No process has started. -/
def idle (s : σ) : System Op Reply ε α σ ι := (s, fun _ => none)

variable {serves begins ends pass} in
/-- One process may go on by any number of answered calls. -/
theorem moves_of_reaches {i : ι} {s s' : σ} {t t' : Task Op Reply ε α}
    {tasks : ι → Option (Task Op Reply ε α)} (hi : tasks i = some t)
    (h : Reaches (serves i) (s, t) (s', t')) :
    Moves serves begins ends pass (s, tasks) (s', Function.update tasks i (some t')) := by
  generalize hc : (s', t') = c at h
  induction h generalizing s' t' with
  | refl =>
      obtain ⟨rfl, rfl⟩ := Prod.mk.inj hc
      rw [← hi, Function.update_eq_self]
      exact .refl
  | tail _ hs ih =>
      cases hs with
      | @call s₁ _ op next r hs =>
          obtain ⟨rfl, rfl⟩ := Prod.mk.inj hc
          have hmove : Move serves begins ends pass
              (s₁, Function.update tasks i (some (.call op next)))
              (s', Function.update (Function.update tasks i (some (.call op next))) i
                (some (next r))) :=
            .call (Function.update_self i _ tasks) hs
          rw [Function.update_idem] at hmove
          exact (ih rfl).tail hmove

/-! ## Rely and guarantee -/

variable (I : σ → Prop) (R : ι → σ → σ → Prop) (G : ι → σ → Op → Prop) (T : σ → σ → Prop)

/-- The environment of one process: the others move before every answer. -/
def Disturbed (i : ι) (s : σ) (op : Op) (r : Except ε (Reply op)) (s' : σ) : Prop :=
  ∃ s₁, R i s s₁ ∧ I s₁ ∧ serves i s₁ op r s'

/-- What process `i` does keeps the invariant, is a transition, and is what the others rely on. -/
def Guarantees (i : ι) (s s' : σ) : Prop := I s' ∧ T s s' ∧ ∀ j, j ≠ i → R j s s'

/-- The proof obligations of the rule. -/
structure RelyGuarantee : Prop where
  refl : ∀ i s, R i s s
  trans : ∀ i s s' s'', R i s s' → R i s' s'' → R i s s''
  start : ∀ i arg s, I s → Guarantees I R T i s (begins arg s)
  stop : ∀ i s, I s → Guarantees I R T i s (ends i s)
  call : ∀ i s s₁ op r s', G i s op → R i s s₁ → I s₁ → serves i s₁ op r s' →
    Guarantees I R T i s₁ s'
  process : ∀ i arg s, I s → Wp (Disturbed serves I R i) (G i) (fun _ _ => True) (fun _ _ => True)
    (pass arg) (begins arg s)

/-- The invariant holds, and every process is at a point from which it is verified. -/
def Sound (c : System Op Reply ε α σ ι) : Prop :=
  I c.1 ∧ ∀ i t, c.2 i = some t → ∃ s, R i s c.1 ∧
    Wp (Disturbed serves I R i) (G i) (fun _ _ => True) (fun _ _ => True) t s

variable {serves begins ends pass I R G T}

omit [DecidableEq ι] in
theorem sound_idle {s : σ} (h : I s) :
    Sound serves I R G (idle s : System Op Reply ε α σ ι) :=
  ⟨h, fun _ _ ht => nomatch ht⟩

variable (hrule : RelyGuarantee serves begins ends pass I R G T)

include hrule

/-- The processes that did not move are where they were. -/
theorem RelyGuarantee.sound_update {s s' : σ} {tasks : ι → Option (Task Op Reply ε α)} {i : ι}
    {new : Option (Task Op Reply ε α)} (h : Sound serves I R G (s, tasks))
    (hg : Guarantees I R T i s s')
    (hnew : ∀ t, new = some t → ∃ s₀, R i s₀ s' ∧
      Wp (Disturbed serves I R i) (G i) (fun _ _ => True) (fun _ _ => True) t s₀) :
    Sound serves I R G (s', Function.update tasks i new) := by
  refine ⟨hg.1, fun j t ht => ?_⟩
  by_cases hij : j = i
  · subst hij
    change Function.update tasks j new j = some t at ht
    rw [Function.update_self] at ht
    exact hnew t ht
  · change Function.update tasks i new j = some t at ht
    rw [Function.update_of_ne hij] at ht
    obtain ⟨s₀, hR, hwp⟩ := h.2 j t ht
    exact ⟨s₀, hrule.trans j s₀ s s' hR (hg.2.2 j hij), hwp⟩

/-- The rule for one move. -/
theorem RelyGuarantee.move {c c' : System Op Reply ε α σ ι} (h : Sound serves I R G c)
    (hmove : Move serves begins ends pass c c') : Sound serves I R G c' ∧ T c.1 c'.1 := by
  cases hmove with
  | @start s tasks i arg hi =>
      have hg := hrule.start i arg s h.1
      refine ⟨hrule.sound_update h hg ?_, hg.2.1⟩
      rintro t ⟨⟩
      exact ⟨_, hrule.refl i _, hrule.process i arg s h.1⟩
  | @call s s' tasks i op next r hi hs =>
      obtain ⟨s₀, hR, hwp⟩ := h.2 i _ hi
      have hg := hrule.call i s₀ s op r s' hwp.1 hR h.1 hs
      refine ⟨hrule.sound_update h hg ?_, hg.2.1⟩
      rintro t ⟨⟩
      exact ⟨s', hrule.refl i s', hwp.2 r s' ⟨s, hR, h.1, hs⟩⟩
  | @stop s tasks i t hi =>
      have hg := hrule.stop i s h.1
      exact ⟨hrule.sound_update h hg fun t ht => (nomatch ht), hg.2.1⟩

/-- **The rule of processes on one state.** -/
theorem RelyGuarantee.moves (hrefl : ∀ s, T s s) (htrans : ∀ s s' s'', T s s' → T s' s'' → T s s'')
    {c c' : System Op Reply ε α σ ι} (h : Sound serves I R G c)
    (hmoves : Moves serves begins ends pass c c') : Sound serves I R G c' ∧ T c.1 c'.1 := by
  induction hmoves with
  | refl => exact ⟨h, hrefl _⟩
  | tail _ hmove ih =>
      obtain ⟨hsound, hT⟩ := hrule.move ih.1 hmove
      exact ⟨hsound, htrans _ _ _ ih.2 hT⟩

end Task

end OrmpIndexer.Foundation
