/-
# OrmpIndexer.Foundation.Lockstep — where two machines answer alike

A machine answers a call and goes on from its next state, or the call does not return. Two machines are in
lockstep under a relation of their states if every call that is allowed returns in both and leaves related
states, and the replies are the same exactly where the call is one of those that are answered alike
(`Lockstep`). From related states they then answer any sequence of allowed calls, and with the same replies
exactly if each call of the sequence is answered alike (`Lockstep.answers`).

What is allowed and what is answered alike may depend on the calls before, and so may the relation: all are
told what they were.
-/
import Mathlib.Tactic.Common

namespace OrmpIndexer.Foundation

variable {Call Reply σ τ : Type}

/-- A machine; `none` is a call that does not return. -/
abbrev Machine (Call Reply σ : Type) := σ → Call → Option (Reply × σ)

namespace Machine

/-- The replies to a sequence of calls, and the state after the last one. -/
def answers (f : Machine Call Reply σ) : σ → List Call → Option (List Reply × σ)
  | s, [] => some ([], s)
  | s, call :: calls =>
      match f s call with
      | none => none
      | some (reply, s') => (answers f s' calls).map fun (replies, last) => (reply :: replies, last)

theorem answers_cons {f : Machine Call Reply σ} {s s' : σ} {call : Call} {reply : Reply}
    (h : f s call = some (reply, s')) (calls : List Call) :
    f.answers s (call :: calls) =
      (f.answers s' calls).map fun (replies, last) => (reply :: replies, last) := by
  rw [answers, h]

/-- There is a reply to every call. -/
theorem length_of_answers {f : Machine Call Reply σ} {calls : List Call} {s s' : σ}
    {replies : List Reply} (h : f.answers s calls = some (replies, s')) :
    replies.length = calls.length := by
  induction calls generalizing s replies with
  | nil =>
      cases h
      rfl
  | cons call calls ih =>
      rw [answers] at h
      split at h
      · cases h
      · obtain ⟨⟨rest, last⟩, hrest, heq⟩ := Option.map_eq_some_iff.mp h
        cases heq
        rw [List.length_cons, List.length_cons, ih hrest]

end Machine

/-- Every call of the sequence is allowed after the calls before it. -/
def Legal (allowed : List Call → Call → Prop) (calls : List Call) : Prop :=
  ∀ past call rest, calls = past ++ call :: rest → allowed past call

@[simp]
theorem legal_nil {allowed : List Call → Call → Prop} : Legal allowed [] := by
  intro past call rest h
  simp at h

@[simp]
theorem legal_cons {allowed : List Call → Call → Prop} {call : Call} {calls : List Call} :
    Legal allowed (call :: calls) ↔
      allowed [] call ∧ Legal (fun past => allowed (call :: past)) calls := by
  constructor
  · intro h
    refine ⟨h [] call calls rfl, fun past next rest hcalls => ?_⟩
    exact h (call :: past) next rest (by rw [hcalls]; rfl)
  · rintro ⟨hfirst, hrest⟩ past next rest hcalls
    cases past with
    | nil =>
        cases hcalls
        exact hfirst
    | cons _ past =>
        obtain ⟨rfl, htail⟩ := List.cons.inj hcalls
        exact hrest past next rest htail

/-- An allowed call returns in both machines and keeps the relation. The replies are one where the call is
answered alike. -/
structure Lockstep (f : Machine Call Reply σ) (g : Machine Call Reply τ)
    (allowed alike : List Call → Call → Prop) (R : List Call → σ → τ → Prop) : Prop where
  step : ∀ {past call s t}, R past s t → allowed past call →
    ∃ reply reply' s' t', f s call = some (reply, s') ∧ g t call = some (reply', t') ∧
      (reply = reply' ↔ alike past call) ∧ R (past ++ [call]) s' t'

namespace Lockstep

variable {f : Machine Call Reply σ} {g : Machine Call Reply τ}
variable {allowed alike : List Call → Call → Prop} {R : List Call → σ → τ → Prop}

theorem answers_from (h : Lockstep f g allowed alike R) (past : List Call) {calls : List Call} {s : σ}
    {t : τ} (hR : R past s t) (legal : Legal (fun more => allowed (past ++ more)) calls) :
    ∃ replies replies' s' t', f.answers s calls = some (replies, s') ∧
      g.answers t calls = some (replies', t') ∧
      (replies = replies' ↔ Legal (fun more => alike (past ++ more)) calls) ∧
      R (past ++ calls) s' t' := by
  induction calls generalizing past s t with
  | nil =>
      refine ⟨[], [], s, t, rfl, rfl, ?_, by rwa [List.append_nil]⟩
      exact iff_of_true rfl legal_nil
  | cons call calls ih =>
      obtain ⟨hnow, hlater⟩ := legal_cons.mp legal
      rw [List.append_nil] at hnow
      obtain ⟨reply, reply', s₁, t₁, hf, hg, hreply, hR₁⟩ := h.step hR hnow
      have hpast : ∀ more : List Call, past ++ [call] ++ more = past ++ call :: more := fun more => by
        rw [List.append_assoc, List.singleton_append]
      have hlater : Legal (fun more => allowed (past ++ [call] ++ more)) calls := by
        simpa only [hpast] using hlater
      obtain ⟨replies, replies', s', t', hfs, hgs, hreplies, hR'⟩ := ih (past ++ [call]) hR₁ hlater
      refine ⟨reply :: replies, reply' :: replies', s', t', ?_, ?_, ?_, ?_⟩
      · rw [Machine.answers_cons hf, hfs]
        rfl
      · rw [Machine.answers_cons hg, hgs]
        rfl
      · simp only [hpast] at hreplies
        rw [List.cons.injEq, legal_cons, List.append_nil]
        exact and_congr hreply hreplies
      · rwa [hpast] at hR'

/-- Machines in lockstep answer any legal sequence of calls, and alike where each call is. -/
theorem answers (h : Lockstep f g allowed alike R) {calls : List Call} {s : σ} {t : τ} (hR : R [] s t)
    (legal : Legal allowed calls) :
    ∃ replies replies' s' t', f.answers s calls = some (replies, s') ∧
      g.answers t calls = some (replies', t') ∧ (replies = replies' ↔ Legal alike calls) ∧
      R calls s' t' :=
  h.answers_from [] hR legal

end Lockstep

end OrmpIndexer.Foundation
