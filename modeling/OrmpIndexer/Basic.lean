/-
# OrmpIndexer.Basic — u64 arithmetic and error chains

Block numbers and chain ids are `u64` in the source. They are natural numbers here, and every place
where the source adds or subtracts says how it treats the ends of the range: `checkedAdd` and
`checkedSub` are `checked_add` and `checked_sub`, `saturatingAdd` is `saturating_add`, and
`saturating_sub` is the subtraction of natural numbers.

An `anyhow::Error` is its chain of messages, the outermost context first.
-/
import OrmpIndexer.Foundation.Task
import OrmpIndexer.Foundation.Text

namespace OrmpIndexer

open Foundation

/-! ## u64 -/

/-- `u64::MAX`. -/
def u64Max : Nat := 18446744073709551615

/-- `checked_add` of two `u64`. -/
def checkedAdd (a b : Nat) : Option Nat := if a + b ≤ u64Max then some (a + b) else none

/-- `checked_sub` of two `u64`. -/
def checkedSub (a b : Nat) : Option Nat := if b ≤ a then some (a - b) else none

/-- `saturating_add` of two `u64`. -/
def saturatingAdd (a b : Nat) : Nat := min (a + b) u64Max

theorem checkedAdd_eq_some {a b c : Nat} : checkedAdd a b = some c ↔ c = a + b ∧ c ≤ u64Max := by
  unfold checkedAdd
  split
  · constructor
    · intro h
      cases h
      exact ⟨rfl, by assumption⟩
    · rintro ⟨rfl, _⟩
      rfl
  · apply iff_of_false (by simp)
    rintro ⟨rfl, _⟩
    contradiction

theorem checkedSub_eq_some {a b c : Nat} : checkedSub a b = some c ↔ b ≤ a ∧ c = a - b := by
  unfold checkedSub
  split <;> rename_i h
  · simp [h, eq_comm]
  · simp [h]

/-! ## Errors -/

/-- The messages of an `anyhow::Error`, outermost context first. -/
abbrev Error := List String

/-- `with_context` on a result: one more message around an error. -/
def context {α : Type} (message : String) (r : Except Error α) : Except Error α :=
  r.mapError (message :: ·)

/-- `context` on an option: the message is the whole error of `None`. -/
def contextOption {α : Type} (message : String) : Option α → Except Error α
  | some a => .ok a
  | none => .error [message]

/-- `ensure!`. -/
def ensure (p : Bool) (message : String) : Except Error Unit :=
  if p then .ok () else .error [message]

@[simp]
theorem ensure_eq_ok {p : Bool} {message : String} {u : Unit} :
    ensure p message = .ok u ↔ p = true := by
  cases p <;> simp [ensure]

@[simp]
theorem context_eq_ok {α : Type} {m : String} {r : Except Error α} {a : α} :
    context m r = .ok a ↔ r = .ok a := by
  cases r <;> simp [context, Except.mapError]

@[simp]
theorem contextOption_eq_ok {α : Type} {m : String} {o : Option α} {a : α} :
    contextOption m o = .ok a ↔ o = some a := by
  cases o <;> simp [contextOption]

/-- A sequence of fallible steps succeeds if its steps do. -/
theorem bind_eq_ok {α β : Type} {r : Except Error α} {f : α → Except Error β} {b : β} :
    r >>= f = .ok b ↔ ∃ a, r = .ok a ∧ f a = .ok b := by
  cases r <;> simp [bind, Except.bind]

/-- Collecting results: every element kept is the result of one of the list, and every element of the
list has one. -/
theorem mapM_eq_ok {α β : Type} {f : α → Except Error β} {l : List α} {kept : List β}
    (h : l.mapM f = .ok kept) :
    (∀ b ∈ kept, ∃ a ∈ l, f a = .ok b) ∧ ∀ a ∈ l, ∃ b ∈ kept, f a = .ok b := by
  induction l generalizing kept with
  | nil =>
      cases h
      simp
  | cons a l ih =>
      rw [List.mapM_cons] at h
      simp only [bind_eq_ok] at h
      obtain ⟨b, hb, rest, hrest, h⟩ := h
      cases h
      obtain ⟨hkept, hall⟩ := ih hrest
      constructor
      · intro c hc
        rcases List.mem_cons.mp hc with rfl | hc
        · exact ⟨a, List.mem_cons_self, hb⟩
        · obtain ⟨d, hd, hdc⟩ := hkept c hc
          exact ⟨d, List.mem_cons_of_mem a hd, hdc⟩
      · intro c hc
        rcases List.mem_cons.mp hc with rfl | hc
        · exact ⟨b, List.mem_cons_self, hb⟩
        · obtain ⟨d, hd, hdc⟩ := hall c hc
          exact ⟨d, List.mem_cons_of_mem b hd, hdc⟩

/-- `with_context` on an asynchronous function. -/
def withContext {Op : Type} {Reply : Op → Type} {α : Type} (message : String)
    (t : Task Op Reply Error α) : Task Op Reply Error α :=
  t.mapError (message :: ·)

end OrmpIndexer
