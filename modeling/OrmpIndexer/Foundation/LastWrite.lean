/-
# OrmpIndexer.Foundation.LastWrite — the last element of a list that satisfies a condition

Stores whose writes overwrite each other are described by the LAST relevant write: the row under a
key is the last one written there, a column holds the value of the last update that hit it. This
module is the small theory of `lastWhere p l`, the last element of `l` that satisfies `p`:

* how it splits over `++`, so that a suffix of writes decides before the prefix is looked at;
* that it may be looked for in one part of the list, if only that part has satisfying elements;
* that on a sorted list it is the GREATEST element satisfying `p` (`lastWhere_pairwise_iff`), so
  that two sorted lists with the same satisfying elements have the same last one
  (`lastWhere_congr_of_pairwise`).
-/
import Mathlib.Data.List.Find
import Mathlib.Data.List.Induction
import Mathlib.Data.List.Sort
import Mathlib.Tactic.Common

namespace OrmpIndexer.Foundation

variable {α β κ : Type}

/-- The last element of a list that satisfies `p`. -/
def lastWhere (p : α → Bool) (l : List α) : Option α := l.reverse.find? p

@[simp]
theorem lastWhere_nil (p : α → Bool) : lastWhere p [] = none := rfl

@[simp]
theorem lastWhere_singleton (p : α → Bool) (x : α) :
    lastWhere p [x] = if p x then some x else none := by
  simp [lastWhere, List.find?_cons]
  cases p x <;> rfl

/-- The suffix decides; the prefix is read only where the suffix has no satisfying element. -/
theorem lastWhere_append (p : α → Bool) (l m : List α) :
    lastWhere p (l ++ m) = (lastWhere p m).or (lastWhere p l) := by
  simp [lastWhere, List.find?_append]

theorem lastWhere_concat (p : α → Bool) (l : List α) (x : α) :
    lastWhere p (l ++ [x]) = if p x then some x else lastWhere p l := by
  rw [lastWhere_append, lastWhere_singleton]
  cases p x <;> rfl

theorem lastWhere_map (p : β → Bool) (f : α → β) (l : List α) :
    lastWhere p (l.map f) = (lastWhere (fun x => p (f x)) l).map f := by
  rw [lastWhere, lastWhere, ← List.map_reverse, List.find?_map]
  rfl

theorem mem_of_lastWhere {p : α → Bool} {l : List α} {x : α} (h : lastWhere p l = some x) :
    x ∈ l :=
  List.mem_reverse.mp (List.mem_of_find?_eq_some h)

theorem holds_of_lastWhere {p : α → Bool} {l : List α} {x : α} (h : lastWhere p l = some x) :
    p x = true :=
  List.find?_some h

theorem lastWhere_eq_none_iff {p : α → Bool} {l : List α} :
    lastWhere p l = none ↔ ∀ x ∈ l, p x = false := by
  simp [lastWhere]

theorem lastWhere_isSome_iff {p : α → Bool} {l : List α} :
    (lastWhere p l).isSome ↔ ∃ x ∈ l, p x = true := by
  simp [lastWhere]

/-- Where something satisfies `p`, `lastWhere` finds something. -/
theorem exists_lastWhere {p : α → Bool} {l : List α} {x : α} (hx : x ∈ l) (hp : p x = true) :
    ∃ y, lastWhere p l = some y :=
  Option.isSome_iff_exists.mp (lastWhere_isSome_iff.mpr ⟨x, hx, hp⟩)

/-- The last satisfying element, and the part of the list after it. -/
theorem exists_eq_append_of_lastWhere {p : α → Bool} {l : List α} {x : α}
    (h : lastWhere p l = some x) : ∃ l₁ l₂, l = l₁ ++ x :: l₂ ∧ ∀ y ∈ l₂, p y = false := by
  obtain ⟨_, as, bs, hl, has⟩ := List.find?_eq_some_iff_append.mp h
  refine ⟨bs.reverse, as.reverse, ?_, fun y hy => by simpa using has y (List.mem_reverse.mp hy)⟩
  rw [← List.reverse_reverse l, hl]
  simp

/-- If all satisfying elements are one and the same, that one is the last. -/
theorem lastWhere_eq_of_forall {p : α → Bool} {l : List α} {x : α} (hx : x ∈ l) (hp : p x = true)
    (h : ∀ y ∈ l, p y = true → y = x) : lastWhere p l = some x := by
  obtain ⟨y, hy⟩ := exists_lastWhere hx hp
  rw [hy, h y (mem_of_lastWhere hy) (holds_of_lastWhere hy)]

/-- If one part alone has satisfying elements, the last of the whole is the last of that part. -/
theorem lastWhere_flatMap_of_unique {p : α → Bool} {f : β → List α} {l : List β} {b : β} (hb : b ∈ l)
    (h : ∀ c ∈ l, c ≠ b → ∀ x ∈ f c, p x = false) : lastWhere p (l.flatMap f) = lastWhere p (f b) := by
  induction l with
  | nil => cases hb
  | cons c l ih =>
      have htail : ∀ d ∈ l, d ≠ b → ∀ x ∈ f d, p x = false :=
        fun d hd => h d (List.mem_cons_of_mem c hd)
      rw [List.flatMap_cons, lastWhere_append]
      by_cases hmem : b ∈ l
      · rw [ih hmem htail]
        rcases eq_or_ne c b with rfl | hne
        · cases lastWhere p (f c) <;> rfl
        · rw [lastWhere_eq_none_iff.mpr (h c List.mem_cons_self hne), Option.or_none]
      · obtain rfl : b = c := (List.mem_cons.mp hb).resolve_right hmem
        have none : lastWhere p (l.flatMap f) = none := by
          apply lastWhere_eq_none_iff.mpr
          intro x hx
          obtain ⟨d, hd, hx⟩ := List.mem_flatMap.mp hx
          exact htail d hd (fun hdb => hmem (hdb ▸ hd)) x hx
        rw [none, Option.none_or]

/-! ## Sorted lists -/

/-- On a list sorted by an order that is antisymmetric on it, the last element satisfying `p` is the
greatest one. -/
theorem lastWhere_pairwise_iff {le : α → α → Prop} {p : α → Bool} {l : List α} {x : α}
    (hs : l.Pairwise le) (refl : ∀ y, le y y)
    (anti : ∀ y ∈ l, ∀ z ∈ l, le y z → le z y → y = z) :
    lastWhere p l = some x ↔ x ∈ l ∧ p x = true ∧ ∀ y ∈ l, p y = true → le y x := by
  have greatest : ∀ {z : α}, lastWhere p l = some z → ∀ y ∈ l, p y = true → le y z := by
    clear anti
    induction l using List.reverseRecOn with
    | nil => intro z hz; simp at hz
    | append_singleton l w ih =>
        intro z hz y hy hpy
        rw [List.pairwise_append] at hs
        obtain ⟨hl, _, hlw⟩ := hs
        rw [lastWhere_concat] at hz
        rcases List.mem_append.mp hy with hy | hy
        · split at hz
          · cases hz
            exact hlw y hy _ (List.mem_singleton_self _)
          · exact ih hl hz y hy hpy
        · obtain rfl := List.mem_singleton.mp hy
          rw [if_pos hpy] at hz
          cases hz
          exact refl _
  constructor
  · intro h
    exact ⟨mem_of_lastWhere h, holds_of_lastWhere h, greatest h⟩
  · rintro ⟨hx, hp, hmax⟩
    obtain ⟨z, hz⟩ := exists_lastWhere hx hp
    have hzx : le z x := hmax z (mem_of_lastWhere hz) (holds_of_lastWhere hz)
    rw [hz, anti z (mem_of_lastWhere hz) x hx hzx (greatest hz x hx hp)]

/-- Two lists sorted by one order, with the same elements satisfying `p`, have the same last one. -/
theorem lastWhere_congr_of_pairwise {le : α → α → Prop} {p : α → Bool} {l m : List α}
    (hl : l.Pairwise le) (hm : m.Pairwise le) (refl : ∀ y, le y y)
    (antil : ∀ y ∈ l, ∀ z ∈ l, le y z → le z y → y = z)
    (antim : ∀ y ∈ m, ∀ z ∈ m, le y z → le z y → y = z)
    (h : ∀ x, p x = true → (x ∈ l ↔ x ∈ m)) : lastWhere p l = lastWhere p m := by
  apply Option.ext
  intro x
  rw [lastWhere_pairwise_iff hl refl antil, lastWhere_pairwise_iff hm refl antim]
  constructor
  · rintro ⟨hx, hp, hmax⟩
    exact ⟨(h x hp).mp hx, hp, fun y hy hpy => hmax y ((h y hpy).mpr hy) hpy⟩
  · rintro ⟨hx, hp, hmax⟩
    exact ⟨(h x hp).mpr hx, hp, fun y hy hpy => hmax y ((h y hpy).mp hy) hpy⟩

end OrmpIndexer.Foundation
