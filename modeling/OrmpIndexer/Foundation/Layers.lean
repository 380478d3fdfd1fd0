/-
# OrmpIndexer.Foundation.Layers — a store whose entries come in layers

Entries are added layer by layer, in the order of the layers, and taken back from the top. Every layer
knows its entries (`layer n k`), every entry its layer (`place`). `Layered layer lo hi store` says that
the store holds the entries of the layers from `lo` up to `hi` and no others. It is kept when the layers
from some level on are removed (`truncate`) and when layers with new keys are written on top (`extend`).
-/
import Mathlib.Data.Option.Basic
import Mathlib.Tactic.Common

namespace OrmpIndexer.Foundation

variable {κ ρ : Type} {layer layer' : Nat → κ → Option ρ} {store store' top : κ → Option ρ}
variable {lo mid hi : Nat}

/-- The store holds the entries of the layers `lo ≤ n < hi`. -/
def Layered (layer : Nat → κ → Option ρ) (lo hi : Nat) (store : κ → Option ρ) : Prop :=
  ∀ k r, store k = some r ↔ ∃ n, lo ≤ n ∧ n < hi ∧ layer n k = some r

namespace Layered

theorem empty (h : ∀ k, store k = none) : Layered layer lo lo store := by
  intro k r
  rw [h k]
  refine iff_of_false (fun hr => (nomatch hr)) ?_
  rintro ⟨n, hlo, hhi, _⟩
  omega

theorem congr (h : Layered layer lo hi store) (hlayer : ∀ n, lo ≤ n → n < hi → layer n = layer' n) :
    Layered layer' lo hi store := by
  intro k r
  rw [h k r]
  constructor
  · rintro ⟨n, hlo, hhi, hr⟩
    exact ⟨n, hlo, hhi, by rw [← hlayer n hlo hhi, hr]⟩
  · rintro ⟨n, hlo, hhi, hr⟩
    exact ⟨n, hlo, hhi, by rw [hlayer n hlo hhi, hr]⟩

/-- Removing what lies at `mid` or above leaves the layers below. -/
theorem truncate (h : Layered layer lo hi store) {place : ρ → Nat}
    (hplace : ∀ n k r, layer n k = some r → place r = n) (hmid : mid ≤ hi)
    (hstore : ∀ k r, store' k = some r ↔ store k = some r ∧ place r < mid) :
    Layered layer lo mid store' := by
  intro k r
  rw [hstore k r, h k r]
  constructor
  · rintro ⟨⟨n, hlo, _, hr⟩, hlt⟩
    rw [hplace n k r hr] at hlt
    exact ⟨n, hlo, hlt, hr⟩
  · rintro ⟨n, hlo, hlt, hr⟩
    refine ⟨⟨n, hlo, by omega, hr⟩, ?_⟩
    rw [hplace n k r hr]
    exact hlt

/-- Writing layers on top adds them, if they share no key with the layers below. -/
theorem extend (h : Layered layer lo mid store) (htop : Layered layer mid hi top) (hlo : lo ≤ mid)
    (hmid : mid ≤ hi)
    (fresh : ∀ k r s, store k = some r → top k = some s → False)
    (hstore : ∀ k, store' k = (top k).or (store k)) : Layered layer lo hi store' := by
  intro k r
  rw [hstore k, Option.or_eq_some_iff, h k r, htop k r]
  constructor
  · rintro (⟨n, hn, hhi, hr⟩ | ⟨_, n, hn, hlt, hr⟩)
    · exact ⟨n, by omega, hhi, hr⟩
    · exact ⟨n, hn, by omega, hr⟩
  · rintro ⟨n, hn, hhi, hr⟩
    rcases Nat.lt_or_ge n mid with hbelow | habove
    · refine .inr ⟨?_, n, hn, hbelow, hr⟩
      have below : store k = some r := (h k r).mpr ⟨n, hn, hbelow, hr⟩
      cases hk : top k with
      | none => rfl
      | some s => exact (fresh k r s below hk).elim
    · exact .inl ⟨n, habove, hhi, hr⟩

end Layered

end OrmpIndexer.Foundation
