/-
# OrmpIndexer.Datalens.Pacer — requests that keep a distance

`wait_for_request_slot` of `datalens/client.rs`. All clones of a client share one `request_pacer`: the
instant of the last request behind a lock. A caller takes the lock, compares that instant with the clock,
and either writes the clock into it and goes on to send its request, or gives the lock back, sleeps and
tries again. A caller that sleeps may be dropped, which is what happens to the other chains of `run_once`
when one of them fails.

`Stage` is where a caller is in this code, `advance` is what it does next, and `run` lets any number of
callers take turns between any two of their steps, with a clock that goes on. The requests themselves are
not here: a caller that has its slot may send its request at any time after.

The slots keep their distance (`slots_spaced`), and a caller is sent to sleep again only if somebody else
had a slot in the meantime (`refused_le`).
-/
import OrmpIndexer.Foundation.Spacing
import Mathlib.Data.List.Basic
import Mathlib.Logic.Relation
import Mathlib.Logic.Function.Basic

namespace OrmpIndexer.Pacer

open Foundation

/-- What the callers share: the clock, the `request_pacer` with its lock, and the slots they were given,
the LATEST FIRST. -/
structure Shared where
  now : Nat
  lastRequestAt : Option Nat
  locked : Bool
  slots : List Nat
deriving DecidableEq, Repr

/-- Where a caller is in `wait_for_request_slot`. -/
inductive Stage where
  | outside
  | entering
  /-- At the top of the loop. -/
  | queued
  | locked
  /-- It has seen that a request is due, and holds the lock. -/
  | due
  /-- Its `delay` is known, and the guard is about to be dropped. -/
  | unlocking (delay : Option Nat)
  | pausing (delay : Nat)
  | asleep (wake : Nat)
  /-- It has its slot. -/
  | sending
deriving DecidableEq, Repr

/-- The stages in which the guard is alive. -/
def Stage.holds : Stage → Bool
  | locked | due | unlocking _ => true
  | _ => false

/-- The next step of a caller; `none` where it has to wait. Each step that reads the clock reads it once. -/
def advance (minInterval : Nat) : Stage → Shared → Option (Stage × Shared)
  | .outside, _ => none
  | .entering, p => if minInterval = 0 then some (.sending, p) else some (.queued, p)
  | .queued, p => if p.locked then none else some (.locked, { p with locked := true })
  | .locked, p =>
      match p.lastRequestAt with
      | some lastStartedAt =>
          let elapsed := p.now - lastStartedAt
          if minInterval ≤ elapsed then some (.due, p)
          else some (.unlocking (some (minInterval - elapsed)), p)
      | none => some (.due, p)
  | .due, p =>
      some (.unlocking none, { p with lastRequestAt := some p.now, slots := p.now :: p.slots })
  | .unlocking none, p => some (.sending, { p with locked := false })
  | .unlocking (some delay), p => some (.pausing delay, { p with locked := false })
  | .pausing delay, p => some (.asleep (p.now + delay), p)
  | .asleep wake, p => if wake ≤ p.now then some (.queued, p) else none
  | .sending, p => some (.outside, p)

section

variable {ι : Type} [DecidableEq ι]

/-- The callers and what they share. -/
abbrev System (ι : Type) := Shared × (ι → Stage)

/-- Time passes; a caller comes, goes on, or is dropped while it sleeps. -/
inductive Action (ι : Type) where
  | tick (time : Nat)
  | enter (i : ι)
  | advance (i : ι)
  | drop (i : ι)

/-- One step of the system; `none` if the caller is not there, or has to wait. -/
def act (minInterval : Nat) : Action ι → System ι → Option (System ι)
  | .tick time, (p, stages) => some ({ p with now := p.now + time }, stages)
  | .enter i, (p, stages) =>
      if stages i = .outside then some (p, Function.update stages i .entering) else none
  | .advance i, (p, stages) =>
      (advance minInterval (stages i) p).map fun next => (next.2, Function.update stages i next.1)
  | .drop i, (p, stages) =>
      match stages i with
      | .asleep _ => some (p, Function.update stages i .outside)
      | _ => none

/-- The steps one after the other. -/
def run (minInterval : Nat) : List (Action ι) → System ι → Option (System ι)
  | [], c => some c
  | action :: actions, c => (act minInterval action c).bind (run minInterval actions)

/-- A client that was made at this instant, before its first request. -/
def idle (now : Nat) : System ι := (⟨now, none, false, []⟩, fun _ => .outside)

/-! ## The steps of a caller -/

/-- What a step of a caller does. -/
inductive Does (minInterval : Nat) : Stage → Shared → Stage → Shared → Prop where
  | skip {p : Shared} (hzero : minInterval = 0) : Does minInterval .entering p .sending p
  | queue {p : Shared} (hpos : 0 < minInterval) : Does minInterval .entering p .queued p
  | lock {p : Shared} (hfree : p.locked = false) :
      Does minInterval .queued p .locked { p with locked := true }
  | find {p : Shared} (hdue : ∀ slot, p.lastRequestAt = some slot → slot + minInterval ≤ p.now) :
      Does minInterval .locked p .due p
  | refuse {p : Shared} {slot : Nat} (hslot : p.lastRequestAt = some slot)
      (hearly : p.now - slot < minInterval) :
      Does minInterval .locked p (.unlocking (some (minInterval - (p.now - slot)))) p
  | take {p : Shared} : Does minInterval .due p (.unlocking none)
      { p with lastRequestAt := some p.now, slots := p.now :: p.slots }
  | release {p : Shared} :
      Does minInterval (.unlocking none) p .sending { p with locked := false }
  | giveUp {p : Shared} {delay : Nat} :
      Does minInterval (.unlocking (some delay)) p (.pausing delay) { p with locked := false }
  | sleep {p : Shared} {delay : Nat} : Does minInterval (.pausing delay) p (.asleep (p.now + delay)) p
  | wake {p : Shared} {wake : Nat} (hwake : wake ≤ p.now) : Does minInterval (.asleep wake) p .queued p
  | leave {p : Shared} : Does minInterval .sending p .outside p

/-- The steps of a caller, once and for all. `hpast` makes `elapsed` the time since the last request. -/
theorem does_of_advance {minInterval : Nat} {stage stage' : Stage} {p p' : Shared}
    (hpast : ∀ slot, p.lastRequestAt = some slot → slot ≤ p.now)
    (h : advance minInterval stage p = some (stage', p')) : Does minInterval stage p stage' p' := by
  cases stage with
  | outside => cases h
  | entering =>
      rw [advance] at h
      split at h <;> cases h
      · exact .skip ‹_›
      · exact .queue (Nat.pos_of_ne_zero ‹_›)
  | queued =>
      rw [advance] at h
      split at h <;> cases h
      rename_i hfree
      exact .lock (Bool.eq_false_iff.mpr hfree)
  | locked =>
      rw [advance] at h
      split at h
      · rename_i slot hslot
        dsimp only at h
        have := hpast slot hslot
        split at h <;> cases h
        · refine .find fun slot' hslot' => ?_
          obtain rfl := Option.some.inj (hslot.symm.trans hslot')
          omega
        · exact .refuse hslot (by omega)
      · rename_i hnone
        cases h
        refine .find fun slot hslot => ?_
        rw [hnone] at hslot
        cases hslot
  | due =>
      cases h
      exact .take
  | unlocking delay =>
      cases delay with
      | none =>
          cases h
          exact .release
      | some delay =>
          cases h
          exact .giveUp
  | pausing delay =>
      cases h
      exact .sleep
  | asleep wake =>
      rw [advance] at h
      split at h <;> cases h
      exact .wake ‹_›
  | sending =>
      cases h
      exact .leave

/-! ## The lock -/

/-- What one step of a caller means for the lock. -/
inductive Locking (stage stage' : Stage) (p p' : Shared) : Prop where
  | same (hholds : stage'.holds = stage.holds) (hlocked : p'.locked = p.locked)
  | takes (hfree : p.locked = false) (hholds : stage.holds = false) (hlocked : p'.locked = true)
  | releases (hholds : stage.holds = true) (hout : stage'.holds = false) (hlocked : p'.locked = false)

theorem Does.locking {minInterval : Nat} {stage stage' : Stage} {p p' : Shared}
    (h : Does minInterval stage p stage' p') : Locking stage stage' p p' := by
  cases h with
  | lock hfree => exact .takes hfree rfl rfl
  | release => exact .releases rfl rfl rfl
  | giveUp => exact .releases rfl rfl rfl
  | _ => exact .same rfl rfl

/-- The lock is taken by whoever holds a guard, and that is at most one. -/
structure Guarded (locked : Bool) (stages : ι → Stage) : Prop where
  taken : ∀ i, (stages i).holds = true → locked = true
  exclusive : ∀ i j, (stages i).holds = true → (stages j).holds = true → i = j

theorem Guarded.update {p p' : Shared} {stages : ι → Stage} {i : ι} {stage : Stage}
    (h : Guarded p.locked stages) (hlocking : Locking (stages i) stage p p') :
    Guarded p'.locked (Function.update stages i stage) := by
  have own : (Function.update stages i stage i).holds = stage.holds := by
    rw [Function.update_self]
  have other : ∀ j, j ≠ i → (Function.update stages i stage j).holds = (stages j).holds :=
    fun j hj => by rw [Function.update_of_ne hj]
  cases hlocking with
  | same hholds hlocked =>
      have all : ∀ j, (Function.update stages i stage j).holds = (stages j).holds := by
        intro j
        by_cases hj : j = i
        · rw [hj, own, hholds]
        · exact other j hj
      refine ⟨fun j hj => ?_, fun j k hj hk => ?_⟩
      · rw [hlocked]
        exact h.taken j ((all j).symm.trans hj)
      · exact h.exclusive j k ((all j).symm.trans hj) ((all k).symm.trans hk)
  | takes hfree hholds hlocked =>
      -- nobody else holds a guard of a free lock
      have alone : ∀ j, (Function.update stages i stage j).holds = true → j = i := by
        intro j hj
        by_contra hne
        rw [other j hne] at hj
        have := h.taken j hj
        rw [hfree] at this
        cases this
      exact ⟨fun _ _ => hlocked, fun j k hj hk => (alone j hj).trans (alone k hk).symm⟩
  | releases hholds hout hlocked =>
      have none : ∀ j, (Function.update stages i stage j).holds = false := by
        intro j
        by_cases hj : j = i
        · rw [hj, own, hout]
        · rw [other j hj, Bool.eq_false_iff]
          exact fun hj' => hj (h.exclusive j i hj' hholds)
      refine ⟨fun j hj => ?_, fun j k hj _ => ?_⟩
      · rw [none j] at hj
        cases hj
      · rw [none j] at hj
        cases hj

/-! ## What holds in every state -/

structure Sound (minInterval : Nat) (c : System ι) : Prop where
  guarded : Guarded c.1.locked c.2
  last : c.1.lastRequestAt = c.1.slots.head?
  past : ∀ slot, c.1.lastRequestAt = some slot → slot ≤ c.1.now
  due : ∀ i, c.2 i = .due → ∀ slot, c.1.lastRequestAt = some slot → slot + minInterval ≤ c.1.now
  spaced : Spaced minInterval c.1.slots

omit [DecidableEq ι] in
theorem sound_idle (minInterval now : Nat) : Sound minInterval (idle now : System ι) where
  guarded := ⟨by rintro _ ⟨⟩, by rintro _ _ ⟨⟩⟩
  last := rfl
  past := by rintro slot ⟨⟩
  due := by rintro i ⟨⟩
  spaced := spaced_nil

/-- A caller writes the clock where a request is due, and changes nothing but the lock elsewhere. -/
theorem Does.unchanged {minInterval : Nat} {stage stage' : Stage} {p p' : Shared}
    (h : Does minInterval stage p stage' p') :
    (p'.now = p.now ∧ p'.lastRequestAt = p.lastRequestAt ∧ p'.slots = p.slots) ∨
      (stage = .due ∧ stage' = .unlocking none ∧
        p' = { p with lastRequestAt := some p.now, slots := p.now :: p.slots }) := by
  cases h with
  | take => exact .inr ⟨rfl, rfl, rfl⟩
  | _ => exact .inl ⟨rfl, rfl, rfl⟩

theorem Does.due {minInterval : Nat} {stage : Stage} {p p' : Shared}
    (h : Does minInterval stage p .due p') :
    ∀ slot, p'.lastRequestAt = some slot → slot + minInterval ≤ p'.now := by
  cases h with
  | find hdue => exact hdue

variable {minInterval : Nat}

theorem Sound.does {p p' : Shared} {stages : ι → Stage} {i : ι} {stage : Stage}
    (h : Sound minInterval (p, stages)) (hdoes : Does minInterval (stages i) p stage p') :
    Sound minInterval (p', Function.update stages i stage) := by
  have guarded := h.guarded.update hdoes.locking
  have own : Function.update stages i stage i = stage := Function.update_self ..
  rcases hdoes.unchanged with ⟨hnow, hlast, hslots⟩ | ⟨hstage, rfl, rfl⟩
  · refine ⟨guarded, ?_, ?_, fun j hj => ?_, ?_⟩
    · exact hlast.trans (h.last.trans (congrArg _ hslots.symm))
    · intro slot hslot
      exact (h.past slot (hlast.symm.trans hslot)).trans_eq hnow.symm
    · by_cases hji : j = i
      · subst hji
        obtain rfl : stage = .due := own.symm.trans hj
        exact hdoes.due
      · intro slot hslot
        have hj' : stages j = .due := (Function.update_of_ne hji ..).symm.trans hj
        exact (h.due j hj' slot (hlast.symm.trans hslot)).trans_eq hnow.symm
    · show Spaced minInterval p'.slots
      rw [hslots]
      exact h.spaced
  · have hdue := h.due i hstage
    refine ⟨guarded, rfl, fun slot hslot => ?_, fun j hj => ?_, ?_⟩
    · exact (Option.some.inj hslot).symm.le
    · -- the caller that wrote holds the guard, so no other one is at the same place
      by_cases hji : j = i
      · subst hji
        have : Stage.unlocking none = Stage.due := own.symm.trans hj
        cases this
      · have hj' : stages j = .due := (Function.update_of_ne hji ..).symm.trans hj
        refine absurd (h.guarded.exclusive j i ?_ ?_) hji
        · exact congrArg Stage.holds hj'
        · exact congrArg Stage.holds hstage
    · exact spaced_cons.mpr ⟨fun slot hslot => hdue slot (h.last.trans hslot), h.spaced⟩

/-! ## Steps of the system -/

/-- What a step of the system does. -/
inductive Move (minInterval : Nat) : System ι → System ι → Prop where
  | tick {p : Shared} {stages : ι → Stage} (time : Nat) :
      Move minInterval (p, stages) ({ p with now := p.now + time }, stages)
  | enter {p : Shared} {stages : ι → Stage} {i : ι} (hi : stages i = .outside) :
      Move minInterval (p, stages) (p, Function.update stages i .entering)
  | advance {p p' : Shared} {stages : ι → Stage} {i : ι} {stage : Stage}
      (hi : Does minInterval (stages i) p stage p') :
      Move minInterval (p, stages) (p', Function.update stages i stage)
  | drop {p : Shared} {stages : ι → Stage} {i : ι} {wake : Nat} (hi : stages i = .asleep wake) :
      Move minInterval (p, stages) (p, Function.update stages i .outside)

theorem Sound.move {c : System ι} (h : Sound minInterval c) {action : Action ι} {c' : System ι}
    (hact : act minInterval action c = some c') : Move minInterval c c' := by
  obtain ⟨p, stages⟩ := c
  cases action with
  | tick time =>
      cases hact
      exact .tick time
  | enter i =>
      rw [act] at hact
      split at hact <;> cases hact
      exact .enter ‹_›
  | advance i =>
      obtain ⟨⟨stage, p'⟩, hadvance, hc⟩ := Option.map_eq_some_iff.mp hact
      subst hc
      exact .advance (does_of_advance h.past hadvance)
  | drop i =>
      rw [act] at hact
      split at hact <;> cases hact
      exact .drop ‹_›

/-- The lock is where it was if a caller that holds no guard is moved to where it holds none. -/
theorem Guarded.moved {locked : Bool} {stages : ι → Stage} {i : ι} {stage : Stage}
    (h : Guarded locked stages) (hbefore : (stages i).holds = false) (hafter : stage.holds = false) :
    Guarded locked (Function.update stages i stage) := by
  have hlocking : Locking (stages i) stage ⟨0, none, locked, []⟩ ⟨0, none, locked, []⟩ :=
    .same (hafter.trans hbefore.symm) rfl
  exact h.update hlocking

theorem Sound.moved {p : Shared} {stages : ι → Stage} {i : ι} {stage : Stage}
    (h : Sound minInterval (p, stages)) (hbefore : (stages i).holds = false)
    (hafter : stage.holds = false) : Sound minInterval (p, Function.update stages i stage) where
  guarded := h.guarded.moved hbefore hafter
  last := h.last
  past := h.past
  due j hj := by
    by_cases hji : j = i
    · subst hji
      obtain rfl : stage = .due := (Function.update_self ..).symm.trans hj
      cases hafter
    · exact h.due j ((Function.update_of_ne hji ..).symm.trans hj)
  spaced := h.spaced

theorem Move.sound {c c' : System ι} (hmove : Move minInterval c c') (h : Sound minInterval c) :
    Sound minInterval c' := by
  cases hmove with
  | @tick p stages time =>
      refine ⟨h.guarded, h.last, fun slot hslot => ?_, fun i hi slot hslot => ?_, h.spaced⟩
      · exact (h.past slot hslot).trans (Nat.le_add_right ..)
      · exact (h.due i hi slot hslot).trans (Nat.le_add_right ..)
  | enter hi => exact h.moved (by rw [hi]; rfl) rfl
  | advance hi => exact h.does hi
  | drop hi => exact h.moved (by rw [hi]; rfl) rfl

theorem sound_run {actions : List (Action ι)} {c c' : System ι} (h : Sound minInterval c)
    (hrun : run minInterval actions c = some c') : Sound minInterval c' := by
  induction actions generalizing c with
  | nil =>
      cases hrun
      exact h
  | cons action actions ih =>
      obtain ⟨c₁, hact, hrest⟩ := Option.bind_eq_some_iff.mp hrun
      exact ih ((h.move hact).sound h) hrest

/-- **The requests keep their distance.** Whatever the order in which any number of callers take turns, a
slot comes at least `min_interval` after the slot before it, so a window that is `k` intervals long has at most
`k` slots; and no two callers are ever at the pacer at once. -/
theorem slots_spaced {actions : List (Action ι)} {now : Nat} {c : System ι}
    (h : run minInterval actions (idle now) = some c) :
    (∀ i k later earlier, c.1.slots[i]? = some later → c.1.slots[i + k]? = some earlier →
        earlier + k * minInterval ≤ later) ∧
      (∀ start k, (within start (start + k * minInterval) c.1.slots).length ≤ k) ∧
      ∀ i j, (c.2 i).holds = true → (c.2 j).holds = true → i = j := by
  have sound := sound_run (sound_idle minInterval now) h
  exact ⟨fun i k _ _ hlater hearlier => sound.spaced.add_mul_le hlater hearlier,
    sound.spaced.window, sound.guarded.exclusive⟩

/-- Two callers at once: the second one sleeps for the rest of the interval. -/
def twoCallers : List (Action (Fin 2)) :=
  [.enter 0, .enter 1, .advance 0, .advance 1, .advance 0, .advance 0, .advance 0, .advance 0,
    .tick 100, .advance 1, .advance 1, .advance 1, .advance 1, .tick 150, .advance 1, .advance 1,
    .advance 1, .advance 1, .advance 1]

theorem slots_spaced_twoCallers :
    ∃ c, run 250 twoCallers (idle 0) = some c ∧ c.1.slots = [250, 0] ∧
      (within 0 (0 + 1 * 250) c.1.slots).length ≤ 1 := by
  have hruns : ((run 250 twoCallers (idle 0)).map (·.1.slots)) = some [250, 0] := by decide
  obtain ⟨c, hc, hslots⟩ := Option.map_eq_some_iff.mp hruns
  exact ⟨c, hc, hslots, (slots_spaced hc).2.1 0 1⟩

/-! ## Waiting for a slot -/

/-- The caller has asked for a slot and has none yet. -/
def Stage.waits : Stage → Bool
  | queued | locked | unlocking (some _) | pausing _ | asleep _ => true
  | _ => false

/-- One, if the caller has found that it came too early. -/
def refusal : Stage → Stage → Nat
  | .locked, .unlocking (some _) => 1
  | _, _ => 0

/-- A stretch of a run in which caller `i` waits, and how often it is refused. -/
inductive Waiting (minInterval : Nat) (i : ι) : System ι → System ι → Nat → Prop where
  | refl {c : System ι} (hwaits : (c.2 i).waits = true) : Waiting minInterval i c c 0
  | tail {c c' c'' : System ι} {refused : Nat} (action : Action ι)
      (h : Waiting minInterval i c c' refused) (hact : act minInterval action c' = some c'')
      (hwaits : (c''.2 i).waits = true) :
      Waiting minInterval i c c'' (refused + refusal (c'.2 i) (c''.2 i))

/-- The caller comes back early enough, and no earlier than the next request is due. -/
def Rested (minInterval : Nat) (stage : Stage) (p : Shared) : Prop :=
  ∀ slot, p.lastRequestAt = some slot →
    match stage with
    | .unlocking (some delay) | .pausing delay => slot + minInterval ≤ p.now + delay
    | .asleep wake => slot + minInterval ≤ wake
    | .queued | .locked => slot + minInterval ≤ p.now
    | _ => True

theorem Rested.tick {stage : Stage} {p : Shared} (h : Rested minInterval stage p) (time : Nat) :
    Rested minInterval stage { p with now := p.now + time } := by
  intro slot hslot
  have hrested := h slot hslot
  cases stage with
  | unlocking delay =>
      cases delay with
      | none => trivial
      | some delay =>
          dsimp only at hrested ⊢
          omega
  | asleep wake => exact hrested
  | queued | locked | pausing =>
      dsimp only at hrested ⊢
      omega
  | _ => trivial

/-- A caller that was refused is rested. -/
theorem rested_of_refused {p : Shared} {slot : Nat} (hslot : p.lastRequestAt = some slot)
    (hpast : slot ≤ p.now) :
    Rested minInterval (.unlocking (some (minInterval - (p.now - slot)))) p := by
  intro slot' hslot'
  obtain rfl := Option.some.inj (hslot.symm.trans hslot')
  dsimp only
  omega

/-- A rested caller that goes on waiting is rested, and is not refused. -/
theorem Rested.does {stage stage' : Stage} {p p' : Shared} (h : Rested minInterval stage p)
    (hdoes : Does minInterval stage p stage' p') (hbefore : stage.waits = true)
    (hafter : stage'.waits = true) : Rested minInterval stage' p' ∧ refusal stage stage' = 0 := by
  cases hdoes with
  | lock => exact ⟨h, rfl⟩
  | refuse hslot hearly =>
      have hrested := h _ hslot
      dsimp only at hrested
      omega
  | giveUp => exact ⟨h, rfl⟩
  | sleep => exact ⟨h, rfl⟩
  | wake hwake =>
      refine ⟨fun slot hslot => ?_, rfl⟩
      exact (h slot hslot).trans hwake
  | find => cases hafter
  | skip | queue | take | release | leave => cases hbefore

/-- What is known of a caller that has been waiting since `c`: for each time it was refused but the first one
somebody had a slot, and if that is all, then it is rested. -/
structure Paid (minInterval : Nat) (i : ι) (c c' : System ι) (refused : Nat) : Prop where
  more : c.1.slots.length ≤ c'.1.slots.length
  paid : refused + c.1.slots.length ≤ c'.1.slots.length + 1
  rested : refused + c.1.slots.length = c'.1.slots.length + 1 → Rested minInterval (c'.2 i) c'.1

omit [DecidableEq ι] in
theorem refusal_self (stage : Stage) : refusal stage stage = 0 := by
  cases stage <;> rfl

omit [DecidableEq ι] in
/-- A step after which the caller is where it was: the others may have had slots, and if not, the time of the
last one is the same. -/
theorem Paid.same {i : ι} {c c' c'' : System ι} {refused : Nat} (h : Paid minInterval i c c' refused)
    (hstage : c''.2 i = c'.2 i) (hmore : c'.1.slots.length ≤ c''.1.slots.length)
    (hrested : c''.1.slots.length = c'.1.slots.length → Rested minInterval (c'.2 i) c'.1 →
      Rested minInterval (c'.2 i) c''.1) :
    Paid minInterval i c c'' (refused + refusal (c'.2 i) (c''.2 i)) := by
  rw [hstage, refusal_self, Nat.add_zero]
  have hpaid := h.paid
  have hbefore := h.more
  refine ⟨by omega, by omega, fun hall => ?_⟩
  rw [hstage]
  exact hrested (by omega) (h.rested (by omega))

/-- A step of the caller itself: if all its refusals are paid for, it is rested and not refused again. -/
theorem Paid.own {i : ι} {c : System ι} {p p' : Shared} {stages : ι → Stage} {stage : Stage}
    {refused : Nat} (h : Paid minInterval i c (p, stages) refused)
    (sound : Sound minInterval (p, stages)) (hdoes : Does minInterval (stages i) p stage p')
    (hbefore : (stages i).waits = true) (hafter : stage.waits = true) :
    Paid minInterval i c (p', Function.update stages i stage) (refused + refusal (stages i) stage) := by
  have hslots : p'.slots = p.slots := by
    rcases hdoes.unchanged with ⟨_, _, hslots⟩ | ⟨hstage, _, _⟩
    · exact hslots
    · rw [hstage] at hbefore
      cases hbefore
  have hown : Function.update stages i stage i = stage := Function.update_self ..
  have hpaid : refused + c.1.slots.length ≤ p.slots.length + 1 := h.paid
  have hall : refused + c.1.slots.length = p.slots.length + 1 →
      Rested minInterval stage p' ∧ refusal (stages i) stage = 0 :=
    fun hall => (h.rested hall).does hdoes hbefore hafter
  refine ⟨?_, ?_, fun hnow => ?_⟩
  · show c.1.slots.length ≤ p'.slots.length
    rw [hslots]
    exact h.more
  · show refused + refusal (stages i) stage + c.1.slots.length ≤ p'.slots.length + 1
    have hone : refusal (stages i) stage ≤ 1 := by
      unfold refusal
      split <;> omega
    rw [hslots]
    rcases Nat.eq_or_lt_of_le hpaid with hpaid | hpaid
    · rw [(hall hpaid).2]
      omega
    · omega
  · show Rested minInterval (Function.update stages i stage i) p'
    replace hnow : refused + refusal (stages i) stage + c.1.slots.length = p'.slots.length + 1 := hnow
    rw [hslots] at hnow
    rw [hown]
    rcases Nat.eq_or_lt_of_le hpaid with hpaid | hpaid
    · exact (hall hpaid).1
    · -- it has just been refused, and sleeps until the next request is due
      have hrefused : refusal (stages i) stage ≠ 0 := by omega
      generalize stages i = before at hdoes hrefused
      cases hdoes with
      | refuse hslot _ => exact rested_of_refused hslot (sound.past _ hslot)
      | _ => exact absurd rfl hrefused

theorem Paid.move {i : ι} {c c' c'' : System ι} {refused : Nat} (h : Paid minInterval i c c' refused)
    (sound : Sound minInterval c') (hmove : Move minInterval c' c'') (hbefore : (c'.2 i).waits = true)
    (hafter : (c''.2 i).waits = true) :
    Paid minInterval i c c'' (refused + refusal (c'.2 i) (c''.2 i)) := by
  cases hmove with
  | tick time => exact h.same rfl (Nat.le_refl _) fun _ hrested => hrested.tick time
  | @enter p stages j hj =>
      have hij : i ≠ j := by
        rintro rfl
        dsimp only at hbefore
        rw [hj] at hbefore
        cases hbefore
      exact h.same (Function.update_of_ne hij ..) (Nat.le_refl _) fun _ hrested => hrested
  | @drop p stages j wake hj =>
      have hij : i ≠ j := by
        rintro rfl
        dsimp only at hafter
        rw [Function.update_self] at hafter
        cases hafter
      exact h.same (Function.update_of_ne hij ..) (Nat.le_refl _) fun _ hrested => hrested
  | @advance p p' stages j stage hdoes =>
      by_cases hij : i = j
      · subst hij
        have hown : Function.update stages i stage i = stage := Function.update_self ..
        dsimp only at hbefore hafter ⊢
        rw [hown] at hafter ⊢
        exact h.own sound hdoes hbefore hafter
      · refine h.same (Function.update_of_ne hij ..) ?_ fun hsame hrested => ?_
        · rcases hdoes.unchanged with ⟨_, _, hslots⟩ | ⟨_, _, rfl⟩
          · exact (congrArg List.length hslots).symm.le
          · exact Nat.le_succ _
        · rcases hdoes.unchanged with ⟨hnow, hlast, _⟩ | ⟨_, _, rfl⟩
          · intro slot hslot
            have hslot' := hrested slot (hlast.symm.trans hslot)
            dsimp only
            rw [hnow]
            exact hslot'
          · exact absurd hsame (Nat.succ_ne_self _)

/-- **Nobody waits for nothing.** While a caller waits, whatever the others do, each time it is refused but the
first one is a slot that another caller had in the meantime. -/
theorem refused_le {actions : List (Action ι)} {now : Nat} {c c' : System ι} {i : ι} {refused : Nat}
    (h : run minInterval actions (idle now) = some c) (hwaiting : Waiting minInterval i c c' refused) :
    refused + c.1.slots.length ≤ c'.1.slots.length + 1 := by
  have sound := sound_run (sound_idle minInterval now) h
  suffices Paid minInterval i c c' refused ∧ Sound minInterval c' ∧ (c'.2 i).waits = true from
    this.1.paid
  induction hwaiting with
  | refl hwaits =>
      refine ⟨⟨Nat.le_refl _, by omega, fun hall => ?_⟩, sound, hwaits⟩
      omega
  | tail _ _ hact hwaits ih =>
      obtain ⟨paid, sound', hbefore⟩ := ih
      have hmove := sound'.move hact
      exact ⟨paid.move sound' hmove hbefore hwaits, hmove.sound sound', hwaits⟩

/-- The first of two callers has its slot, and the second one is about to take the lock. -/
def secondQueued : List (Action (Fin 2)) :=
  [.enter 0, .advance 0, .advance 0, .advance 0, .advance 0, .advance 0, .enter 1, .advance 1]

/-- Its first refusal costs nobody a slot. -/
theorem refused_le_secondQueued :
    ∃ c c', run 250 secondQueued (idle 0) = some c ∧ Waiting 250 (1 : Fin 2) c c' 1 ∧
      1 + c.1.slots.length ≤ c'.1.slots.length + 1 := by
  let c := (run 250 secondQueued (idle 0)).getD (idle 0)
  let c₁ := (act 250 (.advance 1) c).getD c
  let c₂ := (act 250 (.advance 1) c₁).getD c₁
  have hruns : run 250 secondQueued (idle 0) = some c := rfl
  have hlocks : Waiting 250 1 c c₁ 0 := .tail (.advance 1) (.refl rfl) rfl rfl
  have hwaiting : Waiting 250 1 c c₂ 1 := .tail (.advance 1) hlocks rfl rfl
  exact ⟨c, c₂, hruns, hwaiting, refused_le hruns hwaiting⟩

end

end OrmpIndexer.Pacer
