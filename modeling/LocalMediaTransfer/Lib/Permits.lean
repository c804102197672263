import Mathlib.Tactic

/-!
# A pool of permits with a queue

A counting semaphore whose waiting agents form a queue: an agent that finds no free permit is put at
the end, and a permit that is given back passes to the first agent in the queue at once.

* `Permits.acquire`, `Permits.release` — the operations.
* `Permits.Balanced` — every permit is free or held, and nobody waits while one is free.
* `acquire_inTurn`, `release_inTurn` — permits are granted in the order in which they were asked
  for.
-/

set_option autoImplicit false

namespace LocalMediaTransfer.Lib

/-- The free permits, and the agents that wait, in the order in which they asked. -/
structure Permits (ι : Type) where
  available : Nat
  waiters : List ι := []

namespace Permits

variable {ι : Type}

/-- Ask for a permit; the flag says whether it is granted at once. -/
def acquire (p : Permits ι) (i : ι) : Permits ι × Bool :=
  if 0 < p.available then ({ p with available := p.available - 1 }, true)
  else ({ p with waiters := p.waiters ++ [i] }, false)

/-- Give a permit back; it passes to the agent that is named. -/
def release (p : Permits ι) : Permits ι × Option ι :=
  match p.waiters with
  | [] => ({ p with available := p.available + 1 }, none)
  | i :: waiters => ({ p with waiters }, some i)

/-- `held` permits of `capacity` are given out, the rest is free, and nobody waits for a free
one. -/
structure Balanced (capacity held : Nat) (p : Permits ι) : Prop where
  total : p.available + held = capacity
  busy : p.waiters ≠ [] → p.available = 0

variable {p : Permits ι} {capacity held : Nat}

theorem Balanced.held_le (h : p.Balanced capacity held) : held ≤ capacity := by
  have htotal := h.total
  omega

/-- While somebody waits, every permit is held. -/
theorem Balanced.held_eq (h : p.Balanced capacity held) (hwaiters : p.waiters ≠ []) :
    held = capacity := by
  have htotal := h.total
  have hbusy := h.busy hwaiters
  omega

/-- What `acquire` does. -/
theorem Balanced.acquire_cases (h : p.Balanced capacity held) (i : ι) :
    (∃ p', p.acquire i = (p', true) ∧ p'.Balanced capacity (held + 1) ∧ p.waiters = [] ∧
      p'.waiters = []) ∨
    ∃ p', p.acquire i = (p', false) ∧ p'.Balanced capacity held ∧ p'.waiters =
      p.waiters ++ [i] := by
  have htotal := h.total
  unfold acquire
  by_cases hfree : 0 < p.available
  · have hnone : p.waiters = [] := by
      by_contra hne
      have hbusy := h.busy hne
      omega
    refine .inl ⟨_, if_pos hfree, ⟨?_, fun hne => absurd hnone hne⟩, hnone, hnone⟩
    show p.available - 1 + (held + 1) = capacity
    omega
  · refine .inr ⟨_, if_neg hfree, ⟨htotal, fun _ => ?_⟩, rfl⟩
    show p.available = 0
    omega

/-- What `release` does. -/
theorem Balanced.release_cases (h : p.Balanced capacity (held + 1)) :
    (∃ p', p.release = (p', none) ∧ p'.Balanced capacity held ∧ p.waiters = [] ∧ p'.waiters = []) ∨
    ∃ p' i, p.release = (p', some i) ∧ p'.Balanced capacity (held + 1) ∧
      p.waiters = i :: p'.waiters := by
  have htotal := h.total
  unfold release
  cases hwaiters : p.waiters with
  | nil =>
    refine .inl ⟨_, rfl, ⟨?_, fun hne => absurd rfl hne⟩, rfl, rfl⟩
    show p.available + 1 + held = capacity
    omega
  | cons i waiters =>
    refine .inr ⟨_, i, rfl, ⟨htotal, fun _ => h.busy ?_⟩, rfl⟩
    rw [hwaiters]
    exact List.cons_ne_nil i waiters

/-- **Permits are granted in the order in which they were asked for.** -/
theorem acquire_inTurn (h : p.Balanced capacity held) {granted arrived : List ι}
    (hturn : granted ++ p.waiters = arrived) (i : ι) :
    (granted ++ if (p.acquire i).2 then [i] else []) ++
    (p.acquire i).1.waiters = arrived ++ [i] := by
  subst hturn
  obtain ⟨p', heq, -, hnone, hnone'⟩ | ⟨p', heq, -, hwaiters⟩ := h.acquire_cases i
  · simp [heq, hnone, hnone']
  · simp [heq, hwaiters]

theorem release_inTurn {granted arrived : List ι} (hturn : granted ++ p.waiters = arrived) :
    (granted ++ p.release.2.toList) ++ p.release.1.waiters = arrived := by
  subst hturn
  unfold release
  cases hwaiters : p.waiters with
  | nil => simp
  | cons i waiters => simp

end Permits

end LocalMediaTransfer.Lib
