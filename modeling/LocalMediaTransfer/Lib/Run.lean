import Mathlib.Tactic

/-!
# Guarded runs of a fallible step function

A system is a step function `step : S → L → Option S`: from a state, a label names the next
atomic action together with everything the environment decides in it, and `none` says that the
action is not enabled.  `Run step ok s t` is the reachability relation of the runs all of whose
steps meet a side condition `ok` (a scheduling assumption, a restriction on the inputs); the
unrestricted runs are those with the trivial condition.

* `Run.invariant` — what holds at the start and is preserved by every admitted step holds in
  every state reached.
* `Run.trans` — runs compose.
* `Run.upgrade` — what holds in every reachable state may be added to the condition.
* `exec`, `Run.of_exec`, `Run.exists_of_exec` — concrete runs are evaluated: a list of labels that
  executes under a decidable condition yields a run.
* `Run.exists_of_exec_labels`, `Run.exists_around_of_exec` — the same with a property of the labels
  alone, and through a step of interest.
-/

set_option autoImplicit false

namespace LocalMediaTransfer.Lib

variable {S L : Type}

/-- `t` is reached from `s` by enabled steps that each meet `ok` in the state they start from. -/
inductive Run (step : S → L → Option S) (ok : S → L → Prop) : S → S → Prop where
  | refl (s : S) : Run step ok s s
  | tail {s t u : S} {l : L} : Run step ok s t → ok t l → step t l = some u → Run step ok s u

variable {step : S → L → Option S} {ok ok' : S → L → Prop}

/-- **Invariant rule.** -/
theorem Run.invariant {I : S → Prop} {s t : S} (hrun : Run step ok s t) (h0 : I s)
    (hstep : ∀ t l u, I t → ok t l → step t l = some u → I u) : I t := by
  induction hrun with
  | refl => exact h0
  | tail _ hok hs ih => exact hstep _ _ _ ih hok hs

theorem Run.trans {s t u : S} (h₁ : Run step ok s t) (h₂ : Run step ok t u) :
    Run step ok s u := by
  induction h₂ with
  | refl => exact h₁
  | tail _ hok hs ih => exact .tail ih hok hs

/-- What follows from `ok` in every reachable state may be added to the condition of every step. -/
theorem Run.upgrade {s t : S} (hrun : Run step ok s t)
    (hok : ∀ t l, Run step ok s t → ok t l → ok' t l) : Run step ok' s t := by
  induction hrun with
  | refl => exact .refl _
  | tail hr hk hs ih => exact .tail ih (hok _ _ hr hk) hs

/-- Execute a list of labels, stopping at the first one that is refused or not enabled. -/
def exec (step : S → L → Option S) (ok : S → L → Bool) : S → List L → Option S
  | s, [] => some s
  | s, l :: ls => if ok s l then (step s l).bind fun t => exec step ok t ls else none

theorem Run.of_exec {okb : S → L → Bool} (hok : ∀ s l, okb s l = true → ok s l) :
    ∀ {ls : List L} {s t : S}, exec step okb s ls = some t → Run step ok s t
  | [], s, t, h => by
    simp only [exec, Option.some.injEq] at h
    subst h; exact .refl _
  | l :: ls, s, t, h => by
    simp only [exec] at h
    split at h
    · rename_i hl
      obtain ⟨u, hu, ht⟩ := Option.bind_eq_some_iff.mp h
      exact Run.trans (.tail (.refl _) (hok _ _ hl) hu) (Run.of_exec hok ht)
    · cases h

/-- A list of labels whose execution ends in a state that passes a test. -/
theorem Run.exists_of_exec (step : S → L → Option S) {P : S → L → Prop} (okb : S → L → Bool)
    (test : S → Bool) (s : S) (ls : List L)
    (hok : ∀ s l, okb s l = true → P s l) (h : (exec step okb s ls).any test = true) :
    ∃ t, Run step P s t ∧ test t = true := by
  cases he : exec step okb s ls with
  | none =>
    rw [he] at h
    cases h
  | some t =>
    rw [he] at h
    exact ⟨t, .of_exec hok he, h⟩

/-- The labels of an execution may have a property that their condition need not decide. -/
theorem Run.exists_of_exec_labels (step : S → L → Option S) {P : S → L → Prop} {Q : L → Prop}
    (okb : S → L → Bool) (test : S → Bool) (s : S) (ls : List L) (hls : ∀ l ∈ ls, Q l)
    (hok : ∀ s l, Q l → okb s l = true → P s l) (h : (exec step okb s ls).any test = true) :
    ∃ t, Run step P s t ∧ test t = true := by
  induction ls generalizing s with
  | nil => exact ⟨s, .refl s, h⟩
  | cons l ls ih =>
    simp only [exec] at h
    split at h
    · rename_i hl
      cases hu : step s l with
      | none =>
        rw [hu] at h
        cases h
      | some u =>
        rw [hu] at h
        obtain ⟨t, hrun, ht⟩ := ih u (fun l hmem => hls l (.tail _ hmem)) h
        exact ⟨t, Run.trans (.tail (.refl _) (hok s l (hls l (.head _)) hl) hu) hrun, ht⟩
    · cases h

/-- A run through a step of interest, whose execution ends in a state that passes a test. -/
theorem Run.exists_around_of_exec (step : S → L → Option S) {P : S → L → Prop} (okb : S → L → Bool)
    (test : S → Bool) (s : S) (before : List L) (l : L) (after : List L)
    (hok : ∀ s l, okb s l = true → P s l)
    (h : ((exec step okb s before).any fun u => okb u l &&
      (step u l).any fun u' => (exec step okb u' after).any test) = true) :
    ∃ u u' t, Run step P s u ∧ P u l ∧ step u l = some u' ∧ Run step P u' t ∧ test t = true := by
  obtain ⟨u, hbefore, hu⟩ := exists_of_exec step okb _ s before hok h
  rw [Bool.and_eq_true] at hu
  cases hl : step u l with
  | none =>
    rw [hl] at hu
    cases hu.2
  | some u' =>
    rw [hl] at hu
    obtain ⟨t, hafter, ht⟩ := exists_of_exec step okb test u' after hok hu.2
    exact ⟨u, u', t, hbefore, hok u l hu.1, hl, hafter, ht⟩

end LocalMediaTransfer.Lib
