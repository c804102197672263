import LocalMediaTransfer.Lib.History

/-!
# Leases with a sliding deadline

A lease is issued for a key, is renewed by every use, and ends when it was not used for its whole
life, when all leases are reset, or when it is evicted to make room for another.  Whether a key is
leased is read off the history of these events.

* `Held` — a key holds a lease at a moment, according to a history.
* `held_reset`, `held_issue`, `held_issue_ne`, `held_renew`, `held_renew_ne` — how one more event
  changes that.
* `lastUse` — the moment from which the life of a lease counts.
-/

set_option autoImplicit false

namespace LocalMediaTransfer.Lib

/-- What happens to leases; an issue may evict another key. -/
inductive LeaseEvent (κ : Type) where
  | reset
  | issue (time : Nat) (key : κ) (evicted : Option κ)
  | renew (time : Nat) (key : κ)
  deriving DecidableEq

variable {κ : Type} [DecidableEq κ]

/-- The moment of the event, if it starts the life of the key's lease again. -/
def LeaseEvent.use (key : κ) : LeaseEvent κ → Option Nat
  | .reset => none
  | .issue time key' _ => if key' = key then some time else none
  | .renew time key' => if key' = key then some time else none

/-- The event ends the lease of the key. -/
def LeaseEvent.ends (key : κ) : LeaseEvent κ → Bool
  | .reset => true
  | .issue _ _ evicted => evicted == some key
  | .renew _ _ => false

/-- Used at `since`, and from then on never left unused for a whole life until `now`. -/
def Unbroken (life : Nat) (key : κ) : Nat → List (LeaseEvent κ) → Nat → Prop
  | since, [], now => now < since + life
  | since, e :: rest, now =>
      match e.use key with
      | some time => time < since + life ∧ Unbroken life key time rest now
      | none => Unbroken life key since rest now

/-- The key holds a lease: it was issued, neither reset nor evicted since, and never left unused for
a whole life. -/
def Held (life : Nat) (key : κ) (now : Nat) (history : List (LeaseEvent κ)) : Prop :=
  ∃ pre post time evicted, history = pre ++ .issue time key evicted :: post ∧
    (∀ e ∈ post, e.ends key = false) ∧ Unbroken life key time post now

/-- When the key was used last. -/
def lastUse (key : κ) (history : List (LeaseEvent κ)) : Option Nat :=
  (history.filterMap (·.use key)).getLast?

variable {life now since time : Nat} {key key' : κ} {evicted : Option κ}
variable {history : List (LeaseEvent κ)} {e : LeaseEvent κ}

theorem unbroken_snoc : Unbroken life key since (history ++ [e]) now ↔
    match e.use key with
    | some time => Unbroken life key since history time ∧ now < time + life
    | none => Unbroken life key since history now := by
  induction history generalizing since with
  | nil =>
    simp only [List.nil_append, Unbroken]
  | cons a history ih =>
    simp only [List.cons_append, Unbroken]
    cases ha : a.use key with
    | none => exact ih
    | some time =>
      simp only [ih]
      cases e.use key with
      | none => rfl
      | some t => exact and_assoc.symm

theorem not_held_nil : ¬Held life key now [] := by
  rintro ⟨pre, post, time, evicted, hsplit, -⟩
  simp at hsplit

/-- An event that neither ends nor uses the lease. -/
theorem held_other (hends : e.ends key = false) (huse : e.use key = none) :
    Held life key now (history ++ [e]) ↔ Held life key now history := by
  constructor
  · rintro ⟨pre, post, time, evicted, hsplit, hpost, hunbroken⟩
    rcases split_snoc hsplit with ⟨-, rfl, -⟩ | ⟨post', rfl, hhistory⟩
    · simp [LeaseEvent.use] at huse
    · rw [unbroken_snoc, huse] at hunbroken
      exact ⟨pre, post', time, evicted, hhistory,
        fun x hx => hpost x (List.mem_append_left _ hx), hunbroken⟩
  · rintro ⟨pre, post, time, evicted, rfl, hpost, hunbroken⟩
    refine ⟨pre, post ++ [e], time, evicted, by simp, ?_, ?_⟩
    · intro x hx
      rcases List.mem_append.mp hx with hx | hx
      · exact hpost x hx
      · rw [List.mem_singleton.mp hx]
        exact hends
    · rw [unbroken_snoc, huse]
      exact hunbroken

/-- An event that ends the lease and does not issue it again. -/
theorem not_held_of_ends (hends : e.ends key = true) (huse : e.use key = none) :
    ¬Held life key now (history ++ [e]) := by
  rintro ⟨pre, post, time, evicted, hsplit, hpost, -⟩
  rcases split_snoc hsplit with ⟨-, rfl, -⟩ | ⟨post', rfl, -⟩
  · simp [LeaseEvent.use] at huse
  · have hlast := hpost e (List.mem_append_right _ (List.mem_singleton_self e))
    rw [hends] at hlast
    cases hlast

theorem held_reset : ¬Held life key now (history ++ [.reset]) := not_held_of_ends rfl rfl

theorem held_issue : Held life key now (history ++ [.issue time key evicted]) ↔ now <
    time + life := by
  constructor
  · rintro ⟨pre, post, time', evicted', hsplit, -, hunbroken⟩
    rcases split_snoc hsplit with ⟨-, hissue, rfl⟩ | ⟨post', rfl, -⟩
    · cases hissue
      exact hunbroken
    · rw [unbroken_snoc, LeaseEvent.use, if_pos rfl] at hunbroken
      exact hunbroken.2
  · intro hnow
    exact ⟨history, [], time, evicted, rfl, nofun, hnow⟩

theorem held_issue_ne (hne : key' ≠ key) : Held life key now
    (history ++ [.issue time key' evicted]) ↔
    evicted ≠ some key ∧ Held life key now history := by
  have huse : (LeaseEvent.issue time key' evicted).use key = none := if_neg hne
  by_cases hevicted : evicted = some key
  · refine iff_of_false (not_held_of_ends (by simp [LeaseEvent.ends, hevicted]) huse) ?_
    exact fun h => h.1 hevicted
  · rw [held_other (by simp [LeaseEvent.ends, hevicted]) huse]
    exact (and_iff_right hevicted).symm

theorem held_renew : Held life key now (history ++ [.renew time key]) ↔
    Held life key time history ∧ now < time + life := by
  have huse : (LeaseEvent.renew time key).use key = some time := if_pos rfl
  constructor
  · rintro ⟨pre, post, time', evicted, hsplit, hpost, hunbroken⟩
    rcases split_snoc hsplit with ⟨-, hrenew, -⟩ | ⟨post', rfl, hhistory⟩
    · cases hrenew
    · rw [unbroken_snoc, huse] at hunbroken
      exact ⟨⟨pre, post', time', evicted, hhistory,
        fun x hx => hpost x (List.mem_append_left _ hx), hunbroken.1⟩, hunbroken.2⟩
  · rintro ⟨⟨pre, post, time', evicted, rfl, hpost, hunbroken⟩, hnow⟩
    refine ⟨pre, post ++ [.renew time key], time', evicted, by simp, ?_, ?_⟩
    · intro x hx
      rcases List.mem_append.mp hx with hx | hx
      · exact hpost x hx
      · rw [List.mem_singleton.mp hx]
        rfl
    · rw [unbroken_snoc, huse]
      exact ⟨hunbroken, hnow⟩

theorem held_renew_ne (hne : key' ≠ key) :
    Held life key now (history ++ [.renew time key']) ↔ Held life key now history :=
  held_other rfl (if_neg hne)

theorem lastUse_snoc : lastUse key (history ++ [e]) = (e.use key).or (lastUse key history) := by
  rw [lastUse, List.filterMap_append]
  cases h : e.use key with
  | none => simp [h, lastUse]
  | some time => simp [h]

end LocalMediaTransfer.Lib
