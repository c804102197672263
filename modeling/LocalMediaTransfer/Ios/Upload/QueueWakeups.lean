import LocalMediaTransfer.Ios.Upload.QueueDelivery

/-!
# Wake-ups of the ready queue

A suspended push is woken by a shift that removes a stored value.  A push that hands its value to a
suspended shift takes up a wake-up and leaves the room it was woken for.

* `Covered` — the invariant: while a push is suspended, the stored values and the woken pushes fill
  the queue.
* `Leaves`, `step_covered` — only one kind of step can break it.
* `queue_wakeups` — the runs without such a step lose no wake-up, and after such a step the queue
  can always go to sleep with room in it.
-/

set_option autoImplicit false

namespace LocalMediaTransfer

open Lib

namespace QueueCalls

variable {π α : Type} {s s' : QueueCalls π α} {push : PushCall π α} {capacity : Nat}

/-- No resumption is pending in an open queue. -/
def Asleep (s : QueueCalls π α) : Prop :=
  s.woken = [] ∧ s.queue.closed = false

/-- A producer is suspended only while the queue is full, and never together with a consumer. -/
def NoLostWakeup (s : QueueCalls π α) : Prop :=
  (s.queue.waitingProducers ≠ [] → s.queue.capacity ≤ s.queue.items.length) ∧
    (s.queue.waitingProducers = [] ∨ s.queue.waitingConsumers = [])

/-- The step resumes a push that hands its value over, while another push stays suspended and the
remaining woken pushes do not fill the queue. -/
def Leaves (s : QueueCalls π α) : QueueLabel π α → Prop
  | .resume place =>
    place < s.woken.length ∧ s.queue.closed = false ∧ s.queue.waitingConsumers ≠ [] ∧
      s.queue.waitingProducers ≠ [] ∧ s.queue.items.length + s.woken.length ≤ s.queue.capacity
  | _ => False

instance (s : QueueCalls π α) [DecidableEq π] [DecidableEq α] (l : QueueLabel π α) :
    Decidable (Leaves s l) := by
  cases l <;> unfold Leaves <;> infer_instance

/-- The stored values and the woken pushes fill the queue while a push is suspended. -/
def Covered (s : QueueCalls π α) : Prop :=
  s.queue.waitingProducers ≠ [] → s.queue.capacity ≤ s.queue.items.length + s.woken.length

/-! ## Steps -/

theorem covered_push (h : Covered s) (waiting : Bool) : Covered (s.runPush push waiting) := by
  unfold Covered at *
  rcases s.runPush_cases push waiting with ⟨-, hfull, he⟩ | ⟨-, he⟩ | ⟨-, -, _, _, -, he⟩ |
    ⟨-, -, -, he⟩ <;> rw [he]
  · intro _
    simp only
    omega
  · exact h
  · exact h
  · intro hwaiting
    have hcovered := h hwaiting
    simp only [List.length_append, List.length_singleton]
    omega

theorem covered_resume (h : Covered s) (hd : Delivery s []) {place : Nat}
    (hleaves : ¬ Leaves s (.resume place)) (hp : s.woken[place]? = some push) :
    Covered (({ s with woken := s.woken.eraseIdx place }).runPush push true) := by
  obtain ⟨hlt, -⟩ := List.getElem?_eq_some_iff.mp hp
  have herase : (s.woken.eraseIdx place).length = s.woken.length - 1 :=
    List.length_eraseIdx_of_lt hlt
  unfold Covered at *
  rcases runPush_cases { s with woken := s.woken.eraseIdx place } push true with
    ⟨-, hfull, he⟩ | ⟨hc, he⟩ | ⟨ho, hroom, consumer, waitingConsumers, hw, he⟩ |
    ⟨-, -, -, he⟩ <;> rw [he]
  · intro _
    simp only at hfull ⊢
    omega
  · intro hwaiting
    exact absurd (hd.closed hc).2 hwaiting
  · intro hwaiting
    have hne : s.queue.waitingConsumers ≠ [] := by
      simp only at hw
      rw [hw]
      exact List.cons_ne_nil _ _
    have hmore : ¬ s.queue.items.length + s.woken.length ≤ s.queue.capacity :=
      fun hle => hleaves ⟨hlt, ho, hne, hwaiting, hle⟩
    simp only at hroom ⊢
    omega
  · intro hwaiting
    have hcovered := h hwaiting
    simp only [List.length_append, List.length_singleton]
    omega

theorem covered_shift (h : Covered s) : Covered s.runShift := by
  unfold Covered at *
  rcases s.runShift_cases with ⟨value, items, hi, he⟩ | ⟨-, -, he⟩ | ⟨-, -, he⟩ <;> rw [he]
  · intro hwaiting
    cases hp : s.queue.waitingProducers with
    | nil =>
      rw [hp] at hwaiting
      exact absurd rfl hwaiting
    | cons first rest =>
      have hcovered := h (by rw [hp]; exact List.cons_ne_nil _ _)
      rw [hi, List.length_cons] at hcovered
      simp only [List.head?_cons, Option.toList_some, List.length_append, List.length_singleton]
      omega
  · exact h
  · exact h

/-- **The step lemma.** -/
theorem step_covered (h : Covered s) (hd : Delivery s []) {l : QueueLabel π α}
    (hleaves : ¬ Leaves s l) (hs : s.step l = some s') : Covered s' := by
  cases l with
  | push producer value =>
    cases hs
    refine covered_push ?_ false
    exact h
  | resume place =>
    obtain ⟨push, hp, rfl⟩ := Option.map_eq_some_iff.mp hs
    exact covered_resume h hd hleaves hp
  | shift =>
    cases hs
    exact covered_shift h
  | close =>
    cases hs
    rcases s.runClose_cases with ⟨-, he⟩ | ⟨-, he⟩ <;> rw [he]
    · exact h
    · intro hwaiting
      exact absurd rfl hwaiting

theorem covered_of_run
    (hrun : Run step (fun s l => ¬ Leaves s l) (start capacity) s) : Covered s := by
  induction hrun with
  | refl => exact fun h => absurd rfl h
  | tail hr hok hs ih => exact step_covered ih (delivery_of_run hr) hok hs

/-- A covered queue that is asleep has lost no wake-up. -/
theorem Covered.noLostWakeup (h : Covered s) (hd : Delivery s []) (hcap : 0 < s.queue.capacity)
    (hasleep : Asleep s) : NoLostWakeup s := by
  have hfull : s.queue.waitingProducers ≠ [] → s.queue.capacity ≤ s.queue.items.length := by
    intro hwaiting
    have hcovered := h hwaiting
    rw [hasleep.1, List.length_nil] at hcovered
    omega
  refine ⟨hfull, ?_⟩
  rcases hd.exclusive with hi | hw
  · refine .inl (Classical.not_not.mp fun hwaiting => ?_)
    have hle := hfull hwaiting
    rw [hi, List.length_nil] at hle
    omega
  · exact .inr hw

/-! ## After a step that leaves room -/

/-- A push stays suspended although the woken pushes cannot fill the queue. -/
structure Starving (s : QueueCalls π α) : Prop where
  isOpen : s.queue.closed = false
  waiting : s.queue.waitingProducers ≠ []
  room : s.queue.items.length + s.woken.length < s.queue.capacity

theorem starving_of_leaves {l : QueueLabel π α} (hleaves : Leaves s l)
    (hs : s.step l = some s') : Starving s' := by
  cases l with
  | resume place =>
    obtain ⟨hlt, ho, hconsumers, hwaiting, hroom⟩ := hleaves
    obtain ⟨push, hp, rfl⟩ := Option.map_eq_some_iff.mp hs
    have herase : (s.woken.eraseIdx place).length = s.woken.length - 1 :=
      List.length_eraseIdx_of_lt hlt
    rcases runPush_cases { s with woken := s.woken.eraseIdx place } push true with
      ⟨-, hfull, -⟩ | ⟨hc, -⟩ | ⟨-, -, _, _, -, he⟩ | ⟨-, -, hnone, -⟩
    · simp only at hfull
      omega
    · simp only [ho] at hc
      cases hc
    · rw [he]
      refine ⟨ho, hwaiting, ?_⟩
      simp only
      omega
    · exact absurd hnone hconsumers
  | _ => cases hleaves

/-- The first woken push runs on without being suspended again. -/
theorem Starving.resume (h : Starving s) {rest : List (PushCall π α)}
    (hwoken : s.woken = push :: rest) :
    ∃ s', s.step (.resume 0) = some s' ∧ Starving s' ∧ s'.woken = rest := by
  have hroom := h.room
  rw [hwoken, List.length_cons] at hroom
  have hstep : s.step (.resume 0) = some (({ s with woken := rest }).runPush push true) := by
    simp only [step, hwoken, List.getElem?_cons_zero, Option.map_some, List.eraseIdx_cons_zero]
  refine ⟨_, hstep, ?_⟩
  rcases runPush_cases { s with woken := rest } push true with
    ⟨-, hfull, -⟩ | ⟨hc, -⟩ | ⟨-, -, _, _, -, he⟩ | ⟨-, -, -, he⟩
  · simp only at hfull
    omega
  · simp only [h.isOpen] at hc
    cases hc
  · rw [he]
    refine ⟨⟨h.isOpen, h.waiting, ?_⟩, rfl⟩
    simp only
    omega
  · rw [he]
    refine ⟨⟨h.isOpen, h.waiting, ?_⟩, rfl⟩
    simp only [List.length_append, List.length_singleton]
    omega

/-- When the woken pushes have run on, the queue sleeps with room in it. -/
theorem Starving.falls_asleep (h : Starving s) :
    ∃ t, Run step (fun _ _ => True) s t ∧ Asleep t ∧ ¬ NoLostWakeup t := by
  generalize hwoken : s.woken = woken
  induction woken generalizing s with
  | nil =>
    refine ⟨s, .refl s, ⟨hwoken, h.isOpen⟩, fun hno => ?_⟩
    have hfull := hno.1 h.waiting
    have hroom := h.room
    omega
  | cons push rest ih =>
    obtain ⟨s', hs, hstarving, hrest⟩ := h.resume hwoken
    obtain ⟨t, hrun, ht⟩ := ih hstarving hrest
    exact ⟨t, Run.trans (.tail (.refl s) trivial hs) hrun, ht⟩

/-- **Lost wake-ups.**  In a run without a step that `Leaves` room, no state that is asleep has
lost a wake-up; and after such a step of any run, the queue can fall asleep having lost one. -/
theorem queue_wakeups (capacity : Nat) (hcap : 0 < capacity) :
    (∀ s : QueueCalls π α, Run step (fun s l => ¬ Leaves s l) (start capacity) s →
      Asleep s → NoLostWakeup s) ∧
    ∀ (s s' : QueueCalls π α) (l : QueueLabel π α),
      Run step (fun _ _ => True) (start capacity) s → Leaves s l → s.step l = some s' →
        ∃ t, Run step (fun _ _ => True) s' t ∧ Asleep t ∧ ¬ NoLostWakeup t := by
  refine ⟨fun s hrun hasleep => ?_, fun s s' l _ hleaves hs => ?_⟩
  · refine (covered_of_run hrun).noLostWakeup (delivery_of_run hrun) ?_ hasleep
    rw [capacity_of_run hrun]
    exact hcap
  · exact (starving_of_leaves hleaves hs).falls_asleep

/-- Two pushes are suspended; the one that is woken serves the second shift. -/
def twoProducers : List (QueueLabel Bool Nat) :=
  [.push true 1, .push true 2, .push false 3, .shift, .shift, .resume 0]

theorem queue_wakeups_two :
    ∃ s : QueueCalls Bool Nat, Run step (fun s l => ¬ Leaves s l) (start 2) s ∧ Asleep s ∧
      s.queue.waitingProducers ≠ [] ∧ NoLostWakeup s := by
  obtain ⟨s, hrun, htest⟩ := Run.exists_of_exec (step (π := Bool) (α := Nat))
    (fun s l => !decide (Leaves s l))
    (fun s => s.woken = [] ∧ s.queue.closed = false ∧ s.queue.waitingProducers ≠ []) (start 2)
    [.push true 1, .push true 2, .push false 3, .push true 4, .shift, .resume 0]
    (fun s l h => by simpa using h) (by decide)
  obtain ⟨hwoken, hopen, hwaiting⟩ := of_decide_eq_true htest
  exact ⟨s, hrun, ⟨hwoken, hopen⟩, hwaiting,
    (queue_wakeups 2 (by decide)).1 s hrun ⟨hwoken, hopen⟩⟩

/-- Capacity one, one value stored, two suspended pushes, two shifts: the first shift wakes one
push, which serves the second shift; the other push sleeps beside an empty queue. -/
theorem wakeup_lost :
    ¬ ∀ s : QueueCalls Bool Nat, Run step (fun _ _ => True) (start 1) s →
      Asleep s → NoLostWakeup s := by
  intro hall
  obtain ⟨s, hrun, htest⟩ := Run.exists_of_exec (step (π := Bool) (α := Nat)) (fun _ _ => true)
    (fun s => s.woken = [] ∧ s.queue.closed = false ∧ s.queue.waitingProducers ≠ [] ∧
      s.queue.items = [] ∧ s.queue.capacity = 1) (start 1) twoProducers
    (fun _ _ _ => trivial) (by decide)
  obtain ⟨hwoken, hopen, hwaiting, hitems, hcap⟩ := of_decide_eq_true htest
  have hfull := (hall s hrun ⟨hwoken, hopen⟩).1 hwaiting
  rw [hitems, hcap, List.length_nil] at hfull
  omega

end QueueCalls

end LocalMediaTransfer
