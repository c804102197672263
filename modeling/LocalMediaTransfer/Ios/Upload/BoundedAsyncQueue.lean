import Mathlib.Tactic

/-!
# The ready queue

`services/upload/BoundedAsyncQueue.ts`.  The queue suspends a `push` while it is full and a `shift`
while it is empty.  A suspended call is known to the queue by its resolver; here it is named by an
ID, and an operation returns which calls it resumes.

* `push`, `shift`, `close` — the operations, each up to its next await.
* `push_cases`, `shift_cases` — everything they can do.
-/

set_option autoImplicit false

namespace LocalMediaTransfer

/-- `class BoundedAsyncQueue<T>`, with IDs for the suspended pushes and shifts. -/
structure BoundedAsyncQueue (α ι κ : Type) where
  capacity : Nat
  items : List α := []
  waitingConsumers : List κ := []
  waitingProducers : List ι := []
  closed : Bool := false
  observedMaxDepth : Nat := 0
  deriving DecidableEq

namespace BoundedAsyncQueue

variable {α ι κ : Type}

/-- How far `push` gets, from its start or from a resumption. -/
inductive Push (α ι κ : Type) where
  /-- It awaits its resolver in `waitingProducers`. -/
  | waits (queue : BoundedAsyncQueue α ι κ)
  /-- It throws 'Queue is closed'. -/
  | rejected
  /-- A suspended `shift` gets the value. -/
  | handed (queue : BoundedAsyncQueue α ι κ) (consumer : κ)
  | stored (queue : BoundedAsyncQueue α ι κ)

/-- How far `shift` gets. -/
inductive Shift (α ι κ : Type) where
  | item (value : α) (queue : BoundedAsyncQueue α ι κ)
  /-- It returns null. -/
  | closed
  | waits (queue : BoundedAsyncQueue α ι κ)

variable (queue : BoundedAsyncQueue α ι κ)

def push (value : α) (producer : ι) : Push α ι κ :=
  if queue.closed = false ∧ queue.capacity ≤ queue.items.length then
    .waits { queue with waitingProducers := queue.waitingProducers ++ [producer] }
  else if queue.closed then .rejected
  else match queue.waitingConsumers with
    | consumer :: waitingConsumers => .handed { queue with waitingConsumers } consumer
    | [] =>
      .stored { queue with
        items := queue.items ++ [value]
        observedMaxDepth := max queue.observedMaxDepth (queue.items.length + 1) }

/-- `shift`; taking an item resumes the first suspended push. -/
def shift (consumer : κ) : Shift α ι κ :=
  match queue.items with
  | value :: items => .item value
    { queue with items, waitingProducers := queue.waitingProducers.tail }
  | [] =>
    if queue.closed then .closed
    else .waits { queue with waitingConsumers := queue.waitingConsumers ++ [consumer] }

/-- `close`: every suspended call is resumed, a shift with null. -/
def close : BoundedAsyncQueue α ι κ :=
  if queue.closed then queue
  else { queue with closed := true, waitingConsumers := [], waitingProducers := [] }

/-- Everything `push` can do. -/
theorem push_cases (value : α) (producer : ι) :
    (queue.closed = false ∧ queue.capacity ≤ queue.items.length ∧ queue.push value producer =
      .waits { queue with waitingProducers := queue.waitingProducers ++ [producer] }) ∨
    (queue.closed = true ∧ queue.push value producer = .rejected) ∨
    (queue.closed = false ∧ queue.items.length < queue.capacity ∧ ∃ consumer waitingConsumers,
      queue.waitingConsumers = consumer :: waitingConsumers ∧
        queue.push value producer = .handed { queue with waitingConsumers } consumer) ∨
    (queue.closed = false ∧ queue.items.length < queue.capacity ∧ queue.waitingConsumers = [] ∧
      queue.push value producer = .stored { queue with
        items := queue.items ++ [value]
        observedMaxDepth := max queue.observedMaxDepth (queue.items.length + 1) }) := by
  unfold push
  split
  · rename_i hfull
    exact .inl ⟨hfull.1, hfull.2, rfl⟩
  · rename_i hspace
    split
    · rename_i hclosed
      exact .inr (.inl ⟨hclosed, rfl⟩)
    · rename_i hopen
      rw [Bool.not_eq_true] at hopen
      have hroom : queue.items.length < queue.capacity :=
        Nat.lt_of_not_le fun hfull => hspace ⟨hopen, hfull⟩
      split
      · rename_i consumer waitingConsumers hwaiting
        exact .inr (.inr (.inl ⟨hopen, hroom, consumer, waitingConsumers, hwaiting, rfl⟩))
      · rename_i hwaiting
        exact .inr (.inr (.inr ⟨hopen, hroom, hwaiting, rfl⟩))

/-- Everything `shift` can do. -/
theorem shift_cases (consumer : κ) :
    (∃ value items, queue.items = value :: items ∧ queue.shift consumer =
      .item value { queue with items, waitingProducers := queue.waitingProducers.tail }) ∨
    (queue.items = [] ∧ queue.closed = true ∧ queue.shift consumer = .closed) ∨
    (queue.items = [] ∧ queue.closed = false ∧ queue.shift consumer =
      .waits { queue with waitingConsumers := queue.waitingConsumers ++ [consumer] }) := by
  unfold shift
  split
  · rename_i value items hitems
    exact .inl ⟨value, items, hitems, rfl⟩
  · rename_i hitems
    split
    · rename_i hclosed
      exact .inr (.inl ⟨hitems, hclosed, rfl⟩)
    · rename_i hopen
      exact .inr (.inr ⟨hitems, by rwa [Bool.not_eq_true] at hopen, rfl⟩)

@[simp] theorem close_closed : queue.close.closed = true := by
  unfold close
  split
  · assumption
  · rfl

@[simp] theorem close_items : queue.close.items = queue.items := by
  unfold close
  split <;> rfl

end BoundedAsyncQueue

end LocalMediaTransfer
