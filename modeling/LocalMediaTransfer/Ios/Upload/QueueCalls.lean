import LocalMediaTransfer.Ios.Upload.BoundedAsyncQueue
import LocalMediaTransfer.Lib.Run

/-!
# Concurrent calls of the ready queue

Any number of callers over one `BoundedAsyncQueue`.  A call runs without interruption up to its
next await.  Calling the resolver of a suspended `push` only schedules its continuation: the push
is then *woken*, and runs on in a step of its own, at any later time and in any order.

* `QueueCalls.step` — one call, up to its first await, or one continuation of a woken push.
* `runPush_cases`, `step_cases` — everything a step can do.
-/

set_option autoImplicit false

namespace LocalMediaTransfer

/-- One call of `push`. -/
structure PushCall (π α : Type) where
  call : Nat
  producer : π
  value : α
  deriving DecidableEq

/-- What the callers see. -/
inductive QueueEvent (π α : Type) where
  | called (push : PushCall π α)
  /-- `onCapacityWaitChange(waiting)`. -/
  | capacityWait (push : PushCall π α) (waiting : Bool)
  | resolved (push : PushCall π α)
  /-- The promise of `push` is rejected with 'Queue is closed'. -/
  | rejected (push : PushCall π α)
  /-- The promise of the `shift` is resolved, with null for `none`. -/
  | returned (shift : Nat) (value : Option (PushCall π α))
  deriving DecidableEq

/-- The queue and its callers; `pushes` and `shifts` number the calls. -/
structure QueueCalls (π α : Type) where
  queue : BoundedAsyncQueue (PushCall π α) (PushCall π α) Nat
  woken : List (PushCall π α) := []
  pushes : Nat := 0
  shifts : Nat := 0
  log : List (QueueEvent π α) := []
  deriving DecidableEq

inductive QueueLabel (π α : Type) where
  | push (producer : π) (value : α)
  /-- The continuation of the woken push at this place. -/
  | resume (place : Nat)
  | shift
  | close
  deriving DecidableEq

namespace QueueCalls

variable {π α : Type}

/-- `new BoundedAsyncQueue(capacity)`. -/
def start (capacity : Nat) : QueueCalls π α := { queue := { capacity } }

/-- What the `finally` block of a push reports, when it has waited. -/
def finallyNotes (push : PushCall π α) (waiting : Bool) : List (QueueEvent π α) :=
  if waiting then [.capacityWait push false] else []

/-- `push`, from its start or from a resumption, up to its next await or its end. -/
def runPush (s : QueueCalls π α) (push : PushCall π α) (waiting : Bool) : QueueCalls π α :=
  match s.queue.push push push with
  | .waits queue =>
    { s with queue, log := s.log ++ if waiting then [] else [.capacityWait push true] }
  | .rejected => { s with log := s.log ++ (finallyNotes push waiting ++ [.rejected push]) }
  | .handed queue consumer =>
    { s with
      queue
      log := s.log ++ .returned consumer (some push) ::
        (finallyNotes push waiting ++ [.resolved push]) }
  | .stored queue =>
    { s with queue, log := s.log ++ (finallyNotes push waiting ++ [.resolved push]) }

/-- `shift`; taking an item calls the resolver of the first suspended push. -/
def runShift (s : QueueCalls π α) : QueueCalls π α :=
  match s.queue.shift s.shifts with
  | .item value queue =>
    { s with
      queue
      woken := s.woken ++ s.queue.waitingProducers.head?.toList
      shifts := s.shifts + 1
      log := s.log ++ [.returned s.shifts (some value)] }
  | .closed => { s with shifts := s.shifts + 1, log := s.log ++ [.returned s.shifts none] }
  | .waits queue => { s with queue, shifts := s.shifts + 1 }

def runClose (s : QueueCalls π α) : QueueCalls π α :=
  if s.queue.closed then s
  else
    { s with
      queue := s.queue.close
      woken := s.woken ++ s.queue.waitingProducers
      log := s.log ++ s.queue.waitingConsumers.map fun consumer => .returned consumer none }

def step (s : QueueCalls π α) : QueueLabel π α → Option (QueueCalls π α)
  | .push producer value =>
    let push : PushCall π α := ⟨s.pushes, producer, value⟩
    some (({ s with
      pushes := s.pushes + 1
      log := s.log ++ [QueueEvent.called push] }).runPush push false)
  | .resume place =>
    s.woken[place]?.map fun push =>
      ({ s with woken := s.woken.eraseIdx place }).runPush push true
  | .shift => some s.runShift
  | .close => some s.runClose

/-! ## Inversion -/

/-- Everything a push can do up to its next await. -/
theorem runPush_cases (s : QueueCalls π α) (push : PushCall π α) (waiting : Bool) :
    (s.queue.closed = false ∧ s.queue.capacity ≤ s.queue.items.length ∧
      s.runPush push waiting =
        { s with
          queue := { s.queue with waitingProducers := s.queue.waitingProducers ++ [push] }
          log := s.log ++ if waiting then [] else [.capacityWait push true] }) ∨
    (s.queue.closed = true ∧ s.runPush push waiting =
      { s with log := s.log ++ (finallyNotes push waiting ++ [.rejected push]) }) ∨
    (s.queue.closed = false ∧ s.queue.items.length < s.queue.capacity ∧
      ∃ consumer waitingConsumers, s.queue.waitingConsumers = consumer :: waitingConsumers ∧
        s.runPush push waiting =
          { s with
            queue := { s.queue with waitingConsumers }
            log := s.log ++ .returned consumer (some push) ::
              (finallyNotes push waiting ++ [.resolved push]) }) ∨
    (s.queue.closed = false ∧ s.queue.items.length < s.queue.capacity ∧
      s.queue.waitingConsumers = [] ∧ s.runPush push waiting =
        { s with
          queue := { s.queue with
            items := s.queue.items ++ [push]
            observedMaxDepth := max s.queue.observedMaxDepth (s.queue.items.length + 1) }
          log := s.log ++ (finallyNotes push waiting ++ [.resolved push]) }) := by
  unfold runPush
  rcases s.queue.push_cases push push with ⟨ho, hfull, he⟩ | ⟨hc, he⟩ |
    ⟨ho, hroom, consumer, waitingConsumers, hw, he⟩ | ⟨ho, hroom, hw, he⟩
  · rw [he]
    exact .inl ⟨ho, hfull, rfl⟩
  · rw [he]
    exact .inr (.inl ⟨hc, rfl⟩)
  · rw [he]
    exact .inr (.inr (.inl ⟨ho, hroom, consumer, waitingConsumers, hw, rfl⟩))
  · rw [he]
    exact .inr (.inr (.inr ⟨ho, hroom, hw, rfl⟩))

theorem runPush_log (s : QueueCalls π α) (push : PushCall π α) (waiting : Bool) :
    ∃ new, (s.runPush push waiting).log = s.log ++ new := by
  rcases s.runPush_cases push waiting with ⟨-, -, he⟩ | ⟨-, he⟩ | ⟨-, -, _, _, -, he⟩ |
    ⟨-, -, -, he⟩ <;> rw [he] <;> exact ⟨_, rfl⟩

/-- Everything a shift can do. -/
theorem runShift_cases (s : QueueCalls π α) :
    (∃ value items, s.queue.items = value :: items ∧ s.runShift =
      { s with
        queue := { s.queue with items, waitingProducers := s.queue.waitingProducers.tail }
        woken := s.woken ++ s.queue.waitingProducers.head?.toList
        shifts := s.shifts + 1
        log := s.log ++ [.returned s.shifts (some value)] }) ∨
    (s.queue.items = [] ∧ s.queue.closed = true ∧ s.runShift =
      { s with shifts := s.shifts + 1, log := s.log ++ [.returned s.shifts none] }) ∨
    (s.queue.items = [] ∧ s.queue.closed = false ∧ s.runShift =
      { s with
        queue := { s.queue with waitingConsumers := s.queue.waitingConsumers ++ [s.shifts] }
        shifts := s.shifts + 1 }) := by
  unfold runShift
  rcases s.queue.shift_cases s.shifts with ⟨value, items, hi, he⟩ | ⟨hi, hc, he⟩ | ⟨hi, ho, he⟩
  · rw [he]
    exact .inl ⟨value, items, hi, rfl⟩
  · rw [he]
    exact .inr (.inl ⟨hi, hc, rfl⟩)
  · rw [he]
    exact .inr (.inr ⟨hi, ho, rfl⟩)

/-- Closing an open queue resumes everyone. -/
theorem runClose_cases (s : QueueCalls π α) :
    (s.queue.closed = true ∧ s.runClose = s) ∨
    (s.queue.closed = false ∧ s.runClose =
      { s with
        queue := { s.queue with closed := true, waitingConsumers := [], waitingProducers := [] }
        woken := s.woken ++ s.queue.waitingProducers
        log := s.log ++ s.queue.waitingConsumers.map fun consumer =>
          .returned consumer none }) := by
  unfold runClose BoundedAsyncQueue.close
  split
  · rename_i hc
    exact .inl ⟨hc, rfl⟩
  · rename_i ho
    exact .inr ⟨by rwa [Bool.not_eq_true] at ho, rfl⟩

/-! ## The log -/

end QueueCalls

namespace QueueEvent

variable {π α : Type}

/-- The push that an entry calls, accepts, refuses or delivers, and the shift that it settles. -/
@[simp] def called? : QueueEvent π α → Option (PushCall π α)
  | .called push => some push
  | _ => none

@[simp] def accepted? : QueueEvent π α → Option (PushCall π α)
  | .resolved push => some push
  | _ => none

@[simp] def refused? : QueueEvent π α → Option (PushCall π α)
  | .rejected push => some push
  | _ => none

@[simp] def delivered? : QueueEvent π α → Option (PushCall π α)
  | .returned _ value => value
  | _ => none

@[simp] def shift? : QueueEvent π α → Option Nat
  | .returned shift _ => some shift
  | _ => none

end QueueEvent

namespace QueueCalls

variable {π α : Type}

/-- The pushes called, accepted and refused, in order. -/
def called (log : List (QueueEvent π α)) : List (PushCall π α) := log.filterMap (·.called?)
def accepted (log : List (QueueEvent π α)) : List (PushCall π α) := log.filterMap (·.accepted?)
def refused (log : List (QueueEvent π α)) : List (PushCall π α) := log.filterMap (·.refused?)

/-- The pushes whose values shifts have returned, and the shifts that have returned, in order. -/
def delivered (log : List (QueueEvent π α)) : List (PushCall π α) := log.filterMap (·.delivered?)
def settledShifts (log : List (QueueEvent π α)) : List Nat := log.filterMap (·.shift?)

theorem filterMap_cons_toList {β γ : Type} (f : β → Option γ) (a : β) (l : List β) :
    (a :: l).filterMap f = (f a).toList ++ l.filterMap f := by
  rw [List.filterMap_cons]
  cases f a <;> rfl

section Projections

variable (log log' : List (QueueEvent π α)) (e : QueueEvent π α) (push : PushCall π α)
  (waiting : Bool)

@[simp] theorem called_nil : called ([] : List (QueueEvent π α)) = [] := rfl
@[simp] theorem accepted_nil : accepted ([] : List (QueueEvent π α)) = [] := rfl
@[simp] theorem refused_nil : refused ([] : List (QueueEvent π α)) = [] := rfl
@[simp] theorem delivered_nil : delivered ([] : List (QueueEvent π α)) = [] := rfl
@[simp] theorem settledShifts_nil : settledShifts ([] : List (QueueEvent π α)) = [] := rfl

@[simp] theorem called_cons : called (e :: log) = e.called?.toList ++ called log :=
  filterMap_cons_toList ..

@[simp] theorem accepted_cons : accepted (e :: log) = e.accepted?.toList ++ accepted log :=
  filterMap_cons_toList ..

@[simp] theorem refused_cons : refused (e :: log) = e.refused?.toList ++ refused log :=
  filterMap_cons_toList ..

@[simp] theorem delivered_cons : delivered (e :: log) = e.delivered?.toList ++ delivered log :=
  filterMap_cons_toList ..

@[simp] theorem settledShifts_cons :
    settledShifts (e :: log) = e.shift?.toList ++ settledShifts log :=
  filterMap_cons_toList ..

@[simp] theorem called_append : called (log ++ log') = called log ++ called log' :=
  List.filterMap_append

@[simp] theorem accepted_append : accepted (log ++ log') = accepted log ++ accepted log' :=
  List.filterMap_append

@[simp] theorem refused_append : refused (log ++ log') = refused log ++ refused log' :=
  List.filterMap_append

@[simp] theorem delivered_append : delivered (log ++ log') = delivered log ++ delivered log' :=
  List.filterMap_append

@[simp] theorem settledShifts_append :
    settledShifts (log ++ log') = settledShifts log ++ settledShifts log' :=
  List.filterMap_append

end Projections

/-- A note about waiting is none of these. -/
theorem finallyNotes_silent (push : PushCall π α) (waiting : Bool) :
    called (finallyNotes push waiting) = [] ∧ accepted (finallyNotes push waiting) = [] ∧
      refused (finallyNotes push waiting) = [] ∧ delivered (finallyNotes push waiting) = [] ∧
      settledShifts (finallyNotes push waiting) = [] := by
  cases waiting <;> exact ⟨rfl, rfl, rfl, rfl, rfl⟩

end QueueCalls

end LocalMediaTransfer
