import LocalMediaTransfer.Lib.Run
import LocalMediaTransfer.Lib.Tally

/-!
# The bounded worker pool of the Windows client

Model of `BoundedWorkerPool.RunAsync` and of the worker body that `NativeTransferClient.SendAsync`
gives it.  The workers share an atomic counter and a cancellation source that is linked to the
caller's token.  The check of the token, the increment, the start of an item, its end, the choice
of a catch clause and the call of `Cancel` are steps of their own, and so are the cancellation by
the caller and its arrival at the linked source; what `process` does is part of the label.

* `step_cases` — every step of the pool, with what it needs and what it leaves.
* `Inv`, `inv_of_run` — the counter, the indices handed out and what becomes of the exceptions.
* `remaining_step`, `pool_progress` — the pool runs out of steps, and only when it has ended.
* `sendWorker_throws` — an exception leaves the worker body of a transfer only when it ends the
  session, when the transfer is cancelled or when the body does not expect it.
-/

set_option autoImplicit false

namespace LocalMediaTransfer.BoundedWorkerPool

open Lib

variable {T ε : Type}

/-- What a call of `RunAsync` is given.  `isCancellation` tells an `OperationCanceledException`;
`indexError` is what `items[index]` throws out of range. -/
structure Call (T ε : Type) where
  items : List T
  maxWorkers : Int
  sessionFatal : ε → Bool
  isCancellation : ε → Bool
  indexError : ε

/-- Where a worker stands. -/
inductive Phase (ε : Type) where
  /-- Before the check of the loop. -/
  | ready
  /-- The session was not cancelled when it looked. -/
  | checked
  /-- It incremented the counter and has this index. -/
  | took (index : Int)
  /-- Inside `process`. -/
  | running (index : Nat)
  /-- An exception is on its way to the catch clauses. -/
  | threw (e : ε)
  /-- In the second catch clause, before `Cancel`. -/
  | cancelling (e : ε)
  | done
  /-- The worker's task ended with an exception. -/
  | failed (e : ε)
  deriving DecidableEq, Repr

/-- How `RunAsync` ends. -/
inductive Outcome (ε : Type) where
  | returned
  | threw (e : ε)
  /-- `ThrowIfCancellationRequested` threw. -/
  | canceled
  /-- `ArgumentOutOfRangeException` for `maxWorkers`. -/
  | badWorkers
  deriving DecidableEq, Repr

inductive Event (ε : Type) where
  /-- `process` is called for an index; `token` tells whether its token is cancelled. -/
  | started (worker index : Nat) (token : Bool)
  | finished (worker index : Nat)
  | raised (worker index : Nat) (e : ε)
  /-- The pool called `Cancel` for a session-fatal exception. -/
  | cancelled (worker : Nat)
  /-- The caller cancelled. -/
  | requested
  deriving DecidableEq, Repr

structure Pool (ε : Type) where
  next : Int := -1
  /-- `cancellationToken.IsCancellationRequested`. -/
  outer : Bool
  /-- `sessionCancellation.IsCancellationRequested`. -/
  session : Bool
  workers : List (Phase ε)
  outcome : Option (Outcome ε) := none
  log : List (Event ε) := []
  deriving DecidableEq, Repr

inductive Label (ε : Type) where
  | check (worker : Nat)
  | increment (worker : Nat)
  | start (worker : Nat)
  /-- `process` returns, or throws. -/
  | finish (worker : Nat) (thrown : Option ε)
  | handle (worker : Nat)
  | cancelSession (worker : Nat)
  | request
  | link
  | complete
  deriving DecidableEq, Repr

/-- `Interlocked.Increment` of a 32-bit counter. -/
def increment (next : Int) : Int := Int.bmod (next + 1) (2 ^ 32)

/-- The pool when its workers have been created.  A source that is linked to a cancelled token is
cancelled from the start. -/
def Call.begin (c : Call T ε) (outer : Bool) : Pool ε where
  outer := outer
  session := outer
  workers := List.replicate (min c.items.length c.maxWorkers.toNat) .ready
  outcome := if c.maxWorkers ≤ 0 then some .badWorkers else none

namespace Pool

def move (s : Pool ε) (w : Nat) (p : Phase ε) : Pool ε :=
  { s with workers := s.workers.set w p }

def push (s : Pool ε) (e : Event ε) : Pool ε :=
  { s with log := s.log ++ [e] }

end Pool

def Phase.ended : Phase ε → Bool
  | .done | .failed _ => true
  | _ => false

def Phase.failure : Phase ε → Option ε
  | .failed e => some e
  | _ => none

/-- What awaiting `Task.WhenAll` throws: the first exception of a faulted task, and otherwise that
of a cancelled one. -/
def whenAll (c : Call T ε) (workers : List (Phase ε)) : Option ε :=
  ((workers.filterMap Phase.failure).find? fun e => !c.isCancellation e).or
    (workers.filterMap Phase.failure).head?

/-- One step of a worker, of the caller or of `RunAsync` itself. -/
def step (c : Call T ε) (s : Pool ε) : Label ε → Option (Pool ε)
  | .check w =>
      match s.workers[w]? with
      | some .ready => some (s.move w (if s.session then .done else .checked))
      | _ => none
  | .increment w =>
      match s.workers[w]? with
      | some .checked =>
          some { s.move w (.took (increment s.next)) with next := increment s.next }
      | _ => none
  | .start w =>
      match s.workers[w]? with
      | some (.took index) =>
          if (c.items.length : Int) ≤ index then some (s.move w .done)
          else if index < 0 then some (s.move w (.threw c.indexError))
          else some ((s.move w (.running index.toNat)).push
            (.started w index.toNat s.session))
      | _ => none
  | .finish w thrown =>
      match s.workers[w]? with
      | some (.running index) =>
          match thrown with
          | none => some ((s.move w .ready).push (.finished w index))
          | some e => some ((s.move w (.threw e)).push (.raised w index e))
      | _ => none
  | .handle w =>
      match s.workers[w]? with
      | some (.threw e) =>
          if c.isCancellation e && s.session && !s.outer then some (s.move w .done)
          else if c.sessionFatal e then some (s.move w (.cancelling e))
          else some (s.move w (.failed e))
      | _ => none
  | .cancelSession w =>
      match s.workers[w]? with
      | some (.cancelling e) =>
          some (({ s.move w (.failed e) with session := true } : Pool ε).push (.cancelled w))
      | _ => none
  | .request => some (({ s with outer := true } : Pool ε).push .requested)
  | .link => if s.outer then some { s with session := true } else none
  | .complete =>
      if s.outcome = none ∧ s.workers.all Phase.ended then
        some { s with outcome := some (match whenAll c s.workers with
          | some e => .threw e
          | none => if s.outer then .canceled else .returned) }
      else none

/-! ## The steps -/

/-- A step, with what it needs and what it leaves. -/
inductive Stepped (c : Call T ε) (s : Pool ε) : Label ε → Pool ε → Prop where
  | left {w : Nat} (h : s.workers[w]? = some .ready) (hsession : s.session = true) :
      Stepped c s (.check w) (s.move w .done)
  | passed {w : Nat} (h : s.workers[w]? = some .ready) (hsession : s.session = false) :
      Stepped c s (.check w) (s.move w .checked)
  | increased {w : Nat} (h : s.workers[w]? = some .checked) :
      Stepped c s (.increment w)
        { s.move w (.took (increment s.next)) with next := increment s.next }
  | exhausted {w : Nat} {index : Int} (h : s.workers[w]? = some (.took index))
      (hindex : (c.items.length : Int) ≤ index) : Stepped c s (.start w) (s.move w .done)
  | outOfRange {w : Nat} {index : Int} (h : s.workers[w]? = some (.took index))
      (hindex : index < 0) : Stepped c s (.start w) (s.move w (.threw c.indexError))
  | started {w index : Nat} (h : s.workers[w]? = some (.took index))
      (hindex : index < c.items.length) :
      Stepped c s (.start w) ((s.move w (.running index)).push (.started w index s.session))
  | finished {w index : Nat} (h : s.workers[w]? = some (.running index)) :
      Stepped c s (.finish w none) ((s.move w .ready).push (.finished w index))
  | raised {w index : Nat} {e : ε} (h : s.workers[w]? = some (.running index)) :
      Stepped c s (.finish w (some e)) ((s.move w (.threw e)).push (.raised w index e))
  | swallowed {w : Nat} {e : ε} (h : s.workers[w]? = some (.threw e))
      (hcancellation : c.isCancellation e = true) (hsession : s.session = true)
      (houter : s.outer = false) : Stepped c s (.handle w) (s.move w .done)
  | fatal {w : Nat} {e : ε} (h : s.workers[w]? = some (.threw e))
      (hfatal : c.sessionFatal e = true) : Stepped c s (.handle w) (s.move w (.cancelling e))
  | escaped {w : Nat} {e : ε} (h : s.workers[w]? = some (.threw e))
      (hfatal : c.sessionFatal e = false) : Stepped c s (.handle w) (s.move w (.failed e))
  | cancelled {w : Nat} {e : ε} (h : s.workers[w]? = some (.cancelling e)) :
      Stepped c s (.cancelSession w)
        (({ s.move w (.failed e) with session := true } : Pool ε).push (.cancelled w))
  | requested : Stepped c s .request (({ s with outer := true } : Pool ε).push .requested)
  | linked (houter : s.outer = true) : Stepped c s .link { s with session := true }
  | completed (hnone : s.outcome = none) (hended : s.workers.all Phase.ended = true) :
      Stepped c s .complete { s with outcome := some (match whenAll c s.workers with
        | some e => .threw e
        | none => if s.outer then .canceled else .returned) }

theorem step_cases {c : Call T ε} {s s' : Pool ε} {l : Label ε} (h : step c s l = some s') :
    Stepped c s l s' := by
  cases l with
  | check w =>
      simp only [step] at h
      split at h
      · rename_i hw
        cases hsession : s.session with
        | true =>
            simp only [hsession, if_true, Option.some.injEq] at h
            exact h ▸ .left hw hsession
        | false =>
            simp only [hsession, Bool.false_eq_true, if_false, Option.some.injEq] at h
            exact h ▸ .passed hw hsession
      · cases h
  | increment w =>
      simp only [step] at h
      split at h
      · rename_i hw
        exact Option.some.inj h ▸ .increased hw
      · cases h
  | start w =>
      simp only [step] at h
      split at h
      · rename_i index hw
        split at h
        · rename_i hindex
          exact Option.some.inj h ▸ .exhausted hw hindex
        · split at h
          · rename_i hindex
            exact Option.some.inj h ▸ .outOfRange hw hindex
          · obtain ⟨n, rfl⟩ : ∃ n : Nat, index = n := ⟨index.toNat, by omega⟩
            exact Option.some.inj h ▸ .started hw (by omega)
      · cases h
  | finish w thrown =>
      simp only [step] at h
      split at h
      · rename_i hw
        cases thrown with
        | none => exact Option.some.inj h ▸ .finished hw
        | some e => exact Option.some.inj h ▸ .raised hw
      · cases h
  | handle w =>
      simp only [step] at h
      split at h
      · rename_i e hw
        split at h
        · rename_i hmasked
          simp only [Bool.and_eq_true, Bool.not_eq_true'] at hmasked
          exact Option.some.inj h ▸ .swallowed hw hmasked.1.1 hmasked.1.2 hmasked.2
        · split at h
          · rename_i hfatal
            exact Option.some.inj h ▸ .fatal hw hfatal
          · rename_i hfatal
            exact Option.some.inj h ▸ .escaped hw (Bool.not_eq_true _ ▸ hfatal)
      · cases h
  | cancelSession w =>
      simp only [step] at h
      split at h
      · rename_i hw
        exact Option.some.inj h ▸ .cancelled hw
      · cases h
  | request => exact Option.some.inj h ▸ .requested
  | link =>
      simp only [step] at h
      split at h
      · rename_i houter
        exact Option.some.inj h ▸ .linked houter
      · cases h
  | complete =>
      simp only [step] at h
      split at h
      · rename_i hends
        exact Option.some.inj h ▸ .completed hends.1 hends.2
      · cases h

/-! ## The indices handed out -/

/-- The worker holds this index and has not started it. -/
def Phase.holds (i : Nat) : Phase ε → Bool
  | .took index => index = i
  | _ => false

def Phase.runs (i : Nat) : Phase ε → Bool
  | .running index => index = i
  | _ => false

def Phase.active : Phase ε → Bool
  | .running _ => true
  | _ => false

/-- The worker has found the end of the items, or has left. -/
def Phase.beyond (count : Nat) : Phase ε → Bool
  | .took index => (count : Int) ≤ index
  | .done => true
  | _ => false

def Event.startsAt (i : Nat) : Event ε → Bool
  | .started _ index _ => index = i
  | _ => false

def Event.finishesAt (i : Nat) : Event ε → Bool
  | .finished _ index => index = i
  | _ => false

def Event.raisesAt (i : Nat) : Event ε → Bool
  | .raised _ index _ => index = i
  | _ => false

/-- The counter never passes the items by more than the workers that have seen it, and every
index up to it is held by one worker or was started once. -/
structure Counted (count : Nat) (next : Int) (workers : List (Phase ε)) (log : List (Event ε)) :
    Prop where
  lower : -1 ≤ next
  reach : next + 1 ≤ count + workers.countP (Phase.beyond count)
  given : ∀ (w : Nat) (index : Int), workers[w]? = some (.took index) → 0 ≤ index ∧ index ≤ next
  taken : ∀ i < count, log.countP (Event.startsAt i) + workers.countP (Phase.holds i) =
    if (i : Int) ≤ next then 1 else 0
  valid : ∀ i, count ≤ i → log.countP (Event.startsAt i) = 0
  ended : ∀ i, log.countP (Event.startsAt i) = log.countP (Event.finishesAt i) +
    log.countP (Event.raisesAt i) + workers.countP (Phase.runs i)

section Counted

variable {count w : Nat} {next : Int} {workers : List (Phase ε)} {log : List (Event ε)}
  {p q : Phase ε}

theorem Counted.begin (outer : Bool) (c : Call T ε) :
    Counted c.items.length (c.begin outer).next (c.begin outer).workers (c.begin outer).log where
  lower := le_rfl
  reach := by simp only [Call.begin]; omega
  given w index h := by
    have hmem := List.mem_of_getElem? h
    simp [Call.begin] at hmem
  taken i _ := by
    have hnone : (List.replicate (min c.items.length c.maxWorkers.toNat)
        (Phase.ready : Phase ε)).countP (Phase.holds i) = 0 := by
      rw [List.countP_replicate]
      rfl
    have hlt : ¬ (i : Int) ≤ -1 := by omega
    simp only [Call.begin, hnone, hlt, if_false, List.countP_nil]
  valid _ _ := rfl
  ended i := by
    have hnone : (List.replicate (min c.items.length c.maxWorkers.toNat)
        (Phase.ready : Phase ε)).countP (Phase.runs i) = 0 := by
      rw [List.countP_replicate]
      rfl
    simp only [Call.begin, hnone, List.countP_nil]

/-- A worker moves on without taking, starting or ending an index. -/
theorem Counted.move (hc : Counted count next workers log) (h : workers[w]? = some p)
    (hbeyond : (p.beyond count).toNat ≤ (q.beyond count).toNat)
    (hholds : ∀ i < count, p.holds i = q.holds i) (hruns : ∀ i, p.runs i = q.runs i)
    (htook : ∀ index, q ≠ .took index) : Counted count next (workers.set w q) log where
  lower := hc.lower
  reach := by
    have hreach := hc.reach
    have hset := countP_set (Phase.beyond count) q h
    omega
  given w' index hw' := by
    rcases getElem?_set_eq_some.mp hw' with ⟨-, -, hq⟩ | ⟨-, hold⟩
    · exact absurd hq (htook index)
    · exact hc.given w' index hold
  taken i hi := by
    have hset := countP_set (Phase.holds i) q h
    rw [hholds i hi] at hset
    rw [← hc.taken i hi]
    omega
  valid := hc.valid
  ended i := by
    have hset := countP_set (Phase.runs i) q h
    rw [hruns i] at hset
    rw [hc.ended i]
    omega

/-- An event that is neither a start nor an end of an item. -/
theorem Counted.push {e : Event ε} (hc : Counted count next workers log)
    (h : ∀ i, e.startsAt i = false ∧ e.finishesAt i = false ∧ e.raisesAt i = false) :
    Counted count next workers (log ++ [e]) where
  lower := hc.lower
  reach := hc.reach
  given := hc.given
  taken i hi := by simpa [h i] using hc.taken i hi
  valid i hi := by simpa [h i] using hc.valid i hi
  ended i := by simpa [h i] using hc.ended i

/-- A worker that is about to increment the counter has not seen the end. -/
theorem Counted.room (hc : Counted count next workers log) (h : workers[w]? = some .checked) :
    next + 1 < count + workers.length := by
  have hreach := hc.reach
  have hset := countP_set (Phase.beyond count) .done h
  have hle : (workers.set w .done).countP (Phase.beyond count) ≤ workers.length := by
    simpa using List.countP_le_length (p := Phase.beyond count) (l := workers.set w .done)
  simp only [Phase.beyond, Bool.toNat_false, Bool.toNat_true] at hset
  omega

/-- There are fewer numbers than the counter can hold, so the increment does not wrap. -/
theorem Counted.increment_eq (hc : Counted count next workers log)
    (h : workers[w]? = some .checked) (hfit : count + workers.length ≤ 2 ^ 31) :
    increment next = next + 1 := by
  have hlower := hc.lower
  have hroom := hc.room h
  unfold increment Int.bmod
  simp only
  split <;> omega

theorem Counted.increased (hc : Counted count next workers log)
    (h : workers[w]? = some .checked) (hfit : count + workers.length ≤ 2 ^ 31) :
    Counted count (increment next) (workers.set w (.took (increment next))) log := by
  rw [hc.increment_eq h hfit]
  have hlower := hc.lower
  refine ⟨by omega, ?_, ?_, ?_, hc.valid, ?_⟩
  · have hreach := hc.reach
    have hset := countP_set (Phase.beyond count) (.took (next + 1)) h
    by_cases hlt : (count : Int) ≤ next + 1
    · simp only [Phase.beyond, hlt, decide_true, Bool.toNat_false, Bool.toNat_true] at hset
      omega
    · omega
  · intro w' index hw'
    rcases getElem?_set_eq_some.mp hw' with ⟨-, -, hq⟩ | ⟨-, hold⟩
    · cases hq
      omega
    · have hgiven := hc.given w' index hold
      omega
  · intro i hi
    have htaken := hc.taken i hi
    have hset := countP_set (Phase.holds i) (.took (next + 1)) h
    by_cases heq : next + 1 = i
    · have hnot : ¬ (i : Int) ≤ next := by omega
      have hle : (i : Int) ≤ next + 1 := by omega
      simp only [Phase.holds, heq, decide_true, Bool.toNat_false, Bool.toNat_true] at hset
      rw [if_neg hnot] at htaken
      rw [if_pos hle, heq]
      omega
    · have hiff : (i : Int) ≤ next + 1 ↔ (i : Int) ≤ next := by omega
      simp only [Phase.holds, heq, decide_false, Bool.toNat_false] at hset
      simp only [hiff]
      omega
  · intro i
    have hset := countP_set (Phase.runs i) (.took (next + 1)) h
    simp only [Phase.runs, Bool.toNat_false] at hset
    rw [hc.ended i]
    omega

theorem Counted.started {index : Nat} {token : Bool} (hc : Counted count next workers log)
    (h : workers[w]? = some (.took index)) (hindex : index < count) :
    Counted count next (workers.set w (.running index)) (log ++ [.started w index token]) where
  lower := hc.lower
  reach := by
    have hreach := hc.reach
    have hset := countP_set (Phase.beyond count) (.running index) h
    have hbefore : ¬ (count : Int) ≤ index := by omega
    simp only [Phase.beyond, hbefore, decide_false, Bool.toNat_false] at hset
    omega
  given w' index' hw' := by
    rcases getElem?_set_eq_some.mp hw' with ⟨-, -, hq⟩ | ⟨-, hold⟩
    · cases hq
    · exact hc.given w' index' hold
  taken i hi := by
    have htaken := hc.taken i hi
    have hset := countP_set (Phase.holds i) (.running index) h
    simp only [Phase.holds, Int.natCast_inj, Bool.toNat_false] at hset
    simp only [List.countP_append, List.countP_singleton, Event.startsAt, decide_eq_true_eq]
    by_cases heq : index = i
    · simp only [heq, decide_true, Bool.toNat_true] at hset
      simp only [heq, if_true]
      omega
    · simp only [heq, decide_false, Bool.toNat_false] at hset
      simp only [heq, if_false]
      omega
  valid i hi := by
    have hne : ¬ index = i := by omega
    have hvalid := hc.valid i hi
    simp [Event.startsAt, hne, hvalid]
  ended i := by
    have hended := hc.ended i
    have hset := countP_set (Phase.runs i) (.running index) h
    simp only [Phase.runs, Bool.toNat_false] at hset
    simp only [List.countP_append, List.countP_singleton, Event.startsAt, Event.finishesAt,
      Event.raisesAt, decide_eq_true_eq, Bool.false_eq_true, if_false]
    by_cases heq : index = i
    · simp only [heq, decide_true, Bool.toNat_true] at hset
      simp only [heq, if_true]
      omega
    · simp only [heq, decide_false, Bool.toNat_false] at hset
      simp only [heq, if_false]
      omega

/-- An item ends, by returning or with an exception. -/
theorem Counted.ends {index : Nat} {e : Event ε} (hc : Counted count next workers log)
    (h : workers[w]? = some (.running index)) (hq : q = .ready ∨ ∃ x, q = .threw x)
    (hstart : ∀ i, e.startsAt i = false)
    (hend : ∀ i, (e.finishesAt i).toNat + (e.raisesAt i).toNat = (decide (index = i)).toNat) :
    Counted count next (workers.set w q) (log ++ [e]) := by
  have hidle : (∀ i, q.holds i = false) ∧ q.beyond count = false ∧ ∀ i, q.runs i = false := by
    rcases hq with rfl | ⟨x, rfl⟩ <;> exact ⟨fun _ => rfl, rfl, fun _ => rfl⟩
  obtain ⟨hholds, hbeyond, hruns⟩ := hidle
  refine ⟨hc.lower, ?_, ?_, ?_, ?_, ?_⟩
  · have hreach := hc.reach
    have hset := countP_set (Phase.beyond count) q h
    rw [hbeyond] at hset
    simp only [Phase.beyond, Bool.toNat_false] at hset
    omega
  · intro w' index' hw'
    rcases getElem?_set_eq_some.mp hw' with ⟨-, -, hq'⟩ | ⟨-, hold⟩
    · subst hq'
      rcases hq with h | ⟨x, h⟩ <;> cases h
    · exact hc.given w' index' hold
  · intro i hi
    have htaken := hc.taken i hi
    have hset := countP_set (Phase.holds i) q h
    rw [hholds i] at hset
    simp only [Phase.holds, Bool.toNat_false] at hset
    simp only [List.countP_append, List.countP_singleton, hstart i, Bool.false_eq_true, if_false]
    omega
  · intro i hi
    simp [hstart i, hc.valid i hi]
  · intro i
    have hended := hc.ended i
    have hset := countP_set (Phase.runs i) q h
    have hone := hend i
    rw [hruns i] at hset
    simp only [Phase.runs, Bool.toNat_false] at hset
    simp only [List.countP_append, List.countP_singleton, hstart i, Bool.false_eq_true, if_false]
    cases hf : e.finishesAt i <;> cases hr : e.raisesAt i <;> simp only [hf, hr, Bool.toNat_false,
      Bool.toNat_true, Bool.false_eq_true, if_true, if_false] at hone ⊢ <;> omega

end Counted

/-- The indices are handed out as the invariant says, after every step. -/
theorem counted_step {c : Call T ε} {s s' : Pool ε} {l : Label ε}
    (hfit : c.items.length + s.workers.length ≤ 2 ^ 31)
    (hc : Counted c.items.length s.next s.workers s.log) (hstep : Stepped c s l s') :
    Counted c.items.length s'.next s'.workers s'.log := by
  cases hstep with
  | left h => exact hc.move h (Nat.zero_le _) (fun _ _ => rfl) (fun _ => rfl) (by simp)
  | passed h => exact hc.move h le_rfl (fun _ _ => rfl) (fun _ => rfl) (by simp)
  | increased h => exact hc.increased h hfit
  | exhausted h hindex =>
      refine hc.move h (Bool.toNat_le _) ?_ (fun _ => rfl) (by simp)
      intro i hi
      simp only [Phase.holds, decide_eq_false_iff_not]
      omega
  | outOfRange h hindex =>
      have hgiven := hc.given _ _ h
      omega
  | started h hindex => exact hc.started h hindex
  | finished h =>
      exact hc.ends h (.inl rfl) (fun _ => rfl) (by simp [Event.finishesAt, Event.raisesAt])
  | raised h =>
      exact hc.ends h (.inr ⟨_, rfl⟩) (fun _ => rfl) (by simp [Event.finishesAt, Event.raisesAt])
  | swallowed h => exact hc.move h (Nat.zero_le _) (fun _ _ => rfl) (fun _ => rfl) (by simp)
  | fatal h => exact hc.move h le_rfl (fun _ _ => rfl) (fun _ => rfl) (by simp)
  | escaped h => exact hc.move h le_rfl (fun _ _ => rfl) (fun _ => rfl) (by simp)
  | cancelled h =>
      exact (hc.move (q := .failed _) h le_rfl (fun _ _ => rfl) (fun _ => rfl) (by simp)).push
        (e := .cancelled _) fun _ => ⟨rfl, rfl, rfl⟩
  | requested => exact hc.push (e := .requested) fun _ => ⟨rfl, rfl, rfl⟩
  | linked => exact hc
  | completed => exact hc

/-! ## Exceptions and the end of the pool -/

/-- The worker carries an exception that has not been swallowed. -/
def Phase.troubled : Phase ε → Bool
  | .threw _ | .cancelling _ | .failed _ => true
  | _ => false

/-- What is known of the exceptions, of the tokens and of the end; `outer₀` is the caller's token
at the start. -/
structure Settling (c : Call T ε) (outer₀ : Bool) (s : Pool ε) : Prop where
  size : s.workers.length = min c.items.length c.maxWorkers.toNat
  left : ∀ p ∈ s.workers, p = .done → s.session = true ∨ (c.items.length : Int) ≤ s.next
  /-- Only the caller and the pool itself cancel the session. -/
  reason : s.session = true → s.outer = true ∨ ∃ e, .failed e ∈ s.workers
  /-- No exception is lost: one of them is still with a worker. -/
  kept : ∀ w i e, .raised w i e ∈ s.log → ∃ p ∈ s.workers, p.troubled = true
  caused : ∀ p ∈ s.workers, p.troubled = true → ∃ w i e, .raised w i e ∈ s.log
  signalled : ∀ w, .cancelled w ∈ s.log → s.session = true
  asked : s.outer = true → outer₀ = true ∨ .requested ∈ s.log
  positive : s.outcome ≠ some .badWorkers → 0 < c.maxWorkers
  returned : s.outcome = some .returned →
    (c.items.length : Int) ≤ s.next + 1 ∧ ∀ p ∈ s.workers, p = .done
  cut : ∀ o, s.outcome = some o → o = .returned ∨ c.maxWorkers ≤ 0 ∨ s.outer = true ∨
    ∃ p ∈ s.workers, p.troubled = true
section Settling

variable {c : Call T ε} {outer₀ : Bool} {s s' : Pool ε} {w : Nat} {p q : Phase ε}

theorem Settling.begin (c : Call T ε) (outer₀ : Bool) : Settling c outer₀ (c.begin outer₀) := by
  have hready : ∀ p ∈ (c.begin outer₀).workers, p = .ready := fun p hp =>
    List.eq_of_mem_replicate hp
  refine ⟨by simp [Call.begin], ?_, fun h => .inl h, by simp [Call.begin], ?_,
    by simp [Call.begin], fun h => .inl h, ?_, ?_, ?_⟩
  · rintro p hp rfl
    exact nomatch hready _ hp
  · intro p hp htrouble
    rw [hready p hp] at htrouble
    cases htrouble
  · intro h
    simp only [Call.begin] at h
    split at h
    · exact absurd rfl h
    · omega
  · intro h
    simp only [Call.begin] at h
    split at h <;> cases h
  · intro o h
    simp only [Call.begin] at h
    split at h
    · rename_i hle
      exact .inr (.inl hle)
    · cases h

theorem mem_set_of_ne {x : Phase ε} (h : s.workers[w]? = some p) (hx : x ∈ s.workers)
    (hne : x ≠ p) : x ∈ s.workers.set w q := by
  obtain ⟨j, hj⟩ := List.mem_iff_getElem?.mp hx
  apply List.mem_of_getElem? (i := j)
  apply getElem?_set_eq_some.mpr
  refine .inr ⟨?_, hj⟩
  rintro rfl
  rw [hj] at h
  exact hne (Option.some.inj h)

/-- One worker that has not ended moves on. -/
theorem Settling.moved (hs : Settling c outer₀ s) (h : s.workers[w]? = some p)
    (hp : p.ended = false) (hworkers : s'.workers = s.workers.set w q)
    (houtcome : s'.outcome = s.outcome) (houter : s'.outer = s.outer) (hnext : s.next ≤ s'.next)
    (hlog : s.log ⊆ s'.log) (hsession : s.session = true → s'.session = true)
    (hreason : s'.session = true → s.session = true ∨ ∃ e, q = .failed e)
    (hleft : q = .done → s.session = true ∨ (c.items.length : Int) ≤ s.next)
    (htrouble : p.troubled = true → q.troubled = true ∨ ∃ e, .failed e ∈ s.workers)
    (hraised : ∀ w i e, .raised w i e ∈ s'.log → .raised w i e ∈ s.log ∨ q.troubled = true)
    (hcause : q.troubled = true → ∃ w i e, .raised w i e ∈ s'.log)
    (hsignal : ∀ w, .cancelled w ∈ s'.log → .cancelled w ∈ s.log ∨ s'.session = true) :
    Settling c outer₀ s' := by
  have hlt : w < s.workers.length := (List.getElem?_eq_some_iff.mp h).1
  have hmem : p ∈ s.workers := List.mem_of_getElem? h
  have hfailed : ∀ e, .failed e ∈ s.workers → .failed e ∈ s'.workers := by
    intro e he
    rw [hworkers]
    apply mem_set_of_ne h he
    rintro rfl
    cases hp
  have hq : q ∈ s'.workers := by
    rw [hworkers]
    exact List.mem_set hlt q
  have hkeep : (∃ x ∈ s.workers, x.troubled = true) → ∃ x ∈ s'.workers, x.troubled = true := by
    rintro ⟨x, hx, hxt⟩
    by_cases hxp : x = p
    · subst hxp
      rcases htrouble hxt with hqt | ⟨e, he⟩
      · exact ⟨q, hq, hqt⟩
      · exact ⟨_, hfailed e he, rfl⟩
    · rw [hworkers]
      exact ⟨x, mem_set_of_ne h hx hxp, hxt⟩
  refine ⟨by rw [hworkers, List.length_set, hs.size], ?_, ?_, ?_, ?_, ?_, ?_, ?_, ?_, ?_⟩
  · rintro x hx rfl
    rw [hworkers] at hx
    have hold : s.session = true ∨ (c.items.length : Int) ≤ s.next := by
      rcases List.mem_or_eq_of_mem_set hx with hx | rfl
      · exact hs.left _ hx rfl
      · exact hleft rfl
    exact hold.imp hsession fun hle => hle.trans hnext
  · intro hs'
    rcases hreason hs' with hold | ⟨e, rfl⟩
    · rw [houter]
      exact (hs.reason hold).imp_right fun ⟨e, he⟩ => ⟨e, hfailed e he⟩
    · exact .inr ⟨e, hq⟩
  · intro w' i e hin
    rcases hraised w' i e hin with hold | hqt
    · exact hkeep (hs.kept w' i e hold)
    · exact ⟨q, hq, hqt⟩
  · intro x hx hxt
    rw [hworkers] at hx
    rcases List.mem_or_eq_of_mem_set hx with hx | rfl
    · obtain ⟨w', i, e, hin⟩ := hs.caused x hx hxt
      exact ⟨w', i, e, hlog hin⟩
    · exact hcause hxt
  · intro w' hin
    exact (hsignal w' hin).elim (fun hold => hsession (hs.signalled w' hold)) id
  · intro ho
    rw [houter] at ho
    exact (hs.asked ho).imp_right fun hin => hlog hin
  · rw [houtcome]
    exact hs.positive
  · intro hret
    rw [houtcome] at hret
    have hdone := (hs.returned hret).2 p hmem
    subst hdone
    cases hp
  · intro o ho
    rw [houtcome] at ho
    rw [houter]
    rcases hs.cut o ho with h | h | h | h
    · exact .inl h
    · exact .inr (.inl h)
    · exact .inr (.inr (.inl h))
    · exact .inr (.inr (.inr (hkeep h)))

theorem whenAll_eq_none {workers : List (Phase ε)} :
    whenAll c workers = none ↔ ∀ e, .failed e ∉ workers := by
  have hnil : whenAll c workers = none ↔ workers.filterMap Phase.failure = [] := by
    unfold whenAll
    cases workers.filterMap Phase.failure with
    | nil => simp
    | cons e rest => simp
  rw [hnil, List.filterMap_eq_nil_iff]
  constructor
  · intro h e he
    exact nomatch h _ he
  · intro h p hp
    cases p with
    | failed e => exact absurd hp (h e)
    | _ => rfl

theorem mem_of_whenAll {workers : List (Phase ε)} {e : ε} (h : whenAll c workers = some e) :
    .failed e ∈ workers := by
  have hmem : e ∈ workers.filterMap Phase.failure := by
    unfold whenAll at h
    rcases Option.or_eq_some_iff.mp h with hfind | ⟨-, hhead⟩
    · exact List.mem_of_find?_eq_some hfind
    · exact List.mem_of_head? hhead
  obtain ⟨p, hp, hfailure⟩ := List.mem_filterMap.mp hmem
  cases p with
  | failed x => exact Option.some.inj hfailure ▸ hp
  | _ => cases hfailure

theorem Settling.requested (hs : Settling c outer₀ s) :
    Settling c outer₀ (({ s with outer := true } : Pool ε).push .requested) := by
  refine ⟨hs.size, hs.left, fun _ => .inl rfl, ?_, ?_, ?_, ?_, hs.positive, hs.returned, ?_⟩
  · intro w i e hin
    exact hs.kept w i e (by simpa [Pool.push] using hin)
  · intro p hp htrouble
    obtain ⟨w, i, e, hin⟩ := hs.caused p hp htrouble
    exact ⟨w, i, e, List.mem_append_left _ hin⟩
  · intro w hin
    exact hs.signalled w (by simpa [Pool.push] using hin)
  · exact fun _ => .inr (List.mem_append_right _ (List.mem_singleton.mpr rfl))
  · exact fun o ho => (hs.cut o ho).imp_right fun h => h.imp_right fun _ => .inl rfl

theorem Settling.linked (hs : Settling c outer₀ s) (houter : s.outer = true) :
    Settling c outer₀ { s with session := true } :=
  ⟨hs.size, fun _ _ _ => .inl rfl, fun _ => .inl houter, hs.kept, hs.caused, fun _ _ => rfl,
    hs.asked, hs.positive, hs.returned, hs.cut⟩

theorem Settling.completed (hs : Settling c outer₀ s) (hlower : -1 ≤ s.next)
    (hnone : s.outcome = none) (hended : s.workers.all Phase.ended = true) :
    Settling c outer₀ { s with outcome := some (match whenAll c s.workers with
      | some e => .threw e
      | none => if s.outer then .canceled else .returned) } := by
  have hpos : 0 < c.maxWorkers := hs.positive (by simp [hnone])
  refine ⟨hs.size, hs.left, hs.reason, hs.kept, hs.caused, hs.signalled, hs.asked, ?_, ?_, ?_⟩
  · exact fun _ => hpos
  · intro hret
    have hfailures : whenAll c s.workers = none := by
      cases hall : whenAll c s.workers with
      | none => rfl
      | some e => simp [hall] at hret
    have houter : s.outer = false := by
      simpa [hfailures] using hret
    have hnot := whenAll_eq_none.mp hfailures
    have hdone : ∀ p ∈ s.workers, p = .done := by
      intro p hp
      have hend := List.all_eq_true.mp hended p hp
      cases p with
      | done => rfl
      | failed e => exact absurd hp (hnot e)
      | _ => cases hend
    refine ⟨?_, hdone⟩
    cases hw : s.workers with
    | nil =>
        have hsize := hs.size
        rw [hw, List.length_nil] at hsize
        simp only
        omega
    | cons p rest =>
        have hmem : p ∈ s.workers := by simp [hw]
        rcases hs.left p hmem (hdone p hmem) with hsession | hle
        · rcases hs.reason hsession with ho | ⟨e, he⟩
          · simp [houter] at ho
          · exact absurd he (hnot e)
        · simp only
          omega
  · intro o ho
    cases hall : whenAll c s.workers with
    | none =>
        cases houter : s.outer with
        | false => exact .inl (by simpa [hall, houter] using ho.symm)
        | true => exact .inr (.inr (.inl rfl))
    | some e =>
        have hsome : ∃ e, .failed e ∈ s.workers := by
          by_contra hno
          rw [whenAll_eq_none.mpr (not_exists.mp hno)] at hall
          cases hall
        obtain ⟨e', he'⟩ := hsome
        exact .inr (.inr (.inr ⟨_, he', rfl⟩))

theorem settling_step {l : Label ε} (hc : Counted c.items.length s.next s.workers s.log)
    (hfit : c.items.length + s.workers.length ≤ 2 ^ 31) (hs : Settling c outer₀ s)
    (hstep : Stepped c s l s') : Settling c outer₀ s' := by
  cases hstep with
  | left h hsession =>
      exact hs.moved h rfl rfl rfl rfl le_rfl (List.Subset.refl _) id .inl (fun _ => .inl hsession)
        (by simp [Phase.troubled]) (fun _ _ _ => .inl) (by simp [Phase.troubled]) fun _ => .inl
  | passed h =>
      exact hs.moved h rfl rfl rfl rfl le_rfl (List.Subset.refl _) id .inl (by simp)
        (by simp [Phase.troubled]) (fun _ _ _ => .inl) (by simp [Phase.troubled]) fun _ => .inl
  | increased h =>
      have hnext := hc.increment_eq h hfit
      exact hs.moved h rfl rfl rfl rfl (by simp only; omega) (List.Subset.refl _) id .inl (by simp)
        (by simp [Phase.troubled]) (fun _ _ _ => .inl) (by simp [Phase.troubled]) fun _ => .inl
  | exhausted h hindex =>
      have hgiven := hc.given _ _ h
      exact hs.moved h rfl rfl rfl rfl le_rfl (List.Subset.refl _) id .inl
        (fun _ => .inr (hindex.trans hgiven.2)) (by simp [Phase.troubled]) (fun _ _ _ => .inl)
        (by simp [Phase.troubled]) fun _ => .inl
  | outOfRange h hindex =>
      have hgiven := hc.given _ _ h
      omega
  | started h =>
      exact hs.moved h rfl rfl rfl rfl le_rfl (List.subset_append_left ..) id .inl (by simp)
        (by simp [Phase.troubled]) (by simp +contextual [Pool.push, Pool.move])
          (by simp [Phase.troubled])
        (by simp +contextual [Pool.push, Pool.move])
  | finished h =>
      exact hs.moved h rfl rfl rfl rfl le_rfl (List.subset_append_left ..) id .inl (by simp)
        (by simp [Phase.troubled]) (by simp +contextual [Pool.push, Pool.move])
          (by simp [Phase.troubled])
        (by simp +contextual [Pool.push, Pool.move])
  | raised h =>
      exact hs.moved h rfl rfl rfl rfl le_rfl (List.subset_append_left ..) id .inl (by simp)
        (fun _ => .inl rfl) (fun _ _ _ _ => .inr rfl)
        (fun _ => ⟨_, _, _, List.mem_append_right _ (List.mem_singleton.mpr rfl)⟩)
        (by simp +contextual [Pool.push, Pool.move])
  | swallowed h _ hsession houter =>
      have hfailed : ∃ e, .failed e ∈ s.workers := by
        rcases hs.reason hsession with ho | hex
        · simp [houter] at ho
        · exact hex
      exact hs.moved h rfl rfl rfl rfl le_rfl (List.Subset.refl _) id .inl (fun _ => .inl hsession)
        (fun _ => .inr hfailed) (fun _ _ _ => .inl) (by simp [Phase.troubled]) fun _ => .inl
  | fatal h =>
      have hcaused := hs.caused _ (List.mem_of_getElem? h) rfl
      exact hs.moved h rfl rfl rfl rfl le_rfl (List.Subset.refl _) id .inl (by simp)
        (fun _ => .inl rfl) (fun _ _ _ => .inl) (fun _ => hcaused) fun _ => .inl
  | escaped h =>
      have hcaused := hs.caused _ (List.mem_of_getElem? h) rfl
      exact hs.moved h rfl rfl rfl rfl le_rfl (List.Subset.refl _) id .inl (by simp)
        (fun _ => .inl rfl) (fun _ _ _ => .inl) (fun _ => hcaused) fun _ => .inl
  | cancelled h =>
      obtain ⟨w', i, e, hin⟩ := hs.caused _ (List.mem_of_getElem? h) rfl
      exact hs.moved h rfl rfl rfl rfl le_rfl (List.subset_append_left ..) (fun _ => rfl)
        (fun _ => .inr ⟨_, rfl⟩) (by simp) (fun _ => .inl rfl) (fun _ _ _ _ => .inr rfl)
        (fun _ => ⟨w', i, e, List.mem_append_left _ hin⟩) fun _ _ => .inr rfl
  | requested => exact hs.requested
  | linked houter => exact hs.linked houter
  | completed hnone hended => exact hs.completed hc.lower hnone hended

end Settling

/-! ## The way of an exception -/

/-- The exception that a worker has. -/
def Phase.exception : Phase ε → Option ε
  | .threw e | .cancelling e | .failed e => some e
  | _ => none

/-- How far a worker is with an exception of `process`: it has it still, its task has failed with
it, and then a session-fatal one has been answered by `Cancel`, or it was swallowed as the
consequence of an earlier cancellation. -/
def Carries (c : Call T ε) (s : Pool ε) (w : Nat) (e : ε) : Phase ε → Prop
  | .threw x | .cancelling x => x = e
  | .failed x => x = e ∧ (c.sessionFatal e = true → .cancelled w ∈ s.log)
  | .done => c.isCancellation e = true ∧ s.session = true
  | _ => False

theorem Carries.mono {c : Call T ε} {s s' : Pool ε} {w : Nat} {e : ε} {p : Phase ε}
    (h : Carries c s w e p) (hlog : s.log ⊆ s'.log)
    (hsession : s.session = true → s'.session = true) :
    Carries c s' w e p := by
  cases p with
  | threw x => exact h
  | cancelling x => exact h
  | failed x => exact ⟨h.1, fun hfatal => hlog (h.2 hfatal)⟩
  | done => exact ⟨h.1, hsession h.2⟩
  | ready => exact h
  | checked => exact h
  | took index => exact h
  | running index => exact h

/-- What becomes of the exceptions, and what the end of the pool has to do with them. -/
structure Handling (c : Call T ε) (s : Pool ε) : Prop where
  carried : ∀ w i e, .raised w i e ∈ s.log → ∃ p, s.workers[w]? = some p ∧ Carries c s w e p
  source : ∀ (w : Nat) (p : Phase ε) e, s.workers[w]? = some p → p.exception = some e →
    ∃ i, .raised w i e ∈ s.log
  fatal : ∀ (w : Nat) (e : ε), s.workers[w]? = some (.cancelling e) → c.sessionFatal e = true
  called : ∀ w, .cancelled w ∈ s.log → ∃ i e, .raised w i e ∈ s.log ∧ c.sessionFatal e = true
  closed : ∀ o, s.outcome = some o → s.workers.all Phase.ended = true ∧
    ((∃ e, .failed e ∈ s.workers) → ∃ e, o = .threw e ∧ .failed e ∈ s.workers)

section Handling

variable {c : Call T ε} {outer₀ : Bool} {s s' : Pool ε} {w : Nat} {p q : Phase ε}

theorem Handling.begin (c : Call T ε) (outer₀ : Bool) : Handling c (c.begin outer₀) := by
  have hready : ∀ (w : Nat) (p : Phase ε), (c.begin outer₀).workers[w]? = some p → p = .ready :=
    fun w p hp => List.eq_of_mem_replicate (List.mem_of_getElem? hp)
  refine ⟨by simp [Call.begin], ?_, ?_, by simp [Call.begin], fun o ho => ?_⟩
  · intro w p e hp he
    rw [hready w p hp] at he
    cases he
  · intro w e hp
    exact nomatch hready w _ hp
  · have hnone : (c.begin outer₀).workers = [] := by
      simp only [Call.begin] at ho ⊢
      split at ho
      · rename_i hle
        rw [Int.toNat_of_nonpos hle, Nat.min_zero, List.replicate_zero]
      · cases ho
    rw [hnone]
    exact ⟨rfl, fun ⟨e, he⟩ => absurd he List.not_mem_nil⟩

/-- One worker that has not ended moves on. -/
theorem Handling.moved (hh : Handling c s) (h : s.workers[w]? = some p) (hp : p.ended = false)
    (hworkers : s'.workers = s.workers.set w q) (houtcome : s'.outcome = s.outcome)
    {more : List (Event ε)} (hlog : s'.log = s.log ++ more)
    (hsession : s.session = true → s'.session = true)
    (hcarry : ∀ e, Carries c s w e p → Carries c s' w e q)
    (hmore : ∀ w' i e, .raised w' i e ∈ more → w' = w ∧ q = .threw e)
    (hsource : ∀ e, q.exception = some e → p.exception = some e ∨ ∃ i, .raised w i e ∈ more)
    (hfatal : ∀ e, q = .cancelling e → c.sessionFatal e = true)
    (hcalled : ∀ w', .cancelled w' ∈ more → w' = w ∧ ∃ e, p = .cancelling e) : Handling c s' := by
  have hsub : s.log ⊆ s'.log := hlog ▸ List.subset_append_left ..
  have hself : s'.workers[w]? = some q := by
    rw [hworkers]
    exact List.getElem?_set_self (List.getElem?_eq_some_iff.mp h).1
  refine ⟨fun w' i e hin => ?_, fun w' x e hx he => ?_, fun w' e hx => ?_, fun w' hin => ?_,
    fun o ho => ?_⟩
  · rw [hlog] at hin
    rcases List.mem_append.mp hin with hin | hin
    · obtain ⟨x, hx, hcarries⟩ := hh.carried w' i e hin
      by_cases heq : w = w'
      · subst heq
        obtain rfl : x = p := Option.some.inj (hx.symm.trans h)
        exact ⟨q, hself, hcarry e hcarries⟩
      · refine ⟨x, ?_, hcarries.mono hsub hsession⟩
        rw [hworkers, List.getElem?_set_ne heq]
        exact hx
    · obtain ⟨rfl, rfl⟩ := hmore w' i e hin
      exact ⟨_, hself, rfl⟩
  · rw [hworkers] at hx
    rcases getElem?_set_eq_some.mp hx with ⟨rfl, -, rfl⟩ | ⟨-, hold⟩
    · rcases hsource e he with hpe | ⟨i, hin⟩
      · exact (hh.source w p e h hpe).imp fun i hin => hsub hin
      · exact ⟨i, hlog ▸ List.mem_append_right _ hin⟩
    · exact (hh.source w' x e hold he).imp fun i hin => hsub hin
  · rw [hworkers] at hx
    rcases getElem?_set_eq_some.mp hx with ⟨rfl, -, hq⟩ | ⟨-, hold⟩
    · exact hfatal e hq
    · exact hh.fatal w' e hold
  · rw [hlog] at hin
    rcases List.mem_append.mp hin with hin | hin
    · obtain ⟨i, e, hraised, hf⟩ := hh.called w' hin
      exact ⟨i, e, hsub hraised, hf⟩
    · obtain ⟨rfl, e, rfl⟩ := hcalled w' hin
      obtain ⟨i, hraised⟩ := hh.source w' _ e h rfl
      exact ⟨i, e, hsub hraised, hh.fatal w' e h⟩
  · rw [houtcome] at ho
    have hall := List.all_eq_true.mp (hh.closed o ho).1 p (List.mem_of_getElem? h)
    rw [hp] at hall
    cases hall

/-- A step that no worker takes. -/
theorem Handling.aside (hh : Handling c s) (hworkers : s'.workers = s.workers)
    (houtcome : s'.outcome = s.outcome) {more : List (Event ε)} (hlog : s'.log = s.log ++ more)
    (hsession : s.session = true → s'.session = true)
    (hmore : ∀ e ∈ more, e = .requested) : Handling c s' := by
  have hsub : s.log ⊆ s'.log := hlog ▸ List.subset_append_left ..
  have hold : ∀ e ∈ s'.log, e ≠ .requested → e ∈ s.log := by
    intro e he hne
    rw [hlog] at he
    exact (List.mem_append.mp he).resolve_right fun he => hne (hmore e he)
  refine ⟨fun w i e hin => ?_, fun w p e hp he => ?_, hworkers ▸ hh.fatal, fun w hin => ?_, ?_⟩
  · rw [hworkers]
    obtain ⟨p, hp, hcarries⟩ := hh.carried w i e (hold _ hin (by simp))
    exact ⟨p, hp, hcarries.mono hsub hsession⟩
  · rw [hworkers] at hp
    exact (hh.source w p e hp he).imp fun i hin => hsub hin
  · obtain ⟨i, e, hraised, hfatal⟩ := hh.called w (hold _ hin (by simp))
    exact ⟨i, e, hsub hraised, hfatal⟩
  · rw [hworkers, houtcome]
    exact hh.closed

theorem Handling.completed (hh : Handling c s) (hended : s.workers.all Phase.ended = true) :
    Handling c { s with outcome := some (match whenAll c s.workers with
      | some e => .threw e
      | none => if s.outer then .canceled else .returned) } := by
  refine ⟨hh.carried, hh.source, hh.fatal, hh.called, fun o ho => ⟨hended, fun ⟨e, he⟩ => ?_⟩⟩
  cases hall : whenAll c s.workers with
  | none => exact absurd he (whenAll_eq_none.mp hall e)
  | some x =>
      rw [hall] at ho
      refine ⟨x, (Option.some.inj ho).symm, ?_⟩
      exact mem_of_whenAll hall

theorem handling_step {l : Label ε} (hc : Counted c.items.length s.next s.workers s.log)
    (hh : Handling c s) (hstep : Stepped c s l s') : Handling c s' := by
  have hsame : s.log = s.log ++ [] := (List.append_nil _).symm
  cases hstep with
  | left h =>
      exact hh.moved h rfl rfl rfl hsame id (fun _ => False.elim) (by simp)
        (by simp [Phase.exception]) (by simp) (by simp)
  | passed h =>
      exact hh.moved h rfl rfl rfl hsame id (fun _ => False.elim) (by simp)
        (by simp [Phase.exception]) (by simp) (by simp)
  | increased h =>
      exact hh.moved h rfl rfl rfl hsame id (fun _ => False.elim) (by simp)
        (by simp [Phase.exception]) (by simp) (by simp)
  | exhausted h hindex =>
      exact hh.moved h rfl rfl rfl hsame id (fun _ => False.elim) (by simp)
        (by simp [Phase.exception]) (by simp) (by simp)
  | outOfRange h hindex =>
      have hgiven := hc.given _ _ h
      omega
  | started h =>
      exact hh.moved h rfl rfl rfl rfl id (fun _ => False.elim) (by simp)
        (by simp [Phase.exception]) (by simp) (by simp)
  | finished h =>
      exact hh.moved h rfl rfl rfl rfl id (fun _ => False.elim) (by simp)
        (by simp [Phase.exception]) (by simp) (by simp)
  | @raised w index e h =>
      exact hh.moved (q := .threw e) h rfl rfl rfl rfl id (fun _ => False.elim)
        (by simp +contextual) (fun x hx => .inr ⟨index, by simpa [Phase.exception] using hx.symm⟩)
        (by simp) (by simp)
  | @swallowed w e h hcancellation hsession houter =>
      refine hh.moved (q := .done) h rfl rfl rfl hsame id ?_ (by simp) (by simp [Phase.exception])
        (by simp) (by simp)
      rintro x rfl
      exact ⟨hcancellation, hsession⟩
  | @fatal w e h hfatal =>
      exact hh.moved (q := .cancelling e) h rfl rfl rfl hsame id (fun _ => id) (by simp)
        (fun _ => .inl) (fun x hx => Phase.cancelling.inj hx ▸ hfatal) (by simp)
  | @escaped w e h hfatal =>
      refine hh.moved (q := .failed e) h rfl rfl rfl hsame id ?_ (by simp) (fun _ => .inl) (by simp)
        (by simp)
      rintro x rfl
      refine ⟨rfl, fun hx => ?_⟩
      rw [hfatal] at hx
      cases hx
  | @cancelled w e h =>
      refine hh.moved (q := .failed e) h rfl rfl rfl rfl (fun _ => rfl) ?_ (by simp)
        (fun _ => .inl) (by simp) (by simp)
      rintro x rfl
      exact ⟨rfl, fun _ => List.mem_append_right _ (List.mem_singleton_self _)⟩
  | requested => exact hh.aside rfl rfl rfl id (by simp)
  | linked houter => exact hh.aside rfl rfl hsame (fun _ => rfl) (by simp)
  | completed hnone hended => exact hh.completed hended

end Handling

/-! ## What is left to do -/

/-- A step of a worker or of `RunAsync`, not of the caller. -/
def Label.own : Label ε → Bool
  | .request | .link => false
  | _ => true

/-- The steps that a worker can take until it increments the counter again. -/
def Phase.stepsLeft : Phase ε → Nat
  | .took _ => 6
  | .running _ => 5
  | .ready | .threw _ => 4
  | .checked | .cancelling _ => 3
  | .done | .failed _ => 0

/-- A bound on the steps of the workers and of `RunAsync` that are left, with four for each index
that has not been handed out. -/
def Pool.remaining (c : Call T ε) (s : Pool ε) : Nat :=
  4 * (c.items.length + s.workers.length - (s.next + 1).toNat) +
    (s.workers.map Phase.stepsLeft).sum + s.outcome.isNone.toNat

section Remaining

variable {c : Call T ε} {s s' : Pool ε} {w : Nat} {p q : Phase ε}

theorem remaining_moved (h : s.workers[w]? = some p) (hlt : q.stepsLeft < p.stepsLeft)
    (hworkers : s'.workers = s.workers.set w q) (hnext : s'.next = s.next)
    (houtcome : s'.outcome = s.outcome) : s'.remaining c < s.remaining c := by
  have hsum := sum_set Phase.stepsLeft h q
  simp only [Pool.remaining, hworkers, hnext, houtcome, List.length_set]
  omega

/-- **The pool runs out of steps**: its own steps bring it nearer to the end, those of the caller
leave it where it is. -/
theorem remaining_step {l : Label ε} (hc : Counted c.items.length s.next s.workers s.log)
    (hfit : c.items.length + s.workers.length ≤ 2 ^ 31) (hstep : Stepped c s l s') :
    if l.own then s'.remaining c < s.remaining c else s'.remaining c = s.remaining c := by
  cases hstep with
  | left h => exact remaining_moved h (by simp [Phase.stepsLeft]) rfl rfl rfl
  | passed h => exact remaining_moved h (by simp [Phase.stepsLeft]) rfl rfl rfl
  | increased h =>
      have hnext := hc.increment_eq h hfit
      have hsum := sum_set Phase.stepsLeft h (.took (increment s.next))
      have hlower := hc.lower
      have hroom := hc.room h
      simp only [Phase.stepsLeft] at hsum
      simp only [Label.own, if_true, Pool.remaining, Pool.move, List.length_set]
      omega
  | exhausted h => exact remaining_moved (q := .done) h (by simp [Phase.stepsLeft]) rfl rfl rfl
  | outOfRange h => exact remaining_moved (q := .threw _) h (by simp [Phase.stepsLeft]) rfl rfl rfl
  | started h => exact remaining_moved (q := .running _) h (by simp [Phase.stepsLeft]) rfl rfl rfl
  | finished h => exact remaining_moved (q := .ready) h (by simp [Phase.stepsLeft]) rfl rfl rfl
  | raised h => exact remaining_moved (q := .threw _) h (by simp [Phase.stepsLeft]) rfl rfl rfl
  | swallowed h => exact remaining_moved (q := .done) h (by simp [Phase.stepsLeft]) rfl rfl rfl
  | fatal h => exact remaining_moved (q := .cancelling _) h (by simp [Phase.stepsLeft]) rfl rfl rfl
  | escaped h => exact remaining_moved (q := .failed _) h (by simp [Phase.stepsLeft]) rfl rfl rfl
  | cancelled h => exact remaining_moved (q := .failed _) h (by simp [Phase.stepsLeft]) rfl rfl rfl
  | requested => rfl
  | linked => rfl
  | completed hnone =>
      simp only [Label.own, if_true, Pool.remaining, hnone, Option.isNone_none, Option.isNone_some,
        Bool.toNat_true, Bool.toNat_false]
      omega

end Remaining

/-! ## Every run -/

section Runs

variable {c : Call T ε} {outer₀ : Bool} {s s' : Pool ε}

/-- What holds in every state that the pool reaches. -/
structure Inv (c : Call T ε) (outer₀ : Bool) (s : Pool ε) : Prop where
  counted : Counted c.items.length s.next s.workers s.log
  settling : Settling c outer₀ s
  handling : Handling c s

theorem inv_step {l : Label ε}
    (hfit : c.items.length + min c.items.length c.maxWorkers.toNat ≤ 2 ^ 31)
    (hinv : Inv c outer₀ s) (hstep : step c s l = some s') : Inv c outer₀ s' := by
  have hsize : c.items.length + s.workers.length ≤ 2 ^ 31 := by
    rw [hinv.settling.size]
    exact hfit
  exact ⟨counted_step hsize hinv.counted (step_cases hstep),
    settling_step hinv.counted hsize hinv.settling (step_cases hstep),
    handling_step hinv.counted hinv.handling (step_cases hstep)⟩

theorem inv_of_run (hfit : c.items.length + min c.items.length c.maxWorkers.toNat ≤ 2 ^ 31)
    (hrun : Run (step c) (fun _ _ => True) (c.begin outer₀) s) : Inv c outer₀ s :=
  hrun.invariant ⟨.begin outer₀ c, .begin c outer₀, .begin c outer₀⟩ fun _ _ _ hinv _ hstep =>
    inv_step hfit hinv hstep

/-- Every index is started at most once. -/
theorem Inv.started_le_one (hinv : Inv c outer₀ s) (i : Nat) :
    s.log.countP (Event.startsAt i) ≤ 1 := by
  rcases Nat.lt_or_ge i c.items.length with hi | hi
  · have htaken := hinv.counted.taken i hi
    split at htaken <;> omega
  · rw [hinv.counted.valid i hi]
    omega

/-- A pool that returned has processed every item to its end. -/
theorem Inv.returned (hinv : Inv c outer₀ s) (h : s.outcome = some .returned) {i : Nat}
    (hi : i < c.items.length) :
    s.log.countP (Event.startsAt i) = 1 ∧ s.log.countP (Event.finishesAt i) = 1 := by
  obtain ⟨hnext, hdone⟩ := hinv.settling.returned h
  have hidle (f : Phase ε → Bool) (hf : f .done = false) : s.workers.countP f = 0 := by
    apply List.countP_eq_zero.mpr
    intro p hp
    rw [hdone p hp, hf]
    simp
  have htaken := hinv.counted.taken i hi
  have hended := hinv.counted.ended i
  have hraised : s.log.countP (Event.raisesAt i) = 0 := by
    apply List.countP_eq_zero.mpr
    intro e he hat
    cases e with
    | raised w j x =>
        obtain ⟨p, hp, htrouble⟩ := hinv.settling.kept w j x he
        rw [hdone p hp] at htrouble
        cases htrouble
    | _ => cases hat
  have hle : (i : Int) ≤ s.next := by omega
  rw [hidle _ rfl, if_pos hle] at htaken
  rw [hidle _ rfl, hraised] at hended
  omega

/-- After an exception of `process` the pool ends with one. -/
theorem Inv.ends_with_exception (hinv : Inv c outer₀ s) {w i : Nat} {e : ε}
    (h : .raised w i e ∈ s.log) {o : Outcome ε} (ho : s.outcome = some o) :
    ∃ e' w' i', o = .threw e' ∧ .raised w' i' e' ∈ s.log := by
  obtain ⟨hended, hthrew⟩ := hinv.handling.closed o ho
  obtain ⟨p, hp, htrouble⟩ := hinv.settling.kept w i e h
  have hfailed : ∃ x, .failed x ∈ s.workers := by
    have hend := List.all_eq_true.mp hended p hp
    cases p with
    | failed x => exact ⟨x, hp⟩
    | threw x => cases hend
    | cancelling x => cases hend
    | _ => cases htrouble
  obtain ⟨e', heq, he'⟩ := hthrew hfailed
  obtain ⟨w', hw'⟩ := List.mem_iff_getElem?.mp he'
  obtain ⟨i', hin⟩ := hinv.handling.source w' _ e' hw' rfl
  exact ⟨e', w', i', heq, hin⟩

/-- Without a cancellation and without an exception the pool can only return. -/
theorem Inv.undisturbed (hinv : Inv c outer₀ s) (hpos : 0 < c.maxWorkers) (houter : outer₀ = false)
    (hask : .requested ∉ s.log) (hraised : ∀ w i e, .raised w i e ∉ s.log) {o : Outcome ε}
    (ho : s.outcome = some o) : o = .returned := by
  rcases hinv.settling.cut o ho with h | h | h | ⟨p, hp, htrouble⟩
  · exact h
  · omega
  · rcases hinv.settling.asked h with h | h
    · rw [houter] at h
      cases h
    · exact absurd h hask
  · obtain ⟨w, i, e, hin⟩ := hinv.settling.caused p hp htrouble
    exact absurd hin (hraised w i e)

/-- While nothing is inside `process` and `RunAsync` has not ended, a worker or `RunAsync` itself
can go on. -/
theorem pool_progress (c : Call T ε) (hnone : s.outcome = none)
    (hidle : s.workers.countP Phase.active = 0) : ∃ l, l.own = true ∧ (step c s l).isSome := by
  by_cases hended : s.workers.all Phase.ended = true
  · refine ⟨.complete, rfl, ?_⟩
    simp only [step]
    rw [if_pos ⟨hnone, hended⟩]
    rfl
  · obtain ⟨p, hp, hnot⟩ : ∃ p ∈ s.workers, p.ended = false := by simpa using hended
    obtain ⟨w, hw⟩ := List.mem_iff_getElem?.mp hp
    cases p with
    | ready => exact ⟨.check w, rfl, by simp only [step, hw, Option.isSome_some]⟩
    | checked => exact ⟨.increment w, rfl, by simp only [step, hw, Option.isSome_some]⟩
    | took index =>
        refine ⟨.start w, rfl, ?_⟩
        simp only [step, hw, ← apply_ite some, Option.isSome_some]
    | running index => exact absurd (List.countP_eq_zero.mp hidle _ hp) (by simp [Phase.active])
    | threw e =>
        refine ⟨.handle w, rfl, ?_⟩
        simp only [step, hw, ← apply_ite some, Option.isSome_some]
    | cancelling e => exact ⟨.cancelSession w, rfl, by simp only [step, hw, Option.isSome_some]⟩
    | done => cases hnot
    | failed e => cases hnot

/-! ## After the session was cancelled -/

def Event.startedBy (w : Nat) : Event ε → Bool
  | .started worker _ _ => worker = w
  | _ => false

/-- The worker looked before the cancellation and may still start an item. -/
def Phase.pending : Phase ε → Bool
  | .checked | .took _ => true
  | _ => false

/-- Since `s₁` every start had a cancelled token, and no worker has started or may start more than
one item. -/
structure Spent (s₁ s : Pool ε) : Prop where
  session : s.session = true
  log : ∃ new, s.log = s₁.log ++ new ∧
    (∀ w i token, .started w i token ∈ new → token = true) ∧
    ∀ w, new.countP (Event.startedBy w) + (s.workers[w]?.any Phase.pending).toNat ≤ 1

theorem Spent.refl (h : s.session = true) : Spent s s :=
  ⟨h, [], by simp, by simp, fun w => by simpa using Bool.toNat_le _⟩

/-- A worker moves on without starting an item. -/
theorem Spent.move {s₁ : Pool ε} {w : Nat} {p q : Phase ε} {more : List (Event ε)}
    (hs : Spent s₁ s) (h : s.workers[w]? = some p) (hq : q.pending = true → p.pending = true)
    (hworkers : s'.workers = s.workers.set w q) (hsession : s'.session = true)
    (hlog : s'.log = s.log ++ more) (hmore : ∀ w i token, .started w i token ∉ more) :
    Spent s₁ s' := by
  obtain ⟨new, hnew, htoken, hcount⟩ := hs.log
  refine ⟨hsession, new ++ more, by rw [hlog, hnew, List.append_assoc], ?_, ?_⟩
  · intro w' i token hin
    rcases List.mem_append.mp hin with hin | hin
    · exact htoken w' i token hin
    · exact absurd hin (hmore w' i token)
  · intro w'
    have hw' := hcount w'
    have hnone : more.countP (Event.startedBy w') = 0 := by
      apply List.countP_eq_zero.mpr
      intro e he hby
      cases e with
      | started worker i token => exact hmore worker i token he
      | _ => cases hby
    have hpending : (s'.workers[w']?.any Phase.pending).toNat ≤
        (s.workers[w']?.any Phase.pending).toNat := by
      rw [hworkers, List.getElem?_set]
      split
      · rename_i heq
        subst heq
        rw [h]
        split
        · cases hqp : q.pending with
          | false => simp [hqp]
          | true => simp [hqp, hq hqp]
        · simp
      · exact le_rfl
    rw [List.countP_append, hnone]
    omega

theorem Spent.start {s₁ : Pool ε} {w index : Nat} (hs : Spent s₁ s)
    (h : s.workers[w]? = some (.took index)) :
    Spent s₁ ((s.move w (.running index)).push (.started w index s.session)) := by
  obtain ⟨new, hnew, htoken, hcount⟩ := hs.log
  refine ⟨hs.session, new ++ [.started w index s.session], ?_, ?_, ?_⟩
  · simp only [Pool.push, Pool.move, hnew, List.append_assoc]
  · intro w' i token hin
    rcases List.mem_append.mp hin with hin | hin
    · exact htoken w' i token hin
    · simp only [List.mem_singleton, Event.started.injEq] at hin
      rw [hin.2.2, hs.session]
  · intro w'
    have hw' := hcount w'
    simp only [Pool.push, Pool.move, List.countP_append, List.countP_singleton, Event.startedBy,
      decide_eq_true_eq, List.getElem?_set]
    by_cases heq : w = w'
    · subst heq
      have hlt : w < s.workers.length := (List.getElem?_eq_some_iff.mp h).1
      simp only [h, Option.any_some, Phase.pending, Bool.toNat_true] at hw'
      simp only [if_true, hlt, Option.any_some, Phase.pending, Bool.toNat_false]
      omega
    · simp only [heq, if_false]
      omega

theorem spent_step {s₁ : Pool ε} {l : Label ε} (hs : Spent s₁ s)
    (hstep : Stepped c s l s') : Spent s₁ s' := by
  have hsame : s.log = s.log ++ [] := (List.append_nil _).symm
  cases hstep with
  | left h => exact hs.move (q := .done) h nofun rfl hs.session hsame (by simp)
  | passed h hsession =>
      rw [hs.session] at hsession
      cases hsession
  | increased h => exact hs.move h (fun _ => rfl) rfl hs.session hsame (by simp)
  | exhausted h => exact hs.move (q := .done) h nofun rfl hs.session hsame (by simp)
  | outOfRange h => exact hs.move (q := .threw _) h nofun rfl hs.session hsame (by simp)
  | started h => exact hs.start h
  | finished h => exact hs.move (q := .ready) h nofun rfl hs.session rfl (by simp)
  | raised h => exact hs.move (q := .threw _) h nofun rfl hs.session rfl (by simp)
  | swallowed h => exact hs.move (q := .done) h nofun rfl hs.session hsame (by simp)
  | fatal h => exact hs.move (q := .cancelling _) h nofun rfl hs.session hsame (by simp)
  | escaped h => exact hs.move (q := .failed _) h nofun rfl hs.session hsame (by simp)
  | cancelled h => exact hs.move (q := .failed _) h nofun rfl rfl rfl (by simp)
  | requested =>
      obtain ⟨new, hnew, htoken, hcount⟩ := hs.log
      refine ⟨hs.session, new ++ [.requested], ?_, ?_, ?_⟩
      · simp only [Pool.push, hnew, List.append_assoc]
      · intro w i token hin
        exact htoken w i token (by simpa using hin)
      · intro w
        simpa [Event.startedBy, Pool.push] using hcount w
  | linked => exact ⟨rfl, hs.log⟩
  | completed => exact ⟨hs.session, hs.log⟩

/-- What the pool does after it has cancelled its session. -/
theorem spent_of_run {t : Pool ε} (hsession : s.session = true)
    (hrun : Run (step c) (fun _ _ => True) s t) : Spent s t :=
  hrun.invariant (.refl hsession) fun _ _ _ hs _ hstep => spent_step hs (step_cases hstep)

end Runs

/-- From here on every start has a cancelled token, and no worker starts more than one item. -/
def Winding (c : Call T ε) (s : Pool ε) : Prop :=
  ∀ t, Run (step c) (fun _ _ => True) s t → ∃ new, t.log = s.log ++ new ∧
    (∀ w i token, .started w i token ∈ new → token = true) ∧
    ∀ w, new.countP (Event.startedBy w) ≤ 1

theorem winding_of_session {c : Call T ε} {s : Pool ε} (h : s.session = true) : Winding c s := by
  intro t hrun
  obtain ⟨new, hnew, htoken, hcount⟩ := (spent_of_run h hrun).log
  exact ⟨new, hnew, htoken, fun w => (Nat.le_add_right _ _).trans (hcount w)⟩

/-- What has become of a session-fatal exception that a worker's item threw: the worker is on its
way to `Cancel`, or it has called it and its task has failed, or the exception is a cancellation
that was swallowed because the session was cancelled already; once one of the two last is the case,
the pool winds down. -/
inductive FatalFate (c : Call T ε) (s : Pool ε) (w : Nat) (e : ε) : Prop where
  | caught (h : s.workers[w]? = some (.threw e))
  | cancelling (h : s.workers[w]? = some (.cancelling e))
  | failed (h : s.workers[w]? = some (.failed e)) (hcancel : .cancelled w ∈ s.log)
      (hwinding : Winding c s)
  | swallowed (h : s.workers[w]? = some .done) (hcancellation : c.isCancellation e = true)
      (hwinding : Winding c s)

theorem Inv.fate {c : Call T ε} {outer₀ : Bool} {s : Pool ε} (hinv : Inv c outer₀ s) {w i : Nat}
    {e : ε} (h : .raised w i e ∈ s.log) (hfatal : c.sessionFatal e = true) : FatalFate c s w e := by
  obtain ⟨p, hp, hcarries⟩ := hinv.handling.carried w i e h
  cases p with
  | threw x =>
      obtain rfl : x = e := hcarries
      exact .caught hp
  | cancelling x =>
      obtain rfl : x = e := hcarries
      exact .cancelling hp
  | failed x =>
      obtain ⟨rfl, hcancel⟩ : x = e ∧ _ := hcarries
      have hcancelled := hcancel hfatal
      exact .failed hp hcancelled (winding_of_session (hinv.settling.signalled w hcancelled))
  | done => exact .swallowed hp hcarries.1 (winding_of_session hcarries.2)
  | ready => exact hcarries.elim
  | checked => exact hcarries.elim
  | took index => exact hcarries.elim
  | running index => exact hcarries.elim

/-- **The bounded worker pool**, for every list of items, every worker limit and every
interleaving.  Each index is started at most once and no more than `maxWorkers` items are
processed at a time.  When `RunAsync` returns, each item was processed exactly once, and when
nothing is cancelled and no exception leaves `process` it can only return.  A session-fatal
exception makes its worker call `Cancel` before the worker's task fails, unless it is a cancellation
in a session that is cancelled already; `RunAsync` then ends with an exception that an item threw,
and once `Cancel` was called every worker starts at most one further item, with a cancelled token. 
The pool calls `Cancel` for nothing else.  Until it ends, the pool can go on while no item is being
processed, and its own steps are bounded by `Pool.remaining`, so that it ends when the items do. -/
theorem bounded_worker_pool {c : Call T ε} {outer₀ : Bool} {s : Pool ε}
    (hfit : c.items.length + min c.items.length c.maxWorkers.toNat ≤ 2 ^ 31)
    (hrun : Run (step c) (fun _ _ => True) (c.begin outer₀) s) :
    (∀ i, s.log.countP (Event.startsAt i) ≤ 1) ∧
    s.workers.countP Phase.active ≤ c.maxWorkers.toNat ∧
    (s.outcome = some .returned → ∀ i < c.items.length,
      s.log.countP (Event.startsAt i) = 1 ∧ s.log.countP (Event.finishesAt i) = 1) ∧
    (0 < c.maxWorkers → outer₀ = false → .requested ∉ s.log → (∀ w i e, .raised w i e ∉ s.log) →
      ∀ o, s.outcome = some o → o = .returned) ∧
    (∀ w i e, .raised w i e ∈ s.log → c.sessionFatal e = true → FatalFate c s w e ∧
      ∀ o, s.outcome = some o → ∃ e' w' i', o = .threw e' ∧ .raised w' i' e' ∈ s.log) ∧
    (∀ w, .cancelled w ∈ s.log →
      (∃ i e, .raised w i e ∈ s.log ∧ c.sessionFatal e = true) ∧ Winding c s) ∧
    (s.outcome = none → s.workers.countP Phase.active = 0 →
      ∃ l, l.own = true ∧ (step c s l).isSome) ∧
    ∀ l t, step c s l = some t →
      if l.own then t.remaining c < s.remaining c else t.remaining c = s.remaining c := by
  have hinv := inv_of_run hfit hrun
  have hsize := hinv.settling.size
  refine ⟨hinv.started_le_one, ?_, fun hret i hi => hinv.returned hret hi, ?_,
    fun w i e h hfatal => ⟨hinv.fate h hfatal, fun o => hinv.ends_with_exception h⟩,
    fun w h => ⟨hinv.handling.called w h, winding_of_session (hinv.settling.signalled w h)⟩,
    pool_progress c, fun l t hstep => ?_⟩
  · have hle := List.countP_le_length (p := Phase.active) (l := s.workers)
    omega
  · exact fun hpos houter hask hraised o => hinv.undisturbed hpos houter hask hraised
  · exact remaining_step hinv.counted (by omega) (step_cases hstep)

/-! ## A fatal exception beside a second worker -/

/-- Four items and two workers; the exception `true` ends the session. -/
def fourItems : Call Nat Bool where
  items := [10, 11, 12, 13]
  maxWorkers := 2
  sessionFatal := id
  isCancellation := fun _ => false
  indexError := false

/-- The first worker's item has just thrown the fatal exception. -/
def thrownPool : Pool Bool where
  next := 0
  outer := false
  session := false
  workers := [.threw true, .ready]
  log := [.started 0 0 false, .raised 0 0 true]

theorem thrownPool_reached :
    Run (step fourItems) (fun _ _ => True) (fourItems.begin false) thrownPool := by
  obtain ⟨t, hrun, ht⟩ := Run.exists_of_exec (step fourItems) (P := fun _ _ => True)
    (fun _ _ => true) (fun t => decide (t = thrownPool)) (fourItems.begin false)
    [.check 0, .increment 0, .start 0, .finish 0 (some true)] (fun _ _ _ => trivial)
    (by decide)
  exact of_decide_eq_true ht ▸ hrun

/-- `Cancel` has been called; the second worker looked before. -/
def cancelledPool : Pool Bool where
  next := 0
  outer := false
  session := true
  workers := [.failed true, .checked]
  log := [.started 0 0 false, .raised 0 0 true, .cancelled 0]

theorem cancelledPool_reached :
    Run (step fourItems) (fun _ _ => True) (fourItems.begin false) cancelledPool := by
  obtain ⟨t, hrun, ht⟩ := Run.exists_of_exec (step fourItems) (P := fun _ _ => True)
    (fun _ _ => true) (fun t => decide (t = cancelledPool)) thrownPool
    [.check 1, .handle 0, .cancelSession 0] (fun _ _ _ => trivial) (by decide)
  exact thrownPool_reached.trans (of_decide_eq_true ht ▸ hrun)

/-- The second worker has processed one more item, and `RunAsync` has ended. -/
def endedPool : Pool Bool where
  next := 1
  outer := false
  session := true
  workers := [.failed true, .done]
  outcome := some (.threw true)
  log := [.started 0 0 false, .raised 0 0 true, .cancelled 0, .started 1 1 true, .finished 1 1]

theorem endedPool_reached : Run (step fourItems) (fun _ _ => True) cancelledPool endedPool := by
  obtain ⟨t, hrun, ht⟩ := Run.exists_of_exec (step fourItems) (P := fun _ _ => True)
    (fun _ _ => true) (fun t => decide (t = endedPool)) cancelledPool
    [.increment 1, .start 1, .finish 1 none, .check 1, .complete] (fun _ _ _ => trivial)
    (by decide)
  exact of_decide_eq_true ht ▸ hrun

/-- The same pool when nothing is thrown. -/
def returnedPool : Pool Bool where
  next := 5
  outer := false
  session := false
  workers := [.done, .done]
  outcome := some .returned
  log := [.started 0 0 false, .finished 0 0, .started 1 1 false, .finished 1 1, .started 0 2 false,
    .finished 0 2, .started 1 3 false, .finished 1 3]

theorem returnedPool_reached :
    Run (step fourItems) (fun _ _ => True) (fourItems.begin false) returnedPool := by
  obtain ⟨t, hrun, ht⟩ := Run.exists_of_exec (step fourItems) (P := fun _ _ => True)
    (fun _ _ => true) (fun t => decide (t = returnedPool)) (fourItems.begin false)
    ([0, 1, 0, 1].flatMap (fun w => [.check w, .increment w, .start w, .finish w none]) ++
      [.check 0, .increment 0, .start 0, .check 1, .increment 1, .start 1, .complete])
    (fun _ _ _ => trivial) (by decide)
  exact of_decide_eq_true ht ▸ hrun

/-- The fatal exception from its arrival at the catch clauses to the end of the pool, and the pool
in which nothing is thrown. -/
theorem bounded_worker_pool_thrown :
    (FatalFate fourItems thrownPool 0 true ∧
      ∃ l, l.own = true ∧ (step fourItems thrownPool l).isSome) ∧
    (FatalFate fourItems cancelledPool 0 true ∧ Winding fourItems cancelledPool ∧
      ∃ t, step fourItems cancelledPool (.increment 1) = some t ∧
        t.remaining fourItems < cancelledPool.remaining fourItems) ∧
    (FatalFate fourItems endedPool 0 true ∧
      (∀ o, endedPool.outcome = some o → ∃ e w i, o = .threw e ∧ .raised w i e ∈ endedPool.log) ∧
      endedPool.workers.countP Phase.active ≤ 2 ∧
      ∀ i, endedPool.log.countP (Event.startsAt i) ≤ 1) ∧
    (∀ i < 4, returnedPool.log.countP (Event.startsAt i) = 1 ∧
      returnedPool.log.countP (Event.finishesAt i) = 1) ∧
    ∀ o, returnedPool.outcome = some o → o = .returned := by
  obtain ⟨-, -, -, -, hthrown, -, hprogress, -⟩ :=
    bounded_worker_pool (by decide) thrownPool_reached
  obtain ⟨-, -, -, -, hcancelled, hcalled, -, hless⟩ :=
    bounded_worker_pool (by decide) cancelledPool_reached
  obtain ⟨honce, hlimit, -, -, hended, -⟩ :=
    bounded_worker_pool (by decide) (cancelledPool_reached.trans endedPool_reached)
  obtain ⟨-, -, hreturned, honly, -⟩ := bounded_worker_pool (by decide) returnedPool_reached
  exact ⟨⟨(hthrown 0 0 true (by decide) rfl).1, hprogress rfl (by decide)⟩,
    ⟨(hcancelled 0 0 true (by decide) rfl).1, (hcalled 0 (by decide)).2, _, rfl,
      hless (.increment 1) _ rfl⟩,
    ⟨(hended 0 0 true (by decide) rfl).1, (hended 0 0 true (by decide) rfl).2, hlimit, honce⟩,
    hreturned rfl, honly (by decide) rfl (by decide) (by simp [returnedPool])⟩

/-- Between the exception and the pool's `Cancel` a second worker starts two more items, with a
token that is not cancelled. -/
theorem starts_before_cancel :
    .raised 0 0 true ∈ thrownPool.log ∧ fourItems.sessionFatal true = true ∧
    Run (step fourItems) (fun _ _ => True) (fourItems.begin false) thrownPool ∧
    ∃ t new, Run (step fourItems) (fun _ _ => True) thrownPool t ∧ t.log = thrownPool.log ++ new ∧
      .started 1 1 false ∈ new ∧ .started 1 2 false ∈ new := by
  refine ⟨by decide, rfl, thrownPool_reached, ?_⟩
  obtain ⟨t, hrun, ht⟩ := Run.exists_of_exec (step fourItems) (P := fun _ _ => True)
    (fun _ _ => true)
    (fun t => t.log = thrownPool.log ++ [.started 1 1 false, .finished 1 1, .started 1 2 false])
    thrownPool [.check 1, .increment 1, .start 1, .finish 1 none, .check 1, .increment 1, .start 1]
    (fun _ _ _ => trivial) (by decide)
  exact ⟨t, _, hrun, of_decide_eq_true ht, by decide, by decide⟩

/-! ## The worker body of a transfer -/

/-- `NativeClientException`. -/
structure NativeClientException where
  code : String
  statusCode : Option Nat := none
  deriving DecidableEq, Repr

/-- What can be thrown while a file is sent. -/
inductive SendException where
  | operationCanceled
  | client (e : NativeClientException)
  /-- `IOException` or `UnauthorizedAccessException`. -/
  | file
  | other
  deriving DecidableEq, Repr

/-- `NativeTransferClient.IsSessionFatal`. -/
def isSessionFatal (e : NativeClientException) : Bool :=
  e.code ∈ ["tls_identity_error", "credential_rejected", "transfer_grant_rejected",
      "transfer_manifest_mismatch", "Unauthorized", "Invalid token"] ||
    e.statusCode ∈ [some 401, some 403, some 500, some 507]

/-- The predicate that `SendAsync` gives the pool. -/
def sendSessionFatal : SendException → Bool
  | .client e => isSessionFatal e
  | _ => false

/-- What the worker body notes for its file; `R` is the result of an upload. -/
inductive SendResult (R : Type) where
  | uploaded (result : R)
  | cancelled
  | failed (errorCode : String)
  deriving DecidableEq, Repr

/-- The worker body of `SendAsync` after `UploadFileAsync` has returned or thrown: what it notes,
and what it throws.  `outer` is `cancellationToken.IsCancellationRequested`. -/
def sendWorker {R : Type} (outer : Bool) :
    Except SendException R → Option (SendResult R) × Option SendException
  | .ok result => (some (.uploaded result), none)
  | .error .operationCanceled =>
      if outer then (some .cancelled, some .operationCanceled) else (none, some .operationCanceled)
  | .error (.client e) =>
      if isSessionFatal e then (none, some (.client e)) else (some (.failed e.code), none)
  | .error .file => (some (.failed "file_unavailable"), none)
  | .error .other => (none, some .other)

/-- A file without a note has thrown, and what is thrown ends the session, is a cancellation or is
not expected. -/
theorem sendWorker_throws {R : Type} (outer : Bool) (r : Except SendException R) :
    ((sendWorker outer r).1 = none → (sendWorker outer r).2 ≠ none) ∧
    ∀ e, (sendWorker outer r).2 = some e →
      sendSessionFatal e = true ∨ e = .operationCanceled ∨ e = .other := by
  cases r with
  | ok result => simp [sendWorker]
  | error x =>
      cases x with
      | operationCanceled => cases outer <;> simp [sendWorker]
      | client e =>
          cases hfatal : isSessionFatal e with
          | true => simp [sendWorker, hfatal, sendSessionFatal]
          | false => simp [sendWorker, hfatal]
      | file => simp [sendWorker]
      | other => simp [sendWorker]

end LocalMediaTransfer.BoundedWorkerPool
