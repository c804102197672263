import LocalMediaTransfer.Ios.Native.PreparedFileHasher
import LocalMediaTransfer.Lib.Permits
import LocalMediaTransfer.Lib.Tally

/-!
# The pool of hash workers

`PreparedFileHasher.hashPreparedFiles` of `PreparedFileHasher.swift`: every call starts at most two
workers on a queue of its requests (`HashRequestQueue`), and all workers of all calls share two
permits (`HashPermitPool`).  A step is what runs between two suspensions; `hashOne` itself is one
step with any result that it can return.

* `HashPool.step` — the calls and their workers, in any interleaving.
* `Pooled` — the invariant.
* `hash_pool` — **the pool**: two readers at most, permits in turn, one result for every request of
  a call that is over, and no deadlock.
* `hash_pool_ends` — without new calls the pool comes to rest.
-/

set_option autoImplicit false

namespace LocalMediaTransfer

namespace Preparation

open Lib

/-! ## The model -/

/-- `HashRequestQueue`. -/
structure HashRequestQueue where
  requests : List PreparedHashRequest
  cursor : Nat := 0

/-- `HashRequestQueue.next`. -/
def HashRequestQueue.next (queue : HashRequestQueue) : Option PreparedHashRequest ×
    HashRequestQueue :=
  match queue.requests[queue.cursor]? with
  | none => (none, queue)
  | some request => (some request, { queue with cursor := queue.cursor + 1 })

/-- `HashPermitPool`; its waiting continuations are named by their workers. -/
abbrev HashPermitPool := Permits Nat

/-- Where a worker is: about to take a request, to acquire a permit, suspended for one, hashing,
about to release the permit, or at its end. -/
inductive HashWorkerPc where
  | next
  | acquire (request : PreparedHashRequest)
  | waiting (request : PreparedHashRequest)
  | hashing (request : PreparedHashRequest)
  | release (result : PreparedHashResult)
  | finished

namespace HashWorkerPc

def isHashing : HashWorkerPc → Bool
  | .hashing _ => true
  | _ => false

def isWaiting : HashWorkerPc → Bool
  | .waiting _ => true
  | _ => false

def isFinished : HashWorkerPc → Bool
  | .finished => true
  | _ => false

/-- The worker has a permit. -/
def holds : HashWorkerPc → Bool
  | .hashing _ | .release _ => true
  | _ => false

/-- The variant whose result is not recorded yet. -/
def inHand : HashWorkerPc → List String
  | .acquire request | .waiting request | .hashing request => [request.variantId]
  | .release result => [result.variantId]
  | .next | .finished => []

/-- The steps until the worker takes its next request, and the one that ends it. -/
def remaining : HashWorkerPc → Nat
  | .finished => 0
  | .next => 1
  | .release _ => 2
  | .hashing _ => 3
  | .waiting _ => 4
  | .acquire _ => 5

section Remaining

variable (request : PreparedHashRequest) (result : PreparedHashResult)

@[simp] theorem remaining_finished : finished.remaining = 0 := rfl
@[simp] theorem remaining_next : next.remaining = 1 := rfl
@[simp] theorem remaining_release : (release result).remaining = 2 := rfl
@[simp] theorem remaining_hashing : (hashing request).remaining = 3 := rfl
@[simp] theorem remaining_waiting : (waiting request).remaining = 4 := rfl
@[simp] theorem remaining_acquire : (acquire request).remaining = 5 := rfl

end Remaining

/-- The continuation of `acquire`. -/
def resume : HashWorkerPc → HashWorkerPc
  | .waiting request => .hashing request
  | pc => pc

end HashWorkerPc

/-- A task of the group of call number `call`. -/
structure HashWorker where
  call : Nat
  pc : HashWorkerPc := .next
  workerResults : List PreparedHashResult := []

namespace HashWorker

def goTo (pc : HashWorkerPc) (worker : HashWorker) : HashWorker := { worker with pc }

/-- `workerResults.append(result)`. -/
def append (result : PreparedHashResult) (worker : HashWorker) : HashWorker :=
  { worker with pc := .next, workerResults := worker.workerResults ++ [result] }

def resume (worker : HashWorker) : HashWorker := { worker with pc := worker.pc.resume }

/-- The variants that the worker took, apart from those of earlier calls. -/
def taken (worker : HashWorker) : List String :=
  worker.workerResults.map (·.variantId) ++ worker.pc.inHand

end HashWorker

/-- The static pool, the queue of every call and the workers of all calls.  Noted are the workers in
the order in which they called `acquire`, and in which they got a permit. -/
structure HashPool where
  permits : HashPermitPool := { available := 2 }
  queues : List HashRequestQueue := []
  workers : List HashWorker := []
  arrived : List Nat := []
  granted : List Nat := []

/-- `PreparedFileHasher.maximumBatchSize`. -/
def maximumBatchSize : Nat := 100

/-- The next action: a call, a step of a worker up to its next suspension, or the end of
`hashOne`. -/
inductive HashPoolLabel where
  | hashPreparedFiles (validSessionRef : Bool) (requests : List PreparedHashRequest)
  | worker (w : Nat)
  | hashed (w : Nat) (result : PreparedHashResult)

def HashPoolLabel.isCall : HashPoolLabel → Bool
  | .hashPreparedFiles _ _ => true
  | _ => false

namespace HashPool

variable (s : HashPool)

/-- `hashPreparedFiles` up to the start of its tasks; `none` when it throws. -/
def hashPreparedFiles (validSessionRef : Bool) (requests : List PreparedHashRequest) :
    Option HashPool :=
  if validSessionRef && !requests.isEmpty && decide (requests.length ≤ maximumBatchSize) then
    some { s with
      queues := s.queues ++ [{ requests }]
      workers := s.workers ++ List.replicate (min 2 requests.length) { call := s.queues.length } }
  else none

/-- `await queue.next()`. -/
def takeRequest (w call : Nat) : Option HashPool :=
  match s.queues[call]? with
  | none => none
  | some queue =>
    some { s with
      queues := s.queues.set call queue.next.2
      workers := s.workers.modify w (.goTo (queue.next.1.elim .finished .acquire)) }

/-- `await Self.permits.acquire()`. -/
def acquire (w : Nat) (request : PreparedHashRequest) : HashPool :=
  { s with
    permits := (s.permits.acquire w).1
    workers := s.workers.modify w
      (.goTo (if (s.permits.acquire w).2 then .hashing request else .waiting request))
    arrived := s.arrived ++ [w]
    granted := s.granted ++ if (s.permits.acquire w).2 then [w] else [] }

/-- `await Self.permits.release()`, with the resumption of the first waiter. -/
def release (w : Nat) (result : PreparedHashResult) : HashPool :=
  { s with
    permits := s.permits.release.1
    workers := match s.permits.release.2 with
      | none => s.workers.modify w (.append result)
      | some waiter => (s.workers.modify w (.append result)).modify waiter .resume
    granted := s.granted ++ s.permits.release.2.toList }

/-- The steps of the pool. -/
def step : HashPoolLabel → Option HashPool
  | .hashPreparedFiles validSessionRef requests => s.hashPreparedFiles validSessionRef requests
  | .worker w =>
    match s.workers[w]? with
    | none => none
    | some worker =>
      match worker.pc with
      | .next => s.takeRequest w worker.call
      | .acquire request => some (s.acquire w request)
      | .release result => some (s.release w result)
      | .waiting _ | .hashing _ | .finished => none
  | .hashed w result =>
    match s.workers[w]? with
    | none => none
    | some worker =>
      match worker.pc with
      | .hashing request =>
        if result.variantId = request.variantId then
          some { s with workers := s.workers.modify w (.goTo (.release result)) }
        else none
      | _ => none

/-- The tasks of a call. -/
def tasks (call : Nat) : List HashWorker := s.workers.filter fun worker => worker.call == call

/-- The call returns. -/
def isOver (call : Nat) : Bool := (s.tasks call).all (·.pc.isFinished)

/-- What the call returns, up to the order in which its workers end. -/
def combined (call : Nat) : List PreparedHashResult := (s.tasks call).flatMap (·.workerResults)

end HashPool

/-- **The results that `hashOne` can return** are about the variant of its request. -/
theorem hashOne_variantId {Url σ : Type} (digest : List UInt8 → String) (sessionRef : String)
    (request : PreparedHashRequest)
    (step : σ → (c : HashCall Url) → c.Answer → σ → Prop) (s : σ) :
    wp (J := HashCalls Url) step (hashOne Url digest sessionRef request)
      (fun result _ => result.variantId = request.variantId) s := by
  have hfinish : ∀ snapshot before hashed s, wp (J := HashCalls Url) step
      (finishHash digest sessionRef request snapshot before hashed)
      (fun result _ => result.variantId = request.variantId) s := by
    intro snapshot before hashed s
    unfold finishHash
    split
    · exact rfl
    · simp only [wp_bind]
      intro after s₁ _
      simp only [wp]
      split
      · exact rfl
      · split
        · simp only [wp_bind]
          exact fun _ _ _ => rfl
        · exact rfl
  unfold hashOne
  simp only [wp_bind]
  intro cancelled s₁ _
  simp only [wp]
  split
  · exact rfl
  · simp only [wp_bind]
    intro cached s₂ _
    simp only [wp]
    split
    · exact rfl
    · simp only [wp_bind]
      intro snapshot s₃ _
      simp only [wp]
      split
      · exact rfl
      · rename_i snapshot
        unfold hashSnapshot
        simp only [wp_bind]
        intro before s₄ _
        simp only [wp]
        split
        · exact rfl
        · split
          · simp only [wp_bind]
            intro opened s₅ _
            simp only [wp]
            split
            · exact rfl
            · simp only [wp_bind]
              refine wp_of_forall (fun read s₆ => ?_) _ _
              split
              · exact rfl
              · exact hfinish _ _ _ _
          · exact rfl

/-! ## The permits -/

/-- What the pool of permits sees of a worker. -/
def HashWorker.claim (worker : HashWorker) : Bool × Bool := (worker.pc.holds, worker.pc.isWaiting)

/-- A permit is held by every worker that hashes or is about to release it, and the queue of the
pool is that of the suspended workers. -/
structure Permitted (permits : HashPermitPool) (workers : List HashWorker) : Prop where
  balanced : permits.Balanced 2 (workers.countP (·.pc.holds))
  waiting : ∀ w, w ∈ permits.waiters ↔ (workers.map (·.claim))[w]? = some (false, true)
  nodup : permits.waiters.Nodup

section Permits

variable {permits : HashPermitPool} {workers workers' : List HashWorker} {w : Nat}
    {worker : HashWorker}

theorem Permitted.congr (h : Permitted permits workers)
    (hclaims : workers'.map (·.claim) = workers.map (·.claim)) : Permitted permits workers' := by
  have hcount : ∀ l : List HashWorker,
      l.countP (·.pc.holds) = (l.map (·.claim)).countP (·.1) := fun l => by
    rw [List.countP_map]
    rfl
  refine ⟨?_, fun w => ?_, h.nodup⟩
  · rw [hcount, hclaims, ← hcount]
    exact h.balanced
  · rw [hclaims]
    exact h.waiting w

theorem claim_getElem? {b : Bool} :
    (workers.map (·.claim))[w]? = some (b, true) ↔
      ∃ worker, workers[w]? = some worker ∧ worker.claim = (b, true) := by
  rw [List.getElem?_map, Option.map_eq_some_iff]

/-- The claims after one worker has changed. -/
theorem claim_modify {g : HashWorker → HashWorker} (hw : workers[w]? = some worker) (v : Nat) :
    ((workers.modify w g).map (·.claim))[v]? =
      if v = w then some (g worker).claim else (workers.map (·.claim))[v]? := by
  rw [List.getElem?_map, List.getElem?_modify, List.getElem?_map]
  by_cases hv : v = w
  · subst hv
    simp [hw]
  · simp [hv, Ne.symm hv]

theorem Permitted.modify (h : Permitted permits workers) (hw : workers[w]? = some worker)
    {g : HashWorker → HashWorker} (hclaim : (g worker).claim = worker.claim) :
    Permitted permits (workers.modify w g) := by
  refine h.congr (map_modify_eq fun a ha => ?_)
  rw [hw] at ha
  cases ha
  exact hclaim

/-- The pool of permits when a worker asks for one. -/
theorem Permitted.acquire (h : Permitted permits workers) {request : PreparedHashRequest}
    (hw : workers[w]? = some worker) (hpc : worker.pc = .acquire request) :
    Permitted (permits.acquire w).1 (workers.modify w
      (.goTo (if (permits.acquire w).2 then .hashing request else .waiting request))) := by
  have hclaim : worker.claim = (false, false) := by
    rw [HashWorker.claim, hpc]
    rfl
  have hnot : w ∉ permits.waiters := by
    rw [h.waiting, List.getElem?_map, hw, Option.map_some, hclaim]
    exact fun h => by cases h
  obtain ⟨p', heq, hbalanced, hnone, hnone'⟩ | ⟨p', heq, hbalanced, hwaiters⟩ :=
    h.balanced.acquire_cases w
  · rw [heq]
    refine ⟨?_, fun v => ?_, hnone' ▸ List.nodup_nil⟩
    · have hcount : (workers.modify w (.goTo (.hashing request))).countP (·.pc.holds) =
          workers.countP (·.pc.holds) + 1 := by
        have hmodify := countP_modify (·.pc.holds) (.goTo (.hashing request)) hw
        rw [hpc] at hmodify
        exact hmodify
      rw [← hcount] at hbalanced
      exact hbalanced
    · rw [claim_modify hw, hnone']
      have hold := h.waiting v
      rw [hnone] at hold
      split
      · simp [HashWorker.claim, HashWorker.goTo, HashWorkerPc.holds]
      · exact hold
  · rw [heq]
    refine ⟨?_, fun v => ?_, ?_⟩
    · have hcount : (workers.modify w (.goTo (.waiting request))).countP (·.pc.holds) =
          workers.countP (·.pc.holds) := by
        have hmodify := countP_modify (·.pc.holds) (.goTo (.waiting request)) hw
        rw [hpc] at hmodify
        exact hmodify
      rw [← hcount] at hbalanced
      exact hbalanced
    · rw [claim_modify hw, hwaiters, List.mem_append, List.mem_singleton]
      split
      · rename_i hv
        simp [hv, HashWorker.claim, HashWorker.goTo, HashWorkerPc.holds, HashWorkerPc.isWaiting]
      · rename_i hv
        simp only [hv, or_false]
        exact h.waiting v
    · rw [hwaiters]
      exact h.nodup.append (List.nodup_singleton w) (by simpa using hnot)

/-- The pool of permits when a worker gives its permit back. -/
theorem Permitted.release (h : Permitted permits workers) {result : PreparedHashResult}
    (hw : workers[w]? = some worker) (hpc : worker.pc = .release result) :
    Permitted permits.release.1 (match permits.release.2 with
      | none => workers.modify w (.append result)
      | some waiter => (workers.modify w (.append result)).modify waiter .resume) := by
  have hclaim : worker.claim = (true, false) := by
    rw [HashWorker.claim, hpc]
    rfl
  have hcount : (workers.modify w (.append result)).countP (·.pc.holds) + 1 =
      workers.countP (·.pc.holds) := by
    have hmodify := countP_modify (·.pc.holds) (.append result) hw
    rw [hpc] at hmodify
    exact hmodify
  have hafter : ∀ v, ((workers.modify w (.append result)).map (·.claim))[v]? = some (false, true) ↔
      v ∈ permits.waiters := by
    intro v
    rw [claim_modify hw, h.waiting]
    split
    · rename_i hv
      subst hv
      rw [List.getElem?_map, hw, Option.map_some, hclaim]
      simp [HashWorker.claim, HashWorker.append, HashWorkerPc.isWaiting]
    · exact Iff.rfl
  have hbalanced := h.balanced
  rw [← hcount] at hbalanced
  obtain ⟨p', heq, hbalanced, hnone, hnone'⟩ | ⟨p', waiter, heq, hbalanced, hwaiters⟩ :=
    hbalanced.release_cases
  · rw [heq]
    refine ⟨hbalanced, fun v => ?_, hnone' ▸ List.nodup_nil⟩
    rw [hafter, hnone, hnone']
  · rw [heq]
    obtain ⟨waiting, hwaiting, hwclaim⟩ := claim_getElem?.mp
      ((hafter waiter).mpr (hwaiters ▸ List.mem_cons_self ..))
    have hnodup := h.nodup
    rw [hwaiters, List.nodup_cons] at hnodup
    have hresumed : waiting.resume.claim = (true, false) := by
      simp only [HashWorker.claim, Prod.mk.injEq] at hwclaim ⊢
      revert hwclaim
      rw [HashWorker.resume]
      cases waiting.pc <;> simp [HashWorkerPc.isWaiting, HashWorkerPc.resume, HashWorkerPc.holds]
    have hcount' := countP_modify (·.pc.holds) HashWorker.resume hwaiting
    have hbefore := congrArg (·.1) hwclaim
    have hholds := congrArg (·.1) hresumed
    simp only [HashWorker.claim] at hbefore hholds
    rw [hbefore, hholds, Bool.toNat_false, Bool.toNat_true, Nat.add_zero] at hcount'
    refine ⟨hcount' ▸ hbalanced, fun v => ?_, hnodup.2⟩
    rw [claim_modify hwaiting, hresumed]
    split
    · rename_i hv
      subst hv
      simp [hnodup.1]
    · rename_i hv
      rw [hafter, hwaiters, List.mem_cons]
      simp [hv]

/-- New workers want no permit yet. -/
theorem Permitted.start (h : Permitted permits workers) (n call : Nat) :
    Permitted permits (workers ++ List.replicate n { call := call }) := by
  refine ⟨?_, fun w => ?_, h.nodup⟩
  · have hnew : (List.replicate n ({ call := call } : HashWorker)).countP (·.pc.holds) = 0 := by
      refine List.countP_eq_zero.mpr fun worker hworker => ?_
      rw [List.eq_of_mem_replicate hworker]
      exact Bool.false_ne_true
    rw [List.countP_append, hnew]
    exact h.balanced
  · rw [h.waiting, List.map_append, List.map_replicate]
    by_cases hlt : w < (workers.map (·.claim)).length
    · rw [List.getElem?_append_left hlt]
    · rw [List.getElem?_append_right (Nat.le_of_not_lt hlt), List.getElem?_replicate,
        List.getElem?_eq_none (Nat.le_of_not_lt hlt)]
      constructor
      · exact fun h => by cases h
      · intro h
        split at h <;> cases h

end Permits

/-! ## The requests -/

/-- What the queues see of a worker. -/
def HashWorker.account (worker : HashWorker) : Nat × List String × Bool :=
  (worker.call, worker.taken, worker.pc.isFinished)

/-- How often the workers of a call took a variant. -/
def takenCount (workers : List HashWorker) (call : Nat) (id : String) : Nat :=
  (workers.map fun worker => if worker.call = call then worker.taken.count id else 0).sum

/-- Every worker works for a call and every call has workers, which together took the requests
before its cursor, once each; a worker ends at the end of its queue. -/
structure Taken (queues : List HashRequestQueue) (workers : List HashWorker) : Prop where
  owned : ∀ worker ∈ workers, worker.call < queues.length
  staffed : ∀ call < queues.length, ∃ worker ∈ workers, worker.call = call
  ended : ∀ worker ∈ workers, worker.pc.isFinished = true → ∀ queue,
    queues[worker.call]? = some queue → queue.requests.length ≤ queue.cursor
  taken : ∀ call queue, queues[call]? = some queue → ∀ id, takenCount workers call id =
    ((queue.requests.take queue.cursor).map (·.variantId)).count id

section Requests

variable {queues : List HashRequestQueue} {workers workers' : List HashWorker} {w : Nat}
  {worker : HashWorker}

theorem takenCount_congr (haccounts : workers'.map (·.account) = workers.map (·.account))
    (call : Nat)
    (id : String) : takenCount workers' call id = takenCount workers call id := by
  have hview : ∀ l : List HashWorker, takenCount l call id =
      ((l.map (·.account)).map fun a => if a.1 = call then a.2.1.count id else 0).sum := fun l => by
    rw [List.map_map]
    rfl
  rw [hview, hview, haccounts]

theorem Taken.congr (h : Taken queues workers)
    (haccounts : workers'.map (·.account) = workers.map (·.account)) : Taken queues workers' := by
  have hold : ∀ worker' ∈ workers', ∃ worker ∈ workers, worker.account = worker'.account := by
    intro worker' hmem
    have := List.mem_map_of_mem (f := (·.account)) hmem
    rw [haccounts] at this
    exact List.mem_map.mp this
  refine ⟨fun worker' hmem => ?_, fun call hcall => ?_, fun worker' hmem hfin => ?_,
    fun call queue hqueue id => ?_⟩
  · obtain ⟨worker, hw, heq⟩ := hold worker' hmem
    have hcall : worker.call = worker'.call := congrArg (·.1) heq
    exact hcall ▸ h.owned worker hw
  · obtain ⟨worker, hw, hcall⟩ := h.staffed call hcall
    have := List.mem_map_of_mem (f := (·.account)) hw
    rw [← haccounts] at this
    obtain ⟨worker', hw', heq⟩ := List.mem_map.mp this
    exact ⟨worker', hw', (congrArg (·.1) heq).trans hcall⟩
  · obtain ⟨worker, hw, heq⟩ := hold worker' hmem
    have hcall : worker.call = worker'.call := congrArg (·.1) heq
    have hfin' : worker.pc.isFinished = worker'.pc.isFinished := congrArg (·.2.2) heq
    rw [← hcall]
    exact h.ended worker hw (hfin'.trans hfin)
  · rw [takenCount_congr haccounts]
    exact h.taken call queue hqueue id

theorem Taken.modify (h : Taken queues workers) (hw : workers[w]? = some worker)
    {g : HashWorker → HashWorker} (haccount : (g worker).account = worker.account) :
    Taken queues (workers.modify w g) := by
  refine h.congr (map_modify_eq fun a ha => ?_)
  rw [hw] at ha
  cases ha
  exact haccount

theorem resume_account (worker : HashWorker) : worker.resume.account = worker.account := by
  unfold HashWorker.account HashWorker.taken HashWorker.resume
  cases worker.pc <;> rfl

/-- A worker takes a request, or ends at the end of the queue. -/
theorem Taken.next (h : Taken queues workers) (hw : workers[w]? = some worker)
    (hpc : worker.pc = .next) {queue : HashRequestQueue}
    (hqueue : queues[worker.call]? = some queue) :
    Taken (queues.set worker.call queue.next.2)
      (workers.modify w (.goTo (queue.next.1.elim .finished .acquire))) := by
  have hmem := List.mem_of_getElem? hw
  have hlt := h.owned worker hmem
  have htaken : worker.taken = worker.workerResults.map (·.variantId) := by
    rw [HashWorker.taken, hpc]
    exact List.append_nil _
  have hnext : queue.next.2.requests = queue.requests ∧ queue.cursor ≤ queue.next.2.cursor := by
    unfold HashRequestQueue.next
    split
    · exact ⟨rfl, le_rfl⟩
    · exact ⟨rfl, Nat.le_succ _⟩
  -- the queues afterwards, one by one
  have hset : ∀ call queue', (queues.set worker.call queue.next.2)[call]? = some queue' →
      (call = worker.call ∧ queue' = queue.next.2) ∨
        (call ≠ worker.call ∧ queues[call]? = some queue') := by
    intro call queue' hq
    rcases getElem?_set_eq_some.mp hq with ⟨hcall, -, heq⟩ | ⟨hcall, hq⟩
    · exact .inl ⟨hcall.symm, heq.symm⟩
    · exact .inr ⟨Ne.symm hcall, hq⟩
  refine ⟨?_, ?_, ?_, ?_⟩
  · rw [List.length_set]
    refine forall_mem_modify h.owned fun a ha => ?_
    rw [hw] at ha
    cases ha
    exact hlt
  · rw [List.length_set]
    intro call hcall
    obtain ⟨other, hother, heq⟩ := h.staffed call hcall
    have hmap : (workers.modify w (.goTo (queue.next.1.elim .finished .acquire))).map (·.call) =
        workers.map (·.call) := map_modify_eq fun _ _ => rfl
    have hin := List.mem_map_of_mem (f := (·.call)) hother
    rw [← hmap] at hin
    obtain ⟨other', hother', heq'⟩ := List.mem_map.mp hin
    exact ⟨other', hother', heq'.trans heq⟩
  · have hfinished : ∀ other ∈ workers, other.pc.isFinished = true → ∀ queue',
        (queues.set worker.call queue.next.2)[other.call]? = some queue' →
          queue'.requests.length ≤ queue'.cursor := by
      intro other hother hfin queue' hq
      rcases hset _ _ hq with ⟨hcall, rfl⟩ | ⟨-, hq⟩
      · rw [hnext.1]
        exact (h.ended other hother hfin queue (hcall ▸ hqueue)).trans hnext.2
      · exact h.ended other hother hfin queue' hq
    refine forall_mem_modify hfinished fun a ha hfin queue' hq => ?_
    rw [hw] at ha
    cases ha
    rcases hset _ _ hq with ⟨-, rfl⟩ | ⟨hne, -⟩
    · revert hfin
      unfold HashRequestQueue.next
      cases hrequest : queue.requests[queue.cursor]? with
      | none => exact fun _ => List.getElem?_eq_none_iff.mp hrequest
      | some request => exact fun h => by cases h
    · exact absurd rfl hne
  · intro call queue' hq id
    have hsum := sum_modify (fun worker => if worker.call = call then worker.taken.count id else 0)
      (.goTo (queue.next.1.elim .finished .acquire)) hw
    have hcalls : ∀ pc, (worker.goTo pc).call = worker.call := fun _ => rfl
    rcases hset _ _ hq with ⟨rfl, rfl⟩ | ⟨hne, hq⟩
    · have hold := h.taken _ queue hqueue id
      simp only [takenCount] at hold ⊢
      rw [hold, if_pos rfl, if_pos (hcalls _), htaken] at hsum
      revert hsum
      unfold HashRequestQueue.next
      cases hrequest : queue.requests[queue.cursor]? with
      | none =>
        intro hsum
        have hafter : (worker.goTo (Option.elim (none : Option PreparedHashRequest) .finished
            .acquire)).taken = worker.workerResults.map (·.variantId) := List.append_nil _
        rw [hafter] at hsum
        exact Nat.add_right_cancel hsum
      | some request =>
        intro hsum
        have hafter : (worker.goTo ((some request).elim .finished .acquire)).taken =
            worker.workerResults.map (·.variantId) ++ [request.variantId] := rfl
        rw [hafter, List.count_append] at hsum
        show _ = ((queue.requests.take (queue.cursor + 1)).map (·.variantId)).count id
        rw [List.take_add_one, hrequest, Option.toList_some, List.map_append, List.count_append,
          List.map_singleton]
        omega
    · have hcall : worker.call ≠ call := Ne.symm hne
      rw [if_neg hcall, hcalls, if_neg hcall] at hsum
      have hold := h.taken call queue' hq id
      simp only [takenCount] at hold ⊢
      omega

/-- A call starts. -/
theorem Taken.start (h : Taken queues workers) {requests : List PreparedHashRequest}
    (hne : requests ≠ []) : Taken (queues ++ [{ requests := requests }])
      (workers ++ List.replicate (min 2 requests.length) { call := queues.length }) := by
  have hpos : 0 < requests.length := List.length_pos_iff.mpr hne
  have hold : ∀ call < queues.length,
    (queues ++ [({ requests := requests } : HashRequestQueue)])[call]? =
      queues[call]? := fun call hcall => List.getElem?_append_left hcall
  refine ⟨fun worker hmem => ?_, fun call hcall => ?_, fun worker hmem hfin queue hqueue => ?_,
    fun call queue hqueue id => ?_⟩
  · rw [List.length_append, List.length_singleton]
    rcases List.mem_append.mp hmem with hmem | hmem
    · exact Nat.lt_succ_of_lt (h.owned worker hmem)
    · rw [List.eq_of_mem_replicate hmem]
      exact Nat.lt_succ_self _
  · rw [List.length_append, List.length_singleton] at hcall
    rcases Nat.lt_succ_iff_lt_or_eq.mp hcall with hcall | rfl
    · obtain ⟨worker, hw, heq⟩ := h.staffed call hcall
      exact ⟨worker, List.mem_append_left _ hw, heq⟩
    · refine ⟨{ call := queues.length },
        List.mem_append_right _ (List.mem_replicate.mpr ⟨?_, rfl⟩), rfl⟩
      omega
  · rcases List.mem_append.mp hmem with hmem | hmem
    · rw [hold _ (h.owned worker hmem)] at hqueue
      exact h.ended worker hmem hfin queue hqueue
    · rw [List.eq_of_mem_replicate hmem] at hfin
      cases hfin
  · have hnew : takenCount
        (List.replicate (min 2 requests.length) { call := queues.length }) call id = 0 := by
      refine List.sum_eq_zero fun n hn => ?_
      obtain ⟨worker, hmem, rfl⟩ := List.mem_map.mp hn
      rw [List.eq_of_mem_replicate hmem]
      split <;> rfl
    have hsplit : takenCount (workers ++ List.replicate (min 2 requests.length)
        { call := queues.length }) call id = takenCount workers call id := by
      rw [takenCount, List.map_append, List.sum_append]
      exact (congrArg _ hnew).trans (Nat.add_zero _)
    rw [hsplit]
    by_cases hcall : call < queues.length
    · rw [hold _ hcall] at hqueue
      exact h.taken call queue hqueue id
    · have hzero : takenCount workers call id = 0 := by
        refine List.sum_eq_zero fun n hn => ?_
        obtain ⟨worker, hmem, rfl⟩ := List.mem_map.mp hn
        have hlt := h.owned worker hmem
        exact if_neg (by omega)
      rw [List.getElem?_append_right (Nat.le_of_not_lt hcall)] at hqueue
      have hqueue' := List.mem_singleton.mp (List.mem_of_getElem? hqueue)
      rw [hzero, hqueue', List.take_zero]
      rfl

end Requests

/-! ## The steps -/

/-- **The invariant of the pool.** -/
structure Pooled (s : HashPool) : Prop where
  permitted : Permitted s.permits s.workers
  taken : Taken s.queues s.workers
  turn : s.granted ++ s.permits.waiters = s.arrived

variable {s t : HashPool} {w : Nat} {worker : HashWorker}

theorem Pooled.start (h : Pooled s) {valid : Bool} {requests : List PreparedHashRequest}
    (hs : s.hashPreparedFiles valid requests = some t) : Pooled t := by
  unfold HashPool.hashPreparedFiles at hs
  split at hs
  · rename_i hguard
    cases hs
    have hne : requests ≠ [] := by
      rintro rfl
      simp at hguard
    exact ⟨h.permitted.start _ _, h.taken.start hne, h.turn⟩
  · cases hs

theorem Pooled.takeRequest (h : Pooled s) (hw : s.workers[w]? = some worker)
    (hpc : worker.pc = .next) (hs : s.takeRequest w worker.call = some t) : Pooled t := by
  unfold HashPool.takeRequest at hs
  split at hs
  · cases hs
  · rename_i queue hqueue
    cases hs
    refine ⟨h.permitted.modify hw ?_, h.taken.next hw hpc hqueue, h.turn⟩
    rw [HashWorker.claim, HashWorker.claim, HashWorker.goTo, hpc]
    cases queue.next.1 <;> rfl

theorem Pooled.acquire (h : Pooled s) {request : PreparedHashRequest}
    (hw : s.workers[w]? = some worker) (hpc : worker.pc = .acquire request) :
    Pooled (s.acquire w request) := by
  refine ⟨h.permitted.acquire hw hpc, h.taken.modify hw ?_,
    Permits.acquire_inTurn h.permitted.balanced h.turn w⟩
  simp only [HashWorker.account, HashWorker.taken, HashWorker.goTo, hpc]
  split <;> rfl

theorem Pooled.release (h : Pooled s) {result : PreparedHashResult}
    (hw : s.workers[w]? = some worker) (hpc : worker.pc = .release result) :
    Pooled (s.release w result) := by
  have happend : Taken s.queues (s.workers.modify w (.append result)) := by
    refine h.taken.modify hw ?_
    simp only [HashWorker.account, HashWorker.taken, HashWorker.append, hpc, HashWorkerPc.inHand,
      List.map_append, List.map_singleton, List.append_nil]
    rfl
  refine ⟨h.permitted.release hw hpc, ?_, Permits.release_inTurn h.turn⟩
  unfold HashPool.release
  dsimp only
  split
  · exact happend
  · exact happend.congr (map_modify_eq fun a _ => resume_account a)

theorem Pooled.hashed (h : Pooled s) {request : PreparedHashRequest} {result : PreparedHashResult}
    (hw : s.workers[w]? = some worker) (hpc : worker.pc = .hashing request)
    (hid : result.variantId = request.variantId) :
    Pooled { s with workers := s.workers.modify w (.goTo (.release result)) } := by
  refine ⟨h.permitted.modify hw ?_, h.taken.modify hw ?_, h.turn⟩
  · rw [HashWorker.claim, HashWorker.claim, hpc]
    rfl
  · simp only [HashWorker.account, HashWorker.taken, HashWorker.goTo, hpc, HashWorkerPc.inHand, hid]
    rfl

/-- What a step of a worker can be. -/
theorem workerStep_cases (hs : s.step (.worker w) = some t) :
    ∃ worker, s.workers[w]? = some worker ∧
      ((worker.pc = .next ∧ s.takeRequest w worker.call = some t) ∨
        (∃ request, worker.pc = .acquire request ∧ t = s.acquire w request) ∨
        ∃ result, worker.pc = .release result ∧ t = s.release w result) := by
  simp only [HashPool.step] at hs
  split at hs
  · cases hs
  · rename_i worker hw
    refine ⟨worker, hw, ?_⟩
    split at hs
    · rename_i hpc
      exact .inl ⟨hpc, hs⟩
    · rename_i request hpc
      exact .inr (.inl ⟨request, hpc, (Option.some.inj hs).symm⟩)
    · rename_i result hpc
      exact .inr (.inr ⟨result, hpc, (Option.some.inj hs).symm⟩)
    · cases hs
    · cases hs
    · cases hs

theorem hashedStep_cases {result : PreparedHashResult} (hs : s.step (.hashed w result) = some t) :
    ∃ worker request, s.workers[w]? = some worker ∧ worker.pc = .hashing request ∧
      result.variantId = request.variantId ∧
      t = { s with workers := s.workers.modify w (.goTo (.release result)) } := by
  simp only [HashPool.step] at hs
  split at hs
  · cases hs
  · rename_i worker hw
    split at hs
    · rename_i request hpc
      split at hs
      · rename_i hid
        exact ⟨worker, request, hw, hpc, hid, (Option.some.inj hs).symm⟩
      · cases hs
    · cases hs

theorem Pooled.step {l : HashPoolLabel} (h : Pooled s) (hs : s.step l = some t) : Pooled t := by
  cases l with
  | hashPreparedFiles valid requests => exact h.start hs
  | worker w =>
    obtain ⟨worker, hw, ⟨hpc, htake⟩ | ⟨request, hpc, rfl⟩ | ⟨result, hpc, rfl⟩⟩ :=
      workerStep_cases hs
    · exact h.takeRequest hw hpc htake
    · exact h.acquire hw hpc
    · exact h.release hw hpc
  | hashed w result =>
    obtain ⟨worker, request, hw, hpc, hid, rfl⟩ := hashedStep_cases hs
    exact h.hashed hw hpc hid

theorem Pooled.init : Pooled {} := by
  refine ⟨⟨⟨rfl, fun h => absurd rfl h⟩, fun w => ?_, List.nodup_nil⟩, ⟨?_, ?_, ?_, ?_⟩, rfl⟩
  all_goals simp

theorem Pooled.of_run (hrun : Run HashPool.step (fun _ _ => True) {} s) : Pooled s :=
  hrun.invariant .init fun _ _ _ h _ hs => h.step hs

/-! ## Rest -/

/-- The steps that are left without new calls, at most. -/
def HashPool.work (s : HashPool) : Nat :=
  (s.queues.map fun queue => 5 * (queue.requests.length - queue.cursor)).sum +
    (s.workers.map (·.pc.remaining)).sum

theorem resume_remaining (worker : HashWorker) :
    worker.resume.pc.remaining ≤ worker.pc.remaining := by
  unfold HashWorker.resume
  cases worker.pc <;> simp [HashWorkerPc.resume, HashWorkerPc.remaining]

/-- Every step but a call leaves fewer steps. -/
theorem work_lt {l : HashPoolLabel} (hl : l.isCall = false) (hs : s.step l = some t) :
    t.work < s.work := by
  cases l with
  | hashPreparedFiles valid requests => cases hl
  | hashed w result =>
    obtain ⟨worker, request, hw, hpc, -, rfl⟩ := hashedStep_cases hs
    have hsum := sum_modify (·.pc.remaining) (.goTo (.release result)) hw
    simp only [HashWorker.goTo, hpc, HashWorkerPc.remaining_hashing, HashWorkerPc.remaining_release]
      at hsum
    simp only [HashPool.work]
    omega
  | worker w =>
    obtain ⟨worker, hw, ⟨hpc, htake⟩ | ⟨request, hpc, rfl⟩ | ⟨result, hpc, rfl⟩⟩ :=
      workerStep_cases hs
    · unfold HashPool.takeRequest at htake
      split at htake
      · cases htake
      · rename_i queue hqueue
        cases htake
        have hsum := sum_modify (·.pc.remaining) (.goTo (queue.next.1.elim .finished .acquire)) hw
        have hqueues := sum_modify (fun queue : HashRequestQueue =>
          5 * (queue.requests.length - queue.cursor)) (fun _ => queue.next.2) hqueue
        rw [← List.set_eq_modify] at hqueues
        simp only [HashPool.work]
        revert hsum hqueues
        unfold HashRequestQueue.next
        cases hrequest : queue.requests[queue.cursor]? with
        | none =>
          intro hsum hqueues
          simp only [HashWorker.goTo, hpc, HashWorkerPc.remaining_next,
            HashWorkerPc.remaining_finished, Option.elim_none] at hsum hqueues ⊢
          omega
        | some request =>
          intro hsum hqueues
          have hlt := (List.getElem?_eq_some_iff.mp hrequest).1
          simp only [HashWorker.goTo, hpc, HashWorkerPc.remaining_next,
            HashWorkerPc.remaining_acquire, Option.elim_some] at hsum hqueues ⊢
          omega
    · have hsum := sum_modify (·.pc.remaining)
        (.goTo (if (s.permits.acquire w).2 then .hashing request else .waiting request)) hw
      simp only [HashWorker.goTo, hpc, HashWorkerPc.remaining_acquire] at hsum
      have hlt : (if (s.permits.acquire w).2 then HashWorkerPc.hashing request
          else .waiting request).remaining < 5 := by
        split <;> simp
      simp only [HashPool.work, HashPool.acquire]
      omega
    · have hsum := sum_modify (·.pc.remaining) (.append result) hw
      simp only [HashWorker.append, hpc, HashWorkerPc.remaining_release,
        HashWorkerPc.remaining_next] at hsum
      simp only [HashPool.work, HashPool.release]
      split
      · omega
      · rename_i waiter _
        have hle := sum_modify_le (l := s.workers.modify w (.append result)) (i := waiter)
          (f := (·.pc.remaining)) resume_remaining
        omega

/-- A worker with a permit can go on. -/
theorem enabled_of_holds (hw : s.workers[w]? = some worker) (hholds : worker.pc.holds = true) :
    ∃ l t, l.isCall = false ∧ s.step l = some t := by
  cases hpc : worker.pc with
  | hashing request =>
    have hid : (PreparedHashResult.failure request.variantId "cancelled" 0).variantId =
        request.variantId := rfl
    have hs : (s.step (.hashed w (.failure request.variantId "cancelled" 0))).isSome = true := by
      simp only [HashPool.step, hw, hpc]
      rw [if_pos hid]
      rfl
    obtain ⟨t, ht⟩ := Option.isSome_iff_exists.mp hs
    exact ⟨_, t, rfl, ht⟩
  | release result =>
    refine ⟨.worker w, s.release w result, rfl, ?_⟩
    simp only [HashPool.step, hw, hpc]
  | next | acquire request | waiting request | finished =>
    rw [hpc] at hholds
    cases hholds

/-- **No deadlock.** -/
theorem Pooled.enabled (h : Pooled s) (hmem : worker ∈ s.workers)
    (hfin : worker.pc.isFinished = false) : ∃ l t, l.isCall = false ∧ s.step l = some t := by
  obtain ⟨w, hw⟩ := List.mem_iff_getElem?.mp hmem
  cases hpc : worker.pc with
  | next =>
    have hqueue := List.getElem?_eq_getElem (h.taken.owned worker hmem)
    have hs : (s.step (.worker w)).isSome = true := by
      simp only [HashPool.step, hw, hpc, HashPool.takeRequest, hqueue]
      rfl
    obtain ⟨t, ht⟩ := Option.isSome_iff_exists.mp hs
    exact ⟨_, t, rfl, ht⟩
  | acquire request =>
    refine ⟨.worker w, s.acquire w request, rfl, ?_⟩
    simp only [HashPool.step, hw, hpc]
  | waiting request =>
    -- while it waits, both permits are with workers that can go on
    have hin : w ∈ s.permits.waiters := by
      rw [h.permitted.waiting, List.getElem?_map, hw, Option.map_some, HashWorker.claim, hpc]
      rfl
    have hheld := h.permitted.balanced.held_eq (List.ne_nil_of_mem hin)
    have hpos : 0 < s.workers.countP (·.pc.holds) := by omega
    obtain ⟨other, hother, hholds⟩ := List.countP_pos_iff.mp hpos
    obtain ⟨v, hv⟩ := List.mem_iff_getElem?.mp hother
    exact enabled_of_holds hv hholds
  | hashing request => exact enabled_of_holds hw (by rw [hpc]; rfl)
  | release result => exact enabled_of_holds hw (by rw [hpc]; rfl)
  | finished =>
    rw [hpc] at hfin
    cases hfin

/-- Without new calls the pool comes to rest. -/
theorem hash_pool_ends (s : HashPool) :
    Acc (fun after before => ∃ l, l.isCall = false ∧ before.step l = some after) s := by
  refine (Subrelation.wf ?_ (InvImage.wf HashPool.work Nat.lt_wfRel.wf)).apply s
  rintro after before ⟨l, hl, hs⟩
  exact work_lt hl hs

/-! ## The results -/

theorem count_combined {workers : List HashWorker} {call : Nat}
    (hover : ∀ worker ∈ workers, worker.call = call → worker.pc.isFinished = true) (id : String) :
    (((workers.filter fun worker => worker.call == call).flatMap (·.workerResults)).map
      (·.variantId)).count id = takenCount workers call id := by
  induction workers with
  | nil => rfl
  | cons worker rest ih =>
    have hrest := ih fun other hother => hover other (List.mem_cons_of_mem _ hother)
    have hhead := hover worker (List.mem_cons_self ..)
    rw [takenCount, List.map_cons, List.sum_cons, List.filter_cons]
    by_cases hcall : worker.call = call
    · have htaken : worker.taken = worker.workerResults.map (·.variantId) := by
        have hfin := hhead hcall
        unfold HashWorker.taken
        cases hpc : worker.pc with
        | finished => exact List.append_nil _
        | next | acquire request | waiting request | hashing request | release result =>
          rw [hpc] at hfin
          cases hfin
      rw [if_pos hcall, if_pos (beq_iff_eq.mpr hcall), List.flatMap_cons, List.map_append,
        List.count_append, hrest, htaken]
      rfl
    · rw [if_neg hcall, if_neg (fun h => hcall (beq_iff_eq.mp h)), hrest, Nat.zero_add]
      rfl

/-- A call that is over has one result for every request. -/
theorem Pooled.combined (h : Pooled s) {call : Nat} {queue : HashRequestQueue}
    (hqueue : s.queues[call]? = some queue) (hover : s.isOver call = true) :
    ((s.combined call).map (·.variantId)).Perm (queue.requests.map (·.variantId)) := by
  have hfinished : ∀ worker ∈ s.workers, worker.call = call → worker.pc.isFinished = true := by
    intro worker hmem hcall
    exact List.all_eq_true.mp hover worker (List.mem_filter.mpr ⟨hmem, beq_iff_eq.mpr hcall⟩)
  obtain ⟨worker, hmem, hcall⟩ := h.taken.staffed call (List.getElem?_eq_some_iff.mp hqueue).1
  have hend := h.taken.ended worker hmem (hfinished worker hmem hcall) queue (hcall ▸ hqueue)
  refine List.perm_iff_count.mpr fun id => ?_
  rw [HashPool.combined, HashPool.tasks, count_combined hfinished, h.taken.taken call queue hqueue,
    List.take_of_length_le hend]

/-- **The pool of hash workers**, in every state that any number of overlapping calls reaches: at
most two files are hashed at a time; permits are granted in the order in which they were asked for;
a call that is over has exactly one result for every request; and while a call is not over, some
worker can go on, but not forever. -/
theorem hash_pool (hrun : Run HashPool.step (fun _ _ => True) {} s) :
    s.workers.countP (·.pc.isHashing) ≤ 2 ∧
    s.granted ++ s.permits.waiters = s.arrived ∧
    (∀ call queue, s.queues[call]? = some queue → s.isOver call = true →
      ((s.combined call).map (·.variantId)).Perm (queue.requests.map (·.variantId))) ∧
    ((∃ worker ∈ s.workers, worker.pc.isFinished = false) →
      ∃ l t, l.isCall = false ∧ s.step l = some t) ∧
    Acc (fun after before => ∃ l, l.isCall = false ∧ before.step l = some after) s := by
  have h := Pooled.of_run hrun
  refine ⟨?_, h.turn, fun call queue => h.combined, ?_, hash_pool_ends s⟩
  case refine_2 =>
    rintro ⟨worker, hmem, hfin⟩
    exact h.enabled hmem hfin
  have hle : s.workers.countP (·.pc.isHashing) ≤ s.workers.countP (·.pc.holds) := by
    refine List.countP_mono_left fun worker _ hhashing => ?_
    cases hpc : worker.pc with
    | hashing request => rfl
    | next | acquire request | waiting request | release result | finished =>
      rw [hpc] at hhashing
      cases hhashing
  exact hle.trans h.permitted.balanced.held_le

/-- A call with two files and a call with one: the last worker waits for the first permit that is
released. -/
theorem hash_pool_overlapping :
    ∃ s : HashPool, s.granted ++ s.permits.waiters = s.arrived ∧ s.arrived = [0, 1, 2] ∧
      ((s.combined 0).map (·.variantId)).Perm ["a", "b"] := by
  obtain ⟨s, hrun, htest⟩ := Run.exists_of_exec HashPool.step (P := fun _ _ => True)
    (fun _ _ => true)
    (fun s => decide (s.arrived = [0, 1, 2]) && s.isOver 0 &&
      decide (s.queues[0]?.map HashRequestQueue.requests =
        some [⟨"a", "file:///a", 3⟩, ⟨"b", "file:///b", 3⟩]))
    {}
    [.hashPreparedFiles true [⟨"a", "file:///a", 3⟩, ⟨"b", "file:///b", 3⟩],
      .hashPreparedFiles true [⟨"c", "file:///c", 5⟩], .worker 0, .worker 1, .worker 2, .worker 0,
      .worker 1, .worker 2, .hashed 0 (.success "a" "aa" 3 false), .worker 0,
      .hashed 2 (.failure "c" "file-changed" 5), .hashed 1 (.success "b" "bb" 3 false), .worker 1,
      .worker 0, .worker 1]
    (fun _ _ _ => trivial) (by decide)
  simp only [Bool.and_eq_true, decide_eq_true_eq] at htest
  obtain ⟨queue, hqueue, hrequests⟩ := Option.map_eq_some_iff.mp htest.2
  obtain ⟨-, hturn, hcombined, -⟩ := hash_pool hrun
  have hperm := hcombined 0 queue hqueue htest.1.2
  rw [hrequests] at hperm
  exact ⟨s, hturn, htest.1.1, hperm⟩

end Preparation

end LocalMediaTransfer
