import LocalMediaTransfer.Ios.Upload.QueueCalls
import LocalMediaTransfer.Lib.History

/-!
# What the ready queue delivers

Over every interleaving of any number of calls:

* `Delivery` — the invariant: what was accepted is what was delivered followed by what is stored,
  in this order, and the shifts are served in the order of their calls.
* `InOrder` — a producer that awaits each push before its next one is accepted in call order.
* `queue_delivery` — capacity, exclusion, exactly-once delivery, order and closing, for every run.
-/

set_option autoImplicit false

namespace LocalMediaTransfer

open Lib

namespace QueueCalls

variable {π α : Type} {s s' : QueueCalls π α} {push : PushCall π α}
  {running : List (PushCall π α)}

/-- After a null nothing more is returned or accepted. -/
def NullLast (e e' : QueueEvent π α) : Prop :=
  (∃ shift, e = .returned shift none) →
    (∀ push, e' ≠ .resolved push) ∧ ∀ shift push, e' ≠ .returned shift (some push)

/-- `running` are the pushes whose step is being taken. -/
structure Delivery (s : QueueCalls π α) (running : List (PushCall π α)) : Prop where
  bounded : s.queue.items.length ≤ s.queue.capacity
  exclusive : s.queue.items = [] ∨ s.queue.waitingConsumers = []
  fifo : accepted s.log = delivered s.log ++ s.queue.items
  pushes : (called s.log).map PushCall.call = List.range s.pushes
  settled : (called s.log).Perm
    (running ++ s.queue.waitingProducers ++ s.woken ++ accepted s.log ++ refused s.log)
  shifts : settledShifts s.log ++ s.queue.waitingConsumers = List.range s.shifts
  closed : s.queue.closed = true →
    s.queue.waitingConsumers = [] ∧ s.queue.waitingProducers = []
  null : ∀ shift, .returned shift none ∈ s.log → s.queue.closed = true ∧ s.queue.items = []
  nullLast : s.log.Pairwise NullLast

theorem Delivery.start (capacity : Nat) : Delivery (start (π := π) (α := α) capacity) [] :=
  ⟨Nat.zero_le _, .inl rfl, rfl, rfl, .nil, rfl, fun _ => ⟨rfl, rfl⟩,
    fun _ h => absurd h List.not_mem_nil, .nil⟩

/-! ## Steps -/

/-- Entries that are no nulls may follow while the queue is open. -/
theorem Delivery.nullLast_open (h : Delivery s running) (ho : s.queue.closed = false)
    {new : List (QueueEvent π α)} (hnew : new.Pairwise NullLast) :
    (s.log ++ new).Pairwise NullLast := by
  refine List.pairwise_append.mpr ⟨h.nullLast, hnew, ?_⟩
  rintro e he e' - ⟨shift, rfl⟩
  rw [(h.null shift he).1] at ho
  cases ho

/-- Entries that neither return a value nor accept one may always follow. -/
theorem Delivery.nullLast_idle (h : Delivery s running) {new : List (QueueEvent π α)}
    (hnew : ∀ e ∈ new, (∀ push, e ≠ .resolved push) ∧ ∀ shift push, e ≠
      .returned shift (some push)) :
    (s.log ++ new).Pairwise NullLast := by
  refine List.pairwise_append.mpr ⟨h.nullLast, ?_, fun _ _ e' he' _ => hnew e' he'⟩
  exact List.pairwise_of_forall_mem_list fun _ _ e' he' _ => hnew e' he'

theorem pairwise_nullLast_finally (push : PushCall π α) (waiting : Bool) (e : QueueEvent π α) :
    (finallyNotes push waiting ++ [e]).Pairwise NullLast := by
  cases waiting
  · exact List.pairwise_singleton _ _
  · refine List.pairwise_pair.mpr ?_
    rintro ⟨shift, h⟩
    cases h

/-- **What one stretch of a push keeps.** -/
theorem Delivery.runPush (h : Delivery s [push]) (waiting : Bool) :
    Delivery (s.runPush push waiting) [] := by
  classical
  have hperm := List.perm_iff_count.mp h.settled
  obtain ⟨hnc, hna, hnr, hnd, hns⟩ := finallyNotes_silent push waiting
  rcases s.runPush_cases push waiting with ⟨ho, hfull, he⟩ | ⟨hc, he⟩ |
    ⟨ho, hroom, consumer, waitingConsumers, hw, he⟩ | ⟨ho, hroom, hw, he⟩ <;> rw [he]
  · have hidle : ∀ e ∈ (if waiting then [] else [QueueEvent.capacityWait push true]),
        (∀ push, e ≠ .resolved push) ∧ ∀ shift push, e ≠ .returned shift (some push) := by
      cases waiting <;> simp
    refine ⟨h.bounded, h.exclusive, ?_, ?_, ?_, ?_, ?_, ?_, h.nullLast_idle hidle⟩
    · cases waiting <;> simpa using h.fifo
    · cases waiting <;> simpa using h.pushes
    · refine List.perm_iff_count.mpr fun a => ?_
      have ha := hperm a
      cases waiting <;> simp [List.count_cons] at ha ⊢ <;> omega
    · cases waiting <;> simpa using h.shifts
    · intro hc
      rw [ho] at hc
      cases hc
    · intro shift hshift
      refine h.null shift ?_
      cases waiting <;> simpa using hshift
  · have hidle : ∀ e ∈ finallyNotes push waiting ++ [.rejected push],
        (∀ push, e ≠ .resolved push) ∧ ∀ shift push, e ≠ .returned shift (some push) := by
      cases waiting <;> simp [finallyNotes]
    refine ⟨h.bounded, h.exclusive, ?_, ?_, ?_, ?_, h.closed, ?_, h.nullLast_idle hidle⟩
    · simpa [hna, hnd] using h.fifo
    · simpa [hnc] using h.pushes
    · refine List.perm_iff_count.mpr fun a => ?_
      have ha := hperm a
      simp [List.count_cons, hnc, hna, hnr] at ha ⊢
      omega
    · simpa [hns] using h.shifts
    · intro shift hshift
      refine h.null shift ?_
      cases waiting <;> simpa [finallyNotes] using hshift
  · have hempty : s.queue.items = [] := by
      rcases h.exclusive with hi | hi
      · exact hi
      · rw [hw] at hi
        cases hi
    have hnull : (QueueEvent.returned consumer (some push) ::
        (finallyNotes push waiting ++ [.resolved push])).Pairwise NullLast := by
      refine List.pairwise_cons.mpr ⟨fun e' _ => ?_, pairwise_nullLast_finally ..⟩
      rintro ⟨shift, heq⟩
      cases heq
    refine ⟨h.bounded, .inl hempty, ?_, ?_, ?_, ?_, ?_, ?_, h.nullLast_open ho hnull⟩
    · have hfifo := h.fifo
      simp [hempty] at hfifo
      simp [hna, hnd, hempty, hfifo]
    · simpa [hnc] using h.pushes
    · refine List.perm_iff_count.mpr fun a => ?_
      have ha := hperm a
      simp [List.count_cons, hnc, hna, hnr] at ha ⊢
      omega
    · have hshifts := h.shifts
      rw [hw] at hshifts
      simpa [hns] using hshifts
    · intro hc
      rw [ho] at hc
      cases hc
    · intro shift hshift
      refine h.null shift ?_
      cases waiting <;> simpa [finallyNotes] using hshift
  · refine ⟨?_, .inr hw, ?_, ?_, ?_, ?_, ?_, ?_,
      h.nullLast_open ho (pairwise_nullLast_finally ..)⟩
    · simpa using hroom
    · simp [hna, hnd, h.fifo]
    · simpa [hnc] using h.pushes
    · refine List.perm_iff_count.mpr fun a => ?_
      have ha := hperm a
      simp [List.count_cons, hnc, hna, hnr] at ha ⊢
      omega
    · simpa [hns] using h.shifts
    · intro hc
      rw [ho] at hc
      cases hc
    · intro shift hshift
      have hmem : .returned shift none ∈ s.log := by
        cases waiting <;> simpa [finallyNotes] using hshift
      rw [(h.null shift hmem).1] at ho
      cases ho

/-- **What a shift keeps.** -/
theorem Delivery.runShift (h : Delivery s []) : Delivery s.runShift [] := by
  classical
  have hperm := List.perm_iff_count.mp h.settled
  rcases s.runShift_cases with ⟨value, items, hi, he⟩ | ⟨hi, hc, he⟩ | ⟨hi, ho, he⟩ <;> rw [he]
  · have hw : s.queue.waitingConsumers = [] := by
      rcases h.exclusive with hi' | hw
      · rw [hi'] at hi
        cases hi
      · exact hw
    refine ⟨?_, .inr hw, ?_, ?_, ?_, ?_, ?_, ?_, ?_⟩
    · have hb := h.bounded
      rw [hi, List.length_cons] at hb
      exact Nat.le_of_succ_le hb
    · simp [h.fifo, hi]
    · simpa using h.pushes
    · refine List.perm_iff_count.mpr fun a => ?_
      have ha := hperm a
      cases hp : s.queue.waitingProducers with
      | nil => simpa [hp] using ha
      | cons first rest =>
        simp [hp, List.count_cons] at ha ⊢
        omega
    · have hshifts := h.shifts
      rw [hw, List.append_nil] at hshifts
      simp [hw, hshifts, List.range_succ]
    · intro hc
      exact ⟨hw, by rw [(h.closed hc).2]; rfl⟩
    · intro shift hshift
      have hmem : .returned shift none ∈ s.log := by simpa using hshift
      rw [(h.null shift hmem).2] at hi
      cases hi
    · refine List.pairwise_append.mpr ⟨h.nullLast, List.pairwise_singleton _ _, ?_⟩
      rintro e hmem e' - ⟨shift, rfl⟩
      rw [(h.null shift hmem).2] at hi
      cases hi
  · have hw := (h.closed hc).1
    refine ⟨h.bounded, h.exclusive, ?_, ?_, ?_, ?_, h.closed, fun _ _ => ⟨hc, hi⟩, ?_⟩
    · simpa using h.fifo
    · simpa using h.pushes
    · simpa using h.settled
    · have hshifts := h.shifts
      rw [hw, List.append_nil] at hshifts
      simp [hw, hshifts, List.range_succ]
    · refine h.nullLast_idle ?_
      simp
  · refine ⟨h.bounded, .inl hi, h.fifo, h.pushes, h.settled, ?_, ?_, h.null, h.nullLast⟩
    · simp [← List.append_assoc, h.shifts, List.range_succ]
    · intro hc
      rw [ho] at hc
      cases hc

theorem settledShifts_nulls (consumers : List Nat) :
    settledShifts (π := π) (α := α) (consumers.map fun consumer => .returned consumer none) =
      consumers := by
  induction consumers with
  | nil => rfl
  | cons consumer rest ih => simp [ih]

theorem nulls_silent (consumers : List Nat) :
    called (π := π) (α := α) (consumers.map fun consumer => .returned consumer none) = [] ∧
      accepted (π := π) (α := α) (consumers.map fun consumer => .returned consumer none) = [] ∧
      refused (π := π) (α := α) (consumers.map fun consumer => .returned consumer none) = [] ∧
      delivered (π := π) (α := α) (consumers.map fun consumer => .returned consumer none) = [] := by
  induction consumers with
  | nil => exact ⟨rfl, rfl, rfl, rfl⟩
  | cons consumer rest ih => simpa using ih

/-- **What closing keeps.** -/
theorem Delivery.runClose (h : Delivery s []) : Delivery s.runClose [] := by
  rcases s.runClose_cases with ⟨-, he⟩ | ⟨ho, he⟩ <;> rw [he]
  · exact h
  · obtain ⟨hc, ha, hr, hd⟩ := nulls_silent (π := π) (α := α) s.queue.waitingConsumers
    refine ⟨h.bounded, .inr rfl, ?_, ?_, ?_, ?_, fun _ => ⟨rfl, rfl⟩, ?_, ?_⟩
    · simpa [ha, hd] using h.fifo
    · simpa [hc] using h.pushes
    · have hsettled := h.settled
      classical
      refine List.perm_iff_count.mpr fun a => ?_
      have hcount := List.perm_iff_count.mp hsettled a
      simp [hc, ha, hr] at hcount ⊢
      omega
    · simpa [settledShifts_nulls] using h.shifts
    · intro shift hshift
      refine ⟨rfl, ?_⟩
      rcases List.mem_append.mp hshift with hold | hnew
      · exact (h.null shift hold).2
      · obtain ⟨consumer, hconsumer, -⟩ := List.mem_map.mp hnew
        rcases h.exclusive with hi | hw
        · exact hi
        · rw [hw] at hconsumer
          cases hconsumer
    · refine h.nullLast_idle fun e he => ?_
      obtain ⟨consumer, -, rfl⟩ := List.mem_map.mp he
      simp

/-- A new call of `push`. -/
theorem Delivery.call (h : Delivery s []) (producer : π) (value : α) :
    Delivery { s with
      pushes := s.pushes + 1
      log := s.log ++ [.called ⟨s.pushes, producer, value⟩] } [⟨s.pushes, producer, value⟩] := by
  classical
  refine ⟨h.bounded, h.exclusive, ?_, ?_, ?_, ?_, h.closed, ?_, ?_⟩
  · simpa using h.fifo
  · simp [h.pushes, List.range_succ]
  · refine List.perm_iff_count.mpr fun a => ?_
    have ha := List.perm_iff_count.mp h.settled a
    simp [List.count_cons] at ha ⊢
    omega
  · simpa using h.shifts
  · intro shift hshift
    exact h.null shift (by simpa using hshift)
  · refine h.nullLast_idle ?_
    simp

/-- A woken push is taken up. -/
theorem Delivery.take (h : Delivery s []) {place : Nat} (hp : s.woken[place]? = some push) :
    Delivery { s with woken := s.woken.eraseIdx place } [push] := by
  obtain ⟨hlt, rfl⟩ := List.getElem?_eq_some_iff.mp hp
  have hmoved := List.getElem_cons_eraseIdx_perm hlt
  refine ⟨h.bounded, h.exclusive, h.fifo, h.pushes, ?_, h.shifts, h.closed, h.null, h.nullLast⟩
  classical
  refine List.perm_iff_count.mpr fun a => ?_
  have ha := List.perm_iff_count.mp h.settled a
  have hm := List.perm_iff_count.mp hmoved a
  simp [List.count_cons] at ha hm ⊢
  omega

/-- **The step lemma.** -/
theorem Delivery.step (h : Delivery s []) {l : QueueLabel π α} (hs : s.step l = some s') :
    Delivery s' [] := by
  cases l with
  | push producer value =>
    cases hs
    exact (h.call producer value).runPush false
  | resume place =>
    obtain ⟨push, hp, rfl⟩ := Option.map_eq_some_iff.mp hs
    exact (h.take hp).runPush true
  | shift =>
    cases hs
    exact h.runShift
  | close =>
    cases hs
    exact h.runClose

/-! ## Sequential producers -/

/-- The producer calls `push` only when all its earlier pushes have settled. -/
def Sequential (producer : π) (log : List (QueueEvent π α)) : Prop :=
  ∀ pre post push, log = pre ++ .called push :: post → push.producer = producer →
    ∀ push' ∈ called pre, push'.producer = producer → push' ∈ accepted pre ∨ push' ∈ refused pre

theorem Sequential.of_append {producer : π} {log log' : List (QueueEvent π α)}
    (h : Sequential producer (log ++ log')) : Sequential producer log := by
  intro pre post push hlog
  exact h pre (post ++ log') push (by rw [hlog]; simp)

/-- The pushes called and not settled. -/
def unsettled (s : QueueCalls π α) (running : List (PushCall π α)) : List (PushCall π α) :=
  running ++ s.queue.waitingProducers ++ s.woken

/-- Both by the producer. -/
def Both (producer : π) (push push' : PushCall π α) : Prop :=
  push.producer = producer ∧ push'.producer = producer

/-- What a sequential producer has accepted is in call order and before its push under way. -/
structure InOrder (producer : π) (s : QueueCalls π α) (running : List (PushCall π α)) : Prop where
  sorted : (accepted s.log).Pairwise fun push push' =>
    Both producer push push' → push.call < push'.call
  later : ∀ push ∈ accepted s.log, ∀ push' ∈ s.unsettled running,
    Both producer push push' → push.call < push'.call
  single : (s.unsettled running).Pairwise fun push push' => ¬ Both producer push push'

theorem both_comm {producer : π} {push push' : PushCall π α} :
    Both producer push push' ↔ Both producer push' push :=
  and_comm

variable {producer : π}

/-- The pushes under way may change places, and be accepted or refused. -/
theorem InOrder.rearrange {running' : List (PushCall π α)} (h : InOrder producer s running)
    (hacc : accepted s'.log = accepted s.log)
    (hsub : (s'.unsettled running').Subperm (s.unsettled running)) :
    InOrder producer s' running' := by
  refine ⟨by rw [hacc]; exact h.sorted, ?_, ?_⟩
  · intro push hpush push' hpush'
    rw [hacc] at hpush
    exact h.later push hpush push' (hsub.subset hpush')
  · obtain ⟨l, hperm, hsublist⟩ := hsub
    have hl := h.single.sublist hsublist
    exact (hperm.pairwise_iff fun hb hb' => hb (both_comm.mp hb')).mp hl

/-- One of the pushes under way is accepted. -/
theorem InOrder.accept (h : InOrder producer s [push])
    (hacc : accepted s'.log = accepted s.log ++ [push])
    (hopen : s'.unsettled [] = s.queue.waitingProducers ++ s.woken) :
    InOrder producer s' [] := by
  have hmem : ∀ push' ∈ s'.unsettled [], push' ∈ s.unsettled [push] := by
    intro push' hpush'
    rw [hopen] at hpush'
    exact List.mem_cons_of_mem _ hpush'
  have hfirst : ∀ push' ∈ s.queue.waitingProducers ++ s.woken, ¬ Both producer push push' :=
    (List.pairwise_cons.mp h.single).1
  refine ⟨?_, ?_, ?_⟩
  · rw [hacc]
    refine List.pairwise_append.mpr ⟨h.sorted, List.pairwise_singleton _ _, ?_⟩
    intro old hold new hnew
    rw [List.mem_singleton] at hnew
    rw [hnew]
    exact h.later old hold push (List.mem_cons_self ..)
  · intro old hold push' hpush' hboth
    rw [hacc, List.mem_append, List.mem_singleton] at hold
    rcases hold with hold | rfl
    · exact h.later old hold push' (hmem push' hpush') hboth
    · rw [hopen] at hpush'
      exact absurd hboth (hfirst push' hpush')
  · rw [hopen]
    exact (List.pairwise_cons.mp h.single).2

theorem InOrder.runPush (h : InOrder producer s [push]) (waiting : Bool) :
    InOrder producer (s.runPush push waiting) [] := by
  obtain ⟨-, hna, -⟩ := finallyNotes_silent push waiting
  rcases s.runPush_cases push waiting with ⟨-, -, he⟩ | ⟨-, he⟩ |
    ⟨-, -, consumer, waitingConsumers, -, he⟩ | ⟨-, -, -, he⟩ <;> rw [he]
  · refine h.rearrange ?_ (List.Perm.subperm ?_)
    · cases waiting <;> simp
    · simp [unsettled]
  · refine h.rearrange ?_ (List.Sublist.subperm ?_)
    · simp [hna]
    · simp [unsettled]
  · exact h.accept (by simp [hna]) rfl
  · exact h.accept (by simp [hna]) rfl

theorem InOrder.runShift (h : InOrder producer s []) : InOrder producer s.runShift [] := by
  rcases s.runShift_cases with ⟨value, items, -, he⟩ | ⟨-, -, he⟩ | ⟨-, -, he⟩ <;> rw [he]
  · refine h.rearrange ?_ (List.Perm.subperm ?_)
    · simp
    · unfold unsettled
      cases s.queue.waitingProducers with
      | nil => simp
      | cons first rest =>
        classical
        refine List.perm_iff_count.mpr fun a => ?_
        simp [List.count_cons]
        omega
  · refine h.rearrange ?_ (List.Perm.subperm .rfl)
    simp
  · exact h.rearrange rfl (List.Perm.subperm .rfl)

theorem InOrder.runClose (h : InOrder producer s []) : InOrder producer s.runClose [] := by
  rcases s.runClose_cases with ⟨-, he⟩ | ⟨-, he⟩ <;> rw [he]
  · exact h
  · refine h.rearrange ?_ (List.Perm.subperm ?_)
    · simp [nulls_silent]
    · unfold unsettled
      simpa using List.perm_append_comm

/-- A sequential producer has no push under way when it calls the next one. -/
theorem InOrder.call (h : InOrder producer s []) (hd : Delivery s []) (caller : π) (value : α)
    (hseq : Sequential producer (s.log ++ [.called ⟨s.pushes, caller, value⟩])) :
    InOrder producer { s with
      pushes := s.pushes + 1
      log := s.log ++ [.called ⟨s.pushes, caller, value⟩] } [⟨s.pushes, caller, value⟩] := by
  have hlt : ∀ push ∈ called s.log, push.call < s.pushes := by
    intro push hpush
    have hmem := List.mem_map_of_mem (f := PushCall.call) hpush
    rw [hd.pushes, List.mem_range] at hmem
    exact hmem
  have hnodup : (called s.log).Nodup := by
    refine List.Nodup.of_map PushCall.call ?_
    rw [hd.pushes]
    exact List.nodup_range
  have hsettled := hd.settled.nodup_iff.mp hnodup
  have hmem : ∀ push ∈ s.unsettled [] ++ accepted s.log, push ∈ called s.log := by
    intro push hpush
    refine hd.settled.mem_iff.mpr (List.mem_append_left _ ?_)
    simpa [unsettled] using hpush
  refine ⟨?_, ?_, ?_⟩
  · simpa using h.sorted
  · intro push hpush push' hpush' hboth
    have hpush : push ∈ accepted s.log := by simpa using hpush
    rcases List.mem_cons.mp hpush' with rfl | hpush'
    · exact hlt push (hmem push (List.mem_append_right _ hpush))
    · exact h.later push hpush push' hpush' hboth
  · refine List.pairwise_cons.mpr ⟨?_, h.single⟩
    rintro push' hpush' ⟨hcaller, hproducer⟩
    have hpush' : push' ∈ s.unsettled [] := hpush'
    have hcalled := hmem push' (List.mem_append_left _ hpush')
    -- an unsettled push is neither accepted nor refused
    have hdisjoint := (List.nodup_append.mp (by
      rw [List.append_assoc] at hsettled
      exact hsettled)).2.2 push' hpush'
    rcases hseq s.log [] _ rfl hcaller push' hcalled hproducer with ha | hr
    · exact hdisjoint push' (List.mem_append_left _ ha) rfl
    · exact hdisjoint push' (List.mem_append_right _ hr) rfl

theorem InOrder.step (h : InOrder producer s []) (hd : Delivery s []) {l : QueueLabel π α}
    (hs : s.step l = some s') (hseq : Sequential producer s'.log) : InOrder producer s' [] := by
  cases l with
  | push caller value =>
    cases hs
    refine (h.call hd caller value ?_).runPush false
    obtain ⟨new, hnew⟩ := runPush_log { s with
      pushes := s.pushes + 1
      log := s.log ++ [.called ⟨s.pushes, caller, value⟩] } ⟨s.pushes, caller, value⟩ false
    rw [hnew] at hseq
    exact hseq.of_append
  | resume place =>
    obtain ⟨push, hp, rfl⟩ := Option.map_eq_some_iff.mp hs
    obtain ⟨hlt, rfl⟩ := List.getElem?_eq_some_iff.mp hp
    have htaken : InOrder producer { s with woken := s.woken.eraseIdx place } [s.woken[place]] := by
      refine h.rearrange rfl (List.Perm.subperm ?_)
      have hmoved := List.getElem_cons_eraseIdx_perm hlt
      classical
      refine List.perm_iff_count.mpr fun a => ?_
      have hm := List.perm_iff_count.mp hmoved a
      simp [unsettled, List.count_cons] at hm ⊢
      omega
    exact htaken.runPush true
  | shift =>
    cases hs
    exact h.runShift
  | close =>
    cases hs
    exact h.runClose

/-! ## Runs -/

variable {capacity : Nat}

theorem capacity_step {l : QueueLabel π α} (hs : s.step l = some s') :
    s'.queue.capacity = s.queue.capacity := by
  have hpush : ∀ (s : QueueCalls π α) (push : PushCall π α) (waiting : Bool),
      (s.runPush push waiting).queue.capacity = s.queue.capacity := by
    intro s push waiting
    rcases s.runPush_cases push waiting with ⟨-, -, he⟩ | ⟨-, he⟩ | ⟨-, -, _, _, -, he⟩ |
      ⟨-, -, -, he⟩ <;> rw [he]
  cases l with
  | push producer value =>
    cases hs
    exact hpush ..
  | resume place =>
    obtain ⟨push, -, rfl⟩ := Option.map_eq_some_iff.mp hs
    exact hpush ..
  | shift =>
    cases hs
    rcases s.runShift_cases with ⟨_, _, -, he⟩ | ⟨-, -, he⟩ | ⟨-, -, he⟩ <;> rw [he]
  | close =>
    cases hs
    rcases s.runClose_cases with ⟨-, he⟩ | ⟨-, he⟩ <;> rw [he]

theorem delivery_of_run {ok : QueueCalls π α → QueueLabel π α → Prop}
    (hrun : Run step ok (start capacity) s) : Delivery s [] :=
  hrun.invariant (I := fun s => Delivery s []) (Delivery.start capacity)
    fun _ _ _ h _ hs => h.step hs

theorem capacity_of_run {ok : QueueCalls π α → QueueLabel π α → Prop}
    (hrun : Run step ok (start capacity) s) : s.queue.capacity = capacity :=
  hrun.invariant (I := fun s => s.queue.capacity = capacity) rfl
    fun _ _ _ h _ hs => (capacity_step hs).trans h

theorem step_log {l : QueueLabel π α} (hs : s.step l = some s') : ∃ new, s'.log = s.log ++ new := by
  cases l with
  | push producer value =>
    cases hs
    obtain ⟨new, hnew⟩ := runPush_log { s with
      pushes := s.pushes + 1
      log := s.log ++ [.called ⟨s.pushes, producer, value⟩] } ⟨s.pushes, producer, value⟩ false
    exact ⟨.called ⟨s.pushes, producer, value⟩ :: new, by rw [hnew]; simp⟩
  | resume place =>
    obtain ⟨push, -, rfl⟩ := Option.map_eq_some_iff.mp hs
    exact runPush_log ..
  | shift =>
    cases hs
    rcases s.runShift_cases with ⟨_, _, -, he⟩ | ⟨-, -, he⟩ | ⟨-, -, he⟩ <;> rw [he]
    · exact ⟨_, rfl⟩
    · exact ⟨_, rfl⟩
    · exact ⟨[], (List.append_nil _).symm⟩
  | close =>
    cases hs
    rcases s.runClose_cases with ⟨-, he⟩ | ⟨-, he⟩ <;> rw [he]
    · exact ⟨[], (List.append_nil _).symm⟩
    · exact ⟨_, rfl⟩

theorem inOrder_of_run {ok : QueueCalls π α → QueueLabel π α → Prop} {producer : π}
    (hrun : Run step ok (start capacity) s) (hseq : Sequential producer s.log) :
    InOrder producer s [] := by
  induction hrun with
  | refl => exact ⟨.nil, fun _ h => absurd h List.not_mem_nil, .nil⟩
  | tail hr _ hs ih =>
    obtain ⟨new, hnew⟩ := step_log hs
    have hbefore : Sequential producer _ := Sequential.of_append (by rw [hnew] at hseq; exact hseq)
    exact (ih hbefore).step (delivery_of_run hr) hs hseq

theorem mem_delivered {log : List (QueueEvent π α)} :
    push ∈ delivered log ↔ ∃ shift, .returned shift (some push) ∈ log := by
  unfold delivered
  rw [List.mem_filterMap]
  constructor
  · rintro ⟨e, he, hvalue⟩
    cases e with
    | returned shift value =>
      cases hvalue
      exact ⟨shift, he⟩
    | _ => cases hvalue
  · rintro ⟨shift, he⟩
    exact ⟨_, he, rfl⟩

theorem accepted_of_resolved {log : List (QueueEvent π α)} (h : .resolved push ∈ log) :
    push ∈ accepted log :=
  List.mem_filterMap.mpr ⟨_, h, rfl⟩

theorem refused_of_rejected {log : List (QueueEvent π α)} (h : .rejected push ∈ log) :
    push ∈ refused log :=
  List.mem_filterMap.mpr ⟨_, h, rfl⟩

theorem Delivery.nodup (h : Delivery s []) : (accepted s.log ++ refused s.log).Nodup := by
  have hcalled : (called s.log).Nodup := by
    refine List.Nodup.of_map PushCall.call ?_
    rw [h.pushes]
    exact List.nodup_range
  have hall := h.settled.nodup_iff.mp hcalled
  rw [List.append_assoc] at hall
  exact (List.nodup_append.mp hall).2.1

/-- Before the first null, every value that is ever accepted has been delivered. -/
theorem Delivery.delivered_before (h : Delivery s []) {pre post : List (QueueEvent π α)}
    {shift : Nat} (hlog : s.log = pre ++ .returned shift none :: post) :
    delivered pre = accepted s.log := by
  have hlast := h.nullLast
  rw [hlog] at hlast
  have hpost := (List.pairwise_cons.mp (List.pairwise_append.mp hlast).2.1).1
  have hnone : delivered post = [] := by
    refine List.filterMap_eq_nil_iff.mpr fun e he => ?_
    cases e with
    | returned shift value =>
      cases value with
      | none => rfl
      | some push => exact absurd rfl ((hpost _ he ⟨_, rfl⟩).2 shift push)
    | _ => rfl
  have hempty := (h.null shift (by rw [hlog]; simp)).2
  have hfifo := h.fifo
  rw [hempty, List.append_nil] at hfifo
  rw [hfifo, hlog]
  simp [hnone]

/-- **Delivery.**  However calls and resumptions interleave: the capacity is kept; stored values
and suspended shifts exclude each other; the value of a resolved push is returned by one shift or
still stored, and that of a rejected push neither; the shifts are served in the order of their
calls, and return the values of a sequential producer in the order of its pushes; null comes only
from a closed queue, when every accepted value has been returned, while a shift on a queue that
holds a value returns the first one. -/
theorem queue_delivery (capacity : Nat) (s : QueueCalls π α)
    (hrun : Run step (fun _ _ => True) (start capacity) s) :
    s.queue.items.length ≤ capacity ∧
    (s.queue.items = [] ∨ s.queue.waitingConsumers = []) ∧
    ((delivered s.log ++ s.queue.items).Nodup ∧ (settledShifts s.log).Pairwise (· < ·) ∧
      ∀ push, .resolved push ∈ s.log →
        (∃ shift, .returned shift (some push) ∈ s.log) ∨ push ∈ s.queue.items) ∧
    (∀ push, .rejected push ∈ s.log →
      (∀ shift, .returned shift (some push) ∉ s.log) ∧ push ∉ s.queue.items) ∧
    (∀ producer, Sequential producer s.log → (delivered s.log).Pairwise fun push push' =>
      Both producer push push' → push.call < push'.call) ∧
    ((∀ pre post shift, s.log = pre ++ .returned shift none :: post →
        s.queue.closed = true ∧ delivered pre = accepted s.log) ∧
      ∀ push items s', s.queue.items = push :: items → s.step .shift = some s' →
        s'.log = s.log ++ [.returned s.shifts (some push)]) := by
  have h := delivery_of_run hrun
  have hnodup := h.nodup
  refine ⟨?_, h.exclusive, ⟨?_, ?_, ?_⟩, ?_, ?_, ?_, ?_⟩
  · rw [← capacity_of_run hrun]
    exact h.bounded
  · rw [← h.fifo]
    exact (List.nodup_append.mp hnodup).1
  · have hall : (settledShifts s.log ++ s.queue.waitingConsumers).Pairwise (· < ·) := by
      rw [h.shifts]
      exact List.pairwise_lt_range
    exact (List.pairwise_append.mp hall).1
  · intro push hpush
    have hmem := accepted_of_resolved hpush
    rw [h.fifo, List.mem_append] at hmem
    exact hmem.imp_left mem_delivered.mp
  · intro push hpush
    have hnot : push ∉ delivered s.log ++ s.queue.items := by
      rw [← h.fifo]
      intro hmem
      exact (List.nodup_append.mp hnodup).2.2 push hmem push (refused_of_rejected hpush) rfl
    rw [List.mem_append, not_or] at hnot
    exact ⟨fun shift hshift => hnot.1 (mem_delivered.mpr ⟨shift, hshift⟩), hnot.2⟩
  · intro producer hseq
    have hsorted := (inOrder_of_run hrun hseq).sorted
    rw [h.fifo] at hsorted
    exact (List.pairwise_append.mp hsorted).1
  · intro pre post shift hlog
    exact ⟨(h.null shift (by rw [hlog]; simp)).1, h.delivered_before hlog⟩
  · intro push items s' hitems hs
    cases hs
    rcases s.runShift_cases with ⟨value, rest, hi, he⟩ | ⟨hi, -, he⟩ | ⟨hi, -, he⟩
    · rw [hitems] at hi
      cases hi
      rw [he]
    · rw [hitems] at hi
      cases hi
    · rw [hitems] at hi
      cases hi

/-- Two producers and a closed queue: the second push waits, is woken and hands over to a shift;
the last one is rejected. -/
theorem queue_delivery_handed :
    ∃ s : QueueCalls Bool Nat, Run step (fun _ _ => True) (start 1) s ∧
      delivered s.log = [⟨0, false, 5⟩, ⟨1, true, 6⟩] ∧ refused s.log = [⟨2, false, 7⟩] ∧
      s.queue.items.length ≤ 1 := by
  obtain ⟨s, hrun, htest⟩ := Run.exists_of_exec (step (π := Bool) (α := Nat)) (fun _ _ => true)
    (fun s => delivered s.log = [⟨0, false, 5⟩, ⟨1, true, 6⟩] ∧
      refused s.log = [⟨2, false, 7⟩]) (start 1)
    [.push false 5, .push true 6, .shift, .shift, .resume 0, .close, .push false 7]
    (fun _ _ _ => trivial) (by decide)
  obtain ⟨hdelivered, hrefused⟩ := of_decide_eq_true htest
  exact ⟨s, hrun, hdelivered, hrefused, (queue_delivery 1 s hrun).1⟩

end QueueCalls

end LocalMediaTransfer
