import LocalMediaTransfer.Server.Ipc.PipeQueue

/-!
# Confidentiality of the pipe

With authentication required, a client sees nothing but control messages until its session is
authenticated.  `sendMessage` checks that when it queues a message, and the queue outlives the
connection: what an authenticated client left unread goes to the next client.

* `PipeLabel.cleanConnect` — a client connects when nothing is left over.
* `Sealed` — an unauthenticated connection has only control messages ahead of it.
* `pipe_confidentiality` — **confidentiality in the runs with clean connections**;
  `leftover_prompt_is_leaked` — a run in which the next client reads a pairing prompt.
-/

set_option autoImplicit false

namespace LocalMediaTransfer

open Lib

variable {s t : PipeState} {l : PipeLabel}

/-- Only control messages were written to connections that were not authenticated. -/
def Confidential (s : PipeState) : Prop :=
  ∀ connection message, .written connection false message ∈ s.log → message.type.isControl = true

/-- A send that has passed the check of the session holds a control message. -/
def SendPc.control : SendPc → Bool
  | .admitted message => message.type.isControl
  | .connected _ => true

/-- Nothing but control messages is queued or about to be queued. -/
def PipeState.onlyControl (s : PipeState) : Bool :=
  s.queue.all (·.type.isControl) && s.senders.entries.all fun e => e.2.control

/-- A client connects only when nothing is left over from earlier connections. -/
def PipeLabel.cleanConnect (s : PipeState) : PipeLabel → Bool
  | .connect => s.onlyControl
  | _ => true

/-- An open connection that is not authenticated has only control messages ahead of it. -/
structure Sealed (s : PipeState) : Prop where
  queue : s.pc ≠ .waiting → s.authenticated = false → ∀ m ∈ s.queue, m.type.isControl = true
  flight : s.pc ≠ .waiting → s.authenticated = false →
    ∀ m ∈ s.pc.inFlight, m.type.isControl = true
  senders : s.pc ≠ .waiting → s.authenticated = false →
    ∀ thread m, s.senders.lookup thread = some (.admitted m) → m.type.isControl = true
  written : Confidential s

theorem mem_enqueue {queue : List OutboundMessage} {m m' : OutboundMessage}
    (h : m' ∈ (enqueue queue m).1) : m' ∈ queue ∨ m' = m := by
  have hspec := enqueue_spec queue m
  generalize (enqueue queue m).1 = queue', (enqueue queue m).2 = outcome at hspec h
  cases hspec with
  | merged before after old split | evicting before after old split =>
    rw [split]
    simp only [List.mem_append, List.mem_cons, List.not_mem_nil, or_false] at h ⊢
    tauto
  | droppedLog | rejected => exact .inl h
  | appended => simpa using h

theorem written_events {outcome : SendOutcome} {m m' : OutboundMessage} {connection : Nat}
    {authenticated : Bool} : .written connection authenticated m' ∉ outcome.events m := by
  cases outcome <;> simp [SendOutcome.events]

theorem onlyControl_spec (h : s.onlyControl = true) :
    (∀ m ∈ s.queue, m.type.isControl = true) ∧
      ∀ thread m, s.senders.lookup thread = some (.admitted m) → m.type.isControl = true := by
  simp only [PipeState.onlyControl, Bool.and_eq_true, List.all_eq_true] at h
  refine ⟨h.1, ?_⟩
  intro thread m hm
  exact h.2 _ (Table.lookup_eq_some_iff.mp hm)

theorem Sealed.init : Sealed {} where
  queue := fun h => absurd rfl h
  flight := fun h => absurd rfl h
  senders := fun h => absurd rfl h
  written := by
    intro connection message h
    cases h

/-- A step of the pipe thread that touches neither messages nor the session flag. -/
theorem Sealed.of_same (h : Sealed s) (hqueue : t.queue = s.queue)
    (hflight : t.pc.inFlight = s.pc.inFlight) (hlog : t.log = s.log)
    (hsenders : t.senders = s.senders)
    (hopen : t.pc ≠ .waiting → t.authenticated = false → s.pc ≠ .waiting ∧
      s.authenticated = false) :
    Sealed t := by
  refine ⟨?_, ?_, ?_, ?_⟩
  · intro hpc hauth
    rw [hqueue]
    exact h.queue (hopen hpc hauth).1 (hopen hpc hauth).2
  · intro hpc hauth
    rw [hflight]
    exact h.flight (hopen hpc hauth).1 (hopen hpc hauth).2
  · intro hpc hauth
    rw [hsenders]
    exact h.senders (hopen hpc hauth).1 (hopen hpc hauth).2
  · unfold Confidential
    rw [hlog]
    exact h.written

theorem Sealed.send (h : Sealed s) {thread : Nat} {message : OutboundMessage}
    (hstep : pipeStep true s (.send thread message) = some t) : Sealed t := by
  simp only [pipeStep] at hstep
  split at hstep
  · cases hstep
  · split at hstep
    · cases hstep
      refine ⟨h.queue, h.flight, ?_, h.written⟩
      intro hpc hauth thread' m hm
      by_cases hthread : thread' = thread
      · subst hthread
        rw [show AList.lookup thread' (AList.insert thread' (SendPc.connected message) s.senders) =
          some (.connected message) from AList.lookup_insert _] at hm
        cases hm
      · exact h.senders hpc hauth thread' m ((AList.lookup_insert_ne hthread).symm.trans hm)
    · cases hstep
      exact h

theorem Sealed.check (h : Sealed s) {thread : Nat}
    (hstep : pipeStep true s (.check thread) = some t) : Sealed t := by
  simp only [pipeStep] at hstep
  split at hstep
  · rename_i message _
    split at hstep
    · cases hstep
      refine ⟨h.queue, h.flight, ?_, h.written⟩
      intro hpc hauth thread' m hm
      by_cases hthread : thread' = thread
      · subst hthread
        rw [show AList.lookup thread' (AList.erase thread' s.senders) = none from
          AList.lookup_erase _ _] at hm
        cases hm
      · exact h.senders hpc hauth thread' m ((AList.lookup_erase_ne hthread).symm.trans hm)
    · rename_i hcheck
      cases hstep
      refine ⟨h.queue, h.flight, ?_, h.written⟩
      intro hpc hauth thread' m hm
      have hauth' : s.authenticated = false := hauth
      by_cases hthread : thread' = thread
      · subst hthread
        rw [show AList.lookup thread' (AList.insert thread' (SendPc.admitted message) s.senders) =
          some (.admitted message) from AList.lookup_insert _] at hm
        cases hm
        simpa [hauth'] using hcheck
      · exact h.senders hpc hauth thread' m ((AList.lookup_insert_ne hthread).symm.trans hm)
  · cases hstep

theorem Sealed.enqueue (h : Sealed s) {thread : Nat}
    (hstep : pipeStep true s (.enqueue thread) = some t) : Sealed t := by
  simp only [pipeStep] at hstep
  split at hstep
  · rename_i message hmessage
    cases hstep
    refine ⟨?_, h.flight, ?_, ?_⟩
    · intro hpc hauth m hm
      rcases mem_enqueue hm with hm | rfl
      · exact h.queue hpc hauth m hm
      · exact h.senders hpc hauth thread m hmessage
    · intro hpc hauth thread' m hm
      by_cases hthread : thread' = thread
      · subst hthread
        rw [show AList.lookup thread' (AList.erase thread' s.senders) = none from
          AList.lookup_erase _ _] at hm
        cases hm
      · exact h.senders hpc hauth thread' m ((AList.lookup_erase_ne hthread).symm.trans hm)
    · intro connection m hm
      rcases List.mem_append.mp hm with hm | hm
      · exact h.written connection m hm
      · exact absurd hm written_events
  · cases hstep

/-- A step of the pipe thread. -/
theorem Sealed.step (h : Sealed s) (hclean : l.cleanConnect s = true)
    (hstep : pipeStep true s l = some t) : Sealed t := by
  cases l with
  | send => exact h.send hstep
  | check => exact h.check hstep
  | enqueue => exact h.enqueue hstep
  | connect =>
    obtain ⟨hqueue, hsenders⟩ := onlyControl_spec hclean
    simp only [pipeStep] at hstep
    split at hstep
    · cases hstep
      refine ⟨fun _ _ => hqueue, ?_, fun _ _ => hsenders, h.written⟩
      intro _ _ m hm
      cases hm
    · cases hstep
  | pop =>
    simp only [pipeStep] at hstep
    split at hstep
    · rename_i hpc
      have hopen : s.pc ≠ .waiting := by simp [hpc]
      split at hstep
      · cases hstep
        exact h.of_same rfl (by rw [hpc]; rfl) rfl rfl fun _ hauth => ⟨hopen, hauth⟩
      · rename_i message rest hqueue
        cases hstep
        have hall : s.authenticated = false → ∀ m ∈ message :: rest, m.type.isControl = true := by
          rw [← hqueue]
          exact h.queue hopen
        refine ⟨?_, ?_, ?_, h.written⟩
        · intro _ hauth m hm
          exact hall hauth m (List.mem_cons_of_mem _ hm)
        · intro _ hauth m hm
          obtain rfl := List.mem_singleton.mp hm
          exact hall hauth m (List.mem_cons_self ..)
        · intro _ hauth
          exact h.senders hopen hauth
    · cases hstep
  | wrote ok =>
    simp only [pipeStep] at hstep
    split at hstep
    · rename_i message hpc
      have hopen : s.pc ≠ .waiting := by simp [hpc]
      cases ok with
      | false =>
        cases hstep
        exact h.of_same rfl (by rw [hpc]; rfl) rfl rfl fun _ hauth => ⟨hopen, hauth⟩
      | true =>
        cases hstep
        refine ⟨fun _ hauth => h.queue hopen hauth, ?_, fun _ hauth => h.senders hopen hauth, ?_⟩
        · intro _ _ m hm
          cases hm
        · intro connection m hm
          rcases List.mem_append.mp hm with hm | hm
          · exact h.written connection m hm
          · -- what is written now was in flight
            simp only [List.mem_singleton, PipeEvent.written.injEq] at hm
            obtain ⟨-, hauth, rfl⟩ := hm
            have hflight := h.flight hopen hauth.symm
            rw [hpc] at hflight
            exact hflight m (List.mem_singleton.mpr rfl)
    · cases hstep
  | requeue =>
    simp only [pipeStep] at hstep
    split at hstep
    · rename_i message hpc
      have hopen : s.pc ≠ .waiting := by simp [hpc]
      cases hstep
      refine ⟨?_, ?_, fun _ hauth => h.senders hopen hauth, h.written⟩
      · intro _ hauth m hm
        rcases List.mem_cons.mp hm with rfl | hm
        · have hflight := h.flight hopen hauth
          rw [hpc] at hflight
          exact hflight m (List.mem_singleton.mpr rfl)
        · exact h.queue hopen hauth m hm
      · intro _ _ m hm
        cases hm
    · cases hstep
  | look | rest =>
    simp only [pipeStep] at hstep
    split at hstep
    · rename_i hpc
      cases hstep
      refine h.of_same rfl ?_ rfl rfl fun _ hauth => ⟨by simp [hpc], hauth⟩
      rw [hpc]
      cases s.connected <;> rfl
    · cases hstep
  | authenticate =>
    simp only [pipeStep] at hstep
    split at hstep
    · cases hstep
      refine h.of_same rfl rfl rfl rfl ?_
      intro _ hauth
      cases hauth
    · cases hstep
  | reset =>
    simp only [pipeStep] at hstep
    split at hstep
    · rename_i hpc
      cases hstep
      exact h.of_same rfl (by rw [hpc]; rfl) rfl rfl fun hwaiting => absurd rfl hwaiting
    · cases hstep
  | announce | poll | disconnect | close =>
    simp only [pipeStep] at hstep
    split at hstep
    · rename_i hpc
      cases hstep
      exact h.of_same rfl (by rw [hpc]; rfl) rfl rfl fun _ hauth => ⟨by simp [hpc], hauth⟩
    · cases hstep
  | stop =>
    cases hstep
    exact h.of_same rfl rfl rfl rfl fun hpc hauth => ⟨hpc, hauth⟩

/-- **Pipe confidentiality.**  In every run in which each client connects when nothing but control
messages is queued or about to be queued, no other message is written to a connection before it is
authenticated. -/
theorem pipe_confidentiality
    (hrun : Run (pipeStep true) (fun t l => l.cleanConnect t = true) {} s) : Confidential s := by
  have hsealed : Sealed s := by
    apply hrun.invariant .init
    intro t l u ht hclean hstep
    exact ht.step hclean hstep
  exact hsealed.written

theorem pipe_confidentiality_reconnected :
    ∃ s, Run (pipeStep true) (fun t l => l.cleanConnect t = true) {} s ∧ s.connection = 2 ∧
      .written 1 true ⟨.pairingRequest, []⟩ ∈ s.log ∧ Confidential s := by
  obtain ⟨s, hrun, htest⟩ := Run.exists_of_exec (pipeStep true)
    (P := fun t l => l.cleanConnect t = true) (fun t l => l.cleanConnect t)
    (fun s => decide (s.connection = 2 ∧ .written 1 true ⟨.pairingRequest, []⟩ ∈ s.log)) {}
    [.connect, .announce, .authenticate, .send 1 ⟨.pairingRequest, []⟩, .check 1, .enqueue 1,
      .poll false, .look, .pop, .wrote true, .look, .pop, .rest, .poll true, .look, .rest, .close,
      .reset, .connect]
    (fun _ _ h => h) (by decide)
  obtain ⟨hconnection, hwritten⟩ := of_decide_eq_true htest
  exact ⟨s, hrun, hconnection, hwritten, pipe_confidentiality hrun⟩

/-- A pairing prompt that the first client did not read is written to the second one, which has not
authenticated itself. -/
theorem leftover_prompt_is_leaked :
    ∃ s, PipeRun true {} s ∧ .written 2 false ⟨.pairingRequest, []⟩ ∈ s.log ∧ ¬ Confidential s := by
  obtain ⟨s, hrun, htest⟩ := Run.exists_of_exec (pipeStep true) (P := fun _ _ => True)
    (fun _ _ => true) (fun s => decide (.written 2 false ⟨.pairingRequest, []⟩ ∈ s.log)) {}
    [.connect, .announce, .authenticate, .send 1 ⟨.pairingRequest, []⟩, .check 1, .enqueue 1,
      .poll true, .look, .rest, .close, .reset, .connect, .announce, .poll false, .look, .pop,
      .wrote true]
    (fun _ _ _ => trivial) (by decide)
  have hwritten := of_decide_eq_true htest
  refine ⟨s, hrun, hwritten, ?_⟩
  intro hconfidential
  exact absurd (hconfidential _ _ hwritten) (by decide)

end LocalMediaTransfer
