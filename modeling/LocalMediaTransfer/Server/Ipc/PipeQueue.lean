import LocalMediaTransfer.Server.Ipc.PipeServer

/-!
# The bound and the priorities of the pipe queue

Approvals and security prompts travel through the same queue as logs and metrics.  Logs give way
first, a full queue sacrifices a log or a coalescible message, and a failed write puts its message
back in front.

* `EnqueueSpec`, `enqueue_spec` — everything the queue section can do.
* `Ordered` — accepted messages, in order: written, in flight, queued.
* `pipe_queue_bound_and_priority` — **the bound, the order, and who is never lost**.
-/

set_option autoImplicit false

namespace LocalMediaTransfer

open Lib

variable {required : Bool} {s t : PipeState} {queue : List OutboundMessage}
variable {message : OutboundMessage}

/-! ## The queue section -/

/-- What the queue section can do. -/
inductive EnqueueSpec (queue : List OutboundMessage) (message : OutboundMessage) :
    List OutboundMessage → SendOutcome → Prop where
  | merged (before after : List OutboundMessage) (old : OutboundMessage)
      (split : queue = before ++ old :: after) (type : old.type = message.type)
      (first : ∀ queued ∈ before, queued.type ≠ message.type)
      (coalescible : isCoalescibleMessage message.type = true) :
      EnqueueSpec queue message (before ++ message :: after) .merged
  | droppedLog (log : message.type = .log) : EnqueueSpec queue message queue .droppedLog
  | evicting (before after : List OutboundMessage) (victim : OutboundMessage)
      (split : queue = before ++ victim :: after) (disposable : victim.disposable = true)
      (first : ∀ queued ∈ before, queued.disposable = false)
      (fresh : isCoalescibleMessage message.type = true →
        ∀ queued ∈ queue, queued.type ≠ message.type)
      (important : message.type ≠ .log) :
      EnqueueSpec queue message (before ++ after ++ [message]) (.evicting victim)
  | rejected (full : 255 ≤ queue.length) (none : ∀ queued ∈ queue, queued.disposable = false) :
      EnqueueSpec queue message queue .rejected
  | appended (room : queue.length < 255) (log : message.type = .log → queue.length < 224)
      (fresh : isCoalescibleMessage message.type = true →
        ∀ queued ∈ queue, queued.type ≠ message.type) :
      EnqueueSpec queue message (queue ++ [message]) .appended

theorem replacePayload_spec (h : ∃ queued ∈ queue, queued.type = message.type) :
    ∃ before after old, queue = before ++ old :: after ∧ old.type = message.type ∧
      (∀ queued ∈ before, queued.type ≠ message.type) ∧
      replacePayload message queue = before ++ message :: after := by
  induction queue with
  | nil =>
    obtain ⟨queued, hmem, -⟩ := h
    cases hmem
  | cons queued rest ih =>
    by_cases htype : queued.type = message.type
    · refine ⟨[], rest, queued, rfl, htype, by simp, ?_⟩
      simp only [replacePayload, if_pos htype, List.nil_append]
      rw [htype]
    · have hrest : ∃ queued ∈ rest, queued.type = message.type := by
        obtain ⟨other, hmem, hother⟩ := h
        rcases List.mem_cons.mp hmem with rfl | hmem
        · exact absurd hother htype
        · exact ⟨other, hmem, hother⟩
      obtain ⟨before, after, old, rfl, hold, hfirst, heq⟩ := ih hrest
      refine ⟨queued :: before, after, old, rfl, hold, ?_, ?_⟩
      · exact List.forall_mem_cons.mpr ⟨htype, hfirst⟩
      · simp only [replacePayload, if_neg htype, heq, List.cons_append]

theorem eraseP_disposable {victim : OutboundMessage}
    (h : queue.find? (·.disposable) = some victim) :
    ∃ before after, queue = before ++ victim :: after ∧ victim.disposable = true ∧
      (∀ queued ∈ before, queued.disposable = false) ∧
      queue.eraseP (·.disposable) = before ++ after := by
  obtain ⟨hvictim, before, after, rfl, hbefore⟩ := List.find?_eq_some_iff_append.mp h
  have hfirst : ∀ queued ∈ before, queued.disposable = false := by
    intro queued hmem
    simpa using hbefore queued hmem
  refine ⟨before, after, rfl, hvictim, hfirst, ?_⟩
  rw [List.eraseP_append_right]
  · rw [List.eraseP_cons_of_pos hvictim]
  · intro queued hmem
    rw [hfirst queued hmem]
    exact Bool.false_ne_true

/-- **Everything the queue section can do.** -/
theorem enqueue_spec (queue : List OutboundMessage) (message : OutboundMessage) :
    EnqueueSpec queue message (enqueue queue message).1 (enqueue queue message).2 := by
  unfold enqueue
  split
  · rename_i hmerge
    rw [Bool.and_eq_true] at hmerge
    have hmem : ∃ queued ∈ queue, queued.type = message.type := by
      obtain ⟨queued, hmem, htype⟩ := List.any_eq_true.mp hmerge.2
      exact ⟨queued, hmem, beq_iff_eq.mp htype⟩
    obtain ⟨before, after, old, hsplit, htype, hfirst, heq⟩ := replacePayload_spec hmem
    show EnqueueSpec queue message (replacePayload message queue) .merged
    rw [heq]
    exact .merged before after old hsplit htype hfirst hmerge.1
  · rename_i hmerge
    have hfresh : isCoalescibleMessage message.type = true →
        ∀ queued ∈ queue, queued.type ≠ message.type := by
      intro hcoal queued hmem htype
      apply hmerge
      rw [Bool.and_eq_true]
      exact ⟨hcoal, List.any_eq_true.mpr ⟨queued, hmem, beq_iff_eq.mpr htype⟩⟩
    split
    · rename_i hlog
      rw [Bool.and_eq_true, beq_iff_eq] at hlog
      exact .droppedLog hlog.1
    · rename_i hlog
      rw [Bool.and_eq_true, beq_iff_eq, decide_eq_true_iff, not_and, not_le] at hlog
      have hroom : message.type = .log → queue.length < 224 := hlog
      split
      · rename_i hfull
        have hfull' : 255 ≤ queue.length := hfull
        split
        · rename_i victim hvictim
          obtain ⟨before, after, hsplit, hdisposable, hfirst, heq⟩ := eraseP_disposable hvictim
          show EnqueueSpec queue message (queue.eraseP (·.disposable) ++ [message])
            (.evicting victim)
          rw [heq]
          refine .evicting before after victim hsplit hdisposable hfirst hfresh ?_
          intro htype
          have hlt := hroom htype
          omega
        · rename_i hnone
          refine .rejected hfull' ?_
          intro queued hmem
          simpa using List.find?_eq_none.mp hnone queued hmem
      · rename_i hfull
        exact .appended (Nat.lt_of_not_le hfull) hroom hfresh

theorem enqueue_length (queue : List OutboundMessage) (message : OutboundMessage) :
    (enqueue queue message).1.length ≤ max 255 queue.length := by
  have hspec := enqueue_spec queue message
  generalize (enqueue queue message).1 = queue', (enqueue queue message).2 = outcome at hspec
  cases hspec with
  | merged before after old split => simp [split]
  | droppedLog => exact le_max_right ..
  | evicting before after victim split => simp [split]
  | rejected => exact le_max_right ..
  | appended room =>
    rw [List.length_append, List.length_singleton]
    exact le_trans room (le_max_left ..)

/-! ## The order of messages -/

/-- The message of an accepted send. -/
def PipeEvent.acceptedMessage : PipeEvent → Option OutboundMessage
  | .accepted message => some message
  | _ => none

/-- The message of a successful write. -/
def PipeEvent.writtenMessage : PipeEvent → Option OutboundMessage
  | .written _ _ message => some message
  | _ => none

/-- The accepted messages, in order. -/
def acceptedOf (log : List PipeEvent) : List OutboundMessage := log.filterMap (·.acceptedMessage)

/-- The written messages, in order. -/
def writtenOf (log : List PipeEvent) : List OutboundMessage := log.filterMap (·.writtenMessage)

/-- Every message that is or was on its way to the client, in the order it goes. -/
def PipeState.line (s : PipeState) : List OutboundMessage :=
  writtenOf s.log ++ s.pc.inFlight ++ s.queue

/-- Neither a log nor coalescible. -/
def OutboundMessage.important (message : OutboundMessage) : Bool := !message.disposable

/-- Not coalescible. -/
def OutboundMessage.single (message : OutboundMessage) : Bool := !isCoalescibleMessage message.type

theorem acceptedOf_append (log events : List PipeEvent) :
    acceptedOf (log ++ events) = acceptedOf log ++ acceptedOf events := List.filterMap_append ..

theorem writtenOf_append (log events : List PipeEvent) :
    writtenOf (log ++ events) = writtenOf log ++ writtenOf events := List.filterMap_append ..

theorem writtenOf_events (outcome : SendOutcome) : writtenOf (outcome.events message) = [] := by
  cases outcome <;> rfl

/-- The invariant of the queue. -/
structure Ordered (s : PipeState) : Prop where
  bound : s.queue.length + s.pc.inFlight.length ≤ 256
  kept : s.line.filter (·.important) = (acceptedOf s.log).filter (·.important)
  order : (s.line.filter (·.single)).Sublist ((acceptedOf s.log).filter (·.single))
  evicted : ∀ message, .evicted message ∈ s.log → message.important = false

theorem important_of_coalescible {m : OutboundMessage} (h : isCoalescibleMessage m.type = true) :
    m.important = false ∧ m.single = false := by
  simp [OutboundMessage.important, OutboundMessage.single, OutboundMessage.disposable, h]

theorem filter_replace (p : OutboundMessage → Bool) (before after : List OutboundMessage)
    {old new : OutboundMessage} (hold : p old = false) (hnew : p new = false) :
    (before ++ new :: after).filter p = (before ++ old :: after).filter p := by
  simp [hold, hnew]

/-- What the queue section does to the line and to the accepted messages. -/
theorem enqueue_line (queue : List OutboundMessage) (message : OutboundMessage) :
    (enqueue queue message).1.filter (·.important) = queue.filter (·.important) ++
      (acceptedOf ((enqueue queue message).2.events message)).filter (·.important) ∧
    ((enqueue queue message).1.filter (·.single)).Sublist (queue.filter (·.single) ++
      (acceptedOf ((enqueue queue message).2.events message)).filter (·.single)) := by
  have hspec := enqueue_spec queue message
  generalize (enqueue queue message).1 = queue', (enqueue queue message).2 = outcome at hspec
  cases hspec with
  | merged before after old split type first coalescible =>
    have hnew := important_of_coalescible coalescible
    have hold := important_of_coalescible (m := old) (by rw [type]; exact coalescible)
    have haccepted : acceptedOf (SendOutcome.merged.events message) = [message] := rfl
    rw [split, haccepted, filter_replace _ before after hold.1 hnew.1,
      filter_replace _ before after hold.2 hnew.2]
    simp [hnew.1]
  | droppedLog =>
    have haccepted : acceptedOf (SendOutcome.droppedLog.events message) = [] := rfl
    rw [haccepted]
    simp
  | evicting before after victim split disposable =>
    have haccepted : acceptedOf ((SendOutcome.evicting victim).events message) = [message] := rfl
    have hvictim : victim.important = false := by simp [OutboundMessage.important, disposable]
    rw [split, haccepted]
    constructor
    · simp [hvictim]
    · rw [List.filter_append]
      apply List.Sublist.append_right
      apply List.Sublist.filter
      exact (List.append_sublist_append_left before).mpr (List.sublist_cons_self ..)
  | rejected =>
    have haccepted : acceptedOf (SendOutcome.rejected.events message) = [] := rfl
    rw [haccepted]
    simp
  | appended =>
    have haccepted : acceptedOf (SendOutcome.appended.events message) = [message] := rfl
    rw [haccepted, List.filter_append, List.filter_append]
    exact ⟨rfl, List.Sublist.refl _⟩

theorem evicted_events {victim : OutboundMessage}
    (h : .evicted victim ∈ (enqueue queue message).2.events message) :
    victim.important = false := by
  have hspec := enqueue_spec queue message
  generalize (enqueue queue message).1 = queue', (enqueue queue message).2 = outcome at hspec h
  cases hspec with
  | evicting before after victim' split disposable =>
    simp only [SendOutcome.events, List.mem_cons, PipeEvent.evicted.injEq, reduceCtorEq,
      List.not_mem_nil, or_false] at h
    rw [h]
    simp [OutboundMessage.important, disposable]
  | merged | droppedLog | rejected | appended => simp [SendOutcome.events] at h

theorem Ordered.init : Ordered {} where
  bound := Nat.zero_le _
  kept := rfl
  order := List.Sublist.refl _
  evicted := by
    intro message h
    cases h

/-- A step that moves a message along the line. -/
theorem Ordered.of_line (h : Ordered s) (hline : t.line = s.line)
    (haccepted : acceptedOf t.log = acceptedOf s.log)
    (hbound : t.queue.length + t.pc.inFlight.length ≤ 256)
    (hevicted : ∀ message, .evicted message ∈ t.log → .evicted message ∈ s.log) : Ordered t where
  bound := hbound
  kept := by
    rw [hline, haccepted]
    exact h.kept
  order := by
    rw [hline, haccepted]
    exact h.order
  evicted := fun message hm => h.evicted message (hevicted message hm)

/-- Steps keep the order. -/
theorem Ordered.move {l : PipeLabel} (h : Ordered s) (hmove : PipeMove s l t) : Ordered t := by
  have hbound := h.bound
  cases hmove with
  | quiet l t queue flight log =>
    apply h.of_line
    · simp only [PipeState.line, queue, flight, log]
    · rw [log]
    · rw [queue, flight]
      exact hbound
    · rw [log]
      exact fun _ hm => hm
  | pop message rest pc queue =>
    apply h.of_line
    · simp [PipeState.line, pc, queue, PipePc.inFlight]
    · rfl
    · rw [queue, pc] at hbound
      exact hbound
    · exact fun _ hm => hm
  | wrote message pc =>
    apply h.of_line
    · simp [PipeState.line, pc, PipePc.inFlight, writtenOf, PipeEvent.writtenMessage]
    · rw [acceptedOf_append]
      exact List.append_nil _
    · exact le_trans (Nat.add_le_add_left (Nat.zero_le _) _) hbound
    · intro victim hm
      rcases List.mem_append.mp hm with hm | hm
      · exact hm
      · simp at hm
  | requeue message pc =>
    apply h.of_line
    · simp [PipeState.line, pc, PipePc.inFlight]
    · rfl
    · rw [pc] at hbound
      exact hbound
    · exact fun _ hm => hm
  | enqueue thread message admitted =>
    obtain ⟨himportant, hsingle⟩ := enqueue_line s.queue message
    have hwritten : writtenOf (s.log ++ (enqueue s.queue message).2.events message) =
        writtenOf s.log := by
      rw [writtenOf_append, writtenOf_events, List.append_nil]
    refine ⟨?_, ?_, ?_, ?_⟩
    · have hlength := enqueue_length s.queue message
      have hflight : s.pc.inFlight.length ≤ 1 := by
        cases s.pc <;> simp [PipePc.inFlight]
      show (enqueue s.queue message).1.length + s.pc.inFlight.length ≤ 256
      omega
    · simp only [PipeState.line, hwritten, acceptedOf_append, List.filter_append, himportant]
      have hkept := h.kept
      simp only [PipeState.line, List.filter_append] at hkept
      rw [← hkept]
      simp
    · simp only [PipeState.line, hwritten, acceptedOf_append, List.filter_append]
      have horder := h.order
      simp only [PipeState.line, List.filter_append] at horder
      refine List.Sublist.trans ((List.append_sublist_append_left _).mpr hsingle) ?_
      rw [← List.append_assoc]
      exact (List.append_sublist_append_right _).mpr horder
    · intro victim hm
      rcases List.mem_append.mp hm with hm | hm
      · exact h.evicted victim hm
      · exact evicted_events hm

/-! ## The result -/

/-- The runs of the pipe server. -/
abbrev PipeRun (required : Bool) : PipeState → PipeState → Prop :=
  Run (pipeStep required) fun _ _ => True

theorem PipeRun.ordered (h : PipeRun required {} s) : Ordered s := by
  apply h.invariant .init
  intro t l u ht _ hstep
  exact ht.move (pipeStep_move hstep)

/-- **Pipe queue bound and priority.**  In every state of every run: the queue and the message in
flight are at most 256; the messages that are not coalescible go out in the order they were
accepted, and of those that are no logs either, none is lost; a message that is refused for lack of
room finds nothing disposable in the queue; and an accepted log leaves the queue at most 224
long. -/
theorem pipe_queue_bound_and_priority (hrun : PipeRun required {} s) :
    s.queue.length + s.pc.inFlight.length ≤ 256 ∧
    ((writtenOf s.log).filter (·.single)).Sublist ((acceptedOf s.log).filter (·.single)) ∧
    (writtenOf s.log ++ s.pc.inFlight ++ s.queue).filter (·.important) =
      (acceptedOf s.log).filter (·.important) ∧
    (∀ message, .evicted message ∈ s.log → message.important = false) ∧
    (∀ message, (enqueue s.queue message).2 = .rejected →
      ∀ queued ∈ s.queue, queued.type ≠ .log ∧ isCoalescibleMessage queued.type = false) ∧
    (∀ message, message.type = .log → (enqueue s.queue message).2.accepted = true →
      (enqueue s.queue message).1.length ≤ 224) := by
  have hordered := hrun.ordered
  refine ⟨hordered.bound, ?_, hordered.kept, hordered.evicted, ?_, ?_⟩
  · have horder := hordered.order
    simp only [PipeState.line, List.append_assoc, List.filter_append] at horder
    exact (List.sublist_append_left ..).trans horder
  · intro message hrejected queued hmem
    have hspec := enqueue_spec s.queue message
    rw [hrejected] at hspec
    generalize (enqueue s.queue message).1 = queue' at hspec
    cases hspec with
    | rejected full none =>
      have hkept := none queued hmem
      simpa [OutboundMessage.disposable] using hkept
  · intro message hlog haccepted
    have hspec := enqueue_spec s.queue message
    generalize (enqueue s.queue message).1 = queue', (enqueue s.queue message).2 = outcome at *
    cases hspec with
    | merged before after old split type first coalescible =>
      rw [hlog] at coalescible
      cases coalescible
    | droppedLog | rejected => cases haccepted
    | evicting before after victim split disposable first fresh important =>
      exact absurd hlog important
    | appended room log =>
      rw [List.length_append, List.length_singleton]
      exact log hlog

theorem pipe_queue_bound_and_priority_requeued :
    ∃ s, PipeRun true {} s ∧ s.queue = [⟨.pairingRequest, []⟩, ⟨.log, []⟩] ∧
      (writtenOf s.log ++ s.pc.inFlight ++ s.queue).filter (·.important) =
        (acceptedOf s.log).filter (·.important) := by
  obtain ⟨s, hrun, htest⟩ := Run.exists_of_exec (pipeStep true) (P := fun _ _ => True)
    (fun _ _ => true) (fun s => decide (s.queue = [⟨.pairingRequest, []⟩, ⟨.log, []⟩])) {}
    [.connect, .announce, .authenticate, .send 1 ⟨.pairingRequest, []⟩, .check 1, .enqueue 1,
      .poll false, .look, .pop, .send 2 ⟨.log, []⟩, .check 2, .wrote false, .enqueue 2, .requeue]
    (fun _ _ _ => trivial) (by decide)
  exact ⟨s, hrun, of_decide_eq_true htest, (pipe_queue_bound_and_priority hrun).2.2.1⟩

end LocalMediaTransfer
