import LocalMediaTransfer.Server.Ipc.PipeQueue

/-!
# Coalesced messages

Metrics, the transfer history and the list of trusted devices are snapshots: a newer one replaces
the one that is still queued.  A message that is being written is out of the queue, so a newer one
is appended, and a failed write then puts the older one back in front of it.

* `latest` — the snapshot that a client should end up with.
* `PipeLabel.cleanRequeue` — no newer snapshot was queued during a failed write.
* `pipe_coalescing` — **one snapshot of a type is queued, and the last one is delivered**, unless it
  gave way to another message in a full queue.
* `evicted_snapshot_is_lost` — a run in which it did.
* `requeued_snapshot_is_replaced` — when a newer snapshot was queued during a failed write, the
  client can end up with an older one.
-/

set_option autoImplicit false

namespace LocalMediaTransfer

open Lib

variable {required : Bool} {s t : PipeState} {l : PipeLabel} {type : MessageType}
variable {message : OutboundMessage}

/-- The messages of one type. -/
def ofType (type : MessageType) (messages : List OutboundMessage) : List OutboundMessage :=
  messages.filter fun message => message.type == type

theorem ofType_append (type : MessageType) (a b : List OutboundMessage) :
    ofType type (a ++ b) = ofType type a ++ ofType type b := List.filter_append ..

theorem ofType_cons_self {messages : List OutboundMessage} (h : message.type = type) :
    ofType type (message :: messages) = message :: ofType type messages := by
  simp [ofType, h]

theorem ofType_cons_ne {messages : List OutboundMessage} (h : message.type ≠ type) :
    ofType type (message :: messages) = ofType type messages := by
  simp [ofType, h]

theorem ofType_eq_nil {messages : List OutboundMessage}
    (h : ∀ queued ∈ messages, queued.type ≠ type) : ofType type messages = [] := by
  unfold ofType
  rw [List.filter_eq_nil_iff]
  intro queued hmem
  simpa using h queued hmem

/-- The last accepted message of a type, while it has not been evicted. -/
def latestAfter (type : MessageType) (known : Option OutboundMessage) :
    PipeEvent → Option OutboundMessage
  | .accepted message => if message.type = type then some message else known
  | .evicted message => if message.type = type then none else known
  | _ => known

/-- The last accepted message of a type, unless it was evicted since. -/
def latest (type : MessageType) (log : List PipeEvent) : Option OutboundMessage :=
  log.foldl (latestAfter type) none

theorem latest_append (log events : List PipeEvent) :
    latest type (log ++ events) = events.foldl (latestAfter type) (latest type log) :=
  List.foldl_append ..

/-- A failed write puts a coalescible message back only when no other of its type is queued. -/
def PipeLabel.cleanRequeue (s : PipeState) : PipeLabel → Bool
  | .requeue =>
      match s.pc with
      | .failed message =>
          !isCoalescibleMessage message.type || (ofType message.type s.queue).isEmpty
      | _ => true
  | _ => true

/-- One snapshot of each type is queued, and the newest copy is the latest one. -/
structure Coalesced (s : PipeState) : Prop where
  one : ∀ type, isCoalescibleMessage type = true → (ofType type s.queue).length ≤ 1
  newest : ∀ type message, isCoalescibleMessage type = true → latest type s.log = some message →
    (ofType type s.line).getLast? = some message

theorem Coalesced.init : Coalesced {} where
  one := fun _ _ => Nat.zero_le _
  newest := by
    intro type message _ h
    cases h

/-- A step that moves a message along the line. -/
theorem Coalesced.of_line (h : Coalesced s) (hline : t.line = s.line)
    (hlatest : ∀ type, latest type t.log = latest type s.log)
    (hone : ∀ type, isCoalescibleMessage type = true → (ofType type t.queue).length ≤ 1) :
    Coalesced t where
  one := hone
  newest := by
    intro type message hcoal hm
    rw [hline]
    exact h.newest type message hcoal ((hlatest type).symm.trans hm)

theorem eq_nil_of_length_append {a b : List OutboundMessage} {m : OutboundMessage}
    (h : (a ++ m :: b).length ≤ 1) : a = [] ∧ b = [] := by
  rw [List.length_append, List.length_cons] at h
  have ha : a.length = 0 := by omega
  have hb : b.length = 0 := by omega
  exact ⟨List.length_eq_zero_iff.mp ha, List.length_eq_zero_iff.mp hb⟩

/-- What the queue section does to the messages of a coalescible type: it makes the new message the
only one, or leaves them alone, or evicts the only one. -/
inductive TypeEffect (type : MessageType) (message : OutboundMessage)
    (old new : List OutboundMessage) (events : List PipeEvent) : Prop where
  | replaced (queue : new = [message])
      (latest : ∀ known, events.foldl (latestAfter type) known = some message)
  | kept (queue : new = old) (latest : ∀ known, events.foldl (latestAfter type) known = known)
  | evicted (queue : new = []) (latest : ∀ known, events.foldl (latestAfter type) known = none)

theorem enqueue_typeEffect (queue : List OutboundMessage) (message : OutboundMessage)
    (hcoal : isCoalescibleMessage type = true) (hone : (ofType type queue).length ≤ 1) :
    TypeEffect type message (ofType type queue) (ofType type (enqueue queue message).1)
      ((enqueue queue message).2.events message) := by
  have hspec := enqueue_spec queue message
  generalize (enqueue queue message).1 = queue', (enqueue queue message).2 = outcome at hspec
  cases hspec with
  | droppedLog | rejected => exact .kept rfl fun _ => rfl
  | merged before after old split holdtype first =>
    rw [split, ofType_append] at hone ⊢
    rw [ofType_append]
    by_cases htype : message.type = type
    · -- the replaced message was the only one of its type
      rw [ofType_cons_self (holdtype.trans htype)] at hone
      obtain ⟨hbefore, hafter⟩ := eq_nil_of_length_append hone
      refine .replaced ?_ fun _ => if_pos htype
      rw [ofType_cons_self htype, hbefore, hafter]
      rfl
    · refine .kept ?_ fun _ => if_neg htype
      rw [ofType_cons_ne htype, ofType_cons_ne (by rw [holdtype]; exact htype)]
  | evicting before after victim split disposable first fresh =>
    by_cases htype : message.type = type
    · have hnil : ofType type queue = [] := by
        apply ofType_eq_nil
        rw [← htype]
        exact fresh (by rw [htype]; exact hcoal)
      have hrest : ofType type (before ++ after) = [] := by
        apply List.eq_nil_of_sublist_nil
        rw [← hnil, split]
        apply List.Sublist.filter
        exact (List.append_sublist_append_left before).mpr (List.sublist_cons_self ..)
      refine .replaced ?_ fun _ => if_pos htype
      rw [ofType_append, hrest, ofType_cons_self htype]
      rfl
    · rw [ofType_append, ofType_append, ofType_cons_ne htype]
      rw [split, ofType_append] at hone ⊢
      by_cases hvictim : victim.type = type
      · rw [ofType_cons_self hvictim] at hone
        obtain ⟨hbefore, hafter⟩ := eq_nil_of_length_append hone
        refine .evicted ?_ fun _ => (if_neg htype).trans (if_pos hvictim)
        rw [hbefore, hafter]
        rfl
      · refine .kept ?_ fun _ => (if_neg htype).trans (if_neg hvictim)
        rw [ofType_cons_ne hvictim]
        exact List.append_nil _
  | appended room log fresh =>
    by_cases htype : message.type = type
    · have hnil : ofType type queue = [] := by
        apply ofType_eq_nil
        rw [← htype]
        exact fresh (by rw [htype]; exact hcoal)
      refine .replaced ?_ fun _ => if_pos htype
      rw [ofType_append, hnil, ofType_cons_self htype]
      rfl
    · refine .kept ?_ fun _ => if_neg htype
      rw [ofType_append, ofType_cons_ne htype]
      exact List.append_nil _

/-- The queue section keeps one snapshot of each type, the newest one. -/
theorem enqueue_coalesced (h : Coalesced s) (message : OutboundMessage) (type : MessageType)
    (hcoal : isCoalescibleMessage type = true) :
    (ofType type (enqueue s.queue message).1).length ≤ 1 ∧
      ∀ snapshot, ((enqueue s.queue message).2.events message).foldl (latestAfter type)
          (latest type s.log) = some snapshot →
        (ofType type (writtenOf s.log ++ s.pc.inFlight ++ (enqueue s.queue message).1)).getLast? =
          some snapshot := by
  have hone := h.one type hcoal
  rw [ofType_append]
  cases enqueue_typeEffect s.queue message hcoal hone with
  | replaced queue latest =>
    rw [queue]
    refine ⟨Nat.le_refl 1, ?_⟩
    intro snapshot hlatest
    rw [latest] at hlatest
    rw [List.getLast?_concat]
    exact hlatest
  | kept queue latest =>
    rw [queue]
    refine ⟨hone, ?_⟩
    intro snapshot hlatest
    rw [latest] at hlatest
    have hnewest := h.newest type snapshot hcoal hlatest
    simp only [PipeState.line] at hnewest
    rwa [ofType_append] at hnewest
  | evicted queue latest =>
    rw [queue]
    refine ⟨Nat.zero_le _, ?_⟩
    intro snapshot hlatest
    rw [latest] at hlatest
    cases hlatest

/-- Steps keep the snapshots, when failed writes put nothing in front of a newer one. -/
theorem Coalesced.move (h : Coalesced s) (hclean : l.cleanRequeue s = true)
    (hmove : PipeMove s l t) : Coalesced t := by
  cases hmove with
  | quiet l t queue flight log =>
    apply h.of_line
    · simp only [PipeState.line, queue, flight, log]
    · intro type
      rw [log]
    · rw [queue]
      exact h.one
  | pop message rest pc queue =>
    apply h.of_line
    · simp [PipeState.line, pc, queue, PipePc.inFlight]
    · exact fun _ => rfl
    · intro type hcoal
      refine le_trans ?_ (h.one type hcoal)
      apply List.Sublist.length_le
      apply List.Sublist.filter
      rw [queue]
      exact List.sublist_cons_self ..
  | wrote message pc =>
    apply h.of_line
    · simp [PipeState.line, pc, PipePc.inFlight, writtenOf, PipeEvent.writtenMessage]
    · intro type
      rw [latest_append]
      rfl
    · exact h.one
  | requeue message pc =>
    apply h.of_line
    · simp [PipeState.line, pc, PipePc.inFlight]
    · exact fun _ => rfl
    · intro type hcoal
      by_cases htype : message.type = type
      · simp only [PipeLabel.cleanRequeue, pc, htype, hcoal, Bool.not_true, Bool.false_or,
          List.isEmpty_iff] at hclean
        rw [ofType_cons_self htype, hclean]
        exact Nat.le_refl 1
      · rw [ofType_cons_ne htype]
        exact h.one type hcoal
  | enqueue thread message admitted =>
    constructor
    · intro type hcoal
      exact (enqueue_coalesced h message type hcoal).1
    · intro type snapshot hcoal hlatest
      have hwritten : writtenOf (s.log ++ (enqueue s.queue message).2.events message) =
          writtenOf s.log := by
        rw [writtenOf_append, writtenOf_events, List.append_nil]
      simp only [PipeState.line, hwritten]
      exact (enqueue_coalesced h message type hcoal).2 snapshot
        ((latest_append _ _).symm.trans hlatest)

/-- **Coalesced messages.**  In every run in which no failed write puts a coalescible message in
front of a newer one of its type: at most one message of each coalescible type is queued, and when
the queue is drained the last delivered message of the type is the last accepted one, unless that
one was evicted from a full queue. -/
theorem pipe_coalescing
    (hrun : Run (pipeStep required) (fun t l => l.cleanRequeue t = true) {} s)
    (hcoal : isCoalescibleMessage type = true) :
    (ofType type s.queue).length ≤ 1 ∧
      (s.queue = [] → s.pc.inFlight = [] → ∀ message, latest type s.log = some message →
        (ofType type (writtenOf s.log)).getLast? = some message) := by
  have hcoalesced : Coalesced s := by
    apply hrun.invariant .init
    intro t l u ht hclean hstep
    exact ht.move hclean (pipeStep_move hstep)
  refine ⟨hcoalesced.one type hcoal, ?_⟩
  intro hqueue hflight message hlatest
  have hnewest := hcoalesced.newest type message hcoal hlatest
  simpa [PipeState.line, hqueue, hflight] using hnewest

/-- Metrics sent on a thread of their own. -/
def sendMetrics (payload : UInt8) : List PipeLabel :=
  [.send 1 ⟨.metrics, [payload]⟩, .check 1, .enqueue 1]

/-- A write fails, and the next client connects. -/
def reconnects : List PipeLabel :=
  [.wrote false, .requeue, .disconnect, .rest, .close, .reset, .connect, .announce]

def writeOne : List PipeLabel := [.look, .pop, .wrote true]

/-- The metrics that could not be written give way to newer ones after a reconnect. -/
theorem pipe_coalescing_metrics :
    ∃ s, Run (pipeStep false) (fun t l => l.cleanRequeue t = true) {} s ∧ s.queue = [] ∧
      s.pc.inFlight = [] ∧ latest .metrics s.log = some ⟨.metrics, [3]⟩ ∧
      (ofType .metrics (writtenOf s.log)).getLast? = some ⟨.metrics, [3]⟩ := by
  obtain ⟨s, hrun, htest⟩ := Run.exists_of_exec (pipeStep false)
    (P := fun t l => l.cleanRequeue t = true) (fun t l => l.cleanRequeue t)
    (fun s => decide (s.queue = [] ∧ s.pc.inFlight = [] ∧
      latest .metrics s.log = some ⟨.metrics, [3]⟩)) {}
    ([.connect, .announce] ++ sendMetrics 1 ++ sendMetrics 2 ++ [.poll false, .look, .pop] ++
      reconnects ++ sendMetrics 3 ++ [.poll false] ++ writeOne)
    (fun _ _ h => h) (by decide)
  obtain ⟨hqueue, hflight, hlatest⟩ := of_decide_eq_true htest
  exact ⟨s, hrun, hqueue, hflight, hlatest,
    (pipe_coalescing hrun rfl).2 hqueue hflight _ hlatest⟩

/-- Metrics that are put back in front of newer ones: both stay queued, the next metrics replace the
older of them, and the client ends up with the newer one. -/
theorem requeued_snapshot_is_replaced :
    ∃ s, PipeRun false {} s ∧ s.queue = [] ∧ s.pc.inFlight = [] ∧
      latest .metrics s.log = some ⟨.metrics, [3]⟩ ∧
      (ofType .metrics (writtenOf s.log)).getLast? = some ⟨.metrics, [2]⟩ := by
  obtain ⟨s, hrun, htest⟩ := Run.exists_of_exec (pipeStep false) (P := fun _ _ => True)
    (fun _ _ => true)
    (fun s => decide (s.queue = [] ∧ s.pc.inFlight = [] ∧
      latest .metrics s.log = some ⟨.metrics, [3]⟩ ∧
      (ofType .metrics (writtenOf s.log)).getLast? = some ⟨.metrics, [2]⟩)) {}
    ([.connect, .announce] ++ sendMetrics 1 ++ [.poll false, .look, .pop] ++ sendMetrics 2 ++
      reconnects ++ sendMetrics 3 ++ [.poll false] ++ writeOne ++ writeOne)
    (fun _ _ _ => trivial) (by decide)
  exact ⟨s, hrun, of_decide_eq_true htest⟩

/-! ## A crowded queue -/

def emptyPrompt : OutboundMessage := ⟨.pairingRequest, []⟩

/-- A call of `sendMessage` on a thread that makes no other, while a client is connected. -/
theorem run_send {s : PipeState} (message : OutboundMessage) (hsenders : s.senders = ∅)
    (hconnected : s.connected = true) :
    PipeRun false s { s with
      queue := (enqueue s.queue message).1
      log := s.log ++ (enqueue s.queue message).2.events message } := by
  obtain ⟨connected, authenticated, queue, pc, senders, connection, log⟩ := s
  simp only at hsenders hconnected
  subst hsenders hconnected
  exact .tail (l := .enqueue 1) (.tail (l := .check 1)
    (.tail (l := .send 1 message) (.refl _) trivial rfl) trivial rfl) trivial rfl

/-- A prompt is neither merged nor dropped. -/
theorem enqueue_prompt (queue : List OutboundMessage) :
    enqueue queue emptyPrompt =
      if 255 ≤ queue.length then
        match queue.find? (·.disposable) with
        | some victim => (queue.eraseP (·.disposable) ++ [emptyPrompt], .evicting victim)
        | none => (queue, .rejected)
      else (queue ++ [emptyPrompt], .appended) := by
  have hcoal : isCoalescibleMessage emptyPrompt.type = false := rfl
  have hlog : (emptyPrompt.type == MessageType.log) = false := rfl
  unfold enqueue
  rw [hcoal, hlog, Bool.false_and, Bool.false_and, if_neg Bool.false_ne_true,
    if_neg Bool.false_ne_true]
  rfl

/-- Prompts are appended while there is room. -/
theorem run_prompts {s : PipeState} (hsenders : s.senders = ∅) (hconnected : s.connected = true)
    (n : Nat) (hroom : s.queue.length + n ≤ 255) :
    PipeRun false s { s with
      queue := s.queue ++ List.replicate n emptyPrompt
      log := s.log ++ List.replicate n (.accepted emptyPrompt) } := by
  induction n with
  | zero =>
    rw [List.replicate_zero, List.replicate_zero, List.append_nil, List.append_nil]
    exact .refl _
  | succ n ih =>
    refine (ih (by omega)).trans ?_
    have hfull : ¬255 ≤ (s.queue ++ List.replicate n emptyPrompt).length := by
      rw [List.length_append, List.length_replicate]
      omega
    have hrun := run_send (s := { s with
      queue := s.queue ++ List.replicate n emptyPrompt
      log := s.log ++ List.replicate n (.accepted emptyPrompt) }) emptyPrompt hsenders hconnected
    simp only [enqueue_prompt, if_neg hfull, List.append_assoc] at hrun
    rwa [List.replicate_succ', List.replicate_succ']

/-- A client that reads gets the queue. -/
theorem run_drain {s : PipeState} (hconnected : s.connected = true) (hpc : s.pc = .draining) :
    PipeRun false s { s with
      pc := .resting
      queue := []
      log := s.log ++ s.queue.map fun message =>
        .written s.connection s.authenticated message } := by
  obtain ⟨connected, authenticated, queue, pc, senders, connection, log⟩ := s
  simp only at hconnected hpc
  subst hconnected hpc
  induction queue generalizing log with
  | nil =>
    rw [List.map_nil, List.append_nil]
    exact .tail (l := .pop) (.tail (l := .look) (.refl _) trivial rfl) trivial rfl
  | cons message rest ih =>
    have hwritten := ih (log ++ [.written connection authenticated message])
    rw [List.append_assoc] at hwritten
    refine Run.trans ?_ hwritten
    exact .tail (l := .wrote true) (.tail (l := .pop) (.tail (l := .look) (.refl _) trivial rfl)
      trivial rfl) trivial rfl

theorem acceptedOf_prompts (n : Nat) :
    ofType .metrics (acceptedOf (List.replicate n (.accepted emptyPrompt))) = [] := by
  simp [acceptedOf, ofType, PipeEvent.acceptedMessage, emptyPrompt]

theorem acceptedOf_written (messages : List OutboundMessage) (connection : Nat)
    (authenticated : Bool) :
    acceptedOf (messages.map fun message => .written connection authenticated message) = [] := by
  induction messages with
  | nil => rfl
  | cons message rest ih => exact ih

theorem writtenOf_accepted (n : Nat) :
    writtenOf (List.replicate n (.accepted emptyPrompt)) = [] := by
  simp [writtenOf, PipeEvent.writtenMessage]

theorem writtenOf_prompts (n connection : Nat) (authenticated : Bool) :
    ofType .metrics (writtenOf ((List.replicate n emptyPrompt).map
      fun message => .written connection authenticated message)) = [] := by
  simp [writtenOf, ofType, PipeEvent.writtenMessage, emptyPrompt]

/-- Accepted metrics give way to a prompt in a full queue and are never delivered: metrics, then 255
prompts while the client does not read, then the client reads everything. -/
theorem evicted_snapshot_is_lost :
    ∃ s, PipeRun false {} s ∧ s.queue = [] ∧ s.pc.inFlight = [] ∧
      (ofType .metrics (acceptedOf s.log)).getLast? = some ⟨.metrics, [1]⟩ ∧
      (ofType .metrics (writtenOf s.log)).getLast? = none := by
  let metrics : OutboundMessage := ⟨.metrics, [1]⟩
  let opened : PipeState :=
    { pc := .serving, connected := true, authenticated := true, connection := 1 }
  have hopened : PipeRun false {} opened :=
    .tail (l := .announce) (.tail (l := .connect) (.refl _) trivial rfl) trivial rfl
  have hfull := (hopened.trans (run_send metrics rfl rfl)).trans
    (run_prompts rfl rfl 254 (by decide))
  -- the last prompt takes the place of the metrics
  have hevict : enqueue ([metrics] ++ List.replicate 254 emptyPrompt) emptyPrompt =
      (List.replicate 254 emptyPrompt ++ [emptyPrompt], .evicting metrics) := by
    rw [enqueue_prompt, List.length_append, List.length_replicate, if_pos (by decide)]
    rfl
  have hcrowded : PipeRun false {} { opened with
      queue := List.replicate 254 emptyPrompt ++ [emptyPrompt]
      log := [.accepted metrics] ++ List.replicate 254 (.accepted emptyPrompt) ++
        [.evicted metrics, .accepted emptyPrompt] } := by
    have hlast := hfull.trans (run_send emptyPrompt rfl rfl)
    have hqueue : (enqueue opened.queue metrics).1 = [metrics] := rfl
    simp only [hqueue, hevict] at hlast
    exact hlast
  have hread := Run.tail (l := .poll false) hcrowded trivial rfl
  refine ⟨_, hread.trans (run_drain rfl rfl), rfl, rfl, ?_, ?_⟩
  · simp only [acceptedOf_append, ofType_append, acceptedOf_prompts, acceptedOf_written]
    rfl
  · simp only [writtenOf_append, ofType_append, List.map_append, writtenOf_prompts,
      writtenOf_accepted]
    rfl

end LocalMediaTransfer
