import LocalMediaTransfer.Ios.Upload.UploadControl

/-!
# How a cancelled upload is reported

A cancel closes the queue, ends the waits and aborts the requests of a run
(`UploadManager.cancel`).  What the suspended tasks throw then has to be told from a failure.

* `Unfailing` — no authorization error, and nothing else that ends a run, happens in a step.
* `CancelsInTime` — the cancel finds no producer that waits for capacity, and the outcome open.
* `RunControl.Ok` — the invariant: why the queue is closed, where the tasks stand, what was
  reported.
* `cancelled_run_reported` — **a cancelled run is reported as cancelled** when the cancel is in
  time; `cancel_reported_as_fatal` — a run whose cancel meets a producer that waits for
capacity. -/

set_option autoImplicit false

namespace LocalMediaTransfer

open Lib UploadRun

/-! ## The conditions -/

/-- Nothing ends the run but a cancel: no authorization error, and no failure of the calls that the
run does not survive. -/
def Unfailing (cfg : UploadConfig) (s : UploadRun) : RunLabel → Prop
  | .begun succeeds => succeeds = true
  | .thermalRead state => state.isSome = true
  | .pinged succeeds => succeeds = true
  | .prepared window => window.isSome = true
  | .preflightDone peers => ∀ window, s.producer = .checking window →
      (runDuplicatePreflightWindow cfg.nativeAvailable cfg.skipExactDuplicates peers window.files
        s.outgoingHashes).isSome = true
  | .uploaded _ reply => reply ≠ .failed .unauthorized
  | _ => True

/-- The outcome of the run is fixed. -/
def MainPc.isDecided : MainPc → Bool
  | .finish .. | .history _ | .logDone _ => true
  | .cancelSession | .endTransfer | .metrics | .finished => true
  | _ => false

def ProducerPc.awaitsCapacity : ProducerPc → Bool
  | .pushing .. => true
  | _ => false

/-- The producer does not wait for capacity, and the outcome is open; a repeated cancel is
harmless. -/
def CancelsInTime (s : UploadRun) : RunLabel → Prop
  | .cancel => s.isCancelled = true ∨
      (s.producer.awaitsCapacity = false ∧ s.main.isDecided = false)
  | _ => True

/-- The history entries that a run sent. -/
def UploadRun.histories (s : UploadRun) : List TransferCompletionStatus :=
  s.log.filterMap fun
    | .history status => some status
    | _ => none

/-- The run is reported as cancelled. -/
def ReportedAsCancelled (s : UploadRun) : Prop :=
  (∀ failure, .error failure ∉ s.log) ∧ (∀ summary, .complete summary ∉ s.log) ∧
    (s.main = .finished → s.diagnostics = some .cancelled ∧ s.histories = [.cancelled])

instance (cfg : UploadConfig) (s : UploadRun) (l : RunLabel) : Decidable (Unfailing cfg s l) :=
  match l with
  | .begun succeeds => inferInstanceAs (Decidable (succeeds = true))
  | .thermalRead state => inferInstanceAs (Decidable (state.isSome = true))
  | .pinged succeeds => inferInstanceAs (Decidable (succeeds = true))
  | .prepared window => inferInstanceAs (Decidable (window.isSome = true))
  | .preflightDone peers =>
    match h : s.producer with
    | .checking window =>
      decidable_of_iff ((runDuplicatePreflightWindow cfg.nativeAvailable
        cfg.skipExactDuplicates peers
          window.files s.outgoingHashes).isSome = true)
        ⟨fun hsome _ heq => by cases h.symm.trans heq; exact hsome, fun hall => hall window h⟩
    | .idle | .waiting _ | .preparing | .releasing _ | .pushing _ _ | .pushed _ | .returned _
    | .settled _ => isTrue fun _ heq => nomatch h.symm.trans heq
  | .uploaded _ reply => inferInstanceAs (Decidable (reply ≠ .failed .unauthorized))
  | .cancel | .thermalChanged _ | .main | .settle | .producer | .enqueuer | .worker _
  | .acknowledged _ _ => isTrue trivial

instance (s : UploadRun) (l : RunLabel) : Decidable (CancelsInTime s l) :=
  match l with
  | .cancel => inferInstanceAs (Decidable (s.isCancelled = true ∨
      (s.producer.awaitsCapacity = false ∧ s.main.isDecided = false)))
  | .begun _ | .thermalRead _ | .pinged _ | .prepared _ | .preflightDone _ | .uploaded _ _
  | .thermalChanged _ | .main | .settle | .producer | .enqueuer | .worker _
  | .acknowledged _ _ => isTrue trivial

/-! ## The invariant -/

/-- The tasks of the pipeline may run. -/
def MainPc.isProducing : MainPc → Bool
  | .produce | .pipeline => true
  | _ => false

/-- The queue is closed by the finally block. -/
def MainPc.isEnding : MainPc → Bool
  | .endTransfer | .metrics | .finished => true
  | _ => false

namespace RunControl

variable (cfg : UploadConfig) (c : RunControl)

/-- The windows up to the current one are prepared. -/
def WindowPrepared : Prop :=
  c.preparedFiles = min (c.startIndex + cfg.policy.windowSize) cfg.assets.length

def ProducerOk : ProducerPc → Prop
  | .idle => True
  | .waiting prepares => c.main.isProducing = true ∧ (prepares = false → c.isCancelled = true) ∧
      c.startIndex < cfg.assets.length ∧ c.preparedFiles = c.startIndex
  | .preparing => c.main.isProducing = true ∧ c.startIndex < cfg.assets.length ∧
      c.preparedFiles = c.startIndex
  | .checking _ | .releasing _ | .pushed _ => c.main.isProducing = true ∧ c.WindowPrepared cfg
  | .pushing _ _ => c.main.isProducing = true ∧ c.WindowPrepared cfg ∧ c.isCancelled = false
  | .returned completed | .settled completed => completed = false → c.isCancelled = true

def EnqueuerOk : EnqueuerPc → Prop
  | .idle => True
  | .pushing _ _ | .pushed _ =>
    cfg.policy.effectiveMode ≠ .streaming ∧ c.producer = .returned true ∧
      c.main = .pipeline
  | .done rejected => cfg.policy.effectiveMode ≠ .streaming ∧ c.producer = .returned true ∧
      (rejected = true → c.isCancelled = true)

/-- The diagnostics have a status, which is that of a cancelled run if and only if the run is. -/
def Recorded (status : TransferCompletionStatus) : Prop :=
  c.diagnostics = some status ∧ (c.isCancelled = true ↔ status = .cancelled)

def MainOk : MainPc → Prop
  | .beginTransfer | .thermalState | .startDiagnostics | .ping | .logStarted =>
    c.producer = .idle ∧ c.enqueuer = .idle ∧ c.startIndex = 0 ∧ c.preparedFiles =
      0 ∧ c.reports = []
  | .produce => cfg.policy.effectiveMode ≠ .streaming ∧ c.enqueuer = .idle ∧ c.reports = []
  | .pipeline | .logPrepared => c.reports = []
  | .finish status _ _ => c.reports = [] ∧ c.Recorded status
  | .history summary | .logDone summary =>
    c.reports = [.history summary.completionStatus] ∧ c.Recorded summary.completionStatus
  | .failFinish failure => c.isCancelled = true ∧ failure.fatal = false ∧
      c.diagnostics = some .cancelled ∧ c.reports = []
  | .failHistory failure | .failLog failure => c.isCancelled = true ∧ failure.fatal = false ∧
      c.diagnostics = some .cancelled ∧ c.reports = [.history .cancelled]
  | .cancelSession | .endTransfer | .metrics | .finished =>
    (∀ failure, .error failure ∉ c.reports) ∧
      (c.isCancelled = true → c.diagnostics = some .cancelled ∧ c.reports = [.history .cancelled])

/-- What holds in every undisturbed run whose cancels are in time. -/
structure Ok : Prop where
  fatalError : c.fatalError = none
  thermal : c.thermalCancelled = true → c.isCancelled = true ∨ c.main.isEnding = true
  closed : c.closed = true → c.isCancelled = true ∨ (∃ completed, c.producer = .settled completed) ∨
    (∃ rejected, c.enqueuer = .done rejected) ∨ c.main.isEnding = true
  producer : c.ProducerOk cfg c.producer
  enqueuer : c.EnqueuerOk cfg c.enqueuer
  main : c.MainOk cfg c.main

variable {cfg c}

/-! ## Tasks -/

/-- What an active producer relies on. -/
structure Producing (cfg : UploadConfig) (c : RunControl) : Prop where
  fatalError : c.fatalError = none
  thermal : c.thermalCancelled = true → c.isCancelled = true
  closed : c.closed = true → c.isCancelled = true
  producing : c.main.isProducing = true
  enqueuer : c.enqueuer = .idle
  main : c.MainOk cfg c.main

theorem not_isEnding (h : c.main.isProducing = true) : c.main.isEnding = false := by
  cases hm : c.main <;> simp [hm, MainPc.isProducing, MainPc.isEnding] at h ⊢

theorem Ok.producing (h : Ok cfg c) (hm : c.main.isProducing = true)
    (hreturned : ∀ completed, c.producer ≠ .returned completed)
    (hsettled : ∀ completed, c.producer ≠ .settled completed) : Producing cfg c := by
  have hend := not_isEnding hm
  have henqueuer : c.enqueuer = .idle := by
    have henq := h.enqueuer
    cases he : c.enqueuer with
    | idle => rfl
    | pushing _ _ | pushed _ | done _ =>
      rw [he] at henq
      exact absurd henq.2.1 (hreturned true)
  refine ⟨h.fatalError, fun ht => ?_, fun hc => ?_, hm, henqueuer, h.main⟩
  · refine (h.thermal ht).resolve_right ?_
    rw [hend]
    exact Bool.false_ne_true
  · rcases h.closed hc with hc | ⟨completed, hp⟩ | ⟨rejected, he⟩ | he
    · exact hc
    · exact absurd hp (hsettled completed)
    · rw [henqueuer] at he
      cases he
    · rw [hend] at he
      cases he

theorem Producing.ok (h : Producing cfg c) {p : ProducerPc} {startIndex preparedFiles : Nat}
    (hp : ProducerOk cfg { c with startIndex, preparedFiles } p) :
    Ok cfg { c with producer := p, startIndex, preparedFiles } where
  fatalError := h.fatalError
  thermal ht := .inl (h.thermal ht)
  closed hc := .inl (h.closed hc)
  producer := by
    cases p <;> exact hp
  enqueuer := by
    simp only [h.enqueuer]
    trivial
  main := by
    have hmain := h.main
    have hm := h.producing
    cases hc : c.main <;> simp only [hc, MainPc.isProducing, Bool.false_eq_true] at hm hmain ⊢ <;>
      exact hmain

/-- The await of the producer at the head of its loop. -/
def loopPc (cfg : UploadConfig) (c : RunControl) : ProducerPc :=
  if c.startIndex < cfg.assets.length then
    if c.isCancelled then .returned false else .waiting !c.thermalCancelled
  else .returned (decide (c.preparedFiles = cfg.assets.length) && !c.isCancelled)

theorem Producing.loop (h : Producing cfg c) {startIndex : Nat}
    (hfiles : c.preparedFiles = min startIndex cfg.assets.length) :
    Ok cfg { c with startIndex, producer := loopPc cfg { c with startIndex } } := by
  have hpc : ProducerOk cfg { c with startIndex } (loopPc cfg { c with startIndex }) := by
    unfold loopPc
    by_cases hlt : startIndex < cfg.assets.length
    · by_cases hc : c.isCancelled = true
      · simp [ProducerOk, hlt, hc]
      · have hprepared : c.preparedFiles = startIndex := by omega
        simp only [ProducerOk, hlt, hc, if_true, if_false, Bool.false_eq_true]
        exact ⟨h.producing, fun hp => absurd (h.thermal (by simpa using hp)) hc, trivial, hprepared⟩
    · have hall : c.preparedFiles = cfg.assets.length := by omega
      simp [ProducerOk, hlt, hall]
  exact @Producing.ok cfg c h _ startIndex c.preparedFiles hpc

/-- What the enqueuer relies on. -/
structure Feeding (cfg : UploadConfig) (c : RunControl) : Prop where
  fatalError : c.fatalError = none
  thermal : c.thermalCancelled = true → c.isCancelled = true
  closed : c.closed = true → c.isCancelled = true
  mode : cfg.policy.effectiveMode ≠ .streaming
  producer : c.producer = .returned true
  main : c.main = .pipeline
  reports : c.reports = []

theorem Ok.feeding (h : Ok cfg c) (hmode : cfg.policy.effectiveMode ≠ .streaming)
    (hp : c.producer = .returned true) (hm : c.main = .pipeline)
    (hdone : ∀ rejected, c.enqueuer ≠ .done rejected) : Feeding cfg c := by
  have hend : c.main.isEnding = false := by rw [hm]; rfl
  refine ⟨h.fatalError, fun ht => ?_, fun hc => ?_, hmode, hp, hm, ?_⟩
  · refine (h.thermal ht).resolve_right ?_
    rw [hend]
    exact Bool.false_ne_true
  · rcases h.closed hc with hc | ⟨completed, hs⟩ | ⟨rejected, he⟩ | he
    · exact hc
    · rw [hp] at hs
      cases hs
    · exact absurd he (hdone rejected)
    · rw [hend] at he
      cases he
  · have hmain := h.main
    rw [hm] at hmain
    exact hmain

theorem Feeding.ok (h : Feeding cfg c) {e : EnqueuerPc} {closed : Bool}
    (hclosed : closed = true → c.isCancelled = true ∨ ∃ rejected, e = .done rejected)
    (he : EnqueuerOk cfg c e) : Ok cfg { c with enqueuer := e, closed } where
  fatalError := h.fatalError
  thermal ht := .inl (h.thermal ht)
  closed hc := (hclosed hc).imp_right fun hdone => .inr (.inl hdone)
  producer := by
    simp only [h.producer]
    exact fun h => by cases h
  enqueuer := by
    cases e <;> exact he
  main := by
    simp only [h.main]
    exact h.reports

/-! ## The function itself -/

/-- No producer and no enqueuer is at work. -/
def Quiet (c : RunControl) : Prop :=
  (c.producer = .idle ∨ (∃ completed, c.producer = .returned completed) ∨
      ∃ completed, c.producer = .settled completed) ∧
    (c.enqueuer = .idle ∨ ∃ rejected, c.enqueuer = .done rejected)

theorem Ok.quiet (h : Ok cfg c) (hproducing : c.main.isProducing = false) : c.Quiet := by
  constructor
  · have hp := h.producer
    cases hc : c.producer with
    | idle => exact .inl rfl
    | returned completed => exact .inr (.inl ⟨completed, rfl⟩)
    | settled completed => exact .inr (.inr ⟨completed, rfl⟩)
    | waiting _ | preparing | checking _ | releasing _ | pushing _ _ | pushed _ =>
      rw [hc] at hp
      have hm := hp.1
      rw [hproducing] at hm
      cases hm
  · have he := h.enqueuer
    cases hc : c.enqueuer with
    | idle => exact .inl rfl
    | done rejected => exact .inr ⟨rejected, rfl⟩
    | pushing _ _ | pushed _ =>
      rw [hc] at he
      rw [he.2.2] at hproducing
      cases hproducing

/-- The function moves on while the producer and the enqueuer are quiet. -/
theorem Ok.setMain (h : Ok cfg c) {main : MainPc} {diagnostics : Option TransferCompletionStatus}
    {reports : List RunEvent} (hquiet : c.Quiet)
    (hending : c.main.isEnding = true → main.isEnding = true)
    (hmain : MainOk cfg { c with main, diagnostics, reports } main) :
    Ok cfg { c with main, diagnostics, reports } where
  fatalError := h.fatalError
  thermal ht := (h.thermal ht).imp_right hending
  closed hc := (h.closed hc).imp_right fun hc => hc.imp_right fun hc => hc.imp_right hending
  producer := by
    have hp := h.producer
    rcases hquiet.1 with hc | ⟨completed, hc⟩ | ⟨completed,
      hc⟩ <;> simp only [hc] at hp ⊢ <;> exact hp
  enqueuer := by
    have he := h.enqueuer
    rcases hquiet.2 with hc | ⟨rejected, hc⟩ <;> simp only [hc] at he ⊢ <;> exact he
  main := hmain

/-- The finally block closes the queue. -/
theorem Ok.cleanUp (h : Ok cfg c) {reports : List RunEvent} (hquiet : c.Quiet)
    (hmain : MainOk cfg { c with reports } .endTransfer) :
    Ok cfg { c with thermalCancelled := true, closed := true, main := .endTransfer, reports } where
  fatalError := h.fatalError
  thermal _ := .inr rfl
  closed _ := .inr (.inr (.inr rfl))
  producer := by
    have hp := h.producer
    rcases hquiet.1 with hc | ⟨completed, hc⟩ | ⟨completed,
      hc⟩ <;> simp only [hc] at hp ⊢ <;> exact hp
  enqueuer := by
    have he := h.enqueuer
    rcases hquiet.2 with hc | ⟨rejected, hc⟩ <;> simp only [hc] at he ⊢ <;> exact he
  main := hmain

/-- A cancel in time. -/
theorem Ok.cancel (h : Ok cfg c)
    (hc : c.isCancelled = true ∨ (c.producer.awaitsCapacity = false ∧ c.main.isDecided = false)) :
    Ok cfg { c with isCancelled := true, closed := true, thermalCancelled := true } where
  fatalError := h.fatalError
  thermal _ := .inl rfl
  closed _ := .inl rfl
  producer := by
    have hp := h.producer
    cases hpc : c.producer with
    | idle => trivial
    | waiting _ =>
      rw [hpc] at hp
      exact ⟨hp.1, fun _ => rfl, hp.2.2⟩
    | preparing | checking _ | releasing _ | pushed _ =>
      rw [hpc] at hp
      exact hp
    | pushing _ _ =>
      rw [hpc] at hp hc
      rcases hc with hc | ⟨hc, -⟩
      · rw [hp.2.2] at hc
        cases hc
      · cases hc
    | returned _ | settled _ => exact fun _ => rfl
  enqueuer := by
    have he := h.enqueuer
    cases hpc : c.enqueuer with
    | idle => trivial
    | pushing _ _ | pushed _ =>
      rw [hpc] at he
      exact he
    | done _ =>
      rw [hpc] at he
      exact ⟨he.1, he.2.1, fun _ => rfl⟩
  main := by
    have hmain := h.main
    rcases hc with hc | ⟨-, hopen⟩
    · cases hm : c.main <;> simp only [hm, MainOk, Recorded, hc] at hmain ⊢ <;> exact hmain
    · cases hm : c.main <;> simp only [hm, MainPc.isDecided,
        Bool.true_eq_false] at hopen hmain ⊢ <;>
        first | exact hmain | exact ⟨rfl, hmain.2⟩

end RunControl

open RunControl

/-! ## Steps of the tasks -/

section Steps

variable {cfg : UploadConfig} {s s' : UploadRun}

theorem producerLoop_control : (s.producerLoop cfg).control =
    { s.control with producer := loopPc cfg s.control } := by
  unfold producerLoop loopPc
  split
  · rename_i hlt
    rw [if_pos (show s.control.startIndex < _ from hlt)]
    split
    · rename_i hc
      rw [if_pos (show s.control.isCancelled = true from hc)]
      rfl
    · rename_i hc
      rw [if_neg (show ¬s.control.isCancelled = true from hc)]
      rfl
  · rename_i hge
    rw [if_neg (show ¬s.control.startIndex < _ from hge)]
    rfl

theorem nextWindow_ok (h : Producing cfg s.control) (hw : s.control.WindowPrepared cfg) :
    Ok cfg (s.nextWindow cfg).control := by
  unfold nextWindow
  rw [producerLoop_control]
  exact h.loop hw

theorem producerPush_ok (h : Producing cfg s.control) (hw : s.control.WindowPrepared cfg)
    (hc : s.isCancelled = false) (file : PreparedUploadFile) (rest : List PreparedUploadFile) :
    Ok cfg (s.producerPush file rest).control := by
  unfold producerPush
  split
  · rename_i hpush
    have hcancelled := h.closed (push_eq_none hpush)
    rw [show s.control.isCancelled = s.isCancelled from rfl, hc] at hcancelled
    cases hcancelled
  · rename_i t hpush
    obtain ⟨hcontrol, -⟩ := push_control hpush
    rw [← hcontrol] at h hw
    refine @Producing.ok cfg t.control h (.pushing file rest) _ _ ⟨h.producing, hw, ?_⟩
    exact (congrArg RunControl.isCancelled hcontrol).trans hc
  · rename_i t hpush
    obtain ⟨hcontrol, -⟩ := push_control hpush
    rw [← hcontrol] at h hw
    exact @Producing.ok cfg t.control h (.pushed rest) _ _ ⟨h.producing, hw⟩

theorem pushFiles_ok (h : Producing cfg s.control) (hw : s.control.WindowPrepared cfg)
    (files : List PreparedUploadFile) : Ok cfg (s.pushFiles cfg files).control := by
  unfold pushFiles
  split
  · exact nextWindow_ok h hw
  · split
    · exact nextWindow_ok h hw
    · rename_i hc
      exact producerPush_ok h hw (by simpa using hc) _ _

/-- An active producer, and what it relies on. -/
theorem producing_of (h : Ok cfg s.control) {p : ProducerPc} (hp : s.producer = p)
    (hproducing : s.main.isProducing = true) (hreturned : ∀ completed, p ≠ .returned completed)
    (hsettled : ∀ completed, p ≠ .settled completed) : Producing cfg s.control :=
  h.producing hproducing (fun completed heq => hreturned completed (hp.symm.trans heq))
    fun completed heq => hsettled completed (hp.symm.trans heq)

theorem producerStep_ok (h : Ok cfg s.control) (hs : s.producerStep cfg = some s') :
    Ok cfg s'.control := by
  have hp := h.producer
  unfold producerStep at hs
  split at hs
  · rename_i prepares hpc
    rw [show s.control.producer = _ from hpc] at hp
    obtain ⟨hm, hprepares, hlt, hfiles⟩ := hp
    have hproducing := producing_of h hpc hm (fun _ h => nomatch h) (fun _ h => nomatch h)
    cases hs
    cases prepares with
    | true => exact @Producing.ok cfg s.control hproducing .preparing _ _ ⟨hm, hlt, hfiles⟩
    | false =>
      exact @Producing.ok cfg s.control hproducing (.returned false) _ _ fun _ => hprepares rfl
  · rename_i files hpc
    rw [show s.control.producer = _ from hpc] at hp
    have hproducing := producing_of h hpc hp.1 (fun _ h => nomatch h) (fun _ h => nomatch h)
    cases hs
    unfold enqueueWindow
    have hcounted : Producing cfg ({ s with
        plannedUploadMediaBytes := s.plannedUploadMediaBytes +
          ((files.filter isPlanned).map (·.size)).sum } : UploadRun).control := hproducing
    split
    · exact pushFiles_ok hcounted hp.2 _
    · exact @nextWindow_ok cfg { s with
        plannedUploadMediaBytes := s.plannedUploadMediaBytes +
          ((files.filter isPlanned).map (·.size)).sum
        preparedWindows := s.preparedWindows ++ [files] } hcounted hp.2
  · rename_i file rest hpc
    rw [show s.control.producer = _ from hpc] at hp
    have hproducing := producing_of h hpc hp.1 (fun _ h => nomatch h) (fun _ h => nomatch h)
    split at hs
    · cases hs
    · cases hs
      exact producerPush_ok hproducing hp.2.1 hp.2.2 _ _
  · rename_i rest hpc
    rw [show s.control.producer = _ from hpc] at hp
    have hproducing := producing_of h hpc hp.1 (fun _ h => nomatch h) (fun _ h => nomatch h)
    cases hs
    exact pushFiles_ok hproducing hp.2 _
  · rename_i completed hpc
    rw [show s.control.producer = _ from hpc] at hp
    split at hs
    · rename_i hmode
      cases hs
      have hcontrol : ({ (if completed = true then s.finishPreparation else s).closeQueue with
          producer := .settled completed } : UploadRun).control =
            { s.control with closed := true, producer := .settled completed } := by
        split
        · exact congrArg (fun c : RunControl => { c with producer := .settled completed })
            (control_closeQueue (s := s.finishPreparation))
        · exact congrArg (fun c : RunControl => { c with producer := .settled completed })
            control_closeQueue
      rw [hcontrol]
      refine ⟨h.fatalError, h.thermal, fun _ => .inr (.inl ⟨completed, rfl⟩), hp, ?_, ?_⟩
      · have henq := h.enqueuer
        cases he : s.control.enqueuer with
        | idle =>
          simp only [he]
          trivial
        | pushing _ _ | pushed _ | done _ =>
          rw [he] at henq
          exact absurd hmode.1 henq.1
      · have hmain := h.main
        simp only [show s.control.main = .pipeline from hmode.2] at hmain ⊢
        exact hmain
    · cases hs
  · cases hs

theorem prepared_ok (h : Ok cfg s.control) {window : Option PreparedWindow}
    (hwindow : window.isSome = true)
    (hs : s.prepared cfg window = some s') : Ok cfg s'.control := by
  have hp := h.producer
  unfold prepared at hs
  split at hs
  · rename_i hpc
    rw [show s.control.producer = _ from hpc] at hp
    obtain ⟨hm, hlt, hfiles⟩ := hp
    have hproducing := producing_of h hpc hm (fun _ h => nomatch h) (fun _ h => nomatch h)
    split at hs
    · cases hwindow
    · cases hs
      split
      · rename_i hc
        exact @Producing.ok cfg s.control hproducing (.returned false) _ _ fun _ => hc
      · rw [recordWindow_control]
        refine @Producing.ok cfg s.control hproducing (.checking _) _ _ ⟨hm, ?_⟩
        have hlength : (s.windowAssets cfg).length =
            min cfg.policy.windowSize (cfg.assets.length - s.startIndex) := by
          simp [windowAssets]
        have hfiles' : s.preparedFiles = s.startIndex := hfiles
        have hlt' : s.startIndex < cfg.assets.length := hlt
        show s.preparedFiles + (s.windowAssets cfg).length =
          min (s.startIndex + cfg.policy.windowSize) cfg.assets.length
        rw [hlength, hfiles']
        omega
  · cases hs

theorem preflightDone_ok (h : Ok cfg s.control) {peers : PreflightPeers}
    (hpeers : Unfailing cfg s (.preflightDone peers)) (hs : s.preflightDone cfg peers = some s') :
    Ok cfg s'.control := by
  have hp := h.producer
  unfold preflightDone at hs
  split at hs
  · rename_i window hpc
    have hsome := hpeers window hpc
    rw [show s.control.producer = _ from hpc] at hp
    have hproducing := producing_of h hpc hp.1 (fun _ h => nomatch h) (fun _ h => nomatch h)
    split at hs
    · rename_i hnone
      rw [hnone] at hsome
      cases hsome
    · cases hs
      exact @Producing.ok cfg s.control hproducing (.releasing _) _ _ hp
  · cases hs

/-! ## Steps of the enqueuer -/

theorem enqueuerReturn_ok (h : Feeding cfg s.control) {rejected : Bool}
    (hc : rejected = true → s.isCancelled = true) : Ok cfg (s.enqueuerReturn rejected).control := by
  have hcontrol : (s.enqueuerReturn rejected).control =
      { s.control with enqueuer := .done rejected, closed := true } :=
    congrArg (fun c : RunControl => { c with enqueuer := .done rejected }) control_closeQueue
  rw [hcontrol]
  exact h.ok (fun _ => .inr ⟨rejected, rfl⟩) ⟨h.mode, h.producer, hc⟩

theorem enqueuerPush_ok (h : Feeding cfg s.control) (file : PreparedUploadFile)
    (rest : List PreparedUploadFile) : Ok cfg (s.enqueuerPush file rest).control := by
  unfold enqueuerPush
  split
  · rename_i hpush
    exact enqueuerReturn_ok h fun _ => h.closed (push_eq_none hpush)
  · rename_i t hpush
    rw [← (push_control hpush).1] at h
    exact @Feeding.ok cfg t.control h (.pushing file rest) _ (fun hc => .inl (h.closed hc))
      ⟨h.mode, h.producer, h.main⟩
  · rename_i t hpush
    rw [← (push_control hpush).1] at h
    exact @Feeding.ok cfg t.control h (.pushed rest) _ (fun hc => .inl (h.closed hc))
      ⟨h.mode, h.producer, h.main⟩

theorem enqueueFiles_ok (h : Feeding cfg s.control) (files : List PreparedUploadFile) :
    Ok cfg (s.enqueueFiles files).control := by
  unfold enqueueFiles
  split
  · exact enqueuerReturn_ok h fun h => nomatch h
  · split
    · exact enqueuerReturn_ok h fun h => nomatch h
    · exact enqueuerPush_ok h ..

theorem enqueuerStep_ok (h : Ok cfg s.control) (hs : s.enqueuerStep = some s') :
    Ok cfg s'.control := by
  have he := h.enqueuer
  unfold enqueuerStep at hs
  split at hs
  · rename_i file rest hpc
    rw [show s.control.enqueuer = _ from hpc] at he
    have hfeeding := h.feeding he.1 he.2.1 he.2.2 fun rejected heq => by
      rw [show s.control.enqueuer = _ from hpc] at heq
      cases heq
    split at hs
    · cases hs
    · cases hs
      exact enqueuerPush_ok hfeeding ..
  · rename_i rest hpc
    rw [show s.control.enqueuer = _ from hpc] at he
    have hfeeding := h.feeding he.1 he.2.1 he.2.2 fun rejected heq => by
      rw [show s.control.enqueuer = _ from hpc] at heq
      cases heq
    cases hs
    exact enqueueFiles_ok hfeeding _
  · cases hs

/-! ## Steps of the function itself -/

theorem setMain_ok (h : Ok cfg s.control) {main : MainPc} (hquiet : s.control.Quiet)
    (hending : s.main.isEnding = true → main.isEnding = true) (hmain : MainOk cfg s.control main) :
    Ok cfg ({ s with main } : UploadRun).control := by
  refine @Ok.setMain cfg s.control h main s.diagnostics s.control.reports hquiet hending ?_
  cases main <;> exact hmain

/-- A cancelled run fails for the cancel. -/
theorem fail_ok (h : Ok cfg s.control) (hquiet : s.control.Quiet) (hc : s.isCancelled = true)
    (hreports : s.control.reports = []) (hending : s.main.isEnding = false) {error : RunError}
    (herror : isUnauthorizedError error = false)
    (hfatal : (transferFailure error .upload .unexpected).fatal = false) :
    Ok cfg (s.fail error).control := by
  have hcontrol : (s.fail error).control = { s.control with
      main := .failFinish (transferFailure error .upload .unexpected)
      diagnostics := some .cancelled
      reports := s.control.reports } := by
    simp [fail, UploadRun.control, herror, hc, hfatal]
  rw [hcontrol]
  refine h.setMain hquiet (fun hend => ?_) ⟨hc, hfatal, rfl, hreports⟩
  rw [show s.control.main.isEnding = false from hending] at hend
  cases hend

theorem pipelineDone_ok (h : Ok cfg s.control) (hquiet : s.control.Quiet)
    (hreports : s.control.reports = []) (hending : s.main.isEnding = false) {preparedAll : Bool}
    (hprepared : preparedAll = false → s.isCancelled = true) :
    Ok cfg (s.pipelineDone preparedAll).control := by
  unfold pipelineDone
  split
  · rename_i error hfatal
    rw [show s.fatalError = none from h.fatalError] at hfatal
    cases hfatal
  · split
    · refine setMain_ok h hquiet (fun hend => ?_) hreports
      rw [hending] at hend
      cases hend
    · rename_i hfalse
      rw [Bool.not_eq_true] at hfalse
      rw [if_pos (hprepared hfalse)]
      exact fail_ok h hquiet (hprepared hfalse) hreports hending rfl rfl

theorem settle_ok (h : Ok cfg s.control) (hs : s.settle cfg = some s') : Ok cfg s'.control := by
  have hmain := h.main
  have hp := h.producer
  unfold settle at hs
  split at hs
  · rename_i hm
    rw [show s.control.main = _ from hm] at hmain
    obtain ⟨hmode, henqueuer, hreports⟩ := hmain
    have hending : s.main.isEnding = false := by rw [hm]; rfl
    split at hs
    · rename_i hpc
      cases hs
      unfold startFeeding
      rw [startWorkers_control]
      refine @enqueueFiles_ok cfg
        { s.finishPreparation with main := .pipeline, preparedWindows := [] }
        ⟨h.fatalError, fun ht => ?_, fun hc => ?_, hmode, hpc, rfl, hreports⟩ _
      · refine (h.thermal ht).resolve_right fun hend => ?_
        rw [show s.control.main.isEnding = false from hending] at hend
        cases hend
      · rcases h.closed hc with hc | ⟨completed, hsettled⟩ | ⟨rejected, hdone⟩ | hend
        · exact hc
        · cases hpc.symm.trans hsettled
        · cases henqueuer.symm.trans hdone
        · rw [show s.control.main.isEnding = false from hending] at hend
          cases hend
    · rename_i hpc
      cases hs
      rw [show s.control.producer = _ from hpc] at hp
      exact pipelineDone_ok h ⟨.inr (.inl ⟨false, hpc⟩), .inl henqueuer⟩ hreports hending hp
    · cases hs
  · rename_i hm
    rw [show s.control.main = _ from hm] at hmain
    have hending : s.main.isEnding = false := by rw [hm]; rfl
    have henq := h.enqueuer
    split at hs
    · rename_i hmode
      split at hs
      · rename_i completed hpc
        split at hs
        · cases hs
          rw [show s.control.producer = _ from hpc] at hp
          refine pipelineDone_ok h ⟨.inr (.inr ⟨completed, hpc⟩), ?_⟩ hmain hending hp
          cases he : s.control.enqueuer with
          | idle => exact .inl rfl
          | pushing _ _ | pushed _ | done _ =>
            rw [he] at henq
            exact absurd hmode henq.1
        · cases hs
      · cases hs
    · split at hs
      · rename_i hdone
        cases hs
        rw [show s.control.enqueuer = _ from hdone] at henq
        exact fail_ok h ⟨.inr (.inl ⟨true, henq.2.1⟩), .inr ⟨true, hdone⟩⟩
          (henq.2.2 rfl) hmain hending
          rfl rfl
      · rename_i hdone
        split at hs
        · cases hs
          rw [show s.control.enqueuer = _ from hdone] at henq
          exact pipelineDone_ok h ⟨.inr (.inl ⟨true, henq.2.1⟩), .inr ⟨false, hdone⟩⟩ hmain hending
            fun h => nomatch h
        · cases hs
      · cases hs
  · cases hs

theorem quiet_at (h : Ok cfg s.control) {main : MainPc} (hm : s.main = main)
    (hproducing : main.isProducing = false) : s.control.Quiet :=
  h.quiet (show s.main.isProducing = false from hm ▸ hproducing)

theorem ending_at {main main' : MainPc} (hm : s.main = main) (hending : main.isEnding = false) :
    s.main.isEnding = true → main'.isEnding = true := by
  intro hend
  rw [hm, hending] at hend
  cases hend

theorem cleanUp_control : s.cleanUp.control =
    { s.control with thermalCancelled := true, closed := true, main := .endTransfer } :=
  congrArg (fun c : RunControl => { c with main := .endTransfer })
    (control_closeQueue (s := { s with thermal := s.thermal.cancel }))

theorem cleanUp_ok (h : Ok cfg s.control) (hquiet : s.control.Quiet)
    (hmain : MainOk cfg s.control .endTransfer) : Ok cfg s.cleanUp.control := by
  rw [cleanUp_control]
  exact @Ok.cleanUp cfg s.control h s.control.reports hquiet hmain

/-- The finally block of a cancelled run. -/
theorem finallyBlock_ok (h : Ok cfg s.control) (hquiet : s.control.Quiet)
    (hc : s.isCancelled = true)
    (hmain : MainOk cfg s.control .cancelSession) (hending : s.main.isEnding = false) :
    Ok cfg s.finallyBlock.control := by
  unfold finallyBlock
  rw [if_pos hc]
  have hcontrol : ({ s.report .cancelRequest with main := .cancelSession } : UploadRun).control =
      ({ s with main := .cancelSession } : UploadRun).control :=
    congrArg (fun c : RunControl => { c with main := .cancelSession }) (control_report rfl)
  rw [hcontrol]
  exact setMain_ok h hquiet (ending_at rfl hending) hmain

theorem startPipeline_ok (h : Ok cfg s.control) (hm : s.main = .logStarted) :
    Ok cfg (s.startPipeline cfg).control := by
  have hmain := h.main
  rw [show s.control.main = _ from hm] at hmain
  obtain ⟨hproducer, henqueuer, hstart, hprepared, hreports⟩ := hmain
  have hthermal : s.control.thermalCancelled = true → s.control.isCancelled = true := by
    intro ht
    refine (h.thermal ht).resolve_right fun hend => ?_
    rw [show s.control.main = _ from hm] at hend
    cases hend
  have hclosed : s.control.closed = true → s.control.isCancelled = true := by
    intro hc
    rcases h.closed hc with hc | ⟨completed, hp⟩ | ⟨rejected, he⟩ | hend
    · exact hc
    · cases hproducer.symm.trans hp
    · cases henqueuer.symm.trans he
    · rw [show s.control.main = _ from hm] at hend
      cases hend
  have hfiles : s.control.preparedFiles = min s.control.startIndex cfg.assets.length := by
    rw [hprepared, hstart, Nat.zero_min]
  unfold startPipeline
  split
  · rw [startWorkers_control, producerLoop_control]
    exact Producing.loop (c := ({ s with main := .pipeline } : UploadRun).control)
      ⟨h.fatalError, hthermal, hclosed, rfl, henqueuer, hreports⟩ hfiles
  · rename_i hmode
    rw [producerLoop_control]
    exact Producing.loop (c := ({ s with main := .produce } : UploadRun).control)
      ⟨h.fatalError, hthermal, hclosed, rfl, henqueuer, hmode, henqueuer, hreports⟩ hfiles

theorem conclude_ok (h : Ok cfg s.control) (hm : s.main = .logPrepared) :
    Ok cfg (s.conclude cfg).control := by
  have hmain := h.main
  rw [show s.control.main = _ from hm] at hmain
  have hmissing : ((if s.isCancelled then s else s.markMissing cfg) : UploadRun).control =
    s.control := by
    split
    · rfl
    · exact markMissing_control
  unfold conclude
  generalize (if s.isCancelled then s else s.markMissing cfg) = t at hmissing ⊢
  rw [← hmissing] at h hmain
  have hmt : t.control.main = .logPrepared := (congrArg RunControl.main hmissing).trans hm
  refine @Ok.setMain cfg t.control h (.finish t.completionStatus _ _) _ t.control.reports
    (h.quiet (by rw [hmt]; rfl)) (fun hend => ?_) ⟨hmain, rfl, ?_⟩
  · rw [hmt] at hend
    cases hend
  · show t.isCancelled = true ↔ t.completionStatus = .cancelled
    unfold completionStatus
    split
    · rename_i hc
      simp [hc]
    · rename_i hc
      rw [Bool.not_eq_true] at hc
      rw [hc]
      split <;> simp

theorem mainStep_ok (h : Ok cfg s.control) (hs : s.mainStep cfg = some s') : Ok cfg s'.control := by
  have hmain := h.main
  unfold mainStep at hs
  split at hs
  · rename_i hm
    rw [show s.control.main = _ from hm] at hmain
    cases hs
    exact setMain_ok h (quiet_at h hm rfl) (ending_at hm rfl) hmain
  · rename_i hm
    cases hs
    exact startPipeline_ok h hm
  · rename_i hm
    cases hs
    exact conclude_ok h hm
  · rename_i status failedFiles expandedFiles hm
    rw [show s.control.main = _ from hm] at hmain
    cases hs
    have hcontrol : ({ s.report (.history status) with
        main := .history (s.summary status failedFiles expandedFiles) } : UploadRun).control =
          { s.control with
            main := .history (s.summary status failedFiles expandedFiles)
            diagnostics := s.control.diagnostics
            reports := s.control.reports ++ [.history status] } :=
      congrArg (fun c : RunControl => { c with
        main := .history (s.summary status failedFiles expandedFiles) }) (control_report_final rfl)
    rw [hcontrol]
    refine h.setMain (quiet_at h hm rfl) (ending_at hm rfl) ⟨?_, hmain.2⟩
    rw [hmain.1]
    rfl
  · rename_i summary hm
    rw [show s.control.main = _ from hm] at hmain
    cases hs
    exact setMain_ok h (quiet_at h hm rfl) (ending_at hm rfl) hmain
  · rename_i summary hm
    rw [show s.control.main = _ from hm] at hmain
    obtain ⟨hreports, hdiagnostics, hstatus⟩ := hmain
    cases hs
    split
    · rename_i hc
      have hcancelled := hstatus.mp hc
      rw [hcancelled] at hreports hdiagnostics
      refine finallyBlock_ok h (quiet_at h hm rfl) hc ⟨?_, fun _ => ⟨hdiagnostics, hreports⟩⟩
        (by rw [hm]; rfl)
      intro failure hmem
      rw [hreports] at hmem
      simp at hmem
    · rename_i hc
      have hcontrol : (s.report (.complete summary)).finallyBlock.control = { s.control with
          thermalCancelled := true
          closed := true
          main := .endTransfer
          reports := s.control.reports ++ [.complete summary] } := by
        unfold finallyBlock
        rw [if_neg (show ¬(s.report (.complete summary)).isCancelled = true from hc),
          cleanUp_control,
          control_report_final rfl]
      rw [hcontrol]
      refine h.cleanUp (quiet_at h hm rfl)
        ⟨fun failure hmem => ?_, fun hcancelled => absurd hcancelled hc⟩
      rw [show s.control.reports = _ from hreports] at hmem
      simp at hmem
  · rename_i failure hm
    rw [show s.control.main = _ from hm] at hmain
    obtain ⟨hc, hfatal, hdiagnostics, hreports⟩ := hmain
    cases hs
    have hbranch : (s.isCancelled && !failure.fatal) = true := by
      rw [show s.isCancelled = true from hc, hfatal]
      rfl
    rw [if_pos hbranch]
    have hcontrol : ({ s.report (.history .cancelled) with main := .failHistory failure } :
        UploadRun).control = { s.control with
          main := .failHistory failure
          diagnostics := s.control.diagnostics
          reports := s.control.reports ++ [.history .cancelled] } :=
      congrArg (fun c : RunControl => { c with main := .failHistory failure })
        (control_report_final rfl)
    rw [hcontrol]
    refine h.setMain (quiet_at h hm rfl) (ending_at hm rfl) ⟨hc, hfatal, hdiagnostics, ?_⟩
    rw [hreports]
    rfl
  · rename_i failure hm
    rw [show s.control.main = _ from hm] at hmain
    cases hs
    exact setMain_ok h (quiet_at h hm rfl) (ending_at hm rfl) hmain
  · rename_i failure hm
    rw [show s.control.main = _ from hm] at hmain
    obtain ⟨hc, hfatal, hdiagnostics, hreports⟩ := hmain
    cases hs
    have hbranch : ¬(!s.isCancelled || failure.fatal) = true := by
      rw [show s.isCancelled = true from hc, hfatal]
      decide
    rw [if_neg hbranch]
    refine finallyBlock_ok h (quiet_at h hm rfl) hc ⟨?_, fun _ => ⟨hdiagnostics, hreports⟩⟩
      (by rw [hm]; rfl)
    intro failure hmem
    rw [hreports] at hmem
    simp at hmem
  · rename_i hm
    rw [show s.control.main = _ from hm] at hmain
    cases hs
    exact cleanUp_ok h (quiet_at h hm rfl) hmain
  · rename_i hm
    rw [show s.control.main = _ from hm] at hmain
    cases hs
    exact setMain_ok h (quiet_at h hm rfl) (fun _ => rfl) hmain
  · rename_i hm
    rw [show s.control.main = _ from hm] at hmain
    cases hs
    exact setMain_ok h (quiet_at h hm rfl) (fun _ => rfl) hmain
  · cases hs

/-- **A step keeps the invariant.** -/
theorem runStep_ok {l : RunLabel} (h : Ok cfg s.control) (hl : Unfailing cfg s l)
    (hcancel : CancelsInTime s l) (hs : runStep cfg s l = some s') : Ok cfg s'.control := by
  cases l with
  | cancel =>
    simp only [runStep] at hs
    split at hs
    · cases hs
    · cases hs
      rw [control_cancel]
      exact h.cancel hcancel
  | thermalChanged state =>
    cases hs
    exact h
  | begun succeeds =>
    simp only [runStep] at hs
    split at hs
    · rename_i hm
      cases hs
      have hmain := h.main
      rw [show s.control.main = _ from hm] at hmain
      rw [if_pos (show succeeds = true from hl)]
      exact setMain_ok h (quiet_at h hm rfl) (ending_at hm rfl) hmain
    · cases hs
  | thermalRead state =>
    simp only [runStep] at hs
    split at hs
    · rename_i hm
      cases hs
      have hmain := h.main
      rw [show s.control.main = _ from hm] at hmain
      obtain ⟨state, rfl⟩ := Option.isSome_iff_exists.mp hl
      exact setMain_ok (s := { s with thermal := s.thermal.update state }) h (quiet_at h hm rfl)
        (ending_at hm rfl) hmain
    · cases hs
  | pinged succeeds =>
    simp only [runStep] at hs
    split at hs
    · rename_i hm
      cases hs
      have hmain := h.main
      rw [show s.control.main = _ from hm] at hmain
      rw [if_pos (show succeeds = true from hl)]
      exact setMain_ok h (quiet_at h hm rfl) (ending_at hm rfl) hmain
    · cases hs
  | main => exact mainStep_ok h hs
  | settle => exact settle_ok h hs
  | producer => exact producerStep_ok h hs
  | prepared window => exact prepared_ok h hl hs
  | preflightDone peers => exact preflightDone_ok h hl hs
  | enqueuer => exact enqueuerStep_ok h hs
  | worker w =>
    rw [workerStep_control hs]
    exact h
  | acknowledged w reportedBytes =>
    simp only [runStep] at hs
    split at hs
    · cases hs
      exact h
    · cases hs
  | uploaded w reply =>
    simp only [runStep] at hs
    split at hs
    · cases hs
      rw [finishUpload_control hl]
      exact h
    · cases hs

end Steps

/-! ## Runs -/

theorem start_ok (cfg : UploadConfig) : Ok cfg (UploadRun.start cfg).control where
  fatalError := rfl
  thermal h := nomatch h
  closed h := nomatch h
  producer := trivial
  enqueuer := trivial
  main := ⟨rfl, rfl, rfl, rfl, rfl⟩

theorem histories_eq (s : UploadRun) : s.histories = s.control.reports.filterMap fun
    | .history status => some status
    | _ => none := by
  unfold UploadRun.histories UploadRun.control
  rw [List.filterMap_filter]
  refine List.filterMap_congr fun event _ => ?_
  cases event <;> rfl

theorem reported_of_ok {cfg : UploadConfig} {s : UploadRun} (h : Ok cfg s.control)
    (hc : s.isCancelled = true) : ReportedAsCancelled s := by
  have hmem : ∀ event ∈ s.log, event.isFinal = true → event ∈ s.control.reports :=
    fun event hmem hfinal => List.mem_filter.mpr ⟨hmem, hfinal⟩
  have hmain := h.main
  have hreports : s.control.reports = [] ∨ s.control.reports = [.history .cancelled] := by
    cases hm : s.control.main <;> rw [hm] at hmain
    case beginTransfer | thermalState | startDiagnostics | ping | logStarted =>
      exact .inl hmain.2.2.2.2
    case produce => exact .inl hmain.2.2
    case pipeline | logPrepared => exact .inl hmain
    case finish => exact .inl hmain.1
    case history | logDone => exact .inr (hmain.2.2.mp hc ▸ hmain.1)
    case failFinish => exact .inl hmain.2.2.2
    case failHistory | failLog => exact .inr hmain.2.2.2
    case cancelSession | endTransfer | metrics | finished => exact .inr (hmain.2 hc).2
  refine ⟨fun failure h => ?_, fun summary h => ?_, fun hfinished => ?_⟩
  · have hin := hmem _ h rfl
    rcases hreports with heq | heq <;> rw [heq] at hin <;> simp at hin
  · have hin := hmem _ h rfl
    rcases hreports with heq | heq <;> rw [heq] at hin <;> simp at hin
  · rw [show s.control.main = _ from hfinished] at hmain
    refine ⟨(hmain.2 hc).1, ?_⟩
    rw [histories_eq, (hmain.2 hc).2]
    rfl

/-- **A cancelled run is reported as cancelled.**  In every run that nothing else ends, for any
selection, mode and capacity: when every cancel finds the producer not waiting for capacity and the
outcome open, `onError` and `onComplete` are never called after it, and when the run has ended, the
diagnostics and the history have it as cancelled. -/
theorem cancelled_run_reported {cfg : UploadConfig} {s : UploadRun}
    (hrun : Run (runStep cfg) (fun s l => Unfailing cfg s l ∧ CancelsInTime s l)
      (UploadRun.start cfg) s) (hc : s.isCancelled = true) : ReportedAsCancelled s := by
  refine reported_of_ok (Run.invariant (I := fun s => Ok cfg s.control) hrun (start_ok cfg) ?_) hc
  intro s l s' h hl hs
  exact runStep_ok h hl.1 hl.2 hs

/-! ## Runs of a small selection -/

def fiveAssets : List MediaAsset :=
  ["a", "b", "c", "d", "e"].map fun id => { id, filename := id }

/-- Five assets, streamed, without duplicate checks. -/
def streamingConfig : UploadConfig :=
  { assets := fiveAssets
    policy := resolvePreparationPolicy .streaming true 5
    skipExactDuplicates := false }

/-- Every asset has one file. -/
def fiveFiles : PreparedWindow :=
  { files := fiveAssets.map fun asset =>
      { asset, variantId := asset.id, fileRef := 1, windowIndex := 0,
        nativeUri := asset.id, size := 1
        transferFilename := asset.filename }
    failures := [] }

/-- Nobody answers. -/
def silentPeers : PreflightPeers :=
  { preflightCheck := fun _ _ => .failed
    preflightVerify := fun _ _ => .failed
    hashPreparedFiles := fun _ _ _ => none }

/-- A cancel before the preparation. -/
def earlyCancel : List RunLabel :=
  [.begun true, .cancel, .thermalRead (some .nominal), .main, .pinged true, .main,
    .producer, .settle,
    .main, .main, .main, .main, .main, .main]

/-- The files reported as saved. -/
def UploadRun.savedVariants (s : UploadRun) : List String :=
  s.log.filterMap fun
    | .saved file => some file.variantId
    | _ => none

def firstWorker : Fin 2 := ⟨0, Nat.two_pos⟩

def secondWorker : Fin 2 := ⟨1, Nat.one_lt_two⟩

/-- The first file is saved and the second is on its way when the user cancels. -/
def uploadCancel : List RunLabel :=
  List.flatten [
    [.begun true, .thermalRead (some .nominal), .main, .pinged true, .main, .producer],
    [.prepared (some fiveFiles), .preflightDone silentPeers, .producer, .producer],
    List.replicate 3 (.worker firstWorker), [.uploaded firstWorker .saved],
    List.replicate 3 (.worker secondWorker),
    [.cancel, .producer, .producer, .uploaded secondWorker (.failed .other)],
    [.worker secondWorker, .worker firstWorker, .settle, .main, .main, .main, .main, .main, .main]]

theorem cancelled_run_reported_early :
    (∃ s : UploadRun, ReportedAsCancelled s ∧ s.diagnostics = some .cancelled ∧
      s.histories = [.cancelled]) ∧
    ∃ s : UploadRun, ReportedAsCancelled s ∧ s.diagnostics = some .cancelled ∧
      s.histories = [.cancelled] ∧ s.savedVariants = ["a"] := by
  constructor
  · obtain ⟨s, hrun, htest⟩ := Run.exists_of_exec (runStep streamingConfig)
      (P := fun s l => Unfailing streamingConfig s l ∧ CancelsInTime s l)
      (fun s l => decide (Unfailing streamingConfig s l ∧ CancelsInTime s l))
      (fun s => s.isCancelled && decide (s.main = .finished)) (UploadRun.start streamingConfig)
      earlyCancel (fun _ _ => of_decide_eq_true) (by decide)
    rw [Bool.and_eq_true] at htest
    have hreported := cancelled_run_reported hrun htest.1
    exact ⟨s, hreported, hreported.2.2 (of_decide_eq_true htest.2)⟩
  · obtain ⟨s, hrun, htest⟩ := Run.exists_of_exec (runStep streamingConfig)
      (P := fun s l => Unfailing streamingConfig s l ∧ CancelsInTime s l)
      (fun s l => decide (Unfailing streamingConfig s l ∧ CancelsInTime s l))
      (fun s => s.isCancelled && (decide (s.main = .finished) && decide (s.savedVariants = ["a"])))
      (UploadRun.start streamingConfig) uploadCancel (fun _ _ => of_decide_eq_true)
      (by decide)
    simp only [Bool.and_eq_true, decide_eq_true_eq] at htest
    obtain ⟨hc, hfinished, hsaved⟩ := htest
    have hreported := cancelled_run_reported hrun hc
    obtain ⟨hdiagnostics, hhistories⟩ := hreported.2.2 hfinished
    exact ⟨s, hreported, hdiagnostics, hhistories, hsaved⟩

/-- The workers hold two files, the queue two more, and the producer waits to push the fifth when
the user cancels. -/
def blockedCancel : List RunLabel :=
  List.flatten [
    [.begun true, .thermalRead (some .nominal), .main, .pinged true, .main, .producer],
    [.prepared (some fiveFiles), .preflightDone silentPeers, .producer, .producer, .producer],
    [.producer, .producer, .cancel, .producer, .producer],
    (List.finRange 2).flatMap fun w => List.replicate 3 (.worker w),
    [.settle, .main, .main, .main, .main, .main]]

/-- **A cancel can be reported as a fatal error**: 'Queue is closed', thrown into the producer by
the cancel itself, is taken for a failure of the preparation. -/
theorem cancel_reported_as_fatal :
    ¬∀ (cfg : UploadConfig) (s : UploadRun),
      Run (runStep cfg) (Unfailing cfg) (UploadRun.start cfg) s →
      s.isCancelled = true → ReportedAsCancelled s := by
  intro h
  obtain ⟨s, hrun, htest⟩ := Run.exists_of_exec (runStep streamingConfig)
    (P := Unfailing streamingConfig)
    (fun s l => decide (Unfailing streamingConfig s l))
    (fun s => s.isCancelled && decide (s.main = .finished) &&
      decide (s.diagnostics = some .fatal) &&
      s.log.any fun event => match event with
        | .error failure => failure.fatal
        | _ => false) (UploadRun.start streamingConfig) blockedCancel
    (fun _ _ => of_decide_eq_true) (by decide)
  simp only [Bool.and_eq_true, decide_eq_true_eq] at htest
  obtain ⟨⟨⟨hc, hfinished⟩, hfatal⟩, -⟩ := htest
  have hcancelled := ((h streamingConfig s hrun hc).2.2 hfinished).1
  rw [hfatal] at hcancelled
  cases hcancelled

end LocalMediaTransfer
