import LocalMediaTransfer.Ios.Upload.UploadDrain

/-!
# Undisturbed runs lose no file

An undisturbed run was neither cancelled nor ended by an error.  Its steps lose no file, and when
its pipeline is over no task holds one.

* `UploadRun.Sound` — what holds in every undisturbed run.
* `smooth_of_sound` — **the steps of an undisturbed run lose no file**.
* `drained_of_settle` — the tasks of a settled pipeline hold no file.
* `orderly_of_run` — what holds in every run.
-/

set_option autoImplicit false

namespace LocalMediaTransfer

open Lib UploadRun RunControl

/-- The pipeline is over. -/
def MainPc.isPast : MainPc → Bool
  | .logPrepared | .finish .. | .history _ | .logDone _ => true
  | .cancelSession | .endTransfer | .metrics | .finished => true
  | _ => false

/-- The producer or the enqueuer may still act. -/
def ProducerPc.isActive : ProducerPc → Bool
  | .idle | .returned _ | .settled _ => false
  | _ => true

def EnqueuerPc.isActive : EnqueuerPc → Bool
  | .idle | .done _ => false
  | _ => true

theorem ProducerPc.files_of_quiet {pc : ProducerPc} (h : pc.isActive = false) :
    pc.files = [] ∧ pc.unchecked = [] := by
  cases pc <;> first | exact ⟨rfl, rfl⟩ | cases h

theorem EnqueuerPc.files_of_quiet {pc : EnqueuerPc} (h : pc.isActive = false) : pc.files = [] := by
  cases pc <;> first | rfl | cases h

namespace UploadRun

/-- No task holds a file. -/
structure Drained (s : UploadRun) : Prop where
  load : ∀ g, s.load g = 0
  unchecked : s.producer.unchecked = []

/-- What holds in every undisturbed run. -/
structure Sound (cfg : UploadConfig) (s : UploadRun) : Prop where
  ok : Ok cfg s.control
  streaming : cfg.policy.effectiveMode = .streaming → s.preparedWindows = []
  feeding : s.enqueuer ≠ .idle → s.preparedWindows = []
  drained : s.main.isPast = true → s.Drained

variable {cfg : UploadConfig} {s s' t : UploadRun} {l : RunLabel}

/-! ## Steps and the accounts -/

theorem LedgerStep.parked (hp : s.Parked) (h : LedgerStep cfg s l s') : s'.Parked := by
  cases h with
  | carried h => exact h.parked
  | prepared _ _ h => exact h.parked
  | preflight => exact hp.of_eq rfl rfl id
  | counted _ h => exact h.parked
  | skipped _ _ h => exact h.parked
  | refused _ _ _ h => exact h.parked
  | acknowledged hw =>
    have hwaits := hp.notWaiting
      (show s.workers _ ≠ .shifting by rw [hw]; exact WorkerPc.noConfusion)
    have hmain := hp.started (show s.workers _ ≠ .idle by rw [hw]; exact WorkerPc.noConfusion)
    exact (hp.setWorker hwaits hmain _).of_eq rfl rfl id
  | saved _ _ h => exact h.parked
  | verified _ _ h => exact h.parked
  | failed _ _ h => exact h.parked
  | concluded _ _ _ _ h => exact h.parked
  | completed _ _ _ _ h => exact h.parked

/-- A run that is disturbed stays so. -/
theorem LedgerStep.disturbed (h : LedgerStep cfg s l s') (hd : s.Disturbed) : s'.Disturbed := by
  cases h with
  | carried h => exact h.disturbed hd
  | prepared _ _ h => exact h.disturbed hd
  | preflight => exact hd.of_log rfl rfl fun _ => id
  | counted _ h => exact h.disturbed (hd.of_log rfl rfl fun _ => id)
  | skipped _ _ h => exact h.disturbed hd
  | refused _ _ _ h => exact h.disturbed hd
  | acknowledged hw => exact hd.of_log rfl rfl fun _ => id
  | saved _ _ h => exact h.disturbed hd
  | verified _ _ h => exact h.disturbed hd
  | failed _ _ h => exact h.disturbed hd
  | concluded _ _ _ _ h => exact h.disturbed hd
  | completed _ _ _ _ h => exact h.disturbed hd

theorem start_parked (cfg : UploadConfig) : (UploadRun.start cfg).Parked where
  starting _ _ := rfl
  shifting _ h := absurd h List.not_mem_nil
  nodup := List.nodup_nil
  empty h := absurd rfl h
  closed _ := rfl

theorem worker_load_le (g : FileWeight) (w : Fin 2) : (s.workers w).load g ≤ s.load g := by
  match w with
  | 0 =>
    unfold load
    omega
  | 1 =>
    unfold load
    omega

/-- No worker is at work on a file when no task holds one. -/
theorem Drained.not_working (h : s.Drained) {w : Fin 2} (hw : ∃ g, 0 < (s.workers w).load g) :
    False := by
  obtain ⟨g, hg⟩ := hw
  have hle := worker_load_le (s := s) g w
  rw [h.load g] at hle
  omega

/-! ## The windows of the prepare-first mode -/

/-- The prepared windows that wait for the enqueuer, and the await of the function. -/
def feed (s : UploadRun) : List (List PreparedUploadFile) × EnqueuerPc × MainPc :=
  (s.preparedWindows, s.enqueuer, s.main)

def SameWindows (s s' : UploadRun) : Prop :=
  s'.preparedWindows = s.preparedWindows ∧ s'.enqueuer = s.enqueuer

theorem SameWindows.of_feed (h : s'.feed = s.feed) : SameWindows s s' :=
  ⟨congrArg Prod.fst h, congrArg (·.2.1) h⟩

theorem main_of_feed (h : s'.feed = s.feed) : s'.main = s.main := congrArg (·.2.2) h

theorem push_feed {feeder : Feeder} {file : PreparedUploadFile} {suspended : Bool}
    (hs : s.push feeder file = some (s', suspended)) : s'.feed = s.feed := by
  unfold push at hs
  rcases s.queue.push_cases file feeder with ⟨-, -, heq⟩ | ⟨-, heq⟩ | ⟨-, -, consumer,
    waiting, -, heq⟩ |
    ⟨-, -, -, heq⟩ <;> rw [heq] at hs <;> cases hs <;> rfl

theorem workerLoop_feed (w : Fin 2) : (s.workerLoop w).feed = s.feed := by
  unfold workerLoop
  split
  · rfl
  · split <;> rfl

theorem startWorkers_feed : s.startWorkers.feed = s.feed :=
  (workerLoop_feed 1).trans (workerLoop_feed 0)

theorem workerStep_feed {w : Fin 2} (hs : s.workerStep w = some s') : s'.feed = s.feed := by
  unfold workerStep at hs
  split at hs
  · cases hs
    rfl
  · cases hs
    rfl
  · obtain ⟨admits, -, rfl⟩ := Option.map_eq_some_iff.mp hs
    rfl
  · cases hs
    split
    · unfold processFile
      split
      · rfl
      · split <;> rfl
    · rfl
  · cases hs
    split
    · rfl
    · exact workerLoop_feed w
  · cases hs

theorem finishUpload_feed (w : Fin 2) (file : PreparedUploadFile) (acknowledgedBytes : Nat)
    (reply : UploadReply) :
    (s.finishUpload cfg w file acknowledgedBytes reply).feed = s.feed := by
  unfold finishUpload
  split
  · rfl
  · rfl
  · split
    · rfl
    · split <;> rfl

theorem nextWindow_feed (cfg : UploadConfig) (s : UploadRun) :
    (s.nextWindow cfg).feed = s.feed := by
  obtain ⟨pc, heq, -⟩ := producerLoop_eq cfg { s with
    startIndex := s.startIndex + cfg.policy.windowSize }
  unfold nextWindow
  rw [heq]
  rfl

theorem producerPush_feed (file : PreparedUploadFile) (rest : List PreparedUploadFile) :
    (s.producerPush file rest).feed = s.feed := by
  unfold producerPush
  split
  · rfl
  · rename_i t hpush
    have heq := push_feed hpush
    exact heq
  · rename_i t hpush
    have heq := push_feed hpush
    exact heq

theorem pushFiles_feed (files : List PreparedUploadFile) :
    (s.pushFiles cfg files).feed = s.feed := by
  unfold pushFiles
  split
  · exact nextWindow_feed cfg s
  · split
    · exact nextWindow_feed cfg s
    · exact producerPush_feed _ _

theorem producerStep_feed (hs : s.producerStep cfg = some s') : s'.feed = s.feed ∨
    (cfg.policy.effectiveMode ≠ .streaming ∧ s'.feed.2 = s.feed.2 ∧
      ∃ files, s.producer = .releasing files) := by
  unfold producerStep at hs
  split at hs
  · cases hs
    exact .inl rfl
  · rename_i files hpc
    cases hs
    unfold enqueueWindow
    split
    · left
      exact (pushFiles_feed files).trans rfl
    · rename_i hmode
      have hfeed := congrArg Prod.snd (nextWindow_feed cfg { s with
        plannedUploadMediaBytes := s.plannedUploadMediaBytes +
          ((files.filter isPlanned).map (·.size)).sum
        preparedWindows := s.preparedWindows ++ [files] })
      exact .inr ⟨hmode, hfeed, files, hpc⟩
  · split at hs
    · cases hs
    · cases hs
      exact .inl (producerPush_feed _ _)
  · cases hs
    exact .inl (pushFiles_feed _)
  · split at hs
    · cases hs
      left
      split <;> rfl
    · cases hs
  · cases hs

theorem enqueuerPush_windows (file : PreparedUploadFile) (rest : List PreparedUploadFile) :
    (s.enqueuerPush file rest).preparedWindows = s.preparedWindows ∧
      (s.enqueuerPush file rest).main = s.main := by
  unfold enqueuerPush
  split
  · exact ⟨rfl, rfl⟩
  · rename_i t hpush
    have hfeed := push_feed hpush
    exact ⟨congrArg Prod.fst hfeed, congrArg (·.2.2) hfeed⟩
  · rename_i t hpush
    have hfeed := push_feed hpush
    exact ⟨congrArg Prod.fst hfeed, congrArg (·.2.2) hfeed⟩

theorem enqueueFiles_windows (files : List PreparedUploadFile) :
    (s.enqueueFiles files).preparedWindows = s.preparedWindows ∧
      (s.enqueueFiles files).main = s.main := by
  unfold enqueueFiles
  split
  · exact ⟨rfl, rfl⟩
  · split
    · exact ⟨rfl, rfl⟩
    · exact enqueuerPush_windows _ _

theorem enqueuerStep_windows (hs : s.enqueuerStep = some s') :
    s'.preparedWindows = s.preparedWindows ∧ s'.main = s.main ∧ s.enqueuer ≠ .idle := by
  unfold enqueuerStep at hs
  split at hs
  · rename_i file rest hpc
    split at hs
    · cases hs
    · cases hs
      obtain ⟨hwindows, hmain⟩ := enqueuerPush_windows (s := s) file rest
      exact ⟨hwindows, hmain, by rw [hpc]; exact EnqueuerPc.noConfusion⟩
  · rename_i rest hpc
    cases hs
    obtain ⟨hwindows, hmain⟩ := enqueueFiles_windows (s := s) rest
    exact ⟨hwindows, hmain, by rw [hpc]; exact EnqueuerPc.noConfusion⟩
  · cases hs

theorem pipelineDone_windows (preparedAll : Bool) : SameWindows s (s.pipelineDone preparedAll) := by
  unfold pipelineDone
  split
  · exact ⟨rfl, rfl⟩
  · split
    · exact ⟨rfl, rfl⟩
    · split <;> exact ⟨rfl, rfl⟩

theorem startFeeding_windows : s.startFeeding.preparedWindows =
    [] ∧ s.startFeeding.main = .pipeline := by
  obtain ⟨hwindows, hmain⟩ := enqueueFiles_windows (s := { s.finishPreparation with
    main := .pipeline, preparedWindows := [] }) s.preparedWindows.flatten
  exact ⟨(congrArg Prod.fst startWorkers_feed).trans hwindows,
    (main_of_feed startWorkers_feed).trans hmain⟩

theorem settle_windows (hs : s.settle cfg = some s') :
    SameWindows s s' ∨ s'.preparedWindows = [] := by
  unfold settle at hs
  split at hs
  · split at hs
    · cases hs
      exact .inr startFeeding_windows.1
    · cases hs
      exact .inl (pipelineDone_windows _)
    · cases hs
  · split at hs
    · split at hs
      · split at hs
        · cases hs
          exact .inl (pipelineDone_windows _)
        · cases hs
      · cases hs
    · split at hs
      · cases hs
        exact .inl ⟨rfl, rfl⟩
      · split at hs
        · cases hs
          exact .inl (pipelineDone_windows _)
        · cases hs
      · cases hs
  · cases hs

theorem finallyBlock_windows : SameWindows s s.finallyBlock := by
  unfold finallyBlock
  split <;> exact ⟨rfl, rfl⟩

theorem startPipeline_feed (cfg : UploadConfig) (s : UploadRun) : SameWindows s
    (s.startPipeline cfg) ∧
    (s.startPipeline cfg).main.isProducing = true := by
  unfold startPipeline
  split
  · obtain ⟨pc, heq, -⟩ := producerLoop_eq cfg { s with main := .pipeline }
    rw [heq]
    have hfeed := startWorkers_feed (s := { s with main := .pipeline, producer := pc })
    have hwindows := SameWindows.of_feed hfeed
    refine ⟨hwindows, ?_⟩
    rw [main_of_feed hfeed]
    rfl
  · obtain ⟨pc, heq, -⟩ := producerLoop_eq cfg { s with main := .produce }
    rw [heq]
    exact ⟨⟨rfl, rfl⟩, rfl⟩

theorem mainStep_windows (hs : s.mainStep cfg = some s') : SameWindows s s' := by
  unfold mainStep at hs
  split at hs
  · cases hs
    exact ⟨rfl, rfl⟩
  · cases hs
    exact (startPipeline_feed cfg s).1
  · cases hs
    unfold conclude
    split
    · exact ⟨rfl, rfl⟩
    · have htasks := (markMissing_spec cfg s).1
      exact ⟨htasks.preparedWindows, htasks.enqueuer⟩
  · cases hs
    exact ⟨rfl, rfl⟩
  · cases hs
    exact ⟨rfl, rfl⟩
  · cases hs
    split
    · exact finallyBlock_windows
    · exact finallyBlock_windows
  · cases hs
    split <;> exact ⟨rfl, rfl⟩
  · cases hs
    exact ⟨rfl, rfl⟩
  · cases hs
    split
    · exact finallyBlock_windows
    · exact finallyBlock_windows
  · cases hs
    exact ⟨rfl, rfl⟩
  · cases hs
    exact ⟨rfl, rfl⟩
  · cases hs
    exact ⟨rfl, rfl⟩
  · cases hs

theorem recordWindow_feed (window : PreparedWindow) :
    (s.recordWindow cfg window).feed = s.feed := by
  have htasks := (foldl_markPreparationFailure window.failures { s with
    preparedFiles := s.preparedFiles + (s.windowAssets cfg).length
    readyFiles := s.readyFiles + window.files.length }).1
  exact Prod.ext htasks.preparedWindows (Prod.ext htasks.enqueuer htasks.main)

theorem prepared_feed {window : Option PreparedWindow} (hs : s.prepared cfg window = some s') :
    s'.feed = s.feed := by
  unfold prepared at hs
  split at hs
  · split at hs
    · cases hs
      rfl
    · cases hs
      split
      · rfl
      · exact recordWindow_feed _
  · cases hs

theorem preflightDone_feed {peers : PreflightPeers} (hs : s.preflightDone cfg peers = some s') :
    s'.feed = s.feed := by
  unfold preflightDone at hs
  split at hs
  · split at hs
    · cases hs
      rfl
    · cases hs
      rfl
  · cases hs

/-- **What a step does to the windows that wait.** -/
theorem runStep_windows (hs : runStep cfg s l = some s') :
    SameWindows s s' ∨ s'.preparedWindows = [] ∨
      (s'.preparedWindows = s.preparedWindows ∧ s.enqueuer ≠ .idle) ∨
      (cfg.policy.effectiveMode ≠ .streaming ∧ s'.enqueuer = s.enqueuer ∧
        ∃ files, s.producer = .releasing files) := by
  cases l with
  | cancel =>
    simp only [runStep] at hs
    split at hs
    · cases hs
    · cases hs
      exact .inl ⟨rfl, rfl⟩
  | thermalChanged state =>
    cases hs
    exact .inl ⟨rfl, rfl⟩
  | begun succeeds =>
    simp only [runStep] at hs
    split at hs
    · cases hs
      left
      split <;> exact ⟨rfl, rfl⟩
    · cases hs
  | thermalRead state =>
    simp only [runStep] at hs
    split at hs
    · cases hs
      left
      split <;> exact ⟨rfl, rfl⟩
    · cases hs
  | pinged succeeds =>
    simp only [runStep] at hs
    split at hs
    · cases hs
      left
      split <;> exact ⟨rfl, rfl⟩
    · cases hs
  | main => exact .inl (mainStep_windows hs)
  | settle => exact (settle_windows hs).imp_right .inl
  | producer =>
    rcases producerStep_feed hs with hfeed | ⟨hmode, hfeed, hreleasing⟩
    · exact .inl (.of_feed hfeed)
    · exact .inr (.inr (.inr ⟨hmode, congrArg Prod.fst hfeed, hreleasing⟩))
  | prepared window => exact .inl (.of_feed (prepared_feed hs))
  | preflightDone peers => exact .inl (.of_feed (preflightDone_feed hs))
  | enqueuer =>
    obtain ⟨hwindows, -, hactive⟩ := enqueuerStep_windows hs
    exact .inr (.inr (.inl ⟨hwindows, hactive⟩))
  | worker w => exact .inl (.of_feed (workerStep_feed hs))
  | acknowledged w reportedBytes =>
    simp only [runStep] at hs
    split at hs
    · cases hs
      exact .inl ⟨rfl, rfl⟩
    · cases hs
  | uploaded w reply =>
    simp only [runStep] at hs
    split at hs
    · cases hs
      exact .inl (.of_feed (finishUpload_feed ..))
    · cases hs

/-! ## Undisturbed runs -/

theorem not_cancelled (h : ¬s.Disturbed) : s.isCancelled = false := by
  by_contra hc
  exact h (.inl (by simpa using hc))

theorem fail_disturbed (error : RunError) : (s.fail error).Disturbed := .inr (.inl rfl)

/-- **A step of an undisturbed run keeps the control state in order.** -/
theorem ok_step (h : Ok cfg s.control) (hs : runStep cfg s l = some s') (hnd : ¬s'.Disturbed) :
    Ok cfg s'.control := by
  have hstep : ∀ l', Unfailing cfg s l' → CancelsInTime s l' → runStep cfg s l' = some s' →
      Ok cfg s'.control := fun _ hl hcancel hs => runStep_ok h hl hcancel hs
  cases l with
  | cancel =>
    simp only [runStep] at hs
    split at hs
    · cases hs
    · cases hs
      exact absurd (.inl rfl) hnd
  | begun succeeds =>
    cases succeeds with
    | true => exact hstep (.begun true) rfl trivial hs
    | false =>
      simp only [runStep] at hs
      split at hs
      · cases hs
        exact absurd (fail_disturbed _) hnd
      · cases hs
  | thermalRead state =>
    cases state with
    | some state => exact hstep (.thermalRead (some state)) rfl trivial hs
    | none =>
      simp only [runStep] at hs
      split at hs
      · cases hs
        exact absurd (fail_disturbed _) hnd
      · cases hs
  | pinged succeeds =>
    cases succeeds with
    | true => exact hstep (.pinged true) rfl trivial hs
    | false =>
      simp only [runStep] at hs
      split at hs
      · cases hs
        exact absurd (fail_disturbed _) hnd
      · cases hs
  | prepared window =>
    cases window with
    | some window => exact hstep (.prepared (some window)) rfl trivial hs
    | none =>
      simp only [runStep, prepared] at hs
      split at hs
      · cases hs
        exact absurd (.inl rfl) hnd
      · cases hs
  | preflightDone peers =>
    refine hstep (.preflightDone peers) (fun window hpc => ?_) trivial hs
    by_contra hnone
    rw [Bool.not_eq_true, Option.isSome_eq_false_iff, Option.isNone_iff_eq_none] at hnone
    simp only [runStep, preflightDone, hpc, hnone] at hs
    cases hs
    exact hnd (.inl rfl)
  | uploaded w reply =>
    by_cases hreply : reply = .failed .unauthorized
    · subst hreply
      -- the receiver was not asked about a file that exceeds its limits
      have hother : runStep cfg s (.uploaded w (.failed .other)) = some s' := by
        simp only [runStep] at hs ⊢
        split at hs
        · rename_i file acknowledgedBytes hw
          cases hs
          simp only [finishUpload, effectiveReply] at hnd ⊢
          by_cases hlimit : exceedsReceiverLimit cfg file.size = true
          · rw [if_pos hlimit, if_pos hlimit]
          · rw [if_neg hlimit] at hnd
            exact absurd (.inl rfl) hnd
        · cases hs
      exact hstep (.uploaded w (.failed .other)) (fun heq => by cases heq) trivial hother
    · exact hstep (.uploaded w reply) hreply trivial hs
  | thermalChanged state => exact hstep (.thermalChanged state) trivial trivial hs
  | main => exact hstep .main trivial trivial hs
  | settle => exact hstep .settle trivial trivial hs
  | producer => exact hstep .producer trivial trivial hs
  | enqueuer => exact hstep .enqueuer trivial trivial hs
  | worker w => exact hstep (.worker w) trivial trivial hs
  | acknowledged w reportedBytes => exact hstep (.acknowledged w reportedBytes) trivial trivial hs

/-- The queue is open while the producer or the enqueuer of an undisturbed run acts. -/
theorem isOpen_of_ok (h : Ok cfg s.control) (hnd : ¬s.Disturbed)
    (hproducer : ∀ completed, s.producer ≠ .settled completed)
    (henqueuer : ∀ rejected, s.enqueuer ≠ .done rejected) (hending : s.main.isEnding = false) :
    s.IsOpen := by
  have hc := not_cancelled hnd
  refine ⟨hc, Bool.eq_false_iff.mpr fun hclosed => ?_⟩
  rcases h.closed hclosed with hcancelled | ⟨completed, hp⟩ | ⟨rejected, he⟩ | hend
  · rw [show s.control.isCancelled = s.isCancelled from rfl, hc] at hcancelled
    cases hcancelled
  · exact hproducer completed hp
  · exact henqueuer rejected he
  · rw [show s.control.main = s.main from rfl, hending] at hend
    cases hend

theorem isOpen_of_producer (h : Ok cfg s.control) (hnd : ¬s.Disturbed)
    (hactive : s.producer.isActive = true) : s.IsOpen := by
  have hp := h.producer
  have hm : s.main.isProducing = true := by
    cases hpc : s.producer <;> rw [show s.control.producer = _ from hpc] at hp <;>
      first | exact hp.1 | (rw [hpc] at hactive; cases hactive)
  refine isOpen_of_ok h hnd (fun completed hc => ?_) (fun rejected he => ?_)
    (not_isEnding (c := s.control) hm)
  · rw [hc] at hactive
    cases hactive
  · have henq := h.enqueuer
    rw [show s.control.enqueuer = _ from he] at henq
    rw [show s.producer = _ from henq.2.1] at hactive
    cases hactive

theorem isOpen_of_enqueuer (h : Ok cfg s.control) (hnd : ¬s.Disturbed)
    (hactive : s.enqueuer.isActive = true) : s.IsOpen := by
  have henq := h.enqueuer
  have hfeeding : s.producer = .returned true ∧ s.main = .pipeline := by
    cases he : s.enqueuer <;> rw [show s.control.enqueuer = _ from he] at henq <;>
      first | exact henq.2 | (rw [he] at hactive; cases hactive)
  refine isOpen_of_ok h hnd (fun completed hp => ?_) (fun rejected he => ?_) ?_
  · rw [hfeeding.1] at hp
    cases hp
  · rw [he] at hactive
    cases hactive
  · rw [hfeeding.2]
    rfl

/-- **The steps of an undisturbed run lose no file.** -/
theorem smooth_of_sound (h : Sound cfg s) (htidy : s.Tidy) (hnd : ¬s.Disturbed)
    (hs : runStep cfg s l = some s') (hnd' : ¬s'.Disturbed) : Smooth cfg s l := by
  cases l with
  | main =>
    intro hm
    have hmain := h.ok.main
    rw [show s.control.main = _ from hm] at hmain
    exact hmain.1
  | settle =>
    intro hm
    have hmain := h.ok.main
    rw [show s.control.main = _ from hm] at hmain
    have henqueuer : s.enqueuer = .idle := hmain.2.1
    refine ⟨isOpen_of_ok h.ok hnd (fun completed hp => ?_) (fun rejected he => ?_) ?_, henqueuer⟩
    · simp only [runStep, settle, hm, hp] at hs
      cases hs
    · rw [henqueuer] at he
      cases he
    · rw [hm]
      rfl
  | producer =>
    intro hreturned
    apply isOpen_of_producer h.ok hnd
    cases hpc : s.producer with
    | waiting _ | preparing | checking _ | releasing _ | pushing _ _ | pushed _ => rfl
    | returned completed => exact absurd hpc (hreturned completed)
    | idle | settled _ =>
      simp only [runStep, producerStep, hpc] at hs
      cases hs
  | prepared window =>
    cases window with
    | some window => rfl
    | none =>
      simp only [runStep, prepared] at hs
      split at hs
      · cases hs
        exact absurd (.inl rfl) hnd'
      · cases hs
  | preflightDone peers =>
    intro window hpc
    by_contra hnone
    rw [Bool.not_eq_true, Option.isSome_eq_false_iff, Option.isNone_iff_eq_none] at hnone
    simp only [runStep, preflightDone, hpc, hnone] at hs
    cases hs
    exact hnd' (.inl rfl)
  | enqueuer =>
    apply isOpen_of_enqueuer h.ok hnd
    cases hpc : s.enqueuer with
    | pushing _ _ | pushed _ => rfl
    | idle | done _ =>
      simp only [runStep, enqueuerStep, hpc] at hs
      cases hs
  | worker w =>
    intro file hw
    have hfits := htidy w
    rw [hw] at hfits
    rcases hfits with hc | hthermal
    · exact hnd (.inl hc)
    · rcases h.ok.thermal hthermal with hc | hending
      · exact hnd (.inl hc)
      · have hpast : s.main.isPast = true := by
          change s.main.isEnding = true at hending
          cases hm : s.main <;> rw [hm] at hending <;> first | rfl | cases hending
        exact (h.drained hpast).not_working (w := w) ⟨fun _ _ => 1, by rw [hw]; exact Nat.one_pos⟩
  | uploaded w reply =>
    intro file acknowledgedBytes hw
    refine ⟨not_cancelled hnd, fun hreply => ?_⟩
    simp only [runStep, hw, finishUpload, hreply] at hs
    cases hs
    exact hnd' (.inl rfl)
  | cancel | thermalChanged _ | begun _ | thermalRead _ | pinged _ | acknowledged _ _ => trivial

/-! ## The end of the pipeline -/

/-- Outside the catch block, only the end of the pipeline leads past it. -/
theorem mainStep_past (hnd : ¬s.Disturbed) (hs : s.mainStep cfg = some s')
    (hpast : s'.main.isPast = true) : s.main.isPast = true := by
  have hfailing : s.main.isFailing = false := by
    rw [Bool.eq_false_iff]
    exact fun h => hnd (.inr (.inl h))
  cases hm : s.main with
  | startDiagnostics =>
    simp only [mainStep, hm] at hs
    cases hs
    cases hpast
  | logStarted =>
    simp only [mainStep, hm] at hs
    cases hs
    have hproducing := (startPipeline_feed cfg s).2
    cases hm' : (s.startPipeline cfg).main <;> rw [hm'] at hproducing hpast <;>
      first | (cases hproducing; done) | cases hpast
  | logPrepared | finish _ _ _ | history _ | logDone _ | cancelSession | endTransfer | metrics
  | finished => rfl
  | failFinish _ | failHistory _ | failLog _ =>
    rw [hm] at hfailing
    cases hfailing
  | beginTransfer | thermalState | ping | produce | pipeline =>
    simp only [mainStep, hm] at hs
    cases hs

/-- **How an undisturbed pipeline ends.** -/
theorem settle_past (hs : s.settle cfg = some s') (hpast : s'.main.isPast = true) :
    s' = { s with main := .logPrepared } ∧ (∀ w, s.workers w = .done) ∧
      ((cfg.policy.effectiveMode = .streaming ∧ ∃ completed, s.producer = .settled completed) ∨
        s.enqueuer = .done false) := by
  have hdone : ∀ preparedAll, (s.pipelineDone preparedAll).main.isPast = true →
      s.pipelineDone preparedAll = { s with main := .logPrepared } := by
    intro preparedAll h
    unfold pipelineDone at h ⊢
    split at h
    · cases h
    · split at h
      · rename_i hall
        rw [if_pos hall]
      · split at h <;> cases h
  unfold settle at hs
  split at hs
  · split at hs
    · cases hs
      rw [startFeeding_windows.2] at hpast
      cases hpast
    · cases hs
      unfold pipelineDone at hpast
      split at hpast
      · cases hpast
      · rw [if_neg Bool.false_ne_true] at hpast
        split at hpast <;> cases hpast
    · cases hs
  · split at hs
    · rename_i hmode
      split at hs
      · rename_i completed hp
        split at hs
        · rename_i hworkers
          cases hs
          exact ⟨hdone _ hpast, hworkers, .inl ⟨hmode, completed, hp⟩⟩
        · cases hs
      · cases hs
    · split at hs
      · cases hs
        cases hpast
      · rename_i he
        split at hs
        · rename_i hworkers
          cases hs
          exact ⟨hdone _ hpast, hworkers, .inr he⟩
        · cases hs
      · cases hs
  · cases hs

theorem finishUpload_main (w : Fin 2) (file : PreparedUploadFile) (acknowledgedBytes : Nat)
    (reply : UploadReply) : (s.finishUpload cfg w file acknowledgedBytes reply).main = s.main :=
  main_of_feed (finishUpload_feed w file acknowledgedBytes reply)

/-- **The pipeline is over when it is settled.** -/
theorem runStep_past (hnd : ¬s.Disturbed) (hnd' : ¬s'.Disturbed) (hs : runStep cfg s l = some s')
    (hpast : s'.main.isPast = true) : s.main.isPast = true ∨ s.settle cfg = some s' := by
  cases l with
  | cancel =>
    simp only [runStep] at hs
    split at hs
    · cases hs
    · cases hs
      exact .inl hpast
  | thermalChanged state =>
    cases hs
    exact .inl hpast
  | begun succeeds =>
    simp only [runStep] at hs
    split at hs
    · cases hs
      split at hpast
      · cases hpast
      · cases hpast
    · cases hs
  | thermalRead state =>
    simp only [runStep] at hs
    split at hs
    · cases hs
      split at hpast
      · cases hpast
      · cases hpast
    · cases hs
  | pinged succeeds =>
    simp only [runStep] at hs
    split at hs
    · cases hs
      split at hpast
      · cases hpast
      · cases hpast
    · cases hs
  | main => exact .inl (mainStep_past hnd hs hpast)
  | settle => exact .inr hs
  | producer =>
    left
    rcases producerStep_feed hs with hfeed | ⟨-, hfeed, -⟩
    · rwa [main_of_feed hfeed] at hpast
    · rwa [show s'.main = s.main from congrArg Prod.snd hfeed] at hpast
  | prepared window =>
    left
    rwa [main_of_feed (prepared_feed hs)] at hpast
  | preflightDone peers =>
    left
    rwa [main_of_feed (preflightDone_feed hs)] at hpast
  | enqueuer =>
    left
    rwa [(enqueuerStep_windows hs).2.1] at hpast
  | worker w =>
    left
    rwa [main_of_feed (workerStep_feed hs)] at hpast
  | acknowledged w reportedBytes =>
    simp only [runStep] at hs
    split at hs
    · cases hs
      exact .inl hpast
    · cases hs
  | uploaded w reply =>
    simp only [runStep] at hs
    split at hs
    · cases hs
      left
      rwa [finishUpload_main] at hpast
    · cases hs

/-- The tasks of a settled pipeline hold no file. -/
theorem drained_of_settle (h : Sound cfg s) (htidy : s.Tidy) (hnd : ¬s.Disturbed)
    (hs : s.settle cfg = some s') (hpast : s'.main.isPast = true) : s'.Drained := by
  obtain ⟨rfl, hworkers, hend⟩ := settle_past hs hpast
  have henqueuer := h.ok.enqueuer
  have hquiet : s.producer.isActive = false ∧ s.enqueuer.isActive = false ∧
    s.preparedWindows = [] := by
    rcases hend with ⟨hmode, completed, hp⟩ | he
    · refine ⟨by rw [hp]; rfl, ?_, h.streaming hmode⟩
      cases he : s.enqueuer with
      | idle => rfl
      | pushing _ _ | pushed _ | done _ =>
        rw [show s.control.enqueuer = _ from he] at henqueuer
        exact absurd hmode henqueuer.1
    · rw [show s.control.enqueuer = _ from he] at henqueuer
      refine ⟨?_, by rw [he]; rfl, h.feeding (by rw [he]; exact EnqueuerPc.noConfusion)⟩
      rw [show s.producer = _ from henqueuer.2.1]
      rfl
  have hitems : s.queue.items = [] := by
    have hfits := htidy 0
    rw [hworkers 0] at hfits
    rcases hfits with (hc | hthermal) | hexhausted
    · exact absurd (.inl hc) hnd
    · rcases h.ok.thermal hthermal with hc | hending
      · exact absurd (.inl hc) hnd
      · exfalso
        have hm : s.main = .pipeline ∨ s.main = .produce := by
          unfold settle at hs
          split at hs
          · rename_i hm
            exact .inr hm
          · rename_i hm
            exact .inl hm
          · cases hs
        change s.main.isEnding = true at hending
        rcases hm with hm | hm <;> rw [hm] at hending <;> cases hending
    · exact hexhausted.2
  obtain ⟨hproducer, henq, hwindows⟩ := hquiet
  obtain ⟨hfiles, hunchecked⟩ := ProducerPc.files_of_quiet hproducer
  refine ⟨fun g => ?_, hunchecked⟩
  simp only [load, hfiles, hwindows, EnqueuerPc.files_of_quiet henq, hitems, hworkers,
    List.flatten_nil, filesWeight_nil, WorkerPc.load]

/-- A step keeps the tasks without files when the producer is quiet. -/
theorem Drained.step (h : s.Drained) (hquiet : s.producer.isActive = false)
    (hl : LedgerStep cfg s l s') : s'.Drained := by
  cases hl with
  | carried hcarries =>
    refine ⟨fun g => Nat.le_zero.mp ((hcarries.load_le g).trans (h.load g).le), ?_⟩
    rcases hcarries.unchecked with heq | hnil
    · exact heq.trans h.unchecked
    · exact hnil
  | prepared hpc =>
    rw [hpc] at hquiet
    cases hquiet
  | preflight hpc =>
    rw [hpc] at hquiet
    cases hquiet
  | counted hpc =>
    rw [hpc] at hquiet
    cases hquiet
  | skipped hw | refused hw | acknowledged hw | saved hw | verified hw | failed hw =>
    exact (h.not_working ⟨fun _ _ => 1, by rw [hw]; exact Nat.one_pos⟩).elim
  | concluded _ _ hproducer _ hrecords =>
    exact ⟨fun g => (hrecords.load g).trans (h.load g), by rw [hproducer]; exact h.unchecked⟩
  | completed _ _ hproducer _ hrecords =>
    exact ⟨fun g => (hrecords.load g).trans (h.load g), by rw [hproducer]; exact h.unchecked⟩

/-- The producer of an undisturbed run is quiet when the pipeline is over. -/
theorem Sound.quiet (h : Sound cfg s) (hpast : s.main.isPast = true) :
    s.producer.isActive = false := by
  have hproducing : s.main.isProducing = false := by
    cases hm : s.main <;> rw [hm] at hpast <;> first | rfl | cases hpast
  rcases (h.ok.quiet hproducing).1 with hpc | ⟨completed, hpc⟩ | ⟨completed, hpc⟩ <;>
    rw [show s.producer = _ from hpc] <;> rfl

/-- **A step of an undisturbed run.** -/
theorem Sound.step (h : Sound cfg s) (hp : s.Parked) (htidy : s.Tidy) (hnd : ¬s.Disturbed)
    (hs : runStep cfg s l = some s') (hnd' : ¬s'.Disturbed) : Sound cfg s' where
  ok := ok_step h.ok hs hnd'
  streaming hmode := by
    rcases runStep_windows hs with hsame | hnil | ⟨hsame, -⟩ | ⟨hnot, -⟩
    · exact hsame.1.trans (h.streaming hmode)
    · exact hnil
    · exact hsame.trans (h.streaming hmode)
    · exact absurd hmode hnot
  feeding hactive := by
    rcases runStep_windows hs with hsame | hnil | ⟨hsame, hactive⟩ | ⟨-, hsame, files, hpc⟩
    · exact hsame.1.trans (h.feeding (hsame.2 ▸ hactive))
    · exact hnil
    · exact hsame.trans (h.feeding hactive)
    · exfalso
      rw [hsame] at hactive
      have henqueuer := h.ok.enqueuer
      have hproducer : s.producer = .returned true := by
        cases he : s.enqueuer with
        | idle => exact absurd he hactive
        | pushing _ _ | pushed _ | done _ =>
          rw [show s.control.enqueuer = _ from he] at henqueuer
          exact henqueuer.2.1
      rw [hpc] at hproducer
      cases hproducer
  drained hpast := by
    rcases runStep_past hnd hnd' hs hpast with hbefore | hsettle
    · exact (h.drained hbefore).step (h.quiet hbefore) (runStep_ledger hp hs)
    · exact drained_of_settle h htidy hnd hsettle hpast

theorem start_sound (cfg : UploadConfig) : Sound cfg (UploadRun.start cfg) where
  ok := start_ok cfg
  streaming _ := rfl
  feeding _ := rfl
  drained h := nomatch h

/-- **What holds in every run.** -/
structure Orderly (cfg : UploadConfig) (s : UploadRun) : Prop where
  parked : s.Parked
  tidy : s.Tidy
  sound : ¬s.Disturbed → Sound cfg s

theorem Orderly.step (h : Orderly cfg s) (hs : runStep cfg s l = some s') : Orderly cfg s' := by
  have hledger := runStep_ledger h.parked hs
  refine ⟨hledger.parked h.parked, runStep_tidy h.parked h.tidy hs, fun hnd' => ?_⟩
  have hnd : ¬s.Disturbed := fun hd => hnd' (hledger.disturbed hd)
  exact (h.sound hnd).step h.parked h.tidy hnd hs hnd'

theorem orderly_of_run {ok : UploadRun → RunLabel → Prop}
    (hrun : Run (runStep cfg) ok (UploadRun.start cfg) t) : Orderly cfg t := by
  refine hrun.invariant (I := Orderly cfg) ⟨start_parked cfg, ?_, fun _ => start_sound cfg⟩ ?_
  · exact fun w => trivial
  · exact fun s l s' h _ hs => h.step hs

/-- A step of an undisturbed run, and what it does to the files. -/
theorem Orderly.smooth (h : Orderly cfg s) (hs : runStep cfg s l = some s') (hnd' : ¬s'.Disturbed) :
    ¬s.Disturbed ∧ Smooth cfg s l := by
  have hnd : ¬s.Disturbed := fun hd => hnd' ((runStep_ledger h.parked hs).disturbed hd)
  exact ⟨hnd, smooth_of_sound (h.sound hnd) h.tidy hnd hs hnd'⟩

end UploadRun

end LocalMediaTransfer
