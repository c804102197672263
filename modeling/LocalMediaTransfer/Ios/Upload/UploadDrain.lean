import LocalMediaTransfer.Ios.Upload.UploadLedger

/-!
# The workers leave an empty queue

A worker that is not stopped by a cancel or by the thermal controller returns when `shift` gives it
null, and then no file is left in the queue.

* `Winding` — the run was cancelled, or its finally block has run.
* `WorkerPc.Fits`, `Tidy` — what the await of a worker tells about the queue and about its file.
* `runStep_tidy`, `tidy_of_run` — every step keeps it.
-/

set_option autoImplicit false

namespace LocalMediaTransfer

open Lib UploadRun

/-- What is to be given up is given up: the workers may leave files behind. -/
def UploadRun.Winding (s : UploadRun) : Prop :=
  s.isCancelled = true ∨ s.thermal.cancelled = true

/-- Nothing comes out of the queue any more. -/
def UploadRun.Exhausted (s : UploadRun) : Prop :=
  s.queue.closed = true ∧ s.queue.items = []

/-- A worker that leaves was stopped or finds the queue exhausted; a file that is sent was
planned. -/
def WorkerPc.Fits (s : UploadRun) : WorkerPc → Prop
  | .uploading file _ => isPlanned file = true
  | .received none | .done => s.Winding ∨ s.Exhausted
  | .admitted _ false | .releasing true => s.Winding
  | _ => True

theorem WorkerPc.Fits.mono {s s' : UploadRun} {pc : WorkerPc} (h : pc.Fits s)
    (hwinding : s.Winding → s'.Winding) (hqueue : s.Exhausted → s'.Exhausted) : pc.Fits s' := by
  unfold WorkerPc.Fits at h ⊢
  split
  · exact h
  · exact h.imp hwinding hqueue
  · exact h.imp hwinding hqueue
  · exact hwinding h
  · exact hwinding h
  · trivial

namespace UploadRun

def Tidy (s : UploadRun) : Prop := ∀ w, (s.workers w).Fits s

variable {cfg : UploadConfig} {s s' : UploadRun}

theorem Tidy.of_eq {t : UploadRun} (h : s.Tidy) (hqueue : t.queue = s.queue)
    (hworkers : t.workers = s.workers)
    (hwinding : s.Winding → t.Winding) : t.Tidy := by
  intro w
  rw [hworkers]
  refine (h w).mono hwinding fun hexhausted => ?_
  unfold Exhausted
  rw [hqueue]
  exact hexhausted

theorem Tidy.setWorker (h : s.Tidy) {w : Fin 2} {pc : WorkerPc} (hpc : pc.Fits s) :
    (s.setWorker w pc).Tidy := by
  intro v
  have hv : (Function.update s.workers w pc v).Fits s := by
    by_cases heq : v = w
    · subst heq
      rw [Function.update_self]
      exact hpc
    · rw [Function.update_of_ne heq]
      exact h v
  exact hv.mono id id

/-- A queue from which a file can be taken is not exhausted. -/
theorem Tidy.setQueue (h : s.Tidy) {queue : ReadyQueue} (hqueue : ¬s.Exhausted) :
    ({ s with queue } : UploadRun).Tidy :=
  fun w => (h w).mono id fun hexhausted => absurd hexhausted hqueue

theorem not_exhausted (h : s.queue.closed = false) : ¬s.Exhausted := by
  intro hexhausted
  rw [hexhausted.1] at h
  cases h

/-! ## The queue -/

theorem closeQueue_tidy (hp : s.Parked) (h : s.Tidy) : s.closeQueue.Tidy := by
  intro w
  have hclosed : s.closeQueue.queue.closed = true := s.queue.close_closed
  have hitems : s.closeQueue.queue.items = s.queue.items := s.queue.close_items
  have hw : s.closeQueue.workers w = .received none ∧ s.queue.items = [] ∨
      s.closeQueue.workers w = s.workers w := by
    by_cases hwaits : s.queue.closed = false ∧ w ∈ s.queue.waitingConsumers
    · refine .inl ⟨?_, hp.empty (List.ne_nil_of_mem hwaits.2)⟩
      unfold closeQueue
      exact if_pos hwaits
    · right
      unfold closeQueue
      exact if_neg hwaits
  rcases hw with ⟨hnone, hempty⟩ | hsame
  · rw [hnone]
    exact .inr ⟨hclosed, hitems.trans hempty⟩
  · rw [hsame]
    exact (h w).mono id fun hexhausted => ⟨hclosed, hitems.trans hexhausted.2⟩

theorem cancel_tidy (hp : s.Parked) (h : s.Tidy) : s.cancel.Tidy := by
  unfold cancel
  apply closeQueue_tidy
  · exact hp.of_eq rfl rfl id
  · exact h.of_eq rfl rfl fun _ => .inl rfl

theorem push_tidy {feeder : Feeder} {file : PreparedUploadFile} {suspended : Bool} (h : s.Tidy)
    (hs : s.push feeder file = some (s', suspended)) : s'.Tidy := by
  have hopen := not_exhausted (push_control hs).2
  unfold push at hs
  rcases s.queue.push_cases file feeder with ⟨-, -, heq⟩ | ⟨-, heq⟩ | ⟨-, -, consumer,
    waiting, -, heq⟩ |
    ⟨-, -, -, heq⟩ <;> rw [heq] at hs <;> cases hs
  · exact h.setQueue hopen
  · exact (h.setQueue hopen).setWorker trivial
  · exact h.setQueue hopen

/-! ## The workers -/

theorem workerLoop_tidy (h : s.Tidy) (w : Fin 2) : (s.workerLoop w).Tidy := by
  unfold workerLoop
  split
  · rename_i hc
    exact h.setWorker (.inl (.inl hc))
  · rcases s.queue.shift_cases w with ⟨file, items, hitems, heq⟩ | ⟨hitems, hclosed, heq⟩ |
      ⟨-, hopen, heq⟩ <;> rw [heq]
    · have hexhausted : ¬s.Exhausted := by
        intro hexhausted
        rw [hexhausted.2] at hitems
        cases hitems
      exact (h.setQueue hexhausted).setWorker trivial
    · exact h.setWorker (.inr ⟨hclosed, hitems⟩)
    · exact (h.setQueue (not_exhausted hopen)).setWorker trivial

theorem startWorkers_tidy (h : s.Tidy) : s.startWorkers.Tidy :=
  workerLoop_tidy (workerLoop_tidy h 0) 1

theorem processFile_tidy (h : s.Tidy) (w : Fin 2) (file : PreparedUploadFile) :
    (s.processFile w file).Tidy := by
  unfold processFile
  split
  · exact (h.of_eq (t := ({ s with outcomes := _ } : UploadRun).report _) rfl rfl id).setWorker
      trivial
  · rename_i hskip
    split
    · exact (h.of_eq (t := ({ s with outcomes := _ } : UploadRun).report _) rfl rfl id).setWorker
        trivial
    · rename_i hnone
      refine (h.of_eq (t := s.report _) rfl rfl id).setWorker ?_
      show isPlanned file = true
      simp [isPlanned, hskip, hnone]

theorem workerStep_tidy (h : s.Tidy) {w : Fin 2} (hs : s.workerStep w = some s') : s'.Tidy := by
  have hfits := h w
  unfold workerStep at hs
  split at hs
  · rename_i hw
    cases hs
    rw [hw] at hfits
    exact h.setWorker hfits
  · cases hs
    exact h.setWorker trivial
  · obtain ⟨admits, hadmits, rfl⟩ := Option.map_eq_some_iff.mp hs
    refine h.setWorker ?_
    cases admits with
    | true => trivial
    | false =>
      have heq := ThermalController.waitForUpload_eq_some _ hadmits
      exact .inr (by simpa using heq.symm)
  · rename_i file admits hw
    cases hs
    cases admits with
    | true => exact processFile_tidy h w file
    | false =>
      rw [hw] at hfits
      exact h.setWorker (.inl hfits)
  · rename_i exits hw
    cases hs
    cases exits with
    | true =>
      rw [hw] at hfits
      exact h.setWorker (.inl hfits)
    | false => exact workerLoop_tidy h w
  · cases hs

theorem finishUpload_tidy (hp : s.Parked) (h : s.Tidy) (w : Fin 2) (file : PreparedUploadFile)
    (acknowledgedBytes : Nat) (reply : UploadReply) :
    (s.finishUpload cfg w file acknowledgedBytes reply).Tidy := by
  unfold finishUpload
  split
  · exact (h.of_eq (t := ({ s with outcomes := _ } : UploadRun).report _) rfl rfl id).setWorker
      trivial
  · exact (h.of_eq (t := ({ s with outcomes := _ } : UploadRun).report _) rfl rfl id).setWorker
      trivial
  · rename_i error _
    split
    · have hcancel : ({ s with fatalError := some error } : UploadRun).cancel.Tidy :=
        cancel_tidy (hp.of_eq rfl rfl id) (h.of_eq rfl rfl id)
      exact hcancel.setWorker (.inl rfl)
    · split
      · rename_i hc
        exact h.setWorker (.inl hc)
      · exact (h.of_eq (t := ({ s with outcomes := _, plannedUploadMediaBytes := _ } :
          UploadRun).report _) rfl rfl id).setWorker trivial

/-! ## The producer and the enqueuer -/

theorem producerFail_tidy (hp : s.Parked) (h : s.Tidy) (error : RunError) :
    (s.producerFail error).Tidy := by
  have hcancel : ({ s with fatalError := (s.producerFail error).fatalError } :
    UploadRun).cancel.Tidy :=
    cancel_tidy (hp.of_eq rfl rfl id) (h.of_eq rfl rfl id)
  exact hcancel.of_eq rfl rfl id

theorem producerLoop_tidy (h : s.Tidy) : (s.producerLoop cfg).Tidy := by
  obtain ⟨pc, heq, -⟩ := producerLoop_eq cfg s
  rw [heq]
  exact h.of_eq rfl rfl id

theorem nextWindow_tidy (h : s.Tidy) : (s.nextWindow cfg).Tidy := by
  unfold nextWindow
  apply producerLoop_tidy
  exact h.of_eq rfl rfl id

theorem producerPush_tidy (hp : s.Parked) (h : s.Tidy) (file : PreparedUploadFile)
    (rest : List PreparedUploadFile) : (s.producerPush file rest).Tidy := by
  unfold producerPush
  split
  · exact producerFail_tidy hp h .other
  · rename_i t hpush
    exact (push_tidy h hpush).of_eq rfl rfl id
  · rename_i t hpush
    exact (push_tidy h hpush).of_eq rfl rfl id

theorem pushFiles_tidy (hp : s.Parked) (h : s.Tidy) (files : List PreparedUploadFile) :
    (s.pushFiles cfg files).Tidy := by
  unfold pushFiles
  split
  · exact nextWindow_tidy h
  · split
    · exact nextWindow_tidy h
    · exact producerPush_tidy hp h _ _

theorem producerStep_tidy (hp : s.Parked) (h : s.Tidy) (hs : s.producerStep cfg = some s') :
    s'.Tidy := by
  unfold producerStep at hs
  split at hs
  · cases hs
    exact h.of_eq rfl rfl id
  · cases hs
    unfold enqueueWindow
    split
    · apply pushFiles_tidy
      · exact hp.of_eq rfl rfl id
      · exact h.of_eq rfl rfl id
    · apply nextWindow_tidy
      exact h.of_eq rfl rfl id
  · split at hs
    · cases hs
    · cases hs
      exact producerPush_tidy hp h _ _
  · cases hs
    exact pushFiles_tidy hp h _
  · rename_i completed _
    split at hs
    · cases hs
      have hclosed : (if completed then s.finishPreparation else s).closeQueue.Tidy := by
        split
        · exact closeQueue_tidy (hp.of_eq rfl rfl id) (h.of_eq rfl rfl id)
        · exact closeQueue_tidy hp h
      exact hclosed.of_eq rfl rfl id
    · cases hs
  · cases hs

theorem enqueuerReturn_tidy (hp : s.Parked) (h : s.Tidy) (rejected : Bool) :
    (s.enqueuerReturn rejected).Tidy :=
  (closeQueue_tidy hp h).of_eq rfl rfl id

theorem enqueuerPush_tidy (hp : s.Parked) (h : s.Tidy) (file : PreparedUploadFile)
    (rest : List PreparedUploadFile) : (s.enqueuerPush file rest).Tidy := by
  unfold enqueuerPush
  split
  · exact enqueuerReturn_tidy hp h true
  · rename_i t hpush
    exact (push_tidy h hpush).of_eq rfl rfl id
  · rename_i t hpush
    exact (push_tidy h hpush).of_eq rfl rfl id

theorem enqueueFiles_tidy (hp : s.Parked) (h : s.Tidy) (files : List PreparedUploadFile) :
    (s.enqueueFiles files).Tidy := by
  unfold enqueueFiles
  split
  · exact enqueuerReturn_tidy hp h false
  · split
    · exact enqueuerReturn_tidy hp h false
    · exact enqueuerPush_tidy hp h _ _

theorem enqueuerStep_tidy (hp : s.Parked) (h : s.Tidy)
    (hs : s.enqueuerStep = some s') : s'.Tidy := by
  unfold enqueuerStep at hs
  split at hs
  · split at hs
    · cases hs
    · cases hs
      exact enqueuerPush_tidy hp h _ _
  · cases hs
    exact enqueueFiles_tidy hp h _
  · cases hs

/-! ## The function itself -/

theorem cleanUp_tidy (hp : s.Parked) (h : s.Tidy) : s.cleanUp.Tidy := by
  have hclosed : ({ s with thermal := s.thermal.cancel } : UploadRun).closeQueue.Tidy :=
    closeQueue_tidy (hp.of_eq rfl rfl id) (h.of_eq rfl rfl fun _ => .inr rfl)
  exact hclosed.of_eq rfl rfl id

theorem finallyBlock_tidy (hp : s.Parked) (h : s.Tidy) : s.finallyBlock.Tidy := by
  unfold finallyBlock
  split
  · exact h.of_eq rfl rfl id
  · exact cleanUp_tidy hp h

theorem pipelineDone_tidy (h : s.Tidy) (preparedAll : Bool) :
    (s.pipelineDone preparedAll).Tidy := by
  unfold pipelineDone
  split
  · exact h.of_eq rfl rfl id
  · split
    · exact h.of_eq rfl rfl id
    · split
      · exact h.of_eq rfl rfl id
      · exact h.of_eq rfl rfl id

theorem settle_tidy (hp : s.Parked) (h : s.Tidy) (hs : s.settle cfg = some s') : s'.Tidy := by
  unfold settle at hs
  split at hs
  · split at hs
    · cases hs
      apply startWorkers_tidy
      apply enqueueFiles_tidy
      · exact hp.of_eq rfl rfl nofun
      · exact h.of_eq rfl rfl id
    · cases hs
      exact pipelineDone_tidy h _
    · cases hs
  · split at hs
    · split at hs
      · split at hs
        · cases hs
          exact pipelineDone_tidy h _
        · cases hs
      · cases hs
    · split at hs
      · cases hs
        exact h.of_eq rfl rfl id
      · split at hs
        · cases hs
          exact pipelineDone_tidy h _
        · cases hs
      · cases hs
  · cases hs

theorem conclude_tidy (h : s.Tidy) : (s.conclude cfg).Tidy := by
  have htasks : SameTasks s (if s.isCancelled then s else s.markMissing cfg) := by
    split
    · exact ⟨fun _ => rfl, rfl, rfl, rfl, rfl, rfl, rfl, rfl⟩
    · exact (markMissing_spec cfg s).1
  have hthermal : (if s.isCancelled then s else s.markMissing cfg).thermal.cancelled =
      s.thermal.cancelled := by
    split
    · rfl
    · exact congrArg RunControl.thermalCancelled markMissing_control
  have hmarked : (if s.isCancelled then s else s.markMissing cfg).Tidy := by
    refine h.of_eq htasks.queue htasks.workers fun hwinding => ?_
    unfold Winding
    rw [htasks.isCancelled, hthermal]
    exact hwinding
  exact hmarked.of_eq rfl rfl id

theorem mainStep_tidy (hp : s.Parked) (h : s.Tidy) (hs : s.mainStep cfg = some s') : s'.Tidy := by
  unfold mainStep at hs
  split at hs
  · cases hs
    exact h.of_eq rfl rfl id
  · cases hs
    unfold startPipeline
    split
    · apply startWorkers_tidy
      apply producerLoop_tidy
      exact h.of_eq rfl rfl id
    · apply producerLoop_tidy
      exact h.of_eq rfl rfl id
  · cases hs
    exact conclude_tidy h
  · cases hs
    exact h.of_eq rfl rfl id
  · cases hs
    exact h.of_eq rfl rfl id
  · cases hs
    split
    · exact finallyBlock_tidy hp h
    · exact finallyBlock_tidy (hp.of_eq rfl rfl id) (h.of_eq rfl rfl id)
  · cases hs
    split
    · exact h.of_eq rfl rfl id
    · exact h.of_eq rfl rfl id
  · cases hs
    exact h.of_eq rfl rfl id
  · cases hs
    split
    · exact finallyBlock_tidy (hp.of_eq rfl rfl id) (h.of_eq rfl rfl id)
    · exact finallyBlock_tidy hp h
  · cases hs
    exact cleanUp_tidy hp h
  · cases hs
    exact h.of_eq rfl rfl id
  · cases hs
    exact h.of_eq rfl rfl id
  · cases hs

theorem recordWindow_tidy (h : s.Tidy) (window : PreparedWindow) :
    (s.recordWindow cfg window).Tidy := by
  have hcontrol : (s.recordWindow cfg window).control = _ := recordWindow_control window
  obtain ⟨htasks, -⟩ := foldl_markPreparationFailure window.failures { s with
    preparedFiles := s.preparedFiles + (s.windowAssets cfg).length
    readyFiles := s.readyFiles + window.files.length }
  refine h.of_eq htasks.queue htasks.workers fun hwinding => ?_
  unfold Winding
  rw [show (s.recordWindow cfg window).isCancelled = s.isCancelled from
      congrArg RunControl.isCancelled hcontrol,
    show (s.recordWindow cfg window).thermal.cancelled = s.thermal.cancelled from
      congrArg RunControl.thermalCancelled hcontrol]
  exact hwinding

/-- **Every step keeps the workers tidy.** -/
theorem runStep_tidy {l : RunLabel} (hp : s.Parked) (h : s.Tidy) (hs : runStep cfg s l = some s') :
    s'.Tidy := by
  cases l with
  | cancel =>
    simp only [runStep] at hs
    split at hs
    · cases hs
    · cases hs
      exact cancel_tidy hp h
  | thermalChanged state =>
    cases hs
    exact h.of_eq rfl rfl id
  | begun succeeds =>
    simp only [runStep] at hs
    split at hs
    · cases hs
      split
      · exact h.of_eq rfl rfl id
      · exact h.of_eq rfl rfl id
    · cases hs
  | thermalRead state =>
    simp only [runStep] at hs
    split at hs
    · cases hs
      split
      · exact h.of_eq rfl rfl id
      · exact h.of_eq rfl rfl id
    · cases hs
  | pinged succeeds =>
    simp only [runStep] at hs
    split at hs
    · cases hs
      split
      · exact h.of_eq rfl rfl id
      · exact h.of_eq rfl rfl id
    · cases hs
  | main => exact mainStep_tidy hp h hs
  | settle => exact settle_tidy hp h hs
  | producer => exact producerStep_tidy hp h hs
  | prepared window =>
    simp only [runStep, prepared] at hs
    split at hs
    · split at hs
      · cases hs
        exact producerFail_tidy hp h _
      · cases hs
        split
        · exact h.of_eq rfl rfl id
        · exact recordWindow_tidy h _
    · cases hs
  | preflightDone peers =>
    simp only [runStep, preflightDone] at hs
    split at hs
    · split at hs
      · cases hs
        exact producerFail_tidy hp h _
      · cases hs
        exact h.of_eq rfl rfl id
    · cases hs
  | enqueuer => exact enqueuerStep_tidy hp h hs
  | worker w => exact workerStep_tidy h hs
  | acknowledged w reportedBytes =>
    simp only [runStep] at hs
    split at hs
    · rename_i file acknowledgedBytes hw
      cases hs
      have hfits := h w
      rw [hw] at hfits
      exact (h.of_eq (t := { s with uploadedMediaBytes := _ }) rfl rfl id).setWorker hfits
    · cases hs
  | uploaded w reply =>
    simp only [runStep] at hs
    split at hs
    · cases hs
      exact finishUpload_tidy hp h w _ _ reply
    · cases hs

end UploadRun

end LocalMediaTransfer
