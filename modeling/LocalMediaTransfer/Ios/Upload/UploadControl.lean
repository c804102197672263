import LocalMediaTransfer.Ios.Upload.UploadRun

/-!
# The control state of an upload run

How a run is reported depends on where its tasks stand and on what was cancelled, closed or thrown,
not on the files.  `RunControl` is that part of the state, and the operations of the run act on it.

* `UploadRun.control` — the control state of a run.
* `push_control`, `workerStep_control`, `finishUpload_control`, … — what the operations do to it.
-/

set_option autoImplicit false

namespace LocalMediaTransfer

open Lib

/-- The reports that concern the run as a whole. -/
def RunEvent.isFinal : RunEvent → Bool
  | .history _ | .complete _ | .error _ => true
  | _ => false

structure RunControl where
  main : MainPc
  producer : ProducerPc
  enqueuer : EnqueuerPc
  isCancelled : Bool
  closed : Bool
  thermalCancelled : Bool
  fatalError : Option RunError
  startIndex : Nat
  preparedFiles : Nat
  diagnostics : Option TransferCompletionStatus
  reports : List RunEvent

namespace UploadRun

def control (s : UploadRun) : RunControl :=
  { main := s.main
    producer := s.producer
    enqueuer := s.enqueuer
    isCancelled := s.isCancelled
    closed := s.queue.closed
    thermalCancelled := s.thermal.cancelled
    fatalError := s.fatalError
    startIndex := s.startIndex
    preparedFiles := s.preparedFiles
    diagnostics := s.diagnostics
    reports := s.log.filter (·.isFinal) }

variable {cfg : UploadConfig} {s s' : UploadRun}

/-! ## Reports and the queue -/

@[simp] theorem control_setWorker (w : Fin 2) (pc : WorkerPc) :
    (s.setWorker w pc).control = s.control := rfl

theorem control_report {event : RunEvent} (h : event.isFinal = false) :
    (s.report event).control = s.control := by
  simp [control, report, h]

theorem control_report_final {event : RunEvent} (h : event.isFinal = true) :
    (s.report event).control = { s.control with reports := s.control.reports ++ [event] } := by
  simp [control, report, h]

@[simp] theorem control_closeQueue : s.closeQueue.control = { s.control with closed := true } := by
  simp [control, closeQueue]

theorem control_cancel : s.cancel.control =
    { s.control with isCancelled := true, closed := true, thermalCancelled := true } := by
  unfold cancel
  rw [control_closeQueue]
  simp [control, RunEvent.isFinal]

theorem push_control {feeder : Feeder} {file : PreparedUploadFile} {suspended : Bool}
    (h : s.push feeder file = some (s', suspended)) :
    s'.control = s.control ∧ s.queue.closed = false := by
  unfold push at h
  rcases s.queue.push_cases file feeder with ⟨hopen, -, heq⟩ | ⟨-, heq⟩ |
    ⟨hopen, -, consumer, waiting, -, heq⟩ | ⟨hopen, -, -, heq⟩ <;> rw [heq] at h <;> cases h
  · exact ⟨rfl, hopen⟩
  · exact ⟨rfl, hopen⟩
  · exact ⟨rfl, hopen⟩

theorem push_eq_none {feeder : Feeder} {file : PreparedUploadFile} (h : s.push feeder file = none) :
    s.queue.closed = true := by
  unfold push at h
  rcases s.queue.push_cases file feeder with ⟨-, -, heq⟩ | ⟨hclosed, -⟩ | ⟨-, -, _, _, -, heq⟩ |
    ⟨-, -, -, heq⟩
  · rw [heq] at h
    cases h
  · exact hclosed
  · rw [heq] at h
    cases h
  · rw [heq] at h
    cases h

/-! ## The workers -/

theorem workerLoop_control (w : Fin 2) : (s.workerLoop w).control = s.control := by
  unfold workerLoop
  split
  · rfl
  · rcases s.queue.shift_cases w with ⟨file, items, -, heq⟩ | ⟨-, -, heq⟩ | ⟨-, -, heq⟩ <;>
      rw [heq] <;> rfl

theorem startWorkers_control : s.startWorkers.control = s.control :=
  (workerLoop_control 1).trans (workerLoop_control 0)

theorem processFile_control (w : Fin 2) (file : PreparedUploadFile) :
    (s.processFile w file).control = s.control := by
  unfold processFile
  split
  · rw [control_setWorker]
    exact control_report rfl
  · split
    · rw [control_setWorker]
      exact control_report rfl
    · rw [control_setWorker]
      exact control_report rfl

theorem finishUpload_control {w : Fin 2} {file : PreparedUploadFile} {acknowledged : Nat}
    {reply : UploadReply} (h : reply ≠ .failed .unauthorized) :
    (s.finishUpload cfg w file acknowledged reply).control = s.control := by
  have hreply : effectiveReply cfg file reply ≠ .failed .unauthorized := by
    unfold effectiveReply
    split
    · exact fun heq => by cases heq
    · exact h
  unfold finishUpload
  split
  · rw [control_setWorker]
    exact control_report rfl
  · rw [control_setWorker]
    exact control_report rfl
  · rename_i error heq
    split
    · rename_i hunauthorized
      cases error with
      | unauthorized => exact absurd heq hreply
      | failure value => cases hunauthorized
      | other => cases hunauthorized
    · split
      · rfl
      · rw [control_setWorker]
        exact control_report rfl

theorem workerStep_control {w : Fin 2} (h : s.workerStep w = some s') : s'.control = s.control := by
  unfold workerStep at h
  split at h
  · cases h
    rfl
  · cases h
    rfl
  · obtain ⟨admits, -, rfl⟩ := Option.map_eq_some_iff.mp h
    rfl
  · cases h
    split
    · exact processFile_control ..
    · rfl
  · cases h
    split
    · rfl
    · exact workerLoop_control _
  · cases h

/-! ## Preparation failures -/

theorem markPreparationFailure_control (asset : MediaAsset) (itemId : String)
    (code : TransferErrorCode) :
    (s.markPreparationFailure asset itemId code).control = s.control := by
  unfold markPreparationFailure
  split
  split
  · exact control_report rfl
  · rfl

theorem markMissing_control : (s.markMissing cfg).control = s.control := by
  unfold markMissing
  refine List.foldlRecOn cfg.assets _ (motive := fun t : UploadRun => t.control = s.control) rfl
    fun t ht asset _ => ?_
  split
  · exact ht
  · exact (markPreparationFailure_control ..).trans ht

theorem recordWindow_control (window : PreparedWindow) : (s.recordWindow cfg window).control =
    { s.control with
      producer := .checking window
      preparedFiles := s.preparedFiles + (s.windowAssets cfg).length } := by
  have hfailures : ∀ (failures : List PreparationFailure) (t : UploadRun),
      (failures.foldl (fun s failure => s.markPreparationFailure failure.asset failure.itemId
        failure.code) t).control = t.control := by
    intro failures t
    refine List.foldlRecOn failures _ (motive := fun u : UploadRun => u.control = t.control) rfl
      fun u hu failure _ => ?_
    exact (markPreparationFailure_control ..).trans hu
  have hcontrol := hfailures window.failures { s with
    preparedFiles := s.preparedFiles + (s.windowAssets cfg).length
    readyFiles := s.readyFiles + window.files.length }
  unfold recordWindow
  exact congrArg (fun c : RunControl => { c with producer := .checking window }) hcontrol

end UploadRun

end LocalMediaTransfer
