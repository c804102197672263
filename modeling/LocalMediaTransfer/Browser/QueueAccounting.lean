import LocalMediaTransfer.Browser.UploadRuns

/-!
# The outcomes of the browser queue

* `Counted` — the invariant of the counters.
* `SparesFailed` — the preflight of a run skips no file that failed in an earlier one.
* `queue_accounting` — the counters and the submitted history after each run that meets it.
-/

set_option autoImplicit false

namespace LocalMediaTransfer.Browser

open Lib

/-- The worker retries a file that failed in an earlier run. -/
def Worker.retries : Worker → Bool
  | .uploading _ wasFailedBefore => wasFailedBefore
  | _ => false

def QueuedFile.succeeded (file : QueuedFile) : Bool := file.done && !file.failed

namespace UploadManager

variable {s s' : UploadManager} {w index : Nat} {file : QueuedFile}

structure Counted (s : UploadManager) : Prop where
  success : s.successCount = s.fileQueue.countP QueuedFile.succeeded
  errors : s.errorCount = s.fileQueue.countP (·.failed) + s.workers.countP (·.retries)
  clean : ∀ file ∈ s.fileQueue, file.done = false ∨ file.failed = true → file.isSkipped = false
  total : s.totalBytes = (s.fileQueue.map (·.size)).sum

/-- The preflight skips no file that failed in an earlier run. -/
def SparesFailed (s : UploadManager) : QueueAction → Prop
  | .preflight answers =>
    answers.throws s.fileQueue = true ∨
      ∀ file ∈ s.fileQueue, file.failed = true → answers.skip? file = none
  | _ => True

instance (s : UploadManager) : (l : QueueAction) → Decidable (SparesFailed s l)
  | .preflight answers => inferInstanceAs (Decidable (answers.throws s.fileQueue = true ∨
      ∀ file ∈ s.fileQueue, file.failed = true → answers.skip? file = none))
  | .addFiles _ | .resetFiles | .uploadFiles | .configured | .take _ | .progress _ _ | .succeed _ _
  | .fail _ | .joined | .finish => inferInstanceAs (Decidable True)

/-! ## Steps -/

theorem Counted.addFiles (h : Counted s) (files : List (String × String × Nat)) :
    Counted (s.addFiles files) := by
  unfold UploadManager.addFiles
  split
  · exact h
  · refine ⟨?_, ?_, ?_, ?_⟩
    · rw [List.countP_append, h.success, left_eq_add, List.countP_eq_zero]
      intro file hfile
      obtain ⟨entry, -, rfl⟩ := List.mem_map.mp hfile
      exact Bool.false_ne_true
    · rw [List.countP_append, h.errors, Nat.add_left_inj, left_eq_add, List.countP_eq_zero]
      intro file hfile
      obtain ⟨entry, -, rfl⟩ := List.mem_map.mp hfile
      exact Bool.false_ne_true
    · intro file hfile
      rcases List.mem_append.mp hfile with hold | hnew
      · exact h.clean file hold
      · obtain ⟨entry, -, rfl⟩ := List.mem_map.mp hnew
        exact fun _ => rfl
    · simp [h.total, Function.comp_def]

theorem Counted.beginRun (h : Counted s) : Counted s.beginRun := by
  have hsuccess : (s.fileQueue.map (·.requeue)).countP QueuedFile.succeeded =
      s.fileQueue.countP QueuedFile.succeeded := by
    refine countP_congr_map fun file _ => ?_
    unfold QueuedFile.requeue
    split
    · rename_i hretry
      rw [Bool.and_eq_true] at hretry
      simp [QueuedFile.succeeded, hretry.2]
    · rfl
  have herrors : (s.fileQueue.map (·.requeue)).countP (·.failed) =
      s.fileQueue.countP (·.failed) := by
    refine countP_congr_map fun file _ => ?_
    unfold QueuedFile.requeue
    split <;> rfl
  have hclean : ∀ file ∈ s.fileQueue.map (·.requeue), file.done = false ∨ file.failed = true →
      file.isSkipped = false := by
    intro file hfile
    obtain ⟨old, hold, rfl⟩ := List.mem_map.mp hfile
    unfold QueuedFile.requeue
    split
    · rename_i hretry
      rw [Bool.and_eq_true] at hretry
      exact fun _ => h.clean old hold (.inr hretry.2)
    · exact h.clean old hold
  have htotal : ((s.fileQueue.map (·.requeue)).map (·.size)).sum =
      (s.fileQueue.map (·.size)).sum := by
    refine sum_congr_map fun file _ => ?_
    unfold QueuedFile.requeue
    split <;> rfl
  unfold UploadManager.beginRun
  simp only
  split <;> exact ⟨h.success.trans hsuccess.symm, h.errors.trans (by rw [herrors]), hclean,
    h.total.trans htotal.symm⟩

theorem Counted.startWorkers (h : Counted s) (hworkers : s.workers = []) :
    Counted s.startWorkers := by
  have herrors := h.errors
  rw [hworkers, List.countP_nil] at herrors
  rcases s.startWorkers_cases with ⟨-, he⟩ | ⟨-, he⟩ <;> rw [he]
  · refine ⟨h.success, ?_, h.clean, h.total⟩
    rw [List.countP_replicate]
    exact herrors
  · exact ⟨h.success, h.errors, h.clean, h.total⟩

theorem skip?_throws {answers : PreflightAnswers} (s : UploadManager)
    (h : answers.throws s.fileQueue = true) : s.preflight answers = s.startWorkers := by
  unfold preflight
  rw [if_pos h]

theorem Counted.preflight (h : Counted s) (hworkers : s.workers = []) {answers : PreflightAnswers}
    (hspares : SparesFailed s (.preflight answers)) : Counted (s.preflight answers) := by
  rcases hspares with hthrows | hspares
  · rw [skip?_throws s hthrows]
    exact h.startWorkers hworkers
  rcases s.preflight_cases answers with he | he <;> rw [he]
  · exact h.startWorkers hworkers
  · refine Counted.startWorkers ⟨?_, ?_, ?_, ?_⟩ hworkers
    · have hcount : (s.fileQueue.map (checked answers)).countP QueuedFile.succeeded =
          s.fileQueue.countP QueuedFile.succeeded +
            s.fileQueue.countP fun file => (answers.skip? file).isSome := by
        refine countP_map_add fun file hfile => ?_
        unfold checked
        cases hskip : answers.skip? file with
        | none => rfl
        | some filename =>
          have hdone : file.done = false := skip?_done (by rw [hskip]; rfl)
          have hfailed : file.failed = false := by
            by_contra hfailed
            rw [Bool.not_eq_false] at hfailed
            rw [hspares file hfile hfailed] at hskip
            cases hskip
          simp [QueuedFile.succeeded, QueuedFile.skip, hdone, hfailed]
      rw [hcount, h.success]
    · have hcount : (s.fileQueue.map (checked answers)).countP (·.failed) =
          s.fileQueue.countP (·.failed) := by
        refine countP_congr_map fun file _ => ?_
        unfold checked
        split <;> rfl
      rw [hcount]
      exact h.errors
    · intro file hfile
      obtain ⟨old, hold, rfl⟩ := List.mem_map.mp hfile
      unfold checked
      split
      · rename_i filename hskip
        rintro (hdone | hfailed)
        · cases hdone
        · rw [hspares old hold hfailed] at hskip
          cases hskip
      · exact h.clean old hold
    · have htotal : ((s.fileQueue.map (checked answers)).map (·.size)).sum =
          (s.fileQueue.map (·.size)).sum := by
        refine sum_congr_map fun file _ => ?_
        unfold checked
        split <;> rfl
      rw [htotal]
      exact h.total

theorem Counted.takeNext (h : Counted s) (hw : s.workers[w]? = some .idle) :
    Counted (s.takeNext w) := by
  rcases s.takeNext_cases w with ⟨index, file, hfile, -, -, hdone, -, he⟩ | ⟨-, he⟩ <;> rw [he]
  · have hsuccess := countP_modify QueuedFile.succeeded startUpload hfile
    have herrors := countP_modify (·.failed) startUpload hfile
    have hworkers := countP_set (·.retries) (.uploading index file.failed) hw
    have hbytes := sum_modify (·.size) startUpload hfile
    refine ⟨?_, ?_, ?_, ?_⟩
    · have hcount := h.success
      simp [QueuedFile.succeeded, startUpload, hdone] at hsuccess hcount ⊢
      omega
    · have hcount := h.errors
      simp [startUpload, Worker.retries] at herrors hworkers hcount ⊢
      omega
    · refine forall_mem_modify h.clean fun old hold _ => ?_
      rw [hfile] at hold
      cases hold
      exact h.clean file (List.mem_of_getElem? hfile) (.inl hdone)
    · have htotal := h.total
      simp [startUpload] at hbytes htotal ⊢
      omega
  · have hworkers := countP_set (·.retries) .ended hw
    refine ⟨h.success, ?_, h.clean, h.total⟩
    have hcount := h.errors
    simp [Worker.retries] at hworkers hcount ⊢
    omega

theorem Counted.progress (h : Counted s) {loadedBytes : Option Int}
    (hs : s.progress w loadedBytes = some s') : Counted s' := by
  obtain ⟨index, was, file, loaded, hw, hfile, -, g, net, hg, rfl⟩ := progress_spec hs
  have hsuccess := countP_modify QueuedFile.succeeded g hfile
  have herrors := countP_modify (·.failed) g hfile
  have hbytes := sum_modify (·.size) g hfile
  rw [hg] at hsuccess herrors hbytes
  refine ⟨?_, ?_, ?_, ?_⟩
  · have hcount := h.success
    simp [QueuedFile.succeeded] at hsuccess hcount ⊢
    omega
  · have hcount := h.errors
    simp at herrors hcount ⊢
    omega
  · refine forall_mem_modify h.clean fun old hold => ?_
    rw [hfile] at hold
    cases hold
    rw [hg]
    exact h.clean file (List.mem_of_getElem? hfile)
  · have htotal := h.total
    simp at hbytes htotal ⊢
    omega

theorem Counted.succeed (h : Counted s) (hworking : Working s) {result : Option ServerResult}
    (hs : s.succeed w result = some s') : Counted s' := by
  obtain ⟨index, was, file, hw, hfile, g, net, hg, rfl⟩ := succeed_spec hs
  obtain ⟨held, hheld, -, hdone, hfailed⟩ := hworking.holds w index was hw
  rw [hfile] at hheld
  cases hheld
  have hsuccess := countP_modify QueuedFile.succeeded g hfile
  have herrors := countP_modify (·.failed) g hfile
  have hworkers := countP_set (·.retries) .idle hw
  have hbytes := sum_modify (·.size) g hfile
  rw [hg] at hsuccess herrors hbytes
  refine ⟨?_, ?_, ?_, ?_⟩
  · have hcount := h.success
    simp [QueuedFile.succeeded, hdone, hfailed] at hsuccess hcount ⊢
    omega
  · have hcount := h.errors
    simp [Worker.retries, hfailed] at herrors hworkers hcount ⊢
    cases was
    · simp at hworkers ⊢
      omega
    · simp at hworkers ⊢
      split <;> omega
  · refine forall_mem_modify h.clean fun old hold => ?_
    rw [hfile] at hold
    cases hold
    rw [hg]
    simp only
    rintro (hnot | hnot)
    · cases hnot
    · rw [hfailed] at hnot
      cases hnot
  · have htotal := h.total
    simp at hbytes htotal ⊢
    omega

theorem Counted.fail (h : Counted s) (hworking : Working s) (hs : s.fail w = some s') :
    Counted s' := by
  obtain ⟨index, was, file, hw, hfile, rfl⟩ := fail_spec hs
  obtain ⟨held, hheld, -, hdone, hfailed⟩ := hworking.holds w index was hw
  rw [hfile] at hheld
  cases hheld
  have hsuccess := countP_modify QueuedFile.succeeded
    (fun file => { file with failed := true, done := true, running := false }) hfile
  have herrors := countP_modify (·.failed)
    (fun file => { file with failed := true, done := true, running := false }) hfile
  have hworkers := countP_set (·.retries) .idle hw
  have hbytes := sum_modify (·.size)
    (fun file => { file with failed := true, done := true, running := false }) hfile
  refine ⟨?_, ?_, ?_, ?_⟩
  · have hcount := h.success
    simp [QueuedFile.succeeded, hdone] at hsuccess hcount ⊢
    omega
  · have hcount := h.errors
    simp [Worker.retries, hfailed] at herrors hworkers hcount ⊢
    cases was <;> simp at hworkers ⊢ <;> omega
  · refine forall_mem_modify h.clean fun old hold _ => ?_
    rw [hfile] at hold
    cases hold
    exact h.clean file (List.mem_of_getElem? hfile) (.inl hdone)
  · have htotal := h.total
    simp at hbytes htotal ⊢
    omega

/-- **The step lemma.** -/
theorem Counted.step (h : Counted s) (hworking : Working s) {l : QueueAction}
    (hspares : SparesFailed s l) (hs : s.step l = some s') : Counted s' := by
  cases l with
  | addFiles files =>
    cases hs
    exact h.addFiles files
  | resetFiles =>
    cases hs
    unfold UploadManager.resetFiles
    split
    · exact h
    · rename_i hidle
      rw [not_not] at hidle
      have hworkers := hworking.quiet (by rw [hidle]; decide)
      exact ⟨rfl, by rw [hworkers]; rfl, nofun, rfl⟩
  | uploadFiles =>
    cases hs
    unfold UploadManager.requestRun
    split
    · exact h
    · split
      · exact h
      · exact ⟨h.success, h.errors, h.clean, h.total⟩
  | configured =>
    obtain ⟨-, hs⟩ := Option.ite_none_right_eq_some.mp hs
    cases hs
    exact h.beginRun
  | preflight answers =>
    obtain ⟨hphase, hs⟩ := Option.ite_none_right_eq_some.mp hs
    cases hs
    exact h.preflight (hworking.quiet (by rw [hphase]; decide)) hspares
  | take w =>
    obtain ⟨hw, hs⟩ := Option.ite_none_right_eq_some.mp hs
    cases hs
    exact h.takeNext hw
  | progress w loadedBytes => exact h.progress hs
  | succeed w result => exact h.succeed hworking hs
  | fail w => exact h.fail hworking hs
  | joined =>
    obtain ⟨⟨-, hall⟩, hs⟩ := Option.ite_none_right_eq_some.mp hs
    cases hs
    refine ⟨h.success, ?_, h.clean, h.total⟩
    have hnone : s.workers.countP (·.retries) = 0 := by
      refine List.countP_eq_zero.mpr fun worker hworker => ?_
      rw [of_decide_eq_true (List.all_eq_true.mp hall worker hworker)]
      decide
    have herrors := h.errors
    rw [hnone] at herrors
    exact herrors
  | finish =>
    obtain ⟨-, hs⟩ := Option.ite_none_right_eq_some.mp hs
    cases hs
    exact ⟨h.success, h.errors, h.clean, h.total⟩

theorem counted_of_run {concurrency : { n : Nat // 0 < n }}
    (hrun : Run step SparesFailed (UploadManager.start concurrency) s) : Counted s := by
  induction hrun with
  | refl => exact ⟨rfl, rfl, nofun, rfl⟩
  | tail hr hok hs ih => exact ih.step (working_of_run hr) hok hs

end UploadManager

/-! ## After a run -/

/-- The file is in one of the states uploaded, skipped and failed. -/
def QueuedFile.Classified (file : QueuedFile) : Prop :=
  (file.isUploaded = true ∧ file.isSkipped = false ∧ file.failed = false) ∨
    (file.isUploaded = false ∧ file.isSkipped = true ∧ file.failed = false) ∨
    (file.isUploaded = false ∧ file.isSkipped = false ∧ file.failed = true)

def Outcome.isSkip : Outcome → Bool
  | .skipped | .duplicateAfterUpload => true
  | _ => false

namespace TransferHistory

variable (history : TransferHistory)

/-- The files with such an outcome, and their bytes. -/
def filesWith (p : Outcome → Bool) : Nat := history.files.countP fun file => p file.outcome

def bytesWith (p : Outcome → Bool) : Nat :=
  ((history.files.filter fun file => p file.outcome).map (·.size)).sum

/-- The totals agree with each other and with the outcomes of the files. -/
structure Consistent : Prop where
  files : history.uploadedFiles + history.skippedFiles + history.failedFiles = history.selectedFiles
  selected : history.selectedFiles = history.files.length
  uploaded : history.uploadedFiles = history.filesWith (· = .uploaded)
  skipped : history.skippedFiles = history.filesWith (·.isSkip)
  failed : history.failedFiles = history.filesWith (· = .failed)
  selectedBytes : history.selectedBytes = (history.files.map (·.size)).sum
  uploadedBytes : history.uploadedBytes = history.bytesWith (· = .uploaded)
  skippedBytes : history.skippedBytes = history.bytesWith (·.isSkip)

end TransferHistory

namespace QueuedFile

variable {file : QueuedFile}

theorem classified_of_done (hdone : file.done = true)
    (hclean : file.failed = true → file.isSkipped = false) : file.Classified := by
  unfold Classified isUploaded
  cases hfailed : file.failed with
  | true => exact .inr (.inr ⟨by simp, hclean hfailed, rfl⟩)
  | false =>
    unfold isSkipped
    cases file.preflightSkipped <;> cases file.skipped <;> simp [hdone]

/-- The outcome in the history is the state of the file. -/
theorem outcome_of_classified (h : file.Classified) :
    decide (file.outcome = .uploaded) = file.isUploaded ∧
      file.outcome.isSkip = file.isSkipped ∧ decide (file.outcome = .failed) = file.failed := by
  unfold outcome
  rcases h with ⟨hu, hs, hf⟩ | ⟨hu, hs, hf⟩ | ⟨hu, hs, hf⟩ <;> rw [hu, hs, hf]
  · unfold isSkipped at hs
    rw [Bool.or_eq_false_iff] at hs
    simp [hs.1, hs.2, Outcome.isSkip]
  · unfold isSkipped at hs
    cases hp : file.preflightSkipped <;> simp [hp, Outcome.isSkip] at hs ⊢
    simp [hs]
  · simp [Outcome.isSkip]

end QueuedFile

namespace UploadManager

variable {s s' : UploadManager}

/-- The history of a queue in which every file is classified. -/
theorem consistent_of_classified (h : Counted s) (hworkers : s.workers = [])
    (hall : ∀ file ∈ s.fileQueue, file.Classified) : s.transferHistory.Consistent := by
  have herrors := h.errors
  rw [hworkers, List.countP_nil, Nat.add_zero] at herrors
  have houtcome := fun file hfile => QueuedFile.outcome_of_classified (hall file hfile)
  have hcount : ∀ (p : Outcome → Bool) (q : QueuedFile → Bool),
      (∀ file ∈ s.fileQueue, p file.outcome = q file) →
        s.transferHistory.filesWith p = s.fileQueue.countP q := by
    intro p q hpq
    unfold TransferHistory.filesWith transferHistory
    rw [List.countP_map]
    exact List.countP_congr fun file hfile => by
      rw [← hpq file hfile]
      rfl
  have hbytes : ∀ (p : Outcome → Bool) (q : QueuedFile → Bool),
      (∀ file ∈ s.fileQueue, p file.outcome = q file) →
        s.transferHistory.bytesWith p = ((s.fileQueue.filter q).map (·.size)).sum := by
    intro p q hpq
    unfold TransferHistory.bytesWith transferHistory
    rw [List.filter_map, List.map_map]
    have hfilter : s.fileQueue.filter
      ((fun file => p file.outcome) ∘ fun file => file.historyFile) =
        s.fileQueue.filter q :=
      List.filter_congr fun file hfile => hpq file hfile
    rw [hfilter]
    rfl
  have huploaded : s.transferHistory.uploadedFiles = s.fileQueue.countP (·.isUploaded) :=
    List.countP_eq_length_filter.symm
  have hskipped : s.transferHistory.skippedFiles = s.fileQueue.countP (·.isSkipped) :=
    List.countP_eq_length_filter.symm
  have hpartition : s.fileQueue.countP (·.isUploaded) + s.fileQueue.countP (·.isSkipped) +
      s.fileQueue.countP (·.failed) = s.fileQueue.length := by
    refine countP_partition fun file hfile => ?_
    rcases hall file hfile with ⟨hu, hs, hf⟩ | ⟨hu, hs, hf⟩ | ⟨hu, hs, hf⟩ <;>
      rw [hu, hs, hf] <;> rfl
  refine ⟨?_, ?_, ?_, ?_, ?_, ?_, ?_, ?_⟩
  · have hfailed : s.transferHistory.failedFiles = s.fileQueue.countP (·.failed) := herrors
    rw [huploaded, hskipped, hfailed]
    exact hpartition
  · exact (List.length_map _).symm
  · rw [huploaded]
    exact (hcount _ _ fun file hfile => (houtcome file hfile).1).symm
  · rw [hskipped]
    exact (hcount _ _ fun file hfile => (houtcome file hfile).2.1).symm
  · rw [hcount (· = .failed) (·.failed) fun file hfile => (houtcome file hfile).2.2]
    exact herrors
  · have htotal := h.total
    unfold transferHistory
    simp only [List.map_map]
    exact htotal
  · exact (hbytes _ _ fun file hfile => (houtcome file hfile).1).symm
  · exact (hbytes _ _ fun file hfile => (houtcome file hfile).2.1).symm

/-- **The queue after a run.**  In a run of the page in which no preflight skips a file that failed
before, the end of each upload run leaves every file uploaded, skipped or failed, the counters are
the numbers of files that succeeded and failed, and the submitted history is consistent with the
files. -/
theorem queue_accounting (concurrency : { n : Nat // 0 < n })
    (hrun : Run step SparesFailed (UploadManager.start concurrency) s)
    (hs : s.step .finish = some s') :
    (∀ file ∈ s'.fileQueue, file.Classified) ∧
      s'.successCount = (s'.fileQueue.filter fun file => file.done && !file.failed).length ∧
      s'.errorCount = (s'.fileQueue.filter (·.failed)).length ∧
      ∃ history, s'.histories = s.histories ++ [history] ∧
        history.files = s'.fileQueue.map (·.historyFile) ∧ history.Consistent := by
  have hcounted := counted_of_run hrun
  have hworking := working_of_run hrun
  obtain ⟨hphase, hs⟩ := Option.ite_none_right_eq_some.mp hs
  cases hs
  have hworkers := hworking.quiet (by rw [hphase]; decide)
  have hall : ∀ file ∈ s.fileQueue, file.Classified := fun file hfile =>
    QueuedFile.classified_of_done (hworking.verified hphase file hfile) fun hfailed =>
      hcounted.clean file hfile (.inr hfailed)
  have herrors := hcounted.errors
  rw [hworkers, List.countP_nil, Nat.add_zero] at herrors
  refine ⟨hall, ?_, ?_, s.transferHistory, rfl, rfl,
    consistent_of_classified hcounted hworkers hall⟩
  · exact hcounted.success.trans List.countP_eq_length_filter
  · exact herrors.trans List.countP_eq_length_filter

/-- Two files: one upload fails and is retried in a second run. -/
def retriedRun : List QueueAction :=
  [.addFiles [("a", "a.jpg", 10), ("b", "b.jpg", 20)], .uploadFiles, .configured,
    .preflight ⟨none, true, none⟩, .take 0, .fail 0, .take 0, .progress 0 (some 7),
    .succeed 0 none, .take 0, .joined, .finish, .uploadFiles, .configured,
    .preflight ⟨some [("a", false)], true, none⟩, .take 0,
    .succeed 0 (some { skipped := true, filename := some "a.jpg" }), .take 0, .joined]

theorem queue_accounting_retried :
    ∃ s s' : UploadManager, Run step SparesFailed (UploadManager.start ⟨1, by decide⟩) s ∧
      s.step .finish = some s' ∧ s'.errorCount = 0 ∧ s'.successCount = 2 ∧
      ∀ file ∈ s'.fileQueue, file.Classified := by
  obtain ⟨s, hrun, htest⟩ := Run.exists_of_exec step (P := SparesFailed)
    (fun s l => decide (SparesFailed s l))
    (fun s => s.phase = .verifying ∧ s.errorCount = 0 ∧ s.successCount = 2)
    (UploadManager.start ⟨1, by decide⟩) retriedRun (fun _ _ h => of_decide_eq_true h)
    (by decide)
  obtain ⟨hphase, herrors, hsuccess⟩ := of_decide_eq_true htest
  have hs : s.step .finish = some s.finishRun := if_pos hphase
  exact ⟨s, s.finishRun, hrun, hs, herrors, hsuccess,
    (queue_accounting ⟨1, by decide⟩ hrun hs).1⟩

/-- A file fails in the first run, and the preflight of the second one finds it on the receiver. -/
def skippedRetry : List QueueAction :=
  [.addFiles [("a", "a.jpg", 10)], .uploadFiles, .configured,
    .preflight ⟨none, true, none⟩, .take 0,
    .fail 0, .take 0, .joined, .finish, .uploadFiles, .configured,
    .preflight ⟨some [("a", true)], true, some [("a", .skip, some "a.jpg")]⟩]

/-- That file is skipped and failed, and the history counts it twice. -/
theorem skipped_retry_counted_twice :
    ¬ ∀ s s' : UploadManager, Run step (fun _ _ => True) (UploadManager.start ⟨1, by decide⟩) s →
      s.step .finish = some s' →
      (∀ file ∈ s'.fileQueue, file.Classified) ∧
        ∃ history, s'.histories = s.histories ++ [history] ∧ history.Consistent := by
  intro hall
  obtain ⟨s, hrun, htest⟩ := Run.exists_of_exec step (P := fun _ _ => True) (fun _ _ => true)
    (fun s => s.phase = .verifying ∧ s.transferHistory.uploadedFiles +
      s.transferHistory.skippedFiles + s.transferHistory.failedFiles = 2 ∧
      s.transferHistory.selectedFiles = 1)
    (UploadManager.start ⟨1, by decide⟩) skippedRetry (fun _ _ _ => trivial) (by decide)
  obtain ⟨hphase, htotal, hselected⟩ := of_decide_eq_true htest
  obtain ⟨-, history, hhistory, hconsistent⟩ := hall s s.finishRun hrun (if_pos hphase)
  have hsame : [s.transferHistory] = [history] := List.append_cancel_left hhistory
  cases hsame
  have hfiles := hconsistent.files
  omega

end UploadManager

end LocalMediaTransfer.Browser
