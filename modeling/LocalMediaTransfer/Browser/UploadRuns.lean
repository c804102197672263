import LocalMediaTransfer.Browser.UploadManager
import LocalMediaTransfer.Lib.Tally

/-!
# The runs of the browser queue

What each step of a run does to the queue, and which files are under way.

* `takeNext_cases`, `progress_spec`, `succeed_spec`, `fail_spec` — the steps of a worker: one file
  of the queue changes.
* `runDuplicatePreflight_eq` — the loop of the preflight, file by file.
* `Working` — the files that run are those of the workers, and a run ends when every file is done.
-/

set_option autoImplicit false

namespace LocalMediaTransfer.Browser

open Lib

namespace UploadManager

variable {s s' : UploadManager} {w index : Nat} {file : QueuedFile}

/-! ## The steps of a worker -/

theorem nextCandidate_cases (queue : List QueuedFile) (from_ : Nat) :
    (∃ k file, queue[k]? = some file ∧ file.running = false ∧ file.done = false ∧
      (∀ j file, j < k → queue[j]? = some file → file.running = true ∨ file.done = true) ∧
      nextCandidate queue from_ = some (from_ + k)) ∨
    ((∀ file ∈ queue, file.running = true ∨ file.done = true) ∧
      nextCandidate queue from_ = none) := by
  induction queue generalizing from_ with
  | nil => exact .inr ⟨fun _ h => absurd h List.not_mem_nil, rfl⟩
  | cons head rest ih =>
    unfold nextCandidate
    by_cases hbusy : (head.running || head.done) = true
    · rw [if_pos hbusy]
      rw [Bool.or_eq_true] at hbusy
      rcases ih (from_ + 1) with ⟨k, file, hk, hrun, hdone, hbefore, he⟩ | ⟨hall, he⟩
      · refine .inl ⟨k + 1, file, hk, hrun, hdone, ?_, ?_⟩
        · intro j file hj hfile
          cases j with
          | zero =>
            cases hfile
            exact hbusy
          | succ j => exact hbefore j file (by omega) hfile
        · rw [he]
          congr 1
          omega
      · refine .inr ⟨?_, he⟩
        intro file hfile
        rcases List.mem_cons.mp hfile with rfl | hfile
        · exact hbusy
        · exact hall file hfile
    · rw [if_neg hbusy]
      rw [Bool.not_eq_true, Bool.or_eq_false_iff] at hbusy
      exact .inl ⟨0, head, rfl, hbusy.1, hbusy.2, fun _ _ hj => absurd hj (Nat.not_lt_zero _), rfl⟩

/-- Everything `takeNext` can do. -/
theorem takeNext_cases (s : UploadManager) (w : Nat) :
    (∃ index file, s.fileQueue[index]? = some file ∧ s.nextUploadIndex ≤ index ∧
      file.running = false ∧ file.done = false ∧
      (∀ j file, s.nextUploadIndex ≤ j → j < index → s.fileQueue[j]? = some file →
        file.running = true ∨ file.done = true) ∧
      s.takeNext w =
        { s with
          nextUploadIndex := index + 1
          fileQueue := s.fileQueue.modify index startUpload
          workers := s.workers.set w (.uploading index file.failed) }) ∨
    ((∀ j file, s.nextUploadIndex ≤ j → s.fileQueue[j]? = some file →
        file.running = true ∨ file.done = true) ∧
      s.takeNext w =
        { s with
          nextUploadIndex := s.fileQueue.length
          workers := s.workers.set w .ended }) := by
  unfold takeNext
  rcases nextCandidate_cases (s.fileQueue.drop s.nextUploadIndex) s.nextUploadIndex with
    ⟨k, file, hk, hrun, hdone, hbefore, he⟩ | ⟨hall, he⟩
  · rw [List.getElem?_drop] at hk
    refine .inl ⟨s.nextUploadIndex + k, file, hk, Nat.le_add_right _ _, hrun, hdone, ?_, ?_⟩
    · intro j file hle hlt hfile
      refine hbefore (j - s.nextUploadIndex) file (by omega) ?_
      rwa [List.getElem?_drop, Nat.add_sub_cancel' hle]
    · rw [he]
      simp only [hk]
      rfl
  · refine .inr ⟨?_, ?_⟩
    · intro j file hle hfile
      refine hall file (List.mem_of_getElem? (i := j - s.nextUploadIndex) ?_)
      rwa [List.getElem?_drop, Nat.add_sub_cancel' hle]
    · rw [he]
      rfl

theorem safeLoaded_le (loadedBytes : Option Int) (size : Nat) :
    safeLoaded loadedBytes size ≤ size := by
  unfold safeLoaded
  split <;> omega

theorem safeLoaded_size (size : Nat) : safeLoaded (some size) size = size := by
  simp [safeLoaded]

/-- A progress event moves the counters of one file that is being uploaded. -/
theorem progress_spec {loadedBytes : Option Int} (h : s.progress w loadedBytes = some s') :
    ∃ index was file loaded, s.workers[w]? = some (.uploading index was) ∧
      s.fileQueue[index]? = some file ∧ loaded ≤ file.size ∧
        ∃ (g : QueuedFile → QueuedFile) (net : Nat),
        g file = { file with
          uploadedBytes := max file.uploadedBytes loaded
          completedBytes := max file.completedBytes loaded } ∧
        s' = { s with
          globalUploadedBytes :=
            s.globalUploadedBytes + (max file.uploadedBytes loaded - file.uploadedBytes)
          networkBytesUploaded := net
          globalCompletedBytes :=
            s.globalCompletedBytes + (max file.completedBytes loaded - file.completedBytes)
          fileQueue := s.fileQueue.modify index g } := by
  unfold progress at h
  split at h
  · rename_i index was hw
    obtain ⟨file, hfile, rfl⟩ := Option.map_eq_some_iff.mp h
    exact ⟨index, was, file, safeLoaded loadedBytes file.size, hw, hfile, safeLoaded_le ..,
      _, _, rfl, rfl⟩
  · cases h

/-- A success completes the file and counts it. -/
theorem succeed_spec {result : Option ServerResult} (h : s.succeed w result = some s') :
    ∃ index was file, s.workers[w]? = some (.uploading index was) ∧
      s.fileQueue[index]? = some file ∧ ∃ (g : QueuedFile → QueuedFile) (net : Nat),
        g file = { file with
          uploadedBytes := max file.uploadedBytes file.size
          completedBytes := max file.completedBytes file.size
          serverResult := result
          skipped := (result.map ServerResult.skipped).getD false || file.skipped
          done := true
          running := false } ∧
        s' = { s with
          errorCount :=
            if was && decide (0 < s.errorCount) then s.errorCount - 1 else s.errorCount
          successCount := s.successCount + 1
          globalUploadedBytes :=
            s.globalUploadedBytes + (max file.uploadedBytes file.size - file.uploadedBytes)
          networkBytesUploaded := net
          globalCompletedBytes :=
            s.globalCompletedBytes + (max file.completedBytes file.size - file.completedBytes)
          fileQueue := s.fileQueue.modify index g
          workers := s.workers.set w .idle } := by
  unfold succeed at h
  split at h
  · rename_i index was hw
    obtain ⟨file, hfile, rfl⟩ := Option.map_eq_some_iff.mp h
    refine ⟨index, was, file, hw, hfile, fun old =>
      { old with
        uploadedBytes := max file.uploadedBytes file.size
        completedBytes := max file.completedBytes file.size
        serverResult := result
        skipped := (result.map ServerResult.skipped).getD false || old.skipped
        done := true
        running := false },
      if file.uploadedBytes < max file.uploadedBytes file.size then
        s.globalUploadedBytes + (max file.uploadedBytes file.size - file.uploadedBytes)
      else s.networkBytesUploaded, rfl, ?_⟩
    simp only [updateFile, setWorker, updateFileTransferProgress, List.modify_modify_eq,
      safeLoaded_size]
    rfl
  · cases h

/-- A failure counts the file, unless it was counted before. -/
theorem fail_spec (h : s.fail w = some s') :
    ∃ index was file, s.workers[w]? = some (.uploading index was) ∧
      s.fileQueue[index]? = some file ∧
        s' = { s with
          errorCount := if was then s.errorCount else s.errorCount + 1
          fileQueue := s.fileQueue.modify index fun file =>
            { file with failed := true, done := true, running := false }
          workers := s.workers.set w .idle } := by
  unfold fail at h
  split at h
  · rename_i index was hw
    obtain ⟨file, hfile, rfl⟩ := Option.map_eq_some_iff.mp h
    exact ⟨index, was, file, hw, hfile, rfl⟩
  · cases h

/-! ## Preflight -/

/-- A file after the loop of the preflight. -/
def checked (answers : PreflightAnswers) (file : QueuedFile) : QueuedFile :=
  match answers.skip? file with
  | some filename => file.skip filename
  | none => file

/-- The loop of the preflight, file by file. -/
theorem runDuplicatePreflight_eq (answers : PreflightAnswers) (queue : List QueuedFile)
    (counts : PreflightCounts) :
    runDuplicatePreflight answers queue counts =
      (queue.map (checked answers),
        { globalCompletedBytes := counts.globalCompletedBytes + (queue.map fun file =>
            if (answers.skip? file).isSome then file.size - file.completedBytes else 0).sum
          skippedFiles :=
            counts.skippedFiles + queue.countP fun file => (answers.skip? file).isSome
          skippedBytes := counts.skippedBytes + (queue.map fun file =>
            if (answers.skip? file).isSome then file.size else 0).sum }) := by
  induction queue generalizing counts with
  | nil => rfl
  | cons file rest ih =>
    unfold runDuplicatePreflight
    cases hskip : answers.skip? file with
    | none =>
      simp only [ih, List.map_cons, List.sum_cons, List.countP_cons, hskip, checked]
      simp
    | some filename =>
      simp only [ih, List.map_cons, List.sum_cons, List.countP_cons, hskip, checked]
      simp
      omega

theorem skip?_done {answers : PreflightAnswers} (h : (answers.skip? file).isSome = true) :
    file.done = false := by
  unfold PreflightAnswers.skip? PreflightAnswers.hashRequired at h
  split at h
  · rename_i hrequired
    rw [Bool.and_eq_true] at hrequired
    exact Bool.not_eq_true' _ |>.mp hrequired.1
  · cases h

/-- What the preflight does, before the workers start. -/
theorem preflight_cases (s : UploadManager) (answers : PreflightAnswers) :
    s.preflight answers = s.startWorkers ∨
      s.preflight answers =
        ({ s with
          fileQueue := s.fileQueue.map (checked answers)
          skippedBytes := (s.fileQueue.map fun file =>
            if (answers.skip? file).isSome then file.size else 0).sum
          globalCompletedBytes :=
            max (s.globalCompletedBytes + (s.fileQueue.map fun file =>
              if (answers.skip? file).isSome then file.size - file.completedBytes else 0).sum)
            (s.fileQueue.map fun file => if (answers.skip? file).isSome then file.size else 0).sum
          successCount := s.successCount +
            s.fileQueue.countP fun file => (answers.skip? file).isSome }).startWorkers := by
  unfold preflight
  split
  · exact .inl rfl
  · refine .inr ?_
    rw [runDuplicatePreflight_eq]
    simp only [Nat.zero_add]

theorem startWorkers_cases (s : UploadManager) :
    ((∃ file ∈ s.fileQueue, file.done = false) ∧ s.startWorkers =
      { s with
        phase := .uploading
        nextUploadIndex := 0
        workers := List.replicate s.concurrency .idle }) ∨
    ((∀ file ∈ s.fileQueue, file.done = true) ∧ s.startWorkers =
      { s with phase := .verifying, nextUploadIndex := 0 }) := by
  unfold startWorkers
  split
  · rename_i hany
    obtain ⟨file, hfile, hdone⟩ := List.any_eq_true.mp hany
    exact .inl ⟨⟨file, hfile, by simpa using hdone⟩, rfl⟩
  · rename_i hall
    refine .inr ⟨fun file hfile => ?_, rfl⟩
    rw [Bool.not_eq_true, List.any_eq_false] at hall
    simpa using hall file hfile

/-! ## The files under way -/

structure Working (s : UploadManager) : Prop where
  quiet : s.phase ≠ .uploading → s.workers = []
  staffed : s.phase = .uploading → s.workers ≠ []
  holds : ∀ (w index : Nat) was, s.workers[w]? = some (Worker.uploading index was) →
    ∃ file, s.fileQueue[index]? = some file ∧ file.running = true ∧ file.done = false ∧
      file.failed = false
  apart : ∀ (w w' index : Nat) was was', s.workers[w]? = some (Worker.uploading index was) →
    s.workers[w']? = some (Worker.uploading index was') → w = w'
  held : ∀ (index : Nat) file, s.fileQueue[index]? = some file → file.running = true →
    ∃ (w : Nat) (was : Bool), s.workers[w]? = some (Worker.uploading index was)
  passed : s.phase = .uploading → ∀ (index : Nat) file, index < s.nextUploadIndex →
    s.fileQueue[index]? = some file → file.running = true ∨ file.done = true
  ended : ∀ w : Nat, s.workers[w]? = some Worker.ended → s.nextUploadIndex = s.fileQueue.length
  verified : s.phase = .verifying → ∀ file ∈ s.fileQueue, file.done = true

/-- No file runs outside the uploading phase. -/
theorem Working.rests (h : Working s) (hphase : s.phase ≠ .uploading) :
    ∀ file ∈ s.fileQueue, file.running = false := by
  intro file hfile
  obtain ⟨index, hindex⟩ := List.mem_iff_getElem?.mp hfile
  by_contra hrun
  rw [Bool.not_eq_false] at hrun
  obtain ⟨w, was, hw⟩ := h.held index file hindex hrun
  rw [h.quiet hphase] at hw
  cases hw

/-- Outside the uploading phase only the files have to be looked at. -/
theorem Working.of_rest (hphase : s.phase ≠ .uploading) (hworkers : s.workers = [])
    (hrun : ∀ file ∈ s.fileQueue, file.running = false)
    (hdone : s.phase = .verifying → ∀ file ∈ s.fileQueue, file.done = true) : Working s := by
  have hnone : ∀ w : Nat, s.workers[w]? = none := by
    intro w
    rw [hworkers]
    rfl
  refine ⟨fun _ => hworkers, fun h => absurd h hphase, ?_, ?_, ?_, fun h => absurd h hphase, ?_,
    hdone⟩
  · intro w index was hw
    rw [hnone] at hw
    cases hw
  · intro w w' index was was' hw
    rw [hnone] at hw
    cases hw
  · intro index file hfile hrunning
    rw [hrun file (List.mem_of_getElem? hfile)] at hrunning
    cases hrunning
  · intro w hw
    rw [hnone] at hw
    cases hw

theorem Working.start (concurrency : { n : Nat // 0 < n }) : Working (start concurrency) :=
  .of_rest nofun rfl nofun nofun

theorem Working.addFiles (h : Working s) (files : List (String × String × Nat)) :
    Working (s.addFiles files) := by
  unfold UploadManager.addFiles
  split
  · exact h
  · rename_i hidle
    rw [not_not] at hidle
    have hphase : s.phase ≠ .uploading := by
      rw [hidle]
      decide
    refine .of_rest hphase (h.quiet hphase) ?_ ?_
    · intro file hfile
      rcases List.mem_append.mp hfile with hold | hnew
      · exact h.rests hphase file hold
      · obtain ⟨entry, -, rfl⟩ := List.mem_map.mp hnew
        rfl
    · intro hverifying
      rw [hidle] at hverifying
      cases hverifying

theorem Working.resetFiles (h : Working s) : Working s.resetFiles := by
  unfold UploadManager.resetFiles
  split
  · exact h
  · rename_i hidle
    rw [not_not] at hidle
    have hphase : s.phase ≠ .uploading := by
      rw [hidle]
      decide
    exact .of_rest hphase (h.quiet hphase) nofun nofun

theorem Working.requestRun (h : Working s) : Working s.requestRun := by
  unfold UploadManager.requestRun
  split
  · exact h
  · split
    · exact h
    · rename_i hidle _
      rw [not_not] at hidle
      have hphase : s.phase ≠ .uploading := by
        rw [hidle]
        decide
      exact .of_rest nofun (h.quiet hphase) (h.rests hphase) nofun

theorem requeue_running (file : QueuedFile) (h : file.running = false) :
    file.requeue.running = false := by
  unfold QueuedFile.requeue
  split
  · rfl
  · exact h

theorem Working.beginRun (h : Working s) (hphase : s.phase = .configuring) :
    Working s.beginRun := by
  have hne : s.phase ≠ .uploading := by
    rw [hphase]
    decide
  have hrun : ∀ file ∈ s.fileQueue.map (·.requeue), file.running = false := by
    intro file hfile
    obtain ⟨old, hold, rfl⟩ := List.mem_map.mp hfile
    exact requeue_running old (h.rests hne old hold)
  unfold UploadManager.beginRun
  simp only
  split
  · exact .of_rest nofun (h.quiet hne) hrun nofun
  · exact .of_rest nofun (h.quiet hne) hrun nofun

theorem Working.startWorkers (hworkers : s.workers = [])
    (hrun : ∀ file ∈ s.fileQueue, file.running = false) : Working s.startWorkers := by
  rcases s.startWorkers_cases with ⟨-, he⟩ | ⟨hall, he⟩ <;> rw [he]
  · have hidle : ∀ (w : Nat) worker, (List.replicate s.concurrency Worker.idle)[w]? = some worker →
        worker = .idle := by
      intro w worker hw
      exact (List.mem_replicate.mp (List.mem_of_getElem? hw)).2
    refine ⟨fun hne => absurd rfl hne, fun _ => ?_, ?_, ?_, ?_, ?_, ?_, nofun⟩
    · intro hnil
      have hlength := congrArg List.length hnil
      rw [List.length_replicate, List.length_nil] at hlength
      exact absurd hlength s.concurrency.2.ne'
    · intro w index was hw
      cases hidle w _ hw
    · intro w w' index was was' hw
      cases hidle w _ hw
    · intro index file hfile hrunning
      rw [hrun file (List.mem_of_getElem? hfile)] at hrunning
      cases hrunning
    · intro _ index file hlt
      exact absurd hlt (Nat.not_lt_zero _)
    · intro w hw
      cases hidle w _ hw
  · exact .of_rest nofun hworkers hrun fun _ => hall

theorem checked_running (answers : PreflightAnswers) (file : QueuedFile) :
    (checked answers file).running = file.running := by
  unfold checked
  split <;> rfl

theorem Working.preflight (h : Working s) (hphase : s.phase = .checking)
    (answers : PreflightAnswers) : Working (s.preflight answers) := by
  have hne : s.phase ≠ .uploading := by
    rw [hphase]
    decide
  rcases s.preflight_cases answers with he | he <;> rw [he]
  · exact .startWorkers (h.quiet hne) (h.rests hne)
  · refine .startWorkers (h.quiet hne) fun file hfile => ?_
    obtain ⟨old, hold, rfl⟩ := List.mem_map.mp hfile
    rw [checked_running]
    exact h.rests hne old hold

/-- The phase in which a worker has a file. -/
theorem Working.uploading (h : Working s) {worker : Worker} (hw : s.workers[w]? = some worker) :
    s.phase = .uploading := by
  by_contra hphase
  rw [h.quiet hphase] at hw
  cases hw

/-- A file under way changes, and stays under way. -/
theorem Working.advance (h : Working s) {was : Bool} {g : QueuedFile → QueuedFile}
    (hw : s.workers[w]? = some (.uploading index was)) (hfile : s.fileQueue[index]? = some file)
    (hrun : (g file).running = file.running) (hdone : (g file).done = file.done)
    (hfailed : (g file).failed = file.failed)
    (hqueue : s'.fileQueue = s.fileQueue.modify index g) (hphase : s'.phase = s.phase)
    (hworkers : s'.workers = s.workers) (hnext : s'.nextUploadIndex = s.nextUploadIndex) :
    Working s' := by
  have huploading := h.uploading hw
  have hback : ∀ (j : Nat) file', s'.fileQueue[j]? = some file' →
    ∃ old, s.fileQueue[j]? = some old ∧
      old.running = file'.running ∧ old.done = file'.done := by
    intro j file' hj
    rw [hqueue] at hj
    rcases getElem?_modify_eq_some.mp hj with ⟨rfl, old, hold, rfl⟩ | ⟨-, hsame⟩
    · rw [hfile] at hold
      cases hold
      exact ⟨file, hfile, hrun.symm, hdone.symm⟩
    · exact ⟨file', hsame, rfl, rfl⟩
  refine ⟨?_, ?_, ?_, ?_, ?_, ?_, ?_, ?_⟩
  · rw [hphase, hworkers]
    exact h.quiet
  · rw [hphase, hworkers]
    exact h.staffed
  · intro w' j was' hw'
    rw [hworkers] at hw'
    obtain ⟨old, hold, holdrun, holddone, holdfailed⟩ := h.holds w' j was' hw'
    rw [hqueue]
    by_cases hj : index = j
    · subst hj
      rw [hfile] at hold
      cases hold
      exact ⟨g file, getElem?_modify_eq_some.mpr (.inl ⟨rfl, file, hfile, rfl⟩), hrun.trans holdrun,
        hdone.trans holddone, hfailed.trans holdfailed⟩
    · exact ⟨old, getElem?_modify_eq_some.mpr (.inr ⟨hj, hold⟩), holdrun, holddone, holdfailed⟩
  · rw [hworkers]
    exact h.apart
  · intro j file' hj hrunning
    obtain ⟨old, hold, holdrun, -⟩ := hback j file' hj
    rw [hworkers]
    exact h.held j old hold (holdrun.trans hrunning)
  · intro _ j file' hlt hj
    obtain ⟨old, hold, holdrun, holddone⟩ := hback j file' hj
    rw [hnext] at hlt
    rw [← holdrun, ← holddone]
    exact h.passed huploading j old hlt hold
  · intro w' hw'
    rw [hworkers] at hw'
    rw [hnext, hqueue, List.length_modify]
    exact h.ended w' hw'
  · intro hverifying
    rw [hphase, huploading] at hverifying
    cases hverifying

/-- A file under way is done with, and its worker is idle again. -/
theorem Working.complete (h : Working s) {was : Bool} {g : QueuedFile → QueuedFile}
    (hw : s.workers[w]? = some (.uploading index was)) (hfile : s.fileQueue[index]? = some file)
    (hrun : (g file).running = false) (hdone : (g file).done = true)
    (hqueue : s'.fileQueue = s.fileQueue.modify index g) (hphase : s'.phase = s.phase)
    (hworkers : s'.workers = s.workers.set w .idle)
    (hnext : s'.nextUploadIndex = s.nextUploadIndex) : Working s' := by
  have huploading := h.uploading hw
  have hother : ∀ (w' : Nat) worker, s'.workers[w']? = some worker → worker ≠ .idle →
      w ≠ w' ∧ s.workers[w']? = some worker := by
    intro w' worker hw' hne
    rw [hworkers] at hw'
    rcases getElem?_set_eq_some.mp hw' with ⟨-, -, hidle⟩ | hkept
    · exact absurd hidle.symm hne
    · exact hkept
  refine ⟨?_, ?_, ?_, ?_, ?_, ?_, ?_, ?_⟩
  · rw [hphase, huploading]
    exact fun hne => absurd rfl hne
  · intro _ hnil
    rw [hworkers] at hnil
    refine h.staffed huploading (List.length_eq_zero_iff.mp ?_)
    rw [← List.length_set (i := w) (a := Worker.idle), hnil, List.length_nil]
  · intro w' j was' hw'
    obtain ⟨hne, hold⟩ := hother w' _ hw' nofun
    obtain ⟨old, hj, hall⟩ := h.holds w' j was' hold
    refine ⟨old, ?_, hall⟩
    rw [hqueue]
    refine getElem?_modify_eq_some.mpr (.inr ⟨?_, hj⟩)
    rintro rfl
    exact hne (h.apart w w' index was was' hw hold)
  · intro w₁ w₂ j was₁ was₂ hw₁ hw₂
    exact h.apart w₁ w₂ j was₁ was₂ (hother w₁ _ hw₁ nofun).2 (hother w₂ _ hw₂ nofun).2
  · intro j file' hj hrunning
    rw [hqueue] at hj
    rcases getElem?_modify_eq_some.mp hj with ⟨rfl, old, hold, rfl⟩ | ⟨hne, hsame⟩
    · rw [hfile] at hold
      cases hold
      rw [hrun] at hrunning
      cases hrunning
    · obtain ⟨w', was', hw'⟩ := h.held j file' hsame hrunning
      refine ⟨w', was', ?_⟩
      rw [hworkers]
      refine getElem?_set_eq_some.mpr (.inr ⟨?_, hw'⟩)
      rintro rfl
      rw [hw] at hw'
      cases hw'
      exact hne rfl
  · intro _ j file' hlt hj
    rw [hnext] at hlt
    rw [hqueue] at hj
    rcases getElem?_modify_eq_some.mp hj with ⟨rfl, old, hold, rfl⟩ | ⟨-, hsame⟩
    · rw [hfile] at hold
      cases hold
      exact .inr hdone
    · exact h.passed huploading j file' hlt hsame
  · intro w' hw'
    rw [hnext, hqueue, List.length_modify]
    exact h.ended w' (hother w' _ hw' nofun).2
  · intro hverifying
    rw [hphase, huploading] at hverifying
    cases hverifying

/-- An idle worker takes a file or ends. -/
theorem Working.takeNext (h : Working s) (hw : s.workers[w]? = some .idle) :
    Working (s.takeNext w) := by
  have huploading := h.uploading hw
  have hlt : w < s.workers.length := (List.getElem?_eq_some_iff.mp hw).1
  have hkept : ∀ (worker new : Worker) (w' : Nat), (s.workers.set w new)[w']? = some worker →
      worker ≠ new → w ≠ w' ∧ s.workers[w']? = some worker := by
    intro worker new w' hw' hne
    rcases getElem?_set_eq_some.mp hw' with ⟨-, -, hnew⟩ | hkept
    · exact absurd hnew.symm hne
    · exact hkept
  have hstay : ∀ (new : Worker) (w' : Nat) (j : Nat) (was : Bool),
      s.workers[w']? = some (.uploading j was) →
      (s.workers.set w new)[w']? = some (.uploading j was) := by
    intro new w' j was hw'
    refine getElem?_set_eq_some.mpr (.inr ⟨?_, hw'⟩)
    rintro rfl
    rw [hw] at hw'
    cases hw'
  have hstaffed : ∀ new : Worker, s.workers.set w new ≠ [] := by
    intro new hnil
    rw [← List.length_eq_zero_iff, List.length_set] at hnil
    omega
  rcases s.takeNext_cases w with ⟨index, file, hfile, hle, hrun, hdone, hskipped, he⟩ |
    ⟨hall, he⟩ <;> rw [he]
  · refine ⟨fun hne => absurd huploading hne, fun _ => hstaffed _, ?_, ?_, ?_, ?_, ?_, ?_⟩
    · intro w' j was hw'
      by_cases hnew : Worker.uploading j was = .uploading index file.failed
      · cases hnew
        refine ⟨startUpload file, ?_, rfl, hdone, rfl⟩
        exact getElem?_modify_eq_some.mpr (.inl ⟨rfl, file, hfile, rfl⟩)
      · obtain ⟨-, hold⟩ := hkept _ _ w' hw' hnew
        obtain ⟨old, hj, hall⟩ := h.holds w' j was hold
        refine ⟨old, getElem?_modify_eq_some.mpr (.inr ⟨?_, hj⟩), hall⟩
        rintro rfl
        rw [hfile] at hj
        cases hj
        rw [hrun] at hall
        cases hall.1
    · -- the file taken was not running, so no other worker holds it
      have hfree : ∀ (w' : Nat) was, s.workers[w']? ≠ some (.uploading index was) := by
        intro w' was hw'
        obtain ⟨old, hj, hrunning, -⟩ := h.holds w' index was hw'
        rw [hfile] at hj
        cases hj
        rw [hrun] at hrunning
        cases hrunning
      intro w₁ w₂ j was₁ was₂ hw₁ hw₂
      rcases getElem?_set_eq_some.mp hw₁ with ⟨rfl, -, hnew₁⟩ | ⟨-, hold₁⟩ <;>
        rcases getElem?_set_eq_some.mp hw₂ with ⟨rfl, -, hnew₂⟩ | ⟨-, hold₂⟩
      · rfl
      · cases hnew₁
        exact absurd hold₂ (hfree w₂ was₂)
      · cases hnew₂
        exact absurd hold₁ (hfree w₁ was₁)
      · exact h.apart w₁ w₂ j was₁ was₂ hold₁ hold₂
    · intro j file' hj hrunning
      rcases getElem?_modify_eq_some.mp hj with ⟨rfl, old, hold, rfl⟩ | ⟨-, hsame⟩
      · exact ⟨w, file.failed, getElem?_set_eq_some.mpr (.inl ⟨rfl, hlt, rfl⟩)⟩
      · obtain ⟨w', was, hw'⟩ := h.held j file' hsame hrunning
        exact ⟨w', was, hstay _ w' j was hw'⟩
    · intro _ j file' hj hfile'
      have hj : j < index + 1 := hj
      rcases getElem?_modify_eq_some.mp hfile' with ⟨rfl, old, hold, rfl⟩ | ⟨hne, hsame⟩
      · exact .inl rfl
      · by_cases hpast : j < s.nextUploadIndex
        · exact h.passed huploading j file' hpast hsame
        · exact hskipped j file' (by omega) (by omega) hsame
    · intro w' hw'
      obtain ⟨-, hold⟩ := hkept _ _ w' hw' nofun
      have hend := h.ended w' hold
      have hindex : index < s.fileQueue.length := (List.getElem?_eq_some_iff.mp hfile).1
      omega
    · intro hverifying
      simp only [huploading] at hverifying
      cases hverifying
  · refine ⟨fun hne => absurd huploading hne, fun _ =>
      hstaffed _, ?_, ?_, ?_, ?_, fun _ _ => rfl, ?_⟩
    · intro w' j was hw'
      exact h.holds w' j was (hkept _ _ w' hw' nofun).2
    · intro w₁ w₂ j was₁ was₂ hw₁ hw₂
      exact h.apart w₁ w₂ j was₁ was₂ (hkept _ _ w₁ hw₁ nofun).2 (hkept _ _ w₂ hw₂ nofun).2
    · intro j file' hj hrunning
      obtain ⟨w', was, hw'⟩ := h.held j file' hj hrunning
      exact ⟨w', was, hstay _ w' j was hw'⟩
    · intro _ j file' _ hj
      by_cases hpast : j < s.nextUploadIndex
      · exact h.passed huploading j file' hpast hj
      · exact hall j file' (by omega) hj
    · intro hverifying
      simp only [huploading] at hverifying
      cases hverifying

/-- When all workers have ended, every file is done and none runs. -/
theorem Working.joinWorkers (h : Working s) (hphase : s.phase = .uploading)
    (hall : s.workers.all (· = .ended) = true) : Working s.joinWorkers := by
  have hended : ∀ worker ∈ s.workers, worker = .ended := by
    intro worker hworker
    exact of_decide_eq_true (List.all_eq_true.mp hall worker hworker)
  have hrun : ∀ file ∈ s.fileQueue, file.running = false := by
    intro file hfile
    obtain ⟨index, hindex⟩ := List.mem_iff_getElem?.mp hfile
    by_contra hrunning
    rw [Bool.not_eq_false] at hrunning
    obtain ⟨w, was, hw⟩ := h.held index file hindex hrunning
    cases hended _ (List.mem_of_getElem? hw)
  refine .of_rest nofun rfl hrun fun _ file hfile => ?_
  obtain ⟨index, hindex⟩ := List.mem_iff_getElem?.mp hfile
  have hnext : s.nextUploadIndex = s.fileQueue.length := by
    cases hworkers : s.workers with
    | nil => exact absurd hworkers (h.staffed hphase)
    | cons worker rest =>
      refine h.ended 0 ?_
      rw [hworkers, List.getElem?_cons_zero, hended worker (by rw [hworkers]; exact .head _)]
  have hlt : index < s.nextUploadIndex := by
    rw [hnext]
    exact (List.getElem?_eq_some_iff.mp hindex).1
  rcases h.passed hphase index file hlt hindex with hrunning | hdone
  · rw [hrun file hfile] at hrunning
    cases hrunning
  · exact hdone

theorem Working.finishRun (h : Working s) (hphase : s.phase = .verifying) :
    Working s.finishRun := by
  have hne : s.phase ≠ .uploading := by
    rw [hphase]
    decide
  exact .of_rest nofun (h.quiet hne) (h.rests hne) nofun

/-- **The step lemma.** -/
theorem Working.step (h : Working s) {l : QueueAction} (hs : s.step l = some s') : Working s' := by
  cases l with
  | addFiles files =>
    cases hs
    exact h.addFiles files
  | resetFiles =>
    cases hs
    exact h.resetFiles
  | uploadFiles =>
    cases hs
    exact h.requestRun
  | configured =>
    obtain ⟨hphase, hs⟩ := Option.ite_none_right_eq_some.mp hs
    cases hs
    exact h.beginRun hphase
  | preflight answers =>
    obtain ⟨hphase, hs⟩ := Option.ite_none_right_eq_some.mp hs
    cases hs
    exact h.preflight hphase answers
  | take w =>
    obtain ⟨hw, hs⟩ := Option.ite_none_right_eq_some.mp hs
    cases hs
    exact h.takeNext hw
  | progress w loadedBytes =>
    obtain ⟨index, was, file, loaded, hw, hfile, -, g, net, hg, rfl⟩ := progress_spec hs
    exact h.advance hw hfile (by rw [hg]) (by rw [hg]) (by rw [hg]) rfl rfl rfl rfl
  | succeed w result =>
    obtain ⟨index, was, file, hw, hfile, g, net, hg, rfl⟩ := succeed_spec hs
    exact h.complete hw hfile (by rw [hg]) (by rw [hg]) rfl rfl rfl rfl
  | fail w =>
    obtain ⟨index, was, file, hw, hfile, rfl⟩ := fail_spec hs
    exact h.complete hw hfile rfl rfl rfl rfl rfl rfl
  | joined =>
    obtain ⟨⟨hphase, hall⟩, hs⟩ := Option.ite_none_right_eq_some.mp hs
    cases hs
    exact h.joinWorkers hphase hall
  | finish =>
    obtain ⟨hphase, hs⟩ := Option.ite_none_right_eq_some.mp hs
    cases hs
    exact h.finishRun hphase

theorem working_of_run {ok : UploadManager → QueueAction → Prop}
    {concurrency : { n : Nat // 0 < n }}
    (hrun : Run step ok (UploadManager.start concurrency) s) : Working s :=
  hrun.invariant (Working.start concurrency) fun _ _ _ h _ hs => h.step hs

end UploadManager

end LocalMediaTransfer.Browser
