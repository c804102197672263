import LocalMediaTransfer.Browser.UploadRuns

/-!
# The progress of the browser queue

* `Progressed` — the invariant: the global counter is the sum over the files.
* `StartsFresh` — a run starts when no file that is done has completed bytes.
* `progress_accounting` — the counter in every state of a run of the page that meets it, and what
  happens after a start that does not.
-/

set_option autoImplicit false

namespace LocalMediaTransfer.Browser

open Lib

namespace UploadManager

variable {s s' : UploadManager} {w index : Nat} {file : QueuedFile}

/-- The completed bytes of all files. -/
def completedSum (s : UploadManager) : Nat := (s.fileQueue.map (·.completedBytes)).sum

structure Progressed (s : UploadManager) : Prop where
  sum : s.globalCompletedBytes = s.completedSum
  le : ∀ file ∈ s.fileQueue, file.completedBytes ≤ file.size
  fresh : ∀ file ∈ s.fileQueue, file.done = false → file.running = false → file.completedBytes = 0
  full : ∀ file ∈ s.fileQueue, file.done = true → file.failed = false →
    file.completedBytes = file.size
  total : s.totalBytes = (s.fileQueue.map (·.size)).sum

/-- A run that goes on past its first check starts with no completed bytes in a file that succeeded
earlier. -/
def StartsFresh (s : UploadManager) : QueueAction → Prop
  | .configured =>
    (s.fileQueue.map (·.requeue)).all (·.done) = true ∨
      ∀ file ∈ s.fileQueue, file.done = true → file.failed = false → file.completedBytes = 0
  | _ => True

instance (s : UploadManager) : (l : QueueAction) → Decidable (StartsFresh s l)
  | .configured => inferInstanceAs (Decidable ((s.fileQueue.map (·.requeue)).all (·.done) = true ∨
      ∀ file ∈ s.fileQueue, file.done = true → file.failed = false → file.completedBytes = 0))
  | .addFiles _ | .resetFiles | .uploadFiles | .preflight _ | .take _ | .progress _ _ | .succeed _ _
  | .fail _ | .joined | .finish => inferInstanceAs (Decidable True)

/-! ## Steps -/

theorem Progressed.addFiles (h : Progressed s) (files : List (String × String × Nat)) :
    Progressed (s.addFiles files) := by
  unfold UploadManager.addFiles
  split
  · exact h
  · refine ⟨?_, ?_, ?_, ?_, ?_⟩
    · have hsum := h.sum
      unfold completedSum at hsum ⊢
      simp [hsum, Function.comp_def]
    · intro file hfile
      rcases List.mem_append.mp hfile with hold | hfile
      · exact h.le file hold
      · obtain ⟨entry, -, rfl⟩ := List.mem_map.mp hfile
        exact Nat.zero_le _
    · intro file hfile
      rcases List.mem_append.mp hfile with hold | hfile
      · exact h.fresh file hold
      · obtain ⟨entry, -, rfl⟩ := List.mem_map.mp hfile
        exact fun _ _ => rfl
    · intro file hfile
      rcases List.mem_append.mp hfile with hold | hfile
      · exact h.full file hold
      · obtain ⟨entry, -, rfl⟩ := List.mem_map.mp hfile
        intro hdone
        cases hdone
    · simp [h.total, Function.comp_def]

/-- When every file stays done, none was put back into the queue. -/
theorem requeue_of_all_done (hall : (s.fileQueue.map (·.requeue)).all (·.done) = true) :
    s.fileQueue.map (·.requeue) = s.fileQueue := by
  refine (List.map_congr_left fun file hfile => ?_).trans (List.map_id _)
  have hdone := List.all_eq_true.mp hall _ (List.mem_map_of_mem hfile)
  unfold QueuedFile.requeue at hdone ⊢
  split
  · rename_i hretry
    rw [if_pos hretry] at hdone
    cases hdone
  · rfl

/-- A file that is put back, and one that was not done, has no completed bytes. -/
theorem Progressed.requeue_completed (h : Progressed s) (hfile : file ∈ s.fileQueue)
    (hrun : file.running = false)
    (hfresh : file.done = true → file.failed = false → file.completedBytes = 0) :
    file.requeue.completedBytes = 0 := by
  unfold QueuedFile.requeue
  split
  · rfl
  · rename_i hretry
    cases hdone : file.done with
    | false => exact h.fresh file hfile hdone hrun
    | true =>
      refine hfresh hdone ?_
      rw [hdone, Bool.true_and, Bool.not_eq_true] at hretry
      exact hretry

theorem Progressed.beginRun (h : Progressed s) (hworking : Working s)
    (hphase : s.phase = .configuring) (hfresh : StartsFresh s .configured) :
    Progressed s.beginRun := by
  have hrest := hworking.rests (by rw [hphase]; decide)
  unfold UploadManager.beginRun
  simp only
  split
  · rename_i hall
    rw [requeue_of_all_done hall]
    exact ⟨h.sum, h.le, h.fresh, h.full, h.total⟩
  · rename_i hsome
    have hfresh := hfresh.resolve_left hsome
    have hzero : ∀ file ∈ s.fileQueue.map (·.requeue), file.completedBytes = 0 := by
      intro file hfile
      obtain ⟨old, hold, rfl⟩ := List.mem_map.mp hfile
      exact h.requeue_completed hold (hrest old hold) (hfresh old hold)
    refine ⟨?_, ?_, fun file hfile _ _ => hzero file hfile, ?_, ?_⟩
    · refine (List.sum_eq_zero fun n hn => ?_).symm
      obtain ⟨file, hfile, rfl⟩ := List.mem_map.mp hn
      exact hzero file hfile
    · intro file hfile
      rw [hzero file hfile]
      exact Nat.zero_le _
    · intro file hfile
      obtain ⟨old, hold, rfl⟩ := List.mem_map.mp hfile
      unfold QueuedFile.requeue
      split
      · exact fun hdone => by cases hdone
      · exact h.full old hold
    · have hsize : ((s.fileQueue.map (·.requeue)).map (·.size)).sum =
          (s.fileQueue.map (·.size)).sum := by
        refine sum_congr_map fun file _ => ?_
        unfold QueuedFile.requeue
        split <;> rfl
      exact h.total.trans hsize.symm

theorem Progressed.startWorkers (h : Progressed s) : Progressed s.startWorkers := by
  rcases s.startWorkers_cases with ⟨-, he⟩ | ⟨-, he⟩ <;> rw [he] <;>
    exact ⟨h.sum, h.le, h.fresh, h.full, h.total⟩

theorem Progressed.preflight (h : Progressed s) (hworking : Working s)
    (hphase : s.phase = .checking) (answers : PreflightAnswers) :
    Progressed (s.preflight answers) := by
  have hrest := hworking.rests (by rw [hphase]; decide)
  have hzero : ∀ file ∈ s.fileQueue, (answers.skip? file).isSome = true →
      file.completedBytes = 0 :=
    fun file hfile hskip => h.fresh file hfile (skip?_done hskip) (hrest file hfile)
  rcases s.preflight_cases answers with he | he <;> rw [he]
  · exact h.startWorkers
  · refine Progressed.startWorkers ⟨?_, ?_, ?_, ?_, ?_⟩
    · have hdelta : (s.fileQueue.map fun file =>
            if (answers.skip? file).isSome then file.size - file.completedBytes else 0).sum =
          (s.fileQueue.map fun file =>
            if (answers.skip? file).isSome then file.size else 0).sum := by
        refine congrArg List.sum (List.map_congr_left fun file hfile => ?_)
        split
        · rename_i hskip
          rw [hzero file hfile hskip, Nat.sub_zero]
        · rfl
      have hsum : ((s.fileQueue.map (checked answers)).map (·.completedBytes)).sum =
          (s.fileQueue.map (·.completedBytes)).sum + (s.fileQueue.map fun file =>
            if (answers.skip? file).isSome then file.size else 0).sum := by
        refine sum_map_add fun file hfile => ?_
        unfold checked
        cases hskip : answers.skip? file with
        | none => rfl
        | some filename =>
          have hnone := hzero file hfile (by rw [hskip]; rfl)
          simp [QueuedFile.skip, hnone]
      have hglobal := h.sum
      unfold completedSum at hglobal ⊢
      simp only
      rw [hdelta, hsum]
      omega
    · intro file hfile
      obtain ⟨old, hold, rfl⟩ := List.mem_map.mp hfile
      unfold checked
      split
      · exact Nat.le_refl _
      · exact h.le old hold
    · intro file hfile
      obtain ⟨old, hold, rfl⟩ := List.mem_map.mp hfile
      unfold checked
      split
      · exact fun hdone => by cases hdone
      · exact h.fresh old hold
    · intro file hfile
      obtain ⟨old, hold, rfl⟩ := List.mem_map.mp hfile
      unfold checked
      split
      · exact fun _ _ => rfl
      · exact h.full old hold
    · have hsize : ((s.fileQueue.map (checked answers)).map (·.size)).sum =
          (s.fileQueue.map (·.size)).sum := by
        refine sum_congr_map fun file _ => ?_
        unfold checked
        split <;> rfl
      exact h.total.trans hsize.symm

/-- One file of the queue changes. -/
theorem Progressed.modify (h : Progressed s) {g : QueuedFile → QueuedFile}
    (hfile : s.fileQueue[index]? = some file) (hqueue : s'.fileQueue = s.fileQueue.modify index g)
    (hsum : s'.globalCompletedBytes + file.completedBytes =
      s.globalCompletedBytes + (g file).completedBytes)
    (hle : (g file).completedBytes ≤ (g file).size) (hsize : (g file).size = file.size)
    (hfresh : (g file).done = false → (g file).running = false → (g file).completedBytes = 0)
    (hfull : (g file).done = true → (g file).failed = false →
      (g file).completedBytes = (g file).size)
    (htotal : s'.totalBytes = s.totalBytes) : Progressed s' := by
  have hcompleted := sum_modify (·.completedBytes) g hfile
  have hsizes := sum_modify (·.size) g hfile
  have hself : ∀ old, s.fileQueue[index]? = some old → old = file := by
    intro old hold
    rw [hfile] at hold
    cases hold
    rfl
  refine ⟨?_, ?_, ?_, ?_, ?_⟩
  · have hglobal := h.sum
    unfold completedSum at hglobal ⊢
    rw [hqueue]
    omega
  · rw [hqueue]
    exact forall_mem_modify h.le fun old hold => by rw [hself old hold]; exact hle
  · rw [hqueue]
    exact forall_mem_modify h.fresh fun old hold => by rw [hself old hold]; exact hfresh
  · rw [hqueue]
    exact forall_mem_modify h.full fun old hold => by rw [hself old hold]; exact hfull
  · have hold := h.total
    rw [hqueue, htotal]
    omega

/-- **The step lemma.** -/
theorem Progressed.step (h : Progressed s) (hworking : Working s) {l : QueueAction}
    (hfresh : StartsFresh s l) (hs : s.step l = some s') : Progressed s' := by
  cases l with
  | addFiles files =>
    cases hs
    exact h.addFiles files
  | resetFiles =>
    cases hs
    unfold UploadManager.resetFiles
    split
    · exact h
    · exact ⟨rfl, nofun, nofun, nofun, rfl⟩
  | uploadFiles =>
    cases hs
    unfold UploadManager.requestRun
    split
    · exact h
    · split
      · exact h
      · exact ⟨h.sum, h.le, h.fresh, h.full, h.total⟩
  | configured =>
    obtain ⟨hphase, hs⟩ := Option.ite_none_right_eq_some.mp hs
    cases hs
    exact h.beginRun hworking hphase hfresh
  | preflight answers =>
    obtain ⟨hphase, hs⟩ := Option.ite_none_right_eq_some.mp hs
    cases hs
    exact h.preflight hworking hphase answers
  | take w =>
    obtain ⟨-, hs⟩ := Option.ite_none_right_eq_some.mp hs
    cases hs
    rcases s.takeNext_cases w with ⟨index, file, hfile, -, hrun, hdone, -, he⟩ | ⟨-, he⟩ <;> rw [he]
    · have hzero := h.fresh file (List.mem_of_getElem? hfile) hdone hrun
      refine h.modify hfile rfl ?_ (Nat.zero_le _) rfl (fun _ _ => rfl) ?_ rfl
      · rw [hzero]
        rfl
      · intro hnot
        rw [show (startUpload file).done = file.done from rfl, hdone] at hnot
        cases hnot
    · exact ⟨h.sum, h.le, h.fresh, h.full, h.total⟩
  | progress w loadedBytes =>
    obtain ⟨index, was, file, loaded, hw, hfile, hloaded, g, net, hg, rfl⟩ := progress_spec hs
    obtain ⟨held, hheld, hrun, hdone, -⟩ := hworking.holds w index was hw
    rw [hfile] at hheld
    cases hheld
    have hle := h.le file (List.mem_of_getElem? hfile)
    refine h.modify hfile rfl ?_ ?_ ?_ ?_ ?_ rfl <;> rw [hg]
    · simp only
      omega
    · exact Nat.max_le.mpr ⟨hle, hloaded⟩
    · intro _ hnot
      rw [show ({ file with .. } : QueuedFile).running = file.running from rfl, hrun] at hnot
      cases hnot
    · intro hnot
      rw [show ({ file with .. } : QueuedFile).done = file.done from rfl, hdone] at hnot
      cases hnot
  | succeed w result =>
    obtain ⟨index, was, file, hw, hfile, g, net, hg, rfl⟩ := succeed_spec hs
    have hle := h.le file (List.mem_of_getElem? hfile)
    refine h.modify hfile rfl ?_ ?_ ?_ ?_ ?_ rfl <;> rw [hg]
    · simp only
      omega
    · exact Nat.max_le.mpr ⟨hle, Nat.le_refl _⟩
    · exact fun hnot => by cases hnot
    · exact fun _ _ => Nat.max_eq_right hle
  | fail w =>
    obtain ⟨index, was, file, hw, hfile, rfl⟩ := fail_spec hs
    have hle := h.le file (List.mem_of_getElem? hfile)
    exact h.modify hfile rfl rfl hle rfl (fun hnot => by cases hnot)
      (fun _ hnot => by cases hnot) rfl
  | joined =>
    obtain ⟨-, hs⟩ := Option.ite_none_right_eq_some.mp hs
    cases hs
    exact ⟨h.sum, h.le, h.fresh, h.full, h.total⟩
  | finish =>
    obtain ⟨-, hs⟩ := Option.ite_none_right_eq_some.mp hs
    cases hs
    exact ⟨h.sum, h.le, h.fresh, h.full, h.total⟩

theorem progressed_of_run {concurrency : { n : Nat // 0 < n }}
    (hrun : Run step StartsFresh (UploadManager.start concurrency) s) : Progressed s := by
  induction hrun with
  | refl => exact ⟨rfl, nofun, nofun, nofun, rfl⟩
  | tail hr hok hs ih => exact ih.step (working_of_run hr) hok hs

/-! ## The counter -/

theorem Progressed.le_total (h : Progressed s) : s.globalCompletedBytes ≤ s.totalBytes := by
  rw [h.sum, h.total]
  exact List.sum_le_sum h.le

/-- When every file has succeeded, all bytes are completed. -/
theorem Progressed.eq_total (h : Progressed s)
    (hall : ∀ file ∈ s.fileQueue, file.done = true ∧ file.failed = false) :
    s.globalCompletedBytes = s.totalBytes := by
  rw [h.sum, h.total]
  refine congrArg List.sum (List.map_congr_left fun file hfile => ?_)
  exact h.full file hfile (hall file hfile).1 (hall file hfile).2

/-- After a start that is not fresh the counter is behind the files. -/
theorem behind_of_not_fresh {l : QueueAction} (hfresh : ¬ StartsFresh s l)
    (hs : s.step l = some s') : s'.globalCompletedBytes < s'.completedSum := by
  cases l with
  | configured =>
    obtain ⟨-, hs⟩ := Option.ite_none_right_eq_some.mp hs
    cases hs
    obtain ⟨hsome, hcompleted⟩ := not_or.mp hfresh
    push Not at hcompleted
    obtain ⟨file, hfile, hdone, hfailed, hne⟩ := hcompleted
    unfold UploadManager.beginRun
    simp only
    rw [if_neg hsome]
    have hmem : file.completedBytes ∈ ((s.fileQueue.map (·.requeue)).map (·.completedBytes)) := by
      have hkept : file.requeue = file := by
        unfold QueuedFile.requeue
        rw [hdone, hfailed]
        rfl
      rw [List.map_map]
      refine List.mem_map.mpr ⟨file, hfile, ?_⟩
      rw [Function.comp_apply, hkept]
    have hle := List.single_le_sum (fun _ _ => Nat.zero_le _) _ hmem
    unfold completedSum
    simp only
    omega
  | _ => exact absurd trivial hfresh

/-- **The global counter.**  In every state of a run of the page whose upload runs all start fresh,
`globalCompletedBytes` is the sum of the files' completed bytes and at most `totalBytes`, and equal
to it at the end of an upload run in which every file has succeeded; after a start that is not
fresh it is less than the sum. -/
theorem progress_accounting (concurrency : { n : Nat // 0 < n }) :
    (∀ s, Run step StartsFresh (UploadManager.start concurrency) s →
      (s.globalCompletedBytes = s.completedSum ∧ s.globalCompletedBytes ≤ s.totalBytes) ∧
      ∀ s', s.step .finish = some s' →
        (∀ file ∈ s'.fileQueue, file.done = true ∧ file.failed = false) →
        s'.globalCompletedBytes = s'.totalBytes) ∧
    ∀ s s' l, Run step (fun _ _ => True) (UploadManager.start concurrency) s →
      ¬ StartsFresh s l → s.step l = some s' → s'.globalCompletedBytes < s'.completedSum := by
  refine ⟨fun s hrun => ?_, fun s s' l _ hfresh hs => behind_of_not_fresh hfresh hs⟩
  have h := progressed_of_run hrun
  refine ⟨⟨h.sum, h.le_total⟩, fun s' hs hall => ?_⟩
  exact (progressed_of_run (hrun.tail (show StartsFresh s .finish from trivial) hs)).eq_total hall

/-- A file fails after some progress, and is uploaded by a second run. -/
def retryAfterProgress : List QueueAction :=
  [.addFiles [("a", "a.jpg", 10)], .uploadFiles, .configured,
    .preflight ⟨none, true, none⟩, .take 0,
    .progress 0 (some 4), .fail 0, .take 0, .joined, .finish, .uploadFiles, .configured,
    .preflight ⟨none, true, none⟩, .take 0, .progress 0 (some 12), .succeed 0 none,
      .take 0, .joined]

theorem progress_accounting_retry :
    ∃ s s' : UploadManager, Run step StartsFresh (UploadManager.start ⟨1, by decide⟩) s ∧
      s.step .finish = some s' ∧ s'.totalBytes = 10 ∧ s'.globalCompletedBytes = s'.totalBytes := by
  obtain ⟨s, hrun, htest⟩ := Run.exists_of_exec step (P := StartsFresh)
    (fun s l => decide (StartsFresh s l))
    (fun s => s.phase = .verifying ∧ s.totalBytes = 10 ∧
      s.fileQueue.all (fun file => file.done && !file.failed) = true)
    (UploadManager.start ⟨1, by decide⟩) retryAfterProgress (fun _ _ h => of_decide_eq_true h)
    (by decide)
  obtain ⟨hphase, htotal, hall⟩ := of_decide_eq_true htest
  have hs : s.step .finish = some s.finishRun := if_pos hphase
  refine ⟨s, s.finishRun, hrun, hs, htotal,
    ((progress_accounting ⟨1, by decide⟩).1 s hrun).2 s.finishRun hs fun file hfile => ?_⟩
  simpa using List.all_eq_true.mp hall file hfile

/-- A file of 10 bytes is uploaded, another one is added, and the second run starts. -/
def secondRun : List QueueAction :=
  [.addFiles [("a", "a.jpg", 10)], .uploadFiles, .configured,
    .preflight ⟨none, true, none⟩, .take 0,
    .progress 0 (some 4), .succeed 0 none, .take 0, .joined, .finish, .addFiles [("b", "b.jpg", 5)],
    .uploadFiles, .configured]

/-- The second run forgets the bytes of the first. -/
theorem second_run_behind :
    ¬ ∀ s : UploadManager, Run step (fun _ _ => True) (UploadManager.start ⟨1, by decide⟩) s →
      s.globalCompletedBytes = s.completedSum := by
  intro hall
  obtain ⟨s, hrun, htest⟩ := Run.exists_of_exec step (P := fun _ _ => True) (fun _ _ => true)
    (fun s => s.globalCompletedBytes = 0 ∧ s.completedSum = 10)
    (UploadManager.start ⟨1, by decide⟩) secondRun (fun _ _ _ => trivial) (by decide)
  obtain ⟨hglobal, hsum⟩ := of_decide_eq_true htest
  have heq := hall s hrun
  omega

end UploadManager

end LocalMediaTransfer.Browser
