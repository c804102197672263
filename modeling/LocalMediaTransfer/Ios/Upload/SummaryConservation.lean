import LocalMediaTransfer.Ios.Upload.UploadAccounts

/-!
# The summary of a run adds up

* `Summing` — the function holds the counts of the run.
* `ended_of_complete` — every item of a window has ended when the run completes.
* `summary_conservation` — **the summary of a run that calls `onComplete` adds up**.
-/

set_option autoImplicit false

namespace LocalMediaTransfer

open Lib UploadRun

namespace UploadRun

variable {cfg : UploadConfig} {s s' t u : UploadRun} {l : RunLabel}

/-! ## The summary -/

/-- Outside the function's own steps, nothing leads away from a state past the pipeline. -/
theorem runStep_main (hpast : s.main.isPast = true) (hs : runStep cfg s l = some s') :
    s'.main = s.main ∨ s.mainStep cfg = some s' := by
  have hnot : ∀ main : MainPc, main.isPast = false → s.main ≠ main := by
    rintro main hmain rfl
    rw [hpast] at hmain
    cases hmain
  cases l with
  | cancel =>
    simp only [runStep] at hs
    split at hs
    · cases hs
    · cases hs
      exact .inl rfl
  | thermalChanged state =>
    cases hs
    exact .inl rfl
  | begun succeeds =>
    simp only [runStep, if_neg (hnot .beginTransfer rfl)] at hs
    cases hs
  | thermalRead state =>
    simp only [runStep, if_neg (hnot .thermalState rfl)] at hs
    cases hs
  | pinged succeeds =>
    simp only [runStep, if_neg (hnot .ping rfl)] at hs
    cases hs
  | main => exact .inr hs
  | settle =>
    simp only [runStep, settle] at hs
    split at hs
    · rename_i hm
      exact absurd hm (hnot _ rfl)
    · rename_i hm
      exact absurd hm (hnot _ rfl)
    · cases hs
  | producer =>
    left
    rcases producerStep_feed hs with hfeed | ⟨-, hfeed, -⟩
    · exact main_of_feed hfeed
    · exact congrArg Prod.snd hfeed
  | prepared window => exact .inl (main_of_feed (prepared_feed hs))
  | preflightDone peers => exact .inl (main_of_feed (preflightDone_feed hs))
  | enqueuer => exact .inl (enqueuerStep_windows hs).2.1
  | worker w => exact .inl (main_of_feed (workerStep_feed hs))
  | acknowledged w reportedBytes =>
    simp only [runStep] at hs
    split at hs
    · cases hs
      exact .inl rfl
    · cases hs
  | uploaded w reply =>
    simp only [runStep] at hs
    split at hs
    · cases hs
      exact .inl (finishUpload_main ..)
    · cases hs

/-- The counts of an undisturbed run are final when its outcome is fixed. -/
theorem Drained.counts (h : s.Drained) (hquiet : s.producer.isActive = false)
    (hm : s.main ≠ .logPrepared) (hl : LedgerStep cfg s l s') :
    s'.outcomes = s.outcomes ∧ s'.readyFiles = s.readyFiles := by
  cases hl with
  | carried hc => exact ⟨hc.same.1, hc.same.2.2.2.1⟩
  | prepared hpc =>
    rw [hpc] at hquiet
    cases hquiet
  | preflight hpc =>
    rw [hpc] at hquiet
    cases hquiet
  | counted hpc =>
    rw [hpc] at hquiet
    cases hquiet
  | skipped hw | refused hw | acknowledged hw | saved hw | verified hw | failed hw =>
    exact (h.not_working ⟨fun _ _ => 1, by rw [hw]; exact Nat.one_pos⟩).elim
  | concluded hm' => exact absurd hm' hm
  | completed _ _ _ _ hr =>
    exact ⟨congrArg Ledger.outcomes hr.ledger, congrArg Ledger.readyFiles hr.ledger⟩

/-- The summary of the counters. -/
def counted (s : UploadRun) (status : TransferCompletionStatus) : UploadSummary :=
  s.summary status s.outcomes.failedFiles (s.readyFiles + s.outcomes.preparationFailedFiles)

/-- The function holds the counts of the run. -/
structure Summing (s : UploadRun) : Prop where
  finish : ∀ status failedFiles expandedFiles, s.main = .finish status failedFiles expandedFiles →
    s.summary status failedFiles expandedFiles = s.counted status
  history : ∀ summary, s.main = .history summary → summary = s.counted summary.completionStatus
  logDone : ∀ summary, s.main = .logDone summary → summary = s.counted summary.completionStatus

/-- The function holds no counts. -/
theorem Summing.of_main (h : (∀ status failedFiles expandedFiles,
      s.main ≠ .finish status failedFiles expandedFiles) ∧
    (∀ summary, s.main ≠ .history summary) ∧ ∀ summary, s.main ≠ .logDone summary) : Summing s :=
  ⟨fun _ _ _ hm => absurd hm (h.1 _ _ _), fun _ hm => absurd hm (h.2.1 _),
    fun _ hm => absurd hm (h.2.2 _)⟩

theorem Summing.of_not_past (h : s.main.isPast = false) : Summing s := by
  refine .of_main ⟨fun _ _ _ hm => ?_, fun _ hm => ?_, fun _ hm => ?_⟩ <;> rw [hm] at h <;> cases h

theorem counted_congr (houtcomes : s'.outcomes = s.outcomes) (hready : s'.readyFiles = s.readyFiles)
    (status : TransferCompletionStatus) : s'.counted status = s.counted status := by
  unfold counted summary
  rw [houtcomes, hready]

theorem finallyBlock_main : s.finallyBlock.main = .cancelSession ∨
    s.finallyBlock.main = .endTransfer := by
  unfold finallyBlock
  split
  · exact .inl rfl
  · exact .inr rfl

theorem Summing.finallyBlock : Summing s.finallyBlock := by
  rcases @finallyBlock_main s with hm | hm <;>
    exact .of_main (by rw [hm]; exact ⟨nofun, nofun, nofun⟩)

theorem Summing.mainStep (h : Summing s) (hpast : s.main.isPast = true)
    (hs : s.mainStep cfg = some s') : Summing s' := by
  unfold UploadRun.mainStep at hs
  cases hm : s.main with
  | logPrepared =>
    rw [hm] at hs
    cases hs
    refine ⟨fun _ _ _ hm' => ?_, fun _ hm' => ?_, fun _ hm' => ?_⟩
    · cases hm'
      rfl
    · cases hm'
    · cases hm'
  | finish status failedFiles expandedFiles =>
    rw [hm] at hs
    cases hs
    refine ⟨fun _ _ _ hm' => ?_, fun _ hm' => ?_, fun _ hm' => ?_⟩
    · cases hm'
    · cases hm'
      exact h.finish _ _ _ hm
    · cases hm'
  | history summary =>
    rw [hm] at hs
    cases hs
    refine ⟨fun _ _ _ hm' => ?_, fun _ hm' => ?_, fun _ hm' => ?_⟩
    · cases hm'
    · cases hm'
    · cases hm'
      exact h.history _ hm
  | logDone summary =>
    rw [hm] at hs
    cases hs
    split <;> exact .finallyBlock
  | cancelSession | endTransfer | metrics =>
    rw [hm] at hs
    cases hs
    exact .of_main ⟨nofun, nofun, nofun⟩
  | finished =>
    rw [hm] at hs
    cases hs
  | _ =>
    rw [hm] at hpast
    cases hpast

theorem summing_of_run (hrun : Run (runStep cfg) NewItems (UploadRun.start cfg) t) :
    ¬t.Disturbed → Summing t := by
  have hstep : ∀ s l s', Kept cfg s ∧ (¬s.Disturbed → Summing s) → s.NewItems l →
      runStep cfg s l = some s' → Kept cfg s' ∧ (¬s'.Disturbed → Summing s') := by
    rintro s l s' ⟨hkept, hsumming⟩ hok hs
    refine ⟨hkept.step hok hs, fun hnd' => ?_⟩
    have hnd := (hkept.orderly.smooth hs hnd').1
    cases hpast' : s'.main.isPast with
    | false => exact .of_not_past hpast'
    | true =>
      rcases runStep_past hnd hnd' hs hpast' with hpast | hsettle
      · rcases runStep_main hpast hs with hmain | hmainStep
        · by_cases hprepared : s.main = .logPrepared
          · exact .of_main (by rw [hmain, hprepared]; exact ⟨nofun, nofun, nofun⟩)
          · have hsound := hkept.orderly.sound hnd
            obtain ⟨houtcomes, hready⟩ := (hsound.drained hpast).counts (hsound.quiet hpast)
              hprepared (runStep_ledger hkept.orderly.parked hs)
            obtain ⟨hfinish, hhistory, hlogDone⟩ := hsumming hnd
            have hcounted := counted_congr houtcomes hready
            refine ⟨fun _ _ _ hm => ?_, fun _ hm => ?_, fun _ hm => ?_⟩ <;> rw [hcounted]
            · rw [← hfinish _ _ _ (hmain ▸ hm), summary, summary, houtcomes]
            · exact hhistory _ (hmain ▸ hm)
            · exact hlogDone _ (hmain ▸ hm)
        · exact (hsumming hnd).mainStep hpast hmainStep
      · rw [(settle_past hsettle hpast').1]
        exact .of_main ⟨nofun, nofun, nofun⟩
  refine (Run.invariant (I := fun s => Kept cfg s ∧ (¬s.Disturbed → Summing s)) hrun
    ⟨kept_of_run (.refl _), fun _ => .of_not_past rfl⟩ hstep).2

/-! ## The items of a window -/

/-- What is reported stays reported. -/
theorem LedgerStep.mem_log (hl : LedgerStep cfg s l s') {e : RunEvent} (he : e ∈ s.log) :
    e ∈ s'.log := by
  have happend : ∀ {ledger : Ledger} {new : List RunEvent}, s'.ledger = ledger →
      ledger.log = s.log ++ new → e ∈ s'.log := by
    intro ledger new hledger hlog
    rw [show s'.log = _ from (congrArg Ledger.log hledger).trans hlog]
    exact List.mem_append_left _ he
  cases hl with
  | carried hc | counted _ hc =>
    obtain ⟨new, hledger, -⟩ := hc.ledger
    exact happend hledger rfl
  | prepared _ _ hr | concluded _ _ _ _ hr =>
    rw [show s'.log = _ from congrArg Ledger.log hr.ledger]
    exact mem_foldl_markFailure _ _ he
  | preflight | acknowledged => exact he
  | skipped _ _ hc | refused _ _ _ hc | saved _ _ hc | verified _ _ hc | failed _ _ hc =>
    exact happend hc.ledger rfl
  | completed _ _ _ _ hr => exact happend hr.ledger rfl

theorem Accounts.terminal_mono (h : s.Accounts) (h' : s'.Accounts) (hl : LedgerStep cfg s l s')
    {id : String} (hid : id ∈ s.outcomes.terminalIds) : id ∈ s'.outcomes.terminalIds := by
  obtain ⟨e, he, hterminal⟩ := List.mem_filterMap.mp (h.booked.mem_terminal.mp hid)
  exact h'.booked.mem_terminal.mpr (List.mem_filterMap.mpr ⟨e, hl.mem_log he, hterminal⟩)

/-- A step that loses no file keeps the IDs of the prepared ones. -/
theorem LedgerStep.mem_fileIds (hl : LedgerStep cfg s l s') (hsmooth : Smooth cfg s l) {id : String}
    (hid : id ∈ s.fileIds) : id ∈ s'.fileIds := by
  have hframe : s'.checkedFiles = s.checkedFiles → s'.producer.unchecked = s.producer.unchecked →
      id ∈ s'.fileIds := by
    intro hchecked hunchecked
    rwa [fileIds, hchecked, hunchecked]
  cases hl with
  | carried hc => exact hframe hc.same.2.1 (hc.unchecked_eq hsmooth)
  | @counted files _ hpc hc =>
    refine hframe (hc.same.2.1.trans rfl) ((hc.unchecked_eq hsmooth).trans ?_)
    rw [hpc]
    rfl
  | @prepared window _ hpc hpc' hr =>
    have hmarked := foldl_markFailure_marked
      (window.failures.map fun failure => (failure.asset, failure.itemId, failure.code))
      { s.ledger with readyFiles := s.readyFiles + window.files.length }
    have hchecked : s'.checkedFiles = s.checkedFiles := by
      unfold checkedFiles
      rw [show s'.checked = _ from congrArg Ledger.checked hr.ledger, hmarked.rest]
      rfl
    rw [fileIds, hpc] at hid
    rw [fileIds, hchecked, List.map_append]
    exact List.mem_append_left _ (by simpa [ProducerPc.unchecked] using hid)
  | preflight hpc _ =>
    rw [recordPreflight_fileIds hpc]
    exact hid
  | acknowledged => exact hid
  | skipped _ _ hc | refused _ _ _ hc | saved _ _ hc | verified _ _ hc | failed _ _ hc =>
    refine hframe ?_ (by rw [hc.producer])
    exact congrArg (fun ledger => ledger.checked.map (·.1)) hc.ledger
  | @concluded failures _ _ _ hproducer _ hr =>
    refine hframe ?_ (by rw [hproducer])
    unfold checkedFiles
    rw [show s'.checked = _ from congrArg Ledger.checked hr.ledger,
      (foldl_markFailure_marked failures s.ledger).rest]
    rfl
  | completed _ _ hproducer _ hr =>
    refine hframe ?_ (by rw [hproducer])
    exact congrArg (fun ledger => ledger.checked.map (·.1)) hr.ledger

/-- The run knows the items of a window. -/
structure Knows (s : UploadRun) (window : PreparedWindow) : Prop where
  files : ∀ file ∈ window.files, file.variantId ∈ s.fileIds
  failures : ∀ failure ∈ window.failures, failure.itemId ∈ s.outcomes.terminalIds

/-- The items of a window have ended. -/
structure Ended (s : UploadRun) (window : PreparedWindow) : Prop where
  files : ∀ file ∈ window.files, file.variantId ∈ s.outcomes.terminalIds
  failures : ∀ failure ∈ window.failures, failure.itemId ∈ s.outcomes.terminalIds

theorem not_disturbed_of_logDone {summary : UploadSummary} (hm : s.main = .logDone summary)
    (hc : s.isCancelled = false) : ¬s.Disturbed := by
  rintro (h | h | ⟨h, -⟩)
  · rw [hc] at h
    cases h
  · rw [hm] at h
    cases h
  · rw [hm] at h
    cases h

/-- A window that was prepared is known unless the run was cancelled meanwhile. -/
theorem knows_of_prepared (hkept : Kept cfg s) {window : PreparedWindow}
    (hs : runStep cfg s (.prepared (some window)) = some s') :
    s.producer = .preparing ∧ (¬s'.Disturbed → s'.Knows window) := by
  simp only [runStep, prepared] at hs
  split at hs
  · rename_i hpc
    refine ⟨hpc, fun hnd' => ?_⟩
    cases hs
    split at hnd'
    · rename_i hc
      exact absurd (.inl hc) hnd'
    · have hr := @recordWindow_records cfg s hkept.orderly.parked hpc window
      rw [if_neg (by assumption)]
      refine ⟨fun file hfile => ?_, fun failure hfailure => ?_⟩
      · exact List.mem_map_of_mem (List.mem_append_right _ hfile)
      · rw [show (s.recordWindow cfg window).outcomes = _ from congrArg Ledger.outcomes hr.ledger]
        refine ((foldl_markFailure_marked _ _).terminal _).mpr (.inr ?_)
        rw [List.map_map]
        exact List.mem_map.mpr ⟨failure, hfailure, rfl⟩
  · cases hs

theorem ended_of_complete {window : PreparedWindow}
    (hrun : Run (runStep cfg) NewItems (UploadRun.start cfg) s) (hok : s.FreshWindow window)
    (hs : runStep cfg s (.prepared (some window)) = some s')
    (hrun' : Run (runStep cfg) NewItems s' t) :
    (¬t.Disturbed → t.Knows window) ∧
      ∀ summary, .complete summary ∈ t.log → t.Ended window := by
  have hprepared : Run (runStep cfg) NewItems (UploadRun.start cfg) s' :=
    .tail (l := .prepared (some window)) hrun hok hs
  induction hrun' with
  | refl =>
    obtain ⟨hpc, hknows⟩ := knows_of_prepared (kept_of_run hrun) hs
    refine ⟨hknows, fun summary he => ?_⟩
    rcases complete_of_step (runStep_ledger (kept_of_run hrun).orderly.parked hs) he with
      hmem | ⟨hl, -⟩
    · obtain ⟨_, _, _, hcompletion⟩ := completion_of_complete hrun hmem
      have hquiet := hcompletion.stopped.producer
      rw [hpc] at hquiet
      cases hquiet
    · cases hl
  | @tail u t l hrun'' hok' hs' ih =>
    have hkept := kept_of_run (hprepared.trans hrun'')
    have hkept' := hkept.step hok' hs'
    have hledger := runStep_ledger hkept.orderly.parked hs'
    have hmono : ∀ id ∈ u.outcomes.terminalIds, id ∈ t.outcomes.terminalIds :=
      fun _ => hkept.accounts.terminal_mono hkept'.accounts hledger
    refine ⟨fun hnd' => ?_, fun summary he => ?_⟩
    · obtain ⟨hnd, hsmooth⟩ := hkept.orderly.smooth hs' hnd'
      obtain ⟨hfiles, hfailures⟩ := ih.1 hnd
      exact ⟨fun file hfile => hledger.mem_fileIds hsmooth (hfiles file hfile),
        fun failure hfailure => hmono _ (hfailures failure hfailure)⟩
    · rcases complete_of_step hledger he with hmem | ⟨rfl, hm, hc, -, -, -⟩
      · obtain ⟨hfiles, hfailures⟩ := ih.2 summary hmem
        exact ⟨fun file hfile => hmono _ (hfiles file hfile),
          fun failure hfailure => hmono _ (hfailures failure hfailure)⟩
      · have hnd := not_disturbed_of_logDone hm hc
        obtain ⟨hfiles, hfailures⟩ := ih.1 hnd
        have hended := (hkept.drained hnd (by rw [hm]; rfl)).2
        exact ⟨fun file hfile => hmono _ (hended _ (hfiles file hfile)),
          fun failure hfailure => hmono _ (hfailures failure hfailure)⟩

/-- **Summary conservation.**  In every run of distinct items, whatever is prepared, answered and
uploaded and in whatever order the tasks resume, no more bytes are acknowledged than planned, and
when the run calls `onComplete`: its uploaded, skipped and failed files are together the expanded
files, which are the ready files and the preparation failures; no item has two outcomes, and every
prepared file and every preparation failure of a window has one; and the uploaded and the skipped
bytes are the sizes of the files so reported. -/
theorem summary_conservation (hrun : Run (runStep cfg) NewItems (UploadRun.start cfg) t) :
    t.uploadedMediaBytes ≤ t.plannedUploadMediaBytes ∧
    ∀ summary, .complete summary ∈ t.log →
      summary.uploadedFiles + summary.skippedFiles + summary.failedFiles = summary.expandedFiles ∧
      summary.expandedFiles = t.readyFiles + t.outcomes.preparationFailedFiles ∧
      (t.log.filterMap RunEvent.terminalId).Nodup ∧
      (∀ u window u', Run (runStep cfg) NewItems (UploadRun.start cfg) u → u.FreshWindow window →
        runStep cfg u (.prepared (some window)) = some u' → Run (runStep cfg) NewItems u' t →
        (∀ file ∈ window.files,
          (t.log.filterMap RunEvent.terminalId).count file.variantId = 1) ∧
        ∀ failure ∈ window.failures,
          (t.log.filterMap RunEvent.terminalId).count failure.itemId = 1) ∧
      summary.uploadedBytes = sizes (t.log.filterMap RunEvent.savedFile) ∧
      summary.skippedBytes = sizes (t.log.filterMap RunEvent.skippedFile) := by
  have hkept := kept_of_run hrun
  have hbooked := hkept.accounts.booked
  refine ⟨hkept.accounts.uploaded_le, fun summary he => ?_⟩
  obtain ⟨s, hstart, hend, hm, hnd, hdrained, -, ⟨new, hledger, -⟩⟩ :=
    completion_of_complete hrun he
  have houtcomes : t.outcomes = s.outcomes := congrArg Ledger.outcomes hledger
  have hready : t.readyFiles = s.readyFiles := congrArg Ledger.readyFiles hledger
  have hsummary : summary = t.counted summary.completionStatus := by
    rw [counted_congr houtcomes hready]
    exact (summing_of_run hstart hnd).logDone summary hm
  have hconserved := (kept_of_run hstart).conserved hnd
  have hreported : s.reported.length = s.readyFiles := by
    have hbalance := hconserved.balance fun _ => 1
    rw [hdrained.load, Nat.zero_add] at hbalance
    rw [hconserved.ready, fileIds, hdrained.unchecked, List.append_nil, List.length_map]
    simpa [filesWeight, ofFile] using hbalance
  have hfiles := (kept_of_run hstart).accounts.booked.files
  have htotal := hbooked.total
  change s.reported.length + _ = _ at hfiles
  rw [← houtcomes, hreported, ← hready] at hfiles
  refine ⟨?_, ?_, ?_, fun u window u' hrun' hok hs hrun'' => ?_, ?_, ?_⟩
  · rw [hsummary]
    exact htotal.trans hfiles.symm
  · rw [hsummary]
    rfl
  · rw [← hbooked.terminal]
    exact List.nodup_reverse.mpr hbooked.nodup
  · obtain ⟨hended, hfailures⟩ := (ended_of_complete hrun' hok hs hrun'').2 summary he
    exact ⟨fun file hfile => hbooked.count_eq_one (hended file hfile),
      fun failure hfailure => hbooked.count_eq_one (hfailures failure hfailure)⟩
  · rw [hsummary]
    exact hbooked.uploadedBytes
  · rw [hsummary]
    exact hbooked.skippedBytes

/-! ## A run with every outcome -/

instance (s : UploadRun) (window : PreparedWindow) : Decidable (s.FreshWindow window) :=
  decidable_of_iff ((window.files.map (·.variantId)).Nodup ∧
      (∀ file ∈ window.files, file.variantId ∉ s.fileIds ∧
        file.variantId ∉ s.outcomes.terminalIds ∧
        file.variantId ∉ window.failures.map (·.itemId)) ∧
      ∀ failure ∈ window.failures, failure.itemId ∉ s.fileIds)
    ⟨fun ⟨hnodup, hfiles, hfailures⟩ => ⟨hnodup, hfiles, hfailures⟩,
      fun h => ⟨h.nodup, h.files, h.failures⟩⟩

instance (s : UploadRun) (l : RunLabel) : Decidable (s.NewItems l) :=
  match l with
  | .prepared (some window) => inferInstanceAs (Decidable (s.FreshWindow window))
  | .prepared none | .cancel | .begun _ | .thermalRead _ | .pinged _ | .preflightDone _
  | .uploaded _ _ | .thermalChanged _ | .main | .settle | .producer | .enqueuer | .worker _
  | .acknowledged _ _ => isTrue trivial

end UploadRun

/-- The summary that an event reports. -/
def RunEvent.completion : RunEvent → Option UploadSummary
  | .complete summary => some summary
  | _ => none

/-- Four of the assets, streamed. -/
def fourAssets : UploadConfig := { streamingConfig with assets := fiveAssets.take 4 }

/-- Three assets have a file of three bytes, the fourth could not be prepared. -/
def fourItems : PreparedWindow :=
  { files := (fiveFiles.files.take 3).map fun file => { file with size := 3 }
    failures := (fiveAssets.drop 3).take 1 |>.map fun asset =>
      { asset, itemId := "d:failure:4", fileRef := 4, stage := .rendition
        code := .assetNotFound } }

/-- Before the window is prepared. -/
def fourStart : List RunLabel :=
  [.begun true, .thermalRead (some .nominal), .main, .pinged true, .main, .producer]

/-- One file is saved, one fails after an acknowledgement, one is verified by the receiver. -/
def fourOutcomes : List RunLabel :=
  List.flatten [
    [.preflightDone silentPeers, .producer, .producer, .producer, .producer, .producer],
    List.replicate 3 (.worker firstWorker),
    [.acknowledged firstWorker 2, .uploaded firstWorker .saved],
    List.replicate 3 (.worker secondWorker),
    [.acknowledged secondWorker 1, .uploaded secondWorker (.failed .other)],
    List.replicate 4 (.worker firstWorker),
    [.uploaded firstWorker .skipped, .worker firstWorker, .worker firstWorker],
    [.worker secondWorker, .worker secondWorker, .settle, .main, .main, .main, .main]]

namespace UploadRun

theorem summary_conservation_four :
    ∃ (t : UploadRun) (summary : UploadSummary), .complete summary ∈ t.log ∧
      summary.expandedFiles = 4 ∧
      summary.uploadedFiles + summary.skippedFiles + summary.failedFiles = 4 ∧
      t.uploadedMediaBytes ≤ t.plannedUploadMediaBytes ∧
      (t.log.filterMap RunEvent.terminalId).count "b" = 1 ∧
      (t.log.filterMap RunEvent.terminalId).count "d:failure:4" = 1 ∧
      sizes (t.log.filterMap RunEvent.savedFile) = 3 ∧
      sizes (t.log.filterMap RunEvent.skippedFile) = 3 := by
  obtain ⟨u, u', t, hstart, hok, hs, hend, htest⟩ := Run.exists_around_of_exec
    (runStep fourAssets) (P := NewItems) (fun s l => decide (s.NewItems l))
    (fun t => decide (t.log.filterMap RunEvent.completion =
      [⟨4, 1, 1, 2, 3, 3, .mixed⟩])) (UploadRun.start fourAssets) fourStart
    (.prepared (some fourItems)) fourOutcomes (fun _ _ => of_decide_eq_true)
    (by decide)
  have hmem : (⟨4, 1, 1, 2, 3, 3, .mixed⟩ : UploadSummary) ∈
      t.log.filterMap RunEvent.completion := by
    rw [of_decide_eq_true htest]
    exact List.mem_singleton_self _
  obtain ⟨e, he, hcompletion⟩ := List.mem_filterMap.mp hmem
  have hcomplete : e = .complete ⟨4, 1, 1, 2, 3, 3, .mixed⟩ := by
    cases e <;> first | exact congrArg _ (Option.some.inj hcompletion) | cases hcompletion
  rw [hcomplete] at he
  obtain ⟨hplanned, hsummary⟩ := summary_conservation ((Run.tail hstart hok hs).trans hend)
  obtain ⟨htotal, -, -, hitems, huploaded, hskipped⟩ := hsummary _ he
  obtain ⟨hfiles, hfailures⟩ := hitems u fourItems u' hstart hok hs hend
  refine ⟨t, _, he, rfl, htotal, hplanned, ?_, ?_, huploaded.symm, hskipped.symm⟩
  · obtain ⟨file, hfile, hid⟩ := List.mem_map.mp
      (show "b" ∈ fourItems.files.map (·.variantId) by decide)
    rw [← hid]
    exact hfiles file hfile
  · obtain ⟨failure, hfailure, hid⟩ := List.mem_map.mp
      (show "d:failure:4" ∈ fourItems.failures.map (·.itemId) by decide)
    rw [← hid]
    exact hfailures failure hfailure

end UploadRun

end LocalMediaTransfer
