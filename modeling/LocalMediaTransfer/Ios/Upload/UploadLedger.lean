import LocalMediaTransfer.Ios.Upload.UploadFiles

/-!
# The accounts of a run

A step of an upload run moves files, reports what happened to one of them, or writes up a window.

* `Concludes`, `Records` — what a report and what a window do to the accounts.
* `LedgerStep`, `runStep_ledger` — **everything a step can do to the files and their reports**.
-/

set_option autoImplicit false

namespace LocalMediaTransfer

open Lib

namespace UploadRun

variable {cfg : UploadConfig} {s s' t u : UploadRun}

/-! ## What the tasks report -/

theorem processFile_start (hp : s.Parked) {w : Fin 2} {file : PreparedUploadFile}
    (hw : s.workers w = .admitted file true) {p : Prop} :
    Carries s ((s.report (.uploading file)).setWorker w (.uploading file 0)) p := by
  have hshifting : s.workers w ≠ .shifting := by rw [hw]; exact WorkerPc.noConfusion
  have hidle : s.workers w ≠ .idle := by rw [hw]; exact WorkerPc.noConfusion
  have hreport : Carries s (s.report (.uploading file)) True := by
    refine ⟨⟨[.uploading file], rfl, ?_⟩, fun g => le_rfl, fun _ _ => rfl, .inl rfl, fun _ => rfl,
      fun g => le_rfl,
      hp.of_eq rfl rfl id, ?_⟩
    · intro e he
      rw [List.mem_singleton.mp he]
      rfl
    · exact fun hd => hd.of_log rfl rfl fun e he => List.mem_append_left _ he
  have hload : ∀ g, (s.workers w).load g = g file 0 := by
    intro g
    rw [hw]
    rfl
  have hmoved : Carries (s.report (.uploading file))
      ((s.report (.uploading file)).setWorker w (.uploading file 0)) True :=
    .ofWorker hreport.parked _ hshifting (hp.started hidle) (fun g => (hload g).ge) fun _ g =>
      (hload g).symm
  exact (hreport.trans hmoved).imp fun _ => ⟨trivial, trivial⟩

/-- An operation that reports what happened to the file of a worker. -/
structure Concludes (s s' : UploadRun) (w : Fin 2) (ledger : Ledger) : Prop where
  ledger : s'.ledger = ledger
  load : ∀ g, s'.load g + (s.workers w).load g = s.load g
  producer : s'.producer = s.producer
  parked : s'.Parked
  disturbed : s.Disturbed → s'.Disturbed

theorem Concludes.release (hp : s.Parked) {w : Fin 2} (hshifting : s.workers w ≠ .shifting)
    (hidle : s.workers w ≠ .idle) (event : RunEvent) (outcomes : TransferOutcomes) (planned : Nat) :
    Concludes s
      ((({ s with outcomes, plannedUploadMediaBytes := planned } : UploadRun).report
        event).setWorker w
        (.releasing false)) w
      { s.ledger with
        log := s.log ++ [event]
        outcomes := outcomes
        plannedUploadMediaBytes := planned } where
  ledger := rfl
  load g := load_setWorker
    (s := ({ s with outcomes, plannedUploadMediaBytes := planned } : UploadRun).report event) g w
    (.releasing false)
  producer := rfl
  parked := by
    have hreported : (({ s with outcomes, plannedUploadMediaBytes := planned } : UploadRun).report
        event).Parked := hp.of_eq rfl rfl id
    exact hreported.setWorker (hp.notWaiting hshifting) (hp.started hidle) _
  disturbed hd := hd.of_log rfl rfl fun e he => List.mem_append_left _ he

/-! ## Preparation failures -/

/-- `markPreparationFailure`, for the accounts. -/
def markFailure (ledger : Ledger) (failure : MediaAsset × String × TransferErrorCode) : Ledger :=
  let (outcomes, first) := ledger.outcomes.fail failure.2.1 true
  if first then
    { ledger with
      outcomes
      log := ledger.log ++ [.preparationFailed failure.1 failure.2.1 failure.2.2] }
  else ledger

theorem mem_foldl_markFailure {e : RunEvent}
    (failures : List (MediaAsset × String × TransferErrorCode))
    (ledger : Ledger) (he : e ∈ ledger.log) : e ∈ (failures.foldl markFailure ledger).log := by
  induction failures generalizing ledger with
  | nil => exact he
  | cons failure failures ih =>
    refine ih _ ?_
    unfold markFailure
    simp only
    split
    · exact List.mem_append_left _ he
    · exact he

theorem mem_of_foldl_markFailure {e : RunEvent}
    (hne : ∀ asset itemId code, e ≠ .preparationFailed asset itemId code)
    (failures : List (MediaAsset × String × TransferErrorCode)) (ledger : Ledger)
    (he : e ∈ (failures.foldl markFailure ledger).log) : e ∈ ledger.log := by
  induction failures generalizing ledger with
  | nil => exact he
  | cons failure failures ih =>
    have hmem := ih _ he
    unfold markFailure at hmem
    simp only at hmem
    split at hmem
    · exact (List.mem_append.mp hmem).resolve_right fun h => hne _ _ _ (List.mem_singleton.mp h)
    · exact hmem

/-- The accounts differ only. -/
structure SameTasks (s s' : UploadRun) : Prop where
  load : ∀ g, s'.load g = s.load g
  producer : s'.producer = s.producer
  queue : s'.queue = s.queue
  workers : s'.workers = s.workers
  main : s'.main = s.main
  isCancelled : s'.isCancelled = s.isCancelled
  enqueuer : s'.enqueuer = s.enqueuer
  preparedWindows : s'.preparedWindows = s.preparedWindows

theorem SameTasks.disturbed (h : SameTasks s s') (hlog : ∀ e ∈ s.log, e ∈ s'.log)
    (hd : s.Disturbed) :
    s'.Disturbed :=
  hd.of_log h.isCancelled h.main hlog

theorem markPreparationFailure_spec (asset : MediaAsset) (itemId : String)
    (code : TransferErrorCode) :
    SameTasks s (s.markPreparationFailure asset itemId code) ∧
      (s.markPreparationFailure asset itemId code).ledger =
        markFailure s.ledger (asset, itemId, code) := by
  unfold markPreparationFailure markFailure
  rw [show s.ledger.outcomes = s.outcomes from rfl]
  simp only
  split
  · exact ⟨⟨fun _ => rfl, rfl, rfl, rfl, rfl, rfl, rfl, rfl⟩, rfl⟩
  · exact ⟨⟨fun _ => rfl, rfl, rfl, rfl, rfl, rfl, rfl, rfl⟩, rfl⟩

theorem SameTasks.trans (h : SameTasks s t) (h' : SameTasks t u) : SameTasks s u where
  load g := (h'.load g).trans (h.load g)
  producer := h'.producer.trans h.producer
  queue := h'.queue.trans h.queue
  workers := h'.workers.trans h.workers
  main := h'.main.trans h.main
  isCancelled := h'.isCancelled.trans h.isCancelled
  enqueuer := h'.enqueuer.trans h.enqueuer
  preparedWindows := h'.preparedWindows.trans h.preparedWindows

theorem foldl_markPreparationFailure (failures : List PreparationFailure) (s : UploadRun) :
    SameTasks s (failures.foldl
      (fun s failure => s.markPreparationFailure failure.asset failure.itemId
        failure.code) s) ∧
      (failures.foldl (fun s failure => s.markPreparationFailure failure.asset failure.itemId
        failure.code) s).ledger =
        (failures.map fun failure =>
          (failure.asset, failure.itemId, failure.code)).foldl markFailure
          s.ledger := by
  induction failures generalizing s with
  | nil => exact ⟨⟨fun _ => rfl, rfl, rfl, rfl, rfl, rfl, rfl, rfl⟩, rfl⟩
  | cons failure failures ih =>
    obtain ⟨htasks, hledger⟩ := markPreparationFailure_spec (s := s) failure.asset failure.itemId
      failure.code
    obtain ⟨htasks', hledger'⟩ :=
      ih (s.markPreparationFailure failure.asset failure.itemId failure.code)
    refine ⟨htasks.trans htasks', ?_⟩
    rw [List.foldl_cons, hledger', hledger]
    rfl

theorem markMissing_spec (cfg : UploadConfig) (s : UploadRun) : SameTasks s (s.markMissing cfg) ∧
    ∃ failures : List (MediaAsset × String × TransferErrorCode),
      (s.markMissing cfg).ledger = failures.foldl markFailure s.ledger := by
  unfold markMissing
  induction cfg.assets generalizing s with
  | nil => exact ⟨⟨fun _ => rfl, rfl, rfl, rfl, rfl, rfl, rfl, rfl⟩, [], rfl⟩
  | cons asset assets ih =>
    rw [List.foldl_cons]
    split
    · exact ih s
    · obtain ⟨htasks, hledger⟩ := markPreparationFailure_spec (s := s) asset
        (asset.id ++ ":missing")
        .unexpected
      obtain ⟨htasks', failures, hledger'⟩ :=
        ih (s.markPreparationFailure asset (asset.id ++ ":missing") .unexpected)
      refine ⟨htasks.trans htasks', (asset, asset.id ++ ":missing", .unexpected) :: failures, ?_⟩
      rw [hledger', hledger]
      rfl

/-! ## Everything a step can do -/

/-- No file is lost in a step under a label. -/
def Smooth (cfg : UploadConfig) (s : UploadRun) : RunLabel → Prop
  | .main => s.main = .logStarted → s.producer = .idle
  | .settle => s.main = .produce → s.IsOpen ∧ s.enqueuer = .idle
  | .producer => (∀ completed, s.producer ≠ .returned completed) → s.IsOpen
  | .prepared window => window.isSome = true
  | .preflightDone peers => ∀ window, s.producer = .checking window →
      (runDuplicatePreflightWindow cfg.nativeAvailable cfg.skipExactDuplicates peers window.files
        s.outgoingHashes).isSome = true
  | .enqueuer => s.IsOpen
  | .worker w => ∀ file, s.workers w ≠ .admitted file false
  | .uploaded w reply => ∀ file acknowledgedBytes, s.workers w = .uploading file acknowledgedBytes →
      s.isCancelled = false ∧ effectiveReply cfg file reply ≠ .failed .unauthorized
  | _ => True

/-- An operation that changes the accounts and moves no file. -/
structure Records (s s' : UploadRun) (ledger : Ledger) : Prop where
  ledger : s'.ledger = ledger
  load : ∀ g, s'.load g = s.load g
  parked : s'.Parked
  disturbed : s.Disturbed → s'.Disturbed

/-- **Everything a step can do to the files and their reports.** -/
inductive LedgerStep (cfg : UploadConfig) (s : UploadRun) : RunLabel → UploadRun → Prop where
  | carried {l : RunLabel} {s' : UploadRun}
    (h : Carries s s' (Smooth cfg s l)) : LedgerStep cfg s l s'
  | prepared {window : PreparedWindow} {s' : UploadRun} (hpc : s.producer = .preparing)
      (hpc' : s'.producer = .checking window)
      (h : Records s s' ((window.failures.map fun failure =>
        (failure.asset, failure.itemId, failure.code)).foldl markFailure
          { s.ledger with readyFiles := s.readyFiles + window.files.length })) :
      LedgerStep cfg s (.prepared (some window)) s'
  | preflight {peers : PreflightPeers} {window : PreparedWindow} {result : PreflightResult}
      {outgoingHashes : OutgoingHashRegistry} (hpc : s.producer = .checking window)
      (hrun : runDuplicatePreflightWindow cfg.nativeAvailable cfg.skipExactDuplicates
        peers window.files
        s.outgoingHashes = some (result, outgoingHashes)) :
      LedgerStep cfg s (.preflightDone peers) (s.recordPreflight cfg window result outgoingHashes)
  | counted {files : List PreparedUploadFile} {s' : UploadRun} (hpc : s.producer = .releasing files)
      (h : Carries (s.count files) s' (Smooth cfg s .producer)) : LedgerStep cfg s .producer s'
  | skipped {w : Fin 2} {file : PreparedUploadFile} {s' : UploadRun}
      (hw : s.workers w = .admitted file true) (hskip : file.preflightAction = some .skip)
      (h : Concludes s s' w { s.ledger with
        outcomes := s.outcomes.skip file.variantId file.size false
        log := s.log ++ [.skipped file
          (if file.duplicateSource = some .outgoingSelection then .outgoingSelection
          else .preflight)] }) : LedgerStep cfg s (.worker w) s'
  | refused {w : Fin 2} {file : PreparedUploadFile} {code : TransferErrorCode} {s' : UploadRun}
      (hw : s.workers w = .admitted file true) (hskip : file.preflightAction ≠ some .skip)
      (hcode : file.preflightFailureCode = some code)
      (h : Concludes s s' w { s.ledger with
        outcomes := (s.outcomes.fail file.variantId false).1
        log := s.log ++ [.failed file { stage := .preflight, code }] }) : LedgerStep cfg
          s (.worker w) s'
  | acknowledged {w : Fin 2} {file : PreparedUploadFile} {acknowledgedBytes reportedBytes : Nat}
      (hw : s.workers w = .uploading file acknowledgedBytes) :
      LedgerStep cfg s (.acknowledged w reportedBytes)
        (s.acknowledge w file acknowledgedBytes reportedBytes)
  | saved {w : Fin 2} {file : PreparedUploadFile} {acknowledgedBytes : Nat} {reply : UploadReply}
      {s' : UploadRun} (hw : s.workers w = .uploading file acknowledgedBytes)
      (hreply : effectiveReply cfg file reply = .saved)
      (h : Concludes s s' w { s.ledger with
        outcomes := s.outcomes.save file.variantId file.size
        log := s.log ++ [.saved file] }) : LedgerStep cfg s (.uploaded w reply) s'
  | verified {w : Fin 2} {file : PreparedUploadFile} {acknowledgedBytes : Nat} {reply : UploadReply}
      {s' : UploadRun} (hw : s.workers w = .uploading file acknowledgedBytes)
      (hreply : effectiveReply cfg file reply = .skipped)
      (h : Concludes s s' w { s.ledger with
        outcomes := s.outcomes.skip file.variantId file.size true
        log := s.log ++ [.skipped file .finalization] }) : LedgerStep cfg s (.uploaded w reply) s'
  | failed {w : Fin 2} {file : PreparedUploadFile} {acknowledgedBytes : Nat} {reply : UploadReply}
      {error : RunError} {s' : UploadRun} (hw : s.workers w = .uploading file acknowledgedBytes)
      (hreply : effectiveReply cfg file reply = .failed error)
      (h : Concludes s s' w { s.ledger with
        outcomes := (s.outcomes.fail file.variantId false).1
        plannedUploadMediaBytes := max s.uploadedMediaBytes
          (s.plannedUploadMediaBytes - (file.size - acknowledgedBytes))
        log := s.log ++ [.failed file (transferFailure error .upload .uploadFailed)] }) :
      LedgerStep cfg s (.uploaded w reply) s'
  | concluded {failures : List (MediaAsset × String × TransferErrorCode)} {s' : UploadRun}
      (hm : s.main = .logPrepared) (hcancelled : s.isCancelled = true → failures = [])
      (hproducer : s'.producer = s.producer)
      (hm' : s'.main = .finish s'.completionStatus s'.outcomes.failedFiles
        (s'.readyFiles + s'.outcomes.preparationFailedFiles))
      (h : Records s s' (failures.foldl markFailure s.ledger)) : LedgerStep cfg s .main s'
  | completed {summary : UploadSummary} {s' : UploadRun} (hm : s.main = .logDone summary)
      (hc : s.isCancelled = false) (hproducer : s'.producer = s.producer)
        (hm' : s'.main = .endTransfer)
      (h : Records s s' { s.ledger with log := s.log ++ [.complete summary] }) :
        LedgerStep cfg s .main s'

/-! ## The steps of the tasks -/

theorem workerStep_ledger {w : Fin 2} (hp : s.Parked) (hs : s.workerStep w = some s') :
    LedgerStep cfg s (.worker w) s' := by
  unfold workerStep at hs
  split at hs
  · rename_i hw
    cases hs
    exact .carried (.ofActive hp hw nofun nofun (fun _ => le_rfl) fun _ _ => rfl)
  · rename_i file hw
    cases hs
    exact .carried (.ofActive hp hw nofun nofun (fun _ => le_rfl) fun _ _ => rfl)
  · rename_i file hw
    obtain ⟨admits, -, rfl⟩ := Option.map_eq_some_iff.mp hs
    exact .carried (.ofActive hp hw nofun nofun (fun _ => le_rfl) fun _ _ => rfl)
  · rename_i file admits hw
    cases hs
    cases admits with
    | false =>
      refine .carried (.ofActive hp hw nofun nofun (fun _ => Nat.zero_le _) fun h => ?_)
      exact absurd hw (h file)
    | true =>
      have hshifting : s.workers w ≠ .shifting := by rw [hw]; exact WorkerPc.noConfusion
      have hidle : s.workers w ≠ .idle := by rw [hw]; exact WorkerPc.noConfusion
      rw [if_pos rfl]
      unfold processFile
      split
      · rename_i hskip
        exact .skipped hw hskip (.release hp hshifting hidle _ _ s.plannedUploadMediaBytes)
      · rename_i hskip
        split
        · rename_i code hcode
          exact .refused hw hskip hcode (.release hp hshifting hidle _ _ s.plannedUploadMediaBytes)
        · exact .carried (processFile_start hp hw)
  · rename_i exits hw
    cases hs
    cases exits with
    | false =>
      have hidle : s.workers w ≠ .idle := by rw [hw]; exact WorkerPc.noConfusion
      exact .carried (workerLoop_carries hp (by rw [hw]; exact WorkerPc.noConfusion)
        (hp.started hidle)
        fun g => by rw [hw]; rfl)
    | true => exact .carried (.ofActive hp hw nofun nofun (fun _ => le_rfl) fun _ _ => rfl)
  · cases hs

theorem finishUpload_ledger {w : Fin 2} {file : PreparedUploadFile} {acknowledgedBytes : Nat}
    (hp : s.Parked) (hw : s.workers w = .uploading file acknowledgedBytes) (reply : UploadReply) :
    LedgerStep cfg s (.uploaded w reply) (s.finishUpload cfg w file acknowledgedBytes reply) := by
  have hshifting : s.workers w ≠ .shifting := by rw [hw]; exact WorkerPc.noConfusion
  have hidle : s.workers w ≠ .idle := by rw [hw]; exact WorkerPc.noConfusion
  unfold finishUpload
  split
  · rename_i hreply
    exact .saved hw hreply (.release hp hshifting hidle _ _ s.plannedUploadMediaBytes)
  · rename_i hreply
    exact .verified hw hreply (.release hp hshifting hidle _ _ s.plannedUploadMediaBytes)
  · rename_i error hreply
    split
    · rename_i hunauthorized
      have hcancel : Carries s ({ s with fatalError := some error } : UploadRun).cancel True := by
        have hmarked : Carries s { s with fatalError := some error } True :=
          .frame rfl (fun g => le_rfl) (fun _ _ => rfl) rfl (hp.of_eq rfl rfl id) id rfl
        exact (hmarked.trans (cancel_carries hmarked.parked (p := True))).imp fun _ =>
          ⟨trivial, trivial⟩
      have hworkers : ({ s with fatalError := some error } : UploadRun).cancel.workers w =
        s.workers w := by
        unfold cancel closeQueue
        simp only
        rw [if_neg fun h => hp.notWaiting hshifting h.2]
      have hmoved := Carries.ofWorker (p := False) hcancel.parked (w := w) (.releasing true)
        (by rw [hworkers]; exact hshifting) (hp.started hidle) (fun g => Nat.zero_le _) False.elim
      refine .carried ((hcancel.trans hmoved).imp fun h => ?_)
      have hreply' := (h file acknowledgedBytes hw).2
      rw [hreply] at hreply'
      cases error with
      | unauthorized => exact absurd rfl hreply'
      | failure value => cases hunauthorized
      | other => cases hunauthorized
    · split
      · rename_i hc
        refine .carried (.ofActive hp hw nofun nofun (fun g => Nat.zero_le _) fun h => ?_)
        rw [(h file acknowledgedBytes hw).1] at hc
        cases hc
      · exact .failed hw hreply (.release hp hshifting hidle _ _ _)

theorem producerStep_ledger (hp : s.Parked) (hs : s.producerStep cfg = some s') :
    LedgerStep cfg s .producer s' := by
  unfold producerStep at hs
  split at hs
  · rename_i prepares hpc
    cases hs
    exact .carried (setProducer_carries hp _ (by rw [hpc]; split <;> rfl)
      (by rw [hpc]; split <;> rfl)
      (by rw [hpc]; split <;> rfl))
  · rename_i files hpc
    cases hs
    exact .counted hpc ((enqueueWindow_carries hp).imp fun h => h fun _ =>
      hpc ▸ ProducerPc.noConfusion)
  · rename_i file rest hpc
    split at hs
    · cases hs
    · cases hs
      exact .carried ((producerPush_carries hp (by rw [hpc]; rfl) (by rw [hpc]; rfl)
        (by rw [hpc]; rfl)).imp fun h => (h fun _ => hpc ▸ ProducerPc.noConfusion).queueOpen)
  · rename_i rest hpc
    cases hs
    exact .carried ((pushFiles_carries cfg hp (by rw [hpc]; rfl) (by rw [hpc]; rfl)
      (by rw [hpc]; rfl)).imp fun h => h fun _ => hpc ▸ ProducerPc.noConfusion)
  · rename_i completed hpc
    split at hs
    · cases hs
      have hfinished : Carries s (if completed then s.finishPreparation else s) True := by
        split
        · exact .frame rfl (fun g => le_rfl) (fun _ _ => rfl) rfl (hp.of_eq rfl rfl id) id rfl
        · exact .frame rfl (fun g => le_rfl) (fun _ _ => rfl) rfl hp id rfl
      have hclosed := hfinished.trans (closeQueue_carries hfinished.parked (p := True))
      have hpc' : (if completed then s.finishPreparation else s).closeQueue.producer =
          .returned completed := by
        split
        · exact hpc
        · exact hpc
      have hsettled := setProducer_carries hclosed.parked (.settled completed) (p := True)
        (by rw [hpc']; rfl) (by rw [hpc']; rfl) (by rw [hpc']; rfl)
      exact .carried ((hclosed.trans hsettled).imp fun _ => ⟨⟨trivial, trivial⟩, trivial⟩)
    · cases hs
  · cases hs

theorem recordWindow_records (hp : s.Parked) (hpc : s.producer = .preparing)
    (window : PreparedWindow) :
    Records s (s.recordWindow cfg window) ((window.failures.map fun failure =>
      (failure.asset, failure.itemId, failure.code)).foldl markFailure
        { s.ledger with readyFiles := s.readyFiles + window.files.length }) := by
  obtain ⟨htasks, hledger⟩ := foldl_markPreparationFailure window.failures { s with
    preparedFiles := s.preparedFiles + (s.windowAssets cfg).length
    readyFiles := s.readyFiles + window.files.length }
  unfold recordWindow
  generalize window.failures.foldl (fun s failure => s.markPreparationFailure failure.asset
    failure.itemId failure.code) { s with
      preparedFiles := s.preparedFiles + (s.windowAssets cfg).length
      readyFiles := s.readyFiles + window.files.length } = t at htasks hledger ⊢
  refine ⟨hledger, fun g => ?_, hp.of_eq htasks.queue htasks.workers fun h => htasks.main ▸ h,
    fun hd => ?_⟩
  · have h := load_setProducer (s := t) g (.checking window)
    have hnone : t.producer.files = [] := by
      rw [htasks.producer]
      show s.producer.files = []
      rw [hpc]
      rfl
    rw [hnone, htasks.load] at h
    exact h
  · refine htasks.disturbed (fun e he => ?_) hd
    have hmem := mem_foldl_markFailure (window.failures.map fun failure =>
      (failure.asset, failure.itemId, failure.code))
      { s.ledger with readyFiles := s.readyFiles + window.files.length } (show e ∈ s.log from he)
    exact (congrArg (fun ledger => e ∈ ledger.log) hledger).mpr hmem

theorem prepared_ledger (hp : s.Parked) {window : Option PreparedWindow}
    (hs : s.prepared cfg window = some s') : LedgerStep cfg s (.prepared window) s' := by
  unfold prepared at hs
  split at hs
  · rename_i hpc
    split at hs
    · cases hs
      exact .carried ((producerFail_carries hp .other).imp fun h => by cases h)
    · rename_i window
      cases hs
      split
      · exact .carried (setProducer_carries hp _ (by rw [hpc]; rfl) (by rw [hpc]; rfl)
          (by rw [hpc]; rfl))
      · exact .prepared hpc rfl (recordWindow_records hp hpc window)
  · cases hs

theorem preflightDone_ledger (hp : s.Parked) {peers : PreflightPeers}
    (hs : s.preflightDone cfg peers = some s') : LedgerStep cfg s (.preflightDone peers) s' := by
  unfold preflightDone at hs
  split at hs
  · rename_i window hpc
    split at hs
    · rename_i hnone
      cases hs
      refine .carried ((producerFail_carries hp .unauthorized).imp fun h => ?_)
      have hsome := h window hpc
      rw [hnone] at hsome
      cases hsome
    · rename_i result outgoingHashes hrun
      cases hs
      exact .preflight hpc hrun
  · cases hs

/-! ## The steps of the function itself -/

theorem enqueueFiles_congr (pc : EnqueuerPc) (files : List PreparedUploadFile) :
    ({ s with enqueuer := pc } : UploadRun).enqueueFiles files = s.enqueueFiles files := by
  unfold enqueueFiles
  split
  · rfl
  · split
    · rfl
    · rename_i file rest _
      unfold enqueuerPush push
      simp only
      generalize s.queue.push file .enqueuer = pushed
      cases pushed <;> rfl

theorem startWorkers_carries (hp : s.Parked) (hmain : s.main.isStarting = false)
    (hshifting : ∀ w, s.workers w ≠ .shifting)
    (hload : ∀ g w, (s.workers w).load g = 0) {p : Prop} :
    Carries s s.startWorkers p := by
  have hfirst := workerLoop_carries hp (hshifting 0) hmain (fun g => hload g 0) (p := p)
  have hother : (s.workerLoop 0).workers 1 = s.workers 1 := by
    unfold workerLoop
    split
    · rfl
    · split <;> rfl
  have hmain' : (s.workerLoop 0).main = s.main := congrArg RunControl.main (workerLoop_control 0)
  have hsecond := workerLoop_carries hfirst.parked (w := 1) (by rw [hother]; exact hshifting 1)
    (hmain' ▸ hmain) (fun g => by rw [hother]; exact hload g 1) (p := p)
  exact (hfirst.trans hsecond).imp fun h => ⟨h, h⟩

theorem setMain_carries (hp : s.Parked) (main : MainPc)
    (hstarting : main.isStarting = true → s.main.isStarting = true)
    (hfailing : s.main.isFailing = true → ({ s with main } : UploadRun).Disturbed)
    (hclosing : s.main.isClosing = true → main.isClosing = true) {p : Prop} :
    Carries s { s with main } p := by
  refine .frame rfl (fun g => le_rfl) (fun _ _ => rfl) rfl (hp.of_eq rfl rfl hstarting)
    (fun hd => ?_) rfl
  rcases hd with hc | hm | ⟨hm, he⟩
  · exact .inl hc
  · exact hfailing hm
  · exact .inr (.inr ⟨hclosing hm, he⟩)

/-- The function moves on from an await outside the catch and the finally block. -/
theorem advance_carries (hp : s.Parked) {main : MainPc} (hm : s.main = main) (main' : MainPc)
    (hcalm : main.isFailing = false ∧ main.isClosing = false)
    (hstarting : main'.isStarting = true → main.isStarting = true) {p : Prop} :
    Carries s { s with main := main' } p := by
  subst hm
  refine setMain_carries hp main' hstarting (fun h => ?_) fun h => ?_
  · rw [hcalm.1] at h
    cases h
  · rw [hcalm.2] at h
    cases h

theorem report_carries (hp : s.Parked) (event : RunEvent)
    (hquiet : event.isQuiet = true) {p : Prop} :
    Carries s (s.report event) p := by
  refine ⟨⟨[event], rfl, ?_⟩, fun g => le_rfl, fun _ _ => rfl, .inl rfl, fun _ => rfl,
      fun g => le_rfl,
    hp.of_eq rfl rfl id, ?_⟩
  · intro e he
    rw [List.mem_singleton.mp he]
    exact hquiet
  · exact fun hd => hd.of_log rfl rfl fun e he => List.mem_append_left _ he

theorem startPipeline_carries (hp : s.Parked) (hm : s.main = .logStarted) :
    Carries s (s.startPipeline cfg) (s.producer = .idle) := by
  have hidle : ∀ w, s.workers w = .idle := hp.starting (by rw [hm]; rfl)
  have hproducer : s.producer = .idle → s.producer.files = [] ∧ s.producer.unchecked = [] := by
    intro h
    rw [h]
    exact ⟨rfl, rfl⟩
  unfold startPipeline
  split
  · have hmoved := advance_carries hp hm .pipeline ⟨rfl, rfl⟩ nofun (p := s.producer = .idle)
    have hloop := producerLoop_carries cfg hmoved.parked (p := s.producer = .idle) hproducer
    obtain ⟨pc, heq, -⟩ := producerLoop_eq cfg { s with main := .pipeline }
    rw [heq] at hloop ⊢
    have hstarted := startWorkers_carries hloop.parked rfl
      (fun w => (hidle w).trans_ne WorkerPc.noConfusion)
      (fun g w => congrArg (WorkerPc.load g) (hidle w)) (p := s.producer = .idle)
    exact ((hmoved.trans hloop).trans hstarted).imp fun h => ⟨⟨h, h⟩, h⟩
  · have hmoved := advance_carries hp hm .produce ⟨rfl, rfl⟩ (fun _ => rfl)
      (p := s.producer = .idle)
    have hloop := producerLoop_carries cfg hmoved.parked (p := s.producer = .idle) hproducer
    exact (hmoved.trans hloop).imp fun h => ⟨h, h⟩

theorem enqueueFiles_idle (hp : s.Parked) (h : ∀ w, s.workers w = .idle)
    (files : List PreparedUploadFile) : ∀ w, (s.enqueueFiles files).workers w = .idle := by
  unfold enqueueFiles
  split
  · exact closeQueue_idle hp h
  · split
    · exact closeQueue_idle hp h
    · unfold enqueuerPush
      split
      · exact closeQueue_idle hp h
      · rename_i t hpush
        have hworkers := push_idle hp h hpush
        exact hworkers
      · rename_i t hpush
        have hworkers := push_idle hp h hpush
        exact hworkers

theorem startFeeding_carries (hp : s.Parked) (hm : s.main = .produce) :
    Carries s s.startFeeding (s.IsOpen ∧ s.enqueuer = .idle) := by
  have hidle : ∀ w, s.workers w = .idle := hp.starting (by rw [hm]; rfl)
  -- the prepared windows go to the enqueuer at once
  have hmoved : Carries s { s.finishPreparation with
      main := .pipeline, preparedWindows := [], enqueuer := .pushed s.preparedWindows.flatten }
      (s.enqueuer = .idle) := by
    have hload : ∀ g, ({ s.finishPreparation with
        main := .pipeline, preparedWindows := [], enqueuer := .pushed s.preparedWindows.flatten } :
          UploadRun).load g + filesWeight g s.enqueuer.files = s.load g := by
      intro g
      simp only [load, finishPreparation, List.flatten_nil, filesWeight_nil, EnqueuerPc.files]
      omega
    refine .frame rfl (fun g => ?_) (fun h g => ?_) rfl (hp.of_eq rfl rfl fun h => by cases h)
      (fun hd => ?_) rfl
    · have h := hload g
      omega
    · have hg := hload g
      rw [h] at hg
      exact hg
    · rcases hd with hc | hfail | he
      · exact .inl hc
      · rw [hm] at hfail
        cases hfail
      · rw [hm] at he
        cases he.1
  have hfeed := enqueueFiles_carries hmoved.parked s.preparedWindows.flatten rfl
  rw [enqueueFiles_congr (s :=
    { s.finishPreparation with main := .pipeline, preparedWindows := [] })]
    at hfeed
  have hworkers := enqueueFiles_idle (s := { s.finishPreparation with
    main := .pipeline, preparedWindows := [] }) (hp.of_eq rfl rfl fun h => by cases h) hidle
    s.preparedWindows.flatten
  have hmain : (({ s.finishPreparation with main := .pipeline, preparedWindows := [] } :
      UploadRun).enqueueFiles s.preparedWindows.flatten).main = .pipeline := by
    unfold enqueueFiles
    split
    · rfl
    · split
      · rfl
      · unfold enqueuerPush
        split
        · rfl
        · rename_i t hpush
          exact congrArg RunControl.main (push_control hpush).1
        · rename_i t hpush
          exact congrArg RunControl.main (push_control hpush).1
  have hstarted := startWorkers_carries hfeed.parked (by rw [hmain]; rfl)
    (fun w => (hworkers w).trans_ne WorkerPc.noConfusion)
    (fun g w => congrArg (WorkerPc.load g) (hworkers w)) (p := True)
  exact ((hmoved.trans hfeed).trans hstarted).imp fun h =>
    ⟨⟨h.2, ⟨h.1.notCancelled, h.1.queueOpen⟩⟩, trivial⟩

theorem cleanUp_carries (hp : s.Parked)
    (hfailing : s.main.isFailing = true → ∃ failure, .error failure ∈ s.log) {p : Prop} :
    Carries s s.cleanUp p := by
  have hmarked : Carries s { s with thermal := s.thermal.cancel } True :=
    .frame rfl (fun g => le_rfl) (fun _ _ => rfl) rfl (hp.of_eq rfl rfl id) id rfl
  have hclosed := hmarked.trans (closeQueue_carries hmarked.parked (p := True))
  have hmoved := setMain_carries hclosed.parked .endTransfer nofun (p := True)
    (fun h => .inr (.inr ⟨rfl, hfailing h⟩)) fun _ => rfl
  exact (hclosed.trans hmoved).imp fun _ => ⟨⟨trivial, trivial⟩, trivial⟩

theorem finallyBlock_carries (hp : s.Parked)
    (hfailing : s.main.isFailing = true → s.isCancelled = true ∨ ∃ failure, .error failure ∈ s.log)
    {p : Prop} : Carries s s.finallyBlock p := by
  unfold finallyBlock
  split
  · rename_i hc
    have hreport := report_carries hp .cancelRequest rfl (p := True)
    have hmoved := setMain_carries hreport.parked .cancelSession nofun (p := True)
      (fun _ => .inl hc) fun _ => rfl
    exact (hreport.trans hmoved).imp fun _ => ⟨trivial, trivial⟩
  · rename_i hc
    exact cleanUp_carries hp fun h => (hfailing h).resolve_left hc

theorem fail_carries (hp : s.Parked) (error : RunError) {p : Prop} : Carries s
    (s.fail error) p := by
  have hfailed : (s.fail error).Disturbed := .inr (.inl rfl)
  exact .frame rfl (fun g => le_rfl) (fun _ _ => rfl) rfl (hp.of_eq rfl rfl nofun)
    (fun _ => hfailed) rfl

theorem pipelineDone_carries (hp : s.Parked) {main : MainPc} (hm : s.main = main)
    (hcalm : main.isFailing = false ∧ main.isClosing = false) (preparedAll : Bool) {p : Prop} :
    Carries s (s.pipelineDone preparedAll) p := by
  unfold pipelineDone
  split
  · exact fail_carries hp _
  · split
    · exact advance_carries hp hm .logPrepared hcalm nofun
    · split
      · exact fail_carries hp _
      · exact fail_carries hp _

theorem settle_carries (hp : s.Parked) (hs : s.settle cfg = some s') :
    Carries s s' (s.main = .produce → s.IsOpen ∧ s.enqueuer = .idle) := by
  unfold settle at hs
  split at hs
  · rename_i hm
    split at hs
    · cases hs
      exact (startFeeding_carries hp hm).imp fun h => h hm
    · cases hs
      exact pipelineDone_carries hp hm ⟨rfl, rfl⟩ _
    · cases hs
  · rename_i hm
    split at hs
    · split at hs
      · split at hs
        · cases hs
          exact pipelineDone_carries hp hm ⟨rfl, rfl⟩ _
        · cases hs
      · cases hs
    · split at hs
      · cases hs
        exact fail_carries hp _
      · split at hs
        · cases hs
          exact pipelineDone_carries hp hm ⟨rfl, rfl⟩ _
        · cases hs
      · cases hs
  · cases hs

/-- The function reports something about the run and goes on. -/
theorem reportMain_carries (hp : s.Parked) {event : RunEvent} {main : MainPc}
    (hquiet : event.isQuiet = true) (hstarting : main.isStarting = false)
    (hfailing : s.main.isFailing = true → main.isFailing = true)
    (hclosing : s.main.isClosing = true → main.isClosing = true) {p : Prop} :
    Carries s { s.report event with main } p := by
  have hreport := report_carries hp event hquiet (p := p)
  have hmoved := setMain_carries hreport.parked main
    (fun h => by rw [hstarting] at h; cases h) (fun h => .inr (.inl (hfailing h))) hclosing (p := p)
  exact (hreport.trans hmoved).imp fun h => ⟨h, h⟩

theorem conclude_ledger (hp : s.Parked) (hm : s.main = .logPrepared) :
    LedgerStep cfg s .main (s.conclude cfg) := by
  obtain ⟨failures, hcancelled, htasks, hledger⟩ : ∃ failures,
    (s.isCancelled = true → failures = []) ∧
      SameTasks s (if s.isCancelled then s else s.markMissing cfg) ∧
        (if s.isCancelled then s else s.markMissing cfg).ledger =
          failures.foldl markFailure s.ledger := by
    split
    · exact ⟨[], fun _ => rfl, ⟨fun _ => rfl, rfl, rfl, rfl, rfl, rfl, rfl, rfl⟩, rfl⟩
    · rename_i hc
      obtain ⟨htasks, failures, hledger⟩ := markMissing_spec cfg s
      exact ⟨failures, fun h => absurd h hc, htasks, hledger⟩
  unfold conclude
  generalize (if s.isCancelled then s else s.markMissing cfg) = t at htasks hledger ⊢
  have hmain : t.main = .logPrepared := htasks.main.trans hm
  refine .concluded hm hcancelled htasks.producer rfl ⟨hledger, htasks.load,
    hp.of_eq htasks.queue htasks.workers nofun, fun hd => ?_⟩
  have ht : t.Disturbed := by
    refine htasks.disturbed (fun e he => ?_) hd
    exact (congrArg (fun ledger => e ∈ ledger.log) hledger).mpr
      (mem_foldl_markFailure failures _ he)
  rcases ht with hc | hfail | he
  · exact .inl hc
  · rw [hmain] at hfail
    cases hfail
  · rw [hmain] at he
    cases he.1

theorem complete_ledger (hp : s.Parked) {summary : UploadSummary} (hm : s.main = .logDone summary)
    (hc : s.isCancelled = false) :
    LedgerStep cfg s .main (s.report (.complete summary)).finallyBlock := by
  have hfinal : (s.report (.complete summary)).finallyBlock =
    (s.report (.complete summary)).cleanUp := by
    unfold finallyBlock
    rw [if_neg (show ¬(s.report (.complete summary)).isCancelled =
      true from Bool.eq_false_iff.mp hc)]
  have hreported : (s.report (.complete summary)).Parked := hp.of_eq rfl rfl id
  have hclean := cleanUp_carries hreported (p := True) fun h => by
    rw [show (s.report (.complete summary)).main = .logDone summary from hm] at h
    cases h
  rw [hfinal]
  refine .completed hm hc rfl rfl ⟨rfl, hclean.load_eq trivial, hclean.parked, fun hd => ?_⟩
  exact hclean.disturbed (hd.of_log rfl rfl fun e he => List.mem_append_left _ he)

theorem mainStep_ledger (hp : s.Parked) (hs : s.mainStep cfg = some s') :
    LedgerStep cfg s .main s' := by
  unfold mainStep at hs
  split at hs
  · rename_i hm
    cases hs
    exact .carried (advance_carries hp hm _ ⟨rfl, rfl⟩ fun _ => rfl)
  · rename_i hm
    cases hs
    exact .carried ((startPipeline_carries hp hm).imp fun h => h hm)
  · rename_i hm
    cases hs
    exact conclude_ledger hp hm
  · rename_i status failedFiles expandedFiles hm
    cases hs
    exact .carried (reportMain_carries hp rfl rfl (fun h => by rw [hm] at h; cases h)
      fun h => by rw [hm] at h; cases h)
  · rename_i summary hm
    cases hs
    exact .carried (advance_carries hp hm _ ⟨rfl, rfl⟩ fun h => by cases h)
  · rename_i summary hm
    cases hs
    split
    · exact .carried (finallyBlock_carries hp fun h => by rw [hm] at h; cases h)
    · rename_i hc
      exact complete_ledger hp hm (by simpa using hc)
  · rename_i failure hm
    cases hs
    split
    · exact .carried (reportMain_carries hp rfl rfl (fun _ => rfl) fun h => by
      rw [hm] at h; cases h)
    · exact .carried (setMain_carries hp _ (fun h => by cases h) (fun _ => .inr (.inl rfl))
        fun h => by rw [hm] at h; cases h)
  · rename_i failure hm
    cases hs
    exact .carried (setMain_carries hp _ (fun h => by cases h) (fun _ => .inr (.inl rfl))
      fun h => by rw [hm] at h; cases h)
  · rename_i failure hm
    cases hs
    split
    · have hreport := report_carries hp (.error failure) rfl (p := True)
      have hfinal := finallyBlock_carries hreport.parked (p := True) fun _ =>
        .inr ⟨failure, List.mem_append_right _ (List.mem_singleton_self _)⟩
      exact .carried ((hreport.trans hfinal).imp fun _ => ⟨trivial, trivial⟩)
    · rename_i hc
      refine .carried (finallyBlock_carries hp fun _ => .inl ?_)
      simp only [Bool.or_eq_true, Bool.not_eq_true', not_or, Bool.not_eq_false] at hc
      exact hc.1
  · rename_i hm
    cases hs
    exact .carried (cleanUp_carries hp fun h => by rw [hm] at h; cases h)
  · rename_i hm
    cases hs
    exact .carried (setMain_carries hp _ (fun h => by cases h) (fun h => by rw [hm] at h; cases h)
      fun _ => rfl)
  · rename_i hm
    cases hs
    exact .carried (setMain_carries hp _ (fun h => by cases h) (fun h => by rw [hm] at h; cases h)
      fun _ => rfl)
  · cases hs

/-- **Every step is one of these.** -/
theorem runStep_ledger {l : RunLabel} (hp : s.Parked) (hs : runStep cfg s l = some s') :
    LedgerStep cfg s l s' := by
  cases l with
  | cancel =>
    simp only [runStep] at hs
    split at hs
    · cases hs
    · cases hs
      exact .carried (cancel_carries hp)
  | thermalChanged state =>
    cases hs
    exact .carried (.frame rfl (fun g => le_rfl) (fun _ _ => rfl) rfl (hp.of_eq rfl rfl id) id rfl)
  | begun succeeds =>
    simp only [runStep] at hs
    split at hs
    · rename_i hm
      cases hs
      split
      · exact .carried (advance_carries hp hm _ ⟨rfl, rfl⟩ fun _ => rfl)
      · exact .carried (fail_carries hp _)
    · cases hs
  | thermalRead state =>
    simp only [runStep] at hs
    split at hs
    · rename_i hm
      cases hs
      split
      · rename_i state
        have hread : Carries s { s with thermal := s.thermal.update state } True :=
          .frame rfl (fun g => le_rfl) (fun _ _ => rfl) rfl (hp.of_eq rfl rfl id) id rfl
        have hm' : ({ s with thermal := s.thermal.update state } : UploadRun).main =
          .thermalState := hm
        have hmoved := advance_carries hread.parked hm' .startDiagnostics ⟨rfl, rfl⟩ (fun _ => rfl)
          (p := True)
        exact .carried ((hread.trans hmoved).imp fun _ => ⟨trivial, trivial⟩)
      · exact .carried (fail_carries hp _)
    · cases hs
  | pinged succeeds =>
    simp only [runStep] at hs
    split at hs
    · rename_i hm
      cases hs
      split
      · exact .carried (advance_carries hp hm _ ⟨rfl, rfl⟩ fun _ => rfl)
      · exact .carried (fail_carries hp _)
    · cases hs
  | main => exact mainStep_ledger hp hs
  | settle => exact .carried (settle_carries hp hs)
  | producer => exact producerStep_ledger hp hs
  | prepared window => exact prepared_ledger hp hs
  | preflightDone peers => exact preflightDone_ledger hp hs
  | enqueuer => exact .carried (enqueuerStep_carries hp hs)
  | worker w => exact workerStep_ledger hp hs
  | acknowledged w reportedBytes =>
    simp only [runStep] at hs
    split at hs
    · rename_i file acknowledgedBytes hw
      cases hs
      exact .acknowledged hw
    · cases hs
  | uploaded w reply =>
    simp only [runStep] at hs
    split at hs
    · rename_i file acknowledgedBytes hw
      cases hs
      exact finishUpload_ledger hp hw reply
    · cases hs

end UploadRun

end LocalMediaTransfer
