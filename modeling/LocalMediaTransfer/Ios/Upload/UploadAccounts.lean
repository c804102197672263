import LocalMediaTransfer.Ios.Upload.UploadCompletion
import LocalMediaTransfer.Lib.Tally

/-!
# The accounts of a run

The items of a run are the prepared files and the preparation failures.  In a run whose windows
bring new IDs, a file in flight is unreported and every report is the first about its item, so that
the counters of `TransferOutcomes` are the reports, counted.

* `Booked` — the counters are the reports, counted and added up.
* `Marked` — what reporting preparation failures does.
* `Accounts`, `Conserved` — what the reports, the files in flight and the planned bytes are to each
  other: in every run, and in one that is not disturbed.
* `Kept.step` — **a step keeps the accounts**.
-/

set_option autoImplicit false

namespace LocalMediaTransfer

open Lib UploadRun

/-! ## Reports -/

namespace RunEvent

/-- The file whose end an event reports. -/
def terminalFile : RunEvent → Option PreparedUploadFile
  | .skipped file _ | .saved file | .failed file _ => some file
  | _ => none

/-- The preparation failure that an event reports. -/
def failedItem : RunEvent → Option String
  | .preparationFailed _ itemId _ => some itemId
  | _ => none

/-- The item whose end an event reports. -/
def terminalId (e : RunEvent) : Option String :=
  (e.terminalFile.map (·.variantId)).or e.failedItem

def savedFile : RunEvent → Option PreparedUploadFile
  | .saved file => some file
  | _ => none

def skippedFile : RunEvent → Option PreparedUploadFile
  | .skipped file _ => some file
  | _ => none

/-- The event reports no item. -/
structure Silent (e : RunEvent) : Prop where
  terminalFile : e.terminalFile = none
  failedItem : e.failedItem = none
  savedFile : e.savedFile = none
  skippedFile : e.skippedFile = none

theorem silent_of_quiet {e : RunEvent} (h : e.isQuiet = true) : e.Silent := by
  cases e <;> first | exact ⟨rfl, rfl, rfl, rfl⟩ | cases h

theorem Silent.terminalId {e : RunEvent} (h : e.Silent) : e.terminalId = none := by
  rw [RunEvent.terminalId, h.terminalFile, h.failedItem]
  rfl

theorem terminalId_of_file {e : RunEvent} {file : PreparedUploadFile}
    (h : e.terminalFile = some file) : e.terminalId = some file.variantId := by
  rw [RunEvent.terminalId, h]
  rfl

theorem failedItem_of_file {e : RunEvent} {file : PreparedUploadFile}
    (h : e.terminalFile = some file) : e.failedItem = none := by
  cases e <;> first | rfl | cases h

end RunEvent

/-- The sizes of files, added up. -/
def sizes (files : List PreparedUploadFile) : Nat := (files.map (·.size)).sum

theorem sizes_append (files files' : List PreparedUploadFile) :
    sizes (files ++ files') = sizes files + sizes files' := by
  simp [sizes]

theorem filterMap_silent {β : Type} {f : RunEvent → Option β} {log new : List RunEvent}
    (h : ∀ e ∈ new, f e = none) : (log ++ new).filterMap f = log.filterMap f := by
  rw [List.filterMap_append, List.filterMap_eq_nil_iff.mpr h, List.append_nil]

theorem filterMap_report {β : Type} (f : RunEvent → Option β) (log : List RunEvent)
    (e : RunEvent) : (log ++ [e]).filterMap f = log.filterMap f ++ (f e).toList := by
  rw [List.filterMap_append]
  cases h : f e with
  | none => rw [List.filterMap_cons_none h]; rfl
  | some b => rw [List.filterMap_cons_some h]; rfl

/-! ## The books -/

/-- **The counters are the reports, counted and added up.** -/
structure Booked (outcomes : TransferOutcomes) (log : List RunEvent) : Prop where
  terminal : outcomes.terminalIds.reverse = log.filterMap RunEvent.terminalId
  nodup : outcomes.terminalIds.Nodup
  files : (log.filterMap RunEvent.terminalFile).length + outcomes.preparationFailedFiles =
    outcomes.terminalIds.length
  total : outcomes.uploadedFiles + outcomes.skippedFiles + outcomes.failedFiles =
    outcomes.terminalIds.length
  uploadedBytes : outcomes.successfulUploadedBytes = sizes (log.filterMap RunEvent.savedFile)
  skippedBytes : outcomes.skippedBytes = sizes (log.filterMap RunEvent.skippedFile)

namespace Booked

variable {outcomes : TransferOutcomes} {log new : List RunEvent}

theorem start : Booked {} [] := ⟨rfl, List.nodup_nil, rfl, rfl, rfl, rfl⟩

theorem mem_terminal (h : Booked outcomes log) {id : String} :
    id ∈ outcomes.terminalIds ↔ id ∈ log.filterMap RunEvent.terminalId := by
  rw [← h.terminal, List.mem_reverse]

/-- An item that has ended has one report. -/
theorem count_eq_one (h : Booked outcomes log) {id : String} (hid : id ∈ outcomes.terminalIds) :
    (log.filterMap RunEvent.terminalId).count id = 1 := by
  rw [← h.terminal, List.count_reverse]
  exact List.count_eq_one_of_mem h.nodup hid

theorem append (h : Booked outcomes log) (hnew : ∀ e ∈ new, e.Silent) :
    Booked outcomes (log ++ new) where
  terminal := by
    rw [filterMap_silent fun e he => (hnew e he).terminalId]
    exact h.terminal
  nodup := h.nodup
  files := by
    rw [filterMap_silent fun e he => (hnew e he).terminalFile]
    exact h.files
  total := h.total
  uploadedBytes := by
    rw [filterMap_silent fun e he => (hnew e he).savedFile]
    exact h.uploadedBytes
  skippedBytes := by
    rw [filterMap_silent fun e he => (hnew e he).skippedFile]
    exact h.skippedBytes

/-- The first report about an item. -/
theorem report (h : Booked outcomes log) {id : String} (hnew : id ∉ outcomes.terminalIds)
    {outcomes' : TransferOutcomes} {e : RunEvent} (hid : e.terminalId = some id)
    (hterminal : outcomes'.terminalIds = id :: outcomes.terminalIds)
    (hfiles : e.terminalFile.toList.length + outcomes'.preparationFailedFiles =
      outcomes.preparationFailedFiles + 1)
    (htotal : outcomes'.uploadedFiles + outcomes'.skippedFiles + outcomes'.failedFiles =
      outcomes.uploadedFiles + outcomes.skippedFiles + outcomes.failedFiles + 1)
    (huploaded : outcomes'.successfulUploadedBytes =
      outcomes.successfulUploadedBytes + sizes e.savedFile.toList)
    (hskipped : outcomes'.skippedBytes = outcomes.skippedBytes + sizes e.skippedFile.toList) :
    Booked outcomes' (log ++ [e]) where
  terminal := by
    rw [hterminal, List.reverse_cons, h.terminal, filterMap_report, hid]
    rfl
  nodup := by
    rw [hterminal]
    exact List.nodup_cons.mpr ⟨hnew, h.nodup⟩
  files := by
    have hbooked := h.files
    rw [hterminal, List.length_cons, filterMap_report, List.length_append]
    omega
  total := by
    have hbooked := h.total
    rw [hterminal, List.length_cons]
    omega
  uploadedBytes := by
    rw [huploaded, h.uploadedBytes, filterMap_report, sizes_append]
  skippedBytes := by
    rw [hskipped, h.skippedBytes, filterMap_report, sizes_append]

variable {file : PreparedUploadFile}

theorem skip (h : Booked outcomes log) (hnew : file.variantId ∉ outcomes.terminalIds)
    (finalization : Bool) (stage : DuplicateStage) :
    Booked (outcomes.skip file.variantId file.size finalization)
      (log ++ [.skipped file stage]) := by
  unfold TransferOutcomes.skip TransferOutcomes.start
  rw [if_neg hnew]
  cases finalization with
  | false =>
    simp only [Bool.false_eq_true, if_false]
    exact h.report hnew rfl rfl (Nat.add_comm ..) (by dsimp only; omega) rfl rfl
  | true =>
    simp only [if_true]
    exact h.report hnew rfl rfl (Nat.add_comm ..) (by dsimp only; omega) rfl rfl

theorem save (h : Booked outcomes log) (hnew : file.variantId ∉ outcomes.terminalIds) :
    Booked (outcomes.save file.variantId file.size) (log ++ [.saved file]) := by
  unfold TransferOutcomes.save TransferOutcomes.start
  rw [if_neg hnew]
  exact h.report hnew rfl rfl (Nat.add_comm ..) (by dsimp only; omega) rfl rfl

theorem fail (h : Booked outcomes log) (hnew : file.variantId ∉ outcomes.terminalIds)
    (failure : TransferFailure) :
    Booked (outcomes.fail file.variantId false).1 (log ++ [.failed file failure]) := by
  unfold TransferOutcomes.fail TransferOutcomes.start
  rw [if_neg hnew]
  exact h.report hnew rfl rfl (Nat.add_comm ..) rfl rfl rfl

end Booked

/-! ## Preparation failures -/

/-- What reporting the preparation failures of some items does to the accounts. -/
structure Marked (ledger ledger' : Ledger) (ids : List String) : Prop where
  booked : Booked ledger.outcomes ledger.log → Booked ledger'.outcomes ledger'.log
  reported : ledger'.log.filterMap RunEvent.terminalFile =
    ledger.log.filterMap RunEvent.terminalFile
  failed : ∀ id ∈ ledger'.log.filterMap RunEvent.failedItem,
    id ∈ ledger.log.filterMap RunEvent.failedItem ∨ (id ∈ ids ∧ id ∉ ledger.outcomes.terminalIds)
  terminal : ∀ id, id ∈ ledger'.outcomes.terminalIds ↔ id ∈ ledger.outcomes.terminalIds ∨ id ∈ ids
  rest : ledger' = { ledger with outcomes := ledger'.outcomes, log := ledger'.log }

theorem markFailure_marked (failure : MediaAsset × String × TransferErrorCode) (ledger : Ledger) :
    Marked ledger (markFailure ledger failure) [failure.2.1] := by
  unfold markFailure TransferOutcomes.fail TransferOutcomes.start
  by_cases hmem : failure.2.1 ∈ ledger.outcomes.terminalIds
  · rw [if_pos hmem]
    refine ⟨id, rfl, fun _ => .inl, fun id => ?_, rfl⟩
    rw [List.mem_singleton]
    exact ⟨.inl, fun h => h.elim (fun h => h) fun h => h ▸ hmem⟩
  · rw [if_neg hmem]
    refine ⟨fun h => h.report hmem rfl rfl (Nat.zero_add _) rfl rfl rfl, ?_, fun id hid => ?_,
      fun id => ?_, rfl⟩
    · exact filterMap_silent fun e he => by cases List.mem_singleton.mp he; rfl
    · simp only [if_true, List.filterMap_append, List.mem_append] at hid
      refine hid.imp_right fun h => ?_
      cases List.mem_singleton.mp h
      exact ⟨List.mem_singleton_self _, hmem⟩
    · rw [List.mem_singleton]
      exact List.mem_cons.trans or_comm

theorem Marked.trans {ledger ledger' ledger'' : Ledger} {ids ids' : List String}
    (h : Marked ledger ledger' ids) (h' : Marked ledger' ledger'' ids') :
    Marked ledger ledger'' (ids ++ ids') where
  booked := h'.booked ∘ h.booked
  reported := h'.reported.trans h.reported
  failed id hid := by
    rcases h'.failed id hid with hid | ⟨hid, hnot⟩
    · exact (h.failed id hid).imp_right fun ⟨hmem, hnot⟩ => ⟨List.mem_append_left _ hmem, hnot⟩
    · exact .inr ⟨List.mem_append_right _ hid, fun hmem => hnot ((h.terminal id).mpr (.inl hmem))⟩
  terminal id := by
    rw [h'.terminal, h.terminal, List.mem_append, or_assoc]
  rest := by
    have hrest := h.rest
    have hrest' := h'.rest
    rw [hrest] at hrest'
    exact hrest'

theorem foldl_markFailure_marked (failures : List (MediaAsset × String × TransferErrorCode))
    (ledger : Ledger) :
    Marked ledger (failures.foldl markFailure ledger) (failures.map (·.2.1)) := by
  induction failures generalizing ledger with
  | nil =>
    exact ⟨id, rfl, fun _ => .inl, fun id => ⟨.inl, fun h => h.resolve_right List.not_mem_nil⟩, rfl⟩
  | cons failure failures ih => exact (markFailure_marked failure ledger).trans (ih _)


/-! ## Quantities of the files -/

/-- A quantity of a file, whatever is acknowledged of it. -/
def ofFile (h : PreparedUploadFile → Nat) : FileWeight := fun file _ => h file

@[simp] theorem ofFile_apply (h : PreparedUploadFile → Nat) (file : PreparedUploadFile) (k : Nat) :
    ofFile h file k = h file := rfl

/-- What is left to send of a planned file. -/
def remainingBytes : FileWeight :=
  fun file acknowledgedBytes => if isPlanned file then file.size - acknowledgedBytes else 0

theorem filesWeight_countP (p : PreparedUploadFile → Bool) (files : List PreparedUploadFile) :
    filesWeight (ofFile fun file => (p file).toNat) files = files.countP p := by
  induction files with
  | nil => rfl
  | cons file files ih => rw [filesWeight_cons, ih, countP_cons_toNat, Nat.add_comm]; rfl

theorem filesWeight_remainingBytes (files : List PreparedUploadFile) :
    filesWeight remainingBytes files = plannedBytes files := by
  induction files with
  | nil => rfl
  | cons file files ih =>
    rw [filesWeight_cons, ih]
    by_cases hplanned : isPlanned file = true
    · simp [remainingBytes, plannedBytes, hplanned]
    · simp [remainingBytes, plannedBytes, hplanned]

/-- The files that wait for their bytes to be planned are held by the producer. -/
theorem ProducerPc.announced_le (pc : ProducerPc) (g : FileWeight) :
    filesWeight g pc.announced ≤ filesWeight g pc.files := by
  cases pc <;> first | exact le_rfl | exact Nat.zero_le _

namespace UploadRun

variable {cfg : UploadConfig} {s s' t u : UploadRun} {l : RunLabel}

/-- The files whose preflight is over. -/
def checkedFiles (s : UploadRun) : List PreparedUploadFile := s.checked.map (·.1)

/-- The IDs of the files that were prepared. -/
def fileIds (s : UploadRun) : List String :=
  (s.checkedFiles ++ s.producer.unchecked).map (·.variantId)

/-- The files whose end was reported. -/
def reported (s : UploadRun) : List PreparedUploadFile := s.log.filterMap RunEvent.terminalFile

/-- The IDs of a prepared window are new. -/
structure FreshWindow (s : UploadRun) (window : PreparedWindow) : Prop where
  nodup : (window.files.map (·.variantId)).Nodup
  files : ∀ file ∈ window.files, file.variantId ∉ s.fileIds ∧
    file.variantId ∉ s.outcomes.terminalIds ∧ file.variantId ∉ window.failures.map (·.itemId)
  failures : ∀ failure ∈ window.failures, failure.itemId ∉ s.fileIds

/-- The items of a run are distinct. -/
def NewItems (s : UploadRun) : RunLabel → Prop
  | .prepared (some window) => s.FreshWindow window
  | _ => True

/-- What the reports, the files in flight and the planned bytes are to each other. -/
structure Accounts (s : UploadRun) : Prop where
  booked : Booked s.outcomes s.log
  nodup : s.fileIds.Nodup
  apart : ∀ id ∈ s.log.filterMap RunEvent.failedItem, id ∉ s.fileIds
  balance : ∀ h, s.load (ofFile h) + filesWeight (ofFile h) s.reported ≤
    filesWeight (ofFile h) s.checkedFiles
  paid : s.uploadedMediaBytes + s.load remainingBytes ≤
    s.plannedUploadMediaBytes + filesWeight remainingBytes s.producer.announced

/-- A run that is not disturbed has lost no file. -/
structure Conserved (s : UploadRun) : Prop where
  balance : ∀ h, s.load (ofFile h) + filesWeight (ofFile h) s.reported =
    filesWeight (ofFile h) s.checkedFiles
  ready : s.readyFiles = s.fileIds.length

/-! ## Consequences -/

theorem mem_reported {file : PreparedUploadFile} :
    file ∈ s.reported ↔ ∃ e ∈ s.log, e.terminalFile = some file := List.mem_filterMap

theorem Accounts.mem_terminal (h : s.Accounts) {file : PreparedUploadFile}
    (hmem : file ∈ s.reported) : file.variantId ∈ s.outcomes.terminalIds := by
  obtain ⟨e, he, hfile⟩ := mem_reported.mp hmem
  exact h.booked.mem_terminal.mpr
    (List.mem_filterMap.mpr ⟨e, he, RunEvent.terminalId_of_file hfile⟩)

/-- **A file in flight is unreported.** -/
theorem Accounts.unreported (h : s.Accounts) {file : PreparedUploadFile}
    (hload : 1 ≤ s.load (ofFile fun other => (other.variantId == file.variantId).toNat)) :
    file.variantId ∉ s.outcomes.terminalIds := by
  have hbalance := h.balance fun other => (other.variantId == file.variantId).toNat
  rw [filesWeight_countP, filesWeight_countP] at hbalance
  have hone : s.checkedFiles.countP (fun other => other.variantId == file.variantId) ≤ 1 := by
    have hnodup : (s.checkedFiles.map (·.variantId)).Nodup :=
      h.nodup.sublist ((List.sublist_append_left ..).map _)
    have hcount := List.nodup_iff_count_le_one.mp hnodup file.variantId
    rwa [List.count, List.countP_map] at hcount
  have hreported : s.reported.countP (fun other => other.variantId == file.variantId) = 0 := by
    omega
  have hchecked : 0 < s.checkedFiles.countP (fun other => other.variantId == file.variantId) := by
    omega
  obtain ⟨checked, hmem, hid⟩ := List.countP_pos_iff.mp hchecked
  rw [h.booked.mem_terminal, List.mem_filterMap]
  rintro ⟨e, he, hterminal⟩
  cases hfile : e.terminalFile with
  | some other =>
    rw [RunEvent.terminalId_of_file hfile] at hterminal
    refine List.countP_eq_zero.mp hreported other (mem_reported.mpr ⟨e, he, hfile⟩) ?_
    exact beq_iff_eq.mpr (Option.some.inj hterminal)
  | none =>
    rw [RunEvent.terminalId, hfile] at hterminal
    refine h.apart _ (List.mem_filterMap.mpr ⟨e, he, hterminal⟩) ?_
    rw [← beq_iff_eq.mp hid]
    exact List.mem_map_of_mem (List.mem_append_left _ hmem)

/-- A file that a worker holds is unreported. -/
theorem Accounts.worker_unreported (h : s.Accounts) {w : Fin 2} {file : PreparedUploadFile}
    {acknowledgedBytes : Nat} (hw : ∀ g, (s.workers w).load g = g file acknowledgedBytes) :
    file.variantId ∉ s.outcomes.terminalIds := by
  refine h.unreported ((worker_load_le _ w).trans' ?_)
  rw [hw, ofFile, beq_self_eq_true]
  exact le_rfl

theorem Accounts.uploaded_le (h : s.Accounts) :
    s.uploadedMediaBytes ≤ s.plannedUploadMediaBytes := by
  have hpaid := h.paid
  have hannounced := s.producer.announced_le remainingBytes
  have hload : filesWeight remainingBytes s.producer.files ≤ s.load remainingBytes := by
    unfold load
    omega
  omega

/-- When no task holds a file, every checked file is reported. -/
theorem Conserved.reported_of_drained (h : s.Conserved) (hdrained : s.Drained)
    {file : PreparedUploadFile} (hmem : file ∈ s.checkedFiles) : file ∈ s.reported := by
  have hbalance := h.balance fun other => (other == file).toNat
  rw [hdrained.load, Nat.zero_add, filesWeight_countP, filesWeight_countP] at hbalance
  have hpos : 0 < s.reported.countP fun other => other == file := by
    rw [hbalance]
    exact List.countP_pos_iff.mpr ⟨file, hmem, beq_self_eq_true file⟩
  obtain ⟨other, hother, heq⟩ := List.countP_pos_iff.mp hpos
  rwa [← beq_iff_eq.mp heq]

theorem Conserved.terminal_of_drained (h : s.Conserved) (ha : s.Accounts) (hdrained : s.Drained)
    {id : String} (hid : id ∈ s.fileIds) : id ∈ s.outcomes.terminalIds := by
  rw [fileIds, hdrained.unchecked, List.append_nil] at hid
  obtain ⟨file, hmem, rfl⟩ := List.mem_map.mp hid
  exact ha.mem_terminal (h.reported_of_drained hdrained hmem)

/-! ## What an operation does to the accounts -/

theorem start_accounts (cfg : UploadConfig) : (UploadRun.start cfg).Accounts where
  booked := .start
  nodup := List.nodup_nil
  apart _ h := absurd h List.not_mem_nil
  balance _ := le_rfl
  paid := le_rfl

theorem start_conserved (cfg : UploadConfig) : (UploadRun.start cfg).Conserved where
  balance _ := rfl
  ready := rfl

/-- What a carried step leaves of the accounts. -/
theorem Carries.same {p : Prop} (hc : Carries s s' p) :
    s'.outcomes = s.outcomes ∧ s'.checkedFiles = s.checkedFiles ∧ s'.reported = s.reported ∧
      s'.readyFiles = s.readyFiles ∧
      ∃ new, s'.log = s.log ++ new ∧ ∀ e ∈ new, e.Silent := by
  obtain ⟨new, hledger, hquiet⟩ := hc.ledger
  have hlog : s'.log = s.log ++ new := congrArg Ledger.log hledger
  refine ⟨congrArg Ledger.outcomes hledger, ?_, ?_, congrArg Ledger.readyFiles hledger, new, hlog,
    fun e he => RunEvent.silent_of_quiet (hquiet e he)⟩
  · exact congrArg (fun ledger => ledger.checked.map (·.1)) hledger
  · rw [reported, hlog]
    exact filterMap_silent fun e he => (RunEvent.silent_of_quiet (hquiet e he)).terminalFile

theorem Accounts.carries {p : Prop} (h : s.Accounts) (hc : Carries s s' p) : s'.Accounts := by
  obtain ⟨houtcomes, hchecked, hreported, -, new, hlog, hsilent⟩ := hc.same
  obtain ⟨_, hledger, -⟩ := hc.ledger
  have hids : s'.fileIds.Sublist s.fileIds := by
    unfold fileIds
    rw [hchecked]
    refine List.Sublist.map _ (List.Sublist.append_left ?_ _)
    rcases hc.unchecked with heq | hnil
    · rw [heq]
    · rw [hnil]
      exact List.nil_sublist _
  refine ⟨?_, h.nodup.sublist hids, fun id hid hmem => ?_, fun weight => ?_, ?_⟩
  · rw [houtcomes, hlog]
    exact h.booked.append hsilent
  · rw [hlog, filterMap_silent fun e he => (hsilent e he).failedItem] at hid
    exact h.apart id hid (hids.subset hmem)
  · rw [hreported, hchecked]
    exact (Nat.add_le_add_right (hc.load_le _) _).trans (h.balance weight)
  · have hpaid := h.paid
    have hcounted := hc.counted_le remainingBytes
    rw [show s'.uploadedMediaBytes = s.uploadedMediaBytes from
        congrArg Ledger.uploadedMediaBytes hledger,
      show s'.plannedUploadMediaBytes = s.plannedUploadMediaBytes from
        congrArg Ledger.plannedUploadMediaBytes hledger]
    omega

theorem Conserved.carries {p : Prop} (h : s.Conserved) (hc : Carries s s' p) (hp : p) :
    s'.Conserved := by
  obtain ⟨-, hchecked, hreported, hready, -⟩ := hc.same
  refine ⟨fun weight => ?_, ?_⟩
  · rw [hreported, hchecked, hc.load_eq hp]
    exact h.balance weight
  · rw [hready, fileIds, hchecked, hc.unchecked_eq hp]
    exact h.ready

/-- The producer plans the bytes of a window. -/
theorem Accounts.count (h : s.Accounts) {files : List PreparedUploadFile}
    (hpc : s.producer = .releasing files) : (s.count files).Accounts := by
  have hload : ∀ g, (s.count files).load g = s.load g := by
    intro g
    have hproducer := load_setProducer (s := s) g (.pushed files)
    rw [hpc] at hproducer
    exact Nat.add_right_cancel hproducer
  refine ⟨h.booked, ?_, fun id hid => ?_, fun weight => ?_, ?_⟩
  · have hnodup := h.nodup
    rw [fileIds, hpc] at hnodup
    exact hnodup
  · have hapart := h.apart id hid
    rw [fileIds, hpc] at hapart
    exact hapart
  · rw [hload]
    exact h.balance weight
  · have hpaid := h.paid
    rw [hpc, ProducerPc.announced, filesWeight_remainingBytes] at hpaid
    rw [hload]
    exact hpaid

theorem Conserved.count (h : s.Conserved) {files : List PreparedUploadFile}
    (hpc : s.producer = .releasing files) : (s.count files).Conserved := by
  refine ⟨fun weight => ?_, ?_⟩
  · have hproducer := load_setProducer (s := s) (ofFile weight) (.pushed files)
    rw [hpc] at hproducer
    rw [show (s.count files).load (ofFile weight) = s.load (ofFile weight) from
      Nat.add_right_cancel hproducer]
    exact h.balance weight
  · have hready := h.ready
    rw [fileIds, hpc] at hready
    exact hready

/-- A worker reports the end of its file. -/
theorem Accounts.concludes (h : s.Accounts) {w : Fin 2} {ledger : Ledger}
    {file : PreparedUploadFile} {acknowledgedBytes : Nat} {e : RunEvent}
    (hc : Concludes s s' w ledger) (hw : ∀ g, (s.workers w).load g = g file acknowledgedBytes)
    (hlog : ledger.log = s.log ++ [e]) (he : e.terminalFile = some file)
    (hchecked : ledger.checked = s.checked)
    (huploaded : ledger.uploadedMediaBytes = s.uploadedMediaBytes)
    (hplanned : s.plannedUploadMediaBytes ≤
      ledger.plannedUploadMediaBytes + remainingBytes file acknowledgedBytes)
    (hbooked : file.variantId ∉ s.outcomes.terminalIds → Booked ledger.outcomes ledger.log) :
    s'.Accounts := by
  have hlog' : s'.log = s.log ++ [e] := (congrArg Ledger.log hc.ledger).trans hlog
  have hfiles : s'.checkedFiles = s.checkedFiles := by
    unfold checkedFiles
    rw [show s'.checked = _ from congrArg Ledger.checked hc.ledger, hchecked]
  have hids : s'.fileIds = s.fileIds := by
    unfold fileIds
    rw [hfiles, hc.producer]
  refine ⟨?_, hids ▸ h.nodup, fun id hid => ?_, fun weight => ?_, ?_⟩
  · have hnew := hbooked (h.worker_unreported hw)
    rw [← hc.ledger] at hnew
    exact hnew
  · rw [hlog', filterMap_silent fun _ hmem => by
      cases List.mem_singleton.mp hmem; exact RunEvent.failedItem_of_file he] at hid
    rw [hids]
    exact h.apart id hid
  · have hbalance := h.balance weight
    have hload := hc.load (ofFile weight)
    rw [hw, ofFile_apply] at hload
    rw [hfiles, reported, hlog', filterMap_report, filesWeight_append, he]
    simp only [Option.toList_some, filesWeight_cons, filesWeight_nil, ofFile_apply, Nat.add_zero]
    unfold reported at hbalance
    omega
  · have hpaid := h.paid
    have hload := hc.load remainingBytes
    rw [hw] at hload
    rw [hc.producer, show s'.uploadedMediaBytes = _ from
        (congrArg Ledger.uploadedMediaBytes hc.ledger).trans huploaded,
      show s'.plannedUploadMediaBytes = _ from congrArg Ledger.plannedUploadMediaBytes hc.ledger]
    omega

theorem Conserved.concludes (h : s.Conserved) {w : Fin 2} {ledger : Ledger}
    {file : PreparedUploadFile} {acknowledgedBytes : Nat} {e : RunEvent}
    (hc : Concludes s s' w ledger) (hw : ∀ g, (s.workers w).load g = g file acknowledgedBytes)
    (hlog : ledger.log = s.log ++ [e]) (he : e.terminalFile = some file)
    (hchecked : ledger.checked = s.checked) (hready : ledger.readyFiles = s.readyFiles) :
    s'.Conserved := by
  have hlog' : s'.log = s.log ++ [e] := (congrArg Ledger.log hc.ledger).trans hlog
  have hfiles : s'.checkedFiles = s.checkedFiles := by
    unfold checkedFiles
    rw [show s'.checked = _ from congrArg Ledger.checked hc.ledger, hchecked]
  refine ⟨fun weight => ?_, ?_⟩
  · have hbalance := h.balance weight
    have hload := hc.load (ofFile weight)
    rw [hw, ofFile_apply] at hload
    rw [hfiles, reported, hlog', filterMap_report, filesWeight_append, he]
    simp only [Option.toList_some, filesWeight_cons, filesWeight_nil, ofFile_apply, Nat.add_zero]
    unfold reported at hbalance
    omega
  · rw [show s'.readyFiles = _ from congrArg Ledger.readyFiles hc.ledger, hready, fileIds, hfiles,
      hc.producer]
    exact h.ready

/-- Preparation failures are reported. -/
theorem Accounts.marked (h : s.Accounts) {ledger ledger' : Ledger} {ids : List String}
    (hm : Marked ledger ledger' ids) (hr : Records s s' ledger')
    (hledger : ledger = { s.ledger with readyFiles := ledger.readyFiles })
    (hproducer : s.producer.announced = s'.producer.announced)
    (hnodup : s'.fileIds.Nodup)
    (hold : ∀ id ∈ s.outcomes.terminalIds, id ∈ s'.fileIds → id ∈ s.fileIds)
    (hids : ∀ id ∈ ids, id ∉ s.outcomes.terminalIds → id ∉ s'.fileIds) : s'.Accounts := by
  have hsame : s'.ledger = { s.ledger with
      readyFiles := ledger.readyFiles, outcomes := ledger'.outcomes, log := ledger'.log } := by
    rw [hr.ledger, hm.rest, hledger]
  have houtcomes : ledger.outcomes = s.outcomes := by rw [hledger]; rfl
  have hlog : ledger.log = s.log := by rw [hledger]; rfl
  have hlog' : s'.log = ledger'.log := congrArg Ledger.log hsame
  have hchecked : s'.checkedFiles = s.checkedFiles :=
    congrArg (fun ledger => ledger.checked.map (·.1)) hsame
  have hreported : s'.reported = s.reported := by
    rw [reported, hlog', hm.reported, hlog]
    rfl
  refine ⟨?_, hnodup, fun id hid => ?_, fun weight => ?_, ?_⟩
  · have hbooked := hm.booked (by rw [houtcomes, hlog]; exact h.booked)
    rw [← hr.ledger] at hbooked
    exact hbooked
  · rw [hlog'] at hid
    rcases hm.failed id hid with hid | ⟨hid, hnot⟩
    · rw [hlog] at hid
      intro hmem
      have hterminal : id ∈ s.outcomes.terminalIds := by
        obtain ⟨e, he, hfailed⟩ := List.mem_filterMap.mp hid
        refine h.booked.mem_terminal.mpr (List.mem_filterMap.mpr ⟨e, he, ?_⟩)
        cases e <;> first | exact hfailed | cases hfailed
      exact h.apart id hid (hold id hterminal hmem)
    · exact hids id hid (houtcomes ▸ hnot)
  · rw [hreported, hchecked, hr.load]
    exact h.balance weight
  · rw [← hproducer, hr.load, show s'.uploadedMediaBytes = s.uploadedMediaBytes from
        congrArg Ledger.uploadedMediaBytes hsame,
      show s'.plannedUploadMediaBytes = s.plannedUploadMediaBytes from
        congrArg Ledger.plannedUploadMediaBytes hsame]
    exact h.paid

theorem Conserved.marked (h : s.Conserved) {ledger ledger' : Ledger} {ids : List String}
    (hm : Marked ledger ledger' ids) (hr : Records s s' ledger')
    (hledger : ledger = { s.ledger with readyFiles := ledger.readyFiles })
    (hready : ledger.readyFiles = s'.fileIds.length) : s'.Conserved := by
  have hsame : s'.ledger = { s.ledger with
      readyFiles := ledger.readyFiles, outcomes := ledger'.outcomes, log := ledger'.log } := by
    rw [hr.ledger, hm.rest, hledger]
  have hreported : s'.reported = s.reported := by
    rw [reported, show s'.log = ledger'.log from congrArg Ledger.log hsame, hm.reported, hledger]
    rfl
  refine ⟨fun weight => ?_, ?_⟩
  · rw [hreported, hr.load, show s'.checkedFiles = s.checkedFiles from
      congrArg (fun ledger => ledger.checked.map (·.1)) hsame]
    exact h.balance weight
  · rw [show s'.readyFiles = ledger.readyFiles from congrArg Ledger.readyFiles hsame, hready]

/-- The preflight of a window is over. -/
theorem decideFiles_ids (cfg : UploadConfig) (s : UploadRun) (result : PreflightResult)
    (files : List PreparedUploadFile) :
    (s.decideFiles cfg result files).map (·.variantId) = files.map (·.variantId) := by
  unfold decideFiles
  rw [List.map_map]
  conv_rhs => rw [← List.zipIdx_map_fst 0 files, List.map_map]
  rfl

theorem recordPreflight_checkedFiles (cfg : UploadConfig) (s : UploadRun) (window : PreparedWindow)
    (result : PreflightResult) (outgoingHashes : OutgoingHashRegistry) :
    (s.recordPreflight cfg window result outgoingHashes).checkedFiles =
      s.checkedFiles ++ s.decideFiles cfg result window.files := by
  simp [recordPreflight, checkedFiles, Function.comp_def]

theorem recordPreflight_load (g : FileWeight) {window : PreparedWindow} {result : PreflightResult}
    {outgoingHashes : OutgoingHashRegistry} (hpc : s.producer = .checking window) :
    (s.recordPreflight cfg window result outgoingHashes).load g =
      s.load g + filesWeight g (s.decideFiles cfg result window.files) := by
  have h := load_setProducer (s := s) g (.releasing (s.decideFiles cfg result window.files))
  rw [hpc] at h
  exact h

theorem recordPreflight_fileIds {window : PreparedWindow} {result : PreflightResult}
    {outgoingHashes : OutgoingHashRegistry} (hpc : s.producer = .checking window) :
    (s.recordPreflight cfg window result outgoingHashes).fileIds = s.fileIds := by
  unfold fileIds
  rw [recordPreflight_checkedFiles, hpc, List.map_append, List.map_append, List.map_append,
    decideFiles_ids]
  exact List.append_nil _

theorem Accounts.preflight (h : s.Accounts) {window : PreparedWindow} {result : PreflightResult}
    {outgoingHashes : OutgoingHashRegistry} (hpc : s.producer = .checking window) :
    (s.recordPreflight cfg window result outgoingHashes).Accounts := by
  refine ⟨h.booked, ?_, fun id hid => ?_, fun weight => ?_, ?_⟩
  · rw [recordPreflight_fileIds hpc]
    exact h.nodup
  · rw [recordPreflight_fileIds hpc]
    exact h.apart id hid
  · have hbalance := h.balance weight
    rw [recordPreflight_load _ hpc, recordPreflight_checkedFiles, filesWeight_append]
    change _ + filesWeight _ s.reported ≤ _
    omega
  · have hpaid := h.paid
    rw [hpc] at hpaid
    rw [recordPreflight_load _ hpc]
    change s.uploadedMediaBytes + _ ≤ s.plannedUploadMediaBytes +
      filesWeight remainingBytes (s.decideFiles cfg result window.files)
    change _ ≤ s.plannedUploadMediaBytes + 0 at hpaid
    omega

theorem Conserved.preflight (h : s.Conserved) {window : PreparedWindow} {result : PreflightResult}
    {outgoingHashes : OutgoingHashRegistry} (hpc : s.producer = .checking window) :
    (s.recordPreflight cfg window result outgoingHashes).Conserved := by
  refine ⟨fun weight => ?_, ?_⟩
  · have hbalance := h.balance weight
    rw [recordPreflight_load _ hpc, recordPreflight_checkedFiles, filesWeight_append]
    change _ + filesWeight _ s.reported = _
    omega
  · rw [recordPreflight_fileIds hpc]
    exact h.ready

/-- A planned file is acknowledged further. -/
theorem Accounts.acknowledge (h : s.Accounts) {w : Fin 2} {file : PreparedUploadFile}
    {acknowledgedBytes : Nat} (reportedBytes : Nat)
    (hw : s.workers w = .uploading file acknowledgedBytes) (hplanned : isPlanned file = true) :
    (s.acknowledge w file acknowledgedBytes reportedBytes).Accounts := by
  have hload : ∀ g, (s.acknowledge w file acknowledgedBytes reportedBytes).load g +
      g file acknowledgedBytes =
      s.load g + g file (min file.size (max acknowledgedBytes reportedBytes)) := by
    intro g
    have h := load_setWorker (s := s) g w
      (.uploading file (min file.size (max acknowledgedBytes reportedBytes)))
    rw [hw] at h
    exact h
  refine ⟨h.booked, h.nodup, h.apart, fun weight => ?_, ?_⟩
  · have heq := hload (ofFile weight)
    rw [ofFile_apply, ofFile_apply] at heq
    rw [Nat.add_right_cancel heq]
    exact h.balance weight
  · have hpaid := h.paid
    have heq := hload remainingBytes
    simp only [remainingBytes, hplanned, if_true] at heq
    change s.uploadedMediaBytes +
        (min file.size (max acknowledgedBytes reportedBytes) - acknowledgedBytes) + _ ≤
      s.plannedUploadMediaBytes + filesWeight remainingBytes s.producer.announced
    omega

theorem Conserved.acknowledge (h : s.Conserved) {w : Fin 2} {file : PreparedUploadFile}
    {acknowledgedBytes : Nat} (reportedBytes : Nat)
    (hw : s.workers w = .uploading file acknowledgedBytes) :
    (s.acknowledge w file acknowledgedBytes reportedBytes).Conserved := by
  refine ⟨fun weight => ?_, h.ready⟩
  have heq := load_setWorker (s := s) (ofFile weight) w
    (.uploading file (min file.size (max acknowledgedBytes reportedBytes)))
  rw [hw] at heq
  rw [show (s.acknowledge w file acknowledgedBytes reportedBytes).load (ofFile weight) =
    s.load (ofFile weight) from Nat.add_right_cancel heq]
  exact h.balance weight

/-! ## The accounts in every run -/

/-- What holds in every run of distinct items. -/
structure Kept (cfg : UploadConfig) (s : UploadRun) : Prop where
  orderly : Orderly cfg s
  accounts : s.Accounts
  conserved : ¬s.Disturbed → s.Conserved

theorem Kept.drained (h : Kept cfg s) (hnd : ¬s.Disturbed) (hpast : s.main.isPast = true) :
    s.Drained ∧ ∀ id ∈ s.fileIds, id ∈ s.outcomes.terminalIds := by
  have hdrained := (h.orderly.sound hnd).drained hpast
  exact ⟨hdrained, fun id hid => (h.conserved hnd).terminal_of_drained h.accounts hdrained hid⟩

/-- **A step keeps the accounts.** -/
theorem Kept.step (h : Kept cfg s) (hok : s.NewItems l) (hs : runStep cfg s l = some s') :
    Kept cfg s' := by
  obtain ⟨horderly, ha, hconserved⟩ := h
  have hnd : ¬s'.Disturbed → ¬s.Disturbed := fun hnd' => (horderly.smooth hs hnd').1
  have htidy := horderly.tidy
  suffices haccounts : s'.Accounts ∧ (¬s'.Disturbed → s'.Conserved) from
    ⟨horderly.step hs, haccounts.1, haccounts.2⟩
  cases runStep_ledger horderly.parked hs with
  | carried hc =>
    exact ⟨ha.carries hc, fun hnd' =>
      (hconserved (hnd hnd')).carries hc (horderly.smooth hs hnd').2⟩
  | @prepared window _ hpc hpc' hr =>
    have hids : s.fileIds = s.checkedFiles.map (·.variantId) := by
      rw [fileIds, hpc]
      exact congrArg _ (List.append_nil _)
    have hmarked := foldl_markFailure_marked
      (window.failures.map fun failure => (failure.asset, failure.itemId, failure.code))
      { s.ledger with readyFiles := s.readyFiles + window.files.length }
    have hchecked : s'.checkedFiles = s.checkedFiles := by
      unfold checkedFiles
      rw [show s'.checked = _ from congrArg Ledger.checked hr.ledger, hmarked.rest]
      rfl
    have hids' : s'.fileIds = s.fileIds ++ window.files.map (·.variantId) := by
      rw [hids, fileIds, hchecked, hpc', List.map_append]
      rfl
    refine ⟨ha.marked hmarked hr rfl (by rw [hpc, hpc']; rfl) ?_ (fun id hid hmem => ?_)
      (fun id hid _ hmem => ?_), fun hnd' => (hconserved (hnd hnd')).marked hmarked hr rfl ?_⟩
    · rw [hids']
      refine List.nodup_append'.mpr ⟨ha.nodup, hok.nodup, fun id hid hmem => ?_⟩
      obtain ⟨file, hfile, rfl⟩ := List.mem_map.mp hmem
      exact (hok.files file hfile).1 hid
    · rw [hids'] at hmem
      refine (List.mem_append.mp hmem).resolve_right fun hmem => ?_
      obtain ⟨file, hfile, rfl⟩ := List.mem_map.mp hmem
      exact (hok.files file hfile).2.1 hid
    · rw [List.map_map] at hid
      obtain ⟨failure, hfailure, rfl⟩ := List.mem_map.mp hid
      rw [hids'] at hmem
      rcases List.mem_append.mp hmem with hmem | hmem
      · exact hok.failures failure hfailure hmem
      · obtain ⟨file, hfile, heq⟩ := List.mem_map.mp hmem
        exact (hok.files file hfile).2.2 (List.mem_map.mpr ⟨failure, hfailure, heq.symm⟩)
    · rw [hids', List.length_append, List.length_map, ← (hconserved (hnd hnd')).ready]
  | preflight hpc _ => exact ⟨ha.preflight hpc, fun hnd' => (hconserved (hnd hnd')).preflight hpc⟩
  | counted hpc hc =>
    exact ⟨(ha.count hpc).carries hc, fun hnd' =>
      ((hconserved (hnd hnd')).count hpc).carries hc (horderly.smooth hs hnd').2⟩
  | @acknowledged w _ _ _ hw =>
    have hfits := htidy w
    rw [hw] at hfits
    exact ⟨ha.acknowledge _ hw hfits, fun hnd' => (hconserved (hnd hnd')).acknowledge _ hw⟩
  | skipped hw _ hc =>
    exact ⟨ha.concludes hc (fun g => by rw [hw]; rfl) rfl rfl rfl rfl (Nat.le_add_right ..)
      fun hnew => ha.booked.skip hnew _ _, fun hnd' =>
      (hconserved (hnd hnd')).concludes hc (fun g => by rw [hw]; rfl) rfl rfl rfl rfl⟩
  | refused hw _ _ hc =>
    exact ⟨ha.concludes hc (fun g => by rw [hw]; rfl) rfl rfl rfl rfl (Nat.le_add_right ..)
      fun hnew => ha.booked.fail hnew _, fun hnd' =>
      (hconserved (hnd hnd')).concludes hc (fun g => by rw [hw]; rfl) rfl rfl rfl rfl⟩
  | saved hw _ hc =>
    exact ⟨ha.concludes hc (fun g => by rw [hw]; rfl) rfl rfl rfl rfl (Nat.le_add_right ..)
      fun hnew => ha.booked.save hnew, fun hnd' =>
      (hconserved (hnd hnd')).concludes hc (fun g => by rw [hw]; rfl) rfl rfl rfl rfl⟩
  | verified hw _ hc =>
    exact ⟨ha.concludes hc (fun g => by rw [hw]; rfl) rfl rfl rfl rfl (Nat.le_add_right ..)
      fun hnew => ha.booked.skip hnew _ _, fun hnd' =>
      (hconserved (hnd hnd')).concludes hc (fun g => by rw [hw]; rfl) rfl rfl rfl rfl⟩
  | @failed w file acknowledgedBytes _ error _ hw _ hc =>
    have hplanned : isPlanned file = true := by
      have hfits := htidy w
      rwa [hw] at hfits
    refine ⟨ha.concludes hc (fun g => by rw [hw]; rfl) rfl rfl rfl rfl ?_
      fun hnew => ha.booked.fail hnew _, fun hnd' =>
      (hconserved (hnd hnd')).concludes hc (fun g => by rw [hw]; rfl) rfl rfl rfl rfl⟩
    rw [remainingBytes, if_pos hplanned]
    simp only
    omega
  | @concluded failures _ hm hcancelled hproducer _ hr =>
    have hmarked := foldl_markFailure_marked failures s.ledger
    have hids : s'.fileIds = s.fileIds := by
      unfold fileIds checkedFiles
      rw [hproducer, show s'.checked = _ from congrArg Ledger.checked hr.ledger, hmarked.rest]
      rfl
    refine ⟨ha.marked hmarked hr rfl (by rw [hproducer]) (hids ▸ ha.nodup)
      (fun id _ hmem => hids ▸ hmem) (fun id hid hnot hmem => ?_),
      fun hnd' => (hconserved (hnd hnd')).marked hmarked hr rfl ?_⟩
    · by_cases hc : s.isCancelled = true
      · rw [hcancelled hc] at hid
        exact List.not_mem_nil hid
      · have hundisturbed : ¬s.Disturbed := by
          rintro (h | h | ⟨h, -⟩)
          · exact hc h
          · rw [hm] at h
            cases h
          · rw [hm] at h
            cases h
        exact hnot ((Kept.drained ⟨horderly, ha, hconserved⟩ hundisturbed (by rw [hm]; rfl)).2 id
          (hids ▸ hmem))
    · rw [hids]
      exact (hconserved (hnd hnd')).ready
  | @completed summary _ hm _ hproducer _ hr =>
    have hmarked : Marked s.ledger { s.ledger with log := s.log ++ [.complete summary] } [] := by
      have hsilent : ∀ e ∈ [RunEvent.complete summary], e.Silent := by
        intro e he
        cases List.mem_singleton.mp he
        exact ⟨rfl, rfl, rfl, rfl⟩
      refine ⟨fun h => h.append hsilent, filterMap_silent fun e he => (hsilent e he).terminalFile,
        fun id hid => .inl ?_, fun id => ⟨.inl, fun h => h.resolve_right List.not_mem_nil⟩, rfl⟩
      rwa [filterMap_silent fun e he => (hsilent e he).failedItem] at hid
    have hids : s'.fileIds = s.fileIds := by
      unfold fileIds checkedFiles
      rw [hproducer, show s'.checked = _ from congrArg Ledger.checked hr.ledger]
      rfl
    refine ⟨ha.marked hmarked hr rfl (by rw [hproducer]) (hids ▸ ha.nodup)
      (fun id _ hmem => hids ▸ hmem) (fun id hid => absurd hid List.not_mem_nil),
      fun hnd' => (hconserved (hnd hnd')).marked hmarked hr rfl ?_⟩
    rw [hids]
    exact (hconserved (hnd hnd')).ready

theorem kept_of_run (hrun : Run (runStep cfg) NewItems (UploadRun.start cfg) t) : Kept cfg t := by
  refine Run.invariant (I := Kept cfg) hrun ?_ fun s l s' h hok hs => h.step hok hs
  have horderly : Orderly cfg (UploadRun.start cfg) :=
    orderly_of_run (.refl _ : Run (runStep cfg) NewItems _ _)
  exact ⟨horderly, start_accounts cfg, fun _ => start_conserved cfg⟩

end UploadRun

end LocalMediaTransfer
