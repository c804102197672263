import LocalMediaTransfer.Ios.Upload.SummaryConservation
import LocalMediaTransfer.Ios.Upload.OutgoingDuplicates

/-!
# What becomes of the content of an outgoing duplicate

A file is skipped as an outgoing duplicate when its preflight finds its hash among those of the
selection.  The file that stands for the hash is uploaded later, and that upload may fail.

* `Founded` — every outgoing duplicate and every registered hash has a file that stands for it.
* `Spared` — no step reports a failure and an outgoing duplicate of one hash.
* `outgoing_duplicates_kept` — **in a run of such steps the receiver has the content of every
  outgoing duplicate when `onComplete` is called**.
* `outgoing_duplicate_lost` — a run that completes without it.
-/

set_option autoImplicit false

namespace LocalMediaTransfer

open Lib UploadRun

/-- The native hashes of a step are those of the contents. -/
def HonestHashes (sha256 : String → String) : RunLabel → Prop
  | .preflightDone peers => peers.HashesContents sha256
  | _ => True

namespace UploadRun

variable {cfg : UploadConfig} {s s' t : UploadRun} {l : RunLabel} {sha256 : String → String}

/-- A file with this hash was reported as an outgoing duplicate. -/
def SkippedFor (s : UploadRun) (hash : String) : Prop :=
  ∃ file, (file, some hash) ∈ s.checked ∧ .skipped file .outgoingSelection ∈ s.log

/-- A file with this hash was reported as failed. -/
def FailedWith (s : UploadRun) (hash : String) : Prop :=
  ∃ file failure, (file, some hash) ∈ s.checked ∧ .failed file failure ∈ s.log

/-- The reply is a failure. -/
def fails (cfg : UploadConfig) (file : PreparedUploadFile) (reply : UploadReply) : Bool :=
  match effectiveReply cfg file reply with
  | .failed _ => true
  | .saved | .skipped => false

/-- When a file fails, no outgoing duplicate of its hash was reported, and when an outgoing
duplicate is reported, no file of its hash has failed. -/
def Spared (cfg : UploadConfig) (s : UploadRun) : RunLabel → Prop
  | .uploaded w reply => ∀ file acknowledgedBytes, s.workers w = .uploading file acknowledgedBytes →
      fails cfg file reply = true → ∀ hash, (file, some hash) ∈ s.checked → ¬s.SkippedFor hash
  | .worker w => ∀ file, s.workers w = .admitted file true →
      ∀ hash, (file, some hash) ∈ s.checked →
        (file.preflightAction = some .skip → file.duplicateSource = some .outgoingSelection →
          ¬s.FailedWith hash) ∧
        (file.preflightAction ≠ some .skip → file.preflightFailureCode.isSome = true →
          ¬s.SkippedFor hash)
  | _ => True

/-- A file of this hash was checked that is no outgoing duplicate. -/
def Stands (s : UploadRun) (hash : String) : Prop :=
  ∃ other, (other, some hash) ∈ s.checked ∧ other.duplicateSource ≠ some .outgoingSelection

/-- Another item of the run with the content of this file was saved by the receiver, or the receiver
verified that it has it. -/
def ContentKept (sha256 : String → String) (s : UploadRun) (file : PreparedUploadFile) : Prop :=
  ∃ other ∈ s.checkedFiles, other.variantId ≠ file.variantId ∧
    sha256 other.variantId = sha256 file.variantId ∧
    (.saved other ∈ s.log ∨ .skipped other .finalization ∈ s.log ∨
      .skipped other .preflight ∈ s.log)

/-! ## What a preflight decides -/

theorem mem_decideFiles {result : PreflightResult} {files : List PreparedUploadFile}
    {file : PreparedUploadFile} (h : file ∈ s.decideFiles cfg result files) :
    ∃ original ∈ files, file.variantId = original.variantId ∧
      file.duplicateSource = result.duplicateSources.lookup original.variantId := by
  obtain ⟨⟨original, index⟩, hmem, rfl⟩ := List.mem_map.mp h
  exact ⟨original, List.fst_mem_of_mem_zipIdx hmem, rfl, rfl⟩

theorem exists_decideFiles (cfg : UploadConfig) (s : UploadRun) (result : PreflightResult)
    {files : List PreparedUploadFile} {original : PreparedUploadFile} (h : original ∈ files) :
    ∃ file ∈ s.decideFiles cfg result files, file.variantId = original.variantId ∧
      file.duplicateSource = result.duplicateSources.lookup original.variantId := by
  obtain ⟨index, hindex⟩ := List.mem_iff_getElem?.mp h
  refine ⟨decideFile cfg result (s.nextUploadFileSequence + index + 1) original, ?_, rfl, rfl⟩
  exact List.mem_map.mpr ⟨(original, index), List.mem_zipIdx_iff_getElem?.mpr hindex, rfl⟩

/-- **Every outgoing duplicate and every registered hash is founded.** -/
structure Founded (sha256 : String → String) (s : UploadRun) : Prop where
  duplicates : ∀ e ∈ s.checked, e.1.duplicateSource = some .outgoingSelection →
    ∃ hash, e.2 = some hash ∧ s.Stands hash
  registered : ∀ hash entry, s.outgoingHashes.lookup hash = some entry →
    entry.receiverMatch = none → s.Stands hash
  honest : ∀ file hash, (file, some hash) ∈ s.checked → hash = sha256 file.variantId

theorem Founded.of_eq (h : Founded sha256 s) (hchecked : s'.checked = s.checked)
    (hhashes : s'.outgoingHashes = s.outgoingHashes) : Founded sha256 s' := by
  have hstands : ∀ {hash}, s.Stands hash → s'.Stands hash := fun ⟨other, hmem, hsource⟩ =>
    ⟨other, hchecked ▸ hmem, hsource⟩
  refine ⟨fun e he hsource => ?_, fun hash entry hentry hmatch => ?_, fun file hash hmem => ?_⟩
  · obtain ⟨hash, heq, hfound⟩ := h.duplicates e (hchecked ▸ he) hsource
    exact ⟨hash, heq, hstands hfound⟩
  · exact hstands (h.registered hash entry (hhashes ▸ hentry) hmatch)
  · exact h.honest file hash (hchecked ▸ hmem)

theorem Founded.preflight (h : Founded sha256 s) {window : PreparedWindow} {peers : PreflightPeers}
    {result : PreflightResult} {outgoingHashes : OutgoingHashRegistry}
    (hn : (window.files.map (·.variantId)).Nodup) (hpeers : peers.HashesContents sha256)
    (hrun : runDuplicatePreflightWindow cfg.nativeAvailable cfg.skipExactDuplicates peers
      window.files s.outgoingHashes = some (result, outgoingHashes)) :
    Founded sha256 (s.recordPreflight cfg window result outgoingHashes) := by
  have hchecked : (s.recordPreflight cfg window result outgoingHashes).checked = s.checked ++
    (s.decideFiles cfg result window.files).map fun file =>
      (file, result.computedHashes.lookup file.variantId) := rfl
  have hold : ∀ {hash}, s.Stands hash →
      (s.recordPreflight cfg window result outgoingHashes).Stands hash :=
    fun ⟨other, hmem, hsource⟩ => ⟨other, List.mem_append_left _ hmem, hsource⟩
  have hnew : ∀ {hash other}, StandsFor window.files result hash other →
      (s.recordPreflight cfg window result outgoingHashes).Stands hash := by
    rintro hash other ⟨hmem, hhash, hsource⟩
    obtain ⟨file, hfile, hid, heq⟩ := exists_decideFiles cfg s result hmem
    refine ⟨file, ?_, heq ▸ hsource⟩
    rw [hchecked, ← hhash, ← hid]
    exact List.mem_append_right _ (List.mem_map.mpr ⟨file, hfile, rfl⟩)
  refine ⟨fun e he hsource => ?_, fun hash entry hentry hmatch => ?_, fun file hash hmem => ?_⟩
  · rw [hchecked] at he
    rcases List.mem_append.mp he with he | he
    · obtain ⟨hash, heq, hfound⟩ := h.duplicates e he hsource
      exact ⟨hash, heq, hold hfound⟩
    · obtain ⟨file, hfile, rfl⟩ := List.mem_map.mp he
      obtain ⟨original, hmem, hid, heq⟩ := mem_decideFiles hfile
      obtain ⟨-, hash, hhash, hfound⟩ := outgoing_spec hn hrun hmem (heq ▸ hsource)
      refine ⟨hash, by rw [← hhash, ← hid], ?_⟩
      rcases hfound with ⟨earlier, hearlier, hmatch⟩ | ⟨other, hother, -⟩
      · exact hold (h.registered hash earlier hearlier hmatch)
      · exact hnew hother
  · rcases registered_spec hn hrun hentry hmatch with hentry | ⟨other, hother⟩
    · exact hold (h.registered hash entry hentry hmatch)
    · exact hnew hother
  · rw [hchecked] at hmem
    rcases List.mem_append.mp hmem with hmem | hmem
    · exact h.honest file hash hmem
    · obtain ⟨decided, -, heq⟩ := List.mem_map.mp hmem
      rw [Prod.mk.injEq] at heq
      obtain ⟨rfl, hhash⟩ := heq
      exact computedHashes_honest hpeers hrun hhash

/-! ## What a step reports -/

/-- How a step reports the end of a file. -/
inductive Reports (cfg : UploadConfig) (s : UploadRun) : RunLabel → RunEvent → Prop where
  | skipped {w : Fin 2} {file : PreparedUploadFile} (hw : s.workers w = .admitted file true)
      (hskip : file.preflightAction = some .skip) : Reports cfg s (.worker w) (.skipped file
        (if file.duplicateSource = some .outgoingSelection then .outgoingSelection
        else .preflight))
  | refused {w : Fin 2} {file : PreparedUploadFile} {code : TransferErrorCode}
      (hw : s.workers w = .admitted file true) (hskip : file.preflightAction ≠ some .skip)
      (hcode : file.preflightFailureCode = some code) :
      Reports cfg s (.worker w) (.failed file { stage := .preflight, code })
  | saved {w : Fin 2} {file : PreparedUploadFile} {acknowledgedBytes : Nat} {reply : UploadReply}
      (hw : s.workers w = .uploading file acknowledgedBytes) :
      Reports cfg s (.uploaded w reply) (.saved file)
  | verified {w : Fin 2} {file : PreparedUploadFile} {acknowledgedBytes : Nat}
      {reply : UploadReply} (hw : s.workers w = .uploading file acknowledgedBytes) :
      Reports cfg s (.uploaded w reply) (.skipped file .finalization)
  | failed {w : Fin 2} {file : PreparedUploadFile} {acknowledgedBytes : Nat} {reply : UploadReply}
      {error : RunError} (hw : s.workers w = .uploading file acknowledgedBytes)
      (hreply : effectiveReply cfg file reply = .failed error) :
      Reports cfg s (.uploaded w reply)
        (.failed file (transferFailure error .upload .uploadFailed))

theorem LedgerStep.mem_log_cases (hl : LedgerStep cfg s l s') {e : RunEvent}
    {file : PreparedUploadFile} (hfile : e.terminalFile = some file) (he : e ∈ s'.log) :
    e ∈ s.log ∨ Reports cfg s l e := by
  have hquiet : ∀ {new : List RunEvent}, s'.log = s.log ++ new →
      (∀ e ∈ new, e.isQuiet = true) → e ∈ s.log := by
    intro new hlog hquiet
    rw [hlog] at he
    refine (List.mem_append.mp he).resolve_right fun hmem => ?_
    rw [(RunEvent.silent_of_quiet (hquiet e hmem)).terminalFile] at hfile
    cases hfile
  have hfailure : ∀ asset itemId code, e ≠ .preparationFailed asset itemId code := by
    rintro _ _ _ rfl
    cases hfile
  have hone : ∀ {ledger : Ledger} {event : RunEvent}, s'.ledger = ledger →
      ledger.log = s.log ++ [event] → Reports cfg s l event → e ∈ s.log ∨ Reports cfg s l e := by
    intro ledger event hledger hlog hreports
    rw [show s'.log = _ from (congrArg Ledger.log hledger).trans hlog] at he
    refine (List.mem_append.mp he).imp_right fun hmem => ?_
    rw [List.mem_singleton.mp hmem]
    exact hreports
  cases hl with
  | carried hc | counted _ hc =>
    obtain ⟨new, hledger, hnew⟩ := hc.ledger
    exact .inl (hquiet (congrArg Ledger.log hledger) hnew)
  | prepared _ _ hr | concluded _ _ _ _ hr =>
    rw [show s'.log = _ from congrArg Ledger.log hr.ledger] at he
    exact .inl (mem_of_foldl_markFailure hfailure _ _ he)
  | preflight | acknowledged => exact .inl he
  | skipped hw hskip hc => exact hone hc.ledger rfl (.skipped hw hskip)
  | refused hw hskip hcode hc => exact hone hc.ledger rfl (.refused hw hskip hcode)
  | saved hw _ hc => exact hone hc.ledger rfl (.saved hw)
  | verified hw _ hc => exact hone hc.ledger rfl (.verified hw)
  | failed hw hreply hc => exact hone hc.ledger rfl (.failed hw hreply)
  | completed _ _ _ _ hr =>
    rw [show s'.log = s.log ++ [_] from congrArg Ledger.log hr.ledger] at he
    refine .inl ((List.mem_append.mp he).resolve_right fun hmem => ?_)
    rw [List.mem_singleton.mp hmem] at hfile
    cases hfile

/-- The checked files and the registered hashes change in a preflight only. -/
theorem LedgerStep.checked_cases (hl : LedgerStep cfg s l s') :
    (s'.checked = s.checked ∧ s'.outgoingHashes = s.outgoingHashes) ∨
      ∃ window peers result outgoingHashes, l = .preflightDone peers ∧
        s.producer = .checking window ∧
        runDuplicatePreflightWindow cfg.nativeAvailable cfg.skipExactDuplicates peers window.files
          s.outgoingHashes = some (result, outgoingHashes) ∧
        s' = s.recordPreflight cfg window result outgoingHashes := by
  have hframe : ∀ {ledger : Ledger}, s'.ledger = ledger → ledger.checked = s.checked →
      ledger.outgoingHashes = s.outgoingHashes →
      s'.checked = s.checked ∧ s'.outgoingHashes = s.outgoingHashes := by
    intro ledger hledger hchecked hhashes
    exact ⟨(congrArg Ledger.checked hledger).trans hchecked,
      (congrArg Ledger.outgoingHashes hledger).trans hhashes⟩
  cases hl with
  | carried hc | counted _ hc =>
    obtain ⟨new, hledger, -⟩ := hc.ledger
    exact .inl (hframe hledger rfl rfl)
  | prepared _ _ hr | concluded _ _ _ _ hr =>
    have hrest := (foldl_markFailure_marked _ _).rest.symm.trans hr.ledger.symm
    exact .inl (hframe hrest.symm rfl rfl)
  | preflight hpc hrun => exact .inr ⟨_, _, _, _, rfl, hpc, hrun, rfl⟩
  | acknowledged => exact .inl ⟨rfl, rfl⟩
  | skipped _ _ hc | refused _ _ _ hc | saved _ _ hc | verified _ _ hc | failed _ _ hc =>
    exact .inl (hframe hc.ledger rfl rfl)
  | completed _ _ _ _ hr => exact .inl (hframe hr.ledger rfl rfl)

/-! ## Runs -/

/-- The files that were reported were checked. -/
theorem Accounts.checked_of_reported (h : s.Accounts) {file : PreparedUploadFile}
    (hmem : file ∈ s.reported) : file ∈ s.checkedFiles := by
  have hbalance := h.balance fun other => (other == file).toNat
  rw [filesWeight_countP, filesWeight_countP] at hbalance
  have hpos : 0 < s.reported.countP fun other => other == file :=
    List.countP_pos_iff.mpr ⟨file, hmem, beq_self_eq_true file⟩
  obtain ⟨other, hother, heq⟩ := List.countP_pos_iff.mp
    (show 0 < s.checkedFiles.countP fun other => other == file by omega)
  rwa [← beq_iff_eq.mp heq]

/-- A checked file is known with one hash. -/
theorem Accounts.checked_unique (h : s.Accounts) {e e' : PreparedUploadFile × Option String}
    (he : e ∈ s.checked) (he' : e' ∈ s.checked) (hid : e.1.variantId = e'.1.variantId) :
    e = e' := by
  have hnodup : (s.checked.map (·.1.variantId)).Nodup := by
    have hids := h.nodup.sublist ((List.sublist_append_left ..).map _)
    rwa [checkedFiles, List.map_map] at hids
  exact List.inj_on_of_nodup_map hnodup he he' hid

/-- What the reports of the files say. -/
structure Told (s : UploadRun) : Prop where
  outgoing : ∀ file, .skipped file .outgoingSelection ∈ s.log →
    file.duplicateSource = some .outgoingSelection
  spared : ∀ hash, s.SkippedFor hash → ¬s.FailedWith hash

theorem Told.step (h : s.Told) (ha : s.Accounts) (ha' : s'.Accounts) (hl : LedgerStep cfg s l s')
    (hspared : Spared cfg s l) : s'.Told := by
  -- A file that was reported before the step is checked with the same hash before it.
  have hchecked : ∀ {file hash e}, (file, some hash) ∈ s'.checked → e ∈ s.log →
      e.terminalFile = some file → (file, some hash) ∈ s.checked := by
    intro file hash e hmem he hfile
    rcases hl.checked_cases with ⟨heq, -⟩ | ⟨_, _, _, _, -, -, -, heq⟩
    · exact heq ▸ hmem
    · obtain ⟨e', he', rfl⟩ := List.mem_map.mp
        (ha.checked_of_reported (mem_reported.mpr ⟨e, he, hfile⟩))
      have hold : e' ∈ s'.checked := heq ▸ List.mem_append_left _ he'
      rwa [ha'.checked_unique hmem hold rfl]
  have hsame : ∀ {e file hash}, Reports cfg s l e → (file, some hash) ∈ s'.checked →
      (file, some hash) ∈ s.checked := by
    intro e file hash hreports hmem
    rcases hl.checked_cases with ⟨heq, -⟩ | ⟨_, _, _, _, rfl, -⟩
    · exact heq ▸ hmem
    · cases hreports
  refine ⟨fun file hmem => ?_, ?_⟩
  · rcases hl.mem_log_cases rfl hmem with hmem | hreports
    · exact h.outgoing file hmem
    · generalize he : RunEvent.skipped file .outgoingSelection = e at hreports
      cases hreports with
      | skipped hw hskip =>
        obtain ⟨rfl, hstage⟩ := RunEvent.skipped.inj he
        by_contra hsource
        rw [if_neg hsource] at hstage
        cases hstage
      | refused | saved | verified | failed => cases he
  · rintro hash ⟨file, hfile, hskipped⟩ ⟨other, failure, hother, hfailed⟩
    rcases hl.mem_log_cases rfl hskipped with hskipped | hskips
    · rcases hl.mem_log_cases rfl hfailed with hfailed | hfails
      · exact h.spared hash ⟨file, hchecked hfile hskipped rfl, hskipped⟩
          ⟨other, failure, hchecked hother hfailed rfl, hfailed⟩
      · have hbefore : s.SkippedFor hash := ⟨file, hchecked hfile hskipped rfl, hskipped⟩
        have hold := hsame hfails hother
        generalize he : RunEvent.failed other failure = e at hfails
        cases hfails with
        | refused hw hskip hcode =>
          obtain ⟨rfl, -⟩ := RunEvent.failed.inj he
          exact (hspared other hw hash hold).2 hskip (by rw [hcode]; rfl) hbefore
        | failed hw hreply =>
          obtain ⟨rfl, -⟩ := RunEvent.failed.inj he
          exact hspared other _ hw (by rw [fails, hreply]) hash hold hbefore
        | skipped | saved | verified => cases he
    · have hold := hsame hskips hfile
      generalize he : RunEvent.skipped file .outgoingSelection = e at hskips
      cases hskips with
      | @skipped w _ hw hskip =>
        obtain ⟨rfl, hstage⟩ := RunEvent.skipped.inj he
        have hsource : file.duplicateSource = some .outgoingSelection := by
          by_contra hsource
          rw [if_neg hsource] at hstage
          cases hstage
        rcases hl.mem_log_cases rfl hfailed with hfailed | hfails
        · exact (hspared file hw hash hold).1 hskip hsource
            ⟨other, failure, hchecked hother hfailed rfl, hfailed⟩
        · generalize he' : RunEvent.failed other failure = e' at hfails
          cases hfails with
          | refused hw' hskip' _ =>
            rw [hw] at hw'
            cases hw'
            exact hskip' hskip
          | skipped => cases he'
      | refused | saved | verified | failed => cases he

/-- What holds in every run of spared steps. -/
structure Backed (cfg : UploadConfig) (sha256 : String → String) (s : UploadRun) : Prop where
  kept : Kept cfg s
  founded : Founded sha256 s
  told : s.Told

theorem Backed.step (h : Backed cfg sha256 s) (hnew : s.NewItems l)
    (hhonest : HonestHashes sha256 l) (hspared : Spared cfg s l)
    (hs : runStep cfg s l = some s') : Backed cfg sha256 s' := by
  have hkept := h.kept.step hnew hs
  have hledger := runStep_ledger h.kept.orderly.parked hs
  refine ⟨hkept, ?_, h.told.step h.kept.accounts hkept.accounts hledger hspared⟩
  rcases hledger.checked_cases with ⟨hchecked, hhashes⟩ | ⟨window, peers, _, _, rfl, hpc, hrun, rfl⟩
  · exact h.founded.of_eq hchecked hhashes
  · refine h.founded.preflight ?_ hhonest hrun
    have hnodup := h.kept.accounts.nodup
    rw [fileIds, hpc, List.map_append] at hnodup
    exact hnodup.of_append_right

theorem backed_of_run (hrun : Run (runStep cfg)
      (fun s l => s.NewItems l ∧ HonestHashes sha256 l ∧ Spared cfg s l) (UploadRun.start cfg) t) :
    Backed cfg sha256 t := by
  refine Run.invariant (I := Backed cfg sha256) hrun
    ⟨kept_of_run (.refl _), ⟨?_, ?_, ?_⟩, ?_, ?_⟩
    fun s l s' h hok hs => h.step hok.1 hok.2.1 hok.2.2 hs
  · exact fun e he => absurd he List.not_mem_nil
  · exact fun hash entry hentry => by cases hentry
  · exact fun file hash hmem => absurd hmem List.not_mem_nil
  · exact fun file hmem => absurd hmem List.not_mem_nil
  · exact fun hash ⟨file, hmem, _⟩ => absurd hmem List.not_mem_nil

/-- **Outgoing duplicates are kept in every run of spared steps**: when such a run calls
`onComplete`, each item reported as an outgoing duplicate has another item of the run with the same
SHA-256 that the receiver saved or verified as present. -/
theorem outgoing_duplicates_kept {summary : UploadSummary} (hrun : Run (runStep cfg)
      (fun s l => s.NewItems l ∧ HonestHashes sha256 l ∧ Spared cfg s l) (UploadRun.start cfg) t)
    (he : .complete summary ∈ t.log) {file : PreparedUploadFile}
    (hskipped : .skipped file .outgoingSelection ∈ t.log) : ContentKept sha256 t file := by
  obtain ⟨s, hstart, -, hm, hnd, hdrained, -, ⟨new, hledger, hquiet⟩⟩ :=
    completion_of_complete hrun he
  have hlog : t.log = s.log ++ .complete summary :: new := congrArg Ledger.log hledger
  have hchecked : t.checked = s.checked := congrArg Ledger.checked hledger
  have hbacked := backed_of_run hstart
  have hconserved := hbacked.kept.conserved hnd
  have hskipped : .skipped file .outgoingSelection ∈ s.log := by
    rw [hlog] at hskipped
    refine (List.mem_append.mp hskipped).resolve_right fun hmem => ?_
    rcases List.mem_cons.mp hmem with heq | hmem
    · cases heq
    · cases hquiet _ hmem
  have hsource := hbacked.told.outgoing file hskipped
  obtain ⟨e, he, rfl⟩ := List.mem_map.mp
    (hbacked.kept.accounts.checked_of_reported (mem_reported.mpr ⟨_, hskipped, rfl⟩))
  obtain ⟨hash, hhash, other, hother, hstands⟩ := hbacked.founded.duplicates e he hsource
  have hpair : (e.1, some hash) ∈ s.checked := hhash ▸ he
  have hmem : other ∈ s.checkedFiles := List.mem_map_of_mem hother
  refine ⟨other, ?_, fun hid => ?_, ?_, ?_⟩
  · rw [checkedFiles, hchecked]
    exact hmem
  · have heq := hbacked.kept.accounts.checked_unique hother he hid
    exact hstands (by rw [← heq] at hsource; exact hsource)
  · rw [← hbacked.founded.honest _ _ hother, ← hbacked.founded.honest _ _ hpair]
  · obtain ⟨event, hevent, hfile⟩ :=
      mem_reported.mp (hconserved.reported_of_drained hdrained hmem)
    have hin : event ∈ t.log := hlog ▸ List.mem_append_left _ hevent
    cases event with
    | saved _ =>
      cases hfile
      exact .inl hin
    | skipped _ stage =>
      cases hfile
      cases stage with
      | finalization => exact .inr (.inl hin)
      | preflight => exact .inr (.inr hin)
      | outgoingSelection => exact absurd (hbacked.told.outgoing _ hevent) hstands
    | failed _ failure =>
      cases hfile
      exact (hbacked.told.spared hash ⟨e.1, hpair, hskipped⟩ ⟨other, failure, hother, hevent⟩).elim
    | uploading | preparationFailed | cancelRequest | history | complete | error => cases hfile

/-! ## A selection with a copy -/

end UploadRun

/-- The file that an event reports as failed. -/
def RunEvent.failedFile : RunEvent → Option PreparedUploadFile
  | .failed file _ => some file
  | _ => none

/-- The file that an event reports as an outgoing duplicate. -/
def RunEvent.outgoingFile : RunEvent → Option PreparedUploadFile
  | .skipped file .outgoingSelection => some file
  | _ => none

namespace UploadRun

theorem mem_failedFile {log : List RunEvent} {file : PreparedUploadFile} :
    file ∈ log.filterMap RunEvent.failedFile ↔ ∃ failure, .failed file failure ∈ log := by
  rw [List.mem_filterMap]
  constructor
  · rintro ⟨e, he, hfile⟩
    cases e <;> cases hfile
    exact ⟨_, he⟩
  · rintro ⟨failure, hmem⟩
    exact ⟨_, hmem, rfl⟩

theorem mem_outgoingFile {log : List RunEvent} {file : PreparedUploadFile} :
    file ∈ log.filterMap RunEvent.outgoingFile ↔ .skipped file .outgoingSelection ∈ log := by
  rw [List.mem_filterMap]
  constructor
  · rintro ⟨e, he, hfile⟩
    cases e with
    | skipped _ stage =>
      cases stage <;> cases hfile
      exact he
    | _ => cases hfile
  · exact fun hmem => ⟨_, hmem, rfl⟩

instance (s : UploadRun) (hash : String) : Decidable (s.SkippedFor hash) :=
  decidable_of_iff (∃ e ∈ s.checked, e.2 = some hash ∧ .skipped e.1 .outgoingSelection ∈ s.log)
    ⟨fun ⟨e, he, hhash, hmem⟩ => ⟨e.1, hhash ▸ he, hmem⟩,
      fun ⟨file, hfile, hmem⟩ => ⟨(file, some hash), hfile, rfl, hmem⟩⟩

instance (s : UploadRun) (hash : String) : Decidable (s.FailedWith hash) :=
  decidable_of_iff (∃ e ∈ s.checked, e.2 = some hash ∧ e.1 ∈ s.log.filterMap RunEvent.failedFile)
    ⟨fun ⟨e, he, hhash, hmem⟩ =>
        let ⟨failure, hfailed⟩ := mem_failedFile.mp hmem
        ⟨e.1, failure, hhash ▸ he, hfailed⟩,
      fun ⟨file, failure, hfile, hmem⟩ =>
        ⟨(file, some hash), hfile, rfl, mem_failedFile.mpr ⟨failure, hmem⟩⟩⟩

/-- The hashes of a file have a property. -/
theorem forall_hash_iff {checked : List (PreparedUploadFile × Option String)}
    {file : PreparedUploadFile} {P : String → Prop} :
    (∀ e ∈ checked, e.1 = file → ∀ hash ∈ e.2, P hash) ↔
      ∀ hash, (file, some hash) ∈ checked → P hash :=
  ⟨fun h hash hmem => h _ hmem rfl hash rfl, fun h e he hfile hash hhash => by
    subst hfile
    exact h hash ((Option.mem_def.mp hhash) ▸ he)⟩

instance (cfg : UploadConfig) (s : UploadRun) (l : RunLabel) : Decidable (Spared cfg s l) :=
  match l with
  | .uploaded w reply =>
    match h : s.workers w with
    | .uploading file _ =>
      decidable_of_iff (fails cfg file reply = true →
          ∀ e ∈ s.checked, e.1 = file → ∀ hash ∈ e.2, ¬s.SkippedFor hash)
        ⟨fun hall _ _ heq hfails => by
          cases h.symm.trans heq
          exact forall_hash_iff.mp (hall hfails),
          fun hall hfails => forall_hash_iff.mpr (hall file _ h hfails)⟩
    | .idle | .shifting | .received _ | .waiting _ | .admitted _ _ | .releasing _ | .done =>
      isTrue fun _ _ heq => nomatch h.symm.trans heq
  | .worker w =>
    match h : s.workers w with
    | .admitted file true =>
      decidable_of_iff (∀ e ∈ s.checked, e.1 = file → ∀ hash ∈ e.2,
          (file.preflightAction = some .skip → file.duplicateSource = some .outgoingSelection →
            ¬s.FailedWith hash) ∧
          (file.preflightAction ≠ some .skip → file.preflightFailureCode.isSome = true →
            ¬s.SkippedFor hash))
        ⟨fun hall _ heq => by
          cases h.symm.trans heq
          exact forall_hash_iff.mp hall,
          fun hall => forall_hash_iff.mpr (hall file h)⟩
    | .admitted _ false | .idle | .shifting | .received _ | .waiting _ | .uploading _ _
    | .releasing _ | .done => isTrue fun _ heq => nomatch h.symm.trans heq
  | .prepared _ | .cancel | .begun _ | .thermalRead _ | .pinged _ | .preflightDone _
  | .thermalChanged _ | .main | .settle | .producer | .enqueuer | .acknowledged _ _ =>
    isTrue trivial

end UploadRun

/-- A photo, its copy and a file of another size, streamed with duplicate checks. -/
def copyConfig : UploadConfig :=
  { streamingConfig with assets := fiveAssets.take 3, skipExactDuplicates := true }

def copyWindow : PreparedWindow :=
  { files := (fiveFiles.files.take 3).map fun file =>
      { file with size := if file.variantId = "c" then 3 else 2 }
    failures := [] }

/-- The receiver has none of the files, and the photo and its copy have one hash. -/
def copyPeers : PreflightPeers where
  preflightCheck _ batch := .files (batch.map fun file => ⟨file.id, .upload, none⟩)
  preflightVerify _ _ := .files []
  hashPreparedFiles _ _ requests :=
    some (requests.map fun request => .success request.variantId "h")

theorem copyPeers_hashesContents : copyPeers.HashesContents fun _ => "h" := by
  intro index again requests results hresults id hash hmem
  cases hresults
  obtain ⟨request, -, heq⟩ := List.mem_map.mp hmem
  exact (NativeHashResult.success.inj heq).2.symm

/-- One worker uploads the photo, the other one skips its copy and then fails with the last file. -/
def copyUpload (photo : UploadReply) : List RunLabel :=
  List.flatten [
    [.begun true, .thermalRead (some .nominal), .main, .pinged true, .main, .producer],
    [.prepared (some copyWindow), .preflightDone copyPeers],
    List.replicate 5 .producer,
    List.replicate 3 (.worker firstWorker),
    List.replicate 7 (.worker secondWorker),
    [.uploaded secondWorker (.failed .other), .uploaded firstWorker photo],
    List.replicate 2 (.worker firstWorker), List.replicate 2 (.worker secondWorker),
    [.settle, .main, .main, .main, .main]]

namespace UploadRun

/-- The run completed, and reported these files as saved and these as outgoing duplicates. -/
def completes (s : UploadRun) (saved outgoing : List String) : Bool :=
  decide ((s.log.filterMap RunEvent.completion).length = 1) &&
    (decide (s.savedVariants = saved) &&
      decide ((s.log.filterMap RunEvent.outgoingFile).map (·.variantId) = outgoing))

theorem copyUpload_honest (photo : UploadReply) :
    ∀ l ∈ copyUpload photo, HonestHashes (fun _ => "h") l := by
  intro l hl
  cases l with
  | preflightDone peers =>
    have hpeers : peers = copyPeers := by
      simpa [copyUpload] using hl
    rw [hpeers]
    exact copyPeers_hashesContents
  | _ => trivial

theorem exists_of_completes {t : UploadRun} {saved outgoing : List String}
    (h : t.completes saved outgoing = true) : (∃ summary, .complete summary ∈ t.log) ∧
      t.savedVariants = saved ∧
        (t.log.filterMap RunEvent.outgoingFile).map (·.variantId) = outgoing := by
  simp only [completes, Bool.and_eq_true, decide_eq_true_eq] at h
  obtain ⟨hlength, hsaved, houtgoing⟩ := h
  obtain ⟨summary, hmem⟩ := List.exists_mem_of_length_pos (hlength ▸ Nat.one_pos)
  obtain ⟨e, he, hcompletion⟩ := List.mem_filterMap.mp hmem
  refine ⟨⟨summary, ?_⟩, hsaved, houtgoing⟩
  cases e with
  | complete _ =>
    cases hcompletion
    exact he
  | _ => cases hcompletion

/-- The copy is skipped in favour of the photo, which is saved, while another file fails. -/
theorem outgoing_duplicates_kept_copy : ∃ (t : UploadRun) (file : PreparedUploadFile),
    file.variantId = "b" ∧ .skipped file .outgoingSelection ∈ t.log ∧
      t.savedVariants = ["a"] ∧ ContentKept (fun _ => "h") t file := by
  obtain ⟨t, hrun, htest⟩ := Run.exists_of_exec_labels (runStep copyConfig)
    (P := fun s l => s.NewItems l ∧ HonestHashes (fun _ => "h") l ∧ Spared copyConfig s l)
    (fun s l => decide (s.NewItems l ∧ Spared copyConfig s l)) (fun t => t.completes ["a"] ["b"])
    (UploadRun.start copyConfig) (copyUpload .saved) (copyUpload_honest .saved)
    (fun _ _ hhonest h => ⟨(of_decide_eq_true h).1, hhonest, (of_decide_eq_true h).2⟩) (by decide)
  obtain ⟨⟨summary, he⟩, hsaved, houtgoing⟩ := exists_of_completes htest
  obtain ⟨file, hfile, hid⟩ := List.mem_map.mp
    (show "b" ∈ (t.log.filterMap RunEvent.outgoingFile).map (·.variantId) by
      rw [houtgoing]; exact List.mem_singleton_self _)
  have hskipped := mem_outgoingFile.mp hfile
  exact ⟨t, file, hid, hskipped, hsaved, outgoing_duplicates_kept hrun he hskipped⟩

/-- **The content of an outgoing duplicate can be lost**: the upload of the photo fails after its
copy was skipped, and the run completes. -/
theorem outgoing_duplicate_lost :
    ¬∀ (cfg : UploadConfig) (sha256 : String → String) (t : UploadRun) (summary : UploadSummary),
      Run (runStep cfg) (fun s l => s.NewItems l ∧ HonestHashes sha256 l) (UploadRun.start cfg) t →
      .complete summary ∈ t.log → ∀ file, .skipped file .outgoingSelection ∈ t.log →
        ContentKept sha256 t file := by
  intro h
  obtain ⟨t, hrun, htest⟩ := Run.exists_of_exec_labels (runStep copyConfig)
    (P := fun s l => s.NewItems l ∧ HonestHashes (fun _ => "h") l)
    (fun s l => decide (s.NewItems l)) (fun t => t.completes [] ["b"] &&
      decide ((t.log.filterMap RunEvent.skippedFile).map (·.variantId) = ["b"]))
    (UploadRun.start copyConfig) (copyUpload (.failed .other)) (copyUpload_honest _)
    (fun _ _ hhonest h => ⟨of_decide_eq_true h, hhonest⟩) (by decide)
  rw [Bool.and_eq_true] at htest
  obtain ⟨⟨summary, he⟩, hsaved, houtgoing⟩ := exists_of_completes htest.1
  obtain ⟨file, hfile, hid⟩ := List.mem_map.mp
    (show "b" ∈ (t.log.filterMap RunEvent.outgoingFile).map (·.variantId) by
      rw [houtgoing]; exact List.mem_singleton_self _)
  obtain ⟨other, -, hne, -, hkept⟩ := h _ _ t summary hrun he file (mem_outgoingFile.mp hfile)
  have hskip : ∀ stage, .skipped other stage ∈ t.log → False := by
    intro stage hmem
    refine hne (hid ▸ List.mem_singleton.mp ?_)
    rw [← of_decide_eq_true htest.2]
    exact List.mem_map.mpr ⟨other, List.mem_filterMap.mpr ⟨_, hmem, rfl⟩, rfl⟩
  rcases hkept with hmem | hmem | hmem
  · have hsave : other.variantId ∈ t.savedVariants := List.mem_filterMap.mpr ⟨_, hmem, rfl⟩
    rw [hsaved] at hsave
    exact List.not_mem_nil hsave
  · exact hskip _ hmem
  · exact hskip _ hmem

end UploadRun

end LocalMediaTransfer
