import LocalMediaTransfer.Ios.Upload.OutgoingDuplicates

/-!
# The duplicate preflight decides every file

`runDuplicatePreflightWindow` overwrites the action of a file in up to five passes, on answers that
may be missing, repeated or about other files.

* `Settled`, `metadataPass_entries`, `verificationPass_settles` — no file is left as
  `hash_required`.
* `Backed` — a skip before the hash groups was answered by the receiver.
* `resolveEach_skip` — what the hash groups skip a file for.
* `preflight_classification` — **every file is uploaded or skipped, and every skip has a reason**,
  for every window, every registry and all answers but an authorization error.

`OutcomeMetrics` is the part of the metrics that counts the decisions.
-/

set_option autoImplicit false

namespace LocalMediaTransfer

open Lib PreflightResult

/-! ## The counted outcomes -/

/-- The counters that `captureOutcomeMetrics` sets. -/
structure OutcomeMetrics where
  hashedThenUploadedFiles : Nat := 0
  hashedThenUploadedBytes : Nat := 0
  receiverSkippedFiles : Nat := 0
  receiverSkippedBytes : Nat := 0
  outgoingSkippedFiles : Nat := 0
  outgoingSkippedBytes : Nat := 0
  deriving DecidableEq

namespace PreflightResult

variable (result : PreflightResult)

/-- `preflightResults.get(id) ?? 'upload'`. -/
def action (id : String) : PreflightAction := (result.preflightResults.lookup id).getD .upload

/-- One file of `captureOutcomeMetrics`. -/
def captureOutcome (metrics : OutcomeMetrics) (file : PreparedUploadFile) : OutcomeMetrics :=
  let action := result.action file.variantId
  let metrics :=
    if (result.computedHashes.lookup file.variantId).isSome && action = .upload then
      { metrics with
        hashedThenUploadedFiles := metrics.hashedThenUploadedFiles + 1
        hashedThenUploadedBytes := metrics.hashedThenUploadedBytes + file.size }
    else metrics
  if action ≠ .skip then metrics
  else if result.duplicateSources.lookup file.variantId = some .outgoingSelection then
    { metrics with
      outgoingSkippedFiles := metrics.outgoingSkippedFiles + 1
      outgoingSkippedBytes := metrics.outgoingSkippedBytes + file.size }
  else
    { metrics with
      receiverSkippedFiles := metrics.receiverSkippedFiles + 1
      receiverSkippedBytes := metrics.receiverSkippedBytes + file.size }

def captureOutcomeMetrics (fileInfos : List PreparedUploadFile) : OutcomeMetrics :=
  fileInfos.foldl result.captureOutcome {}

/-- The files of a window that are skipped. -/
def skippedFiles (fileInfos : List PreparedUploadFile) : List PreparedUploadFile :=
  fileInfos.filter fun file => result.action file.variantId = .skip

theorem captureOutcome_spec (metrics : OutcomeMetrics) (file : PreparedUploadFile) :
    (result.captureOutcome metrics file).receiverSkippedFiles +
        (result.captureOutcome metrics file).outgoingSkippedFiles =
      metrics.receiverSkippedFiles + metrics.outgoingSkippedFiles +
        (result.skippedFiles [file]).length ∧
    (result.captureOutcome metrics file).receiverSkippedBytes +
        (result.captureOutcome metrics file).outgoingSkippedBytes =
      metrics.receiverSkippedBytes + metrics.outgoingSkippedBytes +
        ((result.skippedFiles [file]).map (·.size)).sum := by
  unfold captureOutcome skippedFiles
  by_cases hskip : result.action file.variantId = .skip
  · by_cases hsource : result.duplicateSources.lookup file.variantId = some .outgoingSelection
    · simp [hskip, hsource]
      omega
    · simp [hskip, hsource]
      omega
  · by_cases hhash : (result.computedHashes.lookup file.variantId).isSome ∧
        result.action file.variantId = .upload
    · simp [hhash.1, hhash.2]
    · simp [hskip, hhash]

/-- The two kinds of skipped files are all skipped files, and likewise in bytes. -/
theorem captureOutcomeMetrics_spec (fileInfos : List PreparedUploadFile) :
    (result.captureOutcomeMetrics fileInfos).receiverSkippedFiles +
        (result.captureOutcomeMetrics fileInfos).outgoingSkippedFiles =
      (result.skippedFiles fileInfos).length ∧
    (result.captureOutcomeMetrics fileInfos).receiverSkippedBytes +
        (result.captureOutcomeMetrics fileInfos).outgoingSkippedBytes =
      ((result.skippedFiles fileInfos).map (·.size)).sum := by
  have hfold : ∀ metrics : OutcomeMetrics,
      (fileInfos.foldl result.captureOutcome metrics).receiverSkippedFiles +
          (fileInfos.foldl result.captureOutcome metrics).outgoingSkippedFiles =
        metrics.receiverSkippedFiles + metrics.outgoingSkippedFiles +
          (result.skippedFiles fileInfos).length ∧
      (fileInfos.foldl result.captureOutcome metrics).receiverSkippedBytes +
          (fileInfos.foldl result.captureOutcome metrics).outgoingSkippedBytes =
        metrics.receiverSkippedBytes + metrics.outgoingSkippedBytes +
          ((result.skippedFiles fileInfos).map (·.size)).sum := by
    induction fileInfos with
    | nil => exact fun metrics => ⟨rfl, rfl⟩
    | cons file fileInfos ih =>
      intro metrics
      have hsplit : result.skippedFiles (file :: fileInfos) =
          result.skippedFiles [file] ++ result.skippedFiles fileInfos :=
        List.filter_append [file] fileInfos
      obtain ⟨hfiles, hbytes⟩ := ih (result.captureOutcome metrics file)
      obtain ⟨hfile, hsize⟩ := result.captureOutcome_spec metrics file
      rw [List.foldl_cons, hsplit, List.length_append, List.map_append, List.sum_append]
      omega
  unfold captureOutcomeMetrics
  simpa using hfold {}

/-! ## Settled files -/

variable {result}

/-- The action of an ID is final, up to a skip by its hash. -/
def Settled (result : PreflightResult) (id : String) : Prop :=
  result.preflightResults.lookup id = some .upload ∨ result.preflightResults.lookup id = some .skip

theorem setAction_lookup (id : String) (action : PreflightAction) (id' : String) :
    (result.setAction id action).preflightResults.lookup id' =
      if id' = id then some action else result.preflightResults.lookup id' := by
  unfold setAction
  split
  · rename_i h
    subst h
    exact AList.lookup_insert ..
  · rename_i h
    exact AList.lookup_insert_ne h

theorem Settled.setUpload {id : String} (h : result.Settled id) (id' : String) :
    (result.setAction id' .upload).Settled id := by
  unfold Settled
  rw [setAction_lookup]
  split
  · exact .inl rfl
  · exact h

theorem settled_setUpload (id : String) : (result.setAction id .upload).Settled id := by
  unfold Settled
  rw [setAction_lookup, if_pos rfl]
  exact .inl rfl

theorem settled_uploadUnverified {ids : List String} {id : String}
    (h : id ∈ ids ∨ result.Settled id) : (uploadUnverified result ids).Settled id := by
  induction ids generalizing result with
  | nil => exact h.resolve_left List.not_mem_nil
  | cons first ids ih =>
    refine ih ?_
    rcases h with h | h
    · rcases List.mem_cons.mp h with rfl | h
      · exact .inr (settled_setUpload _)
      · exact .inl h
    · exact .inr (h.setUpload first)

/-- The files of a batch that got no result are uploaded like unverified ones. -/
theorem uploadMissing_eq (returned batch : List String) :
    result.uploadMissing returned batch =
      uploadUnverified result (batch.filter fun id => id ∉ returned) := rfl

theorem recordVerification_lookup (reply : PreflightFileResult) (id : String) :
    (result.recordVerification reply).preflightResults.lookup id =
      if id = reply.id then some (if reply.action = .skip then .skip else .upload)
      else result.preflightResults.lookup id := by
  unfold recordVerification
  cases haction : reply.action with
  | upload => simpa using setAction_lookup reply.id .upload id
  | hashRequired => simpa using setAction_lookup reply.id .upload id
  | skip =>
    simp only [if_true]
    rw [← setAction_lookup]
    cases reply.filename <;> rfl

theorem Settled.recordVerification {id : String} (reply : PreflightFileResult)
    (h : id = reply.id ∨ result.Settled id) : (result.recordVerification reply).Settled id := by
  unfold Settled
  rw [recordVerification_lookup]
  split
  · split
    · exact .inr rfl
    · exact .inl rfl
  · rename_i hne
    exact h.resolve_left hne

theorem settled_recordVerification {files : List PreflightFileResult} {id : String}
    (h : id ∈ files.map (·.id) ∨ result.Settled id) :
    (files.foldl PreflightResult.recordVerification result).Settled id := by
  induction files generalizing result with
  | nil => exact h.resolve_left List.not_mem_nil
  | cons reply files ih =>
    refine ih ?_
    rcases h with h | h
    · rcases List.mem_cons.mp h with h | h
      · exact .inr (.recordVerification reply (.inl h))
      · exact .inl h
    · exact .inr (.recordVerification reply (.inr h))

/-- A verified batch settles its files, and keeps what is settled. -/
theorem verifyBatch_settles {reply : ReceiverReply} {batch : List String} {after : PreflightResult}
    (h : result.verifyBatch reply batch = some after) {id : String}
    (hid : id ∈ batch ∨ result.Settled id) : after.Settled id := by
  unfold verifyBatch at h
  split at h
  · cases h
  · cases h
    rw [uploadMissing_eq]
    refine settled_uploadUnverified (hid.imp_left fun hid => ?_)
    simpa using hid
  · rename_i files
    cases h
    rw [uploadMissing_eq]
    refine settled_uploadUnverified ?_
    by_cases hreturned : id ∈ files.map (·.id)
    · exact .inr (settled_recordVerification (.inl hreturned))
    · rcases hid with hid | hid
      · exact .inl (List.mem_filter.mpr ⟨hid, by simpa using hreturned⟩)
      · exact .inr (settled_recordVerification (.inr hid))

/-! ## After the metadata pass -/

/-- Who is still to be hashed is a candidate of the receiver. -/
def Screened (result : PreflightResult) : Prop :=
  ∀ id, result.preflightResults.lookup id = some .hashRequired → id ∈ result.receiverCandidateIds

/-- The ID has an action. -/
def HasAction (result : PreflightResult) (id : String) : Prop :=
  (result.preflightResults.lookup id).isSome

theorem HasAction.setAction {id : String} (h : result.HasAction id) (id' : String)
    (action : PreflightAction) : (result.setAction id' action).HasAction id := by
  unfold HasAction
  rw [setAction_lookup]
  split
  · rfl
  · exact h

theorem Screened.setAction (h : result.Screened) (id : String) {action : PreflightAction}
    (haction : action ≠ .hashRequired) : (result.setAction id action).Screened := by
  intro id' hid
  rw [setAction_lookup] at hid
  split at hid
  · exact absurd (Option.some.inj hid) haction
  · exact h id' hid

theorem Screened.uploadUnverified (h : result.Screened) (ids : List String) :
    (uploadUnverified result ids).Screened := by
  unfold LocalMediaTransfer.uploadUnverified
  exact List.foldlRecOn ids _ (motive := fun r : PreflightResult => r.Screened) h
    fun _ hr _ _ => hr.setAction _ (by decide)

theorem HasAction.uploadUnverified {id : String} {ids : List String}
    (h : id ∈ ids ∨ result.HasAction id) : (uploadUnverified result ids).HasAction id := by
  induction ids generalizing result with
  | nil => exact h.resolve_left List.not_mem_nil
  | cons first ids ih =>
    refine ih ?_
    rcases h with h | h
    · rcases List.mem_cons.mp h with rfl | h
      · refine .inr ?_
        unfold HasAction
        rw [setAction_lookup, if_pos rfl]
        rfl
      · exact .inl h
    · exact .inr (h.setAction first .upload)

theorem recordMetadata_lookup (reply : PreflightFileResult) (id : String) :
    (result.recordMetadata reply).preflightResults.lookup id =
      if id = reply.id then some reply.action else result.preflightResults.lookup id := by
  unfold recordMetadata
  cases haction : reply.action with
  | upload => exact setAction_lookup ..
  | hashRequired => exact setAction_lookup reply.id .hashRequired id
  | skip =>
    rw [← setAction_lookup]
    cases reply.filename <;> rfl

theorem Screened.recordMetadata (h : result.Screened) (reply : PreflightFileResult) :
    (result.recordMetadata reply).Screened := by
  unfold PreflightResult.recordMetadata
  split
  · intro id hid
    rw [mem_setAdd]
    have hlookup := hid
    simp only at hlookup
    rw [setAction_lookup] at hlookup
    split at hlookup
    · rename_i heq
      exact .inr heq
    · exact .inl (h id hlookup)
  · exact h.setAction _ (by decide)
  · split
    · exact h.setAction _ (by decide)
    · have hset := h.setAction reply.id (show PreflightAction.skip ≠ .hashRequired by decide)
      exact fun id hid => hset id hid

theorem hasAction_recordMetadata {files : List PreflightFileResult} {id : String}
    (h : id ∈ files.map (·.id) ∨ result.HasAction id) :
    (files.foldl PreflightResult.recordMetadata result).HasAction id := by
  induction files generalizing result with
  | nil => exact h.resolve_left List.not_mem_nil
  | cons reply files ih =>
    refine ih ?_
    unfold HasAction
    rw [recordMetadata_lookup]
    rcases h with h | h
    · rcases List.mem_cons.mp h with rfl | h
      · exact .inr (by rw [if_pos rfl]; rfl)
      · exact .inl h
    · refine .inr ?_
      split
      · rfl
      · exact h

theorem checkBatch_spec {reply : ReceiverReply} {batch : List String} {after : PreflightResult}
    (h : result.checkBatch reply batch = some after) :
    (result.Screened → after.Screened) ∧
      ∀ id, id ∈ batch ∨ result.HasAction id → after.HasAction id := by
  unfold checkBatch at h
  split at h
  · cases h
  · cases h
    rw [uploadMissing_eq]
    refine ⟨fun hs => hs.uploadUnverified _, fun id hid => ?_⟩
    exact .uploadUnverified (hid.imp_left fun hid => by simpa using hid)
  · rename_i files
    cases h
    rw [uploadMissing_eq]
    refine ⟨fun hs => Screened.uploadUnverified ?_ _, fun id hid => HasAction.uploadUnverified ?_⟩
    · exact List.foldlRecOn files _ (motive := fun r : PreflightResult => r.Screened) hs
        fun _ hr _ _ => hr.recordMetadata _
    · by_cases hreturned : id ∈ files.map (·.id)
      · exact .inr (hasAction_recordMetadata (.inl hreturned))
      · rcases hid with hid | hid
        · exact .inl (List.mem_filter.mpr ⟨hid, by simpa using hreturned⟩)
        · exact .inr (hasAction_recordMetadata (.inr hid))

/-! ## Skips before the groups -/

/-- Every skip, and every matched filename, was answered. -/
structure Backed (answered : String → Option String → Prop) (result : PreflightResult) : Prop where
  skip : ∀ id, result.preflightResults.lookup id = some .skip → ∃ filename, answered id filename
  matched : ∀ id filename, result.matchedFilenames.lookup id = some filename →
    answered id (some filename)

section Backed

variable {answered : String → Option String → Prop}

theorem backed_empty : ({} : PreflightResult).Backed answered := by
  refine ⟨fun id hid => ?_, fun id filename hid => ?_⟩
  · cases hid
  · cases hid

theorem Backed.setAction (h : result.Backed answered) (id : String) {action : PreflightAction}
    (haction : action ≠ .skip) : (result.setAction id action).Backed answered := by
  refine ⟨fun id' hskip => ?_, h.matched⟩
  rw [setAction_lookup] at hskip
  split at hskip
  · exact absurd (Option.some.inj hskip) haction
  · exact h.skip id' hskip

theorem Backed.setSkip (h : result.Backed answered) {id : String} {filename : Option String}
    (ha : answered id filename) : (result.setAction id .skip).Backed answered := by
  refine ⟨fun id' hskip => ?_, h.matched⟩
  rw [setAction_lookup] at hskip
  split at hskip
  · rename_i heq
    exact ⟨filename, heq ▸ ha⟩
  · exact h.skip id' hskip

theorem Backed.insertMatch (h : result.Backed answered) {id filename : String}
    (ha : answered id (some filename)) {after : PreflightResult}
    (hactions : after.preflightResults = result.preflightResults)
    (hmatched : after.matchedFilenames = result.matchedFilenames.insert id filename) :
    after.Backed answered := by
  refine ⟨fun id' hskip => h.skip id' (hactions ▸ hskip), fun id' filename' hmatch => ?_⟩
  rw [hmatched] at hmatch
  by_cases hid : id' = id
  · subst hid
    rw [AList.lookup_insert] at hmatch
    exact Option.some.inj hmatch ▸ ha
  · rw [AList.lookup_insert_ne hid] at hmatch
    exact h.matched id' filename' hmatch

theorem Backed.recordMetadata (h : result.Backed answered) {reply : PreflightFileResult}
    (ha : reply.action = .skip → answered reply.id reply.filename) :
    (result.recordMetadata reply).Backed answered := by
  unfold PreflightResult.recordMetadata
  split
  · have hset := h.setAction reply.id (show PreflightAction.hashRequired ≠ .skip by decide)
    exact ⟨hset.skip, hset.matched⟩
  · exact h.setAction _ (by decide)
  · rename_i haction
    have hset := h.setSkip (ha haction)
    split
    · exact hset
    · rename_i filename hfilename
      rw [hfilename] at ha
      exact hset.insertMatch (ha haction) rfl rfl

theorem Backed.recordVerification (h : result.Backed answered) {reply : PreflightFileResult}
    (ha : reply.action = .skip → answered reply.id reply.filename) :
    (result.recordVerification reply).Backed answered := by
  unfold PreflightResult.recordVerification
  split
  · exact h.setAction _ (by decide)
  · exact h.setAction _ (by decide)
  · rename_i haction
    have hset := h.setSkip (ha haction)
    simp only
    split
    · exact ⟨hset.skip, hset.matched⟩
    · rename_i filename hfilename
      rw [hfilename] at ha
      exact hset.insertMatch (ha haction) rfl rfl

theorem Backed.uploadUnverified (h : result.Backed answered) (ids : List String) :
    (uploadUnverified result ids).Backed answered := by
  unfold LocalMediaTransfer.uploadUnverified
  exact List.foldlRecOn ids _ (motive := fun r : PreflightResult => r.Backed answered) h
    fun _ hr _ _ => hr.setAction _ (by decide)

theorem Backed.checkBatch (h : result.Backed answered) {reply : ReceiverReply} {batch : List String}
    (ha : ∀ files, reply = .files files → ∀ found ∈ files, found.action = .skip →
      answered found.id found.filename)
    {after : PreflightResult} (hafter : result.checkBatch reply batch = some after) :
    after.Backed answered := by
  unfold PreflightResult.checkBatch at hafter
  split at hafter
  · cases hafter
  · cases hafter
    exact h.uploadUnverified _
  · rename_i files
    cases hafter
    refine Backed.uploadUnverified ?_ _
    exact List.foldlRecOn files _ (motive := fun r : PreflightResult => r.Backed answered) h
      fun _ hr found hfound => hr.recordMetadata (ha files rfl found hfound)

theorem Backed.verifyBatch (h : result.Backed answered) {reply : ReceiverReply}
    {batch : List String}
    (ha : ∀ files, reply = .files files → ∀ found ∈ files, found.action = .skip →
      answered found.id found.filename)
    {after : PreflightResult} (hafter : result.verifyBatch reply batch = some after) :
    after.Backed answered := by
  unfold PreflightResult.verifyBatch at hafter
  split at hafter
  · cases hafter
  · cases hafter
    exact h.uploadUnverified _
  · rename_i files
    cases hafter
    refine Backed.uploadUnverified ?_ _
    exact List.foldlRecOn files _ (motive := fun r : PreflightResult => r.Backed answered) h
      fun _ hr found hfound => hr.recordVerification (ha files rfl found hfound)

end Backed

/-! ## What the groups skip for -/

/-- A group leaves the action of an ID, or skips it. -/
theorem resolveGroup_action (outgoingHashes : OutgoingHashRegistry) (hash : String)
    (group : List PreparedUploadFile) (id : String) :
    (result.resolveGroup outgoingHashes hash group).1.preflightResults.lookup id =
        result.preflightResults.lookup id ∨
      (result.resolveGroup outgoingHashes hash group).1.preflightResults.lookup id =
        some .skip := by
  have hall : ∀ source matched files,
      (result.skipAll source matched files).preflightResults.lookup id =
          result.preflightResults.lookup id ∨
        (result.skipAll source matched files).preflightResults.lookup id = some .skip := by
    intro source matched files
    have hdecision := congrArg (·.1) (result.skipAll_decision source matched files id)
    simp only [decision] at hdecision
    rw [hdecision]
    split
    · exact .inr rfl
    · exact .inl rfl
  unfold resolveGroup
  split
  · exact .inl rfl
  · simp only
    split
    · exact hall ..
    · split <;> exact hall ..

/-- **What a group is skipped for**: a file of it that the receiver matched, or its registered hash,
or its first file. -/
theorem resolveGroup_skip {outgoingHashes : OutgoingHashRegistry} {hash : String}
    {canonical : PreparedUploadFile} {duplicates : List PreparedUploadFile} :
    (∃ other ∈ canonical :: duplicates,
      (result.matchedFilenames.lookup other.variantId).isSome) ∨
    (outgoingHashes.lookup hash).isSome ∨
    (result.resolveGroup outgoingHashes hash (canonical :: duplicates)).1 =
      result.skipAll .outgoingSelection canonical.transferFilename duplicates := by
  by_cases hmatch : ∃ other ∈ canonical :: duplicates,
      (result.matchedFilenames.lookup other.variantId).isSome
  · exact .inl hmatch
  · refine .inr ?_
    have hnone : (canonical :: duplicates).findSome? (fun file =>
        result.matchedFilenames.lookup file.variantId) = none := by
      refine List.findSome?_eq_none_iff.mpr fun other hother => ?_
      by_contra hsome
      exact hmatch ⟨other, hother, Option.isSome_iff_ne_none.mpr hsome⟩
    cases hearlier : outgoingHashes.lookup hash with
    | some earlier => exact .inl rfl
    | none =>
      refine .inr ?_
      unfold resolveGroup
      simp only [hnone, hearlier, Option.none_or, Option.bind_none]

theorem Settled.resolveEach {acc : PreflightResult × OutgoingHashRegistry} {id : String}
    (h : acc.1.Settled id) (groups : List (String × List PreparedUploadFile)) :
    (resolveEach acc groups).1.Settled id := by
  unfold LocalMediaTransfer.resolveEach
  refine List.foldlRecOn groups _
    (motive := fun r : PreflightResult × OutgoingHashRegistry => r.1.Settled id) h
    fun r hr e _ => ?_
  rcases @resolveGroup_action r.1 r.2 e.1 e.2 id with heq | heq
  · unfold Settled
    rw [heq]
    exact hr
  · exact .inr heq

end PreflightResult

/-! ## The passes of a window -/

section Window

variable {nativeAvailable : Bool} {peers : PreflightPeers} {fileInfos : List PreparedUploadFile}
  {result : PreflightResult} {hashes hashes' : OutgoingHashRegistry}

/-- The records of the metadata pass. -/
def metadataPayload (fileInfos : List PreparedUploadFile) : List PreflightFile :=
  fileInfos.map fun file =>
    { id := file.variantId, name := file.transferFilename, size := file.size }

/-- The batches of the metadata pass, with their numbers. -/
def metadataBatches (fileInfos : List PreparedUploadFile) : List (List PreflightFile × Nat) :=
  (batches preflightBatchSize (metadataPayload fileInfos)).zipIdx

/-- The batches of the verification pass. -/
def verificationBatches (fileInfos : List PreparedUploadFile) (result : PreflightResult) :
    List (List PreflightVerifyFile × Nat) :=
  (batches preflightBatchSize (verificationPayload fileInfos result)).zipIdx

/-- The receiver answered `skip` for an ID in one of the two passes, with or without the name of a
file that it has. -/
inductive SkipAnswered (peers : PreflightPeers) (fileInfos : List PreparedUploadFile)
    (result : PreflightResult) (id : String) (filename : Option String) : Prop where
  | metadata (batch : List PreflightFile) (index : Nat) (files : List PreflightFileResult)
      (sent : (batch, index) ∈ metadataBatches fileInfos)
      (reply : peers.preflightCheck index batch = .files files)
      (found : ⟨id, .skip, filename⟩ ∈ files)
  | verification (batch : List PreflightVerifyFile) (index : Nat) (files : List PreflightFileResult)
      (sent : (batch, index) ∈ verificationBatches fileInfos result)
      (reply : peers.preflightVerify index batch = .files files)
      (found : ⟨id, .skip, filename⟩ ∈ files)

theorem mem_of_skip {files : List PreflightFileResult} {found : PreflightFileResult}
    (hfound : found ∈ files) (haction : found.action = .skip) :
    ⟨found.id, .skip, found.filename⟩ ∈ files := by
  rw [← haction]
  exact hfound

/-- After the metadata pass every file has an action, those without a final one are candidates of
the receiver, and the skips were answered. -/
theorem metadataPass_spec {checked : PreflightResult}
    (h : metadataPass peers fileInfos = some checked) :
    checked.Screened ∧ (∀ file ∈ fileInfos, checked.HasAction file.variantId) ∧
      ∀ later, checked.Backed (SkipAnswered peers fileInfos later) := by
  have hmem : ∀ file ∈ fileInfos, ∃ e ∈ metadataBatches fileInfos,
      file.variantId ∈ e.1.map (·.id) := by
    intro file hfile
    have hpayload : (⟨file.variantId, file.transferFilename, file.size⟩ : PreflightFile) ∈
        (batches preflightBatchSize (metadataPayload fileInfos)).flatten := by
      rw [flatten_batches (by decide)]
      exact List.mem_map_of_mem (f := fun file : PreparedUploadFile =>
        (⟨file.variantId, file.transferFilename, file.size⟩ : PreflightFile)) hfile
    obtain ⟨batch, hbatch, hentry⟩ := List.mem_flatten.mp hpayload
    obtain ⟨index, hindex, heq⟩ := List.getElem_of_mem hbatch
    refine ⟨(batch, index), List.mk_mem_zipIdx_iff_getElem?.mpr ?_, List.mem_map_of_mem hentry⟩
    rw [List.getElem?_eq_getElem hindex, heq]
  refine ⟨?_, fun file hfile => ?_, fun later => ?_⟩
  · refine foldlM_invariant (P := Screened) ?_
      (fun _ _ _ hb hstep => (checkBatch_spec hstep).1 hb) h
    intro id hid
    cases hid
  · obtain ⟨e, he, hid⟩ := hmem file hfile
    refine foldlM_each (Q := fun (e : List PreflightFile × Nat) (r : PreflightResult) =>
      ∀ id ∈ e.1.map PreflightFile.id, r.HasAction id) ?_ ?_ h e he _ hid
    · intro b e c hstep id hid
      exact (checkBatch_spec hstep).2 id (.inl hid)
    · intro b e e' c hq hstep id hid
      exact (checkBatch_spec hstep).2 id (.inr (hq id hid))
  · refine foldlM_invariant_of_mem
      (P := fun r : PreflightResult => r.Backed (SkipAnswered peers fileInfos later))
      backed_empty (fun b e he c hb hstep => ?_) h
    refine hb.checkBatch (fun files hreply found hfound haction => ?_) hstep
    exact .metadata e.1 e.2 files he hreply (mem_of_skip hfound haction)

/-- The verification pass settles its files and keeps what is settled; its skips were answered. -/
theorem verificationPass_spec {before after : PreflightResult}
    (h : verificationPass peers fileInfos before = some after) :
    (∀ entry ∈ verificationPayload fileInfos before, after.Settled entry.id) ∧
      (∀ id, before.Settled id → after.Settled id) ∧
      (before.Backed (SkipAnswered peers fileInfos before) →
        after.Backed (SkipAnswered peers fileInfos before)) := by
  refine ⟨fun entry hentry => ?_, fun id hid => ?_, fun hb => ?_⟩
  · have hflat := hentry
    rw [← flatten_batches (show 0 < preflightBatchSize by decide)
      (verificationPayload fileInfos before)] at hflat
    obtain ⟨batch, hbatch, hmem⟩ := List.mem_flatten.mp hflat
    obtain ⟨index, hindex, heq⟩ := List.getElem_of_mem hbatch
    have hsent : (batch, index) ∈ verificationBatches fileInfos before := by
      refine List.mk_mem_zipIdx_iff_getElem?.mpr ?_
      rw [List.getElem?_eq_getElem hindex, heq]
    refine foldlM_each (Q := fun (e : List PreflightVerifyFile × Nat) (r : PreflightResult) =>
      ∀ id ∈ e.1.map PreflightVerifyFile.id, r.Settled id) ?_ ?_ h (batch, index) hsent _
      (List.mem_map_of_mem hmem)
    · intro b e c hstep id hid
      exact verifyBatch_settles hstep (.inl hid)
    · intro b e e' c hq hstep id hid
      exact verifyBatch_settles hstep (.inr (hq id hid))
  · exact foldlM_invariant (P := fun r => r.Settled id) hid
      (fun _ _ _ hr hstep => verifyBatch_settles hstep (.inr hr)) h
  · refine foldlM_invariant_of_mem (P := fun r => r.Backed (SkipAnswered peers fileInfos before))
      hb (fun b e he c hr hstep => ?_) h
    refine hr.verifyBatch (fun files hreply found hfound haction => ?_) hstep
    exact .verification e.1 e.2 files he hreply (mem_of_skip hfound haction)

/-! ## The window -/

/-- What the native hasher recorded after the metadata pass. -/
def hashedWindow (peers : PreflightPeers) (fileInfos : List PreparedUploadFile)
    (checked : PreflightResult) : PreflightResult :=
  (hashPass peers (hashCandidates fileInfos checked.receiverCandidateIds)).foldl
    PreflightResult.recordHash checked

/-- The receiver candidates without a hash are uploaded. -/
def uploadUnhashed (result : PreflightResult) : PreflightResult :=
  uploadUnverified result
    (result.receiverCandidateIds.filter fun id => (result.computedHashes.lookup id).isNone)

/-- The passes of a window that is checked. -/
theorem window_cases
    (h : runDuplicatePreflightWindow nativeAvailable true peers fileInfos hashes =
      some (result, hashes')) :
    ∃ checked, metadataPass peers fileInfos = some checked ∧
      ((nativeAvailable = false ∧ result = uploadUnverified checked checked.receiverCandidateIds) ∨
        ∃ verified,
          verificationPass peers fileInfos (hashedWindow peers fileInfos checked) = some verified ∧
          resolveEach (uploadUnhashed verified, hashes)
            (hashGroups fileInfos (uploadUnhashed verified)) = (result, hashes')) := by
  unfold runDuplicatePreflightWindow at h
  rw [if_neg (by decide)] at h
  obtain ⟨checked, hchecked, h⟩ := Option.bind_eq_some_iff.mp h
  refine ⟨checked, hchecked, ?_⟩
  split at h
  · rename_i hnative
    cases h
    exact .inl ⟨by simpa using hnative, rfl⟩
  · obtain ⟨verified, hverified, h⟩ := Option.bind_eq_some_iff.mp h
    exact .inr ⟨verified, hverified, Option.some.inj h⟩

/-! ## What the later passes keep -/

/-- Hashing records hashes and failures only. -/
theorem hashedWindow_frame (checked : PreflightResult) :
    (hashedWindow peers fileInfos checked).preflightResults = checked.preflightResults ∧
      (hashedWindow peers fileInfos checked).matchedFilenames = checked.matchedFilenames ∧
      (hashedWindow peers fileInfos checked).receiverCandidateIds =
        checked.receiverCandidateIds := by
  unfold hashedWindow
  refine List.foldlRecOn _ _ (motive := fun r : PreflightResult =>
    r.preflightResults = checked.preflightResults ∧ r.matchedFilenames = checked.matchedFilenames ∧
      r.receiverCandidateIds = checked.receiverCandidateIds) ⟨rfl, rfl, rfl⟩ fun r hr hashed _ => ?_
  cases hashed with
  | success variantId sha256 => exact hr
  | failed variantId errorCode =>
    unfold recordHash
    simp only
    split <;> exact hr

theorem uploadUnverified_candidates (ids : List String) :
    (uploadUnverified result ids).receiverCandidateIds = result.receiverCandidateIds := by
  unfold uploadUnverified
  exact List.foldlRecOn ids _ (motive := fun r : PreflightResult =>
    r.receiverCandidateIds = result.receiverCandidateIds) rfl fun _ hr _ _ => hr

theorem verifyBatch_candidates {reply : ReceiverReply} {batch : List String}
    {after : PreflightResult} (h : result.verifyBatch reply batch = some after) :
    after.receiverCandidateIds = result.receiverCandidateIds := by
  unfold verifyBatch at h
  split at h
  · cases h
  · cases h
    exact uploadUnverified_candidates _
  · rename_i files
    cases h
    refine (uploadUnverified_candidates _).trans ?_
    refine List.foldlRecOn files _ (motive := fun r : PreflightResult =>
      r.receiverCandidateIds = result.receiverCandidateIds) rfl fun r hr reply _ => ?_
    unfold recordVerification
    split
    · exact hr
    · exact hr
    · simp only
      split <;> exact hr

theorem resolveEach_candidates (acc : PreflightResult × OutgoingHashRegistry)
    (groups : List (String × List PreparedUploadFile)) :
    (resolveEach acc groups).1.receiverCandidateIds = acc.1.receiverCandidateIds := by
  have hall : ∀ (r : PreflightResult) source matched files,
      (r.skipAll source matched files).receiverCandidateIds = r.receiverCandidateIds :=
    fun r source matched files => List.foldlRecOn files _ (motive := fun r' : PreflightResult =>
      r'.receiverCandidateIds = r.receiverCandidateIds) rfl fun _ hr _ _ => hr
  unfold resolveEach
  refine List.foldlRecOn groups _ (motive := fun r : PreflightResult × OutgoingHashRegistry =>
    r.1.receiverCandidateIds = acc.1.receiverCandidateIds) rfl fun r hr e _ => ?_
  refine Eq.trans ?_ hr
  unfold resolveGroup
  split
  · rfl
  · simp only
    split
    · exact hall ..
    · split <;> exact hall ..

theorem mem_verificationPayload {file : PreparedUploadFile} {hash : String}
    (hfile : file ∈ fileInfos) (hid : file.variantId ∈ result.receiverCandidateIds)
    (hhash : result.computedHashes.lookup file.variantId = some hash) :
    ∃ entry ∈ verificationPayload fileInfos result, entry.id = file.variantId := by
  have hfound : (fileById fileInfos file.variantId).isSome := by
    unfold fileById
    rw [List.find?_isSome]
    exact ⟨file, List.mem_reverse.mpr hfile, by simp⟩
  obtain ⟨found, hfound⟩ := Option.isSome_iff_exists.mp hfound
  refine ⟨⟨file.variantId, found.transferFilename, found.size, hash⟩, ?_, rfl⟩
  unfold verificationPayload
  refine List.mem_filterMap.mpr ⟨file.variantId, hid, ?_⟩
  rw [hfound, hhash]

/-- What is true before the groups: every file is settled, and the skips were answered. -/
theorem window_beforeGroups {checked verified : PreflightResult}
    (hchecked : metadataPass peers fileInfos = some checked)
    (hverified : verificationPass peers fileInfos (hashedWindow peers fileInfos checked) =
      some verified) :
    (∀ file ∈ fileInfos, (uploadUnhashed verified).Settled file.variantId) ∧
      (uploadUnhashed verified).NoOutgoing ∧
      (uploadUnhashed verified).Backed
        (SkipAnswered peers fileInfos (hashedWindow peers fileInfos checked)) ∧
      (uploadUnhashed verified).receiverCandidateIds = checked.receiverCandidateIds ∧
      (uploadUnhashed verified).computedHashes =
        (hashedWindow peers fileInfos checked).computedHashes := by
  obtain ⟨hscreened, haction, hbacked⟩ := metadataPass_spec hchecked
  obtain ⟨hactions, hmatched, hcandidates⟩ := @hashedWindow_frame peers fileInfos checked
  obtain ⟨hsettles, hkeeps, hbacks⟩ := verificationPass_spec hverified
  have hids : verified.receiverCandidateIds = checked.receiverCandidateIds :=
    foldlM_invariant (P := fun r => r.receiverCandidateIds = checked.receiverCandidateIds)
      hcandidates (fun _ _ _ hr hstep => (verifyBatch_candidates hstep).trans hr) hverified
  have hhashes := congrArg (·.1) (verificationPass_passes hverified).hashing
  have hsame := congrArg (·.1) (@uploadUnverified_passes verified
    (verified.receiverCandidateIds.filter fun id =>
      (verified.computedHashes.lookup id).isNone)).hashing
  simp only [hashing] at hhashes hsame
  have hsources := (recordHash_foldl (hashPass peers (hashCandidates fileInfos
    checked.receiverCandidateIds)) checked).1
  refine ⟨fun file hfile => ?_, ?_, ?_, (uploadUnverified_candidates _).trans hids,
    hsame.trans hhashes⟩
  · refine settled_uploadUnverified ?_
    obtain ⟨action, hlookup⟩ := Option.isSome_iff_exists.mp (haction file hfile)
    cases action with
    | upload => exact .inr (hkeeps _ (.inl (hactions ▸ hlookup)))
    | skip => exact .inr (hkeeps _ (.inr (hactions ▸ hlookup)))
    | hashRequired =>
      have hid := hscreened _ hlookup
      cases hhash : verified.computedHashes.lookup file.variantId with
      | none => exact .inl (List.mem_filter.mpr ⟨hids ▸ hid, by simp [hhash]⟩)
      | some hash =>
        obtain ⟨entry, hentry, heq⟩ := mem_verificationPayload hfile
          (hcandidates ▸ hid) (hhashes ▸ hhash)
        exact .inr (heq ▸ hsettles entry hentry)
  · have hempty : ({} : PreflightResult).NoOutgoing := by
      intro id hid
      cases hid
    have hpasses := (verificationPass_passes hverified).trans
      (uploadUnverified_passes (verified.receiverCandidateIds.filter fun id =>
        (verified.computedHashes.lookup id).isNone))
    refine hpasses.noOutgoing fun id => ?_
    unfold hashedWindow
    rw [hsources]
    exact (metadataPass_passes hchecked).noOutgoing hempty id
  · refine Backed.uploadUnverified (hbacks ?_) _
    have hb := hbacked (hashedWindow peers fileInfos checked)
    exact ⟨fun id hskip => hb.skip id (hactions ▸ hskip),
      fun id filename hmatch => hb.matched id filename (hmatched ▸ hmatch)⟩

/-! ## The decisions -/

/-- Why a file of a window may be skipped. -/
inductive SkipReason (peers : PreflightPeers) (fileInfos : List PreparedUploadFile)
    (hashes : OutgoingHashRegistry) (result : PreflightResult)
    (file : PreparedUploadFile) : Prop where
  | answered (filename : Option String)
      (answer : SkipAnswered peers fileInfos result file.variantId filename)
  /-- A file of the window with its hash was matched by the receiver. -/
  | matched (hash filename : String) (other : PreparedUploadFile)
      (hashed : result.computedHashes.lookup file.variantId = some hash) (mem : other ∈ fileInfos)
      (same : result.computedHashes.lookup other.variantId = some hash)
      (answer : SkipAnswered peers fileInfos result other.variantId (some filename))
  | registered (hash : String) (hashed : result.computedHashes.lookup file.variantId = some hash)
      (earlier : (hashes.lookup hash).isSome)
  /-- Another file of the window with its hash is not skipped so itself. -/
  | stands (hash : String) (other : PreparedUploadFile)
      (hashed : result.computedHashes.lookup file.variantId = some hash)
      (stands : StandsFor fileInfos result hash other) (ne : other.variantId ≠ file.variantId)

theorem SkipAnswered.congr {later : PreflightResult} {id : String} {filename : Option String}
    (h : SkipAnswered peers fileInfos result id filename)
    (hids : later.receiverCandidateIds = result.receiverCandidateIds)
    (hhashes : later.computedHashes = result.computedHashes) :
    SkipAnswered peers fileInfos later id filename := by
  cases h with
  | metadata batch index files sent reply found =>
    exact .metadata batch index files sent reply found
  | verification batch index files sent reply found =>
    refine .verification batch index files ?_ reply found
    unfold verificationBatches verificationPayload at sent ⊢
    rw [hids, hhashes]
    exact sent

/-- A skipped file has a reason. -/
theorem skip_reason (hn : (fileInfos.map (·.variantId)).Nodup)
    (h : runDuplicatePreflightWindow nativeAvailable true peers fileInfos hashes =
      some (result, hashes')) {file : PreparedUploadFile} (hfile : file ∈ fileInfos)
    (hskip : result.preflightResults.lookup file.variantId = some .skip) :
    SkipReason peers fileInfos hashes result file := by
  obtain ⟨checked, hchecked, ⟨-, rfl⟩ | ⟨verified, hverified, hresult⟩⟩ := window_cases h
  · have hb := ((metadataPass_spec hchecked).2.2 (uploadUnverified checked
      checked.receiverCandidateIds)).uploadUnverified checked.receiverCandidateIds
    obtain ⟨filename, ha⟩ := hb.skip _ hskip
    exact .answered filename ha
  · obtain ⟨-, hno, hbacked, hids, hhashes⟩ := window_beforeGroups hchecked hverified
    have hcandidates := resolveEach_candidates (uploadUnhashed verified, hashes)
      (hashGroups fileInfos (uploadUnhashed verified))
    have hsame := congrArg (·.1) (resolveEach_hashing (uploadUnhashed verified, hashes)
      (hashGroups fileInfos (uploadUnhashed verified)))
    rw [hresult] at hcandidates hsame
    simp only [hashing] at hcandidates hsame
    have hanswered : ∀ {id filename}, SkipAnswered peers fileInfos
        (hashedWindow peers fileInfos checked) id filename →
        SkipAnswered peers fileInfos result id filename := by
      intro id filename ha
      exact ha.congr (hcandidates.trans (hids.trans (hashedWindow_frame checked).2.2.symm))
        (hsame.trans hhashes)
    cases hhash : (uploadUnhashed verified).computedHashes.lookup file.variantId with
    | none =>
      have hdecision := congrArg (·.1) (resolveEach_unhashed hresult
        fun other hother (heq : other.variantId = file.variantId) => hhash)
      simp only [decision] at hdecision
      obtain ⟨filename, ha⟩ := hbacked.skip _ (hdecision ▸ hskip)
      exact .answered filename (hanswered ha)
    | some hash =>
      obtain ⟨canonical, duplicates, hgroup, hdecision, -⟩ := resolveEach_hashed hresult hfile hhash
      have hmember : ∀ other ∈ canonical :: duplicates, other ∈ fileInfos ∧
          result.computedHashes.lookup other.variantId = some hash := by
        intro other hother
        rw [hgroup] at hother
        exact ⟨(List.mem_filter.mp hother).1,
          hsame ▸ of_decide_eq_true (List.mem_filter.mp hother).2⟩
      have hself : result.computedHashes.lookup file.variantId = some hash := hsame ▸ hhash
      rcases @resolveGroup_skip (uploadUnhashed verified) hashes hash canonical duplicates with
        ⟨other, hother, hmatch⟩ | hearlier | heq
      · obtain ⟨filename, hmatch⟩ := Option.isSome_iff_exists.mp hmatch
        exact .matched hash filename other hself (hmember other hother).1 (hmember other hother).2
          (hanswered (hbacked.matched _ _ hmatch))
      · exact .registered hash hself hearlier
      · rw [heq] at hdecision
        obtain ⟨hstands, hne⟩ := canonical_standsFor hno hn hgroup hsame hdecision
        have hmem : file ∈ canonical :: duplicates := by
          rw [hgroup]
          exact List.mem_filter.mpr ⟨hfile, decide_eq_true hhash⟩
        rcases List.mem_cons.mp hmem with rfl | hdup
        · have hnot : file.variantId ∉ duplicates.map (·.variantId) := by
            intro hin
            obtain ⟨other, hother, heq'⟩ := List.mem_map.mp hin
            exact hne other hother heq'.symm
          have hkept := hdecision file.variantId hhash
          rw [skipAll_decision, if_neg hnot] at hkept
          have hkept := congrArg (·.1) hkept
          simp only [decision] at hkept
          obtain ⟨filename, ha⟩ := hbacked.skip _ (hkept ▸ hskip)
          exact .answered filename (hanswered ha)
        · exact .stands hash canonical hself hstands (hne file hdup)

/-! ## The result -/

/-- No request of the preflight is answered with an authorization error. -/
def PreflightPeers.Authorized (peers : PreflightPeers) : Prop :=
  (∀ index batch, peers.preflightCheck index batch ≠ .unauthorized) ∧
    ∀ index batch, peers.preflightVerify index batch ≠ .unauthorized

theorem window_returns (hpeers : peers.Authorized) :
    ∃ result hashes', runDuplicatePreflightWindow nativeAvailable true peers fileInfos hashes =
      some (result, hashes') := by
  have hcheck : ∃ checked, metadataPass peers fileInfos = some checked := by
    refine foldlM_isSome (fun result e _ => ?_) ({} : PreflightResult)
    unfold checkBatch
    cases hreply : peers.preflightCheck e.2 e.1 with
    | unauthorized => exact absurd hreply (hpeers.1 e.2 e.1)
    | failed => rfl
    | files files => rfl
  obtain ⟨checked, hchecked⟩ := hcheck
  have hverify : ∃ verified,
      verificationPass peers fileInfos (hashedWindow peers fileInfos checked) = some verified := by
    refine foldlM_isSome (fun result e _ => ?_) _
    unfold verifyBatch
    cases hreply : peers.preflightVerify e.2 e.1 with
    | unauthorized => exact absurd hreply (hpeers.2 e.2 e.1)
    | failed => rfl
    | files files => rfl
  obtain ⟨verified, hverified⟩ := hverify
  unfold hashedWindow at hverified
  unfold runDuplicatePreflightWindow
  cases nativeAvailable with
  | false => simp [hchecked]
  | true =>
    simp only [hchecked, hverified, Bool.not_true, Bool.false_eq_true, if_false,
      Option.bind_eq_bind,
      Option.bind_some]
    exact ⟨_, _, rfl⟩

/-- **The duplicate preflight decides every file, with a reason**: for every window of distinct IDs,
every registry of earlier hashes, all answers of the receiver but an authorization error (missing,
repeated and foreign IDs included) and a hasher that answers a request at most once, the window
returns; every file of it is uploaded or skipped; no file has a hash and a failure code; the counted
skips are the skipped files; and every skip has a `SkipReason`. -/
theorem preflight_classification (hn : (fileInfos.map (·.variantId)).Nodup)
    (hauth : peers.Authorized) (honce : peers.AnswersOnce) :
    ∃ result hashes', runDuplicatePreflightWindow nativeAvailable true peers fileInfos hashes =
        some (result, hashes') ∧
      (∀ file ∈ fileInfos, result.preflightResults.lookup file.variantId = some .upload ∨
        result.preflightResults.lookup file.variantId = some .skip) ∧
      (∀ id hash, result.computedHashes.lookup id = some hash →
        result.hashFailureCodes.lookup id = none) ∧
      ((result.captureOutcomeMetrics fileInfos).receiverSkippedFiles +
          (result.captureOutcomeMetrics fileInfos).outgoingSkippedFiles =
            (result.skippedFiles fileInfos).length ∧
        (result.captureOutcomeMetrics fileInfos).receiverSkippedBytes +
          (result.captureOutcomeMetrics fileInfos).outgoingSkippedBytes =
            ((result.skippedFiles fileInfos).map (·.size)).sum) ∧
      ∀ file ∈ fileInfos, result.preflightResults.lookup file.variantId = some .skip →
        SkipReason peers fileInfos hashes result file := by
  obtain ⟨result, hashes', h⟩ := @window_returns nativeAvailable peers fileInfos hashes hauth
  refine ⟨result, hashes', h, fun file hfile => ?_, fun id hash => not_hashed_and_failed honce h,
    result.captureOutcomeMetrics_spec fileInfos, fun file hfile => skip_reason hn h hfile⟩
  obtain ⟨checked, hchecked, ⟨-, rfl⟩ | ⟨verified, hverified, hresult⟩⟩ := window_cases h
  · obtain ⟨hscreened, haction, -⟩ := metadataPass_spec hchecked
    refine settled_uploadUnverified ?_
    obtain ⟨action, hlookup⟩ := Option.isSome_iff_exists.mp (haction file hfile)
    cases action with
    | upload => exact .inr (.inl hlookup)
    | skip => exact .inr (.inr hlookup)
    | hashRequired => exact .inl (hscreened _ hlookup)
  · have hsettled := (window_beforeGroups hchecked hverified).1 file hfile
    have hafter := @Settled.resolveEach (uploadUnhashed verified, hashes) file.variantId hsettled
      (hashGroups fileInfos (uploadUnhashed verified))
    rw [hresult] at hafter
    exact hafter

/-! ## A window -/

/-- A receiver that has one of the files, and a hasher that gives two files the same hash. -/
def samplePreflightPeers : PreflightPeers where
  preflightCheck _ batch := .files (batch.map fun file => ⟨file.id, .hashRequired, none⟩)
  preflightVerify _ batch := .files (batch.filterMap fun file =>
    if file.id = "b" then some ⟨file.id, .skip, some "kept.jpg"⟩ else none)
  hashPreparedFiles _ _ requests := some (((requests.map (·.variantId)).dedup).map fun id =>
    if id = "d" then .failed id .fileChanged
    else .success id (if id = "c" then "01" else "00"))

/-- Four files of one size: `a` and `b` are equal, `d` cannot be hashed. -/
def sampleWindow : List PreparedUploadFile :=
  ["a", "b", "c", "d"].map fun id =>
    { asset := ⟨id, id⟩, variantId := id, fileRef := 1, windowIndex := 0,
      nativeUri := id, size := 3,
      transferFilename := id }

theorem samplePreflightPeers_authorized : samplePreflightPeers.Authorized := by
  refine ⟨fun index batch hreply => ?_, fun index batch hreply => ?_⟩
  · cases hreply
  · cases hreply

theorem samplePreflightPeers_answersOnce : samplePreflightPeers.AnswersOnce := by
  intro index again requests results hresults
  cases hresults
  have hids : ∀ ids : List String, (ids.map fun id =>
      if id = "d" then NativeHashResult.failed id .fileChanged
      else .success id (if id = "c" then "01" else "00")).map (·.variantId) = ids := by
    intro ids
    rw [List.map_map]
    refine (List.map_congr_left fun id _ => ?_).trans (List.map_id ids)
    simp only [Function.comp]
    split <;> rfl
  refine ⟨?_, fun hashed hmem => ?_⟩
  · rw [hids]
    exact List.nodup_dedup _
  · have hin := List.mem_map_of_mem (f := NativeHashResult.variantId) hmem
    rw [hids] at hin
    exact List.mem_dedup.mp hin

theorem preflight_classification_sample :
    ∃ result hashes', runDuplicatePreflightWindow true true samplePreflightPeers sampleWindow ∅ =
        some (result, hashes') ∧
      sampleWindow.map (fun file => result.action file.variantId) =
        [.skip, .skip, .upload, .upload] ∧
      ∀ file ∈ sampleWindow, result.preflightResults.lookup file.variantId = some .skip →
        SkipReason samplePreflightPeers sampleWindow ∅ result file := by
  obtain ⟨result, hashes', h, -, -, -, hreason⟩ :=
    @preflight_classification true samplePreflightPeers
    sampleWindow ∅ (by decide) samplePreflightPeers_authorized samplePreflightPeers_answersOnce
  refine ⟨result, hashes', h, ?_, hreason⟩
  have hactions : (runDuplicatePreflightWindow true true samplePreflightPeers sampleWindow ∅).map
      (fun out => sampleWindow.map fun file => out.1.action file.variantId) =
        some [.skip, .skip, .upload, .upload] := by
    decide
  rw [h] at hactions
  exact Option.some.inj hactions

end Window

end LocalMediaTransfer
