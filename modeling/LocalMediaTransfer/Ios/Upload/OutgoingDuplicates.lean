import LocalMediaTransfer.Ios.Upload.DuplicatePreflight

/-!
# What the duplicate preflight decides

Facts about `runDuplicatePreflightWindow` for every window of files with distinct IDs, every
registry of earlier hashes and every answer of the receiver.

* `resolveGroups_group` — the groups of different hashes do not interfere.
* `outgoing_spec` — **what a file is skipped for** as an outgoing duplicate.
* `registered_spec` — what a registered hash without a receiver match stands for.
* `not_hashed_and_failed` — no file has both a hash and a failure code, if the native hasher answers
  a request at most once.
* `computedHashes_honest` — the hashes are those of the native hasher.
-/

set_option autoImplicit false

namespace LocalMediaTransfer

open Lib

namespace PreflightResult

/-! ## The decision about one file -/

variable (result : PreflightResult)

/-- What the preflight decided about an ID: action, matched filename, source. -/
def decision (id : String) : Option PreflightAction × Option String × Option DuplicateSource :=
  (result.preflightResults.lookup id, result.matchedFilenames.lookup id,
    result.duplicateSources.lookup id)

/-- What was hashed. -/
def hashing : Table String String × Table String TransferErrorCode :=
  (result.computedHashes, result.hashFailureCodes)

theorem skipFor_decision (source : DuplicateSource) (matched id id' : String) :
    (result.skipFor source matched id).decision id' =
      if id' = id then (some .skip, some matched, some source) else result.decision id' := by
  unfold decision skipFor setAction
  split
  · rename_i h
    subst h
    simp only [AList.lookup_insert]
  · rename_i h
    simp only [AList.lookup_insert_ne h]

theorem skipAll_decision (source : DuplicateSource) (matched : String)
    (group : List PreparedUploadFile) (id : String) :
    (result.skipAll source matched group).decision id =
      if id ∈ group.map (·.variantId) then (some .skip, some matched, some source)
      else result.decision id := by
  induction group generalizing result with
  | nil => rfl
  | cons file group ih =>
    have hstep := ih (result.skipFor source matched file.variantId)
    unfold skipAll at hstep ⊢
    rw [List.foldl_cons, hstep, skipFor_decision, List.map_cons]
    by_cases hid : id = file.variantId
    · simp [hid]
    · simp [hid]

theorem skipAll_hashing (source : DuplicateSource) (matched : String)
    (group : List PreparedUploadFile) :
    (result.skipAll source matched group).hashing = result.hashing := by
  unfold skipAll
  exact List.foldlRecOn group _ (motive := fun r : PreflightResult => r.hashing =
    result.hashing) rfl
    fun _ h _ _ => h

/-! ## One group -/

variable (outgoingHashes : OutgoingHashRegistry) (hash : String) (group : List PreparedUploadFile)

theorem resolveGroup_hashing :
    (result.resolveGroup outgoingHashes hash group).1.hashing = result.hashing := by
  unfold resolveGroup
  split
  · rfl
  · simp only
    split
    · exact skipAll_hashing ..
    · split <;> exact skipAll_hashing ..

theorem resolveGroup_decision_of_notMem {id : String} (h : id ∉ group.map (·.variantId)) :
    (result.resolveGroup outgoingHashes hash group).1.decision id = result.decision id := by
  unfold resolveGroup
  split
  · rfl
  · rename_i canonical duplicates
    simp only
    split
    · rw [skipAll_decision, if_neg h]
    · split
      · rw [skipAll_decision, if_neg h]
      · rw [List.map_cons, List.mem_cons, not_or] at h
        rw [skipAll_decision, if_neg h.2]

theorem resolveGroup_lookup_of_ne {other : String} (h : other ≠ hash) :
    (result.resolveGroup outgoingHashes hash group).2.lookup other =
    outgoingHashes.lookup other := by
  unfold resolveGroup
  split
  · rfl
  · simp only
    split
    · exact AList.lookup_insert_ne h
    · split
      · rfl
      · exact AList.lookup_insert_ne h

/-- What a group can be resolved to. -/
theorem resolveGroup_cases (canonical : PreparedUploadFile) (duplicates : List PreparedUploadFile) :
    (∃ matched entry, entry.receiverMatch = some matched ∧
      result.resolveGroup outgoingHashes hash (canonical :: duplicates) =
        (result.skipAll .receiverPreflight matched (canonical :: duplicates),
          outgoingHashes.insert hash entry)) ∨
    (∃ earlier, outgoingHashes.lookup hash = some earlier ∧ earlier.receiverMatch = none ∧
      result.resolveGroup outgoingHashes hash (canonical :: duplicates) =
        (result.skipAll .outgoingSelection earlier.transferFilename (canonical :: duplicates),
          outgoingHashes)) ∨
    (outgoingHashes.lookup hash = none ∧
      result.resolveGroup outgoingHashes hash (canonical :: duplicates) =
        (result.skipAll .outgoingSelection canonical.transferFilename duplicates,
          outgoingHashes.insert hash { transferFilename := canonical.transferFilename })) := by
  unfold resolveGroup
  simp only
  split
  · exact .inl ⟨_, _, rfl, rfl⟩
  · rename_i hmatch
    split
    · rename_i earlier hearlier
      rw [hearlier] at hmatch
      exact .inr (.inl ⟨earlier, hearlier, (Option.or_eq_none_iff.mp hmatch).2, rfl⟩)
    · rename_i hnone
      exact .inr (.inr ⟨hnone, rfl⟩)

/-- A group is decided from its own files and its own hash. -/
theorem resolveGroup_congr {result₁ result₂ : PreflightResult}
    {hashes₁ hashes₂ : OutgoingHashRegistry}
    {id : String}
    (hfiles : ∀ file ∈ group, result₁.decision file.variantId = result₂.decision file.variantId)
    (hid : result₁.decision id = result₂.decision id)
    (hhash : hashes₁.lookup hash = hashes₂.lookup hash) :
    (result₁.resolveGroup hashes₁ hash group).1.decision id =
        (result₂.resolveGroup hashes₂ hash group).1.decision id ∧
      (result₁.resolveGroup hashes₁ hash group).2.lookup hash =
        (result₂.resolveGroup hashes₂ hash group).2.lookup hash := by
  have hmatch : (group.findSome? fun file => result₁.matchedFilenames.lookup file.variantId) =
      group.findSome? fun file => result₂.matchedFilenames.lookup file.variantId := by
    clear hid hhash
    induction group with
    | nil => rfl
    | cons file group ih =>
      have hfile := congrArg (·.2.1) (hfiles file (List.mem_cons_self ..))
      simp only [decision] at hfile
      rw [List.findSome?_cons, List.findSome?_cons, hfile,
        ih fun other hother => hfiles other (List.mem_cons_of_mem _ hother)]
  unfold resolveGroup
  split
  · exact ⟨hid, hhash⟩
  · simp only [hmatch, hhash]
    split
    · simp only [skipAll_decision, AList.lookup_insert, hid, and_self]
    · split
      · simp only [skipAll_decision, hid, hhash, and_self]
      · simp only [skipAll_decision, AList.lookup_insert, hid, and_self]

end PreflightResult

open PreflightResult

/-! ## All groups -/

def resolveEach (acc : PreflightResult × OutgoingHashRegistry)
    (groups : List (String × List PreparedUploadFile)) : PreflightResult × OutgoingHashRegistry :=
  groups.foldl (fun acc e => acc.1.resolveGroup acc.2 e.1 e.2) acc

section Groups

variable (acc : PreflightResult × OutgoingHashRegistry)
  {groups : List (String × List PreparedUploadFile)} (hashOf : String → Option String)

theorem resolveEach_hashing (groups : List (String × List PreparedUploadFile)) :
    (resolveEach acc groups).1.hashing = acc.1.hashing := by
  unfold resolveEach
  exact List.foldlRecOn groups _
    (motive := fun r : PreflightResult × OutgoingHashRegistry => r.1.hashing = acc.1.hashing) rfl
    fun _ h _ _ => (resolveGroup_hashing ..).trans h

/-- Nothing changes for a hash that has no group. -/
theorem resolveEach_of_notMem (hfiles : ∀ e ∈ groups, ∀ file ∈ e.2,
    hashOf file.variantId = some e.1)
    {hash : String} (hhash : hash ∉ groups.map (·.1)) :
    (∀ id, hashOf id = some hash → (resolveEach acc groups).1.decision id = acc.1.decision id) ∧
      (resolveEach acc groups).2.lookup hash = acc.2.lookup hash := by
  induction groups generalizing acc with
  | nil => exact ⟨fun _ _ => rfl, rfl⟩
  | cons e groups ih =>
    rw [List.map_cons, List.mem_cons, not_or] at hhash
    obtain ⟨hdec, hreg⟩ := ih (acc.1.resolveGroup acc.2 e.1 e.2)
      (fun e' he' => hfiles e' (List.mem_cons_of_mem _ he')) hhash.2
    refine ⟨fun id hid => ?_, ?_⟩
    · rw [← resolveGroup_decision_of_notMem acc.1 acc.2 e.1 e.2]
      · exact hdec id hid
      · intro hmem
        obtain ⟨file, hfile, rfl⟩ := List.mem_map.mp hmem
        have := hfiles e (List.mem_cons_self ..) file hfile
        exact hhash.1 (Option.some.inj (hid.symm.trans this))
    · exact hreg.trans (resolveGroup_lookup_of_ne _ _ _ _ hhash.1)

/-- **The groups of different hashes do not interfere**: each is decided as if it were the only
one. -/
theorem resolveEach_group (hn : (groups.map (·.1)).Nodup)
    (hfiles : ∀ e ∈ groups, ∀ file ∈ e.2, hashOf file.variantId = some e.1)
    {hash : String} {group : List PreparedUploadFile} (hmem : (hash, group) ∈ groups) :
    (∀ id, hashOf id = some hash → (resolveEach acc groups).1.decision id =
        (acc.1.resolveGroup acc.2 hash group).1.decision id) ∧
      (resolveEach acc groups).2.lookup hash =
        (acc.1.resolveGroup acc.2 hash group).2.lookup hash := by
  induction groups generalizing acc with
  | nil => cases hmem
  | cons e groups ih =>
    rw [List.map_cons, List.nodup_cons] at hn
    have htail : ∀ e' ∈ groups, ∀ file ∈ e'.2, hashOf file.variantId = some e'.1 :=
      fun e' he' => hfiles e' (List.mem_cons_of_mem _ he')
    rcases List.mem_cons.mp hmem with rfl | hmem
    · exact resolveEach_of_notMem (acc.1.resolveGroup acc.2 hash group) hashOf htail hn.1
    · have hne : hash ≠ e.1 := by
        intro heq
        exact hn.1 (heq ▸ List.mem_map_of_mem (f := (·.1)) hmem)
      have hother : ∀ id, hashOf id = some hash →
          (acc.1.resolveGroup acc.2 e.1 e.2).1.decision id = acc.1.decision id := by
        intro id hid
        apply resolveGroup_decision_of_notMem
        intro hid'
        obtain ⟨file, hfile, rfl⟩ := List.mem_map.mp hid'
        have := hfiles e (List.mem_cons_self ..) file hfile
        exact hne (Option.some.inj (hid.symm.trans this))
      have hlookup := resolveGroup_lookup_of_ne acc.1 acc.2 e.1 e.2 hne
      obtain ⟨hdec, hreg⟩ := ih (acc.1.resolveGroup acc.2 e.1 e.2) hn.2 htail hmem
      have hcongr := fun id hid => resolveGroup_congr hash group
        (fun file hfile => hother file.variantId (htail _ hmem file hfile)) (hother id hid) hlookup
      refine ⟨fun id hid => (hdec id hid).trans (hcongr id hid).1, hreg.trans ?_⟩
      cases group with
      | nil => exact hlookup
      | cons canonical duplicates =>
        exact (hcongr canonical.variantId (htail _ hmem canonical (List.mem_cons_self ..))).2

end Groups

/-! ## The passes before the groups -/

namespace PreflightResult

/-- No file is skipped as an outgoing duplicate. -/
def NoOutgoing (result : PreflightResult) : Prop :=
  ∀ id, result.duplicateSources.lookup id ≠ some .outgoingSelection

variable {result : PreflightResult}

theorem NoOutgoing.insert (h : result.NoOutgoing) {id : String}
    {sources : Table String DuplicateSource}
    (hsources : sources = result.duplicateSources.insert id .receiverPreflight) (id' : String) :
    sources.lookup id' ≠ some .outgoingSelection := by
  subst hsources
  by_cases hid : id' = id
  · subst hid
    rw [AList.lookup_insert]
    exact fun h => nomatch h
  · rw [AList.lookup_insert_ne hid]
    exact h id'

/-- The passes before the groups record no outgoing duplicate; the receiver's passes hash
nothing. -/
structure Passes (before after : PreflightResult) : Prop where
  noOutgoing : before.NoOutgoing → after.NoOutgoing
  hashing : after.hashing = before.hashing

theorem Passes.refl (result : PreflightResult) : result.Passes result := ⟨id, rfl⟩

theorem Passes.trans {r₁ r₂ r₃ : PreflightResult} (h₁ : r₁.Passes r₂) (h₂ : r₂.Passes r₃) :
    r₁.Passes r₃ :=
  ⟨h₂.noOutgoing ∘ h₁.noOutgoing, h₂.hashing.trans h₁.hashing⟩

theorem Passes.foldl {α : Type} {f : PreflightResult → α → PreflightResult}
    (h : ∀ r a, Passes r (f r a)) (l : List α) (r : PreflightResult) : Passes r (l.foldl f r) :=
  List.foldlRecOn l f (motive := fun r' : PreflightResult => Passes r r') (.refl r)
    fun _ hr _ _ => hr.trans (h ..)

theorem setAction_passes (id : String) (action : PreflightAction) :
    result.Passes (result.setAction id action) := ⟨fun h => h, rfl⟩

theorem recordMetadata_passes (reply : PreflightFileResult) :
    result.Passes (result.recordMetadata reply) := by
  unfold recordMetadata
  split
  · exact ⟨id, rfl⟩
  · exact setAction_passes ..
  · split
    · exact setAction_passes ..
    · exact ⟨fun h => h.insert rfl, rfl⟩

theorem recordVerification_passes (reply : PreflightFileResult) :
    result.Passes (result.recordVerification reply) := by
  unfold recordVerification
  split
  · exact setAction_passes ..
  · exact setAction_passes ..
  · simp only
    split <;> exact ⟨fun h => h.insert rfl, rfl⟩

theorem uploadMissing_passes (returned batch : List String) :
    result.Passes (result.uploadMissing returned batch) :=
  Passes.foldl (fun _ _ => setAction_passes ..) ..

theorem checkBatch_passes {reply : ReceiverReply} {batch : List String} {after : PreflightResult}
    (h : result.checkBatch reply batch = some after) : result.Passes after := by
  unfold checkBatch at h
  split at h
  · cases h
  · cases h
    exact uploadMissing_passes ..
  · cases h
    exact (Passes.foldl (fun _ _ => recordMetadata_passes ..) ..).trans (uploadMissing_passes ..)

theorem verifyBatch_passes {reply : ReceiverReply} {batch : List String} {after : PreflightResult}
    (h : result.verifyBatch reply batch = some after) : result.Passes after := by
  unfold verifyBatch at h
  split at h
  · cases h
  · cases h
    exact uploadMissing_passes ..
  · cases h
    exact (Passes.foldl (fun _ _ => recordVerification_passes ..) ..).trans
      (uploadMissing_passes ..)

end PreflightResult

section Passes

variable {peers : PreflightPeers} {fileInfos : List PreparedUploadFile}
    {result after : PreflightResult}

theorem metadataPass_passes (h : metadataPass peers fileInfos = some after) :
    PreflightResult.Passes {} after :=
  foldlM_invariant (P := fun r => PreflightResult.Passes {} r) (.refl _)
    (fun _ _ _ hb hstep => hb.trans (checkBatch_passes hstep)) h

theorem verificationPass_passes (h : verificationPass peers fileInfos result = some after) :
    result.Passes after :=
  foldlM_invariant (P := fun r => result.Passes r) (.refl _)
    (fun _ _ _ hb hstep => hb.trans (verifyBatch_passes hstep)) h

theorem uploadUnverified_passes (ids : List String) : result.Passes (uploadUnverified result ids) :=
  Passes.foldl (fun _ _ => setAction_passes ..) ..

/-! ## The native hasher -/

/-- The native hasher answers every request at most once, and nothing else. -/
def PreflightPeers.AnswersOnce (peers : PreflightPeers) : Prop :=
  ∀ index again requests results, peers.hashPreparedFiles index again requests = some results →
    (results.map (·.variantId)).Nodup ∧
      ∀ hashed ∈ results, hashed.variantId ∈ requests.map (·.variantId)

/-- The hashes are the SHA-256 of the contents. -/
def PreflightPeers.HashesContents (sha256 : String → String) (peers : PreflightPeers) : Prop :=
  ∀ index again requests results, peers.hashPreparedFiles index again requests = some results →
    ∀ id hash, .success id hash ∈ results → hash = sha256 id

theorem hashBatch_ids (hpeers : peers.AnswersOnce) {index : Nat} {batch : List PreparedUploadFile}
    (hn : (batch.map (·.variantId)).Nodup) :
    ((hashBatch peers index batch).map (·.variantId)).Nodup ∧
      ∀ hashed ∈ hashBatch peers index batch, hashed.variantId ∈ batch.map (·.variantId) := by
  have hunavailable : ((batch.map fun file =>
      NativeHashResult.failed file.variantId .nativeHashingUnavailable).map (·.variantId)) =
        batch.map (·.variantId) := by
    rw [List.map_map]
    rfl
  have hrequests : (batch.map hashRequest).map (·.variantId) = batch.map (·.variantId) := by
    rw [List.map_map]
    rfl
  have hfailed : ∀ hashed ∈ batch.map fun file =>
      NativeHashResult.failed file.variantId .nativeHashingUnavailable,
        hashed.variantId ∈ batch.map (·.variantId) := by
    intro hashed hmem
    rw [← hunavailable]
    exact List.mem_map_of_mem hmem
  unfold hashBatch
  simp only
  split
  · exact ⟨hunavailable ▸ hn, hfailed⟩
  · rename_i results hresults
    obtain ⟨hnodup, hids⟩ := hpeers _ _ _ _ hresults
    rw [hrequests] at hids
    split
    · exact ⟨hnodup, hids⟩
    · split
      · exact ⟨hunavailable ▸ hn, hfailed⟩
      · rename_i retried _
        have hretry : ∀ hashed : NativeHashResult,
            ((retried.reverse.find? fun again => again.variantId = hashed.variantId).getD
              hashed).variantId = hashed.variantId := by
          intro hashed
          cases hfind : retried.reverse.find? fun again => again.variantId = hashed.variantId with
          | none => rfl
          | some again => simpa using List.find?_some hfind
        rw [List.map_map]
        refine ⟨?_, fun hashed hmem => ?_⟩
        · have hcongr := List.map_congr_left (l := results) fun hashed _ => hretry hashed
          exact hcongr.symm ▸ hnodup
        · obtain ⟨hashed, hold, rfl⟩ := List.mem_map.mp hmem
          rw [hretry]
          exact hids hashed hold

theorem hashBatch_honest {sha256 : String → String} (hpeers : peers.HashesContents sha256)
    {index : Nat} {batch : List PreparedUploadFile} {id hash : String}
    (h : .success id hash ∈ hashBatch peers index batch) : hash = sha256 id := by
  have hunavailable : .success id hash ∉ batch.map fun file =>
      NativeHashResult.failed file.variantId .nativeHashingUnavailable := by
    intro hmem
    obtain ⟨file, -, hfile⟩ := List.mem_map.mp hmem
    cases hfile
  unfold hashBatch at h
  simp only at h
  split at h
  · exact absurd h hunavailable
  · rename_i results hresults
    split at h
    · exact hpeers _ _ _ _ hresults _ _ h
    · split at h
      · exact absurd h hunavailable
      · rename_i retried hretried
        obtain ⟨hashed, hold, heq⟩ := List.mem_map.mp h
        cases hfind : retried.reverse.find? fun again => again.variantId = hashed.variantId with
        | none =>
          rw [hfind, Option.getD_none] at heq
          subst heq
          exact hpeers _ _ _ _ hresults _ _ hold
        | some again =>
          rw [hfind, Option.getD_some] at heq
          subst heq
          exact hpeers _ _ _ _ hretried _ _ (List.mem_reverse.mp (List.mem_of_find?_eq_some hfind))

theorem hashPass_nodup (hpeers : peers.AnswersOnce) {candidates : List PreparedUploadFile}
    (hn : (candidates.map (·.variantId)).Nodup) :
    ((hashPass peers candidates).map (·.variantId)).Nodup := by
  have hids : (((batches preflightBatchSize candidates).map
      (List.map (·.variantId))).flatten).Nodup := by
    rw [← List.map_flatten, flatten_batches (by decide)]
    exact hn
  obtain ⟨heach, hdisjoint⟩ := List.nodup_flatten.mp hids
  rw [List.pairwise_map] at hdisjoint
  rw [← List.zipIdx_map_fst 0 (batches preflightBatchSize candidates), List.pairwise_map]
    at hdisjoint
  have hbatch : ∀ e ∈ (batches preflightBatchSize candidates).zipIdx,
      (e.1.map (·.variantId)).Nodup := by
    intro e he
    exact heach _ (List.mem_map_of_mem (List.fst_mem_of_mem_zipIdx he))
  unfold hashPass
  rw [List.map_flatMap, List.nodup_flatMap]
  refine ⟨fun e he => (hashBatch_ids hpeers (hbatch e he)).1, ?_⟩
  refine hdisjoint.imp_of_mem fun {e e'} he he' hdis => ?_
  intro id hid hid'
  obtain ⟨hashed, hmem, rfl⟩ := List.mem_map.mp hid
  obtain ⟨hashed', hmem', heq⟩ := List.mem_map.mp hid'
  exact hdis ((hashBatch_ids hpeers (hbatch e he)).2 hashed hmem)
    (heq ▸ (hashBatch_ids hpeers (hbatch e' he')).2 hashed' hmem')

/-! ## Before the groups -/

theorem recordHash_spec (first : NativeHashResult) (result : PreflightResult) :
    (result.recordHash first).duplicateSources = result.duplicateSources ∧
    (∀ id hash, (result.recordHash first).computedHashes.lookup id = some hash →
      result.computedHashes.lookup id = some hash ∨ first = .success id hash) ∧
    ∀ id code, (result.recordHash first).hashFailureCodes.lookup id = some code →
      result.hashFailureCodes.lookup id = some code ∨ first = .failed id code := by
  cases first with
  | success variantId sha256 =>
    refine ⟨rfl, fun id hash h => ?_, fun _ _ => .inl⟩
    simp only [PreflightResult.recordHash] at h
    by_cases hid : id = variantId
    · subst hid
      rw [AList.lookup_insert] at h
      cases h
      exact .inr rfl
    · rw [AList.lookup_insert_ne hid] at h
      exact .inl h
  | failed variantId errorCode =>
    simp only [PreflightResult.recordHash]
    split
    · exact ⟨rfl, fun _ _ => .inl, fun _ _ => .inl⟩
    · refine ⟨rfl, fun _ _ => .inl, fun id code h => ?_⟩
      by_cases hid : id = variantId
      · subst hid
        rw [AList.lookup_insert] at h
        cases h
        exact .inr rfl
      · rw [AList.lookup_insert_ne hid] at h
        exact .inl h

theorem recordHash_foldl (hashed : List NativeHashResult) (result : PreflightResult) :
    (hashed.foldl PreflightResult.recordHash result).duplicateSources = result.duplicateSources ∧
    (∀ id hash, (hashed.foldl PreflightResult.recordHash result).computedHashes.lookup id =
      some hash →
      result.computedHashes.lookup id = some hash ∨ .success id hash ∈ hashed) ∧
    ∀ id code, (hashed.foldl PreflightResult.recordHash result).hashFailureCodes.lookup id =
      some code →
      result.hashFailureCodes.lookup id = some code ∨ .failed id code ∈ hashed := by
  induction hashed generalizing result with
  | nil => exact ⟨rfl, fun _ _ => .inl, fun _ _ => .inl⟩
  | cons first hashed ih =>
    obtain ⟨hsources, hhashes, hcodes⟩ := ih (result.recordHash first)
    obtain ⟨hsources₁, hhashes₁, hcodes₁⟩ := recordHash_spec first result
    refine ⟨hsources.trans hsources₁, fun id hash h => ?_, fun id code h => ?_⟩
    · rcases hhashes id hash h with h | h
      · refine (hhashes₁ id hash h).imp_right fun (heq : first = _) => ?_
        exact heq ▸ List.mem_cons_self ..
      · exact .inr (List.mem_cons_of_mem _ h)
    · rcases hcodes id code h with h | h
      · refine (hcodes₁ id code h).imp_right fun (heq : first = _) => ?_
        exact heq ▸ List.mem_cons_self ..
      · exact .inr (List.mem_cons_of_mem _ h)

/-- The result before the groups: what the hasher recorded, and no outgoing duplicate. -/
structure BeforeGroups (peers : PreflightPeers) (fileInfos : List PreparedUploadFile)
    (candidateIds : List String) (result : PreflightResult) : Prop where
  noOutgoing : result.NoOutgoing
  hashed : ∀ id hash, result.computedHashes.lookup id = some hash →
    .success id hash ∈ hashPass peers (hashCandidates fileInfos candidateIds)
  failed : ∀ id code, result.hashFailureCodes.lookup id = some code →
    .failed id code ∈ hashPass peers (hashCandidates fileInfos candidateIds)

theorem BeforeGroups.passes {candidateIds : List String}
    (h : BeforeGroups peers fileInfos candidateIds result) (hp : result.Passes after) :
    BeforeGroups peers fileInfos candidateIds after := by
  have hhashes := congrArg (·.1) hp.hashing
  have hcodes := congrArg (·.2) hp.hashing
  simp only [PreflightResult.hashing] at hhashes hcodes
  exact ⟨hp.noOutgoing h.noOutgoing, hhashes ▸ h.hashed, hcodes ▸ h.failed⟩

variable {nativeAvailable shouldSkipDuplicates : Bool} {hashes hashes' : OutgoingHashRegistry}

/-- A window ends without hashing, or with the groups of what was hashed. -/
theorem runDuplicatePreflightWindow_cases
    (h : runDuplicatePreflightWindow nativeAvailable shouldSkipDuplicates peers fileInfos hashes =
      some (result, hashes')) :
    (result.NoOutgoing ∧ result.hashing = (∅, ∅) ∧ hashes' = hashes) ∨
      ∃ before candidateIds, BeforeGroups peers fileInfos candidateIds before ∧
        resolveEach (before, hashes) (hashGroups fileInfos before) = (result, hashes') := by
  have hempty : ({} : PreflightResult).NoOutgoing := fun id h => by cases h
  unfold runDuplicatePreflightWindow at h
  split at h
  · cases h
    have hp := @uploadUnverified_passes {} (fileInfos.map (·.variantId))
    exact .inl ⟨hp.noOutgoing hempty, hp.hashing, rfl⟩
  · obtain ⟨checked, hchecked, h⟩ := Option.bind_eq_some_iff.mp h
    have hmeta := metadataPass_passes hchecked
    split at h
    · cases h
      have hp := hmeta.trans (uploadUnverified_passes checked.receiverCandidateIds)
      exact .inl ⟨hp.noOutgoing hempty, hp.hashing, rfl⟩
    · obtain ⟨verified, hverified, h⟩ := Option.bind_eq_some_iff.mp h
      have hhashes := congrArg (·.1) hmeta.hashing
      have hcodes := congrArg (·.2) hmeta.hashing
      simp only [PreflightResult.hashing] at hhashes hcodes
      obtain ⟨hsources, hhash, hcode⟩ := recordHash_foldl
        (hashPass peers (hashCandidates fileInfos checked.receiverCandidateIds)) checked
      have hbefore : BeforeGroups peers fileInfos checked.receiverCandidateIds
          ((hashPass peers (hashCandidates fileInfos checked.receiverCandidateIds)).foldl
            PreflightResult.recordHash checked) := by
        refine ⟨fun id => hsources ▸ hmeta.noOutgoing hempty id, fun id hash hlookup => ?_,
          fun id code hlookup => ?_⟩
        · refine (hhash id hash hlookup).resolve_left fun h => ?_
          rw [hhashes] at h
          cases h
        · refine (hcode id code hlookup).resolve_left fun h => ?_
          rw [hcodes] at h
          cases h
      refine .inr ⟨_, checked.receiverCandidateIds, ?_, Option.some.inj h⟩
      exact (hbefore.passes (verificationPass_passes hverified)).passes (uploadUnverified_passes _)

theorem hashCandidates_nodup (candidateIds : List String) :
    ((hashCandidates fileInfos candidateIds).map (·.variantId)).Nodup := by
  unfold hashCandidates
  rw [List.map_filterMap]
  refine List.Nodup.filterMap ?_ (nodup_foldl_setAdd (nodup_foldl_setAdd List.nodup_nil _) _)
  have hself : ∀ id found, found ∈ (fileById fileInfos id).map (·.variantId) → found = id := by
    intro id found hfound
    obtain ⟨file, hfile, rfl⟩ := Option.mem_map.mp hfound
    simpa using List.find?_some hfile
  intro id id' found hfound hfound'
  rw [← hself id found hfound, ← hself id' found hfound']

/-! ## The decisions of a window -/

/-- The hashes are those of the contents. -/
theorem computedHashes_honest {sha256 : String → String} (hpeers : peers.HashesContents sha256)
    (h : runDuplicatePreflightWindow nativeAvailable shouldSkipDuplicates peers fileInfos hashes =
      some (result, hashes')) {id hash : String}
    (hhash : result.computedHashes.lookup id = some hash) : hash = sha256 id := by
  rcases runDuplicatePreflightWindow_cases h with ⟨-, hhashing, -⟩ | ⟨before, ids, hbefore, hresult⟩
  · have hnone := congrArg (·.1) hhashing
    simp only [PreflightResult.hashing] at hnone
    rw [hnone] at hhash
    cases hhash
  · have hsame := congrArg (·.1)
      (resolveEach_hashing (before, hashes) (hashGroups fileInfos before))
    rw [hresult] at hsame
    simp only [PreflightResult.hashing] at hsame
    rw [hsame] at hhash
    obtain ⟨e, -, he⟩ := List.mem_flatMap.mp (hbefore.hashed id hash hhash)
    exact hashBatch_honest hpeers he

/-- **No file has both a hash and a failure code.** -/
theorem not_hashed_and_failed (hpeers : peers.AnswersOnce)
    (h : runDuplicatePreflightWindow nativeAvailable shouldSkipDuplicates peers fileInfos hashes =
      some (result, hashes')) {id hash : String}
    (hhash : result.computedHashes.lookup id = some hash) :
    result.hashFailureCodes.lookup id = none := by
  rcases runDuplicatePreflightWindow_cases h with ⟨-, hhashing, -⟩ | ⟨before, ids, hbefore, hresult⟩
  · exact congrArg (·.2.lookup id) hhashing
  · have hsame := resolveEach_hashing (before, hashes) (hashGroups fileInfos before)
    rw [hresult] at hsame
    have hhashes := congrArg (·.1) hsame
    have hcodes := congrArg (·.2) hsame
    simp only [PreflightResult.hashing] at hhashes hcodes
    rw [hhashes] at hhash
    rw [hcodes]
    by_contra hcode
    obtain ⟨code, hcode⟩ := Option.ne_none_iff_exists'.mp hcode
    have heq := List.inj_on_of_nodup_map (hashPass_nodup hpeers (hashCandidates_nodup ids))
      (hbefore.hashed id hash hhash) (hbefore.failed id code hcode) rfl
    cases heq

theorem hashGroups_hash (before : PreflightResult) :
    ∀ e ∈ hashGroups fileInfos before, ∀ file ∈ e.2,
      before.computedHashes.lookup file.variantId = some e.1 := by
  intro e he file hfile
  rw [(mem_groupBy.mp he).1] at hfile
  exact of_decide_eq_true (List.mem_filter.mp hfile).2

/-- What the groups do to a file with a hash, and to that hash. -/
theorem resolveEach_hashed {before : PreflightResult}
    (hresult : resolveEach (before, hashes) (hashGroups fileInfos before) = (result, hashes'))
    {file : PreparedUploadFile} {hash : String} (hfile : file ∈ fileInfos)
    (hhash : before.computedHashes.lookup file.variantId = some hash) :
    ∃ canonical duplicates, canonical :: duplicates =
        fileInfos.filter (fun other => before.computedHashes.lookup other.variantId = some hash) ∧
      (∀ id, before.computedHashes.lookup id = some hash → result.decision id =
        (before.resolveGroup hashes hash (canonical :: duplicates)).1.decision id) ∧
      hashes'.lookup hash =
        (before.resolveGroup hashes hash (canonical :: duplicates)).2.lookup hash := by
  obtain ⟨group, hgroup, hmem⟩ := exists_mem_groupBy
    (fun file : PreparedUploadFile => before.computedHashes.lookup file.variantId) hfile hhash
  have hdecided := resolveEach_group (before, hashes) (fun id => before.computedHashes.lookup id)
    (groupBy_keys_nodup _ fileInfos) (hashGroups_hash before) hgroup
  unfold hashGroups at hresult
  rw [hresult] at hdecided
  cases group with
  | nil => cases hmem
  | cons canonical duplicates =>
    exact ⟨canonical, duplicates, (mem_groupBy.mp hgroup).1, hdecided.1, hdecided.2⟩

/-- A file that was not hashed stays as it was. -/
theorem resolveEach_unhashed {before : PreflightResult}
    (hresult : resolveEach (before, hashes) (hashGroups fileInfos before) = (result, hashes'))
    {id : String} (hhash : ∀ file ∈ fileInfos, file.variantId = id →
      before.computedHashes.lookup id = none) :
    result.decision id = before.decision id := by
  have hstep : ∀ groups : List (String × List PreparedUploadFile),
      (∀ e ∈ groups, ∀ file ∈ e.2, file.variantId ≠ id) →
        (resolveEach (before, hashes) groups).1.decision id = before.decision id := by
    intro groups hgroups
    unfold resolveEach
    refine List.foldlRecOn groups _
      (motive := fun r : PreflightResult × OutgoingHashRegistry => r.1.decision id =
        before.decision id)
      rfl fun acc hacc e he => ?_
    rw [PreflightResult.resolveGroup_decision_of_notMem, hacc]
    intro hmem
    obtain ⟨file, hfile, hid⟩ := List.mem_map.mp hmem
    exact hgroups e he file hfile hid
  rw [← hstep (hashGroups fileInfos before) ?_, hresult]
  intro e he file hfile hid
  rw [(mem_groupBy.mp he).1] at hfile
  have hlookup := hhash file (List.mem_filter.mp hfile).1 hid
  have hkey := (List.mem_filter.mp hfile).2
  rw [hid, hlookup] at hkey
  cases of_decide_eq_true hkey

/-- A file of the window that stands for a hash: it was hashed, and it is not skipped as an outgoing
duplicate. -/
def StandsFor (fileInfos : List PreparedUploadFile) (result : PreflightResult) (hash : String)
    (file : PreparedUploadFile) : Prop :=
  file ∈ fileInfos ∧ result.computedHashes.lookup file.variantId = some hash ∧
    result.duplicateSources.lookup file.variantId ≠ some .outgoingSelection

/-- The first file of a hash that is new, in a window without a receiver match, is not an outgoing
duplicate. -/
theorem canonical_standsFor {before : PreflightResult} {canonical : PreparedUploadFile}
    {duplicates : List PreparedUploadFile} {hash : String} (hbefore : before.NoOutgoing)
    (hn : (fileInfos.map (·.variantId)).Nodup)
    (hgroup : canonical :: duplicates =
      fileInfos.filter fun other => before.computedHashes.lookup other.variantId = some hash)
    (hsame : result.computedHashes = before.computedHashes)
    (hdecision : ∀ id, before.computedHashes.lookup id = some hash → result.decision id =
      (before.skipAll .outgoingSelection canonical.transferFilename duplicates).decision id) :
    StandsFor fileInfos result hash canonical ∧
      ∀ file ∈ duplicates, canonical.variantId ≠ file.variantId := by
  have hmem : canonical ∈ fileInfos.filter fun other =>
      before.computedHashes.lookup other.variantId = some hash :=
    hgroup ▸ List.mem_cons_self ..
  have hnodup : ((canonical :: duplicates).map (·.variantId)).Nodup := by
    rw [hgroup]
    exact hn.sublist (List.filter_sublist.map _)
  rw [List.map_cons, List.nodup_cons] at hnodup
  obtain ⟨hfile, hhash⟩ := List.mem_filter.mp hmem
  refine ⟨⟨hfile, hsame ▸ of_decide_eq_true hhash, ?_⟩, fun file hfile heq => ?_⟩
  · have hcanonical := hdecision canonical.variantId (of_decide_eq_true hhash)
    rw [PreflightResult.skipAll_decision, if_neg hnodup.1] at hcanonical
    have hsource := congrArg (·.2.2) hcanonical
    simp only [PreflightResult.decision] at hsource
    rw [hsource]
    exact hbefore _
  · exact hnodup.1 (heq ▸ List.mem_map_of_mem hfile)

/-- **What a file is skipped for** as an outgoing duplicate: a hash that was registered without a
receiver match, or another file of the window that has its hash and is not skipped so itself. -/
theorem outgoing_spec (hn : (fileInfos.map (·.variantId)).Nodup)
    (h : runDuplicatePreflightWindow nativeAvailable shouldSkipDuplicates peers fileInfos hashes =
      some (result, hashes')) {file : PreparedUploadFile} (hfile : file ∈ fileInfos)
    (hsource : result.duplicateSources.lookup file.variantId = some .outgoingSelection) :
    result.preflightResults.lookup file.variantId = some .skip ∧
    ∃ hash, result.computedHashes.lookup file.variantId = some hash ∧
      ((∃ earlier, hashes.lookup hash = some earlier ∧ earlier.receiverMatch = none) ∨
        ∃ other, StandsFor fileInfos result hash other ∧ other.variantId ≠ file.variantId) := by
  rcases runDuplicatePreflightWindow_cases h with ⟨hno, -, -⟩ | ⟨before, ids, hbefore, hresult⟩
  · exact absurd hsource (hno _)
  · have hsame := congrArg (·.1)
      (resolveEach_hashing (before, hashes) (hashGroups fileInfos before))
    rw [hresult] at hsame
    simp only [PreflightResult.hashing] at hsame
    cases hhash : before.computedHashes.lookup file.variantId with
    | none =>
      have hdecision := congrArg (·.2.2) (resolveEach_unhashed hresult fun _ _ _ => hhash)
      simp only [PreflightResult.decision] at hdecision
      exact absurd (hdecision.symm.trans hsource) (hbefore.noOutgoing _)
    | some hash =>
      obtain ⟨canonical, duplicates, hgroup, hdecision, -⟩ := resolveEach_hashed hresult hfile hhash
      have hdec := hdecision _ hhash
      have hmem : file ∈ canonical :: duplicates := by
        rw [hgroup]
        exact List.mem_filter.mpr ⟨hfile, decide_eq_true hhash⟩
      rcases before.resolveGroup_cases hashes hash canonical duplicates with
        ⟨matched, entry, -, heq⟩ | ⟨earlier, hearlier, hmatch, heq⟩ | ⟨-, heq⟩
      · rw [heq, PreflightResult.skipAll_decision, if_pos (List.mem_map_of_mem hmem)] at hdec
        have hreceiver := congrArg (·.2.2) hdec
        simp only [PreflightResult.decision, hsource] at hreceiver
        cases hreceiver
      · rw [heq, PreflightResult.skipAll_decision, if_pos (List.mem_map_of_mem hmem)] at hdec
        exact ⟨congrArg (·.1) hdec, hash, hsame ▸ hhash, .inl ⟨earlier, hearlier, hmatch⟩⟩
      · rw [heq] at hdec hdecision
        obtain ⟨hstands, hne⟩ := canonical_standsFor hbefore.noOutgoing hn hgroup hsame hdecision
        rcases List.mem_cons.mp hmem with rfl | hdup
        · exact absurd hsource hstands.2.2
        · rw [PreflightResult.skipAll_decision, if_pos (List.mem_map_of_mem hdup)] at hdec
          exact ⟨congrArg (·.1) hdec, hash, hsame ▸ hhash, .inr ⟨canonical, hstands, hne file hdup⟩⟩

/-- **What a registered hash without a receiver match stands for**: it was registered so before, or
a file of the window stands for it. -/
theorem registered_spec (hn : (fileInfos.map (·.variantId)).Nodup)
    (h : runDuplicatePreflightWindow nativeAvailable shouldSkipDuplicates peers fileInfos hashes =
      some (result, hashes')) {hash : String} {entry : OutgoingHash}
    (hentry : hashes'.lookup hash = some entry) (hmatch : entry.receiverMatch = none) :
    hashes.lookup hash = some entry ∨ ∃ file, StandsFor fileInfos result hash file := by
  rcases runDuplicatePreflightWindow_cases h with ⟨-, -, rfl⟩ | ⟨before, ids, hbefore, hresult⟩
  · exact .inl hentry
  · have hsame := congrArg (·.1)
      (resolveEach_hashing (before, hashes) (hashGroups fileInfos before))
    rw [hresult] at hsame
    simp only [PreflightResult.hashing] at hsame
    by_cases hfile : ∃ file ∈ fileInfos, before.computedHashes.lookup file.variantId = some hash
    · obtain ⟨file, hfile, hhash⟩ := hfile
      obtain ⟨canonical, duplicates, hgroup, hdecision, hreg⟩ :=
        resolveEach_hashed hresult hfile hhash
      rcases before.resolveGroup_cases hashes hash canonical duplicates with
        ⟨matched, receiver, hreceiver, heq⟩ | ⟨earlier, hearlier, -, heq⟩ | ⟨-, heq⟩
      · rw [heq, hentry, AList.lookup_insert] at hreg
        cases hreg
        rw [hmatch] at hreceiver
        cases hreceiver
      · rw [heq, hentry] at hreg
        exact .inl hreg.symm
      · rw [heq] at hdecision
        exact .inr ⟨canonical,
          (canonical_standsFor hbefore.noOutgoing hn hgroup hsame hdecision).1⟩
    · left
      have hkey : hash ∉ (hashGroups fileInfos before).map (·.1) := by
        intro hmem
        obtain ⟨⟨_, group⟩, hgroup, rfl⟩ := List.mem_map.mp hmem
        obtain ⟨hfiles, hne⟩ := mem_groupBy.mp hgroup
        obtain ⟨file, hmem⟩ := List.exists_mem_of_ne_nil _ hne
        rw [hfiles] at hmem
        exact hfile ⟨file, (List.mem_filter.mp hmem).1,
          of_decide_eq_true (List.mem_filter.mp hmem).2⟩
      have hlookup := (resolveEach_of_notMem (before, hashes)
        (fun id => before.computedHashes.lookup id)
        (hashGroups_hash before) hkey).2
      rw [hresult] at hlookup
      exact hlookup.symm.trans hentry

end Passes

end LocalMediaTransfer
