import LocalMediaTransfer.Server.Security.NativeSession.Authorization
import LocalMediaTransfer.WindowsClient.TransferManifest

/-!
# The manifest between sender and receiver

The Windows sender checks a selection (`PrepareFiles`, `ValidateSources`), posts the manifest, and
the receiver checks it again (`POST /native/v1/transfers/requests`, `requestTransfer`).

* `Admits` — the credential is trusted, the source is local, and there is a free slot.
* `acceptFiles_isSome_iff` — what the loop over the manifest checks.
* `manifest_accepted_iff` — which manifests of the sender the receiver accepts.
-/

set_option autoImplicit false

namespace LocalMediaTransfer

/-! ## The receiver's side -/

/-- An entry of `files`. -/
def TransferFile.ofJson (value : Json) : Option TransferFile := do
  let fileId ← value.value Json.getString "fileId" []
  let name ← value.value Json.getString "name" []
  let sizeBytes ← value.value Json.getUInt64 "sizeBytes" 0
  return { fileId, name, sizeBytes }

/-- The members that `requestTransfer` reads; `none` when a type is wrong, whichever check comes
first, since the answer is 400 either way. -/
def TransferBody.ofJson (body : Json) : Option TransferBody := do
  let clientSessionId ← body.value Json.getString "clientSessionId" []
  let protocolVersion ← body.value Json.getInt "protocolVersion" 0
  let skipExactDuplicates ← body.value Json.getBool "skipExactDuplicates" true
  let files ← body.value some "files" .null
  let files ←
    match files with
    | .array items => (items.mapM TransferFile.ofJson).map some
    | _ => some none
  return { protocolVersion := protocolVersion.toNat, clientSessionId, skipExactDuplicates, files }

/-- `POST /native/v1/transfers/requests`, for a text and what `json::parse` makes of it. -/
def transferRequestHandler (cfg : NativeConfig) (store : NativeSessionStore) (now : Nat)
    (text : ByteString) (document : Option Json) (credential ip requestId : ByteString) :
    NativeSessionStore × NativeResult :=
  if 512 * 1024 < text.length then
    (store, nativeError 413 "transfer_manifest_too_large" "The transfer manifest is too large.")
  else
    match document.bind TransferBody.ofJson with
    | none =>
        (store, nativeError 400 "invalid_transfer_request" "The transfer request is invalid.")
    | some body => store.requestTransfer cfg now body credential ip requestId

/-- The credential is trusted, the source is local, and the receiver is not at capacity. -/
structure Admits (cfg : NativeConfig) (store : NativeSessionStore) (now : Nat)
    (credential ip : ByteString) (device : TrustedDevice) : Prop where
  isLocal : cfg.isLocalSubnetAddress ip = true
  trusted : store.pairingStore.findDeviceByCredential cfg.crypto credential = some device
  windows : NativeSessionStore.nativeDevice device = true
  slots : (store.pruneLocked now).transfers.entries.countP (fun e =>
    e.2.state == .pending || e.2.state == .approved) < MaxTransferRequests
  idle : ((store.pruneLocked now).transfers.entries.any fun e =>
    e.2.deviceId == device.id && e.2.state == .pending) = false

variable {cfg : NativeConfig} {store : NativeSessionStore} {now : Nat}
variable {credential ip requestId : ByteString} {device : TrustedDevice}

theorem requestTransfer_status_iff {body : TransferBody}
    (h : Admits cfg store now credential ip device) :
    (store.requestTransfer cfg now body credential ip requestId).2.status = 202 ↔
      body.valid = true ∧ (acceptFiles body.clientSessionId (body.files.getD []) [] 0).isSome =
        true := by
  unfold NativeSessionStore.requestTransfer
  simp only [h.isLocal, h.trusted, h.windows, Bool.not_true, Bool.false_eq_true, if_false]
  cases hvalid : body.valid with
  | false => simp [nativeError]
  | true =>
    simp only [Bool.not_true, Bool.false_eq_true, if_false, true_and]
    cases hfiles : acceptFiles body.clientSessionId (body.files.getD []) [] 0 with
    | none => simp [nativeError]
    | some files =>
      have hroom : ¬MaxTransferRequests ≤ (store.pruneLocked now).transfers.entries.countP (fun e =>
          e.2.state == .pending || e.2.state == .approved) := Nat.not_le.mpr h.slots
      simp only [hroom, h.idle, decide_false, Bool.or_self, Bool.false_eq_true, if_false,
        Option.isSome_some]

/-- An entry that the loop accepts wherever it stands, but for repeated IDs. -/
structure FileFits (clientSessionId : ByteString) (file : TransferFile) : Prop where
  safe : isSafeIdentifier file.fileId 128 = true
  bound : (clientSessionId ++ [45]).isPrefixOf file.fileId = true
  named : file.name ≠ []
  size : file.sizeBytes ≠ 0 ∧ file.sizeBytes ≤ MaxFileBytes

/-- **What the loop checks** of entries that fit otherwise. -/
theorem acceptFiles_isSome_iff {clientSessionId : ByteString} {files accepted : List TransferFile}
    {totalBytes : Nat} (hfit : ∀ f ∈ files, FileFits clientSessionId f)
    (htotal : totalBytes + files.length * MaxFileBytes ≤ 2 ^ 64 - 1) :
    (acceptFiles clientSessionId files accepted totalBytes).isSome = true ↔
      (∀ f ∈ files, f.name.length ≤ 200) ∧ (files.map (·.fileId)).Nodup ∧
        ∀ f ∈ files, ∀ e ∈ accepted, e.fileId ≠ f.fileId := by
  induction files generalizing accepted totalBytes with
  | nil => simp [acceptFiles]
  | cons file rest ih =>
    obtain ⟨hfile, hrest⟩ := List.forall_mem_cons.mp hfit
    rw [List.length_cons, Nat.succ_mul] at htotal
    have hsize := hfile.size
    have hvalid : file.valid clientSessionId accepted totalBytes = true ↔
        file.name.length ≤ 200 ∧ ∀ e ∈ accepted, e.fileId ≠ file.fileId := by
      have hnamed : file.name.isEmpty = false := List.isEmpty_eq_false_iff.mpr hfile.named
      have hnonzero : (file.sizeBytes != 0) = true := bne_iff_ne.mpr hsize.1
      have hlow : decide (file.sizeBytes ≤ MaxFileBytes) = true := decide_eq_true hsize.2
      have hsum : decide (totalBytes ≤ 2 ^ 64 - 1 - file.sizeBytes) = true :=
        decide_eq_true (by omega)
      simp only [TransferFile.valid, hfile.safe, hfile.bound, hnamed, hnonzero, hlow, hsum,
        Bool.not_false, Bool.true_and, Bool.and_true, Bool.and_eq_true, decide_eq_true_eq,
        Bool.not_eq_true', List.any_eq_false, beq_iff_eq, ne_eq]
    rw [acceptFiles, List.forall_mem_cons, List.forall_mem_cons, List.map_cons, List.nodup_cons]
    by_cases h : file.valid clientSessionId accepted totalBytes = true
    · rw [if_pos h, ih hrest (by omega)]
      obtain ⟨hname, hnew⟩ := hvalid.mp h
      constructor
      · rintro ⟨hnames, hnodup, hothers⟩
        refine ⟨⟨hname, hnames⟩, ⟨?_, hnodup⟩, hnew, fun f hf e he =>
          hothers f hf e (List.mem_append_left _ he)⟩
        intro hmem
        obtain ⟨f, hf, heq⟩ := List.mem_map.mp hmem
        exact hothers f hf _ (List.mem_append_right _ (List.mem_singleton.mpr rfl)) heq.symm
      · rintro ⟨⟨-, hnames⟩, ⟨hnotin, hnodup⟩, -, hothers⟩
        refine ⟨hnames, hnodup, fun f hf e he => ?_⟩
        rcases List.mem_append.mp he with he | he
        · exact hothers f hf e he
        · obtain rfl := List.mem_singleton.mp he
          intro heq
          exact hnotin (List.mem_map.mpr ⟨f, hf, heq.symm⟩)
    · rw [if_neg h]
      constructor
      · intro hnone
        cases hnone
      · rintro ⟨⟨hname, -⟩, -, hnew, -⟩
        exact absurd (hvalid.mpr ⟨hname, hnew⟩) h

/-! ## The sender's side -/

/-- A source that `PrepareFiles` returned. -/
def Prepared (file : TransferSource) : Prop :=
  ∃ env paths clientSessionId files, prepareFiles env paths clientSessionId =
    .ok files ∧ file ∈ files

/-- The form of a source of one session. -/
structure SourceOf (session : WideString) (file : TransferSource) : Prop where
  session_length : session.length = 36
  session_win : (wide "win-").isPrefixOf session = true
  fileId : ∃ bytes : ByteString, bytes.length = 8 ∧
    file.fileId = session ++ 45 :: hexLower bytes

theorem prepareEach_spec {env : SenderEnv} {session : WideString} {index : Nat}
    {paths : List WideString} {files : List TransferSource}
    (h : prepareEach env session index paths = .ok files) :
    ∀ file ∈ files, ∃ bytes : ByteString, bytes.length = 8 ∧
      file.fileId = session ++ 45 :: hexLower bytes := by
  induction paths generalizing index files with
  | nil =>
    cases h
    nofun
  | cons path rest ih =>
    rw [prepareEach] at h
    split at h
    · cases h
    · split at h
      · cases h
      · cases hrest : prepareEach env session (index + 1) rest with
        | error e =>
          rw [hrest] at h
          cases h
        | ok tail =>
          rw [hrest] at h
          cases h
          refine List.forall_mem_cons.mpr ⟨⟨_, (env.random index).2, ?_⟩, ih hrest⟩
          exact List.append_assoc ..

theorem sourceOf_prepared {file : TransferSource} (h : Prepared file) :
    ∃ session, SourceOf session file := by
  obtain ⟨env, paths, session, files, hprepare, hfile⟩ := h
  unfold prepareFiles at hprepare
  split at hprepare
  · cases hprepare
  · rename_i hsession
    simp only [Bool.or_eq_true, not_or, bne_iff_ne, ne_eq, not_not, Bool.not_eq_true',
      Bool.not_eq_false] at hsession
    dsimp only at hprepare
    split at hprepare
    · cases hprepare
    · exact ⟨session, hsession.1, hsession.2, prepareEach_spec hprepare file hfile⟩

/-- What `ValidateSources` lets through. -/
structure Validated (sources : List TransferSource) : Prop where
  count : sources ≠ [] ∧ sources.length ≤ MaxQueuedFiles
  files : ∀ file ∈ sources, 0 < file.sizeBytes ∧ file.name ≠ [] ∧
    file.sizeBytes ≤ (MaxFileBytes : Int)
  session : (clientSessionIdOf sources).length = 36
  bound : ∀ file ∈ sources, (clientSessionIdOf sources ++ wide "-").isPrefixOf file.fileId = true

theorem validated_of_none {sources : List TransferSource} (h : validateSources sources = none) :
    Validated sources := by
  unfold validateSources at h
  split at h
  · cases h
  · rename_i hcount
    split at h
    · cases h
    · rename_i hfiles
      split at h
      · cases h
      · rename_i hbound
        simp only [Bool.or_eq_true, not_or, beq_iff_eq, decide_eq_true_eq, Nat.not_lt,
          List.length_eq_zero_iff] at hcount
        simp only [Bool.not_eq_true, List.any_eq_false, Bool.or_eq_true, not_or,
          decide_eq_true_eq, beq_iff_eq, List.length_eq_zero_iff, Int.not_le, Int.not_lt] at hfiles
        simp only [Bool.or_eq_true, not_or, bne_iff_ne, ne_eq, not_not, Bool.not_eq_true,
          List.any_eq_false, Bool.not_eq_true', Bool.not_eq_false] at hbound
        exact ⟨hcount, fun f hf => ⟨(hfiles f hf).1.1, (hfiles f hf).1.2, (hfiles f hf).2⟩,
          hbound.1, hbound.2⟩

/-- Every source belongs to the session that the request names. -/
theorem sourceOf_session {sources : List TransferSource} (hprepared : ∀ f ∈ sources, Prepared f)
    (h : Validated sources) : ∀ f ∈ sources, SourceOf (clientSessionIdOf sources) f := by
  intro f hf
  obtain ⟨session, hsource⟩ := sourceOf_prepared (hprepared f hf)
  obtain ⟨bytes, hbytes, hid⟩ := hsource.fileId
  have htake : f.fileId.take 36 = session := by
    rw [hid, ← hsource.session_length, List.take_left]
  have hprefix := List.isPrefixOf_iff_prefix.mp (h.bound f hf)
  have hsession : f.fileId.take 36 = clientSessionIdOf sources := by
    rw [← h.session]
    exact (List.prefix_iff_eq_take.mp ((List.prefix_append _ _).trans hprefix)).symm
  rwa [← hsession, htake]

/-! ## Across the wire -/

/-- An entry as the receiver reads it. -/
def received (file : TransferSource) : TransferFile where
  fileId := wideToUtf8 file.fileId
  name := wideToUtf8 file.name
  sizeBytes := file.sizeBytes.toNat

theorem ofJson_entry {file : TransferSource} (hpos : 0 < file.sizeBytes)
    (hmax : file.sizeBytes ≤ (MaxFileBytes : Int)) :
    TransferFile.ofJson (entryJson file) = some (received file) := by
  have hsize : Json.getUInt64 (.integer file.sizeBytes) = some file.sizeBytes.toNat := by
    have hmod : file.sizeBytes % 2 ^ 64 = file.sizeBytes :=
      Int.emod_eq_of_lt hpos.le (hmax.trans_lt (by decide))
    rw [Json.getUInt64, hmod]
  simp (disch := decide) only [TransferFile.ofJson, entryJson, value_head,
    value_tail, Json.getString,
    hsize, Option.bind_eq_bind, Option.bind_some]
  rfl

theorem ofJson_entries {sources : List TransferSource}
    (h : ∀ f ∈ sources, 0 < f.sizeBytes ∧ f.sizeBytes ≤ (MaxFileBytes : Int)) :
    (sources.map entryJson).mapM TransferFile.ofJson = some (sources.map received) := by
  induction sources with
  | nil => rfl
  | cons file rest ih =>
    obtain ⟨hfile, hrest⟩ := List.forall_mem_cons.mp h
    rw [List.map_cons, List.mapM_cons, ofJson_entry hfile.1 hfile.2, ih hrest]
    rfl

theorem ofJson_request {skip : Bool} {sources : List TransferSource} (h : Validated sources) :
    TransferBody.ofJson (requestJson skip sources) =
      some { protocolVersion := 1
             clientSessionId := wideToUtf8 (clientSessionIdOf sources)
             skipExactDuplicates := skip
             files := some (sources.map received) } := by
  have hentries := ofJson_entries fun f hf => ⟨(h.files f hf).1, (h.files f hf).2.2⟩
  have hversion : Json.getInt (.integer 1) = some 1 := by decide
  simp (disch := decide) only [TransferBody.ofJson, requestJson, value_head, value_tail,
    Json.getString, hversion, Json.getBool, hentries, Option.bind_eq_bind, Option.bind_some,
    Option.map_some]
  rfl

theorem wideToUtf8_append_of_ascii {text : ByteString} {rest : WideString} (h : isAscii text) :
    wideToUtf8 (widen text ++ rest) = text ++ wideToUtf8 rest := by
  induction text with
  | nil => rfl
  | cons b tail ih =>
    have hb := h b (List.mem_cons_self ..)
    have hu : (UInt16.ofNat b.toNat).toNat = b.toNat := by
      rw [UInt16.toNat_ofNat']
      omega
    obtain ⟨hhigh, hlow⟩ := not_surrogate_of_lt (u := UInt16.ofNat b.toNat) (by omega)
    rw [widen, List.map_cons, List.cons_append, wideToUtf8_cons hhigh hlow, hu, encodeUtf8_ascii hb,
      UInt8.ofNat_toNat, List.singleton_append, ← widen, ih fun c hc =>
        h c (List.mem_cons_of_mem _ hc),
      List.cons_append]

/-- The session ID as the receiver reads it. -/
theorem session_text {session : WideString} {file : TransferSource} (h : SourceOf session file) :
    wideToUtf8 session = ascii "win-" ++ wideToUtf8 (session.drop 4) := by
  have hprefix := List.isPrefixOf_iff_prefix.mp h.session_win
  obtain ⟨rest, hrest⟩ := hprefix
  have hdrop : session.drop 4 = rest := by
    rw [← hrest, show (4 : Nat) = (wide "win-").length by decide, List.drop_left]
  rw [hdrop, ← hrest, show wide "win-" = widen (ascii "win-") by decide,
    wideToUtf8_append_of_ascii (isAscii_of_safe (by decide))]

theorem isSafeByte_of_xdigit {b : UInt8} (h : isXDigit b = true) : isSafeByte b = true := by
  have halnum : isAlnum b = true := by
    simp only [isXDigit, isAlnum, isDigit, isUpper, isLower, Bool.or_eq_true, Bool.and_eq_true,
      decide_eq_true_eq, UInt8.le_iff_toNat_le, UInt8.reduceToNat] at h ⊢
    omega
  rw [isSafeByte, halnum, Bool.true_or, Bool.true_or, Bool.true_or]

/-- A session ID of hexadecimal digits is safe text. -/
theorem safe_session {session : WideString} {file : TransferSource} (h : SourceOf session file)
    (hhex : isHex (wideToUtf8 (session.drop 4)) 32 = true) :
    (wideToUtf8 session).length = 36 ∧ (wideToUtf8 session).all isSafeByte = true := by
  rw [isHex, Bool.and_eq_true, beq_iff_eq] at hhex
  have hdigits : (wideToUtf8 (session.drop 4)).all isSafeByte = true :=
    List.all_eq_true.mpr fun b hb => isSafeByte_of_xdigit (List.all_eq_true.mp hhex.2 b hb)
  rw [session_text h, List.length_append, hhex.1, List.all_append, hdigits, Bool.and_true]
  decide

/-- A file ID as the receiver reads it. -/
theorem fileId_text {session : WideString} {file : TransferSource} (h : SourceOf session file) :
    ∃ bytes : ByteString, bytes.length = 8 ∧
      wideToUtf8 file.fileId = wideToUtf8 session ++ 45 :: toHex bytes := by
  obtain ⟨bytes, hbytes, hid⟩ := h.fileId
  refine ⟨bytes, hbytes, ?_⟩
  rw [hid, wideToUtf8_append_ascii (by decide), wideToUtf8_hexLower]
  rfl

/-- With a session ID of hexadecimal digits, everything but the length of the name fits. -/
theorem fileFits_received {session : WideString} {file : TransferSource} (h : SourceOf session file)
    (hhex : isHex (wideToUtf8 (session.drop 4)) 32 = true) (hname : file.name ≠ [])
    (hpos : 0 < file.sizeBytes) (hmax : file.sizeBytes ≤ (MaxFileBytes : Int)) :
    FileFits (wideToUtf8 session) (received file) ∧ isAscii (received file).fileId := by
  obtain ⟨hlength, hsafe⟩ := safe_session h hhex
  obtain ⟨bytes, hbytes, hid⟩ := fileId_text h
  have hall : (received file).fileId.all isSafeByte = true := by
    rw [show (received file).fileId = _ from hid, List.all_append, hsafe, List.all_cons,
      isSafeByte_toHex]
    decide
  have hlen : (received file).fileId.length = 53 := by
    rw [show (received file).fileId = _ from hid, List.length_append, List.length_cons,
      length_toHex, hlength, hbytes]
  refine ⟨⟨?_, ?_, wideToUtf8_ne_nil hname, ?_, ?_⟩, isAscii_of_safe hall⟩
  · have hne : (received file).fileId.isEmpty = false := by
      rw [List.isEmpty_eq_false_iff]
      exact List.ne_nil_of_length_pos (by omega)
    rw [isSafeIdentifier, hne, hlen, hall]
    decide
  · rw [show (received file).fileId = _ from hid, List.isPrefixOf_iff_prefix]
    exact ⟨toHex bytes, List.append_assoc ..⟩
  · show file.sizeBytes.toNat ≠ 0
    omega
  · show file.sizeBytes.toNat ≤ MaxFileBytes
    omega

theorem valid_request_iff {sources : List TransferSource} {skip : Bool} (h : Validated sources)
    (hsource : ∀ f ∈ sources, SourceOf (clientSessionIdOf sources) f) :
    (⟨1, wideToUtf8 (clientSessionIdOf sources), skip,
      some (sources.map received)⟩ : TransferBody).valid = true ↔
        isHex (wideToUtf8 ((clientSessionIdOf sources).drop 4)) 32 = true := by
  obtain ⟨first, hfirst⟩ := List.exists_mem_of_ne_nil _ h.count.1
  have htext := session_text (hsource first hfirst)
  have hdrop : (wideToUtf8 (clientSessionIdOf sources)).drop 4 =
      wideToUtf8 ((clientSessionIdOf sources).drop 4) := by
    rw [htext]
    rfl
  simp only [TransferBody.valid, hdrop, Bool.and_eq_true]
  constructor
  · rintro ⟨⟨-, hhex⟩, -⟩
    exact hhex
  · intro hhex
    obtain ⟨hlength, -⟩ := safe_session (hsource first hfirst) hhex
    refine ⟨⟨⟨⟨rfl, beq_iff_eq.mpr hlength⟩, ?_⟩, hhex⟩, ?_, ?_⟩
    · rw [List.isPrefixOf_iff_prefix, htext]
      exact List.prefix_append _ _
    · rw [Bool.not_eq_true', List.isEmpty_eq_false_iff, ne_eq, List.map_eq_nil_iff]
      exact h.count.1
    · rw [List.length_map, decide_eq_true_eq]
      exact h.count.2

/-- File IDs that the receiver reads as different are different, and the other way round. -/
theorem nodup_received {sources : List TransferSource}
    (h : ∀ f ∈ sources, isAscii (received f).fileId) :
    ((sources.map received).map (·.fileId)).Nodup ↔ (sources.map (·.fileId)).Nodup := by
  have hmap : (sources.map received).map (·.fileId) = (sources.map (·.fileId)).map wideToUtf8 := by
    rw [List.map_map, List.map_map]
    rfl
  rw [hmap]
  constructor
  · exact List.Nodup.of_map _
  · refine List.Nodup.map_on fun a ha b hb hab => ?_
    obtain ⟨f, hf, rfl⟩ := List.mem_map.mp ha
    obtain ⟨g, hg, rfl⟩ := List.mem_map.mp hb
    rw [widen_of_isAscii (h f hf), widen_of_isAscii (h g hg), hab]

/-- **Which manifests of the sender the receiver accepts.** -/
theorem manifest_accepted_iff {sources : List TransferSource} (skip : Bool)
    (hprepared : ∀ f ∈ sources, Prepared f) (hvalid : validateSources sources = none)
    (hadmits : Admits cfg store now credential ip device) :
    (transferRequestHandler cfg store now (requestText skip sources)
      (some (requestJson skip sources))
      credential ip requestId).2.status = 202 ↔
        isHex (wideToUtf8 ((clientSessionIdOf sources).drop 4)) 32 = true ∧
          (sources.map (·.fileId)).Nodup ∧ (∀ f ∈ sources, (wideToUtf8 f.name).length ≤ 200) ∧
          manifestSize skip sources ≤ 512 * 1024 := by
  have hvalidated := validated_of_none hvalid
  have hsource := sourceOf_session hprepared hvalidated
  rw [transferRequestHandler, length_requestText]
  by_cases hsize : 512 * 1024 < manifestSize skip sources
  · rw [if_pos hsize]
    constructor
    · intro h
      cases h
    · rintro ⟨-, -, -, h⟩
      omega
  rw [if_neg hsize, Option.bind_some, ofJson_request hvalidated]
  dsimp only
  rw [requestTransfer_status_iff hadmits, valid_request_iff hvalidated hsource]
  refine and_congr_right fun hhex => ?_
  have hfits : ∀ f ∈ sources, FileFits (wideToUtf8 (clientSessionIdOf sources)) (received f) ∧
      isAscii (received f).fileId := by
    intro f hf
    obtain ⟨hpos, hname, hmax⟩ := hvalidated.files f hf
    exact fileFits_received (hsource f hf) hhex hname hpos hmax
  have htotal : 0 + (sources.map received).length * MaxFileBytes ≤ 2 ^ 64 - 1 := by
    have hcount := hvalidated.count.2
    rw [List.length_map]
    simp only [MaxQueuedFiles, MaxFileBytes] at hcount ⊢
    omega
  rw [Option.getD_some, acceptFiles_isSome_iff (by
    intro f hf
    obtain ⟨source, hs, rfl⟩ := List.mem_map.mp hf
    exact (hfits source hs).1) htotal, nodup_received fun f hf =>
      (hfits f hf).2, List.forall_mem_map]
  constructor
  · rintro ⟨hnames, hnodup, -⟩
    exact ⟨hnodup, hnames, Nat.not_lt.mp hsize⟩
  · rintro ⟨hnodup, hnames, -⟩
    exact ⟨hnames, hnodup, fun f _ => nofun⟩

/-- A folder with one file of five bytes. -/
def oneFile (name : WideString) : SenderEnv where
  upper := id
  fileInfo path := ⟨true, path, name, 5⟩
  random _ := ⟨List.replicate 8 7, rfl⟩

/-- That file, prepared. -/
def oneSource (name : WideString) : TransferSource where
  fileId := wide "win-ffeeddccbbaa99887766554433221100-0707070707070707"
  path := wide "C:\\Photos\\1"
  name := name
  sizeBytes := 5

theorem prepared_one (name : WideString) : ∀ f ∈ [oneSource name], Prepared f := by
  intro f hf
  refine ⟨oneFile name, [wide "C:\\Photos\\1"],
    wide "win-ffeeddccbbaa99887766554433221100", _, ?_, hf⟩
  rfl

theorem admits_paired : Admits pairedReceiver { pairingStore := pairedDevices } 1000
    (ascii "a1a1a1a1a1a1a1a1a1a1a1a1a1a1a1a1a1a1a1a1a1a1a1a1a1a1a1a1a1a1a1a1") (ascii "10.0.0.2")
    { id := ascii "pc-1", name := ascii "PC", lastIp := ascii "10.0.0.2", lastSeenUnix := 0
      credentialHash := ascii "3490f80401886d12f3861ec190f5c16419b26345497a92bc4530e22f5d8b4295"
      clientType := ascii "windows", authorizationMode := ascii "approval_required" } := by
  constructor <;> decide +kernel

theorem manifest_accepted_iff_one :
    (transferRequestHandler pairedReceiver { pairingStore := pairedDevices } 1000
      (requestText true [oneSource (wide "a.jpg")])
      (some (requestJson true [oneSource (wide "a.jpg")]))
      (ascii "a1a1a1a1a1a1a1a1a1a1a1a1a1a1a1a1a1a1a1a1a1a1a1a1a1a1a1a1a1a1a1a1") (ascii "10.0.0.2")
      (ascii "00112233445566778899aabbccddeeff")).2.status = 202 :=
  (manifest_accepted_iff true (prepared_one _) (by decide +kernel) admits_paired).mpr
    ⟨by decide +kernel, by decide +kernel, by decide +kernel, by decide +kernel⟩

/-- A file name of 201 letters passes every check of the sender, and the receiver refuses it. -/
theorem long_name_refused : ∃ (sources : List TransferSource) (device : TrustedDevice),
    (∀ f ∈ sources, Prepared f) ∧ validateSources sources = none ∧
    Admits pairedReceiver { pairingStore := pairedDevices } 1000
      (ascii "a1a1a1a1a1a1a1a1a1a1a1a1a1a1a1a1a1a1a1a1a1a1a1a1a1a1a1a1a1a1a1a1") (ascii "10.0.0.2")
      device ∧
    (transferRequestHandler pairedReceiver { pairingStore := pairedDevices } 1000
      (requestText true sources) (some (requestJson true sources))
      (ascii "a1a1a1a1a1a1a1a1a1a1a1a1a1a1a1a1a1a1a1a1a1a1a1a1a1a1a1a1a1a1a1a1") (ascii "10.0.0.2")
      (ascii "00112233445566778899aabbccddeeff")).2 =
        nativeError 400 "invalid_transfer_manifest" "A transfer file entry is invalid." :=
  ⟨[oneSource (List.replicate 201 97)], _, prepared_one _, by decide +kernel, admits_paired,
    by decide +kernel⟩

end LocalMediaTransfer
