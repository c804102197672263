import LocalMediaTransfer.Gui.ServerOwnershipProtocol

/-!
# The ownership protocol across the two programs

The server (`ServerOwnershipController`) and the GUI (`ServerOwnershipProtocol`) build the texts
under the MAC on their own, in bytes and in UTF-16.

* `proofPayload_eq`, `shutdownPayload_eq`, `sessionRequestPayload_eq`, `sessionProofPayload_eq` —
  the two programs build the same bytes.
* `payload_kind` — a payload is of one kind only.
* `probe_verifies`, `session_verifies` — the exchange of an honest GUI with its server.
* `ownership_protocol` — the protocol as a whole.
-/

set_option autoImplicit false

namespace LocalMediaTransfer

open Lib ServerOwnershipProtocol ServerOwnershipController

/-! ## The payloads -/

variable {crypto : OwnershipCrypto} {c : ServerOwnershipController} {s : OwnershipState}
variable {identity : ServerOwnershipIdentity} {start now : Nat}
variable {clientNonce serverNonce : ByteString} {proof : ServerOwnershipProof}
variable {expectation : PipeSessionExpectation}

theorem wideToUtf8_joinLines (lines : List WideString) :
    wideToUtf8 (joinLines 10 lines) = joinLines 10 (lines.map wideToUtf8) := by
  induction lines with
  | nil => simp [joinLines, wideToUtf8]
  | cons line rest ih =>
    cases rest with
    | nil => simp [joinLines]
    | cons next rest =>
      simp only [joinLines, List.map_cons, List.intercalate_cons_cons] at ih ⊢
      rw [List.append_assoc, List.singleton_append, wideToUtf8_append_ascii (by decide), ih,
        List.append_assoc, List.singleton_append]
      rfl

/-- A proof of the GUI and the server's identity, key ID and nonces hold the same values. -/
structure SameProof (c : ServerOwnershipController) (clientNonce serverNonce : ByteString)
    (proof : ServerOwnershipProof) : Prop where
  serverProcessId : proof.serverProcessId = c.identity.serverProcessId
  serverStartTime :
    proof.serverProcessStartTimeUtcFileTime = c.identity.serverProcessStartTimeUtcFileTime
  ownerProcessId : proof.ownerProcessId = c.identity.ownerProcessId
  ownerStartTime :
    proof.ownerProcessStartTimeUtcFileTime = c.identity.ownerProcessStartTimeUtcFileTime
  environment : wideToUtf8 proof.environment = c.identity.environment
  runtimeInstanceId : wideToUtf8 proof.runtimeInstanceId = c.identity.runtimeInstanceId
  controlInstanceId : wideToUtf8 proof.controlInstanceId = c.identity.controlInstanceId
  pipeName : wideToUtf8 proof.pipeName = c.identity.pipeName
  clientNonce : wideToUtf8 proof.clientNonce = clientNonce
  serverNonce : wideToUtf8 proof.serverNonce = serverNonce
  credentialId : wideToUtf8 proof.credentialId = c.credentialId

/-- The GUI expects the server's owner and names. -/
structure SameExpectation (identity : ServerOwnershipIdentity)
    (expectation : PipeSessionExpectation) : Prop where
  ownerProcessId : expectation.ownerProcessId = identity.ownerProcessId
  ownerStartTime :
    expectation.ownerProcessStartTimeUtcFileTime = identity.ownerProcessStartTimeUtcFileTime
  environment : wideToUtf8 expectation.environment = identity.environment
  runtimeInstanceId : wideToUtf8 expectation.runtimeInstanceId = identity.runtimeInstanceId
  controlInstanceId : wideToUtf8 expectation.controlInstanceId = identity.controlInstanceId
  pipeName : wideToUtf8 expectation.pipeName = identity.pipeName

/-- **`proofPayload` and `BuildProofPayload`.** -/
theorem proofPayload_eq (h : SameProof c clientNonce serverNonce proof) :
    wideToUtf8 (buildProofPayload proof) = c.proofPayload clientNonce serverNonce := by
  rw [buildProofPayload, proofPayload, wideToUtf8_joinLines]
  simp only [List.map_cons, List.map_nil, h.serverProcessId, h.serverStartTime, h.ownerProcessId,
    h.ownerStartTime, wideToUtf8_decimal, h.environment, h.runtimeInstanceId, h.controlInstanceId,
    h.pipeName, h.clientNonce, h.serverNonce, h.credentialId]
  rw [wideToUtf8_wide (by decide +kernel) (by decide +kernel)]

/-- **`shutdownPayload` and `BuildShutdownPayload`.** -/
theorem shutdownPayload_eq (h : SameProof c clientNonce serverNonce proof) :
    wideToUtf8 (buildShutdownPayload proof) = c.shutdownPayload clientNonce serverNonce := by
  rw [buildShutdownPayload, shutdownPayload, wideToUtf8_joinLines]
  simp only [List.map_cons, List.map_nil, h.serverProcessId, h.serverStartTime, wideToUtf8_decimal,
    h.environment, h.runtimeInstanceId, h.controlInstanceId, h.pipeName, h.clientNonce,
    h.serverNonce]
  rw [wideToUtf8_wide (by decide +kernel) (by decide +kernel)]

/-- **`sessionRequestPayload` and `BuildSessionRequestPayload`.** -/
theorem sessionRequestPayload_eq {nonce : WideString} (h : SameExpectation c.identity expectation) :
    wideToUtf8 (buildSessionRequestPayload expectation nonce) =
      c.sessionRequestPayload (wideToUtf8 nonce) := by
  rw [buildSessionRequestPayload, sessionRequestPayload, wideToUtf8_joinLines]
  simp only [List.map_cons, List.map_nil, h.ownerProcessId, h.ownerStartTime, wideToUtf8_decimal,
    h.environment, h.runtimeInstanceId, h.controlInstanceId, h.pipeName]
  rw [wideToUtf8_wide (by decide +kernel) (by decide +kernel)]

/-- **`sessionProofPayload` and `BuildSessionProofPayload`.** -/
theorem sessionProofPayload_eq (h : SameProof c clientNonce serverNonce proof) :
    wideToUtf8 (buildSessionProofPayload proof) =
      c.sessionProofPayload clientNonce serverNonce := by
  rw [buildSessionProofPayload, sessionProofPayload, wideToUtf8_joinLines]
  simp only [List.map_cons, List.map_nil, h.serverProcessId, h.serverStartTime, h.ownerProcessId,
    h.ownerStartTime, wideToUtf8_decimal, h.environment, h.runtimeInstanceId, h.controlInstanceId,
    h.pipeName, h.clientNonce, h.serverNonce, h.credentialId]
  rw [wideToUtf8_wide (by decide +kernel) (by decide +kernel)]

/-! ## Kinds of payloads -/

inductive PayloadKind where
  | proof
  | shutdown
  | sessionRequest
  | sessionProof
  deriving DecidableEq

/-- The first line of a payload. -/
def PayloadKind.label : PayloadKind → ByteString
  | .proof => ascii "lmt-ownership-proof-v1"
  | .shutdown => ascii "lmt-shutdown-v1"
  | .sessionRequest => ascii "lmt-pipe-session-request-v1"
  | .sessionProof => ascii "lmt-pipe-session-proof-v1"

theorem label_injective : ∀ {a b : PayloadKind}, a.label = b.label → a = b := by
  intro a b
  cases a <;> cases b <;> decide

/-- What either program puts under a MAC, by kind, whatever the fields hold. -/
inductive IsPayload : PayloadKind → ByteString → Prop
  | proof (c : ServerOwnershipController) (clientNonce serverNonce : ByteString) :
      IsPayload .proof (c.proofPayload clientNonce serverNonce)
  | shutdown (c : ServerOwnershipController) (clientNonce serverNonce : ByteString) :
      IsPayload .shutdown (c.shutdownPayload clientNonce serverNonce)
  | sessionRequest (c : ServerOwnershipController) (clientNonce : ByteString) :
      IsPayload .sessionRequest (c.sessionRequestPayload clientNonce)
  | sessionProof (c : ServerOwnershipController) (clientNonce serverNonce : ByteString) :
      IsPayload .sessionProof (c.sessionProofPayload clientNonce serverNonce)
  | guiProof (proof : ServerOwnershipProof) :
      IsPayload .proof (wideToUtf8 (buildProofPayload proof))
  | guiShutdown (proof : ServerOwnershipProof) :
      IsPayload .shutdown (wideToUtf8 (buildShutdownPayload proof))
  | guiSessionRequest (expectation : PipeSessionExpectation) (nonce : WideString) :
      IsPayload .sessionRequest (wideToUtf8 (buildSessionRequestPayload expectation nonce))
  | guiSessionProof (proof : ServerOwnershipProof) :
      IsPayload .sessionProof (wideToUtf8 (buildSessionProofPayload proof))

theorem firstLine_wide {s : String} {lines : List WideString} (h : isAscii (ascii s))
    (hs : wide s = widen (ascii s)) (hline : ∀ b ∈ ascii s, b ≠ 10) :
    firstLine 10 (wideToUtf8 (joinLines 10 (wide s :: lines))) = ascii s := by
  rw [wideToUtf8_joinLines, List.map_cons, wideToUtf8_wide h hs, firstLine_joinLines hline]

theorem firstLine_payload {kind : PayloadKind} {text : ByteString} (h : IsPayload kind text) :
    firstLine 10 text = kind.label := by
  cases h with
  | proof => exact firstLine_joinLines (by decide +kernel)
  | shutdown => exact firstLine_joinLines (by decide +kernel)
  | sessionRequest => exact firstLine_joinLines (by decide +kernel)
  | sessionProof => exact firstLine_joinLines (by decide +kernel)
  | guiProof => exact firstLine_wide (by decide +kernel) (by decide +kernel) (by decide +kernel)
  | guiShutdown => exact firstLine_wide (by decide +kernel) (by decide +kernel) (by decide +kernel)
  | guiSessionRequest =>
    exact firstLine_wide (by decide +kernel) (by decide +kernel) (by decide +kernel)
  | guiSessionProof =>
    exact firstLine_wide (by decide +kernel) (by decide +kernel) (by decide +kernel)

/-- **A payload is of one kind.** -/
theorem payload_kind {kind kind' : PayloadKind} {text : ByteString} (h : IsPayload kind text)
    (h' : IsPayload kind' text) : kind = kind' :=
  label_injective ((firstLine_payload h).symm.trans (firstLine_payload h'))

/-! ## The honest exchange -/

/-- The GUI expects the server that it started: both hold the same values, in the ranges of the
GUI's types, and the server was given the GUI's key. -/
structure Expects (identity : ServerOwnershipIdentity) (expectation : PipeSessionExpectation) :
    Prop where
  serverProcessId : expectation.expectedServerProcessId = identity.serverProcessId
  serverProcessId_lt : identity.serverProcessId < 2 ^ 31
  serverStartTime : expectation.expectedServerProcessStartTimeUtcFileTime =
    identity.serverProcessStartTimeUtcFileTime
  serverStartTime_lt : identity.serverProcessStartTimeUtcFileTime < 2 ^ 63
  ownerProcessId : expectation.ownerProcessId = identity.ownerProcessId
  ownerProcessId_lt : identity.ownerProcessId < 2 ^ 31
  ownerStartTime :
    expectation.ownerProcessStartTimeUtcFileTime = identity.ownerProcessStartTimeUtcFileTime
  ownerStartTime_lt : identity.ownerProcessStartTimeUtcFileTime < 2 ^ 63
  environment : utf8ToWide identity.environment = some expectation.environment
  runtimeInstanceId : utf8ToWide identity.runtimeInstanceId = some expectation.runtimeInstanceId
  controlInstanceId : utf8ToWide identity.controlInstanceId = some expectation.controlInstanceId
  pipeName : utf8ToWide identity.pipeName = some expectation.pipeName
  controlKey : expectation.controlKey.length = 32

/-- `ControlTokenHex`, as the server reads it. -/
def PipeSessionExpectation.controlTokenHex (expectation : PipeSessionExpectation) : ByteString :=
  toHex expectation.controlKey

/-- The controller of the server that the GUI started. -/
def started (crypto : OwnershipCrypto) (identity : ServerOwnershipIdentity)
    (expectation : PipeSessionExpectation) (pending : Option PendingChallenge) :
    ServerOwnershipController where
  identity := identity
  controlKey := expectation.controlKey
  credentialId := toHex (crypto.sha256 expectation.controlKey)
  pendingChallenge := pending

/-- The proof as the GUI reads it. -/
def receivedProof (crypto : OwnershipCrypto) (expectation : PipeSessionExpectation)
    (clientNonce serverNonce payload : ByteString) : ServerOwnershipProof where
  protocolVersion := 1
  serverProcessId := expectation.expectedServerProcessId
  serverProcessStartTimeUtcFileTime := expectation.expectedServerProcessStartTimeUtcFileTime
  ownerProcessId := expectation.ownerProcessId
  ownerProcessStartTimeUtcFileTime := expectation.ownerProcessStartTimeUtcFileTime
  environment := expectation.environment
  runtimeInstanceId := expectation.runtimeInstanceId
  controlInstanceId := expectation.controlInstanceId
  pipeName := expectation.pipeName
  clientNonce := hexLower clientNonce
  serverNonce := hexLower serverNonce
  credentialId := hexLower (crypto.sha256 expectation.controlKey)
  proof := hexLower (crypto.hmac expectation.controlKey payload)

variable {pending : Option PendingChallenge} {nonce bytes payload : ByteString}

theorem create_eq (h : expectation.controlKey.length = 32) :
    create crypto identity expectation.controlTokenHex =
      started crypto identity expectation none := by
  have hhex : isHex expectation.controlTokenHex 64 = true := by
    have := isHex_toHex expectation.controlKey
    rwa [h] at this
  rw [create, if_pos hhex, PipeSessionExpectation.controlTokenHex, decodeHex_toHex]
  rfl

theorem enabled_started (h : expectation.controlKey.length = 32) :
    (started crypto identity expectation pending).enabled = true := by
  have hne : toHex (crypto.sha256 expectation.controlKey) ≠ [] := by
    apply List.ne_nil_of_length_pos
    rw [length_toHex, crypto.sha256_length]
    decide
  rw [enabled, Bool.and_eq_true, beq_iff_eq, Bool.not_eq_true', List.isEmpty_eq_false_iff]
  exact ⟨h, hne⟩

theorem verifyHmac_self (c : ServerOwnershipController) :
    c.verifyHmac crypto payload (toHex (crypto.hmac c.controlKey payload)) = true := by
  have hhex := isHex_toHex (crypto.hmac c.controlKey payload)
  rw [crypto.hmac_length] at hhex
  rw [verifyHmac, hhex, computeHmacHex, beq_self_eq_true, Bool.and_self]

theorem sameProof_received (h : Expects identity expectation) :
    SameProof (started crypto identity expectation pending) (toHex nonce) (toHex bytes)
      (receivedProof crypto expectation nonce bytes payload) where
  serverProcessId := h.serverProcessId
  serverStartTime := h.serverStartTime
  ownerProcessId := h.ownerProcessId
  ownerStartTime := h.ownerStartTime
  environment := wideToUtf8_of_utf8ToWide h.environment
  runtimeInstanceId := wideToUtf8_of_utf8ToWide h.runtimeInstanceId
  controlInstanceId := wideToUtf8_of_utf8ToWide h.controlInstanceId
  pipeName := wideToUtf8_of_utf8ToWide h.pipeName
  clientNonce := wideToUtf8_hexLower _
  serverNonce := wideToUtf8_hexLower _
  credentialId := wideToUtf8_hexLower _

theorem sameExpectation (h : Expects identity expectation) :
    SameExpectation identity expectation where
  ownerProcessId := h.ownerProcessId
  ownerStartTime := h.ownerStartTime
  environment := wideToUtf8_of_utf8ToWide h.environment
  runtimeInstanceId := wideToUtf8_of_utf8ToWide h.runtimeInstanceId
  controlInstanceId := wideToUtf8_of_utf8ToWide h.controlInstanceId
  pipeName := wideToUtf8_of_utf8ToWide h.pipeName

theorem decodes_of_wide {text : ByteString} {value : WideString}
    (h : utf8ToWide text = some value) :
    (decodeUtf8 text).isSome = true := by
  obtain ⟨points, hpoints, -⟩ := Option.map_eq_some_iff.mp h
  rw [hpoints, Option.isSome_some]

/-- The response of the server is the proof that the GUI reads. -/
theorem parseProof_response (h : Expects identity expectation) (crypto : OwnershipCrypto)
    (pending : Option PendingChallenge) (type nonce bytes payload : ByteString) :
    ∃ r, (started crypto identity expectation pending).response crypto type (toHex nonce)
        (toHex bytes) payload = some r ∧
      parseProof r = some (receivedProof crypto expectation nonce bytes payload) := by
  have hdumps : (started crypto identity expectation pending).dumps = true := by
    simp only [dumps, started, decodes_of_wide h.environment, decodes_of_wide h.runtimeInstanceId,
      decodes_of_wide h.controlInstanceId, decodes_of_wide h.pipeName, Bool.and_self]
  refine ⟨_, if_pos hdumps, ?_⟩
  simp only [parseProof, started, computeHmacHex, OwnershipProtocolVersion, h.environment,
    h.runtimeInstanceId, h.controlInstanceId, h.pipeName, utf8ToWide_ascii (isAscii_decimal _),
    utf8ToWide_ascii (isAscii_toHex _), Option.bind_some, parseLong_decimal h.serverStartTime_lt,
    parseLong_decimal h.ownerStartTime_lt, getInt32_of_lt h.serverProcessId_lt,
    getInt32_of_lt h.ownerProcessId_lt, receivedProof, h.serverProcessId, h.serverStartTime,
    h.ownerProcessId, h.ownerStartTime, hexLower]
  rfl

theorem isLowerHexText_hexLower (bytes : ByteString) :
    isLowerHexText (hexLower bytes) (2 * bytes.length) = true := by
  rw [isLowerHexText, hexLower, widen, List.length_map, length_toHex,
    beq_self_eq_true, Bool.true_and,
    List.all_eq_true]
  intro u hu
  obtain ⟨b, hb, rfl⟩ := List.mem_map.mp hu
  obtain ⟨n, hn, rfl⟩ := mem_toHex hb
  have hdigit := (hexDigit_lower n hn).2
  simp only [Bool.or_eq_true, Bool.and_eq_true, decide_eq_true_eq, UInt16.le_iff_toNat_le,
    UInt16.reduceToNat, UInt16.toNat_ofNat']
  omega

theorem wellFormed_received (h : expectation.controlKey.length = 32) (hnonce : nonce.length = 16)
    (hbytes : bytes.length = 16) :
    wellFormed (receivedProof crypto expectation nonce bytes payload) expectation.controlKey
      (hexLower nonce) = true := by
  have hclient := isLowerHexText_hexLower nonce
  have hserver := isLowerHexText_hexLower bytes
  have hproof := isLowerHexText_hexLower (crypto.hmac expectation.controlKey payload)
  have hcredential := isLowerHexText_hexLower (crypto.sha256 expectation.controlKey)
  rw [hnonce] at hclient
  rw [hbytes] at hserver
  rw [crypto.hmac_length] at hproof
  rw [crypto.sha256_length] at hcredential
  simp only [wellFormed, receivedProof, h, hclient, hserver, hproof, hcredential, beq_self_eq_true,
    Bool.and_true]
  rfl

theorem signed_received {text : WideString} (h : wideToUtf8 text = payload) :
    signed crypto (receivedProof crypto expectation nonce bytes payload)
      expectation.controlKey text =
      true := by
  simp only [signed, receivedProof, fixedTimeHexEquals, h, beq_self_eq_true, Bool.and_self]

theorem getInt_version : Json.getInt (.integer 1) = some
    (OwnershipProtocolVersion : Int) := by decide

/-- A shutdown request for the pending challenge is authorized in time. -/
theorem authorizeShutdown_of_fields {c : ServerOwnershipController} {challenge : PendingChallenge}
    {request : Json} {authorization : ByteString} (henabled : c.enabled = true)
    (hversion : request.value Json.getInt "protocolVersion" 0 =
      some (OwnershipProtocolVersion : Int))
    (hclient : request.value Json.getString "clientNonce" [] = some challenge.clientNonce)
    (hserver : request.value Json.getString "serverNonce" [] = some challenge.serverNonce)
    (hauthorization : request.value Json.getString "authorization" [] = some authorization)
    (hchallenge : c.pendingChallenge = some challenge) (htime : now ≤ challenge.expiresAt)
    (hmac : c.verifyHmac crypto (c.shutdownPayload challenge.clientNonce challenge.serverNonce)
      authorization = true) :
    (c.authorizeShutdown crypto (some request) now).2 = true := by
  have hfields : c.shutdownFields (some request) =
      some (challenge.clientNonce, challenge.serverNonce, authorization) := by
    simp only [shutdownFields, Option.bind_eq_bind, Option.bind_some, henabled, hversion, hclient,
      hserver, hauthorization, guard_true]
    rfl
  have hlate : decide (challenge.expiresAt < now) = false := decide_eq_false (by omega)
  simp only [authorizeShutdown, hfields, hchallenge, hlate, bne_self_eq_false, Bool.or_self,
    Bool.false_eq_true, if_false, hmac, if_true]

theorem shutdown_verifies {challenge : PendingChallenge} (h : Expects identity expectation)
    (hsame : SameProof (started crypto identity expectation (some challenge)) challenge.clientNonce
      challenge.serverNonce proof) (htime : now ≤ challenge.expiresAt) :
    ((started crypto identity expectation (some challenge)).authorizeShutdown crypto
      (some (createShutdownRequest crypto proof expectation.controlKey)) now).2 = true := by
  refine authorizeShutdown_of_fields (enabled_started h.controlKey) ?_ ?_ ?_ ?_ rfl htime
    (verifyHmac_self _)
  all_goals simp (disch := decide) only [createShutdownRequest, value_head, value_tail,
    Json.getString, wideToUtf8_hexLower, shutdownPayload_eq hsame, hsame.clientNonce,
    hsame.serverNonce]
  all_goals rfl

/-- **A probe and the shutdown after it.** -/
theorem probe_verifies (h : Expects identity expectation) (hnonce : nonce.length = 16)
    (hbytes : bytes.length = 16) :
    ∃ r proof, ((started crypto identity expectation pending).handleProbe crypto
        (some (createProbe (hexLower nonce))) (some bytes) now).2 = some r ∧
      parseProof r = some proof ∧
      verifyProof crypto proof expectation.controlKey (hexLower nonce) = true ∧
      ∀ elapsed ≤ ChallengeLifetime,
        (((started crypto identity expectation pending).handleProbe crypto
          (some (createProbe (hexLower nonce))) (some bytes) now).1.authorizeShutdown crypto
            (some (createShutdownRequest crypto proof expectation.controlKey))
            (now + elapsed)).2 = true := by
  have hhex : isHex (toHex nonce) 32 = true := by
    have := isHex_toHex nonce
    rwa [hnonce] at this
  have hprobed : (started crypto identity expectation pending).probed
      (some (createProbe (hexLower nonce))) = some (toHex nonce) := by
    simp (disch := decide) only [probed, createProbe, wideToUtf8_hexLower, value_head, value_tail,
      getInt_version, Json.getString, enabled_started h.controlKey, hhex, Option.bind_eq_bind,
      Option.bind_some, guard_true]
    rfl
  obtain ⟨r, hresponse, hparse⟩ := parseProof_response h crypto
    (some ⟨toHex nonce, toHex bytes, now + ChallengeLifetime⟩) (ascii "ownership_proof") nonce bytes
    ((started crypto identity expectation pending).proofPayload (toHex nonce) (toHex bytes))
  refine ⟨r, _, ?_, hparse, ?_, ?_⟩
  · simp only [handleProbe, hprobed]
    exact hresponse
  · rw [verifyProof, wellFormed_received h.controlKey hnonce hbytes, Bool.true_and]
    exact signed_received (proofPayload_eq (sameProof_received h))
  · intro elapsed helapsed
    simp only [handleProbe, hprobed]
    refine shutdown_verifies h (sameProof_received h) ?_
    exact Nat.add_le_add_left helapsed now

/-- A request with the members that `authenticateSession` looks for is answered. -/
theorem authenticated_of_fields {c : ServerOwnershipController} {request : Json}
    {authorization : ByteString} (henabled : c.enabled = true)
    (hversion : request.value Json.getInt "protocolVersion" 0 =
      some (OwnershipProtocolVersion : Int))
    (hnonce : request.value Json.getString "clientNonce" [] = some clientNonce)
    (hauthorization : request.value Json.getString "authorization" [] = some authorization)
    (hhex : isHex clientNonce 32 = true)
    (howner : request.value Json.getUnsigned "ownerProcessId" 0 = some c.identity.ownerProcessId)
    (hstart : request.value Json.getString "ownerProcessStartTimeUtcFileTime" [] =
      some (decimal c.identity.ownerProcessStartTimeUtcFileTime))
    (henvironment : request.value Json.getString "environment" [] = some c.identity.environment)
    (hruntime : request.value Json.getString "runtimeInstanceId" [] =
      some c.identity.runtimeInstanceId)
    (hcontrol : request.value Json.getString "controlInstanceId" [] =
      some c.identity.controlInstanceId)
    (hpipe : request.value Json.getString "pipeName" [] = some c.identity.pipeName)
    (hmac : c.verifyHmac crypto (c.sessionRequestPayload clientNonce) authorization = true) :
    c.authenticated crypto (some request) = some clientNonce := by
  simp only [authenticated, Option.bind_eq_bind, Option.bind_some, henabled, hversion, hnonce,
    hauthorization, hhex, howner, hstart, henvironment, hruntime, hcontrol, hpipe, hmac, guard_true]
  rfl

/-- **The session of the pipe.** -/
theorem session_verifies (h : Expects identity expectation) (hnonce : nonce.length = 16)
    (hbytes : bytes.length = 16) :
    ∃ r proof, (started crypto identity expectation pending).authenticateSession crypto
        (some (createSessionRequest crypto expectation (hexLower nonce))) (some bytes) = some r ∧
      parseProof r = some proof ∧
      verifySessionProof crypto proof expectation (hexLower nonce) = true := by
  have hhex : isHex (toHex nonce) 32 = true := by
    have := isHex_toHex nonce
    rwa [hnonce] at this
  have hpayload : wideToUtf8 (buildSessionRequestPayload expectation (hexLower nonce)) =
      (started crypto identity expectation pending).sessionRequestPayload (toHex nonce) := by
    rw [sessionRequestPayload_eq (c := started crypto identity expectation pending)
      (sameExpectation h), wideToUtf8_hexLower]
  have hauthenticated : (started crypto identity expectation pending).authenticated crypto
      (some (createSessionRequest crypto expectation (hexLower nonce))) = some (toHex nonce) := by
    have hsame := sameExpectation h
    refine authenticated_of_fields (enabled_started h.controlKey) ?_ ?_ ?_ hhex ?_ ?_ ?_ ?_ ?_ ?_
      (verifyHmac_self _)
    all_goals simp (disch := decide) only [createSessionRequest, value_head, value_tail,
      Json.getString, wideToUtf8_hexLower, hpayload, hsame.ownerProcessId, hsame.ownerStartTime,
        wideToUtf8_decimal,
      getUnsigned_of_lt h.ownerProcessId_lt, hsame.environment, hsame.runtimeInstanceId,
      hsame.controlInstanceId, hsame.pipeName]
    all_goals rfl
  obtain ⟨r, hresponse, hparse⟩ := parseProof_response h crypto pending (ascii "session_ready")
    nonce bytes
    ((started crypto identity expectation pending).sessionProofPayload (toHex nonce) (toHex bytes))
  refine ⟨r, _, ?_, hparse, ?_⟩
  · simp only [authenticateSession, hauthenticated]
    exact hresponse
  · rw [verifySessionProof, wellFormed_received h.controlKey hnonce hbytes,
      signed_received (sessionProofPayload_eq (sameProof_received h))]
    simp only [receivedProof, beq_self_eq_true, Bool.and_self]

/-- **The ownership protocol.** In every run an authorized shutdown directly follows the probe that
it answers; the programs agree on every payload; a payload is of one kind; and an honest exchange
verifies on both sides, whatever came before it. -/
theorem ownership_protocol (crypto : OwnershipCrypto) (identity : ServerOwnershipIdentity)
    (start : Nat) :
    (∀ controlTokenHex s, OwnershipRun crypto (.init crypto identity controlTokenHex start) s →
      ∀ pre time clientNonce serverNonce authorization post,
        s.log = pre ++ .shutdown time clientNonce serverNonce authorization :: post →
          AnswersProbe crypto (.create crypto identity controlTokenHex) pre time clientNonce
            serverNonce authorization) ∧
    (∀ c clientNonce serverNonce proof, SameProof c clientNonce serverNonce proof →
      wideToUtf8 (buildProofPayload proof) = c.proofPayload clientNonce serverNonce ∧
      wideToUtf8 (buildShutdownPayload proof) = c.shutdownPayload clientNonce serverNonce ∧
      wideToUtf8 (buildSessionProofPayload proof) =
        c.sessionProofPayload clientNonce serverNonce) ∧
    (∀ (c : ServerOwnershipController) expectation nonce, SameExpectation c.identity expectation →
      wideToUtf8 (buildSessionRequestPayload expectation nonce) =
        c.sessionRequestPayload (wideToUtf8 nonce)) ∧
    (∀ kind kind' text, IsPayload kind text → IsPayload kind' text → kind = kind') ∧
    (∀ expectation s, Expects identity expectation →
      OwnershipRun crypto (.init crypto identity expectation.controlTokenHex start) s →
      ∀ nonce bytes : ByteString, nonce.length = 16 → bytes.length = 16 →
        (∃ r proof, (s.controller.handleProbe crypto (some (createProbe (hexLower nonce)))
            (some bytes) s.clock).2 = some r ∧
          parseProof r = some proof ∧
          verifyProof crypto proof expectation.controlKey (hexLower nonce) = true ∧
          ∀ elapsed ≤ ChallengeLifetime,
            ((s.controller.handleProbe crypto (some (createProbe (hexLower nonce))) (some bytes)
              s.clock).1.authorizeShutdown crypto
                (some (createShutdownRequest crypto proof expectation.controlKey))
                (s.clock + elapsed)).2 = true) ∧
        ∃ r proof, s.controller.authenticateSession crypto
            (some (createSessionRequest crypto expectation (hexLower nonce))) (some bytes) =
              some r ∧
          parseProof r = some proof ∧
          verifySessionProof crypto proof expectation (hexLower nonce) = true) := by
  refine ⟨?_, ?_, ?_, ?_, ?_⟩
  · intro controlTokenHex s hrun pre time clientNonce serverNonce authorization post hlog
    exact shutdown_answers_probe hrun hlog
  · intro c clientNonce serverNonce proof h
    exact ⟨proofPayload_eq h, shutdownPayload_eq h, sessionProofPayload_eq h⟩
  · intro c expectation nonce h
    exact sessionRequestPayload_eq h
  · intro kind kind' text h h'
    exact payload_kind h h'
  · intro expectation s h hrun nonce bytes hnonce hbytes
    obtain ⟨pending, hsame⟩ := (ownershipOk_of_run hrun).same
    rw [create_eq h.controlKey] at hsame
    have hcontroller : s.controller = started crypto identity expectation pending := hsame
    rw [hcontroller]
    exact ⟨probe_verifies h hnonce hbytes, session_verifies h hnonce hbytes⟩

def sampleIdentity : ServerOwnershipIdentity where
  serverProcessId := 4711
  serverProcessStartTimeUtcFileTime := 133500000000000000
  ownerProcessId := 815
  ownerProcessStartTimeUtcFileTime := 133490000000000000
  environment := ascii "production"
  runtimeInstanceId := ascii "runtime"
  controlInstanceId := ascii "control"
  pipeName := ascii "LocalMediaTransfer"

def sampleExpectation : PipeSessionExpectation where
  expectedServerProcessId := 4711
  expectedServerProcessStartTimeUtcFileTime := 133500000000000000
  ownerProcessId := 815
  ownerProcessStartTimeUtcFileTime := 133490000000000000
  environment := wide "production"
  runtimeInstanceId := wide "runtime"
  controlInstanceId := wide "control"
  pipeName := wide "LocalMediaTransfer"
  controlKey := (List.range 32).map UInt8.ofNat

/-- The two functions at the inputs of the sample. -/
def sampleOwnershipCrypto : OwnershipCrypto where
  hmac _ payload :=
    if firstLine 10 payload = ascii "lmt-ownership-proof-v1" then
      decodeHex (ascii "627e794587d9c771242f004bdb42d1dd6e44c149e938f38188ff23c95a23d56a")
    else if firstLine 10 payload = ascii "lmt-shutdown-v1" then
      decodeHex (ascii "12a736270d44a4c868fcc57633e17bee97608ba25a8cdac98c77b52c503be61c")
    else if firstLine 10 payload = ascii "lmt-pipe-session-request-v1" then
      decodeHex (ascii "f6d6b20c2b4cf7b156e8ada2e1b885342d96507bf929ac8e7f9292caae1ab2d0")
    else
      decodeHex (ascii "e80bc811a988d1de2c9df3614bc3d6f6c96c157822ea3c4399039e26ba812915")
  sha256 _ := decodeHex (ascii "630dcd2966c4336691125448bbb25b4ff412a49c732db2c8abc1b8581bd710dd")
  hmac_length := by
    intro key payload
    split
    · decide
    · split
      · decide
      · split <;> decide
  sha256_length _ := by decide

theorem expects_sample : Expects sampleIdentity sampleExpectation := by
  constructor <;> decide +kernel

/-- The GUI stops its server ten seconds after the probe. -/
def sampleOwnershipLabels : List OwnershipLabel :=
  [.probe (some (createProbe (hexLower (List.replicate 16 1)))) (some (List.replicate 16 2)),
    .advance 10,
    .shutdown (some (createShutdownRequest sampleOwnershipCrypto
      (receivedProof sampleOwnershipCrypto sampleExpectation (List.replicate 16 1)
        (List.replicate 16 2) []) sampleExpectation.controlKey))]

theorem ownership_protocol_sample :
    AnswersProbe sampleOwnershipCrypto
      (.create sampleOwnershipCrypto sampleIdentity sampleExpectation.controlTokenHex)
      [.probed 100 (toHex (List.replicate 16 1)) (toHex (List.replicate 16 2))] 110
      (toHex (List.replicate 16 1)) (toHex (List.replicate 16 2))
      (ascii "12a736270d44a4c868fcc57633e17bee97608ba25a8cdac98c77b52c503be61c") ∧
    wideToUtf8 (buildShutdownPayload (receivedProof sampleOwnershipCrypto sampleExpectation
      (List.replicate 16 1) (List.replicate 16 2) [])) =
        (started sampleOwnershipCrypto sampleIdentity sampleExpectation none).shutdownPayload
          (toHex (List.replicate 16 1)) (toHex (List.replicate 16 2)) ∧
    ∃ r proof, (started sampleOwnershipCrypto sampleIdentity sampleExpectation
        none).authenticateSession sampleOwnershipCrypto
        (some (createSessionRequest sampleOwnershipCrypto sampleExpectation
          (hexLower (List.replicate 16 1)))) (some (List.replicate 16 2)) = some r ∧
      parseProof r = some proof ∧
      verifySessionProof sampleOwnershipCrypto proof sampleExpectation
        (hexLower (List.replicate 16 1)) = true := by
  obtain ⟨hshutdown, hpayloads, -, -, hexchange⟩ :=
    ownership_protocol sampleOwnershipCrypto sampleIdentity 100
  refine ⟨?_, ?_, ?_⟩
  · obtain ⟨s, hrun, hlog⟩ := Run.exists_of_exec (ownershipStep sampleOwnershipCrypto)
      (P := fun _ _ => True) (fun _ _ => true)
      (fun s => decide (s.log =
        [.probed 100 (toHex (List.replicate 16 1)) (toHex (List.replicate 16 2)),
          .shutdown 110 (toHex (List.replicate 16 1)) (toHex (List.replicate 16 2))
            (ascii "12a736270d44a4c868fcc57633e17bee97608ba25a8cdac98c77b52c503be61c")]))
      (.init sampleOwnershipCrypto sampleIdentity sampleExpectation.controlTokenHex 100)
      sampleOwnershipLabels (fun _ _ _ => trivial) (by decide +kernel)
    exact hshutdown _ s hrun [.probed 100 _ _] 110 _ _ _ [] (of_decide_eq_true hlog)
  · exact (hpayloads _ _ _ _ (sameProof_received expects_sample)).2.1
  · have h := (hexchange sampleExpectation _ expects_sample (.refl _) (List.replicate 16 1)
      (List.replicate 16 2) List.length_replicate List.length_replicate).2
    rwa [OwnershipState.init, create_eq expects_sample.controlKey] at h

end LocalMediaTransfer
