import LocalMediaTransfer.Lib.History
import LocalMediaTransfer.Lib.Run
import LocalMediaTransfer.Server.Json
import LocalMediaTransfer.Server.Security.NativeSession.Model
import LocalMediaTransfer.Server.Unicode
import LocalMediaTransfer.Server.UploadSession

/-!
# Ownership of the server

Model of `ServerOwnershipController` (`ipc/ServerOwnership.cpp`): the server proves to a GUI who it
is, lets the holder of the control key stop it, and authenticates the pipe session.

HMAC-SHA-256 and SHA-256 are parameters.  The JSON texts of requests are given as parsed, and those
of responses by their members.

* `proofPayload`, `shutdownPayload`, `sessionRequestPayload`, `sessionProofPayload` — the four texts
  under a MAC.
* `ownershipStep` — probes, shutdowns and session requests in any order.
* `shutdown_answers_probe` — what an authorized shutdown presupposes.
-/

set_option autoImplicit false

namespace LocalMediaTransfer

open Lib

/-- `HMAC` and `EVP_Digest` with SHA-256, in bytes. -/
structure OwnershipCrypto where
  hmac : (key payload : ByteString) → ByteString
  sha256 : ByteString → ByteString
  hmac_length : ∀ key payload, (hmac key payload).length = 32
  sha256_length : ∀ value, (sha256 value).length = 32

/-- Lines separated by a line feed. -/
def joinLines {α : Type} (lineFeed : α) (lines : List (List α)) : List α :=
  List.intercalate [lineFeed] lines

/-- `ServerOwnershipIdentity`. -/
structure ServerOwnershipIdentity where
  serverProcessId : Nat
  serverProcessStartTimeUtcFileTime : Nat
  ownerProcessId : Nat
  ownerProcessStartTimeUtcFileTime : Nat
  environment : ByteString
  runtimeInstanceId : ByteString
  controlInstanceId : ByteString
  pipeName : ByteString
  deriving DecidableEq

/-- `PendingChallenge`. -/
structure PendingChallenge where
  clientNonce : ByteString
  serverNonce : ByteString
  expiresAt : Nat
  deriving DecidableEq

/-- The members of a response, and its message type. -/
structure ServerOwnershipResponse where
  type : ByteString
  protocolVersion : Nat
  serverProcessId : Nat
  serverProcessStartTimeUtcFileTime : ByteString
  ownerProcessId : Nat
  ownerProcessStartTimeUtcFileTime : ByteString
  environment : ByteString
  runtimeInstanceId : ByteString
  controlInstanceId : ByteString
  pipeName : ByteString
  clientNonce : ByteString
  serverNonce : ByteString
  credentialId : ByteString
  proof : ByteString
  deriving DecidableEq

/-- `ProtocolVersion`. -/
def OwnershipProtocolVersion : Nat := 1

/-- `ChallengeLifetime`, in seconds. -/
def ChallengeLifetime : Nat := 15

structure ServerOwnershipController where
  identity : ServerOwnershipIdentity
  controlKey : ByteString := []
  credentialId : ByteString := []
  pendingChallenge : Option PendingChallenge := none
  deriving DecidableEq

namespace ServerOwnershipController

variable (crypto : OwnershipCrypto) (c : ServerOwnershipController)

/-- The constructor. -/
def create (identity : ServerOwnershipIdentity) (controlTokenHex : ByteString) :
    ServerOwnershipController :=
  if isHex controlTokenHex 64 then
    { identity
      controlKey := decodeHex controlTokenHex
      credentialId := toHex (crypto.sha256 (decodeHex controlTokenHex)) }
  else { identity }

/-- `enabled`. -/
def enabled : Bool := c.controlKey.length == 32 && !c.credentialId.isEmpty

/-- `proofPayload`. -/
def proofPayload (clientNonce serverNonce : ByteString) : ByteString :=
  joinLines 10
    [ascii "lmt-ownership-proof-v1", clientNonce, serverNonce, decimal c.identity.serverProcessId,
      decimal c.identity.serverProcessStartTimeUtcFileTime, decimal c.identity.ownerProcessId,
      decimal c.identity.ownerProcessStartTimeUtcFileTime, c.identity.environment,
      c.identity.runtimeInstanceId, c.identity.controlInstanceId, c.identity.pipeName,
      c.credentialId]

/-- `shutdownPayload`. -/
def shutdownPayload (clientNonce serverNonce : ByteString) : ByteString :=
  joinLines 10
    [ascii "lmt-shutdown-v1", clientNonce, serverNonce, decimal c.identity.serverProcessId,
      decimal c.identity.serverProcessStartTimeUtcFileTime, c.identity.environment,
      c.identity.runtimeInstanceId, c.identity.controlInstanceId, c.identity.pipeName]

/-- `sessionRequestPayload`. -/
def sessionRequestPayload (clientNonce : ByteString) : ByteString :=
  joinLines 10
    [ascii "lmt-pipe-session-request-v1", clientNonce, decimal c.identity.ownerProcessId,
      decimal c.identity.ownerProcessStartTimeUtcFileTime, c.identity.environment,
      c.identity.runtimeInstanceId, c.identity.controlInstanceId, c.identity.pipeName]

/-- `sessionProofPayload`. -/
def sessionProofPayload (clientNonce serverNonce : ByteString) : ByteString :=
  joinLines 10
    [ascii "lmt-pipe-session-proof-v1", clientNonce, serverNonce,
      decimal c.identity.serverProcessId, decimal c.identity.serverProcessStartTimeUtcFileTime,
      decimal c.identity.ownerProcessId, decimal c.identity.ownerProcessStartTimeUtcFileTime,
      c.identity.environment, c.identity.runtimeInstanceId, c.identity.controlInstanceId,
      c.identity.pipeName, c.credentialId]

/-- `computeHmacHex`. -/
def computeHmacHex (payload : ByteString) : ByteString := toHex (crypto.hmac c.controlKey payload)

/-- `verifyHmac`. -/
def verifyHmac (payload suppliedHex : ByteString) : Bool :=
  isHex suppliedHex 64 && decodeHex suppliedHex == decodeHex (c.computeHmacHex crypto payload)

/-- `response.dump()` throws on text that is not UTF-8. -/
def dumps : Bool :=
  (decodeUtf8 c.identity.environment).isSome && (decodeUtf8 c.identity.runtimeInstanceId).isSome &&
    (decodeUtf8 c.identity.controlInstanceId).isSome && (decodeUtf8 c.identity.pipeName).isSome

/-- The response with a proof. -/
def response (type clientNonce serverNonce payload : ByteString) :
    Option ServerOwnershipResponse :=
  if c.dumps then
    some
      { type
        protocolVersion := OwnershipProtocolVersion
        serverProcessId := c.identity.serverProcessId
        serverProcessStartTimeUtcFileTime := decimal c.identity.serverProcessStartTimeUtcFileTime
        ownerProcessId := c.identity.ownerProcessId
        ownerProcessStartTimeUtcFileTime := decimal c.identity.ownerProcessStartTimeUtcFileTime
        environment := c.identity.environment
        runtimeInstanceId := c.identity.runtimeInstanceId
        controlInstanceId := c.identity.controlInstanceId
        pipeName := c.identity.pipeName
        clientNonce, serverNonce
        credentialId := c.credentialId
        proof := c.computeHmacHex crypto payload }
  else none

/-- The nonce of a probe that is answered, up to the answer. -/
def probed (request : Option Json) : Option ByteString := do
  let request ← request
  guard (c.enabled = true)
  let version ← request.value Json.getInt "protocolVersion" 0
  guard (version = OwnershipProtocolVersion)
  let clientNonce ← request.value Json.getString "clientNonce" []
  guard (isHex clientNonce 32 = true)
  return clientNonce

/-- `handleProbe`; `randomBytes` is `none` when `RAND_priv_bytes` fails. -/
def handleProbe (request : Option Json) (randomBytes : Option ByteString) (now : Nat) :
    ServerOwnershipController × Option ServerOwnershipResponse :=
  match c.probed request, randomBytes with
  | some clientNonce, some bytes =>
      let serverNonce := toHex bytes
      ({ c with pendingChallenge := some ⟨clientNonce, serverNonce, now + ChallengeLifetime⟩ },
        c.response crypto (ascii "ownership_proof") clientNonce serverNonce
          (c.proofPayload clientNonce serverNonce))
  | _, _ => (c, none)

/-- The members of a shutdown request that is looked at. -/
def shutdownFields (request : Option Json) : Option (ByteString × ByteString × ByteString) := do
  let request ← request
  guard (c.enabled = true)
  let version ← request.value Json.getInt "protocolVersion" 0
  guard (version = OwnershipProtocolVersion)
  let clientNonce ← request.value Json.getString "clientNonce" []
  let serverNonce ← request.value Json.getString "serverNonce" []
  let authorization ← request.value Json.getString "authorization" []
  return (clientNonce, serverNonce, authorization)

/-- `authorizeShutdown`. -/
def authorizeShutdown (request : Option Json) (now : Nat) : ServerOwnershipController × Bool :=
  match c.shutdownFields request with
  | none => (c, false)
  | some (clientNonce, serverNonce, authorization) =>
      match c.pendingChallenge with
      | none => (c, false)
      | some challenge =>
          if challenge.expiresAt < now || clientNonce != challenge.clientNonce ||
              serverNonce != challenge.serverNonce then
            ({ c with pendingChallenge := none }, false)
          else if c.verifyHmac crypto (c.shutdownPayload clientNonce serverNonce) authorization then
            ({ c with pendingChallenge := none }, true)
          else (c, false)

/-- The nonce of a session request that is answered, up to the answer. -/
def authenticated (request : Option Json) : Option ByteString := do
  let request ← request
  guard (c.enabled = true)
  let version ← request.value Json.getInt "protocolVersion" 0
  guard (version = OwnershipProtocolVersion)
  let clientNonce ← request.value Json.getString "clientNonce" []
  let authorization ← request.value Json.getString "authorization" []
  guard (isHex clientNonce 32 = true)
  let ownerProcessId ← request.value Json.getUnsigned "ownerProcessId" 0
  guard (ownerProcessId = c.identity.ownerProcessId)
  let startTime ← request.value Json.getString "ownerProcessStartTimeUtcFileTime" []
  guard (startTime = decimal c.identity.ownerProcessStartTimeUtcFileTime)
  let environment ← request.value Json.getString "environment" []
  guard (environment = c.identity.environment)
  let runtimeInstanceId ← request.value Json.getString "runtimeInstanceId" []
  guard (runtimeInstanceId = c.identity.runtimeInstanceId)
  let controlInstanceId ← request.value Json.getString "controlInstanceId" []
  guard (controlInstanceId = c.identity.controlInstanceId)
  let pipeName ← request.value Json.getString "pipeName" []
  guard (pipeName = c.identity.pipeName)
  guard (c.verifyHmac crypto (c.sessionRequestPayload clientNonce) authorization = true)
  return clientNonce

/-- `authenticateSession`. -/
def authenticateSession (request : Option Json) (randomBytes : Option ByteString) :
    Option ServerOwnershipResponse :=
  match c.authenticated crypto request, randomBytes with
  | some clientNonce, some bytes =>
      c.response crypto (ascii "session_ready") clientNonce (toHex bytes)
        (c.sessionProofPayload clientNonce (toHex bytes))
  | _, _ => none

end ServerOwnershipController

/-! ## Runs -/

/-- A probe that set a challenge, and a shutdown that was authorized, with its request. -/
inductive OwnershipEvent where
  | probed (time : Nat) (clientNonce serverNonce : ByteString)
  | shutdown (time : Nat) (clientNonce serverNonce authorization : ByteString)
  deriving DecidableEq

structure OwnershipState where
  controller : ServerOwnershipController
  clock : Nat
  log : List OwnershipEvent := []

inductive OwnershipLabel where
  | probe (request : Option Json) (randomBytes : Option ByteString)
  | shutdown (request : Option Json)
  | session (request : Option Json) (randomBytes : Option ByteString)
  | advance (elapsed : Nat)

/-- One call, or time passing. -/
def ownershipStep (crypto : OwnershipCrypto) (s : OwnershipState) :
    OwnershipLabel → Option OwnershipState
  | .probe request randomBytes =>
      some
        { s with
          controller := (s.controller.handleProbe crypto request randomBytes s.clock).1
          log :=
            match s.controller.probed request, randomBytes with
            | some clientNonce, some bytes => s.log ++ [.probed s.clock clientNonce (toHex bytes)]
            | _, _ => s.log }
  | .shutdown request =>
      let answer := s.controller.authorizeShutdown crypto request s.clock
      some
        { s with
          controller := answer.1
          log :=
            match answer.2, s.controller.shutdownFields request with
            | true, some (clientNonce, serverNonce, authorization) =>
                s.log ++ [.shutdown s.clock clientNonce serverNonce authorization]
            | _, _ => s.log }
  -- `authenticateSession` changes nothing.
  | .session _ _ => some s
  | .advance elapsed => some { s with clock := s.clock + elapsed }

/-- A run from a controller that was just constructed. -/
abbrev OwnershipRun (crypto : OwnershipCrypto) : OwnershipState → OwnershipState → Prop :=
  Run (ownershipStep crypto) fun _ _ => True

def OwnershipState.init (crypto : OwnershipCrypto) (identity : ServerOwnershipIdentity)
    (controlTokenHex : ByteString) (clock : Nat) : OwnershipState :=
  ⟨.create crypto identity controlTokenHex, clock, []⟩

variable {crypto : OwnershipCrypto} {c : ServerOwnershipController} {s t : OwnershipState}
variable {l : OwnershipLabel} {request : Option Json} {randomBytes : Option ByteString}
variable {identity : ServerOwnershipIdentity} {controlTokenHex : ByteString} {clock now : Nat}
variable {clientNonce serverNonce authorization : ByteString}

namespace ServerOwnershipController

/-- What an authorized shutdown has presented. -/
structure Authorized (crypto : OwnershipCrypto) (c : ServerOwnershipController)
    (challenge : PendingChallenge) (now : Nat)
    (clientNonce serverNonce authorization : ByteString) : Prop where
  inTime : now ≤ challenge.expiresAt
  client : clientNonce = challenge.clientNonce
  server : serverNonce = challenge.serverNonce
  hex : isHex authorization 64 = true
  mac : decodeHex authorization =
    decodeHex (toHex (crypto.hmac c.controlKey (c.shutdownPayload clientNonce serverNonce)))

/-- **What `authorizeShutdown` does.** -/
theorem authorizeShutdown_cases (crypto : OwnershipCrypto) (c : ServerOwnershipController)
    (request : Option Json) (now : Nat) :
    ((c.authorizeShutdown crypto request now).2 = false ∧
      ((c.authorizeShutdown crypto request now).1 = c ∨
        (c.authorizeShutdown crypto request now).1 = { c with pendingChallenge := none })) ∨
    ((c.authorizeShutdown crypto request now).2 = true ∧
      (c.authorizeShutdown crypto request now).1 = { c with pendingChallenge := none } ∧
      ∃ challenge clientNonce serverNonce authorization, c.pendingChallenge = some challenge ∧
        c.shutdownFields request = some (clientNonce, serverNonce, authorization) ∧
        Authorized crypto c challenge now clientNonce serverNonce authorization) := by
  unfold authorizeShutdown
  split
  · exact .inl ⟨rfl, .inl rfl⟩
  · rename_i clientNonce serverNonce authorization hfields
    split
    · exact .inl ⟨rfl, .inl rfl⟩
    · rename_i challenge hchallenge
      split
      · exact .inl ⟨rfl, .inr rfl⟩
      · rename_i hguard
        split
        · rename_i hmac
          refine .inr ⟨rfl, rfl, challenge, clientNonce, serverNonce, authorization, hchallenge,
            hfields, ?_⟩
          simp only [Bool.or_eq_true, not_or, decide_eq_true_eq, bne_iff_ne, ne_eq, not_not,
            Nat.not_lt] at hguard
          rw [verifyHmac, Bool.and_eq_true, beq_iff_eq] at hmac
          exact ⟨hguard.1.1, hguard.1.2, hguard.2, hmac.1, hmac.2⟩
        · exact .inl ⟨rfl, .inl rfl⟩

end ServerOwnershipController

open ServerOwnershipController

/-- The shutdown answers the probe that was answered last, in time, with both nonces and the MAC of
the shutdown payload. -/
def AnswersProbe (crypto : OwnershipCrypto) (c : ServerOwnershipController)
    (log : List OwnershipEvent) (now : Nat) (clientNonce serverNonce authorization : ByteString) :
    Prop :=
  ∃ pre time, log = pre ++ [.probed time clientNonce serverNonce] ∧ now ≤ time + ChallengeLifetime ∧
    isHex authorization 64 = true ∧ decodeHex authorization =
      decodeHex (toHex (crypto.hmac c.controlKey (c.shutdownPayload clientNonce serverNonce)))

/-- The challenge is that of the last event; every shutdown answered its probe. -/
structure OwnershipOk (crypto : OwnershipCrypto) (c : ServerOwnershipController)
    (s : OwnershipState) : Prop where
  same : ∃ pending, s.controller = { c with pendingChallenge := pending }
  challenge : ∀ challenge, s.controller.pendingChallenge = some challenge → ∃ pre time,
    s.log = pre ++ [.probed time challenge.clientNonce challenge.serverNonce] ∧
      challenge.expiresAt = time + ChallengeLifetime
  past : ∀ pre time clientNonce serverNonce authorization post,
    s.log = pre ++ .shutdown time clientNonce serverNonce authorization :: post →
      AnswersProbe crypto c pre time clientNonce serverNonce authorization

theorem ownershipOk_step (h : OwnershipOk crypto c s) (hst : ownershipStep crypto s l = some t) :
    OwnershipOk crypto c t := by
  obtain ⟨pending, hsame⟩ := h.same
  cases l with
  | probe request randomBytes =>
    simp only [ownershipStep, Option.some.injEq, handleProbe] at hst
    subst hst
    split
    · rename_i clientNonce bytes hprobed
      refine ⟨⟨_, by rw [hsame]⟩, ?_, ?_⟩
      · intro challenge hchallenge
        cases hchallenge
        exact ⟨s.log, s.clock, rfl, rfl⟩
      · intro pre time clientNonce serverNonce authorization post hlog
        rcases split_snoc hlog with ⟨-, heq, -⟩ | ⟨post', -, hlog⟩
        · cases heq
        · exact h.past pre time clientNonce serverNonce authorization post' hlog
    · exact h
  | shutdown request =>
    simp only [ownershipStep, Option.some.injEq] at hst
    subst hst
    rcases authorizeShutdown_cases crypto s.controller request s.clock with
      ⟨hanswer, hcontroller⟩ | ⟨hanswer, hcontroller, challenge, clientNonce, serverNonce,
        authorization, hchallenge, hfields, hauthorized⟩
    · simp only [hanswer]
      rcases hcontroller with hcontroller | hcontroller
      · simp only [hcontroller]
        exact h
      · simp only [hcontroller]
        exact ⟨⟨none, by rw [hsame]⟩, nofun, h.past⟩
    · simp only [hanswer, hfields, hcontroller]
      refine ⟨⟨none, by rw [hsame]⟩, nofun, ?_⟩
      intro pre time clientNonce' serverNonce' authorization' post hlog
      rcases split_snoc hlog with ⟨rfl, heq, -⟩ | ⟨post', -, hlog⟩
      · cases heq
        obtain ⟨pre, time, hlast, hexpires⟩ := h.challenge challenge hchallenge
        refine ⟨pre, time, ?_, ?_, hauthorized.hex, ?_⟩
        · rw [hlast, hauthorized.client, hauthorized.server]
        · have htime := hauthorized.inTime
          omega
        · have hmac := hauthorized.mac
          rw [hsame] at hmac
          exact hmac
      · exact h.past pre time clientNonce' serverNonce' authorization' post' hlog
  | session request randomBytes =>
    simp only [ownershipStep, Option.some.injEq] at hst
    subst hst
    exact h
  | advance elapsed =>
    simp only [ownershipStep, Option.some.injEq] at hst
    subst hst
    exact ⟨h.same, h.challenge, h.past⟩

theorem ownershipOk_of_run
    (hrun : OwnershipRun crypto (.init crypto identity controlTokenHex clock) s) :
    OwnershipOk crypto (.create crypto identity controlTokenHex) s := by
  refine hrun.invariant (I := OwnershipOk crypto _) ⟨⟨_, rfl⟩, ?_, ?_⟩
    fun _ _ _ h _ hst => ownershipOk_step h hst
  · intro challenge hchallenge
    simp only [OwnershipState.init, create] at hchallenge
    split at hchallenge <;> cases hchallenge
  · intro pre time clientNonce serverNonce authorization post hlog
    simp [OwnershipState.init] at hlog

/-- **An authorized shutdown answers the last probe**, which no other shutdown has answered. -/
theorem shutdown_answers_probe
    (hrun : OwnershipRun crypto (.init crypto identity controlTokenHex clock) s)
    {pre post : List OwnershipEvent} {time : Nat}
    (hlog : s.log = pre ++ .shutdown time clientNonce serverNonce authorization :: post) :
    AnswersProbe crypto (.create crypto identity controlTokenHex) pre time clientNonce serverNonce
      authorization :=
  (ownershipOk_of_run hrun).past pre time clientNonce serverNonce authorization post hlog

/-! ## Lines -/

/-- The first line of a text. -/
def firstLine {α : Type} [DecidableEq α] (lineFeed : α) (text : List α) : List α :=
  text.takeWhile (· != lineFeed)

theorem firstLine_joinLines {α : Type} [DecidableEq α] {lineFeed : α} {line : List α}
    {lines : List (List α)} (h : ∀ a ∈ line, a ≠ lineFeed) :
    firstLine lineFeed (joinLines lineFeed (line :: lines)) = line := by
  have hall : ∀ a ∈ line, (a != lineFeed) = true := fun a ha => bne_iff_ne.mpr (h a ha)
  cases lines with
  | nil =>
    simp only [joinLines, firstLine, List.intercalate_singleton]
    exact List.takeWhile_eq_self_iff.mpr hall
  | cons next rest =>
    simp only [joinLines, firstLine, List.intercalate_cons_cons]
    rw [List.append_assoc, List.takeWhile_append_of_pos hall]
    simp

end LocalMediaTransfer
