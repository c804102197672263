import LocalMediaTransfer.Gui.DotNet
import LocalMediaTransfer.Server.Ipc.ServerOwnership

/-!
# The ownership protocol of the GUI

Model of `ServerOwnershipProtocol` (`Services/Server/ServerOwnershipProtocol.cs`).  Strings are
UTF-16 code units, numbers of type `int` and `long` are integers.  A request is given as the
receiver parses what `JsonSerializer` writes.

* `buildProofPayload`, `buildShutdownPayload`, `buildSessionRequestPayload`,
  `buildSessionProofPayload` — the four texts under a MAC.
* `parseProof`, `verifyProof`, `verifySessionProof` — what is accepted from the server.
-/

set_option autoImplicit false

namespace LocalMediaTransfer

/-- `ServerOwnershipProof`. -/
structure ServerOwnershipProof where
  protocolVersion : Int
  serverProcessId : Int
  serverProcessStartTimeUtcFileTime : Int
  ownerProcessId : Int
  ownerProcessStartTimeUtcFileTime : Int
  environment : WideString
  runtimeInstanceId : WideString
  controlInstanceId : WideString
  pipeName : WideString
  clientNonce : WideString
  serverNonce : WideString
  credentialId : WideString
  proof : WideString
  deriving DecidableEq

/-- `PipeSessionExpectation`. -/
structure PipeSessionExpectation where
  expectedServerProcessId : Int
  expectedServerProcessStartTimeUtcFileTime : Int
  ownerProcessId : Int
  ownerProcessStartTimeUtcFileTime : Int
  environment : WideString
  runtimeInstanceId : WideString
  controlInstanceId : WideString
  pipeName : WideString
  controlKey : ByteString
  deriving DecidableEq

/-- `IsLowerHex`. -/
def isLowerHexText (value : WideString) (length : Nat) : Bool :=
  value.length == length && value.all fun u => (48 ≤ u && u ≤ 57) || (97 ≤ u && u ≤ 102)

/-- `Encoding.ASCII.GetBytes`. -/
def asciiBytes (value : WideString) : ByteString :=
  value.map fun u => if u < 128 then UInt8.ofNat u.toNat else 63

/-- `FixedTimeHexEquals`. -/
def fixedTimeHexEquals (left right : WideString) : Bool :=
  left.length == right.length && asciiBytes left == asciiBytes right

namespace ServerOwnershipProtocol

variable (crypto : OwnershipCrypto) (proof : ServerOwnershipProof)
variable (expectation : PipeSessionExpectation)

/-- `BuildProofPayload`. -/
def buildProofPayload : WideString :=
  joinLines 10
    [wide "lmt-ownership-proof-v1", proof.clientNonce, proof.serverNonce,
      invariantDecimal proof.serverProcessId,
      invariantDecimal proof.serverProcessStartTimeUtcFileTime,
      invariantDecimal proof.ownerProcessId,
      invariantDecimal proof.ownerProcessStartTimeUtcFileTime, proof.environment,
      proof.runtimeInstanceId, proof.controlInstanceId, proof.pipeName, proof.credentialId]

/-- `BuildShutdownPayload`. -/
def buildShutdownPayload : WideString :=
  joinLines 10
    [wide "lmt-shutdown-v1", proof.clientNonce, proof.serverNonce,
      invariantDecimal proof.serverProcessId,
      invariantDecimal proof.serverProcessStartTimeUtcFileTime, proof.environment,
      proof.runtimeInstanceId, proof.controlInstanceId, proof.pipeName]

/-- `BuildSessionRequestPayload`. -/
def buildSessionRequestPayload (clientNonce : WideString) : WideString :=
  joinLines 10
    [wide "lmt-pipe-session-request-v1", clientNonce, invariantDecimal expectation.ownerProcessId,
      invariantDecimal expectation.ownerProcessStartTimeUtcFileTime, expectation.environment,
      expectation.runtimeInstanceId, expectation.controlInstanceId, expectation.pipeName]

/-- `BuildSessionProofPayload`. -/
def buildSessionProofPayload : WideString :=
  joinLines 10
    [wide "lmt-pipe-session-proof-v1", proof.clientNonce, proof.serverNonce,
      invariantDecimal proof.serverProcessId,
      invariantDecimal proof.serverProcessStartTimeUtcFileTime,
      invariantDecimal proof.ownerProcessId,
      invariantDecimal proof.ownerProcessStartTimeUtcFileTime, proof.environment,
      proof.runtimeInstanceId, proof.controlInstanceId, proof.pipeName, proof.credentialId]

/-- `CreateProbe`. -/
def createProbe (clientNonce : WideString) : Json :=
  .object [(ascii "protocolVersion", .integer 1),
    (ascii "clientNonce", .string (wideToUtf8 clientNonce))]

/-- `CreateShutdownRequest`. -/
def createShutdownRequest (controlKey : ByteString) : Json :=
  let authorization := crypto.hmac controlKey (wideToUtf8 (buildShutdownPayload proof))
  .object [(ascii "protocolVersion", .integer 1),
    (ascii "clientNonce", .string (wideToUtf8 proof.clientNonce)),
    (ascii "serverNonce", .string (wideToUtf8 proof.serverNonce)),
    (ascii "authorization", .string (wideToUtf8 (hexLower authorization)))]

/-- `CreateSessionRequest`. -/
def createSessionRequest (clientNonce : WideString) : Json :=
  let authorization := crypto.hmac expectation.controlKey
    (wideToUtf8 (buildSessionRequestPayload expectation clientNonce))
  .object [(ascii "protocolVersion", .integer 1),
    (ascii "clientNonce", .string (wideToUtf8 clientNonce)),
    (ascii "ownerProcessId", .integer expectation.ownerProcessId),
    (ascii "ownerProcessStartTimeUtcFileTime",
      .string (wideToUtf8 (invariantDecimal expectation.ownerProcessStartTimeUtcFileTime))),
    (ascii "environment", .string (wideToUtf8 expectation.environment)),
    (ascii "runtimeInstanceId", .string (wideToUtf8 expectation.runtimeInstanceId)),
    (ascii "controlInstanceId", .string (wideToUtf8 expectation.controlInstanceId)),
    (ascii "pipeName", .string (wideToUtf8 expectation.pipeName)),
    (ascii "authorization", .string (wideToUtf8 (hexLower authorization)))]

/-- `ParseProof`; `none` when a getter throws. -/
def parseProof (response : ServerOwnershipResponse) : Option ServerOwnershipProof := do
  return {
    protocolVersion := ← getInt32 response.protocolVersion
    serverProcessId := ← getInt32 response.serverProcessId
    serverProcessStartTimeUtcFileTime :=
      ← (utf8ToWide response.serverProcessStartTimeUtcFileTime).bind parseLong
    ownerProcessId := ← getInt32 response.ownerProcessId
    ownerProcessStartTimeUtcFileTime :=
      ← (utf8ToWide response.ownerProcessStartTimeUtcFileTime).bind parseLong
    environment := ← utf8ToWide response.environment
    runtimeInstanceId := ← utf8ToWide response.runtimeInstanceId
    controlInstanceId := ← utf8ToWide response.controlInstanceId
    pipeName := ← utf8ToWide response.pipeName
    clientNonce := ← utf8ToWide response.clientNonce
    serverNonce := ← utf8ToWide response.serverNonce
    credentialId := ← utf8ToWide response.credentialId
    proof := ← utf8ToWide response.proof }

/-- The checks on the form of a proof that both verifications make. -/
def wellFormed (controlKey : ByteString) (expectedClientNonce : WideString) : Bool :=
  controlKey.length == 32 && proof.protocolVersion == OwnershipProtocolVersion &&
    proof.clientNonce == expectedClientNonce && isLowerHexText proof.clientNonce 32 &&
    isLowerHexText proof.serverNonce 32 && isLowerHexText proof.proof 64 &&
    isLowerHexText proof.credentialId 64

/-- The credential ID and the MAC of a proof. -/
def signed (controlKey : ByteString) (payload : WideString) : Bool :=
  fixedTimeHexEquals (hexLower (crypto.sha256 controlKey)) proof.credentialId &&
    fixedTimeHexEquals (hexLower (crypto.hmac controlKey (wideToUtf8 payload))) proof.proof

/-- `VerifyProof`. -/
def verifyProof (controlKey : ByteString) (expectedClientNonce : WideString) : Bool :=
  wellFormed proof controlKey expectedClientNonce &&
    signed crypto proof controlKey (buildProofPayload proof)

/-- `VerifySessionProof`. -/
def verifySessionProof (expectedClientNonce : WideString) : Bool :=
  wellFormed proof expectation.controlKey expectedClientNonce &&
    proof.ownerProcessId == expectation.ownerProcessId &&
    proof.ownerProcessStartTimeUtcFileTime == expectation.ownerProcessStartTimeUtcFileTime &&
    proof.environment == expectation.environment &&
    proof.runtimeInstanceId == expectation.runtimeInstanceId &&
    proof.controlInstanceId == expectation.controlInstanceId &&
    proof.pipeName == expectation.pipeName &&
    proof.serverProcessId == expectation.expectedServerProcessId &&
    proof.serverProcessStartTimeUtcFileTime ==
      expectation.expectedServerProcessStartTimeUtcFileTime &&
    signed crypto proof expectation.controlKey (buildSessionProofPayload proof)

end ServerOwnershipProtocol

end LocalMediaTransfer
