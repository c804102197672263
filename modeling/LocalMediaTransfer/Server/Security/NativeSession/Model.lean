import LocalMediaTransfer.Lib.Table
import LocalMediaTransfer.Server.Security.PairingStore

/-!
# The native session store

Model of `NativeSessionStore` (`security/NativeSessionStore.cpp`): pairing requests of Windows
senders, which need a confirmation of the sender and an approval of the receiver, and transfer
requests, which carry a manifest and need an approval.  Every method runs under one mutex; it is one
function here from the store, the time and its arguments to the new store and the answer.

The clock stands still during a call.  Request IDs come from the random generator and are arguments
of the two methods that draw one.  Bodies are parsed JSON with the defaults of the source filled in;
a field of the wrong type throws before the store is touched.  Left out: the notifications to the
local pipe and the security code that only they carry, and `identity`.
-/

set_option autoImplicit false

namespace LocalMediaTransfer

open Lib

/-! ## Constants, in seconds -/

def MaxPairingRequests : Nat := 5
def MaxTransferRequests : Nat := 10
/-- `TransferLimits::MaxQueuedFiles`. -/
def MaxTransferFiles : Nat := 1000
/-- `TransferLimits::MaxFileBytes`. -/
def MaxFileBytes : Nat := 107374182400
def PairingLifetime : Nat := 2 * 60
def TransferIdleLifetime : Nat := 30 * 60
def TransferAbsoluteLifetime : Nat := 24 * 60 * 60
/-- How long a pairing attempt counts against its source. -/
def AttemptLifetime : Nat := 10 * 60

/-! ## Data -/

/-- `enum class PairState`. -/
inductive PairState where
  | pending
  | senderConfirmed
  | receiverConfirmed
  | approved
  | denied
  deriving DecidableEq

/-- `enum class TransferState`. -/
inductive TransferState where
  | pending
  | approved
  | denied
  | cancelled
  deriving DecidableEq

/-- `struct PairingRequest`. -/
structure PairingRequest where
  requestId : ByteString
  deviceId : ByteString
  deviceName : ByteString
  ip : ByteString
  clientNonce : ByteString
  credentialHash : ByteString
  expectedProof : ByteString
  expiresAt : Nat
  state : PairState := .pending
  deriving DecidableEq

/-- `struct TransferFile`. -/
structure TransferFile where
  fileId : ByteString
  name : ByteString
  sizeBytes : Nat
  terminal : Bool := false
  deriving DecidableEq

/-- `struct TransferRequest`. -/
structure TransferRequest where
  requestId : ByteString
  transferId : ByteString
  deviceId : ByteString
  deviceName : ByteString
  ip : ByteString
  tokenHash : ByteString
  skipExactDuplicates : Bool := true
  files : List TransferFile
  createdAt : Nat
  lastActivity : Nat
  expiresAt : Nat
  state : TransferState := .pending
  deriving DecidableEq

/-- What the store is built with. -/
structure NativeConfig where
  crypto : Crypto
  serverId : ByteString
  environment : ByteString
  /-- `m_grantMaster`. -/
  grantMaster : ByteString
  isLocalSubnetAddress : ByteString → Bool

structure NativeSessionStore where
  pairingStore : PairingStore
  pairingWindowExpiresAt : Nat := 0
  pairings : Table ByteString PairingRequest := ∅
  transfers : Table ByteString TransferRequest := ∅
  pairingAttempts : Table ByteString (List Nat) := ∅

/-- The JSON bodies of the answers. -/
inductive NativeBody where
  | error (code message : String) (retryable : Bool)
  | pairingRequested (requestId : ByteString)
  | status (text : String)
  | transferRequested (requestId transferId : ByteString)
  | granted (transferId token : ByteString)
  | ok
  deriving DecidableEq

/-- `struct Result`. -/
structure NativeResult where
  status : Nat := 200
  body : NativeBody
  deriving DecidableEq

/-- `error`. -/
def nativeError (status : Nat) (code message : String) : NativeResult :=
  ⟨status, .error code message false⟩

/-! ## Text helpers -/

/-- `isHex`. -/
def isHex (value : ByteString) (length : Nat) : Bool :=
  value.length == length && value.all isXDigit

/-- `isSafeIdentifier`. -/
def isSafeIdentifier (value : ByteString) (maxLength : Nat) : Bool :=
  !value.isEmpty && value.length ≤ maxLength && value.all isSafeByte

/-- `constantTimeEqual`. -/
def constantTimeEqual (left right : ByteString) : Bool :=
  left.length == right.length && !left.isEmpty && left == right

/-- `appendCanonical`: a field with its length as four big-endian bytes. -/
def canonical (value : ByteString) : ByteString :=
  let length := value.length % 2 ^ 32
  [UInt8.ofNat (length / 2 ^ 24), UInt8.ofNat (length / 2 ^ 16 % 256),
    UInt8.ofNat (length / 2 ^ 8 % 256), UInt8.ofNat (length % 256)] ++ value

/-- `decodeHex`. -/
def decodeHex : ByteString → ByteString
  | h1 :: h2 :: rest => (hexToNibble h1 <<< 4 ||| hexToNibble h2) :: decodeHex rest
  | _ => []

/-- `confirmationProof`. -/
def confirmationProof (crypto : Crypto) (credential requestId clientNonce : ByteString) :
    ByteString :=
  crypto.hmacHex (decodeHex credential)
    (canonical (ascii "LMT-WINDOWS-PAIR-CONFIRM-V1") ++ canonical requestId ++
      canonical clientNonce)

/-- The material of a transfer grant. -/
def tokenMaterial (requestId transferId deviceId : ByteString) : ByteString :=
  canonical (ascii "LMT-WINDOWS-TRANSFER-GRANT-V1") ++ canonical requestId ++
    canonical transferId ++
    canonical deviceId

/-- The token of a transfer request. -/
def transferToken (cfg : NativeConfig) (requestId transferId deviceId : ByteString) : ByteString :=
  cfg.crypto.hmacHex cfg.grantMaster (tokenMaterial requestId transferId deviceId)

/-! ## Pruning -/

/-- `isActivePairingState`. -/
def PairState.isActive : PairState → Bool
  | .pending | .senderConfirmed | .receiverConfirmed => true
  | _ => false

/-- Whether `pruneLocked` erases a transfer. -/
def TransferRequest.prunable (transfer : TransferRequest) (now : Nat) : Bool :=
  match transfer.state with
  | .pending | .denied => transfer.expiresAt < now
  | .approved =>
      transfer.lastActivity + TransferIdleLifetime < now ||
        transfer.createdAt + TransferAbsoluteLifetime < now
  | .cancelled => true

/-! ## Request bodies -/

/-- The body of a pairing request. -/
structure PairingBody where
  protocolVersion : Nat := 0
  environment : ByteString := []
  serverId : ByteString := []
  clientId : ByteString := []
  clientName : ByteString := ascii "Windows computer"
  clientNonce : ByteString := []
  credential : ByteString := []

/-- The checks of `requestPairing` before it takes the mutex. -/
def PairingBody.valid (cfg : NativeConfig) (body : PairingBody) : Bool :=
  body.protocolVersion == 1 && body.environment == cfg.environment &&
    body.serverId == cfg.serverId && isSafeIdentifier body.clientId 128 &&
    !body.clientName.isEmpty && body.clientName.length ≤ 128 && isHex body.clientNonce 64 &&
    isHex body.credential 64

/-- The new pairing request. -/
def PairingBody.toRequest (cfg : NativeConfig) (now : Nat) (body : PairingBody)
    (ip requestId : ByteString) : PairingRequest where
  requestId := requestId
  deviceId := body.clientId
  deviceName := body.clientName
  ip := ip
  clientNonce := body.clientNonce
  credentialHash := cfg.crypto.sha256Hex body.credential
  expectedProof := confirmationProof cfg.crypto body.credential requestId body.clientNonce
  expiresAt := now + PairingLifetime

/-- The body of a transfer request; `files` is `none` when there is no such array. -/
structure TransferBody where
  protocolVersion : Nat := 0
  clientSessionId : ByteString := []
  skipExactDuplicates : Bool := true
  files : Option (List TransferFile) := none

/-- The checks of `requestTransfer` on the body as a whole. -/
def TransferBody.valid (body : TransferBody) : Bool :=
  body.protocolVersion == 1 && body.clientSessionId.length == 36 &&
    (ascii "win-").isPrefixOf body.clientSessionId && isHex (body.clientSessionId.drop 4) 32 &&
    match body.files with
    | none => false
    | some files => !files.isEmpty && files.length ≤ MaxTransferFiles

/-- The check of one manifest entry against the accepted ones before it. -/
def TransferFile.valid (clientSessionId : ByteString) (accepted : List TransferFile)
    (totalBytes : Nat) (file : TransferFile) : Bool :=
  isSafeIdentifier file.fileId 128 && (clientSessionId ++ [45]).isPrefixOf file.fileId &&
    !file.name.isEmpty && file.name.length ≤ 200 && file.sizeBytes != 0 &&
    file.sizeBytes ≤ MaxFileBytes && totalBytes ≤ 2 ^ 64 - 1 - file.sizeBytes &&
    !accepted.any fun existing => existing.fileId == file.fileId

/-- The loop over the manifest; `none` at the first invalid entry. -/
def acceptFiles (clientSessionId : ByteString) :
    List TransferFile → List TransferFile → Nat → Option (List TransferFile)
  | [], accepted, _ => some accepted
  | file :: rest, accepted, totalBytes =>
      if file.valid clientSessionId accepted totalBytes then
        acceptFiles clientSessionId rest (accepted ++ [{ file with terminal := false }])
          (totalBytes + file.sizeBytes)
      else none

/-- The new transfer request. -/
def TransferBody.toRequest (cfg : NativeConfig) (now : Nat) (body : TransferBody)
    (files : List TransferFile) (device : TrustedDevice)
    (ip requestId : ByteString) : TransferRequest :=
  let transferId := body.clientSessionId.drop 4
  { requestId, transferId
    deviceId := device.id
    deviceName := device.name
    ip
    tokenHash := cfg.crypto.sha256Hex (transferToken cfg requestId transferId device.id)
    skipExactDuplicates := body.skipExactDuplicates
    files
    createdAt := now
    lastActivity := now
    expiresAt := now + PairingLifetime }

/-! ## Tables of results -/

/-- The entry with the least `key` among those that meet `p`; the first one of several. -/
def oldest {ν : Type} (p : ν → Bool) (key : ν → Nat)
    (entries : List (Sigma fun _ : ByteString => ν)) :
    Option ByteString :=
  let candidates := entries.filter fun e => p e.2
  (candidates.foldl (fun best e =>
    match best with
    | none => some e
    | some b => if key e.2 < key b.2 then some e else some b) none).map (·.1)

/-- Erase the oldest entry among those that meet `p`. -/
def eraseOldest {ν : Type} (p : ν → Bool) (key : ν → Nat) (table : Table ByteString ν) :
    Table ByteString ν :=
  match oldest p key table.entries with
  | none => table
  | some id => table.erase id

namespace NativeSessionStore

variable (cfg : NativeConfig) (store : NativeSessionStore) (now : Nat)

/-- `pruneLocked`. -/
def pruneLocked : NativeSessionStore :=
  { store with
    pairings := store.pairings.filter fun _ item => !(item.expiresAt ≤ now)
    transfers := store.transfers.filter fun _ item => !item.prunable now
    pairingAttempts := store.pairingAttempts.mapVal fun _ attempts =>
      attempts.filter fun time => !(time + AttemptLifetime < now) }

/-- Change one pairing request. -/
def updatePairing (requestId : ByteString) (item : PairingRequest) : NativeSessionStore :=
  { store with pairings := store.pairings.update requestId item }

/-- Change one transfer request. -/
def updateTransfer (requestId : ByteString) (item : TransferRequest) : NativeSessionStore :=
  { store with transfers := store.transfers.update requestId item }

/-! ## Pairing -/

/-- `beginPairingWindow`. -/
def beginPairingWindow : NativeSessionStore :=
  { store with pairingWindowExpiresAt := now + PairingLifetime }

/-- `endPairingWindow`. -/
def endPairingWindow : NativeSessionStore := { store with pairingWindowExpiresAt := 0 }

/-- The pairing requests once a new one of `deviceId` is admitted: earlier results of the device
are retired, and the table stays bounded. -/
def retirePairings (pairings : Table ByteString PairingRequest) (deviceId : ByteString) :
    Table ByteString PairingRequest :=
  let pairings := pairings.filter fun _ item => !(item.deviceId == deviceId && !item.state.isActive)
  if MaxPairingRequests * 4 ≤ pairings.entries.length then
    eraseOldest (fun item => !item.state.isActive) (·.expiresAt) pairings
  else pairings

/-- `requestPairing`. -/
def requestPairing (body : PairingBody) (ip requestId : ByteString) :
    NativeSessionStore × NativeResult :=
  if !cfg.isLocalSubnetAddress ip then
    (store, nativeError 403 "source_not_local"
      "Windows pairing is limited to this computer's local subnets.")
  else if !body.valid cfg then
    (store, nativeError 400 "invalid_pairing_request" "The pairing request is invalid.")
  else
    let store := store.pruneLocked now
    if store.pairingWindowExpiresAt ≤ now then
      (store, nativeError 403 "pairing_window_closed" "Windows pairing is not currently enabled.")
    else if MaxPairingRequests ≤ store.pairings.entries.countP (fun e => e.2.state.isActive) ||
        store.pairings.entries.any (fun e =>
          e.2.deviceId == body.clientId && e.2.state.isActive) then
      (store, nativeError 409 "pairing_already_pending"
        "A pairing request for this computer is already pending.")
    else
      let attempts := (store.pairingAttempts.lookup ip).getD []
      if 5 ≤ attempts.length then
        ({ store with pairingAttempts := store.pairingAttempts.insert ip attempts },
          ⟨429, .error "pairing_rate_limited" "Too many pairing requests. Try again later." true⟩)
      else
        ({ store with
            pairingAttempts := store.pairingAttempts.insert ip (attempts ++ [now])
            pairings := (retirePairings store.pairings body.clientId).emplace requestId
              (body.toRequest cfg now ip requestId) },
          ⟨202, .pairingRequested requestId⟩)

/-- `trustCredentialHash` on behalf of a pairing request. -/
def trust (item : PairingRequest) (env : StoreEnv) : PairingStore × Bool :=
  store.pairingStore.trustCredentialHash item.deviceId item.deviceName item.credentialHash item.ip
    (ascii "windows") (ascii "approval_required") env

/-- `confirmPairing`. -/
def confirmPairing (requestId proof : ByteString) (env : StoreEnv) :
    NativeSessionStore × NativeResult :=
  let store := store.pruneLocked now
  match store.pairings.lookup requestId with
  | none => (store, nativeError 404 "pairing_request_expired" "The pairing request has expired.")
  | some item =>
      if item.state = .denied then
        (store, nativeError 403 "pairing_confirmation_rejected"
          "The receiver declined the pairing request.")
      else if !constantTimeEqual proof item.expectedProof then
        (if item.state.isActive then store.updatePairing requestId { item with state := .denied }
          else store,
          nativeError 403 "pairing_confirmation_rejected"
            "The pairing confirmation was rejected.")
      else
        match item.state with
        | .receiverConfirmed =>
            let trusted := store.trust item env
            if trusted.2 then
              ({ store with pairingStore := trusted.1 }.updatePairing requestId
                { item with state := .approved }, ⟨200, .status "approved"⟩)
            else
              ({ store with pairingStore := trusted.1 },
                nativeError 500 "pairing_persistence_failed"
                "The receiver could not save the trusted computer.")
        | .pending =>
            (store.updatePairing requestId { item with state := .senderConfirmed },
              ⟨200, .status "confirmed"⟩)
        | .approved => (store, ⟨200, .status "approved"⟩)
        | _ => (store, ⟨200, .status "confirmed"⟩)

/-- `pairingStatus`. -/
def pairingStatus (requestId clientId credential : ByteString) :
    NativeSessionStore × NativeResult :=
  let store := store.pruneLocked now
  match store.pairings.lookup requestId with
  | none => (store, nativeError 404 "pairing_request_expired" "The pairing request has expired.")
  | some item =>
      if item.deviceId != clientId ||
          !constantTimeEqual item.credentialHash (cfg.crypto.sha256Hex credential) then
        (store, nativeError 404 "pairing_request_expired" "The pairing request has expired.")
      else
        match item.state with
        | .approved => (store, ⟨200, .status "approved"⟩)
        | .denied => (store, ⟨403, .status "denied"⟩)
        | _ => (store, ⟨200, .status "pending"⟩)

/-- `approvePairing`. -/
def approvePairing (requestId : ByteString) (env : StoreEnv) : NativeSessionStore × Bool :=
  let store := store.pruneLocked now
  match store.pairings.lookup requestId with
  | none => (store, false)
  | some item =>
      match item.state with
      | .denied => (store, false)
      | .pending =>
          (store.updatePairing requestId { item with state := .receiverConfirmed }, true)
      | .receiverConfirmed | .approved => (store, true)
      | .senderConfirmed =>
          let trusted := store.trust item env
          if trusted.2 then
            ({ store with pairingStore := trusted.1 }.updatePairing requestId
              { item with state := .approved }, true)
          else ({ store with pairingStore := trusted.1 }, false)

/-- `denyPairing`. -/
def denyPairing (requestId : ByteString) : NativeSessionStore × Bool :=
  let store := store.pruneLocked now
  match store.pairings.lookup requestId with
  | none => (store, false)
  | some item =>
      match item.state with
      | .approved => (store, false)
      | .denied => (store, true)
      | _ => (store.updatePairing requestId { item with state := .denied }, true)

/-! ## Revocation -/

/-- `revokeDeviceLocked`. -/
def revokeDeviceLocked (deviceId : ByteString) : NativeSessionStore :=
  { store with
    pairings := store.pairings.filter fun _ item => item.deviceId != deviceId
    transfers := store.transfers.mapVal fun _ item =>
      if item.deviceId == deviceId then { item with state := .cancelled } else item }

/-- `revokeDevice`; the error is an exception. -/
def revokeDevice (deviceId : ByteString) (env : StoreEnv) :
    NativeSessionStore × Except String Bool :=
  let revoked := store.pairingStore.revoke deviceId env
  match revoked.2 with
  | .error what => ({ store with pairingStore := revoked.1 }, .error what)
  | .ok false => ({ store with pairingStore := revoked.1 }, .ok false)
  | .ok true => ({ store with pairingStore := revoked.1 }.revokeDeviceLocked deviceId, .ok true)

/-- Whether a device may use native transfers. -/
def nativeDevice (device : TrustedDevice) : Bool :=
  device.clientType == ascii "windows" && device.authorizationMode == ascii "approval_required"

/-- `revokeCurrentDevice`; the error is an exception. -/
def revokeCurrentDevice (credential ip : ByteString) (env : StoreEnv) :
    NativeSessionStore × Except String NativeResult :=
  if !cfg.isLocalSubnetAddress ip then
    (store, .ok (nativeError 403 "source_not_local"
      "Windows unpairing is limited to this computer's local subnets."))
  else
    let rejected :=
      nativeError 401 "credential_rejected" "The trusted-device credential was rejected."
    match store.pairingStore.findDeviceByCredential cfg.crypto credential with
    | none => (store, .ok rejected)
    | some device =>
        if !nativeDevice device then (store, .ok rejected)
        else
          let revoked := store.revokeDevice device.id env
          match revoked.2 with
          | .error what => (revoked.1, .error what)
          | .ok false => (revoked.1, .ok rejected)
          | .ok true => (revoked.1, .ok ⟨200, .status "unpaired"⟩)

/-- `revokeAll`. -/
def revokeAll (env : StoreEnv) : NativeSessionStore × Except String Unit :=
  let revoked := store.pairingStore.revokeAll env
  match revoked.2 with
  | .error what => ({ store with pairingStore := revoked.1 }, .error what)
  | .ok () =>
      ({ store with
          pairingStore := revoked.1, pairings := ∅, transfers := ∅, pairingWindowExpiresAt := 0 },
        .ok ())

/-! ## Transfers -/

/-- The transfers once a new one is admitted: the table of results stays bounded. -/
def retireTransfers (transfers : Table ByteString TransferRequest) :
    Table ByteString TransferRequest :=
  if MaxTransferRequests * 4 ≤ transfers.entries.length then
    eraseOldest (fun item => item.state == .denied) (·.createdAt) transfers
  else transfers

/-- `requestTransfer`. -/
def requestTransfer (body : TransferBody) (credential ip requestId : ByteString) :
    NativeSessionStore × NativeResult :=
  if !cfg.isLocalSubnetAddress ip then
    (store, nativeError 403 "source_not_local"
      "Native Windows transfer is limited to local subnets.")
  else
    let rejected :=
      nativeError 401 "credential_rejected" "The trusted-device credential was rejected."
    match store.pairingStore.findDeviceByCredential cfg.crypto credential with
    | none => (store, rejected)
    | some device =>
        if !nativeDevice device then (store, rejected)
        else if !body.valid then
          (store, nativeError 400 "invalid_transfer_request" "The transfer manifest is invalid.")
        else
          match acceptFiles body.clientSessionId (body.files.getD []) [] 0 with
          | none =>
              (store, nativeError 400 "invalid_transfer_manifest"
                "A transfer file entry is invalid.")
          | some files =>
              let store := store.pruneLocked now
              if MaxTransferRequests ≤ store.transfers.entries.countP (fun e =>
                    e.2.state == .pending || e.2.state == .approved) ||
                  store.transfers.entries.any (fun e =>
                    e.2.deviceId == device.id && e.2.state == .pending) then
                (store, nativeError 409 "transfer_already_pending"
                  "A transfer request from this computer is already pending.")
              else
                let request := body.toRequest cfg now files device ip requestId
                ({ store with
                    transfers := (retireTransfers store.transfers).emplace requestId request },
                  ⟨202, .transferRequested requestId request.transferId⟩)

/-- `transferTokenLocked`. -/
def transferTokenLocked (transfer : TransferRequest) : Option ByteString :=
  let token := transferToken cfg transfer.requestId transfer.transferId transfer.deviceId
  if constantTimeEqual (cfg.crypto.sha256Hex token) transfer.tokenHash then some token else none

/-- `transferStatus`. -/
def transferStatus (requestId credential : ByteString) : NativeSessionStore × NativeResult :=
  match store.pairingStore.findDeviceByCredential cfg.crypto credential with
  | none =>
      (store, nativeError 401 "credential_rejected" "The trusted-device credential was rejected.")
  | some device =>
      let store := store.pruneLocked now
      let expired := nativeError 404 "transfer_request_expired" "The transfer request has expired."
      match store.transfers.lookup requestId with
      | none => (store, expired)
      | some item =>
          if item.deviceId != device.id then (store, expired)
          else
            match item.state with
            | .denied =>
                (store, nativeError 403 "transfer_denied" "The receiver declined the transfer.")
            | .approved =>
                match transferTokenLocked cfg item with
                | none =>
                    (store, nativeError 500 "grant_unavailable"
                      "The transfer grant is unavailable.")
                | some token => (store, ⟨200, .granted item.transferId token⟩)
            | _ => (store, ⟨200, .status "pending"⟩)

/-- `approveTransfer`. -/
def approveTransfer (requestId : ByteString) : NativeSessionStore × Bool :=
  let store := store.pruneLocked now
  match store.transfers.lookup requestId with
  | none => (store, false)
  | some item =>
      if item.state = .pending then
        (store.updateTransfer requestId { item with state := .approved, lastActivity := now }, true)
      else (store, false)

/-- `denyTransfer`. -/
def denyTransfer (requestId : ByteString) : NativeSessionStore × Bool :=
  match store.transfers.lookup requestId with
  | none => (store, false)
  | some item => (store.updateTransfer requestId { item with state := .denied }, true)

/-- The approved transfer that a token is for. -/
def findGrant (token transferId : ByteString) : Option (ByteString × TransferRequest) :=
  (store.transfers.entries.find? fun e =>
    e.2.transferId == transferId && e.2.state == .approved &&
      constantTimeEqual e.2.tokenHash (cfg.crypto.sha256Hex token)).map fun e => (e.1, e.2)

/-- `authorizeTransfer`. -/
def authorizeTransfer (token transferId : ByteString) : NativeSessionStore × Bool :=
  if !isHex token 64 || !isHex transferId 32 then (store, false)
  else
    let store := store.pruneLocked now
    match store.findGrant cfg token transferId with
    | none => (store, false)
    | some (id, item) => (store.updateTransfer id { item with lastActivity := now }, true)

/-- `authorizeFile`. -/
def authorizeFile (token transferId fileId name : ByteString) (sizeBytes : Nat)
    (skipExactDuplicates : Bool) : NativeSessionStore × Bool :=
  let store := store.pruneLocked now
  match store.findGrant cfg token transferId with
  | none => (store, false)
  | some (id, item) =>
      if item.skipExactDuplicates != skipExactDuplicates then (store, false)
      else if item.files.any fun value =>
          value.fileId == fileId && value.name == name && value.sizeBytes == sizeBytes then
        (store.updateTransfer id { item with lastActivity := now }, true)
      else (store, false)

/-- `markFileTerminal`. -/
def markFileTerminal (transferId fileId : ByteString) : NativeSessionStore :=
  match store.transfers.entries.find? fun e => e.2.transferId == transferId with
  | none => store
  | some e =>
      match e.2.files.findIdx? fun value => value.fileId == fileId with
      | none => store
      | some index =>
          store.updateTransfer e.1
            { e.2 with files := e.2.files.modify index fun file => { file with terminal := true } }

/-- `cancelTransfer`. -/
def cancelTransfer (transferId token : ByteString) : NativeSessionStore × NativeResult :=
  match store.transfers.entries.find? fun e =>
      e.2.transferId == transferId &&
        constantTimeEqual e.2.tokenHash (cfg.crypto.sha256Hex token) with
  | none =>
      (store, nativeError 401 "transfer_grant_rejected" "The transfer grant was rejected.")
  | some e => (store.updateTransfer e.1 { e.2 with state := .cancelled }, ⟨200, .ok⟩)

end NativeSessionStore

end LocalMediaTransfer
