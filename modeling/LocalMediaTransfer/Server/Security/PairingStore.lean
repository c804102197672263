import LocalMediaTransfer.Server.ByteString

/-!
# Trusted devices

Model of `PairingStore` (`security/PairingStore.cpp`): the trusted devices, the pending requests of
the phone pairing, and the file the trusted devices are saved to.  Every method runs under one
mutex and is one function here.

Saving is the only thing that can fail; whether it works is decided by the environment
(`StoreEnv`).  `SHA-256` is a parameter (`Crypto`).  Left out: `devicesJson`, which only shows the
list, and the layout of the file.
-/

set_option autoImplicit false

namespace LocalMediaTransfer

/-- What the stores take from OpenSSL: SHA-256 and HMAC-SHA-256 in lower-case hex. -/
structure Crypto where
  sha256Hex : ByteString → ByteString
  hmacHex : (key data : ByteString) → ByteString
  sha256Hex_length : ∀ value, (sha256Hex value).length = 64

/-- The digest on a finite list of inputs, and zeros elsewhere. -/
def tabulatedDigest (digests : List (ByteString × ByteString)) (value : ByteString) : ByteString :=
  match digests.lookup value with
  | some digest => if digest.length = 64 then digest else List.replicate 64 48
  | none => List.replicate 64 48

theorem tabulatedDigest_length (digests : List (ByteString × ByteString)) (value : ByteString) :
    (tabulatedDigest digests value).length = 64 := by
  unfold tabulatedDigest
  split
  · split
    · assumption
    · exact List.length_replicate
  · exact List.length_replicate

/-- SHA-256 and HMAC-SHA-256 given by their values on finitely many inputs. -/
def Crypto.tabulated (digests : List (ByteString × ByteString))
    (macs : List ((ByteString × ByteString) × ByteString)) : Crypto where
  sha256Hex := tabulatedDigest digests
  hmacHex key data := (macs.lookup (key, data)).getD []
  sha256Hex_length := tabulatedDigest_length digests

/-- `struct TrustedDevice`. -/
structure TrustedDevice where
  id : ByteString
  name : ByteString
  credentialHash : ByteString
  lastIp : ByteString
  lastSeenUnix : Nat
  clientType : ByteString := ascii "ios"
  authorizationMode : ByteString := ascii "direct_upload"
  deriving DecidableEq

/-- `struct PendingDevice`. -/
structure PendingDevice where
  id : ByteString
  name : ByteString
  credentialHash : ByteString
  lastIp : ByteString
  expiresAt : Nat
  denied : Bool := false
  clientType : ByteString := ascii "ios"
  authorizationMode : ByteString := ascii "direct_upload"
  deriving DecidableEq

/-- `enum class Status`. -/
inductive PairingStatus where
  | pending
  | approved
  | denied
  | atCapacity
  deriving DecidableEq

/-- `MaxPendingRequests`. -/
def MaxPendingRequests : Nat := 32

/-- The lifetime of a pending request, in seconds. -/
def PendingLifetime : Nat := 2 * 60

/-- The store; `disk` are the devices in the file. -/
structure PairingStore where
  pending : List PendingDevice
  trusted : List TrustedDevice
  disk : List TrustedDevice
  deriving DecidableEq

/-- What the environment decides during a call: the clocks, and whether saving works. -/
structure StoreEnv where
  steadyNow : Nat := 0
  unixNow : Nat := 0
  saved : Bool := true
  deriving DecidableEq

/-- The exception of `saveLocked`. -/
def saveError : String := "Unable to persist trusted devices"

/-- The trusted device that a credential belongs to. -/
def findTrusted (crypto : Crypto) (trusted : List TrustedDevice) (credential : ByteString) :
    Option TrustedDevice :=
  if credential.isEmpty then none
  else trusted.find? fun value => value.credentialHash == crypto.sha256Hex credential

namespace PairingStore

/-- `saveLocked`; `none` when it throws. -/
def saveLocked (store : PairingStore) (env : StoreEnv) : Option PairingStore :=
  if env.saved then some { store with disk := store.trusted } else none

/-- `pruneLocked`. -/
def pruneLocked (store : PairingStore) (env : StoreEnv) : PairingStore :=
  { store with pending := store.pending.filter fun item => !(item.expiresAt < env.steadyNow) }

/-- Replace the device with an ID by a new one, as `trustCredentialHash` and `approve` do. -/
def replaceDevice (store : PairingStore) (device : TrustedDevice) : PairingStore :=
  { store with trusted := store.trusted.filter (fun value => value.id != device.id) ++ [device] }

/-- `request`, up to the answer; the exception of `saveLocked` leaves the updated entry. -/
def request (crypto : Crypto) (store : PairingStore) (id name credential ip : ByteString)
    (autoApproveKnown : Bool) (env : StoreEnv) : PairingStore × Except String PairingStatus :=
  if id.isEmpty || credential.length < 32 || 128 < id.length || 128 < name.length then
    (store, .ok .denied)
  else
    let store := store.pruneLocked env
    let hash := crypto.sha256Hex credential
    match store.trusted.findIdx? fun item => item.id == id && item.credentialHash == hash with
    | some index =>
        let store :=
          { store with
            trusted := store.trusted.modify index fun item =>
              { item with name := name, lastIp := ip, lastSeenUnix := env.unixNow } }
        match store.saveLocked env with
        | none => (store, .error saveError)
        | some store =>
            if autoApproveKnown then (store, .ok .approved)
            else if store.pending.any fun item => item.id == id then (store, .ok .pending)
            else if MaxPendingRequests ≤ store.pending.length then (store, .ok .atCapacity)
            else
              let known := store.trusted[index]?
              ({ store with
                  pending := store.pending ++
                    [{ id, name, credentialHash := hash, lastIp := ip
                       expiresAt := env.steadyNow + PendingLifetime
                       clientType := (known.map (·.clientType)).getD []
                       authorizationMode := (known.map (·.authorizationMode)).getD [] }] },
                .ok .pending)
    | none =>
        match store.pending.findIdx? fun item => item.id == id with
        | none =>
            if MaxPendingRequests ≤ store.pending.length then (store, .ok .atCapacity)
            else
              ({ store with
                  pending := store.pending ++
                    [{ id, name, credentialHash := hash, lastIp := ip
                       expiresAt := env.steadyNow + PendingLifetime }] },
                .ok .pending)
        | some index =>
            match store.pending[index]? with
            | none => (store, .ok .pending)
            | some item =>
                if item.credentialHash ≠ hash then
                  ({ store with
                      pending := store.pending.modify index fun item =>
                        { item with
                          name := name, credentialHash := hash, lastIp := ip
                          expiresAt := env.steadyNow + PendingLifetime, denied := false } },
                    .ok .pending)
                else (store, .ok (if item.denied then .denied else .pending))

/-- `status`. -/
def status (crypto : Crypto) (store : PairingStore) (id credential : ByteString) (env : StoreEnv) :
    PairingStore × PairingStatus :=
  let store := store.pruneLocked env
  let hash := crypto.sha256Hex credential
  match store.pending.find? fun item => item.id == id && item.credentialHash == hash with
  | some item => (store, if item.denied then .denied else .pending)
  | none =>
      if store.trusted.any fun item => item.id == id && item.credentialHash == hash then
        (store, .approved)
      else (store, .denied)

/-- `validateCredential`. -/
def validateCredential (crypto : Crypto) (store : PairingStore) (credential : ByteString) : Bool :=
  if credential.isEmpty then false
  else
    store.trusted.any fun item =>
      item.credentialHash == crypto.sha256Hex credential &&
        item.authorizationMode == ascii "direct_upload"

/-- `findDeviceByCredential`. -/
def findDeviceByCredential (crypto : Crypto) (store : PairingStore) (credential : ByteString) :
    Option TrustedDevice := findTrusted crypto store.trusted credential

/-- `trustCredentialHash`; a failed save restores the list. -/
def trustCredentialHash (store : PairingStore) (id name credentialHash ip clientType
    authorizationMode : ByteString) (env : StoreEnv) : PairingStore × Bool :=
  if id.isEmpty || 128 < id.length || 128 < name.length || credentialHash.length != 64 ||
      clientType != ascii "windows" || authorizationMode != ascii "approval_required" then
    (store, false)
  else
    match (store.replaceDevice ⟨id, name, credentialHash, ip, env.unixNow, clientType,
      authorizationMode⟩).saveLocked env with
    | some store => (store, true)
    | none => (store, false)

/-- `approve`. -/
def approve (store : PairingStore) (id : ByteString) (env : StoreEnv) : PairingStore × Bool :=
  let store := store.pruneLocked env
  match store.pending.find? fun value => value.id == id with
  | none => (store, false)
  | some item =>
      match (store.replaceDevice ⟨item.id, item.name, item.credentialHash, item.lastIp, env.unixNow,
        item.clientType, item.authorizationMode⟩).saveLocked env with
      | none => (store, false)
      | some store =>
          ({ store with pending := store.pending.eraseP fun value => value.id == id }, true)

/-- `deny`. -/
def deny (store : PairingStore) (id : ByteString) : PairingStore × Bool :=
  match store.pending.findIdx? fun value => value.id == id with
  | none => (store, false)
  | some index =>
      ({ store with pending := store.pending.modify index fun item =>
        { item with denied := true } },
        true)

/-- `revoke`; a failed save restores the list and throws. -/
def revoke (store : PairingStore) (id : ByteString) (env : StoreEnv) :
    PairingStore × Except String Bool :=
  if store.trusted.all fun value => value.id != id then (store, .ok false)
  else
    match { store with trusted := store.trusted.filter fun value =>
      value.id != id }.saveLocked env with
    | none => (store, .error saveError)
    | some store =>
        ({ store with pending := store.pending.filter fun value => value.id != id }, .ok true)

/-- `revokeAll`. -/
def revokeAll (store : PairingStore) (env : StoreEnv) : PairingStore × Except String Unit :=
  match { store with trusted := [] }.saveLocked env with
  | none => (store, .error saveError)
  | some store => ({ store with pending := [] }, .ok ())

end PairingStore

end LocalMediaTransfer
