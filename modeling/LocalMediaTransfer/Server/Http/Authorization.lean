import LocalMediaTransfer.Server.Http.TransferCancel

/-!
# Upload authorization

The bearer secrets of `HttpServer` (`server/HttpServer.cpp`): the session token, the browser
sessions, the trusted devices and the native transfer grants, and the functions that check the one
credential of a request against them.  Session token and browser sessions are under the auth mutex,
the two stores under their own; `validateToken` and `authorizeUpload` take these one after the other
and hold none in between, so each check is a step of its own (`authStep`).

* `AuthCoherent` — the invariant: a call that goes on past the session token ran when there was one,
  and a token is never taken away.
* `AuthStep`, `authStep_spec` — one step moves at most one call and lets through only what is
  justified in the state it starts from.
* `upload_privilege_separation` — **which secrets open what**, for every accepted call and every
  accepted record of a run.

The two stores may be absent (`AuthConfig`).  Left out: what handlers do with an accepted request.
-/

set_option autoImplicit false

namespace LocalMediaTransfer

open Lib

/-! ## Requests -/

/-- What authorization reads of a request: the headers, and the string `token` of a JSON body. -/
structure AuthRequest where
  uploadToken : ByteString := []
  sessionToken : ByteString := []
  bodyToken : ByteString := []
  transferId : ByteString := []
  deriving DecidableEq

/-- `getTokenFromRequest`. -/
def getTokenFromRequest (req : AuthRequest) : ByteString :=
  let token := req.uploadToken
  let token := if token.isEmpty then req.sessionToken else token
  if token.isEmpty then req.bodyToken else token

/-- `enum class UploadAction`. -/
inductive UploadAction where
  | preflight
  | chunk
  | wholeFile
  | cancel
  deriving DecidableEq

/-- `enum class UploadPrincipal`. -/
inductive UploadPrincipal where
  | session
  | trustedDevice
  | nativeGrant
  deriving DecidableEq

/-- `struct UploadAuthorization`. -/
structure UploadAuthorization where
  principal : UploadPrincipal
  action : UploadAction
  transferId : ByteString
  ownerPrefix : ByteString
  credential : ByteString
  deriving DecidableEq

def UploadAuthorization.isNative (context : UploadAuthorization) : Bool :=
  context.principal == .nativeGrant

/-- A call of one of the two checks. -/
inductive AuthCall where
  | validateToken (req : AuthRequest)
  | authorizeUpload (req : AuthRequest) (action : UploadAction)
  deriving DecidableEq

def AuthCall.req : AuthCall → AuthRequest
  | .validateToken req | .authorizeUpload req _ => req

def AuthCall.credential (call : AuthCall) : ByteString := getTokenFromRequest call.req

/-! ## The server -/

/-- Where a request stands. -/
inductive AuthPc where
  | idle
  /-- At the section that reads the session token. -/
  | session (call : AuthCall)
  /-- At `validateBrowserSessionToken`. -/
  | browser (call : AuthCall)
  /-- At `validateCredential`. -/
  | pairing (call : AuthCall)
  /-- At `authorizeTransfer`. -/
  | grant (req : AuthRequest) (action : UploadAction)
  /-- `authorizeUpload` returned a context; the records of the request follow. -/
  | admitted (context : UploadAuthorization)
  deriving DecidableEq

/-- What the two checks and `authorizeUploadFile` let through. -/
inductive AuthEvent where
  | validated (req : AuthRequest)
  | authorized (req : AuthRequest) (context : UploadAuthorization)
  | record (context : UploadAuthorization) (id name : ByteString) (size : Nat) (skip : Bool)
  deriving DecidableEq

/-- What the server is built with; the flags tell whether the two stores are there. -/
structure AuthConfig where
  native : NativeConfig
  sha : Sha256
  pairingStore : Bool := true
  nativeSessionStore : Bool := true

/-- The members of `HttpServer` that hold secrets; `native` are the two stores and the clock. -/
structure HttpServer where
  /-- `m_config.token`. -/
  token : ByteString
  browserBootstrap : ByteString := []
  browserBootstrapExpiresAt : Nat := 0
  browserSessions : Table ByteString Nat := ∅
  native : NativeState
  calls : Nat → AuthPc := fun _ => .idle
  log : List AuthEvent := []

/-- A server at start. -/
def HttpServer.init (defaultToken : ByteString) (pairingStore : PairingStore) (clock : Nat) :
    HttpServer :=
  { token := defaultToken, native := .init pairingStore clock }

def BrowserBootstrapLifetimeSeconds : Nat := 5 * 60
def BrowserSessionIdleLifetimeSeconds : Nat := 30 * 60
def MaxBrowserSessions : Nat := 8

namespace HttpServer

variable (cfg : AuthConfig) (s : HttpServer)

/-- `setToken`. -/
def setToken (token : ByteString) : HttpServer :=
  if s.token ≠ token then
    { s with
      token, browserBootstrap := [], browserBootstrapExpiresAt := 0, browserSessions := ∅ }
  else s

/-- The pipe command `set_token`. -/
def setTokenCommand (data : ByteString) : HttpServer :=
  if data.length < 32 || 128 < data.length || !data.all isXDigit then s else s.setToken data

/-- `setBrowserBootstrap`. -/
def setBrowserBootstrap (bootstrap : ByteString) : HttpServer :=
  if bootstrap.length != 64 || !bootstrap.all isXDigit then s
  else
    { s with
      browserBootstrap := bootstrap
      browserBootstrapExpiresAt := s.native.clock + BrowserBootstrapLifetimeSeconds }

/-- `exchangeBrowserBootstrap`; `randomBytes` is `none` when `RAND_bytes` fails. -/
def exchangeBrowserBootstrap (bootstrap : ByteString) (randomBytes : Option ByteString) :
    HttpServer :=
  if bootstrap.length ≠ s.browserBootstrap.length || bootstrap.isEmpty ||
      s.browserBootstrapExpiresAt < s.native.clock || bootstrap != s.browserBootstrap ||
      s.token.isEmpty then s
  else
    match randomBytes with
    | none => s
    | some bytes =>
        let sessions := s.browserSessions.filter fun _ expiresAt => !(expiresAt ≤ s.native.clock)
        let sessions :=
          if MaxBrowserSessions ≤ sessions.entries.length then
            eraseOldest (fun _ => true) id sessions
          else sessions
        { s with
          browserSessions :=
            sessions.insert (toHex bytes) (s.native.clock + BrowserSessionIdleLifetimeSeconds)
          browserBootstrap := []
          browserBootstrapExpiresAt := 0 }

/-- The token that opens the pairing routes, and nothing else. -/
def pairingToken : ByteString :=
  ascii "pair-" ++ cfg.native.crypto.hmacHex s.token (ascii "lmt-pairing-only-v1")

/-- `validateSessionToken`. -/
def validateSessionToken (token : ByteString) : Bool :=
  !s.token.isEmpty && token == s.pairingToken cfg

/-- `validateBrowserSessionToken`. -/
def validateBrowserSessionToken (token : ByteString) : HttpServer × Bool :=
  if token.isEmpty then (s, false)
  else
    match s.browserSessions.lookup token with
    | none => (s, false)
    | some expiresAt =>
        if expiresAt ≤ s.native.clock then
          ({ s with browserSessions := s.browserSessions.erase token }, false)
        else
          ({ s with
              browserSessions :=
                s.browserSessions.insert token
                  (s.native.clock + BrowserSessionIdleLifetimeSeconds) },
            true)

/-- `m_pairingStore && m_pairingStore->validateCredential`. -/
def validateCredential (credential : ByteString) : Bool :=
  cfg.pairingStore &&
    s.native.store.pairingStore.validateCredential cfg.native.crypto credential

/-! ## Steps -/

/-- A request goes on. -/
def moveTo (tid : Nat) (pc : AuthPc) : HttpServer :=
  { s with calls := Function.update s.calls tid pc }

/-- A check of the credential passed; `hashed` tells whether the owner prefix could be computed,
and the exception otherwise ends the request. -/
def accept (tid : Nat) (call : AuthCall) (principal : UploadPrincipal) (hashed : Bool) :
    HttpServer :=
  match call with
  | .validateToken req => { s.moveTo tid .idle with log := s.log ++ [.validated req] }
  | .authorizeUpload req action =>
      let credential := getTokenFromRequest req
      match cfg.sha.credentialOwnerPrefix hashed credential with
      | .error _ => s.moveTo tid .idle
      | .ok ownerPrefix =>
          let context := ⟨principal, action, req.transferId, ownerPrefix, credential⟩
          { s.moveTo tid (.admitted context) with log := s.log ++ [.authorized req context] }

/-- A call of the native store. -/
def ask (op : NativeOp) : HttpServer × NativeAnswer :=
  ({ s with native := s.native.after cfg.native op },
    (s.native.store.call cfg.native s.native.clock op).2)

/-- `authorizeUploadFile`. -/
def authorizeUploadFile (context : UploadAuthorization) (id name : ByteString) (size : Nat)
    (skip : Bool) : HttpServer × Bool :=
  if context.action ≠ .preflight && context.action ≠ .chunk then (s, false)
  else if !context.isNative then (s, true)
  else if !cfg.nativeSessionStore then (s, false)
  else
    let asked := s.ask cfg
      (.authorizeFile context.credential context.transferId id name size skip)
    (asked.1, asked.2 == .flag true)

end HttpServer

inductive AuthLabel where
  /-- The routes and pipe commands of the two stores, the phone pairing, and the clock. -/
  | native (l : NativeLabel)
  | setToken (data : ByteString)
  | setBrowserBootstrap (bootstrap : ByteString)
  | exchangeBootstrap (bootstrap : ByteString) (randomBytes : Option ByteString)
  /-- The browser sessions are traversed in another order from now on. -/
  | reorderSessions (sessions : Table ByteString Nat)
  | begin (tid : Nat) (call : AuthCall)
  | checkSession (tid : Nat) (hashed : Bool)
  | checkBrowser (tid : Nat) (hashed : Bool)
  | checkPairing (tid : Nat) (hashed : Bool)
  | checkGrant (tid : Nat) (hashed : Bool)
  | record (tid : Nat) (id name : ByteString) (size : Nat) (skip : Bool)
  /-- The handler returns. -/
  | finish (tid : Nat)

/-- The first check of a call. -/
def AuthCall.first (cfg : AuthConfig) : AuthCall → AuthPc
  | .validateToken req => .session (.validateToken req)
  | .authorizeUpload req action =>
      if req.transferId.isEmpty then .session (.authorizeUpload req action)
      else if action = .wholeFile || !cfg.nativeSessionStore then .idle
      else .grant req action

/-- One step. -/
def authStep (cfg : AuthConfig) (s : HttpServer) : AuthLabel → Option HttpServer
  | .native l => (nativeStep cfg.native s.native l).map fun native => { s with native }
  | .setToken data => some (s.setTokenCommand data)
  | .setBrowserBootstrap bootstrap => some (s.setBrowserBootstrap bootstrap)
  | .exchangeBootstrap bootstrap randomBytes =>
      some (s.exchangeBrowserBootstrap bootstrap randomBytes)
  | .reorderSessions sessions =>
      if sessions.entries.isPerm s.browserSessions.entries then
        some { s with browserSessions := sessions }
      else none
  | .begin tid call =>
      match s.calls tid with
      | .idle => some (s.moveTo tid (call.first cfg))
      | _ => none
  | .checkSession tid hashed =>
      match s.calls tid with
      | .session call =>
          if s.token.isEmpty then some (s.moveTo tid .idle)
          else if call.credential = s.token then some (s.accept cfg tid call .session hashed)
          else some (s.moveTo tid (.browser call))
      | _ => none
  | .checkBrowser tid hashed =>
      match s.calls tid with
      | .browser call =>
          let (s, valid) := s.validateBrowserSessionToken call.credential
          if valid then some (s.accept cfg tid call .session hashed)
          else some (s.moveTo tid (.pairing call))
      | _ => none
  | .checkPairing tid hashed =>
      match s.calls tid with
      | .pairing call =>
          if s.validateCredential cfg call.credential then
            some (s.accept cfg tid call .trustedDevice hashed)
          else some (s.moveTo tid .idle)
      | _ => none
  | .checkGrant tid hashed =>
      match s.calls tid with
      | .grant req action =>
          let asked := s.ask cfg
            (.authorizeTransfer (getTokenFromRequest req) req.transferId)
          if asked.2 == .flag true then
            some (asked.1.accept cfg tid (.authorizeUpload req action) .nativeGrant hashed)
          else some (asked.1.moveTo tid .idle)
      | _ => none
  | .record tid id name size skip =>
      match s.calls tid with
      | .admitted context =>
          let (s, allowed) := s.authorizeUploadFile cfg context id name size skip
          if allowed then some { s with log := s.log ++ [.record context id name size skip] }
          else some (s.moveTo tid .idle)
      | _ => none
  | .finish tid =>
      match s.calls tid with
      | .admitted _ => some (s.moveTo tid .idle)
      | _ => none

/-! ## Secrets -/

inductive SecretKind where
  | session
  | browser
  /-- A trusted device in mode `direct_upload`. -/
  | directUpload
  /-- A native trusted device. -/
  | approvalRequired
  | pairing
  | transfer
  deriving DecidableEq

/-- A trusted device with an authorization mode has the credential. -/
def HttpServer.Trusts (cfg : AuthConfig) (s : HttpServer) (mode credential : ByteString) : Prop :=
  ∃ device ∈ s.native.store.pairingStore.trusted,
    device.credentialHash = cfg.native.crypto.sha256Hex credential ∧ device.authorizationMode = mode

/-- A string is a secret of a kind in a state. -/
def HttpServer.Holds (cfg : AuthConfig) (s : HttpServer) (credential : ByteString) :
    SecretKind → Prop
  | .session => s.token ≠ [] ∧ credential = s.token
  | .browser => credential ≠ [] ∧
      ∃ expiresAt, s.browserSessions.lookup credential = some expiresAt ∧ s.native.clock < expiresAt
  | .directUpload => credential ≠ [] ∧ s.Trusts cfg (ascii "direct_upload") credential
  | .approvalRequired => credential ≠ [] ∧ s.Trusts cfg (ascii "approval_required") credential
  | .pairing => s.token ≠ [] ∧ credential = s.pairingToken cfg
  | .transfer => ∃ id transfer, s.native.store.transfers.lookup id = some transfer ∧
      transfer.tokenHash = cfg.native.crypto.sha256Hex credential

/-- **What opens the receiver without a transfer ID.** -/
structure UploadSecret (cfg : AuthConfig) (s : HttpServer) (credential : ByteString) : Prop where
  token : s.token ≠ []
  secret : s.Holds cfg credential .session ∨ s.Holds cfg credential .browser ∨
    s.Holds cfg credential .directUpload

/-- What let an event happen in a state. -/
def Justified (cfg : AuthConfig) (s : HttpServer) : AuthEvent → Prop
  | .validated req => UploadSecret cfg s (getTokenFromRequest req)
  | .authorized req context =>
      context.credential = getTokenFromRequest req ∧ context.transferId = req.transferId ∧
      (req.transferId = [] → UploadSecret cfg s context.credential) ∧
      (req.transferId ≠ [] → context.action ≠ .wholeFile ∧
        (s.native.store.authorizeTransfer cfg.native s.native.clock context.credential
          context.transferId).2 = true)
  | .record context id name size skip =>
      (∃ req, .authorized req context ∈ s.log) ∧
      (context.action = .preflight ∨ context.action = .chunk) ∧
      (context.transferId ≠ [] →
        (s.native.store.authorizeFile cfg.native s.native.clock context.credential
          context.transferId id name size skip).2 = true)

/-! ## The invariant -/

/-- A call that reads the session token. -/
def AuthCall.Direct : AuthCall → Prop
  | .validateToken _ => True
  | .authorizeUpload req _ => req.transferId = []

/-- What is known about a request from where it stands. -/
def AuthPc.Coherent (s : HttpServer) : AuthPc → Prop
  | .idle => True
  | .session call => call.Direct
  | .browser call | .pairing call => call.Direct ∧ s.token ≠ []
  | .grant req action => req.transferId ≠ [] ∧ action ≠ .wholeFile
  | .admitted context =>
      (context.isNative = true ↔ context.transferId ≠ []) ∧
        ∃ req, .authorized req context ∈ s.log

/-- **The invariant.** -/
def AuthCoherent (s : HttpServer) : Prop := ∀ tid, (s.calls tid).Coherent s

variable {cfg : AuthConfig} {s s₁ s' : HttpServer} {tid : Nat} {pc : AuthPc} {call : AuthCall}
variable {new : Option AuthEvent}

theorem AuthPc.Coherent.mono (h : pc.Coherent s) (htoken : s.token ≠ [] → s'.token ≠ [])
    (hlog : ∀ x ∈ s.log, x ∈ s'.log) : pc.Coherent s' := by
  cases pc with
  | idle => trivial
  | session | grant => exact h
  | browser | pairing => exact ⟨h.1, htoken h.2⟩
  | admitted context =>
    obtain ⟨hnative, req, hreq⟩ := h
    exact ⟨hnative, req, hlog _ hreq⟩

/-- One step moves at most one call and lets through only what is justified. -/
structure AuthStep (cfg : AuthConfig) (s s' : HttpServer) (tid : Nat) (pc : AuthPc)
    (new : Option AuthEvent) : Prop where
  calls : s'.calls = Function.update s.calls tid pc
  token : s.token ≠ [] → s'.token ≠ []
  log : s'.log = s.log ++ new.toList
  coherent : pc.Coherent s'
  justified : ∀ x, new = some x → Justified cfg s x

theorem AuthStep.keeps (h : AuthStep cfg s s' tid pc new)
    (hc : AuthCoherent s) : AuthCoherent s' := by
  intro i
  rw [h.calls]
  by_cases hi : i = tid
  · subst hi
    rw [Function.update_self]
    exact h.coherent
  · rw [Function.update_of_ne hi]
    apply (hc i).mono h.token
    intro x hx
    rw [h.log]
    exact List.mem_append_left _ hx

/-- Two servers that differ in their secrets only. -/
structure SameCalls (s s₁ : HttpServer) : Prop where
  calls : s₁.calls = s.calls
  log : s₁.log = s.log
  token : s.token ≠ [] → s₁.token ≠ []

theorem AuthStep.quiet (h : SameCalls s s₁) (hc : AuthCoherent s) :
    AuthStep cfg s s₁ 0 (s.calls 0) none where
  calls := by rw [Function.update_eq_self, h.calls]
  token := h.token
  log := by rw [h.log]; simp
  coherent := (hc 0).mono h.token fun x hx => h.log ▸ hx
  justified := by
    rintro x ⟨⟩

theorem AuthStep.moved (h : SameCalls s s₁) (hpc : pc.Coherent (s₁.moveTo tid pc)) :
    AuthStep cfg s (s₁.moveTo tid pc) tid pc none where
  calls := by rw [← h.calls]; rfl
  token := h.token
  log := by rw [← h.log]; simp [HttpServer.moveTo]
  coherent := hpc
  justified := by
    rintro x ⟨⟩

/-- A check that passed. -/
theorem AuthStep.accepted {principal : UploadPrincipal} {hashed : Bool} (h : SameCalls s s₁)
    (hvalid : ∀ req, call = .validateToken req → Justified cfg s (.validated req))
    (hupload : ∀ req action ownerPrefix, call = .authorizeUpload req action →
      (principal = .nativeGrant ↔ req.transferId ≠ []) ∧
      Justified cfg s (.authorized req
        ⟨principal, action, req.transferId, ownerPrefix, getTokenFromRequest req⟩)) :
    ∃ pc new, AuthStep cfg s (s₁.accept cfg tid call principal hashed) tid pc new := by
  unfold HttpServer.accept
  split
  · rename_i req
    refine ⟨.idle, some (.validated req), ?_, h.token, ?_, trivial, ?_⟩
    · rw [← h.calls]
      rfl
    · rw [← h.log]
      rfl
    · rintro x ⟨⟩
      exact hvalid req rfl
  · rename_i req action
    simp only
    split
    · exact ⟨.idle, none, .moved h trivial⟩
    · rename_i ownerPrefix _
      obtain ⟨hnative, hjustified⟩ := hupload req action ownerPrefix rfl
      let context : UploadAuthorization :=
        ⟨principal, action, req.transferId, ownerPrefix, getTokenFromRequest req⟩
      refine ⟨.admitted context, some (.authorized req context), ?_, h.token, ?_, ?_, ?_⟩
      · rw [← h.calls]
        rfl
      · rw [← h.log]
        rfl
      · refine ⟨?_, req, List.mem_append_right _ (List.mem_singleton_self _)⟩
        rw [← hnative]
        exact beq_iff_eq
      · rintro x ⟨⟩
        exact hjustified

/-- A call that reads the session token was opened by one of the three secrets. -/
theorem AuthStep.opened {principal : UploadPrincipal} {hashed : Bool} (h : SameCalls s s₁)
    (hdirect : call.Direct) (hprincipal : principal ≠ .nativeGrant)
    (hsecret : UploadSecret cfg s call.credential) :
    ∃ pc new, AuthStep cfg s (s₁.accept cfg tid call principal hashed) tid pc new := by
  apply AuthStep.accepted h
  · rintro req rfl
    exact hsecret
  · rintro req action ownerPrefix rfl
    have hempty : req.transferId = [] := hdirect
    refine ⟨?_, rfl, rfl, fun _ => hsecret, fun hne => absurd hempty hne⟩
    constructor
    · intro hp
      exact absurd hp hprincipal
    · intro hne
      exact absurd hempty hne

/-! ## What the parts of a step do -/

theorem sameCalls_setTokenCommand (data : ByteString) : SameCalls s (s.setTokenCommand data) := by
  unfold HttpServer.setTokenCommand
  split
  · exact ⟨rfl, rfl, id⟩
  · rename_i hvalid
    unfold HttpServer.setToken
    split
    · refine ⟨rfl, rfl, fun _ => ?_⟩
      rintro rfl
      exact hvalid rfl
    · exact ⟨rfl, rfl, id⟩

theorem sameCalls_setBrowserBootstrap (bootstrap : ByteString) :
    SameCalls s (s.setBrowserBootstrap bootstrap) := by
  unfold HttpServer.setBrowserBootstrap
  split <;> exact ⟨rfl, rfl, id⟩

theorem sameCalls_exchangeBrowserBootstrap (bootstrap : ByteString)
    (randomBytes : Option ByteString) :
    SameCalls s (s.exchangeBrowserBootstrap bootstrap randomBytes) := by
  unfold HttpServer.exchangeBrowserBootstrap
  split
  · exact ⟨rfl, rfl, id⟩
  · split <;> exact ⟨rfl, rfl, id⟩

theorem sameCalls_validateBrowserSessionToken (token : ByteString) :
    SameCalls s (s.validateBrowserSessionToken token).1 := by
  unfold HttpServer.validateBrowserSessionToken
  split
  · exact ⟨rfl, rfl, id⟩
  · split
    · exact ⟨rfl, rfl, id⟩
    · split <;> exact ⟨rfl, rfl, id⟩

theorem sameCalls_authorizeUploadFile (context : UploadAuthorization) (id name : ByteString)
    (size : Nat) (skip : Bool) :
    SameCalls s (s.authorizeUploadFile cfg context id name size skip).1 := by
  unfold HttpServer.authorizeUploadFile
  split
  · exact ⟨rfl, rfl, fun h => h⟩
  · split
    · exact ⟨rfl, rfl, fun h => h⟩
    · split <;> exact ⟨rfl, rfl, fun h => h⟩

theorem holds_browser {token : ByteString} (h : (s.validateBrowserSessionToken token).2 = true) :
    s.Holds cfg token .browser := by
  unfold HttpServer.validateBrowserSessionToken at h
  split at h
  · cases h
  · rename_i hne
    split at h
    · cases h
    · rename_i expiresAt hlookup
      split at h
      · cases h
      · rename_i hlive
        exact ⟨by simpa using hne, expiresAt, hlookup, by omega⟩

theorem holds_directUpload {credential : ByteString}
    (h : s.validateCredential cfg credential = true) : s.Holds cfg credential .directUpload := by
  unfold HttpServer.validateCredential PairingStore.validateCredential at h
  rw [Bool.and_eq_true] at h
  obtain ⟨-, h⟩ := h
  split at h
  · cases h
  · rename_i hne
    obtain ⟨device, hdevice, hmatch⟩ := List.any_eq_true.mp h
    rw [Bool.and_eq_true, beq_iff_eq, beq_iff_eq] at hmatch
    exact ⟨by simpa using hne, device, hdevice, hmatch⟩

/-- A record passes on a transfer grant only when the native store allows the file. -/
theorem records_of_authorizeUploadFile {context : UploadAuthorization} {id name : ByteString}
    {size : Nat} {skip : Bool} (hnative : context.isNative = true ↔ context.transferId ≠ [])
    (h : (s.authorizeUploadFile cfg context id name size skip).2 = true) :
    (context.action = .preflight ∨ context.action = .chunk) ∧
      (context.transferId ≠ [] →
        (s.native.store.authorizeFile cfg.native s.native.clock context.credential
          context.transferId id name size skip).2 = true) := by
  unfold HttpServer.authorizeUploadFile at h
  split at h
  · cases h
  · rename_i haction
    refine ⟨by grind, fun htransfer => ?_⟩
    rw [if_neg (by simp [hnative.mpr htransfer])] at h
    split at h
    · cases h
    · simpa [HttpServer.ask, NativeSessionStore.call] using h

theorem coherent_first (call : AuthCall) : (call.first cfg).Coherent s := by
  cases call with
  | validateToken => trivial
  | authorizeUpload req action =>
    simp only [AuthCall.first]
    split
    · rename_i hempty
      exact List.isEmpty_iff.mp hempty
    · rename_i hne
      split
      · trivial
      · rename_i haction
        simp only [Bool.or_eq_true, decide_eq_true_eq, not_or] at haction
        exact ⟨by simpa using hne, haction.1⟩

/-! ## One step -/

/-- **What one step does.** -/
theorem authStep_spec {l : AuthLabel} (hc : AuthCoherent s) (hst : authStep cfg s l = some s') :
    ∃ tid pc new, AuthStep cfg s s' tid pc new := by
  cases l with
  | native l =>
    obtain ⟨native, -, rfl⟩ := Option.map_eq_some_iff.mp hst
    exact ⟨0, _, none, .quiet ⟨rfl, rfl, id⟩ hc⟩
  | setToken data =>
    cases hst
    exact ⟨0, _, none, .quiet (sameCalls_setTokenCommand data) hc⟩
  | setBrowserBootstrap bootstrap =>
    cases hst
    exact ⟨0, _, none, .quiet (sameCalls_setBrowserBootstrap bootstrap) hc⟩
  | exchangeBootstrap bootstrap randomBytes =>
    cases hst
    exact ⟨0, _, none, .quiet (sameCalls_exchangeBrowserBootstrap bootstrap randomBytes) hc⟩
  | reorderSessions sessions =>
    simp only [authStep] at hst
    split at hst
    · cases hst
      exact ⟨0, _, none, .quiet ⟨rfl, rfl, id⟩ hc⟩
    · cases hst
  | begin tid call =>
    simp only [authStep] at hst
    split at hst
    · cases hst
      exact ⟨tid, _, none, .moved ⟨rfl, rfl, id⟩ (coherent_first call)⟩
    · cases hst
  | checkSession tid hashed =>
    simp only [authStep] at hst
    split at hst
    · rename_i call hpc
      have hdirect : call.Direct := by
        have h := hc tid
        rw [hpc] at h
        exact h
      split at hst
      · cases hst
        exact ⟨tid, _, none, .moved ⟨rfl, rfl, id⟩ trivial⟩
      · rename_i htoken
        have htoken' : s.token ≠ [] := by simpa using htoken
        split at hst
        · rename_i hsession
          cases hst
          exact ⟨tid, AuthStep.opened ⟨rfl, rfl, id⟩ hdirect (by simp)
            ⟨htoken', .inl ⟨htoken', hsession⟩⟩⟩
        · cases hst
          exact ⟨tid, _, none, .moved ⟨rfl, rfl, id⟩ ⟨hdirect, htoken'⟩⟩
    · cases hst
  | checkBrowser tid hashed =>
    simp only [authStep] at hst
    split at hst
    · rename_i call hpc
      have hsame := @sameCalls_validateBrowserSessionToken s call.credential
      have h := hc tid
      rw [hpc] at h
      obtain ⟨hdirect, htoken⟩ := h
      split at hst
      · rename_i hvalid
        cases hst
        exact ⟨tid, AuthStep.opened hsame hdirect (by simp)
          ⟨htoken, .inr (.inl (holds_browser hvalid))⟩⟩
      · cases hst
        exact ⟨tid, _, none, .moved hsame ⟨hdirect, hsame.token htoken⟩⟩
    · cases hst
  | checkPairing tid hashed =>
    simp only [authStep] at hst
    split at hst
    · rename_i call hpc
      have h := hc tid
      rw [hpc] at h
      obtain ⟨hdirect, htoken⟩ := h
      split at hst
      · rename_i hvalid
        cases hst
        have hsecret : UploadSecret cfg s call.credential :=
          ⟨htoken, .inr (.inr (holds_directUpload hvalid))⟩
        exact ⟨tid, AuthStep.opened ⟨rfl, rfl, id⟩ hdirect (by simp) hsecret⟩
      · cases hst
        exact ⟨tid, _, none, .moved ⟨rfl, rfl, id⟩ trivial⟩
    · cases hst
  | checkGrant tid hashed =>
    simp only [authStep] at hst
    split at hst
    · rename_i req action hpc
      have h := hc tid
      rw [hpc] at h
      obtain ⟨htransfer, haction⟩ := h
      split at hst
      · rename_i hanswer
        cases hst
        refine ⟨tid, AuthStep.accepted ⟨rfl, rfl, id⟩ ?_ ?_⟩
        · rintro _ ⟨⟩
        · rintro _ _ ownerPrefix ⟨⟩
          refine ⟨iff_of_true rfl htransfer, rfl, rfl, fun h => absurd h htransfer, fun _ => ?_⟩
          refine ⟨haction, ?_⟩
          simpa [HttpServer.ask, NativeSessionStore.call] using hanswer
      · cases hst
        exact ⟨tid, _, none, .moved ⟨rfl, rfl, id⟩ trivial⟩
    · cases hst
  | record tid id name size skip =>
    simp only [authStep] at hst
    split at hst
    · rename_i context hpc
      have hsame := @sameCalls_authorizeUploadFile cfg s context id name size skip
      have h := hc tid
      rw [hpc] at h
      obtain ⟨hnative, hreq⟩ := h
      split at hst
      · rename_i hallowed
        cases hst
        refine ⟨tid, .admitted context, some (.record context id name size skip), ?_,
          hsame.token, ?_,
          ⟨hnative, ?_⟩, ?_⟩
        · rw [← hpc, Function.update_eq_self]
          exact hsame.calls
        · rw [← hsame.log]
          rfl
        · obtain ⟨req, hreq⟩ := hreq
          refine ⟨req, List.mem_append_left _ ?_⟩
          rw [hsame.log]
          exact hreq
        · rintro x ⟨⟩
          exact ⟨hreq, records_of_authorizeUploadFile hnative hallowed⟩
      · cases hst
        exact ⟨tid, _, none, .moved hsame trivial⟩
    · cases hst
  | finish tid =>
    simp only [authStep] at hst
    split at hst
    · cases hst
      exact ⟨tid, _, none, .moved ⟨rfl, rfl, id⟩ trivial⟩
    · cases hst

/-! ## Runs -/

abbrev AuthRun (cfg : AuthConfig) : HttpServer → HttpServer → Prop :=
  Run (authStep cfg) fun _ _ => True

variable {defaultToken : ByteString} {pairingStore : PairingStore} {clock : Nat}

theorem authCoherent_of_run (hrun : AuthRun cfg (.init defaultToken pairingStore clock) s) :
    AuthCoherent s := by
  apply Run.invariant hrun
  · intro tid
    trivial
  · intro t l u ht _ hst
    obtain ⟨tid, pc, new, hstep⟩ := authStep_spec ht hst
    exact hstep.keeps ht

/-- Everything in the history was justified when it happened. -/
theorem justified_of_run {pre post : List AuthEvent} {x : AuthEvent}
    (hrun : AuthRun cfg (.init defaultToken pairingStore clock) s')
    (hx : s'.log = pre ++ x :: post) :
    ∃ s t l, AuthRun cfg (.init defaultToken pairingStore clock) s ∧ s.log = pre ∧
      authStep cfg s l = some t ∧ t.log = pre ++ [x] ∧ AuthRun cfg t s' ∧ Justified cfg s x := by
  induction hrun generalizing post with
  | refl => simp [HttpServer.init] at hx
  | tail hr hok hst ih =>
    obtain ⟨tid, pc, new, hstep⟩ := authStep_spec (authCoherent_of_run hr) hst
    cases new with
    | none =>
      rw [hstep.log, Option.toList_none, List.append_nil] at hx
      obtain ⟨s, t, l, hs, hpre, hsl, hlog, ht, hj⟩ := ih hx
      exact ⟨s, t, l, hs, hpre, hsl, hlog, .tail ht hok hst, hj⟩
    | some y =>
      have hlog := hstep.log
      rw [Option.toList_some] at hlog
      rw [hlog] at hx
      rcases split_snoc hx with ⟨rfl, rfl, rfl⟩ | ⟨post', rfl, hold⟩
      · exact ⟨_, _, _, hr, rfl, hst, hlog, .refl _, hstep.justified _ rfl⟩
      · obtain ⟨s, t, l, hs, hpre, hsl, hlog', ht, hj⟩ := ih hold
        exact ⟨s, t, l, hs, hpre, hsl, hlog', .tail ht hok hst, hj⟩

/-- A secret of one kind only that opens the receiver without a transfer ID is none of the other
three. -/
theorem UploadSecret.separated {credential : ByteString} (h : UploadSecret cfg s credential)
    (hone : ∀ k k', s.Holds cfg credential k → s.Holds cfg credential k' → k = k') :
    ¬s.Holds cfg credential .approvalRequired ∧ ¬s.Holds cfg credential .pairing ∧
      ¬s.Holds cfg credential .transfer := by
  have hkind : ∀ k, k ≠ .session → k ≠ .browser → k ≠ .directUpload →
      ¬s.Holds cfg credential k := by
    intro k hsession hbrowser hdirect hk
    rcases h.secret with h | h | h
    · exact hsession (hone _ _ hk h)
    · exact hbrowser (hone _ _ hk h)
    · exact hdirect (hone _ _ hk h)
  exact ⟨hkind _ nofun nofun nofun, hkind _ nofun nofun nofun, hkind _ nofun nofun nofun⟩

/-- The credential of a request that was let through without a transfer ID. -/
def AuthEvent.direct : AuthEvent → Option ByteString
  | .validated req => some (getTokenFromRequest req)
  | .authorized req context => if req.transferId = [] then some context.credential else none
  | .record .. => none

theorem Justified.direct {x : AuthEvent} {credential : ByteString} (h : Justified cfg s x)
    (hx : x.direct = some credential) : UploadSecret cfg s credential := by
  cases x with
  | validated req =>
    cases hx
    exact h
  | authorized req context =>
    simp only [AuthEvent.direct] at hx
    split at hx
    · rename_i hempty
      cases hx
      exact h.2.2.1 hempty
    · cases hx
  | record => cases hx

/-- **Upload privilege separation.**  Whatever was let through in a run, was justified in the state
in which it was: without a transfer ID by the session token, a live browser session or a trusted
device in mode `direct_upload`, and so by no native credential, pairing token or transfer token
unless that is another secret as well; with a transfer ID by `authorizeTransfer` and never as a
whole file; and every record by `authorizeFile` where the request has a transfer ID. -/
theorem upload_privilege_separation {pre post : List AuthEvent} {x : AuthEvent}
    (hrun : AuthRun cfg (.init defaultToken pairingStore clock) s')
    (hx : s'.log = pre ++ x :: post) :
    ∃ s t l, AuthRun cfg (.init defaultToken pairingStore clock) s ∧ s.log = pre ∧
      authStep cfg s l = some t ∧ t.log = pre ++ [x] ∧ AuthRun cfg t s' ∧ Justified cfg s x ∧
      ∀ credential, x.direct = some credential →
        (∀ k k', s.Holds cfg credential k → s.Holds cfg credential k' → k = k') →
        ¬s.Holds cfg credential .approvalRequired ∧ ¬s.Holds cfg credential .pairing ∧
          ¬s.Holds cfg credential .transfer := by
  obtain ⟨s, t, l, hs, hpre, hsl, hlog, ht, hj⟩ := justified_of_run hrun hx
  refine ⟨s, t, l, hs, hpre, hsl, hlog, ht, hj, ?_⟩
  intro credential hdirect hone
  exact (hj.direct hdirect).separated hone

/-- A server with one paired sender. -/
def grantServer : AuthConfig := ⟨pairedReceiver, pairedSha, true, true⟩

/-- The session token of that server. -/
def grantSession : ByteString := ascii "00112233445566778899aabbccddeeff"

/-- A request with the sample grant. -/
def grantAuthRequest : AuthRequest := { uploadToken := grantToken, transferId := grantTransfer }

theorem upload_privilege_separation_sampleGrant :
    ∃ s' context, AuthRun grantServer (.init grantSession pairedDevices 1000) s' ∧
      s'.log = [.validated { sessionToken := grantSession }, .authorized grantAuthRequest context,
        .record context (ascii "win-" ++ grantTransfer ++ ascii "-1") (ascii "a.txt") 2 true] ∧
      (∃ s, AuthRun grantServer (.init grantSession pairedDevices 1000) s ∧
        UploadSecret grantServer s grantSession) ∧
      ∃ s, AuthRun grantServer (.init grantSession pairedDevices 1000) s ∧
        (s.native.store.authorizeFile pairedReceiver s.native.clock grantToken grantTransfer
          (ascii "win-" ++ grantTransfer ++ ascii "-1") (ascii "a.txt") 2 true).2 = true := by
  let context : UploadAuthorization :=
    ⟨.nativeGrant, .chunk, grantTransfer, pairedSha.ownerPrefix grantToken, grantToken⟩
  obtain ⟨s', hrun, htest⟩ := Run.exists_of_exec (authStep grantServer) (P := fun _ _ => True)
    (fun _ _ => true)
    (fun s' => decide (s'.log = [.validated { sessionToken := grantSession },
      .authorized grantAuthRequest context,
      .record context (ascii "win-" ++ grantTransfer ++ ascii "-1") (ascii "a.txt") 2 true]))
    (.init grantSession pairedDevices 1000)
    [.begin 0 (.validateToken { sessionToken := grantSession }), .checkSession 0 true,
      .native (.call (.requestTransfer
        { protocolVersion := 1
          clientSessionId := ascii "win-" ++ grantTransfer
          files := some [⟨ascii "win-" ++ grantTransfer ++ ascii "-1", ascii "a.txt", 2, false⟩] }
        (ascii "a1a1a1a1a1a1a1a1a1a1a1a1a1a1a1a1a1a1a1a1a1a1a1a1a1a1a1a1a1a1a1a1")
        (ascii "10.0.0.2") (ascii "00112233445566778899aabbccddeeff"))),
      .native (.call (.approveTransfer (ascii "00112233445566778899aabbccddeeff"))),
      .begin 0 (.authorizeUpload grantAuthRequest .chunk), .checkGrant 0 true,
      .record 0 (ascii "win-" ++ grantTransfer ++ ascii "-1") (ascii "a.txt") 2 true]
    (fun _ _ _ => trivial) (by
      unfold grantAuthRequest grantServer grantSession grantToken grantTransfer pairedReceiver
        pairedDevices
      repeat rw [ascii_ofList]
      decide)
  rw [decide_eq_true_eq] at htest
  refine ⟨s', context, hrun, htest, ?_, ?_⟩
  · have hfirst : s'.log = [] ++ _ :: _ := htest
    obtain ⟨s, -, -, hs, -, -, -, -, hj, -⟩ := upload_privilege_separation hrun hfirst
    exact ⟨s, hs, hj⟩
  · have hlast : s'.log = [_, _] ++ _ :: [] := htest
    obtain ⟨s, -, -, hs, -, -, -, -, hj, -⟩ := upload_privilege_separation hrun hlast
    exact ⟨s, hs, hj.2.2 (by decide)⟩

end LocalMediaTransfer
