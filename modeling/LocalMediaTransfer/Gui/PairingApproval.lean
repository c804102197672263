import LocalMediaTransfer.Server.Http.Authorization
import LocalMediaTransfer.Server.Security.PendingDevices

/-!
# Approving a phone

A phone asks to be paired (`/pair/request` in `server/HttpServer.cpp`), the GUI shows a prompt
(`App/AppShellController.cs`, `App/BoundedRequestQueue.cs`), and the user's answer comes back as the
pipe command `approve_device` or `deny_device` (`main.cpp`).  Prompt and answer carry the device ID
only; the credential stays behind in the pending entry of `PairingStore`.

* `PairingSystem`, `pairingStep` — server, pipe and GUI, every order of their steps.
* `PairingLabel.bound` — a request does not slip under the prompt of another one.
* `Bound` — the invariant: what is pending for the ID of a prompt is the prompt's credential.
* `approved_as_prompted` — **the user approves what becomes trusted** in the runs whose requests are
  bound; `approved_other_credential` — a run in which another credential becomes trusted.

The pipe may lose messages and deliver them in any order, and the GUI may refuse to parse one or
restart.  A GUI that is closing takes no more steps.  Left out: the rendering of the prompt.
-/

set_option autoImplicit false

namespace LocalMediaTransfer

open Lib

/-! ## The request queue of the GUI -/

/-- `enum EnqueueResult`. -/
inductive EnqueueResult where
  | added
  | duplicate
  | full
  deriving DecidableEq

/-- `BoundedRequestQueue<T>`; the keys of items that were taken stay reserved. -/
structure BoundedRequestQueue (α : Type) where
  items : List α := []
  keys : List ByteString := []

namespace BoundedRequestQueue

variable {α : Type} (capacity : Nat) (key : α → ByteString)
    (queue : BoundedRequestQueue α) (item : α)

/-- `TryAdd`. -/
def tryAdd : BoundedRequestQueue α × EnqueueResult :=
  if key item ∈ queue.keys then (queue, .duplicate)
  else if capacity ≤ queue.keys.length then (queue, .full)
  else (⟨queue.items ++ [item], key item :: queue.keys⟩, .added)

/-- `TryTake`. -/
def tryTake : Option (α × BoundedRequestQueue α) :=
  match queue.items with
  | [] => none
  | item :: items => some (item, { queue with items })

/-- `Requeue`. -/
def requeue : BoundedRequestQueue α := { queue with items := queue.items ++ [item] }

/-- `Complete`. -/
def complete : BoundedRequestQueue α := { queue with keys := queue.keys.erase (key item) }

end BoundedRequestQueue

/-! ## Requests and prompts -/

/-- The JSON body of `/pair/request`. -/
structure PairBody where
  deviceId : ByteString := []
  deviceName : ByteString := ascii "iPhone"
  credential : ByteString := []
  deriving DecidableEq

/-- A post to `/pair/request`; `body` is `none` when parsing throws. -/
structure PairPost where
  auth : AuthRequest
  bodySize : Nat
  body : Option PairBody
  ip : ByteString
  deriving DecidableEq

/-- `PairingRequestData`, with the credential of the request behind it, which is not sent. -/
structure PairingPrompt where
  deviceId : ByteString
  deviceName : ByteString
  ip : ByteString
  credential : ByteString
  deriving DecidableEq

/-- `ApprovalPrompt`: a phone, or one of the prompts for Windows senders. -/
inductive ApprovalPrompt where
  | phone (prompt : PairingPrompt)
  | windows (key : ByteString)
  deriving DecidableEq

def ApprovalPrompt.key : ApprovalPrompt → ByteString
  | .phone prompt => ascii "ios:" ++ prompt.deviceId
  | .windows key => key

def ApprovalPrompt.phones : ApprovalPrompt → List PairingPrompt
  | .phone prompt => [prompt]
  | .windows _ => []

/-- Where `ProcessApprovalQueueAsync` stands. -/
inductive ApprovalPump where
  | idle
  /-- The dialog is open. -/
  | shown (prompt : ApprovalPrompt)
  /-- The user decided; the answer is sent, or its acknowledgement awaited. -/
  | answered (prompt : ApprovalPrompt)
  deriving DecidableEq

/-- The pipe commands of the phone pairing; an approval remembers the prompt it answers. -/
inductive DeviceCommand where
  | approve (prompt : PairingPrompt)
  | deny (deviceId : ByteString)
  deriving DecidableEq

def DeviceCommand.phones : DeviceCommand → List PairingPrompt
  | .approve prompt => [prompt]
  | .deny _ => []

/-- An approval that was executed, with the trusted devices before and after. -/
structure Approved where
  prompt : PairingPrompt
  before : List TrustedDevice
  after : List TrustedDevice
  deriving DecidableEq

/-! ## The system -/

structure PairingSystem where
  server : HttpServer
  autoApproveKnown : Bool := false
  /-- Prompts between the handler and the GUI. -/
  inFlight : List PairingPrompt := []
  queue : BoundedRequestQueue ApprovalPrompt := {}
  pump : ApprovalPump := .idle
  /-- Commands between the GUI and the server. -/
  commands : List DeviceCommand := []
  log : List Approved := []

/-- `_approvalQueue = new(32, …)`. -/
def ApprovalCapacity : Nat := 32

/-- A system at start; pending requests are not saved. -/
def PairingSystem.init (defaultToken : ByteString) (trusted : List TrustedDevice) (clock : Nat) :
    PairingSystem :=
  { server := .init defaultToken ⟨[], trusted, trusted⟩ clock }

inductive PairingLabel where
  /-- Everything else at the server. -/
  | server (l : AuthLabel)
  | setAutoApproveKnown (enabled : Bool)
  /-- `/pair/request`. -/
  | post (post : PairPost) (env : StoreEnv)
  /-- `/pair/status`. -/
  | status (id credential : ByteString)
  /-- `OnPairingRequested`; `parsed` tells whether the parser let the message through. -/
  | deliver (i : Nat) (parsed : Bool)
  | loseMessage (i : Nat)
  | windowsPrompt (key : ByteString)
  /-- One round of `ProcessApprovalQueueAsync`; `root` tells whether there is a window. -/
  | take (root : Bool)
  /-- The user decides; `sent` tells whether the pipe took the command. -/
  | answer (approved sent : Bool)
  /-- The handler of the prompt threw. -/
  | fail
  | complete
  | restartGui
  | execute (i : Nat) (env : StoreEnv)
  | loseCommand (i : Nat)

namespace PairingSystem

variable (cfg : AuthConfig) (s : PairingSystem)

def store : PairingStore := s.server.native.store.pairingStore

def setStore (store : PairingStore) : PairingSystem :=
  { s with server :=
    { s.server with native :=
      { s.server.native with store := { s.server.native.store with pairingStore := store } } } }

/-- The clock of the server, and what else the environment decides. -/
def env (env : StoreEnv) : StoreEnv := { env with steadyNow := s.server.native.clock }

/-- The `/pair/request` handler: the new store, the status code and the prompt. -/
def pairRequest (post : PairPost) (env : StoreEnv) : PairingStore × Nat × Option PairingPrompt :=
  if !s.server.validateSessionToken cfg (getTokenFromRequest post.auth) then (s.store, 401, none)
  else if 4096 < post.bodySize then (s.store, 413, none)
  else
    match post.body with
    | none => (s.store, 400, none)
    | some body =>
        if !cfg.pairingStore then (s.store, 403, none)
        else
          let requested := s.store.request cfg.native.crypto body.deviceId body.deviceName
            body.credential post.ip s.autoApproveKnown (s.env env)
          match requested.2 with
          | .error _ => (requested.1, 400, none)
          | .ok .pending =>
              (requested.1, 200, some ⟨body.deviceId, body.deviceName, post.ip, body.credential⟩)
          | .ok .approved => (requested.1, 200, none)
          | .ok .denied => (requested.1, 403, none)
          | .ok .atCapacity => (requested.1, 429, none)

/-- `sendPairingRequest`, when there is something to send. -/
def posted (store : PairingStore) (prompt : Option PairingPrompt) : PairingSystem :=
  { s.setStore store with inFlight := s.inFlight ++ prompt.toList }

/-- `QueueApproval`, with the command of `RejectFullApprovalAsync` for a phone. -/
def queueApproval (prompt : ApprovalPrompt) : PairingSystem :=
  let added := s.queue.tryAdd ApprovalCapacity ApprovalPrompt.key prompt
  match added.2, prompt with
  | .full, .phone phone => { s with commands := s.commands ++ [.deny phone.deviceId] }
  | _, _ => { s with queue := added.1 }

/-- The commands `approve_device` and `deny_device`. -/
def run (command : DeviceCommand) (env : StoreEnv) : PairingSystem :=
  match command with
  | .approve prompt =>
      let approved := s.store.approve prompt.deviceId (s.env env)
      let t := s.setStore approved.1
      if approved.2 then { t with log := t.log ++ [⟨prompt, s.store.trusted, approved.1.trusted⟩] }
      else t
  | .deny deviceId => s.setStore (s.store.deny deviceId).1

end PairingSystem

/-- One step. -/
def pairingStep (cfg : AuthConfig) (s : PairingSystem) : PairingLabel → Option PairingSystem
  | .server (.native (.phone _)) => none
  | .server l => (authStep cfg s.server l).map fun server => { s with server }
  | .setAutoApproveKnown enabled => some { s with autoApproveKnown := enabled }
  | .post post env =>
      let handled := s.pairRequest cfg post env
      some (s.posted handled.1 handled.2.2)
  | .status id credential =>
      some (s.setStore (s.store.status cfg.native.crypto id credential (s.env {})).1)
  | .deliver i parsed =>
      match s.inFlight[i]? with
      | none => none
      | some prompt =>
          let t := { s with inFlight := s.inFlight.eraseIdx i }
          some (if parsed then t.queueApproval (.phone prompt) else t)
  | .loseMessage i => some { s with inFlight := s.inFlight.eraseIdx i }
  | .windowsPrompt key => some (s.queueApproval (.windows key))
  | .take root =>
      match s.pump, s.queue.tryTake with
      | .idle, some (prompt, queue) =>
          if root then some { s with queue, pump := .shown prompt }
          else some { s with queue := queue.requeue prompt }
      | _, _ => none
  | .answer approved sent =>
      match s.pump with
      | .shown (.phone prompt) =>
          let command := if approved then .approve prompt else .deny prompt.deviceId
          some { s with
            pump := .answered (.phone prompt)
            commands := if sent then s.commands ++ [command] else s.commands }
      | .shown prompt => some { s with pump := .answered prompt }
      | _ => none
  | .fail =>
      match s.pump with
      | .shown prompt =>
          some { s with queue := s.queue.complete ApprovalPrompt.key prompt, pump := .idle }
      | _ => none
  | .complete =>
      match s.pump with
      | .answered prompt =>
          some { s with queue := s.queue.complete ApprovalPrompt.key prompt, pump := .idle }
      | _ => none
  | .restartGui => some { s with queue := {}, pump := .idle }
  | .execute i env =>
      match s.commands[i]? with
      | none => none
      | some command => some ({ s with commands := s.commands.eraseIdx i }.run command env)
  | .loseCommand i => some { s with commands := s.commands.eraseIdx i }

/-! ## The condition -/

/-- The open prompt of the pump. -/
def ApprovalPump.phones : ApprovalPump → List PairingPrompt
  | .shown prompt => prompt.phones
  | .idle | .answered _ => []

namespace PairingSystem

variable (cfg : AuthConfig) (s : PairingSystem)

/-- The prompts that may still be approved: on their way to the GUI, queued, open, or approved with
the command on its way. -/
def outstanding : List PairingPrompt :=
  s.inFlight ++ s.queue.items.flatMap (·.phones) ++ s.pump.phones ++ s.commands.flatMap (·.phones)

/-- The body of a post that gets as far as the store. -/
def admitted (post : PairPost) : Option PairBody :=
  if s.server.validateSessionToken cfg (getTokenFromRequest post.auth) && post.bodySize ≤ 4096 &&
      cfg.pairingStore then post.body
  else none

/-- The request of a body waits for the user under the prompt of another credential: such a prompt
is outstanding for its device ID, or the device is trusted already and a pending entry of the ID has
another credential, which the request does not replace. -/
def Slips (body : PairBody) (env : StoreEnv) : Prop :=
  let hash := cfg.native.crypto.sha256Hex body.credential
  s.store.waits cfg.native.crypto body.deviceId body.deviceName body.credential s.autoApproveKnown
    (s.env env) = true ∧
  ((∃ m ∈ s.outstanding, m.deviceId = body.deviceId ∧
      cfg.native.crypto.sha256Hex m.credential ≠ hash) ∨
    (s.store.knows cfg.native.crypto body.deviceId body.credential = true ∧
      ∃ k ∈ (s.store.pruneLocked (s.env env)).pendingKeys, k.1 = body.deviceId ∧ k.2 ≠ hash))

end PairingSystem

/-- No request slips under the prompt of another one. -/
def PairingLabel.bound (cfg : AuthConfig) (s : PairingSystem) : PairingLabel → Prop
  | .post request env => ∀ body, s.admitted cfg request = some body → ¬s.Slips cfg body env
  | _ => True

/-- An approval made trusted the credential of the request that its prompt displayed, and nothing
else. -/
def Approved.AsPrompted (cfg : AuthConfig) (e : Approved) : Prop :=
  ∃ device, e.after = e.before.filter (fun value => value.id != e.prompt.deviceId) ++ [device] ∧
    device.id = e.prompt.deviceId ∧
    device.credentialHash = cfg.native.crypto.sha256Hex e.prompt.credential

/-! ## The invariant -/

/-- What is pending for the ID of an outstanding prompt is the credential of the prompt. -/
structure Bound (cfg : AuthConfig) (s : PairingSystem) : Prop where
  unique : s.store.UniquePending
  bound : ∀ m ∈ s.outstanding, ∀ k ∈ s.store.pendingKeys, k.1 = m.deviceId →
    k.2 = cfg.native.crypto.sha256Hex m.credential
  log : ∀ e ∈ s.log, e.AsPrompted cfg

variable {cfg : AuthConfig} {s t : PairingSystem}

theorem Bound.fewer (h : Bound cfg s) (hpending : t.store.pendingKeys.Sublist s.store.pendingKeys)
    (hprompts : ∀ m ∈ t.outstanding, m ∈ s.outstanding) (hlog : t.log = s.log) : Bound cfg t where
  unique := h.unique.sublist hpending
  bound := by
    intro m hm k hk
    exact h.bound m (hprompts m hm) k (hpending.subset hk)
  log := by rw [hlog]; exact h.log

theorem mem_outstanding {m : PairingPrompt} :
    m ∈ s.outstanding ↔ m ∈ s.inFlight ∨ m ∈ s.queue.items.flatMap (·.phones) ∨
      m ∈ s.pump.phones ∨ m ∈ s.commands.flatMap (·.phones) := by
  simp only [PairingSystem.outstanding, List.mem_append, or_assoc]

/-! ## The server -/

section Server

variable {v w : HttpServer}

theorem native_accept {tid : Nat} {call : AuthCall} {principal : UploadPrincipal} {hashed : Bool} :
    (v.accept cfg tid call principal hashed).native = v.native := by
  unfold HttpServer.accept
  split
  · rfl
  · simp only
    split <;> rfl

/-- A step of the server makes at most one step of the stores. -/
theorem native_of_authStep {l : AuthLabel} (h : authStep cfg v l = some w) :
    w.native = v.native ∨ (∃ op, w.native = v.native.after cfg.native op) ∨
      ∃ l', l = .native l' ∧ nativeStep cfg.native v.native l' = some w.native := by
  cases l with
  | native l =>
    obtain ⟨native, hn, rfl⟩ := Option.map_eq_some_iff.mp h
    exact .inr (.inr ⟨l, rfl, hn⟩)
  | setToken data =>
    cases h
    left
    unfold HttpServer.setTokenCommand HttpServer.setToken
    split
    · rfl
    · split <;> rfl
  | setBrowserBootstrap bootstrap =>
    cases h
    left
    unfold HttpServer.setBrowserBootstrap
    split <;> rfl
  | exchangeBootstrap bootstrap randomBytes =>
    cases h
    left
    unfold HttpServer.exchangeBrowserBootstrap
    split
    · rfl
    · split <;> rfl
  | reorderSessions sessions =>
    simp only [authStep] at h
    split at h <;> cases h
    exact .inl rfl
  | begin tid call | finish tid =>
    simp only [authStep] at h
    split at h <;> cases h
    exact .inl rfl
  | checkSession tid hashed =>
    simp only [authStep] at h
    split at h
    · split at h
      · cases h
        exact .inl rfl
      · split at h <;> cases h
        · exact .inl native_accept
        · exact .inl rfl
    · cases h
  | checkBrowser tid hashed =>
    have hsame : ∀ token, (v.validateBrowserSessionToken token).1.native = v.native := by
      intro token
      unfold HttpServer.validateBrowserSessionToken
      split
      · rfl
      · split
        · rfl
        · split <;> rfl
    simp only [authStep] at h
    split at h
    · split at h <;> cases h
      · exact .inl (native_accept.trans (hsame _))
      · exact .inl (hsame _)
    · cases h
  | checkPairing tid hashed =>
    simp only [authStep] at h
    split at h
    · split at h <;> cases h
      · exact .inl native_accept
      · exact .inl rfl
    · cases h
  | checkGrant tid hashed =>
    simp only [authStep] at h
    split at h
    · split at h <;> cases h
      · exact .inr (.inl ⟨_, native_accept⟩)
      · exact .inr (.inl ⟨_, rfl⟩)
    · cases h
  | record tid id name size skip =>
    have hasked : ∀ context, (v.authorizeUploadFile cfg context id name size skip).1.native =
        v.native ∨ ∃ op, (v.authorizeUploadFile cfg context id name size skip).1.native =
          v.native.after cfg.native op := by
      intro context
      unfold HttpServer.authorizeUploadFile
      split
      · exact .inl rfl
      · split
        · exact .inl rfl
        · split
          · exact .inl rfl
          · exact .inr ⟨_, rfl⟩
    simp only [authStep] at h
    split at h
    · rename_i context _
      rcases hasked context with hn | ⟨op, hn⟩
      · split at h <;> cases h <;> exact .inl hn
      · split at h <;> cases h <;> exact .inr (.inl ⟨op, hn⟩)
    · cases h

/-- A step of the server other than the phone pairing pends nothing. -/
theorem pendingKeys_of_authStep {l : AuthLabel} (hl : ∀ op, l ≠ .native (.phone op))
    (h : authStep cfg v l = some w) :
    w.native.store.pairingStore.pendingKeys.Sublist
      v.native.store.pairingStore.pendingKeys := by
  rcases native_of_authStep h with hn | ⟨op, hn⟩ | ⟨l', rfl, hn⟩
  · rw [hn]
  · rw [hn]
    exact pendingKeys_call _ op
  · have hstep := nativeStep_spec hn
    generalize w.native = n at hstep ⊢
    cases hstep with
    | call op => exact pendingKeys_call _ op
    | advance | reorder => exact .refl _
    | phone op => exact absurd rfl (hl op)

end Server

/-! ## One step -/

theorem store_setStore {store : PairingStore} : (s.setStore store).store = store := rfl

/-- A post either leaves no prompt and pends nothing, or it waits under its own prompt. -/
theorem pairRequest_spec (post : PairPost) (env : StoreEnv) :
    ((s.pairRequest cfg post env).2.2 = none ∧
      (s.pairRequest cfg post env).1.pendingKeys.Sublist s.store.pendingKeys) ∨
    ∃ body, s.admitted cfg post = some body ∧
      s.store.waits cfg.native.crypto body.deviceId body.deviceName body.credential
        s.autoApproveKnown (s.env env) = true ∧
      PairingStore.Pended (s.store.pruneLocked (s.env env)) (s.pairRequest cfg post env).1
        body.deviceId (cfg.native.crypto.sha256Hex body.credential)
        (s.store.knows cfg.native.crypto body.deviceId body.credential = true) ∧
      (s.pairRequest cfg post env).2.2 =
        some ⟨body.deviceId, body.deviceName, post.ip, body.credential⟩ := by
  unfold PairingSystem.pairRequest
  split
  · exact .inl ⟨rfl, .refl _⟩
  · rename_i htoken
    split
    · exact .inl ⟨rfl, .refl _⟩
    · rename_i hsize
      split
      · exact .inl ⟨rfl, .refl _⟩
      · rename_i body hbody
        split
        · exact .inl ⟨rfl, .refl _⟩
        · rename_i hstore
          have hadmitted : s.admitted cfg post = some body := by
            unfold PairingSystem.admitted
            rw [if_pos (by simpa using ⟨⟨by simpa using htoken, by omega⟩, by simpa using hstore⟩)]
            exact hbody
          have hspec := PairingStore.request_spec cfg.native.crypto s.store body.deviceId
            body.deviceName body.credential post.ip s.autoApproveKnown (s.env env)
          simp only
          generalize s.store.request cfg.native.crypto body.deviceId body.deviceName
            body.credential post.ip s.autoApproveKnown (s.env env) = requested at hspec ⊢
          cases hspec with
          | waiting store' waits pended => exact .inr ⟨body, hadmitted, waits, pended, rfl⟩
          | settled store' result settles fewer =>
            left
            cases result with
            | error => exact ⟨rfl, fewer⟩
            | ok status =>
              cases status with
              | pending => exact absurd rfl settles
              | approved | denied | atCapacity => exact ⟨rfl, fewer⟩

theorem mem_outstanding_posted {store : PairingStore} {prompt : Option PairingPrompt}
    {m : PairingPrompt} (h : m ∈ (s.posted store prompt).outstanding) :
    m ∈ s.outstanding ∨ prompt = some m := by
  rw [mem_outstanding] at h ⊢
  rcases h with h | h
  · rcases List.mem_append.mp h with h | h
    · exact .inl (.inl h)
    · exact .inr (Option.mem_toList.mp h)
  · exact .inl (.inr h)

/-- **Posts that are bound keep the invariant.** -/
theorem Bound.post (h : Bound cfg s) {post : PairPost} {env : StoreEnv}
    (hbound : (PairingLabel.post post env).bound cfg s)
    (hst : pairingStep cfg s (.post post env) = some t) : Bound cfg t := by
  cases hst
  rcases @pairRequest_spec cfg s post env with
    ⟨hnone, hfewer⟩ | ⟨body, hadmitted, hwaits, hpended, hprompt⟩
  · refine h.fewer hfewer ?_ rfl
    intro m hm
    rcases mem_outstanding_posted hm with hm | hm
    · exact hm
    · rw [hnone] at hm
      cases hm
  · have hslips := hbound body hadmitted
    have hunique := h.unique.sublist (@PairingStore.pendingKeys_pruneLocked s.store (s.env env))
    have hown : ∀ m ∈ s.outstanding, m.deviceId = body.deviceId →
        cfg.native.crypto.sha256Hex m.credential = cfg.native.crypto.sha256Hex body.credential := by
      intro m hm hid
      by_contra hne
      exact hslips ⟨hwaits, .inl ⟨m, hm, hid, hne⟩⟩
    have hpending : ∀ k ∈ (s.pairRequest cfg post env).1.pendingKeys, k.1 = body.deviceId →
        k.2 = cfg.native.crypto.sha256Hex body.credential := by
      intro k hk hid
      rcases hpended.own hunique k hk hid with hhash | ⟨hknown, hold⟩
      · exact hhash
      · by_contra hne
        exact hslips ⟨hwaits, .inr ⟨hknown, k, hold, hid, hne⟩⟩
    refine ⟨hpended.unique hunique, ?_, h.log⟩
    intro m hm k hk hid
    have hk' : k ∈ (s.pairRequest cfg post env).1.pendingKeys := hk
    by_cases hdevice : k.1 = body.deviceId
    · rw [hpending k hk' hdevice]
      rcases mem_outstanding_posted hm with hm | hm
      · exact (hown m hm (hid.symm.trans hdevice)).symm
      · rw [hprompt] at hm
        cases hm
        rfl
    · rcases mem_outstanding_posted hm with hm | hm
      · have hold := PairingStore.pendingKeys_pruneLocked.subset (hpended.others k hk' hdevice)
        exact h.bound m hm k hold hid
      · rw [hprompt] at hm
        cases hm
        exact absurd hid hdevice

/-- The answer to a prompt is executed. -/
theorem Bound.run (h : Bound cfg s) {command : DeviceCommand} {env : StoreEnv}
    (hcommand : ∀ m ∈ command.phones, ∀ k ∈ s.store.pendingKeys, k.1 = m.deviceId →
      k.2 = cfg.native.crypto.sha256Hex m.credential) : Bound cfg (s.run command env) := by
  unfold PairingSystem.run
  cases command with
  | deny deviceId =>
    refine h.fewer ?_ (fun m hm => hm) rfl
    rw [store_setStore, PairingStore.pendingKeys_deny]
  | approve prompt =>
    have hfewer := @PairingStore.pendingKeys_approve s.store (s.env env) prompt.deviceId
    simp only
    split
    · rename_i happroved
      refine ⟨h.unique.sublist hfewer, ?_, ?_⟩
      · intro m hm k hk
        exact h.bound m hm k (hfewer.subset hk)
      · intro e he
        rcases List.mem_append.mp he with he | he
        · exact h.log e he
        · rw [List.mem_singleton.mp he]
          obtain ⟨device, hafter, hid, hkey⟩ := PairingStore.approve_spec happroved
          exact ⟨device, hafter, hid, hcommand prompt (List.mem_singleton_self _) _ hkey rfl⟩
    · exact h.fewer hfewer (fun m hm => hm) rfl

/-- A prompt joins the queue, or a denial is sent. -/
theorem mem_outstanding_queueApproval {prompt : ApprovalPrompt} {m : PairingPrompt}
    (h : m ∈ (s.queueApproval prompt).outstanding) : m ∈ s.outstanding ∨ m ∈ prompt.phones := by
  unfold PairingSystem.queueApproval BoundedRequestQueue.tryAdd at h
  rw [mem_outstanding] at h ⊢
  simp only at h
  split at h
  · simp only [List.flatMap_append, List.mem_append] at h
    have hdeny : ∀ deviceId, m ∉ [DeviceCommand.deny deviceId].flatMap (·.phones) := by
      intro deviceId hm
      cases hm
    tauto
  · split at h
    · exact .inl h
    · split at h
      · exact .inl h
      · simp only [List.flatMap_append, List.mem_append, List.flatMap_singleton] at h
        tauto

theorem store_queueApproval {prompt : ApprovalPrompt} :
    (s.queueApproval prompt).store = s.store ∧ (s.queueApproval prompt).log = s.log := by
  unfold PairingSystem.queueApproval
  simp only
  split <;> exact ⟨rfl, rfl⟩

theorem mem_flatMap_eraseIdx {α β : Type} {f : α → List β} {l : List α} {i : Nat} {b : β}
    (h : b ∈ (l.eraseIdx i).flatMap f) : b ∈ l.flatMap f := by
  obtain ⟨a, ha, hb⟩ := List.mem_flatMap.mp h
  exact List.mem_flatMap.mpr ⟨a, List.mem_of_mem_eraseIdx ha, hb⟩

/-- The user's answer carries at most the prompt it answers. -/
theorem mem_answer {commands : List DeviceCommand} {prompt m : PairingPrompt} {approved sent : Bool}
    (h : m ∈ (if sent then
        commands ++ [if approved then .approve prompt else .deny prompt.deviceId]
      else commands).flatMap (·.phones)) : m ∈ commands.flatMap (·.phones) ∨ m = prompt := by
  cases sent with
  | false => exact .inl h
  | true =>
    rw [if_pos rfl, List.flatMap_append, List.mem_append] at h
    refine h.imp_right fun h => ?_
    cases approved with
    | false => cases h
    | true => exact List.mem_singleton.mp h

/-- **One step keeps the invariant.** -/
theorem Bound.step (h : Bound cfg s) {l : PairingLabel} (hbound : l.bound cfg s)
    (hst : pairingStep cfg s l = some t) : Bound cfg t := by
  cases l with
  | server l =>
    unfold pairingStep at hst
    split at hst
    · cases hst
    · rename_i l' hphone heq
      cases heq
      obtain ⟨server, hserver, rfl⟩ := Option.map_eq_some_iff.mp hst
      refine h.fewer (pendingKeys_of_authStep ?_ hserver) (fun m hm => hm) rfl
      rintro op rfl
      exact hphone op rfl
    all_goals rename_i heq; cases heq
  | setAutoApproveKnown enabled =>
    cases hst
    exact h.fewer (.refl _) (fun m hm => hm) rfl
  | post post env => exact h.post hbound hst
  | status id credential =>
    cases hst
    exact h.fewer PairingStore.pendingKeys_status (fun m hm => hm) rfl
  | deliver i parsed =>
    simp only [pairingStep] at hst
    split at hst
    · cases hst
    · rename_i prompt hprompt
      cases hst
      have hfewer : ∀ m ∈ { s with inFlight := s.inFlight.eraseIdx i }.outstanding,
          m ∈ s.outstanding := by
        intro m hm
        rw [mem_outstanding] at hm ⊢
        exact hm.imp_left List.mem_of_mem_eraseIdx
      cases parsed with
      | false => exact h.fewer (.refl _) hfewer rfl
      | true =>
        obtain ⟨hstore, hlog⟩ := @store_queueApproval { s with inFlight := s.inFlight.eraseIdx i }
          (.phone prompt)
        refine h.fewer ?_ ?_ hlog
        · rw [if_pos rfl, hstore]
          exact .refl _
        · intro m hm
          rcases mem_outstanding_queueApproval hm with hm | hm
          · exact hfewer m hm
          · rw [List.mem_singleton.mp hm, mem_outstanding]
            exact .inl (List.mem_of_getElem? hprompt)
  | loseMessage i =>
    cases hst
    refine h.fewer (.refl _) ?_ rfl
    intro m hm
    rw [mem_outstanding] at hm ⊢
    exact hm.imp_left List.mem_of_mem_eraseIdx
  | windowsPrompt key =>
    cases hst
    obtain ⟨hstore, hlog⟩ := @store_queueApproval s (.windows key)
    refine h.fewer ?_ ?_ hlog
    · rw [hstore]
    · intro m hm
      rcases mem_outstanding_queueApproval hm with hm | hm
      · exact hm
      · cases hm
  | take root =>
    simp only [pairingStep] at hst
    split at hst
    · rename_i prompt queue hpump htake
      have hitems : s.queue.items = prompt :: queue.items := by
        unfold BoundedRequestQueue.tryTake at htake
        split at htake
        · cases htake
        · rename_i item items hitems
          cases htake
          exact hitems
      have hall : ∀ m, m ∈ queue.items.flatMap (·.phones) ∨ m ∈ prompt.phones →
          m ∈ s.queue.items.flatMap (·.phones) := by
        intro m hm
        rw [hitems, List.flatMap_cons, List.mem_append]
        exact hm.symm
      split at hst <;> cases hst <;> refine h.fewer (.refl _) ?_ rfl <;> intro m hm <;>
        rw [mem_outstanding] at hm ⊢ <;> specialize hall m
      · have hshown : (ApprovalPump.shown prompt).phones = prompt.phones := rfl
        rw [hshown] at hm
        tauto
      · simp only [BoundedRequestQueue.requeue, List.flatMap_append, List.mem_append,
          List.flatMap_singleton] at hm
        tauto
    · cases hst
  | answer approved sent =>
    simp only [pairingStep] at hst
    split at hst
    · rename_i prompt hpump
      cases hst
      refine h.fewer (.refl _) ?_ rfl
      intro m hm
      rw [mem_outstanding] at hm ⊢
      rw [hpump]
      have hanswered : m ∉ (ApprovalPump.answered (.phone prompt)).phones := nofun
      rcases hm with hm | hm | hm | hm
      · exact .inl hm
      · exact .inr (.inl hm)
      · exact absurd hm hanswered
      · refine .inr (.inr ?_)
        rcases mem_answer hm with hm | rfl
        · exact .inr hm
        · exact .inl (List.mem_singleton_self _)
    · rename_i prompt hpump hwindows
      cases hst
      refine h.fewer (.refl _) ?_ rfl
      intro m hm
      rw [mem_outstanding] at hm ⊢
      have hanswered : m ∉ (ApprovalPump.answered prompt).phones := nofun
      tauto
    · cases hst
  | fail | complete =>
    simp only [pairingStep] at hst
    split at hst
    · cases hst
      refine h.fewer (.refl _) ?_ rfl
      intro m hm
      rw [mem_outstanding] at hm ⊢
      have hidle : m ∉ ApprovalPump.idle.phones := nofun
      simp only [BoundedRequestQueue.complete] at hm
      tauto
    · cases hst
  | restartGui =>
    cases hst
    refine h.fewer (.refl _) ?_ rfl
    intro m hm
    rw [mem_outstanding] at hm ⊢
    have hidle : m ∉ ApprovalPump.idle.phones := nofun
    have hempty : m ∉ (({} : BoundedRequestQueue ApprovalPrompt).items).flatMap (·.phones) := nofun
    tauto
  | execute i env =>
    simp only [pairingStep] at hst
    split at hst
    · cases hst
    · rename_i command hcommand
      cases hst
      have hmem : ∀ m ∈ command.phones, m ∈ s.outstanding := by
        intro m hm
        rw [mem_outstanding]
        have hflat := List.mem_flatMap.mpr ⟨command, List.mem_of_getElem? hcommand, hm⟩
        exact .inr (.inr (.inr hflat))
      have herase : Bound cfg { s with commands := s.commands.eraseIdx i } := by
        refine h.fewer (.refl _) ?_ rfl
        intro m hm
        rw [mem_outstanding] at hm ⊢
        exact hm.imp_right fun hm => hm.imp_right fun hm => hm.imp_right mem_flatMap_eraseIdx
      exact herase.run fun m hm => h.bound m (hmem m hm)
  | loseCommand i =>
    cases hst
    refine h.fewer (.refl _) ?_ rfl
    intro m hm
    rw [mem_outstanding] at hm ⊢
    exact hm.imp_right fun hm => hm.imp_right fun hm => hm.imp_right mem_flatMap_eraseIdx

/-! ## Runs -/

abbrev PairingRun (cfg : AuthConfig) : PairingSystem → PairingSystem → Prop :=
  Run (pairingStep cfg) fun s l => l.bound cfg s

variable {defaultToken : ByteString} {trusted : List TrustedDevice} {clock : Nat}

/-- **The user approves what becomes trusted.**  In every run in which no request waits under the
prompt of another credential, whatever was approved as the answer to a prompt is the credential of
the request behind the prompt. -/
theorem approved_as_prompted (hrun : PairingRun cfg (.init defaultToken trusted clock) s) :
    ∀ e ∈ s.log, e.AsPrompted cfg := by
  have hbound : Bound cfg s := by
    apply Run.invariant hrun
    · refine ⟨List.nodup_nil, ?_, ?_⟩
      · intro m hm
        cases hm
      · intro e he
        cases he
    · intro t l u ht hl hst
      exact ht.step hl hst
  exact hbound.log

/-! ## Two phones with one device ID -/

instance (body : PairBody) (env : StoreEnv) : Decidable (s.Slips cfg body env) := by
  unfold PairingSystem.Slips
  infer_instance

/-- A test for bound labels. -/
def PairingLabel.test (cfg : AuthConfig) (s : PairingSystem) : PairingLabel → Bool
  | .post request env =>
      match s.admitted cfg request with
      | none => true
      | some body => decide ¬s.Slips cfg body env
  | _ => true

theorem PairingLabel.bound_of_test {l : PairingLabel} (h : l.test cfg s = true) :
    l.bound cfg s := by
  cases l with
  | post request env =>
    intro body hbody
    simp only [PairingLabel.test, hbody, decide_eq_true_eq] at h
    exact h
  | _ => trivial

/-- SHA-256 and HMAC for two credentials and one session token. -/
def phoneServer : AuthConfig where
  native := { pairedReceiver with
    crypto := .tabulated
      [(List.replicate 32 97,
        ascii "3ba3f5f43b92602683c19aee62a20342b084dd5971ddd33808d81a328879a547"),
      (List.replicate 32 98,
        ascii "bdb339768bc5e4fecbe55a442056919b2b325907d49bcbf3bf8de13781996a83")]
      [((grantSession, ascii "lmt-pairing-only-v1"),
        ascii "01474a9343982147ea494e38e9a94d62a7cd10c90354758901e59a4caaa86fec")] }
  sha := pairedSha

/-- The token of the QR code. -/
def phoneToken : ByteString :=
  ascii "pair-01474a9343982147ea494e38e9a94d62a7cd10c90354758901e59a4caaa86fec"

/-- A post to `/pair/request` with that token. -/
def phonePost (name : String) (credential : UInt8) : PairPost where
  auth := { uploadToken := phoneToken }
  bodySize := 200
  body := some ⟨ascii "phone", ascii name, List.replicate 32 credential⟩
  ip := ascii "10.0.0.7"

/-- The prompt of such a post. -/
def phonePrompt (name : String) (credential : UInt8) : PairingPrompt :=
  ⟨ascii "phone", ascii name, ascii "10.0.0.7", List.replicate 32 credential⟩

theorem approved_as_prompted_samplePhone :
    ∃ s e, PairingRun phoneServer (.init grantSession [] 1000) s ∧ s.log = [e] ∧
      e.prompt = phonePrompt "Ada" 97 ∧ e.AsPrompted phoneServer := by
  obtain ⟨s, hrun, htest⟩ := Run.exists_of_exec (pairingStep phoneServer)
    (P := fun s l => l.bound phoneServer s) (fun s l => l.test phoneServer s)
    (fun s => decide (s.log.map (·.prompt) = [phonePrompt "Ada" 97]))
    (.init grantSession [] 1000)
    [.post (phonePost "Ada" 97) {}, .deliver 0 true, .take true, .answer true true, .execute 0 {},
      .complete]
    (fun _ _ h => PairingLabel.bound_of_test h) (by decide)
  rw [decide_eq_true_eq] at htest
  obtain ⟨e, hlog, hprompt⟩ := List.map_eq_singleton_iff.mp htest
  refine ⟨s, e, hrun, hlog, hprompt, ?_⟩
  apply approved_as_prompted hrun
  rw [hlog]
  exact List.mem_singleton_self e

/-- A test for an approval of the first phone that made another credential trusted. -/
def Approved.otherTest (e : Approved) : Bool :=
  e.prompt == phonePrompt "Ada" 97 &&
    e.after.all fun device => device.credentialHash !=
      phoneServer.native.crypto.sha256Hex (List.replicate 32 97)

/-- While the prompt of the first phone is open, a second post replaces the pending credential of
its device ID; the user's answer to the prompt makes the second credential trusted. -/
theorem approved_other_credential :
    ∃ s e, Run (pairingStep phoneServer) (fun _ _ => True) (.init grantSession [] 1000) s ∧
      e ∈ s.log ∧ e.prompt = phonePrompt "Ada" 97 ∧ ¬e.AsPrompted phoneServer := by
  obtain ⟨s, hrun, htest⟩ := Run.exists_of_exec (pairingStep phoneServer) (P := fun _ _ => True)
    (fun _ _ => true) (fun s => s.log.any (·.otherTest)) (.init grantSession [] 1000)
    [.post (phonePost "Ada" 97) {}, .deliver 0 true, .take true, .post (phonePost "Eve" 98) {},
      .deliver 0 true, .answer true true, .execute 0 {}, .complete]
    (fun _ _ _ => trivial) (by decide)
  obtain ⟨e, he, hother⟩ := List.any_eq_true.mp htest
  rw [Approved.otherTest, Bool.and_eq_true, beq_iff_eq, List.all_eq_true] at hother
  obtain ⟨hprompt, hother⟩ := hother
  refine ⟨s, e, hrun, he, hprompt, ?_⟩
  rintro ⟨device, hafter, -, hhash⟩
  have hdevice : device ∈ e.after := by
    rw [hafter]
    exact List.mem_append_right _ (List.mem_singleton_self device)
  have hne := hother device hdevice
  rw [hhash, hprompt] at hne
  simp [phonePrompt] at hne

end LocalMediaTransfer
