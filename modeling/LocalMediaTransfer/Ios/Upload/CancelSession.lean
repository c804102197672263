import LocalMediaTransfer.Ios.Upload.UploadCancel
import LocalMediaTransfer.Server.Http.Authorization

/-!
# Cancelling the upload session of a phone

`cancelUploadSession` and `requireOk` (`api/ApiClient.ts`) against the `/upload_session/cancel`
handler (`server/HttpServer.cpp`).  A run on the phone sends cancel requests; they reach the
receiver in any order with its other work, and their answers come back or are lost.

* `cancelStep` — one resumption of the run, one step of the writer, or one step of a cancel request.
* `admit_phone` — the answer of the handler to a phone whose credential it accepts.
* `cancel_keeps_connection_iff` — **a cancel logs the phone out exactly when it is answered while
  the writer knows no file of the session**.
* `early_cancel_disconnects` — a cancel before the first chunk does.
-/

set_option autoImplicit false

namespace LocalMediaTransfer

open Lib

/-! ## The phone and its receiver -/

/-- `FileWriter::ownsSession`. -/
def Writer.ownsSession (w : Writer) (sessionPrefix : ByteString) : Bool :=
  w.sessions.keys.any fun id => sessionPrefix.isPrefixOf id

/-- The calls of `api.cancelUploadSession` in a run. -/
def UploadRun.cancelRequests (s : UploadRun) : Nat := s.log.count .cancelRequest

/-- `requireOk`: the statuses that are reported as an authentication failure. -/
def notifiesUnauthorized (status : Nat) : Bool :=
  if 200 ≤ status ∧ status < 300 then false else status = 401 || status = 403

structure PhoneConfig where
  upload : UploadConfig
  /-- `Date.now()` at the start of the run. -/
  startedAt : Nat
  sessionId : upload.sessionId = "ios-" ++ toString startedAt
  token : ByteString
  auth : AuthConfig
  writer : WriterConfig

namespace PhoneConfig

variable (cfg : PhoneConfig)

/-- The headers of a request of the phone, as authorization reads them. -/
def request : AuthRequest := { uploadToken := cfg.token }

/-- What the cancel handler reads, after `authorizeUpload`. -/
def cancelRequest (context : Option UploadAuthorization) : CancelRequest where
  authorization := context.map fun context => (context.ownerPrefix, context.transferId)
  sessionId := some (ascii cfg.upload.sessionId)
  nativeCancelled := false

/-- The prefix of the files of the session. -/
def sessionPrefix (context : UploadAuthorization) : ByteString :=
  context.ownerPrefix ++ ascii cfg.upload.sessionId ++ ascii "-"

/-- `authorizeUpload` accepts the request of the phone in some state of the server. -/
def Grants (context : UploadAuthorization) : Prop :=
  ∃ defaultToken pairingStore clock server,
    AuthRun cfg.auth (.init defaultToken pairingStore clock) server ∧
      .authorized cfg.request context ∈ server.log

end PhoneConfig

structure CancelSystem where
  phone : UploadRun
  receiver : System
  /-- The cancel requests that the receiver has got, or that were lost. -/
  settled : Nat := 0
  /-- The handlers that are about to call `abortFilesWithPrefix`. -/
  aborting : Nat → Option ByteString := fun _ => none
  /-- The calls of `api.notifyUnauthorized` by cancel requests. -/
  notified : Nat := 0

/-- A run begins, at any moment of the receiver. -/
def CancelSystem.start (cfg : PhoneConfig) (receiver : System) : CancelSystem where
  phone := .start cfg.upload
  receiver := receiver

/-- The phone gets an answer, unless it is lost. -/
def CancelSystem.answer (s : CancelSystem) (status : Nat) (delivered : Bool) : CancelSystem :=
  if delivered && notifiesUnauthorized status then { s with notified := s.notified + 1 } else s

inductive CancelLabel where
  | phone (l : RunLabel)
  | receiver (l : Label)
  /-- A cancel request does not reach the receiver, or is not sent for want of a server URL. -/
  | lost
  /-- The handler up to its call of `abortFilesWithPrefix`. -/
  | handle (tid : Nat) (context : Option UploadAuthorization) (delivered : Bool)
  /-- The call; `throws` when the handler catches an exception of it. -/
  | abort (tid : Nat) (throws delivered : Bool)

/-- One step. -/
def cancelStep (cfg : PhoneConfig) (s : CancelSystem) : CancelLabel → Option CancelSystem
  | .phone l => (runStep cfg.upload s.phone l).map fun phone => { s with phone }
  | .receiver l => (step cfg.writer s.receiver l).map fun receiver => { s with receiver }
  | .lost =>
    if s.settled < s.phone.cancelRequests then some { s with settled := s.settled + 1 } else none
  | .handle tid context delivered =>
    if s.settled < s.phone.cancelRequests ∧ s.aborting tid = none then
      let s := { s with settled := s.settled + 1 }
      match CancelRequest.admit (cfg.cancelRequest context) s.receiver.writer.ownsSession with
      | .error (status, _) => some (s.answer status delivered)
      | .ok sessionPrefix =>
        some { s with aborting := Function.update s.aborting tid (some sessionPrefix) }
    else none
  | .abort tid throws delivered =>
    match s.aborting tid with
    | none => none
    | some sessionPrefix =>
      (step cfg.writer s.receiver (.call tid (.abortFilesWithPrefix sessionPrefix))).map
        fun receiver =>
        ({ s with receiver, aborting := Function.update s.aborting tid none } : CancelSystem).answer
          (if throws then 400 else 200) delivered

/-- The receiver accepts the credential of the phone. -/
def CancelLabel.Accepted (cfg : PhoneConfig) : CancelLabel → Prop
  | .handle _ context _ => ∃ c, context = some c ∧ cfg.Grants c
  | _ => True

/-- **The condition**: a cancel request whose answer arrives finds a file of its session, unless the
session ID has not the form the handler expects. -/
def CancelLabel.FindsSession (cfg : PhoneConfig) (s : CancelSystem) : CancelLabel → Prop
  | .handle _ (some context) true =>
    isUploadSession (ascii cfg.upload.sessionId) = true →
      s.receiver.writer.ownsSession (cfg.sessionPrefix context) = true
  | _ => True

/-! ## The handler -/

variable {cfg : PhoneConfig} {s t : CancelSystem} {l : CancelLabel} {context : UploadAuthorization}
variable {receiver : System}

theorem isPrefixOf_win_session : (ascii "win-").isPrefixOf
    (ascii cfg.upload.sessionId) = false := by
  have hs : ascii cfg.upload.sessionId = ascii "ios-" ++ ascii (toString cfg.startedAt) := by
    rw [cfg.sessionId]
    simp only [ascii, String.toList_append, List.map_append]
  rw [hs]
  rfl

theorem PhoneConfig.Grants.transferId (h : cfg.Grants context) : context.transferId = [] := by
  obtain ⟨defaultToken, pairingStore, clock, server, hrun, hmem⟩ := h
  obtain ⟨pre, post, hlog⟩ := List.append_of_mem hmem
  obtain ⟨_, _, _, -, -, -, -, -, hjustified⟩ := justified_of_run hrun hlog
  exact hjustified.2.1

/-- The handler and a phone whose credential it accepts. -/
theorem admit_phone (h : cfg.Grants context) (ownsSession : ByteString → Bool) :
    CancelRequest.admit (cfg.cancelRequest (some context)) ownsSession =
      if isUploadSession (ascii cfg.upload.sessionId) = false then
        .error (400, "Invalid upload session")
      else if ownsSession (cfg.sessionPrefix context) = false then
        .error (403, "Session ownership mismatch")
      else .ok (cfg.sessionPrefix context) := by
  unfold CancelRequest.admit PhoneConfig.cancelRequest PhoneConfig.sessionPrefix
  simp only [Option.map_some, h.transferId, isPrefixOf_win_session, List.isEmpty_nil, Bool.not_true,
    Bool.false_or, Bool.not_eq_true', Bool.false_eq_true, if_false]

/-! ## Notifications -/

theorem notified_answer (status : Nat) (delivered : Bool) : (s.answer status delivered).notified =
    s.notified + if delivered && notifiesUnauthorized status then 1 else 0 := by
  unfold CancelSystem.answer
  split
  · rfl
  · rfl

theorem quiet_answer {status : Nat} {delivered : Bool} (h : status = 200 ∨ status = 400) :
    (s.answer status delivered).notified = s.notified := by
  rw [notified_answer]
  rcases h with rfl | rfl
  · simp [notifiesUnauthorized]
  · simp [notifiesUnauthorized]

/-- One step notifies exactly when it does not meet the condition. -/
theorem cancelStep_notified (hl : l.Accepted cfg) (hst : cancelStep cfg s l = some t) :
    s.notified ≤ t.notified ∧ (t.notified = s.notified ↔ l.FindsSession cfg s) := by
  cases l with
  | phone l =>
    obtain ⟨phone, -, rfl⟩ := Option.map_eq_some_iff.mp hst
    exact ⟨le_rfl, iff_of_true rfl trivial⟩
  | receiver l =>
    obtain ⟨receiver, -, rfl⟩ := Option.map_eq_some_iff.mp hst
    exact ⟨le_rfl, iff_of_true rfl trivial⟩
  | lost =>
    simp only [cancelStep] at hst
    split at hst
    · cases hst
      exact ⟨le_rfl, iff_of_true rfl trivial⟩
    · cases hst
  | handle tid context delivered =>
    obtain ⟨c, rfl, hgrants⟩ := hl
    simp only [cancelStep] at hst
    split at hst
    · rw [admit_phone hgrants] at hst
      by_cases hform : isUploadSession (ascii cfg.upload.sessionId) = false
      · -- 400: `requireOk` throws, and the throw is ignored
        rw [if_pos hform] at hst
        cases hst
        rw [quiet_answer (.inr rfl)]
        refine ⟨le_rfl, iff_of_true rfl ?_⟩
        cases delivered with
        | false => trivial
        | true => exact fun h => absurd h (by rw [hform]; exact Bool.false_ne_true)
      · rw [if_neg hform] at hst
        by_cases howns : s.receiver.writer.ownsSession (cfg.sessionPrefix c) = false
        · rw [if_pos howns] at hst
          cases hst
          rw [notified_answer]
          refine ⟨Nat.le_add_right .., ?_⟩
          cases delivered with
          | false => exact iff_of_true rfl trivial
          | true =>
            simp only [CancelLabel.FindsSession, howns, Bool.not_eq_false] at hform ⊢
            simp [notifiesUnauthorized, hform]
        · rw [if_neg howns] at hst
          cases hst
          refine ⟨le_rfl, iff_of_true rfl ?_⟩
          cases delivered with
          | false => trivial
          | true => exact fun _ => by simpa using howns
    · cases hst
  | abort tid throws delivered =>
    simp only [cancelStep] at hst
    split at hst
    · cases hst
    · obtain ⟨receiver, -, rfl⟩ := Option.map_eq_some_iff.mp hst
      have hstatus : (if throws then 400 else 200) = 200 ∨ (if throws then 400 else 200) = 400 := by
        cases throws with
        | false => exact .inl rfl
        | true => exact .inr rfl
      rw [quiet_answer hstatus]
      exact ⟨le_rfl, iff_of_true rfl trivial⟩

/-- **Cancelling logs the phone out exactly when a cancel request is answered while the writer knows
no file of its session.** -/
theorem cancel_keeps_connection_iff
    (hrun : Run (cancelStep cfg) (fun _ l => l.Accepted cfg) (.start cfg receiver) t) :
    t.notified = 0 ↔
      Run (cancelStep cfg) (fun s l => l.Accepted cfg ∧ l.FindsSession cfg s)
        (.start cfg receiver) t := by
  constructor
  · intro hnone
    induction hrun with
    | refl => exact .refl _
    | tail hr hl hst ih =>
      obtain ⟨hle, hiff⟩ := cancelStep_notified hl hst
      have hbefore := Nat.eq_zero_of_le_zero (hnone ▸ hle)
      exact .tail (ih hbefore) ⟨hl, hiff.mp (by rw [hnone, hbefore])⟩ hst
  · intro hfinds
    refine hfinds.invariant (I := fun u => u.notified = 0) rfl fun u l v hu hl hst => ?_
    rw [(cancelStep_notified hl.1 hst).2.mpr hl.2, hu]

/-! ## A phone with the session token of its receiver -/

def samplePhone : PhoneConfig where
  upload := { streamingConfig with sessionId := "ios-" ++ toString 1700000000000 }
  startedAt := 1700000000000
  sessionId := rfl
  token := grantSession
  auth := grantServer
  writer := sampleConfig .keepBoth

def samplePhoneContext : UploadAuthorization :=
  ⟨.session, .cancel, [], pairedSha.ownerPrefix grantSession, grantSession⟩

theorem samplePhone_grants : samplePhone.Grants samplePhoneContext := by
  obtain ⟨server, hrun, htest⟩ := Run.exists_of_exec (authStep grantServer) (P := fun _ _ => True)
    (fun _ _ => true)
    (fun server => decide (.authorized samplePhone.request samplePhoneContext ∈ server.log))
    (.init grantSession pairedDevices 1000)
    [.begin 0 (.authorizeUpload samplePhone.request .cancel), .checkSession 0 true]
    (fun _ _ _ => trivial) (by decide)
  exact ⟨_, _, _, server, hrun, of_decide_eq_true htest⟩

/-- A test for labels whose context the sample receiver grants. -/
def CancelLabel.test : CancelLabel → Bool
  | .handle _ context _ => context = some samplePhoneContext
  | _ => true

theorem CancelLabel.accepted_of_test (h : l.test = true) : l.Accepted samplePhone := by
  cases l with
  | handle tid context delivered =>
    exact ⟨samplePhoneContext, of_decide_eq_true h, samplePhone_grants⟩
  | _ => trivial

/-- The first chunk of the session. -/
def samplePhoneChunk : HttpChunkRequest :=
  { sampleRequest "ios-1700000000000-1" "0" "2" "4" "ab" with
    authorization := some samplePhoneContext.ownerPrefix }

/-- The user cancels after the first chunk. -/
theorem cancel_keeps_connection_iff_sample :
    ∃ t, Run (cancelStep samplePhone) (fun _ l => l.Accepted samplePhone)
        (.start samplePhone (.init ∅)) t ∧ t.settled = 1 ∧
      Run (cancelStep samplePhone)
        (fun s l => l.Accepted samplePhone ∧ l.FindsSession samplePhone s)
        (.start samplePhone (.init ∅)) t := by
  obtain ⟨t, hrun, htest⟩ := Run.exists_of_exec (cancelStep samplePhone)
    (P := fun _ l => l.Accepted samplePhone) (fun _ l => l.test)
    (fun t => decide (t.notified = 0 ∧ t.settled = 1)) (.start samplePhone (.init ∅))
    ([.phone (.begun true)] ++ (sampleCall 0 (.uploadChunk samplePhoneChunk) 2).map .receiver ++
      [.phone .cancel, .handle 1 (some samplePhoneContext) true, .abort 1 false true])
    (fun _ _ => CancelLabel.accepted_of_test) (by decide)
  obtain ⟨hnone, hsettled⟩ := of_decide_eq_true htest
  exact ⟨t, hrun, hsettled, (cancel_keeps_connection_iff hrun).mp hnone⟩

/-- The user cancels while the first window is prepared. -/
theorem early_cancel_disconnects :
    ¬∀ (cfg : PhoneConfig) (receiver : System) (t : CancelSystem),
      Run (cancelStep cfg) (fun _ l => l.Accepted cfg) (.start cfg receiver) t →
        t.notified = 0 := by
  intro h
  obtain ⟨t, hrun, htest⟩ := Run.exists_of_exec (cancelStep samplePhone)
    (P := fun _ l => l.Accepted samplePhone) (fun _ l => l.test)
    (fun t => decide (t.notified = 1)) (.start samplePhone (.init ∅))
    [.phone (.begun true), .phone (.thermalRead (some .nominal)), .phone .main,
      .phone (.pinged true),
      .phone .main, .phone .producer, .phone .cancel, .handle 0 (some samplePhoneContext) true]
    (fun _ _ => CancelLabel.accepted_of_test) (by decide)
  have hnone := h samplePhone (.init ∅) t hrun
  rw [of_decide_eq_true htest] at hnone
  cases hnone

end LocalMediaTransfer
