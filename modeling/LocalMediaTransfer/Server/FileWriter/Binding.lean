import LocalMediaTransfer.Server.FileWriter.Delivery

/-!
# Binding of upload metadata

The first chunk binds file name, size, number of chunks and skip preference to a session.
`initFile` compares them, but the handler calls it for chunk 0 only; a request for a later chunk is
compared with the counters of the handle and with nothing else.

* `Label.binding` — the steps at which those counters turn a request with other metadata away.
* `stepThread_turnedAway` — such a request changes nothing and is not answered 200.
* `metadata_binding` — **the metadata are binding in every run of such steps**.
* `metadata_binding_sampleRelabelled` — a second chunk with another size and number of chunks is
  accepted.
-/

set_option autoImplicit false

namespace LocalMediaTransfer

open Lib

variable {X : ByteString} {cfg : WriterConfig} {s s' : System} {l : Label}

/-! ## The request a thread serves -/

/-- The four headers that a session is bound to. -/
def ChunkRequest.metadata (req : ChunkRequest) : Metadata :=
  (req.filename, req.fileSize, req.totalChunks, req.skipExactDuplicates)

def Caller.request : Caller → Option ChunkRequest
  | .direct => none
  | .uploadChunk req => some req

def AfterAbort.request (caller : Caller) : AfterAbort → Option ChunkRequest
  | .storageError call _ => call.caller.request
  | _ => caller.request

def Cont.request : Cont → Option ChunkRequest
  | .finalizeFailed caller _ => caller.request
  | .abortNext caller _ _ _ after => after.request caller
  | .expireNext _ => none

/-- The request that a thread is going to answer. -/
def Pc.request : Pc → Option ChunkRequest
  | .idle | .expireCollect => none
  | .initFile caller _ => caller.request
  | .writeLookup call _ | .writeLock call _ | .writeCheck call _ | .writeCopy call _ _ _
  | .writeCommit call _ _ _ _ | .writeWait call _ _ => call.caller.request
  | .finalizeLookup caller _ | .finalizeLock caller _ | .finalizeTake caller _
  | .finalizeWait caller _ | .finalizeHash caller _ _ | .finalizePublish caller _ _ _
  | .finalizeComplete caller _ _ | .finalizeRemember caller _ _ | .finalizeFail caller _ _ =>
      caller.request
  | .abortCollect caller _ after | .abortLock caller _ _ _ after
  | .abortClose caller _ _ _ after => after.request caller
  | .retire cont _ | .remember cont _ => cont.request

/-- What a thread does next, it does for the request `c`. -/
structure Serving (c : Option ChunkRequest) (next : Pc × List Event) : Prop where
  pc : ∀ req, next.1.request = some req → c = some req
  events : ∀ req response, .answered req response ∈ next.2 → c = some req

theorem Serving.silent {c : Option ChunkRequest} {pc : Pc}
    (h : ∀ req, pc.request = some req → c = some req) : Serving c (pc, []) :=
  ⟨h, by rintro req response ⟨⟩⟩

theorem serving_afterInit (caller : Caller) (a : InitArgs) (ok : Bool) :
    Serving caller.request (caller.afterInit a ok) := by
  unfold Caller.afterInit
  split
  · exact ⟨by rintro req ⟨⟩, by simp⟩
  · split
    · exact .silent fun _ h => h
    · refine ⟨by rintro req ⟨⟩, fun req response he => ?_⟩
      cases List.mem_singleton.mp he
      rfl

theorem serving_afterWrite (call : WriteCall) (id : ByteString) (status : ChunkWriteStatus) :
    Serving call.caller.request (call.afterWrite id status) := by
  unfold WriteCall.afterWrite
  split
  · exact ⟨by rintro req ⟨⟩, by simp⟩
  · rename_i req hreq
    have hanswer : ∀ response, Serving call.caller.request (.idle, [.answered req response]) := by
      intro response
      refine ⟨by rintro req ⟨⟩, fun _ _ he => ?_⟩
      cases List.mem_singleton.mp he
      rw [hreq]
      rfl
    cases status with
    | success | alreadyAccepted | completed =>
      simp only
      split
      · exact .silent fun _ h => h
      · exact hanswer _
    | sizeExceeded => exact .silent fun _ h => h
    | _ => exact hanswer _

theorem serving_afterFinalize (caller : Caller) (id : ByteString) (session : Option Ref)
    (result : FileFinalizeResult) (flag : Bool) :
    Serving caller.request (caller.afterFinalize id session result flag) := by
  unfold Caller.afterFinalize
  split
  · exact ⟨by rintro req ⟨⟩, by simp⟩
  · refine ⟨by rintro req ⟨⟩, fun req response he => ?_⟩
    simp only [List.mem_cons, reduceCtorEq, Event.answered.injEq, List.not_mem_nil, or_false,
      false_or] at he
    rw [he.1]
    rfl

theorem serving_afterThrow (caller : Caller) (r : Ref) (what : String) (healthy : Bool) :
    Serving caller.request (caller.afterThrow r what healthy) := by
  unfold Caller.afterThrow
  split
  · exact ⟨by rintro req ⟨⟩, by simp⟩
  · refine ⟨by rintro req ⟨⟩, fun req response he => ?_⟩
    simp only [List.mem_cons, reduceCtorEq, Event.answered.injEq, List.not_mem_nil, or_false,
      false_or] at he
    rw [he.1]
    rfl

theorem serving_nextAbort (caller : Caller) (refs : List Ref) (count : Nat) (after : AfterAbort) :
    Serving (after.request caller) (nextAbort caller refs count after) := by
  cases refs with
  | cons r rest => exact .silent fun _ h => h
  | nil =>
    simp only [nextAbort, AfterAbort.resume]
    split
    · exact ⟨by rintro req ⟨⟩, by simp⟩
    · exact serving_afterWrite ..
    · exact serving_afterFinalize ..
    · split
      · exact .silent (by rintro req ⟨⟩)
      · refine ⟨by rintro req ⟨⟩, fun req response he => ?_⟩
        cases List.mem_singleton.mp he
        rfl
    · exact .silent (by rintro req ⟨⟩)

theorem serving_nextExpire (c : Option ChunkRequest) (refs : List Ref) :
    Serving c (nextExpire refs) := by
  cases refs with
  | nil => exact ⟨by rintro req ⟨⟩, by simp [nextExpire]⟩
  | cons r rest => exact .silent (by rintro req ⟨⟩)

theorem serving_resume (cont : Cont) (r : Ref) (v : Writer) (healthy : Bool) :
    Serving cont.request (cont.resume r v healthy).2 := by
  unfold Cont.resume
  split
  · exact serving_afterFinalize ..
  · exact serving_afterThrow ..
  · exact serving_nextAbort ..
  · exact serving_nextExpire ..

/-- A thread serves one request until it answers it. -/
theorem stepThread_serving {now i : Nat} {w : Writer} {pc : Pc} {env : StepEnv}
    {out : Writer × Pc × List Event} (hst : stepThread cfg now i w pc env = some out) :
    Serving pc.request out.2 := by
  cases pc with
  | idle => cases hst
  | initFile caller a =>
    obtain rfl := Option.some.inj hst
    exact serving_afterInit ..
  | writeCommit call r target offset hashUpdated =>
    simp only [stepThread] at hst
    split at hst <;> cases hst
    · obtain ⟨hpc, hevents⟩ := serving_afterWrite call r.fileId .success
      refine ⟨hpc, fun req response he => ?_⟩
      rcases List.mem_cons.mp he with he | he
      · cases he
      · exact hevents req response he
    · exact serving_afterWrite ..
  | finalizePublish caller r h fullHash =>
    simp only [stepThread] at hst
    split at hst <;> cases hst
    · refine ⟨fun _ h => h, fun req response he => ?_⟩
      simp only at he
      split at he
      · cases List.mem_singleton.mp he
      · cases he
    · exact .silent fun _ h => h
    · exact .silent fun _ h => h
  | finalizeRemember caller r result =>
    cases hst
    exact serving_afterFinalize ..
  | abortCollect caller m after =>
    cases hst
    exact serving_nextAbort ..
  | remember cont r =>
    cases hst
    exact serving_resume ..
  | expireCollect =>
    cases hst
    exact serving_nextExpire ..
  | _ =>
    simp only [stepThread] at hst
    repeat' split at hst
    all_goals cases hst
    all_goals first
      | exact .silent fun _ h => h
      | exact serving_afterWrite ..
      | exact serving_afterFinalize ..
      | exact serving_resume ..

/-- What the handler hands to the writer for a request. -/
def Args.Coherent : Args → Prop
  | .init caller a => ∀ req, caller.request = some req → a = req.initArgs
  | .write id call => ∀ req, call.caller.request = some req → id = req.storageId ∧ call = req.call

theorem coherent_of_run {ok : System → Label → Prop} {files : Table ByteString DirEntry}
    (hrun : Run (step cfg) ok (.init files) s) : Carries Args.Coherent s := by
  refine carries_of_run ?_ ?_ hrun
  · rintro req a - _ ⟨⟩
    exact ⟨rfl, rfl⟩
  · intro s l _
    cases l with
    | call tid c =>
      intro e he
      rcases start_args he with ⟨_, req, -, -, ⟨rfl, -⟩ | rfl⟩ | ⟨a, -, rfl⟩ | ⟨_, _, _, -, rfl⟩
      · rintro _ ⟨⟩
        rfl
      · rintro _ ⟨⟩
        exact ⟨rfl, rfl⟩
      · rintro _ ⟨⟩
      · rintro _ ⟨⟩
    | run => trivial
    | tick => trivial

/-! ## Requests with the metadata of the session -/

/-- The metadata of a request are those of the registered session. -/
def Matched (X : ByteString) (w : Writer) (req : ChunkRequest) : Prop :=
  ∃ n, w.sessions.lookup X = some n ∧ req.metadata = (w.states ⟨X, n⟩).metadata

/-- The registered session ended in a name conflict. -/
def Conflicted (X : ByteString) (w : Writer) : Prop :=
  ∃ n, w.sessions.lookup X = some n ∧ (w.states ⟨X, n⟩).completed = true ∧
    (w.states ⟨X, n⟩).disposition = .nameConflict

/-- Where a thread with a request for `X` can be when the metadata do not match. -/
def Pc.mayMismatch (X : ByteString) (w : Writer) (req : ChunkRequest) : Pc → Prop
  | .initFile _ _ => True
  | .writeLookup _ _ | .writeLock _ _ | .writeCheck _ _ | .writeWait _ _ _ => req.chunkIndex ≠ 0
  | .finalizeLookup _ id => id = X ∧ Conflicted X w
  | .finalizeWait _ r => r.fileId = X ∧ Conflicted X w
  | _ => False

/-- Whether `writeChunk` turns a chunk away at its next step: the chunk is out of order, or the
session is not completed with a file. -/
def Writer.turnsAway (w : Writer) : Pc → Bool
  | .writeCheck chunk r =>
      match w.handles.lookup r.fileId with
      | some h => h.checkChunk chunk.chunkIndex chunk.data.length == .reject .outOfOrder
      | none => true
  | .writeWait _ _ r => !(w.states r).completed || (w.states r).disposition == .nameConflict
  | _ => true

/-- Whether a request for `X` that is not for chunk 0 is turned away at this step if its metadata
are not those of the session. -/
def Label.binding (X : ByteString) (s : System) : Label → Bool
  | .run i _ =>
      match (s.threads i).request, s.writer.sessions.lookup X with
      | some req, some n =>
          req.storageId != X || req.chunkIndex == 0 ||
            req.metadata == (s.writer.states ⟨X, n⟩).metadata || s.writer.turnsAway (s.threads i)
      | _, _ => true
  | _ => true

/-- The metadata are binding: threads and answers. -/
structure Binding (X : ByteString) (s : System) : Prop where
  threads : ∀ i req, (s.threads i).request = some req → req.storageId = X →
    Matched X s.writer req ∨ (s.threads i).mayMismatch X s.writer req
  answers : ∀ req response, .answered req response ∈ s.log → req.storageId = X →
    response.code = 200 → Matched X s.writer req

/-- A request was turned away in a step. -/
structure TurnedAway (X : ByteString) (w : Writer) (req : ChunkRequest)
    (out : Writer × Pc × List Event) : Prop where
  writer : out.1 = { w with mutexOwner := out.1.mutexOwner }
  next : out.2.1 = .idle ∨ out.2.1.mayMismatch X w req
  answers : ∀ response, .answered req response ∈ out.2.2 → response.code ≠ 200

/-- Statuses of `writeChunk` that the handler reports as an error. -/
def ChunkWriteStatus.refuses : ChunkWriteStatus → Bool
  | .outOfOrder | .unknownFile | .finalizing | .storageError => true
  | _ => false

theorem TurnedAway.afterWrite {w : Writer} {req : ChunkRequest} {call : WriteCall}
    {id : ByteString} {status : ChunkWriteStatus} (hs : status.refuses = true) (v : Writer)
    (hv : v = { w with mutexOwner := v.mutexOwner }) :
    TurnedAway X w req (v, call.afterWrite id status) := by
  unfold WriteCall.afterWrite
  split
  · exact ⟨hv, .inl rfl, by simp⟩
  · cases status with
    | success | alreadyAccepted | completed | sizeExceeded => cases hs
    | _ =>
      refine ⟨hv, .inl rfl, fun response he => ?_⟩
      cases List.mem_singleton.mp he
      decide

theorem TurnedAway.afterInit {w : Writer} {req : ChunkRequest} {caller : Caller} {a : InitArgs} :
    TurnedAway X w req (w, caller.afterInit a false) := by
  unfold Caller.afterInit
  split
  · exact ⟨rfl, .inl rfl, by simp⟩
  · refine ⟨rfl, .inl rfl, fun response he => ?_⟩
    cases List.mem_singleton.mp he
    decide

theorem unlock?_eq (w : Writer) (held : Option Ref) :
    w.unlock? held = { w with mutexOwner := (w.unlock? held).mutexOwner } := by
  cases held <;> rfl

section Step

variable {tid : Nat} {env : StepEnv} {out : Writer × Pc × List Event} {req : ChunkRequest}

/-- The condition of a step, for a request that does not match. -/
theorem turnsAway_of_binding {n : Nat} (hbind : (Label.run tid env).binding X s = true)
    (hreq : (s.threads tid).request = some req) (hX : req.storageId = X)
    (hn : s.writer.sessions.lookup X = some n) (hindex : req.chunkIndex ≠ 0)
    (hno : ¬Matched X s.writer req) : s.writer.turnsAway (s.threads tid) = true := by
  have hmeta : req.metadata ≠ (s.writer.states ⟨X, n⟩).metadata := fun h => hno ⟨n, hn, h⟩
  simp only [Label.binding, hreq, hn, Bool.or_eq_true, bne_iff_ne, ne_eq, hX, not_true_eq_false,
    beq_iff_eq, hindex, hmeta, false_or] at hbind
  exact hbind

/-- A thread whose request does not match is turned away by `initFile` if a session is
registered. -/
theorem initFile_turnedAway {caller : Caller} {n now : Nat} {ienv : InitEnv}
    (hlife : Lifecycle X s) (hX : req.storageId = X) (hno : ¬Matched X s.writer req)
    (hn : s.writer.sessions.lookup X = some n) :
    TurnedAway X s.writer req ((s.writer.initFile cfg now req.initArgs ienv).1,
      caller.afterInit req.initArgs (s.writer.initFile cfg now req.initArgs ienv).2) := by
  subst hX
  have hspec := initFile_spec cfg s.writer now req.initArgs ienv
  generalize s.writer.initFile cfg now req.initArgs ienv = res at hspec
  cases hspec with
  | refused => exact .afterInit
  | active h hl =>
    have hs : h.sameSession req.initArgs = false := by
      refine Bool.eq_false_iff.mpr fun hs => hno ⟨h.serial, hlife.session_of_handle hl, ?_⟩
      obtain ⟨p, hd, -⟩ := hlife
      rw [← hd.metadata h hl]
      simp only [FileHandle.sameSession, ChunkRequest.initArgs, Bool.and_eq_true,
        beq_iff_eq] at hs
      simp [ChunkRequest.metadata, FileHandle.metadata, hs]
    rw [hs]
    exact .afterInit
  | known m hinactive hl =>
    have hs : (s.writer.states ⟨req.initArgs.fileId, m⟩).matches req.initArgs = false := by
      refine Bool.eq_false_iff.mpr fun hs => hno ⟨m, hl, ?_⟩
      simp only [FinalizationState.matches, ChunkRequest.initArgs, Bool.and_eq_true,
        beq_iff_eq] at hs
      simp [ChunkRequest.metadata, FinalizationState.metadata, hs]
    rw [hs]
    exact .afterInit
  | create _ _ hunknown => cases hn.symm.trans hunknown

theorem Lifecycle.inactive_of_completed {n : Nat} (hlife : Lifecycle X s)
    (hn : s.writer.sessions.lookup X = some n)
    (hc : (s.writer.states ⟨X, n⟩).completed = true) : s.writer.handles.lookup X = none := by
  obtain ⟨p, hd, -⟩ := hlife
  cases hl : s.writer.handles.lookup X with
  | none => rfl
  | some h =>
    have hp := hd.active_of_lookup hl
    rw [hd.session, hp] at hn
    cases hn
    rw [(hd.open_ _ (.inl hp)).2] at hc
    cases hc

/-- **A thread whose request does not match is turned away**, unless it is about to create the
session. -/
theorem stepThread_turnedAway (hlife : Lifecycle X s)
    (hrefs : ∀ r ∈ (s.threads tid).refs, r.fileId = X → s.writer.sessions.lookup X = some r.serial)
    (hco : Carries Args.Coherent s) (hreq : (s.threads tid).request = some req)
    (hX : req.storageId = X) (hno : ¬Matched X s.writer req)
    (hmay : (s.threads tid).mayMismatch X s.writer req)
    (hinit : ∀ caller a, s.threads tid = .initFile caller a →
      ∃ n, s.writer.sessions.lookup X = some n)
    (hbind : (Label.run tid env).binding X s = true)
    (hmove : stepThread cfg s.clock tid s.writer (s.threads tid) env = some out) :
    TurnedAway X s.writer req out := by
  have haway := fun n hn hindex => turnsAway_of_binding (n := n) hbind hreq hX hn hindex hno
  cases hpc : s.threads tid with
  | initFile caller a =>
    rw [hpc] at hreq hmove
    obtain rfl := hco tid (.init caller a) (by rw [hpc]; rfl) req hreq
    obtain ⟨n, hn⟩ := hinit caller _ hpc
    obtain rfl := Option.some.inj hmove
    exact initFile_turnedAway hlife hX hno hn
  | writeLookup call id =>
    rw [hpc] at hmay hmove
    simp only [stepThread] at hmove
    repeat' split at hmove
    all_goals cases hmove
    · exact ⟨rfl, .inr hmay, by simp⟩
    · exact ⟨rfl, .inr hmay, by simp⟩
    · exact .afterWrite rfl _ rfl
  | writeLock call r =>
    rw [hpc] at hmay hmove
    obtain ⟨-, ⟨⟩⟩ := stepThread_lock rfl hmove
    exact ⟨rfl, .inr hmay, by simp⟩
  | writeCheck call r =>
    rw [hpc] at hmay hmove hreq hrefs haway
    obtain ⟨hid, -⟩ := hco tid (.write r.fileId call) (by rw [hpc]; rfl) req hreq
    have hn := hrefs r (List.mem_cons_self ..) (hid.trans hX)
    have hout := haway _ hn hmay
    simp only [stepThread] at hmove
    split at hmove
    · rename_i h hl
      simp only [Writer.turnsAway, hl, beq_iff_eq] at hout
      rw [hout] at hmove
      cases hmove
      exact .afterWrite rfl _ rfl
    · split at hmove <;> cases hmove
      · exact ⟨rfl, .inr hmay, by simp⟩
      · exact .afterWrite rfl _ rfl
  | writeWait call held r =>
    rw [hpc] at hmay hmove hreq hrefs haway
    obtain ⟨hid, -⟩ := hco tid (.write r.fileId call) (by rw [hpc]; rfl) req hreq
    have hn := hrefs r (by simp [Pc.refs]) (hid.trans hX)
    have hout := haway _ hn hmay
    simp only [stepThread] at hmove
    split at hmove
    · -- a completed session: the request goes on to the recorded name conflict
      rename_i hc
      cases hmove
      simp only [Writer.turnsAway, hc, Bool.not_true, Bool.false_or, beq_iff_eq] at hout
      unfold WriteCall.afterWrite
      split
      · exact ⟨unlock?_eq .., .inl rfl, by simp⟩
      · refine ⟨unlock?_eq .., .inr ?_, by simp⟩
        subst hX
        simp only [or_true, if_true, Pc.mayMismatch]
        exact ⟨hid, r.serial, hn, by rw [← hid]; exact hc, by rw [← hid]; exact hout⟩
    · split at hmove
      · cases hmove
        exact .afterWrite rfl _ (unlock?_eq ..)
      · split at hmove <;> cases hmove
        exact .afterWrite rfl _ (unlock?_eq ..)
  | finalizeLookup caller id =>
    rw [hpc] at hmay hmove
    obtain ⟨rfl, n, hn, hc, hd⟩ := hmay
    simp only [stepThread, hlife.inactive_of_completed hn hc, hn, Option.some.injEq] at hmove
    subst hmove
    exact ⟨rfl, .inr ⟨rfl, n, hn, hc, hd⟩, by simp⟩
  | finalizeWait caller r =>
    rw [hpc] at hmay hmove hrefs
    obtain ⟨hid, n, hn, hc, hd⟩ := hmay
    have hser := hrefs r (List.mem_cons_self ..) hid
    obtain rfl := Option.some.inj (hn.symm.trans hser)
    rw [show (⟨X, r.serial⟩ : Ref) = r by rw [← hid]] at hc hd
    have hf : (s.writer.states r).failed = false := by
      obtain ⟨p, hdesc, -⟩ := hlife
      have hex := hdesc.exclusive r.serial
      rw [show (⟨X, r.serial⟩ : Ref) = r by rw [← hid]] at hex
      exact Bool.eq_false_iff.mpr fun hf => hex ⟨hc, hf⟩
    simp only [stepThread, hf, hc, Bool.false_eq_true, if_true, if_false,
      Option.some.injEq] at hmove
    subst hmove
    unfold Caller.afterFinalize
    split
    · exact ⟨rfl, .inl rfl, by simp⟩
    · refine ⟨rfl, .inl rfl, fun response he => ?_⟩
      simp only [List.mem_cons, reduceCtorEq, Event.answered.injEq, List.not_mem_nil, or_false,
        false_or] at he
      rw [he.2]
      simp [ChunkRequest.finalizeResponse, FinalizationState.result, hd]
  | _ =>
    rw [hpc] at hmay
    exact hmay.elim

/-! ## Along runs -/

theorem createSession_registered {w : Writer} {now : Nat} {a : InitArgs} {ienv : InitEnv}
    (h : (w.createSession now a ienv).2 = true) :
    (w.createSession now a ienv).1.sessions.lookup a.fileId = some w.nextSerial := by
  unfold Writer.createSession at h ⊢
  simp only at h ⊢
  split at h
  · exact AList.lookup_insert _
  · cases h
  · cases h

/-- A session that is created has the metadata of the request, or the request gets an error. -/
theorem initFile_creates {caller : Caller} {now : Nat} {ienv : InitEnv} (hX : req.storageId = X)
    (hn : s.writer.sessions.lookup X = none) (hlife : Lifecycle X s) :
    Matched X (s.writer.initFile cfg now req.initArgs ienv).1 req ∨
      TurnedAway X (s.writer.initFile cfg now req.initArgs ienv).1 req
        ((s.writer.initFile cfg now req.initArgs ienv).1,
          caller.afterInit req.initArgs (s.writer.initFile cfg now req.initArgs ienv).2) := by
  subst hX
  have hspec := initFile_spec cfg s.writer now req.initArgs ienv
  generalize s.writer.initFile cfg now req.initArgs ienv = res at hspec
  cases hspec with
  | refused => exact .inr .afterInit
  | active h hl => cases hn.symm.trans (hlife.session_of_handle hl)
  | known m _ hl => cases hn.symm.trans hl
  | create =>
    cases hok : (s.writer.createSession now req.initArgs ienv).2 with
    | true =>
      refine .inl ⟨_, createSession_registered hok, ?_⟩
      exact (createSession_metadata s.writer now req.initArgs ienv).symm
    | false => exact .inr .afterInit

theorem Matched.stepThread (hkeep : ∀ n, s.writer.sessions.lookup X = some n →
      out.1.sessions.lookup X = some n)
    (hmove : stepThread cfg s.clock tid s.writer (s.threads tid) env = some out)
    (h : Matched X s.writer req) : Matched X out.1 req := by
  obtain ⟨n, hn, hmeta⟩ := h
  refine ⟨n, hkeep n hn, hmeta.trans ?_⟩
  exact ((stepThread_states hmove ⟨X, n⟩).metadata (.of_lookup hn)).symm

theorem Conflicted.stepThread (hkeep : ∀ n, s.writer.sessions.lookup X = some n →
      out.1.sessions.lookup X = some n) (hlife : Lifecycle X s)
    (hmove : stepThread cfg s.clock tid s.writer (s.threads tid) env = some out)
    (h : Conflicted X s.writer) : Conflicted X out.1 := by
  obtain ⟨n, hn, hc, hdisp⟩ := h
  obtain ⟨p, hd, hcompat⟩ := hlife
  obtain ⟨hc', hresult⟩ := completed_persists hd (hcompat tid) hmove (.of_lookup hn) hc
  exact ⟨n, hkeep n hn, hc', (congrArg FileFinalizeResult.disposition hresult).trans hdisp⟩

theorem Pc.mayMismatch_mono {w w' : Writer} {pc : Pc} (h : Conflicted X w → Conflicted X w')
    (hmay : pc.mayMismatch X w req) : pc.mayMismatch X w' req := by
  cases pc with
  | finalizeLookup | finalizeWait => exact ⟨hmay.1, h hmay.2⟩
  | _ => exact hmay

theorem Binding.stepThread (h : Binding X s) (hlife : Lifecycle X s)
    (hrefs : ∀ r ∈ (s.threads tid).refs, r.fileId = X → s.writer.sessions.lookup X = some r.serial)
    (hco : Carries Args.Coherent s) (hbind : (Label.run tid env).binding X s = true)
    (hkeep : ∀ n, s.writer.sessions.lookup X = some n → out.1.sessions.lookup X = some n)
    (hmove : stepThread cfg s.clock tid s.writer (s.threads tid) env = some out) :
    Binding X
      { s with
        writer := out.1
        threads := Function.update s.threads tid out.2.1
        log := s.log ++ out.2.2 ++ evictions s.writer out.1 } := by
  have hserving := stepThread_serving hmove
  have hmatched : ∀ {req}, Matched X s.writer req → Matched X out.1 req :=
    fun h => h.stepThread hkeep hmove
  have hconflicted := Conflicted.stepThread hkeep hlife hmove
  -- what the moving thread does for a request that matches, is turned away, or creates the session
  have hself : ∀ req, (s.threads tid).request = some req → req.storageId = X →
      Matched X out.1 req ∨ TurnedAway X out.1 req out := by
    intro req hreq hX
    rcases h.threads tid req hreq hX with hm | hmay
    · exact .inl (hmatched hm)
    · by_cases hm : Matched X s.writer req
      · exact .inl (hmatched hm)
      · by_cases hinit : ∀ caller a, s.threads tid = .initFile caller a →
          ∃ n, s.writer.sessions.lookup X = some n
        · have haway := stepThread_turnedAway hlife hrefs hco hreq hX hm hmay hinit hbind hmove
          exact .inr ⟨rfl, haway.next.imp_right (Pc.mayMismatch_mono hconflicted), haway.answers⟩
        · push Not at hinit
          obtain ⟨caller, a, hpc, hnone⟩ := hinit
          rw [hpc] at hreq hmove
          obtain rfl := hco tid (.init caller a) (by rw [hpc]; rfl) req hreq
          obtain rfl := Option.some.inj hmove
          exact initFile_creates hX (Option.eq_none_iff_forall_ne_some.mpr hnone) hlife
  refine ⟨?_, ?_⟩
  · refine forall_update (P := fun _ pc => ∀ req, pc.request = some req → req.storageId = X →
      Matched X out.1 req ∨ pc.mayMismatch X out.1 req) ?_ ?_
    · intro req hreq hX
      refine (hself req (hserving.pc req hreq) hX).imp_right fun haway => ?_
      rcases haway.next with hidle | hmay
      · rw [hidle] at hreq
        cases hreq
      · exact hmay
    · intro j _ req hreq hX
      exact (h.threads j req hreq hX).imp hmatched (Pc.mayMismatch_mono hconflicted)
  · intro req response he hX hcode
    rcases List.mem_append.mp he with he | he
    · rcases List.mem_append.mp he with he | he
      · exact hmatched (h.answers req response he hX hcode)
      · rcases hself req (hserving.events req response he) hX with hm | haway
        · exact hm
        · exact absurd hcode (haway.answers response he)
    · obtain ⟨id, -, hid⟩ := List.mem_map.mp he
      cases hid

end Step

theorem start_mayMismatch {now : Nat} {c : Call} {req : ChunkRequest} {w : Writer}
    (hreq : (c.start now).1.request = some req) : (c.start now).1.mayMismatch X w req := by
  cases c with
  | uploadChunk http =>
    simp only [Call.start] at hreq ⊢
    split at hreq
    · cases hreq
    · rename_i req' hadmit
      simp only [ChunkRequest.start] at hreq ⊢
      split at hreq
      · rename_i h0
        rw [if_pos h0]
        trivial
      · rename_i hindex
        cases hreq
        rw [if_neg hindex]
        exact hindex
  | initFile | writeChunk | finalizeFileResult | abortFile | expireIdleFiles => cases hreq
  | abortFilesWithPrefix p =>
    simp only [Call.start] at hreq
    split at hreq <;> cases hreq

theorem binding_of_run {ok : System → Label → Prop} {files : Table ByteString DirEntry}
    (hok : ∀ s l, ok s l → l.binding X s = true)
    (hrun : Run (step cfg) ok (.init files) s) (hkept : Event.evicted X ∉ s.log) :
    Binding X s := by
  induction hrun with
  | refl => exact ⟨by rintro i req ⟨⟩, by rintro req response ⟨⟩⟩
  | tail hr hl hst ih =>
    have hlog := fun he => hkept (log_of_step hst he)
    obtain ⟨hlife, hrefs⟩ := unevicted_of_run hr hlog
    have hprev := ih hlog
    cases step_spec hst with
    | call tid c hidle =>
      refine ⟨?_, fun req response he => ?_⟩
      · exact forall_update (P := fun _ pc => ∀ req, pc.request = some req → req.storageId = X →
          Matched X _ req ∨ pc.mayMismatch X _ req)
          (fun req hreq _ => .inr (start_mayMismatch hreq)) fun j _ => hprev.threads j
      · rcases List.mem_append.mp he with he | he
        · exact hprev.answers req response he
        · rcases start_events he with ⟨_, h⟩ | ⟨_, h⟩ <;> cases h
    | run tid env out hmove =>
      refine hprev.stepThread hlife (hrefs tid) (coherent_of_run hr) (hok _ _ hl) ?_ hmove
      intro n hn
      rcases stepThread_sessions hmove hn with h | h
      · exact h
      · exact absurd (List.mem_append_right _ (mem_evictions hn h)) hkept
    | tick => exact ⟨hprev.threads, hprev.answers⟩

/-! ## The result -/

/-- **The metadata of a session are binding** in every state of every run whose steps turn requests
with other metadata away: such a request is never answered 200, and no step taken for it changes
anything but the owner of a write mutex. -/
theorem metadata_binding {files : Table ByteString DirEntry} {n : Nat}
    (hrun : Run (step cfg) (fun s l => l.binding X s = true) (.init files) s)
    (hkept : Event.evicted X ∉ s.log) (hn : s.writer.sessions.lookup X = some n) :
    (∀ req response, .answered req response ∈ s.log → req.storageId = X →
      req.metadata ≠ (s.writer.states ⟨X, n⟩).metadata → response.code ≠ 200) ∧
    ∀ tid env req s', (s.threads tid).request = some req → req.storageId = X →
      req.metadata ≠ (s.writer.states ⟨X, n⟩).metadata →
      (Label.run tid env).binding X s = true → step cfg s (.run tid env) = some s' →
        s'.writer = { s.writer with mutexOwner := s'.writer.mutexOwner } := by
  have hb := binding_of_run (fun _ _ h => h) hrun hkept
  obtain ⟨hlife, hrefs⟩ := unevicted_of_run hrun hkept
  have hno : ∀ {req : ChunkRequest}, req.metadata ≠ (s.writer.states ⟨X, n⟩).metadata →
      ¬Matched X s.writer req := by
    rintro req hmeta ⟨m, hm, heq⟩
    cases hn.symm.trans hm
    exact hmeta heq
  refine ⟨fun req response he hX hmeta hcode => hno hmeta (hb.answers req response he hX hcode), ?_⟩
  intro tid env req s' hreq hX hmeta hbind hst
  cases step_spec hst with
  | run _ _ out hmove =>
    have hmay := (hb.threads tid req hreq hX).resolve_left (hno hmeta)
    exact (stepThread_turnedAway hlife (hrefs tid) (coherent_of_run hrun) hreq hX (hno hmeta) hmay
      (fun _ _ _ => ⟨n, hn⟩) hbind hmove).writer

/-- Whether a request for `X` has other metadata than session `n`. -/
def ChunkRequest.mismatches (req : ChunkRequest) (X : ByteString) (n : Nat) (s : System) : Bool :=
  req.storageId == X && req.metadata != (s.writer.states ⟨X, n⟩).metadata

theorem mismatches_iff {req : ChunkRequest} {n : Nat} :
    req.mismatches X n s = true ↔
      req.storageId = X ∧ req.metadata ≠ (s.writer.states ⟨X, n⟩).metadata := by
  simp [ChunkRequest.mismatches]

/-- A session opened for two chunks; then a request for its third, which is out of order, and a
request for its first that declares three bytes, not yet handled. -/
def sampleRebound : List Label :=
  sampleCall 0 (.uploadChunk (sampleRequest "1" "0" "2" "2" "a")) 6 ++
    sampleCall 1 (.uploadChunk (sampleRequest "1" "2" "3" "9" "b")) 3 ++
    sampleCall 1 (.uploadChunk (sampleRequest "1" "0" "2" "3" "a")) 0

/-- What the witness looks for in the state after `sampleRebound`. -/
def reboundTest (X : ByteString) (s : System) : Bool :=
  evictionFree s.log && s.writer.sessions.lookup X == some 0 &&
  (s.log.any fun
    | .answered req _ => req.mismatches X 0 s
    | _ => false) &&
  (s.threads 1).request.any (·.mismatches X 0 s) && (Label.run 1 {}).binding X s &&
  (step (sampleConfig .keepBoth) s (.run 1 {})).isSome

theorem metadata_binding_sampleRebound :
    ∃ s s' answered response req, Run (step (sampleConfig .keepBoth))
        (fun s l => l.binding (ascii "o-1") s = true) (.init ∅) s ∧
      .answered answered response ∈ s.log ∧ answered.mismatches (ascii "o-1") 0 s = true ∧
      response.code ≠ 200 ∧ (s.threads 1).request = some req ∧
      req.mismatches (ascii "o-1") 0 s = true ∧
      step (sampleConfig .keepBoth) s (.run 1 {}) = some s' ∧
      s'.writer = { s.writer with mutexOwner := s'.writer.mutexOwner } := by
  obtain ⟨s, hrun, htest⟩ := Run.exists_of_exec (step (sampleConfig .keepBoth))
    (fun s l => l.binding (ascii "o-1") s) (reboundTest (ascii "o-1"))
    (.init ∅) sampleRebound (fun _ _ h => h) (by decide)
  simp only [reboundTest, Bool.and_eq_true, beq_iff_eq] at htest
  obtain ⟨⟨⟨⟨⟨hfree, hn⟩, hlog⟩, hthread⟩, hbind⟩, hstep⟩ := htest
  obtain ⟨e, he, hmis⟩ := List.any_eq_true.mp hlog
  obtain ⟨req, hreq, hmis'⟩ := (Option.any_eq_true _ _).mp hthread
  obtain ⟨s', hs'⟩ := Option.isSome_iff_exists.mp hstep
  obtain ⟨hanswers, hsteps⟩ :=
    metadata_binding hrun (not_evicted_of_evictionFree hfree _) hn
  split at hmis
  · rename_i answered response
    have hm := mismatches_iff.mp hmis
    have hm' := mismatches_iff.mp hmis'
    exact ⟨s, s', answered, response, req, hrun, he, hmis, hanswers _ _ he hm.1 hm.2, hreq, hmis',
      hs', hsteps 1 {} req s' hreq hm'.1 hm'.2 hbind hs'⟩
  · cases hmis

/-- A session opened for two chunks and two bytes; the second chunk arrives with a request that
says three chunks and nine bytes. -/
def sampleRelabelled : List Label :=
  sampleCall 0 (.uploadChunk (sampleRequest "1" "0" "2" "2" "a")) 6 ++
    sampleCall 0 (.uploadChunk (sampleRequest "1" "1" "3" "9" "b")) 5

/-- The metadata are not binding for later chunks: the request is answered 200, and its byte is
counted for the session. -/
theorem metadata_binding_sampleRelabelled :
    ∃ s, Run (step (sampleConfig .keepBoth)) (fun _ l => l.isTraffic = true) (.init ∅) s ∧
      Event.evicted (ascii "o-1") ∉ s.log ∧ s.writer.sessions.lookup (ascii "o-1") = some 0 ∧
      acceptedChunks s.log ⟨ascii "o-1", 0⟩ = [ascii "a", ascii "b"] ∧
      ∃ req response, .answered req response ∈ s.log ∧ req.storageId = ascii "o-1" ∧
        req.metadata ≠ (s.writer.states ⟨ascii "o-1", 0⟩).metadata ∧ response.code = 200 := by
  obtain ⟨s, hrun, htest⟩ := Run.exists_of_exec (step (sampleConfig .keepBoth))
    (fun _ l => l.isTraffic)
    (fun s => evictionFree s.log && s.writer.sessions.lookup (ascii "o-1") == some 0 &&
      acceptedChunks s.log ⟨ascii "o-1", 0⟩ == [ascii "a", ascii "b"] &&
      s.log.any fun
        | .answered req response => req.mismatches (ascii "o-1") 0 s && response.code == 200
        | _ => false)
    (.init ∅) sampleRelabelled (fun _ _ h => h) (by decide)
  simp only [Bool.and_eq_true, beq_iff_eq] at htest
  obtain ⟨⟨⟨hfree, hn⟩, hchunks⟩, hlog⟩ := htest
  obtain ⟨e, he, hmis⟩ := List.any_eq_true.mp hlog
  refine ⟨s, hrun, not_evicted_of_evictionFree hfree _, hn, hchunks, ?_⟩
  split at hmis
  · rename_i req response
    simp only [Bool.and_eq_true, beq_iff_eq] at hmis
    exact ⟨req, response, he, (mismatches_iff.mp hmis.1).1, (mismatches_iff.mp hmis.1).2, hmis.2⟩
  · cases hmis

end LocalMediaTransfer
