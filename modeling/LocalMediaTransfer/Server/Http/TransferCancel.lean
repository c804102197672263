import LocalMediaTransfer.Server.FileWriter.Finality
import LocalMediaTransfer.Server.Security.NativeSession.Cancel

/-!
# Cancelling a native transfer

The `/upload_chunk` and `/native/v1/transfers/<id>/cancel` handlers (`server/HttpServer.cpp`) over
the native session store and the file writer, which share no lock.  An upload asks the store twice
(`authorizeUpload`, `authorizeFile`) and then calls the writer; a cancellation first ends the grant
in the store and then aborts the files in the writer.

* `receiverStep` — one step of a handler, of the store or of the writer; all interleavings.
* `native_cancel_final` — **a cancellation is final** in every run in which no upload of the
  transfer stands between its last check and `initFile` when the abort collects its files.
* `native_cancel_overtaken` — otherwise it is not: an upload that was checked before the
  cancellation opens and publishes its file after it.
-/

set_option autoImplicit false

namespace LocalMediaTransfer

open Lib

/-! ## The handlers -/

/-- A request to `/upload_chunk` with an `X-Transfer-Id`. -/
structure NativeChunkRequest where
  credential : ByteString
  transferId : ByteString
  http : HttpChunkRequest

/-- The arguments of `authorizeUploadFile`, when the handler gets that far. -/
def HttpChunkRequest.manifestQuery (req : HttpChunkRequest) :
    Option (ByteString × ByteString × Nat × Bool) :=
  if !req.inventoryHealthy || MaxEncodedChunkBytes < req.body.length ||
      (req.fileId.isEmpty || (urlDecode req.filename).isEmpty || req.chunkIndex.isEmpty ||
        req.totalChunks.isEmpty || req.fileSize.isEmpty) then none
  else
    match parseHeaders req with
    | .error _ => none
    | .ok (_, _, fileSize, skip) => some (req.fileId, urlDecode req.filename, fileSize, skip)

/-- Where a handler stands before and after its calls of the writer. -/
inductive Handler where
  | idle
  /-- `/upload_chunk` after `authorizeUpload`. -/
  | authorized (req : NativeChunkRequest)
  /-- The cancel handler after `cancelTransfer` answered 200. -/
  | cancelled (transferId token : ByteString)

/-- The configuration of a receiver; its stores and its writer use the same SHA-256. -/
structure ReceiverConfig where
  native : NativeConfig
  writer : WriterConfig
  sha : Sha256
  hash : ∀ value, native.crypto.sha256Hex value = toHex (sha.digest value)

structure Receiver where
  native : NativeState
  writer : System
  handlers : Nat → Handler

/-- A receiver at start. -/
def Receiver.init (pairingStore : PairingStore) (clock : Nat) (files : Table ByteString DirEntry) :
    Receiver :=
  ⟨.init pairingStore clock, .init files, fun _ => .idle⟩

inductive ReceiverLabel where
  /-- Other routes of the native store, and its clock. -/
  | native (l : NativeLabel)
  /-- The writer's threads, and requests with other credentials. -/
  | writer (l : Label)
  | authorizeUpload (tid : Nat) (req : NativeChunkRequest) (hashed : Bool)
  | authorizeFile (tid : Nat)
  | cancelTransfer (tid : Nat) (transferId token : ByteString) (hashed : Bool)
  | abortFiles (tid : Nat)

/-- The native upload session of a transfer. -/
def transferPrefix (sha : Sha256) (token transferId : ByteString) : ByteString :=
  sha.cancelPrefix token (ascii "win-" ++ transferId)

/-- The request as the handler passes it on. -/
def NativeChunkRequest.admitted (sha : Sha256) (req : NativeChunkRequest) (allows : Bool) :
    HttpChunkRequest :=
  { req.http with authorization := some (sha.ownerPrefix req.credential), manifestAllows := allows }

/-- A call of the native store and its answer. -/
def Receiver.ask (cfg : ReceiverConfig) (r : Receiver)
    (op : NativeOp) : NativeState × NativeAnswer :=
  (r.native.after cfg.native op, (r.native.store.call cfg.native r.native.clock op).2)

/-- `authorizeUploadFile`, when the handler gets that far. -/
def Receiver.askFile (cfg : ReceiverConfig) (r : Receiver) (req : NativeChunkRequest) :
    NativeState × Bool :=
  match req.http.manifestQuery with
  | none => (r.native, false)
  | some (fileId, name, size, skip) =>
      let asked := r.ask cfg (.authorizeFile req.credential req.transferId fileId name size skip)
      (asked.1, asked.2 == .flag true)

/-- One step of the receiver; `hashed` tells whether the owner prefix could be computed, and the
exception otherwise ends the handler. -/
def receiverStep (cfg : ReceiverConfig) (r : Receiver) : ReceiverLabel → Option Receiver
  | .native l => (nativeStep cfg.native r.native l).map fun native => { r with native }
  | .writer l => (step cfg.writer r.writer l).map fun writer => { r with writer }
  | .authorizeUpload tid req hashed =>
      match r.handlers tid, r.writer.threads tid with
      | .idle, .idle =>
          let asked := r.ask cfg (.authorizeTransfer req.credential req.transferId)
          if asked.2 == .flag true && hashed then
            some { r with
              native := asked.1, handlers := Function.update r.handlers tid (.authorized req) }
          else some { r with native := asked.1 }
      | _, _ => none
  | .authorizeFile tid =>
      match r.handlers tid with
      | .authorized req =>
          let asked := r.askFile cfg req
          (step cfg.writer r.writer (.call tid (.uploadChunk (req.admitted cfg.sha asked.2)))).map
            fun writer =>
              { native := asked.1, writer, handlers := Function.update r.handlers tid .idle }
      | _ => none
  | .cancelTransfer tid transferId token hashed =>
      match r.handlers tid, r.writer.threads tid with
      | .idle, .idle =>
          let asked := r.ask cfg (.cancelTransfer transferId token)
          if asked.2 == .result ⟨200, .ok⟩ && hashed then
            some { r with
              native := asked.1
              handlers := Function.update r.handlers tid (.cancelled transferId token) }
          else some { r with native := asked.1 }
      | _, _ => none
  | .abortFiles tid =>
      match r.handlers tid with
      | .cancelled transferId token =>
          (step cfg.writer r.writer
            (.call tid (.abortFilesWithPrefix (transferPrefix cfg.sha token transferId)))).map
            fun writer => { r with writer, handlers := Function.update r.handlers tid .idle }
      | _ => none

/-! ## What a step does to the parts -/

variable {cfg : ReceiverConfig} {r r' r₁ r₂ : Receiver} {l : ReceiverLabel}

/-- The store makes at most one step. -/
def NativeMove (cfg : NativeConfig) (s s' : NativeState) : Prop :=
  s' = s ∨ ∃ l, l.fresh s = true ∧ nativeStep cfg s l = some s'

/-- The writer makes at most one step, which spares a prefix. -/
def WriterMove (cfg : WriterConfig) (p : ByteString) (s s' : System) : Prop :=
  s' = s ∨ ∃ l, l.spares p s ∧ step cfg s l = some s'

/-- Labels that draw fresh request IDs. -/
def ReceiverLabel.fresh (r : Receiver) : ReceiverLabel → Prop
  | .native l => l.fresh r.native = true
  | _ => True

/-- Requests with other credentials open files under other prefixes. -/
def ReceiverLabel.foreign (p : ByteString) (r : Receiver) : ReceiverLabel → Prop
  | .writer l => l.spares p r.writer
  | _ => True

theorem nativeMove_ask (op : NativeOp) (h : op.drawn = none) :
    NativeMove cfg.native r.native (r.ask cfg op).1 := by
  refine .inr ⟨.call op, ?_, rfl⟩
  simp only [NativeLabel.fresh, h]

theorem nativeMove_askFile (req : NativeChunkRequest) :
    NativeMove cfg.native r.native (r.askFile cfg req).1 := by
  unfold Receiver.askFile
  split
  · exact .inl rfl
  · exact nativeMove_ask _ rfl

theorem receiverStep_native (hfresh : l.fresh r) (hst : receiverStep cfg r l = some r') :
    NativeMove cfg.native r.native r'.native := by
  cases l with
  | native l =>
    obtain ⟨native, hn, rfl⟩ := Option.map_eq_some_iff.mp hst
    exact .inr ⟨l, hfresh, hn⟩
  | writer l =>
    obtain ⟨writer, -, rfl⟩ := Option.map_eq_some_iff.mp hst
    exact .inl rfl
  | authorizeUpload tid req hashed =>
    simp only [receiverStep] at hst
    split at hst
    · split at hst <;> cases hst <;> exact nativeMove_ask _ rfl
    · cases hst
  | authorizeFile tid =>
    simp only [receiverStep] at hst
    split at hst
    · obtain ⟨writer, -, rfl⟩ := Option.map_eq_some_iff.mp hst
      exact nativeMove_askFile _
    · cases hst
  | cancelTransfer tid transferId token hashed =>
    simp only [receiverStep] at hst
    split at hst
    · split at hst <;> cases hst <;> exact nativeMove_ask _ rfl
    · cases hst
  | abortFiles tid =>
    simp only [receiverStep] at hst
    split at hst
    · obtain ⟨writer, -, rfl⟩ := Option.map_eq_some_iff.mp hst
      exact .inl rfl
    · cases hst

theorem manifestAllows_of_admitRequest {http : HttpChunkRequest} {req : ChunkRequest}
    (h : admitRequest http = .ok req) : http.manifestAllows = true := by
  by_contra hne
  have hfalse : http.manifestAllows = false := by simpa using hne
  unfold admitRequest at h
  simp only [hfalse, Bool.not_false, if_true] at h
  repeat' split at h
  all_goals cases h

/-- Every request that reaches `initFile` after the grant has ended belongs to another session. -/
theorem spares_admitted {token transferId : ByteString} {req : NativeChunkRequest} {tid : Nat}
    (hended : GrantEnded cfg.native r.native token) (hg : Grants cfg.native r.native)
    (hfree : CollisionFree cfg.native r.native.log) :
    (Label.call tid (.uploadChunk (req.admitted cfg.sha (r.askFile cfg req).2))).spares
      (transferPrefix cfg.sha token transferId) r.writer := by
  intro caller a hpc hpre
  have hargs : (Call.start r.writer.clock
      (.uploadChunk (req.admitted cfg.sha (r.askFile cfg req).2))).1.args =
        some (.init caller a) := by
    rw [hpc]
    rfl
  rcases start_args hargs with ⟨http, chunk, hcall, hadmit, ⟨he, -⟩ | he⟩ | ⟨_, hcall, -⟩ |
    ⟨_, _, _, hcall, -⟩
  · cases hcall
    cases he
    obtain ⟨owner, howner, hid⟩ := storageId_of_admitRequest hadmit
    have howner' : owner = cfg.sha.ownerPrefix req.credential := (Option.some.inj howner).symm
    have hallows : (r.askFile cfg req).2 = true := manifestAllows_of_admitRequest hadmit
    have hfile : chunk.initArgs.fileId = cfg.sha.ownerPrefix req.credential ++ req.http.fileId := by
      rw [← howner']
      exact hid
    rw [hfile] at hpre
    obtain ⟨hdigest, -⟩ := cancelPrefix_isPrefix_iff.mp hpre
    have htoken : cfg.native.crypto.sha256Hex req.credential =
        cfg.native.crypto.sha256Hex token := by
      rw [cfg.hash, cfg.hash, hdigest]
    unfold Receiver.askFile at hallows
    split at hallows
    · cases hallows
    · rename_i fileId name size skip _
      have hrejected : (r.native.store.authorizeFile cfg.native r.native.clock req.credential
          req.transferId fileId name size skip).2 = false := hended.rejects hg hfree htoken
      simp [Receiver.ask, NativeSessionStore.call, hrejected] at hallows
  · cases he
  · cases hcall
  · cases hcall

theorem receiverStep_writer {token transferId : ByteString}
    (hforeign : l.foreign (transferPrefix cfg.sha token transferId) r)
    (hended : GrantEnded cfg.native r.native token) (hg : Grants cfg.native r.native)
    (hfree : CollisionFree cfg.native r.native.log) (hst : receiverStep cfg r l = some r') :
    WriterMove cfg.writer (transferPrefix cfg.sha token transferId) r.writer r'.writer := by
  cases l with
  | native l =>
    obtain ⟨native, -, rfl⟩ := Option.map_eq_some_iff.mp hst
    exact .inl rfl
  | writer l =>
    obtain ⟨writer, hw, rfl⟩ := Option.map_eq_some_iff.mp hst
    exact .inr ⟨l, hforeign, hw⟩
  | authorizeUpload tid req hashed =>
    simp only [receiverStep] at hst
    split at hst
    · split at hst <;> cases hst <;> exact .inl rfl
    · cases hst
  | authorizeFile tid =>
    simp only [receiverStep] at hst
    split at hst
    · obtain ⟨writer, hw, rfl⟩ := Option.map_eq_some_iff.mp hst
      exact .inr ⟨_, spares_admitted hended hg hfree, hw⟩
    · cases hst
  | cancelTransfer tid id key hashed =>
    simp only [receiverStep] at hst
    split at hst
    · split at hst <;> cases hst <;> exact .inl rfl
    · cases hst
  | abortFiles tid =>
    simp only [receiverStep] at hst
    split at hst
    · obtain ⟨writer, hw, rfl⟩ := Option.map_eq_some_iff.mp hst
      refine .inr ⟨_, ?_, hw⟩
      intro caller a hpc
      unfold Call.start at hpc
      simp only at hpc
      split at hpc <;> cases hpc
    · cases hst

/-! ## Runs -/

/-- The runs with fresh request IDs in which requests with other credentials keep to their own
files. -/
abbrev ReceiverRun (cfg : ReceiverConfig) (p : ByteString) : Receiver → Receiver → Prop :=
  Run (receiverStep cfg) fun r l => l.fresh r ∧ l.foreign p r

theorem nativeRun_of_receiverRun {ok : Receiver → ReceiverLabel → Prop}
    (hok : ∀ r l, ok r l → l.fresh r) (hrun : Run (receiverStep cfg) ok r r') :
    NativeRun cfg.native r.native r'.native := by
  induction hrun with
  | refl => exact .refl _
  | tail hr hl hst ih =>
    rcases receiverStep_native (hok _ _ hl) hst with h | ⟨l, hfresh, h⟩
    · rw [h]
      exact ih
    · exact .tail ih hfresh h

theorem NativeMove.grantEnded {s s' : NativeState} {token : ByteString}
    (h : NativeMove cfg.native s s') (hg : Grants cfg.native s)
    (hended : GrantEnded cfg.native s token) (hfree : CollisionFree cfg.native s'.log) :
    Grants cfg.native s' ∧ GrantEnded cfg.native s' token := by
  rcases h with rfl | ⟨l, hfresh, hst⟩
  · exact ⟨hg, hended⟩
  · have hstep := nativeStep_spec hst
    obtain ⟨new, hlog⟩ := hstep.log_append
    rw [hlog] at hfree
    exact ⟨hg.step hfree.of_append hfresh hstep, hended.step hg hfree.of_append hfresh hstep⟩

/-- After the abort, along every run. -/
theorem final_of_receiverRun {token transferId : ByteString}
    (hshut : Shut (transferPrefix cfg.sha token transferId) r₁.writer)
    (hg : Grants cfg.native r₁.native) (hended : GrantEnded cfg.native r₁.native token)
    (hrun : ReceiverRun cfg (transferPrefix cfg.sha token transferId) r₁ r₂) :
    CollisionFree cfg.native r₂.native.log →
      Grants cfg.native r₂.native ∧ GrantEnded cfg.native r₂.native token ∧
      Final (transferPrefix cfg.sha token transferId) r₁.writer r₂.writer := by
  induction hrun with
  | refl => exact fun _ => ⟨hg, hended, .refl hshut⟩
  | tail hr hl hst ih =>
    rename_i r r' l
    intro hfree
    have hmove := receiverStep_native hl.1 hst
    have hfree' : CollisionFree cfg.native r.native.log := by
      rcases hmove with h | ⟨l, -, h⟩
      · exact h ▸ hfree
      · obtain ⟨new, hlog⟩ := (nativeStep_spec h).log_append
        rw [hlog] at hfree
        exact hfree.of_append
    obtain ⟨hg', hended', hfinal⟩ := ih hfree'
    obtain ⟨hg'', hended''⟩ := hmove.grantEnded hg' hended' hfree
    refine ⟨hg'', hended'', ?_⟩
    rcases receiverStep_writer hl.2 hended' hg' hfree' hst with h | ⟨l, hspares, h⟩
    · rw [h]
      exact hfinal
    · exact hfinal.step hspares h

/-- The section that collects the files of a prefix leaves nothing that could be opened. -/
theorem shut_of_collect {cfg : WriterConfig} {s s' : System} {p : ByteString} {tid : Nat}
    {env : StepEnv} (hpc : s.threads tid = .abortCollect .direct (.byPrefix p) .count)
    (hinit : ∀ i caller a, s.threads i = .initFile caller a → ¬p <+: a.fileId)
    (hst : step cfg s (.run tid env) = some s') : Shut p s' := by
  cases step_spec hst with
  | run _ _ out hmove =>
    have hcancel : (s.threads tid).cancelling p := by
      rw [hpc]
      rfl
    refine ⟨(stepThread_cancelling hcancel hmove).removed ⟨_, _, _, hpc⟩, ?_⟩
    refine forall_update (P := fun _ pc => ∀ caller a, pc = .initFile caller a → ¬p <+: a.fileId)
      ?_ fun j _ => hinit j
    intro caller a h
    exact absurd h (stepThread_ne_initFile hmove caller a)

theorem Receiver.mem_ask {op : NativeOp} {transferId token : ByteString}
    (hop : op = .cancelTransfer transferId token)
    (hanswer : (r.ask cfg op).2 = .result ⟨200, .ok⟩) :
    ∃ x ∈ (r.ask cfg op).1.log, x.cancelled transferId token :=
  ⟨r.native.entry cfg.native op, List.mem_append_right _ (List.mem_singleton_self _), hop, hanswer⟩

/-- A handler that is about to abort has had its 200. -/
theorem cancelled_of_run {pairingStore : PairingStore} {clock : Nat}
    {files : Table ByteString DirEntry} {ok : Receiver → ReceiverLabel → Prop}
    (hok : ∀ r l, ok r l → l.fresh r)
    (hrun : Run (receiverStep cfg) ok (.init pairingStore clock files) r) :
    ∀ tid transferId token, r.handlers tid = .cancelled transferId token →
      ∃ x ∈ r.native.log, x.cancelled transferId token := by
  induction hrun with
  | refl => rintro tid transferId token ⟨⟩
  | tail hr hl hst ih =>
    rename_i r r' l
    intro tid transferId token hhandler
    have hold : r.handlers tid = .cancelled transferId token →
        ∃ x ∈ r'.native.log, x.cancelled transferId token := by
      intro h
      obtain ⟨x, hx, hxc⟩ := ih tid transferId token h
      refine ⟨x, ?_, hxc⟩
      rcases receiverStep_native (hok _ _ hl) hst with h | ⟨l, -, h⟩
      · exact h ▸ hx
      · obtain ⟨new, hlog⟩ := (nativeStep_spec h).log_append
        rw [hlog]
        exact List.mem_append_left _ hx
    -- a handler that was changed to something else
    have hupdate : ∀ k h, (∀ id key, h ≠ .cancelled id key) →
        r'.handlers = Function.update r.handlers k h →
        ∃ x ∈ r'.native.log, x.cancelled transferId token := by
      intro k h hne hupdated
      rw [hupdated] at hhandler
      by_cases hk : tid = k
      · subst hk
        rw [Function.update_self] at hhandler
        exact absurd hhandler (hne _ _)
      · rw [Function.update_of_ne hk] at hhandler
        exact hold hhandler
    cases l with
    | native l =>
      obtain ⟨native, -, rfl⟩ := Option.map_eq_some_iff.mp hst
      exact hold hhandler
    | writer l =>
      obtain ⟨writer, -, rfl⟩ := Option.map_eq_some_iff.mp hst
      exact hold hhandler
    | authorizeUpload k req hashed =>
      simp only [receiverStep] at hst
      split at hst
      · split at hst <;> cases hst
        · exact hupdate k _ (by rintro _ _ ⟨⟩) rfl
        · exact hold hhandler
      · cases hst
    | authorizeFile k =>
      simp only [receiverStep] at hst
      split at hst
      · obtain ⟨writer, -, rfl⟩ := Option.map_eq_some_iff.mp hst
        exact hupdate k _ (by rintro _ _ ⟨⟩) rfl
      · cases hst
    | cancelTransfer k id key hashed =>
      simp only [receiverStep] at hst
      split at hst
      · split at hst <;> cases hst
        · rename_i hanswer
          simp only [Bool.and_eq_true, beq_iff_eq] at hanswer
          by_cases hk : tid = k
          · subst hk
            simp only [Function.update_self, Handler.cancelled.injEq] at hhandler
            exact Receiver.mem_ask (by rw [hhandler.1, hhandler.2]) hanswer.1
          · simp only [Function.update_of_ne hk] at hhandler
            exact hold hhandler
        · exact hold hhandler
      · cases hst
    | abortFiles k =>
      simp only [receiverStep] at hst
      split at hst
      · obtain ⟨writer, -, rfl⟩ := Option.map_eq_some_iff.mp hst
        exact hupdate k _ (by rintro _ _ ⟨⟩) rfl
      · cases hst

/-! ## The result -/

/-- `r` takes the section of a cancellation that collects the files to abort; `cancelTransfer` has
answered 200. -/
structure Collects (cfg : ReceiverConfig) (transferId token : ByteString) (r r₁ : Receiver) : Prop
    where
  cancelled : ∃ x ∈ r.native.log, x.cancelled transferId token
  step : ∃ tid env, r.writer.threads tid =
      .abortCollect .direct (.byPrefix (transferPrefix cfg.sha token transferId)) .count ∧
    receiverStep cfg r (.writer (.run tid env)) = some r₁

/-- No upload of the transfer stands between its last check and `initFile`. -/
def NoneOpening (p : ByteString) (r : Receiver) : Prop :=
  ∀ i caller a, r.writer.threads i = .initFile caller a → ¬p <+: a.fileId

/-- **A cancellation is final**, in every interleaving: a handler whose cancellation was answered
200 aborts by the prefix of the transfer; and if no upload of the transfer stands between its last
check and `initFile` when that abort collects its files, then from there on no new session of the
transfer exists and no file of it is published that was not being finalized already. -/
theorem native_cancel_final {pairingStore : PairingStore} {clock : Nat}
    {files : Table ByteString DirEntry} {token transferId : ByteString}
    (hrun : ReceiverRun cfg (transferPrefix cfg.sha token transferId)
      (.init pairingStore clock files) r) (hfree : CollisionFree cfg.native r.native.log) :
    (∀ tid r', r.handlers tid = .cancelled transferId token →
      receiverStep cfg r (.abortFiles tid) = some r' →
      (∃ x ∈ r'.native.log, x.cancelled transferId token) ∧ r'.writer.threads tid =
        .abortCollect .direct (.byPrefix (transferPrefix cfg.sha token transferId)) .count) ∧
    ∀ r₁ r₂, Collects cfg transferId token r r₁ →
      NoneOpening (transferPrefix cfg.sha token transferId) r →
      ReceiverRun cfg (transferPrefix cfg.sha token transferId) r₁ r₂ →
      CollisionFree cfg.native r₂.native.log →
      Final (transferPrefix cfg.sha token transferId) r₁.writer r₂.writer := by
  have hnative := nativeRun_of_receiverRun (fun _ _ h => h.1) hrun
  have hg : Grants cfg.native r.native := hnative.grants (.init pairingStore clock) hfree
  refine ⟨?_, ?_⟩
  · intro tid r' hhandler hst
    obtain ⟨x, hx, hxc⟩ := cancelled_of_run (fun _ _ h => h.1) hrun tid transferId token hhandler
    have hsafe : isSafeFileId (transferPrefix cfg.sha token transferId) = true :=
      isSafeFileId_of_isHex cfg.sha token (transferId_of_cancelled hnative hfree x hx hxc)
    have hnonempty : (transferPrefix cfg.sha token transferId).isEmpty = false := by
      simp only [isSafeFileId, Bool.and_eq_true, Bool.not_eq_true'] at hsafe
      exact hsafe.1.1
    simp only [receiverStep, hhandler] at hst
    obtain ⟨writer, hw, rfl⟩ := Option.map_eq_some_iff.mp hst
    refine ⟨⟨x, hx, hxc⟩, ?_⟩
    cases step_spec hw with
    | call _ _ hidle => simp [Call.start, hsafe, hnonempty]
  · rintro r₁ r₂ ⟨⟨x, hx, hxc⟩, tid, env, hpc, hst⟩ hnone hcont hfree₂
    obtain ⟨writer, hw, rfl⟩ := Option.map_eq_some_iff.mp hst
    have hended := grantEnded_of_run hnative hfree x hx hxc
    have hshut : Shut (transferPrefix cfg.sha token transferId) writer :=
      shut_of_collect hpc hnone hw
    have hafter := @final_of_receiverRun cfg { r with writer } r₂ token transferId hshut hg hended
    exact (hafter hcont hfree₂).2.2

/-! ## A receiver with one grant -/

/-- SHA-256 of the sample receiver, as bytes. -/
def pairedSha : Sha256 where
  digest value := decodeHex (pairedReceiver.crypto.sha256Hex value)
  digest_length value := by
    have hlen := pairedReceiver.crypto.sha256Hex_length value
    have hdecode : ∀ (n : Nat) (v : ByteString), v.length = 2 * n → (decodeHex v).length = n := by
      intro n
      induction n with
      | zero =>
        intro v hv
        rw [List.length_eq_zero_iff.mp hv]
        rfl
      | succ n ih =>
        intro v hv
        match v, hv with
        | _ :: _ :: rest, hv =>
          simp only [decodeHex, List.length_cons] at hv ⊢
          rw [ih rest (by omega)]
    exact hdecode 32 _ hlen

/-- The token of the sample grant. -/
def grantToken : ByteString :=
  ascii "7b6e9d74075b74aa795a8b9196fb4b1616c5a4e421d42f5d83e98285c6531812"

def grantTransfer : ByteString := ascii "ffeeddccbbaa99887766554433221100"

def grantReceiver : ReceiverConfig where
  native := pairedReceiver
  writer := sampleConfig .keepBoth
  sha := pairedSha
  hash value := by
    show tabulatedDigest _ value = toHex (decodeHex (tabulatedDigest _ value))
    unfold tabulatedDigest
    split
    · rename_i digest h
      simp only [List.lookup_cons, List.lookup_nil] at h
      split at h
      · cases h
        decide
      · split at h <;> cases h
        decide
    · decide

/-- A one-chunk upload with the grant. -/
def grantRequest : NativeChunkRequest where
  credential := grantToken
  transferId := grantTransfer
  http := { sampleRequest "" "0" "1" "2"
    "ab" with fileId := ascii "win-" ++ grantTransfer ++ ascii "-1" }

/-- The sender asks, the receiver's user approves. -/
def grantOpened : List ReceiverLabel :=
  [.native (.call (.requestTransfer
      { protocolVersion := 1
        clientSessionId := ascii "win-" ++ grantTransfer
        files := some [⟨ascii "win-" ++ grantTransfer ++ ascii "-1", ascii "a.txt", 2, false⟩] }
      (ascii "a1a1a1a1a1a1a1a1a1a1a1a1a1a1a1a1a1a1a1a1a1a1a1a1a1a1a1a1a1a1a1a1")
      (ascii "10.0.0.2") (ascii "00112233445566778899aabbccddeeff"))),
    .native (.call (.approveTransfer (ascii "00112233445566778899aabbccddeeff")))]

/-- An upload passes both checks; then the transfer is cancelled. -/
def overtaken : List ReceiverLabel :=
  grantOpened ++ [.authorizeUpload 0 grantRequest true, .authorizeFile 0,
    .cancelTransfer 1 grantTransfer grantToken true, .abortFiles 1]

/-- A test for labels of runs. -/
def ReceiverLabel.test (r : Receiver) : ReceiverLabel → Bool
  | .native l => l.fresh r.native
  | .writer (.call ..) => false
  | _ => true

theorem ReceiverLabel.of_test {p : ByteString} (h : l.test r = true) : l.fresh r ∧
    l.foreign p r := by
  cases l with
  | native => exact ⟨h, trivial⟩
  | writer l =>
    cases l with
    | call => cases h
    | run | tick => exact ⟨trivial, trivial⟩
  | _ => exact ⟨trivial, trivial⟩

/-- A test for a step that collects. -/
def Receiver.collectTest (cfg : ReceiverConfig) (transferId token : ByteString) (r : Receiver)
    (tid : Nat) : Bool :=
  (r.native.log.any fun x =>
    match x.op, x.answer with
    | .cancelTransfer id key, .result ⟨200, .ok⟩ => id == transferId && key == token
    | _, _ => false) &&
  match r.writer.threads tid with
  | .abortCollect .direct (.byPrefix p) .count => p == transferPrefix cfg.sha token transferId
  | _ => false

theorem Receiver.collects_of_test {transferId token : ByteString} {tid : Nat} {env : StepEnv}
    (h : r.collectTest cfg transferId token tid = true)
    (hst : receiverStep cfg r (.writer (.run tid env)) = some r₁) :
    Collects cfg transferId token r r₁ := by
  rw [Receiver.collectTest, Bool.and_eq_true, List.any_eq_true] at h
  obtain ⟨⟨x, hx, hcancel⟩, hpc⟩ := h
  refine ⟨⟨x, hx, ?_⟩, tid, env, ?_, hst⟩
  · split at hcancel
    · rename_i id key hop hanswer
      simp only [Bool.and_eq_true, beq_iff_eq] at hcancel
      exact ⟨by rw [hop, hcancel.1, hcancel.2], hanswer⟩
    · cases hcancel
  · split at hpc
    · rename_i hthread
      rw [hthread, beq_iff_eq.mp hpc]
    · cases hpc

/-- A label that only moves the writer's first `k` threads. -/
def ReceiverLabel.within (k : Nat) : ReceiverLabel → Bool
  | .writer l => l.within k
  | .authorizeFile tid | .abortFiles tid => tid < k
  | _ => true

theorem receiverStep_within {k : Nat} (hl : l.within k = true)
    (hst : receiverStep cfg r l = some r') :
    r'.writer = r.writer ∨ ∃ l', l'.within k = true ∧ step cfg.writer r.writer
      l' = some r'.writer := by
  cases l with
  | native l =>
    obtain ⟨native, -, rfl⟩ := Option.map_eq_some_iff.mp hst
    exact .inl rfl
  | writer l =>
    obtain ⟨writer, hw, rfl⟩ := Option.map_eq_some_iff.mp hst
    exact .inr ⟨l, hl, hw⟩
  | authorizeUpload | cancelTransfer =>
    simp only [receiverStep] at hst
    split at hst
    · split at hst <;> cases hst <;> exact .inl rfl
    · cases hst
  | authorizeFile | abortFiles =>
    simp only [receiverStep] at hst
    split at hst
    · obtain ⟨writer, hw, rfl⟩ := Option.map_eq_some_iff.mp hst
      exact .inr ⟨.call _ _, hl, hw⟩
    · cases hst

theorem idle_of_receiverRun {pairingStore : PairingStore} {clock k : Nat}
    {files : Table ByteString DirEntry} {ok : Receiver → ReceiverLabel → Prop}
    (hok : ∀ r l, ok r l → l.within k = true)
    (hrun : Run (receiverStep cfg) ok (.init pairingStore clock files) r) :
    ∀ j, k ≤ j → r.writer.threads j = .idle := by
  have hwriter : Run (step cfg.writer) (fun _ l => l.within k = true) (.init files) r.writer := by
    induction hrun with
    | refl => exact .refl _
    | tail _ hl hst ih =>
      rcases receiverStep_within (hok _ _ hl) hst with h | ⟨l, hwithin, h⟩
      · exact h ▸ ih
      · exact .tail ih hwithin h
  exact idle_of_run (fun _ _ h => h) hwriter

/-- The storage ID of the sample upload. -/
def grantFile : ByteString :=
  pairedSha.ownerPrefix grantToken ++ (ascii "win-" ++ grantTransfer ++ ascii "-1")

/-- The rest of the abort beside the upload that it overtakes, and another upload that asks after
it. -/
def cancelledUpload : List ReceiverLabel :=
  [.writer (.run 1 {}), .writer (.run 0 {}), .writer (.run 1 {}), .writer (.run 0 {}),
    .writer (.run 1 {}), .writer (.run 1 {}), .authorizeUpload 0 grantRequest true]

/-- A test for the states in which the abort is about to run and the file then stays away. -/
def Receiver.finalTest (r : Receiver) : Bool :=
  (receiverStep grantReceiver r (.writer (.run 1 {}))).any fun r₁ =>
    (exec (receiverStep grantReceiver) (fun r l => l.test r) r₁ cancelledUpload).any fun r₂ =>
      decide (r₂.writer.writer.handles.keys = []) &&
      decide ((r₂.native.log.filterMap (·.opened pairedReceiver)).length ≤ 1) &&
      decide (r₂.native.log.getLast?.map (·.answer) = some (.flag false))

/-- The file is open when the abort starts, the call that writes to it comes to its end afterwards,
and the next upload of the transfer is refused. -/
theorem native_cancel_final_opened :
    ∃ r r₁ r₂, ReceiverRun grantReceiver (transferPrefix pairedSha grantToken grantTransfer)
        (.init pairedDevices 1000 ∅) r ∧ r.writer.writer.handles.keys = [grantFile] ∧
      Collects grantReceiver grantTransfer grantToken r r₁ ∧
      ReceiverRun grantReceiver (transferPrefix pairedSha grantToken grantTransfer) r₁ r₂ ∧
      r₂.writer.writer.handles.keys = [] ∧
      r₂.native.log.getLast?.map (·.answer) = some (.flag false) ∧
      Final (transferPrefix pairedSha grantToken grantTransfer) r₁.writer r₂.writer := by
  obtain ⟨r, hrun, htest⟩ := Run.exists_of_exec (receiverStep grantReceiver)
    (fun r l => l.test r && l.within 2)
    (fun r => decide (r.writer.writer.handles.keys = [grantFile]) &&
      r.collectTest grantReceiver grantTransfer grantToken 1 &&
      (r.writer.threads 0 matches .writeLookup ..) &&
      decide ((r.native.log.filterMap (·.opened pairedReceiver)).length ≤ 1) && r.finalTest)
    (.init pairedDevices 1000 ∅)
    (grantOpened ++ [.authorizeUpload 0 grantRequest true, .authorizeFile 0, .writer (.run 0 {}),
      .cancelTransfer 1 grantTransfer grantToken true, .abortFiles 1])
    (fun _ _ h => h) (by decide)
  simp only [Bool.and_eq_true, decide_eq_true_eq] at htest
  obtain ⟨⟨⟨⟨hhandle, hcollect⟩, hthread⟩, hone⟩, hfinal⟩ := htest
  obtain ⟨r₁, hstep, hafter⟩ := (Option.any_eq_true _ _).mp hfinal
  obtain ⟨r₂, hexec, hafter⟩ := (Option.any_eq_true _ _).mp hafter
  simp only [Bool.and_eq_true, decide_eq_true_eq] at hafter
  obtain ⟨⟨hclosed, hone'⟩, hrefused⟩ := hafter
  have hcollects := Receiver.collects_of_test hcollect hstep
  have hidle := idle_of_receiverRun (fun _ _ h => (Bool.and_eq_true_iff.mp h).2) hrun
  have hrun' : ReceiverRun grantReceiver (transferPrefix pairedSha grantToken grantTransfer)
      (.init pairedDevices 1000 ∅) r :=
    hrun.upgrade fun _ _ _ h => ReceiverLabel.of_test (Bool.and_eq_true_iff.mp h).1
  have hrun'' : ReceiverRun grantReceiver (transferPrefix pairedSha
    grantToken grantTransfer) r₁ r₂ :=
    .of_exec (fun _ _ h => ReceiverLabel.of_test h) hexec
  have hnone : NoneOpening (transferPrefix pairedSha grantToken grantTransfer) r := by
    intro i caller a hpc
    match i with
    | 0 =>
      rw [hpc] at hthread
      cases hthread
    | 1 =>
      rw [Receiver.collectTest, hpc, Bool.and_false] at hcollect
      cases hcollect
    | i + 2 =>
      rw [hidle (i + 2) (by omega)] at hpc
      cases hpc
  exact ⟨r, r₁, r₂, hrun', hhandle, hcollects, hrun'', hclosed, hrefused,
    (native_cancel_final hrun' (collisionFree_of_one_request hone)).2 r₁ r₂ hcollects hnone hrun''
      (collisionFree_of_one_request hone')⟩

/-- A test for the states in which the abort is about to run and the upload then gets through. -/
def Receiver.overtakenTest (r : Receiver) : Bool :=
  r.collectTest grantReceiver grantTransfer grantToken 1 &&
  (receiverStep grantReceiver r (.writer (.run 1 {}))).any fun r₁ =>
    (r₁.writer.writer.sessions.lookup grantFile).isNone &&
    (exec (receiverStep grantReceiver) (fun r l => l.test r) r₁
      (List.replicate 13 (.writer (.run 0 {})))).any fun r₂ =>
        (r₂.writer.log.any fun e => e matches .published ..) &&
          decide (r₂.writer.writer.sessions.lookup grantFile = some 0)

/-- A cancellation is not always final: the upload that was checked before it opens its file after
the abort, and the file is published. -/
theorem native_cancel_overtaken :
    ∃ r r₁ r₂, ReceiverRun grantReceiver (transferPrefix pairedSha grantToken grantTransfer)
        (.init pairedDevices 1000 ∅) r ∧
      Collects grantReceiver grantTransfer grantToken r r₁ ∧
      ReceiverRun grantReceiver (transferPrefix pairedSha grantToken grantTransfer) r₁ r₂ ∧
      (r₂.writer.log.any fun e => e matches .published ..) = true ∧
      ¬Final (transferPrefix pairedSha grantToken grantTransfer) r₁.writer r₂.writer := by
  obtain ⟨r, hrun, htest⟩ := Run.exists_of_exec (receiverStep grantReceiver)
    (P := fun r l => l.fresh r ∧
      l.foreign (transferPrefix pairedSha grantToken grantTransfer) r)
    (fun r l => l.test r) Receiver.overtakenTest (.init pairedDevices 1000 ∅) overtaken
    (fun _ _ h => ReceiverLabel.of_test h) (by decide)
  rw [Receiver.overtakenTest, Bool.and_eq_true] at htest
  obtain ⟨hcollect, htest⟩ := htest
  obtain ⟨r₁, hstep, htest⟩ := (Option.any_eq_true _ _).mp htest
  rw [Bool.and_eq_true, Option.isNone_iff_eq_none] at htest
  obtain ⟨hnone, htest⟩ := htest
  obtain ⟨r₂, hexec, htest⟩ := (Option.any_eq_true _ _).mp htest
  rw [Bool.and_eq_true, decide_eq_true_eq] at htest
  refine ⟨r, r₁, r₂, hrun, Receiver.collects_of_test hcollect hstep,
    .of_exec (fun _ _ h => ReceiverLabel.of_test h) hexec, htest.1, fun hfinal => ?_⟩
  have hold := hfinal.session grantFile 0
    (List.isPrefixOf_iff_prefix.mp (by decide)) htest.2
  rw [hnone] at hold
  cases hold

end LocalMediaTransfer
