import LocalMediaTransfer.Lib.History
import LocalMediaTransfer.Server.Security.NativeSession.Transfers

/-!
# Native transfer authorization

A transfer token opens the receiver only along a chain of steps by different parties: a trusted
sender asks with a manifest, the receiver's user approves in time, nobody denies, cancels or revokes
afterwards, and the grant is neither old nor idle.  The store keeps one record per request; this
file reads the chain off the history.

* `Grant` — the history behind a record; `Grants.call` — calls keep it.
* `native_transfer_authorization` — **what an accepted token implies**.
-/

set_option autoImplicit false

namespace LocalMediaTransfer

open Lib

variable {cfg : NativeConfig} {s s' : NativeState}
variable {store : NativeSessionStore} {now : Nat} {x : NativeEntry} {id : ByteString}

/-! ## The history behind a record -/

/-- Two records of one request. -/
structure SameRequest (q r : TransferRequest) : Prop where
  requestId : r.requestId = q.requestId
  transferId : r.transferId = q.transferId
  deviceId : r.deviceId = q.deviceId
  tokenHash : r.tokenHash = q.tokenHash
  skip : r.skipExactDuplicates = q.skipExactDuplicates
  createdAt : r.createdAt = q.createdAt
  expiresAt : r.expiresAt = q.expiresAt
  manifest : r.files.map (·.manifest) = q.files.map (·.manifest)

theorem SameRequest.ends {q r : TransferRequest} (h : SameRequest q r) (x : NativeEntry) :
    x.ends cfg r = x.ends cfg q := by
  simp only [NativeEntry.ends, NativeEntry.cancels, TransferRequest.accepts, h.requestId,
    h.transferId, h.deviceId, h.tokenHash]

theorem SameRequest.uses {q r : TransferRequest} (h : SameRequest q r) (x : NativeEntry) :
    x.uses cfg r = x.uses cfg q := by
  simp only [NativeEntry.uses, TransferRequest.accepts, h.transferId, h.tokenHash]

/-- Nobody has decided about a request yet. -/
def Undecided (cfg : NativeConfig) (q : TransferRequest) (log : List NativeEntry) : Prop :=
  ∀ x ∈ log, x.approves q.requestId = false ∧ x.ends cfg q = false

/-- A request was approved in time, after `log₀` began, and not ended since; `active` is the time
of the last use. -/
structure Approval (cfg : NativeConfig) (q : TransferRequest) (post mid rest : List NativeEntry)
    (a y : NativeEntry) : Prop where
  split : post = mid ++ a :: rest
  undecided : Undecided cfg q mid
  approves : a.approves q.requestId = true
  inTime : a.time ≤ q.expiresAt
  going : Undecided cfg q rest
  active : y ∈ a :: rest
  use : y = a ∨ y.uses cfg q = true

/-- The history of a record in a given state, since the request was opened. -/
def Decided (cfg : NativeConfig) (q : TransferRequest) (post : List NativeEntry)
    (lastActivity : Nat) :
    TransferState → Prop
  | .pending => Undecided cfg q post
  | .approved => ∃ mid rest a y, Approval cfg q post mid rest a y ∧ lastActivity = y.time
  | _ => True

/-- **The history behind a record.** -/
def Grant (cfg : NativeConfig) (log : List NativeEntry) (r : TransferRequest) : Prop :=
  ∃ pre e post q, log = pre ++ e :: post ∧ e.opened cfg = some q ∧ SameRequest q r ∧
    Decided cfg q post r.lastActivity r.state

theorem Undecided.snoc {q : TransferRequest} {log : List NativeEntry} (h : Undecided cfg q log)
    (hx : x.approves q.requestId = false ∧ x.ends cfg q = false) :
    Undecided cfg q (log ++ [x]) := by
  intro z hz
  rcases List.mem_append.mp hz with hz | hz
  · exact h z hz
  · rw [List.mem_singleton.mp hz]
    exact hx

theorem Decided.snoc {q : TransferRequest} {post : List NativeEntry} {active : Nat}
    {state : TransferState} (h : Decided cfg q post active state)
    (hx : x.approves q.requestId = false ∧ x.ends cfg q = false) :
    Decided cfg q (post ++ [x]) active state := by
  cases state with
  | pending => exact Undecided.snoc h hx
  | approved =>
    obtain ⟨mid, rest, a, y, ha, hy⟩ := h
    refine ⟨mid, rest ++ [x], a, y, ⟨?_, ha.undecided, ha.approves, ha.inTime,
      ha.going.snoc hx, ?_, ha.use⟩, hy⟩
    · rw [ha.split]
      simp
    · rw [← List.cons_append]
      exact List.mem_append_left _ ha.active
  | denied | cancelled => trivial

/-- A call keeps the history behind every record. -/
theorem Grant.effect {log : List NativeEntry} {old new : Option TransferRequest}
    (h : ∀ r, old = some r → Grant cfg log r) (heff : TransferEffect cfg id x old new) :
    ∀ r, new = some r → Grant cfg (log ++ [x]) r := by
  intro r hr
  have hextend : ∀ {pre e post}, log = pre ++ e :: post →
      log ++ [x] = pre ++ e :: (post ++ [x]) := by
    rintro pre e post rfl
    simp
  cases heff with
  | gone => cases hr
  | kept r₀ files record manifest quiet going =>
    cases hr
    obtain ⟨pre, e, post, q, hlog, he, hsame, hdec⟩ := h r₀ record
    refine ⟨pre, e, post ++ [x], q, hextend hlog, he, ?_, ?_⟩
    · exact { hsame with manifest := manifest.trans hsame.manifest }
    · refine hdec.snoc ⟨?_, ?_⟩
      · rw [← hsame.requestId]
        exact quiet
      · rw [← hsame.ends]
        exact going
  | opened r₀ request key =>
    cases hr
    refine ⟨log, x, [], r, rfl, request, ⟨rfl, rfl, rfl, rfl, rfl, rfl, rfl, rfl⟩, ?_⟩
    have hstate : r.state = .pending := by
      unfold NativeEntry.opened at request
      split at request
      · split at request
        · cases request
          rfl
        · cases request
      · cases request
    rw [hstate]
    rintro z ⟨⟩
  | approved r₀ record pending inTime approves =>
    cases hr
    obtain ⟨pre, e, post, q, hlog, he, hsame, hdec⟩ := h r₀ record
    rw [pending] at hdec
    refine ⟨pre, e, post ++ [x], q, hextend hlog, he, { hsame with }, ?_⟩
    refine ⟨post, [], x, x, ⟨rfl, hdec, ?_, ?_, by rintro z ⟨⟩, by simp, .inl rfl⟩, rfl⟩
    · rw [← hsame.requestId]
      exact approves
    · rw [← hsame.expiresAt]
      exact inTime
  | used r₀ record granted uses =>
    cases hr
    obtain ⟨pre, e, post, q, hlog, he, hsame, hdec⟩ := h r₀ record
    refine ⟨pre, e, post ++ [x], q, hextend hlog, he, { hsame with }, ?_⟩
    simp only [granted] at hdec ⊢
    obtain ⟨mid, rest, a, y, ha, -⟩ := hdec
    rw [hsame.uses] at uses
    refine ⟨mid, rest ++ [x], a, x, ⟨?_, ha.undecided, ha.approves, ha.inTime,
      ha.going.snoc ⟨approves_of_uses uses _, ends_of_uses uses⟩, by simp, .inr uses⟩, rfl⟩
    rw [ha.split]
    simp
  | ended r₀ state record terminal ends =>
    cases hr
    obtain ⟨pre, e, post, q, hlog, he, hsame, -⟩ := h r₀ record
    refine ⟨pre, e, post ++ [x], q, hextend hlog, he, { hsame with }, ?_⟩
    rcases terminal with rfl | rfl <;> trivial

/-! ## Requests in the history -/

/-- A call opened the transfer request `q` for the trusted native device `device`. -/
structure Opens (cfg : NativeConfig) (x : NativeEntry) (body : TransferBody)
    (credential : ByteString) (device : TrustedDevice) (q : TransferRequest) : Prop where
  call : ∃ ip, x.op = .requestTransfer body credential ip q.requestId
  trusted : findTrusted cfg.crypto x.trusted credential = some device
  native : NativeSessionStore.nativeDevice device = true
  deviceId : q.deviceId = device.id
  transferId : q.transferId = body.clientSessionId.drop 4
  skip : q.skipExactDuplicates = body.skipExactDuplicates
  manifest : q.files.map (·.manifest) = (body.files.getD []).map (·.manifest)
  tokenHash : q.tokenHash =
    cfg.crypto.sha256Hex (transferToken cfg q.requestId q.transferId q.deviceId)
  createdAt : q.createdAt = x.time
  expiresAt : q.expiresAt = x.time + 120

theorem Opens.drawn {body : TransferBody} {credential : ByteString} {device : TrustedDevice}
    {q : TransferRequest} (h : Opens cfg x body credential device q) :
    x.op.drawn = some q.requestId := by
  obtain ⟨ip, hop⟩ := h.call
  rw [hop]
  rfl

/-- The loop over the manifest keeps it as it was sent. -/
theorem acceptFiles_manifest {clientSessionId : ByteString}
    {files accepted result : List TransferFile}
    {total : Nat} (h : acceptFiles clientSessionId files accepted total = some result) :
    result.map (·.manifest) = accepted.map (·.manifest) ++ files.map (·.manifest) := by
  induction files generalizing accepted total with
  | nil =>
    cases h
    simp
  | cons file rest ih =>
    unfold acceptFiles at h
    split at h
    · rw [ih h]
      simp [TransferFile.manifest]
    · cases h

theorem opens_of_opened {op : NativeOp} {q : TransferRequest}
    (h : (s.entry cfg op).opened cfg = some q) :
    ∃ body credential device, Opens cfg (s.entry cfg op) body credential device q := by
  unfold NativeEntry.opened at h
  split at h
  · rename_i body credential ip requestId _ hop hanswer
    have hop' : op = .requestTransfer body credential ip requestId := hop
    subst hop'
    rcases requestTransfer_cases cfg s.store s.clock body credential ip requestId with
      ⟨-, hstatus⟩ | ⟨device, files, hdevice, hnative, hfiles, -, -⟩
    · have hresult : NativeAnswer.result
          (s.store.requestTransfer cfg s.clock body credential ip requestId).2 = _ := hanswer
      rw [NativeAnswer.result.injEq] at hresult
      rw [hresult] at hstatus
      exact absurd rfl hstatus
    · rw [show findTrusted cfg.crypto (s.entry cfg _).trusted credential = some device from hdevice,
        hfiles] at h
      cases h
      have hmanifest := acceptFiles_manifest hfiles
      exact ⟨body, credential, device, ⟨ip, rfl⟩, hdevice, hnative, rfl, rfl, rfl, hmanifest, rfl,
        rfl, rfl⟩
  · cases h

/-! ## Tokens -/

theorem canonical_length (value : ByteString) : (canonical value).length = value.length + 4 := by
  simp [canonical]

theorem canonical_inj {a b : ByteString} (h : canonical a = canonical b) : a = b := by
  have hdrop := congrArg (List.drop 4) h
  simpa [canonical] using hdrop

/-- The request ID can be read off the material of a token. -/
theorem tokenMaterial_requestId {a b t t' d d' : ByteString} (hlen : a.length = b.length)
    (h : tokenMaterial a t d = tokenMaterial b t' d') : a = b := by
  unfold tokenMaterial at h
  simp only [List.append_assoc] at h
  have h' := (List.append_inj (List.append_cancel_left h) (by
    rw [canonical_length, canonical_length, hlen])).1
  exact canonical_inj h'

/-- The tokens of the requests of a history are told apart by HMAC and SHA-256. -/
def CollisionFree (cfg : NativeConfig) (log : List NativeEntry) : Prop :=
  ∀ x ∈ log, ∀ y ∈ log, ∀ q r, x.opened cfg = some q → y.opened cfg = some r →
    cfg.crypto.sha256Hex (transferToken cfg q.requestId q.transferId q.deviceId) =
      cfg.crypto.sha256Hex (transferToken cfg r.requestId r.transferId r.deviceId) →
    tokenMaterial q.requestId q.transferId q.deviceId =
      tokenMaterial r.requestId r.transferId r.deviceId

theorem CollisionFree.of_append {log log' : List NativeEntry}
    (h : CollisionFree cfg (log ++ log')) :
    CollisionFree cfg log :=
  fun x hx y hy => h x (List.mem_append_left _ hx) y (List.mem_append_left _ hy)

/-! ## The invariant -/

/-- **The history behind the store.** -/
structure Grants (cfg : NativeConfig) (s : NativeState) : Prop where
  drawn : (s.log.filterMap (·.op.drawn)).Nodup
  length : ∀ x ∈ s.log, ∀ id, x.op.drawn = some id → id.length = 32
  opens : ∀ x ∈ s.log, ∀ q, x.opened cfg = some q →
    ∃ body credential device, Opens cfg x body credential device q
  key : ∀ id r, s.store.transfers.lookup id = some r → r.requestId = id
  grant : ∀ id r, s.store.transfers.lookup id = some r → Grant cfg s.log r

theorem Grants.requestId_of_token (h : Grants cfg s) (hfree : CollisionFree cfg s.log)
    {x y : NativeEntry} {q r : TransferRequest} (hx : x ∈ s.log) (hy : y ∈ s.log)
    (hq : x.opened cfg = some q) (hr : y.opened cfg = some r)
    (htoken : cfg.crypto.sha256Hex (transferToken cfg q.requestId q.transferId q.deviceId) =
      cfg.crypto.sha256Hex (transferToken cfg r.requestId r.transferId r.deviceId)) :
    q.requestId = r.requestId := by
  obtain ⟨_, _, _, hopq⟩ := h.opens x hx q hq
  obtain ⟨_, _, _, hopr⟩ := h.opens y hy r hr
  refine tokenMaterial_requestId ?_ (hfree x hx y hy q r hq hr htoken)
  rw [h.length x hx _ hopq.drawn, h.length y hy _ hopr.drawn]

/-- One request ID, one request. -/
theorem Grants.request_unique (h : Grants cfg s) {x y : NativeEntry} {q r : TransferRequest}
    (hx : x ∈ s.log) (hy : y ∈ s.log) (hq : x.opened cfg = some q) (hr : y.opened cfg = some r)
    (hid : q.requestId = r.requestId) : q = r := by
  obtain ⟨_, _, _, hopq⟩ := h.opens x hx q hq
  obtain ⟨_, _, _, hopr⟩ := h.opens y hy r hr
  obtain ⟨pre, post, hlog⟩ := List.append_of_mem hx
  obtain ⟨pre', post', hlog'⟩ := List.append_of_mem hy
  obtain ⟨-, rfl, -⟩ := split_unique h.drawn hlog hlog' hopq.drawn (hid ▸ hopr.drawn)
  exact Option.some.inj (hq.symm.trans hr)

theorem Grants.keyed (h : Grants cfg s) (hfree : CollisionFree cfg s.log) : s.store.Keyed where
  key := h.key
  token := by
    intro i j r r' hi hj hhash
    obtain ⟨pre, e, post, q, hlog, he, hsame, -⟩ := h.grant i r hi
    obtain ⟨pre', e', post', q', hlog', he', hsame', -⟩ := h.grant j r' hj
    have hx : e ∈ s.log := by
      rw [hlog]
      simp
    have hy : e' ∈ s.log := by
      rw [hlog']
      simp
    obtain ⟨_, _, _, hop⟩ := h.opens e hx q he
    obtain ⟨_, _, _, hop'⟩ := h.opens e' hy q' he'
    rw [hsame.tokenHash, hsame'.tokenHash, hop.tokenHash, hop'.tokenHash] at hhash
    have hid := h.requestId_of_token hfree hx hy he he' hhash
    rw [← h.key i r hi, ← h.key j r' hj, hsame.requestId, hsame'.requestId, hid]

/-- A drawn ID is the ID of no record. -/
theorem Grants.lookup_fresh (h : Grants cfg s) {op : NativeOp} {id : ByteString}
    (hfresh : (NativeLabel.call op).fresh s = true) (hid : op.drawn = some id) :
    s.store.transfers.lookup id = none := by
  cases hr : s.store.transfers.lookup id with
  | none => rfl
  | some r =>
    obtain ⟨pre, e, post, q, hlog, he, hsame, -⟩ := h.grant id r hr
    have hx : e ∈ s.log := by
      rw [hlog]
      simp
    obtain ⟨_, _, _, hop⟩ := h.opens e hx q he
    have hdrawn := hop.drawn
    rw [← hsame.requestId, h.key id r hr] at hdrawn
    exact absurd hdrawn (fresh_new hfresh hid e hx)

theorem Grants.init (pairingStore : PairingStore) (clock : Nat) :
    Grants cfg (.init pairingStore clock) where
  drawn := List.nodup_nil
  length := by
    intro x hx
    cases hx
  opens := by
    intro x hx
    cases hx
  key := by
    intro id r hr
    cases hr
  grant := by
    intro id r hr
    cases hr

theorem TransferEffect.key {old new : Option TransferRequest} (h : TransferEffect cfg id x old new)
    (hold : ∀ r, old = some r → r.requestId = id) : ∀ r, new = some r → r.requestId = id := by
  intro r hr
  cases h with
  | gone => cases hr
  | opened r₀ request key =>
    cases hr
    exact key
  | kept r₀ files record | approved r₀ record | used r₀ record | ended r₀ state record =>
    cases hr
    exact hold r₀ record

/-- Calls keep the history behind the store. -/
theorem Grants.call (h : Grants cfg s) (hfree : CollisionFree cfg s.log) {op : NativeOp}
    (hfresh : (NativeLabel.call op).fresh s = true) : Grants cfg (s.after cfg op) where
  drawn := drawn_snoc h.drawn hfresh
  length := by
    intro x hx id hid
    rcases mem_after_log hx with hx | rfl
    · exact h.length x hx id hid
    · exact fresh_length hfresh hid
  opens := by
    intro x hx q hq
    rcases mem_after_log hx with hx | rfl
    · exact h.opens x hx q hq
    · exact opens_of_opened hq
  key := fun id => (call_transferEffect (h.keyed hfree)
    (fun _ hid => h.lookup_fresh hfresh hid) id).key (h.key id)
  grant := fun id => Grant.effect (h.grant id)
    (call_transferEffect (h.keyed hfree) (fun _ hid => h.lookup_fresh hfresh hid) id)

theorem Grants.step (h : Grants cfg s) (hfree : CollisionFree cfg s.log) {l : NativeLabel}
    (hfresh : l.fresh s = true) (hstep : NativeStep cfg s l s') : Grants cfg s' := by
  cases hstep with
  | call op => exact h.call hfree hfresh
  | advance | phone => exact ⟨h.drawn, h.length, h.opens, h.key, h.grant⟩
  | reorder pairings transfers _ sameTransfers =>
    have hlookup : ∀ id, transfers.lookup id = s.store.transfers.lookup id :=
      fun id => AList.perm_lookup sameTransfers
    refine ⟨h.drawn, h.length, h.opens, ?_, ?_⟩
    · intro id r hr
      exact h.key id r ((hlookup id).symm.trans hr)
    · intro id r hr
      exact h.grant id r ((hlookup id).symm.trans hr)

theorem NativeRun.grants (h : NativeRun cfg s s') (h0 : Grants cfg s) :
    CollisionFree cfg s'.log → Grants cfg s' := by
  refine h.invariant (I := fun t => CollisionFree cfg t.log → Grants cfg t) (fun _ => h0) ?_
  intro t l u ih hfresh hstep hfree
  have hstep' := nativeStep_spec hstep
  obtain ⟨new, hlog⟩ := hstep'.log_append
  rw [hlog] at hfree
  exact (ih hfree.of_append).step hfree.of_append hfresh hstep'

/-! ## What the answers tell -/

theorem authorizeFile_spec {token transferId fileId name : ByteString}
    {sizeBytes : Nat} {skip : Bool}
    (h : (store.authorizeFile cfg now token transferId fileId name sizeBytes skip).2 = true) :
    ∃ id r, store.transfers.lookup id = some r ∧ r.state = .approved ∧
      r.accepts cfg token transferId = true ∧ now ≤ r.lastActivity + TransferIdleLifetime ∧
      now ≤ r.createdAt + TransferAbsoluteLifetime ∧ r.skipExactDuplicates = skip ∧
      (fileId, name, sizeBytes) ∈ r.files.map (·.manifest) := by
  unfold NativeSessionStore.authorizeFile at h
  simp only at h
  split at h
  · cases h
  · rename_i id r hgrant
    obtain ⟨hpruned, hstate, haccepts⟩ := findGrant_spec hgrant
    obtain ⟨hlookup, hlive⟩ := lookup_of_pruneLocked hpruned
    split at h
    · cases h
    · rename_i hskip
      split at h
      · rename_i hfile
        simp only [TransferRequest.prunable, hstate, Bool.or_eq_false_iff, decide_eq_false_iff_not,
          not_lt] at hlive
        refine ⟨id, r, hlookup, hstate, haccepts, hlive.1, hlive.2, by simpa using hskip, ?_⟩
        obtain ⟨file, hmem, hfile⟩ := List.any_eq_true.mp hfile
        simp only [Bool.and_eq_true, beq_iff_eq] at hfile
        obtain ⟨⟨rfl, rfl⟩, rfl⟩ := hfile
        exact List.mem_map_of_mem hmem
      · cases h

theorem transferStatus_spec {requestId credential transferId token : ByteString}
    (h : (store.transferStatus cfg now requestId credential).2 = ⟨200, .granted transferId token⟩) :
    ∃ device r, findTrusted cfg.crypto store.pairingStore.trusted credential = some device ∧
      store.transfers.lookup requestId = some r ∧ r.deviceId = device.id ∧
      transferId = r.transferId ∧ token =
        transferToken cfg r.requestId r.transferId r.deviceId := by
  unfold NativeSessionStore.transferStatus at h
  split at h
  · simp [nativeError] at h
  · rename_i device hdevice
    simp only at h
    split at h
    · simp [nativeError] at h
    · rename_i r hr
      split at h
      · simp [nativeError] at h
      · rename_i hid
        split at h
        · simp [nativeError] at h
        · split at h
          · simp [nativeError] at h
          · rename_i _ token' htoken
            unfold NativeSessionStore.transferTokenLocked at htoken
            simp only at htoken
            split at htoken
            · cases htoken
              simp only [NativeResult.mk.injEq, NativeBody.granted.injEq, true_and] at h
              exact ⟨device, r, hdevice, (lookup_of_pruneLocked hr).1, by simpa using hid,
                h.1.symm, h.2.symm⟩
            · cases htoken
        · simp at h

/-! ## Ended requests -/

/-- A request that was denied or cancelled; its record may be gone. -/
structure Retired (s : NativeState) (id : ByteString) : Prop where
  drawn : ∃ x ∈ s.log, x.op.drawn = some id
  ended : ∀ r, s.store.transfers.lookup id = some r → r.state = .denied ∨ r.state = .cancelled

theorem TransferEffect.retired {old new : Option TransferRequest}
    (h : TransferEffect cfg id x old new) (hnew : x.op.drawn ≠ some id)
    (hopens : ∀ q, x.opened cfg = some q → x.op.drawn = some q.requestId)
    (hold : ∀ r, old = some r → r.state = .denied ∨ r.state = .cancelled) :
    ∀ r, new = some r → r.state = .denied ∨ r.state = .cancelled := by
  intro r hr
  cases h with
  | gone => cases hr
  | kept r₀ files record =>
    cases hr
    exact hold r₀ record
  | opened r₀ request key =>
    cases hr
    rw [← key] at hnew
    exact absurd (hopens r request) hnew
  | approved r₀ record pending =>
    rcases hold r₀ record with h | h <;> rw [h] at pending <;> cases pending
  | used r₀ record granted =>
    rcases hold r₀ record with h | h <;> rw [h] at granted <;> cases granted
  | ended r₀ state record terminal =>
    cases hr
    exact terminal

theorem Retired.step (h : Retired s id) (hg : Grants cfg s) (hfree : CollisionFree cfg s.log)
    {l : NativeLabel} (hfresh : l.fresh s = true) (hstep : NativeStep cfg s l s') :
    Retired s' id := by
  obtain ⟨⟨x, hx, hid⟩, hended⟩ := h
  cases hstep with
  | call op =>
    refine ⟨⟨x, List.mem_append_left _ hx, hid⟩, ?_⟩
    refine (call_transferEffect (hg.keyed hfree) (fun _ hid => hg.lookup_fresh hfresh hid)
      id).retired ?_ ?_ hended
    · intro hdrawn
      exact fresh_new hfresh hdrawn x hx hid
    · intro q hq
      obtain ⟨_, _, _, hop⟩ := opens_of_opened hq
      exact hop.drawn
  | advance | phone => exact ⟨⟨x, hx, hid⟩, hended⟩
  | reorder pairings transfers _ sameTransfers =>
    refine ⟨⟨x, hx, hid⟩, fun r hr => hended r ?_⟩
    exact (AList.perm_lookup sameTransfers).symm.trans hr

theorem Retired.run (h : Retired s id) (hg : Grants cfg s) (hrun : NativeRun cfg s s') :
    CollisionFree cfg s'.log → Retired s' id := by
  intro hfree
  refine (hrun.invariant (I := fun t => CollisionFree cfg t.log → Grants cfg t ∧ Retired t id)
    (fun _ => ⟨hg, h⟩) ?_ hfree).2
  intro t l u ih hfresh hstep hfree
  have hstep' := nativeStep_spec hstep
  obtain ⟨new, hlog⟩ := hstep'.log_append
  rw [hlog] at hfree
  obtain ⟨hg, hr⟩ := ih hfree.of_append
  exact ⟨hg.step hfree.of_append hfresh hstep', hr.step hg hfree.of_append hfresh hstep'⟩

/-! ## The result -/

/-- The history that a token needs at time `now` to open one file: the request `q` with the file in
its manifest was made by a device that was trusted for native transfers (`e`), approved in time
while undecided (`a`), not denied, cancelled or revoked since, and last active at `y`. -/
structure Authorized (cfg : NativeConfig) (log : List NativeEntry) (now : Nat)
    (token transferId fileId name : ByteString) (sizeBytes : Nat) (skip : Bool)
    (q : TransferRequest) : Prop where
  chain : ∃ pre e mid a rest body credential device,
    log = pre ++ e :: (mid ++ a :: rest) ∧ Opens cfg e body credential device q ∧
    (fileId, name, sizeBytes) ∈ (body.files.getD []).map (·.manifest) ∧
    body.skipExactDuplicates = skip ∧ body.clientSessionId.drop 4 = transferId ∧
    Undecided cfg q mid ∧ a.approves q.requestId = true ∧ a.time ≤ e.time + 120 ∧
    Undecided cfg q rest ∧ now ≤ e.time + 24 * 60 * 60 ∧
    ∃ y ∈ a :: rest, (y = a ∨ y.uses cfg q = true) ∧ now ≤ y.time + 30 * 60
  token : cfg.crypto.sha256Hex token =
    cfg.crypto.sha256Hex (transferToken cfg q.requestId q.transferId q.deviceId)

theorem Grants.authorized (hg : Grants cfg s) {token transferId fileId name : ByteString}
    {sizeBytes : Nat} {skip : Bool}
    (h : (s.store.authorizeFile cfg s.clock token transferId fileId name sizeBytes skip).2 = true) :
    ∃ q, Authorized cfg s.log s.clock token transferId fileId name sizeBytes skip q := by
  obtain ⟨id, r, hr, hstate, haccepts, hidle, hage, hskip, hfile⟩ := authorizeFile_spec h
  obtain ⟨pre, e, post, q, hlog, he, hsame, hdec⟩ := hg.grant id r hr
  have hx : e ∈ s.log := by
    rw [hlog]
    simp
  obtain ⟨body, credential, device, hop⟩ := hg.opens e hx q he
  rw [hstate] at hdec
  obtain ⟨mid, rest, a, y, hap, hy⟩ := hdec
  simp only [TransferRequest.accepts, constantTimeEqual, Bool.and_eq_true, beq_iff_eq] at haccepts
  refine ⟨q, ⟨⟨pre, e, mid, a, rest, body, credential, device, ?_, hop, ?_, ?_, ?_, hap.undecided,
    hap.approves, ?_, hap.going, ?_, y, hap.active, hap.use, ?_⟩, ?_⟩⟩
  · rw [hlog, hap.split]
  · rw [← hop.manifest, ← hsame.manifest]
    exact hfile
  · rw [← hop.skip, ← hsame.skip]
    exact hskip
  · rw [← hop.transferId, ← hsame.transferId]
    exact haccepts.1
  · rw [← hop.expiresAt]
    exact hap.inTime
  · rw [← hop.createdAt, ← hsame.createdAt]
    exact hage
  · rw [← hy]
    exact hidle
  · rw [← hop.tokenHash, ← hsame.tokenHash]
    exact haccepts.2.2.symm

theorem Grants.status (hg : Grants cfg s) (hfree : CollisionFree cfg s.log)
    {requestId credential transferId token : ByteString}
    (h : (s.store.transferStatus cfg s.clock requestId credential).2 =
      ⟨200, .granted transferId token⟩) :
    ∃ q, (∃ x ∈ s.log, x.opened cfg = some q) ∧
      token = transferToken cfg q.requestId q.transferId q.deviceId ∧
      (∀ x ∈ s.log, ∀ q', x.opened cfg = some q' →
        token = transferToken cfg q'.requestId q'.transferId q'.deviceId → q' = q) ∧
      ∃ device, findTrusted cfg.crypto s.store.pairingStore.trusted credential = some device ∧
        device.id = q.deviceId := by
  obtain ⟨device, r, hdevice, hr, hid, -, htoken⟩ := transferStatus_spec h
  obtain ⟨pre, e, post, q, hlog, he, hsame, -⟩ := hg.grant requestId r hr
  have hx : e ∈ s.log := by
    rw [hlog]
    simp
  rw [hsame.requestId, hsame.transferId, hsame.deviceId] at htoken
  refine ⟨q, ⟨e, hx, he⟩, htoken, ?_, device, hdevice, ?_⟩
  · intro x hx' q' hq' htoken'
    have heq := congrArg cfg.crypto.sha256Hex (htoken'.symm.trans htoken)
    exact hg.request_unique hx' hx hq' he (hg.requestId_of_token hfree hx' hx hq' he heq)
  · rw [← hid, hsame.deviceId]

/-- **Native transfer authorization.**  In every run with fresh request IDs whose tokens do not
collide: a file is opened only along the whole chain, a token is handed out only to the device that
asked, and a request that was denied or cancelled is never approved again. -/
theorem native_transfer_authorization {pairingStore : PairingStore} {clock : Nat}
    (hrun : NativeRun cfg (.init pairingStore clock) s) (hfree : CollisionFree cfg s.log) :
    (∀ token transferId fileId name sizeBytes skip,
      (s.store.authorizeFile cfg s.clock token transferId fileId name sizeBytes skip).2 = true →
      ∃ q, Authorized cfg s.log s.clock token transferId fileId name sizeBytes skip q) ∧
    (∀ requestId credential transferId token,
      (s.store.transferStatus cfg s.clock requestId credential).2 =
        ⟨200, .granted transferId token⟩ →
      ∃ q, (∃ x ∈ s.log, x.opened cfg = some q) ∧
        token = transferToken cfg q.requestId q.transferId q.deviceId ∧
        (∀ x ∈ s.log, ∀ q', x.opened cfg = some q' →
          token = transferToken cfg q'.requestId q'.transferId q'.deviceId → q' = q) ∧
        ∃ device, findTrusted cfg.crypto s.store.pairingStore.trusted credential = some device ∧
          device.id = q.deviceId) ∧
    (∀ t id r, s.store.transfers.lookup id = some r →
      r.state = .denied ∨ r.state = .cancelled → NativeRun cfg s t → CollisionFree cfg t.log →
      ∀ r', t.store.transfers.lookup id = some r' → r'.state ≠ .approved) := by
  have hg : Grants cfg s := hrun.grants (.init pairingStore clock) hfree
  refine ⟨fun _ _ _ _ _ _ h => hg.authorized h, fun _ _ _ _ h => hg.status hfree h, ?_⟩
  intro t id r hr hended hrun' hfree' r' hr'
  have hretired : Retired s id := by
    refine ⟨?_, ?_⟩
    · obtain ⟨pre, e, post, q, hlog, he, hsame, -⟩ := hg.grant id r hr
      have hx : e ∈ s.log := by
        rw [hlog]
        simp
      obtain ⟨_, _, _, hop⟩ := hg.opens e hx q he
      refine ⟨e, hx, ?_⟩
      rw [hop.drawn, ← hsame.requestId, hg.key id r hr]
    · intro r₁ hr₁
      rwa [← Option.some.inj (hr.symm.trans hr₁)]
  intro happroved
  rcases (hretired.run hg hrun' hfree').ended r' hr' with h | h <;> rw [h] at happroved <;>
    cases happroved

theorem collisionFree_of_one_request {log : List NativeEntry}
    (h : (log.filterMap (·.opened cfg)).length ≤ 1) : CollisionFree cfg log := by
  intro x hx y hy q r hq hr _
  have hq' : q ∈ log.filterMap (·.opened cfg) := List.mem_filterMap.mpr ⟨x, hx, hq⟩
  have hr' : r ∈ log.filterMap (·.opened cfg) := List.mem_filterMap.mpr ⟨y, hy, hr⟩
  rcases Nat.le_one_iff_eq_zero_or_eq_one.mp h with h | h
  · rw [List.length_eq_zero_iff.mp h] at hq'
    cases hq'
  · obtain ⟨p, hp⟩ := List.length_eq_one_iff.mp h
    rw [hp, List.mem_singleton] at hq' hr'
    rw [hq', hr']

/-- A receiver with the values of OpenSSL for one paired sender and one request. -/
def pairedReceiver : NativeConfig where
  crypto := .tabulated
    [(ascii "a1a1a1a1a1a1a1a1a1a1a1a1a1a1a1a1a1a1a1a1a1a1a1a1a1a1a1a1a1a1a1a1",
      ascii "3490f80401886d12f3861ec190f5c16419b26345497a92bc4530e22f5d8b4295"),
    (ascii "7b6e9d74075b74aa795a8b9196fb4b1616c5a4e421d42f5d83e98285c6531812",
      ascii "6188f522e57d77025fe98a78b35547fbcc18eb1b6d1b387eb47e33cc4fe443cc")]
    [((ascii "0f0f0f0f0f0f0f0f0f0f0f0f0f0f0f0f0f0f0f0f0f0f0f0f0f0f0f0f0f0f0f0f",
      tokenMaterial (ascii "00112233445566778899aabbccddeeff")
        (ascii "ffeeddccbbaa99887766554433221100") (ascii "pc-1")),
      ascii "7b6e9d74075b74aa795a8b9196fb4b1616c5a4e421d42f5d83e98285c6531812")]
  serverId := ascii "receiver"
  environment := ascii "production"
  grantMaster := ascii "0f0f0f0f0f0f0f0f0f0f0f0f0f0f0f0f0f0f0f0f0f0f0f0f0f0f0f0f0f0f0f0f"
  isLocalSubnetAddress := fun _ => true

/-- The trusted devices of that receiver. -/
def pairedDevices : PairingStore :=
  ⟨[], [{ id := ascii "pc-1", name := ascii "PC", lastIp := ascii "10.0.0.2", lastSeenUnix := 0
          credentialHash :=
            ascii "3490f80401886d12f3861ec190f5c16419b26345497a92bc4530e22f5d8b4295"
          clientType := ascii "windows", authorizationMode := ascii "approval_required" }], []⟩

theorem native_transfer_authorization_used :
    ∃ s, NativeRun pairedReceiver (.init pairedDevices 1000) s ∧
      (s.store.authorizeFile pairedReceiver s.clock
        (ascii "7b6e9d74075b74aa795a8b9196fb4b1616c5a4e421d42f5d83e98285c6531812")
        (ascii "ffeeddccbbaa99887766554433221100")
        (ascii "win-ffeeddccbbaa99887766554433221100-1") (ascii "a.jpg") 5 true).2 = true ∧
      ∃ q, Authorized pairedReceiver s.log s.clock
        (ascii "7b6e9d74075b74aa795a8b9196fb4b1616c5a4e421d42f5d83e98285c6531812")
        (ascii "ffeeddccbbaa99887766554433221100")
        (ascii "win-ffeeddccbbaa99887766554433221100-1") (ascii "a.jpg") 5 true q := by
  obtain ⟨s, hrun, htest⟩ := Run.exists_of_exec (nativeStep pairedReceiver)
    (P := fun t l => l.fresh t = true) (fun t l => l.fresh t)
    (fun s => decide ((s.log.filterMap (·.opened pairedReceiver)).length ≤ 1) &&
      (s.store.authorizeFile pairedReceiver s.clock
        (ascii "7b6e9d74075b74aa795a8b9196fb4b1616c5a4e421d42f5d83e98285c6531812")
        (ascii "ffeeddccbbaa99887766554433221100")
        (ascii "win-ffeeddccbbaa99887766554433221100-1") (ascii "a.jpg") 5 true).2)
    (.init pairedDevices 1000)
    [.call (.requestTransfer
        { protocolVersion := 1
          clientSessionId := ascii "win-ffeeddccbbaa99887766554433221100"
          files := some
            [⟨ascii "win-ffeeddccbbaa99887766554433221100-1", ascii "a.jpg", 5, false⟩] }
        (ascii "a1a1a1a1a1a1a1a1a1a1a1a1a1a1a1a1a1a1a1a1a1a1a1a1a1a1a1a1a1a1a1a1")
        (ascii "10.0.0.2") (ascii "00112233445566778899aabbccddeeff")),
      .advance 60, .call (.approveTransfer (ascii "00112233445566778899aabbccddeeff"))]
    (fun _ _ h => h) (by
      unfold pairedReceiver pairedDevices
      repeat rw [ascii_ofList]
      decide)
  rw [Bool.and_eq_true, decide_eq_true_iff] at htest
  refine ⟨s, hrun, htest.2, ?_⟩
  have hfree := collisionFree_of_one_request htest.1
  exact (native_transfer_authorization hrun hfree).1 _ _ _ _ _ _ htest.2

end LocalMediaTransfer
