import LocalMediaTransfer.Server.Security.NativeSession.Authorization
import LocalMediaTransfer.Server.UploadSession

/-!
# Cancelled grants

A transfer grant whose cancellation was answered 200 authorizes no file any more, for any token with
its digest and in every later state.

* `GrantEnded` — the request a token belongs to is over.
* `grantEnded_of_run` — every token that a cancellation was answered 200 for is over.
* `GrantEnded.rejects` — **`authorizeFile` refuses it**.
* `transferId_of_run` — the transfer IDs in the store are 32 hexadecimal digits.
-/

set_option autoImplicit false

namespace LocalMediaTransfer

open Lib

variable {cfg : NativeConfig} {s s' : NativeState} {token transferId : ByteString}

/-- The request that a token was made for was denied or cancelled. -/
structure GrantEnded (cfg : NativeConfig) (s : NativeState) (token : ByteString) : Prop where
  request : ∃ x ∈ s.log, ∃ q, x.opened cfg = some q ∧
    q.tokenHash = cfg.crypto.sha256Hex token ∧ Retired s q.requestId

/-- A cancellation with this token was answered 200. -/
def NativeEntry.cancelled (x : NativeEntry) (transferId token : ByteString) : Prop :=
  x.op = .cancelTransfer transferId token ∧ x.answer = .result ⟨200, .ok⟩

theorem cancelTransfer_spec {store : NativeSessionStore}
    (h : (store.cancelTransfer cfg transferId token).2 = ⟨200, .ok⟩) :
    ∃ id r, store.transfers.lookup id = some r ∧ r.accepts cfg token transferId = true ∧
      (store.cancelTransfer cfg transferId token).1.transfers.lookup id =
        some { r with state := .cancelled } := by
  unfold NativeSessionStore.cancelTransfer at h ⊢
  split at h
  · simp [nativeError] at h
  · rename_i e he
    obtain ⟨hlookup, hp⟩ := mem_of_find? he
    refine ⟨e.1, e.2, hlookup, hp, ?_⟩
    rw [lookup_updateTransfer, if_pos rfl, hlookup]
    rfl

theorem GrantEnded.step (h : GrantEnded cfg s token) (hg : Grants cfg s)
    (hfree : CollisionFree cfg s.log) {l : NativeLabel} (hfresh : l.fresh s = true)
    (hstep : NativeStep cfg s l s') : GrantEnded cfg s' token := by
  obtain ⟨x, hx, q, hq, hhash, hretired⟩ := h.request
  obtain ⟨new, hlog⟩ := hstep.log_append
  exact ⟨x, by rw [hlog]; exact List.mem_append_left _ hx, q, hq, hhash,
    hretired.step hg hfree hfresh hstep⟩

/-- A cancellation that is answered 200 ends the grant. -/
theorem grantEnded_of_cancelTransfer (hg : Grants cfg s)
    (h : (s.store.cancelTransfer cfg transferId token).2 = ⟨200, .ok⟩) :
    GrantEnded cfg (s.after cfg (.cancelTransfer transferId token)) token := by
  obtain ⟨id, r, hr, haccepts, hafter⟩ := cancelTransfer_spec h
  obtain ⟨pre, x, post, q, hlog, hq, hsame, -⟩ := hg.grant id r hr
  have hx : x ∈ s.log := by
    rw [hlog]
    simp
  obtain ⟨body, credential, device, hop⟩ := hg.opens x hx q hq
  have hid : q.requestId = id := by rw [← hsame.requestId, hg.key id r hr]
  simp only [TransferRequest.accepts, constantTimeEqual, Bool.and_eq_true, beq_iff_eq] at haccepts
  refine ⟨x, List.mem_append_left _ hx, q, hq, ?_, ⟨x, List.mem_append_left _ hx, hop.drawn⟩, ?_⟩
  · rw [← hsame.tokenHash]
    exact haccepts.2.2
  · intro r' hr'
    rw [hid] at hr'
    cases (hafter.symm.trans hr')
    exact .inr rfl

/-- **Every token that a cancellation was answered 200 for is over.** -/
theorem grantEnded_of_run {pairingStore : PairingStore} {clock : Nat}
    (hrun : NativeRun cfg (.init pairingStore clock) s) :
    CollisionFree cfg s.log → ∀ x ∈ s.log, x.cancelled transferId token →
      GrantEnded cfg s token := by
  induction hrun with
  | refl => exact fun _ x hx => by cases hx
  | tail hr hfresh hstep ih =>
    intro hfree x hx hcancel
    have hstep' := nativeStep_spec hstep
    obtain ⟨new, hlog⟩ := hstep'.log_append
    rw [hlog] at hfree
    have hg := NativeRun.grants hr (.init pairingStore clock) hfree.of_append
    cases hstep' with
    | call op =>
      rcases mem_after_log hx with hx | rfl
      · exact (ih hfree.of_append x hx hcancel).step hg hfree.of_append hfresh (.call op)
      · obtain ⟨hop, hanswer⟩ := hcancel
        have hop' : op = .cancelTransfer transferId token := hop
        subst hop'
        exact grantEnded_of_cancelTransfer hg (NativeAnswer.result.inj hanswer)
    | advance elapsed =>
      exact (ih hfree.of_append x hx hcancel).step hg hfree.of_append hfresh (.advance elapsed)
    | phone op =>
      exact (ih hfree.of_append x hx hcancel).step hg hfree.of_append hfresh (.phone op)
    | reorder pairings transfers samePairings sameTransfers =>
      exact (ih hfree.of_append x hx hcancel).step hg hfree.of_append hfresh
        (.reorder pairings transfers samePairings sameTransfers)

/-- **A grant that is over authorizes no file.** -/
theorem GrantEnded.rejects (h : GrantEnded cfg s token) (hg : Grants cfg s)
    (hfree : CollisionFree cfg s.log) {token' fileId name : ByteString} {sizeBytes : Nat}
    {skip : Bool} (htoken : cfg.crypto.sha256Hex token' = cfg.crypto.sha256Hex token) :
    (s.store.authorizeFile cfg s.clock token' transferId fileId name sizeBytes skip).2 = false := by
  by_contra hne
  obtain ⟨id, r, hr, hstate, haccepts, -⟩ := authorizeFile_spec (Bool.eq_true_of_not_eq_false hne)
  obtain ⟨pre, y, post, q', hlog, hq', hsame, -⟩ := hg.grant id r hr
  have hy : y ∈ s.log := by
    rw [hlog]
    simp
  obtain ⟨x, hx, q, hq, hhash, hretired⟩ := h.request
  obtain ⟨_, _, _, hop⟩ := hg.opens x hx q hq
  obtain ⟨_, _, _, hop'⟩ := hg.opens y hy q' hq'
  simp only [TransferRequest.accepts, constantTimeEqual, Bool.and_eq_true, beq_iff_eq] at haccepts
  -- both requests have a token with this digest
  have heq : q'.requestId = q.requestId := by
    refine hg.requestId_of_token hfree hy hx hq' hq ?_
    rw [← hop'.tokenHash, ← hop.tokenHash, ← hsame.tokenHash, haccepts.2.2, htoken, hhash]
  have hid : id = q.requestId := by rw [← heq, ← hsame.requestId, hg.key id r hr]
  rcases hretired.ended r (hid ▸ hr) with hended | hended <;> rw [hended] at hstate <;> cases hstate

/-! ## Transfer IDs -/

theorem valid_of_requestTransfer {store : NativeSessionStore} {now : Nat} {body : TransferBody}
    {credential ip requestId : ByteString}
    (h : (store.requestTransfer cfg now body credential ip requestId).2.status = 202) :
    body.valid = true := by
  unfold NativeSessionStore.requestTransfer at h
  split at h
  · simp [nativeError] at h
  · simp only at h
    split at h
    · simp [nativeError] at h
    · split at h
      · simp [nativeError] at h
      · split at h
        · simp [nativeError] at h
        · rename_i hvalid
          simpa using hvalid

/-- The transfer IDs of the requests that were opened. -/
theorem transferId_of_run {pairingStore : PairingStore} {clock : Nat}
    (hrun : NativeRun cfg (.init pairingStore clock) s) :
    ∀ x ∈ s.log, ∀ q, x.opened cfg = some q → isHex q.transferId 32 = true := by
  induction hrun with
  | refl => exact fun x hx => by cases hx
  | tail hr hfresh hstep ih =>
    intro x hx q hq
    cases nativeStep_spec hstep with
    | call op =>
      rcases mem_after_log hx with hx | rfl
      · exact ih x hx q hq
      · obtain ⟨body, credential, device, hop⟩ := opens_of_opened hq
        obtain ⟨ip, hcall⟩ := hop.call
        have hcall' : op = .requestTransfer body credential ip q.requestId := hcall
        subst hcall'
        have hvalid : body.valid = true := by
          unfold NativeEntry.opened at hq
          split at hq
          · rename_i hop' hanswer
            cases hop'
            exact valid_of_requestTransfer (congrArg NativeResult.status
              (NativeAnswer.result.inj hanswer))
          · cases hq
        simp only [TransferBody.valid, Bool.and_eq_true] at hvalid
        rw [hop.transferId]
        exact hvalid.1.2
    | advance | phone | reorder => exact ih x hx q hq

theorem isSafeByte_of_isXDigit : ∀ {b : UInt8}, isXDigit b = true → isSafeByte b = true := by
  intro b h
  have hall : ∀ n < 256, isXDigit (UInt8.ofNat n) = true → isSafeByte (UInt8.ofNat n) = true := by
    decide +kernel
  have hb := hall b.toNat b.toNat_lt
  rw [UInt8.ofNat_toNat] at hb
  exact hb h

/-- The transfer IDs of the transfers that were cancelled. -/
theorem transferId_of_cancelled {pairingStore : PairingStore} {clock : Nat}
    (hrun : NativeRun cfg (.init pairingStore clock) s) :
    CollisionFree cfg s.log → ∀ x ∈ s.log, x.cancelled transferId token →
      isHex transferId 32 = true := by
  induction hrun with
  | refl => exact fun _ x hx => by cases hx
  | tail hr hfresh hstep ih =>
    intro hfree x hx hcancel
    have hstep' := nativeStep_spec hstep
    obtain ⟨new, hlog⟩ := hstep'.log_append
    rw [hlog] at hfree
    cases hstep' with
    | call op =>
      rcases mem_after_log hx with hx | rfl
      · exact ih hfree.of_append x hx hcancel
      · have hg := NativeRun.grants hr (.init pairingStore clock) hfree.of_append
        obtain ⟨hop, hanswer⟩ := hcancel
        have hop' : op = .cancelTransfer transferId token := hop
        subst hop'
        obtain ⟨id, r, hlookup, haccepts, -⟩ := cancelTransfer_spec
          (NativeAnswer.result.inj hanswer)
        obtain ⟨pre, y, post, q, hlog', hq, hsame, -⟩ := hg.grant id r hlookup
        simp only [TransferRequest.accepts, Bool.and_eq_true, beq_iff_eq] at haccepts
        rw [← haccepts.1, hsame.transferId]
        exact transferId_of_run hr y (by rw [hlog']; simp) q hq
    | advance | phone | reorder => exact ih hfree.of_append x hx hcancel

/-- `abortFilesWithPrefix` accepts the prefix of a transfer that was cancelled. -/
theorem isSafeFileId_of_isHex (sha : Sha256) (c : ByteString) (h : isHex transferId 32 = true) :
    isSafeFileId (sha.cancelPrefix c (ascii "win-" ++ transferId)) = true := by
  simp only [isHex, Bool.and_eq_true, beq_iff_eq, List.all_eq_true] at h
  refine isSafeFileId_cancelPrefix_of sha c ?_ ?_
  · rw [List.all_append, Bool.and_eq_true]
    exact ⟨by decide, List.all_eq_true.mpr fun b hb => isSafeByte_of_isXDigit (h.2 b hb)⟩
  · rw [List.length_append, h.1]
    decide

end LocalMediaTransfer
