import LocalMediaTransfer.Server.Security.NativeSession.System

/-!
# What a call does to a transfer request

Each call touches the record of one request in one of six ways.  The calls are analysed here once;
what holds in runs follows from the effects alone.

* `NativeEntry.opened`, `.approves`, `.ends`, `.uses` — what a call in the history did to a request.
* `TransferEffect` — the six ways; `call_transferEffect` — **there is no other**.
-/

set_option autoImplicit false

namespace LocalMediaTransfer

open Lib

variable {cfg : NativeConfig} {s s' : NativeState}

/-! ## Calls in the history -/

/-- The transfer request that a call opened. -/
def NativeEntry.opened (cfg : NativeConfig) (x : NativeEntry) : Option TransferRequest :=
  match x.op, x.answer with
  | .requestTransfer body credential ip requestId, .result ⟨202, _⟩ =>
      match findTrusted cfg.crypto x.trusted credential,
        acceptFiles body.clientSessionId (body.files.getD []) [] 0 with
      | some device, some files => some (body.toRequest cfg x.time files device ip requestId)
      | _, _ => none
  | _, _ => none

/-- The receiver's user approved the request. -/
def NativeEntry.approves (x : NativeEntry) (requestId : ByteString) : Bool :=
  match x.op with
  | .approveTransfer id => id == requestId && x.answer == .flag true
  | _ => false

/-- The receiver's user denied the request. -/
def NativeEntry.denies (x : NativeEntry) (requestId : ByteString) : Bool :=
  match x.op with
  | .denyTransfer id => id == requestId && x.answer == .flag true
  | _ => false

/-- A token is the token of a request. -/
def TransferRequest.accepts (cfg : NativeConfig) (r : TransferRequest)
    (token transferId : ByteString) : Bool :=
  r.transferId == transferId && constantTimeEqual r.tokenHash (cfg.crypto.sha256Hex token)

/-- The request was cancelled with its token. -/
def NativeEntry.cancels (cfg : NativeConfig) (x : NativeEntry) (r : TransferRequest) : Bool :=
  match x.op with
  | .cancelTransfer transferId token =>
      r.accepts cfg token transferId && x.answer == .result ⟨200, .ok⟩
  | _ => false

/-- The device was revoked, alone or with all others. -/
def NativeEntry.revokes (cfg : NativeConfig) (x : NativeEntry) (deviceId : ByteString) : Bool :=
  match x.op with
  | .revokeDevice id _ => id == deviceId && x.answer == .flag true
  | .revokeCurrentDevice credential _ _ =>
      (findTrusted cfg.crypto x.trusted credential).any (·.id == deviceId) &&
        x.answer == .result ⟨200, .status "unpaired"⟩
  | .revokeAll _ => x.answer == .done
  | _ => false

/-- The request was denied or cancelled, or its device was revoked. -/
def NativeEntry.ends (cfg : NativeConfig) (x : NativeEntry) (r : TransferRequest) : Bool :=
  x.denies r.requestId || x.cancels cfg r || x.revokes cfg r.deviceId

/-- The token of the request was presented and accepted. -/
def NativeEntry.uses (cfg : NativeConfig) (x : NativeEntry) (r : TransferRequest) : Bool :=
  match x.op with
  | .authorizeTransfer token transferId | .authorizeFile token transferId _ _ _ _ =>
      r.accepts cfg token transferId && x.answer == .flag true
  | _ => false

theorem ends_of_uses {x : NativeEntry} {r : TransferRequest} (h : x.uses cfg r = true) :
    x.ends cfg r = false := by
  obtain ⟨_, _, op, _⟩ := x
  cases op with
  | authorizeTransfer | authorizeFile => rfl
  | _ => cases h

theorem approves_of_uses {x : NativeEntry} {r : TransferRequest} (h : x.uses cfg r = true)
    (id : ByteString) : x.approves id = false := by
  obtain ⟨_, _, op, _⟩ := x
  cases op with
  | authorizeTransfer | authorizeFile => rfl
  | _ => cases h

/-! ## What a call does to one record -/

/-- The manifest entry of a file, without the mark of a finished upload. -/
def TransferFile.manifest (file : TransferFile) : ByteString × ByteString × Nat :=
  (file.fileId, file.name, file.sizeBytes)

/-- What a call can make of the record of a request. -/
inductive TransferEffect (cfg : NativeConfig) (id : ByteString) (x : NativeEntry)
    (old : Option TransferRequest) : Option TransferRequest → Prop where
  | gone : TransferEffect cfg id x old none
  | kept (r : TransferRequest) (files : List TransferFile) (record : old = some r)
      (manifest : files.map (·.manifest) = r.files.map (·.manifest))
      (quiet : x.approves r.requestId = false) (going : x.ends cfg r = false) :
      TransferEffect cfg id x old (some { r with files })
  | opened (r : TransferRequest) (request : x.opened cfg = some r) (key : r.requestId = id) :
      TransferEffect cfg id x old (some r)
  | approved (r : TransferRequest) (record : old = some r) (pending : r.state = .pending)
      (inTime : x.time ≤ r.expiresAt) (approves : x.approves r.requestId = true) :
      TransferEffect cfg id x old (some { r with state := .approved, lastActivity := x.time })
  | used (r : TransferRequest) (record : old = some r) (granted : r.state = .approved)
      (uses : x.uses cfg r = true) :
      TransferEffect cfg id x old (some { r with lastActivity := x.time })
  | ended (r : TransferRequest) (state : TransferState) (record : old = some r)
      (terminal : state = .denied ∨ state = .cancelled) (ends : x.ends cfg r = true) :
      TransferEffect cfg id x old (some { r with state })

/-- The records are stored under their own IDs, and no two have one token. -/
structure NativeSessionStore.Keyed (store : NativeSessionStore) : Prop where
  key : ∀ id r, store.transfers.lookup id = some r → r.requestId = id
  token : ∀ i j r q, store.transfers.lookup i = some r → store.transfers.lookup j = some q →
    r.tokenHash = q.tokenHash → i = j

variable {store : NativeSessionStore} {now : Nat} {x : NativeEntry} {id : ByteString}

theorem TransferEffect.same {old : Option TransferRequest}
    (h : ∀ r, old = some r → x.approves r.requestId = false ∧ x.ends cfg r = false) :
    TransferEffect cfg id x old old := by
  cases hold : old with
  | none => exact .gone
  | some r =>
    obtain ⟨hquiet, hgoing⟩ := h r hold
    exact .kept r r.files rfl rfl hquiet hgoing

theorem lookup_pruneLocked (store : NativeSessionStore) (now : Nat) (id : ByteString) :
    (store.pruneLocked now).transfers.lookup id =
      (store.transfers.lookup id).filter fun r => !r.prunable now :=
  Table.lookup_filter ..

theorem lookup_of_pruneLocked {id : ByteString} {r : TransferRequest}
    (h : (store.pruneLocked now).transfers.lookup id = some r) :
    store.transfers.lookup id = some r ∧ r.prunable now = false := by
  rw [lookup_pruneLocked, Option.filter_eq_some_iff] at h
  exact ⟨h.1, by simpa using h.2⟩

/-- A call that does nothing but pruning. -/
theorem TransferEffect.pruned
    (h : ∀ r, store.transfers.lookup id = some r →
      x.approves r.requestId = false ∧ x.ends cfg r = false) :
    TransferEffect cfg id x (store.transfers.lookup id)
      ((store.pruneLocked now).transfers.lookup id) := by
  cases hnew : (store.pruneLocked now).transfers.lookup id with
  | none => exact .gone
  | some r =>
    obtain ⟨hold, -⟩ := lookup_of_pruneLocked hnew
    obtain ⟨hquiet, hgoing⟩ := h r hold
    exact .kept r r.files hold rfl hquiet hgoing

theorem mem_of_find? {table : Table ByteString TransferRequest}
    {p : (Sigma fun _ : ByteString => TransferRequest) → Bool}
    {e : Sigma fun _ : ByteString => TransferRequest} (h : table.entries.find? p = some e) :
    table.lookup e.1 = some e.2 ∧ p e = true :=
  ⟨Table.lookup_eq_some_iff.mpr (List.mem_of_find?_eq_some h), List.find?_some h⟩

theorem findGrant_spec {token transferId id : ByteString} {r : TransferRequest}
    (h : store.findGrant cfg token transferId = some (id, r)) :
    store.transfers.lookup id = some r ∧ r.state = .approved ∧
      r.accepts cfg token transferId = true := by
  obtain ⟨e, he, heq⟩ := Option.map_eq_some_iff.mp h
  cases heq
  obtain ⟨hlookup, hp⟩ := mem_of_find? he
  simp only [Bool.and_eq_true, beq_iff_eq] at hp
  refine ⟨hlookup, hp.1.2, ?_⟩
  simp [TransferRequest.accepts, hp.1.1, hp.2]

theorem lookup_updateTransfer (store : NativeSessionStore) (key : ByteString)
    (item : TransferRequest) (id : ByteString) :
    (store.updateTransfer key item).transfers.lookup id =
      if id = key then (store.transfers.lookup id).map fun _ =>
        item else store.transfers.lookup id :=
  Table.lookup_update ..

/-- Calls that only concern pairing leave the transfers alone or prune them. -/
def Prunes (store : NativeSessionStore) (now : Nat) (after : NativeSessionStore) : Prop :=
  after.transfers = store.transfers ∨ after.transfers = (store.pruneLocked now).transfers

theorem prunes_requestPairing {body : PairingBody} {ip requestId : ByteString} :
    Prunes store now (store.requestPairing cfg now body ip requestId).1 := by
  unfold NativeSessionStore.requestPairing
  simp only
  split
  · exact .inl rfl
  · split
    · exact .inl rfl
    · repeat' split
      all_goals exact .inr rfl

theorem prunes_confirmPairing {requestId proof : ByteString} {env : StoreEnv} :
    Prunes store now (store.confirmPairing now requestId proof env).1 := by
  unfold NativeSessionStore.confirmPairing
  simp only
  repeat' split
  all_goals exact .inr rfl

theorem prunes_pairingStatus {requestId clientId credential : ByteString} :
    Prunes store now (store.pairingStatus cfg now requestId clientId credential).1 := by
  unfold NativeSessionStore.pairingStatus
  simp only
  repeat' split
  all_goals exact .inr rfl

theorem prunes_approvePairing {requestId : ByteString} {env : StoreEnv} :
    Prunes store now (store.approvePairing now requestId env).1 := by
  unfold NativeSessionStore.approvePairing
  simp only
  repeat' split
  all_goals exact .inr rfl

theorem prunes_denyPairing {requestId : ByteString} :
    Prunes store now (store.denyPairing now requestId).1 := by
  unfold NativeSessionStore.denyPairing
  simp only
  repeat' split
  all_goals exact .inr rfl

theorem prunes_transferStatus {requestId credential : ByteString} :
    Prunes store now (store.transferStatus cfg now requestId credential).1 := by
  unfold NativeSessionStore.transferStatus
  split
  · exact .inl rfl
  · simp only
    repeat' split
    all_goals exact .inr rfl

theorem Prunes.effect {after : NativeSessionStore} (h : Prunes store now after)
    (hx : ∀ r, x.approves r = false) (hends : ∀ r, x.ends cfg r = false) :
    TransferEffect cfg id x (store.transfers.lookup id) (after.transfers.lookup id) := by
  rcases h with h | h <;> rw [h]
  · exact .same fun r _ => ⟨hx _, hends _⟩
  · exact .pruned fun r _ => ⟨hx _, hends _⟩

theorem revokeDevice_cases (store : NativeSessionStore) (deviceId : ByteString) (env : StoreEnv) :
    (store.revokeDevice deviceId env).2 = .ok true ∧
      (store.revokeDevice deviceId env).1.transfers =
        (store.revokeDeviceLocked deviceId).transfers ∨
    (store.revokeDevice deviceId env).2 ≠ .ok true ∧
      (store.revokeDevice deviceId env).1.transfers = store.transfers := by
  unfold NativeSessionStore.revokeDevice
  simp only
  split
  · exact .inr ⟨by simp, rfl⟩
  · exact .inr ⟨by simp, rfl⟩
  · exact .inl ⟨rfl, rfl⟩

/-- A revoked device loses its transfers. -/
theorem revokeDeviceLocked_effect {deviceId : ByteString}
    (hx : ∀ r, x.approves r = false)
    (hends : ∀ r, x.ends cfg r = (r.deviceId == deviceId)) :
    TransferEffect cfg id x (store.transfers.lookup id)
      ((store.revokeDeviceLocked deviceId).transfers.lookup id) := by
  have hlookup : (store.revokeDeviceLocked deviceId).transfers.lookup id =
      (store.transfers.lookup id).map fun item =>
        if item.deviceId == deviceId then { item with state := .cancelled } else item :=
    Table.lookup_mapVal ..
  rw [hlookup]
  cases hold : store.transfers.lookup id with
  | none => exact .gone
  | some r =>
    rw [Option.map_some]
    split
    · rename_i hd
      exact .ended r .cancelled rfl (.inr rfl) ((hends r).trans hd)
    · rename_i hd
      exact .kept r r.files rfl rfl (hx _) ((hends r).trans (by simpa using hd))

theorem requestTransfer_cases (cfg : NativeConfig) (store : NativeSessionStore) (now : Nat)
    (body : TransferBody) (credential ip requestId : ByteString) :
    Prunes store now (store.requestTransfer cfg now body credential ip requestId).1 ∧
      (store.requestTransfer cfg now body credential ip requestId).2.status ≠ 202 ∨
    ∃ device files, findTrusted cfg.crypto store.pairingStore.trusted credential = some device ∧
      NativeSessionStore.nativeDevice device = true ∧
      acceptFiles body.clientSessionId (body.files.getD []) [] 0 = some files ∧
      (store.requestTransfer cfg now body credential ip requestId).2 =
        ⟨202, .transferRequested requestId (body.clientSessionId.drop 4)⟩ ∧
      (store.requestTransfer cfg now body credential ip requestId).1.transfers =
        (NativeSessionStore.retireTransfers (store.pruneLocked now).transfers).emplace requestId
          (body.toRequest cfg now files device ip requestId) := by
  unfold NativeSessionStore.requestTransfer
  split
  · exact .inl ⟨.inl rfl, by simp [nativeError]⟩
  · simp only
    split
    · exact .inl ⟨.inl rfl, by simp [nativeError]⟩
    · rename_i device hdevice
      split
      · exact .inl ⟨.inl rfl, by simp [nativeError]⟩
      · rename_i hnative
        split
        · exact .inl ⟨.inl rfl, by simp [nativeError]⟩
        · split
          · exact .inl ⟨.inl rfl, by simp [nativeError]⟩
          · rename_i files hfiles
            split
            · exact .inl ⟨.inr rfl, by simp [nativeError]⟩
            · exact .inr ⟨device, files, hdevice, by simpa using hnative, hfiles, rfl, rfl⟩

theorem lookup_eraseOldest {ν : Type} {p : ν → Bool} {key : ν → Nat} {table : Table ByteString ν}
    {id : ByteString} :
    (eraseOldest p key table).lookup id = table.lookup id ∨
      (eraseOldest p key table).lookup id = none := by
  unfold eraseOldest
  split
  · exact .inl rfl
  · rename_i victim _
    by_cases h : id = victim
    · subst h
      exact .inr (AList.lookup_erase _ _)
    · exact .inl (AList.lookup_erase_ne h)

theorem lookup_retireTransfers (table : Table ByteString TransferRequest) (id : ByteString) :
    (NativeSessionStore.retireTransfers table).lookup id = table.lookup id ∨
      (NativeSessionStore.retireTransfers table).lookup id = none := by
  unfold NativeSessionStore.retireTransfers
  split
  · exact lookup_eraseOldest
  · exact .inl rfl

/-- A change of the record with a given key. -/
theorem updateTransfer_effect {key : ByteString} {item : TransferRequest}
    (hkeep : ∀ r, id ≠ key → store.transfers.lookup id = some r →
      x.approves r.requestId = false ∧ x.ends cfg r = false)
    (hitem : ∀ r, store.transfers.lookup key = some r →
      TransferEffect cfg key x (some r) (some item)) :
    TransferEffect cfg id x (store.transfers.lookup id)
      ((store.updateTransfer key item).transfers.lookup id) := by
  rw [lookup_updateTransfer]
  split
  · rename_i heq
    subst heq
    cases hold : store.transfers.lookup id with
    | none => exact .gone
    | some r => exact hitem r hold
  · rename_i hne
    exact .same fun r hr => hkeep r hne hr

/-- The same after pruning. -/
theorem TransferEffect.of_pruned {new : Option TransferRequest}
    (h : TransferEffect cfg id x ((store.pruneLocked now).transfers.lookup id) new) :
    TransferEffect cfg id x (store.transfers.lookup id) new := by
  cases h with
  | gone => exact .gone
  | kept r files record manifest quiet going =>
    exact .kept r files (lookup_of_pruneLocked record).1 manifest quiet going
  | opened r request key => exact .opened r request key
  | approved r record pending inTime approves =>
    exact .approved r (lookup_of_pruneLocked record).1 pending inTime approves
  | used r record granted uses => exact .used r (lookup_of_pruneLocked record).1 granted uses
  | ended r state record terminal ends =>
    exact .ended r state (lookup_of_pruneLocked record).1 terminal ends

theorem requestTransfer_effect {body : TransferBody} {credential ip requestId : ByteString}
    (hnew : s.store.transfers.lookup requestId = none) :
    TransferEffect cfg id (s.entry cfg (.requestTransfer body credential ip requestId))
      (s.store.transfers.lookup id)
      ((s.store.requestTransfer cfg s.clock body credential ip requestId).1.transfers.lookup
        id) := by
  rcases requestTransfer_cases cfg s.store s.clock body credential ip requestId with
    ⟨hprunes, -⟩ | ⟨device, files, hdevice, -, hfiles, hresult, htable⟩
  · exact hprunes.effect (fun _ => rfl) fun _ => rfl
  · have hopened : (s.entry cfg (.requestTransfer body credential ip requestId)).opened cfg =
        some (body.toRequest cfg s.clock files device ip requestId) := by
      have hanswer : (s.entry cfg (.requestTransfer body credential ip requestId)).answer =
          .result (s.store.requestTransfer cfg s.clock body credential ip requestId).2 := rfl
      rw [hresult] at hanswer
      simp only [NativeEntry.opened, hanswer]
      simp only [NativeState.entry, hdevice, hfiles]
    rw [htable, Table.lookup_emplace]
    split
    · rename_i heq
      subst heq
      have hnone : (NativeSessionStore.retireTransfers
          (s.store.pruneLocked s.clock).transfers).lookup id = none := by
        rcases lookup_retireTransfers (s.store.pruneLocked s.clock).transfers id with h | h
        · rw [h, lookup_pruneLocked, hnew]
          rfl
        · exact h
      rw [hnone]
      exact .opened _ hopened rfl
    · rcases lookup_retireTransfers (s.store.pruneLocked s.clock).transfers id with h | h
      · rw [h]
        exact .pruned fun _ _ => ⟨rfl, rfl⟩
      · rw [h]
        exact .gone

theorem approveTransfer_effect {requestId : ByteString} (hkeyed : s.store.Keyed) :
    TransferEffect cfg id (s.entry cfg (.approveTransfer requestId)) (s.store.transfers.lookup id)
      ((s.store.approveTransfer s.clock requestId).1.transfers.lookup id) := by
  have hanswer : (s.entry cfg (.approveTransfer requestId)).answer =
      .flag (s.store.approveTransfer s.clock requestId).2 := rfl
  have happroves : ∀ q, (s.entry cfg (.approveTransfer requestId)).approves q =
      (requestId == q && (s.store.approveTransfer s.clock requestId).2) := by
    intro q
    simp only [NativeEntry.approves, hanswer]
    cases (s.store.approveTransfer s.clock requestId).2 <;> rfl
  unfold NativeSessionStore.approveTransfer at happroves ⊢
  simp only at happroves ⊢
  split
  · rename_i hnone
    simp only [hnone, Bool.and_false] at happroves
    exact .pruned fun _ _ => ⟨happroves _, rfl⟩
  · rename_i item hitem
    simp only [hitem] at happroves
    split
    · rename_i hpending
      simp only [hpending, if_true, Bool.and_true] at happroves
      refine .of_pruned (updateTransfer_effect ?_ ?_)
      · intro r hne hr
        refine ⟨?_, rfl⟩
        rw [happroves, hkeyed.key id r (lookup_of_pruneLocked hr).1]
        simpa using fun h => hne h.symm
      · intro r hr
        obtain rfl := Option.some.inj (hitem.symm.trans hr)
        obtain ⟨hold, hlive⟩ := lookup_of_pruneLocked hr
        refine .approved item rfl hpending ?_ ?_
        · simp only [TransferRequest.prunable, hpending, decide_eq_false_iff_not, not_lt] at hlive
          exact hlive
        · rw [happroves, hkeyed.key requestId item hold]
          simp
    · rename_i hpending
      simp only [hpending, if_false, Bool.and_false] at happroves
      exact .pruned fun _ _ => ⟨happroves _, rfl⟩

theorem denyTransfer_effect {requestId : ByteString} (hkeyed : s.store.Keyed) :
    TransferEffect cfg id (s.entry cfg (.denyTransfer requestId)) (s.store.transfers.lookup id)
      ((s.store.denyTransfer requestId).1.transfers.lookup id) := by
  have hanswer : (s.entry cfg (.denyTransfer requestId)).answer =
      .flag (s.store.denyTransfer requestId).2 := rfl
  have hends : ∀ r, (s.entry cfg (.denyTransfer requestId)).ends cfg r =
      (requestId == r.requestId && (s.store.denyTransfer requestId).2) := by
    intro r
    simp only [NativeEntry.ends, NativeEntry.denies, NativeEntry.cancels,
      NativeEntry.revokes, hanswer]
    simp only [NativeState.entry, Bool.or_false]
    cases (s.store.denyTransfer requestId).2 <;> rfl
  unfold NativeSessionStore.denyTransfer at hends ⊢
  split
  · rename_i hnone
    simp only [hnone, Bool.and_false] at hends
    exact .same fun r _ => ⟨rfl, hends r⟩
  · rename_i item hitem
    simp only [hitem, Bool.and_true] at hends
    refine updateTransfer_effect ?_ ?_
    · intro r hne hr
      refine ⟨rfl, ?_⟩
      rw [hends, hkeyed.key id r hr]
      simpa using fun h => hne h.symm
    · intro r hr
      obtain rfl := Option.some.inj (hitem.symm.trans hr)
      refine .ended item .denied rfl (.inl rfl) ?_
      rw [hends, hkeyed.key requestId item hr]
      simp

theorem cancelTransfer_effect {transferId token : ByteString} (hkeyed : s.store.Keyed) :
    TransferEffect cfg id (s.entry cfg (.cancelTransfer transferId token))
      (s.store.transfers.lookup id)
      ((s.store.cancelTransfer cfg transferId token).1.transfers.lookup id) := by
  have hanswer : (s.entry cfg (.cancelTransfer transferId token)).answer =
      .result (s.store.cancelTransfer cfg transferId token).2 := rfl
  have hends : ∀ r, (s.entry cfg (.cancelTransfer transferId token)).ends cfg r =
      (r.accepts cfg token transferId &&
        NativeAnswer.result (s.store.cancelTransfer cfg transferId token).2 == .result
          ⟨200, .ok⟩) := by
    intro r
    simp only [NativeEntry.ends, NativeEntry.denies, NativeEntry.cancels,
      NativeEntry.revokes, hanswer]
    simp only [NativeState.entry, Bool.or_false, Bool.false_or]
  unfold NativeSessionStore.cancelTransfer at hends ⊢
  split
  · rename_i hnone
    simp only [hnone] at hends
    refine .same fun r _ => ⟨rfl, (hends r).trans ?_⟩
    rw [show (NativeAnswer.result (nativeError 401 "transfer_grant_rejected"
      "The transfer grant was rejected.") == .result ⟨200, .ok⟩) = false by decide, Bool.and_false]
  · rename_i e he
    simp only [he, BEq.rfl, Bool.and_true] at hends
    obtain ⟨hlookup, hp⟩ := mem_of_find? he
    simp only [Bool.and_eq_true] at hp
    refine updateTransfer_effect ?_ ?_
    · intro r hne hr
      refine ⟨rfl, (hends r).trans (Bool.eq_false_iff.mpr fun haccepts => hne ?_)⟩
      -- two records that accept one token are the same
      simp only [TransferRequest.accepts, Bool.and_eq_true] at haccepts
      have hhash : r.tokenHash = e.2.tokenHash := by
        simp only [constantTimeEqual, Bool.and_eq_true, beq_iff_eq] at haccepts hp
        rw [haccepts.2.2, hp.2.2]
      exact hkeyed.token id e.1 r e.2 hr hlookup hhash
    · intro r hr
      obtain rfl := Option.some.inj (hlookup.symm.trans hr)
      exact .ended e.2 .cancelled rfl (.inr rfl) ((hends _).trans (by
        simp only [TransferRequest.accepts, hp.1, hp.2, Bool.and_self]))

theorem use_effect {token transferId key : ByteString} {r : TransferRequest}
    (hgrant : (store.pruneLocked x.time).findGrant cfg token transferId = some (key, r))
    (hquiet : ∀ q, x.approves q = false) (hgoing : ∀ q, x.ends cfg q = false)
    (huses : x.uses cfg r = true) :
    TransferEffect cfg id x (store.transfers.lookup id)
      (((store.pruneLocked x.time).updateTransfer key
        { r with lastActivity := x.time }).transfers.lookup id) := by
  obtain ⟨hlookup, hstate, -⟩ := findGrant_spec hgrant
  refine .of_pruned (updateTransfer_effect (fun q _ _ => ⟨hquiet _, hgoing q⟩) ?_)
  intro q hq
  obtain rfl := Option.some.inj (hlookup.symm.trans hq)
  exact .used r rfl hstate huses

theorem authorizeTransfer_effect {token transferId : ByteString} :
    TransferEffect cfg id (s.entry cfg (.authorizeTransfer token transferId))
      (s.store.transfers.lookup id)
      ((s.store.authorizeTransfer cfg s.clock token transferId).1.transfers.lookup id) := by
  have hanswer : (s.entry cfg (.authorizeTransfer token transferId)).answer =
      .flag (s.store.authorizeTransfer cfg s.clock token transferId).2 := rfl
  unfold NativeSessionStore.authorizeTransfer at hanswer ⊢
  simp only at hanswer ⊢
  split
  · exact .same fun _ _ => ⟨rfl, rfl⟩
  · rename_i hform
    simp only [hform, if_false, Bool.false_eq_true] at hanswer
    split
    · exact .pruned fun _ _ => ⟨rfl, rfl⟩
    · rename_i key r hgrant
      simp only [hgrant] at hanswer
      refine use_effect (x := s.entry cfg (.authorizeTransfer token transferId)) hgrant
        (fun _ => rfl) (fun _ => rfl) ?_
      simp only [NativeEntry.uses, hanswer]
      simp only [NativeState.entry, (findGrant_spec hgrant).2.2, BEq.rfl, Bool.and_self]

theorem authorizeFile_effect {token transferId fileId name : ByteString} {sizeBytes : Nat}
    {skip : Bool} :
    TransferEffect cfg id (s.entry cfg (.authorizeFile token transferId fileId name sizeBytes skip))
      (s.store.transfers.lookup id)
      ((s.store.authorizeFile cfg s.clock token transferId fileId name sizeBytes
        skip).1.transfers.lookup id) := by
  have hanswer : (s.entry cfg (.authorizeFile token transferId fileId name sizeBytes skip)).answer =
      .flag (s.store.authorizeFile cfg s.clock token transferId fileId name sizeBytes skip).2 := rfl
  unfold NativeSessionStore.authorizeFile at hanswer ⊢
  simp only at hanswer ⊢
  split
  · exact .pruned fun _ _ => ⟨rfl, rfl⟩
  · rename_i key r hgrant
    split
    · exact .pruned fun _ _ => ⟨rfl, rfl⟩
    · rename_i hskip
      split
      · rename_i hfile
        simp only [hgrant, hskip, hfile, if_true, if_false, Bool.false_eq_true] at hanswer
        refine use_effect (x := s.entry cfg (.authorizeFile token transferId fileId name sizeBytes
          skip)) hgrant (fun _ => rfl) (fun _ => rfl) ?_
        simp only [NativeEntry.uses, hanswer]
        simp only [NativeState.entry, (findGrant_spec hgrant).2.2, BEq.rfl, Bool.and_self]
      · exact .pruned fun _ _ => ⟨rfl, rfl⟩

theorem manifest_modify (files : List TransferFile) (index : Nat) :
    (files.modify index fun file => { file with terminal := true }).map (·.manifest) =
      files.map (·.manifest) := by
  refine List.ext_getElem? fun k => ?_
  rw [List.getElem?_map, List.getElem?_map, List.getElem?_modify]
  cases files[k]? with
  | none => rfl
  | some file =>
    simp only [Option.map_some]
    split <;> rfl

theorem markFileTerminal_effect {transferId fileId : ByteString} :
    TransferEffect cfg id (s.entry cfg (.markFileTerminal transferId fileId))
      (s.store.transfers.lookup id)
      ((s.store.markFileTerminal transferId fileId).transfers.lookup id) := by
  unfold NativeSessionStore.markFileTerminal
  split
  · exact .same fun _ _ => ⟨rfl, rfl⟩
  · rename_i e he
    split
    · exact .same fun _ _ => ⟨rfl, rfl⟩
    · rename_i index _
      refine updateTransfer_effect (fun _ _ _ => ⟨rfl, rfl⟩) fun r hr => ?_
      obtain rfl := Option.some.inj ((mem_of_find? he).1.symm.trans hr)
      exact .kept e.2 _ rfl (manifest_modify ..) rfl rfl

theorem revokeDevice_effect {deviceId : ByteString} {env : StoreEnv} :
    TransferEffect cfg id (s.entry cfg (.revokeDevice deviceId env)) (s.store.transfers.lookup id)
      ((s.store.revokeDevice deviceId env).1.transfers.lookup id) := by
  have hanswer : (s.entry cfg (.revokeDevice deviceId env)).answer =
      .ofExcept .flag (s.store.revokeDevice deviceId env).2 := rfl
  have hends : ∀ r, (s.entry cfg (.revokeDevice deviceId env)).ends cfg r =
      (deviceId == r.deviceId &&
        NativeAnswer.ofExcept .flag (s.store.revokeDevice deviceId env).2 == .flag true) := by
    intro r
    simp only [NativeEntry.ends, NativeEntry.denies, NativeEntry.cancels,
      NativeEntry.revokes, hanswer]
    simp only [NativeState.entry, Bool.false_or]
  rcases revokeDevice_cases s.store deviceId env with ⟨hok, htable⟩ | ⟨hok, htable⟩ <;> rw [htable]
  · refine revokeDeviceLocked_effect (fun _ => rfl) fun r => ?_
    rw [hends, hok]
    simp only [NativeAnswer.ofExcept, BEq.rfl, Bool.and_true]
    exact BEq.comm
  · refine .same fun r _ => ⟨rfl, ?_⟩
    rw [hends]
    cases hresult : (s.store.revokeDevice deviceId env).2 with
    | error what => simp [NativeAnswer.ofExcept]
    | ok flag =>
      cases flag with
      | false => simp [NativeAnswer.ofExcept]
      | true => exact absurd hresult hok

theorem revokeCurrentDevice_effect {credential ip : ByteString} {env : StoreEnv} :
    TransferEffect cfg id (s.entry cfg (.revokeCurrentDevice credential ip env))
      (s.store.transfers.lookup id)
      ((s.store.revokeCurrentDevice cfg credential ip env).1.transfers.lookup id) := by
  have hanswer : (s.entry cfg (.revokeCurrentDevice credential ip env)).answer =
      .ofExcept .result (s.store.revokeCurrentDevice cfg credential ip env).2 := rfl
  have hends : ∀ r, (s.entry cfg (.revokeCurrentDevice credential ip env)).ends cfg r =
      ((findTrusted cfg.crypto s.store.pairingStore.trusted credential).any (·.id == r.deviceId) &&
        NativeAnswer.ofExcept .result (s.store.revokeCurrentDevice cfg credential ip env).2 ==
          .result ⟨200, .status "unpaired"⟩) := by
    intro r
    simp only [NativeEntry.ends, NativeEntry.denies, NativeEntry.cancels,
      NativeEntry.revokes, hanswer]
    simp only [NativeState.entry, Bool.false_or]
  have hkeep : ∀ {result}, (s.store.revokeCurrentDevice cfg credential ip env).2 = result →
      (NativeAnswer.ofExcept .result result == .result ⟨200, .status "unpaired"⟩) = false →
      TransferEffect cfg id (s.entry cfg (.revokeCurrentDevice credential ip env))
        (s.store.transfers.lookup id) (s.store.transfers.lookup id) := by
    intro result hresult hne
    refine .same fun r _ => ⟨rfl, ?_⟩
    rw [hends, hresult, hne, Bool.and_false]
  unfold NativeSessionStore.revokeCurrentDevice at hends hkeep ⊢
  split
  · rename_i hip
    simp only [hip, if_true] at hkeep
    exact hkeep rfl (by decide)
  · rename_i hip
    simp only [hip, if_false, Bool.false_eq_true] at hkeep hends
    simp only
    split
    · rename_i hnone
      simp only [hnone] at hkeep
      exact hkeep rfl (by decide)
    · rename_i device hdevice
      simp only [hdevice] at hkeep hends
      split
      · rename_i hnative
        simp only [hnative, if_true] at hkeep
        exact hkeep rfl (by decide)
      · rename_i hnative
        simp only [hnative, if_false, Bool.false_eq_true] at hkeep hends
        rcases revokeDevice_cases s.store device.id env with ⟨hok, htable⟩ | ⟨hok, htable⟩
        · simp only [hok] at hends ⊢
          rw [htable]
          refine revokeDeviceLocked_effect (fun _ => rfl) fun r => ?_
          rw [hends, show findTrusted cfg.crypto s.store.pairingStore.trusted credential =
            some device from hdevice]
          simp only [Option.any_some, NativeAnswer.ofExcept, BEq.rfl, Bool.and_true]
          exact BEq.comm
        · cases hresult : (s.store.revokeDevice device.id env).2 with
          | error what =>
            simp only [hresult] at hkeep
            simp only
            rw [htable]
            exact hkeep rfl rfl
          | ok flag =>
            cases flag with
            | false =>
              simp only [hresult] at hkeep
              simp only
              rw [htable]
              exact hkeep rfl (by decide)
            | true => exact absurd hresult hok

theorem revokeAll_effect {env : StoreEnv} :
    TransferEffect cfg id (s.entry cfg (.revokeAll env)) (s.store.transfers.lookup id)
      ((s.store.revokeAll env).1.transfers.lookup id) := by
  have hanswer : (s.entry cfg (.revokeAll env)).answer =
      .ofExcept (fun _ => .done) (s.store.revokeAll env).2 := rfl
  unfold NativeSessionStore.revokeAll at hanswer ⊢
  simp only at hanswer ⊢
  split
  · rename_i what hwhat
    simp only [hwhat] at hanswer
    refine .same fun r _ => ⟨rfl, ?_⟩
    simp only [NativeEntry.ends, NativeEntry.denies, NativeEntry.cancels,
      NativeEntry.revokes, hanswer]
    rfl
  · rw [AList.lookup_empty]
    exact .gone

/-- **Everything a call can do to one record.** -/
theorem call_transferEffect (hkeyed : s.store.Keyed) {op : NativeOp}
    (hnew : ∀ requestId, op.drawn = some requestId → s.store.transfers.lookup requestId = none)
    (id : ByteString) :
    TransferEffect cfg id (s.entry cfg op) (s.store.transfers.lookup id)
      ((s.store.call cfg s.clock op).1.transfers.lookup id) := by
  cases op with
  | beginPairingWindow | endPairingWindow => exact .same fun _ _ => ⟨rfl, rfl⟩
  | requestPairing => exact prunes_requestPairing.effect (fun _ => rfl) fun _ => rfl
  | confirmPairing => exact prunes_confirmPairing.effect (fun _ => rfl) fun _ => rfl
  | pairingStatus => exact prunes_pairingStatus.effect (fun _ => rfl) fun _ => rfl
  | approvePairing => exact prunes_approvePairing.effect (fun _ => rfl) fun _ => rfl
  | denyPairing => exact prunes_denyPairing.effect (fun _ => rfl) fun _ => rfl
  | transferStatus => exact prunes_transferStatus.effect (fun _ => rfl) fun _ => rfl
  | requestTransfer body credential ip requestId =>
    exact requestTransfer_effect (hnew requestId rfl)
  | approveTransfer => exact approveTransfer_effect hkeyed
  | denyTransfer => exact denyTransfer_effect hkeyed
  | cancelTransfer => exact cancelTransfer_effect hkeyed
  | authorizeTransfer => exact authorizeTransfer_effect
  | authorizeFile => exact authorizeFile_effect
  | markFileTerminal => exact markFileTerminal_effect
  | revokeDevice => exact revokeDevice_effect
  | revokeCurrentDevice => exact revokeCurrentDevice_effect
  | revokeAll => exact revokeAll_effect

end LocalMediaTransfer
