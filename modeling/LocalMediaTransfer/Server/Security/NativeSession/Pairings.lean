import LocalMediaTransfer.Server.Security.NativeSession.Transfers

/-!
# What a call does to a pairing request

The five states of a pairing request move with what the two parties say.  `PairState.next` is the
state machine that the protocol describes; `call_pairingEffect` says that the store follows it for
every record that has not expired, and that a record only disappears once it is decided.

* `NativeEntry.opensPairing`, `.confirmsPairing`, `.approvesPairing`, `.endsPairing` — what a call
  says about a request.
* `PairingEffect`, `call_pairingEffect` — everything a call can do to one record.
* `completed_saved`, `completed_unsaved`, `call_trusted` — everything a call can do to the trusted
  devices.
-/

set_option autoImplicit false

namespace LocalMediaTransfer

open Lib

variable {cfg : NativeConfig} {s : NativeState} {store : NativeSessionStore} {now : Nat}
variable {x : NativeEntry} {id : ByteString} {q : PairingRequest}

/-! ## Calls in the history -/

/-- The pairing request that a call opened. -/
def NativeEntry.opensPairing (cfg : NativeConfig) (x : NativeEntry) : Option PairingRequest :=
  match x.op, x.answer with
  | .requestPairing body ip requestId, .result ⟨202, _⟩ =>
      some (body.toRequest cfg x.time ip requestId)
  | _, _ => none

/-- The sender confirmed with the correct proof. -/
def NativeEntry.confirmsPairing (x : NativeEntry) (q : PairingRequest) : Bool :=
  match x.op with
  | .confirmPairing id proof _ => id == q.requestId && constantTimeEqual proof q.expectedProof
  | _ => false

/-- Somebody confirmed with a wrong proof. -/
def NativeEntry.misproves (x : NativeEntry) (q : PairingRequest) : Bool :=
  match x.op with
  | .confirmPairing id proof _ => id == q.requestId && !constantTimeEqual proof q.expectedProof
  | _ => false

/-- The receiver's user approved. -/
def NativeEntry.approvesPairing (x : NativeEntry) (q : PairingRequest) : Bool :=
  match x.op with
  | .approvePairing id _ => id == q.requestId
  | _ => false

/-- The receiver's user denied. -/
def NativeEntry.deniesPairing (x : NativeEntry) (q : PairingRequest) : Bool :=
  match x.op with
  | .denyPairing id => id == q.requestId
  | _ => false

/-- The request was denied or misproved, or its device was revoked. -/
def NativeEntry.endsPairing (cfg : NativeConfig) (x : NativeEntry) (q : PairingRequest) : Bool :=
  x.misproves q || x.deniesPairing q || x.revokes cfg q.deviceId

/-- A save would work during the call. -/
def NativeOp.saves : NativeOp → Bool
  | .confirmPairing _ _ env | .approvePairing _ env => env.saved
  | _ => false

/-- **The state machine of a pairing request.** -/
def PairState.next (cfg : NativeConfig) (q : PairingRequest) (x : NativeEntry) (state : PairState) :
    PairState :=
  if !state.isActive then state
  else if x.endsPairing cfg q then .denied
  else
    match state with
    | .pending =>
        if x.confirmsPairing q then .senderConfirmed
        else if x.approvesPairing q then .receiverConfirmed
        else .pending
    | .senderConfirmed => if x.approvesPairing q && x.op.saves then .approved else .senderConfirmed
    | .receiverConfirmed =>
        if x.confirmsPairing q && x.op.saves then .approved else .receiverConfirmed
    | state => state

/-- A call that says nothing about the request. -/
structure NativeEntry.Silent (cfg : NativeConfig) (x : NativeEntry)
    (q : PairingRequest) : Prop where
  ends : x.endsPairing cfg q = false
  confirms : x.confirmsPairing q = false
  approves : x.approvesPairing q = false

theorem NativeEntry.Silent.next (h : x.Silent cfg q) (state : PairState) :
    state.next cfg q x = state := by
  unfold PairState.next
  rw [h.ends, h.confirms, h.approves]
  cases state <;> rfl

theorem PairState.next_of_decided {state : PairState} (h : state.isActive = false) :
    state.next cfg q x = state := by
  unfold PairState.next
  rw [h]
  rfl

theorem PairState.next_of_ends {state : PairState} (h : state.isActive = true)
    (hends : x.endsPairing cfg q = true) : state.next cfg q x = .denied := by
  unfold PairState.next
  rw [h, hends]
  rfl

/-! ## Saving a trusted device -/

/-- The limits that `trustCredentialHash` checks once more. -/
structure PairingRequest.Valid (q : PairingRequest) : Prop where
  id_pos : q.deviceId.isEmpty = false
  id_le : q.deviceId.length ≤ 128
  name_le : q.deviceName.length ≤ 128
  hash : q.credentialHash.length = 64

/-- The device that a pairing request makes trusted. -/
def PairingRequest.device (q : PairingRequest) (env : StoreEnv) : TrustedDevice :=
  ⟨q.deviceId, q.deviceName, q.credentialHash, q.ip, env.unixNow, ascii "windows",
    ascii "approval_required"⟩

/-- The trusted devices once a device is added. -/
def addDevice (trusted : List TrustedDevice) (device : TrustedDevice) : List TrustedDevice :=
  trusted.filter (fun value => value.id != device.id) ++ [device]

theorem trust_eq (h : q.Valid) (env : StoreEnv) :
    store.trust q env =
      if env.saved then
        ({ store.pairingStore with
            trusted := addDevice store.pairingStore.trusted (q.device env)
            disk := addDevice store.pairingStore.trusted (q.device env) }, true)
      else (store.pairingStore, false) := by
  have hcheck : (q.deviceId.isEmpty || decide (128 < q.deviceId.length) ||
      decide (128 < q.deviceName.length) || q.credentialHash.length != 64 ||
      ascii "windows" != ascii "windows" ||
        ascii "approval_required" != ascii "approval_required") =
        false := by
    have hid := h.id_le
    have hname := h.name_le
    simp [h.id_pos, h.hash]
    omega
  unfold NativeSessionStore.trust PairingStore.trustCredentialHash
  rw [if_neg (by rw [hcheck]; exact Bool.false_ne_true)]
  unfold PairingStore.saveLocked
  cases env.saved <;> rfl

/-! ## What a call does to one record -/

/-- What a call can make of the record of a pairing request. -/
inductive PairingEffect (cfg : NativeConfig) (id : ByteString) (x : NativeEntry)
    (old : Option PairingRequest) : Option PairingRequest → Prop where
  | gone (decided : ∀ r, old = some r → x.time < r.expiresAt →
      (r.state.next cfg r x).isActive = false) : PairingEffect cfg id x old none
  | moved (r : PairingRequest) (record : old = some r)
      (live : r.state.next cfg r x ≠ r.state → x.time < r.expiresAt) :
      PairingEffect cfg id x old (some { r with state := r.state.next cfg r x })
  | opened (r : PairingRequest) (request : x.opensPairing cfg = some r) (key : r.requestId = id) :
      PairingEffect cfg id x old (some r)

theorem PairingEffect.same {old : Option PairingRequest}
    (h : ∀ r, old = some r → r.state.next cfg r x = r.state) : PairingEffect cfg id x old old := by
  cases hold : old with
  | none =>
    apply PairingEffect.gone
    intro r hr
    cases hr
  | some r =>
    have hmoved : PairingEffect cfg id x (some r) (some { r with state := r.state.next cfg r x }) :=
      .moved r rfl fun hne => absurd (h r hold) hne
    rw [h r hold] at hmoved
    exact hmoved

theorem lookup_pruned_pairing (store : NativeSessionStore) (now : Nat) (id : ByteString) :
    (store.pruneLocked now).pairings.lookup id =
      (store.pairings.lookup id).filter fun r => !(r.expiresAt ≤ now) :=
  Table.lookup_filter ..

theorem lookup_of_pruned_pairing {r : PairingRequest}
    (h : (store.pruneLocked now).pairings.lookup id = some r) :
    store.pairings.lookup id = some r ∧ now < r.expiresAt := by
  rw [lookup_pruned_pairing, Option.filter_eq_some_iff] at h
  exact ⟨h.1, by simpa using h.2⟩

theorem pruned_lookup_of_live {r : PairingRequest} (h : store.pairings.lookup id = some r)
    (hlive : now < r.expiresAt) : (store.pruneLocked now).pairings.lookup id = some r := by
  rw [lookup_pruned_pairing, Option.filter_eq_some_iff]
  exact ⟨h, by simpa using hlive⟩

/-- The effect on the pruned table is the effect. -/
theorem PairingEffect.of_pruned {new : Option PairingRequest}
    (h : PairingEffect cfg id x ((store.pruneLocked x.time).pairings.lookup id) new) :
    PairingEffect cfg id x (store.pairings.lookup id) new := by
  cases h with
  | gone decided =>
    apply PairingEffect.gone
    intro r hr hlive
    exact decided r (pruned_lookup_of_live hr hlive) hlive
  | moved r record live => exact .moved r (lookup_of_pruned_pairing record).1 live
  | opened r request key => exact .opened r request key

/-- The attempts that count against a source. -/
def NativeSessionStore.attemptsOf (store : NativeSessionStore) (ip : ByteString) : List Nat :=
  (store.pairingAttempts.lookup ip).getD []

/-- An attempt is not older than ten minutes. -/
def recent (now time : Nat) : Bool := !(time + AttemptLifetime < now)

/-- The attempts of every source are as they were, or pruned. -/
def KeepsAttempts (store : NativeSessionStore) (now : Nat) (after : NativeSessionStore) : Prop :=
  ∀ ip, after.attemptsOf ip = store.attemptsOf ip ∨
    after.attemptsOf ip = (store.attemptsOf ip).filter (recent now)

theorem attemptsOf_prune (store : NativeSessionStore) (now : Nat) (ip : ByteString) :
    (store.pruneLocked now).attemptsOf ip = (store.attemptsOf ip).filter (recent now) := by
  have hlookup : (store.pruneLocked now).pairingAttempts.lookup ip =
      (store.pairingAttempts.lookup ip).map (List.filter (recent now)) := Table.lookup_mapVal ..
  unfold NativeSessionStore.attemptsOf
  rw [hlookup]
  cases store.pairingAttempts.lookup ip <;> rfl

theorem KeepsAttempts.refl : KeepsAttempts store now store := fun _ => .inl rfl

theorem KeepsAttempts.prune : KeepsAttempts store now (store.pruneLocked now) :=
  fun ip => .inr (attemptsOf_prune store now ip)

/-- Calls that only concern transfers leave the pairings alone or prune them. -/
structure SparesPairings (store : NativeSessionStore) (now : Nat) (after : NativeSessionStore) :
    Prop where
  pairings : after.pairings = store.pairings ∨ after.pairings = (store.pruneLocked now).pairings
  devices : after.pairingStore = store.pairingStore
  attempts : KeepsAttempts store now after

theorem SparesPairings.refl : SparesPairings store now store := ⟨.inl rfl, rfl, .refl⟩

theorem SparesPairings.prune : SparesPairings store now (store.pruneLocked now) :=
  ⟨.inr rfl, rfl, .prune⟩

theorem SparesPairings.update {after : NativeSessionStore} (h : SparesPairings store now after)
    (key : ByteString) (item : TransferRequest) :
    SparesPairings store now (after.updateTransfer key item) := ⟨h.pairings, h.devices, h.attempts⟩

theorem SparesPairings.effect {after : NativeSessionStore} (h : SparesPairings store x.time after)
    (hsilent : ∀ r, x.Silent cfg r) :
    PairingEffect cfg id x (store.pairings.lookup id) (after.pairings.lookup id) := by
  rcases h.pairings with h | h
  · rw [h]
    exact .same fun r _ => (hsilent r).next _
  · rw [h]
    apply PairingEffect.of_pruned
    exact .same fun r _ => (hsilent r).next _

theorem spares_requestTransfer {body : TransferBody} {credential ip requestId : ByteString} :
    SparesPairings store now (store.requestTransfer cfg now body credential ip requestId).1 := by
  unfold NativeSessionStore.requestTransfer
  split
  · exact .refl
  · simp only
    split
    · exact .refl
    · split
      · exact .refl
      · split
        · exact .refl
        · split
          · exact .refl
          · split
            · exact .prune
            · exact ⟨.inr rfl, rfl, KeepsAttempts.prune⟩

theorem spares_transferStatus {requestId credential : ByteString} :
    SparesPairings store now (store.transferStatus cfg now requestId credential).1 := by
  unfold NativeSessionStore.transferStatus
  split
  · exact .refl
  · simp only
    repeat' split
    all_goals exact .prune

theorem spares_approveTransfer {requestId : ByteString} :
    SparesPairings store now (store.approveTransfer now requestId).1 := by
  unfold NativeSessionStore.approveTransfer
  simp only
  split
  · exact .prune
  · split
    · exact SparesPairings.prune.update _ _
    · exact .prune

theorem spares_denyTransfer {requestId : ByteString} :
    SparesPairings store now (store.denyTransfer requestId).1 := by
  unfold NativeSessionStore.denyTransfer
  split
  · exact .refl
  · exact SparesPairings.refl.update _ _

theorem spares_cancelTransfer {transferId token : ByteString} :
    SparesPairings store now (store.cancelTransfer cfg transferId token).1 := by
  unfold NativeSessionStore.cancelTransfer
  split
  · exact .refl
  · exact SparesPairings.refl.update _ _

theorem spares_authorizeTransfer {token transferId : ByteString} :
    SparesPairings store now (store.authorizeTransfer cfg now token transferId).1 := by
  unfold NativeSessionStore.authorizeTransfer
  split
  · exact .refl
  · simp only
    split
    · exact .prune
    · exact SparesPairings.prune.update _ _

theorem spares_authorizeFile {token transferId fileId name : ByteString} {sizeBytes : Nat}
    {skip : Bool} :
    SparesPairings store now
      (store.authorizeFile cfg now token transferId fileId name sizeBytes skip).1 := by
  unfold NativeSessionStore.authorizeFile
  simp only
  split
  · exact .prune
  · split
    · exact .prune
    · split
      · exact SparesPairings.prune.update _ _
      · exact .prune

theorem spares_markFileTerminal {transferId fileId : ByteString} :
    SparesPairings store now (store.markFileTerminal transferId fileId) := by
  unfold NativeSessionStore.markFileTerminal
  split
  · exact .refl
  · split
    · exact .refl
    · exact SparesPairings.refl.update _ _

theorem spares_pairingStatus {requestId clientId credential : ByteString} :
    SparesPairings store now (store.pairingStatus cfg now requestId clientId credential).1 := by
  unfold NativeSessionStore.pairingStatus
  simp only
  repeat' split
  all_goals exact .prune

/-- A change of the record with a given key. -/
theorem updatePairing_effect {key : ByteString} {item : PairingRequest}
    (hkeep : ∀ r, id ≠ key → store.pairings.lookup id = some r → r.state.next cfg r x = r.state)
    (hitem : ∀ r, store.pairings.lookup key = some r →
      x.time < r.expiresAt ∧ item = { r with state := r.state.next cfg r x }) :
    PairingEffect cfg id x (store.pairings.lookup id)
      ((store.updatePairing key item).pairings.lookup id) := by
  have hlookup : (store.updatePairing key item).pairings.lookup id =
      if id = key then (store.pairings.lookup id).map fun _ => item else store.pairings.lookup id :=
    Table.lookup_update ..
  rw [hlookup]
  split
  · rename_i heq
    subst heq
    cases hold : store.pairings.lookup id with
    | none =>
      apply PairingEffect.gone
      intro r hr
      cases hr
    | some r =>
      obtain ⟨hlive, hitem⟩ := hitem r hold
      rw [Option.map_some, hitem]
      exact .moved r rfl fun _ => hlive
  · rename_i hne
    exact .same fun r hr => hkeep r hne hr

/-- A call about another request. -/
theorem silent_confirm {trusted : List TrustedDevice} {answer : NativeAnswer} {proof : ByteString}
    {env : StoreEnv} (h : q.requestId ≠ id) :
    NativeEntry.Silent cfg ⟨now, trusted, .confirmPairing id proof env, answer⟩ q := by
  have hne : (id == q.requestId) = false := beq_eq_false_iff_ne.mpr h.symm
  constructor <;>
    simp [NativeEntry.endsPairing, NativeEntry.misproves, NativeEntry.deniesPairing,
      NativeEntry.revokes, NativeEntry.confirmsPairing, NativeEntry.approvesPairing, hne]

theorem silent_approve {trusted : List TrustedDevice} {answer : NativeAnswer} {env : StoreEnv}
    (h : q.requestId ≠ id) :
    NativeEntry.Silent cfg ⟨now, trusted, .approvePairing id env, answer⟩ q := by
  have hne : (id == q.requestId) = false := beq_eq_false_iff_ne.mpr h.symm
  constructor <;>
    simp [NativeEntry.endsPairing, NativeEntry.misproves, NativeEntry.deniesPairing,
      NativeEntry.revokes, NativeEntry.confirmsPairing, NativeEntry.approvesPairing, hne]

theorem silent_deny {trusted : List TrustedDevice} {answer : NativeAnswer} (h : q.requestId ≠ id) :
    NativeEntry.Silent cfg ⟨now, trusted, .denyPairing id, answer⟩ q := by
  have hne : (id == q.requestId) = false := beq_eq_false_iff_ne.mpr h.symm
  constructor <;>
    simp [NativeEntry.endsPairing, NativeEntry.misproves, NativeEntry.deniesPairing,
      NativeEntry.revokes, NativeEntry.confirmsPairing, NativeEntry.approvesPairing, hne]

/-- The records are stored under their own IDs and pass the checks of the trust store. -/
structure NativeSessionStore.KeyedPairings (store : NativeSessionStore) : Prop where
  key : ∀ id r, store.pairings.lookup id = some r → r.requestId = id
  valid : ∀ id r, store.pairings.lookup id = some r → r.Valid

theorem NativeSessionStore.KeyedPairings.prune (h : store.KeyedPairings) :
    (store.pruneLocked now).KeyedPairings where
  key := fun id r hr => h.key id r (lookup_of_pruned_pairing hr).1
  valid := fun id r hr => h.valid id r (lookup_of_pruned_pairing hr).1

/-- A call that says something about the request with a given key. -/
theorem told_effect {key : ByteString} (hkeyed : store.KeyedPairings)
    (hother : ∀ r : PairingRequest, r.requestId ≠ key → x.Silent cfg r) {item : PairingRequest}
    {after : NativeSessionStore}
    (hitem : (store.pruneLocked x.time).pairings.lookup key = some item)
    {state : PairState} (hnext : item.state.next cfg item x = state)
    (hafter : after.pairings =
      ((store.pruneLocked x.time).updatePairing key { item with state }).pairings) :
    PairingEffect cfg id x (store.pairings.lookup id) (after.pairings.lookup id) := by
  rw [hafter]
  apply PairingEffect.of_pruned
  apply updatePairing_effect
  · intro r hne hr
    apply NativeEntry.Silent.next
    apply hother
    rw [hkeyed.prune.key id r hr]
    exact hne
  · intro r hr
    refine ⟨(lookup_of_pruned_pairing hr).2, ?_⟩
    rw [← Option.some.inj (hitem.symm.trans hr), hnext]

/-- A call about a request that does not move it. -/
theorem unmoved_effect {key : ByteString} (hkeyed : store.KeyedPairings)
    (hother : ∀ r : PairingRequest, r.requestId ≠ key → x.Silent cfg r)
    {after : NativeSessionStore}
    (hitem : ∀ item, (store.pruneLocked x.time).pairings.lookup key = some item →
      item.state.next cfg item x = item.state)
    (hafter : after.pairings = (store.pruneLocked x.time).pairings) :
    PairingEffect cfg id x (store.pairings.lookup id) (after.pairings.lookup id) := by
  rw [hafter]
  apply PairingEffect.of_pruned
  apply PairingEffect.same
  intro r hr
  by_cases hid : id = key
  · subst hid
    exact hitem r hr
  · apply NativeEntry.Silent.next
    apply hother
    rw [hkeyed.prune.key id r hr]
    exact hid

theorem confirmPairing_effect {requestId proof : ByteString} {env : StoreEnv}
    (hkeyed : s.store.KeyedPairings) :
    PairingEffect cfg id (s.entry cfg (.confirmPairing requestId proof env))
      (s.store.pairings.lookup id)
      ((s.store.confirmPairing s.clock requestId proof env).1.pairings.lookup id) := by
  have hother : ∀ r : PairingRequest, r.requestId ≠ requestId →
      (s.entry cfg (.confirmPairing requestId proof env)).Silent cfg r := fun r hr =>
        silent_confirm hr
  have hquiet : ∀ r : PairingRequest,
      (s.entry cfg (.confirmPairing requestId proof env)).endsPairing cfg r =
        (requestId == r.requestId && !constantTimeEqual proof r.expectedProof) := by
    intro r
    simp [NativeEntry.endsPairing, NativeEntry.misproves, NativeEntry.deniesPairing,
      NativeEntry.revokes, NativeState.entry]
  have hconfirms : ∀ r : PairingRequest,
      (s.entry cfg (.confirmPairing requestId proof env)).confirmsPairing r =
        (requestId == r.requestId && constantTimeEqual proof r.expectedProof) := fun r => rfl
  unfold NativeSessionStore.confirmPairing
  simp only
  split
  · rename_i hnone
    refine unmoved_effect hkeyed hother ?_ rfl
    intro item hitem
    rw [show (s.store.pruneLocked s.clock).pairings.lookup requestId =
      some item from hitem] at hnone
    cases hnone
  · rename_i item hitem
    have hkey : requestId = item.requestId := (hkeyed.prune.key requestId item hitem).symm
    have hsame : ∀ item', (s.store.pruneLocked s.clock).pairings.lookup requestId = some item' →
        item = item' := fun item' h => Option.some.inj (hitem.symm.trans h)
    split
    · rename_i hdenied
      refine unmoved_effect hkeyed hother ?_ rfl
      intro item' hitem'
      rw [← hsame item' hitem']
      exact PairState.next_of_decided (by rw [hdenied]; rfl)
    · split
      · rename_i hproof
        have hends : (s.entry cfg (.confirmPairing requestId proof env)).endsPairing cfg item =
          true := by
          rw [hquiet, ← hkey]
          simpa using hproof
        split
        · rename_i hactive
          exact told_effect hkeyed hother hitem (PairState.next_of_ends hactive hends) rfl
        · rename_i hactive
          refine unmoved_effect hkeyed hother ?_ rfl
          intro item' hitem'
          rw [← hsame item' hitem']
          exact PairState.next_of_decided (by simpa using hactive)
      · rename_i hproof
        have hends : (s.entry cfg (.confirmPairing requestId proof env)).endsPairing cfg item =
          false := by
          rw [hquiet]
          simpa using fun _ => by simpa using hproof
        have hyes : (s.entry cfg (.confirmPairing requestId proof env)).confirmsPairing item =
          true := by
          rw [hconfirms, ← hkey]
          simpa using hproof
        have hno : (s.entry cfg (.confirmPairing requestId proof env)).approvesPairing item =
          false :=
          rfl
        have hsaves : (s.entry cfg (.confirmPairing requestId proof env)).op.saves =
          env.saved := rfl
        split
        · rename_i hstate
          rw [trust_eq (hkeyed.prune.valid requestId item hitem)]
          cases hsaved : env.saved with
          | true =>
            refine told_effect hkeyed hother hitem ?_ rfl
            rw [hstate]
            simp [PairState.next, PairState.isActive, hends, hyes, hsaves, hsaved]
          | false =>
            refine unmoved_effect hkeyed hother ?_ rfl
            intro item' hitem'
            rw [← hsame item' hitem', hstate]
            simp [PairState.next, PairState.isActive, hends, hyes, hsaves, hsaved]
        · rename_i hstate
          refine told_effect hkeyed hother hitem ?_ rfl
          rw [hstate]
          simp [PairState.next, PairState.isActive, hends, hyes]
        · rename_i hstate
          refine unmoved_effect hkeyed hother ?_ rfl
          intro item' hitem'
          rw [← hsame item' hitem', hstate]
          rfl
        · rename_i hreceiver hpending happroved
          refine unmoved_effect hkeyed hother ?_ rfl
          intro item' hitem'
          rw [← hsame item' hitem']
          cases hstate : item.state with
          | pending => exact absurd hstate hpending
          | receiverConfirmed => exact absurd hstate hreceiver
          | approved | denied => rfl
          | senderConfirmed => simp [PairState.next, PairState.isActive, hends, hno]

theorem approvePairing_effect {requestId : ByteString} {env : StoreEnv}
    (hkeyed : s.store.KeyedPairings) :
    PairingEffect cfg id (s.entry cfg (.approvePairing requestId env)) (s.store.pairings.lookup id)
      ((s.store.approvePairing s.clock requestId env).1.pairings.lookup id) := by
  have hother : ∀ r : PairingRequest, r.requestId ≠ requestId →
      (s.entry cfg (.approvePairing requestId env)).Silent cfg r := fun r hr => silent_approve hr
  unfold NativeSessionStore.approvePairing
  simp only
  split
  · rename_i hnone
    refine unmoved_effect hkeyed hother ?_ rfl
    intro item hitem
    rw [show (s.store.pruneLocked s.clock).pairings.lookup requestId =
      some item from hitem] at hnone
    cases hnone
  · rename_i item hitem
    have hsame : ∀ item', (s.store.pruneLocked s.clock).pairings.lookup requestId = some item' →
        item = item' := fun item' h => Option.some.inj (hitem.symm.trans h)
    have hends : (s.entry cfg (.approvePairing requestId env)).endsPairing cfg item = false := rfl
    have hno : (s.entry cfg (.approvePairing requestId env)).confirmsPairing item = false := rfl
    have hyes : (s.entry cfg (.approvePairing requestId env)).approvesPairing item = true := by
      have hkey := hkeyed.prune.key requestId item hitem
      exact beq_iff_eq.mpr hkey.symm
    have hsaves : (s.entry cfg (.approvePairing requestId env)).op.saves = env.saved := rfl
    split
    · rename_i hstate
      refine unmoved_effect hkeyed hother ?_ rfl
      intro item' hitem'
      rw [← hsame item' hitem', hstate]
      rfl
    · rename_i hstate
      refine told_effect hkeyed hother hitem ?_ rfl
      rw [hstate]
      simp [PairState.next, PairState.isActive, hends, hno, hyes]
    · rename_i hstate
      refine unmoved_effect hkeyed hother ?_ rfl
      intro item' hitem'
      rw [← hsame item' hitem', hstate]
      simp [PairState.next, PairState.isActive, hends, hno]
    · rename_i hstate
      refine unmoved_effect hkeyed hother ?_ rfl
      intro item' hitem'
      rw [← hsame item' hitem', hstate]
      rfl
    · rename_i hstate
      rw [trust_eq (hkeyed.prune.valid requestId item hitem)]
      cases hsaved : env.saved with
      | true =>
        refine told_effect hkeyed hother hitem ?_ rfl
        rw [hstate]
        simp [PairState.next, PairState.isActive, hends, hyes, hsaves, hsaved]
      | false =>
        refine unmoved_effect hkeyed hother ?_ rfl
        intro item' hitem'
        rw [← hsame item' hitem', hstate]
        simp [PairState.next, PairState.isActive, hends, hsaves, hsaved]

theorem denyPairing_effect {requestId : ByteString} (hkeyed : s.store.KeyedPairings) :
    PairingEffect cfg id (s.entry cfg (.denyPairing requestId)) (s.store.pairings.lookup id)
      ((s.store.denyPairing s.clock requestId).1.pairings.lookup id) := by
  have hother : ∀ r : PairingRequest, r.requestId ≠ requestId →
      (s.entry cfg (.denyPairing requestId)).Silent cfg r := fun r hr => silent_deny hr
  unfold NativeSessionStore.denyPairing
  simp only
  split
  · rename_i hnone
    refine unmoved_effect hkeyed hother ?_ rfl
    intro item hitem
    rw [show (s.store.pruneLocked s.clock).pairings.lookup requestId =
      some item from hitem] at hnone
    cases hnone
  · rename_i item hitem
    have hsame : ∀ item', (s.store.pruneLocked s.clock).pairings.lookup requestId = some item' →
        item = item' := fun item' h => Option.some.inj (hitem.symm.trans h)
    have hends : (s.entry cfg (.denyPairing requestId)).endsPairing cfg item = true := by
      have hkey := hkeyed.prune.key requestId item hitem
      simp [NativeEntry.endsPairing, NativeEntry.deniesPairing, NativeState.entry, hkey]
    split
    · rename_i hstate
      refine unmoved_effect hkeyed hother ?_ rfl
      intro item' hitem'
      rw [← hsame item' hitem', hstate]
      rfl
    · rename_i hstate
      refine unmoved_effect hkeyed hother ?_ rfl
      intro item' hitem'
      rw [← hsame item' hitem', hstate]
      rfl
    · rename_i happroved hdenied
      refine told_effect hkeyed hother hitem (PairState.next_of_ends ?_ hends) rfl
      cases hstate : item.state with
      | approved => exact absurd hstate happroved
      | denied => exact absurd hstate hdenied
      | pending | senderConfirmed | receiverConfirmed => rfl

theorem mem_of_foldl_oldest {ν : Type} {key : ν → Nat}
    {entries : List (Sigma fun _ : ByteString => ν)} {best : Option (Sigma fun _ : ByteString => ν)}
    {e : Sigma fun _ : ByteString => ν}
    (h : entries.foldl (fun best e =>
      match best with
      | none => some e
      | some b => if key e.2 < key b.2 then some e else some b) best = some e) :
    best = some e ∨ e ∈ entries := by
  induction entries generalizing best with
  | nil => exact .inl h
  | cons a rest ih =>
    rw [List.foldl_cons] at h
    rcases ih h with h | h
    · cases best with
      | none =>
        cases h
        exact .inr (List.mem_cons_self ..)
      | some b =>
        simp only at h
        split at h
        · cases h
          exact .inr (List.mem_cons_self ..)
        · exact .inl h
    · exact .inr (List.mem_cons_of_mem _ h)

/-- The victim of `eraseOldest` meets the predicate. -/
theorem oldest_spec {ν : Type} {p : ν → Bool} {key : ν → Nat} {table : Table ByteString ν}
    {id : ByteString} (h : oldest p key table.entries = some id) :
    ∃ v, table.lookup id = some v ∧ p v = true := by
  unfold oldest at h
  obtain ⟨e, he, rfl⟩ := Option.map_eq_some_iff.mp h
  rcases mem_of_foldl_oldest he with hnone | hmem
  · cases hnone
  · obtain ⟨hmem, hp⟩ := List.mem_filter.mp hmem
    exact ⟨e.2, Table.lookup_eq_some_iff.mpr hmem, hp⟩

theorem eraseOldest_cases {ν : Type} (p : ν → Bool) (key : ν → Nat) (table : Table ByteString ν)
    (id : ByteString) :
    (eraseOldest p key table).lookup id = table.lookup id ∨
      (eraseOldest p key table).lookup id = none ∧ ∀ v, table.lookup id = some v → p v = true := by
  unfold eraseOldest
  split
  · exact .inl rfl
  · rename_i victim hvictim
    by_cases h : id = victim
    · subst h
      refine .inr ⟨AList.lookup_erase _ _, ?_⟩
      intro v hv
      obtain ⟨w, hw, hp⟩ := oldest_spec hvictim
      rwa [← Option.some.inj (hv.symm.trans hw)] at hp
    · exact .inl (AList.lookup_erase_ne h)

theorem lookup_retirePairings (table : Table ByteString PairingRequest) (deviceId id : ByteString) :
    (NativeSessionStore.retirePairings table deviceId).lookup id = table.lookup id ∨
      (NativeSessionStore.retirePairings table deviceId).lookup id = none ∧
        ∀ r, table.lookup id = some r → r.state.isActive = false := by
  unfold NativeSessionStore.retirePairings
  simp only
  have hfilter := Table.lookup_filter (fun _ (item : PairingRequest) =>
    !(item.deviceId == deviceId && !item.state.isActive)) table id
  have hkept : (Table.filter (fun _ (item : PairingRequest) =>
      !(item.deviceId == deviceId && !item.state.isActive)) table).lookup id = table.lookup id ∨
      (Table.filter (fun _ (item : PairingRequest) =>
        !(item.deviceId == deviceId && !item.state.isActive)) table).lookup id = none ∧
        ∀ r, table.lookup id = some r → r.state.isActive = false := by
    rw [hfilter]
    cases table.lookup id with
    | none => exact .inl rfl
    | some r =>
      by_cases hr : (r.deviceId == deviceId && !r.state.isActive) = true
      · refine .inr ⟨by simp [Option.filter, hr], ?_⟩
        intro r' hr'
        cases hr'
        simpa using (Bool.and_eq_true_iff.mp hr).2
      · exact .inl (by simp [Option.filter, hr])
  split
  · rcases eraseOldest_cases (fun item : PairingRequest => !item.state.isActive) (·.expiresAt)
      (Table.filter (fun _ (item : PairingRequest) =>
        !(item.deviceId == deviceId && !item.state.isActive)) table) id with h | ⟨h, hp⟩
    · rwa [h]
    · rw [h]
      refine .inr ⟨rfl, ?_⟩
      intro r hr
      rcases hkept with hk | ⟨-, hk⟩
      · simpa using hp r (hk.trans hr)
      · exact hk r hr
  · exact hkept

theorem valid_toRequest {body : PairingBody} (h : body.valid cfg = true)
    (ip requestId : ByteString) :
    (body.toRequest cfg now ip requestId).Valid := by
  simp only [PairingBody.valid, isSafeIdentifier, Bool.and_eq_true, Bool.not_eq_true',
    decide_eq_true_iff] at h
  obtain ⟨⟨⟨⟨⟨⟨⟨-, -⟩, -⟩, ⟨hid, hlen⟩, -⟩, -⟩, hname⟩, -⟩, -⟩ := h
  exact ⟨hid, hlen, hname, cfg.crypto.sha256Hex_length _⟩

theorem requestPairing_cases (cfg : NativeConfig) (store : NativeSessionStore) (now : Nat)
    (body : PairingBody) (ip requestId : ByteString) :
    (store.requestPairing cfg now body ip requestId).2.status ≠ 202 ∧
      ((store.requestPairing cfg now body ip requestId).1.pairings = store.pairings ∨
        (store.requestPairing cfg now body ip requestId).1.pairings =
          (store.pruneLocked now).pairings) ∨
    (store.requestPairing cfg now body ip requestId).2 = ⟨202, .pairingRequested requestId⟩ ∧
      body.valid cfg = true ∧
      (store.requestPairing cfg now body ip requestId).1.pairings =
        (NativeSessionStore.retirePairings (store.pruneLocked now).pairings body.clientId).emplace
          requestId (body.toRequest cfg now ip requestId) := by
  unfold NativeSessionStore.requestPairing
  split
  · exact .inl ⟨by simp [nativeError], .inl rfl⟩
  · split
    · exact .inl ⟨by simp [nativeError], .inl rfl⟩
    · rename_i hvalid
      simp only
      split
      · exact .inl ⟨by simp [nativeError], .inr rfl⟩
      · split
        · exact .inl ⟨by simp [nativeError], .inr rfl⟩
        · split
          · exact .inl ⟨by simp, .inr rfl⟩
          · exact .inr ⟨rfl, by simpa using hvalid, rfl⟩

theorem requestPairing_effect {body : PairingBody} {ip requestId : ByteString}
    (hnew : s.store.pairings.lookup requestId = none) :
    PairingEffect cfg id (s.entry cfg (.requestPairing body ip requestId))
      (s.store.pairings.lookup id)
      ((s.store.requestPairing cfg s.clock body ip requestId).1.pairings.lookup id) := by
  have hsilent : ∀ r, (s.entry cfg (.requestPairing body ip requestId)).Silent cfg r :=
    fun r => ⟨rfl, rfl, rfl⟩
  rcases requestPairing_cases cfg s.store s.clock body ip requestId with
    ⟨-, htable⟩ | ⟨hresult, -, htable⟩
  · rcases htable with h | h
    · rw [h]
      exact .same fun r _ => (hsilent r).next _
    · rw [h]
      apply PairingEffect.of_pruned (x := s.entry cfg (.requestPairing body ip requestId))
      exact .same fun r _ => (hsilent r).next _
  · have hopens : (s.entry cfg (.requestPairing body ip requestId)).opensPairing cfg =
        some (body.toRequest cfg s.clock ip requestId) := by
      have hanswer : (s.entry cfg (.requestPairing body ip requestId)).answer =
          .result (s.store.requestPairing cfg s.clock body ip requestId).2 := rfl
      rw [hresult] at hanswer
      simp only [NativeEntry.opensPairing, hanswer]
      rfl
    rw [htable, Table.lookup_emplace]
    have hretire := lookup_retirePairings (s.store.pruneLocked s.clock).pairings body.clientId id
    split
    · rename_i heq
      subst heq
      have hnone : (NativeSessionStore.retirePairings (s.store.pruneLocked s.clock).pairings
          body.clientId).lookup id = none := by
        rcases hretire with h | h
        · rw [h, lookup_pruned_pairing, hnew]
          rfl
        · exact h.1
      rw [hnone]
      exact .opened _ hopens rfl
    · apply PairingEffect.of_pruned (x := s.entry cfg (.requestPairing body ip requestId))
      rcases hretire with h | ⟨h, hdecided⟩
      · rw [h]
        exact .same fun r _ => (hsilent r).next _
      · rw [h]
        apply PairingEffect.gone
        intro r hr _
        rw [(hsilent r).next]
        exact hdecided r hr

/-- A call that is about no request may still end one through its device. -/
theorem PairState.next_of_quiet (hc : x.confirmsPairing q = false)
    (ha : x.approvesPairing q = false)
    (state : PairState) :
    state.next cfg q x = if state.isActive && x.endsPairing cfg q then .denied else state := by
  unfold PairState.next
  rw [hc, ha]
  cases state <;> cases x.endsPairing cfg q <;> rfl

theorem revokeDevice_pairings (store : NativeSessionStore) (deviceId : ByteString)
    (env : StoreEnv) :
    (store.revokeDevice deviceId env).2 = .ok true ∧
      (store.revokeDevice deviceId env).1.pairings = (store.revokeDeviceLocked deviceId).pairings ∨
    (store.revokeDevice deviceId env).2 ≠ .ok true ∧
      (store.revokeDevice deviceId env).1.pairings = store.pairings := by
  unfold NativeSessionStore.revokeDevice
  simp only
  split
  · exact .inr ⟨by simp, rfl⟩
  · exact .inr ⟨by simp, rfl⟩
  · exact .inl ⟨rfl, rfl⟩

/-- A revoked device loses its pairing requests. -/
theorem revokedPairings_effect {deviceId : ByteString}
    (hc : ∀ r, x.confirmsPairing r = false) (ha : ∀ r, x.approvesPairing r = false)
    (hends : ∀ r, x.endsPairing cfg r = (r.deviceId == deviceId)) :
    PairingEffect cfg id x (store.pairings.lookup id)
      ((store.revokeDeviceLocked deviceId).pairings.lookup id) := by
  have hlookup : (store.revokeDeviceLocked deviceId).pairings.lookup id =
      (store.pairings.lookup id).filter fun item => item.deviceId != deviceId :=
    Table.lookup_filter ..
  rw [hlookup]
  cases hold : store.pairings.lookup id with
  | none =>
    apply PairingEffect.gone
    intro r hr
    cases hr
  | some r =>
    by_cases hd : r.deviceId = deviceId
    · rw [show (some r).filter (fun item => item.deviceId != deviceId) = none by
        simp [Option.filter, hd]]
      apply PairingEffect.gone
      intro r' hr' _
      cases hr'
      rw [PairState.next_of_quiet (hc r) (ha r), hends, hd]
      cases r.state <;> simp [PairState.isActive]
    · rw [show (some r).filter (fun item => item.deviceId != deviceId) = some r by
        simp [Option.filter, hd]]
      apply PairingEffect.same
      intro r' hr'
      cases hr'
      rw [PairState.next_of_quiet (hc r) (ha r), hends]
      simp [hd]

/-- A call that revokes nothing and is about no request. -/
theorem silent_of_not_revokes (hc : ∀ r, x.confirmsPairing r = false)
    (ha : ∀ r, x.approvesPairing r = false) (hm : ∀ r, x.misproves r = false)
    (hd : ∀ r, x.deniesPairing r = false) (hr : x.revokes cfg q.deviceId = false) :
    x.Silent cfg q := by
  refine ⟨?_, hc q, ha q⟩
  unfold NativeEntry.endsPairing
  rw [hm, hd, hr]
  rfl

theorem revokeDevice_pairingEffect {deviceId : ByteString} {env : StoreEnv} :
    PairingEffect cfg id (s.entry cfg (.revokeDevice deviceId env)) (s.store.pairings.lookup id)
      ((s.store.revokeDevice deviceId env).1.pairings.lookup id) := by
  have hanswer : (s.entry cfg (.revokeDevice deviceId env)).answer =
      .ofExcept .flag (s.store.revokeDevice deviceId env).2 := rfl
  have hrevokes : ∀ device, (s.entry cfg (.revokeDevice deviceId env)).revokes cfg device =
      (deviceId == device &&
        NativeAnswer.ofExcept .flag (s.store.revokeDevice deviceId env).2 == .flag true) :=
    fun device => rfl
  rcases revokeDevice_pairings s.store deviceId env with ⟨hok, htable⟩ | ⟨hok, htable⟩
  · rw [htable]
    refine revokedPairings_effect (fun _ => rfl) (fun _ => rfl) fun r => ?_
    simp only [NativeEntry.endsPairing, hrevokes, hok, NativeAnswer.ofExcept,
      BEq.rfl, Bool.and_true]
    exact BEq.comm
  · rw [htable]
    refine .same fun r _ => (silent_of_not_revokes (fun _ => rfl) (fun _ => rfl) (fun _ => rfl)
      (fun _ => rfl) ?_).next _
    rw [hrevokes]
    cases hresult : (s.store.revokeDevice deviceId env).2 with
    | error what => simp [NativeAnswer.ofExcept]
    | ok flag =>
      cases flag with
      | false => simp [NativeAnswer.ofExcept]
      | true => exact absurd hresult hok

/-- What `revokeCurrentDevice` does: it revokes the device of the credential, or nothing. -/
theorem revokeCurrentDevice_cases (cfg : NativeConfig) (store : NativeSessionStore)
    (credential ip : ByteString) (env : StoreEnv) :
    ((store.revokeCurrentDevice cfg credential ip env).1 = store ∧
      (store.revokeCurrentDevice cfg credential ip env).2 ≠ .ok ⟨200, .status "unpaired"⟩) ∨
    ∃ device, findTrusted cfg.crypto store.pairingStore.trusted credential = some device ∧
      (store.revokeCurrentDevice cfg credential ip env).1 = (store.revokeDevice device.id env).1 ∧
      ((store.revokeCurrentDevice cfg credential ip env).2 = .ok ⟨200, .status "unpaired"⟩ ↔
        (store.revokeDevice device.id env).2 = .ok true) := by
  unfold NativeSessionStore.revokeCurrentDevice
  split
  · exact .inl ⟨rfl, by simp [nativeError]⟩
  · simp only
    split
    · exact .inl ⟨rfl, by simp [nativeError]⟩
    · rename_i device hdevice
      split
      · exact .inl ⟨rfl, by simp [nativeError]⟩
      · refine .inr ⟨device, hdevice, ?_⟩
        split
        · rename_i hresult
          exact ⟨rfl, by simp [hresult]⟩
        · rename_i hresult
          exact ⟨rfl, by simp [hresult, nativeError]⟩
        · rename_i hresult
          exact ⟨rfl, by simp [hresult]⟩

theorem revokeCurrentDevice_pairingEffect {credential ip : ByteString} {env : StoreEnv} :
    PairingEffect cfg id (s.entry cfg (.revokeCurrentDevice credential ip env))
      (s.store.pairings.lookup id)
      ((s.store.revokeCurrentDevice cfg credential ip env).1.pairings.lookup id) := by
  have hrevokes : ∀ device, (s.entry cfg (.revokeCurrentDevice credential ip env)).revokes cfg
    device =
      ((findTrusted cfg.crypto s.store.pairingStore.trusted credential).any (·.id == device) &&
        NativeAnswer.ofExcept .result (s.store.revokeCurrentDevice cfg credential ip env).2 ==
          .result ⟨200, .status "unpaired"⟩) := fun device => rfl
  have hkept : (s.store.revokeCurrentDevice cfg credential ip env).2 ≠
      .ok ⟨200, .status "unpaired"⟩ → ∀ r, (s.entry cfg
        (.revokeCurrentDevice credential ip env)).Silent cfg r := by
    intro hne r
    apply silent_of_not_revokes (fun _ => rfl) (fun _ => rfl) (fun _ => rfl) (fun _ => rfl)
    rw [hrevokes]
    cases hresult : (s.store.revokeCurrentDevice cfg credential ip env).2 with
    | error what => simp [NativeAnswer.ofExcept]
    | ok value =>
      have hvalue : value ≠ ⟨200, .status "unpaired"⟩ := by
        rintro rfl
        exact hne hresult
      simp [NativeAnswer.ofExcept, hvalue]
  rcases revokeCurrentDevice_cases cfg s.store credential ip env with
    ⟨hstore, hne⟩ | ⟨device, hdevice, hstore, hiff⟩
  · rw [hstore]
    exact .same fun r _ => (hkept hne r).next _
  · rw [hstore]
    rcases revokeDevice_pairings s.store device.id env with ⟨hok, htable⟩ | ⟨hok, htable⟩
    · rw [htable]
      refine revokedPairings_effect (fun _ => rfl) (fun _ => rfl) fun r => ?_
      simp only [NativeEntry.endsPairing, hrevokes, hiff.mpr hok, hdevice, Option.any_some,
        NativeAnswer.ofExcept, BEq.rfl, Bool.and_true]
      exact BEq.comm
    · rw [htable]
      exact .same fun r _ => (hkept (fun h => hok (hiff.mp h)) r).next _

theorem revokeAll_pairingEffect {env : StoreEnv} :
    PairingEffect cfg id (s.entry cfg (.revokeAll env)) (s.store.pairings.lookup id)
      ((s.store.revokeAll env).1.pairings.lookup id) := by
  have hanswer : (s.entry cfg (.revokeAll env)).answer =
      .ofExcept (fun _ => .done) (s.store.revokeAll env).2 := rfl
  have hrevokes : ∀ device, (s.entry cfg (.revokeAll env)).revokes cfg device =
      (NativeAnswer.ofExcept (fun _ => .done) (s.store.revokeAll env).2 == .done) := fun device =>
        rfl
  unfold NativeSessionStore.revokeAll at hrevokes ⊢
  simp only at hrevokes ⊢
  split
  · rename_i what hwhat
    simp only [hwhat] at hrevokes
    refine .same fun r _ => (silent_of_not_revokes (fun _ => rfl) (fun _ => rfl) (fun _ => rfl)
      (fun _ => rfl) ?_).next _
    exact hrevokes _
  · rename_i hok
    simp only [hok] at hrevokes
    rw [AList.lookup_empty]
    apply PairingEffect.gone
    intro r _ _
    rw [PairState.next_of_quiet rfl rfl]
    simp only [NativeEntry.endsPairing, hrevokes, NativeAnswer.ofExcept, BEq.rfl, Bool.or_true,
      Bool.and_true]
    cases r.state <;> rfl

/-- **Everything a call can do to one pairing request.** -/
theorem call_pairingEffect (hkeyed : s.store.KeyedPairings) {op : NativeOp}
    (hnew : ∀ requestId, op.drawn = some requestId → s.store.pairings.lookup requestId = none)
    (id : ByteString) :
    PairingEffect cfg id (s.entry cfg op) (s.store.pairings.lookup id)
      ((s.store.call cfg s.clock op).1.pairings.lookup id) := by
  have hspares : ∀ {after : NativeSessionStore}, SparesPairings s.store s.clock after →
      (∀ r, (s.entry cfg op).Silent cfg r) →
      PairingEffect cfg id (s.entry cfg op) (s.store.pairings.lookup id)
        (after.pairings.lookup id) :=
    fun h hsilent => SparesPairings.effect (x := s.entry cfg op) h hsilent
  cases op with
  | beginPairingWindow | endPairingWindow =>
    exact .same fun r _ => NativeEntry.Silent.next ⟨rfl, rfl, rfl⟩ _
  | requestPairing body ip requestId => exact requestPairing_effect (hnew requestId rfl)
  | confirmPairing => exact confirmPairing_effect hkeyed
  | approvePairing => exact approvePairing_effect hkeyed
  | denyPairing => exact denyPairing_effect hkeyed
  | pairingStatus => exact hspares spares_pairingStatus fun _ => ⟨rfl, rfl, rfl⟩
  | transferStatus => exact hspares spares_transferStatus fun _ => ⟨rfl, rfl, rfl⟩
  | requestTransfer => exact hspares spares_requestTransfer fun _ => ⟨rfl, rfl, rfl⟩
  | approveTransfer => exact hspares spares_approveTransfer fun _ => ⟨rfl, rfl, rfl⟩
  | denyTransfer => exact hspares spares_denyTransfer fun _ => ⟨rfl, rfl, rfl⟩
  | cancelTransfer => exact hspares spares_cancelTransfer fun _ => ⟨rfl, rfl, rfl⟩
  | authorizeTransfer => exact hspares spares_authorizeTransfer fun _ => ⟨rfl, rfl, rfl⟩
  | authorizeFile => exact hspares spares_authorizeFile fun _ => ⟨rfl, rfl, rfl⟩
  | markFileTerminal => exact hspares spares_markFileTerminal fun _ => ⟨rfl, rfl, rfl⟩
  | revokeDevice => exact revokeDevice_pairingEffect
  | revokeCurrentDevice => exact revokeCurrentDevice_pairingEffect
  | revokeAll => exact revokeAll_pairingEffect

/-! ## What a call does to the trusted devices -/

/-- The environment of the save when a call is the second of the two that a request needs. -/
def PairingRequest.completedBy (r : PairingRequest) : NativeOp → Option StoreEnv
  | .approvePairing id env =>
      if id = r.requestId ∧ r.state = .senderConfirmed then some env else none
  | .confirmPairing id proof env =>
      if id = r.requestId ∧ r.state = .receiverConfirmed ∧
        constantTimeEqual proof r.expectedProof = true then some env else none
  | _ => none

/-- The trust store once a device is saved. -/
def PairingStore.withDevice (store : PairingStore) (device : TrustedDevice) : PairingStore :=
  { store with
    trusted := addDevice store.trusted device
    disk := addDevice store.trusted device }

theorem lookup_updatePairing_self {r : PairingRequest} (h : store.pairings.lookup id = some r)
    (item : PairingRequest) : (store.updatePairing id item).pairings.lookup id = some item := by
  have hlookup : (store.updatePairing id item).pairings.lookup id = _ := Table.lookup_update ..
  rw [hlookup, if_pos rfl, h]
  rfl

/-- The second of the two calls, when the save works. -/
theorem completed_saved {r : PairingRequest} {op : NativeOp} {env : StoreEnv}
    (hr : s.store.pairings.lookup r.requestId = some r) (hvalid : r.Valid)
    (hlive : s.clock < r.expiresAt) (hop : r.completedBy op = some env)
    (hsaved : env.saved = true) :
    (s.store.call cfg s.clock op).1.pairingStore = s.store.pairingStore.withDevice (r.device env) ∧
      (s.store.call cfg s.clock op).1.pairings.lookup r.requestId =
        some { r with state := .approved } := by
  have hpruned := pruned_lookup_of_live hr hlive
  have htrust : (s.store.pruneLocked s.clock).trust r env = _ := trust_eq hvalid env
  rw [if_pos hsaved] at htrust
  cases op with
  | approvePairing id env₀ =>
    simp only [PairingRequest.completedBy] at hop
    split at hop
    · rename_i hcond
      obtain ⟨rfl, hstate⟩ := hcond
      cases hop
      show (s.store.approvePairing s.clock r.requestId env).1.pairingStore = _ ∧
        (s.store.approvePairing s.clock r.requestId env).1.pairings.lookup r.requestId = _
      unfold NativeSessionStore.approvePairing
      simp only [hpruned, hstate, htrust, if_true]
      exact ⟨rfl, lookup_updatePairing_self (r := r) hpruned _⟩
    · cases hop
  | confirmPairing id proof env₀ =>
    simp only [PairingRequest.completedBy] at hop
    split at hop
    · rename_i hcond
      obtain ⟨rfl, hstate, hproof⟩ := hcond
      cases hop
      show (s.store.confirmPairing s.clock r.requestId proof env).1.pairingStore = _ ∧
        (s.store.confirmPairing s.clock r.requestId proof env).1.pairings.lookup r.requestId = _
      unfold NativeSessionStore.confirmPairing
      simp only [hpruned, hstate, hproof, htrust, reduceCtorEq, if_false, if_true, Bool.not_true,
        Bool.false_eq_true]
      exact ⟨rfl, lookup_updatePairing_self (r := r) hpruned _⟩
    · cases hop
  | _ => cases hop

/-- The second of the two calls, when the save fails. -/
theorem completed_unsaved {r : PairingRequest} {op : NativeOp} {env : StoreEnv}
    (hr : s.store.pairings.lookup r.requestId = some r) (hvalid : r.Valid)
    (hlive : s.clock < r.expiresAt) (hop : r.completedBy op = some env)
    (hsaved : env.saved = false) :
    (s.store.call cfg s.clock op).1.pairingStore = s.store.pairingStore ∧
      (s.store.call cfg s.clock op).1.pairings.lookup r.requestId = some r := by
  have hpruned := pruned_lookup_of_live hr hlive
  have htrust : (s.store.pruneLocked s.clock).trust r env = _ := trust_eq hvalid env
  rw [if_neg (by rw [hsaved]; exact Bool.false_ne_true)] at htrust
  cases op with
  | approvePairing id env₀ =>
    simp only [PairingRequest.completedBy] at hop
    split at hop
    · rename_i hcond
      obtain ⟨rfl, hstate⟩ := hcond
      cases hop
      show (s.store.approvePairing s.clock r.requestId env).1.pairingStore = _ ∧
        (s.store.approvePairing s.clock r.requestId env).1.pairings.lookup r.requestId = _
      unfold NativeSessionStore.approvePairing
      simp only [hpruned, hstate, htrust, if_false, Bool.false_eq_true]
      exact ⟨rfl, trivial⟩
    · cases hop
  | confirmPairing id proof env₀ =>
    simp only [PairingRequest.completedBy] at hop
    split at hop
    · rename_i hcond
      obtain ⟨rfl, hstate, hproof⟩ := hcond
      cases hop
      show (s.store.confirmPairing s.clock r.requestId proof env).1.pairingStore = _ ∧
        (s.store.confirmPairing s.clock r.requestId proof env).1.pairings.lookup r.requestId = _
      unfold NativeSessionStore.confirmPairing
      simp only [hpruned, hstate, hproof, htrust, reduceCtorEq, if_false, Bool.not_true,
        Bool.false_eq_true]
      exact ⟨rfl, trivial⟩
    · cases hop
  | _ => cases hop

theorem revokeDevice_trusted (store : NativeSessionStore) (deviceId : ByteString) (env : StoreEnv) :
    ∀ d ∈ (store.revokeDevice deviceId env).1.pairingStore.trusted,
      d ∈ store.pairingStore.trusted := by
  have hrevoke : ∀ d ∈ (store.pairingStore.revoke deviceId env).1.trusted,
      d ∈ store.pairingStore.trusted := by
    unfold PairingStore.revoke PairingStore.saveLocked
    split
    · exact fun d hd => hd
    · cases env.saved
      · exact fun d hd => hd
      · exact fun d hd => List.mem_of_mem_filter hd
  unfold NativeSessionStore.revokeDevice
  simp only
  split
  · exact hrevoke
  · exact hrevoke
  · exact hrevoke

theorem requestPairing_devices {body : PairingBody} {ip requestId : ByteString} :
    (store.requestPairing cfg now body ip requestId).1.pairingStore = store.pairingStore := by
  unfold NativeSessionStore.requestPairing
  simp only
  repeat' split
  all_goals rfl

theorem denyPairing_devices {requestId : ByteString} :
    (store.denyPairing now requestId).1.pairingStore = store.pairingStore := by
  unfold NativeSessionStore.denyPairing
  simp only
  repeat' split
  all_goals rfl

/-- **Everything a call can do to the trusted devices**: add the device of a request that it
completes, or remove some. -/
theorem call_trusted (hkeyed : s.store.KeyedPairings) (op : NativeOp) :
    (∃ r env, s.store.pairings.lookup r.requestId = some r ∧ s.clock < r.expiresAt ∧
      r.completedBy op = some env) ∨
    ∀ d ∈ (s.store.call cfg s.clock op).1.pairingStore.trusted,
      d ∈ s.store.pairingStore.trusted := by
  have hspares : ∀ {after : NativeSessionStore}, SparesPairings s.store s.clock after →
      ∀ d ∈ after.pairingStore.trusted, d ∈ s.store.pairingStore.trusted := by
    intro after h
    rw [h.devices]
    exact fun d hd => hd
  cases op with
  | confirmPairing requestId proof env =>
    have hsame : ∀ d ∈ (s.store.pruneLocked s.clock).pairingStore.trusted,
        d ∈ s.store.pairingStore.trusted := fun d hd => hd
    show _ ∨ ∀ d ∈ (s.store.confirmPairing s.clock requestId proof env).1.pairingStore.trusted, _
    unfold NativeSessionStore.confirmPairing
    simp only
    split
    · exact .inr hsame
    · rename_i item hitem
      split
      · exact .inr hsame
      · split
        · split
          · exact .inr hsame
          · exact .inr hsame
        · rename_i hproof
          split
          · rename_i hstate
            obtain ⟨hlookup, hlive⟩ := lookup_of_pruned_pairing hitem
            obtain rfl := hkeyed.key requestId item hlookup
            refine .inl ⟨item, env, hlookup, hlive, ?_⟩
            exact if_pos ⟨rfl, hstate, by simpa using hproof⟩
          · exact .inr hsame
          · exact .inr hsame
          · exact .inr hsame
  | approvePairing requestId env =>
    have hsame : ∀ d ∈ (s.store.pruneLocked s.clock).pairingStore.trusted,
        d ∈ s.store.pairingStore.trusted := fun d hd => hd
    show _ ∨ ∀ d ∈ (s.store.approvePairing s.clock requestId env).1.pairingStore.trusted, _
    unfold NativeSessionStore.approvePairing
    simp only
    split
    · exact .inr hsame
    · rename_i item hitem
      split
      · exact .inr hsame
      · exact .inr hsame
      · exact .inr hsame
      · exact .inr hsame
      · rename_i hstate
        obtain ⟨hlookup, hlive⟩ := lookup_of_pruned_pairing hitem
        obtain rfl := hkeyed.key requestId item hlookup
        exact .inl ⟨item, env, hlookup, hlive, if_pos ⟨rfl, hstate⟩⟩
  | revokeDevice deviceId env => exact .inr (revokeDevice_trusted s.store deviceId env)
  | revokeCurrentDevice credential ip env =>
    apply Or.inr
    show ∀ d ∈ (s.store.revokeCurrentDevice cfg credential ip env).1.pairingStore.trusted, _
    rcases revokeCurrentDevice_cases cfg s.store credential ip env with
      ⟨hstore, -⟩ | ⟨device, -, hstore, -⟩
    · rw [hstore]
      exact fun d hd => hd
    · rw [hstore]
      exact revokeDevice_trusted s.store device.id env
  | revokeAll env =>
    apply Or.inr
    show ∀ d ∈ (s.store.revokeAll env).1.pairingStore.trusted, _
    unfold NativeSessionStore.revokeAll PairingStore.revokeAll PairingStore.saveLocked
    cases env.saved
    · exact fun d hd => hd
    · intro d hd
      cases hd
  | beginPairingWindow | endPairingWindow => exact .inr fun d hd => hd
  | requestPairing body ip requestId =>
    apply Or.inr
    show ∀ d ∈ (s.store.requestPairing cfg s.clock body ip requestId).1.pairingStore.trusted, _
    rw [requestPairing_devices]
    exact fun d hd => hd
  | denyPairing requestId =>
    apply Or.inr
    show ∀ d ∈ (s.store.denyPairing s.clock requestId).1.pairingStore.trusted, _
    rw [denyPairing_devices]
    exact fun d hd => hd
  | pairingStatus => exact .inr (hspares spares_pairingStatus)
  | transferStatus => exact .inr (hspares spares_transferStatus)
  | requestTransfer => exact .inr (hspares spares_requestTransfer)
  | approveTransfer => exact .inr (hspares spares_approveTransfer)
  | denyTransfer => exact .inr (hspares spares_denyTransfer)
  | cancelTransfer => exact .inr (hspares spares_cancelTransfer)
  | authorizeTransfer => exact .inr (hspares spares_authorizeTransfer)
  | authorizeFile => exact .inr (hspares spares_authorizeFile)
  | markFileTerminal => exact .inr (hspares spares_markFileTerminal)

/-! ## A sender that wants to pair -/

/-- A receiver with the values of OpenSSL for one sender that wants to pair. -/
def pairingReceiver : NativeConfig where
  crypto := .tabulated
    [(ascii "a1a1a1a1a1a1a1a1a1a1a1a1a1a1a1a1a1a1a1a1a1a1a1a1a1a1a1a1a1a1a1a1",
      ascii "3490f80401886d12f3861ec190f5c16419b26345497a92bc4530e22f5d8b4295")]
    [((List.replicate 32 0xa1,
      canonical (ascii "LMT-WINDOWS-PAIR-CONFIRM-V1") ++
        canonical (ascii "00112233445566778899aabbccddeeff") ++
        canonical (ascii "b2b2b2b2b2b2b2b2b2b2b2b2b2b2b2b2b2b2b2b2b2b2b2b2b2b2b2b2b2b2b2b2")),
      ascii "f9fbec427fda2e6e19a1bc89cc703b38e7cc46e0b7d1161f54358aaec0a322ed")]
  serverId := ascii "receiver"
  environment := ascii "production"
  grantMaster := []
  isLocalSubnetAddress := fun _ => true

/-- The request of that sender. -/
def pairingBody : PairingBody where
  protocolVersion := 1
  environment := ascii "production"
  serverId := ascii "receiver"
  clientId := ascii "pc-1"
  clientName := ascii "PC"
  clientNonce := ascii "b2b2b2b2b2b2b2b2b2b2b2b2b2b2b2b2b2b2b2b2b2b2b2b2b2b2b2b2b2b2b2b2"
  credential := ascii "a1a1a1a1a1a1a1a1a1a1a1a1a1a1a1a1a1a1a1a1a1a1a1a1a1a1a1a1a1a1a1a1"

end LocalMediaTransfer
