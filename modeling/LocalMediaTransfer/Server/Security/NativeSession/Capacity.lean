import LocalMediaTransfer.Lib.Slots
import LocalMediaTransfer.Server.Security.NativeSession.Pairings

/-!
# Capacity of the native session store

Strangers on the local network can ask for pairings, and trusted senders for transfers.  The store
bounds what they can make it hold: active requests, requests of one device, decided requests that
stay visible, and attempts from one address.

* `Capacity` — the bounds; `StoreBounded` — the invariant behind them.
* `answer_without_decided_pairings`, `answer_without_decided_transfers` — decided requests do not
  change an answer.
* `native_store_capacity` — **the bounds hold in every run**.
-/

set_option autoImplicit false

namespace LocalMediaTransfer

open Lib

variable {cfg : NativeConfig} {s s' : NativeState} {store : NativeSessionStore} {now : Nat}
variable {x : NativeEntry} {id : ByteString}

/-! ## The bounds -/

def PairingRequest.isActive (r : PairingRequest) : Bool := r.state.isActive

/-- A transfer that takes a slot. -/
def TransferRequest.isLive (r : TransferRequest) : Bool :=
  r.state == .pending || r.state == .approved

def TransferRequest.isPending (r : TransferRequest) : Bool := r.state == .pending

/-- The pairing table within its limits. -/
abbrev PairingSlots (m : Table ByteString PairingRequest) : Prop :=
  Slots PairingRequest.isActive PairingRequest.isActive PairingRequest.deviceId 5 20 m

/-- The transfer table within its limits. -/
abbrev TransferSlots (m : Table ByteString TransferRequest) : Prop :=
  Slots TransferRequest.isLive TransferRequest.isPending TransferRequest.deviceId 10 40 m

abbrev PairingsBelow (m n : Table ByteString PairingRequest) : Prop :=
  Below PairingRequest.isActive PairingRequest.isActive PairingRequest.deviceId m n

abbrev TransfersBelow (m n : Table ByteString TransferRequest) : Prop :=
  Below TransferRequest.isLive TransferRequest.isPending TransferRequest.deviceId m n

/-- The time of a pairing request that was admitted from an address. -/
def NativeEntry.admitted (cfg : NativeConfig) (x : NativeEntry) (ip : ByteString) : Option Nat :=
  match x.opensPairing cfg with
  | some q => if q.ip = ip then some x.time else none
  | none => none

/-- The times of the pairing requests that were admitted from an address. -/
def admissions (cfg : NativeConfig) (log : List NativeEntry) (ip : ByteString) : List Nat :=
  log.filterMap fun x => x.admitted cfg ip

/-- The bounds. -/
structure Capacity (cfg : NativeConfig) (s : NativeState) : Prop where
  pairings : PairingSlots s.store.pairings
  transfers : TransferSlots s.store.transfers
  window : ∀ ip start, ((admissions cfg s.log ip).filter fun time =>
    start ≤ time && time ≤ start + 10 * 60).length ≤ 5

/-! ## Pairing requests -/

/-- What a call other than a pairing request makes of the pairings. -/
theorem below_of_pairingEffect {old new : Table ByteString PairingRequest}
    (h : ∀ id, PairingEffect cfg id x (old.lookup id) (new.lookup id))
    (hopens : x.opensPairing cfg = none) : PairingsBelow new old := by
  intro id r hr
  have heffect := h id
  rw [hr] at heffect
  cases heffect with
  | opened r request =>
    rw [hopens] at request
    cases request
  | moved r record live =>
    have hactive : (r.state.next cfg r x).isActive = true → r.state.isActive = true := by
      intro hactive
      by_contra hdecided
      rw [Bool.not_eq_true] at hdecided
      rw [PairState.next_of_decided hdecided, hdecided] at hactive
      cases hactive
    exact ⟨r, record, rfl, hactive, hactive⟩

theorem keyed_of_pairingEffect {after : NativeSessionStore} (hkeyed : store.KeyedPairings)
    (h : ∀ id, PairingEffect cfg id x (store.pairings.lookup id) (after.pairings.lookup id))
    (hopens : x.opensPairing cfg = none) : after.KeyedPairings := by
  have hmoved : ∀ id r, after.pairings.lookup id = some r →
      ∃ r₀ state, store.pairings.lookup id = some r₀ ∧ r = { r₀ with state } := by
    intro id r hr
    have heffect := h id
    rw [hr] at heffect
    cases heffect with
    | opened r request =>
      rw [hopens] at request
      cases request
    | moved r₀ record => exact ⟨r₀, _, record, rfl⟩
  constructor
  · intro id r hr
    obtain ⟨r₀, state, hr₀, rfl⟩ := hmoved id r hr
    exact hkeyed.key id r₀ hr₀
  · intro id r hr
    obtain ⟨r₀, state, hr₀, rfl⟩ := hmoved id r hr
    have hvalid := hkeyed.valid id r₀ hr₀
    exact ⟨hvalid.id_pos, hvalid.id_le, hvalid.name_le, hvalid.hash⟩

theorem foldl_oldest_isSome {ν : Type} {key : ν → Nat}
    (entries : List (Sigma fun _ : ByteString => ν)) {best : Option (Sigma fun _ : ByteString => ν)}
    (h : best.isSome = true ∨ entries ≠ []) :
    (entries.foldl (fun best e =>
      match best with
      | none => some e
      | some b => if key e.2 < key b.2 then some e else some b) best).isSome = true := by
  induction entries generalizing best with
  | nil => simpa using h
  | cons a rest ih =>
    rw [List.foldl_cons]
    apply ih
    apply Or.inl
    cases best with
    | none => rfl
    | some b =>
      simp only
      split <;> rfl

/-- `eraseOldest` makes room when there is an entry it may erase. -/
theorem length_eraseOldest {ν : Type} {p : ν → Bool} (key : ν → Nat) {table : Table ByteString ν}
    (h : ∃ e ∈ table.entries, p e.2 = true) :
    (eraseOldest p key table).entries.length < table.entries.length := by
  obtain ⟨e, he, hp⟩ := h
  have hsome : (oldest p key table.entries).isSome = true := by
    unfold oldest
    rw [Option.isSome_map]
    apply foldl_oldest_isSome
    apply Or.inr
    exact List.ne_nil_of_mem (List.mem_filter.mpr ⟨he, hp⟩)
  obtain ⟨victim, hvictim⟩ := Option.isSome_iff_exists.mp hsome
  obtain ⟨v, hv, -⟩ := oldest_spec hvictim
  unfold eraseOldest
  rw [hvictim]
  have hmem : victim ∈ table.entries.keys :=
    List.mem_keys_of_mem (Table.lookup_eq_some_iff.mp hv)
  obtain ⟨w, l₁, l₂, -, hentries, hkerase⟩ := List.exists_of_kerase hmem
  show (List.kerase victim table.entries).length < _
  rw [hkerase, hentries]
  simp

/-- Room for one more entry, once the oldest decided one is gone. -/
theorem room_of_count {ν : Type} (live : ν → Bool) {p : ν → Bool} (key : ν → Nat)
    (limit : Nat) {size : Nat}
    {table : Table ByteString ν} (hp : ∀ e ∈ table.entries, live e.2 = false → p e.2 = true)
    (hcount : table.entries.countP (fun e => live e.2) < limit) (hlimit : limit ≤ size)
    (hlength : table.entries.length ≤ size) :
    (if size ≤ table.entries.length then eraseOldest p key table else table).entries.length <
      size := by
  split
  · rename_i hfull
    have hlive : table.entries.countP (fun e => live e.2) < table.entries.length := by omega
    obtain ⟨e, he, hdead⟩ := List.countP_lt_length_iff.mp hlive
    have hroom := length_eraseOldest key ⟨e, he, hp e he (by simpa using hdead)⟩
    omega
  · omega

/-- The checks that an admitted pairing request has passed. -/
theorem requestPairing_admitted {body : PairingBody} {ip requestId : ByteString}
    (h : (store.requestPairing cfg now body ip requestId).2.status = 202) :
    (store.pruneLocked now).pairings.entries.countP (fun e => e.2.isActive) < 5 ∧
      (∀ id r, (store.pruneLocked now).pairings.lookup id = some r → r.isActive = true →
        r.deviceId ≠ body.clientId) ∧
      ((store.pruneLocked now).attemptsOf ip).length < 5 ∧
      (store.requestPairing cfg now body ip requestId).1.pairingAttempts =
        (store.pruneLocked now).pairingAttempts.insert ip
          ((store.pruneLocked now).attemptsOf ip ++ [now]) := by
  unfold NativeSessionStore.requestPairing at h ⊢
  split at h
  · simp [nativeError] at h
  · rename_i hlocal
    rw [if_neg hlocal]
    split at h
    · simp [nativeError] at h
    · rename_i hvalid
      rw [if_neg hvalid]
      simp only at h ⊢
      split at h
      · simp [nativeError] at h
      · rename_i hwindow
        rw [if_neg hwindow]
        split at h
        · simp [nativeError] at h
        · rename_i hslot
          rw [if_neg hslot]
          split at h
          · simp at h
          · rename_i hattempts
            rw [if_neg hattempts]
            simp only [Bool.or_eq_true, not_or, decide_eq_true_iff, not_le, Bool.not_eq_true,
              List.any_eq_false, Bool.and_eq_true, not_and, beq_iff_eq] at hslot
            refine ⟨hslot.1, ?_, Nat.lt_of_not_le hattempts, rfl⟩
            intro id r hr hactive hdevice
            have hmem := Table.lookup_eq_some_iff.mp hr
            have hdecided := hslot.2 ⟨id, r⟩ hmem hdevice
            rw [show r.state.isActive = true from hactive] at hdecided
            cases hdecided

theorem requestPairing_refused {body : PairingBody} {ip requestId : ByteString}
    (h : (store.requestPairing cfg now body ip requestId).2.status ≠ 202) :
    KeepsAttempts store now (store.requestPairing cfg now body ip requestId).1 := by
  unfold NativeSessionStore.requestPairing at h ⊢
  split at h
  · rename_i hlocal
    rw [if_pos hlocal]
    exact .refl
  · rename_i hlocal
    rw [if_neg hlocal]
    split at h
    · rename_i hvalid
      rw [if_pos hvalid]
      exact .refl
    · rename_i hvalid
      rw [if_neg hvalid]
      simp only at h ⊢
      split at h
      · rename_i hwindow
        rw [if_pos hwindow]
        exact .prune
      · rename_i hwindow
        rw [if_neg hwindow]
        split at h
        · rename_i hslot
          rw [if_pos hslot]
          exact .prune
        · rename_i hslot
          rw [if_neg hslot]
          split at h
          · rename_i hattempts
            rw [if_pos hattempts]
            intro ip'
            refine .inr ?_
            rw [← attemptsOf_prune]
            unfold NativeSessionStore.attemptsOf
            by_cases hip : ip' = ip
            · subst hip
              simp only [AList.lookup_insert]
              rfl
            · simp only [AList.lookup_insert_ne hip]
          · exact absurd rfl h

theorem pairings_pruned_below : PairingsBelow (store.pruneLocked now).pairings store.pairings :=
  Below.filter _

theorem retirePairings_below (m : Table ByteString PairingRequest) (deviceId : ByteString) :
    PairingsBelow (NativeSessionStore.retirePairings m deviceId) m := by
  apply Below.of_lookup
  intro k
  exact (lookup_retirePairings m deviceId k).imp_right fun h => h.1

theorem retirePairings_room {m : Table ByteString PairingRequest} (deviceId : ByteString)
    (h : PairingSlots m) (hcount : m.entries.countP (fun e => e.2.isActive) < 5) :
    (NativeSessionStore.retirePairings m deviceId).entries.length < 20 := by
  have hfilter : PairingsBelow (m.filter fun _ item =>
      !(item.deviceId == deviceId && !item.state.isActive)) m := Below.filter _
  refine room_of_count PairingRequest.isActive (·.expiresAt) 5 ?_
    (Nat.lt_of_le_of_lt hfilter.count hcount) (by decide) (h.below hfilter).length
  intro e _ hdead
  show (!e.2.state.isActive) = true
  rw [show e.2.state.isActive = false from hdead]
  rfl

theorem requestPairing_slots {body : PairingBody} {ip requestId : ByteString}
    (h : PairingSlots store.pairings) :
    PairingSlots (store.requestPairing cfg now body ip requestId).1.pairings := by
  rcases requestPairing_cases cfg store now body ip requestId with
    ⟨-, htable | htable⟩ | ⟨hresult, -, htable⟩
  · rw [htable]
    exact h
  · rw [htable]
    exact h.below pairings_pruned_below
  · have hstatus : (store.requestPairing cfg now body ip requestId).2.status = 202 := by
      rw [hresult]
    obtain ⟨hcount, hone, -⟩ := requestPairing_admitted hstatus
    have hpruned : PairingSlots (store.pruneLocked now).pairings := h.below pairings_pruned_below
    have hretire := retirePairings_below (store.pruneLocked now).pairings body.clientId
    rw [htable]
    apply (hpruned.below hretire).emplace
    · exact Nat.lt_of_le_of_lt hretire.count hcount
    · intro k r hr hactive
      obtain ⟨r', hr', hdevice, hactive', -⟩ := hretire k r hr
      rw [hdevice]
      exact hone k r' hr' (hactive' hactive)
    · exact retirePairings_room body.clientId hpruned hcount

/-! ## Transfer requests -/

theorem transfers_pruned_below : TransfersBelow (store.pruneLocked now).transfers store.transfers :=
  Below.filter _

theorem Prunes.below {after : NativeSessionStore} (h : Prunes store now after) :
    TransfersBelow after.transfers store.transfers := by
  rcases h with h | h
  · rw [h]
    exact .refl
  · rw [h]
    exact transfers_pruned_below

/-- A change of a record that keeps its device and opens nothing. -/
theorem updateTransfer_below {key : ByteString} {old item : TransferRequest}
    (hold : store.transfers.lookup key = some old) (hdevice : item.deviceId = old.deviceId)
    (hlive : item.isLive = true → old.isLive = true)
    (hpending : item.isPending = true → old.isPending = true) :
    TransfersBelow (store.updateTransfer key item).transfers store.transfers := by
  apply Below.update
  intro old' hold'
  obtain rfl := Option.some.inj (hold.symm.trans hold')
  exact ⟨hdevice, hlive, hpending⟩

theorem approveTransfer_below {requestId : ByteString} :
    TransfersBelow (store.approveTransfer now requestId).1.transfers store.transfers := by
  unfold NativeSessionStore.approveTransfer
  simp only
  split
  · exact transfers_pruned_below
  · rename_i item hitem
    split
    · rename_i hstate
      refine Below.trans (updateTransfer_below hitem ?_ ?_ ?_) transfers_pruned_below
      · rfl
      · intro _
        simp [TransferRequest.isLive, hstate]
      · intro hpending
        cases hpending
    · exact transfers_pruned_below

theorem denyTransfer_below {requestId : ByteString} :
    TransfersBelow (store.denyTransfer requestId).1.transfers store.transfers := by
  unfold NativeSessionStore.denyTransfer
  split
  · exact .refl
  · rename_i item hitem
    refine updateTransfer_below hitem ?_ ?_ ?_
    · rfl
    · intro hlive
      cases hlive
    · intro hpending
      cases hpending

theorem cancelTransfer_below {transferId token : ByteString} :
    TransfersBelow (store.cancelTransfer cfg transferId token).1.transfers store.transfers := by
  unfold NativeSessionStore.cancelTransfer
  split
  · exact .refl
  · rename_i e he
    refine updateTransfer_below (mem_of_find? he).1 ?_ ?_ ?_
    · rfl
    · intro hlive
      cases hlive
    · intro hpending
      cases hpending

theorem authorizeTransfer_below {token transferId : ByteString} :
    TransfersBelow (store.authorizeTransfer cfg now token transferId).1.transfers
      store.transfers := by
  unfold NativeSessionStore.authorizeTransfer
  split
  · exact .refl
  · simp only
    split
    · exact transfers_pruned_below
    · rename_i key item hgrant
      refine Below.trans (updateTransfer_below (findGrant_spec hgrant).1 ?_ ?_ ?_)
        transfers_pruned_below
      · rfl
      · exact fun h => h
      · exact fun h => h

theorem authorizeFile_below {token transferId fileId name : ByteString} {sizeBytes : Nat}
    {skip : Bool} :
    TransfersBelow
      (store.authorizeFile cfg now token transferId fileId name sizeBytes skip).1.transfers
      store.transfers := by
  unfold NativeSessionStore.authorizeFile
  simp only
  split
  · exact transfers_pruned_below
  · rename_i key item hgrant
    split
    · exact transfers_pruned_below
    · split
      · refine Below.trans (updateTransfer_below (findGrant_spec hgrant).1 ?_ ?_ ?_)
          transfers_pruned_below
        · rfl
        · exact fun h => h
        · exact fun h => h
      · exact transfers_pruned_below

theorem markFileTerminal_below {transferId fileId : ByteString} :
    TransfersBelow (store.markFileTerminal transferId fileId).transfers store.transfers := by
  unfold NativeSessionStore.markFileTerminal
  split
  · exact .refl
  · rename_i e he
    split
    · exact .refl
    · refine updateTransfer_below (mem_of_find? he).1 ?_ ?_ ?_
      · rfl
      · exact fun h => h
      · exact fun h => h

theorem revokedTransfers_below {deviceId : ByteString} :
    TransfersBelow (store.revokeDeviceLocked deviceId).transfers store.transfers := by
  apply Below.mapVal
  intro k r
  split
  · refine ⟨rfl, ?_, ?_⟩
    · intro h
      cases h
    · intro h
      cases h
  · exact ⟨rfl, fun h => h, fun h => h⟩

theorem revokeDevice_below {deviceId : ByteString} {env : StoreEnv} :
    TransfersBelow (store.revokeDevice deviceId env).1.transfers store.transfers := by
  rcases revokeDevice_cases store deviceId env with ⟨-, htable⟩ | ⟨-, htable⟩
  · rw [htable]
    exact revokedTransfers_below
  · rw [htable]
    exact .refl

theorem revokeCurrentDevice_below {credential ip : ByteString} {env : StoreEnv} :
    TransfersBelow (store.revokeCurrentDevice cfg credential ip env).1.transfers
      store.transfers := by
  rcases revokeCurrentDevice_cases cfg store credential ip env with
    ⟨hstore, -⟩ | ⟨device, -, hstore, -⟩
  · rw [hstore]
    exact .refl
  · rw [hstore]
    exact revokeDevice_below

theorem revokeAll_below {env : StoreEnv} :
    TransfersBelow (store.revokeAll env).1.transfers store.transfers := by
  unfold NativeSessionStore.revokeAll
  simp only
  split
  · exact .refl
  · intro k r hr
    cases hr

theorem retireTransfers_below (m : Table ByteString TransferRequest) :
    TransfersBelow (NativeSessionStore.retireTransfers m) m := by
  apply Below.of_lookup
  exact lookup_retireTransfers m

/-- The checks that an admitted transfer request has passed. -/
theorem requestTransfer_admitted {body : TransferBody} {credential ip requestId : ByteString}
    {device : TrustedDevice}
    (hdevice : findTrusted cfg.crypto store.pairingStore.trusted credential = some device)
    (h : (store.requestTransfer cfg now body credential ip requestId).2.status = 202) :
    (store.pruneLocked now).transfers.entries.countP (fun e => e.2.isLive) < 10 ∧
      ∀ id r, (store.pruneLocked now).transfers.lookup id = some r → r.isPending = true →
        r.deviceId ≠ device.id := by
  unfold NativeSessionStore.requestTransfer at h
  rw [show store.pairingStore.findDeviceByCredential cfg.crypto credential = some device from
    hdevice] at h
  split at h
  · simp [nativeError] at h
  · simp only at h
    split at h
    · simp [nativeError] at h
    · split at h
      · simp [nativeError] at h
      · split at h
        · simp [nativeError] at h
        · split at h
          · simp [nativeError] at h
          · rename_i hslot
            simp only [Bool.or_eq_true, not_or, decide_eq_true_iff, not_le, Bool.not_eq_true,
              List.any_eq_false, Bool.and_eq_true, not_and, beq_iff_eq] at hslot
            refine ⟨hslot.1, ?_⟩
            intro id r hr hpending hid
            have hmem := Table.lookup_eq_some_iff.mp hr
            exact hslot.2 ⟨id, r⟩ hmem hid (beq_iff_eq.mp hpending)

theorem retireTransfers_room {m : Table ByteString TransferRequest} (h : TransferSlots m)
    (hcancelled : ∀ e ∈ m.entries, e.2.state ≠ .cancelled)
    (hcount : m.entries.countP (fun e => e.2.isLive) < 10) :
    (NativeSessionStore.retireTransfers m).entries.length < 40 := by
  refine room_of_count TransferRequest.isLive (·.createdAt) 10 ?_ hcount
    (by decide) h.length
  intro e he hdead
  have hstate := hcancelled e he
  unfold TransferRequest.isLive at hdead
  cases hs : e.2.state with
  | pending | approved =>
    rw [hs] at hdead
    cases hdead
  | denied => rfl
  | cancelled => exact absurd hs hstate

theorem pruned_not_cancelled :
    ∀ e ∈ (store.pruneLocked now).transfers.entries, e.2.state ≠ .cancelled := by
  intro e he hstate
  have hlive := (lookup_of_pruneLocked (Table.lookup_eq_some_iff.mpr he)).2
  simp [TransferRequest.prunable, hstate] at hlive

theorem requestTransfer_slots {body : TransferBody} {credential ip requestId : ByteString}
    (h : TransferSlots store.transfers) :
    TransferSlots (store.requestTransfer cfg now body credential ip requestId).1.transfers := by
  rcases requestTransfer_cases cfg store now body credential ip requestId with
    ⟨hprunes, -⟩ | ⟨device, files, hdevice, -, -, hresult, htable⟩
  · exact h.below hprunes.below
  · have hstatus : (store.requestTransfer cfg now body credential ip requestId).2.status = 202 := by
      rw [hresult]
    obtain ⟨hcount, hone⟩ := requestTransfer_admitted hdevice hstatus
    have hpruned : TransferSlots (store.pruneLocked now).transfers :=
      h.below transfers_pruned_below
    have hretire := retireTransfers_below (store.pruneLocked now).transfers
    rw [htable]
    apply (hpruned.below hretire).emplace
    · exact Nat.lt_of_le_of_lt hretire.count hcount
    · intro k r hr hpending
      obtain ⟨r', hr', hid, -, hpending'⟩ := hretire k r hr
      rw [hid]
      exact hone k r' hr' (hpending' hpending)
    · exact retireTransfers_room hpruned pruned_not_cancelled hcount

/-- Every call keeps the transfers within their limits. -/
theorem call_transferSlots (h : TransferSlots store.transfers) (op : NativeOp) :
    TransferSlots (store.call cfg now op).1.transfers := by
  cases op with
  | beginPairingWindow | endPairingWindow => exact h
  | requestPairing => exact h.below prunes_requestPairing.below
  | confirmPairing => exact h.below prunes_confirmPairing.below
  | pairingStatus => exact h.below prunes_pairingStatus.below
  | approvePairing => exact h.below prunes_approvePairing.below
  | denyPairing => exact h.below prunes_denyPairing.below
  | transferStatus => exact h.below prunes_transferStatus.below
  | requestTransfer => exact requestTransfer_slots h
  | approveTransfer => exact h.below approveTransfer_below
  | denyTransfer => exact h.below denyTransfer_below
  | cancelTransfer => exact h.below cancelTransfer_below
  | authorizeTransfer => exact h.below authorizeTransfer_below
  | authorizeFile => exact h.below authorizeFile_below
  | markFileTerminal => exact h.below markFileTerminal_below
  | revokeDevice => exact h.below revokeDevice_below
  | revokeCurrentDevice => exact h.below revokeCurrentDevice_below
  | revokeAll => exact h.below revokeAll_below

/-! ## Attempts -/

theorem KeepsAttempts.of_pruned {after : NativeSessionStore}
    (h : after.pairingAttempts = (store.pruneLocked now).pairingAttempts) :
    KeepsAttempts store now after := by
  intro ip
  apply Or.inr
  rw [← attemptsOf_prune]
  unfold NativeSessionStore.attemptsOf
  rw [h]

theorem KeepsAttempts.of_same {after : NativeSessionStore}
    (h : after.pairingAttempts = store.pairingAttempts) : KeepsAttempts store now after := by
  intro ip
  apply Or.inl
  unfold NativeSessionStore.attemptsOf
  rw [h]

theorem confirmPairing_attempts {requestId proof : ByteString} {env : StoreEnv} :
    KeepsAttempts store now (store.confirmPairing now requestId proof env).1 := by
  unfold NativeSessionStore.confirmPairing
  simp only
  repeat' split
  all_goals exact .of_pruned rfl

theorem approvePairing_attempts {requestId : ByteString} {env : StoreEnv} :
    KeepsAttempts store now (store.approvePairing now requestId env).1 := by
  unfold NativeSessionStore.approvePairing
  simp only
  repeat' split
  all_goals exact .of_pruned rfl

theorem denyPairing_attempts {requestId : ByteString} :
    KeepsAttempts store now (store.denyPairing now requestId).1 := by
  unfold NativeSessionStore.denyPairing
  simp only
  repeat' split
  all_goals exact .of_pruned rfl

theorem revokeDevice_attempts {deviceId : ByteString} {env : StoreEnv} :
    (store.revokeDevice deviceId env).1.pairingAttempts = store.pairingAttempts := by
  unfold NativeSessionStore.revokeDevice
  simp only
  split <;> rfl

theorem revokeCurrentDevice_attempts {credential ip : ByteString} {env : StoreEnv} :
    (store.revokeCurrentDevice cfg credential ip env).1.pairingAttempts =
    store.pairingAttempts := by
  rcases revokeCurrentDevice_cases cfg store credential ip env with
    ⟨hstore, -⟩ | ⟨device, -, hstore, -⟩
  · rw [hstore]
  · rw [hstore]
    exact revokeDevice_attempts

theorem revokeAll_attempts {env : StoreEnv} :
    (store.revokeAll env).1.pairingAttempts = store.pairingAttempts := by
  unfold NativeSessionStore.revokeAll
  simp only
  split <;> rfl

/-- A call that is no pairing request. -/
def NativeOp.isPairingRequest : NativeOp → Bool
  | .requestPairing .. => true
  | _ => false

theorem call_attempts {op : NativeOp} (h : op.isPairingRequest = false) :
    KeepsAttempts store now (store.call cfg now op).1 := by
  cases op with
  | requestPairing => cases h
  | beginPairingWindow | endPairingWindow => exact .of_same rfl
  | confirmPairing => exact confirmPairing_attempts
  | approvePairing => exact approvePairing_attempts
  | denyPairing => exact denyPairing_attempts
  | pairingStatus => exact spares_pairingStatus.attempts
  | transferStatus => exact spares_transferStatus.attempts
  | requestTransfer => exact spares_requestTransfer.attempts
  | approveTransfer => exact spares_approveTransfer.attempts
  | denyTransfer => exact spares_denyTransfer.attempts
  | cancelTransfer => exact spares_cancelTransfer.attempts
  | authorizeTransfer => exact spares_authorizeTransfer.attempts
  | authorizeFile => exact spares_authorizeFile.attempts
  | markFileTerminal => exact spares_markFileTerminal.attempts
  | revokeDevice => exact .of_same revokeDevice_attempts
  | revokeCurrentDevice => exact .of_same revokeCurrentDevice_attempts
  | revokeAll => exact .of_same revokeAll_attempts

theorem opensPairing_of_other {op : NativeOp} (h : op.isPairingRequest = false) :
    (s.entry cfg op).opensPairing cfg = none := by
  cases op with
  | requestPairing => cases h
  | _ => rfl

/-- The attempts that the store remembers are the recent admissions. -/
def Remembers (cfg : NativeConfig) (s : NativeState) : Prop :=
  ∀ ip, (s.store.attemptsOf ip).filter (recent s.clock) =
    (admissions cfg s.log ip).filter (recent s.clock)

/-- At most five admissions from one address in ten minutes. -/
def Limited (times : List Nat) : Prop :=
  ∀ start, (times.filter fun time => start ≤ time && time ≤ start + 10 * 60).length ≤ 5

theorem filter_recent (times : List Nat) {earlier later : Nat} (h : earlier ≤ later) :
    (times.filter (recent earlier)).filter (recent later) = times.filter (recent later) := by
  rw [List.filter_filter]
  apply List.filter_congr
  intro time _
  simp only [recent]
  rw [Bool.eq_iff_iff]
  simp only [Bool.and_eq_true, Bool.not_eq_true', decide_eq_false_iff_not, not_lt]
  omega

theorem Remembers.of_keeps (h : Remembers cfg s) {after : NativeSessionStore}
    (hkeeps : KeepsAttempts s.store s.clock after) (ip : ByteString) :
    (after.attemptsOf ip).filter (recent s.clock) =
      (admissions cfg s.log ip).filter (recent s.clock) := by
  rcases hkeeps ip with hsame | hpruned
  · rw [hsame]
    exact h ip
  · rw [hpruned, filter_recent _ (Nat.le_refl _)]
    exact h ip

theorem admissions_snoc (log : List NativeEntry) (x : NativeEntry) (ip : ByteString) :
    admissions cfg (log ++ [x]) ip = admissions cfg log ip ++ (x.admitted cfg ip).toList := by
  unfold admissions
  rw [List.filterMap_append]
  cases hx : x.admitted cfg ip <;> simp [hx]

/-- One more admission fits when there were fewer than five recent ones. -/
theorem Limited.snoc {times : List Nat} (h : Limited times)
    (hrecent : (times.filter (recent now)).length < 5) : Limited (times ++ [now]) := by
  intro start
  rw [List.filter_append, List.length_append]
  by_cases hwindow : start ≤ now ∧ now ≤ start + 10 * 60
  · have hsub : ((times.filter fun time => start ≤ time && time ≤ start + 10 * 60)).length ≤
        (times.filter (recent now)).length := by
      apply List.Sublist.length_le
      apply List.monotone_filter_right
      intro time htime
      simp only [Bool.and_eq_true, decide_eq_true_iff] at htime
      show (!decide (time + 600 < now)) = true
      rw [Bool.not_eq_true', decide_eq_false_iff_not]
      omega
    have hone : ([now].filter fun time => start ≤ time && time ≤ start + 10 * 60).length ≤ 1 :=
      List.length_filter_le _ _
    omega
  · have hnone : [now].filter (fun time => start ≤ time && time ≤ start + 10 * 60) = [] := by
      rw [List.filter_cons_of_neg, List.filter_nil]
      simpa using hwindow
    rw [hnone]
    exact h start

/-- What an admitted request does to the attempts. -/
theorem attemptsOf_admitted {body : PairingBody} {ip requestId : ByteString}
    (h : (store.requestPairing cfg now body ip requestId).2.status = 202) (ip' : ByteString) :
    (store.requestPairing cfg now body ip requestId).1.attemptsOf ip' =
      (store.attemptsOf ip').filter (recent now) ++ if ip' = ip then [now] else [] := by
  obtain ⟨-, -, -, hattempts⟩ := requestPairing_admitted h
  have hlookup : (store.requestPairing cfg now body ip requestId).1.attemptsOf ip' =
      (((store.pruneLocked now).pairingAttempts.insert ip
        ((store.pruneLocked now).attemptsOf ip ++ [now])).lookup ip').getD [] := by
    unfold NativeSessionStore.attemptsOf
    rw [hattempts]
    rfl
  rw [hlookup]
  by_cases hip : ip' = ip
  · subst hip
    rw [AList.lookup_insert, if_pos rfl, ← attemptsOf_prune]
    rfl
  · rw [AList.lookup_insert_ne hip, if_neg hip, List.append_nil, ← attemptsOf_prune]
    rfl

theorem admitted_of_request {body : PairingBody} {ip requestId ip' : ByteString} :
    (s.entry cfg (.requestPairing body ip requestId)).admitted cfg ip' =
      if (s.store.requestPairing cfg s.clock body ip requestId).2.status = 202 ∧ ip' = ip then
        some s.clock else none := by
  rcases requestPairing_cases cfg s.store s.clock body ip requestId with
    ⟨hstatus, -⟩ | ⟨hresult, -, -⟩
  · rw [if_neg (fun h => hstatus h.1)]
    have hnone : (s.entry cfg (.requestPairing body ip requestId)).opensPairing cfg = none := by
      have hanswer : (s.entry cfg (.requestPairing body ip requestId)).answer =
          .result (s.store.requestPairing cfg s.clock body ip requestId).2 := rfl
      generalize (s.store.requestPairing cfg s.clock body ip requestId).2 =
        result at hstatus hanswer
      obtain ⟨status, out⟩ := result
      simp only [NativeEntry.opensPairing, hanswer]
      split
      · rename_i heq
        simp only [NativeAnswer.result.injEq, NativeResult.mk.injEq] at heq
        exact absurd heq.1 hstatus
      · rfl
    simp only [NativeEntry.admitted, hnone]
  · have hopens : (s.entry cfg (.requestPairing body ip requestId)).opensPairing cfg =
        some (body.toRequest cfg s.clock ip requestId) := by
      have hanswer : (s.entry cfg (.requestPairing body ip requestId)).answer =
          .result (s.store.requestPairing cfg s.clock body ip requestId).2 := rfl
      rw [hresult] at hanswer
      simp only [NativeEntry.opensPairing, hanswer]
      rfl
    simp only [NativeEntry.admitted, hopens, hresult, true_and]
    by_cases hip : ip' = ip
    · subst hip
      exact (if_pos rfl).trans (if_pos rfl).symm
    · exact (if_neg fun h => hip h.symm).trans (if_neg hip).symm

/-- **Calls keep the attempts and the window.** -/
theorem call_window (h : Remembers cfg s) (hlimit : ∀ ip, Limited (admissions cfg s.log ip))
    (op : NativeOp) :
    Remembers cfg (s.after cfg op) ∧ ∀ ip, Limited (admissions cfg (s.after cfg op).log ip) := by
  have hlog : ∀ ip, admissions cfg (s.after cfg op).log ip =
      admissions cfg s.log ip ++ ((s.entry cfg op).admitted cfg ip).toList :=
    fun ip => admissions_snoc s.log (s.entry cfg op) ip
  have hkept : KeepsAttempts s.store s.clock (s.store.call cfg s.clock op).1 →
      (∀ ip, (s.entry cfg op).admitted cfg ip = none) →
      Remembers cfg (s.after cfg op) ∧ ∀ ip, Limited (admissions cfg (s.after cfg op).log ip) := by
    intro hkeeps hnone
    constructor
    · intro ip
      rw [hlog, hnone, Option.toList_none, List.append_nil]
      exact h.of_keeps hkeeps ip
    · intro ip
      rw [hlog, hnone, Option.toList_none, List.append_nil]
      exact hlimit ip
  by_cases hop : op.isPairingRequest = true
  · obtain ⟨body, ip, requestId, rfl⟩ : ∃ body ip requestId, op =
      .requestPairing body ip requestId := by
      cases op with
      | requestPairing body ip requestId => exact ⟨body, ip, requestId, rfl⟩
      | _ => cases hop
    by_cases hstatus : (s.store.requestPairing cfg s.clock body ip requestId).2.status = 202
    · have hadmitted : ∀ ip', ((s.entry cfg (.requestPairing body ip requestId)).admitted
          cfg ip').toList = if ip' = ip then [s.clock] else [] := by
        intro ip'
        rw [admitted_of_request]
        by_cases hip : ip' = ip <;> simp [hip, hstatus]
      constructor
      · intro ip'
        show ((s.store.requestPairing cfg s.clock body ip requestId).1.attemptsOf ip').filter
          (recent s.clock) = _
        rw [hlog, attemptsOf_admitted hstatus, hadmitted, List.filter_append, List.filter_append,
          filter_recent _ (Nat.le_refl _)]
        exact congrArg (· ++ _) (h ip')
      · intro ip'
        rw [hlog, hadmitted]
        by_cases hip : ip' = ip
        · subst hip
          rw [if_pos rfl]
          apply (hlimit ip').snoc
          rw [← h ip', ← attemptsOf_prune]
          exact (requestPairing_admitted hstatus).2.2.1
        · rw [if_neg hip, List.append_nil]
          exact hlimit ip'
    · apply hkept
      · exact requestPairing_refused hstatus
      · intro ip'
        rw [admitted_of_request, if_neg (fun h => hstatus h.1)]
  · rw [Bool.not_eq_true] at hop
    apply hkept
    · exact call_attempts hop
    · intro ip
      simp only [NativeEntry.admitted, opensPairing_of_other hop]

/-! ## Decided requests do not count -/

theorem countP_filter_live {α : Type} (live p : α → Bool) (l : List α) :
    ((l.filter live).filter p).countP live = (l.filter p).countP live := by
  rw [List.countP_filter, List.countP_filter, List.countP_filter]
  apply List.countP_congr
  intro a _
  cases live a <;> simp

theorem any_filter_live {α : Type} (live p q : α → Bool) (hq : ∀ a, q a = true → live a = true)
    (l : List α) : ((l.filter live).filter p).any q = (l.filter p).any q := by
  rw [Bool.eq_iff_iff, List.any_eq_true, List.any_eq_true]
  constructor
  · rintro ⟨a, ha, hqa⟩
    rw [List.mem_filter, List.mem_filter] at ha
    exact ⟨a, List.mem_filter.mpr ⟨ha.1.1, ha.2⟩, hqa⟩
  · rintro ⟨a, ha, hqa⟩
    rw [List.mem_filter] at ha
    exact ⟨a, List.mem_filter.mpr ⟨List.mem_filter.mpr ⟨ha.1, hq a hqa⟩, ha.2⟩, hqa⟩

/-- The store without its decided pairing requests. -/
def NativeSessionStore.withoutDecidedPairings (store : NativeSessionStore) : NativeSessionStore :=
  { store with pairings := store.pairings.filter fun _ item => item.isActive }

/-- The store without its decided transfer requests. -/
def NativeSessionStore.withoutDecidedTransfers (store : NativeSessionStore) : NativeSessionStore :=
  { store with transfers := store.transfers.filter fun _ item => item.isLive }

/-- Decided pairing requests do not change the answer to a new one. -/
theorem answer_without_decided_pairings (body : PairingBody) (ip requestId : ByteString) :
    (store.withoutDecidedPairings.requestPairing cfg now body ip requestId).2 =
      (store.requestPairing cfg now body ip requestId).2 := by
  have hcount : (store.withoutDecidedPairings.pruneLocked now).pairings.entries.countP
      (fun e => e.2.state.isActive) =
      (store.pruneLocked now).pairings.entries.countP fun e => e.2.state.isActive :=
    countP_filter_live (fun e => e.2.state.isActive) _ store.pairings.entries
  have hany : (store.withoutDecidedPairings.pruneLocked now).pairings.entries.any
      (fun e => e.2.deviceId == body.clientId && e.2.state.isActive) =
      (store.pruneLocked now).pairings.entries.any fun e =>
        e.2.deviceId == body.clientId && e.2.state.isActive := by
    apply any_filter_live (fun e : Sigma fun _ : ByteString => PairingRequest => e.2.state.isActive)
    intro e he
    exact (Bool.and_eq_true_iff.mp he).2
  have hwindow : (store.withoutDecidedPairings.pruneLocked now).pairingWindowExpiresAt =
      (store.pruneLocked now).pairingWindowExpiresAt := rfl
  have hattempts : (store.withoutDecidedPairings.pruneLocked now).pairingAttempts =
      (store.pruneLocked now).pairingAttempts := rfl
  unfold NativeSessionStore.requestPairing
  simp only [hcount, hany, hwindow, hattempts, apply_ite Prod.snd]

/-- Decided transfer requests do not change the answer to a new one. -/
theorem answer_without_decided_transfers (body : TransferBody)
    (credential ip requestId : ByteString) :
    (store.withoutDecidedTransfers.requestTransfer cfg now body credential ip requestId).2 =
      (store.requestTransfer cfg now body credential ip requestId).2 := by
  have hcount : (store.withoutDecidedTransfers.pruneLocked now).transfers.entries.countP
      (fun e => e.2.state == .pending || e.2.state == .approved) =
      (store.pruneLocked now).transfers.entries.countP fun e =>
        e.2.state == .pending || e.2.state == .approved :=
    countP_filter_live (fun e => e.2.state == .pending || e.2.state == .approved) _
      store.transfers.entries
  have hany : ∀ device : TrustedDevice,
      (store.withoutDecidedTransfers.pruneLocked now).transfers.entries.any
        (fun e => e.2.deviceId == device.id && e.2.state == .pending) =
      (store.pruneLocked now).transfers.entries.any fun e =>
        e.2.deviceId == device.id && e.2.state == .pending := by
    intro device
    apply any_filter_live (fun e : Sigma fun _ : ByteString => TransferRequest => e.2.isLive)
    intro e he
    exact Bool.or_eq_true_iff.mpr (.inl (Bool.and_eq_true_iff.mp he).2)
  have hdevices : store.withoutDecidedTransfers.pairingStore = store.pairingStore := rfl
  unfold NativeSessionStore.requestTransfer
  simp only [hcount, hany, hdevices]
  split
  · rfl
  · split
    · rfl
    · split
      · rfl
      · split
        · rfl
        · split
          · rfl
          · simp only [apply_ite Prod.snd]

/-! ## Runs -/

/-- The invariant behind the bounds. -/
structure StoreBounded (cfg : NativeConfig) (s : NativeState) : Prop where
  keyed : s.store.KeyedPairings
  pairings : PairingSlots s.store.pairings
  transfers : TransferSlots s.store.transfers
  remembers : Remembers cfg s
  limited : ∀ ip, Limited (admissions cfg s.log ip)

theorem StoreBounded.init (pairingStore : PairingStore) (clock : Nat) :
    StoreBounded cfg (.init pairingStore clock) where
  keyed := by
    constructor
    · intro id r hr
      cases hr
    · intro id r hr
      cases hr
  pairings := .empty
  transfers := .empty
  remembers := fun _ => rfl
  limited := fun _ _ => Nat.zero_le _

theorem keyed_requestPairing {body : PairingBody} {ip requestId : ByteString}
    (h : store.KeyedPairings) :
    (store.requestPairing cfg now body ip requestId).1.KeyedPairings := by
  rcases requestPairing_cases cfg store now body ip requestId with
    ⟨-, htable | htable⟩ | ⟨-, hvalid, htable⟩
  · constructor
    · rw [htable]
      exact h.key
    · rw [htable]
      exact h.valid
  · constructor
    · rw [htable]
      exact h.prune.key
    · rw [htable]
      exact h.prune.valid
  · have hold : ∀ id r, (store.requestPairing cfg now body ip requestId).1.pairings.lookup id =
      some r →
        (store.pruneLocked now).pairings.lookup id = some r ∨
          id = requestId ∧ r = body.toRequest cfg now ip requestId := by
      intro id r hr
      rw [htable, Table.lookup_emplace] at hr
      have hretire := lookup_retirePairings (store.pruneLocked now).pairings body.clientId id
      split at hr
      · rename_i hid
        rcases hretire with hretire | ⟨hretire, -⟩
        · rw [hretire] at hr
          cases hlookup : (store.pruneLocked now).pairings.lookup id with
          | none =>
            rw [hlookup] at hr
            exact .inr ⟨hid, (Option.some.inj hr).symm⟩
          | some r₀ =>
            rw [hlookup] at hr
            exact .inl hr
        · rw [hretire] at hr
          exact .inr ⟨hid, (Option.some.inj hr).symm⟩
      · rcases hretire with hretire | ⟨hretire, -⟩
        · exact .inl (hretire.symm.trans hr)
        · rw [hretire] at hr
          cases hr
    constructor
    · intro id r hr
      rcases hold id r hr with hr | ⟨rfl, rfl⟩
      · exact h.prune.key id r hr
      · rfl
    · intro id r hr
      rcases hold id r hr with hr | ⟨-, rfl⟩
      · exact h.prune.valid id r hr
      · exact valid_toRequest hvalid ip requestId

/-- Calls keep the pairings within their limits. -/
theorem call_pairingSlots (hkeyed : s.store.KeyedPairings) (h : PairingSlots s.store.pairings)
    (op : NativeOp) :
    (s.store.call cfg s.clock op).1.KeyedPairings ∧
      PairingSlots (s.store.call cfg s.clock op).1.pairings := by
  have heffect : (∀ id, PairingEffect cfg id (s.entry cfg op) (s.store.pairings.lookup id)
      ((s.store.call cfg s.clock op).1.pairings.lookup id)) → op.isPairingRequest = false →
      (s.store.call cfg s.clock op).1.KeyedPairings ∧
        PairingSlots (s.store.call cfg s.clock op).1.pairings := by
    intro heffect hop
    have hopens : (s.entry cfg op).opensPairing cfg = none := opensPairing_of_other hop
    exact ⟨keyed_of_pairingEffect hkeyed heffect hopens,
      h.below (below_of_pairingEffect heffect hopens)⟩
  cases op with
  | requestPairing body ip requestId => exact ⟨keyed_requestPairing hkeyed, requestPairing_slots h⟩
  | requestTransfer body credential ip requestId =>
    apply heffect _ rfl
    intro id
    exact SparesPairings.effect (x := s.entry cfg (.requestTransfer body credential ip requestId))
      spares_requestTransfer fun _ => ⟨rfl, rfl, rfl⟩
  | _ =>
    apply heffect _ rfl
    intro id
    apply call_pairingEffect hkeyed
    intro requestId hid
    cases hid

theorem StoreBounded.step (h : StoreBounded cfg s) {l : NativeLabel}
    (hstep : NativeStep cfg s l s') :
    StoreBounded cfg s' := by
  cases hstep with
  | call op =>
    obtain ⟨hkeyed, hpairings⟩ := call_pairingSlots h.keyed h.pairings op
    obtain ⟨hremembers, hlimited⟩ := call_window h.remembers h.limited op
    exact ⟨hkeyed, hpairings, call_transferSlots h.transfers op, hremembers, hlimited⟩
  | advance elapsed =>
    refine ⟨h.keyed, h.pairings, h.transfers, ?_, h.limited⟩
    intro ip
    have hremembers := congrArg (List.filter (recent (s.clock + elapsed))) (h.remembers ip)
    rwa [filter_recent _ (Nat.le_add_right ..), filter_recent _ (Nat.le_add_right ..)] at hremembers
  | phone op => exact ⟨⟨h.keyed.key, h.keyed.valid⟩, h.pairings, h.transfers,
    h.remembers, h.limited⟩
  | reorder pairings transfers samePairings sameTransfers =>
    have hlookup : ∀ id, pairings.lookup id = s.store.pairings.lookup id :=
      fun id => AList.perm_lookup samePairings
    refine ⟨⟨?_, ?_⟩, h.pairings.perm samePairings, h.transfers.perm sameTransfers, h.remembers,
      h.limited⟩
    · intro id r hr
      exact h.keyed.key id r ((hlookup id).symm.trans hr)
    · intro id r hr
      exact h.keyed.valid id r ((hlookup id).symm.trans hr)

/-- **Capacity of the native session store.**  In every state of every run the tables and the rate
of pairing requests are bounded, and decided requests never cause a refusal: without them, the
answer to every new request would be the same. -/
theorem native_store_capacity {pairingStore : PairingStore} {clock : Nat}
    (hrun : Run (nativeStep cfg) (fun _ _ => True) (.init pairingStore clock) s) :
    Capacity cfg s ∧
    (∀ body ip requestId,
      (s.store.withoutDecidedPairings.requestPairing cfg s.clock body ip requestId).2 =
        (s.store.requestPairing cfg s.clock body ip requestId).2) ∧
    (∀ body credential ip requestId,
      (s.store.withoutDecidedTransfers.requestTransfer cfg s.clock body credential ip requestId).2 =
        (s.store.requestTransfer cfg s.clock body credential ip requestId).2) := by
  have hbounded : StoreBounded cfg s := by
    apply hrun.invariant (.init pairingStore clock)
    intro t l u ht _ hstep
    exact ht.step (nativeStep_spec hstep)
  refine ⟨⟨hbounded.pairings, hbounded.transfers, hbounded.limited⟩, ?_, ?_⟩
  · exact answer_without_decided_pairings
  · exact answer_without_decided_transfers

/-- Sender number `n`. -/
def senderBody (n : UInt8) : PairingBody := { pairingBody with clientId := ascii "pc-" ++ [48 + n] }

/-- It asks to be paired: five of them share an address. -/
def senderAsks (n : UInt8) : NativeLabel :=
  .call (.requestPairing (senderBody n) [n / 5] (List.replicate 32 n))

/-- Five senders ask from one address and the first is declined.  When it asks again, the address
has used up its attempts; a sixth takes the free place from elsewhere, and a seventh finds none,
with or without the declined request. -/
theorem native_store_capacity_one :
    ∃ s, Run (nativeStep pairingReceiver) (fun _ _ => True) (.init ⟨[], [], []⟩ 1000) s ∧
      Capacity pairingReceiver s ∧
      s.store.pairings.entries.countP (fun e => e.2.isActive) = 5 ∧
      s.store.pairings.entries.length = 6 ∧
      (admissions pairingReceiver s.log [0]).length = 5 ∧
      (s.store.withoutDecidedPairings.requestPairing pairingReceiver s.clock (senderBody 6) [1]
        (List.replicate 32 6)).2.status = 409 := by
  obtain ⟨s, hrun, htest⟩ := Run.exists_of_exec (nativeStep pairingReceiver) (P := fun _ _ => True)
    (fun _ _ => true)
    (fun s => decide (s.store.pairings.entries.countP (fun e => e.2.isActive) = 5) &&
      (decide (s.store.pairings.entries.length = 6) &&
      (decide ((admissions pairingReceiver s.log [0]).length = 5) &&
      decide ((s.store.requestPairing pairingReceiver s.clock (senderBody 6) [1]
        (List.replicate 32 6)).2.status = 409))))
    (.init ⟨[], [], []⟩ 1000)
    [.call .beginPairingWindow, senderAsks 0, senderAsks 1, senderAsks 2,
      senderAsks 3, senderAsks 4,
      .call (.denyPairing (List.replicate 32 0)), senderAsks 0, senderAsks 5]
    (fun _ _ _ => trivial) (by
      unfold senderAsks senderBody pairingBody pairingReceiver
      repeat rw [ascii_ofList]
      decide)
  simp only [Bool.and_eq_true, decide_eq_true_iff] at htest
  obtain ⟨hactive, hlength, hadmitted, hrefused⟩ := htest
  obtain ⟨hcapacity, hpairings, -⟩ := native_store_capacity hrun
  refine ⟨s, hrun, hcapacity, hactive, hlength, hadmitted, ?_⟩
  rw [hpairings]
  exact hrefused

end LocalMediaTransfer
