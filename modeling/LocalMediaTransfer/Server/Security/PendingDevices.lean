import LocalMediaTransfer.Server.Security.NativeSession.System

/-!
# Pending devices

What the calls of `PairingStore` do to the pending requests of the phone pairing.  An entry matters
as the pair of a device ID and a credential hash: the ID is what the user's answer names, the hash
is what the answer makes trusted.

* `pendingKeys` — these pairs; every call but `request` only removes some.
* `request_pended` — a request that has to wait: the entry of its device ID is its own, unless the
  device is already trusted.
* `approve_spec` — an approval makes trusted the hash that is pending for the ID.
-/

set_option autoImplicit false

namespace LocalMediaTransfer

open Lib

variable {crypto : Crypto} {store store' : PairingStore} {env : StoreEnv}
variable {id name credential ip : ByteString} {auto : Bool}

namespace PairingStore

/-- Device ID and credential hash of every pending request. -/
def pendingKeys (store : PairingStore) : List (ByteString × ByteString) :=
  store.pending.map fun item => (item.id, item.credentialHash)

/-- The device is trusted with this credential. -/
def knows (crypto : Crypto) (store : PairingStore) (id credential : ByteString) : Bool :=
  store.trusted.any fun item => item.id == id && item.credentialHash == crypto.sha256Hex credential

/-- No device ID has two pending requests. -/
def UniquePending (store : PairingStore) : Prop := (store.pendingKeys.map (·.1)).Nodup

theorem UniquePending.sublist (h : store.UniquePending)
    (hsub : store'.pendingKeys.Sublist store.pendingKeys) : store'.UniquePending :=
  List.Nodup.sublist (hsub.map _) h

/-- A change of one entry that a projection does not see. -/
theorem map_modify_same {α β : Type} {f : α → α} {g : α → β} {l : List α} {i : Nat}
    (h : ∀ a, g (f a) = g a) : (l.modify i f).map g = l.map g := by
  apply List.ext_getElem?
  intro j
  rw [List.getElem?_map, List.getElem?_modify, List.getElem?_map]
  cases l[j]? with
  | none => rfl
  | some a =>
    by_cases hij : i = j <;> simp [hij, h]

/-! ## Calls that only remove -/

theorem pendingKeys_pruneLocked :
    (store.pruneLocked env).pendingKeys.Sublist store.pendingKeys :=
  List.filter_sublist.map _

theorem saved_of_saveLocked (h : store.saveLocked env = some store') :
    env.saved = true ∧ store' = { store with disk := store.trusted } := by
  unfold saveLocked at h
  split at h
  · cases h
    exact ⟨by assumption, rfl⟩
  · cases h

theorem pendingKeys_saveLocked (h : store.saveLocked env = some store') :
    store'.pendingKeys = store.pendingKeys := by
  obtain ⟨-, rfl⟩ := saved_of_saveLocked h
  rfl

theorem pendingKeys_status :
    (store.status crypto id credential env).1.pendingKeys.Sublist store.pendingKeys := by
  unfold status
  simp only
  split
  · exact pendingKeys_pruneLocked
  · split <;> exact pendingKeys_pruneLocked

theorem pendingKeys_trustCredentialHash {hash clientType mode : ByteString} :
    (store.trustCredentialHash id name hash ip clientType mode env).1.pendingKeys =
      store.pendingKeys := by
  unfold trustCredentialHash
  split
  · rfl
  · split
    · rename_i hsave
      exact (pendingKeys_saveLocked hsave).trans rfl
    · rfl

theorem pendingKeys_deny : (store.deny id).1.pendingKeys = store.pendingKeys := by
  unfold deny
  split
  · rfl
  · exact map_modify_same fun _ => rfl

theorem pendingKeys_revoke : (store.revoke id env).1.pendingKeys.Sublist store.pendingKeys := by
  unfold revoke
  split
  · exact .refl _
  · split
    · exact .refl _
    · rename_i hsave
      have hpending := pendingKeys_saveLocked hsave
      rw [show store.pendingKeys = _ from hpending.symm]
      exact List.filter_sublist.map _

theorem pendingKeys_revokeAll : (store.revokeAll env).1.pendingKeys.Sublist store.pendingKeys := by
  unfold revokeAll
  split
  · exact .refl _
  · exact List.nil_sublist _

/-! ## Requests -/

/-- What a request that has to wait does to the pending entries; `known` tells whether the device is
trusted already. -/
structure Pended (store store' : PairingStore) (id hash : ByteString) (known : Prop) : Prop where
  unique : store.UniquePending → store'.UniquePending
  own : store.UniquePending → ∀ k ∈ store'.pendingKeys, k.1 = id →
    k.2 = hash ∨ (known ∧ k ∈ store.pendingKeys)
  others : ∀ k ∈ store'.pendingKeys, k.1 ≠ id → k ∈ store.pendingKeys

/-- A new entry for an ID that has none. -/
theorem Pended.append {item : PendingDevice} {hash : ByteString} {known : Prop}
    (hpending : store'.pending = store.pending ++ [item])
    (hnew : store.pending.any (fun item => item.id == id) = false) (hid : item.id = id)
    (hhash : item.credentialHash = hash) : Pended store store' id hash known := by
  have hkeys : store'.pendingKeys = store.pendingKeys ++ [(id, hash)] := by
    rw [pendingKeys, hpending, List.map_append, ← hid, ← hhash]
    rfl
  have hfresh : ∀ k ∈ store.pendingKeys, k.1 ≠ id := by
    intro k hk
    obtain ⟨entry, hentry, rfl⟩ := List.mem_map.mp hk
    simpa using List.any_eq_false.mp hnew entry hentry
  refine ⟨?_, ?_, ?_⟩
  · intro hunique
    rw [UniquePending, hkeys, List.map_append, List.nodup_append]
    refine ⟨hunique, List.nodup_singleton _, ?_⟩
    intro a ha b hb
    obtain ⟨k, hk, rfl⟩ := List.mem_map.mp ha
    rw [List.mem_singleton.mp hb]
    exact hfresh k hk
  · intro _ k hk hkid
    rw [hkeys] at hk
    rcases List.mem_append.mp hk with hk | hk
    · exact absurd hkid (hfresh k hk)
    · rw [List.mem_singleton.mp hk]
      exact .inl rfl
  · intro k hk hkid
    rw [hkeys] at hk
    rcases List.mem_append.mp hk with hk | hk
    · exact hk
    · rw [List.mem_singleton.mp hk] at hkid
      exact absurd rfl hkid

/-- An entry of a list with distinct IDs stands where its ID is found. -/
theorem eq_of_unique {item : PendingDevice} {i : Nat} (h : store.UniquePending)
    (hitem : store.pending[i]? = some item) {k : ByteString × ByteString}
    (hk : k ∈ store.pendingKeys) (hid : k.1 = item.id) : k = (item.id, item.credentialHash) := by
  have hmem : (item.id, item.credentialHash) ∈ store.pendingKeys :=
    List.mem_map.mpr ⟨item, List.mem_of_getElem? hitem, rfl⟩
  exact List.inj_on_of_nodup_map h hk hmem hid

/-- The entry of an ID takes another credential. -/
theorem Pended.replace {item : PendingDevice} {i : Nat} {f : PendingDevice → PendingDevice}
    {hash : ByteString} {known : Prop} (hitem : store.pending[i]? = some item)
    (hpending : store'.pending = store.pending.modify i f) (hid : ∀ entry, (f entry).id = entry.id)
    (hhash : ∀ entry, (f entry).credentialHash = hash) :
    Pended store store' item.id hash known := by
  have hkeys : ∀ k ∈ store'.pendingKeys, k = (item.id, hash) ∨
      ∃ j entry, j ≠ i ∧ store.pending[j]? = some entry ∧ k = (entry.id, entry.credentialHash) := by
    intro k hk
    obtain ⟨entry, hentry, rfl⟩ := List.mem_map.mp hk
    rw [hpending] at hentry
    obtain ⟨j, hj⟩ := List.mem_iff_getElem?.mp hentry
    by_cases hij : i = j
    · subst hij
      rw [List.getElem?_modify_eq, hitem] at hj
      obtain rfl := Option.some.inj hj
      exact .inl (by rw [hid, hhash])
    · rw [List.getElem?_modify_ne _ _ hij] at hj
      exact .inr ⟨j, entry, fun h => hij h.symm, hj, rfl⟩
  refine ⟨?_, ?_, ?_⟩
  · intro hunique
    have hids : store'.pendingKeys.map (·.1) = store.pendingKeys.map (·.1) := by
      simp only [pendingKeys, List.map_map, hpending]
      exact map_modify_same fun entry => hid entry
    rw [UniquePending, hids]
    exact hunique
  · intro hunique k hk hkid
    rcases hkeys k hk with rfl | ⟨j, entry, hij, hj, rfl⟩
    · exact .inl rfl
    · have hnodup : (store.pending.map (·.id)).Nodup := by
        simpa [UniquePending, pendingKeys, Function.comp_def] using hunique
      have hat : (store.pending.map (·.id))[j]? = (store.pending.map (·.id))[i]? := by
        rw [List.getElem?_map, List.getElem?_map, hj, hitem]
        exact congrArg some hkid
      have hlt : j < (store.pending.map (·.id)).length := by
        rw [List.length_map]
        exact (List.getElem?_eq_some_iff.mp hj).1
      exact absurd ((List.getElem?_inj hlt hnodup).mp hat) hij
  · intro k hk hkid
    rcases hkeys k hk with rfl | ⟨j, entry, -, hj, rfl⟩
    · exact absurd rfl hkid
    · exact List.mem_map.mpr ⟨entry, List.mem_of_getElem? hj, rfl⟩

/-- Nothing changes: the ID waits already. -/
theorem Pended.same {hash : ByteString} {known : Prop} (hpending : store'.pending = store.pending)
    (hown : store.UniquePending → ∀ k ∈ store.pendingKeys, k.1 = id →
      k.2 = hash ∨ (known ∧ k ∈ store.pendingKeys)) :
    Pended store store' id hash known := by
  have hkeys : store'.pendingKeys = store.pendingKeys := by
    rw [pendingKeys, hpending]
    rfl
  refine ⟨?_, ?_, ?_⟩
  · intro hunique
    rw [UniquePending, hkeys]
    exact hunique
  · rw [hkeys]
    exact hown
  · intro k hk _
    rwa [hkeys] at hk

/-- The store takes a request and makes it wait for the user, unless it waits already and was
denied. -/
def waits (crypto : Crypto) (store : PairingStore) (id name credential : ByteString) (auto : Bool)
    (env : StoreEnv) : Bool :=
  !(id.isEmpty || credential.length < 32 || 128 < id.length || 128 < name.length) &&
    (!store.knows crypto id credential || (env.saved && !auto)) &&
    ((store.pruneLocked env).pending.any (fun item => item.id == id) ||
      (store.pruneLocked env).pending.length < MaxPendingRequests)

theorem knows_of_findIdx? {index : Nat}
    (h : store.trusted.findIdx? (fun item =>
      item.id == id && item.credentialHash == crypto.sha256Hex credential) = some index) :
    store.knows crypto id credential = true := by
  obtain ⟨hlt, hp, -⟩ := List.findIdx?_eq_some_iff_getElem.mp h
  exact List.any_eq_true.mpr ⟨_, List.getElem_mem hlt, hp⟩

theorem any_of_findIdx? {index : Nat}
    (h : store.pending.findIdx? (fun item => item.id == id) = some index) :
    store.pending.any (fun item => item.id == id) = true := by
  obtain ⟨hlt, hp, -⟩ := List.findIdx?_eq_some_iff_getElem.mp h
  exact List.any_eq_true.mpr ⟨_, List.getElem_mem hlt, hp⟩

/-- The two ways a request can end. -/
inductive Requested (crypto : Crypto) (store : PairingStore) (id name credential : ByteString)
    (auto : Bool) (env : StoreEnv) : PairingStore × Except String PairingStatus → Prop where
  | waiting (store' : PairingStore)
      (waits : store.waits crypto id name credential auto env = true)
      (pended : Pended (store.pruneLocked env) store' id (crypto.sha256Hex credential)
        (store.knows crypto id credential = true)) :
      Requested crypto store id name credential auto env (store', .ok .pending)
  | settled (store' : PairingStore) (result : Except String PairingStatus)
      (settles : result ≠ .ok .pending)
      (fewer : store'.pendingKeys.Sublist store.pendingKeys) :
      Requested crypto store id name credential auto env (store', result)

/-- **What `request` does to the pending entries.** -/
theorem request_spec (crypto : Crypto) (store : PairingStore) (id name credential ip : ByteString)
    (auto : Bool) (env : StoreEnv) :
    Requested crypto store id name credential auto env
      (store.request crypto id name credential ip auto env) := by
  have hprune := @pendingKeys_pruneLocked store env
  unfold request
  split
  · exact .settled _ _ nofun (.refl _)
  · rename_i hvalid
    simp only
    split
    · rename_i index hknown
      have hknows : store.knows crypto id credential = true :=
        @knows_of_findIdx? crypto store id credential index hknown
      split
      · exact .settled _ _ nofun hprune
      · rename_i saved hsave
        obtain ⟨hsaved, rfl⟩ := saved_of_saveLocked hsave
        split
        · exact .settled _ _ nofun hprune
        · rename_i hauto
          split
          · rename_i hany
            refine .waiting _ ?_ (.same rfl fun _ k hk _ => .inr ⟨hknows, hk⟩)
            simp [waits, hvalid, hsaved, hauto, hany]
          · rename_i hnone
            split
            · exact .settled _ _ nofun hprune
            · rename_i hroom
              refine .waiting _ ?_ (.append rfl (by simpa using hnone) rfl rfl)
              simp [waits, hvalid, hsaved, hauto, Nat.lt_of_not_le hroom]
    · rename_i hknown
      have hknows : store.knows crypto id credential = false := by
        rw [List.findIdx?_eq_none_iff] at hknown
        exact List.any_eq_false.mpr fun item hitem => by simpa using hknown item hitem
      split
      · rename_i hnone
        split
        · exact .settled _ _ nofun hprune
        · rename_i hroom
          refine .waiting _ ?_ (.append rfl ?_ rfl rfl)
          · simp [waits, hvalid, hknows, Nat.lt_of_not_le hroom]
          · rw [List.findIdx?_eq_none_iff] at hnone
            exact List.any_eq_false.mpr fun item hitem => by simpa using hnone item hitem
      · rename_i index hfound
        have hany := any_of_findIdx? hfound
        have hwaits : store.waits crypto id name credential auto env = true := by
          simp [waits, hvalid, hknows, hany]
        obtain ⟨hlt, hid, -⟩ := List.findIdx?_eq_some_iff_getElem.mp hfound
        split
        · rename_i hout
          rw [List.getElem?_eq_getElem hlt] at hout
          cases hout
        · rename_i item hitem
          have hitem' : item.id = id := by
            rw [List.getElem?_eq_getElem hlt] at hitem
            obtain rfl := Option.some.inj hitem
            simpa using hid
          split
          · subst hitem'
            exact .waiting _ hwaits (.replace hitem rfl (fun _ => rfl) fun _ => rfl)
          · rename_i hsame
            split
            · exact .settled _ _ nofun hprune
            · refine .waiting _ hwaits (.same rfl fun hunique k hk hkid => .inl ?_)
              rw [eq_of_unique hunique hitem hk (hkid.trans hitem'.symm)]
              simpa using hsame

/-! ## Approvals -/

theorem pendingKeys_approve : (store.approve id env).1.pendingKeys.Sublist store.pendingKeys := by
  unfold approve
  simp only
  split
  · exact pendingKeys_pruneLocked
  · split
    · exact pendingKeys_pruneLocked
    · rename_i hsave
      obtain ⟨-, rfl⟩ := saved_of_saveLocked hsave
      exact .trans (List.eraseP_sublist.map _) pendingKeys_pruneLocked

/-- **What an approval makes trusted.** -/
theorem approve_spec (h : (store.approve id env).2 = true) :
    ∃ device, (store.approve id env).1.trusted =
        store.trusted.filter (fun value => value.id != id) ++ [device] ∧ device.id = id ∧
      (id, device.credentialHash) ∈ store.pendingKeys := by
  unfold approve at h ⊢
  simp only at h ⊢
  split at h
  · cases h
  · rename_i item hitem
    split at h
    · cases h
    · rename_i saved hsave
      obtain ⟨-, rfl⟩ := saved_of_saveLocked hsave
      have hid : item.id = id := by simpa using List.find?_some hitem
      subst hid
      refine ⟨_, rfl, rfl, ?_⟩
      have hmem := (List.mem_filter.mp (List.mem_of_find?_eq_some hitem)).1
      exact List.mem_map.mpr ⟨item, hmem, rfl⟩

end PairingStore

/-! ## The native store -/

section Native

variable {cfg : NativeConfig} {now : Nat}

theorem pendingKeys_trust (native : NativeSessionStore) (item : PairingRequest) (env : StoreEnv) :
    (native.trust item env).1.pendingKeys.Sublist native.pairingStore.pendingKeys := by
  unfold NativeSessionStore.trust
  rw [PairingStore.pendingKeys_trustCredentialHash]

theorem pendingKeys_revokeDevice (native : NativeSessionStore) (deviceId : ByteString)
    (env : StoreEnv) :
    (native.revokeDevice deviceId env).1.pairingStore.pendingKeys.Sublist
      native.pairingStore.pendingKeys := by
  unfold NativeSessionStore.revokeDevice
  simp only
  split <;> exact PairingStore.pendingKeys_revoke

/-- **A call of the native store pends nothing.** -/
theorem pendingKeys_call (native : NativeSessionStore) (op : NativeOp) :
    (native.call cfg now op).1.pairingStore.pendingKeys.Sublist
      native.pairingStore.pendingKeys := by
  cases op with
  | beginPairingWindow | endPairingWindow => exact .refl _
  | requestPairing body ip requestId =>
    show (native.requestPairing cfg now body ip requestId).1.pairingStore.pendingKeys.Sublist _
    unfold NativeSessionStore.requestPairing
    simp only
    repeat' split
    all_goals exact .refl _
  | confirmPairing requestId proof env =>
    show (native.confirmPairing now requestId proof env).1.pairingStore.pendingKeys.Sublist _
    have htrust := pendingKeys_trust (native.pruneLocked now)
    unfold NativeSessionStore.confirmPairing
    simp only
    repeat' split
    all_goals first | exact .refl _ | exact htrust _ env
  | approvePairing requestId env =>
    show (native.approvePairing now requestId env).1.pairingStore.pendingKeys.Sublist _
    have htrust := pendingKeys_trust (native.pruneLocked now)
    unfold NativeSessionStore.approvePairing
    simp only
    repeat' split
    all_goals first | exact .refl _ | exact htrust _ env
  | pairingStatus requestId clientId credential =>
    show (native.pairingStatus cfg now requestId clientId
      credential).1.pairingStore.pendingKeys.Sublist
      _
    unfold NativeSessionStore.pairingStatus
    simp only
    repeat' split
    all_goals exact .refl _
  | denyPairing requestId =>
    show (native.denyPairing now requestId).1.pairingStore.pendingKeys.Sublist _
    unfold NativeSessionStore.denyPairing
    simp only
    repeat' split
    all_goals exact .refl _
  | revokeCurrentDevice credential ip env =>
    show (native.revokeCurrentDevice cfg credential ip env).1.pairingStore.pendingKeys.Sublist _
    have hrevoke := pendingKeys_revokeDevice native
    unfold NativeSessionStore.revokeCurrentDevice
    simp only
    repeat' split
    all_goals first | exact .refl _ | exact hrevoke _ env
  | requestTransfer body credential ip requestId =>
    show (native.requestTransfer cfg now body credential ip
      requestId).1.pairingStore.pendingKeys.Sublist
      _
    unfold NativeSessionStore.requestTransfer
    simp only
    repeat' split
    all_goals exact .refl _
  | transferStatus requestId credential =>
    show (native.transferStatus cfg now requestId credential).1.pairingStore.pendingKeys.Sublist _
    unfold NativeSessionStore.transferStatus
    simp only
    repeat' split
    all_goals exact .refl _
  | approveTransfer requestId =>
    show (native.approveTransfer now requestId).1.pairingStore.pendingKeys.Sublist _
    unfold NativeSessionStore.approveTransfer
    simp only
    repeat' split
    all_goals exact .refl _
  | denyTransfer requestId =>
    show (native.denyTransfer requestId).1.pairingStore.pendingKeys.Sublist _
    unfold NativeSessionStore.denyTransfer
    split <;> exact .refl _
  | cancelTransfer transferId token =>
    show (native.cancelTransfer cfg transferId token).1.pairingStore.pendingKeys.Sublist _
    unfold NativeSessionStore.cancelTransfer
    split <;> exact .refl _
  | authorizeTransfer token transferId =>
    show (native.authorizeTransfer cfg now token transferId).1.pairingStore.pendingKeys.Sublist _
    unfold NativeSessionStore.authorizeTransfer
    simp only
    repeat' split
    all_goals exact .refl _
  | authorizeFile token transferId fileId name sizeBytes skip =>
    show (native.authorizeFile cfg now token transferId fileId name sizeBytes
      skip).1.pairingStore.pendingKeys.Sublist _
    unfold NativeSessionStore.authorizeFile
    simp only
    repeat' split
    all_goals exact .refl _
  | markFileTerminal transferId fileId =>
    show (native.markFileTerminal transferId fileId).pairingStore.pendingKeys.Sublist _
    unfold NativeSessionStore.markFileTerminal
    simp only
    repeat' split
    all_goals exact .refl _
  | revokeDevice deviceId env => exact pendingKeys_revokeDevice native deviceId env
  | revokeAll env =>
    show (native.revokeAll env).1.pairingStore.pendingKeys.Sublist _
    have hrevoke := @PairingStore.pendingKeys_revokeAll native.pairingStore env
    unfold NativeSessionStore.revokeAll
    simp only
    split <;> exact hrevoke

end Native

end LocalMediaTransfer
