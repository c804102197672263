import LocalMediaTransfer.Lib.Run
import LocalMediaTransfer.Server.Security.PendingDevices

/-!
# Calls of the pairing store

`PairingStore` as a system: its calls in any order, each at a clock reading that is not before the
last one, with a save that works or fails.

* `storeStep`, `StoreRun` — one call, and the runs from a store that has just been loaded.
* `request_cases` — what a request answers and leaves behind, case by case.
* `call_kept`, `request_kept` — where the pending entries after a call come from.
* `uniquePending_of_run` — one pending entry for each device ID.
-/

set_option autoImplicit false

namespace LocalMediaTransfer

open Lib

/-- The calls of the store that a phone, a native session or the user can cause. -/
inductive PairingCall where
  | request (id name credential ip : ByteString) (autoApproveKnown : Bool)
  | status (id credential : ByteString)
  | trustCredentialHash (id name credentialHash ip clientType authorizationMode : ByteString)
  | approve (id : ByteString)
  | deny (id : ByteString)
  | revoke (id : ByteString)
  | revokeAll
  deriving DecidableEq

namespace PairingStore

/-- `load`, at the start of the process; `none` is a file that is missing or cannot be read. -/
def load (file : Option (List TrustedDevice)) : PairingStore :=
  ⟨[], file.getD [], file.getD []⟩

/-- The store after a call. -/
def call (crypto : Crypto) (store : PairingStore) (env : StoreEnv) : PairingCall → PairingStore
  | .request id name credential ip auto => (store.request crypto id name credential ip auto env).1
  | .status id credential => (store.status crypto id credential env).1
  | .trustCredentialHash id name hash ip clientType mode =>
      (store.trustCredentialHash id name hash ip clientType mode env).1
  | .approve id => (store.approve id env).1
  | .deny id => (store.deny id).1
  | .revoke id => (store.revoke id env).1
  | .revokeAll => (store.revokeAll env).1

/-- The first pending entry of a device ID: the one that `approve` and `deny` take. -/
def entry (store : PairingStore) (id : ByteString) : Option PendingDevice :=
  store.pending.find? fun item => item.id == id

/-- The checks on the arguments of `request`. -/
def wellFormed (id name credential : ByteString) : Bool :=
  !(id.isEmpty || credential.length < 32 || 128 < id.length || 128 < name.length)

/-- Where a device is trusted with a credential. -/
def knownIndex (crypto : Crypto) (store : PairingStore) (id credential : ByteString) : Option Nat :=
  store.trusted.findIdx? fun item => item.id == id &&
    item.credentialHash == crypto.sha256Hex credential

end PairingStore

/-- What a request writes into the entry of a trusted device. -/
def TrustedDevice.refreshed (name ip : ByteString) (env : StoreEnv) (item : TrustedDevice) :
    TrustedDevice :=
  { item with name := name, lastIp := ip, lastSeenUnix := env.unixNow }

/-- A call, with what the environment decides during it. -/
structure StoreEvent where
  call : PairingCall
  env : StoreEnv := {}
  deriving DecidableEq

/-- The store and the last reading of the steady clock. -/
structure StoreState where
  store : PairingStore
  clock : Nat
  deriving DecidableEq

/-- The state when the process starts. -/
def StoreState.init (file : Option (List TrustedDevice)) (clock : Nat) : StoreState :=
  ⟨.load file, clock⟩

/-- One call; the steady clock does not go back. -/
def storeStep (crypto : Crypto) (s : StoreState) (l : StoreEvent) : Option StoreState :=
  if s.clock ≤ l.env.steadyNow then some ⟨s.store.call crypto l.env l.call, l.env.steadyNow⟩
  else none

/-- A run of the store, of any calls. -/
abbrev StoreRun (crypto : Crypto) : StoreState → StoreState → Prop :=
  Run (storeStep crypto) fun _ _ => True

variable {crypto : Crypto} {store store' : PairingStore} {env : StoreEnv}
variable {id name credential ip : ByteString} {auto : Bool} {s t : StoreState} {l : StoreEvent}
variable {file : Option (List TrustedDevice)} {clock : Nat}

theorem storeStep_spec (h : storeStep crypto s l = some t) :
    s.clock ≤ l.env.steadyNow ∧ t.clock = l.env.steadyNow ∧
      t.store = s.store.call crypto l.env l.call := by
  unfold storeStep at h
  split at h
  · rename_i hclock
    cases h
    exact ⟨hclock, rfl, rfl⟩
  · cases h

namespace PairingStore

/-! ## Requests -/

/-- The answer to a device that is trusted already, and the pending entries it leaves. -/
inductive KnownAnswer (live : List PendingDevice) (id : ByteString) (auto : Bool)
    (new : PendingDevice) : List PendingDevice → PairingStatus → Prop where
  | approved (hauto : auto = true) : KnownAnswer live id auto new live .approved
  | waiting (hauto : auto = false) (hany : live.any (fun item => item.id == id) = true) :
      KnownAnswer live id auto new live .pending
  | full (hauto : auto = false) (hany : live.any (fun item => item.id == id) = false)
      (hroom : MaxPendingRequests ≤ live.length) : KnownAnswer live id auto new live .atCapacity
  | appended (hauto : auto = false) (hany : live.any (fun item => item.id == id) = false)
      (hroom : live.length < MaxPendingRequests) :
      KnownAnswer live id auto new (live ++ [new]) .pending

/-- The answer to any other device, and the pending entries it leaves. -/
inductive NewAnswer (live : List PendingDevice) (id : ByteString) (new : PendingDevice)
    (replace : PendingDevice → PendingDevice) :
    List PendingDevice → PairingStatus → Prop where
  | full (hany : live.any (fun item => item.id == id) = false)
      (hroom : MaxPendingRequests ≤ live.length) : NewAnswer live id new replace live .atCapacity
  | appended (hany : live.any (fun item => item.id == id) = false)
      (hroom : live.length < MaxPendingRequests) :
      NewAnswer live id new replace (live ++ [new]) .pending
  | replaced (index : Nat) (item : PendingDevice)
      (hindex : live.findIdx? (fun item => item.id == id) = some index)
      (hitem : live[index]? = some item) (hhash : item.credentialHash ≠ new.credentialHash) :
      NewAnswer live id new replace (live.modify index replace) .pending
  | repeated (index : Nat) (item : PendingDevice)
      (hindex : live.findIdx? (fun item => item.id == id) = some index)
      (hitem : live[index]? = some item) (hhash : item.credentialHash = new.credentialHash) :
      NewAnswer live id new replace live (if item.denied then .denied else .pending)

/-- The pending entry of a request. -/
def newEntry (crypto : Crypto) (id name credential ip : ByteString) (env : StoreEnv) :
    PendingDevice :=
  { id, name, credentialHash := crypto.sha256Hex credential, lastIp := ip
    expiresAt := env.steadyNow + PendingLifetime }

/-- The pending entry of a request that takes the place of another credential. -/
def replaceEntry (crypto : Crypto) (name credential ip : ByteString) (env : StoreEnv)
    (item : PendingDevice) : PendingDevice :=
  { item with
    name := name, credentialHash := crypto.sha256Hex credential, lastIp := ip
    expiresAt := env.steadyNow + PendingLifetime, denied := false }

/-- The outcomes of a request. -/
inductive RequestCase (crypto : Crypto) (store : PairingStore)
    (id name credential ip : ByteString) (auto : Bool) (env : StoreEnv) :
    PairingStore × Except String PairingStatus → Prop where
  | refused (hform : wellFormed id name credential = false) :
      RequestCase crypto store id name credential ip auto env (store, .ok .denied)
  | unsaved (hform : wellFormed id name credential = true) (index : Nat)
      (hknown : store.knownIndex crypto id credential = some index) (hsaved : env.saved = false) :
      RequestCase crypto store id name credential ip auto env
        ({ store.pruneLocked env with
            trusted := store.trusted.modify index (.refreshed name ip env) }, .error saveError)
  | known (hform : wellFormed id name credential = true) (index : Nat)
      (hknown : store.knownIndex crypto id credential = some index) (hsaved : env.saved = true)
      (clientType mode : ByteString) (pending : List PendingDevice) (answer : PairingStatus)
      (hanswer : KnownAnswer (store.pruneLocked env).pending id auto
        { newEntry crypto id name credential ip env with
          clientType := clientType, authorizationMode := mode } pending answer) :
      RequestCase crypto store id name credential ip auto env
        (⟨pending, store.trusted.modify index (.refreshed name ip env),
          store.trusted.modify index (.refreshed name ip env)⟩, .ok answer)
  | new (hform : wellFormed id name credential = true)
      (hknown : store.knownIndex crypto id credential = none)
      (pending : List PendingDevice) (answer : PairingStatus)
      (hanswer : NewAnswer (store.pruneLocked env).pending id
        (newEntry crypto id name credential ip env) (replaceEntry crypto name credential ip env)
        pending answer) :
      RequestCase crypto store id name credential ip auto env
        ({ store.pruneLocked env with pending := pending }, .ok answer)

/-- **What a request answers and leaves behind.** -/
theorem request_cases (crypto : Crypto) (store : PairingStore) (id name credential ip : ByteString)
    (auto : Bool) (env : StoreEnv) :
    RequestCase crypto store id name credential ip auto env
      (store.request crypto id name credential ip auto env) := by
  unfold request
  split
  · rename_i hform
    exact .refused (by simp [wellFormed, hform])
  · rename_i hform
    have hform' : wellFormed id name credential = true := by simp [wellFormed, hform]
    simp only
    split
    · rename_i index hfound
      have hknown : store.knownIndex crypto id credential = some index := hfound
      split
      · rename_i hsave
        exact .unsaved hform' index hknown (by simpa [saveLocked] using hsave)
      · rename_i saved hsave
        obtain ⟨hsaved, rfl⟩ := saved_of_saveLocked hsave
        split
        · rename_i hauto
          exact .known hform' index hknown hsaved [] [] _ _ (.approved hauto)
        · rename_i hauto
          have hauto' : auto = false := by simpa using hauto
          split
          · rename_i hany
            exact .known hform' index hknown hsaved [] [] _ _ (.waiting hauto' hany)
          · rename_i hany
            have hany' : (store.pruneLocked env).pending.any (fun item => item.id == id) = false :=
              Bool.not_eq_true _ ▸ hany
            split
            · rename_i hroom
              exact .known hform' index hknown hsaved [] [] _ _ (.full hauto' hany' hroom)
            · rename_i hroom
              exact .known hform' index hknown hsaved _ _ _ _
                (.appended hauto' hany' (Nat.lt_of_not_le hroom))
    · rename_i hfound
      have hknown : store.knownIndex crypto id credential = none := hfound
      split
      · rename_i hnone
        have hany : (store.pruneLocked env).pending.any (fun item => item.id == id) = false := by
          rw [List.findIdx?_eq_none_iff] at hnone
          exact List.any_eq_false.mpr fun item hitem => by simpa using hnone item hitem
        split
        · rename_i hroom
          exact .new hform' hknown _ _ (.full hany hroom)
        · rename_i hroom
          exact .new hform' hknown _ _ (.appended hany (Nat.lt_of_not_le hroom))
      · rename_i index hindex
        split
        · rename_i hout
          obtain ⟨hlt, -⟩ := List.findIdx?_eq_some_iff_getElem.mp hindex
          rw [List.getElem?_eq_getElem hlt] at hout
          cases hout
        · rename_i item hitem
          split
          · rename_i hhash
            exact .new hform' hknown _ _ (.replaced index item hindex hitem hhash)
          · rename_i hhash
            have hhash' : item.credentialHash = crypto.sha256Hex credential :=
              Decidable.not_not.mp hhash
            exact .new hform' hknown _ _ (.repeated index item hindex hitem hhash')

/-! ## Pending entries after a call -/

theorem mem_modify {α : Type} {l : List α} {i : Nat} {f : α → α} {a : α} (h : a ∈ l.modify i f) :
    a ∈ l ∨ ∃ old, l[i]? = some old ∧ a = f old := by
  obtain ⟨j, hj⟩ := List.mem_iff_getElem?.mp h
  by_cases hij : i = j
  · subst hij
    rw [List.getElem?_modify_eq, Option.map_eq_map, Option.map_eq_some_iff] at hj
    obtain ⟨old, hold, rfl⟩ := hj
    exact .inr ⟨old, hold, rfl⟩
  · rw [List.getElem?_modify_ne _ _ hij] at hj
    exact .inl (List.mem_of_getElem? hj)

theorem find?_modify {α : Type} {p : α → Bool} {f : α → α} (hf : ∀ a, p (f a) = p a) :
    ∀ {l : List α} {i : Nat} {a : α}, l.findIdx? p = some i → l[i]? = some a →
      l.find? p = some a ∧ (l.modify i f).find? p = some (f a)
  | [], i, a, h, _ => by cases h
  | b :: l, i, a, h, ha => by
    rw [List.findIdx?_cons] at h
    split at h
    · rename_i hb
      cases h
      cases ha
      simp [hb, hf]
    · rename_i hb
      obtain ⟨j, hj, rfl⟩ := Option.map_eq_some_iff.mp h
      obtain ⟨hfind, hmodify⟩ := find?_modify hf hj ha
      rw [List.modify_succ_cons, List.find?_cons_of_neg hb, List.find?_cons_of_neg hb]
      exact ⟨hfind, hmodify⟩

/-- Every pending entry was there before; a denial stays. -/
def Kept (store store' : PairingStore) : Prop :=
  ∀ item' ∈ store'.pending, ∃ item ∈ store.pending, item'.id = item.id ∧
    item'.credentialHash = item.credentialHash ∧ (item.denied = true → item'.denied = true)

theorem Kept.of_subset (h : store'.pending ⊆ store.pending) : Kept store store' :=
  fun item hitem => ⟨item, h hitem, rfl, rfl, fun h => h⟩

theorem pruneLocked_subset : (store.pruneLocked env).pending ⊆ store.pending :=
  List.filter_subset_self _

theorem call_kept {call : PairingCall}
    (h : ∀ id name credential ip auto, call ≠ .request id name credential ip auto) :
    Kept store (store.call crypto env call) := by
  cases call with
  | request id name credential ip auto => exact absurd rfl (h id name credential ip auto)
  | status id credential =>
    apply Kept.of_subset
    simp only [call, status]
    repeat' split
    all_goals exact pruneLocked_subset
  | trustCredentialHash id name hash ip clientType mode =>
    apply Kept.of_subset
    simp only [call, trustCredentialHash, saveLocked]
    repeat' split
    all_goals first | exact List.Subset.refl _ | skip
    rename_i hsave
    split at hsave
    · cases hsave
      exact List.Subset.refl _
    · cases hsave
  | approve id =>
    apply Kept.of_subset
    simp only [call, approve]
    split
    · exact pruneLocked_subset
    · split
      · exact pruneLocked_subset
      · rename_i hsave
        obtain ⟨-, rfl⟩ := saved_of_saveLocked hsave
        exact List.Subset.trans List.eraseP_subset pruneLocked_subset
  | deny id =>
    simp only [call, deny]
    split
    · exact .of_subset (List.Subset.refl _)
    · intro item' hitem'
      rcases mem_modify hitem' with hitem | ⟨old, hold, rfl⟩
      · exact ⟨item', hitem, rfl, rfl, fun h => h⟩
      · exact ⟨old, List.mem_of_getElem? hold, rfl, rfl, fun _ => rfl⟩
  | revoke id =>
    apply Kept.of_subset
    simp only [call, revoke]
    split
    · exact List.Subset.refl _
    · split
      · exact List.Subset.refl _
      · rename_i hsave
        obtain ⟨-, rfl⟩ := saved_of_saveLocked hsave
        exact List.filter_subset_self _
  | revokeAll =>
    apply Kept.of_subset
    simp only [call, revokeAll]
    split
    · exact List.Subset.refl _
    · exact List.nil_subset _

/-- A request leaves the entries of other devices alone. -/
theorem request_others {item : PendingDevice}
    (hitem : item ∈ (store.request crypto id name credential ip auto env).1.pending)
    (hid : item.id ≠ id) : item ∈ store.pending := by
  have hcase := request_cases crypto store id name credential ip auto env
  generalize store.request crypto id name credential ip auto env = r at hitem hcase
  cases hcase with
  | refused hform => exact hitem
  | unsaved hform index hknown hsaved => exact pruneLocked_subset hitem
  | known hform index hknown hsaved clientType mode pending answer hanswer =>
    cases hanswer with
    | approved hauto => exact pruneLocked_subset hitem
    | waiting hauto hany => exact pruneLocked_subset hitem
    | full hauto hany hroom => exact pruneLocked_subset hitem
    | appended hauto hany hroom =>
      rcases List.mem_append.mp hitem with hitem | hitem
      · exact pruneLocked_subset hitem
      · exact absurd (by rw [List.mem_singleton.mp hitem]; rfl) hid
  | new hform hknown pending answer hanswer =>
    cases hanswer with
    | full hany hroom => exact pruneLocked_subset hitem
    | appended hany hroom =>
      rcases List.mem_append.mp hitem with hitem | hitem
      · exact pruneLocked_subset hitem
      · exact absurd (by rw [List.mem_singleton.mp hitem]; rfl) hid
    | replaced index old hindex hold hhash =>
      rcases mem_modify hitem with hitem | ⟨old', hold', rfl⟩
      · exact pruneLocked_subset hitem
      · obtain ⟨hlt, hp, -⟩ := List.findIdx?_eq_some_iff_getElem.mp hindex
        rw [List.getElem?_eq_getElem hlt] at hold'
        obtain rfl := Option.some.inj hold'
        have hid' : (store.pruneLocked env).pending[index].id = id := by simpa using hp
        exact absurd hid' hid
    | repeated index old hindex hold hhash => exact pruneLocked_subset hitem

/-- The entry of a device ID after a request: still the one that was there, or a new one. -/
theorem request_entry
    (h : (store.request crypto id name credential ip auto env).1.entry id =
      (store.pruneLocked env).entry id) :
    (store.request crypto id name credential ip auto env).1.pending ⊆ store.pending := by
  have hnone : (store.pruneLocked env).pending.any (fun item => item.id == id) = false →
      (store.pruneLocked env).entry id = none := by
    intro hany
    rw [entry, List.find?_eq_none]
    exact fun item hitem => List.any_eq_false.mp hany item hitem
  have happend : ∀ new : PendingDevice, new.id = id →
      (store.pruneLocked env).pending.any (fun item => item.id == id) = false →
      ((store.pruneLocked env).pending ++ [new]).find? (fun item => item.id == id) ≠
        (store.pruneLocked env).entry id := by
    intro new hid hany heq
    have hnew := hnone hany
    rw [hnew, List.find?_append, show List.find? _ _ = none from hnew] at heq
    simp [hid] at heq
  have hcase := request_cases crypto store id name credential ip auto env
  generalize store.request crypto id name credential ip auto env = r at h hcase
  cases hcase with
  | refused hform => exact List.Subset.refl _
  | unsaved hform index hknown hsaved => exact pruneLocked_subset
  | known hform index hknown hsaved clientType mode pending answer hanswer =>
    cases hanswer with
    | approved hauto => exact pruneLocked_subset
    | waiting hauto hany => exact pruneLocked_subset
    | full hauto hany hroom => exact pruneLocked_subset
    | appended hauto hany hroom => exact absurd h (happend _ rfl hany)
  | new hform hknown pending answer hanswer =>
    cases hanswer with
    | full hany hroom => exact pruneLocked_subset
    | appended hany hroom => exact absurd h (happend _ rfl hany)
    | replaced index old hindex hold hhash =>
      obtain ⟨hbefore, hafter⟩ := find?_modify
        (f := replaceEntry crypto name credential ip env) (fun _ => rfl) hindex hold
      have heq : old = replaceEntry crypto name credential ip env old := by
        have h' := (hafter.symm.trans h).trans hbefore
        exact (Option.some.inj h').symm
      exact absurd (congrArg PendingDevice.credentialHash heq) hhash
    | repeated index old hindex hold hhash => exact pruneLocked_subset

/-! ## One entry for each device ID -/

theorem uniquePending_call (h : store.UniquePending) (call : PairingCall) :
    (store.call crypto env call).UniquePending := by
  cases call with
  | request id name credential ip auto =>
    have hspec := request_spec crypto store id name credential ip auto env
    simp only [PairingStore.call]
    cases hreq : store.request crypto id name credential ip auto env with
    | mk store' result =>
      rw [hreq] at hspec
      cases hspec with
      | waiting _ waits pended => exact pended.unique (h.sublist pendingKeys_pruneLocked)
      | settled _ _ settles fewer => exact h.sublist fewer
  | status id credential => exact h.sublist pendingKeys_status
  | trustCredentialHash id name hash ip clientType mode =>
    have hkeys : (store.call crypto env
      (.trustCredentialHash id name hash ip clientType mode)).pendingKeys =
        store.pendingKeys := pendingKeys_trustCredentialHash
    exact h.sublist (hkeys ▸ List.Sublist.refl _)
  | approve id => exact h.sublist pendingKeys_approve
  | deny id =>
    have hkeys : (store.call crypto env (.deny id)).pendingKeys = store.pendingKeys :=
      pendingKeys_deny
    exact h.sublist (hkeys ▸ List.Sublist.refl _)
  | revoke id => exact h.sublist pendingKeys_revoke
  | revokeAll => exact h.sublist pendingKeys_revokeAll

theorem uniquePending_of_run (hrun : StoreRun crypto (.init file clock) s) :
    s.store.UniquePending := by
  refine hrun.invariant (I := fun s => s.store.UniquePending) List.nodup_nil ?_
  intro s l t hunique _ hst
  rw [(storeStep_spec hst).2.2]
  exact uniquePending_call hunique l.call

end PairingStore

end LocalMediaTransfer
