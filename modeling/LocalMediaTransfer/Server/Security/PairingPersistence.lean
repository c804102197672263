import LocalMediaTransfer.Server.Security.PairingDecisions

/-!
# Persistence of the trusted devices

Memory and the file of the trusted devices, over every run of calls whose saves may fail.

* `saves`, `call_quiet` — the calls that save; the others touch neither trusted devices nor file.
* `call_saved` — a save that works leaves the trusted devices in the file.
* `uniqueTrusted_of_run` — no device ID is trusted twice.
* `persistence_atomic_iff` — a failed save leaves everything as it was, except that a request of a
  trusted device keeps the new name, address and time in memory.
* `disk_eq_trusted` — where that does not happen, the file always holds the trusted devices.
-/

set_option autoImplicit false

namespace LocalMediaTransfer

open Lib PairingStore

variable {crypto : Crypto} {store store' : PairingStore} {env : StoreEnv}
variable {id name credential ip hash clientType mode : ByteString} {auto : Bool}
variable {s t : StoreState} {l : StoreEvent} {call : PairingCall}
variable {file : Option (List TrustedDevice)} {clock : Nat}

namespace PairingStore

/-- The checks on the arguments of `trustCredentialHash`. -/
def trustable (id name hash clientType mode : ByteString) : Bool :=
  !(id.isEmpty || 128 < id.length || 128 < name.length || hash.length != 64 ||
    clientType != ascii "windows" || mode != ascii "approval_required")

/-- The call reaches `saveLocked`. -/
def saves (crypto : Crypto) (store : PairingStore) (env : StoreEnv) : PairingCall → Bool
  | .request id name credential _ _ =>
      wellFormed id name credential && (store.knownIndex crypto id credential).isSome
  | .status _ _ => false
  | .trustCredentialHash id name hash _ clientType mode => trustable id name hash clientType mode
  | .approve id => ((store.pruneLocked env).entry id).isSome
  | .deny _ => false
  | .revoke id => !store.trusted.all fun value => value.id != id
  | .revokeAll => true

/-- Trusted devices, file and pending requests are as before, apart from requests whose time had
passed when the call came. -/
structure Unchanged (env : StoreEnv) (store store' : PairingStore) : Prop where
  trusted : store'.trusted = store.trusted
  disk : store'.disk = store.disk
  pending : store'.pending = store.pending ∨ store'.pending = (store.pruneLocked env).pending

/-- A request of a trusted device brings nothing new: name, address and second of its last request
are those on record. -/
def Repeats (crypto : Crypto) (store : PairingStore) (env : StoreEnv) : PairingCall → Prop
  | .request id name credential ip _ =>
      ∀ item, store.trusted.find? (fun item =>
          item.id == id && item.credentialHash == crypto.sha256Hex credential) = some item →
        item.refreshed name ip env = item
  | _ => True

/-- No device ID is trusted twice. -/
def UniqueTrusted (store : PairingStore) : Prop := (store.trusted.map (·.id)).Nodup

/-! ## The calls, one by one -/

theorem saveLocked_unsaved (h : env.saved = false) : store.saveLocked env = none := by
  simp [saveLocked, h]

theorem saveLocked_saved (h : env.saved = true) :
    store.saveLocked env = some { store with disk := store.trusted } := by
  simp [saveLocked, h]

theorem trustCredentialHash_unsaved (h : env.saved = false) :
    (store.trustCredentialHash id name hash ip clientType mode env).1 = store := by
  unfold trustCredentialHash
  rw [saveLocked_unsaved h]
  split <;> rfl

theorem trustCredentialHash_saved (h : env.saved = true)
    (hargs : trustable id name hash clientType mode = true) :
    (store.trustCredentialHash id name hash ip clientType mode env).1 =
      { store.replaceDevice ⟨id, name, hash, ip, env.unixNow, clientType, mode⟩ with
        disk :=
          (store.replaceDevice ⟨id, name, hash, ip, env.unixNow, clientType, mode⟩).trusted } := by
  unfold trustCredentialHash
  rw [saveLocked_saved h, if_neg]
  simpa [trustable] using hargs

theorem trustCredentialHash_refused (hargs : trustable id name hash clientType mode = false) :
    (store.trustCredentialHash id name hash ip clientType mode env).1 = store := by
  unfold trustCredentialHash
  rw [if_pos]
  rwa [trustable, Bool.not_eq_false'] at hargs

theorem approve_unsaved (h : env.saved = false) :
    (store.approve id env).1 = store.pruneLocked env := by
  unfold approve
  simp only
  split
  · rfl
  · rw [saveLocked_unsaved h]

theorem approve_unknown (h : (store.pruneLocked env).entry id = none) :
    (store.approve id env).1 = store.pruneLocked env := by
  unfold approve
  simp only
  rw [show List.find? _ _ = none from h]

theorem approve_saved {item : PendingDevice} (h : env.saved = true)
    (hentry : (store.pruneLocked env).entry id = some item) :
    (store.approve id env).1.trusted = ((store.pruneLocked env).replaceDevice ⟨item.id, item.name,
        item.credentialHash, item.lastIp, env.unixNow, item.clientType,
        item.authorizationMode⟩).trusted ∧
      (store.approve id env).1.disk = (store.approve id env).1.trusted := by
  unfold approve
  simp only
  rw [show List.find? _ _ = some item from hentry]
  simp only [saveLocked_saved h, and_self]

theorem revoke_unsaved (h : env.saved = false) : (store.revoke id env).1 = store := by
  unfold revoke
  rw [saveLocked_unsaved h]
  split <;> rfl

theorem revoke_saved (h : env.saved = true) :
    (store.revoke id env).1.trusted = store.trusted.filter (fun value => value.id != id) ∧
      ((store.trusted.all fun value => value.id != id) = false →
        (store.revoke id env).1.disk = (store.revoke id env).1.trusted) := by
  unfold revoke
  split
  · rename_i hall
    constructor
    · exact (List.filter_eq_self.mpr (List.all_eq_true.mp hall)).symm
    · intro hnot
      rw [hall] at hnot
      cases hnot
  · rw [saveLocked_saved h]
    exact ⟨rfl, fun _ => rfl⟩

theorem revokeAll_unsaved (h : env.saved = false) : (store.revokeAll env).1 = store := by
  unfold revokeAll
  rw [saveLocked_unsaved h]

theorem revokeAll_saved (h : env.saved = true) : (store.revokeAll env).1 = ⟨[], [], []⟩ := by
  unfold revokeAll
  rw [saveLocked_saved h]

theorem find?_knownIndex {index : Nat} (h : store.knownIndex crypto id credential = some index) :
    ∃ item, store.trusted[index]? = some item ∧ store.trusted.find? (fun item =>
      item.id == id && item.credentialHash == crypto.sha256Hex credential) = some item := by
  obtain ⟨hlt, -⟩ := List.findIdx?_eq_some_iff_getElem.mp h
  have hitem : store.trusted[index]? = some store.trusted[index] := List.getElem?_eq_getElem hlt
  exact ⟨_, hitem, (find?_modify (f := fun item => item) (fun _ => rfl) h hitem).1⟩

/-- What a request of a trusted device does to memory when the save fails. -/
theorem request_unsaved (h : env.saved = false) (hform : wellFormed id name credential = true)
    {index : Nat} (hknown : store.knownIndex crypto id credential = some index) :
    (store.request crypto id name credential ip auto env).1 =
      { store.pruneLocked env with
        trusted := store.trusted.modify index (.refreshed name ip env) } := by
  have hcase := request_cases crypto store id name credential ip auto env
  generalize store.request crypto id name credential ip auto env = r at hcase
  cases hcase with
  | refused hrefused =>
    rw [hform] at hrefused
    cases hrefused
  | unsaved _ index' hknown' _ =>
    obtain rfl := Option.some.inj (hknown.symm.trans hknown')
    rfl
  | known _ _ _ hsaved =>
    rw [h] at hsaved
    cases hsaved
  | new _ hknown' =>
    rw [hknown] at hknown'
    cases hknown'

theorem request_saved (h : env.saved = true) (hform : wellFormed id name credential = true)
    {index : Nat} (hknown : store.knownIndex crypto id credential = some index) :
    (store.request crypto id name credential ip auto env).1.disk =
      (store.request crypto id name credential ip auto env).1.trusted := by
  have hcase := request_cases crypto store id name credential ip auto env
  generalize store.request crypto id name credential ip auto env = r at hcase ⊢
  cases hcase with
  | refused hrefused =>
    rw [hform] at hrefused
    cases hrefused
  | unsaved _ _ _ hsaved =>
    rw [h] at hsaved
    cases hsaved
  | known _ _ _ _ => rfl
  | new _ hknown' =>
    rw [hknown] at hknown'
    cases hknown'

/-- A request that does not save leaves the trusted devices alone. -/
theorem request_unknown
    (hno : store.saves crypto env (.request id name credential ip auto) = false) :
    (store.request crypto id name credential ip auto env).1.trusted = store.trusted ∧
      (store.request crypto id name credential ip auto env).1.disk = store.disk := by
  have hcase := request_cases crypto store id name credential ip auto env
  generalize store.request crypto id name credential ip auto env = r at hcase ⊢
  cases hcase with
  | refused hrefused => exact ⟨rfl, rfl⟩
  | unsaved hform index hknown _ => simp [saves, hform, hknown] at hno
  | known hform index hknown _ => simp [saves, hform, hknown] at hno
  | new _ _ => exact ⟨rfl, rfl⟩

/-! ## Any call -/

/-- Calls that do not save leave the trusted devices and the file alone. -/
theorem call_quiet (hno : store.saves crypto env call = false) :
    (store.call crypto env call).trusted = store.trusted ∧
      (store.call crypto env call).disk = store.disk := by
  cases call with
  | request id name credential ip auto => exact request_unknown hno
  | status id credential =>
    simp only [PairingStore.call, status]
    repeat' split
    all_goals exact ⟨rfl, rfl⟩
  | trustCredentialHash id name hash ip clientType mode =>
    rw [PairingStore.call, trustCredentialHash_refused hno]
    exact ⟨rfl, rfl⟩
  | approve id =>
    rw [PairingStore.call, approve_unknown
      (Option.not_isSome_iff_eq_none.mp (by simp [← hno, saves]))]
    exact ⟨rfl, rfl⟩
  | deny id =>
    simp only [PairingStore.call, deny]
    split <;> exact ⟨rfl, rfl⟩
  | revoke id =>
    rw [saves, Bool.not_eq_false'] at hno
    simp only [PairingStore.call, revoke, hno, if_true, and_self]
  | revokeAll => cases hno

/-- **A save that works** leaves the trusted devices in the file. -/
theorem call_saved (hsaves : store.saves crypto env call = true) (h : env.saved = true) :
    (store.call crypto env call).disk = (store.call crypto env call).trusted := by
  cases call with
  | request id name credential ip auto =>
    obtain ⟨hform, hknown⟩ := (Bool.and_eq_true _ _).mp hsaves
    obtain ⟨index, hindex⟩ := Option.isSome_iff_exists.mp hknown
    exact request_saved h hform hindex
  | status id credential => cases hsaves
  | trustCredentialHash id name hash ip clientType mode =>
    rw [PairingStore.call, trustCredentialHash_saved h hsaves]
  | approve id =>
    obtain ⟨item, hitem⟩ := Option.isSome_iff_exists.mp hsaves
    exact (approve_saved h hitem).2
  | deny id => cases hsaves
  | revoke id =>
    rw [saves, Bool.not_eq_true'] at hsaves
    exact (revoke_saved h).2 hsaves
  | revokeAll => rw [PairingStore.call, revokeAll_saved h]

/-- **A save that fails.** -/
theorem call_unsaved_iff (hsaves : store.saves crypto env call = true) (h : env.saved = false) :
    Unchanged env store (store.call crypto env call) ↔ store.Repeats crypto env call := by
  have hsame : Unchanged env store store := ⟨rfl, rfl, .inl rfl⟩
  have hpruned : Unchanged env store (store.pruneLocked env) := ⟨rfl, rfl, .inr rfl⟩
  cases call with
  | request id name credential ip auto =>
    obtain ⟨hform, hknown⟩ := (Bool.and_eq_true _ _).mp hsaves
    obtain ⟨index, hindex⟩ := Option.isSome_iff_exists.mp hknown
    obtain ⟨item, hitem, hfind⟩ := find?_knownIndex hindex
    rw [PairingStore.call, request_unsaved h hform hindex, Repeats, hfind]
    simp only [Option.some.injEq, forall_eq']
    constructor
    · intro hunchanged
      have hat : (store.trusted.modify index (.refreshed name ip env))[index]? = some item := by
        rw [show store.trusted.modify index _ = store.trusted from hunchanged.trusted, hitem]
      rw [List.getElem?_modify_eq, hitem] at hat
      exact Option.some.inj hat
    · intro hrepeats
      refine ⟨?_, rfl, .inr rfl⟩
      apply List.ext_getElem?
      intro j
      by_cases hij : index = j
      · subst hij
        rw [List.getElem?_modify_eq, hitem]
        exact congrArg some hrepeats
      · rw [List.getElem?_modify_ne _ _ hij]
  | status id credential => cases hsaves
  | trustCredentialHash id name hash ip clientType mode =>
    rw [PairingStore.call, trustCredentialHash_unsaved h]
    exact iff_of_true hsame trivial
  | approve id =>
    rw [PairingStore.call, approve_unsaved h]
    exact iff_of_true hpruned trivial
  | deny id => cases hsaves
  | revoke id =>
    rw [PairingStore.call, revoke_unsaved h]
    exact iff_of_true hsame trivial
  | revokeAll =>
    rw [PairingStore.call, revokeAll_unsaved h]
    exact iff_of_true hsame trivial

/-! ## Device IDs -/

theorem uniqueTrusted_replaceDevice (h : store.UniqueTrusted) (device : TrustedDevice) :
    (store.replaceDevice device).UniqueTrusted := by
  rw [UniqueTrusted, replaceDevice, List.map_append, List.nodup_append]
  refine ⟨List.Nodup.sublist (List.filter_sublist.map _) h, List.nodup_singleton _, ?_⟩
  intro a ha b hb
  obtain ⟨value, hvalue, rfl⟩ := List.mem_map.mp ha
  rw [List.map_singleton, List.mem_singleton] at hb
  subst hb
  simpa using (List.mem_filter.mp hvalue).2

theorem uniqueTrusted_of_trusted (h : store.UniqueTrusted) (heq : store'.trusted = store.trusted) :
    store'.UniqueTrusted := by
  rw [UniqueTrusted, heq]
  exact h

theorem uniqueTrusted_call (h : store.UniqueTrusted) (env : StoreEnv) (call : PairingCall) :
    (store.call crypto env call).UniqueTrusted := by
  by_cases hsaves : store.saves crypto env call = true
  · cases call with
    | request id name credential ip auto =>
      have hmodify : ∀ index pending disk, (PairingStore.mk pending
          (store.trusted.modify index (.refreshed name ip env)) disk).UniqueTrusted := by
        intro index pending disk
        have hids : (store.trusted.modify index (.refreshed name ip env)).map (·.id) =
            store.trusted.map (·.id) := map_modify_same fun _ => rfl
        show ((store.trusted.modify index _).map (·.id)).Nodup
        rw [hids]
        exact h
      have hcase := request_cases crypto store id name credential ip auto env
      rw [PairingStore.call]
      generalize store.request crypto id name credential ip auto env = r at hcase ⊢
      cases hcase with
      | refused hrefused => exact h
      | unsaved _ index _ _ => exact hmodify index _ _
      | known _ index _ _ => exact hmodify index _ _
      | new _ _ => exact h
    | status id credential => cases hsaves
    | trustCredentialHash id name hash ip clientType mode =>
      cases hsaved : env.saved with
      | false => rwa [PairingStore.call, trustCredentialHash_unsaved hsaved]
      | true =>
        rw [PairingStore.call, trustCredentialHash_saved hsaved hsaves]
        exact uniqueTrusted_of_trusted (uniqueTrusted_replaceDevice h _) rfl
    | approve id =>
      cases hsaved : env.saved with
      | false => rwa [PairingStore.call, approve_unsaved hsaved]
      | true =>
        obtain ⟨item, hitem⟩ := Option.isSome_iff_exists.mp hsaves
        have hpruned : (store.pruneLocked env).UniqueTrusted := h
        exact uniqueTrusted_of_trusted (uniqueTrusted_replaceDevice hpruned _)
          (approve_saved hsaved hitem).1
    | deny id => cases hsaves
    | revoke id =>
      cases hsaved : env.saved with
      | false => rwa [PairingStore.call, revoke_unsaved hsaved]
      | true =>
        rw [UniqueTrusted, PairingStore.call, (revoke_saved hsaved).1]
        exact List.Nodup.sublist (List.filter_sublist.map _) h
    | revokeAll =>
      cases hsaved : env.saved with
      | false => rwa [PairingStore.call, revokeAll_unsaved hsaved]
      | true =>
        rw [PairingStore.call, revokeAll_saved hsaved]
        exact List.nodup_nil
  · exact uniqueTrusted_of_trusted h (call_quiet (by simpa using hsaves)).1

end PairingStore

/-! ## Runs -/

theorem uniqueTrusted_of_run (hfile : ((file.getD []).map (·.id)).Nodup)
    (hrun : StoreRun crypto (.init file clock) s) : s.store.UniqueTrusted := by
  refine hrun.invariant (I := fun s => s.store.UniqueTrusted) hfile ?_
  intro s l t hunique _ hst
  rw [(storeStep_spec hst).2.2]
  exact uniqueTrusted_call hunique l.env l.call

/-- **Persistence of the trusted devices.** -/
theorem persistence_atomic_iff (hfile : ((file.getD []).map (·.id)).Nodup)
    (hrun : StoreRun crypto (.init file clock) s) :
    s.store.UniqueTrusted ∧
      ∀ l : StoreEvent, s.store.saves crypto l.env l.call = true →
        (l.env.saved = true → (s.store.call crypto l.env l.call).disk =
          (s.store.call crypto l.env l.call).trusted) ∧
        (l.env.saved = false → (Unchanged l.env s.store (s.store.call crypto l.env l.call) ↔
          s.store.Repeats crypto l.env l.call)) :=
  ⟨uniqueTrusted_of_run hfile hrun, fun _ hsaves =>
    ⟨call_saved hsaves, call_unsaved_iff hsaves⟩⟩

/-- In a run whose failed saves are of such calls, the file always holds the trusted devices. -/
theorem disk_eq_trusted
    (hrun : Run (storeStep crypto) (fun s l => s.store.saves crypto l.env l.call = true →
      l.env.saved = false → s.store.Repeats crypto l.env l.call) (.init file clock) s) :
    s.store.disk = s.store.trusted := by
  refine hrun.invariant (I := fun s => s.store.disk = s.store.trusted) rfl ?_
  intro s l t hsame hok hst
  rw [(storeStep_spec hst).2.2]
  by_cases hsaves : s.store.saves crypto l.env l.call = true
  · cases hsaved : l.env.saved with
    | true => exact call_saved hsaves hsaved
    | false =>
      obtain ⟨htrusted, hdisk, -⟩ := (call_unsaved_iff hsaves hsaved).mpr (hok hsaves hsaved)
      rw [htrusted, hdisk, hsame]
  · obtain ⟨htrusted, hdisk⟩ := call_quiet (Bool.not_eq_true _ ▸ hsaves)
    rw [htrusted, hdisk, hsame]

/-- The approval of a waiting phone is not saved: nothing has changed. -/
theorem persistence_atomic_iff_samplePhone :
    Unchanged { saved := false } phoneWaiting.store
      (phoneWaiting.store.call twoPhones { saved := false } (.approve (ascii "phone"))) :=
  ((@persistence_atomic_iff twoPhones phoneWaiting none 0 List.nodup_nil phoneWaiting_reached).2
    ⟨.approve (ascii "phone"), { saved := false }⟩ (by decide)).2 rfl |>.mpr trivial

/-- A trusted device asks again under another name while the file cannot be written: memory has the
new name, the file the old one. -/
theorem request_unsaved_kept :
    ∃ s, StoreRun twoPhones (.init none 0) s ∧
      s.store.saves twoPhones { saved := false } (.request (ascii "phone") (ascii "Eve")
        (List.replicate 32 97) (ascii "10.0.0.7") false) = true ∧
      ¬Unchanged { saved := false } s.store (s.store.call twoPhones { saved := false }
        (.request (ascii "phone") (ascii "Eve") (List.replicate 32 97)
          (ascii "10.0.0.7") false)) := by
  obtain ⟨s, hrun, htest⟩ := Run.exists_of_exec (storeStep twoPhones) (P := fun _ _ => True)
    (fun _ _ => true)
    (fun s => decide (s.store.saves twoPhones { saved := false } (.request (ascii "phone")
        (ascii "Eve") (List.replicate 32 97) (ascii "10.0.0.7") false) = true ∧
      (s.store.call twoPhones { saved := false } (.request (ascii "phone") (ascii "Eve")
        (List.replicate 32 97) (ascii "10.0.0.7") false)).trusted ≠ s.store.trusted))
    (.init none 0) [⟨phoneRequest 97 false, {}⟩, ⟨.approve (ascii "phone"), {}⟩]
    (fun _ _ _ => trivial) (by decide)
  obtain ⟨hsaves, hchanged⟩ := of_decide_eq_true htest
  exact ⟨s, hrun, hsaves, fun h => hchanged h.trusted⟩

end LocalMediaTransfer
