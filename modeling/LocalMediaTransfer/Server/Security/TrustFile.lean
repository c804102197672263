import LocalMediaTransfer.Server.Json
import LocalMediaTransfer.Server.Security.PairingPersistence

/-!
# The file of the trusted devices, and restarts

What `PairingStore::saveLocked` writes and `PairingStore::load` reads back, and the store over any
number of restarts of the server.  The text of a document is left to the JSON library.

* `load_devicesFile` — what is saved is loaded again.
* `standing`, `mem_standing_iff` — the trust that a list of decisions leaves.
* `trust_refines` — trusted devices and file are the standing decisions, in every run.
* `trust_survives_restarts` — **a credential is accepted exactly while its grant stands**, whatever
  saves fail and whenever the server is restarted.
-/

set_option autoImplicit false

namespace LocalMediaTransfer

open Lib PairingStore

/-! ## The file -/

/-- A device in the file. -/
def TrustedDevice.toJson (item : TrustedDevice) : Json :=
  .object
    [(ascii "id", .string item.id), (ascii "name", .string item.name),
      (ascii "credentialHash", .string item.credentialHash), (ascii "lastIp", .string item.lastIp),
      (ascii "lastSeenUnix", .integer item.lastSeenUnix),
      (ascii "clientType", .string item.clientType),
      (ascii "authorizationMode", .string item.authorizationMode)]

/-- The document that `saveLocked` writes. -/
def devicesFile (trusted : List TrustedDevice) : Json :=
  .object [(ascii "version", .integer 2), (ascii "devices", .array (trusted.map (·.toJson)))]

/-- What a loop over a document visits; the members of an object are in the order of their keys. -/
def Json.elements : Json → List Json
  | .null => []
  | .array items => items
  | .object members => members.map (·.2)
  | value => [value]

/-- One round of the loop of `load`; `none` when it throws.  A negative time, which `saveLocked`
never writes, becomes zero. -/
def readDevice (value : Json) : Option TrustedDevice :=
  (value.value Json.getString "id" []).bind fun id =>
  (value.value Json.getString "name" (ascii "iPhone")).bind fun name =>
  (value.value Json.getString "credentialHash" []).bind fun credentialHash =>
  (value.value Json.getString "lastIp" []).bind fun lastIp =>
  (value.value Json.getInt64 "lastSeenUnix" 0).bind fun lastSeenUnix =>
  (value.value Json.getString "clientType" (ascii "ios")).bind fun clientType =>
  (value.value Json.getString "authorizationMode" (ascii "direct_upload")).map
    fun authorizationMode =>
    { id, name, credentialHash, lastIp, lastSeenUnix := lastSeenUnix.toNat, clientType
      authorizationMode }

/-- The devices that `load` reads; `none` is a file that is missing or that is no document. -/
def loadDevices : Option Json → List TrustedDevice
  | none => []
  | some root =>
      ((root.value some "devices" (.array [])).bind fun devices =>
        devices.elements.mapM readDevice).getD []

/-- The time fits a `long long`. -/
def TrustedDevice.Timed (item : TrustedDevice) : Prop := item.lastSeenUnix < 2 ^ 63

theorem readDevice_toJson {item : TrustedDevice} (h : item.Timed) :
    readDevice item.toJson = some item := by
  have htime : Json.getInt64 (.integer item.lastSeenUnix) = some (item.lastSeenUnix : Int) := by
    unfold TrustedDevice.Timed at h
    simp only [Json.getInt64, Option.some.injEq]
    rw [Int.bmod_eq_of_le] <;> omega
  unfold readDevice TrustedDevice.toJson
  simp (disch := decide) only [value_head, value_tail, Json.getString, htime, Option.bind_some,
    Option.map_some, Int.toNat_natCast]

theorem mapM_readDevice {trusted : List TrustedDevice} (h : ∀ item ∈ trusted, item.Timed) :
    (trusted.map (·.toJson)).mapM readDevice = some trusted := by
  induction trusted with
  | nil => rfl
  | cons item rest ih =>
    have hrest := ih fun other hother => h other (List.mem_cons_of_mem _ hother)
    rw [List.map_cons, List.mapM_cons, readDevice_toJson (h item (List.mem_cons_self ..)), hrest]
    rfl

/-- **What is saved is loaded again.** -/
theorem load_devicesFile {trusted : List TrustedDevice} (h : ∀ item ∈ trusted, item.Timed) :
    loadDevices (some (devicesFile trusted)) = trusted := by
  unfold loadDevices devicesFile
  simp (disch := decide) only [value_head, value_tail, Option.bind_some, Json.elements,
    mapM_readDevice h, Option.getD_some]

theorem readDevice_timed {value : Json} {item : TrustedDevice} (h : readDevice value = some item) :
    item.Timed := by
  unfold readDevice at h
  simp only [Option.bind_eq_some_iff, Option.map_eq_some_iff] at h
  obtain ⟨id, -, name, -, hash, -, ip, -, time, htime, clientType, -, mode, -, rfl⟩ := h
  show time.toNat < 2 ^ 63
  unfold Json.value at htime
  split at htime
  · split at htime
    · cases htime
      decide
    · rename_i member _
      cases member with
      | integer value =>
        have hlt : value.bmod (2 ^ 64) < 2 ^ 63 := by
          have := Int.bmod_lt (x := value) (m := 2 ^ 64) (by decide)
          omega
        cases htime
        omega
      | floating value =>
        have hlt : truncated 64 value < 2 ^ 63 := by
          unfold truncated
          dsimp only
          split <;> omega
        cases htime
        omega
      | null | boolean value | string value | array items | object members => cases htime
  · cases htime

theorem mapM_timed {elements : List Json} {devices : List TrustedDevice}
    (h : elements.mapM readDevice = some devices) : ∀ item ∈ devices, item.Timed := by
  induction elements generalizing devices with
  | nil =>
    cases h
    exact fun item hitem => by cases hitem
  | cons element rest ih =>
    rw [List.mapM_cons] at h
    obtain ⟨item, hitem, h⟩ := Option.bind_eq_some_iff.mp h
    obtain ⟨others, hothers, h⟩ := Option.bind_eq_some_iff.mp h
    cases h
    exact List.forall_mem_cons.mpr ⟨readDevice_timed hitem, ih hothers⟩

theorem loadDevices_timed (file : Option Json) : ∀ item ∈ loadDevices file, item.Timed := by
  intro item hitem
  cases file with
  | none => cases hitem
  | some root =>
    rw [loadDevices] at hitem
    cases hdevices : (root.value some "devices" (.array [])).bind fun devices =>
        devices.elements.mapM readDevice with
    | none =>
      rw [hdevices] at hitem
      cases hitem
    | some devices =>
      rw [hdevices] at hitem
      obtain ⟨value, -, hread⟩ := Option.bind_eq_some_iff.mp hdevices
      exact mapM_timed hread item hitem

/-! ## Decisions -/

/-- What is decided about a device: all of its entry but name, address and time. -/
structure TrustKey where
  id : ByteString
  credentialHash : ByteString
  clientType : ByteString
  authorizationMode : ByteString
  deriving DecidableEq

def TrustedDevice.key (item : TrustedDevice) : TrustKey :=
  ⟨item.id, item.credentialHash, item.clientType, item.authorizationMode⟩

inductive TrustDecision where
  | grant (key : TrustKey)
  | remove (id : ByteString)
  | removeAll
  deriving DecidableEq

namespace TrustDecision

/-- The decision ends what was granted to a device ID before. -/
def ends (id : ByteString) : TrustDecision → Bool
  | .grant key => key.id == id
  | .remove other => other == id
  | .removeAll => true

/-- The keys after a decision. -/
def apply (keys : List TrustKey) : TrustDecision → List TrustKey
  | .grant key => keys.filter (fun old => old.id != key.id) ++ [key]
  | .remove id => keys.filter fun old => old.id != id
  | .removeAll => []

end TrustDecision

/-- The keys that a list of decisions leaves, oldest decision first. -/
def standing (keys : List TrustKey) (decisions : List TrustDecision) : List TrustKey :=
  decisions.foldl TrustDecision.apply keys

/-- The decision of a call, told by its answer; a call that throws or says no decides nothing. -/
def PairingStore.decision (store : PairingStore) (env : StoreEnv) :
    PairingCall → Option TrustDecision
  | .approve id =>
      if (store.approve id env).2 = true then
        ((store.pruneLocked env).entry id).map fun item =>
          .grant ⟨item.id, item.credentialHash, item.clientType, item.authorizationMode⟩
      else none
  | .trustCredentialHash id name hash ip clientType mode =>
      if (store.trustCredentialHash id name hash ip clientType mode env).2 = true then
        some (.grant ⟨id, hash, clientType, mode⟩)
      else none
  | .revoke id => if (store.revoke id env).2.toOption = some true then some (.remove id) else none
  | .revokeAll => if (store.revokeAll env).2.toOption.isSome then some .removeAll else none
  | .request _ _ _ _ _ | .status _ _ | .deny _ => none

theorem mem_apply {keys : List TrustKey} {decision : TrustDecision} {key : TrustKey} :
    key ∈ decision.apply keys ↔
      decision = .grant key ∨ (key ∈ keys ∧ decision.ends key.id = false) := by
  cases decision with
  | grant granted =>
    simp only [TrustDecision.apply, List.mem_append, List.mem_filter, List.mem_singleton,
      TrustDecision.ends, TrustDecision.grant.injEq]
    constructor
    · rintro (⟨hmem, hid⟩ | rfl)
      · refine .inr ⟨hmem, ?_⟩
        rw [bne_iff_ne] at hid
        exact beq_false_of_ne (Ne.symm hid)
      · exact .inl rfl
    · rintro (rfl | ⟨hmem, hid⟩)
      · exact .inr rfl
      · exact .inl ⟨hmem, bne_iff_ne.mpr fun h =>
          beq_iff_eq.not.mp (Bool.not_eq_true _ ▸ hid) h.symm⟩
  | remove id =>
    simp only [TrustDecision.apply, List.mem_filter, TrustDecision.ends, reduceCtorEq, false_or]
    refine and_congr_right fun _ => ?_
    rw [bne_iff_ne, beq_eq_false_iff_ne]
    exact ⟨Ne.symm, Ne.symm⟩
  | removeAll => simp [TrustDecision.apply, TrustDecision.ends]

/-- **What stands**: a key that was granted, or there at the start, and that no later decision
ended. -/
theorem mem_standing_iff {keys : List TrustKey} {decisions : List TrustDecision} {key : TrustKey} :
    key ∈ standing keys decisions ↔
      (∃ before after, decisions = before ++ .grant key :: after ∧
        ∀ decision ∈ after, decision.ends key.id = false) ∨
      (key ∈ keys ∧ ∀ decision ∈ decisions, decision.ends key.id = false) := by
  induction decisions using List.reverseRecOn with
  | nil => simp [standing]
  | append_singleton decisions decision ih =>
    have hstep : standing keys (decisions ++ [decision]) =
        decision.apply (standing keys decisions) := by
      rw [standing, List.foldl_append]
      rfl
    rw [hstep, mem_apply, ih]
    constructor
    · rintro (rfl | ⟨⟨before, after, rfl, hafter⟩ | ⟨hmem, hnone⟩, hends⟩)
      · exact .inl ⟨decisions, [], rfl, fun decision hmem => by cases hmem⟩
      · refine .inl ⟨before, after ++ [decision], by simp, ?_⟩
        exact List.forall_mem_append.mpr ⟨hafter, List.forall_mem_singleton.mpr hends⟩
      · exact .inr ⟨hmem, List.forall_mem_append.mpr ⟨hnone, List.forall_mem_singleton.mpr hends⟩⟩
    · rintro (⟨before, after, hsplit, hafter⟩ | ⟨hmem, hnone⟩)
      · induction after using List.reverseRecOn with
        | nil =>
          obtain ⟨-, hlast⟩ := List.append_inj' hsplit rfl
          cases hlast
          exact .inl rfl
        | append_singleton after last _ =>
          rw [← List.cons_append, ← List.append_assoc] at hsplit
          obtain ⟨rfl, hlast⟩ := List.append_inj' hsplit rfl
          cases hlast
          obtain ⟨hafter, hends⟩ := List.forall_mem_append.mp hafter
          exact .inr ⟨.inl ⟨before, after, rfl, hafter⟩, hends _ (List.mem_singleton_self _)⟩
      · obtain ⟨hnone, hends⟩ := List.forall_mem_append.mp hnone
        exact .inr ⟨.inr ⟨hmem, hnone⟩, hends _ (List.mem_singleton_self _)⟩

/-! ## The calls -/

section Calls

variable {crypto : Crypto} {store : PairingStore} {env : StoreEnv} {call : PairingCall}

theorem keys_replaceDevice (store : PairingStore) (device : TrustedDevice) :
    (store.replaceDevice device).trusted.map (·.key) =
      (TrustDecision.grant device.key).apply (store.trusted.map (·.key)) := by
  simp only [replaceDevice, TrustDecision.apply, List.map_append, List.map_singleton,
    List.filter_map]
  rfl

theorem keys_refreshed (trusted : List TrustedDevice) (index : Nat) (name ip : ByteString) :
    (trusted.modify index (.refreshed name ip env)).map (·.key) = trusted.map (·.key) :=
  map_modify_same fun _ => rfl

theorem request_trusted (crypto : Crypto) (store : PairingStore)
    (id name credential ip : ByteString)
    (auto : Bool) (env : StoreEnv) :
    (store.request crypto id name credential ip auto env).1.trusted = store.trusted ∨
      ∃ index, (store.request crypto id name credential ip auto env).1.trusted =
        store.trusted.modify index (.refreshed name ip env) := by
  have hcase := request_cases crypto store id name credential ip auto env
  generalize store.request crypto id name credential ip auto env = r at hcase
  cases hcase with
  | refused _ => exact .inl rfl
  | unsaved _ index _ _ => exact .inr ⟨index, rfl⟩
  | known _ index _ _ => exact .inr ⟨index, rfl⟩
  | new _ _ => exact .inl rfl

/-- Trusted devices and what a call makes of them: their keys move by the decision of the call, and
an entry that is not as before has the time of the call. -/
structure Moved (env : StoreEnv) (trusted trusted' : List TrustedDevice)
    (decision : Option TrustDecision) : Prop where
  keys : trusted'.map (·.key) = standing (trusted.map (·.key)) decision.toList
  seen : ∀ item ∈ trusted', item ∈ trusted ∨ item.lastSeenUnix = env.unixNow

theorem Moved.refl (trusted : List TrustedDevice) : Moved env trusted trusted none :=
  ⟨rfl, fun _ hitem => .inl hitem⟩

theorem Moved.refreshed (trusted : List TrustedDevice) (index : Nat) (name ip : ByteString) :
    Moved env trusted (trusted.modify index (.refreshed name ip env)) none := by
  refine ⟨keys_refreshed _ _ _ _, fun item hitem => ?_⟩
  rcases mem_modify hitem with hitem | ⟨old, -, rfl⟩
  · exact .inl hitem
  · exact .inr rfl

theorem Moved.replaced (store : PairingStore) {device : TrustedDevice}
    (hseen : device.lastSeenUnix = env.unixNow) :
    Moved env store.trusted (store.replaceDevice device).trusted (some (.grant device.key)) := by
  refine ⟨keys_replaceDevice store device, fun item hitem => ?_⟩
  rcases List.mem_append.mp hitem with hitem | hitem
  · exact .inl (List.mem_filter.mp hitem).1
  · exact .inr (List.mem_singleton.mp hitem ▸ hseen)

theorem approve_moved (store : PairingStore) (id : ByteString) :
    Moved env store.trusted (store.approve id env).1.trusted
      (store.decision env (.approve id)) := by
  rw [PairingStore.decision]
  split
  · rename_i hanswer
    obtain ⟨hsaved, -⟩ := approve_iff.mp hanswer
    cases hentry : (store.pruneLocked env).entry id with
    | none =>
      rw [approve_unknown hentry]
      exact .refl _
    | some item =>
      rw [(approve_saved hsaved hentry).1]
      exact Moved.replaced (store.pruneLocked env) rfl
  · rename_i hanswer
    cases hentry : (store.pruneLocked env).entry id with
    | none =>
      rw [approve_unknown hentry]
      exact .refl _
    | some item =>
      cases hsaved : env.saved with
      | false =>
        rw [approve_unsaved hsaved]
        exact .refl _
      | true =>
        refine absurd (approve_iff.mpr ⟨hsaved, item, ?_⟩) hanswer
        have hmem := List.mem_of_find?_eq_some hentry
        exact ⟨(List.mem_filter.mp hmem).1, (entry_spec hentry).2, live_expiresAt item hmem⟩

theorem trustCredentialHash_moved (store : PairingStore)
    (id name hash ip clientType mode : ByteString) :
    Moved env store.trusted (store.trustCredentialHash id name hash ip clientType
      mode env).1.trusted
      (store.decision env (.trustCredentialHash id name hash ip clientType mode)) := by
  rw [PairingStore.decision]
  unfold trustCredentialHash
  split
  · exact .refl _
  · cases hsaved : env.saved with
    | false =>
      rw [saveLocked_unsaved hsaved]
      exact .refl _
    | true =>
      rw [saveLocked_saved hsaved]
      exact Moved.replaced store rfl

theorem revoke_moved (store : PairingStore) (id : ByteString) :
    Moved env store.trusted (store.revoke id env).1.trusted (store.decision env (.revoke id)) := by
  rw [PairingStore.decision]
  unfold revoke
  split
  · exact .refl _
  · cases hsaved : env.saved with
    | false =>
      rw [saveLocked_unsaved hsaved]
      exact .refl _
    | true =>
      rw [saveLocked_saved hsaved]
      refine ⟨?_, fun item hitem => .inl (List.mem_filter.mp hitem).1⟩
      show List.map _ (List.filter _ store.trusted) = (TrustDecision.remove id).apply _
      rw [TrustDecision.apply, List.filter_map]
      rfl

theorem revokeAll_moved (store : PairingStore) :
    Moved env store.trusted (store.revokeAll env).1.trusted (store.decision env .revokeAll) := by
  rw [PairingStore.decision]
  unfold revokeAll
  cases hsaved : env.saved with
  | false =>
    rw [saveLocked_unsaved hsaved]
    exact .refl _
  | true =>
    rw [saveLocked_saved hsaved]
    exact ⟨rfl, fun item hitem => by cases hitem⟩

/-- **A call moves the keys of the trusted devices by its decision.** -/
theorem call_moved (crypto : Crypto) (store : PairingStore) (env : StoreEnv) (call : PairingCall) :
    Moved env store.trusted (store.call crypto env call).trusted (store.decision env call) := by
  cases call with
  | request id name credential ip auto =>
    rw [PairingStore.call]
    obtain heq | ⟨index, heq⟩ := request_trusted crypto store id name credential ip auto env
    · rw [heq]
      exact .refl _
    · rw [heq]
      exact .refreshed _ _ _ _
  | status id credential =>
    have hquiet : (store.call crypto env (.status id credential)).trusted = store.trusted :=
      (call_quiet rfl).1
    rw [hquiet]
    exact .refl _
  | trustCredentialHash id name hash ip clientType mode =>
    exact trustCredentialHash_moved store id name hash ip clientType mode
  | approve id => exact approve_moved store id
  | deny id =>
    have hquiet : (store.call crypto env (.deny id)).trusted = store.trusted := (call_quiet rfl).1
    rw [hquiet]
    exact .refl _
  | revoke id => exact revoke_moved store id
  | revokeAll => exact revokeAll_moved store

/-- Where nothing is saved, the file stays as it is, and no key changes in memory. -/
theorem call_unsaved (h : (store.saves crypto env call && env.saved) = false) :
    (store.call crypto env call).disk = store.disk ∧
      (store.call crypto env call).trusted.map (·.key) = store.trusted.map (·.key) := by
  cases hsaves : store.saves crypto env call with
  | false =>
    obtain ⟨htrusted, hdisk⟩ := call_quiet hsaves
    rw [htrusted]
    exact ⟨hdisk, rfl⟩
  | true =>
    rw [hsaves, Bool.true_and] at h
    cases call with
    | request id name credential ip auto =>
      obtain ⟨hform, hknown⟩ := (Bool.and_eq_true _ _).mp hsaves
      obtain ⟨index, hindex⟩ := Option.isSome_iff_exists.mp hknown
      rw [PairingStore.call, request_unsaved h hform hindex]
      exact ⟨rfl, keys_refreshed _ _ _ _⟩
    | status id credential => cases hsaves
    | trustCredentialHash id name hash ip clientType mode =>
      rw [PairingStore.call, trustCredentialHash_unsaved h]
      exact ⟨rfl, rfl⟩
    | approve id =>
      rw [PairingStore.call, approve_unsaved h]
      exact ⟨rfl, rfl⟩
    | deny id => cases hsaves
    | revoke id =>
      rw [PairingStore.call, revoke_unsaved h]
      exact ⟨rfl, rfl⟩
    | revokeAll =>
      rw [PairingStore.call, revokeAll_unsaved h]
      exact ⟨rfl, rfl⟩

end Calls

/-! ## Restarts -/

/-- The store of the running server, the file, and the decisions of all calls so far. -/
structure TrustSystem where
  process : StoreState
  file : Option Json
  decisions : List TrustDecision := []

/-- A call, or the end of the process, at whatever moment, and the start of the next one.  A process
that ends inside a call leaves the file as it was or as the call saved it. -/
inductive TrustLabel where
  | call (event : StoreEvent)
  | restart (clock : Nat)

/-- The start of a server over a file. -/
def TrustSystem.start (file : Option Json) (clock : Nat) : TrustSystem :=
  { process := .init (some (loadDevices file)) clock, file }

def trustStep (crypto : Crypto) (s : TrustSystem) : TrustLabel → Option TrustSystem
  | .call l =>
    (storeStep crypto s.process l).map fun process =>
      { process
        file := if s.process.store.saves crypto l.env l.call && l.env.saved then
            some (devicesFile process.store.trusted) else s.file
        decisions := s.decisions ++ (s.process.store.decision l.env l.call).toList }
  | .restart clock => some { s with process := .init (some (loadDevices s.file)) clock }

/-- The system clock is a `long long`. -/
def TrustLabel.timed : TrustLabel → Bool
  | .call l => decide (l.env.unixNow < 2 ^ 63)
  | .restart _ => true

/-- Memory and file hold the keys that stand, and the file is what `load` would read. -/
structure Refined (keys : List TrustKey) (s : TrustSystem) : Prop where
  trusted : s.process.store.trusted.map (·.key) = standing keys s.decisions
  disk : s.process.store.disk.map (·.key) = standing keys s.decisions
  file : loadDevices s.file = s.process.store.disk
  timed : ∀ item ∈ s.process.store.trusted, item.Timed

variable {crypto : Crypto} {keys : List TrustKey} {s t : TrustSystem} {l : TrustLabel}

theorem standing_append (keys : List TrustKey) (decisions more : List TrustDecision) :
    standing keys (decisions ++ more) = standing (standing keys decisions) more :=
  List.foldl_append

theorem Refined.step (h : Refined keys s) (hl : l.timed = true)
    (hs : trustStep crypto s l = some t) :
    Refined keys t := by
  cases l with
  | restart clock =>
    cases hs
    have hdisk : (loadDevices s.file).map (·.key) = standing keys s.decisions := by
      rw [h.file]
      exact h.disk
    exact ⟨hdisk, hdisk, rfl, loadDevices_timed s.file⟩
  | call l =>
    obtain ⟨process, hstep, rfl⟩ := Option.map_eq_some_iff.mp hs
    obtain ⟨-, -, hstore⟩ := storeStep_spec hstep
    have hmoved := call_moved crypto s.process.store l.env l.call
    rw [← hstore] at hmoved
    have htrusted : process.store.trusted.map (·.key) =
        standing keys (s.decisions ++ (s.process.store.decision l.env l.call).toList) := by
      rw [standing_append, ← h.trusted]
      exact hmoved.keys
    have htimed : ∀ item ∈ process.store.trusted, item.Timed := by
      intro item hitem
      rcases hmoved.seen item hitem with hold | hseen
      · exact h.timed item hold
      · rw [TrustedDevice.Timed, hseen]
        exact of_decide_eq_true hl
    by_cases hsave : (s.process.store.saves crypto l.env l.call && l.env.saved) = true
    · obtain ⟨hsaves, hsaved⟩ := (Bool.and_eq_true _ _).mp hsave
      have hdisk := call_saved hsaves hsaved
      rw [← hstore] at hdisk
      refine ⟨htrusted, ?_, ?_, htimed⟩
      · rw [hdisk]
        exact htrusted
      · rw [if_pos hsave, load_devicesFile htimed, hdisk]
    · obtain ⟨hdisk, hkeys⟩ := call_unsaved (Bool.not_eq_true _ ▸ hsave)
      rw [← hstore] at hdisk hkeys
      refine ⟨htrusted, ?_, ?_, htimed⟩
      · rw [hdisk, h.disk, ← h.trusted, ← hkeys]
        exact htrusted
      · rw [if_neg hsave, hdisk]
        exact h.file

/-- **Memory and file refine the standing decisions**, in every run of calls and restarts. -/
theorem trust_refines {file : Option Json} {clock : Nat}
    (hrun : Run (trustStep crypto) (fun _ l => l.timed = true) (.start file clock) s) :
    Refined ((loadDevices file).map (·.key)) s :=
  hrun.invariant ⟨rfl, rfl, rfl, loadDevices_timed file⟩ fun _ _ _ h hl hs => h.step hl hs

/-- **Trust survives restarts.**  In every run of calls, whose saves may fail, and of restarts at
any moment, a credential is accepted exactly if its hash was granted by an approval that answered
yes, or was in the file at the very start, for direct uploads, and no decision about the device
since then ended it; and the next start of the server would accept the same credentials. -/
theorem trust_survives_restarts {file : Option Json} {clock : Nat}
    (hrun : Run (trustStep crypto) (fun _ l => l.timed = true) (.start file clock) s)
    (credential : ByteString) :
    (s.process.store.validateCredential crypto credential = true ↔
      credential ≠ [] ∧ ∃ key : TrustKey, key.credentialHash = crypto.sha256Hex credential ∧
        key.authorizationMode = ascii "direct_upload" ∧
        ((∃ before after, s.decisions = before ++ .grant key :: after ∧
            ∀ decision ∈ after, decision.ends key.id = false) ∨
          (key ∈ (loadDevices file).map (·.key) ∧
            ∀ decision ∈ s.decisions, decision.ends key.id = false))) ∧
    (PairingStore.load (some (loadDevices s.file))).validateCredential crypto credential =
      s.process.store.validateCredential crypto credential := by
  have h := trust_refines hrun
  have haccepts : ∀ store : PairingStore, store.validateCredential crypto credential = true ↔
      credential ≠ [] ∧ ∃ key ∈ store.trusted.map (·.key),
        key.credentialHash = crypto.sha256Hex credential ∧
          key.authorizationMode = ascii "direct_upload" := by
    intro store
    unfold PairingStore.validateCredential
    split
    · rename_i hempty
      exact iff_of_false Bool.false_ne_true fun hne => hne.1 (List.isEmpty_iff.mp hempty)
    · rename_i hempty
      rw [List.any_eq_true]
      constructor
      · rintro ⟨item, hitem, htest⟩
        obtain ⟨hhash, hmode⟩ := (Bool.and_eq_true _ _).mp htest
        exact ⟨fun hnil => hempty (List.isEmpty_iff.mpr hnil), item.key,
          List.mem_map_of_mem hitem, beq_iff_eq.mp hhash, beq_iff_eq.mp hmode⟩
      · rintro ⟨-, key, hkey, hhash, hmode⟩
        obtain ⟨item, hitem, rfl⟩ := List.mem_map.mp hkey
        exact ⟨item, hitem, (Bool.and_eq_true _ _).mpr ⟨beq_iff_eq.mpr hhash, beq_iff_eq.mpr hmode⟩⟩
  constructor
  · rw [haccepts, h.trusted]
    refine and_congr_right fun _ => exists_congr fun key => ?_
    rw [mem_standing_iff, and_comm, and_assoc]
  · rw [Bool.eq_iff_iff, haccepts, haccepts]
    have hsame : (PairingStore.load (some (loadDevices s.file))).trusted.map (·.key) =
        s.process.store.trusted.map (·.key) := by
      show (loadDevices s.file).map (·.key) = _
      rw [h.file, h.disk, h.trusted]
    rw [hsame]

/-- A phone is approved, the server is restarted twice, and a request of another device is
denied. -/
theorem trust_survives_restarts_phone :
    ∃ s : TrustSystem, s.process.store.validateCredential twoPhones (List.replicate 32 97) = true ∧
      (PairingStore.load (some (loadDevices s.file))).validateCredential twoPhones
        (List.replicate 32 97) = true := by
  obtain ⟨s, hrun, htest⟩ := Run.exists_of_exec (trustStep twoPhones)
    (P := fun _ l => l.timed = true) (fun _ l => l.timed)
    (fun s => s.process.store.validateCredential twoPhones (List.replicate 32 97))
    (.start none 0)
    [.call ⟨phoneRequest 97 false, {}⟩, .call ⟨.approve (ascii "phone"), { unixNow := 1700000000 }⟩,
      .restart 5, .call ⟨.deny (ascii "other"), { steadyNow := 6 }⟩, .restart 0]
    (fun _ _ hl => hl) (by decide)
  have h := trust_survives_restarts hrun (List.replicate 32 97)
  exact ⟨s, htest, h.2.trans htest⟩

end LocalMediaTransfer
