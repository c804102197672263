import LocalMediaTransfer.Lib.Run
import LocalMediaTransfer.Server.Security.NativeSession.Model

/-!
# Runs of the native session store

Senders, the receiver's user and the clock drive one `NativeSessionStore`.  A step is one call, the
passage of time, or a call of the phone pairing on the `PairingStore` that both share.  The history
holds every call with its time, its answer and the devices that were trusted when it began, so that
properties speak about what happened and not about the fields of the store.

The tables of the source are hash tables, whose order of iteration is not specified and may change
at any time: `NativeLabel.reorder` is a step of its own.
-/

set_option autoImplicit false

namespace LocalMediaTransfer

open Lib

/-- The calls of the store; `requestId` is drawn by the random generator. -/
inductive NativeOp where
  | beginPairingWindow
  | endPairingWindow
  | requestPairing (body : PairingBody) (ip requestId : ByteString)
  | confirmPairing (requestId proof : ByteString) (env : StoreEnv)
  | pairingStatus (requestId clientId credential : ByteString)
  | approvePairing (requestId : ByteString) (env : StoreEnv)
  | denyPairing (requestId : ByteString)
  | revokeCurrentDevice (credential ip : ByteString) (env : StoreEnv)
  | requestTransfer (body : TransferBody) (credential ip requestId : ByteString)
  | transferStatus (requestId credential : ByteString)
  | approveTransfer (requestId : ByteString)
  | denyTransfer (requestId : ByteString)
  | cancelTransfer (transferId token : ByteString)
  | authorizeTransfer (token transferId : ByteString)
  | authorizeFile (token transferId fileId name : ByteString) (sizeBytes : Nat)
      (skipExactDuplicates : Bool)
  | markFileTerminal (transferId fileId : ByteString)
  | revokeDevice (deviceId : ByteString) (env : StoreEnv)
  | revokeAll (env : StoreEnv)

inductive NativeAnswer where
  | done
  | flag (value : Bool)
  | result (value : NativeResult)
  | threw (what : String)
  deriving DecidableEq

/-- The answer of a call that may throw. -/
def NativeAnswer.ofExcept {α : Type} (f : α → NativeAnswer) : Except String α → NativeAnswer
  | .ok value => f value
  | .error what => .threw what

/-- One call. -/
def NativeSessionStore.call (cfg : NativeConfig) (store : NativeSessionStore) (now : Nat) :
    NativeOp → NativeSessionStore × NativeAnswer
  | .beginPairingWindow => (store.beginPairingWindow now, .done)
  | .endPairingWindow => (store.endPairingWindow, .done)
  | .requestPairing body ip requestId =>
    (store.requestPairing cfg now body ip requestId).map id .result
  | .confirmPairing requestId proof env =>
    (store.confirmPairing now requestId proof env).map id .result
  | .pairingStatus requestId clientId credential =>
      (store.pairingStatus cfg now requestId clientId credential).map id .result
  | .approvePairing requestId env => (store.approvePairing now requestId env).map id .flag
  | .denyPairing requestId => (store.denyPairing now requestId).map id .flag
  | .revokeCurrentDevice credential ip env =>
      (store.revokeCurrentDevice cfg credential ip env).map id (.ofExcept .result)
  | .requestTransfer body credential ip requestId =>
      (store.requestTransfer cfg now body credential ip requestId).map id .result
  | .transferStatus requestId credential =>
      (store.transferStatus cfg now requestId credential).map id .result
  | .approveTransfer requestId => (store.approveTransfer now requestId).map id .flag
  | .denyTransfer requestId => (store.denyTransfer requestId).map id .flag
  | .cancelTransfer transferId token => (store.cancelTransfer cfg transferId token).map id .result
  | .authorizeTransfer token transferId =>
      (store.authorizeTransfer cfg now token transferId).map id .flag
  | .authorizeFile token transferId fileId name sizeBytes skip =>
      (store.authorizeFile cfg now token transferId fileId name sizeBytes skip).map id .flag
  | .markFileTerminal transferId fileId => (store.markFileTerminal transferId fileId, .done)
  | .revokeDevice deviceId env => (store.revokeDevice deviceId env).map id (.ofExcept .flag)
  | .revokeAll env => (store.revokeAll env).map id (.ofExcept fun _ => .done)

/-- The calls of the phone pairing that share the trusted devices. -/
inductive PhoneOp where
  | request (id name credential ip : ByteString) (autoApproveKnown : Bool) (env : StoreEnv)
  | approve (id : ByteString) (env : StoreEnv)
  | deny (id : ByteString)

def PairingStore.phone (crypto : Crypto) (store : PairingStore) : PhoneOp → PairingStore
  | .request id name credential ip auto env =>
    (store.request crypto id name credential ip auto env).1
  | .approve id env => (store.approve id env).1
  | .deny id => (store.deny id).1

/-- A call in the history. -/
structure NativeEntry where
  time : Nat
  /-- The trusted devices when the call began. -/
  trusted : List TrustedDevice
  op : NativeOp
  answer : NativeAnswer

structure NativeState where
  store : NativeSessionStore
  clock : Nat
  log : List NativeEntry

/-- A store that was just constructed. -/
def NativeState.init (pairingStore : PairingStore) (clock : Nat) : NativeState :=
  ⟨{ pairingStore }, clock, []⟩

inductive NativeLabel where
  | call (op : NativeOp)
  | advance (elapsed : Nat)
  | phone (op : PhoneOp)
  /-- The hash tables are traversed in another order from now on. -/
  | reorder (pairings : Table ByteString PairingRequest)
    (transfers : Table ByteString TransferRequest)

/-- The history entry of a call. -/
def NativeState.entry (cfg : NativeConfig) (s : NativeState) (op : NativeOp) : NativeEntry :=
  ⟨s.clock, s.store.pairingStore.trusted, op, (s.store.call cfg s.clock op).2⟩

/-- The state after a call. -/
def NativeState.after (cfg : NativeConfig) (s : NativeState) (op : NativeOp) : NativeState :=
  { s with store := (s.store.call cfg s.clock op).1, log := s.log ++ [s.entry cfg op] }

/-- One step. -/
def nativeStep (cfg : NativeConfig) (s : NativeState) : NativeLabel → Option NativeState
  | .call op => some (s.after cfg op)
  | .advance elapsed => some { s with clock := s.clock + elapsed }
  | .phone op =>
      some { s with store :=
        { s.store with pairingStore := s.store.pairingStore.phone cfg.crypto op } }
  | .reorder pairings transfers =>
      if pairings.entries.isPerm s.store.pairings.entries &&
          transfers.entries.isPerm s.store.transfers.entries then
        some { s with store := { s.store with pairings, transfers } }
      else none

/-- What one step can do. -/
inductive NativeStep (cfg : NativeConfig) (s : NativeState) : NativeLabel → NativeState → Prop where
  | call (op : NativeOp) : NativeStep cfg s (.call op) (s.after cfg op)
  | advance (elapsed : Nat) : NativeStep cfg s
    (.advance elapsed) { s with clock := s.clock + elapsed }
  | phone (op : PhoneOp) :
      NativeStep cfg s (.phone op)
        { s with store :=
          { s.store with pairingStore := s.store.pairingStore.phone cfg.crypto op } }
  | reorder (pairings : Table ByteString PairingRequest)
    (transfers : Table ByteString TransferRequest)
      (samePairings : pairings.entries.Perm s.store.pairings.entries)
      (sameTransfers : transfers.entries.Perm s.store.transfers.entries) :
      NativeStep cfg s (.reorder pairings transfers)
        { s with store := { s.store with pairings, transfers } }

theorem nativeStep_spec {cfg : NativeConfig} {s s' : NativeState} {l : NativeLabel}
    (h : nativeStep cfg s l = some s') : NativeStep cfg s l s' := by
  cases l with
  | call op =>
    cases h
    exact .call op
  | advance elapsed =>
    cases h
    exact .advance elapsed
  | phone op =>
    cases h
    exact .phone op
  | reorder pairings transfers =>
    simp only [nativeStep] at h
    split at h
    · rename_i hperm
      cases h
      rw [Bool.and_eq_true, List.isPerm_iff, List.isPerm_iff] at hperm
      exact .reorder pairings transfers hperm.1 hperm.2
    · cases h

/-! ## Fresh request IDs -/

/-- The ID that the random generator drew for a call. -/
def NativeOp.drawn : NativeOp → Option ByteString
  | .requestPairing _ _ requestId | .requestTransfer _ _ _ requestId => some requestId
  | _ => none

/-- `randomHex(16)` gives 32 digits and never repeats. -/
def NativeLabel.fresh (s : NativeState) : NativeLabel → Bool
  | .call op =>
      match op.drawn with
      | some id => id.length == 32 && s.log.all fun x => x.op.drawn != some id
      | none => true
  | _ => true

theorem fresh_length {s : NativeState} {op : NativeOp} {id : ByteString}
    (h : (NativeLabel.call op).fresh s = true) (hid : op.drawn = some id) : id.length = 32 := by
  simp only [NativeLabel.fresh, hid, Bool.and_eq_true, beq_iff_eq] at h
  exact h.1

theorem fresh_new {s : NativeState} {op : NativeOp} {id : ByteString}
    (h : (NativeLabel.call op).fresh s = true) (hid : op.drawn = some id) :
    ∀ x ∈ s.log, x.op.drawn ≠ some id := by
  simp only [NativeLabel.fresh, hid, Bool.and_eq_true, List.all_eq_true, bne_iff_ne] at h
  exact h.2

/-! ## Histories of runs -/

variable {cfg : NativeConfig} {s s' : NativeState}

/-- The runs in which request IDs are fresh. -/
abbrev NativeRun (cfg : NativeConfig) : NativeState → NativeState → Prop :=
  Run (nativeStep cfg) fun t l => l.fresh t = true

theorem NativeStep.log_append {l : NativeLabel} (h : NativeStep cfg s l s') : ∃ new, s'.log =
    s.log ++ new := by
  cases h with
  | call op => exact ⟨[s.entry cfg op], rfl⟩
  | advance | phone | reorder => exact ⟨[], (List.append_nil _).symm⟩

theorem drawn_snoc {op : NativeOp} (h : (s.log.filterMap (·.op.drawn)).Nodup)
    (hfresh : (NativeLabel.call op).fresh s = true) :
    ((s.after cfg op).log.filterMap (·.op.drawn)).Nodup := by
  have hlog : (s.after cfg op).log = s.log ++ [s.entry cfg op] := rfl
  rw [hlog, List.filterMap_append]
  cases hid : op.drawn with
  | none =>
    rw [List.filterMap_cons_none (by exact hid)]
    simpa using h
  | some id =>
    rw [List.filterMap_cons_some (by exact hid), List.filterMap_nil, List.nodup_append]
    refine ⟨h, List.nodup_singleton _, ?_⟩
    intro a ha b hb
    rw [List.mem_singleton.mp hb]
    rintro rfl
    obtain ⟨x, hx, hdrawn⟩ := List.mem_filterMap.mp ha
    exact fresh_new hfresh hid x hx hdrawn

theorem mem_after_log {x : NativeEntry} {op : NativeOp} (h : x ∈ (s.after cfg op).log) :
    x ∈ s.log ∨ x = s.entry cfg op := by
  have hlog : (s.after cfg op).log = s.log ++ [s.entry cfg op] := rfl
  rw [hlog] at h
  rcases List.mem_append.mp h with h | h
  · exact .inl h
  · exact .inr (List.mem_singleton.mp h)

end LocalMediaTransfer
