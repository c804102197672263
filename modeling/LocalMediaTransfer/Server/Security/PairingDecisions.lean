import LocalMediaTransfer.Server.Security.PairingCalls

/-!
# Decisions of the pairing store

Which decision a phone is told, and which one counts.

* `approve_iff` — an approval succeeds exactly if the device ID has an entry that has not expired
  and the save works; it does not ask whether the entry was denied.
* `denied_promoted_iff` — so after a denial a late approval makes the credential trusted until the
  entry has expired or has been removed.
* `request_status_agree_iff` — `status` repeats the answer of `request`, except to a device that is
  trusted already and has an entry of another credential, a denied one, or, with auto-approval, any.
-/

set_option autoImplicit false

namespace LocalMediaTransfer

open Lib PairingStore

variable {crypto : Crypto} {store store' : PairingStore} {env : StoreEnv}
variable {id name credential ip hash : ByteString} {auto : Bool} {s s' t : StoreState}
    {l : StoreEvent}
variable {file : Option (List TrustedDevice)} {clock : Nat} {item : PendingDevice}

/-! ## Denials -/

/-- A request that creates or replaces the pending entry of a device ID. -/
def StoreEvent.renews (crypto : Crypto) (s : StoreState) (id : ByteString)
    (l : StoreEvent) : Bool :=
  match l.call with
  | .request id' name credential ip auto =>
      id' == id && (s.store.request crypto id' name credential ip auto l.env).1.entry id !=
        (s.store.pruneLocked l.env).entry id
  | _ => false

namespace PairingStore

/-- An approval makes a credential of a device trusted. -/
def Promotes (store : PairingStore) (id hash : ByteString) (env : StoreEnv) : Prop :=
  (store.approve id env).2 = true ∧
    ∃ device ∈ (store.approve id env).1.trusted, device.id = id ∧ device.credentialHash = hash

/-- All entries of a device ID are for one credential, and denied. -/
def Denied (store : PairingStore) (id hash : ByteString) : Prop :=
  ∀ item ∈ store.pending, item.id = id → item.denied = true ∧ item.credentialHash = hash

theorem Denied.kept (h : store.Denied id hash)
    (hkept : Kept store store') : store'.Denied id hash := by
  intro item' hitem' hid
  obtain ⟨item, hitem, hsame, hhash, hdenied⟩ := hkept item' hitem'
  obtain ⟨hd, hh⟩ := h item hitem (hsame.symm.trans hid)
  exact ⟨hdenied hd, hhash.trans hh⟩

theorem entry_spec (h : store.entry id = some item) : item ∈ store.pending ∧ item.id = id :=
  ⟨List.mem_of_find?_eq_some h, by simpa using List.find?_some h⟩

/-- In a list with one entry for each ID, the entry of an ID is the one that is found. -/
theorem UniquePending.entry_eq (hunique : store.UniquePending) (hmem : item ∈ store.pending) :
    store.entry item.id = some item := by
  have hnodup : (store.pending.map (·.id)).Nodup := by
    simpa [UniquePending, pendingKeys, Function.comp_def] using hunique
  cases hentry : store.entry item.id with
  | none => simpa using List.find?_eq_none.mp hentry item hmem
  | some other =>
    rw [List.inj_on_of_nodup_map hnodup (entry_spec hentry).1 hmem (entry_spec hentry).2]

theorem denied_deny (hunique : store.UniquePending) (hentry : store.entry id = some item) :
    (store.deny id).1.Denied id item.credentialHash := by
  obtain ⟨index, hindex⟩ : ∃ index, store.pending.findIdx? (fun value => value.id == id) =
    some index := by
    apply Option.isSome_iff_exists.mp
    rw [List.findIdx?_isSome, List.any_eq_true]
    exact ⟨item, (entry_spec hentry).1, beq_iff_eq.mpr (entry_spec hentry).2⟩
  have hdeny : (store.deny id).1.pending =
      store.pending.modify index fun item => { item with denied := true } := by
    unfold deny
    rw [hindex]
  obtain ⟨hlt, hp, hfirst⟩ := List.findIdx?_eq_some_iff_getElem.mp hindex
  have hat : store.pending[index] = item := by
    have h := hunique.entry_eq (List.getElem_mem hlt)
    rw [show store.pending[index].id = id by simpa using hp, hentry] at h
    exact (Option.some.inj h).symm
  intro entry hmem hid
  rw [hdeny] at hmem
  obtain ⟨j, hj⟩ := List.mem_iff_getElem?.mp hmem
  by_cases hij : index = j
  · subst hij
    rw [List.getElem?_modify_eq, List.getElem?_eq_getElem hlt, hat] at hj
    obtain rfl := Option.some.inj hj
    exact ⟨rfl, rfl⟩
  · rw [List.getElem?_modify_ne _ _ hij] at hj
    have hsame := hunique.entry_eq (List.mem_of_getElem? hj)
    rw [hid, hentry] at hsame
    obtain rfl := Option.some.inj hsame
    have hnodup : (store.pending.map (·.id)).Nodup := by
      simpa [UniquePending, pendingKeys, Function.comp_def] using hunique
    have heq : (store.pending.map (·.id))[index]? = (store.pending.map (·.id))[j]? := by
      rw [List.getElem?_map, List.getElem?_map, hj, List.getElem?_eq_getElem hlt, hat]
    exact absurd ((List.getElem?_inj (by simpa using hlt) hnodup).mp heq) hij

/-- **When an approval succeeds.** -/
theorem approve_iff : (store.approve id env).2 = true ↔
    env.saved = true ∧ ∃ item ∈ store.pending, item.id = id ∧ env.steadyNow ≤ item.expiresAt := by
  have hlive : (∃ item ∈ store.pending, item.id = id ∧ env.steadyNow ≤ item.expiresAt) ↔
      ((store.pruneLocked env).entry id).isSome = true := by
    rw [entry, List.find?_isSome]
    simp only [pruneLocked, List.mem_filter, beq_iff_eq, Bool.not_eq_true', decide_eq_false_iff_not,
      not_lt]
    constructor
    · rintro ⟨item, hitem, hid, hnow⟩
      exact ⟨item, ⟨hitem, hnow⟩, hid⟩
    · rintro ⟨item, ⟨hitem, hnow⟩, hid⟩
      exact ⟨item, hitem, hid, hnow⟩
  rw [hlive]
  unfold approve
  simp only
  split
  · rename_i hnone
    simp [entry, hnone]
  · rename_i item hitem
    have hentry : ((store.pruneLocked env).entry id).isSome = true := by rw [entry, hitem]; rfl
    unfold saveLocked
    cases hsaved : env.saved <;> simp [hentry]

end PairingStore

theorem denied_step (hd : s.store.Denied id hash) (hnew : l.renews crypto s id = false)
    (hst : storeStep crypto s l = some t) : t.store.Denied id hash := by
  rw [(storeStep_spec hst).2.2]
  cases hcall : l.call with
  | request id' name credential ip auto =>
    rw [StoreEvent.renews, hcall] at hnew
    intro item hitem hid
    by_cases hsame : id' = id
    · subst hsame
      have hentry : (s.store.request crypto id' name credential ip auto l.env).1.entry id' =
          (s.store.pruneLocked l.env).entry id' := by simpa using hnew
      exact hd item (request_entry hentry hitem) hid
    · exact hd item (request_others hitem fun h => hsame (h.symm.trans hid)) hid
  | _ => exact hd.kept (call_kept nofun)

/-- **A denial and a later approval.** Until a new request of the device, the denied credential
becomes trusted by an approval exactly while its entry waits and the save works. -/
theorem denied_promoted_iff (hrun : StoreRun crypto (.init file clock) s)
    (hentry : s.store.entry id = some item)
    (hdeny : storeStep crypto s ⟨.deny id, env⟩ = some s')
    (hafter : Run (storeStep crypto) (fun s l => l.renews crypto s id = false) s' t)
    (late : StoreEnv) :
    ¬t.store.Promotes id item.credentialHash late ↔
      late.saved = false ∨
        ∀ entry ∈ t.store.pending, entry.id = id → entry.expiresAt < late.steadyNow := by
  have hstart : s'.store.Denied id item.credentialHash := by
    rw [(storeStep_spec hdeny).2.2]
    exact denied_deny (uniquePending_of_run hrun) hentry
  have hdenied : t.store.Denied id item.credentialHash :=
    hafter.invariant (I := fun t => t.store.Denied id item.credentialHash) hstart
      fun _ _ _ hd hnew hst => denied_step hd hnew hst
  have hpromotes : t.store.Promotes id item.credentialHash late ↔
      (t.store.approve id late).2 = true := by
    constructor
    · exact fun h => h.1
    · intro h
      obtain ⟨device, htrusted, hid, hkey⟩ := approve_spec h
      refine ⟨h, device, ?_, hid, ?_⟩
      · rw [htrusted]
        exact List.mem_append_right _ (List.mem_singleton_self device)
      · obtain ⟨entry, hmem, hsame⟩ := List.mem_map.mp hkey
        obtain ⟨hown, hhash⟩ := Prod.mk.inj hsame
        exact hhash.symm.trans (hdenied entry hmem hown).2
  rw [hpromotes, approve_iff]
  constructor
  · intro h
    by_cases hsaved : late.saved = true
    · refine .inr fun entry hmem hid => ?_
      by_contra hnow
      exact h ⟨hsaved, entry, hmem, hid, Nat.le_of_not_lt hnow⟩
    · exact .inl (by simpa using hsaved)
  · rintro (hsaved | hexpired) ⟨hsaved', entry, hmem, hid, hnow⟩
    · rw [hsaved] at hsaved'
      cases hsaved'
    · exact absurd (hexpired entry hmem hid) (Nat.not_lt.mpr hnow)

/-- SHA-256 of two credentials. -/
def twoPhones : Crypto :=
  .tabulated
    [(List.replicate 32 97,
      ascii "3ba3f5f43b92602683c19aee62a20342b084dd5971ddd33808d81a328879a547"),
    (List.replicate 32 98,
      ascii "bdb339768bc5e4fecbe55a442056919b2b325907d49bcbf3bf8de13781996a83")] []

/-- A request of the device `phone` with one of the two credentials. -/
def phoneRequest (credential : UInt8) (auto : Bool) : PairingCall :=
  .request (ascii "phone") (ascii "Ada") (List.replicate 32 credential) (ascii "10.0.0.7") auto

/-- The store while that request waits. -/
def phoneWaiting : StoreState :=
  ⟨(PairingStore.load none).call twoPhones {} (phoneRequest 97 false), 0⟩

theorem phoneWaiting_reached : StoreRun twoPhones (.init none 0) phoneWaiting :=
  .tail (l := ⟨phoneRequest 97 false, {}⟩) (.refl _) trivial rfl

/-- The pending entry of the request. -/
def phoneEntry : PendingDevice :=
  newEntry twoPhones (ascii "phone") (ascii "Ada") (List.replicate 32 97) (ascii "10.0.0.7") {}

/-- Two minutes after the request the denial cannot be overruled any more. -/
theorem denied_promoted_iff_expired :
    ¬(phoneWaiting.store.deny (ascii "phone")).1.Promotes (ascii "phone") phoneEntry.credentialHash
      { steadyNow := 121 } :=
  (denied_promoted_iff (t := ⟨(phoneWaiting.store.deny (ascii "phone")).1, 0⟩)
    phoneWaiting_reached (by decide)
    (show storeStep twoPhones phoneWaiting ⟨.deny (ascii "phone"), {}⟩ = _ from rfl) (.refl _)
    { steadyNow := 121 }).mpr (.inr (by decide))

/-- An approval right after the denial makes the denied credential trusted. -/
theorem denied_then_approved :
    ∃ s s' : StoreState, StoreRun twoPhones (.init none 0) s ∧
      s.store.entry (ascii "phone") = some phoneEntry ∧
      storeStep twoPhones s ⟨.deny (ascii "phone"), {}⟩ = some s' ∧
      s'.store.Promotes (ascii "phone") phoneEntry.credentialHash {} := by
  refine ⟨phoneWaiting, _, phoneWaiting_reached, by decide, rfl, by decide, ?_⟩
  exact ⟨⟨ascii "phone", ascii "Ada", phoneEntry.credentialHash, ascii "10.0.0.7", 0, ascii "ios",
    ascii "direct_upload"⟩, by decide, rfl, rfl⟩

/-! ## Requests and their status -/

/-- A status that directly follows a request returns what the request returned. -/
def Agrees (crypto : Crypto) (store : PairingStore) (id name credential ip : ByteString)
    (auto : Bool) (env : StoreEnv) : Prop :=
  ∀ answer, (store.request crypto id name credential ip auto env).2 = .ok answer →
    answer ≠ .atCapacity →
      ((store.request crypto id name credential ip auto env).1.status crypto id credential env).2 =
        answer

namespace PairingStore

/-- The unexpired entry of a device ID and a credential. -/
def ownEntry (crypto : Crypto) (store : PairingStore) (id credential : ByteString)
    (env : StoreEnv) :
    Option PendingDevice :=
  (store.pruneLocked env).pending.find? fun item =>
    item.id == id && item.credentialHash == crypto.sha256Hex credential

/-- When `request` and `status` look at the same decision: a name that is too long is refused
without a look at the store, so the credential must not be trusted or wait; a trusted device must
have no entry where auto-approval answers, and its own, undenied one where an entry answers. -/
def Undisputed (crypto : Crypto) (store : PairingStore) (id name credential : ByteString)
    (auto : Bool) (env : StoreEnv) : Prop :=
  if 128 < name.length then
    match store.ownEntry crypto id credential env with
    | some item => item.denied = true
    | none => store.knows crypto id credential = false
  else
    store.knows crypto id credential = true → env.saved = true →
      if auto then store.ownEntry crypto id credential env = none
      else ((store.pruneLocked env).entry id).isSome = true →
        (store.ownEntry crypto id credential env).any (fun item => !item.denied) = true

theorem status_answer : (store.status crypto id credential env).2 =
    match store.ownEntry crypto id credential env with
    | some item => if item.denied then .denied else .pending
    | none => if store.knows crypto id credential then .approved else .denied := by
  unfold status ownEntry
  simp only
  cases (store.pruneLocked env).pending.find? fun item =>
      item.id == id && item.credentialHash == crypto.sha256Hex credential with
  | some item => rfl
  | none =>
    simp only
    rw [apply_ite Prod.snd]
    rfl

theorem knows_of_knownIndex (h : store.knownIndex crypto id credential = none) :
    store.knows crypto id credential = false := by
  rw [knownIndex, List.findIdx?_eq_none_iff] at h
  exact List.any_eq_false.mpr fun item hitem => by simpa using h item hitem

/-- Entries that a call has just looked through or written are not expired. -/
theorem pending_pruneLocked (h : ∀ item ∈ store.pending, env.steadyNow ≤ item.expiresAt) :
    (store.pruneLocked env).pending = store.pending := by
  refine List.filter_eq_self.mpr fun item hitem => ?_
  simpa using h item hitem

theorem live_expiresAt : ∀ item ∈ (store.pruneLocked env).pending, env.steadyNow ≤
    item.expiresAt := by
  intro item hitem
  simpa using (List.mem_filter.mp hitem).2

/-- What is found under a condition is found under a stronger one that it meets. -/
theorem find?_stronger {α : Type} {p q : α → Bool} {l : List α} {a : α} (h : l.find? q = some a)
    (ha : p a = true) (hpq : ∀ b, p b = true → q b = true) : l.find? p = some a := by
  obtain ⟨-, pre, post, rfl, hpre⟩ := List.find?_eq_some_iff_append.mp h
  refine List.find?_eq_some_iff_append.mpr ⟨ha, pre, post, rfl, fun b hb => ?_⟩
  have hq := hpre b hb
  cases hp : p b with
  | false => rfl
  | true => simp [hpq b hp] at hq

/-- A new entry at the end is the one that `status` finds. -/
theorem ownEntry_append (store : PairingStore) {live : List PendingDevice}
    (hlive : live = (store.pruneLocked env).pending)
    (hpending : store'.pending = live ++ [item])
    (hany : live.any (fun item => item.id == id) = false) (hid : item.id = id)
    (hhash : item.credentialHash = crypto.sha256Hex credential)
    (hnow : env.steadyNow ≤ item.expiresAt) : store'.ownEntry crypto id credential env =
    some item := by
  have hall : ∀ entry ∈ store'.pending, env.steadyNow ≤ entry.expiresAt := by
    rw [hpending, hlive]
    intro entry hmem
    rcases List.mem_append.mp hmem with hmem | hmem
    · exact live_expiresAt entry hmem
    · rwa [List.mem_singleton.mp hmem]
  rw [ownEntry, pending_pruneLocked hall, hpending]
  refine find?_stronger (q := fun item => item.id == id) ?_ (by simp [hid, hhash]) (by simp_all)
  have hnone : live.find? (fun item => item.id == id) = none :=
    List.find?_eq_none.mpr fun entry hmem => List.any_eq_false.mp hany entry hmem
  rw [List.find?_append, hnone]
  simp [hid]

/-- A call that leaves the unexpired entries leaves what `status` finds. -/
theorem ownEntry_live {trusted disk : List TrustedDevice} :
    (PairingStore.mk (store.pruneLocked env).pending trusted disk).ownEntry crypto id
    credential env =
      store.ownEntry crypto id credential env := by
  have hall : ∀ item ∈ (PairingStore.mk (store.pruneLocked env).pending trusted disk).pending,
      env.steadyNow ≤ item.expiresAt := live_expiresAt
  rw [ownEntry, pending_pruneLocked hall]
  rfl

/-- The replaced entry is the one that `status` finds. -/
theorem ownEntry_replaced (store : PairingStore) {index : Nat} {old : PendingDevice}
    (hpending : store'.pending = (store.pruneLocked env).pending.modify index
      (replaceEntry crypto name credential ip env))
    (hindex : (store.pruneLocked env).pending.findIdx? (fun item => item.id == id) = some index)
    (hold : (store.pruneLocked env).pending[index]? = some old) :
    store'.ownEntry crypto id credential env =
      some (replaceEntry crypto name credential ip env old) := by
  have hall : ∀ entry ∈ store'.pending, env.steadyNow ≤ entry.expiresAt := by
    rw [hpending]
    intro entry hmem
    rcases mem_modify hmem with hmem | ⟨old', -, rfl⟩
    · exact live_expiresAt entry hmem
    · exact Nat.le_add_right _ _
  obtain ⟨hbefore, hafter⟩ := find?_modify
    (f := replaceEntry crypto name credential ip env) (fun _ => rfl) hindex hold
  have hid : old.id = id := by simpa using List.find?_some hbefore
  rw [ownEntry, pending_pruneLocked hall, hpending]
  exact find?_stronger hafter (by simp [replaceEntry, hid]) (by simp_all)

/-- The entry of the same credential is the one that `status` finds. -/
theorem ownEntry_repeated {index : Nat} {old : PendingDevice}
    (hindex : (store.pruneLocked env).pending.findIdx? (fun item => item.id == id) = some index)
    (hold : (store.pruneLocked env).pending[index]? = some old)
    (hhash : old.credentialHash = crypto.sha256Hex credential) :
    store.ownEntry crypto id credential env = some old := by
  have hfind := (find?_modify (f := fun item => item) (fun _ => rfl) hindex hold).1
  have hid : old.id = id := by simpa using List.find?_some hfind
  exact find?_stronger hfind (by simp [hid, hhash]) (by simp_all)

theorem entry_of_any
    (hany : (store.pruneLocked env).pending.any (fun item => item.id == id) = false) :
    (store.pruneLocked env).entry id = none :=
  List.find?_eq_none.mpr fun item hitem => List.any_eq_false.mp hany item hitem

theorem name_of_wellFormed (h : wellFormed id name credential = true) : ¬128 < name.length := by
  simp only [wellFormed, Bool.not_eq_true', Bool.or_eq_false_iff, decide_eq_false_iff_not] at h
  exact h.2

/-- A request refreshes the entry of a trusted device, which stays trusted. -/
theorem knows_refreshed {index : Nat}
    (hindex : store.knownIndex crypto id credential = some index)
    (htrusted : store'.trusted = store.trusted.modify index (.refreshed name ip env)) :
    store'.knows crypto id credential = true := by
  obtain ⟨hlt, hp, -⟩ := List.findIdx?_eq_some_iff_getElem.mp hindex
  rw [knows, htrusted, List.any_eq_true]
  refine ⟨store.trusted[index].refreshed name ip env, ?_, hp⟩
  apply List.mem_of_getElem? (i := index)
  rw [List.getElem?_modify_eq, List.getElem?_eq_getElem hlt]
  rfl

end PairingStore

/-- **`status` after `request`.** -/
theorem request_status_agree_iff (store : PairingStore) (name ip : ByteString) (auto : Bool)
    (env : StoreEnv) (hform : wellFormed id [] credential = true) :
    Agrees crypto store id name credential ip auto env ↔
      store.Undisputed crypto id name credential auto env := by
  have hcase := request_cases crypto store id name credential ip auto env
  unfold Agrees Undisputed
  generalize store.request crypto id name credential ip auto env = r at hcase ⊢
  cases hcase with
  | refused hrefused =>
    have hname : 128 < name.length := by
      simp only [wellFormed, Bool.not_eq_true', Bool.not_eq_false', Bool.or_eq_false_iff,
        Bool.or_eq_true, decide_eq_false_iff_not, decide_eq_true_eq] at hform hrefused
      rcases hrefused with ((h | h) | h) | h
      · simp [h] at hform
      · exact absurd h hform.1.1.2
      · exact absurd h hform.1.2
      · exact h
    rw [if_pos hname]
    simp only [Except.ok.injEq]
    constructor
    · intro h
      have hstatus := h .denied rfl (by decide)
      rw [status_answer] at hstatus
      revert hstatus
      cases store.ownEntry crypto id credential env with
      | none => cases store.knows crypto id credential <;> simp
      | some item => cases hd : item.denied <;> simp [hd]
    · rintro h answer rfl -
      rw [status_answer]
      revert h
      cases store.ownEntry crypto id credential env with
      | none => intro h; simp [h]
      | some item => intro h; simp [h]
  | unsaved hform' index hknown hsaved =>
    rw [if_neg (name_of_wellFormed hform')]
    constructor
    · intro _ _ hsaved'
      rw [hsaved] at hsaved'
      cases hsaved'
    · intro _ answer hanswer
      cases hanswer
  | known hform' index hknown hsaved clientType mode pending answer hanswer =>
    rw [if_neg (name_of_wellFormed hform')]
    have hknows : store.knows crypto id credential = true := knows_of_findIdx? hknown
    have hknows' : ∀ pending disk, (PairingStore.mk pending
        (store.trusted.modify index (.refreshed name ip env)) disk).knows crypto id credential =
          true :=
      fun pending disk => knows_refreshed hknown rfl
    simp only [hknows, hsaved, true_implies, Except.ok.injEq]
    cases hanswer with
    | approved hauto =>
      simp only [hauto, if_true, forall_eq']
      rw [status_answer, ownEntry_live, hknows']
      cases store.ownEntry crypto id credential env with
      | none => simp
      | some item => cases hd : item.denied <;> simp [hd]
    | waiting hauto hany =>
      have hentry : ((store.pruneLocked env).entry id).isSome = true := by
        rw [entry, List.find?_isSome]
        exact List.any_eq_true.mp hany
      simp only [hauto, Bool.false_eq_true, if_false, hentry, true_implies, forall_eq']
      rw [status_answer, ownEntry_live, hknows']
      cases store.ownEntry crypto id credential env with
      | none => simp
      | some item => cases hd : item.denied <;> simp [hd]
    | full hauto hany hroom =>
      simp only [hauto, Bool.false_eq_true, if_false, entry_of_any hany]
      simp
    | appended hauto hany hroom =>
      simp only [hauto, Bool.false_eq_true, if_false, entry_of_any hany, forall_eq']
      rw [status_answer, ownEntry_append store rfl rfl hany rfl rfl (Nat.le_add_right _ _)]
      simp [newEntry]
  | new hform' hknown pending answer hanswer =>
    rw [if_neg (name_of_wellFormed hform')]
    have hknows := knows_of_knownIndex hknown
    simp only [hknows, Bool.false_eq_true, false_implies, iff_true, Except.ok.injEq]
    rintro _ rfl hroom'
    rw [status_answer]
    cases hanswer with
    | full hany hroom => exact absurd rfl hroom'
    | appended hany hroom =>
      rw [ownEntry_append store rfl rfl hany rfl rfl (Nat.le_add_right _ _)]
      rfl
    | replaced index old hindex hold hhash =>
      rw [ownEntry_replaced store rfl hindex hold]
      rfl
    | repeated index old hindex hold hhash =>
      rw [ownEntry_live, ownEntry_repeated hindex hold hhash]

/-- The store once the waiting phone is approved. -/
def phoneTrusted : PairingStore := phoneWaiting.store.call twoPhones {} (.approve (ascii "phone"))

/-- The trusted phone waits for an approval of its uploads. -/
def phoneAsking : PairingStore := phoneTrusted.call twoPhones {} (phoneRequest 97 false)

/-- Another credential while the phone waits, the trusted phone with auto-approval, and the trusted
phone whose own entry waits are told the same by both. -/
theorem request_status_agree_iff_new :
    Agrees twoPhones phoneWaiting.store (ascii "phone") (ascii "Ada") (List.replicate 32 98)
      (ascii "10.0.0.7") false {} ∧
    Agrees twoPhones phoneTrusted (ascii "phone") (ascii "Ada") (List.replicate 32 97)
      (ascii "10.0.0.7") true {} ∧
    Agrees twoPhones phoneAsking (ascii "phone") (ascii "Ada") (List.replicate 32 97)
      (ascii "10.0.0.7") false {} ∧
    (phoneAsking.knows twoPhones (ascii "phone") (List.replicate 32 97) = true ∧
      (phoneAsking.ownEntry twoPhones (ascii "phone") (List.replicate 32 97) {}).isSome =
        true) := by
  refine ⟨?_, ?_, ?_, by decide⟩
  · refine (request_status_agree_iff _ _ _ _ _ (by decide)).mpr ?_
    rw [Undisputed, if_neg (by decide)]
    intro hknows
    have hunknown : phoneWaiting.store.knows twoPhones (ascii "phone") (List.replicate 32 98) =
      false := by
      decide
    rw [hunknown] at hknows
    cases hknows
  · refine (request_status_agree_iff _ _ _ _ _ (by decide)).mpr ?_
    rw [Undisputed, if_neg (by decide), if_pos rfl]
    intro _ _
    decide
  · refine (request_status_agree_iff _ _ _ _ _ (by decide)).mpr ?_
    rw [Undisputed, if_neg (by decide), if_neg (by decide)]
    intro _ _ _
    decide

/-- The device is trusted, and another credential waits for its ID: the request is told to wait,
the status after it that it is approved. -/
theorem request_status_disagree :
    ∃ s, StoreRun twoPhones (.init none 0) s ∧
      ¬Agrees twoPhones s.store (ascii "phone") (ascii "Ada") (List.replicate 32 97)
        (ascii "10.0.0.7") false {} := by
  obtain ⟨s, hrun, htest⟩ := Run.exists_of_exec (storeStep twoPhones) (P := fun _ _ => True)
    (fun _ _ => true)
    (fun s => decide ((s.store.request twoPhones (ascii "phone") (ascii "Ada")
      (List.replicate 32 97)
        (ascii "10.0.0.7") false {}).2.toOption = some .pending ∧
      ((s.store.request twoPhones (ascii "phone") (ascii "Ada") (List.replicate 32 97)
        (ascii "10.0.0.7") false {}).1.status twoPhones (ascii "phone") (List.replicate 32 97)
          {}).2 = .approved))
    (.init none 0)
    [⟨phoneRequest 97 false, {}⟩, ⟨.approve (ascii "phone"), {}⟩, ⟨phoneRequest 98 false, {}⟩]
    (fun _ _ _ => trivial) (by decide)
  obtain ⟨hrequest, hstatus⟩ := of_decide_eq_true htest
  refine ⟨s, hrun, fun h => ?_⟩
  cases hanswer : (s.store.request twoPhones (ascii "phone") (ascii "Ada") (List.replicate 32 97)
      (ascii "10.0.0.7") false {}).2 with
  | error text =>
    rw [hanswer] at hrequest
    cases hrequest
  | ok answer =>
    rw [hanswer] at hrequest
    cases hrequest
    have hpending := h .pending hanswer nofun
    rw [hstatus] at hpending
    cases hpending

end LocalMediaTransfer
