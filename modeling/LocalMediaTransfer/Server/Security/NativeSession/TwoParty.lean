import LocalMediaTransfer.Lib.History
import LocalMediaTransfer.Server.Security.NativeSession.Pairings

/-!
# Two-party pairing

A sender becomes trusted when two parties agree: the sender proves that it saw the request and the
receiver's user approves it.  The store may hear them in either order, and denials, wrong proofs,
revocations and the clock may come in between.

* `progress` — the state of a request, read off the history alone.
* `progress_eq_half_iff` — what it means that one party has been heard.
* `Pairs`, `NativeRun.pairs` — the records follow the history in every run.
* `two_party_pairing` — **when a credential becomes trusted, and what happens otherwise**.
-/

set_option autoImplicit false

namespace LocalMediaTransfer

open Lib

variable {cfg : NativeConfig} {s s' : NativeState} {store : NativeSessionStore} {now : Nat}
variable {x : NativeEntry} {id : ByteString} {q : PairingRequest}

/-! ## The two parties -/

/-- The two parties of a pairing. -/
inductive Party where
  | sender
  | receiver

def Party.other : Party → Party
  | .sender => .receiver
  | .receiver => .sender

/-- The state in which one party has been heard. -/
def Party.half : Party → PairState
  | .sender => .senderConfirmed
  | .receiver => .receiverConfirmed

/-- A party agreed to a request. -/
def NativeEntry.agrees (x : NativeEntry) (party : Party) (q : PairingRequest) : Bool :=
  match party with
  | .sender => x.confirmsPairing q
  | .receiver => x.approvesPairing q

theorem agrees_other {party : Party}
    (h : x.agrees party q = true) : x.agrees party.other q = false := by
  obtain ⟨time, trusted, op, answer⟩ := x
  cases party with
  | sender =>
    cases op with
    | confirmPairing => rfl
    | _ => cases h
  | receiver =>
    cases op with
    | approvePairing => rfl
    | _ => cases h

theorem silent_of_agrees {party : Party} (hends : x.endsPairing cfg q = false)
    (h : x.agrees party q = false) (h' : x.agrees party.other q = false) : x.Silent cfg q := by
  cases party with
  | sender => exact ⟨hends, h, h'⟩
  | receiver => exact ⟨hends, h', h⟩

theorem NativeEntry.Silent.agrees (h : x.Silent cfg q)
    (party : Party) : x.agrees party q = false := by
  cases party with
  | sender => exact h.confirms
  | receiver => exact h.approves

theorem next_pending {party : Party} (hends : x.endsPairing cfg q = false)
    (h : x.agrees party q = true) : PairState.pending.next cfg q x = party.half := by
  have hother := agrees_other h
  cases party with
  | sender =>
    simp only [NativeEntry.agrees] at h
    simp [PairState.next, PairState.isActive, hends, h, Party.half]
  | receiver =>
    simp only [NativeEntry.agrees, Party.other] at h hother
    simp [PairState.next, PairState.isActive, hends, h, hother, Party.half]

theorem next_half (party : Party) (hends : x.endsPairing cfg q = false) :
    party.half.next cfg q x =
      if x.agrees party.other q && x.op.saves then .approved else party.half := by
  cases party <;> simp [PairState.next, PairState.isActive, hends, Party.half, NativeEntry.agrees,
    Party.other]

theorem half_isActive (party : Party) : party.half.isActive = true := by
  cases party <;> rfl

theorem half_inj {party party' : Party} (h : party.half = party'.half) : party = party' := by
  cases party <;> cases party' <;> first | rfl | cases h

/-! ## The state, read off the history -/

/-- The state of a request after a history. -/
def progressFrom (cfg : NativeConfig) (q : PairingRequest) (state : PairState)
    (post : List NativeEntry) : PairState := post.foldl (fun state x => state.next cfg q x) state

/-- The state of a request after the calls since it was opened. -/
def progress (cfg : NativeConfig) (q : PairingRequest) (post : List NativeEntry) : PairState :=
  progressFrom cfg q .pending post

theorem progress_snoc (post : List NativeEntry) :
    progress cfg q (post ++ [x]) = (progress cfg q post).next cfg q x := by
  simp [progress, progressFrom]

theorem progressFrom_decided {state : PairState} (h : state.isActive = false)
    (post : List NativeEntry) : progressFrom cfg q state post = state := by
  induction post with
  | nil => rfl
  | cons x post ih =>
    show progressFrom cfg q (state.next cfg q x) post = state
    rw [PairState.next_of_decided h, ih]

/-- Once one party has been heard, the request waits for the other one. -/
theorem progressFrom_half (party party' : Party) (post : List NativeEntry) :
    progressFrom cfg q party.half post = party'.half ↔
      party = party' ∧ ∀ x ∈ post, x.endsPairing cfg q = false ∧
        (x.agrees party.other q && x.op.saves) = false := by
  induction post with
  | nil => exact ⟨fun h => ⟨half_inj h, by simp⟩, fun h => by rw [h.1]; rfl⟩
  | cons x post ih =>
    have hstep : progressFrom cfg q party.half (x :: post) =
        progressFrom cfg q (party.half.next cfg q x) post := rfl
    rw [hstep, List.forall_mem_cons]
    cases hends : x.endsPairing cfg q with
    | true =>
      rw [PairState.next_of_ends (half_isActive party) hends, progressFrom_decided rfl]
      constructor
      · intro h
        cases party' <;> cases h
      · rintro ⟨-, ⟨h, -⟩, -⟩
        cases h
    | false =>
      rw [next_half party hends]
      cases hagrees : x.agrees party.other q && x.op.saves with
      | true =>
        rw [if_pos rfl, progressFrom_decided rfl]
        constructor
        · intro h
          cases party' <;> cases h
        · rintro ⟨-, ⟨-, h⟩, -⟩
          cases h
      | false =>
        rw [if_neg Bool.false_ne_true, ih]
        simp

/-- **One party has been heard**: it was the first to say something, nobody ended the request, and
the other one did not complete it. -/
theorem progress_eq_half_iff (party : Party) (post : List NativeEntry) :
    progress cfg q post = party.half ↔
      (∀ x ∈ post, x.endsPairing cfg q = false) ∧
      ∃ mid f rest, post = mid ++ f :: rest ∧ (∀ x ∈ mid, x.Silent cfg q) ∧
        f.agrees party q = true ∧ ∀ x ∈ rest, (x.agrees party.other q && x.op.saves) = false := by
  induction post with
  | nil =>
    constructor
    · intro h
      cases party <;> cases h
    · rintro ⟨-, mid, f, rest, h, -⟩
      simp at h
  | cons x post ih =>
    have hstep : progress cfg q (x :: post) =
        progressFrom cfg q (PairState.pending.next cfg q x) post := rfl
    rw [hstep, List.forall_mem_cons]
    cases hends : x.endsPairing cfg q with
    | true =>
      rw [PairState.next_of_ends rfl hends, progressFrom_decided rfl]
      constructor
      · intro h
        cases party <;> cases h
      · rintro ⟨⟨h, -⟩, -⟩
        cases h
    | false =>
      by_cases hagrees : ∃ party', x.agrees party' q = true
      · obtain ⟨party', hagrees⟩ := hagrees
        rw [next_pending hends hagrees, progressFrom_half]
        constructor
        · rintro ⟨rfl, hrest⟩
          refine ⟨⟨rfl, fun y hy => (hrest y hy).1⟩, [], x, post, rfl, by simp, hagrees, ?_⟩
          exact fun y hy => (hrest y hy).2
        · rintro ⟨⟨-, hpost⟩, mid, f, rest, hsplit, hmid, hf, hrest⟩
          cases mid with
          | nil =>
            obtain ⟨rfl, rfl⟩ := List.cons.inj hsplit
            have hparty : party' = party := by
              by_contra hne
              have hother : party = party'.other := by
                cases party <;> cases party' <;> first | rfl | exact absurd rfl hne
              rw [hother, agrees_other hagrees] at hf
              cases hf
            subst hparty
            exact ⟨rfl, fun y hy => ⟨hpost y hy, hrest y hy⟩⟩
          | cons y mid =>
            obtain ⟨rfl, -⟩ := List.cons.inj hsplit
            have hsilent := (hmid x (List.mem_cons_self ..)).agrees party'
            rw [hagrees] at hsilent
            cases hsilent
      · have hnone : ∀ party', x.agrees party' q = false := by
          intro party'
          exact Bool.eq_false_iff.mpr fun h => hagrees ⟨party', h⟩
        have hsilent : x.Silent cfg q := silent_of_agrees hends (hnone party) (hnone party.other)
        rw [hsilent.next]
        show progress cfg q post = _ ↔ _
        rw [ih]
        constructor
        · rintro ⟨hpost, mid, f, rest, rfl, hmid, hf, hrest⟩
          refine ⟨⟨rfl, hpost⟩, x :: mid, f, rest, rfl, ?_, hf, hrest⟩
          exact List.forall_mem_cons.mpr ⟨hsilent, hmid⟩
        · rintro ⟨⟨-, hpost⟩, mid, f, rest, hsplit, hmid, hf, hrest⟩
          cases mid with
          | nil =>
            obtain ⟨rfl, rfl⟩ := List.cons.inj hsplit
            rw [hnone party] at hf
            cases hf
          | cons y mid =>
            obtain ⟨rfl, rfl⟩ := List.cons.inj hsplit
            exact ⟨hpost, mid, f, rest, rfl, (List.forall_mem_cons.mp hmid).2, hf, hrest⟩

/-! ## The records follow the history -/

/-- A call opened the pairing request `q`. -/
structure OpensPairing (cfg : NativeConfig) (x : NativeEntry) (q : PairingRequest) : Prop where
  opens : x.opensPairing cfg = some q
  drawn : x.op.drawn = some q.requestId
  valid : q.Valid
  state : q.state = .pending

/-- The record of a request that was just opened. -/
theorem opensPairing_spec {op : NativeOp}
    (hnew : ∀ requestId, op.drawn = some requestId → s.store.pairings.lookup requestId = none)
    (h : (s.entry cfg op).opensPairing cfg = some q) :
    OpensPairing cfg (s.entry cfg op) q ∧
      (s.store.call cfg s.clock op).1.pairings.lookup q.requestId = some q := by
  have hopens := h
  unfold NativeEntry.opensPairing at h
  split at h
  · rename_i body ip requestId _ hop hanswer
    have hop' : op = .requestPairing body ip requestId := hop
    subst hop'
    rcases requestPairing_cases cfg s.store s.clock body ip requestId with
      ⟨hstatus, -⟩ | ⟨-, hvalid, htable⟩
    · have hresult : NativeAnswer.result
          (s.store.requestPairing cfg s.clock body ip requestId).2 = _ := hanswer
      rw [NativeAnswer.result.injEq] at hresult
      rw [hresult] at hstatus
      exact absurd rfl hstatus
    · cases h
      refine ⟨⟨hopens, rfl, valid_toRequest hvalid _ _, rfl⟩, ?_⟩
      show (s.store.requestPairing cfg s.clock body ip requestId).1.pairings.lookup requestId = _
      rw [htable, Table.lookup_emplace, if_pos rfl]
      rcases lookup_retirePairings (s.store.pruneLocked s.clock).pairings body.clientId requestId
        with h | ⟨h, -⟩
      · rw [h, lookup_pruned_pairing, hnew requestId rfl]
        rfl
      · rw [h]
        rfl
  · cases h

/-- **The records follow the history.** -/
structure Pairs (cfg : NativeConfig) (s : NativeState) : Prop where
  drawn : (s.log.filterMap (·.op.drawn)).Nodup
  opens : ∀ x ∈ s.log, ∀ q, x.opensPairing cfg = some q → OpensPairing cfg x q
  origin : ∀ id r, s.store.pairings.lookup id = some r → r.requestId = id ∧
    ∃ pre e post q, s.log = pre ++ e :: post ∧ e.opensPairing cfg = some q ∧
      r = { q with state := r.state }
  follows : ∀ pre e post q, s.log = pre ++ e :: post → e.opensPairing cfg = some q →
    s.clock < q.expiresAt →
    s.store.pairings.lookup q.requestId = some { q with state := progress cfg q post } ∨
    s.store.pairings.lookup q.requestId = none ∧ (progress cfg q post).isActive = false

theorem Pairs.keyed (h : Pairs cfg s) : s.store.KeyedPairings where
  key := fun id r hr => (h.origin id r hr).1
  valid := by
    intro id r hr
    obtain ⟨-, pre, e, post, q, hlog, he, heq⟩ := h.origin id r hr
    have hx : e ∈ s.log := by
      rw [hlog]
      simp
    have hvalid := (h.opens e hx q he).valid
    rw [heq]
    exact ⟨hvalid.id_pos, hvalid.id_le, hvalid.name_le, hvalid.hash⟩

theorem Pairs.lookup_fresh (h : Pairs cfg s) {op : NativeOp}
    (hfresh : (NativeLabel.call op).fresh s = true) (hid : op.drawn = some id) :
    s.store.pairings.lookup id = none := by
  cases hr : s.store.pairings.lookup id with
  | none => rfl
  | some r =>
    obtain ⟨hkey, pre, e, post, q, hlog, he, heq⟩ := h.origin id r hr
    have hx : e ∈ s.log := by
      rw [hlog]
      simp
    have hdrawn := (h.opens e hx q he).drawn
    have hq : q.requestId = id := by
      rw [← hkey, heq]
    rw [hq] at hdrawn
    exact absurd hdrawn (fresh_new hfresh hid e hx)

theorem Pairs.init (pairingStore : PairingStore) (clock : Nat) :
    Pairs cfg (.init pairingStore clock) where
  drawn := List.nodup_nil
  opens := by
    intro x hx
    cases hx
  origin := by
    intro id r hr
    cases hr
  follows := by
    intro pre e post q hlog
    cases pre <;> cases hlog

theorem Pairs.call_origin (h : Pairs cfg s) {op : NativeOp}
    (hfresh : (NativeLabel.call op).fresh s = true) (id : ByteString) (r : PairingRequest)
    (hr : (s.after cfg op).store.pairings.lookup id = some r) :
    r.requestId = id ∧ ∃ pre e post q, (s.after cfg op).log = pre ++ e :: post ∧
      e.opensPairing cfg = some q ∧ r = { q with state := r.state } := by
  have heffect : PairingEffect cfg id (s.entry cfg op) (s.store.pairings.lookup id)
      ((s.after cfg op).store.pairings.lookup id) :=
    call_pairingEffect h.keyed (fun _ hid => h.lookup_fresh hfresh hid) id
  rw [hr] at heffect
  have hlog : (s.after cfg op).log = s.log ++ [s.entry cfg op] := rfl
  cases heffect with
  | moved r₀ record _ =>
    obtain ⟨hkey, pre, e, post, q, hsplit, he, heq⟩ := h.origin id r₀ record
    refine ⟨hkey, pre, e, post ++ [s.entry cfg op], q, ?_, he, ?_⟩
    · rw [hlog, hsplit]
      simp
    · rw [heq]
  | opened r request key =>
    refine ⟨key, s.log, s.entry cfg op, [], r, hlog, request, ?_⟩
    rfl

theorem Pairs.call_follows (h : Pairs cfg s) {op : NativeOp}
    (hfresh : (NativeLabel.call op).fresh s = true) (pre : List NativeEntry) (e : NativeEntry)
    (post : List NativeEntry) (q : PairingRequest)
    (hsplit : (s.after cfg op).log = pre ++ e :: post) (he : e.opensPairing cfg = some q)
    (hlive : s.clock < q.expiresAt) :
    (s.after cfg op).store.pairings.lookup q.requestId =
      some { q with state := progress cfg q post } ∨
    (s.after cfg op).store.pairings.lookup q.requestId = none ∧
      (progress cfg q post).isActive = false := by
  have hnew : ∀ requestId, op.drawn = some requestId → s.store.pairings.lookup requestId = none :=
    fun _ hid => h.lookup_fresh hfresh hid
  rcases split_snoc hsplit with ⟨rfl, rfl, rfl⟩ | ⟨post', rfl, hsplit'⟩
  · obtain ⟨hopens, hlookup⟩ := opensPairing_spec hnew he
    refine .inl (hlookup.trans ?_)
    show some q = some { q with state := .pending }
    rw [← hopens.state]
  · have heffect : PairingEffect cfg q.requestId (s.entry cfg op)
        (s.store.pairings.lookup q.requestId)
        ((s.after cfg op).store.pairings.lookup q.requestId) := call_pairingEffect h.keyed hnew _
    have hreopened : ∀ r, (s.entry cfg op).opensPairing cfg = some r → r.requestId ≠
      q.requestId := by
      intro r request key
      have hdrawn := (opensPairing_spec hnew request).1.drawn
      have hx : e ∈ s.log := by
        rw [hsplit']
        simp
      rw [key] at hdrawn
      exact absurd (h.opens e hx q he).drawn (fresh_new hfresh hdrawn e hx)
    rw [progress_snoc]
    rcases h.follows pre e post' q hsplit' he hlive with hold | ⟨hold, hdecided⟩
    · rw [hold] at heffect
      cases hrec : (s.after cfg op).store.pairings.lookup q.requestId with
      | none =>
        rw [hrec] at heffect
        cases heffect with
        | gone decided => exact .inr ⟨rfl, decided _ rfl hlive⟩
      | some r =>
        rw [hrec] at heffect
        cases heffect with
        | moved r₀ record _ =>
          cases record
          exact .inl rfl
        | opened r request key => exact absurd key (hreopened r request)
    · rw [hold] at heffect
      rw [PairState.next_of_decided hdecided]
      cases hrec : (s.after cfg op).store.pairings.lookup q.requestId with
      | none => exact .inr ⟨rfl, hdecided⟩
      | some r =>
        rw [hrec] at heffect
        cases heffect with
        | moved r₀ record _ => cases record
        | opened r request key => exact absurd key (hreopened r request)

/-- Calls keep the records in step with the history. -/
theorem Pairs.call (h : Pairs cfg s) {op : NativeOp}
    (hfresh : (NativeLabel.call op).fresh s = true) : Pairs cfg (s.after cfg op) where
  drawn := drawn_snoc h.drawn hfresh
  opens := by
    intro x hx q hq
    rcases mem_after_log hx with hx | rfl
    · exact h.opens x hx q hq
    · exact (opensPairing_spec (fun _ hid => h.lookup_fresh hfresh hid) hq).1
  origin := h.call_origin hfresh
  follows := h.call_follows hfresh

theorem Pairs.step (h : Pairs cfg s) {l : NativeLabel} (hfresh : l.fresh s = true)
    (hstep : NativeStep cfg s l s') : Pairs cfg s' := by
  cases hstep with
  | call op => exact h.call hfresh
  | advance elapsed =>
    refine ⟨h.drawn, h.opens, h.origin, ?_⟩
    intro pre e post q hsplit he hlive
    have hlive' : s.clock < q.expiresAt := Nat.lt_of_le_of_lt (Nat.le_add_right ..) hlive
    exact h.follows pre e post q hsplit he hlive'
  | phone => exact ⟨h.drawn, h.opens, h.origin, h.follows⟩
  | reorder pairings transfers samePairings _ =>
    have hlookup : ∀ id, pairings.lookup id = s.store.pairings.lookup id :=
      fun id => AList.perm_lookup samePairings
    refine ⟨h.drawn, h.opens, ?_, ?_⟩
    · intro id r hr
      exact h.origin id r ((hlookup id).symm.trans hr)
    · intro pre e post q hsplit he hlive
      have hfollows := h.follows pre e post q hsplit he hlive
      rwa [← hlookup] at hfollows

theorem NativeRun.pairs {pairingStore : PairingStore} {clock : Nat}
    (h : NativeRun cfg (.init pairingStore clock) s) : Pairs cfg s := by
  apply h.invariant
  · exact .init pairingStore clock
  · intro t l u ht hfresh hstep
    exact ht.step hfresh (nativeStep_spec hstep)

/-! ## Becoming trusted -/

/-- A call makes the credential hash of a request trusted: the request becomes approved, and its
device is added to the trusted ones and saved. -/
structure BecomesTrusted (cfg : NativeConfig) (s : NativeState) (op : NativeOp)
    (q : PairingRequest) : Prop where
  before : ∃ r, s.store.pairings.lookup q.requestId = some r ∧ r.state ≠ .approved
  after : (s.after cfg op).store.pairings.lookup q.requestId = some { q with state := .approved }
  saved : ∃ env, (s.after cfg op).store.pairingStore =
    s.store.pairingStore.withDevice (q.device env)

/-- A call is the one that a request still needs: the other party was heard first, nobody ended the
request since it was opened, it has not expired, and no earlier call completed it. -/
structure Due (cfg : NativeConfig) (q : PairingRequest) (post : List NativeEntry)
    (x : NativeEntry) : Prop where
  live : x.time < q.expiresAt
  going : ∀ y ∈ post, y.endsPairing cfg q = false
  heard : ∃ party mid f rest, post = mid ++ f :: rest ∧ (∀ y ∈ mid, y.Silent cfg q) ∧
    f.agrees party q = true ∧ (∀ y ∈ rest, (y.agrees party.other q && y.op.saves) = false) ∧
    x.agrees party.other q = true

theorem due_iff {post : List NativeEntry} :
    Due cfg q post x ↔ x.time < q.expiresAt ∧
      ∃ party : Party, progress cfg q post = party.half ∧ x.agrees party.other q = true := by
  constructor
  · rintro ⟨hlive, hgoing, party, mid, f, rest, hsplit, hmid, hf, hrest, hx⟩
    refine ⟨hlive, party, ?_, hx⟩
    exact (progress_eq_half_iff party post).mpr ⟨hgoing, mid, f, rest, hsplit, hmid, hf, hrest⟩
  · rintro ⟨hlive, party, hprogress, hx⟩
    obtain ⟨hgoing, mid, f, rest, hsplit, hmid, hf, hrest⟩ :=
      (progress_eq_half_iff party post).mp hprogress
    exact ⟨hlive, hgoing, party, mid, f, rest, hsplit, hmid, hf, hrest, hx⟩

theorem next_approved {state : PairState} (hne : state ≠ .approved)
    (h : state.next cfg q x = .approved) :
    ∃ party : Party, state = party.half ∧ x.agrees party.other q = true ∧ x.op.saves = true := by
  unfold PairState.next at h
  cases state with
  | approved => exact absurd rfl hne
  | denied => cases h
  | pending =>
    simp only [PairState.isActive] at h
    repeat' split at h
    all_goals cases h
  | senderConfirmed =>
    refine ⟨.sender, rfl, ?_⟩
    simp only [PairState.isActive] at h
    repeat' split at h
    all_goals cases h
    rename_i hagrees
    exact Bool.and_eq_true_iff.mp hagrees
  | receiverConfirmed =>
    refine ⟨.receiver, rfl, ?_⟩
    simp only [PairState.isActive] at h
    repeat' split at h
    all_goals cases h
    rename_i hagrees
    exact Bool.and_eq_true_iff.mp hagrees

/-- The call that a half-confirmed record waits for. -/
theorem completedBy_of_agrees {op : NativeOp} {party : Party}
    (h : (s.entry cfg op).agrees party.other q = true) :
    ∃ env, { q with state := party.half }.completedBy op = some env ∧ op.saves = env.saved := by
  have hop : (s.entry cfg op).op = op := rfl
  cases party with
  | sender =>
    simp only [NativeEntry.agrees, Party.other, NativeEntry.approvesPairing, hop] at h
    split at h
    · rename_i id env
      exact ⟨env, if_pos ⟨beq_iff_eq.mp h, rfl⟩, rfl⟩
    · cases h
  | receiver =>
    simp only [NativeEntry.agrees, Party.other, NativeEntry.confirmsPairing, hop] at h
    split at h
    · rename_i id proof env
      rw [Bool.and_eq_true, beq_iff_eq] at h
      exact ⟨env, if_pos ⟨h.1, rfl, h.2⟩, rfl⟩
    · cases h

theorem completedBy_state {op : NativeOp} {r : PairingRequest} {env : StoreEnv}
    (h : r.completedBy op = some env) : r.state ≠ .approved := by
  intro happroved
  unfold PairingRequest.completedBy at h
  rw [happroved] at h
  split at h
  · simp at h
  · simp at h
  · cases h

/-- The record of a request that waits for one party. -/
theorem Pairs.half_record (h : Pairs cfg s) {pre post : List NativeEntry} {e : NativeEntry}
    (hsplit : s.log = pre ++ e :: post) (he : e.opensPairing cfg = some q)
    (hlive : s.clock < q.expiresAt) {party : Party} (hprogress : progress cfg q post = party.half) :
    s.store.pairings.lookup q.requestId = some { q with state := party.half } := by
  rcases h.follows pre e post q hsplit he hlive with hold | ⟨-, hdecided⟩
  · rw [hold, hprogress]
  · rw [hprogress, half_isActive] at hdecided
    cases hdecided

/-- One request ID, one request. -/
theorem Pairs.request_unique (h : Pairs cfg s) {pre post pre' post' : List NativeEntry}
    {e e' : NativeEntry} {q' : PairingRequest} (hsplit : s.log = pre ++ e :: post)
    (hsplit' : s.log = pre' ++ e' :: post') (he : e.opensPairing cfg = some q)
    (he' : e'.opensPairing cfg = some q') (hid : q'.requestId = q.requestId) :
    q' = q ∧ post' = post := by
  have hx : e ∈ s.log := by
    rw [hsplit]
    simp
  have hx' : e' ∈ s.log := by
    rw [hsplit']
    simp
  have hdrawn := (h.opens e hx q he).drawn
  have hdrawn' := (h.opens e' hx' q' he').drawn
  rw [hid] at hdrawn'
  obtain ⟨-, rfl, rfl⟩ := split_unique h.drawn hsplit hsplit' hdrawn hdrawn'
  exact ⟨Option.some.inj (he'.symm.trans he), rfl⟩

/-- The record of a request, as far as there is one. -/
theorem Pairs.record_of_lookup (h : Pairs cfg s) {pre post : List NativeEntry} {e : NativeEntry}
    (hsplit : s.log = pre ++ e :: post) (he : e.opensPairing cfg = some q) {r : PairingRequest}
    (hr : s.store.pairings.lookup q.requestId = some r) : r = { q with state := r.state } := by
  obtain ⟨hkey, pre', e', post', q', hsplit', he', hrecord⟩ := h.origin _ r hr
  have hid : q'.requestId = q.requestId := by
    rw [← hkey, hrecord]
  obtain ⟨rfl, -⟩ := h.request_unique hsplit hsplit' he he' hid
  exact hrecord

theorem Pairs.becomesTrusted_iff (h : Pairs cfg s) {pre post : List NativeEntry} {e : NativeEntry}
    (hsplit : s.log = pre ++ e :: post) (he : e.opensPairing cfg = some q) {op : NativeOp}
    (hfresh : (NativeLabel.call op).fresh s = true) :
    BecomesTrusted cfg s op q ↔ Due cfg q post (s.entry cfg op) ∧ op.saves = true := by
  rw [due_iff]
  constructor
  · rintro ⟨⟨r, hr, hne⟩, hafter, -⟩
    have heffect : PairingEffect cfg q.requestId (s.entry cfg op)
        (s.store.pairings.lookup q.requestId)
        ((s.after cfg op).store.pairings.lookup q.requestId) :=
      call_pairingEffect h.keyed (fun _ hid => h.lookup_fresh hfresh hid) _
    have hrecord := h.record_of_lookup hsplit he hr
    rw [hr, hafter] at heffect
    generalize hnew : some { q with state := PairState.approved } = new at heffect
    cases heffect with
    | gone => cases hnew
    | opened r' request key =>
      have hpending := (opensPairing_spec (fun _ hid => h.lookup_fresh hfresh hid) request).1.state
      cases hnew
      cases hpending
    | moved r' record live =>
      obtain rfl := Option.some.inj record
      have hnext : r.state.next cfg r (s.entry cfg op) = .approved :=
        (congrArg PairingRequest.state (Option.some.inj hnew)).symm
      have hlive : s.clock < q.expiresAt := by
        have hlive := live (by rw [hnext]; exact hne.symm)
        rw [hrecord] at hlive
        exact hlive
      obtain ⟨party, hhalf, hagrees, hsaves⟩ := next_approved hne hnext
      refine ⟨⟨hlive, party, ?_, ?_⟩, hsaves⟩
      · rcases h.follows pre e post q hsplit he hlive with hold | ⟨hold, -⟩
        · rw [hr] at hold
          rw [← hhalf, Option.some.inj hold]
        · rw [hr] at hold
          cases hold
      · rw [hrecord] at hagrees
        cases party <;> exact hagrees
  · rintro ⟨⟨hlive, party, hprogress, hagrees⟩, hsaves⟩
    have hr := h.half_record hsplit he hlive hprogress
    obtain ⟨env, hop, hsaved⟩ := completedBy_of_agrees hagrees
    have hcompleted : (s.store.call cfg s.clock op).1.pairingStore = _ ∧ _ :=
      completed_saved hr (h.keyed.valid _ _ hr) hlive hop (hsaved.symm.trans hsaves)
    refine ⟨⟨_, hr, ?_⟩, hcompleted.2, env, hcompleted.1⟩
    cases party <;> simp [Party.half]

/-- When the save fails, the request and the trusted devices stay as they are. -/
theorem Pairs.unsaved (h : Pairs cfg s) {pre post : List NativeEntry} {e : NativeEntry}
    (hsplit : s.log = pre ++ e :: post) (he : e.opensPairing cfg = some q) {op : NativeOp}
    (hdue : Due cfg q post (s.entry cfg op)) (hsaves : op.saves = false) :
    (s.after cfg op).store.pairings.lookup q.requestId = s.store.pairings.lookup q.requestId ∧
      (s.after cfg op).store.pairingStore = s.store.pairingStore := by
  obtain ⟨hlive, party, hprogress, hagrees⟩ := due_iff.mp hdue
  have hr := h.half_record hsplit he hlive hprogress
  obtain ⟨env, hop, hsaved⟩ := completedBy_of_agrees hagrees
  have hcompleted : (s.store.call cfg s.clock op).1.pairingStore = _ ∧ _ :=
    completed_unsaved hr (h.keyed.valid _ _ hr) hlive hop (hsaved.symm.trans hsaves)
  exact ⟨hcompleted.2.trans hr.symm, hcompleted.1⟩

theorem mem_addDevice {trusted : List TrustedDevice} {device d : TrustedDevice}
    (h : d ∈ addDevice trusted device) : d ∈ trusted ∨ d = device := by
  rcases List.mem_append.mp h with h | h
  · exact .inl (List.mem_of_mem_filter h)
  · exact .inr (List.mem_singleton.mp h)

/-- A call adds a device only by completing its request. -/
theorem Pairs.added (h : Pairs cfg s) {op : NativeOp} {d : TrustedDevice}
    (hd : d ∈ (s.after cfg op).store.pairingStore.trusted)
    (hnew : d ∉ s.store.pairingStore.trusted) :
    ∃ pre e post q env, s.log = pre ++ e :: post ∧ e.opensPairing cfg = some q ∧
      d = q.device env ∧ BecomesTrusted cfg s op q := by
  rcases call_trusted h.keyed op with ⟨r, env, hr, hlive, hop⟩ | hsub
  · obtain ⟨-, pre, e, post, q, hsplit, he, hrecord⟩ := h.origin _ r hr
    have hid : r.requestId = q.requestId := by rw [hrecord]
    have hexp : r.expiresAt = q.expiresAt := by rw [hrecord]
    have hdevice : r.device env = q.device env := by rw [hrecord]; rfl
    have hvalid := h.keyed.valid _ r hr
    cases hsaved : env.saved with
    | false =>
      have hstore : (s.store.call cfg s.clock op).1.pairingStore = _ :=
        (completed_unsaved hr hvalid hlive hop hsaved).1
      rw [show (s.after cfg op).store.pairingStore = _ from hstore] at hd
      exact absurd hd hnew
    | true =>
      have hstore : (s.store.call cfg s.clock op).1.pairingStore = _ :=
        (completed_saved hr hvalid hlive hop hsaved).1
      rw [show (s.after cfg op).store.pairingStore = _ from hstore] at hd
      rcases mem_addDevice hd with hd | hd
      · exact absurd hd hnew
      · refine ⟨pre, e, post, q, env, hsplit, he, hd.trans hdevice, ?_⟩
        have hcompleted : (s.store.call cfg s.clock op).1.pairingStore = _ ∧ _ :=
          completed_saved hr hvalid hlive hop hsaved
        refine ⟨⟨r, hid ▸ hr, completedBy_state hop⟩, ?_, env, ?_⟩
        · rw [← hid]
          refine hcompleted.2.trans ?_
          rw [hrecord]
        · rw [← hdevice]
          exact hcompleted.1
  · exact absurd (hsub d hd) hnew

/-! ## Both orders -/

theorem confirmPairing_pending {r : PairingRequest} {proof : ByteString} {env : StoreEnv}
    (hr : store.pairings.lookup id = some r) (hlive : now < r.expiresAt)
    (hstate : r.state = .pending) (hproof : constantTimeEqual proof r.expectedProof = true) :
    (store.confirmPairing now id proof env).1 =
      (store.pruneLocked now).updatePairing id { r with state := .senderConfirmed } := by
  unfold NativeSessionStore.confirmPairing
  simp only [pruned_lookup_of_live hr hlive, hstate, hproof, reduceCtorEq, if_false, Bool.not_true,
    Bool.false_eq_true]

theorem approvePairing_pending {r : PairingRequest} {env : StoreEnv}
    (hr : store.pairings.lookup id = some r) (hlive : now < r.expiresAt)
    (hstate : r.state = .pending) :
    (store.approvePairing now id env).1 =
      (store.pruneLocked now).updatePairing id { r with state := .receiverConfirmed } := by
  unfold NativeSessionStore.approvePairing
  simp only [pruned_lookup_of_live hr hlive, hstate]

theorem confirmPairing_half {r : PairingRequest} {proof : ByteString} {env : StoreEnv}
    (hr : store.pairings.lookup id = some r) (hlive : now < r.expiresAt) (hvalid : r.Valid)
    (hstate : r.state = .receiverConfirmed)
    (hproof : constantTimeEqual proof r.expectedProof = true) (hsaved : env.saved = true) :
    (store.confirmPairing now id proof env).1 =
      { store.pruneLocked now with
        pairingStore := store.pairingStore.withDevice (r.device env) }.updatePairing id
          { r with state := .approved } := by
  have htrust : (store.pruneLocked now).trust r env = _ := trust_eq hvalid env
  rw [if_pos hsaved] at htrust
  unfold NativeSessionStore.confirmPairing
  simp only [pruned_lookup_of_live hr hlive, hstate, hproof, htrust, reduceCtorEq,
    if_false, if_true,
    Bool.not_true, Bool.false_eq_true]
  rfl

theorem approvePairing_half {r : PairingRequest} {env : StoreEnv}
    (hr : store.pairings.lookup id = some r) (hlive : now < r.expiresAt) (hvalid : r.Valid)
    (hstate : r.state = .senderConfirmed) (hsaved : env.saved = true) :
    (store.approvePairing now id env).1 =
      { store.pruneLocked now with
        pairingStore := store.pairingStore.withDevice (r.device env) }.updatePairing id
          { r with state := .approved } := by
  have htrust : (store.pruneLocked now).trust r env = _ := trust_eq hvalid env
  rw [if_pos hsaved] at htrust
  unfold NativeSessionStore.approvePairing
  simp only [pruned_lookup_of_live hr hlive, hstate, htrust, if_true]
  rfl

/-- **Both orders end in the same state.** -/
theorem both_orders {r : PairingRequest} {proof : ByteString} {earlier later : Nat}
    {env env₁ env₂ : StoreEnv} (hr : store.pairings.lookup id = some r) (hvalid : r.Valid)
    (hstate : r.state = .pending) (horder : earlier ≤ later) (hlive : later < r.expiresAt)
    (hproof : constantTimeEqual proof r.expectedProof = true) (hsaved : env.saved = true) :
    ((store.confirmPairing earlier id proof env₁).1.approvePairing later id env).1 =
      ((store.approvePairing earlier id env₂).1.confirmPairing later id proof env).1 := by
  have hlive' : earlier < r.expiresAt := Nat.lt_of_le_of_lt horder hlive
  have hpruned := pruned_lookup_of_live hr hlive'
  have hvalid' : ∀ state, { r with state := state }.Valid :=
    fun state => ⟨hvalid.id_pos, hvalid.id_le, hvalid.name_le, hvalid.hash⟩
  have hupdated : ∀ item, ((store.pruneLocked earlier).updatePairing id item).pairings.lookup id =
      some item := fun item => lookup_updatePairing_self hpruned item
  rw [confirmPairing_pending hr hlive' hstate hproof, approvePairing_pending hr hlive' hstate,
    approvePairing_half (hupdated { r with state := .senderConfirmed }) hlive
      (hvalid' _) rfl hsaved,
    confirmPairing_half (hupdated { r with state := .receiverConfirmed }) hlive
      (hvalid' _) rfl hproof
      hsaved]
  have hpairings : ∀ state,
      Table.update id { r with state := .approved }
        (((store.pruneLocked earlier).updatePairing id { r with state }).pruneLocked
          later).pairings =
      Table.update id { r with state := .approved }
        ((store.pruneLocked earlier).pruneLocked later).pairings :=
    fun state => Table.update_filter_update hpruned rfl
  show NativeSessionStore.mk _ _ _ _ _ = NativeSessionStore.mk _ _ _ _ _
  rw [NativeSessionStore.mk.injEq]
  exact ⟨rfl, rfl, (hpairings _).trans (hpairings _).symm, rfl, rfl⟩

/-! ## The result -/

/-- **Two-party native pairing.**  In every run with fresh request IDs and for every call, for a
request `q` opened at `e` and the calls `post` since then: the call makes `q` trusted exactly when
it is the one `q` still needs and the save works; when the save fails nothing changes; calls add no
other device; and the order of the two parties does not matter. -/
theorem two_party_pairing {pairingStore : PairingStore} {clock : Nat}
    (hrun : NativeRun cfg (.init pairingStore clock) s) {op : NativeOp}
    (hfresh : (NativeLabel.call op).fresh s = true) :
    (∀ pre e post q, s.log = pre ++ e :: post → e.opensPairing cfg = some q →
      (BecomesTrusted cfg s op q ↔ Due cfg q post (s.entry cfg op) ∧ op.saves = true) ∧
      (Due cfg q post (s.entry cfg op) → op.saves = false →
        (s.after cfg op).store.pairings.lookup q.requestId =
          s.store.pairings.lookup q.requestId ∧
        (s.after cfg op).store.pairingStore = s.store.pairingStore)) ∧
    (∀ d ∈ (s.after cfg op).store.pairingStore.trusted, d ∉ s.store.pairingStore.trusted →
      ∃ pre e post q env, s.log = pre ++ e :: post ∧ e.opensPairing cfg = some q ∧
        d = q.device env ∧ BecomesTrusted cfg s op q) ∧
    (∀ id r proof elapsed env env₁ env₂, s.store.pairings.lookup id = some r →
      r.state = .pending → s.clock + elapsed < r.expiresAt →
      constantTimeEqual proof r.expectedProof = true → env.saved = true →
      ((s.store.confirmPairing s.clock id proof env₁).1.approvePairing
          (s.clock + elapsed) id env).1 =
        ((s.store.approvePairing s.clock id env₂).1.confirmPairing
          (s.clock + elapsed) id proof env).1) := by
  have hpairs := hrun.pairs
  refine ⟨?_, ?_, ?_⟩
  · intro pre e post q hsplit he
    exact ⟨hpairs.becomesTrusted_iff hsplit he hfresh, hpairs.unsaved hsplit he⟩
  · intro d hd hnew
    exact hpairs.added hd hnew
  · intro id r proof elapsed env env₁ env₂ hr hstate hlive hproof hsaved
    exact both_orders hr (hpairs.keyed.valid id r hr) hstate
      (Nat.le_add_right ..) hlive hproof hsaved

/-- The sender has asked and confirmed. -/
def halfPaired : NativeState :=
  (((NativeState.init ⟨[], [], []⟩ 1000).after pairingReceiver .beginPairingWindow).after
    pairingReceiver (.requestPairing pairingBody (ascii "10.0.0.2")
      (ascii "00112233445566778899aabbccddeeff"))).after
    pairingReceiver (.confirmPairing (ascii "00112233445566778899aabbccddeeff")
      (ascii "f9fbec427fda2e6e19a1bc89cc703b38e7cc46e0b7d1161f54358aaec0a322ed") {})

theorem two_party_pairing_approved :
    BecomesTrusted pairingReceiver halfPaired
      (.approvePairing (ascii "00112233445566778899aabbccddeeff") {})
      (pairingBody.toRequest pairingReceiver 1000 (ascii "10.0.0.2")
        (ascii "00112233445566778899aabbccddeeff")) := by
  have hrun : NativeRun pairingReceiver (.init ⟨[], [], []⟩ 1000) halfPaired :=
    .tail (l := .call _) (.tail (l := .call _) (.tail (l := .call _) (.refl _) rfl rfl)
      (by decide) rfl) rfl rfl
  refine (((two_party_pairing hrun rfl).1 _ _ _ _
    (List.append_cons [_] _ [_]).symm (by decide)).1).mpr
      ⟨due_iff.mpr ⟨?_, .sender, ?_, ?_⟩, rfl⟩
  · decide
  · decide
  · decide

end LocalMediaTransfer
