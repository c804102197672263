import LocalMediaTransfer.Server.FileWriter.Effects

/-!
# Admission accounting

`initFile` admits a session by adding up what the registered sessions have reserved; a
reservation is granted before the file is created and released in five places.

* `stepThread_charge` — a step of a thread never increases what is charged, except for an admitted
  creation.
* `Accounted.step` — the limits hold in every state of **every** run; the 64-bit sums of the
  admission test never wrap.
* `admission_accounting` — limits, temporary files, handles, cache order and evictions together.
-/

set_option autoImplicit false

namespace LocalMediaTransfer

open Lib

variable {cfg : WriterConfig} {s s' : System} {l : Label}

/-- What the reserved ones of `sessions` are charged, with `f id size` for a session of ID `id`. -/
def charge (sessions : Table ByteString Nat) (states : Ref → FinalizationState)
    (f : ByteString → Nat → Nat) : Nat :=
  sessions.total fun id n =>
    if (states ⟨id, n⟩).reserved then f id (states ⟨id, n⟩).totalSize else 0

def Writer.charge (w : Writer) (f : ByteString → Nat → Nat) : Nat :=
  LocalMediaTransfer.charge w.sessions w.states f

/-- Bytes and files of the sessions selected by `p`. -/
def bytesOf (p : ByteString → Bool) (id : ByteString) (size : Nat) : Nat := if p id then size else 0

def filesOf (p : ByteString → Bool) (id : ByteString) (_ : Nat) : Nat := if p id then 1 else 0

theorem reservedBytes_eq (w : Writer) (p : ByteString → Bool) :
    w.reservedBytes p = w.charge (bytesOf p) % 2 ^ 64 := by
  unfold Writer.reservedBytes Writer.charge charge
  congr 1
  refine Table.total_congr fun e _ => ?_
  unfold bytesOf
  cases (w.states ⟨e.1, e.2⟩).reserved <;> cases p e.1 <;> rfl

theorem reservedCount_eq (w : Writer) (p : ByteString → Bool) :
    w.reservedCount p = w.charge (filesOf p) := by
  unfold Writer.reservedCount Writer.charge charge
  refine Table.total_congr fun e _ => ?_
  unfold filesOf
  cases (w.states ⟨e.1, e.2⟩).reserved <;> cases p e.1 <;> rfl

/-! ## How charges move -/

theorem evictExpired_total (g : ByteString → Nat → Nat) (handles : Table ByteString FileHandle) :
    ∀ (order : List ByteString) (sessions : Table ByteString Nat),
      (evictExpired handles order sessions).2.total g ≤ sessions.total g
  | [], _ => le_rfl
  | expired :: rest, sessions => by
    unfold evictExpired
    split
    · refine (evictExpired_total g handles rest _).trans ?_
      split
      · exact Table.total_erase_le ..
      · exact le_rfl
    · exact le_rfl

theorem charge_remember_le (w : Writer) (id : ByteString) (f : ByteString → Nat → Nat) :
    (w.rememberCompletedSessionLocked id).charge f ≤ w.charge f := by
  unfold Writer.charge charge
  exact evictExpired_total ..

/-- A charge grows with the reserved states. -/
theorem charge_le_of_states {sessions : Table ByteString Nat}
    {states states' : Ref → FinalizationState} (f : ByteString → Nat → Nat)
    (hst : ∀ id n, sessions.lookup id = some n → (states' ⟨id, n⟩).reserved = true →
      (states ⟨id, n⟩).reserved = true ∧
        (states' ⟨id, n⟩).totalSize = (states ⟨id, n⟩).totalSize) :
    charge sessions states' f ≤ charge sessions states f := by
  refine Table.total_le fun e he => ?_
  have hl := Table.lookup_eq_some_iff.mpr he
  split
  · rename_i hr
    obtain ⟨hr', hsz⟩ := hst _ _ hl hr
    rw [if_pos hr', hsz]
  · exact Nat.zero_le _

theorem StateEffect.reserved_le {now : Nat} {w : Writer} {pc : Pc} {id : ByteString} {n : Nat}
    {st : FinalizationState} (h : StateEffect now w pc ⟨id, n⟩ st)
    (hn : w.sessions.lookup id = some n) (hr : st.reserved = true) :
    (w.states ⟨id, n⟩).reserved = true ∧ st.totalSize = (w.states ⟨id, n⟩).totalSize := by
  cases h with
  | created caller a failed reserved _ hunknown hnew =>
    cases hnew
    cases hn.symm.trans hunknown
  | completed => cases hr
  | released => cases hr
  | _ => exact ⟨hr, rfl⟩

/-- Creation charges the new session once. -/
theorem charge_createSession_le {w : Writer} {now : Nat} {a : InitArgs} {env : InitEnv}
    (f : ByteString → Nat → Nat) (hunknown : w.sessions.lookup a.fileId = none) :
    (w.createSession now a env).1.charge f ≤ w.charge f + f a.fileId a.totalSize := by
  have hnew : ∀ st : FinalizationState, (st.reserved = true → st.totalSize = a.totalSize) →
      charge (w.sessions.insert a.fileId w.nextSerial)
        (Function.update w.states ⟨a.fileId, w.nextSerial⟩ st) f ≤
        w.charge f + f a.fileId a.totalSize := by
    intro st hsize
    unfold Writer.charge charge
    rw [Table.total_insert hunknown, Function.update_self, Nat.add_comm]
    refine Nat.add_le_add ?_ ?_
    · refine (Table.total_congr fun e he => ?_).le
      have hl := Table.lookup_eq_some_iff.mpr he
      have hne : (⟨e.1, e.2⟩ : Ref) ≠ ⟨a.fileId, w.nextSerial⟩ := by
        intro h
        rw [show e.1 = a.fileId from congrArg Ref.fileId h] at hl
        cases hunknown.symm.trans hl
      rw [Function.update_of_ne hne]
    · split
      · rename_i hr
        rw [hsize hr]
      · exact Nat.zero_le _
  have hupdate : ∀ g : FinalizationState → FinalizationState,
      ((w.reserve now a).updateState ⟨a.fileId, w.nextSerial⟩ g).states =
        Function.update w.states ⟨a.fileId, w.nextSerial⟩ (g (a.state now)) := by
    intro g
    simp [Writer.updateState, Writer.reserve]
  unfold Writer.createSession
  simp only
  split
  · exact hnew (a.state now) fun _ => rfl
  · have h := hnew { a.state now with failed := true } fun _ => rfl
    rw [← hupdate fun st => { st with failed := true }] at h
    exact h
  · have h := hnew { a.state now with failed := true, reserved := false } fun h => by cases h
    rw [← hupdate fun st => { st with failed := true, reserved := false }] at h
    exact (charge_remember_le ..).trans h

/-- **A step never increases what is charged, except for an admitted creation.** -/
theorem stepThread_charge {now i : Nat} {w : Writer} {pc : Pc} {env : StepEnv}
    {out : Writer × Pc × List Event} (hst : stepThread cfg now i w pc env = some out) :
    (∀ f, out.1.charge f ≤ w.charge f) ∨
      ∃ a, w.admits cfg a env.init = true ∧ a.valid cfg = true ∧
        ∀ f, out.1.charge f ≤ w.charge f + f a.fileId a.totalSize := by
  have hstates : ∀ id n, w.sessions.lookup id = some n → (out.1.states ⟨id, n⟩).reserved = true →
      (w.states ⟨id, n⟩).reserved = true ∧
        (out.1.states ⟨id, n⟩).totalSize = (w.states ⟨id, n⟩).totalSize :=
    fun id n hn hr => (stepThread_states hst ⟨id, n⟩).reserved_le hn hr
  cases stepThread_sessionTable hst with
  | same h _ =>
    left
    intro f
    unfold Writer.charge
    rw [h]
    exact charge_le_of_states f hstates
  | recorded r _ h _ =>
    left
    intro f
    refine le_trans ?_ (charge_le_of_states f hstates)
    unfold Writer.charge charge
    rw [h]
    exact evictExpired_total ..
  | created caller a _ hunknown hadm hvalid h =>
    right
    rw [h]
    exact ⟨a, hadm, hvalid, fun f => charge_createSession_le f hunknown⟩

/-! ## The limits -/

/-- The limits hold: files and bytes, of all sessions and of each owner. -/
structure Accounted (cfg : WriterConfig) (w : Writer) : Prop where
  files : w.charge (filesOf fun _ => true) ≤ cfg.limits.maxActiveFiles
  bytes : w.charge (bytesOf fun _ => true) ≤ cfg.limits.maxReservedBytes
  ownerFiles : ∀ o, w.charge (filesOf fun id => owner id == o) ≤ cfg.limits.maxOwnerFiles
  ownerBytes : ∀ o, w.charge (bytesOf fun id => owner id == o) ≤ cfg.limits.maxOwnerBytes

/-- Within the limits the 64-bit sums are exact. -/
theorem Accounted.reservedBytes {w : Writer} (h : Accounted cfg w) :
    w.reservedBytes (fun _ => true) = w.charge (bytesOf fun _ => true) ∧
      ∀ o, w.reservedBytes (fun id => owner id == o) =
        w.charge (bytesOf fun id => owner id == o) := by
  refine ⟨?_, fun o => ?_⟩
  · rw [reservedBytes_eq]
    exact Nat.mod_eq_of_lt (h.bytes.trans_lt cfg.limits.maxReservedBytes_lt)
  · rw [reservedBytes_eq]
    exact Nat.mod_eq_of_lt ((h.ownerBytes o).trans_lt cfg.limits.maxOwnerBytes_lt)

/-- What the admission test leaves room for. -/
theorem Accounted.admits {w : Writer} {a : InitArgs} {env : InitEnv} (h : Accounted cfg w)
    (hadm : w.admits cfg a env = true) :
    w.charge (filesOf fun _ => true) + 1 ≤ cfg.limits.maxActiveFiles ∧
    w.charge (filesOf fun id => owner id == owner a.fileId) + 1 ≤ cfg.limits.maxOwnerFiles ∧
    w.charge (bytesOf fun _ => true) + a.totalSize ≤ cfg.limits.maxReservedBytes ∧
    w.charge (bytesOf fun id => owner id == owner a.fileId) + a.totalSize ≤
      cfg.limits.maxOwnerBytes := by
  unfold Writer.admits at hadm
  simp only [reservedCount_eq, h.reservedBytes.1, h.reservedBytes.2, Bool.and_eq_true,
    Bool.not_eq_true', Bool.or_eq_false_iff, decide_eq_false_iff_not, not_le, not_lt] at hadm
  omega

theorem Accounted.of_le {w w' : Writer} (h : Accounted cfg w)
    (hle : ∀ f, w'.charge f ≤ w.charge f) : Accounted cfg w' where
  files := (hle _).trans h.files
  bytes := (hle _).trans h.bytes
  ownerFiles := fun o => (hle _).trans (h.ownerFiles o)
  ownerBytes := fun o => (hle _).trans (h.ownerBytes o)

theorem Accounted.create {w w' : Writer} {a : InitArgs} {env : InitEnv} (h : Accounted cfg w)
    (hadm : w.admits cfg a env = true)
    (hle : ∀ f, w'.charge f ≤ w.charge f + f a.fileId a.totalSize) : Accounted cfg w' := by
  obtain ⟨hf, hof, hb, hob⟩ := h.admits hadm
  refine ⟨?_, ?_, fun o => ?_, fun o => ?_⟩
  · have := hle (filesOf fun _ => true)
    simp only [filesOf, if_true] at this hf ⊢
    omega
  · have := hle (bytesOf fun _ => true)
    simp only [bytesOf, if_true] at this hb ⊢
    omega
  · have := hle (filesOf fun id => owner id == o)
    by_cases ho : owner a.fileId = o
    · subst ho
      simp only [filesOf, BEq.rfl, if_true] at this hof ⊢
      omega
    · simp only [filesOf, beq_eq_false_iff_ne.mpr ho, Bool.false_eq_true, if_false,
        Nat.add_zero] at this
      exact this.trans (h.ownerFiles o)
  · have := hle (bytesOf fun id => owner id == o)
    by_cases ho : owner a.fileId = o
    · subst ho
      simp only [bytesOf, BEq.rfl, if_true] at this hob ⊢
      omega
    · simp only [bytesOf, beq_eq_false_iff_ne.mpr ho, Bool.false_eq_true, if_false,
        Nat.add_zero] at this
      exact this.trans (h.ownerBytes o)

theorem Accounted.step (h : Accounted cfg s.writer) (hst : step cfg s l = some s') :
    Accounted cfg s'.writer := by
  cases step_spec hst with
  | call => exact h
  | run tid env out hmove =>
    rcases stepThread_charge hmove with hle | ⟨a, hadm, -, hle⟩
    · exact h.of_le hle
    · exact h.create hadm hle
  | tick => exact h

theorem accounted_of_run {ok : System → Label → Prop} {files : Table ByteString DirEntry}
    (hrun : Run (LocalMediaTransfer.step cfg) ok (.init files) s) : Accounted cfg s.writer := by
  refine hrun.invariant (I := fun s => Accounted cfg s.writer) ?_ fun _ _ _ h _ hst => h.step hst
  exact ⟨Nat.zero_le _, Nat.zero_le _, fun _ => Nat.zero_le _, fun _ => Nat.zero_le _⟩

/-! ## Evictions -/

theorem Phase.Describes.settled_of_mem {X : ByteString} {p : Phase} {w : Writer}
    (hd : p.Describes X w) (hX : X ∈ w.completedSessionOrder) : ∃ n, p = .settled n none := by
  have hpos := List.count_pos_iff.mpr hX
  rw [hd.order] at hpos
  cases p with
  | settled n k =>
    cases k with
    | none => exact ⟨n, rfl⟩
    | some j => cases hpos
  | _ => cases hpos

/-- A session that leaves the table was settled. -/
theorem settled_of_evicted {X : ByteString} {p : Phase} {w : Writer} {pc : Pc} {env : StepEnv}
    {now i n : Nat} {out : Writer × Pc × List Event} (hd : p.Describes X w)
    (hi : Compat X p w i pc) (hst : stepThread cfg now i w pc env = some out)
    (hn : w.sessions.lookup X = some n) (hnone : out.1.sessions.lookup X = none) :
    ∃ m k, p = .settled m k := by
  -- what the cache drops stood in it, or is the ID just recorded
  have hdropped : ∀ (v : Writer) id, v.completedSessionOrder = w.completedSessionOrder →
      v.sessions.lookup X = some n →
        (v.rememberCompletedSessionLocked id).sessions.lookup X = none →
      X = id ∨ ∃ m, p = .settled m none := by
    intro v id hv hvn hvnone
    obtain ⟨dropped, ho, hs⟩ := rememberCompletedSessionLocked_spec v id
    rw [hs] at hvnone
    split at hvnone
    · rename_i hX
      have hmem : X ∈ w.completedSessionOrder ++ [id] := by
        rw [← hv, ho]
        exact List.mem_append_left _ hX.1
      rcases List.mem_append.mp hmem with hmem | hmem
      · exact .inr (hd.settled_of_mem hmem)
      · exact .inl (List.mem_singleton.mp hmem)
    · cases hvn.symm.trans hvnone
  cases stepThread_sessionTable hst with
  | same h _ =>
    rw [h, hn] at hnone
    cases hnone
  | recorded r hr h _ =>
    rw [h] at hnone
    rcases hdropped w r.fileId rfl hn hnone with hX | ⟨m, hp⟩
    · exact ⟨_, _, hi.recorder r hr hX.symm⟩
    · exact ⟨m, none, hp⟩
  | created caller a _ hunknown _ _ h =>
    rw [h] at hnone
    have hne : X ≠ a.fileId := by
      rintro rfl
      cases hn.symm.trans hunknown
    have hres : (w.reserve now a).sessions.lookup X = some n :=
      (AList.lookup_insert_ne hne).trans hn
    unfold Writer.createSession at hnone
    simp only at hnone
    split at hnone
    · cases hres.symm.trans hnone
    · cases hres.symm.trans hnone
    · rcases hdropped ((w.reserve now a).updateState ⟨a.fileId, w.nextSerial⟩ fun st =>
        { st with failed := true, reserved := false }) a.fileId rfl hres hnone with hX | ⟨m, hp⟩
      · exact absurd hX hne
      · exact ⟨m, none, hp⟩

/-- **Admission accounting**: in every run in which a session is only created when no call still
carries a reference to an earlier session of its ID, every state keeps the limits (of all sessions
and of each owner, with exact 64-bit sums), every temporary file is charged to a registered
session, every active handle has a session, no ID is recorded twice, and a step only drops
sessions that are neither active nor finalizing nor reserved. -/
theorem admission_accounting {files : Table ByteString DirEntry}
    (hrun : Run (step cfg) (fun s l => ∀ X, FreshInit X s l) (.init files) s) :
    (s.writer.reservedCount (fun _ => true) ≤ cfg.limits.maxActiveFiles ∧
      s.writer.charge (bytesOf fun _ => true) ≤ cfg.limits.maxReservedBytes ∧
      (∀ o, s.writer.reservedCount (fun id => owner id == o) ≤ cfg.limits.maxOwnerFiles ∧
        s.writer.charge (bytesOf fun id => owner id == o) ≤ cfg.limits.maxOwnerBytes) ∧
      s.writer.reservedBytes (fun _ => true) = s.writer.charge (bytesOf fun _ => true) ∧
      ∀ o, s.writer.reservedBytes (fun id => owner id == o) =
        s.writer.charge (bytesOf fun id => owner id == o)) ∧
    (∀ r, (s.writer.temps r).isSome →
      s.writer.sessions.lookup r.fileId = some r.serial ∧ (s.writer.states r).reserved = true) ∧
    (∀ id h, s.writer.handles.lookup id = some h → (s.writer.sessions.lookup id).isSome) ∧
    s.writer.completedSessionOrder.Nodup ∧
    ∀ l s', step cfg s l = some s' → ∀ id n, s.writer.sessions.lookup id = some n →
      s'.writer.sessions.lookup id = none →
      s.writer.handles.lookup id = none ∧ (s.writer.states ⟨id, n⟩).finalizing = false ∧
        (s.writer.states ⟨id, n⟩).reserved = false := by
  have hacc := accounted_of_run hrun
  have hlife : ∀ X, Lifecycle X s := fun X => lifecycle_of_run (fun _ _ h => h X) hrun
  refine ⟨⟨?_, hacc.bytes, fun o => ⟨?_, hacc.ownerBytes o⟩, hacc.reservedBytes.1,
    hacc.reservedBytes.2⟩, ?_, ?_, ?_, ?_⟩
  · rw [reservedCount_eq]
    exact hacc.files
  · rw [reservedCount_eq]
    exact hacc.ownerFiles o
  · rintro ⟨id, n⟩ htemp
    obtain ⟨p, hd, -⟩ := hlife id
    have hc := hd.temp n htemp
    refine ⟨?_, (hd.reserved n).mpr hc⟩
    rw [hd.session]
    cases p <;> first | exact hc | cases hc
  · intro id h hl
    rw [(hlife id).session_of_handle hl]
    rfl
  · rw [List.nodup_iff_count_le_one]
    intro id
    obtain ⟨p, hd, -⟩ := hlife id
    rw [hd.order]
    unfold Phase.recorded
    split <;> simp
  · intro l s' hst id n hn hnone
    obtain ⟨p, hd, hc⟩ := hlife id
    cases step_spec hst with
    | call => cases hn.symm.trans hnone
    | run tid env out hmove =>
      obtain ⟨m, k, rfl⟩ := settled_of_evicted hd (hc tid) hmove hn hnone
      refine ⟨hd.lookup_none rfl, ?_, ?_⟩
      · simpa using hd.finalizing n
      · simpa [Phase.charged] using hd.reserved n
    | tick => cases hn.symm.trans hnone

/-- Two uploads at once: one is saved, one is still missing its second chunk. -/
def sampleParallel : List Label :=
  sampleCall 0 (.uploadChunk (sampleRequest "1" "0" "1" "2" "ab")) 3 ++
    sampleCall 1 (.uploadChunk (sampleRequest "2" "0" "2" "4" "ab")) 6 ++
    List.replicate 10 (.run 0 {})

theorem admission_accounting_sampleParallel :
    ∃ s, Run (step (sampleConfig .keepBoth)) (fun s l => ∀ X, FreshInit X s l) (.init ∅) s ∧
      s.writer.reservedCount (fun _ => true) = 1 ∧
      s.writer.charge (bytesOf fun _ => true) ≤
        (sampleConfig .keepBoth).limits.maxReservedBytes := by
  obtain ⟨s, hrun, htest⟩ := Run.exists_of_exec (step (sampleConfig .keepBoth))
    (fun s _ => evictionFree s.log) (fun s => s.writer.reservedCount (fun _ => true) == 1)
    (.init ∅) sampleParallel (fun _ _ h => h) (by decide)
  have hfresh := run_freshInit (fun _ _ h => h) (fun _ _ _ _ h => h) hrun
  exact ⟨s, hfresh, beq_iff_eq.mp htest, (admission_accounting hfresh).1.2.1⟩

end LocalMediaTransfer
