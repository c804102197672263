import LocalMediaTransfer.Server.FileWriter.Runs

/-!
# What a step can do to each object

One inversion lemma per kind of object: finalization states, write mutexes, returned finalization
results (the session table is in `Runs`).  Every invariant about an object is derived from its
lemma, so that `stepThread` is taken apart here (and, for the content of a file, in `ContentStep`)
only.
-/

set_option autoImplicit false

namespace LocalMediaTransfer

open Lib

variable {X : ByteString} {cfg : WriterConfig} {now i : Nat} {w : Writer} {pc : Pc} {env : StepEnv}
  {out : Writer × Pc × List Event}

/-- What a step of a thread at `pc` can make of the finalization state of `q`. -/
inductive StateEffect (now : Nat) (w : Writer) (pc : Pc) (q : Ref) : FinalizationState → Prop where
  | same (t : Nat) : StateEffect now w pc q { w.states q with lastActivity := t }
  | created (caller : Caller) (a : InitArgs) (failed reserved : Bool)
      (at_ : pc = .initFile caller a) (unknown : w.sessions.lookup a.fileId = none)
      (new : q = ⟨a.fileId, w.nextSerial⟩) :
      StateEffect now w pc q { a.state now with failed := failed, reserved := reserved }
  | taken (caller : Caller) (h : FileHandle) (at_ : pc = .finalizeTake caller q)
      (lookup : w.handles.lookup q.fileId = some h) (complete : h.isComplete = true) :
      StateEffect now w pc q { w.states q with finalizing := true }
  | completed (caller : Caller) (result : FileFinalizeResult)
      (at_ : pc = .finalizeComplete caller q result) :
      StateEffect now w pc q
        { w.states q with
          filename := result.filename, sha256 := result.sha256,
          disposition := result.disposition, finalizing := false, completed := true,
          reserved := false }
  | failed (at_ : (∃ caller thrown, pc = .finalizeFail caller q thrown) ∨
        ∃ caller rest count after, pc = .abortClose caller q rest count after) :
      StateEffect now w pc q { w.states q with finalizing := false, failed := true }
  | aborted (caller : Caller) (m : AbortMatch) (after : AfterAbort) (h : FileHandle)
      (at_ : pc = .abortCollect caller m after) (lookup : w.handles.lookup q.fileId = some h)
      (serial : h.serial = q.serial) :
      StateEffect now w pc q { w.states q with failed := true }
  | released (cont : Cont) (at_ : pc = .retire cont q) (charged : (w.states q).reserved = true) :
      StateEffect now w pc q { w.states q with reserved := false }

theorem StateEffect.of_eq {q : Ref} {st : FinalizationState} (h : st = w.states q) :
    StateEffect now w pc q st := by
  rw [h]
  exact StateEffect.same (w := w) (q := q) (w.states q).lastActivity

theorem StateEffect.of_update {q r : Ref} {st : FinalizationState}
    (h : q = r → StateEffect now w pc q st) :
    StateEffect now w pc q (Function.update w.states r st q) := by
  by_cases hq : q = r
  · subst hq
    rw [Function.update_self]
    exact h rfl
  · rw [Function.update_of_ne hq]
    exact .of_eq rfl

theorem createSession_states {caller : Caller} {a : InitArgs} {ienv : InitEnv} (q : Ref)
    (hunknown : w.sessions.lookup a.fileId = none) :
    StateEffect now w (.initFile caller a) q ((w.createSession now a ienv).1.states q) := by
  have hnew : ∀ failed reserved, StateEffect now w (.initFile caller a) q
      (Function.update (w.reserve now a).states ⟨a.fileId, w.nextSerial⟩
        { a.state now with failed := failed, reserved := reserved } q) := by
    intro failed reserved
    simp only [Writer.reserve, Function.update_idem]
    exact .of_update fun hq => .created caller a failed reserved rfl hunknown hq
  unfold Writer.createSession
  simp only
  split
  · exact .of_update fun hq => .created caller a false true rfl hunknown hq
  · simpa [Writer.updateState, Writer.reserve, InitArgs.state] using hnew true true
  · simpa [Writer.updateState, Writer.reserve, InitArgs.state,
      Writer.rememberCompletedSessionLocked] using hnew true false

theorem resume_states (cont : Cont) (r : Ref) (w : Writer) (healthy : Bool) :
    (cont.resume r w healthy).1.states = w.states := by
  rcases resume_writer cont r w healthy with h | ⟨q, h⟩ <;> rw [h]
  rfl

theorem unlock?_states (held : Option Ref) : (w.unlock? held).states = w.states := by
  cases held <;> rfl

/-- **Finalization states.** -/
theorem stepThread_states (hst : stepThread cfg now i w pc env = some out) (q : Ref) :
    StateEffect now w pc q (out.1.states q) := by
  cases pc with
  | initFile caller a =>
    obtain rfl := Option.some.inj hst
    have hspec := initFile_spec cfg w now a env.init
    simp only
    generalize w.initFile cfg now a env.init = res at hspec
    cases hspec with
    | create _ _ hunknown _ => exact createSession_states q hunknown
    | _ => exact .of_eq rfl
  | writeCheck call r =>
    simp only [stepThread] at hst
    split at hst
    · split at hst <;> cases hst
      · exact .of_eq rfl
      · refine .of_update fun hq => ?_
        subst hq
        exact .same _
    · split at hst <;> cases hst <;> exact .of_eq rfl
  | writeCopy call r target offset =>
    simp only [stepThread] at hst
    split at hst <;> cases hst
    · exact .of_eq rfl
    · refine .of_eq ?_
      unfold Writer.updateHash
      split
      · rfl
      · split <;> rfl
  | writeWait call held s =>
    simp only [stepThread] at hst
    split at hst
    · cases hst
      exact .of_eq (by rw [unlock?_states])
    · split at hst
      · cases hst
        exact .of_eq (by rw [unlock?_states])
      · split at hst <;> cases hst
        exact .of_eq (by rw [unlock?_states])
  | finalizeTake caller r =>
    simp only [stepThread] at hst
    split at hst
    · rename_i h hl
      split at hst <;> cases hst
      · rename_i hcomplete
        refine .of_update fun hq => ?_
        subst hq
        exact .taken caller h rfl hl hcomplete
      · exact .of_eq rfl
    · split at hst <;> cases hst <;> exact .of_eq rfl
  | finalizeComplete caller s result =>
    cases hst
    refine .of_update fun hq => ?_
    subst hq
    exact .completed caller result rfl
  | finalizeFail caller s thrown =>
    cases hst
    refine .of_update fun hq => ?_
    subst hq
    exact .failed (.inl ⟨caller, thrown, rfl⟩)
  | abortCollect caller m after =>
    cases hst
    simp only [Writer.collectAborted]
    split
    · rename_i hq
      obtain ⟨h, hl, -, hs⟩ := mem_abortedRefs.mp hq
      exact .aborted caller m after h rfl hl hs
    · exact .of_eq rfl
  | abortClose caller r rest count after =>
    cases hst
    refine .of_update (w := w) fun hq => ?_
    subst hq
    exact .failed (.inr ⟨caller, rest, count, after, rfl⟩)
  | retire cont r =>
    simp only [stepThread] at hst
    split at hst <;> cases hst
    · rename_i hr
      refine .of_update fun hq => ?_
      subst hq
      exact .released cont rfl (Bool.and_eq_true_iff.mp hr).1
    · exact .of_eq (by rw [resume_states])
  | remember cont r =>
    cases hst
    refine .of_eq ?_
    rw [resume_states]
    rfl
  | _ =>
    simp only [stepThread] at hst
    repeat' split at hst
    all_goals cases hst
    all_goals exact .of_eq rfl

/-! ## What states keep -/

/-- A step at `pc` does not create session `q`. -/
def NotCreated (w : Writer) (pc : Pc) (q : Ref) : Prop :=
  ∀ caller a, pc = .initFile caller a → w.sessions.lookup a.fileId = none →
    q ≠ ⟨a.fileId, w.nextSerial⟩

theorem NotCreated.of_lookup {n : Nat} (hn : w.sessions.lookup X = some n) :
    NotCreated w pc ⟨X, n⟩ := by
  rintro caller a - hunknown ⟨⟩
  cases hn.symm.trans hunknown

theorem NotCreated.of_lt {q : Ref} (hq : q.serial < w.nextSerial) : NotCreated w pc q := by
  rintro caller a - - rfl
  exact Nat.lt_irrefl _ hq

/-- Metadata never change. -/
theorem StateEffect.metadata {q : Ref} {st : FinalizationState} (h : StateEffect now w pc q st)
    (hold : NotCreated w pc q) : st.metadata = (w.states q).metadata := by
  cases h with
  | created caller a _ _ hpc hunknown hq => exact absurd hq (hold caller a hpc hunknown)
  | _ => rfl

/-- A failed session stays failed. -/
theorem StateEffect.failed_persists {q : Ref} {st : FinalizationState}
    (h : StateEffect now w pc q st) (hold : NotCreated w pc q)
    (hf : (w.states q).failed = true) : st.failed = true := by
  cases h with
  | created caller a _ _ hpc hunknown hq => exact absurd hq (hold caller a hpc hunknown)
  | failed => rfl
  | aborted => rfl
  | _ => exact hf

/-- A completed state keeps its result. -/
theorem completed_persists {p : Phase} {n : Nat} (hd : p.Describes X w) (hi : Compat X p w i pc)
    (hst : stepThread cfg now i w pc env = some out) (hold : NotCreated w pc ⟨X, n⟩)
    (hc : (w.states ⟨X, n⟩).completed = true) :
    (out.1.states ⟨X, n⟩).completed = true ∧
      (out.1.states ⟨X, n⟩).result = (w.states ⟨X, n⟩).result := by
  have hopen : ¬(p = .active n ∨ ∃ k, p = .finalizing n k) := by
    intro hp
    rw [(hd.open_ n hp).2] at hc
    cases hc
  have heff := stepThread_states hst ⟨X, n⟩
  generalize out.1.states ⟨X, n⟩ = st at heff
  cases heff with
  | same t => exact ⟨hc, rfl⟩
  | created caller a failed reserved hpc hunknown hnew => exact absurd hnew (hold _ _ hpc hunknown)
  | taken caller h hpc hl hcomplete =>
    subst hpc
    have hp := hd.active_of_lookup hl
    have hserial : h.serial = n := hi.bound ⟨X, n⟩ rfl rfl _ hp
    rw [hserial] at hp
    exact absurd (.inl hp) hopen
  | completed caller result hpc =>
    subst hpc
    exact absurd (.inr ⟨i, hi.finalizer ⟨X, n⟩ rfl rfl⟩) hopen
  | failed hpc =>
    rcases hpc with ⟨caller, thrown, rfl⟩ | ⟨caller, rest, count, after, rfl⟩
    · exact absurd (.inr ⟨i, hi.finalizer ⟨X, n⟩ rfl rfl⟩) hopen
    · have hf := (hi.doomed ⟨X, n⟩ (List.mem_cons_self ..) rfl).1
      exact absurd ⟨hc, hf⟩ (hd.exclusive n)
  | aborted caller m after h hpc hl hs =>
    have hp := hd.active_of_lookup hl
    rw [show h.serial = n from hs] at hp
    exact absurd (.inl hp) hopen
  | released cont hpc _ => exact ⟨hc, rfl⟩

/-! ## Write mutexes -/

def Cont.held : Cont → Option Ref
  | .abortNext _ held _ _ _ => some held
  | _ => none

/-- The write mutex a thread holds. -/
def Pc.held : Pc → Option Ref
  | .writeCheck _ r | .writeCopy _ r _ _ | .writeCommit _ r _ _ _ => some r
  | .writeWait _ held _ => held
  | .finalizeTake _ r | .abortClose _ r _ _ _ => some r
  | .retire cont _ | .remember cont _ => cont.held
  | _ => none

theorem Pc.held_mem_refs {r : Ref} (h : pc.held = some r) : r ∈ pc.refs := by
  cases pc with
  | retire cont q => cases cont <;> simp_all [Pc.held, Cont.held, Pc.refs, Cont.refs]
  | remember cont q => cases cont <;> simp_all [Pc.held, Cont.held, Pc.refs, Cont.refs]
  | _ => simp_all [Pc.held, Pc.refs]

theorem Pc.held_of_refs_nil (h : pc.refs = []) : pc.held = none := by
  by_contra hne
  obtain ⟨r, hr⟩ := Option.ne_none_iff_exists'.mp hne
  have hm := Pc.held_mem_refs hr
  rw [h] at hm
  cases hm

/-- Locking and unlocking by thread `i`, which moves from `pc` to `pc'`. -/
structure LockEffect (i : Nat) (w : Writer) (pc : Pc) (w' : Writer) (pc' : Pc) : Prop where
  others : ∀ q, w'.mutexOwner q = w.mutexOwner q ∨ pc.held = some q ∨ w.mutexOwner q = none
  held : ∀ q, pc'.held = some q →
    w'.mutexOwner q = some i ∨ pc.held = some q ∧ w'.mutexOwner q = w.mutexOwner q

variable {w' : Writer} {pc' : Pc}

theorem LockEffect.keep (hw : w'.mutexOwner = w.mutexOwner)
    (hh : ∀ q, pc'.held = some q → pc.held = some q) : LockEffect i w pc w' pc' where
  others := fun q => .inl (by rw [hw])
  held := fun q hq => .inr ⟨hh q hq, by rw [hw]⟩

theorem LockEffect.lock {r : Ref} (hr : w.mutexOwner r = none) (hh : pc'.held = some r) :
    LockEffect i w pc (w.lock i r) pc' where
  others := by
    intro q
    by_cases hq : q = r
    · subst hq
      exact .inr (.inr hr)
    · exact .inl (Function.update_of_ne hq ..)
  held := by
    intro q hq
    cases hh.symm.trans hq
    exact .inl (Function.update_self ..)

theorem LockEffect.unlock {r : Ref} (hr : pc.held = some r) (hh : pc'.held = none)
    (hw : w'.mutexOwner = (w.unlock r).mutexOwner) : LockEffect i w pc w' pc' where
  others := by
    intro q
    by_cases hq : q = r
    · subst hq
      exact .inr (.inl hr)
    · rw [hw]
      exact .inl (Function.update_of_ne hq ..)
  held := by
    intro q hq
    cases hh.symm.trans hq

theorem createSession_mutexOwner (w : Writer) (now : Nat) (a : InitArgs) (ienv : InitEnv) :
    (w.createSession now a ienv).1.mutexOwner = w.mutexOwner := by
  unfold Writer.createSession
  simp only
  split <;> rfl

theorem updateHash_mutexOwner (w : Writer) (id data : ByteString) (ok : Bool) :
    (w.updateHash id data ok).1.mutexOwner = w.mutexOwner := by
  unfold Writer.updateHash
  split
  · rfl
  · split <;> rfl

theorem held_nextAbort (caller : Caller) (refs : List Ref) (count : Nat) (after : AfterAbort) :
    (nextAbort caller refs count after).1.held = none := by
  cases refs with
  | nil => exact Pc.held_of_refs_nil (refs_afterAbort ..)
  | cons r rest => rfl

theorem held_nextExpire (refs : List Ref) : (nextExpire refs).1.held = none := by
  cases refs <;> rfl

theorem LockEffect.resume {cont : Cont} {r : Ref} {v : Writer} {healthy : Bool}
    (hpc : pc.held = cont.held) (hv : v.mutexOwner = w.mutexOwner) :
    LockEffect i w pc (cont.resume r v healthy).1 (cont.resume r v healthy).2.1 := by
  unfold Cont.resume
  split
  · exact .keep hv (by simp [Pc.held_of_refs_nil (refs_afterFinalize ..)])
  · exact .keep hv (by simp [Pc.held_of_refs_nil (refs_afterThrow ..)])
  · refine .unlock hpc (held_nextAbort ..) ?_
    simp only [Writer.unlock, hv]
  · exact .keep hv (by simp [held_nextExpire])

theorem LockEffect.unlock? {held : Option Ref} (hpc : pc.held = held) (hh : pc'.held = none) :
    LockEffect i w pc (w.unlock? held) pc' := by
  cases held with
  | none => exact .keep rfl (by simp [hh])
  | some r => exact .unlock hpc hh rfl

/-- **Write mutexes.** -/
theorem stepThread_locks (hst : stepThread cfg now i w pc env = some out) :
    LockEffect i w pc out.1 out.2.1 := by
  have hwrite : ∀ (call : WriteCall) id status, (call.afterWrite id status).1.held = none :=
    fun _ _ _ => Pc.held_of_refs_nil (refs_afterWrite ..)
  have hfinal : ∀ (caller : Caller) id session result flag,
      (caller.afterFinalize id session result flag).1.held = none :=
    fun _ _ _ _ _ => Pc.held_of_refs_nil (refs_afterFinalize ..)
  cases pc with
  | initFile caller a =>
    obtain rfl := Option.some.inj hst
    have hspec := initFile_spec cfg w now a env.init
    have hheld : ∀ ok q, (caller.afterInit a ok).1.held = some q →
        (Pc.initFile caller a).held = some q := by
      intro ok q hq
      rw [Pc.held_of_refs_nil (refs_afterInit ..)] at hq
      cases hq
    simp only
    generalize w.initFile cfg now a env.init = res at hspec
    cases hspec with
    | create => exact .keep (createSession_mutexOwner ..) (hheld _)
    | _ => exact .keep rfl (hheld _)
  | writeLookup call id =>
    simp only [stepThread] at hst
    split at hst
    · cases hst
      exact .keep rfl (by rintro q ⟨⟩)
    · split at hst <;> cases hst
      · exact .keep rfl (by rintro q ⟨⟩)
      · exact .keep rfl (by simp [hwrite])
  | writeLock call r =>
    obtain ⟨hr, rfl⟩ := stepThread_lock rfl hst
    exact .lock hr rfl
  | writeCheck call r =>
    simp only [stepThread] at hst
    split at hst
    · split at hst <;> cases hst
      · exact .unlock rfl (hwrite ..) rfl
      · exact .keep rfl fun _ h => h
    · split at hst <;> cases hst
      · exact .keep rfl fun _ h => h
      · exact .unlock rfl (hwrite ..) rfl
  | writeCopy call r target offset =>
    simp only [stepThread] at hst
    split at hst <;> cases hst
    · exact .unlock rfl rfl rfl
    · exact .keep (updateHash_mutexOwner ..) fun _ h => h
  | writeCommit call r target offset hashUpdated =>
    simp only [stepThread] at hst
    split at hst <;> cases hst <;> exact .unlock rfl (hwrite ..) rfl
  | writeWait call held q =>
    simp only [stepThread] at hst
    split at hst
    · cases hst
      exact .unlock? rfl (hwrite ..)
    · split at hst
      · cases hst
        exact .unlock? rfl (hwrite ..)
      · split at hst <;> cases hst
        exact .unlock? rfl (hwrite ..)
  | finalizeLookup caller id =>
    simp only [stepThread] at hst
    split at hst
    · cases hst
      exact .keep rfl (by rintro q ⟨⟩)
    · split at hst <;> cases hst
      · exact .keep rfl (by rintro q ⟨⟩)
      · exact .keep rfl (by simp [hfinal])
  | finalizeLock caller r =>
    obtain ⟨hr, rfl⟩ := stepThread_lock rfl hst
    exact .lock hr rfl
  | finalizeTake caller r =>
    simp only [stepThread] at hst
    split at hst
    · split at hst <;> cases hst <;> exact .unlock rfl rfl rfl
    · split at hst <;> cases hst
      · exact .unlock rfl rfl rfl
      · exact .unlock rfl (hfinal ..) rfl
  | finalizeWait caller q =>
    simp only [stepThread] at hst
    split at hst
    · cases hst
      exact .keep rfl (by simp [hfinal])
    · split at hst
      · cases hst
        exact .keep rfl (by simp [hfinal])
      · split at hst <;> cases hst
        exact .keep rfl (by simp [hfinal])
  | finalizeRemember caller q result =>
    cases hst
    exact .keep rfl (by simp [hfinal])
  | abortCollect caller m after =>
    cases hst
    exact .keep rfl (by simp [held_nextAbort])
  | abortLock caller r rest count after =>
    obtain ⟨hr, rfl⟩ := stepThread_lock rfl hst
    exact .lock hr rfl
  | retire cont r =>
    simp only [stepThread] at hst
    split at hst <;> cases hst
    · exact .keep rfl fun _ h => h
    · exact .resume rfl rfl
  | remember cont r =>
    cases hst
    exact .resume rfl rfl
  | expireCollect =>
    cases hst
    exact .keep rfl (by simp [held_nextExpire])
  | _ =>
    simp only [stepThread] at hst
    repeat' split at hst
    all_goals cases hst
    all_goals exact .keep rfl fun _ h => h

/-- A write mutex has the holder the state says. -/
def Locked (s : System) : Prop := ∀ i r,
    (s.threads i).held = some r → s.writer.mutexOwner r = some i

/-- **Mutual exclusion**, one step. -/
theorem Locked.step {s s' : System} {l : Label} (h : Locked s)
    (hst : LocalMediaTransfer.step cfg s l = some s') : Locked s' := by
  cases step_spec hst with
  | call tid c hidle =>
    refine forall_update (P := fun j pc => ∀ r, pc.held = some r →
      s.writer.mutexOwner r = some j) ?_ fun j _ => h j
    intro r hr
    rw [Pc.held_of_refs_nil (refs_start ..)] at hr
    cases hr
  | run tid env out hmove =>
    have heff := stepThread_locks hmove
    refine forall_update (P := fun j pc => ∀ r, pc.held = some r →
      out.1.mutexOwner r = some j) ?_ ?_
    · intro r hr
      rcases heff.held r hr with ho | ⟨hh, ho⟩
      · exact ho
      · rw [ho]
        exact h tid r hh
    · intro j hj r hr
      have hown := h j r hr
      rcases heff.others r with ho | hh | hn
      · rw [ho]
        exact hown
      · cases hown.symm.trans (h tid r hh)
        exact absurd rfl hj
      · cases hown.symm.trans hn
  | tick => exact h

theorem locked_of_run {ok : System → Label → Prop} {files : Table ByteString DirEntry} {s : System}
    (hrun : Run (LocalMediaTransfer.step cfg) ok (.init files) s) : Locked s :=
  hrun.invariant (by rintro i r ⟨⟩) fun _ _ _ h _ hst => h.step hst

theorem Locked.unique {s : System} (h : Locked s) {j k : Nat} {r : Ref}
    (hj : (s.threads j).held = some r) (hk : (s.threads k).held = some r) : j = k :=
  Option.some.inj ((h j r hj).symm.trans (h k r hk))

/-! ## Starting calls -/

theorem start_events {now : Nat} {c : Call} {e : Event} (he : e ∈ (c.start now).2) :
    (∃ response, e = .rejected response) ∨ ∃ value, e = .returned value := by
  unfold Call.start at he
  split at he
  · split at he
    · exact .inl ⟨_, List.mem_singleton.mp he⟩
    · cases he
  all_goals try cases he
  · split at he
    · exact .inr ⟨_, List.mem_singleton.mp he⟩
    · cases he

/-- A call starts: the thread plays no role yet. -/
theorem update_start {P : Pc → Prop} {T : Nat → Pc} {tid now : Nat} {c : Call} {j : Nat} {pc : Pc}
    (hdet : ∀ {q : Pc}, q.Detached → q.refs = [] → P q → False)
    (hj : Function.update T tid (c.start now).1 j = pc) (hpc : P pc) : T j = pc := by
  by_cases h : j = tid
  · subst h
    rw [Function.update_self] at hj
    subst hj
    exact (hdet (detached_start now c) (refs_start now c) hpc).elim
  · rw [Function.update_of_ne h] at hj
    exact hj

/-! ## Returned finalization results -/

def AfterAbort.rejecting : AfterAbort → Option Ref
  | .incomplete r => some r
  | _ => none

def Cont.rejecting : Cont → Option Ref
  | .abortNext _ _ _ _ after => after.rejecting
  | _ => none

/-- The incomplete session that a `finalizeFileResult` call is aborting. -/
def Pc.rejecting : Pc → Option Ref
  | .abortCollect _ _ after | .abortLock _ _ _ _ after | .abortClose _ _ _ _ after =>
      after.rejecting
  | .retire cont _ | .remember cont _ => cont.rejecting
  | _ => none

/-- The step in which `finalizeFileResult` returns for file `id`: what it says about which
session, and whether it says that it finalized it. -/
inductive FinalizedBy (w : Writer) (pc : Pc) (id : ByteString) :
    Option Ref → FileFinalizeResult → Bool → Prop where
  | unknown (unknown : w.sessions.lookup id = none) : FinalizedBy w pc id none {} false
  | waitFailed (caller : Caller) (s : Ref) (at_ : pc = .finalizeWait caller s)
      (file : id = s.fileId) (failed : (w.states s).failed = true) :
      FinalizedBy w pc id (some s) {} false
  | waitCompleted (caller : Caller) (s : Ref) (at_ : pc = .finalizeWait caller s)
      (file : id = s.fileId) (completed : (w.states s).completed = true) :
      FinalizedBy w pc id (some s) (w.states s).result false
  | waitTimeout (caller : Caller) (s : Ref) (at_ : pc = .finalizeWait caller s)
      (file : id = s.fileId) :
      FinalizedBy w pc id (some s) { disposition := .finalizing } false
  | rejected (r : Ref) (at_ : pc.rejecting = some r) (file : id = r.fileId) :
      FinalizedBy w pc id (some r) {} false
  | failed (caller : Caller) (r : Ref) (at_ : pc = .retire (.finalizeFailed caller none) r ∨
        pc = .remember (.finalizeFailed caller none) r) (file : id = r.fileId) :
      FinalizedBy w pc id (some r) {} false
  | done (caller : Caller) (r : Ref) (result : FileFinalizeResult)
      (at_ : pc = .finalizeRemember caller r result) (file : id = r.fileId) :
      FinalizedBy w pc id (some r) result true

section Finalized

variable {id : ByteString} {session : Option Ref} {result : FileFinalizeResult} {flag : Bool}

theorem finalized_afterFinalize {caller : Caller} {id' : ByteString} {session' : Option Ref}
    {result' : FileFinalizeResult} {flag' : Bool}
    (h : Event.finalized id session result flag ∈
      (caller.afterFinalize id' session' result' flag').2) :
    id = id' ∧ session = session' ∧ result = result' ∧ flag = flag' := by
  unfold Caller.afterFinalize at h
  split at h <;> simpa using h

theorem finalized_afterWrite {call : WriteCall} {id' : ByteString} {status : ChunkWriteStatus} :
    Event.finalized id session result flag ∉ (call.afterWrite id' status).2 := by
  unfold WriteCall.afterWrite
  split
  · simp
  · cases status <;> simp only <;> try split
    all_goals simp

theorem finalized_nextAbort {caller : Caller} {refs : List Ref} {count : Nat} {after : AfterAbort}
    (h : Event.finalized id session result flag ∈ (nextAbort caller refs count after).2) :
    ∃ r, after.rejecting = some r ∧ id = r.fileId ∧ session = some r ∧ result = {} ∧
      flag = false := by
  cases refs with
  | cons r rest => cases h
  | nil =>
    simp only [nextAbort, AfterAbort.resume] at h
    split at h
    · simp at h
    · exact absurd h finalized_afterWrite
    · obtain ⟨rfl, rfl, rfl, rfl⟩ := finalized_afterFinalize h
      exact ⟨_, rfl, rfl, rfl, rfl, rfl⟩
    · split at h <;> simp at h
    · cases h

theorem finalized_nextExpire {refs : List Ref} :
    Event.finalized id session result flag ∉ (nextExpire refs).2 := by
  cases refs <;> simp [nextExpire]

theorem finalized_resume {cont : Cont} {r : Ref} {v : Writer} {healthy : Bool}
    (h : Event.finalized id session result flag ∈ (cont.resume r v healthy).2.2) :
    (∃ caller, cont = .finalizeFailed caller none ∧ id = r.fileId ∧ session = some r ∧
        result = {} ∧ flag = false) ∨
      ∃ q, cont.rejecting = some q ∧ id = q.fileId ∧ session = some q ∧ result = {} ∧
        flag = false := by
  unfold Cont.resume at h
  split at h
  · obtain ⟨rfl, rfl, rfl, rfl⟩ := finalized_afterFinalize h
    exact .inl ⟨_, rfl, rfl, rfl, rfl, rfl⟩
  · unfold Caller.afterThrow at h
    split at h <;> simp at h
  · exact .inr (finalized_nextAbort h)
  · exact absurd h finalized_nextExpire

/-- **Returned finalization results.** -/
theorem stepThread_finalized (hst : stepThread cfg now i w pc env = some out)
    (h : Event.finalized id session result flag ∈ out.2.2) :
    FinalizedBy w pc id session result flag := by
  cases pc with
  | initFile caller a =>
    obtain rfl := Option.some.inj hst
    simp only [Caller.afterInit] at h
    split at h
    · simp at h
    · split at h <;> simp at h
  | writeLookup call id' =>
    simp only [stepThread] at hst
    split at hst
    · cases hst
      cases h
    · split at hst <;> cases hst
      · cases h
      · exact absurd h finalized_afterWrite
  | writeCheck call r =>
    simp only [stepThread] at hst
    split at hst
    · split at hst <;> cases hst
      · exact absurd h finalized_afterWrite
      · cases h
    · split at hst <;> cases hst
      · cases h
      · exact absurd h finalized_afterWrite
  | writeCommit call r target offset hashUpdated =>
    simp only [stepThread] at hst
    split at hst <;> cases hst
    · rcases List.mem_cons.mp h with h | h
      · cases h
      · exact absurd h finalized_afterWrite
    · exact absurd h finalized_afterWrite
  | writeWait call held q =>
    simp only [stepThread] at hst
    split at hst
    · cases hst
      exact absurd h finalized_afterWrite
    · split at hst
      · cases hst
        exact absurd h finalized_afterWrite
      · split at hst <;> cases hst
        exact absurd h finalized_afterWrite
  | finalizeLookup caller id' =>
    simp only [stepThread] at hst
    split at hst
    · cases hst
      cases h
    · split at hst <;> cases hst
      · cases h
      · rename_i hn
        obtain ⟨rfl, rfl, rfl, rfl⟩ := finalized_afterFinalize h
        exact .unknown hn
  | finalizeTake caller r =>
    simp only [stepThread] at hst
    split at hst
    · split at hst <;> cases hst <;> cases h
    · split at hst <;> cases hst
      · cases h
      · rename_i hn
        obtain ⟨rfl, rfl, rfl, rfl⟩ := finalized_afterFinalize h
        exact .unknown hn
  | finalizeWait caller s =>
    simp only [stepThread] at hst
    split at hst
    · rename_i hf
      cases hst
      obtain ⟨rfl, rfl, rfl, rfl⟩ := finalized_afterFinalize h
      exact .waitFailed caller s rfl rfl hf
    · split at hst
      · rename_i hc
        cases hst
        obtain ⟨rfl, rfl, rfl, rfl⟩ := finalized_afterFinalize h
        exact .waitCompleted caller s rfl rfl hc
      · split at hst <;> cases hst
        obtain ⟨rfl, rfl, rfl, rfl⟩ := finalized_afterFinalize h
        exact .waitTimeout caller s rfl rfl
  | finalizePublish caller s h' fullHash =>
    simp only [stepThread] at hst
    split at hst <;> cases hst
    · split at h <;> simp at h
    · cases h
    · cases h
  | finalizeRemember caller s res =>
    cases hst
    obtain ⟨rfl, rfl, rfl, rfl⟩ := finalized_afterFinalize h
    exact .done caller s _ rfl rfl
  | abortCollect caller m after =>
    cases hst
    obtain ⟨r, hr, rfl, rfl, rfl, rfl⟩ := finalized_nextAbort h
    exact .rejected r hr rfl
  | retire cont r =>
    simp only [stepThread] at hst
    split at hst <;> cases hst
    · cases h
    · rcases finalized_resume h with ⟨caller, rfl, rfl, rfl, rfl, rfl⟩ | ⟨q, hq, rfl, rfl, rfl, rfl⟩
      · exact .failed caller r (.inl rfl) rfl
      · exact .rejected q hq rfl
  | remember cont r =>
    cases hst
    rcases finalized_resume h with ⟨caller, rfl, rfl, rfl, rfl, rfl⟩ | ⟨q, hq, rfl, rfl, rfl, rfl⟩
    · exact .failed caller r (.inr rfl) rfl
    · exact .rejected q hq rfl
  | expireCollect =>
    cases hst
    exact absurd h finalized_nextExpire
  | _ =>
    simp only [stepThread] at hst
    repeat' split at hst
    all_goals cases hst
    all_goals cases h

end Finalized

/-! ## Aborting an incomplete session -/

theorem AfterAbort.rejecting_mem_refs {after : AfterAbort} {r : Ref}
    (h : after.rejecting = some r) : r ∈ after.refs := by
  cases after with
  | incomplete q => exact List.mem_singleton.mpr (Option.some.inj h).symm
  | _ => cases h

theorem Cont.rejecting_mem_refs {cont : Cont} {r : Ref} (h : cont.rejecting = some r) :
    r ∈ cont.refs := by
  cases cont with
  | abortNext caller held rest count after =>
    exact List.mem_cons_of_mem _ (List.mem_append_right _ (AfterAbort.rejecting_mem_refs h))
  | _ => cases h

theorem Pc.rejecting_mem_refs {r : Ref} (h : pc.rejecting = some r) : r ∈ pc.refs := by
  cases pc with
  | abortCollect caller m after => exact AfterAbort.rejecting_mem_refs h
  | abortLock caller q rest count after =>
    exact List.mem_cons_of_mem _ (List.mem_append_right _ (AfterAbort.rejecting_mem_refs h))
  | abortClose caller q rest count after =>
    exact List.mem_cons_of_mem _ (List.mem_append_right _ (AfterAbort.rejecting_mem_refs h))
  | retire cont q => exact List.mem_cons_of_mem _ (Cont.rejecting_mem_refs h)
  | remember cont q => exact List.mem_cons_of_mem _ (Cont.rejecting_mem_refs h)
  | _ => cases h

theorem Pc.rejecting_of_refs_nil (h : pc.refs = []) : pc.rejecting = none := by
  by_contra hne
  obtain ⟨r, hr⟩ := Option.ne_none_iff_exists'.mp hne
  have hm := Pc.rejecting_mem_refs hr
  rw [h] at hm
  cases hm

/-- A `finalizeFileResult` call starts to abort an incomplete session, or goes on; the search for
the handle is its first step. -/
theorem stepThread_rejecting (hst : stepThread cfg now i w pc env = some out) {r : Ref}
    (hr : out.2.1.rejecting = some r) :
    (∃ caller h, pc = .finalizeTake caller r ∧ w.handles.lookup r.fileId = some h ∧
      h.isComplete = false ∧ out.2.1 = .abortCollect caller (.byId r.fileId) (.incomplete r) ∧
      out.1.handles = w.handles) ∨
    pc.rejecting = some r := by
  have hwrite : ∀ (call : WriteCall) id status, (call.afterWrite id status).1.rejecting = none :=
    fun _ _ _ => Pc.rejecting_of_refs_nil (refs_afterWrite ..)
  have hfinal : ∀ (caller : Caller) id session result flag,
      (caller.afterFinalize id session result flag).1.rejecting = none :=
    fun _ _ _ _ _ => Pc.rejecting_of_refs_nil (refs_afterFinalize ..)
  have habort : ∀ {caller refs count after},
      (nextAbort caller refs count after).1.rejecting = some r → after.rejecting = some r := by
    intro caller refs count after h
    cases refs with
    | nil => cases (Pc.rejecting_of_refs_nil (refs_afterAbort after caller count)).symm.trans h
    | cons => exact h
  have hresume : ∀ {cont : Cont} {q v healthy},
      (cont.resume q v healthy).2.1.rejecting = some r → cont.rejecting = some r := by
    intro cont q v healthy h
    unfold Cont.resume at h
    split at h
    · cases (hfinal ..).symm.trans h
    · cases (Pc.rejecting_of_refs_nil (refs_afterThrow ..)).symm.trans h
    · exact habort h
    · rename_i pending
      cases pending <;> cases h
  cases pc with
  | initFile caller a =>
    obtain rfl := Option.some.inj hst
    cases (Pc.rejecting_of_refs_nil (refs_afterInit ..)).symm.trans hr
  | finalizeTake caller q =>
    simp only [stepThread] at hst
    split at hst
    · rename_i h hl
      split at hst <;> cases hst
      · cases hr
      · rename_i hcomplete
        cases hr
        exact .inl ⟨caller, h, rfl, hl, by simpa using hcomplete, rfl, rfl⟩
    · split at hst <;> cases hst
      · cases hr
      · cases (hfinal ..).symm.trans hr
  | finalizeRemember caller q result =>
    cases hst
    cases (hfinal ..).symm.trans hr
  | abortCollect caller m after =>
    cases hst
    exact .inr (habort hr)
  | abortLock caller q rest count after =>
    obtain ⟨-, rfl⟩ := stepThread_lock rfl hst
    exact .inr hr
  | abortClose caller q rest count after =>
    cases hst
    exact .inr hr
  | retire cont q =>
    simp only [stepThread] at hst
    split at hst <;> cases hst
    · exact .inr hr
    · exact .inr (hresume hr)
  | remember cont q =>
    cases hst
    exact .inr (hresume hr)
  | expireCollect =>
    cases hst
    generalize w.pendingCleanup = refs at hr
    cases refs <;> cases hr
  | _ =>
    simp only [stepThread] at hst
    repeat' split at hst
    all_goals cases hst
    all_goals first
      | cases hr
      | cases (hwrite ..).symm.trans hr
      | cases (hfinal ..).symm.trans hr

/-! ## Exceptions -/

section Threw

variable {r : Ref} {what : String}

theorem threw_afterWrite (call : WriteCall) (id : ByteString) (status : ChunkWriteStatus) :
    Event.threw r what ∉ (call.afterWrite id status).2 := by
  unfold WriteCall.afterWrite
  split
  · simp
  · cases status <;> simp only <;> try split
    all_goals simp

theorem threw_afterFinalize (caller : Caller) (id : ByteString) (session : Option Ref)
    (result : FileFinalizeResult) (flag : Bool) :
    Event.threw r what ∉ (caller.afterFinalize id session result flag).2 := by
  unfold Caller.afterFinalize
  split <;> simp

theorem threw_nextAbort (caller : Caller) (refs : List Ref) (count : Nat) (after : AfterAbort) :
    Event.threw r what ∉ (nextAbort caller refs count after).2 := by
  cases refs with
  | cons q rest => simp [nextAbort]
  | nil =>
    simp only [nextAbort, AfterAbort.resume]
    split
    · simp
    · exact threw_afterWrite _ _ _
    · exact threw_afterFinalize _ _ _ _ _
    · split <;> simp
    · simp

theorem threw_nextExpire (refs : List Ref) : Event.threw r what ∉ (nextExpire refs).2 := by
  cases refs <;> simp [nextExpire]

theorem threw_resume {cont : Cont} {q : Ref} {v : Writer} {healthy : Bool}
    (h : Event.threw r what ∈ (cont.resume q v healthy).2.2) :
    ∃ caller, cont = .finalizeFailed caller (some what) ∧ q = r := by
  unfold Cont.resume at h
  split at h
  · exact absurd h (threw_afterFinalize _ _ _ _ _)
  · rename_i caller what'
    unfold Caller.afterThrow at h
    split at h
    · cases List.mem_singleton.mp h
      exact ⟨_, rfl, rfl⟩
    · rcases List.mem_cons.mp h with h | h
      · cases h
        exact ⟨_, rfl, rfl⟩
      · cases List.mem_singleton.mp h
  · exact absurd h (threw_nextAbort _ _ _ _)
  · exact absurd h (threw_nextExpire _)

/-- **Exceptions** leave `finalizeFileResult` after `retireTemporary`. -/
theorem stepThread_threw (hst : stepThread cfg now i w pc env = some out)
    (h : Event.threw r what ∈ out.2.2) :
    ∃ caller, pc = .retire (.finalizeFailed caller (some what)) r ∨
      pc = .remember (.finalizeFailed caller (some what)) r := by
  cases pc with
  | initFile caller a =>
    obtain rfl := Option.some.inj hst
    simp only [Caller.afterInit] at h
    split at h
    · simp at h
    · split at h <;> simp at h
  | writeCommit call q target offset hashUpdated =>
    simp only [stepThread] at hst
    split at hst <;> cases hst
    · rcases List.mem_cons.mp h with h | h
      · cases h
      · exact absurd h (threw_afterWrite _ _ _)
    · exact absurd h (threw_afterWrite _ _ _)
  | finalizePublish caller q g fullHash =>
    simp only [stepThread] at hst
    split at hst <;> cases hst
    · split at h <;> simp at h
    · cases h
    · cases h
  | finalizeRemember caller q result =>
    cases hst
    exact absurd h (threw_afterFinalize _ _ _ _ _)
  | abortCollect caller m after =>
    cases hst
    exact absurd h (threw_nextAbort _ _ _ _)
  | retire cont q =>
    simp only [stepThread] at hst
    split at hst <;> cases hst
    · cases h
    · obtain ⟨caller, rfl, rfl⟩ := threw_resume h
      exact ⟨caller, .inl rfl⟩
  | remember cont q =>
    cases hst
    obtain ⟨caller, rfl, rfl⟩ := threw_resume h
    exact ⟨caller, .inr rfl⟩
  | expireCollect =>
    cases hst
    exact absurd h (threw_nextExpire _)
  | _ =>
    simp only [stepThread] at hst
    repeat' split at hst
    all_goals cases hst
    all_goals first
      | cases h
      | exact absurd h (threw_afterWrite _ _ _)
      | exact absurd h (threw_afterFinalize _ _ _ _ _)

end Threw

end LocalMediaTransfer
