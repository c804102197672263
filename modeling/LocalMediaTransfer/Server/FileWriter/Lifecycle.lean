import LocalMediaTransfer.Server.FileWriter.System

/-!
# The life of a session

An abstract model of what one file ID goes through, and the proof that the writer refines it.
At any time the sessions of an ID `X` are in one `Phase`:

    absent ──▶ active ──▶ finalizing ──▶ settled ──▶ absent
                  └─────▶ condemned ◀───────┘
                              └──────▶ settled

`Describes X p w` says what the shared state looks like in phase `p`, and `Compat X p w i pc` what
thread `i` may be doing; a phase names the one thread that finalizes or records the session, so
that two threads can never be in these places at once.

* `Lifecycle.step` — every step keeps the description, when no session is created for `X` while a
  call still carries a reference to an earlier one (`FreshInit`).
* `Traced.step`, `freshInit_of_not_evicted` — such references only survive an eviction of `X`, so
  the condition holds as long as `X` has not been evicted.
-/

set_option autoImplicit false

namespace LocalMediaTransfer

open Lib

/-! ## What a thread carries -/

def AfterAbort.refs : AfterAbort → List Ref
  | .incomplete r => [r]
  | _ => []

def Cont.refs : Cont → List Ref
  | .abortNext _ held rest _ after => held :: (rest ++ after.refs)
  | .expireNext pending => pending
  | _ => []

/-- Every session a thread carries a reference to. -/
def Pc.refs : Pc → List Ref
  | .writeLock _ r | .writeCheck _ r | .writeCopy _ r _ _ | .writeCommit _ r _ _ _ => [r]
  | .writeWait _ held s => s :: held.toList
  | .finalizeLock _ r | .finalizeTake _ r | .finalizeWait _ r => [r]
  | .finalizeHash _ s _ | .finalizePublish _ s _ _ | .finalizeComplete _ s _
  | .finalizeRemember _ s _ | .finalizeFail _ s _ => [s]
  | .abortCollect _ _ after => after.refs
  | .abortLock _ r rest _ after | .abortClose _ r rest _ after => r :: (rest ++ after.refs)
  | .retire cont r | .remember cont r => r :: cont.refs
  | _ => []

/-- The session a thread has taken out of the table in order to finalize it. -/
def Pc.finalizer : Pc → Option Ref
  | .finalizeHash _ s _ | .finalizePublish _ s _ _ | .finalizeComplete _ s _
  | .finalizeFail _ s _ => some s
  | _ => none

/-- The session whose temporary file the finalizing thread has published or removed. -/
def Pc.emptied : Pc → Option Ref
  | .finalizeComplete _ s _ => some s
  | _ => none

theorem Pc.finalizer_of_emptied {pc : Pc} {s : Ref} (h : pc.emptied = some s) :
    pc.finalizer = some s := by
  cases pc <;> first | exact h | cases h

/-- The released session a thread is about to record in the completed-session cache. -/
def Pc.recorder : Pc → Option Ref
  | .finalizeRemember _ r _ | .remember _ r => some r
  | _ => none

/-- The session whose write mutex a thread has or wants, to write or to finalize. -/
def Pc.bound : Pc → Option Ref
  | .writeLock _ r | .writeCheck _ r | .writeCopy _ r _ _ | .writeCommit _ r _ _ _ => some r
  | .finalizeLock _ r | .finalizeTake _ r => some r
  | _ => none

/-- The session a thread works for and the serial of the handle it works on. -/
def Pc.target : Pc → Option (Ref × Nat)
  | .writeCopy _ r target _ | .writeCommit _ r target _ _ => some (r, target)
  | .finalizeHash _ s h | .finalizePublish _ s h _ => some (s, h.serial)
  | _ => none

def Cont.doomed : Cont → List Ref
  | .abortNext _ _ rest _ _ => rest
  | .expireNext pending => pending
  | _ => []

/-- The failed sessions a thread is going to retire. -/
def Pc.doomed : Pc → List Ref
  | .abortLock _ r rest _ _ | .abortClose _ r rest _ _ => r :: rest
  | .retire cont r => r :: cont.doomed
  | .remember cont _ => cont.doomed
  | _ => []

/-- A program counter that plays none of these roles. -/
structure Pc.Detached (pc : Pc) : Prop where
  finalizer : pc.finalizer = none
  recorder : pc.recorder = none
  bound : pc.bound = none
  target : pc.target = none
  doomed : pc.doomed = []

theorem detached_idle : Pc.idle.Detached := ⟨rfl, rfl, rfl, rfl, rfl⟩

theorem detached_afterInit (caller : Caller) (a : InitArgs) (ok : Bool) :
    (caller.afterInit a ok).1.Detached := by
  unfold Caller.afterInit
  split
  · exact detached_idle
  · split <;> exact ⟨rfl, rfl, rfl, rfl, rfl⟩

theorem detached_afterWrite (call : WriteCall) (id : ByteString) (status : ChunkWriteStatus) :
    (call.afterWrite id status).1.Detached := by
  unfold WriteCall.afterWrite
  split
  · exact detached_idle
  · cases status <;> simp only <;> try split
    all_goals exact ⟨rfl, rfl, rfl, rfl, rfl⟩

theorem detached_afterFinalize (caller : Caller) (id : ByteString) (session : Option Ref)
    (result : FileFinalizeResult) (now : Bool) :
    (caller.afterFinalize id session result now).1.Detached := by
  unfold Caller.afterFinalize
  split <;> exact detached_idle

theorem detached_afterThrow (caller : Caller) (s : Ref) (what : String) (healthy : Bool) :
    (caller.afterThrow s what healthy).1.Detached := by
  unfold Caller.afterThrow
  split <;> exact detached_idle

theorem detached_resume (after : AfterAbort) (caller : Caller) (count : Nat) :
    (after.resume caller count).1.Detached := by
  unfold AfterAbort.resume
  split
  · exact detached_idle
  · exact detached_afterWrite ..
  · exact detached_afterFinalize ..
  · split <;> exact detached_idle
  · exact ⟨rfl, rfl, rfl, rfl, rfl⟩

theorem detached_start (now : Nat) (c : Call) : (c.start now).1.Detached := by
  unfold Call.start
  split
  · split
    · exact detached_idle
    · unfold ChunkRequest.start
      split <;> exact ⟨rfl, rfl, rfl, rfl, rfl⟩
  all_goals try exact ⟨rfl, rfl, rfl, rfl, rfl⟩
  · split <;> exact ⟨rfl, rfl, rfl, rfl, rfl⟩

/-! ## Phases -/

/-- The life of the sessions of one file ID; `n` is the serial number of the current one. -/
inductive Phase where
  | absent
  | active (n : Nat)
  /-- Thread `by_` has taken the handle. -/
  | finalizing (n by_ : Nat)
  /-- Failed, and the temporary file is still charged. -/
  | condemned (n : Nat)
  /-- Completed or failed, and nothing is charged; thread `recorder` is going to record the
  session, or it is recorded in the completed-session cache. -/
  | settled (n : Nat) (recorder : Option Nat)

def Phase.serial : Phase → Option Nat
  | .absent => none
  | .active n | .finalizing n _ | .condemned n | .settled n _ => some n

/-- The session that has an active handle. -/
def Phase.handle : Phase → Option Nat
  | .active n => some n
  | _ => none

/-- The session whose size is reserved. -/
def Phase.charged : Phase → Option Nat
  | .active n | .finalizing n _ | .condemned n => some n
  | _ => none

/-- The current session, if any, accepts no more work. -/
def Phase.Closed : Phase → Prop
  | .active _ | .finalizing _ _ => False
  | _ => True

/-- How often the ID stands in the completed-session cache. -/
def Phase.recorded : Phase → Nat
  | .settled _ none => 1
  | _ => 0

abbrev Metadata := ByteString × Nat × Nat × Bool

def FileHandle.metadata (h : FileHandle) : Metadata :=
  (h.originalName, h.totalSize, h.chunksExpected, h.skipExactDuplicates)

def FinalizationState.metadata (st : FinalizationState) : Metadata :=
  (st.originalName, st.totalSize, st.totalChunks, st.skipExactDuplicates)

/-- The shared state in phase `p` of file ID `X`. -/
structure Phase.Describes (X : ByteString) (p : Phase) (w : Writer) : Prop where
  session : w.sessions.lookup X = p.serial
  handle : (w.handles.lookup X).map (·.serial) = p.handle
  metadata : ∀ h, w.handles.lookup X = some h → h.metadata = (w.states ⟨X, h.serial⟩).metadata
  reserved : ∀ n, (w.states ⟨X, n⟩).reserved = true ↔ p.charged = some n
  finalizing : ∀ n, (w.states ⟨X, n⟩).finalizing = true ↔ ∃ i, p = .finalizing n i
  open_ : ∀ n, (p = .active n ∨ ∃ i, p = .finalizing n i) →
    (w.states ⟨X, n⟩).failed = false ∧ (w.states ⟨X, n⟩).completed = false
  condemned : ∀ n, p = .condemned n → (w.states ⟨X, n⟩).failed = true
  settled : ∀ n k, p = .settled n k →
    (w.states ⟨X, n⟩).completed = true ∨ (w.states ⟨X, n⟩).failed = true
  exclusive : ∀ n, ¬((w.states ⟨X, n⟩).completed = true ∧ (w.states ⟨X, n⟩).failed = true)
  order : w.completedSessionOrder.count X = p.recorded
  temp : ∀ n, (w.temps ⟨X, n⟩).isSome → p.charged = some n

/-- What thread `i` may be doing with the sessions of `X` in phase `p`. -/
structure Compat (X : ByteString) (p : Phase) (w : Writer) (i : Nat) (pc : Pc) : Prop where
  finalizer : ∀ s, pc.finalizer = some s → s.fileId = X → p = .finalizing s.serial i
  recorder : ∀ r, pc.recorder = some r → r.fileId = X → p = .settled r.serial (some i)
  bound : ∀ r, pc.bound = some r → r.fileId = X → ∀ n, p = .active n → n = r.serial
  target : ∀ r n, pc.target = some (r, n) → r.fileId = X → n = r.serial
  doomed : ∀ r ∈ pc.doomed, r.fileId = X → (w.states r).failed = true ∧ p.Closed
  emptied : ∀ s, pc.emptied = some s → s.fileId = X → w.temps s = none

theorem Compat.of_detached {X : ByteString} {p : Phase} {w : Writer} {i : Nat} {pc : Pc}
    (h : pc.Detached) : Compat X p w i pc where
  finalizer := by simp [h.finalizer]
  recorder := by simp [h.recorder]
  bound := by simp [h.bound]
  target := by simp [h.target]
  doomed := by simp [h.doomed]
  emptied := by
    intro s hs
    cases (Pc.finalizer_of_emptied hs).symm.trans h.finalizer

/-- **The lifecycle invariant** of file ID `X`. -/
def Lifecycle (X : ByteString) (s : System) : Prop :=
  ∃ p : Phase, p.Describes X s.writer ∧ ∀ i, Compat X p s.writer i (s.threads i)

/-- No session is created for `X` while a call carries a reference to an earlier one. -/
def FreshInit (X : ByteString) (s : System) (l : Label) : Prop :=
  ∀ i env caller a, l = .run i env → s.threads i = .initFile caller a → a.fileId = X →
    s.writer.sessions.lookup X = none → ∀ j, ∀ r ∈ (s.threads j).refs, r.fileId ≠ X

/-! ## Steps that do not change the phase -/

/-- The sessions of `X` look the same, up to counters, file contents and activity times. -/
structure SameAt (X : ByteString) (w w' : Writer) : Prop where
  session : w'.sessions.lookup X = w.sessions.lookup X
  handle : (w'.handles.lookup X).map (fun h => (h.serial, h.metadata)) =
    (w.handles.lookup X).map fun h => (h.serial, h.metadata)
  state : ∀ n, ∃ t, w'.states ⟨X, n⟩ = { w.states ⟨X, n⟩ with lastActivity := t }
  temp : ∀ n, (w'.temps ⟨X, n⟩).isSome → (w.temps ⟨X, n⟩).isSome
  order : w'.completedSessionOrder.count X = w.completedSessionOrder.count X

variable {X : ByteString} {p p' : Phase} {w w' : Writer} {i : Nat} {pc : Pc} {T : Nat → Pc}

theorem SameAt.flags (h : SameAt X w w') (n : Nat) :
    (w'.states ⟨X, n⟩).reserved = (w.states ⟨X, n⟩).reserved ∧
    (w'.states ⟨X, n⟩).finalizing = (w.states ⟨X, n⟩).finalizing ∧
    (w'.states ⟨X, n⟩).failed = (w.states ⟨X, n⟩).failed ∧
    (w'.states ⟨X, n⟩).completed = (w.states ⟨X, n⟩).completed ∧
    (w'.states ⟨X, n⟩).metadata = (w.states ⟨X, n⟩).metadata := by
  obtain ⟨t, ht⟩ := h.state n
  rw [ht]
  exact ⟨rfl, rfl, rfl, rfl, rfl⟩

theorem Phase.Describes.congr (hd : p.Describes X w) (h : SameAt X w w') : p.Describes X w' where
  session := h.session.trans hd.session
  handle := by
    have hs := congrArg (Option.map Prod.fst) h.handle
    simp only [Option.map_map] at hs
    exact hs.trans hd.handle
  metadata := by
    intro g' hg'
    have hs := h.handle
    rw [hg', Option.map_some] at hs
    obtain ⟨g, hg, he⟩ := Option.map_eq_some_iff.mp hs.symm
    simp only [Prod.mk.injEq] at he
    rw [(h.flags _).2.2.2.2, ← he.1, ← he.2]
    exact hd.metadata g hg
  reserved := by intro n; rw [(h.flags n).1]; exact hd.reserved n
  finalizing := by intro n; rw [(h.flags n).2.1]; exact hd.finalizing n
  open_ := by intro n; rw [(h.flags n).2.2.1, (h.flags n).2.2.2.1]; exact hd.open_ n
  condemned := by intro n; rw [(h.flags n).2.2.1]; exact hd.condemned n
  settled := by intro n k; rw [(h.flags n).2.2.1, (h.flags n).2.2.2.1]; exact hd.settled n k
  exclusive := by intro n; rw [(h.flags n).2.2.1, (h.flags n).2.2.2.1]; exact hd.exclusive n
  order := h.order.trans hd.order
  temp := fun n hn => hd.temp n (h.temp n hn)

theorem SameAt.rfl' : SameAt X w w :=
  ⟨rfl, rfl, fun n => ⟨(w.states ⟨X, n⟩).lastActivity, rfl⟩, fun _ h => h, rfl⟩

theorem ref_ne {r : Ref} (hr : r.fileId ≠ X) (n : Nat) : (⟨X, n⟩ : Ref) ≠ r := by
  rintro rfl
  exact hr rfl

/-- Work on the objects of a session of another ID. -/
theorem SameAt.of_other {r : Ref} (hr : r.fileId ≠ X) (hs : w'.sessions = w.sessions)
    (hh : w'.handles.lookup X = w.handles.lookup X) (hst : ∀ q, q ≠ r → w'.states q = w.states q)
    (ht : ∀ q, q ≠ r → w'.temps q = w.temps q)
    (ho : w'.completedSessionOrder = w.completedSessionOrder) : SameAt X w w' where
  session := by rw [hs]
  handle := by rw [hh]
  state := by intro n; exact ⟨_, hst _ (ref_ne hr n)⟩
  temp := by intro n; rw [ht _ (ref_ne hr n)]; exact id
  order := by rw [ho]

/-- Where the system stands after thread `i` moved to `pc`. -/
def Next (X : ByteString) (T : Nat → Pc) (i : Nat) (w : Writer) (pc : Pc) : Prop :=
  ∃ p : Phase, p.Describes X w ∧ Compat X p w i pc ∧ ∀ j, j ≠ i → Compat X p w j (T j)

theorem Compat.mono (h : Compat X p w i pc)
    (hf : ∀ n, (w.states ⟨X, n⟩).failed = true → (w'.states ⟨X, n⟩).failed = true)
    (ht : ∀ n, (w'.temps ⟨X, n⟩).isSome → (w.temps ⟨X, n⟩).isSome) :
    Compat X p w' i pc where
  finalizer := h.finalizer
  recorder := h.recorder
  bound := h.bound
  target := h.target
  doomed := by
    rintro ⟨id, n⟩ hr rfl
    exact (h.doomed _ hr rfl).imp_left (hf n)
  emptied := by
    rintro ⟨id, n⟩ hs rfl
    have hn := h.emptied _ hs rfl
    by_contra hne
    have hw := ht n (Option.isSome_iff_ne_none.mpr hne)
    rw [hn] at hw
    cases hw

theorem Compat.congr (h : Compat X p w i pc) (hs : SameAt X w w') : Compat X p w' i pc :=
  h.mono (fun n hn => by rw [(hs.flags n).2.2.1]; exact hn) hs.temp

theorem Next.quiet (hd : p.Describes X w) (ho : ∀ j, j ≠ i → Compat X p w j (T j))
    (hs : SameAt X w w') (hi : Compat X p w' i pc) : Next X T i w' pc :=
  ⟨p, hd.congr hs, hi, fun j hj => (ho j hj).congr hs⟩

/-- A phase change by thread `i`: the phases other threads rely on are not left, and no session
becomes active. -/
structure Phase.Advance (i : Nat) (p p' : Phase) : Prop where
  finalizing : ∀ n j, j ≠ i → p ≠ .finalizing n j
  recording : ∀ n j, j ≠ i → p ≠ .settled n (some j)
  active : ∀ n, p' ≠ .active n
  closed : p.Closed → p'.Closed

theorem Phase.Advance.of_finalizing {n : Nat} (h : p'.Closed) :
    (Phase.finalizing n i).Advance i p' where
  finalizing := by rintro m j hj ⟨⟩; exact hj rfl
  recording := by simp
  active := by rintro m rfl; exact h
  closed := fun _ => h

theorem Phase.Advance.of_recording {n : Nat} (h : p'.Closed) :
    (Phase.settled n (some i)).Advance i p' where
  finalizing := by simp
  recording := by rintro m j hj ⟨⟩; exact hj rfl
  active := by rintro m rfl; exact h
  closed := fun _ => h

theorem Compat.advance {j : Nat} (hp : p.Advance i p') (hj : j ≠ i) (hc : Compat X p w j pc)
    (hf : ∀ n, (w.states ⟨X, n⟩).failed = true → (w'.states ⟨X, n⟩).failed = true) :
    Compat X p' w' j pc := by
  have hfin : ∀ s, pc.finalizer = some s → s.fileId ≠ X :=
    fun s hs hX => hp.finalizing _ _ hj (hc.finalizer s hs hX)
  exact
    { finalizer := fun s hs hX => absurd hX (hfin s hs)
      recorder := fun r hr hX => absurd (hc.recorder r hr hX) (hp.recording _ _ hj)
      bound := fun r _ _ n hn => absurd hn (hp.active n)
      target := hc.target
      doomed := by
        rintro ⟨id, n⟩ hr rfl
        exact (hc.doomed _ hr rfl).imp (hf n) hp.closed
      emptied := fun s hs hX => absurd hX (hfin s (Pc.finalizer_of_emptied hs)) }

theorem Next.advance (hp : p.Advance i p') (ho : ∀ j, j ≠ i → Compat X p w j (T j))
    (hd : p'.Describes X w') (hi : Compat X p' w' i pc)
    (hf : ∀ n, (w.states ⟨X, n⟩).failed = true → (w'.states ⟨X, n⟩).failed = true) :
    Next X T i w' pc :=
  ⟨p', hd, hi, fun j hj => (ho j hj).advance hp hj hf⟩

/-! ## Reading the phase off the shared state -/

theorem Phase.Describes.active_of_lookup (hd : p.Describes X w) {h : FileHandle}
    (hh : w.handles.lookup X = some h) : p = .active h.serial := by
  have hs := hd.handle
  rw [hh, Option.map_some] at hs
  cases p with
  | active n => rw [Option.some.inj hs]
  | _ => cases hs

theorem Phase.Describes.absent_of_lookup (hd : p.Describes X w)
    (hn : w.sessions.lookup X = none) : p = .absent := by
  have hs := hd.session
  rw [hn] at hs
  cases p with
  | absent => rfl
  | _ => cases hs

theorem Phase.Describes.lookup_none (hd : p.Describes X w) (hp : p.handle = none) :
    w.handles.lookup X = none := by
  have hs := hd.handle
  rw [hp] at hs
  exact Option.map_eq_none_iff.mp hs

theorem Phase.Describes.not_finalizing_of_failed (hd : p.Describes X w) {n : Nat}
    (hf : (w.states ⟨X, n⟩).failed = true) : (w.states ⟨X, n⟩).finalizing = false := by
  by_contra hne
  have hp := (hd.finalizing n).mp (by simpa using hne)
  rw [(hd.open_ n (.inr hp)).1] at hf
  cases hf

/-- A failed session that is still charged is condemned. -/
theorem Phase.Describes.condemned_of_failed (hd : p.Describes X w) {n : Nat}
    (hf : (w.states ⟨X, n⟩).failed = true) (hr : (w.states ⟨X, n⟩).reserved = true) :
    p = .condemned n := by
  have hc := (hd.reserved n).mp hr
  cases p with
  | absent => cases hc
  | active m =>
    cases hc
    rw [(hd.open_ n (.inl rfl)).1] at hf
    cases hf
  | finalizing m k =>
    cases hc
    rw [(hd.open_ n (.inr ⟨k, rfl⟩)).1] at hf
    cases hf
  | condemned m => cases hc; rfl
  | settled m k => cases hc

theorem Compat.of_doomed (hf : pc.finalizer = none) (hr : pc.recorder = none)
    (hb : pc.bound = none) (ht : pc.target = none)
    (hdm : ∀ r ∈ pc.doomed, r.fileId = X → (w.states r).failed = true ∧ p.Closed) :
    Compat X p w i pc where
  finalizer := by simp [hf]
  recorder := by simp [hr]
  bound := by simp [hb]
  target := by simp [ht]
  doomed := hdm
  emptied := by
    intro s hs
    cases (Pc.finalizer_of_emptied hs).symm.trans hf

theorem Compat.of_bound {r : Ref} (hf : pc.finalizer = none) (hr : pc.recorder = none)
    (hb : pc.bound = some r) (ht : pc.target = none) (hdm : pc.doomed = [])
    (hn : r.fileId = X → ∀ n, p = .active n → n = r.serial) : Compat X p w i pc where
  finalizer := by simp [hf]
  recorder := by simp [hr]
  bound := by
    intro q hq hX
    rw [hb] at hq
    cases hq
    exact hn hX
  target := by simp [ht]
  doomed := by simp [hdm]
  emptied := by
    intro s hs
    cases (Pc.finalizer_of_emptied hs).symm.trans hf

theorem Compat.nextAbort {caller : Caller} {refs : List Ref} {count : Nat} {after : AfterAbort}
    (h : ∀ r ∈ refs, r.fileId = X → (w.states r).failed = true ∧ p.Closed) :
    Compat X p w i (nextAbort caller refs count after).1 := by
  cases refs with
  | nil => exact .of_detached (detached_resume ..)
  | cons r rest => exact .of_doomed rfl rfl rfl rfl h

theorem Compat.nextExpire {refs : List Ref}
    (h : ∀ r ∈ refs, r.fileId = X → (w.states r).failed = true ∧ p.Closed) :
    Compat X p w i (nextExpire refs).1 := by
  cases refs with
  | nil => exact .of_detached detached_idle
  | cons r rest => exact .of_doomed rfl rfl rfl rfl h

/-- Returning from `retireTemporary`. -/
theorem Compat.resume {cont : Cont} {r : Ref} {healthy : Bool}
    (h : ∀ q ∈ cont.doomed, q.fileId = X → (w.states q).failed = true ∧ p.Closed) :
    Compat X p w i (cont.resume r w' healthy).2.1 := by
  unfold Cont.resume
  split
  · exact .of_detached (detached_afterFinalize ..)
  · exact .of_detached (detached_afterThrow ..)
  · exact Compat.nextAbort h
  · exact Compat.nextExpire h

theorem resume_writer (cont : Cont) (r : Ref) (w : Writer) (healthy : Bool) :
    (cont.resume r w healthy).1 = w ∨ ∃ q, (cont.resume r w healthy).1 = w.unlock q := by
  unfold Cont.resume
  split <;> first | exact .inl rfl | exact .inr ⟨_, rfl⟩

/-! ## Aborting -/

theorem mem_abortedRefs {cfg : WriterConfig} {m : AbortMatch} {r : Ref} :
    r ∈ w.abortedRefs cfg m ↔ ∃ h, w.handles.lookup r.fileId = some h ∧
      w.aborts cfg m r.fileId h = true ∧ h.serial = r.serial := by
  simp only [Writer.abortedRefs, List.mem_map]
  constructor
  · rintro ⟨⟨id, h⟩, he, rfl⟩
    have hl := Table.lookup_eq_some_iff.mpr he
    rw [Table.lookup_filter, Option.filter_eq_some_iff] at hl
    exact ⟨h, hl.1, hl.2, rfl⟩
  · rintro ⟨h, hl, ha, hs⟩
    refine ⟨⟨r.fileId, h⟩, ?_, by rw [hs]⟩
    rw [← Table.lookup_eq_some_iff, Table.lookup_filter, Option.filter_eq_some_iff]
    exact ⟨hl, ha⟩

theorem mem_pendingCleanup {r : Ref} (hr : r ∈ w.pendingCleanup) :
    w.sessions.lookup r.fileId = some r.serial ∧ (w.states r).failed = true ∧
      (w.states r).reserved = true := by
  simp only [Writer.pendingCleanup, List.mem_map] at hr
  obtain ⟨⟨id, n⟩, he, rfl⟩ := hr
  have hl := Table.lookup_eq_some_iff.mpr he
  rw [Table.lookup_filter, Option.filter_eq_some_iff, Bool.and_eq_true] at hl
  exact hl

theorem Next.collectAborted {cfg : WriterConfig} {m : AbortMatch} {caller : Caller}
    {after : AfterAbort} {count : Nat} (hd : p.Describes X w)
    (ho : ∀ j, j ≠ i → Compat X p w j (T j)) :
    Next X T i (w.collectAborted cfg m) (nextAbort caller (w.abortedRefs cfg m) count after).1 := by
  have hfailed : ∀ r ∈ w.abortedRefs cfg m, ((w.collectAborted cfg m).states r).failed = true := by
    intro r hr
    simp [Writer.collectAborted, hr]
  have hmono : ∀ n, (w.states ⟨X, n⟩).failed = true →
      ((w.collectAborted cfg m).states ⟨X, n⟩).failed = true := by
    intro n hn
    simp only [Writer.collectAborted]
    split <;> simp [hn]
  have hlookup : (w.collectAborted cfg m).handles.lookup X =
      (w.handles.lookup X).filter fun h => !w.aborts cfg m X h := Table.lookup_filter ..
  -- the handle of `X` is taken, or nothing changes for `X`
  by_cases htaken : ∃ h, w.handles.lookup X = some h ∧ w.aborts cfg m X h = true
  · obtain ⟨h, hh, ha⟩ := htaken
    obtain rfl := hd.active_of_lookup hh
    rw [hh, Option.filter_some, ha] at hlookup
    have hst : ∀ n, ((w.collectAborted cfg m).states ⟨X, n⟩) =
        if n = h.serial then { w.states ⟨X, n⟩ with failed := true } else w.states ⟨X, n⟩ := by
      intro n
      have hiff : (⟨X, n⟩ : Ref) ∈ w.abortedRefs cfg m ↔ n = h.serial := by
        rw [mem_abortedRefs, hh]
        constructor
        · rintro ⟨g, hg, -, hs⟩
          cases hg
          exact hs.symm
        · rintro rfl
          exact ⟨h, rfl, ha, rfl⟩
      simp only [Writer.collectAborted, hiff]
    have hopen := hd.open_ h.serial (.inl rfl)
    have hadv : (Phase.active h.serial).Advance i (.condemned h.serial) :=
      ⟨by simp, by simp, by simp, fun h => h.elim⟩
    refine .advance hadv ho ?_ (Compat.nextAbort fun r hr _ => ⟨hfailed r hr, trivial⟩) hmono
    refine ⟨hd.session, by rw [hlookup]; rfl, by rw [hlookup]; simp, ?_, ?_, by simp, ?_, by simp,
      ?_, hd.order, hd.temp⟩
    · intro n
      rw [hst]
      split <;> exact hd.reserved n
    · intro n
      rw [hst]
      have hn := hd.finalizing n
      simp only [reduceCtorEq, exists_false, iff_false] at hn ⊢
      split <;> exact hn
    · rintro n hn
      cases hn
      simp [hst]
    · intro n
      rw [hst]
      split
      · rename_i hn
        subst hn
        simp [hopen.2]
      · exact hd.exclusive n
  · have hkeep : (w.collectAborted cfg m).handles.lookup X = w.handles.lookup X := by
      rw [hlookup]
      cases hh : w.handles.lookup X with
      | none => rfl
      | some h =>
        have hne : w.aborts cfg m X h = false := by
          by_contra hne
          exact htaken ⟨h, hh, by simpa using hne⟩
        simp [hne]
    have hnot : ∀ r : Ref, r.fileId = X → r ∉ w.abortedRefs cfg m := by
      rintro r rfl hr
      obtain ⟨h, hh, ha, -⟩ := mem_abortedRefs.mp hr
      exact htaken ⟨h, hh, ha⟩
    refine Next.quiet hd ho ⟨rfl, by rw [hkeep], fun n => ?_, fun _ h => h, rfl⟩
      (Compat.nextAbort fun r hr hX => absurd hr (hnot r hX))
    exact ⟨(w.states ⟨X, n⟩).lastActivity, if_neg (hnot ⟨X, n⟩ rfl)⟩

end LocalMediaTransfer
