import LocalMediaTransfer.Server.FileWriter.Content

/-!
# Exclusive writing

`writeChunk` takes the write mutex of the handle it finds at its first lookup and looks the ID up
again twice: to read the offset, and to add to the counters.  The mutex therefore protects the
right mapping only as long as the ID denotes the same handle at all three lookups.

* `WriteExclusive` — a copying call holds the mutex of the mapping it writes to, no other call
  writes there, and the counters it is about to update are those it read.
* `NoStaleWriter` — no session is created for an ID while a `writeChunk` call that found an
  earlier handle of that ID is still under way.
* `write_exclusion` — **every run whose steps meet this keeps writing exclusive**.
* `write_exclusion_reused` — without it, writing is not exclusive: abort, eviction and a second
  `initFile` of the same ID let two calls copy into one mapping.
-/

set_option autoImplicit false

namespace LocalMediaTransfer

open Lib

/-- The session whose write mutex a `writeChunk` call took from its first lookup. -/
def Pc.writer : Pc → Option Ref
  | .writeLock _ r | .writeCheck _ r | .writeCopy _ r _ _ | .writeCommit _ r _ _ _ => some r
  | _ => none

/-- The mapping a `writeChunk` call copies into, and the offset it read. -/
structure WriteTarget where
  held : Ref
  target : Nat
  offset : Nat
  deriving DecidableEq

/-- A `writeChunk` call that has read its offset and not yet updated the counters. -/
def Pc.writeTarget : Pc → Option WriteTarget
  | .writeCopy _ r target offset | .writeCommit _ r target offset _ => some ⟨r, target, offset⟩
  | _ => none

/-- The mapping that a copying call writes to. -/
def WriteTarget.mapping (t : WriteTarget) : Ref := ⟨t.held.fileId, t.target⟩

/-- Writing is exclusive in a state. -/
structure WriteExclusive (s : System) : Prop where
  /-- A call that copies holds the write mutex of the handle it copies for. -/
  mutex : ∀ i t, (s.threads i).writeTarget = some t → s.writer.mutexOwner t.mapping = some i
  /-- No two calls write to one mapping. -/
  alone : ∀ i j t u, (s.threads i).writeTarget = some t → (s.threads j).writeTarget = some u →
    t.mapping = u.mapping → i = j
  /-- The counters about to be updated are those of the handle whose offset was read. -/
  counters : ∀ i t h, (s.threads i).writeTarget = some t →
    s.writer.handles.lookup t.held.fileId = some h → h.serial = t.target ∧ h.bytesWritten = t.offset

/-- `initFile` finds neither handle nor session of an ID only when no `writeChunk` call is under
way that found an earlier handle of that ID. -/
def NoStaleWriter (s : System) (l : Label) : Prop :=
  ∀ i env caller a, l = .run i env → s.threads i = .initFile caller a →
    s.writer.handles.lookup a.fileId = none → s.writer.sessions.lookup a.fileId = none →
    ∀ j r, (s.threads j).writer = some r → r.fileId ≠ a.fileId

variable {cfg : WriterConfig} {s s' : System} {l : Label} {pc : Pc}

theorem Pc.bound_of_writer {r : Ref} (h : pc.writer = some r) : pc.bound = some r := by
  cases pc <;> first | exact h | cases h

theorem Pc.mem_refs_of_writer {r : Ref} (h : pc.writer = some r) : r ∈ pc.refs := by
  cases pc <;> first
    | cases h
      exact List.mem_singleton_self _
    | cases h

theorem Pc.writer_of_detached (h : pc.Detached) : pc.writer = none := by
  cases hw : pc.writer with
  | none => rfl
  | some r =>
    have hb := Pc.bound_of_writer hw
    rw [h.bound] at hb
    cases hb

theorem Pc.writer_of_writeTarget {t : WriteTarget} (h : pc.writeTarget = some t) :
    pc.writer = some t.held ∧ pc.held = some t.held := by
  cases pc <;> first
    | cases h
      exact ⟨rfl, rfl⟩
    | cases h

theorem writer_nextAbort (caller : Caller) (refs : List Ref) (count : Nat) (after : AfterAbort) :
    (nextAbort caller refs count after).1.writer = none := by
  cases refs with
  | nil => exact Pc.writer_of_detached (detached_resume ..)
  | cons r rest => rfl

theorem writer_nextExpire (refs : List Ref) : (nextExpire refs).1.writer = none := by
  cases refs <;> rfl

theorem writer_resume (cont : Cont) (r : Ref) (v : Writer) (healthy : Bool) :
    (cont.resume r v healthy).2.1.writer = none := by
  unfold Cont.resume
  split
  · exact Pc.writer_of_detached (detached_afterFinalize ..)
  · exact Pc.writer_of_detached (detached_afterThrow ..)
  · exact writer_nextAbort ..
  · exact writer_nextExpire ..

/-- What a thread that is writing after a step was doing before it. -/
inductive WriterStep (w : Writer) : Pc → Pc → Prop where
  | found (call : WriteCall) (id : ByteString) (h : FileHandle)
      (lookup : w.handles.lookup id = some h) :
      WriterStep w (.writeLookup call id) (.writeLock call ⟨id, h.serial⟩)
  | locked (call : WriteCall) (r : Ref) : WriterStep w (.writeLock call r) (.writeCheck call r)
  | accepted (call : WriteCall) (r : Ref) (h : FileHandle)
      (lookup : w.handles.lookup r.fileId = some h) :
      WriterStep w (.writeCheck call r) (.writeCopy call r h.serial h.bytesWritten)
  | copied (call : WriteCall) (r : Ref) (target offset : Nat) (hashUpdated : Bool) :
      WriterStep w (.writeCopy call r target offset)
        (.writeCommit call r target offset hashUpdated)

theorem WriterStep.writer {w : Writer} {pc' : Pc} {r : Ref} (h : WriterStep w pc pc')
    (hr : pc'.writer = some r) :
    pc.writer = some r ∨ ∃ h, w.handles.lookup r.fileId = some h ∧ h.serial = r.serial := by
  cases h with
  | found call id h hl =>
    cases hr
    exact .inr ⟨h, hl, rfl⟩
  | locked => exact .inl hr
  | accepted => exact .inl hr
  | copied => exact .inl hr

theorem WriterStep.writeTarget {w : Writer} {pc' : Pc} {t : WriteTarget} (h : WriterStep w pc pc')
    (ht : pc'.writeTarget = some t) :
    pc.writeTarget = some t ∨ pc.writer = some t.held ∧
      ∃ h, w.handles.lookup t.held.fileId = some h ∧ h.serial = t.target ∧
        h.bytesWritten = t.offset := by
  cases h with
  | found => cases ht
  | locked => cases ht
  | accepted call r h hl =>
    cases ht
    exact .inr ⟨rfl, h, hl, rfl, rfl⟩
  | copied => exact .inl ht

/-- A step after which a thread is writing leaves the table of handles alone. -/
theorem stepThread_writer {now i : Nat} {w : Writer} {env : StepEnv}
    {out : Writer × Pc × List Event} (hst : stepThread cfg now i w pc env = some out) {r : Ref}
    (hr : out.2.1.writer = some r) : WriterStep w pc out.2.1 ∧ out.1.handles = w.handles := by
  have hwrite : ∀ (call : WriteCall) id status, (call.afterWrite id status).1.writer = none :=
    fun _ _ _ => Pc.writer_of_detached (detached_afterWrite ..)
  have hfinal : ∀ (caller : Caller) id session result flag,
      (caller.afterFinalize id session result flag).1.writer = none :=
    fun _ _ _ _ _ => Pc.writer_of_detached (detached_afterFinalize ..)
  cases pc with
  | idle => cases hst
  | initFile caller a =>
    cases hst
    simp only [Pc.writer_of_detached (detached_afterInit ..), reduceCtorEq] at hr
  | writeLookup call id =>
    simp only [stepThread] at hst
    split at hst
    · rename_i h hl
      cases hst
      exact ⟨.found call id h hl, rfl⟩
    · split at hst <;> cases hst
      · cases hr
      · simp only [hwrite, reduceCtorEq] at hr
  | writeLock call q =>
    obtain ⟨-, rfl⟩ := stepThread_lock rfl hst
    exact ⟨.locked call q, rfl⟩
  | writeCheck call q =>
    simp only [stepThread] at hst
    split at hst
    · rename_i h hl
      split at hst <;> cases hst
      · simp only [hwrite, reduceCtorEq] at hr
      · rename_i hc
        obtain ⟨-, -, rfl, rfl⟩ := checkChunk_accept hc
        exact ⟨.accepted call q h hl, rfl⟩
    · split at hst <;> cases hst
      · cases hr
      · simp only [hwrite, reduceCtorEq] at hr
  | writeCopy call q target offset =>
    simp only [stepThread] at hst
    split at hst <;> cases hst
    · cases hr
    · exact ⟨.copied call q target offset _, updateHash_handles ..⟩
  | writeCommit call q target offset hashUpdated =>
    simp only [stepThread] at hst
    split at hst <;> cases hst <;> simp only [hwrite, reduceCtorEq] at hr
  | abortCollect caller m after =>
    cases hst
    simp only [writer_nextAbort, reduceCtorEq] at hr
  | retire cont q =>
    simp only [stepThread] at hst
    split at hst <;> cases hst
    · cases hr
    · simp only [writer_resume, reduceCtorEq] at hr
  | remember cont q =>
    cases hst
    simp only [writer_resume, reduceCtorEq] at hr
  | expireCollect =>
    cases hst
    simp only [writer_nextExpire, reduceCtorEq] at hr
  | _ =>
    simp only [stepThread] at hst
    repeat' split at hst
    all_goals cases hst
    all_goals first
      | cases hr
      | simp only [hwrite, hfinal, reduceCtorEq] at hr

/-! ## The invariant -/

/-- A writing call still works on the handle it found first. -/
structure OnFound (w : Writer) (pc : Pc) : Prop where
  found : ∀ r h, pc.writer = some r → w.handles.lookup r.fileId = some h → h.serial = r.serial
  target : ∀ t, pc.writeTarget = some t → t.target = t.held.serial
  offset : ∀ t h, pc.writeTarget = some t → w.handles.lookup t.held.fileId = some h →
    h.bytesWritten = t.offset

theorem OnFound.of_none (w : Writer) (h : pc.writer = none) : OnFound w pc where
  found := by simp [h]
  target := by
    intro t ht
    cases (Pc.writer_of_writeTarget ht).1.symm.trans h
  offset := by
    intro t g ht
    cases (Pc.writer_of_writeTarget ht).1.symm.trans h

theorem OnFound.writerStep {w w' : Writer} {pc' : Pc} (h : OnFound w pc)
    (hstep : WriterStep w pc pc')
    (hh : w'.handles = w.handles) : OnFound w' pc' where
  found := by
    intro r g hr hg
    rw [hh] at hg
    rcases hstep.writer hr with hr | ⟨g', hg', hserial⟩
    · exact h.found r g hr hg
    · cases hg.symm.trans hg'
      exact hserial
  target := by
    intro t ht
    rcases hstep.writeTarget ht with ht | ⟨hr, g, hg, hserial, -⟩
    · exact h.target t ht
    · rw [← hserial]
      exact h.found _ g hr hg
  offset := by
    intro t g ht hg
    rw [hh] at hg
    rcases hstep.writeTarget ht with ht | ⟨-, g', hg', -, hoffset⟩
    · exact h.offset t g ht hg
    · cases hg.symm.trans hg'
      exact hoffset

/-- What another writing call sees after a step: its handle as it was, or with the counters of a
chunk that was just accepted. -/
theorem stepThread_handle_of_writer {tid j : Nat} {env : StepEnv} {out : Writer × Pc × List Event}
    (hstale : NoStaleWriter s (.run tid env))
    (hmove : stepThread cfg s.clock tid s.writer (s.threads tid) env = some out) {r : Ref}
    {g : FileHandle} (hr : (s.threads j).writer = some r)
    (hg : out.1.handles.lookup r.fileId = some g) :
    s.writer.handles.lookup r.fileId = some g ∨
      ∃ call q target offset hashUpdated g₀,
        s.threads tid = .writeCommit call q target offset hashUpdated ∧ q.fileId = r.fileId ∧
        s.writer.handles.lookup r.fileId = some g₀ ∧
        g = g₀.commitChunk call.data.length hashUpdated := by
  rcases (stepThread_content r.fileId hmove).handle_cases hg with
    hg | hcommit | ⟨caller, a, ienv, hpc, hfile, -, hinactive, hunknown, -⟩
  · exact .inl hg
  · exact .inr hcommit
  · exact absurd hfile.symm (hstale tid env caller a rfl hpc (hfile ▸ hinactive)
      (hfile ▸ hunknown) j r hr)

theorem OnFound.of_other {tid j : Nat} {env : StepEnv} {out : Writer × Pc × List Event}
    (h : ∀ i, OnFound s.writer (s.threads i)) (hlocked : Locked s)
    (hstale : NoStaleWriter s (.run tid env))
    (hmove : stepThread cfg s.clock tid s.writer (s.threads tid) env = some out) (hj : j ≠ tid) :
    OnFound out.1 (s.threads j) where
  found := by
    intro r g hr hg
    rcases stepThread_handle_of_writer hstale hmove hr hg with
      hg | ⟨call, q, _, _, _, g₀, -, -, hg₀, rfl⟩
    · exact (h j).found r g hr hg
    · exact (h j).found r g₀ hr hg₀
  target := (h j).target
  offset := by
    intro t g ht hg
    obtain ⟨hr, hheld⟩ := Pc.writer_of_writeTarget ht
    rcases stepThread_handle_of_writer hstale hmove hr hg with
      hg | ⟨call, q, _, _, _, g₀, hpc, hq, hg₀, -⟩
    · exact (h j).offset t g ht hg
    · -- the committing thread would hold the same mutex
      have hqr : q = t.held := by
        have hq₀ := (h tid).found q g₀ (by rw [hpc]; rfl) (hq ▸ hg₀)
        have hr₀ := (h j).found _ g₀ hr hg₀
        cases q
        cases hth : t.held
        simp_all
      exact absurd (hlocked.unique hheld (by rw [hpc, ← hqr]; rfl)) hj

theorem onFound_of_run {files : Table ByteString DirEntry}
    (hrun : Run (step cfg) NoStaleWriter (.init files) s) (i : Nat) :
    OnFound s.writer (s.threads i) := by
  induction hrun generalizing i with
  | refl => exact .of_none _ rfl
  | tail hr hl hst ih =>
    cases step_spec hst with
    | call tid c hidle =>
      refine forall_update (P := fun _ pc => OnFound _ pc) ?_ (fun j _ => ih j) i
      exact .of_none _ (Pc.writer_of_detached (detached_start _ c))
    | run tid env out hmove =>
      refine forall_update (P := fun _ pc => OnFound _ pc) ?_ (fun j hj => ?_) i
      · cases hw : out.2.1.writer with
        | none => exact .of_none _ hw
        | some r =>
          obtain ⟨hstep, hh⟩ := stepThread_writer hmove hw
          exact (ih tid).writerStep hstep hh
      · exact .of_other ih (locked_of_run hr) hl hmove hj
    | tick => exact ih i

/-! ## The result -/

/-- **Per-file write exclusion** in every state of every run in which no session is created for an
ID while a `writeChunk` call that found an earlier handle of it is under way. -/
theorem write_exclusion {files : Table ByteString DirEntry}
    (hrun : Run (step cfg) NoStaleWriter (.init files) s) : WriteExclusive s := by
  have hinv := onFound_of_run hrun
  have hlocked := locked_of_run hrun
  have hmapping : ∀ i t, (s.threads i).writeTarget = some t → t.mapping = t.held := by
    intro i t ht
    rw [WriteTarget.mapping, (hinv i).target t ht]
  refine ⟨?_, ?_, ?_⟩
  · intro i t ht
    rw [hmapping i t ht]
    exact hlocked i _ (Pc.writer_of_writeTarget ht).2
  · intro i j t u ht hu heq
    rw [hmapping i t ht, hmapping j u hu] at heq
    exact hlocked.unique (Pc.writer_of_writeTarget ht).2 (heq ▸ (Pc.writer_of_writeTarget hu).2)
  · intro i t h ht hl
    refine ⟨?_, (hinv i).offset t h ht hl⟩
    rw [(hinv i).target t ht]
    exact (hinv i).found _ h (Pc.writer_of_writeTarget ht).1 hl

theorem noStaleWriter_of_freshInit (h : ∀ X, FreshInit X s l) : NoStaleWriter s l := by
  intro i env caller a hl hpc hinactive hunknown j r hr
  exact h a.fileId i env caller a hl hpc rfl hunknown j r (Pc.mem_refs_of_writer hr)

/-- Two chunks of one file are sent at once; the second call waits for the first one's mutex. -/
def sampleContended : List Label :=
  sampleCall 0 (.initFile ⟨ascii "o-1", ascii "a.txt", 4, 2, true⟩) 1 ++
    sampleCall 0 (.writeChunk (ascii "o-1") 0 (ascii "ab")) 3 ++
    sampleCall 1 (.writeChunk (ascii "o-1") 0 (ascii "ab")) 1

theorem write_exclusion_sampleContended :
    ∃ s t, Run (step (sampleConfig .keepBoth)) NoStaleWriter (.init ∅) s ∧
      (s.threads 0).writeTarget = some t ∧ (s.threads 1).writer = some t.held ∧
      WriteExclusive s := by
  obtain ⟨s, hrun, htest⟩ := Run.exists_of_exec (step (sampleConfig .keepBoth))
    (fun s _ => evictionFree s.log)
    (fun s => decide ((s.threads 0).writeTarget = some ⟨⟨ascii "o-1", 0⟩, 0, 0⟩ ∧
      (s.threads 1).writer = some ⟨ascii "o-1", 0⟩))
    (.init ∅) sampleContended (fun _ _ h => h) (by decide)
  have hstale : Run (step (sampleConfig .keepBoth)) NoStaleWriter (.init ∅) s :=
    run_freshInit (fun _ _ h => h) (fun _ _ _ _ hfresh => noStaleWriter_of_freshInit hfresh) hrun
  obtain ⟨h0, h1⟩ := of_decide_eq_true htest
  exact ⟨s, _, hstale, h0, h1, write_exclusion hstale⟩

/-! ## Reuse of an evicted ID -/

/-- The IDs of the sessions that push another one out of the completed-session cache. -/
def fillId (k : Nat) : ByteString :=
  ascii "o-" ++ [k / 256, k / 16 % 16, k % 16].map fun d => UInt8.ofNat (97 + d)

def fillArgs (k : Nat) : InitArgs := ⟨fillId k, ascii "a.txt", 1, 1, true⟩

/-- The session that is aborted, evicted and created again. -/
def reusedArgs : InitArgs := ⟨ascii "o-1", ascii "a.txt", 4, 2, true⟩

/-- The chunk that is sent for it, twice. -/
def reusedChunk : WriteCall := ⟨.direct, 0, ascii "ab"⟩

/-- A digit of a filling ID, a letter from `a` to `p`. -/
theorem fillDigit_toNat {d : Nat} (h : d < 16) : (UInt8.ofNat (97 + d)).toNat = 97 + d := by
  rw [UInt8.toNat_ofNat']
  omega

theorem fillDigit_safe {d : Nat} (h : d < 16) : isSafeByte (UInt8.ofNat (97 + d)) = true := by
  have hlower : isLower (UInt8.ofNat (97 + d)) = true := by
    simp only [isLower, Bool.and_eq_true, decide_eq_true_eq, UInt8.le_iff_toNat_le,
      UInt8.reduceToNat, fillDigit_toNat h]
    omega
  simp only [isSafeByte, isAlnum, hlower, Bool.or_true, Bool.true_or]

theorem fillArgs_valid {k : Nat} (hk : k < MaxCompletedSessions) :
    (fillArgs k).valid (sampleConfig .keepBoth) = true ∧ fillId k ≠ ascii "o-1" := by
  unfold MaxCompletedSessions at hk
  have hsafe : (fillId k).all isSafeByte = true := by
    have hfront : (ascii "o-").all isSafeByte = true := by decide
    simp only [fillId, List.all_append, hfront, List.map_cons, List.map_nil, List.all_cons,
      List.all_nil, fillDigit_safe (show k / 256 < 16 by omega),
      fillDigit_safe (show k / 16 % 16 < 16 by omega), fillDigit_safe (show k % 16 < 16 by omega),
      Bool.and_self]
  have hlength : (fillId k).length = 5 := rfl
  have hid : isSafeFileId (fillId k) = true := by
    have hne : (fillId k).isEmpty = false := rfl
    simp only [isSafeFileId, hne, hlength, hsafe]
    rfl
  constructor
  · rw [InitArgs.valid, show (fillArgs k).fileId = fillId k from rfl, hid]
    rfl
  · intro heq
    rw [heq] at hlength
    cases hlength

/-- The number is read back from its ID. -/
theorem fillId_decode {k : Nat} (hk : k < MaxCompletedSessions) :
    ((fillId k).drop 2).foldl (fun n d => n * 16 + (d.toNat - 97)) 0 = k := by
  unfold MaxCompletedSessions at hk
  have hdrop : (fillId k).drop 2 =
      [k / 256, k / 16 % 16, k % 16].map fun d => UInt8.ofNat (97 + d) := rfl
  rw [hdrop]
  simp only [List.map_cons, List.map_nil, List.foldl_cons, List.foldl_nil,
    fillDigit_toNat (show k / 256 < 16 by omega), fillDigit_toNat (show k / 16 % 16 < 16 by omega),
    fillDigit_toNat (show k % 16 < 16 by omega)]
  omega

theorem fillId_ne {j k : Nat} (hj : j < MaxCompletedSessions) (hk : k < MaxCompletedSessions)
    (hne : j ≠ k) : fillId j ≠ fillId k := by
  intro h
  have hdecode := fillId_decode hj
  rw [h, fillId_decode hk] at hdecode
  exact hne hdecode.symm

/-- Nothing is reserved and no write mutex is held. -/
structure Calm (w : Writer) : Prop where
  handles : w.handles = ∅
  released : ∀ r, (w.states r).reserved = false
  unlocked : ∀ r, w.mutexOwner r = none

theorem Calm.admits {w : Writer} (h : Calm w) {a : InitArgs} (ha : a.totalSize ≤ 4) (env : InitEnv)
    (hspace : env.spaceAvailable = some (2 ^ 62)) :
    w.admits (sampleConfig .keepBoth) a env = true := by
  have hcount : ∀ p, w.reservedCount p = 0 := by
    intro p
    simp [Writer.reservedCount, Table.total, h.released]
  have hbytes : ∀ p, w.reservedBytes p = 0 := by
    intro p
    simp [Writer.reservedBytes, Table.total, h.released]
  have hlimits : (sampleConfig .keepBoth).limits = {} := rfl
  simp only [Writer.admits, hlimits, hcount, hbytes, hspace]
  simp only [Bool.and_eq_true, Bool.not_eq_true', Bool.or_eq_false_iff, decide_eq_false_iff_not]
  omega

/-- The writer after a session could not be created. -/
def Writer.notCreated (w : Writer) (now : Nat) (a : InitArgs) : Writer :=
  ((w.reserve now a).updateState ⟨a.fileId, w.nextSerial⟩ fun st =>
    { st with failed := true, reserved := false }).rememberCompletedSessionLocked a.fileId

/-- A failed creation leaves a failed session in the completed-session cache. -/
theorem Calm.initFile_notCreated {w : Writer} (h : Calm w) {a : InitArgs} (now : Nat)
    (hvalid : a.valid (sampleConfig .keepBoth) = true) (ha : a.totalSize ≤ 4)
    (hnew : w.sessions.lookup a.fileId = none) :
    w.initFile (sampleConfig .keepBoth) now a { create := .notCreated } =
      (w.notCreated now a, false) := by
  have hadmits := h.admits ha { create := .notCreated } rfl
  have hinactive : w.handles.lookup a.fileId = none := by rw [h.handles]; rfl
  simp only [Writer.initFile, hvalid, hinactive, hnew, hadmits, Writer.createSession,
    Writer.notCreated, Bool.not_true, Bool.or_self, Bool.false_eq_true, if_false]

theorem Calm.initFile_created {w : Writer} (h : Calm w) {a : InitArgs} (now : Nat)
    (hvalid : a.valid (sampleConfig .keepBoth) = true) (ha : a.totalSize ≤ 4)
    (hnew : w.sessions.lookup a.fileId = none) :
    w.initFile (sampleConfig .keepBoth) now a {} = w.createSession now a {} := by
  have hadmits := h.admits ha {} rfl
  have hinactive : w.handles.lookup a.fileId = none := by rw [h.handles]; rfl
  simp only [Writer.initFile, hvalid, hinactive, hnew, hadmits, Bool.not_true, Bool.or_self,
    Bool.false_eq_true, if_false]

theorem evictExpired_of_le {handles : Table ByteString FileHandle} {order : List ByteString}
    {sessions : Table ByteString Nat} (h : order.length ≤ MaxCompletedSessions) :
    evictExpired handles order sessions = (order, sessions) := by
  cases order with
  | nil => rfl
  | cons id rest =>
    rw [evictExpired, if_neg (by simpa using h)]

/-- A `writeChunk` call has found the handle of `o-1` and waits for its mutex; since then that
session was aborted, and `n` further sessions have been recorded. -/
structure Evicting (n : Nat) (s : System) : Prop where
  stale : s.threads 0 = .writeLock reusedChunk ⟨ascii "o-1", 0⟩
  idle : s.threads 1 = .idle
  serial : 0 < s.writer.nextSerial
  calm : Calm s.writer
  order : s.writer.completedSessionOrder = ascii "o-1" :: (List.range n).map fillId
  unused : ∀ k, n ≤ k → k < MaxCompletedSessions → s.writer.sessions.lookup (fillId k) = none

/-- The end of that: `o-1` is unknown again. -/
structure Evicted (s : System) : Prop where
  stale : s.threads 0 = .writeLock reusedChunk ⟨ascii "o-1", 0⟩
  idle : s.threads 1 = .idle
  serial : 0 < s.writer.nextSerial
  calm : Calm s.writer
  unknown : s.writer.sessions.lookup (ascii "o-1") = none

theorem Calm.notCreated {w : Writer} (h : Calm w) (now : Nat) (a : InitArgs) :
    Calm (w.notCreated now a) where
  handles := h.handles
  released := by
    intro r
    by_cases hr : r = ⟨a.fileId, w.nextSerial⟩
    · simp [Writer.notCreated, Writer.rememberCompletedSessionLocked, Writer.updateState, hr]
    · simp [Writer.notCreated, Writer.rememberCompletedSessionLocked, Writer.updateState,
        Writer.reserve, Function.update_of_ne hr, h.released]
  unlocked := h.unlocked

section Extend

variable {ok : System → Label → Prop} {s₀ : System} {tid : Nat}

/-- A run goes on with a call of an idle thread. -/
theorem exists_call (hok : ∀ s l, ok s l) (hrun : Run (step cfg) ok s₀ s)
    (hidle : s.threads tid = .idle) (c : Call) :
    ∃ t, Run (step cfg) ok s₀ t ∧ t.writer = s.writer ∧ t.clock = s.clock ∧
      t.threads = Function.update s.threads tid (c.start s.clock).1 := by
  have hstep : step cfg s (.call tid c) = some { s with
      threads := Function.update s.threads tid (c.start s.clock).1,
      log := s.log ++ (c.start s.clock).2 } := by
    simp only [step, hidle]
  exact ⟨_, .tail hrun (hok ..) hstep, rfl, rfl, rfl⟩

/-- A run goes on with a step of a thread. -/
theorem exists_run (hok : ∀ s l, ok s l) (hrun : Run (step cfg) ok s₀ s) {env : StepEnv}
    {out : Writer × Pc × List Event}
    (hmove : stepThread cfg s.clock tid s.writer (s.threads tid) env = some out) :
    ∃ t, Run (step cfg) ok s₀ t ∧ t.writer = out.1 ∧ t.clock = s.clock ∧
      t.threads = Function.update s.threads tid out.2.1 := by
  have hstep : step cfg s (.run tid env) = some { s with
      writer := out.1
      threads := Function.update s.threads tid out.2.1
      log := s.log ++ out.2.2 ++ evictions s.writer out.1 } := by
    simp only [step, hmove]
  exact ⟨_, .tail hrun (hok ..) hstep, rfl, rfl, rfl⟩

/-- One more session is recorded. -/
theorem exists_notCreated {n : Nat} (hok : ∀ s l, ok s l)
    (hrun : Run (step (sampleConfig .keepBoth)) ok s₀ s) (h : Evicting n s)
    (hn : n < MaxCompletedSessions) :
    ∃ t, Run (step (sampleConfig .keepBoth)) ok s₀ t ∧ t.threads 0 = s.threads 0 ∧
      t.threads 1 = .idle ∧ t.writer = s.writer.notCreated s.clock (fillArgs n) := by
  obtain ⟨s₁, hrun₁, hw₁, hc₁, ht₁⟩ := exists_call hok hrun h.idle (.initFile (fillArgs n))
  have hinit := h.calm.initFile_notCreated s.clock (fillArgs_valid hn).1
    (by show 1 ≤ 4; decide) (h.unused n (Nat.le_refl n) hn)
  have hmove : stepThread (sampleConfig .keepBoth) s₁.clock 1 s₁.writer (s₁.threads 1)
      { init := { create := .notCreated } } =
      some (s.writer.notCreated s.clock (fillArgs n), .idle,
        [.returned (.initFile (fillArgs n) false)]) := by
    simp only [ht₁, hw₁, hc₁, Function.update_self, Call.start, stepThread, hinit,
      Caller.afterInit]
  obtain ⟨s₂, hrun₂, hw₂, -, ht₂⟩ := exists_run hok hrun₁ hmove
  exact ⟨s₂, hrun₂, by simp [ht₂, ht₁], by simp [ht₂], hw₂⟩

theorem exists_evicting (hok : ∀ s l, ok s l) (hrun : Run (step (sampleConfig .keepBoth)) ok s₀ s)
    (h : Evicting 0 s) : ∀ n < MaxCompletedSessions,
      ∃ t, Run (step (sampleConfig .keepBoth)) ok s₀ t ∧ Evicting n t := by
  intro n
  induction n with
  | zero => exact fun _ => ⟨s, hrun, h⟩
  | succ n ih =>
    intro hn
    obtain ⟨t, hrun, h⟩ := ih (Nat.lt_of_succ_lt hn)
    obtain ⟨u, hu, h0, h1, hw⟩ := exists_notCreated hok hrun h (Nat.lt_of_succ_lt hn)
    have horder : (t.writer.completedSessionOrder ++ [fillId n]) =
        ascii "o-1" :: (List.range (n + 1)).map fillId := by
      rw [h.order, List.range_succ, List.map_append]
      rfl
    have hkept : evictExpired t.writer.handles (t.writer.completedSessionOrder ++ [fillId n])
        (t.writer.sessions.insert (fillId n) t.writer.nextSerial) =
        (ascii "o-1" :: (List.range (n + 1)).map fillId,
          t.writer.sessions.insert (fillId n) t.writer.nextSerial) := by
      rw [horder]
      exact evictExpired_of_le (by simpa using hn)
    refine ⟨u, hu, h0.trans h.stale, h1, ?_, hw ▸ h.calm.notCreated _ _, ?_, ?_⟩
    · rw [hw]
      exact Nat.succ_pos _
    · rw [hw]
      exact congrArg Prod.fst hkept
    · intro k hnk hk
      have hsessions : u.writer.sessions =
          t.writer.sessions.insert (fillId n) t.writer.nextSerial := by
        rw [hw]
        exact congrArg Prod.snd hkept
      rw [hsessions, AList.lookup_insert_ne (fillId_ne hk (by omega) (by omega))]
      exact h.unused k (by omega) hk

theorem exists_evicted (hok : ∀ s l, ok s l) (hrun : Run (step (sampleConfig .keepBoth)) ok s₀ s)
    (h : Evicting (MaxCompletedSessions - 1) s) :
    ∃ t, Run (step (sampleConfig .keepBoth)) ok s₀ t ∧ Evicted t := by
  obtain ⟨u, hu, h0, h1, hw⟩ := exists_notCreated hok hrun h (by decide)
  refine ⟨u, hu, h0.trans h.stale, h1, ?_, hw ▸ h.calm.notCreated _ _, ?_⟩
  · rw [hw]
    exact Nat.succ_pos _
  · have hsessions : u.writer.sessions =
        (s.writer.sessions.insert (fillId (MaxCompletedSessions - 1)) s.writer.nextSerial).erase
          (ascii "o-1") := by
      rw [hw]
      show (evictExpired s.writer.handles
        (s.writer.completedSessionOrder ++ [fillId (MaxCompletedSessions - 1)]) _).2 = _
      rw [h.order, h.calm.handles, List.cons_append, evictExpired, if_pos (by simp; decide),
        evictExpired_of_le (by simp; decide)]
      rfl
    rw [hsessions, AList.lookup_erase]

theorem checkChunk_reused (n : Nat) :
    (reusedArgs.handle n true).checkChunk reusedChunk.chunkIndex reusedChunk.data.length =
      .accept n 0 := by
  have hrest : sub64 4 0 = 4 := sub64_of_le (Nat.zero_le 4) (by norm_num)
  simp [FileHandle.checkChunk, InitArgs.handle, reusedArgs, hrest, reusedChunk]
  decide

/-- Two calls copy into the mapping of the second session of `o-1`. -/
theorem exists_shared (hok : ∀ s l, ok s l) (hrun : Run (step (sampleConfig .keepBoth)) ok s₀ s)
    (h : Evicted s) :
    ∃ t n, Run (step (sampleConfig .keepBoth)) ok s₀ t ∧ 0 < n ∧
      t.threads 0 = .writeCopy reusedChunk ⟨ascii "o-1", 0⟩ n 0 ∧
      t.threads 1 = .writeCopy reusedChunk ⟨ascii "o-1", n⟩ n 0 := by
  have hinit := h.calm.initFile_created s.clock (a := reusedArgs) (by decide) (by decide) h.unknown
  let w := (s.writer.createSession s.clock reusedArgs {}).1
  let g := reusedArgs.handle s.writer.nextSerial true
  have hlookup : w.handles.lookup (ascii "o-1") = some g := AList.lookup_insert _
  have hcheck := checkChunk_reused s.writer.nextSerial
  have hfree : ∀ r, w.mutexOwner r = none := h.calm.unlocked
  have hne : (⟨ascii "o-1", 0⟩ : Ref) ≠ ⟨ascii "o-1", s.writer.nextSerial⟩ := by
    have hpos := h.serial
    simp only [ne_eq, Ref.mk.injEq, true_and]
    omega
  obtain ⟨s₁, hr, hw₁, hc₁, ht₁⟩ := exists_call hok hrun h.idle (.initFile reusedArgs)
  have hm₂ : stepThread (sampleConfig .keepBoth) s₁.clock 1 s₁.writer (s₁.threads 1) {} =
      some (w, .idle, [.returned (.initFile reusedArgs true)]) := by
    simp only [ht₁, hw₁, hc₁, Function.update_self, Call.start, stepThread, hinit]
    rfl
  obtain ⟨s₂, hr, hw₂, -, ht₂⟩ := exists_run hok hr hm₂
  have hidle₂ : s₂.threads 1 = .idle := by rw [ht₂]; rfl
  obtain ⟨s₃, hr, hw₃, -, ht₃⟩ := exists_call hok hr hidle₂
    (.writeChunk (ascii "o-1") 0 (ascii "ab"))
  have hm₄ : stepThread (sampleConfig .keepBoth) s₃.clock 1 s₃.writer (s₃.threads 1) {} =
      some (w, .writeLock reusedChunk ⟨ascii "o-1", s.writer.nextSerial⟩, []) := by
    simp only [ht₃, hw₃, hw₂, Function.update_self, Call.start, stepThread, hlookup]
    rfl
  obtain ⟨s₄, hr, hw₄, -, ht₄⟩ := exists_run hok hr hm₄
  have hm₅ : stepThread (sampleConfig .keepBoth) s₄.clock 1 s₄.writer (s₄.threads 1) {} =
      some (w.lock 1 ⟨ascii "o-1", s.writer.nextSerial⟩,
        .writeCheck reusedChunk ⟨ascii "o-1", s.writer.nextSerial⟩, []) := by
    simp only [ht₄, hw₄, Function.update_self, stepThread, hfree, if_true]
  obtain ⟨s₅, hr, hw₅, hc₅, ht₅⟩ := exists_run hok hr hm₅
  obtain ⟨w₆, hlookup₆, hfree₆, hm₆⟩ : ∃ w₆ : Writer, w₆.handles.lookup (ascii "o-1") = some g ∧
      w₆.mutexOwner ⟨ascii "o-1", 0⟩ = none ∧
      stepThread (sampleConfig .keepBoth) s₅.clock 1 s₅.writer (s₅.threads 1) {} =
        some (w₆, .writeCopy reusedChunk ⟨ascii "o-1", s.writer.nextSerial⟩
          s.writer.nextSerial 0, []) := by
    simp only [ht₅, hw₅, Function.update_self, stepThread, Writer.lock, hlookup, g, hcheck]
    refine ⟨_, ?_, ?_, rfl⟩
    · exact hlookup
    · exact (Function.update_of_ne hne ..).trans (hfree _)
  obtain ⟨s₆, hr, hw₆, -, ht₆⟩ := exists_run hok hr hm₆
  have hstale₆ : s₆.threads 0 = .writeLock reusedChunk ⟨ascii "o-1", 0⟩ := by
    simp only [ht₆, ht₅, ht₄, ht₃, ht₂, ht₁, Function.update_of_ne Nat.zero_ne_one, h.stale]
  have hm₇ : stepThread (sampleConfig .keepBoth) s₆.clock 0 s₆.writer (s₆.threads 0) {} =
      some (w₆.lock 0 ⟨ascii "o-1", 0⟩, .writeCheck reusedChunk ⟨ascii "o-1", 0⟩, []) := by
    simp only [hstale₆, hw₆, stepThread, hfree₆, if_true]
  obtain ⟨s₇, hr, hw₇, -, ht₇⟩ := exists_run hok hr hm₇
  obtain ⟨w₈, hm₈⟩ : ∃ w₈ : Writer,
      stepThread (sampleConfig .keepBoth) s₇.clock 0 s₇.writer (s₇.threads 0) {} =
        some (w₈, .writeCopy reusedChunk ⟨ascii "o-1", 0⟩ s.writer.nextSerial 0, []) := by
    simp only [ht₇, hw₇, Function.update_self, stepThread, Writer.lock, hlookup₆, g, hcheck]
    exact ⟨_, rfl⟩
  obtain ⟨s₈, hr, -, -, ht₈⟩ := exists_run hok hr hm₈
  refine ⟨s₈, s.writer.nextSerial, hr, h.serial, ?_, ?_⟩
  · rw [ht₈, Function.update_self]
  · simp only [ht₈, ht₇, ht₆, Function.update_of_ne Nat.one_ne_zero, Function.update_self]

end Extend

/-- A chunk is about to be written to `o-1` when that session is aborted. -/
def staleLabels : List Label :=
  sampleCall 0 (.initFile reusedArgs) 1 ++
    sampleCall 0 (.writeChunk (ascii "o-1") 0 (ascii "ab")) 1 ++
    sampleCall 1 (.abortFile (ascii "o-1")) 5

/-- The sections that have run by then. -/
def staleWriter : Writer :=
  (((((((Writer.init ∅).createSession 0 reusedArgs {}).1.collectAborted (sampleConfig .keepBoth)
    (.byId (ascii "o-1"))).lock 1 ⟨ascii "o-1", 0⟩).abortHash (ascii "o-1")).markFailed
    ⟨ascii "o-1", 0⟩).release ⟨ascii "o-1", 0⟩).rememberCompletedSessionLocked
    (ascii "o-1") |>.unlock ⟨ascii "o-1", 0⟩

theorem calm_staleWriter : Calm staleWriter where
  handles := rfl
  released := by
    intro r
    by_cases h : r = ⟨ascii "o-1", 0⟩
    · subst h
      rfl
    · have hr : r ∉ ((Writer.init ∅).createSession 0 reusedArgs {}).1.abortedRefs
          (sampleConfig .keepBoth) (.byId (ascii "o-1")) := by
        show r ∉ [(⟨ascii "o-1", 0⟩ : Ref)]
        simpa using h
      simp only [staleWriter, Writer.unlock, Writer.rememberCompletedSessionLocked,
        Writer.release, Writer.markFailed, Writer.updateState, Writer.abortHash, Writer.lock,
        Writer.removeTemp, Function.update_of_ne h, Writer.collectAborted, hr, if_false]
      have hstate : Function.update (Writer.init ∅).states ⟨ascii "o-1", 0⟩ (reusedArgs.state 0) r =
          (Writer.init ∅).states r := Function.update_of_ne h ..
      exact congrArg FinalizationState.reserved hstate
  unlocked := by
    intro r
    by_cases h : r = ⟨ascii "o-1", 0⟩
    · subst h
      rfl
    · simp only [staleWriter, Writer.unlock, Function.update_of_ne h]
      exact Function.update_of_ne h ..

/-- Writing is not exclusive in every run: the calls of threads 0 and 1 copy into one mapping, and
thread 0 holds the mutex of an earlier session. -/
theorem write_exclusion_reused :
    ∃ s n, Run (step (sampleConfig .keepBoth)) (fun _ _ => True) (.init ∅) s ∧ 0 < n ∧
      s.threads 0 = .writeCopy reusedChunk ⟨ascii "o-1", 0⟩ n 0 ∧
      s.threads 1 = .writeCopy reusedChunk ⟨ascii "o-1", n⟩ n 0 ∧ ¬WriteExclusive s := by
  obtain ⟨s, hs⟩ : ∃ s, exec (step (sampleConfig .keepBoth)) (fun _ _ => true) (.init ∅)
      staleLabels = some s ∧ Evicting 0 s := by
    refine ⟨_, rfl, rfl, rfl, Nat.zero_lt_one, calm_staleWriter, rfl, ?_⟩
    intro k _ hk
    exact AList.lookup_insert_ne (fillArgs_valid hk).2
  have hok : ∀ (s : System) (l : Label), (fun _ _ => True) s l := fun _ _ => trivial
  obtain ⟨t, hrun, ht⟩ := exists_evicting hok (.of_exec (fun _ _ _ => trivial) hs.1) hs.2
    (MaxCompletedSessions - 1) (by decide)
  obtain ⟨u, hrun, hu⟩ := exists_evicted hok hrun ht
  obtain ⟨v, n, hrun, hn, h0, h1⟩ := exists_shared hok hrun hu
  refine ⟨v, n, hrun, hn, h0, h1, fun hexclusive => ?_⟩
  exact Nat.zero_ne_one (hexclusive.alone 0 1 ⟨⟨ascii "o-1", 0⟩, n, 0⟩ ⟨⟨ascii "o-1", n⟩, n, 0⟩
    (by rw [h0]; rfl) (by rw [h1]; rfl) rfl)

end LocalMediaTransfer
