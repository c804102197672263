import LocalMediaTransfer.Server.FileWriter.Effects

/-!
# What threads were called with

A thread in `initFile` or `writeChunk` works with the arguments it was called with, and a thread
that serves `/upload_chunk` calls both with those of its request.

* `stepThread_args` — arguments are never changed on the way.
* `Carries`, `carries_of_run` — what holds of every call that arrives holds of every call in
  progress, in every state of every run.
-/

set_option autoImplicit false

namespace LocalMediaTransfer

open Lib

variable {cfg : WriterConfig} {s s' : System} {l : Label}

/-- The arguments of an `initFile` or `writeChunk` call in progress. -/
inductive Args where
  | init (caller : Caller) (a : InitArgs)
  | write (fileId : ByteString) (call : WriteCall)

def Pc.args : Pc → Option Args
  | .initFile caller a => some (.init caller a)
  | .writeLookup call id => some (.write id call)
  | .writeLock call r | .writeCheck call r | .writeCopy call r _ _ | .writeCommit call r _ _ _ =>
      some (.write r.fileId call)
  | .writeWait call _ r => some (.write r.fileId call)
  | _ => none

/-- The `writeChunk` call of a request. -/
def ChunkRequest.call (req : ChunkRequest) : WriteCall :=
  ⟨.uploadChunk req, req.chunkIndex, req.data⟩

theorem args_afterInit {caller : Caller} {a : InitArgs} {ok : Bool} {e : Args}
    (h : (caller.afterInit a ok).1.args = some e) :
    ok = true ∧ ∃ req, caller = .uploadChunk req ∧ e = .write req.storageId req.call := by
  unfold Caller.afterInit at h
  split at h
  · cases h
  · split at h
    · rename_i req hok
      cases h
      exact ⟨hok, req, rfl, rfl⟩
    · cases h

theorem args_afterWrite (call : WriteCall) (id : ByteString) (status : ChunkWriteStatus) :
    (call.afterWrite id status).1.args = none := by
  unfold WriteCall.afterWrite
  split
  · rfl
  · cases status <;> simp only <;> try split
    all_goals rfl

theorem args_afterFinalize (caller : Caller) (id : ByteString) (session : Option Ref)
    (result : FileFinalizeResult) (flag : Bool) :
    (caller.afterFinalize id session result flag).1.args = none := by
  unfold Caller.afterFinalize
  split <;> rfl

theorem args_nextAbort (caller : Caller) (refs : List Ref) (count : Nat) (after : AfterAbort) :
    (nextAbort caller refs count after).1.args = none := by
  cases refs with
  | cons r rest => rfl
  | nil =>
    simp only [nextAbort, AfterAbort.resume]
    split
    · rfl
    · exact args_afterWrite ..
    · exact args_afterFinalize ..
    · split <;> rfl
    · rfl

theorem args_nextExpire (refs : List Ref) : (nextExpire refs).1.args = none := by
  cases refs <;> rfl

theorem args_resume (cont : Cont) (r : Ref) (v : Writer) (healthy : Bool) :
    (cont.resume r v healthy).2.1.args = none := by
  unfold Cont.resume
  split
  · exact args_afterFinalize ..
  · unfold Caller.afterThrow
    split <;> rfl
  · exact args_nextAbort ..
  · exact args_nextExpire ..

/-- Where the arguments of a thread come from: it keeps them, or it enters `writeChunk` from the
handler after a successful `initFile`. -/
theorem stepThread_args {now i : Nat} {w : Writer} {pc : Pc} {env : StepEnv}
    {out : Writer × Pc × List Event} {e : Args}
    (hst : stepThread cfg now i w pc env = some out) (he : out.2.1.args = some e) :
    pc.args = some e ∧ (∃ id call, e = .write id call) ∨
      ∃ req a, pc = .initFile (.uploadChunk req) a ∧ e = .write req.storageId req.call ∧
        (w.initFile cfg now a env.init).2 = true := by
  cases pc with
  | idle => cases hst
  | initFile caller a =>
    obtain rfl := Option.some.inj hst
    obtain ⟨hok, req, rfl, rfl⟩ := args_afterInit he
    exact .inr ⟨req, a, rfl, rfl, hok⟩
  | finalizeRemember caller r result =>
    cases hst
    cases (args_afterFinalize ..).symm.trans he
  | abortCollect caller m after =>
    cases hst
    cases (args_nextAbort ..).symm.trans he
  | remember cont r =>
    cases hst
    cases (args_resume ..).symm.trans he
  | expireCollect =>
    cases hst
    cases (args_nextExpire ..).symm.trans he
  | _ =>
    simp only [stepThread] at hst
    repeat' split at hst
    all_goals cases hst
    all_goals first
      | cases he; exact .inl ⟨rfl, _, _, rfl⟩
      | cases he
      | cases (args_afterWrite ..).symm.trans he
      | cases (args_afterFinalize ..).symm.trans he
      | cases (args_resume ..).symm.trans he

/-- Where the arguments of a new call come from. -/
theorem start_args {now : Nat} {c : Call} {e : Args} (he : (c.start now).1.args = some e) :
    (∃ http req, c = .uploadChunk http ∧ admitRequest http = .ok req ∧
      (e = .init (.uploadChunk req) req.initArgs ∧ req.chunkIndex = 0 ∨
        e = .write req.storageId req.call)) ∨
    (∃ a, c = .initFile a ∧ e = .init .direct a) ∨
    ∃ id chunkIndex data, c = .writeChunk id chunkIndex data ∧
      e = .write id ⟨.direct, chunkIndex, data⟩ := by
  unfold Call.start at he
  split at he
  · rename_i http
    split at he
    · cases he
    · rename_i req hreq
      left
      unfold ChunkRequest.start at he
      split at he
      · rename_i h0
        cases he
        exact ⟨http, req, rfl, hreq, .inl ⟨rfl, h0⟩⟩
      · cases he
        exact ⟨http, req, rfl, hreq, .inr rfl⟩
  · rename_i a
    cases he
    exact .inr (.inl ⟨a, rfl, rfl⟩)
  · rename_i id chunkIndex data
    cases he
    exact .inr (.inr ⟨id, chunkIndex, data, rfl, rfl⟩)
  · cases he
  · cases he
  · split at he <;> cases he
  · cases he

/-! ## Along runs -/

/-- Every call in progress has property `P`. -/
def Carries (P : Args → Prop) (s : System) : Prop := ∀ i e, (s.threads i).args = some e → P e

/-- Every call that a label starts has property `P`. -/
def Label.Starts (P : Args → Prop) (s : System) : Label → Prop
  | .call _ c => ∀ e, (c.start s.clock).1.args = some e → P e
  | _ => True

theorem Carries.step {P : Args → Prop} (h : Carries P s)
    (hP : ∀ req a, P (.init (.uploadChunk req) a) → P (.write req.storageId req.call))
    (hl : l.Starts P s) (hst : step cfg s l = some s') : Carries P s' := by
  cases step_spec hst with
  | call tid c hidle =>
    exact forall_update (P := fun _ pc => ∀ e, Pc.args pc = some e → P e) hl fun j _ => h j
  | run tid env out hmove =>
    refine forall_update (P := fun _ pc => ∀ e, Pc.args pc = some e → P e) ?_ fun j _ => h j
    intro e he
    rcases stepThread_args hmove he with ⟨he, -⟩ | ⟨req, a, hpc, rfl, -⟩
    · exact h tid e he
    · exact hP req a (h tid _ (by rw [hpc]; rfl))
  | tick => exact h

theorem carries_of_run {P : Args → Prop} {ok : System → Label → Prop}
    {files : Table ByteString DirEntry}
    (hP : ∀ req a, P (.init (.uploadChunk req) a) → P (.write req.storageId req.call))
    (hok : ∀ s l, ok s l → l.Starts P s)
    (hrun : Run (LocalMediaTransfer.step cfg) ok (.init files) s) : Carries P s :=
  hrun.invariant (by rintro i e ⟨⟩) fun _ _ _ h hl hst => h.step hP (hok _ _ hl) hst

end LocalMediaTransfer
