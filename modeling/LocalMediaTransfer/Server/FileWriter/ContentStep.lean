import LocalMediaTransfer.Server.FileWriter.Effects

/-!
# What a step does to the content of one file ID

The sections that move bytes of `X`, or the handle, the hash context or the published result that
go with them, are listed once.  Every other step leaves all of these alone.

* `ContentStep` — the list, with the shared state and the program counter after each section.
* `stepThread_content` — **a step is one of these**.
* `stepThread_files` — the destination only ever gains an entry under a free name.
-/

set_option autoImplicit false

namespace LocalMediaTransfer

open Lib

/-- The program counters whose local variables speak about the content or the result of `X`. -/
def Pc.tracked (X : ByteString) : Pc → Bool
  | .writeCopy _ r _ _ | .writeCommit _ r _ _ _ => r.fileId == X
  | .finalizeHash _ s _ | .finalizePublish _ s _ _ | .finalizeComplete _ s _
  | .finalizeRemember _ s _ => s.fileId == X
  | .abortCollect _ _ (.incomplete r) => r.fileId == X
  | .remember _ r => r.fileId == X
  | _ => false

/-- The events about bytes of `X`. -/
def Event.concerns (X : ByteString) : Event → Bool
  | .accepted r _ | .published r _ _ _ => r.fileId == X
  | _ => false

def Silent (X : ByteString) (events : List Event) : Prop := ∀ e ∈ events, e.concerns X = false

/-- Handle, temporary files and hash context of `X` are the same. -/
structure Untouched (X : ByteString) (w w' : Writer) : Prop where
  handle : w'.handles.lookup X = w.handles.lookup X
  temp : ∀ n, w'.temps ⟨X, n⟩ = w.temps ⟨X, n⟩
  hash : w'.hashContexts X = w.hashContexts X

variable {X : ByteString} {cfg : WriterConfig} {now i : Nat} {w w' : Writer} {pc : Pc}
  {env : StepEnv} {out : Writer × Pc × List Event}

theorem Untouched.of_eq (hh : w'.handles = w.handles) (ht : w'.temps = w.temps)
    (hc : w'.hashContexts = w.hashContexts) : Untouched X w w' :=
  ⟨by rw [hh], by simp [ht], by rw [hc]⟩

theorem Untouched.trans {w'' : Writer} (h₁ : Untouched X w w') (h₂ : Untouched X w' w'') :
    Untouched X w w'' :=
  ⟨h₂.handle.trans h₁.handle, fun n => (h₂.temp n).trans (h₁.temp n), h₂.hash.trans h₁.hash⟩

/-- Work on the handle, the temporary file or the hash context of another ID. -/
theorem Untouched.of_other {r : Ref} (hr : r.fileId ≠ X)
    (hh : w'.handles.lookup X = w.handles.lookup X) (ht : ∀ q, q ≠ r → w'.temps q = w.temps q)
    (hc : ∀ id, id ≠ r.fileId → w'.hashContexts id = w.hashContexts id) : Untouched X w w' :=
  ⟨hh, fun n => ht _ (ref_ne hr n), hc X (Ne.symm hr)⟩

/-! ## Where nothing happens -/

theorem Pc.tracked_mem_refs (h : pc.tracked X = true) : ∃ r ∈ pc.refs, r.fileId = X := by
  unfold Pc.tracked at h
  split at h <;> first
    | exact ⟨_, List.mem_cons_self .., beq_iff_eq.mp h⟩
    | cases h

theorem Pc.tracked_of_refs_nil (h : pc.refs = []) : pc.tracked X = false := by
  by_contra hne
  obtain ⟨r, hr, -⟩ := Pc.tracked_mem_refs (by simpa using hne)
  rw [h] at hr
  cases hr

theorem tracked_nextAbort (caller : Caller) (refs : List Ref) (count : Nat) (after : AfterAbort) :
    (nextAbort caller refs count after).1.tracked X = false := by
  cases refs with
  | nil => exact Pc.tracked_of_refs_nil (refs_afterAbort ..)
  | cons r rest => rfl

theorem tracked_nextExpire (refs : List Ref) : (nextExpire refs).1.tracked X = false := by
  cases refs <;> rfl

theorem tracked_resume (cont : Cont) (r : Ref) (v : Writer) (healthy : Bool) :
    (cont.resume r v healthy).2.1.tracked X = false := by
  unfold Cont.resume
  split
  · exact Pc.tracked_of_refs_nil (refs_afterFinalize ..)
  · exact Pc.tracked_of_refs_nil (refs_afterThrow ..)
  · exact tracked_nextAbort ..
  · exact tracked_nextExpire ..

theorem concerns_afterInit (caller : Caller) (a : InitArgs) (ok : Bool) :
    Silent X (caller.afterInit a ok).2 := by
  unfold Caller.afterInit
  split
  · simp [Silent, Event.concerns]
  · split <;> simp [Silent, Event.concerns]

theorem concerns_afterWrite (call : WriteCall) (id : ByteString) (status : ChunkWriteStatus) :
    Silent X (call.afterWrite id status).2 := by
  unfold WriteCall.afterWrite
  split
  · simp [Silent, Event.concerns]
  · cases status <;> simp only <;> try split
    all_goals simp [Silent, Event.concerns]

theorem concerns_afterFinalize (caller : Caller) (id : ByteString) (session : Option Ref)
    (result : FileFinalizeResult) (flag : Bool) :
    Silent X (caller.afterFinalize id session result flag).2 := by
  unfold Caller.afterFinalize
  split <;> simp [Silent, Event.concerns]

theorem concerns_nextAbort (caller : Caller) (refs : List Ref) (count : Nat) (after : AfterAbort) :
    Silent X (nextAbort caller refs count after).2 := by
  cases refs with
  | cons r rest => simp [Silent, nextAbort]
  | nil =>
    simp only [nextAbort, AfterAbort.resume]
    split
    · simp [Silent, Event.concerns]
    · exact concerns_afterWrite _ _ _
    · exact concerns_afterFinalize _ _ _ _ _
    · split <;> simp [Silent, Event.concerns]
    · simp [Silent]

theorem concerns_nextExpire (refs : List Ref) :
    Silent X (nextExpire refs).2 := by
  cases refs <;> simp [Silent, nextExpire, Event.concerns]

theorem concerns_resume (cont : Cont) (r : Ref) (v : Writer) (healthy : Bool) :
    Silent X (cont.resume r v healthy).2.2 := by
  unfold Cont.resume
  split
  · exact concerns_afterFinalize _ _ _ _ _
  · unfold Caller.afterThrow
    split <;> simp [Silent, Event.concerns]
  · exact concerns_nextAbort _ _ _ _
  · exact concerns_nextExpire _

/-! ## The list -/

/-- What a step of a thread at `pc` does to the content of `X`. -/
inductive ContentStep (X : ByteString) (cfg : WriterConfig) (now : Nat) (w : Writer) :
    Pc → Writer × Pc × List Event → Prop where
  /-- Nothing; a writer that gives up at its last section has lost its handle. -/
  | quiet {pc : Pc} {out : Writer × Pc × List Event} (untouched : Untouched X w out.1)
      (after : out.2.1.tracked X = false) (silent : Silent X out.2.2)
      (lost : ∀ call r target offset hashUpdated,
        pc = .writeCommit call r target offset hashUpdated → r.fileId = X →
        w.handles.lookup X = none) : ContentStep X cfg now w pc out
  | created (caller : Caller) (a : InitArgs) (ienv : InitEnv) (file : a.fileId = X)
      (valid : a.valid cfg = true) (inactive : w.handles.lookup X = none)
      (unknown : w.sessions.lookup X = none) :
      ContentStep X cfg now w (.initFile caller a)
        ((w.createSession now a ienv).1, caller.afterInit a (w.createSession now a ienv).2)
  | accepted (call : WriteCall) (r : Ref) (h : FileHandle) (file : r.fileId = X)
      (lookup : w.handles.lookup X = some h) (next : call.chunkIndex = h.chunksReceived)
      (fits : call.data.length ≤ sub64 h.totalSize h.bytesWritten) :
      ContentStep X cfg now w (.writeCheck call r)
        (w.updateState ⟨r.fileId, h.serial⟩ (fun st => { st with lastActivity := now }),
          .writeCopy call r h.serial h.bytesWritten, [])
  | copied (call : WriteCall) (r : Ref) (target offset : Nat) (ok : Bool) (file : r.fileId = X) :
      ContentStep X cfg now w (.writeCopy call r target offset)
        (((w.writeMappedRange ⟨r.fileId, target⟩ offset call.data).updateHash r.fileId
            call.data ok).1,
          .writeCommit call r target offset
            ((w.writeMappedRange ⟨r.fileId, target⟩ offset call.data).updateHash r.fileId
              call.data ok).2, [])
  | copyFailed (call : WriteCall) (r : Ref) (target offset written : Nat) (file : r.fileId = X) :
      ContentStep X cfg now w (.writeCopy call r target offset)
        ((w.writeMappedRange ⟨r.fileId, target⟩ offset (call.data.take written)).unlock r,
          .abortCollect call.caller (.byId r.fileId) (.storageError call r), [])
  | committed (call : WriteCall) (r : Ref) (target offset : Nat) (hashUpdated : Bool)
      (h : FileHandle) (file : r.fileId = X) (lookup : w.handles.lookup X = some h) :
      ContentStep X cfg now w (.writeCommit call r target offset hashUpdated)
        (({ w with handles :=
              w.handles.insert r.fileId (h.commitChunk call.data.length hashUpdated) }).unlock r,
          (call.afterWrite r.fileId .success).1,
          .accepted ⟨r.fileId, h.serial⟩ call.data :: (call.afterWrite r.fileId .success).2)
  | taken (caller : Caller) (r : Ref) (h : FileHandle) (file : r.fileId = X)
      (lookup : w.handles.lookup X = some h) (complete : h.isComplete = true) :
      ContentStep X cfg now w (.finalizeTake caller r)
        ((w.takeHandle r).unlock r, .finalizeHash caller r h, [])
  | incomplete (caller : Caller) (r : Ref) (h : FileHandle) (file : r.fileId = X)
      (lookup : w.handles.lookup X = some h) (incomplete : h.isComplete = false) :
      ContentStep X cfg now w (.finalizeTake caller r)
        (w.unlock r, .abortCollect caller (.byId r.fileId) (.incomplete r), [])
  | hashed (caller : Caller) (s : Ref) (h : FileHandle) (senv : StepEnv) (file : s.fileId = X)
      (nonempty : w.fullHash cfg s h senv ≠ []) :
      ContentStep X cfg now w (.finalizeHash caller s h)
        (w.abortHash s.fileId, .finalizePublish caller s h (w.fullHash cfg s h senv), [])
  | unhashed (caller : Caller) (s : Ref) (h : FileHandle) (file : s.fileId = X) :
      ContentStep X cfg now w (.finalizeHash caller s h)
        (w.abortHash s.fileId, .finalizeFail caller s none, [])
  | published (caller : Caller) (s : Ref) (h : FileHandle) (fullHash name : ByteString)
      (disposition : FileFinalizeDisposition) (p : Published) (clock : Nat) (file : s.fileId = X)
      (spec : PublishSpec cfg w h clock (w.temps ⟨s.fileId, h.serial⟩) fullHash p)
      (outcome : p.outcome = .done disposition name) :
      ContentStep X cfg now w (.finalizePublish caller s h fullHash)
        (w.setDisk ⟨s.fileId, h.serial⟩ p, .finalizeComplete caller s ⟨disposition, name, fullHash⟩,
          if disposition = .saved then
            [.published ⟨s.fileId, h.serial⟩ name ((w.temps ⟨s.fileId, h.serial⟩).getD [])
              (findEntry cfg w.files name)] else [])
  | unpublished (caller : Caller) (s : Ref) (h : FileHandle) (fullHash : ByteString)
      (thrown : Option String) (file : s.fileId = X) (v : Writer)
      (files : v.files = w.files) (states : v.states = w.states) (handles : v.handles = w.handles) :
      ContentStep X cfg now w (.finalizePublish caller s h fullHash)
        (v, .finalizeFail caller s thrown, [])
  | completed (caller : Caller) (s : Ref) (result : FileFinalizeResult) (file : s.fileId = X) :
      ContentStep X cfg now w (.finalizeComplete caller s result)
        (w.markCompleted s result, .finalizeRemember caller s result, [])
  | aborted (caller : Caller) (m : AbortMatch) (after : AfterAbort) (h : FileHandle) (count : Nat)
      (lookup : w.handles.lookup X = some h) (matching : w.aborts cfg m X h = true) :
      ContentStep X cfg now w (.abortCollect caller m after)
        (w.collectAborted cfg m, nextAbort caller (w.abortedRefs cfg m) count after)
  | closed (caller : Caller) (r : Ref) (rest : List Ref) (count : Nat) (after : AfterAbort)
      (file : r.fileId = X) :
      ContentStep X cfg now w (.abortClose caller r rest count after)
        ((w.abortHash r.fileId).markFailed r, .retire (.abortNext caller r rest count after) r, [])
  | released (cont : Cont) (r : Ref) (file : r.fileId = X)
      (charged : (w.states r).reserved = true) :
      ContentStep X cfg now w (.retire cont r) (w.release r, .remember cont r, [])

/-- A section that is not the last one of `writeChunk` and changes nothing of `X`. -/
theorem ContentStep.of_untouched (hu : Untouched X w out.1) (ha : out.2.1.tracked X = false)
    (hs : Silent X out.2.2)
    (hpc : ∀ call r target offset hashUpdated,
      pc ≠ .writeCommit call r target offset hashUpdated) : ContentStep X cfg now w pc out :=
  .quiet hu ha hs fun _ _ _ _ _ h => absurd h (hpc _ _ _ _ _)

theorem untouched_createSession {a : InitArgs} {ienv : InitEnv} (hne : a.fileId ≠ X) :
    Untouched X w (w.createSession now a ienv).1 := by
  unfold Writer.createSession
  simp only
  split
  · refine .of_other (r := ⟨a.fileId, w.nextSerial⟩) hne (AList.lookup_insert_ne (Ne.symm hne))
      (fun q hq => Function.update_of_ne hq ..) fun id hid => ?_
    simp only
    split
    · exact Function.update_of_ne hid ..
    · rfl
  · exact .of_other (r := ⟨a.fileId, w.nextSerial⟩) hne rfl
      (fun q hq => Function.update_of_ne hq ..) fun _ _ => rfl
  · exact .of_eq rfl rfl rfl

theorem untouched_updateHash {id data : ByteString} {ok : Bool} (hne : id ≠ X) :
    Untouched X w (w.updateHash id data ok).1 := by
  unfold Writer.updateHash
  split
  · exact .of_eq rfl rfl rfl
  · split
    · exact .of_other (r := ⟨id, 0⟩) hne rfl (fun _ _ => rfl)
        fun _ hid => Function.update_of_ne hid ..
    · exact .of_eq rfl rfl rfl

theorem untouched_writeMappedRange {r : Ref} {offset : Nat} {data : ByteString}
    (hne : r.fileId ≠ X) : Untouched X w (w.writeMappedRange r offset data) :=
  .of_other hne rfl (fun _ hq => Function.update_of_ne hq ..) fun _ _ => rfl

theorem untouched_abortHash {id : ByteString} (hne : id ≠ X) : Untouched X w (w.abortHash id) :=
  .of_other (r := ⟨id, 0⟩) hne rfl (fun _ _ => rfl) fun _ hid => Function.update_of_ne hid ..

theorem untouched_setDisk {t : Ref} {p : Published} (hne : t.fileId ≠ X) :
    Untouched X w (w.setDisk t p) :=
  .of_other hne rfl (fun _ hq => Function.update_of_ne hq ..) fun _ _ => rfl

theorem untouched_resume (cont : Cont) (r : Ref) (v : Writer) (healthy : Bool) :
    Untouched X v (cont.resume r v healthy).1 := by
  rcases resume_writer cont r v healthy with h | ⟨q, h⟩ <;> rw [h] <;> exact .of_eq rfl rfl rfl

theorem untouched_unlock? (held : Option Ref) : Untouched X w (w.unlock? held) := by
  cases held <;> exact .of_eq rfl rfl rfl

theorem untouched_collectAborted {m : AbortMatch}
    (h : ∀ h, w.handles.lookup X = some h → w.aborts cfg m X h = false) :
    Untouched X w (w.collectAborted cfg m) where
  handle := by
    rw [show (w.collectAborted cfg m).handles.lookup X =
      (w.handles.lookup X).filter fun h => !w.aborts cfg m X h from Table.lookup_filter ..]
    cases hl : w.handles.lookup X with
    | none => rfl
    | some g => simp [h g hl]
  temp := fun _ => rfl
  hash := rfl

theorem checkChunk_accept {h : FileHandle} {index size target offset : Nat}
    (hc : h.checkChunk index size = .accept target offset) :
    index = h.chunksReceived ∧ size ≤ sub64 h.totalSize h.bytesWritten ∧ target = h.serial ∧
      offset = h.bytesWritten := by
  unfold FileHandle.checkChunk at hc
  split at hc
  · split at hc <;> cases hc
  · split at hc
    · cases hc
    · split at hc
      · cases hc
      · rename_i hindex hsize
        cases hc
        exact ⟨not_not.mp hindex, Nat.le_of_not_lt hsize, rfl, rfl⟩

theorem silent_nil : Silent X [] := by simp [Silent]

theorem tracked_afterWrite (call : WriteCall) (id : ByteString) (status : ChunkWriteStatus) :
    (call.afterWrite id status).1.tracked X = false :=
  Pc.tracked_of_refs_nil (refs_afterWrite ..)

theorem tracked_afterFinalize (caller : Caller) (id : ByteString) (session : Option Ref)
    (result : FileFinalizeResult) (flag : Bool) :
    (caller.afterFinalize id session result flag).1.tracked X = false :=
  Pc.tracked_of_refs_nil (refs_afterFinalize ..)

theorem content_initFile {caller : Caller} {a : InitArgs}
    (hst : stepThread cfg now i w (.initFile caller a) env = some out) :
    ContentStep X cfg now w (.initFile caller a) out := by
  obtain rfl := Option.some.inj hst
  have hspec := initFile_spec cfg w now a env.init
  have hquiet : ∀ ok, ContentStep X cfg now w (.initFile caller a) (w, caller.afterInit a ok) :=
    fun ok => .of_untouched (.of_eq rfl rfl rfl) (Pc.tracked_of_refs_nil (refs_afterInit ..))
      (concerns_afterInit _ _ _) (by simp)
  generalize w.initFile cfg now a env.init = res at hspec
  cases hspec with
  | create hvalid hinactive hunknown _ =>
    by_cases hX : a.fileId = X
    · rw [hX] at hinactive hunknown
      exact .created caller a env.init hX hvalid hinactive hunknown
    · exact .of_untouched (untouched_createSession hX)
        (Pc.tracked_of_refs_nil (refs_afterInit ..)) (concerns_afterInit _ _ _) (by simp)
  | _ => exact hquiet _

theorem content_writeLookup {call : WriteCall} {id : ByteString}
    (hst : stepThread cfg now i w (.writeLookup call id) env = some out) :
    ContentStep X cfg now w (.writeLookup call id) out := by
  simp only [stepThread] at hst
  split at hst
  · cases hst
    exact .of_untouched (.of_eq rfl rfl rfl) rfl silent_nil (by simp)
  · split at hst <;> cases hst
    · exact .of_untouched (.of_eq rfl rfl rfl) rfl silent_nil (by simp)
    · exact .of_untouched (.of_eq rfl rfl rfl) (tracked_afterWrite ..)
        (concerns_afterWrite _ _ _) (by simp)

theorem content_writeCheck {call : WriteCall} {r : Ref}
    (hst : stepThread cfg now i w (.writeCheck call r) env = some out) :
    ContentStep X cfg now w (.writeCheck call r) out := by
  simp only [stepThread] at hst
  split at hst
  · rename_i h hl
    split at hst <;> cases hst
    · exact .of_untouched (.of_eq rfl rfl rfl) (tracked_afterWrite ..)
        (concerns_afterWrite _ _ _) (by simp)
    · rename_i hc
      obtain ⟨hnext, hfits, rfl, rfl⟩ := checkChunk_accept hc
      by_cases hX : r.fileId = X
      · rw [hX] at hl
        exact .accepted call r h hX hl hnext hfits
      · exact .of_untouched (.of_eq rfl rfl rfl) (by simp [Pc.tracked, hX]) silent_nil (by simp)
  · split at hst <;> cases hst
    · exact .of_untouched (.of_eq rfl rfl rfl) rfl silent_nil (by simp)
    · exact .of_untouched (.of_eq rfl rfl rfl) (tracked_afterWrite ..)
        (concerns_afterWrite _ _ _) (by simp)

theorem content_writeCopy {call : WriteCall} {r : Ref} {target offset : Nat}
    (hst : stepThread cfg now i w (.writeCopy call r target offset) env = some out) :
    ContentStep X cfg now w (.writeCopy call r target offset) out := by
  simp only [stepThread] at hst
  split at hst <;> cases hst
  · rename_i written _
    by_cases hX : r.fileId = X
    · exact .copyFailed call r target offset written hX
    · exact .of_untouched ((untouched_writeMappedRange (r := ⟨r.fileId, target⟩) hX).trans
        (.of_eq rfl rfl rfl)) rfl silent_nil (by simp)
  · by_cases hX : r.fileId = X
    · exact .copied call r target offset env.hashUpdated hX
    · exact .of_untouched ((untouched_writeMappedRange (r := ⟨r.fileId, target⟩) hX).trans
        (untouched_updateHash hX)) (by simp [Pc.tracked, hX]) silent_nil (by simp)

theorem content_writeCommit {call : WriteCall} {r : Ref} {target offset : Nat} {hashUpdated : Bool}
    (hst : stepThread cfg now i w (.writeCommit call r target offset hashUpdated) env = some out) :
    ContentStep X cfg now w (.writeCommit call r target offset hashUpdated) out := by
  simp only [stepThread] at hst
  split at hst <;> cases hst
  · rename_i h hl
    by_cases hX : r.fileId = X
    · rw [hX] at hl
      exact .committed call r target offset hashUpdated h hX hl
    · refine .quiet ⟨AList.lookup_insert_ne (Ne.symm hX), fun _ => rfl, rfl⟩
        (tracked_afterWrite ..) ?_ ?_
      · intro e he
        rcases List.mem_cons.mp he with rfl | he
        · simp [Event.concerns, hX]
        · exact concerns_afterWrite _ _ _ e he
      · rintro _ _ _ _ _ ⟨⟩ h
        exact absurd h hX
  · rename_i hl
    refine .quiet (.of_eq rfl rfl rfl) (tracked_afterWrite ..) (concerns_afterWrite _ _ _) ?_
    rintro _ _ _ _ _ ⟨⟩ rfl
    exact hl

theorem content_writeWait {call : WriteCall} {held : Option Ref} {q : Ref}
    (hst : stepThread cfg now i w (.writeWait call held q) env = some out) :
    ContentStep X cfg now w (.writeWait call held q) out := by
  simp only [stepThread] at hst
  split at hst
  · cases hst
    exact .of_untouched (untouched_unlock? _) (tracked_afterWrite ..)
      (concerns_afterWrite _ _ _) (by simp)
  · split at hst
    · cases hst
      exact .of_untouched (untouched_unlock? _) (tracked_afterWrite ..)
        (concerns_afterWrite _ _ _) (by simp)
    · split at hst <;> cases hst
      exact .of_untouched (untouched_unlock? _) (tracked_afterWrite ..)
        (concerns_afterWrite _ _ _) (by simp)

theorem content_finalizeLookup {caller : Caller} {id : ByteString}
    (hst : stepThread cfg now i w (.finalizeLookup caller id) env = some out) :
    ContentStep X cfg now w (.finalizeLookup caller id) out := by
  simp only [stepThread] at hst
  split at hst
  · cases hst
    exact .of_untouched (.of_eq rfl rfl rfl) rfl silent_nil (by simp)
  · split at hst <;> cases hst
    · exact .of_untouched (.of_eq rfl rfl rfl) rfl silent_nil (by simp)
    · exact .of_untouched (.of_eq rfl rfl rfl) (tracked_afterFinalize ..)
        (concerns_afterFinalize _ _ _ _ _)
        (by simp)

theorem content_finalizeTake {caller : Caller} {r : Ref}
    (hst : stepThread cfg now i w (.finalizeTake caller r) env = some out) :
    ContentStep X cfg now w (.finalizeTake caller r) out := by
  simp only [stepThread] at hst
  split at hst
  · rename_i h hl
    split at hst <;> cases hst
    · rename_i hcomplete
      by_cases hX : r.fileId = X
      · rw [hX] at hl
        exact .taken caller r h hX hl hcomplete
      · exact .of_untouched ⟨AList.lookup_erase_ne (Ne.symm hX), fun _ => rfl, rfl⟩
          (by simp [Pc.tracked, hX]) silent_nil (by simp)
    · rename_i hcomplete
      by_cases hX : r.fileId = X
      · rw [hX] at hl
        exact .incomplete caller r h hX hl (by simpa using hcomplete)
      · exact .of_untouched (.of_eq rfl rfl rfl) (by simp [Pc.tracked, hX]) silent_nil (by simp)
  · split at hst <;> cases hst
    · exact .of_untouched (.of_eq rfl rfl rfl) rfl silent_nil (by simp)
    · exact .of_untouched (.of_eq rfl rfl rfl) (tracked_afterFinalize ..)
        (concerns_afterFinalize _ _ _ _ _)
        (by simp)

theorem content_finalizeWait {caller : Caller} {q : Ref}
    (hst : stepThread cfg now i w (.finalizeWait caller q) env = some out) :
    ContentStep X cfg now w (.finalizeWait caller q) out := by
  simp only [stepThread] at hst
  split at hst
  · cases hst
    exact .of_untouched (.of_eq rfl rfl rfl) (tracked_afterFinalize ..)
      (concerns_afterFinalize _ _ _ _ _)
      (by simp)
  · split at hst
    · cases hst
      exact .of_untouched (.of_eq rfl rfl rfl) (tracked_afterFinalize ..)
        (concerns_afterFinalize _ _ _ _ _)
        (by simp)
    · split at hst <;> cases hst
      exact .of_untouched (.of_eq rfl rfl rfl) (tracked_afterFinalize ..)
        (concerns_afterFinalize _ _ _ _ _)
        (by simp)

theorem content_finalizeHash {caller : Caller} {s : Ref} {h : FileHandle}
    (hst : stepThread cfg now i w (.finalizeHash caller s h) env = some out) :
    ContentStep X cfg now w (.finalizeHash caller s h) out := by
  simp only [stepThread] at hst
  by_cases hX : s.fileId = X
  · split at hst
    · cases hst
      exact .unhashed caller s h hX
    · split at hst <;> cases hst
      · exact .unhashed caller s h hX
      · rename_i hne
        exact .hashed caller s h env hX (by simpa using hne)
  · split at hst
    · cases hst
      exact .of_untouched (untouched_abortHash hX) rfl silent_nil (by simp)
    · split at hst <;> cases hst
      · exact .of_untouched (untouched_abortHash hX) rfl silent_nil (by simp)
      · exact .of_untouched (untouched_abortHash hX) (by simp [Pc.tracked, hX]) silent_nil (by simp)

theorem content_finalizePublish {caller : Caller} {s : Ref} {h : FileHandle} {fullHash : ByteString}
    (hst : stepThread cfg now i w (.finalizePublish caller s h fullHash) env = some out) :
    ContentStep X cfg now w (.finalizePublish caller s h fullHash) out := by
  have hspec := publish_cases cfg w env.publish h (w.temps ⟨s.fileId, h.serial⟩) fullHash
  simp only [stepThread] at hst
  by_cases hX : s.fileId = X
  · split at hst <;> cases hst
    · rename_i disposition name houtcome
      exact .published caller s h fullHash name disposition _ _ hX hspec houtcome
    · rename_i houtcome
      exact .unpublished caller s h fullHash none hX _ (hspec.files_eq (by simp [houtcome])) rfl
        rfl
    · rename_i what houtcome
      exact .unpublished caller s h fullHash (some what) hX _
        (hspec.files_eq (by simp [houtcome])) rfl rfl
  · split at hst <;> cases hst
    · refine .of_untouched (untouched_setDisk hX) (by simp [Pc.tracked, hX]) ?_ (by simp)
      intro e he
      simp only at he
      split at he
      · obtain rfl := List.mem_singleton.mp he
        simp [Event.concerns, hX]
      · cases he
    · exact .of_untouched (untouched_setDisk hX) rfl silent_nil (by simp)
    · exact .of_untouched ((untouched_setDisk (t := ⟨s.fileId, h.serial⟩) hX).trans
        (untouched_abortHash hX)) rfl silent_nil (by simp)

theorem content_abortCollect {caller : Caller} {m : AbortMatch} {after : AfterAbort}
    (hst : stepThread cfg now i w (.abortCollect caller m after) env = some out) :
    ContentStep X cfg now w (.abortCollect caller m after) out := by
  cases hst
  by_cases htaken : ∃ h, w.handles.lookup X = some h ∧ w.aborts cfg m X h = true
  · obtain ⟨h, hl, ha⟩ := htaken
    exact .aborted caller m after h _ hl ha
  · refine .of_untouched (untouched_collectAborted fun h hl => ?_) (tracked_nextAbort ..)
      (concerns_nextAbort _ _ _ _) (by simp)
    by_contra ha
    exact htaken ⟨h, hl, by simpa using ha⟩

theorem content_retire {cont : Cont} {r : Ref}
    (hst : stepThread cfg now i w (.retire cont r) env = some out) :
    ContentStep X cfg now w (.retire cont r) out := by
  simp only [stepThread] at hst
  split at hst <;> cases hst
  · rename_i hr
    by_cases hX : r.fileId = X
    · exact .released cont r hX (Bool.and_eq_true_iff.mp hr).1
    · exact .of_untouched (.of_other hX rfl (fun _ hq => Function.update_of_ne hq ..)
        fun _ _ => rfl) (by simp [Pc.tracked, hX]) silent_nil (by simp)
  · exact .of_untouched (untouched_resume ..) (tracked_resume ..) (concerns_resume _ _ _ _)
      (by simp)

/-- **A step is one of these.** -/
theorem stepThread_content (X : ByteString) (hst : stepThread cfg now i w pc env = some out) :
    ContentStep X cfg now w pc out := by
  cases pc with
  | idle => cases hst
  | initFile => exact content_initFile hst
  | writeLookup => exact content_writeLookup hst
  | writeCheck => exact content_writeCheck hst
  | writeCopy => exact content_writeCopy hst
  | writeCommit => exact content_writeCommit hst
  | writeWait => exact content_writeWait hst
  | finalizeLookup => exact content_finalizeLookup hst
  | finalizeTake => exact content_finalizeTake hst
  | finalizeWait => exact content_finalizeWait hst
  | finalizeHash => exact content_finalizeHash hst
  | finalizePublish => exact content_finalizePublish hst
  | finalizeComplete caller s result =>
    cases hst
    by_cases hX : s.fileId = X
    · exact .completed caller s result hX
    · exact .of_untouched (.of_eq rfl rfl rfl) (by simp [Pc.tracked, hX]) silent_nil (by simp)
  | finalizeRemember caller s result =>
    cases hst
    exact .of_untouched (.of_eq rfl rfl rfl) (tracked_afterFinalize ..)
      (concerns_afterFinalize _ _ _ _ _)
      (by simp)
  | abortCollect => exact content_abortCollect hst
  | abortClose caller r rest count after =>
    cases hst
    by_cases hX : r.fileId = X
    · exact .closed caller r rest count after hX
    · exact .of_untouched ((untouched_abortHash hX).trans
        (.of_eq rfl rfl rfl)) rfl silent_nil (by simp)
  | retire => exact content_retire hst
  | remember cont r =>
    cases hst
    have hremember : Untouched X w (w.rememberCompletedSessionLocked r.fileId) :=
      .of_eq rfl rfl rfl
    exact .of_untouched (hremember.trans (untouched_resume ..)) (tracked_resume ..)
      (concerns_resume _ _ _ _) (by simp)
  | expireCollect =>
    cases hst
    exact .of_untouched (.of_eq rfl rfl rfl) (tracked_nextExpire ..) (concerns_nextExpire _)
      (by simp)
  | finalizeFail caller s thrown =>
    cases hst
    exact .of_untouched (.of_eq rfl rfl rfl) rfl silent_nil (by simp)
  | _ =>
    simp only [stepThread] at hst
    split at hst <;> cases hst
    exact .of_untouched (.of_eq rfl rfl rfl) rfl silent_nil (by simp)

/-! ## Reading the list -/

theorem lookup_collectAborted {m : AbortMatch} {h : FileHandle}
    (hl : w.handles.lookup X = some h) (ha : w.aborts cfg m X h = true) :
    (w.collectAborted cfg m).handles.lookup X = none := by
  rw [show (w.collectAborted cfg m).handles.lookup X =
    (w.handles.lookup X).filter fun h => !w.aborts cfg m X h from Table.lookup_filter .., hl]
  simp [ha]

theorem updateHash_handles (w : Writer) (id data : ByteString) (ok : Bool) :
    (w.updateHash id data ok).1.handles = w.handles := by
  unfold Writer.updateHash
  split
  · rfl
  · split <;> rfl

/-- **Handles**: where the handle of `X` after a step comes from. -/
theorem ContentStep.handle_cases (h : ContentStep X cfg now w pc out) {g : FileHandle}
    (hg : out.1.handles.lookup X = some g) :
    w.handles.lookup X = some g ∨
      (∃ call r target offset hashUpdated g₀, pc = .writeCommit call r target offset hashUpdated ∧
        r.fileId = X ∧ w.handles.lookup X = some g₀ ∧
        g = g₀.commitChunk call.data.length hashUpdated) ∨
      ∃ caller a ienv, pc = .initFile caller a ∧ a.fileId = X ∧ a.valid cfg = true ∧
        w.handles.lookup X = none ∧ w.sessions.lookup X = none ∧
        out.1 = (w.createSession now a ienv).1 := by
  cases h with
  | quiet hu => exact .inl (hu.handle ▸ hg)
  | created caller a ienv hfile hvalid hinactive hunknown =>
    exact .inr (.inr ⟨caller, a, ienv, rfl, hfile, hvalid, hinactive, hunknown, rfl⟩)
  | copied =>
    rw [updateHash_handles] at hg
    exact .inl hg
  | committed call r target offset hashUpdated g₀ hfile hl =>
    subst hfile
    refine .inr (.inl ⟨call, r, target, offset, hashUpdated, g₀, rfl, rfl, hl, ?_⟩)
    exact (Option.some.inj ((AList.lookup_insert _).symm.trans hg)).symm
  | taken caller r g₀ hfile hl =>
    subst hfile
    cases (AList.lookup_erase _ _).symm.trans hg
  | unpublished _ _ _ _ _ _ _ _ _ hhandles =>
    simp only [hhandles] at hg
    exact .inl hg
  | aborted caller m after g₀ count hl ha => cases (lookup_collectAborted hl ha).symm.trans hg
  | _ => exact .inl hg

/-- **Accepted chunks**: only the last section of `writeChunk` counts one. -/
theorem stepThread_accepted (hst : stepThread cfg now i w pc env = some out) {r : Ref}
    {data : ByteString} (he : .accepted r data ∈ out.2.2) :
    ∃ call q target offset hashUpdated h, pc = .writeCommit call q target offset hashUpdated ∧
      q.fileId = r.fileId ∧ w.handles.lookup r.fileId = some h ∧ h.serial = r.serial ∧
      data = call.data := by
  have hstep := stepThread_content r.fileId hst
  cases hstep with
  | quiet _ _ hsilent => simpa [Event.concerns] using hsilent _ he
  | created caller a ienv =>
    simpa [Event.concerns] using concerns_afterInit (X := r.fileId) _ _ _ _ he
  | committed call q target offset hashUpdated h hfile hl =>
    rcases List.mem_cons.mp he with he | he
    · cases he
      exact ⟨call, q, target, offset, hashUpdated, h, rfl, hfile, hl, rfl, rfl⟩
    · simpa [Event.concerns] using concerns_afterWrite (X := r.fileId) _ _ _ _ he
  | published =>
    simp only at he
    split at he <;> simp at he
  | aborted => simpa [Event.concerns] using concerns_nextAbort (X := r.fileId) _ _ _ _ _ he
  | _ => cases he

/-- **The destination** only ever gains an entry, under a free name. -/
theorem stepThread_files (hst : stepThread cfg now i w pc env = some out) :
    out.1.files = w.files ∨ ∃ name entry, findEntry cfg w.files name = none ∧
      out.1.files = w.files.insert (cfg.nameKey name) entry := by
  have hresume : ∀ (cont : Cont) r v healthy, (cont.resume r v healthy).1.files = v.files := by
    intro cont r v healthy
    rcases resume_writer cont r v healthy with h | ⟨q, h⟩ <;> rw [h]
    rfl
  cases pc with
  | initFile caller a =>
    obtain rfl := Option.some.inj hst
    have hspec := initFile_spec cfg w now a env.init
    left
    simp only
    generalize w.initFile cfg now a env.init = res at hspec
    cases hspec with
    | create =>
      unfold Writer.createSession
      simp only
      split <;> rfl
    | _ => rfl
  | writeCopy call r target offset =>
    simp only [stepThread] at hst
    left
    split at hst <;> cases hst
    · rfl
    · unfold Writer.updateHash
      split
      · rfl
      · split <;> rfl
  | writeWait call held q =>
    have hu : ∀ held, (w.unlock? held).files = w.files := by
      intro held
      cases held <;> rfl
    simp only [stepThread] at hst
    left
    split at hst
    · cases hst
      exact hu _
    · split at hst
      · cases hst
        exact hu _
      · split at hst <;> cases hst
        exact hu _
  | finalizePublish caller s h fullHash =>
    have hspec := publish_cases cfg w env.publish h (w.temps ⟨s.fileId, h.serial⟩) fullHash
    have hfiles : out.1.files =
        (w.publish cfg env.publish h (w.temps ⟨s.fileId, h.serial⟩) fullHash).files := by
      simp only [stepThread] at hst
      split at hst <;> cases hst <;> rfl
    rw [hfiles]
    cases hspec with
    | saved name bytes _ _ hfree hfiles => exact .inr ⟨name, _, hfree, hfiles⟩
    | duplicate _ _ _ hfiles => exact .inl hfiles
    | nameConflict _ _ _ hfiles => exact .inl hfiles
    | failed _ hfiles => exact .inl hfiles
  | retire cont r =>
    simp only [stepThread] at hst
    left
    split at hst <;> cases hst
    · rfl
    · exact hresume ..
  | remember cont r =>
    cases hst
    exact .inl (hresume ..)
  | _ =>
    simp only [stepThread] at hst
    left
    repeat' split at hst
    all_goals cases hst
    all_goals rfl

theorem files_persist (hst : stepThread cfg now i w pc env = some out) {key : ByteString}
    {entry : DirEntry} (he : w.files.lookup key = some entry) :
    out.1.files.lookup key = some entry := by
  rcases stepThread_files hst with h | ⟨name, entry', hfree, h⟩
  · rw [h]
    exact he
  · rw [h]
    refine (AList.lookup_insert_ne ?_).trans he
    rintro rfl
    cases hfree.symm.trans he

/-- A publication puts the file under a free name. -/
theorem stepThread_published_file (hst : stepThread cfg now i w pc env = some out) {r : Ref}
    {name bytes : ByteString} {replaced : Option DirEntry}
    (he : .published r name bytes replaced ∈ out.2.2) :
    findEntry cfg out.1.files name = some ⟨name, some bytes⟩ ∧ replaced = none := by
  cases stepThread_content r.fileId hst with
  | quiet _ _ hsilent => simpa [Event.concerns] using hsilent _ he
  | created => simpa [Event.concerns] using concerns_afterInit (X := r.fileId) _ _ _ _ he
  | committed =>
    rcases List.mem_cons.mp he with he | he
    · cases he
    · simpa [Event.concerns] using concerns_afterWrite (X := r.fileId) _ _ _ _ he
  | published caller q g fullHash name' disposition p clock hX hspec houtcome =>
    simp only at he
    split at he
    · rename_i hsaved
      subst hsaved
      cases List.mem_singleton.mp he
      cases hspec with
      | saved name' bytes hout hready hfree hfiles _ =>
        cases hout.symm.trans houtcome
        refine ⟨?_, hfree⟩
        rw [findEntry, Writer.setDisk, hfiles, hready]
        exact AList.lookup_insert _
      | duplicate _ hout => cases hout.symm.trans houtcome
      | nameConflict hout => cases hout.symm.trans houtcome
      | failed hout =>
        rw [houtcome] at hout
        rcases hout with hout | ⟨what, hout⟩ <;> cases hout
    · cases he
  | aborted => simpa [Event.concerns] using concerns_nextAbort (X := r.fileId) _ _ _ _ _ he
  | _ => cases he

end LocalMediaTransfer
