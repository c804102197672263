import LocalMediaTransfer.Server.FileWriter.ContentStep

/-!
# The content of a session

What the temporary file, the counters, the streaming hash and the history of accepted chunks of
one file ID have to do with each other, in every state of every run.

* `Fresh` — serial numbers are new when they are handed out.
* `Received` — the file of a handle starts with exactly the chunks counted for it.
* `Busy` — what a thread in `writeChunk` or `finalizeFileResult` may rely on.
* `Content.step`, `content_of_run` — the invariant.
-/

set_option autoImplicit false

namespace LocalMediaTransfer

open Lib

variable {X : ByteString} {cfg : WriterConfig} {s s' : System} {l : Label}

/-! ## The history of accepted chunks -/

/-- The chunks counted for session `r`, in order. -/
def acceptedChunks (log : List Event) (r : Ref) : List ByteString :=
  log.filterMap fun e =>
    match e with
    | .accepted q data => if q = r then some data else none
    | _ => none

def acceptedBytes (log : List Event) (r : Ref) : ByteString := (acceptedChunks log r).flatten

theorem acceptedChunks_append (log log' : List Event) (r : Ref) :
    acceptedChunks (log ++ log') r = acceptedChunks log r ++ acceptedChunks log' r :=
  List.filterMap_append

theorem acceptedChunks_eq_nil {log : List Event} {r : Ref}
    (h : ∀ data, Event.accepted r data ∉ log) : acceptedChunks log r = [] := by
  refine List.filterMap_eq_nil_iff.mpr fun e he => ?_
  split
  · rename_i q data
    split
    · rename_i hq
      subst hq
      exact absurd he (h data)
    · rfl
  · rfl

theorem acceptedChunks_silent {log events : List Event} (h : Silent X events) (n : Nat) :
    acceptedChunks (log ++ events) ⟨X, n⟩ = acceptedChunks log ⟨X, n⟩ := by
  have hnil : acceptedChunks events ⟨X, n⟩ = [] := by
    refine acceptedChunks_eq_nil fun data he => ?_
    simpa [Event.concerns] using h _ he
  rw [acceptedChunks_append, hnil, List.append_nil]

theorem silent_evictions (w w' : Writer) : Silent X (evictions w w') := by
  intro e he
  obtain ⟨id, -, rfl⟩ := List.mem_map.mp he
  rfl

theorem silent_start (now : Nat) (c : Call) : Silent X (c.start now).2 := by
  intro e he
  rcases start_events he with ⟨_, rfl⟩ | ⟨_, rfl⟩ <;> rfl

/-! ## Serial numbers -/

/-- Every serial number in use was handed out. -/
structure Fresh (s : System) : Prop where
  sessions : ∀ id n, s.writer.sessions.lookup id = some n → n < s.writer.nextSerial
  handles : ∀ id h, s.writer.handles.lookup id = some h → h.serial < s.writer.nextSerial
  refs : ∀ i, ∀ r ∈ (s.threads i).refs, r.serial < s.writer.nextSerial
  accepted : ∀ r data, .accepted r data ∈ s.log → r.serial < s.writer.nextSerial
  completed : ∀ r, (s.writer.states r).completed = true → r.serial < s.writer.nextSerial

theorem Fresh.init (files : Table ByteString DirEntry) : Fresh (.init files) where
  sessions := by rintro id n ⟨⟩
  handles := by rintro id h ⟨⟩
  refs := by rintro i r ⟨⟩
  accepted := by rintro r data ⟨⟩
  completed := by rintro r ⟨⟩

theorem createSession_nextSerial (w : Writer) (now : Nat) (a : InitArgs) (ienv : InitEnv) :
    (w.createSession now a ienv).1.nextSerial = w.nextSerial + 1 := by
  unfold Writer.createSession
  simp only
  split <;> rfl

theorem createSession_lookup {w : Writer} {now n : Nat} {a : InitArgs} {ienv : InitEnv}
    {id : ByteString} (h : (w.createSession now a ienv).1.sessions.lookup id = some n) :
    n = w.nextSerial ∧ id = a.fileId ∨ w.sessions.lookup id = some n := by
  have hres : ∀ m, (w.reserve now a).sessions.lookup id = some m →
      m = w.nextSerial ∧ id = a.fileId ∨ w.sessions.lookup id = some m := by
    intro m hm
    simp only [Writer.reserve] at hm
    by_cases hid : id = a.fileId
    · subst hid
      rw [AList.lookup_insert] at hm
      exact .inl ⟨(Option.some.inj hm).symm, rfl⟩
    · rw [AList.lookup_insert_ne hid] at hm
      exact .inr hm
  unfold Writer.createSession at h
  simp only at h
  split at h
  · exact hres n h
  · exact hres n h
  · obtain ⟨dropped, -, hs⟩ := rememberCompletedSessionLocked_spec
      ((w.reserve now a).updateState ⟨a.fileId, w.nextSerial⟩ fun st =>
        { st with failed := true, reserved := false }) a.fileId
    rw [hs] at h
    split at h
    · cases h
    · exact hres n h

theorem createSession_metadata (w : Writer) (now : Nat) (a : InitArgs) (ienv : InitEnv) :
    ((w.createSession now a ienv).1.states ⟨a.fileId, w.nextSerial⟩).metadata =
      (a.originalName, a.totalSize, a.totalChunks, a.skipExactDuplicates) := by
  unfold Writer.createSession
  simp only
  split <;> simp [Writer.reserve, Writer.updateState, Writer.rememberCompletedSessionLocked,
    FinalizationState.metadata, InitArgs.state]

theorem createSession_handle {w : Writer} {now : Nat} {a : InitArgs} {ienv : InitEnv}
    {h : FileHandle} (hinactive : w.handles.lookup a.fileId = none)
    (hl : (w.createSession now a ienv).1.handles.lookup a.fileId = some h) :
    h = a.handle w.nextSerial ienv.beginHash ∧
      (w.createSession now a ienv).1.temps ⟨a.fileId, w.nextSerial⟩ =
        some (List.replicate a.totalSize 0) ∧
      (ienv.beginHash = true →
        (w.createSession now a ienv).1.hashContexts a.fileId = some []) := by
  unfold Writer.createSession at hl ⊢
  simp only at hl ⊢
  split at hl
  · rw [AList.lookup_insert] at hl
    refine ⟨(Option.some.inj hl).symm, Function.update_self .., fun hb => ?_⟩
    rw [if_pos hb]
    exact Function.update_self ..
  · cases hinactive.symm.trans hl
  · cases hinactive.symm.trans hl

theorem Fresh.stepThread {tid : Nat} {env : StepEnv} {out : Writer × Pc × List Event} (h : Fresh s)
    (hmove : stepThread cfg s.clock tid s.writer (s.threads tid) env = some out) :
    Fresh
      { s with
        writer := out.1
        threads := Function.update s.threads tid out.2.1
        log := s.log ++ out.2.2 ++ evictions s.writer out.1 } := by
  have hmono : s.writer.nextSerial ≤ out.1.nextSerial := by
    cases stepThread_sessionTable hmove with
    | same _ hn => exact hn.ge
    | recorded _ _ _ hn => exact hn.ge
    | created caller a _ _ _ _ hw =>
      rw [hw, createSession_nextSerial]
      omega
  have hself : ∀ r ∈ out.2.1.refs, r.serial < s.writer.nextSerial := by
    intro r hr
    rcases stepThread_refs hmove hr with hr | ⟨g, hg, hser⟩ | hn
    · exact h.refs tid r hr
    · rw [← hser]
      exact h.handles _ g hg
    · exact h.sessions _ _ hn
  refine ⟨?_, ?_, ?_, ?_, ?_⟩
  · show ∀ id n, out.1.sessions.lookup id = some n → n < out.1.nextSerial
    intro id n hn
    cases stepThread_sessionTable hmove with
    | same hs _ =>
      rw [hs] at hn
      exact (h.sessions id n hn).trans_le hmono
    | recorded r _ hs _ =>
      obtain ⟨dropped, -, hs'⟩ := rememberCompletedSessionLocked_spec s.writer r.fileId
      rw [hs, hs'] at hn
      split at hn
      · cases hn
      · exact (h.sessions id n hn).trans_le hmono
    | created caller a _ _ _ _ hw =>
      rw [hw] at hn
      rcases createSession_lookup hn with ⟨rfl, -⟩ | hn
      · rw [hw, createSession_nextSerial]
        exact Nat.lt_succ_self _
      · exact (h.sessions id n hn).trans_le hmono
  · show ∀ id g, out.1.handles.lookup id = some g → g.serial < out.1.nextSerial
    intro id g hg
    rcases (stepThread_content id hmove).handle_cases hg with
      hg | ⟨_, _, _, _, _, g₀, _, _, hg₀, rfl⟩ | ⟨caller, a, ienv, _, hfile, _, hinactive, _, hw⟩
    · exact (h.handles id g hg).trans_le hmono
    · exact (h.handles id g₀ hg₀).trans_le hmono
    · subst hfile
      rw [hw] at hg ⊢
      rw [(createSession_handle hinactive hg).1, createSession_nextSerial]
      exact Nat.lt_succ_self _
  · exact forall_update (P := fun _ pc => ∀ r ∈ pc.refs, Ref.serial r < out.1.nextSerial)
      (fun r hr => (hself r hr).trans_le hmono) fun j _ r hr => (h.refs j r hr).trans_le hmono
  · intro r data he
    rcases List.mem_append.mp he with he | he
    · rcases List.mem_append.mp he with he | he
      · exact (h.accepted r data he).trans_le hmono
      · obtain ⟨_, _, _, _, _, g, _, _, hg, hser, _⟩ := stepThread_accepted hmove he
        rw [← hser]
        exact (h.handles _ g hg).trans_le hmono
    · obtain ⟨id, -, hid⟩ := List.mem_map.mp he
      cases hid
  · show ∀ r, (out.1.states r).completed = true → r.serial < out.1.nextSerial
    intro r hr
    have heff := stepThread_states hmove r
    generalize out.1.states r = st at heff hr
    cases heff with
    | created => cases hr
    | completed caller result hpc =>
      exact (h.refs tid r (by rw [hpc]; exact List.mem_singleton.mpr rfl)).trans_le hmono
    | _ => exact (h.completed r hr).trans_le hmono

theorem Fresh.step (h : Fresh s) (hst : step cfg s l = some s') : Fresh s' := by
  cases step_spec hst with
  | call tid c hidle =>
    refine ⟨h.sessions, h.handles, ?_, ?_, h.completed⟩
    · refine forall_update (P := fun _ pc => ∀ r ∈ pc.refs, Ref.serial r < s.writer.nextSerial) ?_
        fun j _ => h.refs j
      rw [refs_start]
      simp
    · intro r data he
      rcases List.mem_append.mp he with he | he
      · exact h.accepted r data he
      · rcases start_events he with ⟨_, h⟩ | ⟨_, h⟩ <;> cases h
  | run tid env out hmove => exact h.stepThread hmove
  | tick => exact ⟨h.sessions, h.handles, h.refs, h.accepted, h.completed⟩

theorem fresh_of_run {ok : System → Label → Prop} {files : Table ByteString DirEntry}
    (hrun : Run (LocalMediaTransfer.step cfg) ok (.init files) s) : Fresh s :=
  hrun.invariant (Fresh.init files) fun _ _ _ h _ hst => h.step hst

/-! ## The invariant -/

/-- The file `c` of handle `h` of session `r` starts with the chunks counted for `r`. -/
structure Received (log : List Event) (c : ByteString) (r : Ref) (h : FileHandle) : Prop where
  length : c.length = h.totalSize
  written : h.bytesWritten ≤ h.totalSize
  small : h.totalSize < 2 ^ 64
  bytes : c.take h.bytesWritten = acceptedBytes log r
  count : h.chunksReceived = (acceptedChunks log r).length
  sizes : h.acceptedChunkSizes = (acceptedChunks log r).map List.length

/-- A write in progress is the next chunk of the handle. -/
structure InFlight (h : FileHandle) (call : WriteCall) (offset : Nat) : Prop where
  start : offset = h.bytesWritten
  index : call.chunkIndex = h.chunksReceived
  fits : offset + call.data.length ≤ h.totalSize

/-- A session that is being finalized is complete, and its file `c` is what was accepted. -/
structure Complete (w : Writer) (log : List Event) (c : ByteString) (s : Ref) (h : FileHandle) :
    Prop where
  temp : w.temps s = some c
  received : Received log c s h
  complete : h.isComplete = true
  serial : h.serial = s.serial
  metadata : h.metadata = (w.states s).metadata

/-- What a thread may rely on while it works on `X`. -/
def Busy (cfg : WriterConfig) (X : ByteString) (w : Writer) (log : List Event) : Pc → Prop
  | .writeCopy call r _ offset => r.fileId = X → ∀ h, w.handles.lookup X = some h →
      InFlight h call offset
  | .writeCommit call r _ offset hashUpdated => r.fileId = X → ∀ h, w.handles.lookup X = some h →
      InFlight h call offset ∧ ∀ c, w.temps ⟨X, h.serial⟩ = some c →
        c.take (offset + call.data.length) = c.take offset ++ call.data ∧
        (h.streamingHashValid = true → hashUpdated = true →
          w.hashContexts X = some (c.take (offset + call.data.length)))
  | .finalizeHash _ s h => s.fileId = X → ∃ c, Complete w log c s h ∧
      (h.streamingHashValid = true → w.hashContexts X = some c)
  | .finalizePublish _ s h fullHash => s.fileId = X → ∃ c, Complete w log c s h ∧
      fullHash = cfg.sha256 c ∧ fullHash ≠ []
  | _ => True

/-- A thread copies a chunk of `X`, or has copied one and not counted it yet. -/
def Pc.writing (X : ByteString) : Pc → Bool
  | .writeCopy _ r _ _ | .writeCommit _ r _ _ _ => r.fileId == X
  | _ => false

def Pc.committing (X : ByteString) : Pc → Bool
  | .writeCommit _ r _ _ _ => r.fileId == X
  | _ => false

/-- **The content invariant** of file ID `X`. -/
structure Content (cfg : WriterConfig) (X : ByteString) (s : System) : Prop where
  handle : ∀ h, s.writer.handles.lookup X = some h →
    ∃ c, s.writer.temps ⟨X, h.serial⟩ = some c ∧ Received s.log c ⟨X, h.serial⟩ h
  busy : ∀ i, Busy cfg X s.writer s.log (s.threads i)
  streamed : ∀ h c, s.writer.handles.lookup X = some h → s.writer.temps ⟨X, h.serial⟩ = some c →
    h.streamingHashValid = true → (∀ i, (s.threads i).committing X = false) →
    s.writer.hashContexts X = some (c.take h.bytesWritten)
  exclusive : ∀ i, (s.threads i).writing X = true →
    ∀ n, (s.writer.states ⟨X, n⟩).finalizing = false

variable {w w' : Writer} {log log' : List Event} {pc : Pc}

theorem Received.congr {c : ByteString} {r : Ref} {h : FileHandle} (hr : Received log c r h)
    (hl : acceptedChunks log' r = acceptedChunks log r) : Received log' c r h := by
  refine ⟨hr.length, hr.written, hr.small, ?_, ?_, ?_⟩
  · rw [hr.bytes, acceptedBytes, acceptedBytes, hl]
  · rw [hr.count, hl]
  · rw [hr.sizes, hl]

theorem Complete.congr {c : ByteString} {r : Ref} {h : FileHandle} (hc : Complete w log c r h)
    (ht : w'.temps r = w.temps r) (hm : (w'.states r).metadata = (w.states r).metadata)
    (hl : acceptedChunks log' r = acceptedChunks log r) : Complete w' log' c r h where
  temp := ht.trans hc.temp
  received := hc.received.congr hl
  complete := hc.complete
  serial := hc.serial
  metadata := hc.metadata.trans hm.symm

/-- The file of a complete session is what was accepted. -/
theorem Complete.content {c : ByteString} {r : Ref} {h : FileHandle} (hc : Complete w log c r h) :
    c = acceptedBytes log r := by
  have hb := hc.received.bytes
  have hcomplete := hc.complete
  simp only [FileHandle.isComplete, Bool.and_eq_true, beq_iff_eq] at hcomplete
  rw [hcomplete.1, ← hc.received.length, List.take_length] at hb
  exact hb

theorem Busy.of_untracked (h : pc.tracked X = false) : Busy cfg X w log pc := by
  cases pc <;> first
    | trivial
    | exact fun hX => by simp [Pc.tracked, hX] at h

/-- What a thread relies on does not change when nothing of `X` changes. -/
theorem Busy.congr (h : Busy cfg X w log pc) (hu : Untouched X w w')
    (hm : ∀ n, (w'.states ⟨X, n⟩).metadata = (w.states ⟨X, n⟩).metadata)
    (hl : ∀ n, acceptedChunks log' ⟨X, n⟩ = acceptedChunks log ⟨X, n⟩) :
    Busy cfg X w' log' pc := by
  cases pc with
  | writeCopy call r target offset =>
    intro hX g hg
    exact h hX g (hu.handle ▸ hg)
  | writeCommit call r target offset hashUpdated =>
    intro hX g hg
    obtain ⟨hflight, hcopy⟩ := h hX g (hu.handle ▸ hg)
    refine ⟨hflight, fun c hc => ?_⟩
    rw [hu.hash]
    exact hcopy c (hu.temp _ ▸ hc)
  | finalizeHash caller r g =>
    intro hX
    obtain ⟨c, hc, hhash⟩ := h hX
    obtain ⟨id, n⟩ := r
    subst hX
    rw [hu.hash]
    exact ⟨c, hc.congr (hu.temp n) (hm n) (hl n), hhash⟩
  | finalizePublish caller r g fullHash =>
    intro hX
    obtain ⟨c, hc, hhash⟩ := h hX
    obtain ⟨id, n⟩ := r
    subst hX
    exact ⟨c, hc.congr (hu.temp n) (hm n) (hl n), hhash⟩
  | _ => trivial

/-- A thread that neither finalizes `X` nor writes to a handle of it relies on nothing. -/
theorem Busy.of_bystander (hw : pc.writing X = true → w.handles.lookup X = none)
    (hf : ∀ r, pc.finalizer = some r → r.fileId ≠ X) : Busy cfg X w log pc := by
  cases pc with
  | writeCopy call r target offset =>
    intro hX g hg
    rw [hw (by simp [Pc.writing, hX])] at hg
    cases hg
  | writeCommit call r target offset hashUpdated =>
    intro hX g hg
    rw [hw (by simp [Pc.writing, hX])] at hg
    cases hg
  | finalizeHash caller r g => exact fun hX => absurd hX (hf r rfl)
  | finalizePublish caller r g fullHash => exact fun hX => absurd hX (hf r rfl)
  | _ => trivial

/-! ## Who else works on `X` -/

theorem Pc.held_of_writing (h : pc.writing X = true) :
    ∃ r, pc.held = some r ∧ pc.bound = some r ∧ r.fileId = X := by
  cases pc <;> first
    | cases h
    | exact ⟨_, rfl, rfl, beq_iff_eq.mp h⟩

theorem Pc.writing_of_tracked (h : pc.tracked X = false) : pc.writing X = false := by
  cases pc <;> first
    | rfl
    | exact h

theorem Pc.committing_le_writing (h : pc.writing X = false) : pc.committing X = false := by
  cases pc <;> first
    | rfl
    | exact h

section Others

variable {p : Phase} {tid : Nat} {g : FileHandle} {r : Ref}

/-- While a handle of `X` is active, the holder of its write mutex is the only writer. -/
theorem not_writing_of_held {k : Nat} (hd : p.Describes X s.writer)
    (hc : ∀ i, Compat X p s.writer i (s.threads i)) (hlocked : Locked s)
    (hl : s.writer.handles.lookup X = some g) (hheld : (s.threads k).held = some r)
    (hbound : (s.threads k).bound = some r) (hX : r.fileId = X) {j : Nat} (hj : j ≠ k) :
    (s.threads j).writing X = false := by
  by_contra hne
  obtain ⟨q, hq, hqb, hqX⟩ := Pc.held_of_writing (by simpa using hne)
  have hp := hd.active_of_lookup hl
  have hqn := (hc j).bound q hqb hqX _ hp
  have hrn := (hc k).bound r hbound hX _ hp
  have hqr : q = r := by
    cases q
    cases r
    simp_all
  subst hqr
  exact hj (hlocked.unique hq hheld)

theorem no_finalizer_of_active (hd : p.Describes X s.writer)
    (hc : ∀ i, Compat X p s.writer i (s.threads i)) (hl : s.writer.handles.lookup X = some g)
    (j : Nat) : ∀ q, (s.threads j).finalizer = some q → q.fileId ≠ X := by
  intro q hq hX
  have hp := (hc j).finalizer q hq hX
  rw [hd.active_of_lookup hl] at hp
  cases hp

theorem no_finalizer_of_writing (h : Content cfg X s) (hd : p.Describes X s.writer)
    (hc : ∀ i, Compat X p s.writer i (s.threads i)) (hw : (s.threads tid).writing X = true)
    (j : Nat) : ∀ q, (s.threads j).finalizer = some q → q.fileId ≠ X := by
  intro q hq hX
  have hp := (hc j).finalizer q hq hX
  have hf := h.exclusive tid hw q.serial
  rw [(hd.finalizing q.serial).mpr ⟨j, hp⟩] at hf
  cases hf

theorem no_finalizer_of_closed (hc : ∀ i, Compat X p s.writer i (s.threads i)) (hp : p.Closed)
    (j : Nat) : ∀ q, (s.threads j).finalizer = some q → q.fileId ≠ X := by
  intro q hq hX
  rw [(hc j).finalizer q hq hX] at hp
  exact hp

theorem lookup_none_of_closed (hd : p.Describes X s.writer) (hp : p.Closed) :
    s.writer.handles.lookup X = none := by
  refine hd.lookup_none ?_
  cases p <;> first | rfl | exact hp.elim

/-- The one thread that finalizes `X` is alone with it. -/
theorem alone_of_finalizer (h : Content cfg X s) (hd : p.Describes X s.writer)
    (hc : ∀ i, Compat X p s.writer i (s.threads i)) (hr : (s.threads tid).finalizer = some r)
    (hX : r.fileId = X) {j : Nat} (hj : j ≠ tid) :
    (s.threads j).writing X = false ∧
      ∀ q, (s.threads j).finalizer = some q → q.fileId ≠ X := by
  have hp := (hc tid).finalizer r hr hX
  refine ⟨?_, fun q hq hqX => ?_⟩
  · by_contra hne
    have hf := h.exclusive j (by simpa using hne) r.serial
    rw [(hd.finalizing r.serial).mpr ⟨tid, hp⟩] at hf
    cases hf
  · have hp' := (hc j).finalizer q hq hqX
    rw [hp, Phase.finalizing.injEq] at hp'
    exact hj hp'.2.symm

end Others

/-! ## Steps -/

theorem stepThread_finalizing {p : Phase} {tid : Nat} {env : StepEnv}
    {out : Writer × Pc × List Event} (h : Content cfg X s) (hd : p.Describes X s.writer)
    (hc : ∀ i, Compat X p s.writer i (s.threads i)) (hlocked : Locked s)
    (hmove : stepThread cfg s.clock tid s.writer (s.threads tid) env = some out) {j : Nat}
    (hj : j ≠ tid) (hw : (s.threads j).writing X = true) (n : Nat) :
    (out.1.states ⟨X, n⟩).finalizing = false := by
  have hold := h.exclusive j hw n
  have heff := stepThread_states hmove ⟨X, n⟩
  generalize out.1.states ⟨X, n⟩ = st at heff
  cases heff with
  | taken caller g hpc hl hcomplete =>
    have hnot := not_writing_of_held hd hc hlocked hl (r := ⟨X, n⟩) (k := tid)
      (by rw [hpc]; rfl) (by rw [hpc]; rfl) rfl hj
    rw [hw] at hnot
    cases hnot
  | created => rfl
  | completed => rfl
  | failed => rfl
  | _ => exact hold

section Assemble

variable {tid : Nat} {pc' : Pc}

/-- The invariant after thread `tid` moved, from its parts. -/
theorem Content.assemble {clock : Nat}
    (hhandle : ∀ g, w'.handles.lookup X = some g →
      ∃ c, w'.temps ⟨X, g.serial⟩ = some c ∧ Received log' c ⟨X, g.serial⟩ g)
    (hself : Busy cfg X w' log' pc')
    (hothers : ∀ j, j ≠ tid → Busy cfg X w' log' (s.threads j))
    (hstream : ∀ g c, w'.handles.lookup X = some g → w'.temps ⟨X, g.serial⟩ = some c →
      g.streamingHashValid = true → pc'.committing X = false →
      (∀ j, j ≠ tid → (s.threads j).committing X = false) →
      w'.hashContexts X = some (c.take g.bytesWritten))
    (hexcl : pc'.writing X = true → ∀ n, (w'.states ⟨X, n⟩).finalizing = false)
    (hexclOthers : ∀ j, j ≠ tid → (s.threads j).writing X = true →
      ∀ n, (w'.states ⟨X, n⟩).finalizing = false) :
    Content cfg X ⟨w', Function.update s.threads tid pc', clock, log'⟩ where
  handle := hhandle
  busy := forall_update (P := fun _ pc => Busy cfg X w' log' pc) hself hothers
  streamed := by
    intro g c hg hc hv hnone
    refine hstream g c hg hc hv (by simpa using hnone tid) fun j hj => ?_
    simpa [hj] using hnone j
  exclusive := forall_update (P := fun _ pc => pc.writing X = true →
    ∀ n, (w'.states ⟨X, n⟩).finalizing = false) hexcl hexclOthers

/-- A step that leaves the content of `X` alone. -/
theorem Content.quiet {clock : Nat} (h : Content cfg X s) (hu : Untouched X s.writer w')
    (hm : ∀ n, (w'.states ⟨X, n⟩).metadata = (s.writer.states ⟨X, n⟩).metadata)
    (hl : ∀ n, acceptedChunks log' ⟨X, n⟩ = acceptedChunks s.log ⟨X, n⟩)
    (hself : Busy cfg X w' log' pc')
    (hcommit : (s.threads tid).committing X = true → s.writer.handles.lookup X = none)
    (hexcl : pc'.writing X = true → ∀ n, (w'.states ⟨X, n⟩).finalizing = false)
    (hexclOthers : ∀ j, j ≠ tid → (s.threads j).writing X = true →
      ∀ n, (w'.states ⟨X, n⟩).finalizing = false) :
    Content cfg X ⟨w', Function.update s.threads tid pc', clock, log'⟩ := by
  refine .assemble ?_ hself (fun j _ => (h.busy j).congr hu hm hl) ?_ hexcl hexclOthers
  · intro g hg
    obtain ⟨c, hc, hr⟩ := h.handle g (hu.handle ▸ hg)
    exact ⟨c, (hu.temp _).trans hc, hr.congr (hl _)⟩
  · intro g c hg hc hv _ hnone
    rw [hu.handle] at hg
    rw [hu.hash]
    refine h.streamed g c hg (hu.temp _ ▸ hc) hv fun j => ?_
    by_cases hj : j = tid
    · subst hj
      by_contra hne
      rw [hcommit (by simpa using hne)] at hg
      cases hg
    · exact hnone j hj

/-- A step of the only thread that works on `X`, after which no handle of `X` is active. -/
theorem Content.inactive {clock : Nat} (hnone : w'.handles.lookup X = none)
    (hself : Busy cfg X w' log' pc') (hpc : pc'.writing X = false)
    (hfin : ∀ j, j ≠ tid → ∀ q, (s.threads j).finalizer = some q → q.fileId ≠ X)
    (hexclOthers : ∀ j, j ≠ tid → (s.threads j).writing X = true →
      ∀ n, (w'.states ⟨X, n⟩).finalizing = false) :
    Content cfg X ⟨w', Function.update s.threads tid pc', clock, log'⟩ := by
  refine .assemble (by simp [hnone]) hself (fun j hj => ?_) (by simp [hnone]) (by simp [hpc])
    hexclOthers
  exact .of_bystander (fun _ => hnone) (hfin j hj)

end Assemble

theorem Received.overwrite {c data : ByteString} {r : Ref} {g : FileHandle}
    (hr : Received log c r g) (hfits : g.bytesWritten + data.length ≤ g.totalSize) :
    Received log (overwrite c g.bytesWritten data) r g where
  length := by
    rw [length_overwrite (by rw [hr.length]; exact hfits), hr.length]
  written := hr.written
  small := hr.small
  bytes := by
    rw [take_overwrite_of_le (by rw [hr.length]; exact hfits) le_rfl, hr.bytes]
  count := hr.count
  sizes := hr.sizes

/-- The next chunk is counted. -/
theorem Received.commit {c data : ByteString} {r : Ref} {g : FileHandle} {hashUpdated : Bool}
    (hr : Received log c r g) (hfits : g.bytesWritten + data.length ≤ g.totalSize)
    (hcopied : c.take (g.bytesWritten + data.length) = c.take g.bytesWritten ++ data)
    (hl : acceptedChunks log' r = acceptedChunks log r ++ [data]) :
    Received log' c r (g.commitChunk data.length hashUpdated) := by
  have hsmall := hr.small
  have hbytes : add64 g.bytesWritten data.length = g.bytesWritten + data.length :=
    add64_of_lt (by omega)
  refine ⟨hr.length, ?_, hsmall, ?_, ?_, ?_⟩
  · show add64 g.bytesWritten data.length ≤ g.totalSize
    rw [hbytes]
    exact hfits
  · show c.take (add64 g.bytesWritten data.length) = _
    rw [hbytes, hcopied, hr.bytes, acceptedBytes, acceptedBytes, hl]
    simp
  · show g.chunksReceived + 1 = _
    rw [hr.count, hl]
    simp
  · show g.acceptedChunkSizes ++ [data.length] = _
    rw [hr.sizes, hl]
    simp

theorem received_handle {a : InitArgs} {r : Ref} {n : Nat} {valid : Bool}
    (hvalid : a.valid cfg = true) (hl : acceptedChunks log r = []) :
    Received log (List.replicate a.totalSize 0) r (a.handle n valid) := by
  have hsize : a.totalSize ≤ cfg.limits.maxFileBytes := by
    simp only [InitArgs.valid, Bool.and_eq_true, Bool.not_eq_true', Bool.or_eq_false_iff,
      decide_eq_false_iff_not, not_lt] at hvalid
    exact hvalid.2.1.1.2
  refine ⟨List.length_replicate .., Nat.zero_le _, hsize.trans_lt cfg.limits.maxFileBytes_lt, ?_,
    ?_, ?_⟩
  · simp [acceptedBytes, hl, InitArgs.handle]
  · simp [hl, InitArgs.handle]
  · simp [hl, InitArgs.handle]

/-- The hash of a complete upload, if one is found, is that of its bytes. -/
theorem fullHash_eq {c : ByteString} {r : Ref} {g : FileHandle} {env : StepEnv}
    (hc : Complete w log c r g)
    (hs : g.streamingHashValid = true → w.hashContexts r.fileId = some c)
    (hne : w.fullHash cfg r g env ≠ []) : w.fullHash cfg r g env = cfg.sha256 c := by
  have htemp : w.temps ⟨r.fileId, g.serial⟩ = some c := by
    rw [hc.serial]
    exact hc.temp
  have hstream : (if (g.streamingHashValid && env.digest) = true then
      ((w.hashContexts r.fileId).map cfg.sha256).getD [] else []) = [] ∨
      (if (g.streamingHashValid && env.digest) = true then
        ((w.hashContexts r.fileId).map cfg.sha256).getD [] else []) = cfg.sha256 c := by
    split
    · rename_i hv
      rw [hs (Bool.and_eq_true_iff.mp hv).1]
      exact .inr rfl
    · exact .inl rfl
  unfold Writer.fullHash at hne ⊢
  simp only [htemp] at hne ⊢
  generalize (if (g.streamingHashValid && env.digest) = true then
    ((w.hashContexts r.fileId).map cfg.sha256).getD [] else []) = streaming at hstream hne ⊢
  -- the streaming hash is right when it is not empty, and so is the one read back
  by_cases hempty : streaming.isEmpty = true
  · rw [if_pos hempty] at hne ⊢
    split
    · rfl
    · rename_i hfail
      rw [if_neg hfail] at hne
      exact absurd rfl hne
  · rw [if_neg hempty] at hne ⊢
    exact hstream.resolve_left hne

theorem Pc.eq_of_committing (h : pc.committing X = true) :
    ∃ call r target offset hashUpdated,
      pc = .writeCommit call r target offset hashUpdated ∧ r.fileId = X := by
  cases pc <;> first
    | cases h
    | exact ⟨_, _, _, _, _, rfl, beq_iff_eq.mp h⟩

/-- A thread that copies a chunk to an active handle writes behind what is there. -/
theorem Content.copying {p : Phase} {tid target offset : Nat} {call : WriteCall} {r : Ref}
    {g : FileHandle} (h : Content cfg X s) (hd : p.Describes X s.writer)
    (hc : ∀ i, Compat X p s.writer i (s.threads i)) (hlocked : Locked s)
    (hth : s.threads tid = .writeCopy call r target offset) (hX : r.fileId = X)
    (hl : s.writer.handles.lookup X = some g) :
    target = g.serial ∧ InFlight g call offset ∧
      ∃ c, s.writer.temps ⟨X, g.serial⟩ = some c ∧ Received s.log c ⟨X, g.serial⟩ g ∧
        (g.streamingHashValid = true → s.writer.hashContexts X = some (c.take offset)) := by
  have hpc := hc tid
  rw [hth] at hpc
  have hserial := hpc.bound r rfl hX _ (hd.active_of_lookup hl)
  have htarget := hpc.target r target rfl hX
  have hflight := h.busy tid
  rw [hth] at hflight
  have hflight := hflight hX g hl
  obtain ⟨c, hcont, hr⟩ := h.handle g hl
  refine ⟨htarget.trans hserial.symm, hflight, c, hcont, hr, fun hv => ?_⟩
  rw [hflight.start]
  refine h.streamed g c hl hcont hv fun j => ?_
  by_cases hj : j = tid
  · rw [hj, hth]
    rfl
  · exact Pc.committing_le_writing (not_writing_of_held hd hc hlocked hl (r := r) (k := tid)
      (by rw [hth]; rfl) (by rw [hth]; rfl) hX hj)

section Thread

variable {tid : Nat} {env : StepEnv} {out : Writer × Pc × List Event}

theorem updateHash_temps (w : Writer) (id data : ByteString) (ok : Bool) :
    (w.updateHash id data ok).1.temps = w.temps := by
  unfold Writer.updateHash
  split
  · rfl
  · split <;> rfl

theorem updateHash_states (w : Writer) (id data : ByteString) (ok : Bool) :
    (w.updateHash id data ok).1.states = w.states := by
  unfold Writer.updateHash
  split
  · rfl
  · split <;> rfl

theorem updateHash_hashed {id data hashed : ByteString} {ok : Bool}
    (hctx : w.hashContexts id = some hashed) (hok : (w.updateHash id data ok).2 = true) :
    (w.updateHash id data ok).1.hashContexts id = some (hashed ++ data) := by
  unfold Writer.updateHash at hok ⊢
  rw [hctx] at hok ⊢
  simp only at hok ⊢
  split
  · exact Function.update_self ..
  · rename_i h
    rw [if_neg h] at hok
    cases hok

/-- What other threads need to know when the holder of the write mutex works on `X`. -/
theorem busy_others {p : Phase} {r : Ref} (h : Content cfg X s) (hd : p.Describes X s.writer)
    (hc : ∀ i, Compat X p s.writer i (s.threads i)) (hlocked : Locked s)
    (hw : (s.threads tid).writing X = true) (hr : (s.threads tid).held = some r)
    (hb : (s.threads tid).bound = some r) (hX : r.fileId = X)
    (hhandle : s.writer.handles.lookup X = none → w'.handles.lookup X = none) {j : Nat}
    (hj : j ≠ tid) : Busy cfg X w' log' (s.threads j) := by
  refine .of_bystander (fun hwj => ?_) (no_finalizer_of_writing h hd hc hw j)
  cases hl : s.writer.handles.lookup X with
  | none => exact hhandle hl
  | some g =>
    rw [not_writing_of_held hd hc hlocked hl hr hb hX hj] at hwj
    cases hwj

theorem Content.created {a : InitArgs} {ienv : InitEnv} {clock : Nat} {pc' : Pc}
    (hserial : Fresh s) (hvalid : a.valid cfg = true)
    (hinactive : s.writer.handles.lookup a.fileId = none)
    (hrefs : ∀ j, ∀ r ∈ (s.threads j).refs, r.fileId ≠ a.fileId)
    (hl : ∀ n, acceptedChunks log' ⟨a.fileId, n⟩ = acceptedChunks s.log ⟨a.fileId, n⟩)
    (hpc : pc'.tracked a.fileId = false) :
    Content cfg a.fileId ⟨(s.writer.createSession s.clock a ienv).1,
      Function.update s.threads tid pc', clock, log'⟩ := by
  have huntracked : ∀ j, (s.threads j).tracked a.fileId = false := by
    intro j
    by_contra hne
    obtain ⟨r, hr, hX⟩ := Pc.tracked_mem_refs (by simpa using hne)
    exact hrefs j r hr hX
  have hnew : acceptedChunks log' ⟨a.fileId, s.writer.nextSerial⟩ = [] := by
    rw [hl]
    refine acceptedChunks_eq_nil fun data he => ?_
    exact Nat.lt_irrefl _ (hserial.accepted _ data he)
  refine .assemble ?_ (.of_untracked hpc) (fun j _ => .of_untracked (huntracked j)) ?_ ?_ ?_
  · intro g hg
    obtain ⟨rfl, htemp, -⟩ := createSession_handle hinactive hg
    exact ⟨_, htemp, received_handle hvalid hnew⟩
  · intro g c hg hcont hv _ _
    obtain ⟨rfl, htemp, hhash⟩ := createSession_handle hinactive hg
    rw [hhash hv]
    rfl
  · simp [Pc.writing_of_tracked hpc]
  · intro j _ hw
    rw [Pc.writing_of_tracked (huntracked j)] at hw
    cases hw

section Sections

variable {p : Phase} {clock : Nat} (h : Content cfg X s) (hd : p.Describes X s.writer)
  (hc : ∀ i, Compat X p s.writer i (s.threads i)) (hlocked : Locked s)
include h hd hc hlocked

theorem Content.copied {call : WriteCall} {r : Ref} {target offset : Nat} {ok : Bool}
    (hth : s.threads tid = .writeCopy call r target offset) (hX : r.fileId = X)
    (hl : ∀ n, acceptedChunks log' ⟨X, n⟩ = acceptedChunks s.log ⟨X, n⟩) :
    Content cfg X
      ⟨((s.writer.writeMappedRange ⟨r.fileId, target⟩ offset call.data).updateHash r.fileId
          call.data ok).1,
        Function.update s.threads tid (.writeCommit call r target offset
          ((s.writer.writeMappedRange ⟨r.fileId, target⟩ offset call.data).updateHash r.fileId
            call.data ok).2), clock, log'⟩ := by
  have hw : (s.threads tid).writing X = true := by simp [hth, Pc.writing, hX]
  have htemps : ∀ {g c}, target = g → s.writer.temps ⟨X, g⟩ = some c →
      ((s.writer.writeMappedRange ⟨r.fileId, target⟩ offset call.data).updateHash r.fileId
          call.data ok).1.temps ⟨X, g⟩ = some (Lib.overwrite c offset call.data) := by
    rintro _ c rfl hcont
    rw [updateHash_temps, hX]
    simp [Writer.writeMappedRange, hcont]
  refine .assemble ?_ ?_ (fun j hj => busy_others h hd hc hlocked hw (by rw [hth]; rfl)
    (by rw [hth]; rfl) hX (by rw [updateHash_handles]; exact id) hj) ?_ ?_ ?_
  · intro g hg
    rw [updateHash_handles] at hg
    obtain ⟨htarget, hflight, c, hcont, hr, -⟩ := h.copying hd hc hlocked hth hX hg
    refine ⟨_, htemps htarget hcont, ?_⟩
    obtain rfl := hflight.start
    exact (hr.overwrite hflight.fits).congr (hl _)
  · intro _ g hg
    rw [updateHash_handles] at hg
    obtain ⟨htarget, hflight, c, hcont, hr, hhash⟩ := h.copying hd hc hlocked hth hX hg
    refine ⟨hflight, fun c' hc' => ?_⟩
    obtain rfl := Option.some.inj ((htemps htarget hcont).symm.trans hc')
    have hfits : offset + call.data.length ≤ c.length := by
      rw [hr.length]
      exact hflight.fits
    rw [take_overwrite_end hfits, take_overwrite_of_le hfits le_rfl]
    refine ⟨rfl, fun hv hok => ?_⟩
    subst hX
    exact updateHash_hashed (hhash hv) hok
  · intro g c _ _ _ hcommit
    simp [Pc.committing, hX] at hcommit
  · intro _ n
    rw [updateHash_states]
    exact h.exclusive tid hw n
  · intro j _ hwj n
    rw [updateHash_states]
    exact h.exclusive j hwj n

theorem Content.copyFailed {call : WriteCall} {r : Ref} {target offset written : Nat}
    (hth : s.threads tid = .writeCopy call r target offset) (hX : r.fileId = X)
    (hl : ∀ n, acceptedChunks log' ⟨X, n⟩ = acceptedChunks s.log ⟨X, n⟩) :
    Content cfg X
      ⟨(s.writer.writeMappedRange ⟨r.fileId, target⟩ offset (call.data.take written)).unlock r,
        Function.update s.threads tid
          (.abortCollect call.caller (.byId r.fileId) (.storageError call r)), clock, log'⟩ := by
  have hw : (s.threads tid).writing X = true := by simp [hth, Pc.writing, hX]
  have htemps : ∀ {g c}, target = g → s.writer.temps ⟨X, g⟩ = some c →
      ((s.writer.writeMappedRange ⟨r.fileId, target⟩ offset (call.data.take written)).unlock
        r).temps ⟨X, g⟩ = some (Lib.overwrite c offset (call.data.take written)) := by
    rintro _ c rfl hcont
    rw [hX]
    simp [Writer.unlock, Writer.writeMappedRange, hcont]
  have hshort : (call.data.take written).length ≤ call.data.length := by
    rw [List.length_take]
    exact Nat.min_le_right ..
  refine .assemble ?_ trivial (fun j hj => busy_others h hd hc hlocked hw (by rw [hth]; rfl)
    (by rw [hth]; rfl) hX (by intro h; exact h) hj) ?_ (by rintro ⟨⟩) fun j _ hwj n =>
      h.exclusive j hwj n
  · intro g hg
    obtain ⟨htarget, hflight, c, hcont, hr, -⟩ := h.copying hd hc hlocked hth hX hg
    refine ⟨_, htemps htarget hcont, ?_⟩
    obtain rfl := hflight.start
    exact (hr.overwrite ((Nat.add_le_add_left hshort _).trans hflight.fits)).congr (hl _)
  · intro g c' hg hc' hv _ _
    obtain ⟨htarget, hflight, c, hcont, hr, hhash⟩ := h.copying hd hc hlocked hth hX hg
    obtain rfl := Option.some.inj ((htemps htarget hcont).symm.trans hc')
    obtain rfl := hflight.start
    rw [take_overwrite_of_le (by
      rw [hr.length]
      exact (Nat.add_le_add_left hshort _).trans hflight.fits) le_rfl]
    exact hhash hv

theorem Content.committed {call : WriteCall} {r : Ref} {target offset : Nat} {hashUpdated : Bool}
    {g : FileHandle} {pc' : Pc}
    (hth : s.threads tid = .writeCommit call r target offset hashUpdated)
    (hX : r.fileId = X) (hg : s.writer.handles.lookup X = some g) (hpc : pc'.tracked X = false)
    (hl : acceptedChunks log' ⟨X, g.serial⟩ = acceptedChunks s.log ⟨X, g.serial⟩ ++ [call.data]) :
    Content cfg X
      ⟨({ s.writer with
            handles :=
              s.writer.handles.insert r.fileId
                (g.commitChunk call.data.length hashUpdated) }).unlock r,
        Function.update s.threads tid pc', clock, log'⟩ := by
  have hbusy := h.busy tid
  rw [hth] at hbusy
  obtain ⟨hflight, hcopy⟩ := hbusy hX g hg
  obtain ⟨c, hcont, hr⟩ := h.handle g hg
  obtain ⟨hcopied, hhash⟩ := hcopy c hcont
  obtain rfl := hflight.start
  have hlookup : (s.writer.handles.insert r.fileId
      (g.commitChunk call.data.length hashUpdated)).lookup X =
        some (g.commitChunk call.data.length hashUpdated) := by
    rw [← hX]
    exact AList.lookup_insert _
  refine .assemble ?_ (.of_untracked hpc) (fun j hj => ?_) ?_ ?_ fun j _ hwj n =>
    h.exclusive j hwj n
  · intro g' hg'
    obtain rfl := Option.some.inj (hlookup.symm.trans hg')
    exact ⟨c, hcont, hr.commit hflight.fits hcopied hl⟩
  · refine .of_bystander (fun hwj => ?_) (no_finalizer_of_active hd hc hg j)
    rw [not_writing_of_held hd hc hlocked hg (r := r) (k := tid) (by rw [hth]; rfl)
      (by rw [hth]; rfl) hX hj] at hwj
    cases hwj
  · intro g' c' hg' hc' hv _ _
    obtain rfl := Option.some.inj (hlookup.symm.trans hg')
    obtain rfl := Option.some.inj (hcont.symm.trans hc')
    have hv : (g.streamingHashValid && hashUpdated) = true := hv
    rw [Bool.and_eq_true] at hv
    have hsmall := hr.small
    have hfits := hflight.fits
    show s.writer.hashContexts X = some (c.take (add64 g.bytesWritten call.data.length))
    rw [add64_of_lt (by omega)]
    exact hhash hv.1 hv.2
  · simp [Pc.writing_of_tracked hpc]

theorem Content.taken {caller : Caller} {r : Ref} {g : FileHandle}
    (hth : s.threads tid = .finalizeTake caller r) (hX : r.fileId = X)
    (hg : s.writer.handles.lookup X = some g) (hcomplete : g.isComplete = true)
    (hl : ∀ n, acceptedChunks log' ⟨X, n⟩ = acceptedChunks s.log ⟨X, n⟩)
    (hexcl : ∀ j, j ≠ tid → (s.threads j).writing X = true →
      ∀ n, (((s.writer.takeHandle r).unlock r).states ⟨X, n⟩).finalizing = false) :
    Content cfg X ⟨(s.writer.takeHandle r).unlock r,
      Function.update s.threads tid (.finalizeHash caller r g), clock, log'⟩ := by
  have hpc := hc tid
  rw [hth] at hpc
  have hserial := hpc.bound r rfl hX _ (hd.active_of_lookup hg)
  obtain ⟨c, hcont, hr⟩ := h.handle g hg
  have hfull : c.take g.bytesWritten = c := by
    have hcomp := hcomplete
    simp only [FileHandle.isComplete, Bool.and_eq_true, beq_iff_eq] at hcomp
    rw [hcomp.1, ← hr.length, List.take_length]
  have hmeta := hd.metadata g hg
  refine .inactive ?_ (fun _ => ⟨c, ?_, fun hv => ?_⟩) rfl
    (fun j _ => no_finalizer_of_active hd hc hg j) hexcl
  · rw [← hX]
    exact AList.lookup_erase ..
  · obtain ⟨id, n⟩ := r
    subst hX
    cases hserial
    refine ⟨hcont, hr.congr (hl _), hcomplete, rfl, ?_⟩
    rw [hmeta]
    simp [Writer.unlock, Writer.takeHandle, Writer.updateState, FinalizationState.metadata]
  · rw [← hfull]
    refine h.streamed g c hg hcont hv fun j => ?_
    by_cases hj : j = tid
    · rw [hj, hth]
      rfl
    · exact Pc.committing_le_writing (not_writing_of_held hd hc hlocked hg (r := r) (k := tid)
        (by rw [hth]; rfl) (by rw [hth]; rfl) hX hj)

end Sections

/-- **The content invariant**, a step of one thread. -/
theorem Content.stepThread (h : Content cfg X s) (hlife : Lifecycle X s) (hlocked : Locked s)
    (hserial : Fresh s) (hfresh : FreshInit X s (.run tid env))
    (hmove : stepThread cfg s.clock tid s.writer (s.threads tid) env = some out) :
    Content cfg X
      { s with
        writer := out.1
        threads := Function.update s.threads tid out.2.1
        log := s.log ++ out.2.2 ++ evictions s.writer out.1 } := by
  obtain ⟨p, hd, hc⟩ := hlife
  have hexcl : ∀ j, j ≠ tid → (s.threads j).writing X = true →
      ∀ n, (out.1.states ⟨X, n⟩).finalizing = false :=
    fun j hj hw n => stepThread_finalizing h hd hc hlocked hmove hj hw n
  have hlog : ∀ {w' : Writer} {events : List Event} n, Silent X events →
      acceptedChunks (s.log ++ events ++ evictions s.writer w') ⟨X, n⟩ =
        acceptedChunks s.log ⟨X, n⟩ := by
    intro w' events n hs
    rw [acceptedChunks_silent (silent_evictions _ _), acceptedChunks_silent hs]
  have hnil : Silent X [] := by simp [Silent]
  have hmeta := fun n hnew => (stepThread_states hmove ⟨X, n⟩).metadata hnew
  have hpc := hc tid
  have hstep := stepThread_content X hmove
  clear hmove
  generalize hth : s.threads tid = pc at hstep hmeta hpc
  -- a session that is being finalized or retired has no handle
  have hfinal : ∀ {r}, pc.finalizer = some r → r.fileId = X →
      s.writer.handles.lookup X = none := by
    intro r hr hX
    exact hd.lookup_none (by rw [hpc.finalizer r hr hX]; rfl)
  cases hstep with
  | quiet hu hafter hsilent hlost =>
    by_cases hcreate : ∃ caller a, pc = .initFile caller a ∧
        s.writer.sessions.lookup a.fileId = none ∧ a.fileId = X
    · -- a refused creation: there is nothing of `X` yet
      obtain ⟨caller, a, -, hunknown, rfl⟩ := hcreate
      obtain rfl := hd.absent_of_lookup hunknown
      exact .inactive (hu.handle.trans (hd.lookup_none rfl)) (.of_untracked hafter)
        (Pc.writing_of_tracked hafter) (fun j _ => no_finalizer_of_closed hc trivial j) hexcl
    · refine h.quiet hu (fun n => hmeta n ?_) (fun n => hlog n hsilent) (.of_untracked hafter) ?_
        (by simp [Pc.writing_of_tracked hafter]) hexcl
      · intro caller a hpc' hunknown hnew
        exact hcreate ⟨caller, a, hpc', hunknown, (congrArg Ref.fileId hnew).symm⟩
      · intro hcommit
        rw [hth] at hcommit
        obtain ⟨call, r, target, offset, hashUpdated, rfl, hX⟩ := Pc.eq_of_committing hcommit
        exact hlost call r target offset hashUpdated rfl hX
  | created caller a ienv hX hvalid hinactive hunknown =>
    subst hX
    exact .created hserial hvalid hinactive (hfresh tid env caller a rfl hth rfl hunknown)
      (fun n => hlog n (concerns_afterInit _ _ _)) (Pc.tracked_of_refs_nil (refs_afterInit ..))
  | accepted call r g hX hl hnext hfits =>
    have hactive := hd.active_of_lookup hl
    refine h.quiet (.of_eq rfl rfl rfl) (fun n => hmeta n (by simp [NotCreated]))
      (fun n => hlog n hnil) ?_
      (by simp [hth, Pc.committing]) (fun _ n => ?_) hexcl
    · intro _ g' hg'
      obtain rfl := Option.some.inj (hl.symm.trans hg')
      obtain ⟨c, -, hr⟩ := h.handle g hl
      have hwritten := hr.written
      rw [sub64_of_le hwritten hr.small] at hfits
      exact ⟨rfl, hnext, by omega⟩
    · have hn := hd.finalizing n
      simp only [hactive, reduceCtorEq, exists_false, iff_false, Bool.not_eq_true] at hn
      subst hX
      rw [updateState_states]
      split <;> exact hn
  | copied call r target offset ok hX =>
    exact h.copied hd hc hlocked hth hX fun n => hlog n hnil
  | copyFailed call r target offset written hX =>
    exact h.copyFailed hd hc hlocked hth hX fun n => hlog n hnil
  | committed call r target offset hashUpdated g hX hl =>
    refine h.committed hd hc hlocked hth hX hl (Pc.tracked_of_refs_nil (refs_afterWrite ..)) ?_
    rw [acceptedChunks_silent (silent_evictions _ _), hX, List.append_cons,
      acceptedChunks_silent (concerns_afterWrite _ _ _), acceptedChunks_append]
    simp [acceptedChunks]
  | taken caller r g hX hl hcomplete =>
    exact h.taken hd hc hlocked hth hX hl hcomplete (fun n => hlog n hnil) hexcl
  | incomplete caller r g hX hl hcomplete =>
    exact h.quiet (.of_eq rfl rfl rfl) (fun n => hmeta n (by simp [NotCreated]))
      (fun n => hlog n hnil) trivial
      (by simp [hth, Pc.committing]) (by rintro ⟨⟩) hexcl
  | hashed caller r g senv hX hne =>
    have hbusy := h.busy tid
    rw [hth] at hbusy
    obtain ⟨c, hcomplete, hstream⟩ := hbusy hX
    refine .inactive (hfinal rfl hX) (fun _ => ⟨c, ?_, ?_, hne⟩) rfl
      (fun j hj => (alone_of_finalizer h hd hc (by rw [hth]; rfl) hX hj).2) hexcl
    · obtain ⟨id, n⟩ := r
      subst hX
      exact hcomplete.congr rfl rfl (hlog n hnil)
    · exact fullHash_eq hcomplete (by rw [hX]; exact hstream) hne
  | unhashed caller r g hX =>
    exact .inactive (hfinal rfl hX) trivial rfl
      (fun j hj => (alone_of_finalizer h hd hc (by rw [hth]; rfl) hX hj).2) hexcl
  | published caller r g fullHash name disposition q clock hX hspec houtcome =>
    exact .inactive (hfinal rfl hX) trivial rfl
      (fun j hj => (alone_of_finalizer h hd hc (by rw [hth]; rfl) hX hj).2) hexcl
  | unpublished caller r g fullHash thrown hX v hfiles hst hhandles =>
    exact .inactive (by rw [hhandles]; exact hfinal rfl hX) trivial rfl
      (fun j hj => (alone_of_finalizer h hd hc (by rw [hth]; rfl) hX hj).2) hexcl
  | completed caller r result hX =>
    exact h.quiet (.of_eq rfl rfl rfl) (fun n => hmeta n (by simp [NotCreated]))
      (fun n => hlog n hnil) trivial
      (by simp [hth, Pc.committing]) (by rintro ⟨⟩) hexcl
  | aborted caller m after g count hl ha =>
    exact .inactive (lookup_collectAborted hl ha) (.of_untracked (tracked_nextAbort ..))
      (Pc.writing_of_tracked (tracked_nextAbort ..))
      (fun j _ => no_finalizer_of_active hd hc hl j) hexcl
  | closed caller r rest count after hX =>
    have hclosed := (hpc.doomed r (List.mem_cons_self ..) hX).2
    exact .inactive (lookup_none_of_closed hd hclosed) trivial rfl
      (fun j _ => no_finalizer_of_closed hc hclosed j) hexcl
  | released cont r hX hcharged =>
    have hclosed := (hpc.doomed r (List.mem_cons_self ..) hX).2
    exact .inactive (lookup_none_of_closed hd hclosed) trivial rfl
      (fun j _ => no_finalizer_of_closed hc hclosed j) hexcl

end Thread

theorem Content.init (cfg : WriterConfig) (X : ByteString) (files : Table ByteString DirEntry) :
    Content cfg X (.init files) where
  handle := by rintro h ⟨⟩
  busy := fun _ => trivial
  streamed := by rintro h c ⟨⟩
  exclusive := by rintro i ⟨⟩

theorem Content.step (h : Content cfg X s) (hlife : Lifecycle X s) (hlocked : Locked s)
    (hserial : Fresh s) (hfresh : FreshInit X s l) (hst : step cfg s l = some s') :
    Content cfg X s' := by
  cases step_spec hst with
  | call tid c hidle =>
    have hstart : ∀ {Y : ByteString}, (c.start s.clock).1.tracked Y = false :=
      Pc.tracked_of_refs_nil (refs_start ..)
    exact h.quiet (.of_eq rfl rfl rfl) (fun _ => rfl)
      (fun n => acceptedChunks_silent (silent_start _ _) n) (.of_untracked hstart)
      (by simp [hidle, Pc.committing]) (by simp [Pc.writing_of_tracked hstart])
      fun j _ hw n => h.exclusive j hw n
  | run tid env out hmove => exact h.stepThread hlife hlocked hserial hfresh hmove
  | tick => exact ⟨h.handle, h.busy, h.streamed, h.exclusive⟩

/-- **The content invariant** holds in every state of every run that creates `X` afresh. -/
theorem content_of_run {ok : System → Label → Prop} {files : Table ByteString DirEntry}
    (hok : ∀ s l, ok s l → FreshInit X s l)
    (hrun : Run (LocalMediaTransfer.step cfg) ok (.init files) s) : Content cfg X s := by
  induction hrun with
  | refl => exact .init cfg X files
  | tail hr hl hst ih =>
    exact ih.step (lifecycle_of_run hok hr) (locked_of_run hr) (fresh_of_run hr) (hok _ _ hl) hst

/-- **Publications**: only the publication section publishes, and only what was accepted. -/
theorem stepThread_published {tid : Nat} {env : StepEnv} {out : Writer × Pc × List Event}
    (hcontent : Content cfg X s)
    (hmove : LocalMediaTransfer.stepThread cfg s.clock tid s.writer (s.threads tid) env = some out)
    {r : Ref} {name bytes : ByteString} {replaced : Option DirEntry} (hX : r.fileId = X)
    (he : .published r name bytes replaced ∈ out.2.2) :
    ∃ caller g fullHash result c, s.threads tid = .finalizePublish caller r g fullHash ∧
      out.2.1 = .finalizeComplete caller r result ∧ Complete s.writer s.log c r g ∧ bytes = c := by
  have hbusy := hcontent.busy tid
  have hstep := stepThread_content X hmove
  clear hmove
  generalize s.threads tid = pc at hstep hbusy
  cases hstep with
  | quiet _ _ hsilent => simpa [Event.concerns, hX] using hsilent _ he
  | created => simpa [Event.concerns, hX] using concerns_afterInit (X := X) _ _ _ _ he
  | committed =>
    rcases List.mem_cons.mp he with he | he
    · cases he
    · simpa [Event.concerns, hX] using concerns_afterWrite (X := X) _ _ _ _ he
  | published caller q g fullHash name' disposition _ _ hqX =>
    simp only at he
    split at he
    · obtain ⟨c, hcomplete, -⟩ := hbusy hqX
      cases List.mem_singleton.mp he
      have hq : (⟨q.fileId, g.serial⟩ : Ref) = q := by rw [hcomplete.serial]
      rw [hq, hcomplete.temp]
      exact ⟨caller, g, fullHash, _, c, rfl, rfl, hcomplete, rfl⟩
    · cases he
  | aborted => simpa [Event.concerns, hX] using concerns_nextAbort (X := X) _ _ _ _ _ he
  | _ => cases he

end LocalMediaTransfer
