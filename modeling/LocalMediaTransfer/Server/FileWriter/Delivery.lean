import LocalMediaTransfer.Server.FileWriter.Calls
import LocalMediaTransfer.Server.FileWriter.Content

/-!
# Delivery of one file

A sender splits a file into chunks and sends a request for each, as often and in whatever order
it likes; any other traffic goes on beside it.  What the receiver publishes, if it publishes
anything, is the file.

* `Upload` — a file, its chunks and the metadata on every request.
* `Upload.onlyChunks` — a call on the file ID is a request for one of the chunks.
* `Delivered.stepThread` — the accepted chunks are a prefix of the chunks.
* `upload_delivery` — **at most one publication, of exactly the file**.
-/

set_option autoImplicit false

namespace LocalMediaTransfer

open Lib

variable {X : ByteString} {cfg : WriterConfig} {s s' : System} {l : Label}

/-! ## Runs up to an eviction -/

theorem log_of_step (hst : step cfg s l = some s') {e : Event} (he : e ∈ s.log) : e ∈ s'.log := by
  cases step_spec hst with
  | call => exact List.mem_append_left _ he
  | run => exact List.mem_append_left _ (List.mem_append_left _ he)
  | tick => exact he

/-- A run in which `X` was not evicted creates `X` afresh. -/
theorem run_of_unevicted {ok : System → Label → Prop} {files : Table ByteString DirEntry}
    (hrun : Run (step cfg) ok (.init files) s) (hkept : Event.evicted X ∉ s.log) :
    Run (step cfg) (fun s l => ok s l ∧ FreshInit X s l) (.init files) s := by
  induction hrun with
  | refl => exact .refl _
  | tail hr hl hst ih =>
    have hlog : Event.evicted X ∉ _ := fun he => hkept (log_of_step hst he)
    exact .tail (ih hlog) ⟨hl, (unevicted_of_run hr).freshInit hlog _⟩ hst

/-! ## The file -/

/-- A file that is sent under one file ID: its chunks and the metadata on every request. -/
structure Upload where
  storageId : ByteString
  filename : ByteString
  skipExactDuplicates : Bool
  chunks : List ByteString
  nonempty : ∀ chunk ∈ chunks, chunk ≠ []
  atLeast : 1 ≤ chunks.length
  atMost : chunks.length ≤ MaxChunksPerFile

/-- `X-File-Size`. -/
def Upload.fileSize (u : Upload) : Nat := (u.chunks.map List.length).sum

/-- The request for a chunk of `u`. -/
structure Upload.Sends (u : Upload) (req : ChunkRequest) : Prop where
  storageId : req.storageId = u.storageId
  filename : req.filename = u.filename
  fileSize : req.fileSize = u.fileSize
  totalChunks : req.totalChunks = u.chunks.length
  skip : req.skipExactDuplicates = u.skipExactDuplicates
  data : u.chunks[req.chunkIndex]? = some req.data

instance (u : Upload) (req : ChunkRequest) : Decidable (u.Sends req) :=
  decidable_of_iff (req.storageId = u.storageId ∧ req.filename = u.filename ∧
      req.fileSize = u.fileSize ∧ req.totalChunks = u.chunks.length ∧
      req.skipExactDuplicates = u.skipExactDuplicates ∧ u.chunks[req.chunkIndex]? = some req.data)
    ⟨fun ⟨h₁, h₂, h₃, h₄, h₅, h₆⟩ => ⟨h₁, h₂, h₃, h₄, h₅, h₆⟩,
      fun ⟨h₁, h₂, h₃, h₄, h₅, h₆⟩ => ⟨h₁, h₂, h₃, h₄, h₅, h₆⟩⟩

/-- Whether a call that hands bytes or metadata to the writer under the ID of `u` is a request for
a chunk of `u`.  Calls on other IDs, finalizations, aborts and the idle timer are free. -/
def Upload.onlyChunks (u : Upload) : Label → Bool
  | .call _ (.uploadChunk http) =>
      match admitRequest http with
      | .ok req => req.storageId != u.storageId || decide (u.Sends req)
      | .error _ => true
  | .call _ (.initFile a) => a.fileId != u.storageId
  | .call _ (.writeChunk id _ _) => id != u.storageId
  | _ => true

variable {u : Upload}

/-- What calls in progress were called with. -/
def Upload.Carried (u : Upload) : Args → Prop
  | .init (.uploadChunk req) a =>
      a.fileId = req.storageId ∧
        (req.storageId = u.storageId → u.Sends req ∧ a = req.initArgs)
  | .init .direct a => a.fileId ≠ u.storageId
  | .write id call => id = u.storageId → u.chunks[call.chunkIndex]? = some call.data

theorem starts_carried (hl : u.onlyChunks l = true) : l.Starts u.Carried s := by
  cases l with
  | call tid c =>
    intro e he
    rcases start_args he with ⟨http, req, rfl, hreq, hargs⟩ | ⟨a, rfl, rfl⟩ | ⟨id, _, _, rfl, rfl⟩
    · have hsends : req.storageId = u.storageId → u.Sends req := by
        intro hX
        simpa [Upload.onlyChunks, hreq, hX] using hl
      rcases hargs with ⟨rfl, -⟩ | rfl
      · exact ⟨rfl, fun hX => ⟨hsends hX, rfl⟩⟩
      · exact fun hX => (hsends hX).data
    · exact bne_iff_ne.mp hl
    · exact fun hX => absurd hX (bne_iff_ne.mp hl)
  | run => trivial
  | tick => trivial

theorem carried_of_run {ok : System → Label → Prop} {files : Table ByteString DirEntry}
    (hok : ∀ s l, ok s l → u.onlyChunks l = true) (hrun : Run (step cfg) ok (.init files) s) :
    Carries u.Carried s :=
  carries_of_run (fun _ _ h hX => (h.2 hX).1.data) (fun s l h => starts_carried (hok s l h)) hrun

/-! ## The invariant -/

/-- A publication under file ID `X`. -/
def Event.isPublication (X : ByteString) : Event → Bool
  | .published r _ _ _ => r.fileId == X
  | _ => false

structure Delivered (u : Upload) (s : System) : Prop where
  accepted : ∀ n, acceptedChunks s.log ⟨u.storageId, n⟩ <+: u.chunks
  expected : ∀ n, s.writer.sessions.lookup u.storageId = some n →
    (s.writer.states ⟨u.storageId, n⟩).totalChunks = u.chunks.length
  bytes : ∀ r name bytes replaced, .published r name bytes replaced ∈ s.log →
    r.fileId = u.storageId → bytes = u.chunks.flatten
  once : s.log.countP (Event.isPublication u.storageId) ≤ 1
  done : 0 < s.log.countP (Event.isPublication u.storageId) →
    ∃ n, s.writer.sessions.lookup u.storageId = some n ∧
      ((s.writer.states ⟨u.storageId, n⟩).completed = true ∨
        ∃ i caller result, s.threads i = .finalizeComplete caller ⟨u.storageId, n⟩ result)

theorem prefix_snoc {α : Type} {xs ys : List α} {y : α} (h : xs <+: ys)
    (hy : ys[xs.length]? = some y) : xs ++ [y] <+: ys := by
  obtain ⟨zs, rfl⟩ := h
  rw [List.getElem?_append_right le_rfl, Nat.sub_self] at hy
  cases zs with
  | nil => cases hy
  | cons z zs =>
    cases hy
    exact ⟨zs, by simp⟩

theorem countP_of_silent {events : List Event} (h : Silent X events) :
    events.countP (Event.isPublication X) = 0 := by
  rw [List.countP_eq_zero]
  intro e he
  have hc := h e he
  cases e <;> simp_all [Event.concerns, Event.isPublication]

/-- A step publishes at most once, and only from the publication section. -/
theorem countP_publications {now i : Nat} {w : Writer} {pc : Pc} {env : StepEnv}
    {out : Writer × Pc × List Event} (hst : stepThread cfg now i w pc env = some out) :
    out.2.2.countP (Event.isPublication X) = 0 ∨
      out.2.2.countP (Event.isPublication X) = 1 ∧ ∃ caller r g fullHash result,
        pc = .finalizePublish caller r g fullHash ∧ r.fileId = X ∧
        out.2.1 = .finalizeComplete caller r result := by
  cases stepThread_content X hst with
  | quiet _ _ hsilent => exact .inl (countP_of_silent hsilent)
  | created => exact .inl (countP_of_silent (concerns_afterInit _ _ _))
  | committed =>
    left
    rw [List.countP_cons, countP_of_silent (concerns_afterWrite _ _ _)]
    rfl
  | published caller r g fullHash name disposition _ _ hX =>
    simp only
    split
    · exact .inr ⟨by simp [Event.isPublication, hX], caller, r, g, fullHash, _, rfl, hX, rfl⟩
    · exact .inl rfl
  | aborted => exact .inl (countP_of_silent (concerns_nextAbort _ _ _ _))
  | _ => exact .inl rfl

section Thread

variable {tid : Nat} {env : StepEnv} {out : Writer × Pc × List Event}

/-- The next chunk is counted. -/
theorem Delivered.accept (h : Delivered u s)
    (hcontent : Content cfg u.storageId s) (hcarried : Carries u.Carried s)
    (hmove : stepThread cfg s.clock tid s.writer (s.threads tid) env = some out) (n : Nat) :
    acceptedChunks (s.log ++ out.2.2 ++ evictions s.writer out.1) ⟨u.storageId, n⟩ <+:
      u.chunks := by
  have hold := h.accepted n
  have hcarry := hcarried tid
  have hbusy := hcontent.busy tid
  have hnone : (∀ data, Event.accepted ⟨u.storageId, n⟩ data ∉ out.2.2) →
      acceptedChunks (s.log ++ out.2.2 ++ evictions s.writer out.1) ⟨u.storageId, n⟩ <+:
        u.chunks := by
    intro hno
    rw [acceptedChunks_silent (silent_evictions _ _), acceptedChunks_append,
      acceptedChunks_eq_nil hno, List.append_nil]
    exact hold
  by_cases hev : ∃ data, Event.accepted ⟨u.storageId, n⟩ data ∈ out.2.2
  · obtain ⟨data, he⟩ := hev
    obtain ⟨call, r, target, offset, hashUpdated, g, hpc, hX, hg, hser, -⟩ :=
      stepThread_accepted hmove he
    have hX : r.fileId = u.storageId := hX
    have hg : s.writer.handles.lookup u.storageId = some g := hg
    have hser : g.serial = n := hser
    have hg' : s.writer.handles.lookup r.fileId = some g := by rw [hX, hg]
    rw [hpc] at hbusy hcarry hmove
    simp only [stepThread, hg'] at hmove
    cases hmove
    obtain ⟨hflight, -⟩ := hbusy hX g hg
    obtain ⟨c, -, hr⟩ := hcontent.handle g hg
    rw [acceptedChunks_silent (silent_evictions _ _), List.append_cons,
      acceptedChunks_silent (concerns_afterWrite _ _ _), acceptedChunks_append, hser, hX]
    have hone : acceptedChunks [.accepted ⟨u.storageId, n⟩ call.data] ⟨u.storageId, n⟩ =
        [call.data] := by simp [acceptedChunks]
    rw [hone]
    refine prefix_snoc hold ?_
    rw [← hser, ← hr.count, ← hflight.index]
    exact hcarry _ rfl hX
  · exact hnone fun data he => hev ⟨data, he⟩

/-- A new session is opened with the number of chunks. -/
theorem Delivered.open_ (h : Delivered u s) (hcarried : Carries u.Carried s)
    (hmove : stepThread cfg s.clock tid s.writer (s.threads tid) env = some out) {n : Nat}
    (hn : out.1.sessions.lookup u.storageId = some n) :
    (out.1.states ⟨u.storageId, n⟩).totalChunks = u.chunks.length := by
  have hkeep : s.writer.sessions.lookup u.storageId = some n →
      (out.1.states ⟨u.storageId, n⟩).totalChunks = u.chunks.length := by
    intro hold
    have hmeta := (stepThread_states hmove ⟨u.storageId, n⟩).metadata (.of_lookup hold)
    rw [← h.expected n hold]
    exact congrArg (fun m : Metadata => m.2.2.1) hmeta
  cases stepThread_sessionTable hmove with
  | same hs _ => exact hkeep (hs ▸ hn)
  | recorded r _ hs _ =>
    obtain ⟨dropped, -, hs'⟩ := rememberCompletedSessionLocked_spec s.writer r.fileId
    rw [hs, hs'] at hn
    split at hn
    · cases hn
    · exact hkeep hn
  | created caller a hpc hunknown _ _ hw =>
    rw [hw] at hn
    rcases createSession_lookup hn with ⟨rfl, hX⟩ | hold
    · have hcarry := hcarried tid (.init caller a) (by rw [hpc]; rfl)
      cases caller with
      | direct => exact absurd hX.symm hcarry
      | uploadChunk req =>
        obtain ⟨hsends, rfl⟩ := hcarry.2 (hcarry.1.symm.trans hX.symm)
        have hmeta := createSession_metadata s.writer s.clock req.initArgs env.init
        rw [hw, hX, ← hsends.totalChunks]
        exact congrArg (fun m : Metadata => m.2.2.1) hmeta
    · exact hkeep hold

theorem Delivered.stepThread (h : Delivered u s) (hlife : Lifecycle u.storageId s)
    (hcontent : Content cfg u.storageId s) (hcarried : Carries u.Carried s)
    (hrefs : ∀ r ∈ (s.threads tid).refs, r.fileId = u.storageId →
      s.writer.sessions.lookup u.storageId = some r.serial)
    (hmove : stepThread cfg s.clock tid s.writer (s.threads tid) env = some out)
    (hkeep : ∀ n, s.writer.sessions.lookup u.storageId = some n →
      out.1.sessions.lookup u.storageId = some n) :
    Delivered u
      { s with
        writer := out.1
        threads := Function.update s.threads tid out.2.1
        log := s.log ++ out.2.2 ++ evictions s.writer out.1 } := by
  obtain ⟨p, hd, hc⟩ := hlife
  have hcount : (s.log ++ out.2.2 ++ evictions s.writer out.1).countP
      (Event.isPublication u.storageId) = s.log.countP (Event.isPublication u.storageId) +
        out.2.2.countP (Event.isPublication u.storageId) := by
    rw [List.countP_append, List.countP_append, countP_of_silent (silent_evictions _ _),
      Nat.add_zero]
  -- a session that is being published was not published before
  have hfirst : ∀ {caller r g fullHash}, s.threads tid = .finalizePublish caller r g fullHash →
      r.fileId = u.storageId → s.log.countP (Event.isPublication u.storageId) = 0 := by
    intro caller r g fullHash hpc hX
    by_contra hne
    have hi := hc tid
    rw [hpc] at hi
    have hp := hi.finalizer r rfl hX
    have hr := hrefs r (by rw [hpc]; exact List.mem_singleton.mpr rfl) hX
    obtain ⟨n, hn, hcases⟩ := h.done (Nat.pos_of_ne_zero hne)
    cases hn.symm.trans hr
    rcases hcases with hcomp | ⟨j, caller', result, hj⟩
    · rw [(hd.open_ _ (.inr ⟨tid, hp⟩)).2] at hcomp
      cases hcomp
    · have hj' := hc j
      rw [hj] at hj'
      have hp' := hj'.finalizer _ rfl rfl
      rw [hp, Phase.finalizing.injEq] at hp'
      rw [← hp'.2, hpc] at hj
      cases hj
  refine ⟨h.accept hcontent hcarried hmove, fun n hn => h.open_ hcarried hmove hn, ?_, ?_, ?_⟩
  · intro r name bytes replaced he hX
    rcases List.mem_append.mp he with he | he
    · rcases List.mem_append.mp he with he | he
      · exact h.bytes r name bytes replaced he hX
      · obtain ⟨caller, g, fullHash, result, c, hpc, -, hcomplete, rfl⟩ :=
          stepThread_published hcontent hmove hX he
        have hr := hrefs r (by rw [hpc]; exact List.mem_singleton.mpr rfl) hX
        have hexpected : g.chunksExpected = u.chunks.length := by
          rw [← h.expected _ hr, ← hX]
          exact congrArg (fun m : Metadata => m.2.2.1) hcomplete.metadata
        have hfull := hcomplete.complete
        simp only [FileHandle.isComplete, Bool.and_eq_true, beq_iff_eq] at hfull
        have hpre := h.accepted r.serial
        rw [← hX] at hpre
        rw [hcomplete.content, acceptedBytes,
          hpre.eq_of_length (by rw [← hcomplete.received.count, hfull.2, hexpected])]
    · obtain ⟨id, -, hid⟩ := List.mem_map.mp he
      cases hid
  · show (s.log ++ out.2.2 ++ evictions s.writer out.1).countP _ ≤ 1
    rw [hcount]
    rcases countP_publications (X := u.storageId) hmove with
      h0 | ⟨h1, caller, r, g, fullHash, result, hpc, hX, -⟩
    · rw [h0]
      exact h.once
    · rw [h1, hfirst hpc hX]
  · show 0 < (s.log ++ out.2.2 ++ evictions s.writer out.1).countP _ → _
    rw [hcount]
    intro hpos
    rcases countP_publications (X := u.storageId) hmove with
      h0 | ⟨-, caller, r, g, fullHash, result, hpc, hX, hpc'⟩
    · rw [h0] at hpos
      obtain ⟨n, hn, hcases⟩ := h.done hpos
      refine ⟨n, hkeep n hn, ?_⟩
      rcases hcases with hcomp | ⟨i, caller, result, hi⟩
      · exact .inl (completed_persists hd (hc tid) hmove (.of_lookup hn) hcomp).1
      · by_cases hit : i = tid
        · subst hit
          rw [hi] at hmove
          cases hmove
          left
          simp [Writer.markCompleted, Writer.updateState]
        · exact .inr ⟨i, caller, result, (Function.update_of_ne hit ..).trans hi⟩
    · refine ⟨r.serial, hkeep _ (hrefs r (by rw [hpc]; exact List.mem_singleton.mpr rfl) hX), ?_⟩
      refine .inr ⟨tid, caller, result, ?_⟩
      rw [← hX]
      exact (Function.update_self ..).trans hpc'

end Thread

theorem Delivered.init (u : Upload) (files : Table ByteString DirEntry) :
    Delivered u (.init files) where
  accepted := fun _ => List.nil_prefix
  expected := by rintro n ⟨⟩
  bytes := by rintro r name bytes replaced ⟨⟩
  once := Nat.zero_le _
  done := by rintro ⟨⟩

/-- A call starts. -/
theorem Delivered.call (h : Delivered u s) (tid : Nat) (c : Call) (hidle : s.threads tid = .idle) :
    Delivered u
      { s with
        threads := Function.update s.threads tid (c.start s.clock).1
        log := s.log ++ (c.start s.clock).2 } := by
  have hcount : (s.log ++ (c.start s.clock).2).countP (Event.isPublication u.storageId) =
      s.log.countP (Event.isPublication u.storageId) := by
    rw [List.countP_append, countP_of_silent (silent_start _ _), Nat.add_zero]
  refine ⟨fun n => ?_, h.expected, ?_, hcount.trans_le h.once, ?_⟩
  · rw [acceptedChunks_silent (silent_start _ _)]
    exact h.accepted n
  · intro r name bytes replaced he hX
    rcases List.mem_append.mp he with he | he
    · exact h.bytes r name bytes replaced he hX
    · rcases start_events he with ⟨_, h⟩ | ⟨_, h⟩ <;> cases h
  · show 0 < (s.log ++ (c.start s.clock).2).countP _ → _
    rw [hcount]
    intro hpos
    obtain ⟨n, hn, hcases⟩ := h.done hpos
    refine ⟨n, hn, hcases.imp_right ?_⟩
    rintro ⟨i, caller, result, hi⟩
    refine ⟨i, caller, result, (Function.update_of_ne ?_ ..).trans hi⟩
    rintro rfl
    rw [hidle] at hi
    cases hi

theorem delivered_of_run {ok : System → Label → Prop} {files : Table ByteString DirEntry}
    (hok : ∀ s l, ok s l → u.onlyChunks l = true) (hrun : Run (step cfg) ok (.init files) s)
    (hkept : Event.evicted u.storageId ∉ s.log) : Delivered u s := by
  induction hrun with
  | refl => exact .init u files
  | tail hr hl hst ih =>
    have hlog : Event.evicted u.storageId ∉ _ := fun he => hkept (log_of_step hst he)
    obtain ⟨hlife, hrefs⟩ := unevicted_of_run hr hlog
    have hcontent := content_of_run (X := u.storageId) (fun _ _ h => h.2) (run_of_unevicted hr hlog)
    cases step_spec hst with
    | call tid c hidle => exact (ih hlog).call tid c hidle
    | run tid env out hmove =>
      refine (ih hlog).stepThread hlife hcontent (carried_of_run hok hr) (hrefs tid) hmove
        fun n hn => ?_
      rcases stepThread_sessions hmove hn with h | h
      · exact h
      · exact absurd (List.mem_append_right _ (mem_evictions hn h)) hkept
    | tick =>
      have h := ih hlog
      exact ⟨h.accepted, h.expected, h.bytes, h.once, h.done⟩

/-! ## The result -/

/-- What was published is in the destination. -/
theorem published_of_run {ok : System → Label → Prop} {files : Table ByteString DirEntry}
    (hrun : Run (step cfg) ok (.init files) s) {r : Ref} {name bytes : ByteString}
    {replaced : Option DirEntry} (he : .published r name bytes replaced ∈ s.log) :
    findEntry cfg s.writer.files name = some ⟨name, some bytes⟩ ∧ replaced = none := by
  induction hrun with
  | refl => cases he
  | tail hr _ hst ih =>
    cases step_spec hst with
    | call =>
      rcases List.mem_append.mp he with he | he
      · exact ih he
      · rcases start_events he with ⟨_, h⟩ | ⟨_, h⟩ <;> cases h
    | run tid env out hmove =>
      rcases List.mem_append.mp he with he | he
      · rcases List.mem_append.mp he with he | he
        · exact ⟨files_persist hmove (ih he).1, (ih he).2⟩
        · exact stepThread_published_file hmove he
      · obtain ⟨id, -, hid⟩ := List.mem_map.mp he
        cases hid
    | tick => exact ih he

/-- **Delivery of one file**: whatever requests for chunks of `u` arrive, however often, in whatever
order and however their sections interleave with each other and with any other traffic, as long as
the session was not evicted the receiver publishes at most one file for it; if it does, the name was
free and the destination holds exactly the chunks in order; and the bytes accepted so far are those
of a prefix of the chunks, each once. -/
theorem upload_delivery (u : Upload) {files : Table ByteString DirEntry}
    (hrun : Run (step cfg) (fun _ l => u.onlyChunks l = true) (.init files) s)
    (hkept : Event.evicted u.storageId ∉ s.log) :
    s.log.countP (Event.isPublication u.storageId) ≤ 1 ∧
    (∀ r name bytes replaced, .published r name bytes replaced ∈ s.log → r.fileId = u.storageId →
      bytes = u.chunks.flatten ∧ replaced = none ∧
      findEntry cfg s.writer.files name = some ⟨name, some u.chunks.flatten⟩) ∧
    ∀ n, acceptedChunks s.log ⟨u.storageId, n⟩ <+: u.chunks := by
  have h := delivered_of_run (fun _ _ h => h) hrun hkept
  refine ⟨h.once, fun r name bytes replaced he hX => ?_, h.accepted⟩
  obtain rfl := h.bytes r name bytes replaced he hX
  obtain ⟨hentry, hfree⟩ := published_of_run hrun he
  exact ⟨rfl, hfree, hentry⟩

/-- The file `ab`, sent in two chunks. -/
def sampleUpload : Upload where
  storageId := ascii "o-1"
  filename := ascii "a.txt"
  skipExactDuplicates := true
  chunks := [ascii "a", ascii "b"]
  nonempty := by decide
  atLeast := by decide
  atMost := by decide

/-- Its requests out of order and repeated. -/
def sampleDelivery : List Label :=
  sampleCall 0 (.uploadChunk (sampleRequest "1" "1" "2" "2" "b")) 1 ++
    sampleCall 0 (.uploadChunk (sampleRequest "1" "0" "2" "2" "a")) 6 ++
    sampleCall 1 (.uploadChunk (sampleRequest "1" "0" "2" "2" "a")) 4 ++
    sampleCall 0 (.uploadChunk (sampleRequest "1" "1" "2" "2" "b")) 12

theorem upload_delivery_sampleUpload :
    ∃ s, Run (step (sampleConfig .keepBoth)) (fun _ l => sampleUpload.onlyChunks l = true)
        (.init ∅) s ∧
      s.log.countP (Event.isPublication sampleUpload.storageId) = 1 ∧
      ∀ r name bytes replaced, .published r name bytes replaced ∈ s.log →
        r.fileId = sampleUpload.storageId → bytes = ascii "ab" := by
  obtain ⟨s, hrun, htest⟩ := Run.exists_of_exec (step (sampleConfig .keepBoth))
    (fun _ l => sampleUpload.onlyChunks l)
    (fun s => evictionFree s.log &&
      s.log.countP (Event.isPublication sampleUpload.storageId) == 1)
    (.init ∅) sampleDelivery (fun _ _ h => h) (by decide)
  simp only [Bool.and_eq_true, beq_iff_eq] at htest
  refine ⟨s, hrun, htest.2, fun r name bytes replaced he hX => ?_⟩
  exact ((upload_delivery sampleUpload hrun (not_evicted_of_evictionFree htest.1 _)).2.1 r name
    bytes replaced he hX).1

end LocalMediaTransfer
