import LocalMediaTransfer.Server.FileWriter.Calls
import LocalMediaTransfer.Server.FileWriter.Content

/-!
# The counters of an active handle

`writeChunk` checks a chunk against the counters in one section and moves them in a later one, and
it never compares the index with the number of chunks the session was opened with: the handler
compares it with the header of the current request only.

* `Bookkept` — what the counters of a handle are supposed to satisfy.
* `Label.declared` — the steps that stay within the number of chunks declared at the start.
* `chunk_bookkeeping` — **the counters are right in every run of such steps**.
* `chunk_bookkeeping_sampleOverrun` — two requests with another `X-Total-Chunks` get past both
  checks.
-/

set_option autoImplicit false

namespace LocalMediaTransfer

open Lib

variable {X : ByteString} {cfg : WriterConfig} {s s' : System} {l : Label}

/-- The counters of a handle agree with each other and with what was declared. -/
structure Bookkept (h : FileHandle) : Prop where
  length : h.acceptedChunkSizes.length = h.chunksReceived
  received : h.chunksReceived ≤ h.chunksExpected
  expected : h.chunksExpected ≤ MaxChunksPerFile
  sum : h.bytesWritten = h.acceptedChunkSizes.sum
  written : h.bytesWritten ≤ h.totalSize
  remaining : sub64 h.totalSize h.bytesWritten = h.totalSize - h.bytesWritten
  nonempty : ∀ size ∈ h.acceptedChunkSizes, 0 < size

/-- Whether the writer, when it compares the next chunk with a handle that has all its declared
chunks, finds it too large for the remaining bytes. -/
def Label.declared (s : System) : Label → Bool
  | .run i _ =>
      match s.threads i with
      | .writeCheck chunk r =>
          match s.writer.handles.lookup r.fileId with
          | some h =>
              !(h.chunksReceived == h.chunksExpected && chunk.chunkIndex == h.chunksReceived) ||
                sub64 h.totalSize h.bytesWritten < chunk.data.length
          | none => true
      | _ => true
  | _ => true

/-! ## Non-empty chunks -/

/-- A `writeChunk` call brings data. -/
def Args.Nonempty : Args → Prop
  | .init .. => True
  | .write _ call => call.data ≠ []

theorem starts_nonempty (hl : l.isTraffic = true) : l.Starts Args.Nonempty s := by
  cases l with
  | call tid c =>
    intro e he
    rcases start_args he with ⟨http, req, rfl, -, ⟨rfl, -⟩ | rfl⟩ | ⟨a, rfl,
      rfl⟩ | ⟨_, _, _, rfl, -⟩
    · trivial
    · exact req.data_ne
    · trivial
    · cases hl
  | run => trivial
  | tick => trivial

/-- An accepted chunk was the data of a call. -/
theorem accepted_nonempty {ok : System → Label → Prop} {files : Table ByteString DirEntry}
    (hok : ∀ s l, ok s l → l.isTraffic = true)
    (hrun : Run (step cfg) ok (.init files) s) :
    ∀ r data, Event.accepted r data ∈ s.log → data ≠ [] := by
  have hcarries : ∀ {t}, Run (step cfg) ok (.init files) t → Carries Args.Nonempty t := fun hr =>
    carries_of_run (fun req _ _ => req.data_ne) (fun _ _ h => starts_nonempty (hok _ _ h)) hr
  induction hrun with
  | refl => rintro r data ⟨⟩
  | tail hr _ hst ih =>
    intro r data he
    cases step_spec hst with
    | call tid c hidle =>
      rcases List.mem_append.mp he with he | he
      · exact ih r data he
      · rcases start_events he with ⟨_, h⟩ | ⟨_, h⟩ <;> cases h
    | run tid env out hmove =>
      rcases List.mem_append.mp he with he | he
      · rcases List.mem_append.mp he with he | he
        · exact ih r data he
        · obtain ⟨call, q, _, _, _, _, hpc, _, _, _, rfl⟩ := stepThread_accepted hmove he
          exact hcarries hr tid (.write q.fileId call) (by rw [hpc]; rfl)
      · obtain ⟨id, -, hid⟩ := List.mem_map.mp he
        cases hid
    | tick => exact ih r data he

/-! ## The declared number of chunks -/

/-- A handle has at most the declared number of chunks, and one less while a write is on its way. -/
structure Bounded (X : ByteString) (s : System) : Prop where
  handle : ∀ h, s.writer.handles.lookup X = some h →
    h.chunksReceived ≤ h.chunksExpected ∧ h.chunksExpected ≤ MaxChunksPerFile
  flight : ∀ i h, s.writer.handles.lookup X = some h → (s.threads i).writing X = true →
    h.chunksReceived < h.chunksExpected

/-- A thread starts to write to a handle it has checked, or goes on. -/
theorem ContentStep.writing_cases {now : Nat} {w : Writer} {pc : Pc}
    {out : Writer × Pc × List Event} (h : ContentStep X cfg now w pc out)
    (hw : out.2.1.writing X = true) :
    (∃ call r g, pc = .writeCheck call r ∧ r.fileId = X ∧ w.handles.lookup X = some g ∧
      call.chunkIndex = g.chunksReceived ∧
      call.data.length ≤ sub64 g.totalSize g.bytesWritten ∧ out.1.handles = w.handles) ∨
    pc.writing X = true ∧ out.1.handles = w.handles := by
  cases h with
  | quiet _ hafter =>
    rw [Pc.writing_of_tracked hafter] at hw
    cases hw
  | created =>
    rw [Pc.writing_of_tracked (Pc.tracked_of_refs_nil (refs_afterInit ..))] at hw
    cases hw
  | accepted call r g hX hl hnext hfits =>
    exact .inl ⟨call, r, g, rfl, hX, hl, hnext, hfits, rfl⟩
  | copied => exact .inr ⟨hw, updateHash_handles ..⟩
  | committed =>
    rw [Pc.writing_of_tracked (Pc.tracked_of_refs_nil (refs_afterWrite ..))] at hw
    cases hw
  | aborted =>
    rw [Pc.writing_of_tracked (tracked_nextAbort ..)] at hw
    cases hw
  | _ => cases hw

theorem Bounded.stepThread {tid : Nat} {env : StepEnv} {out : Writer × Pc × List Event}
    (h : Bounded X s) (hlife : Lifecycle X s) (hlocked : Locked s)
    (hfresh : FreshInit X s (.run tid env)) (hdecl : (Label.run tid env).declared s = true)
    (hmove : stepThread cfg s.clock tid s.writer (s.threads tid) env = some out) :
    Bounded X
      { s with
        writer := out.1
        threads := Function.update s.threads tid out.2.1
        log := s.log ++ out.2.2 ++ evictions s.writer out.1 } := by
  obtain ⟨p, hd, hc⟩ := hlife
  have hstep := stepThread_content X hmove
  refine ⟨?_, ?_⟩
  · intro g hg
    rcases hstep.handle_cases hg with
      hg | ⟨call, r, _, _, _, g₀, hpc, hX, hg₀, rfl⟩ |
      ⟨caller, a, ienv, _, rfl, hvalid, hinactive, _, hw⟩
    · exact h.handle g hg
    · refine ⟨?_, (h.handle g₀ hg₀).2⟩
      exact h.flight tid g₀ hg₀ (by simp [hpc, Pc.writing, hX])
    · simp only [hw] at hg
      rw [(createSession_handle hinactive hg).1]
      simp only [InitArgs.valid, Bool.and_eq_true, Bool.not_eq_true', Bool.or_eq_false_iff,
        decide_eq_false_iff_not, not_lt] at hvalid
      exact ⟨Nat.zero_le _, hvalid.2.2⟩
  · intro j g hg hwj
    by_cases hj : j = tid
    · subst hj
      simp only [Function.update_self] at hwj
      rcases hstep.writing_cases hwj with ⟨call, r, g', hpc, rfl, hl, hnext, hfits, hh⟩ | ⟨hw, hh⟩
      · simp only [hh, hl, Option.some.injEq] at hg
        subst hg
        -- the handle has a chunk to go, or the step would be excluded
        refine lt_of_le_of_ne (h.handle g' hl).1 fun heq => ?_
        simp only [Label.declared, hpc, hl, heq, hnext, BEq.rfl, Bool.and_self, Bool.not_true,
          Bool.false_or, decide_eq_true_eq] at hdecl
        omega
      · simp only [hh] at hg
        exact h.flight j g hg hw
    · simp only [Function.update_of_ne hj] at hwj
      rcases hstep.handle_cases hg with
        hg | ⟨call, r, _, _, _, g₀, hpc, hX, hg₀, rfl⟩ |
        ⟨caller, a, ienv, hpc, hX, _, _, hunknown, _⟩
      · exact h.flight j g hg hwj
      · rw [not_writing_of_held hd hc hlocked hg₀ (r := r) (k := tid) (by rw [hpc]; rfl)
          (by rw [hpc]; rfl) hX hj] at hwj
        cases hwj
      · obtain ⟨r, hr, -, hrX⟩ := Pc.held_of_writing hwj
        exact absurd hrX (hfresh tid env caller a rfl hpc hX hunknown j r (Pc.held_mem_refs hr))

theorem bounded_of_run {ok : System → Label → Prop} {files : Table ByteString DirEntry}
    (hok : ∀ s l, ok s l → FreshInit X s l ∧ l.declared s = true)
    (hrun : Run (step cfg) ok (.init files) s) : Bounded X s := by
  induction hrun with
  | refl =>
    exact ⟨by rintro h ⟨⟩, by rintro i h ⟨⟩⟩
  | tail hr hl hst ih =>
    have hlife := lifecycle_of_run (X := X) (fun s l h => (hok s l h).1) hr
    cases step_spec hst with
    | call tid c hidle =>
      refine ⟨ih.handle, fun i h hl => ?_⟩
      refine forall_update (P := fun _ pc => pc.writing X = true →
        h.chunksReceived < h.chunksExpected) ?_ (fun j _ => ih.flight j h hl) i
      rw [Pc.writing_of_tracked (Pc.tracked_of_refs_nil (refs_start ..))]
      rintro ⟨⟩
    | run tid env out hmove =>
      exact ih.stepThread hlife (locked_of_run hr) (hok _ _ hl).1 (hok _ _ hl).2 hmove
    | tick => exact ⟨ih.handle, ih.flight⟩

/-! ## The result -/

/-- **The counters of every active handle are right** in every state of every run of requests,
cancels and timeouts whose steps keep to the declared number of chunks, when a session is only
created while no call carries a reference to an earlier one of its ID. -/
theorem chunk_bookkeeping {files : Table ByteString DirEntry}
    (hrun : Run (step cfg)
      (fun s l => l.isTraffic = true ∧ l.declared s = true ∧ ∀ X, FreshInit X s l)
        (.init files) s) :
    ∀ id h, s.writer.handles.lookup id = some h → Bookkept h := by
  intro id h hl
  obtain ⟨c, -, hr⟩ := (content_of_run (X := id) (fun _ _ h => h.2.2 id) hrun).handle h hl
  obtain ⟨hreceived, hexpected⟩ :=
    (bounded_of_run (X := id) (fun _ _ h => ⟨h.2.2 id, h.2.1⟩) hrun).handle h hl
  have hnonempty := accepted_nonempty (fun _ _ h => h.1) hrun
  have hlength : h.bytesWritten = (acceptedBytes s.log ⟨id, h.serial⟩).length := by
    rw [← hr.bytes, List.length_take, hr.length]
    exact (Nat.min_eq_left hr.written).symm
  refine ⟨?_, hreceived, hexpected, ?_, hr.written, sub64_of_le hr.written hr.small, ?_⟩
  · rw [hr.sizes, hr.count, List.length_map]
  · rw [hlength, hr.sizes, acceptedBytes, List.length_flatten]
  · intro size hsize
    rw [hr.sizes, List.mem_map] at hsize
    obtain ⟨data, hdata, rfl⟩ := hsize
    obtain ⟨e, he, hdata⟩ := List.mem_filterMap.mp hdata
    split at hdata
    · rename_i q d
      split at hdata
      · cases hdata
        exact List.length_pos_of_ne_nil (hnonempty q data he)
      · cases hdata
    · cases hdata

/-- An upload of two chunks, half done, and a retry of its first chunk. -/
def sampleHalf : List Label :=
  sampleCall 0 (.uploadChunk (sampleRequest "1" "0" "2" "4" "ab")) 6 ++
    sampleCall 1 (.uploadChunk (sampleRequest "1" "0" "2" "4" "ab")) 4

theorem chunk_bookkeeping_sampleHalf :
    ∃ s h, Run (step (sampleConfig .keepBoth))
        (fun s l => l.isTraffic = true ∧ l.declared s = true ∧ ∀ X, FreshInit X s l) (.init ∅) s ∧
      s.writer.handles.lookup (ascii "o-1") = some h ∧ h.chunksReceived = 1 ∧ Bookkept h := by
  obtain ⟨s, hrun, htest⟩ := Run.exists_of_exec (step (sampleConfig .keepBoth))
    (fun s l => l.isTraffic && l.declared s && evictionFree s.log)
    (fun s => (s.writer.handles.lookup (ascii "o-1")).any (·.chunksReceived == 1))
    (.init ∅) sampleHalf (fun _ _ h => h) (by decide)
  have hfresh : Run (step (sampleConfig .keepBoth))
      (fun s l => l.isTraffic = true ∧ l.declared s = true ∧ ∀ X, FreshInit X s l) (.init ∅) s := by
    refine run_freshInit (fun _ _ h => (Bool.and_eq_true_iff.mp h).2) (fun _ _ _ h hfresh => ?_)
      hrun
    simp only [Bool.and_eq_true] at h
    exact ⟨h.1.1, h.1.2, hfresh⟩
  obtain ⟨h, hl, hone⟩ := (Option.any_eq_true _ _).mp htest
  exact ⟨s, h, hfresh, hl, beq_iff_eq.mp hone, chunk_bookkeeping hfresh (ascii "o-1") h hl⟩

/-- An upload declared with two chunks; the requests for chunks 1 and 2 say that there are 100. -/
def sampleOverrun : List Label :=
  sampleCall 0 (.uploadChunk (sampleRequest "1" "0" "2" "10" "ab")) 6 ++
    sampleCall 0 (.uploadChunk (sampleRequest "1" "1" "100" "10" "ab")) 5 ++
    sampleCall 0 (.uploadChunk (sampleRequest "1" "2" "100" "10" "ab")) 5

/-- The counters of an active handle are not always right: here three of two chunks arrived. -/
theorem chunk_bookkeeping_sampleOverrun :
    ∃ s h, Run (step (sampleConfig .keepBoth)) (fun _ l => l.isTraffic = true) (.init ∅) s ∧
      s.writer.handles.lookup (ascii "o-1") = some h ∧ h.chunksExpected = 2 ∧
      h.chunksReceived = 3 ∧ ¬Bookkept h := by
  obtain ⟨s, hrun, htest⟩ := Run.exists_of_exec (step (sampleConfig .keepBoth))
    (fun _ l => l.isTraffic)
    (fun s => (s.writer.handles.lookup (ascii "o-1")).any fun h =>
      h.chunksExpected == 2 && h.chunksReceived == 3)
    (.init ∅) sampleOverrun (fun _ _ h => h) (by decide)
  obtain ⟨h, hl, hcount⟩ := (Option.any_eq_true _ _).mp htest
  simp only [Bool.and_eq_true, beq_iff_eq] at hcount
  refine ⟨s, h, hrun, hl, hcount.1, hcount.2, fun hb => ?_⟩
  have hle := hb.received
  omega

end LocalMediaTransfer
