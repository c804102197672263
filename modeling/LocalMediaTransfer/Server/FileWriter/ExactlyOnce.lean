import LocalMediaTransfer.Server.FileWriter.Effects

/-!
# Finalization is exactly-once and stable

Writers, finalizers, aborters and the idle timer race for one session.  Whatever the
interleaving, one call at most reports that it finalized the session, and all calls that report a
result report the same one.

* `ExactlyOnce.step` — the invariant that relates the history to the state of the session.
* `finalization_exactly_once` — the result, for every run and every ID that was not evicted.
-/

set_option autoImplicit false

namespace LocalMediaTransfer

open Lib

variable {X : ByteString} {cfg : WriterConfig} {s s' : System} {l : Label}

/-- `Saved`, `Duplicate` and `NameConflict`: the results of a finished finalization. -/
def FileFinalizeDisposition.isFinal : FileFinalizeDisposition → Bool
  | .saved | .duplicate | .nameConflict => true
  | .finalizing | .error => false

/-- A `finalizeFileResult` call for `X` returned with `finalizedNow = true`. -/
def Event.isFinalizedNow (X : ByteString) : Event → Bool
  | .finalized id _ _ true => id == X
  | _ => false

/-- Only completion leads to the recording of a result. -/
theorem stepThread_finalizeRemember {w : Writer} {pc : Pc} {env : StepEnv} {now i : Nat}
    {out : Writer × Pc × List Event} {caller : Caller} {r : Ref} {result : FileFinalizeResult}
    (hst : stepThread cfg now i w pc env = some out)
    (hout : out.2.1 = .finalizeRemember caller r result) :
    pc = .finalizeComplete caller r result ∧ out.1 = w.markCompleted r result := by
  have hnot : ∀ {pc' : Pc}, pc'.Detached → pc' ≠ .finalizeRemember caller r result := by
    rintro pc' h rfl
    cases h.recorder
  have habort : ∀ c refs count after,
      (nextAbort c refs count after).1 ≠ .finalizeRemember caller r result := by
    intro c refs count after
    cases refs with
    | nil => exact hnot (detached_resume ..)
    | cons => rintro ⟨⟩
  have hexpire : ∀ refs, (nextExpire refs).1 ≠ .finalizeRemember caller r result := by
    intro refs
    cases refs <;> rintro ⟨⟩
  have hresume : ∀ (cont : Cont) q v healthy,
      (cont.resume q v healthy).2.1 ≠ .finalizeRemember caller r result := by
    intro cont q v healthy
    unfold Cont.resume
    split
    · exact hnot (detached_afterFinalize ..)
    · exact hnot (detached_afterThrow ..)
    · exact habort _ _ _ _
    · exact hexpire _
  cases pc with
  | finalizeComplete c q res =>
    cases hst
    cases hout
    exact ⟨rfl, rfl⟩
  | initFile c a =>
    obtain rfl := Option.some.inj hst
    exact absurd hout (hnot (detached_afterInit ..))
  | finalizeRemember c q res =>
    cases hst
    exact absurd hout (hnot (detached_afterFinalize ..))
  | abortCollect c m after =>
    cases hst
    exact absurd hout (habort _ _ _ _)
  | remember cont q =>
    cases hst
    exact absurd hout (hresume _ _ _ _)
  | expireCollect =>
    cases hst
    exact absurd hout (hexpire _)
  | _ =>
    simp only [stepThread] at hst
    repeat' split at hst
    all_goals cases hst
    all_goals first
      | cases hout
      | exact absurd hout (hnot (detached_afterWrite ..))
      | exact absurd hout (hnot (detached_afterFinalize ..))
      | exact absurd hout (hresume _ _ _ _)

/-- The history of `X` agrees with the state of its session. -/
structure ExactlyOnce (X : ByteString) (s : System) : Prop where
  agree : ∀ session result flag, .finalized X session result flag ∈ s.log →
    (result.disposition.isFinal = true ∨ flag = true) →
    ∃ n, s.writer.sessions.lookup X = some n ∧ (s.writer.states ⟨X, n⟩).completed = true ∧
      (s.writer.states ⟨X, n⟩).result = result
  once : s.log.countP (Event.isFinalizedNow X) ≤ 1
  pending : ∀ i caller r result, s.threads i = .finalizeRemember caller r result → r.fileId = X →
    (s.writer.states r).completed = true ∧ (s.writer.states r).result = result ∧
      s.log.countP (Event.isFinalizedNow X) = 0

theorem ExactlyOnce.completed_of_counted (h : ExactlyOnce X s)
    (hpos : 0 < s.log.countP (Event.isFinalizedNow X)) :
    ∃ n, s.writer.sessions.lookup X = some n ∧ (s.writer.states ⟨X, n⟩).completed = true := by
  obtain ⟨e, he, hnow⟩ := List.countP_pos_iff.mp hpos
  unfold Event.isFinalizedNow at hnow
  split at hnow
  · obtain rfl := beq_iff_eq.mp hnow
    obtain ⟨n, hn, hc, -⟩ := h.agree _ _ _ he (.inr rfl)
    exact ⟨n, hn, hc⟩
  · cases hnow

theorem countP_evictions (w w' : Writer) :
    (evictions w w').countP (Event.isFinalizedNow X) = 0 := by
  rw [List.countP_eq_zero]
  intro e he
  obtain ⟨id, -, rfl⟩ := List.mem_map.mp he
  simp [Event.isFinalizedNow]

theorem countP_start (now : Nat) (c : Call) :
    (c.start now).2.countP (Event.isFinalizedNow X) = 0 := by
  rw [List.countP_eq_zero]
  intro e he
  rcases start_events he with ⟨_, rfl⟩ | ⟨_, rfl⟩ <;> simp [Event.isFinalizedNow]

/-- A step that counts a finalization is the recording of its result. -/
theorem countP_stepThread {w : Writer} {pc : Pc} {env : StepEnv} {now i : Nat}
    {out : Writer × Pc × List Event} (hst : stepThread cfg now i w pc env = some out) :
    out.2.2.countP (Event.isFinalizedNow X) = 0 ∨
      out.2.2.countP (Event.isFinalizedNow X) = 1 ∧
        ∃ caller r result, pc = .finalizeRemember caller r result ∧ r.fileId = X := by
  by_cases h0 : out.2.2.countP (Event.isFinalizedNow X) = 0
  · exact .inl h0
  · right
    obtain ⟨e, he, hnow⟩ := List.countP_pos_iff.mp (Nat.pos_of_ne_zero h0)
    unfold Event.isFinalizedNow at hnow
    split at hnow
    · obtain rfl := beq_iff_eq.mp hnow
      cases stepThread_finalized hst he with
      | done caller r result hpc hfile =>
        subst hpc
        cases hst
        refine ⟨?_, caller, r, _, rfl, hfile.symm⟩
        unfold Caller.afterFinalize
        split <;> simp [Event.isFinalizedNow, hfile]
    · cases hnow

theorem ExactlyOnce.init (X : ByteString) (files : Table ByteString DirEntry) :
    ExactlyOnce X (.init files) where
  agree := by rintro session result flag ⟨⟩
  once := Nat.zero_le _
  pending := by rintro i caller r result ⟨⟩

/-- A thread moves, and `X` is not evicted. -/
theorem ExactlyOnce.stepThread {tid : Nat} {env : StepEnv} {out : Writer × Pc × List Event}
    (h : ExactlyOnce X s) (hlife : Lifecycle X s)
    (hrefs : ∀ r ∈ (s.threads tid).refs, r.fileId = X →
      s.writer.sessions.lookup X = some r.serial)
    (hmove : stepThread cfg s.clock tid s.writer (s.threads tid) env = some out)
    (hkeep : ∀ n, s.writer.sessions.lookup X = some n → out.1.sessions.lookup X = some n) :
    ExactlyOnce X
      { s with
        writer := out.1
        threads := Function.update s.threads tid out.2.1
        log := s.log ++ out.2.2 ++ evictions s.writer out.1 } := by
  obtain ⟨p, hd, hc⟩ := hlife
  have hkeepState : ∀ {n result}, s.writer.sessions.lookup X = some n →
      (s.writer.states ⟨X, n⟩).completed = true → (s.writer.states ⟨X, n⟩).result = result →
      out.1.sessions.lookup X = some n ∧ (out.1.states ⟨X, n⟩).completed = true ∧
        (out.1.states ⟨X, n⟩).result = result := by
    intro n result hn hcomp hres
    obtain ⟨hcomp', hres'⟩ := completed_persists hd (hc tid) hmove (.of_lookup hn) hcomp
    exact ⟨hkeep n hn, hcomp', hres'.trans hres⟩
  have hcount : ∀ log, (log ++ out.2.2 ++ evictions s.writer out.1).countP
      (Event.isFinalizedNow X) =
        log.countP (Event.isFinalizedNow X) + out.2.2.countP (Event.isFinalizedNow X) := by
    intro log
    rw [List.countP_append, List.countP_append, countP_evictions, Nat.add_zero]
  refine ⟨?_, ?_, ?_⟩
  · intro session result flag he hfinal
    rcases List.mem_append.mp he with he | he
    · rcases List.mem_append.mp he with he | he
      · obtain ⟨n, hn, hcomp, hres⟩ := h.agree session result flag he hfinal
        exact ⟨n, hkeepState hn hcomp hres⟩
      · -- the result is returned now
        cases stepThread_finalized hmove he with
        | unknown => simp [FileFinalizeDisposition.isFinal] at hfinal
        | waitFailed => simp [FileFinalizeDisposition.isFinal] at hfinal
        | waitTimeout => simp [FileFinalizeDisposition.isFinal] at hfinal
        | rejected => simp [FileFinalizeDisposition.isFinal] at hfinal
        | failed => simp [FileFinalizeDisposition.isFinal] at hfinal
        | waitCompleted caller r hpc hfile hcomp =>
          subst hfile
          have hn := hrefs r (by rw [hpc]; exact List.mem_singleton.mpr rfl) rfl
          exact ⟨r.serial, hkeepState hn hcomp rfl⟩
        | done caller r result hpc hfile =>
          subst hfile
          obtain ⟨hcomp, hres, -⟩ := h.pending tid caller r result hpc rfl
          have hn := hrefs r (by rw [hpc]; exact List.mem_singleton.mpr rfl) rfl
          exact ⟨r.serial, hkeepState hn hcomp hres⟩
    · obtain ⟨id, -, hid⟩ := List.mem_map.mp he
      cases hid
  · show (s.log ++ out.2.2 ++ evictions s.writer out.1).countP _ ≤ 1
    rw [hcount]
    rcases countP_stepThread (X := X) hmove with h0 | ⟨h1, caller, r, result, hpc, hX⟩
    · rw [h0]
      exact h.once
    · rw [h1, (h.pending tid caller r result hpc hX).2.2]
  · show ∀ i caller r result, Function.update s.threads tid out.2.1 i = _ → _
    intro i caller r result hi hX
    subst hX
    show (out.1.states r).completed = true ∧ (out.1.states r).result = result ∧
      (s.log ++ out.2.2 ++ evictions s.writer out.1).countP _ = 0
    rw [hcount]
    by_cases hit : i = tid
    · subst hit
      rw [Function.update_self] at hi
      obtain ⟨hpc, hw⟩ := stepThread_finalizeRemember hmove hi
      have hp := (hc i).finalizer r (by rw [hpc]; rfl) rfl
      have hnot : s.log.countP (Event.isFinalizedNow r.fileId) = 0 := by
        by_contra hne
        obtain ⟨n, hn, hcomp⟩ := h.completed_of_counted (Nat.pos_of_ne_zero hne)
        have hs := hd.session
        rw [hn, hp] at hs
        cases hs
        rw [(hd.open_ r.serial (.inr ⟨i, hp⟩)).2] at hcomp
        cases hcomp
      refine ⟨by simp [hw, Writer.markCompleted, Writer.updateState],
        by simp [hw, Writer.markCompleted, Writer.updateState, FinalizationState.result], ?_⟩
      rcases countP_stepThread (X := r.fileId) hmove with h0 | ⟨-, _, _, _, hpc', -⟩
      · rw [hnot, h0]
      · rw [hpc] at hpc'
        cases hpc'
    · rw [Function.update_of_ne hit] at hi
      obtain ⟨hcomp, hres, h0⟩ := h.pending i caller r result hi rfl
      have hp := (hc i).recorder r (by rw [hi]; rfl) rfl
      have hn : s.writer.sessions.lookup r.fileId = some r.serial := by
        rw [hd.session, hp]
        rfl
      obtain ⟨-, hcomp', hres'⟩ := hkeepState hn hcomp hres
      refine ⟨hcomp', hres', ?_⟩
      rcases countP_stepThread (X := r.fileId) hmove with h0' | ⟨-, _, q, _, hpc', hq⟩
      · rw [h0, h0']
      · have hp' := (hc tid).recorder q (by rw [hpc']; rfl) hq
        rw [hp] at hp'
        simp only [Phase.settled.injEq, Option.some.injEq] at hp'
        exact absurd hp'.2 hit

/-- A call starts. -/
theorem ExactlyOnce.call (h : ExactlyOnce X s) (tid : Nat) (c : Call) :
    ExactlyOnce X
      { s with
        threads := Function.update s.threads tid (c.start s.clock).1
        log := s.log ++ (c.start s.clock).2 } := by
  have hcount : (s.log ++ (c.start s.clock).2).countP (Event.isFinalizedNow X) =
      s.log.countP (Event.isFinalizedNow X) := by
    rw [List.countP_append, countP_start, Nat.add_zero]
  refine ⟨?_, ?_, ?_⟩
  · intro session result flag he hfinal
    rcases List.mem_append.mp he with he | he
    · exact h.agree session result flag he hfinal
    · rcases start_events he with ⟨_, h⟩ | ⟨_, h⟩ <;> cases h
  · exact hcount.trans_le h.once
  · intro i caller r result hi hX
    have hold := update_start (P := fun pc => pc.recorder = some r)
      (fun hd _ hr => by cases hd.recorder.symm.trans hr) hi rfl
    exact hcount ▸ h.pending i caller r result hold hX

theorem exactlyOnce_of_run {ok : System → Label → Prop} {files : Table ByteString DirEntry}
    (hrun : Run (step cfg) ok (.init files) s) (hkept : Event.evicted X ∉ s.log) :
    ExactlyOnce X s := by
  induction hrun with
  | refl => exact .init X files
  | tail hr _ hst ih =>
    have hun := unevicted_of_run (X := X) hr
    cases step_spec hst with
    | call tid c hidle => exact (ih fun hm => hkept (List.mem_append_left _ hm)).call tid c
    | run tid env out hmove =>
      have hlog : Event.evicted X ∉ _ := fun hm =>
        hkept (List.mem_append_left _ (List.mem_append_left _ hm))
      obtain ⟨hlife, hrefs⟩ := hun hlog
      refine (ih hlog).stepThread hlife (hrefs tid) hmove fun n hn => ?_
      rcases stepThread_sessions hmove hn with h | h
      · exact h
      · exact absurd (List.mem_append_right _ (mem_evictions hn h)) hkept
    | tick elapsed =>
      have h := ih hkept
      exact ⟨h.agree, h.once, h.pending⟩

/-- **Finalization is exactly-once and stable**: in every run, as long as the record of `X` is not
evicted from the completed-session cache, at most one `finalizeFileResult` call returns with
`finalizedNow = true`; any two calls that return `Saved`, `Duplicate` or `NameConflict`, or that
finalized, return the same result; no call has returned such a result for a session that was
aborted or whose finalization failed; and no session is both completed and failed. -/
theorem finalization_exactly_once {files : Table ByteString DirEntry}
    (hrun : Run (step cfg) (fun _ _ => True) (.init files) s) (X : ByteString)
    (hkept : Event.evicted X ∉ s.log) :
    s.log.countP (Event.isFinalizedNow X) ≤ 1 ∧
    (∀ session session' result result' flag flag',
      .finalized X session result flag ∈ s.log → .finalized X session' result' flag' ∈ s.log →
      (result.disposition.isFinal = true ∨ flag = true) →
      (result'.disposition.isFinal = true ∨ flag' = true) → result = result') ∧
    (∀ n, s.writer.sessions.lookup X = some n → (s.writer.states ⟨X, n⟩).failed = true →
      ∀ session result flag, .finalized X session result flag ∈ s.log →
        result.disposition.isFinal = false ∧ flag = false) ∧
    ∀ n, ¬((s.writer.states ⟨X, n⟩).completed = true ∧ (s.writer.states ⟨X, n⟩).failed = true) := by
  have h := exactlyOnce_of_run hrun hkept
  obtain ⟨⟨p, hd, -⟩, -⟩ := unevicted_of_run (X := X) hrun hkept
  refine ⟨h.once, ?_, ?_, hd.exclusive⟩
  · intro session session' result result' flag flag' he he' hf hf'
    obtain ⟨n, hn, -, hres⟩ := h.agree _ _ _ he hf
    obtain ⟨m, hm, -, hres'⟩ := h.agree _ _ _ he' hf'
    cases hn.symm.trans hm
    exact hres.symm.trans hres'
  · intro n hn hfailed session result flag he
    by_contra hne
    have hf : result.disposition.isFinal = true ∨ flag = true := by
      by_contra hnot
      simp only [not_or, Bool.not_eq_true] at hnot
      exact hne hnot
    obtain ⟨m, hm, hcomp, -⟩ := h.agree _ _ _ he hf
    cases hn.symm.trans hm
    exact hd.exclusive n ⟨hcomp, hfailed⟩

/-- An upload in one request, and a second finalization of the same ID. -/
def sampleRetry : List Label :=
  sampleCall 0 (.uploadChunk (sampleRequest "1" "0" "1" "2" "ab")) 13 ++
    sampleCall 1 (.finalizeFileResult (ascii "o-1")) 2

/-- An upload that is aborted after its first chunk, and a finalization of its ID. -/
def sampleAborted : List Label :=
  sampleCall 2 (.uploadChunk (sampleRequest "2" "0" "2" "4" "ab")) 6 ++
    sampleCall 2 (.abortFile (ascii "o-2")) 5 ++ sampleCall 2 (.finalizeFileResult (ascii "o-2")) 2

/-- What the finalizations of an ID returned. -/
def finalizations (X : ByteString) (log : List Event) : List (FileFinalizeResult × Bool) :=
  log.filterMap fun
    | .finalized id _ result finalizedNow => if id = X then some (result, finalizedNow) else none
    | _ => none

theorem mem_finalizations (X : ByteString) (log : List Event) {result : FileFinalizeResult}
    {flag : Bool} (h : (result, flag) ∈ finalizations X log) :
    ∃ session, .finalized X session result flag ∈ log := by
  obtain ⟨e, he, hresult⟩ := List.mem_filterMap.mp h
  split at hresult
  · rename_i id session result' flag'
    split at hresult
    · rename_i hid
      cases hresult
      exact ⟨session, hid ▸ he⟩
    · cases hresult
  · cases hresult

/-- The first upload is saved once and answered alike twice; the second was aborted and is not. -/
theorem finalization_exactly_once_sampleRetry :
    ∃ s, Run (step (sampleConfig .keepBoth)) (fun _ _ => True) (.init ∅) s ∧
      s.log.countP (Event.isFinalizedNow (ascii "o-1")) ≤ 1 ∧
      (∃ result result', finalizations (ascii "o-1") s.log = [(result, true), (result', false)] ∧
        result.disposition = .saved ∧ result' = result) ∧
      ∃ result flag, finalizations (ascii "o-2") s.log = [(result, flag)] ∧
        result.disposition.isFinal = false ∧ flag = false ∧
        (s.writer.states ⟨ascii "o-2", 1⟩).completed = false := by
  obtain ⟨s, hrun, htest⟩ := Run.exists_of_exec (step (sampleConfig .keepBoth)) (fun _ _ => true)
    (fun s => s.log.all (fun e => !e.isEviction (ascii "o-1")) &&
      s.log.all (fun e => !e.isEviction (ascii "o-2")) &&
      decide ((finalizations (ascii "o-1") s.log).map (fun a => (a.1.disposition, a.2)) =
        [(.saved, true), (.saved, false)]) &&
      (finalizations (ascii "o-2") s.log).length == 1 &&
      s.writer.sessions.lookup (ascii "o-2") == some 1 &&
      (s.writer.states ⟨ascii "o-2", 1⟩).failed)
    (.init ∅) (sampleRetry ++ sampleAborted) (fun _ _ _ => trivial) (by decide)
  simp only [Bool.and_eq_true, beq_iff_eq, decide_eq_true_eq] at htest
  obtain ⟨⟨⟨⟨⟨hkept, hkept'⟩, htwice⟩, hone⟩, hsession⟩, hfailed⟩ := htest
  obtain ⟨honce, hagree, -, -⟩ :=
    finalization_exactly_once hrun (ascii "o-1") (not_evicted_of_all hkept)
  obtain ⟨-, -, haborted, hexclusive⟩ :=
    finalization_exactly_once hrun (ascii "o-2") (not_evicted_of_all hkept')
  refine ⟨s, hrun, honce, ?_, ?_⟩
  · obtain ⟨⟨result, flag⟩, rest, hresults, hfirst, hrest⟩ := List.map_eq_cons_iff.mp htwice
    obtain ⟨⟨result', flag'⟩, rest', rfl, hsecond, hnil⟩ := List.map_eq_cons_iff.mp hrest
    obtain rfl := List.map_eq_nil_iff.mp hnil
    simp only [Prod.mk.injEq] at hfirst hsecond
    obtain ⟨hsaved, rfl⟩ := hfirst
    obtain ⟨hsaved', rfl⟩ := hsecond
    obtain ⟨session, he⟩ := mem_finalizations (ascii "o-1") s.log
      (hresults ▸ List.mem_cons_self)
    obtain ⟨session', he'⟩ := mem_finalizations (ascii "o-1") s.log
      (hresults ▸ List.mem_cons_of_mem _ List.mem_cons_self)
    exact ⟨result, result', hresults, hsaved,
      hagree _ _ _ _ _ _ he' he (.inl (by rw [hsaved']; rfl)) (.inl (by rw [hsaved]; rfl))⟩
  · obtain ⟨⟨result, flag⟩, hresults⟩ := List.length_eq_one_iff.mp hone
    obtain ⟨session, he⟩ := mem_finalizations (ascii "o-2") s.log
      (hresults ▸ List.mem_cons_self)
    obtain ⟨hfinal, hflag⟩ := haborted 1 hsession hfailed session result flag he
    refine ⟨result, flag, hresults, hfinal, hflag, ?_⟩
    rw [Bool.eq_false_iff]
    exact fun hcompleted => hexclusive 1 ⟨hcompleted, hfailed⟩

end LocalMediaTransfer
