import LocalMediaTransfer.Server.FileWriter.Transitions

/-!
# Runs of the receiver

The lifecycle over whole runs, and the two facts about threads that everything else uses: a write
mutex has one holder, and a reference that a thread carries is to the registered session.

* `step_spec` — the three kinds of steps.
* `Lifecycle.step`, `lifecycle_of_run` — the lifecycle of `X` holds along every run in which `X`
  is only created afresh (`FreshInit`).
* `Unevicted.step`, `unevicted_of_run` — it holds along **every** run until `X` is evicted, and
  until then all threads carry references to one and the same session of `X`.
* `Locked.step` — mutual exclusion.
-/

set_option autoImplicit false

namespace LocalMediaTransfer

open Lib

variable {X : ByteString} {cfg : WriterConfig} {s s' : System} {l : Label}

/-! ## Steps -/

/-- The three kinds of steps. -/
inductive StepSpec (cfg : WriterConfig) (s : System) : Label → System → Prop where
  | call (tid : Nat) (c : Call) (idle : s.threads tid = .idle) :
      StepSpec cfg s (.call tid c)
        { s with
          threads := Function.update s.threads tid (c.start s.clock).1
          log := s.log ++ (c.start s.clock).2 }
  | run (tid : Nat) (env : StepEnv) (out : Writer × Pc × List Event)
      (moves : stepThread cfg s.clock tid s.writer (s.threads tid) env = some out) :
      StepSpec cfg s (.run tid env)
        { s with
          writer := out.1
          threads := Function.update s.threads tid out.2.1
          log := s.log ++ out.2.2 ++ evictions s.writer out.1 }
  | tick (elapsed : Nat) :
      StepSpec cfg s (.tick elapsed) { s with clock := s.clock + elapsed }

theorem step_spec (h : step cfg s l = some s') : StepSpec cfg s l s' := by
  unfold step at h
  split at h
  · split at h
    · rename_i hidle
      cases h
      exact .call _ _ hidle
    · cases h
  · split at h
    · rename_i w pc events hmove
      cases h
      exact .run _ _ (w, pc, events) hmove
    · cases h
  · cases h
    exact .tick _

/-- A property of the shared state and of every thread, after thread `tid` moved. -/
theorem forall_update {P : Nat → Pc → Prop} {T : Nat → Pc} {tid : Nat} {pc : Pc} (hself : P tid pc)
    (hothers : ∀ j, j ≠ tid → P j (T j)) : ∀ j, P j (Function.update T tid pc j) := by
  intro j
  by_cases hj : j = tid
  · subst hj
    rw [Function.update_self]
    exact hself
  · rw [Function.update_of_ne hj]
    exact hothers j hj

/-! ## The lifecycle along runs -/

theorem Lifecycle.init (X : ByteString) (files : Table ByteString DirEntry) :
    Lifecycle X (.init files) := by
  refine ⟨.absent, ?_, fun i => .of_detached detached_idle⟩
  exact
    { session := rfl
      handle := rfl
      metadata := by rintro h ⟨⟩
      reserved := fun n => by simp [System.init, Writer.init, Phase.charged]
      finalizing := fun n => by simp [System.init, Writer.init]
      open_ := by simp
      condemned := by simp
      settled := by simp
      exclusive := fun n => by simp [System.init, Writer.init]
      order := rfl
      temp := by simp [System.init, Writer.init] }

/-- **The writer refines the lifecycle**, one step. -/
theorem Lifecycle.step (h : Lifecycle X s) (hfresh : FreshInit X s l)
    (hst : step cfg s l = some s') : Lifecycle X s' := by
  obtain ⟨p, hd, hc⟩ := h
  cases step_spec hst with
  | call tid c hidle =>
    exact ⟨p, hd, forall_update (.of_detached (detached_start ..)) fun j _ => hc j⟩
  | run tid env out hmove =>
    obtain ⟨q, hd', hself, hothers⟩ := Next.stepThread hd hc
      (fun caller a hpc hX hn => hfresh tid env caller a rfl hpc hX hn) hmove
    exact ⟨q, hd', forall_update hself hothers⟩
  | tick elapsed => exact ⟨p, hd, hc⟩

/-- **The writer refines the lifecycle**, along every run that creates `X` afresh. -/
theorem lifecycle_of_run {ok : System → Label → Prop} {files : Table ByteString DirEntry}
    (hok : ∀ s l, ok s l → FreshInit X s l)
    (hrun : Run (LocalMediaTransfer.step cfg) ok (.init files) s) :
    Lifecycle X s :=
  hrun.invariant (Lifecycle.init X files) fun _ _ _ h hl hst => h.step (hok _ _ hl) hst

/-! ## What threads carry -/

theorem refs_afterInit (caller : Caller) (a : InitArgs) (ok : Bool) :
    (caller.afterInit a ok).1.refs = [] := by
  unfold Caller.afterInit
  split
  · rfl
  · split <;> rfl

theorem refs_afterWrite (call : WriteCall) (id : ByteString) (status : ChunkWriteStatus) :
    (call.afterWrite id status).1.refs = [] := by
  unfold WriteCall.afterWrite
  split
  · rfl
  · cases status <;> simp only <;> try split
    all_goals rfl

theorem refs_afterFinalize (caller : Caller) (id : ByteString) (session : Option Ref)
    (result : FileFinalizeResult) (now : Bool) :
    (caller.afterFinalize id session result now).1.refs = [] := by
  unfold Caller.afterFinalize
  split <;> rfl

theorem refs_afterThrow (caller : Caller) (r : Ref) (what : String) (healthy : Bool) :
    (caller.afterThrow r what healthy).1.refs = [] := by
  unfold Caller.afterThrow
  split <;> rfl

theorem refs_afterAbort (after : AfterAbort) (caller : Caller) (count : Nat) :
    (after.resume caller count).1.refs = [] := by
  unfold AfterAbort.resume
  split
  · rfl
  · exact refs_afterWrite ..
  · exact refs_afterFinalize ..
  · split <;> rfl
  · rfl

theorem refs_nextAbort {caller : Caller} {refs : List Ref} {count : Nat} {after : AfterAbort}
    {r : Ref} (hr : r ∈ (nextAbort caller refs count after).1.refs) : r ∈ refs ++ after.refs := by
  cases refs with
  | nil =>
    rw [nextAbort, refs_afterAbort] at hr
    cases hr
  | cons q rest => exact hr

theorem refs_nextExpire {refs : List Ref} {r : Ref} (hr : r ∈ (nextExpire refs).1.refs) :
    r ∈ refs := by
  cases refs with
  | nil => cases hr
  | cons q rest => exact hr

theorem refs_resume {cont : Cont} {q r : Ref} {w : Writer} {healthy : Bool}
    (hr : r ∈ (cont.resume q w healthy).2.1.refs) : r ∈ cont.refs := by
  unfold Cont.resume at hr
  split at hr
  · rw [refs_afterFinalize] at hr
    cases hr
  · rw [refs_afterThrow] at hr
    cases hr
  · exact List.mem_cons_of_mem _ (refs_nextAbort hr)
  · exact refs_nextExpire hr

theorem refs_start (now : Nat) (c : Call) : (c.start now).1.refs = [] := by
  unfold Call.start
  split
  · split
    · rfl
    · unfold ChunkRequest.start
      split <;> rfl
  all_goals try rfl
  · split <;> rfl

/-- A thread carries what it carried before, or a session it has just found registered. -/
theorem stepThread_refs {now i : Nat} {w : Writer} {pc : Pc} {env : StepEnv}
    {out : Writer × Pc × List Event} (hst : stepThread cfg now i w pc env = some out) {r : Ref}
    (hr : r ∈ out.2.1.refs) :
    r ∈ pc.refs ∨ (∃ h, w.handles.lookup r.fileId = some h ∧ h.serial = r.serial) ∨
      w.sessions.lookup r.fileId = some r.serial := by
  cases pc with
  | idle => cases hst
  | initFile caller a =>
    cases hst
    rw [refs_afterInit] at hr
    cases hr
  | writeLookup call id =>
    simp only [stepThread] at hst
    split at hst
    · rename_i h hl
      cases hst
      obtain rfl := List.mem_singleton.mp hr
      exact .inr (.inl ⟨h, hl, rfl⟩)
    · split at hst <;> cases hst
      · rename_i n hn
        obtain rfl := List.mem_singleton.mp hr
        exact .inr (.inr hn)
      · rw [refs_afterWrite] at hr
        cases hr
  | writeLock call q =>
    obtain ⟨-, rfl⟩ := stepThread_lock rfl hst
    exact .inl hr
  | writeCheck call q =>
    simp only [stepThread] at hst
    split at hst
    · split at hst <;> cases hst
      · rw [refs_afterWrite] at hr
        cases hr
      · exact .inl hr
    · split at hst <;> cases hst
      · rename_i n hn
        rcases List.mem_cons.mp hr with rfl | hr
        · exact .inr (.inr hn)
        · exact .inl hr
      · rw [refs_afterWrite] at hr
        cases hr
  | writeCopy call q target offset =>
    simp only [stepThread] at hst
    split at hst <;> cases hst
    · cases hr
    · exact .inl hr
  | writeCommit call q target offset hashUpdated =>
    simp only [stepThread] at hst
    split at hst <;> cases hst <;>
    · rw [refs_afterWrite] at hr
      cases hr
  | writeWait call held q =>
    simp only [stepThread] at hst
    split at hst
    · cases hst
      rw [refs_afterWrite] at hr
      cases hr
    · split at hst
      · cases hst
        rw [refs_afterWrite] at hr
        cases hr
      · split at hst <;> cases hst
        rw [refs_afterWrite] at hr
        cases hr
  | finalizeLookup caller id =>
    simp only [stepThread] at hst
    split at hst
    · rename_i h hl
      cases hst
      obtain rfl := List.mem_singleton.mp hr
      exact .inr (.inl ⟨h, hl, rfl⟩)
    · split at hst <;> cases hst
      · rename_i n hn
        obtain rfl := List.mem_singleton.mp hr
        exact .inr (.inr hn)
      · rw [refs_afterFinalize] at hr
        cases hr
  | finalizeLock caller q =>
    obtain ⟨-, rfl⟩ := stepThread_lock rfl hst
    exact .inl hr
  | finalizeTake caller q =>
    simp only [stepThread] at hst
    split at hst
    · split at hst <;> cases hst <;> exact .inl hr
    · split at hst <;> cases hst
      · rename_i n hn
        obtain rfl := List.mem_singleton.mp hr
        exact .inr (.inr hn)
      · rw [refs_afterFinalize] at hr
        cases hr
  | finalizeWait caller q =>
    simp only [stepThread] at hst
    split at hst
    · cases hst
      rw [refs_afterFinalize] at hr
      cases hr
    · split at hst
      · cases hst
        rw [refs_afterFinalize] at hr
        cases hr
      · split at hst <;> cases hst
        rw [refs_afterFinalize] at hr
        cases hr
  | finalizeHash caller q h =>
    simp only [stepThread] at hst
    split at hst
    · cases hst
      exact .inl hr
    · split at hst <;> cases hst <;> exact .inl hr
  | finalizePublish caller q h fullHash =>
    simp only [stepThread] at hst
    split at hst <;> cases hst <;> exact .inl hr
  | finalizeComplete caller q result =>
    cases hst
    exact .inl hr
  | finalizeRemember caller q result =>
    cases hst
    rw [refs_afterFinalize] at hr
    cases hr
  | finalizeFail caller q thrown =>
    cases hst
    exact .inl hr
  | abortCollect caller m after =>
    cases hst
    rcases List.mem_append.mp (refs_nextAbort hr) with hr | hr
    · obtain ⟨h, hl, -, hs⟩ := mem_abortedRefs.mp hr
      exact .inr (.inl ⟨h, hl, hs⟩)
    · exact .inl hr
  | abortLock caller q rest count after =>
    obtain ⟨-, rfl⟩ := stepThread_lock rfl hst
    exact .inl hr
  | abortClose caller q rest count after =>
    cases hst
    rcases List.mem_cons.mp hr with rfl | hr
    · exact .inl (List.mem_cons_self ..)
    · exact .inl hr
  | retire cont q =>
    simp only [stepThread] at hst
    split at hst <;> cases hst
    · exact .inl hr
    · exact .inl (List.mem_cons_of_mem _ (refs_resume hr))
  | remember cont q =>
    cases hst
    exact .inl (List.mem_cons_of_mem _ (refs_resume hr))
  | expireCollect =>
    cases hst
    exact .inr (.inr (mem_pendingCleanup (refs_nextExpire hr)).1)

/-! ## Until the session is evicted -/

theorem remember_sessions {w : Writer} {id : ByteString} {n : Nat}
    (hn : w.sessions.lookup X = some n) :
    (w.rememberCompletedSessionLocked id).sessions.lookup X = some n ∨
      (w.rememberCompletedSessionLocked id).sessions.lookup X = none := by
  obtain ⟨dropped, -, hs⟩ := rememberCompletedSessionLocked_spec w id
  rw [hs]
  split
  · exact .inr rfl
  · exact .inl hn

theorem createSession_sessions {w : Writer} {a : InitArgs} {now n : Nat} {env : InitEnv}
    (hunknown : w.sessions.lookup a.fileId = none) (hn : w.sessions.lookup X = some n) :
    (w.createSession now a env).1.sessions.lookup X = some n ∨
      (w.createSession now a env).1.sessions.lookup X = none := by
  have hne : X ≠ a.fileId := by
    rintro rfl
    rw [hn] at hunknown
    cases hunknown
  have hres : (w.reserve now a).sessions.lookup X = some n := by
    rw [← hn]
    exact AList.lookup_insert_ne hne
  unfold Writer.createSession
  simp only
  split
  · exact .inl hres
  · exact .inl hres
  · exact remember_sessions (w := (w.reserve now a).updateState ⟨a.fileId, w.nextSerial⟩ fun st =>
      { st with failed := true, reserved := false }) hres

/-- What a step can make of the session table and of the supply of serial numbers. -/
inductive SessionEffect (cfg : WriterConfig) (now : Nat) (w : Writer) (pc : Pc) (ienv : InitEnv)
    (w' : Writer) : Prop where
  | same (sessions : w'.sessions = w.sessions) (serial : w'.nextSerial = w.nextSerial)
  | recorded (r : Ref) (at_ : pc.recorder = some r)
      (sessions : w'.sessions = (w.rememberCompletedSessionLocked r.fileId).sessions)
      (serial : w'.nextSerial = w.nextSerial)
  | created (caller : Caller) (a : InitArgs) (at_ : pc = .initFile caller a)
      (unknown : w.sessions.lookup a.fileId = none) (admitted : w.admits cfg a ienv = true)
      (valid : a.valid cfg = true) (writer : w' = (w.createSession now a ienv).1)

theorem SessionEffect.of_resume {now : Nat} {w v : Writer} {pc : Pc} {ienv : InitEnv} {cont : Cont}
    {r : Ref} {healthy : Bool} (h : SessionEffect cfg now w pc ienv v)
    (hpc : ∀ caller a, pc ≠ .initFile caller a) :
    SessionEffect cfg now w pc ienv (cont.resume r v healthy).1 := by
  have hres : (cont.resume r v healthy).1.sessions = v.sessions ∧
      (cont.resume r v healthy).1.nextSerial = v.nextSerial := by
    rcases resume_writer cont r v healthy with h | ⟨q, h⟩ <;> rw [h] <;> exact ⟨rfl, rfl⟩
  cases h with
  | same hs hn => exact .same (hres.1.trans hs) (hres.2.trans hn)
  | recorded q hq hs hn => exact .recorded q hq (hres.1.trans hs) (hres.2.trans hn)
  | created caller a hat => exact absurd hat (hpc caller a)

/-- **The session table.** -/
theorem stepThread_sessionTable {now i : Nat} {w : Writer} {pc : Pc} {env : StepEnv}
    {out : Writer × Pc × List Event} (hst : stepThread cfg now i w pc env = some out) :
    SessionEffect cfg now w pc env.init out.1 := by
  cases pc with
  | initFile caller a =>
    obtain rfl := Option.some.inj hst
    have hspec := initFile_spec cfg w now a env.init
    simp only
    generalize w.initFile cfg now a env.init = res at hspec
    cases hspec with
    | create hvalid _ hunknown hadm => exact .created caller a rfl hunknown hadm hvalid rfl
    | _ => exact .same rfl rfl
  | writeCopy call r target offset =>
    simp only [stepThread] at hst
    split at hst <;> cases hst
    · exact .same rfl rfl
    · unfold Writer.updateHash
      split
      · exact .same rfl rfl
      · split <;> exact .same rfl rfl
  | writeWait call held q =>
    have hu : ∀ held, SessionEffect cfg now w (.writeWait call held q) env.init
      (w.unlock? held) := by
      intro held
      cases held <;> exact .same rfl rfl
    simp only [stepThread] at hst
    split at hst
    · cases hst
      exact hu _
    · split at hst
      · cases hst
        exact hu _
      · split at hst <;> cases hst
        exact hu _
  | retire cont r =>
    simp only [stepThread] at hst
    split at hst <;> cases hst
    · exact .same rfl rfl
    · exact .of_resume (.same rfl rfl) (by simp)
  | remember cont r =>
    cases hst
    exact .of_resume (.recorded r rfl rfl rfl) (by simp)
  | finalizeRemember caller q result =>
    cases hst
    exact .recorded q rfl rfl rfl
  | _ =>
    simp only [stepThread] at hst
    repeat' split at hst
    all_goals cases hst
    all_goals exact .same rfl rfl

/-- A registered session stays or is evicted; it is never replaced. -/
theorem stepThread_sessions {now i n : Nat} {w : Writer} {pc : Pc} {env : StepEnv}
    {out : Writer × Pc × List Event} (hst : stepThread cfg now i w pc env = some out)
    (hn : w.sessions.lookup X = some n) :
    out.1.sessions.lookup X = some n ∨ out.1.sessions.lookup X = none := by
  cases stepThread_sessionTable hst with
  | same hs _ =>
    rw [hs]
    exact .inl hn
  | recorded r _ hs _ =>
    rw [hs]
    exact remember_sessions hn
  | created caller a _ hunknown _ _ hw =>
    rw [hw]
    exact createSession_sessions hunknown hn

theorem mem_evictions {w w' : Writer} {n : Nat} (hn : w.sessions.lookup X = some n)
    (hnone : w'.sessions.lookup X = none) : Event.evicted X ∈ evictions w w' := by
  refine List.mem_map.mpr ⟨X, List.mem_filter.mpr ⟨?_, by rw [hnone]; rfl⟩, rfl⟩
  have hmem := AList.lookup_isSome.mp (show (w.sessions.lookup X).isSome by rw [hn]; rfl)
  exact hmem

/-- Until `X` is evicted, its lifecycle holds and every thread that carries a session of `X`
carries the registered one. -/
def Unevicted (X : ByteString) (s : System) : Prop :=
  Event.evicted X ∉ s.log →
    Lifecycle X s ∧ ∀ i, ∀ r ∈ (s.threads i).refs, r.fileId = X →
      s.writer.sessions.lookup X = some r.serial

theorem Unevicted.freshInit (h : Unevicted X s) (hlog : Event.evicted X ∉ s.log) (l : Label) :
    FreshInit X s l := by
  intro _ _ _ _ _ _ _ hnone j r hr hX
  have hs := (h hlog).2 j r hr hX
  rw [hnone] at hs
  cases hs

theorem Lifecycle.session_of_handle (h : Lifecycle X s) {g : FileHandle}
    (hg : s.writer.handles.lookup X = some g) : s.writer.sessions.lookup X = some g.serial := by
  obtain ⟨p, hd, -⟩ := h
  rw [hd.session, hd.active_of_lookup hg]
  rfl

theorem Unevicted.step (h : Unevicted X s) (hst : step cfg s l = some s') : Unevicted X s' := by
  intro hlog
  have hlog₀ : Event.evicted X ∉ s.log := by
    cases step_spec hst with
    | call => exact fun hm => hlog (List.mem_append_left _ hm)
    | run => exact fun hm => hlog (List.mem_append_left _ (List.mem_append_left _ hm))
    | tick => exact hlog
  obtain ⟨hlife, hrefs⟩ := h hlog₀
  refine ⟨hlife.step (h.freshInit hlog₀ l) hst, ?_⟩
  cases step_spec hst with
  | call tid c hidle =>
    refine forall_update (P := fun _ pc => ∀ r ∈ pc.refs, r.fileId = X →
      s.writer.sessions.lookup X = some r.serial) ?_ fun j _ => hrefs j
    rw [refs_start]
    simp
  | run tid env out hmove =>
    have hkeep : ∀ n, s.writer.sessions.lookup X = some n → out.1.sessions.lookup X = some n := by
      intro n hn
      rcases stepThread_sessions hmove hn with h | h
      · exact h
      · exact absurd (List.mem_append_right _ (mem_evictions hn h)) hlog
    refine forall_update (P := fun _ pc => ∀ r ∈ pc.refs, r.fileId = X →
      out.1.sessions.lookup X = some r.serial) ?_ fun j _ r hr hX => hkeep _ (hrefs j r hr hX)
    intro r hr hX
    subst hX
    rcases stepThread_refs hmove hr with hr | ⟨g, hg, hser⟩ | hs
    · exact hkeep _ (hrefs tid r hr rfl)
    · rw [← hser]
      exact hkeep _ (hlife.session_of_handle hg)
    · exact hkeep _ hs
  | tick elapsed => exact hrefs

theorem unevicted_of_run {ok : System → Label → Prop} {files : Table ByteString DirEntry}
    (hrun : Run (LocalMediaTransfer.step cfg) ok (.init files) s) : Unevicted X s :=
  hrun.invariant (fun _ => ⟨Lifecycle.init X files, by rintro i r ⟨⟩⟩)
    fun _ _ _ h _ hst => h.step hst

/-- Until something is evicted, sessions are only created afresh. -/
theorem run_freshInit {ok ok' : System → Label → Prop} {files : Table ByteString DirEntry}
    (hfree : ∀ s l, ok s l → evictionFree s.log = true)
    (hok : ∀ s l, Run (LocalMediaTransfer.step cfg) ok (.init files) s → ok s l →
      (∀ X, FreshInit X s l) → ok' s l)
    (hrun : Run (LocalMediaTransfer.step cfg) ok (.init files) s) :
    Run (LocalMediaTransfer.step cfg) ok' (.init files) s :=
  hrun.upgrade fun t l hr hl => hok t l hr hl fun X =>
    (unevicted_of_run hr).freshInit (not_evicted_of_evictionFree (hfree t l hl) X) l

/-! ## Runs of a few threads -/

/-- A label that only moves one of the first `k` threads. -/
def Label.within (k : Nat) : Label → Bool
  | .call tid _ | .run tid _ => tid < k
  | .tick _ => true

theorem idle_of_run {ok : System → Label → Prop} {files : Table ByteString DirEntry} {k : Nat}
    (hok : ∀ s l, ok s l → l.within k = true)
    (hrun : Run (LocalMediaTransfer.step cfg) ok (.init files) s) :
    ∀ j, k ≤ j → s.threads j = .idle := by
  refine hrun.invariant (I := fun s => ∀ j, k ≤ j → s.threads j = .idle) (fun _ _ => rfl) ?_
  intro t l u ih hl hst j hj
  have hw := hok t l hl
  cases step_spec hst with
  | call tid c =>
    have hne : j ≠ tid := by
      simp only [Label.within, decide_eq_true_eq] at hw
      omega
    exact (Function.update_of_ne hne ..).trans (ih j hj)
  | run tid env out =>
    have hne : j ≠ tid := by
      simp only [Label.within, decide_eq_true_eq] at hw
      omega
    exact (Function.update_of_ne hne ..).trans (ih j hj)
  | tick => exact ih j hj

end LocalMediaTransfer
