import LocalMediaTransfer.Server.FileWriter.Lifecycle

/-!
# The writer refines the lifecycle

Each section of the writer takes the phase of an ID along an arrow of the lifecycle, or leaves it.

* `rememberCompletedSessionLocked_spec` — what the completed-session cache drops.
* `Next.*` — one lemma per section.
* `Lifecycle.step`, `lifecycle_of_run` — the refinement, for one step and for every run.
-/

set_option autoImplicit false

namespace LocalMediaTransfer

open Lib

variable {X : ByteString} {p p' : Phase} {w w' : Writer} {i : Nat} {pc : Pc} {T : Nat → Pc}
  {cfg : WriterConfig}

/-! ## The completed-session cache -/

/-- The cache drops a run of its oldest IDs, and those without an active handle lose their
session. -/
theorem evictExpired_spec (handles : Table ByteString FileHandle) :
    ∀ (order : List ByteString) (sessions : Table ByteString Nat),
      ∃ dropped, order = dropped ++ (evictExpired handles order sessions).1 ∧
        ∀ id, (evictExpired handles order sessions).2.lookup id =
          if id ∈ dropped ∧ handles.lookup id = none then none else sessions.lookup id
  | [], sessions => ⟨[], rfl, by simp [evictExpired]⟩
  | expired :: rest, sessions => by
    unfold evictExpired
    split
    · obtain ⟨dropped, ho, hs⟩ := evictExpired_spec handles rest
        (if (handles.lookup expired).isNone then sessions.erase expired else sessions)
      refine ⟨expired :: dropped, by rw [List.cons_append, ← ho], fun id => ?_⟩
      rw [hs id]
      by_cases hid : id = expired
      · subst hid
        by_cases hh : handles.lookup id = none <;> simp [hh]
      · have hl : (if (handles.lookup expired).isNone then sessions.erase expired
            else sessions).lookup id = sessions.lookup id := by
          split
          · exact AList.lookup_erase_ne hid
          · rfl
        rw [hl]
        simp [hid]
    · exact ⟨[], rfl, by simp⟩

theorem rememberCompletedSessionLocked_spec (w : Writer) (fileId : ByteString) :
    ∃ dropped,
      w.completedSessionOrder ++ [fileId] =
        dropped ++ (w.rememberCompletedSessionLocked fileId).completedSessionOrder ∧
      ∀ id, (w.rememberCompletedSessionLocked fileId).sessions.lookup id =
        if id ∈ dropped ∧ w.handles.lookup id = none then none else w.sessions.lookup id :=
  evictExpired_spec ..

/-- A session without handle that stands in the cache, or has just been appended, is recorded or
evicted. -/
theorem Phase.Describes.recorded {n : Nat} {k : Option Nat}
    (hd : (Phase.settled n k).Describes X w) (fileId : ByteString)
    (hcount : (w.completedSessionOrder ++ [fileId]).count X = 1) :
    (Phase.settled n none).Describes X (w.rememberCompletedSessionLocked fileId) ∨
      Phase.absent.Describes X (w.rememberCompletedSessionLocked fileId) := by
  obtain ⟨dropped, ho, hs⟩ := rememberCompletedSessionLocked_spec w fileId
  have hh : w.handles.lookup X = none := hd.lookup_none rfl
  have hr : ∀ m, ¬(w.states ⟨X, m⟩).reserved = true := fun m h => by
    cases (hd.reserved m).mp h
  have hf : ∀ m, ¬(w.states ⟨X, m⟩).finalizing = true := fun m h => by
    obtain ⟨_, h⟩ := (hd.finalizing m).mp h
    cases h
  rw [ho, List.count_append] at hcount
  by_cases hX : X ∈ dropped
  · right
    have hpos := List.count_pos_iff.mpr hX
    refine ⟨?_, congrArg _ hh, ?_, ?_, ?_, by simp, by simp, by simp, hd.exclusive, ?_, hd.temp⟩
    · rw [hs, if_pos ⟨hX, hh⟩]; rfl
    · intro h hl
      cases hh.symm.trans hl
    · exact fun m => ⟨fun h => absurd h (hr m), fun h => by cases h⟩
    · exact fun m => ⟨fun h => absurd h (hf m), fun ⟨_, h⟩ => by cases h⟩
    · show _ = 0
      omega
  · left
    have hzero := List.count_eq_zero.mpr hX
    refine ⟨?_, hd.handle, hd.metadata, hd.reserved, ?_, by simp, by simp, ?_, hd.exclusive, ?_,
      hd.temp⟩
    · rw [hs, if_neg fun h => hX h.1]; exact hd.session
    · exact fun m => ⟨fun h => absurd h (hf m), fun ⟨_, h⟩ => by cases h⟩
    · rintro m l hl
      cases hl
      exact hd.settled n k rfl
    · show _ = 1
      omega

/-- Recording a session of another ID leaves `X`, or evicts its recorded session. -/
theorem Phase.Describes.remember_other (hd : p.Describes X w) {fileId : ByteString}
    (hne : fileId ≠ X) :
    p.Describes X (w.rememberCompletedSessionLocked fileId) ∨
      (∃ n, p = .settled n none) ∧
        Phase.absent.Describes X (w.rememberCompletedSessionLocked fileId) := by
  have hcount : (w.completedSessionOrder ++ [fileId]).count X = p.recorded := by
    rw [List.count_append, hd.order]
    simp [hne]
  by_cases hp : ∃ n, p = .settled n none
  · obtain ⟨n, rfl⟩ := hp
    rcases hd.recorded fileId hcount with h | h
    · exact .inl h
    · exact .inr ⟨⟨n, rfl⟩, h⟩
  · left
    have hzero : p.recorded = 0 := by
      cases p with
      | settled n k =>
        cases k with
        | none => exact absurd ⟨n, rfl⟩ hp
        | some j => rfl
      | _ => rfl
    obtain ⟨dropped, ho, hs⟩ := rememberCompletedSessionLocked_spec w fileId
    rw [ho, List.count_append, hzero] at hcount
    have hX : X ∉ dropped := List.count_eq_zero.mp (by omega)
    refine hd.congr ⟨?_, rfl, fun n => ⟨(w.states ⟨X, n⟩).lastActivity, rfl⟩, fun _ h => h, ?_⟩
    · rw [hs, if_neg fun h => hX h.1]
    · rw [hd.order, hzero]; omega

/-! ## Changes of one finalization state -/

theorem updateState_states (w : Writer) (m n : Nat) (f : FinalizationState → FinalizationState) :
    (w.updateState ⟨X, m⟩ f).states ⟨X, n⟩ =
      if n = m then f (w.states ⟨X, n⟩) else w.states ⟨X, n⟩ := by
  simp only [Writer.updateState, Function.update_apply, Ref.mk.injEq, true_and]
  split
  · rename_i h
    rw [h]
  · rfl

theorem SameAt.updateState_other {r : Ref} (hr : r.fileId ≠ X)
    (f : FinalizationState → FinalizationState) : SameAt X w (w.updateState r f) :=
  .of_other hr rfl rfl (fun _ hq => Function.update_of_ne hq ..) (fun _ _ => rfl) rfl

/-- `failFinalization` condemns the session. -/
theorem Phase.Describes.markFailed {m k : Nat} (hd : (Phase.finalizing m k).Describes X w) :
    (Phase.condemned m).Describes X (w.markFailed ⟨X, m⟩) := by
  have hst := updateState_states (X := X) w m
  have hopen := hd.open_ m (.inr ⟨k, rfl⟩)
  have hh : w.handles.lookup X = none := hd.lookup_none rfl
  refine ⟨hd.session, hd.handle, fun h hl => ?_, fun n => ?_, fun n => ?_, by simp, ?_, by simp,
    fun n => ?_, hd.order, hd.temp⟩
  · cases hh.symm.trans hl
  · rw [Writer.markFailed, hst]
    have hr := hd.reserved n
    split <;> exact hr
  · rw [Writer.markFailed, hst]
    have hf := hd.finalizing n
    split
    · simp
    · rename_i hn
      simp only [Phase.finalizing.injEq, reduceCtorEq, exists_false, iff_false] at hf ⊢
      rw [hf]
      rintro ⟨_, hm, _⟩
      exact hn hm.symm
  · rintro n hn
    cases hn
    rw [Writer.markFailed, hst, if_pos rfl]
  · rw [Writer.markFailed, hst]
    split
    · rename_i hn
      subst hn
      simp [hopen.2]
    · exact hd.exclusive n

/-- Completion settles the session; its thread is going to record it. -/
theorem Phase.Describes.markCompleted {m k : Nat} (hd : (Phase.finalizing m k).Describes X w)
    (result : FileFinalizeResult) (htemp : w.temps ⟨X, m⟩ = none) :
    (Phase.settled m (some k)).Describes X (w.markCompleted ⟨X, m⟩ result) := by
  have hst := updateState_states (X := X) w m
  have hopen := hd.open_ m (.inr ⟨k, rfl⟩)
  have hh : w.handles.lookup X = none := hd.lookup_none rfl
  refine ⟨hd.session, hd.handle, fun h hl => ?_, fun n => ?_, fun n => ?_, by simp, by simp, ?_,
    fun n => ?_, hd.order, fun n hn => ?_⟩
  · cases hh.symm.trans hl
  · rw [Writer.markCompleted, hst]
    have hr := hd.reserved n
    split
    · simp [Phase.charged]
    · rename_i hn
      simp only [Phase.charged, Option.some.injEq, reduceCtorEq, iff_false] at hr ⊢
      rw [hr]
      exact fun h => hn h.symm
  · rw [Writer.markCompleted, hst]
    have hf := hd.finalizing n
    split
    · simp
    · rename_i hn
      simp only [Phase.finalizing.injEq, reduceCtorEq, exists_false, iff_false] at hf ⊢
      rw [hf]
      rintro ⟨_, hm, _⟩
      exact hn hm.symm
  · rintro n l hn
    cases hn
    rw [Writer.markCompleted, hst, if_pos rfl]
    exact .inl rfl
  · rw [Writer.markCompleted, hst]
    split
    · rename_i hn
      subst hn
      simp [hopen.1]
    · exact hd.exclusive n
  · have hc := hd.temp n hn
    cases hc
    rw [show (w.markCompleted ⟨X, m⟩ result).temps = w.temps from rfl, htemp] at hn
    cases hn

/-- Releasing the reservation settles a condemned session. -/
theorem Phase.Describes.release {m : Nat} (hd : (Phase.condemned m).Describes X w) (k : Nat) :
    (Phase.settled m (some k)).Describes X (w.release ⟨X, m⟩) := by
  have hst : ∀ n, (w.release ⟨X, m⟩).states ⟨X, n⟩ =
      if n = m then { w.states ⟨X, n⟩ with reserved := false } else w.states ⟨X, n⟩ :=
    fun n => updateState_states w m n fun st => { st with reserved := false }
  have hh : w.handles.lookup X = none := hd.lookup_none rfl
  refine ⟨hd.session, hd.handle, fun h hl => ?_, fun n => ?_, fun n => ?_, by simp, by simp, ?_,
    fun n => ?_, hd.order, fun n hn => ?_⟩
  · cases hh.symm.trans hl
  · rw [hst]
    have hr := hd.reserved n
    split
    · simp [Phase.charged]
    · rename_i hn
      simp only [Phase.charged, Option.some.injEq, reduceCtorEq, iff_false] at hr ⊢
      rw [hr]
      exact fun h => hn h.symm
  · rw [hst]
    have hf := hd.finalizing n
    simp only [reduceCtorEq, exists_false, iff_false] at hf ⊢
    split <;> exact hf
  · rintro n l hn
    cases hn
    rw [hst, if_pos rfl]
    exact .inr (hd.condemned m rfl)
  · rw [hst]
    have he := hd.exclusive n
    split <;> exact he
  · simp only [Writer.release, Writer.removeTemp, Writer.updateState, Function.update_apply,
      Ref.mk.injEq, true_and] at hn
    split at hn
    · cases hn
    · rename_i hne
      have hc := hd.temp n hn
      cases hc
      exact absurd rfl hne

/-- Taking the handle of an active session starts its finalization. -/
theorem Phase.Describes.takeHandle {m : Nat} (hd : (Phase.active m).Describes X w) (k : Nat) :
    (Phase.finalizing m k).Describes X (w.takeHandle ⟨X, m⟩) := by
  have hst : ∀ n, (w.takeHandle ⟨X, m⟩).states ⟨X, n⟩ =
      if n = m then { w.states ⟨X, n⟩ with finalizing := true } else w.states ⟨X, n⟩ :=
    fun n => updateState_states w m n fun st => { st with finalizing := true }
  have hh : (w.takeHandle ⟨X, m⟩).handles.lookup X = none := AList.lookup_erase X w.handles
  have hopen := hd.open_ m (.inl rfl)
  refine ⟨hd.session, by rw [hh]; rfl, fun h hl => ?_, fun n => ?_, fun n => ?_, ?_, by simp,
    by simp, fun n => ?_, hd.order, hd.temp⟩
  · cases hh.symm.trans hl
  · rw [hst]
    have hr := hd.reserved n
    split <;> exact hr
  · rw [hst]
    have hf := hd.finalizing n
    simp only [reduceCtorEq, exists_false, iff_false] at hf
    split
    · rename_i hn
      simp [hn]
    · rename_i hn
      simp only [Phase.finalizing.injEq, exists_and_left, exists_eq', and_true]
      exact ⟨fun h => absurd h hf, fun h => absurd h.symm hn⟩
  · rintro n (hn | ⟨_, hn⟩) <;> cases hn
    rw [hst, if_pos rfl]
    exact hopen
  · rw [hst]
    have he := hd.exclusive n
    split <;> exact he

/-! ## Creation -/

/-- The phases in which `initFile` can leave a new session `n`. -/
def Phase.isNew (n : Nat) : Phase → Prop
  | .active m | .condemned m | .settled m (some _) => m = n
  | _ => False

theorem Phase.Describes.create (hd : Phase.absent.Describes X w) {n : Nat}
    (st : FinalizationState) (hnew : p.isNew n) (hsession : w'.sessions.lookup X = some n)
    (hhandle : (w'.handles.lookup X).map (·.serial) = p.handle)
    (hmeta : ∀ h, w'.handles.lookup X = some h → h.serial = n ∧ h.metadata = st.metadata)
    (hst : ∀ m, w'.states ⟨X, m⟩ = if m = n then st else w.states ⟨X, m⟩)
    (hreserved : st.reserved = true ↔ p.charged = some n) (hfin : st.finalizing = false)
    (hcomp : st.completed = false) (hfailed : st.failed = true ↔ p.handle = none)
    (horder : w'.completedSessionOrder = w.completedSessionOrder)
    (htemp : ∀ m, (w'.temps ⟨X, m⟩).isSome → m = n ∧ p.charged = some n ∨
      (w.temps ⟨X, m⟩).isSome) : p.Describes X w' := by
  have hr : ∀ m, (w.states ⟨X, m⟩).reserved = false := fun m => by
    simpa [Phase.charged] using hd.reserved m
  have hf : ∀ m, (w.states ⟨X, m⟩).finalizing = false := fun m => by
    simpa using hd.finalizing m
  have hserial : p.serial = some n ∧ (∀ m, p.charged = some m → m = n) ∧ p.recorded = 0 ∧
      (∀ m j, p ≠ .finalizing m j) := by
    unfold Phase.isNew at hnew
    split at hnew <;> simp_all [Phase.serial, Phase.charged, Phase.recorded]
  obtain ⟨hs, hc, hrec, hnf⟩ := hserial
  refine ⟨by rw [hsession, hs], hhandle, fun h hl => ?_, fun m => ?_, fun m => ?_, ?_, ?_, ?_,
    fun m => ?_, by rw [horder, hd.order, hrec]; rfl, fun m hm => ?_⟩
  · rw [hst, if_pos (hmeta h hl).1]
    exact (hmeta h hl).2
  · rw [hst]
    split
    · rename_i hm
      rw [hm]
      exact hreserved
    · rename_i hm
      rw [hr m]
      exact ⟨fun h => absurd h (by simp), fun h => absurd (hc m h) hm⟩
  · rw [hst]
    refine ⟨fun h => ?_, fun ⟨j, h⟩ => absurd h (hnf m j)⟩
    split at h
    · rw [hfin] at h
      cases h
    · rw [hf m] at h
      cases h
  · rintro m (rfl | ⟨j, rfl⟩)
    · obtain rfl : m = n := hnew
      rw [hst, if_pos rfl]
      refine ⟨?_, hcomp⟩
      by_contra hne
      cases hfailed.mp (by simpa using hne)
    · exact absurd rfl (hnf m j)
  · rintro m rfl
    obtain rfl : m = n := hnew
    rw [hst, if_pos rfl]
    exact hfailed.mpr rfl
  · rintro m k rfl
    cases k with
    | none => cases hnew
    | some k =>
      obtain rfl : m = n := hnew
      rw [hst, if_pos rfl]
      exact .inr (hfailed.mpr rfl)
  · rw [hst]
    split
    · simp [hcomp]
    · exact hd.exclusive m
  · rcases htemp m hm with ⟨rfl, h⟩ | h
    · exact h
    · cases hd.temp m h

theorem Cont.doomed_subset_refs (cont : Cont) {r : Ref} (hr : r ∈ cont.doomed) :
    r ∈ cont.refs := by
  cases cont with
  | abortNext _ _ rest _ _ => simp_all [Cont.doomed, Cont.refs]
  | expireNext pending => exact hr
  | _ => cases hr

/-- Every role is played on a session that the thread carries. -/
theorem Pc.role_mem_refs (pc : Pc) {r : Ref} (h : pc.finalizer = some r ∨ pc.recorder = some r ∨
    pc.bound = some r ∨ (∃ n, pc.target = some (r, n)) ∨ r ∈ pc.doomed) : r ∈ pc.refs := by
  cases pc with
  | retire cont q =>
    simp only [Pc.finalizer, Pc.recorder, Pc.bound, Pc.target, Pc.doomed, reduceCtorEq,
      exists_false, false_or, List.mem_cons] at h
    exact List.mem_cons.mpr (h.imp_right cont.doomed_subset_refs)
  | remember cont q =>
    simp only [Pc.finalizer, Pc.recorder, Pc.bound, Pc.target, Pc.doomed, reduceCtorEq,
      exists_false, false_or, Option.some.injEq] at h
    exact List.mem_cons.mpr (h.imp Eq.symm cont.doomed_subset_refs)
  | _ =>
    simp only [Pc.finalizer, Pc.recorder, Pc.bound, Pc.target, Pc.doomed, Pc.refs] at h ⊢
    grind

theorem Compat.of_no_refs (h : ∀ r ∈ pc.refs, r.fileId ≠ X) : Compat X p w i pc where
  finalizer := fun s hs hX => absurd hX (h s (pc.role_mem_refs (.inl hs)))
  recorder := fun r hr hX => absurd hX (h r (pc.role_mem_refs (.inr (.inl hr))))
  bound := fun r hr hX => absurd hX (h r (pc.role_mem_refs (.inr (.inr (.inl hr)))))
  target := fun r n hr hX =>
    absurd hX (h r (pc.role_mem_refs (.inr (.inr (.inr (.inl ⟨n, hr⟩))))))
  doomed := fun r hr hX => absurd hX (h r (pc.role_mem_refs (.inr (.inr (.inr (.inr hr))))))
  emptied := fun s hs hX => absurd hX (h s (pc.role_mem_refs (.inl (Pc.finalizer_of_emptied hs))))

/-- What `initFile` can do. -/
inductive InitSpec (cfg : WriterConfig) (w : Writer) (now : Nat) (a : InitArgs) (env : InitEnv) :
    Writer × Bool → Prop where
  | refused : InitSpec cfg w now a env (w, false)
  | active (h : FileHandle) (lookup : w.handles.lookup a.fileId = some h) :
      InitSpec cfg w now a env (w, h.sameSession a)
  | known (n : Nat) (inactive : w.handles.lookup a.fileId = none)
      (lookup : w.sessions.lookup a.fileId = some n) :
      InitSpec cfg w now a env (w, (w.states ⟨a.fileId, n⟩).matches a)
  | create (valid : a.valid cfg = true) (inactive : w.handles.lookup a.fileId = none)
      (unknown : w.sessions.lookup a.fileId = none) (admitted : w.admits cfg a env = true) :
      InitSpec cfg w now a env (w.createSession now a env)

theorem initFile_spec (cfg : WriterConfig) (w : Writer) (now : Nat) (a : InitArgs)
    (env : InitEnv) : InitSpec cfg w now a env (w.initFile cfg now a env) := by
  unfold Writer.initFile
  split
  · exact .refused
  · rename_i hvalid
    split
    · rename_i h hh
      exact .active h hh
    · rename_i hh
      split
      · rename_i n hn
        exact .known n hh hn
      · rename_i hn
        split
        · exact .refused
        · rename_i hadm
          exact .create (by simpa using hvalid) hh hn (by simp_all)

theorem SameAt.reserve_other {a : InitArgs} {now : Nat} (hne : a.fileId ≠ X) :
    SameAt X w (w.reserve now a) where
  session := AList.lookup_insert_ne (Ne.symm hne)
  handle := rfl
  state := fun n => ⟨(w.states ⟨X, n⟩).lastActivity,
    Function.update_of_ne (ref_ne (r := ⟨a.fileId, w.nextSerial⟩) hne n) ..⟩
  temp := fun _ h => h
  order := rfl

theorem SameAt.trans {w'' : Writer} (h₁ : SameAt X w w') (h₂ : SameAt X w' w'') :
    SameAt X w w'' where
  session := h₂.session.trans h₁.session
  handle := h₂.handle.trans h₁.handle
  state := fun n => by
    obtain ⟨_, h₁⟩ := h₁.state n
    obtain ⟨t, h₂⟩ := h₂.state n
    exact ⟨t, by rw [h₂, h₁]⟩
  temp := fun n h => h₁.temp n (h₂.temp n h)
  order := h₂.order.trans h₁.order

/-- Creating a session of another ID, or failing to. -/
theorem Next.create_other {a : InitArgs} {now : Nat} {env : InitEnv} (hd : p.Describes X w)
    (ho : ∀ j, j ≠ i → Compat X p w j (T j)) (hpc : pc.Detached) (hne : a.fileId ≠ X) :
    Next X T i (w.createSession now a env).1 pc := by
  have hres : SameAt X w (w.reserve now a) := .reserve_other hne
  unfold Writer.createSession
  simp only
  split
  · refine .quiet hd ho (hres.trans ?_) (.of_detached hpc)
    exact .of_other (r := ⟨a.fileId, w.nextSerial⟩) hne rfl (AList.lookup_insert_ne (Ne.symm hne))
      (fun _ _ => rfl) (fun _ hq => Function.update_of_ne hq ..) rfl
  · have hs := hres.trans (SameAt.updateState_other (r := ⟨a.fileId, w.nextSerial⟩) hne
      fun st => { st with failed := true })
    refine .quiet hd ho (hs.trans ?_) (.of_detached hpc)
    exact .of_other (r := ⟨a.fileId, w.nextSerial⟩) hne rfl rfl
      (fun _ _ => rfl) (fun _ hq => Function.update_of_ne hq ..) rfl
  · have hs := hres.trans (SameAt.updateState_other (r := ⟨a.fileId, w.nextSerial⟩) hne
      fun st => { st with failed := true, reserved := false })
    rcases (hd.congr hs).remember_other hne with h | ⟨⟨n, rfl⟩, h⟩
    · exact ⟨p, h, .of_detached hpc, fun j hj => ((ho j hj).congr hs).mono (fun _ h => h)
        fun _ h => h⟩
    · exact .advance ⟨by simp, by simp, by simp, fun _ => by trivial⟩
        (fun j hj => (ho j hj).congr hs) h (.of_detached hpc) fun _ h => h

/-- Creating a session of `X`, when no thread carries a reference to an earlier one. -/
theorem Next.create_self {a : InitArgs} {now : Nat} {env : InitEnv}
    (hd : Phase.absent.Describes a.fileId w) (hpc : pc.Detached)
    (hfresh : ∀ j, ∀ r ∈ (T j).refs, r.fileId ≠ a.fileId)
    (hinactive : w.handles.lookup a.fileId = none) :
    Next a.fileId T i (w.createSession now a env).1 pc := by
  have hstate : ∀ (f : FinalizationState → FinalizationState) m,
      ((w.reserve now a).updateState ⟨a.fileId, w.nextSerial⟩ f).states ⟨a.fileId, m⟩ =
        if m = w.nextSerial then f (a.state now) else w.states ⟨a.fileId, m⟩ := by
    intro f m
    rw [updateState_states]
    simp only [Writer.reserve, Function.update_apply, Ref.mk.injEq, true_and]
    split <;> rfl
  have hothers : ∀ (q : Phase) (w' : Writer) j, Compat a.fileId q w' j (T j) :=
    fun _ _ j => .of_no_refs (hfresh j)
  have hsession : (w.reserve now a).sessions.lookup a.fileId = some w.nextSerial :=
    AList.lookup_insert _
  have htemp : ∀ (c : Option ByteString) m,
      (Function.update w.temps ⟨a.fileId, w.nextSerial⟩ c ⟨a.fileId, m⟩).isSome →
        m = w.nextSerial ∨ (w.temps ⟨a.fileId, m⟩).isSome := by
    intro c m hm
    simp only [Function.update_apply, Ref.mk.injEq, true_and] at hm
    split at hm
    · rename_i h
      exact .inl h
    · exact .inr hm
  unfold Writer.createSession
  simp only
  split
  · refine ⟨.active w.nextSerial, hd.create (a.state now) rfl hsession ?_ ?_ ?_ ?_ rfl rfl ?_
      rfl ?_, .of_detached hpc, fun j _ => hothers _ _ j⟩
    · simp only [AList.lookup_insert, Option.map_some]
      rfl
    · intro h hl
      simp only [AList.lookup_insert, Option.some.injEq] at hl
      subst hl
      exact ⟨rfl, rfl⟩
    · intro m
      have h := hstate id m
      simpa [Writer.updateState] using h
    · simp [Phase.charged, InitArgs.state]
    · simp [Phase.handle, InitArgs.state]
    · intro m hm
      exact (htemp _ m hm).imp_left fun h => ⟨h, rfl⟩
  · refine ⟨.condemned w.nextSerial, hd.create { a.state now with failed := true } rfl
      hsession ?_ ?_ (hstate fun st => { st with failed := true }) ?_ rfl rfl ?_ rfl ?_,
      .of_detached hpc, fun j _ => hothers _ _ j⟩
    · exact congrArg _ hinactive
    · intro h hl
      cases hinactive.symm.trans hl
    · simp [Phase.charged, InitArgs.state]
    · simp [Phase.handle]
    · intro m hm
      exact (htemp _ m hm).imp_left fun h => ⟨h, rfl⟩
  · have hnew : (Phase.settled w.nextSerial (some i)).Describes a.fileId
        ((w.reserve now a).updateState ⟨a.fileId, w.nextSerial⟩ fun st =>
          { st with failed := true, reserved := false }) := by
      refine hd.create { a.state now with failed := true, reserved := false } rfl hsession
        (congrArg _ hinactive) ?_ (hstate fun st => { st with failed := true, reserved := false })
        ?_ rfl rfl ?_ rfl fun m hm => .inr hm
      · intro h hl
        cases hinactive.symm.trans hl
      · simp [Phase.charged]
      · simp [Phase.handle]
    have hcount : (w.completedSessionOrder ++ [a.fileId]).count a.fileId = 1 := by
      rw [List.count_append, hd.order]
      simp [Phase.recorded]
    rcases hnew.recorded a.fileId hcount with h | h
    · exact ⟨_, h, .of_detached hpc, fun j _ => hothers _ _ j⟩
    · exact ⟨_, h, .of_detached hpc, fun j _ => hothers _ _ j⟩

/-! ## One lemma per section -/

/-- Locks, hash contexts and the destination do not matter to the lifecycle. -/
theorem SameAt.of_eq (hs : w'.sessions = w.sessions) (hh : w'.handles = w.handles)
    (hst : w'.states = w.states) (ht : w'.temps = w.temps)
    (ho : w'.completedSessionOrder = w.completedSessionOrder) : SameAt X w w' where
  session := by rw [hs]
  handle := by rw [hh]
  state := fun n => ⟨(w.states ⟨X, n⟩).lastActivity, by rw [hst]⟩
  temp := fun n => by rw [ht]; exact id
  order := by rw [ho]

theorem SameAt.setDisk {t : Ref} {q : Published} (hq : q.temp = none ∨ q.temp = w.temps t) :
    SameAt X w (w.setDisk t q) where
  session := rfl
  handle := rfl
  state := fun n => ⟨(w.states ⟨X, n⟩).lastActivity, rfl⟩
  temp := by
    intro n hn
    simp only [Writer.setDisk, Function.update_apply] at hn
    split at hn
    · rename_i hr
      rcases hq with hq | hq
      · rw [hq] at hn
        cases hn
      · rw [hq] at hn
        rw [hr]
        exact hn
    · exact hn
  order := rfl

theorem SameAt.unlock? (held : Option Ref) : SameAt X w (w.unlock? held) := by
  cases held <;> exact .of_eq rfl rfl rfl rfl rfl

theorem Next.resume {cont : Cont} {r : Ref} {healthy : Bool} (hd : p.Describes X w)
    (ho : ∀ j, j ≠ i → Compat X p w j (T j))
    (hdm : ∀ q ∈ cont.doomed, q.fileId = X → (w.states q).failed = true ∧ p.Closed) :
    Next X T i (cont.resume r w healthy).1 (cont.resume r w healthy).2.1 := by
  rcases resume_writer cont r w healthy with h | ⟨q, h⟩
  · rw [h]
    exact ⟨p, hd, .resume hdm, ho⟩
  · rw [h]
    exact .quiet hd ho (.of_eq rfl rfl rfl rfl rfl) (.resume hdm)

section Sections

variable (hd : p.Describes X w) (ho : ∀ j, j ≠ i → Compat X p w j (T j))
include hd ho

theorem Next.initFile {caller : Caller} {a : InitArgs} {now : Nat} {env : InitEnv}
    {res : Writer × Bool} (hspec : InitSpec cfg w now a env res)
    (hfresh : a.fileId = X → w.sessions.lookup X = none → ∀ j, ∀ r ∈ (T j).refs, r.fileId ≠ X) :
    Next X T i res.1 (caller.afterInit a res.2).1 := by
  cases hspec with
  | refused => exact .quiet hd ho .rfl' (.of_detached (detached_afterInit ..))
  | active => exact .quiet hd ho .rfl' (.of_detached (detached_afterInit ..))
  | known => exact .quiet hd ho .rfl' (.of_detached (detached_afterInit ..))
  | create _ hinactive hunknown _ =>
    by_cases hX : a.fileId = X
    · subst hX
      obtain rfl := hd.absent_of_lookup hunknown
      exact .create_self hd (detached_afterInit ..) (hfresh rfl hunknown) hinactive
    · exact .create_other hd ho (detached_afterInit ..) hX

theorem Next.finalizeTake {caller : Caller} {r : Ref} {h : FileHandle}
    (hi : Compat X p w i (.finalizeTake caller r)) (hl : w.handles.lookup r.fileId = some h) :
    Next X T i ((w.takeHandle r).unlock r) (.finalizeHash caller r h) := by
  by_cases hX : r.fileId = X
  · subst hX
    obtain rfl := hd.active_of_lookup hl
    have hserial : h.serial = r.serial := hi.bound r rfl rfl _ rfl
    have hd' : (Phase.finalizing h.serial i).Describes r.fileId
        ((w.takeHandle ⟨r.fileId, h.serial⟩).unlock r) :=
      (hd.takeHandle i).congr (.of_eq rfl rfl rfl rfl rfl)
    rw [hserial] at hd'
    refine .advance ⟨by simp, by simp, by simp, by rintro ⟨⟩⟩ ho hd' ?_ ?_
    · exact
        { finalizer := by rintro s ⟨⟩ -; rfl
          recorder := by rintro q ⟨⟩
          bound := by rintro q ⟨⟩
          target := by rintro q n ⟨⟩ -; exact hserial
          doomed := by rintro q ⟨⟩
          emptied := by rintro s ⟨⟩ }
    · intro n hn
      show ((w.updateState ⟨r.fileId, r.serial⟩ fun st =>
        { st with finalizing := true }).states _).failed = true
      rw [updateState_states]
      split <;> exact hn
  · refine .quiet hd ho (.of_other (r := r) hX rfl (AList.lookup_erase_ne (Ne.symm hX))
      (fun q hq => Function.update_of_ne hq ..) (fun _ _ => rfl) rfl) ?_
    exact
      { finalizer := by rintro s ⟨⟩ h; exact absurd h hX
        recorder := by rintro q ⟨⟩
        bound := by rintro q ⟨⟩
        target := by rintro q n ⟨⟩ h; exact absurd h hX
        doomed := by rintro q ⟨⟩
        emptied := by rintro s ⟨⟩ }

theorem Next.finalizeComplete {caller : Caller} {s : Ref} {result : FileFinalizeResult}
    (hi : Compat X p w i (.finalizeComplete caller s result)) :
    Next X T i (w.markCompleted s result) (.finalizeRemember caller s result) := by
  have hself : ∀ {q : Phase} {v : Writer}, (s.fileId = X → q = .settled s.serial (some i)) →
      Compat X q v i (.finalizeRemember caller s result) := fun h =>
    { finalizer := by rintro r ⟨⟩
      recorder := by rintro r ⟨⟩ hX; exact h hX
      bound := by rintro r ⟨⟩
      target := by rintro r n ⟨⟩
      doomed := by rintro r ⟨⟩
      emptied := by rintro r ⟨⟩ }
  by_cases hX : s.fileId = X
  · subst hX
    obtain rfl := hi.finalizer s rfl rfl
    refine .advance (.of_finalizing (by trivial)) ho (hd.markCompleted result
      (hi.emptied s rfl rfl)) (hself fun _ => rfl) ?_
    intro n hn
    show ((w.updateState ⟨s.fileId, s.serial⟩ _).states _).failed = true
    rw [updateState_states]
    split <;> exact hn
  · exact .quiet hd ho (.updateState_other hX _) (hself fun h => absurd h hX)

theorem Next.finalizeFail {caller : Caller} {s : Ref} {thrown : Option String}
    (hi : Compat X p w i (.finalizeFail caller s thrown)) :
    Next X T i (w.markFailed s) (.retire (.finalizeFailed caller thrown) s) := by
  have hfailed : ((w.markFailed s).states s).failed = true := by
    simp [Writer.markFailed, Writer.updateState]
  have hself : ∀ {q : Phase}, (s.fileId = X → q.Closed) → Compat X q (w.markFailed s) i
      (.retire (.finalizeFailed caller thrown) s) := by
    intro q hq
    refine .of_doomed rfl rfl rfl rfl fun r hr hX => ?_
    simp only [Pc.doomed, Cont.doomed, List.mem_singleton] at hr
    subst hr
    exact ⟨hfailed, hq hX⟩
  by_cases hX : s.fileId = X
  · subst hX
    obtain rfl := hi.finalizer s rfl rfl
    refine .advance (.of_finalizing (by trivial)) ho hd.markFailed (hself fun _ => trivial) ?_
    intro n hn
    show ((w.updateState ⟨s.fileId, s.serial⟩ _).states _).failed = true
    rw [updateState_states]
    split
    · rfl
    · exact hn
  · exact .quiet hd ho (.updateState_other hX _) (hself fun h => absurd h hX)

theorem Next.abortClose {caller : Caller} {r : Ref} {rest : List Ref} {count : Nat}
    {after : AfterAbort} (hi : Compat X p w i (.abortClose caller r rest count after)) :
    Next X T i ((w.abortHash r.fileId).markFailed r)
      (.retire (.abortNext caller r rest count after) r) := by
  have hsame : SameAt X w ((w.abortHash r.fileId).markFailed r) := by
    by_cases hX : r.fileId = X
    · subst hX
      have hf : (w.states ⟨r.fileId, r.serial⟩).failed = true :=
        (hi.doomed r (List.mem_cons_self ..) rfl).1
      refine ⟨rfl, rfl, fun n => ⟨(w.states ⟨r.fileId, n⟩).lastActivity, ?_⟩, fun _ h => h, rfl⟩
      show (((w.abortHash r.fileId).updateState ⟨r.fileId, r.serial⟩ _).states _) = _
      rw [updateState_states]
      split
      · rename_i hn
        subst hn
        have hnf := hd.not_finalizing_of_failed hf
        show { w.states ⟨r.fileId, r.serial⟩ with finalizing := false, failed := true } =
          w.states ⟨r.fileId, r.serial⟩
        generalize w.states ⟨r.fileId, r.serial⟩ = st at hf hnf ⊢
        cases st
        simp_all
      · rfl
    · exact .of_other hX rfl rfl (fun _ hq => Function.update_of_ne hq ..) (fun _ _ => rfl) rfl
  have hi' := hi.congr hsame
  exact .quiet hd ho hsame (.of_doomed rfl rfl rfl rfl hi'.doomed)

theorem Next.release {cont : Cont} {r : Ref} (hi : Compat X p w i (.retire cont r))
    (hr : (w.states r).reserved = true) : Next X T i (w.release r) (.remember cont r) := by
  have hmono : ∀ q, (w.states q).failed = true → ((w.release r).states q).failed = true := by
    intro q hq
    simp only [Writer.release, Writer.removeTemp, Writer.updateState, Function.update_apply]
    split
    · rename_i h
      rw [h] at hq
      exact hq
    · exact hq
  have hself : ∀ {q : Phase}, (r.fileId = X → q = .settled r.serial (some i)) →
      (p.Closed → q.Closed) → Compat X q (w.release r) i (.remember cont r) := fun h hclosed =>
    { finalizer := by rintro r ⟨⟩
      recorder := by rintro r ⟨⟩ hX; exact h hX
      bound := by rintro r ⟨⟩
      target := by rintro r n ⟨⟩
      doomed := fun q hq hX =>
        (hi.doomed q (List.mem_cons_of_mem _ hq) hX).imp (hmono q) hclosed
      emptied := by rintro r ⟨⟩ }
  by_cases hX : r.fileId = X
  · subst hX
    have hf := (hi.doomed r (List.mem_cons_self ..) rfl).1
    obtain rfl := hd.condemned_of_failed (n := r.serial) hf hr
    exact .advance ⟨by simp, by simp, by simp, fun _ => by trivial⟩ ho (hd.release i)
      (hself (fun _ => rfl) fun _ => by trivial) fun n hn => hmono _ hn
  · exact .quiet hd ho (.of_other hX rfl rfl (fun _ hq => Function.update_of_ne hq ..)
      (fun _ hq => Function.update_of_ne hq ..) rfl) (hself (fun h => absurd h hX) id)

/-- The phase after a thread has recorded a session. -/
theorem Next.recorded {r : Ref} (hi : Compat X p w i pc) (hr : pc.recorder = some r) :
    ∃ q : Phase, q.Describes X (w.rememberCompletedSessionLocked r.fileId) ∧
      (p.Closed → q.Closed) ∧
      ∀ j, j ≠ i → Compat X q (w.rememberCompletedSessionLocked r.fileId) j (T j) := by
  have hsame : ∀ j, j ≠ i → Compat X p (w.rememberCompletedSessionLocked r.fileId) j (T j) :=
    fun j hj => (ho j hj).mono (fun _ h => h) fun _ h => h
  have hadvance : ∀ {q : Phase}, p.Advance i q → ∀ j, j ≠ i →
      Compat X q (w.rememberCompletedSessionLocked r.fileId) j (T j) :=
    fun hq j hj => (ho j hj).advance hq hj fun _ h => h
  by_cases hX : r.fileId = X
  · subst hX
    obtain rfl := hi.recorder r hr rfl
    have hcount : (w.completedSessionOrder ++ [r.fileId]).count r.fileId = 1 := by
      rw [List.count_append, hd.order]
      simp [Phase.recorded]
    rcases hd.recorded r.fileId hcount with h | h
    · exact ⟨_, h, fun _ => trivial, hadvance (.of_recording trivial)⟩
    · exact ⟨_, h, fun _ => trivial, hadvance (.of_recording trivial)⟩
  · rcases hd.remember_other hX with h | ⟨⟨n, rfl⟩, h⟩
    · exact ⟨p, h, id, hsame⟩
    · exact ⟨_, h, fun _ => trivial, hadvance ⟨by simp, by simp, by simp, fun _ => by trivial⟩⟩

theorem Next.finalizeHash {caller : Caller} {s : Ref} {h : FileHandle}
    (hi : Compat X p w i (.finalizeHash caller s h)) :
    (∀ thrown, Next X T i (w.abortHash s.fileId) (.finalizeFail caller s thrown)) ∧
      ∀ fullHash, Next X T i (w.abortHash s.fileId) (.finalizePublish caller s h fullHash) := by
  have hi' : Compat X p (w.abortHash s.fileId) i (.finalizeHash caller s h) :=
    hi.congr (.of_eq rfl rfl rfl rfl rfl)
  refine ⟨fun thrown => .quiet hd ho (.of_eq rfl rfl rfl rfl rfl) ?_,
    fun fullHash => .quiet hd ho (.of_eq rfl rfl rfl rfl rfl) ?_⟩
  · exact ⟨hi'.finalizer, hi'.recorder, hi'.bound, by rintro q n ⟨⟩, hi'.doomed, hi'.emptied⟩
  · exact ⟨hi'.finalizer, hi'.recorder, hi'.bound, hi'.target, hi'.doomed, hi'.emptied⟩

theorem Next.finalizePublish {caller : Caller} {s : Ref} {h : FileHandle} {fullHash : ByteString}
    {env : StepEnv} {now : Nat} {out : Writer × Pc × List Event}
    (hi : Compat X p w i (.finalizePublish caller s h fullHash))
    (hst : stepThread cfg now i w (.finalizePublish caller s h fullHash) env = some out) :
    Next X T i out.1 out.2.1 := by
  simp only [stepThread] at hst
  have hspec := publish_cases cfg w env.publish h (w.temps ⟨s.fileId, h.serial⟩) fullHash
  generalize w.publish cfg env.publish h (w.temps ⟨s.fileId, h.serial⟩) fullHash = q at hst hspec
  have hself : ∀ {v : Writer} {pc : Pc}, (pc.finalizer = some s) → pc.recorder = none →
      pc.bound = none → pc.target = none → pc.doomed = [] →
      (∀ r, pc.emptied = some r → r.fileId = X → v.temps r = none) → Compat X p v i pc := by
    intro v pc hf hr hb ht hdm he
    exact
      { finalizer := fun r hr => hi.finalizer r (hf.symm.trans hr)
        recorder := by simp [hr]
        bound := by simp [hb]
        target := by simp [ht]
        doomed := by simp [hdm]
        emptied := he }
  have hdone : ∀ disposition name, q.outcome = .done disposition name → q.temp = none →
      Next X T i (w.setDisk ⟨s.fileId, h.serial⟩ q)
        (.finalizeComplete caller s ⟨disposition, name, fullHash⟩) := by
    intro disposition name _ htemp
    refine .quiet hd ho (.setDisk (.inl htemp)) (hself rfl rfl rfl rfl rfl ?_)
    rintro r ⟨⟩ hX
    have hserial := hi.target s h.serial rfl hX
    rw [hserial]
    exact (Function.update_self ..).trans htemp
  have hfail : ∀ thrown, q.temp = w.temps ⟨s.fileId, h.serial⟩ →
      Next X T i (w.setDisk ⟨s.fileId, h.serial⟩ q) (.finalizeFail caller s thrown) ∧
      Next X T i ((w.setDisk ⟨s.fileId, h.serial⟩ q).abortHash s.fileId)
        (.finalizeFail caller s thrown) := by
    intro thrown htemp
    have hsame : SameAt X w (w.setDisk ⟨s.fileId, h.serial⟩ q) := .setDisk (.inr htemp)
    exact ⟨.quiet hd ho hsame (hself rfl rfl rfl rfl rfl (by rintro r ⟨⟩)),
      .quiet hd ho (hsame.trans (.of_eq rfl rfl rfl rfl rfl))
        (hself rfl rfl rfl rfl rfl (by rintro r ⟨⟩))⟩
  cases hspec with
  | saved name bytes houtcome _ _ _ htemp =>
    rw [houtcome] at hst
    cases hst
    exact hdone _ _ houtcome htemp
  | duplicate name houtcome _ _ htemp =>
    rw [houtcome] at hst
    cases hst
    exact hdone _ _ houtcome htemp
  | nameConflict houtcome _ _ _ htemp =>
    rw [houtcome] at hst
    cases hst
    exact hdone _ _ houtcome htemp
  | failed houtcome _ htemp =>
    rcases houtcome with houtcome | ⟨what, houtcome⟩
    · rw [houtcome] at hst
      cases hst
      exact (hfail _ htemp).1
    · rw [houtcome] at hst
      cases hst
      exact (hfail _ htemp).2

end Sections

/-! ## Steps of a thread -/

section Threads

variable {now : Nat} {env : StepEnv} {out : Writer × Pc × List Event}
variable (hd : p.Describes X w) (ho : ∀ j, j ≠ i → Compat X p w j (T j))
include hd ho

theorem Next.stepWriteLookup {call : WriteCall} {id : ByteString}
    (hst : stepThread cfg now i w (.writeLookup call id) env = some out) :
    Next X T i out.1 out.2.1 := by
  simp only [LocalMediaTransfer.stepThread] at hst
  split at hst
  · rename_i h hl
    cases hst
    refine .quiet hd ho .rfl' (.of_bound rfl rfl rfl rfl rfl ?_)
    rintro rfl n rfl
    cases hd.active_of_lookup hl
    rfl
  · split at hst <;> cases hst
    · exact .quiet hd ho .rfl' (.of_detached ⟨rfl, rfl, rfl, rfl, rfl⟩)
    · exact .quiet hd ho .rfl' (.of_detached (detached_afterWrite ..))

theorem Next.stepWriteCheck {call : WriteCall} {r : Ref} (hi : Compat X p w i (.writeCheck call r))
    (hst : stepThread cfg now i w (.writeCheck call r) env = some out) :
    Next X T i out.1 out.2.1 := by
  simp only [LocalMediaTransfer.stepThread] at hst
  split at hst
  · rename_i h hl
    split at hst <;> cases hst
    · exact .quiet hd ho (.of_eq rfl rfl rfl rfl rfl) (.of_detached (detached_afterWrite ..))
    · rename_i target offset hcheck
      have htarget : target = h.serial := by
        unfold FileHandle.checkChunk at hcheck
        split at hcheck
        · split at hcheck <;> cases hcheck
        · split at hcheck
          · cases hcheck
          · split at hcheck <;> cases hcheck
            rfl
      refine .quiet hd ho ⟨rfl, rfl, fun n => ?_, fun _ h => h, rfl⟩ ?_
      · by_cases hX : r.fileId = X
        · subst hX
          rw [updateState_states]
          split
          · exact ⟨now, rfl⟩
          · exact ⟨(w.states ⟨r.fileId, n⟩).lastActivity, rfl⟩
        · exact ⟨(w.states ⟨X, n⟩).lastActivity,
            Function.update_of_ne (ref_ne (r := ⟨r.fileId, target⟩) hX n) ..⟩
      · exact
          { finalizer := by rintro s ⟨⟩
            recorder := by rintro q ⟨⟩
            bound := hi.bound
            target := by
              rintro q n ⟨⟩ hX
              subst hX
              rw [htarget]
              exact hi.bound r rfl rfl _ (hd.active_of_lookup hl)
            doomed := by rintro q ⟨⟩
            emptied := by rintro s ⟨⟩ }
  · split at hst <;> cases hst
    · exact .quiet hd ho .rfl' (.of_detached ⟨rfl, rfl, rfl, rfl, rfl⟩)
    · exact .quiet hd ho (.of_eq rfl rfl rfl rfl rfl) (.of_detached (detached_afterWrite ..))

theorem Next.stepWriteCopy {call : WriteCall} {r : Ref} {target offset : Nat}
    (hi : Compat X p w i (.writeCopy call r target offset))
    (hst : stepThread cfg now i w (.writeCopy call r target offset) env = some out) :
    Next X T i out.1 out.2.1 := by
  simp only [LocalMediaTransfer.stepThread] at hst
  have hcopy : ∀ data, SameAt X w (w.writeMappedRange ⟨r.fileId, target⟩ offset data) := by
    intro data
    refine ⟨rfl, rfl, fun n => ⟨(w.states ⟨X, n⟩).lastActivity, rfl⟩, fun n hn => ?_, rfl⟩
    simp only [Writer.writeMappedRange, Function.update_apply] at hn
    split at hn
    · rename_i h
      rw [h]
      simpa using hn
    · exact hn
  split at hst <;> cases hst
  · exact .quiet hd ho ((hcopy _).trans (.of_eq rfl rfl rfl rfl rfl))
      (.of_detached ⟨rfl, rfl, rfl, rfl, rfl⟩)
  · have hhash : SameAt X w ((w.writeMappedRange ⟨r.fileId, target⟩ offset call.data).updateHash
        r.fileId call.data env.hashUpdated).1 := by
      refine (hcopy call.data).trans ?_
      unfold Writer.updateHash
      split
      · exact .rfl'
      · split
        · exact .of_eq rfl rfl rfl rfl rfl
        · exact .rfl'
    have hi' := hi.congr hhash
    exact .quiet hd ho hhash
      ⟨hi'.finalizer, hi'.recorder, hi'.bound, hi'.target, hi'.doomed, hi'.emptied⟩

theorem Next.stepWriteCommit {call : WriteCall} {r : Ref} {target offset : Nat} {hashUpdated : Bool}
    (hst : stepThread cfg now i w (.writeCommit call r target offset hashUpdated) env = some out) :
    Next X T i out.1 out.2.1 := by
  simp only [LocalMediaTransfer.stepThread] at hst
  split at hst <;> cases hst
  · rename_i h hl
    refine .quiet hd ho ⟨rfl, ?_, fun n => ⟨(w.states ⟨X, n⟩).lastActivity, rfl⟩,
      fun _ h => h, rfl⟩ (.of_detached (detached_afterWrite ..))
    simp only [Writer.unlock]
    by_cases hX : r.fileId = X
    · subst hX
      rw [AList.lookup_insert, hl]
      rfl
    · rw [AList.lookup_insert_ne (Ne.symm hX)]
  · exact .quiet hd ho (.of_eq rfl rfl rfl rfl rfl) (.of_detached (detached_afterWrite ..))

theorem Next.stepWriteWait {call : WriteCall} {held : Option Ref} {s : Ref}
    (hst : stepThread cfg now i w (.writeWait call held s) env = some out) :
    Next X T i out.1 out.2.1 := by
  simp only [LocalMediaTransfer.stepThread] at hst
  split at hst
  · cases hst
    exact .quiet hd ho (.unlock? held) (.of_detached (detached_afterWrite ..))
  · split at hst
    · cases hst
      exact .quiet hd ho (.unlock? held) (.of_detached (detached_afterWrite ..))
    · split at hst <;> cases hst
      exact .quiet hd ho (.unlock? held) (.of_detached (detached_afterWrite ..))

theorem Next.stepFinalizeLookup {caller : Caller} {id : ByteString}
    (hst : stepThread cfg now i w (.finalizeLookup caller id) env = some out) :
    Next X T i out.1 out.2.1 := by
  simp only [LocalMediaTransfer.stepThread] at hst
  split at hst
  · rename_i h hl
    cases hst
    refine .quiet hd ho .rfl' (.of_bound rfl rfl rfl rfl rfl ?_)
    rintro rfl n rfl
    cases hd.active_of_lookup hl
    rfl
  · split at hst <;> cases hst
    · exact .quiet hd ho .rfl' (.of_detached ⟨rfl, rfl, rfl, rfl, rfl⟩)
    · exact .quiet hd ho .rfl' (.of_detached (detached_afterFinalize ..))

theorem Next.stepFinalizeTake {caller : Caller} {r : Ref}
    (hi : Compat X p w i (.finalizeTake caller r))
    (hst : stepThread cfg now i w (.finalizeTake caller r) env = some out) :
    Next X T i out.1 out.2.1 := by
  simp only [LocalMediaTransfer.stepThread] at hst
  split at hst
  · rename_i h hl
    split at hst <;> cases hst
    · exact .finalizeTake hd ho hi hl
    · exact .quiet hd ho (.of_eq rfl rfl rfl rfl rfl) (.of_detached ⟨rfl, rfl, rfl, rfl, rfl⟩)
  · split at hst <;> cases hst
    · exact .quiet hd ho (.of_eq rfl rfl rfl rfl rfl) (.of_detached ⟨rfl, rfl, rfl, rfl, rfl⟩)
    · exact .quiet hd ho (.of_eq rfl rfl rfl rfl rfl)
        (.of_detached (detached_afterFinalize ..))

theorem Next.stepFinalizeWait {caller : Caller} {s : Ref}
    (hst : stepThread cfg now i w (.finalizeWait caller s) env = some out) :
    Next X T i out.1 out.2.1 := by
  simp only [LocalMediaTransfer.stepThread] at hst
  split at hst
  · cases hst
    exact .quiet hd ho .rfl' (.of_detached (detached_afterFinalize ..))
  · split at hst
    · cases hst
      exact .quiet hd ho .rfl' (.of_detached (detached_afterFinalize ..))
    · split at hst <;> cases hst
      exact .quiet hd ho .rfl' (.of_detached (detached_afterFinalize ..))

theorem Next.stepFinalizeHash {caller : Caller} {s : Ref} {h : FileHandle}
    (hi : Compat X p w i (.finalizeHash caller s h))
    (hst : stepThread cfg now i w (.finalizeHash caller s h) env = some out) :
    Next X T i out.1 out.2.1 := by
  simp only [LocalMediaTransfer.stepThread] at hst
  split at hst
  · cases hst
    exact (Next.finalizeHash hd ho hi).1 none
  · split at hst <;> cases hst
    · exact (Next.finalizeHash hd ho hi).1 none
    · exact (Next.finalizeHash hd ho hi).2 _

theorem Next.stepRetire {cont : Cont} {r : Ref} (hi : Compat X p w i (.retire cont r))
    (hst : stepThread cfg now i w (.retire cont r) env = some out) : Next X T i out.1 out.2.1 := by
  simp only [LocalMediaTransfer.stepThread] at hst
  split at hst <;> cases hst
  · rename_i hr
    exact .release hd ho hi (Bool.and_eq_true_iff.mp hr).1
  · exact .resume hd ho fun q hq => hi.doomed q (List.mem_cons_of_mem _ hq)

theorem Next.stepExpireCollect (hst : stepThread cfg now i w (.expireCollect) env = some out) :
    Next X T i out.1 out.2.1 := by
  cases hst
  refine .quiet hd ho .rfl' (.nextExpire fun r hr hX => ?_)
  subst hX
  obtain ⟨-, hf, hr⟩ := mem_pendingCleanup hr
  obtain rfl := hd.condemned_of_failed (n := r.serial) hf hr
  exact ⟨hf, trivial⟩

end Threads

/-! ## The refinement -/

/-- Every step of a thread keeps the lifecycle. -/
theorem Next.stepThread {now : Nat} {env : StepEnv} {out : Writer × Pc × List Event}
    (hd : p.Describes X w) (hc : ∀ j, Compat X p w j (T j))
    (hfresh : ∀ caller a, T i = .initFile caller a → a.fileId = X →
      w.sessions.lookup X = none → ∀ j, ∀ r ∈ (T j).refs, r.fileId ≠ X)
    (hst : stepThread cfg now i w (T i) env = some out) : Next X T i out.1 out.2.1 := by
  have hi := hc i
  have ho : ∀ j, j ≠ i → Compat X p w j (T j) := fun j _ => hc j
  cases hpc : T i with
  | idle =>
    rw [hpc] at hst
    cases hst
  | initFile caller a =>
    rw [hpc] at hst
    cases hst
    exact .initFile hd ho (initFile_spec ..) (hfresh caller a hpc)
  | writeLookup call id =>
    rw [hpc] at hst
    exact .stepWriteLookup hd ho hst
  | writeLock call r =>
    rw [hpc] at hst hi
    obtain ⟨-, rfl⟩ := stepThread_lock rfl hst
    exact .quiet hd ho (.of_eq rfl rfl rfl rfl rfl)
      (.of_bound rfl rfl rfl rfl rfl (hi.bound r rfl))
  | writeCheck call r =>
    rw [hpc] at hst hi
    exact .stepWriteCheck hd ho hi hst
  | writeCopy call r target offset =>
    rw [hpc] at hst hi
    exact .stepWriteCopy hd ho hi hst
  | writeCommit call r target offset hashUpdated =>
    rw [hpc] at hst
    exact .stepWriteCommit hd ho hst
  | writeWait call held s =>
    rw [hpc] at hst
    exact .stepWriteWait hd ho hst
  | finalizeLookup caller id =>
    rw [hpc] at hst
    exact .stepFinalizeLookup hd ho hst
  | finalizeLock caller r =>
    rw [hpc] at hst hi
    obtain ⟨-, rfl⟩ := stepThread_lock rfl hst
    exact .quiet hd ho (.of_eq rfl rfl rfl rfl rfl)
      (.of_bound rfl rfl rfl rfl rfl (hi.bound r rfl))
  | finalizeTake caller r =>
    rw [hpc] at hst hi
    exact .stepFinalizeTake hd ho hi hst
  | finalizeWait caller s =>
    rw [hpc] at hst
    exact .stepFinalizeWait hd ho hst
  | finalizeHash caller s h =>
    rw [hpc] at hst hi
    exact .stepFinalizeHash hd ho hi hst
  | finalizePublish caller s h fullHash =>
    rw [hpc] at hst hi
    exact .finalizePublish hd ho hi hst
  | finalizeComplete caller s result =>
    rw [hpc] at hst hi
    cases hst
    exact .finalizeComplete hd ho hi
  | finalizeRemember caller s result =>
    rw [hpc] at hst hi
    cases hst
    obtain ⟨q, hq, -, hothers⟩ := Next.recorded hd ho hi rfl
    exact ⟨q, hq, .of_detached (detached_afterFinalize ..), hothers⟩
  | finalizeFail caller s thrown =>
    rw [hpc] at hst hi
    cases hst
    exact .finalizeFail hd ho hi
  | abortCollect caller m after =>
    rw [hpc] at hst
    cases hst
    exact .collectAborted hd ho
  | abortLock caller r rest count after =>
    rw [hpc] at hst hi
    obtain ⟨-, rfl⟩ := stepThread_lock rfl hst
    exact .quiet hd ho (.of_eq rfl rfl rfl rfl rfl) (.of_doomed rfl rfl rfl rfl hi.doomed)
  | abortClose caller r rest count after =>
    rw [hpc] at hst hi
    cases hst
    exact .abortClose hd ho hi
  | retire cont r =>
    rw [hpc] at hst hi
    exact .stepRetire hd ho hi hst
  | remember cont r =>
    rw [hpc] at hst hi
    cases hst
    obtain ⟨q, hq, hclosed, hothers⟩ := Next.recorded hd ho hi rfl
    exact .resume hq hothers fun r hr hX => (hi.doomed r hr hX).imp_right hclosed
  | expireCollect =>
    rw [hpc] at hst
    exact .stepExpireCollect hd ho hst

end LocalMediaTransfer
