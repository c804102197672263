import LocalMediaTransfer.Server.FileWriter.Cancellation
import LocalMediaTransfer.Server.FileWriter.Content

/-!
# After an abort

Once the files under a prefix have no handle and no `initFile` call for one of them is on its way,
nothing brings them back: sessions are created by `initFile` only, and only a file with a handle can
be taken for finalization.

* `Shut` — no handle and no `initFile` call under a prefix.
* `Final` — **what holds from then on**: no new session, no new finalization, and nothing is
  published that was not being finalized already.
* `final_of_run` — it holds in every later state, as long as no call opens such a file.
-/

set_option autoImplicit false

namespace LocalMediaTransfer

open Lib

variable {cfg : WriterConfig} {s s' s₀ : System} {l : Label} {p : ByteString}

/-- The session whose file a thread is about to publish. -/
def Pc.publishing : Pc → Option Ref
  | .finalizeHash _ s h | .finalizePublish _ s h _ => some ⟨s.fileId, h.serial⟩
  | _ => none

/-- Nothing under a prefix can be opened or taken for finalization. -/
structure Shut (p : ByteString) (s : System) : Prop where
  inactive : ∀ id, p <+: id → s.writer.handles.lookup id = none
  unopened : ∀ i caller a, s.threads i = .initFile caller a → ¬p <+: a.fileId

/-- A label does not start an `initFile` call under a prefix. -/
def Label.spares (p : ByteString) (s : System) : Label → Prop
  | .call _ c => ∀ caller a, (c.start s.clock).1 = .initFile caller a → ¬p <+: a.fileId
  | _ => True

theorem stepThread_ne_initFile {now i : Nat} {w : Writer} {pc : Pc} {env : StepEnv}
    {out : Writer × Pc × List Event} (hst : stepThread cfg now i w pc env = some out)
    (caller : Caller) (a : InitArgs) : out.2.1 ≠ .initFile caller a := by
  intro h
  have hargs : out.2.1.args = some (.init caller a) := by rw [h]; rfl
  rcases stepThread_args hst hargs with ⟨-, _, _, he⟩ | ⟨_, _, _, he, -⟩ <;> cases he

/-- A file is taken for finalization only while it has a handle. -/
theorem stepThread_publishing {now i : Nat} {w : Writer} {pc : Pc} {env : StepEnv}
    {out : Writer × Pc × List Event} (hst : stepThread cfg now i w pc env = some out) {q : Ref}
    (hq : out.2.1.publishing = some q) :
    pc.publishing = some q ∨ ∃ h, w.handles.lookup q.fileId = some h := by
  have hid : ∀ {pc : Pc}, pc.publishing = some q → pc.tracked q.fileId = true := by
    intro pc h
    cases pc <;> first
      | cases h; exact beq_self_eq_true _
      | cases h
  have hnone : ∀ {pc : Pc}, pc.tracked q.fileId = false → pc.publishing = some q → False := by
    intro pc ht h
    rw [hid h] at ht
    cases ht
  cases stepThread_content q.fileId hst with
  | quiet _ hafter => exact (hnone hafter hq).elim
  | created => exact (hnone (Pc.tracked_of_refs_nil (refs_afterInit ..)) hq).elim
  | committed => exact (hnone (Pc.tracked_of_refs_nil (refs_afterWrite ..)) hq).elim
  | taken caller r h file lookup => exact .inr ⟨h, lookup⟩
  | hashed => exact .inl hq
  | aborted => exact (hnone (tracked_nextAbort ..) hq).elim
  | _ => cases hq

/-- A file is published by the thread that finalizes it. -/
theorem publishing_of_published {now i : Nat} {w : Writer} {pc : Pc} {env : StepEnv}
    {out : Writer × Pc × List Event} (hst : stepThread cfg now i w pc env = some out) {r : Ref}
    {name bytes : ByteString} {replaced : Option DirEntry}
    (he : .published r name bytes replaced ∈ out.2.2) : pc.publishing = some r := by
  have hstep := stepThread_content r.fileId hst
  cases hstep with
  | quiet _ _ hsilent => simpa [Event.concerns] using hsilent _ he
  | created => simpa [Event.concerns] using concerns_afterInit (X := r.fileId) _ _ _ _ he
  | committed =>
    rcases List.mem_cons.mp he with he | he
    · cases he
    · simpa [Event.concerns] using concerns_afterWrite (X := r.fileId) _ _ _ _ he
  | published =>
    simp only at he
    split at he
    · cases List.mem_singleton.mp he
      rfl
    · cases he
  | aborted => simpa [Event.concerns] using concerns_nextAbort (X := r.fileId) _ _ _ _ _ he
  | _ => cases he

theorem Shut.step (h : Shut p s) (hl : l.spares p s)
    (hst : LocalMediaTransfer.step cfg s l = some s') : Shut p s' := by
  cases step_spec hst with
  | call tid c hidle =>
    refine ⟨h.inactive, ?_⟩
    exact forall_update (P := fun _ pc => ∀ caller a, pc = .initFile caller a → ¬p <+: a.fileId)
      hl fun j _ => h.unopened j
  | run tid env out hmove =>
    refine ⟨?_, ?_⟩
    · intro id hid
      by_contra hne
      obtain ⟨g, hg⟩ := Option.ne_none_iff_exists'.mp hne
      rcases (stepThread_content id hmove).handle_cases hg with
        hg | ⟨_, _, _, _, _, g₀, -, -, hg, -⟩ | ⟨caller, a, _, hpc, rfl, -⟩
      · rw [h.inactive id hid] at hg
        cases hg
      · rw [h.inactive id hid] at hg
        cases hg
      · exact h.unopened tid caller a hpc hid
    · refine forall_update (P := fun _ pc => ∀ caller a, pc = .initFile caller a → ¬p <+: a.fileId)
        ?_ fun j _ => h.unopened j
      intro caller a hpc
      exact absurd hpc (stepThread_ne_initFile hmove caller a)
  | tick => exact ⟨h.inactive, h.unopened⟩

/-- A session under the prefix was registered before. -/
theorem Shut.session (h : Shut p s)
    (hst : LocalMediaTransfer.step cfg s l = some s') {id : ByteString} {n : Nat}
    (hid : p <+: id) (hn : s'.writer.sessions.lookup id = some n) :
    s.writer.sessions.lookup id = some n := by
  cases step_spec hst with
  | call => exact hn
  | run tid env out hmove =>
    have hdrop : ∀ (w : Writer) (fileId : ByteString),
        (w.rememberCompletedSessionLocked fileId).sessions.lookup id = some n →
          w.sessions.lookup id = some n := by
      intro w fileId hw
      obtain ⟨dropped, -, hs⟩ := rememberCompletedSessionLocked_spec w fileId
      rw [hs id] at hw
      split at hw
      · cases hw
      · exact hw
    cases stepThread_sessionTable hmove with
    | same hs => exact hs ▸ hn
    | recorded r _ hs =>
      simp only [hs] at hn
      exact hdrop _ _ hn
    | created caller a hpc _ _ _ hw =>
      have hne : id ≠ a.fileId := by
        rintro rfl
        exact h.unopened tid caller a hpc hid
      have hreserved : (s.writer.reserve s.clock a).sessions.lookup id =
          s.writer.sessions.lookup id := AList.lookup_insert_ne hne
      rw [← hreserved]
      simp only [hw] at hn
      unfold Writer.createSession at hn
      simp only at hn
      split at hn
      · exact hn
      · exact hn
      · exact hdrop ((s.writer.reserve s.clock a).updateState ⟨a.fileId, s.writer.nextSerial⟩ _)
          _ hn
  | tick => exact hn

/-- What holds of a state `s` after `s₀`. -/
structure Final (p : ByteString) (s₀ s : System) : Prop where
  shut : Shut p s
  /-- No new session exists. -/
  session : ∀ id n, p <+: id → s.writer.sessions.lookup id = some n →
    s₀.writer.sessions.lookup id = some n
  /-- No new file is being finalized. -/
  publishing : ∀ i q, (s.threads i).publishing = some q → p <+: q.fileId →
    (s₀.threads i).publishing = some q
  /-- What was published since was being finalized then. -/
  published : ∃ new, s.log = s₀.log ++ new ∧ ∀ r name bytes replaced,
    .published r name bytes replaced ∈ new → p <+: r.fileId →
      ∃ i, (s₀.threads i).publishing = some r

theorem Final.refl (h : Shut p s) : Final p s s where
  shut := h
  session := fun _ _ _ hn => hn
  publishing := fun _ _ hq _ => hq
  published := ⟨[], (List.append_nil _).symm, by simp⟩

theorem Final.step (h : Final p s₀ s) (hl : l.spares p s)
    (hst : LocalMediaTransfer.step cfg s l = some s') : Final p s₀ s' := by
  refine ⟨h.shut.step hl hst, fun id n hid hn => h.session id n hid (h.shut.session hst hid hn),
    ?_, ?_⟩
  · intro i q hq hid
    refine h.publishing i q ?_ hid
    cases step_spec hst with
    | call tid c hidle =>
      by_cases hi : i = tid
      · subst hi
        simp only [Function.update_self] at hq
        have hrefs := refs_start s.clock c
        generalize (c.start s.clock).1 = pc at hq hrefs
        cases pc with
        | finalizeHash | finalizePublish => cases hrefs
        | _ => cases hq
      · simpa only [Function.update_of_ne hi] using hq
    | run tid env out hmove =>
      by_cases hi : i = tid
      · subst hi
        simp only [Function.update_self] at hq
        rcases stepThread_publishing hmove hq with hq | ⟨g, hg⟩
        · exact hq
        · rw [h.shut.inactive _ hid] at hg
          cases hg
      · simpa only [Function.update_of_ne hi] using hq
    | tick => exact hq
  · obtain ⟨new, hlog, hnew⟩ := h.published
    cases step_spec hst with
    | call tid c hidle =>
      refine ⟨new ++ (c.start s.clock).2, by simp [hlog], ?_⟩
      intro r name bytes replaced he hid
      rcases List.mem_append.mp he with he | he
      · exact hnew r name bytes replaced he hid
      · rcases start_events he with ⟨_, he⟩ | ⟨_, he⟩ <;> cases he
    | run tid env out hmove =>
      refine ⟨new ++ (out.2.2 ++ evictions s.writer out.1), by simp [hlog], ?_⟩
      intro r name bytes replaced he hid
      rcases List.mem_append.mp he with he | he
      · exact hnew r name bytes replaced he hid
      · rcases List.mem_append.mp he with he | he
        · exact ⟨tid, h.publishing tid r (publishing_of_published hmove he) hid⟩
        · simpa [Event.concerns] using silent_evictions (X := r.fileId) _ _ _ he
    | tick => exact ⟨new, hlog, hnew⟩

/-- **Finality**: from a shut state on, along every run that opens no file under the prefix. -/
theorem final_of_run {ok : System → Label → Prop} (hok : ∀ s l, ok s l → l.spares p s)
    (h : Shut p s₀) (hrun : Run (LocalMediaTransfer.step cfg) ok s₀ s) : Final p s₀ s :=
  hrun.invariant (.refl h) fun _ _ _ ih hl hst => ih.step (hok _ _ hl) hst

end LocalMediaTransfer
