import LocalMediaTransfer.Server.FileWriter.Content

/-!
# What finalization reports

`finalizeFileResult` ends in a dozen places.  Whatever it reports, to the finalizing call or to a
waiting one, is true of the destination directory and of the session, and stays true.

* `Sound` — what a reported result promises.
* `Progress`, `stepThread_progress` — what a step keeps: destination files, history, results.
* `Outcome.step` — the invariant that relates reports, finalization states and the directory.
* `finalization_sound` — **no overwrite, no loss and sound deduplication**.
-/

set_option autoImplicit false

namespace LocalMediaTransfer

open Lib

variable {X : ByteString} {cfg : WriterConfig} {s s' : System} {l : Label} {w w' : Writer}
  {log log' : List Event} {pc : Pc}

/-- What result `result` of session `r` says about the destination and the session's bytes. -/
def Sound (cfg : WriterConfig) (w : Writer) (log : List Event) (r : Ref)
    (result : FileFinalizeResult) : Prop :=
  match result.disposition with
  | .saved =>
      .published r result.filename (acceptedBytes log r) none ∈ log ∧
      findEntry cfg w.files result.filename = some ⟨result.filename, some (acceptedBytes log r)⟩ ∧
      result.sha256 = cfg.sha256 (acceptedBytes log r)
  | .duplicate =>
      HoldsHash cfg w.files result.filename result.sha256 ∧
      result.sha256 = cfg.sha256 (acceptedBytes log r)
  | .nameConflict =>
      cfg.filenameConflictPolicy = .reject ∧
      (∃ clock, result.filename =
        makeFinalFilename ⟨cfg.ansiToWide, clock⟩ (w.states r).originalName) ∧
      (findEntry cfg w.files result.filename).isSome
  | .finalizing | .error => False

/-! ## What a step keeps -/

/-- Later states of the destination, the history and the sessions of `X`. -/
structure Progress (X : ByteString) (w : Writer) (log : List Event) (w' : Writer)
    (log' : List Event) : Prop where
  files : ∀ key entry, w.files.lookup key = some entry → w'.files.lookup key = some entry
  history : ∀ e ∈ log, e ∈ log'
  chunks : ∀ n, (∀ h, w.handles.lookup X = some h → h.serial ≠ n) →
    acceptedChunks log' ⟨X, n⟩ = acceptedChunks log ⟨X, n⟩
  metadata : ∀ n, n < w.nextSerial → (w'.states ⟨X, n⟩).metadata = (w.states ⟨X, n⟩).metadata
  completed : ∀ n, n < w.nextSerial → (w.states ⟨X, n⟩).completed = true →
    (w'.states ⟨X, n⟩).completed = true ∧ (w'.states ⟨X, n⟩).result = (w.states ⟨X, n⟩).result
  failed : ∀ n, n < w.nextSerial → (w.states ⟨X, n⟩).failed = true →
    (w'.states ⟨X, n⟩).failed = true
  serial : w.nextSerial ≤ w'.nextSerial

theorem HoldsHash.mono {name hash : ByteString} (h : HoldsHash cfg w.files name hash)
    (hp : Progress X w log w' log') : HoldsHash cfg w'.files name hash := by
  obtain ⟨entry, bytes, he, hc, hh⟩ := h
  exact ⟨entry, bytes, hp.files _ _ he, hc, hh⟩

/-- A sound result stays sound once no more chunks are accepted. -/
theorem Sound.next {n : Nat} {result : FileFinalizeResult} (hp : Progress X w log w' log')
    (hn : n < w.nextSerial) (hinactive : ∀ h, w.handles.lookup X = some h → h.serial ≠ n)
    (h : Sound cfg w log ⟨X, n⟩ result) : Sound cfg w' log' ⟨X, n⟩ result := by
  have hbytes : acceptedBytes log' ⟨X, n⟩ = acceptedBytes log ⟨X, n⟩ := by
    rw [acceptedBytes, acceptedBytes, hp.chunks n hinactive]
  unfold Sound at h ⊢
  split at h
  · rw [hbytes]
    exact ⟨hp.history _ h.1, hp.files _ _ h.2.1, h.2.2⟩
  · rw [hbytes]
    exact ⟨h.1.mono hp, h.2⟩
  · refine ⟨h.1, ?_, ?_⟩
    · have hname : (w'.states ⟨X, n⟩).originalName = (w.states ⟨X, n⟩).originalName :=
        congrArg Prod.fst (hp.metadata n hn)
      rw [hname]
      exact h.2.1
    · obtain ⟨entry, he⟩ := Option.isSome_iff_exists.mp h.2.2
      rw [findEntry, hp.files _ _ he]
      rfl
  · exact h
  · exact h

theorem stepThread_progress {p : Phase} {tid : Nat} {env : StepEnv}
    {out : Writer × Pc × List Event} (hd : p.Describes X s.writer)
    (hi : Compat X p s.writer tid (s.threads tid))
    (hmove : stepThread cfg s.clock tid s.writer (s.threads tid) env = some out) :
    Progress X s.writer s.log out.1 (s.log ++ out.2.2 ++ evictions s.writer out.1) where
  files := fun key entry he => files_persist hmove he
  history := fun e he => List.mem_append_left _ (List.mem_append_left _ he)
  chunks := by
    intro n hinactive
    have hnil : acceptedChunks out.2.2 ⟨X, n⟩ = [] := by
      refine acceptedChunks_eq_nil fun data he => ?_
      obtain ⟨_, _, _, _, _, h, _, _, hl, hser, _⟩ := stepThread_accepted hmove he
      exact hinactive h hl hser
    rw [acceptedChunks_silent (silent_evictions _ _), acceptedChunks_append, hnil, List.append_nil]
  metadata := fun n hn => (stepThread_states hmove ⟨X, n⟩).metadata (.of_lt hn)
  completed := fun n hn hc => completed_persists hd hi hmove (.of_lt hn) hc
  failed := fun n hn hf => (stepThread_states hmove ⟨X, n⟩).failed_persists (.of_lt hn) hf
  serial := by
    cases stepThread_sessionTable hmove with
    | same _ hn => exact hn.ge
    | recorded _ _ _ hn => exact hn.ge
    | created caller a _ _ _ _ hw =>
      rw [hw, createSession_nextSerial]
      omega

/-! ## The invariant -/

/-- What a thread that finalizes or retires a session of `X` knows about it. -/
def Pledged (cfg : WriterConfig) (X : ByteString) (w : Writer) (log : List Event) : Pc → Prop
  | .finalizeComplete _ r result => r.fileId = X → Sound cfg w log r result
  | .finalizeRemember _ r result => r.fileId = X →
      (w.states r).completed = true ∧ (w.states r).result = result
  | .remember _ r => r.fileId = X → (w.states r).failed = true
  | _ => True

/-- An incomplete session that a call is aborting has failed, or the abort is still to come and
will find its handle. -/
def Doomed (X : ByteString) (w : Writer) (pc : Pc) : Prop :=
  ∀ r, pc.rejecting = some r → r.fileId = X →
    (w.states r).failed = true ∨
      ∃ caller h, pc = .abortCollect caller (.byId X) (.incomplete r) ∧
        w.handles.lookup X = some h ∧ h.serial = r.serial ∧ h.isComplete = false

/-- What a report says about the session it speaks about. -/
def Reported (X : ByteString) (w : Writer) (session : Option Ref) (result : FileFinalizeResult) :
    Prop :=
  match result.disposition with
  | .finalizing => True
  | .error => ∀ r, session = some r →
      r.fileId = X ∧ r.serial < w.nextSerial ∧ (w.states r).failed = true
  | .saved | .duplicate | .nameConflict => ∃ n, session = some ⟨X, n⟩ ∧ n < w.nextSerial ∧
      (w.states ⟨X, n⟩).completed = true ∧ (w.states ⟨X, n⟩).result = result

structure Outcome (cfg : WriterConfig) (X : ByteString) (s : System) : Prop where
  completed : ∀ n, (s.writer.states ⟨X, n⟩).completed = true →
    Sound cfg s.writer s.log ⟨X, n⟩ (s.writer.states ⟨X, n⟩).result
  pledged : ∀ i, Pledged cfg X s.writer s.log (s.threads i)
  doomed : ∀ i, Doomed X s.writer (s.threads i)
  published : ∀ r name bytes replaced, .published r name bytes replaced ∈ s.log → r.fileId = X →
    r.serial < s.writer.nextSerial ∧ ((s.writer.states r).completed = true ∨
      ∃ i caller result, s.threads i = .finalizeComplete caller r result)
  reported : ∀ session result flag, .finalized X session result flag ∈ s.log →
    Reported X s.writer session result
  threw : ∀ r what, .threw r what ∈ s.log → r.fileId = X →
    r.serial < s.writer.nextSerial ∧ (s.writer.states r).failed = true

theorem Reported.next {session : Option Ref} {result : FileFinalizeResult}
    (hp : Progress X w log w' log') (h : Reported X w session result) :
    Reported X w' session result := by
  have hdone : (∃ n, session = some ⟨X, n⟩ ∧ n < w.nextSerial ∧
      (w.states ⟨X, n⟩).completed = true ∧ (w.states ⟨X, n⟩).result = result) →
      ∃ n, session = some ⟨X, n⟩ ∧ n < w'.nextSerial ∧
        (w'.states ⟨X, n⟩).completed = true ∧ (w'.states ⟨X, n⟩).result = result := by
    rintro ⟨n, hs, hn, hc, hr⟩
    obtain ⟨hc', hr'⟩ := hp.completed n hn hc
    exact ⟨n, hs, hn.trans_le hp.serial, hc', hr'.trans hr⟩
  unfold Reported at h ⊢
  split at h
  · trivial
  · rintro ⟨id, n⟩ hs
    obtain ⟨rfl, hn, hf⟩ := h _ hs
    exact ⟨rfl, hn.trans_le hp.serial, hp.failed n hn hf⟩
  · exact hdone h
  · exact hdone h
  · exact hdone h

theorem Pledged.of_untracked (h : pc.tracked X = false) : Pledged cfg X w log pc := by
  cases pc <;> first
    | trivial
    | exact fun hX => by simp [Pc.tracked, hX] at h

/-- The pledges of the threads that do not move. -/
theorem Pledged.next {p : Phase} {i : Nat} (hp : Progress X w log w' log')
    (hd : p.Describes X w) (hc : Compat X p w i pc)
    (hrefs : ∀ r ∈ pc.refs, r.serial < w.nextSerial) (h : Pledged cfg X w log pc) :
    Pledged cfg X w' log' pc := by
  cases pc with
  | finalizeComplete caller r result =>
    intro hX
    obtain ⟨id, n⟩ := r
    subst hX
    have hnone := hd.lookup_none (by rw [hc.finalizer _ rfl rfl]; rfl)
    exact Sound.next hp (hrefs _ (List.mem_singleton.mpr rfl)) (by simp [hnone]) (h rfl)
  | finalizeRemember caller r result =>
    intro hX
    obtain ⟨id, n⟩ := r
    subst hX
    obtain ⟨hcomp, hres⟩ := h rfl
    obtain ⟨hcomp', hres'⟩ := hp.completed n (hrefs _ (List.mem_singleton.mpr rfl)) hcomp
    exact ⟨hcomp', hres'.trans hres⟩
  | remember cont r =>
    intro hX
    obtain ⟨id, n⟩ := r
    subst hX
    exact hp.failed n (hrefs _ (List.mem_cons_self ..)) (h rfl)
  | _ => trivial

/-- What becomes of an active handle of `X`. -/
theorem ContentStep.handle_after {now : Nat} {out : Writer × Pc × List Event} {g : FileHandle}
    (h : ContentStep X cfg now w pc out) (hg : w.handles.lookup X = some g) :
    out.1.handles.lookup X = some g ∨
      (∃ call r target offset hashUpdated, pc = .writeCommit call r target offset hashUpdated ∧
        r.fileId = X) ∨
      g.isComplete = true ∨ (out.1.states ⟨X, g.serial⟩).failed = true := by
  cases h with
  | quiet hu => exact .inl (hu.handle.trans hg)
  | created _ _ _ _ _ hinactive => cases hinactive.symm.trans hg
  | copied =>
    rw [updateHash_handles]
    exact .inl hg
  | committed call r target offset hashUpdated _ hX =>
    exact .inr (.inl ⟨call, r, target, offset, hashUpdated, rfl, hX⟩)
  | taken caller r g' hX hl hcomplete =>
    cases hl.symm.trans hg
    exact .inr (.inr (.inl hcomplete))
  | unpublished _ _ _ _ _ _ _ _ _ hhandles =>
    rw [hhandles]
    exact .inl hg
  | aborted caller m after g' count hl ha =>
    cases hl.symm.trans hg
    refine .inr (.inr (.inr ?_))
    have hmem : (⟨X, g.serial⟩ : Ref) ∈ w.abortedRefs cfg m := mem_abortedRefs.mpr ⟨g, hl, ha, rfl⟩
    simp [Writer.collectAborted, hmem]
  | _ => exact .inl hg

/-- No chunk of `X` is counted while a call that found `X` incomplete is about to abort it. -/
def Undisturbed (X : ByteString) (s : System) (l : Label) : Prop :=
  ∀ i env call r target offset hashUpdated, l = .run i env →
    s.threads i = .writeCommit call r target offset hashUpdated → r.fileId = X →
    ∀ j caller m q, s.threads j = .abortCollect caller m (.incomplete q) → q.fileId ≠ X

section Thread

variable {tid : Nat} {env : StepEnv} {out : Writer × Pc × List Event} {p : Phase}
  (hd : p.Describes X s.writer) (hc : ∀ i, Compat X p s.writer i (s.threads i))
  (hserial : Fresh s)
  (hmove : stepThread cfg s.clock tid s.writer (s.threads tid) env = some out)
include hd hc hserial hmove

theorem Doomed.others (hquiet : Undisturbed X s (.run tid env)) {j : Nat}
    (h : Doomed X s.writer (s.threads j)) : Doomed X out.1 (s.threads j) := by
  have hp := stepThread_progress hd (hc tid) hmove
  rintro ⟨id, n⟩ hr rfl
  rcases h _ hr rfl with hf | ⟨caller, g, hpc, hg, hser, hincomplete⟩
  · exact .inl (hp.failed n (hserial.refs j _ (Pc.rejecting_mem_refs hr)) hf)
  · rcases (stepThread_content id hmove).handle_after hg with
      hg' | ⟨call, r, target, offset, hashUpdated, hcommit, hX⟩ | hcomplete | hf
    · exact .inr ⟨caller, g, hpc, hg', hser, hincomplete⟩
    · exact absurd rfl (hquiet tid env call r target offset hashUpdated rfl hcommit hX j _ _ _ hpc)
    · rw [hincomplete] at hcomplete
      cases hcomplete
    · rw [hser] at hf
      exact .inl hf

theorem Doomed.self (h : Doomed X s.writer (s.threads tid)) : Doomed X out.1 out.2.1 := by
  have hp := stepThread_progress hd (hc tid) hmove
  rintro ⟨id, n⟩ hr rfl
  rcases stepThread_rejecting hmove hr with
    ⟨caller, g, hpc, hg, hincomplete, hpc', hhandles⟩ | hr'
  · -- the search for the handle is next
    have hi := hc tid
    rw [hpc] at hi
    have hser := hi.bound ⟨id, n⟩ rfl rfl _ (hd.active_of_lookup hg)
    exact .inr ⟨caller, g, hpc', by rw [hhandles]; exact hg, hser, hincomplete⟩
  · rcases h _ hr' rfl with hf | ⟨caller, g, hpc, hg, hser, hincomplete⟩
    · exact .inl (hp.failed n (hserial.refs tid _ (Pc.rejecting_mem_refs hr')) hf)
    · rw [hpc] at hmove
      cases hmove
      have hmem : (⟨id, n⟩ : Ref) ∈ s.writer.abortedRefs cfg (.byId id) :=
        mem_abortedRefs.mpr ⟨g, hg, by simp [Writer.aborts, AbortMatch.holds], hser⟩
      left
      simp [Writer.collectAborted, hmem]

end Thread

/-- The publication section reports what it did. -/
theorem sound_published {caller : Caller} {r : Ref} {g : FileHandle} {fullHash name : ByteString}
    {disposition : FileFinalizeDisposition} {q : Published} {clock : Nat}
    (hbusy : Busy cfg X w log (.finalizePublish caller r g fullHash)) (hX : r.fileId = X)
    (hspec : PublishSpec cfg w g clock (w.temps ⟨r.fileId, g.serial⟩) fullHash q)
    (houtcome : q.outcome = .done disposition name)
    (hchunks : acceptedChunks log' r = acceptedChunks log r)
    (hlog : disposition = .saved → .published ⟨r.fileId, g.serial⟩ name
      ((w.temps ⟨r.fileId, g.serial⟩).getD []) (findEntry cfg w.files name) ∈ log') :
    Sound cfg (w.setDisk ⟨r.fileId, g.serial⟩ q) log' r ⟨disposition, name, fullHash⟩ := by
  obtain ⟨c, hcomplete, hhash, hne⟩ := hbusy hX
  have hr : (⟨r.fileId, g.serial⟩ : Ref) = r := by rw [hcomplete.serial]
  rw [hr] at hspec hlog ⊢
  have hc : c = acceptedBytes log' r := by
    rw [hcomplete.content, acceptedBytes, acceptedBytes, hchunks]
  have hname : g.originalName = (w.states r).originalName := congrArg Prod.fst hcomplete.metadata
  cases hspec with
  | saved name' bytes hout hready hfree hfiles _ =>
    cases hout.symm.trans houtcome
    cases hready.symm.trans hcomplete.temp
    have hev := hlog rfl
    rw [hcomplete.temp, hfree, Option.getD_some] at hev
    unfold Sound
    simp only [← hc]
    refine ⟨hev, ?_, hhash⟩
    rw [findEntry, Writer.setDisk, hfiles]
    exact AList.lookup_insert _
  | duplicate name' hout hholds hfiles _ =>
    cases hout.symm.trans houtcome
    unfold Sound
    simp only [← hc]
    refine ⟨?_, hhash⟩
    rw [Writer.setDisk, hfiles]
    exact hholds hne
  | nameConflict hout hpolicy htaken hfiles _ =>
    cases hout.symm.trans houtcome
    unfold Sound
    simp only
    refine ⟨hpolicy, ⟨clock, ?_⟩, ?_⟩
    · rw [hname]
      rfl
    · rw [Writer.setDisk, hfiles]
      exact htaken
  | failed hout =>
    rw [houtcome] at hout
    rcases hout with hout | ⟨what, hout⟩ <;> cases hout

section Move

variable {tid : Nat} {env : StepEnv} {out : Writer × Pc × List Event} {p : Phase}
  (hd : p.Describes X s.writer) (hc : ∀ i, Compat X p s.writer i (s.threads i))
  (hserial : Fresh s) (hcontent : Content cfg X s)
  (hmove : stepThread cfg s.clock tid s.writer (s.threads tid) env = some out)
include hd hc hserial hcontent hmove

theorem Pledged.self (h : Pledged cfg X s.writer s.log (s.threads tid)) :
    Pledged cfg X out.1 (s.log ++ out.2.2 ++ evictions s.writer out.1) out.2.1 := by
  have hp := stepThread_progress hd (hc tid) hmove
  have hi := hc tid
  have hrefs := hserial.refs tid
  have hbusy := hcontent.busy tid
  have hstep := stepThread_content X hmove
  clear hmove
  generalize hth : s.threads tid = pc at hstep hi hrefs hbusy h
  cases hstep with
  | quiet _ hafter => exact .of_untracked hafter
  | created => exact .of_untracked (Pc.tracked_of_refs_nil (refs_afterInit ..))
  | committed => exact .of_untracked (Pc.tracked_of_refs_nil (refs_afterWrite ..))
  | published caller r g fullHash name disposition q clock hX hspec houtcome =>
    intro _
    obtain ⟨id, n⟩ := r
    subst hX
    have hnone := hd.lookup_none (by rw [hi.finalizer _ rfl rfl]; rfl)
    refine sound_published hbusy rfl hspec houtcome (hp.chunks n (by simp [hnone])) fun hsaved => ?_
    rw [if_pos hsaved]
    exact List.mem_append_left _ (List.mem_append_right _ (List.mem_singleton.mpr rfl))
  | completed caller r result hX =>
    intro _
    simp [Writer.markCompleted, Writer.updateState, FinalizationState.result]
  | aborted => exact .of_untracked (tracked_nextAbort ..)
  | released cont r hX hcharged =>
    intro _
    obtain ⟨id, n⟩ := r
    subst hX
    exact hp.failed n (hrefs _ (List.mem_cons_self ..)) (hi.doomed _ (List.mem_cons_self ..) rfl).1
  | _ => trivial

end Move

/-- A report that is returned now. -/
theorem reported_now {p : Phase} {tid : Nat} {env : StepEnv} {out : Writer × Pc × List Event}
    (h : Outcome cfg X s) (hd : p.Describes X s.writer)
    (hc : ∀ i, Compat X p s.writer i (s.threads i)) (hserial : Fresh s)
    (hmove : stepThread cfg s.clock tid s.writer (s.threads tid) env = some out)
    {session : Option Ref} {result : FileFinalizeResult} {flag : Bool}
    (he : .finalized X session result flag ∈ out.2.2) : Reported X out.1 session result := by
  have hp := stepThread_progress hd (hc tid) hmove
  have hrefs := hserial.refs tid
  have hpledged := h.pledged tid
  have hi := hc tid
  -- a failed session, which stays failed
  have hfail : ∀ {r : Ref}, r ∈ (s.threads tid).refs → r.fileId = X →
      (s.writer.states r).failed = true → Reported X out.1 (some r) {} := by
    rintro ⟨id, n⟩ hr rfl hf q hq
    cases hq
    exact ⟨rfl, (hrefs _ hr).trans_le hp.serial, hp.failed n (hrefs _ hr) hf⟩
  -- a completed session, which keeps its result
  have hdone : ∀ {r : Ref}, r.fileId = X → (s.writer.states r).completed = true →
      Reported X out.1 (some r) (s.writer.states r).result := by
    rintro ⟨id, n⟩ rfl hcomp
    have hsound := h.completed n hcomp
    have hn := hserial.completed _ hcomp
    obtain ⟨hcomp', hres'⟩ := hp.completed n hn hcomp
    have hgood : ∃ m, some (⟨id, n⟩ : Ref) = some ⟨id, m⟩ ∧ m < out.1.nextSerial ∧
        (out.1.states ⟨id, m⟩).completed = true ∧
        (out.1.states ⟨id, m⟩).result = (s.writer.states ⟨id, n⟩).result :=
      ⟨n, rfl, hn.trans_le hp.serial, hcomp', hres'⟩
    unfold Sound at hsound
    unfold Reported
    split at hsound <;> rename_i hdisp <;> rw [hdisp]
    · exact hgood
    · exact hgood
    · exact hgood
    · trivial
    · exact hsound.elim
  cases stepThread_finalized hmove he with
  | unknown => rintro r ⟨⟩
  | waitFailed caller r hpc hfile hf =>
    exact hfail (by rw [hpc]; exact List.mem_singleton.mpr rfl) hfile.symm hf
  | waitCompleted caller r hpc hfile hcomp => exact hdone hfile.symm hcomp
  | waitTimeout => trivial
  | rejected r hpc hfile =>
    rcases h.doomed tid r hpc hfile.symm with hf | ⟨caller, g, hpc', hg, hser, -⟩
    · exact hfail (Pc.rejecting_mem_refs hpc) hfile.symm hf
    · rintro q hq
      cases hq
      have hmem : r ∈ s.writer.abortedRefs cfg (.byId X) := by
        refine mem_abortedRefs.mpr ⟨g, ?_, ?_, hser⟩
        · rw [← hfile]
          exact hg
        · simp [Writer.aborts, AbortMatch.holds, hfile]
      refine ⟨hfile.symm, (hrefs _ (Pc.rejecting_mem_refs hpc)).trans_le hp.serial, ?_⟩
      rw [hpc'] at hmove
      cases hmove
      simp [Writer.collectAborted, hmem]
  | failed caller r hpc hfile =>
    rcases hpc with hpc | hpc <;> rw [hpc] at hi hpledged
    · exact hfail (by rw [hpc]; exact List.mem_cons_self ..) hfile.symm
        (hi.doomed r (List.mem_cons_self ..) hfile.symm).1
    · exact hfail (by rw [hpc]; exact List.mem_cons_self ..) hfile.symm (hpledged hfile.symm)
  | done caller r result hpc hfile =>
    rw [hpc] at hpledged
    obtain ⟨hcomp, rfl⟩ := hpledged hfile.symm
    exact hdone hfile.symm hcomp

/-- **The outcome invariant**, a step of one thread. -/
theorem Outcome.stepThread {tid : Nat} {env : StepEnv} {out : Writer × Pc × List Event}
    (h : Outcome cfg X s) (hlife : Lifecycle X s) (hserial : Fresh s) (hcontent : Content cfg X s)
    (hquiet : Undisturbed X s (.run tid env))
    (hmove : stepThread cfg s.clock tid s.writer (s.threads tid) env = some out) :
    Outcome cfg X
      { s with
        writer := out.1
        threads := Function.update s.threads tid out.2.1
        log := s.log ++ out.2.2 ++ evictions s.writer out.1 } := by
  obtain ⟨p, hd, hc⟩ := hlife
  have hp := stepThread_progress hd (hc tid) hmove
  have hmem : ∀ {e}, e ∈ s.log ++ out.2.2 ++ evictions s.writer out.1 →
      e ∈ s.log ∨ e ∈ out.2.2 ∨ ∃ id, e = .evicted id := by
    intro e he
    rcases List.mem_append.mp he with he | he
    · exact (List.mem_append.mp he).imp_right .inl
    · obtain ⟨id, -, rfl⟩ := List.mem_map.mp he
      exact .inr (.inr ⟨id, rfl⟩)
  refine ⟨?_, ?_, ?_, ?_, ?_, ?_⟩
  · show ∀ n, (out.1.states ⟨X, n⟩).completed = true → _
    intro n hcomp
    -- a completed session has no active handle, now or before
    have hkeep : ∀ result, Sound cfg s.writer s.log ⟨X, n⟩ result → n < s.writer.nextSerial →
        ¬(p = .active n) → Sound cfg out.1 (s.log ++ out.2.2 ++ evictions s.writer out.1) ⟨X, n⟩
          result := by
      intro result hsound hn hnot
      refine hsound.next hp hn fun g hg hser => hnot ?_
      rw [← hser]
      exact hd.active_of_lookup hg
    by_cases hold : (s.writer.states ⟨X, n⟩).completed = true
    · have hn := hserial.completed _ hold
      rw [show (out.1.states ⟨X, n⟩).result = _ from (hp.completed n hn hold).2]
      refine hkeep _ (h.completed n hold) hn fun hactive => ?_
      rw [(hd.open_ n (.inl hactive)).2] at hold
      cases hold
    · have heff := stepThread_states hmove ⟨X, n⟩
      have hpledged := h.pledged tid
      have hi := hc tid
      generalize out.1.states ⟨X, n⟩ = st at heff hcomp
      cases heff with
      | completed caller result hpc =>
        rw [hpc] at hpledged hi
        refine hkeep result (hpledged rfl) (hserial.refs tid ⟨X, n⟩ ?_) fun hactive => ?_
        · rw [hpc]
          exact List.mem_singleton.mpr rfl
        · have hfin := hi.finalizer ⟨X, n⟩ rfl rfl
          rw [hactive] at hfin
          cases hfin
      | created => cases hcomp
      | _ => exact absurd hcomp hold
  · refine forall_update (P := fun _ pc => Pledged cfg X out.1
      (s.log ++ out.2.2 ++ evictions s.writer out.1) pc) ?_ fun j _ => ?_
    · exact Pledged.self hd hc hserial hcontent hmove (h.pledged tid)
    · exact (h.pledged j).next hp hd (hc j) (hserial.refs j)
  · exact forall_update (P := fun _ pc => Doomed X out.1 pc)
      (Doomed.self hd hc hserial hmove (h.doomed tid))
      fun j _ => Doomed.others hd hc hserial hmove hquiet (h.doomed j)
  · rintro ⟨id, n⟩ name bytes replaced he rfl
    rcases hmem he with he | he | ⟨_, he⟩
    · obtain ⟨hn, hcases⟩ := h.published _ _ _ _ he rfl
      refine ⟨hn.trans_le hp.serial, ?_⟩
      rcases hcases with hcomp | ⟨i, caller, result, hpc⟩
      · exact .inl (hp.completed n hn hcomp).1
      · by_cases hi : i = tid
        · subst hi
          rw [hpc] at hmove
          cases hmove
          left
          simp [Writer.markCompleted, Writer.updateState]
        · exact .inr ⟨i, caller, result, (Function.update_of_ne hi ..).trans hpc⟩
    · obtain ⟨caller, g, fullHash, result, c, hpc, hpc', -⟩ :=
        stepThread_published hcontent hmove rfl he
      have hn := hserial.refs tid ⟨id, n⟩ (by rw [hpc]; exact List.mem_singleton.mpr rfl)
      exact ⟨hn.trans_le hp.serial,
        .inr ⟨tid, caller, result, (Function.update_self ..).trans hpc'⟩⟩
    · cases he
  · intro session result flag he
    rcases hmem he with he | he | ⟨_, he⟩
    · exact (h.reported session result flag he).next hp
    · exact reported_now h hd hc hserial hmove he
    · cases he
  · rintro ⟨id, n⟩ what he rfl
    rcases hmem he with he | he | ⟨_, he⟩
    · obtain ⟨hn, hf⟩ := h.threw _ _ he rfl
      exact ⟨hn.trans_le hp.serial, hp.failed n hn hf⟩
    · obtain ⟨caller, hpc⟩ := stepThread_threw hmove he
      have hi := hc tid
      have hpledged := h.pledged tid
      have hrefs := hserial.refs tid
      rcases hpc with hpc | hpc <;> rw [hpc] at hi hpledged hrefs
      · have hn := hrefs ⟨id, n⟩ (List.mem_cons_self ..)
        exact ⟨hn.trans_le hp.serial,
          hp.failed n hn (hi.doomed ⟨id, n⟩ (List.mem_cons_self ..) rfl).1⟩
      · have hn := hrefs ⟨id, n⟩ (List.mem_cons_self ..)
        exact ⟨hn.trans_le hp.serial, hp.failed n hn (hpledged rfl)⟩
    · cases he

theorem Outcome.init (cfg : WriterConfig) (X : ByteString) (files : Table ByteString DirEntry) :
    Outcome cfg X (.init files) where
  completed := by rintro n ⟨⟩
  pledged := fun _ => trivial
  doomed := by rintro i r ⟨⟩
  published := by rintro r name bytes replaced ⟨⟩
  reported := by rintro session result flag ⟨⟩
  threw := by rintro r what ⟨⟩

/-- A call starts. -/
theorem Outcome.call (h : Outcome cfg X s) (tid : Nat) (c : Call) (hidle : s.threads tid = .idle) :
    Outcome cfg X
      { s with
        threads := Function.update s.threads tid (c.start s.clock).1
        log := s.log ++ (c.start s.clock).2 } := by
  have hmem : ∀ {e}, e ∈ s.log ++ (c.start s.clock).2 →
      e ∈ s.log ∨ (∃ response, e = .rejected response) ∨ ∃ value, e = .returned value :=
    fun he => (List.mem_append.mp he).imp_right start_events
  have hsound : ∀ {r result}, r.fileId = X → Sound cfg s.writer s.log r result →
      Sound cfg s.writer (s.log ++ (c.start s.clock).2) r result := by
    rintro ⟨id, n⟩ result rfl hs
    have hbytes : acceptedBytes (s.log ++ (c.start s.clock).2) ⟨id, n⟩ =
        acceptedBytes s.log ⟨id, n⟩ := by
      rw [acceptedBytes, acceptedBytes, acceptedChunks_silent (silent_start _ _)]
    unfold Sound at hs ⊢
    rw [hbytes]
    split at hs
    · exact ⟨List.mem_append_left _ hs.1, hs.2⟩
    · exact hs
    · exact hs
    · exact hs
    · exact hs
  refine ⟨fun n hn => hsound rfl (h.completed n hn), ?_, ?_, ?_, ?_, ?_⟩
  · refine forall_update (P := fun _ pc => Pledged cfg X s.writer
      (s.log ++ (c.start s.clock).2) pc) (.of_untracked (Pc.tracked_of_refs_nil (refs_start ..)))
      fun j _ => ?_
    have hj := h.pledged j
    generalize s.threads j = pc at hj
    cases pc with
    | finalizeComplete caller r result => exact fun hX => hsound hX (hj hX)
    | finalizeRemember caller r result => exact hj
    | remember cont r => exact hj
    | _ => trivial
  · refine forall_update (P := fun _ pc => Doomed X s.writer pc) ?_ fun j _ => h.doomed j
    intro r hr
    cases (Pc.rejecting_of_refs_nil (refs_start ..)).symm.trans hr
  · intro r name bytes replaced he hX
    rcases hmem he with he | ⟨_, he⟩ | ⟨_, he⟩
    · refine (h.published r name bytes replaced he hX).imp_right (.imp_right ?_)
      rintro ⟨i, caller, result, hpc⟩
      refine ⟨i, caller, result, (Function.update_of_ne ?_ ..).trans hpc⟩
      rintro rfl
      rw [hidle] at hpc
      cases hpc
    · cases he
    · cases he
  · intro session result flag he
    rcases hmem he with he | ⟨_, he⟩ | ⟨_, he⟩
    · exact h.reported session result flag he
    · cases he
    · cases he
  · intro r what he hX
    rcases hmem he with he | ⟨_, he⟩ | ⟨_, he⟩
    · exact h.threw r what he hX
    · cases he
    · cases he

theorem outcome_of_run {ok : System → Label → Prop} {files : Table ByteString DirEntry}
    (hok : ∀ s l, ok s l → FreshInit X s l ∧ Undisturbed X s l)
    (hrun : Run (step cfg) ok (.init files) s) : Outcome cfg X s := by
  have hfresh : ∀ s l, ok s l → FreshInit X s l := fun s l h => (hok s l h).1
  induction hrun with
  | refl => exact .init cfg X files
  | tail hr hl hst ih =>
    cases step_spec hst with
    | call tid c hidle => exact ih.call tid c hidle
    | run tid env out hmove =>
      exact ih.stepThread (lifecycle_of_run hfresh hr) (fresh_of_run hr)
        (content_of_run hfresh hr) (hok _ _ hl).2 hmove
    | tick =>
      exact ⟨ih.completed, ih.pledged, ih.doomed, ih.published, ih.reported, ih.threw⟩

/-! ## The result -/

/-- A file of the destination stays as it is, in every run. -/
theorem files_of_run {ok : System → Label → Prop} (hrun : Run (step cfg) ok s s') {key : ByteString}
    {entry : DirEntry} (he : s.writer.files.lookup key = some entry) :
    s'.writer.files.lookup key = some entry := by
  refine hrun.invariant (I := fun t => t.writer.files.lookup key = some entry) he ?_
  intro t l u ht _ hst
  cases step_spec hst with
  | call => exact ht
  | run tid env out hmove => exact files_persist hmove ht
  | tick => exact ht

/-- A failed session was never published, and its temporary file is gone or charged to it. -/
theorem Outcome.failed (h : Outcome cfg X s) (hlife : Lifecycle X s) {n : Nat}
    (hf : (s.writer.states ⟨X, n⟩).failed = true) :
    (∀ name bytes replaced, .published ⟨X, n⟩ name bytes replaced ∉ s.log) ∧
      (s.writer.temps ⟨X, n⟩ = none ∨
        (s.writer.states ⟨X, n⟩).reserved = true ∧ (s.writer.states ⟨X, n⟩).failed = true) := by
  obtain ⟨p, hd, hc⟩ := hlife
  refine ⟨fun name bytes replaced he => ?_, ?_⟩
  · rcases (h.published _ _ _ _ he rfl).2 with hcomp | ⟨i, caller, result, hpc⟩
    · exact hd.exclusive n ⟨hcomp, hf⟩
    · have hi := hc i
      rw [hpc] at hi
      rw [(hd.open_ n (.inr ⟨i, hi.finalizer _ rfl rfl⟩)).1] at hf
      cases hf
  · cases ht : s.writer.temps ⟨X, n⟩ with
    | none => exact .inl rfl
    | some bytes => exact .inr ⟨(hd.reserved n).mpr (hd.temp n (by rw [ht]; rfl)), hf⟩

/-- **No overwrite, no loss and sound deduplication**, for every interleaving, every content of the
destination, both policies and every pattern of faults: no file of the destination is ever changed
or removed; a call that returns `Duplicate` names a file with the hash of the session's bytes; a
call that returns `Saved` speaks of a file under a name that was free and that holds exactly the
session's bytes, with their hash; `NameConflict` is only returned under the `Reject` policy with
the sanitized name taken; and after `Error` or an exception nothing was published and the temporary
file is deleted or still charged to the failed session.  Each holds from the return on. -/
theorem finalization_sound {files : Table ByteString DirEntry} (X : ByteString)
    (hrun : Run (step cfg) (fun s l => FreshInit X s l ∧ Undisturbed X s l) (.init files) s) :
    (∀ s', Run (step cfg) (fun _ _ => True) s s' → ∀ key entry,
      s.writer.files.lookup key = some entry → s'.writer.files.lookup key = some entry) ∧
    (∀ session result flag, .finalized X session result flag ∈ s.log →
      (result.disposition = .duplicate → ∃ r, session = some r ∧
        HoldsHash cfg s.writer.files result.filename result.sha256 ∧
        result.sha256 = cfg.sha256 (acceptedBytes s.log r)) ∧
      (result.disposition = .saved → ∃ r, session = some r ∧
        .published r result.filename (acceptedBytes s.log r) none ∈ s.log ∧
        findEntry cfg s.writer.files result.filename =
          some ⟨result.filename, some (acceptedBytes s.log r)⟩ ∧
        result.sha256 = cfg.sha256 (acceptedBytes s.log r)) ∧
      (result.disposition = .nameConflict → cfg.filenameConflictPolicy = .reject ∧
        ∃ r clock, session = some r ∧ result.filename =
          makeFinalFilename ⟨cfg.ansiToWide, clock⟩ (s.writer.states r).originalName ∧
        (findEntry cfg s.writer.files result.filename).isSome) ∧
      (result.disposition = .error → ∀ r, session = some r →
        (∀ name bytes replaced, .published r name bytes replaced ∉ s.log) ∧
        (s.writer.temps r = none ∨
          (s.writer.states r).reserved = true ∧ (s.writer.states r).failed = true))) ∧
    ∀ r what, .threw r what ∈ s.log → r.fileId = X →
      (∀ name bytes replaced, .published r name bytes replaced ∉ s.log) ∧
      (s.writer.temps r = none ∨
        (s.writer.states r).reserved = true ∧ (s.writer.states r).failed = true) := by
  have h := outcome_of_run (fun _ _ h => h) hrun
  have hlife := lifecycle_of_run (X := X) (fun _ _ h => h.1) hrun
  refine ⟨fun s' hrun' key entry he => files_of_run hrun' he, ?_, ?_⟩
  · intro session result flag he
    have hrep := h.reported session result flag he
    -- a finished finalization is reported soundly
    have hdone : ∀ d, result.disposition = d → (d = .saved ∨ d = .duplicate ∨ d = .nameConflict) →
        ∃ r, session = some r ∧ Sound cfg s.writer s.log r result := by
      intro d hd hcases
      unfold Reported at hrep
      rcases hcases with rfl | rfl | rfl <;> rw [hd] at hrep <;>
      · obtain ⟨n, hs, -, hcomp, hres⟩ := hrep
        have hsound := h.completed n hcomp
        rw [hres] at hsound
        exact ⟨_, hs, hsound⟩
    refine ⟨fun hdisp => ?_, fun hdisp => ?_, fun hdisp => ?_, fun hdisp r hs => ?_⟩
    · obtain ⟨r, hs, hsound⟩ := hdone _ hdisp (.inr (.inl rfl))
      unfold Sound at hsound
      rw [hdisp] at hsound
      exact ⟨r, hs, hsound⟩
    · obtain ⟨r, hs, hsound⟩ := hdone _ hdisp (.inl rfl)
      unfold Sound at hsound
      rw [hdisp] at hsound
      exact ⟨r, hs, hsound⟩
    · obtain ⟨r, hs, hsound⟩ := hdone _ hdisp (.inr (.inr rfl))
      unfold Sound at hsound
      rw [hdisp] at hsound
      obtain ⟨hpolicy, ⟨clock, hname⟩, htaken⟩ := hsound
      exact ⟨hpolicy, r, clock, hs, hname, htaken⟩
    · unfold Reported at hrep
      rw [hdisp] at hrep
      obtain ⟨id, n⟩ := r
      obtain ⟨rfl, -, hf⟩ := hrep _ hs
      exact h.failed hlife hf
  · rintro ⟨id, n⟩ what he rfl
    exact h.failed hlife (h.threw _ _ he rfl).2

/-- Whether no thread among the first `k` is about to abort an incomplete session when a chunk is
counted. -/
def Label.undisturbed (k : Nat) (s : System) : Label → Bool
  | .run i _ =>
      match s.threads i with
      | .writeCommit .. => (List.range k).all fun j =>
          match s.threads j with
          | .abortCollect _ _ (.incomplete _) => false
          | _ => true
      | _ => true
  | _ => true

theorem undisturbed_of_idle {k : Nat} (hidle : ∀ j, k ≤ j → s.threads j = .idle)
    (h : l.undisturbed k s = true) : Undisturbed X s l := by
  rintro i env call r target offset hashUpdated rfl hpc - j caller m q hj hX
  by_cases hk : k ≤ j
  · rw [hidle j hk] at hj
    cases hj
  · simp only [Label.undisturbed, hpc, List.all_eq_true, List.mem_range] at h
    have hjk := h j (Nat.lt_of_not_le hk)
    rw [hj] at hjk
    cases hjk

/-- The same content is uploaded twice under one name. -/
def sampleDuplicate : List Label :=
  sampleCall 0 (.uploadChunk (sampleRequest "1" "0" "1" "2" "ab")) 13 ++
    sampleCall 1 (.uploadChunk (sampleRequest "2" "0" "1" "2" "ab")) 13

/-- The duplicate reported for the second of them. -/
def Event.sampleResult : Event → Option FileFinalizeResult
  | .finalized id _ result _ =>
      if id = ascii "o-2" ∧ result.disposition = .duplicate then some result else none
  | _ => none

theorem finalization_sound_sampleDuplicate :
    ∃ s session result flag, Run (step (sampleConfig .keepBoth))
        (fun s l => FreshInit (ascii "o-2") s l ∧ Undisturbed (ascii "o-2") s l) (.init ∅) s ∧
      .finalized (ascii "o-2") session result flag ∈ s.log ∧ result.disposition = .duplicate ∧
      HoldsHash (sampleConfig .keepBoth) s.writer.files result.filename result.sha256 := by
  obtain ⟨s, hrun, htest⟩ := Run.exists_of_exec (step (sampleConfig .keepBoth))
    (fun s l => evictionFree s.log && l.within 2 && l.undisturbed 2 s)
    (fun s => (s.log.findSome? Event.sampleResult).isSome) (.init ∅) sampleDuplicate
    (fun _ _ h => h) (by decide +kernel)
  simp only [Bool.and_eq_true] at hrun
  have hrun' : Run (step (sampleConfig .keepBoth))
      (fun s l => FreshInit (ascii "o-2") s l ∧ Undisturbed (ascii "o-2") s l) (.init ∅) s := by
    refine run_freshInit (fun _ _ h => h.1.1) (fun t l hr h hfresh => ⟨hfresh _, ?_⟩) hrun
    exact undisturbed_of_idle (idle_of_run (fun _ _ h => h.1.2) hr) h.2
  obtain ⟨result, hresult⟩ := Option.isSome_iff_exists.mp htest
  obtain ⟨e, he, hmatch⟩ := List.exists_of_findSome?_eq_some hresult
  unfold Event.sampleResult at hmatch
  split at hmatch
  · rename_i id session res flag
    split at hmatch
    · rename_i h
      obtain ⟨rfl, hdup⟩ := h
      cases hmatch
      obtain ⟨r, -, hholds, -⟩ :=
        ((finalization_sound (ascii "o-2") hrun').2.1 session result flag he).1 hdup
      exact ⟨s, session, result, flag, hrun', he, hdup, hholds⟩
    · cases hmatch
  · cases hmatch

end LocalMediaTransfer
