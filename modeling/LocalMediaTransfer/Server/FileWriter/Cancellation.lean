import LocalMediaTransfer.Server.FileWriter.Calls
import LocalMediaTransfer.Server.FileWriter.ContentStep
import LocalMediaTransfer.Server.UploadSession

/-!
# Cancelling one upload session

`/upload_session/cancel` aborts the files whose storage ID begins with an owner prefix, a session ID
and a dash.  Other requests run in between, before and after its sections.

* `Kept` — handle with its byte counters, reservations, temporary files and hash context of one ID
  are the same; its session record is, too, or was dropped from the completed-session cache.
* `stepThread_cancelling` — what one section of such an abort does.
* `cancellation_isolation` — **it removes the handles of that session of that credential and
  nothing else**, in every interleaving.
* `Kept.reservation` — while sessions are only created afresh, what is charged for other sessions
  does not change with the records either.
-/

set_option autoImplicit false

namespace LocalMediaTransfer

open Lib

variable {cfg : WriterConfig} {s s₁ t u : System} {w w' : Writer} {pc : Pc} {p : ByteString}

/-- Everything about file ID `id` is the same, up to its place in the completed-session cache. -/
structure Kept (id : ByteString) (w w' : Writer) : Prop where
  handle : w'.handles.lookup id = w.handles.lookup id
  state : ∀ n, w'.states ⟨id, n⟩ = w.states ⟨id, n⟩
  temp : ∀ n, w'.temps ⟨id, n⟩ = w.temps ⟨id, n⟩
  hash : w'.hashContexts id = w.hashContexts id
  session : w'.sessions.lookup id = w.sessions.lookup id ∨
    w'.sessions.lookup id = none ∧ id ∈ w.completedSessionOrder ∧ w.handles.lookup id = none

/-- Inside a call of `abortFilesWithPrefix p`: its sessions all begin with `p`. -/
def Pc.cancelling (p : ByteString) : Pc → Prop
  | .abortCollect .direct m .count => m = .byPrefix p
  | .abortLock .direct r rest _ .count | .abortClose .direct r rest _ .count =>
      ∀ q ∈ r :: rest, p <+: q.fileId
  | .retire (.abortNext .direct _ rest _ .count) r | .remember
    (.abortNext .direct _ rest _ .count) r =>
      ∀ q ∈ r :: rest, p <+: q.fileId
  | _ => False

theorem Kept.of_eq {id : ByteString} (hh : w'.handles = w.handles) (hst : w'.states = w.states)
    (ht : w'.temps = w.temps) (hc : w'.hashContexts = w.hashContexts)
    (hs : w'.sessions = w.sessions) : Kept id w w' :=
  ⟨by rw [hh], by simp [hst], by simp [ht], by rw [hc], .inl (by rw [hs])⟩

theorem ne_of_isPrefix {id : ByteString} {r : Ref} (hr : p <+: r.fileId) (hid : ¬p <+: id) :
    r.fileId ≠ id := by
  rintro rfl
  exact hid hr

theorem kept_collectAborted {id : ByteString} (hid : ¬p <+: id) :
    Kept id w (w.collectAborted cfg (.byPrefix p)) where
  handle := by
    rw [show (w.collectAborted cfg (.byPrefix p)).handles.lookup id =
      (w.handles.lookup id).filter fun h => !w.aborts cfg (.byPrefix p) id h from
        Table.lookup_filter ..]
    cases hl : w.handles.lookup id with
    | none => rfl
    | some g =>
      have hno : w.aborts cfg (.byPrefix p) id g = false :=
        Bool.eq_false_iff.mpr fun h => hid (List.isPrefixOf_iff_prefix.mp h)
      simp [hno]
  state := by
    intro n
    refine if_neg fun hn => ?_
    obtain ⟨g, -, hmatch, -⟩ := mem_abortedRefs.mp hn
    exact hid (List.isPrefixOf_iff_prefix.mp hmatch)
  temp := fun _ => rfl
  hash := rfl
  session := .inl rfl

theorem kept_abortClose {id : ByteString} {r : Ref} (hr : r.fileId ≠ id) :
    Kept id w ((w.abortHash r.fileId).markFailed r) where
  handle := rfl
  state := fun n => Function.update_of_ne (ref_ne hr n) ..
  temp := fun _ => rfl
  hash := Function.update_of_ne (Ne.symm hr) ..
  session := .inl rfl

theorem kept_release {id : ByteString} {r : Ref} (hr : r.fileId ≠ id) : Kept id w
    (w.release r) where
  handle := rfl
  state := fun n => Function.update_of_ne (ref_ne hr n) ..
  temp := fun n => Function.update_of_ne (ref_ne hr n) ..
  hash := rfl
  session := .inl rfl

theorem kept_remember {id fileId : ByteString} (hne : fileId ≠ id) :
    Kept id w (w.rememberCompletedSessionLocked fileId) where
  handle := rfl
  state := fun _ => rfl
  temp := fun _ => rfl
  hash := rfl
  session := by
    obtain ⟨dropped, ho, hs⟩ := rememberCompletedSessionLocked_spec w fileId
    rw [hs id]
    split
    · rename_i hdropped
      refine .inr ⟨rfl, ?_, hdropped.2⟩
      have hmem : id ∈ w.completedSessionOrder ++ [fileId] := by
        rw [ho]
        exact List.mem_append_left _ hdropped.1
      rcases List.mem_append.mp hmem with h | h
      · exact h
      · exact absurd (List.mem_singleton.mp h).symm hne
    · exact .inl rfl

theorem cancelling_nextAbort {refs : List Ref} {count : Nat} (h : ∀ q ∈ refs, p <+: q.fileId) :
    (nextAbort .direct refs count .count).1 = .idle ∨
      (nextAbort .direct refs count .count).1.cancelling p := by
  cases refs with
  | nil => exact .inl rfl
  | cons r rest => exact .inr h

/-- What one section of the abort does. -/
structure CancelStep (p : ByteString) (pc : Pc) (w : Writer) (out : Writer × Pc × List Event) : Prop
    where
  stays : out.2.1 = .idle ∨ out.2.1.cancelling p
  kept : ∀ id, ¬p <+: id → Kept id w out.1
  files : out.1.files = w.files
  removed : (∃ caller m after, pc = .abortCollect caller m after) →
    ∀ id, p <+: id → out.1.handles.lookup id = none

theorem stepThread_cancelling {now i : Nat} {env : StepEnv} {out : Writer × Pc × List Event}
    (h : pc.cancelling p) (hst : stepThread cfg now i w pc env = some out) :
    CancelStep p pc w out := by
  unfold Pc.cancelling at h
  split at h
  · rename_i m
    subst h
    cases hst
    refine ⟨cancelling_nextAbort ?_, fun id hid => kept_collectAborted hid, rfl, ?_⟩
    · intro q hq
      obtain ⟨g, -, hmatch, -⟩ := mem_abortedRefs.mp hq
      exact List.isPrefixOf_iff_prefix.mp hmatch
    · intro _ id hid
      rw [show (w.collectAborted cfg (.byPrefix p)).handles.lookup id =
        (w.handles.lookup id).filter fun h => !w.aborts cfg (.byPrefix p) id h from
          Table.lookup_filter ..]
      rw [Option.filter_eq_none_iff]
      intro g _
      simpa [Writer.aborts, AbortMatch.holds] using hid
  · rename_i r rest count
    simp only [stepThread] at hst
    split at hst <;> cases hst
    exact ⟨.inr h, fun id _ => .of_eq rfl rfl rfl rfl rfl, rfl, by rintro ⟨_, _, _, ⟨⟩⟩⟩
  · rename_i r rest count
    cases hst
    refine ⟨.inr h, fun id hid => ?_, rfl, by rintro ⟨_, _, _, ⟨⟩⟩⟩
    exact kept_abortClose (ne_of_isPrefix (h r (List.mem_cons_self ..)) hid)
  · rename_i held rest count r
    have hrest : ∀ q ∈ rest, p <+: q.fileId := fun q hq => h q (List.mem_cons_of_mem _ hq)
    simp only [stepThread] at hst
    split at hst <;> cases hst
    · refine ⟨.inr h, fun id hid => ?_, rfl, by rintro ⟨_, _, _, ⟨⟩⟩⟩
      exact kept_release (ne_of_isPrefix (h r (List.mem_cons_self ..)) hid)
    · exact ⟨cancelling_nextAbort hrest, fun id _ => .of_eq rfl rfl rfl rfl rfl, rfl,
        by rintro ⟨_, _, _, ⟨⟩⟩⟩
  · rename_i held rest count r
    have hrest : ∀ q ∈ rest, p <+: q.fileId := fun q hq => h q (List.mem_cons_of_mem _ hq)
    cases hst
    refine ⟨cancelling_nextAbort hrest, fun id hid => ?_, rfl, by rintro ⟨_, _, _, ⟨⟩⟩⟩
    have hkept := kept_remember (w := w) (ne_of_isPrefix (h r (List.mem_cons_self ..)) hid)
    exact ⟨hkept.handle, hkept.state, hkept.temp, hkept.hash, hkept.session⟩
  · exact h.elim

/-! ## Storage IDs of the credentials in use -/

section Owners

variable {sha : Sha256} {creds : Set ByteString}

/-- A storage ID of a credential in use. -/
def Owned (sha : Sha256) (creds : Set ByteString) (id : ByteString) : Prop :=
  ∃ c ∈ creds, ∃ f, id = sha.ownerPrefix c ++ f

/-- Files are opened on behalf of credentials in use only. -/
def Label.owned (sha : Sha256) (creds : Set ByteString) : Label → Prop
  | .call _ (.uploadChunk http) =>
      ∀ owner, http.authorization = some owner → ∃ c ∈ creds, owner = sha.ownerPrefix c
  | .call _ (.initFile a) => Owned sha creds a.fileId
  | _ => True

theorem storageId_of_admitRequest {http : HttpChunkRequest} {req : ChunkRequest}
    (h : admitRequest http = .ok req) :
    ∃ owner, http.authorization = some owner ∧ req.storageId = owner ++ http.fileId := by
  unfold admitRequest at h
  split at h
  · cases h
  · rename_i owner howner
    refine ⟨owner, howner, ?_⟩
    simp only at h
    repeat' split at h
    all_goals cases h
    rfl

/-- The argument of every `initFile` call in progress is such an ID. -/
def OwnedArgs (sha : Sha256) (creds : Set ByteString) : Args → Prop
  | .init _ a => Owned sha creds a.fileId
  | .write _ _ => True

theorem starts_of_owned {l : Label} (h : l.owned sha creds) : l.Starts (OwnedArgs sha creds) s := by
  cases l with
  | call tid c =>
    intro e he
    rcases start_args he with ⟨http, req, rfl, hreq, ⟨rfl, -⟩ | rfl⟩ | ⟨a, rfl,
      rfl⟩ | ⟨_, _, _, _, rfl⟩
    · obtain ⟨owner, hauth, hid⟩ := storageId_of_admitRequest hreq
      obtain ⟨c, hc, rfl⟩ := h owner hauth
      exact ⟨c, hc, http.fileId, hid⟩
    · trivial
    · exact h
    · trivial
  | run => trivial
  | tick => trivial

/-- Every active handle belongs to a credential in use. -/
theorem owned_of_run {ok : System → Label → Prop} {files : Table ByteString DirEntry}
    (hok : ∀ s l, ok s l → l.owned sha creds) (hrun : Run (step cfg) ok (.init files) s) :
    ∀ id h, s.writer.handles.lookup id = some h → Owned sha creds id := by
  induction hrun with
  | refl => rintro id h ⟨⟩
  | tail hr hl hst ih =>
    have hcarries := carries_of_run (P := OwnedArgs sha creds) (fun _ _ _ => trivial)
      (fun _ _ h => starts_of_owned (hok _ _ h)) hr
    cases step_spec hst with
    | call tid c hidle => exact ih
    | run tid env out hmove =>
      intro id h hl
      rcases (stepThread_content id hmove).handle_cases hl with
        hl | ⟨_, _, _, _, _, g, -, -, hl, -⟩ | ⟨caller, a, _, hpc, rfl, -⟩
      · exact ih id h hl
      · exact ih id g hl
      · exact hcarries tid _ (by rw [hpc]; rfl)
    | tick => exact ih

end Owners

/-! ## The result -/

/-- A label that makes thread `tid` start a call. -/
def Label.startsAt (tid : Nat) : Label → Bool
  | .call k _ => k == tid
  | _ => false

/-- A thread stays inside the abort until it returns. -/
theorem cancelling_of_run {ok : System → Label → Prop} {tid : Nat}
    (hok : ∀ s l, ok s l → l.startsAt tid = false) (hrun : Run (step cfg) ok s t)
    (h : (s.threads tid).cancelling p) :
    t.threads tid = .idle ∨ (t.threads tid).cancelling p := by
  refine hrun.invariant (I := fun t => t.threads tid = .idle ∨ (t.threads tid).cancelling p)
    (.inr h) fun t l u ih hl hst => ?_
  cases step_spec hst with
  | call k c hidle =>
    have hne : tid ≠ k := by
      rintro rfl
      have hstart := hok _ _ hl
      simp [Label.startsAt] at hstart
    simpa only [Function.update_of_ne hne] using ih
  | run k env out hmove =>
    by_cases hk : tid = k
    · subst hk
      simp only [Function.update_self]
      rcases ih with ih | ih
      · rw [ih] at hmove
        cases hmove
      · exact (stepThread_cancelling ih hmove).stays
    · simpa only [Function.update_of_ne hk] using ih
  | tick => exact ih

/-- What one section of the cancellation of session `sessionId` of credential `c` does. -/
structure Isolated (sha : Sha256) (creds : Set ByteString) (c sessionId : ByteString) (pc : Pc)
    (w w' : Writer) : Prop where
  /-- Every active handle was opened with a credential in use. -/
  owned : ∀ id h, w.handles.lookup id = some h → Owned sha creds id
  /-- The first section removes the handles of the session. -/
  removed : pc = .abortCollect .direct (.byPrefix (sha.cancelPrefix c sessionId)) .count →
    ∀ f, sessionId ++ ascii "-" <+: f → w'.handles.lookup (sha.ownerPrefix c ++ f) = none
  /-- Nothing of another credential changes, and nothing of this one outside the session. -/
  kept : ∀ c' ∈ creds, ∀ f, ¬(c' = c ∧ sessionId ++ ascii "-" <+: f) →
    Kept (sha.ownerPrefix c' ++ f) w w'
  /-- Files of another session are outside. -/
  apart : ∀ other f, isUploadSession other = true → other ≠ sessionId →
    other ++ ascii "-" <+: f → ¬sessionId ++ ascii "-" <+: f
  files : w'.files = w.files

/-- **Cancellation isolation.** -/
theorem cancellation_isolation {sha : Sha256} {creds : Set ByteString}
    (hinj : Set.InjOn sha.digest creds) {files : Table ByteString DirEntry}
    {tid : Nat} {env : StepEnv}
    {c sessionId : ByteString} (hc : c ∈ creds) (hsession : isUploadSession sessionId = true)
    (hrun : Run (step cfg) (fun _ l => l.owned sha creds) (.init files) s)
    (hcall : step cfg s (.call tid (.abortFilesWithPrefix (sha.cancelPrefix c sessionId))) =
      some s₁)
    (hcont : Run (step cfg) (fun _ l => l.owned sha creds ∧ l.startsAt tid = false) s₁ t)
    (hstep : step cfg t (.run tid env) = some u) :
    s₁.threads tid = .abortCollect .direct (.byPrefix (sha.cancelPrefix c sessionId)) .count ∧
      Isolated sha creds c sessionId (t.threads tid) t.writer u.writer := by
  have hsafe := isSafeFileId_cancelPrefix sha c hsession
  have hnonempty : (sha.cancelPrefix c sessionId).isEmpty = false := by
    simp only [isSafeFileId, Bool.and_eq_true, Bool.not_eq_true'] at hsafe
    exact hsafe.1.1
  have hstart : s₁.threads tid =
      .abortCollect .direct (.byPrefix (sha.cancelPrefix c sessionId)) .count := by
    cases step_spec hcall with
    | call _ _ hidle => simp [Call.start, hsafe, hnonempty]
  refine ⟨hstart, ?_⟩
  have hreach : Run (step cfg) (fun _ l => l.owned sha creds) (.init files) t :=
    (Run.tail hrun (by exact trivial) hcall).trans (hcont.upgrade fun _ _ _ h => h.1)
  cases step_spec hstep with
  | run _ _ out hmove =>
    have hmove' : CancelStep (sha.cancelPrefix c sessionId) (t.threads tid) t.writer out := by
      rcases cancelling_of_run (p := sha.cancelPrefix c sessionId) (fun _ _ h => h.2) hcont
        (by rw [hstart]; rfl) with hidle | hcancel
      · rw [hidle] at hmove
        cases hmove
      · exact stepThread_cancelling hcancel hmove
    refine ⟨owned_of_run (fun _ _ h => h) hreach, ?_, ?_, ?_, hmove'.files⟩
    · intro hpc f hf
      exact hmove'.removed ⟨_, _, _, hpc⟩ _ (cancelPrefix_isPrefix_iff.mpr ⟨rfl, hf⟩)
    · intro c' hc' f hno
      refine hmove'.kept _ fun hpre => hno ?_
      obtain ⟨hdigest, hf⟩ := cancelPrefix_isPrefix_iff.mp hpre
      exact ⟨(hinj hc hc' hdigest).symm, hf⟩
    · intro other f hother hne hf hf'
      exact hne (session_unambiguous hother hsession hf hf')

/-- SHA-256 on two credentials. -/
def sampleSha : Sha256 where
  digest value :=
    if value = ascii "a" then
      [202, 151, 129, 18, 202, 27, 189, 202, 250, 194, 49, 179, 154, 35, 220, 77, 167, 134, 239,
      248, 20, 124, 78, 114, 185, 128, 119, 133, 175, 238, 72, 187]
    else if value = ascii "b" then
      [62, 35, 232, 22, 0, 57, 89, 74, 51, 137, 79, 101, 100, 225, 177, 52, 139, 189, 122, 0,
      136, 212, 44, 74, 203, 115, 238, 174, 213, 156, 0, 157]
    else List.replicate 32 0
  digest_length value := by
    split
    · rfl
    · split <;> rfl

theorem sampleSha_injOn : Set.InjOn sampleSha.digest {ascii "a", ascii "b"} := by
  rintro x (rfl | rfl) y (rfl | rfl) h
  · rfl
  · exact absurd h (by decide)
  · exact absurd h (by decide)
  · rfl

/-- Chunk 0 of a file of two chunks, sent with a credential. -/
def sampleOwnedRequest (credential fileId : String) : HttpChunkRequest :=
  { sampleRequest fileId "0" "2" "4" "ab" with
    authorization := some (sampleSha.ownerPrefix (ascii credential)) }

/-- Two sessions of one credential, the ID of one beginning with that of the other, and a session of
another credential. -/
def sampleSessions : List Label :=
  sampleCall 0 (.uploadChunk (sampleOwnedRequest "a" "ios-1234567890-1")) 6 ++
    sampleCall 0 (.uploadChunk (sampleOwnedRequest "a" "ios-12345678901-1")) 6 ++
    sampleCall 0 (.uploadChunk (sampleOwnedRequest "b" "ios-1234567890-1")) 6

/-- A test for labels on behalf of the two credentials. -/
def Label.ownedTest : Label → Bool
  | .call _ (.uploadChunk http) =>
      http.authorization == some (sampleSha.ownerPrefix (ascii "a")) ||
        http.authorization == some (sampleSha.ownerPrefix (ascii "b"))
  | .call _ (.initFile _) => false
  | _ => true

theorem owned_of_ownedTest {l : Label} (h : l.ownedTest = true) :
    l.owned sampleSha {ascii "a", ascii "b"} := by
  cases l with
  | call tid c =>
    cases c with
    | uploadChunk http =>
      intro owner howner
      simp only [Label.ownedTest, howner, Bool.or_eq_true, beq_iff_eq, Option.some.injEq] at h
      rcases h with h | h
      · exact ⟨_, .inl rfl, h⟩
      · exact ⟨_, .inr rfl, h⟩
    | initFile a => cases h
    | _ => trivial
  | run => trivial
  | tick => trivial

theorem cancellation_isolation_sampleSessions :
    ∃ s s₁ u, Run (step (sampleConfig .keepBoth))
        (fun _ l => l.owned sampleSha {ascii "a", ascii "b"}) (.init ∅) s ∧
      step (sampleConfig .keepBoth) s (.call 1 (.abortFilesWithPrefix
        (sampleSha.cancelPrefix (ascii "a") (ascii "ios-1234567890")))) = some s₁ ∧
      step (sampleConfig .keepBoth) s₁ (.run 1 {}) = some u ∧ s₁.writer.handles.keys.length = 3 ∧
      Isolated sampleSha {ascii "a", ascii "b"} (ascii "a") (ascii "ios-1234567890")
        (s₁.threads 1) s₁.writer u.writer := by
  obtain ⟨s, hrun, htest⟩ := Run.exists_of_exec (step (sampleConfig .keepBoth))
    (fun _ l => l.ownedTest)
    (fun s => ((step (sampleConfig .keepBoth) s (.call 1 (.abortFilesWithPrefix
        (sampleSha.cancelPrefix (ascii "a") (ascii "ios-1234567890"))))).any fun s₁ =>
      (step (sampleConfig .keepBoth) s₁ (.run 1 {})).isSome &&
        s₁.writer.handles.keys.length == 3))
    (.init ∅) sampleSessions (fun _ _ h => owned_of_ownedTest h) (by decide)
  obtain ⟨s₁, hcall, htest⟩ := (Option.any_eq_true _ _).mp htest
  simp only [Bool.and_eq_true, beq_iff_eq] at htest
  obtain ⟨u, hstep⟩ := Option.isSome_iff_exists.mp htest.1
  refine ⟨s, s₁, u, hrun, hcall, hstep, htest.2, ?_⟩
  exact (cancellation_isolation sampleSha_injOn (.inl rfl) (by decide) hrun hcall (.refl _) hstep).2

/-! ## What is charged -/

/-- The bytes charged for the session registered under an ID. -/
def Writer.reservation (w : Writer) (id : ByteString) : Nat :=
  match w.sessions.lookup id with
  | some n => if (w.states ⟨id, n⟩).reserved then (w.states ⟨id, n⟩).totalSize else 0
  | none => 0

/-- A record that is dropped from the completed-session cache charges nothing, as long as sessions
of its ID are only created afresh. -/
theorem Kept.reservation {id : ByteString} (h : Kept id t.writer w') (hlife : Lifecycle id t) :
    w'.reservation id = t.writer.reservation id := by
  obtain ⟨p, hd, -⟩ := hlife
  simp only [Writer.reservation]
  rcases h.session with hs | ⟨hs, horder, -⟩
  · simp only [hs, h.state]
  · rw [hs]
    cases hn : t.writer.sessions.lookup id with
    | none => rfl
    | some n =>
      have hpos := List.count_pos_iff.mpr horder
      rw [hd.order] at hpos
      have hfree : (t.writer.states ⟨id, n⟩).reserved = false := by
        rw [Bool.eq_false_iff, ne_eq, hd.reserved]
        cases p <;> simp_all [Phase.recorded, Phase.charged]
      simp [hfree]

end LocalMediaTransfer
