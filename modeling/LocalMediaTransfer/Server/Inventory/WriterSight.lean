import LocalMediaTransfer.Server.Inventory.WriterRules

/-!
# What a writer sees of a file

Between two calls a thread knows of a file that it is as it was, or that something excuses the
thread (`Sees`): in a verification the file may have moved on to another time, and then the second
look finds out; in the period of a record nothing excuses, the file has to be left alone.

* `Watches.settled` — what a thread sees stays so under the interference of its period.
* `does_computeFileHash` — the hash of a file that is open in a period of the thread.
* `does_timeBefore`, `does_sizeAfter`, `does_timeAfter` — the looks of a verification.
-/

set_option autoImplicit false

namespace LocalMediaTransfer

namespace InventoryWriters

open Lib HashEngine Preflight

variable {θ : Type} [DecidableEq θ] {sha256 : ByteString → ByteString} {t : θ}

/-! ## What a thread sees of a file -/

/-- In the period, the interference leaves a file that meets `Q` alone, or excuses the thread. -/
structure Watches (t : θ) (hold : Hold) (name : ByteString) (excuse : World θ → Prop)
    (Q : DestinationFile → Prop) : Prop where
  lasting : Lasting excuse
  kept : ∀ s s' f, Core t s s' → s.hold t = some hold → s.file name = some f → Q f →
    s'.history name = s.history name ∨ excuse s'

/-- Thread `t` is in the period and excused, or the file meets `Q` and has not changed since the
thread opened it. -/
def Sees (t : θ) (hold : Hold) (name : ByteString) (excuse : World θ → Prop) (opened : Bool)
    (Q : DestinationFile → Prop) (s : World θ) : Prop :=
  s.hold t = some hold ∧ (excuse s ∨ ∃ f, s.file name = some f ∧ Q f ∧
    (opened = true → s.stream t = some (name, (s.history name).length)))

/-- The time could not be read, or the file has moved on from it. -/
def Excused (name : ByteString) (modifiedTime : Int) (s : World θ) : Prop :=
  modifiedTime = 0 ∨ s.MovedOn name modifiedTime

omit [DecidableEq θ] in
theorem watches_recording (t : θ) (name : ByteString) :
    Watches t (.recording name) name (fun _ => False) fun _ => True where
  lasting := lasting_const False
  kept _ _ f hc hh hf _ := .inl (hc.recording name f hh hf)

omit [DecidableEq θ] in
theorem watches_verifying (t : θ) (name : ByteString) (modifiedTime : Int) :
    Watches t (.verifying name) name (Excused name modifiedTime)
      fun f => f.modifiedTime = modifiedTime where
  lasting _ _ hp h := h.imp_right (hp.moved name modifiedTime)
  kept _ _ f hc hh hf hq := (hc.verifying name f hh hf).imp_right fun h => .inr (hq ▸ h)

section Sees

variable {hold : Hold} {name : ByteString} {excuse : World θ → Prop} {opened : Bool}
  {Q Q' : DestinationFile → Prop} {s s' : World θ}

omit [DecidableEq θ] in
theorem Watches.settled (h : Watches t hold name excuse Q) (hQ : ∀ f, Q' f → Q f) :
    Settled t (Sees t hold name excuse opened Q') := by
  rintro s s' hc ⟨hh, hex | ⟨f, hf, hq, ho⟩⟩
  · exact ⟨hc.hold.trans hh, .inl (h.lasting s s' hc.toPast hex)⟩
  · refine ⟨hc.hold.trans hh, ?_⟩
    rcases h.kept s s' f hc hh hf (hQ f hq) with heq | hex
    · refine .inr ⟨f, (file_congr heq).trans hf, hq, fun hopened => ?_⟩
      rw [hc.stream, heq]
      exact ho hopened
    · exact .inl hex

omit [DecidableEq θ] in
theorem Sees.imp (h : Sees t hold name excuse opened Q s) (hQ : ∀ f, Q f → Q' f) :
    Sees t hold name excuse false Q' s :=
  ⟨h.1, h.2.imp_right fun ⟨f, hf, hq, _⟩ => ⟨f, hf, hQ f hq, fun h => by cases h⟩⟩

omit [DecidableEq θ] in
/-- What is seen of a file tells of it. -/
theorem Sees.known {modifiedTime : Int} {hash : ByteString} {sizeBytes : Nat}
    (h : hash ≠ [] → Sees t hold name (Excused name modifiedTime) opened Q s)
    (hQ : ∀ f, Q f → f.size = sizeBytes ∧ f.modifiedTime = modifiedTime ∧
      sha256 f.content = hash) : Known sha256 name hash sizeBytes modifiedTime s := by
  intro hne
  rcases (h hne).2 with (hzero | hmoved) | ⟨f, hf, hq, -⟩
  · exact .inl hzero
  · exact .inr (.inl hmoved)
  · exact .inr (.inr ⟨f, had_of_file hf, hQ f hq⟩)

@[simp] theorem setHold_self : s.setHold t (s.hold t) = s := by
  simp [World.setHold]

end Sees

/-! ## Hashing -/

section Hashing

variable {hold : Hold} {name : ByteString} {excuse : World θ → Prop}
  {Q Q' : DestinationFile → Prop} {P : World θ → Prop} {site : Site}

/-- Opening a file for a verification. -/
theorem does_open_verifying (hw : Watches t hold name excuse Q)
    (hsite : ∀ hold, holdAfterOpen site name hold = hold) :
    Does sha256 t (Sees t hold name excuse false Q) (openFile site name) fun b s =>
      b = true → Sees t hold name excuse true Q s := by
  refine does_file (c := .openFile site name) (hw.settled fun _ h => h)
    (fun b s s' hc h hb => hw.settled (fun _ h => h) s s' hc (h hb)) ?_
  rintro s d - - ⟨hh, h⟩
  simp only [performFile, hsite]
  split
  · refine fun _ => ⟨by rw [setHold_self]; exact hh, h.imp ?_ ?_⟩
    · exact hw.lasting.of_history rfl
    · rintro ⟨f, hf, hq, -⟩
      exact ⟨f, hf, hq, fun _ => Function.update_self ..⟩
  · exact fun h => by cases h

/-- Opening a file for a record. -/
theorem does_open_recording (hP : Settled t P)
    (hsite : ∀ hold, holdAfterOpen site name hold = some (.recording name)) :
    Does sha256 t P (openFile site name) fun b s => b = true →
      Sees t (.recording name) name (fun _ => False) true (fun _ => True) s := by
  refine does_file (c := .openFile site name) hP (fun b s s' hc h hb =>
    (watches_recording t name).settled (fun _ _ => trivial) s s' hc (h hb)) ?_
  intro s d _ _ _
  simp only [performFile, hsite]
  split
  · rename_i h
    obtain ⟨f, hf⟩ := Option.isSome_iff_exists.mp h.2
    exact fun _ => ⟨Function.update_self .., .inr ⟨f, hf, trivial, fun _ =>
      Function.update_self ..⟩⟩
  · exact fun h => by cases h

theorem does_streamHash (hw : Watches t hold name excuse Q) (hQ : ∀ f, Q' f → Q f)
    (expectedSize : Nat) :
    Does sha256 t (Sees t hold name excuse true Q') (computeStreamHash name expectedSize)
      fun hash s => hash ≠ [] → Sees t hold name excuse false
        (fun f => Q' f ∧ sha256 f.content = hash ∧ f.size = expectedSize) s := by
  refine does_file (c := .streamHash name expectedSize) (hw.settled hQ) (fun hash s s' hc h hne =>
    hw.settled (fun f hq => hQ f hq.1) s s' hc (h hne)) ?_
  rintro s d - - ⟨hh, h⟩ hne
  refine ⟨hh, h.imp_right ?_⟩
  rintro ⟨f, hf, hq, ho⟩
  refine ⟨f, hf, ?_, fun h => by cases h⟩
  have hstream : streamHash sha256 s t name expectedSize d =
      if d.reads ∧ f.size = expectedSize then sha256 f.content else [] := by
    simp only [streamHash, if_pos (ho rfl), hf]
  simp only [performFile, hstream] at hne ⊢
  split at hne
  · rename_i hreads
    rw [if_pos hreads]
    exact ⟨hq, rfl, hreads.2⟩
  · exact absurd rfl hne

/-- **The hash of a file** that is open in a period of the thread. -/
theorem does_computeFileHash (hw : Watches t hold name excuse Q) (hQ : ∀ f, Q' f → Q f)
    (expectedSize : Option Nat) (hopen : Does sha256 t P (openFile site name) fun b s =>
      b = true → Sees t hold name excuse true Q' s) :
    Does sha256 t P (HashEngine.computeFileHash site name expectedSize) fun hash s =>
      hash ≠ [] → Sees t hold name excuse false
        (fun f => Q' f ∧ sha256 f.content = hash ∧ ∀ size ∈ expectedSize, f.size = size) s := by
  have hsettled : ∀ hash, Settled t fun s => hash ≠ [] → Sees t hold name excuse false
      (fun f => Q' f ∧ sha256 f.content = hash ∧ ∀ size ∈ expectedSize, f.size = size) s :=
    fun hash s s' hc h hne => hw.settled (fun f hq => hQ f hq.1) s s' hc (h hne)
  have hnone : ∀ {P : World θ → Prop}, Does sha256 t P (pure []) fun hash s =>
      hash ≠ [] → Sees t hold name excuse false
        (fun f => Q' f ∧ sha256 f.content = hash ∧ ∀ size ∈ expectedSize, f.size = size) s :=
    does_pure (hsettled []) fun _ _ h => absurd rfl h
  refine does_bind hopen fun b => ?_
  cases b with
  | false => exact hnone
  | true =>
    refine does_conseq (P := Sees t hold name excuse true Q') ?_ (fun _ h => h rfl) fun _ _ h => h
    refine does_bind (R := fun _ => Sees t hold name excuse true Q')
      (does_still (c := .fileSize .hashing name) (hw.settled hQ) fun s d => setHold_self)
      fun size => ?_
    cases size with
    | none => exact hnone
    | some size =>
      simp only
      split
      · exact hnone
      · refine does_conseq (does_streamHash hw hQ _) (fun _ h => h) fun hash s h hne =>
          (h hne).imp fun f ⟨hq, hsha, hsize⟩ => ⟨hq, hsha, ?_⟩
        rintro expected hmem
        rw [Option.mem_def.mp hmem] at hsize
        exact hsize

end Hashing

/-! ## Verifications -/

section Times

variable {name hash : ByteString} {sizeBytes : Nat} {modifiedTime : Int} {site : Site}
  {P : World θ → Prop}

/-- The first reading of the time begins a verification. -/
theorem does_timeBefore (hP : Settled t P)
    (hsite : ∀ hold, holdAfterTime site name hold = some (.verifying name)) :
    Does sha256 t P (fileModifiedTime site name) fun m =>
      Sees t (.verifying name) name (Excused name m) false fun f => f.modifiedTime = m := by
  refine does_file (c := .lastWriteTime site name) hP
    (fun m => (watches_verifying t name m).settled fun _ h => h) ?_
  intro s d _ _ _
  simp only [performFile, hsite]
  refine ⟨Function.update_self .., ?_⟩
  split
  · exact .inl (.inl rfl)
  · cases hf : s.file name with
    | none => exact .inl (.inl rfl)
    | some f => exact .inr ⟨f, hf, rfl, fun h => by cases h⟩

/-- The second reading of the time: the file has not moved on. -/
theorem does_timeAfter :
    Does sha256 t (Known sha256 name hash sizeBytes modifiedTime) (fileModifiedTime site name)
      fun m s => m = modifiedTime → Tells sha256 name hash sizeBytes modifiedTime s := by
  refine does_file (c := .lastWriteTime site name) (lasting_known.settled t)
    (fun m => (Lasting.imp fun _ => lasting_tells).settled t) ?_
  intro s d _ _ hknown htime hne
  simp only [performFile] at htime
  rcases hknown hne with hzero | ⟨-, hmoved⟩ | htold
  · exact .inl hzero
  · left
    split at htime
    · exact htime.symm
    · cases hf : s.file name with
      | none =>
        rw [hf] at htime
        exact htime.symm
      | some f =>
        rw [hf] at htime
        exact absurd htime (hmoved f hf)
  · exact .inr htold

/-- The size read after the hashing is that of the file that was hashed, or the file moved on. -/
theorem does_sizeAfter : Does sha256 t (fun s => hash ≠ [] →
      Sees t (.verifying name) name (Excused name modifiedTime) false
        (fun f => f.modifiedTime = modifiedTime ∧ sha256 f.content = hash) s)
    (fileSize site name) fun size s => ∀ n, size = some n →
      Known sha256 name hash n modifiedTime s := by
  refine does_file (c := .fileSize site name) (fun s s' hc h hne =>
      (watches_verifying t name modifiedTime).settled (fun f hq => hq.1) s s' hc (h hne))
    (fun size s s' hc h n hn => lasting_known.settled t s s' hc (h n hn)) ?_
  intro s d _ _ h n hn
  refine lasting_known.of_history (s := s) rfl fun hne => ?_
  simp only [performFile] at hn
  rcases (h hne).2 with (hzero | hmoved) | ⟨f, hf, hq, -⟩
  · exact .inl hzero
  · exact .inr (.inl hmoved)
  · refine .inr (.inr ⟨f, had_of_file hf, ?_, hq⟩)
    split at hn
    · cases hn
    · rw [hf] at hn
      exact Option.some.inj hn

end Times

end InventoryWriters

end LocalMediaTransfer
