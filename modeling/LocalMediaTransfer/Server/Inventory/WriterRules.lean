import LocalMediaTransfer.Server.Inventory.Writers

/-!
# What the writers of the inventory rely on

Every row with a hash is told of a state that the file was in (`Told`), and no state of a file
repeats the size and time of another (`Chronicle`); this is the invariant of the storage (`Inv`).
A thread relies on the past being kept, on times not coming back, and on the file being left alone
or moving on to another time while the thread is in one of its periods (`Core`).

* `guar_file`, `guar_db` — every call of a thread keeps the invariant and what the others rely on,
  when the row it writes is told of a state of its file.
* `does_file`, `does_db`, `does_frame` — the rules for one call, and the frame rule for assertions
  about the past.
-/

set_option autoImplicit false

namespace LocalMediaTransfer

namespace InventoryWriters

open Lib HashEngine Preflight

variable {θ : Type} {sha256 : ByteString → ByteString}

/-! ## What is kept -/

/-- The file was in this state, or is. -/
def World.Had (s : World θ) (name : ByteString) (f : DestinationFile) : Prop :=
  some f ∈ s.history name

/-- The file had this modification time and does not have it now. -/
def World.MovedOn (s : World θ) (name : ByteString) (modifiedTime : Int) : Prop :=
  (∃ g, s.Had name g ∧ g.modifiedTime = modifiedTime) ∧
    ∀ f, s.file name = some f → f.modifiedTime ≠ modifiedTime

/-- Size and time tell of the file in a state it was in; zero is no time. -/
def Tells (sha256 : ByteString → ByteString) (name hash : ByteString) (sizeBytes : Nat)
    (modifiedTime : Int) (s : World θ) : Prop :=
  hash ≠ [] → modifiedTime = 0 ∨ ∃ g, s.Had name g ∧ g.size = sizeBytes ∧
    g.modifiedTime = modifiedTime ∧ sha256 g.content = hash

/-- The row tells of a state of its file. -/
def Told (sha256 : ByteString → ByteString) (s : World θ) (r : FileInventoryRecord) : Prop :=
  Tells sha256 r.filename.filename r.sha256 r.sizeBytes r.modifiedTime s

/-- The same, unless the file has moved on from that time. -/
def Known (sha256 : ByteString → ByteString) (name hash : ByteString) (sizeBytes : Nat)
    (modifiedTime : Int) (s : World θ) : Prop :=
  hash ≠ [] → modifiedTime = 0 ∨ s.MovedOn name modifiedTime ∨ ∃ g, s.Had name g ∧
    g.size = sizeBytes ∧ g.modifiedTime = modifiedTime ∧ sha256 g.content = hash

/-- No state of a file repeats the size and time of another, and zero is no time. -/
structure Chronicle (s : World θ) : Prop where
  stamp : ∀ name g h, s.Had name g → s.Had name h → g.size = h.size →
    g.modifiedTime = h.modifiedTime → g = h
  nonzero : ∀ name g, s.Had name g → g.modifiedTime ≠ 0

/-- Every row, committed or in a transaction, tells of a state of its file. -/
structure Inv (sha256 : ByteString → ByteString) (s : World θ) : Prop where
  chronicle : Chronicle s
  files : ∀ r ∈ s.database.files, Told sha256 s r
  working : ∀ w, s.database.working = some w → ∀ r ∈ w, Told sha256 s r

/-- Nothing is forgotten and no time comes back. -/
structure Past (s s' : World θ) : Prop where
  had : ∀ name f, s.Had name f → s'.Had name f
  moved : ∀ name m, s.MovedOn name m → s'.MovedOn name m

/-- What thread `t` relies on: nothing is forgotten and no time comes back; in the periods it is
in, the file is left alone, or moves on to another time. -/
structure Core (t : θ) (s s' : World θ) : Prop extends Past s s' where
  hold : s'.hold t = s.hold t
  stream : s'.stream t = s.stream t
  recording : ∀ name f, s.hold t = some (.recording name) → s.file name = some f →
    s'.history name = s.history name
  verifying : ∀ name f, s.hold t = some (.verifying name) → s.file name = some f →
    s'.history name = s.history name ∨ s'.MovedOn name f.modifiedTime

theorem file_congr {s s' : World θ} {name : ByteString} (h : s'.history name = s.history name) :
    s'.file name = s.file name := by
  simp [World.file, h]

theorem had_of_file {s : World θ} {name : ByteString} {f : DestinationFile}
    (h : s.file name = some f) : s.Had name f := by
  unfold World.file at h
  unfold World.Had
  cases hh : s.history name with
  | nil => simp [hh] at h
  | cons o rest =>
    rw [hh] at h
    simp only [List.head?_cons, Option.join_some] at h
    rw [h]
    exact List.mem_cons_self

theorem Past.trans {s u v : World θ} (h₁ : Past s u) (h₂ : Past u v) : Past s v where
  had name f h := h₂.had name f (h₁.had name f h)
  moved name m h := h₂.moved name m (h₁.moved name m h)

theorem Core.refl (t : θ) (s : World θ) : Core t s s where
  hold := rfl
  stream := rfl
  had _ _ h := h
  moved _ _ h := h
  recording _ _ _ _ := rfl
  verifying _ _ _ _ := .inl rfl

theorem Core.trans {t : θ} {s u v : World θ} (h₁ : Core t s u) (h₂ : Core t u v) : Core t s v where
  toPast := h₁.toPast.trans h₂.toPast
  hold := h₂.hold.trans h₁.hold
  stream := h₂.stream.trans h₁.stream
  recording name f hh hf := by
    have hu := h₁.recording name f hh hf
    exact (h₂.recording name f (h₁.hold.trans hh) ((file_congr hu).trans hf)).trans hu
  verifying name f hh hf := by
    rcases h₁.verifying name f hh hf with hu | hu
    · rcases h₂.verifying name f (h₁.hold.trans hh) ((file_congr hu).trans hf) with hv | hv
      · exact .inl (hv.trans hu)
      · exact .inr hv
    · exact .inr (h₂.moved name _ hu)

def Rely (sha256 : ByteString → ByteString) (t : θ) (s s' : World θ) : Prop :=
  (Inv sha256 s → Inv sha256 s') ∧ Core t s s'

def Guar (sha256 : ByteString → ByteString) (t : θ) (s s' : World θ) : Prop :=
  (Inv sha256 s → Inv sha256 s') ∧ Past s s' ∧ ∀ u, u ≠ t → Core u s s'

theorem Rely.refl (t : θ) (s : World θ) : Rely sha256 t s s := ⟨id, .refl t s⟩

theorem Rely.trans {t : θ} {s u v : World θ} (h₁ : Rely sha256 t s u) (h₂ : Rely sha256 t u v) :
    Rely sha256 t s v := ⟨h₂.1 ∘ h₁.1, h₁.2.trans h₂.2⟩

/-- A world with the same past. -/
theorem Past.of_history {s s' : World θ} (hhistory : s'.history = s.history) : Past s s' where
  had name f h := by simpa [World.Had, hhistory] using h
  moved name m h := by simpa [World.MovedOn, World.Had, World.file, hhistory] using h

theorem Core.of_history {t : θ} {s s' : World θ} (hhistory : s'.history = s.history)
    (hhold : s'.hold t = s.hold t) (hstream : s'.stream t = s.stream t) : Core t s s' where
  toPast := .of_history hhistory
  hold := hhold
  stream := hstream
  recording name _ _ _ := by rw [hhistory]
  verifying name _ _ _ := .inl (by rw [hhistory])

/-- An assertion about the past. -/
def Lasting (P : World θ → Prop) : Prop := ∀ s s', Past s s' → P s → P s'

theorem lasting_tells {name hash : ByteString} {sizeBytes : Nat} {modifiedTime : Int} :
    Lasting (θ := θ) (Tells sha256 name hash sizeBytes modifiedTime) := by
  intro s s' hp h hne
  rcases h hne with h | ⟨g, hg, h⟩
  · exact .inl h
  · exact .inr ⟨g, hp.had _ g hg, h⟩

theorem lasting_known {name hash : ByteString} {sizeBytes : Nat} {modifiedTime : Int} :
    Lasting (θ := θ) (Known sha256 name hash sizeBytes modifiedTime) := by
  intro s s' hp h hne
  rcases h hne with h | h | ⟨g, hg, h⟩
  · exact .inl h
  · exact .inr (.inl (hp.moved _ _ h))
  · exact .inr (.inr ⟨g, hp.had _ g hg, h⟩)

theorem Inv.of_history {s s' : World θ} (h : Inv sha256 s) (hhistory : s'.history = s.history)
    (hdatabase : s'.database = s.database) : Inv sha256 s' where
  chronicle := by
    constructor
    · simpa [World.Had, hhistory] using h.chronicle.stamp
    · simpa [World.Had, hhistory] using h.chronicle.nonzero
  files r hr := lasting_tells s s' (.of_history hhistory) (h.files r (hdatabase ▸ hr))
  working w hw r hr :=
    lasting_tells s s' (.of_history hhistory) (h.working w (hdatabase ▸ hw) r hr)

/-! ## A new state of a file -/

section Push

variable {s : World θ} {name : ByteString} {new : Option DestinationFile}

@[simp] theorem file_push_self : (s.push name new).file name = new := by
  simp [World.push, World.file]

theorem history_push_of_ne {other : ByteString} (h : other ≠ name) :
    (s.push name new).history other = s.history other := by
  simp [World.push, Function.update_of_ne h]

theorem had_push {other : ByteString} {f : DestinationFile} :
    (s.push name new).Had other f ↔ (other = name ∧ new = some f) ∨ s.Had other f := by
  by_cases h : other = name
  · subst h
    simp [World.Had, World.push, eq_comm]
  · simp [World.Had, history_push_of_ne h, h]

/-- A new state does not repeat an earlier one, and its time is the present one or new. -/
structure Fresh (s : World θ) (name : ByteString) (f : DestinationFile) : Prop where
  nonzero : f.modifiedTime ≠ 0
  stamp : ∀ g, s.Had name g → ¬(g.size = f.size ∧ g.modifiedTime = f.modifiedTime)
  time : (∃ g, s.file name = some g ∧ g.modifiedTime = f.modifiedTime) ∨
    ∀ g, s.Had name g → g.modifiedTime ≠ f.modifiedTime

theorem moved_push (hfresh : ∀ f, new = some f → Fresh s name f) {other : ByteString} {m : Int}
    (h : s.MovedOn other m) : (s.push name new).MovedOn other m := by
  obtain ⟨⟨g, hg, hm⟩, hnow⟩ := h
  refine ⟨⟨g, had_push.mpr (.inr hg), hm⟩, fun f hf => ?_⟩
  by_cases heq : other = name
  · subst heq
    rw [file_push_self] at hf
    rcases (hfresh f hf).time with ⟨g', hg', ht⟩ | ht
    · rw [← ht]
      exact hnow g' hg'
    · rw [← hm]
      exact (ht g hg).symm
  · rw [file_congr (history_push_of_ne heq)] at hf
    exact hnow f hf

theorem past_push (hfresh : ∀ f, new = some f → Fresh s name f) : Past s (s.push name new) where
  had _ _ hf := had_push.mpr (.inr hf)
  moved _ _ h := moved_push hfresh h

theorem inv_push (h : Inv sha256 s) (hfresh : ∀ f, new = some f → Fresh s name f) :
    Inv sha256 (s.push name new) where
  chronicle := by
    constructor
    · intro other g g' hg hg' hsize htime
      rcases had_push.mp hg with ⟨heq, hn⟩ | hold <;>
        rcases had_push.mp hg' with ⟨heq', hn'⟩ | hold'
      · exact Option.some.inj (hn.symm.trans hn')
      · rw [heq] at hold'
        exact absurd ⟨hsize.symm, htime.symm⟩ ((hfresh g hn).stamp g' hold')
      · rw [heq'] at hold
        exact absurd ⟨hsize, htime⟩ ((hfresh g' hn').stamp g hold)
      · exact h.chronicle.stamp other g g' hold hold' hsize htime
    · intro other g hg
      rcases had_push.mp hg with ⟨-, hn⟩ | hg
      · exact (hfresh g hn).nonzero
      · exact h.chronicle.nonzero other g hg
  files r hr := lasting_tells _ _ (past_push hfresh) (h.files r hr)
  working w hw r hr := lasting_tells _ _ (past_push hfresh) (h.working w hw r hr)

/-- A new state is one that a thread can rely on, if it stays out of the periods of the thread. -/
theorem core_push {t : θ} (hfresh : ∀ f, new = some f → Fresh s name f)
    (hrecording : ∀ f, s.file name = some f → s.hold t ≠ some (.recording name))
    (hverifying : ∀ f, s.file name = some f → s.hold t = some (.verifying name) →
      ∀ g, new = some g → g.modifiedTime ≠ f.modifiedTime) :
    Core t s (s.push name new) where
  toPast := past_push hfresh
  hold := rfl
  stream := rfl
  recording other f hh hf := by
    by_cases heq : other = name
    · subst heq
      exact absurd hh (hrecording f hf)
    · exact history_push_of_ne heq
  verifying other f hh hf := by
    by_cases heq : other = name
    · subst heq
      refine .inr ⟨⟨f, had_push.mpr (.inr (had_of_file hf)), rfl⟩, fun g hg => ?_⟩
      rw [file_push_self] at hg
      exact hverifying f hf hh g hg
    · exact .inl (history_push_of_ne heq)

end Push

/-! ## Calls -/

/-- The name that a call publishes a file under. -/
def publishedName : InventoryCalls.Call → Option ByteString
  | .inl (.publish name _) => some name
  | _ => none

/-- The reading of the size that `storeHash` enters. -/
def storesSize : InventoryCalls.Call → Bool
  | .inl (.fileSize .stored _) => true
  | _ => false

/-- A published file is in a new state, and the size that is entered for it can be read. -/
def Allowed (s : World θ) (c : InventoryCalls.Call) (d : Decision) : Prop :=
  (∀ name ∈ publishedName c, Fresh s name d.published) ∧ (storesSize c = true → d.fault = false)

/-- A step that leaves the past, the rows and the other threads as they are. -/
theorem guar_of_history {t : θ} {s s' : World θ} (hhistory : s'.history = s.history)
    (hdatabase : s'.database = s.database)
    (hothers : ∀ u, u ≠ t → s'.hold u = s.hold u ∧ s'.stream u = s.stream u) :
    Guar sha256 t s s' :=
  ⟨fun h => h.of_history hhistory hdatabase, .of_history hhistory, fun u hu =>
    .of_history hhistory (hothers u hu).1 (hothers u hu).2⟩

variable [DecidableEq θ]

theorem setHold_others (s : World θ) (t : θ) (hold : Option Hold) (u : θ) (hu : u ≠ t) :
    (s.setHold t hold).hold u = s.hold u ∧ (s.setHold t hold).stream u = s.stream u :=
  ⟨Function.update_of_ne hu _ _, rfl⟩

/-- **Every call to the destination** stays within what the other threads rely on. -/
theorem guar_file {t : θ} {s : World θ} {d : Decision} {c : FileCall}
    (hallowed : Allowed s (.inl c) d) : Guar sha256 t s (performFile sha256 t s d c).2 := by
  cases c with
  | status name => exact guar_of_history rfl rfl (setHold_others s t _)
  | fileSize site name => exact guar_of_history rfl rfl (setHold_others s t _)
  | lastWriteTime site name => exact guar_of_history rfl rfl (setHold_others s t _)
  | openFile site name =>
    simp only [performFile]
    split
    · refine guar_of_history rfl rfl fun u hu => ⟨(setHold_others s t _ u hu).1, ?_⟩
      exact Function.update_of_ne hu _ _
    · exact guar_of_history rfl rfl fun _ _ => ⟨rfl, rfl⟩
  | publish name fullHash =>
    simp only [performFile]
    split
    · rename_i h
      obtain ⟨-, hfree, -⟩ := h
      have hfresh : ∀ f, some d.published = some f → Fresh s name f := by
        rintro f ⟨⟩
        exact hallowed.1 name rfl
      refine ⟨fun hinv => (inv_push hinv hfresh).of_history rfl rfl,
        (past_push hfresh).trans (.of_history rfl), fun u hu => ?_⟩
      refine (core_push hfresh (fun f hf => ?_) fun f hf => ?_).trans
        (.of_history rfl (setHold_others _ t _ u hu).1 rfl)
      · rw [hfree] at hf
        cases hf
      · rw [hfree] at hf
        cases hf
    · exact guar_of_history rfl rfl fun _ _ => ⟨rfl, rfl⟩
  | _ => exact guar_of_history rfl rfl fun _ _ => ⟨rfl, rfl⟩

/-- The row that a call writes. -/
def written : DbCall → Option FileInventoryRecord
  | .upsertFile record => some record
  | .upsert record => some record
  | _ => none

/-- A property of all rows of the database. -/
def Database.AllRows (P : FileInventoryRecord → Prop) (d : Database) : Prop :=
  (∀ r ∈ d.files, P r) ∧ ∀ w, d.working = some w → ∀ r ∈ w, P r

theorem allRows_modify {P : FileInventoryRecord → Prop} {d : Database} {f : Inventory → Inventory}
    (h : Database.AllRows P d) (hf : ∀ files : Inventory, (∀ r ∈ files, P r) → ∀ r ∈ f files, P r) :
    Database.AllRows P (d.modify f) := by
  unfold Database.modify
  split
  · rename_i working hw
    refine ⟨h.1, fun w hw' => ?_⟩
    obtain rfl := Option.some.inj hw'
    exact hf _ (h.2 working hw)
  · exact ⟨hf _ h.1, h.2⟩

theorem allRows_upsert {P : FileInventoryRecord → Prop} {record : FileInventoryRecord}
    (hrecord : P record) (files : Inventory) (h : ∀ r ∈ files, P r) :
    ∀ r ∈ SortedTable.upsert record files, P r := by
  intro r hr
  rcases SortedTable.mem_upsert.mp hr with rfl | ⟨hr, -⟩
  · exact hrecord
  · exact h r hr

theorem allRows_erase {P : FileInventoryRecord → Prop} {name : ByteString} (files : Inventory)
    (h : ∀ r ∈ files, P r) : ∀ r ∈ SortedTable.erase name files, P r :=
  fun r hr => h r (SortedTable.mem_erase.mp hr).1

/-- **Every statement** keeps a property of all rows that the row it writes has. -/
theorem allRows_serve {P : FileInventoryRecord → Prop} {d : Database} {fault : Bool} {c : DbCall}
    (h : Database.AllRows P d) (hwritten : ∀ r, written c = some r → P r) :
    Database.AllRows P (d.serve fault c).2 := by
  cases c with
  | upsertFile record =>
    refine allRows_modify h fun files hfiles => ?_
    unfold Inventory.upsertFile
    split
    · exact hfiles
    · exact allRows_upsert (hwritten record rfl) files hfiles
  | removeFile filename =>
    refine allRows_modify h fun files hfiles => ?_
    unfold Inventory.removeFile
    split
    · exact hfiles
    · exact allRows_erase files hfiles
  | begin =>
    cases fault with
    | true => exact h
    | false =>
      refine ⟨h.1, fun w hw => ?_⟩
      obtain rfl := Option.some.inj hw
      exact h.1
  | upsert record =>
    cases fault with
    | true => exact h
    | false => exact allRows_modify h fun files hfiles =>
        allRows_upsert (hwritten record rfl) files hfiles
  | remove filename =>
    cases fault with
    | true => exact h
    | false => exact allRows_modify h fun files hfiles => allRows_erase files hfiles
  | commit =>
    cases fault with
    | true => exact h
    | false =>
      refine ⟨fun r hr => ?_, fun w hw => by cases hw⟩
      unfold Database.serve Database.current at hr
      cases hw : d.working with
      | none => exact h.1 r (by simpa [hw] using hr)
      | some working => exact h.2 working hw r (by simpa [hw] using hr)
  | rollback => exact ⟨h.1, fun w hw => by cases hw⟩
  | _ => exact h

theorem guar_db {t : θ} {s s' : World θ} {d : Decision} {c : DbCall} {x : c.Answer}
    (hwritten : Inv sha256 s → ∀ r, written c = some r → Told sha256 s r)
    (h : perform sha256 t s (.inr c) d = some (x, s')) : Guar sha256 t s s' := by
  simp only [perform] at h
  split at h
  · simp only [Option.some.injEq, Prod.mk.injEq] at h
    obtain ⟨-, rfl⟩ := h
    refine ⟨fun hinv => ?_, .of_history rfl, fun u _ => .of_history rfl rfl rfl⟩
    obtain ⟨hfiles, hworking⟩ := allRows_serve (c := c)
      (P := Told sha256 s) ⟨hinv.files, hinv.working⟩ (hwritten hinv)
    exact ⟨⟨hinv.chronicle.stamp, hinv.chronicle.nonzero⟩, hfiles, hworking⟩
  · cases h

/-! ## One call -/

/-- An assertion that the interference with thread `t` keeps. -/
def Settled (t : θ) (P : World θ → Prop) : Prop := ∀ s s', Core t s s' → P s → P s'

omit [DecidableEq θ] in
theorem Lasting.settled {P : World θ → Prop} (h : Lasting P) (t : θ) : Settled t P :=
  fun s s' hc => h s s' hc.toPast

omit [DecidableEq θ] in
theorem Lasting.of_history {P : World θ → Prop} (h : Lasting P) {s s' : World θ}
    (hhistory : s'.history = s.history) (hs : P s) : P s' :=
  h s s' (.of_history hhistory) hs

omit [DecidableEq θ] in
theorem Settled.and {t : θ} {P Q : World θ → Prop} (hP : Settled t P) (hQ : Settled t Q) :
    Settled t fun s => P s ∧ Q s :=
  fun s s' hc h => ⟨hP s s' hc h.1, hQ s s' hc h.2⟩

omit [DecidableEq θ] in
theorem Lasting.and {P Q : World θ → Prop} (hP : Lasting P) (hQ : Lasting Q) :
    Lasting fun s => P s ∧ Q s :=
  fun s s' hp h => ⟨hP s s' hp h.1, hQ s s' hp h.2⟩

omit [DecidableEq θ] in
theorem lasting_const (p : Prop) : Lasting fun _ : World θ => p := fun _ _ _ h => h

omit [DecidableEq θ] in
theorem Lasting.imp {p : Prop} {P : World θ → Prop} (h : p → Lasting P) :
    Lasting fun s => p → P s :=
  fun s s' hpast hs hp => h hp s s' hpast (hs hp)

/-- Thread `t` runs the program from a world that meets `P` to one that meets `Q`, keeps the
invariant and disturbs no other thread. -/
def Does (sha256 : ByteString → ByteString) {α : Type} (t : θ) (P : World θ → Prop)
    (p : InventoryProg α) (Q : α → World θ → Prop) : Prop :=
  Triple ((storage sha256).Performs Allowed t) (Rely sha256 t) (Guar sha256 t)
    (fun s => Inv sha256 s ∧ P s) p fun a s => Inv sha256 s ∧ Q a s

section Rules

variable {t : θ} {α β : Type} {P : World θ → Prop}

omit [DecidableEq θ] in
theorem stable_inv (hP : Settled t P) : Stable (Rely sha256 t) fun s => Inv sha256 s ∧ P s :=
  fun s s' hr h => ⟨hr.1 h.1, hP s s' hr.2 h.2⟩

theorem does_bind {R : α → World θ → Prop} {Q : β → World θ → Prop} {p : InventoryProg α}
    {f : α → InventoryProg β} (h : Does sha256 t P p R) (hf : ∀ a, Does sha256 t (R a) (f a) Q) :
    Does sha256 t P (p >>= f) Q :=
  Triple.bind (Rely.refl t) h hf

theorem does_pure {Q : α → World θ → Prop} {a : α} (hQ : Settled t (Q a)) (h : ∀ s, P s → Q a s) :
    Does sha256 t P (pure a) Q :=
  Triple.pure (stable_inv hQ) fun s hs => ⟨hs.1, h s hs.2⟩

theorem does_conseq {P' : World θ → Prop} {Q Q' : α → World θ → Prop} {p : InventoryProg α}
    (h : Does sha256 t P p Q) (hP : ∀ s, P' s → P s) (hQ : ∀ a s, Q a s → Q' a s) :
    Does sha256 t P' p Q' :=
  Triple.conseq h (fun s hs => ⟨hs.1, hP s hs.2⟩) fun a s hs => ⟨hs.1, hQ a s hs.2⟩

/-- An assertion about the past can be added. -/
theorem does_frame {F : World θ → Prop} {Q : α → World θ → Prop} {p : InventoryProg α}
    (hF : Lasting F) (h : Does sha256 t P p Q) :
    Does sha256 t (fun s => P s ∧ F s) p fun a s => Q a s ∧ F s :=
  Triple.conseq (Triple.frame (F := F) (fun s s' hr => hF s s' hr.2.toPast)
    (fun s s' hg => hF s s' hg.2.1) h) (fun _ hs => ⟨⟨hs.1, hs.2.1⟩, hs.2.2⟩)
    fun _ _ hs => ⟨hs.1.1, hs.1.2, hs.2⟩

/-- **A call to the destination.** -/
theorem does_file {c : FileCall} {Q : c.Answer → World θ → Prop} (hP : Settled t P)
    (hQ : ∀ x, Settled t (Q x))
    (hstep : ∀ s d, Inv sha256 s → Allowed s (.inl c) d → P s →
      Q (performFile sha256 t s d c).1 (performFile sha256 t s d c).2) :
    Does sha256 t P (Prog.ask (J := InventoryCalls) (.inl c)) Q := by
  refine Triple.ask (stable_inv hP) (fun x => stable_inv (hQ x)) ?_
  rintro s x s' ⟨hinv, hs⟩ ⟨d, hallowed, hp⟩
  change some (performFile sha256 t s d c) = some (x, s') at hp
  have heq := Option.some.inj hp
  have hguar : Guar sha256 t s (performFile sha256 t s d c).2 := guar_file hallowed
  have hpost := hstep s d hinv hallowed hs
  rw [heq] at hguar hpost
  exact ⟨hguar, hguar.1 hinv, hpost⟩

/-- A call to the destination that says nothing about the past. -/
theorem does_still {c : FileCall} (hP : Settled t P)
    (hstill : ∀ s d, (performFile sha256 t s d c).2 = s) :
    Does sha256 t P (Prog.ask (J := InventoryCalls) (.inl c)) fun _ => P :=
  does_file hP (fun _ => hP) fun s d _ _ hs => by rw [hstill]; exact hs

/-- A call to the destination that leaves an assertion about the past. -/
theorem does_lasting {c : FileCall} (hP : Lasting P)
    (hpast : ∀ s d, (performFile sha256 t s d c).2.history = s.history) :
    Does sha256 t P (Prog.ask (J := InventoryCalls) (.inl c)) fun _ => P :=
  does_file (hP.settled t) (fun _ => hP.settled t) fun s d _ _ hs =>
    hP.of_history (hpast s d) hs

/-- **A statement.** -/
theorem does_db {c : DbCall} {R : c.Answer → World θ → Prop} (hP : Settled t P)
    (hR : ∀ x, Settled t (R x))
    (hwritten : ∀ s, Inv sha256 s → P s → ∀ r, written c = some r → Told sha256 s r)
    (hanswer : ∀ s fault, Inv sha256 s → P s → R (s.database.serve fault c).1 s) :
    Does sha256 t P (Prog.ask (J := InventoryCalls) (.inr c)) fun x s => P s ∧ R x s := by
  refine Triple.ask (stable_inv hP) (fun x => stable_inv (hP.and (hR x))) ?_
  rintro s x s' ⟨hinv, hs⟩ ⟨d, -, hp⟩
  have hguar := guar_db (fun _ => hwritten s hinv hs) hp
  change perform sha256 t s (.inr c) d = some (x, s') at hp
  simp only [perform] at hp
  split at hp
  · obtain ⟨rfl, rfl⟩ := Prod.mk.inj (Option.some.inj hp)
    have hcore : ∀ database owner, Core t s { s with database, owner } :=
      fun _ _ => .of_history rfl rfl rfl
    exact ⟨hguar, hguar.1 hinv, hP _ _ (hcore _ _) hs,
      hR _ _ _ (hcore _ _) (hanswer s d.fault hinv hs)⟩
  · cases hp

/-- A statement that writes no row. -/
theorem does_query {c : DbCall} (hP : Settled t P) (hwritten : written c = none) :
    Does sha256 t P (Prog.ask (J := InventoryCalls) (.inr c)) fun _ => P :=
  does_conseq (does_db (R := fun _ _ => True) hP (fun _ _ _ _ h => h)
    (fun s _ _ r hr => by rw [hwritten] at hr; cases hr) fun _ _ _ _ => trivial)
    (fun _ h => h) fun _ _ h => h.1

theorem does_upsertFile {filename hash : ByteString} {sizeBytes : Nat}
    {modifiedTime verifiedAt : Int}
    (hP : Settled t P)
    (htold : ∀ s, P s → Tells sha256 filename.filename hash sizeBytes modifiedTime s) :
    Does sha256 t P (upsertFile ⟨filename, hash, sizeBytes, modifiedTime, verifiedAt⟩) fun _ => P :=
  does_conseq (does_db (c := .upsertFile ⟨filename, hash, sizeBytes, modifiedTime, verifiedAt⟩)
    (R := fun _ _ => True) hP (fun _ _ _ _ h => h)
    (fun s _ hs _ hr => Option.some.inj hr ▸ htold s hs) fun _ _ _ _ => trivial)
    (fun _ h => h) fun _ _ h => h.1

theorem does_now (hP : Settled t P) : Does sha256 t P unixNow fun _ => P :=
  does_still (c := .now) hP fun _ _ => rfl

theorem does_stop (hP : Settled t P) : Does sha256 t P stopRequested fun _ => P :=
  does_still (c := .stopRequested) hP fun _ _ => rfl

theorem does_status {name : ByteString} (hP : Lasting P) :
    Does sha256 t P (fileStatus name) fun _ => P :=
  does_lasting (c := .status name) hP fun _ _ => rfl

end Rules

end InventoryWriters

end LocalMediaTransfer
