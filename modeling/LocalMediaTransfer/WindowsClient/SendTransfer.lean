import LocalMediaTransfer.WindowsClient.BoundedWorkerPool
import LocalMediaTransfer.WindowsClient.PreflightAgreement

/-!
# Sending the files of a transfer

Model of `NativeTransferClient.SendAsync` from the preflight on: the files that the preflight did
not skip go through the bounded worker pool, each worker notes a result for its file, and the
summary looks every file up.  What `UploadFileAsync` returns or throws is part of the label; its
result is noted and counted in the same step, since nothing but the progress display reads them
before the pool has ended.

`uploads` keeps what ended, in order, and is read by nothing.

* `log_of_step` — only the end of an item is logged as one.
* `SendInv`, `sendInv_of_run` — the results, the counter and the ended uploads.
* `send_summary` — the counter, and what a summary says of every file.
-/

set_option autoImplicit false

namespace LocalMediaTransfer.BoundedWorkerPool

open Lib

variable {S κ R : Type} [DecidableEq κ]

/-- `DefaultParallelFiles`. -/
def DefaultParallelFiles : Int := 6

/-- What `SendAsync` works on; `preflight` is what `NativeDuplicatePreflight.RunAsync` left behind,
nothing when duplicates are not skipped. -/
structure Transfer (S κ : Type) [DecidableEq κ] where
  sources : List S
  fileId : S → κ
  parallelFiles : Int
  preflight : NativeDuplicatePreflight.Outcome κ

/-- An upload that ended, and the caller's token at that moment. -/
structure Upload (R : Type) where
  index : Nat
  outer : Bool
  outcome : Except SendException R

def Upload.note (u : Upload R) : Option (SendResult R) := (sendWorker u.outer u.outcome).1

def Upload.thrown (u : Upload R) : Option SendException := (sendWorker u.outer u.outcome).2

/-- A `TransferFileResult`. -/
inductive FileResult (R : Type) where
  | skipped (filename : Option ByteString)
  | sent (result : SendResult R)

structure SendState (κ R : Type) [DecidableEq κ] where
  pool : Pool SendException
  /-- The entries of `results` that a worker wrote; they replace those of the preflight. -/
  sent : Table κ (SendResult R) := ∅
  terminal : Nat
  uploads : List (Upload R) := []

namespace Transfer

variable (c : Transfer S κ)

def pending : List S := c.sources.filter fun file => c.fileId file ∉ c.preflight.skipped

def call : Call S SendException where
  items := c.pending
  maxWorkers := max 1 (min c.parallelFiles DefaultParallelFiles)
  sessionFatal := sendSessionFatal
  isCancellation e := e == .operationCanceled
  indexError := .other

def start (outer : Bool) : SendState κ R where
  pool := c.call.begin outer
  terminal := c.preflight.terminal

/-- The end of the worker body for a file. -/
def noted (s : SendState κ R) (pool : Pool SendException) (u : Upload R) : SendState κ R :=
  let t := { s with pool, uploads := s.uploads ++ [u] }
  match u.note, c.pending[u.index]? with
  | some result, some file =>
      { t with sent := s.sent.insert (c.fileId file) result, terminal := s.terminal + 1 }
  | _, _ => t

inductive SendLabel (R : Type) where
  /-- A step of the pool or of the caller. -/
  | pool (l : Label SendException)
  /-- `UploadFileAsync` of a worker returns or throws. -/
  | upload (worker : Nat) (outcome : Except SendException R)

def sendStep (s : SendState κ R) : SendLabel R → Option (SendState κ R)
  | .pool (.finish _ _) => none
  | .pool l => (step c.call s.pool l).map fun pool => { s with pool }
  | .upload w outcome =>
      match s.pool.workers[w]? with
      | some (.running index) =>
          let u : Upload R := ⟨index, s.pool.outer, outcome⟩
          (step c.call s.pool (.finish w u.thrown)).map fun pool => c.noted s pool u
      | _ => none

/-- The entry of `results` for a file. -/
def result (s : SendState κ R) (file : S) : Option (FileResult R) :=
  ((s.sent.lookup (c.fileId file)).map .sent).or
    ((c.preflight.results.lookup (c.fileId file)).map .skipped)

inductive SendOutcome (R : Type) where
  | summary (cancelled : Bool) (files : List (FileResult R))
  | threw (e : SendException)

def summary (s : SendState κ R) (cancelled : Bool) (missing : SendResult R) : SendOutcome R :=
  .summary cancelled (c.sources.map fun file => (c.result s file).getD (.sent missing))

/-- How `SendAsync` ends, once the pool has. -/
def sendResult (s : SendState κ R) : Option (SendOutcome R) :=
  s.pool.outcome.map fun
    | .returned => c.summary s false (.failed "not_processed")
    | .canceled => c.summary s true .cancelled
    | .threw e =>
        if e = .operationCanceled ∧ s.pool.outer =
          true then c.summary s true .cancelled else .threw e
    | .badWorkers => .threw .other

end Transfer

/-! ## The steps -/

/-- Only the end of an item is logged as one. -/
theorem log_of_step {T ε : Type} {c : Call T ε} {s s' : Pool ε} {l : Label ε}
    (h : step c s l = some s') (hl : ∀ w thrown, l ≠ .finish w thrown) :
    ∃ new, s'.log = s.log ++ new ∧
      ∀ e ∈ new, ∀ i, Event.finishesAt i e = false ∧ Event.raisesAt i e = false := by
  have hnone : ∃ new : List (Event ε), s.log = s.log ++ new ∧
      ∀ e ∈ new, ∀ i, Event.finishesAt i e = false ∧ Event.raisesAt i e = false :=
    ⟨[], (List.append_nil _).symm, by simp⟩
  cases l with
  | check w =>
    simp only [step] at h
    split at h
    · exact Option.some.inj h ▸ hnone
    · cases h
  | increment w =>
    simp only [step] at h
    split at h
    · exact Option.some.inj h ▸ hnone
    · cases h
  | start w =>
    simp only [step] at h
    split at h
    · split at h
      · exact Option.some.inj h ▸ hnone
      · split at h
        · exact Option.some.inj h ▸ hnone
        · exact Option.some.inj h ▸ ⟨[.started ..], rfl, by simp [Event.finishesAt, Event.raisesAt]⟩
    · cases h
  | finish w thrown => exact absurd rfl (hl w thrown)
  | handle w =>
    simp only [step] at h
    split at h
    · split at h
      · exact Option.some.inj h ▸ hnone
      · split at h
        · exact Option.some.inj h ▸ hnone
        · exact Option.some.inj h ▸ hnone
    · cases h
  | cancelSession w =>
    simp only [step] at h
    split at h
    · exact Option.some.inj h ▸ ⟨[.cancelled w], rfl, by simp [Event.finishesAt, Event.raisesAt]⟩
    · cases h
  | request =>
    exact Option.some.inj h ▸ ⟨[.requested], rfl, by simp [Event.finishesAt, Event.raisesAt]⟩
  | link =>
    simp only [step] at h
    split at h
    · exact Option.some.inj h ▸ hnone
    · cases h
  | complete =>
    simp only [step] at h
    split at h
    · exact Option.some.inj h ▸ hnone
    · cases h

/-! ## Counting -/

/-- A new entry for one of the files is counted once. -/
theorem countP_insert {ν : Type} {fileId : S → κ} {m : Table κ ν} {v : ν} {file : S} {l : List S}
    (hids : (l.map fileId).Nodup) (hfile : file ∈ l) (hnone : m.lookup (fileId file) = none) :
    (l.countP fun other => ((m.insert (fileId file) v).lookup (fileId other)).isSome) =
      (l.countP fun other => (m.lookup (fileId other)).isSome) + 1 := by
  induction l with
  | nil => cases hfile
  | cons head tail ih =>
    rw [List.map_cons, List.nodup_cons] at hids
    rw [List.countP_cons, List.countP_cons]
    rcases List.mem_cons.mp hfile with rfl | htail
    · have hsame : ∀ other ∈ tail,
          ((m.insert (fileId file) v).lookup (fileId other)).isSome = true ↔
            (m.lookup (fileId other)).isSome = true := by
        intro other hother
        have hne : fileId other ≠ fileId file := fun heq =>
          hids.1 (heq ▸ List.mem_map_of_mem hother)
        rw [AList.lookup_insert_ne hne]
      rw [List.countP_congr hsame, AList.lookup_insert, hnone]
      simp
    · have hne : fileId head ≠ fileId file := fun heq =>
        hids.1 (heq ▸ List.mem_map_of_mem htail)
      rw [ih hids.2 htail, AList.lookup_insert_ne hne]
      omega

theorem countP_split (p q : S → Bool) (l : List S) :
    l.countP (fun a => p a || (!p a && q a)) = l.countP p + (l.filter fun a => !p a).countP q := by
  induction l with
  | nil => rfl
  | cons a l ih =>
    rw [List.countP_cons, List.countP_cons, ih, List.filter_cons]
    cases hp : p a <;> cases hq : q a <;> simp [hq] <;> omega

theorem countP_mem {fileId : S → κ} {skipped : List κ} {p : S → Bool} {l : List S}
    (h : ∀ file ∈ l, p file = true ↔ fileId file ∈ skipped) :
    l.countP p = l.countP fun file => fileId file ∈ skipped :=
  List.countP_congr fun file hfile => by rw [h file hfile, decide_eq_true_eq]

/-! ## The invariant -/

section Invariant

variable {c : Transfer S κ} {outer₀ : Bool} {s t : SendState κ R}

/-- The uploads that ended are those of the pool's log, each noted one has its entry, and the
counter counts the entries. -/
structure SendInv (c : Transfer S κ) (outer₀ : Bool) (s : SendState κ R) : Prop where
  pool : Inv c.call outer₀ s.pool
  finishes : ∀ i, s.pool.log.countP (Event.finishesAt i) =
    s.uploads.countP fun u => u.index = i && u.thrown.isNone
  raises : ∀ i, s.pool.log.countP (Event.raisesAt i) =
    s.uploads.countP fun u => u.index = i && u.thrown.isSome
  sent : ∀ i file, c.pending[i]? = some file → ∀ r,
    s.sent.lookup (c.fileId file) = some r ↔ ∃ u ∈ s.uploads, u.index = i ∧ u.note = some r
  keys : ∀ id r, s.sent.lookup id = some r → ∃ file ∈ c.pending, c.fileId file = id
  terminal : s.terminal = c.preflight.terminal +
    c.pending.countP fun file => (s.sent.lookup (c.fileId file)).isSome

theorem SendInv.start (c : Transfer S κ) (outer₀ : Bool) :
    SendInv c outer₀ (c.start outer₀ : SendState κ R) where
  pool := ⟨.begin outer₀ c.call, .begin c.call outer₀, .begin c.call outer₀⟩
  finishes _ := rfl
  raises _ := rfl
  sent _ _ _ _ := by simp [Transfer.start]
  keys _ _ h := by simp [Transfer.start] at h
  terminal := by simp [Transfer.start]

/-- A file that is being uploaded is one of the files, and no upload of it has ended. -/
theorem SendInv.running (hinv : SendInv c outer₀ s) {w index : Nat}
    (h : s.pool.workers[w]? = some (.running index)) :
    index < c.pending.length ∧ ∀ u ∈ s.uploads, u.index ≠ index := by
  have hruns : 0 < s.pool.workers.countP (Phase.runs index) :=
    List.countP_pos_iff.mpr ⟨_, List.mem_of_getElem? h, by simp [Phase.runs]⟩
  have hended := hinv.pool.counted.ended index
  have hstarted := hinv.pool.started_le_one index
  have hfinishes := hinv.finishes index
  have hraises := hinv.raises index
  refine ⟨?_, fun u hu hindex => ?_⟩
  · by_contra hlt
    have hvalid := hinv.pool.counted.valid index (Nat.not_lt.mp hlt)
    omega
  · cases hthrown : u.thrown with
    | none =>
      have hpos : 0 < s.uploads.countP fun u => u.index = index && u.thrown.isNone :=
        List.countP_pos_iff.mpr ⟨u, hu, by simp [hindex, hthrown]⟩
      omega
    | some e =>
      have hpos : 0 < s.uploads.countP fun u => u.index = index && u.thrown.isSome :=
        List.countP_pos_iff.mpr ⟨u, hu, by simp [hindex, hthrown]⟩
      omega

theorem pending_nodup (hids : (c.sources.map c.fileId).Nodup) : (c.pending.map c.fileId).Nodup :=
  hids.sublist (List.Sublist.map c.fileId List.filter_sublist)

/-- The log after the end of an item. -/
theorem log_of_finish {T ε : Type} {call : Call T ε} {pool pool' : Pool ε} {w index : Nat}
    {thrown : Option ε} (h : pool.workers[w]? = some (.running index))
    (hstep : step call pool (.finish w thrown) = some pool') :
    pool'.log = pool.log ++ [thrown.elim (.finished w index) fun e => .raised w index e] := by
  simp only [step, h] at hstep
  cases thrown with
  | none => exact Option.some.inj hstep ▸ rfl
  | some e => exact Option.some.inj hstep ▸ rfl

theorem SendInv.upload (hids : (c.sources.map c.fileId).Nodup) (hinv : SendInv c outer₀ s)
    {w : Nat} {u : Upload R} {pool : Pool SendException}
    (hfit : c.call.items.length + min c.call.items.length c.call.maxWorkers.toNat ≤ 2 ^ 31)
    (h : s.pool.workers[w]? = some (.running u.index))
    (hstep : step c.call s.pool (.finish w u.thrown) = some pool) :
    SendInv c outer₀ (c.noted s pool u) := by
  obtain ⟨hlt, hfresh⟩ := hinv.running h
  obtain ⟨file, hfile⟩ : ∃ file, c.pending[u.index]? = some file :=
    ⟨_, List.getElem?_eq_getElem hlt⟩
  have hlog := log_of_finish h hstep
  have hpool := inv_step hfit hinv.pool hstep
  have hfinishes : ∀ i, pool.log.countP (Event.finishesAt i) =
      (s.uploads ++ [u]).countP fun u => u.index = i && u.thrown.isNone := by
    intro i
    rw [hlog, List.countP_append, List.countP_append, hinv.finishes i]
    cases hthrown : u.thrown <;> simp [Event.finishesAt, hthrown]
  have hraises : ∀ i, pool.log.countP (Event.raisesAt i) =
      (s.uploads ++ [u]).countP fun u => u.index = i && u.thrown.isSome := by
    intro i
    rw [hlog, List.countP_append, List.countP_append, hinv.raises i]
    cases hthrown : u.thrown <;> simp [Event.raisesAt, hthrown]
  have hpending := pending_nodup hids
  have hnone : s.sent.lookup (c.fileId file) = none := by
    rw [Option.eq_none_iff_forall_ne_some]
    intro r hr
    obtain ⟨v, hv, hindex, -⟩ := (hinv.sent _ _ hfile r).mp hr
    exact hfresh v hv hindex
  cases hnote : u.note with
  | none =>
    have hnoted : c.noted s pool u = { s with pool, uploads := s.uploads ++ [u] } := by
      simp only [Transfer.noted, hnote]
    rw [hnoted]
    refine ⟨hpool, hfinishes, hraises, fun i other hother r => ?_, hinv.keys, hinv.terminal⟩
    rw [hinv.sent i other hother r]
    simp [or_and_right, exists_or, hnote]
  | some result =>
    have hnoted : c.noted s pool u =
        { s with
          pool
          uploads := s.uploads ++ [u]
          sent := s.sent.insert (c.fileId file) result
          terminal := s.terminal + 1 } := by
      simp only [Transfer.noted, hnote, hfile]
    rw [hnoted]
    refine ⟨hpool, hfinishes, hraises, fun i other hother r => ?_, fun id r hr => ?_, ?_⟩
    · by_cases hi : i = u.index
      · subst hi
        obtain rfl := Option.some.inj (hfile.symm.trans hother)
        rw [AList.lookup_insert]
        constructor
        · intro hr
          exact ⟨u, by simp, rfl, hnote.trans hr⟩
        · rintro ⟨v, hv, hindex, hr⟩
          rcases List.mem_append.mp hv with hv | hv
          · exact absurd hindex (hfresh v hv)
          · rw [List.mem_singleton.mp hv, hnote] at hr
            exact hr
      · have hne : c.fileId other ≠ c.fileId file := by
          intro heq
          have hi' := (List.getElem?_eq_some_iff.mp hother).1
          have hmap : (c.pending.map c.fileId)[i]? = (c.pending.map c.fileId)[u.index]? := by
            rw [List.getElem?_map, List.getElem?_map, hother, hfile, Option.map_some, heq]
            rfl
          exact hi ((List.getElem?_inj (by simpa using hi') hpending).mp hmap)
        rw [AList.lookup_insert_ne hne, hinv.sent i other hother r]
        simp [or_and_right, exists_or, Ne.symm hi]
    · by_cases hid : id = c.fileId file
      · exact ⟨file, List.mem_of_getElem? hfile, hid.symm⟩
      · rw [AList.lookup_insert_ne hid] at hr
        exact hinv.keys id r hr
    · rw [countP_insert hpending (List.mem_of_getElem? hfile) hnone, hinv.terminal]
      rfl

theorem sendInv_step (hids : (c.sources.map c.fileId).Nodup)
    (hfit : c.call.items.length + min c.call.items.length c.call.maxWorkers.toNat ≤ 2 ^ 31)
    {l : Transfer.SendLabel R} (hinv : SendInv c outer₀ s) (hstep : c.sendStep s l = some t) :
    SendInv c outer₀ t ∧ ∀ u ∈ s.uploads, u ∈ t.uploads := by
  cases l with
  | pool l =>
    by_cases hfinish : ∃ w thrown, l = .finish w thrown
    · obtain ⟨w, thrown, rfl⟩ := hfinish
      cases hstep
    · have hl : ∀ w thrown, l ≠ .finish w thrown := fun w thrown h => hfinish ⟨w, thrown, h⟩
      have hmap : (step c.call s.pool l).map (fun pool => { s with pool }) = some t := by
        cases l with
        | finish w thrown => exact absurd rfl (hl w thrown)
        | _ => exact hstep
      obtain ⟨pool, hpool, rfl⟩ := Option.map_eq_some_iff.mp hmap
      obtain ⟨new, hlog, hnew⟩ := log_of_step hpool hl
      have hnone : ∀ f : Event SendException → Bool, (∀ e ∈ new, f e = false) →
          pool.log.countP f = s.pool.log.countP f := by
        intro f hf
        have hzero : new.countP f = 0 :=
          List.countP_eq_zero.mpr fun e he => by simp [hf e he]
        rw [hlog, List.countP_append, hzero, Nat.add_zero]
      refine ⟨⟨inv_step hfit hinv.pool hpool, fun i => ?_, fun i => ?_, hinv.sent, hinv.keys,
        hinv.terminal⟩, fun _ => id⟩
      · rw [hnone _ fun e he => (hnew e he i).1]
        exact hinv.finishes i
      · rw [hnone _ fun e he => (hnew e he i).2]
        exact hinv.raises i
  | upload w outcome =>
    simp only [Transfer.sendStep] at hstep
    split at hstep
    · rename_i index hrunning
      obtain ⟨pool, hpool, rfl⟩ := Option.map_eq_some_iff.mp hstep
      refine ⟨hinv.upload hids hfit hrunning hpool, fun u hu => ?_⟩
      unfold Transfer.noted
      dsimp only
      split <;> exact List.mem_append_left _ hu
    · cases hstep

theorem sendInv_of_run (hids : (c.sources.map c.fileId).Nodup)
    (hfit : c.call.items.length + min c.call.items.length c.call.maxWorkers.toNat ≤ 2 ^ 31)
    (hrun : Run c.sendStep (fun _ _ => True) (c.start outer₀) s) : SendInv c outer₀ s :=
  hrun.invariant (.start c outer₀) fun _ _ _ hinv _ hstep => (sendInv_step hids hfit hinv hstep).1

theorem uploads_of_run (hids : (c.sources.map c.fileId).Nodup)
    (hfit : c.call.items.length + min c.call.items.length c.call.maxWorkers.toNat ≤ 2 ^ 31)
    (hinv : SendInv c outer₀ s) (hrun : Run c.sendStep (fun _ _ => True) s t) :
    SendInv c outer₀ t ∧ ∀ u ∈ s.uploads, u ∈ t.uploads := by
  refine hrun.invariant (I := fun t => SendInv c outer₀ t ∧ ∀ u ∈ s.uploads, u ∈ t.uploads)
    ⟨hinv, fun _ => id⟩ fun t₁ l t₂ hmid _ hstep => ?_
  obtain ⟨hnext, hkeep⟩ := sendInv_step hids hfit hmid.1 hstep
  exact ⟨hnext, fun u hu => hkeep u (hmid.2 u hu)⟩

end Invariant

/-! ## The results -/

section Results

variable {c : Transfer S κ} {outer₀ : Bool} {s t : SendState κ R}

/-- The selection has at most 1000 files with different IDs, and the preflight knows just the files
it skips. -/
structure Transfer.Ready (c : Transfer S κ) : Prop where
  count : c.sources.length ≤ MaxQueuedFiles
  ids : (c.sources.map c.fileId).Nodup
  results : ∀ id, (c.preflight.results.lookup id).isSome = true ↔ id ∈ c.preflight.skipped
  terminal : c.preflight.terminal = c.sources.countP fun file => c.fileId file ∈ c.preflight.skipped

theorem Transfer.Ready.fits (h : c.Ready) :
    c.call.items.length + min c.call.items.length c.call.maxWorkers.toNat ≤ 2 ^ 31 := by
  have hpending : c.call.items.length ≤ c.sources.length := List.length_filter_le ..
  have hcount := h.count
  have hmin := Nat.min_le_left c.call.items.length c.call.maxWorkers.toNat
  simp only [MaxQueuedFiles] at hcount
  omega

theorem mem_pending {file : S} :
    file ∈ c.pending ↔ file ∈ c.sources ∧ c.fileId file ∉ c.preflight.skipped := by
  simp [Transfer.pending]

/-- A file has one result: from the preflight when it was skipped, otherwise from its upload. -/
theorem result_of_skipped (hinv : SendInv c outer₀ s) {file : S}
    (hskipped : c.fileId file ∈ c.preflight.skipped) :
    c.result s file = (c.preflight.results.lookup (c.fileId file)).map .skipped := by
  have hnone : s.sent.lookup (c.fileId file) = none := by
    rw [Option.eq_none_iff_forall_ne_some]
    intro r hr
    obtain ⟨other, hother, hid⟩ := hinv.keys _ r hr
    exact (mem_pending.mp hother).2 (hid ▸ hskipped)
  rw [Transfer.result, hnone]
  rfl

theorem result_of_pending (hready : c.Ready) {file : S} (hfile : file ∈ c.pending) :
    c.result s file = (s.sent.lookup (c.fileId file)).map .sent := by
  have hnone : c.preflight.results.lookup (c.fileId file) = none := by
    have hnot := (mem_pending.mp hfile).2
    rw [← hready.results, Bool.not_eq_true, Option.isSome_eq_false_iff, Option.isNone_iff_eq_none]
      at hnot
    exact hnot
  rw [Transfer.result, hnone, Option.map_none, Option.or_none]

theorem result_isSome (hready : c.Ready) (hinv : SendInv c outer₀ s) {file : S}
    (hfile : file ∈ c.sources) :
    (c.result s file).isSome = (decide (c.fileId file ∈ c.preflight.skipped) ||
      (!decide (c.fileId file ∈ c.preflight.skipped) &&
        (s.sent.lookup (c.fileId file)).isSome)) := by
  by_cases hskipped : c.fileId file ∈ c.preflight.skipped
  · rw [result_of_skipped hinv hskipped, Option.isSome_map,
      (hready.results _).mpr hskipped]
    simp [hskipped]
  · rw [result_of_pending hready (mem_pending.mpr ⟨hfile, hskipped⟩), Option.isSome_map]
    simp [hskipped]

/-- The counter counts the files that have a result. -/
theorem terminal_eq (hready : c.Ready) (hinv : SendInv c outer₀ s) :
    s.terminal = c.sources.countP fun file => (c.result s file).isSome := by
  have hpending : c.pending =
      c.sources.filter fun file => !decide (c.fileId file ∈ c.preflight.skipped) := by
    simp [Transfer.pending]
  rw [hinv.terminal, hready.terminal, hpending, ← countP_split]
  exact List.countP_congr fun file hfile => by rw [result_isSome hready hinv hfile]

/-- The result of a file that was not skipped is what its worker noted. -/
theorem result_sent_iff (hready : c.Ready) (hinv : SendInv c outer₀ s) {file : S}
    {r : SendResult R} : file ∈ c.pending → (c.result s file = some (.sent r) ↔
      ∃ u ∈ s.uploads, c.pending[u.index]? = some file ∧ u.note = some r) := by
  intro hfile
  obtain ⟨i, hi⟩ := List.mem_iff_getElem?.mp hfile
  rw [result_of_pending hready hfile]
  have hmap : (s.sent.lookup (c.fileId file)).map FileResult.sent = some (.sent r) ↔
      s.sent.lookup (c.fileId file) = some r := by
    cases s.sent.lookup (c.fileId file) <;> simp
  rw [hmap, hinv.sent i file hi r]
  constructor
  · rintro ⟨u, hu, rfl, hnote⟩
    exact ⟨u, hu, hi, hnote⟩
  · rintro ⟨u, hu, hindex, hnote⟩
    have hlt := (List.getElem?_eq_some_iff.mp hi).1
    have hpending : c.pending.Nodup := (pending_nodup hready.ids).of_map _
    exact ⟨u, hu, ((List.getElem?_inj hlt hpending).mp (hi.trans hindex.symm)).symm, hnote⟩

/-- A result never changes. -/
theorem result_kept (hready : c.Ready) (hinv : SendInv c outer₀ s)
    (hrun : Run c.sendStep (fun _ _ => True) s t) {file : S} (hfile : file ∈ c.sources)
    {x : FileResult R} (h : c.result s file = some x) : c.result t file = some x := by
  obtain ⟨hinv', hkeep⟩ := uploads_of_run hready.ids hready.fits hinv hrun
  by_cases hskipped : c.fileId file ∈ c.preflight.skipped
  · rwa [result_of_skipped hinv' hskipped, ← result_of_skipped hinv hskipped]
  · have hpending := mem_pending.mpr ⟨hfile, hskipped⟩
    have hsent := h
    rw [result_of_pending hready hpending] at hsent
    obtain ⟨r, -, rfl⟩ := Option.map_eq_some_iff.mp hsent
    obtain ⟨u, hu, hindex, hnote⟩ := (result_sent_iff hready hinv hpending).mp h
    exact (result_sent_iff hready hinv' hpending).mpr ⟨u, hkeep u hu, hindex, hnote⟩

theorem note_of_returned {u : Upload R} (h : u.thrown = none) :
    ∃ r, u.note = some r ∧ r ≠ .cancelled := by
  obtain ⟨index, outer, outcome⟩ := u
  cases outcome with
  | ok r => exact ⟨_, rfl, by simp⟩
  | error e =>
    cases e with
    | operationCanceled => cases outer <;> cases h
    | client e =>
      cases hfatal : isSessionFatal e with
      | true => simp [Upload.thrown, sendWorker, hfatal] at h
      | false => exact ⟨.failed e.code, by simp [Upload.note, sendWorker, hfatal], by simp⟩
    | file => exact ⟨_, rfl, by simp⟩
    | other => cases h

theorem note_uploaded_iff {u : Upload R} {r : R} :
    u.note = some (.uploaded r) ↔ u.outcome = .ok r := by
  obtain ⟨index, outer, outcome⟩ := u
  cases outcome with
  | ok r' => simp [Upload.note, sendWorker]
  | error e =>
    cases e with
    | operationCanceled => cases outer <;> simp [Upload.note, sendWorker]
    | client e => cases hfatal : isSessionFatal e <;> simp [Upload.note, sendWorker, hfatal]
    | file => simp [Upload.note, sendWorker]
    | other => simp [Upload.note, sendWorker]

/-- When the pool has returned, every file has a result of its own. -/
theorem results_of_returned (hready : c.Ready) (hinv : SendInv c outer₀ s)
    (h : s.pool.outcome = some .returned) {file : S} (hfile : file ∈ c.sources) :
    ∃ x, c.result s file = some x ∧ x ≠ .sent .cancelled := by
  by_cases hskipped : c.fileId file ∈ c.preflight.skipped
  · obtain ⟨filename, hname⟩ := Option.isSome_iff_exists.mp ((hready.results _).mpr hskipped)
    refine ⟨.skipped filename, ?_, by simp⟩
    rw [result_of_skipped hinv hskipped, hname]
    rfl
  · have hpending := mem_pending.mpr ⟨hfile, hskipped⟩
    obtain ⟨i, hi⟩ := List.mem_iff_getElem?.mp hpending
    have hlt : i < c.call.items.length := (List.getElem?_eq_some_iff.mp hi).1
    have hone := (hinv.pool.returned h hlt).2
    rw [hinv.finishes] at hone
    obtain ⟨u, hu, hends⟩ := List.countP_pos_iff.mp (hone ▸ Nat.one_pos)
    simp only [Bool.and_eq_true, decide_eq_true_eq, Option.isNone_iff_eq_none] at hends
    obtain ⟨r, hnote, hr⟩ := note_of_returned hends.2
    refine ⟨.sent r, ?_, fun heq => hr (FileResult.sent.inj heq)⟩
    exact (result_sent_iff hready hinv hpending).mpr ⟨u, hu, hends.1 ▸ hi, hnote⟩

/-- A file is uploaded at most once. -/
theorem uploads_le_one (hinv : SendInv c outer₀ s) (i : Nat) :
    s.uploads.countP (fun u => u.index = i) ≤ 1 := by
  have hended := hinv.pool.counted.ended i
  have hstarted := hinv.pool.started_le_one i
  have hfinishes := hinv.finishes i
  have hraises := hinv.raises i
  have hsplit : s.uploads.countP (fun u => u.index = i) =
      (s.uploads.countP fun u => u.index = i && u.thrown.isNone) +
        s.uploads.countP fun u => u.index = i && u.thrown.isSome := by
    rw [List.countP_eq_countP_filter_add _ _ fun u : Upload R => u.thrown.isNone,
      List.countP_filter, List.countP_filter]
    simp
  omega

/-- After an exception the pool does not return. -/
theorem thrown_of_returned (hinv : SendInv c outer₀ s) (h : s.pool.outcome = some .returned) :
    ∀ u ∈ s.uploads, u.thrown = none := by
  intro u hu
  by_contra hthrown
  have hraises := hinv.raises u.index
  have hpos : 0 < s.uploads.countP fun v => v.index = u.index && v.thrown.isSome :=
    List.countP_pos_iff.mpr ⟨u, hu, by simpa [Option.isSome_iff_ne_none] using hthrown⟩
  rw [← hraises] at hpos
  obtain ⟨e, he, hat⟩ := List.countP_pos_iff.mp hpos
  cases e with
  | raised w j x =>
      obtain ⟨y, -, -, hthrew, -⟩ := hinv.pool.ends_with_exception he h
      cases hthrew
  | _ => cases hat

theorem returned_of_summary {files : List (FileResult R)}
    (h : c.sendResult s = some (.summary false files)) :
    s.pool.outcome = some .returned ∧
      files = c.sources.map fun file =>
        (c.result s file).getD (.sent (.failed "not_processed")) := by
  obtain ⟨outcome, houtcome, hresult⟩ := Option.map_eq_some_iff.mp h
  cases outcome with
  | returned =>
    cases hresult
    exact ⟨houtcome, rfl⟩
  | threw e =>
    dsimp only at hresult
    split at hresult <;> cases hresult
  | canceled => cases hresult
  | badWorkers => cases hresult

end Results

/-! ## A transfer -/

/-- A preflight that returned leaves what the transfer needs. -/
theorem ready_of_run {p : PreflightExchange} {sources : List TransferSource} {parallelFiles : Int}
    {out : NativeDuplicatePreflight.Outcome ByteString} (hvalid : Validated sources)
    (hids : (sources.map PreflightExchange.fileId).Nodup) (h : p.run sources = some out) :
    Transfer.Ready ⟨sources, PreflightExchange.fileId, parallelFiles, out⟩ := by
  obtain ⟨-, -, hfold⟩ := (PreflightExchange.run_eq_some_iff hids).mp h
  obtain ⟨hskipped, hresults, hterminal, -⟩ := NativeDuplicatePreflight.recordSkips_spec hfold
  refine ⟨hvalid.count.2, hids, fun id => ?_, ?_⟩
  · rw [hresults, hskipped]
    simp
  · have hcount : out.terminal = sources.countP fun file =>
        (p.result file).disposition == .skip && p.candidate file := by
      rw [hterminal, PreflightExchange.countP_items, List.length_map, List.filter_filter,
        ← List.countP_eq_length_filter, Nat.zero_add]
    refine hcount.trans (countP_mem fun file hfile => ?_)
    rw [hskipped, PreflightExchange.mem_items_skip, List.mem_map]
    constructor
    · intro hboth
      rw [Bool.and_eq_true] at hboth
      exact .inr ⟨file, List.mem_filter.mpr ⟨List.mem_filter.mpr ⟨hfile, hboth.2⟩, hboth.1⟩, rfl⟩
    · rintro (hnil | ⟨other, hother, hid⟩)
      · cases hnil
      · obtain ⟨hcandidate, hskip⟩ := List.mem_filter.mp hother
        obtain ⟨hsource, hcandidate⟩ := List.mem_filter.mp hcandidate
        rw [← List.inj_on_of_nodup_map hids hsource hfile hid, hskip, hcandidate]
        rfl

/-- Without a preflight nothing is skipped. -/
theorem ready_of_none {sources : List TransferSource} {parallelFiles : Int}
    (hvalid : Validated sources) (hids : (sources.map PreflightExchange.fileId).Nodup) :
    Transfer.Ready ⟨sources, PreflightExchange.fileId, parallelFiles, {}⟩ where
  count := hvalid.count.2
  ids := hids
  results id := by simp
  terminal := by simp

/-- **Every file of a transfer is accounted for**, in every state and for every interleaving of the
workers, of a cancellation and of what the uploads return or throw.  The counter is the number of
files with a result; a file is uploaded at most once, is noted as uploaded just when that upload
returned, and keeps its result.  A summary of a transfer that was not cancelled gives every file the
result that was noted for it, none of them as not processed or cancelled, and no upload threw past
its worker. -/
theorem send_summary {sources : List TransferSource} {parallelFiles : Int}
    {out : NativeDuplicatePreflight.Outcome ByteString} {outer₀ : Bool} {s : SendState ByteString R}
    (hvalid : validateSources sources = none)
    (hids : (sources.map PreflightExchange.fileId).Nodup)
    (hpreflight : out = {} ∨ ∃ p : PreflightExchange, p.run sources = some out)
    (hrun : Run (Transfer.sendStep ⟨sources, PreflightExchange.fileId, parallelFiles, out⟩)
      (fun _ _ => True)
      (Transfer.start ⟨sources, PreflightExchange.fileId, parallelFiles, out⟩ outer₀) s) :
    let c : Transfer TransferSource ByteString :=
      ⟨sources, PreflightExchange.fileId, parallelFiles, out⟩
    (s.terminal = sources.countP fun file => (c.result s file).isSome) ∧
      (∀ i, s.uploads.countP (fun u => u.index = i) ≤ 1) ∧
      (∀ file ∈ sources, ∀ r, c.result s file = some (.sent (.uploaded r)) ↔
        ∃ u ∈ s.uploads, c.pending[u.index]? = some file ∧ u.outcome = .ok r) ∧
      (∀ t, Run c.sendStep (fun _ _ => True) s t →
        ∀ file ∈ sources, ∀ x, c.result s file = some x → c.result t file = some x) ∧
      ∀ files, c.sendResult s = some (.summary false files) →
        s.terminal = sources.length ∧ files.map some = sources.map (c.result s) ∧
          .sent .cancelled ∉ files ∧ ∀ u ∈ s.uploads, u.thrown = none := by
  intro c
  have hready : c.Ready := by
    rcases hpreflight with rfl | ⟨p, hp⟩
    · exact ready_of_none (validated_of_none hvalid) hids
    · exact ready_of_run (validated_of_none hvalid) hids hp
  have hinv := sendInv_of_run hready.ids hready.fits hrun
  refine ⟨terminal_eq hready hinv, uploads_le_one hinv, fun file hfile r => ?_,
    fun t htail file hfile x => result_kept hready hinv htail hfile, fun files hfiles => ?_⟩
  · by_cases hpending : file ∈ c.pending
    · rw [result_sent_iff hready hinv hpending]
      simp only [note_uploaded_iff]
    · have hskipped : c.fileId file ∈ c.preflight.skipped := by
        by_contra hnot
        exact hpending (mem_pending.mpr ⟨hfile, hnot⟩)
      rw [result_of_skipped hinv hskipped]
      refine iff_of_false (fun h => ?_) ?_
      · obtain ⟨name, -, hname⟩ := Option.map_eq_some_iff.mp h
        cases hname
      · rintro ⟨u, -, hindex, -⟩
        exact hpending (List.mem_of_getElem? hindex)
  · obtain ⟨hreturned, rfl⟩ := returned_of_summary hfiles
    have hall : ∀ file ∈ c.sources, ∃ x, c.result s file = some x ∧ x ≠ .sent .cancelled :=
      fun file hfile => results_of_returned hready hinv hreturned hfile
    refine ⟨?_, ?_, ?_, thrown_of_returned hinv hreturned⟩
    · rw [terminal_eq hready hinv, List.countP_eq_length]
      intro file hfile
      obtain ⟨x, hx, -⟩ := hall file hfile
      exact Option.isSome_iff_exists.mpr ⟨x, hx⟩
    · rw [List.map_map]
      refine List.map_congr_left fun file hfile => ?_
      obtain ⟨x, hx, -⟩ := hall file hfile
      rw [Function.comp_apply, hx, Option.getD_some]
    · intro hcancelled
      obtain ⟨file, hfile, heq⟩ := List.mem_map.mp hcancelled
      obtain ⟨x, hx, hne⟩ := hall file hfile
      rw [hx, Option.getD_some] at heq
      exact hne heq

/-- Two files and one worker; the second file cannot be read. -/
def twoFiles : Transfer TransferSource ByteString := ⟨twoSources, PreflightExchange.fileId, 1, {}⟩

theorem send_summary_two :
    ∃ s : SendState ByteString Nat, s.pool.outcome = some .returned ∧ s.terminal = 2 := by
  obtain ⟨s, hrun, hs⟩ := Run.exists_of_exec twoFiles.sendStep (P := fun _ _ => True)
    (fun _ _ => true) (fun s : SendState ByteString Nat => decide (s.pool.outcome = some .returned))
    (twoFiles.start false)
    [.pool (.check 0), .pool (.increment 0), .pool (.start 0), .upload 0 (.ok 7),
      .pool (.check 0), .pool (.increment 0), .pool (.start 0), .upload 0 (.error .file),
      .pool (.check 0), .pool (.increment 0), .pool (.start 0), .pool .complete]
    (fun _ _ _ => trivial) (by decide +kernel)
  have hreturned : s.pool.outcome = some .returned := of_decide_eq_true hs
  have hsummary := send_summary (by decide +kernel) (by decide +kernel) (.inl rfl) hrun
  have hresult : twoFiles.sendResult s =
      some (twoFiles.summary s false (.failed "not_processed")) := by
    rw [Transfer.sendResult, hreturned, Option.map_some]
  exact ⟨s, hreturned, (hsummary.2.2.2.2 _ hresult).1⟩

end LocalMediaTransfer.BoundedWorkerPool
