import LocalMediaTransfer.Server.FileWriter.Model

/-!
# The mapped window of a temporary file

Model of `FileWriter::writeMappedRange` and `FileWriter::releaseMappedView`
(`io/FileWriter.cpp`), which `Writer.writeMappedRange` takes as one positional write.  The two
platform branches of the source differ only in the calls they make; the offset of a view is
handed over in the two halves of `MapViewOfFile`.

The log records every call and every unsigned subtraction, so that what each of them was given
can be stated.  A failing call is the answer of a fault oracle, asked with the number of log
entries so far.

* `releaseMappedView_spec` — a release changes no byte, and flushes a dirty window first.
* `writeRound_spec` — what one round of the loop does, whatever fails.
* `writeMappedRange_prefix` — for all faults the loop ends, having written a part of the data
  from its start, all of it when it reports success.
* `mapped_range_written` — **the whole range is written, and nothing else**, when no call fails.
-/

set_option autoImplicit false

namespace LocalMediaTransfer

open Lib

/-- The constant `MappingWindowBytes`. -/
def MappingWindowBytes : Nat := 67108864

/-- `struct MappingWindow`; a view is the file offset that its first byte shows. -/
structure MappingWindow where
  view : Option Nat := none
  offset : Nat := 0
  length : Nat := 0
  dirty : Bool := false
  deriving DecidableEq, Repr

/-- The calls of the source and its subtractions. -/
inductive MappingEvent where
  /-- `MapViewOfFile` or `mmap`, asked for while the next byte to write is `cursor`. -/
  | map (offset length cursor : Nat) (ok : Bool)
  /-- `FlushViewOfFile` or `msync`. -/
  | flush (offset length : Nat) (ok : Bool)
  /-- `UnmapViewOfFile` or `munmap` of a window with this `dirty` flag. -/
  | unmap (offset length : Nat) (dirty ok : Bool)
  /-- Bytes copied through the view. -/
  | copy (offset length : Nat)
  /-- `a - b` in `uint64_t`. -/
  | subtract (a b : Nat)
  deriving DecidableEq, Repr

/-- A temporary file with its mapping window, and what was done to it. -/
structure MappedFile where
  content : ByteString
  window : MappingWindow := {}
  log : List MappingEvent := []
  deriving DecidableEq, Repr

/-- Which calls fail; a failing copy may have written some bytes before its fault. -/
structure MappingFaults where
  mapFails : Nat → Bool := fun _ => false
  flushFails : Nat → Bool := fun _ => false
  unmapFails : Nat → Bool := fun _ => false
  copyFails : Nat → Option Nat := fun _ => none

namespace MappedFile

def push (s : MappedFile) (e : MappingEvent) : MappedFile :=
  { s with log := s.log ++ [e] }

/-- A subtraction of the source, recorded. -/
def subtract (s : MappedFile) (a b : Nat) : Nat × MappedFile :=
  (sub64 a b, s.push (.subtract a b))

/-- `releaseMappedView`; a view that cannot be unmapped stays with the window. -/
def releaseMappedView (os : MappingFaults) (flush : Bool) (s : MappedFile) : Bool × MappedFile :=
  match s.window.view with
  | none => (true, s)
  | some _ =>
      let flushing := flush && s.window.dirty
      let flushed := !(flushing && os.flushFails s.log.length)
      let s₁ := if flushing then s.push (.flush s.window.offset s.window.length flushed) else s
      let unmapped := !os.unmapFails s₁.log.length
      let s₂ := s₁.push (.unmap s.window.offset s.window.length s.window.dirty unmapped)
      if unmapped then (flushed, { s₂ with window := {} }) else (false, s₂)

/-- Where a view starts that is mapped from the two `DWORD` halves of an offset. -/
def viewBase (alignedOffset : Nat) : Nat :=
  (alignedOffset >>> 32) % 2 ^ 32 * 2 ^ 32 + (alignedOffset &&& 0xFFFFFFFF)

/-- The mapping of the window around `currentOffset`. -/
def mapWindow (os : MappingFaults) (granularity totalSize currentOffset : Nat) (s : MappedFile) :
    Bool × MappedFile :=
  let alignedOffset := currentOffset / granularity * granularity
  let (rest, s₁) := s.subtract totalSize alignedOffset
  let length := min MappingWindowBytes rest
  let mapped := !os.mapFails s₁.log.length
  let s₂ := s₁.push (.map alignedOffset length currentOffset mapped)
  if mapped then
    (true, { s₂ with window :=
      { s.window with view := some (viewBase alignedOffset), offset := alignedOffset, length } })
  else (false, { s₂ with window := { s.window with view := none, offset := 0, length := 0 } })

/-- `containsOffset`. -/
def containsOffset (window : MappingWindow) (currentOffset : Nat) : Bool :=
  window.view.isSome && decide (window.offset ≤ currentOffset) &&
    decide (currentOffset < add64 window.offset window.length)

/-- The first half of a round: the window is made to contain the cursor. -/
def moveWindow (os : MappingFaults) (granularity totalSize currentOffset : Nat) (s : MappedFile) :
    Bool × MappedFile :=
  if containsOffset s.window currentOffset then (true, s)
  else
    match s.releaseMappedView os true with
    | (false, s') => (false, s')
    | (true, s') => s'.mapWindow os granularity totalSize currentOffset

/-- The second half of a round: copy as far as the window reaches.  The number of copied bytes
is returned, or nothing when the copy failed. -/
def copyRound (os : MappingFaults) (currentOffset remaining : Nat) (currentData : ByteString)
    (s : MappedFile) : Option Nat × MappedFile :=
  let (viewDelta, s₁) := s.subtract currentOffset s.window.offset
  let (room, s₂) := s₁.subtract s.window.length viewDelta
  let copyBytes := min remaining room
  let at_ := s.window.view.getD 0 + viewDelta
  match os.copyFails s₂.log.length with
  | some k =>
      let bytes := (currentData.take copyBytes).take k
      let s₃ := { s₂.push (.copy at_ bytes.length) with
        content := overwrite s.content at_ bytes }
      (none, (s₃.releaseMappedView os false).2)
  | none =>
      let bytes := currentData.take copyBytes
      (some copyBytes, { s₂.push (.copy at_ bytes.length) with
        content := overwrite s.content at_ bytes
        window := { s.window with dirty := true } })

/-- The loop of `writeMappedRange`; the fuel counts rounds. -/
def writeLoop (os : MappingFaults) (granularity totalSize : Nat) :
    Nat → Nat → Nat → ByteString → MappedFile → Option (Bool × MappedFile)
  | fuel, currentOffset, remaining, currentData, s =>
    if remaining = 0 then some (true, s)
    else
      match fuel with
      | 0 => none
      | fuel + 1 =>
        match s.moveWindow os granularity totalSize currentOffset with
        | (false, s') => some (false, s')
        | (true, s') =>
          match s'.copyRound os currentOffset remaining currentData with
          | (none, s'') => some (false, s'')
          | (some copyBytes, s'') =>
              let (rest, s₃) := s''.subtract remaining copyBytes
              writeLoop os granularity totalSize fuel (add64 currentOffset copyBytes) rest
                (currentData.drop copyBytes) s₃

/-- `writeMappedRange`; the pointer and the size of the source are one byte string.  There is
fuel for as many rounds as there are bytes, and no answer when the loop needs more. -/
def writeMappedRange (os : MappingFaults) (granularity totalSize offset : Nat)
    (data : ByteString) (s : MappedFile) : Option (Bool × MappedFile) :=
  writeLoop os granularity totalSize data.length offset data.length data s

/-! ## What a call does to the file -/

end MappedFile

/-- The window shows a part of the file, at the offset it records. -/
def MappingWindow.Inside (total : Nat) (w : MappingWindow) : Prop :=
  ∀ base, w.view = some base → base = w.offset ∧ w.offset + w.length ≤ total

/-- The window shows the byte at `cursor`. -/
structure MappingWindow.Holds (total cursor : Nat) (w : MappingWindow) : Prop where
  view : w.view = some w.offset
  inside : w.offset + w.length ≤ total
  lower : w.offset ≤ cursor
  upper : cursor < w.offset + w.length

/-- What a call may be asked for, and a subtraction without a borrow. -/
def MappingEvent.Sound (granularity total : Nat) : MappingEvent → Prop
  | .map offset length cursor _ =>
      granularity ∣ offset ∧ 0 < length ∧ offset + length ≤ total ∧
        offset ≤ cursor ∧ cursor < offset + length
  | .subtract a b => b ≤ a
  | _ => True

/-- Every dirty window is flushed, and then at once unmapped. -/
def FlushedFirst (log : List MappingEvent) : Prop :=
  ∀ i offset length ok, log[i]? = some (.unmap offset length true ok) →
    ∃ j, i = j + 1 ∧ log[j]? = some (.flush offset length true)

/-- No call fails. -/
structure MappingFaults.Clean (os : MappingFaults) : Prop where
  map : ∀ n, os.mapFails n = false
  flush : ∀ n, os.flushFails n = false
  unmap : ∀ n, os.unmapFails n = false
  copy : ∀ n, os.copyFails n = none

theorem FlushedFirst.append {l₁ l₂ : List MappingEvent} (h₁ : FlushedFirst l₁)
    (h₂ : FlushedFirst l₂) : FlushedFirst (l₁ ++ l₂) := by
  intro i offset length ok hi
  rcases Nat.lt_or_ge i l₁.length with hlt | hge
  · rw [List.getElem?_append_left hlt] at hi
    obtain ⟨j, hj, hflush⟩ := h₁ i offset length ok hi
    refine ⟨j, hj, ?_⟩
    rw [List.getElem?_append_left (by omega)]
    exact hflush
  · rw [List.getElem?_append_right hge] at hi
    obtain ⟨j, hj, hflush⟩ := h₂ _ offset length ok hi
    refine ⟨l₁.length + j, by omega, ?_⟩
    rw [List.getElem?_append_right (by omega), Nat.add_sub_cancel_left]
    exact hflush

theorem flushedFirst_single {e : MappingEvent} (h : ∀ o l ok, e ≠ .unmap o l true ok) :
    FlushedFirst [e] := by
  intro i offset length ok hi
  cases i with
  | zero => exact absurd (by simpa using hi) (h offset length ok)
  | succ i => simp at hi

theorem flushedFirst_pair (offset length : Nat) (dirty ok : Bool) :
    FlushedFirst [.flush offset length true, .unmap offset length dirty ok] := by
  intro i o l ok' hi
  match i with
  | 0 => simp at hi
  | 1 =>
      simp only [List.getElem?_cons_succ, List.getElem?_cons_zero, Option.some.injEq,
        MappingEvent.unmap.injEq] at hi
      obtain ⟨rfl, rfl, -, -⟩ := hi
      exact ⟨0, rfl, rfl⟩
  | i + 2 => simp at hi

namespace MappedFile

/-- From `s` to `s'` only sound calls were made, and without failures no window was lost. -/
def Traced (os : MappingFaults) (granularity total : Nat) (s s' : MappedFile) : Prop :=
  ∃ new, s'.log = s.log ++ new ∧ (∀ e ∈ new, e.Sound granularity total) ∧
    (os.Clean → FlushedFirst new)

variable {os : MappingFaults} {granularity total : Nat} {s s' s'' : MappedFile}

theorem Traced.of_log_eq (h : s'.log = s.log) : Traced os granularity total s s' :=
  ⟨[], by simp [h], by simp, fun _ => by simp [FlushedFirst]⟩

theorem Traced.trans (h₁ : Traced os granularity total s s')
    (h₂ : Traced os granularity total s' s'') : Traced os granularity total s s'' := by
  obtain ⟨new₁, hlog₁, hsound₁, hflush₁⟩ := h₁
  obtain ⟨new₂, hlog₂, hsound₂, hflush₂⟩ := h₂
  refine ⟨new₁ ++ new₂, by rw [hlog₂, hlog₁, List.append_assoc], ?_, ?_⟩
  · intro e he
    exact (List.mem_append.mp he).elim (hsound₁ e) (hsound₂ e)
  · intro hclean
    exact (hflush₁ hclean).append (hflush₂ hclean)

theorem Traced.single {e : MappingEvent} (hlog : s'.log = s.log ++ [e])
    (hsound : e.Sound granularity total) (h : ∀ o l ok, e ≠ .unmap o l true ok) :
    Traced os granularity total s s' :=
  ⟨[e], hlog, by simpa using hsound, fun _ => flushedFirst_single h⟩

/-- What `releaseMappedView` answers and leaves. -/
structure Released (os : MappingFaults) (granularity total : Nat) (s : MappedFile)
    (r : Bool × MappedFile) : Prop where
  content : r.2.content = s.content
  window : r.2.window = s.window ∨ r.2.window = {}
  traced : Traced os granularity total s r.2
  gone : r.1 = true → r.2.window.view = none
  ok : os.Clean → r.1 = true

/-- A release changes no byte, leaves the window gone or as it was, and flushes a dirty window
before it is unmapped. -/
theorem releaseMappedView_spec {flush : Bool} (hflush : flush = true ∨ ¬ os.Clean) :
    Released os granularity total s (s.releaseMappedView os flush) := by
  unfold releaseMappedView
  split
  · rename_i hview
    exact ⟨rfl, .inl rfl, .of_log_eq rfl, fun _ => hview, fun _ => rfl⟩
  · cases hflushing : flush && s.window.dirty with
    | false =>
        have hsingle : os.Clean → ∀ ok, FlushedFirst
            [.unmap s.window.offset s.window.length s.window.dirty ok] := by
          intro hclean ok
          have hflush' : flush = true := hflush.resolve_right (fun h => h hclean)
          have hdirty : s.window.dirty = false := by simpa [hflush'] using hflushing
          apply flushedFirst_single
          simp [hdirty]
        cases hunmap : os.unmapFails s.log.length with
        | false =>
            simp only [push, Bool.false_and, Bool.not_false, if_true, Bool.false_eq_true, if_false,
              hunmap]
            exact ⟨rfl, .inr rfl, ⟨_, rfl, by simp [MappingEvent.Sound], fun h => hsingle h true⟩,
              fun _ => rfl, fun _ => rfl⟩
        | true =>
            simp only [push, Bool.false_and, Bool.not_true, if_false, Bool.false_eq_true, hunmap]
            exact ⟨rfl, .inl rfl, ⟨_, rfl, by simp [MappingEvent.Sound], fun h => hsingle h false⟩,
              (fun h => nomatch h), fun h => by simp [h.unmap] at hunmap⟩
    | true =>
        have hpair : os.Clean → ∀ ok, FlushedFirst
            [.flush s.window.offset s.window.length (!os.flushFails s.log.length),
              .unmap s.window.offset s.window.length s.window.dirty ok] := by
          intro hclean ok
          rw [hclean.flush]
          exact flushedFirst_pair _ _ _ ok
        cases hunmap : os.unmapFails (s.log.length + 1) with
        | false =>
            simp only [push, Bool.true_and, Bool.not_false, if_true, List.length_append,
              List.length_singleton, hunmap, List.append_assoc, List.singleton_append]
            exact ⟨rfl, .inr rfl, ⟨_, rfl, by simp [MappingEvent.Sound], fun h => hpair h true⟩,
              fun _ => rfl, fun h => by simp [h.flush]⟩
        | true =>
            simp only [push, Bool.true_and, Bool.not_true, if_true, List.length_append,
              List.length_singleton, hunmap, List.append_assoc, List.singleton_append,
              Bool.false_eq_true, if_false]
            exact ⟨rfl, .inl rfl, ⟨_, rfl, by simp [MappingEvent.Sound], fun h => hpair h false⟩,
              (fun h => nomatch h), fun h => by simp [h.unmap] at hunmap⟩

/-! ## Moving the window -/

theorem viewBase_eq {alignedOffset : Nat} (h : alignedOffset < 2 ^ 64) :
    viewBase alignedOffset = alignedOffset := by
  have hhigh : alignedOffset >>> 32 = alignedOffset / 2 ^ 32 :=
    Nat.shiftRight_eq_div_pow alignedOffset 32
  have hlow : alignedOffset &&& 0xFFFFFFFF = alignedOffset % 2 ^ 32 :=
    Nat.and_two_pow_sub_one_eq_mod alignedOffset 32
  unfold viewBase
  rw [hhigh, hlow]
  omega

/-- What the first half of a round leaves. -/
structure Moved (os : MappingFaults) (granularity total cursor : Nat) (s : MappedFile)
    (r : Bool × MappedFile) : Prop where
  content : r.2.content = s.content
  inside : r.2.window.Inside total
  traced : Traced os granularity total s r.2
  holds : r.1 = true → r.2.window.Holds total cursor
  ok : os.Clean → r.1 = true

variable {cursor : Nat}

/-- The window mapped around a cursor in the file is aligned, not empty, in the file and holds
the cursor. -/
theorem mapWindow_spec (hpos : 0 < granularity) (hwindow : granularity ≤ MappingWindowBytes)
    (htotal : total < 2 ^ 64) (hcursor : cursor < total) :
    Moved os granularity total cursor s (s.mapWindow os granularity total cursor) := by
  have hlower : cursor / granularity * granularity ≤ cursor := Nat.div_mul_le_self _ _
  have hupper : cursor < cursor / granularity * granularity + granularity :=
    Nat.lt_div_mul_add hpos
  have hdvd : granularity ∣ cursor / granularity * granularity := Nat.dvd_mul_left _ _
  unfold mapWindow
  generalize cursor / granularity * granularity = aligned at hlower hupper hdvd ⊢
  have hrest : sub64 total aligned = total - aligned := sub64_of_le (by omega) htotal
  have hbase : viewBase aligned = aligned := viewBase_eq (by omega)
  have hlength : min MappingWindowBytes (total - aligned) ≤ total - aligned := min_le_right _ _
  have hreach : cursor < aligned + min MappingWindowBytes (total - aligned) := by
    rcases min_choice MappingWindowBytes (total - aligned) with h | h <;> omega
  have htraced : ∀ (ok : Bool) (w : MappingWindow), Traced os granularity total s
      { ((s.subtract total aligned).2.push (.map aligned
          (min MappingWindowBytes (total - aligned)) cursor ok)) with window := w } := by
    intro ok w
    have hfirst : Traced os granularity total s (s.subtract total aligned).2 := by
      apply Traced.single rfl
      · change aligned ≤ total
        omega
      · simp
    apply hfirst.trans
    apply Traced.single rfl
    · exact ⟨hdvd, by omega, by omega, hlower, hreach⟩
    · simp
  simp only [subtract, hrest] at htraced ⊢
  split
  · refine ⟨rfl, ?_, htraced _ _, fun _ => ?_, fun _ => rfl⟩
    · intro base hview
      simp only [Option.some.injEq] at hview
      subst hview
      exact ⟨hbase, by simp only; omega⟩
    · exact ⟨by simp only [hbase], by simp only; omega, hlower, hreach⟩
  · rename_i hfails
    refine ⟨rfl, ?_, htraced _ _, (fun h => nomatch h), fun h => ?_⟩
    · intro base hview
      simp at hview
    · simp [h.map] at hfails

theorem holds_of_containsOffset {w : MappingWindow} (hinside : w.Inside total)
    (htotal : total < 2 ^ 64) (h : containsOffset w cursor = true) : w.Holds total cursor := by
  simp only [containsOffset, Bool.and_eq_true, decide_eq_true_eq, Option.isSome_iff_exists] at h
  obtain ⟨⟨⟨base, hview⟩, hlower⟩, hupper⟩ := h
  obtain ⟨rfl, hfits⟩ := hinside base hview
  rw [add64_of_lt (by omega)] at hupper
  exact ⟨hview, hfits, hlower, hupper⟩

theorem moveWindow_spec (hpos : 0 < granularity) (hwindow : granularity ≤ MappingWindowBytes)
    (htotal : total < 2 ^ 64) (hcursor : cursor < total) (hinside : s.window.Inside total) :
    Moved os granularity total cursor s (s.moveWindow os granularity total cursor) := by
  unfold moveWindow
  split
  · rename_i hcontains
    exact ⟨rfl, hinside, .of_log_eq rfl,
      fun _ => holds_of_containsOffset hinside htotal hcontains, fun _ => rfl⟩
  · have hrel : Released os granularity total s (s.releaseMappedView os true) :=
      releaseMappedView_spec (.inl rfl)
    have hleft : (s.releaseMappedView os true).2.window.Inside total := by
      rcases hrel.window with h | h
      · rw [h]
        exact hinside
      · rw [h]
        simp [MappingWindow.Inside]
    generalize s.releaseMappedView os true = r at hrel hleft ⊢
    obtain ⟨ok, s'⟩ := r
    cases ok with
    | false => exact ⟨hrel.content, hleft, hrel.traced, (fun h => nomatch h), hrel.ok⟩
    | true =>
        have hmap : Moved os granularity total cursor s'
            (s'.mapWindow os granularity total cursor) :=
          mapWindow_spec hpos hwindow htotal hcursor
        exact ⟨hmap.content.trans hrel.content, hmap.inside, hrel.traced.trans hmap.traced,
          hmap.holds, hmap.ok⟩

/-! ## Copying -/

/-- What a copy of a whole or failed round leaves: `n` bytes of the data are at the cursor. -/
structure Copied (os : MappingFaults) (granularity total cursor : Nat) (data : ByteString)
    (s : MappedFile) (n : Nat) (s' : MappedFile) : Prop where
  bound : n ≤ data.length
  content : s'.content = overwrite s.content cursor (data.take n)
  inside : s'.window.Inside total
  traced : Traced os granularity total s s'

theorem copyRound_spec (os : MappingFaults) (granularity : Nat) {data : ByteString}
    (htotal : total < 2 ^ 64)
    (hholds : s.window.Holds total cursor) (hne : data ≠ []) :
    ∃ n, Copied os granularity total cursor data s n (s.copyRound os cursor data.length data).2 ∧
      (∀ m, (s.copyRound os cursor data.length data).1 = some m → m = n ∧ 0 < n) ∧
      (os.Clean → (s.copyRound os cursor data.length data).1 = some n) := by
  obtain ⟨hview, hinside, hlower, hupper⟩ := hholds
  have hdelta : sub64 cursor s.window.offset = cursor - s.window.offset :=
    sub64_of_le hlower (by omega)
  have hroom : sub64 s.window.length (cursor - s.window.offset) =
      s.window.length - (cursor - s.window.offset) := sub64_of_le (by omega) (by omega)
  have hat : s.window.offset + (cursor - s.window.offset) = cursor := by omega
  have hdata : 0 < data.length := List.length_pos_iff.mpr hne
  have hcopy : ∀ k, Traced os granularity total s
      (((s.push (.subtract cursor s.window.offset)).push
        (.subtract s.window.length (cursor - s.window.offset))).push (.copy cursor k)) := by
    intro k
    refine ⟨_, by simp only [push, List.append_assoc]; rfl, ?_, ?_⟩
    · simp only [List.cons_append, List.nil_append, List.forall_mem_cons, MappingEvent.Sound]
      exact ⟨hlower, by omega, trivial, by simp⟩
    · intro _
      apply (flushedFirst_single (by simp)).append
      apply (flushedFirst_single (by simp)).append
      exact flushedFirst_single (by simp)
  have hwindow : s.window.Inside total := by
    intro base hbase
    rw [hview] at hbase
    exact ⟨(Option.some.inj hbase).symm, hinside⟩
  unfold copyRound
  simp only [subtract, hdelta, hroom, hview, Option.getD_some, hat]
  have hsome : 0 < min data.length (s.window.length - (cursor - s.window.offset)) := by
    apply Nat.lt_min.mpr
    omega
  have hbound : min data.length (s.window.length - (cursor - s.window.offset)) ≤ data.length :=
    min_le_left _ _
  generalize min data.length (s.window.length - (cursor - s.window.offset)) = m at hsome hbound ⊢
  cases hk : os.copyFails _ with
  | some k =>
      have htake : (data.take m).take k = data.take ((data.take m).take k).length := by
        simp only [List.length_take, List.take_take]
        rw [List.take_eq_take_iff]
        omega
      have hrel (w : MappedFile) : Released os granularity total w (w.releaseMappedView os false) :=
        releaseMappedView_spec (.inr fun h => by simp [h.copy] at hk)
      refine ⟨((data.take m).take k).length, ?_, by simp, fun h => by simp [h.copy] at hk⟩
      refine ⟨by simp, ?_, ?_, ?_⟩
      · rw [(hrel _).content, ← htake]
      · rcases (hrel _).window with h | h
        · rw [h]
          exact hwindow
        · rw [h]
          simp [MappingWindow.Inside]
      · exact (hcopy _).trans (hrel _).traced
  | none =>
      refine ⟨m, ⟨hbound, rfl, ?_, hcopy _⟩, ?_, fun _ => rfl⟩
      · intro base hbase
        apply hwindow base
        rw [hview]
        exact hbase
      · intro m' hm'
        exact ⟨(Option.some.inj hm').symm, hsome⟩

/-- Writing on from where a copy ended. -/
theorem Copied.trans {data : ByteString} {n m : Nat}
    (hlength : cursor + data.length ≤ s.content.length)
    (h₁ : Copied os granularity total cursor data s n s')
    (h₂ : Copied os granularity total (cursor + n) (data.drop n) s' m s'') :
    Copied os granularity total cursor data s (n + m) s'' := by
  have hn := h₁.bound
  have hm := h₂.bound
  rw [List.length_drop] at hm
  have hsplit : data.take (n + m) = data.take n ++ (data.drop n).take m := List.take_add
  have hlen : (data.take n).length = n := List.length_take_of_le hn
  refine ⟨by omega, ?_, h₂.inside, h₁.traced.trans h₂.traced⟩
  have hjoin : overwrite (overwrite s.content cursor (data.take n))
      (cursor + (data.take n).length) ((data.drop n).take m) =
      overwrite s.content cursor (data.take n ++ (data.drop n).take m) :=
    overwrite_overwrite (by omega)
  rw [hlen] at hjoin
  rw [h₂.content, h₁.content, hjoin, hsplit]

/-! ## The loop -/

/-- With a round for every byte the loop ends; whatever fails, it has written a part of the data
from its start, and all of it when it reports success. -/
theorem writeLoop_spec (hpos : 0 < granularity) (hwindow : granularity ≤ MappingWindowBytes)
    (htotal : total < 2 ^ 64) (fuel : Nat) :
    ∀ (cursor : Nat) (data : ByteString) (s : MappedFile), data.length ≤ fuel →
      cursor + data.length ≤ total → s.content.length = total → s.window.Inside total →
      ∃ ok n s', writeLoop os granularity total fuel cursor data.length data s = some (ok, s') ∧
        Copied os granularity total cursor data s n s' ∧ (ok = true → n = data.length) ∧
        (os.Clean → ok = true) := by
  induction fuel with
  | zero =>
      intro cursor data s hfuel _ _ hinside
      have hnil : data = [] := List.eq_nil_of_length_eq_zero (by omega)
      subst hnil
      refine ⟨true, 0, s, rfl, ⟨le_rfl, overwrite_nil.symm, hinside, .of_log_eq rfl⟩, ?_, ?_⟩
      · simp
      · simp
  | succ fuel ih =>
      intro cursor data s hfuel hfits hlen hinside
      unfold writeLoop
      split
      · rename_i hzero
        have hnil : data = [] := List.eq_nil_of_length_eq_zero hzero
        subst hnil
        exact ⟨true, 0, s, rfl, ⟨le_rfl, overwrite_nil.symm, hinside, .of_log_eq rfl⟩,
          fun _ => rfl, fun _ => rfl⟩
      · rename_i hsome
        have hne : data ≠ [] := fun h => hsome (by simp [h])
        have hmove : Moved os granularity total cursor s
            (s.moveWindow os granularity total cursor) :=
          moveWindow_spec hpos hwindow htotal (by omega) hinside
        generalize s.moveWindow os granularity total cursor = r at hmove ⊢
        obtain ⟨moved, s₁⟩ := r
        cases moved with
        | false =>
            refine ⟨false, 0, s₁, rfl, ⟨by omega, ?_, hmove.inside, hmove.traced⟩, ?_, ?_⟩
            · exact hmove.content.trans overwrite_nil.symm
            · simp
            · exact fun h => hmove.ok h
        | true =>
            obtain ⟨n, hcopied, hround, hclean⟩ :=
              copyRound_spec os granularity htotal (hmove.holds rfl) hne
            have hcopied₀ : Copied os granularity total cursor data s n
                (s₁.copyRound os cursor data.length data).2 :=
              ⟨hcopied.bound, hcopied.content.trans (by rw [hmove.content]), hcopied.inside,
                hmove.traced.trans hcopied.traced⟩
            simp only
            generalize s₁.copyRound os cursor data.length data = r at hround hclean hcopied₀ ⊢
            obtain ⟨copied, s₂⟩ := r
            cases copied with
            | none =>
                exact ⟨false, n, s₂, rfl, hcopied₀, (fun h => nomatch h),
                  fun h => nomatch hclean h⟩
            | some m =>
                obtain ⟨rfl, hm⟩ := hround m rfl
                have hbound := hcopied₀.bound
                have hrest : sub64 data.length m = (data.drop m).length := by
                  rw [List.length_drop, sub64_of_le hbound (by omega)]
                have hnext : add64 cursor m = cursor + m := add64_of_lt (by omega)
                have htake : (data.take m).length = m := List.length_take_of_le hbound
                simp only [subtract, hrest, hnext]
                have hlen₂ : s₂.content.length = total := by
                  rw [hcopied₀.content, length_overwrite (by rw [htake, hlen]; omega), hlen]
                obtain ⟨ok, k, s', hrun, hk, hall, hok⟩ := ih (cursor + m) (data.drop m)
                  (s₂.push (.subtract data.length m)) (by rw [List.length_drop]; omega)
                  (by rw [List.length_drop]; omega) hlen₂ hcopied₀.inside
                refine ⟨ok, m + k, s', hrun, ?_, ?_, hok⟩
                · have hpushed : Copied os granularity total cursor data s m
                      (s₂.push (.subtract data.length m)) :=
                    ⟨hbound, hcopied₀.content, hcopied₀.inside,
                      hcopied₀.traced.trans (.single rfl hbound (by simp))⟩
                  exact hpushed.trans (by omega) hk
                · intro htrue
                  rw [hall htrue, List.length_drop]
                  omega

/-- Whatever fails, the loop ends and only bytes of the range were written, from its start on. -/
theorem writeMappedRange_prefix (os : MappingFaults) {offset : Nat} {data : ByteString}
    (hpos : 0 < granularity)
    (hwindow : granularity ≤ MappingWindowBytes) (htotal : total < 2 ^ 64)
    (hlen : s.content.length = total) (hinside : s.window.Inside total)
    (hfits : offset + data.length ≤ total) :
    ∃ ok n s', s.writeMappedRange os granularity total offset data = some (ok, s') ∧
      Copied os granularity total offset data s n s' ∧ (ok = true → n = data.length) ∧
      (os.Clean → ok = true) :=
  writeLoop_spec hpos hwindow htotal data.length offset data s le_rfl hfits hlen hinside

end MappedFile

/-- **The whole range is written, and nothing else.**  When no call fails, writing `data` at
`offset` ends, reports success and changes exactly the bytes of the range to the data.  Every
window mapped on the way is aligned, not empty, inside the file and holds the cursor, no
subtraction borrows, and a dirty window is flushed before it is unmapped. -/
theorem mapped_range_written {os : MappingFaults} {granularity total offset : Nat}
    {data : ByteString} {s : MappedFile} (hpow : ∃ k, granularity = 2 ^ k)
    (hwindow : granularity ≤ MappingWindowBytes) (htotal : total < 2 ^ 64)
    (hlen : s.content.length = total) (hinside : s.window.Inside total)
    (hfits : offset + data.length ≤ total) (hclean : os.Clean) :
    ∃ s' new, s.writeMappedRange os granularity total offset data = some (true, s') ∧
      s'.content = overwrite s.content offset data ∧ s'.log = s.log ++ new ∧
      (∀ e ∈ new, e.Sound granularity total) ∧ FlushedFirst new := by
  have hpos : 0 < granularity := by
    obtain ⟨k, rfl⟩ := hpow
    exact Nat.two_pow_pos k
  obtain ⟨ok, n, s', hrun, hcopied, hall, hok⟩ := MappedFile.writeMappedRange_prefix os
    hpos hwindow htotal hlen hinside hfits
  obtain rfl := hok hclean
  obtain rfl := hall rfl
  obtain ⟨new, hlog, hsound, hflush⟩ := hcopied.traced
  refine ⟨s', new, hrun, ?_, hlog, hsound, hflush hclean⟩
  rw [hcopied.content, List.take_length]

/-- A file of three bytes whose first byte was just written through a window of one byte. -/
def touchedFile : MappedFile where
  content := [1, 0, 0]
  window := { view := some 0, offset := 0, length := 1, dirty := true }

/-- Two bytes are written over the end of the window of an earlier call. -/
theorem mapped_range_written_across : ∃ s' new,
    touchedFile.writeMappedRange {} 1 3 1 [2, 3] = some (true, s') ∧
      s'.content = overwrite touchedFile.content 1 [2, 3] ∧ s'.log = touchedFile.log ++ new ∧
      (∀ e ∈ new, e.Sound 1 3) ∧ FlushedFirst new :=
  mapped_range_written ⟨0, rfl⟩ (by decide) (by decide) rfl
    (by intro base hbase; cases hbase; exact ⟨rfl, by decide⟩) (by decide)
    ⟨fun _ => rfl, fun _ => rfl, fun _ => rfl, fun _ => rfl⟩

/-- A window that cannot be unmapped: it is kept for the cleanup to try again, and nothing is
written although no map, flush or copy failed. -/
theorem unmap_failure_writes_nothing :
    ∃ os : MappingFaults, (∀ n, os.mapFails n = false) ∧ (∀ n, os.flushFails n = false) ∧
      (∀ n, os.copyFails n = none) ∧ touchedFile.content.length = 3 ∧
      touchedFile.window.Inside 3 ∧
      ∃ s', touchedFile.writeMappedRange os 1 3 1 [2, 3] = some (false, s') ∧
        s'.content ≠ overwrite touchedFile.content 1 [2, 3] := by
  refine ⟨{ unmapFails := fun _ => true }, fun _ => rfl, fun _ => rfl, fun _ => rfl, rfl, ?_, ?_⟩
  · intro base hbase
    cases hbase
    exact ⟨rfl, by decide⟩
  · exact ⟨_, rfl, by decide⟩

end LocalMediaTransfer
