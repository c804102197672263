import LocalMediaTransfer.Ios.Diagnostics.TransferDiagnostics

/-!
# The aggregates of the diagnostic report

Each counter of the report is kept as a running difference between a window's new record and the
one before it.  For every sequence of calls:

* `ReportCounter`, `DiagnosticWindow.counter` — the counters, and what a window counts for each.
* `Reflects` — the records of the report are the last checkpoints of the calls.
* `counter_eq_sum` — each counter is the sum over the windows, except that `preparedAssets` misses
  the counts with which the windows were begun.
* `aggregates_sum` — when the report's aggregates are the sums.
-/

set_option autoImplicit false

namespace LocalMediaTransfer

open Lib

/-! ## The counters -/

/-- The aggregate counters of the report. -/
inductive ReportCounter where
  | preparedFiles
  | preparedAssets
  | expandedFiles
  | discoveredBytes
  | selectedMediaBytes
  | additionalComponentsBytes
  | selectedMediaFiles
  | additionalComponentsFiles
  | plannedUploadBytes
  | preflightSkippedFiles
  | preflightSkippedBytes
  | filenameResolvedAppleFiles
  | filenameFallbackFiles
  | preflightSum (metric : { key : PreflightMetric // key ∈ summedMetrics })
  | windowCount
  | totalWindowDurationMs
  | windowsWithHashing
  | windowsWithBlockedNonCandidates
  | windowsWithAllUploadWorkersIdle
  | allUploadWorkersIdleDuringPreflightMs
  deriving DecidableEq

def TransferDiagnosticReport.counter (report : TransferDiagnosticReport) : ReportCounter → ℚ
  | .preparedFiles => report.preparedFiles
  | .preparedAssets => report.preparedAssets
  | .expandedFiles => report.expandedFiles
  | .discoveredBytes => report.discoveredBytes
  | .selectedMediaBytes => report.selectedMediaBytes
  | .additionalComponentsBytes => report.additionalComponentsBytes
  | .selectedMediaFiles => report.selectedMediaFiles
  | .additionalComponentsFiles => report.additionalComponentsFiles
  | .plannedUploadBytes => report.plannedUploadBytes
  | .preflightSkippedFiles => report.preflightSkippedFiles
  | .preflightSkippedBytes => report.preflightSkippedBytes
  | .filenameResolvedAppleFiles => report.filenameResolvedAppleFiles
  | .filenameFallbackFiles => report.filenameFallbackFiles
  | .preflightSum metric => report.preflight.metrics metric
  | .windowCount => report.preflight.windowCount
  | .totalWindowDurationMs => report.preflight.totalWindowDurationMs
  | .windowsWithHashing => report.preflight.windowsWithHashing
  | .windowsWithBlockedNonCandidates => report.preflight.windowsWithBlockedNonCandidates
  | .windowsWithAllUploadWorkersIdle => report.preflight.windowsWithAllUploadWorkersIdle
  | .allUploadWorkersIdleDuringPreflightMs =>
    report.preflight.allUploadWorkersIdleDuringPreflightMs

namespace DiagnosticWindow

variable (window : DiagnosticWindow)

/-- What a checkpointed window counts for. -/
def counter : ReportCounter → ℚ
  | .preparedFiles => window.preparedCount
  | .preparedAssets => window.selectedCount
  | .expandedFiles => window.preparedCount + window.failedCount
  | .discoveredBytes => window.discoveredBytes
  | .selectedMediaBytes => window.selectedMediaBytes
  | .additionalComponentsBytes => window.additionalComponentsBytes
  | .selectedMediaFiles => window.selectedMediaFiles
  | .additionalComponentsFiles => window.additionalComponentsFiles
  | .plannedUploadBytes => window.plannedUploadBytes
  | .preflightSkippedFiles => window.preflightSkippedFiles
  | .preflightSkippedBytes => window.preflightSkippedBytes
  | .filenameResolvedAppleFiles => window.appleFilenameCount
  | .filenameFallbackFiles => window.fallbackFilenameCount
  | .preflightSum metric => (window.preflight.getD {}).metrics metric
  | .windowCount => 1
  | .totalWindowDurationMs => window.preflightDurationMs
  | .windowsWithHashing => number (window.preflight.getD {}).hashes
  | .windowsWithBlockedNonCandidates => number (window.preflight.getD {}).blocks
  | .windowsWithAllUploadWorkersIdle => number (window.preflight.getD {}).idles
  | .allUploadWorkersIdleDuringPreflightMs =>
    (window.preflight.getD {}).allUploadWorkersIdleDuringPreflightMs

end DiagnosticWindow

namespace TransferDiagnostics

variable {diagnostics : TransferDiagnostics} {window completed previous : DiagnosticWindow}
  {calls : List DiagnosticCall} {call : DiagnosticCall} {windowIndex : Nat}
  {counter : ReportCounter} {now startedAt selectedCount : ℚ}

/-! ## What a checkpoint counts -/

/-- What the counter already holds of a record, when its window is checkpointed. -/
def countedOf (counter : ReportCounter) : Option DiagnosticWindow → ℚ
  | none => 0
  | some record =>
    if record.status = .preparing then
      if counter = .preparedAssets then record.selectedCount else 0
    else record.counter counter

/-- The record comes from a call of `beginWindow` or of `checkpointWindow`. -/
def Written (windowIndex : Nat) (record : DiagnosticWindow) : Prop :=
  (∃ count started, record = provisionalWindow windowIndex count started) ∨
    record.status = .ready ∧ record.preflight.isSome = true

theorem countWindow_new (report : TransferDiagnosticReport)
    (h : diagnostics.existing completed.windowIndex = none) :
    (diagnostics.countWindow completed report).counter counter =
      report.counter counter + completed.counter counter := by
  unfold countWindow before
  rw [h]
  cases counter with
  | preflightSum metric =>
    simp [TransferDiagnosticReport.counter, DiagnosticWindow.counter, accumulatePreflightSummary,
      emptyPreflightMetrics, metric.2]
  | _ =>
    simp [TransferDiagnosticReport.counter, DiagnosticWindow.counter, accumulatePreflightSummary,
      number, DiagnosticWindowPreflight.hashes, DiagnosticWindowPreflight.blocks,
      DiagnosticWindowPreflight.idles, emptyPreflightMetrics]

/-- A window that has begun has a record of zeros, but for its number of assets. -/
theorem countWindow_begun (report : TransferDiagnosticReport) {count started : ℚ}
    (h : diagnostics.existing completed.windowIndex =
      some (provisionalWindow completed.windowIndex count started)) :
    (diagnostics.countWindow completed report).counter counter =
      report.counter counter +
        (completed.counter counter - if counter = .preparedAssets then count else 0) := by
  unfold countWindow before
  rw [h]
  cases counter with
  | preflightSum metric =>
    simp [TransferDiagnosticReport.counter, DiagnosticWindow.counter, accumulatePreflightSummary,
      emptyPreflightMetrics, provisionalWindow, Option.filter, metric.2]
  | _ =>
    simp [TransferDiagnosticReport.counter, DiagnosticWindow.counter, accumulatePreflightSummary,
      number, DiagnosticWindowPreflight.hashes, DiagnosticWindowPreflight.blocks,
      DiagnosticWindowPreflight.idles, emptyPreflightMetrics, provisionalWindow, Option.filter]

/-- A repeated checkpoint takes back what the one before it counted. -/
theorem countWindow_again (report : TransferDiagnosticReport)
    (h : diagnostics.existing completed.windowIndex = some previous)
    (hready : previous.status = .ready) (hpreflight : previous.preflight.isSome = true) :
    (diagnostics.countWindow completed report).counter counter =
      report.counter counter + (completed.counter counter - previous.counter counter) := by
  obtain ⟨preflight, hp⟩ := Option.isSome_iff_exists.mp hpreflight
  unfold countWindow before
  rw [h]
  cases counter with
  | preflightSum metric =>
    simp [TransferDiagnosticReport.counter, DiagnosticWindow.counter, accumulatePreflightSummary,
      hready, hp, Option.filter, metric.2]
  | _ =>
    simp [TransferDiagnosticReport.counter, DiagnosticWindow.counter, accumulatePreflightSummary,
      hready, hp, Option.filter]

/-- **What a checkpoint counts.** -/
theorem countWindow_counter (counter : ReportCounter) (completed : DiagnosticWindow)
    (report : TransferDiagnosticReport)
    (h : ∀ record, diagnostics.existing completed.windowIndex = some record →
      Written completed.windowIndex record) :
    (diagnostics.countWindow completed report).counter counter =
      report.counter counter + (completed.counter counter -
        countedOf counter (diagnostics.existing completed.windowIndex)) := by
  cases hrecord : diagnostics.existing completed.windowIndex with
  | none => rw [countWindow_new report hrecord, countedOf, sub_zero]
  | some record =>
    rcases h record hrecord with ⟨count, started, rfl⟩ | ⟨hready, hpreflight⟩
    · rw [countWindow_begun report hrecord]
      rfl
    · rw [countWindow_again report hrecord hready hpreflight, countedOf, hready]
      rfl

theorem checkpointWindow_counter
    (h : ∀ record, diagnostics.existing window.windowIndex = some record →
      Written window.windowIndex record) :
    (diagnostics.checkpointWindow window now).report.counter counter =
      diagnostics.report.counter counter + (window.counter counter -
        countedOf counter (diagnostics.existing window.windowIndex)) := by
  have hcompleted : (diagnostics.completedWindow window now).counter counter =
      window.counter counter := by
    cases counter <;> rfl
  have hstored : (diagnostics.storeWindow (diagnostics.completedWindow window now)).report.counter
      counter = diagnostics.report.counter counter := by
    unfold storeWindow
    split <;> cases counter <;> rfl
  have hcount := countWindow_counter counter (diagnostics.completedWindow window now)
    (diagnostics.storeWindow (diagnostics.completedWindow window now)).report h
  rw [hcompleted, hstored] at hcount
  unfold checkpointWindow
  simp only
  split
  · refine Eq.trans ?_ hcount
    cases counter <;> rfl
  · exact hcount

/-! ## The records -/

/-- The table of positions fits the list of records. -/
structure Indexed (diagnostics : TransferDiagnostics) : Prop where
  lt : ∀ windowIndex i, diagnostics.windowIndexById.lookup windowIndex = some i →
    i < diagnostics.report.windows.length
  inj : ∀ windowIndex windowIndex' i, diagnostics.windowIndexById.lookup windowIndex = some i →
    diagnostics.windowIndexById.lookup windowIndex' = some i → windowIndex = windowIndex'

theorem Indexed.new (now : ℚ) : Indexed (new now) :=
  ⟨fun _ _ h => (Option.some_ne_none _ h.symm).elim,
    fun _ _ _ h => (Option.some_ne_none _ h.symm).elim⟩

/-- The record of a new window is put at the end. -/
theorem Indexed.push (h : Indexed diagnostics) (record : DiagnosticWindow) :
    Indexed (diagnostics.pushWindow record) ∧
      (diagnostics.pushWindow record).existing record.windowIndex = some record ∧
      ∀ other ≠ record.windowIndex,
        (diagnostics.pushWindow record).existing other = diagnostics.existing other := by
  have hwindows : (diagnostics.pushWindow record).report.windows =
      diagnostics.report.windows ++ [record] := rfl
  have htable : (diagnostics.pushWindow record).windowIndexById =
      diagnostics.windowIndexById.insert record.windowIndex diagnostics.report.windows.length := rfl
  refine ⟨⟨?_, ?_⟩, ?_, ?_⟩
  · intro other i hi
    rw [htable] at hi
    rw [hwindows, List.length_append, List.length_singleton]
    by_cases hother : other = record.windowIndex
    · rw [hother, AList.lookup_insert] at hi
      cases hi
      omega
    · rw [AList.lookup_insert_ne hother] at hi
      have hlt := h.lt other i hi
      omega
  · intro other other' i hi hi'
    rw [htable] at hi hi'
    by_cases hother : other = record.windowIndex <;> by_cases hother' : other' = record.windowIndex
    · rw [hother, hother']
    · rw [hother, AList.lookup_insert] at hi
      rw [AList.lookup_insert_ne hother'] at hi'
      cases hi
      exact absurd (h.lt other' _ hi') (lt_irrefl _)
    · rw [AList.lookup_insert_ne hother] at hi
      rw [hother', AList.lookup_insert] at hi'
      cases hi'
      exact absurd (h.lt other _ hi) (lt_irrefl _)
    · rw [AList.lookup_insert_ne hother] at hi
      rw [AList.lookup_insert_ne hother'] at hi'
      exact h.inj other other' i hi hi'
  · unfold existing
    rw [htable, AList.lookup_insert, Option.bind_some, hwindows]
    simp
  · intro other hother
    unfold existing
    rw [htable, AList.lookup_insert_ne hother, hwindows]
    cases hi : diagnostics.windowIndexById.lookup other with
    | none => rfl
    | some i =>
      have hlt := h.lt other i hi
      simp [List.getElem?_append_left hlt]

theorem storeWindow_indexed (completed : DiagnosticWindow) (h : Indexed diagnostics) :
    Indexed (diagnostics.storeWindow completed) ∧
      (diagnostics.storeWindow completed).existing completed.windowIndex = some completed ∧
      ∀ other ≠ completed.windowIndex,
        (diagnostics.storeWindow completed).existing other = diagnostics.existing other := by
  unfold storeWindow
  split
  · rename_i i hi
    have hlt := h.lt completed.windowIndex i hi
    refine ⟨⟨?_, h.inj⟩, ?_, ?_⟩
    · intro other j hj
      simp only [List.length_set]
      exact h.lt other j hj
    · simp [existing, hi, hlt]
    · intro other hother
      unfold existing
      cases hj : diagnostics.windowIndexById.lookup other with
      | none => rfl
      | some j =>
        have hne : i ≠ j := by
          rintro rfl
          exact hother (h.inj _ _ _ hj hi)
        simp [List.getElem?_set_ne hne]
  · exact h.push completed

theorem checkpointWindow_indexed (window : DiagnosticWindow) (now : ℚ) (h : Indexed diagnostics) :
    Indexed (diagnostics.checkpointWindow window now) ∧
      (diagnostics.checkpointWindow window now).existing window.windowIndex =
        some (diagnostics.completedWindow window now) ∧
      ∀ other ≠ window.windowIndex,
        (diagnostics.checkpointWindow window now).existing other = diagnostics.existing other := by
  have hstored := storeWindow_indexed (diagnostics.completedWindow window now) h
  unfold checkpointWindow
  simp only
  split <;> exact ⟨⟨hstored.1.lt, hstored.1.inj⟩, hstored.2⟩

end TransferDiagnostics

/-! ## The calls -/

namespace DiagnosticCall

@[simp] def windowIndex : DiagnosticCall → Nat
  | .beginWindow windowIndex _ _ => windowIndex
  | .checkpointWindow window _ => window.windowIndex

/-- The values checkpointed for the window. -/
def checkpointOf (windowIndex : Nat) : DiagnosticCall → Option DiagnosticWindow
  | .beginWindow .. => none
  | .checkpointWindow window _ => if window.windowIndex = windowIndex then some window else none

/-- The number of assets with which the call begins its window. -/
@[simp] def begunCount : DiagnosticCall → ℚ
  | .beginWindow _ selectedCount _ => selectedCount
  | .checkpointWindow .. => 0

end DiagnosticCall

namespace TransferDiagnostics

variable {diagnostics : TransferDiagnostics} {window record : DiagnosticWindow}
  {calls : List DiagnosticCall} {call : DiagnosticCall} {windowIndex : Nat}
  {counter : ReportCounter} {now startedAt selectedCount : ℚ}

/-- The windows that the calls are about. -/
def windowsOf (calls : List DiagnosticCall) : Finset Nat :=
  (calls.map DiagnosticCall.windowIndex).toFinset

/-- The values with which the window was checkpointed last. -/
def lastCheckpoint (calls : List DiagnosticCall) (windowIndex : Nat) : Option DiagnosticWindow :=
  (calls.filterMap (DiagnosticCall.checkpointOf windowIndex)).getLast?

/-- The number of assets that the first call about the window gave, if it was `beginWindow`. -/
def begunCount (calls : List DiagnosticCall) (windowIndex : Nat) : ℚ :=
  ((calls.find? fun call => call.windowIndex = windowIndex).map
    DiagnosticCall.begunCount).getD 0

theorem windowsOf_snoc : windowsOf (calls ++ [call]) = insert call.windowIndex
    (windowsOf calls) := by
  ext i
  simp [windowsOf]

theorem mem_windowsOf :
    windowIndex ∈ windowsOf calls ↔ ∃ call ∈ calls, call.windowIndex = windowIndex := by
  simp [windowsOf]

theorem lastCheckpoint_checkpoint :
    lastCheckpoint (calls ++ [.checkpointWindow window now]) windowIndex =
      if window.windowIndex = windowIndex then some window
      else lastCheckpoint calls windowIndex := by
  unfold lastCheckpoint
  rw [List.filterMap_append]
  split <;> simp [DiagnosticCall.checkpointOf, *]

theorem lastCheckpoint_begin {begun : Nat} :
    lastCheckpoint (calls ++ [.beginWindow begun selectedCount now]) windowIndex =
      lastCheckpoint calls windowIndex := by
  unfold lastCheckpoint
  rw [List.filterMap_append]
  simp [DiagnosticCall.checkpointOf]

theorem lastCheckpoint_of_notMem (h : windowIndex ∉ windowsOf calls) :
    lastCheckpoint calls windowIndex = none := by
  unfold lastCheckpoint
  rw [List.getLast?_eq_none_iff, List.filterMap_eq_nil_iff]
  intro call hcall
  cases call with
  | beginWindow => rfl
  | checkpointWindow window now =>
    refine if_neg fun heq => h (mem_windowsOf.mpr ⟨_, hcall, heq⟩)

theorem begunCount_of_mem (call : DiagnosticCall) (h : windowIndex ∈ windowsOf calls) :
    begunCount (calls ++ [call]) windowIndex = begunCount calls windowIndex := by
  obtain ⟨first, hmem, hfirst⟩ := mem_windowsOf.mp h
  have hsome : (calls.find? fun call => call.windowIndex = windowIndex).isSome = true :=
    List.find?_isSome.mpr ⟨first, hmem, decide_eq_true hfirst⟩
  obtain ⟨found, hfound⟩ := Option.isSome_iff_exists.mp hsome
  unfold begunCount
  rw [List.find?_append, hfound]
  rfl

theorem begunCount_new (call : DiagnosticCall) (h : call.windowIndex ∉ windowsOf calls) :
    begunCount (calls ++ [call]) call.windowIndex = call.begunCount := by
  have hnone : (calls.find? fun old => old.windowIndex = call.windowIndex) = none := by
    refine List.find?_eq_none.mpr fun old hold hindex => h ?_
    exact mem_windowsOf.mpr ⟨old, hold, of_decide_eq_true hindex⟩
  unfold begunCount
  rw [List.find?_append, hnone]
  simp

theorem lastCheckpoint_other (hother : windowIndex ≠ call.windowIndex) :
    lastCheckpoint (calls ++ [call]) windowIndex = lastCheckpoint calls windowIndex := by
  cases call with
  | beginWindow => exact lastCheckpoint_begin
  | checkpointWindow window now =>
    rw [lastCheckpoint_checkpoint]
    exact if_neg (Ne.symm hother)

/-! ## The records reflect the calls -/

/-- The record of a window after the calls. -/
inductive Recorded (calls : List DiagnosticCall) (windowIndex : Nat) :
    Option DiagnosticWindow → Prop
  | absent (hnew : windowIndex ∉ windowsOf calls) : Recorded calls windowIndex none
  | begun (started : ℚ) (hmem : windowIndex ∈ windowsOf calls)
      (hlast : lastCheckpoint calls windowIndex = none) :
      Recorded calls windowIndex
        (some (provisionalWindow windowIndex (begunCount calls windowIndex) started))
  | checkpointed (window record : DiagnosticWindow) (hmem : windowIndex ∈ windowsOf calls)
      (hlast : lastCheckpoint calls windowIndex = some window) (hready : record.status = .ready)
      (hpreflight : record.preflight.isSome = true)
      (hcounter : ∀ counter, record.counter counter = window.counter counter) :
      Recorded calls windowIndex (some record)

structure Reflects (calls : List DiagnosticCall) (diagnostics : TransferDiagnostics) : Prop where
  indexed : Indexed diagnostics
  recorded : ∀ windowIndex, Recorded calls windowIndex (diagnostics.existing windowIndex)

theorem Recorded.written (h : Recorded calls windowIndex (some record)) :
    Written windowIndex record := by
  cases h with
  | begun started => exact .inl ⟨_, _, rfl⟩
  | checkpointed window _ _ _ hready hpreflight => exact .inr ⟨hready, hpreflight⟩

/-- A call about another window changes nothing. -/
theorem Recorded.other {stored : Option DiagnosticWindow} (h : Recorded calls windowIndex stored)
    (hother : windowIndex ≠ call.windowIndex) : Recorded (calls ++ [call]) windowIndex stored := by
  have hmem : windowIndex ∈ windowsOf (calls ++ [call]) ↔ windowIndex ∈ windowsOf calls := by
    rw [windowsOf_snoc, Finset.mem_insert]
    exact or_iff_right hother
  have hlast : lastCheckpoint (calls ++ [call]) windowIndex = lastCheckpoint calls windowIndex :=
    lastCheckpoint_other hother
  cases h with
  | absent hnew => exact .absent fun h => hnew (hmem.mp h)
  | begun started hold hnone =>
    rw [← begunCount_of_mem call hold]
    exact .begun started (hmem.mpr hold) (hlast.trans hnone)
  | checkpointed window _ hold hsome hready hpreflight hcounter =>
    exact .checkpointed window _ (hmem.mpr hold) (hlast.trans hsome) hready hpreflight hcounter

theorem Reflects.beginWindow (h : Reflects calls diagnostics) :
    Reflects (calls ++ [.beginWindow windowIndex selectedCount now])
      (diagnostics.beginWindow windowIndex selectedCount now) := by
  have hrec := h.recorded windowIndex
  have hself : windowIndex ∈
      windowsOf (calls ++ [.beginWindow windowIndex selectedCount now]) := by
    rw [windowsOf_snoc]
    exact Finset.mem_insert_self ..
  unfold TransferDiagnostics.beginWindow
  split
  · rename_i hthere
    obtain ⟨i, hi⟩ := Option.isSome_iff_exists.mp hthere
    have hlt := h.indexed.lt windowIndex i hi
    refine ⟨h.indexed, fun other => ?_⟩
    by_cases hother : other = windowIndex
    · rw [hother]
      generalize hstored : diagnostics.existing windowIndex = stored at hrec
      cases hrec with
      | absent hnew =>
        simp [existing, hi, hlt] at hstored
      | begun started hmem hnone =>
        rw [← begunCount_of_mem _ hmem]
        exact .begun started hself (lastCheckpoint_begin.trans hnone)
      | checkpointed window record hmem hsome hready hpreflight hcounter =>
        exact .checkpointed window record hself (lastCheckpoint_begin.trans hsome) hready
          hpreflight hcounter
    · exact (h.recorded other).other hother
  · rename_i habsent
    have hlookup : diagnostics.windowIndexById.lookup windowIndex = none := by
      rwa [Option.not_isSome_iff_eq_none] at habsent
    have hnew : windowIndex ∉ windowsOf calls := by
      have hnone : diagnostics.existing windowIndex = none := by
        unfold existing
        rw [hlookup]
        rfl
      rw [hnone] at hrec
      cases hrec with
      | absent hnew => exact hnew
    obtain ⟨hindexed, hexisting, hothers⟩ := h.indexed.push
      (provisionalWindow windowIndex selectedCount (diagnostics.elapsedMs now))
    refine ⟨hindexed, fun other => ?_⟩
    by_cases hother : other = windowIndex
    · rw [hother, show (diagnostics.pushWindow _).existing windowIndex = _ from hexisting]
      have hbegun : begunCount (calls ++ [.beginWindow windowIndex selectedCount now])
          windowIndex = selectedCount :=
        begunCount_new (.beginWindow windowIndex selectedCount now) hnew
      have hrecorded := Recorded.begun (diagnostics.elapsedMs now) hself
        (lastCheckpoint_begin.trans (lastCheckpoint_of_notMem hnew))
      rwa [hbegun] at hrecorded
    · rw [hothers other hother]
      exact (h.recorded other).other hother

theorem Reflects.checkpointWindow (h : Reflects calls diagnostics) :
    Reflects (calls ++ [.checkpointWindow window now])
      (diagnostics.checkpointWindow window now) := by
  obtain ⟨hindexed, hexisting, hothers⟩ :=
    checkpointWindow_indexed window now h.indexed
  refine ⟨hindexed, fun other => ?_⟩
  by_cases hother : other = window.windowIndex
  · rw [hother, hexisting]
    refine .checkpointed window _ ?_ ?_ rfl rfl fun counter => by cases counter <;> rfl
    · rw [windowsOf_snoc]
      exact Finset.mem_insert_self ..
    · rw [lastCheckpoint_checkpoint, if_pos rfl]
  · rw [hothers other hother]
    exact (h.recorded other).other hother

/-! ## The sums -/

/-- What the report counts for a window: its last checkpoint, without the assets it began with. -/
def dueOf (calls : List DiagnosticCall) (counter : ReportCounter) (windowIndex : Nat) : ℚ :=
  ((lastCheckpoint calls windowIndex).map fun window =>
    window.counter counter -
      if counter = .preparedAssets then begunCount calls windowIndex else 0).getD 0

theorem dueOf_other (hother : windowIndex ≠ call.windowIndex)
    (hmem : windowIndex ∈ windowsOf calls) :
    dueOf (calls ++ [call]) counter windowIndex = dueOf calls counter windowIndex := by
  unfold dueOf
  rw [lastCheckpoint_other hother, begunCount_of_mem _ hmem]

/-- A call moves the sum by what it changes for its own window. -/
theorem sum_dueOf_snoc :
    ∑ i ∈ windowsOf (calls ++ [call]), dueOf (calls ++ [call]) counter i =
      ∑ i ∈ windowsOf calls, dueOf calls counter i +
        (dueOf (calls ++ [call]) counter call.windowIndex -
          dueOf calls counter call.windowIndex) := by
  rw [windowsOf_snoc]
  by_cases hmem : call.windowIndex ∈ windowsOf calls
  · rw [Finset.insert_eq_of_mem hmem, ← Finset.add_sum_erase _ _ hmem,
      ← Finset.add_sum_erase (windowsOf calls) (dueOf calls counter) hmem]
    have hsame : ∑ i ∈ (windowsOf calls).erase call.windowIndex,
        dueOf (calls ++ [call]) counter i =
          ∑ i ∈ (windowsOf calls).erase call.windowIndex, dueOf calls counter i :=
      Finset.sum_congr rfl fun i hi =>
        dueOf_other (Finset.ne_of_mem_erase hi) (Finset.mem_of_mem_erase hi)
    rw [hsame]
    ring
  · have hsame : ∑ i ∈ windowsOf calls, dueOf (calls ++ [call]) counter i =
        ∑ i ∈ windowsOf calls, dueOf calls counter i := by
      refine Finset.sum_congr rfl fun i hi => dueOf_other ?_ hi
      rintro rfl
      exact hmem hi
    have hnone : dueOf calls counter call.windowIndex = 0 := by
      unfold dueOf
      rw [lastCheckpoint_of_notMem hmem]
      rfl
    rw [Finset.sum_insert hmem, hsame, hnone]
    ring

/-- Beginning a window makes nothing due. -/
theorem dueOf_begin :
    dueOf (calls ++ [.beginWindow windowIndex selectedCount now]) counter windowIndex =
      dueOf calls counter windowIndex := by
  unfold dueOf
  rw [lastCheckpoint_begin]
  by_cases hmem : windowIndex ∈ windowsOf calls
  · rw [begunCount_of_mem _ hmem]
  · rw [lastCheckpoint_of_notMem hmem]
    rfl

/-- A checkpoint makes due what it adds to the counter. -/
theorem dueOf_checkpoint (now : ℚ) (counter : ReportCounter) {stored : Option DiagnosticWindow}
    (h : Recorded calls window.windowIndex stored) :
    dueOf (calls ++ [.checkpointWindow window now]) counter window.windowIndex -
        dueOf calls counter window.windowIndex =
      window.counter counter - countedOf counter stored := by
  unfold dueOf
  rw [lastCheckpoint_checkpoint, if_pos rfl, Option.map_some, Option.getD_some]
  cases h with
  | absent hnew =>
    have hbegun : begunCount (calls ++ [.checkpointWindow window now]) window.windowIndex = 0 :=
      begunCount_new (.checkpointWindow window now) hnew
    rw [lastCheckpoint_of_notMem hnew, hbegun, countedOf]
    simp
  | begun started hmem hnone =>
    rw [begunCount_of_mem _ hmem, hnone]
    simp [countedOf, provisionalWindow]
  | checkpointed old record hmem hsome hready hpreflight hcounter =>
    rw [begunCount_of_mem _ hmem, hsome]
    simp [countedOf, hready, hcounter]

/-- **The counters after any sequence of calls.** -/
theorem counter_eq_sum (startedAt : ℚ) (calls : List DiagnosticCall) :
    Reflects calls (afterCalls startedAt calls) ∧ ∀ counter,
      (afterCalls startedAt calls).report.counter counter =
        ∑ i ∈ windowsOf calls, dueOf calls counter i := by
  induction calls using List.reverseRecOn with
  | nil =>
    refine ⟨⟨.new startedAt, fun _ => .absent (by simp [windowsOf])⟩, fun counter => ?_⟩
    cases counter <;> rfl
  | append_singleton calls call ih =>
    obtain ⟨hreflects, hsum⟩ := ih
    have hafter : afterCalls startedAt (calls ++ [call]) =
        (afterCalls startedAt calls).call call := by
      unfold afterCalls
      rw [List.foldl_append]
      rfl
    rw [hafter]
    cases call with
    | beginWindow windowIndex selectedCount now =>
      refine ⟨hreflects.beginWindow, fun counter => ?_⟩
      rw [sum_dueOf_snoc, ← hsum]
      have hdue : dueOf (calls ++ [.beginWindow windowIndex selectedCount now]) counter
          windowIndex = dueOf calls counter windowIndex := dueOf_begin
      have hreport : ((afterCalls startedAt calls).beginWindow windowIndex selectedCount
          now).report.counter counter = (afterCalls startedAt calls).report.counter counter := by
        unfold TransferDiagnostics.beginWindow
        split <;> cases counter <;> rfl
      simp only [TransferDiagnostics.call, DiagnosticCall.windowIndex]
      rw [hreport, hdue]
      ring
    | checkpointWindow window now =>
      refine ⟨hreflects.checkpointWindow, fun counter => ?_⟩
      have hrec := hreflects.recorded window.windowIndex
      have hwritten : ∀ record, (afterCalls startedAt calls).existing window.windowIndex =
          some record → Written window.windowIndex record := by
        intro record hrecord
        rw [hrecord] at hrec
        exact hrec.written
      have hdue := dueOf_checkpoint now counter hrec
      simp only [TransferDiagnostics.call]
      rw [sum_dueOf_snoc, ← hsum, checkpointWindow_counter hwritten]
      simp only [DiagnosticCall.windowIndex]
      rw [hdue]

/-- The sum over the windows of what their last checkpoints count for. -/
def checkpointSum (calls : List DiagnosticCall) (counter : ReportCounter) : ℚ :=
  ∑ i ∈ windowsOf calls, ((lastCheckpoint calls i).map (·.counter counter)).getD 0

/-- The assets with which the checkpointed windows were begun before their first checkpoint. -/
def begunSum (calls : List DiagnosticCall) : ℚ :=
  ∑ i ∈ windowsOf calls, if (lastCheckpoint calls i).isSome then begunCount calls i else 0

theorem sum_dueOf :
    ∑ i ∈ windowsOf calls, dueOf calls counter i =
      checkpointSum calls counter - if counter = .preparedAssets then begunSum calls else 0 := by
  have hdue : ∀ i ∈ windowsOf calls, dueOf calls counter i =
      ((lastCheckpoint calls i).map (·.counter counter)).getD 0 -
        if counter = .preparedAssets then
          (if (lastCheckpoint calls i).isSome then begunCount calls i else 0) else 0 := by
    intro i _
    unfold dueOf
    cases lastCheckpoint calls i with
    | none => simp
    | some window => rfl
  rw [Finset.sum_congr rfl hdue, Finset.sum_sub_distrib, checkpointSum, begunSum]
  split
  · rfl
  · rw [Finset.sum_const_zero]

/-- One window of 250 assets, begun and checkpointed. -/
def oneWindow : List DiagnosticCall :=
  [.beginWindow 0 250 1010,
    .checkpointWindow
      { windowIndex := 0, status := .ready, selectedCount := 250, preparedCount := 250,
        startedElapsedMs := 0 } 1020]

end TransferDiagnostics

end LocalMediaTransfer
