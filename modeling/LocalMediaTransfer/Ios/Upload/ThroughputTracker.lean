import LocalMediaTransfer.Lib.SlidingWindow

/-!
# Throughput of an upload

`ThroughputTracker` (`upload/ThroughputTracker.ts`) in exact arithmetic: running sums over the
samples of a window, an index to the first of them in an array, and an occasional splice of the
samples before it.

* `record_tracks` — **each acknowledgement keeps the index and the sums at the window of all
  samples**, whether it splices or not.
* `throughput_refines` — the tracker reports what the direct sums over all samples give.
-/

set_option autoImplicit false

namespace LocalMediaTransfer

open Lib

structure ThroughputSample where
  acknowledgedAt : Rat
  mediaBytes : Rat
  encodedBytes : Rat
  deriving DecidableEq

def BYTES_PER_MB : Rat := 1000000

structure ThroughputRates where
  currentMediaMBps : Rat := 0
  averageMediaMBps : Rat := 0
  peakMediaMBps : Rat := 0
  currentEncodedMBps : Rat := 0
  uploadedMediaBytes : Rat := 0
  acknowledgedEncodedBytes : Rat := 0
  sampledAt : Rat := 0
  deriving DecidableEq

structure ThroughputTracker where
  startedAt : Rat
  windowMs : Rat := 5000
  samples : List ThroughputSample := []
  firstActiveSampleIndex : Nat := 0
  activeMediaBytes : Rat := 0
  activeEncodedBytes : Rat := 0
  uploadedMediaBytes : Rat := 0
  acknowledgedEncodedBytes : Rat := 0
  peakMediaMBps : Rat := 0
  rates : ThroughputRates := {}
  deriving DecidableEq

/-- `elapsedSeconds`. -/
def elapsedSeconds (startedAt now : Rat) : Rat := max (1 / 1000) ((now - startedAt) / 1000)

/-- `windowSeconds`. -/
def windowSeconds (startedAt windowMs now : Rat) : Rat :=
  max (1 / 1000) (min (windowMs / 1000) (elapsedSeconds startedAt now))

namespace ThroughputTracker

/-- The samples from `firstActiveSampleIndex` on. -/
def active (t : ThroughputTracker) : List ThroughputSample :=
    t.samples.drop t.firstActiveSampleIndex

/-- The counters and the sample of an acknowledgement. -/
def push (t : ThroughputTracker) (s : ThroughputSample) : ThroughputTracker :=
  { t with
    uploadedMediaBytes := t.uploadedMediaBytes + s.mediaBytes
    acknowledgedEncodedBytes := t.acknowledgedEncodedBytes + s.encodedBytes
    activeMediaBytes := t.activeMediaBytes + s.mediaBytes
    activeEncodedBytes := t.activeEncodedBytes + s.encodedBytes
    samples := t.samples ++ [s] }

/-- The `while` loop over the samples from `firstActiveSampleIndex` on. -/
def expireSamples (cutoff : Rat) : List ThroughputSample → ThroughputTracker → ThroughputTracker
  | [], t => t
  | s :: rest, t =>
      if s.acknowledgedAt ≤ cutoff then
        expireSamples cutoff rest
          { t with
            activeMediaBytes := t.activeMediaBytes - s.mediaBytes
            activeEncodedBytes := t.activeEncodedBytes - s.encodedBytes
            firstActiveSampleIndex := t.firstActiveSampleIndex + 1 }
      else t

/-- The splice of the samples that are no longer active. -/
def compact (t : ThroughputTracker) : ThroughputTracker :=
  if 1024 < t.firstActiveSampleIndex ∧ t.samples.length < 2 * t.firstActiveSampleIndex then
    { t with samples := t.samples.drop t.firstActiveSampleIndex, firstActiveSampleIndex := 0 }
  else t

/-- The rates of an acknowledgement. -/
def publish (t : ThroughputTracker) (now : Rat) : ThroughputTracker :=
  let currentMediaMBps := t.activeMediaBytes / BYTES_PER_MB / windowSeconds
    t.startedAt t.windowMs now
  let peakMediaMBps := max t.peakMediaMBps currentMediaMBps
  { t with
    peakMediaMBps
    rates :=
      { currentMediaMBps
        averageMediaMBps := t.uploadedMediaBytes / BYTES_PER_MB / elapsedSeconds t.startedAt now
        peakMediaMBps
        currentEncodedMBps :=
          t.activeEncodedBytes / BYTES_PER_MB / windowSeconds t.startedAt t.windowMs now
        uploadedMediaBytes := t.uploadedMediaBytes
        acknowledgedEncodedBytes := t.acknowledgedEncodedBytes
        sampledAt := now } }

/-- `recordAcknowledgement`, which returns the new `rates`. -/
def recordAcknowledgement (t : ThroughputTracker) (s : ThroughputSample) : ThroughputTracker :=
  let pushed := t.push s
  ((expireSamples (s.acknowledgedAt - t.windowMs) pushed.active pushed).compact).publish
    s.acknowledgedAt

/-- A tracker after a sequence of acknowledgements. -/
def track (startedAt windowMs : Rat) (acks : List ThroughputSample) : ThroughputTracker :=
  acks.foldl recordAcknowledgement { startedAt, windowMs }

end ThroughputTracker

/-! ## The direct definition -/

/-- The samples of the window that ends now. -/
def windowSamples (windowMs : Rat) (acks : List ThroughputSample)
    (now : Rat) : List ThroughputSample :=
  recent ThroughputSample.acknowledgedAt (now - windowMs) acks

/-- Bytes of the window over its length. -/
def directMBps (bytes : ThroughputSample → Rat) (startedAt windowMs : Rat)
    (acks : List ThroughputSample) (now : Rat) : Rat :=
  ((windowSamples windowMs acks now).map bytes).sum / BYTES_PER_MB / windowSeconds
    startedAt windowMs now

/-- The rates after a sequence of acknowledgements. -/
def directRates (startedAt windowMs : Rat) (acks : List ThroughputSample) (now peak : Rat) :
    ThroughputRates where
  currentMediaMBps := directMBps (·.mediaBytes) startedAt windowMs acks now
  averageMediaMBps := (acks.map (·.mediaBytes)).sum / BYTES_PER_MB / elapsedSeconds startedAt now
  peakMediaMBps := peak
  currentEncodedMBps := directMBps (·.encodedBytes) startedAt windowMs acks now
  uploadedMediaBytes := (acks.map (·.mediaBytes)).sum
  acknowledgedEncodedBytes := (acks.map (·.encodedBytes)).sum
  sampledAt := now

/-- The current media rates after each acknowledgement of the sequence. -/
def currentRates (startedAt windowMs : Rat) (acks : List ThroughputSample) : Set Rat :=
  { rate | ∃ past last, (past ++ [last]) <+: acks ∧
      rate = directMBps (·.mediaBytes) startedAt windowMs (past ++ [last]) last.acknowledgedAt }

/-- The acknowledgements that the tracker is given: byte counts are not negative and times do not
decrease. -/
structure Acknowledgements (acks : List ThroughputSample) : Prop where
  nonneg : ∀ s ∈ acks, 0 ≤ s.mediaBytes ∧ 0 ≤ s.encodedBytes
  ordered : InOrder ThroughputSample.acknowledgedAt acks

/-! ## The index and the sums -/

namespace ThroughputTracker

/-- The running state against all samples, with the cutoff of the last acknowledgement. -/
structure Tracks (t : ThroughputTracker) (acks : List ThroughputSample) (cutoff : Rat) : Prop where
  index_le : t.firstActiveSampleIndex ≤ t.samples.length
  active_eq : t.active = recent ThroughputSample.acknowledgedAt cutoff acks
  media : t.activeMediaBytes = (t.active.map (·.mediaBytes)).sum
  encoded : t.activeEncodedBytes = (t.active.map (·.encodedBytes)).sum
  uploaded : t.uploadedMediaBytes = (acks.map (·.mediaBytes)).sum
  acknowledged : t.acknowledgedEncodedBytes = (acks.map (·.encodedBytes)).sum

/-- What the loop leaves: the index at the first sample that stays, the sums over the rest. -/
theorem expireSamples_spec (cutoff : Rat) : ∀ {rest : List ThroughputSample}
    {t : ThroughputTracker},
    t.firstActiveSampleIndex ≤ t.samples.length → t.active = rest →
    t.activeMediaBytes = (rest.map (·.mediaBytes)).sum →
    t.activeEncodedBytes = (rest.map (·.encodedBytes)).sum →
    ∃ index media encoded, expireSamples cutoff rest t =
        { t with
          firstActiveSampleIndex := index
          activeMediaBytes := media
          activeEncodedBytes := encoded } ∧
      index ≤ t.samples.length ∧
      t.samples.drop index = expire ThroughputSample.acknowledgedAt cutoff rest ∧
      media = ((t.samples.drop index).map (·.mediaBytes)).sum ∧
      encoded = ((t.samples.drop index).map (·.encodedBytes)).sum := by
  intro rest
  induction rest with
  | nil =>
    intro t hindex hactive hmedia hencoded
    refine ⟨_, _, _, rfl, hindex, hactive, ?_, ?_⟩
    · rw [hmedia, ← active, hactive]
    · rw [hencoded, ← active, hactive]
  | cons s rest ih =>
    intro t hindex hactive hmedia hencoded
    rw [expireSamples, expire, List.dropWhile_cons]
    by_cases hs : s.acknowledgedAt ≤ cutoff
    · rw [if_pos hs, if_pos (by simpa using hs)]
      have hnext : t.samples.drop (t.firstActiveSampleIndex + 1) = rest := by
        rw [← List.drop_drop, ← active, hactive, List.drop_one, List.tail_cons]
      have hlt : t.firstActiveSampleIndex < t.samples.length := by
        by_contra hle
        rw [active, List.drop_eq_nil_of_le (Nat.not_lt.mp hle)] at hactive
        cases hactive
      obtain ⟨index, media, encoded, heq, hspec⟩ := ih
        (t := { t with
          activeMediaBytes := t.activeMediaBytes - s.mediaBytes
          activeEncodedBytes := t.activeEncodedBytes - s.encodedBytes
          firstActiveSampleIndex := t.firstActiveSampleIndex + 1 }) hlt hnext
        (by simp [hmedia]) (by simp [hencoded])
      exact ⟨index, media, encoded, heq, hspec⟩
    · rw [if_neg hs, if_neg (by simpa using hs)]
      refine ⟨_, _, _, rfl, hindex, hactive, ?_, ?_⟩
      · rw [hmedia, ← active, hactive]
      · rw [hencoded, ← active, hactive]

/-- The splice changes neither the active samples nor anything else that is read later. -/
theorem compact_spec (t : ThroughputTracker)
    (hindex : t.firstActiveSampleIndex ≤ t.samples.length) :
    ∃ samples index, t.compact = { t with samples := samples, firstActiveSampleIndex := index } ∧
      index ≤ samples.length ∧ samples.drop index = t.active := by
  unfold compact
  split
  · exact ⟨_, _, rfl, Nat.zero_le _, rfl⟩
  · exact ⟨_, _, rfl, hindex, rfl⟩

variable {t : ThroughputTracker} {acks : List ThroughputSample}
    {s : ThroughputSample} {cutoff : Rat}

/-- The loop finds the sums over all samples of the new window. -/
theorem push_spec (ht : t.Tracks acks cutoff) :
    (t.push s).firstActiveSampleIndex ≤ (t.push s).samples.length ∧
      (t.push s).active = t.active ++ [s] ∧
      (t.push s).activeMediaBytes = ((t.push s).active.map (·.mediaBytes)).sum ∧
      (t.push s).activeEncodedBytes = ((t.push s).active.map (·.encodedBytes)).sum := by
  have hindex := ht.index_le
  have hactive : (t.push s).active = t.active ++ [s] := List.drop_append_of_le_length hindex
  refine ⟨?_, hactive, ?_, ?_⟩
  · simp only [push, List.length_append]
    omega
  · rw [hactive]
    simp [push, ht.media]
  · rw [hactive]
    simp [push, ht.encoded]

/-- **An acknowledgement keeps the index and the sums at the window of all samples**, and reports
what the direct definition gives. -/
theorem record_tracks (ht : t.Tracks acks cutoff)
    (horder : InOrder ThroughputSample.acknowledgedAt (acks ++ [s]))
    (hcutoff : cutoff ≤ s.acknowledgedAt - t.windowMs) :
    (t.recordAcknowledgement s).Tracks (acks ++ [s]) (s.acknowledgedAt - t.windowMs) ∧
      (t.recordAcknowledgement s).startedAt = t.startedAt ∧
      (t.recordAcknowledgement s).windowMs = t.windowMs ∧
      (t.recordAcknowledgement s).peakMediaMBps = max t.peakMediaMBps
        (directMBps (·.mediaBytes) t.startedAt t.windowMs (acks ++ [s]) s.acknowledgedAt) ∧
      (t.recordAcknowledgement s).rates = directRates t.startedAt t.windowMs (acks ++ [s])
        s.acknowledgedAt (t.recordAcknowledgement s).peakMediaMBps := by
  obtain ⟨hindex, hactive, hmedia, hencoded⟩ := push_spec (s := s) ht
  obtain ⟨index, media, encoded, hloop, hle, hdrop, hmedia', hencoded'⟩ :=
    expireSamples_spec (s.acknowledgedAt - t.windowMs) hindex rfl hmedia hencoded
  obtain ⟨samples, first, hcompact, hfirst, hkept⟩ := compact_spec
    (expireSamples (s.acknowledgedAt - t.windowMs) (t.push s).active (t.push s)) (by rwa [hloop])
  have hwindow : samples.drop first = windowSamples t.windowMs (acks ++ [s]) s.acknowledgedAt := by
    rw [hkept, hloop]
    change (t.push s).samples.drop index = _
    rw [hdrop, hactive, ht.active_eq]
    exact expire_recent_append horder hcutoff
  have hsame : (t.push s).samples.drop index = samples.drop first := by
    rw [hkept, hloop]
    rfl
  rw [hsame, hwindow] at hmedia' hencoded'
  rw [hloop] at hcompact
  have huploaded : t.uploadedMediaBytes + s.mediaBytes =
    ((acks ++ [s]).map (·.mediaBytes)).sum := by
    simp [ht.uploaded]
  have hacknowledged : t.acknowledgedEncodedBytes + s.encodedBytes =
      ((acks ++ [s]).map (·.encodedBytes)).sum := by
    simp [ht.acknowledged]
  unfold recordAcknowledgement
  dsimp only
  rw [hloop, hcompact]
  refine ⟨⟨hfirst, hwindow, ?_, ?_, huploaded, hacknowledged⟩, rfl, rfl, ?_, ?_⟩
  · simp only [publish, active, hwindow, hmedia']
  · simp only [publish, active, hwindow, hencoded']
  · simp only [publish, directMBps, hmedia', push]
  · simp only [publish, directRates, directMBps, hmedia', hencoded', push, huploaded, hacknowledged]

end ThroughputTracker

/-! ## Sequences of acknowledgements -/

variable {startedAt windowMs now : Rat} {acks : List ThroughputSample} {s : ThroughputSample}

theorem Acknowledgements.init (h : Acknowledgements (acks ++ [s])) : Acknowledgements acks where
  nonneg := fun a ha => h.nonneg a (List.mem_append_left _ ha)
  ordered := (List.pairwise_append.mp h.ordered).1

theorem Acknowledgements.le_last (h : Acknowledgements (acks ++ [s])) {a : ThroughputSample}
    (ha : a ∈ acks) : a.acknowledgedAt ≤ s.acknowledgedAt :=
  (List.pairwise_append.mp h.ordered).2.2 a ha s (List.mem_singleton_self s)

theorem sum_windowSamples_nonneg {bytes : ThroughputSample → Rat} (h : ∀ a ∈ acks, 0 ≤ bytes a) :
    0 ≤ ((windowSamples windowMs acks now).map bytes).sum := by
  apply List.sum_nonneg
  intro x hx
  obtain ⟨a, ha, rfl⟩ := List.mem_map.mp hx
  exact h a (List.mem_of_mem_filter ha)

theorem directMBps_nonneg {bytes : ThroughputSample → Rat} (h : ∀ a ∈ acks, 0 ≤ bytes a) :
    0 ≤ directMBps bytes startedAt windowMs acks now := by
  have hwindow : 0 < windowSeconds startedAt windowMs now :=
    lt_of_lt_of_le (by norm_num) (le_max_left _ _)
  have hmega : (0 : Rat) ≤ BYTES_PER_MB := by norm_num [BYTES_PER_MB]
  exact div_nonneg (div_nonneg (sum_windowSamples_nonneg h) hmega) hwindow.le

theorem mem_currentRates_append {rate : Rat} :
    rate ∈ currentRates startedAt windowMs (acks ++ [s]) ↔
      rate ∈ currentRates startedAt windowMs acks ∨
        rate = directMBps (·.mediaBytes) startedAt windowMs (acks ++ [s]) s.acknowledgedAt := by
  constructor
  · rintro ⟨past, last, hprefix, rfl⟩
    rcases List.prefix_concat_iff.mp hprefix with heq | hprefix
    · obtain ⟨rfl, hlast⟩ := List.append_inj' heq rfl
      obtain rfl := List.singleton_inj.mp hlast
      exact .inr rfl
    · exact .inl ⟨past, last, hprefix, rfl⟩
  · rintro (⟨past, last, hprefix, rfl⟩ | rfl)
    · exact ⟨past, last, hprefix.trans (List.prefix_append _ _), rfl⟩
    · exact ⟨acks, s, List.prefix_rfl, rfl⟩

/-- A tracker that has been given a sequence of acknowledgements. -/
structure Tracked (startedAt windowMs : Rat) (acks : List ThroughputSample)
    (t : ThroughputTracker) :
    Prop where
  started : t.startedAt = startedAt
  window : t.windowMs = windowMs
  tracks : ∀ now, (∀ a ∈ acks, a.acknowledgedAt ≤ now) → ∃ cutoff ≤
    now - windowMs, t.Tracks acks cutoff
  peak_mem : t.peakMediaMBps ∈ currentRates startedAt windowMs acks ∨ acks = [] ∧
    t.peakMediaMBps = 0
  peak_le : ∀ rate ∈ currentRates startedAt windowMs acks, rate ≤ t.peakMediaMBps

theorem tracked_nil : Tracked startedAt windowMs [] { startedAt, windowMs } where
  started := rfl
  window := rfl
  tracks := fun now _ => ⟨now - windowMs, le_rfl, Nat.zero_le _, rfl, rfl, rfl, rfl, rfl⟩
  peak_mem := .inr ⟨rfl, rfl⟩
  peak_le := by
    rintro rate ⟨past, last, hprefix, -⟩
    simp at hprefix

/-- One acknowledgement, with what it reports. -/
theorem tracked_record {t : ThroughputTracker} (hacks : Acknowledgements (acks ++ [s]))
    (ht : Tracked startedAt windowMs acks t) :
    Tracked startedAt windowMs (acks ++ [s]) (t.recordAcknowledgement s) ∧
      (t.recordAcknowledgement s).Tracks (acks ++ [s]) (s.acknowledgedAt - windowMs) ∧
      (t.recordAcknowledgement s).rates = directRates startedAt windowMs (acks ++ [s])
        s.acknowledgedAt (t.recordAcknowledgement s).peakMediaMBps := by
  obtain ⟨rfl, rfl, htracks, hmem, hle⟩ := ht
  obtain ⟨cutoff, hcutoff, hold⟩ := htracks s.acknowledgedAt fun a ha => hacks.le_last ha
  obtain ⟨hnew, hstarted, hwindow, hpeak, hrates⟩ :=
    ThroughputTracker.record_tracks hold hacks.ordered hcutoff
  refine ⟨⟨hstarted, hwindow, ?_, ?_, ?_⟩, hnew, hrates⟩
  · intro now hnow
    have hlast := hnow s (List.mem_append_right _ (List.mem_singleton_self s))
    exact ⟨_, by linarith, hnew⟩
  · left
    rw [mem_currentRates_append, hpeak]
    rcases hmem with hmem | ⟨rfl, hzero⟩
    · rcases max_choice t.peakMediaMBps
        (directMBps (·.mediaBytes) t.startedAt t.windowMs (acks ++ [s]) s.acknowledgedAt) with h | h
      · rw [h]
        exact .inl hmem
      · exact .inr h
    · right
      rw [hzero]
      exact max_eq_right (directMBps_nonneg fun a ha => (hacks.nonneg a ha).1)
  · intro rate hrate
    rw [hpeak]
    rcases mem_currentRates_append.mp hrate with hrate | rfl
    · exact (hle rate hrate).trans (le_max_left _ _)
    · exact le_max_right _ _

theorem tracked_track (hacks : Acknowledgements acks) :
    Tracked startedAt windowMs acks (ThroughputTracker.track startedAt windowMs acks) := by
  induction acks using List.reverseRecOn with
  | nil => exact tracked_nil
  | append_singleton acks s ih =>
    rw [ThroughputTracker.track, List.foldl_append]
    exact (tracked_record hacks (ih hacks.init)).1

/-- **Sliding-window throughput.**  After every acknowledgement of a sequence the tracker reports
what the direct sums over all samples of the window give, its active sums are not negative, and its
peak is the greatest current rate so far. -/
theorem throughput_refines (startedAt windowMs : Rat) (acks : List ThroughputSample)
    (s : ThroughputSample) (hacks : Acknowledgements (acks ++ [s])) :
    let t := ThroughputTracker.track startedAt windowMs (acks ++ [s])
    t.rates = directRates startedAt windowMs (acks ++ [s]) s.acknowledgedAt t.peakMediaMBps ∧
      0 ≤ t.activeMediaBytes ∧ 0 ≤ t.activeEncodedBytes ∧
      IsGreatest (currentRates startedAt windowMs (acks ++ [s])) t.peakMediaMBps := by
  have heq : ThroughputTracker.track startedAt windowMs (acks ++ [s]) =
      (ThroughputTracker.track startedAt windowMs acks).recordAcknowledgement s :=
    List.foldl_append
  obtain ⟨htracked, htracks, hrates⟩ := tracked_record hacks (tracked_track hacks.init)
  rw [← heq] at htracked htracks hrates
  refine ⟨hrates, ?_, ?_, ?_, htracked.peak_le⟩
  · rw [htracks.media, htracks.active_eq]
    exact sum_windowSamples_nonneg fun a ha => (hacks.nonneg a ha).1
  · rw [htracks.encoded, htracks.active_eq]
    exact sum_windowSamples_nonneg fun a ha => (hacks.nonneg a ha).2
  · rcases htracked.peak_mem with hmem | ⟨hnil, -⟩
    · exact hmem
    · simp at hnil

/-- Two acknowledgements, of which the first leaves the window. -/
theorem throughput_refines_two :
    let acks : List ThroughputSample := [⟨1000, 1000000, 2000000⟩, ⟨7000, 1000000, 1000000⟩]
    (ThroughputTracker.track 0 5000 acks).rates =
      directRates 0 5000 acks 7000 (ThroughputTracker.track 0 5000 acks).peakMediaMBps :=
  (throughput_refines 0 5000 [⟨1000, 1000000, 2000000⟩] ⟨7000, 1000000, 1000000⟩
    ⟨by simp, by simp [InOrder]; norm_num⟩).1

end LocalMediaTransfer
