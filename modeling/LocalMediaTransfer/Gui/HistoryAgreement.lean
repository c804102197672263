import LocalMediaTransfer.Gui.DotNet
import LocalMediaTransfer.Gui.PipeMessageParser
import LocalMediaTransfer.Server.History.TransferHistoryStore

/-!
# The history between receiver and GUI

The receiver stores what a client reports (`recordSession`), and the GUI reads the sessions from the
pipe (`PipeMessageParser.Parse`), all of them or none.

* `FitsGui` — what the GUI asks of a stored session.
* `parseItem_isSome_iff` — one session; `transfer_history_accepted_iff` — the message.
-/

set_option autoImplicit false

namespace LocalMediaTransfer

open Lib PipeValueValidator PipeMessageParser

variable {order : SqlOrder} {s : HistoryState} {utcNow : Int} {row : HistorySession}

/-- **What the GUI asks of a session.** -/
structure FitsGui (utcNow : Int) (row : HistorySession) : Prop where
  sessionId : ∃ value, utf8ToWide row.sessionId = some value ∧ value.all isWhiteSpace = false ∧
    value.length ≤ 128 ∧ containsUnsafeCharacters value = false
  completedAt : 946684800000 ≤ row.completedAt ∧ row.completedAt ≤ utcNow + 172800000 ∧
    row.completedAt < 2 ^ 63
  counts : ∀ count ∈ [row.selectedFiles, row.uploadedFiles, row.skippedFiles, row.failedFiles,
    row.selectedMediaFiles, row.additionalComponentsFiles], 0 ≤ count ∧ count ≤ 1000000
  bytes : ∀ size ∈ [row.selectedBytes, row.selectedMediaBytes, row.additionalComponentsBytes,
    row.uploadedBytes, row.skippedBytes], 0 ≤ size ∧ size < 2 ^ 63
  duration : 0 ≤ row.totalDurationMs ∧ row.totalDurationMs ≤ 315576000000
  speeds : ∀ speed ∈ [row.averageSpeedMBps, row.peakSpeedMBps], 0 ≤ speed ∧ speed ≤ 1000000

/-! ## One session -/

theorem eraseFiles_toJson (row : HistorySession) : eraseFiles row.toJson = .object row.members := by
  have hkeys : ∀ key ∈ row.members.map (·.1), (key != ascii "files") = true := by
    simp only [HistorySession.members, List.map_cons, List.map_nil]
    decide
  have hkeep : row.members.filter (fun m => m.1 != ascii "files") = row.members :=
    List.filter_eq_self.mpr fun m hm => hkeys m.1 (List.mem_map_of_mem hm)
  simp only [HistorySession.toJson, eraseFiles, List.filter_append, hkeep]
  simp

theorem int32_checked (value : Int) {maximum : Int} (h : maximum < 2 ^ 31) :
    (JsonElement.getInt32 (.integer value)).bind (nonNegative · maximum) =
      if 0 ≤ value ∧ value ≤ maximum then some value else none := by
  simp only [JsonElement.getInt32, nonNegative, Bool.or_eq_true, decide_eq_true_eq]
  split
  · rw [Option.bind_some]
    split <;> split <;> first | rfl | omega
  · rw [if_neg (by omega)]
    rfl

theorem int64_checked (value : Int) {maximum : Int} (h : maximum < 2 ^ 63) :
    (JsonElement.getInt64 (.integer value)).bind (nonNegative · maximum) =
      if 0 ≤ value ∧ value ≤ maximum then some value else none := by
  simp only [JsonElement.getInt64, nonNegative, Bool.or_eq_true, decide_eq_true_eq]
  split
  · rw [Option.bind_some]
    split <;> split <;> first | rfl | omega
  · rw [if_neg (by omega)]
    rfl

theorem time_checked (value : Int) :
    (JsonElement.getInt64 (.integer value)).bind (unixMilliseconds utcNow) =
      if 946684800000 ≤ value ∧ value ≤ utcNow + 172800000 ∧ value < 2 ^ 63 then some value
      else none := by
  rw [JsonElement.getInt64]
  split
  · rw [Option.bind_some, unixMilliseconds, show MinimumUnixSeconds * 1000 = 946684800000 from rfl]
    simp only [Bool.or_eq_true, decide_eq_true_eq]
    split <;> split <;> first | rfl | omega
  · rw [if_neg (by omega)]
    rfl

theorem double_checked (value maximum : Rat) :
    (JsonElement.getDouble (.floating value)).bind (nonNegativeFinite · maximum) =
      if 0 ≤ value ∧ value ≤ maximum then some value else none := by
  simp only [JsonElement.getDouble, nonNegativeFinite, Option.bind_some, Bool.or_eq_true,
    decide_eq_true_eq, ← not_lt, ← not_or, ite_not]

/-- A step of a parser that checks one value. -/
theorem isSome_checked_bind {α β : Type} {c : Prop} [Decidable c] {value : α} {f : α → Option β} :
    ((if c then some value else none).bind f).isSome = true ↔ c ∧ (f value).isSome = true := by
  by_cases h : c <;> simp [h]

theorem intMember_eq {item : Json} {key : String} {value maximum : Int}
    (h : JsonElement.getProperty item key = some (.integer value)) (hmax : maximum < 2 ^ 31) :
    intMember item key maximum = if 0 ≤ value ∧ value ≤ maximum then some value else none := by
  rw [intMember, h, Option.bind_some, int32_checked value hmax]

theorem longMember_eq {item : Json} {key : String} {value maximum : Int}
    (h : JsonElement.getProperty item key = some (.integer value)) (hmax : maximum < 2 ^ 63) :
    longMember item key maximum = if 0 ≤ value ∧ value ≤ maximum then some value else none := by
  rw [longMember, h, Option.bind_some, int64_checked value hmax]

theorem doubleMember_eq {item : Json} {key : String} {value maximum : Rat}
    (h : JsonElement.getProperty item key = some (.floating value)) :
    doubleMember item key maximum = if 0 ≤ value ∧ value ≤ maximum then some value else none := by
  rw [doubleMember, h, Option.bind_some, double_checked]

theorem orMissing_eq {item : Json} {key : String} {value : Json} {get : Json → Option Int}
    {fallback : Option Int} (h : JsonElement.tryGetProperty item key = some (some value)) :
    orMissing get item key fallback = get value := by
  rw [orMissing, h, Option.bind_some]

theorem identifier_isSome_iff (text : ByteString) :
    ((JsonElement.getString [] (.string text)).bind (identifier · 128)).isSome = true ↔
      ∃ value, utf8ToWide text = some value ∧ value.all isWhiteSpace = false ∧ value.length ≤ 128 ∧
        containsUnsafeCharacters value = false := by
  rw [JsonElement.getString]
  cases utf8ToWide text with
  | none => simp
  | some value =>
    simp only [Option.bind_some, identifier, Option.some.injEq, exists_eq_left']
    cases value.all isWhiteSpace <;> cases containsUnsafeCharacters value <;>
      by_cases h : 128 < value.length <;> simp [h]; omega

/-- The members that the GUI reads. -/
theorem members_found (row : HistorySession) {key : String} {value : Json}
    (h : row.members.lookup (ascii key) = some value) :
    JsonElement.tryGetProperty (.object row.members) key = some (some value) := by
  rw [JsonElement.tryGetProperty, h]

theorem isSome_bind_of_isSome {α β : Type} {x : Option α} {f : α → Option β} {p : Prop}
    (h : ∀ a, (f a).isSome = true ↔ p) : (x.bind f).isSome = true ↔ x.isSome = true ∧ p := by
  cases x with
  | none => simp
  | some a => simp [h a]

/-- **One session.** -/
theorem parseItem_isSome_iff :
    (parseTransferHistoryItem utcNow (.object row.members)).isSome = true ↔ FitsGui utcNow row := by
  have found : ∀ {key : String} {value : Json}, row.members.lookup (ascii key) = some value →
      JsonElement.tryGetProperty (.object row.members) key = some (some value) := members_found row
  have got : ∀ {key : String} {value : Json}, row.members.lookup (ascii key) = some value →
      JsonElement.getProperty (.object row.members) key = some value := by
    intro key value h
    rw [JsonElement.getProperty, found h, Option.join_some]
  have hint : (1000000 : Int) < 2 ^ 31 := by decide
  have hlong : (2 ^ 63 - 1 : Int) < 2 ^ 63 := by decide
  unfold parseTransferHistoryItem
  dsimp only
  rw [got rfl, got rfl, Option.bind_some, Option.bind_some, time_checked,
    intMember_eq (got rfl) hint, intMember_eq (got rfl) hint, intMember_eq (got rfl) hint,
    intMember_eq (got rfl) hint, longMember_eq (got rfl) hlong, orMissing_eq (found rfl),
    orMissing_eq (found rfl), orMissing_eq (found rfl), orMissing_eq (found rfl),
    longMember_eq (got rfl) hlong, longMember_eq (got rfl) hlong,
    longMember_eq (got rfl) (by decide), doubleMember_eq (got rfl), doubleMember_eq (got rfl)]
  simp only [int32_checked _ hint, int64_checked _ hlong]
  have hid := identifier_isSome_iff row.sessionId
  cases hvalue : (JsonElement.getString [] (.string row.sessionId)).bind (identifier · 128) with
  | none =>
    rw [hvalue] at hid
    rw [Option.bind_eq_bind, Option.bind_none]
    exact iff_of_false Bool.false_ne_true fun h => Bool.false_ne_true (hid.mpr h.sessionId)
  | some value =>
    rw [hvalue] at hid
    rw [Option.bind_eq_bind, Option.bind_some]
    iterate 15 first
      | rw [isSome_checked_bind]
      | rw [Option.bind_eq_bind, isSome_checked_bind]
    constructor
    · rintro ⟨htime, h₁, h₂, h₃, h₄, b₁, b₂, b₃, h₅, h₆, b₄, b₅, hduration, s₁, s₂, -⟩
      refine ⟨hid.mp rfl, htime, ?_, ?_, hduration, ?_⟩
      · simp only [List.forall_mem_cons, List.not_mem_nil, false_implies, implies_true, and_true]
        exact ⟨h₁, h₂, h₃, h₄, h₅, h₆⟩
      · simp only [List.forall_mem_cons, List.not_mem_nil, false_implies, implies_true, and_true]
        omega
      · simp only [List.forall_mem_cons, List.not_mem_nil, false_implies, implies_true, and_true]
        exact ⟨s₁, s₂⟩
    · intro h
      have hcounts := h.counts
      have hbytes := h.bytes
      have hspeeds := h.speeds
      simp only [List.forall_mem_cons, List.not_mem_nil, false_implies, implies_true,
        and_true] at hcounts hbytes hspeeds
      obtain ⟨h₁, h₂, h₃, h₄, h₅, h₆⟩ := hcounts
      obtain ⟨b₁, b₂, b₃, b₄, b₅⟩ := hbytes
      refine ⟨h.completedAt, h₁, h₂, h₃, h₄, ?_, ?_, ?_, h₅, h₆, ?_, ?_, h.duration, hspeeds.1,
        hspeeds.2, rfl⟩
      all_goals omega

/-! ## The message -/

theorem parseItems_isSome_iff {rows : List HistorySession} {history : List TransferHistoryData}
    (h : history.length + rows.length ≤ MaxTransferHistoryEntries) :
    (parseItems utcNow history (rows.map fun row => .object row.members)).isSome = true ↔
      ∀ row ∈ rows, FitsGui utcNow row := by
  induction rows generalizing history with
  | nil => simp [parseItems]
  | cons row rest ih =>
    rw [List.length_cons] at h
    rw [List.map_cons, parseItems, if_neg (by omega), List.forall_mem_cons, ← parseItem_isSome_iff]
    refine isSome_bind_of_isSome fun data => ih ?_
    rw [List.length_append, List.length_singleton]
    omega

theorem parse_historyMessage (data : Json) :
    parse utcNow (.object [(ascii "type", .string (ascii "transfer_history")),
      (ascii "data", data)]) = parseTransferHistory utcNow data := by
  have htype : JsonElement.getProperty (.object [(ascii "type",
      .string (ascii "transfer_history")), (ascii "data", data)]) "type" =
        some (.string (ascii "transfer_history")) := rfl
  have hdata : JsonElement.getProperty (.object [(ascii "type",
      .string (ascii "transfer_history")), (ascii "data", data)]) "data" = some data := rfl
  have hname : utf8ToWide (ascii "transfer_history") = some (wide "transfer_history") := by
    rw [utf8ToWide_ascii (by decide +kernel)]
    congr 1
  rw [parse, htype, hdata, Option.bind_some, JsonElement.getString, hname, Option.bind_eq_bind,
    Option.bind_some, Option.bind_eq_bind, Option.bind_some, if_pos rfl]

/-- The sessions in a message. -/
theorem transferHistoryMessage_eq {sessions : HistorySessions} {message : Json}
    (h : transferHistoryMessage order sessions = some message) :
    message = .object [(ascii "type", .string (ascii "transfer_history")), (ascii "data",
      .array (((order.sort sessions).take maxGuiHistoryEntries).map fun row =>
        .object row.members))] := by
  have hlimit : (max (1 : Int) (min 200 (MaxHistorySessions : Int))).toNat = 200 := by decide
  obtain ⟨recent, hrecent, hsent⟩ := Option.bind_eq_some_iff.mp h
  unfold recentSessionsJson at hrecent
  dsimp only at hrecent
  rw [hlimit] at hrecent
  split at hrecent
  · cases hrecent
    rw [sendTransferHistory, Option.some.injEq, ← List.map_take, List.take_take,
      List.map_map, show eraseFiles ∘ HistorySession.toJson = fun row => .object row.members from
        funext eraseFiles_toJson] at hsent
    exact hsent.symm
  · cases hrecent

/-- **Which messages the GUI accepts.** -/
theorem parse_message_isSome_iff {sessions : HistorySessions} {message : Json}
    (h : transferHistoryMessage order sessions = some message) :
    (parse utcNow message).isSome = true ↔
      ∀ row ∈ (order.sort sessions).take maxGuiHistoryEntries, FitsGui utcNow row := by
  rw [transferHistoryMessage_eq h, parse_historyMessage]
  refine parseItems_isSome_iff ?_
  rw [List.length_nil, Nat.zero_add]
  exact List.length_take_le _ _

/-- **The history across the pipe.**  After accepted payloads in any number and order, the GUI
accepts the message exactly when every session among the newest fits; so it does when every payload
so far is stored as a session that fits. -/
theorem transfer_history_accepted_iff {message : Json} (utcNow : Int)
    (hrun : HistoryRun order {} s)
    (hmessage : transferHistoryMessage order s.sessions = some message) :
    ((parse utcNow message).isSome = true ↔
      ∀ row ∈ (order.sort s.sessions).take maxGuiHistoryEntries, FitsGui utcNow row) ∧
    ((∀ entry ∈ s.log, ∀ row, sessionOf entry.1 entry.2 = some row → FitsGui utcNow row) →
      (parse utcNow message).isSome = true) := by
  refine ⟨parse_message_isSome_iff hmessage, fun hlog => ?_⟩
  rw [parse_message_isSome_iff hmessage]
  intro row hrow
  have hstored := (order.perm s.sessions).mem_iff.mp (List.mem_of_mem_take hrow)
  obtain ⟨entry, hentry, hrow⟩ := stored_of_run hrun row hstored
  exact hlog entry hentry row hrow

/-- Sessions of one time in the order in which they were stored. -/
def newestFirst : SqlOrder where
  sort rows := rows.insertionSort fun a b => b.completedAt ≤ a.completedAt
  perm rows := List.perm_insertionSort _ rows
  sorted rows := by
    have htotal : Std.Total fun a b : HistorySession => b.completedAt ≤ a.completedAt :=
      ⟨fun a b => Int.le_total _ _⟩
    have htrans : IsTrans HistorySession fun a b => b.completedAt ≤ a.completedAt :=
      ⟨fun _ _ _ h h' => h'.trans h⟩
    exact List.pairwise_insertionSort _ rows

/-- A report of the mobile app, cut down to what the example needs. -/
def goodPayload : Json :=
  .object [(ascii "sessionId", .string (ascii "ios-1760000000000")),
    (ascii "completedAt", .integer 1760000000000), (ascii "selectedFiles", .integer 3),
    (ascii "uploadedFiles", .integer 3), (ascii "selectedBytes", .integer 4096)]

/-- The session that it is stored as. -/
def goodSession : HistorySession where
  sessionId := ascii "ios-1760000000000"
  completedAt := 1760000000000
  clientIp := ascii "10.0.0.2"
  selectedFiles := 3
  uploadedFiles := 3
  skippedFiles := 0
  failedFiles := 0
  selectedBytes := 4096
  selectedMediaBytes := 4096
  additionalComponentsBytes := 0
  selectedMediaFiles := 3
  additionalComponentsFiles := 0
  uploadedBytes := 0
  skippedBytes := 0
  avoidedBytes := 0
  finalizationDuplicateBytes := 0
  checkDurationMs := 0
  uploadDurationMs := 0
  totalDurationMs := 0
  averageSpeedMBps := 0
  peakSpeedMBps := 0
  retries := 0
  selectedAssets := 0
  expandedFiles := 3
  completionStatus := ascii "completed"
  files := []

theorem goodSession_fits : FitsGui 1760000000000 goodSession := by
  refine ⟨⟨wide "ios-1760000000000", ?_, by decide, by decide, by decide⟩, by decide, by decide,
    by decide, by decide, ?_⟩
  · exact utf8ToWide_ascii (by decide +kernel)
  · intro speed hspeed
    have hzero : speed = 0 := by
      simp only [goodSession, List.mem_cons, List.not_mem_nil, or_false, or_self] at hspeed
      exact hspeed
    rw [hzero]
    exact ⟨le_rfl, by norm_num⟩

theorem transfer_history_accepted_iff_good :
    ∃ s message, HistoryRun newestFirst {} s ∧ s.sessions = [goodSession] ∧
      transferHistoryMessage newestFirst s.sessions = some message ∧
      (parse 1760000000000 message).isSome = true := by
  obtain ⟨s, hrun, htest⟩ := Run.exists_of_exec (historyStep newestFirst) (P := fun _ _ => True)
    (fun _ _ => true)
    (fun s => decide (s.sessions = [goodSession]) &&
      (transferHistoryMessage newestFirst s.sessions).isSome)
    {} [.record goodPayload (ascii "10.0.0.2")] (fun _ _ _ => trivial) (by decide +kernel)
  rw [Bool.and_eq_true, decide_eq_true_eq] at htest
  obtain ⟨message, hmessage⟩ := Option.isSome_iff_exists.mp htest.2
  refine ⟨s, message, hrun, htest.1, hmessage, ?_⟩
  refine (transfer_history_accepted_iff 1760000000000 hrun hmessage).1.mpr fun row hrow => ?_
  have hmem := (newestFirst.perm s.sessions).mem_iff.mp (List.mem_of_mem_take hrow)
  rw [htest.1, List.mem_singleton] at hmem
  rw [hmem]
  exact goodSession_fits

/-- A report with a session ID and nothing else. -/
def barePayload : Json := .object [(ascii "sessionId", .string (ascii "x"))]

/-- One report without a time, and the GUI drops the message with every other session. -/
theorem bare_report_hides_history :
    ∃ s, HistoryRun newestFirst {} s ∧ s.sessions.length = 2 ∧
      ∃ message, transferHistoryMessage newestFirst s.sessions = some message ∧
        parse 1760000000000 message = none := by
  obtain ⟨s, hrun, htest⟩ := Run.exists_of_exec (historyStep newestFirst) (P := fun _ _ => True)
    (fun _ _ => true)
    (fun s => s.sessions.length == 2 && (transferHistoryMessage newestFirst s.sessions).any fun m =>
      (parse 1760000000000 m).isNone)
    {} [.record goodPayload (ascii "10.0.0.2"), .record barePayload (ascii "10.0.0.3")]
    (fun _ _ _ => trivial) (by decide +kernel)
  rw [Bool.and_eq_true, beq_iff_eq, Option.any_eq_true] at htest
  obtain ⟨hlength, message, hmessage, hparse⟩ := htest
  exact ⟨s, hrun, hlength, message, hmessage, Option.isNone_iff_eq_none.mp hparse⟩

end LocalMediaTransfer
