import LocalMediaTransfer.Lib.Doubles
import LocalMediaTransfer.Server.ChunkPlan

/-!
# The chunk plans of the clients

How each client cuts a file into requests: the base64 path of `UploadManager.ts`, the native path of
`NativeUploadService.swift`, `NativeUploadWorker.cs` and `workers.js`.  Every result of an
arithmetic operation is checked against its type, and a number of JavaScript against the integers
that a double holds exactly.

* `forChunks_eq` — a loop whose rounds plan the chunks of one size plans all of them.
* `base64Plan_eq`, `nativePlan_eq`, `windowsPlan_eq`, `browserPlan_eq` — each client plans even
  chunks, or refuses the file.
* `client_plan_fits` — **up to its maximum, every client plans chunks that the receiver takes**.
-/

set_option autoImplicit false

namespace LocalMediaTransfer

/-- How planning ends without a plan. -/
inductive PlanError where
  /-- A result that its type does not hold. -/
  | overflow
  | refused (message : String)
  deriving DecidableEq, Repr

/-- A result of a type with the given range. -/
def ranged (low high n : Int) : Except PlanError Int :=
  if low ≤ n ∧ n ≤ high then .ok n else .error .overflow

/-- `int` of C#. -/
def int32 (n : Int) : Except PlanError Int := ranged (-2 ^ 31) (2 ^ 31 - 1) n

/-- `long` of C# and `Int` of Swift. -/
def int64 (n : Int) : Except PlanError Int := ranged (-2 ^ 63) (2 ^ 63 - 1) n

/-- `UInt64` of Swift. -/
def uint64 (n : Int) : Except PlanError Int := ranged 0 (2 ^ 64 - 1) n

/-- A safe integer of JavaScript. -/
def safeInteger (n : Int) : Except PlanError Int := ranged (-(2 ^ 53 - 1)) (2 ^ 53 - 1) n

/-- The loop over the chunks; the state is what a client carries from one round to the next. -/
def forChunks {σ : Type} (body : Nat → σ → Except PlanError (PlannedChunk × σ)) :
    Nat → Nat → σ → Except PlanError (List PlannedChunk)
  | 0, _, _ => .ok []
  | rounds + 1, index, s => do
      let (c, s) ← body index s
      let rest ← forChunks body rounds (index + 1) s
      return c :: rest

/-- `TransferLimits.NativeChunkBytes` and `TransferLimits.CompatibilityChunkBytes`. -/
def NativeChunkBytes : Nat := 8388608
def CompatibilityChunkBytes : Nat := 4194304

/-! ## iOS -/

/-- The check of `UploadManager.ts` before either path. -/
def checkUpload (size effectiveChunkSize : Nat) : Except PlanError Unit :=
  if MaxFileBytes < size ∨ MaxChunksPerFile < Lib.ceilQuotient size effectiveChunkSize then
    .error (.refused
      "File exceeds the receiver limit of 10,000 chunks. Split it before uploading.")
  else .ok ()

/-- One round of the loop that reads and sends base64; `chunkSize` is `this.CHUNK_SIZE`. -/
def base64Chunk (size chunkSize totalChunks chunkIndex : Nat) (_ : Unit) :
    Except PlanError (PlannedChunk × Unit) := do
  let position ← safeInteger (chunkIndex * chunkSize)
  let rest ← safeInteger (size - position)
  let length := min (chunkSize : Int) rest
  return (⟨chunkIndex, totalChunks, size, position.toNat, length.toNat⟩, ())

def base64Plan (size : Nat) : Except PlanError (List PlannedChunk) := do
  let totalChunks := Lib.ceilQuotient size CompatibilityChunkBytes
  checkUpload size CompatibilityChunkBytes
  forChunks (base64Chunk size CompatibilityChunkBytes totalChunks) totalChunks 0 ()

/-- One round of `NativeUploadService.upload`; the file is read on from where the last round
ended. -/
def nativeChunk (size chunkSize totalChunks : Int) (index : Nat) (sent : Int) :
    Except PlanError (PlannedChunk × Int) := do
  let left ← uint64 (size - sent)
  let count ← int64 (min chunkSize left)
  let total ← uint64 (sent + count)
  return (⟨index, totalChunks.toNat, size.toNat, sent.toNat, count.toNat⟩, total)

/-- `NativeUploadService.upload`, for a file of `size` bytes. -/
def nativeUpload (chunkSize size : Nat) : Except PlanError (List PlannedChunk) := do
  let sum ← uint64 (size + chunkSize)
  let sum ← uint64 (sum - 1)
  let totalChunks ← int64 (sum / chunkSize)
  if MaxFileBytes < size ∨ MaxChunksPerFile < totalChunks then
    .error (.refused "File exceeds the receiver's 10,000-chunk limit")
  else forChunks (nativeChunk size chunkSize totalChunks) totalChunks.toNat 0 0

def nativePlan (size : Nat) : Except PlanError (List PlannedChunk) := do
  checkUpload size NativeChunkBytes
  nativeUpload NativeChunkBytes size

/-! ## Windows -/

/-- `ClientConfiguration.ChunkSizeBytes`, from the receiver's answer. -/
def windowsChunkBytes (configured : Int) : Nat := (max 65536 (min configured 8388608)).toNat

/-- `NativeTransferClient.MaximumFileBytes`. -/
def maximumFileBytes (chunkSizeBytes : Int) : Except PlanError Int :=
  if chunkSizeBytes ≤ 0 then .error (.refused "chunkSizeBytes")
  else do
    let total ← int64 (MaxChunksPerFile * chunkSizeBytes)
    return min (MaxFileBytes : Int) total

/-- One round of `NativeUploadWorker.UploadFileAsync`; the stream is read on. -/
def windowsChunk (size chunkSize totalChunks : Int) (index : Nat) (position : Int) :
    Except PlanError (PlannedChunk × Int) := do
  let start ← int64 (index * chunkSize)
  let left ← int64 (size - start)
  let needed ← int32 (min chunkSize left)
  let next ← int64 (position + needed)
  return (⟨index, totalChunks.toNat, size.toNat, position.toNat, needed.toNat⟩, next)

/-- `NativeUploadWorker.UploadFileAsync`, for a file of `size` bytes. -/
def windowsUpload (chunkSize size : Nat) : Except PlanError (List PlannedChunk) := do
  let sum ← int64 (size + chunkSize)
  let sum ← int64 (sum - 1)
  let totalChunks ← int32 (sum.tdiv chunkSize)
  forChunks (windowsChunk size chunkSize totalChunks) totalChunks.toNat 0 0

/-- `NativeTransferClient.SendAsync` up to the upload of the file. -/
def windowsPlan (chunkSize size : Nat) : Except PlanError (List PlannedChunk) := do
  let maximum ← maximumFileBytes chunkSize
  if maximum < size then
    .error (.refused
      "A selected file exceeds the receiver's 10,000-chunk limit. Split it before sending.")
  else windowsUpload chunkSize size

/-! ## Browser -/

/-- `boundedInteger`; `none` stands for a value that is no safe integer. -/
def boundedInteger (value : Option Int) (maximum fallbackValue : Nat) : Nat :=
  match value with
  | some n => if 0 < n ∧ n ≤ maximum then n.toNat else fallbackValue
  | none => fallbackValue

/-- `chunkSizeBytes` of `loadServerConfig`, and what `uploadChunked` makes of it. -/
def browserChunkBytes (isMobile isIOS : Bool) (configured : Option Int) : Nat :=
  let chunkSizeBytes := boundedInteger configured MaxChunkBytes
    (if isMobile then 8 * 1024 * 1024 else 16 * 1024 * 1024)
  if isIOS then min chunkSizeBytes NativeChunkBytes else chunkSizeBytes

/-- One round of `uploadChunked`. -/
def browserChunk (size chunkSize totalChunks i : Nat) (_ : Unit) :
    Except PlanError (PlannedChunk × Unit) := do
  let start ← safeInteger (i * chunkSize)
  let sum ← safeInteger (start + chunkSize)
  let stop := min sum (size : Int)
  let length ← safeInteger (stop - start)
  return (⟨i, totalChunks, size, start.toNat, length.toNat⟩, ())

def browserPlan (chunkSize size : Nat) : Except PlanError (List PlannedChunk) :=
  let totalChunks := Lib.ceilQuotient size chunkSize
  if MaxChunksPerFile < totalChunks then
    .error (.refused
      "File exceeds the receiver limit of 10,000 chunks. Split it before uploading.")
  else if MaxFileBytes < size then
    .error (.refused
      "File exceeds the receiver file-size limit. Split it before uploading.")
  else forChunks (browserChunk size chunkSize totalChunks) totalChunks 0 ()

/-! ## The clients -/

/-- A client, with what its configuration says about chunk sizes. -/
inductive Client where
  | iosBase64
  | iosNative
  | windows (configured : Int)
  | browser (isMobile isIOS : Bool) (configured : Option Int)
  deriving DecidableEq, Repr

namespace Client

def chunkBytes : Client → Nat
  | iosBase64 => CompatibilityChunkBytes
  | iosNative => NativeChunkBytes
  | windows configured => windowsChunkBytes configured
  | browser isMobile isIOS configured => browserChunkBytes isMobile isIOS configured

/-- The largest file the client admits. -/
def maximum (client : Client) : Nat := min MaxFileBytes (MaxChunksPerFile * client.chunkBytes)

def encoding : Client → BodyEncoding
  | iosBase64 => .base64
  | _ => .plain

def plan : Client → Nat → Except PlanError (List PlannedChunk)
  | iosBase64 => base64Plan
  | iosNative => nativePlan
  | windows configured => windowsPlan (windowsChunkBytes configured)
  | browser isMobile isIOS configured => browserPlan (browserChunkBytes isMobile isIOS configured)

end Client

/-! ## Arithmetic and loops -/

theorem ranged_ok {low high n : Int} (hlow : low ≤ n) (hhigh : n ≤ high) :
    ranged low high n = .ok n := if_pos ⟨hlow, hhigh⟩

theorem forChunks_eq {σ : Type} {body : Nat → σ → Except PlanError (PlannedChunk × σ)}
    {chunk : Nat → PlannedChunk} {total : Nat} (I : Nat → σ → Prop)
    (hbody : ∀ index s, index < total → I index s →
      ∃ s', body index s = .ok (chunk index, s') ∧ I (index + 1) s') (rounds : Nat) :
    ∀ index s, index + rounds = total → I index s →
      forChunks body rounds index s = .ok ((List.range' index rounds).map chunk) := by
  induction rounds with
  | zero => exact fun index s hindex hI => rfl
  | succ rounds ih =>
    intro index s hindex hI
    obtain ⟨s', hs', hI'⟩ := hbody index s (by omega) hI
    have hrest := ih (index + 1) s' (by omega) hI'
    rw [List.range'_succ, List.map_cons, forChunks, hs']
    change (do let rest ← forChunks body rounds (index + 1) s'; return chunk index :: rest) = _
    rw [hrest]
    rfl

/-- A loop of a client over the chunks of a file, with the invariant it keeps. -/
theorem forChunks_even {σ : Type} {body : Nat → σ → Except PlanError (PlannedChunk × σ)}
    {size chunk : Nat} (I : Nat → σ → Prop) {s : σ} (hinit : I 0 s)
    (hbody : ∀ index s, index < chunkCount size chunk → I index s →
      ∃ s', body index s = .ok (chunkAt size chunk index, s') ∧ I (index + 1) s') :
    forChunks body (chunkCount size chunk) 0 s = .ok (evenChunks size chunk) := by
  rw [forChunks_eq I hbody _ 0 s (Nat.zero_add _) hinit, evenChunks, List.range_eq_range']

/-- `Math.ceil` of the quotient of two numbers below the limits is exact. -/
theorem ceilQuotient_eq_chunkCount {size chunk : Nat} (hsize : 0 < size)
    (hmax : size ≤ MaxFileBytes)
    (hchunk : 0 < chunk) : Lib.ceilQuotient size chunk = chunkCount size chunk := by
  have hlimit : MaxFileBytes = 107374182400 := rfl
  exact Lib.ceilQuotient_eq hsize hchunk (by omega)

section Rounds

variable {size chunk index : Nat}

/-- Where round `index` starts, as a number of the clients' types. -/
theorem start_cast (hchunk : 0 < chunk) (hindex : index < chunkCount size chunk) :
    ∃ start : Nat, (index : Int) * chunk = start ∧ index * chunk = start ∧ start < size :=
  ⟨index * chunk, (Nat.cast_mul _ _).symm, rfl, (lt_chunkCount_iff hchunk).mp hindex⟩

theorem base64Chunk_eq (hmax : size ≤ MaxFileBytes) (hchunk : 0 < chunk)
    (hindex : index < chunkCount size chunk) :
    base64Chunk size chunk (chunkCount size chunk) index () =
      .ok (chunkAt size chunk index, ()) := by
  obtain ⟨start, hcast, hstart, hlt⟩ := start_cast hchunk hindex
  have hlimit : MaxFileBytes = 107374182400 := rfl
  have hlength : min (chunk : Int) (size - start) = (min chunk (size - start) : Nat) := by omega
  simp only [base64Chunk, hcast, safeInteger, bind, Except.bind, pure, Except.pure,
    ranged_ok (show -(2 ^ 53 - 1) ≤ (start : Int) by omega)
      (show (start : Int) ≤ 2 ^ 53 - 1 by omega),
    ranged_ok (show -(2 ^ 53 - 1) ≤ (size : Int) - start by omega)
      (show (size : Int) - start ≤ 2 ^ 53 - 1 by omega), hlength, chunkAt, hstart,
        Int.toNat_natCast]

theorem browserChunk_eq (hmax : size ≤ MaxFileBytes) (hchunk : 0 < chunk)
    (hbound : chunk ≤ MaxChunkBytes) (hindex : index < chunkCount size chunk) :
    browserChunk size chunk (chunkCount size chunk) index () =
      .ok (chunkAt size chunk index, ()) := by
  obtain ⟨start, hcast, hstart, hlt⟩ := start_cast hchunk hindex
  have hlimit : MaxFileBytes = 107374182400 := rfl
  have hchunks : MaxChunkBytes = 67108864 := rfl
  have hstop : min ((start : Int) + chunk) size - start =
    (min chunk (size - start) : Nat) := by omega
  simp only [browserChunk, hcast, safeInteger, bind, Except.bind, pure, Except.pure,
    ranged_ok (show -(2 ^ 53 - 1) ≤ (start : Int) by omega)
      (show (start : Int) ≤ 2 ^ 53 - 1 by omega),
    ranged_ok (show -(2 ^ 53 - 1) ≤ (start : Int) + chunk by omega)
      (show (start : Int) + chunk ≤ 2 ^ 53 - 1 by omega), hstop,
    ranged_ok (show -(2 ^ 53 - 1) ≤ ((min chunk (size - start) : Nat) : Int) by omega)
      (show ((min chunk (size - start) : Nat) : Int) ≤ 2 ^ 53 - 1 by omega), chunkAt, hstart,
    Int.toNat_natCast]

/-- What the sequential readers carry: the bytes before the next chunk. -/
def ReadUpTo (size chunk index : Nat) (position : Int) : Prop :=
  position = (min (index * chunk) size : Nat)

theorem nativeChunk_eq {sent : Int} (hmax : size ≤ MaxFileBytes) (hchunk : 0 < chunk)
    (hbound : chunk ≤ MaxChunkBytes) (hindex : index < chunkCount size chunk)
    (hsent : ReadUpTo size chunk index sent) :
    ∃ total, nativeChunk size chunk (chunkCount size chunk : Nat) index sent =
        .ok (chunkAt size chunk index, total) ∧ ReadUpTo size chunk (index + 1) total := by
  obtain ⟨start, -, hstart, hlt⟩ := start_cast hchunk hindex
  have hlimit : MaxFileBytes = 107374182400 := rfl
  have hchunks : MaxChunkBytes = 67108864 := rfl
  obtain rfl : sent = start := by
    rw [hsent, hstart]
    omega
  have hcount : min (chunk : Int) (size - start) = (min chunk (size - start) : Nat) := by omega
  refine ⟨start + (min chunk (size - start) : Nat), ?_, ?_⟩
  · simp only [nativeChunk, uint64, int64, bind, Except.bind, pure, Except.pure,
      ranged_ok (show 0 ≤ (size : Int) - start by omega)
        (show (size : Int) - start ≤ 2 ^ 64 - 1 by omega), hcount,
      ranged_ok (show -2 ^ 63 ≤ ((min chunk (size - start) : Nat) : Int) by omega)
        (show ((min chunk (size - start) : Nat) : Int) ≤ 2 ^ 63 - 1 by omega),
      ranged_ok (show 0 ≤ (start : Int) + (min chunk (size - start) : Nat) by omega)
        (show (start : Int) + (min chunk (size - start) : Nat) ≤ 2 ^ 64 - 1 by omega),
      chunkAt, hstart, Int.toNat_natCast]
  · rw [ReadUpTo, Nat.succ_mul, hstart]
    omega

theorem windowsChunk_eq {position : Int} (hmax : size ≤ MaxFileBytes) (hchunk : 0 < chunk)
    (hbound : chunk ≤ MaxChunkBytes) (hindex : index < chunkCount size chunk)
    (hposition : ReadUpTo size chunk index position) :
    ∃ next, windowsChunk size chunk (chunkCount size chunk : Nat) index position =
        .ok (chunkAt size chunk index, next) ∧ ReadUpTo size chunk (index + 1) next := by
  obtain ⟨start, hcast, hstart, hlt⟩ := start_cast hchunk hindex
  have hlimit : MaxFileBytes = 107374182400 := rfl
  have hchunks : MaxChunkBytes = 67108864 := rfl
  obtain rfl : position = start := by
    rw [hposition, hstart]
    omega
  have hneeded : min (chunk : Int) (size - start) = (min chunk (size - start) : Nat) := by omega
  refine ⟨start + (min chunk (size - start) : Nat), ?_, ?_⟩
  · simp only [windowsChunk, int32, int64, hcast, bind, Except.bind, pure, Except.pure,
      ranged_ok (show -2 ^ 63 ≤ (start : Int) by omega) (show (start : Int) ≤ 2 ^ 63 - 1 by omega),
      ranged_ok (show -2 ^ 63 ≤ (size : Int) - start by omega)
        (show (size : Int) - start ≤ 2 ^ 63 - 1 by omega), hneeded,
      ranged_ok (show -2 ^ 31 ≤ ((min chunk (size - start) : Nat) : Int) by omega)
        (show ((min chunk (size - start) : Nat) : Int) ≤ 2 ^ 31 - 1 by omega),
      ranged_ok (show -2 ^ 63 ≤ (start : Int) + (min chunk (size - start) : Nat) by omega)
        (show (start : Int) + (min chunk (size - start) : Nat) ≤ 2 ^ 63 - 1 by omega),
      chunkAt, hstart, Int.toNat_natCast]
  · rw [ReadUpTo, Nat.succ_mul, hstart]
    omega

end Rounds

/-! ## The plans -/

section Plans

variable {size : Nat}

theorem forChunks_base64 {chunk : Nat} (hmax : size ≤ MaxFileBytes) (hchunk : 0 < chunk) :
    forChunks (base64Chunk size chunk (chunkCount size chunk)) (chunkCount size chunk) 0 () =
      .ok (evenChunks size chunk) :=
  forChunks_even (fun _ _ => True) trivial
    fun _ _ hindex _ => ⟨(), base64Chunk_eq hmax hchunk hindex, trivial⟩

theorem forChunks_browser {chunk : Nat} (hmax : size ≤ MaxFileBytes) (hchunk : 0 < chunk)
    (hbound : chunk ≤ MaxChunkBytes) :
    forChunks (browserChunk size chunk (chunkCount size chunk)) (chunkCount size chunk) 0 () =
      .ok (evenChunks size chunk) :=
  forChunks_even (fun _ _ => True) trivial
    fun _ _ hindex _ => ⟨(), browserChunk_eq hmax hchunk hbound hindex, trivial⟩

theorem readUpTo_zero (size chunk : Nat) : ReadUpTo size chunk 0 0 := by simp [ReadUpTo]

theorem forChunks_native {chunk : Nat} (hmax : size ≤ MaxFileBytes) (hchunk : 0 < chunk)
    (hbound : chunk ≤ MaxChunkBytes) :
    forChunks (nativeChunk size chunk (chunkCount size chunk : Nat)) (chunkCount size chunk) 0 0 =
      .ok (evenChunks size chunk) :=
  forChunks_even (ReadUpTo size chunk) (readUpTo_zero size chunk)
    fun _ _ hindex hsent => nativeChunk_eq hmax hchunk hbound hindex hsent

theorem forChunks_windows {chunk : Nat} (hmax : size ≤ MaxFileBytes) (hchunk : 0 < chunk)
    (hbound : chunk ≤ MaxChunkBytes) :
    forChunks (windowsChunk size chunk (chunkCount size chunk : Nat)) (chunkCount size chunk) 0 0 =
      .ok (evenChunks size chunk) :=
  forChunks_even (ReadUpTo size chunk) (readUpTo_zero size chunk)
    fun _ _ hindex hposition => windowsChunk_eq hmax hchunk hbound hindex hposition

/-- The check of `UploadManager.ts` admits the files that need no more chunks than allowed. -/
theorem checkUpload_eq (hsize : 0 < size) {chunk : Nat} (hchunk : 0 < chunk) :
    (size ≤ min MaxFileBytes (MaxChunksPerFile * chunk) → checkUpload size chunk = .ok ()) ∧
      (min MaxFileBytes (MaxChunksPerFile * chunk) < size →
        ∃ message, checkUpload size chunk = .error (.refused message)) := by
  have hcount : chunkCount size chunk ≤ MaxChunksPerFile ↔ size ≤ MaxChunksPerFile * chunk :=
    chunkCount_le_iff hchunk
  refine ⟨fun hmax => ?_, fun hmax => ⟨_, if_pos ?_⟩⟩
  · obtain ⟨hfile, hchunks⟩ := le_min_iff.mp hmax
    refine if_neg (not_or.mpr ⟨Nat.not_lt.mpr hfile, ?_⟩)
    rw [ceilQuotient_eq_chunkCount hsize hfile hchunk]
    exact Nat.not_lt.mpr (hcount.mpr hchunks)
  · by_cases hfile : size ≤ MaxFileBytes
    · refine .inr ?_
      rw [ceilQuotient_eq_chunkCount hsize hfile hchunk, ← Nat.not_le, hcount]
      omega
    · exact .inl (Nat.not_le.mp hfile)

/-- What a client with chunks of `chunk` bytes plans: even chunks up to its maximum, and nothing
beyond. -/
def PlansEvenly (chunk : Nat) (plan : Nat → Except PlanError (List PlannedChunk)) : Prop :=
  ∀ size, 0 < size →
    (size ≤ min MaxFileBytes (MaxChunksPerFile * chunk) → plan size = .ok (evenChunks size chunk)) ∧
      (min MaxFileBytes (MaxChunksPerFile * chunk) < size →
        ∃ message, plan size = .error (.refused message))

theorem base64Plan_eq : PlansEvenly CompatibilityChunkBytes base64Plan := by
  intro size hsize
  have hchunk : 0 < CompatibilityChunkBytes := by norm_num [CompatibilityChunkBytes]
  obtain ⟨haccept, hrefuse⟩ := checkUpload_eq hsize hchunk
  unfold base64Plan
  generalize CompatibilityChunkBytes = chunk at hchunk haccept hrefuse ⊢
  refine ⟨fun hmax => ?_, fun hmax => ?_⟩
  · have hfile := (le_min_iff.mp hmax).1
    simp only [haccept hmax, ceilQuotient_eq_chunkCount hsize hfile hchunk, bind, Except.bind]
    exact forChunks_base64 hfile hchunk
  · obtain ⟨message, hmessage⟩ := hrefuse hmax
    exact ⟨message, by simp only [hmessage, bind, Except.bind]⟩

/-- `(size + chunkSize - 1) / chunkSize` in integers. -/
theorem chunkCount_cast {chunk : Nat} (hsize : 0 < size) :
    ((size : Int) + chunk - 1) / chunk = (chunkCount size chunk : Nat) := by
  rw [chunkCount, Int.natCast_ediv, Nat.cast_sub (by omega), Nat.cast_add, Nat.cast_one]

theorem nativeUpload_eq {chunk : Nat} (hsize : 0 < size) (hmax : size ≤ MaxFileBytes)
    (hchunk : 0 < chunk)
    (hbound : chunk ≤ MaxChunkBytes) (hcount : chunkCount size chunk ≤ MaxChunksPerFile) :
    nativeUpload chunk size = .ok (evenChunks size chunk) := by
  have hlimit : MaxFileBytes = 107374182400 := rfl
  have hmaxChunk : MaxChunkBytes = 67108864 := rfl
  have hmaxCount : MaxChunksPerFile = 10000 := rfl
  simp only [nativeUpload, uint64, int64, bind, Except.bind,
    ranged_ok (show 0 ≤ (size : Int) + chunk by omega)
      (show (size : Int) + chunk ≤ 2 ^ 64 - 1 by omega),
    ranged_ok (show 0 ≤ (size : Int) + chunk - 1 by omega)
      (show (size : Int) + chunk - 1 ≤ 2 ^ 64 - 1 by omega), chunkCount_cast hsize,
    ranged_ok (show -2 ^ 63 ≤ ((chunkCount size chunk : Nat) : Int) by omega)
      (show ((chunkCount size chunk : Nat) : Int) ≤ 2 ^ 63 - 1 by omega), Int.toNat_natCast]
  have hwithin : ¬(MaxFileBytes < size ∨ (MaxChunksPerFile : Int) <
    (chunkCount size chunk : Nat)) := by
    omega
  rw [if_neg hwithin]
  exact forChunks_native hmax hchunk hbound

theorem nativePlan_eq : PlansEvenly NativeChunkBytes nativePlan := by
  intro size hsize
  have hchunk : 0 < NativeChunkBytes := by norm_num [NativeChunkBytes]
  have hbound : NativeChunkBytes ≤ MaxChunkBytes := by norm_num [NativeChunkBytes, MaxChunkBytes]
  obtain ⟨haccept, hrefuse⟩ := checkUpload_eq hsize hchunk
  unfold nativePlan
  generalize NativeChunkBytes = chunk at hchunk hbound haccept hrefuse ⊢
  refine ⟨fun hmax => ?_, fun hmax => ?_⟩
  · obtain ⟨hfile, hchunks⟩ := le_min_iff.mp hmax
    simp only [haccept hmax, bind, Except.bind]
    exact nativeUpload_eq hsize hfile hchunk hbound ((chunkCount_le_iff hchunk).mpr hchunks)
  · obtain ⟨message, hmessage⟩ := hrefuse hmax
    exact ⟨message, by simp only [hmessage, bind, Except.bind]⟩

theorem windowsUpload_eq {chunk : Nat} (hsize : 0 < size) (hmax : size ≤ MaxFileBytes)
    (hchunk : 0 < chunk) (hbound : chunk ≤ MaxChunkBytes)
    (hcount : chunkCount size chunk ≤ MaxChunksPerFile) :
    windowsUpload chunk size = .ok (evenChunks size chunk) := by
  have hlimit : MaxFileBytes = 107374182400 := rfl
  have hmaxChunk : MaxChunkBytes = 67108864 := rfl
  have hmaxCount : MaxChunksPerFile = 10000 := rfl
  have hdivide : ((size : Int) + chunk - 1).tdiv chunk = (chunkCount size chunk : Nat) := by
    rw [Int.tdiv_eq_ediv_of_nonneg (by omega), chunkCount_cast hsize]
  simp only [windowsUpload, int64, int32, bind, Except.bind,
    ranged_ok (show -2 ^ 63 ≤ (size : Int) + chunk by omega)
      (show (size : Int) + chunk ≤ 2 ^ 63 - 1 by omega),
    ranged_ok (show -2 ^ 63 ≤ (size : Int) + chunk - 1 by omega)
      (show (size : Int) + chunk - 1 ≤ 2 ^ 63 - 1 by omega), hdivide,
    ranged_ok (show -2 ^ 31 ≤ ((chunkCount size chunk : Nat) : Int) by omega)
      (show ((chunkCount size chunk : Nat) : Int) ≤ 2 ^ 31 - 1 by omega), Int.toNat_natCast]
  exact forChunks_windows hmax hchunk hbound

theorem maximumFileBytes_eq {chunk : Nat} (hchunk : 0 < chunk) (hbound : chunk ≤ MaxChunkBytes) :
    maximumFileBytes chunk = .ok (min MaxFileBytes (MaxChunksPerFile * chunk) : Nat) := by
  have hmaxChunk : MaxChunkBytes = 67108864 := rfl
  have hproduct : (MaxChunksPerFile : Int) * chunk = (MaxChunksPerFile * chunk : Nat) :=
    (Nat.cast_mul _ _).symm
  have hten : MaxChunksPerFile * chunk ≤ 10000 * 67108864 :=
    Nat.mul_le_mul le_rfl (hmaxChunk ▸ hbound)
  simp only [maximumFileBytes, if_neg (show ¬(chunk : Int) ≤ 0 by omega), int64, bind, Except.bind,
    pure, Except.pure, hproduct,
    ranged_ok (show -2 ^ 63 ≤ ((MaxChunksPerFile * chunk : Nat) : Int) by omega)
      (show ((MaxChunksPerFile * chunk : Nat) : Int) ≤ 2 ^ 63 - 1 by omega), Nat.cast_min]

theorem windowsPlan_eq {chunk : Nat} (hchunk : 0 < chunk) (hbound : chunk ≤ MaxChunkBytes) :
    PlansEvenly chunk (windowsPlan chunk) := by
  intro size hsize
  unfold windowsPlan
  simp only [maximumFileBytes_eq hchunk hbound, bind, Except.bind, Nat.cast_lt]
  refine ⟨fun hmax => ?_, fun hmax => ⟨_, if_pos hmax⟩⟩
  obtain ⟨hfile, hchunks⟩ := le_min_iff.mp hmax
  rw [if_neg (Nat.not_lt.mpr hmax)]
  exact windowsUpload_eq hsize hfile hchunk hbound ((chunkCount_le_iff hchunk).mpr hchunks)

theorem browserPlan_eq {chunk : Nat} (hchunk : 0 < chunk) (hbound : chunk ≤ MaxChunkBytes) :
    PlansEvenly chunk (browserPlan chunk) := by
  intro size hsize
  have hcount : chunkCount size chunk ≤ MaxChunksPerFile ↔ size ≤ MaxChunksPerFile * chunk :=
    chunkCount_le_iff hchunk
  unfold browserPlan
  refine ⟨fun hmax => ?_, fun hmax => ?_⟩
  · obtain ⟨hfile, hchunks⟩ := le_min_iff.mp hmax
    rw [ceilQuotient_eq_chunkCount hsize hfile hchunk]
    simp only [if_neg (Nat.not_lt.mpr (hcount.mpr hchunks)), if_neg (Nat.not_lt.mpr hfile)]
    exact forChunks_browser hfile hchunk hbound
  · by_cases hmany : MaxChunksPerFile < Lib.ceilQuotient size chunk
    · exact ⟨_, if_pos hmany⟩
    · have hfile : MaxFileBytes < size := by
        by_contra hle
        rw [ceilQuotient_eq_chunkCount hsize (Nat.not_lt.mp hle) hchunk, Nat.not_lt,
          hcount] at hmany
        omega
      exact ⟨_, (if_neg hmany).trans (if_pos hfile)⟩

theorem browserChunkBytes_bounds (isMobile isIOS : Bool) (configured : Option Int) :
    0 < browserChunkBytes isMobile isIOS configured ∧
      browserChunkBytes isMobile isIOS configured ≤ MaxChunkBytes := by
  have hmax : MaxChunkBytes = 67108864 := rfl
  have hnative : NativeChunkBytes = 8388608 := rfl
  have hfallback : ∀ fallback : Nat, 0 < fallback → fallback ≤ MaxChunkBytes →
      0 < boundedInteger configured MaxChunkBytes fallback ∧
        boundedInteger configured MaxChunkBytes fallback ≤ MaxChunkBytes := by
    intro fallback hpositive hle
    unfold boundedInteger
    split
    · split_ifs <;> omega
    · exact ⟨hpositive, hle⟩
  have hvalue := hfallback (if isMobile then 8 * 1024 * 1024 else 16 * 1024 * 1024)
    (by split <;> omega) (by split <;> omega)
  unfold browserChunkBytes
  cases isIOS with
  | false => exact hvalue
  | true =>
    simp only [if_true]
    omega

end Plans

theorem windowsChunkBytes_bounds (configured : Int) :
    0 < windowsChunkBytes configured ∧ windowsChunkBytes configured ≤ MaxChunkBytes := by
  have hmax : MaxChunkBytes = 67108864 := rfl
  unfold windowsChunkBytes
  omega

theorem Client.plansEvenly (client : Client) : PlansEvenly client.chunkBytes client.plan := by
  cases client with
  | iosBase64 => exact base64Plan_eq
  | iosNative => exact nativePlan_eq
  | windows configured =>
    obtain ⟨hchunk, hbound⟩ := windowsChunkBytes_bounds configured
    exact windowsPlan_eq hchunk hbound
  | browser isMobile isIOS configured =>
    obtain ⟨hchunk, hbound⟩ := browserChunkBytes_bounds isMobile isIOS configured
    exact browserPlan_eq hchunk hbound

theorem Client.chunkBytes_bounds (client : Client) :
    0 < client.chunkBytes ∧ client.chunkBytes ≤ MaxChunkBytes := by
  cases client with
  | iosBase64 => exact ⟨by norm_num [chunkBytes, CompatibilityChunkBytes],
      by norm_num [chunkBytes, CompatibilityChunkBytes, MaxChunkBytes]⟩
  | iosNative => exact ⟨by norm_num [chunkBytes, NativeChunkBytes],
      by norm_num [chunkBytes, NativeChunkBytes, MaxChunkBytes]⟩
  | windows configured => exact windowsChunkBytes_bounds configured
  | browser isMobile isIOS configured => exact browserChunkBytes_bounds isMobile isIOS configured

/-- **Client chunk plans fit the server.**  A file of at least one byte and at most the maximum of
the client is planned without overflow, in chunks that tile it and that no check of the receiver on
sizes and counts refuses; a larger file is refused before the first request. -/
theorem client_plan_fits (client : Client) (size : Nat) (hsize : 0 < size) :
    (size ≤ client.maximum → ∃ plan, client.plan size = .ok plan ∧ FitsServer size plan ∧
        TakenBy client.encoding size plan) ∧
      (client.maximum < size → ∃ message, client.plan size = .error (.refused message)) := by
  obtain ⟨hchunk, hbound⟩ := client.chunkBytes_bounds
  obtain ⟨haccept, hrefuse⟩ := client.plansEvenly size hsize
  rw [Client.maximum]
  refine ⟨fun hmax => ?_, hrefuse⟩
  obtain ⟨hfile, hchunks⟩ := le_min_iff.mp hmax
  have hfits := fits_evenChunks hchunk hbound ((chunkCount_le_iff hchunk).mpr hchunks)
  exact ⟨_, haccept hmax, hfits, takenBy_of_fits client.encoding hfits hsize hfile⟩

/-- The largest file of the native path, and one byte more. -/
theorem client_plan_fits_native :
    (∃ plan, Client.iosNative.plan 83886080000 = .ok plan ∧ FitsServer 83886080000 plan) ∧
      ∃ message, Client.iosNative.plan 83886080001 = .error (.refused message) := by
  obtain ⟨plan, hplan, hfits, -⟩ := (client_plan_fits .iosNative 83886080000 (by norm_num)).1
    (by norm_num [Client.maximum, Client.chunkBytes, MaxFileBytes, MaxChunksPerFile,
      NativeChunkBytes])
  exact ⟨⟨plan, hplan, hfits⟩, (client_plan_fits .iosNative 83886080001 (by norm_num)).2
    (by norm_num [Client.maximum, Client.chunkBytes, MaxFileBytes, MaxChunksPerFile,
      NativeChunkBytes])⟩

end LocalMediaTransfer
