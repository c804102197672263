import LocalMediaTransfer.Server.FileWriter.System
import LocalMediaTransfer.Gui.DotNet

/-!
# Chunk plans

The chunks a client sends for one file, and what the receiver asks of them: the `/upload_chunk`
handler of each request, `initFile` of the announced size and count, `writeChunk` of their order.

* `fits_evenChunks` — chunks of one size with a shorter last one fit, as long as they are few.
* `takenBy_of_fits` — **no check of the receiver refuses a plan that fits.**
-/

set_option autoImplicit false

namespace LocalMediaTransfer

/-- One request: its headers, and the bytes of the file in its body. -/
structure PlannedChunk where
  index : Nat
  totalChunks : Nat
  fileSize : Nat
  offset : Nat
  size : Nat
  deriving DecidableEq, Repr

/-- The byte ranges follow each other from `start` to `stop`. -/
def Tiles : Nat → Nat → List PlannedChunk → Prop
  | start, stop, [] => start = stop
  | start, stop, c :: rest => c.offset = start ∧ Tiles (c.offset + c.size) stop rest

/-- A plan for a file of `size` bytes that the receiver can take. -/
structure FitsServer (size : Nat) (plan : List PlannedChunk) : Prop where
  numbered : ∀ (i : Nat) c, plan[i]? = some c →
    c.index = i ∧ c.totalChunks = plan.length ∧ c.fileSize = size
  tiles : Tiles 0 size plan
  sizes : ∀ c ∈ plan, 0 < c.size ∧ c.size ≤ MaxChunkBytes
  count : plan.length ≤ MaxChunksPerFile

/-! ## Chunks of one size -/

/-- The number of chunks. -/
def chunkCount (size chunk : Nat) : Nat := (size + chunk - 1) / chunk

def chunkAt (size chunk index : Nat) : PlannedChunk :=
  ⟨index, chunkCount size chunk, size, index * chunk, min chunk (size - index * chunk)⟩

/-- Chunks of `chunk` bytes, of which the last may be shorter. -/
def evenChunks (size chunk : Nat) : List PlannedChunk :=
  (List.range (chunkCount size chunk)).map (chunkAt size chunk)

theorem le_chunkCount_mul {size chunk : Nat} (hchunk : 0 < chunk) :
    size ≤ chunkCount size chunk * chunk := by
  have h := Nat.div_add_mod (size + chunk - 1) chunk
  have hrest := Nat.mod_lt (size + chunk - 1) hchunk
  rw [Nat.mul_comm] at h
  unfold chunkCount
  omega

theorem lt_chunkCount_iff {size chunk index : Nat} (hchunk : 0 < chunk) :
    index < chunkCount size chunk ↔ index * chunk < size := by
  rw [chunkCount, Nat.lt_div_iff_mul_lt hchunk]
  have hstep := Nat.mul_comm chunk index
  omega

theorem chunkCount_le_iff {size chunk bound : Nat} (hchunk : 0 < chunk) :
    chunkCount size chunk ≤ bound ↔ size ≤ bound * chunk := by
  rw [← not_lt, lt_chunkCount_iff hchunk, not_lt]

theorem tiles_range' {size chunk : Nat} (hchunk : 0 < chunk) (rounds : Nat) :
    ∀ index, index + rounds = chunkCount size chunk →
      Tiles (min (index * chunk) size) size
        ((List.range' index rounds).map (chunkAt size chunk)) := by
  induction rounds with
  | zero =>
    intro index hindex
    obtain rfl : index = chunkCount size chunk := hindex
    exact min_eq_right (le_chunkCount_mul hchunk)
  | succ rounds ih =>
    intro index hindex
    have hlt := (lt_chunkCount_iff hchunk).mp (show index < chunkCount size chunk by omega)
    have hrest := ih (index + 1) (by omega)
    have hnext : index * chunk + min chunk (size - index * chunk) =
      min ((index + 1) * chunk) size := by
      rw [Nat.succ_mul]
      omega
    rw [List.range'_succ, List.map_cons]
    refine ⟨?_, ?_⟩
    · simp only [chunkAt]
      omega
    · simpa only [chunkAt, hnext] using hrest

theorem tiles_evenChunks {size chunk : Nat} (hchunk : 0 < chunk) :
    Tiles 0 size (evenChunks size chunk) := by
  have h : Tiles (min (0 * chunk) size) size _ :=
    tiles_range' hchunk (chunkCount size chunk) 0 (Nat.zero_add _)
  rwa [Nat.zero_mul, Nat.zero_min, ← List.range_eq_range'] at h

theorem fits_evenChunks {size chunk : Nat} (hchunk : 0 < chunk) (hmax : chunk ≤ MaxChunkBytes)
    (hcount : chunkCount size chunk ≤ MaxChunksPerFile) : FitsServer size
    (evenChunks size chunk) where
  numbered := by
    intro i c hc
    rw [evenChunks, List.getElem?_map, Option.map_eq_some_iff] at hc
    obtain ⟨index, hindex, rfl⟩ := hc
    obtain ⟨hlt, rfl⟩ := List.getElem?_eq_some_iff.mp hindex
    simp [chunkAt, evenChunks]
  tiles := tiles_evenChunks hchunk
  sizes := by
    intro c hc
    obtain ⟨index, hindex, rfl⟩ := List.mem_map.mp hc
    have hlt := (lt_chunkCount_iff hchunk).mp (List.mem_range.mp hindex)
    simp only [chunkAt]
    omega
  count := by simpa [evenChunks] using hcount

/-! ## Requests -/

/-- A digit of base64. -/
def base64Digit (n : Nat) : UInt8 :=
  UInt8.ofNat (if n < 26 then 65 + n else if n < 52 then 71 + n else if n < 62 then n - 4
    else if n = 62 then 43 else 47)

/-- Base64 with padding and without line breaks. -/
def encodeBase64 : ByteString → ByteString
  | a :: b :: c :: rest =>
      base64Digit (a.toNat / 4) :: base64Digit (a.toNat % 4 * 16 + b.toNat / 16) ::
        base64Digit (b.toNat % 16 * 4 + c.toNat / 64) :: base64Digit (c.toNat % 64) ::
        encodeBase64 rest
  | [a, b] =>
      [base64Digit (a.toNat / 4), base64Digit (a.toNat % 4 * 16 + b.toNat / 16),
        base64Digit (b.toNat % 16 * 4), 61]
  | [a] => [base64Digit (a.toNat / 4), base64Digit (a.toNat % 4 * 16), 61, 61]
  | [] => []

/-- How a client sends the bytes of a chunk. -/
inductive BodyEncoding where
  | plain
  | base64
  deriving DecidableEq, Repr

/-- The bytes of a file that a chunk covers. -/
def PlannedChunk.bytes (c : PlannedChunk) (content : ByteString) : ByteString :=
  (content.drop c.offset).take c.size

/-- `X-Content-Transfer-Encoding`, the body, and the answer of `decodeBase64` for it. -/
def BodyEncoding.Sends (encoding : BodyEncoding) (data : ByteString)
    (req : HttpChunkRequest) : Prop :=
  match encoding with
  | .plain => req.transferEncoding = [] ∧ req.body = data
  | .base64 =>
      req.transferEncoding = ascii "base64" ∧ req.body = encodeBase64 data ∧ req.decoded = .ok data

/-- A request for a chunk of a file with the given content. -/
structure Conveys (encoding : BodyEncoding) (content : ByteString) (c : PlannedChunk)
    (req : HttpChunkRequest) : Prop where
  chunkIndex : req.chunkIndex = decimal c.index
  totalChunks : req.totalChunks = decimal c.totalChunks
  fileSize : req.fileSize = decimal c.fileSize
  sends : encoding.Sends (c.bytes content) req

/-- A request that passes the checks that do not look at sizes and counts. -/
structure Welcome (req : HttpChunkRequest) : Prop where
  authorized : req.authorization.isSome
  healthy : req.inventoryHealthy = true
  named : req.fileId ≠ [] ∧ urlDecode req.filename ≠ []
  listed : req.manifestAllows = true
  policy : ∃ skip, skipExactDuplicatesForRequest req.skipDuplicates = .ok skip

/-- The server's writer takes the chunks one after the other. -/
def FileHandle.deliver (h : FileHandle) : List PlannedChunk → Option FileHandle
  | [] => some h
  | c :: rest =>
      match h.checkChunk c.index c.size with
      | .accept _ _ => (h.commitChunk c.size true).deliver rest
      | .reject _ => none

/-- No check of the receiver on sizes and counts refuses the plan. -/
structure TakenBy (encoding : BodyEncoding) (size : Nat) (plan : List PlannedChunk) : Prop where
  /-- The handler of `/upload_chunk`, request by request. -/
  admitted : ∀ content : ByteString, content.length = size → ∀ c ∈ plan, ∀ req, Welcome req →
    Conveys encoding content c req →
    ∃ chunk, admitRequest req = .ok chunk ∧ chunk.chunkIndex = c.index ∧
      chunk.totalChunks = plan.length ∧ chunk.fileSize = size ∧ chunk.data = c.bytes content
  /-- `initFile`, with the limit of the receiver on the size of a file. -/
  valid : ∀ (cfg : WriterConfig) (a : InitArgs), cfg.limits.maxFileBytes = MaxFileBytes →
    a.totalSize = size → a.totalChunks = plan.length → a.valid cfg = isSafeFileId a.fileId
  /-- `writeChunk`, chunk after chunk on the handle that `initFile` creates. -/
  delivered : ∀ (a : InitArgs) serial streaming, a.totalSize = size →
    ∃ h, (a.handle serial streaming).deliver plan = some h ∧ h.chunksReceived = plan.length ∧
      h.bytesWritten = size

variable {size : Nat} {plan : List PlannedChunk} {c : PlannedChunk} {content : ByteString}

theorem length_encodeBase64 (data : ByteString) :
    (encodeBase64 data).length = 4 * ((data.length + 2) / 3) := by
  fun_induction encodeBase64 data with
  | case1 a b c rest ih =>
    simp only [List.length_cons, ih]
    omega
  | case2 | case3 | case4 => simp

/-! ## What fits is taken -/

theorem tiles_bounds : ∀ {plan : List PlannedChunk} {start stop : Nat}, Tiles start stop plan →
    start ≤ stop ∧ ∀ c ∈ plan, start ≤ c.offset ∧ c.offset + c.size ≤ stop := by
  intro plan
  induction plan with
  | nil =>
    rintro start stop rfl
    exact ⟨le_rfl, fun c hc => absurd hc List.not_mem_nil⟩
  | cons first rest ih =>
    rintro start stop ⟨rfl, hrest⟩
    obtain ⟨hle, hall⟩ := ih hrest
    refine ⟨by omega, fun c hc => ?_⟩
    rcases List.mem_cons.mp hc with rfl | hc
    · exact ⟨le_rfl, hle⟩
    · have := hall c hc
      omega

theorem FitsServer.range_le (hfits : FitsServer size plan) (hc : c ∈ plan) :
    c.offset + c.size ≤ size := ((tiles_bounds hfits.tiles).2 c hc).2

theorem FitsServer.header_of_mem (hfits : FitsServer size plan) (hc : c ∈ plan) :
    c.index < plan.length ∧ c.totalChunks = plan.length ∧ c.fileSize = size := by
  obtain ⟨i, hi, rfl⟩ := List.mem_iff_getElem.mp hc
  obtain ⟨hindex, htotal, hsize⟩ := hfits.numbered i _ (List.getElem?_eq_getElem hi)
  exact ⟨by omega, htotal, hsize⟩

theorem length_bytes (hfits : FitsServer size plan) (hc : c ∈ plan)
    (hcontent : content.length = size) :
    (c.bytes content).length = c.size := by
  have := hfits.range_le hc
  rw [PlannedChunk.bytes, List.length_take, List.length_drop, hcontent]
  omega

/-- The body of a request is not empty, decodes to the bytes of the chunk and keeps to the limit of
the encoded size. -/
theorem body_of_sends {encoding : BodyEncoding} {data : ByteString} {req : HttpChunkRequest}
    (hsends : encoding.Sends data req) (hdata : 0 < data.length)
    (hmax : data.length ≤ MaxChunkBytes) :
    req.body ≠ [] ∧ req.body.length ≤ MaxEncodedChunkBytes ∧ chunkData req = .ok data := by
  have hlimit : MaxChunkBytes = 67108864 := rfl
  have hencoded : MaxEncodedChunkBytes = 94371840 := rfl
  cases encoding with
  | plain =>
    obtain ⟨hencoding, rfl⟩ := hsends
    refine ⟨List.length_pos_iff.mp hdata, by omega, ?_⟩
    rw [chunkData, hencoding, if_neg (by decide)]
  | base64 =>
    obtain ⟨hencoding, hbody, hdecoded⟩ := hsends
    have hlength : req.body.length = 4 * ((data.length + 2) / 3) := by
      rw [hbody, length_encodeBase64]
    refine ⟨List.length_pos_iff.mp (by omega), by omega, ?_⟩
    rw [chunkData, if_pos hencoding, hdecoded]

/-- The handler passes a request of a plan that fits on to the writer. -/
theorem admitRequest_of_fits {encoding : BodyEncoding} {req : HttpChunkRequest}
    (hfits : FitsServer size plan) (hsize : size < 2 ^ 64) (hcontent : content.length = size)
    (hc : c ∈ plan) (hwelcome : Welcome req) (hconveys : Conveys encoding content c req) :
    ∃ chunk, admitRequest req = .ok chunk ∧ chunk.chunkIndex = c.index ∧
      chunk.totalChunks = plan.length ∧ chunk.fileSize = size ∧ chunk.data = c.bytes content := by
  obtain ⟨hindex, htotal, hfile⟩ := hfits.header_of_mem hc
  obtain ⟨hpositive, hmax⟩ := hfits.sizes c hc
  have hcount : plan.length ≤ 10000 := hfits.count
  have hrange := hfits.range_le hc
  have hlength := length_bytes hfits hc hcontent
  obtain ⟨hbody, hencoded, hdata⟩ :=
    body_of_sends hconveys.sends (by rwa [hlength]) (by rwa [hlength])
  obtain ⟨ownerPrefix, howner⟩ := Option.isSome_iff_exists.mp hwelcome.authorized
  obtain ⟨skip, hskip⟩ := hwelcome.policy
  have hheaders : parseHeaders req = .ok (c.index, plan.length, size, skip) := by
    rw [parseHeaders, hconveys.chunkIndex, hconveys.totalChunks, hconveys.fileSize, htotal, hfile,
      stoull_decimal (by omega), stoull_decimal (by omega), stoull_decimal hsize, hskip]
    rfl
  have hmeta : ¬(plan.length = 0 ∨ plan.length ≤ c.index ∨ size = 0 ∨ req.body = []) := by
    rintro (h | h | h | h)
    · omega
    · omega
    · omega
    · exact hbody h
  have hchunk : ¬(c.bytes content = [] ∨ size < (c.bytes content).length ∨
      MaxChunkBytes < (c.bytes content).length) := by
    rw [← List.length_eq_zero_iff, hlength]
    omega
  have hnames : (req.fileId.isEmpty || (urlDecode req.filename).isEmpty || req.chunkIndex.isEmpty ||
      req.totalChunks.isEmpty || req.fileSize.isEmpty) = false := by
    simp [hwelcome.named, hconveys.chunkIndex, hconveys.totalChunks,
      hconveys.fileSize, decimal_ne_nil]
  unfold admitRequest
  simp only [howner, hwelcome.healthy, hnames, hheaders, hwelcome.listed, hdata, hmeta, hchunk,
    if_neg (Nat.not_lt.mpr hencoded), Bool.not_true, Bool.false_eq_true, if_false, dite_false]
  exact ⟨_, rfl, rfl, rfl, rfl, rfl⟩

theorem valid_of_fits {cfg : WriterConfig} {a : InitArgs} (hfits : FitsServer size plan)
    (hpositive : 0 < size) (hlimit : size ≤ cfg.limits.maxFileBytes) (hsize : a.totalSize = size)
    (htotal : a.totalChunks = plan.length) : a.valid cfg = isSafeFileId a.fileId := by
  have hcount := hfits.count
  have hne : plan.length ≠ 0 := by
    intro hzero
    have htiles := hfits.tiles
    rw [List.length_eq_zero_iff.mp hzero] at htiles
    exact hpositive.ne htiles
  simp [InitArgs.valid, hsize, htotal, hpositive.ne', hne, Nat.not_lt.mpr hlimit,
    Nat.not_lt.mpr hcount]

/-- The run of `writeChunk` over the rest of a plan, from the handle that has received the chunks
before it. -/
theorem deliver_of_tiles {size : Nat} (hsize : size < 2 ^ 64) : ∀ {rest : List PlannedChunk}
    {h : FileHandle}, h.totalSize = size → Tiles h.bytesWritten size rest →
    (∀ (i : Nat) c, rest[i]? = some c → c.index = h.chunksReceived + i) →
    ∃ h', h.deliver rest = some h' ∧ h'.chunksReceived = h.chunksReceived + rest.length ∧
      h'.bytesWritten = size := by
  intro rest
  induction rest with
  | nil => exact fun htotal htiles _ => ⟨_, rfl, rfl, htiles⟩
  | cons c rest ih =>
    intro h htotal htiles hnumbered
    obtain ⟨hoffset, hrest⟩ := htiles
    have hfirst : c.index = h.chunksReceived := hnumbered 0 c rfl
    have hfit := (tiles_bounds hrest).1
    have hcheck : h.checkChunk c.index c.size = .accept h.serial h.bytesWritten := by
      rw [FileHandle.checkChunk, hfirst, if_neg (lt_irrefl _), if_neg (not_not.mpr rfl), if_neg]
      rw [htotal, sub64_of_le (by omega) hsize]
      omega
    have hwritten : (h.commitChunk c.size true).bytesWritten = c.offset + c.size := by
      simp only [FileHandle.commitChunk]
      rw [← hoffset, add64_of_lt (by omega)]
    obtain ⟨h', hdeliver, hreceived, hdone⟩ := ih (h := h.commitChunk c.size true) htotal
      (by rwa [hwritten]) (by
        intro i next hnext
        have := hnumbered (i + 1) next (by simpa using hnext)
        simp only [FileHandle.commitChunk]
        omega)
    refine ⟨h', ?_, ?_, hdone⟩
    · rw [FileHandle.deliver, hcheck]
      exact hdeliver
    · rw [hreceived, List.length_cons]
      simp only [FileHandle.commitChunk]
      omega

/-- **No check of the receiver on sizes and counts refuses a plan that fits.** -/
theorem takenBy_of_fits (encoding : BodyEncoding) (hfits : FitsServer size plan)
    (hpositive : 0 < size)
    (hmax : size ≤ MaxFileBytes) : TakenBy encoding size plan := by
  have hlimit : MaxFileBytes = 107374182400 := rfl
  refine ⟨?_, ?_, ?_⟩
  · intro content hcontent c hc req hwelcome hconveys
    exact admitRequest_of_fits hfits (by omega) hcontent hc hwelcome hconveys
  · intro cfg a hcfg hsize htotal
    exact valid_of_fits hfits hpositive (by rwa [hcfg]) hsize htotal
  · intro a serial streaming hsize
    have htiles : Tiles (a.handle serial streaming).bytesWritten size plan := hfits.tiles
    obtain ⟨h, hdeliver, hreceived, hdone⟩ := deliver_of_tiles (by omega)
      (h := a.handle serial streaming) hsize htiles fun i c hc => by
        rw [(hfits.numbered i c hc).1]
        exact (Nat.zero_add i).symm
    exact ⟨h, hdeliver, by rw [hreceived]; exact Nat.zero_add _, hdone⟩

end LocalMediaTransfer
