import LocalMediaTransfer.Server.ByteString

/-!
# The `/upload_chunk` request

The part of the `/upload_chunk` handler (`server/HttpServer.cpp`) before it calls the file
writer: authorization, header parsing and validation.  It touches no state of the writer, so it
is one function from the raw request to a response or a `ChunkRequest`, a structure whose fields
carry what the handler has checked.

The credential stores, the manifest check of native transfers and the base64 decoder are outside;
their answers are part of the request (`HttpChunkRequest`).  Response headers and the timing
fields of the body are left out.
-/

set_option autoImplicit false

namespace LocalMediaTransfer

/-- `TransferLimits::MaxChunkBytes` and `TransferLimits::MaxEncodedChunkBytes`. -/
def MaxChunkBytes : Nat := 67108864
def MaxEncodedChunkBytes : Nat := 94371840

/-- The JSON bodies of the responses. -/
inductive ResponseBody where
  | error (text : String)
  /-- `code: "filename_conflict"` with the name in use. -/
  | filenameConflict (filename : ByteString)
  /-- `complete: false`. -/
  | accepted (chunkIndex totalChunks : Nat)
  | complete (chunkIndex totalChunks : Nat) (filename : ByteString) (skipped : Bool)
      (sha256 : ByteString)
  deriving DecidableEq, Repr

structure HttpResponse where
  code : Nat
  body : ResponseBody
  deriving DecidableEq, Repr

/-- The `catch` clause of the handler. -/
def exceptionResponse (healthy : Bool) (what : String) : HttpResponse :=
  if healthy then ⟨400, .error what⟩ else ⟨503, .error "File inventory unavailable"⟩

/-- A raw request, with the answers of the services that the handler asks before it touches the
writer. -/
structure HttpChunkRequest where
  /-- `authorizeUpload`: the owner prefix of the credential. -/
  authorization : Option ByteString
  /-- `inventoryHealthy()` on entry. -/
  inventoryHealthy : Bool
  /-- `inventoryHealthy()` in the `catch` clause. -/
  healthyAtCatch : Bool
  /-- `authorizeUploadFile`. -/
  manifestAllows : Bool
  /-- `decodeBase64(req.body)`. -/
  decoded : Except String ByteString
  fileId : ByteString
  filename : ByteString
  chunkIndex : ByteString
  totalChunks : ByteString
  fileSize : ByteString
  skipDuplicates : ByteString
  transferEncoding : ByteString
  body : ByteString

/-- What the handler hands to the writer, with what it has checked. -/
structure ChunkRequest where
  storageId : ByteString
  filename : ByteString
  chunkIndex : Nat
  totalChunks : Nat
  fileSize : Nat
  skipExactDuplicates : Bool
  data : ByteString
  index_lt : chunkIndex < totalChunks
  data_ne : data ≠ []
  data_le : data.length ≤ fileSize

/-- `skipExactDuplicatesForRequest`. -/
def skipExactDuplicatesForRequest (header : ByteString) : Except String Bool :=
  let value := header.map toLower
  if value.isEmpty || value == ascii "true" || value == ascii "1" then .ok true
  else if value == ascii "false" || value == ascii "0" then .ok false
  else .error "Invalid X-Skip-Duplicates value"

/-- The four headers that are parsed, in the order of the handler. -/
def parseHeaders (req : HttpChunkRequest) : Except String (Nat × Nat × Nat × Bool) := do
  let chunkIndex ← stoull req.chunkIndex
  let totalChunks ← stoull req.totalChunks
  let fileSize ← stoull req.fileSize
  let skipExactDuplicates ← skipExactDuplicatesForRequest req.skipDuplicates
  return (chunkIndex, totalChunks, fileSize, skipExactDuplicates)

/-- The chunk bytes: the body, or its base64 decoding. -/
def chunkData (req : HttpChunkRequest) : Except String ByteString :=
  if req.transferEncoding = ascii "base64" then req.decoded else .ok req.body

/-- The handler up to its first call of the writer. -/
def admitRequest (req : HttpChunkRequest) : Except HttpResponse ChunkRequest :=
  match req.authorization with
  | none => .error ⟨401, .error "Unauthorized"⟩
  | some ownerPrefix =>
  if !req.inventoryHealthy then
    .error ⟨503, .error "File inventory unavailable; restart receiver after correcting storage"⟩
  else if MaxEncodedChunkBytes < req.body.length then
    .error ⟨413, .error "Chunk body exceeds limit"⟩
  else
  let filename := urlDecode req.filename
  if req.fileId.isEmpty || filename.isEmpty || req.chunkIndex.isEmpty ||
      req.totalChunks.isEmpty || req.fileSize.isEmpty then
    .error ⟨400, .error "Missing required chunk metadata"⟩
  else
  match parseHeaders req with
  | .error what => .error (exceptionResponse req.healthyAtCatch what)
  | .ok (chunkIndex, totalChunks, fileSize, skipExactDuplicates) =>
  if !req.manifestAllows then .error ⟨403, .error "transfer_manifest_mismatch"⟩
  else if hmeta : totalChunks = 0 ∨ totalChunks ≤ chunkIndex ∨ fileSize = 0 ∨ req.body = [] then
    .error ⟨400, .error "Invalid chunk metadata or empty body"⟩
  else
  match chunkData req with
  | .error what => .error (exceptionResponse req.healthyAtCatch what)
  | .ok data =>
  if hsize : data = [] ∨ fileSize < data.length ∨ MaxChunkBytes < data.length then
    .error ⟨400, .error "Invalid chunk size"⟩
  else
    .ok
      { storageId := ownerPrefix ++ req.fileId
        filename, chunkIndex, totalChunks, fileSize, skipExactDuplicates, data
        index_lt := by omega
        data_ne := by tauto
        data_le := by omega }

end LocalMediaTransfer
