import LocalMediaTransfer.Server.ByteString
import LocalMediaTransfer.Server.Security.PairingStore

/-!
# Owners and upload sessions

The names under which the `/upload_chunk` and `/upload_session/cancel` handlers
(`server/HttpServer.cpp`) keep files apart.  The writer knows a file under
`hash(credential) + "-" + X-File-Id`; a client puts an upload session ID and a dash in front of its
file IDs, and cancels a session by that prefix.

* `ownerPrefix_inj` — owner and client file ID can be read back from a storage ID.
* `session_unambiguous` — a file ID begins with at most one session ID and a dash.
* `cancelPrefix_isPrefix_iff` — **a cancel prefix matches the files of one session of one
  credential**, whatever the file IDs look like.
-/

set_option autoImplicit false

namespace LocalMediaTransfer

/-- One hexadecimal digit, lower case. -/
def hexDigit (n : Nat) : UInt8 := UInt8.ofNat (if n < 10 then 48 + n else 87 + n)

/-- `std::hex` with two digits a byte. -/
def toHex (bytes : ByteString) : ByteString :=
  bytes.flatMap fun b => [hexDigit (b.toNat / 16), hexDigit (b.toNat % 16)]

/-- `EVP_sha256` of OpenSSL. -/
structure Sha256 where
  digest : ByteString → ByteString
  digest_length : ∀ value, (digest value).length = 32

/-- `HashEngine::computeHash`; `ok` tells whether the OpenSSL calls worked. -/
def Sha256.computeHash (sha : Sha256) (ok : Bool) (value : ByteString) : ByteString :=
  if ok then toHex (sha.digest value) else []

/-- `HttpServer::credentialOwnerPrefix`. -/
def Sha256.credentialOwnerPrefix (sha : Sha256) (ok : Bool) (token : ByteString) :
    Except String ByteString :=
  let hash := sha.computeHash ok token
  if hash.isEmpty then .error "Unable to identify upload owner" else .ok (hash ++ ascii "-")

/-- The owner prefix of a credential, when it can be computed. -/
def Sha256.ownerPrefix (sha : Sha256) (credential : ByteString) : ByteString :=
  toHex (sha.digest credential) ++ ascii "-"

/-- `^ios-[0-9]{10,20}$`. -/
def isIosSession (sessionId : ByteString) : Bool :=
  (ascii "ios-").isPrefixOf sessionId &&
    (10 ≤ (sessionId.drop 4).length && (sessionId.drop 4).length ≤ 20) &&
    (sessionId.drop 4).all isDigit

/-- `^win-[a-f0-9]{32}$`. -/
def isWinSession (sessionId : ByteString) : Bool :=
  (ascii "win-").isPrefixOf sessionId && (sessionId.drop 4).length == 32 &&
    (sessionId.drop 4).all fun b => isDigit b || (97 ≤ b && b ≤ 102)

/-- `sessionPattern`. -/
def isUploadSession (sessionId : ByteString) : Bool := isIosSession sessionId ||
    isWinSession sessionId

/-- The prefix handed to `abortFilesWithPrefix`. -/
def Sha256.cancelPrefix (sha : Sha256) (credential sessionId : ByteString) : ByteString :=
  sha.ownerPrefix credential ++ sessionId ++ ascii "-"

/-- What decides about a request to `/upload_session/cancel`. -/
structure CancelRequest where
  /-- `authorizeUpload`: the owner prefix and the `X-Transfer-Id` header. -/
  authorization : Option (ByteString × ByteString)
  /-- `sessionId` of the body; `none` when parsing threw. -/
  sessionId : Option ByteString
  /-- Whether `cancelTransfer` of the native store answered 200. -/
  nativeCancelled : Bool

/-- The handler up to its call of `abortFilesWithPrefix`: the prefix, or status and error text. -/
def CancelRequest.admit (req : CancelRequest) (ownsSession : ByteString → Bool) :
    Except (Nat × String) ByteString :=
  match req.authorization with
  | none => .error (401, "Unauthorized")
  | some (ownerPrefix, grantId) =>
  match req.sessionId with
  | none => .error (400, "Invalid upload session request")
  | some sessionId =>
  if !isUploadSession sessionId then .error (400, "Invalid upload session")
  else
    let cancelPrefix := ownerPrefix ++ sessionId ++ ascii "-"
    if (ascii "win-").isPrefixOf sessionId then
      if grantId == sessionId.drop 4 && req.nativeCancelled then .ok cancelPrefix
      else .error (403, "Session ownership mismatch")
    else if !grantId.isEmpty || !ownsSession cancelPrefix then
      .error (403, "Session ownership mismatch")
    else .ok cancelPrefix

variable {sha : Sha256} {c c' sessionId sessionId' f f' : ByteString}

/-! ## Hexadecimal digests -/

theorem length_toHex (bytes : ByteString) : (toHex bytes).length = 2 * bytes.length := by
  induction bytes with
  | nil => rfl
  | cons b bytes ih =>
    rw [toHex, List.flatMap_cons, List.length_append, ← toHex, ih, List.length_cons]
    simp only [List.length_cons, List.length_nil]
    omega

theorem isSafeByte_hexDigit : ∀ n < 16, isSafeByte (hexDigit n) = true := by
  decide

theorem isSafeByte_toHex (bytes : ByteString) : (toHex bytes).all isSafeByte = true := by
  rw [List.all_eq_true]
  intro b hb
  obtain ⟨a, -, hb⟩ := List.mem_flatMap.mp hb
  have ha := a.toNat_lt
  rcases List.mem_cons.mp hb with rfl | hb
  · exact isSafeByte_hexDigit _ (by omega)
  · obtain rfl := List.mem_singleton.mp hb
    exact isSafeByte_hexDigit _ (by omega)

theorem length_ownerPrefix (sha : Sha256) (c : ByteString) : (sha.ownerPrefix c).length = 65 := by
  rw [Sha256.ownerPrefix, List.length_append, length_toHex, sha.digest_length]
  rfl

/-- The handlers put this prefix in front of the client's file ID. -/
theorem credentialOwnerPrefix_eq_ok {ok : Bool} {p : ByteString}
    (h : sha.credentialOwnerPrefix ok c = .ok p) : p = sha.ownerPrefix c := by
  unfold Sha256.credentialOwnerPrefix Sha256.computeHash at h
  cases ok with
  | false => cases h
  | true =>
    simp only [if_true] at h
    split at h
    · cases h
    · cases h
      rfl

/-! ## Reading a storage ID back -/

theorem digest_eq_of_toHex : ∀ {a b : ByteString}, toHex a = toHex b → a = b := by
  intro a
  induction a with
  | nil =>
    intro b h
    have hlen := congrArg List.length h
    rw [length_toHex, length_toHex] at hlen
    exact (List.length_eq_zero_iff.mp (by simpa using hlen.symm)).symm
  | cons x a ih =>
    intro b h
    cases b with
    | nil => cases h
    | cons y b =>
      have hdigit : ∀ m < 16, ∀ n < 16, hexDigit m = hexDigit n → m = n := by decide
      have hx := x.toNat_lt
      have hy := y.toNat_lt
      simp only [toHex, List.flatMap_cons, List.cons_append, List.nil_append, List.cons.injEq] at h
      have hhigh := hdigit _ (by omega) _ (by omega) h.1
      have hlow := hdigit _ (by omega) _ (by omega) h.2.1
      have hxy : x = y := UInt8.toNat_inj.mp (by omega)
      rw [hxy, ih h.2.2]

/-- Owner and client file ID are determined by the storage ID. -/
theorem ownerPrefix_inj (h : sha.ownerPrefix c ++ f = sha.ownerPrefix c' ++ f') :
    sha.digest c = sha.digest c' ∧ f = f' := by
  have hlen : (sha.ownerPrefix c).length = (sha.ownerPrefix c').length := by
    rw [length_ownerPrefix, length_ownerPrefix]
  obtain ⟨hc, hf⟩ := List.append_inj h hlen
  exact ⟨digest_eq_of_toHex (List.append_left_injective _ hc), hf⟩

/-- **A cancel prefix matches the files of one session of one owner.** -/
theorem cancelPrefix_isPrefix_iff :
    sha.cancelPrefix c sessionId <+: sha.ownerPrefix c' ++ f ↔
      sha.digest c = sha.digest c' ∧ sessionId ++ ascii "-" <+: f := by
  constructor
  · rintro ⟨rest, h⟩
    rw [Sha256.cancelPrefix, List.append_assoc, List.append_assoc] at h
    obtain ⟨hc, hf⟩ := ownerPrefix_inj h
    exact ⟨hc, rest, by rw [List.append_assoc, hf]⟩
  · rintro ⟨hc, rest, rfl⟩
    refine ⟨rest, ?_⟩
    simp only [Sha256.cancelPrefix, Sha256.ownerPrefix, hc, List.append_assoc]

/-! ## Session IDs -/

/-- What every accepted session ID looks like: a kind of four bytes, then neither dash nor unsafe
byte. -/
structure SessionShape (sessionId : ByteString) : Prop where
  kind : sessionId.take 4 = ascii "ios-" ∨ sessionId.take 4 = ascii "win-"
  long : 4 ≤ sessionId.length
  short : sessionId.length ≤ 36
  rest : ∀ b ∈ sessionId.drop 4, isSafeByte b = true ∧ b ≠ 45

theorem isSafeByte_of_hex {b : UInt8} (h : (isDigit b || (97 ≤ b && b ≤ 102)) = true) :
    isSafeByte b = true ∧ b ≠ 45 := by
  have hall : ∀ n < 256, (isDigit (UInt8.ofNat n) || (97 ≤ UInt8.ofNat n && UInt8.ofNat n ≤ 102)) =
      true → isSafeByte (UInt8.ofNat n) = true ∧ UInt8.ofNat n ≠ 45 := by decide +kernel
  have hb := hall b.toNat b.toNat_lt
  rw [UInt8.ofNat_toNat] at hb
  exact hb h

theorem sessionShape (h : isUploadSession sessionId = true) : SessionShape sessionId := by
  rw [isUploadSession, Bool.or_eq_true] at h
  rcases h with h | h
  · simp only [isIosSession, Bool.and_eq_true, decide_eq_true_eq, List.all_eq_true,
      List.isPrefixOf_iff_prefix, List.length_drop] at h
    obtain ⟨⟨⟨t, rfl⟩, hlow, hhigh⟩, hdigits⟩ := h
    have hlen : (ascii "ios-" ++ t).length = t.length + 4 := by
      rw [List.length_append, Nat.add_comm]
      rfl
    refine ⟨.inl rfl, by omega, by omega, fun b hb => ?_⟩
    exact isSafeByte_of_hex (by rw [hdigits b hb]; rfl)
  · simp only [isWinSession, Bool.and_eq_true, beq_iff_eq, List.all_eq_true,
      List.isPrefixOf_iff_prefix, List.length_drop] at h
    obtain ⟨⟨⟨t, rfl⟩, hlen32⟩, hdigits⟩ := h
    have hlen : (ascii "win-" ++ t).length = t.length + 4 := by
      rw [List.length_append, Nat.add_comm]
      rfl
    refine ⟨.inr rfl, by omega, by omega, fun b hb => ?_⟩
    exact isSafeByte_of_hex (hdigits b hb)

/-- A session ID and a dash do not begin with another session ID and a dash. -/
theorem session_eq_of_isPrefix (hs : SessionShape sessionId) (hs' : SessionShape sessionId')
    (hle : sessionId.length ≤ sessionId'.length) (h : sessionId ++ ascii "-" <+: f)
    (h' : sessionId' ++ ascii "-" <+: f) : sessionId = sessionId' := by
  have hpre : sessionId <+: sessionId' :=
    List.prefix_of_prefix_length_le ((List.prefix_append ..).trans h)
      ((List.prefix_append ..).trans h') hle
  rcases Nat.lt_or_eq_of_le hle with hlt | heq
  · have hdash : sessionId ++ ascii "-" <+: sessionId' :=
      List.prefix_of_prefix_length_le h ((List.prefix_append ..).trans h')
        (by rw [List.length_append]; exact hlt)
    obtain ⟨t, rfl⟩ := hdash
    have hmem : (45 : UInt8) ∈ (sessionId ++ ascii "-" ++ t).drop 4 := by
      rw [List.append_assoc, List.drop_append_of_le_length hs.long]
      exact List.mem_append_right _ (List.mem_cons_self ..)
    exact absurd rfl (hs'.rest _ hmem).2
  · exact hpre.eq_of_length heq

/-- **A file ID begins with at most one session ID and a dash.** -/
theorem session_unambiguous (hs : isUploadSession sessionId = true)
    (hs' : isUploadSession sessionId' = true) (h : sessionId ++ ascii "-" <+: f)
    (h' : sessionId' ++ ascii "-" <+: f) : sessionId = sessionId' := by
  rcases Nat.le_total sessionId.length sessionId'.length with hle | hle
  · exact session_eq_of_isPrefix (sessionShape hs) (sessionShape hs') hle h h'
  · exact (session_eq_of_isPrefix (sessionShape hs') (sessionShape hs) hle h' h).symm

theorem isSafeFileId_cancelPrefix_of (sha : Sha256) (c : ByteString)
    (hsafe : sessionId.all isSafeByte = true) (hshort : sessionId.length ≤ 36) :
    isSafeFileId (sha.cancelPrefix c sessionId) = true := by
  have hlen : (sha.cancelPrefix c sessionId).length = sessionId.length + 66 := by
    rw [Sha256.cancelPrefix, List.length_append, List.length_append, length_ownerPrefix]
    show 65 + sessionId.length + 1 = _
    omega
  rw [isSafeFileId, Bool.and_eq_true, Bool.and_eq_true]
  refine ⟨⟨?_, ?_⟩, ?_⟩
  · rw [Bool.not_eq_true', List.isEmpty_eq_false_iff]
    exact List.ne_nil_of_length_pos (by omega)
  · rw [decide_eq_true_eq]
    omega
  · simp only [Sha256.cancelPrefix, Sha256.ownerPrefix, List.all_append, isSafeByte_toHex, hsafe]
    decide

/-- `abortFilesWithPrefix` accepts every cancel prefix. -/
theorem isSafeFileId_cancelPrefix (sha : Sha256) (c : ByteString)
    (hs : isUploadSession sessionId = true) : isSafeFileId
    (sha.cancelPrefix c sessionId) = true := by
  have hshape := sessionShape hs
  refine isSafeFileId_cancelPrefix_of sha c ?_ hshape.short
  rw [← List.take_append_drop 4 sessionId, List.all_append, Bool.and_eq_true]
  refine ⟨?_, List.all_eq_true.mpr fun b hb => (hshape.rest b hb).1⟩
  rcases hshape.kind with hk | hk <;> rw [hk] <;> decide

end LocalMediaTransfer
