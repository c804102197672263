import LocalMediaTransfer.Server.Http.FilenameHeader
import LocalMediaTransfer.Server.Security.NativeSession.Model

/-!
# The pairing transcript

Both computers derive a security code and a confirmation proof from a canonical text: each field
with its length in four big-endian bytes.  The receiver does so in C++ on bytes
(`NativeSessionStore.cpp`), the sender in C# on UTF-16 text (`NativeSecurity.cs`), each with its own
serializer and number formatting.  SHA-256 and HMAC are the same function on both sides (`Digests`).

* `computeSecurityCode`, `confirmationProof` — the receiver.
* `NativeSecurity.computeSecurityCode`, `NativeSecurity.computeConfirmationProof` — the sender.
* `transcript_injective` — the canonical text tells lists of equally many fields apart.
* `securityCode_agrees`, `confirmationProof_agrees` — code and proof, field by field.
* `pairing_transcript_agrees` — the two sides compute the same code and the same proof.
-/

set_option autoImplicit false

namespace LocalMediaTransfer

open FilenameHeader (hexDigit nibble_bounds)

/-! ## Digests -/

/-- SHA-256 and HMAC-SHA-256 on bytes. -/
structure Digests where
  sha256 : ByteString → ByteString
  hmacSha256 : (key data : ByteString) → ByteString
  sha256_length : ∀ data, (sha256 data).length = 32
  hmacSha256_length : ∀ key data, (hmacSha256 key data).length = 32

def lowerHexDigit (n : UInt8) : UInt8 := if n < 10 then 48 + n else 87 + n

/-- `std::hex` with `setw(2)` and `setfill('0')`, byte by byte. -/
def hexText (bytes : ByteString) : ByteString :=
  bytes.flatMap fun b => [lowerHexDigit (b / 16), lowerHexDigit (b % 16)]

theorem hexText_length (bytes : ByteString) : (hexText bytes).length = 2 * bytes.length := by
  induction bytes with
  | nil => rfl
  | cons b rest ih =>
    unfold hexText at ih ⊢
    rw [List.flatMap_cons, List.length_append, ih, List.length_cons]
    simp only [List.length_cons, List.length_nil]
    omega

/-- `sha256Hex` and `hmacHex` of the receiver. -/
def Digests.crypto (D : Digests) : Crypto where
  sha256Hex value := hexText (D.sha256 value)
  hmacHex key data := hexText (D.hmacSha256 key data)
  sha256Hex_length value := by rw [hexText_length, D.sha256_length]

/-! ## The receiver -/

/-- A `std::string` made from a `const char*`. -/
def cString (text : ByteString) : ByteString := text.takeWhile (· != 0)

/-- `std::stoul` in base 16, on a text that begins with a digit. -/
def stoulHex (text : ByteString) : Nat :=
  (text.takeWhile isXDigit).foldl (fun acc d => acc * 16 + (hexToNibble d).toNat) 0

/-- `computeSecurityCode`. -/
def computeSecurityCode (crypto : Crypto)
    (environment serverId fingerprint clientId clientNonce requestId : ByteString) : ByteString :=
  let fields := [ascii "LMT-WINDOWS-PAIR-V1", environment, serverId, fingerprint, clientId,
    clientNonce, requestId]
  let digest := crypto.sha256Hex (fields.flatMap fun value => canonical (cString value))
  let numeric := stoulHex (digest.take 8) % 2 ^ 32 % 100000000
  let raw := (decimal numeric).leftpad 8 48
  raw.take 4 ++ ascii " " ++ raw.drop 4

/-! ## The sender -/

namespace NativeSecurity

/-- `WriteUInt32BigEndian`. -/
def writeUInt32BigEndian (value : UInt32) : ByteString :=
  [(value >>> 24).toUInt8, (value >>> 16).toUInt8, (value >>> 8).toUInt8, value.toUInt8]

/-- `ReadUInt32BigEndian`. -/
def readUInt32BigEndian (bytes : ByteString) : Nat :=
  (bytes.take 4).foldl (fun acc b => acc * 256 + b.toNat) 0

/-- `AppendCanonical`; `none` is the `OverflowException` of the checked conversion. -/
def appendCanonical (stream : ByteString) (value : WideString) : Option ByteString :=
  let bytes := wideToUtf8 value
  if bytes.length < 2 ^ 32 then
    some (stream ++ writeUInt32BigEndian (UInt32.ofNat bytes.length) ++ bytes)
  else none

/-- `Convert.ToHexString`. -/
def toHexString (bytes : ByteString) : WideString :=
  bytes.flatMap fun b => [(hexDigit (b / 16)).toUInt16, (hexDigit (b % 16)).toUInt16]

/-- `ToLowerInvariant`, on ASCII text. -/
def toLowerInvariant (text : WideString) : WideString :=
  text.map fun u => if 65 ≤ u && u ≤ 90 then u + 32 else u

/-- The value of a hexadecimal digit. -/
def fromHexChar (u : UInt16) : Option UInt8 :=
  if u < 128 && isXDigit u.toUInt8 then some (hexToNibble u.toUInt8) else none

/-- `Convert.FromHexString`; `none` is its `FormatException`. -/
def fromHexString : WideString → Option ByteString
  | [] => some []
  | h1 :: h2 :: rest => do
      let high ← fromHexChar h1
      let low ← fromHexChar h2
      let tail ← fromHexString rest
      pure ((high <<< 4 ||| low) :: tail)
  | [_] => none

/-- `ToString("D8")`. -/
def toStringD8 (value : Nat) : WideString :=
  ((Nat.toDigits 10 value).map fun c => UInt16.ofNat c.toNat).leftpad 8 48

/-- `ComputeSecurityCode`. -/
def computeSecurityCode (D : Digests)
    (environment serverId fingerprint clientId clientNonce requestId : WideString) :
    Option WideString := do
  let stream ← [wide "LMT-WINDOWS-PAIR-V1", environment, serverId, fingerprint, clientId,
    clientNonce, requestId].foldlM appendCanonical []
  let digits := toStringD8 (readUInt32BigEndian (D.sha256 stream) % 100000000)
  pure (digits.take 4 ++ wide " " ++ digits.drop 4)

/-- `ComputeConfirmationProof`. -/
def computeConfirmationProof (D : Digests) (credential requestId clientNonce : WideString) :
    Option WideString := do
  let stream ← [wide "LMT-WINDOWS-PAIR-CONFIRM-V1", requestId, clientNonce].foldlM
    appendCanonical []
  let key ← fromHexString credential
  pure (toLowerInvariant (toHexString (D.hmacSha256 key stream)))

end NativeSecurity

/-! ## The canonical text -/

theorem canonical_eq {value : ByteString} (h : value.length < 2 ^ 32) :
    canonical value =
      NativeSecurity.writeUInt32BigEndian (UInt32.ofNat value.length) ++ value := by
  have hlen : (UInt32.ofNat value.length).toNat = value.length := by
    rw [UInt32.toNat_ofNat']
    exact Nat.mod_eq_of_lt h
  unfold canonical NativeSecurity.writeUInt32BigEndian
  simp only [Nat.mod_eq_of_lt h, List.cons.injEq, and_true, List.cons_append, List.nil_append]
  refine ⟨?_, ?_, ?_, ?_⟩ <;> rw [← UInt8.toNat_inj] <;>
    simp only [UInt8.toNat_ofNat', UInt32.toNat_toUInt8, UInt32.toNat_shiftRight, hlen,
      UInt32.reduceToNat, Nat.reduceMod, Nat.shiftRight_eq_div_pow] <;> omega

/-- The first field and what follows it can be read off a canonical text. -/
theorem canonical_append_inj {x y r s : ByteString} (hx : x.length < 2 ^ 32)
    (hy : y.length < 2 ^ 32) (h : canonical x ++ r = canonical y ++ s) : x = y ∧ r = s := by
  have hheader : ∀ z : ByteString, z.length < 2 ^ 32 →
      NativeSecurity.readUInt32BigEndian (canonical z) = z.length := by
    intro z hz
    unfold canonical NativeSecurity.readUInt32BigEndian
    simp only [Nat.mod_eq_of_lt hz, List.cons_append, List.nil_append, List.take_succ_cons,
      List.take_zero, List.foldl_cons, List.foldl_nil, UInt8.toNat_ofNat']
    omega
  have hread : ∀ z t : ByteString, NativeSecurity.readUInt32BigEndian (canonical z ++ t) =
      NativeSecurity.readUInt32BigEndian (canonical z) := fun z t => rfl
  have hlength : x.length = y.length := by
    rw [← hheader x hx, ← hheader y hy, ← hread x r, ← hread y s, h]
  obtain ⟨hfield, hrest⟩ := List.append_inj h (by simp [canonical, hlength])
  exact ⟨(List.append_inj hfield rfl).2, hrest⟩

/-- **No two lists of equally many fields have the same canonical text.** -/
theorem transcript_injective {xs ys : List ByteString} (hlength : xs.length = ys.length)
    (hxs : ∀ x ∈ xs, x.length < 2 ^ 32) (hys : ∀ y ∈ ys, y.length < 2 ^ 32)
    (h : xs.flatMap canonical = ys.flatMap canonical) : xs = ys := by
  induction xs generalizing ys with
  | nil => exact (List.length_eq_zero_iff.mp hlength.symm).symm
  | cons x xs ih =>
    cases ys with
    | nil => cases hlength
    | cons y ys =>
      rw [List.forall_mem_cons] at hxs hys
      rw [List.flatMap_cons, List.flatMap_cons] at h
      obtain ⟨hxy, hrest⟩ := canonical_append_inj hxs.1 hys.1 h
      rw [hxy, ih (by simpa using hlength) hxs.2 hys.2 hrest]

/-! ## Fields -/

/-- A field as its scalar values: well-formed, without NUL, and shorter than `2^32` bytes. -/
structure Field (points : List Nat) : Prop where
  scalar : ∀ c ∈ points, IsScalar c
  noNul : ∀ c ∈ points, c ≠ 0
  short : (points.flatMap encodeUtf8).length < 2 ^ 32

/-- A field as the receiver has it. -/
def utf8 (points : List Nat) : ByteString := points.flatMap encodeUtf8

/-- A field as the sender has it. -/
def utf16 (points : List Nat) : WideString := points.flatMap encodeUtf16

/-- An ASCII text as a C# string. -/
def asUtf16 (text : ByteString) : WideString := text.map UInt8.toUInt16

theorem encodeUtf8_ne_zero {c : Nat} (hscalar : IsScalar c) (hc : c ≠ 0) :
    ∀ b ∈ encodeUtf8 c, b ≠ 0 := by
  obtain ⟨hlt, -⟩ := hscalar
  intro b hb heq
  have hb0 : b.toNat = 0 := by rw [heq]; rfl
  unfold encodeUtf8 at hb
  split at hb
  · simp only [List.mem_singleton] at hb
    rw [hb, UInt8.toNat_ofNat'] at hb0
    omega
  · split at hb
    · simp only [List.mem_cons, List.not_mem_nil, or_false] at hb
      rcases hb with rfl | rfl <;> rw [UInt8.toNat_ofNat'] at hb0 <;> omega
    · split at hb
      · simp only [List.mem_cons, List.not_mem_nil, or_false] at hb
        rcases hb with rfl | rfl | rfl <;> rw [UInt8.toNat_ofNat'] at hb0 <;> omega
      · simp only [List.mem_cons, List.not_mem_nil, or_false] at hb
        rcases hb with rfl | rfl | rfl | rfl <;> rw [UInt8.toNat_ofNat'] at hb0 <;> omega

theorem cString_utf8 {points : List Nat} (h : Field points) : cString (utf8 points) =
    utf8 points := by
  unfold cString
  rw [List.takeWhile_eq_self_iff]
  intro b hb
  obtain ⟨c, hc, hb⟩ := List.mem_flatMap.mp hb
  simpa using encodeUtf8_ne_zero (h.scalar c hc) (h.noNul c hc) b hb

theorem appendCanonical_eq {points : List Nat} (h : Field points) (stream : ByteString) :
    NativeSecurity.appendCanonical stream (utf16 points) =
      some (stream ++ canonical (utf8 points)) := by
  have hbytes : wideToUtf8 (utf16 points) = utf8 points := wideToUtf8_flatMap h.scalar
  have hshort : (utf8 points).length < 2 ^ 32 := h.short
  unfold NativeSecurity.appendCanonical
  simp only [hbytes]
  rw [if_pos hshort, canonical_eq hshort, List.append_assoc]

/-- **The two serializers agree.** -/
theorem foldlM_appendCanonical {fields : List (List Nat)} (h : ∀ points ∈ fields, Field points)
    (stream : ByteString) :
    (fields.map utf16).foldlM NativeSecurity.appendCanonical stream =
      some (stream ++ (fields.map utf8).flatMap canonical) := by
  induction fields generalizing stream with
  | nil =>
    rw [List.map_nil, List.map_nil, List.flatMap_nil, List.append_nil]
    rfl
  | cons points rest ih =>
    obtain ⟨hpoints, hrest⟩ := List.forall_mem_cons.mp h
    rw [List.map_cons, List.foldlM_cons, appendCanonical_eq hpoints, List.map_cons,
      List.flatMap_cons, ← List.append_assoc]
    exact ih hrest _

/-- The label of a transcript. -/
def label (text : String) : List Nat := text.toList.map Char.toNat

theorem pairLabel_field : Field (label "LMT-WINDOWS-PAIR-V1") := by
  constructor
  · simp only [label, IsScalar]
    decide
  · simp only [label]
    decide
  · decide

theorem confirmLabel_field : Field (label "LMT-WINDOWS-PAIR-CONFIRM-V1") := by
  constructor
  · simp only [label, IsScalar]
    decide
  · simp only [label]
    decide
  · decide

/-! ## Numbers and digests -/

theorem lowerHexDigit_spec {n : UInt8} (h : n < 16) :
    isXDigit (lowerHexDigit n) = true ∧ hexToNibble (lowerHexDigit n) = n ∧
      (if 65 ≤ (hexDigit n).toUInt16 && (hexDigit n).toUInt16 ≤ 90 then
        (hexDigit n).toUInt16 + 32 else (hexDigit n).toUInt16) = (lowerHexDigit n).toUInt16 := by
  have hall : ∀ m < 16, isXDigit (lowerHexDigit (UInt8.ofNat m)) = true ∧
      hexToNibble (lowerHexDigit (UInt8.ofNat m)) = UInt8.ofNat m ∧
      (if 65 ≤ (hexDigit (UInt8.ofNat m)).toUInt16 && (hexDigit (UInt8.ofNat m)).toUInt16 ≤ 90 then
        (hexDigit (UInt8.ofNat m)).toUInt16 + 32 else (hexDigit (UInt8.ofNat m)).toUInt16) =
        (lowerHexDigit (UInt8.ofNat m)).toUInt16 := by decide
  have hn := hall n.toNat (UInt8.lt_iff_toNat_lt.mp h)
  rwa [UInt8.ofNat_toNat] at hn

/-- The sender's digest in lower case is the receiver's. -/
theorem toLowerInvariant_toHexString (bytes : ByteString) :
    NativeSecurity.toLowerInvariant (NativeSecurity.toHexString bytes) =
      asUtf16 (hexText bytes) := by
  unfold NativeSecurity.toLowerInvariant NativeSecurity.toHexString hexText asUtf16
  rw [List.map_flatMap, List.map_flatMap]
  congr 1
  funext b
  obtain ⟨hhigh, hlow⟩ := nibble_bounds b
  simp only [List.map_cons, List.map_nil, (lowerHexDigit_spec hhigh).2.2,
    (lowerHexDigit_spec hlow).2.2]

/-- The first eight digits are the first four bytes. -/
theorem stoulHex_hexText {digest : ByteString} (h : digest.length = 32) :
    stoulHex ((hexText digest).take 8) % 2 ^ 32 = NativeSecurity.readUInt32BigEndian digest := by
  match digest, h with
  | b0 :: b1 :: b2 :: b3 :: rest, _ =>
    have hvalue : ∀ b : UInt8, (b / 16).toNat * 16 + (b % 16).toNat = b.toNat := by
      intro b
      rw [UInt8.toNat_div, UInt8.toNat_mod]
      simp only [UInt8.reduceToNat]
      omega
    have hdigit : ∀ b : UInt8, isXDigit (lowerHexDigit (b / 16)) = true ∧
        isXDigit (lowerHexDigit (b % 16)) = true ∧
        hexToNibble (lowerHexDigit (b / 16)) = b / 16 ∧
        hexToNibble (lowerHexDigit (b % 16)) = b % 16 := fun b =>
      ⟨(lowerHexDigit_spec (nibble_bounds b).1).1, (lowerHexDigit_spec (nibble_bounds b).2).1,
        (lowerHexDigit_spec (nibble_bounds b).1).2.1, (lowerHexDigit_spec (nibble_bounds b).2).2.1⟩
    have h0 := hvalue b0
    have h1 := hvalue b1
    have h2 := hvalue b2
    have h3 := hvalue b3
    have l0 := b0.toNat_lt
    have l1 := b1.toNat_lt
    have l2 := b2.toNat_lt
    have l3 := b3.toNat_lt
    simp only [hexText, List.flatMap_cons, List.cons_append, List.nil_append, List.take_succ_cons,
      List.take_zero, stoulHex, List.takeWhile_cons, hdigit, if_true, List.takeWhile_nil,
      List.foldl_cons, List.foldl_nil, NativeSecurity.readUInt32BigEndian]
    omega

/-- The two number formatters agree. -/
theorem toStringD8_eq (value : Nat) :
    NativeSecurity.toStringD8 value = asUtf16 ((decimal value).leftpad 8 48) := by
  unfold NativeSecurity.toStringD8 asUtf16 decimal List.leftpad
  rw [List.map_append, List.map_replicate, List.map_map, List.length_map, List.length_map]
  congr 1
  apply List.map_congr_left
  intro c hc
  have hdigit := Nat.isDigit_of_mem_toDigits (by decide) (by decide) hc
  have hlt : c.toNat < 256 := by
    simp only [Char.isDigit, Bool.and_eq_true, decide_eq_true_eq] at hdigit
    have := UInt32.le_iff_toNat_le.mp hdigit.2
    change c.toNat ≤ 57 at this
    omega
  rw [Function.comp_apply, ← UInt16.toNat_inj, UInt16.toNat_ofNat', UInt8.toNat_toUInt16,
    UInt8.toNat_ofNat']
  omega

/-! ## Credentials -/

theorem fromHexChar_asUtf16 {b : UInt8} (h : isXDigit b = true) :
    NativeSecurity.fromHexChar b.toUInt16 = some (hexToNibble b) := by
  have hlt : b.toNat < 128 := by
    simp only [isXDigit, isDigit, Bool.or_eq_true, Bool.and_eq_true, decide_eq_true_eq,
      UInt8.le_iff_toNat_le, UInt8.reduceToNat] at h
    omega
  have hwide : b.toUInt16 < 128 := by
    rw [UInt16.lt_iff_toNat_lt, UInt8.toNat_toUInt16]
    exact hlt
  unfold NativeSecurity.fromHexChar
  rw [UInt8.toUInt8_toUInt16, h]
  simp [hwide]

/-- A credential of hexadecimal digits is decoded alike. -/
theorem fromHexString_asUtf16 : ∀ {text : ByteString}, text.all isXDigit = true →
    text.length % 2 = 0 → NativeSecurity.fromHexString (asUtf16 text) = some (decodeHex text)
  | [], _, _ => rfl
  | [_], _, h => by simp at h
  | h1 :: h2 :: rest, hall, hlength => by
    simp only [List.all_cons, Bool.and_eq_true] at hall
    have hrest : NativeSecurity.fromHexString (asUtf16 rest) = some (decodeHex rest) :=
      fromHexString_asUtf16 hall.2.2 (by
        simp only [List.length_cons] at hlength
        omega)
    unfold asUtf16 at hrest ⊢
    simp only [List.map_cons, NativeSecurity.fromHexString, fromHexChar_asUtf16 hall.1,
      fromHexChar_asUtf16 hall.2.1, hrest, decodeHex]
    rfl

theorem asUtf16_append (x y : ByteString) : asUtf16 (x ++ y) = asUtf16 x ++ asUtf16 y :=
  List.map_append

theorem utf16_pairLabel : utf16 (label "LMT-WINDOWS-PAIR-V1") = wide "LMT-WINDOWS-PAIR-V1" := by
  decide

theorem utf8_pairLabel : utf8 (label "LMT-WINDOWS-PAIR-V1") = ascii "LMT-WINDOWS-PAIR-V1" := by
  decide

theorem utf16_confirmLabel :
    utf16 (label "LMT-WINDOWS-PAIR-CONFIRM-V1") = wide "LMT-WINDOWS-PAIR-CONFIRM-V1" := by
  decide

theorem utf8_confirmLabel :
    utf8 (label "LMT-WINDOWS-PAIR-CONFIRM-V1") = ascii "LMT-WINDOWS-PAIR-CONFIRM-V1" := by
  decide

/-! ## Both sides -/

section Agreement

variable (D : Digests)

/-- **Both computers show the same code.** -/
theorem securityCode_agrees {environment serverId fingerprint clientId clientNonce
    requestId : List Nat}
    (h : ∀ points ∈ [environment, serverId, fingerprint, clientId, clientNonce, requestId],
      Field points) :
    NativeSecurity.computeSecurityCode D (utf16 environment) (utf16 serverId) (utf16 fingerprint)
        (utf16 clientId) (utf16 clientNonce) (utf16 requestId) =
      some (asUtf16 (computeSecurityCode D.crypto (utf8 environment) (utf8 serverId)
        (utf8 fingerprint) (utf8 clientId) (utf8 clientNonce) (utf8 requestId))) := by
  have hfields : ∀ points ∈ label "LMT-WINDOWS-PAIR-V1" ::
      [environment, serverId, fingerprint, clientId, clientNonce, requestId], Field points :=
    List.forall_mem_cons.mpr ⟨pairLabel_field, h⟩
  have hstream := foldlM_appendCanonical hfields []
  have hcstring : (List.map utf8 (label "LMT-WINDOWS-PAIR-V1" ::
      [environment, serverId, fingerprint, clientId, clientNonce, requestId])).flatMap canonical =
      (List.map utf8 (label "LMT-WINDOWS-PAIR-V1" ::
        [environment, serverId, fingerprint, clientId, clientNonce, requestId])).flatMap
          fun value => canonical (cString value) := by
    rw [List.flatMap_map, List.flatMap_map]
    apply List.flatMap_congr
    intro points hpoints
    rw [cString_utf8 (hfields points hpoints)]
  rw [hcstring] at hstream
  simp only [List.map_cons, List.map_nil, utf16_pairLabel, utf8_pairLabel,
    List.nil_append] at hstream
  unfold NativeSecurity.computeSecurityCode computeSecurityCode
  simp only [hstream, Option.bind_eq_bind, Option.bind_some, Digests.crypto,
    stoulHex_hexText (D.sha256_length _), toStringD8_eq]
  rw [asUtf16_append, asUtf16_append]
  unfold asUtf16
  rw [List.map_take, List.map_drop]
  rfl

/-- **The sender's proof is the one that the receiver expects.** -/
theorem confirmationProof_agrees {credential : ByteString}
    (hcredential : isHex credential 64 = true)
    {requestId clientNonce : List Nat} (hrequest : Field requestId) (hnonce : Field clientNonce) :
    NativeSecurity.computeConfirmationProof D (asUtf16 credential) (utf16 requestId)
        (utf16 clientNonce) =
      some (asUtf16 (confirmationProof D.crypto credential (utf8 requestId)
        (utf8 clientNonce))) := by
  have hfields : ∀ points ∈ label "LMT-WINDOWS-PAIR-CONFIRM-V1" :: [requestId, clientNonce],
      Field points := by
    simpa using ⟨confirmLabel_field, hrequest, hnonce⟩
  have hstream := foldlM_appendCanonical hfields []
  simp only [List.map_cons, List.map_nil, utf16_confirmLabel, utf8_confirmLabel, List.nil_append,
    List.flatMap_cons, List.flatMap_nil, List.append_nil] at hstream
  unfold isHex at hcredential
  rw [Bool.and_eq_true, beq_iff_eq] at hcredential
  have hkey := fromHexString_asUtf16 hcredential.2 (by rw [hcredential.1])
  unfold NativeSecurity.computeConfirmationProof confirmationProof
  simp only [hstream, hkey, Option.bind_eq_bind, Option.bind_some, toLowerInvariant_toHexString,
    Digests.crypto, List.append_assoc]
  rfl

theorem constantTimeEqual_self (credential requestId clientNonce : ByteString) :
    constantTimeEqual (confirmationProof D.crypto credential requestId clientNonce)
      (confirmationProof D.crypto credential requestId clientNonce) = true := by
  have hlength : (confirmationProof D.crypto credential requestId clientNonce).length = 64 := by
    unfold confirmationProof Digests.crypto
    simp only [hexText_length, D.hmacSha256_length]
  unfold constantTimeEqual
  rw [Bool.and_eq_true, Bool.and_eq_true]
  refine ⟨⟨beq_self_eq_true _, ?_⟩, beq_self_eq_true _⟩
  rw [Bool.not_eq_true', List.isEmpty_eq_false_iff, ← List.length_pos_iff]
  omega

end Agreement

/-- **The pairing transcript.**  Equally many fields are told apart by their canonical text, and for
well-formed fields without NUL both computers compute the same security code, and the same
confirmation proof for every credential that the receiver takes, so that it accepts the proof. -/
theorem pairing_transcript_agrees (D : Digests) :
    (∀ xs ys : List ByteString, xs.length = ys.length → (∀ x ∈ xs, x.length < 2 ^ 32) →
      (∀ y ∈ ys, y.length < 2 ^ 32) → xs.flatMap canonical = ys.flatMap canonical → xs = ys) ∧
    (∀ environment serverId fingerprint clientId clientNonce requestId : List Nat,
      (∀ points ∈ [environment, serverId, fingerprint, clientId, clientNonce, requestId],
        Field points) →
      NativeSecurity.computeSecurityCode D (utf16 environment) (utf16 serverId)
          (utf16 fingerprint) (utf16 clientId) (utf16 clientNonce) (utf16 requestId) =
        some (asUtf16 (computeSecurityCode D.crypto (utf8 environment) (utf8 serverId)
          (utf8 fingerprint) (utf8 clientId) (utf8 clientNonce) (utf8 requestId)))) ∧
    ∀ credential requestId clientNonce, isHex credential 64 = true → Field requestId →
      Field clientNonce →
      NativeSecurity.computeConfirmationProof D (asUtf16 credential) (utf16 requestId)
          (utf16 clientNonce) =
        some (asUtf16 (confirmationProof D.crypto credential (utf8 requestId) (utf8 clientNonce))) ∧
      constantTimeEqual (confirmationProof D.crypto credential (utf8 requestId) (utf8 clientNonce))
        (confirmationProof D.crypto credential (utf8 requestId) (utf8 clientNonce)) = true :=
  ⟨fun _ _ hlength hxs hys h => transcript_injective hlength hxs hys h,
    fun _ _ _ _ _ _ h => securityCode_agrees D h,
    fun _ _ _ hcredential hrequest hnonce =>
      ⟨confirmationProof_agrees D hcredential hrequest hnonce, constantTimeEqual_self D _ _ _⟩⟩

/-! ## The protocol vectors -/

/-- The fields of the security code: environment, server, fingerprint, client, nonce, request. -/
def vectorFields : List (List Nat) :=
  [label "production", label "0123456789abcdef0123456789abcdef", List.replicate 64 97,
    label "11111111-2222-3333-4444-555555555555", List.replicate 64 98, List.replicate 32 99]

theorem vectorFields_field : ∀ points ∈ vectorFields, Field points := by
  have hscalar : ∀ points ∈ vectorFields, ∀ c ∈ points, c < 128 ∧ c ≠ 0 := by decide
  have hshort : ∀ points ∈ vectorFields, (points.flatMap encodeUtf8).length < 2 ^ 32 := by
    decide
  intro points hpoints
  refine ⟨fun c hc => ⟨?_, ?_⟩, fun c hc => (hscalar points hpoints c hc).2, hshort points hpoints⟩
  · exact (hscalar points hpoints c hc).1.trans (by decide)
  · have hlt := (hscalar points hpoints c hc).1
    omega

/-- SHA-256 and HMAC-SHA-256 on the two transcripts of the vectors. -/
def vectorDigests : Digests where
  sha256 data :=
    if data = (utf8 (label "LMT-WINDOWS-PAIR-V1") :: vectorFields.map utf8).flatMap canonical then
      decodeHex (ascii "4ae985ac4339a8c93c4e79c934687b301c2ef12082eae8a3e8c312ae10726f93")
    else List.replicate 32 0
  hmacSha256 key data :=
    if key = List.replicate 32 0xdd ∧ data = [utf8 (label "LMT-WINDOWS-PAIR-CONFIRM-V1"),
        List.replicate 32 99, List.replicate 64 98].flatMap canonical then
      decodeHex (ascii "84eeb362e92a5f153a21acbc835d3d7f6b10223563fe58f7d7f85016e6c1d942")
    else List.replicate 32 0
  sha256_length data := by
    split
    · decide
    · exact List.length_replicate
  hmacSha256_length key data := by
    split
    · decide
    · exact List.length_replicate

/-- Both computers show `5681 8092`, and the receiver accepts the proof of the vector. -/
theorem pairing_transcript_agrees_vector :
    NativeSecurity.computeSecurityCode vectorDigests (wide "production")
        (wide "0123456789abcdef0123456789abcdef") (List.replicate 64 97)
        (wide "11111111-2222-3333-4444-555555555555") (List.replicate 64 98)
          (List.replicate 32 99) =
      some (wide "5681 8092") ∧
    NativeSecurity.computeConfirmationProof vectorDigests (List.replicate 64 100)
        (List.replicate 32 99) (List.replicate 64 98) =
      some (wide "84eeb362e92a5f153a21acbc835d3d7f6b10223563fe58f7d7f85016e6c1d942") := by
  obtain ⟨-, hcode, hproof⟩ := pairing_transcript_agrees vectorDigests
  constructor
  · refine (hcode _ _ _ _ _ _ vectorFields_field).trans ?_
    decide +kernel
  · refine (hproof (List.replicate 64 100) (List.replicate 32 99) (List.replicate 64 98)
      (by decide) (vectorFields_field _ (by decide)) (vectorFields_field _ (by decide))).1.trans ?_
    decide +kernel

end LocalMediaTransfer
