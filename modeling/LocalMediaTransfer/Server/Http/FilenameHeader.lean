import LocalMediaTransfer.Server.Unicode

/-!
# The filename header

Every client puts the name of a file percent-encoded into `X-Filename`, each with the encoder of
its platform, and the server reads the header with one lenient `urlDecode`, which passes a
malformed escape through.  A filename is a list of Unicode scalar values; JavaScript and C# keep
it in UTF-16, Swift by its scalars.

* `encodeURIComponent` — the browser (`workers.js`) and the fallback of the phone
  (`UploadManager.ts`).
* `escapeDataString` — `Uri.EscapeDataString` of the Windows client.
* `addingPercentEncoding` — the native upload of the phone, with `.urlQueryAllowed`.
* `urlDecode_percentEncode` — decoding undoes percent-encoding for every safe set without `%`.
* `filename_header_round_trip` — the server gets the UTF-8 bytes of the name from every client.
-/

set_option autoImplicit false

namespace LocalMediaTransfer

namespace FilenameHeader

/-! ## Encoders -/

/-- A hexadecimal digit, in upper case. -/
def hexDigit (n : UInt8) : UInt8 := if n < 10 then 48 + n else 55 + n

/-- Each byte outside the safe set becomes `%` and two digits. -/
def percentEncode (safe : UInt8 → Bool) (bytes : ByteString) : ByteString :=
  bytes.flatMap fun b => if safe b then [b] else [37, hexDigit (b / 16), hexDigit (b % 16)]

/-- `A-Z a-z 0-9 - _ . ~`. -/
def isUnreserved (b : UInt8) : Bool := isSafeByte b || b == 126

/-- The characters that `encodeURIComponent` leaves: the unreserved ones and `! * ' ( )`. -/
def isUriComponentByte (b : UInt8) : Bool := isUnreserved b || (ascii "!*'()").contains b

/-- `.urlQueryAllowed`: the unreserved characters, the sub-delimiters and `: @ / ?`. -/
def urlQueryAllowed (b : UInt8) : Bool := isUnreserved b || (ascii "!$&'()*+,;=:@/?").contains b

/-- `encodeURIComponent`; `none` is the `URIError` for an unpaired surrogate. -/
def encodeURIComponent : WideString → Option ByteString
  | [] => some []
  | u :: rest =>
      if isHighSurrogate u then
        match rest with
        | [] => none
        | v :: rest' =>
            if isLowSurrogate v then
              (percentEncode isUriComponentByte
                (encodeUtf8 (65536 + (u.toNat - 55296) * 1024 + (v.toNat - 56320))) ++ ·) <$>
                  encodeURIComponent rest'
            else none
      else if isLowSurrogate u then none
      else (percentEncode isUriComponentByte (encodeUtf8 u.toNat) ++ ·) <$> encodeURIComponent rest

/-- `Uri.EscapeDataString`. -/
def escapeDataString (name : WideString) : ByteString :=
  percentEncode isUnreserved (wideToUtf8 name)

/-- `addingPercentEncoding(withAllowedCharacters:)` on the scalars of a string; it has an answer
for every string. -/
def addingPercentEncoding (allowed : UInt8 → Bool) (scalars : List Nat) : Option ByteString :=
  some (percentEncode allowed (scalars.flatMap encodeUtf8))

/-- The header of `NativeUploadService.upload`. -/
def nativeFilenameHeader (transferFilename : List Nat) : ByteString :=
  (addingPercentEncoding urlQueryAllowed transferFilename).getD
    (transferFilename.flatMap encodeUtf8)

/-! ## Decoding -/

theorem urlDecode_cons {b : UInt8} (h : b ≠ 37) (rest : ByteString) :
    urlDecode (b :: rest) = b :: urlDecode rest := by
  match rest with
  | [] => rfl
  | [_] => rfl
  | h1 :: h2 :: rest => simp [urlDecode, h]

theorem hexDigit_spec {n : UInt8} (h : n < 16) :
    isXDigit (hexDigit n) = true ∧ hexToNibble (hexDigit n) = n := by
  have hall : ∀ m < 16, isXDigit (hexDigit (UInt8.ofNat m)) = true ∧
      hexToNibble (hexDigit (UInt8.ofNat m)) = UInt8.ofNat m := by decide
  have hn := hall n.toNat (UInt8.lt_iff_toNat_lt.mp h)
  rwa [UInt8.ofNat_toNat] at hn

theorem nibble_bounds (b : UInt8) : b / 16 < 16 ∧ b % 16 < 16 := by
  have hb := b.toNat_lt
  constructor
  · rw [UInt8.lt_iff_toNat_lt, UInt8.toNat_div]
    simp only [UInt8.reduceToNat]
    omega
  · rw [UInt8.lt_iff_toNat_lt, UInt8.toNat_mod]
    simp only [UInt8.reduceToNat]
    omega

theorem nibbles_eq (b : UInt8) : (b / 16) <<< 4 ||| b % 16 = b := by
  have hall : ∀ m < 256, (UInt8.ofNat m / 16) <<< 4 ||| UInt8.ofNat m % 16 = UInt8.ofNat m := by
    decide +kernel
  have hb := hall b.toNat b.toNat_lt
  rwa [UInt8.ofNat_toNat] at hb

/-- An escape is read as its byte, also when it ends the text. -/
theorem urlDecode_escape (b : UInt8) (rest : ByteString) :
    urlDecode (37 :: hexDigit (b / 16) :: hexDigit (b % 16) :: rest) = b :: urlDecode rest := by
  obtain ⟨hhigh, hlow⟩ := nibble_bounds b
  obtain ⟨hx1, hn1⟩ := hexDigit_spec hhigh
  obtain ⟨hx2, hn2⟩ := hexDigit_spec hlow
  simp only [urlDecode, hx1, hx2, hn1, hn2, nibbles_eq, beq_self_eq_true, Bool.and_self, if_true]

/-- **Decoding undoes percent-encoding**, as long as the encoder escapes `%` itself. -/
theorem urlDecode_percentEncode {safe : UInt8 → Bool} (hsafe : safe 37 = false)
    (bytes : ByteString) : urlDecode (percentEncode safe bytes) = bytes := by
  induction bytes with
  | nil => rfl
  | cons b rest ih =>
    unfold percentEncode at ih ⊢
    rw [List.flatMap_cons]
    split
    · rename_i hb
      have hne : b ≠ 37 := by
        rintro rfl
        rw [hsafe] at hb
        cases hb
      rw [List.singleton_append, urlDecode_cons hne, ih]
    · rw [List.cons_append, List.cons_append, List.singleton_append, urlDecode_escape, ih]

theorem percentEncode_append (safe : UInt8 → Bool) (x y : ByteString) :
    percentEncode safe (x ++ y) = percentEncode safe x ++ percentEncode safe y :=
  List.flatMap_append

/-! ## Well-formed names -/

/-- One scalar value: its code units are a single one or a surrogate pair. -/
theorem encodeURIComponent_scalar {c : Nat} {rest : WideString} (h : IsScalar c) :
    encodeURIComponent (encodeUtf16 c ++ rest) =
      (percentEncode isUriComponentByte (encodeUtf8 c) ++ ·) <$> encodeURIComponent rest := by
  obtain ⟨hlt, hsurrogate⟩ := h
  unfold encodeUtf16
  split
  · rename_i hsmall
    have hu : (UInt16.ofNat c).toNat = c := by
      rw [UInt16.toNat_ofNat']
      omega
    have hhigh : isHighSurrogate (UInt16.ofNat c) = false := by
      simp only [isHighSurrogate, Bool.and_eq_false_iff, decide_eq_false_iff_not,
        UInt16.le_iff_toNat_le, UInt16.reduceToNat, hu]
      omega
    have hlow : isLowSurrogate (UInt16.ofNat c) = false := by
      simp only [isLowSurrogate, Bool.and_eq_false_iff, decide_eq_false_iff_not,
        UInt16.le_iff_toNat_le, UInt16.reduceToNat, hu]
      omega
    rw [List.singleton_append, encodeURIComponent.eq_def]
    simp only [hhigh, hlow, hu, Bool.false_eq_true, if_false]
  · rename_i hlarge
    obtain ⟨hu, hv, hhigh, hlow⟩ := surrogatePair_spec hlt hlarge
    rw [List.cons_append, List.singleton_append, encodeURIComponent.eq_def]
    simp only [hhigh, hlow, if_true, hu, hv]
    rw [show 65536 + (55296 + (c - 65536) / 1024 - 55296) * 1024 +
      (56320 + (c - 65536) % 1024 - 56320) = c by omega]

theorem encodeURIComponent_eq {name : List Nat} (h : ∀ c ∈ name, IsScalar c) :
    encodeURIComponent (name.flatMap encodeUtf16) =
      some (percentEncode isUriComponentByte (name.flatMap encodeUtf8)) := by
  induction name with
  | nil => rfl
  | cons c rest ih =>
    obtain ⟨hc, hrest⟩ := List.forall_mem_cons.mp h
    rw [List.flatMap_cons, encodeURIComponent_scalar hc, ih hrest, List.flatMap_cons,
      percentEncode_append]
    rfl

/-- **The server reads every well-formed name back**, whichever client sent it. -/
theorem filename_header_round_trip {name : List Nat} (h : ∀ c ∈ name, IsScalar c) :
    (encodeURIComponent (name.flatMap encodeUtf16)).map urlDecode =
        some (name.flatMap encodeUtf8) ∧
      urlDecode (escapeDataString (name.flatMap encodeUtf16)) = name.flatMap encodeUtf8 ∧
      urlDecode (nativeFilenameHeader name) = name.flatMap encodeUtf8 := by
  refine ⟨?_, ?_, ?_⟩
  · rw [encodeURIComponent_eq h, Option.map_some, urlDecode_percentEncode (by decide)]
  · rw [escapeDataString, wideToUtf8_flatMap h, urlDecode_percentEncode (by decide)]
  · exact urlDecode_percentEncode (by decide) _

/-- `50%2B+é😀`: an escape that is part of the name, a plus sign and a surrogate pair. -/
theorem filename_header_round_trip_escape :
    (encodeURIComponent ([53, 48, 37, 50, 66, 43, 233, 128512].flatMap encodeUtf16)).map
        urlDecode = some ([53, 48, 37, 50, 66, 43, 233, 128512].flatMap encodeUtf8) :=
  (@filename_header_round_trip [53, 48, 37, 50, 66, 43, 233, 128512]
    (by simp [IsScalar])).1

end FilenameHeader

end LocalMediaTransfer
