import LocalMediaTransfer.Server.ByteString

/-!
# Destination file names

Model of the name logic of `io/FileWriter.cpp` in the Windows build: UTF-8 and UTF-16
conversion, `sanitizeWindowsUtf8Filename`, `makeFinalFilename`, the candidates of
`makeNumberedFilename`, and `isManagedTempFile`, the pattern of the startup cleanup.

The legacy code page that a name falls back to when it is not UTF-8 belongs to the machine and
is a parameter (`ansiToWide`), and so is the clock of `buildFallbackFilename`.
-/

set_option autoImplicit false

namespace LocalMediaTransfer

/-- `std::wstring`: UTF-16 code units. -/
abbrev WideString := List UInt16

/-! ## Encodings -/

/-- A continuation byte `10xxxxxx`. -/
def isContinuation (b : UInt8) : Bool := 128 ≤ b && b ≤ 191

/-- Strict UTF-8 decoding to code points: overlong forms, surrogates and values above
`U+10FFFF` are refused, as with `MB_ERR_INVALID_CHARS`. -/
def decodeUtf8 : ByteString → Option (List Nat)
  | [] => some []
  | b0 :: r0 =>
      if b0 < 128 then (b0.toNat :: ·) <$> decodeUtf8 r0
      else
        match r0 with
        | [] => none
        | b1 :: r1 =>
            if 194 ≤ b0 && b0 ≤ 223 && isContinuation b1 then
              (((b0.toNat - 192) * 64 + (b1.toNat - 128)) :: ·) <$> decodeUtf8 r1
            else
              match r1 with
              | [] => none
              | b2 :: r2 =>
                  if 224 ≤ b0 && b0 ≤ 239 && isContinuation b1 && isContinuation b2 &&
                      !(b0 == 224 && b1 < 160) && !(b0 == 237 && 160 ≤ b1) then
                    (((b0.toNat - 224) * 4096 + (b1.toNat - 128) * 64 + (b2.toNat - 128)) :: ·) <$>
                      decodeUtf8 r2
                  else
                    match r2 with
                    | [] => none
                    | b3 :: r3 =>
                        if 240 ≤ b0 && b0 ≤ 244 && isContinuation b1 && isContinuation b2 &&
                            isContinuation b3 && !(b0 == 240 && b1 < 144) &&
                            !(b0 == 244 && 144 ≤ b1) then
                          (((b0.toNat - 240) * 262144 + (b1.toNat - 128) * 4096 +
                            (b2.toNat - 128) * 64 + (b3.toNat - 128)) :: ·) <$> decodeUtf8 r3
                        else none

/-- The UTF-16 code units of a code point. -/
def encodeUtf16 (c : Nat) : WideString :=
  if c < 65536 then [UInt16.ofNat c]
  else [UInt16.ofNat (55296 + (c - 65536) / 1024), UInt16.ofNat (56320 + (c - 65536) % 1024)]

/-- The UTF-8 bytes of a code point. -/
def encodeUtf8 (c : Nat) : ByteString :=
  if c < 128 then [UInt8.ofNat c]
  else if c < 2048 then [UInt8.ofNat (192 + c / 64), UInt8.ofNat (128 + c % 64)]
  else if c < 65536 then
    [UInt8.ofNat (224 + c / 4096), UInt8.ofNat (128 + c / 64 % 64), UInt8.ofNat (128 + c % 64)]
  else
    [UInt8.ofNat (240 + c / 262144), UInt8.ofNat (128 + c / 4096 % 64),
      UInt8.ofNat (128 + c / 64 % 64), UInt8.ofNat (128 + c % 64)]

def isHighSurrogate (u : UInt16) : Bool := 55296 ≤ u && u ≤ 56319
def isLowSurrogate (u : UInt16) : Bool := 56320 ≤ u && u ≤ 57343

/-- `wideToUtf8`; `WideCharToMultiByte` turns an unpaired surrogate into `U+FFFD`. -/
def wideToUtf8 : WideString → ByteString
  | [] => []
  | u :: rest =>
      if isHighSurrogate u then
        match rest with
        | [] => encodeUtf8 65533
        | v :: rest' =>
            if isLowSurrogate v then
              encodeUtf8 (65536 + (u.toNat - 55296) * 1024 + (v.toNat - 56320)) ++ wideToUtf8 rest'
            else encodeUtf8 65533 ++ wideToUtf8 (v :: rest')
      else if isLowSurrogate u then encodeUtf8 65533 ++ wideToUtf8 rest
      else encodeUtf8 u.toNat ++ wideToUtf8 rest

/-- The machine around the name logic. -/
structure NameEnv where
  /-- `MultiByteToWideChar(CP_ACP, 0, ...)`. -/
  ansiToWide : ByteString → WideString
  /-- `high_resolution_clock::now()` in ticks. -/
  now : Nat

/-- An ASCII literal as a wide string. -/
def wide (s : String) : WideString := s.toList.map fun c => UInt16.ofNat c.toNat

/-- `utf8OrAnsiToWide`; the conversions stop at a NUL. -/
def utf8OrAnsiToWide (env : NameEnv) (input : ByteString) : WideString :=
  let input := input.takeWhile (· != 0)
  match decodeUtf8 input with
  | some points => points.flatMap encodeUtf16
  | none => env.ansiToWide input

/-- `buildFallbackFilename`. -/
def buildFallbackFilename (env : NameEnv) : ByteString :=
  ascii "file_" ++ (Nat.toDigits 16 (env.now % 2 ^ 24)).map fun c => UInt8.ofNat c.toNat

/-! ## The sanitizer -/

/-- `trimInvalidFilenameEnd`. -/
def trimInvalidFilenameEnd (value : WideString) : WideString :=
  (value.reverse.dropWhile fun u => u == 32 || u == 46).reverse

/-- `std::towupper` in the C locale. -/
def towupper (u : UInt16) : UInt16 := if 97 ≤ u && u ≤ 122 then u - 32 else u

/-- `reserved` of `isReservedWindowsBaseName`. -/
def reservedNames : List WideString :=
  [wide "CON", wide "PRN", wide "AUX", wide "NUL"] ++
    (["COM", "LPT"].flatMap fun base =>
      [49, 50, 51, 52, 53, 54, 55, 56, 57, 185, 178, 179].map fun u => wide base ++ [u])

/-- `isReservedWindowsBaseName`. -/
def isReservedWindowsBaseName (stem : WideString) : Bool :=
  reservedNames.contains (stem.map towupper)

/-- The code units that `sanitizeWindowsUtf8Filename` replaces by `_`. -/
def isIllegal (u : UInt16) : Bool :=
  u < 32 || u == 60 || u == 62 || u == 58 || u == 34 || u == 47 || u == 92 || u == 124 ||
    u == 63 || u == 42

def replaceIllegal (value : WideString) : WideString :=
  value.map fun u => if isIllegal u then 95 else u

/-- `fs::u8path(original).filename().u8string()`, or the whole text when it is not UTF-8. -/
def baseName (original : ByteString) : ByteString :=
  if (decodeUtf8 original).isSome then original.filename else original

/-- The stem is cut so that stem and extension fit in 200 code units; a cut surrogate pair and
trailing dots and spaces are dropped. -/
def limitStem (env : NameEnv) (stem ext : WideString) : WideString :=
  if 200 < stem.length + ext.length then
    let stem := stem.take (if ext.length < 200 then 200 - ext.length else 1)
    let stem := if stem.getLast?.any isHighSurrogate then stem.dropLast else stem
    let stem := trimInvalidFilenameEnd stem
    if stem.isEmpty then utf8OrAnsiToWide env (buildFallbackFilename env) else stem
  else stem

/-- `sanitizeWindowsUtf8Filename`. -/
def sanitizeWindowsUtf8Filename (env : NameEnv) (original : ByteString) : ByteString :=
  let value := utf8OrAnsiToWide env (baseName original)
  if value.isEmpty then buildFallbackFilename env
  else
    let value := trimInvalidFilenameEnd (replaceIllegal value)
    if value.isEmpty then buildFallbackFilename env
    else
      let stem := pathStem 46 value
      let ext := pathExtension 46 value
      let ext := if ext = [46] then [] else ext
      let stem := if stem.isEmpty then utf8OrAnsiToWide env (buildFallbackFilename env) else stem
      let stem := if isReservedWindowsBaseName stem then stem ++ [95] else stem
      let stem := limitStem env stem ext
      let finalUtf8 := wideToUtf8 (stem ++ ext)
      if finalUtf8.isEmpty then buildFallbackFilename env else finalUtf8

/-- `sanitizeFilename`, and with it `makeFinalFilename`. -/
def makeFinalFilename (env : NameEnv) (originalName : ByteString) : ByteString :=
  if originalName.isEmpty then buildFallbackFilename env
  else sanitizeWindowsUtf8Filename env originalName

/-! ## Numbered names -/

/-- The stem that `makeNumberedFilename` numbers. -/
def numberedStem (env : NameEnv) (safeName : ByteString) : ByteString :=
  let stem := pathStem 46 safeName
  if stem.isEmpty then buildFallbackFilename env else stem

/-- `stem + " (" + std::to_string(number) + ")" + extension`. -/
def numberedCandidate (env : NameEnv) (safeName : ByteString) (number : Nat) : ByteString :=
  numberedStem env safeName ++ ascii " (" ++ decimal number ++ ascii ")" ++
    pathExtension 46 safeName

/-- The suffix that a directory entry uses up: its name is the stem, ` (`, digits, `)` and the
extension. -/
def usedSuffix (env : NameEnv) (safeName entry : ByteString) : Option Nat :=
  let pre := numberedStem env safeName ++ ascii " ("
  let post := ascii ")" ++ pathExtension 46 safeName
  if entry.length ≤ pre.length + post.length then none
  else if !pre.isPrefixOf entry || !post.isSuffixOf entry then none
  else
    let digits := (entry.drop pre.length).take (entry.length - pre.length - post.length)
    if digits.isEmpty || !digits.all isDigit then none
    else
      match stoull digits with
      | .ok suffix => if 2 ≤ suffix && suffix < 1000000 then some suffix else none
      | .error _ => none

/-! ## The startup cleanup -/

def isLowerHex (b : UInt8) : Bool := isDigit b || (97 ≤ b && b ≤ 102)

/-- `lmt-upload-[a-f0-9]{64}`. -/
def isUploadStem (name : ByteString) : Bool :=
  (ascii "lmt-upload-").isPrefixOf name && (name.drop 11).length == 64 &&
    (name.drop 11).all isLowerHex

/-- `ios-[0-9]{10,20}-[0-9]+`. -/
def isIosStem (name : ByteString) : Bool :=
  let digits := (name.drop 4).takeWhile isDigit
  let rest := (name.drop 4).dropWhile isDigit
  (ascii "ios-").isPrefixOf name && 10 ≤ digits.length && digits.length ≤ 20 &&
    rest.head? == some 45 && !rest.tail.isEmpty && rest.tail.all isDigit

/-- `win-[a-f0-9]{32}-[A-Za-z0-9._-]+`. -/
def isWinStem (name : ByteString) : Bool :=
  let rest := (name.drop 4).drop 32
  (ascii "win-").isPrefixOf name && ((name.drop 4).take 32).length == 32 &&
    ((name.drop 4).take 32).all isLowerHex && rest.head? == some 45 && !rest.tail.isEmpty &&
    rest.tail.all isSafeByte

/-- `isManagedTempFile` on the file name: `^\.(...)\.tmp$`. -/
def isManagedTempFile (name : ByteString) : Bool :=
  let stem := name.tail.take (name.tail.length - 4)
  name.head? == some 46 && (ascii ".tmp").isSuffixOf name.tail &&
    (isUploadStem stem || isIosStem stem || isWinStem stem)

end LocalMediaTransfer
