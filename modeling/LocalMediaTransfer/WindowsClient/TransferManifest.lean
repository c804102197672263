import LocalMediaTransfer.Gui.DotNet

/-!
# The manifest of the Windows sender

Model of `PrepareFiles` and `ValidateSources` (`NativeTransferClient.cs`) and of the request that
`RequestApprovalAsync` posts (`NativeTransferAuthorization.cs`).

`JsonContent.Create` writes ASCII: the default encoder keeps the printable ASCII characters other
than `"`, `&`, `'`, `+`, `<`, `>`, `\` and the backtick, has a short form for `\` and five control
characters, and writes every other UTF-16 unit as `\uXXXX`, an unpaired surrogate as `\uFFFD`.

* `requestText`, `requestJson` — the posted text, and the value that the receiver parses from it.
* `length_requestText` — the size of the text.
* `readString_jsonString` — what a string literal of the sender reads as.
-/

set_option autoImplicit false

namespace LocalMediaTransfer

/-- `TransferSource`. -/
structure TransferSource where
  fileId : WideString
  path : WideString
  name : WideString
  sizeBytes : Int
  deriving DecidableEq

/-- `FileInfo` of a path. -/
structure FileInfo where
  found : Bool
  fullName : WideString
  name : WideString
  length : Int

/-- What the sender throws: `ArgumentException`, or `NativeClientException` with its code. -/
inductive ClientError where
  | argument (message : WideString)
  | native (code message : WideString)
  deriving DecidableEq

/-- `TransferLimits.MaxQueuedFiles`. -/
def MaxQueuedFiles : Nat := 1000

/-- The machine of the sender. -/
structure SenderEnv where
  /-- Names that `StringComparer.OrdinalIgnoreCase` does not tell apart have one form. -/
  upper : WideString → WideString
  fileInfo : WideString → FileInfo
  /-- `RandomNumberGenerator.GetBytes(8)` for the file at an index. -/
  random : Nat → { bytes : ByteString // bytes.length = 8 }

/-- The loop of `PrepareFiles`. -/
def prepareEach (env : SenderEnv) (clientSessionId : WideString) :
    Nat → List WideString → Except ClientError (List TransferSource)
  | _, [] => .ok []
  | index, path :: rest =>
      let info := env.fileInfo path
      if !info.found then
        .error (.native (wide "file_missing") (info.name ++ wide " no longer exists."))
      else if info.length ≤ 0 then
        .error (.native (wide "zero_byte_file")
          (info.name ++ wide " is empty and cannot be transferred."))
      else
        (prepareEach env clientSessionId (index + 1) rest).map fun files =>
          { fileId := clientSessionId ++ wide "-" ++ hexLower (env.random index).1
            path := info.fullName
            name := info.name
            sizeBytes := info.length } :: files

/-- `PrepareFiles`. -/
def prepareFiles (env : SenderEnv) (paths : List WideString) (clientSessionId : WideString) :
    Except ClientError (List TransferSource) :=
  if clientSessionId.length != 36 || !(wide "win-").isPrefixOf clientSessionId then
    .error (.argument (wide "Invalid native transfer session ID."))
  else
    let selected :=
      (paths.eraseDupsBy fun a b => env.upper a == env.upper b).take (MaxQueuedFiles + 1)
    if selected.length == 0 || MaxQueuedFiles < selected.length then
      .error (.native (wide "invalid_file_count") (wide "Select between 1 and 1,000 files."))
    else prepareEach env clientSessionId 0 selected

/-- `sources[0].FileId[..36]`. -/
def clientSessionIdOf (sources : List TransferSource) : WideString :=
  match sources with
  | [] => []
  | first :: _ => first.fileId.take 36

/-- `ValidateSources`; `none` when nothing is thrown. -/
def validateSources (sources : List TransferSource) : Option ClientError :=
  let manifest := fun message => some (.native (wide "invalid_transfer_manifest") (wide message))
  if sources.length == 0 || MaxQueuedFiles < sources.length then
    some (.native (wide "invalid_file_count") (wide "Select between 1 and 1,000 files."))
  else if sources.any fun file =>
      file.sizeBytes ≤ 0 || file.name.length == 0 || (MaxFileBytes : Int) < file.sizeBytes then
    manifest "One or more selected files cannot be transferred."
  else if (clientSessionIdOf sources).length != 36 || sources.any fun file =>
      !(clientSessionIdOf sources ++ wide "-").isPrefixOf file.fileId then
    manifest "File IDs are not bound to one transfer session."
  else none

/-! ## The posted text -/

/-- The upper-case digit of a nibble. -/
def upperHexDigit (n : Nat) : UInt8 := UInt8.ofNat (if n < 10 then 48 + n else 55 + n)

/-- `\uXXXX`. -/
def escapeHex (n : Nat) : ByteString :=
  [92, 117, upperHexDigit (n / 4096), upperHexDigit (n / 256 % 16), upperHexDigit (n / 16 % 16),
    upperHexDigit (n % 16)]

/-- The characters that the default encoder keeps. -/
def isPlainUnit (u : UInt16) : Bool :=
  32 ≤ u && u ≤ 126 && !([34, 38, 39, 43, 60, 62, 92, 96].contains u)

/-- The letter of a short escape. -/
def shortEscape (u : UInt16) : Option UInt8 :=
  match u with
  | 8 => some 98
  | 9 => some 116
  | 10 => some 110
  | 12 => some 102
  | 13 => some 114
  | 92 => some 92
  | _ => none

/-- A unit that is no surrogate. -/
def escapeUnit (u : UInt16) : ByteString :=
  if isPlainUnit u then [UInt8.ofNat u.toNat]
  else
    match shortEscape u with
    | some letter => [92, letter]
    | none => escapeHex u.toNat

/-- A string as the default encoder writes it. -/
def escapeText : WideString → ByteString
  | [] => []
  | u :: rest =>
      if isHighSurrogate u then
        match rest with
        | [] => escapeHex 65533
        | v :: rest' =>
            if isLowSurrogate v then escapeHex u.toNat ++ escapeHex v.toNat ++ escapeText rest'
            else escapeHex 65533 ++ escapeText (v :: rest')
      else if isLowSurrogate u then escapeHex 65533 ++ escapeText rest
      else escapeUnit u ++ escapeText rest

/-- A string literal. -/
def jsonString (value : WideString) : ByteString := [34] ++ escapeText value ++ [34]

/-- An entry of `files`. -/
def manifestEntry (file : TransferSource) : ByteString :=
  ascii "\x7b\"fileId\":" ++ jsonString file.fileId ++ ascii ",\"name\":" ++ jsonString file.name ++
    ascii ",\"sizeBytes\":" ++ wideToUtf8 (invariantDecimal file.sizeBytes) ++ ascii "\x7d"

/-- The body of the request. -/
def requestText (skip : Bool) (sources : List TransferSource) : ByteString :=
  ascii "\x7b\"protocolVersion\":1,\"clientSessionId\":" ++
    jsonString (clientSessionIdOf sources) ++
    ascii ",\"skipExactDuplicates\":" ++ (if skip then ascii "true" else ascii "false") ++
    ascii ",\"files\":[" ++ List.intercalate [44] (sources.map manifestEntry) ++ ascii "]\x7d"

/-- The value of an entry. -/
def entryJson (file : TransferSource) : Json :=
  .object [(ascii "fileId", .string (wideToUtf8 file.fileId)),
    (ascii "name", .string (wideToUtf8 file.name)), (ascii "sizeBytes", .integer file.sizeBytes)]

/-- The value of the body. -/
def requestJson (skip : Bool) (sources : List TransferSource) : Json :=
  .object [(ascii "protocolVersion", .integer 1),
    (ascii "clientSessionId", .string (wideToUtf8 (clientSessionIdOf sources))),
    (ascii "skipExactDuplicates", .boolean skip), (ascii "files", .array (sources.map entryJson))]

/-! ## Reading a string literal -/

/-- The number after `\u`, and the rest. -/
def readHex : ByteString → Option (Nat × ByteString)
  | a :: b :: c :: d :: rest =>
      if [a, b, c, d].all isXDigit then
        some ((hexToNibble a).toNat * 4096 + (hexToNibble b).toNat * 256 +
          (hexToNibble c).toNat * 16 + (hexToNibble d).toNat, rest)
      else none
  | _ => none

/-- The character of a short escape. -/
def unescape (letter : UInt8) : Option UInt8 :=
  match letter with
  | 34 => some 34
  | 92 => some 92
  | 47 => some 47
  | 98 => some 8
  | 102 => some 12
  | 110 => some 10
  | 114 => some 13
  | 116 => some 9
  | _ => none

/-- One character of a literal as the receiver's `json::parse` reads it, in UTF-8. -/
def readUnit : ByteString → Option (ByteString × ByteString)
  | [] => none
  | first :: rest =>
      if first != 92 then if first < 32 then none else some ([first], rest)
      else
        match rest with
        | [] => none
        | letter :: rest =>
            if letter != 117 then (unescape letter).map fun b => ([b], rest)
            else
              match readHex rest with
              | none => none
              | some (n, rest) =>
                  if 55296 ≤ n && n ≤ 56319 then
                    match rest with
                    | 92 :: 117 :: rest =>
                        match readHex rest with
                        | none => none
                        | some (m, rest) =>
                            if 56320 ≤ m && m ≤ 57343 then
                              some (encodeUtf8 (65536 + (n - 55296) * 1024 + (m - 56320)), rest)
                            else none
                    | _ => none
                  else if 56320 ≤ n && n ≤ 57343 then none
                  else some (encodeUtf8 n, rest)

/-- The characters up to the closing quote. -/
def readString : Nat → ByteString → Option (ByteString × ByteString)
  | 0, _ => none
  | fuel + 1, text =>
      if text.head? == some 34 then some ([], text.tail)
      else do
        let (bytes, text) ← readUnit text
        let (tail, text) ← readString fuel text
        return (bytes ++ tail, text)

/-! ## The size of the text -/

/-- How many bytes a unit takes in a string literal. -/
def escapedUnits (u : UInt16) : Nat :=
  if isPlainUnit u then 1 else if (shortEscape u).isSome then 2 else 6

def escapedLength (value : WideString) : Nat := (value.map escapedUnits).sum

/-- The size of an entry, and of the body. -/
def entrySize (file : TransferSource) : Nat :=
  escapedLength file.fileId + escapedLength file.name +
    (wideToUtf8 (invariantDecimal file.sizeBytes)).length + 36

def manifestSize (skip : Bool) (sources : List TransferSource) : Nat :=
  76 + escapedLength (clientSessionIdOf sources) + (if skip then 4 else 5) +
    ((sources.map entrySize).sum + (sources.length - 1))

theorem surrogate_iff {u : UInt16} :
    (isHighSurrogate u = true ↔ 55296 ≤ u.toNat ∧ u.toNat ≤ 56319) ∧
    (isLowSurrogate u = true ↔ 56320 ≤ u.toNat ∧ u.toNat ≤ 57343) := by
  simp only [isHighSurrogate, isLowSurrogate, Bool.and_eq_true, decide_eq_true_eq,
    UInt16.le_iff_toNat_le, UInt16.reduceToNat, and_self]

theorem shortEscape_eq {u : UInt16} {letter : UInt8} (h : shortEscape u = some letter) :
    (u = 8 ∧ letter = 98) ∨ (u = 9 ∧ letter = 116) ∨ (u = 10 ∧ letter = 110) ∨
      (u = 12 ∧ letter = 102) ∨ (u = 13 ∧ letter = 114) ∨ (u = 92 ∧ letter = 92) := by
  unfold shortEscape at h
  split at h <;> cases h <;> simp

theorem escapedUnits_large {u : UInt16} (h : 127 ≤ u.toNat) : escapedUnits u = 6 := by
  have hplain : isPlainUnit u = false := by
    simp only [isPlainUnit, Bool.and_eq_false_iff, decide_eq_false_iff_not, UInt16.le_iff_toNat_le,
      UInt16.reduceToNat]
    omega
  have hshort : shortEscape u = none := by
    rw [Option.eq_none_iff_forall_ne_some]
    intro letter hletter
    rcases shortEscape_eq hletter with ⟨rfl, -⟩ | ⟨rfl, -⟩ | ⟨rfl, -⟩ | ⟨rfl, -⟩ | ⟨rfl, -⟩ |
      ⟨rfl, -⟩ <;> exact absurd h (by decide)
  rw [escapedUnits, hplain, hshort]
  rfl

theorem length_escapeUnit (u : UInt16) : (escapeUnit u).length = escapedUnits u := by
  unfold escapeUnit escapedUnits
  split
  · rfl
  · cases shortEscape u <;> rfl

theorem escapedLength_cons (u : UInt16) (rest : WideString) :
    escapedLength (u :: rest) = escapedUnits u + escapedLength rest := by
  rw [escapedLength, List.map_cons, List.sum_cons, escapedLength]

theorem length_escapeText (value : WideString) :
    (escapeText value).length = escapedLength value := by
  have hlarge : ∀ {u : UInt16}, isHighSurrogate u = true ∨ isLowSurrogate u = true →
      escapedUnits u = 6 := by
    intro u hu
    rw [surrogate_iff.1, surrogate_iff.2] at hu
    exact escapedUnits_large (by omega)
  induction value using wideToUtf8.induct with
  | case1 => rfl
  | case2 u hu => rw [escapeText, if_pos hu, escapedLength_cons, hlarge (.inl hu)]; rfl
  | case3 u hu v tail hv ih =>
    rw [escapeText, if_pos hu]
    simp only [hv, if_true, List.length_append, ih, escapedLength_cons, hlarge (.inl hu),
      hlarge (.inr hv)]
    simp only [escapeHex, List.length_cons, List.length_nil]
    omega
  | case4 u hu v tail hv ih =>
    rw [escapeText, if_pos hu]
    simp only [hv, Bool.false_eq_true, if_false, List.length_append, ih,
      escapedLength_cons u, hlarge (.inl hu)]
    rfl
  | case5 u tail hu hv ih =>
    rw [escapeText.eq_def]
    simp only [hu, hv, Bool.false_eq_true, if_false, if_true, List.length_append, ih,
      escapedLength_cons, hlarge (.inr hv)]
    rfl
  | case6 u tail hu hv ih =>
    rw [escapeText.eq_def]
    simp only [hu, hv, Bool.false_eq_true, if_false, List.length_append, ih, escapedLength_cons,
      length_escapeUnit]

theorem length_jsonString (value : WideString) :
    (jsonString value).length = escapedLength value + 2 := by
  simp only [jsonString, List.length_append, length_escapeText, List.length_singleton]
  omega

theorem length_manifestEntry (file : TransferSource) :
    (manifestEntry file).length = entrySize file := by
  have h₁ : (ascii "\x7b\"fileId\":").length = 10 := by decide
  have h₂ : (ascii ",\"name\":").length = 8 := by decide
  have h₃ : (ascii ",\"sizeBytes\":").length = 13 := by decide
  have h₄ : (ascii "\x7d").length = 1 := by decide
  simp only [manifestEntry, List.length_append, length_jsonString, entrySize, h₁, h₂, h₃, h₄]
  omega

theorem length_intercalate (entries : List ByteString) :
    (List.intercalate [44] entries).length =
      (entries.map List.length).sum + (entries.length - 1) := by
  induction entries with
  | nil => rfl
  | cons entry rest ih =>
    cases rest with
    | nil => simp
    | cons next rest =>
      simp only [List.intercalate_cons_cons, List.length_append, ih, List.map_cons, List.sum_cons,
        List.length_cons, List.length_nil]
      omega

/-- **The size of the posted text.** -/
theorem length_requestText (skip : Bool) (sources : List TransferSource) :
    (requestText skip sources).length = manifestSize skip sources := by
  have h₁ : (ascii "\x7b\"protocolVersion\":1,\"clientSessionId\":").length = 39 := by decide
  have h₂ : (ascii ",\"skipExactDuplicates\":").length = 23 := by decide
  have h₃ : (ascii ",\"files\":[").length = 10 := by decide
  have h₄ : (ascii "]\x7d").length = 2 := by decide
  have hskip : (if skip = true then ascii "true" else ascii "false").length =
      if skip = true then 4 else 5 := by
    cases skip <;> decide
  have hentries : (sources.map manifestEntry).map List.length = sources.map entrySize := by
    rw [List.map_map]
    exact List.map_congr_left fun file _ => length_manifestEntry file
  simp only [requestText, List.length_append, length_jsonString, length_intercalate, hentries,
    List.length_map, hskip, h₁, h₂, h₃, h₄, manifestSize]
  omega

/-! ## What a literal reads as -/

theorem readHex_upperHexDigit : ∀ n < 16, isXDigit (upperHexDigit n) = true ∧
    (hexToNibble (upperHexDigit n)).toNat = n := by
  decide

theorem readHex_escapeHex {n : Nat} (h : n < 65536) (rest : ByteString) :
    ∃ digits, escapeHex n = 92 :: 117 :: digits ∧ readHex (digits ++ rest) = some (n, rest) := by
  refine ⟨_, rfl, ?_⟩
  obtain ⟨ha, ha'⟩ := readHex_upperHexDigit (n / 4096) (by omega)
  obtain ⟨hb, hb'⟩ := readHex_upperHexDigit (n / 256 % 16) (by omega)
  obtain ⟨hc, hc'⟩ := readHex_upperHexDigit (n / 16 % 16) (by omega)
  obtain ⟨hd, hd'⟩ := readHex_upperHexDigit (n % 16) (by omega)
  simp only [List.cons_append, List.nil_append, readHex, List.all_cons,
    List.all_nil, ha, hb, hc, hd,
    Bool.and_self, if_true, ha', hb', hc', hd', Option.some.injEq, Prod.mk.injEq, and_true]
  omega

theorem readUnit_escapeHex {n : Nat} (hn : n < 65536) (h : ¬(55296 ≤ n ∧ n ≤ 57343))
    (rest : ByteString) : readUnit (escapeHex n ++ rest) = some (encodeUtf8 n, rest) := by
  obtain ⟨digits, hdigits, hread⟩ := readHex_escapeHex hn rest
  have hhigh : (decide (55296 ≤ n) && decide (n ≤ 56319)) = false := by
    rw [Bool.and_eq_false_iff, decide_eq_false_iff_not, decide_eq_false_iff_not]
    omega
  have hlow : (decide (56320 ≤ n) && decide (n ≤ 57343)) = false := by
    rw [Bool.and_eq_false_iff, decide_eq_false_iff_not, decide_eq_false_iff_not]
    omega
  rw [hdigits, List.cons_append, List.cons_append, readUnit]
  simp only [bne_self_eq_false, Bool.false_eq_true, if_false, hread, hhigh, hlow]

theorem readUnit_pair {n m : Nat} (hn : 55296 ≤ n ∧ n ≤ 56319) (hm : 56320 ≤ m ∧ m ≤ 57343)
    (rest : ByteString) : readUnit (escapeHex n ++ escapeHex m ++ rest) =
      some (encodeUtf8 (65536 + (n - 55296) * 1024 + (m - 56320)), rest) := by
  obtain ⟨digits', hdigits', hread'⟩ := readHex_escapeHex (n := m) (by omega) rest
  obtain ⟨digits, hdigits, hread⟩ := readHex_escapeHex (n := n) (by omega) (escapeHex m ++ rest)
  have hhigh : (decide (55296 ≤ n) && decide (n ≤ 56319)) = true := by
    rw [Bool.and_eq_true, decide_eq_true_eq, decide_eq_true_eq]
    exact hn
  have hlow : (decide (56320 ≤ m) && decide (m ≤ 57343)) = true := by
    rw [Bool.and_eq_true, decide_eq_true_eq, decide_eq_true_eq]
    exact hm
  rw [List.append_assoc, hdigits, List.cons_append, List.cons_append, readUnit]
  simp only [bne_self_eq_false, Bool.false_eq_true, if_false, hread, hhigh, if_true]
  rw [hdigits', List.cons_append, List.cons_append]
  simp only [hread', hlow, if_true]

theorem readUnit_escapeUnit {u : UInt16} (hhigh : isHighSurrogate u = false)
    (hlow : isLowSurrogate u = false) (rest : ByteString) :
    readUnit (escapeUnit u ++ rest) = some (encodeUtf8 u.toNat, rest) ∧
      (escapeUnit u).head? ≠ some 34 ∧ escapeUnit u ≠ [] := by
  unfold escapeUnit
  split
  · rename_i hplain
    simp only [isPlainUnit, Bool.and_eq_true, decide_eq_true_eq, UInt16.le_iff_toNat_le,
      UInt16.reduceToNat, Bool.not_eq_true', List.contains_eq_mem, decide_eq_false_iff_not,
      List.mem_cons, List.not_mem_nil, or_false, not_or, ← UInt16.toNat_inj] at hplain
    have hu : (UInt8.ofNat u.toNat).toNat = u.toNat := by
      rw [UInt8.toNat_ofNat']
      omega
    have hquote : UInt8.ofNat u.toNat ≠ 34 := by
      simp only [ne_eq, ← UInt8.toNat_inj, hu, UInt8.reduceToNat]
      omega
    have hslash : (UInt8.ofNat u.toNat != 92) = true := by
      simp only [bne_iff_ne, ne_eq, ← UInt8.toNat_inj, hu, UInt8.reduceToNat]
      omega
    have hcontrol : ¬UInt8.ofNat u.toNat < 32 := by
      simp only [UInt8.lt_iff_toNat_lt, hu, UInt8.reduceToNat]
      omega
    refine ⟨?_, ?_, List.cons_ne_nil _ _⟩
    · rw [List.singleton_append, readUnit.eq_def, encodeUtf8_ascii (by omega)]
      simp only [hslash, if_true, hcontrol, if_false]
    · rw [List.head?_cons, ne_eq, Option.some.injEq]
      exact hquote
  · cases hletter : shortEscape u with
    | some letter =>
      refine ⟨?_, by simp, by simp⟩
      rcases shortEscape_eq hletter with ⟨rfl, rfl⟩ | ⟨rfl, rfl⟩ | ⟨rfl, rfl⟩ | ⟨rfl, rfl⟩ |
        ⟨rfl, rfl⟩ | ⟨rfl, rfl⟩ <;> rfl
    | none =>
      have hsurrogate := surrogate_iff (u := u)
      rw [hhigh, hlow] at hsurrogate
      refine ⟨readUnit_escapeHex u.toNat_lt ?_ rest, by simp [escapeHex], by simp [escapeHex]⟩
      have h₁ := hsurrogate.1.not.mp (by decide)
      have h₂ := hsurrogate.2.not.mp (by decide)
      omega

theorem readString_step {fuel : Nat} {front bytes tail rest rest' : ByteString}
    (hquote : (front ++ rest).head? ≠ some 34)
    (hunit : readUnit (front ++ rest) = some (bytes, rest))
    (htail : readString fuel rest = some (tail, rest')) :
    readString (fuel + 1) (front ++ rest) = some (bytes ++ tail, rest') := by
  rw [readString, beq_eq_false_iff_ne.mpr hquote, hunit]
  simp only [Bool.false_eq_true, if_false, Option.bind_eq_bind, Option.bind_some, htail]
  rfl

theorem readString_quote {fuel : Nat} (h : 0 < fuel) (rest : ByteString) :
    readString fuel (34 :: rest) = some ([], rest) := by
  obtain ⟨fuel, rfl⟩ := Nat.exists_eq_add_one_of_ne_zero (Nat.ne_of_gt h)
  rfl

/-- **A string literal of the sender reads as the UTF-8 form of the string.** -/
theorem readString_jsonString (value : WideString) (rest : ByteString) {fuel : Nat}
    (h : value.length < fuel) :
    readString fuel (escapeText value ++ 34 :: rest) = some (wideToUtf8 value, rest) := by
  have hescape : ∀ (n : Nat) (text : ByteString), (escapeHex n ++ text).head? ≠ some 34 := by
    intro n text
    rw [escapeHex, List.cons_append, List.head?_cons]
    decide
  have hreplacement : ∀ text, readUnit (escapeHex 65533 ++ text) = some (encodeUtf8 65533, text) :=
    fun text => readUnit_escapeHex (by decide) (by decide) text
  induction value using wideToUtf8.induct generalizing fuel with
  | case1 => exact readString_quote h rest
  | case2 u hu =>
    obtain ⟨fuel, rfl⟩ := Nat.exists_eq_add_one_of_ne_zero (Nat.ne_zero_of_lt h)
    rw [escapeText, if_pos hu, wideToUtf8, if_pos hu, ← List.append_nil (encodeUtf8 65533)]
    exact readString_step (hescape _ _) (hreplacement _)
      (readString_quote (Nat.lt_of_succ_lt_succ h) rest)
  | case3 u hu v tail hv ih =>
    obtain ⟨fuel, rfl⟩ := Nat.exists_eq_add_one_of_ne_zero (Nat.ne_zero_of_lt h)
    rw [escapeText, if_pos hu, wideToUtf8, if_pos hu]
    simp only [hv, if_true]
    have hpair := readUnit_pair (surrogate_iff.1.mp hu) (surrogate_iff.2.mp hv)
      (escapeText tail ++ 34 :: rest)
    rw [List.append_assoc (_ ++ _)]
    refine readString_step ?_ hpair (ih ?_)
    · rw [List.append_assoc]
      exact hescape _ _
    · simp only [List.length_cons] at h
      omega
  | case4 u hu v tail hv ih =>
    obtain ⟨fuel, rfl⟩ := Nat.exists_eq_add_one_of_ne_zero (Nat.ne_zero_of_lt h)
    rw [escapeText, if_pos hu, wideToUtf8, if_pos hu]
    simp only [hv, Bool.false_eq_true, if_false]
    rw [List.append_assoc]
    exact readString_step (hescape _ _) (hreplacement _) (ih (Nat.lt_of_succ_lt_succ h))
  | case5 u tail hu hv ih =>
    obtain ⟨fuel, rfl⟩ := Nat.exists_eq_add_one_of_ne_zero (Nat.ne_zero_of_lt h)
    rw [escapeText.eq_def, wideToUtf8.eq_def]
    simp only [hu, hv, Bool.false_eq_true, if_false, if_true]
    rw [List.append_assoc]
    exact readString_step (hescape _ _) (hreplacement _) (ih (Nat.lt_of_succ_lt_succ h))
  | case6 u tail hu hv ih =>
    obtain ⟨fuel, rfl⟩ := Nat.exists_eq_add_one_of_ne_zero (Nat.ne_zero_of_lt h)
    rw [escapeText.eq_def, wideToUtf8.eq_def]
    simp only [hu, hv, Bool.false_eq_true, if_false]
    obtain ⟨hread, hhead, hne⟩ := readUnit_escapeUnit (Bool.eq_false_iff.mpr hu)
      (Bool.eq_false_iff.mpr hv) (escapeText tail ++ 34 :: rest)
    rw [List.append_assoc]
    refine readString_step ?_ hread (ih (Nat.lt_of_succ_lt_succ h))
    rw [List.head?_append_of_ne_nil _ hne]
    exact hhead

end LocalMediaTransfer
