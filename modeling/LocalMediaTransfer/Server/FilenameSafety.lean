import LocalMediaTransfer.Server.Unicode

/-!
# Sanitized names

Every step of the sanitizer works on UTF-16 text, and a later step could undo what an earlier one
ensured.  What survives all of them is `CleanWide`; encoding carries it over to the bytes.

* `makeFinalFilename_ne_nil` — there is always a name.
* `cleanWide_sanitized` — the text that is encoded in the end is clean.
* `joinPath` — `path::operator/` of the Windows runtime; `PlainComponent` — a name that stays in
  the directory it is put into.
* `sanitized_name_contained` — **every sanitized name is such a name**.
-/

set_option autoImplicit false

namespace LocalMediaTransfer

theorem fallback_ne_nil (env : NameEnv) : buildFallbackFilename env ≠ [] := by
  simp [buildFallbackFilename, ascii]

theorem ite_ne_nil {c : Prop} [Decidable c] {a b : ByteString} (ha : a ≠ []) (hb : ¬c → b ≠ []) :
    (if c then a else b) ≠ [] := by
  split
  · exact ha
  · rename_i h
    exact hb h

theorem makeFinalFilename_ne_nil (env : NameEnv) (originalName : ByteString) :
    makeFinalFilename env originalName ≠ [] := by
  have hfallback := fallback_ne_nil env
  rw [makeFinalFilename_eq]
  unfold sanitizeWindowsUtf8Filename
  refine ite_ne_nil hfallback fun _ => ite_ne_nil hfallback fun _ => ite_ne_nil hfallback ?_
  exact fun h hnil => h (by rw [hnil]; rfl)

/-! ## Clean text -/

/-- No code unit that the sanitizer replaces, and no dot or space at the end. -/
structure CleanWide (value : WideString) : Prop where
  legal : ∀ u ∈ value, isIllegal u = false
  ending : ∀ u, value.getLast? = some u → u ≠ 46 ∧ u ≠ 32

/-- Clean text after legal text. -/
theorem CleanWide.append {front value : WideString} (hfront : ∀ u ∈ front, isIllegal u = false)
    (h : CleanWide value) (hne : value ≠ []) : CleanWide (front ++ value) where
  legal := by
    intro u hu
    rcases List.mem_append.mp hu with hu | hu
    · exact hfront u hu
    · exact h.legal u hu
  ending := by
    intro u hu
    rw [List.getLast?_append_of_ne_nil _ hne] at hu
    exact h.ending u hu

theorem trim_ending {value : WideString} {u : UInt16}
    (h : (trimInvalidFilenameEnd value).getLast? = some u) : u ≠ 46 ∧ u ≠ 32 := by
  unfold trimInvalidFilenameEnd at h
  rw [List.getLast?_reverse] at h
  have hhead := List.head?_dropWhile_not (fun u : UInt16 => u == 32 || u == 46) value.reverse
  rw [h] at hhead
  simp only [Bool.or_eq_false_iff, beq_eq_false_iff_ne] at hhead
  exact ⟨hhead.2, hhead.1⟩

theorem CleanWide.trim {value : WideString} (h : ∀ u ∈ value, isIllegal u = false) :
    CleanWide (trimInvalidFilenameEnd value) where
  legal := fun u hu => h u ((front_trim value).subset hu)
  ending := fun _ => trim_ending

theorem replaceIllegal_legal {value : WideString} :
    ∀ u ∈ replaceIllegal value, isIllegal u = false := by
  intro u hu
  obtain ⟨v, -, rfl⟩ := List.mem_map.mp hu
  split
  · rfl
  · rename_i hlegal
    exact Bool.eq_false_iff.mpr hlegal

theorem cleanWide_cleanBase (env : NameEnv) (original : ByteString) :
    CleanWide (cleanBase env original) := .trim replaceIllegal_legal

/-! ## The fallback name -/

theorem fallback_byte {env : NameEnv} {b : UInt8} (h : b ∈ buildFallbackFilename env) :
    isAlnum b = true ∨ b = 95 := by
  unfold buildFallbackFilename at h
  rcases List.mem_append.mp h with h | h
  · have hfront : (ascii "file_").all (fun c => isAlnum c = true ∨ c = 95) = true := by decide
    simp only [List.all_eq_true, decide_eq_true_eq] at hfront
    exact hfront b h
  · obtain ⟨c, hc, rfl⟩ := List.mem_map.mp h
    obtain ⟨d, hd, rfl⟩ := mem_toDigits hc
    interval_cases d <;> exact .inl (by decide)

theorem isAscii_fallback (env : NameEnv) : isAscii (buildFallbackFilename env) :=
  isAscii_of_safe (fallback_safe env)

theorem utf8OrAnsiToWide_fallback (env : NameEnv) :
    utf8OrAnsiToWide env (buildFallbackFilename env) = widen (buildFallbackFilename env) := by
  have hkeep : (buildFallbackFilename env).takeWhile (· != 0) = buildFallbackFilename env := by
    refine List.takeWhile_eq_self_iff.mpr fun b hb => bne_iff_ne.mpr ?_
    rintro rfl
    cases List.all_eq_true.mp (fallback_safe env) 0 hb
  have hunits : ∀ name : ByteString, (name.map UInt8.toNat).flatMap encodeUtf16 = widen name := by
    intro name
    induction name with
    | nil => rfl
    | cons b rest ih =>
      have hb := b.toNat_lt
      rw [List.map_cons, List.flatMap_cons, ih, encodeUtf16, if_pos (by omega)]
      rfl
  simp only [utf8OrAnsiToWide, hkeep, decodeUtf8_ascii (isAscii_fallback env), hunits]

theorem fallback_unit {env : NameEnv} {u : UInt16} (h : u ∈ widen (buildFallbackFilename env)) :
    isIllegal u = false ∧ u ≠ 46 ∧ u ≠ 32 := by
  obtain ⟨b, hb, rfl⟩ := List.mem_map.mp h
  have halnum := fallback_byte hb
  have hlt := b.toNat_lt
  have hu : (UInt16.ofNat b.toNat).toNat = b.toNat := by
    rw [UInt16.toNat_ofNat']
    omega
  simp only [isAlnum, isDigit, isUpper, isLower, Bool.or_eq_true, Bool.and_eq_true,
    decide_eq_true_eq, UInt8.le_iff_toNat_le, ← UInt8.toNat_inj, UInt8.reduceToNat] at halnum
  simp only [isIllegal, Bool.or_eq_false_iff, decide_eq_false_iff_not, beq_eq_false_iff_ne,
    ne_eq, UInt16.lt_iff_toNat_lt, ← UInt16.toNat_inj, UInt16.reduceToNat, hu]
  omega

theorem cleanWide_fallback (env : NameEnv) : CleanWide (widen (buildFallbackFilename env)) where
  legal := fun _ hu => (fallback_unit hu).1
  ending := fun _ hu => (fallback_unit (List.mem_of_getLast? hu)).2

/-! ## The sanitizer -/

/-- The stem as it is marked when it is reserved. -/
def markedStem (stem : WideString) : WideString :=
  if isReservedWindowsBaseName stem then stem ++ [95] else stem

theorem markedStem_legal {stem : WideString} (h : ∀ u ∈ stem, isIllegal u = false) :
    ∀ u ∈ markedStem stem, isIllegal u = false := by
  unfold markedStem
  split
  · intro u hu
    rcases List.mem_append.mp hu with hu | hu
    · exact h u hu
    · rw [List.mem_singleton.mp hu]
      rfl
  · exact h

theorem markedStem_ne_nil {stem : WideString} (h : stem ≠ []) : markedStem stem ≠ [] := by
  unfold markedStem
  split
  · simp
  · exact h

theorem CleanWide.markedStem {stem : WideString} (h : CleanWide stem) :
    CleanWide (markedStem stem) where
  legal := markedStem_legal h.legal
  ending := by
    unfold LocalMediaTransfer.markedStem
    split
    · intro u hu
      rw [List.getLast?_concat] at hu
      cases hu
      decide
    · exact h.ending

/-- The room that an extension leaves for the stem. -/
def stemRoom (ext : WideString) : Nat := if ext.length < 200 then 200 - ext.length else 1

theorem limitStem_fits {env : NameEnv} {stem ext : WideString}
    (h : stem.length + ext.length ≤ 200) :
    limitStem env stem ext = stem := by
  rw [limitStem_eq, if_neg (by omega)]

theorem limitStem_cut {env : NameEnv} {stem ext : WideString} (h : 200 < stem.length + ext.length) :
    limitStem env stem ext =
      if cutStem (stemRoom ext) stem = [] then widen (buildFallbackFilename env)
      else cutStem (stemRoom ext) stem := by
  rw [limitStem_eq, if_pos h, utf8OrAnsiToWide_fallback]
  rfl

/-- The length limit drops a dot or a space that it has brought to the end. -/
theorem limitStem_cases_clean (env : NameEnv) (stem ext : WideString) :
    limitStem env stem ext = stem ∨ limitStem env stem ext = widen (buildFallbackFilename env) ∨
      limitStem env stem ext = cutStem (stemRoom ext) stem := by
  by_cases hlong : 200 < stem.length + ext.length
  · rw [limitStem_cut hlong]
    split
    · exact .inr (.inl rfl)
    · exact .inr (.inr rfl)
  · exact .inl (limitStem_fits (by omega))

theorem limitStem_legal {env : NameEnv} {stem ext : WideString}
    (h : ∀ u ∈ stem, isIllegal u = false) : ∀ u ∈ limitStem env stem ext, isIllegal u = false := by
  rcases limitStem_cases_clean env stem ext with hkept | hkept | hkept
  · rwa [hkept]
  · rw [hkept]
    exact (cleanWide_fallback env).legal
  · rw [hkept]
    exact fun u hu => h u ((front_cutStem _ stem).subset hu)

theorem CleanWide.limitStem {env : NameEnv} {stem : WideString} (h : CleanWide stem)
    (ext : WideString) : CleanWide (limitStem env stem ext) where
  legal := limitStem_legal h.legal
  ending := by
    rcases limitStem_cases_clean env stem ext with hkept | hkept | hkept
    · rw [hkept]
      exact h.ending
    · rw [hkept]
      exact (cleanWide_fallback env).ending
    · rw [hkept]
      exact fun _ => trim_ending

theorem limitStem_ne_nil (env : NameEnv) {stem : WideString} (h : stem ≠ []) (ext : WideString) :
    limitStem env stem ext ≠ [] := by
  have hcases : limitStem env stem ext = utf8OrAnsiToWide env (buildFallbackFilename env) ∨
      limitStem env stem ext <+: stem ∧ limitStem env stem ext ≠ [] := limitStem_cases h
  rcases hcases with hfallback | hkept
  · rw [hfallback, utf8OrAnsiToWide_fallback]
    intro hnil
    exact fallback_ne_nil env (List.map_eq_nil_iff.mp hnil)
  · exact hkept.2

/-- **The sanitizer, over a split base name.** -/
theorem sanitize_split {env : NameEnv} {original : ByteString}
    (h : cleanBase env original ≠ []) :
    ∃ stem ext, cleanBase env original = stem ++ ext ∧ stem ≠ [] ∧
      splitExtension 46 (cleanBase env original) = (stem, ext) ∧
      (ext = [] ∨ ∃ rest, ext = 46 :: rest ∧ rest ≠ [] ∧ 46 ∉ rest) ∧
      makeFinalFilename env original =
        wideToUtf8 (limitStem env (markedStem stem) ext ++ ext) := by
  have hresult : ∀ {stem ext : WideString},
      splitExtension 46 (cleanBase env original) = (stem, ext) → stem ≠ [] → ext ≠ [46] →
        makeFinalFilename env original =
          wideToUtf8 (limitStem env (markedStem stem) ext ++ ext) := by
    intro stem ext hcut hstem hext
    have hkept := limitStem_ne_nil env (markedStem_ne_nil hstem) ext
    rw [makeFinalFilename_eq, sanitize_eq hcut hstem hext h]
    exact if_neg (wideToUtf8_ne_nil (List.append_ne_nil_of_left_ne_nil hkept ext))
  rcases splitExtension_cases 46 (cleanBase env original) with
    ⟨hcut, -⟩ | ⟨stem, ext, hname, hdot, hstem, hcut⟩
  · exact ⟨_, [], (List.append_nil _).symm, h, hcut, .inl rfl, hresult hcut h (by decide)⟩
  · have hne : ext ≠ [] := by
      rintro rfl
      exact getLast_trim hname rfl
    exact ⟨stem, 46 :: ext, hname, hstem, hcut, .inr ⟨ext, rfl, hne, hdot⟩,
      hresult hcut hstem (by simpa using hne)⟩

/-- **What is encoded in the end is clean.** -/
theorem cleanWide_sanitized (env : NameEnv) (original : ByteString) :
    ∃ value, value ≠ [] ∧ CleanWide value ∧ makeFinalFilename env original = wideToUtf8 value := by
  by_cases hclean : cleanBase env original = []
  · refine ⟨widen (buildFallbackFilename env), ?_, cleanWide_fallback env, ?_⟩
    · exact fun hnil => fallback_ne_nil env (List.map_eq_nil_iff.mp hnil)
    · rw [makeFinalFilename_eq, sanitize_nil hclean, wideToUtf8_widen (isAscii_fallback env)]
  · obtain ⟨stem, ext, hname, hstem, -, hext, hfinal⟩ := sanitize_split hclean
    have hbase := cleanWide_cleanBase env original
    rw [hname] at hbase
    have hlegal : ∀ u ∈ stem, isIllegal u = false := fun u hu =>
      hbase.legal u (List.mem_append_left _ hu)
    have hkept := limitStem_ne_nil env (markedStem_ne_nil hstem) ext
    refine ⟨_, List.append_ne_nil_of_left_ne_nil hkept ext, ?_, hfinal⟩
    rcases hext with rfl | ⟨rest, rfl, -, -⟩
    · rw [List.append_nil] at hbase ⊢
      exact hbase.markedStem.limitStem []
    · have hend : CleanWide (46 :: rest) := by
        refine ⟨fun u hu => hbase.legal u (List.mem_append_right _ hu), fun u hu => ?_⟩
        apply hbase.ending u
        rwa [List.getLast?_append_of_ne_nil _ (List.cons_ne_nil 46 rest)]
      exact .append (limitStem_legal (markedStem_legal hlegal)) hend (List.cons_ne_nil 46 rest)

/-! ## Clean bytes -/

/-- `<`, `>`, `:`, `"`, `/`, `\`, `|`, `?`, `*` and what is below 32. -/
def isIllegalByte (b : UInt8) : Bool :=
  b < 32 || b == 60 || b == 62 || b == 58 || b == 34 || b == 47 || b == 92 || b == 124 ||
    b == 63 || b == 42

theorem isIllegal_of_byte {u : UInt16} {b : UInt8} (h : u.toNat = b.toNat) :
    isIllegal u = isIllegalByte b := by
  have hlt := b.toNat_lt
  rw [Bool.eq_iff_iff]
  simp only [isIllegal, isIllegalByte, Bool.or_eq_true, decide_eq_true_eq, beq_iff_eq,
    UInt16.lt_iff_toNat_lt, UInt8.lt_iff_toNat_lt, ← UInt16.toNat_inj, ← UInt8.toNat_inj,
    UInt16.reduceToNat, UInt8.reduceToNat, h]

theorem isIllegalByte_of_high {b : UInt8} (h : 128 ≤ b.toNat) : isIllegalByte b = false := by
  simp only [isIllegalByte, Bool.or_eq_false_iff, decide_eq_false_iff_not, beq_eq_false_iff_ne,
    ne_eq, UInt8.lt_iff_toNat_lt, ← UInt8.toNat_inj, UInt8.reduceToNat]
  omega

theorem CleanWide.bytes_legal {value : WideString} (h : CleanWide value) :
    ∀ b ∈ wideToUtf8 value, isIllegalByte b = false := by
  intro b hb
  by_cases hascii : b.toNat < 128
  · obtain ⟨u, hu, hub⟩ := mem_of_mem_wideToUtf8 hb hascii
    rw [← isIllegal_of_byte hub]
    exact h.legal u hu
  · exact isIllegalByte_of_high (by omega)

theorem CleanWide.bytes_ending {value : WideString} (h : CleanWide value) {b : UInt8}
    (hb : (wideToUtf8 value).getLast? = some b) : b ≠ 46 ∧ b ≠ 32 := by
  have hdiffer : ∀ c : UInt8, c.toNat < 128 → (∀ u, value.getLast? = some u → u.toNat ≠ c.toNat) →
      b ≠ c := by
    rintro c hc hvalue rfl
    obtain ⟨u, hu, hub⟩ := getLast_of_getLast_wideToUtf8 hb hc
    exact hvalue u hu hub
  constructor
  · exact hdiffer 46 (by decide) fun u hu hub =>
      (h.ending u hu).1 (UInt16.toNat_inj.mp (hub.trans rfl))
  · exact hdiffer 32 (by decide) fun u hu hub =>
      (h.ending u hu).2 (UInt16.toNat_inj.mp (hub.trans rfl))

/-! ## Directory and name -/

/-- A drive letter and a colon. -/
def isDrivePrefix : ByteString → Bool
  | a :: b :: _ => (isUpper a || isLower a) && b == 58
  | _ => false

/-- `path::has_root_directory`. -/
def hasRootDirectory (path : ByteString) : Bool :=
  (path.drop (rootNameLength path)).head?.any isPathSeparator

/-- `path::is_absolute`. -/
def isAbsolutePath (path : ByteString) : Bool :=
  0 < rootNameLength path && (!isDrivePrefix path || hasRootDirectory path)

/-- `path::operator/`, as the Windows runtime implements it. -/
def joinPath (dir path : ByteString) : ByteString :=
  let rootName := path.take (rootNameLength path)
  let relative := path.drop (rootNameLength path)
  if isAbsolutePath path || (!rootName.isEmpty &&
    rootName != dir.take (rootNameLength dir)) then path
  else if hasRootDirectory path then dir.take (rootNameLength dir) ++ relative
  else if rootNameLength dir = dir.length then
    if 3 ≤ dir.length then dir ++ 92 :: relative else dir ++ relative
  else if dir.getLast?.any isPathSeparator then dir ++ relative
  else dir ++ 92 :: relative

/-- What stands between a directory and the name of an entry. -/
def separatorAfter (dir : ByteString) : ByteString :=
  if (rootNameLength dir = dir.length ∧ dir.length < 3) ∨
      (rootNameLength dir ≠ dir.length ∧ dir.getLast?.any isPathSeparator = true) then []
  else [92]

/-- A name that stays in the directory it is put into. -/
structure PlainComponent (name : ByteString) : Prop where
  ne_nil : name ≠ []
  legal : ∀ b ∈ name, isIllegalByte b = false
  ending : ∀ b, name.getLast? = some b → b ≠ 46 ∧ b ≠ 32
  /-- The name is its own last component. -/
  component : name.filename = name
  /-- Under any directory, it is the path of the directory with the name after it. -/
  inside : ∀ dir, joinPath dir name = dir ++ separatorAfter dir ++ name

theorem no_separator {name : ByteString} (h : ∀ b ∈ name, isIllegalByte b = false) :
    ∀ b ∈ name, isPathSeparator b = false ∧ b ≠ 58 := by
  intro b hb
  have hlegal := h b hb
  simp only [isIllegalByte, Bool.or_eq_false_iff, beq_eq_false_iff_ne] at hlegal
  simp only [isPathSeparator, Bool.or_eq_false_iff, beq_eq_false_iff_ne]
  tauto

theorem rootNameLength_of_legal {name : ByteString} (h : ∀ b ∈ name, isIllegalByte b = false) :
    rootNameLength name = 0 := by
  have hsep := no_separator h
  match name with
  | [] => rfl
  | [a] => rfl
  | a :: b :: rest =>
    have ha := (hsep a (by simp)).1
    have hb : (b == 58) = false := beq_eq_false_iff_ne.mpr (hsep b (by simp)).2
    simp [rootNameLength, ha, hb]

theorem joinPath_plain {dir name : ByteString} (hroot : rootNameLength name = 0)
    (hhead : name.head?.any isPathSeparator = false) :
    joinPath dir name = dir ++ separatorAfter dir ++ name := by
  have habsolute : isAbsolutePath name = false := by
    rw [isAbsolutePath, hroot]
    rfl
  have hdirectory : hasRootDirectory name = false := by
    rw [hasRootDirectory, hroot, List.drop_zero, hhead]
  simp only [joinPath, habsolute, hdirectory, hroot, List.take_zero, List.drop_zero,
    List.isEmpty_nil, Bool.not_true, Bool.false_and, Bool.or_false, Bool.false_eq_true, if_false]
  unfold separatorAfter
  by_cases hdir : rootNameLength dir = dir.length
  · by_cases hshort : dir.length < 3
    · simp [hdir, hshort, show ¬3 ≤ dir.length by omega]
    · simp [hdir, hshort, show 3 ≤ dir.length by omega]
  · cases dir.getLast?.any isPathSeparator <;> simp [hdir]

/-- **Filename containment.**  Whatever bytes a client sends as a file name, the sanitized name is
one component of legal characters, not ended by a dot or a space, and stays in its directory. -/
theorem sanitized_name_contained (env : NameEnv) (original : ByteString) :
    PlainComponent (makeFinalFilename env original) := by
  obtain ⟨value, hne, hclean, hfinal⟩ := cleanWide_sanitized env original
  have hlegal : ∀ b ∈ makeFinalFilename env original, isIllegalByte b = false := by
    rw [hfinal]
    exact hclean.bytes_legal
  have hroot := rootNameLength_of_legal hlegal
  have hplain : ∀ b ∈ makeFinalFilename env original, isPathSeparator b = false := fun b hb =>
    (no_separator hlegal b hb).1
  refine ⟨makeFinalFilename_ne_nil env original, hlegal, ?_, ?_, fun dir => ?_⟩
  · rw [hfinal]
    exact fun b => hclean.bytes_ending
  · rw [ByteString.filename, hroot, List.drop_zero, List.takeWhile_eq_self_iff.mpr,
      List.reverse_reverse]
    intro b hb
    rw [hplain b (List.mem_reverse.mp hb)]
    rfl
  · apply joinPath_plain hroot
    cases hhead : (makeFinalFilename env original).head? with
    | none => rfl
    | some b => exact hplain b (List.mem_of_head? hhead)

end LocalMediaTransfer
