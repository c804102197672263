import LocalMediaTransfer.Server.FilenameSafety

/-!
# Device names

Windows keeps the names of its devices whatever follows the first dot, and ignores spaces before
it.  The sanitizer compares the stem before the last dot, once, before it cuts an over-long stem.

* `isDeviceName` — what Windows looks at.
* `NamesNoDevice` — the base names, cleaned up, of which the sanitizer makes a portable name.
* `portable_makeFinalFilename` — **the sanitizer gives a portable name exactly for these**.
* `device_name_returned` — a device name that it lets pass.
-/

set_option autoImplicit false

namespace LocalMediaTransfer

/-! ## The part before the first dot -/

/-- The part of a name that Windows compares with the device names. -/
def deviceBase (value : WideString) : WideString :=
  ((value.takeWhile (· != 46)).reverse.dropWhile (· == 32)).reverse

/-- Whether Windows takes the name for a device. -/
def isDeviceName (value : WideString) : Bool := isReservedWindowsBaseName (deviceBase value)

/-- Not a device, and no longer than the sanitizer's limit. -/
def Portable (name : ByteString) : Prop :=
  ∃ value, utf8ToWide name = some value ∧ isDeviceName value = false ∧ value.length ≤ 200

theorem deviceBase_append {front rest : WideString}
    (h : ∀ u ∈ rest.takeWhile (· != 46), u = 32) : deviceBase (front ++ rest) =
    deviceBase front := by
  unfold deviceBase
  rw [List.takeWhile_append]
  split
  · rename_i hall
    have hfront : front.takeWhile (· != 46) = front :=
      (List.takeWhile_prefix _).eq_of_length hall
    rw [hfront, List.reverse_append, List.dropWhile_append_of_pos]
    intro u hu
    exact beq_iff_eq.mpr (h u (List.mem_reverse.mp hu))
  · rfl

theorem deviceBase_extension {front ext : WideString} (h : ext = [] ∨ ∃ rest, ext = 46 :: rest) :
    deviceBase (front ++ ext) = deviceBase front := by
  apply deviceBase_append
  rcases h with rfl | ⟨rest, rfl⟩
  · exact nofun
  · rw [List.takeWhile_cons_of_neg (by decide)]
    exact nofun

theorem deviceBase_self {value : WideString} (h : ∀ u ∈ value, u ≠ 46 ∧ u ≠ 32) :
    deviceBase value = value := by
  unfold deviceBase
  rw [List.takeWhile_eq_self_iff.mpr fun u hu => bne_iff_ne.mpr (h u hu).1]
  cases hrev : value.reverse with
  | nil => rw [List.dropWhile_nil, List.reverse_nil, List.reverse_eq_nil_iff.mp hrev]
  | cons u rest =>
    have hu : (u == 32) = false :=
      beq_eq_false_iff_ne.mpr (h u (List.mem_reverse.mp (hrev ▸ List.mem_cons_self ..))).2
    rw [List.dropWhile_cons_of_neg (by rw [hu]; exact Bool.false_ne_true), ← hrev,
      List.reverse_reverse]

/-- What is trimmed from a name. -/
theorem trim_append (value : WideString) :
    ∃ blank, value = trimInvalidFilenameEnd value ++ blank ∧ ∀ u ∈ blank, u = 32 ∨ u = 46 := by
  refine ⟨(value.reverse.takeWhile fun u => u == 32 || u == 46).reverse, ?_, ?_⟩
  · unfold trimInvalidFilenameEnd
    rw [← List.reverse_append, List.takeWhile_append_dropWhile, List.reverse_reverse]
  · intro u hu
    have := List.mem_takeWhile_imp (List.mem_reverse.mp hu)
    simpa using this

theorem isDeviceName_trim (value : WideString) :
    isDeviceName (trimInvalidFilenameEnd value) = isDeviceName value := by
  obtain ⟨blank, hvalue, hblank⟩ := trim_append value
  have hbase : deviceBase (trimInvalidFilenameEnd value ++ blank) =
      deviceBase (trimInvalidFilenameEnd value) := by
    apply deviceBase_append
    intro u hu
    have hdot := List.mem_takeWhile_imp hu
    rcases hblank u ((List.takeWhile_prefix _).subset hu) with h | rfl
    · exact h
    · exact absurd hdot (by decide)
  rw [← hvalue] at hbase
  rw [isDeviceName, isDeviceName, hbase]

theorem trim_eq_nil_iff {value : WideString} :
    trimInvalidFilenameEnd value = [] ↔ ∀ u ∈ value, u = 32 ∨ u = 46 := by
  unfold trimInvalidFilenameEnd
  rw [List.reverse_eq_nil_iff, List.dropWhile_eq_nil_iff]
  simp

/-! ## Reserved names -/

theorem reserved_length {stem : WideString} (h : isReservedWindowsBaseName stem = true) :
    stem.length ≤ 4 := by
  have hnames : ∀ name ∈ reservedNames, name.length ≤ 4 := by decide
  simpa using hnames _ (List.contains_iff_mem.mp h)

theorem reserved_unit {stem : WideString} (h : isReservedWindowsBaseName stem = true) :
    ∀ u ∈ stem, u.toNat < 256 ∧ (u ≠ 46 ∧ u ≠ 32) ∧ u ≠ 95 := by
  have hnames : reservedNames.all (fun name => name.all fun u =>
      u.toNat < 256 ∧ (u ≠ 46 ∧ u ≠ 32) ∧ u ≠ 95) = true := by
    decide +kernel
  simp only [List.all_eq_true, decide_eq_true_eq] at hnames
  intro u hu
  have hup := hnames _ (List.contains_iff_mem.mp h) _ (List.mem_map_of_mem hu)
  by_cases hlower : 97 ≤ u ∧ u ≤ 122
  · simp only [UInt16.le_iff_toNat_le, UInt16.reduceToNat] at hlower
    simp only [ne_eq, ← UInt16.toNat_inj, UInt16.reduceToNat]
    omega
  · rwa [towupper, if_neg (by simpa using hlower)] at hup

/-- No reserved name is a front of another one. -/
theorem not_reserved_take {stem : WideString} (h : isReservedWindowsBaseName stem = true) {k : Nat}
    (hk : k < stem.length) : isReservedWindowsBaseName (stem.take k) = false := by
  have hnames : ∀ name ∈ reservedNames, ∀ k < name.length,
      reservedNames.contains (name.take k) = false := by
    decide +kernel
  have htake := hnames _ (List.contains_iff_mem.mp h) k (by simpa using hk)
  rwa [isReservedWindowsBaseName, List.map_take]

theorem isDeviceName_reserved {stem : WideString}
    (h : isReservedWindowsBaseName stem = true) {k : Nat}
    (hk : k ≤ stem.length) : isDeviceName (stem.take k) = decide (k = stem.length) := by
  have hself : deviceBase (stem.take k) = stem.take k := deviceBase_self fun u hu =>
    (reserved_unit h u (List.mem_of_mem_take hu)).2.1
  rw [isDeviceName, hself]
  by_cases hlength : k = stem.length
  · rw [hlength, List.take_length, h, decide_eq_true rfl]
  · rw [not_reserved_take h (by omega), decide_eq_false hlength]

/-- The mark keeps a reserved stem from being a device name. -/
theorem not_device_marked {stem : WideString} (h : isReservedWindowsBaseName stem = true) :
    isDeviceName (stem ++ [95]) = false := by
  have hself : deviceBase (stem ++ [95]) = stem ++ [95] := by
    apply deviceBase_self
    intro u hu
    rcases List.mem_append.mp hu with hu | hu
    · exact (reserved_unit h u hu).2.1
    · rw [List.mem_singleton.mp hu]
      decide
  rw [isDeviceName, hself]
  refine Bool.eq_false_iff.mpr fun hr => ?_
  exact (reserved_unit hr 95 (List.mem_append_right _ (List.mem_singleton_self 95))).2.2 rfl

theorem not_device_fallback (env : NameEnv) :
    isDeviceName (widen (buildFallbackFilename env)) = false := by
  have hself := deviceBase_self fun u (hu : u ∈ widen (buildFallbackFilename env)) =>
    (fallback_unit hu).2
  rw [isDeviceName, hself]
  refine Bool.eq_false_iff.mpr fun hr => ?_
  have hlength := reserved_length hr
  have hfront : 5 ≤ (widen (buildFallbackFilename env)).length := by
    rw [widen, List.length_map, buildFallbackFilename, List.length_append]
    exact Nat.le_add_right 5 _
  omega

/-! ## Reading the bytes -/

theorem isReserved_foldSurrogate (stem : WideString) :
    isReservedWindowsBaseName (stem.map foldSurrogate) = isReservedWindowsBaseName stem := by
  have hsmall : ∀ u : UInt16, u.toNat < 256 → foldSurrogate u = u := by
    intro u hu
    have hhigh : (isHighSurrogate u || isLowSurrogate u) = false := by
      simp only [isHighSurrogate, isLowSurrogate, Bool.or_eq_false_iff, Bool.and_eq_false_iff,
        decide_eq_false_iff_not, UInt16.le_iff_toNat_le, UInt16.reduceToNat]
      omega
    rw [foldSurrogate, hhigh]
    rfl
  rw [Bool.eq_iff_iff]
  constructor
  · intro h
    have hself : stem.map foldSurrogate = stem := List.map_congr_left (g := id) (fun u hu => by
      have hsmall := (reserved_unit h _ (List.mem_map_of_mem hu)).1
      exact foldSurrogate_of_lt (by omega)) |>.trans (List.map_id _)
    rwa [hself] at h
  · intro h
    have hself : stem.map foldSurrogate = stem := List.map_congr_left (g := id)
      (fun u hu => hsmall u (reserved_unit h u hu).1) |>.trans (List.map_id _)
    rwa [hself]

theorem foldSurrogate_eq_iff {u c : UInt16} (hc : c.toNat < 128) : foldSurrogate u = c ↔ u = c := by
  constructor
  · intro h
    rw [← h]
    exact (foldSurrogate_of_lt (by rw [h]; omega)).symm
  · rintro rfl
    exact foldSurrogate_ascii hc

theorem deviceBase_foldSurrogate (value : WideString) :
    deviceBase (value.map foldSurrogate) = (deviceBase value).map foldSurrogate := by
  have hdot : ((· != 46) : UInt16 → Bool) ∘ foldSurrogate = (· != 46) := by
    funext u
    rw [Function.comp_apply, Bool.eq_iff_iff, bne_iff_ne, bne_iff_ne, ne_eq, ne_eq,
      foldSurrogate_eq_iff (by decide)]
  have hspace : ((· == 32) : UInt16 → Bool) ∘ foldSurrogate = (· == 32) := by
    funext u
    rw [Function.comp_apply, Bool.eq_iff_iff, beq_iff_eq, beq_iff_eq,
      foldSurrogate_eq_iff (by decide)]
  unfold deviceBase
  rw [List.takeWhile_map, hdot, ← List.map_reverse, List.dropWhile_map, hspace, ← List.map_reverse]

/-- A reader of the bytes sees the length and the device base of the text. -/
theorem portable_wideToUtf8 {value : WideString} :
    Portable (wideToUtf8 value) ↔ isDeviceName value = false ∧ value.length ≤ 200 := by
  have hdevice : isDeviceName (replaceUnpaired value) = isDeviceName value := by
    unfold isDeviceName
    rw [← isReserved_foldSurrogate (deviceBase (replaceUnpaired value)),
      ← deviceBase_foldSurrogate, map_foldSurrogate, deviceBase_foldSurrogate,
      isReserved_foldSurrogate]
  unfold Portable
  rw [utf8ToWide_wideToUtf8]
  simp [hdevice, length_replaceUnpaired]

/-! ## The condition -/

/-- The code units of a stem that fit, without half of a surrogate pair at the cut. -/
def fittingPart (room : Nat) (stem : WideString) : WideString :=
  if stem.length ≤ room then stem
  else if (stem.take room).getLast?.any isHighSurrogate then (stem.take room).dropLast
  else stem.take room

/-- What the stem and the extension of a base name must be like. -/
structure SafeParts (env : NameEnv) (stem ext : WideString) : Prop where
  /-- The extension leaves room for a stem. -/
  extension : ext.length < 200
  /-- A reserved stem does not fill the room: its mark would be cut off. -/
  marked : isReservedWindowsBaseName stem = true → stem.length ≠ 200 - ext.length
  /-- What fits of another stem is no device name before its first dot. -/
  device : isReservedWindowsBaseName stem = false →
    isDeviceName (fittingPart (200 - ext.length) stem) = false
  /-- Where only dots and spaces fit, the name that the clock gives leaves room for the
  extension. -/
  blank : 200 < stem.length + ext.length →
    (∀ u ∈ fittingPart (200 - ext.length) stem, u = 32 ∨ u = 46) →
      (buildFallbackFilename env).length + ext.length ≤ 200

/-- The base name, without illegal characters and trailing dots and spaces, is empty or has safe
parts. -/
def NamesNoDevice (env : NameEnv) (original : ByteString) : Prop :=
  cleanBase env original ≠ [] →
    SafeParts env (pathStem 46 (cleanBase env original)) (pathExtension 46 (cleanBase env original))

theorem cutStem_eq {room : Nat} {stem : WideString} (h : room < stem.length) :
    cutStem room stem = trimInvalidFilenameEnd (fittingPart room stem) := by
  rw [fittingPart, if_neg (by omega)]
  rfl

theorem length_fittingPart (room : Nat) (stem : WideString) :
    (fittingPart room stem).length ≤ room := by
  unfold fittingPart
  split
  · assumption
  · split
    · rw [List.length_dropLast, List.length_take]
      omega
    · rw [List.length_take]
      omega

theorem fittingPart_reserved {room : Nat} {stem rest : WideString}
    (h : isReservedWindowsBaseName stem = true) (hroom : room ≤ stem.length)
    (hlong : room < (stem ++ rest).length) : fittingPart room (stem ++ rest) = stem.take room := by
  have htake : (stem ++ rest).take room = stem.take room := List.take_append_of_le_length hroom
  have hhigh : (stem.take room).getLast?.any isHighSurrogate = false := by
    cases hlast : (stem.take room).getLast? with
    | none => rfl
    | some u =>
      have hsmall := (reserved_unit h u (List.mem_of_mem_take (List.mem_of_getLast? hlast))).1
      simp only [Option.any_some, isHighSurrogate, Bool.and_eq_false_iff, decide_eq_false_iff_not,
        UInt16.le_iff_toNat_le, UInt16.reduceToNat]
      omega
  rw [fittingPart, if_neg (by omega), htake, hhigh]
  rfl

/-! ## The result -/

section Parts

variable {env : NameEnv} {stem ext : WideString}

theorem trim_self (h : ∀ u ∈ stem, u ≠ 46 ∧ u ≠ 32) : trimInvalidFilenameEnd stem = stem := by
  obtain ⟨blank, hvalue, hblank⟩ := trim_append stem
  have hnil : blank = [] := by
    refine List.eq_nil_iff_forall_not_mem.mpr fun u hu => ?_
    have hplain := h u (hvalue ▸ List.mem_append_right _ hu)
    rcases hblank u hu with rfl | rfl
    · exact hplain.2 rfl
    · exact hplain.1 rfl
  rw [hnil, List.append_nil] at hvalue
  exact hvalue.symm

theorem stemRoom_eq (h : ext.length < 200) : stemRoom ext = 200 - ext.length := if_pos h

/-- A reserved stem is marked, and the mark is lost when the stem fills the room. -/
theorem safeParts_reserved (hr : isReservedWindowsBaseName stem = true) (hstem : stem ≠ [])
    (hext : ext.length < 200) :
    isDeviceName (limitStem env (markedStem stem) ext) = false ∧
        (limitStem env (markedStem stem) ext).length + ext.length ≤ 200 ↔
      SafeParts env stem ext := by
  have hmarked : markedStem stem = stem ++ [95] := if_pos hr
  have hlength : (stem ++ [95]).length = stem.length + 1 := List.length_append
  have hdevice : isReservedWindowsBaseName stem = false →
      isDeviceName (fittingPart (200 - ext.length) stem) = false := by
    intro hfalse
    rw [hr] at hfalse
    cases hfalse
  rw [hmarked]
  by_cases hfits : stem.length + 1 + ext.length ≤ 200
  · rw [limitStem_fits (by omega), not_device_marked hr]
    refine ⟨fun _ => ⟨hext, fun _ => by omega, hdevice, fun _ => by omega⟩, fun _ =>
      ⟨rfl, by omega⟩⟩
  · have hroom : 200 - ext.length ≤ stem.length := by omega
    have hpos : 0 < stem.length := List.length_pos_iff.mpr hstem
    have hplain : ∀ u ∈ stem.take (200 - ext.length), u ≠ 46 ∧ u ≠ 32 := fun u hu =>
      (reserved_unit hr u (List.mem_of_mem_take hu)).2.1
    have hne : stem.take (200 - ext.length) ≠ [] := by
      rw [← List.length_pos_iff, List.length_take]
      omega
    have hcut : limitStem env (stem ++ [95]) ext = stem.take (200 - ext.length) := by
      rw [limitStem_cut (by omega), stemRoom_eq hext, cutStem_eq (by omega),
        fittingPart_reserved hr hroom (by omega), trim_self hplain, if_neg hne]
    rw [hcut, isDeviceName_reserved hr hroom, List.length_take]
    constructor
    · rintro ⟨hdiffer, -⟩
      rw [decide_eq_false_iff_not] at hdiffer
      refine ⟨hext, fun _ => Ne.symm hdiffer, hdevice, fun hlong hblank => ?_⟩
      -- a reserved stem has neither dots nor spaces
      have hkept : fittingPart (200 - ext.length) (stem ++ []) = stem.take (200 - ext.length) :=
        fittingPart_reserved hr hroom (by rw [List.append_nil]; omega)
      rw [List.append_nil] at hkept
      rw [hkept] at hblank
      obtain ⟨u, rest, hu⟩ := List.exists_cons_of_ne_nil hne
      have hmem : u ∈ stem.take (200 - ext.length) := hu ▸ List.mem_cons_self ..
      rcases hblank u hmem with rfl | rfl
      · exact absurd rfl (hplain _ hmem).2
      · exact absurd rfl (hplain _ hmem).1
    · intro h
      exact ⟨decide_eq_false (Ne.symm (h.marked hr)), by omega⟩

/-- Another stem is cut to what fits. -/
theorem safeParts_plain (hr : isReservedWindowsBaseName stem = false) (hext : ext.length < 200) :
    isDeviceName (limitStem env (markedStem stem) ext) = false ∧
        (limitStem env (markedStem stem) ext).length + ext.length ≤ 200 ↔
      SafeParts env stem ext := by
  have hmarked : markedStem stem = stem := if_neg (by rw [hr]; exact Bool.false_ne_true)
  have hunmarked : isReservedWindowsBaseName stem = true → stem.length ≠ 200 - ext.length := by
    intro htrue
    rw [hr] at htrue
    cases htrue
  rw [hmarked]
  by_cases hfits : stem.length + ext.length ≤ 200
  · have hpart : fittingPart (200 - ext.length) stem = stem := if_pos (by omega)
    rw [limitStem_fits hfits]
    constructor
    · rintro ⟨hdevice, -⟩
      exact ⟨hext, hunmarked, fun _ => by rwa [hpart], fun _ => by omega⟩
    · intro h
      have hdevice := h.device hr
      rw [hpart] at hdevice
      exact ⟨hdevice, hfits⟩
  · have hpart := length_fittingPart (200 - ext.length) stem
    have htrim := isDeviceName_trim (fittingPart (200 - ext.length) stem)
    rw [limitStem_cut (by omega), stemRoom_eq hext, cutStem_eq (by omega)]
    by_cases hblank : trimInvalidFilenameEnd (fittingPart (200 - ext.length) stem) = []
    · have hlength : (widen (buildFallbackFilename env)).length =
        (buildFallbackFilename env).length :=
        List.length_map ..
      rw [if_pos hblank, not_device_fallback, hlength]
      rw [hblank] at htrim
      constructor
      · rintro ⟨-, hle⟩
        exact ⟨hext, hunmarked, fun _ => htrim.symm, fun _ _ => hle⟩
      · intro h
        exact ⟨rfl, h.blank (by omega) (trim_eq_nil_iff.mp hblank)⟩
    · have hle := (front_trim (fittingPart (200 - ext.length) stem)).length_le
      rw [if_neg hblank, htrim]
      constructor
      · rintro ⟨hdevice, -⟩
        exact ⟨hext, hunmarked, fun _ => hdevice, fun _ h => absurd (trim_eq_nil_iff.mpr h) hblank⟩
      · intro h
        exact ⟨h.device hr, by omega⟩

theorem portable_parts (hstem : stem ≠ []) (hext : ext = [] ∨ ∃ rest, ext = 46 :: rest) :
    Portable (wideToUtf8 (limitStem env (markedStem stem) ext ++ ext)) ↔
      SafeParts env stem ext := by
  have hdevice : isDeviceName (limitStem env (markedStem stem) ext ++ ext) =
      isDeviceName (limitStem env (markedStem stem) ext) := by
    rw [isDeviceName, isDeviceName, deviceBase_extension hext]
  rw [portable_wideToUtf8, hdevice, List.length_append]
  by_cases hlong : ext.length < 200
  · cases hr : isReservedWindowsBaseName stem with
    | true => exact safeParts_reserved hr hstem hlong
    | false => exact safeParts_plain hr hlong
  · have hpos := List.length_pos_iff.mpr (limitStem_ne_nil env (markedStem_ne_nil hstem) ext)
    constructor
    · rintro ⟨-, hle⟩
      omega
    · intro h
      exact absurd h.extension hlong

end Parts

/-- **No device name and no over-long name**, exactly for the base names with safe parts. -/
theorem portable_makeFinalFilename (env : NameEnv) (original : ByteString) :
    Portable (makeFinalFilename env original) ↔ NamesNoDevice env original := by
  by_cases hclean : cleanBase env original = []
  · have hfallback : Portable (makeFinalFilename env original) := by
      rw [makeFinalFilename_eq, sanitize_nil hclean, ← wideToUtf8_widen (isAscii_fallback env),
        portable_wideToUtf8]
      refine ⟨not_device_fallback env, ?_⟩
      have hdigits : (Nat.toDigits 16 (env.now % 2 ^ 24)).length ≤ 6 := by
        rw [Nat.length_toDigits_le_iff (by decide) (by decide)]
        exact Nat.mod_lt _ (by decide)
      rw [widen, List.length_map, buildFallbackFilename, List.length_append, List.length_map]
      exact Nat.add_le_add (show (ascii "file_").length ≤ 194 by decide) hdigits
    exact iff_of_true hfallback fun h => absurd hclean h
  · obtain ⟨stem, ext, -, hstem, hcut, hext, hfinal⟩ := sanitize_split hclean
    have hdot : ext = [] ∨ ∃ rest, ext = 46 :: rest :=
      hext.imp_right fun h => h.imp fun _ hrest => hrest.1
    rw [hfinal, portable_parts hstem hdot, NamesNoDevice, pathStem, pathExtension, hcut]
    exact ⟨fun h _ => h, fun h => h hclean⟩

/-- **A device name that the sanitizer lets pass**: the stem before the last dot is `CON.a`. -/
theorem device_name_returned :
    ¬ ∀ (env : NameEnv) (original : ByteString), Portable (makeFinalFilename env original) := by
  intro h
  obtain ⟨value, hvalue, hdevice, -⟩ := h ⟨fun _ => [], 0⟩ (ascii "CON.a.txt")
  have hname : makeFinalFilename ⟨fun _ => [], 0⟩ (ascii "CON.a.txt") = ascii "CON.a.txt" := by
    decide +kernel
  have hwide : utf8ToWide (ascii "CON.a.txt") = some (wide "CON.a.txt") := by decide +kernel
  rw [hname, hwide] at hvalue
  cases hvalue
  exact absurd hdevice (by decide)

end LocalMediaTransfer
