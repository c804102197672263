import Mathlib.Data.List.TakeWhile
import LocalMediaTransfer.Server.Filename

/-!
# Which names look like temporary files

The startup cleanup removes the files whose names match the pattern of `isManagedTempFile`, and
nothing keeps the sanitizer from producing such a name.  This file compares the two.

* `isManagedTempFile_iff` — the pattern as a set of strings; `isSafeByte_of_managed` — its alphabet.
* `wideToUtf8_eq_iff` — an ASCII name has one UTF-16 form.
* `limitStem_cases` — what the length limit does to a stem.
* `NamesTemporary` — the client's name is a managed name once it is cleaned up.
* `managed_makeFinalFilename` — **the sanitizer gives a managed name exactly in that case**.
* `numberedCandidate_not_managed` — **a numbered name is never a managed name**.
-/

set_option autoImplicit false

namespace LocalMediaTransfer

/-! ## The pattern -/

/-- One of the three alternatives of the pattern. -/
def isManagedStem (stem : ByteString) : Bool := isUploadStem stem ||
    isIosStem stem || isWinStem stem

theorem isManagedTempFile_iff {name : ByteString} :
    isManagedTempFile name = true ↔
      ∃ stem, name = 46 :: stem ++ ascii ".tmp" ∧ isManagedStem stem = true := by
  have htake : ∀ stem : ByteString,
      (stem ++ ascii ".tmp").take ((stem ++ ascii ".tmp").length - 4) = stem := by
    intro stem
    rw [List.length_append, show (ascii ".tmp").length = 4 by decide, Nat.add_sub_cancel,
      List.take_left]
  constructor
  · intro h
    simp only [isManagedTempFile, Bool.and_eq_true, beq_iff_eq] at h
    obtain ⟨⟨hhead, hsuffix⟩, hstem⟩ := h
    obtain ⟨rest, rfl⟩ : ∃ rest, name = 46 :: rest := by
      cases name with
      | nil => cases hhead
      | cons b rest => exact ⟨rest, by rw [Option.some.inj hhead]⟩
    obtain ⟨stem, hstem'⟩ := List.isSuffixOf_iff_suffix.mp hsuffix
    rw [List.tail_cons] at hstem' hstem
    subst hstem'
    rw [htake] at hstem
    exact ⟨stem, rfl, hstem⟩
  · rintro ⟨stem, rfl, hstem⟩
    have hsuffix : (ascii ".tmp").isSuffixOf (stem ++ ascii ".tmp") = true :=
      List.isSuffixOf_iff_suffix.mpr (List.suffix_append ..)
    simp only [isManagedTempFile, List.cons_append, List.head?_cons, List.tail_cons, hsuffix, htake,
      BEq.rfl, Bool.true_and]
    exact hstem

theorem isSafeByte_of_isDigit {b : UInt8} (h : isDigit b = true) : isSafeByte b = true := by
  simp [isSafeByte, isAlnum, h]

theorem isSafeByte_of_isLowerHex {b : UInt8} (h : isLowerHex b = true) : isSafeByte b = true := by
  simp only [isLowerHex, Bool.or_eq_true, Bool.and_eq_true, decide_eq_true_eq] at h
  rcases h with h | ⟨h₁, h₂⟩
  · exact isSafeByte_of_isDigit h
  · have hlower : isLower b = true := by
      simp only [isLower, Bool.and_eq_true, decide_eq_true_eq]
      exact ⟨h₁, UInt8.le_trans h₂ (by decide)⟩
    simp [isSafeByte, isAlnum, hlower]

/-- A word of the pattern: a literal, and a rest in the alphabet. -/
theorem safe_of_literal {literal stem : ByteString} (hl : literal.all isSafeByte = true)
    (hp : literal.isPrefixOf stem = true) (h : (stem.drop literal.length).all isSafeByte = true) :
    stem.all isSafeByte = true := by
  obtain ⟨rest, rfl⟩ := List.isPrefixOf_iff_prefix.mp hp
  rw [List.drop_left] at h
  rw [List.all_append, hl, h]
  rfl

/-- A part of the pattern that ends with a dash and a last part. -/
theorem safe_of_dash {front rest : ByteString} (hfront : front.all isSafeByte = true)
    (hdash : rest.head? = some 45) (hlast : rest.tail.all isSafeByte = true) :
    (front ++ rest).all isSafeByte = true := by
  cases rest with
  | nil => cases hdash
  | cons b last =>
    cases hdash
    rw [List.all_append, List.all_cons, hfront, show isSafeByte 45 = true by decide]
    simpa using hlast

theorem all_safe {p : UInt8 → Bool} (hp : ∀ {b}, p b = true → isSafeByte b = true)
    {name : ByteString} (h : name.all p = true) : name.all isSafeByte = true := by
  rw [List.all_eq_true] at h ⊢
  exact fun b hb => hp (h b hb)

theorem isSafeByte_of_managed {name : ByteString} (h : isManagedTempFile name = true) :
    name.all isSafeByte = true := by
  obtain ⟨stem, rfl, hstem⟩ := isManagedTempFile_iff.mp h
  have hsafe : stem.all isSafeByte = true := by
    simp only [isManagedStem, Bool.or_eq_true] at hstem
    rcases hstem with (hstem | hstem) | hstem
    · simp only [isUploadStem, Bool.and_eq_true] at hstem
      exact safe_of_literal (by decide) hstem.1.1 (all_safe isSafeByte_of_isLowerHex hstem.2)
    · simp only [isIosStem, Bool.and_eq_true, beq_iff_eq] at hstem
      obtain ⟨⟨⟨⟨⟨hlit, -⟩, -⟩, hdash⟩, -⟩, hlast⟩ := hstem
      refine safe_of_literal (by decide) hlit ?_
      have hdigits : ((stem.drop 4).takeWhile isDigit).all isDigit = true := List.all_takeWhile
      have hparts := safe_of_dash (all_safe isSafeByte_of_isDigit hdigits) hdash
        (all_safe isSafeByte_of_isDigit hlast)
      rwa [List.takeWhile_append_dropWhile] at hparts
    · simp only [isWinStem, Bool.and_eq_true, beq_iff_eq] at hstem
      obtain ⟨⟨⟨⟨⟨hlit, -⟩, hhex⟩, hdash⟩, -⟩, hlast⟩ := hstem
      refine safe_of_literal (by decide) hlit ?_
      have hparts := safe_of_dash (all_safe isSafeByte_of_isLowerHex hhex) hdash hlast
      rwa [List.take_append_drop] at hparts
  rw [List.cons_append, List.all_cons, List.all_append, hsafe]
  decide

/-! ## ASCII names in UTF-16 -/

/-- The UTF-16 form of an ASCII name. -/
def widen (name : ByteString) : WideString := name.map fun b => UInt16.ofNat b.toNat

def isAscii (name : ByteString) : Prop := ∀ b ∈ name, b.toNat < 128

theorem isAscii_of_safe {name : ByteString} (h : name.all isSafeByte = true) : isAscii name := by
  intro b hb
  have hsafe := List.all_eq_true.mp h b hb
  simp only [isSafeByte, isAlnum, isDigit, isUpper, isLower, Bool.or_eq_true, Bool.and_eq_true,
    decide_eq_true_eq, beq_iff_eq, UInt8.le_iff_toNat_le, ← UInt8.toNat_inj] at hsafe
  simp only [UInt8.reduceToNat] at hsafe
  omega

theorem encodeUtf8_ascii {c : Nat} (hc : c < 128) : encodeUtf8 c = [UInt8.ofNat c] := by
  rw [encodeUtf8, if_pos hc]

/-- Every other code point has a leading byte outside ASCII. -/
theorem lt_of_isAscii_encodeUtf8 {c : Nat} {rest : ByteString} (hc : c < 1114112)
    (h : isAscii (encodeUtf8 c ++ rest)) : c < 128 := by
  by_contra hge
  have hlead : ∀ n, encodeUtf8 c ++ rest = UInt8.ofNat n :: (encodeUtf8 c ++ rest).tail →
      128 ≤ n → n < 256 → False := by
    intro n heq h₁ h₂
    have hb := h (UInt8.ofNat n) (by rw [heq]; exact List.mem_cons_self ..)
    rw [UInt8.toNat_ofNat'] at hb
    omega
  unfold encodeUtf8 at hlead
  rw [if_neg hge] at hlead
  split at hlead
  · exact hlead _ rfl (by omega) (by omega)
  · split at hlead
    · exact hlead _ rfl (by omega) (by omega)
    · exact hlead _ rfl (by omega) (by omega)

theorem not_surrogate_of_lt {u : UInt16} (h : u.toNat < 128) :
    isHighSurrogate u = false ∧ isLowSurrogate u = false := by
  simp only [isHighSurrogate, isLowSurrogate, Bool.and_eq_false_iff, decide_eq_false_iff_not,
    UInt16.le_iff_toNat_le, UInt16.reduceToNat]
  omega

theorem wideToUtf8_widen {name : ByteString} (h : isAscii name) : wideToUtf8
    (widen name) = name := by
  induction name with
  | nil => simp [widen, wideToUtf8]
  | cons b rest ih =>
    have hb : b.toNat < 128 := h b (List.mem_cons_self ..)
    have hu : (UInt16.ofNat b.toNat).toNat = b.toNat := by
      rw [UInt16.toNat_ofNat']
      omega
    have hsur := not_surrogate_of_lt (u := UInt16.ofNat b.toNat) (by omega)
    rw [widen, List.map_cons, wideToUtf8.eq_def]
    simp only [hsur, Bool.false_eq_true, if_false, hu, encodeUtf8_ascii hb, UInt8.ofNat_toNat]
    exact congrArg (b :: ·) (ih fun c hc => h c (List.mem_cons_of_mem _ hc))

theorem widen_of_isAscii {value : WideString} (h : isAscii (wideToUtf8 value)) :
    value = widen (wideToUtf8 value) := by
  have hreplacement : ∀ rest, ¬isAscii (encodeUtf8 65533 ++ rest) := fun rest h => by
    have := lt_of_isAscii_encodeUtf8 (by omega) h
    omega
  induction value using wideToUtf8.induct with
  | case1 => simp [wideToUtf8, widen]
  | case2 u hu =>
    rw [wideToUtf8, if_pos hu] at h
    exact absurd (by simpa using h) (hreplacement [])
  | case3 u hu v rest hv ih =>
    rw [wideToUtf8, if_pos hu] at h
    simp only [hv, if_true] at h
    have hlt := lt_of_isAscii_encodeUtf8 (by
      have h₁ := u.toNat_lt
      have h₂ := v.toNat_lt
      simp only [isHighSurrogate, isLowSurrogate, Bool.and_eq_true, decide_eq_true_eq,
        UInt16.le_iff_toNat_le, UInt16.reduceToNat] at hu hv
      omega) h
    omega
  | case4 u hu v rest hv ih =>
    rw [wideToUtf8, if_pos hu] at h
    simp only [hv, Bool.false_eq_true, if_false] at h
    exact absurd h (hreplacement _)
  | case5 u rest hu hl ih =>
    rw [wideToUtf8.eq_def] at h
    simp only [hu, hl, Bool.false_eq_true, if_false, if_true] at h
    exact absurd h (hreplacement _)
  | case6 u rest hu hl ih =>
    have hcons : wideToUtf8 (u :: rest) = encodeUtf8 u.toNat ++ wideToUtf8 rest := by
      rw [wideToUtf8.eq_def]
      simp only [hu, hl, Bool.false_eq_true, if_false]
    rw [hcons] at h ⊢
    have hlt := lt_of_isAscii_encodeUtf8 (by have := u.toNat_lt; omega) h
    rw [encodeUtf8_ascii hlt] at h ⊢
    have hrest := ih fun b hb => h b (List.mem_append_right _ hb)
    rw [List.singleton_append, widen, List.map_cons, ← widen, ← hrest]
    congr 1
    rw [← UInt16.toNat_inj, UInt16.toNat_ofNat', UInt8.toNat_ofNat']
    omega

/-- **An ASCII name has one UTF-16 form.** -/
theorem wideToUtf8_eq_iff {value : WideString} {name : ByteString} (h : isAscii name) :
    wideToUtf8 value = name ↔ value = widen name := by
  constructor
  · rintro rfl
    exact widen_of_isAscii h
  · rintro rfl
    exact wideToUtf8_widen h

/-! ## Stem and extension -/

section Split

variable {α : Type} [DecidableEq α] {dot : α}

theorem takeWhile_reverse_dot (stem : List α) {ext : List α} (h : dot ∉ ext) :
    (stem ++ dot :: ext).reverse.takeWhile (· != dot) = ext.reverse ∧
      (stem ++ dot :: ext).reverse.dropWhile (· != dot) = dot :: stem.reverse := by
  have hne : ∀ a ∈ ext.reverse, (a != dot) = true := by
    intro a ha
    exact bne_iff_ne.mpr fun heq => h (heq ▸ List.mem_reverse.mp ha)
  rw [List.reverse_append, List.reverse_cons, List.append_assoc, List.singleton_append,
    List.takeWhile_append_of_pos hne, List.dropWhile_append_of_pos hne]
  simp

/-- The last dot of a name is in one place. -/
theorem lastDot_eq {stem stem' ext ext' : List α} (h : stem ++ dot :: ext = stem' ++ dot :: ext')
    (he : dot ∉ ext) (he' : dot ∉ ext') : stem = stem' ∧ ext = ext' := by
  have h₁ := takeWhile_reverse_dot stem he
  have h₂ := takeWhile_reverse_dot stem' he'
  rw [h] at h₁
  refine ⟨?_, List.reverse_injective (h₁.1.symm.trans h₂.1)⟩
  exact List.reverse_injective (List.cons.inj (h₁.2.symm.trans h₂.2)).2

theorem splitExtension_append {stem ext : List α} (he : dot ∉ ext) (hstem : stem ≠ [])
    (hext : ext ≠ []) : splitExtension dot (stem ++ dot :: ext) = (stem, dot :: ext) := by
  obtain ⟨htake, hdrop⟩ := takeWhile_reverse_dot stem he
  have hdots : stem ++ dot :: ext ≠ [dot, dot] := by
    intro h
    cases stem with
    | nil => exact hstem rfl
    | cons a rest =>
      cases rest with
      | nil => simp [hext] at h
      | cons b rest => simp at h
  obtain ⟨last, init, hrev⟩ := List.exists_cons_of_ne_nil (List.reverse_ne_nil_iff.mpr hstem)
  unfold splitExtension
  rw [hdrop, htake, hrev]
  simp only [hdots, if_false, List.reverse_reverse]
  rw [← hrev, List.reverse_reverse]

/-- A name is cut at its last dot, or not at all. -/
theorem splitExtension_cases (dot : α) (name : List α) :
    (splitExtension dot name = (name, []) ∧ (dot ∉ name.tail ∨ name = [dot, dot])) ∨
    ∃ stem ext, name = stem ++ dot :: ext ∧ dot ∉ ext ∧ stem ≠ [] ∧
      splitExtension dot name = (stem, dot :: ext) := by
  have hparts := List.takeWhile_append_dropWhile (p := (· != dot)) (l := name.reverse)
  have hfree : dot ∉ (name.reverse.takeWhile (· != dot)).reverse := by
    intro h
    have := List.mem_takeWhile_imp (List.mem_reverse.mp h)
    simp at this
  have hname : name = (name.reverse.dropWhile (· != dot)).reverse ++
      (name.reverse.takeWhile (· != dot)).reverse := by
    rw [← List.reverse_append, hparts, List.reverse_reverse]
  unfold splitExtension
  cases hdrop : name.reverse.dropWhile (· != dot) with
  | nil =>
    rw [hdrop, List.reverse_nil, List.nil_append] at hname
    refine .inl ⟨rfl, .inl fun h => hfree ?_⟩
    rw [← hname]
    exact List.mem_of_mem_tail h
  | cons d revStem =>
    have hd : d = dot := by
      have := List.head?_dropWhile_not (· != dot) name.reverse
      rw [hdrop] at this
      simpa using this
    subst hd
    rw [hdrop, List.reverse_cons, List.append_assoc, List.singleton_append] at hname
    cases revStem with
    | nil =>
      refine .inl ⟨rfl, .inl fun h => hfree ?_⟩
      rw [hname] at h
      exact h
    | cons b rest =>
      simp only
      split
      · rename_i hdots
        exact .inl ⟨rfl, .inr hdots⟩
      · exact .inr ⟨_, _, hname, hfree, by simp, rfl⟩

end Split

/-! ## The fallback name -/

theorem mem_toDigits {n : Nat} : ∀ {c : Char}, c ∈ Nat.toDigits 16 n → ∃ d < 16, c =
    Nat.digitChar d := by
  induction n using Nat.strongRecOn with
  | _ n ih =>
    intro c hc
    rw [Nat.toDigits_eq_if (by omega)] at hc
    split at hc
    · exact ⟨n, by assumption, List.mem_singleton.mp hc⟩
    · rcases List.mem_append.mp hc with hc | hc
      · exact ih (n / 16) (by omega) hc
      · exact ⟨n % 16, by omega, List.mem_singleton.mp hc⟩

theorem fallback_safe (env : NameEnv) : (buildFallbackFilename env).all isSafeByte = true := by
  unfold buildFallbackFilename
  rw [List.all_append, Bool.and_eq_true]
  refine ⟨by decide, List.all_eq_true.mpr fun b hb => ?_⟩
  obtain ⟨c, hc, rfl⟩ := List.mem_map.mp hb
  obtain ⟨d, hd, rfl⟩ := mem_toDigits hc
  interval_cases d <;> decide

theorem decodeUtf8_ascii {name : ByteString} (h : isAscii name) :
    decodeUtf8 name = some (name.map UInt8.toNat) := by
  induction name with
  | nil => rw [decodeUtf8, List.map_nil]
  | cons b rest ih =>
    have hb : b < 128 := UInt8.lt_iff_toNat_lt.mpr (h b (List.mem_cons_self ..))
    rw [decodeUtf8.eq_def]
    simp only [hb, if_true, ih fun c hc => h c (List.mem_cons_of_mem _ hc), List.map_cons]
    rfl

/-- The fallback name starts with `f`, also as a wide string. -/
theorem head_fallback (env : NameEnv) :
    (buildFallbackFilename env).head? = some 102 ∧
      (utf8OrAnsiToWide env (buildFallbackFilename env)).head? = some 102 := by
  have hsafe := fallback_safe env
  have hkeep : (buildFallbackFilename env).takeWhile (· != 0) = buildFallbackFilename env := by
    refine List.takeWhile_eq_self_iff.mpr fun b hb => bne_iff_ne.mpr ?_
    rintro rfl
    have h0 := List.all_eq_true.mp hsafe 0 hb
    cases h0
  refine ⟨rfl, ?_⟩
  simp only [utf8OrAnsiToWide, hkeep, decodeUtf8_ascii (isAscii_of_safe hsafe)]
  rfl

theorem head_of_managed {name : ByteString} (h : isManagedTempFile name = true) :
    name.head? = some 46 := by
  obtain ⟨stem, rfl, -⟩ := isManagedTempFile_iff.mp h
  rfl

theorem fallback_not_managed (env : NameEnv) :
    isManagedTempFile (buildFallbackFilename env) = false := by
  refine Bool.eq_false_iff.mpr fun h => ?_
  cases (head_of_managed h).symm.trans (head_fallback env).1

/-! ## Trimming and cutting -/

theorem front_trim (value : WideString) : trimInvalidFilenameEnd value <+: value := by
  unfold trimInvalidFilenameEnd
  rw [← List.reverse_suffix, List.reverse_reverse]
  exact List.dropWhile_suffix _

theorem getLast_trim {value front : WideString} {u : UInt16}
    (h : trimInvalidFilenameEnd value = front ++ [u]) : u ≠ 46 := by
  rintro rfl
  have hhead := List.head?_dropWhile_not (fun u : UInt16 => u == 32 || u == 46) value.reverse
  rw [← List.reverse_reverse (value.reverse.dropWhile _),
    show (value.reverse.dropWhile fun u => u == 32 || u == 46).reverse = front ++ [46] from h,
    List.reverse_append] at hhead
  simp at hhead

/-- What is left of a stem that is cut to `length` code units. -/
def cutStem (length : Nat) (stem : WideString) : WideString :=
  let stem := stem.take length
  trimInvalidFilenameEnd (if stem.getLast?.any isHighSurrogate then stem.dropLast else stem)

theorem front_cutStem (length : Nat) (stem : WideString) : cutStem length stem <+: stem := by
  refine (front_trim _).trans ?_
  split
  · exact (List.dropLast_prefix _).trans (List.take_prefix ..)
  · exact List.take_prefix ..

theorem limitStem_eq {env : NameEnv} {stem ext : WideString} :
    limitStem env stem ext =
      if 200 < stem.length + ext.length then
        let cut := cutStem (if ext.length < 200 then 200 - ext.length else 1) stem
        if cut = [] then utf8OrAnsiToWide env (buildFallbackFilename env) else cut
      else stem := by
  unfold limitStem cutStem
  simp only [List.isEmpty_iff]

/-- The part of a stem that is kept beside the extension `.tmp`. -/
def shownStem (stem : WideString) : WideString :=
  if 196 < stem.length then cutStem 196 stem else stem

/-- The length limit keeps a non-empty front of the stem, or takes the fallback name. -/
theorem limitStem_cases {env : NameEnv} {stem ext : WideString} (hstem : stem ≠ []) :
    limitStem env stem ext = utf8OrAnsiToWide env (buildFallbackFilename env) ∨
      limitStem env stem ext <+: stem ∧ limitStem env stem ext ≠ [] := by
  rw [limitStem_eq]
  by_cases hlong : 200 < stem.length + ext.length
  · rw [if_pos hlong]
    generalize (if ext.length < 200 then 200 - ext.length else 1) = length
    by_cases hcut : cutStem length stem = []
    · exact .inl (if_pos hcut)
    · simp only [hcut, if_false]
      exact .inr ⟨front_cutStem .., hcut⟩
  · rw [if_neg hlong]
    exact .inr ⟨List.prefix_rfl, hstem⟩

/-- The limit beside the extension `.tmp`. -/
theorem limitStem_tmp {env : NameEnv} {stem : WideString} (hstem : stem ≠ []) :
    limitStem env stem (wide ".tmp") =
      if shownStem stem = [] then utf8OrAnsiToWide env (buildFallbackFilename env)
      else shownStem stem := by
  rw [limitStem_eq, show (wide ".tmp").length = 4 by decide]
  unfold shownStem
  by_cases hlong : 196 < stem.length
  · rw [if_pos (show 200 < stem.length + 4 by omega), if_pos hlong]
    rfl
  · rw [if_neg (show ¬200 < stem.length + 4 by omega), if_neg hlong, if_neg hstem]

theorem head_of_front {front value : WideString} {u : UInt16} (h : front <+: value)
    (hu : front.head? = some u) : value.head? = some u := by
  obtain ⟨rest, rfl⟩ := h
  cases front with
  | nil => cases hu
  | cons a front => exact hu

/-- A name that starts with a dot is not reserved. -/
theorem not_reserved_of_dot {stem : WideString} (h : stem.head? = some 46) :
    isReservedWindowsBaseName stem = false := by
  obtain ⟨rest, rfl⟩ : ∃ rest, stem = 46 :: rest := by
    cases stem with
    | nil => cases h
    | cons a rest => exact ⟨rest, by rw [Option.some.inj h]⟩
  have hnames : ∀ name ∈ reservedNames, name.head? ≠ some 46 := by decide
  refine Bool.eq_false_iff.mpr fun hr => ?_
  have hmem := List.contains_iff_mem.mp hr
  exact hnames _ hmem (congrArg some (show towupper 46 = 46 by decide))

/-! ## The sanitizer and the pattern -/

/-- The base name of a client's file name, without illegal characters and trailing dots and
spaces. -/
def cleanBase (env : NameEnv) (original : ByteString) : WideString :=
  trimInvalidFilenameEnd (replaceIllegal (utf8OrAnsiToWide env (baseName original)))

/-- The clean base name is `S.tmp`, and what is kept of `S` is a dot and a managed stem. -/
def NamesTemporary (env : NameEnv) (original : ByteString) : Prop :=
  ∃ stem managed, cleanBase env original = stem ++ wide ".tmp" ∧
    shownStem stem = widen (46 :: managed) ∧ isManagedStem managed = true

/-- The sanitizer, once the clean base name is split. -/
theorem sanitize_eq {env : NameEnv} {original : ByteString} {stem ext : WideString}
    (hcut : splitExtension 46 (cleanBase env original) = (stem, ext)) (hstem : stem ≠ [])
    (hext : ext ≠ [46]) (h : cleanBase env original ≠ []) :
    sanitizeWindowsUtf8Filename env original =
      (let final := wideToUtf8 (limitStem env
        (if isReservedWindowsBaseName stem then stem ++ [95] else stem) ext ++ ext)
       if final = [] then buildFallbackFilename env else final) := by
  have hvalue : utf8OrAnsiToWide env (baseName original) ≠ [] := by
    intro hempty
    rw [cleanBase, hempty] at h
    exact h rfl
  unfold cleanBase at h hcut
  unfold sanitizeWindowsUtf8Filename pathStem pathExtension
  simp only [List.isEmpty_iff, hvalue, h, hcut, hstem, hext, if_false]

theorem sanitize_nil {env : NameEnv} {original : ByteString} (h : cleanBase env original = []) :
    sanitizeWindowsUtf8Filename env original = buildFallbackFilename env := by
  unfold sanitizeWindowsUtf8Filename
  simp only
  split
  · rfl
  · change (if (cleanBase env original).isEmpty = true then _ else _) = _
    rw [h]
    rfl

theorem makeFinalFilename_eq (env : NameEnv) (original : ByteString) :
    makeFinalFilename env original = sanitizeWindowsUtf8Filename env original := by
  unfold makeFinalFilename
  split
  · rename_i hempty
    rw [List.isEmpty_iff.mp hempty, sanitize_nil]
    simp [cleanBase, utf8OrAnsiToWide, baseName, decodeUtf8, ByteString.filename, rootNameLength,
      replaceIllegal, trimInvalidFilenameEnd]
  · rfl

theorem widen_managed (managed : ByteString) :
    widen (46 :: managed ++ ascii ".tmp") = widen (46 :: managed) ++ 46 :: wide "tmp" := by
  rw [widen, List.map_append]
  rfl

theorem front_shownStem (stem : WideString) : shownStem stem <+: stem := by
  unfold shownStem
  split
  · exact front_cutStem ..
  · exact List.prefix_rfl

/-- If what is kept of a stem starts with a dot, the stem is neither reserved nor replaced. -/
theorem limitStem_of_dot {env : NameEnv} {stem ext : WideString} (hstem : stem ≠ [])
    (hhead : (limitStem env (if isReservedWindowsBaseName stem then stem ++ [95] else stem)
      ext).head? = some 46) :
    isReservedWindowsBaseName stem = false ∧ limitStem env stem ext <+: stem := by
  have hkept : ∀ {other : WideString}, other ≠ [] → (limitStem env other ext).head? = some 46 →
      limitStem env other ext <+: other := by
    intro other hne hdot
    rcases limitStem_cases hne with h | h
    · rw [h, (head_fallback env).2] at hdot
      cases hdot
    · exact h.1
  cases hr : isReservedWindowsBaseName stem with
  | false =>
    rw [hr] at hhead
    exact ⟨rfl, hkept hstem hhead⟩
  | true =>
    rw [hr] at hhead
    have hdot := head_of_front (hkept (by simp) hhead) hhead
    rw [if_pos rfl, List.head?_append_of_ne_nil _ hstem] at hdot
    cases hr.symm.trans (not_reserved_of_dot hdot)

/-- What a managed result says about the wide string it was made of. -/
theorem wide_of_managed {env : NameEnv} {value : WideString}
    (h : isManagedTempFile (if wideToUtf8 value = [] then buildFallbackFilename env
      else wideToUtf8 value) = true) :
    ∃ managed, value = widen (46 :: managed) ++ 46 :: wide "tmp" ∧
      isManagedStem managed = true := by
  split at h
  · rw [fallback_not_managed] at h
    cases h
  · obtain ⟨managed, hfinal, hmanaged⟩ := isManagedTempFile_iff.mp h
    have hascii := isAscii_of_safe (isSafeByte_of_managed h)
    rw [hfinal] at hascii
    rw [(wideToUtf8_eq_iff hascii).mp hfinal, widen_managed]
    exact ⟨managed, rfl, hmanaged⟩

theorem namesTemporary_of_managed {env : NameEnv} {original : ByteString}
    (h : isManagedTempFile (sanitizeWindowsUtf8Filename env original) = true) :
    NamesTemporary env original := by
  by_cases hclean : cleanBase env original = []
  · rw [sanitize_nil hclean, fallback_not_managed] at h
    cases h
  rcases splitExtension_cases 46 (cleanBase env original) with
    ⟨hcut, hdot⟩ | ⟨stem, ext, hname, hext, hstem, hcut⟩
  · -- without an extension the name has no second dot
    rw [sanitize_eq hcut hclean (by decide) hclean] at h
    obtain ⟨managed, hvalue, -⟩ := wide_of_managed h
    rw [List.append_nil] at hvalue
    obtain ⟨hr, hkept⟩ := limitStem_of_dot hclean (by rw [hvalue]; rfl)
    rw [hr, if_neg Bool.false_ne_true] at hvalue
    rw [hvalue] at hkept
    obtain ⟨rest, hrest⟩ := hkept
    rcases hdot with hdot | hdots
    · refine absurd ?_ hdot
      rw [← hrest]
      simp [widen]
    · exact absurd rfl (getLast_trim (show _ = [46] ++ [46] from hdots))
  · have hne : ext ≠ [] := by
      rintro rfl
      exact getLast_trim hname rfl
    rw [sanitize_eq hcut hstem (by simpa using hne) hclean] at h
    obtain ⟨managed, hvalue, hmanaged⟩ := wide_of_managed h
    obtain ⟨hkept, rfl⟩ := lastDot_eq hvalue hext (by decide)
    obtain ⟨hr, -⟩ := limitStem_of_dot hstem (by rw [hkept]; rfl)
    rw [hr, if_neg Bool.false_ne_true, show (46 :: wide "tmp") = wide ".tmp" by decide,
      limitStem_tmp hstem] at hkept
    refine ⟨stem, managed, hname, ?_, hmanaged⟩
    split at hkept
    · have hhead := (head_fallback env).2
      rw [hkept] at hhead
      cases hhead
    · exact hkept

theorem managed_of_namesTemporary {env : NameEnv} {original : ByteString}
    (h : NamesTemporary env original) :
    isManagedTempFile (sanitizeWindowsUtf8Filename env original) = true := by
  obtain ⟨stem, managed, hname, hshown, hmanaged⟩ := h
  have hfinal := isManagedTempFile_iff.mpr ⟨managed, rfl, hmanaged⟩
  have hascii := isAscii_of_safe (isSafeByte_of_managed hfinal)
  have hhead : stem.head? = some 46 :=
    head_of_front (front_shownStem stem) (by rw [hshown]; rfl)
  have hstem : stem ≠ [] := by
    rintro rfl
    cases hhead
  have hclean : cleanBase env original ≠ [] := by
    rw [hname]
    simp [hstem]
  have hcut : splitExtension 46 (cleanBase env original) = (stem, wide ".tmp") := by
    rw [hname]
    have htmp : (46 : UInt16) ∉ wide "tmp" := by decide
    exact splitExtension_append htmp hstem (by decide)
  have hkept : limitStem env stem (wide ".tmp") = widen (46 :: managed) := by
    rw [limitStem_tmp hstem, hshown, if_neg (by simp [widen])]
  have hutf8 : wideToUtf8 (widen (46 :: managed) ++ wide ".tmp") = 46 :: managed ++ ascii ".tmp" :=
    (wideToUtf8_eq_iff hascii).mpr (widen_managed managed).symm
  rw [sanitize_eq hcut hstem (by decide) hclean, not_reserved_of_dot hhead,
    if_neg Bool.false_ne_true, hkept]
  simp only [hutf8]
  exact hfinal

/-- **The sanitizer gives a managed name exactly when the client's name is one.** -/
theorem managed_makeFinalFilename {env : NameEnv} {original : ByteString} :
    isManagedTempFile (makeFinalFilename env original) = true ↔ NamesTemporary env original := by
  rw [makeFinalFilename_eq]
  exact ⟨namesTemporary_of_managed, managed_of_namesTemporary⟩

/-- **A numbered name is never a managed name**: it contains a space. -/
theorem numberedCandidate_not_managed (env : NameEnv) (safeName : ByteString) (number : Nat) :
    isManagedTempFile (numberedCandidate env safeName number) = false := by
  refine Bool.eq_false_iff.mpr fun h => ?_
  have hspace : (32 : UInt8) ∈ numberedCandidate env safeName number := by
    have : (32 : UInt8) ∈ ascii " (" := by decide
    simp [numberedCandidate, this]
  cases List.all_eq_true.mp (isSafeByte_of_managed h) 32 hspace

end LocalMediaTransfer
