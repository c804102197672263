import LocalMediaTransfer.Server.ManagedName

/-!
# UTF-8 and UTF-16

Text goes from the C++ side to the C# side and back: bytes are decoded strictly to UTF-16 code
units, and code units are encoded with `U+FFFD` for an unpaired surrogate.

* `decodeUtf8_spec` — decoding finds scalar values, and encoding them gives the bytes back.
* `wideToUtf8_of_utf8ToWide` — the round trip from bytes.
* `wideToUtf8_append_ascii` — encoding commutes with putting texts together around an ASCII
  character, also where a text ends in half of a surrogate pair.
* `utf8ToWide_wideToUtf8` — the round trip from code units, up to unpaired surrogates.
-/

set_option autoImplicit false

namespace LocalMediaTransfer

/-- A Unicode scalar value. -/
def IsScalar (c : Nat) : Prop := c < 1114112 ∧ ¬(55296 ≤ c ∧ c ≤ 57343)

/-- The UTF-16 form of well-formed UTF-8, as a parser of JSON reads a string. -/
def utf8ToWide (bytes : ByteString) : Option WideString :=
  (decodeUtf8 bytes).map fun points => points.flatMap encodeUtf16

/-! ## Decoding -/

theorem ofNat_eq {b : UInt8} {n : Nat} (h : n = b.toNat) : UInt8.ofNat n = b := by
  rw [h, UInt8.ofNat_toNat]

theorem isContinuation_iff {b : UInt8} :
    isContinuation b = true ↔ 128 ≤ b.toNat ∧ b.toNat ≤ 191 := by
  simp only [isContinuation, Bool.and_eq_true, decide_eq_true_eq, UInt8.le_iff_toNat_le,
    UInt8.reduceToNat]

theorem encodeUtf8_two {b0 b1 : UInt8}
    (h : (decide (194 ≤ b0) && decide (b0 ≤ 223) && isContinuation b1) = true) :
    IsScalar ((b0.toNat - 192) * 64 + (b1.toNat - 128)) ∧
      encodeUtf8 ((b0.toNat - 192) * 64 + (b1.toNat - 128)) = [b0, b1] := by
  simp only [Bool.and_eq_true, decide_eq_true_eq, isContinuation_iff, UInt8.le_iff_toNat_le,
    UInt8.reduceToNat] at h
  refine ⟨⟨by omega, by omega⟩, ?_⟩
  rw [encodeUtf8, if_neg (by omega), if_pos (by omega), ofNat_eq (b := b0) (by omega),
    ofNat_eq (b := b1) (by omega)]

theorem encodeUtf8_three {b0 b1 b2 : UInt8}
    (h : (decide (224 ≤ b0) && decide (b0 ≤ 239) && isContinuation b1 && isContinuation b2 &&
      !(b0 == 224 && decide (b1 < 160)) && !(b0 == 237 && decide (160 ≤ b1))) = true) :
    IsScalar ((b0.toNat - 224) * 4096 + (b1.toNat - 128) * 64 + (b2.toNat - 128)) ∧
      encodeUtf8 ((b0.toNat - 224) * 4096 + (b1.toNat - 128) * 64 + (b2.toNat - 128)) =
        [b0, b1, b2] := by
  simp only [Bool.and_eq_true, decide_eq_true_eq, isContinuation_iff, UInt8.le_iff_toNat_le,
    UInt8.lt_iff_toNat_lt, UInt8.reduceToNat, Bool.not_eq_true', Bool.and_eq_false_iff,
    beq_eq_false_iff_ne, ne_eq, ← UInt8.toNat_inj, decide_eq_false_iff_not] at h
  refine ⟨⟨by omega, by omega⟩, ?_⟩
  rw [encodeUtf8, if_neg (by omega), if_neg (by omega), if_pos (by omega),
    ofNat_eq (b := b0) (by omega), ofNat_eq (b := b1) (by omega), ofNat_eq (b := b2) (by omega)]

theorem encodeUtf8_four {b0 b1 b2 b3 : UInt8}
    (h : (decide (240 ≤ b0) && decide (b0 ≤ 244) && isContinuation b1 && isContinuation b2 &&
      isContinuation b3 && !(b0 == 240 && decide (b1 < 144)) &&
        !(b0 == 244 && decide (144 ≤ b1))) = true) :
    IsScalar ((b0.toNat - 240) * 262144 + (b1.toNat - 128) * 4096 + (b2.toNat - 128) * 64 +
        (b3.toNat - 128)) ∧
      encodeUtf8 ((b0.toNat - 240) * 262144 + (b1.toNat - 128) * 4096 + (b2.toNat - 128) * 64 +
        (b3.toNat - 128)) = [b0, b1, b2, b3] := by
  simp only [Bool.and_eq_true, decide_eq_true_eq, isContinuation_iff, UInt8.le_iff_toNat_le,
    UInt8.lt_iff_toNat_lt, UInt8.reduceToNat, Bool.not_eq_true', Bool.and_eq_false_iff,
    beq_eq_false_iff_ne, ne_eq, ← UInt8.toNat_inj, decide_eq_false_iff_not] at h
  refine ⟨⟨by omega, by omega⟩, ?_⟩
  rw [encodeUtf8, if_neg (by omega), if_neg (by omega), if_neg (by omega),
    ofNat_eq (b := b0) (by omega), ofNat_eq (b := b1) (by omega), ofNat_eq (b := b2) (by omega),
    ofNat_eq (b := b3) (by omega)]

/-- **Decoding and encoding again.** -/
theorem decodeUtf8_spec {bytes : ByteString} {points : List Nat}
    (h : decodeUtf8 bytes = some points) :
    (∀ c ∈ points, IsScalar c) ∧ points.flatMap encodeUtf8 = bytes := by
  have hcons : ∀ {c : Nat} {front rest : ByteString} {tail : List Nat},
      IsScalar c ∧ encodeUtf8 c = front →
        (∀ x ∈ tail, IsScalar x) ∧ tail.flatMap encodeUtf8 = rest →
          (∀ x ∈ c :: tail, IsScalar x) ∧ (c :: tail).flatMap encodeUtf8 = front ++ rest := by
    rintro c front rest tail ⟨hc, rfl⟩ ⟨hall, rfl⟩
    exact ⟨List.forall_mem_cons.mpr ⟨hc, hall⟩, List.flatMap_cons⟩
  induction bytes using decodeUtf8.induct generalizing points with
  | case1 =>
    rw [decodeUtf8] at h
    cases h
    exact ⟨List.forall_mem_nil _, rfl⟩
  | case2 b0 r0 hb ih =>
    rw [decodeUtf8.eq_def] at h
    simp only [hb, if_true] at h
    obtain ⟨tail, htail, rfl⟩ := Option.map_eq_some_iff.mp h
    have hlt : b0.toNat < 128 := UInt8.lt_iff_toNat_lt.mp hb
    have hscalar : IsScalar b0.toNat := ⟨by omega, by omega⟩
    exact hcons ⟨hscalar, by rw [encodeUtf8_ascii hlt, UInt8.ofNat_toNat]⟩ (ih htail)
  | case3 b0 hb =>
    rw [decodeUtf8.eq_def] at h
    simp only [hb, if_false] at h
    cases h
  | case4 b0 hb b1 r1 htwo ih =>
    rw [decodeUtf8.eq_def] at h
    simp only [hb, htwo, if_false, if_true] at h
    obtain ⟨tail, htail, rfl⟩ := Option.map_eq_some_iff.mp h
    exact hcons (encodeUtf8_two htwo) (ih htail)
  | case5 b0 hb b1 htwo =>
    rw [decodeUtf8.eq_def] at h
    simp only [hb, htwo, if_false] at h
    cases h
  | case6 b0 hb b1 htwo b2 r2 hthree ih =>
    rw [decodeUtf8.eq_def] at h
    simp only [hb, htwo, hthree, if_false, if_true] at h
    obtain ⟨tail, htail, rfl⟩ := Option.map_eq_some_iff.mp h
    exact hcons (encodeUtf8_three hthree) (ih htail)
  | case7 b0 hb b1 htwo b2 hthree =>
    rw [decodeUtf8.eq_def] at h
    simp only [hb, htwo, hthree, if_false] at h
    cases h
  | case8 b0 hb b1 htwo b2 hthree b3 r3 hfour ih =>
    rw [decodeUtf8.eq_def] at h
    simp only [hb, htwo, hthree, hfour, if_false, if_true] at h
    obtain ⟨tail, htail, rfl⟩ := Option.map_eq_some_iff.mp h
    exact hcons (encodeUtf8_four hfour) (ih htail)
  | case9 b0 hb b1 htwo b2 hthree b3 r3 hfour =>
    rw [decodeUtf8.eq_def] at h
    simp only [hb, htwo, hthree, hfour, if_false] at h
    cases h

/-! ## Encoding -/

theorem wideToUtf8_cons {u : UInt16} {rest : WideString} (hhigh : isHighSurrogate u = false)
    (hlow : isLowSurrogate u = false) :
    wideToUtf8 (u :: rest) = encodeUtf8 u.toNat ++ wideToUtf8 rest := by
  rw [wideToUtf8.eq_def]
  simp only [hhigh, hlow, Bool.false_eq_true, if_false]

/-- The two halves of a code point beyond the basic plane. -/
theorem surrogatePair_spec {c : Nat} (hlt : c < 1114112) (hlarge : ¬c < 65536) :
    (UInt16.ofNat (55296 + (c - 65536) / 1024)).toNat = 55296 + (c - 65536) / 1024 ∧
      (UInt16.ofNat (56320 + (c - 65536) % 1024)).toNat = 56320 + (c - 65536) % 1024 ∧
      isHighSurrogate (UInt16.ofNat (55296 + (c - 65536) / 1024)) = true ∧
      isLowSurrogate (UInt16.ofNat (56320 + (c - 65536) % 1024)) = true := by
  have hu : (UInt16.ofNat (55296 + (c - 65536) / 1024)).toNat = 55296 + (c - 65536) / 1024 := by
    rw [UInt16.toNat_ofNat']
    omega
  have hv : (UInt16.ofNat (56320 + (c - 65536) % 1024)).toNat = 56320 + (c - 65536) % 1024 := by
    rw [UInt16.toNat_ofNat']
    omega
  refine ⟨hu, hv, ?_, ?_⟩
  · simp only [isHighSurrogate, Bool.and_eq_true, decide_eq_true_eq, UInt16.le_iff_toNat_le,
      UInt16.reduceToNat, hu]
    omega
  · simp only [isLowSurrogate, Bool.and_eq_true, decide_eq_true_eq, UInt16.le_iff_toNat_le,
      UInt16.reduceToNat, hv]
    omega

theorem wideToUtf8_encodeUtf16 {c : Nat} {rest : WideString} (h : IsScalar c) :
    wideToUtf8 (encodeUtf16 c ++ rest) = encodeUtf8 c ++ wideToUtf8 rest := by
  obtain ⟨hlt, hsurrogate⟩ := h
  unfold encodeUtf16
  split
  · rename_i hsmall
    have hu : (UInt16.ofNat c).toNat = c := by
      rw [UInt16.toNat_ofNat']
      omega
    rw [List.singleton_append, wideToUtf8_cons, hu]
    all_goals
      simp only [isHighSurrogate, isLowSurrogate, Bool.and_eq_false_iff, decide_eq_false_iff_not,
        UInt16.le_iff_toNat_le, UInt16.reduceToNat, hu]
      omega
  · rename_i hlarge
    obtain ⟨hu, hv, hhigh, hlow⟩ := surrogatePair_spec hlt hlarge
    rw [List.cons_append, List.singleton_append, wideToUtf8.eq_def]
    simp only [hhigh, hlow, if_true, hu, hv]
    rw [show 65536 + (55296 + (c - 65536) / 1024 - 55296) * 1024 +
      (56320 + (c - 65536) % 1024 - 56320) = c by omega]

theorem wideToUtf8_flatMap {points : List Nat} (h : ∀ c ∈ points, IsScalar c) :
    wideToUtf8 (points.flatMap encodeUtf16) = points.flatMap encodeUtf8 := by
  induction points with
  | nil => rw [List.flatMap_nil, List.flatMap_nil, wideToUtf8]
  | cons c rest ih =>
    obtain ⟨hc, hrest⟩ := List.forall_mem_cons.mp h
    rw [List.flatMap_cons, List.flatMap_cons, wideToUtf8_encodeUtf16 hc, ih hrest]

/-- **The round trip.** -/
theorem wideToUtf8_of_utf8ToWide {bytes : ByteString} {value : WideString}
    (h : utf8ToWide bytes = some value) : wideToUtf8 value = bytes := by
  obtain ⟨points, hpoints, rfl⟩ := Option.map_eq_some_iff.mp h
  obtain ⟨hscalar, hbytes⟩ := decodeUtf8_spec hpoints
  rw [wideToUtf8_flatMap hscalar, hbytes]

/-- **Texts put together around an ASCII character.** -/
theorem wideToUtf8_append_ascii {value rest : WideString} {u : UInt16} (hu : u.toNat < 128) :
    wideToUtf8 (value ++ u :: rest) = wideToUtf8 value ++
      UInt8.ofNat u.toNat :: wideToUtf8 rest := by
  obtain ⟨hhigh, hlow⟩ := not_surrogate_of_lt hu
  have hsep : wideToUtf8 (u :: rest) = UInt8.ofNat u.toNat :: wideToUtf8 rest := by
    rw [wideToUtf8_cons hhigh hlow, encodeUtf8_ascii hu, List.singleton_append]
  induction value using wideToUtf8.induct with
  | case1 => rw [List.nil_append, hsep, wideToUtf8, List.nil_append]
  | case2 v hv =>
    have hlone : wideToUtf8 (v :: u :: rest) = encodeUtf8 65533 ++ wideToUtf8 (u :: rest) := by
      rw [wideToUtf8.eq_def]
      simp only [hv, hlow, if_true, Bool.false_eq_true, if_false]
    rw [List.singleton_append, hlone, hsep, wideToUtf8, if_pos hv]
  | case3 v hv w tail hw ih =>
    rw [List.cons_append, List.cons_append, wideToUtf8.eq_def, wideToUtf8.eq_def (v :: w :: tail)]
    simp only [hv, hw, if_true, ih, List.append_assoc]
  | case4 v hv w tail hw ih =>
    rw [List.cons_append, List.cons_append, wideToUtf8.eq_def, wideToUtf8.eq_def (v :: w :: tail)]
    simp only [hv, hw, if_true, Bool.false_eq_true, if_false, List.append_assoc]
    rw [← ih, List.cons_append]
  | case5 v tail hv hw ih =>
    rw [List.cons_append, wideToUtf8.eq_def, wideToUtf8.eq_def (v :: tail)]
    simp only [hv, hw, Bool.false_eq_true, if_false, if_true, ih, List.append_assoc]
  | case6 v tail hv hw ih =>
    rw [List.cons_append, wideToUtf8.eq_def, wideToUtf8.eq_def (v :: tail)]
    simp only [hv, hw, Bool.false_eq_true, if_false, ih, List.append_assoc]

/-! ## Decoding what was encoded -/

/-- A code point is read back from its own bytes. -/
theorem decodeUtf8_encodeUtf8 {c : Nat} {rest : ByteString} (h : IsScalar c) :
    decodeUtf8 (encodeUtf8 c ++ rest) = (c :: ·) <$> decodeUtf8 rest := by
  have hbyte : ∀ n, n < 256 → (UInt8.ofNat n).toNat = n := by
    intro n hn
    rw [UInt8.toNat_ofNat']
    omega
  have hlead : ∀ n, 128 ≤ n → n < 256 → ¬UInt8.ofNat n < 128 := by
    intro n h₁ h₂
    simp only [UInt8.lt_iff_toNat_lt, hbyte n h₂, UInt8.reduceToNat]
    omega
  obtain ⟨hlt, hscalar⟩ := h
  unfold encodeUtf8
  split
  · have hb : UInt8.ofNat c < 128 := by
      simpa only [UInt8.lt_iff_toNat_lt, hbyte c (by omega), UInt8.reduceToNat]
    rw [List.singleton_append, decodeUtf8.eq_def]
    simp only [hb, if_true, hbyte c (by omega)]
  split
  · have h0 := hbyte (192 + c / 64) (by omega)
    have h1 := hbyte (128 + c % 64) (by omega)
    have htwo : (decide (194 ≤ UInt8.ofNat (192 + c / 64)) &&
        decide (UInt8.ofNat (192 + c / 64) ≤ 223) &&
        isContinuation (UInt8.ofNat (128 + c % 64))) = true := by
      simp only [Bool.and_eq_true, decide_eq_true_eq, isContinuation_iff, UInt8.le_iff_toNat_le,
        UInt8.reduceToNat, h0, h1]
      omega
    rw [List.cons_append, List.singleton_append, decodeUtf8.eq_def]
    simp only [hlead _ (show 128 ≤ 192 + c / 64 by omega) (by omega), htwo, if_false, if_true,
      h0, h1]
    rw [show (192 + c / 64 - 192) * 64 + (128 + c % 64 - 128) = c by omega]
  split
  · have h0 := hbyte (224 + c / 4096) (by omega)
    have h1 := hbyte (128 + c / 64 % 64) (by omega)
    have h2 := hbyte (128 + c % 64) (by omega)
    have htwo : (decide (194 ≤ UInt8.ofNat (224 + c / 4096)) &&
        decide (UInt8.ofNat (224 + c / 4096) ≤ 223) &&
        isContinuation (UInt8.ofNat (128 + c / 64 % 64))) = false := by
      have hle : ¬UInt8.ofNat (224 + c / 4096) ≤ 223 := by
        simp only [UInt8.le_iff_toNat_le, h0, UInt8.reduceToNat]
        omega
      simp only [hle, decide_false, Bool.and_false, Bool.false_and]
    have hthree : (decide (224 ≤ UInt8.ofNat (224 + c / 4096)) &&
        decide (UInt8.ofNat (224 + c / 4096) ≤ 239) &&
        isContinuation (UInt8.ofNat (128 + c / 64 % 64)) &&
        isContinuation (UInt8.ofNat (128 + c % 64)) &&
        !(UInt8.ofNat (224 + c / 4096) == 224 && decide (UInt8.ofNat (128 + c / 64 % 64) < 160)) &&
        !(UInt8.ofNat (224 + c / 4096) == 237 && decide (160 ≤ UInt8.ofNat (128 + c / 64 % 64)))) =
          true := by
      simp only [Bool.and_eq_true, decide_eq_true_eq, isContinuation_iff, UInt8.le_iff_toNat_le,
        UInt8.lt_iff_toNat_lt, UInt8.reduceToNat, Bool.not_eq_true', Bool.and_eq_false_iff,
        beq_eq_false_iff_ne, ne_eq, ← UInt8.toNat_inj, decide_eq_false_iff_not, h0, h1, h2]
      omega
    rw [List.cons_append, List.cons_append, List.singleton_append, decodeUtf8.eq_def]
    simp only [hlead _ (show 128 ≤ 224 + c / 4096 by omega) (by omega), htwo, hthree, if_false,
      Bool.false_eq_true, if_true, h0, h1, h2]
    rw [show (224 + c / 4096 - 224) * 4096 + (128 + c / 64 % 64 - 128) * 64 +
      (128 + c % 64 - 128) = c by omega]
  · have h0 := hbyte (240 + c / 262144) (by omega)
    have h1 := hbyte (128 + c / 4096 % 64) (by omega)
    have h2 := hbyte (128 + c / 64 % 64) (by omega)
    have h3 := hbyte (128 + c % 64) (by omega)
    have hle : ∀ m : UInt8, m.toNat < 240 → ¬UInt8.ofNat (240 + c / 262144) ≤ m := by
      intro m hm
      rw [UInt8.le_iff_toNat_le, h0]
      omega
    have hfour : (decide (240 ≤ UInt8.ofNat (240 + c / 262144)) &&
        decide (UInt8.ofNat (240 + c / 262144) ≤ 244) &&
        isContinuation (UInt8.ofNat (128 + c / 4096 % 64)) &&
        isContinuation (UInt8.ofNat (128 + c / 64 % 64)) &&
        isContinuation (UInt8.ofNat (128 + c % 64)) &&
        !(UInt8.ofNat (240 + c / 262144) == 240 &&
          decide (UInt8.ofNat (128 + c / 4096 % 64) < 144)) &&
        !(UInt8.ofNat (240 + c / 262144) == 244 &&
          decide (144 ≤ UInt8.ofNat (128 + c / 4096 % 64)))) = true := by
      simp only [Bool.and_eq_true, decide_eq_true_eq, isContinuation_iff, UInt8.le_iff_toNat_le,
        UInt8.lt_iff_toNat_lt, UInt8.reduceToNat, Bool.not_eq_true', Bool.and_eq_false_iff,
        beq_eq_false_iff_ne, ne_eq, ← UInt8.toNat_inj, decide_eq_false_iff_not, h0, h1, h2, h3]
      omega
    rw [List.cons_append, List.cons_append, List.cons_append, List.singleton_append,
      decodeUtf8.eq_def]
    simp only [hlead _ (show 128 ≤ 240 + c / 262144 by omega) (by omega), hle 223 (by decide),
      hle 239 (by decide), decide_false, Bool.and_false, Bool.false_and, hfour, if_false,
      Bool.false_eq_true, if_true, h0, h1, h2, h3]
    rw [show (240 + c / 262144 - 240) * 262144 + (128 + c / 4096 % 64 - 128) * 4096 +
      (128 + c / 64 % 64 - 128) * 64 + (128 + c % 64 - 128) = c by omega]

/-- `U+FFFD` in the place of every unpaired surrogate. -/
def replaceUnpaired : WideString → WideString
  | [] => []
  | u :: rest =>
      if isHighSurrogate u then
        match rest with
        | [] => [65533]
        | v :: rest' =>
            if isLowSurrogate v then u :: v :: replaceUnpaired rest'
            else 65533 :: replaceUnpaired (v :: rest')
      else if isLowSurrogate u then 65533 :: replaceUnpaired rest
      else u :: replaceUnpaired rest

theorem utf8ToWide_encodeUtf8 {c : Nat} {rest : ByteString} {value : WideString} (h : IsScalar c)
    (hrest : utf8ToWide rest = some value) :
    utf8ToWide (encodeUtf8 c ++ rest) = some (encodeUtf16 c ++ value) := by
  obtain ⟨points, hpoints, rfl⟩ := Option.map_eq_some_iff.mp hrest
  rw [utf8ToWide, decodeUtf8_encodeUtf8 h, hpoints]
  rfl

/-- A surrogate pair is the UTF-16 form of one code point. -/
theorem encodeUtf16_pair {u v : UInt16} (hu : isHighSurrogate u = true)
    (hv : isLowSurrogate v = true) :
    IsScalar (65536 + (u.toNat - 55296) * 1024 + (v.toNat - 56320)) ∧
      encodeUtf16 (65536 + (u.toNat - 55296) * 1024 + (v.toNat - 56320)) = [u, v] := by
  simp only [isHighSurrogate, isLowSurrogate, Bool.and_eq_true, decide_eq_true_eq,
    UInt16.le_iff_toNat_le, UInt16.reduceToNat] at hu hv
  refine ⟨⟨by omega, by omega⟩, ?_⟩
  have hhigh : UInt16.ofNat (55296 + (65536 + (u.toNat - 55296) * 1024 + (v.toNat - 56320) -
      65536) / 1024) = u := by
    rw [← UInt16.toNat_inj, UInt16.toNat_ofNat']
    omega
  have hlow : UInt16.ofNat (56320 + (65536 + (u.toNat - 55296) * 1024 + (v.toNat - 56320) -
      65536) % 1024) = v := by
    rw [← UInt16.toNat_inj, UInt16.toNat_ofNat']
    omega
  rw [encodeUtf16, if_neg (by omega), hhigh, hlow]

theorem encodeUtf16_unit {u : UInt16} (hhigh : isHighSurrogate u = false)
    (hlow : isLowSurrogate u = false) : IsScalar u.toNat ∧ encodeUtf16 u.toNat = [u] := by
  have hlt := u.toNat_lt
  simp only [isHighSurrogate, isLowSurrogate, Bool.and_eq_false_iff, decide_eq_false_iff_not,
    UInt16.le_iff_toNat_le, UInt16.reduceToNat] at hhigh hlow
  refine ⟨⟨by omega, by omega⟩, ?_⟩
  rw [encodeUtf16, if_pos (by omega), UInt16.ofNat_toNat]

/-- **The round trip from code units.** -/
theorem utf8ToWide_wideToUtf8 (value : WideString) :
    utf8ToWide (wideToUtf8 value) = some (replaceUnpaired value) := by
  have hreplacement : ∀ {rest : ByteString} {tail : WideString}, utf8ToWide rest = some tail →
      utf8ToWide (encodeUtf8 65533 ++ rest) = some (65533 :: tail) := fun h =>
    utf8ToWide_encodeUtf8 ⟨by omega, by omega⟩ h
  have hnil : utf8ToWide [] = some [] := by rw [utf8ToWide, decodeUtf8]; rfl
  induction value using wideToUtf8.induct with
  | case1 => rw [wideToUtf8, replaceUnpaired, hnil]
  | case2 u hu =>
    have h := hreplacement hnil
    rw [List.append_nil] at h
    rw [wideToUtf8, replaceUnpaired, if_pos hu, if_pos hu, h]
  | case3 u hu v rest hv ih =>
    obtain ⟨hscalar, hpair⟩ := encodeUtf16_pair hu hv
    have h := utf8ToWide_encodeUtf8 hscalar ih
    rw [hpair] at h
    rw [wideToUtf8.eq_def, replaceUnpaired.eq_def]
    simp only [hu, hv, if_true, h, List.cons_append, List.nil_append]
  | case4 u hu v rest hv ih =>
    rw [wideToUtf8.eq_def, replaceUnpaired.eq_def]
    simp only [hu, hv, if_true, Bool.false_eq_true, if_false, hreplacement ih]
  | case5 u rest hu hl ih =>
    rw [wideToUtf8.eq_def, replaceUnpaired.eq_def]
    simp only [hu, hl, Bool.false_eq_true, if_false, if_true, hreplacement ih]
  | case6 u rest hu hl ih =>
    obtain ⟨hscalar, hunit⟩ := encodeUtf16_unit (Bool.eq_false_iff.mpr hu)
      (Bool.eq_false_iff.mpr hl)
    have h := utf8ToWide_encodeUtf8 hscalar ih
    rw [hunit] at h
    rw [wideToUtf8.eq_def, replaceUnpaired.eq_def]
    simp only [hu, hl, Bool.false_eq_true, if_false, h, List.cons_append, List.nil_append]

/-- A code unit, when every surrogate counts as `U+FFFD`. -/
def foldSurrogate (u : UInt16) : UInt16 :=
  if isHighSurrogate u || isLowSurrogate u then 65533 else u

theorem foldSurrogate_of_lt {u : UInt16} (h : (foldSurrogate u).toNat < 65533) :
    foldSurrogate u = u := by
  unfold foldSurrogate at h ⊢
  split at h
  · exact absurd h (by decide)
  · rename_i hu
    exact if_neg hu

theorem foldSurrogate_ascii {u : UInt16} (h : u.toNat < 128) : foldSurrogate u = u := by
  obtain ⟨hhigh, hlow⟩ := not_surrogate_of_lt h
  rw [foldSurrogate, hhigh, hlow]
  rfl

/-- Nothing but surrogates is replaced. -/
theorem map_foldSurrogate (value : WideString) :
    (replaceUnpaired value).map foldSurrogate = value.map foldSurrogate := by
  have hreplaced : ∀ {u : UInt16}, isHighSurrogate u = true ∨ isLowSurrogate u = true →
      foldSurrogate 65533 = foldSurrogate u := by
    intro u hu
    have hu' : (isHighSurrogate u || isLowSurrogate u) = true := by simpa using hu
    rw [foldSurrogate, foldSurrogate, if_pos hu']
    rfl
  induction value using wideToUtf8.induct with
  | case1 => rw [replaceUnpaired]
  | case2 u hu =>
    rw [replaceUnpaired, if_pos hu, List.map_singleton, List.map_singleton, hreplaced (.inl hu)]
  | case3 u hu v rest hv ih =>
    rw [replaceUnpaired.eq_def]
    simp only [hu, hv, if_true, List.map_cons, ih]
  | case4 u hu v rest hv ih =>
    rw [replaceUnpaired.eq_def]
    simp only [hu, hv, if_true, Bool.false_eq_true, if_false]
    rw [List.map_cons, ih, hreplaced (.inl hu), ← List.map_cons]
  | case5 u rest hu hl ih =>
    rw [replaceUnpaired.eq_def]
    simp only [hu, hl, Bool.false_eq_true, if_false, if_true]
    rw [List.map_cons, ih, hreplaced (.inr hl), ← List.map_cons]
  | case6 u rest hu hl ih =>
    rw [replaceUnpaired.eq_def]
    simp only [hu, hl, Bool.false_eq_true, if_false, List.map_cons, ih]

theorem length_replaceUnpaired (value : WideString) :
    (replaceUnpaired value).length = value.length := by
  simpa using congrArg List.length (map_foldSurrogate value)

theorem wideToUtf8_ne_nil {value : WideString} (h : value ≠ []) : wideToUtf8 value ≠ [] := by
  intro hnil
  have hwide := utf8ToWide_wideToUtf8 value
  rw [hnil, utf8ToWide, decodeUtf8, Option.map_some, Option.some.injEq] at hwide
  have hlength := length_replaceUnpaired value
  rw [← hwide] at hlength
  exact h (List.length_eq_zero_iff.mp hlength.symm)

/-! ## ASCII in encoded text -/

/-- Encoded text and the text it stands for, code point by code point. -/
theorem exists_points (value : WideString) :
    ∃ points : List Nat, (∀ c ∈ points, IsScalar c) ∧
      points.flatMap encodeUtf8 = wideToUtf8 value ∧
      points.flatMap encodeUtf16 = replaceUnpaired value := by
  obtain ⟨points, hpoints, hwide⟩ := Option.map_eq_some_iff.mp (utf8ToWide_wideToUtf8 value)
  obtain ⟨hscalar, hbytes⟩ := decodeUtf8_spec hpoints
  exact ⟨points, hscalar, hbytes, hwide⟩

/-- A code point outside ASCII has no byte in ASCII. -/
theorem lt_of_mem_encodeUtf8 {c : Nat} {b : UInt8} (hc : IsScalar c) (hb : b ∈ encodeUtf8 c)
    (h : b.toNat < 128) : c = b.toNat := by
  have hlt := hc.1
  unfold encodeUtf8 at hb
  split at hb
  · rw [List.mem_singleton.mp hb, UInt8.toNat_ofNat']
    omega
  · exfalso
    split at hb
    · simp only [List.mem_cons, List.not_mem_nil, or_false] at hb
      rcases hb with rfl | rfl <;> rw [UInt8.toNat_ofNat'] at h <;> omega
    split at hb
    · simp only [List.mem_cons, List.not_mem_nil, or_false] at hb
      rcases hb with rfl | rfl | rfl <;> rw [UInt8.toNat_ofNat'] at h <;> omega
    · simp only [List.mem_cons, List.not_mem_nil, or_false] at hb
      rcases hb with rfl | rfl | rfl | rfl <;> rw [UInt8.toNat_ofNat'] at h <;> omega

theorem encodeUtf16_ascii {c : Nat} (h : c < 128) :
    encodeUtf16 c = [UInt16.ofNat c] ∧ (UInt16.ofNat c).toNat = c := by
  refine ⟨?_, ?_⟩
  · rw [encodeUtf16, if_pos (by omega)]
  · rw [UInt16.toNat_ofNat']
    omega

theorem mem_of_mem_wideToUtf8 {value : WideString} {b : UInt8} (hb : b ∈ wideToUtf8 value)
    (h : b.toNat < 128) : ∃ u ∈ value, u.toNat = b.toNat := by
  obtain ⟨points, hscalar, hbytes, hwide⟩ := exists_points value
  rw [← hbytes] at hb
  obtain ⟨c, hc, hbc⟩ := List.mem_flatMap.mp hb
  have hcb := lt_of_mem_encodeUtf8 (hscalar c hc) hbc h
  obtain ⟨hunit, hnat⟩ := encodeUtf16_ascii (c := c) (by omega)
  have hu : UInt16.ofNat c ∈ replaceUnpaired value := by
    rw [← hwide]
    exact List.mem_flatMap.mpr ⟨c, hc, by rw [hunit]; exact List.mem_singleton_self _⟩
  have hfold : foldSurrogate (UInt16.ofNat c) ∈ value.map foldSurrogate := by
    rw [← map_foldSurrogate]
    exact List.mem_map_of_mem hu
  rw [foldSurrogate_ascii (by omega)] at hfold
  obtain ⟨v, hv, hvc⟩ := List.mem_map.mp hfold
  refine ⟨v, hv, ?_⟩
  rw [← foldSurrogate_of_lt (u := v) (by rw [hvc]; omega), hvc]
  omega

theorem getLast_of_getLast_wideToUtf8 {value : WideString} {b : UInt8}
    (hb : (wideToUtf8 value).getLast? = some b) (h : b.toNat < 128) :
    ∃ u, value.getLast? = some u ∧ u.toNat = b.toNat := by
  obtain ⟨points, hscalar, hbytes, hwide⟩ := exists_points value
  rw [← hbytes] at hb
  rcases List.eq_nil_or_concat points with rfl | ⟨front, c, rfl⟩
  · cases hb
  rw [List.concat_eq_append, List.flatMap_append, List.flatMap_singleton] at hb hwide
  rw [List.concat_eq_append] at hscalar
  have hc := hscalar c (List.mem_append_right _ (List.mem_singleton_self c))
  have hne : encodeUtf8 c ≠ [] := by
    unfold encodeUtf8
    split_ifs <;> exact fun hnil => List.cons_ne_nil _ _ hnil
  rw [List.getLast?_append_of_ne_nil _ hne] at hb
  have hcb := lt_of_mem_encodeUtf8 hc (List.mem_of_getLast? hb) h
  obtain ⟨hunit, hnat⟩ := encodeUtf16_ascii (c := c) (by omega)
  have hlast : (value.map foldSurrogate).getLast? = some (foldSurrogate (UInt16.ofNat c)) := by
    rw [← map_foldSurrogate, ← hwide, hunit, List.map_append, List.map_singleton,
      List.getLast?_concat]
  rw [foldSurrogate_ascii (by omega), List.getLast?_map] at hlast
  obtain ⟨v, hv, hvc⟩ := Option.map_eq_some_iff.mp hlast
  refine ⟨v, hv, ?_⟩
  rw [← foldSurrogate_of_lt (u := v) (by rw [hvc]; omega), hvc]
  omega

end LocalMediaTransfer
