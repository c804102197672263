import LocalMediaTransfer.Server.Json
import LocalMediaTransfer.Server.Security.NativeSession.Model
import LocalMediaTransfer.Server.Unicode
import LocalMediaTransfer.Server.UploadSession

/-!
# Numbers and hexadecimal digits in .NET strings

The C# programs write numbers and digests as UTF-16 text that the C++ server reads as bytes, and the
other way round.

* `wideToUtf8_decimal`, `wideToUtf8_hexLower` — both sides write the same bytes.
* `parseLong_decimal` — `long.Parse` reads what `std::to_string` wrote.
* `decodeHex_toHex`, `isHex_toHex` — digits and back.
-/

set_option autoImplicit false

namespace LocalMediaTransfer

/-- `ToString(CultureInfo.InvariantCulture)`. -/
def invariantDecimal : Int → WideString
  | .ofNat n => widen (decimal n)
  | .negSucc n => 45 :: widen (decimal (n + 1))

/-- `Convert.ToHexString(...).ToLowerInvariant()`. -/
def hexLower (bytes : ByteString) : WideString := widen (toHex bytes)

/-- The white space of `long.Parse`. -/
def isParseSpace (u : UInt16) : Bool := u == 32 || (9 ≤ u && u ≤ 13)

/-- `long.Parse` in the invariant culture; `none` when it throws. -/
def parseLong (text : WideString) : Option Int :=
  let text := text.dropWhile isParseSpace
  let negative := text.head? == some 45
  let text := if text.head? == some 45 || text.head? == some 43 then text.tail else text
  let digits := text.takeWhile fun u => 48 ≤ u && u ≤ 57
  let rest := text.dropWhile fun u => 48 ≤ u && u ≤ 57
  let size : Nat := digits.foldl (fun acc u => acc * 10 + (u.toNat - 48)) 0
  let value : Int := if negative then -(size : Int) else size
  if digits.isEmpty || !rest.all isParseSpace || value < -2 ^ 63 || 2 ^ 63 ≤ value then none
  else some value

/-- `GetInt32` of a number that is not negative. -/
def getInt32 (number : Nat) : Option Int := if number < 2 ^ 31 then some number else none

/-! ## Texts in bytes and in UTF-16 -/

instance (text : ByteString) : Decidable (isAscii text) :=
  inferInstanceAs (Decidable (∀ b ∈ text, b.toNat < 128))

theorem wideToUtf8_wide {s : String} (h : isAscii (ascii s)) (hs : wide s = widen (ascii s)) :
    wideToUtf8 (wide s) = ascii s := by
  rw [hs, wideToUtf8_widen h]

theorem isAscii_decimal (n : Nat) : isAscii (decimal n) := fun b hb => by
  have h := decimal_digit hb
  omega

theorem wideToUtf8_decimal (n : Nat) : wideToUtf8 (invariantDecimal n) = decimal n :=
  wideToUtf8_widen (isAscii_decimal n)

theorem isAscii_toHex (bytes : ByteString) : isAscii (toHex bytes) :=
  isAscii_of_safe (isSafeByte_toHex bytes)

theorem wideToUtf8_hexLower (bytes : ByteString) : wideToUtf8 (hexLower bytes) = toHex bytes :=
  wideToUtf8_widen (isAscii_toHex bytes)

theorem utf8ToWide_ascii {text : ByteString} (h : isAscii text) :
    utf8ToWide text = some (widen text) := by
  rw [utf8ToWide, decodeUtf8_ascii h, Option.map_some, widen, List.flatMap_map]
  congr 1
  induction text with
  | nil => rfl
  | cons b rest ih =>
    have hb := h b (List.mem_cons_self ..)
    rw [List.flatMap_cons, List.map_cons, ih fun c hc =>
      h c (List.mem_cons_of_mem _ hc), encodeUtf16,
      if_pos (by omega), List.singleton_append]

/-! ## Numbers and digits -/

theorem widen_digit {n : Nat} {u : UInt16} (h : u ∈ widen (decimal n)) :
    48 ≤ u.toNat ∧ u.toNat ≤ 57 := by
  obtain ⟨b, hb, rfl⟩ := List.mem_map.mp h
  have hdigit := decimal_digit hb
  rw [UInt16.toNat_ofNat']
  omega

theorem foldl_widen_decimal (n : Nat) :
    (widen (decimal n)).foldl (fun acc u => acc * 10 + (u.toNat - 48)) 0 = n := by
  rw [widen, decimal, List.foldl_map, List.foldl_map]
  refine Eq.trans (List.foldl_ext _ _ _ fun acc c hc => ?_) Nat.ofDigitChars_ten_toDigits
  have hdigit := Char.isDigit_iff_toNat.mp (Nat.isDigit_of_mem_toDigits (by decide) (by decide) hc)
  have hzero : '0'.toNat = 48 := rfl
  have hnine : '9'.toNat = 57 := rfl
  rw [UInt16.toNat_ofNat', UInt8.toNat_ofNat', hzero, Nat.mul_comm]
  omega

/-- `long.Parse` reads what `std::to_string` wrote. -/
theorem parseLong_decimal {n : Nat} (h : n < 2 ^ 63) : parseLong (widen (decimal n)) =
    some (n : Int) := by
  have hdigits : ∀ u ∈ widen (decimal n), (decide (48 ≤ u) && decide (u ≤ 57)) = true := by
    intro u hu
    have hdigit := widen_digit hu
    simp only [Bool.and_eq_true, decide_eq_true_eq, UInt16.le_iff_toNat_le, UInt16.reduceToNat]
    omega
  have hne : widen (decimal n) ≠ [] := by
    rw [widen, decimal, ne_eq, List.map_eq_nil_iff, List.map_eq_nil_iff]
    exact Nat.toDigits_ne_nil
  have hspace : (widen (decimal n)).dropWhile isParseSpace = widen (decimal n) := by
    obtain ⟨u, rest, hcons⟩ := List.exists_cons_of_ne_nil hne
    have hdigit := widen_digit (n := n) (u := u) (by rw [hcons]; exact List.mem_cons_self ..)
    rw [hcons, List.dropWhile_cons_of_neg]
    simp only [isParseSpace, Bool.or_eq_true, Bool.and_eq_true, beq_iff_eq, decide_eq_true_eq,
      UInt16.le_iff_toNat_le, UInt16.reduceToNat, ← UInt16.toNat_inj]
    omega
  have hsign : ∀ u : UInt16, u.toNat < 48 → (widen (decimal n)).head? ≠ some u := by
    intro u hu hhead
    have hdigit := widen_digit (List.mem_of_mem_head? hhead)
    omega
  simp only [parseLong, hspace, beq_eq_false_iff_ne.mpr (hsign 45 (by decide)),
    beq_eq_false_iff_ne.mpr (hsign 43 (by decide)), Bool.or_self, Bool.false_eq_true, if_false,
    List.takeWhile_eq_self_iff.mpr hdigits, List.dropWhile_eq_nil_iff.mpr hdigits,
    foldl_widen_decimal, List.isEmpty_eq_false_iff.mpr hne, List.all_nil, Bool.not_true,
    Bool.false_or, Bool.or_eq_true, decide_eq_true_eq]
  rw [if_neg (by omega)]

theorem getInt32_of_lt {n : Nat} (h : n < 2 ^ 31) : getInt32 n = some (n : Int) := if_pos h

theorem getUnsigned_of_lt {n : Nat} (h : n < 2 ^ 31) : Json.getUnsigned (.integer n) = some n := by
  rw [Json.getUnsigned]
  congr 1
  omega

theorem hexDigit_lower : ∀ n < 16, isXDigit (hexDigit n) = true ∧
    ((48 ≤ (hexDigit n).toNat ∧ (hexDigit n).toNat ≤ 57) ∨
      (97 ≤ (hexDigit n).toNat ∧ (hexDigit n).toNat ≤ 102)) := by
  decide

theorem mem_toHex {bytes : ByteString} {b : UInt8} (h : b ∈ toHex bytes) :
    ∃ n < 16, b = hexDigit n := by
  obtain ⟨a, -, hb⟩ := List.mem_flatMap.mp h
  have ha := a.toNat_lt
  rcases List.mem_cons.mp hb with rfl | hb
  · exact ⟨_, by omega, rfl⟩
  · exact ⟨_, by omega, List.mem_singleton.mp hb⟩

theorem isHex_toHex (bytes : ByteString) : isHex (toHex bytes) (2 * bytes.length) = true := by
  rw [isHex, length_toHex, beq_self_eq_true, Bool.true_and, List.all_eq_true]
  intro b hb
  obtain ⟨n, hn, rfl⟩ := mem_toHex hb
  exact (hexDigit_lower n hn).1

theorem hexToNibble_hexDigit : ∀ n < 256,
    (hexToNibble (hexDigit (n / 16)) <<< 4 ||| hexToNibble (hexDigit (n % 16))) =
    UInt8.ofNat n := by
  decide +kernel

theorem decodeHex_toHex (bytes : ByteString) : decodeHex (toHex bytes) = bytes := by
  induction bytes with
  | nil => rfl
  | cons b rest ih =>
    rw [toHex, List.flatMap_cons, ← toHex, List.cons_append, List.cons_append, List.nil_append,
      decodeHex, ih, hexToNibble_hexDigit _ b.toNat_lt, UInt8.ofNat_toNat]

end LocalMediaTransfer
