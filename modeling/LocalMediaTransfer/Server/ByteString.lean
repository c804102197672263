import Mathlib.Data.List.TakeWhile
import Mathlib.Tactic

/-!
# Byte strings and the text helpers of the receiver

`std::string` is a byte string.  The character classes are those of the C locale, so bytes
outside ASCII belong to none of them.

* `isSafeFileId`, `owner` — the file-ID alphabet and the owner prefix of `FileWriter.cpp`.
* `stoull` — `std::stoull` in base 10: leading white space and a sign are accepted, trailing
  text is ignored, `-n` wraps modulo `2^64`.
* `urlDecode` — the percent decoding of the `X-Filename` header in `HttpServer.cpp`.
* `stoull_decimal` — `std::stoull` reads what `std::to_string` and its counterparts write.
* `ByteString.filename`, `pathStem`, `pathExtension` — `std::filesystem::path` as the Windows
  runtime implements it; stem and extension are used on byte and on UTF-16 strings.
-/

set_option autoImplicit false

namespace LocalMediaTransfer

/-- `std::string`. -/
abbrev ByteString := List UInt8

/-- An ASCII literal as a byte string. -/
def ascii (s : String) : ByteString := s.toList.map fun c => UInt8.ofNat c.toNat

def isDigit (b : UInt8) : Bool := 48 ≤ b && b ≤ 57
def isUpper (b : UInt8) : Bool := 65 ≤ b && b ≤ 90
def isLower (b : UInt8) : Bool := 97 ≤ b && b ≤ 122
def isAlnum (b : UInt8) : Bool := isDigit b || isUpper b || isLower b
def isXDigit (b : UInt8) : Bool := isDigit b || (65 ≤ b && b ≤ 70) || (97 ≤ b && b ≤ 102)
def isSpace (b : UInt8) : Bool := b == 32 || (9 ≤ b && b ≤ 13)
def toLower (b : UInt8) : UInt8 := if isUpper b then b + 32 else b

/-- `-`, `_` and `.` next to the alphanumeric bytes. -/
def isSafeByte (b : UInt8) : Bool := isAlnum b || b == 45 || b == 95 || b == 46

/-- `isSafeFileId`. -/
def isSafeFileId (fileId : ByteString) : Bool :=
  !fileId.isEmpty && fileId.length ≤ 512 && fileId.all isSafeByte

/-- `id.substr(0, id.find('-'))`: the credential namespace of a storage ID. -/
def owner (fileId : ByteString) : ByteString := fileId.takeWhile (· != 45)

/-- `std::stoull`; the error is the exception text. -/
def stoull (text : ByteString) : Except String Nat :=
  let text := text.dropWhile isSpace
  let negative := text.head? == some 45
  let text := if text.head? == some 45 || text.head? == some 43 then text.tail else text
  let digits := text.takeWhile isDigit
  if digits.isEmpty then .error "invalid stoull argument"
  else
    let value := digits.foldl (fun acc d => acc * 10 + (d.toNat - 48)) 0
    if 2 ^ 64 ≤ value then .error "stoull argument out of range"
    else .ok (if negative then (2 ^ 64 - value) % 2 ^ 64 else value)

/-- `hexToNibble`. -/
def hexToNibble (ch : UInt8) : UInt8 :=
  if isDigit ch then ch - 48
  else if 97 ≤ ch && ch ≤ 102 then 10 + (ch - 97)
  else if 65 ≤ ch && ch ≤ 70 then 10 + (ch - 65)
  else 0

/-- `urlDecode`. -/
def urlDecode : ByteString → ByteString
  | c :: h1 :: h2 :: rest =>
      if c == 37 && isXDigit h1 && isXDigit h2 then
        ((hexToNibble h1 <<< 4) ||| hexToNibble h2) :: urlDecode rest
      else c :: urlDecode (h1 :: h2 :: rest)
  | rest => rest

/-- `std::to_string` of an unsigned number. -/
def decimal (n : Nat) : ByteString := (Nat.toDigits 10 n).map fun c => UInt8.ofNat c.toNat

section Path

variable {α : Type} [DecidableEq α]

/-- Where `path::stem` and `path::extension` cut a file name: the last dot, unless it is the
first character or the name is `..`. -/
def splitExtension (dot : α) (name : List α) : List α × List α :=
  match name.reverse.dropWhile (· != dot) with
  | [] => (name, [])
  | _ :: [] => (name, [])
  | _ :: revStem =>
      if name = [dot, dot] then (name, [])
      else (revStem.reverse, dot :: (name.reverse.takeWhile (· != dot)).reverse)

/-- `path::stem` of a file name. -/
def pathStem (dot : α) (name : List α) : List α := (splitExtension dot name).1

/-- `path::extension` of a file name. -/
def pathExtension (dot : α) (name : List α) : List α := (splitExtension dot name).2

end Path

/-- `/` and `\`. -/
def isPathSeparator (b : UInt8) : Bool := b == 47 || b == 92

/-- The length of the root name of a path: a drive (`C:`), a device prefix (`\\?`, `\\.`,
`\??` before a single separator) or a server (`\\name`). -/
def rootNameLength (path : ByteString) : Nat :=
  match path with
  | a :: b :: rest =>
      if (isUpper a || isLower a) && b == 58 then 2
      else if !isPathSeparator a then 0
      else
        match rest with
        | [] => 0
        | c :: rest =>
            if ((isPathSeparator b && (c == 63 || c == 46)) || (b == 63 && c == 63)) &&
                rest.head?.any isPathSeparator && !rest.tail.head?.any isPathSeparator then 3
            else if isPathSeparator b && !isPathSeparator c then
              3 + (rest.takeWhile fun x => !isPathSeparator x).length
            else 0
  | _ => 0

/-- `path::filename`: what follows the last separator after the root name. -/
def ByteString.filename (path : ByteString) : ByteString :=
  ((path.drop (rootNameLength path)).reverse.takeWhile fun c => !isPathSeparator c).reverse

/-- A literal is read without decoding it. -/
theorem ascii_ofList (l : List Char) :
    ascii (String.ofList l) = l.map fun c => UInt8.ofNat c.toNat := by
  rw [ascii, String.toList_ofList]

/-! ## Numbers as text -/

theorem decimal_digit {n : Nat} {b : UInt8} (h : b ∈ decimal n) : 48 ≤ b.toNat ∧ b.toNat ≤ 57 := by
  obtain ⟨c, hc, rfl⟩ := List.mem_map.mp h
  have hdigit := Nat.isDigit_of_mem_toDigits (by decide) (by decide) hc
  obtain ⟨hlow, hhigh⟩ := Char.isDigit_iff_toNat.mp hdigit
  rw [UInt8.toNat_ofNat']
  have hzero : '0'.toNat = 48 := rfl
  have hnine : '9'.toNat = 57 := rfl
  omega

theorem foldl_decimal (n : Nat) :
    (decimal n).foldl (fun acc d => acc * 10 + (d.toNat - 48)) 0 = n := by
  rw [decimal, List.foldl_map]
  refine Eq.trans (List.foldl_ext _ _ _ fun acc c hc => ?_) Nat.ofDigitChars_ten_toDigits
  have hdigit := Char.isDigit_iff_toNat.mp (Nat.isDigit_of_mem_toDigits (by decide) (by decide) hc)
  have hzero : '0'.toNat = 48 := rfl
  have hnine : '9'.toNat = 57 := rfl
  rw [UInt8.toNat_ofNat', hzero, Nat.mul_comm]
  omega

theorem decimal_ne_nil (n : Nat) : decimal n ≠ [] := by
  rw [decimal, ne_eq, List.map_eq_nil_iff]
  exact Nat.toDigits_ne_nil

/-- `std::stoull` reads the decimal digits of a number. -/
theorem stoull_decimal {n : Nat} (h : n < 2 ^ 64) : stoull (decimal n) = .ok n := by
  have hdigits : ∀ b ∈ decimal n, isDigit b = true := by
    intro b hb
    have hdigit := decimal_digit hb
    simp only [isDigit, Bool.and_eq_true, decide_eq_true_eq, UInt8.le_iff_toNat_le,
      UInt8.reduceToNat]
    omega
  obtain ⟨b, rest, hcons⟩ := List.exists_cons_of_ne_nil (decimal_ne_nil n)
  have hfirst := decimal_digit (n := n) (b := b) (by rw [hcons]; exact List.mem_cons_self ..)
  have hspace : (decimal n).dropWhile isSpace = decimal n := by
    rw [hcons, List.dropWhile_cons_of_neg]
    simp only [isSpace, Bool.or_eq_true, Bool.and_eq_true, beq_iff_eq, decide_eq_true_eq,
      UInt8.le_iff_toNat_le, UInt8.reduceToNat, ← UInt8.toNat_inj]
    omega
  have hsign : ∀ u : UInt8, u.toNat < 48 → ((decimal n).head? == some u) = false := by
    intro u hu
    rw [hcons, List.head?_cons, beq_eq_false_iff_ne, ne_eq, Option.some.injEq]
    rintro rfl
    omega
  have htake : (decimal n).takeWhile isDigit = decimal n := List.takeWhile_eq_self_iff.mpr hdigits
  have hempty : (decimal n).isEmpty = false := by rw [hcons]; rfl
  simp only [stoull, hspace, hsign 45 (by decide), hsign 43 (by decide), Bool.or_self,
    Bool.false_eq_true, if_false, htake, hempty, foldl_decimal, if_neg (Nat.not_le.mpr h)]

/-- Different numbers are written differently. -/
theorem decimal_injective : Function.Injective decimal := fun m n h => by
  rw [← foldl_decimal m, ← foldl_decimal n, h]

end LocalMediaTransfer
