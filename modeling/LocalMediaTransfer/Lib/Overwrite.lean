import Mathlib.Tactic

/-!
# Positional writes

`overwrite c off d` is the content of a file after `d` has been written at offset `off` of a
file with content `c`, without changing its size when the range lies inside the file.

* `take_overwrite_of_le` — bytes before the range are kept.
* `take_overwrite_end` — a write at the end of a prefix extends that prefix by exactly the data.
* `overwrite_overwrite` — adjacent writes compose.
-/

set_option autoImplicit false

namespace LocalMediaTransfer.Lib

variable {α : Type}

/-- Write `d` at offset `off`. -/
def overwrite (c : List α) (off : Nat) (d : List α) : List α :=
  c.take off ++ d ++ c.drop (off + d.length)

theorem length_overwrite {c d : List α} {off : Nat} (h : off + d.length ≤ c.length) :
    (overwrite c off d).length = c.length := by
  simp only [overwrite, List.length_append, List.length_take, List.length_drop]
  omega

theorem take_overwrite_of_le {c d : List α} {off k : Nat} (h : off + d.length ≤ c.length)
    (hk : k ≤ off) : (overwrite c off d).take k = c.take k := by
  have hlen : k ≤ (c.take off).length := by rw [List.length_take]; omega
  rw [overwrite, List.append_assoc, List.take_append_of_le_length hlen, List.take_take,
    Nat.min_eq_left hk]

theorem take_overwrite_end {c d : List α} {off : Nat} (h : off + d.length ≤ c.length) :
    (overwrite c off d).take (off + d.length) = c.take off ++ d := by
  have hlen : (c.take off ++ d).length = off + d.length := by
    rw [List.length_append, List.length_take]; omega
  rw [overwrite, ← hlen, List.take_left]

theorem overwrite_nil {c : List α} {off : Nat} : overwrite c off [] = c := by
  simp [overwrite]

/-- Two writes one after the other are one write of both. -/
theorem overwrite_overwrite {c d e : List α} {off : Nat} (h : off ≤ c.length) :
    overwrite (overwrite c off d) (off + d.length) e = overwrite c off (d ++ e) := by
  have hlen : (c.take off ++ d).length = off + d.length := by
    rw [List.length_append, List.length_take]; omega
  have htake : (overwrite c off d).take (off + d.length) = c.take off ++ d := by
    rw [overwrite, ← hlen, List.take_left]
  have hdrop : (overwrite c off d).drop (off + d.length + e.length) =
      c.drop (off + (d ++ e).length) := by
    have hskip : (overwrite c off d).drop (off + d.length) = c.drop (off + d.length) := by
      rw [overwrite, List.drop_left' hlen]
    rw [← List.drop_drop, hskip, List.drop_drop, List.length_append, Nat.add_assoc]
  rw [overwrite, htake, hdrop, overwrite, List.append_assoc (c.take off)]

end LocalMediaTransfer.Lib
