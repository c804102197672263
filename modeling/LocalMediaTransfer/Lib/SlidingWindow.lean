import Mathlib.Tactic

/-!
# Sliding windows over a sorted sequence

Elements arrive in the order of their times.  A window keeps those later than a cutoff that only
grows; whoever maintains it drops elements from the front and never looks at the rest.

* `expire_eq_recent` — in a sorted list, dropping from the front leaves exactly the later elements.
* `expire_recent_append` — **a window that is expired again after an arrival is the window of the
  whole sequence**.
-/

set_option autoImplicit false

namespace LocalMediaTransfer.Lib

variable {α K : Type} [LinearOrder K] (time : α → K)

/-- The elements later than the cutoff. -/
def recent (cutoff : K) (l : List α) : List α := l.filter fun a => cutoff < time a

/-- Drop elements from the front up to the first one that is later than the cutoff. -/
def expire (cutoff : K) (l : List α) : List α := l.dropWhile fun a => time a ≤ cutoff

/-- The elements that arrive in the order of their times. -/
def InOrder (l : List α) : Prop := l.Pairwise fun a b => time a ≤ time b

variable {time} {cutoff : K} {l : List α} {a : α}

theorem expire_eq_recent (h : InOrder time l) : expire time cutoff l = recent time cutoff l := by
  induction l with
  | nil => rfl
  | cons a l ih =>
    obtain ⟨hfirst, hrest⟩ := List.pairwise_cons.mp h
    by_cases ha : time a ≤ cutoff
    · rw [expire, List.dropWhile_cons_of_pos (by simpa using ha), ← expire,
        ih hrest, recent, recent,
        List.filter_cons_of_neg (by simpa using ha)]
    · have hall : ∀ b ∈ a :: l, cutoff < time b := by
        intro b hb
        rcases List.mem_cons.mp hb with rfl | hb
        · exact not_le.mp ha
        · exact (not_le.mp ha).trans_le (hfirst b hb)
      rw [expire, List.dropWhile_cons_of_neg (by simpa using ha), recent,
        List.filter_eq_self.mpr (by simpa using hall)]

theorem recent_recent {later : K} (h : cutoff ≤ later) :
    recent time later (recent time cutoff l) = recent time later l := by
  rw [recent, recent, recent, List.filter_filter]
  refine List.filter_congr fun b _ => ?_
  simp only [Bool.and_eq_left_iff_imp, decide_eq_true_eq]
  exact h.trans_lt

/-- Expiring a window after an arrival gives the window of the whole sequence. -/
theorem expire_recent_append {later : K} (horder : InOrder time (l ++ [a])) (h : cutoff ≤ later) :
    expire time later (recent time cutoff l ++ [a]) = recent time later (l ++ [a]) := by
  have hsub : (recent time cutoff l ++ [a]).Sublist (l ++ [a]) :=
    List.filter_sublist.append_right [a]
  rw [expire_eq_recent (horder.sublist hsub)]
  simp only [recent, List.filter_append]
  exact congrArg (· ++ _) (recent_recent h)

end LocalMediaTransfer.Lib
