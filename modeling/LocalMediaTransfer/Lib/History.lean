import Mathlib.Tactic

/-!
# Histories

A history is a list of entries that only grows at its end.  Properties of runs are read off the
place where something happened in it.

* `split_unique` — an entry that carries a key used once stands in one place.
* `split_snoc` — the places in a history that has grown by one entry.
-/

set_option autoImplicit false

namespace LocalMediaTransfer.Lib

variable {α κ : Type} {f : α → Option κ} {log pre pre' post post' : List α} {e e' x : α} {k : κ}

theorem split_unique (hn : (log.filterMap f).Nodup) (h : log = pre ++ e :: post)
    (h' : log = pre' ++ e' :: post') (he : f e = some k) (he' : f e' = some k) :
    pre = pre' ∧ e = e' ∧ post = post' := by
  induction pre generalizing log pre' with
  | nil =>
    cases pre' with
    | nil =>
      rw [h] at h'
      cases h'
      exact ⟨rfl, rfl, rfl⟩
    | cons a pre' =>
      rw [h] at h' hn
      cases h'
      rw [List.nil_append, List.filterMap_cons_some he] at hn
      refine absurd (List.mem_filterMap.mpr ⟨e', ?_, he'⟩) (List.nodup_cons.mp hn).1
      exact List.mem_append_right _ (List.mem_cons_self ..)
  | cons a pre ih =>
    cases pre' with
    | nil =>
      rw [h'] at h hn
      cases h
      rw [List.nil_append, List.filterMap_cons_some he'] at hn
      refine absurd (List.mem_filterMap.mpr ⟨e, ?_, he⟩) (List.nodup_cons.mp hn).1
      exact List.mem_append_right _ (List.mem_cons_self ..)
    | cons b pre' =>
      rw [h] at h' hn
      simp only [List.cons_append, List.cons.injEq] at h'
      obtain ⟨rfl, h'⟩ := h'
      have hn' : ((pre ++ e :: post).filterMap f).Nodup := by
        cases ha : f a with
        | none => rwa [List.cons_append, List.filterMap_cons_none ha] at hn
        | some k' =>
          rw [List.cons_append, List.filterMap_cons_some ha] at hn
          exact (List.nodup_cons.mp hn).2
      obtain ⟨rfl, rfl, rfl⟩ := ih hn' rfl h'
      exact ⟨rfl, rfl, rfl⟩

/-- In a history that has grown by one entry, an entry stands where it stood, or it is the new
one. -/
theorem split_snoc (h : log ++ [x] = pre ++ e :: post) :
    (pre = log ∧ e = x ∧ post = []) ∨ ∃ post', post = post' ++ [x] ∧ log = pre ++ e :: post' := by
  rcases List.eq_nil_or_concat post with rfl | ⟨post', y, rfl⟩
  · obtain ⟨rfl, h'⟩ := List.append_inj' h (by simp)
    cases h'
    exact .inl ⟨rfl, rfl, rfl⟩
  · have h' : log ++ [x] = (pre ++ e :: post') ++ [y] := by
      rw [h]
      simp
    obtain ⟨hlog, hx⟩ := List.append_inj' h' (by simp)
    cases hx
    exact .inr ⟨post', by simp, hlog⟩

end LocalMediaTransfer.Lib
