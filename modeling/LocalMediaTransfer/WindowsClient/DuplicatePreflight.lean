import LocalMediaTransfer.Lib.Grouping
import LocalMediaTransfer.Lib.Table
import LocalMediaTransfer.Server.ByteString

/-!
# The duplicate preflight of the Windows client

`NativeDuplicatePreflight.RunAsync`.  The two posts and the hashing of a file are parameters; `none`
stands for an exception, which ends the run.  A file is hashed by a bounded worker pool for which
every exception is fatal, so the hashes of all candidates arrive, or none is used.

* `runAsync` — the run.
* `recordSkips_spec`, `recordSkips_lookup` — which files it skips, and what it notes of them.
* `recordSkips_isSome` — when the verification goes through.
-/

set_option autoImplicit false

namespace LocalMediaTransfer.NativeDuplicatePreflight

open Lib

variable {S κ : Type} [DecidableEq κ]

/-- An item of the answer to `/upload/preflight/verify`. -/
structure VerifyItem (κ : Type) where
  id : κ
  /-- `action` is `skip`. -/
  skip : Bool
  filename : Option ByteString := none

/-- What a run leaves behind: the set it returns, the results it notes and how often it called
`terminal`. -/
structure Outcome (κ : Type) where
  skipped : List κ := []
  results : Table κ (Option ByteString) := ∅
  terminal : Nat := 0

variable (fileId : S → κ) (sources : List S)

/-- The IDs for which the receiver answered `hash_required`. -/
def candidates (initial : List (κ × Bool)) : List κ :=
  (initial.filter fun item => item.2).map (·.1)

def candidateSources (initial : List (κ × Bool)) : List S :=
  sources.filter fun file => fileId file ∈ candidates initial

/-- One item of the verification; `First` throws for an ID that no source has. -/
def recordSkip (outcome : Outcome κ) (item : VerifyItem κ) : Option (Outcome κ) :=
  if !item.skip then some outcome
  else if sources.any fun file => fileId file = item.id then
    some
      { skipped := setAdd outcome.skipped item.id
        results := outcome.results.insert item.id item.filename
        terminal := outcome.terminal + 1 }
  else none

/-- `verified`: the candidates with their hashes. -/
def hashSources (initial : List (κ × Bool)) (hash : S → Option ByteString) :
    Option (List (S × ByteString)) :=
  (candidateSources fileId sources initial).mapM fun file =>
    (hash file).map fun sha256 => (file, sha256)

/-- `RunAsync`: `initial` answers the metadata post, `hash` is the hash of a file and `verify`
answers the verification post. -/
def runAsync (initial : Option (List (κ × Bool))) (hash : S → Option ByteString)
    (verify : List (S × ByteString) → Option (List (VerifyItem κ))) : Option (Outcome κ) := do
  let initial ← initial
  if candidates initial = [] then some {}
  else
    let verified ← hashSources fileId sources initial hash
    let items ← verify verified
    items.foldlM (recordSkip fileId sources) {}

/-- An answer for every source picks the sources themselves when their IDs differ. -/
theorem candidateSources_map {fileId : S → κ} {sources : List S} {candidate : S → Bool}
    (hids : (sources.map fileId).Nodup) :
    candidateSources fileId sources (sources.map fun file => (fileId file, candidate file)) =
      sources.filter candidate := by
  refine List.filter_congr fun file hfile => ?_
  rw [Bool.eq_iff_iff, decide_eq_true_iff]
  simp only [candidates, List.mem_map, List.mem_filter]
  constructor
  · rintro ⟨item, ⟨⟨other, hother, rfl⟩, hcandidate⟩, hid⟩
    rwa [List.inj_on_of_nodup_map hids hother hfile hid] at hcandidate
  · intro hcandidate
    exact ⟨_, ⟨⟨file, hfile, rfl⟩, hcandidate⟩, rfl⟩

/-! ## The skipped files -/

variable {fileId sources} {items : List (VerifyItem κ)} {before after : Outcome κ}

/-- The skipped set, the results and the count of one verification; every skip has a source. -/
theorem recordSkips_spec (h : items.foldlM (recordSkip fileId sources) before = some after) :
    (∀ id, id ∈ after.skipped ↔
      id ∈ before.skipped ∨ ∃ item ∈ items, item.id = id ∧ item.skip = true) ∧
    (∀ id, (after.results.lookup id).isSome ↔
      (before.results.lookup id).isSome ∨ ∃ item ∈ items, item.id = id ∧ item.skip = true) ∧
    after.terminal = before.terminal + items.countP (·.skip) ∧
    ∀ item ∈ items, item.skip = true → ∃ file ∈ sources, fileId file = item.id := by
  induction items generalizing before with
  | nil =>
    cases h
    simp
  | cons item items ih =>
    rw [List.foldlM_cons] at h
    obtain ⟨next, hnext, hrest⟩ := Option.bind_eq_some_iff.mp h
    obtain ⟨hskipped, hresults, hterminal, hsources⟩ := ih hrest
    have hcons : ∀ id, (∃ other ∈ item :: items, other.id = id ∧ other.skip = true) ↔
        (id = item.id ∧ item.skip = true) ∨
          ∃ other ∈ items, other.id = id ∧ other.skip = true := by
      intro id
      rw [List.exists_mem_cons_iff, @eq_comm _ id item.id]
    simp only [hcons]
    unfold recordSkip at hnext
    split at hnext
    · rename_i hno
      have hskip : item.skip = false := by simpa using hno
      cases hnext
      refine ⟨fun id => ?_, fun id => ?_, ?_, fun other hother hskip' => ?_⟩
      · simp [hskipped, hskip]
      · simp [hresults, hskip]
      · simp [hterminal, hskip]
      · rcases List.mem_cons.mp hother with rfl | hother
        · rw [hskip] at hskip'
          cases hskip'
        · exact hsources other hother hskip'
    · rename_i hyes
      have hskip : item.skip = true := by simpa using hyes
      split at hnext
      · rename_i hany
        cases hnext
        obtain ⟨file, hfile, hid⟩ := List.any_eq_true.mp hany
        refine ⟨fun id => ?_, fun id => ?_, ?_, fun other hother hskip' => ?_⟩
        · rw [hskipped, mem_setAdd, or_assoc]
          simp [hskip]
        · rw [hresults]
          by_cases heq : id = item.id
          · subst heq
            simp [hskip]
          · simp [AList.lookup_insert_ne heq, heq]
        · rw [hterminal, List.countP_cons, if_pos hskip]
          exact Nat.add_right_comm ..
        · rcases List.mem_cons.mp hother with rfl | hother
          · exact ⟨file, hfile, of_decide_eq_true hid⟩
          · exact hsources other hother hskip'
      · cases hnext

theorem recordSkips_keeps {id : κ}
    (h : items.foldlM (recordSkip fileId sources) before = some after)
    (hid : id ∉ items.map (·.id)) : after.results.lookup id = before.results.lookup id := by
  induction items generalizing before with
  | nil =>
    cases h
    rfl
  | cons item items ih =>
    rw [List.map_cons, List.mem_cons, not_or] at hid
    rw [List.foldlM_cons] at h
    obtain ⟨next, hnext, hrest⟩ := Option.bind_eq_some_iff.mp h
    rw [ih hrest hid.2]
    unfold recordSkip at hnext
    split at hnext
    · cases hnext
      rfl
    · split at hnext
      · cases hnext
        exact AList.lookup_insert_ne hid.1
      · cases hnext

/-- The noted name of a skipped file, when the answer names every file once. -/
theorem recordSkips_lookup (h : items.foldlM (recordSkip fileId sources) before = some after)
    (hids : (items.map (·.id)).Nodup) :
    ∀ item ∈ items, item.skip = true → after.results.lookup item.id = some item.filename := by
  induction items generalizing before with
  | nil => exact List.forall_mem_nil _
  | cons item items ih =>
    rw [List.map_cons, List.nodup_cons] at hids
    rw [List.foldlM_cons] at h
    obtain ⟨next, hnext, hrest⟩ := Option.bind_eq_some_iff.mp h
    refine List.forall_mem_cons.mpr ⟨fun hskip => ?_, ih hrest hids.2⟩
    rw [recordSkips_keeps hrest hids.1]
    rw [recordSkip, hskip] at hnext
    split at hnext
    · contradiction
    · split at hnext
      · cases hnext
        exact AList.lookup_insert _
      · cases hnext

/-- The verification goes through when every skip has a source. -/
theorem recordSkips_isSome
    (h : ∀ item ∈ items, item.skip = true → ∃ file ∈ sources, fileId file = item.id)
    (before : Outcome κ) : ∃ after, items.foldlM (recordSkip fileId sources) before =
    some after := by
  refine foldlM_isSome (fun outcome item hitem => ?_) before
  unfold recordSkip
  split
  · rfl
  · rename_i hskip
    obtain ⟨file, hfile, hid⟩ := h item hitem (by simpa using hskip)
    have hany : (sources.any fun file => fileId file = item.id) = true :=
      List.any_eq_true.mpr ⟨file, hfile, decide_eq_true hid⟩
    rw [if_pos hany]
    rfl

end LocalMediaTransfer.NativeDuplicatePreflight
