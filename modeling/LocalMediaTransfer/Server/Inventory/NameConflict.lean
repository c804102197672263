import LocalMediaTransfer.Server.Inventory.PreflightSearch

/-!
# Name-conflict answers of preflight verification

`verifyPreflight` raises `sameNameConflict` before the file of the requested name is hashed, unless
the record it looks through carries the requested hash; the record built for the exact name never
does.  A file of the requested size that then cannot be hashed, or changes meanwhile, is answered
as a conflict.

* `verifyPreflight_conflict` — **exactly when the answer is justified**, for every directory,
  inventory and pattern of failures.
* `conflict_unread` — a file that cannot be read is answered as a conflict.
-/

set_option autoImplicit false

namespace LocalMediaTransfer

namespace Preflight

open Lib HashEngine

/-- The look shows that the file of the requested name is another one: its size is different, or
its hash was computed and is different. -/
def Look.justifies (look : Look) (q : PreflightQuery) : Prop :=
  look.filename = q.safeName ∧ match look.verdict with
    | .otherSize => True
    | .hashed _ hash => hash ≠ q.sha256
    | _ => False

/-- The look found the file of the requested name in the requested size, and no hash could be
computed, or the file changed meanwhile. -/
def Look.leavesOpen (look : Look) (q : PreflightQuery) : Prop :=
  look.filename = q.safeName ∧ look.failed = true

/-- A conflict is answered on evidence only; when nothing but failed looks is known of the file of
the requested name, and no file matches, the answer is that nothing could be concluded. -/
structure ConflictJustified (q : PreflightQuery) (looks : List Look) (result : PreflightResult) :
    Prop where
  conflict : result.disposition = .uploadNameConflict → ∃ look ∈ looks, look.justifies q
  inconclusive : (∃ look ∈ looks, look.leavesOpen q) → (∀ look ∈ looks, ¬look.justifies q) →
    (∀ look ∈ looks, look.matched q = false) → result.disposition = .inconclusive

/-- A file matches, or the file of the requested name is known to be another one, or every failed
look at it went through a record with the requested hash. -/
def NothingLeftOpen (q : PreflightQuery) (looks : List Look) : Prop :=
  (∃ look ∈ looks, look.matched q = true) ∨ (∃ look ∈ looks, look.justifies q) ∨
    ∀ look ∈ looks, look.leavesOpen q → look.storedHash = q.sha256

/-- What raises the flag. -/
theorem conflicts_cases {look : Look} {q : PreflightQuery} (hunmatched : look.matched q = false)
    (h : look.conflicts q = true) :
    look.justifies q ∨ (look.leavesOpen q ∧ look.storedHash ≠ q.sha256) := by
  obtain ⟨filename, storedHash, sizeBytes, verdict⟩ := look
  simp only [Look.conflicts, Bool.and_eq_true, beq_iff_eq] at h
  obtain ⟨hname, h⟩ := h
  cases verdict with
  | otherSize => exact .inl ⟨hname, trivial⟩
  | settled => cases h
  | unreadable => exact .inr ⟨⟨hname, rfl⟩, by simpa using h⟩
  | changed => exact .inr ⟨⟨hname, rfl⟩, by simpa using h⟩
  | hashed modifiedTime hash => exact .inl ⟨hname, by simpa [Look.matched] using hunmatched⟩

theorem conflicts_of_open {look : Look} {q : PreflightQuery} (h : look.leavesOpen q)
    (hstored : look.storedHash ≠ q.sha256) : look.conflicts q = true := by
  obtain ⟨filename, storedHash, sizeBytes, verdict⟩ := look
  obtain ⟨hname, hfailed⟩ := h
  cases verdict with
  | unreadable => simpa [Look.conflicts] using ⟨hname, hstored⟩
  | changed => simpa [Look.conflicts] using ⟨hname, hstored⟩
  | _ => cases hfailed

theorem answer_conflict_iff {q : PreflightQuery} {scan : Scan} :
    (q.answer scan).disposition = .uploadNameConflict ↔ scan.sameNameConflict = true := by
  unfold PreflightQuery.answer
  cases scan.sameNameConflict <;> cases scan.inconclusive <;> simp

theorem answer_inconclusive {q : PreflightQuery} {scan : Scan}
    (hconflict : scan.sameNameConflict = false) (h : scan.inconclusive = true) :
    (q.answer scan).disposition = .inconclusive := by
  simp [PreflightQuery.answer, hconflict, h]

/-- After a call without a match the flag is up exactly when a look raised it. -/
theorem ResultSpec.justified_iff {q : PreflightQuery} {hashCache : Option PreflightHashCache}
    {result : PreflightResult} {scan : Scan} {events : List (Lib.Event InventoryCalls)}
    (h : ResultSpec q hashCache result scan events) :
    ConflictJustified q scan.looks result ↔ NothingLeftOpen q scan.looks := by
  obtain ⟨hkept, ⟨hskip, look, hlook, hmatched, -⟩ | ⟨hunmatched, rfl⟩⟩ := h
  · refine iff_of_true ⟨fun h => ?_, fun _ _ h => ?_⟩ (.inl ⟨look, hlook, hmatched⟩)
    · rw [hskip] at h
      cases h
    · rw [h look hlook] at hmatched
      cases hmatched
  · constructor
    · intro h
      by_cases hjustified : ∃ look ∈ scan.looks, look.justifies q
      · exact .inr (.inl hjustified)
      · refine .inr (.inr fun look hlook hopen => ?_)
        by_contra hstored
        refine hjustified (h.conflict (answer_conflict_iff.mpr ?_))
        rw [hkept.conflict]
        exact List.any_eq_true.mpr ⟨look, hlook, conflicts_of_open hopen hstored⟩
    · intro h
      have hraised : scan.sameNameConflict = true → ∃ look ∈ scan.looks, look.justifies q := by
        intro hflag
        rw [hkept.conflict] at hflag
        obtain ⟨look, hlook, hc⟩ := List.any_eq_true.mp hflag
        rcases conflicts_cases (hunmatched look hlook) hc with hj | ⟨hopen, hstored⟩
        · exact ⟨look, hlook, hj⟩
        · rcases h with ⟨look', hlook', hm⟩ | hj | hall
          · rw [hunmatched look' hlook'] at hm
            cases hm
          · exact hj
          · exact absurd (hall look hlook hopen) hstored
      refine ⟨fun hc => hraised (answer_conflict_iff.mp hc), ?_⟩
      rintro ⟨look, hlook, hopen⟩ hnone -
      refine answer_inconclusive ?_ ?_
      · rw [Bool.eq_false_iff]
        intro hflag
        obtain ⟨look', hlook', hj⟩ := hraised hflag
        exact hnone look' hlook' hj
      · rw [hkept.inconclusive]
        exact List.any_eq_true.mpr ⟨look, hlook, hopen.2⟩

/-- **When name-conflict answers are justified.**  The looks are what the destination answered, and
the answer is justified by them exactly when no failed look at the file of the requested name is
left open. -/
theorem verifyPreflight_conflict (env : NameEnv) (fuel : Nat) (originalName hash : ByteString)
    (sizeBytes : Nat) (hashCache : Option PreflightHashCache) (files : Inventory)
    (answers : (c : FileCall) → c.Answer → Prop) (events : List (Lib.Event InventoryCalls))
    (result : PreflightResult) (scan : Scan) (d' : Database) (hsha : hash.length = 64)
    (hrun : Runs (Serves answers) (.of files)
      (verifyPreflight fuel env originalName sizeBytes hash hashCache) events
      (some (result, scan)) d') :
    (∀ look ∈ scan.looks,
      look.Shown ⟨makeFinalFilename env originalName, sizeBytes, hash⟩ hashCache events) ∧
    (ConflictJustified ⟨makeFinalFilename env originalName, sizeBytes, hash⟩ scan.looks result ↔
      NothingLeftOpen ⟨makeFinalFilename env originalName, sizeBytes, hash⟩ scan.looks) := by
  obtain ⟨-, hres⟩ := (hrun.traced []).post (verifyPreflight_spec rfl hsha)
  have hspec := hres result scan rfl
  exact ⟨hspec.kept.shown, hspec.justified_iff⟩

/-- The only file has the requested name and size and cannot be opened. -/
def lockedDirectory : Directory where
  entries := [ascii "a.jpg"]
  enumerationFails := false
  file _ := ⟨.regular, [1, 2, 3], false, 7, false⟩
  nodup := photo_nodup
  component := photo_component

/-- A call that the directory answers, with its looks. -/
theorem run_of_looks (dir : Directory) (fuel sizeBytes : Nat) (files : Inventory)
    (originalName : ByteString) (result : PreflightResult) (looks : List Look)
    (h : (runWith (dir.reply fun _ => photoHash)
      (verifyPreflight fuel ⟨fun _ => [], 0⟩ originalName sizeBytes photoHash none)
      (.of files)).1.map (fun r => (r.1, r.2.looks)) = some (result, looks)) :
    ∃ events scan d', Runs (Serves (dir.Answers fun _ => photoHash)) (.of files)
      (verifyPreflight fuel ⟨fun _ => [], 0⟩ originalName sizeBytes photoHash none) events
      (some (result, scan)) d' ∧ scan.looks = looks := by
  obtain ⟨events, hrun⟩ := Runs.of_runWith (dir.serves_reply fun _ => photoHash)
    (verifyPreflight fuel ⟨fun _ => [], 0⟩ originalName sizeBytes photoHash none) (.of files)
  obtain ⟨⟨_, scan⟩, hr, heq⟩ := Option.map_eq_some_iff.mp h
  rw [hr] at hrun
  simp only [Prod.mk.injEq] at heq
  obtain ⟨rfl, hlooks⟩ := heq
  exact ⟨events, scan, _, hrun, hlooks⟩

/-- A file of another size is a conflict rightly answered; about one that cannot be opened something
is left open. -/
theorem verifyPreflight_conflict_photo :
    (∃ events result scan d', Runs (Serves (photoDirectory.Answers fun _ => photoHash))
      (.of photoInventory)
      (verifyPreflight 6 ⟨fun _ => [], 0⟩ (ascii "a.jpg") 4 photoHash none) events
      (some (result, scan)) d' ∧ result.disposition = .uploadNameConflict ∧
      ConflictJustified ⟨ascii "a.jpg", 4, photoHash⟩ scan.looks result) ∧
    ∃ events result scan d', Runs (Serves (lockedDirectory.Answers fun _ => photoHash))
      (.of SortedTable.empty)
      (verifyPreflight 4 ⟨fun _ => [], 0⟩ (ascii "a.jpg") 3 photoHash none) events
      (some (result, scan)) d' ∧
        (∃ look ∈ scan.looks, look.leavesOpen ⟨ascii "a.jpg", 3, photoHash⟩) ∧
      ¬ConflictJustified ⟨ascii "a.jpg", 3, photoHash⟩ scan.looks result := by
  have hname : makeFinalFilename ⟨fun _ => [], 0⟩ (ascii "a.jpg") =
    ascii "a.jpg" := by decide +kernel
  constructor
  · obtain ⟨events, scan, d', hrun, hlooks⟩ :=
      run_of_looks photoDirectory 6 4 photoInventory (ascii "a.jpg")
      ⟨.uploadNameConflict, ascii "a.jpg"⟩ (List.replicate 2 ⟨ascii "a.jpg", [], 3, .otherSize⟩)
      (by decide +kernel)
    have hjustified := (verifyPreflight_conflict ⟨fun _ => [], 0⟩ 6 (ascii "a.jpg") photoHash 4 none
      photoInventory _ events _ scan d' (by decide) hrun).2
    rw [hname] at hjustified
    refine ⟨events, _, scan, d', hrun, rfl, hjustified.mpr (.inr (.inl ?_))⟩
    rw [hlooks]
    exact ⟨_, List.mem_cons_self, rfl, trivial⟩
  · obtain ⟨events, scan, d', hrun, hlooks⟩ :=
      run_of_looks lockedDirectory 4 3 SortedTable.empty (ascii "a.jpg")
      ⟨.uploadNameConflict, ascii "a.jpg"⟩ [⟨ascii "a.jpg", [], 3, .unreadable⟩] (by decide +kernel)
    have hjustified := (verifyPreflight_conflict ⟨fun _ => [], 0⟩ 4 (ascii "a.jpg") photoHash 3 none
      SortedTable.empty _ events _ scan d' (by decide) hrun).2
    rw [hname] at hjustified
    have hopen : ∃ look ∈ scan.looks, look.leavesOpen ⟨ascii "a.jpg", 3, photoHash⟩ := by
      rw [hlooks]
      exact ⟨_, List.mem_singleton_self _, rfl, rfl⟩
    refine ⟨events, _, scan, d', hrun, hopen, fun h => ?_⟩
    rcases hjustified.mp h with ⟨look, hlook, hmatched⟩ | ⟨look, hlook, -, hj⟩ | hall
    · rw [hlooks] at hlook
      obtain rfl := List.mem_singleton.mp hlook
      cases hmatched
    · rw [hlooks] at hlook
      obtain rfl := List.mem_singleton.mp hlook
      exact hj
    · obtain ⟨look, hlook, hleft⟩ := hopen
      have hstored := hall look hlook hleft
      rw [hlooks] at hlook
      obtain rfl := List.mem_singleton.mp hlook
      exact absurd hstored (by decide)

/-! ## A file that cannot be read -/

/-- A file of the requested name and size that cannot be read is answered as a conflict. -/
theorem conflict_unread :
    ∃ events result scan d', Runs (Serves (lockedDirectory.Answers fun _ => photoHash))
      (.of SortedTable.empty)
      (verifyPreflight 4 ⟨fun _ => [], 0⟩ (ascii "a.jpg") 3 photoHash none) events
      (some (result, scan)) d' ∧ result.disposition = .uploadNameConflict ∧
      ¬ConflictJustified ⟨ascii "a.jpg", 3, photoHash⟩ scan.looks result := by
  obtain ⟨events, scan, d', hrun, hlooks⟩ :=
    run_of_looks lockedDirectory 4 3 SortedTable.empty (ascii "a.jpg")
    ⟨.uploadNameConflict, ascii "a.jpg"⟩ [⟨ascii "a.jpg", [], 3, .unreadable⟩] (by decide +kernel)
  refine ⟨events, _, scan, d', hrun, rfl, fun h => ?_⟩
  obtain ⟨look, hlook, hname, hj⟩ := h.conflict rfl
  rw [hlooks] at hlook
  obtain rfl := List.mem_singleton.mp hlook
  exact hj

end Preflight

end LocalMediaTransfer
