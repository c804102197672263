import Mathlib.Tactic
import LocalMediaTransfer.Ios.Transfer.TransferController

/-!
# Totals after a fatal error

Updates are keyed by item, the sweep of a fatal error walks the assets.  The totals agree when the
two kinds of IDs do, and with variant IDs they never do once an update has been reported.

* `Balanced` — totals against rows, kept by updates and by the sweep.
* `markAssets_spec` — what the sweep does to each ID.
* `fatal_totals` — exactly when the totals after a fatal error are right.
-/

set_option autoImplicit false

namespace LocalMediaTransfer

open Lib

/-! ## The updates of a transfer -/

/-- What `UploadManager` reports: items of the selected assets, none of them under the ID of another
asset, and nothing about an item after its terminal update. -/
structure Produced (assets : List SelectedAsset) (updates : List FileStatusUpdate) : Prop where
  known : ∀ u ∈ updates, ∃ a ∈ assets, a.id = u.assetId
  named : ∀ u ∈ updates, ∀ a ∈ assets, u.statusId = a.id → u.assetId = a.id
  ended : updates.Pairwise fun u v => u.statusId = v.statusId → u.status.isTerminal = false

/-- The item of an ID has ended. -/
def Ended (updates : List FileStatusUpdate) (id : String) : Prop :=
  ∃ u ∈ updates, u.statusId = id ∧ u.status.isTerminal = true

/-- The asset has a terminal item. -/
def HasTerminalItem (updates : List FileStatusUpdate) (assetId : String) : Prop :=
  ∃ u ∈ updates, u.assetId = assetId ∧ u.status.isTerminal = true

/-- The asset has an item that runs, or none that was started. -/
def HasUnfinishedItem (updates : List FileStatusUpdate) (assetId : String) : Prop :=
  (∀ u ∈ updates, u.assetId ≠ assetId) ∨
    ∃ u ∈ updates, u.assetId = assetId ∧ ¬ Ended updates u.statusId

namespace TransferScreen

/-- The sweep turned the status of this ID into an error; each such turn adds one to `failed`. -/
def CountedFailed (before after : TransferScreen) (id : String) : Prop :=
  isDone (before.statusById.get? id) = false ∧ after.statusById.get? id = some .error

/-- The totals of the screen after a fatal error are right. -/
structure FatalTotals (updates : List FileStatusUpdate) (before after : TransferScreen) : Prop where
  counted_once : ∀ a ∈ before.assets, HasTerminalItem updates a.id →
    ¬ CountedFailed before after a.id
  answered : ∀ a ∈ before.assets, HasUnfinishedItem updates a.id →
    ∃ row ∈ after.resultList, row.assetId = some a.id ∧ row.status.isTerminal = true
  balanced : after.summary.sum = after.resultList.length
  distinct : (after.resultList.map (·.id)).Nodup

/-- Every asset with a terminal item has one under its own ID, and every unfinished item has the
ID of an asset. -/
def AssetsAreItems (assets : List SelectedAsset) (updates : List FileStatusUpdate) : Prop :=
  (∀ a ∈ assets, HasTerminalItem updates a.id → Ended updates a.id) ∧
    ∀ u ∈ updates, ¬ Ended updates u.statusId → ∃ a ∈ assets, a.id = u.statusId

/-! ## Totals against rows -/

theorem sum_add (totals : TransferTotals) (status : FileStatus) :
    (totals.add status).sum = totals.sum + status.isTerminal.toNat := by
  cases status <;> simp [TransferTotals.add, TransferTotals.sum, FileStatus.isTerminal] <;> omega

/-- Rows and statuses have the same IDs, and all terminal rows but the last `n` are counted. -/
structure Balanced (s : TransferScreen) (n : Nat) : Prop where
  rows : ∀ id, (s.resultById.get? id).map (·.status) = s.statusById.get? id
  ids : ∀ id row, s.resultById.get? id = some row → row.id = id
  total : s.summaryRef.sum + n = s.resultById.entries.countP fun e => e.2.status.isTerminal

theorem Balanced.start (assets : List SelectedAsset) : Balanced (start assets) 0 where
  rows _ := rfl
  ids _ _ h := by cases h
  total := rfl

variable {s : TransferScreen} {n : Nat}

theorem Balanced.isDone_row (h : Balanced s n) (id : String) :
    isDone (s.statusById.get? id) = (s.resultById.get? id).any (·.status.isTerminal) := by
  rw [← h.rows id]
  unfold isDone
  cases s.resultById.get? id <;> rfl

/-- Set one row and its status together. -/
theorem Balanced.set (h : Balanced s n) {t : TransferScreen} (row : FileState) {k : Nat}
    (hstatus : t.statusById = s.statusById.set row.id row.status)
    (hresult : t.resultById = s.resultById.set row.id row)
    (htotal : t.summaryRef.sum + k + (isDone (s.statusById.get? row.id)).toNat =
      s.summaryRef.sum + n + row.status.isTerminal.toNat) : Balanced t k := by
  refine ⟨fun id => ?_, fun id row' hrow => ?_, ?_⟩
  · rw [hstatus, hresult, LinkedMap.get?_set, LinkedMap.get?_set]
    split
    · rfl
    · exact h.rows id
  · rw [hresult, LinkedMap.get?_set] at hrow
    split at hrow
    · rename_i hid
      cases hrow
      exact hid.symm
    · exact h.ids id row' hrow
  · have hcount := LinkedMap.countP_set (fun e => e.2.status.isTerminal) s.resultById row.id row
    have hdone := h.isDone_row row.id
    have htot := h.total
    rw [hresult]
    cases hold : s.resultById.get? row.id with
    | none =>
      simp only [hold, Option.elim_none, Option.any_none] at hcount hdone
      rw [hdone, Bool.toNat_false] at htotal
      omega
    | some old =>
      simp only [hold, Option.elim_some, Option.any_some] at hcount hdone
      rw [hdone] at htotal
      omega

/-- The screen still follows the transfer. -/
def Live (s : TransferScreen) (assets : List SelectedAsset) : Prop :=
  s.active = true ∧ s.finished = false ∧ s.assets = assets

theorem updateFileStatus_live {assets : List SelectedAsset} (h : Live s assets)
    (update : FileStatusUpdate) : Live (s.updateFileStatus update) assets := by
  obtain ⟨hactive, hfinished, hassets⟩ := h
  unfold updateFileStatus
  simp [Live, hactive, hfinished, hassets]

theorem Balanced.update (h : Balanced s 0) {assets : List SelectedAsset} (hlive : Live s assets)
    {update : FileStatusUpdate}
    (hopen : isDone (s.statusById.get? update.statusId) = false) :
    Balanced (s.updateFileStatus update) 0 := by
  obtain ⟨hactive, hfinished, -⟩ := hlive
  unfold updateFileStatus
  rw [hactive, hfinished]
  refine h.set (s.rowOf update) rfl rfl ?_
  have hdone : isDone (s.statusById.get? (s.rowOf update).id) = false := hopen
  rw [hdone]
  simp only [hopen, rowOf]
  cases hterminal : update.status.isTerminal
  · simp
  · simp [sum_add, hterminal]

/-- The screen after `updates`. -/
structure Follows (assets : List SelectedAsset) (updates : List FileStatusUpdate)
    (s : TransferScreen) : Prop where
  live : Live s assets
  balanced : Balanced s 0
  seen : ∀ id, (s.statusById.get? id).isSome = true ↔ ∃ u ∈ updates, u.statusId = id
  done : ∀ id, isDone (s.statusById.get? id) = true ↔ Ended updates id
  own : ∀ id row, s.resultById.get? id = some row →
    ∃ u ∈ updates, u.statusId = id ∧ row.assetId = some u.assetId

theorem Follows.update {assets : List SelectedAsset} {updates : List FileStatusUpdate}
    (h : Follows assets updates s) {update : FileStatusUpdate}
    (hended : ¬ Ended updates update.statusId) :
    Follows assets (updates ++ [update]) (s.updateFileStatus update) := by
  have hopen : isDone (s.statusById.get? update.statusId) = false := by
    rw [← Bool.not_eq_true, h.done]
    exact hended
  have hstatus : (s.updateFileStatus update).statusById =
      s.statusById.set update.statusId update.status := by
    simp [updateFileStatus, h.live.1, h.live.2.1]
  have hresult : (s.updateFileStatus update).resultById =
      s.resultById.set update.statusId (s.rowOf update) := by
    simp [updateFileStatus, h.live.1, h.live.2.1]
  refine ⟨updateFileStatus_live h.live update, h.balanced.update h.live hopen, fun id => ?_,
    fun id => ?_, fun id row hrow => ?_⟩
  · rw [hstatus, LinkedMap.get?_set]
    by_cases hid : id = update.statusId
    · subst hid
      simp
    · rw [if_neg hid, h.seen]
      simp [Ne.symm hid]
  · rw [hstatus, LinkedMap.get?_set]
    by_cases hid : id = update.statusId
    · subst hid
      rw [if_pos rfl]
      constructor
      · intro hdone
        exact ⟨update, by simp, rfl, hdone⟩
      · rintro ⟨u, hu, hid, hterminal⟩
        rcases List.mem_append.mp hu with hu | hu
        · exact absurd ⟨u, hu, hid, hterminal⟩ hended
        · rw [List.mem_singleton.mp hu] at hterminal
          exact hterminal
    · rw [if_neg hid, h.done]
      constructor
      · rintro ⟨u, hu, hfacts⟩
        exact ⟨u, List.mem_append_left _ hu, hfacts⟩
      · rintro ⟨u, hu, hid', hterminal⟩
        rcases List.mem_append.mp hu with hu | hu
        · exact ⟨u, hu, hid', hterminal⟩
        · rw [List.mem_singleton.mp hu] at hid'
          exact absurd hid'.symm hid
  · rw [hresult, LinkedMap.get?_set] at hrow
    split at hrow
    · rename_i hid
      cases hrow
      exact ⟨update, by simp, hid.symm, rfl⟩
    · obtain ⟨u, hu, hfacts⟩ := h.own id row hrow
      exact ⟨u, List.mem_append_left _ hu, hfacts⟩

/-- **While updates come in, totals and rows agree.** -/
theorem follows_play (assets : List SelectedAsset) {updates : List FileStatusUpdate}
    (hended : updates.Pairwise fun u v => u.statusId = v.statusId → u.status.isTerminal = false) :
    Follows assets updates ((start assets).play updates) := by
  induction updates using List.reverseRecOn with
  | nil =>
    refine ⟨⟨rfl, rfl, rfl⟩, Balanced.start assets, fun id => ?_, fun id => ?_, fun id row h => ?_⟩
    · simp [play, start]
    · simp [play, start, isDone, Ended]
    · cases h
  | append_singleton updates update ih =>
    rw [List.pairwise_append] at hended
    obtain ⟨hbefore, -, hlast⟩ := hended
    have hplay : (start assets).play (updates ++ [update]) =
        ((start assets).play updates).updateFileStatus update := List.foldl_concat ..
    rw [hplay]
    refine (ih hbefore).update ?_
    rintro ⟨u, hu, hid, hterminal⟩
    have hopen := hlast u hu update (List.mem_singleton_self update) hid
    rw [hopen] at hterminal
    cases hterminal

/-! ## The sweep -/

/-- What the sweep leaves behind. -/
structure Marked (assets : List SelectedAsset) (s t : TransferScreen) : Prop where
  status : ∀ id, t.statusById.get? id =
    if id ∈ assets.map (·.id) ∧ isDone (s.statusById.get? id) = false then some .error
    else s.statusById.get? id
  kept : ∀ id, isDone (s.statusById.get? id) = true ∨ id ∉ assets.map (·.id) →
    t.resultById.get? id = s.resultById.get? id
  failed : ∀ a ∈ assets, isDone (s.statusById.get? a.id) = false →
    ∃ row, t.resultById.get? a.id = some row ∧ row.assetId = some a.id ∧ row.status = .error
  live : t.active = s.active ∧ t.finished = s.finished ∧ t.assets = s.assets

/-- One round of the loop on an asset without a terminal status. -/
def markAsset (s : TransferScreen) (asset : SelectedAsset) (message : String) : TransferScreen :=
  { s with
    statusById := s.statusById.set asset.id .error
    resultById := s.resultById.set asset.id (s.failedRow asset message)
    recentFilesRef := remember (s.failedRow asset message) s.recentFilesRef }

theorem markAssets_cons_done {message : String} {asset : SelectedAsset} {rest : List SelectedAsset}
    (h : isDone (s.statusById.get? asset.id) = true) :
    markAssets message (asset :: rest) s n = markAssets message rest s n := by
  simp [markAssets, h]

theorem markAssets_cons_open {message : String} {asset : SelectedAsset} {rest : List SelectedAsset}
    (h : isDone (s.statusById.get? asset.id) = false) :
    markAssets message (asset :: rest) s n =
      markAssets message rest (s.markAsset asset message) (n + 1) := by
  simp [markAssets, h, markAsset]

theorem Balanced.markAsset (h : Balanced s n) {asset : SelectedAsset} (message : String)
    (hopen : isDone (s.statusById.get? asset.id) = false) :
    Balanced (s.markAsset asset message) (n + 1) := by
  refine h.set (s.failedRow asset message) rfl rfl ?_
  have hdone : isDone (s.statusById.get? (s.failedRow asset message).id) = false := hopen
  rw [hdone]
  have hterminal : (s.failedRow asset message).status.isTerminal = true := rfl
  rw [hterminal]
  simp only [TransferScreen.markAsset, Bool.toNat_false, Bool.toNat_true]
  omega

theorem status_markAsset (asset : SelectedAsset) (message id : String) :
    (s.markAsset asset message).statusById.get? id =
      if id = asset.id then some .error else s.statusById.get? id :=
  LinkedMap.get?_set ..

/-- **The sweep fails every asset without a terminal status of its own, and counts it.** -/
theorem markAssets_spec (message : String) (assets : List SelectedAsset) (h : Balanced s n) :
    Marked assets s (markAssets message assets s n).1 ∧
      Balanced (markAssets message assets s n).1 (markAssets message assets s n).2 := by
  induction assets generalizing s n with
  | nil =>
    refine ⟨⟨fun id => ?_, fun id _ => rfl, fun a ha => ?_, rfl, rfl, rfl⟩, h⟩
    · simp [markAssets]
    · cases ha
  | cons asset rest ih =>
    cases hdone : isDone (s.statusById.get? asset.id) with
    | true =>
      rw [markAssets_cons_done hdone]
      obtain ⟨hmarked, hbalanced⟩ := ih h
      refine ⟨⟨fun id => ?_, fun id hid => ?_, fun a ha hopen => ?_, hmarked.live⟩, hbalanced⟩
      · rw [hmarked.status id]
        by_cases hid : id = asset.id
        · subst hid
          simp [hdone]
        · simp [hid]
      · refine hmarked.kept id (hid.imp_right fun hmem hrest => hmem ?_)
        rw [List.map_cons]
        exact List.mem_cons_of_mem _ hrest
      · rcases List.mem_cons.mp ha with rfl | ha
        · rw [hdone] at hopen
          cases hopen
        · exact hmarked.failed a ha hopen
    | false =>
      rw [markAssets_cons_open hdone]
      obtain ⟨hmarked, hbalanced⟩ := ih (h.markAsset message hdone)
      have hstatus := status_markAsset (s := s) asset message
      have hfailed : isDone ((s.markAsset asset message).statusById.get? asset.id) = true := by
        rw [hstatus, if_pos rfl]
        rfl
      refine ⟨⟨fun id => ?_, fun id hid => ?_, fun a ha hopen => ?_, hmarked.live⟩, hbalanced⟩
      · rw [hmarked.status id]
        by_cases hid : id = asset.id
        · subst hid
          simp [hdone, hstatus]
        · simp [hstatus, hid]
      · have hne : id ≠ asset.id := by
          rintro rfl
          rcases hid with hid | hid
          · rw [hdone] at hid
            cases hid
          · exact hid (by simp)
        have hkept := hmarked.kept id
        rw [hstatus, if_neg hne] at hkept
        rw [hkept (hid.imp_right fun hmem hrest => hmem ?_)]
        · exact LinkedMap.get?_set_ne _ hne _
        · rw [List.map_cons]
          exact List.mem_cons_of_mem _ hrest
      · by_cases hid : a.id = asset.id
        · refine ⟨s.failedRow asset message, ?_, congrArg some hid.symm, rfl⟩
          rw [hmarked.kept a.id (Or.inl (hid ▸ hfailed)), hid]
          exact LinkedMap.get?_set_self ..
        · rcases List.mem_cons.mp ha with rfl | ha
          · exact absurd rfl hid
          · refine hmarked.failed a ha ?_
            rw [hstatus, if_neg hid]
            exact hopen

theorem markUnfinishedAsFailed_spec (message : String) (h : Balanced s 0) :
    Marked s.assets s (s.markUnfinishedAsFailed message) ∧
      Balanced (s.markUnfinishedAsFailed message) 0 := by
  obtain ⟨hmarked, hrows, hids, htotal⟩ := markAssets_spec message s.assets h
  unfold markUnfinishedAsFailed
  rcases hmark : markAssets message s.assets s 0 with ⟨marked, newlyFailed⟩
  rw [hmark] at hmarked hrows hids htotal
  dsimp only at hmarked hrows hids htotal ⊢
  split
  · refine ⟨⟨hmarked.status, hmarked.kept, hmarked.failed, hmarked.live⟩, hrows, hids, ?_⟩
    rw [← htotal]
    simp only [TransferTotals.sum]
    omega
  · rename_i hnone
    refine ⟨hmarked, hrows, hids, ?_⟩
    omega

/-! ## The totals that are shown -/

/-- What a fatal error shows is what the sweep left. -/
theorem reportFatalError_spec {assets : List SelectedAsset} (h : Live s assets) (hb : Balanced s 0)
    (error : Option String) (uploadSummary : Option UploadSummary) :
    ∃ marked, Marked assets s marked ∧ Balanced marked 0 ∧
      (s.reportFatalError error uploadSummary).statusById = marked.statusById ∧
      (s.reportFatalError error uploadSummary).summary = marked.summaryRef ∧
      (s.reportFatalError error uploadSummary).resultList = marked.resultById.values := by
  obtain ⟨hactive, hfinished, rfl⟩ := h
  obtain ⟨hmarked, hbalanced⟩ := markUnfinishedAsFailed_spec
    (orElse (some (error.getD TransferText.unknownError)) TransferText.unfinishedFileError) hb
  refine ⟨_, hmarked, hbalanced, ?_⟩
  have hmactive := hmarked.live.1.trans hactive
  have hmfinished := hmarked.live.2.1.trans hfinished
  unfold reportFatalError
  simp [hactive, hfinished, finish, flushUi, hmactive, hmfinished]

theorem Balanced.balanced_iff (h : Balanced s 0) :
    s.summaryRef.sum = s.resultById.values.length ↔
      ∀ id status, s.statusById.get? id = some status → status.isTerminal = true := by
  have htotal : s.summaryRef.sum = s.resultById.entries.countP fun e => e.2.status.isTerminal :=
    h.total
  unfold LinkedMap.values
  rw [htotal, List.length_map, List.countP_eq_length]
  constructor
  · intro hall id status hstatus
    rw [← h.rows id, Option.map_eq_some_iff] at hstatus
    obtain ⟨row, hrow, rfl⟩ := hstatus
    exact hall (id, row) (LinkedMap.get?_eq_some_iff.mp hrow)
  · rintro hall ⟨id, row⟩ hmem
    have hrow := LinkedMap.get?_eq_some_iff.mpr hmem
    refine hall id row.status ?_
    rw [← h.rows id, hrow]
    rfl

theorem Balanced.distinct (h : Balanced s n) : (s.resultById.values.map (·.id)).Nodup := by
  have hkeys : s.resultById.values.map (·.id) = s.resultById.entries.map Prod.fst := by
    unfold LinkedMap.values
    rw [List.map_map]
    refine List.map_congr_left ?_
    rintro ⟨id, row⟩ hmem
    exact h.ids id row (LinkedMap.get?_eq_some_iff.mpr hmem)
  rw [hkeys]
  exact s.resultById.nodup

/-- The iff for any screen that has followed the updates. -/
theorem Follows.fatalTotals_iff {assets : List SelectedAsset} {updates : List FileStatusUpdate}
    (h : Follows assets updates s) (hproduced : Produced assets updates) (error : Option String)
    (uploadSummary : Option UploadSummary) :
    FatalTotals updates s (s.reportFatalError error uploadSummary) ↔
      AssetsAreItems assets updates := by
  obtain ⟨marked, hmarked, hbalanced, hstatus, hsummary, hlist⟩ :=
    reportFatalError_spec h.live h.balanced error uploadSummary
  have hassets : s.assets = assets := h.live.2.2
  constructor
  · rintro ⟨honce, -, htotal, -⟩
    refine ⟨fun a ha hterminal => ?_, fun u hu hended => ?_⟩
    · by_contra hopen
      rw [← h.done, Bool.not_eq_true] at hopen
      refine honce a (hassets ▸ ha) hterminal ⟨hopen, ?_⟩
      rw [hstatus, hmarked.status, if_pos ⟨List.mem_map_of_mem ha, hopen⟩]
    · by_contra hno
      rw [← h.done, Bool.not_eq_true] at hended
      rw [hsummary, hlist, hbalanced.balanced_iff] at htotal
      obtain ⟨status, hs⟩ := Option.isSome_iff_exists.mp ((h.seen u.statusId).mpr ⟨u, hu, rfl⟩)
      have hkept : marked.statusById.get? u.statusId = some status := by
        rw [hmarked.status, if_neg, hs]
        rintro ⟨hmem, -⟩
        obtain ⟨a, ha, hid⟩ := List.mem_map.mp hmem
        exact hno ⟨a, ha, hid⟩
      have hterminal := htotal _ _ hkept
      rw [hs] at hended
      simp [isDone, hterminal] at hended
  · rintro ⟨hterminal, hunfinished⟩
    refine ⟨fun a ha hitem hcounted => ?_, fun a ha _ => ?_, ?_, ?_⟩
    · have hdone := (h.done a.id).mpr (hterminal a (hassets ▸ ha) hitem)
      rw [hcounted.1] at hdone
      cases hdone
    · rw [hassets] at ha
      rw [hlist]
      cases hdone : isDone (s.statusById.get? a.id) with
      | false =>
        obtain ⟨row, hrow, hid, hfailed⟩ := hmarked.failed a ha hdone
        exact ⟨row, LinkedMap.mem_values.mpr ⟨a.id, hrow⟩, hid, by rw [hfailed]; rfl⟩
      | true =>
        -- the row of an item that has the ID of the asset
        have hkept := hmarked.kept a.id (Or.inl hdone)
        rw [h.balanced.isDone_row] at hdone
        cases hrow : s.resultById.get? a.id with
        | none =>
          rw [hrow] at hdone
          cases hdone
        | some row =>
          rw [hrow] at hdone
          obtain ⟨u, hu, hid, hasset⟩ := h.own a.id row hrow
          rw [hproduced.named u hu a ha hid] at hasset
          exact ⟨row, LinkedMap.mem_values.mpr ⟨a.id, hkept.trans hrow⟩, hasset, hdone⟩
    · rw [hsummary, hlist, hbalanced.balanced_iff]
      intro id status hs
      rw [hmarked.status] at hs
      split at hs
      · cases hs
        rfl
      · rename_i hno
        by_contra hopen
        obtain ⟨u, hu, rfl⟩ := (h.seen id).mp (by rw [hs]; rfl)
        have hdone : isDone (s.statusById.get? u.statusId) = false := by
          rw [hs, ← Bool.not_eq_true]
          exact hopen
        obtain ⟨a, ha, hid⟩ := hunfinished u hu (by rw [← h.done, hdone]; exact Bool.false_ne_true)
        exact hno ⟨List.mem_map.mpr ⟨a, ha, hid⟩, hdone⟩
    · rw [hlist]
      exact hbalanced.distinct

/-- **The totals after a fatal error are right exactly when the IDs of items and of assets agree**;
with variant IDs, only when no update was reported. -/
theorem fatal_totals (assets : List SelectedAsset) (updates : List FileStatusUpdate)
    (hproduced : Produced assets updates) (error : Option String)
    (uploadSummary : Option UploadSummary) :
    (FatalTotals updates ((start assets).play updates)
        (((start assets).play updates).reportFatalError error uploadSummary) ↔
      AssetsAreItems assets updates) ∧
    ((∀ u ∈ updates, ∀ a ∈ assets, u.statusId ≠ a.id) →
      (FatalTotals updates ((start assets).play updates)
          (((start assets).play updates).reportFatalError error uploadSummary) ↔
        updates = [])) := by
  have hiff := (follows_play assets hproduced.ended).fatalTotals_iff hproduced error uploadSummary
  refine ⟨hiff, fun hvariants => hiff.trans ⟨fun hitems => ?_, fun hnone => ?_⟩⟩
  · by_contra hsome
    obtain ⟨u, hu⟩ := List.exists_mem_of_ne_nil updates hsome
    by_cases hended : Ended updates u.statusId
    · obtain ⟨v, hv, -, hterminal⟩ := hended
      obtain ⟨a, ha, hid⟩ := hproduced.known v hv
      obtain ⟨w, hw, hwid, -⟩ := hitems.1 a ha ⟨v, hv, hid.symm, hterminal⟩
      exact hvariants w hw a ha hwid
    · obtain ⟨a, ha, hid⟩ := hitems.2 u hu hended
      exact hvariants u hu a ha hid.symm
  · subst hnone
    refine ⟨fun a _ hterminal => ?_, fun u hu => ?_⟩
    · obtain ⟨u, hu, -⟩ := hterminal
      cases hu
    · cases hu

/-- A photo whose only component was saved before the fatal error. -/
theorem fatal_totals_counted_twice :
    let asset : SelectedAsset :=
      { id := "A/L0/001", filename := "IMG_1.HEIC", uri := "ph://A", type := .photo }
    let update (status : FileStatus) : FileStatusUpdate :=
      { assetId := asset.id, itemId := some "v1", status, transferFilename := "IMG_1.HEIC" }
    let updates := [update .uploading, update .success]
    let before := (start [asset]).play updates
    Produced [asset] updates ∧
      ¬ FatalTotals updates before (before.reportFatalError (some "offline") none) ∧
      (before.reportFatalError (some "offline") none).summary =
        { success := 1, skipped := 0, failed := 1 } := by
  intro asset update updates before
  refine ⟨⟨?_, ?_, ?_⟩, fun htotals => ?_, by decide⟩
  · simp [updates, update]
  · simp [updates, update]
  · simp [updates, update, FileStatus.isTerminal]
  · refine htotals.counted_once asset (by decide) ⟨update .success, ?_, rfl, rfl⟩
      ⟨by decide, by decide⟩
    simp [updates]

theorem fatal_totals_saved :
    let asset : SelectedAsset :=
      { id := "A/L0/001", filename := "IMG_1.HEIC", uri := "ph://A", type := .photo }
    let updates : List FileStatusUpdate :=
      [{ assetId := asset.id, itemId := none, status :=
        .success, transferFilename := "IMG_1.HEIC" }]
    let before := (start [asset]).play updates
    FatalTotals updates before (before.reportFatalError none none) := by
  intro asset updates before
  refine (fatal_totals [asset] updates ⟨?_, ?_, ?_⟩ none none).1.mpr ⟨?_, ?_⟩
  · simp [updates]
  · simp [updates]
  · simp [updates]
  · intro a ha _
    rw [List.mem_singleton.mp ha]
    exact ⟨_, List.mem_singleton_self _, rfl, rfl⟩
  · intro u hu hended
    exact absurd ⟨u, hu, rfl, by rw [List.mem_singleton.mp hu]; rfl⟩ hended

end TransferScreen

end LocalMediaTransfer
