import LocalMediaTransfer.Server.Inventory.HashEngine

/-!
# Directory reconciliation

What `reconcileDirectory` leaves of an inventory, on a directory at rest and with a failure at any
statement or at the end of the listing.  Each loop is a fold over the table of the transaction:
`reconcileFile` for an entry of the directory, the removal of a vanished name for a row.

* `reconcileDirectory_correct` — **success leaves the reconciled inventory, failure the old one**,
  and a second reconciliation changes nothing.
* `Reconciled.idempotent` — on inventories.
* `unsized_unrecorded` — a managed file whose size cannot be read gets no record.
-/

set_option autoImplicit false

namespace LocalMediaTransfer

namespace HashEngine

open Lib

/-- A managed regular file whose size can be read. -/
def Directory.Recorded (dir : Directory) (name : ByteString) (sizeBytes : Nat) : Prop :=
  name ∈ dir.entries ∧ (dir.file name).status = .regular ∧ isManagedName name = true ∧
    (dir.file name).size = some sizeBytes

/-- The name stands for nothing, or for something that is no regular file. -/
def Directory.Vanished (dir : Directory) (filename : ByteString) : Prop :=
  (dir.file filename.filename).status = .other ∨ (dir.file filename.filename).status = .notFound

instance (dir : Directory) (filename : ByteString) : Decidable (dir.Vanished filename) :=
  inferInstanceAs (Decidable (_ ∨ _))

/-- The two rows describe the file in the same size and at the same modification time. -/
def SameStamp (row : FileInventoryRecord) (sizeBytes : Nat) (modifiedTime : Int) : Prop :=
  row.sizeBytes = sizeBytes ∧ row.modifiedTime = modifiedTime

/-- What a successful reconciliation makes of an inventory. -/
structure Reconciled (dir : Directory) (files files' : Inventory) : Prop where
  /-- One row for every managed file of known size; hash and verification time stay exactly when
  size and modification time are unchanged. -/
  current : ∀ name sizeBytes, dir.Recorded name sizeBytes → ∃ row ∈ files',
    (∀ row' ∈ files', row'.filename = name → row' = row) ∧ row.filename = name ∧
    row.sizeBytes = sizeBytes ∧ row.modifiedTime = (dir.file name).modifiedTime ∧
    (∀ old ∈ files, old.filename = name → SameStamp old sizeBytes (dir.file name).modifiedTime →
      row.sha256 = old.sha256 ∧ row.verifiedAt = old.verifiedAt) ∧
    ((∀ old ∈ files, old.filename = name →
        ¬SameStamp old sizeBytes (dir.file name).modifiedTime) →
      row.sha256 = [] ∧ row.verifiedAt = 0)
  /-- Of the other rows those stay, unchanged, whose name has not vanished. -/
  others : ∀ row : FileInventoryRecord, (∀ sizeBytes, ¬dir.Recorded row.filename sizeBytes) →
    (row ∈ files' ↔ row ∈ files ∧ ¬dir.Vanished row.filename)

/-- Reconciling twice is reconciling once. -/
theorem Reconciled.idempotent {dir : Directory} {files t u : Inventory}
    (ht : Reconciled dir files t) (hu : Reconciled dir t u) : u = t := by
  refine SortedTable.ext_mem fun row => ?_
  by_cases hrecorded : ∃ sizeBytes, dir.Recorded row.filename sizeBytes
  · obtain ⟨sizeBytes, hrecorded⟩ := hrecorded
    obtain ⟨r, hr, honly, hname, hsize, htime, -⟩ := ht.current _ _ hrecorded
    obtain ⟨r', hr', honly', hname', hsize', htime', hkept, -⟩ := hu.current _ _ hrecorded
    obtain ⟨hsha, hverified⟩ := hkept r hr hname ⟨hsize, htime⟩
    have heq : r' = r := by
      obtain ⟨f, h, s, m, v⟩ := r
      obtain ⟨f', h', s', m', v'⟩ := r'
      simp only at hname hname' hsize hsize' htime htime' hsha hverified
      rw [hname, hname', hsize, hsize', htime, htime', hsha, hverified]
    constructor
    · intro h
      rw [honly' row h rfl, heq]
      exact hr
    · intro h
      rw [honly row h rfl, ← heq]
      exact hr'
  · have hnot : ∀ sizeBytes, ¬dir.Recorded row.filename sizeBytes :=
      fun sizeBytes h => hrecorded ⟨sizeBytes, h⟩
    rw [hu.others row hnot, ht.others row hnot]
    exact and_iff_left_of_imp fun h => h.2

/-! ## The directory loop -/

/-- The table after an entry of the directory. -/
def reconcileFile (dir : Directory) (files : Inventory) (name : ByteString) : Inventory :=
  if (dir.file name).status = .regular ∧ isManagedName name then
    match (dir.file name).size with
    | none => files
    | some sizeBytes => files.upsert
        (reconciledRecord name sizeBytes (dir.file name).modifiedTime (files.lookup name))
  else files

@[simp] theorem reconciledRecord_filename (filename : ByteString) (sizeBytes : Nat)
    (modifiedTime : Int) (known : Option FileInventoryRecord) :
    (reconciledRecord filename sizeBytes modifiedTime known).filename = filename := by
  unfold reconciledRecord
  cases known with
  | none => rfl
  | some row =>
    simp only
    split <;> rfl

theorem reconcileFile_cases (dir : Directory) (files : Inventory) {name : ByteString}
    (hname : name ∈ dir.entries) :
    (∃ sizeBytes, dir.Recorded name sizeBytes ∧ reconcileFile dir files name = files.upsert
      (reconciledRecord name sizeBytes (dir.file name).modifiedTime (files.lookup name))) ∨
    ((∀ sizeBytes, ¬dir.Recorded name sizeBytes) ∧ reconcileFile dir files name = files) := by
  unfold reconcileFile
  split
  · rename_i h
    cases hsize : (dir.file name).size with
    | none =>
      refine .inr ⟨fun sizeBytes hr => ?_, rfl⟩
      rw [hr.2.2.2] at hsize
      cases hsize
    | some sizeBytes => exact .inl ⟨sizeBytes, ⟨hname, h.1, h.2, hsize⟩, rfl⟩
  · rename_i h
    exact .inr ⟨fun sizeBytes hr => h ⟨hr.2.1, hr.2.2.1⟩, rfl⟩

/-- The rows of the other names are not touched. -/
theorem mem_reconcileFile {dir : Directory} {files : Inventory} {name : ByteString}
    {row : FileInventoryRecord} (hne : row.filename ≠ name) :
    row ∈ reconcileFile dir files name ↔ row ∈ files := by
  unfold reconcileFile
  split
  · split
    · exact Iff.rfl
    · rw [SortedTable.mem_upsert, reconciledRecord_filename]
      constructor
      · rintro (rfl | h)
        · exact absurd (reconciledRecord_filename ..) hne
        · exact h.1
      · exact fun h => .inr ⟨h, hne⟩
  · exact Iff.rfl

theorem lookup_congr {files files' : Inventory} {name : ByteString}
    (h : ∀ row : FileInventoryRecord, row.filename = name → (row ∈ files' ↔ row ∈ files)) :
    files'.lookup name = files.lookup name := by
  ext row
  rw [SortedTable.lookup_eq_some, SortedTable.lookup_eq_some]
  constructor
  · rintro ⟨hrow, hname⟩
    exact ⟨(h row hname).mp hrow, hname⟩
  · rintro ⟨hrow, hname⟩
    exact ⟨(h row hname).mpr hrow, hname⟩

/-- The table after the directory loop. -/
def reconcileFiles (dir : Directory) (files : Inventory) (names : List ByteString) : Inventory :=
  names.foldl (reconcileFile dir) files

theorem mem_reconcileFiles {dir : Directory} {row : FileInventoryRecord} :
    ∀ {names : List ByteString} {files : Inventory}, names.Nodup →
      (∀ name ∈ names, name ∈ dir.entries) →
      (row ∈ reconcileFiles dir files names ↔
        (∃ sizeBytes, row.filename ∈ names ∧ dir.Recorded row.filename sizeBytes ∧
          row = reconciledRecord row.filename sizeBytes (dir.file row.filename).modifiedTime
            (files.lookup row.filename)) ∨
        (row ∈ files ∧ ¬(row.filename ∈ names ∧ ∃ sizeBytes, dir.Recorded row.filename sizeBytes)))
  | [], files, _, _ => by simp [reconcileFiles]
  | name :: rest, files, hnodup, hentries => by
    obtain ⟨hfresh, hrest⟩ := List.nodup_cons.mp hnodup
    change row ∈ reconcileFiles dir (reconcileFile dir files name) rest ↔ _
    rw [mem_reconcileFiles hrest fun n hn => hentries n (List.mem_cons_of_mem _ hn)]
    by_cases heq : row.filename = name
    · subst heq
      have hnot : row.filename ∉ rest := hfresh
      rcases reconcileFile_cases dir files (hentries _ List.mem_cons_self) with
        ⟨sizeBytes, hrecorded, hfile⟩ | ⟨hnone, hfile⟩
      · rw [hfile, SortedTable.mem_upsert, reconciledRecord_filename]
        constructor
        · rintro (⟨_, h, -⟩ | ⟨h | h, -⟩)
          · exact absurd h hnot
          · exact .inl ⟨sizeBytes, List.mem_cons_self, hrecorded, h⟩
          · exact absurd rfl h.2
        · rintro (⟨size, -, hr, h⟩ | ⟨-, h⟩)
          · obtain rfl : size = sizeBytes :=
              Option.some.inj (hr.2.2.2.symm.trans hrecorded.2.2.2)
            exact .inr ⟨.inl h, fun hmem => hnot hmem.1⟩
          · exact absurd ⟨List.mem_cons_self, sizeBytes, hrecorded⟩ h
      · rw [hfile]
        constructor
        · rintro (⟨_, h, -⟩ | ⟨h, -⟩)
          · exact absurd h hnot
          · exact .inr ⟨h, fun hmem => hmem.2.elim fun size hr => hnone size hr⟩
        · rintro (⟨size, -, hr, -⟩ | ⟨h, -⟩)
          · exact absurd hr (hnone size)
          · exact .inr ⟨h, fun hmem => hnot hmem.1⟩
    · rw [mem_reconcileFile heq, lookup_congr fun r hr => mem_reconcileFile (hr ▸ heq)]
      simp only [List.mem_cons, heq, false_or]

/-! ## The table loop -/

/-- The table after the table loop. -/
def removeVanished (dir : Directory) (files : Inventory) (names : List ByteString) : Inventory :=
  names.foldl (fun t name => if dir.Vanished name then t.erase name else t) files

theorem mem_removeVanished {dir : Directory} {row : FileInventoryRecord} :
    ∀ {names : List ByteString} {files : Inventory},
      row ∈ removeVanished dir files names ↔
        row ∈ files ∧ ¬(row.filename ∈ names ∧ dir.Vanished row.filename)
  | [], files => by simp [removeVanished]
  | name :: rest, files => by
    change row ∈ removeVanished dir (if dir.Vanished name then files.erase name else files) rest ↔ _
    rw [mem_removeVanished]
    by_cases heq : row.filename = name
    · subst heq
      split
      · rename_i h
        simp [h]
      · rename_i h
        simp [h]
    · split <;> simp [heq]

/-- Both loops together reconcile. -/
theorem reconciled_of_loops (dir : Directory) (files : Inventory) {names : List ByteString}
    (hnames : ∀ row ∈ reconcileFiles dir files dir.entries, row.filename ∈ names) :
    Reconciled dir files (removeVanished dir (reconcileFiles dir files dir.entries) names) := by
  have hmem (row : FileInventoryRecord) :
      row ∈ removeVanished dir (reconcileFiles dir files dir.entries) names ↔
        row ∈ reconcileFiles dir files dir.entries ∧ ¬dir.Vanished row.filename := by
    rw [mem_removeVanished]
    exact and_congr_right fun h => by simp [hnames row h]
  constructor
  · intro name sizeBytes hrecorded
    have hkept : ¬dir.Vanished name := by
      obtain ⟨hentry, hregular, -⟩ := hrecorded
      simp [Directory.Vanished, (dir.component name hentry).2, hregular]
    have hrow : reconciledRecord name sizeBytes (dir.file name).modifiedTime (files.lookup name) ∈
        reconcileFiles dir files dir.entries :=
      (mem_reconcileFiles dir.nodup fun _ h => h).mpr (.inl ⟨sizeBytes, by
        simpa using ⟨hrecorded.1, hrecorded⟩⟩)
    refine ⟨_, (hmem _).mpr ⟨hrow, by simpa using hkept⟩, fun row' h' hname => ?_, by simp, ?_⟩
    · exact SortedTable.eq_of_key ((hmem _).mp h').1 hrow (by simpa using hname)
    · unfold reconciledRecord
      cases hl : files.lookup name with
      | none =>
        have hnone := SortedTable.lookup_eq_none.mp hl
        exact ⟨rfl, rfl, fun old ho hn => absurd hn (hnone old ho), fun _ => ⟨rfl, rfl⟩⟩
      | some row =>
        obtain ⟨hold, hn⟩ := SortedTable.lookup_eq_some.mp hl
        simp only
        split
        · rename_i hsame
          simp only [Bool.and_eq_true, beq_iff_eq] at hsame
          refine ⟨rfl, rfl, fun old ho hno _ => ?_, fun h => absurd hsame (h row hold hn)⟩
          rw [SortedTable.eq_of_key ho hold (hno.trans hn.symm)]
          exact ⟨rfl, rfl⟩
        · rename_i hother
          refine ⟨rfl, rfl, fun old ho hno hsame => absurd ?_ hother, fun _ => ⟨rfl, rfl⟩⟩
          obtain rfl := SortedTable.eq_of_key ho hold (hno.trans hn.symm)
          simpa [SameStamp] using hsame
  · intro row hnot
    rw [hmem, mem_reconcileFiles dir.nodup fun _ h => h]
    refine and_congr_left fun _ => ?_
    constructor
    · rintro (⟨size, -, hr, -⟩ | ⟨h, -⟩)
      · exact absurd hr (hnot size)
      · exact h
    · exact fun h => .inr ⟨h, fun hmem => hmem.2.elim hnot⟩

/-! ## The transaction -/

section Transaction

variable {sha256 : ByteString → ByteString} {dir : Directory} {d : Database}

/-- The committed table and the health stay; a step that succeeds leaves `working` in the
transaction. -/
def InTransaction (d : Database) (working : Inventory) (r : Option Unit) (d' : Database) : Prop :=
  d'.files = d.files ∧ d'.healthy = d.healthy ∧ (r = some () → d'.working = some working)

theorem reconcileEntry_spec {name : ByteString} {working : Inventory}
    (hworking : d.working = some working) :
    wp (Serves (dir.Answers sha256)) (reconcileEntry name).run
      (InTransaction d (reconcileFile dir working name)) d := by
  have hcurrent : d.current = working := by simp [Database.current, hworking]
  unfold reconcileEntry reconcileFile
  simp only [wp_run_bind, wp_run_lift, wp_fileStatus]
  refine serves_file (c := .status name) fun status hstatus => ?_
  obtain rfl : status = (dir.file name).status := hstatus
  split
  · simp only [wp_run_bind, wp_run_lift, wp_fileSize]
    refine serves_file (c := .fileSize .reconcile name) fun size hsize => ?_
    obtain rfl : size = (dir.file name).size := hsize
    cases (dir.file name).size with
    | none =>
      simp only [wp_run_pure]
      exact ⟨rfl, rfl, fun _ => hworking⟩
    | some sizeBytes =>
      simp only [wp_run_bind, wp_run_lift, wp_fileModifiedTime]
      refine serves_file (c := .lastWriteTime .reconcile name) fun modifiedTime hm => ?_
      obtain rfl : modifiedTime = (dir.file name).modifiedTime := hm
      simp only [wp_lookup]
      refine serves_db (c := .lookup name) fun fault => ?_
      cases fault with
      | true => exact ⟨rfl, rfl, fun h => by cases h⟩
      | false =>
        simp only [Database.serve, Bool.false_eq_true, if_false, wp_upsert, hcurrent]
        refine serves_db (c := .upsert _) fun fault => ?_
        cases fault with
        | true => exact ⟨rfl, rfl, fun h => by cases h⟩
        | false => simp [Database.serve, Database.modify, hworking, InTransaction]
  · simp only [wp_run_pure]
    exact ⟨rfl, rfl, fun _ => hworking⟩

theorem reconcileEntries_spec {names : List ByteString} {working : Inventory}
    (hworking : d.working = some working) :
    wp (Serves (dir.Answers sha256)) (reconcileEntries names).run
      (InTransaction d (reconcileFiles dir working names)) d := by
  induction names generalizing d working with
  | nil => exact ⟨rfl, rfl, fun _ => hworking⟩
  | cons name rest ih =>
    simp only [reconcileEntries, wp_run_bind]
    refine wp_mono (reconcileEntry_spec hworking) ?_
    rintro (_ | ⟨⟩) d' ⟨hfiles, hhealthy, hw⟩
    · exact ⟨hfiles, hhealthy, fun h => by cases h⟩
    · refine wp_mono (ih (hw rfl)) ?_
      rintro r d'' ⟨hfiles', hhealthy', hw'⟩
      exact ⟨hfiles'.trans hfiles, hhealthy'.trans hhealthy, hw'⟩

theorem reconcileRow_spec {name : ByteString} {working : Inventory}
    (hworking : d.working = some working) :
    wp (Serves (dir.Answers sha256)) (reconcileRow name).run
      (InTransaction d (if dir.Vanished name then working.erase name else working)) d := by
  unfold reconcileRow
  simp only [wp_run_bind, wp_nextName]
  refine serves_db (c := .nextName) fun fault => ?_
  cases fault with
  | true => exact ⟨rfl, rfl, fun h => by cases h⟩
  | false =>
    simp only [Database.serve, Bool.false_eq_true, if_false, wp_run_lift, wp_fileStatus]
    refine serves_file (c := .status name.filename) fun status hstatus => ?_
    obtain rfl : status = (dir.file name.filename).status := hstatus
    by_cases hv : dir.Vanished name
    · rw [if_pos hv, if_pos (show _ ∨ _ from hv)]
      simp only [wp_remove]
      refine serves_db (c := .remove name) fun fault => ?_
      cases fault with
      | true => exact ⟨rfl, rfl, fun h => by cases h⟩
      | false => simp [Database.serve, Database.modify, hworking, InTransaction]
    · rw [if_neg hv, if_neg (show ¬(_ ∨ _) from hv)]
      exact ⟨rfl, rfl, fun _ => hworking⟩

theorem reconcileRows_spec {names : List ByteString} {working : Inventory}
    (hworking : d.working = some working) :
    wp (Serves (dir.Answers sha256)) (reconcileRows names).run
      (InTransaction d (removeVanished dir working names)) d := by
  induction names generalizing d working with
  | nil =>
    simp only [reconcileRows, wp_nextName]
    exact serves_db (c := .nextName) fun fault => ⟨rfl, rfl, fun _ => hworking⟩
  | cons name rest ih =>
    simp only [reconcileRows, wp_run_bind]
    refine wp_mono (reconcileRow_spec hworking) ?_
    rintro (_ | ⟨⟩) d' ⟨hfiles, hhealthy, hw⟩
    · exact ⟨hfiles, hhealthy, fun h => by cases h⟩
    · refine wp_mono (ih (hw rfl)) ?_
      rintro r d'' ⟨hfiles', hhealthy', hw'⟩
      exact ⟨hfiles'.trans hfiles, hhealthy'.trans hhealthy, hw'⟩

theorem prepare_spec :
    wp (Serves (dir.Answers sha256)) prepare.run (fun _ d' => d' = d) d := by
  simp only [wp_prepare]
  exact serves_db (c := .prepare) fun fault => rfl

theorem reconcileTable_spec {working : Inventory} (hworking : d.working = some working) :
    wp (Serves (dir.Answers sha256)) reconcileTable.run
      (fun r d' => d'.healthy = d.healthy ∧
        (r = some () → d'.working = none ∧
          d'.files = removeVanished dir working (working.rows.map (·.filename))) ∧
        (r = none → d'.files = d.files)) d := by
  unfold reconcileTable
  simp only [wp_run_bind]
  refine wp_mono prepare_spec ?_
  rintro (_ | ⟨⟩) d₁ rfl
  · exact ⟨rfl, fun h => (by cases h), fun _ => rfl⟩
  refine wp_mono prepare_spec ?_
  rintro (_ | ⟨⟩) d₂ rfl
  · exact ⟨rfl, fun h => (by cases h), fun _ => rfl⟩
  simp only [wp_allNames]
  refine serves_db (c := .allNames) fun fault => ?_
  cases fault with
  | true => exact ⟨rfl, fun h => (by cases h), fun _ => rfl⟩
  | false =>
    simp only [Database.serve, Bool.false_eq_true, if_false, Database.current, hworking,
      Option.getD_some]
    refine wp_mono (reconcileRows_spec hworking) ?_
    rintro (_ | ⟨⟩) d₃ ⟨hfiles, hhealthy, hw⟩
    · exact ⟨hhealthy, fun h => (by cases h), fun _ => hfiles⟩
    · simp only [wp_commit]
      refine serves_db (c := .commit) fun fault => ?_
      cases fault with
      | true => exact ⟨hhealthy, fun h => (by cases h), fun _ => hfiles⟩
      | false =>
        refine ⟨hhealthy, fun _ => ⟨rfl, ?_⟩, fun h => by cases h⟩
        simp [Database.serve, Database.current, hw rfl]

theorem reconcileTransaction_spec :
    wp (Serves (dir.Answers sha256)) reconcileTransaction.run
      (fun r d' => d'.healthy = d.healthy ∧
        (r = some () → d'.working = none ∧ Reconciled dir d.files d'.files) ∧
        (r = none → d'.files = d.files)) d := by
  unfold reconcileTransaction
  simp only [wp_run_bind, wp_beginTransaction]
  refine serves_db (c := .begin) fun fault => ?_
  cases fault with
  | true => exact ⟨rfl, fun h => (by cases h), fun _ => rfl⟩
  | false =>
    refine wp_mono prepare_spec ?_
    rintro (_ | ⟨⟩) d₁ rfl
    · exact ⟨rfl, fun h => (by cases h), fun _ => rfl⟩
    refine wp_mono prepare_spec ?_
    rintro (_ | ⟨⟩) d₂ rfl
    · exact ⟨rfl, fun h => (by cases h), fun _ => rfl⟩
    simp only [wp_run_lift, wp_listDirectory]
    refine serves_file (c := .listDirectory) fun listing hlisting => ?_
    obtain rfl : listing = (dir.entries, dir.enumerationFails) := hlisting
    refine wp_mono (reconcileEntries_spec rfl) ?_
    rintro (_ | ⟨⟩) d₃ ⟨hfiles, hhealthy, hworking⟩
    · exact ⟨hhealthy, fun h => (by cases h), fun _ => hfiles⟩
    simp only
    split
    · exact ⟨hhealthy, fun h => (by cases h), fun _ => hfiles⟩
    · refine wp_mono (reconcileTable_spec (hworking rfl)) ?_
      rintro r d₄ ⟨hhealthy', hsome, hnone⟩
      refine ⟨hhealthy'.trans hhealthy, fun hr => ?_, fun hr => (hnone hr).trans hfiles⟩
      obtain ⟨hidle, heq⟩ := hsome hr
      refine ⟨hidle, ?_⟩
      rw [heq]
      exact reconciled_of_loops dir d.files fun row hrow => List.mem_map_of_mem hrow

theorem reconcileDirectory_spec (hidle : d.working = none) :
    wp (Serves (dir.Answers sha256)) reconcileDirectory
      (fun r d' => d'.working = none ∧
        (r = some () → d'.healthy = true ∧ Reconciled dir d.files d'.files) ∧
        (r = none → d'.healthy = false ∧ d'.files = d.files)) d := by
  unfold reconcileDirectory
  simp only [wp_bind, wp_requireHealthy]
  refine serves_db (c := .requireHealthy) fun fault => ?_
  cases hhealthy : d.healthy with
  | false =>
    simp only [Database.serve, hhealthy, Bool.false_eq_true, if_false, wp_pure]
    exact ⟨hidle, fun h => (by cases h), fun _ => ⟨trivial, trivial⟩⟩
  | true =>
    simp only [Database.serve, hhealthy, if_true, wp_bind]
    refine wp_mono reconcileTransaction_spec ?_
    rintro (_ | ⟨⟩) d' ⟨hh, hsome, hnone⟩
    · simp only [wp_bind, wp_rollback, wp_markUnhealthy, wp_pure]
      refine serves_db (c := .rollback) fun _ => ?_
      refine serves_db (c := .markUnhealthy) fun _ => ?_
      exact ⟨rfl, fun h => (by cases h), fun _ => ⟨rfl, hnone rfl⟩⟩
    · simp only [wp_pure]
      obtain ⟨hidle', hrec⟩ := hsome rfl
      exact ⟨hidle', fun _ => ⟨hh.trans hhealthy, hrec⟩, fun h => by cases h⟩

end Transaction

/-- **Reconciliation, whatever fails.**  On a directory at rest a call that succeeds leaves the
reconciled inventory, a call that fails, at any statement or at the end of the listing, leaves the
inventory as it was and the engine unhealthy, and a second successful call changes nothing. -/
theorem reconcileDirectory_correct (sha256 : ByteString → ByteString) (dir : Directory)
    (files : Inventory) (healthy : Bool) (events : List (Lib.Event InventoryCalls))
    (r : Option Unit)
    (d : Database)
    (hrun : Runs (Serves (dir.Answers sha256))
      ⟨files, none, healthy⟩ reconcileDirectory events r d) :
    (r = some () → Reconciled dir files d.files ∧ d.healthy = true) ∧
    (r = none → d.files = files ∧ d.healthy = false) ∧
    ∀ events' d', r = some () → Runs (Serves (dir.Answers sha256)) d reconcileDirectory events'
      (some ()) d' → d'.files = d.files := by
  obtain ⟨hidle, hsome, hnone⟩ := hrun.post (reconcileDirectory_spec rfl)
  refine ⟨fun hr => (hsome hr).symm, fun hr => (hnone hr).symm, fun events' d' hr hrun' => ?_⟩
  obtain ⟨-, hsome', -⟩ := hrun'.post (reconcileDirectory_spec hidle)
  exact (hsome hr).2.idempotent (hsome' rfl).2

/-- A directory with one file. -/
def singleFile (statFails : Bool) : Directory where
  entries := [ascii "a.jpg"]
  enumerationFails := false
  file _ := ⟨.regular, [1, 2, 3], statFails, 7, true⟩
  nodup := by decide
  component := by decide

/-- A directory that has gained a file and lost one. -/
def threeFiles (enumerationFails : Bool) : Directory where
  entries := [ascii "a.jpg", ascii "b.jpg", ascii "c.jpg"]
  enumerationFails
  file name :=
    if name = ascii "gone.jpg" then ⟨.notFound, [], false, 0, false⟩
    else ⟨.regular, [1, 2, 3], false, 7, true⟩
  nodup := by decide
  component := by decide

/-- What is recorded of it: one file is as it was, one has been written since. -/
def recordedFiles : Inventory :=
  ((SortedTable.empty.upsert ⟨ascii "b.jpg", [1], 3, 7, 5⟩).upsert
    ⟨ascii "c.jpg", [2], 3, 6, 5⟩).upsert ⟨ascii "gone.jpg", [3], 3, 7, 5⟩

/-- Rows that are added, kept, cleared and dropped; a second reconciliation that changes nothing; a
listing that ends with an error. -/
theorem reconcileDirectory_correct_new :
    (∃ events d events' d',
      Runs (Serves ((threeFiles false).Answers fun _ => [])) ⟨recordedFiles, none, true⟩
        reconcileDirectory events (some ()) d ∧
      Runs (Serves ((threeFiles false).Answers fun _ => [])) d reconcileDirectory
        events' (some ()) d' ∧
      Reconciled (threeFiles false) recordedFiles d.files ∧
      d.files.rows = [⟨ascii "a.jpg", [], 3, 7, 0⟩, ⟨ascii "b.jpg", [1], 3, 7, 5⟩,
        ⟨ascii "c.jpg", [], 3, 7, 0⟩] ∧
      d'.files = d.files) ∧
    ∃ events d, Runs (Serves ((threeFiles true).Answers fun _ => [])) ⟨recordedFiles, none, true⟩
        reconcileDirectory events none d ∧
      d.files = recordedFiles ∧ d.healthy = false := by
  constructor
  · obtain ⟨events, hrun⟩ := Runs.of_runWith ((threeFiles false).serves_reply fun _ => [])
      reconcileDirectory ⟨recordedFiles, none, true⟩
    obtain ⟨events', hagain⟩ := Runs.of_runWith ((threeFiles false).serves_reply fun _ => [])
      reconcileDirectory (runWith ((threeFiles false).reply fun _ => []) reconcileDirectory
        ⟨recordedFiles, none, true⟩).2
    have hr : (runWith ((threeFiles false).reply fun _ => []) reconcileDirectory
        ⟨recordedFiles, none, true⟩).1 = some () := by decide
    have hr' : (runWith ((threeFiles false).reply fun _ => []) reconcileDirectory
        (runWith ((threeFiles false).reply fun _ => []) reconcileDirectory
          ⟨recordedFiles, none, true⟩).2).1 = some () := by decide
    rw [hr] at hrun
    rw [hr'] at hagain
    obtain ⟨hsome, -, hsecond⟩ := reconcileDirectory_correct _ _ recordedFiles true events _ _ hrun
    exact ⟨events, _, events', _, hrun, hagain, (hsome rfl).1, by decide,
      hsecond events' _ rfl hagain⟩
  · obtain ⟨events, hrun⟩ := Runs.of_runWith ((threeFiles true).serves_reply fun _ => [])
      reconcileDirectory ⟨recordedFiles, none, true⟩
    have hr : (runWith ((threeFiles true).reply fun _ => []) reconcileDirectory
        ⟨recordedFiles, none, true⟩).1 = none := by decide
    rw [hr] at hrun
    exact ⟨events, _, hrun, (reconcileDirectory_correct _ _ recordedFiles true events _ _ hrun).2.1
      rfl⟩

/-- A managed regular file whose size cannot be read is left without a row by a call that
succeeds. -/
theorem unsized_unrecorded :
    ∃ events d, Runs (Serves ((singleFile true).Answers fun _ => []))
      ⟨SortedTable.empty, none, true⟩ reconcileDirectory events (some ()) d ∧
      ascii "a.jpg" ∈ (singleFile true).entries ∧
      ((singleFile true).file (ascii "a.jpg")).status = .regular ∧
      isManagedName (ascii "a.jpg") = true ∧ ∀ row ∈ d.files, row.filename ≠ ascii "a.jpg" := by
  obtain ⟨events, hrun⟩ := Runs.of_runWith ((singleFile true).serves_reply fun _ => [])
    reconcileDirectory ⟨SortedTable.empty, none, true⟩
  have hr : (runWith ((singleFile true).reply fun _ => []) reconcileDirectory
      ⟨SortedTable.empty, none, true⟩).1 = some () ∧
      (runWith ((singleFile true).reply fun _ => []) reconcileDirectory
      ⟨SortedTable.empty, none, true⟩).2.files.rows = [] := by decide
  rw [hr.1] at hrun
  refine ⟨events, _, hrun, by decide, rfl, by decide, fun row hrow => ?_⟩
  rw [SortedTable.mem_def, hr.2] at hrow
  cases hrow

end HashEngine

end LocalMediaTransfer
