import LocalMediaTransfer.Server.FileWriter.System
import LocalMediaTransfer.Server.ManagedName

/-!
# The startup cleanup and published files

The constructor of `FileWriter` removes the regular files of the destination whose names match
`isManagedTempFile`.  A published file is in danger when its name matches.

* `removeOrphans` — the cleanup loop of the constructor.
* `published_name` — a file is published under the sanitized name or a numbered form of it.
* `published_survives_cleanup` — **a published file outlives the next start, whatever the
  destination, the conflict policy and the faults, exactly when the client's name does not name a
  temporary file**.
-/

set_option autoImplicit false

namespace LocalMediaTransfer

open Lib

variable {cfg : WriterConfig} {w : Writer} {env : PublishEnv} {h : FileHandle}
  {temp : Option ByteString} {fullHash name : ByteString}

/-- The cleanup in the constructor; `removable` tells for which entries `fs::remove` works. -/
def removeOrphans (removable : DirEntry → Bool) (files : Table ByteString DirEntry) :
    Table ByteString DirEntry :=
  files.filter fun _ e => !(e.content.isSome && isManagedTempFile e.name && removable e)

/-! ## Published names -/

theorem publishTemporary_name {taken : ByteString}
    (hp : (w.publishTemporary cfg env temp taken).outcome = .done .saved name) : name = taken := by
  unfold Writer.publishTemporary at hp
  split at hp
  · cases hp
  · split at hp
    · cases hp
    · cases hp
      rfl

theorem makeNumberedFilename_name {files : Table ByteString DirEntry}
    {suffixes : Table ByteString Nat} {safeName : ByteString}
    (hp : (makeNumberedFilename cfg files suffixes env safeName).2 = .ok (some name)) :
    ∃ number, name = numberedCandidate ⟨cfg.ansiToWide, env.nameClock⟩ safeName number := by
  unfold makeNumberedFilename at hp
  simp only at hp
  split at hp
  · cases hp
  · cases hp
  · rename_i number _
    cases hp
    exact ⟨number, rfl⟩

theorem discard_not_saved {disposition : FileFinalizeDisposition} {taken : ByteString}
    (hne : disposition ≠ .saved)
    (hp : (w.discard env temp disposition taken).outcome = .done .saved name) : False := by
  unfold Writer.discard at hp
  split at hp <;> cases hp
  exact hne rfl

theorem resolveConflict_name {taken : ByteString}
    (hp : (w.resolveConflict cfg env temp taken).outcome = .done .saved name) :
    ∃ number, name = numberedCandidate ⟨cfg.ansiToWide, env.nameClock⟩ taken number := by
  unfold Writer.resolveConflict at hp
  split at hp
  · exact (discard_not_saved (by decide) hp).elim
  · simp only at hp
    split at hp
    · cases hp
    · cases hp
    · rename_i numbered hnumbered
      rw [publishTemporary_name hp]
      exact makeNumberedFilename_name hnumbered

/-- A file is published under the sanitized name or a numbered form of it. -/
theorem published_name (hp : (w.publish cfg env h temp fullHash).outcome = .done .saved name) :
    let nameEnv : NameEnv := ⟨cfg.ansiToWide, env.nameClock⟩
    name = makeFinalFilename nameEnv h.originalName ∨
      ∃ number, name = numberedCandidate nameEnv
        (makeFinalFilename nameEnv h.originalName) number := by
  unfold Writer.publish at hp
  simp only at hp
  split at hp
  · cases hp
  · split at hp
    · split at hp
      · exact (discard_not_saved (by decide) hp).elim
      · split at hp
        · cases hp
        · exact (discard_not_saved (by decide) hp).elim
        · exact .inr (resolveConflict_name hp)
    · split at hp
      · cases hp
      · exact (discard_not_saved (by decide) hp).elim
      · exact .inl (publishTemporary_name hp)

/-! ## The result -/

/-- Wherever a file with this original name is published, its name is no managed name and the
next start leaves it in the destination. -/
def SurvivesCleanup (cfg : WriterConfig) (clock : Nat) (original : ByteString) : Prop :=
  ∀ (w : Writer) (env : PublishEnv) (h : FileHandle) (temp : Option ByteString)
    (fullHash name : ByteString), env.nameClock = clock → h.originalName = original →
    (w.publish cfg env h temp fullHash).outcome = .done .saved name →
      isManagedTempFile name = false ∧ ∀ removable,
        findEntry cfg (removeOrphans removable (w.publish cfg env h temp fullHash).files) name =
          findEntry cfg (w.publish cfg env h temp fullHash).files name

/-- The entry of a published file. -/
theorem published_entry (hp : (w.publish cfg env h temp fullHash).outcome = .done .saved name) :
    ∃ bytes, findEntry cfg (w.publish cfg env h temp fullHash).files name =
      some ⟨name, some bytes⟩ := by
  have hspec := publish_cases cfg w env h temp fullHash
  generalize w.publish cfg env h temp fullHash = p at hspec hp
  cases hspec with
  | saved name' bytes outcome ready free files =>
    cases outcome.symm.trans hp
    refine ⟨bytes, ?_⟩
    rw [files]
    exact AList.lookup_insert _
  | duplicate _ outcome => cases outcome.symm.trans hp
  | nameConflict outcome => cases outcome.symm.trans hp
  | failed outcome =>
    rcases outcome with outcome | ⟨what, outcome⟩ <;> cases outcome.symm.trans hp

theorem findEntry_removeOrphans {removable : DirEntry → Bool} {files : Table ByteString DirEntry}
    {bytes : ByteString} (hf : findEntry cfg files name = some ⟨name, some bytes⟩) :
    findEntry cfg (removeOrphans removable files) name =
      if isManagedTempFile name && removable ⟨name, some bytes⟩ then none
      else some ⟨name, some bytes⟩ := by
  unfold findEntry removeOrphans at *
  rw [Table.lookup_filter, hf, Option.filter_some]
  simp only [Option.isSome_some, Bool.true_and]
  cases isManagedTempFile name <;> cases removable ⟨name, some bytes⟩ <;> rfl

/-- An upload into an empty destination is saved under the sanitized name. -/
theorem publish_empty (cfg : WriterConfig) (clock : Nat) (original bytes fullHash : ByteString) :
    ((Writer.init ∅).publish cfg { nameClock := clock } (InitArgs.handle
      ⟨[], original, 0, 0, false⟩ 0 true) (some bytes) fullHash).outcome =
      .done .saved (makeFinalFilename ⟨cfg.ansiToWide, clock⟩ original) := by
  simp [Writer.publish, Writer.init, findEntry, InitArgs.handle, Writer.publishTemporary]

/-- **A published file outlives the next start exactly when the client's name does not name a
temporary file.** -/
theorem published_survives_cleanup (cfg : WriterConfig) (clock : Nat) (original : ByteString) :
    SurvivesCleanup cfg clock original ↔ ¬NamesTemporary ⟨cfg.ansiToWide, clock⟩ original := by
  constructor
  · intro hsurvives hnames
    have hname := (hsurvives _ _ _ _ _ _ rfl rfl (publish_empty cfg clock original [] [])).1
    rw [managed_makeFinalFilename.mpr hnames] at hname
    cases hname
  · intro hnames w env h temp fullHash name hclock horiginal hp
    subst hclock horiginal
    have hname : isManagedTempFile name = false := by
      rcases published_name hp with rfl | ⟨number, rfl⟩
      · exact Bool.eq_false_iff.mpr fun hm => hnames (managed_makeFinalFilename.mp hm)
      · exact numberedCandidate_not_managed ..
    refine ⟨hname, fun removable => ?_⟩
    obtain ⟨bytes, hentry⟩ := published_entry hp
    rw [findEntry_removeOrphans hentry, hentry, hname]
    rfl

/-- A client may name its file like a temporary file of an older release: the file is published
under that name and removed at the next start. -/
theorem published_survives_cleanup_sampleIos :
    ∃ (env : PublishEnv) (h : FileHandle) (name bytes : ByteString),
      h.originalName = ascii ".ios-1234567890-1.tmp" ∧ ¬SurvivesCleanup (sampleConfig .keepBoth)
        env.nameClock h.originalName ∧
      ((Writer.init ∅).publish (sampleConfig .keepBoth) env h (some bytes) []).outcome =
        .done .saved name ∧
      isManagedTempFile name = true ∧
      findEntry (sampleConfig .keepBoth) (removeOrphans (fun _ => true)
        ((Writer.init ∅).publish (sampleConfig .keepBoth) env h (some bytes) []).files) name =
          none := by
  have hrun : ((Writer.init ∅).publish (sampleConfig .keepBoth) {} (InitArgs.handle
      ⟨[], ascii ".ios-1234567890-1.tmp", 0, 0, false⟩ 0 true) (some (ascii "a")) []).outcome =
      .done .saved (ascii ".ios-1234567890-1.tmp") := by
    decide +kernel
  have hmanaged : isManagedTempFile (ascii ".ios-1234567890-1.tmp") = true := by decide +kernel
  refine ⟨{}, _, _, _, rfl, fun hsurvives => ?_, hrun, hmanaged, ?_⟩
  · cases hmanaged.symm.trans (hsurvives _ _ _ _ _ _ rfl rfl hrun).1
  · obtain ⟨bytes, hentry⟩ := published_entry hrun
    rw [findEntry_removeOrphans hentry, hmanaged]
    rfl

end LocalMediaTransfer
