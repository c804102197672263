import LocalMediaTransfer.Server.Http.PreflightRoutes
import LocalMediaTransfer.WindowsClient.DuplicatePreflight
import LocalMediaTransfer.WindowsClient.ManifestAgreement

/-!
# The duplicate preflight between sender and receiver

The Windows sender posts the manifest, hashes the candidates and posts their hashes; it skips the
files that the receiver says to skip.  The receiver marks these files terminal while it answers, so
the two sides have to agree about them also when the sender gives up in the middle.

IDs are ASCII, and the sender compares them as the bytes that travel.

* `run_eq_some_iff` — how a run returns.
* `marked_eq`, `duplicate_of_marked` — what the receiver marks.
* `manifestOf_markAll` — its manifest after the calls of a request.
* `preflight_agreement` — when a run returns, and that both sides then know the same files as done.
-/

set_option autoImplicit false

namespace LocalMediaTransfer

/-- What the two requests of a run meet, whether the replies reach the sender, and the SHA-256 of
the contents of a file. -/
structure PreflightExchange where
  metadata : PreflightRoute.Request Bool
  metadataDelivered : Bool
  verify : PreflightRoute.Request Preflight.PreflightResult
  verifyDelivered : Bool
  digest : TransferSource → Option { bytes : ByteString // bytes.length = 32 }

namespace PreflightExchange

open Lib

def fileId (file : TransferSource) : ByteString := wideToUtf8 file.fileId

/-- An entry of the first request, as the receiver reads it. -/
def entry (file : TransferSource) : PreflightRoute.Entry where
  id := fileId file
  name := wideToUtf8 file.name
  size := file.sizeBytes.toNat

/-- An entry of the second request. -/
def hashedEntry (verified : TransferSource × ByteString) : PreflightRoute.Entry :=
  { entry verified.1 with sha256 := verified.2 }

/-- `ReadJsonAsync` throws when the status is no success. -/
def accepted {ι : Type} (delivered : Bool) (reply : PreflightRoute.Reply ι) : Option (List ι) :=
  if delivered = true ∧ reply.status = 200 then some reply.files else none

def verifyItem (file : PreflightRoute.VerifiedFile) :
    NativeDuplicatePreflight.VerifyItem ByteString where
  id := file.id
  skip := file.disposition == .skip
  filename := some file.filename

variable (p : PreflightExchange) (sources : List TransferSource)

def hash (file : TransferSource) : Option ByteString :=
  (p.digest file).map fun digest => toHex digest.1

def metadataReply : PreflightRoute.Reply (ByteString × Bool) :=
  PreflightRoute.handle PreflightRoute.metadataRoute p.metadata (sources.map entry)

def verifyReply (verified : List (TransferSource × ByteString)) :
    PreflightRoute.Reply PreflightRoute.VerifiedFile :=
  PreflightRoute.handle (PreflightRoute.verifyRoute true) p.verify (verified.map hashedEntry)

/-- `RunAsync` against the two routes. -/
def run : Option (NativeDuplicatePreflight.Outcome ByteString) :=
  NativeDuplicatePreflight.runAsync fileId sources
    (accepted p.metadataDelivered (p.metadataReply sources)) p.hash
    fun verified => (accepted p.verifyDelivered (p.verifyReply verified)).map (·.map verifyItem)

/-- What the run posts to the second route, if it gets there. -/
def posted : Option (List (TransferSource × ByteString)) :=
  (accepted p.metadataDelivered (p.metadataReply sources)).bind fun initial =>
    if NativeDuplicatePreflight.candidates initial = [] then none
    else NativeDuplicatePreflight.hashSources fileId sources initial p.hash

/-- The files that the receiver marks terminal. -/
def marked : List ByteString :=
  (p.posted sources).elim [] fun verified => (p.verifyReply verified).marked

/-! ## What the two sides find -/

/-- The receiver wants the hash of the file. -/
def candidate (file : TransferSource) : Bool :=
  (p.metadata.answer (entry file)).found.getD false

def sha256 (file : TransferSource) : ByteString := (p.hash file).getD []

def result (file : TransferSource) : Preflight.PreflightResult :=
  (p.verify.answer (hashedEntry (file, p.sha256 file))).found.getD ⟨.upload, []⟩

/-- A candidate whose contents the receiver found again. -/
def Duplicate (file : TransferSource) (result : Preflight.PreflightResult) : Prop :=
  p.candidate file = true ∧ ∃ sha256, p.hash file = some sha256 ∧
    (p.verify.answer (hashedEntry (file, sha256))).found = some result ∧
    result.disposition = .skip

/-- Every reply arrives and accepts the post, and every candidate can be read. -/
structure Completes : Prop where
  metadata : p.metadataDelivered = true ∧
    p.metadata.authorized = true ∧ p.metadata.inventoryHealthy = true
  screened : ∀ file ∈ sources, (p.metadata.answer (entry file)).Given
  verified : ∀ file ∈ sources, p.candidate file = true →
    (p.verifyDelivered = true ∧ p.verify.authorized = true ∧ p.verify.inventoryHealthy = true) ∧
      ∃ sha256, p.hash file = some sha256 ∧
        (p.verify.answer (hashedEntry (file, sha256))).Given

/-- The candidates with their hashes. -/
def hashed : List (TransferSource × ByteString) :=
  (sources.filter p.candidate).map fun file => (file, p.sha256 file)

/-- The items of the verification. -/
def items : List (NativeDuplicatePreflight.VerifyItem ByteString) :=
  (sources.filter p.candidate).map fun file =>
    ⟨fileId file, (p.result file).disposition == .skip, some (p.result file).filename⟩

/-- The first request is accepted. -/
def Screens : Prop :=
  p.metadataDelivered = true ∧ (p.metadataReply sources).status = 200

/-- The second request, when there is one, gets its hashes and is accepted. -/
def Verifies : Prop :=
  sources.filter p.candidate ≠ [] →
    (∀ file ∈ sources.filter p.candidate, p.hash file = some (p.sha256 file)) ∧
      p.verifyDelivered = true ∧ (p.verifyReply (p.hashed sources)).status = 200

variable {p sources}

/-! ## The two requests -/

theorem valid_entry {file : TransferSource} (hvalid : Validated sources) (h : file ∈ sources) :
    PreflightRoute.metadataRoute.valid (entry file) = true := by
  have hname := wideToUtf8_ne_nil (hvalid.files file h).2.1
  have hid : fileId file ≠ [] := by
    refine wideToUtf8_ne_nil fun hnil => ?_
    have hbound := hvalid.bound file h
    rw [hnil] at hbound
    have hprefix := List.prefix_nil.mp (List.isPrefixOf_iff_prefix.mp hbound)
    exact absurd (List.append_eq_nil_iff.mp hprefix).2 (by decide)
  simp [PreflightRoute.metadataRoute, entry, hid, hname]

theorem toLower_hexDigit : ∀ n < 16, toLower (hexDigit n) = hexDigit n := by
  decide

/-- A hash of the sender passes the check of the receiver. -/
theorem isHex_hash {file : TransferSource} {sha256 : ByteString} (h : p.hash file = some sha256) :
    isHex (sha256.map toLower) 64 = true := by
  obtain ⟨digest, -, rfl⟩ := Option.map_eq_some_iff.mp h
  have hlower : (toHex digest.1).map toLower = toHex digest.1 := by
    rw [List.map_congr_left fun b hb => ?_, List.map_id]
    obtain ⟨n, hn, rfl⟩ := mem_toHex hb
    exact toLower_hexDigit n hn
  have hhex := isHex_toHex digest.1
  rwa [digest.2, ← hlower] at hhex

theorem valid_hashedEntry {file : TransferSource} {sha256 : ByteString} (hvalid : Validated sources)
    (h : file ∈ sources) (hhash : p.hash file = some sha256) :
    (PreflightRoute.verifyRoute true).valid (hashedEntry (file, sha256)) = true := by
  have hentry := valid_entry hvalid h
  simp only [PreflightRoute.metadataRoute, Bool.and_eq_true] at hentry
  simp [PreflightRoute.verifyRoute, hashedEntry, hentry.1, hentry.2, isHex_hash hhash]

theorem metadata_status_iff (hvalid : Validated sources) :
    (p.metadataReply sources).status = 200 ↔
      (p.metadata.authorized = true ∧ p.metadata.inventoryHealthy = true) ∧
        ∀ file ∈ sources, (p.metadata.answer (entry file)).Given := by
  rw [metadataReply, PreflightRoute.handle_status_iff, List.length_map,
    List.forall_mem_map, and_assoc]
  have hcount : sources.length ≤ PreflightRoute.maxQueuedFiles := hvalid.count.2
  constructor
  · rintro ⟨hauthorized, hhealthy, -, hserves⟩
    exact ⟨hauthorized, hhealthy, fun file hfile => (hserves file hfile).2⟩
  · rintro ⟨hauthorized, hhealthy, hgiven⟩
    exact ⟨hauthorized, hhealthy, hcount, fun file hfile =>
      ⟨valid_entry hvalid hfile, hgiven file hfile⟩⟩

theorem metadata_files (h : (p.metadataReply sources).status = 200) :
    (p.metadataReply sources).files = sources.map fun file => (fileId file, p.candidate file) := by
  have hreply := PreflightRoute.handle_served h fun e _ found hfound =>
    show found = (p.metadata.answer e).found.getD false by rw [hfound, Option.getD_some]
  rw [metadataReply, hreply, List.map_map]
  rfl

theorem accepted_metadata (h : p.Screens sources) :
    accepted p.metadataDelivered (p.metadataReply sources) =
      some (sources.map fun file => (fileId file, p.candidate file)) := by
  rw [← metadata_files h.2]
  exact if_pos h

theorem refused_metadata (h : ¬p.Screens sources) :
    accepted p.metadataDelivered (p.metadataReply sources) = none :=
  if_neg h

theorem candidates_eq_nil_iff :
    NativeDuplicatePreflight.candidates
        (sources.map fun file => (fileId file, p.candidate file)) = [] ↔
      sources.filter p.candidate = [] := by
  simp [NativeDuplicatePreflight.candidates, List.filter_eq_nil_iff]

/-- The second request, with the hashes of all candidates. -/
theorem verify_status_iff (hvalid : Validated sources)
    (hhash : ∀ file ∈ sources.filter p.candidate, p.hash file = some (p.sha256 file)) :
    (p.verifyReply (p.hashed sources)).status = 200 ↔
      (p.verify.authorized = true ∧ p.verify.inventoryHealthy = true) ∧
        ∀ file ∈ sources.filter p.candidate,
          (p.verify.answer (hashedEntry (file, p.sha256 file))).Given := by
  have hcount : (sources.filter p.candidate).length ≤ PreflightRoute.maxQueuedFiles :=
    (List.length_filter_le ..).trans hvalid.count.2
  rw [verifyReply, PreflightRoute.handle_status_iff, hashed, List.length_map, List.length_map,
    List.map_map, List.forall_mem_map, and_assoc]
  constructor
  · rintro ⟨hauthorized, hhealthy, -, hserves⟩
    exact ⟨hauthorized, hhealthy, fun file hfile => (hserves file hfile).2⟩
  · rintro ⟨hauthorized, hhealthy, hgiven⟩
    exact ⟨hauthorized, hhealthy, hcount, fun file hfile =>
      ⟨valid_hashedEntry hvalid (List.mem_of_mem_filter hfile) (hhash file hfile),
        hgiven file hfile⟩⟩

theorem verify_served (h : (p.verifyReply (p.hashed sources)).status = 200) :
    (p.verifyReply (p.hashed sources)).files.map verifyItem = p.items sources ∧
      (p.verifyReply (p.hashed sources)).marked =
        ((sources.filter p.candidate).filter fun file => (p.result file).disposition == .skip).map
          fileId := by
  have hreply := PreflightRoute.handle_served h fun e _ found hfound =>
    show found = (p.verify.answer e).found.getD ⟨.upload, []⟩ by rw [hfound, Option.getD_some]
  rw [verifyReply, hreply]
  constructor
  · simp only [hashed, items, List.map_map]
    rfl
  · simp only [hashed, List.map_map, List.filter_map]
    rfl

/-! ## A run -/

theorem hash_of_isSome {file : TransferSource} (h : (p.hash file).isSome = true) :
    p.hash file = some (p.sha256 file) := by
  obtain ⟨sha256, hhash⟩ := Option.isSome_iff_exists.mp h
  rw [PreflightExchange.sha256, hhash, Option.getD_some]

theorem hashSources_eq_some_iff (hids : (sources.map fileId).Nodup)
    {verified : List (TransferSource × ByteString)} :
    NativeDuplicatePreflight.hashSources fileId sources
        (sources.map fun file => (fileId file, p.candidate file)) p.hash = some verified ↔
      (∀ file ∈ sources.filter p.candidate, p.hash file = some (p.sha256 file)) ∧
        verified = p.hashed sources := by
  rw [NativeDuplicatePreflight.hashSources, NativeDuplicatePreflight.candidateSources_map hids]
  have hmap : (∀ file ∈ sources.filter p.candidate, p.hash file = some (p.sha256 file)) →
      ((sources.filter p.candidate).mapM fun file => (p.hash file).map fun sha256 =>
        (file, sha256)) =
        some (p.hashed sources) := fun hhash =>
    mapM_eq_map fun file hfile => by rw [hhash file hfile, Option.map_some]
  constructor
  · intro h
    have hhash : ∀ file ∈ sources.filter p.candidate, p.hash file = some (p.sha256 file) := by
      intro file hfile
      have hsome := mapM_isSome_iff.mp (Option.isSome_iff_exists.mpr ⟨verified, h⟩) file hfile
      exact hash_of_isSome (by rwa [Option.isSome_map] at hsome)
    exact ⟨hhash, Option.some.inj (h.symm.trans (hmap hhash))⟩
  · rintro ⟨hhash, rfl⟩
    exact hmap hhash

/-- **How a run returns.** -/
theorem run_eq_some_iff (hids : (sources.map fileId).Nodup)
    {out : NativeDuplicatePreflight.Outcome ByteString} :
    p.run sources = some out ↔
      p.Screens sources ∧ p.Verifies sources ∧
        (p.items sources).foldlM (NativeDuplicatePreflight.recordSkip fileId sources) {} =
          some out := by
  unfold run NativeDuplicatePreflight.runAsync
  by_cases hstatus : p.Screens sources
  · rw [accepted_metadata hstatus]
    simp only [Option.bind_eq_bind, Option.bind_some, candidates_eq_nil_iff]
    by_cases hnone : sources.filter p.candidate = []
    · simp [hnone, hstatus, items, Verifies]
    · rw [if_neg hnone]
      constructor
      · intro h
        obtain ⟨verified, hverified, h⟩ := Option.bind_eq_some_iff.mp h
        obtain ⟨hhash, rfl⟩ := (hashSources_eq_some_iff hids).mp hverified
        obtain ⟨items, hitems, h⟩ := Option.bind_eq_some_iff.mp h
        rw [accepted] at hitems
        by_cases hverify : p.verifyDelivered = true ∧
          (p.verifyReply (p.hashed sources)).status = 200
        · rw [if_pos hverify, Option.map_some, (verify_served hverify.2).1] at hitems
          cases hitems
          exact ⟨hstatus, fun _ => ⟨hhash, hverify⟩, h⟩
        · rw [if_neg hverify] at hitems
          cases hitems
      · rintro ⟨-, hverifies, h⟩
        obtain ⟨hhash, hverify⟩ := hverifies hnone
        rw [(hashSources_eq_some_iff hids).mpr ⟨hhash, rfl⟩, Option.bind_some, accepted,
          if_pos hverify, Option.map_some, (verify_served hverify.2).1, Option.bind_some]
        exact h
  · rw [refused_metadata hstatus]
    simp [hstatus]

theorem posted_eq_some_iff (hids : (sources.map fileId).Nodup)
    {verified : List (TransferSource × ByteString)} :
    p.posted sources = some verified ↔
      p.Screens sources ∧ sources.filter p.candidate ≠ [] ∧
        (∀ file ∈ sources.filter p.candidate, p.hash file = some (p.sha256 file)) ∧
          verified = p.hashed sources := by
  unfold posted
  by_cases hstatus : p.Screens sources
  · rw [accepted_metadata hstatus, Option.bind_some]
    simp only [candidates_eq_nil_iff]
    by_cases hnone : sources.filter p.candidate = []
    · rw [if_pos hnone]
      exact iff_of_false (Option.some_ne_none _).symm fun h => h.2.1 hnone
    · rw [if_neg hnone, hashSources_eq_some_iff hids]
      simp [hstatus, hnone]
  · rw [refused_metadata hstatus, Option.bind_none]
    exact iff_of_false (Option.some_ne_none _).symm fun h => hstatus h.1

theorem marked_eq (hids : (sources.map fileId).Nodup)
    (hstatus : p.Screens sources) (hverifies : p.Verifies sources) :
    p.marked sources =
      ((sources.filter p.candidate).filter fun file => (p.result file).disposition == .skip).map
        fileId := by
  by_cases hnone : sources.filter p.candidate = []
  · have hposted : p.posted sources = none := by
      rw [Option.eq_none_iff_forall_ne_some]
      exact fun verified h => ((posted_eq_some_iff hids).mp h).2.1 hnone
    rw [marked, hposted, hnone]
    rfl
  · obtain ⟨hhash, hverify⟩ := hverifies hnone
    rw [marked, (posted_eq_some_iff hids).mpr ⟨hstatus, hnone, hhash, rfl⟩]
    exact (verify_served hverify.2).2

/-- Whatever the receiver marks is a duplicate that it verified, also when the run fails. -/
theorem duplicate_of_marked (hids : (sources.map fileId).Nodup) {id : ByteString}
    (h : id ∈ p.marked sources) :
    ∃ file ∈ sources, fileId file = id ∧ ∃ result, p.Duplicate file result := by
  unfold marked at h
  cases hposted : p.posted sources with
  | none =>
    rw [hposted] at h
    cases h
  | some verified =>
    obtain ⟨-, -, hhash, rfl⟩ := (posted_eq_some_iff hids).mp hposted
    rw [hposted] at h
    obtain ⟨e, he, hid, found, hfound, hterminal⟩ := PreflightRoute.handle_marked h
    obtain ⟨v, hv, rfl⟩ := List.mem_map.mp he
    obtain ⟨file, hfile, rfl⟩ := List.mem_map.mp hv
    obtain ⟨hsource, hcandidate⟩ := List.mem_filter.mp hfile
    exact ⟨file, hsource, hid, found, hcandidate, _, hhash file hfile, hfound,
      by simpa [PreflightRoute.verifyRoute] using hterminal⟩

theorem Duplicate.result_eq {file : TransferSource} {result : Preflight.PreflightResult}
    (h : p.Duplicate file result) : p.result file = result := by
  obtain ⟨-, sha256, hhash, hfound, -⟩ := h
  rw [PreflightExchange.result, PreflightExchange.sha256, hhash, Option.getD_some, hfound,
    Option.getD_some]

theorem completes_iff (hvalid : Validated sources) :
    p.Completes sources ↔
      p.Screens sources ∧ p.Verifies sources := by
  rw [Screens, metadata_status_iff hvalid]
  constructor
  · intro h
    refine ⟨⟨h.metadata.1, h.metadata.2, h.screened⟩, fun hsome => ?_⟩
    have hverified : ∀ file ∈ sources.filter p.candidate, p.hash file = some (p.sha256 file) ∧
        (p.verify.answer (hashedEntry (file, p.sha256 file))).Given := by
      intro file hfile
      obtain ⟨hsource, hcandidate⟩ := List.mem_filter.mp hfile
      obtain ⟨-, sha256, hhash, hgiven⟩ := h.verified file hsource hcandidate
      have hsha : p.sha256 file = sha256 := by
        rw [PreflightExchange.sha256, hhash, Option.getD_some]
      rw [hsha]
      exact ⟨hhash, hgiven⟩
    obtain ⟨first, hfirst⟩ := List.exists_mem_of_ne_nil _ hsome
    obtain ⟨hsource, hcandidate⟩ := List.mem_filter.mp hfirst
    have hhash := fun file hfile => (hverified file hfile).1
    obtain ⟨hdelivered, hopen⟩ := (h.verified first hsource hcandidate).1
    exact ⟨hhash, hdelivered, (verify_status_iff hvalid hhash).mpr
      ⟨hopen, fun file hfile => (hverified file hfile).2⟩⟩
  · rintro ⟨⟨hdelivered, hmetadata, hscreened⟩, hverifies⟩
    refine ⟨⟨hdelivered, hmetadata⟩, hscreened, fun file hsource hcandidate => ?_⟩
    have hfile : file ∈ sources.filter p.candidate := List.mem_filter.mpr ⟨hsource, hcandidate⟩
    obtain ⟨hhash, hdelivered, hverify⟩ := hverifies (List.ne_nil_of_mem hfile)
    obtain ⟨hopen, hgiven⟩ := (verify_status_iff hvalid hhash).mp hverify
    exact ⟨⟨hdelivered, hopen⟩, _, hhash file hfile, hgiven file hfile⟩

/-- In a run that gets through, the marked files are the duplicates. -/
theorem marked_iff_duplicate (hids : (sources.map fileId).Nodup)
    (hstatus : p.Screens sources) (hverifies : p.Verifies sources)
    {file : TransferSource} (hfile : file ∈ sources) :
    fileId file ∈ p.marked sources ↔ ∃ result, p.Duplicate file result := by
  constructor
  · intro hmarked
    obtain ⟨other, hother, hid, hduplicate⟩ := duplicate_of_marked hids hmarked
    rwa [List.inj_on_of_nodup_map hids hother hfile hid] at hduplicate
  · rintro ⟨result, hduplicate⟩
    have hresult := hduplicate.result_eq
    obtain ⟨hcandidate, -, -, -, hskip⟩ := hduplicate
    rw [marked_eq hids hstatus hverifies]
    refine List.mem_map_of_mem (List.mem_filter.mpr ⟨List.mem_filter.mpr ⟨hfile, hcandidate⟩, ?_⟩)
    rw [hresult, hskip]
    rfl

/-! ## Agreement -/

theorem mem_items_skip {id : ByteString} :
    (∃ item ∈ p.items sources, item.id = id ∧ item.skip = true) ↔
      id ∈ ((sources.filter p.candidate).filter fun file =>
        (p.result file).disposition == .skip).map fileId := by
  constructor
  · rintro ⟨item, hitem, hid, hskip⟩
    obtain ⟨file, hfile, rfl⟩ := List.mem_map.mp hitem
    exact List.mem_map.mpr ⟨file, List.mem_filter.mpr ⟨hfile, hskip⟩, hid⟩
  · intro hid
    obtain ⟨file, hfile, rfl⟩ := List.mem_map.mp hid
    obtain ⟨hfile, hskip⟩ := List.mem_filter.mp hfile
    exact ⟨_, List.mem_map_of_mem hfile, rfl, hskip⟩

theorem countP_items :
    (p.items sources).countP (·.skip) =
      (((sources.filter p.candidate).filter fun file =>
        (p.result file).disposition == .skip).map fileId).length := by
  rw [items, List.countP_map, List.length_map, ← List.countP_eq_length_filter]
  rfl

theorem items_nodup (hids : (sources.map fileId).Nodup) : ((p.items sources).map (·.id)).Nodup := by
  rw [items, List.map_map]
  exact hids.sublist (List.Sublist.map fileId List.filter_sublist)

theorem run_isSome_iff (hvalid : Validated sources) (hids : (sources.map fileId).Nodup) :
    (p.run sources).isSome = true ↔ p.Completes sources := by
  rw [completes_iff hvalid, Option.isSome_iff_exists]
  constructor
  · rintro ⟨out, hrun⟩
    obtain ⟨hstatus, hverifies, -⟩ := (run_eq_some_iff hids).mp hrun
    exact ⟨hstatus, hverifies⟩
  · rintro ⟨hstatus, hverifies⟩
    have hsources : ∀ item ∈ p.items sources, item.skip = true →
        ∃ file ∈ sources, fileId file = item.id := by
      intro item hitem _
      obtain ⟨file, hfile, rfl⟩ := List.mem_map.mp hitem
      exact ⟨file, List.mem_of_mem_filter hfile, rfl⟩
    obtain ⟨out, hout⟩ := NativeDuplicatePreflight.recordSkips_isSome hsources {}
    exact ⟨out, (run_eq_some_iff hids).mpr ⟨hstatus, hverifies, hout⟩⟩

/-! ## The manifest of the receiver -/

/-- The files of the transfer that `markFileTerminal` finds. -/
def manifestOf (store : NativeSessionStore) (transferId : ByteString) : Option
    (List TransferFile) :=
  (store.transfers.entries.find? fun e => e.2.transferId == transferId).map (·.2.files)

/-- The `markFileTerminal` calls of a request. -/
def markAll (transferId : ByteString) (store : NativeSessionStore) (ids : List ByteString) :
    NativeSessionStore :=
  ids.foldl (fun store id => store.markFileTerminal transferId id) store

/-- The files, those with the given IDs terminal. -/
def withTerminal (ids : List ByteString) (files : List TransferFile) : List TransferFile :=
  files.map fun file => { file with terminal := file.terminal || ids.contains file.fileId }

variable {store : NativeSessionStore} {transferId : ByteString} {files : List TransferFile}

theorem withTerminal_of_not_mem {id : ByteString} (h : ∀ file ∈ files, file.fileId ≠ id) :
    withTerminal [id] files = files := by
  refine (List.map_congr_left fun file hfile => ?_).trans (List.map_id files)
  simp [h file hfile]

/-- `markFileTerminal` changes the first file with the ID, which is the only one. -/
theorem modify_terminal {id : ByteString} {index : Nat} (hids : (files.map (·.fileId)).Nodup)
    (h : files.findIdx? (fun value => value.fileId == id) = some index) :
    (files.modify index fun file => { file with terminal := true }) = withTerminal [id] files := by
  induction files generalizing index with
  | nil => cases h
  | cons file rest ih =>
    rw [List.map_cons, List.nodup_cons] at hids
    rw [List.findIdx?_cons] at h
    split at h
    · rename_i hid
      cases h
      have hid : file.fileId = id := eq_of_beq hid
      have hrest : ∀ other ∈ rest, other.fileId ≠ id := fun other hother heq =>
        hids.1 (List.mem_map.mpr ⟨other, hother, heq.trans hid.symm⟩)
      rw [withTerminal, List.map_cons, ← withTerminal, withTerminal_of_not_mem hrest]
      simp [hid]
    · rename_i hid
      obtain ⟨next, hnext, rfl⟩ := Option.map_eq_some_iff.mp h
      have hid : file.fileId ≠ id := fun heq => hid (beq_iff_eq.mpr heq)
      rw [List.modify_succ_cons, ih hids.2 hnext, withTerminal, withTerminal, List.map_cons]
      simp [hid]

theorem manifestOf_markFileTerminal {id : ByteString} (h : manifestOf store transferId = some files)
    (hids : (files.map (·.fileId)).Nodup) :
    manifestOf (store.markFileTerminal transferId id) transferId =
      some (withTerminal [id] files) := by
  obtain ⟨e, he, rfl⟩ := Option.map_eq_some_iff.mp h
  unfold NativeSessionStore.markFileTerminal
  simp only [he]
  split
  · rename_i hnone
    have hother : ∀ file ∈ e.2.files, file.fileId ≠ id := fun file hfile heq => by
      simpa [heq] using List.findIdx?_eq_none_iff.mp hnone file hfile
    rw [withTerminal_of_not_mem hother]
    exact h
  · rename_i index hindex
    have htransfer := List.find?_some he
    have hkey : ∀ other ∈ store.transfers.entries, other.1 = e.1 → other = e := by
      intro other hother hkey
      have hlookup := Table.lookup_eq_some_iff.mpr hother
      have hvalue := Table.lookup_eq_some_iff.mpr (List.mem_of_find?_eq_some he)
      rw [hkey] at hlookup
      exact Sigma.ext hkey (heq_of_eq (Option.some.inj (hlookup.symm.trans hvalue)))
    have hsame : ∀ item : TransferRequest, item.transferId = e.2.transferId →
        (store.transfers.update e.1 item).entries.find?
          (fun other => other.2.transferId == transferId) = some ⟨e.1, item⟩ := by
      intro item hitem
      have hcongr : ∀ other ∈ store.transfers.entries,
          ((fun other => other.2.transferId == transferId) ∘
            fun other : Sigma fun _ : ByteString => TransferRequest =>
              (⟨other.1, if other.1 = e.1 then item else other.2⟩ :
                Sigma fun _ : ByteString => TransferRequest)) other =
            (other.2.transferId == transferId) := by
        intro other hother
        by_cases heq : other.1 = e.1
        · rw [hkey other hother heq]
          simp [hitem]
        · simp [heq]
      rw [show (store.transfers.update e.1 item).entries = store.transfers.entries.map
        fun other => ⟨other.1, if other.1 = e.1 then item else other.2⟩ from rfl,
        List.find?_map, List.find?_congr hcongr, he]
      simp
    rw [← modify_terminal hids hindex]
    exact congrArg (Option.map (·.2.files)) (hsame { e.2 with
      files := e.2.files.modify index fun file => { file with terminal := true } } rfl)

theorem manifestOf_markAll {ids : List ByteString} (h : manifestOf store transferId = some files)
    (hids : (files.map (·.fileId)).Nodup) :
    manifestOf (markAll transferId store ids) transferId = some (withTerminal ids files) := by
  induction ids generalizing store files with
  | nil =>
    rw [markAll, List.foldl_nil, h]
    simp [withTerminal]
  | cons id ids ih =>
    have hsame : (withTerminal [id] files).map (·.fileId) = files.map (·.fileId) := by
      rw [withTerminal, List.map_map]
      rfl
    rw [markAll, List.foldl_cons, ← markAll, ih (manifestOf_markFileTerminal h hids) (hsame ▸ hids)]
    simp [withTerminal, Bool.or_assoc, Function.comp_def]

end PreflightExchange

open PreflightExchange in
/-- **Agreement on the duplicates.**  Of a selection with different IDs, as the receiver's check of
the manifest demands, a run returns when every reply accepts its post and every candidate can be
read.  The sender then skips the files that the receiver marked, counts each once and notes the name
under which the receiver has it; these are the files that the receiver verified, and its manifest
has just them terminal.  A run that fails leaves no other file marked either. -/
theorem preflight_agreement {p : PreflightExchange} {sources : List TransferSource}
    (hvalid : validateSources sources = none) (hids : (sources.map fileId).Nodup) :
    ((p.run sources).isSome = true ↔ p.Completes sources) ∧
      (∀ id ∈ p.marked sources,
        ∃ file ∈ sources, fileId file = id ∧ ∃ result, p.Duplicate file result) ∧
      ∀ out, p.run sources = some out →
        (∀ id, id ∈ out.skipped ↔ id ∈ p.marked sources) ∧
        (∀ id, (out.results.lookup id).isSome = true ↔ id ∈ p.marked sources) ∧
        (p.marked sources).Nodup ∧ out.terminal = (p.marked sources).length ∧
        (∀ file ∈ sources,
          (fileId file ∈ p.marked sources ↔ ∃ result, p.Duplicate file result) ∧
          ∀ result, p.Duplicate file result →
            out.results.lookup (fileId file) = some (some result.filename)) ∧
        ∀ store transferId, manifestOf store transferId = some (sources.map received) →
          manifestOf (markAll transferId store (p.marked sources)) transferId =
            some (sources.map fun file =>
              { received file with terminal := out.skipped.contains (fileId file) }) := by
  have hvalidated := validated_of_none hvalid
  refine ⟨run_isSome_iff hvalidated hids, fun id => duplicate_of_marked hids, fun out hrun => ?_⟩
  obtain ⟨hstatus, hverifies, hfold⟩ := (run_eq_some_iff hids).mp hrun
  have hmarked := marked_eq hids hstatus hverifies
  obtain ⟨hskipped, hresults, hterminal, -⟩ := NativeDuplicatePreflight.recordSkips_spec hfold
  have hnames := NativeDuplicatePreflight.recordSkips_lookup hfold (items_nodup hids)
  have hnodup : (p.marked sources).Nodup := by
    rw [hmarked]
    exact hids.sublist (List.Sublist.map fileId (List.filter_sublist.trans List.filter_sublist))
  have hagree : ∀ id, id ∈ out.skipped ↔ id ∈ p.marked sources := by
    intro id
    rw [hskipped, mem_items_skip, hmarked]
    simp
  refine ⟨hagree, fun id => ?_, hnodup, ?_,
    fun file hfile => ⟨?_, fun result hduplicate => ?_⟩, fun store transferId hmanifest => ?_⟩
  · rw [hresults, mem_items_skip, hmarked]
    simp
  · rw [hterminal, countP_items, hmarked, Nat.zero_add]
  · exact marked_iff_duplicate hids hstatus hverifies hfile
  · have hresult := hduplicate.result_eq
    have hskip : (p.result file).disposition == .skip := by
      rw [hresult, hduplicate.2.choose_spec.2.2]
      rfl
    have hitem := List.mem_map_of_mem (f := fun file =>
      (⟨fileId file, (p.result file).disposition == .skip, some (p.result file).filename⟩ :
        NativeDuplicatePreflight.VerifyItem ByteString))
      (List.mem_filter.mpr ⟨hfile, hduplicate.1⟩)
    rw [← hresult]
    exact hnames _ hitem hskip
  · have hreceived : ((sources.map received).map (·.fileId)).Nodup := by
      rwa [List.map_map]
    rw [manifestOf_markAll hmanifest hreceived, withTerminal, List.map_map]
    refine congrArg some (List.map_congr_left fun file _ => ?_)
    have hsame : (p.marked sources).contains (fileId file) =
      out.skipped.contains (fileId file) := by
      rw [Bool.eq_iff_iff, List.contains_iff_mem, List.contains_iff_mem, hagree]
    rw [← hsame]
    rfl

/-- A photo of five bytes, and one of six. -/
def twoSources : List TransferSource :=
  [oneSource (wide "a.jpg"),
    { oneSource (wide "b.jpg") with
      fileId := wide "win-ffeeddccbbaa99887766554433221100-0808080808080808"
      sizeBytes := 6 }]

/-- A receiver that has every photo of five bytes. -/
def fiveByteExchange : PreflightExchange where
  metadata := ⟨true, true, true, fun e => ⟨true, some (e.size == 5)⟩⟩
  metadataDelivered := true
  verify := ⟨true, true, true, fun e => ⟨true, some ⟨.skip, e.name⟩⟩⟩
  verifyDelivered := true
  digest _ := some ⟨List.replicate 32 7, rfl⟩

theorem fiveByteExchange_completes : fiveByteExchange.Completes twoSources where
  metadata := ⟨rfl, rfl, rfl⟩
  screened _ _ := ⟨rfl, rfl⟩
  verified _ _ _ := ⟨⟨rfl, rfl, rfl⟩, _, rfl, rfl, rfl⟩

theorem preflight_agreement_two :
    ∃ out, fiveByteExchange.run twoSources = some out ∧ out.terminal = 1 := by
  obtain ⟨hreturns, -, hagree⟩ := @preflight_agreement fiveByteExchange twoSources
    (by decide +kernel) (by decide +kernel)
  obtain ⟨out, hrun⟩ := Option.isSome_iff_exists.mp (hreturns.mpr fiveByteExchange_completes)
  have hmarked : (fiveByteExchange.marked twoSources).length = 1 := by decide +kernel
  exact ⟨out, hrun, (hagree out hrun).2.2.2.1.trans hmarked⟩

end LocalMediaTransfer
