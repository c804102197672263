import LocalMediaTransfer.Ios.Native.PreparationAccounting

/-!
# The two indexes of a transfer session

A prepared file is found by its variant (`recordsByVariant`) and by its URL (`variantByUrl`), and
`release` goes from the URL over the variant to the record.  `registerPreparedFile` refuses a
variant that is taken, but not a URL that is taken: the URL then leads to the second record, and
the first can no longer be released.

* `Indexed` — the indexes are inverse to each other, and only registered variants have a hash.
* `prepared_files_releasable` — while no URL is registered twice, the indexes stay inverse, and
  releasing the files one after the other leaves no record and no charge.
* `url_registered_twice` — a file under two variants: one record and its charge stay.
-/

set_option autoImplicit false

namespace LocalMediaTransfer

open Lib

namespace Preparation

variable {Url : Type} [DecidableEq Url]

/-- The two indexes are inverse to each other, and every hash belongs to a record. -/
structure Indexed (session : Session Url) : Prop where
  byVariant : ∀ v record, session.recordsByVariant.lookup v = some record →
    session.variantByUrl.lookup record.url = some v
  byUrl : ∀ url v, session.variantByUrl.lookup url = some v →
    ∃ record, session.recordsByVariant.lookup v = some record ∧ record.url = url
  hashed : ∀ v hash, session.hashesByVariant.lookup v = some hash →
    (session.recordsByVariant.lookup v).isSome = true

/-- The URL of the record is not registered yet. -/
def FreshUrl (session : Session Url) (record : PreparedRecord Url) : Prop :=
  session.variantByUrl.lookup record.url = none

theorem indexed_of_eq {session session' : Session Url} (h : Indexed session)
    (hrecords : session'.recordsByVariant = session.recordsByVariant)
    (hurls : session'.variantByUrl = session.variantByUrl)
    (hhashes : session'.hashesByVariant = session.hashesByVariant) : Indexed session' := by
  refine ⟨?_, ?_, ?_⟩
  · rw [hrecords, hurls]
    exact h.byVariant
  · rw [hrecords, hurls]
    exact h.byUrl
  · rw [hrecords, hhashes]
    exact h.hashed

theorem insertRecord_indexed {session : Session Url} {record : PreparedRecord Url}
    (h : Indexed session) (hvariant : session.recordsByVariant.lookup record.variantId = none)
    (hurl : FreshUrl session record) : Indexed (session.insertRecord record) where
  byVariant v other hother := by
    change (session.recordsByVariant.insert record.variantId record).lookup v = some other at hother
    change (session.variantByUrl.insert record.url record.variantId).lookup other.url = some v
    by_cases hv : v = record.variantId
    · subst hv
      rw [AList.lookup_insert] at hother
      cases hother
      exact AList.lookup_insert _
    · rw [AList.lookup_insert_ne hv] at hother
      have hfound := h.byVariant v other hother
      have hne : other.url ≠ record.url := by
        intro heq
        rw [heq, hurl] at hfound
        cases hfound
      rwa [AList.lookup_insert_ne hne]
  byUrl url v hv := by
    change (session.variantByUrl.insert record.url record.variantId).lookup url = some v at hv
    change ∃ other, (session.recordsByVariant.insert record.variantId record).lookup v =
      some other ∧ _
    by_cases heq : url = record.url
    · subst heq
      rw [AList.lookup_insert] at hv
      cases hv
      exact ⟨record, AList.lookup_insert _, rfl⟩
    · rw [AList.lookup_insert_ne heq] at hv
      obtain ⟨other, hother, hurl'⟩ := h.byUrl url v hv
      have hne : v ≠ record.variantId := by
        rintro rfl
        rw [hvariant] at hother
        cases hother
      exact ⟨other, by rwa [AList.lookup_insert_ne hne], hurl'⟩
  hashed v hash hhash := by
    change ((session.recordsByVariant.insert record.variantId record).lookup v).isSome = true
    by_cases hv : v = record.variantId
    · subst hv
      rw [AList.lookup_insert]
      rfl
    · rw [AList.lookup_insert_ne hv]
      exact h.hashed v hash hhash

/-- What a registration of a session does to the indexes. -/
theorem register_cases {P : Platform Url} {session session' : Session Url}
    {record : PreparedRecord Url} (h : session.registerPreparedFile P record = .ok session') :
    session.recordsByVariant.lookup record.variantId = none ∧ ∃ charged : Session Url,
      session' = charged.insertRecord record ∧
        charged.recordsByVariant = session.recordsByVariant ∧
        charged.variantByUrl = session.variantByUrl ∧
        charged.hashesByVariant = session.hashesByVariant := by
  unfold Session.registerPreparedFile at h
  split at h
  · cases h
  split at h
  · cases h
  rename_i hguard
  simp only [Bool.or_eq_true, not_or, Bool.not_eq_true, Option.isSome_eq_false_iff,
    Option.isNone_iff_eq_none] at hguard
  refine ⟨hguard.2, ?_⟩
  split at h
  · cases hcharge : session.charge record.url record.sizeBytes with
    | error e =>
      rw [hcharge] at h
      cases h
    | ok charged =>
      rw [hcharge] at h
      cases h
      refine ⟨charged, rfl, ?_⟩
      simp only [Session.charge] at hcharge
      split at hcharge
      · cases hcharge
      · split at hcharge
        · cases hcharge
          exact ⟨rfl, rfl, rfl⟩
        · cases hcharge
  · cases h
    exact ⟨session, rfl, rfl, rfl, rfl⟩

theorem release_cases {session session' : Session Url} {url : Url} {record : PreparedRecord Url}
    (h : session.release url = some (record, session')) :
    ∃ v, session.variantByUrl.lookup url = some v ∧
      session.recordsByVariant.lookup v = some record ∧
      session' = session.removeRecord url record v := by
  unfold Session.release at h
  split at h
  · cases h
  · rename_i v hv
    obtain ⟨found, hfound, heq⟩ := Option.map_eq_some_iff.mp h
    cases heq
    exact ⟨v, hv, hfound, rfl⟩

theorem removeRecord_indexed {session : Session Url} {url : Url} {record : PreparedRecord Url}
    {v : String} (h : Indexed session) (hurl : session.variantByUrl.lookup url = some v) :
    Indexed (session.removeRecord url record v) where
  byVariant w other hother := by
    change (session.recordsByVariant.erase v).lookup w = some other at hother
    change (session.variantByUrl.erase url).lookup other.url = some w
    by_cases hw : w = v
    · subst hw
      simp at hother
    · rw [AList.lookup_erase_ne hw] at hother
      have hfound := h.byVariant w other hother
      have hne : other.url ≠ url := by
        intro heq
        rw [heq, hurl] at hfound
        exact hw (Option.some.inj hfound).symm
      rwa [AList.lookup_erase_ne hne]
  byUrl u w hw := by
    change (session.variantByUrl.erase url).lookup u = some w at hw
    change ∃ other, (session.recordsByVariant.erase v).lookup w = some other ∧ _
    by_cases hu : u = url
    · subst hu
      simp at hw
    · rw [AList.lookup_erase_ne hu] at hw
      obtain ⟨other, hother, hotherUrl⟩ := h.byUrl u w hw
      have hne : w ≠ v := by
        rintro rfl
        obtain ⟨held, hheld, hheldUrl⟩ := h.byUrl url w hurl
        rw [hother] at hheld
        cases hheld
        exact hu (hotherUrl.symm.trans hheldUrl)
      exact ⟨other, by rwa [AList.lookup_erase_ne hne], hotherUrl⟩
  hashed w hash hhash := by
    change (session.hashesByVariant.erase v).lookup w = some hash at hhash
    change ((session.recordsByVariant.erase v).lookup w).isSome = true
    by_cases hw : w = v
    · subst hw
      simp at hhash
    · rw [AList.lookup_erase_ne hw] at hhash ⊢
      exact h.hashed w hash hhash

/-- Every change of a session keeps its indexes inverse, as long as every URL is new. -/
theorem indexed_kept (P : Platform Url) : Kept P FreshUrl Indexed where
  fresh _ := by constructor <;> intro _ _ h <;> cases h
  cancel _ h := ⟨h.byVariant, h.byUrl, h.hashed⟩
  operations _ _ h := ⟨h.byVariant, h.byUrl, h.hashed⟩
  register session record session' h hfresh hregister := by
    obtain ⟨hvariant, charged, rfl, hrecords, hurls, hhashes⟩ := register_cases hregister
    refine insertRecord_indexed (indexed_of_eq h hrecords hurls hhashes) ?_ ?_
    · rwa [hrecords]
    · unfold FreshUrl
      rwa [hurls]
  reserve session url bytes session' h hreserve := by
    unfold Session.reserveTemporaryChunk at hreserve
    split at hreserve
    · cases hreserve
    · split at hreserve
      · cases hreserve
        exact ⟨h.byVariant, h.byUrl, h.hashed⟩
      · cases hreserve
  discard _ _ h := ⟨h.byVariant, h.byUrl, h.hashed⟩
  release session url record session' h hrelease := by
    obtain ⟨v, hv, -, rfl⟩ := release_cases hrelease
    exact removeRecord_indexed h hv
  cacheHash session variantId sha256 h := by
    unfold Session.cacheHash
    split
    · rename_i hregistered
      rw [Bool.and_eq_true] at hregistered
      refine ⟨h.byVariant, h.byUrl, fun v hash hhash => ?_⟩
      by_cases hv : v = variantId
      · subst hv
        exact hregistered.1
      · exact h.hashed v hash (by simpa [AList.lookup_insert_ne hv] using hhash)
    · exact h

/-! ## Releasing everything -/

/-- `release` as a change of the session; it may find nothing. -/
def Session.released (session : Session Url) (url : Url) : Session Url :=
  ((session.release url).map Prod.snd).getD session

/-- Release the files with these URIs, one after the other. -/
def Store.releaseAll (P : Platform Url) (sessionRef : String) (uris : List (String × ℚ))
    (s : Store Url) : Store Url :=
  uris.foldl (fun s call => (s.release P sessionRef call.1 call.2).2) s

theorem lookup_release {P : Platform Url} {s : Store Url} {ref uri : String} (uptime : ℚ)
    {session : Session Url} (h : s.sessions.lookup ref = some session) :
    (s.release P ref uri uptime).2.sessions.lookup ref =
      some (session.released (P.standardizedFileURL (P.fileUrl uri))) := by
  simp only [Store.release, h, Option.bind_some]
  unfold Session.released
  cases session.release (P.standardizedFileURL (P.fileUrl uri)) with
  | none => exact h
  | some r => exact AList.lookup_insert _

/-- One release: its URL leads nowhere any more, and every other record stays. -/
theorem released_spec {session : Session Url} (h : Indexed session) (hbalanced : Balanced session)
    (url : Url) :
    Indexed (session.released url) ∧ Balanced (session.released url) ∧
      ∀ v record, (session.released url).recordsByVariant.lookup v = some record →
        session.recordsByVariant.lookup v = some record ∧ record.url ≠ url := by
  unfold Session.released
  cases hrelease : session.release url with
  | none =>
    refine ⟨h, hbalanced, fun v record hrecord => ⟨hrecord, fun heq => ?_⟩⟩
    have hv := h.byVariant v record hrecord
    unfold Session.release at hrelease
    change session.recordsByVariant.lookup v = some record at hrecord
    rw [← heq, hv] at hrelease
    simp [hrecord] at hrelease
  | some r =>
    obtain ⟨gone, session'⟩ := r
    obtain ⟨v, hv, -, rfl⟩ := release_cases hrelease
    refine ⟨removeRecord_indexed h hv, release_balanced hbalanced hrelease,
      fun w record hrecord => ?_⟩
    change (session.recordsByVariant.erase v).lookup w = some record at hrecord
    by_cases hw : w = v
    · subst hw
      simp at hrecord
    · rw [AList.lookup_erase_ne hw] at hrecord
      refine ⟨hrecord, fun heq => hw ?_⟩
      have hfound := h.byVariant w record hrecord
      rw [heq, hv] at hfound
      exact (Option.some.inj hfound).symm

/-- Releases one after the other leave only records whose URL was not among them. -/
theorem releaseAll_spec {P : Platform Url} {ref : String} (uris : List (String × ℚ)) {s : Store Url}
    {session : Session Url} (h : s.sessions.lookup ref = some session) (hindexed : Indexed session)
    (hbalanced : Balanced session) :
    ∃ left, (s.releaseAll P ref uris).sessions.lookup ref = some left ∧ Indexed left ∧
      Balanced left ∧ ∀ v record, left.recordsByVariant.lookup v = some record →
        session.recordsByVariant.lookup v = some record ∧
          ∀ call ∈ uris, record.url ≠ P.standardizedFileURL (P.fileUrl call.1) := by
  induction uris generalizing s session with
  | nil => exact ⟨session, h, hindexed, hbalanced, fun v record hrecord => ⟨hrecord, by simp⟩⟩
  | cons call rest ih =>
    obtain ⟨hindexed', hbalanced', hothers⟩ := released_spec hindexed hbalanced
      (P.standardizedFileURL (P.fileUrl call.1))
    obtain ⟨left, hleft, hi, hb, hrest⟩ := ih (lookup_release call.2 h) hindexed'
      hbalanced'
    refine ⟨left, hleft, hi, hb, fun v record hrecord => ?_⟩
    obtain ⟨hkept, hnot⟩ := hrest v record hrecord
    obtain ⟨hrecord', hne⟩ := hothers v record hkept
    exact ⟨hrecord', List.forall_mem_cons.mpr ⟨hne, hnot⟩⟩

/-- **Every prepared file can be released**, while no URL is registered that is registered already:
the indexes are inverse to each other, every hash belongs to a registered variant, and releasing
URIs that name every record leaves no record, no mapping, no hash and only the charge of unfinished
files. -/
theorem prepared_files_releasable {P : Platform Url} {s : Store Url}
    (hrun : Run (Store.step P) (Store.Admits P FreshUrl) {} s) {sessionRef : String}
    {session : Session Url} (hsession : s.sessions.lookup sessionRef = some session) :
    Indexed session ∧ ∀ uris : List (String × ℚ),
      (∀ v record, session.recordsByVariant.lookup v = some record →
        ∃ call ∈ uris, P.standardizedFileURL (P.fileUrl call.1) = record.url) →
      ∃ left, (s.releaseAll P sessionRef uris).sessions.lookup sessionRef = some left ∧
        left.recordsByVariant = ∅ ∧ left.variantByUrl = ∅ ∧ left.hashesByVariant = ∅ ∧
        left.reservedBytes = left.partialTotal := by
  have hindexed : Indexed session := all_of_run (indexed_kept P) hrun sessionRef session hsession
  have hanything : Run (Store.step P) (Store.Admits P fun _ _ => True) {} s :=
    hrun.upgrade fun _ _ _ _ _ _ _ _ _ => trivial
  have hbalanced : Balanced session :=
    all_of_run (balanced_kept P) hanything sessionRef session hsession
  refine ⟨hindexed, fun uris hnamed => ?_⟩
  obtain ⟨left, hleft, hi, hb, hrest⟩ := releaseAll_spec (P := P) uris hsession hindexed hbalanced
  have hrecords : left.recordsByVariant = ∅ := by
    refine Table.eq_empty fun v => ?_
    rw [Option.eq_none_iff_forall_ne_some]
    intro record hrecord
    obtain ⟨hrecord', hnot⟩ := hrest v record hrecord
    obtain ⟨call, hcall, hurl⟩ := hnamed v record hrecord'
    exact hnot call hcall hurl.symm
  have hurls : left.variantByUrl = ∅ := by
    refine Table.eq_empty fun url => ?_
    rw [Option.eq_none_iff_forall_ne_some]
    intro v hv
    obtain ⟨record, hrecord, -⟩ := hi.byUrl url v hv
    rw [hrecords] at hrecord
    cases hrecord
  have hhashes : left.hashesByVariant = ∅ := by
    refine Table.eq_empty fun v => ?_
    rw [Option.eq_none_iff_forall_ne_some]
    intro hash hhash
    have hsome := hi.hashed v hash hhash
    rw [hrecords] at hsome
    cases hsome
  refine ⟨left, hleft, hrecords, hurls, hhashes, ?_⟩
  have haccounted := hb.accounted
  rw [Session.temporaryBytes, hrecords] at haccounted
  simpa [Table.total] using haccounted

/-- The test that no URL is registered twice. -/
def urlFree (P : Platform Url) (s : Store Url) (c : StoreCall Url) : Bool :=
  match c.registers P with
  | none => true
  | some (sessionRef, record) =>
      (s.sessions.lookup sessionRef).all fun session =>
        (session.variantByUrl.lookup record.url).isNone

theorem admits_of_urlFree {P : Platform Url} {s : Store Url} {c : StoreCall Url}
    (h : urlFree P s c = true) : s.Admits P FreshUrl c := by
  intro ref record session hregisters hsession
  unfold urlFree at h
  rw [hregisters] at h
  simp only [hsession, Option.all_some, Option.isNone_iff_eq_none] at h
  exact h

/-- Two files, of which one is charged and hashed, are released. -/
theorem prepared_files_releasable_two :
    ∃ s : Store String, Run (Store.step .plain) (Store.Admits .plain FreshUrl) {} s ∧
      ∃ session, s.sessions.lookup "t" = some session ∧ Indexed session ∧
        session.reservedBytes = 50 ∧ session.hashesByVariant.keys = ["v"] ∧
        ∃ left, (s.releaseAll .plain "t" [("a", 0), ("b", 0)]).sessions.lookup "t" = some left ∧
          left.recordsByVariant = ∅ ∧ left.variantByUrl = ∅ ∧ left.hashesByVariant = ∅ ∧
          left.reservedBytes = 0 := by
  obtain ⟨s, hrun, htest⟩ := Run.exists_of_exec (Store.step .plain)
    (P := Store.Admits .plain FreshUrl) (urlFree .plain)
    (fun s =>
      ((s.sessions.lookup "t").any fun session => session.reservedBytes == 50 &&
        session.hashesByVariant.keys == ["v"] &&
        session.recordsByVariant.entries.all fun e => e.2.url == "a" || e.2.url == "b") &&
      ((s.releaseAll .plain "t" [("a", 0), ("b", 0)]).sessions.lookup "t").all fun left =>
        left.partialTotal == 0) {}
    [.begin_ "t" none,
      .registerPreparedFile "t" "v" "a" 50 true .photoResource none
        (some ⟨some true, some 50, some 1⟩) 0,
      .registerPreparedFile "t" "w" "b" 7 false .videoResource none
        (some ⟨some true, some 7, some 2⟩) 0,
      .cacheHash "t" "v" "0f"]
    (fun _ _ h => admits_of_urlFree h) (by decide)
  rw [Bool.and_eq_true] at htest
  obtain ⟨hany, hcharged⟩ := htest
  obtain ⟨session, hsession, htest⟩ := (Option.any_eq_true _ _).mp hany
  simp only [Bool.and_eq_true, beq_iff_eq, List.all_eq_true, Bool.or_eq_true] at htest
  obtain ⟨⟨hreserved, hhashed⟩, hurls⟩ := htest
  obtain ⟨hindexed, hreleases⟩ := prepared_files_releasable hrun hsession
  obtain ⟨left, hleft, hrecords, hmappings, hhashes, hcharge⟩ :=
    hreleases [("a", 0), ("b", 0)] (by
      intro v record hrecord
      rcases hurls ⟨v, record⟩ (AList.mem_lookup_iff.mp hrecord) with hurl | hurl
      · exact ⟨("a", 0), by decide, hurl.symm⟩
      · exact ⟨("b", 0), by decide, hurl.symm⟩)
  refine ⟨s, hrun, session, hsession, hindexed, hreserved, hhashed, left, hleft,
    hrecords, hmappings,
    hhashes, ?_⟩
  rw [hleft, Option.all_some, beq_iff_eq] at hcharged
  rw [hcharge, hcharged]

/-- **A URL registered under two variants**: it leads to the second record only; after a release
for each of the two records the first record and its charge are still there. -/
theorem url_registered_twice :
    ∃ s : Store String, Run (Store.step .plain) (fun _ _ => True) {} s ∧
      ∃ session, s.sessions.lookup "t" = some session ∧ ¬Indexed session ∧
        ∃ left, (s.releaseAll .plain "t" [("a", 0), ("a", 0)]).sessions.lookup "t" = some left ∧
          (left.recordsByVariant.lookup "v").isSome = true ∧ left.reservedBytes = 50 ∧
          left.partialTotal = 0 := by
  obtain ⟨s, hrun, htest⟩ := Run.exists_of_exec (Store.step .plain) (P := fun _ _ => True)
    (fun _ _ => true)
    (fun s =>
      ((s.sessions.lookup "t").any fun session =>
        ((session.recordsByVariant.lookup "v").any fun record => record.url == "a") &&
          session.variantByUrl.lookup "a" == some "w") &&
      ((s.releaseAll .plain "t" [("a", 0), ("a", 0)]).sessions.lookup "t").any fun left =>
        (left.recordsByVariant.lookup "v").isSome && left.reservedBytes == 50 &&
          left.partialTotal == 0)
    {}
    [.begin_ "t" none,
      .registerPreparedFile "t" "v" "a" 50 true .photoResource none
        (some ⟨some true, some 50, some 1⟩) 0,
      .registerPreparedFile "t" "w" "a" 50 true .photoResource none
        (some ⟨some true, some 50, some 1⟩) 0]
    (fun _ _ _ => trivial) (by decide)
  rw [Bool.and_eq_true, Option.any_eq_true_iff_get, Option.any_eq_true_iff_get] at htest
  obtain ⟨⟨hsome, hsession⟩, hleft, htwice⟩ := htest
  simp only [Bool.and_eq_true, beq_iff_eq] at hsession htwice
  refine ⟨s, hrun, _, (Option.some_get hsome).symm, fun hindexed => ?_, _,
    (Option.some_get hleft).symm, htwice.1.1, htwice.1.2, htwice.2⟩
  obtain ⟨hrecord, hurl⟩ := hsession
  cases hlookup : ((s.sessions.lookup "t").get hsome).recordsByVariant.lookup "v" with
  | none =>
    rw [hlookup] at hrecord
    cases hrecord
  | some record =>
    rw [hlookup, Option.any_some, beq_iff_eq] at hrecord
    have hv := hindexed.byVariant "v" record hlookup
    rw [hrecord, hurl] at hv
    exact absurd hv (by decide)

end Preparation

end LocalMediaTransfer
