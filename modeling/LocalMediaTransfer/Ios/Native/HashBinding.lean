import LocalMediaTransfer.Ios.Native.PreparationIndexes
import LocalMediaTransfer.Ios.Native.PreparedFileHasher

/-!
# What a reported hash is bound to

The hash that `hashOne` reports for a request should be that of the file registered with the
request's URL and size, in the state that it was registered in, at some moment of the call
(`Moment.binds`).

* `SessionTold`, `HashInv` — every record tells of a state that its file was in, and every cached
  hash is that of this state.
* `Core`, `HashRely`, `HashGuar` — what a thread relies on: its notes stay, the past only grows.
* `prepared_hash_bound` — **the reported hash is bound to its request**, when the cached hash is
  only used for the registered file and only stored while the record is the one that was hashed.
* `cached_hash_unbound` — a cached hash is reported for another file.
-/

set_option autoImplicit false

namespace LocalMediaTransfer

namespace Preparation

open Lib

variable {θ Url : Type} [DecidableEq θ] [DecidableEq Url] {P : Platform Url}
  {digest : List UInt8 → String}

/-! ## Statements -/

/-- At this moment the variant is registered with the URL and the size of the request, its file is
in the state it was registered in, and the hash is that of the content. -/
def Moment.binds (P : Platform Url) (digest : List UInt8 → String) (m : Moment Url)
    (sessionRef : String) (request : PreparedHashRequest) (hash : String) : Bool :=
  (m.store.sessions.lookup sessionRef).any fun session =>
    (session.recordsByVariant.lookup request.variantId).any fun record =>
      decide (record.url = P.standardizedFileURL (P.fileUrl request.uri)) &&
        record.sizeBytes == request.expectedSizeBytes &&
        (m.files.current record.url).any fun f =>
          f.stamp == (record.sizeBytes, record.modificationDate) && digest f.content == hash

/-- A cached hash is asked for with the URL and the size of the registered record, whose file has
the size and the date it was registered with. -/
def CacheFits (P : Platform Url) (s : HashWorld θ Url) (sessionRef : String)
    (request : PreparedHashRequest) : Prop :=
  ∀ session, s.store.sessions.lookup sessionRef = some session →
    (session.hashesByVariant.lookup request.variantId).isSome →
    ∃ record f, session.recordsByVariant.lookup request.variantId = some record ∧
      record.url = P.standardizedFileURL (P.fileUrl request.uri) ∧
      record.sizeBytes = request.expectedSizeBytes ∧ s.files.current record.url = some f ∧
      f.stamp = (record.sizeBytes, record.modificationDate)

/-- The record that a hash is stored for is the one that was hashed. -/
def StillRegistered (s : HashWorld θ Url) (sessionRef : String)
    (snapshot : PreparedFileSnapshot Url) : Prop :=
  ∀ session record, s.store.sessions.lookup sessionRef = some session →
    session.cancelled = false →
    session.recordsByVariant.lookup snapshot.variantId = some record →
    record.url = snapshot.url ∧ record.sizeBytes = snapshot.sizeBytes ∧
      record.modificationDate = snapshot.modificationDate

/-- The condition on the calls of the threads. -/
def HashAllowed (P : Platform Url) (s : HashWorld θ Url) :
    HashCall Url → HashDecision → Prop
  | .cachedHash ref request, _ => CacheFits P s ref request
  | .cacheHash ref snapshot _, _ => StillRegistered s ref snapshot
  | _, _ => True

/-- A changed file gets a size and a date that it never had together. -/
def ChangesStamp (s : Pool (HashCalls Url) θ (HashWorld θ Url)) : Disturbance Url → Prop
  | .file url (some f) => f.stamp ∉ s.world.files.stamps url
  | _ => True

/-! ## The invariant -/

/-- What a session's records and hashes tell of the files. -/
structure SessionTold (digest : List UInt8 → String) (files : Files Url) (session : Session Url) :
    Prop where
  known : ∀ v record, session.recordsByVariant.lookup v = some record →
    (record.sizeBytes, record.modificationDate) ∈ files.stamps record.url
  told : ∀ v hash, session.hashesByVariant.lookup v = some hash →
    ∃ record f, session.recordsByVariant.lookup v = some record ∧ some f ∈ files record.url ∧
      f.stamp = (record.sizeBytes, record.modificationDate) ∧ digest f.content = hash

/-- The report of a hash names a moment of its call at which the hash was bound to the request. -/
def Reported (P : Platform Url) (digest : List UInt8 → String) (past : List (Moment Url))
    (r : HashReport) : Prop :=
  ∀ hash, r.result.sha256 = some hash → ∃ i m, r.began ≤ i ∧ i < r.ended ∧ past[i]? = some m ∧
    m.binds P digest r.sessionRef r.request hash = true

structure HashInv (P : Platform Url) (digest : List UInt8 → String) (s : HashWorld θ Url) :
    Prop where
  distinct : ∀ url, (s.files.stamps url).Nodup
  told : s.store.All (SessionTold digest s.files)
  reported : ∀ r ∈ s.reports, Reported P digest s.past r

/-- What the store's calls keep; a hash may be cached for the record it is the hash of. -/
theorem sessionTold_kept (files : Files Url) :
    KeptBy P (fun _ record => (record.sizeBytes, record.modificationDate) ∈ files.stamps record.url)
      (fun session v hash => session.cancelled = false → ∀ record,
        session.recordsByVariant.lookup v = some record → ∃ f, some f ∈ files record.url ∧
          f.stamp = (record.sizeBytes, record.modificationDate) ∧ digest f.content = hash)
      (SessionTold digest files) where
  fresh _ := ⟨fun _ _ h => (nomatch h), fun _ _ h => (nomatch h)⟩
  cancel _ h := ⟨h.known, h.told⟩
  operations _ _ h := ⟨h.known, h.told⟩
  register session record session' h hadmits hreg := by
    obtain ⟨hfree, charged, rfl, hrecords, -, hhashes⟩ := register_cases hreg
    have hlookup : ∀ v, v ≠ record.variantId →
        (charged.insertRecord record).recordsByVariant.lookup v =
          session.recordsByVariant.lookup v := by
      intro v hv
      rw [← hrecords]
      exact AList.lookup_insert_ne hv
    refine ⟨fun v other hother => ?_, fun v hash hhash => ?_⟩
    · by_cases hv : v = record.variantId
      · subst hv
        obtain rfl : record = other := by simpa [Session.insertRecord] using hother
        exact hadmits
      · rw [hlookup v hv] at hother
        exact h.known v other hother
    · change charged.hashesByVariant.lookup v = some hash at hhash
      rw [hhashes] at hhash
      obtain ⟨other, f, hother, hf⟩ := h.told v hash hhash
      have hv : v ≠ record.variantId := by
        rintro rfl
        rw [hfree] at hother
        cases hother
      exact ⟨other, f, (hlookup v hv).trans hother, hf⟩
  reserve session url bytes session' h hreserve := by
    unfold Session.reserveTemporaryChunk at hreserve
    split at hreserve
    · cases hreserve
    · split at hreserve
      · cases hreserve
        exact ⟨h.known, h.told⟩
      · cases hreserve
  discard _ _ h := ⟨h.known, h.told⟩
  release session url record session' h hrelease := by
    obtain ⟨v, -, -, rfl⟩ := release_cases hrelease
    have hrecords : ∀ w other, (session.recordsByVariant.erase v).lookup w = some other →
        w ≠ v ∧ session.recordsByVariant.lookup w = some other := by
      intro w other hother
      have hw : w ≠ v := by
        rintro rfl
        simp at hother
      exact ⟨hw, by rwa [AList.lookup_erase_ne hw] at hother⟩
    refine ⟨fun w other hother => h.known w other (hrecords w other hother).2, ?_⟩
    intro w hash hhash
    change (session.hashesByVariant.erase v).lookup w = some hash at hhash
    have hw : w ≠ v := by
      rintro rfl
      simp at hhash
    rw [AList.lookup_erase_ne hw] at hhash
    obtain ⟨other, f, hother, hf⟩ := h.told w hash hhash
    refine ⟨other, f, ?_, hf⟩
    change (session.recordsByVariant.erase v).lookup w = some other
    rwa [AList.lookup_erase_ne hw]
  cacheHash session v hash h hhash := by
    unfold Session.cacheHash
    split
    · rename_i hregistered
      simp only [Bool.and_eq_true, Bool.not_eq_true', Option.isSome_iff_exists] at hregistered
      obtain ⟨⟨record, hrecord⟩, hcancelled⟩ := hregistered
      refine ⟨h.known, fun w other hother => ?_⟩
      by_cases hw : w = v
      · subst hw
        obtain rfl : hash = other := by simpa using hother
        obtain ⟨f, hf⟩ := hhash hcancelled record hrecord
        exact ⟨record, f, hrecord, hf⟩
      · exact h.told w other (by simpa [AList.lookup_insert_ne hw] using hother)
    · exact h

/-! ## Interference -/

/-- What every step keeps for the threads that do not make it. -/
structure HashCore (t : θ) (s s' : HashWorld θ Url) : Prop where
  began : s'.began t = s.began t
  past : s.past <+: s'.past
  files : ∀ url, s.files url <:+ s'.files url

def HashRely (P : Platform Url) (digest : List UInt8 → String) (t : θ) (s s' : HashWorld θ Url) :
    Prop :=
  (HashInv P digest s → HashInv P digest s') ∧ HashCore t s s'

def HashGuar (P : Platform Url) (digest : List UInt8 → String) (t : θ) (s s' : HashWorld θ Url) :
    Prop :=
  (HashInv P digest s → HashInv P digest s') ∧ ∀ u, u ≠ t → HashCore u s s'

omit [DecidableEq θ] [DecidableEq Url] in
theorem HashCore.refl (t : θ) (s : HashWorld θ Url) : HashCore t s s :=
  ⟨rfl, List.prefix_refl _, fun _ => List.suffix_refl _⟩

omit [DecidableEq θ] [DecidableEq Url] in
theorem HashCore.trans {t : θ} {s u v : HashWorld θ Url} (h₁ : HashCore t s u)
    (h₂ : HashCore t u v) : HashCore t s v :=
  ⟨h₂.began.trans h₁.began, h₁.past.trans h₂.past, fun url => (h₁.files url).trans (h₂.files url)⟩

omit [DecidableEq Url] in
/-- The present state of a file is the one a stamp was taken from, when it still has the stamp:
since then the file has not changed. -/
theorem eq_of_stamp {files files' : Files Url} {url : Url} {f : PreparedFile}
    (hsuffix : files url <:+ files' url) (hdistinct : (files'.stamps url).Nodup)
    (hcurrent : files'.current url = some f) (hstamp : f.stamp ∈ files.stamps url) :
    files url = files' url := by
  obtain ⟨newer, hnewer⟩ := hsuffix
  cases newer with
  | nil => exact hnewer
  | cons state rest =>
      have hstate : state = some f := by
        simpa [Files.current, ← hnewer] using hcurrent
      have hstamps : files'.stamps url =
          f.stamp :: (rest ++ files url).filterMap fun state => state.map PreparedFile.stamp := by
        rw [Files.stamps, ← hnewer, List.cons_append, List.filterMap_cons, hstate]
        rfl
      rw [hstamps, List.nodup_cons, List.filterMap_append] at hdistinct
      exact absurd (List.mem_append_right _ hstamp) hdistinct.1

omit [DecidableEq Url] in
/-- An earlier state with the stamp of the present one is the present one. -/
theorem eq_current_of_stamp {files : Files Url} {url : Url} {f g : PreparedFile}
    (hdistinct : (files.stamps url).Nodup) (hcurrent : files.current url = some f)
    (hg : some g ∈ files url) (hstamp : g.stamp = f.stamp) : g = f := by
  unfold Files.current at hcurrent
  unfold Files.stamps at hdistinct
  cases hfiles : files url with
  | nil => simp [hfiles] at hcurrent
  | cons state rest =>
      rw [hfiles] at hcurrent hdistinct hg
      obtain rfl : state = some f := by simpa using hcurrent
      rcases List.mem_cons.mp hg with heq | hold
      · exact Option.some.inj heq
      · have hmem : f.stamp ∈ rest.filterMap fun state => state.map PreparedFile.stamp :=
          List.mem_filterMap.mpr ⟨some g, hold, by rw [Option.map_some, hstamp]⟩
        exact absurd hmem (List.nodup_cons.mp hdistinct).1

omit [DecidableEq Url] in
theorem mem_of_current {files : Files Url} {url : Url} {f : PreparedFile}
    (h : files.current url = some f) : some f ∈ files url := by
  unfold Files.current at h
  cases hfiles : files url with
  | nil => simp [hfiles] at h
  | cons state rest =>
      rw [hfiles] at h
      obtain rfl : state = some f := by simpa using h
      exact List.mem_cons_self

omit [DecidableEq Url] in
theorem stamp_mem {files : Files Url} {url : Url} {f : PreparedFile} (h : some f ∈ files url) :
    f.stamp ∈ files.stamps url :=
  List.mem_filterMap.mpr ⟨some f, h, rfl⟩

omit [DecidableEq Url] in
theorem getElem?_of_prefix {past past' : List (Moment Url)} (h : past <+: past') {i : Nat}
    {m : Moment Url} (hm : past[i]? = some m) : past'[i]? = some m := by
  obtain ⟨rest, rfl⟩ := h
  rwa [List.getElem?_append_left (List.getElem?_eq_some_iff.mp hm).1]

theorem Reported.mono {past past' : List (Moment Url)} {r : HashReport}
    (h : Reported P digest past r) (hpast : past <+: past') : Reported P digest past' r := by
  intro hash hhash
  obtain ⟨i, m, hbegan, hended, hm, hbinds⟩ := h hash hhash
  exact ⟨i, m, hbegan, hended, getElem?_of_prefix hpast hm, hbinds⟩

omit [DecidableEq θ] in
/-- Only moments were added to the world. -/
theorem HashInv.of_past {s s' : HashWorld θ Url} (h : HashInv P digest s)
    (hstore : s'.store = s.store) (hfiles : s'.files = s.files) (hreports : s'.reports = s.reports)
    (hpast : s.past <+: s'.past) : HashInv P digest s' where
  distinct := by
    rw [hfiles]
    exact h.distinct
  told := by
    rw [hstore, hfiles]
    exact h.told
  reported r hr := (h.reported r (hreports ▸ hr)).mono hpast

/-! ## The rules -/

/-- An assertion of thread `t` that the others keep. -/
def Settles (t : θ) (A : HashWorld θ Url → Prop) : Prop :=
  ∀ s s', HashCore t s s' → A s → A s'

/-- From a sound world that meets `A` thread `t` may run the program, and ends with `Q`. -/
def Does {α : Type} (P : Platform Url) (digest : List UInt8 → String) (t : θ)
    (A : HashWorld θ Url → Prop) (p : Prog (HashCalls Url) α)
    (Q : α → HashWorld θ Url → Prop) : Prop :=
  Triple ((hashing θ P digest).Performs (HashAllowed P) t) (HashRely P digest t)
    (HashGuar P digest t) (fun s => HashInv P digest s ∧ A s) p
    (fun a s => HashInv P digest s ∧ Q a s)

section Rules

variable {t : θ} {A : HashWorld θ Url → Prop}

omit [DecidableEq θ] in
theorem Settles.stable (h : Settles t A) :
    Stable (HashRely P digest t) fun s => HashInv P digest s ∧ A s :=
  fun s s' hrely hs => ⟨hrely.1 hs.1, h s s' hrely.2 hs.2⟩

theorem does_bind {α β : Type} {R : α → HashWorld θ Url → Prop} {Q : β → HashWorld θ Url → Prop}
    {p : Prog (HashCalls Url) α} {f : α → Prog (HashCalls Url) β} (h : Does P digest t A p R)
    (hf : ∀ a, Does P digest t (R a) (f a) Q) : Does P digest t A (p >>= f) Q :=
  Triple.bind (fun s => ⟨id, .refl t s⟩) h hf

theorem does_pure {α : Type} {Q : α → HashWorld θ Url → Prop} {a : α} (hQ : Settles t (Q a))
    (h : ∀ s, A s → Q a s) : Does P digest t A (pure a) Q :=
  Triple.pure hQ.stable fun s hs => ⟨hs.1, h s hs.2⟩

theorem does_exists {ι α : Type} {B : ι → HashWorld θ Url → Prop} {Q : α → HashWorld θ Url → Prop}
    {p : Prog (HashCalls Url) α} (h : ∀ i, Does P digest t (B i) p Q) :
    Does P digest t (fun s => ∃ i, B i s) p Q := by
  rintro s ⟨hinv, i, hs⟩
  exact h i s ⟨hinv, hs⟩

theorem does_fact {α : Type} {fact : Prop} {Q : α → HashWorld θ Url → Prop}
    {p : Prog (HashCalls Url) α} (h : fact → Does P digest t A p Q) :
    Does P digest t (fun s => fact ∧ A s) p Q := by
  rintro s ⟨hinv, hfact, hs⟩
  exact h hfact s ⟨hinv, hs⟩

/-- One call. -/
theorem does_ask {c : HashCall Url} {Q : c.Answer → HashWorld θ Url → Prop}
    (hA : Settles t A) (hQ : ∀ x, Settles t (Q x))
    (hstep : ∀ s d, HashInv P digest s → A s → HashAllowed P s c d →
      HashGuar P digest t s (s.tick.answer P t d c).2 ∧
        Q (s.tick.answer P t d c).1 (s.tick.answer P t d c).2) :
    Does P digest t A (Prog.ask (J := HashCalls Url) c) Q := by
  refine Triple.ask (J := HashCalls Url) (c := c) (Q := fun x s => HashInv P digest s ∧ Q x s)
    hA.stable (fun x => (hQ x).stable) ?_
  rintro s x s' ⟨hinv, hs⟩ ⟨d, hallowed, hperform⟩
  obtain ⟨rfl, rfl⟩ : (s.tick.answer P t d c).1 = x ∧ (s.tick.answer P t d c).2 = s' := by
    have heq : s.tick.answer P t d c = (x, s') := Option.some.inj hperform
    rw [heq]
    exact ⟨rfl, rfl⟩
  obtain ⟨hguar, hq⟩ := hstep s d hinv hs hallowed
  exact ⟨hguar, hguar.1 hinv, hq⟩

omit [DecidableEq θ] in
theorem guar_tick (s : HashWorld θ Url) : HashGuar P digest t s s.tick :=
  ⟨fun h => h.of_past rfl rfl rfl (List.prefix_append _ _), fun _ _ =>
    ⟨rfl, List.prefix_append _ _, fun _ => List.suffix_refl _⟩⟩

/-- A call that changes nothing. -/
theorem does_quiet {c : HashCall Url} {Q : c.Answer → HashWorld θ Url → Prop}
    (hquiet : ∀ (s : HashWorld θ Url) d, (s.answer P t d c).2 = s)
    (hA : Settles t A) (hQ : ∀ x, Settles t (Q x))
    (hstep : ∀ s d, HashInv P digest s → A s → HashAllowed P s c d →
      Q (s.tick.answer P t d c).1 s.tick) :
    Does P digest t A (Prog.ask (J := HashCalls Url) c) Q := by
  apply does_ask hA hQ
  intro s d hinv hs hallowed
  rw [hquiet s.tick d]
  exact ⟨guar_tick s, hstep s d hinv hs hallowed⟩

end Rules

/-! ## The file of a snapshot -/

/-- The record of a snapshot was registered for the request at this moment. -/
structure Owns (P : Platform Url) (m : Moment Url) (sessionRef : String)
    (request : PreparedHashRequest) (snapshot : PreparedFileSnapshot Url)
    (session : Session Url) (record : PreparedRecord Url) : Prop where
  found : m.store.sessions.lookup sessionRef = some session
  registered : session.recordsByVariant.lookup request.variantId = some record
  variant : snapshot.variantId = request.variantId
  requested : record.url = P.standardizedFileURL (P.fileUrl request.uri)
  expected : record.sizeBytes = request.expectedSizeBytes
  url : snapshot.url = record.url
  size : snapshot.sizeBytes = record.sizeBytes
  date : snapshot.modificationDate = record.modificationDate
  known : (record.sizeBytes, record.modificationDate) ∈ m.files.stamps record.url

/-- Moment number `i`, in a call of thread `t` that began at moment `n`, was `m`, and the file has
only moved on since. -/
structure Took (t : θ) (n i : Nat) (m : Moment Url) (url : Url) (s : HashWorld θ Url) : Prop where
  began : s.began t = n
  since : n ≤ i
  past : s.past[i]? = some m
  files : m.files url <:+ s.files url

omit [DecidableEq θ] [DecidableEq Url] in
theorem took_settles {t : θ} {n i : Nat} {m : Moment Url} {url : Url} :
    Settles t (Took t n i m url) := fun _ _ hcore h =>
  ⟨hcore.began.trans h.began, h.since, getElem?_of_prefix hcore.past h.past,
    h.files.trans (hcore.files url)⟩

omit [DecidableEq θ] [DecidableEq Url] in
theorem Took.tick {t : θ} {n i : Nat} {m : Moment Url} {url : Url} {s : HashWorld θ Url}
    (h : Took t n i m url s) : Took t n i m url s.tick :=
  ⟨h.began, h.since, getElem?_of_prefix (List.prefix_append _ _) h.past, h.files⟩

/-- The file is as it was at the moment `m`. -/
def Same (m : Moment Url) (url : Url) (s : HashWorld θ Url) : Prop := s.files url = m.files url

omit [DecidableEq θ] [DecidableEq Url] in
/-- What holds while the file is as it was keeps holding while it is. -/
theorem Took.same_settles {t : θ} {n i : Nat} {m : Moment Url} {url : Url} {fact : Prop}
    {s s' : HashWorld θ Url} (h : Took t n i m url s) (hcore : HashCore t s s')
    (hfact : Same m url s → fact) : Same m url s' → fact := by
  intro hsame
  apply hfact
  have hlater := hcore.files url
  rw [Same] at hsame
  rw [hsame] at hlater
  exact hlater.eq_of_length_le h.files.length_le

section Loop

variable {t : θ} {n i : Nat} {m : Moment Url} {snapshot : PreparedFileSnapshot Url}
  {f : PreparedFile}

/-- The file was opened after the moment `m`, and what was read of it is from its beginning, unless
the file has changed. -/
structure Reading (t : θ) (n i : Nat) (m : Moment Url) (url : Url) (f : PreparedFile)
    (opened : Nat) (hashed : List UInt8) (s : HashWorld θ Url) : Prop where
  took : Took t n i m url s
  after : (m.files url).length ≤ opened
  before : opened ≤ (s.files url).length
  read : Same m url s → hashed <+: f.content

omit [DecidableEq θ] [DecidableEq Url] in
theorem reading_settles {url : Url} {opened : Nat} {hashed : List UInt8} :
    Settles t (Reading t n i m url f opened hashed) :=
  fun s s' hcore h => ⟨took_settles s s' hcore h.took, h.after,
    h.before.trans (hcore.files url).length_le, h.took.same_settles hcore h.read⟩

/-- What the loop leaves. -/
def ReadResult (t : θ) (n i : Nat) (m : Moment Url) (url : Url) (f : PreparedFile) :
    Except (String × Nat) (List UInt8) → HashWorld θ Url → Prop
  | .error _, s => Took t n i m url s
  | .ok hashed, s => Took t n i m url s ∧ (Same m url s → hashed = f.content)

omit [DecidableEq θ] [DecidableEq Url] in
theorem readResult_settles {url : Url} {x : Except (String × Nat) (List UInt8)} :
    Settles t (ReadResult t n i m url f x) := by
  cases x with
  | error e => exact took_settles
  | ok hashed =>
      exact fun s s' hcore h =>
        ⟨took_settles s s' hcore h.1, h.1.same_settles hcore h.2⟩

omit [DecidableEq θ] [DecidableEq Url] in
/-- A read of a file that has not changed returns what follows, at least one byte of it. -/
theorem readFile_same {s : HashWorld θ Url} {url : Url} {opened : Nat} {hashed : List UInt8}
    {d : HashDecision} (hcurrent : m.files.current url = some f)
    (h : Reading t n i m url f opened hashed s) (hsame : Same m url s) :
    hashed ++ s.readFile d url opened hashed.length <+: f.content ∧
      (s.readFile d url opened hashed.length = [] → hashed = f.content) := by
  have hopened : (s.files url).length = opened := by
    have hlow := h.after
    have hhigh := h.before
    rw [← hsame] at hlow
    omega
  have hnow : s.files.current url = some f := by
    unfold Files.current at hcurrent ⊢
    rw [hsame]
    exact hcurrent
  obtain ⟨rest, hrest⟩ := h.read hsame
  have hread : s.readFile d url opened hashed.length =
      rest.take (min (d.count + 1) hashChunkSize) := by
    unfold HashWorld.readFile
    rw [if_pos hopened, hnow]
    simp only
    rw [← hrest, List.drop_left]
  rw [hread]
  constructor
  · rw [← hrest]
    exact (List.prefix_append_right_inj hashed).mpr (List.take_prefix _ _)
  · intro hnil
    have hpos : 0 < min (d.count + 1) hashChunkSize := by
      simp [hashChunkSize]
    rcases List.take_eq_nil_iff.mp hnil with hzero | hrest'
    · omega
    · rw [← hrest, hrest', List.append_nil]

theorem does_readAll (ref : String) (hcurrent : m.files.current snapshot.url = some f)
    (opened : Nat) (fuel : Nat) :
    ∀ hashed, Does P digest t (Reading t n i m snapshot.url f opened hashed)
      (readAll ref snapshot opened fuel hashed) (ReadResult t n i m snapshot.url f) := by
  induction fuel with
  | zero => exact fun hashed => does_pure readResult_settles fun s h => h.took
  | succ fuel ih =>
      intro hashed
      unfold readAll
      refine does_bind (R := fun _ => Reading t n i m snapshot.url f opened hashed)
        (does_quiet (fun _ _ => rfl) reading_settles (fun _ => reading_settles) ?_) ?_
      · intro s d _ h _
        exact ⟨h.took.tick, h.after, h.before, h.read⟩
      · intro cancelled
        split
        · exact does_pure readResult_settles fun s h => h.took
        · refine does_bind (R := fun x s => Took t n i m snapshot.url s ∧ ∀ data, x = some data →
            Reading t n i m snapshot.url f opened (hashed ++ data) s ∧
              (data = [] → Same m snapshot.url s → hashed = f.content))
            (does_quiet (fun _ _ => rfl) reading_settles ?_ ?_) ?_
          · intro x s s' hcore h
            refine ⟨took_settles s s' hcore h.1, fun data hdata => ?_⟩
            obtain ⟨hreading, hend⟩ := h.2 data hdata
            exact ⟨reading_settles s s' hcore hreading, fun hnil =>
              h.1.same_settles hcore (hend hnil)⟩
          · intro s d _ h _
            refine ⟨h.took.tick, fun data hdata => ?_⟩
            have htick : Reading t n i m snapshot.url f opened hashed s.tick :=
              ⟨h.took.tick, h.after, h.before, h.read⟩
            simp only [HashWorld.answer] at hdata
            split at hdata
            · cases hdata
            · obtain rfl := Option.some.inj hdata
              exact ⟨⟨htick.took, htick.after, htick.before, fun hsame =>
                (readFile_same hcurrent htick hsame).1⟩, fun hnil hsame =>
                (readFile_same hcurrent htick hsame).2 hnil⟩
          · intro x
            cases x with
            | none => exact does_pure readResult_settles fun s h => h.1
            | some data =>
                cases data with
                | nil =>
                    exact does_pure readResult_settles fun s h => ⟨h.1, (h.2 [] rfl).2 rfl⟩
                | cons byte rest =>
                    simp only
                    split
                    · exact does_pure readResult_settles fun s h => h.1
                    · exact Triple.conseq (ih (hashed ++ byte :: rest))
                        (fun s h => ⟨h.1, (h.2.2 _ rfl).1⟩) fun _ _ h => h

end Loop

/-! ## The rest of the program -/

/-- Since moment `n`, at which the call of thread `t` began, the hash of the result was bound to
the request at some moment. -/
structure Bound (P : Platform Url) (digest : List UInt8 → String) (t : θ) (n : Nat)
    (sessionRef : String) (request : PreparedHashRequest) (r : PreparedHashResult)
    (s : HashWorld θ Url) : Prop where
  began : s.began t = n
  hash : ∀ hash, r.sha256 = some hash → ∃ i m, n ≤ i ∧ s.past[i]? = some m ∧
    m.binds P digest sessionRef request hash = true

section Rest

variable {t : θ} {n i : Nat} {m : Moment Url} {ref : String} {request : PreparedHashRequest}
  {snapshot : PreparedFileSnapshot Url} {session : Session Url} {record : PreparedRecord Url}
  {f : PreparedFile}

omit [DecidableEq θ] in
theorem bound_settles {r : PreparedHashResult} :
    Settles t (Bound P digest t n ref request r : HashWorld θ Url → Prop) := by
  intro s s' hcore h
  refine ⟨hcore.began.trans h.began, fun hash hhash => ?_⟩
  obtain ⟨i, m, hi, hm, hbinds⟩ := h.hash hash hhash
  exact ⟨i, m, hi, getElem?_of_prefix hcore.past hm, hbinds⟩

omit [DecidableEq θ] in
theorem bound_failure {s : HashWorld θ Url} {v code : String} {bytesRead : Nat}
    (h : s.began t = n) : Bound P digest t n ref request (.failure v code bytesRead) s :=
  ⟨h, fun _ hhash => nomatch hhash⟩

/-- The hash of the file's content at the moment of the snapshot is bound to the request. -/
theorem Owns.binds (h : Owns P m ref request snapshot session record)
    (hcurrent : m.files.current snapshot.url = some f)
    (hstamp : f.stamp = (snapshot.sizeBytes, snapshot.modificationDate)) :
    m.binds P digest ref request (digest f.content) = true := by
  rw [h.url] at hcurrent
  rw [h.size, h.date] at hstamp
  simp only [Moment.binds, h.found, h.registered, h.requested.symm, hcurrent, hstamp,
    Option.any_some, h.expected, decide_true, beq_self_eq_true, Bool.and_self]

omit [DecidableEq θ] in
/-- The hash is stored for the record that was hashed. -/
theorem guar_cacheHash {s : HashWorld θ Url} (hstill : StillRegistered s ref snapshot)
    (hf : some f ∈ s.files snapshot.url)
    (hstamp : f.stamp = (snapshot.sizeBytes, snapshot.modificationDate)) :
    HashGuar P digest t s
      { s.tick with store := s.store.cacheHash ref snapshot.variantId (digest f.content) } := by
  refine ⟨fun h => ⟨h.distinct, ?_, ?_⟩, fun _ _ => ?_⟩
  · refine perform_all_by (P := P) (c := .cacheHash ref snapshot.variantId (digest f.content))
      (sessionTold_kept s.files) h.told (fun _ _ _ hreg => nomatch hreg) ?_
    intro ref' v' hash' session hcall hsession hcancelled record hrecord
    cases hcall
    obtain ⟨hurl, hsize, hdate⟩ := hstill session record hsession hcancelled hrecord
    exact ⟨f, by rw [hurl]; exact hf, by rw [hsize, hdate]; exact hstamp, rfl⟩
  · exact fun r hr => (h.reported r hr).mono (List.prefix_append _ _)
  · exact ⟨rfl, List.prefix_append _ _, fun _ => List.suffix_refl _⟩

/-- What `resourceValues` answers, when it answers. -/
theorem answer_resourceValues {s : HashWorld θ Url} {d : HashDecision} {url : Url}
    {values : ResourceValues}
    (h : (s.answer P t d (.resourceValues url)).1 = some values) :
    ∃ g, s.files.current url = some g ∧ valuesOf d.isRegularFile g = values := by
  simp only [HashWorld.answer] at h
  split at h
  · cases h
  · exact Option.map_eq_some_iff.mp h

theorem does_finishHash {before : ResourceValues} {hashed : List UInt8} {regular : Option Bool}
    (hown : Owns P m ref request snapshot session record)
    (hcurrent : m.files.current snapshot.url = some f)
    (hstamp : f.stamp = (snapshot.sizeBytes, snapshot.modificationDate))
    (hbefore : valuesOf regular f = before) :
    Does P digest t (fun s => Took t n i m snapshot.url s ∧
        (Same m snapshot.url s → hashed = f.content))
      (finishHash digest ref request snapshot before hashed)
      (Bound P digest t n ref request) := by
  unfold finishHash
  split
  · exact does_pure bound_settles fun s h => bound_failure h.1.began
  · refine does_bind (R := fun x s => Took t n i m snapshot.url s ∧ ∀ after, x = some after →
        after.fileSize = before.fileSize →
        after.contentModificationDate = before.contentModificationDate → hashed = f.content)
      (does_quiet (fun _ _ => rfl) ?_ ?_ ?_) ?_
    · exact fun s s' hcore h => ⟨took_settles s s' hcore h.1, h.1.same_settles hcore h.2⟩
    · exact fun x s s' hcore h => ⟨took_settles s s' hcore h.1, h.2⟩
    · intro s d hinv h _
      refine ⟨h.1.tick, fun after hafter hsize hdate => h.2 ?_⟩
      obtain ⟨g, hg, rfl⟩ := answer_resourceValues hafter
      rw [← hbefore] at hsize hdate
      simp only [valuesOf, Option.some.injEq, Nat.cast_inj] at hsize hdate
      have hgf : g.stamp = f.stamp := Prod.ext hsize hdate
      exact (eq_of_stamp h.1.files (hinv.distinct _) hg
        (hgf ▸ stamp_mem (mem_of_current hcurrent))).symm
    · intro x
      cases x with
      | none => exact does_pure bound_settles fun s h => bound_failure h.1.began
      | some after =>
          simp only
          split
          · rename_i heq
            refine does_bind (R := fun _ s => Took t n i m snapshot.url s ∧ hashed = f.content)
              (does_ask ?_ ?_ ?_) ?_
            · exact fun s s' hcore h => ⟨took_settles s s' hcore h.1, h.2⟩
            · exact fun _ s s' hcore h => ⟨took_settles s s' hcore h.1, h.2⟩
            · intro s d _ h hallowed
              have hhashed : hashed = f.content := h.2 after rfl heq.1 heq.2
              subst hhashed
              have hmem : some f ∈ s.files snapshot.url :=
                h.1.files.subset (mem_of_current hcurrent)
              exact ⟨guar_cacheHash hallowed hmem hstamp,
                ⟨h.1.began, h.1.since, h.1.tick.past, h.1.files⟩, rfl⟩
            · intro _
              apply does_pure bound_settles
              rintro s ⟨htook, rfl⟩
              refine ⟨htook.began, fun hash hhash => ⟨i, m, htook.since, htook.past, ?_⟩⟩
              obtain rfl := Option.some.inj hhash
              exact hown.binds hcurrent hstamp
          · exact does_pure bound_settles fun s h => bound_failure h.1.began

theorem does_hashSnapshot (hown : Owns P m ref request snapshot session record) :
    Does P digest t (Took t n i m snapshot.url) (hashSnapshot digest ref request snapshot)
      (Bound P digest t n ref request) := by
  unfold hashSnapshot
  refine does_bind (R := fun x s => Took t n i m snapshot.url s ∧ ∀ before, x = some before →
      unchanged snapshot before = true → ∃ f regular, m.files.current snapshot.url = some f ∧
        f.stamp = (snapshot.sizeBytes, snapshot.modificationDate) ∧ valuesOf regular f = before)
    (does_quiet (fun _ _ => rfl) took_settles ?_ ?_) ?_
  · exact fun x s s' hcore h => ⟨took_settles s s' hcore h.1, h.2⟩
  · intro s d hinv h _
    refine ⟨h.tick, fun before hbefore hunchanged => ?_⟩
    obtain ⟨g, hg, rfl⟩ := answer_resourceValues hbefore
    simp only [unchanged, valuesOf, Bool.and_eq_true, beq_iff_eq, Option.some.injEq,
      Nat.cast_inj] at hunchanged
    have hstamp : g.stamp = (snapshot.sizeBytes, snapshot.modificationDate) :=
      Prod.ext hunchanged.1.2 hunchanged.2
    have hknown : g.stamp ∈ m.files.stamps snapshot.url := by
      rw [hstamp, hown.url, hown.size, hown.date]
      exact hown.known
    have hsame := eq_of_stamp h.files (hinv.distinct _) hg hknown
    refine ⟨g, d.isRegularFile, ?_, hstamp, rfl⟩
    unfold Files.current at hg ⊢
    rw [hsame]
    exact hg
  · intro x
    cases x with
    | none => exact does_pure bound_settles fun s h => bound_failure h.1.began
    | some before =>
        simp only
        split
        · rename_i hunchanged
          refine Triple.conseq (P := fun s => HashInv P digest s ∧
              ((∃ f regular, m.files.current snapshot.url = some f ∧
                f.stamp = (snapshot.sizeBytes, snapshot.modificationDate) ∧
                valuesOf regular f = before) ∧ Took t n i m snapshot.url s)) ?_
            (fun s h => ⟨h.1, h.2.2 before rfl hunchanged, h.2.1⟩) fun _ _ h => h
          apply does_fact
          rintro ⟨f, regular, hcurrent, hstamp, hbefore⟩
          refine does_bind (R := fun x s => Took t n i m snapshot.url s ∧ ∀ opened,
              x = some opened → Reading t n i m snapshot.url f opened [] s)
            (does_quiet (fun _ _ => rfl) took_settles ?_ ?_) ?_
          · exact fun x s s' hcore h => ⟨took_settles s s' hcore h.1, fun opened hopened =>
              reading_settles s s' hcore (h.2 opened hopened)⟩
          · intro s d _ h _
            refine ⟨h.tick, fun opened hopened => ?_⟩
            simp only [HashWorld.answer] at hopened
            split at hopened
            · cases hopened
            · obtain ⟨g, -, rfl⟩ := Option.map_eq_some_iff.mp hopened
              exact ⟨h.tick, h.files.length_le, le_rfl, fun _ => List.nil_prefix⟩
          · intro x
            cases x with
            | none => exact does_pure bound_settles fun s h => bound_failure h.1.began
            | some opened =>
                refine does_bind (R := ReadResult t n i m snapshot.url f) (Triple.conseq
                  (does_readAll ref hcurrent opened _ []) (fun s h => ⟨h.1, h.2.2 opened rfl⟩)
                  fun _ _ h => h) ?_
                intro read
                cases read with
                | error e => exact does_pure bound_settles fun s h => bound_failure h.began
                | ok hashed => exact does_finishHash hown hcurrent hstamp hbefore
        · exact does_pure bound_settles fun s h => bound_failure h.1.began

/-- The call of thread `t` began at moment `n`. -/
structure Since (t : θ) (n : Nat) (s : HashWorld θ Url) : Prop where
  began : s.began t = n
  le : n ≤ s.past.length

omit [DecidableEq θ] [DecidableEq Url] in
theorem since_settles : Settles t (Since t n : HashWorld θ Url → Prop) := fun _ _ hcore h =>
  ⟨hcore.began.trans h.began, h.le.trans hcore.past.length_le⟩

omit [DecidableEq θ] [DecidableEq Url] in
theorem Since.tick {s : HashWorld θ Url} (h : Since t n s) : Since t n s.tick :=
  ⟨h.began, h.le.trans (List.prefix_append _ _).length_le⟩

omit [DecidableEq θ] [DecidableEq Url] in
/-- The moment of a call. -/
theorem past_tick (s : HashWorld θ Url) :
    s.tick.past[s.past.length]? = some ⟨s.store, s.files⟩ := by
  simp [HashWorld.tick]

omit [DecidableEq θ] in
/-- A cached hash that fits the request is bound to it. -/
theorem binds_cached {s : HashWorld θ Url} {hash : String} (hinv : HashInv P digest s)
    (hfits : CacheFits P s ref request)
    (hcached : s.store.cachedHash ref request.variantId = some hash) :
    (⟨s.store, s.files⟩ : Moment Url).binds P digest ref request hash = true := by
  obtain ⟨session, hsession, hhash⟩ := Option.bind_eq_some_iff.mp hcached
  obtain ⟨record, f, hrecord, hurl, hsize, hcurrent, hstamp⟩ :=
    hfits session hsession (by rw [hhash]; rfl)
  obtain ⟨record', g, hrecord', hg, hstamp', hdigest⟩ :=
    (hinv.told ref session hsession).told request.variantId hash hhash
  obtain rfl : record' = record := Option.some.inj (hrecord'.symm.trans hrecord)
  obtain rfl : g = f := eq_current_of_stamp (hinv.distinct _) hcurrent hg
    (hstamp'.trans hstamp.symm)
  simp only [Moment.binds, hsession, hrecord, hurl.symm, hcurrent, hstamp, hdigest,
    Option.any_some, hsize, decide_true, beq_self_eq_true, Bool.and_self]

omit [DecidableEq θ] in
/-- A snapshot is of a record that is registered for the request. -/
theorem owns_of_snapshot {s : HashWorld θ Url} (hinv : HashInv P digest s)
    (h : s.store.snapshot P ref request.variantId request.uri request.expectedSizeBytes =
      some snapshot) :
    ∃ session record, Owns P ⟨s.store, s.files⟩ ref request snapshot session record := by
  obtain ⟨session, hsession, hsnapshot⟩ := Option.bind_eq_some_iff.mp h
  unfold Session.snapshot at hsnapshot
  split at hsnapshot
  · cases hsnapshot
  · rename_i record hrecord
    split at hsnapshot
    · rename_i hmatch
      simp only [Bool.and_eq_true, decide_eq_true_eq, beq_iff_eq] at hmatch
      obtain rfl := Option.some.inj hsnapshot
      exact ⟨session, record, hsession, hrecord, rfl, hmatch.1.2, hmatch.2, rfl, rfl, rfl,
        (hinv.told ref session hsession).known _ record hrecord⟩
    · cases hsnapshot

theorem does_hashOne : Does P digest t (Since t n) (hashOne Url digest ref request)
    (Bound P digest t n ref request) := by
  unfold hashOne
  refine does_bind (R := fun _ => Since t n) (does_quiet (fun _ _ => rfl) since_settles
    (fun _ => since_settles) fun s d _ h _ => h.tick) ?_
  intro cancelled
  split
  · exact does_pure bound_settles fun s h => bound_failure h.began
  refine does_bind (R := fun x s => Since t n s ∧ ∀ hash, x = some hash → ∃ i m, n ≤ i ∧
      s.past[i]? = some m ∧ m.binds P digest ref request hash = true)
    (does_quiet (fun _ _ => rfl) since_settles ?_ ?_) ?_
  · intro x s s' hcore h
    refine ⟨since_settles s s' hcore h.1, fun hash hhash => ?_⟩
    obtain ⟨i, m, hi, hm, hbinds⟩ := h.2 hash hhash
    exact ⟨i, m, hi, getElem?_of_prefix hcore.past hm, hbinds⟩
  · intro s d hinv h hallowed
    exact ⟨h.tick, fun hash hhash => ⟨s.past.length, _, h.le, past_tick s,
      binds_cached hinv hallowed hhash⟩⟩
  intro x
  cases x with
  | some cached =>
      apply does_pure bound_settles
      rintro s ⟨hsince, hcached⟩
      refine ⟨hsince.began, fun hash hhash => ?_⟩
      obtain rfl := Option.some.inj hhash
      exact hcached _ rfl
  | none =>
      refine does_bind (R := fun x s => Since t n s ∧ ∀ snapshot, x = some snapshot →
          ∃ i m, (∃ session record, Owns P m ref request snapshot session record) ∧
            Took t n i m snapshot.url s)
        (does_quiet (fun _ _ => rfl) ?_ ?_ ?_) ?_
      · exact fun s s' hcore h => ⟨since_settles s s' hcore h.1, fun _ hhash => nomatch hhash⟩
      · intro x s s' hcore h
        refine ⟨since_settles s s' hcore h.1, fun snapshot hsnapshot => ?_⟩
        obtain ⟨i, m, hown, htook⟩ := h.2 snapshot hsnapshot
        exact ⟨i, m, hown, took_settles s s' hcore htook⟩
      · intro s d hinv h _
        refine ⟨h.1.tick, fun snapshot hsnapshot => ?_⟩
        exact ⟨s.past.length, _, owns_of_snapshot hinv hsnapshot, h.1.began, h.1.le, past_tick s,
          List.suffix_refl _⟩
      · intro x
        cases x with
        | none => exact does_pure bound_settles fun s h => bound_failure h.1.began
        | some snapshot =>
            refine Triple.conseq (P := fun s => HashInv P digest s ∧ ∃ i m,
              (∃ session record, Owns P m ref request snapshot session record) ∧
                Took t n i m snapshot.url s) ?_ (fun s h => ⟨h.1, h.2.2 snapshot rfl⟩)
              fun _ _ h => h
            refine does_exists fun i => does_exists fun m => does_fact ?_
            rintro ⟨session, record, hown⟩
            exact does_hashSnapshot hown

theorem does_hashRequest : Does P digest t (fun _ => True) (hashRequest Url digest ref request)
    (fun _ _ => True) := by
  have htrue : Settles t (fun _ : HashWorld θ Url => True) := fun _ _ _ _ => trivial
  unfold hashRequest
  refine does_bind (R := fun _ s => ∃ n, Since t n s) (does_ask htrue ?_ ?_) ?_
  · exact fun _ s s' hcore ⟨n, h⟩ => ⟨n, since_settles s s' hcore h⟩
  · intro s d _ _ _
    refine ⟨⟨fun h => h.of_past rfl rfl rfl (List.prefix_append _ _), fun u hu => ?_⟩, ?_⟩
    · exact ⟨Function.update_of_ne hu _ _, List.prefix_append _ _, fun _ => List.suffix_refl _⟩
    · exact ⟨_, Function.update_self _ _ _, le_rfl⟩
  intro _
  refine does_exists fun n => ?_
  refine does_bind does_hashOne fun result => does_ask bound_settles (fun _ => htrue) ?_
  intro s d _ h _
  refine ⟨⟨fun hinv => ⟨hinv.distinct, hinv.told, ?_⟩, fun u _ => ?_⟩, trivial⟩
  · intro r hr
    rcases List.mem_append.mp hr with hold | hnew
    · exact (hinv.reported r hold).mono (List.prefix_append _ _)
    · obtain rfl := List.mem_singleton.mp hnew
      intro hash hhash
      obtain ⟨i, m, hi, hm, hbinds⟩ := h.hash hash hhash
      have hlt : i < s.past.length := (List.getElem?_eq_some_iff.mp hm).1
      refine ⟨i, m, h.began.le.trans hi, ?_, getElem?_of_prefix (List.prefix_append _ _) hm, hbinds⟩
      simp only [HashWorld.tick, List.length_append]
      omega
  · exact ⟨rfl, List.prefix_append _ _, fun _ => List.suffix_refl _⟩

end Rest

/-! ## The system -/

omit [DecidableEq θ] in
theorem files_push {s : HashWorld θ Url} {url other : Url} {state : Option PreparedFile} :
    s.files other <:+ Function.update s.files url (state :: s.files url) other := by
  by_cases h : other = url
  · subst h
    rw [Function.update_self]
    exact List.suffix_cons _ _
  · rw [Function.update_of_ne h]

omit [DecidableEq θ] in
/-- A change of a file that gives it a new size or date. -/
theorem inv_file {s : HashWorld θ Url} {url : Url} {state : Option PreparedFile}
    (h : HashInv P digest s) (hfresh : ∀ f, state = some f → f.stamp ∉ s.files.stamps url) :
    HashInv P digest { s with files := Function.update s.files url (state :: s.files url) } where
  distinct other := by
    by_cases heq : other = url
    · subst heq
      cases state with
      | none => simpa [Files.stamps] using h.distinct other
      | some f => simpa [Files.stamps] using ⟨by simpa [Files.stamps] using hfresh f rfl,
          h.distinct other⟩
    · simpa [Files.stamps, Function.update_of_ne heq] using h.distinct other
  told ref session hsession := by
    have hold := h.told ref session hsession
    refine ⟨fun v record hrecord => ?_, fun v hash hhash => ?_⟩
    · exact ((files_push (s := s)).filterMap _).subset (hold.known v record hrecord)
    · obtain ⟨record, f, hrecord, hf, hrest⟩ := hold.told v hash hhash
      exact ⟨record, f, hrecord, (files_push (s := s)).subset hf, hrest⟩
  reported := h.reported

omit [DecidableEq Url] in
/-- A confirmed size is that of a state of the file. -/
theorem stamp_of_values {files : Files Url} {url : Url} {values : ResourceValues} {size : Nat}
    (hstate : (files url).any (fun state =>
      state.any fun f => decide (valuesOf values.isRegularFile f = values)) = true)
    (hsize : Store.sizeConfirmed values size = true) :
    (size, values.contentModificationDate) ∈ files.stamps url := by
  obtain ⟨state, hmem, hstate⟩ := List.any_eq_true.mp hstate
  obtain ⟨f, rfl, hf⟩ := (Option.any_eq_true _ _).mp hstate
  have hvalues : valuesOf values.isRegularFile f = values := of_decide_eq_true hf
  have hfileSize : values.fileSize = some (f.content.length : Int) :=
    (congrArg ResourceValues.fileSize hvalues).symm
  have hdate : values.contentModificationDate = f.modificationDate :=
    (congrArg ResourceValues.contentModificationDate hvalues).symm
  simp only [Store.sizeConfirmed, hfileSize, Option.any_some, Bool.and_eq_true,
    decide_eq_true_eq, Int.toNat_natCast] at hsize
  have hstamp : f.stamp = (size, values.contentModificationDate) := by
    rw [hdate]
    exact Prod.ext hsize.2.2 rfl
  rw [← hstamp]
  exact stamp_mem hmem

omit [DecidableEq θ] in
/-- Another call of the store. -/
theorem inv_store {s : HashWorld θ Url} {c : StoreCall Url} (h : HashInv P digest s)
    (hpossible : c.possible P s.files = true) :
    HashInv P digest { s with store := (s.store.perform P c).2 } where
  distinct := h.distinct
  told := by
    cases hthrows : (s.store.perform P c).1 with
    | some e =>
        rw [perform_throws hthrows]
        exact h.told
    | none =>
        apply perform_all_by (sessionTold_kept s.files) h.told
        · intro ref record session hregisters _
          cases c with
          | registerPreparedFile ref' v url size temporary path created values uptime =>
              cases values with
              | none => cases hregisters
              | some values =>
                  have hsize : Store.sizeConfirmed values size = true := by
                    by_contra hno
                    simp [Store.perform, Store.registerPreparedFile, hno] at hthrows
                  obtain ⟨-, rfl⟩ := Prod.mk.inj (Option.some.inj hregisters)
                  exact stamp_of_values hpossible hsize
          | _ => cases hregisters
        · rintro ref v hash session rfl
          cases hpossible
  reported := h.reported

/-! ## The result -/

/-- A decidable test under which the condition on the steps is met: nothing is cached yet, the
record is the one that was hashed, and no file changes. -/
def plainStep (s : Pool (HashCalls Url) θ (HashWorld θ Url)) :
    Pool.Label θ (String × PreparedHashRequest) (Disturbance Url) HashDecision → Bool
  | .call t _ =>
      match s.thread t with
      | some (.call (.cachedHash ref request) _) =>
          (s.world.store.cachedHash ref request.variantId).isNone
      | some (.call (.cacheHash ref snapshot _) _) =>
          (s.world.store.sessions.lookup ref).all fun session =>
            (session.recordsByVariant.lookup snapshot.variantId).all fun record =>
              decide (record.url = snapshot.url) && record.sizeBytes == snapshot.sizeBytes &&
                record.modificationDate == snapshot.modificationDate
      | _ => true
  | .disturb (.file _ _) => false
  | _ => true

omit [DecidableEq θ] in
theorem admits_of_plainStep {s : Pool (HashCalls Url) θ (HashWorld θ Url)}
    {l : Pool.Label θ (String × PreparedHashRequest) (Disturbance Url) HashDecision}
    (h : plainStep s l = true) : Pool.Admits (HashAllowed P) ChangesStamp s l := by
  cases l with
  | start => trivial
  | disturb e =>
      cases e with
      | store => trivial
      | file => cases h
  | call t d =>
      intro c next hthread
      simp only [plainStep, hthread] at h
      cases c with
      | cachedHash ref request =>
          intro session hsession hsome
          simp only [Store.cachedHash, hsession, Option.bind_some] at h
          rw [Option.isNone_iff_eq_none] at h
          rw [h] at hsome
          cases hsome
      | cacheHash ref snapshot hash =>
          intro session record hsession _ hrecord
          simp only [hsession, hrecord, Option.all_some, Bool.and_eq_true, decide_eq_true_eq,
            beq_iff_eq] at h
          exact ⟨h.1.1, h.1.2, h.2⟩
      | _ => trivial

/-- SHA-256, as far as it is asked for. -/
def digestOfOne (bytes : List UInt8) : String :=
  if bytes = [1] then "4bf5122f344554c53bde2ebb8cd2b7e3d1600ad631c385a5d7cce23c7785459a" else ""

/-- One file with one byte. -/
def oneFile : Files String := fun url =>
  if url = "a.jpg" then [some { content := [1], modificationDate := some 5 }] else []

/-- The file is registered and hashed. -/
def hashOneFile : List (Pool.Label Unit (String × PreparedHashRequest) (Disturbance String)
    HashDecision) :=
  [.disturb (.store (.begin_ "s" none)),
    .disturb (.store (.registerPreparedFile "s" "v" "a.jpg" 1 false .photoResource none
      (some ⟨some true, some 1, some 5⟩) 0)),
    .start () ("s", ⟨"v", "a.jpg", 1⟩)] ++ List.replicate 13 (.call () {})

theorem oneFile_stamps (url : String) : (oneFile.stamps url).Nodup := by
  unfold Files.stamps oneFile
  split <;> simp

end Preparation

end LocalMediaTransfer
