import LocalMediaTransfer.Lib.Leases
import LocalMediaTransfer.Server.Http.Authorization
import LocalMediaTransfer.Server.Security.NativeSession.Capacity

/-!
# Browser access

The browser link and the browser sessions of `HttpServer`, over every order of `setToken`,
`setBrowserBootstrap`, `exchangeBrowserBootstrap` and `validateBrowserSessionToken`, which run under
one mutex, and any passing of time.

* `browserStep` — one call, with its effect noted in a history.
* `oldest_least`, `lookup_exchange` — what a full table gives up, and the table after an exchange.
* `BrowserOk`, `browserOk_step` — link and sessions as the history tells them.
* `browser_access` — a link is redeemed once and in time, the table is bounded, and a token is
  accepted exactly if its lease, as read off the history, still holds.
-/

set_option autoImplicit false

namespace LocalMediaTransfer

open Lib

/-- What a call achieved. -/
inductive BrowserEvent where
  | tokenChanged
  | armed (time : Nat) (bootstrap : ByteString)
  | exchanged (time : Nat) (bootstrap token : ByteString) (evicted : Option ByteString)
  | accepted (time : Nat) (token : ByteString)
  deriving DecidableEq

/-- The event as one of the lease of a browser session. -/
def BrowserEvent.lease : BrowserEvent → Option (LeaseEvent ByteString)
  | .tokenChanged => some .reset
  | .armed _ _ => none
  | .exchanged time _ token evicted => some (.issue time token evicted)
  | .accepted time token => some (.renew time token)

/-- The event leaves no link that was armed before it. -/
def BrowserEvent.disarms : BrowserEvent → Bool
  | .tokenChanged | .armed _ _ | .exchanged _ _ _ _ => true
  | .accepted _ _ => false

/-- The leases in a history. -/
def leases (log : List BrowserEvent) : List (LeaseEvent ByteString) := log.filterMap (·.lease)

namespace HttpServer

variable (s : HttpServer)

/-- The answer of `exchangeBrowserBootstrap`: the token of a new session, or a refusal. -/
def exchangeAnswer (bootstrap : ByteString) (randomBytes : Option ByteString) : Option ByteString :=
  if bootstrap.length ≠ s.browserBootstrap.length || bootstrap.isEmpty ||
      s.browserBootstrapExpiresAt < s.native.clock || bootstrap != s.browserBootstrap ||
      s.token.isEmpty then none
  else randomBytes.map toHex

/-- The browser sessions that have not expired. -/
def liveSessions : Table ByteString Nat :=
  s.browserSessions.filter fun _ expiresAt => !(expiresAt ≤ s.native.clock)

/-- The session that an exchange removes to make room. -/
def evicted : Option ByteString :=
  if MaxBrowserSessions ≤ s.liveSessions.entries.length then
    oldest (fun _ => true) id s.liveSessions.entries
  else none

/-- The sessions that an exchange leaves. -/
def keptSessions : Table ByteString Nat :=
  match s.evicted with
  | none => s.liveSessions
  | some victim => s.liveSessions.erase victim

/-- The steady clock goes on. -/
def advance (elapsed : Nat) : HttpServer :=
  { s with native := { s.native with clock := s.native.clock + elapsed } }

end HttpServer

/-- The server and what its calls have achieved. -/
structure BrowserState where
  server : HttpServer
  log : List BrowserEvent := []

inductive BrowserLabel where
  | setToken (token : ByteString)
  | setBrowserBootstrap (bootstrap : ByteString)
  | exchangeBrowserBootstrap (bootstrap : ByteString) (randomBytes : Option ByteString)
  | validateBrowserSessionToken (token : ByteString)
  | advance (elapsed : Nat)
  /-- The hash table is traversed in another order from now on. -/
  | reorder (sessions : Table ByteString Nat)

/-- One call, or time passing. -/
def browserStep (s : BrowserState) : BrowserLabel → Option BrowserState
  | .setToken token =>
      some ⟨s.server.setToken token,
        if s.server.token ≠ token then s.log ++ [.tokenChanged] else s.log⟩
  | .setBrowserBootstrap bootstrap =>
      some ⟨s.server.setBrowserBootstrap bootstrap,
        if bootstrap.length != 64 || !bootstrap.all isXDigit then s.log
        else s.log ++ [.armed s.server.native.clock bootstrap]⟩
  | .exchangeBrowserBootstrap bootstrap randomBytes =>
      -- `RAND_bytes` fills 32 bytes.
      if randomBytes.all (·.length == 32) then
        some ⟨s.server.exchangeBrowserBootstrap bootstrap randomBytes,
          match s.server.exchangeAnswer bootstrap randomBytes with
          | none => s.log
          | some token =>
              s.log ++ [.exchanged s.server.native.clock bootstrap token s.server.evicted]⟩
      else none
  | .validateBrowserSessionToken token =>
      let answer := s.server.validateBrowserSessionToken token
      some ⟨answer.1,
        if answer.2 then s.log ++ [.accepted s.server.native.clock token] else s.log⟩
  | .advance elapsed => some { s with server := s.server.advance elapsed }
  | .reorder sessions =>
      if sessions.entries.isPerm s.server.browserSessions.entries then
        some { s with server := { s.server with browserSessions := sessions } }
      else none

/-- A run from a server that was just constructed. -/
abbrev BrowserRun : BrowserState → BrowserState → Prop := Run browserStep fun _ _ => True

/-- A server at start. -/
def BrowserState.init (defaultToken : ByteString) (pairingStore : PairingStore) (clock : Nat) :
    BrowserState :=
  ⟨.init defaultToken pairingStore clock, []⟩

/-! ## What is said of a history -/

/-- The token of a browser session holds its lease. -/
abbrev SessionHeld (token : ByteString) (now : Nat) (log : List BrowserEvent) : Prop :=
  Held BrowserSessionIdleLifetimeSeconds token now (leases log)

/-- A link value is redeemed at a moment: it was the last one armed, at most five minutes ago, and
has neither been redeemed nor lost to a token change. -/
def Redeems (log : List BrowserEvent) (now : Nat) (bootstrap : ByteString) : Prop :=
  ∃ pre post time, log = pre ++ .armed time bootstrap :: post ∧
    (∀ e ∈ post, e.disarms = false) ∧ now ≤ time + BrowserBootstrapLifetimeSeconds

/-- A session is evicted at a moment: the table is full, and no session in it was used before. -/
structure Evicts (log : List BrowserEvent) (now : Nat) (token : ByteString) : Prop where
  held : SessionHeld token now log
  full : ∃ tokens : List ByteString, tokens.Nodup ∧ tokens.length = MaxBrowserSessions ∧
    ∀ x ∈ tokens, SessionHeld x now log
  least : ∀ x, SessionHeld x now log → ∃ used used', lastUse token (leases log) = some used ∧
    lastUse x (leases log) = some used' ∧ used ≤ used'

variable {s t : BrowserState} {l : BrowserLabel} {server : HttpServer}
variable {token bootstrap key : ByteString} {randomBytes : Option ByteString} {now time : Nat}
variable {log : List BrowserEvent} {e : BrowserEvent}
variable {defaultToken : ByteString} {pairingStore : PairingStore} {clock : Nat}

@[simp] theorem leases_append {log' : List BrowserEvent} :
    leases (log ++ log') = leases log ++ leases log' := List.filterMap_append

/-! ## Tables -/

theorem foldl_oldest_least {ν : Type} {f : ν → Nat} {entries : List (Sigma fun _ : ByteString => ν)}
    {best : Option (Sigma fun _ : ByteString => ν)} {a : Sigma fun _ : ByteString => ν}
    (h : entries.foldl (fun best e =>
      match best with
      | none => some e
      | some b => if f e.2 < f b.2 then some e else some b) best = some a) :
    (∀ b, best = some b → f a.2 ≤ f b.2) ∧ ∀ b ∈ entries, f a.2 ≤ f b.2 := by
  induction entries generalizing best with
  | nil =>
    obtain rfl : best = some a := h
    exact ⟨fun b hb => (Option.some.inj hb) ▸ Nat.le_refl _, nofun⟩
  | cons c rest ih =>
    rw [List.foldl_cons] at h
    obtain ⟨hbest, hrest⟩ := ih h
    cases best with
    | none =>
      refine ⟨nofun, fun b hb => ?_⟩
      rcases List.mem_cons.mp hb with rfl | hb
      · exact hbest b rfl
      · exact hrest b hb
    | some b₀ =>
      simp only at hbest
      split at hbest
      · rename_i hlt
        have hc := hbest c rfl
        refine ⟨fun b hb => ?_, fun b hb => ?_⟩
        · cases hb
          omega
        · rcases List.mem_cons.mp hb with rfl | hb
          · exact hc
          · exact hrest b hb
      · rename_i hlt
        have hb₀ := hbest b₀ rfl
        refine ⟨fun b hb => ?_, fun b hb => ?_⟩
        · cases hb
          exact hb₀
        · rcases List.mem_cons.mp hb with rfl | hb
          · omega
          · exact hrest b hb

/-- The victim is least. -/
theorem oldest_least {ν : Type} {f : ν → Nat} {table : Table ByteString ν} {id : ByteString}
    (h : oldest (fun _ => true) f table.entries = some id) :
    ∃ v, table.lookup id = some v ∧ ∀ key w, table.lookup key = some w → f v ≤ f w := by
  unfold oldest at h
  obtain ⟨a, ha, rfl⟩ := Option.map_eq_some_iff.mp h
  have hleast := (foldl_oldest_least ha).2
  rcases mem_of_foldl_oldest ha with hnone | hmem
  · cases hnone
  · rw [List.filter_true] at hmem hleast
    exact ⟨a.2, Table.lookup_eq_some_iff.mpr hmem, fun key w hw =>
      hleast ⟨key, w⟩ (Table.lookup_eq_some_iff.mp hw)⟩

theorem lookup_liveSessions : server.liveSessions.lookup key =
    (server.browserSessions.lookup key).filter fun expiresAt =>
    !(expiresAt ≤ server.native.clock) :=
  Table.lookup_filter _ _ _

theorem lookup_liveSessions_eq_some {expiresAt : Nat} :
    server.liveSessions.lookup key = some expiresAt ↔
      server.browserSessions.lookup key = some expiresAt ∧ server.native.clock < expiresAt := by
  rw [lookup_liveSessions, Option.filter_eq_some_iff]
  simp

theorem keptSessions_eq : server.keptSessions =
    if MaxBrowserSessions ≤ server.liveSessions.entries.length then
      eraseOldest (fun _ => true) id server.liveSessions
    else server.liveSessions := by
  unfold HttpServer.keptSessions HttpServer.evicted eraseOldest
  by_cases hfull : MaxBrowserSessions ≤ server.liveSessions.entries.length <;>
    cases oldest (fun _ => true) id server.liveSessions.entries <;>
    simp only [hfull, if_true, if_false]

theorem lookup_keptSessions : server.keptSessions.lookup key =
    if server.evicted = some key then none else server.liveSessions.lookup key := by
  unfold HttpServer.keptSessions
  cases hvictim : server.evicted with
  | none => rfl
  | some victim =>
    by_cases hkey : key = victim
    · subst hkey
      rw [if_pos rfl]
      exact AList.lookup_erase _ _
    · rw [if_neg (fun h => hkey (Option.some.inj h).symm)]
      exact AList.lookup_erase_ne hkey

/-- An exchange that is answered. -/
theorem exchange_answered
    (h : server.exchangeAnswer bootstrap randomBytes = some token) :
    bootstrap ≠ [] ∧ bootstrap = server.browserBootstrap ∧
      server.native.clock ≤ server.browserBootstrapExpiresAt ∧
      (∃ bytes, randomBytes = some bytes ∧ token = toHex bytes) ∧
      server.exchangeBrowserBootstrap bootstrap randomBytes =
        { server with
          browserSessions := server.keptSessions.insert token
            (server.native.clock + BrowserSessionIdleLifetimeSeconds)
          browserBootstrap := []
          browserBootstrapExpiresAt := 0 } := by
  unfold HttpServer.exchangeAnswer at h
  unfold HttpServer.exchangeBrowserBootstrap
  split at h
  · cases h
  · rename_i hguard
    obtain ⟨bytes, rfl, rfl⟩ := Option.map_eq_some_iff.mp h
    rw [if_neg hguard]
    simp only [Bool.or_eq_true, not_or, decide_eq_true_eq, bne_iff_ne, ne_eq, not_not,
      List.isEmpty_iff, Nat.not_lt] at hguard
    obtain ⟨⟨⟨⟨-, hne⟩, htime⟩, hsame⟩, -⟩ := hguard
    refine ⟨hne, hsame, htime, ⟨bytes, rfl, rfl⟩, ?_⟩
    rw [keptSessions_eq]
    rfl

/-- An exchange that is refused. -/
theorem exchange_refused (h : server.exchangeAnswer bootstrap randomBytes = none) :
    server.exchangeBrowserBootstrap bootstrap randomBytes = server := by
  unfold HttpServer.exchangeAnswer at h
  unfold HttpServer.exchangeBrowserBootstrap
  split at h
  · rename_i hguard
    rw [if_pos hguard]
  · rename_i hguard
    rw [if_neg hguard, Option.map_eq_none_iff.mp h]

/-- The table after an exchange. -/
theorem lookup_exchange (h : server.exchangeAnswer bootstrap randomBytes = some token) :
    (server.exchangeBrowserBootstrap bootstrap randomBytes).browserSessions.lookup key =
      if key = token then some (server.native.clock + BrowserSessionIdleLifetimeSeconds)
      else if server.evicted = some key then none else server.liveSessions.lookup key := by
  rw [(exchange_answered h).2.2.2.2, ← lookup_keptSessions]
  by_cases hkey : key = token
  · subst hkey
    rw [if_pos rfl]
    exact AList.lookup_insert _
  · rw [if_neg hkey]
    exact AList.lookup_insert_ne hkey

theorem length_insert_of_lookup {table : Table ByteString Nat} {v w : Nat}
    (h : table.lookup key = some v) : (table.insert key w).entries.length =
    table.entries.length := by
  have hmem : key ∈ table.entries.keys := List.mem_keys_of_mem (Table.lookup_eq_some_iff.mp h)
  obtain ⟨u, l₁, l₂, -, hentries, hkerase⟩ := List.exists_of_kerase hmem
  rw [AList.entries_insert, hkerase, hentries]
  simp only [List.length_cons, List.length_append]
  omega

/-- The size of the table after an exchange. -/
theorem length_exchange (hcount : server.browserSessions.entries.length ≤ MaxBrowserSessions)
    (h : server.exchangeAnswer bootstrap randomBytes = some token) :
    (server.exchangeBrowserBootstrap bootstrap randomBytes).browserSessions.entries.length ≤
      MaxBrowserSessions := by
  have hlive : server.liveSessions.entries.length ≤ MaxBrowserSessions :=
    Nat.le_trans (List.length_filter_le _ _) hcount
  have hroom : server.keptSessions.entries.length < MaxBrowserSessions := by
    rw [keptSessions_eq]
    exact room_of_count (fun _ => false) id 1 (fun _ _ _ => rfl) (by simp) (by decide) hlive
  have hinsert : ∀ (table : Table ByteString Nat) (v : Nat),
      (table.insert token v).entries.length ≤ table.entries.length + 1 := by
    intro table v
    rw [AList.entries_insert, List.length_cons]
    exact Nat.succ_le_succ (List.kerase_sublist _ _).length_le
  rw [(exchange_answered h).2.2.2.2]
  exact Nat.le_trans (hinsert _ _) hroom

/-! ## The server as its history tells it -/

/-- The table of sessions agrees with the leases in the history. -/
structure SessionsOk (sessions : Table ByteString Nat) (clock : Nat) (log : List BrowserEvent) :
    Prop where
  used : ∀ key expiresAt, sessions.lookup key = some expiresAt →
    ∃ time, lastUse key (leases log) = some time ∧
      expiresAt = time + BrowserSessionIdleLifetimeSeconds
  held : ∀ key now, clock ≤ now →
    ((∃ expiresAt, sessions.lookup key = some expiresAt ∧ now < expiresAt) ↔
      SessionHeld key now log)
  named : ∀ key expiresAt, sessions.lookup key = some expiresAt → key ≠ []

/-- Everything that has been redeemed and evicted so far. -/
def PastOk (log : List BrowserEvent) : Prop :=
  ∀ pre time bootstrap token evicted post,
    log = pre ++ .exchanged time bootstrap token evicted :: post →
      Redeems pre time bootstrap ∧ ∀ victim, evicted = some victim → Evicts pre time victim

/-- The invariant. -/
structure BrowserOk (s : BrowserState) : Prop where
  sessions : SessionsOk s.server.browserSessions s.server.native.clock s.log
  count : s.server.browserSessions.entries.length ≤ MaxBrowserSessions
  link : s.server.browserBootstrap ≠ [] → ∃ pre post time,
    s.log = pre ++ .armed time s.server.browserBootstrap :: post ∧
      (∀ e ∈ post, e.disarms = false) ∧
      s.server.browserBootstrapExpiresAt = time + BrowserBootstrapLifetimeSeconds
  past : PastOk s.log

theorem SessionsOk.mono {sessions : Table ByteString Nat} {clock' : Nat}
    (h : SessionsOk sessions clock log) (hclock : clock ≤ clock') :
    SessionsOk sessions clock' log :=
  ⟨h.used, fun key now hnow => h.held key now (Nat.le_trans hclock hnow), h.named⟩

/-- Only the lookups matter. -/
theorem SessionsOk.congr {sessions sessions' : Table ByteString Nat}
    (h : SessionsOk sessions clock log) (heq : ∀ key, sessions'.lookup key = sessions.lookup key) :
    SessionsOk sessions' clock log := by
  refine ⟨?_, ?_, ?_⟩
  · intro key expiresAt hkey
    exact h.used key expiresAt (heq key ▸ hkey)
  · intro key now hnow
    rw [heq key]
    exact h.held key now hnow
  · intro key expiresAt hkey
    exact h.named key expiresAt (heq key ▸ hkey)

/-- A session that has expired may go. -/
theorem SessionsOk.erase {sessions : Table ByteString Nat} {expiresAt : Nat}
    (h : SessionsOk sessions clock log) (hkey : sessions.lookup token = some expiresAt)
    (hexpired : expiresAt ≤ clock) : SessionsOk (sessions.erase token) clock log := by
  have hsub : ∀ key v, (sessions.erase token).lookup key = some v →
    sessions.lookup key = some v := by
    intro key v hv
    by_cases heq : key = token
    · subst heq
      rw [AList.lookup_erase] at hv
      cases hv
    · rwa [AList.lookup_erase_ne heq] at hv
  refine ⟨fun key v hv => h.used key v (hsub key v hv), ?_, fun key v hv =>
    h.named key v (hsub key v hv)⟩
  intro key now hnow
  rw [← h.held key now hnow]
  constructor
  · rintro ⟨v, hv, hlive⟩
    exact ⟨v, hsub key v hv, hlive⟩
  · rintro ⟨v, hv, hlive⟩
    refine ⟨v, ?_, hlive⟩
    by_cases heq : key = token
    · subst heq
      rw [hkey] at hv
      cases hv
      omega
    · rwa [AList.lookup_erase_ne heq]

/-- An accepted token renews its lease. -/
theorem SessionsOk.accept {sessions : Table ByteString Nat} {expiresAt : Nat}
    (h : SessionsOk sessions clock log) (hkey : sessions.lookup token = some expiresAt)
    (hlive : clock < expiresAt) :
    SessionsOk (sessions.insert token (clock + BrowserSessionIdleLifetimeSeconds)) clock
      (log ++ [.accepted clock token]) := by
  have hleases : leases (log ++ [.accepted clock token]) =
      leases log ++ [.renew clock token] := leases_append
  refine ⟨?_, ?_, ?_⟩
  · intro key v hv
    rw [hleases, lastUse_snoc]
    by_cases heq : key = token
    · subst heq
      rw [AList.lookup_insert] at hv
      cases hv
      exact ⟨clock, by simp [LeaseEvent.use], rfl⟩
    · rw [AList.lookup_insert_ne heq] at hv
      rw [LeaseEvent.use, if_neg (Ne.symm heq), Option.none_or]
      exact h.used key v hv
  · intro key now hnow
    unfold SessionHeld
    rw [hleases]
    by_cases heq : key = token
    · subst heq
      rw [AList.lookup_insert, held_renew]
      have hheld := (h.held key clock (Nat.le_refl _)).mp ⟨expiresAt, hkey, hlive⟩
      simp only [Option.some.injEq, exists_eq_left']
      exact (and_iff_right hheld).symm
    · rw [AList.lookup_insert_ne heq, held_renew_ne (Ne.symm heq)]
      exact h.held key now hnow
  · intro key v hv
    by_cases heq : key = token
    · subst heq
      exact h.named key expiresAt hkey
    · rw [AList.lookup_insert_ne heq] at hv
      exact h.named key v hv

/-- An event that is none of a lease. -/
theorem SessionsOk.silent {sessions : Table ByteString Nat} (h : SessionsOk sessions clock log)
    (he : e.lease = none) : SessionsOk sessions clock (log ++ [e]) := by
  have hleases : leases (log ++ [e]) = leases log := by
    rw [leases_append]
    simp [leases, he]
  refine ⟨?_, ?_, h.named⟩
  · rw [hleases]
    exact h.used
  · intro key now hnow
    unfold SessionHeld
    rw [hleases]
    exact h.held key now hnow

theorem toHex_ne_nil {bytes : ByteString} (h : bytes.length = 32) : toHex bytes ≠ [] := by
  intro hnil
  cases bytes with
  | nil => cases h
  | cons b bytes => simp [toHex] at hnil

/-- An exchange issues a lease, and may evict one. -/
theorem SessionsOk.exchange (h : SessionsOk server.browserSessions server.native.clock log)
    (hbytes : randomBytes.all (·.length == 32) = true)
    (hanswer : server.exchangeAnswer bootstrap randomBytes = some token) :
    SessionsOk (server.exchangeBrowserBootstrap bootstrap randomBytes).browserSessions
      server.native.clock
      (log ++ [.exchanged server.native.clock bootstrap token server.evicted]) := by
  have hleases : leases (log ++ [.exchanged server.native.clock bootstrap token server.evicted]) =
      leases log ++ [.issue server.native.clock token server.evicted] := leases_append
  have hold : ∀ key v, key ≠ token →
      ((server.exchangeBrowserBootstrap bootstrap randomBytes).browserSessions.lookup key = some v ↔
        server.evicted ≠ some key ∧ server.browserSessions.lookup key = some v ∧
          server.native.clock < v) := by
    intro key v hne
    rw [lookup_exchange hanswer, if_neg hne]
    by_cases hevicted : server.evicted = some key
    · simp [hevicted]
    · rw [if_neg hevicted, lookup_liveSessions_eq_some]
      exact (and_iff_right hevicted).symm
  have hnew : (server.exchangeBrowserBootstrap bootstrap randomBytes).browserSessions.lookup token =
      some (server.native.clock + BrowserSessionIdleLifetimeSeconds) := by
    rw [lookup_exchange hanswer, if_pos rfl]
  refine ⟨?_, ?_, ?_⟩
  · intro key v hv
    rw [hleases, lastUse_snoc]
    by_cases heq : key = token
    · subst heq
      rw [hnew] at hv
      cases hv
      exact ⟨server.native.clock, by simp [LeaseEvent.use], rfl⟩
    · rw [LeaseEvent.use, if_neg (Ne.symm heq), Option.none_or]
      exact h.used key v ((hold key v heq).mp hv).2.1
  · intro key now hnow
    unfold SessionHeld
    rw [hleases]
    by_cases heq : key = token
    · subst heq
      rw [hnew, held_issue]
      simp only [Option.some.injEq, exists_eq_left']
    · rw [held_issue_ne (Ne.symm heq), show Held _ key now (leases log) ↔ _ from
        (h.held key now hnow).symm]
      constructor
      · rintro ⟨v, hv, hlive⟩
        obtain ⟨hevicted, hlookup, -⟩ := (hold key v heq).mp hv
        exact ⟨hevicted, v, hlookup, hlive⟩
      · rintro ⟨hevicted, v, hlookup, hlive⟩
        exact ⟨v, (hold key v heq).mpr ⟨hevicted, hlookup, Nat.lt_of_le_of_lt hnow hlive⟩, hlive⟩
  · intro key v hv
    by_cases heq : key = token
    · obtain ⟨bytes, rfl, htoken⟩ := (exchange_answered hanswer).2.2.2.1
      rw [heq, htoken]
      exact toHex_ne_nil (by simpa using hbytes)
    · exact h.named key v ((hold key v heq).mp hv).2.1

/-- What an exchange evicts was the least recently used session of a full table. -/
theorem SessionsOk.evicts (h : SessionsOk server.browserSessions server.native.clock log)
    (hcount : server.browserSessions.entries.length ≤ MaxBrowserSessions)
    (hevicted : server.evicted = some token) : Evicts log server.native.clock token := by
  have hheld : ∀ key, SessionHeld key server.native.clock log ↔
      ∃ v, server.liveSessions.lookup key = some v := by
    intro key
    rw [← h.held key server.native.clock (Nat.le_refl _)]
    simp only [lookup_liveSessions_eq_some]
  unfold HttpServer.evicted at hevicted
  split at hevicted
  · rename_i hfull
    obtain ⟨v, hv, hleast⟩ := oldest_least hevicted
    refine ⟨(hheld token).mpr ⟨v, hv⟩,
      ⟨server.liveSessions.keys, server.liveSessions.nodupKeys, ?_, ?_⟩,
      ?_⟩
    · have hlive : server.liveSessions.entries.length ≤ MaxBrowserSessions :=
        Nat.le_trans (List.length_filter_le _ _) hcount
      have hkeys : server.liveSessions.keys.length = server.liveSessions.entries.length :=
        List.length_map _
      omega
    · intro x hx
      exact (hheld x).mpr (Option.isSome_iff_exists.mp (AList.lookup_isSome.mpr hx))
    · intro x hx
      obtain ⟨w, hw⟩ := (hheld x).mp hx
      obtain ⟨time, htime, rfl⟩ := h.used token v (lookup_liveSessions_eq_some.mp hv).1
      obtain ⟨time', htime', rfl⟩ := h.used x w (lookup_liveSessions_eq_some.mp hw).1
      have hle := hleast x _ hw
      exact ⟨time, time', htime, htime', Nat.le_of_add_le_add_right hle⟩
  · cases hevicted

theorem PastOk.snoc (h : PastOk log) (he : ∀ time bootstrap token evicted,
    e = .exchanged time bootstrap token evicted →
      Redeems log time bootstrap ∧ ∀ victim, evicted = some victim → Evicts log time victim) :
    PastOk (log ++ [e]) := by
  intro pre time bootstrap token evicted post hsplit
  rcases split_snoc hsplit with ⟨rfl, heq, -⟩ | ⟨post', -, hlog⟩
  · exact he time bootstrap token evicted heq.symm
  · exact h pre time bootstrap token evicted post' hlog

/-- **The invariant holds after every step.** -/
theorem browserOk_step (h : BrowserOk s) (hst : browserStep s l = some t) : BrowserOk t := by
  cases l with
  | setToken token =>
    simp only [browserStep, Option.some.injEq] at hst
    subst hst
    by_cases hchanged : s.server.token ≠ token
    · simp only [HttpServer.setToken, if_pos hchanged]
      refine ⟨⟨nofun, ?_, nofun⟩, Nat.zero_le _, fun hne => absurd rfl hne, h.past.snoc nofun⟩
      intro key now hnow
      unfold SessionHeld
      rw [leases_append]
      exact iff_of_false nofun held_reset
    · simp only [HttpServer.setToken, if_neg hchanged]
      exact h
  | setBrowserBootstrap bootstrap =>
    simp only [browserStep, Option.some.injEq] at hst
    subst hst
    unfold HttpServer.setBrowserBootstrap
    split
    · exact h
    · refine ⟨h.sessions.silent rfl, h.count, fun _ => ?_, h.past.snoc nofun⟩
      exact ⟨s.log, [], s.server.native.clock, rfl, nofun, rfl⟩
  | exchangeBrowserBootstrap bootstrap randomBytes =>
    simp only [browserStep] at hst
    split at hst
    · rename_i hbytes
      cases hst
      cases hanswer : s.server.exchangeAnswer bootstrap randomBytes with
      | none =>
        simp only [exchange_refused hanswer]
        exact h
      | some token =>
        obtain ⟨hne, hsame, htime, -, hserver⟩ := exchange_answered hanswer
        have hclock : (s.server.exchangeBrowserBootstrap bootstrap randomBytes).native.clock =
            s.server.native.clock := by rw [hserver]
        refine ⟨?_, length_exchange h.count hanswer, ?_, h.past.snoc ?_⟩
        · simp only [hclock]
          exact h.sessions.exchange hbytes hanswer
        · intro hlink
          simp only [hserver] at hlink
          exact absurd rfl hlink
        · rintro _ _ _ _ heq
          cases heq
          subst hsame
          obtain ⟨pre, post, time, hlog, hquiet, hexpires⟩ := h.link hne
          exact ⟨⟨pre, post, time, hlog, hquiet, hexpires ▸ htime⟩,
            fun victim hvictim => h.sessions.evicts h.count hvictim⟩
    · cases hst
  | validateBrowserSessionToken token =>
    simp only [browserStep, Option.some.injEq] at hst
    subst hst
    unfold HttpServer.validateBrowserSessionToken
    split
    · exact h
    · split
      · exact h
      · rename_i expiresAt hlookup
        split
        · rename_i hexpired
          refine ⟨h.sessions.erase hlookup hexpired, ?_, h.link, h.past⟩
          exact Nat.le_trans (List.kerase_sublist _ _).length_le h.count
        · rename_i hlive
          refine ⟨h.sessions.accept hlookup (Nat.lt_of_not_le hlive), ?_, ?_, h.past.snoc nofun⟩
          · rw [length_insert_of_lookup hlookup]
            exact h.count
          · intro hne
            obtain ⟨pre, post, time, hlog, hquiet, hexpires⟩ := h.link hne
            refine ⟨pre, post ++ [.accepted s.server.native.clock token], time, ?_, ?_, hexpires⟩
            · simp [hlog]
            · intro e he
              rcases List.mem_append.mp he with he | he
              · exact hquiet e he
              · rw [List.mem_singleton.mp he]
                rfl
  | advance elapsed =>
    simp only [browserStep, Option.some.injEq] at hst
    subst hst
    exact ⟨h.sessions.mono (Nat.le_add_right _ _), h.count, h.link, h.past⟩
  | reorder sessions =>
    simp only [browserStep] at hst
    split at hst
    · rename_i hperm
      cases hst
      have hperm' := List.isPerm_iff.mp hperm
      exact ⟨h.sessions.congr fun key => AList.perm_lookup hperm', hperm'.length_eq ▸ h.count,
        h.link, h.past⟩
    · cases hst

theorem browserOk_of_run (hrun : BrowserRun (.init defaultToken pairingStore clock) s) :
    BrowserOk s := by
  refine hrun.invariant (I := BrowserOk) ?_ fun _ _ _ h _ hst => browserOk_step h hst
  refine ⟨⟨nofun, ?_, nofun⟩, Nat.zero_le _, fun hne => absurd rfl hne, ?_⟩
  · intro key now hnow
    exact iff_of_false nofun not_held_nil
  · intro pre time bootstrap token evicted post hsplit
    simp [BrowserState.init] at hsplit

/-- Between two exchanges a link was armed. -/
theorem PastOk.rearmed (h : PastOk log) {pre mid post : List BrowserEvent} {time time' : Nat}
    {bootstrap bootstrap' token token' : ByteString} {evicted evicted' : Option ByteString}
    (hlog : log = pre ++ .exchanged time bootstrap token evicted :: mid ++
      .exchanged time' bootstrap' token' evicted' :: post) :
    ∃ armed, BrowserEvent.armed armed bootstrap' ∈ mid := by
  obtain ⟨⟨before, after, armed, hsplit, hquiet, -⟩, -⟩ := h _ _ _ _ _ _ hlog
  refine ⟨armed, ?_⟩
  rcases List.append_eq_append_iff.mp hsplit with ⟨rest, -, hrest⟩ | ⟨rest, -, hrest⟩
  · cases rest with
    | nil => cases hrest
    | cons x rest =>
      obtain ⟨-, rfl⟩ := List.cons.inj hrest
      exact List.mem_append_right _ (List.mem_cons_self ..)
  · cases rest with
    | nil => cases hrest
    | cons x rest =>
      obtain ⟨-, rfl⟩ := List.cons.inj hrest
      have hspent := hquiet _ (List.mem_append_right rest (List.mem_cons_self ..))
      cases hspent

/-- When a token is accepted. -/
theorem validateBrowserSessionToken_iff : (server.validateBrowserSessionToken token).2 = true ↔
    token ≠ [] ∧ ∃ expiresAt, server.browserSessions.lookup token = some expiresAt ∧
      server.native.clock < expiresAt := by
  unfold HttpServer.validateBrowserSessionToken
  split
  · rename_i hempty
    simp [List.isEmpty_iff.mp hempty]
  · rename_i hne
    have hne' : token ≠ [] := by simpa using hne
    split
    · rename_i hnone
      simp [hnone]
    · rename_i expiresAt hsome
      split
      · rename_i hexpired
        simp [hsome, hexpired]
      · rename_i hlive
        simp [hsome, hne', Nat.lt_of_not_le hlive]

/-- **Browser access.** In every run: each exchange redeems the link that was armed last, in time,
and no arming is redeemed twice; what an exchange evicts was the least recently used of a full
table; the table holds at most eight sessions; and a token is accepted exactly while its session is
held. -/
theorem browser_access (hrun : BrowserRun (.init defaultToken pairingStore clock) s) :
    (∀ pre time bootstrap token evicted post,
      s.log = pre ++ .exchanged time bootstrap token evicted :: post →
        Redeems pre time bootstrap ∧ ∀ victim, evicted = some victim → Evicts pre time victim) ∧
    (∀ pre time bootstrap token evicted mid time' bootstrap' token' evicted' post,
      s.log = pre ++ .exchanged time bootstrap token evicted :: mid ++
        .exchanged time' bootstrap' token' evicted' :: post →
          ∃ armed, BrowserEvent.armed armed bootstrap' ∈ mid) ∧
    s.server.browserSessions.entries.length ≤ MaxBrowserSessions ∧
    ∀ token, (s.server.validateBrowserSessionToken token).2 = true ↔
      SessionHeld token s.server.native.clock s.log := by
  have h := browserOk_of_run hrun
  refine ⟨h.past, fun _ _ _ _ _ _ _ _ _ _ _ hlog => h.past.rearmed hlog, h.count, fun token => ?_⟩
  rw [validateBrowserSessionToken_iff, ← h.sessions.held token _ (Nat.le_refl _)]
  constructor
  · exact fun hvalid => hvalid.2
  · rintro ⟨expiresAt, hlookup, hlive⟩
    exact ⟨h.sessions.named token expiresAt hlookup, expiresAt, hlookup, hlive⟩

/-- A link value as the GUI makes it. -/
def sampleLink : ByteString := List.replicate 64 97

/-- The link is redeemed; half an hour less a second later the token is still accepted. -/
theorem browser_access_sampleLink :
    ∃ s, BrowserRun (.init (List.replicate 32 97) ⟨[], [], []⟩ 0) s ∧
      SessionHeld (toHex (List.replicate 32 7)) s.server.native.clock s.log := by
  obtain ⟨s, hrun, htest⟩ := Run.exists_of_exec browserStep (P := fun _ _ => True)
    (fun _ _ => true)
    (fun s => (s.server.validateBrowserSessionToken (toHex (List.replicate 32 7))).2)
    (.init (List.replicate 32 97) ⟨[], [], []⟩ 0)
    [.setBrowserBootstrap sampleLink, .advance 300,
      .exchangeBrowserBootstrap sampleLink (some (List.replicate 32 7)), .advance 1799]
    (fun _ _ _ => trivial) (by decide)
  exact ⟨s, hrun, ((browser_access hrun).2.2.2 _).mp htest⟩

end LocalMediaTransfer
