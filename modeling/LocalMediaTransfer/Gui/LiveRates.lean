import LocalMediaTransfer.Gui.HistoryAgreement
import LocalMediaTransfer.Lib.Slots
import LocalMediaTransfer.Server.Stats.MetricsCollector

/-!
# Live rates between receiver and GUI

The endpoint bounds a rate, the collector the number of sessions and the lease of a sample, and the
GUI's parser the components, their sum and the leases again.  The parser's bounds follow from the
other two.

* `parseMetrics` — `PipeMessageParser.Parse` of a `metrics` message.
* `Bounded` — sessions and rates of the collector, in every run.
* `live_rates_accepted` — what `getRealtimeMetrics` returns, and that the GUI reads it.
-/

set_option autoImplicit false

namespace LocalMediaTransfer

open Lib

/-! ## The parser -/

/-- `SpeedComponentData`. -/
structure SpeedComponentData where
  speedMBps : Rat
  freshForMs : Int
  deriving DecidableEq

/-- The rate fields of `MetricsData`. -/
structure MetricsRates where
  speedMBps : Rat
  speedAvailable : Bool
  speedFreshForMs : Int
  rateComponents : Option (List SpeedComponentData)
  deriving DecidableEq

structure MetricsData extends MetricsRates where
  filesTransferred : Int
  totalBytes : Int
  durationSeconds : Int
  isActive : Bool
  deriving DecidableEq

namespace PipeMessageParser

open PipeValueValidator

/-- `GetBoolean`. -/
def getBoolean : Json → Option Bool
  | .boolean value => some value
  | _ => none

/-- A member that may be missing. -/
def optionalMember {α : Type} (item : Json) (key : String) (get : Json → Option α) (fallback : α) :
    Option α :=
  (JsonElement.tryGetProperty item key).bind fun found =>
    match found with
    | some value => get value
    | none => some fallback

def parseRateComponent (component : Json) : Option SpeedComponentData := do
  return {
    speedMBps := ← doubleMember component "speedMBps" 1000000
    freshForMs := ← intMember component "freshForMs" 30000 }

/-- The loop of `ParseRateComponents`. -/
def parseComponents : List SpeedComponentData → List Json → Option (List SpeedComponentData)
  | result, [] => some result
  | result, component :: rest =>
    if 32 ≤ result.length then none
    else (parseRateComponent component).bind fun data => parseComponents (result ++ [data]) rest

/-- `ParseRateComponents`. -/
def parseRateComponents : Json → Option (List SpeedComponentData)
  | .array items => parseComponents [] items
  | _ => none

/-- The rate fields of a `metrics` message. -/
def parseRates (data : Json) : Option MetricsRates := do
  return {
    speedMBps := ← doubleMember data "speedMBps" 4000000
    speedAvailable := ← optionalMember data "speedAvailable" getBoolean true
    speedFreshForMs :=
      ← optionalMember data "speedFreshForMs"
        (fun freshness => (JsonElement.getInt32 freshness).bind (nonNegative · 30000)) 2000
    rateComponents :=
      ← optionalMember data "rateComponents"
        (fun components => (parseRateComponents components).map some) none }

/-- The members of a `metrics` message that follow the rates. -/
def parseCounts (data : Json) (rates : MetricsRates) : Option MetricsData := do
  return {
    toMetricsRates := rates
    filesTransferred := ← intMember data "filesTransferred" 10000000
    totalBytes := ← longMember data "totalBytes" (2 ^ 63 - 1)
    durationSeconds := ← longMember data "durationSeconds" 315576000
    isActive := ← (JsonElement.getProperty data "isActive").bind getBoolean }

/-- `Parse`, for messages of this type. -/
def parseMetrics (message : Json) : Option MetricsData := do
  let type ← (JsonElement.getProperty message "type").bind (JsonElement.getString [])
  let data ← JsonElement.getProperty message "data"
  if type = wide "metrics" then (parseRates data).bind (parseCounts data) else none

end PipeMessageParser

/-! ## Leases -/

theorem clamp_le (value : Rat) {low high : Rat} (h : low ≤ high) : clamp value low high ≤ high := by
  unfold clamp
  split
  · exact h
  · split
    · exact le_refl _
    · rename_i hhigh
      exact not_lt.mp hhigh

theorem speedLifetime_le (bytesPerSecond : Rat) : speedLifetime bytesPerSecond ≤ 30000 := by
  unfold speedLifetime
  split
  · omega
  · rw [Int.toNat_le]
    have hclamp := clamp_le (2 * maxNativeProgressBytes / bytesPerSecond * 1000)
      (show (5000 : Rat) ≤ 30000 by norm_num)
    have hfloor := (Rat.floor_le _).trans hclamp
    exact_mod_cast hfloor

namespace MetricsCollector

variable {c : MetricsCollector} {now : Nat}

/-- A component has the rate of its session and a lease that has not run out. -/
theorem component_spec {rate : ClientRate} {component : RealtimeRateComponent}
    (h : MetricsCollector.component now rate = some component) :
    component.speedMBps = rate.speedMBps ∧ 0 < component.freshForMs ∧
      component.freshForMs ≤ 30000 := by
  unfold MetricsCollector.component at h
  split at h
  · cases h
  · dsimp only at h
    split at h
    · cases h
    · rename_i hage
      have hlifetime := speedLifetime_le (rate.speedMBps * bytesPerMegabyte)
      cases h
      refine ⟨rfl, ?_, ?_⟩
      · exact Nat.sub_pos_of_lt (not_le.mp hage)
      · exact (Nat.sub_le _ _).trans hlifetime

/-! ## The loop over the sessions -/

/-- Sum and least lease agree with the components. -/
structure Summed (metrics : RealtimeMetrics) : Prop where
  positive : ∀ component ∈ metrics.rateComponents, 0 < component.freshForMs
  sum : metrics.currentSpeedMBps = (metrics.rateComponents.map (·.speedMBps)).sum
  none : metrics.rateComponents = [] → metrics.speedFreshForMs = 0
  least : metrics.rateComponents ≠ [] →
    ∃ component ∈ metrics.rateComponents, component.freshForMs = metrics.speedFreshForMs
  le : ∀ component ∈ metrics.rateComponents, metrics.speedFreshForMs ≤ component.freshForMs

theorem Summed.add {metrics : RealtimeMetrics} (h : Summed metrics)
    {component : RealtimeRateComponent} (hpositive : 0 < component.freshForMs) :
    Summed { metrics with
      rateComponents := metrics.rateComponents ++ [component]
      currentSpeedMBps := metrics.currentSpeedMBps + component.speedMBps
      speedFreshForMs :=
        if metrics.speedFreshForMs = 0 then component.freshForMs
        else min metrics.speedFreshForMs component.freshForMs } := by
  have hzero : metrics.speedFreshForMs = 0 → metrics.rateComponents = [] := by
    intro hfresh
    by_contra hsome
    obtain ⟨least, hmem, hleast⟩ := h.least hsome
    have hpos := h.positive least hmem
    omega
  refine ⟨?_, ?_, ?_, fun _ => ?_, ?_⟩
  · intro other hother
    rcases List.mem_append.mp hother with hother | hother
    · exact h.positive other hother
    · rw [List.mem_singleton.mp hother]
      exact hpositive
  · simp [h.sum]
  · simp
  · dsimp only
    split
    · exact ⟨component, by simp, rfl⟩
    · rename_i hfresh
      rcases Nat.le_total metrics.speedFreshForMs component.freshForMs with hle | hle
      · have hsome : metrics.rateComponents ≠ [] := fun hnone => hfresh (h.none hnone)
        obtain ⟨least, hmem, hleast⟩ := h.least hsome
        exact ⟨least, List.mem_append_left _ hmem, by rw [hleast, min_eq_left hle]⟩
      · exact ⟨component, by simp, by rw [min_eq_right hle]⟩
  · intro other hother
    dsimp only at hother ⊢
    rcases List.mem_append.mp hother with hother | hother
    · split
      · rename_i hfresh
        rw [hzero hfresh] at hother
        cases hother
      · exact (min_le_left _ _).trans (h.le other hother)
    · rw [List.mem_singleton.mp hother]
      split
      · exact le_refl _
      · exact min_le_right _ _

theorem collect_spec (rates : List ClientRate) {metrics : RealtimeMetrics} (h : Summed metrics) :
    Summed (collect now rates metrics) ∧
      (collect now rates metrics).rateComponents =
        metrics.rateComponents ++ rates.filterMap (MetricsCollector.component now) := by
  induction rates generalizing metrics with
  | nil => exact ⟨h, by simp [collect]⟩
  | cons rate rest ih =>
    unfold collect
    cases hcomponent : MetricsCollector.component now rate with
    | none =>
      rw [List.filterMap_cons_none hcomponent]
      exact ih h
    | some component =>
      rw [List.filterMap_cons_some hcomponent]
      obtain ⟨hsummed, hlist⟩ := ih (h.add (component_spec hcomponent).2.1)
      refine ⟨hsummed, hlist.trans ?_⟩
      simp

/-- **Sum, least lease and availability agree with the components.** -/
theorem getRealtimeMetrics_spec (c : MetricsCollector) (now : Nat) :
    Summed (c.getRealtimeMetrics now) ∧
      (c.getRealtimeMetrics now).rateComponents =
        (c.activeSessions.entries.map (·.2)).filterMap (MetricsCollector.component now) ∧
      ((c.getRealtimeMetrics now).speedAvailable = true ↔
        (c.getRealtimeMetrics now).rateComponents ≠ []) := by
  have hstart : Summed ({} : RealtimeMetrics) :=
    ⟨by simp, rfl, fun _ => rfl, fun h => absurd rfl h, by simp⟩
  obtain ⟨⟨hpositive, hsum, hnone, hleast, hle⟩, hlist⟩ :=
    collect_spec (c.activeSessions.entries.map (·.2)) hstart
  refine ⟨⟨hpositive, hsum, hnone, hleast, hle⟩, hlist.trans (List.nil_append _), ?_⟩
  simp [getRealtimeMetrics]

/-! ## Sessions and rates -/

/-- At most 32 sessions, each with an admitted rate. -/
structure Bounded (c : MetricsCollector) : Prop where
  count : c.activeSessions.entries.length ≤ maxActiveSessions
  rates : ∀ k rate, c.activeSessions.lookup k = some rate →
    0 ≤ rate.speedMBps ∧ rate.speedMBps ≤ maxClientRate / bytesPerMegabyte

theorem Bounded.of_sessions (h : Bounded c) {d : MetricsCollector}
    (hsessions : d.activeSessions = c.activeSessions) : Bounded d :=
  ⟨hsessions ▸ h.count, hsessions ▸ h.rates⟩

theorem Bounded.erase (h : Bounded c) {d : MetricsCollector} (session : SessionId)
    (hsessions : d.activeSessions = c.activeSessions.erase session) : Bounded d := by
  refine ⟨?_, fun k rate hrate => ?_⟩
  · rw [hsessions]
    exact (List.kerase_sublist session c.activeSessions.entries).length_le.trans h.count
  · rw [hsessions] at hrate
    by_cases hk : k = session
    · rw [hk, AList.lookup_erase] at hrate
      cases hrate
    · rw [AList.lookup_erase_ne hk] at hrate
      exact h.rates k rate hrate

/-- A session is started where it was known, or where there is room. -/
theorem Bounded.insert (h : Bounded c) {d : MetricsCollector} {session : SessionId} {now : Nat}
    (hroom : (c.activeSessions.lookup session).isSome = true ∨
      c.activeSessions.entries.length < maxActiveSessions)
    (hsessions : d.activeSessions = c.activeSessions.insert session { startedAt := now }) :
    Bounded d := by
  refine ⟨?_, fun k rate hrate => ?_⟩
  · rw [hsessions]
    cases hfound : c.activeSessions.lookup session with
    | some old =>
      refine le_trans (Table.length_le_of_lookup fun k v hv => ?_) h.count
      by_cases hk : k = session
      · exact ⟨old, hk ▸ hfound⟩
      · rw [AList.lookup_insert_ne hk] at hv
        exact ⟨v, hv⟩
    | none =>
      rw [hfound] at hroom
      rw [AList.entries_insert_of_notMem (AList.lookup_eq_none.mp hfound), List.length_cons]
      exact hroom.resolve_left Bool.false_ne_true
  · rw [hsessions] at hrate
    by_cases hk : k = session
    · rw [hk, AList.lookup_insert] at hrate
      cases hrate
      exact ⟨le_refl _, by norm_num [maxClientRate, bytesPerMegabyte]⟩
    · rw [AList.lookup_insert_ne hk] at hrate
      exact h.rates k rate hrate

theorem resetWhenIdle_sessions (now : Nat) :
    (c.resetWhenIdle now).activeSessions = c.activeSessions := by
  unfold resetWhenIdle
  split <;> rfl

theorem erase_length_lt {session : SessionId} {rate : ClientRate}
    (h : c.activeSessions.lookup session = some rate) :
    (c.activeSessions.erase session).entries.length < c.activeSessions.entries.length := by
  have hmem : session ∈ c.activeSessions.entries.keys :=
    AList.lookup_isSome.mp (by rw [h]; rfl)
  obtain ⟨b, l₁, l₂, -, hentries, herase⟩ := List.exists_of_kerase hmem
  change (List.kerase session c.activeSessions.entries).length < _
  rw [herase, hentries, List.length_append, List.length_append, List.length_cons]
  omega

theorem Bounded.startSession (h : Bounded c) {now : Nat} {clientIp : ByteString}
    {sessionId oldest : SessionId} {d : MetricsCollector}
    (hstart : c.startSession now clientIp sessionId oldest = some d) : Bounded d := by
  have hreset : Bounded (c.resetWhenIdle now) := h.of_sessions (resetWhenIdle_sessions now)
  unfold MetricsCollector.startSession at hstart
  dsimp only at hstart
  split at hstart
  · split at hstart
    · rename_i hfull holdest
      cases hstart
      obtain ⟨rate, hrate, -⟩ := Option.any_eq_true .. |>.mp holdest
      have hlength := erase_length_lt hrate
      have hcount := hreset.count
      refine Bounded.insert (c := { c.resetWhenIdle now with
        activeSessions := (c.resetWhenIdle now).activeSessions.erase oldest })
        (hreset.erase oldest rfl) (Or.inr ?_) rfl
      dsimp only
      omega
    · cases hstart
  · rename_i hroom
    cases hstart
    refine hreset.insert ?_ rfl
    rw [Bool.and_eq_true, not_and_or, Option.isNone_iff_eq_none, decide_eq_true_iff,
      not_le] at hroom
    exact hroom.imp_left Option.isSome_iff_ne_none.mpr

theorem Bounded.endSession (h : Bounded c) (now : Nat) (sessionId : SessionId) :
    Bounded (c.endSession now sessionId).1 := by
  unfold MetricsCollector.endSession
  split
  · exact h
  · rename_i session _
    refine h.erase session ?_
    dsimp only
    split <;> rfl

theorem recordBytes_sessions (now bytes : Nat) :
    (c.recordBytes now bytes).activeSessions = c.activeSessions := by
  unfold MetricsCollector.recordBytes
  split <;> rfl

theorem observe_sessions (now : Nat) (bytesPerSecond : Rat) :
    (c.observe now bytesPerSecond).activeSessions = c.activeSessions := by
  unfold observe
  dsimp only
  split <;> split <;> rfl

theorem Bounded.recordClientSpeed (h : Bounded c) (now : Nat) {bytesPerSecond : Rat}
    (hrate : bytesPerSecond ≤ maxClientRate) (sessionId : SessionId) :
    Bounded (c.recordClientSpeed now bytesPerSecond sessionId).1 := by
  unfold MetricsCollector.recordClientSpeed
  split
  · exact h
  · rename_i hnegative
    rw [not_lt] at hnegative
    split
    · exact h
    · refine Bounded.of_sessions ?_ (observe_sessions now bytesPerSecond)
      refine ⟨?_, fun k rate hlookup => ?_⟩
      · simpa [Table.mapVal] using h.count
      · rw [Table.lookup_mapVal, Option.map_eq_some_iff] at hlookup
        obtain ⟨old, hold, rfl⟩ := hlookup
        split
        · have hpos : (0 : Rat) < bytesPerMegabyte := by norm_num [bytesPerMegabyte]
          exact ⟨div_nonneg hnegative hpos.le, div_le_div_of_nonneg_right hrate hpos.le⟩
        · exact h.rates k old hold

theorem clientMetrics_le {body : Json} {bytesPerSecond : Rat} {sessionId : SessionId}
    (h : clientMetrics body = some (bytesPerSecond, sessionId)) : bytesPerSecond ≤
    maxClientRate := by
  unfold clientMetrics at h
  obtain ⟨rate, -, h⟩ := Option.bind_eq_some_iff.mp h
  obtain ⟨session, -, h⟩ := Option.bind_eq_some_iff.mp h
  split at h
  · cases h
  · rename_i hrange
    cases h
    rw [Bool.or_eq_true, not_or, decide_eq_true_iff, decide_eq_true_iff, not_lt, not_lt] at hrange
    exact hrange.2

/-- **Every call keeps the bounds.** -/
theorem Bounded.step {s t : MetricsState} (h : Bounded s.collector) {action : MetricsAction}
    (hstep : s.step action = some t) : Bounded t.collector := by
  cases action with
  | startSession clientIp sessionId oldest =>
    obtain ⟨d, hd, rfl⟩ := Option.map_eq_some_iff.mp hstep
    exact h.startSession hd
  | endSession sessionId =>
    cases hstep
    exact h.endSession s.now sessionId
  | recordBytes bytes =>
    cases hstep
    exact h.of_sessions (recordBytes_sessions s.now bytes)
  | recordFileComplete =>
    cases hstep
    exact h.of_sessions rfl
  | clientMetrics body =>
    simp only [MetricsState.step] at hstep
    split at hstep
    · cases hstep
      exact h
    · rename_i bytesPerSecond sessionId hadmitted
      cases hstep
      exact h.recordClientSpeed s.now (clientMetrics_le hadmitted) sessionId
  | advance nanoseconds =>
    cases hstep
    exact h

theorem sum_le_length_mul {bound : Rat} {components : List RealtimeRateComponent}
    (h : ∀ component ∈ components, component.speedMBps ≤ bound) :
    (components.map (·.speedMBps)).sum ≤ components.length * bound := by
  induction components with
  | nil => simp
  | cons component rest ih =>
    have hhead := h component List.mem_cons_self
    have hrest := ih fun other hother => h other (List.mem_cons_of_mem _ hother)
    rw [List.map_cons, List.sum_cons, List.length_cons]
    push_cast
    linarith

end MetricsCollector

/-! ## The message -/

open PipeValueValidator PipeMessageParser MetricsCollector

theorem lease_checked {value : Int} (h0 : 0 ≤ value) (h : value ≤ 30000) :
    (JsonElement.getInt32 (.integer value)).bind (nonNegative · 30000) = some value := by
  rw [int32_checked value (by norm_num), if_pos ⟨h0, h⟩]

/-- A component as the GUI reads it. -/
def readComponent (component : RealtimeRateComponent) : SpeedComponentData where
  speedMBps := component.speedMBps
  freshForMs := component.freshForMs

theorem parseRateComponent_json {component : RealtimeRateComponent} (h0 : 0 ≤ component.speedMBps)
    (hspeed : component.speedMBps ≤ 1000000) (hfresh : component.freshForMs ≤ 30000) :
    parseRateComponent (RealtimeMetrics.componentJson component) =
      some (readComponent component) := by
  have hs : JsonElement.getProperty (RealtimeMetrics.componentJson component) "speedMBps" =
      some (.floating component.speedMBps) := rfl
  have hf : JsonElement.getProperty (RealtimeMetrics.componentJson component) "freshForMs" =
      some (.integer component.freshForMs) := rfl
  unfold parseRateComponent
  rw [doubleMember_eq hs, if_pos ⟨h0, hspeed⟩, intMember_eq hf (by norm_num),
    if_pos ⟨Int.natCast_nonneg _, by exact_mod_cast hfresh⟩]
  rfl

theorem parseComponents_json {result : List SpeedComponentData}
    {components : List RealtimeRateComponent}
    (hcount : result.length + components.length ≤ 32)
    (hall : ∀ component ∈ components, 0 ≤ component.speedMBps ∧ component.speedMBps ≤ 1000000 ∧
      component.freshForMs ≤ 30000) :
    parseComponents result (components.map RealtimeMetrics.componentJson) =
      some (result ++ components.map readComponent) := by
  induction components generalizing result with
  | nil => simp [parseComponents]
  | cons component rest ih =>
    obtain ⟨h0, hspeed, hfresh⟩ := hall component List.mem_cons_self
    rw [List.length_cons] at hcount
    have hroom : ¬ 32 ≤ result.length := by omega
    rw [List.map_cons]
    unfold parseComponents
    rw [if_neg hroom, parseRateComponent_json h0 hspeed hfresh, Option.bind_some, ih]
    · simp
    · rw [List.length_append, List.length_singleton]
      omega
    · exact fun other hother => hall other (List.mem_cons_of_mem _ hother)

/-- **What the collector promises of a reading.** -/
structure LiveRates (metrics : RealtimeMetrics) : Prop where
  count : metrics.rateComponents.length ≤ 32
  components : ∀ component ∈ metrics.rateComponents,
    0 ≤ component.speedMBps ∧ component.speedMBps ≤ 1000000 ∧
      0 < component.freshForMs ∧ component.freshForMs ≤ 30000
  sum : metrics.currentSpeedMBps = (metrics.rateComponents.map (·.speedMBps)).sum
  sum_le : metrics.currentSpeedMBps ≤ 4000000
  fresh_none : metrics.rateComponents = [] → metrics.speedFreshForMs = 0
  fresh_least : metrics.rateComponents ≠ [] →
    ∃ component ∈ metrics.rateComponents, component.freshForMs = metrics.speedFreshForMs
  fresh_le : ∀ component ∈ metrics.rateComponents,
    metrics.speedFreshForMs ≤ component.freshForMs
  available : metrics.speedAvailable = true ↔ metrics.rateComponents ≠ []

theorem MetricsCollector.Bounded.liveRates {c : MetricsCollector} (h : Bounded c) (now : Nat) :
    LiveRates (c.getRealtimeMetrics now) := by
  obtain ⟨⟨hpositive, hsum, hnone, hleast, hle⟩, hlist, havailable⟩ := getRealtimeMetrics_spec c now
  have hcount : (c.getRealtimeMetrics now).rateComponents.length ≤ 32 := by
    rw [hlist]
    refine (List.length_filterMap_le _ _).trans ?_
    rw [List.length_map]
    exact h.count
  have hmax : maxClientRate / bytesPerMegabyte ≤ 110000 := by
    norm_num [maxClientRate, bytesPerMegabyte]
  have hcomponents : ∀ component ∈ (c.getRealtimeMetrics now).rateComponents,
      0 ≤ component.speedMBps ∧ component.speedMBps ≤ maxClientRate / bytesPerMegabyte ∧
        0 < component.freshForMs ∧ component.freshForMs ≤ 30000 := by
    intro component hcomponent
    rw [hlist] at hcomponent
    obtain ⟨rate, hrate, hfound⟩ := List.mem_filterMap.mp hcomponent
    obtain ⟨⟨k, v⟩, he, rfl⟩ := List.mem_map.mp hrate
    obtain ⟨hspeed, hpos, hlease⟩ := component_spec hfound
    obtain ⟨h0, hbound⟩ := h.rates k v (Table.lookup_eq_some_iff.mpr he)
    rw [hspeed]
    exact ⟨h0, hbound, hpos, hlease⟩
  refine ⟨hcount, fun component hcomponent => ?_, hsum, ?_, hnone, hleast, hle, havailable⟩
  · obtain ⟨h0, hspeed, hfresh⟩ := hcomponents component hcomponent
    exact ⟨h0, by linarith, hfresh⟩
  · have hmul := sum_le_length_mul fun component hcomponent =>
      (hcomponents component hcomponent).2.1.trans hmax
    have hlength : ((c.getRealtimeMetrics now).rateComponents.length : Rat) ≤ 32 := by
      exact_mod_cast hcount
    rw [hsum]
    linarith

/-- The rate fields as the GUI reads them. -/
def readRates (metrics : RealtimeMetrics) : MetricsRates where
  speedMBps := metrics.currentSpeedMBps
  speedAvailable := metrics.speedAvailable
  speedFreshForMs := metrics.speedFreshForMs
  rateComponents := some (metrics.rateComponents.map readComponent)

/-- **The rate fields of such a reading are accepted.** -/
theorem LiveRates.parseRates {metrics : RealtimeMetrics} (h : LiveRates metrics) :
    parseRates metrics.data = some (readRates metrics) := by
  have h0 : 0 ≤ metrics.currentSpeedMBps := by
    rw [h.sum]
    refine List.sum_nonneg fun speed hspeed => ?_
    obtain ⟨component, hcomponent, rfl⟩ := List.mem_map.mp hspeed
    exact (h.components component hcomponent).1
  have hfresh : metrics.speedFreshForMs ≤ 30000 := by
    by_cases hnone : metrics.rateComponents = []
    · rw [h.fresh_none hnone]
      omega
    · obtain ⟨component, hcomponent, hleast⟩ := h.fresh_least hnone
      rw [← hleast]
      exact (h.components component hcomponent).2.2.2
  have hcomponents : parseRateComponents
      (.array (metrics.rateComponents.map RealtimeMetrics.componentJson)) =
        some (metrics.rateComponents.map readComponent) := by
    have hcount : ([] : List SpeedComponentData).length + metrics.rateComponents.length ≤ 32 := by
      simpa using h.count
    refine (parseComponents_json hcount fun component hcomponent => ?_).trans (by simp)
    obtain ⟨hzero, hspeed, -, hlease⟩ := h.components component hcomponent
    exact ⟨hzero, hspeed, hlease⟩
  have hspeed : JsonElement.getProperty metrics.data "speedMBps" =
      some (.floating metrics.currentSpeedMBps) := rfl
  have havailable : JsonElement.tryGetProperty metrics.data "speedAvailable" =
      some (some (.boolean metrics.speedAvailable)) := rfl
  have hlease : JsonElement.tryGetProperty metrics.data "speedFreshForMs" =
      some (some (.integer metrics.speedFreshForMs)) := rfl
  have hlist : JsonElement.tryGetProperty metrics.data "rateComponents" =
      some (some (.array (metrics.rateComponents.map RealtimeMetrics.componentJson))) := rfl
  have hleased := lease_checked (Int.natCast_nonneg metrics.speedFreshForMs)
    (by exact_mod_cast hfresh)
  unfold PipeMessageParser.parseRates optionalMember
  rw [doubleMember_eq hspeed, if_pos ⟨h0, h.sum_le⟩, havailable, hlease, hlist, Option.bind_some,
    Option.bind_some, Option.bind_some]
  simp only [hleased, hcomponents, Option.bind_eq_bind, Option.bind_some, Option.map_some]
  rfl

theorem parseCounts_isSome_iff (metrics : RealtimeMetrics) (rates : MetricsRates) :
    (parseCounts metrics.data rates).isSome = true ↔
      metrics.filesTransferred ≤ 10000000 ∧ metrics.totalBytes < 2 ^ 63 ∧
        metrics.sessionDurationSeconds ≤ 315576000 := by
  have hfiles : JsonElement.getProperty metrics.data "filesTransferred" =
      some (.integer metrics.filesTransferred) := rfl
  have hbytes : JsonElement.getProperty metrics.data "totalBytes" =
      some (.integer metrics.totalBytes) := rfl
  have hduration : JsonElement.getProperty metrics.data "durationSeconds" =
      some (.integer metrics.sessionDurationSeconds) := rfl
  have hactive : (JsonElement.getProperty metrics.data "isActive").bind getBoolean =
      some metrics.isActive := rfl
  unfold parseCounts
  rw [intMember_eq hfiles (by norm_num), longMember_eq hbytes (by norm_num),
    longMember_eq hduration (by norm_num), hactive]
  simp only [Option.bind_eq_bind, isSome_checked_bind, Option.bind_some, Option.pure_def,
    Option.isSome_some, and_true]
  omega

/-- **The message is read unless one of its other counts is out of range.** -/
theorem LiveRates.parse_isSome_iff {metrics : RealtimeMetrics} (h : LiveRates metrics) :
    (parseMetrics metrics.message).isSome = true ↔
      metrics.filesTransferred ≤ 10000000 ∧ metrics.totalBytes < 2 ^ 63 ∧
        metrics.sessionDurationSeconds ≤ 315576000 := by
  have hname : utf8ToWide (ascii "metrics") = some (wide "metrics") := by
    rw [utf8ToWide_ascii (by decide +kernel)]
    congr 1
  have htype : JsonElement.getProperty metrics.message "type" = some (.string (ascii "metrics")) :=
    rfl
  have hdata : JsonElement.getProperty metrics.message "data" = some metrics.data := rfl
  rw [parseMetrics, htype, hdata, Option.bind_some, JsonElement.getString, hname,
    Option.bind_eq_bind, Option.bind_some, Option.bind_eq_bind, Option.bind_some, if_pos rfl,
    h.parseRates, Option.bind_some, parseCounts_isSome_iff]

/-- **In every run a reading promises what the GUI checks, and its rates are accepted.** -/
theorem live_rates_accepted {created : Nat} {s : MetricsState}
    (hrun : Run MetricsState.step (fun _ _ => True) (.created created) s) :
    LiveRates (s.collector.getRealtimeMetrics s.now) ∧
      parseRates (s.collector.getRealtimeMetrics s.now).data =
        some (readRates (s.collector.getRealtimeMetrics s.now)) := by
  have hstart : MetricsCollector.Bounded (MetricsState.created created).collector :=
    ⟨Nat.zero_le _, fun k rate hrate => by cases hrate⟩
  have hbounded : MetricsCollector.Bounded s.collector :=
    hrun.invariant (I := fun s => MetricsCollector.Bounded s.collector) hstart
      fun _ _ _ h _ hstep => h.step hstep
  have hlive := hbounded.liveRates s.now
  exact ⟨hlive, hlive.parseRates⟩

/-- A report of a session. -/
def rateReport (bytesPerSecond : Rat) (session : SessionId) : Json :=
  .object [(ascii "bytesPerSecond", .floating bytesPerSecond), (ascii "sessionId", .string session)]

/-- The largest rate that the endpoint admits beside a slow one, two seconds later. -/
theorem live_rates_accepted_two :
    ∃ s, Run MetricsState.step (fun _ _ => True) (.created 0) s ∧
      (s.collector.getRealtimeMetrics s.now).rateComponents =
        [{ speedMBps := 1, freshForMs := 14777 },
          { speedMBps := 107374182400 / 1000000, freshForMs := 3000 }] ∧
      LiveRates (s.collector.getRealtimeMetrics s.now) := by
  obtain ⟨s, hrun, htest⟩ := Run.exists_of_exec MetricsState.step (P := fun _ _ => True)
    (fun _ _ => true)
    (fun s => decide ((s.collector.getRealtimeMetrics s.now).rateComponents =
      [{ speedMBps := 1, freshForMs := 14777 },
        { speedMBps := 107374182400 / 1000000, freshForMs := 3000 }]))
    (.created 0)
    [.startSession [] [1] [], .startSession [] [2] [], .clientMetrics (rateReport 107374182400 [1]),
      .clientMetrics (rateReport 1000000 [2]), .advance 2000000000]
    (fun _ _ _ => trivial) (by decide +kernel)
  exact ⟨s, hrun, of_decide_eq_true htest, (live_rates_accepted hrun).1⟩

end LocalMediaTransfer
