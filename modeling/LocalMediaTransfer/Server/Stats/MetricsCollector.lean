import Mathlib.Tactic
import LocalMediaTransfer.Lib.Run
import LocalMediaTransfer.Lib.Table
import LocalMediaTransfer.Server.Json

/-!
# Live transfer metrics of the receiver

Model of `MetricsCollector` (`stats/MetricsCollector.cpp`), of the `/client_metrics` handler that
reports rates to it (`HttpServer.cpp`) and of `PipeServer::sendMetrics`.  Rates are exact rationals;
the steady clock counts nanoseconds and never goes back.

* `startSession`, `endSession`, `recordBytes`, `recordClientSpeed` — the calls.
* `getRealtimeMetrics` — the rates that are still fresh.
* `clientMetrics` — what the endpoint admits.
* `metricsMessage` — what the GUI is sent.
-/

set_option autoImplicit false

namespace LocalMediaTransfer

open Lib

def bytesPerMegabyte : Rat := 1000000

/-- `MaxNativeProgressBytes`. -/
def maxNativeProgressBytes : Rat := 8 * 1024 * 1024

/-- `std::clamp`. -/
def clamp (value low high : Rat) : Rat :=
  if value < low then low else if high < value then high else value

/-- `speedLifetime`, in milliseconds. -/
def speedLifetime (bytesPerSecond : Rat) : Nat :=
  if bytesPerSecond ≤ 0 then 5000
  else
    let milliseconds := 2 * maxNativeProgressBytes / bytesPerSecond * 1000
    (clamp milliseconds 5000 30000).floor.toNat

/-- `ClientRate`; times are readings of the clock. -/
structure ClientRate where
  speedMBps : Rat := 0
  hasSample : Bool := false
  startedAt : Nat := 0
  receivedAt : Nat := 0
  deriving DecidableEq

/-- `RealtimeRateComponent`. -/
structure RealtimeRateComponent where
  speedMBps : Rat
  freshForMs : Nat
  deriving DecidableEq

structure RealtimeMetrics where
  currentSpeedMBps : Rat := 0
  speedAvailable : Bool := false
  speedFreshForMs : Nat := 0
  rateComponents : List RealtimeRateComponent := []
  filesTransferred : Nat := 0
  totalBytes : Nat := 0
  sessionDurationSeconds : Nat := 0
  isActive : Bool := false
  deriving DecidableEq

abbrev SessionId := ByteString

structure MetricsCollector where
  hasTransferStarted : Bool := false
  clientIp : ByteString := []
  sessionStart : Nat := 0
  sessionEnd : Nat := 0
  firstTransferTime : Nat := 0
  totalBytes : Nat := 0
  filesTransferred : Nat := 0
  /-- An unordered map: its order is any. -/
  activeSessions : Table SessionId ClientRate := ∅
  peakSpeedMBps : Rat := 0
  speedHistory : List (Nat × Rat) := []
  lastHistoryUpdate : Nat := 0

def maxActiveSessions : Nat := 32
def maxSpeedHistory : Nat := 300

namespace MetricsCollector

variable (c : MetricsCollector) (now : Nat)

/-! ## Sessions -/

/-- What `startSession` resets when no session is active. -/
def resetWhenIdle : MetricsCollector :=
  if c.activeSessions.entries.isEmpty then
    { c with
      hasTransferStarted := false
      sessionStart := now
      sessionEnd := now
      firstTransferTime := now
      totalBytes := 0
      filesTransferred := 0
      peakSpeedMBps := 0
      speedHistory := []
      lastHistoryUpdate := now }
  else c

/-- `oldest` may be what `std::min_element` returns: an element with the least `startedAt`. -/
def isOldest (oldest : SessionId) : Bool :=
  (c.activeSessions.lookup oldest).any fun rate =>
    c.activeSessions.entries.all fun e => rate.startedAt ≤ e.2.startedAt

/-- `startSession`, `none` when `oldest` is needed and is not an oldest session. -/
def startSession (clientIp : ByteString) (sessionId oldest : SessionId) : Option MetricsCollector :=
  let c := c.resetWhenIdle now
  let start (sessions : Table SessionId ClientRate) : MetricsCollector :=
    { c with activeSessions := sessions.insert sessionId { startedAt := now }, clientIp }
  if (c.activeSessions.lookup sessionId).isNone &&
      maxActiveSessions ≤ c.activeSessions.entries.length then
    if c.isOldest oldest then some (start (c.activeSessions.erase oldest)) else none
  else some (start c.activeSessions)

/-- The session that a call means: an empty ID stands for the only one. -/
def findSession (sessionId : SessionId) : Option SessionId :=
  if (c.activeSessions.lookup sessionId).isSome then some sessionId
  else if sessionId = [] then
    match c.activeSessions.entries with
    | [e] => some e.1
    | _ => none
  else none

/-- `endSession`, with its return value. -/
def endSession (sessionId : SessionId) : MetricsCollector × Bool :=
  match c.findSession sessionId with
  | none => (c, false)
  | some session =>
    let c := { c with activeSessions := c.activeSessions.erase session }
    (if c.activeSessions.entries.isEmpty then { c with sessionEnd := now } else c, true)

/-! ## Samples -/

def recordBytes (bytes : Nat) : MetricsCollector :=
  let c :=
    if !c.hasTransferStarted && 0 < bytes then
      { c with hasTransferStarted := true, firstTransferTime := now }
    else c
  { c with totalBytes := (c.totalBytes + bytes) % 2 ^ 64 }

def recordFileComplete : MetricsCollector :=
  { c with filesTransferred := (c.filesTransferred + 1) % 2 ^ 64 }

/-- The sum of the rates that are fresh to the nanosecond. -/
def aggregateSpeedMBps : Rat :=
  (c.activeSessions.entries.map fun e =>
    if e.2.hasSample &&
        now - e.2.receivedAt < speedLifetime (e.2.speedMBps * bytesPerMegabyte) * 1000000 then
      e.2.speedMBps
    else 0).sum

/-- The peak and the history of one sample. -/
def observe (bytesPerSecond : Rat) : MetricsCollector :=
  let aggregate := c.aggregateSpeedMBps now
  let c := { c with peakSpeedMBps := max c.peakSpeedMBps aggregate }
  let c :=
    if !c.hasTransferStarted && 0 < bytesPerSecond then
      { c with hasTransferStarted := true, firstTransferTime := now }
    else c
  if 1000000000 ≤ now - c.lastHistoryUpdate then
    let historyBase := if c.hasTransferStarted then c.firstTransferTime else c.sessionStart
    let history := c.speedHistory ++ [((now - historyBase) / 1000000000, aggregate)]
    { c with
      speedHistory := history.drop (history.length - maxSpeedHistory)
      lastHistoryUpdate := now }
  else c

/-- `recordClientSpeed` of a finite rate, with its return value. -/
def recordClientSpeed (bytesPerSecond : Rat) (sessionId : SessionId) : MetricsCollector × Bool :=
  if bytesPerSecond < 0 then (c, false)
  else
    match c.findSession sessionId with
    | none => (c, false)
    | some session =>
      let sample (rate : ClientRate) : ClientRate :=
        { rate with
          speedMBps := bytesPerSecond / bytesPerMegabyte
          receivedAt := now
          hasSample := true }
      let c := { c with
        activeSessions :=
          c.activeSessions.mapVal fun k rate => if k = session then sample rate else rate }
      (c.observe now bytesPerSecond, true)

/-! ## Readings -/

/-- The component of a session, if its sample is still fresh. -/
def component (rate : ClientRate) : Option RealtimeRateComponent :=
  if !rate.hasSample then none
  else
    let lifetime := speedLifetime (rate.speedMBps * bytesPerMegabyte)
    let age := (now - rate.receivedAt) / 1000000
    if lifetime ≤ age then none
    else some { speedMBps := rate.speedMBps, freshForMs := lifetime - age }

/-- The loop of `getRealtimeMetrics` over the sessions. -/
def collect : List ClientRate → RealtimeMetrics → RealtimeMetrics
  | [], metrics => metrics
  | rate :: rest, metrics =>
    match component now rate with
    | none => collect rest metrics
    | some component =>
      collect rest { metrics with
        rateComponents := metrics.rateComponents ++ [component]
        currentSpeedMBps := metrics.currentSpeedMBps + component.speedMBps
        speedFreshForMs :=
          if metrics.speedFreshForMs = 0 then component.freshForMs
          else min metrics.speedFreshForMs component.freshForMs }

def getRealtimeMetrics : RealtimeMetrics :=
  let metrics := collect now (c.activeSessions.entries.map (·.2)) {}
  let isActive := !c.activeSessions.entries.isEmpty
  { metrics with
    speedAvailable := !metrics.rateComponents.isEmpty
    filesTransferred := c.filesTransferred
    totalBytes := c.totalBytes
    isActive
    sessionDurationSeconds :=
      if isActive && c.hasTransferStarted then (now - c.firstTransferTime) / 1000000000 else 0 }

end MetricsCollector

/-! ## The endpoint -/

/-- `body["bytesPerSecond"]`, checked to be a number. -/
def reportedRate (body : Json) : Option Rat :=
  match body with
  | .object members => (members.lookup (ascii "bytesPerSecond")).bind Json.getDouble
  | _ => none

def maxClientRate : Rat := 100 * 1024 * 1024 * 1024

/-- The rate and the session that `/client_metrics` admits, `none` where it answers 400. -/
def clientMetrics (body : Json) : Option (Rat × SessionId) := do
  let bytesPerSecond ← reportedRate body
  let sessionId ← Json.value Json.getString "sessionId" [] body
  if bytesPerSecond < 0 || maxClientRate < bytesPerSecond then none
  else return (bytesPerSecond, sessionId)

/-! ## The message to the GUI -/

namespace RealtimeMetrics

def componentJson (component : RealtimeRateComponent) : Json :=
  .object [(ascii "speedMBps", .floating component.speedMBps),
    (ascii "freshForMs", .integer component.freshForMs)]

/-- The `data` member. -/
def data (metrics : RealtimeMetrics) : Json :=
  .object [
    (ascii "speedMBps", .floating metrics.currentSpeedMBps),
    (ascii "speedAvailable", .boolean metrics.speedAvailable),
    (ascii "speedFreshForMs", .integer metrics.speedFreshForMs),
    (ascii "rateComponents", .array (metrics.rateComponents.map componentJson)),
    (ascii "filesTransferred", .integer metrics.filesTransferred),
    (ascii "totalBytes", .integer metrics.totalBytes),
    (ascii "durationSeconds", .integer metrics.sessionDurationSeconds),
    (ascii "isActive", .boolean metrics.isActive)]

/-- What `sendMetrics` sends. -/
def message (metrics : RealtimeMetrics) : Json :=
  .object [(ascii "type", .string (ascii "metrics")), (ascii "data", metrics.data)]

end RealtimeMetrics

/-! ## Runs -/

/-- The collector and the clock. -/
structure MetricsState where
  collector : MetricsCollector := {}
  now : Nat := 0

inductive MetricsAction where
  | startSession (clientIp : ByteString) (sessionId oldest : SessionId)
  | endSession (sessionId : SessionId)
  | recordBytes (bytes : Nat)
  | recordFileComplete
  /-- A request to `/client_metrics`. -/
  | clientMetrics (body : Json)
  | advance (nanoseconds : Nat)

namespace MetricsState

def step (s : MetricsState) : MetricsAction → Option MetricsState
  | .startSession clientIp sessionId oldest =>
    (s.collector.startSession s.now clientIp sessionId oldest).map ({ s with collector := · })
  | .endSession sessionId => some { s with collector := (s.collector.endSession s.now sessionId).1 }
  | .recordBytes bytes => some { s with collector := s.collector.recordBytes s.now bytes }
  | .recordFileComplete => some { s with collector := s.collector.recordFileComplete }
  | .clientMetrics body =>
    match LocalMediaTransfer.clientMetrics body with
    | none => some s
    | some (bytesPerSecond, sessionId) =>
      some { s with
        collector := (s.collector.recordClientSpeed s.now bytesPerSecond sessionId).1 }
  | .advance nanoseconds => some { s with now := s.now + nanoseconds }

/-- The collector as constructed at some time. -/
def created (now : Nat) : MetricsState := { collector := { lastHistoryUpdate := now }, now }

end MetricsState

end LocalMediaTransfer
