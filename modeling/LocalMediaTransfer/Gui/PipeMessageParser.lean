import LocalMediaTransfer.Server.Json
import LocalMediaTransfer.Server.Unicode

/-!
# The GUI's parser of pipe messages

Model of `PipeValueValidator` and of the part of `PipeMessageParser` that reads a
`transfer_history` message (`Services/Pipe`).  A `JsonException` or another exception gives `none`:
the whole message is dropped.

* `JsonElement` — the getters of `System.Text.Json`.
* `parse` — `PipeMessageParser.Parse` of such a message.
-/

set_option autoImplicit false

namespace LocalMediaTransfer

namespace JsonElement

/-- `TryGetProperty`; `none` when it throws, `some none` when there is no such member. -/
def tryGetProperty (element : Json) (key : String) : Option (Option Json) :=
  match element with
  | .object members => some (members.lookup (ascii key))
  | _ => none

/-- `GetProperty`. -/
def getProperty (element : Json) (key : String) : Option Json :=
  (tryGetProperty element key).join

/-- `GetInt32`. -/
def getInt32 : Json → Option Int
  | .integer value => if -2 ^ 31 ≤ value ∧ value < 2 ^ 31 then some value else none
  | _ => none

/-- `GetInt64`. -/
def getInt64 : Json → Option Int
  | .integer value => if -2 ^ 63 ≤ value ∧ value < 2 ^ 63 then some value else none
  | _ => none

/-- `GetDouble`. -/
def getDouble : Json → Option Rat
  | .integer value => some (nearestDouble value)
  | .floating value => some value
  | _ => none

/-- `GetString() ?? fallback`. -/
def getString (fallback : WideString) : Json → Option WideString
  | .string value => utf8ToWide value
  | .null => some fallback
  | _ => none

end JsonElement

namespace PipeValueValidator

/-- `MaxTransferHistoryEntries`. -/
def MaxTransferHistoryEntries : Nat := 120

/-- `DateTimeOffset(2000, 1, 1, 0, 0, 0, TimeSpan.Zero).ToUnixTimeSeconds()`. -/
def MinimumUnixSeconds : Int := 946684800

/-- `char.IsWhiteSpace`. -/
def isWhiteSpace (u : UInt16) : Bool :=
  (9 ≤ u && u ≤ 13) || u == 32 || u == 0x85 || u == 0xA0 || u == 0x1680 ||
    (0x2000 ≤ u && u ≤ 0x200A) || u == 0x2028 || u == 0x2029 || u == 0x202F || u == 0x205F ||
    u == 0x3000

/-- `char.IsControl`. -/
def isControl (u : UInt16) : Bool := u ≤ 0x1F || (0x7F ≤ u && u ≤ 0x9F)

/-- `IsBidirectionalControl`. -/
def isBidirectionalControl (u : UInt16) : Bool :=
  (0x202A ≤ u && u ≤ 0x202E) || (0x2066 ≤ u && u ≤ 0x2069)

/-- `ContainsUnsafeCharacters`. -/
def containsUnsafeCharacters (value : WideString) : Bool :=
  value.any fun u => isControl u || isBidirectionalControl u

/-- `Identifier`. -/
def identifier (value : WideString) (maxLength : Nat) : Option WideString :=
  if value.all isWhiteSpace || maxLength < value.length || containsUnsafeCharacters value then none
  else some value

/-- `NonNegativeInt` and `NonNegativeLong`. -/
def nonNegative (value maximum : Int) : Option Int :=
  if value < 0 || maximum < value then none else some value

/-- `NonNegativeFinite`; a JSON number is finite. -/
def nonNegativeFinite (value maximum : Rat) : Option Rat :=
  if value < 0 || maximum < value then none else some value

/-- `UnixMilliseconds`; `utcNow` is the clock of the GUI, in milliseconds. -/
def unixMilliseconds (utcNow value : Int) : Option Int :=
  if value < MinimumUnixSeconds * 1000 || utcNow + 2 * 86400000 < value then none else some value

end PipeValueValidator

/-- `TransferHistoryData`. -/
structure TransferHistoryData where
  sessionId : WideString
  completedAt : Int
  selectedFiles : Int
  uploadedFiles : Int
  skippedFiles : Int
  failedFiles : Int
  selectedBytes : Int
  selectedMediaBytes : Int
  additionalComponentsBytes : Int
  selectedMediaFiles : Int
  additionalComponentsFiles : Int
  uploadedBytes : Int
  skippedBytes : Int
  totalDurationMs : Int
  averageSpeedMBps : Rat
  peakSpeedMBps : Rat

namespace PipeMessageParser

open JsonElement PipeValueValidator

/-- A member that is read as an `int` and checked. -/
def intMember (item : Json) (key : String) (maximum : Int) : Option Int :=
  ((getProperty item key).bind getInt32).bind (nonNegative · maximum)

/-- A member that is read as a `long` and checked. -/
def longMember (item : Json) (key : String) (maximum : Int) : Option Int :=
  ((getProperty item key).bind getInt64).bind (nonNegative · maximum)

/-- A member that is read as a `double` and checked. -/
def doubleMember (item : Json) (key : String) (maximum : Rat) : Option Rat :=
  ((getProperty item key).bind getDouble).bind (nonNegativeFinite · maximum)

/-- A member that may be missing: another value stands in for it. -/
def orMissing (get : Json → Option Int) (item : Json) (key : String) (fallback : Option Int) :
    Option Int :=
  (tryGetProperty item key).bind fun found =>
    match found with
    | some value => get value
    | none => fallback

/-- One element of `ParseTransferHistory`. -/
def parseTransferHistoryItem (utcNow : Int) (item : Json) : Option TransferHistoryData := do
  let maxLong : Int := 2 ^ 63 - 1
  return {
    sessionId := ← ((getProperty item "sessionId").bind (getString [])).bind (identifier · 128)
    completedAt :=
      ← ((getProperty item "completedAt").bind getInt64).bind (unixMilliseconds utcNow)
    selectedFiles := ← intMember item "selectedFiles" 1000000
    uploadedFiles := ← intMember item "uploadedFiles" 1000000
    skippedFiles := ← intMember item "skippedFiles" 1000000
    failedFiles := ← intMember item "failedFiles" 1000000
    selectedBytes := ← longMember item "selectedBytes" maxLong
    selectedMediaBytes :=
      ← (orMissing getInt64 item "selectedMediaBytes"
        ((getProperty item "selectedBytes").bind getInt64)).bind (nonNegative · maxLong)
    additionalComponentsBytes :=
      ← (orMissing getInt64 item "additionalComponentsBytes" (some 0)).bind (nonNegative · maxLong)
    selectedMediaFiles :=
      ← (orMissing getInt32 item "selectedMediaFiles"
        ((getProperty item "selectedFiles").bind getInt32)).bind (nonNegative · 1000000)
    additionalComponentsFiles :=
      ← (orMissing getInt32 item "additionalComponentsFiles" (some 0)).bind (nonNegative · 1000000)
    uploadedBytes := ← longMember item "uploadedBytes" maxLong
    skippedBytes := ← longMember item "skippedBytes" maxLong
    totalDurationMs := ← longMember item "totalDurationMs" 315576000000
    averageSpeedMBps := ← doubleMember item "averageSpeedMBps" 1000000
    peakSpeedMBps := ← doubleMember item "peakSpeedMBps" 1000000 }

/-- The loop of `ParseTransferHistory`. -/
def parseItems (utcNow : Int) : List TransferHistoryData → List Json →
    Option (List TransferHistoryData)
  | history, [] => some history
  | history, item :: rest =>
      if MaxTransferHistoryEntries ≤ history.length then none
      else
        (parseTransferHistoryItem utcNow item).bind fun data =>
          parseItems utcNow (history ++ [data]) rest

/-- `ParseTransferHistory`. -/
def parseTransferHistory (utcNow : Int) : Json → Option (List TransferHistoryData)
  | .array items => parseItems utcNow [] items
  | _ => none

/-- `Parse`, for messages of this type. -/
def parse (utcNow : Int) (message : Json) : Option (List TransferHistoryData) := do
  let type ← (getProperty message "type").bind (getString [])
  let data ← getProperty message "data"
  if type = wide "transfer_history" then parseTransferHistory utcNow data else none

end PipeMessageParser

end LocalMediaTransfer
