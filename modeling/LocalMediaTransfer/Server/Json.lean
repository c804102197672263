import LocalMediaTransfer.Server.ByteString

/-!
# JSON values as the receiver reads them

`nlohmann::json` after parsing, and its `value(key, default)` with the conversions that the receiver
asks for.  Where the library throws, the result is `none`.

* Integers are those that the parser keeps as integers, at most 64 bits wide; they are converted by
  `static_cast`, which wraps.
* A number with a fraction or an exponent is a `double`, given by its value; it is cut off toward
  zero, and outside the target range the x64 conversion yields the least value.
* `int` and `unsigned` also take a Boolean; `int64_t`, `uint64_t` and `double` do not.
-/

set_option autoImplicit false

namespace LocalMediaTransfer

/-- A parsed document; the keys of an object are distinct. -/
inductive Json where
  | null
  | boolean (value : Bool)
  | integer (value : Int)
  | floating (value : Rat)
  | string (value : ByteString)
  | array (items : List Json)
  | object (members : List (ByteString × Json))

/-- A `double` as a signed integer of some width. -/
def truncated (bits : Nat) (value : Rat) : Int :=
  let whole := if 0 ≤ value then value.floor else value.ceil
  if -2 ^ (bits - 1) ≤ whole ∧ whole < 2 ^ (bits - 1) then whole else -2 ^ (bits - 1)

/-- The nearest `double` of an integer, ties to even. -/
def nearestDouble (value : Int) : Rat :=
  let size := value.natAbs
  if size < 2 ^ 53 then value
  else
    let unit := 2 ^ (Nat.log2 size - 52)
    let whole := size / unit
    let rest := size % unit
    let rounded :=
      if 2 * rest < unit ∨ (2 * rest = unit ∧ whole % 2 = 0) then whole else whole + 1
    if 0 ≤ value then (rounded * unit : Nat) else -(rounded * unit : Nat)

namespace Json

/-- `get<int>()`. -/
def getInt : Json → Option Int
  | .boolean value => some (if value then 1 else 0)
  | .integer value => some (value.bmod (2 ^ 32))
  | .floating value => some (truncated 32 value)
  | _ => none

/-- `get<unsigned>()`. -/
def getUnsigned : Json → Option Nat
  | .boolean value => some (if value then 1 else 0)
  | .integer value => some (value % 2 ^ 32).toNat
  | .floating value => some (truncated 64 value % 2 ^ 32).toNat
  | _ => none

/-- `get<int64_t>()`. -/
def getInt64 : Json → Option Int
  | .integer value => some (value.bmod (2 ^ 64))
  | .floating value => some (truncated 64 value)
  | _ => none

/-- `get<uint64_t>()`. -/
def getUInt64 : Json → Option Nat
  | .integer value => some (value % 2 ^ 64).toNat
  | .floating value =>
      some (if 0 ≤ value ∧ value < 2 ^ 64 then value.floor else truncated 64 value % 2 ^ 64).toNat
  | _ => none

/-- `get<bool>()`. -/
def getBool : Json → Option Bool
  | .boolean value => some value
  | _ => none

/-- `get<double>()`. -/
def getDouble : Json → Option Rat
  | .integer value => some (nearestDouble value)
  | .floating value => some value
  | _ => none

/-- `get<std::string>()`. -/
def getString : Json → Option ByteString
  | .string value => some value
  | _ => none

/-- `value(key, default)`. -/
def value {α : Type} (get : Json → Option α) (key : String) (fallback : α) : Json → Option α
  | .object members =>
      match members.lookup (ascii key) with
      | none => some fallback
      | some member => get member
  | _ => none

end Json

theorem value_head {α : Type} {get : Json → Option α} {key : String} {fallback : α} {v : Json}
    {rest : List (ByteString × Json)} :
    Json.value get key fallback (.object ((ascii key, v) :: rest)) = get v := by
  simp only [Json.value, List.lookup_cons_self]

theorem value_tail {α : Type} {get : Json → Option α} {key other : String} {fallback : α} {v : Json}
    {rest : List (ByteString × Json)} (h : (ascii key == ascii other) = false) :
    Json.value get key fallback (.object ((ascii other, v) :: rest)) =
      Json.value get key fallback (.object rest) := by
  simp only [Json.value, List.lookup_cons, h]

end LocalMediaTransfer
