import HostMonitoring.Framework.Json
import Mathlib.Data.Rat.Defs

namespace HostMonitoring.Web

open HostMonitoring.Framework

def HOST_KEYS : List String :=
  ["id", "name", "os", "os_version", "kernel_version", "arch", "client_version", "registered_at",
    "last_seen_at", "latest_collected_at", "status", "capabilities", "cpu_usage_percent",
    "memory_usage_percent", "network_received_bytes_per_second",
    "network_transmitted_bytes_per_second", "disk_read_bytes_per_second",
    "disk_written_bytes_per_second", "max_temperature_celsius", "gpu_utilization_percent",
    "gpu_memory_usage_percent"]

def CAPABILITY_KEYS : List String := ["name", "available", "source", "error_kind", "message"]

def CAPABILITY_ERROR_KINDS : List String :=
  ["unsupported", "not_present", "driver_missing", "permission_denied", "transient", "invalid_data"]

/-- The fields of a record that has the keys and no others. -/
def recordWithExactKeys (keys : List String) (value : Json ℚ) : Option (List (String × Json ℚ)) :=
  match value with
  | .obj fields =>
    if fields.length = keys.length ∧ keys.all (Json.hasOwn fields) = true then some fields else none
  | _ => none

def isText : Json ℚ → Bool
  | .str s => decide (s ≠ "")
  | _ => false

def isNullableText : Json ℚ → Bool
  | .null => true
  | .str _ => true
  | _ => false

/-- Every number a JSON text can hold is finite. -/
def isNullableFiniteNumber : Json ℚ → Bool
  | .null => true
  | .num _ => true
  | _ => false

def isBoolean : Json ℚ → Bool
  | .bool _ => true
  | _ => false

/-- Reading a number past 2⁵³ as a double does not make it safe. -/
def isSafeInteger (n : ℚ) : Bool :=
  decide (n.den = 1 ∧ -(2 ^ 53 - 1) ≤ n ∧ n ≤ 2 ^ 53 - 1)

def isNonNegativeSafeInteger : Json ℚ → Bool
  | .num n => isSafeInteger n && decide (0 ≤ n)
  | _ => false

def isPositiveSafeInteger : Json ℚ → Bool
  | .num n => isSafeInteger n && decide (1 ≤ n)
  | _ => false

/-- One character for each class, and no more. -/
def fits : List (Char → Bool) → List Char → Bool
  | [], [] => true
  | p :: ps, c :: cs => p c && fits ps cs
  | _, _ => false

def isLowerHex (c : Char) : Bool := ('0' ≤ c && c ≤ '9') || ('a' ≤ c && c ≤ 'f')

/-- `^[0-9a-f]{8}-[0-9a-f]{4}-[1-8][0-9a-f]{3}-[89ab][0-9a-f]{3}-[0-9a-f]{12}$` -/
def uuidPattern : List (Char → Bool) :=
  List.replicate 8 isLowerHex ++ (· == '-') :: List.replicate 4 isLowerHex ++
    (· == '-') :: (fun c => '1' ≤ c && c ≤ '8') :: List.replicate 3 isLowerHex ++
      (· == '-') :: (fun c => c == '8' || c == '9' || c == 'a' || c == 'b') ::
        List.replicate 3 isLowerHex ++ (· == '-') :: List.replicate 12 isLowerHex

def isUuid : Json ℚ → Bool
  | .str s => fits uuidPattern s.toList
  | _ => false

def isDigit (c : Char) : Bool := '0' ≤ c && c ≤ '9'

/-- Exactly so many digits. -/
def number : Nat → List Char → Option (Nat × List Char)
  | 0, cs => some (0, cs)
  | n + 1, cs => do
    let (value, rest) ← number n cs
    match rest with
    | c :: rest => if isDigit c then some (10 * value + (c.toNat - 48), rest) else none
    | [] => none

def literal (c : Char) : List Char → Option (List Char)
  | c' :: rest => if c' = c then some rest else none
  | [] => none

structure Timestamp where
  year : Nat
  month : Nat
  day : Nat
  hour : Nat
  minute : Nat
  second : Nat
  fraction : List Char

/-- `(?:\.\d+)?Z$` -/
def fractionAndZone (cs : List Char) : Option (List Char) :=
  match cs with
  | '.' :: cs =>
    if cs.takeWhile isDigit ≠ [] ∧ cs.dropWhile isDigit = ['Z'] then some (cs.takeWhile isDigit)
    else none
  | cs => if cs = ['Z'] then some [] else none

/-- `^\d{4}-\d{2}-\d{2}T\d{2}:\d{2}:\d{2}(?:\.\d+)?Z$` -/
def timestamp (cs : List Char) : Option Timestamp := do
  let (year, cs) ← number 4 cs
  let (month, cs) ← number 2 (← literal '-' cs)
  let (day, cs) ← number 2 (← literal '-' cs)
  let (hour, cs) ← number 2 (← literal 'T' cs)
  let (minute, cs) ← number 2 (← literal ':' cs)
  let (second, cs) ← number 2 (← literal ':' cs)
  let fraction ← fractionAndZone cs
  return { year, month, day, hour, minute, second, fraction }

/-- `Date.parse` knows no second 60; the hour 24 is the end of a day. -/
def Timestamp.isFinite (t : Timestamp) : Bool :=
  decide (1 ≤ t.month ∧ t.month ≤ 12 ∧ 1 ≤ t.day ∧ t.day ≤ 31) &&
    (decide (t.hour ≤ 23 ∧ t.minute ≤ 59 ∧ t.second ≤ 59) ||
      (decide (t.hour = 24 ∧ t.minute = 0 ∧ t.second = 0) && t.fraction.all (· == '0')))

def isUtcTimestamp : Json ℚ → Bool
  | .str s => (timestamp s.toList).any Timestamp.isFinite
  | _ => false

def isErrorKind : Json ℚ → Bool
  | .null => true
  | .str s => decide (s ∈ CAPABILITY_ERROR_KINDS)
  | _ => false

def isNullableUtcTimestamp : Json ℚ → Bool
  | .null => true
  | value => isUtcTimestamp value

def isArrayOf (guard : Json ℚ → Bool) : Json ℚ → Bool
  | .arr elems => elems.all guard
  | _ => false

def isCapability (value : Json ℚ) : Bool :=
  match recordWithExactKeys CAPABILITY_KEYS value with
  | none => false
  | some fields =>
    let holds (guard : Json ℚ → Bool) (key : String) : Bool := (Json.get? fields key).any guard
    holds isText "name" && holds isBoolean "available" && holds isText "source" &&
      holds isErrorKind "error_kind" && holds isNullableText "message"

def isHost (value : Json ℚ) : Bool :=
  match recordWithExactKeys HOST_KEYS value with
  | none => false
  | some fields =>
    let holds (guard : Json ℚ → Bool) (key : String) : Bool := (Json.get? fields key).any guard
    holds isUuid "id" && holds isText "name" && holds isText "os" &&
      holds isNullableText "os_version" && holds isNullableText "kernel_version" &&
      holds isText "arch" && holds isText "client_version" && holds isUtcTimestamp "registered_at" &&
      holds isUtcTimestamp "last_seen_at" && holds isNullableUtcTimestamp "latest_collected_at" &&
      holds isText "status" && holds (isArrayOf isCapability) "capabilities" &&
      holds isNullableFiniteNumber "cpu_usage_percent" &&
      holds isNullableFiniteNumber "memory_usage_percent" &&
      holds isNullableFiniteNumber "network_received_bytes_per_second" &&
      holds isNullableFiniteNumber "network_transmitted_bytes_per_second" &&
      holds isNullableFiniteNumber "disk_read_bytes_per_second" &&
      holds isNullableFiniteNumber "disk_written_bytes_per_second" &&
      holds isNullableFiniteNumber "max_temperature_celsius" &&
      holds isNullableFiniteNumber "gpu_utilization_percent" &&
      holds isNullableFiniteNumber "gpu_memory_usage_percent"

def isHostListResponse (value : Json ℚ) : Bool :=
  match recordWithExactKeys ["hosts", "total", "limit", "offset"] value with
  | none => false
  | some fields =>
    let holds (guard : Json ℚ → Bool) (key : String) : Bool := (Json.get? fields key).any guard
    holds (isArrayOf isHost) "hosts" && holds isNonNegativeSafeInteger "total" &&
      holds isPositiveSafeInteger "limit" && holds isNonNegativeSafeInteger "offset"

end HostMonitoring.Web
