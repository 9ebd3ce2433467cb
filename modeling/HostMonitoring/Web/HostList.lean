import HostMonitoring.Store.Points
import HostMonitoring.Store.Presentable
import HostMonitoring.Web.Guard

namespace HostMonitoring.Web

open HostMonitoring.Framework
open HostMonitoring.Protocol
open HostMonitoring.Store

/-- How a timestamp is written into JSON. -/
def timestampText (t : DateTime) : List Char :=
  DateTime.hourText (t.secs / 3600) ++ ':' :: (digits 2 (t.secs % 3600 / 60).toNat ++
    (':' :: (digits 2 ((t.secs % 60).toNat + t.nanos / 1000000000) ++
      (DateTime.fractionText (t.nanos % 1000000000) ++ ['Z']))))

def timestampJson (t : DateTime) : Json ℚ := .str (String.ofList (timestampText t))

def errorKindText : CapabilityErrorKind → String
  | .unsupported => "unsupported"
  | .notPresent => "not_present"
  | .driverMissing => "driver_missing"
  | .permissionDenied => "permission_denied"
  | .transient => "transient"
  | .invalidData => "invalid_data"

def capabilityFields (c : Capability) : List (String × Json ℚ) :=
  [("name", .str c.name), ("available", .bool c.available), ("source", .str c.source),
    ("error_kind", .ofOption (fun kind => .str (errorKindText kind)) c.errorKind),
    ("message", .ofOption .str c.message)]

def capabilityJson (c : Capability) : Json ℚ := .obj (capabilityFields c)

def hostFields (s : HostSummary) : List (String × Json ℚ) :=
  [("id", .str s.id), ("name", .str s.name), ("os", .str s.os),
    ("os_version", .ofOption .str s.osVersion), ("kernel_version", .ofOption .str s.kernelVersion),
    ("arch", .str s.arch), ("client_version", .str s.clientVersion),
    ("registered_at", timestampJson s.registeredAt), ("last_seen_at", timestampJson s.lastSeenAt),
    ("latest_collected_at", .ofOption timestampJson s.latestCollectedAt), ("status", .str s.status),
    ("capabilities", .arr (s.capabilities.map capabilityJson)),
    ("cpu_usage_percent", .ofOption .num s.metrics.cpuUsagePercent),
    ("memory_usage_percent", .ofOption .num s.metrics.memoryUsagePercent),
    ("network_received_bytes_per_second", .ofOption .num s.metrics.networkReceivedBytesPerSecond),
    ("network_transmitted_bytes_per_second",
      .ofOption .num s.metrics.networkTransmittedBytesPerSecond),
    ("disk_read_bytes_per_second", .ofOption .num s.metrics.diskReadBytesPerSecond),
    ("disk_written_bytes_per_second", .ofOption .num s.metrics.diskWrittenBytesPerSecond),
    ("max_temperature_celsius", .ofOption .num s.metrics.maxTemperatureCelsius),
    ("gpu_utilization_percent", .ofOption .num s.metrics.gpuUtilizationPercent),
    ("gpu_memory_usage_percent", .ofOption .num s.metrics.gpuMemoryUsagePercent)]

def hostJson (s : HostSummary) : Json ℚ := .obj (hostFields s)

structure HostListResponse where
  hosts : List HostSummary
  total : Nat
  limit : Int
  offset : Int

def hostListJson (r : HostListResponse) : Json ℚ :=
  .obj [("hosts", .arr (r.hosts.map hostJson)), ("total", .num r.total), ("limit", .num r.limit),
    ("offset", .num r.offset)]

/-- The answer of the host list endpoint. -/
def hostList (limit offset : Option Int) (now : DateTime) (db : Db) : HostListResponse :=
  let limit := max 1 (min (limit.getD 200) 1000)
  let offset := max (offset.getD 0) 0
  let (hosts, total) := listHosts limit offset now db
  { hosts, total, limit, offset }

section Timestamps

theorem isDigit_digit (d : Nat) (h : d < 10) : isDigit (digit d) = true := by
  have finite : ∀ d < 10, isDigit (digit d) = true := by decide
  exact finite d h

theorem digit_value (d : Nat) (h : d < 10) : (digit d).toNat - 48 = d := by
  have finite : ∀ d < 10, (digit d).toNat - 48 = d := by decide
  exact finite d h

theorem isDigit_digits (width n : Nat) : ∀ c ∈ digits width n, isDigit c = true := by
  induction width generalizing n with
  | zero => simp [digits]
  | succ width ih =>
    intro c hc
    obtain hc | hc := List.mem_append.mp hc
    · exact ih _ c hc
    · rw [List.mem_singleton.mp hc]
      exact isDigit_digit _ (Nat.mod_lt _ (by decide))

/-- Digits read back. -/
theorem number_digits (width n : Nat) (cs : List Char) :
    number width (digits width n ++ cs) = some (n % 10 ^ width, cs) := by
  induction width generalizing n cs with
  | zero => simp [number, digits, Nat.mod_one]
  | succ width ih =>
    have last : n % 10 < 10 := Nat.mod_lt _ (by decide)
    have split : n % 10 ^ (width + 1) = 10 * (n / 10 % 10 ^ width) + n % 10 := by
      rw [Nat.pow_succ', Nat.mod_mul, Nat.add_comm]
    rw [digits, List.append_assoc, number, ih, split]
    simp [isDigit_digit _ last, digit_value _ last]

theorem number_sign (c : Char) (hc : isDigit c = false) (width : Nat) (cs : List Char) :
    number (width + 1) (c :: cs) = none := by
  induction width with
  | zero => simp [number, hc]
  | succ width ih => rw [number, ih]; rfl

theorem fraction_digits (groups : List Nat) : ∀ c ∈ fraction groups, isDigit c = true := by
  induction groups with
  | nil => simp [fraction]
  | cons g groups ih =>
    intro c hc
    rw [fraction] at hc
    split_ifs at hc
    · exact absurd hc List.not_mem_nil
    · obtain hc | hc := List.mem_append.mp hc
      · exact isDigit_digits 3 g c hc
      · exact ih c hc

theorem fractionAndZone_text (nano : Nat) (h : nano < 1000000000) :
    ∃ fraction, fractionAndZone (DateTime.fractionText nano ++ ['Z']) = some fraction := by
  unfold DateTime.fractionText
  split_ifs with hz
  · exact ⟨[], rfl⟩
  · have groups := fraction_digits [nano / 1000000, nano / 1000 % 1000, nano % 1000]
    have some_group : ¬∀ n ∈ [nano / 1000000, nano / 1000 % 1000, nano % 1000], n = 0 := by
      simp only [List.mem_cons, List.not_mem_nil, or_false, forall_eq_or_imp, forall_eq]
      omega
    have long : fraction [nano / 1000000, nano / 1000 % 1000, nano % 1000] ≠ [] := by
      rw [fraction, if_neg some_group]
      intro he
      have length := congrArg List.length he
      simp at length
    refine ⟨fraction [nano / 1000000, nano / 1000 % 1000, nano % 1000], ?_⟩
    rw [List.cons_append, fractionAndZone, List.takeWhile_append_of_pos groups,
      List.dropWhile_append_of_pos groups]
    simp [long, isDigit]

/-- The instants whose JSON text a reader can parse. -/
def Shown (t : DateTime) : Prop := t.FourDigits ∧ t.nanos < 1000000000

theorem timestamp_text (t : DateTime) (four : t.FourDigits) :
    ∃ month day fraction, 1 ≤ month ∧ month ≤ 12 ∧ 1 ≤ day ∧ day ≤ 31 ∧
      timestamp (timestampText t) = some ⟨t.year.toNat, month, day, (t.secs / 3600 % 24).toNat,
        (t.secs % 3600 / 60).toNat, (t.secs % 60).toNat + t.nanos / 1000000000, fraction⟩ := by
  obtain ⟨zone, hz⟩ := fractionAndZone_text (t.nanos % 1000000000) (Nat.mod_lt _ (by decide))
  have nanos := t.bounded
  have bounds := DateTime.monthDay_of_day_lt (DateTime.dayNumber (t.secs / 3600))
  have first := DateTime.monthDay_month_ge
    (DateTime.monthLengths (DateTime.yearOfDay (DateTime.dayNumber (t.secs / 3600)))) 1
    (DateTime.dayOfYear (DateTime.dayNumber (t.secs / 3600)))
  have start := DateTime.monthDay_day_pos
    (DateTime.monthLengths (DateTime.yearOfDay (DateTime.dayNumber (t.secs / 3600)))) 1
    (DateTime.dayOfYear (DateTime.dayNumber (t.secs / 3600)))
  have unsigned : DateTime.yearText (DateTime.yearOfDay (DateTime.dayNumber (t.secs / 3600))) =
      digits 4 t.year.toNat := if_pos four
  have year : t.year.toNat % 10 ^ 4 = t.year.toNat := by
    have upper := four.2
    exact Nat.mod_eq_of_lt (by omega)
  have two : ∀ n < 100, n % 10 ^ 2 = n := fun n hn => Nat.mod_eq_of_lt hn
  refine ⟨_, _, zone, first, Nat.lt_succ_iff.mp bounds.1, start, bounds.2, ?_⟩
  unfold timestampText DateTime.hourText timestamp
  simp only [unsigned, List.append_assoc, List.cons_append, number_digits, literal, if_true,
    Option.bind_eq_bind, Option.bind_some, hz, Option.pure_def, year]
  rw [two _ (by omega), two _ (by omega), two _ (by omega), two _ (by omega), two _ (by omega)]

theorem timestamp_signed (t : DateTime) (signed : ¬t.FourDigits) :
    timestamp (timestampText t) = none := by
  have text : DateTime.yearText t.year = (if t.year < 0 then '-' else '+') ::
      (List.replicate (4 - (Nat.toDigits 10 t.year.natAbs).length) '0' ++
        Nat.toDigits 10 t.year.natAbs) := if_neg signed
  have sign : isDigit (if t.year < 0 then '-' else '+') = false := by
    split_ifs
    · rfl
    · rfl
  obtain ⟨rest, he⟩ : ∃ rest, DateTime.hourText (t.secs / 3600) = DateTime.yearText t.year ++ rest :=
    ⟨_, rfl⟩
  rw [timestampText, he, text, timestamp, List.cons_append, List.cons_append, number_sign _ sign]
  rfl

theorem isUtcTimestamp_iff (t : DateTime) : isUtcTimestamp (timestampJson t) = true ↔ Shown t := by
  rw [timestampJson, isUtcTimestamp, String.toList_ofList]
  by_cases four : t.FourDigits
  · obtain ⟨month, day, zone, hm, hm', hd, hd', he⟩ := timestamp_text t four
    have bounded := t.bounded
    have leap := t.leap
    rw [he, Option.any_some, Timestamp.isFinite]
    simp only [Bool.and_eq_true, Bool.or_eq_true, decide_eq_true_eq, Shown, four, true_and]
    constructor
    · rintro ⟨_, h | ⟨h, _⟩⟩
      · omega
      · omega
    · intro plain
      exact ⟨⟨hm, hm', hd, hd'⟩, Or.inl (by omega)⟩
  · rw [timestamp_signed t four]
    simp [Shown, four]

end Timestamps

section Identifiers

theorem fits_append (ps qs : List (Char → Bool)) (cs ds : List Char) (h : fits ps cs = true)
    (h' : fits qs ds = true) : fits (ps ++ qs) (cs ++ ds) = true := by
  induction ps generalizing cs with
  | nil =>
    cases cs with
    | nil => exact h'
    | cons c cs => cases h
  | cons p ps ih =>
    cases cs with
    | nil => cases h
    | cons c cs =>
      rw [fits, Bool.and_eq_true] at h
      rw [List.cons_append, List.cons_append, fits, Bool.and_eq_true]
      exact ⟨h.1, ih cs h.2⟩

theorem fits_replicate (p : Char → Bool) (cs : List Char) (h : ∀ c ∈ cs, p c = true) :
    fits (List.replicate cs.length p) cs = true := by
  induction cs with
  | nil => rfl
  | cons c cs ih =>
    rw [List.length_cons, List.replicate_succ, fits, Bool.and_eq_true]
    exact ⟨h c List.mem_cons_self, ih fun c' hc => h c' (List.mem_cons_of_mem _ hc)⟩

theorem isLowerHex_hexDigit (n : Nat) (h : n < 16) : isLowerHex (Uuid.hexDigit n) = true := by
  have finite : ∀ n < 16, isLowerHex (Uuid.hexDigit n) = true := by decide
  exact finite n h

theorem isLowerHex_hexDigits (u : Uuid) (c : Char) (hc : c ∈ u.hexDigits) : isLowerHex c = true := by
  obtain ⟨i, _, rfl⟩ := List.mem_map.mp hc
  exact isLowerHex_hexDigit _ (Nat.mod_lt _ (by decide))

/-- Version 4 and the variant of RFC 9562, as `new_v4` draws them. -/
def IsV4 (u : Uuid) : Prop :=
  u.bits.toNat / 16 ^ 19 % 16 = 4 ∧ 8 ≤ u.bits.toNat / 16 ^ 15 % 16 ∧
    u.bits.toNat / 16 ^ 15 % 16 ≤ 11

instance (u : Uuid) : Decidable (IsV4 u) := inferInstanceAs (Decidable (_ ∧ _ ∧ _))

theorem isUuid_toText (u : Uuid) (v4 : IsV4 u) : isUuid (.str u.toText) = true := by
  have hex (n k : Nat) (hn : n + k ≤ 32) :
      fits (List.replicate k isLowerHex) ((u.hexDigits.drop n).take k) = true := by
    have length : ((u.hexDigits.drop n).take k).length = k := by
      simp
      omega
    have all := fits_replicate isLowerHex ((u.hexDigits.drop n).take k) fun c hc =>
      isLowerHex_hexDigits u c (List.mem_of_mem_drop (List.mem_of_mem_take hc))
    rwa [length] at all
  have group (p : Char → Bool) (n : Nat) (hn : n + 4 ≤ 32)
      (hp : p (Uuid.hexDigit (u.bits.toNat / 16 ^ (31 - n) % 16)) = true) :
      fits (p :: List.replicate 3 isLowerHex) ((u.hexDigits.drop n).take 4) = true := by
    have digit : (u.hexDigits.drop n).take 4 =
        Uuid.hexDigit (u.bits.toNat / 16 ^ (31 - n) % 16) :: (u.hexDigits.drop (n + 1)).take 3 := by
      rw [List.drop_eq_getElem_cons (by simp; omega), List.take_succ_cons]
      simp [Uuid.hexDigits]
    rw [digit, fits, hp, Bool.true_and]
    exact hex (n + 1) 3 (by omega)
  have dash (ps : List (Char → Bool)) (cs : List Char) (h : fits ps cs = true) :
      fits ((· == '-') :: ps) ('-' :: cs) = true := by
    rw [fits, h]
    rfl
  have version := group (fun c => '1' ≤ c && c ≤ '8') 12 (by decide) (by
    rw [v4.1]
    decide)
  have variant := group (fun c => c == '8' || c == '9' || c == 'a' || c == 'b') 16 (by decide) (by
    have finite : ∀ n < 12, 8 ≤ n → (Uuid.hexDigit n == '8' || Uuid.hexDigit n == '9' ||
        Uuid.hexDigit n == 'a' || Uuid.hexDigit n == 'b') = true := by decide
    exact finite _ (Nat.lt_succ_iff.mpr v4.2.2) v4.2.1)
  have tail := hex 20 12 (by decide)
  rw [List.take_of_length_le (by simp)] at tail
  rw [isUuid, Uuid.toText, String.toList_ofList, uuidPattern]
  exact fits_append _ _ _ _ (fits_append _ _ _ _ (fits_append _ _ _ _ (fits_append _ _ _ _
    (hex 0 8 (by decide)) (dash _ _ (hex 8 4 (by decide)))) (dash _ _ version)) (dash _ _ variant))
    (dash _ _ tail)

end Identifiers

section Hosts

theorem isText_iff (s : String) : isText (.str s) = true ↔ s ≠ "" := by
  rw [isText, decide_eq_true_iff]

theorem isNullableText_ofOption (o : Option String) : isNullableText (.ofOption .str o) = true := by
  cases o with
  | none => rfl
  | some s => rfl

theorem isNullableFiniteNumber_ofOption (o : Option ℚ) :
    isNullableFiniteNumber (.ofOption .num o) = true := by
  cases o with
  | none => rfl
  | some q => rfl

theorem isErrorKind_ofOption (o : Option CapabilityErrorKind) :
    isErrorKind (.ofOption (fun kind => .str (errorKindText kind)) o) = true := by
  cases o with
  | none => rfl
  | some kind => cases kind <;> decide +kernel

theorem isNullableUtcTimestamp_iff (o : Option DateTime) :
    isNullableUtcTimestamp (.ofOption timestampJson o) = true ↔ ∀ t, o = some t → Shown t := by
  cases o with
  | none => simp [Json.ofOption, isNullableUtcTimestamp]
  | some t =>
    have text : isNullableUtcTimestamp (.ofOption timestampJson (some t)) =
        isUtcTimestamp (timestampJson t) := rfl
    rw [text, isUtcTimestamp_iff]
    simp

theorem isCapability_json (c : Capability) (name : c.name ≠ "") (source : c.source ≠ "") :
    isCapability (capabilityJson c) = true := by
  have record : recordWithExactKeys CAPABILITY_KEYS (capabilityJson c) =
      some (capabilityFields c) := rfl
  rw [isCapability, record]
  simp [capabilityFields, Json.get?, isText_iff, name, source, isErrorKind_ofOption,
    isNullableText_ofOption, isBoolean]

theorem status_ne_empty (lastSeen : DateTime) (interval : Option ℚ) (now : DateTime) :
    hostStatus lastSeen interval now ≠ "" := by
  unfold hostStatus
  dsimp only
  split_ifs
  · decide
  · decide
  · decide

/-- Of all its fields only the timestamps of a host can displease the guard. -/
theorem isHost_json (s : HostSummary) (id : isUuid (.str s.id) = true) (name : s.name ≠ "")
    (os : s.os ≠ "") (arch : s.arch ≠ "") (version : s.clientVersion ≠ "") (status : s.status ≠ "")
    (capabilities : ∀ c ∈ s.capabilities, c.name ≠ "" ∧ c.source ≠ "") :
    isHost (hostJson s) = true ↔ Shown s.registeredAt ∧ Shown s.lastSeenAt ∧
      ∀ t, s.latestCollectedAt = some t → Shown t := by
  have record : recordWithExactKeys HOST_KEYS (hostJson s) = some (hostFields s) := rfl
  have each : isArrayOf isCapability (.arr (s.capabilities.map capabilityJson)) = true := by
    rw [isArrayOf, List.all_map, List.all_eq_true]
    intro c hc
    obtain ⟨hn, hs⟩ := capabilities c hc
    exact isCapability_json c hn hs
  rw [isHost, record]
  simp [hostFields, Json.get?, id, isText_iff, name, os, arch, version, status, each,
    isNullableText_ofOption, isNullableFiniteNumber_ofOption, isUtcTimestamp_iff,
    isNullableUtcTimestamp_iff, and_assoc]

theorem isSafeInteger_int (k : Int) :
    isSafeInteger k = true ↔ -(2 ^ 53 - 1) ≤ k ∧ k ≤ 2 ^ 53 - 1 := by
  have low : (-(2 ^ 53 - 1) : ℚ) ≤ k ↔ -(2 ^ 53 - 1) ≤ k := by norm_cast
  have high : (k : ℚ) ≤ 2 ^ 53 - 1 ↔ k ≤ 2 ^ 53 - 1 := by norm_cast
  rw [isSafeInteger, decide_eq_true_iff, low, high]
  simp

theorem isNonNegativeSafeInteger_int (k : Int) :
    isNonNegativeSafeInteger (.num k) = true ↔ 0 ≤ k ∧ k ≤ 2 ^ 53 - 1 := by
  have nonneg : (0 : ℚ) ≤ k ↔ 0 ≤ k := by norm_cast
  rw [isNonNegativeSafeInteger, Bool.and_eq_true, isSafeInteger_int, decide_eq_true_iff, nonneg]
  omega

theorem isPositiveSafeInteger_int (k : Int) :
    isPositiveSafeInteger (.num k) = true ↔ 1 ≤ k ∧ k ≤ 2 ^ 53 - 1 := by
  have positive : (1 : ℚ) ≤ k ↔ 1 ≤ k := by norm_cast
  rw [isPositiveSafeInteger, Bool.and_eq_true, isSafeInteger_int, decide_eq_true_iff, positive]
  omega

/-- The guard takes a list just when it takes its hosts and numbers. -/
theorem isHostListResponse_json (r : HostListResponse) (limit : 1 ≤ r.limit ∧ r.limit ≤ 1000)
    (offset : 0 ≤ r.offset) : isHostListResponse (hostListJson r) = true ↔
      r.offset ≤ 2 ^ 53 - 1 ∧ r.total ≤ 2 ^ 53 - 1 ∧ ∀ s ∈ r.hosts, isHost (hostJson s) = true := by
  have record : recordWithExactKeys ["hosts", "total", "limit", "offset"] (hostListJson r) =
      some [("hosts", .arr (r.hosts.map hostJson)), ("total", .num r.total), ("limit", .num r.limit),
        ("offset", .num r.offset)] := rfl
  have hosts : isArrayOf isHost (.arr (r.hosts.map hostJson)) = true ↔
      ∀ s ∈ r.hosts, isHost (hostJson s) = true := by
    rw [isArrayOf, List.all_map, List.all_eq_true]
    rfl
  have total := isNonNegativeSafeInteger_int r.total
  rw [Int.cast_natCast] at total
  rw [isHostListResponse, record]
  simp only [Json.get?, List.find?_cons, Bool.and_eq_true]
  simp [hosts, total, isPositiveSafeInteger_int, isNonNegativeSafeInteger_int]
  constructor
  · rintro ⟨⟨⟨each, count⟩, _⟩, _, skipped⟩
    exact ⟨skipped, count, each⟩
  · rintro ⟨skipped, count, each⟩
    exact ⟨⟨⟨each, count⟩, limit.1, by omega⟩, offset, skipped⟩

end Hosts

/-- The list of hosts passes the guard of the console just when its numbers are safe
integers and all its timestamps have four-digit years and are no leap seconds. -/
theorem host_list_passes_iff (ops : List Op) (fresh : Fresh ops)
    (valid : ∀ op ∈ ops, op.Validated) (v4 : ∀ u ∈ drawn ops, IsV4 u) (limit offset : Option Int)
    (now : DateTime) :
    isHostListResponse (hostListJson (hostList limit offset now (store.after ops))) = true ↔
      offset.getD 0 ≤ 2 ^ 53 - 1 ∧
      ((store.after ops).hosts.count fun h => decide (h.lifecycleStatus = .active)) ≤ 2 ^ 53 - 1 ∧
      ∀ h ∈ listedHosts (max 1 (min (limit.getD 200) 1000)) (max (offset.getD 0) 0) (store.after ops),
        Shown h.registeredAt ∧ Shown h.lastSeenAt ∧ ∀ t, h.latestCollectedAt = some t → Shown t := by
  have response := isHostListResponse_json (hostList limit offset now (store.after ops))
    (by dsimp only [hostList]; omega) (by dsimp only [hostList]; omega)
  have skipped : max (offset.getD 0) 0 ≤ 2 ^ 53 - 1 ↔ offset.getD 0 ≤ 2 ^ 53 - 1 := by omega
  have listed : (∀ s ∈ (hostList limit offset now (store.after ops)).hosts,
      isHost (hostJson s) = true) ↔
      ∀ h ∈ listedHosts (max 1 (min (limit.getD 200) 1000)) (max (offset.getD 0) 0) (store.after ops),
        Shown h.registeredAt ∧ Shown h.lastSeenAt ∧ ∀ t, h.latestCollectedAt = some t → Shown t := by
    change (∀ s ∈ (listedHosts _ _ _).map _, _) ↔ _
    rw [List.forall_mem_map]
    refine forall₂_congr fun h hm => ?_
    have mem := mem_of_listed _ _ _ h hm
    have titled := (presentable_after ops valid).hosts h mem
    have id := isUuid_toText h.hostId
      (v4 h.hostId ((bound_after ops fresh).host_drawn h.hostId ⟨h, mem, rfl⟩))
    exact isHost_json (summarize now (hostRow (store.after ops) h)) id titled.name titled.os
      titled.arch titled.client_version (status_ne_empty _ _ _) titled.capabilities
  rw [response, listed]
  exact and_congr_left' skipped

def laptopHost : HostIdentity :=
  ⟨"00000000-0000-4000-8000-000000000002", "linux", none, none, "x86_64", "0.9.10"⟩

def laptopHash (c : Char) : String := String.ofList (List.replicate 64 c)

/-- A laptop that was invited and paired sends a report of a moment. -/
def laptopReporting (collectedAt : DateTime) : List Op :=
  [.createInvite .none "laptop" "admin" ⟨0x40008000000000000001⟩ ⟨0x40008000000000000002⟩ "code"
      "code hash" noon noon,
    .createPairing .none ⟨laptopHost, laptopHash 'a', laptopHash 'b'⟩ ⟨0x40008000000000000003⟩
      noon noon,
    .activate .none ⟨0x40008000000000000003⟩ "code hash" "admin" ⟨0x40008000000000000004⟩ noon noon,
    .storeReport .none ⟨{ datedReport collectedAt with host := laptopHost }, laptopHash 'a',
      Model.metricSummary (datedReport collectedAt)⟩ noon]

theorem fresh_laptopReporting (collectedAt : DateTime) : Fresh (laptopReporting collectedAt) := by
  simp [Fresh, drawn, codes, laptopReporting, Op.uuids, Op.codes]

theorem v4_laptopReporting (collectedAt : DateTime) :
    ∀ u ∈ drawn (laptopReporting collectedAt), IsV4 u := by
  have ids : drawn (laptopReporting collectedAt) = [⟨0x40008000000000000001⟩,
    ⟨0x40008000000000000002⟩, ⟨0x40008000000000000003⟩, ⟨0x40008000000000000004⟩] := rfl
  rw [ids]
  decide +kernel

theorem valid_laptopReporting (collectedAt : DateTime)
    (h : Model.validateReport noon { datedReport collectedAt with host := laptopHost } =
      .ok (Model.metricSummary (datedReport collectedAt))) :
    ∀ op ∈ laptopReporting collectedAt, op.Validated := by
  have named : Model.createClientInstanceRequestValidated (some "laptop") = .ok "laptop" := by
    decide +kernel
  have paired : Model.validatePairing ⟨laptopHost, laptopHash 'a', laptopHash 'b'⟩ = .ok () := by
    decide +kernel
  intro op hop
  simp only [laptopReporting, List.mem_cons, List.not_mem_nil, or_false] at hop
  obtain rfl | rfl | rfl | rfl := hop
  · exact ⟨some "laptop", named⟩
  · exact paired
  · trivial
  · exact ⟨noon, h⟩

theorem host_list_passes_iff_noon :
    isHostListResponse (hostListJson (hostList none none noon
      (store.after (laptopReporting noon)))) = true := by
  have valid := valid_laptopReporting noon (by decide +kernel)
  refine (host_list_passes_iff (laptopReporting noon) (fresh_laptopReporting noon) valid
    (v4_laptopReporting noon) none none noon).mpr ⟨by decide, by decide +kernel, fun h hm => ?_⟩
  have mem := mem_of_listed _ _ _ h hm
  have shown : ∀ h ∈ (store.after (laptopReporting noon)).hosts.rows, h.registeredAt = noon ∧
      h.lastSeenAt = noon ∧ h.latestCollectedAt = some noon := by decide +kernel
  have moment : Shown noon := by
    refine ⟨⟨?_, ?_⟩, ?_⟩ <;> decide +kernel
  obtain ⟨registered, seen, latest⟩ := shown h mem
  rw [registered, seen, latest]
  exact ⟨moment, moment, fun t ht => Option.some.inj ht ▸ moment⟩

/-- The last second of the year 2016, a leap second. -/
def leapSecond : DateTime := ⟨1483228799, 1000000000, by decide, by decide⟩

/-- One report of a leap second hides every host. -/
theorem host_list_fails :
    ¬∀ ops limit offset now, Fresh ops → (∀ op ∈ ops, op.Validated) → (∀ u ∈ drawn ops, IsV4 u) →
      isHostListResponse (hostListJson (hostList limit offset now (store.after ops))) = true := by
  intro claim
  have valid := valid_laptopReporting leapSecond (by decide +kernel)
  have passes := claim (laptopReporting leapSecond) none none noon
    (fresh_laptopReporting leapSecond) valid (v4_laptopReporting leapSecond)
  have fails : isHostListResponse (hostListJson (hostList none none noon
      (store.after (laptopReporting leapSecond)))) = false := by decide +kernel
  rw [fails] at passes
  cases passes

end HostMonitoring.Web
