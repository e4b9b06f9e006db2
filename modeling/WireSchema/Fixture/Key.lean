import WireSchema.Fixture.Error
import WireSchema.Text.Casing

/-!
# Fixture keys

A fixture names the fields of a struct by keys that need not be spelled like the declared names.
A key is brought into the declared spelling in stages, and the first candidate that names a declared
field wins:

1. the key itself, or the spelling that replaces it in the table of **synonyms**;
2. its Pascal case;
3. the spelling that replaces that in the table of **casing exceptions**.

A candidate names a declared field directly or through the table of **aliases**, which lists fields
that are not declared in Pascal case.
-/

namespace WireSchema.Fixture

/-- Keys that stand for another key, before casing. -/
def synonyms : List (String × String) :=
  [("timeout", "timeout_ms"), ("throttle_time", "throttle_time_ms"), ("max_wait", "max_wait_ms"),
    ("session_lifetime", "session_lifetime_ms"),
    ("transaction_timeout", "transaction_timeout_ms"), ("max_lifetime", "max_lifetime_ms"),
    ("session_timeout", "session_timeout_ms"), ("rebalance_timeout", "rebalance_timeout_ms"),
    ("expiry_time_period", "expiry_time_period_ms"), ("renew_period", "renew_period_ms"),
    ("retention_time", "retention_time_ms"), ("heartbeat_interval", "heartbeat_interval_ms"),
    ("issue_timestamp", "issue_timestamp_ms"), ("expiry_timestamp", "expiry_timestamp_ms"),
    ("max_timestamp", "max_timestamp_ms"),
    ("transaction_start_time", "transaction_start_time_ms"),
    ("log_append_time", "log_append_time_ms")]

/-- Names in Pascal case that miss the declared spelling. -/
def casingExceptions : List (String × String) :=
  [("IssueTimestampMs", "IssueTimestamp"), ("ExpiryTimestampMs", "ExpiryTimestamp"),
    ("MaxTimestampMs", "MaxTimestamp"), ("KraftVersionFeature", "KRaftVersionFeature"),
    ("IsKraftController", "IsKRaftController"), ("KraftVersion", "KRaftVersion")]

/-- Names in Pascal case for fields that are declared otherwise. -/
def aliases : List (String × String) :=
  [("TimeoutMs", "timeoutMs"), ("ValidateOnly", "validateOnly"),
    ("MemberAssignment", "memberAssignment"), ("GroupId", "groupId"),
    ("IsKRaftController", "isKRaftController")]

/-- The key that a key stands for. -/
def synonym? (key : String) : Option String :=
  synonyms.lookup key

/-- The spelling that replaces a name in Pascal case. -/
def casingException? (name : String) : Option String :=
  casingExceptions.lookup name

/-- The declared spelling of a field that is not declared in Pascal case. -/
def alias? (name : String) : Option String :=
  aliases.lookup name

/-- Whether a name is that of a declared field, directly or as an alias. -/
def isKnown (known : List String) (name : String) : Bool :=
  known.contains name ||
    match alias? name with
    | some declared => known.contains declared
    | none => false

/-- The name that a key stands for, among the declared names `known`. -/
def normalize (known : List String) (key : String) : Except FixtureError String :=
  let substituted := (synonym? key).getD key
  let cased := Text.pascalCase substituted
  if isKnown known substituted then .ok substituted
  else if isKnown known cased then .ok cased
  else
    match casingException? cased with
    | none => .error (.unknownKey key [substituted, cased])
    | some overridden =>
      if isKnown known overridden then .ok overridden
      else .error (.unknownKey key [substituted, cased, overridden])

end WireSchema.Fixture
