import AiSoc.Investigation.Context

namespace Ml

open Permissions (Timestamp)

structure Event extends Investigation.EventRow where
  createdAt : Timestamp

def featureColumns : List String :=
  ["event_type_count_window", "category_count_window", "source_ip_event_count_window",
    "username_event_count_window", "source_ip_distinct_usernames_window",
    "username_distinct_source_ips_window", "login_failure_count_window",
    "login_success_count_window", "privilege_change_count_window", "file_download_count_window",
    "api_error_count_window", "bytes_sent_sum_window", "bytes_received_sum_window",
    "is_authentication_event", "is_file_access_event", "is_privilege_change_event",
    "is_api_event", "is_failure_status"]

-- str.lower and float(), which raises where the number is too large
structure Numbers (F : Type) where
  lower : String → String
  float : Int → Option F

def truthy (value : Option String) : Bool :=
  value.any fun s => s ≠ ""

-- the items of one identity, none of them where it is missing or empty
def sameIdentity (field : Event → Option String) (event : Event) (events : List Event) :
    List Event :=
  events.filter fun item => truthy (field event) && field item = field event

def distinctCount (field : Event → Option String) (events : List Event) : Int :=
  (((events.filter fun item => truthy (field item)).map field).dedup).length

def count (events : List Event) (p : Event → Bool) : Int :=
  (events.filter p).length

def total (field : Event → Option Int) (events : List Event) : Int :=
  (events.map fun item => (field item).getD 0).sum

def flag (b : Bool) : Int :=
  if b then 1 else 0

def featureValues (lower : String → String) (event : Event) (events : List Event) :
    List (String × Int) :=
  let sameSource := sameIdentity (·.sourceIp) event events
  let sameUser := sameIdentity (·.username) event events
  [("event_type_count_window", count events fun item => item.eventType = event.eventType),
    ("category_count_window", count events fun item => item.category = event.category),
    ("source_ip_event_count_window", sameSource.length),
    ("username_event_count_window", sameUser.length),
    ("source_ip_distinct_usernames_window", distinctCount (·.username) sameSource),
    ("username_distinct_source_ips_window", distinctCount (·.sourceIp) sameUser),
    ("login_failure_count_window", count events fun item => item.eventType = "login_failure"),
    ("login_success_count_window", count events fun item => item.eventType = "login_success"),
    ("privilege_change_count_window",
      count events fun item => item.eventType = "privilege_change"),
    ("file_download_count_window",
      count events fun item => item.eventType ∈ ["file_download", "resource_access"]),
    ("api_error_count_window", count events fun item => item.eventType = "api_error"),
    ("bytes_sent_sum_window", total (·.bytesSent) events),
    ("bytes_received_sum_window", total (·.bytesReceived) events),
    ("is_authentication_event", flag (event.category = "authentication")),
    ("is_file_access_event", flag (event.category = "file_access")),
    ("is_privilege_change_event", flag (event.eventType = "privilege_change")),
    ("is_api_event", flag (event.category = "api")),
    ("is_failure_status",
      flag (lower (event.status.getD "") ∈ ["failed", "failure", "denied", "error"]))]

abbrev Vector (F : Type) := List (String × F)

variable {F : Type}

def buildFeatureVector (numbers : Numbers F) (event : Event) (windowEvents : List Event) :
    Option (Vector F) :=
  let values := featureValues numbers.lower event windowEvents
  featureColumns.mapM fun column =>
    (numbers.float ((values.lookup column).getD 0)).map fun value => (column, value)

end Ml
