import AiSoc.Library.Paging
import AiSoc.Security.Permissions

namespace Listings

open Permissions (Uuid Timestamp)
open Query (Scan select)
open Paging (later page walk Apart ahead)

section Endpoints

-- WHERE, and the time that the rows are ordered by, the latest first
structure Listing (Row Filters : Type) where
  applyFilters : Filters → Row → Bool
  orderBy : Row → Timestamp

variable {Row Filters : Type}

def Listing.query (listing : Listing Row Filters) (scan : Scan) (table : List Row)
    (filters : Filters) : List Row :=
  select scan table (listing.applyFilters filters) (later listing.orderBy)

def Listing.count (listing : Listing Row Filters) (table : List Row) (filters : Filters) : Nat :=
  table.countP (listing.applyFilters filters)

-- a page and the total: two statements, of which each reads the table of its own moment
def Listing.list (listing : Listing Row Filters) (scan : Scan) (table counted : List Row)
    (filters : Filters) (limit offset : Nat) : List Row × Nat :=
  (page (listing.query scan table filters) limit offset, listing.count counted filters)

def Listing.pages (listing : Listing Row Filters) (scans : Nat → Scan)
    (tables counted : Nat → List Row) (filters : Filters) (limit : Nat) : Nat → List Row
  | 0 => []
  | n + 1 =>
      listing.pages scans tables counted filters limit n ++
        (listing.list (scans n) (tables n) (counted n) filters limit (n * limit)).1

-- a comparison with NULL is not true
def equals (wanted value : Option String) : Bool :=
  match wanted with
  | none => true
  | some wanted => value = some wanted

def within (startTime endTime : Option Timestamp) (time : Timestamp) : Bool :=
  startTime.all (fun start => start ≤ time) && endTime.all fun finish => time ≤ finish

structure Event where
  id : Uuid
  timestamp : Timestamp
  eventType : String
  category : String
  severity : Option String
  username : Option String
  sourceIp : Option String
  deriving DecidableEq

structure EventQueryFilters where
  startTime : Option Timestamp
  endTime : Option Timestamp
  eventType : Option String
  category : Option String
  sourceIp : Option String
  username : Option String
  severity : Option String

def eventList : Listing Event EventQueryFilters where
  applyFilters filters event :=
    within filters.startTime filters.endTime event.timestamp &&
      equals filters.eventType (some event.eventType) &&
        equals filters.category (some event.category) &&
          equals filters.sourceIp event.sourceIp && equals filters.username event.username &&
            equals filters.severity event.severity
  orderBy event := event.timestamp

structure Incident where
  id : Uuid
  status : String
  severity : String
  primaryUsername : Option String
  primarySourceIp : Option String
  lastSeen : Timestamp
  deriving DecidableEq

structure IncidentQueryFilters where
  status : Option String
  severity : Option String
  username : Option String
  sourceIp : Option String

def incidentList : Listing Incident IncidentQueryFilters where
  applyFilters filters incident :=
    equals filters.status (some incident.status) &&
      equals filters.severity (some incident.severity) &&
        equals filters.username incident.primaryUsername &&
          equals filters.sourceIp incident.primarySourceIp
  orderBy incident := incident.lastSeen

structure AuditLog where
  id : Uuid
  actorType : String
  actorId : Option Uuid
  action : String
  outcome : String
  createdAt : Timestamp
  deriving DecidableEq

structure AuditFilters where
  actorType : Option String
  actorId : Option Uuid
  action : Option String
  outcome : Option String
  startTime : Option Timestamp
  endTime : Option Timestamp

-- an empty text sets no filter here
def auditList : Listing AuditLog AuditFilters where
  applyFilters filters log :=
    equals (filters.actorType.filter (· ≠ "")) (some log.actorType) &&
      filters.actorId.all (fun actorId => log.actorId = some actorId) &&
        equals (filters.action.filter (· ≠ "")) (some log.action) &&
          equals (filters.outcome.filter (· ≠ "")) (some log.outcome) &&
            within filters.startTime filters.endTime log.createdAt
  orderBy log := log.createdAt

structure Created where
  id : Uuid
  createdAt : Timestamp
  deriving DecidableEq

def userList : Listing Created Unit where
  applyFilters _ _ := true
  orderBy user := user.createdAt

def apiKeyList : Listing Created Unit where
  applyFilters _ _ := true
  orderBy key := key.createdAt

end Endpoints

section Walks

variable {Row Filters : Type} {listing : Listing Row Filters} {filters : Filters}

theorem pages_eq_walk (scans : Nat → Scan) (tables counted : Nat → List Row) (limit n : Nat) :
    listing.pages scans tables counted filters limit n =
      walk (fun k => listing.query (scans k) (tables k) filters) limit n := by
  induction n with
  | zero => rfl
  | succ n ih =>
      rw [Listing.pages, walk, ih]
      rfl

theorem query_ordered (listing : Listing Row Filters) (filters : Filters) (scan : Scan)
    (table : List Row) :
    (listing.query scan table filters).Pairwise (later listing.orderBy) :=
  List.pairwise_insertionSort _ _

theorem query_perm (listing : Listing Row Filters) (filters : Filters) (scan : Scan)
    (table : List Row) :
    (listing.query scan table filters).Perm (table.filter (listing.applyFilters filters)) :=
  Query.select_perm scan table _ _

theorem apart_of_complete {table : List Row} {limit n : Nat} (hnodup : table.Nodup)
    (hlimit : 1 ≤ limit) (hend : listing.count table filters ≤ n * limit)
    (hcomplete : ∀ scans : Nat → Scan,
      (listing.pages scans (fun _ => table) (fun _ => table) filters limit n).Perm
        (table.filter (listing.applyFilters filters))) (k : Nat) :
    Apart listing.orderBy (table.filter (listing.applyFilters filters)) (k * limit) := by
  by_contra hnot
  let rows := listing.query Query.inTableOrder table filters
  have hrows : rows.Perm (table.filter (listing.applyFilters filters)) :=
    query_perm listing filters _ table
  have hcut : ¬ Apart listing.orderBy rows (k * limit) := fun h => hnot (h.perm hrows)
  have hlength : rows.length ≤ n * limit := by
    rw [hrows.length_eq, ← List.countP_eq_length_filter]
    exact hend
  have hk : k < n := by
    apply Nat.lt_of_not_le
    intro hle
    apply hcut
    intro row hrow
    have hall : Paging.upTo listing.orderBy rows (listing.orderBy row) ≤ rows.length :=
      List.countP_le_length
    have hfar : n * limit ≤ k * limit := Nat.mul_le_mul_right limit hle
    exact .inr (by omega)
  obtain ⟨answers, hordered, hperm, hrepeated⟩ := Paging.exists_repeated hlimit
    (query_ordered listing filters Query.inTableOrder table) hk hcut
  have hplan : ∀ j, ∃ scan : Scan, listing.query scan table filters = answers j := fun j =>
    Paging.exists_select (hordered j) (hrows.symm.trans (hperm j))
  choose scans hscans using hplan
  have hwalk := hcomplete scans
  rw [pages_eq_walk] at hwalk
  simp only [hscans] at hwalk
  exact hrepeated (hwalk.nodup_iff.mpr (hnodup.filter _))

theorem pages_complete_iff (listing : Listing Row Filters) (filters : Filters) {table : List Row}
    {limit n : Nat} (hnodup : table.Nodup) (hlimit : 1 ≤ limit)
    (hend : listing.count table filters ≤ n * limit) :
    (∀ scans : Nat → Scan,
      (listing.pages scans (fun _ => table) (fun _ => table) filters limit n).Perm
        (table.filter (listing.applyFilters filters))) ↔
      ∀ k, Apart listing.orderBy (table.filter (listing.applyFilters filters)) (k * limit) := by
  refine ⟨apart_of_complete hnodup hlimit hend, fun hapart scans => ?_⟩
  have hrows := query_perm listing filters Query.inTableOrder table
  rw [pages_eq_walk]
  have hwalk := Paging.walk_perm (query_ordered listing filters Query.inTableOrder table)
    (fun k => query_ordered listing filters (scans k) table)
    (fun k => hrows.trans (query_perm listing filters (scans k) table).symm)
    (fun k => (hapart k).perm hrows.symm) n
  refine hwalk.trans ?_
  rw [List.take_of_length_le]
  · exact hrows
  · rw [hrows.length_eq, ← List.countP_eq_length_filter]
    exact hend

theorem growing_pages_cover (listing : Listing Row Filters) (filters : Filters)
    (scans : Nat → Scan) {tables counted : Nat → List Row} {limit n : Nat} {row : Row}
    (hgrowth : ∀ k < n, (tables k).Sublist (tables (k + 1)))
    (hcounted : (tables n).Sublist (counted n)) (hrow : ∀ k ≤ n, row ∈ tables k)
    (hmatches : listing.applyFilters filters row = true)
    (htime : ∀ k ≤ n, ∀ other ∈ tables k, listing.orderBy other = listing.orderBy row →
      other = row)
    (hlast : listing.count (counted n) filters ≤ n * limit + limit) :
    row ∈ listing.pages scans tables counted filters limit (n + 1) := by
  have hahead : ∀ k, ahead listing.orderBy (listing.query (scans k) (tables k) filters)
      (listing.orderBy row) = ahead listing.orderBy
        ((tables k).filter (listing.applyFilters filters)) (listing.orderBy row) := fun k =>
    Paging.ahead_perm (query_perm listing filters (scans k) (tables k)) _
  have hmore : ∀ k < n, ahead listing.orderBy (listing.query (scans k) (tables k) filters)
      (listing.orderBy row) ≤ ahead listing.orderBy
        (listing.query (scans (k + 1)) (tables (k + 1)) filters) (listing.orderBy row) := by
    intro k hk
    rw [hahead k, hahead (k + 1)]
    exact ((hgrowth k hk).filter _).countP_le
  have hend : (listing.query (scans n) (tables n) filters).length ≤ (n + 1) * limit := by
    rw [(query_perm listing filters (scans n) (tables n)).length_eq,
      ← List.countP_eq_length_filter, Nat.succ_mul]
    exact Nat.le_trans hcounted.countP_le hlast
  obtain ⟨k, hk, hpage⟩ := Paging.mem_page_of_growth
    (fun k _ => query_ordered listing filters (scans k) (tables k))
    (fun k hk => Query.mem_select.mpr ⟨hrow k hk, hmatches⟩)
    (fun k hk other hother => htime k hk other (Query.mem_select.mp hother).1) hmore hend
  rw [pages_eq_walk]
  exact (Paging.sublist_walk (Nat.lt_succ_of_le hk)).subset hpage

end Walks

section Examples

def login (id : Uuid) (timestamp : Timestamp) : Event where
  id := id
  timestamp := timestamp
  eventType := "login_failure"
  category := "authentication"
  severity := none
  username := none
  sourceIp := some "203.0.113.9"

def noFilters : EventQueryFilters :=
  ⟨none, none, none, none, none, none, none⟩

theorem tied_logins_left_out : ¬ ∀ scans : Nat → Scan,
    (eventList.pages scans (fun _ => [login 1 10, login 2 10]) (fun _ => [login 1 10, login 2 10])
      noFilters 1 2).Perm ([login 1 10, login 2 10].filter (eventList.applyFilters noFilters)) := by
  intro hcomplete
  have hapart := (pages_complete_iff eventList noFilters (by decide) (by decide) (by decide)).mp
    hcomplete 1
  exact absurd hapart (by rw [Apart]; decide)

def arriving (k : Nat) : List Event :=
  if k = 0 then [login 1 10, login 2 20] else [login 1 10, login 2 20, login 3 30]

theorem earlier_login_covered :
    login 1 10 ∈
      eventList.pages (fun _ => Query.inTableOrder) arriving arriving noFilters 2 2 :=
  growing_pages_cover eventList noFilters (fun _ => Query.inTableOrder) (by decide) (.refl _)
    (by decide) (by decide) (by decide) (by decide)

end Examples

end Listings
