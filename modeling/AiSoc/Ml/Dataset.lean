import AiSoc.Library.PyDatetime
import AiSoc.Library.Query
import AiSoc.Library.SlidingWindow
import AiSoc.Ml.Features

namespace Ml

open Permissions (Timestamp)
open PyDatetime (subtractSeconds)
open Query (Scan)
open SlidingWindow

section Inference

-- ORDER BY timestamp, created_at
def before (a b : Event) : Prop :=
  a.timestamp < b.timestamp ∨ (a.timestamp = b.timestamp ∧ a.createdAt ≤ b.createdAt)

instance : DecidableRel before :=
  fun a b => inferInstanceAs (Decidable
    (a.timestamp < b.timestamp ∨ (a.timestamp = b.timestamp ∧ a.createdAt ≤ b.createdAt)))

def listBetween (scan : Scan) (events : List Event) (startTime endTime : Timestamp) :
    List Event :=
  Query.select scan events
    (fun event => decide (startTime ≤ event.timestamp ∧ event.timestamp ≤ endTime)) before

-- none where the subtraction raises
def eventWindow (scan : Scan) (events : List Event) (event : Event) (windowSeconds : Int) :
    Option (List Event) :=
  (subtractSeconds event.timestamp windowSeconds).map fun startTime =>
    listBetween scan events startTime event.timestamp

end Inference

section Training

variable {F : Type}

def isBefore (cutoff : Timestamp) (event : Event) : Bool :=
  event.timestamp < cutoff

-- the body of the loop over the ordered events
def rowsFrom (numbers : Numbers F) (windowSeconds : Int) (ordered : List Event) :
    Nat → Nat → List Event → Option (List (Vector F))
  | _, _, [] => some []
  | index, left, event :: rest => do
      let cutoff ← subtractSeconds event.timestamp windowSeconds
      let left := advance ordered (isBefore cutoff) index left
      let row ← buildFeatureVector numbers event ((ordered.take (index + 1)).drop left)
      let rows ← rowsFrom numbers windowSeconds ordered (index + 1) left rest
      some (row :: rows)

def sortedEvents (events : List Event) : List Event :=
  events.insertionSort before

-- the rows of the frame; no float of an int is a NaN that fillna would replace
def buildDataset (numbers : Numbers F) (events : List Event) (windowSeconds : Int) :
    Option (List (Vector F)) :=
  rowsFrom numbers windowSeconds (sortedEvents events) 0 0 (sortedEvents events)

end Training

section Order

instance : Std.Total before where
  total a b := by
    rcases lt_trichotomy a.timestamp b.timestamp with h | h | h
    · exact .inl (.inl h)
    · rcases le_total a.createdAt b.createdAt with hc | hc
      · exact .inl (.inr ⟨h, hc⟩)
      · exact .inr (.inr ⟨h.symm, hc⟩)
    · exact .inr (.inl h)

instance : IsTrans Event before where
  trans a b c hab hbc := by
    rcases hab with hab | ⟨hab, hab'⟩
    · rcases hbc with hbc | ⟨hbc, _⟩
      · exact .inl (lt_trans hab hbc)
      · exact .inl (hbc ▸ hab)
    · rcases hbc with hbc | ⟨hbc, hbc'⟩
      · exact .inl (hab ▸ hbc)
      · exact .inr ⟨hab.trans hbc, le_trans hab' hbc'⟩

def sortKey (event : Event) : Timestamp × Timestamp :=
  (event.timestamp, event.createdAt)

theorem before_timestamp {a b : Event} (h : before a b) : a.timestamp ≤ b.timestamp := by
  rcases h with h | ⟨h, _⟩
  · exact le_of_lt h
  · exact le_of_eq h

theorem sortKey_of_before {a b : Event} (hab : before a b) (hba : before b a) :
    sortKey a = sortKey b := by
  rcases hab with hab | ⟨hab, hab'⟩
  · exact absurd hab (not_lt_of_ge (before_timestamp hba))
  · rcases hba with hba | ⟨_, hba'⟩
    · exact absurd hba (not_lt_of_ge (le_of_eq hab))
    · exact Prod.ext hab (le_antisymm hab' hba')

theorem sorted_events (events : List Event) : (sortedEvents events).Pairwise before :=
  List.pairwise_insertionSort before events

theorem sortedEvents_perm (events : List Event) : (sortedEvents events).Perm events :=
  List.perm_insertionSort before events

theorem before_antisymm {events : List Event} (hkeys : (events.map sortKey).Nodup) :
    ∀ a ∈ events, ∀ b ∈ events, before a b → before b a → a = b := by
  intro a ha b hb hab hba
  exact List.inj_on_of_nodup_map hkeys ha hb (sortKey_of_before hab hba)

end Order

section Windows

variable {scan : Scan} {ordered : List Event}

theorem listBetween_prefix (hsorted : ordered.Pairwise before)
    (hkeys : (ordered.map sortKey).Nodup) {index : Nat} {event : Event}
    (hevent : ordered[index]? = some event) (cutoff : Timestamp) :
    listBetween scan (ordered.take (index + 1)) cutoff event.timestamp =
      (ordered.take (index + 1)).filter fun item => !isBefore cutoff item := by
  have hupto : ∀ item ∈ ordered.take (index + 1), item.timestamp ≤ event.timestamp := by
    intro item hitem
    obtain ⟨i, hi, rfl⟩ := List.mem_take_iff_getElem.mp hitem
    obtain ⟨hindex, rfl⟩ := List.getElem?_eq_some_iff.mp hevent
    rcases Nat.lt_or_ge i index with hlt | hge
    · exact before_timestamp (List.pairwise_iff_getElem.mp hsorted i index _ hindex hlt)
    · obtain rfl : i = index := by omega
      exact le_refl _
  have hfilter : (ordered.take (index + 1)).filter (fun item => !isBefore cutoff item) =
      (ordered.take (index + 1)).filter fun item =>
        decide (cutoff ≤ item.timestamp ∧ item.timestamp ≤ event.timestamp) := by
    refine List.filter_congr fun item hitem => ?_
    simp only [isBefore, hupto item hitem, and_true, ← decide_not, not_lt]
  have hsub : (ordered.take (index + 1)).Sublist ordered := List.take_sublist _ _
  rw [listBetween, hfilter]
  refine Query.select_eq (List.Perm.refl _) ?_ ?_
  · exact (hsorted.sublist hsub).filter _
  · exact before_antisymm ((hsub.map sortKey).nodup hkeys)

end Windows

section Rows

variable {F : Type} {ordered : List Event} {windowSeconds : Int}

-- the vector of the k-th event when it is ingested after the events before it
def inferenceRow (numbers : Numbers F) (scan : Scan) (ordered : List Event) (windowSeconds : Int)
    (index : Nat) : Option (Vector F) := do
  let event ← ordered[index]?
  let window ← eventWindow scan (ordered.take (index + 1)) event windowSeconds
  buildFeatureVector numbers event window

theorem isBefore_sorted (hsorted : ordered.Pairwise before) (cutoff : Timestamp) :
    ordered.Pairwise fun a b => isBefore cutoff b = true → isBefore cutoff a = true := by
  refine hsorted.imp fun hab hb => ?_
  have hlt : _ < cutoff := of_decide_eq_true hb
  exact decide_eq_true (lt_of_le_of_lt (before_timestamp hab) hlt)

theorem window_eq_slice (scan : Scan) (hsorted : ordered.Pairwise before)
    (hkeys : (ordered.map sortKey).Nodup) (hwindow : 0 ≤ windowSeconds) {index left : Nat}
    {event : Event} (hevent : ordered[index]? = some event) {cutoff : Timestamp}
    (hcutoff : subtractSeconds event.timestamp windowSeconds = some cutoff) (hle : left ≤ index)
    (hbehind : Behind ordered (isBefore cutoff) left) :
    eventWindow scan (ordered.take (index + 1)) event windowSeconds =
      some ((ordered.take (index + 1)).drop (advance ordered (isBefore cutoff) index left)) := by
  have hvalue := PyDatetime.subtractSeconds_eq_some hcutoff
  have hfresh : isBefore cutoff event = false := by
    refine decide_eq_false (not_lt_of_ge ?_)
    lia
  rw [eventWindow, hcutoff, Option.map_some, listBetween_prefix hsorted hkeys hevent,
    slice_eq_filter (isBefore_sorted hsorted cutoff) hle hbehind hevent hfresh]

theorem behind_later {left : Nat} {event next : Event} {cutoff cutoff' : Timestamp}
    (hcutoff : subtractSeconds event.timestamp windowSeconds = some cutoff)
    (hcutoff' : subtractSeconds next.timestamp windowSeconds = some cutoff')
    (hle : event.timestamp ≤ next.timestamp) (hbehind : Behind ordered (isBefore cutoff) left) :
    Behind ordered (isBefore cutoff') left := by
  have hvalue := PyDatetime.subtractSeconds_eq_some hcutoff
  have hvalue' := PyDatetime.subtractSeconds_eq_some hcutoff'
  intro i hi
  obtain ⟨item, hitem, hold⟩ := (Option.any_eq_true _ _).mp (hbehind i hi)
  refine (Option.any_eq_true _ _).mpr ⟨item, hitem, decide_eq_true ?_⟩
  have hlt : item.timestamp < cutoff := of_decide_eq_true hold
  lia

def Settled (windowSeconds : Int) (ordered : List Event) (index left : Nat) : Prop :=
  left ≤ index ∧ ∀ event, ordered[index]? = some event → ∀ cutoff,
    subtractSeconds event.timestamp windowSeconds = some cutoff →
      Behind ordered (isBefore cutoff) left

theorem settled_start : Settled windowSeconds ordered 0 0 :=
  ⟨Nat.le_refl 0, fun _ _ _ _ i hi => absurd hi (Nat.not_lt_zero i)⟩

theorem settled_step (hsorted : ordered.Pairwise before) {index left : Nat} {event : Event}
    (hevent : ordered[index]? = some event) {cutoff : Timestamp}
    (hcutoff : subtractSeconds event.timestamp windowSeconds = some cutoff)
    (h : Settled windowSeconds ordered index left) :
    Settled windowSeconds ordered (index + 1)
      (advance ordered (isBefore cutoff) index left) := by
  obtain ⟨hle, hbehind⟩ := h
  obtain ⟨hbound, hpassed, _⟩ := advance_spec hle (hbehind event hevent cutoff hcutoff)
  refine ⟨Nat.le_succ_of_le hbound, fun next hnext cutoff' hcutoff' => ?_⟩
  obtain ⟨hindex, rfl⟩ := List.getElem?_eq_some_iff.mp hevent
  obtain ⟨hindex', rfl⟩ := List.getElem?_eq_some_iff.mp hnext
  have hpair := List.pairwise_iff_getElem.mp hsorted index (index + 1) hindex hindex'
    (Nat.lt_succ_self index)
  exact behind_later hcutoff hcutoff' (before_timestamp hpair) hpassed

theorem rowsFrom_eq (numbers : Numbers F) (scan : Scan) (hsorted : ordered.Pairwise before)
    (hkeys : (ordered.map sortKey).Nodup) (hwindow : 0 ≤ windowSeconds) {rest : List Event}
    {index left : Nat} (hrest : ordered.drop index = rest)
    (hsettled : Settled windowSeconds ordered index left) :
    rowsFrom numbers windowSeconds ordered index left rest =
      (List.range' index rest.length).mapM
        (inferenceRow numbers scan ordered windowSeconds) := by
  induction rest generalizing index left with
  | nil => rfl
  | cons event rest ih =>
      have hevent : ordered[index]? = some event := by
        rw [← List.head?_drop, hrest, List.head?_cons]
      have hrest' : ordered.drop (index + 1) = rest := by
        rw [← List.tail_drop, hrest, List.tail_cons]
      rw [List.length_cons, List.range'_succ, List.mapM_cons, rowsFrom]
      cases hcutoff : subtractSeconds event.timestamp windowSeconds with
      | none =>
          have hnone : inferenceRow numbers scan ordered windowSeconds index = none := by
            simp [inferenceRow, hevent, eventWindow, hcutoff]
          rw [hnone]
          rfl
      | some cutoff =>
          have hslice := window_eq_slice scan hsorted hkeys hwindow hevent hcutoff
            hsettled.1 (hsettled.2 event hevent cutoff hcutoff)
          have hrow : inferenceRow numbers scan ordered windowSeconds index =
              buildFeatureVector numbers event ((ordered.take (index + 1)).drop
                (advance ordered (isBefore cutoff) index left)) := by
            simp only [inferenceRow, hevent, hslice, Option.bind_eq_bind, Option.bind_some]
          rw [hrow, ← ih hrest' (settled_step hsorted hevent hcutoff hsettled)]
          rfl

theorem dataset_rows_match (numbers : Numbers F) (scan : Scan) (events : List Event)
    (windowSeconds : Int) (hkeys : (events.map sortKey).Nodup) (hwindow : 0 ≤ windowSeconds) :
    buildDataset numbers events windowSeconds =
      (List.range events.length).mapM
        (inferenceRow numbers scan (sortedEvents events) windowSeconds) := by
  have hperm := sortedEvents_perm events
  have hkeys' : ((sortedEvents events).map sortKey).Nodup :=
    (hperm.map sortKey).nodup_iff.mpr hkeys
  have hrows := rowsFrom_eq numbers scan (sorted_events events) hkeys' hwindow List.drop_zero
    settled_start
  rw [buildDataset, hrows, hperm.length_eq, List.range_eq_range']

def login (id : Nat) (timestamp createdAt : Timestamp) (eventType : String) : Event where
  id := id
  eventId := "evt"
  timestamp := timestamp
  source := "auth"
  sourceType := "app"
  eventType := eventType
  category := "authentication"
  severity := none
  username := some "alice"
  sourceIp := some "10.0.0.1"
  destinationIp := none
  hostname := none
  action := none
  status := some "failed"
  resource := none
  bytesSent := none
  bytesReceived := some 10
  createdAt := createdAt

def logins : List Event :=
  [login 3 100000000 102 "login_success", login 0 0 0 "login_failure",
    login 2 60000000 101 "login_failure", login 1 60000000 100 "login_failure"]

def wholeNumbers : Numbers Int := ⟨String.toLower, some⟩

theorem login_rows_match :
    buildDataset wholeNumbers logins 60 =
      (List.range 4).mapM
        (inferenceRow wholeNumbers Query.inTableOrder (sortedEvents logins) 60) :=
  dataset_rows_match wholeNumbers Query.inTableOrder logins 60 (by decide) (by decide)

end Rows

end Ml
