import AiSoc.Investigation.Truncation
import Mathlib.Data.Nat.Find

namespace Investigation

open PyJson PyStr

section Suffixes

structure Newest (base context : InvestigationContext) : Prop where
  alerts : context.alerts <:+ base.alerts
  events : context.events <:+ base.events
  flag : context.incident.contextTruncated = base.incident.contextTruncated

theorem newest_popOne {base context context' : InvestigationContext} (h : Newest base context)
    (hpop : popOne context = some context') : Newest base context' := by
  simp only [popOne] at hpop
  split at hpop
  · cases hpop
    exact ⟨h.alerts, h.events, h.flag⟩
  · split at hpop
    · cases hpop
      exact ⟨h.alerts, (List.tail_suffix _).trans h.events, h.flag⟩
    · split at hpop
      · cases hpop
        exact ⟨(List.tail_suffix _).trans h.alerts, h.events, h.flag⟩
      · split at hpop
        · cases hpop
          exact ⟨h.alerts, h.events, h.flag⟩
        · cases hpop

theorem popUntilFits_newest {maxChars : Int} {context result : InvestigationContext}
    (hok : popUntilFits maxChars context = .ok result) : Newest context result := by
  have hself : Newest context context := ⟨List.suffix_rfl, List.suffix_rfl, rfl⟩
  exact (popUntilFits_invariant (fun _ _ hnewest hpop => newest_popOne hnewest hpop) hself hok).1

theorem lastItems_suffix {α : Type} (n : Nat) (items : List α) : lastItems n items <:+ items :=
  List.drop_suffix _ _

theorem lastItems_all {α : Type} {n : Nat} {items : List α} (h : items.length ≤ n) :
    lastItems n items = items := by
  rw [lastItems, Nat.sub_eq_zero_of_le h, List.drop_zero]

theorem lastItems_map {α β : Type} (f : α → β) (n : Nat) (items : List α) :
    lastItems n (items.map f) = (lastItems n items).map f := by
  rw [lastItems, lastItems, List.length_map, List.map_drop]

theorem length_lastItems {α : Type} (n : Nat) (items : List α) :
    (lastItems n items).length = min n items.length := by
  rw [lastItems, List.length_drop]
  omega

theorem lastItems_of_tail {α : Type} {n : Nat} {items : List α} (h : n + 1 ≤ items.length) :
    lastItems n items.tail = lastItems n items := by
  have hlength : items.length - n = items.tail.length - n + 1 := by
    rw [List.length_tail]
    omega
  rw [lastItems, lastItems, hlength, ← List.drop_tail]

theorem eq_lastItems_of_suffix {α : Type} {part items : List α} (h : part <:+ items) :
    part = lastItems part.length items :=
  List.suffix_iff_eq_drop.mp h

end Suffixes

section Room

def withTimeline (context : InvestigationContext) (n : Nat) : InvestigationContext :=
  { context with timeline := lastItems n context.timeline }

def FitsWith (maxChars : Int) (context : InvestigationContext) (n : Nat) : Prop :=
  serializedSize (withTimeline context n) ≤ maxChars

instance (maxChars : Int) (context : InvestigationContext) :
    DecidablePred (FitsWith maxChars context) :=
  fun n => inferInstanceAs (Decidable (serializedSize (withTimeline context n) ≤ maxChars))

def room (maxChars : Int) (context : InvestigationContext) : Nat :=
  max 1 (Nat.findGreatest (FitsWith maxChars context) context.timeline.length)

theorem fitsWith_length {maxChars : Int} {context : InvestigationContext} :
    FitsWith maxChars context context.timeline.length ↔ serializedSize context ≤ maxChars := by
  rw [FitsWith, withTimeline, lastItems_all (Nat.le_refl _)]

theorem room_of_fits {maxChars : Int} {context : InvestigationContext}
    (hfits : serializedSize context ≤ maxChars) :
    lastItems (room maxChars context) context.timeline = context.timeline := by
  have hall : context.timeline.length ≤
      Nat.findGreatest (FitsWith maxChars context) context.timeline.length :=
    Nat.le_findGreatest (Nat.le_refl _) (fitsWith_length.mpr hfits)
  exact lastItems_all (hall.trans (Nat.le_max_right _ _))

theorem findGreatest_congr {P Q : Nat → Prop} [DecidablePred P] [DecidablePred Q] {n : Nat}
    (h : ∀ m ≤ n, P m ↔ Q m) : Nat.findGreatest P n = Nat.findGreatest Q n := by
  induction n with
  | zero => rfl
  | succ n ih =>
      rw [Nat.findGreatest_succ, Nat.findGreatest_succ,
        ih fun m hm => h m (Nat.le_succ_of_le hm)]
      simp only [h (n + 1) (Nat.le_refl _)]

theorem room_popTimeline {maxChars : Int} {context : InvestigationContext}
    (hfits : ¬ serializedSize context ≤ maxChars) (hmany : context.timeline.length > 1) :
    room maxChars { context with timeline := context.timeline.tail } = room maxChars context ∧
      room maxChars context + 1 ≤ context.timeline.length := by
  obtain ⟨n, hn⟩ : ∃ n, context.timeline.length = n + 1 := ⟨context.timeline.length - 1, by omega⟩
  have htail : context.timeline.tail.length = n := by
    rw [List.length_tail, hn, Nat.add_sub_cancel]
  have hlast : ¬ FitsWith maxChars context (n + 1) := by
    rw [← hn, fitsWith_length]
    exact hfits
  have hsame : Nat.findGreatest
      (FitsWith maxChars { context with timeline := context.timeline.tail }) n =
        Nat.findGreatest (FitsWith maxChars context) n := by
    refine findGreatest_congr fun m hm => ?_
    simp only [FitsWith, withTimeline,
      lastItems_of_tail (show m + 1 ≤ context.timeline.length by omega)]
  have hwhole : room maxChars context = max 1 (Nat.findGreatest (FitsWith maxChars context) n) := by
    rw [room, hn, Nat.findGreatest_of_not hlast]
  constructor
  · rw [hwhole, room, htail, hsame]
  · have hle := Nat.findGreatest_le (P := FitsWith maxChars context) n
    omega

theorem popUntilFits_timeline {maxChars : Int} {context result : InvestigationContext}
    (hok : popUntilFits maxChars context = .ok result) :
    result.timeline = lastItems (room maxChars context) context.timeline := by
  induction context using popUntilFits.induct maxChars with
  | case1 context hfits =>
      rw [popUntilFits, if_pos hfits] at hok
      cases hok
      exact (room_of_fits hfits).symm
  | case2 context hfits hnone =>
      rw [popUntilFits_of_none hfits hnone] at hok
      cases hok
  | case3 context hfits next hnext ih =>
      rw [popUntilFits_of_popOne hfits hnext] at hok
      rw [ih hok]
      by_cases hmany : context.timeline.length > 1
      · rw [popOne, if_pos hmany] at hnext
        cases hnext
        obtain ⟨hroom, hle⟩ := room_popTimeline hfits hmany
        rw [hroom, lastItems_of_tail hle]
      · have hsame : next.timeline = context.timeline := by
          simp only [popOne, if_neg hmany] at hnext
          split at hnext
          · cases hnext
            rfl
          · split at hnext
            · cases hnext
              rfl
            · split at hnext
              · cases hnext
                rfl
              · cases hnext
        have hroom : 1 ≤ room maxChars context := Nat.le_max_left _ _
        have hroom' : 1 ≤ room maxChars next := Nat.le_max_left _ _
        rw [hsame, lastItems_all (by omega), lastItems_all (by omega)]

end Room

section Shown

def IsLatest {α β : Type} (Shown : α → β → Prop) (items : List α) (shown : List β) : Prop :=
  ∃ kept, kept <:+ items ∧ List.Forall₂ Shown kept shown

theorem isLatest_iff {α β : Type} {Shown : α → β → Prop} {items : List α} {shown : List β} :
    IsLatest Shown items shown ↔ List.Forall₂ Shown (lastItems shown.length items) shown := by
  constructor
  · rintro ⟨kept, hsuffix, hshown⟩
    rw [← hshown.length_eq, ← eq_lastItems_of_suffix hsuffix]
    exact hshown
  · intro hshown
    exact ⟨_, lastItems_suffix _ _, hshown⟩

theorem isLatest_of_map_suffix {α β γ : Type} {Shown : α → γ → Prop} {f : α → β} {g : β → γ}
    {items : List α} {part : List β} (hsuffix : part <:+ items.map f)
    (hshown : ∀ item, Shown item (g (f item))) : IsLatest Shown items (part.map g) := by
  obtain ⟨kept, hkept, rfl⟩ := List.suffix_map_iff.mp hsuffix
  refine ⟨kept, hkept, ?_⟩
  rw [List.map_map, List.forall₂_map_right_iff]
  exact List.forall₂_same.mpr fun item _ => hshown item

def EntryShown (py : PyText) (entry shown : Obj) : Prop :=
  shown = sanitizeEntry entry ∨ shown = shortenEntry py (sanitizeEntry entry)

def AlertShown (alert : AlertRow) (shown : AlertContext) : Prop :=
  shown = alertContext alert ∨ shown = shortenAlert (alertContext alert)

def EventShown (event : EventRow) (shown : EventContext) : Prop :=
  shown = eventContext event

def LeftOut (reads : ContextReads) (incident : IncidentRow) (context : InvestigationContext) :
    Prop :=
  context.timeline.length < incident.timeline.length ∨
    context.alerts.length < reads.alerts.length ∨
    context.events.length < (eventsOfAlerts reads.alerts reads.events).length ∨
    context.incidentEvidence.length < reads.attachedEvidence.length

structure SeesLatest (py : PyText) (reads : ContextReads) (incident : IncidentRow)
    (context : InvestigationContext) : Prop where
  timeline : IsLatest (EntryShown py) incident.timeline context.timeline
  alerts : IsLatest AlertShown reads.alerts context.alerts
  events : IsLatest EventShown (eventsOfAlerts reads.alerts reads.events) context.events
  told : LeftOut reads incident context → context.incident.contextTruncated = true

end Shown

section Build

variable {py : PyText} {maxChars : Int} {reads : ContextReads} {incident : IncidentRow}

def Oversized (maxChars : Int) (reads : ContextReads) (incident : IncidentRow) : Prop :=
  maxChars < serializedSize (untruncated reads incident)

def Repeats (py : PyText) (maxChars : Int) (reads : ContextReads) (incident : IncidentRow) : Prop :=
  List.Forall₂ (EntryShown py)
    (lastItems (room maxChars (shorten py (untruncated reads incident))) incident.timeline)
    ((lastItems (room maxChars (shorten py (untruncated reads incident)))
      (incident.timeline.take 50)).map fun entry => shortenEntry py (sanitizeEntry entry))

theorem shorten_timeline (py : PyText) (reads : ContextReads) (incident : IncidentRow) :
    (shorten py (untruncated reads incident)).timeline =
      (incident.timeline.take 50).map fun entry => shortenEntry py (sanitizeEntry entry) := by
  have hlength : ((incident.timeline.take 50).map sanitizeEntry).length ≤ 50 := by
    rw [List.length_map, List.length_take]
    exact Nat.min_le_left _ _
  simp only [shorten, untruncated, lastItems_all hlength, List.map_map, Function.comp_def]

theorem seesLatest_untruncated :
    SeesLatest py reads incident (untruncated reads incident) ↔
      incident.timeline.length ≤ 50 ∧ reads.attachedEvidence.length ≤ 50 := by
  constructor
  · intro h
    have hkept : ¬ LeftOut reads incident (untruncated reads incident) := by
      intro hout
      have hflag : false = true := h.told hout
      cases hflag
    simp only [LeftOut, untruncated, List.length_map, List.length_take] at hkept
    omega
  · rintro ⟨htimeline, hevidence⟩
    constructor
    · refine ⟨incident.timeline, List.suffix_rfl, ?_⟩
      simp only [untruncated, List.take_of_length_le htimeline]
      rw [List.forall₂_map_right_iff]
      exact List.forall₂_same.mpr fun entry _ => .inl rfl
    · refine ⟨reads.alerts, List.suffix_rfl, ?_⟩
      simp only [untruncated]
      rw [List.forall₂_map_right_iff]
      exact List.forall₂_same.mpr fun alert _ => .inl rfl
    · refine ⟨eventsOfAlerts reads.alerts reads.events, List.suffix_rfl, ?_⟩
      simp only [untruncated]
      rw [List.forall₂_map_right_iff]
      exact List.forall₂_same.mpr fun event _ => rfl
    · intro hout
      simp only [LeftOut, untruncated, List.length_map, List.length_take] at hout
      omega

theorem isLatest_take (py : PyText) {entries : List Obj} {n : Nat}
    (hle : n ≤ max 1 (min 50 entries.length)) :
    IsLatest (EntryShown py) entries ((lastItems n (entries.take 50)).map fun entry =>
        shortenEntry py (sanitizeEntry entry)) ↔
      List.Forall₂ (EntryShown py) (lastItems n entries)
        ((lastItems n (entries.take 50)).map fun entry =>
          shortenEntry py (sanitizeEntry entry)) := by
  rw [isLatest_iff]
  have hlength : ((lastItems n (entries.take 50)).map fun entry =>
      shortenEntry py (sanitizeEntry entry)).length = min n entries.length := by
    rw [List.length_map, length_lastItems, List.length_take]
    omega
  have hsame : lastItems (min n entries.length) entries = lastItems n entries := by
    rw [lastItems, lastItems]
    congr 1
    omega
  rw [hlength, hsame]

theorem room_le (maxChars : Int) (context : InvestigationContext) :
    room maxChars context ≤ max 1 context.timeline.length := by
  have hle := Nat.findGreatest_le (P := FitsWith maxChars context) context.timeline.length
  unfold room
  omega

theorem repeats_of_short (hshort : incident.timeline.length ≤ 50) :
    Repeats py maxChars reads incident := by
  rw [Repeats, List.take_of_length_le hshort, List.forall₂_map_right_iff]
  exact List.forall₂_same.mpr fun entry _ => .inr rfl

theorem seesLatest_shortened {trimmed : InvestigationContext} {refs : List String}
    (hpop : popUntilFits maxChars (shorten py (untruncated reads incident)) = .ok trimmed) :
    SeesLatest py reads incident { trimmed with validEvidenceRefs := refs } ↔
      Repeats py maxChars reads incident := by
  have hnewest := popUntilFits_newest hpop
  have htimeline : trimmed.timeline = (lastItems
      (room maxChars (shorten py (untruncated reads incident))) (incident.timeline.take 50)).map
        fun entry => shortenEntry py (sanitizeEntry entry) := by
    rw [popUntilFits_timeline hpop, shorten_timeline, lastItems_map]
  have hroom := room_le maxChars (shorten py (untruncated reads incident))
  rw [shorten_timeline, List.length_map, List.length_take] at hroom
  have hiff := isLatest_take py hroom
  rw [Repeats, ← hiff, ← htimeline]
  constructor
  · intro h
    exact h.timeline
  · intro h
    refine ⟨h, ?_, ?_, fun _ => hnewest.flag⟩
    · obtain ⟨part, hpart, hshown⟩ : ∃ part, part <:+ reads.alerts.map alertContext ∧
          trimmed.alerts = part.map shortenAlert := by
        obtain ⟨part, hpart, hshown⟩ := List.suffix_map_iff.mp hnewest.alerts
        exact ⟨part, hpart.trans (lastItems_suffix _ _), hshown⟩
      rw [hshown]
      exact isLatest_of_map_suffix hpart fun alert => .inr rfl
    · have hpart : trimmed.events <:+
          (eventsOfAlerts reads.alerts reads.events).map eventContext :=
        hnewest.events.trans (lastItems_suffix _ _)
      have hshown : IsLatest EventShown (eventsOfAlerts reads.alerts reads.events)
          (trimmed.events.map id) := isLatest_of_map_suffix hpart fun _ => rfl
      rw [List.map_id] at hshown
      exact hshown

theorem enforceSize_cases {context result : InvestigationContext}
    (hok : enforceSize py maxChars context = .ok result) :
    serializedSize context ≤ maxChars ∧ result = context ∨
      maxChars < serializedSize context ∧ ∃ trimmed,
        popUntilFits maxChars (shorten py context) = .ok trimmed ∧
          result = { trimmed with validEvidenceRefs := retainedRefs trimmed } := by
  simp only [enforceSize] at hok
  split at hok
  · rename_i hfits
    cases hok
    exact .inl ⟨hfits, rfl⟩
  · rename_i hfits
    split at hok
    · cases hok
    · rename_i trimmed hpop
      cases hok
      exact .inr ⟨not_le.mp hfits, trimmed, hpop, rfl⟩

theorem seesLatest_iff {context : InvestigationContext} (hincident : reads.incident = some incident)
    (hbuild : build py maxChars reads = .ok context) :
    SeesLatest py reads incident context ↔
      incident.timeline.length ≤ 50 ∧
          (reads.attachedEvidence.length ≤ 50 ∨ Oversized maxChars reads incident) ∨
        Oversized maxChars reads incident ∧ Repeats py maxChars reads incident := by
  simp only [build, hincident] at hbuild
  rcases enforceSize_cases hbuild with ⟨hfits, rfl⟩ | ⟨hlarge, trimmed, hpop, rfl⟩
  · have hsmall : ¬ Oversized maxChars reads incident := not_lt.mpr hfits
    rw [seesLatest_untruncated]
    simp only [hsmall, or_false, false_and]
  · have hover : Oversized maxChars reads incident := hlarge
    rw [seesLatest_shortened hpop]
    simp only [hover, or_true, and_true, true_and]
    constructor
    · exact .inr
    · rintro (hshort | hrepeats)
      · exact repeats_of_short hshort
      · exact hrepeats

theorem build_of_fits (hincident : reads.incident = some incident)
    (hfits : serializedSize (untruncated reads incident) ≤ maxChars) :
    build py maxChars reads = .ok (untruncated reads incident) := by
  simp only [build, hincident, enforceSize]
  exact if_pos hfits

def loginEntry (n : Nat) : Obj :=
  [("type", .str "event"), ("title", .str (toString n)), ("description", .str "")]

def loginIncident (n : Nat) : IncidentRow :=
  { noIncident with timeline := (List.range n).map loginEntry }

def loginReads (n : Nat) : ContextReads :=
  ⟨some (loginIncident n), [], [], [], [], none⟩

theorem short_timeline_seen : ∃ context,
    build asciiText 30000 (loginReads 2) = .ok context ∧
      SeesLatest asciiText (loginReads 2) (loginIncident 2) context := by
  have hfits : serializedSize (untruncated (loginReads 2) (loginIncident 2)) ≤ 30000 := by
    decide +kernel
  have hbuild : build asciiText 30000 (loginReads 2) =
      .ok (untruncated (loginReads 2) (loginIncident 2)) :=
    build_of_fits rfl (Int.ofNat_le.mpr hfits)
  refine ⟨_, hbuild, (seesLatest_iff rfl hbuild).mpr (.inl ⟨?_, .inl ?_⟩)⟩
  · decide
  · decide

theorem latest_entry_unseen : ∃ context,
    build asciiText 30000 (loginReads 51) = .ok context ∧
      context.timeline.length = 50 ∧ context.incident.contextTruncated = false ∧
      ¬ SeesLatest asciiText (loginReads 51) (loginIncident 51) context := by
  have hfits : serializedSize (untruncated (loginReads 51) (loginIncident 51)) ≤ 30000 := by
    decide +kernel
  have hbuild : build asciiText 30000 (loginReads 51) =
      .ok (untruncated (loginReads 51) (loginIncident 51)) :=
    build_of_fits rfl (Int.ofNat_le.mpr hfits)
  refine ⟨_, hbuild, ?_, rfl, ?_⟩
  · simp only [untruncated, loginIncident, List.length_map, List.length_take, List.length_range]
    rfl
  · intro hsees
    have hshort := (seesLatest_untruncated.mp hsees).1
    simp only [loginIncident, List.length_map, List.length_range] at hshort
    omega

end Build

end Investigation
