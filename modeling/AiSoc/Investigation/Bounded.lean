import AiSoc.Investigation.Context
import Mathlib.Algebra.Order.BigOperators.Group.List
import Mathlib.Data.List.Perm.Subperm

namespace Investigation

open PyJson PyStr

section Sizes

theorem length_itemsText_cons (item : Json) (items : List Json) :
    (itemsText (item :: items)).length =
      (text item).length + 1 + (if items = [] then 0 else (itemsText items).length) := by
  cases items with
  | nil => simp [itemsText]
  | cons next items =>
      simp only [itemsText, List.length_append, List.length_cons, reduceCtorEq, if_false]
      omega

theorem length_itemsText (items : List Json) :
    (itemsText items).length =
      if items = [] then 1 else (items.map fun item => (text item).length + 1).sum := by
  induction items with
  | nil => rfl
  | cons item items ih =>
      rw [length_itemsText_cons, ih]
      by_cases hnil : items = []
      · simp [hnil]
      · simp [hnil]

theorem length_itemsText_le {items items' : List Json} (h : items.Subperm items') :
    (itemsText items).length ≤ (itemsText items').length := by
  obtain ⟨middle, hperm, hsub⟩ := h
  have hsum : (items.map fun item => (text item).length + 1).sum ≤
      (items'.map fun item => (text item).length + 1).sum := by
    rw [← (hperm.map _).sum_eq]
    exact (hsub.map _).sum_le_sum fun _ _ => Nat.zero_le _
  rw [length_itemsText, length_itemsText]
  by_cases hnil' : items' = []
  · have hnil : items = [] := by
      subst hnil'
      obtain rfl := List.sublist_nil.mp hsub
      exact List.nil_perm.mp hperm
    simp [hnil, hnil']
  · by_cases hnil : items = []
    · obtain ⟨item, rest, rfl⟩ := List.exists_cons_of_ne_nil hnil'
      simp [hnil]
      omega
    · simpa [hnil, hnil'] using hsum

theorem serializedSize_refs_le {context : InvestigationContext} {refs : List String}
    (hnodup : refs.Nodup) (hsub : refs ⊆ context.validEvidenceRefs) :
    serializedSize { context with validEvidenceRefs := refs } ≤ serializedSize context := by
  have hsubperm : (refs.map Json.str).Subperm (context.validEvidenceRefs.map Json.str) :=
    List.Subperm.map (fun _ _ h => Json.str.inj h) (hnodup.subperm hsub)
  have hle := length_itemsText_le hsubperm
  simp only [serializedSize, InvestigationContext.modelDump, strs, text, fieldsText,
    List.length_append, List.length_cons, List.length_nil]
  omega

end Sizes

section References

def Cited (context : InvestigationContext) (ref : String) : Prop :=
  ref = "incident:" ++ context.incident.id ∨ (∃ alert ∈ context.alerts, ref = alert.ref) ∨
    (∃ event ∈ context.events, ref = event.ref) ∨
    (∃ item ∈ context.incidentEvidence, ref = item.ref) ∨
    ∃ technique ∈ context.techniques, ref = "mitre:" ++ technique.techniqueId

structure RefClosed (context : InvestigationContext) : Prop where
  nodup : context.validEvidenceRefs.Nodup
  cited : ∀ ref, ref ∈ context.validEvidenceRefs ↔ Cited context ref

theorem nodup_sortedSet (items : List String) : (sortedSet items).Nodup :=
  (List.perm_insertionSort _ _).nodup_iff.mpr (List.nodup_dedup items)

theorem untruncated_closed (reads : ContextReads) (incident : IncidentRow) :
    RefClosed (untruncated reads incident) where
  nodup := nodup_sortedSet _
  cited ref := by
    simp only [untruncated, mem_sortedSet, references, Cited, incidentContext, List.mem_append,
      List.mem_singleton, List.mem_map]
    constructor
    · rintro ((((h | ⟨a, ha, rfl⟩) | ⟨e, he, rfl⟩) | ⟨t, ht, rfl⟩) | ⟨i, hi, rfl⟩)
      · exact .inl h
      · exact .inr (.inl ⟨a, ha, rfl⟩)
      · obtain ⟨row, hrow, rfl⟩ := he
        exact .inr (.inr (.inl ⟨_, ⟨row, hrow, rfl⟩, rfl⟩))
      · exact .inr (.inr (.inr (.inr ⟨t, ht, rfl⟩)))
      · exact .inr (.inr (.inr (.inl ⟨i, hi, rfl⟩)))
    · rintro (h | ⟨a, ha, rfl⟩ | ⟨e, he, rfl⟩ | ⟨i, hi, rfl⟩ | ⟨t, ht, rfl⟩)
      · exact .inl (.inl (.inl (.inl h)))
      · exact .inl (.inl (.inl (.inr ⟨a, ha, rfl⟩)))
      · obtain ⟨row, hrow, rfl⟩ := he
        exact .inl (.inl (.inr ⟨_, ⟨row, hrow, rfl⟩, rfl⟩))
      · exact .inr ⟨i, hi, rfl⟩
      · exact .inl (.inr ⟨t, ht, rfl⟩)

theorem mem_retainedRefs {context : InvestigationContext} (hid : context.incident.id ≠ "")
    (ref : String) : ref ∈ retainedRefs context ↔ Cited context ref := by
  simp only [retainedRefs, mem_sortedSet, if_neg hid, Cited, List.mem_append, List.mem_map,
    List.mem_singleton]
  constructor
  · rintro ((((⟨a, ha, rfl⟩ | ⟨e, he, rfl⟩) | ⟨i, hi, rfl⟩) | h) | ⟨t, ht, rfl⟩)
    · exact .inr (.inl ⟨a, ha, rfl⟩)
    · exact .inr (.inr (.inl ⟨e, he, rfl⟩))
    · exact .inr (.inr (.inr (.inl ⟨i, hi, rfl⟩)))
    · exact .inl h
    · exact .inr (.inr (.inr (.inr ⟨t, ht, rfl⟩)))
  · rintro (h | ⟨a, ha, rfl⟩ | ⟨e, he, rfl⟩ | ⟨i, hi, rfl⟩ | ⟨t, ht, rfl⟩)
    · exact .inl (.inr h)
    · exact .inl (.inl (.inl (.inl ⟨a, ha, rfl⟩)))
    · exact .inl (.inl (.inl (.inr ⟨e, he, rfl⟩)))
    · exact .inl (.inl (.inr ⟨i, hi, rfl⟩))
    · exact .inr ⟨t, ht, rfl⟩

end References

section Truncation

structure Trimmed (base context : InvestigationContext) : Prop where
  incidentId : context.incident.id = base.incident.id
  quality : context.incident.evidenceQuality = base.incident.evidenceQuality
  alerts : ∀ alert ∈ context.alerts, ∃ alert' ∈ base.alerts, alert.ref = alert'.ref
  events : context.events ⊆ base.events
  evidence : context.incidentEvidence ⊆ base.incidentEvidence
  techniques : context.techniques = base.techniques
  refs : context.validEvidenceRefs = base.validEvidenceRefs

theorem Trimmed.cited {base context : InvestigationContext} (h : Trimmed base context)
    {ref : String} (hcited : Cited context ref) : Cited base ref := by
  rcases hcited with h0 | ⟨a, ha, rfl⟩ | ⟨e, he, rfl⟩ | ⟨i, hi, rfl⟩ | ⟨t, ht, rfl⟩
  · exact .inl (h.incidentId ▸ h0)
  · obtain ⟨a', ha', heq⟩ := h.alerts a ha
    exact .inr (.inl ⟨a', ha', heq⟩)
  · exact .inr (.inr (.inl ⟨e, h.events he, rfl⟩))
  · exact .inr (.inr (.inr (.inl ⟨i, h.evidence hi, rfl⟩)))
  · exact .inr (.inr (.inr (.inr ⟨t, h.techniques ▸ ht, rfl⟩)))

theorem trimmed_shorten (py : PyText) (context : InvestigationContext) :
    Trimmed context (shorten py context) where
  incidentId := rfl
  quality := rfl
  alerts alert h := by
    obtain ⟨alert', hmem, rfl⟩ := List.mem_map.mp h
    exact ⟨alert', List.mem_of_mem_drop hmem, rfl⟩
  events := List.drop_subset _ _
  evidence := List.take_subset _ _
  techniques := rfl
  refs := rfl

theorem trimmed_popOne {base context context' : InvestigationContext} (h : Trimmed base context)
    (hpop : popOne context = some context') : Trimmed base context' := by
  simp only [popOne] at hpop
  split at hpop
  · cases hpop
    exact ⟨h.incidentId, h.quality, h.alerts, h.events, h.evidence, h.techniques, h.refs⟩
  · split at hpop
    · cases hpop
      exact ⟨h.incidentId, h.quality, h.alerts, fun e he => h.events (List.mem_of_mem_tail he),
        h.evidence, h.techniques, h.refs⟩
    · split at hpop
      · cases hpop
        exact ⟨h.incidentId, h.quality, fun a ha => h.alerts a (List.mem_of_mem_tail ha), h.events,
          h.evidence, h.techniques, h.refs⟩
      · split at hpop
        · cases hpop
          exact ⟨h.incidentId, h.quality, h.alerts, h.events,
            fun i hi => h.evidence (List.mem_of_mem_dropLast hi), h.techniques, h.refs⟩
        · cases hpop

theorem popUntilFits_invariant {maxChars : Int} {P : InvestigationContext → Prop}
    (hpop : ∀ context context', P context → popOne context = some context' → P context')
    {context result : InvestigationContext} (h : P context)
    (hok : popUntilFits maxChars context = .ok result) :
    P result ∧ serializedSize result ≤ maxChars := by
  induction context using popUntilFits.induct maxChars with
  | case1 context hfits =>
      rw [popUntilFits, if_pos hfits] at hok
      cases hok
      exact ⟨h, hfits⟩
  | case2 context hfits hnone =>
      rw [popUntilFits, if_neg hfits] at hok
      split at hok
      · cases hok
      · rename_i hsome
        rw [hnone] at hsome
        cases hsome
  | case3 context hfits next hnext ih =>
      rw [popUntilFits, if_neg hfits] at hok
      split at hok
      · cases hok
      · rename_i next' hnext'
        rw [hnext] at hnext'
        cases hnext'
        exact ih (hpop context next h hnext) hok

theorem popUntilFits_ok {maxChars : Int} {base context result : InvestigationContext}
    (h : Trimmed base context) (hok : popUntilFits maxChars context = .ok result) :
    Trimmed base result ∧ serializedSize result ≤ maxChars :=
  popUntilFits_invariant (fun _ _ htrim hpop => trimmed_popOne htrim hpop) h hok

theorem popUntilFits_error {maxChars : Int} {context : InvestigationContext} {e : ContextError}
    (h : popUntilFits maxChars context = .error e) : e = .contextTooLarge := by
  induction context using popUntilFits.induct maxChars with
  | case1 context hfits =>
      rw [popUntilFits, if_pos hfits] at h
      cases h
  | case2 context hfits hpop =>
      rw [popUntilFits, if_neg hfits] at h
      split at h
      · cases h
        rfl
      · rename_i hpop'
        rw [hpop] at hpop'
        cases hpop'
  | case3 context hfits next hpop ih =>
      rw [popUntilFits, if_neg hfits] at h
      split at h
      · cases h
        rfl
      · rename_i next' hpop'
        rw [hpop] at hpop'
        cases hpop'
        exact ih h

theorem enforceSize_ok {py : PyText} {maxChars : Int} {context result : InvestigationContext}
    (hclosed : RefClosed context) (hid : context.incident.id ≠ "")
    (hok : enforceSize py maxChars context = .ok result) :
    serializedSize result ≤ maxChars ∧ RefClosed result ∧
      result.incident.id = context.incident.id ∧
      result.incident.evidenceQuality = context.incident.evidenceQuality := by
  simp only [enforceSize] at hok
  split at hok
  · rename_i hfits
    cases hok
    exact ⟨hfits, hclosed, rfl, rfl⟩
  · split at hok
    · cases hok
    · rename_i trimmed hpop
      cases hok
      obtain ⟨htrim, hfits⟩ := popUntilFits_ok (trimmed_shorten py context) hpop
      have hid' : trimmed.incident.id ≠ "" := by
        rw [htrim.incidentId]
        exact hid
      have hsub : retainedRefs trimmed ⊆ trimmed.validEvidenceRefs := by
        intro ref href
        rw [htrim.refs, hclosed.cited]
        exact htrim.cited ((mem_retainedRefs hid' ref).mp href)
      have hle : serializedSize { trimmed with validEvidenceRefs := retainedRefs trimmed } ≤
          serializedSize trimmed := serializedSize_refs_le (nodup_sortedSet _) hsub
      exact ⟨le_trans (Int.ofNat_le.mpr hle) hfits,
        ⟨nodup_sortedSet _, fun ref => mem_retainedRefs hid' ref⟩,
        htrim.incidentId, htrim.quality⟩

theorem enforceSize_error {py : PyText} {maxChars : Int} {context : InvestigationContext}
    {e : ContextError} (h : enforceSize py maxChars context = .error e) : e = .contextTooLarge := by
  simp only [enforceSize] at h
  split at h
  · cases h
  · split at h
    · rename_i e' hpop
      cases h
      exact popUntilFits_error hpop
    · cases h

end Truncation

section Build

theorem build_ok {py : PyText} {maxChars : Int} {reads : ContextReads}
    {context : InvestigationContext} (h : build py maxChars reads = .ok context) :
    ∃ incident, reads.incident = some incident ∧ serializedSize context ≤ maxChars ∧
      RefClosed context ∧ context.incident.id = uuidText incident.id ∧
      context.incident.evidenceQuality =
        evidenceQuality reads.alerts (reads.attachedEvidence.take 50) := by
  simp only [build] at h
  split at h
  · cases h
  · rename_i incident hincident
    have hid : (untruncated reads incident).incident.id ≠ "" := uuidText_ne_empty incident.id
    obtain ⟨hsize, hclosed, hid', hquality⟩ :=
      enforceSize_ok (untruncated_closed reads incident) hid h
    exact ⟨incident, hincident, hsize, hclosed, hid', hquality⟩

theorem build_bounded_and_closed (py : PyText) (maxChars : Int) (reads : ContextReads) :
    match build py maxChars reads with
    | .error .incidentNotFound => reads.incident = none
    | .error .contextTooLarge => reads.incident ≠ none
    | .ok context => serializedSize context ≤ maxChars ∧ RefClosed context ∧
        ∃ incident, reads.incident = some incident ∧
          context.incident.id = uuidText incident.id := by
  cases hbuild : build py maxChars reads with
  | error e =>
      simp only [build] at hbuild
      split at hbuild
      · rename_i hnone
        cases hbuild
        exact hnone
      · rename_i incident hsome
        obtain rfl := enforceSize_error hbuild
        simp [hsome]
  | ok context =>
      obtain ⟨incident, hincident, hsize, hclosed, hid, _⟩ := build_ok hbuild
      exact ⟨hsize, hclosed, incident, hincident, hid⟩

end Build

end Investigation
