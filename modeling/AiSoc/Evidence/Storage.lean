import AiSoc.Correlation.Service
import AiSoc.Evidence.Overlaps
import AiSoc.Library.Varchar

namespace Evidence

open Permissions (Uuid Timestamp)
open PyJson (Obj)
open Correlation (Env manualIncident)

section Schemas

inductive EvidenceKind where
  | analystObservation
  | networkObservation
  | assetConfiguration
  | identityActivity
  | vulnerabilityReport
  deriving DecidableEq

-- network is the dump of a validated NetworkObservation
structure IncidentEvidenceCreate where
  kind : EvidenceKind
  source : String
  summary : String
  network : Option Obj
  observedAt : Option Timestamp
  sourceLength : 3 ≤ source.length ∧ source.length ≤ 160
  summaryLength : 8 ≤ summary.length ∧ summary.length ≤ 2000
  networkGiven : kind = .networkObservation ↔ network.isSome

structure IncidentCreate extends Correlation.IncidentCreate where
  titleLength : 3 ≤ title.length ∧ title.length ≤ 255
  descriptionLength : 5 ≤ description.length ∧ description.length ≤ 2000

end Schemas

section AddEvidence

structure IncidentEvidence where
  id : Uuid
  incidentId : Uuid
  submittedBy : Uuid
  kind : EvidenceKind
  source : String
  summary : String
  network : Option Obj
  observedAt : Option Timestamp
  sensitiveRedacted : Bool
  createdAt : Timestamp

structure Store where
  incidents : List Uuid
  evidence : List IncidentEvidence

inductive EvidenceError where
  | evidence (message : String)
  | database
  deriving DecidableEq

def maxEvidencePerIncident : Nat := 200

def evidenceRow (classes : CharClasses) (id incidentId actorId : Uuid) (now : Timestamp)
    (payload : IncidentEvidenceCreate) : IncidentEvidence :=
  let (source, sourceRedacted) := redactSecrets classes payload.source
  let (summary, summaryRedacted) := redactSecrets classes payload.summary
  { id := id
    incidentId := incidentId
    submittedBy := actorId
    kind := payload.kind
    source := source
    summary := summary
    network := payload.network
    observedAt := payload.observedAt
    sensitiveRedacted := sourceRedacted || summaryRedacted
    createdAt := now }

-- the columns String(160) and Text
def flush (store : Store) (row : IncidentEvidence) : Except EvidenceError Store :=
  match Sql.assign 160 row.source with
  | none => .error .database
  | some source =>
      if Sql.nul ∈ row.summary.toList then .error .database
      else .ok { store with evidence := store.evidence ++ [{ row with source := source.value }] }

def addEvidence (classes : CharClasses) (store : Store) (id incidentId actorId : Uuid)
    (now : Timestamp) (payload : IncidentEvidenceCreate) : Except EvidenceError Store :=
  if incidentId ∉ store.incidents then .error (.evidence "Incident not found")
  else if maxEvidencePerIncident ≤
      (store.evidence.filter fun row => row.incidentId = incidentId).length then
    .error (.evidence "Incident evidence limit reached")
  else flush store (evidenceRow classes id incidentId actorId now payload)

end AddEvidence

section Fits

variable {classes : CharClasses}

def Inside (m : Regex.Marks) (value : List Char) : Prop :=
  ∀ k n, m k = some n → k < value.length → k + n < value.length

theorem Inside.union {m j : Regex.Marks} {value : List Char} (h : Inside m value)
    (h' : Inside j value) : Inside (m.union j) value := by
  intro k n hk
  rcases Option.or_eq_some_iff.mp hk with hk | ⟨_, hk⟩
  · exact h k n hk
  · exact h' k n hk

theorem inside_marksOf (pattern : Regex.Pattern) (value : List Char) :
    Inside (Regex.marksOf classes.isWord pattern value) value := by
  intro k n hk hlt
  have hle := Regex.matchLength_le (Regex.match_of_mark hk)
  rw [List.length_drop] at hle
  omega

theorem inside_tokenMarks (value : List Char) : Inside (tokenMarks classes value) value := by
  refine ((inside_marksOf _ value).union (inside_marksOf _ value)).union fun k n hk hlt => ?_
  have hle := Regex.matchLength_le (Regex.match_of_markWithin hk).2
  have hgap := (Regex.gap_starts redactionMark ((keyMarks classes value).shift k)
    (value.drop k)).1.length_le
  rw [List.length_drop] at hgap
  omega

def markedLength (m : Regex.Marks) (value : String) : Int :=
  value.length + Regex.growth redactionMark.length (Regex.stretches 0 m value.toList)

theorem length_blank_marks {m : Regex.Marks} {value : String} (h : Inside m value.toList) :
    ((Regex.blank redactionMark 0 m value.toList).length : Int) = markedLength m value := by
  rw [Regex.length_blank (Nat.zero_le _) h, markedLength, String.length_toList]
  omega

theorem length_redacted (value : String) : (redactSecrets classes value).1.length =
    (redactWith classes secretPatterns value.toList).length := by
  simp only [redactSecrets, String.length_ofList]

theorem length_privateKeyBlock {prev : Option Char} {t : List Char} {n : Nat}
    (h : Regex.matchLength classes.isWord privateKeyBlock prev t = some n) :
    redactionMark.length ≤ n := by
  obtain ⟨s, _, _, ⟨body, _, rfl⟩, _, _, _, _, _, hn⟩ := (Regex.matchLength_block_iff
    (spells_armorLine (by decide)) (spells_armorLine (by decide))).mp h
  have hmark : redactionMark.length = 10 := rfl
  simp only [List.length_append, List.length_cons, List.length_nil] at hn
  omega

theorem growth_nonpos {marker : Nat} {lengths : List Nat} (h : ∀ n ∈ lengths, marker ≤ n) :
    Regex.growth marker lengths ≤ 0 := by
  induction lengths with
  | nil => exact Int.le_refl 0
  | cons n lengths ih =>
      obtain ⟨hn, hrest⟩ := List.forall_mem_cons.mp h
      have hlater := ih hrest
      simp only [Regex.growth, List.map_cons, List.sum_cons] at hlater ⊢
      omega

theorem block_pass_shrinks (value : List Char) :
    (redactWith classes secretPatterns value).length ≤
      (Regex.blank redactionMark 0 (tokenMarks classes value) value).length := by
  have hpass := Regex.length_sub classes.isWord privateKeyBlock redactionMark
    (Regex.blank redactionMark 0 (tokenMarks classes value) value)
  have hshrinks : Regex.growth redactionMark.length (Regex.matched classes.isWord privateKeyBlock
      (Regex.blank redactionMark 0 (tokenMarks classes value) value)) ≤ 0 := by
    refine growth_nonpos fun n hn => ?_
    obtain ⟨mark, hmark, hlength⟩ := List.mem_filterMap.mp hn
    obtain ⟨l, rfl, rfl⟩ := Option.map_eq_some_iff.mp hlength
    obtain ⟨k, hk⟩ := List.getElem?_of_mem hmark
    exact length_privateKeyBlock (Regex.match_of_mark (Option.join_eq_some_iff.mpr hk))
  have hredacted : redactWith classes secretPatterns value =
      Regex.sub classes.isWord privateKeyBlock redactionMark
        (Regex.blank redactionMark 0 (tokenMarks classes value) value) := by
    rw [← bearer_pass]
    rfl
  rw [hredacted]
  omega

theorem fits_iff (limit : Nat) (value : String) :
    (ArmorClear classes value.toList → ((redactSecrets classes value).1.length ≤ limit ↔
      markedLength (secretMarks classes value.toList) value ≤ limit)) ∧
    (markedLength (tokenMarks classes value.toList) value ≤ limit →
      (redactSecrets classes value).1.length ≤ limit) := by
  rw [length_redacted]
  constructor
  · intro hclear
    have hinside : Inside (secretMarks classes value.toList) value.toList :=
      (inside_tokenMarks _).union (inside_marksOf _ _)
    have hredacted := congrArg List.length (block_pass hclear)
    rw [hredacted, ← length_blank_marks hinside]
    omega
  · intro hfits
    have hinside : Inside (tokenMarks classes value.toList) value.toList := inside_tokenMarks _
    have hlength := length_blank_marks hinside
    exact Nat.le_trans (block_pass_shrinks value.toList) (by omega)

variable (classes) in
-- incident_service redacts with the same function
def redacting (env : Env) : Env :=
  { env with redactSecrets := fun value => (redactSecrets classes value).1 }

theorem mem_redactWith {patterns : List Regex.Pattern} {value : List Char} {c : Char}
    (h : c ∈ redactWith classes patterns value) : c ∈ redactionMark ∨ c ∈ value := by
  induction patterns generalizing value with
  | nil => exact .inr h
  | cons pattern patterns ih =>
      have hlater : c ∈ redactWith classes patterns
          (Regex.sub classes.isWord pattern redactionMark value) := h
      rcases ih hlater with hmark | hrest
      · exact .inl hmark
      · rw [Regex.sub_eq_blank] at hrest
        exact Regex.mem_blank hrest

theorem nul_not_mem_redacted {value : String} (h : Sql.nul ∉ value.toList) :
    Sql.nul ∉ (redactSecrets classes value).1.toList := by
  intro hmem
  rw [redactSecrets, String.toList_ofList] at hmem
  rcases mem_redactWith hmem with hmark | hvalue
  · revert hmark
    decide
  · exact h hvalue

theorem addEvidence_ok {store : Store} {id incidentId actorId : Uuid} {now : Timestamp}
    {payload : IncidentEvidenceCreate} (hincident : incidentId ∈ store.incidents)
    (hcount : (store.evidence.filter fun row => row.incidentId = incidentId).length <
      maxEvidencePerIncident)
    (hsource : Sql.nul ∉ payload.source.toList) (hsummary : Sql.nul ∉ payload.summary.toList)
    (hfits : (evidenceRow classes id incidentId actorId now payload).source.length ≤ 160) :
    addEvidence classes store id incidentId actorId now payload =
      .ok { store with
        evidence := store.evidence ++ [evidenceRow classes id incidentId actorId now payload] } := by
  have hstorable : Sql.Storable 160 (evidenceRow classes id incidentId actorId now payload).source :=
    ⟨hfits, nul_not_mem_redacted hsource⟩
  have hclean : Sql.nul ∉
      (evidenceRow classes id incidentId actorId now payload).summary.toList :=
    nul_not_mem_redacted hsummary
  rw [addEvidence, if_neg (not_not.mpr hincident), if_neg (Nat.not_le.mpr hcount), flush,
    Sql.assign_of_storable hstorable]
  dsimp only
  rw [if_neg hclean]

def shortText : List Char :=
  ['a', ' ', 't', 'o', 'k', 'e', 'n', ':', 'x']

def shortEvidence : IncidentEvidenceCreate where
  kind := .analystObservation
  source := String.ofList shortText
  summary := "a summary"
  network := none
  observedAt := none
  sourceLength := by
    rw [String.length_ofList]
    decide
  summaryLength := by decide
  networkGiven := by decide

end Fits

section Overflow

def secretText : List Char :=
  List.replicate 152 'x' ++ [' ', 't', 'o', 'k', 'e', 'n', ':', 'x']

def secretSource : String :=
  String.ofList secretText

theorem length_secretSource : secretSource.length = 160 := by
  rw [secretSource, String.length_ofList]
  rfl

def secretEvidence : IncidentEvidenceCreate where
  kind := .analystObservation
  source := secretSource
  summary := "a summary"
  network := none
  observedAt := none
  sourceLength := by
    rw [length_secretSource]
    decide
  summaryLength := by decide
  networkGiven := by decide

theorem redacted_secretSource : (redactSecrets asciiClasses secretSource).1 =
    String.ofList (List.replicate 152 'x' ++ ' ' :: redactionMark) := by
  have hredacted : redactWith asciiClasses secretPatterns secretText =
      List.replicate 152 'x' ++ ' ' :: redactionMark := by
    decide +kernel
  rw [redactSecrets, secretSource, String.toList_ofList, hredacted]

end Overflow

end Evidence
