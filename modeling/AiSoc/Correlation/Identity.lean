import AiSoc.Library.Decimal
import AiSoc.Library.PyText

namespace Correlation

open PyJson PyStr

variable (py : PyText)

-- (value or "").strip().lower()
def normalized (value : Option String) : String :=
  py.normalize (value.getD "")

def lengthPrefix (s : String) : String :=
  String.ofList (natText s.length) ++ ":" ++ s

def buildCorrelationKey (username sourceIp : Option String) : String :=
  "credential_compromise:u:" ++ lengthPrefix (normalized py username) ++ "|s:" ++
    lengthPrefix (normalized py sourceIp)

def usernameLockKey (normalizedUsername : String) : String :=
  "credential_compromise:username:" ++ lengthPrefix normalizedUsername

def sourceIpLockKey (normalizedSourceIp : String) : String :=
  "credential_compromise:source_ip:" ++ lengthPrefix normalizedSourceIp

def buildIdentityLockKeys (username sourceIp : Option String) : List String :=
  let normalizedUsername := normalized py username
  let normalizedSourceIp := normalized py sourceIp
  ((if normalizedUsername ≠ "" then [usernameLockKey normalizedUsername] else []) ++
    (if normalizedSourceIp ≠ "" then [sourceIpLockKey normalizedSourceIp] else [])).insertionSort
      (· ≤ ·)

def findingKey (accountId providerId : String) : String :=
  slice 512 ("finding:" ++ accountId ++ ":" ++ providerId)

def isFindingKey (key : String) : Prop :=
  "finding:".toList <+: key.toList

instance (key : String) : Decidable (isFindingKey key) :=
  inferInstanceAs (Decidable ("finding:".toList <+: key.toList))

def isCredentialKey (key : String) : Prop :=
  "credential_compromise:u:".toList <+: key.toList

theorem prefix_append_text (start rest : String) : start.toList <+: (start ++ rest).toList := by
  rw [String.toList_append]
  exact List.prefix_append _ _

theorem isFindingKey_findingKey (accountId providerId : String) :
    isFindingKey (findingKey accountId providerId) := by
  have hlen : "finding:".toList.length ≤ 512 := by decide
  have hfull : "finding:".toList <+: ("finding:" ++ accountId ++ ":" ++ providerId).toList := by
    rw [String.append_assoc, String.append_assoc]
    exact prefix_append_text _ _
  have htake := List.prefix_take_iff.mpr ⟨hfull, hlen⟩
  have hkey : (findingKey accountId providerId).toList = _ := String.toList_ofList
  exact htake.trans (hkey ▸ List.prefix_rfl)

variable {py}

theorem isCredentialKey_buildCorrelationKey (username sourceIp : Option String) :
    isCredentialKey (buildCorrelationKey py username sourceIp) := by
  unfold isCredentialKey buildCorrelationKey
  rw [String.append_assoc, String.append_assoc]
  exact prefix_append_text _ _

theorem first_of_start {start key : List Char} {c : Char} (hstart : start.head? = some c)
    (h : start <+: key) : key.head? = some c := by
  obtain ⟨rest, rfl⟩ := h
  rw [List.head?_append, hstart, Option.some_or]

theorem not_isFindingKey_of_start {key : String}
    (h : "credential_compromise:".toList <+: key.toList) : ¬ isFindingKey key := by
  intro hf
  have hc := first_of_start (c := 'c') (by decide) h
  have hf := first_of_start (c := 'f') (by decide) hf
  rw [hc] at hf
  exact absurd hf (by decide)

theorem not_isFindingKey_of_isCredentialKey {key : String} (h : isCredentialKey key) :
    ¬ isFindingKey key :=
  not_isFindingKey_of_start (List.IsPrefix.trans (by decide) h)

theorem lengthPrefix_toList (s : String) : (lengthPrefix s).toList = lengthPrefixed s.toList := by
  unfold lengthPrefix lengthPrefixed
  rw [String.toList_append, String.toList_append, String.toList_ofList, String.length_toList]
  simp

theorem lengthPrefix_append_inj {s t rest rest' : String}
    (h : lengthPrefix s ++ rest = lengthPrefix t ++ rest') : s = t ∧ rest = rest' := by
  have hlist : lengthPrefixed s.toList ++ rest.toList =
      lengthPrefixed t.toList ++ rest'.toList := by
    rw [← lengthPrefix_toList, ← lengthPrefix_toList, ← String.toList_append,
      ← String.toList_append, h]
  obtain ⟨hs, hrest⟩ := lengthPrefixed_append_inj hlist
  exact ⟨String.toList_inj.mp hs, String.toList_inj.mp hrest⟩

theorem lengthPrefix_injective : Function.Injective lengthPrefix := by
  intro s t h
  exact (lengthPrefix_append_inj (congrArg (· ++ "") h)).1

theorem append_left_inj {start s t : String} : start ++ s = start ++ t ↔ s = t := by
  rw [← String.toList_inj, String.toList_append, String.toList_append, List.append_cancel_left_eq,
    String.toList_inj]

theorem buildCorrelationKey_inj {username username' sourceIp sourceIp' : Option String} :
    buildCorrelationKey py username sourceIp = buildCorrelationKey py username' sourceIp' ↔
      normalized py username = normalized py username' ∧
        normalized py sourceIp = normalized py sourceIp' := by
  unfold buildCorrelationKey
  constructor
  · intro h
    rw [String.append_assoc, String.append_assoc, String.append_assoc, String.append_assoc,
      append_left_inj] at h
    obtain ⟨hu, hrest⟩ := lengthPrefix_append_inj h
    exact ⟨hu, lengthPrefix_injective (append_left_inj.mp hrest)⟩
  · rintro ⟨hu, hs⟩
    rw [hu, hs]

theorem usernameLockKey_inj {u u' : String} : usernameLockKey u = usernameLockKey u' ↔ u = u' := by
  unfold usernameLockKey
  exact append_left_inj.trans lengthPrefix_injective.eq_iff

theorem sourceIpLockKey_inj {s s' : String} : sourceIpLockKey s = sourceIpLockKey s' ↔ s = s' := by
  unfold sourceIpLockKey
  exact append_left_inj.trans lengthPrefix_injective.eq_iff

theorem usernameLockKey_ne_sourceIpLockKey (u s : String) :
    usernameLockKey u ≠ sourceIpLockKey s := by
  intro h
  have hu : "credential_compromise:u".toList <+: (usernameLockKey u).toList :=
    List.IsPrefix.trans (by decide) (prefix_append_text _ _)
  have hs : "credential_compromise:s".toList <+: (sourceIpLockKey s).toList :=
    List.IsPrefix.trans (by decide) (prefix_append_text _ _)
  rw [h] at hu
  rcases List.prefix_or_prefix_of_prefix hu hs with hle | hle
  · exact absurd hle (by decide)
  · exact absurd hle (by decide)

theorem mem_buildIdentityLockKeys {username sourceIp : Option String} {key : String} :
    key ∈ buildIdentityLockKeys py username sourceIp ↔
      (normalized py username ≠ "" ∧ key = usernameLockKey (normalized py username)) ∨
        (normalized py sourceIp ≠ "" ∧ key = sourceIpLockKey (normalized py sourceIp)) := by
  unfold buildIdentityLockKeys
  rw [List.mem_insertionSort, List.mem_append]
  refine or_congr ?_ ?_ <;> split <;> simp [*]

end Correlation
