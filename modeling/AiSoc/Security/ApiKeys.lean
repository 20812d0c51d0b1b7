import AiSoc.Security.Tokens

namespace ApiKeys

open Permissions (Uuid Timestamp)
open Tokens

section Service

structure ServiceApiKey where
  id : Uuid
  name : String
  keyPrefix : String
  keyHash : String
  scopes : List String
  isActive : Bool
  expiresAt : Option Timestamp
  createdBy : Uuid
  lastUsedAt : Option Timestamp
  revokedAt : Option Timestamp
  createdAt : Timestamp

structure ApiKeyCreate where
  name : String
  scopes : List String
  expiresAt : Option Timestamp

structure ServicePrincipal where
  id : Uuid
  name : String
  keyPrefix : String
  scopes : List String

def ServiceApiKey.principal (record : ServiceApiKey) : ServicePrincipal :=
  ⟨record.id, record.name, record.keyPrefix, record.scopes⟩

def getByPrefix (keys : List ServiceApiKey) (keyPrefix : String) : Option ServiceApiKey :=
  keys.find? fun record => record.keyPrefix = keyPrefix

def get (keys : List ServiceApiKey) (keyId : Uuid) : Option ServiceApiKey :=
  keys.find? fun record => record.id = keyId

-- the flush of one changed row
def save (keys : List ServiceApiKey) (keyId : Uuid) (change : ServiceApiKey → ServiceApiKey) :
    List ServiceApiKey :=
  keys.map fun record => if record.id = keyId then change record else record

-- the primary key and the two unique columns
def taken (keys : List ServiceApiKey) (record : ServiceApiKey) : Bool :=
  keys.any fun other => other.id = record.id || other.keyPrefix = record.keyPrefix ||
    other.keyHash = record.keyHash

variable (hashSecret : String → String)

-- none is the IntegrityError of the insertion
def create (keys : List ServiceApiKey) (payload : ApiKeyCreate) (actorId id : Uuid)
    (prefixRandom random : RandomBytes) (now : Timestamp) :
    Option (List ServiceApiKey × ServiceApiKey × String) :=
  let (rawKey, keyPrefix, keyHash) := generateApiKey hashSecret prefixRandom random
  let record : ServiceApiKey :=
    { id := id
      name := PyStr.strip payload.name
      keyPrefix := keyPrefix
      keyHash := keyHash
      scopes := payload.scopes.eraseDups
      isActive := true
      expiresAt := payload.expiresAt
      createdBy := actorId
      lastUsedAt := none
      revokedAt := none
      createdAt := now }
  if taken keys record then none else some (keys ++ [record], record, rawKey)

def ServiceApiKey.revoke (now : Timestamp) (record : ServiceApiKey) : ServiceApiKey :=
  match record.revokedAt with
  | none => { record with revokedAt := some now, isActive := false }
  | some _ => record

def revoke (keys : List ServiceApiKey) (keyId : Uuid) (now : Timestamp) :
    Option (List ServiceApiKey × ServiceApiKey) :=
  (get keys keyId).map fun record =>
    (save keys keyId (ServiceApiKey.revoke now), record.revoke now)

def ServiceApiKey.denies (record : ServiceApiKey) (secret : String) (now : Timestamp) : Bool :=
  !record.isActive || record.revokedAt.isSome ||
    record.expiresAt.any (fun expiresAt => decide (expiresAt ≤ now)) ||
    !record.scopes.contains "events:write" || record.keyHash ≠ hashSecret secret

-- none is the 401; the second clock reading dates the use
def requireEventIngestKey (keys : List ServiceApiKey) (value : Option String)
    (now usedAt : Timestamp) : Option (List ServiceApiKey × ServicePrincipal) :=
  match value with
  | none => none
  | some value =>
      if value = "" then none
      else
        match parseApiKey value with
        | none => none
        | some (keyPrefix, secret) =>
            match getByPrefix keys keyPrefix with
            | none => none
            | some record =>
                if record.denies hashSecret secret now then none
                else
                  some (save keys record.id fun record => { record with lastUsedAt := some usedAt },
                    record.principal)

end Service

section Runs

inductive Call where
  | create (payload : ApiKeyCreate) (actorId id : Uuid) (prefixRandom random : RandomBytes)
      (now : Timestamp)
  | revoke (keyId : Uuid) (now : Timestamp)
  | ingest (value : Option String) (now usedAt : Timestamp)

inductive Reply where
  | created (record : ServiceApiKey) (apiKey : String)
  | conflict
  | revoked (record : ServiceApiKey)
  | notFound
  | accepted (principal : ServicePrincipal)
  | refused

-- the table and the replies to the requests so far, the last one first
structure World where
  keys : List ServiceApiKey
  replies : List Reply

def World.answer (w : World) (keys : List ServiceApiKey) (reply : Reply) : World :=
  ⟨keys, reply :: w.replies⟩

variable (hashSecret : String → String)

def World.step (w : World) : Call → World
  | .create payload actorId id prefixRandom random now =>
      match create hashSecret w.keys payload actorId id prefixRandom random now with
      | none => w.answer w.keys .conflict
      | some (keys, record, rawKey) => w.answer keys (.created record rawKey)
  | .revoke keyId now =>
      match revoke w.keys keyId now with
      | none => w.answer w.keys .notFound
      | some (keys, record) => w.answer keys (.revoked record)
  | .ingest value now usedAt =>
      match requireEventIngestKey hashSecret w.keys value now usedAt with
      | none => w.answer w.keys .refused
      | some (keys, principal) => w.answer keys (.accepted principal)

def run (calls : List Call) : World :=
  calls.foldl (World.step hashSecret) ⟨[], []⟩

end Runs

section Tables

variable {keys : List ServiceApiKey}

def ServiceApiKey.grant (record : ServiceApiKey) : ServicePrincipal × String × Option Timestamp :=
  (record.principal, record.keyHash, record.expiresAt)

def ServiceApiKey.Live (record : ServiceApiKey) : Prop :=
  record.isActive = true ∧ record.revokedAt = none

theorem revoke_grant (now : Timestamp) (record : ServiceApiKey) :
    (record.revoke now).grant = record.grant := by
  rw [ServiceApiKey.revoke]
  cases record.revokedAt <;> rfl

theorem not_live_revoke (now : Timestamp) (record : ServiceApiKey) :
    ¬ (record.revoke now).Live := by
  rintro ⟨_, hrevokedAt⟩
  rw [ServiceApiKey.revoke] at hrevokedAt
  split at hrevokedAt
  · cases hrevokedAt
  · rename_i revokedAt hsome
    rw [hsome] at hrevokedAt
    cases hrevokedAt

theorem id_of_grant {a b : ServiceApiKey} (h : a.grant = b.grant) : a.id = b.id :=
  congrArg (fun grant => grant.1.id) h

theorem keyPrefix_of_grant {a b : ServiceApiKey} (h : a.grant = b.grant) :
    a.keyPrefix = b.keyPrefix :=
  congrArg (fun grant => grant.1.keyPrefix) h

theorem mem_save {keyId : Uuid} {change : ServiceApiKey → ServiceApiKey} {row : ServiceApiKey} :
    row ∈ save keys keyId change ↔ ∃ old ∈ keys,
      (old.id = keyId ∧ row = change old) ∨ (old.id ≠ keyId ∧ row = old) := by
  rw [save, List.mem_map]
  constructor
  · rintro ⟨old, hold, heq⟩
    refine ⟨old, hold, ?_⟩
    split at heq
    · rename_i hid
      exact Or.inl ⟨hid, heq.symm⟩
    · rename_i hid
      exact Or.inr ⟨hid, heq.symm⟩
  · rintro ⟨old, hold, ⟨hid, rfl⟩ | ⟨hid, rfl⟩⟩
    · exact ⟨old, hold, if_pos hid⟩
    · exact ⟨row, hold, if_neg hid⟩

theorem map_save {β : Type} {keyId : Uuid} {change : ServiceApiKey → ServiceApiKey}
    {column : ServiceApiKey → β} (h : ∀ record, column (change record) = column record) :
    (save keys keyId change).map column = keys.map column := by
  rw [save, List.map_map]
  apply List.map_congr_left
  intro record _
  rw [Function.comp_apply]
  split
  · exact h record
  · rfl

theorem get_spec {keyId : Uuid} {record : ServiceApiKey} (h : get keys keyId = some record) :
    record ∈ keys ∧ record.id = keyId := by
  rw [get] at h
  have hid := List.find?_some h
  exact ⟨List.mem_of_find?_eq_some h, of_decide_eq_true hid⟩

theorem getByPrefix_spec {keyPrefix : String} {record : ServiceApiKey}
    (h : getByPrefix keys keyPrefix = some record) :
    record ∈ keys ∧ record.keyPrefix = keyPrefix := by
  rw [getByPrefix] at h
  have hstart := List.find?_some h
  exact ⟨List.mem_of_find?_eq_some h, of_decide_eq_true hstart⟩

theorem getByPrefix_eq_some (hcolumns : (keys.map (·.keyPrefix)).Nodup) {keyPrefix : String}
    {record : ServiceApiKey} : getByPrefix keys keyPrefix = some record ↔
      record ∈ keys ∧ record.keyPrefix = keyPrefix := by
  refine ⟨getByPrefix_spec, ?_⟩
  rintro ⟨hmem, rfl⟩
  rcases hget : getByPrefix keys record.keyPrefix with _ | found
  · rw [getByPrefix, List.find?_eq_none] at hget
    exact absurd (decide_eq_true rfl) (hget record hmem)
  · obtain ⟨hfound, hstart⟩ := getByPrefix_spec hget
    rw [List.inj_on_of_nodup_map hcolumns hfound hmem hstart]

theorem not_denies_iff {hashSecret : String → String} {record : ServiceApiKey} {secret : String}
    {now : Timestamp} : record.denies hashSecret secret now = false ↔
      record.Live ∧ (∀ expiresAt, record.expiresAt = some expiresAt → now < expiresAt) ∧
        "events:write" ∈ record.scopes ∧ record.keyHash = hashSecret secret := by
  cases hexpiresAt : record.expiresAt <;>
    simp [ServiceApiKey.denies, ServiceApiKey.Live, hexpiresAt, and_assoc]

theorem not_taken_iff {record : ServiceApiKey} : taken keys record = false ↔
    ∀ other ∈ keys, other.id ≠ record.id ∧ other.keyPrefix ≠ record.keyPrefix ∧
      other.keyHash ≠ record.keyHash := by
  simp [taken, and_assoc]

end Tables

section History

variable {hashSecret : String → String} {w : World}

structure Tracks (w : World) : Prop where
  ids : (w.keys.map (·.id)).Nodup
  prefixes : (w.keys.map (·.keyPrefix)).Nodup
  created : ∀ row ∈ w.keys, ∃ record rawKey, Reply.created record rawKey ∈ w.replies ∧
    row.grant = record.grant
  stored : ∀ record rawKey, Reply.created record rawKey ∈ w.replies →
    ∃ row ∈ w.keys, row.grant = record.grant
  known : ∀ record, Reply.revoked record ∈ w.replies → ∃ row ∈ w.keys, row.id = record.id
  live : ∀ row ∈ w.keys, row.Live ↔ ∀ record, Reply.revoked record ∈ w.replies → record.id ≠ row.id

theorem tracks_start : Tracks ⟨[], []⟩ where
  ids := List.nodup_nil
  prefixes := List.nodup_nil
  created := fun _ h => absurd h List.not_mem_nil
  stored := fun _ _ h => absurd h List.not_mem_nil
  known := fun _ h => absurd h List.not_mem_nil
  live := fun _ h => absurd h List.not_mem_nil

def Reply.Plain (reply : Reply) : Prop :=
  (∀ record rawKey, reply ≠ .created record rawKey) ∧ ∀ record, reply ≠ .revoked record

theorem tracks_created (h : Tracks w) {record : ServiceApiKey} {rawKey : String}
    (hlive : record.Live) (hfree : taken w.keys record = false) :
    Tracks (w.answer (w.keys ++ [record]) (.created record rawKey)) := by
  have hother := not_taken_iff.mp hfree
  have hnew : ∀ revoked, Reply.revoked revoked ∈ w.replies → revoked.id ≠ record.id := by
    intro revoked hrevoked hid
    obtain ⟨row, hrow, hrowId⟩ := h.known revoked hrevoked
    exact (hother row hrow).1 (hrowId.trans hid)
  have hrevoked : ∀ revoked, Reply.revoked revoked ∈ Reply.created record rawKey :: w.replies ↔
      Reply.revoked revoked ∈ w.replies := by
    intro revoked
    simp
  refine ⟨?_, ?_, ?_, ?_, ?_, ?_⟩
  · simp only [World.answer, List.map_append, List.map_singleton]
    refine h.ids.append (List.nodup_singleton _) ?_
    intro id hid hnewId
    obtain ⟨row, hrow, rfl⟩ := List.mem_map.mp hid
    exact (hother row hrow).1 (List.mem_singleton.mp hnewId)
  · simp only [World.answer, List.map_append, List.map_singleton]
    refine h.prefixes.append (List.nodup_singleton _) ?_
    intro keyPrefix hstart hnewPrefix
    obtain ⟨row, hrow, rfl⟩ := List.mem_map.mp hstart
    exact (hother row hrow).2.1 (List.mem_singleton.mp hnewPrefix)
  · intro row hrow
    rcases List.mem_append.mp hrow with hrow | hrow
    · obtain ⟨old, oldKey, hold, hgrant⟩ := h.created row hrow
      exact ⟨old, oldKey, List.mem_cons_of_mem _ hold, hgrant⟩
    · rw [List.mem_singleton.mp hrow]
      exact ⟨record, rawKey, List.mem_cons_self, rfl⟩
  · intro old oldKey hold
    rcases List.mem_cons.mp hold with heq | hold
    · cases heq
      exact ⟨record, List.mem_append_right _ (List.mem_singleton_self _), rfl⟩
    · obtain ⟨row, hrow, hgrant⟩ := h.stored old oldKey hold
      exact ⟨row, List.mem_append_left _ hrow, hgrant⟩
  · intro revoked hmem
    obtain ⟨row, hrow, hid⟩ := h.known revoked ((hrevoked revoked).mp hmem)
    exact ⟨row, List.mem_append_left _ hrow, hid⟩
  · intro row hrow
    simp only [World.answer, hrevoked]
    rcases List.mem_append.mp hrow with hrow | hrow
    · exact h.live row hrow
    · rw [List.mem_singleton.mp hrow]
      exact iff_of_true hlive hnew

theorem tracks_saved (h : Tracks w) {keyId : Uuid} {change : ServiceApiKey → ServiceApiKey}
    {reply : Reply} (hgrant : ∀ record, (change record).grant = record.grant)
    (hcreated : ∀ record rawKey, reply ≠ .created record rawKey)
    (hknown : ∀ record, reply = .revoked record → record.id = keyId ∧
      ∃ row ∈ w.keys, row.id = keyId)
    (hlive : ∀ row ∈ w.keys, row.id = keyId → ((change row).Live ↔
      ∀ record, Reply.revoked record ∈ reply :: w.replies → record.id ≠ row.id)) :
    Tracks (w.answer (save w.keys keyId change) reply) := by
  have hnew : ∀ row ∈ w.keys, ∃ new ∈ save w.keys keyId change, new.grant = row.grant := by
    intro row hrow
    by_cases hid : row.id = keyId
    · exact ⟨change row, mem_save.mpr ⟨row, hrow, Or.inl ⟨hid, rfl⟩⟩, hgrant row⟩
    · exact ⟨row, mem_save.mpr ⟨row, hrow, Or.inr ⟨hid, rfl⟩⟩, rfl⟩
  have hold : ∀ new ∈ save w.keys keyId change, ∃ row ∈ w.keys, new.grant = row.grant := by
    intro new hmem
    obtain ⟨row, hrow, ⟨_, rfl⟩ | ⟨_, rfl⟩⟩ := mem_save.mp hmem
    · exact ⟨row, hrow, hgrant row⟩
    · exact ⟨new, hrow, rfl⟩
  refine ⟨?_, ?_, ?_, ?_, ?_, ?_⟩
  · have hcolumn : (save w.keys keyId change).map (·.id) = w.keys.map (·.id) :=
      map_save fun record => id_of_grant (hgrant record)
    exact hcolumn ▸ h.ids
  · have hcolumn : (save w.keys keyId change).map (·.keyPrefix) = w.keys.map (·.keyPrefix) :=
      map_save fun record => keyPrefix_of_grant (hgrant record)
    exact hcolumn ▸ h.prefixes
  · intro new hmem
    obtain ⟨row, hrow, heq⟩ := hold new hmem
    obtain ⟨record, rawKey, hrecord, hrowGrant⟩ := h.created row hrow
    exact ⟨record, rawKey, List.mem_cons_of_mem _ hrecord, heq.trans hrowGrant⟩
  · intro record rawKey hrecord
    rcases List.mem_cons.mp hrecord with heq | hrecord
    · exact absurd heq.symm (hcreated record rawKey)
    · obtain ⟨row, hrow, hrowGrant⟩ := h.stored record rawKey hrecord
      obtain ⟨new, hmem, heq⟩ := hnew row hrow
      exact ⟨new, hmem, heq.trans hrowGrant⟩
  · intro record hrecord
    have hrow : ∃ row ∈ w.keys, row.id = record.id := by
      rcases List.mem_cons.mp hrecord with heq | hrecord
      · obtain ⟨hid, row, hrow, hrowId⟩ := hknown record heq.symm
        exact ⟨row, hrow, hrowId.trans hid.symm⟩
      · exact h.known record hrecord
    obtain ⟨row, hrow, hid⟩ := hrow
    obtain ⟨new, hmem, heq⟩ := hnew row hrow
    exact ⟨new, hmem, (id_of_grant heq).trans hid⟩
  · intro new hmem
    obtain ⟨row, hrow, ⟨hid, rfl⟩ | ⟨hid, rfl⟩⟩ := mem_save.mp hmem
    · rw [id_of_grant (hgrant row)]
      exact hlive row hrow hid
    · rw [h.live new hrow]
      constructor
      · intro hnever record hrecord
        rcases List.mem_cons.mp hrecord with heq | hrecord
        · rw [(hknown record heq.symm).1]
          exact fun hkey => hid hkey.symm
        · exact hnever record hrecord
      · intro hnever record hrecord
        exact hnever record (List.mem_cons_of_mem _ hrecord)

theorem save_self (keys : List ServiceApiKey) (keyId : Uuid) :
    save keys keyId (fun record => record) = keys := by
  simp [save]

theorem tracks_plain (h : Tracks w) {keyId : Uuid} {change : ServiceApiKey → ServiceApiKey}
    {reply : Reply} (hreply : reply.Plain)
    (hgrant : ∀ record, (change record).grant = record.grant)
    (hlive : ∀ record, (change record).Live ↔ record.Live) :
    Tracks (w.answer (save w.keys keyId change) reply) := by
  refine tracks_saved h hgrant hreply.1 (fun record heq => absurd heq (hreply.2 record)) ?_
  intro row hrow _
  rw [hlive, h.live row hrow]
  refine forall_congr' fun record => ?_
  rw [List.mem_cons, or_iff_right fun heq => hreply.2 record heq.symm]

theorem tracks_unchanged (h : Tracks w) {reply : Reply} (hreply : reply.Plain) :
    Tracks (w.answer w.keys reply) := by
  have hsaved : Tracks (w.answer (save w.keys 0 fun record => record) reply) :=
    tracks_plain h hreply (fun _ => rfl) (fun _ => Iff.rfl)
  rwa [save_self] at hsaved

theorem tracks_revoked (h : Tracks w) {keyId : Uuid} {record : ServiceApiKey} (now : Timestamp)
    (hget : get w.keys keyId = some record) :
    Tracks (w.answer (save w.keys keyId (ServiceApiKey.revoke now))
      (.revoked (record.revoke now))) := by
  obtain ⟨hmem, hid⟩ := get_spec hget
  have hrevokedId : (record.revoke now).id = keyId := (id_of_grant (revoke_grant now record)).trans hid
  refine tracks_saved h (revoke_grant now) (fun _ _ heq => by cases heq) ?_ ?_
  · intro revoked heq
    cases heq
    exact ⟨hrevokedId, record, hmem, hid⟩
  · intro row _ hrowId
    refine iff_of_false (not_live_revoke now row) fun hnever => ?_
    exact hnever _ List.mem_cons_self (hrevokedId.trans hrowId.symm)

theorem live_created {keys : List ServiceApiKey} {payload : ApiKeyCreate} {actorId id : Uuid}
    {prefixRandom random : RandomBytes} {now : Timestamp} {saved : List ServiceApiKey}
    {record : ServiceApiKey} {rawKey : String}
    (h : create hashSecret keys payload actorId id prefixRandom random now =
      some (saved, record, rawKey)) :
    saved = keys ++ [record] ∧ record.Live ∧ taken keys record = false := by
  simp only [create] at h
  split at h
  · cases h
  · rename_i hfree
    cases h
    exact ⟨rfl, ⟨rfl, rfl⟩, Bool.eq_false_iff.mpr hfree⟩

theorem requireEventIngestKey_eq_some {keys : List ServiceApiKey} {value : Option String}
    {now usedAt : Timestamp} {saved : List ServiceApiKey} {principal : ServicePrincipal} :
    requireEventIngestKey hashSecret keys value now usedAt = some (saved, principal) ↔
      ∃ text keyPrefix secret record, value = some text ∧ text ≠ "" ∧
        parseApiKey text = some (keyPrefix, secret) ∧ getByPrefix keys keyPrefix = some record ∧
        record.denies hashSecret secret now = false ∧
        saved = save keys record.id (fun record => { record with lastUsedAt := some usedAt }) ∧
        principal = record.principal := by
  constructor
  · intro h
    unfold requireEventIngestKey at h
    split at h
    · cases h
    · rename_i text
      split at h
      · cases h
      · rename_i hempty
        split at h
        · cases h
        · rename_i keyPrefix secret hparse
          split at h
          · cases h
          · rename_i record hget
            split at h
            · cases h
            · rename_i hdenies
              cases h
              exact ⟨text, keyPrefix, secret, record, rfl, hempty, hparse, hget,
                Bool.eq_false_iff.mpr hdenies, rfl, rfl⟩
  · rintro ⟨text, keyPrefix, secret, record, rfl, hempty, hparse, hget, hdenies, rfl, rfl⟩
    simp [requireEventIngestKey, hempty, hparse, hget, hdenies]

theorem tracks_step (h : Tracks w) (call : Call) : Tracks (w.step hashSecret call) := by
  cases call with
  | create payload actorId id prefixRandom random now =>
      rw [World.step]
      split
      · exact tracks_unchanged h ⟨fun _ _ heq => (by cases heq), fun _ heq => by cases heq⟩
      · rename_i keys record rawKey hcreate
        obtain ⟨rfl, hlive, hfree⟩ := live_created hcreate
        exact tracks_created h hlive hfree
  | revoke keyId now =>
      rw [World.step]
      split
      · exact tracks_unchanged h ⟨fun _ _ heq => (by cases heq), fun _ heq => by cases heq⟩
      · rename_i keys record hrevoke
        obtain ⟨old, hget, heq⟩ := Option.map_eq_some_iff.mp hrevoke
        cases heq
        exact tracks_revoked h now hget
  | ingest value now usedAt =>
      rw [World.step]
      split
      · exact tracks_unchanged h ⟨fun _ _ heq => (by cases heq), fun _ heq => by cases heq⟩
      · rename_i keys principal haccepted
        obtain ⟨_, _, _, record, _, _, _, _, _, rfl, _⟩ :=
          requireEventIngestKey_eq_some.mp haccepted
        exact tracks_plain h ⟨fun _ _ heq => (by cases heq), fun _ heq => by cases heq⟩
          (fun _ => rfl) (fun _ => Iff.rfl)

theorem tracks_run (calls : List Call) : Tracks (run hashSecret calls) := by
  induction calls using List.reverseRecOn with
  | nil => exact tracks_start
  | append_singleton calls call ih =>
      rw [run, List.foldl_append]
      exact tracks_step ih call

theorem usable_iff (h : Tracks w) {keyPrefix secret : String} {now : Timestamp}
    {principal : ServicePrincipal} :
    (∃ record, getByPrefix w.keys keyPrefix = some record ∧
      record.denies hashSecret secret now = false ∧ principal = record.principal) ↔
      ∃ record rawKey, Reply.created record rawKey ∈ w.replies ∧
        record.keyPrefix = keyPrefix ∧ record.keyHash = hashSecret secret ∧
        "events:write" ∈ record.scopes ∧
        (∀ expiresAt, record.expiresAt = some expiresAt → now < expiresAt) ∧
        (∀ revoked, Reply.revoked revoked ∈ w.replies → revoked.id ≠ record.id) ∧
        principal = record.principal := by
  simp only [not_denies_iff, getByPrefix_eq_some h.prefixes]
  constructor
  · rintro ⟨row, ⟨hrow, hstart⟩, ⟨hlive, hexpires, hscope, hhash⟩, hprincipal⟩
    obtain ⟨record, rawKey, hrecord, hgrant⟩ := h.created row hrow
    have hrecordPrincipal : row.principal = record.principal := congrArg Prod.fst hgrant
    have hkeyHash : row.keyHash = record.keyHash := congrArg (fun grant => grant.2.1) hgrant
    have hexpiresAt : row.expiresAt = record.expiresAt := congrArg (fun grant => grant.2.2) hgrant
    have hscopes : row.scopes = record.scopes :=
      congrArg (fun principal => principal.scopes) hrecordPrincipal
    refine ⟨record, rawKey, hrecord, ?_, ?_, ?_, ?_, ?_, ?_⟩
    · exact (keyPrefix_of_grant hgrant).symm.trans hstart
    · exact hkeyHash.symm.trans hhash
    · exact hscopes ▸ hscope
    · exact hexpiresAt ▸ hexpires
    · exact id_of_grant hgrant ▸ (h.live row hrow).mp hlive
    · exact hprincipal.trans hrecordPrincipal
  · rintro ⟨record, rawKey, hrecord, hstart, hhash, hscope, hexpires, hnever, hprincipal⟩
    obtain ⟨row, hrow, hgrant⟩ := h.stored record rawKey hrecord
    have hrecordPrincipal : row.principal = record.principal := congrArg Prod.fst hgrant
    have hkeyHash : row.keyHash = record.keyHash := congrArg (fun grant => grant.2.1) hgrant
    have hexpiresAt : row.expiresAt = record.expiresAt := congrArg (fun grant => grant.2.2) hgrant
    have hscopes : row.scopes = record.scopes :=
      congrArg (fun principal => principal.scopes) hrecordPrincipal
    refine ⟨row, ⟨hrow, (keyPrefix_of_grant hgrant).trans hstart⟩, ⟨?_, ?_, ?_, ?_⟩, ?_⟩
    · exact (h.live row hrow).mpr (id_of_grant hgrant ▸ hnever)
    · exact hexpiresAt ▸ hexpires
    · exact hscopes ▸ hscope
    · exact hkeyHash.trans hhash
    · exact hprincipal.trans hrecordPrincipal.symm

theorem ingest_accepted_iff (hashSecret : String → String) (calls : List Call)
    (value : Option String) (now usedAt : Timestamp) (principal : ServicePrincipal) :
    (run hashSecret (calls ++ [.ingest value now usedAt])).replies.head? =
        some (.accepted principal) ↔
      ∃ text keyPrefix secret, value = some text ∧ text ≠ "" ∧
        parseApiKey text = some (keyPrefix, secret) ∧
        ∃ record rawKey, Reply.created record rawKey ∈ (run hashSecret calls).replies ∧
          record.keyPrefix = keyPrefix ∧ record.keyHash = hashSecret secret ∧
          "events:write" ∈ record.scopes ∧
          (∀ expiresAt, record.expiresAt = some expiresAt → now < expiresAt) ∧
          (∀ revoked, Reply.revoked revoked ∈ (run hashSecret calls).replies →
            revoked.id ≠ record.id) ∧
          principal = record.principal := by
  have hstep : run hashSecret (calls ++ [.ingest value now usedAt]) =
      (run hashSecret calls).step hashSecret (.ingest value now usedAt) := by
    rw [run, List.foldl_append]
    rfl
  have hhead : ((run hashSecret calls).step hashSecret (.ingest value now usedAt)).replies.head? =
      some (.accepted principal) ↔ ∃ saved, requireEventIngestKey hashSecret
        (run hashSecret calls).keys value now usedAt = some (saved, principal) := by
    rw [World.step]
    cases haccepted : requireEventIngestKey hashSecret (run hashSecret calls).keys value now usedAt
      with
    | none => simp [World.answer]
    | some result => simp [World.answer, Prod.ext_iff]
  rw [hstep, hhead]
  simp only [requireEventIngestKey_eq_some, ← usable_iff (tracks_run calls)]
  constructor
  · rintro ⟨_, text, keyPrefix, secret, record, hvalue, hempty, hparse, hget, hdenies, _, heq⟩
    exact ⟨text, keyPrefix, secret, hvalue, hempty, hparse, record, hget, hdenies, heq⟩
  · rintro ⟨text, keyPrefix, secret, hvalue, hempty, hparse, record, hget, hdenies, heq⟩
    exact ⟨_, text, keyPrefix, secret, record, hvalue, hempty, hparse, hget, hdenies, rfl, heq⟩

end History

end ApiKeys
