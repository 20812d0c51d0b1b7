import AiSoc.Correlation.Locks
import AiSoc.Library.Deadlock
import Mathlib.Data.String.Basic
import Mathlib.Logic.Function.Basic

namespace Correlation

open PyStr Transition

section Identities

-- what the advisory locks of a correlation stand for
inductive Identity where
  | sourceIp (normalizedSourceIp : String)
  | username (normalizedUsername : String)
  | finding (key : {key : String // isFindingKey key})
deriving DecidableEq

def Identity.lockKey : Identity → String
  | .sourceIp normalizedSourceIp => sourceIpLockKey normalizedSourceIp
  | .username normalizedUsername => usernameLockKey normalizedUsername
  | .finding key => key

def Call.identities (env : Env) : Call → List Identity
  | .credential username sourceIp =>
      (if normalized env.text sourceIp ≠ "" then [.sourceIp (normalized env.text sourceIp)]
        else []) ++
      (if normalized env.text username ≠ "" then [.username (normalized env.text username)]
        else [])
  | .cloudFinding event _ => [.finding ⟨eventFindingKey env event, isFindingKey_findingKey _ _⟩]

def identities (env : Env) (db : Database) (alert : Alert) : List Identity :=
  ((callOf env db alert).map (Call.identities env)).getD []

def SameLock {H : Type} (hash : String → H) (i j : Identity) : Prop :=
  hash i.lockKey = hash j.lockKey

theorem not_isFindingKey_sourceIp (s : String) : ¬ isFindingKey (sourceIpLockKey s) :=
  not_isFindingKey_of_start (List.IsPrefix.trans (by decide) (prefix_append_text _ _))

theorem not_isFindingKey_username (u : String) : ¬ isFindingKey (usernameLockKey u) :=
  not_isFindingKey_of_start (List.IsPrefix.trans (by decide) (prefix_append_text _ _))

theorem ne_finding {text : String} (h : ¬ isFindingKey text)
    (key : {key : String // isFindingKey key}) : text ≠ key.1 := by
  rintro rfl
  exact h key.2

theorem lockKey_injective : Function.Injective Identity.lockKey := by
  intro i j h
  cases i with
  | sourceIp s =>
      cases j with
      | sourceIp s' => rw [sourceIpLockKey_inj.1 h]
      | username u' => exact absurd h.symm (usernameLockKey_ne_sourceIpLockKey u' s)
      | finding key' => exact absurd h (ne_finding (not_isFindingKey_sourceIp s) key')
  | username u =>
      cases j with
      | sourceIp s' => exact absurd h (usernameLockKey_ne_sourceIpLockKey u s')
      | username u' => rw [usernameLockKey_inj.1 h]
      | finding key' => exact absurd h (ne_finding (not_isFindingKey_username u) key')
  | finding key =>
      cases j with
      | sourceIp s' => exact absurd h.symm (ne_finding (not_isFindingKey_sourceIp s') key)
      | username u' => exact absurd h.symm (ne_finding (not_isFindingKey_username u') key)
      | finding key' => rw [Subtype.ext h]

theorem append_cons_le {c d : Char} (h : c < d) (start rest rest' : List Char) :
    start ++ c :: rest ≤ start ++ d :: rest' := by
  induction start with
  | nil => exact le_of_lt (List.Lex.rel h)
  | cons b start ih => exact List.cons_le_cons b ih

theorem sourceIpLockKey_lt_usernameLockKey (s u : String) :
    sourceIpLockKey s < usernameLockKey u := by
  have hs : "credential_compromise:source_ip:".toList =
      "credential_compromise:".toList ++ 's' :: "ource_ip:".toList := by decide
  have hu : "credential_compromise:username:".toList =
      "credential_compromise:".toList ++ 'u' :: "sername:".toList := by decide
  have hlt : 's' < 'u' := by decide
  refine lt_of_le_of_ne ?_ (usernameLockKey_ne_sourceIpLockKey u s).symm
  unfold sourceIpLockKey usernameLockKey
  rw [String.le_iff_toList_le, String.toList_append, String.toList_append, hs, hu,
    List.append_assoc, List.append_assoc, List.cons_append, List.cons_append]
  exact append_cons_le hlt _ _ _

theorem lockKeys_eq (env : Env) (call : Call) :
    call.lockKeys env = (call.identities env).map Identity.lockKey := by
  cases call with
  | credential username sourceIp =>
      have hlt := sourceIpLockKey_lt_usernameLockKey (normalized env.text sourceIp)
        (normalized env.text username)
      simp only [Call.lockKeys, Call.identities, buildIdentityLockKeys]
      by_cases hu : normalized env.text username = ""
      · by_cases hs : normalized env.text sourceIp = ""
        · simp [hu, hs]
        · simp [hu, hs, Identity.lockKey]
      · by_cases hs : normalized env.text sourceIp = ""
        · simp [hu, hs, Identity.lockKey]
        · simp [hu, hs, Identity.lockKey, not_le.2 hlt]
  | cloudFinding event alert => rfl

theorem correlationLocks_identities (env : Env) (db : Database) (alert : Alert) :
    correlationLocks env db alert = (identities env db alert).map Identity.lockKey := by
  rw [correlationLocks_eq, identities]
  cases callOf env db alert with
  | none => rfl
  | some call => exact lockKeys_eq env call

end Identities

section Sequences

variable {env : Env}

-- the alerts that a transaction correlates, each with the rows that its statements see
abbrev Transaction := List (Database × Alert)

def lockSequence (env : Env) (transaction : Transaction) : List String :=
  transaction.flatMap fun p => correlationLocks env p.1 p.2

-- pg_advisory_xact_lock locks the hash of a key
def lockPlans (env : Env) {H : Type} (hash : String → H) (transactions : List Transaction) :
    Deadlock.Plans H :=
  transactions.map fun transaction => (lockSequence env transaction).map hash

-- the identities that a transaction names, one correlation after another
def named (env : Env) (transaction : Transaction) : List (List Identity) :=
  (transaction.map fun p => identities env p.1 p.2).filter (· ≠ [])

def batch (env : Env) (transaction : Transaction) : List Identity :=
  (named env transaction).flatten

theorem lockSequence_eq (transaction : Transaction) :
    lockSequence env transaction = (batch env transaction).map Identity.lockKey := by
  rw [batch, named, List.flatten_filter_ne_nil, List.map_flatten, List.map_map, lockSequence,
    List.flatMap_def]
  refine congrArg List.flatten (List.map_congr_left fun p _ => ?_)
  exact correlationLocks_identities env p.1 p.2

theorem lockPlans_eq {H : Type} (hash : String → H) (transactions : List Transaction) :
    lockPlans env hash transactions =
      (transactions.map (batch env)).map (List.map fun i => hash i.lockKey) := by
  rw [lockPlans, List.map_map]
  refine List.map_congr_left fun transaction _ => ?_
  rw [lockSequence_eq, List.map_map]
  rfl

end Sequences

section Ordered

variable {env : Env} {H : Type} {hash : String → H} {transactions : List Transaction}

theorem ordered_correlationLocks (db : Database) (alert : Alert) :
    (correlationLocks env db alert).Pairwise (· ≤ ·) := by
  unfold correlationLocks
  split
  · split
    · exact List.pairwise_singleton ..
    · exact .nil
  · split
    · exact .nil
    · split
      · exact .nil
      · exact List.pairwise_insertionSort ..

theorem ordered_batch {transaction : Transaction} (h : (named env transaction).length ≤ 1) :
    ((batch env transaction).map Identity.lockKey).Pairwise (· ≤ ·) := by
  rw [batch]
  cases hnamed : named env transaction with
  | nil => exact .nil
  | cons first rest =>
      rw [hnamed, List.length_cons] at h
      have hrest : rest = [] := List.eq_nil_of_length_eq_zero (by omega)
      have hmem : first ∈ named env transaction := hnamed ▸ List.mem_cons_self
      obtain ⟨p, _, rfl⟩ := List.mem_map.1 (List.mem_of_mem_filter hmem)
      rw [hrest, List.flatten_cons, List.flatten_nil, List.append_nil,
        ← correlationLocks_identities]
      exact ordered_correlationLocks p.1 p.2

theorem plan_lockPlans (t : Nat) : Deadlock.plan (lockPlans env hash transactions) t =
    ((batch env (transactions.getD t [])).map Identity.lockKey).map hash := by
  rw [← lockSequence_eq, Deadlock.plan, lockPlans, List.getD_eq_getElem?_getD, List.getElem?_map,
    List.getD_eq_getElem?_getD]
  cases transactions[t]? with
  | none => rfl
  | some transaction => rfl

theorem single_of_getD (h : ∀ transaction ∈ transactions, (named env transaction).length ≤ 1)
    (t : Nat) : (named env (transactions.getD t [])).length ≤ 1 := by
  rw [List.getD_eq_getElem?_getD]
  cases hget : transactions[t]? with
  | none => exact Nat.zero_le 1
  | some transaction => exact h transaction (List.mem_of_getElem? hget)

theorem single_correlations_clear (hhash : Function.Injective hash)
    (h : ∀ transaction ∈ transactions, (named env transaction).length ≤ 1) :
    ¬ Deadlock.Crossing (lockPlans env hash transactions) := by
  refine Deadlock.not_crossing_of_ordered (Function.invFun hash) fun t => ?_
  rw [plan_lockPlans, List.pairwise_map]
  refine (ordered_batch (single_of_getD h t)).imp fun {a b} hle => ?_
  rcases eq_or_lt_of_le hle with heq | hlt
  · exact .inl (congrArg hash heq)
  · refine .inr ?_
    rw [Function.leftInverse_invFun hhash, Function.leftInverse_invFun hhash]
    exact hlt

end Ordered

section Batches

theorem ingestion_deadlocks_iff {H : Type} [DecidableEq H] (env : Env) (hash : String → H)
    (transactions : List Transaction) :
    ((∀ s, Run (Deadlock.step (lockPlans env hash transactions)) anyStep Deadlock.initial s →
      ¬ Deadlock.Deadlocked (lockPlans env hash transactions) s) ↔
        ¬ Deadlock.Entangled (SameLock hash) (transactions.map (batch env))) ∧
    (Function.Injective hash → (∀ i j, SameLock hash i j ↔ i = j) ∧
      ((∀ transaction ∈ transactions, (named env transaction).length ≤ 1) →
        ¬ Deadlock.Entangled (SameLock hash) (transactions.map (batch env)))) := by
  have hiff := Deadlock.deadlock_iff_entangled (fun i : Identity => hash i.lockKey)
    (transactions.map (batch env))
  rw [← lockPlans_eq] at hiff
  refine ⟨hiff, fun hhash => ⟨fun i j => (hhash.comp lockKey_injective).eq_iff, fun hsingle => ?_⟩⟩
  exact hiff.1 ((Deadlock.deadlock_iff _).2 (single_correlations_clear hhash hsingle))

def aliceAttack (batch : String) (second : Int) : List EventCreate :=
  attack (tenIds.map (batch ++ "a" ++ ·)) (batch ++ "a") second (second + 10) (some "alice")
    (some "203.0.113.1")

def bobAttack (batch : String) (second : Int) : List EventCreate :=
  attack (tenIds.map (batch ++ "b" ++ ·)) (batch ++ "b") second (second + 10) (some "bob")
    (some "203.0.113.2")

def crossedBatches : List Transaction :=
  [bulkCorrelations plainEnv .empty (aliceAttack "first" 0 ++ bobAttack "first" 200),
    bulkCorrelations plainEnv .empty (bobAttack "second" 0 ++ aliceAttack "second" 200)]

def aliceKeys : List String :=
  ["credential_compromise:source_ip:11:203.0.113.1", "credential_compromise:username:5:alice"]

def bobKeys : List String :=
  ["credential_compromise:source_ip:11:203.0.113.2", "credential_compromise:username:3:bob"]

def singleBatches : List Transaction :=
  [bulkCorrelations plainEnv .empty (aliceAttack "first" 0),
    bulkCorrelations plainEnv .empty (bobAttack "second" 0),
    bulkCorrelations plainEnv .empty (aliceAttack "third" 0)]

theorem single_batches_clear :
    (∀ s, Run (Deadlock.step (lockPlans plainEnv id singleBatches)) anyStep Deadlock.initial s →
      ¬ Deadlock.Deadlocked (lockPlans plainEnv id singleBatches) s) ∧
    ∀ transaction ∈ singleBatches, batch plainEnv transaction ≠ [] := by
  have hiff := ingestion_deadlocks_iff plainEnv id singleBatches
  have hclear := (hiff.2 Function.injective_id).2 (by decide)
  exact ⟨hiff.1.2 hclear, by decide⟩

theorem crossedBatches_keys :
    lockPlans plainEnv id crossedBatches = [aliceKeys ++ bobKeys, bobKeys ++ aliceKeys] := by
  decide

theorem crossed_batches_deadlock :
    ∃ s, Run (Deadlock.step (lockPlans plainEnv id crossedBatches)) anyStep Deadlock.initial s ∧
      Deadlock.Deadlocked (lockPlans plainEnv id crossedBatches) s := by
  rw [crossedBatches_keys]
  have hany : (execAll (Deadlock.step [aliceKeys ++ bobKeys, bobKeys ++ aliceKeys])
      Deadlock.initial [.acquire 0, .acquire 0, .acquire 1, .acquire 1]).any
        (fun s => decide (Deadlock.Waits [aliceKeys ++ bobKeys, bobKeys ++ aliceKeys] s 0 1 ∧
          Deadlock.Waits [aliceKeys ++ bobKeys, bobKeys ++ aliceKeys] s 1 0)) = true := by
    decide
  obtain ⟨s, hrun, hs⟩ := run_of_execAll_any hany
  obtain ⟨hfirst, hsecond⟩ := of_decide_eq_true hs
  exact ⟨s, hrun, 0, (Relation.TransGen.single hfirst).tail hsecond⟩

end Batches

end Correlation
