import AiSoc.Response.AuditChain

namespace Response

open PyJson

section Link

def link (sha256 : Sha256) (prevHash : String) (body : Obj) : String :=
  sha256.hexdigest (prevHash.toByteArray ++ (dumps (.obj body)).toByteArray)

def bodyOf (record : Obj) : Obj :=
  sortedFields (payloadOf record)

theorem computeEntryHash_eq_link (sha256 : Sha256) (prevHash : String) (payload : Obj) :
    computeEntryHash sha256 prevHash payload = link sha256 prevHash (sortedFields payload) := by
  simp only [computeEntryHash, hashInput, canonicalJson, sortKeys_obj, link]

theorem computeEntryHash_ne_empty (sha256 : Sha256) (prevHash : String) (payload : Obj) :
    computeEntryHash sha256 prevHash payload ≠ "" := by
  intro h
  have hlength := sha256.length (hashInput prevHash payload)
  rw [computeEntryHash] at h
  rw [h] at hlength
  exact absurd hlength (by decide)

def hashedInputs (sha256 : Sha256) : String → List Obj → List ByteArray
  | _, [] => []
  | current, record :: records =>
      hashInput current (payloadOf record) ::
        hashedInputs sha256 (computeEntryHash sha256 current (payloadOf record)) records

def inputOf (s : String × Obj) : ByteArray :=
  s.1.toByteArray ++ (dumps (.obj s.2)).toByteArray

theorem hashedInputs_eq (sha256 : Sha256) (current : String) (records : List Obj) :
    hashedInputs sha256 current records =
      (HashChain.steps (link sha256) current (records.map bodyOf)).map inputOf := by
  induction records generalizing current with
  | nil => rfl
  | cons record records ih =>
      have hinput : hashInput current (payloadOf record) = inputOf (current, bodyOf record) := by
        simp only [hashInput, canonicalJson, sortKeys_obj, inputOf, bodyOf]
      simp only [hashedInputs, List.map_cons, HashChain.steps, ih, hinput, bodyOf,
        computeEntryHash_eq_link]

theorem inputOf_injective : Function.Injective inputOf := by
  intro s t h
  simp only [inputOf, ← String.toByteArray_append, String.toByteArray_inj] at h
  have hlist := congrArg String.toList h
  simp only [dumps, String.toList_append, String.toList_ofList] at hlist
  obtain ⟨hprev, hbody⟩ := append_text_obj_inj hlist
  exact Prod.ext (String.toList_inj.mp hprev) hbody

structure CollisionFree (sha256 : Sha256) (genesis : String) (inputs : List ByteArray) : Prop where
  injective : Set.InjOn sha256.hexdigest {input | input ∈ inputs}
  fresh : ∀ input ∈ inputs, sha256.hexdigest input ≠ genesis

end Link

section Verify

def Linked (sha256 : Sha256) : String → List Obj → Prop
  | _, [] => True
  | current, record :: records =>
      record.get "prev_hash" = some (.str current) ∧ current ≠ "" ∧
        record.get "record_hash" =
          some (.str (computeEntryHash sha256 current (payloadOf record))) ∧
        Linked sha256 (computeEntryHash sha256 current (payloadOf record)) records

theorem isText_iff {value : Json} {s : String} : isText value s = true ↔ value = .str s := by
  cases value <;> simp [isText]

theorem getD_null_eq_str {value : Option Json} {s : String} :
    value.getD .null = .str s ↔ value = some (.str s) := by
  cases value <;> simp

theorem verifyRecord_ok_iff {py : PyText} {sha256 : Sha256} {current : String} {index : Nat}
    {record : Obj} {next : String} :
    verifyRecord py sha256 current index record = .ok next ↔
      record.get "prev_hash" = some (.str current) ∧ current ≠ "" ∧
        record.get "record_hash" =
          some (.str (computeEntryHash sha256 current (payloadOf record))) ∧
        next = computeEntryHash sha256 current (payloadOf record) := by
  have hne := computeEntryHash_ne_empty sha256 current (payloadOf record)
  constructor
  · intro h
    simp only [verifyRecord] at h
    split at h
    · cases h
    · rename_i htruthy
      split at h
      · cases h
      · rename_i hprev
        split at h
        · cases h
        · rename_i hhash
          cases h
          have hprev' := isText_iff.mp (by simpa using hprev)
          have hhash' := isText_iff.mp (by simpa using hhash)
          have hcurrent : current ≠ "" := by
            rintro rfl
            simp [hprev', truthy] at htruthy
          exact ⟨getD_null_eq_str.mp hprev', hcurrent, getD_null_eq_str.mp hhash', rfl⟩
  · rintro ⟨hprev, hcurrent, hhash, rfl⟩
    simp [verifyRecord, hprev, hhash, isText, truthy, hcurrent, hne]

theorem verifyFrom_ok_iff {py : PyText} {sha256 : Sha256} {current : String} {index : Nat}
    {records : List Obj} :
    verifyFrom py sha256 current index records = .ok () ↔ Linked sha256 current records := by
  induction records generalizing current index with
  | nil => simp [verifyFrom, Linked]
  | cons record records ih =>
      simp only [verifyFrom, Linked]
      cases hrecord : verifyRecord py sha256 current index record with
      | error reason =>
          constructor
          · intro h
            cases h
          · rintro ⟨hprev, hcurrent, hhash, _⟩
            have hok : verifyRecord py sha256 current index record = .ok _ :=
              verifyRecord_ok_iff.mpr ⟨hprev, hcurrent, hhash, rfl⟩
            rw [hrecord] at hok
            cases hok
      | ok next =>
          obtain ⟨hprev, hcurrent, hhash, rfl⟩ := verifyRecord_ok_iff.mp hrecord
          constructor
          · intro h
            exact ⟨hprev, hcurrent, hhash, ih.mp h⟩
          · intro h
            exact ih.mpr h.2.2.2

theorem verifyChain_accepts_iff {py : PyText} {sha256 : Sha256} {genesis : String}
    {records : List Obj} :
    verifyChain py sha256 records genesis = (true, none) ↔ Linked sha256 genesis records := by
  rw [← verifyFrom_ok_iff, verifyChain]
  cases verifyFrom py sha256 genesis 0 records with
  | error reason => simp
  | ok _ => simp

end Verify

section Complete

def Bare (payload : Obj) : Prop :=
  payload.get "id" = none ∧ payload.get "record_hash" = none

theorem payloadOf_recordOf {payload : Obj} (h : Bare payload) (sha256 : Sha256)
    (prevHash : String) : payloadOf (recordOf sha256 prevHash payload) = entryOf prevHash payload := by
  have hid : (entryOf prevHash payload).get "id" = none := by
    rw [entryOf, Obj.get_set_of_ne _ _ (by decide)]
    exact h.1
  have hhash : (entryOf prevHash payload).get "record_hash" = none := by
    rw [entryOf, Obj.get_set_of_ne _ _ (by decide)]
    exact h.2
  have hkept : Obj.remove ["record_hash", "id"] (entryOf prevHash payload) =
      entryOf prevHash payload := by
    apply Obj.remove_of_get_eq_none
    simp [hid, hhash]
  rw [recordOf, Obj.set_of_get_eq_none _ hhash, payloadOf, Obj.remove, List.filter_append]
  rw [Obj.remove] at hkept
  rw [hkept]
  simp

theorem linked_chain {sha256 : Sha256} {genesis : String} (hgenesis : genesis ≠ "")
    {payloads : List Obj} (h : ∀ payload ∈ payloads, Bare payload) :
    Linked sha256 genesis (chain sha256 genesis payloads) := by
  induction payloads generalizing genesis with
  | nil => trivial
  | cons payload payloads ih =>
      have hpayload := payloadOf_recordOf (h payload List.mem_cons_self) sha256 genesis
      simp only [chain, Linked, hpayload]
      refine ⟨?_, hgenesis, ?_, ?_⟩
      · rw [recordOf, Obj.get_set_of_ne _ _ (by decide), entryOf, Obj.get_set_self]
      · rw [recordOf, Obj.get_set_self]
      · exact ih (computeEntryHash_ne_empty _ _ _) fun p hp => h p (List.mem_cons_of_mem _ hp)

end Complete

section TamperEvident

def lastHash (records : List Obj) : Option Json :=
  records.getLast?.bind (·.get "record_hash")

def Agree (record record' : Obj) : Prop :=
  ∀ key, key ≠ "id" → (record.get key).map sortKeys = (record'.get key).map sortKeys

theorem lastHash_linked {sha256 : Sha256} {current : String} {records : List Obj}
    (h : Linked sha256 current records) (hne : records ≠ []) :
    lastHash records =
      some (.str (HashChain.head (link sha256) current (records.map bodyOf))) := by
  induction records generalizing current with
  | nil => exact absurd rfl hne
  | cons record records ih =>
      obtain ⟨_, _, hhash, hrest⟩ := h
      cases records with
      | nil =>
          simp only [lastHash, List.getLast?_singleton, Option.bind_some, hhash,
            computeEntryHash_eq_link]
          rfl
      | cons next records =>
          have htail := ih hrest (by simp)
          simp only [lastHash, List.getLast?_cons_cons] at htail ⊢
          rw [htail, computeEntryHash_eq_link]
          rfl

theorem agree_of_linked {sha256 : Sha256} {current : String} {records records' : List Obj}
    (h : Linked sha256 current records) (h' : Linked sha256 current records')
    (hbodies : records.map bodyOf = records'.map bodyOf) :
    List.Forall₂ Agree records records' := by
  induction records generalizing current records' with
  | nil =>
      obtain rfl : records' = [] := by simpa using hbodies.symm
      exact .nil
  | cons record records ih =>
      cases records' with
      | nil => simp at hbodies
      | cons record' records' =>
          obtain ⟨hbody, htail⟩ := List.cons.inj hbodies
          obtain ⟨_, _, hhash, hrest⟩ := h
          obtain ⟨_, _, hhash', hrest'⟩ := h'
          have hsame : computeEntryHash sha256 current (payloadOf record) =
              computeEntryHash sha256 current (payloadOf record') := by
            rw [computeEntryHash_eq_link, computeEntryHash_eq_link]
            exact congrArg _ hbody
          refine .cons ?_ (ih hrest (hsame ▸ hrest') htail)
          intro key hid
          by_cases hkey : key = "record_hash"
          · rw [hkey, hhash, hhash', hsame]
          · have hkept : key ∉ ["record_hash", "id"] := by
              simp [hkey, hid]
            have hget := congrArg (fun body : Obj => body.get key) hbody
            simpa only [bodyOf, Obj.get_sortedFields, payloadOf, Obj.get_remove hkept] using hget

theorem bodies_eq_of_lastHash {sha256 : Sha256} {genesis : String} {records records' : List Obj}
    (hfree : CollisionFree sha256 genesis
      (hashedInputs sha256 genesis records ++ hashedInputs sha256 genesis records'))
    (h : Linked sha256 genesis records) (h' : Linked sha256 genesis records')
    (hne : records ≠ []) (hne' : records' ≠ []) (hlast : lastHash records = lastHash records') :
    records.map bodyOf = records'.map bodyOf := by
  rw [lastHash_linked h hne, lastHash_linked h' hne'] at hlast
  have hinput : ∀ s, s ∈ HashChain.steps (link sha256) genesis (records.map bodyOf) ∨
      s ∈ HashChain.steps (link sha256) genesis (records'.map bodyOf) →
        inputOf s ∈ hashedInputs sha256 genesis records ++ hashedInputs sha256 genesis records' := by
    intro s hs
    rw [hashedInputs_eq, hashedInputs_eq, List.mem_append]
    rcases hs with hs | hs
    · exact .inl (List.mem_map_of_mem hs)
    · exact .inr (List.mem_map_of_mem hs)
  refine HashChain.head_injective ?_ ?_ (Json.str.inj (Option.some.inj hlast))
  · intro s hs t ht heq
    exact inputOf_injective (hfree.injective (hinput s hs) (hinput t ht) heq)
  · intro s hs
    exact hfree.fresh _ (hinput s hs)

theorem chain_complete_and_tamper_evident (py : PyText) (sha256 : Sha256) (genesis : String) :
    (∀ payloads : List Obj, genesis ≠ "" → (∀ payload ∈ payloads, Bare payload) →
      verifyChain py sha256 (chain sha256 genesis payloads) genesis = (true, none)) ∧
    ∀ records records' : List Obj, records ≠ [] → records' ≠ [] →
      CollisionFree sha256 genesis
        (hashedInputs sha256 genesis records ++ hashedInputs sha256 genesis records') →
      verifyChain py sha256 records genesis = (true, none) →
      verifyChain py sha256 records' genesis = (true, none) →
      lastHash records = lastHash records' → List.Forall₂ Agree records records' := by
  constructor
  · intro payloads hgenesis hbare
    exact verifyChain_accepts_iff.mpr (linked_chain hgenesis hbare)
  · intro records records' hne hne' hfree haccept haccept' hlast
    have h := verifyChain_accepts_iff.mp haccept
    have h' := verifyChain_accepts_iff.mp haccept'
    exact agree_of_linked h h' (bodies_eq_of_lastHash hfree h h' hne hne' hlast)

-- 64 digits of a polynomial in the bytes
def polynomialSha : Sha256 where
  hexdigest input :=
    let digest := input.data.toList.foldl (fun n byte => n * 257 + byte.toNat + 1) 0
    String.ofList ((List.range 64).map fun i => PyStr.hexDigit (digest / 16 ^ i % 16))
  length input := by
    rw [String.length_ofList, List.length_map, List.length_range]

theorem collisionFree_pair {sha256 : Sha256} {genesis : String} {x y : ByteArray}
    {inputs : List ByteArray} (hinputs : ∀ input ∈ inputs, input = x ∨ input = y)
    (hne : sha256.hexdigest x ≠ sha256.hexdigest y) (hx : sha256.hexdigest x ≠ genesis)
    (hy : sha256.hexdigest y ≠ genesis) : CollisionFree sha256 genesis inputs where
  injective := by
    intro a ha b hb heq
    rcases hinputs a ha with rfl | rfl
    · rcases hinputs b hb with rfl | rfl
      · rfl
      · exact absurd heq hne
    · rcases hinputs b hb with rfl | rfl
      · exact absurd heq.symm hne
      · rfl
  fresh := by
    intro input hinput
    rcases hinputs input hinput with rfl | rfl
    · exact hx
    · exact hy

def blockIp : Obj :=
  [("action", .str "block_ip"), ("target", .str "1.2.3.4")]

def disableUser : Obj :=
  [("action", .str "disable_user"), ("target", .str "alice")]

def responseRecords : List Obj :=
  chain polynomialSha "0" [blockIp, disableUser]

def blockHash : String :=
  computeEntryHash polynomialSha "0" (entryOf "0" blockIp)

def relabelled (records : List Obj) : List Obj :=
  records.map (("id", .str "1") :: ·)

theorem hashedInputs_relabelled (sha256 : Sha256) (current : String) (records : List Obj) :
    hashedInputs sha256 current (relabelled records) = hashedInputs sha256 current records := by
  induction records generalizing current with
  | nil => rfl
  | cons record records ih =>
      exact congrArg (hashInput current (payloadOf record) :: ·) (ih _)

theorem responseRecords_agree :
    verifyChain asciiText polynomialSha responseRecords "0" = (true, none) ∧
      List.Forall₂ Agree responseRecords (relabelled responseRecords) := by
  obtain ⟨hcomplete, hevident⟩ := chain_complete_and_tamper_evident asciiText polynomialSha "0"
  have hblock : Bare blockIp := ⟨rfl, rfl⟩
  have hdisable : Bare disableUser := ⟨rfl, rfl⟩
  have haccept : verifyChain asciiText polynomialSha responseRecords "0" = (true, none) :=
    hcomplete _ (by decide) (by simp [hblock, hdisable])
  have haccept' : verifyChain asciiText polynomialSha (relabelled responseRecords) "0" =
      (true, none) := by
    decide +kernel
  have hinputs : hashedInputs polynomialSha "0" responseRecords =
      [hashInput "0" (entryOf "0" blockIp),
        hashInput blockHash (entryOf blockHash disableUser)] := by
    simp only [responseRecords, chain, hashedInputs, payloadOf_recordOf hblock,
      payloadOf_recordOf hdisable, blockHash]
  have hfree : CollisionFree polynomialSha "0" (hashedInputs polynomialSha "0" responseRecords ++
      hashedInputs polynomialSha "0" (relabelled responseRecords)) := by
    rw [hashedInputs_relabelled, hinputs]
    refine collisionFree_pair (x := hashInput "0" (entryOf "0" blockIp))
      (y := hashInput blockHash (entryOf blockHash disableUser)) (by simp) ?_ ?_ ?_
    · decide +kernel
    · decide +kernel
    · decide +kernel
  refine ⟨haccept, hevident _ _ (List.cons_ne_nil _ _) (List.cons_ne_nil _ _) hfree haccept
    haccept' ?_⟩
  exact Option.map_injective text_injective (by decide +kernel)

def labelledIp : Obj :=
  ("id", .str "1") :: blockIp

theorem labelledPayload_rejected :
    CollisionFree polynomialSha "0"
        (hashInput "0" (entryOf "0" labelledIp) ::
          hashedInputs polynomialSha "0" (chain polynomialSha "0" [labelledIp])) ∧
      verifyChain asciiText polynomialSha (chain polynomialSha "0" [labelledIp]) "0" =
        (false, some ("Hash mismatch at record 1" ++
          ": record payload was tampered with or recalculated incorrectly")) := by
  constructor
  · refine collisionFree_pair (x := hashInput "0" (entryOf "0" labelledIp))
      (y := hashInput "0" (payloadOf (recordOf polynomialSha "0" labelledIp)))
      (by simp [chain, hashedInputs]) ?_ ?_ ?_
    · decide +kernel
    · decide +kernel
    · decide +kernel
  · decide +kernel

end TamperEvident

end Response
