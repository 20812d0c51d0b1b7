import AiSoc.Library.PeerName
import AiSoc.Response.Executor
import AiSoc.Response.Policy

namespace Response

open Permissions (Uuid)
open IpAddress PyJson

def Internal (ip : Address) : Prop :=
  (∃ net ∈ defaultProtectedNetworks, net.contains ip.entity = true) ∨ ip.entity = .v6 1 none

def userAction (actionType : ActionType) : Prop :=
  actionType = .revokeSessions ∨ actionType = .disableUser

def Denotes (py : PyText) (users : List User) (entry : String) (user : User) : Prop :=
  findUser users entry = some user ∨ findUser users (py.normalize entry) = some user

structure EntitySafe (py : PyText) (users : List User) (action : ProposedAction)
    (context : PolicyContext) : Prop where
  notInternal : ∀ ip, ipAddress (PyStr.strip action.target) = some ip → ¬ Internal ip
  address : ∀ ip, ipAddress (PyStr.strip action.target) = some ip →
    ∀ entry ∈ context.protectedEntities, ∀ ip', ipAddress (PyStr.strip entry) = some ip' →
      ip.entity ≠ ip'.entity
  user : userAction action.actionType → ∀ user, findUser users action.target = some user →
    ∀ entry ∈ context.protectedEntities, ¬ Denotes py users entry user

inductive SameAddress (target entry : String) : Prop where
  | mappedForDotted {ip : Nat} {scopeId : Option (List Char)}
      (htarget : ipAddress (PyStr.strip target) = some (.v6 (65535 * 2 ^ 32 + ip) scopeId))
      (hentry : ipAddress (PyStr.strip entry) = some (.v4 ip)) (hip : ip < 2 ^ 32)
  | dottedForMapped {ip : Nat} {scopeId : Option (List Char)}
      (htarget : ipAddress (PyStr.strip target) = some (.v4 ip)) (hip : ip < 2 ^ 32)
      (hentry : ipAddress (PyStr.strip entry) = some (.v6 (65535 * 2 ^ 32 + ip) scopeId))
  | sixteenBytes {ip : Nat} {scopeId scopeId' : Option (List Char)}
      (htarget : ipAddress (PyStr.strip target) = some (.v6 ip scopeId))
      (hentry : ipAddress (PyStr.strip entry) = some (.v6 ip scopeId'))

def getByUuid (users : List User) (text : String) : Option User :=
  (PyStr.uuid text).bind (getUser users)

inductive SameUser (users : List User) (target text : String) : Prop where
  | uuidForEmail {user : User} (htarget : getByUuid users target = some user)
      (hplain : getByUuid users text = none) (hentry : getByEmail users text = some user)
  | emailForUuid {user : User} (hplain : getByUuid users target = none)
      (htarget : getByEmail users target = some user) (hentry : getByUuid users text = some user)
  | twoUuids {userId : Uuid} (hexists : (getUser users userId).isSome)
      (htarget : PyStr.uuid target = some userId) (hentry : PyStr.uuid text = some userId)
  | loweredEmail (hplain : getByUuid users target = none)
      (hexists : (getByEmail users target).isSome) (hentry : target = text)

inductive Alias (py : PyText) (users : List User) (action : ProposedAction)
    (context : PolicyContext) : Prop where
  | mapped {ip : Nat} {scopeId : Option (List Char)} {net : Network}
      (htarget : ipAddress (PyStr.strip action.target) =
        some (.v6 (65535 * 2 ^ 32 + ip) scopeId)) (hip : ip < 2 ^ 32)
      (hnet : net ∈ defaultProtectedNetworks) (hin : net.contains (.v4 ip) = true)
  | loopback {scopeId : Option (List Char)}
      (htarget : ipAddress (PyStr.strip action.target) = some (.v6 1 scopeId))
  | address {entry : String} (hentry : entry ∈ context.protectedEntities)
      (hspelling : py.normalize action.target ≠ py.normalize entry)
      (hsame : SameAddress action.target entry)
  | user {entry text : String} (haction : userAction action.actionType)
      (hentry : entry ∈ context.protectedEntities)
      (hspelling : py.normalize action.target ≠ py.normalize entry)
      (htext : text = entry ∨ text = py.normalize entry)
      (hsame : SameUser users action.target text)

section Aliases

variable {py : PyText} {users : List User} {action : ProposedAction} {context : PolicyContext}

theorem entity_mapped {ip : Nat} {scopeId : Option (List Char)} (h : ip / 2 ^ 32 = 65535) :
    (Address.v6 ip scopeId).entity = .v4 (ip % 2 ^ 32) := by
  simp only [Address.entity, h, if_true]

theorem entity_unmapped {ip : Nat} {scopeId : Option (List Char)} (h : ip / 2 ^ 32 ≠ 65535) :
    (Address.v6 ip scopeId).entity = .v6 ip none := by
  simp only [Address.entity, h, if_false]

theorem not_contains_v6 (net : Network) (ip : Nat) (scopeId : Option (List Char)) :
    net.contains (.v6 ip scopeId) = false := rfl

theorem entity_sixteenBytes {ip : Nat} {scopeId : Option (List Char)} (h : ip < 2 ^ 32) :
    (Address.v6 (65535 * 2 ^ 32 + ip) scopeId).entity = .v4 ip := by
  rw [entity_mapped (by omega), Nat.add_comm, Nat.add_mul_mod_self_right, Nat.mod_eq_of_lt h]

theorem findUser_eq (target : String) :
    findUser users target = (getByUuid users target).or (getByEmail users target) := by
  unfold findUser getByUuid
  cases PyStr.uuid target with
  | none => rfl
  | some userId => rfl

theorem getByUuid_some {text : String} {user : User} (h : getByUuid users text = some user) :
    PyStr.uuid text = some user.id ∧ getUser users user.id = some user := by
  obtain ⟨userId, huuid, hget⟩ := Option.bind_eq_some_iff.mp h
  have hid : user.id = userId := by simpa using List.find?_some hget
  rw [hid]
  exact ⟨huuid, hget⟩

theorem getByEmail_email {text : String} {user : User} (h : getByEmail users text = some user) :
    user.email = text := by
  simpa using List.find?_some h

theorem SameAddress.entity {target entry : String} (h : SameAddress target entry) :
    ∃ ip ip', ipAddress (PyStr.strip target) = some ip ∧
      ipAddress (PyStr.strip entry) = some ip' ∧ ip.entity = ip'.entity := by
  cases h with
  | mappedForDotted htarget hentry hip => exact ⟨_, _, htarget, hentry, entity_sixteenBytes hip⟩
  | dottedForMapped htarget hip hentry =>
      exact ⟨_, _, htarget, hentry, (entity_sixteenBytes hip).symm⟩
  | sixteenBytes htarget hentry => exact ⟨_, _, htarget, hentry, rfl⟩

theorem mapped_eq {ip n : Nat} (hmapped : ip / 2 ^ 32 = 65535) (h : ip % 2 ^ 32 = n) :
    ip = 65535 * 2 ^ 32 + n ∧ n < 2 ^ 32 := by
  omega

theorem sameAddress_of_entity {target entry : String} {ip ip' : Address}
    (hspelling : py.normalize target ≠ py.normalize entry)
    (htarget : ipAddress (PyStr.strip target) = some ip)
    (hentry : ipAddress (PyStr.strip entry) = some ip') (heq : ip.entity = ip'.entity) :
    SameAddress target entry := by
  cases ip with
  | v4 m =>
      cases ip' with
      | v4 n =>
          obtain rfl : m = n := Address.v4.inj heq
          have hsame : PyStr.strip target = PyStr.strip entry :=
            (peerText_ipv4 htarget).trans (peerText_ipv4 hentry).symm
          exact absurd (congrArg py.lower hsame) hspelling
      | v6 n scopeId =>
          by_cases hmapped : n / 2 ^ 32 = 65535
          · rw [entity_mapped hmapped] at heq
            obtain ⟨rfl, hlt⟩ := mapped_eq hmapped (Address.v4.inj heq).symm
            exact .dottedForMapped htarget hlt hentry
          · rw [entity_unmapped hmapped] at heq
            cases heq
  | v6 m scopeId =>
      cases ip' with
      | v4 n =>
          by_cases hmapped : m / 2 ^ 32 = 65535
          · rw [entity_mapped hmapped] at heq
            obtain ⟨rfl, hlt⟩ := mapped_eq hmapped (Address.v4.inj heq)
            exact .mappedForDotted htarget hentry hlt
          · rw [entity_unmapped hmapped] at heq
            cases heq
      | v6 n scopeId' =>
          have hsame : m = n := by
            by_cases hmapped : m / 2 ^ 32 = 65535
            · rw [entity_mapped hmapped] at heq
              by_cases hmapped' : n / 2 ^ 32 = 65535
              · rw [entity_mapped hmapped'] at heq
                have hlow := Address.v4.inj heq
                omega
              · rw [entity_unmapped hmapped'] at heq
                cases heq
            · rw [entity_unmapped hmapped] at heq
              by_cases hmapped' : n / 2 ^ 32 = 65535
              · rw [entity_mapped hmapped'] at heq
                cases heq
              · rw [entity_unmapped hmapped'] at heq
                exact (Address.v6.inj heq).1
          subst hsame
          exact .sixteenBytes htarget hentry

theorem SameUser.found {target text : String} (h : SameUser users target text) :
    ∃ user, findUser users target = some user ∧ findUser users text = some user := by
  simp only [findUser_eq]
  cases h with
  | @uuidForEmail user htarget hplain hentry =>
      refine ⟨user, ?_, ?_⟩
      · rw [htarget]
        rfl
      · rw [hplain]
        exact hentry
  | @emailForUuid user hplain htarget hentry =>
      refine ⟨user, ?_, ?_⟩
      · rw [hplain]
        exact htarget
      · rw [hentry]
        rfl
  | twoUuids hexists htarget hentry =>
      obtain ⟨user, hget⟩ := Option.isSome_iff_exists.mp hexists
      refine ⟨user, ?_, ?_⟩
      · rw [getByUuid, htarget, Option.bind_some, hget]
        rfl
      · rw [getByUuid, hentry, Option.bind_some, hget]
        rfl
  | loweredEmail hplain hexists hentry =>
      obtain ⟨user, hget⟩ := Option.isSome_iff_exists.mp hexists
      subst hentry
      refine ⟨user, ?_, ?_⟩
      · rw [hplain]
        exact hget
      · rw [hplain]
        exact hget

theorem sameUser_of_found {target text : String} {user : User}
    (htarget : findUser users target = some user) (htext : findUser users text = some user) :
    SameUser users target text := by
  rw [findUser_eq, Option.or_eq_some_iff] at htarget htext
  rcases htarget with htarget | ⟨hplain, htarget⟩
  · rcases htext with htext | ⟨hplain', htext⟩
    · obtain ⟨huuid, hget⟩ := getByUuid_some htarget
      exact .twoUuids (Option.isSome_iff_exists.mpr ⟨user, hget⟩) huuid (getByUuid_some htext).1
    · exact .uuidForEmail htarget hplain' htext
  · rcases htext with htext | ⟨_, htext⟩
    · exact .emailForUuid hplain htarget htext
    · have hsame : target = text := (getByEmail_email htarget).symm.trans (getByEmail_email htext)
      exact .loweredEmail hplain (Option.isSome_iff_exists.mpr ⟨user, htarget⟩) hsame

theorem not_safe_of_alias (h : Alias py users action context) :
    ¬ EntitySafe py users action context := by
  intro hsafe
  cases h with
  | mapped htarget hip hnet hin =>
      refine hsafe.notInternal _ htarget (.inl ⟨_, hnet, ?_⟩)
      rw [entity_sixteenBytes hip]
      exact hin
  | loopback htarget =>
      refine hsafe.notInternal _ htarget (.inr ?_)
      exact entity_unmapped (by norm_num)
  | address hentry _ hsame =>
      obtain ⟨ip, ip', htarget, hip', heq⟩ := hsame.entity
      exact hsafe.address ip htarget _ hentry ip' hip' heq
  | user haction hentry _ htext hsame =>
      obtain ⟨user, htarget, hfound⟩ := hsame.found
      refine hsafe.user haction user htarget _ hentry ?_
      rcases htext with rfl | rfl
      · exact .inl hfound
      · exact .inr hfound

theorem alias_of_internal (hg : Grounded py action context) {ip : Address}
    (hip : ipAddress (PyStr.strip action.target) = some ip) (h : Internal ip) :
    Alias py users action context := by
  cases ip with
  | v4 n =>
      rcases h with ⟨net, hnet, hin⟩ | heq
      · have hout := hg.network _ hip net hnet
        rw [show (Address.v4 n).entity = .v4 n from rfl, hout] at hin
        cases hin
      · cases heq
  | v6 n scopeId =>
      by_cases hmapped : n / 2 ^ 32 = 65535
      · rw [Internal, entity_mapped hmapped] at h
        rcases h with ⟨net, hnet, hin⟩ | heq
        · obtain ⟨hsum, hlt⟩ := mapped_eq hmapped rfl
          rw [hsum] at hip
          exact .mapped hip hlt hnet hin
        · cases heq
      · rw [Internal, entity_unmapped hmapped] at h
        rcases h with ⟨net, _, hin⟩ | heq
        · rw [not_contains_v6] at hin
          cases hin
        · cases heq
          exact .loopback hip

theorem spelling_of_grounded (hg : Grounded py action context) {entry : String}
    (hentry : entry ∈ context.protectedEntities) :
    py.normalize action.target ≠ py.normalize entry := fun hsame =>
  hg.notProtected (hsame ▸ List.mem_map_of_mem hentry)

theorem safe_of_not_alias (hg : Grounded py action context)
    (h : ¬ Alias py users action context) : EntitySafe py users action context where
  notInternal ip hip hinternal := h (alias_of_internal hg hip hinternal)
  address ip hip entry hentry ip' hip' heq := by
    have hspelling := spelling_of_grounded hg hentry
    exact h (.address hentry hspelling (sameAddress_of_entity hspelling hip hip' heq))
  user haction user hfound entry hentry hdenotes := by
    have hspelling := spelling_of_grounded hg hentry
    rcases hdenotes with hentered | hentered
    · exact h (.user haction hentry hspelling (.inl rfl) (sameUser_of_found hfound hentered))
    · exact h (.user haction hentry hspelling (.inr rfl) (sameUser_of_found hfound hentered))

end Aliases

theorem evaluate_ok {py : PyText} {engine : PolicyEngine} {redis : Redis} {now now' : Seconds}
    {action : ProposedAction} {context : PolicyContext} {decision : PolicyDecision} :
    (engine.evaluate py redis now now' action context).1 = .ok decision ↔
      ∃ tripped, (engine.circuitBreaker.isTripped redis now now').1 = .ok tripped ∧
        evaluateChecks py tripped action context = decision := by
  simp only [PolicyEngine.evaluate]
  rcases engine.circuitBreaker.isTripped redis now now' with ⟨tripped | tripped, cb, redis'⟩
  · simp
  · simp

theorem protection_iff_no_alias (py : PyText) (engine : PolicyEngine) (redis : Redis)
    (now now' : Seconds) (users : List User) (action : ProposedAction) (context : PolicyContext) :
    (∀ decision, (engine.evaluate py redis now now' action context).1 = .ok decision →
        decision.allowed = true → EntitySafe py users action context) ↔
      (∀ reason, (engine.circuitBreaker.isTripped redis now now').1 ≠ .ok (false, reason)) ∨
        ¬ Grounded py action context ∨ ¬ Alias py users action context := by
  constructor
  · intro h
    by_contra hnot
    push Not at hnot
    obtain ⟨⟨reason, htripped⟩, hg, halias⟩ := hnot
    have hallowed := (evaluateChecks_allowed_iff (false, reason)).mpr ⟨rfl, hg⟩
    exact not_safe_of_alias halias (h _ (evaluate_ok.mpr ⟨_, htripped, rfl⟩) hallowed)
  · intro h decision hdecision hallowed
    obtain ⟨⟨flag, reason⟩, htripped, rfl⟩ := evaluate_ok.mp hdecision
    obtain ⟨hflag, hg⟩ := (evaluateChecks_allowed_iff (flag, reason)).mp hallowed
    obtain rfl : flag = false := hflag
    rcases h with hbreaker | hground | halias
    · exact absurd htripped (hbreaker reason)
    · exact absurd hg hground
    · exact safe_of_not_alias hg halias

theorem one_ref : 1 ≤ ["event:e1"].length ∧ ["event:e1"].length ≤ 20 := by decide

theorem point_nine_range :
    0 ≤ (⟨false, 9, -1, PyFloat.normal_point_nine⟩ : PyFloat).toRat ∧
      (⟨false, 9, -1, PyFloat.normal_point_nine⟩ : PyFloat).toRat ≤ 1 := by
  decide

theorem no_ttl : ∀ ttl ∈ (none : Option Int), 60 ≤ ttl ∧ ttl ≤ 2592000 := by simp

def mappedLoopback : ProposedAction where
  actionType := .blockIp
  target := "::ffff:127.0.0.1"
  reason := "port scan"
  evidenceRefs := ["event:e1"]
  confidence := ⟨false, 9, -1, PyFloat.normal_point_nine⟩
  ttlSeconds := none
  parameters := []
  targetLength := by decide
  reasonLength := by decide
  evidenceRefsLength := one_ref
  confidenceRange := point_nine_range
  ttlRange := no_ttl

def disableByUuid : ProposedAction :=
  { mappedLoopback with
    actionType := .disableUser
    target := "00000000-0000-0000-0000-00000000002a"
    targetLength := by decide }

def breakGlass : User :=
  ⟨42, "break.glass@example.com", true, 0⟩

def aliasContext : PolicyContext where
  incidentId := "7"
  incidentEntities := ["::ffff:127.0.0.1", "00000000-0000-0000-0000-00000000002a"]
  validEvidenceRefs := ["event:e1"]
  protectedEntities := "break.glass@example.com" :: defaultProtectedEntities

theorem mappedLoopback_alias : Alias asciiText [breakGlass] mappedLoopback aliasContext := by
  have htarget : ipAddress (PyStr.strip mappedLoopback.target) =
      some (.v6 281472812449793 none) := by
    decide
  exact @Alias.mapped _ _ _ _ 2130706433 _ _ htarget (by norm_num) List.mem_cons_self (by decide)

theorem disableByUuid_alias : Alias asciiText [breakGlass] disableByUuid aliasContext := by
  have htarget : getByUuid [breakGlass] disableByUuid.target = some breakGlass := by
    decide
  have hentry : getByEmail [breakGlass] "break.glass@example.com" = some breakGlass := by
    decide
  have hspelling : asciiText.normalize disableByUuid.target ≠
      asciiText.normalize "break.glass@example.com" := by
    decide
  exact .user (.inr rfl) List.mem_cons_self hspelling (.inl rfl)
    (.uuidForEmail htarget (by decide) hentry)

theorem protection_misses_aliases :
    (evaluateChecks asciiText (false, "ok") mappedLoopback aliasContext).allowed = true ∧
      (evaluateChecks asciiText (false, "ok") disableByUuid aliasContext).allowed = true ∧
      ¬ EntitySafe asciiText [breakGlass] disableByUuid aliasContext ∧
      ¬ ∀ (py : PyText) (users : List User) (action : ProposedAction) (context : PolicyContext)
        (decision : PolicyDecision),
        (PolicyEngine.evaluate py {} ⟨true, none, {}, {}⟩ 0 0 action context).1 = .ok decision →
          decision.allowed = true → EntitySafe py users action context := by
  have hmapped : (evaluateChecks asciiText (false, "ok") mappedLoopback aliasContext).allowed =
      true := by
    decide
  have huuid : (evaluateChecks asciiText (false, "ok") disableByUuid aliasContext).allowed =
      true := by
    decide
  refine ⟨hmapped, huuid, not_safe_of_alias disableByUuid_alias, fun h => ?_⟩
  have hok : (PolicyEngine.evaluate asciiText {} ⟨true, none, {}, {}⟩ 0 0 mappedLoopback
      aliasContext).1 = .ok (evaluateChecks asciiText (false, "ok") mappedLoopback aliasContext) :=
    evaluate_ok.mpr ⟨(false, "ok"), rfl, rfl⟩
  exact not_safe_of_alias mappedLoopback_alias (h _ _ _ _ _ hok hmapped)

end Response
