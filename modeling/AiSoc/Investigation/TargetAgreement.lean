import AiSoc.Investigation.Containment
import AiSoc.Investigation.Workflow
import AiSoc.Library.PeerName
import AiSoc.Security.Middleware

namespace Investigation

open IpAddress Middleware PyJson Response

section Agreement

def countedExecutor (env : Nat → ExecutionEnv) : Executor (World × Nat) :=
  fun actorLabel world action =>
    let executed := execute (env world.2) actorLabel world.1 action
    (executed.1, executed.2, world.2 + 1)

def Environment.readingWorld (env : Environment (World × Nat)) : Environment (World × Nat) :=
  { env with
    blocked := fun world key => world.1.denylist.any fun entry => entry.1 = key
    activeByEmail := fun world email => (getByEmail world.1.users email).map (·.isActive) }

structure NodeRun where
  modelValidate : ModelValidate
  env : Nat → ExecutionEnv
  environment : Environment (World × Nat)
  state : InvestigationState
  earlier : List DecisionRecord
  reason : String
  later : List DecisionRecord
  start : World × Nat

namespace NodeRun

variable (run : NodeRun) (action : ProposedAction)

def actorLabel : String :=
  "investigation:" ++ run.state.investigationId

def decision : DecisionRecord :=
  ⟨action.modelDump, true, false, run.reason⟩

def executions (decisions : List DecisionRecord) (world : World × Nat) : Execution (World × Nat) :=
  executeDecisions run.modelValidate (countedExecutor run.env) run.actorLabel decisions world

def reached : World × Nat :=
  (run.executions run.earlier run.start).world

def executed : Except String ExecutionResult × World :=
  execute (run.env run.reached.2) run.actorLabel run.reached.1 action

def executedActions : Execution (World × Nat) :=
  executeActionsNode run.modelValidate (countedExecutor run.env)
    { run.state with policyDecisions := run.earlier ++ run.decision action :: run.later } run.start

def verifiedActions : List ExecutedAction :=
  (run.executedActions action).executed.map
    (verifyAction run.environment.readingWorld (run.executedActions action).world)

def item : Option ExecutedAction :=
  (run.verifiedActions action)[(run.executions run.earlier run.start).executed.length]?

end NodeRun

def GroundedAddress (py : PyText) (context : PolicyContext) (target entity : String)
    (ip : Address) : Prop :=
  entity ∈ context.incidentEntities ∧ py.normalize entity = py.normalize target ∧
    ipAddress (PyStr.strip entity) = some ip

structure TargetAgreed (py : PyText) (context : PolicyContext) (run : NodeRun)
    (action : ProposedAction) : Prop where
  user : action.actionType = .revokeSessions → ∀ user ∈ run.reached.1.users,
    user.email = py.normalize action.target →
      (run.executed action).1.toOption.isSome ∧
        (run.executed action).2.revokedUsers = user.id :: run.reached.1.revokedUsers
  verified : ∀ item, run.item action = some item → item.status = "executed" →
    item.details.get "verified" = some (.bool true)
  enforced : action.actionType = .blockIp → ∀ entity ip,
    GroundedAddress py context action.target entity ip → ∃ key ttl,
      (run.executed action).2.denylist = (run.reached.1.setDenylist key ttl).denylist ∧
        dispatchKey (some ip.peerText) = some key

def Spelling (target entity : String) : Address → Prop
  | .v4 _ => PyStr.strip target = PyStr.strip entity
  | .v6 ip scopeId => PyStr.strip target = (Address.v6 ip scopeId).peerText

structure TargetSpelled (py : PyText) (context : PolicyContext) (world : World)
    (action : ProposedAction) : Prop where
  user : action.actionType = .revokeSessions → ∀ user ∈ world.users,
    user.email = py.normalize action.target → PyStr.uuid action.target = some user.id ∨
      action.target = user.email ∧ ∀ other ∈ world.users, PyStr.uuid action.target ≠ some other.id
  stripped : action.actionType = .blockIp →
    PyStr.strip action.target = action.target ∨ world.Present (denylistKey action.target)
  canonical : action.actionType = .blockIp → ∀ entity ip,
    GroundedAddress py context action.target entity ip → Spelling action.target entity ip

structure UniqueUsers (world : World) : Prop where
  id : world.Keyed
  email : (world.users.map (·.email)).Nodup

end Agreement

section Users

variable {users : List User} {user : User} {target : String}

theorem getUser_some (hid : (users.map (·.id)).Nodup) {userId : Permissions.Uuid} :
    getUser users userId = some user ↔ user ∈ users ∧ user.id = userId := by
  constructor
  · intro h
    exact ⟨List.mem_of_find?_eq_some h, by simpa using List.find?_some h⟩
  · rintro ⟨hmem, rfl⟩
    cases hfound : getUser users user.id with
    | none =>
        have hnone := List.find?_eq_none.mp hfound user hmem
        simp at hnone
    | some found =>
        have hsame : found.id = user.id := by simpa using List.find?_some hfound
        rw [List.inj_on_of_nodup_map hid (List.mem_of_find?_eq_some hfound) hmem hsame]

theorem getByEmail_some (hemail : (users.map (·.email)).Nodup) {email : String} :
    getByEmail users email = some user ↔ user ∈ users ∧ user.email = email := by
  constructor
  · intro h
    exact ⟨List.mem_of_find?_eq_some h, by simpa using List.find?_some h⟩
  · rintro ⟨hmem, rfl⟩
    cases hfound : getByEmail users user.email with
    | none =>
        have hnone := List.find?_eq_none.mp hfound user hmem
        simp at hnone
    | some found =>
        have hsame : found.email = user.email := by simpa using List.find?_some hfound
        rw [List.inj_on_of_nodup_map hemail (List.mem_of_find?_eq_some hfound) hmem hsame]

theorem findUser_some (hid : (users.map (·.id)).Nodup) (hemail : (users.map (·.email)).Nodup) :
    findUser users target = some user ↔ user ∈ users ∧ (PyStr.uuid target = some user.id ∨
      target = user.email ∧ ∀ other ∈ users, PyStr.uuid target ≠ some other.id) := by
  unfold findUser
  cases huuid : PyStr.uuid target with
  | none =>
      simp only [getByEmail_some hemail]
      simp [eq_comm]
  | some userId =>
      simp only [Option.or_eq_some_iff, getUser_some hid, getByEmail_some hemail]
      constructor
      · rintro (⟨hmem, rfl⟩ | ⟨hnone, hmem, rfl⟩)
        · exact ⟨hmem, .inl rfl⟩
        · refine ⟨hmem, .inr ⟨rfl, fun other hother hsame => ?_⟩⟩
          have hfound := List.find?_eq_none.mp hnone other hother
          simp [Option.some.inj hsame] at hfound
      · rintro ⟨hmem, hsame | ⟨rfl, hother⟩⟩
        · exact .inl ⟨hmem, (Option.some.inj hsame).symm⟩
        · refine .inr ⟨List.find?_eq_none.mpr fun other hmem' => ?_, hmem, rfl⟩
          have hne := hother other hmem'
          simp only [decide_eq_true_eq]
          exact fun hsame => hne (congrArg some hsame.symm)

end Users

section Executions

variable {env : ExecutionEnv} {actorLabel key : String} {world world' : World}
  {action : ProposedAction}

theorem execute_present {outcome : Except String ExecutionResult}
    (h : execute env actorLabel world action = (outcome, world')) :
    world'.Present key ↔ world.Present key ∨ Blocks action ∧ key = blockKey action := by
  by_cases hblocks : Blocks action
  · obtain ⟨result, details, hexecute⟩ := @execute_blocks actorLabel action env world hblocks
    obtain ⟨_, rfl⟩ := Prod.mk.inj (h.symm.trans hexecute)
    change (world.setDenylist (blockKey action) (action.ttlSeconds.getD 86400)).Present key ↔ _
    rw [present_setDenylist, or_comm]
    simp [hblocks]
  · have hdenylist : world'.denylist = world.denylist := by
      cases outcome with
      | ok result => exact (execute_frame hblocks h).1
      | error e => exact (execute_error h).2
    unfold World.Present
    rw [hdenylist]
    simp [hblocks]

theorem executeDecisions_append {σ : Type} {modelValidate : ModelValidate} {executor : Executor σ}
    (earlier later : List DecisionRecord) (start : σ) :
    executeDecisions modelValidate executor actorLabel (earlier ++ later) start =
      let first := executeDecisions modelValidate executor actorLabel earlier start
      let rest := executeDecisions modelValidate executor actorLabel later first.world
      ⟨first.executed ++ rest.executed, first.calls ++ rest.calls, first.results ++ rest.results,
        rest.world⟩ := by
  induction earlier generalizing start with
  | nil => rfl
  | cons decision earlier ih =>
      simp only [List.cons_append, executeDecisions, ih, List.append_assoc]

theorem executeDecision_world {σ : Type} {modelValidate : ModelValidate} {executor : Executor σ}
    (decision : DecisionRecord) (start : σ) :
    (executeDecision modelValidate executor actorLabel decision start).world = start ∨
      ∃ action, (executeDecision modelValidate executor actorLabel decision start).world =
        (executor actorLabel start action).2 := by
  unfold executeDecision
  split
  · split
    · exact .inl rfl
    · rename_i action hvalid
      refine .inr ⟨action, ?_⟩
      split
      · rename_i hcall
        rw [hcall]
      · rename_i hcall
        rw [hcall]
  · split
    · exact .inl rfl
    · exact .inl rfl

theorem executeDecisions_present {modelValidate : ModelValidate} {env : Nat → ExecutionEnv}
    {decisions : List DecisionRecord} {start : World × Nat}
    (h : (executeDecisions modelValidate (countedExecutor env) actorLabel decisions
      start).world.1.Present key) :
    start.1.Present key ∨ ∃ target, key = denylistKey (PyStr.strip target) := by
  induction decisions generalizing start with
  | nil => exact .inl h
  | cons decision decisions ih =>
      rcases ih h with hfirst | hstripped
      · rcases @executeDecision_world actorLabel _ modelValidate (countedExecutor env) decision
          start with hsame | ⟨action, haction⟩
        · rw [hsame] at hfirst
          exact .inl hfirst
        · rw [haction] at hfirst
          rcases (execute_present rfl).mp hfirst with hbefore | ⟨_, hkey⟩
          · exact .inl hbefore
          · exact .inr ⟨_, hkey⟩
      · exact .inr hstripped

theorem executeDecisions_keeps {modelValidate : ModelValidate} {env : Nat → ExecutionEnv}
    {decisions : List DecisionRecord} {start : World × Nat} (h : start.1.Present key) :
    (executeDecisions modelValidate (countedExecutor env) actorLabel decisions
      start).world.1.Present key := by
  induction decisions generalizing start with
  | nil => exact h
  | cons decision decisions ih =>
      refine ih ?_
      rcases @executeDecision_world actorLabel _ modelValidate (countedExecutor env) decision
        start with hsame | ⟨action, haction⟩
      · rw [hsame]
        exact h
      · rw [haction]
        exact (execute_present rfl).mpr (.inl h)

end Executions

section Iff

variable {py : PyText} {context : PolicyContext} {run : NodeRun} {action : ProposedAction}

namespace NodeRun

def report (run : NodeRun) (action : ProposedAction) : ExecutedAction :=
  match (run.executed action).1 with
  | .ok result => executedEntry action result
  | .error e => reportedEntry (run.decision action) "failed" [("error", .str e)]

theorem executeDecision_report (hvalid : run.modelValidate action.modelDump = .ok action) :
    (executeDecision run.modelValidate (countedExecutor run.env) run.actorLabel
        (run.decision action) run.reached).executed = [run.report action] ∧
      (executeDecision run.modelValidate (countedExecutor run.env) run.actorLabel
        (run.decision action) run.reached).world =
          ((run.executed action).2, run.reached.2 + 1) := by
  have hauto : (run.decision action).allowed = true ∧
      (!(run.decision action).requiresHumanApproval) = true := ⟨rfl, rfl⟩
  have hparsed : run.modelValidate (run.decision action).action = .ok action := hvalid
  have hcall : countedExecutor run.env run.actorLabel run.reached action =
      ((run.executed action).1, (run.executed action).2, run.reached.2 + 1) := rfl
  unfold executeDecision report
  rw [if_pos hauto, hparsed]
  simp only [hcall]
  cases (run.executed action).1 with
  | ok result => exact ⟨rfl, rfl⟩
  | error e => exact ⟨rfl, rfl⟩

theorem executedActions_eq (hvalid : run.modelValidate action.modelDump = .ok action) :
    (run.executedActions action).executed =
        (run.executions run.earlier run.start).executed ++ run.report action ::
          (run.executions run.later ((run.executed action).2, run.reached.2 + 1)).executed ∧
      (run.executedActions action).world =
        (run.executions run.later ((run.executed action).2, run.reached.2 + 1)).world := by
  obtain ⟨hreport, hworld⟩ := executeDecision_report hvalid
  unfold executedActions executeActionsNode
  simp only
  rw [executeDecisions_append]
  simp only [executeDecisions]
  change _ ++ ((executeDecision run.modelValidate (countedExecutor run.env) run.actorLabel
    (run.decision action) run.reached).executed ++ (run.executions run.later
      (executeDecision run.modelValidate (countedExecutor run.env) run.actorLabel
        (run.decision action) run.reached).world).executed) = _ ∧
    (run.executions run.later (executeDecision run.modelValidate (countedExecutor run.env)
      run.actorLabel (run.decision action) run.reached).world).world = _
  rw [hreport, hworld]
  exact ⟨rfl, rfl⟩

theorem item_eq (hvalid : run.modelValidate action.modelDump = .ok action) :
    run.item action = some (verifyAction run.environment.readingWorld
      (run.executedActions action).world (run.report action)) := by
  unfold item verifiedActions
  rw [(executedActions_eq hvalid).1, List.getElem?_map, List.getElem?_append_right le_rfl,
    Nat.sub_self]
  rfl

theorem final_present (hvalid : run.modelValidate action.modelDump = .ok action)
    (hblocks : Blocks action) :
    (run.executedActions action).world.1.Present (denylistKey action.target) ↔
      PyStr.strip action.target = action.target ∨
        run.reached.1.Present (denylistKey action.target) := by
  rw [(executedActions_eq hvalid).2]
  constructor
  · intro hfinal
    rcases executeDecisions_present hfinal with hafter | ⟨target, hstripped⟩
    · rcases (execute_present rfl).mp hafter with hbefore | ⟨_, hkey⟩
      · exact .inr hbefore
      · exact .inl (denylistKey_inj hkey).symm
    · have htarget := denylistKey_inj hstripped
      rw [htarget]
      exact .inl (PyStr.strip_strip target)
  · intro h
    refine executeDecisions_keeps ((execute_present rfl).mpr ?_)
    rcases h with hstrip | hbefore
    · refine .inr ⟨hblocks, ?_⟩
      rw [blockKey, hstrip]
    · exact .inl hbefore

end NodeRun

def checkOk (environment : Environment (World × Nat)) (world : World × Nat)
    (action : ProposedAction) : Bool :=
  match action.actionType with
  | .blockIp => environment.blocked world (denylistKey action.target)
  | .disableUser => (environment.activeByEmail world action.target).elim false (!·)
  | .revokeSessions => true
  | _ => false

theorem verifyAction_executed {environment : Environment (World × Nat)} {world : World × Nat}
    {result : ExecutionResult} (hstatus : result.status = "executed") :
    (verifyAction environment world (executedEntry action result)).details.get "verified" =
      some (.bool (checkOk environment world action)) := by
  unfold verifyAction
  rw [if_pos (show (executedEntry action result).status = "executed" from hstatus),
    Obj.get_set_self]
  unfold checkOk executedEntry
  cases action.actionType <;> rfl

theorem verifyAction_status {environment : Environment (World × Nat)} {world : World × Nat}
    (item : ExecutedAction) : (verifyAction environment world item).status = item.status := by
  unfold verifyAction
  split
  · rfl
  · rfl

theorem blocked_iff {environment : Environment (World × Nat)} {world : World × Nat}
    {key : String} :
    environment.readingWorld.blocked world key = true ↔ world.1.Present key := by
  simp [Environment.readingWorld, World.Present]

theorem execute_supported {env : ExecutionEnv} {actorLabel : String} {world : World}
    {result : ExecutionResult} (h : (execute env actorLabel world action).1 = .ok result) :
    action.actionType = .revokeSessions ∨ action.actionType = .disableUser ∨ Blocks action := by
  unfold execute at h
  unfold Blocks
  cases htype : action.actionType with
  | revokeSessions => exact .inl rfl
  | disableUser => exact .inr (.inl rfl)
  | blockIp => exact .inr (.inr rfl)
  | _ =>
      rw [htype] at h
      cases h

theorem executed_of_block (hblocks : Blocks action) :
    ∃ result, (run.executed action).1 = .ok result ∧ result.status = "executed" := by
  unfold NodeRun.executed execute
  rw [hblocks]
  exact ⟨_, rfl, rfl⟩

theorem status_of_failed {e : String} (h : (run.executed action).1 = .error e) :
    (run.report action).status ≠ "executed" := by
  unfold NodeRun.report
  rw [h]
  change "failed" ≠ "executed"
  decide

theorem verified_iff_of_block (hvalid : run.modelValidate action.modelDump = .ok action)
    (hblocks : Blocks action) :
    (∀ item, run.item action = some item → item.status = "executed" →
      item.details.get "verified" = some (.bool true)) ↔
    (PyStr.strip action.target = action.target ∨
      run.reached.1.Present (denylistKey action.target)) := by
  obtain ⟨result, hresult, hstatus⟩ := @executed_of_block run action hblocks
  have hreport : run.report action = executedEntry action result := by
    unfold NodeRun.report
    rw [hresult]
  have hcheck : checkOk run.environment.readingWorld (run.executedActions action).world action =
      run.environment.readingWorld.blocked (run.executedActions action).world
        (denylistKey action.target) := by
    unfold checkOk
    rw [hblocks]
  rw [← run.final_present hvalid hblocks, ← blocked_iff, ← hcheck]
  constructor
  · intro h
    have hverified := h _ (run.item_eq hvalid) (by rw [verifyAction_status, hreport]; exact hstatus)
    rw [hreport, verifyAction_executed hstatus] at hverified
    simpa using hverified
  · intro h item hitem _
    rw [run.item_eq hvalid, hreport] at hitem
    rw [← Option.some.inj hitem, verifyAction_executed hstatus, h]

theorem verified_of_other (hvalid : run.modelValidate action.modelDump = .ok action)
    (hblocks : ¬ Blocks action) (hdisable : action.actionType ≠ .disableUser) {item : ExecutedAction}
    (hitem : run.item action = some item) (hstatus : item.status = "executed") :
    item.details.get "verified" = some (.bool true) := by
  rw [run.item_eq hvalid] at hitem
  obtain rfl := Option.some.inj hitem
  rw [verifyAction_status] at hstatus
  cases hresult : (run.executed action).1 with
  | error e => exact absurd hstatus (status_of_failed hresult)
  | ok result =>
      have hreport : run.report action = executedEntry action result := by
        unfold NodeRun.report
        rw [hresult]
      rw [hreport] at hstatus ⊢
      rw [verifyAction_executed hstatus]
      have hrevoke : action.actionType = .revokeSessions := by
        rcases execute_supported hresult with hrevoke | hother | hblock
        · exact hrevoke
        · exact absurd hother hdisable
        · exact absurd hblock hblocks
      unfold checkOk
      rw [hrevoke]

theorem execute_of_revoke {env : ExecutionEnv} {actorLabel : String} {world world' : World}
    {result : ExecutionResult} (hrevoke : action.actionType = .revokeSessions)
    (hside : executeRevokeSessions env action world = .ok (result, world')) :
    (execute env actorLabel world action).1.toOption.isSome ∧
      (execute env actorLabel world action).2.revokedUsers = world'.revokedUsers := by
  unfold execute
  rw [hrevoke]
  dsimp only
  rw [hside]
  exact ⟨rfl, rfl⟩

theorem execute_of_failed_revoke {env : ExecutionEnv} {actorLabel : String} {world : World}
    {e : String} (hrevoke : action.actionType = .revokeSessions)
    (hside : executeRevokeSessions env action world = .error e) :
    (execute env actorLabel world action).1.toOption.isSome = false := by
  unfold execute
  rw [hrevoke]
  dsimp only
  rw [hside]
  rfl

theorem executeRevokeSessions_some {env : ExecutionEnv} {world : World} {user : User}
    (hfound : findUser world.users action.target = some user) :
    ∃ result world', executeRevokeSessions env action world = .ok (result, world') ∧
      world'.revokedUsers = user.id :: world.revokedUsers := by
  unfold executeRevokeSessions
  split
  · rename_i hnone
    rw [hfound] at hnone
    cases hnone
  · rename_i found hsome
    rw [hfound] at hsome
    obtain rfl := Option.some.inj hsome
    exact ⟨_, _, rfl, rfl⟩

theorem executeRevokeSessions_none {env : ExecutionEnv} {world : World}
    (hnone : findUser world.users action.target = none) :
    ∃ e, executeRevokeSessions env action world = .error e := by
  unfold executeRevokeSessions
  split
  · exact ⟨_, rfl⟩
  · rename_i found hsome
    rw [hnone] at hsome
    cases hsome

theorem executed_of_revoke (hrevoke : action.actionType = .revokeSessions) {user : User}
    (hfound : findUser run.reached.1.users action.target = some user) :
    (run.executed action).1.toOption.isSome ∧
      (run.executed action).2.revokedUsers = user.id :: run.reached.1.revokedUsers := by
  obtain ⟨result, world', hside, hrevoked⟩ :=
    @executeRevokeSessions_some action (run.env run.reached.2) run.reached.1 user hfound
  rw [← hrevoked]
  exact execute_of_revoke hrevoke hside

theorem failed_of_revoke (hrevoke : action.actionType = .revokeSessions)
    (hnone : findUser run.reached.1.users action.target = none) :
    (run.executed action).1.toOption.isSome = false := by
  obtain ⟨e, hside⟩ :=
    @executeRevokeSessions_none action (run.env run.reached.2) run.reached.1 hnone
  exact execute_of_failed_revoke hrevoke hside

theorem user_iff (hunique : UniqueUsers run.reached.1)
    (hrevoke : action.actionType = .revokeSessions) {user : User}
    (hmem : user ∈ run.reached.1.users) :
    ((run.executed action).1.toOption.isSome ∧
      (run.executed action).2.revokedUsers = user.id :: run.reached.1.revokedUsers) ↔
    (PyStr.uuid action.target = some user.id ∨ action.target = user.email ∧
      ∀ other ∈ run.reached.1.users, PyStr.uuid action.target ≠ some other.id) := by
  have hfind : findUser run.reached.1.users action.target = some user ↔ _ :=
    findUser_some hunique.id hunique.email
  constructor
  · rintro ⟨hok, hrevoked⟩
    cases hfound : findUser run.reached.1.users action.target with
    | none =>
        rw [failed_of_revoke hrevoke hfound] at hok
        cases hok
    | some found =>
        rw [(executed_of_revoke hrevoke hfound).2] at hrevoked
        have hsame := List.inj_on_of_nodup_map hunique.id (mem_of_findUser hfound) hmem
          (List.cons.inj hrevoked).1
        rw [hsame] at hfound
        exact (hfind.mp hfound).2
  · intro hspelled
    exact executed_of_revoke hrevoke (hfind.mpr ⟨hmem, hspelled⟩)

theorem denylist_of_block (hblocks : Blocks action) : ∃ ttl, (run.executed action).2.denylist =
    (run.reached.1.setDenylist (blockKey action) ttl).denylist := by
  obtain ⟨result, details, hexecute⟩ := @execute_blocks run.actorLabel action
    (run.env run.reached.2) run.reached.1 hblocks
  refine ⟨action.ttlSeconds.getD 86400, ?_⟩
  unfold NodeRun.executed
  rw [hexecute]
  rfl

theorem enforced_iff (hblocks : Blocks action) {ip : Address} :
    (∃ key ttl, (run.executed action).2.denylist = (run.reached.1.setDenylist key ttl).denylist ∧
      dispatchKey (some ip.peerText) = some key) ↔
    PyStr.strip action.target = ip.peerText := by
  obtain ⟨ttl, hdenylist⟩ := @denylist_of_block run action hblocks
  constructor
  · rintro ⟨key, ttl', hwritten, hlookup⟩
    rw [hdenylist] at hwritten
    have hkey : blockKey action = key := congrArg Prod.fst (List.cons.inj hwritten).1
    rw [dispatchKey_some (peerText_ne_empty ip), ← hkey] at hlookup
    exact (denylistKey_inj (Option.some.inj hlookup)).symm
  · intro hspelled
    refine ⟨blockKey action, ttl, hdenylist, ?_⟩
    rw [dispatchKey_some (peerText_ne_empty ip), blockKey, hspelled]
    rfl

theorem canonical_iff {entity : String} {ip : Address}
    (hgrounded : GroundedAddress py context action.target entity ip) :
    PyStr.strip action.target = ip.peerText ↔ Spelling action.target entity ip := by
  cases ip with
  | v4 ip => rw [← peerText_ipv4 hgrounded.2.2, Spelling]
  | v6 ip scopeId => exact Iff.rfl

theorem tier_of_cleared {engine engine' : PolicyEngine} {redis redis' : Redis}
    {now now' : Seconds} {verdict : PolicyDecision}
    (heval : engine.evaluate py redis now now' action context = (.ok verdict, engine', redis'))
    (hallowed : verdict.allowed = true) (happroval : verdict.requiresHumanApproval = false) :
    action.tier = .tier0Auto ∨ action.tier = .tier1Low := by
  unfold PolicyEngine.evaluate at heval
  split at heval
  · rename_i tripped cb redis'' _
    obtain ⟨hverdict, _⟩ := Prod.mk.inj heval
    rw [← Except.ok.inj hverdict] at hallowed happroval
    have hauto := (evaluateChecks_auto_iff tripped).mp ⟨hallowed, happroval⟩
    exact hauto.2.2.imp_right And.left
  · cases heval

theorem targetAgreed_iff (hvalid : run.modelValidate action.modelDump = .ok action)
    (hunique : UniqueUsers run.reached.1) (hdisable : action.actionType ≠ .disableUser) :
    TargetAgreed py context run action ↔ TargetSpelled py context run.reached.1 action := by
  constructor
  · intro hagreed
    refine ⟨fun hrevoke user hmem hemail => ?_, fun hblocks => ?_, fun hblocks entity ip hip => ?_⟩
    · exact (user_iff hunique hrevoke hmem).mp (hagreed.user hrevoke user hmem hemail)
    · exact (verified_iff_of_block hvalid hblocks).mp hagreed.verified
    · exact (canonical_iff hip).mp ((enforced_iff hblocks).mp (hagreed.enforced hblocks entity ip hip))
  · intro hspelled
    refine ⟨fun hrevoke user hmem hemail => ?_, fun item hitem hstatus => ?_,
      fun hblocks entity ip hip => ?_⟩
    · exact (user_iff hunique hrevoke hmem).mpr (hspelled.user hrevoke user hmem hemail)
    · by_cases hblocks : Blocks action
      · exact (verified_iff_of_block hvalid hblocks).mpr (hspelled.stripped hblocks) item hitem
          hstatus
      · exact verified_of_other hvalid hblocks hdisable hitem hstatus
    · exact (enforced_iff hblocks).mpr
        ((canonical_iff hip).mpr (hspelled.canonical hblocks entity ip hip))

theorem target_agreement_iff {engine engine' : PolicyEngine} {redis redis' : Redis}
    {now now' : Seconds} {verdict : PolicyDecision}
    (hvalid : run.modelValidate action.modelDump = .ok action)
    (hunique : UniqueUsers run.reached.1)
    (heval : engine.evaluate py redis now now' action context = (.ok verdict, engine', redis'))
    (hallowed : verdict.allowed = true) (happroval : verdict.requiresHumanApproval = false) :
    TargetAgreed py context run action ↔ TargetSpelled py context run.reached.1 action := by
  refine targetAgreed_iff hvalid hunique fun htype => ?_
  rcases tier_of_cleared heval hallowed happroval with htier | htier
  · rw [ProposedAction.tier, htype] at htier
    cases htier
  · rw [ProposedAction.tier, htype] at htier
    cases htier

end Iff

section Spellings

def idleEnvironment : Environment (World × Nat) where
  py := asciiText
  maxChars := 30000
  reads := ⟨none, [], [], [], [], none⟩
  loaded := none
  loadedAt := 0
  cancelled := false
  evidenceResponse := .error "not asked"
  riskResponse := .error "not asked"
  narrativeResponse := .error "not asked"
  recommendationResponse := .error "not asked"
  modelValidate := strictValidate
  clock _ := 0
  redis := ⟨true, none, {}, {}⟩
  executor := countedExecutor fun _ => quietEnv
  world := (quietWorld, 0)
  blocked _ _ := false
  activeByEmail _ _ := none
  completing := none
  completedAt := 0

def attackRun : NodeRun where
  modelValidate := strictValidate
  env _ := quietEnv
  environment := idleEnvironment
  state := { investigationId := "9", incidentId := "7" }
  earlier := []
  reason := "ok"
  later := []
  start := (quietWorld, 0)

def attackContext : PolicyContext where
  incidentId := "7"
  incidentEntities := ["mallory@example.com", "203.0.113.7", "2001:db8::7"]
  validEvidenceRefs := ["event:e1"]

theorem uniqueUsers_quiet : UniqueUsers attackRun.reached.1 :=
  ⟨List.nodup_singleton _, List.nodup_singleton _⟩

def clears (action : ProposedAction) : Bool :=
  (evaluateChecks asciiText (false, "ok") action attackContext).allowed &&
    !(evaluateChecks asciiText (false, "ok") action attackContext).requiresHumanApproval

theorem evaluate_of_clears {action : ProposedAction} (h : clears action = true) :
    ∃ verdict, PolicyEngine.evaluate asciiText {} ⟨true, none, {}, {}⟩ 0 0 action attackContext =
        (.ok verdict, {}, ⟨true, none, {}, {}⟩) ∧
      verdict.allowed = true ∧ verdict.requiresHumanApproval = false := by
  unfold clears at h
  simp only [Bool.and_eq_true, Bool.not_eq_eq_eq_not, Bool.not_true] at h
  exact ⟨_, evaluate_fresh _ 0 0, h⟩

theorem attackerBlock_agrees : TargetAgreed asciiText attackContext attackRun attackerBlock := by
  obtain ⟨verdict, heval, hallowed, happroval⟩ :=
    @evaluate_of_clears attackerBlock (by decide)
  have hvalid : strictValidate attackerBlock.modelDump = .ok attackerBlock :=
    strictValidate_roundTrip attackerBlock
  rw [target_agreement_iff hvalid uniqueUsers_quiet heval hallowed happroval]
  refine ⟨fun hrevoke => ?_, fun _ => .inl (by decide), fun _ entity ip hip => ?_⟩
  · cases hrevoke
  · obtain ⟨hmem, hsame, hentity⟩ := hip
    have hplain : ∀ entity ∈ attackContext.incidentEntities,
        asciiText.normalize entity = asciiText.normalize attackerBlock.target →
          entity = "203.0.113.7" := by
      decide
    rw [hplain entity hmem hsame] at hentity
    have haddress : ipAddress (PyStr.strip "203.0.113.7") = some (.v4 3405803783) := by
      decide
    rw [hplain entity hmem hsame, ← Option.some.inj (haddress.symm.trans hentity)]
    rfl

def shoutedRevoke : ProposedAction :=
  { attackerBlock with
    actionType := .revokeSessions
    target := " MALLORY@example.com"
    targetLength := by decide }

def paddedBlock : ProposedAction :=
  { attackerBlock with
    target := " 203.0.113.7"
    targetLength := by decide }

def respelledBlock : ProposedAction :=
  { attackerBlock with
    target := "2001:DB8::7"
    targetLength := by decide }

theorem not_agreed_of_not_spelled {action : ProposedAction}
    (hdisable : action.actionType ≠ .disableUser)
    (h : ¬ TargetSpelled asciiText attackContext quietWorld action) :
    ¬ TargetAgreed asciiText attackContext attackRun action := by
  intro hagreed
  exact h ((targetAgreed_iff (strictValidate_roundTrip action) uniqueUsers_quiet hdisable).mp
    hagreed)

theorem targets_disagree : [shoutedRevoke, paddedBlock, respelledBlock].Forall fun action =>
    ∃ verdict, PolicyEngine.evaluate asciiText {} ⟨true, none, {}, {}⟩ 0 0 action attackContext =
        (.ok verdict, {}, ⟨true, none, {}, {}⟩) ∧
      verdict.allowed = true ∧ verdict.requiresHumanApproval = false ∧
      ¬ TargetAgreed asciiText attackContext attackRun action := by
  have hclears : ∀ action ∈ [shoutedRevoke, paddedBlock, respelledBlock],
      clears action = true := by
    decide +kernel
  have hspelled : ∀ action ∈ [shoutedRevoke, paddedBlock, respelledBlock],
      action.actionType ≠ .disableUser ∧
        ¬ TargetSpelled asciiText attackContext quietWorld action := by
    simp only [List.forall_mem_cons, List.not_mem_nil, false_imp_iff, implies_true, and_true]
    refine ⟨⟨by decide, fun h => ?_⟩, ⟨by decide, fun h => ?_⟩, ⟨by decide, fun h => ?_⟩⟩
    · have huser := h.user rfl ⟨42, "mallory@example.com", true, 0⟩ List.mem_cons_self
        (by decide)
      exact absurd huser (by decide)
    · have hstripped := h.stripped rfl
      unfold World.Present at hstripped
      exact absurd hstripped (by decide)
    · have hcanonical := h.canonical rfl "2001:db8::7" (.v6 (0x20010db8 * 2 ^ 96 + 7) none)
        ⟨by decide, by decide +kernel, by decide +kernel⟩
      unfold Spelling at hcanonical
      exact absurd hcanonical (by decide)
  rw [List.forall_iff_forall_mem]
  intro action haction
  obtain ⟨verdict, heval, hallowed, happroval⟩ := evaluate_of_clears (hclears action haction)
  obtain ⟨hdisable, hnot⟩ := hspelled action haction
  exact ⟨verdict, heval, hallowed, happroval, not_agreed_of_not_spelled hdisable hnot⟩

end Spellings

end Investigation
