import AiSoc.Investigation.Gate
import AiSoc.Response.Rollback

namespace Investigation

open PyJson Response

section Session

-- one call of the executor, with the world before and after it
structure Attempt where
  action : ProposedAction
  raised : Bool
  before : World
  after : World

-- the denylist of the world is in Redis, its other tables are in an open transaction
structure Session where
  world : World
  broken : Bool
  attempts : List Attempt

-- audit n is whether the audit insert of the n-th execution fails
structure Failures where
  audit : Nat → Bool
  laterNode : Bool
  commit : Bool

def pendingRollback : String :=
  "This Session's transaction has been rolled back due to a previous exception during flush."

-- a broken session raises at its next statement
def sideEffect (env : ExecutionEnv) (action : ProposedAction) (s : Session) :
    Except String (ExecutionResult × World) :=
  match action.actionType with
  | .revokeSessions =>
      if s.broken then .error pendingRollback else executeRevokeSessions env action s.world
  | .disableUser =>
      if s.broken then .error pendingRollback else executeDisableUser env action s.world
  | .blockIp => executeBlockIp env action s.world
  | _ => .error ("Unsupported in-app action type: " ++ action.actionType.value)

def Session.attempted (s : Session) (action : ProposedAction) (raised broken : Bool)
    (world : World) : Session :=
  ⟨world, broken, s.attempts ++ [⟨action, raised, s.world, world⟩]⟩

-- the insert of the outcome failed is one more statement of the same session
def executeInSession (env : Nat → ExecutionEnv) (failures : Failures) : Executor Session :=
  fun actorLabel s action =>
    let index := s.attempts.length
    if s.broken || failures.audit index then
      match sideEffect (env index) action s with
      | .ok (_, world) => (.error pendingRollback, s.attempted action true true world)
      | .error _ => (.error pendingRollback, s.attempted action true true s.world)
    else
      match execute (env index) actorLabel s.world action with
      | (.ok result, world) => (.ok result, s.attempted action false false world)
      | (.error e, world) => (.error e, s.attempted action true false world)

-- what process_investigation leaves, and the session it ran
def afterProcessInvestigation (env : Nat → ExecutionEnv) (failures : Failures)
    (modelValidate : ModelValidate) (state : InvestigationState) (before : World) :
    World × Session :=
  let session := (executeActionsNode modelValidate (executeInSession env failures) state
    ⟨before, false, []⟩).world
  if session.broken || failures.laterNode || failures.commit then
    ({ before with denylist := session.world.denylist }, session)
  else (session.world, session)

end Session

section Audited

def Blocks (action : ProposedAction) : Prop :=
  action.actionType = .blockIp

def blockKey (action : ProposedAction) : String :=
  denylistKey (PyStr.strip action.target)

def Named (world : World) (action : ProposedAction) : Prop :=
  ∃ log ∈ world.audit, log.outcome = "succeeded" ∧ log.action = "autonomous_response.block_ip" ∧
    ∃ target, log.details.get "target" = some (.str target) ∧
      PyStr.strip target = PyStr.strip action.target

def SameUsers (world world' : World) : Prop :=
  world'.users = world.users ∧ world'.revokedUsers = world.revokedUsers

structure Audited (before final : World) (session : Session) : Prop where
  recorded : ∀ attempt ∈ session.attempts, Blocks attempt.action →
    final.Present (blockKey attempt.action) → Named final attempt.action
  undone : ∀ attempt ∈ session.attempts, attempt.raised = true →
    (Blocks attempt.action → ¬ final.Present (blockKey attempt.action)) ∧
      (SameUsers attempt.before attempt.after ∨ SameUsers before final)

def clearedActions (modelValidate : ModelValidate) (decisions : List DecisionRecord) :
    List ProposedAction :=
  decisions.filterMap fun decision =>
    if decision.allowed ∧ !decision.requiresHumanApproval then
      (modelValidate decision.action).toOption
    else none

def NothingFails (failures : Failures) (actions : List ProposedAction) : Prop :=
  (∀ index < actions.length, failures.audit index = false) ∧ failures.laterNode = false ∧
    failures.commit = false

def BlocksOnRecord (failures : Failures) (before : World) (actions : List ProposedAction) : Prop :=
  ∀ (index : Nat) (action : ProposedAction), actions[index]? = some action → Blocks action →
    Named before action ∧ ∀ earlier ≤ index, failures.audit earlier = false

end Audited

section Attempts

variable {env : Nat → ExecutionEnv} {failures : Failures} {actorLabel : String} {s : Session}
  {action : ProposedAction}

theorem executeBlockIp_world {env : ExecutionEnv} {world : World} :
    ∃ result, executeBlockIp env action world =
      .ok (result, world.setDenylist (blockKey action) (action.ttlSeconds.getD 86400)) :=
  ⟨_, rfl⟩

inductive Attempted (failures : Failures) (s : Session) (action : ProposedAction)
    (s' : Session) : Prop where
  | lost (world : World) (same : s' = s.attempted action true true world)
      (fails : s.broken = true ∨ failures.audit s.attempts.length = true)
      (denylist : Blocks action → world.Present (blockKey action))
      (present : ∀ key, s.world.Present key → world.Present key)
      (audit : ∀ log ∈ s.world.audit, log ∈ world.audit)
  | kept (world : World) (raised : Bool) (same : s' = s.attempted action raised false world)
      (whole : s.broken = false ∧ failures.audit s.attempts.length = false)
      (denylist : Blocks action → raised = false ∧ world.Present (blockKey action) ∧
        Named world action)
      (present : ∀ key, s.world.Present key → world.Present key)
      (audit : ∀ log ∈ s.world.audit, log ∈ world.audit)
      (users : raised = true → SameUsers s.world world)

theorem executeRevokeSessions_frame {env : ExecutionEnv} {world world' : World}
    {result : ExecutionResult}
    (h : executeRevokeSessions env action world = .ok (result, world')) :
    world'.audit = world.audit ∧ world'.denylist = world.denylist := by
  unfold executeRevokeSessions at h
  split at h
  · cases h
  · cases h
    exact ⟨rfl, rfl⟩

theorem executeDisableUser_frame {env : ExecutionEnv} {world world' : World}
    {result : ExecutionResult}
    (h : executeDisableUser env action world = .ok (result, world')) :
    world'.audit = world.audit ∧ world'.denylist = world.denylist := by
  unfold executeDisableUser at h
  split at h
  · cases h
  · cases h
    exact ⟨rfl, rfl⟩

theorem present_of_denylist {world world' : World} (h : world'.denylist = world.denylist)
    (key : String) (hkey : world.Present key) : world'.Present key := by
  unfold World.Present
  rw [h]
  exact hkey

theorem sideEffect_blocks {env : ExecutionEnv} (hblocks : Blocks action) :
    ∃ result, sideEffect env action s =
      .ok (result, s.world.setDenylist (blockKey action) (action.ttlSeconds.getD 86400)) := by
  unfold sideEffect
  rw [hblocks]
  exact executeBlockIp_world

theorem sideEffect_frame {env : ExecutionEnv} {result : ExecutionResult} {world : World}
    (h : sideEffect env action s = .ok (result, world)) :
    (Blocks action → world.Present (blockKey action)) ∧
      (∀ key, s.world.Present key → world.Present key) ∧ world.audit = s.world.audit := by
  by_cases hblocks : Blocks action
  · obtain ⟨result', hset⟩ := @sideEffect_blocks s action env hblocks
    obtain ⟨_, rfl⟩ := Prod.mk.inj (Except.ok.inj (hset.symm.trans h))
    exact ⟨fun _ => present_setDenylist.mpr (.inl rfl),
      fun key hkey => present_setDenylist.mpr (.inr hkey), rfl⟩
  · unfold sideEffect at h
    split at h
    · split at h
      · cases h
      · obtain ⟨haudit, hdenylist⟩ := executeRevokeSessions_frame h
        exact ⟨fun h' => absurd h' hblocks, present_of_denylist hdenylist, haudit⟩
    · split at h
      · cases h
      · obtain ⟨haudit, hdenylist⟩ := executeDisableUser_frame h
        exact ⟨fun h' => absurd h' hblocks, present_of_denylist hdenylist, haudit⟩
    · rename_i htype
      exact absurd htype hblocks
    · cases h

theorem execute_blocks {env : ExecutionEnv} {world : World} (hblocks : Blocks action) :
    ∃ result details, execute env actorLabel world action = (.ok result,
      (world.setDenylist (blockKey action) (action.ttlSeconds.getD 86400)).recordAudit env action
        "succeeded" actorLabel details) := by
  unfold execute
  rw [hblocks]
  exact ⟨_, _, rfl⟩

theorem execute_raises {env : ExecutionEnv} {world world' : World} {e : String}
    (h : execute env actorLabel world action = (.error e, world')) :
    world' = world.recordAudit env action "failed" actorLabel [("error", .str e)] := by
  unfold execute at h
  simp only at h
  split at h
  · cases h
  · obtain ⟨he, rfl⟩ := Prod.mk.inj h
    rw [Except.error.inj he]

theorem execute_frame {env : ExecutionEnv} {world world' : World} {result : ExecutionResult}
    (hblocks : ¬ Blocks action)
    (h : execute env actorLabel world action = (.ok result, world')) :
    world'.denylist = world.denylist ∧ ∀ log ∈ world.audit, log ∈ world'.audit := by
  unfold execute at h
  simp only at h
  split at h
  · rename_i outcome returned changed hok
    have hframe : changed.audit = world.audit ∧ changed.denylist = world.denylist := by
      split at hok
      · exact executeRevokeSessions_frame hok
      · exact executeDisableUser_frame hok
      · rename_i htype
        exact absurd htype hblocks
      · cases hok
    obtain ⟨_, hworld⟩ := Prod.mk.inj h
    rw [← hworld]
    refine ⟨hframe.2, fun log hlog => ?_⟩
    exact List.mem_cons_of_mem _ (hframe.1 ▸ hlog)
  · cases h

theorem named_recorded {env : ExecutionEnv} {world : World} {details : Obj}
    (hblocks : Blocks action) :
    Named (world.recordAudit env action "succeeded" actorLabel details) action := by
  refine ⟨_, List.mem_cons_self, rfl, ?_, action.target, ?_, rfl⟩
  · rw [hblocks]
    rfl
  · exact Obj.get_cons _ _ _ _

theorem attempted_executeInSession :
    Attempted failures s action (executeInSession env failures actorLabel s action).2 := by
  unfold executeInSession
  simp only
  split
  · rename_i hfails
    have hlost : s.broken = true ∨ failures.audit s.attempts.length = true := by
      simpa using hfails
    split
    · rename_i result world hok
      obtain ⟨hdenylist, hpresent, haudit⟩ := sideEffect_frame hok
      exact .lost world rfl hlost hdenylist hpresent fun log hlog => haudit ▸ hlog
    · rename_i e herror
      have hunblocked : ¬ Blocks action := by
        intro hblocks
        obtain ⟨result, hok⟩ := @sideEffect_blocks s action (env s.attempts.length) hblocks
        rw [herror] at hok
        cases hok
      exact .lost s.world rfl hlost (fun h => absurd h hunblocked) (fun _ h => h) fun _ h => h
  · rename_i hfails
    have hwhole : s.broken = false ∧ failures.audit s.attempts.length = false := by
      simpa using hfails
    by_cases hblocks : Blocks action
    · obtain ⟨result, details, hexecute⟩ :=
        @execute_blocks actorLabel action (env s.attempts.length) s.world hblocks
      rw [hexecute]
      refine .kept _ false rfl hwhole (fun _ => ⟨rfl, ?_, named_recorded hblocks⟩) ?_ ?_ ?_
      · exact present_setDenylist.mpr (.inl rfl)
      · exact fun key hkey => present_setDenylist.mpr (.inr hkey)
      · exact fun log hlog => List.mem_cons_of_mem _ hlog
      · intro h
        cases h
    · split
      · rename_i result world hok
        obtain ⟨hdenylist, haudit⟩ := execute_frame hblocks hok
        exact .kept world false rfl hwhole (fun h => absurd h hblocks)
          (present_of_denylist hdenylist) haudit fun h => absurd h (by decide)
      · rename_i e world herror
        rw [execute_raises herror]
        exact .kept _ true rfl hwhole (fun h => absurd h hblocks) (fun _ h => h)
          (fun _ h => List.mem_cons_of_mem _ h) fun _ => ⟨rfl, rfl⟩

end Attempts

section Sessions

variable {env : Nat → ExecutionEnv} {failures : Failures} {actorLabel : String}
  {before : World} {s s' : Session} {action : ProposedAction}

structure SessionInv (failures : Failures) (before : World) (actions : List ProposedAction)
    (s : Session) : Prop where
  attempted : s.attempts.map (·.action) = actions
  broken : s.broken = true ↔ ∃ index < actions.length, failures.audit index = true
  raised : ∀ (index : Nat) (attempt : Attempt), s.attempts[index]? = some attempt →
    Blocks attempt.action → (attempt.raised = true ↔ ∃ j ≤ index, failures.audit j = true)
  present : ∀ attempt ∈ s.attempts, Blocks attempt.action →
    s.world.Present (blockKey attempt.action)
  audit : ∀ log ∈ before.audit, log ∈ s.world.audit
  named : s.broken = false → ∀ attempt ∈ s.attempts, Blocks attempt.action →
    Named s.world attempt.action
  users : s.broken = false → ∀ attempt ∈ s.attempts, attempt.raised = true →
    SameUsers attempt.before attempt.after

theorem sessionInv_start (failures : Failures) (before : World) :
    SessionInv failures before [] ⟨before, false, []⟩ := by
  constructor <;> simp

theorem named_mono {world world' : World} (h : ∀ log ∈ world.audit, log ∈ world'.audit)
    (hnamed : Named world action) : Named world' action := by
  obtain ⟨log, hlog, hrest⟩ := hnamed
  exact ⟨log, h log hlog, hrest⟩

theorem length_attempts {actions : List ProposedAction} (hinv : SessionInv failures before actions s) :
    s.attempts.length = actions.length := by
  rw [← hinv.attempted, List.length_map]

theorem attempted_cases {raised broken : Bool} {world : World} {index : Nat} {attempt : Attempt}
    (h : (s.attempted action raised broken world).attempts[index]? = some attempt) :
    s.attempts[index]? = some attempt ∨
      index = s.attempts.length ∧ attempt = ⟨action, raised, s.world, world⟩ := by
  unfold Session.attempted at h
  by_cases hold : index < s.attempts.length
  · rw [List.getElem?_append_left hold] at h
    exact .inl h
  · rw [List.getElem?_append_right (not_lt.mp hold), List.getElem?_singleton] at h
    split at h
    · rename_i hzero
      exact .inr ⟨by omega, (Option.some.inj h).symm⟩
    · cases h

theorem mem_attempted {raised broken : Bool} {world : World} {attempt : Attempt}
    (h : attempt ∈ (s.attempted action raised broken world).attempts) :
    attempt ∈ s.attempts ∨ attempt = ⟨action, raised, s.world, world⟩ :=
  (List.mem_append.mp h).imp_right List.mem_singleton.mp

theorem failing_succ {n : Nat} : (∃ index < n + 1, failures.audit index = true) ↔
    (∃ index < n, failures.audit index = true) ∨ failures.audit n = true := by
  constructor
  · rintro ⟨index, hlt, hfails⟩
    rcases Nat.lt_succ_iff_lt_or_eq.mp hlt with hlt | rfl
    · exact .inl ⟨index, hlt, hfails⟩
    · exact .inr hfails
  · rintro (⟨index, hlt, hfails⟩ | hfails)
    · exact ⟨index, Nat.lt_succ_of_lt hlt, hfails⟩
    · exact ⟨n, Nat.lt_succ_self n, hfails⟩

theorem sessionInv_attempted {actions : List ProposedAction}
    (hinv : SessionInv failures before actions s) (h : Attempted failures s action s') :
    SessionInv failures before (actions ++ [action]) s' := by
  have hlength := length_attempts hinv
  have hbroken := hinv.broken
  cases h with
  | lost world same fails denylist present audit =>
      have hfailed : ∃ index < actions.length + 1, failures.audit index = true := by
        rw [failing_succ, ← hbroken, ← hlength]
        exact fails
      rw [same]
      refine ⟨?_, ?_, ?_, ?_, ?_, ?_, ?_⟩
      · simp [Session.attempted, hinv.attempted]
      · simpa [Session.attempted] using hfailed
      · intro index attempt hattempt hblocks
        rcases attempted_cases hattempt with hold | ⟨rfl, rfl⟩
        · exact hinv.raised index attempt hold hblocks
        · rw [hlength]
          simpa [Nat.lt_succ_iff] using hfailed
      · intro attempt hattempt hblocks
        rcases mem_attempted hattempt with hold | rfl
        · exact present _ (hinv.present attempt hold hblocks)
        · exact denylist hblocks
      · exact fun log hlog => audit log (hinv.audit log hlog)
      · intro hwhole
        cases hwhole
      · intro hwhole
        cases hwhole
  | kept world raised same whole denylist present audit users =>
      have hclear : ¬ ∃ index < actions.length + 1, failures.audit index = true := by
        rw [failing_succ, ← hbroken, ← hlength, whole.1, whole.2]
        simp
      rw [same]
      refine ⟨?_, ?_, ?_, ?_, ?_, ?_, ?_⟩
      · simp [Session.attempted, hinv.attempted]
      · simpa [Session.attempted] using hclear
      · intro index attempt hattempt hblocks
        rcases attempted_cases hattempt with hold | ⟨rfl, rfl⟩
        · exact hinv.raised index attempt hold hblocks
        · rw [hlength, (denylist hblocks).1]
          simpa [Nat.lt_succ_iff] using hclear
      · intro attempt hattempt hblocks
        rcases mem_attempted hattempt with hold | rfl
        · exact present _ (hinv.present attempt hold hblocks)
        · exact (denylist hblocks).2.1
      · exact fun log hlog => audit log (hinv.audit log hlog)
      · intro _ attempt hattempt hblocks
        rcases mem_attempted hattempt with hold | rfl
        · exact named_mono audit (hinv.named whole.1 attempt hold hblocks)
        · exact (denylist hblocks).2.2
      · intro _ attempt hattempt hraised
        rcases mem_attempted hattempt with hold | rfl
        · exact hinv.users whole.1 attempt hold hraised
        · exact users hraised

theorem sessionInv_executeDecisions {modelValidate : ModelValidate}
    {decisions : List DecisionRecord} {actions : List ProposedAction}
    (hinv : SessionInv failures before actions s) :
    SessionInv failures before (actions ++ clearedActions modelValidate decisions)
      (executeDecisions modelValidate (executeInSession env failures) actorLabel decisions
        s).world := by
  induction decisions generalizing actions s with
  | nil => simpa [clearedActions, executeDecisions] using hinv
  | cons decision decisions ih =>
      have hone : SessionInv failures before (actions ++ clearedActions modelValidate [decision])
          (executeDecision modelValidate (executeInSession env failures) actorLabel decision
            s).world := by
        unfold executeDecision clearedActions
        simp only [List.filterMap_cons, List.filterMap_nil]
        by_cases hauto : decision.allowed ∧ !decision.requiresHumanApproval
        · rw [if_pos hauto, if_pos hauto]
          cases hvalid : modelValidate decision.action with
          | error exc => simpa [Except.toOption] using hinv
          | ok action =>
              have hstep := sessionInv_attempted hinv
                (@attempted_executeInSession env failures actorLabel s action)
              simp only [Except.toOption]
              split <;> rename_i hcall <;> rw [hcall] at hstep <;> exact hstep
        · simp only [if_neg hauto, List.append_nil]
          split
          · exact hinv
          · exact hinv
      have hsplit : clearedActions modelValidate (decision :: decisions) =
          clearedActions modelValidate [decision] ++ clearedActions modelValidate decisions := by
        rw [clearedActions, clearedActions, clearedActions, ← List.filterMap_append,
          List.singleton_append]
      rw [hsplit, ← List.append_assoc]
      exact ih hone

end Sessions

section Iff

variable {env : Nat → ExecutionEnv} {failures : Failures} {modelValidate : ModelValidate}
  {state : InvestigationState} {before : World}

theorem not_failing_iff {n : Nat} : (¬ ∃ index < n, failures.audit index = true) ↔
    ∀ index < n, failures.audit index = false := by
  simp

theorem audited_of_committed {actions : List ProposedAction} {s : Session}
    (hinv : SessionInv failures before actions s) (hwhole : s.broken = false) :
    Audited before s.world s := by
  refine ⟨fun attempt hattempt hblocks _ => hinv.named hwhole attempt hattempt hblocks, ?_⟩
  intro attempt hattempt hraised
  refine ⟨fun hblocks => ?_, .inl (hinv.users hwhole attempt hattempt hraised)⟩
  obtain ⟨index, hlt, hindex⟩ := List.getElem_of_mem hattempt
  have hsome := List.getElem?_eq_some_iff.mpr ⟨hlt, hindex⟩
  obtain ⟨j, hj, hfails⟩ := (hinv.raised index attempt hsome hblocks).mp hraised
  have hbroken : s.broken = true := by
    refine hinv.broken.mpr ⟨j, ?_, hfails⟩
    rw [← length_attempts hinv]
    omega
  rw [hwhole] at hbroken
  cases hbroken

theorem audited_iff_of_lost {actions : List ProposedAction} {s : Session}
    (hinv : SessionInv failures before actions s) :
    Audited before { before with denylist := s.world.denylist } s ↔
      BlocksOnRecord failures before actions := by
  constructor
  · intro haudited index action haction hblocks
    obtain ⟨attempt, hattempt, rfl⟩ : ∃ attempt, s.attempts[index]? = some attempt ∧
        attempt.action = action := by
      rw [← hinv.attempted, List.getElem?_map, Option.map_eq_some_iff] at haction
      exact haction
    have hmem := List.mem_of_getElem? hattempt
    have hpresent := hinv.present attempt hmem hblocks
    obtain ⟨log, hlog, hrest⟩ := haudited.recorded attempt hmem hblocks hpresent
    refine ⟨⟨log, hlog, hrest⟩, fun earlier hle => ?_⟩
    by_contra hfails
    have hraised := (hinv.raised index attempt hattempt hblocks).mpr
      ⟨earlier, hle, by simpa using hfails⟩
    exact (haudited.undone attempt hmem hraised).1 hblocks hpresent
  · intro hrecord
    have hof : ∀ attempt ∈ s.attempts, Blocks attempt.action →
        Named before attempt.action ∧ ¬ attempt.raised = true := by
      intro attempt hattempt hblocks
      obtain ⟨index, hlt, hindex⟩ := List.getElem_of_mem hattempt
      have hsome := List.getElem?_eq_some_iff.mpr ⟨hlt, hindex⟩
      have haction : actions[index]? = some attempt.action := by
        rw [← hinv.attempted, List.getElem?_map, hsome, Option.map_some]
      obtain ⟨hnamed, hclear⟩ := hrecord index attempt.action haction hblocks
      refine ⟨hnamed, fun hraised => ?_⟩
      obtain ⟨j, hj, hfails⟩ := (hinv.raised index attempt hsome hblocks).mp hraised
      rw [hclear j hj] at hfails
      cases hfails
    constructor
    · intro attempt hattempt hblocks _
      obtain ⟨log, hlog, hrest⟩ := (hof attempt hattempt hblocks).1
      exact ⟨log, hlog, hrest⟩
    · intro attempt hattempt hraised
      exact ⟨fun hblocks => absurd hraised (hof attempt hattempt hblocks).2, .inr ⟨rfl, rfl⟩⟩

theorem containment_audited_iff (env : Nat → ExecutionEnv) (failures : Failures)
    (modelValidate : ModelValidate) (state : InvestigationState) (before : World) :
    Audited before (afterProcessInvestigation env failures modelValidate state before).1
        (afterProcessInvestigation env failures modelValidate state before).2 ↔
      NothingFails failures (clearedActions modelValidate state.policyDecisions) ∨
        BlocksOnRecord failures before
          (clearedActions modelValidate state.policyDecisions) := by
  have hinv : SessionInv failures before (clearedActions modelValidate state.policyDecisions)
      (executeActionsNode modelValidate (executeInSession env failures) state
        ⟨before, false, []⟩).world :=
    sessionInv_executeDecisions (sessionInv_start failures before)
  unfold afterProcessInvestigation
  simp only
  by_cases hcommit : ((executeActionsNode modelValidate (executeInSession env failures) state
      ⟨before, false, []⟩).world.broken || failures.laterNode || failures.commit) = true
  · rw [if_pos hcommit]
    rw [audited_iff_of_lost hinv]
    refine ⟨.inr, ?_⟩
    rintro (⟨hclear, hlater, hcommitted⟩ | hrecord)
    · have hbroken := hinv.broken.not.mpr (not_failing_iff.mpr hclear)
      simp [hbroken, hlater, hcommitted] at hcommit
    · exact hrecord
  · rw [if_neg hcommit]
    simp only [Bool.or_eq_true, not_or, Bool.not_eq_true] at hcommit
    obtain ⟨⟨hwhole, hlater⟩, hcommitted⟩ := hcommit
    have hclear := not_failing_iff.mp (hinv.broken.not.mp (by rw [hwhole]; decide))
    exact iff_of_true (audited_of_committed hinv hwhole) (.inl ⟨hclear, hlater, hcommitted⟩)

def containedState : InvestigationState where
  investigationId := "9"
  incidentId := "7"
  policyDecisions := [⟨attackerBlock.modelDump, true, false, "ok"⟩]

def failurePoints : List Failures :=
  [⟨fun _ => true, false, false⟩, ⟨fun _ => false, true, false⟩, ⟨fun _ => false, false, true⟩]

def unrecordedBlock (final : World) (session : Session) : Bool :=
  final.audit.isEmpty && session.attempts.any fun attempt =>
    attempt.action.actionType = .blockIp &&
      final.denylist.any fun entry => entry.1 = blockKey attempt.action

theorem not_audited_of_unrecordedBlock {final : World} {session : Session}
    (h : unrecordedBlock final session = true) : ¬ Audited before final session := by
  intro haudited
  simp only [unrecordedBlock, Bool.and_eq_true, List.isEmpty_iff, List.any_eq_true,
    decide_eq_true_eq] at h
  obtain ⟨hempty, attempt, hattempt, hblocks, entry, hentry, hkey⟩ := h
  have hpresent : final.Present (blockKey attempt.action) :=
    List.mem_map.mpr ⟨entry, hentry, hkey⟩
  obtain ⟨log, hlog, _⟩ := haudited.recorded attempt hattempt hblocks hpresent
  rw [hempty] at hlog
  cases hlog

theorem block_outlives_rollback : failurePoints.Forall fun failures =>
    ¬ Audited quietWorld
      (afterProcessInvestigation (fun _ => quietEnv) failures strictValidate containedState
        quietWorld).1
      (afterProcessInvestigation (fun _ => quietEnv) failures strictValidate containedState
        quietWorld).2 := by
  rw [List.forall_iff_forall_mem]
  intro failures hfailures
  apply not_audited_of_unrecordedBlock
  revert failures
  decide

end Iff

end Investigation
