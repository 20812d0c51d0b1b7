import AiSoc.Investigation.Gate
import AiSoc.Library.Budget
import Mathlib.Algebra.BigOperators.Group.Finset.Basic
import Mathlib.Algebra.Order.BigOperators.Group.Finset

namespace Investigation

open PyJson Response Transition

-- an investigation between its policy gate and its last action
structure AutoRun where
  gatedUnderKill : Bool
  actorLabel : String
  pending : List DecisionRecord

structure AutoExecution where
  time : Seconds
  run : Nat
  gatedUnderKill : Bool

structure System (σ : Type) where
  redis : Redis
  now : Seconds
  world : σ
  runs : Nat → Option AutoRun
  -- history: the actions executed so far
  executions : List AutoExecution

inductive SystemLabel where
  | setKillSwitch (enabled : Bool)
  | wait (seconds : Seconds)
  | gate (run : Nat) (state : InvestigationState)
  | execute (run : Nat)

def redisBreaker : CircuitBreaker :=
  { backend := .redis }

def maxActionsPerHour : Nat :=
  redisBreaker.maxActionsPerHour

def killSwitchOn (redis : Redis) : Bool :=
  redis.killSwitch = some "1"

def System.start {σ : Type} (redis : Redis) (now : Seconds) (world : σ) : System σ :=
  ⟨redis, now, world, fun _ => none, []⟩

section Steps

variable {σ : Type} (py : PyText) (modelValidate : ModelValidate) (executor : Executor σ)

def systemStep (s : System σ) : SystemLabel → Option (System σ)
  | .setKillSwitch enabled => some { s with redis := (redisBreaker.setKillSwitch s.redis enabled).2 }
  | .wait seconds => if 0 ≤ seconds then some { s with now := s.now + seconds } else none
  | .gate run state =>
      match s.runs run, policyGateNode py modelValidate (fun _ => s.now) s.redis state with
      | none, .ok decisions =>
          some { s with
            runs := Function.update s.runs run (some
              ⟨killSwitchOn s.redis, "investigation:" ++ state.investigationId, decisions⟩) }
      | _, _ => none
  | .execute run =>
      match s.runs run with
      | none => none
      | some ⟨_, _, []⟩ => some { s with runs := Function.update s.runs run none }
      | some ⟨gatedUnderKill, actorLabel, decision :: pending⟩ =>
          let e := executeDecision modelValidate executor actorLabel decision s.world
          some { s with
            world := e.world
            runs := Function.update s.runs run (some ⟨gatedUnderKill, actorLabel, pending⟩)
            executions := e.results.map (fun _ => ⟨s.now, run, gatedUnderKill⟩) ++ s.executions }

def KillSwitchRespected (s : System σ) : Prop :=
  ∀ e ∈ s.executions, e.gatedUnderKill = false

def inWindow (start time : Seconds) : Bool :=
  start ≤ time && time < start + 3600

def Capped (s : System σ) : Prop :=
  ∀ start, s.executions.countP (fun e => inWindow start e.time) ≤ maxActionsPerHour

def DecisionRecord.auto (decision : DecisionRecord) : Prop :=
  decision.allowed = true ∧ decision.requiresHumanApproval = false

instance : DecidablePred DecisionRecord.auto :=
  fun decision => inferInstanceAs
    (Decidable (decision.allowed = true ∧ decision.requiresHumanApproval = false))

def AutoEntry (state : InvestigationState) (context : InvestigationContext) (entry : Obj) : Prop :=
  ∃ action, modelValidate entry = .ok action ∧
    Response.Grounded py action (policyContext state context) ∧
    AutoTier action (policyContext state context)

def GatedOff (s : System σ) : SystemLabel → Prop
  | .gate _ state => killSwitchOn s.redis = true → ∀ context, state.context = some context →
      ∀ entry ∈ state.actionPlan, ¬ AutoEntry py modelValidate state context entry
  | _ => True

open Classical in
noncomputable def autoEntries (state : InvestigationState) : Nat :=
  match state.context with
  | none => 0
  | some context =>
      state.actionPlan.countP fun entry => AutoEntry py modelValidate state context entry

noncomputable def SystemLabel.planned (run : Nat) : SystemLabel → Nat
  | .gate run' state => if run' = run then autoEntries py modelValidate state else 0
  | _ => 0

noncomputable def planned (ls : List SystemLabel) (run : Nat) : Nat :=
  (ls.map (SystemLabel.planned py modelValidate run)).sum

def working (now : Seconds) : List SystemLabel → List (Seconds × Nat)
  | [] => []
  | .wait seconds :: ls => working (now + seconds) ls
  | .execute run :: ls => (now, run) :: working now ls
  | .setKillSwitch _ :: ls | .gate _ _ :: ls => working now ls

def workingIn (start now : Seconds) (ls : List SystemLabel) : Finset Nat :=
  (((working now ls).filter fun p => inWindow start p.1).map Prod.snd).toFinset

def Spread (now : Seconds) (ls : List SystemLabel) : Prop :=
  ∀ start, ∑ run ∈ workingIn start now ls, planned py modelValidate ls run ≤ maxActionsPerHour

structure KillInv (s : System σ) : Prop where
  kill : KillSwitchRespected s
  gated : ∀ run r, s.runs run = some r → r.gatedUnderKill = true →
    ∀ decision ∈ r.pending, ¬ decision.auto

variable {py modelValidate executor} {s s' : System σ}

theorem update_some {runs : Nat → Option AutoRun} {run run' : Nat} {o : Option AutoRun}
    {r : AutoRun} (h : Function.update runs run o run' = some r) :
    (run' = run ∧ o = some r) ∨ runs run' = some r := by
  rcases eq_or_ne run' run with rfl | hne
  · rw [Function.update_self] at h
    exact .inl ⟨rfl, h⟩
  · rw [Function.update_of_ne hne] at h
    exact .inr h

variable (modelValidate executor) in
theorem executeDecision_results (actorLabel : String) (decision : DecisionRecord) (world : σ) :
    (executeDecision modelValidate executor actorLabel decision world).results = [] ∨
      decision.auto ∧ ∃ result,
        (executeDecision modelValidate executor actorLabel decision world).results = [result] := by
  simp only [executeDecision]
  split
  · rename_i hauto
    have hauto' : decision.auto := ⟨hauto.1, by simpa using hauto.2⟩
    split
    · exact .inl rfl
    · split
      · exact .inr ⟨hauto', _, rfl⟩
      · exact .inl rfl
  · split
    · exact .inl rfl
    · exact .inl rfl

theorem decisionOf_auto {context : PolicyContext} {entry : Obj}
    (h : (decisionOf py modelValidate context entry).auto) :
    ∃ action, modelValidate entry = .ok action ∧ Response.Grounded py action context ∧
      AutoTier action context := by
  obtain ⟨action, hvalid, _, hg, hauto⟩ := decisionOf_allowed h.1
  exact ⟨action, hvalid, hg, hauto.mp h.2⟩

theorem killInv_gate {run : Nat} {state : InvestigationState} (hinv : KillInv s)
    (hok : GatedOff py modelValidate s (.gate run state))
    (hs : systemStep py modelValidate executor s (.gate run state) = some s') : KillInv s' := by
  simp only [systemStep] at hs
  split at hs
  · rename_i decisions _ hgate
    cases hs
    refine ⟨hinv.kill, fun run' r hr hkill decision hmem => ?_⟩
    rcases update_some hr with ⟨_, hr⟩ | hr
    · cases hr
      cases hcontext : state.context with
      | none =>
          rw [policyGateNode, hcontext] at hgate
          cases hgate
      | some context =>
          rw [policyGateNode_eq hcontext] at hgate
          cases hgate
          obtain ⟨entry, hentry, rfl⟩ := List.mem_map.mp hmem
          exact fun hauto => hok hkill context hcontext entry hentry (decisionOf_auto hauto)
    · exact hinv.gated run' r hr hkill decision hmem
  · cases hs

theorem killInv_execute {run : Nat} (hinv : KillInv s)
    (hs : systemStep py modelValidate executor s (.execute run) = some s') : KillInv s' := by
  simp only [systemStep] at hs
  split at hs
  · cases hs
  · cases hs
    refine ⟨hinv.kill, fun run' r hr => ?_⟩
    rcases update_some hr with ⟨_, hr⟩ | hr
    · cases hr
    · exact hinv.gated run' r hr
  · rename_i gatedUnderKill actorLabel decision pending hrun
    cases hs
    have hgated : ∀ run' r, Function.update s.runs run
        (some ⟨gatedUnderKill, actorLabel, pending⟩) run' = some r → r.gatedUnderKill = true →
          ∀ d ∈ r.pending, ¬ d.auto := by
      intro run' r hr hkill d hd
      rcases update_some hr with ⟨_, hr⟩ | hr
      · cases hr
        exact hinv.gated run _ hrun hkill d (List.mem_cons_of_mem _ hd)
      · exact hinv.gated run' r hr hkill d hd
    have hresults := executeDecision_results modelValidate executor actorLabel decision s.world
    rcases hresults with hnone | ⟨hauto, result, hone⟩
    · rw [hnone]
      exact ⟨hinv.kill, hgated⟩
    · rw [hone]
      have hkill : gatedUnderKill = false := by
        by_contra htrue
        exact hinv.gated run _ hrun (by simpa using htrue) decision List.mem_cons_self hauto
      refine ⟨fun e he => ?_, hgated⟩
      rcases List.mem_cons.mp he with rfl | hmem
      · exact hkill
      · exact hinv.kill e hmem

theorem killInv_step {l : SystemLabel} (hinv : KillInv s) (hok : GatedOff py modelValidate s l)
    (hs : systemStep py modelValidate executor s l = some s') : KillInv s' := by
  cases l with
  | setKillSwitch enabled =>
      cases hs
      exact ⟨hinv.kill, hinv.gated⟩
  | wait seconds =>
      simp only [systemStep] at hs
      split at hs
      · cases hs
        exact ⟨hinv.kill, hinv.gated⟩
      · cases hs
  | gate run state => exact killInv_gate hinv hok hs
  | execute run => exact killInv_execute hinv hs

end Steps

section Plans

variable {σ : Type} {py : PyText} {modelValidate : ModelValidate} {executor : Executor σ}
  {s s' : System σ} {now : Seconds} {ls : List SystemLabel}

def elapsed : List SystemLabel → Seconds
  | [] => 0
  | .wait seconds :: ls => seconds + elapsed ls
  | .execute _ :: ls | .setKillSwitch _ :: ls | .gate _ _ :: ls => elapsed ls

theorem elapsed_append (ls ls' : List SystemLabel) :
    elapsed (ls ++ ls') = elapsed ls + elapsed ls' := by
  induction ls with
  | nil => exact (zero_add _).symm
  | cons l ls ih =>
      cases l with
      | wait seconds =>
          simp only [List.cons_append, elapsed, ih]
          exact (add_assoc _ _ _).symm
      | setKillSwitch enabled => exact ih
      | gate run state => exact ih
      | execute run => exact ih

theorem working_append (now : Seconds) (ls ls' : List SystemLabel) :
    working now (ls ++ ls') = working now ls ++ working (now + elapsed ls) ls' := by
  induction ls generalizing now with
  | nil => simp only [List.nil_append, working, elapsed, add_zero]
  | cons l ls ih =>
      cases l with
      | wait seconds =>
          simp only [List.cons_append, working, elapsed, ih, add_assoc]
      | setKillSwitch enabled => exact ih now
      | gate run state => exact ih now
      | execute run => exact congrArg (List.cons (now, run)) (ih now)

theorem planned_append (ls ls' : List SystemLabel) (run : Nat) :
    planned py modelValidate (ls ++ ls') run =
      planned py modelValidate ls run + planned py modelValidate ls' run := by
  rw [planned, List.map_append, List.sum_append]
  rfl

def pendingAuto (s : System σ) (run : Nat) : Nat :=
  ((s.runs run).map fun r => r.pending.countP fun d => d.auto).getD 0

def executedBy (s : System σ) (run : Nat) : Nat :=
  s.executions.countP fun e => e.run = run

structure PlanInv (py : PyText) (modelValidate : ModelValidate) (now : Seconds)
    (ls : List SystemLabel) (s : System σ) : Prop where
  time : s.now = now + elapsed ls
  worked : ∀ e ∈ s.executions, (e.time, e.run) ∈ working now ls
  planned : ∀ run, executedBy s run + pendingAuto s run ≤ planned py modelValidate ls run

theorem pendingAuto_update {run : Nat} {r : Option AutoRun}
    (hruns : s'.runs = Function.update s.runs run r) (run' : Nat) :
    pendingAuto s' run' =
      if run' = run then (r.map fun r => r.pending.countP fun d => d.auto).getD 0
      else pendingAuto s run' := by
  unfold pendingAuto
  rw [hruns]
  by_cases hrun : run' = run
  · rw [if_pos hrun, hrun, Function.update_self]
  · rw [if_neg hrun, Function.update_of_ne hrun]

theorem autoEntries_gate {state : InvestigationState} {clock : Nat → Seconds} {redis : Redis}
    {decisions : List DecisionRecord}
    (h : policyGateNode py modelValidate clock redis state = .ok decisions) :
    (decisions.countP fun d => d.auto) ≤ autoEntries py modelValidate state := by
  classical
  cases hcontext : state.context with
  | none =>
      rw [policyGateNode, hcontext] at h
      cases h
  | some context =>
      rw [policyGateNode_eq hcontext] at h
      cases h
      simp only [autoEntries, hcontext, List.countP_map]
      refine List.countP_mono_left fun entry _ hauto => ?_
      exact decide_eq_true (decisionOf_auto (of_decide_eq_true hauto))

theorem planInv_gate {run : Nat} {state : InvestigationState}
    (hinv : PlanInv py modelValidate now ls s)
    (hs : systemStep py modelValidate executor s (.gate run state) = some s') :
    PlanInv py modelValidate now (ls ++ [.gate run state]) s' := by
  simp only [systemStep] at hs
  split at hs
  · rename_i decisions hnone hgate
    cases hs
    refine ⟨?_, fun e he => ?_, fun run' => ?_⟩
    · rw [elapsed_append]
      exact hinv.time.trans (congrArg (now + ·) (add_zero _).symm)
    · rw [working_append]
      exact List.mem_append_left _ (hinv.worked e he)
    · rw [planned_append, pendingAuto_update (s := s) rfl]
      have hbefore := hinv.planned run'
      change executedBy s run' + _ ≤ _
      by_cases hrun : run' = run
      · have hnew : planned py modelValidate [.gate run state] run' =
            autoEntries py modelValidate state := by
          simp [planned, SystemLabel.planned, hrun]
        have hdecisions := autoEntries_gate hgate
        rw [if_pos hrun, hnew]
        change _ + (decisions.countP fun d => d.auto) ≤ _
        omega
      · rw [if_neg hrun]
        omega
  · cases hs

theorem planInv_execute {run : Nat} (hinv : PlanInv py modelValidate now ls s)
    (hs : systemStep py modelValidate executor s (.execute run) = some s') :
    PlanInv py modelValidate now (ls ++ [.execute run]) s' := by
  have hwork : working now (ls ++ [.execute run]) = working now ls ++ [(s.now, run)] := by
    rw [working_append, hinv.time]
    rfl
  have htime : s.now = now + elapsed (ls ++ [.execute run]) := by
    rw [elapsed_append]
    exact hinv.time.trans (congrArg (now + ·) (add_zero _).symm)
  have hplan : ∀ run', planned py modelValidate (ls ++ [.execute run]) run' =
      planned py modelValidate ls run' := by
    intro run'
    rw [planned_append]
    rfl
  simp only [systemStep] at hs
  split at hs
  · cases hs
  · cases hs
    refine ⟨htime, fun e he => ?_, fun run' => ?_⟩
    · rw [hwork]
      exact List.mem_append_left _ (hinv.worked e he)
    · rw [hplan, pendingAuto_update (s := s) rfl]
      have hbefore := hinv.planned run'
      change executedBy s run' + _ ≤ _
      split
      · exact Nat.le_trans (Nat.add_le_add_left (Nat.zero_le _) _) hbefore
      · exact hbefore
  · rename_i gatedUnderKill actorLabel decision pending hrun
    cases hs
    have hpending : pendingAuto s run =
        (pending.countP fun d => d.auto) + if decision.auto then 1 else 0 := by
      rw [pendingAuto, hrun, Option.map_some, Option.getD_some, List.countP_cons]
      simp
    have hresults := executeDecision_results modelValidate executor actorLabel decision s.world
    refine ⟨htime, fun e he => ?_, fun run' => ?_⟩
    · rw [hwork]
      rcases List.mem_append.mp he with hnew | hold
      · obtain ⟨_, _, rfl⟩ := List.mem_map.mp hnew
        exact List.mem_append_right _ List.mem_cons_self
      · exact List.mem_append_left _ (hinv.worked e hold)
    · rw [hplan, pendingAuto_update (s := s) rfl]
      have hbefore := hinv.planned run'
      rcases hresults with hnone | ⟨hauto, result, hone⟩
      · simp only [executedBy, hnone, List.map_nil, List.nil_append] at hbefore ⊢
        by_cases hsame : run' = run
        · subst hsame
          rw [if_pos rfl]
          change _ + (pending.countP fun d => d.auto) ≤ _
          omega
        · rw [if_neg hsame]
          exact hbefore
      · simp only [executedBy, hone, List.map_cons, List.map_nil, List.cons_append,
          List.nil_append, List.countP_cons, decide_eq_true_eq] at hbefore ⊢
        by_cases hsame : run' = run
        · subst hsame
          rw [if_pos hauto] at hpending
          rw [if_pos rfl, if_pos rfl]
          change _ + 1 + (pending.countP fun d => d.auto) ≤ _
          omega
        · rw [if_neg hsame, if_neg (Ne.symm hsame)]
          exact hbefore

theorem planInv_step {l : SystemLabel} (hinv : PlanInv py modelValidate now ls s)
    (hs : systemStep py modelValidate executor s l = some s') :
    PlanInv py modelValidate now (ls ++ [l]) s' := by
  cases l with
  | setKillSwitch enabled =>
      cases hs
      refine ⟨?_, fun e he => ?_, fun run' => ?_⟩
      · rw [elapsed_append]
        exact hinv.time.trans (congrArg (now + ·) (add_zero _).symm)
      · rw [working_append]
        exact List.mem_append_left _ (hinv.worked e he)
      · rw [planned_append]
        exact Nat.le_add_right_of_le (hinv.planned run')
  | wait seconds =>
      simp only [systemStep] at hs
      split at hs
      · cases hs
        refine ⟨?_, fun e he => ?_, fun run' => ?_⟩
        · rw [elapsed_append]
          change s.now + seconds = now + (elapsed ls + (seconds + 0))
          rw [hinv.time, add_zero, add_assoc]
        · rw [working_append]
          exact List.mem_append_left _ (hinv.worked e he)
        · rw [planned_append]
          exact Nat.le_add_right_of_le (hinv.planned run')
      · cases hs
  | gate run state => exact planInv_gate hinv hs
  | execute run => exact planInv_execute hinv hs

theorem capped_of_spread (hinv : PlanInv py modelValidate now ls s)
    (hspread : Spread py modelValidate now ls) : Capped s := by
  intro start
  let runs := (s.executions.filter fun e => inWindow start e.time).map (·.run)
  have hsub : runs.toFinset ⊆ workingIn start now ls := by
    intro run hrun
    obtain ⟨e, he, rfl⟩ := List.mem_map.mp (List.mem_toFinset.mp hrun)
    obtain ⟨hmem, hin⟩ := List.mem_filter.mp he
    exact List.mem_toFinset.mpr (List.mem_map.mpr
      ⟨_, List.mem_filter.mpr ⟨hinv.worked e hmem, hin⟩, rfl⟩)
  have hcount : ∀ run, runs.count run ≤ planned py modelValidate ls run := by
    intro run
    have hall : runs.count run ≤ executedBy s run := by
      have hsublist : runs.Sublist (s.executions.map (·.run)) := List.filter_sublist.map _
      refine Nat.le_trans (hsublist.count_le run) (Nat.le_of_eq ?_)
      rw [List.count, List.countP_map, executedBy]
      rfl
    have hplan := hinv.planned run
    omega
  calc s.executions.countP (fun e => inWindow start e.time)
      = runs.length := by rw [List.countP_eq_length_filter, List.length_map]
    _ = ∑ run ∈ runs.toFinset, runs.count run := (List.sum_toFinset_count_eq_length runs).symm
    _ ≤ ∑ run ∈ runs.toFinset, planned py modelValidate ls run :=
        Finset.sum_le_sum fun run _ => hcount run
    _ ≤ ∑ run ∈ workingIn start now ls, planned py modelValidate ls run :=
        Finset.sum_le_sum_of_subset hsub
    _ ≤ maxActionsPerHour := hspread start

theorem breaker_binds_of_disciplined (py : PyText) (modelValidate : ModelValidate)
    (executor : Executor σ) (redis : Redis) (now : Seconds) (world : σ) {s : System σ}
    {ls : List SystemLabel}
    (hrun : execAll (systemStep py modelValidate executor) (System.start redis now world) ls =
      some s)
    (hkill : Along (systemStep py modelValidate executor) (GatedOff py modelValidate)
      (System.start redis now world) ls)
    (hspread : Spread py modelValidate now ls) : KillSwitchRespected s ∧ Capped s := by
  have hkillInv : KillInv s := (run_of_along hkill hrun).invariant
    (fun _ _ _ hi hok hs => killInv_step hi hok hs) ⟨nofun, nofun⟩
  have hplanInv : PlanInv py modelValidate now ls s :=
    trace_invariant ⟨(add_zero now).symm, nofun, fun _ => Nat.zero_le _⟩
      (fun _ _ _ _ hi hs => planInv_step hi hs) hrun
  exact ⟨hkillInv.kill, capped_of_spread hplanInv hspread⟩

end Plans

section Traces

def phishingStart : System World :=
  System.start ⟨true, none, {}, {}⟩ 0 ⟨[], [], [], []⟩

def phishingStep : System World → SystemLabel → Option (System World) :=
  systemStep asciiText strictValidate phishingExecutor

def phishingTrace : List SystemLabel :=
  [.gate 0 phishingState, .execute 0, .setKillSwitch true]

theorem breaker_binds_phishing :
    ∃ s, execAll phishingStep phishingStart phishingTrace = some s ∧
      s.executions.length = 1 ∧ KillSwitchRespected s ∧ Capped s := by
  have hlength : (execAll phishingStep phishingStart phishingTrace).map (·.executions.length) =
      some 1 := by
    decide +kernel
  obtain ⟨s, hs, hone⟩ := Option.map_eq_some_iff.mp hlength
  have hkill : Along phishingStep (GatedOff asciiText strictValidate) phishingStart
      phishingTrace := by
    refine ⟨fun hon => absurd hon (by decide), fun _ _ => ⟨trivial, fun _ _ => ⟨trivial, ?_⟩⟩⟩
    exact fun _ _ => trivial
  have hplan : ∀ run, planned asciiText strictValidate phishingTrace run ≤ 4 := by
    intro run
    have hentries : autoEntries asciiText strictValidate phishingState ≤ 4 :=
      List.countP_le_length
    simp only [planned, phishingTrace, List.map_cons, List.map_nil, SystemLabel.planned,
      List.sum_cons, List.sum_nil]
    split
    · exact hentries
    · exact Nat.zero_le 4
  have hspread : Spread asciiText strictValidate 0 phishingTrace := by
    intro start
    have hruns : workingIn start 0 phishingTrace ⊆ {0} := by
      intro run hrun
      obtain ⟨p, hp, rfl⟩ := List.mem_map.mp (List.mem_toFinset.mp hrun)
      obtain rfl := List.mem_singleton.mp (List.mem_filter.mp hp).1
      exact Finset.mem_singleton_self 0
    refine Nat.le_trans (Finset.sum_le_sum_of_subset hruns) ?_
    rw [Finset.sum_singleton]
    exact Nat.le_trans (hplan 0) (by decide)
  exact ⟨s, hs, hone, breaker_binds_of_disciplined _ _ _ _ _ _ hs hkill hspread⟩

def elevenState : InvestigationState :=
  { phishingState with
    recommendationSet := phishingState.recommendationSet.map fun r =>
      { r with actionPlan := List.replicate 11 (planEntry "block_ip" "203.0.113.7") } }

def elevenTrace : List SystemLabel :=
  .gate 0 elevenState :: List.replicate 11 (.execute 0)

def killTrace : List SystemLabel :=
  [.setKillSwitch true, .gate 0 elevenState, .execute 0]

theorem eleven_in_one_hour :
    ∃ s, Run phishingStep anyStep phishingStart s ∧ ¬ Capped s := by
  have hcount : (execAll phishingStep phishingStart elevenTrace).map
      (fun s => s.executions.countP fun e => inWindow 0 e.time) = some 11 := by
    decide +kernel
  obtain ⟨s, hs, heleven⟩ := Option.map_eq_some_iff.mp hcount
  refine ⟨s, run_of_execAll hs, fun hcap => ?_⟩
  have hle := hcap 0
  rw [heleven] at hle
  exact absurd hle (by decide)

theorem executed_under_kill_switch :
    ∃ s, Run phishingStep anyStep phishingStart s ∧ ¬ KillSwitchRespected s := by
  have hkilled : (execAll phishingStep phishingStart killTrace).map
      (fun s => s.executions.map (·.gatedUnderKill)) = some [true] := by
    decide
  obtain ⟨s, hs, hlog⟩ := Option.map_eq_some_iff.mp hkilled
  refine ⟨s, run_of_execAll hs, fun hrespected => ?_⟩
  obtain ⟨e, hmem, hkill⟩ : ∃ e ∈ s.executions, e.gatedUnderKill = true := by
    have htrue : true ∈ s.executions.map (·.gatedUnderKill) := by simp [hlog]
    exact List.mem_map.mp htrue
  rw [hrespected e hmem] at hkill
  cases hkill

theorem breaker_does_not_bind :
    (∃ s, Run phishingStep anyStep phishingStart s ∧ ¬ KillSwitchRespected s) ∧
      (∃ s, Run phishingStep anyStep phishingStart s ∧ ¬ Capped s) ∧
      ¬ ∀ s, Run phishingStep anyStep phishingStart s → KillSwitchRespected s ∧ Capped s := by
  refine ⟨executed_under_kill_switch, eleven_in_one_hour, fun h => ?_⟩
  obtain ⟨s, hrun, hnot⟩ := executed_under_kill_switch
  exact hnot (h s hrun).1

end Traces

end Investigation
