import AiSoc.Jobs.Reachable
import Mathlib.Data.List.Perm.Basic

namespace Jobs

open Permissions (Uuid Timestamp)
open PyJson (Json)
open RowStore Process AdvisoryLock

section Pushes

variable {env : Env} {t : Nat} {id : Uuid} {s s' : State (machine env)}

def pushesNext (p : Option (Proc Outcome)) : Option Uuid :=
  match p with
  | some (.stmt (.rpush id) _) => some id
  | _ => none

theorem pushing_of_duty {φ : Phase} {db : Db} (hφ : φ.holds env t db)
    (hd : db.history.duty t = some (.pushing id)) : ∃ context, φ = .pushing context id := by
  cases φ with
  | pushing context id' =>
      have hsame := hφ.2.1.duty.symm.trans hd
      cases hsame
      exact ⟨context, rfl⟩
  | written kind id' =>
      have hsame := hφ.1.duty.symm.trans hd
      cases kind <;> cases hsame
  | idle | popped =>
      have hsame := hφ.2.duty.symm.trans hd
      cases hsame
  | locked | absent | found | created | handling | answered | working | failing | finished =>
      have hsame := hφ.2.1.duty.symm.trans hd
      cases hsame

theorem pushes_of_follows {context : Context} {p : Proc Outcome}
    (h : (typestate env).Follows (Phase.pushing context id) p (Answers env)) :
    pushesNext (some p) = some id := by
  cases p with
  | done out =>
      cases out with
      | investigation =>
          obtain ⟨_, _, heq⟩ := h
          cases heq
      | notFound | disabled | queueError | processed | waited => cases h
  | stmt q k =>
      obtain ⟨hallowed, _⟩ := h
      cases q with
      | rpush id' =>
          obtain ⟨_, heq⟩ := hallowed
          cases heq
          rfl
      | fail =>
          rcases hallowed with ⟨_, heq, _⟩ | heq <;> cases heq
      | create | requeue | complete =>
          obtain ⟨heq, _⟩ := hallowed
          cases heq
      | acquireContextLock | findForContext | claim | get | checkpointContext | blpop | build =>
          cases hallowed
      | aclose =>
          obtain ⟨_, heq⟩ := hallowed
          cases heq
      | now | uuid4 | getIncident | evidenceIds | redeliver | analyse | persisted | commit |
          rollback => exact hallowed.elim

theorem pushesNext_of_duty (hg : (typestate env).GoodTo (Answers env) s)
    (hd : s.db.history.duty t = some (.pushing id)) : pushesNext (s.procs t) = some id := by
  have hsafe := hg.2 t
  cases hp : s.procs t with
  | none =>
      rw [hp] at hsafe
      have hidle : Phase.idle.holds env t s.db := hsafe
      obtain ⟨context, heq⟩ := pushing_of_duty hidle hd
      cases heq
  | some p =>
      rw [hp] at hsafe
      obtain ⟨φ, hφ, hfollows⟩ := hsafe
      obtain ⟨context, rfl⟩ := pushing_of_duty hφ hd
      exact pushes_of_follows hfollows

def Delivers (s : State (machine env)) : Label (machine env) → Prop
  | .stop t => pushesNext (s.procs t) = none
  | _ => True

def NoLostPush (h : History) : Prop :=
  ∀ t id, (t, Duty.pushing id) ∉ h.lost

theorem noLostPush_step {l : Label (machine env)} (hg : (typestate env).GoodTo (Answers env) s)
    (hlost : NoLostPush s.db.history) (hok : Delivers s l) (h : step s l = some s') :
    NoLostPush s'.db.history := by
  cases l with
  | start t c =>
      obtain ⟨_, rfl⟩ := step_start h
      exact hlost
  | exec t c =>
      obtain ⟨q, k, r, db, _, hr, rfl⟩ := step_exec h
      have hsame : db.history.lost = s.db.history.lost := (exec_losses hr).1
      intro u id
      rw [hsame]
      exact hlost u id
  | stop t =>
      obtain rfl := step_stop h
      intro u id hmem
      change (u, Duty.pushing id) ∈ (s.db.history.close t (strands s.db t)).lost at hmem
      unfold History.close at hmem
      split at hmem
      · rename_i duty hd
        rcases List.mem_cons.mp hmem with heq | hmem
        · obtain ⟨rfl, rfl⟩ := Prod.mk.inj heq
          have hnext := pushesNext_of_duty hg hd
          rw [hok] at hnext
          cases hnext
        · exact hlost u id hmem
      · exact hlost u id hmem

theorem reachable_of_delivers {queue : List Uuid}
    (h : Run Delivers (State.initial (Db.start queue)) s) :
    (typestate env).GoodTo (Answers env) s ∧ NoLostPush s.db.history := by
  refine h.invariant (P := fun s => (typestate env).GoodTo (Answers env) s ∧
    NoLostPush s.db.history) ?_ ?_
  · intro s l s' ⟨hg, hlost⟩ hok hs
    refine ⟨?_, noLostPush_step hg hlost hok hs⟩
    exact Typestate.goodTo_step (typestate_sound env) (body_promises env) hg
      Typestate.stmtOk_true hs
  · exact ⟨⟨inv_start env queue, fun t => idle_start env t queue⟩, fun _ _ hmem => by cases hmem⟩

end Pushes

section Counting

theorem countFor_congr {id : Uuid} {l l' : List (Nat × Uuid)}
    (h : ∀ t, l.count (t, id) = l'.count (t, id)) : countFor id l = countFor id l' := by
  have hperm : (l.filter fun p => p.2 = id).Perm (l'.filter fun p => p.2 = id) := by
    refine List.perm_iff_count.mpr fun ⟨t, id'⟩ => ?_
    by_cases hid : id' = id
    · subst hid
      rw [List.count_filter (by simp), List.count_filter (by simp)]
      exact h t
    · rw [List.count_eq_zero_of_not_mem (by simp [hid]),
        List.count_eq_zero_of_not_mem (by simp [hid])]
  rw [countFor, countFor, List.countP_eq_length_filter, List.countP_eq_length_filter]
  exact hperm.length_eq

end Counting

section Idempotence

variable {env : Env} {s : State (machine env)} {queue : List Uuid}

theorem one_row (hg : (typestate env).GoodTo (Answers env) s) {id id' : Uuid} {job job' : Job}
    (hc : s.db.jobs.committed id = some job) (hc' : s.db.jobs.committed id' = some job')
    (hctx : job.context = job'.context) : id = id' :=
  hg.1.unique id id' job job' (.inl hc) (.inl hc') hctx

theorem answered_row (hg : (typestate env).GoodTo (Answers env) s) {t : Nat}
    {incidentId : Uuid} {response : Job}
    (hp : s.procs t = some (.done (.investigation incidentId response))) :
    ∃ context job, contextOf env incidentId = some context ∧
      s.db.jobs.committed response.id = some job ∧ job.context = context := by
  have hsafe := hg.2 t
  rw [hp] at hsafe
  obtain ⟨φ, hφ, context, hcontext, rfl⟩ := hsafe
  obtain ⟨_, _, job, hc, hctx⟩ := hφ
  exact ⟨context, job, hcontext, hc, hctx⟩

theorem enqueued_once (hg : (typestate env).GoodTo (Answers env) s)
    (hlost : NoLostPush s.db.history) {id : Uuid}
    (hidle : ∀ t, pushesNext (s.procs t) ≠ some id) :
    countFor id s.db.history.enqueues = countFor id s.db.history.queuings := by
  refine countFor_congr fun t => ?_
  obtain ⟨φ, hφ⟩ := (hg.2 t).holds
  obtain ⟨task, waiting, hb⟩ := hφ.books
  have howed : owed task id = 0 := by
    unfold owed
    split
    · rename_i id' id''
      refine if_neg fun hid => ?_
      subst hid
      exact hidle t (pushesNext_of_duty hg hb.duty)
    · rfl
  have hcount := hb.pushes id
  rw [howed, List.count_eq_zero_of_not_mem (hlost t id)] at hcount
  omega

theorem requests_idempotent (env : Env) (queue : List Uuid) (s : State (machine env))
    (h : Run Delivers (State.initial (Db.start queue)) s) :
    (∀ context, {id | ∃ job, s.db.jobs.committed id = some job ∧
      job.context = context}.Subsingleton) ∧
    (∀ t incidentId response,
      s.procs t = some (.done (.investigation incidentId response)) →
        ∃ context job, contextOf env incidentId = some context ∧
          s.db.jobs.committed response.id = some job ∧ job.context = context) ∧
    ∀ id, (∀ t, pushesNext (s.procs t) ≠ some id) →
      countFor id s.db.history.enqueues = countFor id s.db.history.queuings := by
  obtain ⟨hg, hlost⟩ := reachable_of_delivers h
  refine ⟨?_, fun t incidentId response => answered_row hg, fun id => enqueued_once hg hlost⟩
  rintro context id ⟨job, hc, hctx⟩ id' ⟨job', hc', hctx'⟩
  exact one_row hg hc hc' (hctx.trans hctx'.symm)

def uninterrupted (_ : State (machine demoEnv)) : Label (machine demoEnv) → Bool
  | .stop _ => false
  | _ => true

theorem delivers_of_uninterrupted {s : State (machine demoEnv)} {l : Label (machine demoEnv)}
    (h : uninterrupted s l = true) : Delivers s l := by
  cases l with
  | stop t => cases h
  | start | exec => exact trivial

def twoRequests : List (Label (machine demoEnv)) :=
  [.start 1 (.request 7), .start 2 (.request 7),
    .exec 1 .auto, .exec 1 .auto, .exec 1 .auto, .exec 2 .auto, .exec 2 .auto,
    .exec 1 .auto, .exec 1 .auto, .exec 1 (.time 3), .exec 1 .auto, .exec 1 .auto,
    .exec 2 .auto, .exec 2 .auto, .exec 1 .auto, .exec 2 .auto]

theorem twoRequests_idempotent : ∃ (s : State (machine demoEnv)) (first second : Job),
    Run Delivers (State.initial (Db.start [])) s ∧
    s.procs 1 = some (.done (.investigation 7 first)) ∧
    s.procs 2 = some (.done (.investigation 7 second)) ∧
    first.id = second.id ∧ s.db.queue = [first.id] ∧
    (∃ job, s.db.jobs.committed first.id = some job) ∧
    ∀ id, (∀ t, pushesNext (s.procs t) ≠ some id) →
      countFor id s.db.history.enqueues = countFor id s.db.history.queuings := by
  obtain ⟨s, first, second, hs, h1, h2, hid, hqueue⟩ :
      ∃ (s : State (machine demoEnv)) (first second : Job),
        Transition.execWhile step uninterrupted (State.initial (Db.start [])) twoRequests = some s ∧
        s.procs 1 = some (.done (.investigation 7 first)) ∧
        s.procs 2 = some (.done (.investigation 7 second)) ∧
        first.id = second.id ∧ s.db.queue = [first.id] :=
    ⟨_, _, _, rfl, rfl, rfl, rfl, rfl⟩
  have hrun : Run Delivers (State.initial (Db.start [])) s :=
    (Transition.run_of_execWhile hs).mono fun _ _ => delivers_of_uninterrupted
  obtain ⟨_, hrows, hcounts⟩ := requests_idempotent demoEnv [] s hrun
  obtain ⟨context, job, _, hc, _⟩ := hrows 1 7 first h1
  exact ⟨s, first, second, hrun, h1, h2, hid, hqueue, ⟨job, hc⟩, hcounts⟩

end Idempotence

end Jobs
