import AiSoc.Jobs.Idempotence

namespace Jobs

open Permissions (Uuid Timestamp)
open PyJson (Json)
open RowStore Process AdvisoryLock

section Guard

variable {env : Env} {t u : Nat} {id : Uuid} {job : Job} {s s' : State (machine env)}

def HandlesUnclaimed (s : State (machine env)) : Label (machine env) → Prop
  | .exec t _ => ∀ loaded failure now k,
      s.procs t = some (.stmt (.fail loaded failure now) k) → loaded.status = "queued" →
        (s.db.jobs.view t loaded.id).any isClaimed = false
  | _ => True

theorem overruns_unclaimed {db : Db} (h : (db.jobs.view t id).any isClaimed = false) :
    overruns db t id = false := by
  unfold overruns
  split
  · exact h
  · rfl

theorem overruns_working {db : Db} {id' : Uuid} (h : db.history.duty t = some (.working id')) :
    overruns db t id = false := by
  simp only [overruns, h]

theorem overrun_close (h : History) (t : Nat) (strands : Uuid → Bool) :
    (h.close t strands).overrun = h.overrun := by
  unfold History.close
  split <;> rfl

theorem overrun_step {l : Label (machine env)} (hg : (typestate env).GoodTo (Answers env) s)
    (hok : HandlesUnclaimed s l) (h : step s l = some s') :
    s'.db.history.overrun = s.db.history.overrun := by
  cases l with
  | start t c =>
      obtain ⟨_, rfl⟩ := step_start h
      rfl
  | stop t =>
      obtain rfl := step_stop h
      exact overrun_close s.db.history t _
  | exec t c =>
      obtain ⟨q, k, r, db, hp, hr, rfl⟩ := step_exec h
      refine (exec_losses hr).2.2 ?_
      rintro loaded failure now rfl
      have hsafe := hg.2 t
      rw [hp] at hsafe
      obtain ⟨φ, hφ, hallowed, _⟩ := hsafe
      rcases hallowed with ⟨context, _, hqueued⟩ | rfl
      · exact overruns_unclaimed (hok loaded failure now k hp hqueued)
      · exact overruns_working hφ.2.1.duty

end Guard

section Completed

variable {env : Env} {t u : Nat} {id : Uuid} {job : Job} {s s' : State (machine env)}

theorem unlocked_of_completed (hg : (typestate env).GoodTo (Answers env) s)
    (hfresh : id ∉ s.db.history.overrun) (hc : s.db.jobs.committed id = some job)
    (hs : job.status = "completed") : s.db.jobs.NoLocks u ∨
      ∃ id', id' ≠ id ∧ ∀ j job', s.db.jobs.lock j = some (u, job') → j = id' := by
  obtain ⟨φ, hφ⟩ := (hg.2 u).holds
  cases φ with
  | idle | popped => exact .inl hφ.1
  | locked | absent | found | pushing | handling | answered | working | failing | finished =>
      exact .inl hφ.1
  | created new =>
      obtain ⟨ho, _, _, hnone, _, _⟩ := hφ
      refine .inr ⟨new.id, ?_, ho.only⟩
      rintro rfl
      rw [hnone] at hc
      cases hc
  | written kind id' =>
      obtain ⟨_, stored, hstored, new, ho, hchange⟩ := hφ
      refine .inr ⟨id', ?_, ho.only⟩
      rintro rfl
      obtain rfl : stored = job := Option.some.inj (hstored.symm.trans hc)
      have howner : ¬ Owner u id' stored s.db.history := by
        intro howner
        have hr := (howner hfresh).2
        rw [hs] at hr
        exact absurd hr (by decide)
      cases kind with
      | requeue context =>
          have hfailed := hchange.2.2.2.2.1 hfresh
          rw [hs] at hfailed
          exact absurd hfailed (by decide)
      | handle =>
          have hunclaimed := hchange.2.1 hfresh
          simp [isClaimed, hs] at hunclaimed
      | claim =>
          have hq := hchange.1
          rw [hs] at hq
          exact absurd hq (by decide)
      | checkpoint | complete | fail => exact howner hchange.2.1

theorem completed_step {l : Label (machine env)} (hg : (typestate env).GoodTo (Answers env) s)
    (hfresh : id ∉ s.db.history.overrun) (hc : s.db.jobs.committed id = some job)
    (hs : job.status = "completed") (h : step s l = some s') :
    s'.db.jobs.committed id = some job := by
  cases l with
  | start t c =>
      obtain ⟨_, rfl⟩ := step_start h
      exact hc
  | stop t =>
      obtain rfl := step_stop h
      exact hc
  | exec t c =>
      obtain ⟨q, k, r, db, hp, hr, rfl⟩ := step_exec h
      have hfree : ∀ job', s.db.jobs.lock id ≠ some (t, job') := by
        intro job' hl
        rcases unlocked_of_completed (u := t) hg hfresh hc hs with hn | ⟨id', hne, honly⟩
        · exact hn id job' hl
        · exact hne (honly id job' hl).symm
      have hsafe := hg.2 t
      rw [hp] at hsafe
      obtain ⟨φ, hφ, hallowed, _⟩ := hsafe
      rcases exec_committed hg.1 hφ hallowed hr with hsame | ⟨_, _, rfl⟩
      · exact (congrFun hsame id).trans hc
      · exact (Table.commit_committed_of_not_held hfree).trans hc

theorem calm_step {l : Label (machine env)}
    (h : (typestate env).GoodTo (Answers env) s ∧ s.db.history.overrun = [])
    (hok : HandlesUnclaimed s l) (hs : step s l = some s') :
    (typestate env).GoodTo (Answers env) s' ∧ s'.db.history.overrun = [] :=
  ⟨Typestate.goodTo_step (typestate_sound env) (body_promises env) h.1 Typestate.stmtOk_true hs,
    (overrun_step h.1 hok hs).trans h.2⟩

theorem completed_of_run (hcalm : (typestate env).GoodTo (Answers env) s ∧
      s.db.history.overrun = [])
    (hc : s.db.jobs.committed id = some job) (hs : job.status = "completed")
    (h : Run HandlesUnclaimed s s') : s'.db.jobs.committed id = some job := by
  have hall := h.invariant (P := fun s => ((typestate env).GoodTo (Answers env) s ∧
    s.db.history.overrun = []) ∧ s.db.jobs.committed id = some job) ?_ ⟨hcalm, hc⟩
  · exact hall.2
  · intro s l s' ⟨hcalm, hc⟩ hok hstep
    exact ⟨calm_step hcalm hok hstep,
      completed_step hcalm.1 (by rw [hcalm.2]; exact List.not_mem_nil) hc hs hstep⟩

theorem runs_le_claims (hg : (typestate env).GoodTo (Answers env) s) (t : Nat) (id : Uuid) :
    s.db.history.runs.count (t, id) ≤ s.db.history.claims.count (t, id) := by
  obtain ⟨φ, hφ⟩ := (hg.2 t).holds
  obtain ⟨_, _, hb⟩ := hφ.books
  have hstarts := hb.starts id
  omega

theorem attemptCount_eq_claims (hg : (typestate env).GoodTo (Answers env) s)
    (hc : s.db.jobs.committed id = some job) :
    job.attemptCount = countFor id s.db.history.claims := by
  have hattempts := hg.1.attempts id
  rw [hc] at hattempts
  exact hattempts.symm

theorem finished_stays_finished (env : Env) (queue : List Uuid) (s s' : State (machine env))
    (h : Run HandlesUnclaimed (State.initial (Db.start queue)) s)
    (h' : Run HandlesUnclaimed s s') :
    (∀ t id, s'.db.history.runs.count (t, id) ≤ s'.db.history.claims.count (t, id)) ∧
    (∀ id job, s'.db.jobs.committed id = some job →
      job.attemptCount = countFor id s'.db.history.claims) ∧
    ∀ id job, s.db.jobs.committed id = some job → job.status = "completed" →
      s'.db.jobs.committed id = some job := by
  have hcalm : (typestate env).GoodTo (Answers env) s ∧ s.db.history.overrun = [] := by
    refine h.invariant (fun _ _ _ hcalm hok hs => calm_step hcalm hok hs) ?_
    exact ⟨⟨inv_start env queue, fun t => idle_start env t queue⟩, rfl⟩
  have hcalm' := h'.invariant (fun _ _ _ hcalm hok hs => calm_step hcalm hok hs) hcalm
  exact ⟨runs_le_claims hcalm'.1, fun id job => attemptCount_eq_claims hcalm'.1,
    fun id job hc hs => completed_of_run hcalm hc hs h'⟩

end Completed

section Traces

open Transition (anyStep execAll execWhile run_of_execAll run_of_execWhile)

def findsUnclaimed (s : State (machine demoEnv)) : Label (machine demoEnv) → Bool
  | .exec t _ =>
      match s.procs t with
      | some (.stmt (.fail loaded _ _) _) =>
          loaded.status != "queued" || !(s.db.jobs.view t loaded.id).any isClaimed
      | _ => true
  | _ => true

theorem handlesUnclaimed_of_finds {s : State (machine demoEnv)} {l : Label (machine demoEnv)}
    (h : findsUnclaimed s l = true) : HandlesUnclaimed s l := by
  cases l with
  | start | stop => exact trivial
  | exec t c =>
      intro loaded failure now k hp hqueued
      simpa [findsUnclaimed, hp, hqueued] using h

def requested (push : Choice) : List (Label (machine demoEnv)) :=
  [.start 1 (.request 7), .exec 1 .auto, .exec 1 .auto, .exec 1 .auto, .exec 1 .auto,
    .exec 1 .auto, .exec 1 (.time 1), .exec 1 .auto, .exec 1 .auto, .exec 1 push]

def worked : List (Label (machine demoEnv)) :=
  [.start 2 .worker, .exec 2 .auto, .exec 2 (.time 2), .exec 2 .auto, .exec 2 .auto,
    .exec 2 (.snapshot .null), .exec 2 (.time 3), .exec 2 .auto, .exec 2 .auto,
    .exec 2 (.completion ⟨.null, [], 0, 0⟩), .exec 2 (.time 4), .exec 2 .auto, .exec 2 .auto,
    .exec 2 .auto, .exec 2 .auto]

def redelivered : List (Label (machine demoEnv)) :=
  [.start 3 (.redeliver 0), .exec 3 .auto, .start 4 .worker, .exec 4 .auto, .exec 4 (.time 5),
    .exec 4 .auto, .exec 4 .auto]

theorem redelivered_stays_finished : ∃ (s s' : State (machine demoEnv)) (job : Job),
    execWhile step findsUnclaimed (State.initial (Db.start [])) (requested .auto ++ worked) =
      some s ∧
    execWhile step findsUnclaimed s redelivered = some s' ∧
    s.db.jobs.committed 0 = some job ∧ job.status = "completed" ∧
    s'.db.jobs.committed 0 = some job ∧
    job.attemptCount = countFor 0 s'.db.history.claims := by
  obtain ⟨s, s', job, hs, hs', hc, hstatus⟩ :
      ∃ (s s' : State (machine demoEnv)) (job : Job),
        execWhile step findsUnclaimed (State.initial (Db.start [])) (requested .auto ++ worked) =
          some s ∧
        execWhile step findsUnclaimed s redelivered = some s' ∧
        s.db.jobs.committed 0 = some job ∧ job.status = "completed" :=
    ⟨_, _, _, rfl, rfl, rfl, rfl⟩
  have hrun := (run_of_execWhile hs).mono fun _ _ => handlesUnclaimed_of_finds
  have hrun' := (run_of_execWhile hs').mono fun _ _ => handlesUnclaimed_of_finds
  obtain ⟨_, hattempts, hstays⟩ := finished_stays_finished demoEnv [] s s' hrun hrun'
  have hc' := hstays 0 job hc hstatus
  exact ⟨s, s', job, hs, hs', hc, hstatus, hc', hattempts 0 job hc'⟩

def handledLate : List (Label (machine demoEnv)) :=
  [.exec 1 (.time 5), .exec 1 .auto, .exec 1 .auto]

theorem late_handler_fails_completed : ∃ (s s' : State (machine demoEnv)) (job job' : Job),
    Run anyStep (State.initial (Db.start [])) s ∧ Run anyStep s s' ∧
    s.db.jobs.committed 0 = some job ∧ job.status = "completed" ∧
    s'.db.jobs.committed 0 = some job' ∧ job'.status = "failed" := by
  obtain ⟨s, s', job, job', hs, hs', hc, hstatus, hc', hstatus'⟩ :
      ∃ (s s' : State (machine demoEnv)) (job job' : Job),
        execAll step (State.initial (Db.start [])) (requested (.pushRaises true "") ++ worked) =
          some s ∧
        execAll step s handledLate = some s' ∧
        s.db.jobs.committed 0 = some job ∧ job.status = "completed" ∧
        s'.db.jobs.committed 0 = some job' ∧ job'.status = "failed" :=
    ⟨_, _, _, _, rfl, rfl, rfl, rfl, rfl, rfl⟩
  exact ⟨s, s', job, job', run_of_execAll hs, run_of_execAll hs', hc, hstatus, hc', hstatus'⟩

end Traces

end Jobs
