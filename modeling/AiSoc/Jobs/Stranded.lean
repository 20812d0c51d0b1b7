import AiSoc.Jobs.Finished

namespace Jobs

open Permissions (Uuid Timestamp)
open PyJson (Json)
open RowStore Process AdvisoryLock

section Statuses

variable {env : Env} {t : Nat} {φ : Phase} {c : Choice} {db db' : Db}

def statuses : List String := ["queued", "running", "completed", "failed"]

def KnownStatus (_ : Uuid) (job : Job) : Prop := job.status ∈ statuses

theorem assign_status {loaded value current : String} (hv : value ∈ statuses)
    (hc : current ∈ statuses) : assign loaded value current ∈ statuses := by
  unfold assign
  split
  · exact hc
  · exact hv

theorem writeJob_statuses {id : Uuid} {f : Job → Job} {r : Unit}
    (hall : db.jobs.All KnownStatus) (h : writeJob t id f db = some (r, db'))
    (hf : ∀ job, KnownStatus id job → KnownStatus id (f job)) : db'.jobs.All KnownStatus := by
  obtain ⟨⟨_, tb⟩, hi, ho⟩ := Option.map_eq_some_iff.mp h
  cases ho
  exact hall.recheckRow hi hf

theorem exec_statuses {q : Stmt} {r : Result q} (hall : db.jobs.All KnownStatus)
    (hallowed : φ.allowed q) (h : exec env t q c db = some (r, db')) :
    db'.jobs.All KnownStatus := by
  cases q with
  | now | uuid4 | getIncident | evidenceIds | redeliver | analyse | persisted =>
      rw [(exec_quiet rfl h).1]
      exact hall
  | acquireContextLock key =>
      obtain ⟨_, _, ho⟩ := Option.map_eq_some_iff.mp h
      cases ho
      exact hall
  | findForContext | get | aclose =>
      cases h
      exact hall
  | create job =>
      obtain ⟨_, hi, ho⟩ := Option.map_eq_some_iff.mp h
      cases ho
      refine hall.insert hi ?_
      rw [KnownStatus, hallowed.2.1]
      decide
  | requeue loaded provider model now =>
      refine writeJob_statuses hall h fun _ hs => ?_
      exact assign_status (by decide : "queued" ∈ statuses) hs
  | checkpointContext id contextSnapshot now =>
      exact writeJob_statuses hall h fun _ hs => hs
  | complete loaded contextSnapshot completion now =>
      refine writeJob_statuses hall h fun _ hs => ?_
      exact assign_status (by decide : "completed" ∈ statuses) hs
  | fail loaded failure now =>
      obtain ⟨⟨_, _⟩, hw, ho⟩ := Option.map_eq_some_iff.mp h
      cases ho
      have hwritten := writeJob_statuses hall hw fun _ hs =>
        assign_status (by decide : "failed" ∈ statuses) hs
      exact hwritten
  | claim id now =>
      obtain ⟨_, hi, ho⟩ := Option.map_eq_some_iff.mp h
      cases ho
      refine hall.updateByKey hi fun _ _ => ?_
      change "running" ∈ statuses
      decide
  | rpush => cases c <;> cases h <;> exact hall
  | build => cases c <;> cases h <;> exact hall
  | blpop =>
      simp only [exec] at h
      split at h <;> cases h <;> exact hall
  | commit =>
      cases h
      exact hall.commit t
  | rollback =>
      cases h
      exact hall.rollback t

theorem statuses_step {s s' : State (machine env)} {l : Label (machine env)}
    (hg : (typestate env).GoodTo (Answers env) s) (hall : s.db.jobs.All KnownStatus)
    (h : step s l = some s') : s'.db.jobs.All KnownStatus := by
  cases l with
  | start t c =>
      obtain ⟨_, rfl⟩ := step_start h
      exact hall
  | stop t =>
      obtain rfl := step_stop h
      exact hall.rollback t
  | exec t c =>
      obtain ⟨q, k, r, db, hp, hr, rfl⟩ := step_exec h
      have hsafe := hg.2 t
      rw [hp] at hsafe
      obtain ⟨φ, _, hallowed, _⟩ := hsafe
      exact exec_statuses hall hallowed hr

end Statuses

section Attended

variable {env : Env} {t u : Nat} {s s' : State (machine env)} {id : Uuid} {job : Job}

def LeavesNothing (s : State (machine env)) : Label (machine env) → Prop
  | .stop t => ∀ duty, s.db.history.duty t = some duty → strands s.db t duty.id = false
  | _ => True

theorem stranded_step {l : Label (machine env)} (hok : LeavesNothing s l)
    (h : step s l = some s') : s'.db.history.stranded = s.db.history.stranded := by
  cases l with
  | start t c =>
      obtain ⟨_, rfl⟩ := step_start h
      rfl
  | exec t c =>
      obtain ⟨q, k, r, db, _, hr, rfl⟩ := step_exec h
      exact (exec_losses hr).2.1
  | stop t =>
      obtain rfl := step_stop h
      change (s.db.history.close t (strands s.db t)).stranded = _
      unfold History.close
      split
      · rename_i duty hd
        dsimp only
        rw [if_neg (by simp [hok duty hd])]
      · rfl

structure Tended (s : State (machine env)) : Prop where
  good : (typestate env).GoodTo (Answers env) s
  statuses : s.db.jobs.All KnownStatus
  none : s.db.history.stranded = []

theorem tended_start (env : Env) (queue : List Uuid) :
    Tended (State.initial (Db.start queue) : State (machine env)) where
  good := ⟨inv_start env queue, fun t => idle_start env t queue⟩
  statuses _ _ hv := absurd hv Table.not_version_empty
  none := rfl

theorem tended_step {l : Label (machine env)} (hs : Tended s) (hok : LeavesNothing s l)
    (h : step s l = some s') : Tended s' where
  good := Typestate.goodTo_step (typestate_sound env) (body_promises env) hs.good
    Typestate.stmtOk_true h
  statuses := statuses_step hs.good hs.statuses h
  none := (stranded_step hok h).trans hs.none

theorem Tended.queued (hs : Tended s) (hc : s.db.jobs.committed id = some job)
    (hq : job.status = "queued") : id ∈ s.db.queue ∨ Attended s.db.history id := by
  rcases hs.good.1.queued id job hc hq with hmem | hmem | hatt
  · exact .inl hmem
  · rw [hs.none] at hmem
    cases hmem
  · exact .inr hatt

theorem Tended.running (hs : Tended s) (hc : s.db.jobs.committed id = some job)
    (hr : job.status = "running") : ∃ u, s.db.history.duty u = some (.working id) := by
  rcases hs.good.1.running id job hc hr with hmem | ⟨u, _, hd⟩
  · rw [hs.none] at hmem
    cases hmem
  · exact ⟨u, hd⟩

end Attended

section Window

variable {env : Env} {t u : Nat} {id : Uuid} {φ ψ : Phase} {c : Choice} {db db' : Db}
  {s s' : State (machine env)}

def Unfailed (id : Uuid) (db : Db) : Prop :=
  Stored db id fun job => job.status ≠ "failed"

def Firm (id : Uuid) : Phase → Db → Prop
  | .found job, db => job.id = id → job.status ≠ "failed" → Unfailed id db
  | .pushing _ id', db => id' = id → Unfailed id db
  | .answered _ id', db => id' = id → Unfailed id db
  | _, _ => True

theorem Firm.mono (h : Firm id φ db) (himp : Unfailed id db → Unfailed id db') :
    Firm id φ db' := by
  cases φ with
  | found job => exact fun hid hs => himp (h hid hs)
  | pushing context id' => exact fun hid => himp (h hid)
  | answered context id' => exact fun hid => himp (h hid)
  | _ => trivial

theorem Firm.of_committed (h : Firm id φ db) (hsame : db'.jobs.committed = db.jobs.committed) :
    Firm id φ db' := by
  refine h.mono ?_
  rintro ⟨job, hc, hs⟩
  exact ⟨job, (congrFun hsame id).trans hc, hs⟩

theorem firm_commit (hφ : φ.holds env t db) (hcommits : φ.commits) (h : Firm id φ db) :
    Firm id φ.afterCommit (commitTx t db) := by
  cases φ with
  | created job =>
      rintro rfl
      obtain ⟨ho, _, _, _, hstatus, _⟩ := hφ
      refine ⟨job, Table.commit_committed_of_lock ho.lock, ?_⟩
      change job.status ≠ "failed"
      rw [hstatus]
      decide
  | found job =>
      rintro rfl
      obtain ⟨stored, hc, hs⟩ := h rfl hcommits
      exact ⟨stored, (congrFun (committed_of_noLocks hφ.1) job.id).trans hc, hs⟩
  | written kind id' =>
      cases kind with
      | requeue context =>
          rintro rfl
          obtain ⟨_, stored, _, job, ho, hchange⟩ := hφ
          refine ⟨job, Table.commit_committed_of_lock ho.lock, ?_⟩
          change job.status ≠ "failed"
          rw [hchange.2.2.1]
          decide
      | handle | claim | checkpoint | complete | fail => trivial
  | _ => exact hcommits.elim

theorem firm_exec {q : Stmt} {r : Result q} (hinv : Inv env db) (hφ : φ.holds env t db)
    (hallowed : φ.allowed q) (hfirm : Firm id φ db)
    (h : exec env t q c db = some (r, db')) (hnext : φ.next env q r ψ) : Firm id ψ db' := by
  rcases exec_committed hinv hφ hallowed h with hsame | ⟨rfl, hcommits, rfl⟩
  · cases q with
    | findForContext context =>
        obtain rfl := hallowed
        cases h
        cases hfind : findForContext db t context with
        | none =>
            rw [hfind] at hnext
            obtain rfl := hnext
            trivial
        | some job =>
            rw [hfind] at hnext
            obtain ⟨rfl, _⟩ := hnext
            rintro rfl hs
            exact ⟨job, (findForContext_some hinv hφ.1 hfind).2, hs⟩
    | rpush id' =>
        obtain ⟨context, rfl⟩ := hallowed
        cases r with
        | ok =>
            obtain rfl := hnext
            exact Firm.of_committed hfirm hsame
        | error =>
            obtain rfl := hnext
            trivial
    | fail loaded failure now =>
        obtain rfl := hnext
        rcases hallowed with ⟨_, rfl, _⟩ | rfl <;> trivial
    | commit =>
        obtain rfl := hnext
        cases h
        exact firm_commit hφ hallowed hfirm
    | rollback =>
        obtain rfl := hnext
        cases φ with
        | idle | working => exact hfirm.of_committed hsame
        | written kind id' =>
            cases kind with
            | complete => trivial
            | _ => exact hallowed.elim
        | _ => exact hallowed.elim
    | claim id' now =>
        cases r with
        | none => obtain rfl := hnext; trivial
        | some job => obtain ⟨rfl, _⟩ := hnext; trivial
    | get id' =>
        cases r with
        | none => exact hnext.elim
        | some job => obtain ⟨rfl, _⟩ := hnext; trivial
    | blpop => cases r <;> obtain rfl := hnext <;> trivial
    | getIncident | evidenceIds =>
        obtain ⟨rfl, _⟩ := hnext
        exact hfirm.of_committed hsame
    | acquireContextLock | create | requeue | checkpointContext | complete | build | aclose =>
        obtain rfl := hnext
        trivial
    | now | uuid4 | redeliver | analyse | persisted =>
        obtain rfl := hnext
        exact hfirm.of_committed hsame
  · obtain rfl := hnext
    exact firm_commit hφ hcommits hfirm

theorem unfailed_exec {q : Stmt} {r : Result q} (hinv : Inv env db) (hφ : φ.holds env u db)
    (hallowed : φ.allowed q) (h : exec env u q c db = some (r, db'))
    (hduty : db.history.duty u ≠ some (.working id) ∧ db.history.duty u ≠ some (.handling id))
    (hu : Unfailed id db) : Unfailed id db' := by
  obtain ⟨job, hc, hs⟩ := hu
  rcases exec_committed hinv hφ hallowed h with hsame | ⟨_, hcommits, rfl⟩
  · exact ⟨job, (congrFun hsame id).trans hc, hs⟩
  · cases φ with
    | created new =>
        obtain ⟨ho, _, _, hnone, _, _⟩ := hφ
        have hne : id ≠ new.id := by
          rintro rfl
          rw [hnone] at hc
          cases hc
        refine ⟨job, ?_, hs⟩
        rw [committed_of_own ho, Function.update_of_ne hne]
        exact hc
    | found loaded => exact ⟨job, (congrFun (committed_of_noLocks hφ.1) id).trans hc, hs⟩
    | written kind id' =>
        obtain ⟨hb, stored, _, new, ho, hchange⟩ := hφ
        rcases eq_or_ne id id' with rfl | hne
        · refine ⟨new, Table.commit_committed_of_lock ho.lock, ?_⟩
          change new.status ≠ "failed"
          cases kind with
          | requeue context =>
              rw [hchange.2.2.1]
              decide
          | claim =>
              rw [hchange.2.1]
              decide
          | handle => exact absurd hb.duty hduty.2
          | checkpoint | complete | fail => exact absurd hb.duty hduty.1
        · refine ⟨job, ?_, hs⟩
          rw [committed_of_own ho, Function.update_of_ne hne]
          exact hc
    | _ => exact hcommits.elim

def Undisturbed (t : Nat) (id : Uuid) (s : State (machine env)) (l : Label (machine env)) : Prop :=
  LeavesNothing s l ∧ ∀ u, u ≠ t → s.db.history.duty u ≠ some (.working id) ∧
    s.db.history.duty u ≠ some (.handling id)

def FirmAt (t : Nat) (id : Uuid) (s : State (machine env)) : Prop :=
  ∀ p, s.procs t = some p → ∃ φ, φ.holds env t s.db ∧
    (typestate env).Follows φ p (Answers env) ∧ Firm id φ s.db

theorem firmAt_step {l : Label (machine env)} (hs : Tended s) (hfirm : FirmAt t id s)
    (hok : Undisturbed t id s l) (h : step s l = some s') : FirmAt t id s' := by
  have hidle := hs.good.2 t
  cases l with
  | start v call =>
      obtain ⟨hnone, rfl⟩ := step_start h
      intro p hp
      rcases eq_or_ne t v with rfl | hne
      · rw [hnone] at hidle
        have hbody : (machine env).body call = p := by simpa [State.setProc] using hp
        obtain rfl : body env call = p := hbody
        exact ⟨.idle, hidle, body_promises env call, trivial⟩
      · refine hfirm p ?_
        simpa [State.setProc, hne] using hp
  | stop v =>
      obtain rfl := step_stop h
      intro p hp
      rcases eq_or_ne t v with rfl | hne
      · simp [State.setProc] at hp
      · obtain ⟨φ, hφ, hfollows, hf⟩ := hfirm p (by simpa [State.setProc, hne] using hp)
        exact ⟨φ, (frame_close hne).holds hφ, hfollows, hf.of_committed rfl⟩
  | exec v choice =>
      obtain ⟨q, k, r, db, hp, hr, rfl⟩ := step_exec h
      intro p hp'
      rcases eq_or_ne t v with rfl | hne
      · obtain rfl : k r = p := by simpa [State.setProc] using hp'
        obtain ⟨φ, hφ, ⟨hallowed, hfollows⟩, hf⟩ := hfirm _ hp
        obtain ⟨_, ψ, hnext, hψ⟩ := exec_sound hs.good.1 hφ hallowed hr
        exact ⟨ψ, hψ, hfollows r ψ hnext, firm_exec hs.good.1 hφ hallowed hf hr hnext⟩
      · obtain ⟨φ, hφ, hfollows, hf⟩ := hfirm p (by simpa [State.setProc, hne] using hp')
        have hsafe := hs.good.2 v
        rw [hp] at hsafe
        obtain ⟨χ, hχ, hallowed, _⟩ := hsafe
        refine ⟨φ, (frame_exec hs.good.1 hχ hallowed hr hne).holds hφ, hfollows, ?_⟩
        exact hf.mono (unfailed_exec hs.good.1 hχ hallowed hr (hok.2 v hne.symm))

theorem firmAt_of_run (hs : Tended s) (hnone : s.procs t = none)
    (h : Run (Undisturbed t id) s s') : Tended s' ∧ FirmAt t id s' := by
  refine h.invariant (P := fun s => Tended s ∧ FirmAt t id s) ?_ ⟨hs, fun p hp => ?_⟩
  · intro s l s' ⟨hs, hfirm⟩ hok hstep
    exact ⟨tended_step hs hok.1 hstep, firmAt_step hs hfirm hok hstep⟩
  · rw [hnone] at hp
    cases hp

theorem answered_completed_or_queued {incidentId : Uuid} {response : Job} (hs : Tended s')
    (hfirm : FirmAt t response.id s')
    (hdone : s'.procs t = some (.done (.investigation incidentId response)))
    (hfree : ∀ u duty, s'.db.history.duty u = some duty → duty.id ≠ response.id) :
    ∃ job, s'.db.jobs.committed response.id = some job ∧
      (job.status = "completed" ∨ response.id ∈ s'.db.queue) := by
  obtain ⟨φ, hφ, ⟨context, _, rfl⟩, hf⟩ := hfirm _ hdone
  obtain ⟨job, hc, hunfailed⟩ := hf rfl
  refine ⟨job, hc, ?_⟩
  have hknown : job.status ∈ statuses := hs.statuses response.id job (.inl hc)
  simp only [statuses, List.mem_cons, List.not_mem_nil, or_false] at hknown
  rcases hknown with hq | hr | hcompleted | hfailed
  · rcases hs.queued hc hq with hmem | ⟨u, hu⟩
    · exact .inr hmem
    · rcases hu with hd | hd | hd <;> exact absurd rfl (hfree u _ hd)
  · obtain ⟨u, hd⟩ := hs.running hc hr
    exact absurd rfl (hfree u _ hd)
  · exact .inl hcompleted
  · exact absurd hfailed hunfailed

theorem no_job_stranded (env : Env) (queue : List Uuid) (s : State (machine env))
    (h : Run LeavesNothing (State.initial (Db.start queue)) s) :
    (∀ id job, s.db.jobs.committed id = some job → job.status = "queued" →
      id ∈ s.db.queue ∨ Attended s.db.history id) ∧
    (∀ id job, s.db.jobs.committed id = some job → job.status = "running" →
      ∃ u, s.db.history.duty u = some (.working id)) ∧
    ∀ t incidentId response s', s.procs t = none → Run (Undisturbed t response.id) s s' →
      s'.procs t = some (.done (.investigation incidentId response)) →
      (∀ u duty, s'.db.history.duty u = some duty → duty.id ≠ response.id) →
      ∃ job, s'.db.jobs.committed response.id = some job ∧
        (job.status = "completed" ∨ response.id ∈ s'.db.queue) := by
  have hs : Tended s :=
    h.invariant (fun _ _ _ hs hok hstep => tended_step hs hok hstep) (tended_start env queue)
  refine ⟨fun id job hc hq => hs.queued hc hq, fun id job hc hr => hs.running hc hr, ?_⟩
  intro t incidentId response s' hnone hrun hdone hfree
  obtain ⟨hs', hfirm⟩ := firmAt_of_run hs hnone hrun
  exact answered_completed_or_queued hs' hfirm hdone hfree

end Window

section Solo

open Transition (anyStep execAll execWhile run_of_execAll run_of_execWhile)

variable {env : Env} {t : Nat} {id : Uuid} {s s' : State (machine env)}

def Solo (t : Nat) (s : State (machine env)) (l : Label (machine env)) : Prop :=
  l.proc = t ∧ LeavesNothing s l

theorem duty_of_ended (hs : Tended s) {u : Nat} (hnone : s.procs u = none) :
    s.db.history.duty u = none := by
  have hidle := hs.good.2 u
  rw [hnone] at hidle
  exact hidle.2.duty

theorem undisturbed_of_solo (hs : Tended s) (hidle : ∀ u, u ≠ t → s.procs u = none)
    (h : Run (Solo t) s s') :
    Run (Undisturbed t id) s s' ∧ Tended s' ∧ ∀ u, u ≠ t → s'.procs u = none := by
  induction h with
  | refl => exact ⟨.refl _, hs, hidle⟩
  | tail _ hok hstep ih =>
      obtain ⟨hrun, hs₁, hidle₁⟩ := ih
      refine ⟨hrun.tail ⟨hok.2, fun u hu => ?_⟩ hstep, tended_step hs₁ hok.2 hstep, ?_⟩
      · rw [duty_of_ended hs₁ (hidle₁ u hu)]
        exact ⟨nofun, nofun⟩
      · intro u hu
        rw [procs_of_step hstep (by rw [hok.1]; exact hu)]
        exact hidle₁ u hu

def isFirst (_ : State (machine demoEnv)) : Label (machine demoEnv) → Bool
  | .start t _ => t = 1
  | .exec t _ => t = 1
  | .stop _ => false

theorem solo_of_isFirst {s : State (machine demoEnv)} {l : Label (machine demoEnv)}
    (h : isFirst s l = true) : Solo 1 s l := by
  cases l with
  | start | exec =>
      have ht := of_decide_eq_true h
      exact ⟨ht, trivial⟩
  | stop => cases h

theorem requested_queued : ∃ (s : State (machine demoEnv)) (response job : Job),
    execWhile step isFirst (State.initial (Db.start [])) (requested .auto) = some s ∧
    s.procs 1 = some (.done (.investigation 7 response)) ∧
    s.db.jobs.committed response.id = some job ∧
    (job.status = "completed" ∨ response.id ∈ s.db.queue) := by
  obtain ⟨s, response, hs, hdone, hduty⟩ : ∃ (s : State (machine demoEnv)) (response : Job),
      execWhile step isFirst (State.initial (Db.start [])) (requested .auto) = some s ∧
      s.procs 1 = some (.done (.investigation 7 response)) ∧ s.db.history.duty 1 = none :=
    ⟨_, _, rfl, rfl, rfl⟩
  have hsolo := (run_of_execWhile hs).mono fun _ _ => solo_of_isFirst
  obtain ⟨hrun, htended, hidle⟩ := @undisturbed_of_solo _ _ response.id _ _
    (tended_start demoEnv []) (fun _ _ => rfl) hsolo
  have hfree : ∀ u duty, s.db.history.duty u = some duty → duty.id ≠ response.id := by
    intro u duty hd
    rcases eq_or_ne u 1 with rfl | hu
    · rw [hduty] at hd
      cases hd
    · rw [duty_of_ended htended (hidle u hu)] at hd
      cases hd
  obtain ⟨job, hc, hjob⟩ := (no_job_stranded demoEnv [] _ (.refl _)).2.2 1 7 response s rfl hrun
    hdone hfree
  exact ⟨s, response, job, hs, hdone, hc, hjob⟩

def crashed : List (Label (machine demoEnv)) :=
  [.start 1 (.request 7), .exec 1 .auto, .exec 1 .auto, .exec 1 .auto, .exec 1 .auto,
    .exec 1 .auto, .exec 1 (.time 1), .exec 1 .auto, .exec 1 .auto, .stop 1]

def requestedAgain : List (Label (machine demoEnv)) :=
  [.start 2 (.request 7), .exec 2 .auto, .exec 2 .auto, .exec 2 .auto, .exec 2 .auto,
    .exec 2 .auto]

theorem crashed_job_answered : ∃ (s s' : State (machine demoEnv)) (response job : Job),
    execAll step (State.initial (Db.start [])) crashed = some s ∧
    s.procs 1 = none ∧ execAll step s requestedAgain = some s' ∧
    s'.procs 2 = some (.done (.investigation 7 response)) ∧
    s'.db.jobs.committed response.id = some job ∧ job.status = "queued" ∧
    s'.db.queue = [] :=
  ⟨_, _, _, _, rfl, rfl, rfl, rfl, rfl, rfl, rfl⟩

end Solo

end Jobs
