import AiSoc.Jobs.Service

namespace Jobs

open Permissions (Uuid Timestamp)
open PyJson (Json)
open RowStore Process AdvisoryLock

def Attended (h : History) (id : Uuid) : Prop :=
  ∃ u, h.duty u = some (.pushing id) ∨ h.duty u = some (.handling id) ∨
    h.duty u = some (.popped id)

def countFor (id : Uuid) (l : List (Nat × Uuid)) : Nat :=
  l.countP fun p => p.2 = id

inductive Kind where
  | requeue (context : Context)
  | handle
  | claim
  | checkpoint
  | complete
  | fail

inductive Phase where
  | idle
  | locked (key : String)
  | absent (context : Context)
  | found (job : Job)
  | created (job : Job)
  | written (kind : Kind) (id : Uuid)
  | pushing (context : Context) (id : Uuid)
  | handling (context : Context) (id : Uuid)
  | answered (context : Context) (id : Uuid)
  | popped (id : Uuid)
  | working (id : Uuid) (started : Bool)
  | failing (id : Uuid) (loaded : Job)
  | finished (id : Uuid)

structure Own (t : Nat) (id : Uuid) (job : Job) (db : Db) : Prop where
  lock : db.jobs.lock id = some (t, job)
  only : db.jobs.OnlyLock t id

def owed : Option Duty → Uuid → Nat
  | some (.pushing id), id' => if id = id' then 1 else 0
  | _, _ => 0

structure Books (t : Nat) (task : Option Duty) (waiting : Option Uuid) (h : History) : Prop where
  duty : h.duty t = task
  pushes : ∀ id, h.queuings.count (t, id) =
    h.enqueues.count (t, id) + h.lost.count (t, .pushing id) + owed task id
  starts : ∀ id, h.runs.count (t, id) + (if waiting = some id then 1 else 0) ≤
    h.claims.count (t, id)

def Owner (t : Nat) (id : Uuid) (job : Job) (h : History) : Prop :=
  id ∉ h.overrun → h.runner id = some t ∧ job.status = "running"

def NotRunner (t : Nat) (id : Uuid) (job : Job) (h : History) : Prop :=
  h.runner id = some t → job.status ≠ "running"

def Stored (db : Db) (id : Uuid) (P : Job → Prop) : Prop :=
  ∃ job, db.jobs.committed id = some job ∧ P job

def HoldsKey (env : Env) (t : Nat) (key : String) (db : Db) : Prop :=
  db.advisory (env.hashtextextended key) = some t

structure Inv (env : Env) (db : Db) : Prop where
  ids : db.jobs.All fun id job => job.id = id
  known : ∀ id job, db.jobs.Version id job → id ∈ db.jobs.keys
  unique : ∀ id id' job job', db.jobs.Version id job → db.jobs.Version id' job' →
    job.context = job'.context → id = id'
  context : ∀ id t job job', db.jobs.committed id = some job →
    db.jobs.lock id = some (t, job') → job'.context = job.context
  inserting : ∀ id t job, db.jobs.lock id = some (t, job) → db.jobs.committed id = none →
    HoldsKey env t (lockKey job.context) db
  attempts : ∀ id, countFor id db.history.claims =
    match db.jobs.committed id with
    | some job => job.attemptCount
    | none => 0
  queued : ∀ id job, db.jobs.committed id = some job → job.status = "queued" →
    id ∈ db.queue ∨ id ∈ db.history.stranded ∨ Attended db.history id
  running : ∀ id job, db.jobs.committed id = some job → job.status = "running" →
    id ∈ db.history.stranded ∨
      ∃ u, db.history.runner id = some u ∧ db.history.duty u = some (.working id)

section Holds

variable (env : Env)

def Change (t : Nat) (db : Db) (id : Uuid) (job job' : Job) : Kind → Prop
  | .requeue context =>
      job.context = context ∧ HoldsKey env t (lockKey context) db ∧ job'.status = "queued" ∧
        job.status ≠ "queued" ∧ (id ∉ db.history.overrun → job.status = "failed") ∧
        job'.attemptCount = job.attemptCount
  | .handle =>
      job'.status = "failed" ∧ (id ∉ db.history.overrun → isClaimed job = false) ∧
        job'.attemptCount = job.attemptCount
  | .claim =>
      job.status = "queued" ∧ job'.status = "running" ∧ job'.attemptCount = job.attemptCount + 1
  | .checkpoint =>
      job'.status = job.status ∧ Owner t id job db.history ∧ job'.attemptCount = job.attemptCount
  | .complete =>
      job'.status = "completed" ∧ Owner t id job db.history ∧
        job'.attemptCount = job.attemptCount
  | .fail =>
      (job'.status = "failed" ∨ job'.status = job.status ∧ NotRunner t id job db.history) ∧
        Owner t id job db.history ∧ job'.attemptCount = job.attemptCount

def Kind.duty (id : Uuid) : Kind → Option Duty
  | .requeue _ => none
  | .handle => some (.handling id)
  | .claim => some (.popped id)
  | .checkpoint => some (.working id)
  | .complete => some (.working id)
  | .fail => some (.working id)

def Phase.holds (t : Nat) : Phase → Db → Prop
  | .idle, db => db.jobs.NoLocks t ∧ Books t none none db.history
  | .locked key, db =>
      db.jobs.NoLocks t ∧ Books t none none db.history ∧ HoldsKey env t key db
  | .absent context, db =>
      db.jobs.NoLocks t ∧ Books t none none db.history ∧ HoldsKey env t (lockKey context) db ∧
        ∀ id job, db.jobs.Version id job → job.context ≠ context
  | .found job, db =>
      db.jobs.NoLocks t ∧ Books t none none db.history ∧ HoldsKey env t (lockKey job.context) db ∧
        Stored db job.id fun stored => stored.context = job.context ∧
          (job.status = "failed" → stored.status ≠ "queued" ∧
            (job.id ∉ db.history.overrun → stored.status = "failed"))
  | .created job, db =>
      Own t job.id job db ∧ Books t none none db.history ∧
        HoldsKey env t (lockKey job.context) db ∧ db.jobs.committed job.id = none ∧
        job.status = "queued" ∧ job.attemptCount = 0
  | .written kind id, db =>
      Books t (kind.duty id) none db.history ∧
        Stored db id fun stored => ∃ job, Own t id job db ∧ Change env t db id stored job kind
  | .pushing context id, db =>
      db.jobs.NoLocks t ∧ Books t (some (.pushing id)) none db.history ∧
        Stored db id fun stored => stored.context = context
  | .handling context id, db =>
      db.jobs.NoLocks t ∧ Books t (some (.handling id)) none db.history ∧
        Stored db id fun stored => stored.context = context
  | .answered context id, db =>
      db.jobs.NoLocks t ∧ Books t none none db.history ∧
        Stored db id fun stored => stored.context = context
  | .popped id, db => db.jobs.NoLocks t ∧ Books t (some (.popped id)) none db.history
  | .working id started, db =>
      db.jobs.NoLocks t ∧
        Books t (some (.working id)) (if started then none else some id) db.history ∧
        Stored db id fun stored => Owner t id stored db.history
  | .failing id loaded, db =>
      db.jobs.NoLocks t ∧ Books t (some (.working id)) none db.history ∧
        Stored db id fun stored => Owner t id stored db.history ∧
          (loaded.status = "failed" → NotRunner t id stored db.history)
  | .finished id, db =>
      db.jobs.NoLocks t ∧ Books t (some (.working id)) none db.history ∧
        Stored db id fun stored => NotRunner t id stored db.history

end Holds

def Phase.commits : Phase → Prop
  | .created _ => True
  | .found job => job.status ≠ "failed"
  | .written _ _ => True
  | _ => False

def Phase.rollsBack : Phase → Prop
  | .idle => True
  | .working _ started => started = true
  | .written .complete _ => True
  | _ => False

def Phase.pauses : Phase → Prop
  | .pushing _ _ => False
  | _ => True

def Phase.allowed : Phase → Stmt → Prop
  | φ, .acquireContextLock _ => φ = .idle
  | φ, .findForContext context => φ = .locked (lockKey context)
  | φ, .create job => φ = .absent job.context ∧ job.status = "queued" ∧ job.attemptCount = 0
  | φ, .requeue loaded _ _ _ => φ = .found loaded ∧ loaded.status = "failed"
  | φ, .claim id _ => φ = .popped id
  | φ, .get id => φ = .working id true
  | φ, .checkpointContext id _ _ => φ = .working id true
  | φ, .complete loaded _ _ _ => φ = .working loaded.id true ∧ loaded.status ≠ "completed"
  | φ, .fail loaded _ _ =>
      (∃ context, φ = .handling context loaded.id ∧ loaded.status = "queued") ∨
        φ = .failing loaded.id loaded
  | φ, .rpush id => ∃ context, φ = .pushing context id
  | φ, .blpop => φ = .idle
  | φ, .build id _ => φ = .working id false
  | φ, .aclose => ∃ id, φ = .finished id
  | φ, .commit => φ.commits
  | φ, .rollback => φ.rollsBack
  | φ, _ => φ.pauses

def Phase.afterFail : Phase → Phase
  | .handling _ id => .written .handle id
  | .failing id _ => .written .fail id
  | φ => φ

def Phase.afterPush (ok : Bool) : Phase → Phase
  | .pushing context id => if ok then .answered context id else .handling context id
  | φ => φ

def Kind.after (id : Uuid) : Kind → Phase
  | .requeue context => .pushing context id
  | .handle => .idle
  | .claim => .working id false
  | .checkpoint => .working id true
  | .complete => .finished id
  | .fail => .finished id

def Phase.afterCommit : Phase → Phase
  | .created job => .pushing job.context job.id
  | .found job => .answered job.context job.id
  | .written kind id => kind.after id
  | φ => φ

def Phase.afterRollback : Phase → Phase
  | .written .complete id => .working id true
  | φ => φ

def Phase.next (env : Env) (φ : Phase) : (q : Stmt) → Result q → Phase → Prop
  | .getIncident id, incident, ψ => ψ = φ ∧ incident = env.incidents id
  | .evidenceIds incidentId, ids, ψ => ψ = φ ∧ ids = env.evidence incidentId
  | .acquireContextLock key, _, ψ => ψ = .locked key
  | .findForContext context, none, ψ => ψ = .absent context
  | .findForContext context, some job, ψ => ψ = .found job ∧ job.context = context
  | .create job, _, ψ => ψ = .created job
  | .requeue loaded _ _ _, _, ψ => ψ = .written (.requeue loaded.context) loaded.id
  | .claim _ _, none, ψ => ψ = .idle
  | .claim id _, some job, ψ => ψ = .written .claim id ∧ job.id = id ∧ job.status = "running"
  | .get _, none, _ => False
  | .get id, some job, ψ => ψ = .failing id job ∧ job.id = id
  | .checkpointContext id _ _, _, ψ => ψ = .written .checkpoint id
  | .complete loaded _ _ _, _, ψ => ψ = .written .complete loaded.id
  | .fail _ _ _, _, ψ => ψ = φ.afterFail
  | .rpush _, .ok _, ψ => ψ = φ.afterPush true
  | .rpush _, .error _, ψ => ψ = φ.afterPush false
  | .blpop, none, ψ => ψ = .idle
  | .blpop, some id, ψ => ψ = .popped id
  | .build id _, _, ψ => ψ = .working id true
  | .aclose, _, ψ => ψ = .idle
  | .commit, _, ψ => ψ = φ.afterCommit
  | .rollback, _, ψ => ψ = φ.afterRollback
  | _, _, ψ => ψ = φ

def typestate (env : Env) : Typestate (machine env) where
  Phase := Phase
  init := .idle
  allowed := Phase.allowed
  next := Phase.next env
  holds := Phase.holds env
  inv := Inv env

section Programs

variable (env : Env)

def contextOf (incidentId : Uuid) : Option Context :=
  (env.incidents incidentId).map fun incident =>
    contextFor env incidentId incident (env.evidence incidentId)

def Answers : Outcome → Phase → Prop
  | .investigation incidentId job, φ =>
      ∃ context, contextOf env incidentId = some context ∧ φ = .answered context job.id
  | _, φ => φ = .idle

abbrev Promises (φ : Phase) (p : Proc Outcome) : Prop :=
  (typestate env).Follows φ p (Answers env)

theorem enqueue_promises {context : Context} {incidentId : Uuid} (job : Job)
    (hcontext : contextOf env incidentId = some context) (hstatus : job.status = "queued") :
    Promises env (.pushing context job.id) (enqueue incidentId job) := by
  refine Typestate.Follows.call ⟨context, rfl⟩ ?_
  rintro (error | _) _ rfl
  · refine Typestate.Follows.call trivial ?_
    rintro now _ rfl
    refine Typestate.Follows.call (.inl ⟨context, rfl, hstatus⟩) ?_
    rintro _ _ rfl
    refine Typestate.Follows.call trivial ?_
    rintro _ _ rfl
    exact rfl
  · exact ⟨context, hcontext, rfl⟩

theorem requestFor_promises {context : Context}
    (hcontext : contextOf env context.incidentId = some context) :
    Promises env .idle (requestFor env context) := by
  refine Typestate.Follows.call rfl ?_
  rintro _ _ rfl
  refine Typestate.Follows.call rfl ?_
  rintro (_ | job) ψ hψ
  · obtain rfl : ψ = Phase.absent context := hψ
    refine Typestate.Follows.call trivial ?_
    rintro id _ rfl
    refine Typestate.Follows.call trivial ?_
    rintro now _ rfl
    refine Typestate.Follows.call ⟨rfl, rfl, rfl⟩ ?_
    rintro _ _ rfl
    refine Typestate.Follows.call trivial ?_
    rintro _ _ rfl
    exact enqueue_promises env (newJob env id context now) hcontext rfl
  · obtain ⟨rfl, rfl⟩ := hψ
    dsimp only
    split
    · rename_i hfailed
      refine Typestate.Follows.call trivial ?_
      rintro now _ rfl
      refine Typestate.Follows.call ⟨rfl, hfailed⟩ ?_
      rintro _ _ rfl
      refine Typestate.Follows.call trivial ?_
      rintro _ _ rfl
      refine enqueue_promises env (requeued job env.llmProvider env.llmModel now job) hcontext ?_
      simp [requeued, assign, hfailed]
    · rename_i hother
      refine Typestate.Follows.call hother ?_
      rintro _ _ rfl
      exact ⟨job.context, hcontext, rfl⟩

theorem workflow_follows {job : Job} (hstatus : job.status = "running") :
    (typestate env).Follows (Phase.working job.id false) (workflow job) fun failure ψ =>
      match failure with
      | none => ψ = Phase.written .complete job.id
      | some _ => ψ = Phase.working job.id true ∨ ψ = Phase.written .complete job.id := by
  refine Typestate.Follows.call rfl ?_
  rintro (failure | contextSnapshot) _ rfl
  · exact .inl rfl
  · refine Typestate.Follows.call trivial ?_
    rintro checkpointAt _ rfl
    refine Typestate.Follows.call rfl ?_
    rintro _ _ rfl
    refine Typestate.Follows.call trivial ?_
    rintro _ _ rfl
    refine Typestate.Follows.call trivial ?_
    rintro (failure | completion) _ rfl
    · exact .inl rfl
    · refine Typestate.Follows.call trivial ?_
      rintro now _ rfl
      refine Typestate.Follows.call ⟨rfl, ?_⟩ ?_
      · change job.status ≠ "completed"
        rw [hstatus]
        decide
      · rintro _ _ rfl
        refine Typestate.Follows.last trivial ?_
        rintro (_ | failure) _ rfl
        · rfl
        · exact .inr rfl

theorem recordFailure_follows {φ : Phase} (id : Uuid) (failure : Failure)
    (hφ : φ = .working id true ∨ φ = .written .complete id) :
    (typestate env).Follows φ (recordFailure id failure) fun _ ψ => ψ = Phase.finished id := by
  have hallowed : φ.allowed .rollback := by
    rcases hφ with rfl | rfl
    · rfl
    · exact trivial
  have hworking : φ.afterRollback = .working id true := by
    rcases hφ with rfl | rfl <;> rfl
  refine Typestate.Follows.call hallowed ?_
  intro _ ψ hψ
  obtain rfl : ψ = .working id true := Eq.trans hψ hworking
  refine Typestate.Follows.call rfl ?_
  rintro (_ | job) ψ hψ
  · exact hψ.elim
  · obtain ⟨rfl, rfl⟩ := hψ
    refine Typestate.Follows.call trivial ?_
    rintro now _ rfl
    refine Typestate.Follows.call (.inr rfl) ?_
    rintro _ _ rfl
    exact Typestate.Follows.last trivial (by rintro _ _ rfl; rfl)

theorem processInvestigation_promises (id : Uuid) :
    Promises env (.popped id) (processInvestigation id) := by
  refine Typestate.Follows.call trivial ?_
  rintro now _ rfl
  refine Typestate.Follows.call rfl ?_
  rintro (_ | job) ψ hψ
  · obtain rfl : ψ = Phase.idle := hψ
    refine Typestate.Follows.call trivial ?_
    rintro _ _ rfl
    exact rfl
  · obtain ⟨rfl, rfl, hstatus⟩ := hψ
    refine Typestate.Follows.call trivial ?_
    rintro _ _ rfl
    refine (workflow_follows env hstatus).bind ?_
    rintro (_ | failure) ψ hψ
    · obtain rfl : ψ = Phase.written .complete job.id := hψ
      refine Typestate.Follows.call trivial ?_
      rintro _ _ rfl
      refine Typestate.Follows.call ⟨job.id, rfl⟩ ?_
      rintro _ _ rfl
      exact rfl
    · refine (recordFailure_follows env job.id failure hψ).bind ?_
      rintro _ _ rfl
      refine Typestate.Follows.call ⟨job.id, rfl⟩ ?_
      rintro _ _ rfl
      exact rfl

theorem requestInvestigation_promises (incidentId : Uuid) :
    Promises env .idle (requestInvestigation env incidentId) := by
  unfold requestInvestigation
  split
  · exact rfl
  · refine Typestate.Follows.call trivial ?_
    rintro (_ | incident) _ ⟨rfl, hincident⟩
    · exact rfl
    · refine Typestate.Follows.call trivial ?_
      rintro evidenceIds _ ⟨rfl, rfl⟩
      refine requestFor_promises env ?_
      change (env.incidents incidentId).map _ = _
      rw [← hincident]
      rfl

theorem body_promises (c : Call) : Promises env .idle (body env c) := by
  cases c with
  | request incidentId => exact requestInvestigation_promises env incidentId
  | worker =>
      refine Typestate.Follows.call rfl ?_
      rintro (_ | id) _ rfl
      · exact rfl
      · exact processInvestigation_promises env id
  | redeliver id =>
      refine Typestate.Follows.call trivial ?_
      rintro _ _ rfl
      exact rfl

end Programs

end Jobs
