import AiSoc.Jobs.Phases

namespace Jobs

open Permissions (Uuid Timestamp)
open PyJson (Json)
open RowStore Process AdvisoryLock

structure Aside (u : Nat) (h h' : History) : Prop where
  duty : h'.duty u = h.duty u
  queuings : ∀ id, h'.queuings.count (u, id) = h.queuings.count (u, id)
  enqueues : ∀ id, h'.enqueues.count (u, id) = h.enqueues.count (u, id)
  lost : ∀ duty, h'.lost.count (u, duty) = h.lost.count (u, duty)
  claims : ∀ id, h'.claims.count (u, id) = h.claims.count (u, id)
  runs : ∀ id, h'.runs.count (u, id) = h.runs.count (u, id)
  overrun : ∀ id, id ∈ h.overrun → id ∈ h'.overrun

theorem Aside.refl (u : Nat) (h : History) : Aside u h h :=
  ⟨rfl, fun _ => rfl, fun _ => rfl, fun _ => rfl, fun _ => rfl, fun _ => rfl, fun _ h => h⟩

theorem Aside.books {u : Nat} {h h' : History} (ha : Aside u h h') {task : Option Duty}
    {waiting : Option Uuid} (hb : Books u task waiting h) : Books u task waiting h' where
  duty := ha.duty.trans hb.duty
  pushes id := by rw [ha.queuings, ha.enqueues, ha.lost, hb.pushes]
  starts id := by rw [ha.runs, ha.claims]; exact hb.starts id

structure Later (env : Env) (u : Nat) (db db' : Db) (id : Uuid) (job job' : Job) : Prop where
  context : job'.context = job.context
  unqueued : HoldsKey env u (lockKey job.context) db → job.status ≠ "queued" →
    job'.status ≠ "queued"
  failed : HoldsKey env u (lockKey job.context) db → id ∉ db'.history.overrun →
    job.status = "failed" → job'.status = "failed"
  owner : id ∉ db'.history.overrun → db.history.runner id = some u → job.status = "running" →
    db'.history.runner id = some u ∧ job'.status = "running"
  notRunner : db'.history.runner id = some u → job'.status = "running" →
    db.history.runner id = some u ∧ job.status = "running"

structure Frame (env : Env) (u : Nat) (db db' : Db) : Prop where
  lock : db.jobs.SameLocks db'.jobs u
  kept : ∀ id job, db.jobs.lock id = some (u, job) →
    db'.jobs.committed id = db.jobs.committed id
  key : ∀ k, db.advisory k = some u → db'.advisory k = some u
  absent : ∀ context, HoldsKey env u (lockKey context) db →
    (∀ id job, db.jobs.Version id job → job.context ≠ context) →
    ∀ id job, db'.jobs.Version id job → job.context ≠ context
  row : ∀ id job, db.jobs.committed id = some job →
    ∃ job', db'.jobs.committed id = some job' ∧ Later env u db db' id job job'
  aside : Aside u db.history db'.history

section Holds

variable {env : Env} {u : Nat} {db db' : Db}

theorem Later.refl (env : Env) (u : Nat) (id : Uuid) (job : Job)
    (hrunner : db'.history.runner id = db.history.runner id) :
    Later env u db db' id job job where
  context := rfl
  unqueued _ h := h
  failed _ _ h := h
  owner _ h hr := ⟨hrunner.trans h, hr⟩
  notRunner h hr := ⟨hrunner.symm.trans h, hr⟩

theorem Later.owner_iff {id : Uuid} {job job' : Job} (h : Later env u db db' id job job')
    (ha : Aside u db.history db'.history) (ho : Owner u id job db.history) :
    Owner u id job' db'.history := by
  intro hfresh
  obtain ⟨hr, hs⟩ := ho fun hmem => hfresh (ha.overrun id hmem)
  exact h.owner hfresh hr hs

theorem Later.notRunner_iff {id : Uuid} {job job' : Job} (h : Later env u db db' id job job')
    (hn : NotRunner u id job db.history) : NotRunner u id job' db'.history := by
  intro hr hs
  obtain ⟨hr', hs'⟩ := h.notRunner hr hs
  exact hn hr' hs'

theorem Frame.own (h : Frame env u db db') {id : Uuid} {job : Job} (ho : Own u id job db) :
    Own u id job db' :=
  ⟨(h.lock id job).mpr ho.lock, h.lock.onlyLock ho.only⟩

theorem Frame.stored (h : Frame env u db db') {id : Uuid} {P Q : Job → Prop}
    (hs : Stored db id P)
    (himp : ∀ job job', Later env u db db' id job job' → P job → Q job') : Stored db' id Q := by
  obtain ⟨job, hc, hP⟩ := hs
  obtain ⟨job', hc', hlater⟩ := h.row id job hc
  exact ⟨job', hc', himp job job' hlater hP⟩

theorem Frame.change (h : Frame env u db db') {id : Uuid} {job job' : Job} {kind : Kind}
    (hlater : Later env u db db' id job job) (hc : Change env u db id job job' kind) :
    Change env u db' id job job' kind := by
  have hfresh : ∀ {id}, id ∉ db'.history.overrun → id ∉ db.history.overrun :=
    fun hn hm => hn (h.aside.overrun _ hm)
  cases kind with
  | requeue context =>
      obtain ⟨hctx, hkey, hq, hs, hf, ha⟩ := hc
      exact ⟨hctx, h.key _ hkey, hq, hs, fun hn => hf (hfresh hn), ha⟩
  | handle =>
      obtain ⟨hs, hq, ha⟩ := hc
      exact ⟨hs, fun hn => hq (hfresh hn), ha⟩
  | claim => exact hc
  | checkpoint =>
      obtain ⟨hs, ho, ha⟩ := hc
      exact ⟨hs, hlater.owner_iff h.aside ho, ha⟩
  | complete =>
      obtain ⟨hs, ho, ha⟩ := hc
      exact ⟨hs, hlater.owner_iff h.aside ho, ha⟩
  | fail =>
      obtain ⟨hs, ho, ha⟩ := hc
      exact ⟨hs.imp_right fun hs => ⟨hs.1, hlater.notRunner_iff hs.2⟩,
        hlater.owner_iff h.aside ho, ha⟩

theorem Frame.holds (h : Frame env u db db') {ψ : Phase} (hψ : ψ.holds env u db) :
    ψ.holds env u db' := by
  have hcontext : ∀ {id context}, Stored db id (fun stored => stored.context = context) →
      Stored db' id fun stored => stored.context = context :=
    fun hs => h.stored hs fun job job' hl hj => hl.context.trans hj
  cases ψ with
  | idle => exact ⟨h.lock.noLocks hψ.1, h.aside.books hψ.2⟩
  | locked key => exact ⟨h.lock.noLocks hψ.1, h.aside.books hψ.2.1, h.key _ hψ.2.2⟩
  | absent context =>
      obtain ⟨hn, hb, hk, hv⟩ := hψ
      exact ⟨h.lock.noLocks hn, h.aside.books hb, h.key _ hk, h.absent context hk hv⟩
  | found job =>
      obtain ⟨hn, hb, hk, hs⟩ := hψ
      refine ⟨h.lock.noLocks hn, h.aside.books hb, h.key _ hk, h.stored hs ?_⟩
      intro stored stored' hl ⟨hctx, hfailed⟩
      refine ⟨hl.context.trans hctx, fun hf => ?_⟩
      obtain ⟨hq, hfresh⟩ := hfailed hf
      have hk' : HoldsKey env u (lockKey stored.context) db := by rw [hctx]; exact hk
      exact ⟨hl.unqueued hk' hq, fun hn =>
        hl.failed hk' hn (hfresh fun hm => hn (h.aside.overrun _ hm))⟩
  | created job =>
      obtain ⟨ho, hb, hk, hc, hs, ha⟩ := hψ
      exact ⟨h.own ho, h.aside.books hb, h.key _ hk, (h.kept _ _ ho.lock).trans hc, hs, ha⟩
  | written kind id =>
      obtain ⟨hb, stored, hc, job, ho, hchange⟩ := hψ
      have hc' := (h.kept _ _ ho.lock).trans hc
      obtain ⟨stored', hrow, hlater⟩ := h.row id stored hc
      obtain rfl : stored' = stored := Option.some.inj (hrow.symm.trans hc')
      exact ⟨h.aside.books hb, stored', hc', job, h.own ho, h.change hlater hchange⟩
  | pushing context id => exact ⟨h.lock.noLocks hψ.1, h.aside.books hψ.2.1, hcontext hψ.2.2⟩
  | handling context id => exact ⟨h.lock.noLocks hψ.1, h.aside.books hψ.2.1, hcontext hψ.2.2⟩
  | answered context id => exact ⟨h.lock.noLocks hψ.1, h.aside.books hψ.2.1, hcontext hψ.2.2⟩
  | popped id => exact ⟨h.lock.noLocks hψ.1, h.aside.books hψ.2⟩
  | working id started =>
      refine ⟨h.lock.noLocks hψ.1, h.aside.books hψ.2.1, h.stored hψ.2.2 ?_⟩
      exact fun job job' hl ho => hl.owner_iff h.aside ho
  | failing id loaded =>
      refine ⟨h.lock.noLocks hψ.1, h.aside.books hψ.2.1, h.stored hψ.2.2 ?_⟩
      exact fun job job' hl ho => ⟨hl.owner_iff h.aside ho.1, fun hf => hl.notRunner_iff (ho.2 hf)⟩
  | finished id =>
      refine ⟨h.lock.noLocks hψ.1, h.aside.books hψ.2.1, h.stored hψ.2.2 ?_⟩
      exact fun job job' hl hn => hl.notRunner_iff hn

end Holds

section Statements

variable {env : Env} {t u : Nat} {db db' : Db}

structure Pending (env : Env) (t : Nat) (db db' : Db) : Prop where
  committed : db'.jobs.committed = db.jobs.committed
  lock : ∀ u id job, u ≠ t → (db'.jobs.lock id = some (u, job) ↔ db.jobs.lock id = some (u, job))
  key : ∀ u k, u ≠ t → db.advisory k = some u → db'.advisory k = some u
  version : ∀ id job, db'.jobs.Version id job →
    (∃ id' job', db.jobs.Version id' job' ∧ job'.context = job.context) ∨
      HoldsKey env t (lockKey job.context) db
  runner : db'.history.runner = db.history.runner
  aside : ∀ u, u ≠ t → Aside u db.history db'.history

theorem Pending.frame (h : Pending env t db db') (hu : u ≠ t) : Frame env u db db' where
  lock id job := h.lock u id job hu
  kept id job _ := congrFun h.committed id
  key k hk := h.key u k hu hk
  absent context hk hv id job hv' := by
    rcases h.version id job hv' with ⟨id', job', hold, hctx⟩ | hkey
    · rw [← hctx]
      exact hv id' job' hold
    · rintro rfl
      exact hu (Option.some.inj (hk.symm.trans hkey))
  row id job hc := ⟨job, (congrFun h.committed id).trans hc, .refl env u id job (congrFun h.runner id)⟩
  aside := h.aside u hu

theorem Pending.of_jobs (hjobs : db'.jobs = db.jobs)
    (hkey : ∀ u k, u ≠ t → db.advisory k = some u → db'.advisory k = some u)
    (hrunner : db'.history.runner = db.history.runner)
    (haside : ∀ u, u ≠ t → Aside u db.history db'.history) : Pending env t db db' where
  committed := by rw [hjobs]
  lock u id job _ := by rw [hjobs]
  key := hkey
  version id job hv := .inl ⟨id, job, by rw [hjobs] at hv; exact hv, rfl⟩
  runner := hrunner
  aside := haside

theorem Pending.of_setLock {id : Uuid} {job : Job} (hb : ¬ db.jobs.blocked t id)
    (hc : db'.jobs.committed = db.jobs.committed)
    (hl : db'.jobs.lock = (db.jobs.setLock t id job).lock) (ha : db'.advisory = db.advisory)
    (hv : (∃ old, db.jobs.Version id old ∧ old.context = job.context) ∨
      HoldsKey env t (lockKey job.context) db)
    (hrunner : db'.history.runner = db.history.runner)
    (haside : ∀ u, u ≠ t → Aside u db.history db'.history) : Pending env t db db' where
  committed := hc
  lock u id' job' hu := by
    rw [hl]
    exact Table.setLock_lock_of_other hb hu
  key u k _ hk := by rw [ha]; exact hk
  version id' job' hv' := by
    have hv'' : (db.jobs.setLock t id job).Version id' job' := by
      simpa only [Table.Version, hc, hl, Table.setLock_committed] using hv'
    rcases Table.version_of_setLock hv'' with ⟨rfl, rfl⟩ | hold
    · exact hv.imp_left fun ⟨old, ho, hctx⟩ => ⟨id', old, ho, hctx⟩
    · exact .inl ⟨id', job', hold, rfl⟩
  runner := hrunner
  aside := haside

end Statements

end Jobs
