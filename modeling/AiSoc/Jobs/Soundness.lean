import AiSoc.Jobs.Frame

namespace Jobs

open Permissions (Uuid Timestamp)
open PyJson (Json)
open RowStore Process AdvisoryLock

section Rows

theorem assign_of_ne {α : Type} [DecidableEq α] {loaded value current : α} (h : loaded ≠ value) :
    assign loaded value current = value :=
  if_neg fun he => h he.symm

theorem assign_self {α : Type} [DecidableEq α] {value current : α} :
    assign value value current = current :=
  if_pos rfl

end Rows

section Exec

variable {env : Env} {t u : Nat} {c : Choice} {db db' : Db}

def History.pushed (h : History) (t : Nat) (id : Uuid) (duty : Option Duty) : History :=
  { h.setDuty t duty with enqueues := (t, id) :: h.enqueues }

theorem aside_setDuty (hu : u ≠ t) (h : History) (duty : Option Duty) :
    Aside u h (h.setDuty t duty) :=
  ⟨Function.update_of_ne hu _ _, fun _ => rfl, fun _ => rfl, fun _ => rfl, fun _ => rfl,
    fun _ => rfl, fun _ h => h⟩

theorem count_cons_other {α : Type} [DecidableEq α] (hu : u ≠ t) (a b : α)
    (l : List (Nat × α)) : ((t, a) :: l).count (u, b) = l.count (u, b) := by
  refine List.count_cons_of_ne ?_
  rintro he
  exact hu (Prod.mk.inj he).1.symm

theorem aside_pushed (hu : u ≠ t) (h : History) (id : Uuid) (duty : Option Duty) :
    Aside u h (h.pushed t id duty) :=
  ⟨Function.update_of_ne hu _ _, fun _ => rfl, fun _ => count_cons_other hu _ _ _, fun _ => rfl,
    fun _ => rfl, fun _ => rfl, fun _ h => h⟩

theorem writeJob_cases {id : Uuid} {f : Job → Job} {r : Unit} {stored : Job}
    (h : writeJob t id f db = some (r, db')) (hn : db.jobs.NoLocks t)
    (hc : db.jobs.committed id = some stored) :
    ¬ db.jobs.blocked t id ∧ db' = { db with jobs := db.jobs.setLock t id (f stored) } := by
  obtain ⟨⟨r', tb⟩, hi, ho⟩ := Option.map_eq_some_iff.mp h
  cases ho
  have hview := (Table.NoLocks.view hn id).trans hc
  obtain ⟨hb, ⟨_, hno, _⟩ | ⟨v, hv, _, _, rfl⟩⟩ := Table.recheckRow_cases hi
  · cases hno stored hview
  · obtain rfl : v = stored := Option.some.inj (hv.symm.trans hview)
    exact ⟨hb, rfl⟩

theorem own_setLock {id : Uuid} {job : Job} (hn : db.jobs.NoLocks t)
    (hl : db'.jobs.lock = (db.jobs.setLock t id job).lock) : Own t id job db' where
  lock := by rw [hl]; exact Table.setLock_lock_self _ _ _ _
  only id' job' hlock := by
    rw [hl] at hlock
    rcases eq_or_ne id' id with rfl | hne
    · rfl
    · rw [Table.setLock_lock_ne _ _ _ hne] at hlock
      exact absurd hlock (hn id' job')

theorem Inv.of_history (hinv : Inv env db) (hjobs : db'.jobs = db.jobs)
    (hkey : ∀ u k, db.advisory k = some u → db'.advisory k = some u)
    (hclaims : db'.history.claims = db.history.claims)
    (hqueued : ∀ id job, db.jobs.committed id = some job → job.status = "queued" →
      id ∈ db'.queue ∨ id ∈ db'.history.stranded ∨ Attended db'.history id)
    (hrunning : ∀ id job, db.jobs.committed id = some job → job.status = "running" →
      id ∈ db'.history.stranded ∨
        ∃ u, db'.history.runner id = some u ∧ db'.history.duty u = some (.working id)) :
    Inv env db' := by
  refine ⟨?_, ?_, ?_, ?_, ?_, ?_, ?_, ?_⟩ <;> rw [hjobs]
  · exact hinv.ids
  · exact hinv.known
  · exact hinv.unique
  · exact hinv.context
  · exact fun id t job hl hc => hkey _ _ (hinv.inserting id t job hl hc)
  · intro id
    rw [hclaims]
    exact hinv.attempts id
  · exact hqueued
  · exact hrunning

theorem Inv.of_duty (hinv : Inv env db) (hjobs : db'.jobs = db.jobs)
    (hkey : db'.advisory = db.advisory) (hclaims : db'.history.claims = db.history.claims)
    (hlost : db'.history.stranded = db.history.stranded) (hrunner : db'.history.runner = db.history.runner)
    (hother : ∀ u, u ≠ t → db'.history.duty u = db.history.duty u)
    (hqueue : ∀ id ∈ db.queue, id ∈ db'.queue ∨ Attended db'.history id)
    (hattends : ∀ id job, db.jobs.committed id = some job → job.status = "queued" →
      (db.history.duty t = some (.pushing id) ∨ db.history.duty t = some (.handling id) ∨
        db.history.duty t = some (.popped id)) → id ∈ db'.queue ∨ Attended db'.history id)
    (hworks : ∀ id job, db.jobs.committed id = some job →
      db.history.duty t = some (.working id) → NotRunner t id job db.history) :
    Inv env db' := by
  refine hinv.of_history hjobs (fun u k hk => by rw [hkey]; exact hk) hclaims ?_ ?_
  · intro id job hc hs
    simp only [hlost]
    rcases hinv.queued id job hc hs with hmem | hab | ⟨u, hu⟩
    · exact (hqueue id hmem).imp_right .inr
    · exact .inr (.inl hab)
    · rcases eq_or_ne u t with rfl | hut
      · exact (hattends id job hc hs hu).imp_right .inr
      · have hsame := hother u hut
        exact .inr (.inr ⟨u, hu.imp hsame.trans (.imp hsame.trans hsame.trans)⟩)
  · intro id job hc hs
    simp only [hlost, hrunner]
    refine (hinv.running id job hc hs).imp_right fun ⟨u, hr, hd⟩ => ⟨u, hr, ?_⟩
    have hut : u ≠ t := by
      rintro rfl
      exact hworks id job hc hd hr hs
    exact (hother u hut).trans hd

theorem inv_setLock {id : Uuid} {job : Job} {tb : Table Uuid Job} (hinv : Inv env db)
    (hc : tb.committed = db.jobs.committed) (hl : tb.lock = (db.jobs.setLock t id job).lock)
    (hk : id ∈ tb.keys ∧ ∀ id' ∈ db.jobs.keys, id' ∈ tb.keys) (hid : job.id = id)
    (hv : (∃ old, db.jobs.Version id old ∧ job.context = old.context) ∨
      HoldsKey env t (lockKey job.context) db ∧
        ∀ id' old, db.jobs.Version id' old → old.context ≠ job.context)
    (hstored : ∀ stored, db.jobs.committed id = some stored → job.context = stored.context)
    (hnew : db.jobs.committed id = none → HoldsKey env t (lockKey job.context) db) :
    Inv env { db with jobs := tb } := by
  have hversion : ∀ id' job', tb.Version id' job' →
      id' = id ∧ job' = job ∨ db.jobs.Version id' job' := by
    intro id' job' hv'
    refine @Table.version_of_setLock _ _ _ _ t _ _ _ _ ?_
    simpa only [Table.Version, hc, hl, Table.setLock_committed] using hv'
  have hlock : ∀ id' u job', tb.lock id' = some (u, job') →
      id' = id ∧ u = t ∧ job' = job ∨ db.jobs.lock id' = some (u, job') := by
    intro id' u job' hl'
    rw [hl] at hl'
    rcases eq_or_ne id' id with rfl | hne
    · rw [Table.setLock_lock_self] at hl'
      cases hl'
      exact .inl ⟨rfl, rfl, rfl⟩
    · exact .inr ((Table.setLock_lock_ne _ _ _ hne).symm.trans hl')
  have hunique : ∀ id' job', db.jobs.Version id' job' → job.context = job'.context → id = id' := by
    intro id' job' hv' hctx
    rcases hv with ⟨old, hold, hsame⟩ | ⟨_, hnone⟩
    · exact hinv.unique id id' old job' hold hv' (hsame.symm.trans hctx)
    · exact absurd hctx.symm (hnone id' job' hv')
  refine ⟨?_, ?_, ?_, ?_, ?_, ?_, ?_, ?_⟩
  · intro id' job' hv'
    rcases hversion id' job' hv' with ⟨rfl, rfl⟩ | hv'
    · exact hid
    · exact hinv.ids id' job' hv'
  · intro id' job' hv'
    rcases hversion id' job' hv' with ⟨rfl, _⟩ | hv'
    · exact hk.1
    · exact hk.2 id' (hinv.known id' job' hv')
  · intro id₁ id₂ job₁ job₂ hv₁ hv₂ hctx
    rcases hversion id₁ job₁ hv₁ with ⟨rfl, rfl⟩ | hv₁ <;>
      rcases hversion id₂ job₂ hv₂ with ⟨rfl, rfl⟩ | hv₂
    · rfl
    · exact hunique id₂ job₂ hv₂ hctx
    · exact (hunique id₁ job₁ hv₁ hctx.symm).symm
    · exact hinv.unique id₁ id₂ job₁ job₂ hv₁ hv₂ hctx
  · intro id' u stored job' hstored' hl'
    have hc' : db.jobs.committed id' = some stored := (congrFun hc id').symm.trans hstored'
    rcases hlock id' u job' hl' with ⟨rfl, _, rfl⟩ | hl'
    · exact hstored stored hc'
    · exact hinv.context id' u stored job' hc' hl'
  · intro id' u job' hl' hnone
    have hc' : db.jobs.committed id' = none := (congrFun hc id').symm.trans hnone
    rcases hlock id' u job' hl' with ⟨rfl, rfl, rfl⟩ | hl'
    · exact hnew hc'
    · exact hinv.inserting id' u job' hl' hc'
  · intro id'
    have hcount := hinv.attempts id'
    rw [← hc] at hcount
    exact hcount
  · intro id' job' hc'
    exact hinv.queued id' job' ((congrFun hc id').symm.trans hc')
  · intro id' job' hc'
    exact hinv.running id' job' ((congrFun hc id').symm.trans hc')

def Proceeds (env : Env) (t : Nat) (φ : Phase) (q : Stmt) (r : Result q) (db db' : Db) : Prop :=
  Inv env db' ∧ (∃ ψ, φ.next env q r ψ ∧ ψ.holds env t db') ∧ Pending env t db db'

def Stmt.quiet : Stmt → Bool
  | .now | .uuid4 | .getIncident _ | .evidenceIds _ | .redeliver _ | .analyse | .persisted => true
  | _ => false

theorem exec_quiet {q : Stmt} {r : Result q} (hq : q.quiet = true)
    (h : exec env t q c db = some (r, db')) :
    db'.jobs = db.jobs ∧ db'.advisory = db.advisory ∧ db'.history = db.history ∧
      (∀ id ∈ db.queue, id ∈ db'.queue) ∧ ∀ φ : Phase, φ.next env q r φ := by
  cases q with
  | now | analyse | persisted =>
      cases c with
      | auto | time | pushRaises | raises | snapshot | completion =>
          cases h <;> exact ⟨rfl, rfl, rfl, fun _ h => h, fun _ => rfl⟩
  | uuid4 => cases h; exact ⟨rfl, rfl, rfl, fun _ h => h, fun _ => rfl⟩
  | getIncident | evidenceIds => cases h; exact ⟨rfl, rfl, rfl, fun _ h => h, fun _ => ⟨rfl, rfl⟩⟩
  | redeliver id =>
      cases h
      exact ⟨rfl, rfl, rfl, fun _ h => List.mem_append_left _ h, fun _ => rfl⟩
  | _ => cases hq

theorem frame_of_eq (hjobs : db'.jobs = db.jobs) (hkey : db'.advisory = db.advisory)
    (hhistory : db'.history = db.history) : Frame env t db db' where
  lock id job := by rw [hjobs]
  kept id job _ := by rw [hjobs]
  key k hk := by rw [hkey]; exact hk
  absent context _ hv := by rw [hjobs]; exact hv
  row id job hc := ⟨job, by rw [hjobs]; exact hc, .refl env t id job (by rw [hhistory])⟩
  aside := by rw [hhistory]; exact .refl t db.history

theorem proceeds_quiet {φ : Phase} {q : Stmt} {r : Result q} (hq : q.quiet = true)
    (hinv : Inv env db) (hφ : φ.holds env t db) (h : exec env t q c db = some (r, db')) :
    Proceeds env t φ q r db db' := by
  obtain ⟨hjobs, hkey, hhistory, hqueue, hnext⟩ := exec_quiet hq h
  refine ⟨?_, ⟨φ, hnext φ, (frame_of_eq hjobs hkey hhistory).holds hφ⟩, ?_⟩
  · refine hinv.of_history hjobs (fun u k hk => by rw [hkey]; exact hk) (by rw [hhistory]) ?_ ?_
    · intro id job hc hs
      rw [hhistory]
      exact (hinv.queued id job hc hs).imp_left (hqueue id)
    · rw [hhistory]
      exact hinv.running
  · refine .of_jobs hjobs (fun u k _ hk => by rw [hkey]; exact hk) (by rw [hhistory]) ?_
    intro u _
    rw [hhistory]
    exact .refl u db.history

theorem proceeds_acquire {key : String} {r : Unit} (hinv : Inv env db)
    (hφ : Phase.idle.holds env t db)
    (h : exec env t (.acquireContextLock key) c db = some (r, db')) :
    Proceeds env t .idle (.acquireContextLock key) r db db' := by
  obtain ⟨locks, hl, ho⟩ := Option.map_eq_some_iff.mp h
  cases ho
  have hother : ∀ u k, db.advisory k = some u → locks k = some u := by
    intro u k hk
    rcases eq_or_ne u t with rfl | hu
    · obtain ⟨_, rfl⟩ := Locks.acquire_cases hl
      rcases eq_or_ne k (env.hashtextextended key) with rfl | hne
      · exact Function.update_self ..
      · exact (Function.update_of_ne hne _ _).trans hk
    · exact (Locks.acquire_other hl hu).mpr hk
  refine ⟨?_, ⟨.locked key, rfl, hφ.1, hφ.2, Locks.acquire_self hl⟩, ?_⟩
  · exact hinv.of_history rfl hother rfl hinv.queued hinv.running
  · exact .of_jobs rfl (fun u k _ hk => hother u k hk) rfl fun u _ => .refl u db.history

theorem findForContext_some {context : Context} {job : Job} (hinv : Inv env db)
    (hn : db.jobs.NoLocks t) (h : findForContext db t context = some job) :
    job.context = context ∧ db.jobs.committed job.id = some job := by
  obtain ⟨id, _, hv⟩ := List.mem_filterMap.mp (List.mem_of_find?_eq_some h)
  have hc : db.jobs.committed id = some job := (Table.NoLocks.view hn id).symm.trans hv
  obtain rfl : job.id = id := hinv.ids id job (.inl hc)
  exact ⟨by simpa using List.find?_some h, hc⟩

theorem proceeds_find {context : Context} {r : Option Job} (hinv : Inv env db)
    (hφ : (Phase.locked (lockKey context)).holds env t db)
    (h : exec env t (.findForContext context) c db = some (r, db')) :
    Proceeds env t (.locked (lockKey context)) (.findForContext context) r db db' := by
  obtain ⟨hn, hb, hk⟩ := hφ
  cases h
  refine ⟨hinv, ?_, .of_jobs rfl (fun _ _ _ hk => hk) rfl fun u _ => .refl u db.history⟩
  have hview := Table.NoLocks.view hn
  cases hfind : findForContext db t context with
  | none =>
      refine ⟨.absent context, rfl, hn, hb, hk, fun id job hv hctx => ?_⟩
      have hcommitted : ∃ stored, db.jobs.committed id = some stored ∧
          stored.context = context := by
        rcases hv with hc | ⟨u, hl⟩
        · exact ⟨job, hc, hctx⟩
        · cases hc : db.jobs.committed id with
          | some stored => exact ⟨stored, rfl, (hinv.context id u stored job hc hl).symm.trans hctx⟩
          | none =>
              have hkey := hinv.inserting id u job hl hc
              rw [hctx] at hkey
              obtain rfl : u = t := Option.some.inj (hkey.symm.trans hk)
              exact absurd hl (hn id job)
      obtain ⟨stored, hc, hctx'⟩ := hcommitted
      have hmem : stored ∈ db.jobs.keys.filterMap (db.jobs.view t) :=
        List.mem_filterMap.mpr ⟨id, hinv.known id stored (.inl hc), (hview id).trans hc⟩
      have hnot := List.find?_eq_none.mp hfind stored hmem
      simp [hctx'] at hnot
  | some job =>
      obtain ⟨hctx, hc⟩ := findForContext_some hinv hn hfind
      refine ⟨.found job, ⟨rfl, hctx⟩, hn, hb, by rw [hctx]; exact hk, job, hc, rfl, fun hf => ?_⟩
      exact ⟨by rw [hf]; decide, fun _ => hf⟩

theorem proceeds_create {job : Job} {r : Unit} (hinv : Inv env db)
    (hφ : (Phase.absent job.context).holds env t db) (hstatus : job.status = "queued")
    (hcount : job.attemptCount = 0) (h : exec env t (.create job) c db = some (r, db')) :
    Proceeds env t (.absent job.context) (.create job) r db db' := by
  obtain ⟨hn, hb, hk, hnone⟩ := hφ
  obtain ⟨tb, hi, ho⟩ := Option.map_eq_some_iff.mp h
  cases ho
  obtain ⟨hc, hl, rfl⟩ := Table.insert_cases hi
  refine ⟨?_, ⟨.created job, rfl, own_setLock hn rfl, hb, hk, hc, hstatus, hcount⟩, ?_⟩
  · refine inv_setLock hinv rfl rfl ⟨by simp, fun id hid => by simp [hid]⟩ rfl (.inr ⟨hk, hnone⟩) ?_
      fun _ => hk
    intro stored hstored
    rw [hc] at hstored
    cases hstored
  · exact .of_setLock (Table.not_blocked_iff.mpr (.inl hl)) rfl rfl rfl (.inr hk) rfl
      fun u _ => .refl u db.history

theorem proceeds_write {φ ψ : Phase} {q : Stmt} {r : Result q} {id : Uuid} {f : Job → Job}
    {stored : Job} {h' : History} (hinv : Inv env db) (hn : db.jobs.NoLocks t)
    (hc : db.jobs.committed id = some stored)
    (hf : (f stored).id = stored.id ∧ (f stored).context = stored.context)
    (hb : ¬ db.jobs.blocked t id)
    (hdb : db' = { db with jobs := db.jobs.setLock t id (f stored), history := h' })
    (hh : h'.claims = db.history.claims ∧ h'.stranded = db.history.stranded ∧
      h'.duty = db.history.duty ∧ h'.runner = db.history.runner)
    (haside : ∀ u, u ≠ t → Aside u db.history h') (hnext : φ.next env q r ψ)
    (hψ : Own t id (f stored) db' → ψ.holds env t db') : Proceeds env t φ q r db db' := by
  subst hdb
  obtain ⟨hclaims, hlost, hduty, hrunner⟩ := hh
  have hid : stored.id = id := hinv.ids id stored (.inl hc)
  have hinv₁ : Inv env { db with jobs := db.jobs.setLock t id (f stored) } := by
    refine inv_setLock hinv rfl rfl ⟨hinv.known id stored (.inl hc), fun _ h => h⟩
      (hf.1.trans hid) (.inl ⟨stored, .inl hc, hf.2⟩) ?_ ?_
    · intro stored' hstored'
      obtain rfl : stored = stored' := Option.some.inj (hc.symm.trans hstored')
      exact hf.2
    · intro hnone
      rw [hc] at hnone
      cases hnone
  refine ⟨?_, ⟨ψ, hnext, hψ (own_setLock hn rfl)⟩, ?_⟩
  · refine hinv₁.of_history rfl (fun _ _ hk => hk) hclaims ?_ ?_
    · simp only [Attended, hlost, hduty]
      exact hinv₁.queued
    · simp only [hlost, hduty, hrunner]
      exact hinv₁.running
  · exact .of_setLock hb rfl rfl rfl (.inl ⟨stored, .inl hc, hf.2.symm⟩) hrunner haside

theorem proceeds_requeue {loaded : Job} {provider model : String} {now : Timestamp} {r : Unit}
    (hinv : Inv env db) (hφ : (Phase.found loaded).holds env t db)
    (hfailed : loaded.status = "failed")
    (h : exec env t (.requeue loaded provider model now) c db = some (r, db')) :
    Proceeds env t (.found loaded) (.requeue loaded provider model now) r db db' := by
  obtain ⟨hn, hb, hk, stored, hc, hctx, hs⟩ := hφ
  obtain ⟨hblocked, rfl⟩ := writeJob_cases h hn hc
  obtain ⟨hq, hfresh⟩ := hs hfailed
  refine proceeds_write hinv hn hc ⟨rfl, rfl⟩ hblocked rfl ⟨rfl, rfl, rfl, rfl⟩
    (fun u _ => .refl u _) rfl ?_
  intro hown
  refine ⟨hb, stored, hc, _, hown, hctx, hk, ?_, hq, hfresh, rfl⟩
  exact assign_of_ne (by rw [hfailed]; decide)

theorem proceeds_claim {id : Uuid} {now : Timestamp} {r : Option Job} (hinv : Inv env db)
    (hφ : (Phase.popped id).holds env t db)
    (h : exec env t (.claim id now) c db = some (r, db')) :
    Proceeds env t (.popped id) (.claim id now) r db db' := by
  obtain ⟨hn, hb⟩ := hφ
  obtain ⟨⟨r', tb⟩, hi, ho⟩ := Option.map_eq_some_iff.mp h
  cases ho
  have hcases := Table.updateByKey_cases hi
  cases r' with
  | none =>
      have hsame : tb = db.jobs := by
        rcases hcases with ⟨_, rfl⟩ | ⟨v, _, _, _, hr, _⟩
        · rfl
        · cases hr
      subst hsame
      have haside := fun u (hu : u ≠ t) => aside_setDuty hu db.history none
      refine ⟨?_, ⟨.idle, rfl, hn, ?_⟩, ?_⟩
      · refine hinv.of_duty rfl rfl rfl rfl rfl (fun u hu => (haside u hu).duty)
          (fun _ hmem => .inl hmem) ?_ ?_
        · intro id' job hc hs hd
          have hid : id' = id := by simpa [hb.duty, eq_comm] using hd
          subst hid
          have hnot := Table.updateByKey_none hi ((Table.NoLocks.view hn id').trans hc)
          simp [isQueued, hs] at hnot
        · intro id' job _ hd
          rw [hb.duty] at hd
          cases hd
      · exact ⟨Function.update_self .., hb.pushes, hb.starts⟩
      · exact .of_jobs rfl (fun _ _ _ hk => hk) rfl haside
  | some job =>
      rcases hcases with ⟨hr, _⟩ | ⟨stored, hv, hq, hblocked, hr, rfl⟩
      · cases hr
      · obtain rfl : job = claimed now stored := Option.some.inj hr
        have hc := (Table.NoLocks.view hn id).symm.trans hv
        have hid : stored.id = id := hinv.ids id stored (.inl hc)
        refine proceeds_write hinv hn hc ⟨rfl, rfl⟩ hblocked rfl ⟨rfl, rfl, rfl, rfl⟩
          (fun u _ => .refl u _) ⟨rfl, hid, rfl⟩ ?_
        intro hown
        exact ⟨hb, stored, hc, _, hown, by simpa [isQueued] using hq, rfl, rfl⟩

theorem proceeds_get {id : Uuid} {r : Option Job} (hinv : Inv env db)
    (hφ : (Phase.working id true).holds env t db)
    (h : exec env t (.get id) c db = some (r, db')) :
    Proceeds env t (.working id true) (.get id) r db db' := by
  obtain ⟨hn, hb, stored, hc, howner⟩ := hφ
  cases h
  have hview : db.jobs.view t id = some stored := (Table.NoLocks.view hn id).trans hc
  refine ⟨hinv, ?_, .of_jobs rfl (fun _ _ _ hk => hk) rfl fun u _ => .refl u db.history⟩
  rw [hview]
  refine ⟨.failing id stored, ⟨rfl, hinv.ids id stored (.inl hc)⟩, hn, hb, stored, hc, howner, ?_⟩
  intro hfailed _
  rw [hfailed]
  decide

theorem proceeds_checkpoint {id : Uuid} {contextSnapshot : Json} {now : Timestamp} {r : Unit}
    (hinv : Inv env db) (hφ : (Phase.working id true).holds env t db)
    (h : exec env t (.checkpointContext id contextSnapshot now) c db = some (r, db')) :
    Proceeds env t (.working id true) (.checkpointContext id contextSnapshot now) r db db' := by
  obtain ⟨hn, hb, stored, hc, howner⟩ := hφ
  obtain ⟨hblocked, rfl⟩ := writeJob_cases h hn hc
  refine proceeds_write hinv hn hc ⟨rfl, rfl⟩ hblocked rfl ⟨rfl, rfl, rfl, rfl⟩
    (fun u _ => .refl u _) rfl ?_
  intro hown
  exact ⟨hb, stored, hc, _, hown, rfl, howner, rfl⟩

theorem proceeds_complete {loaded : Job} {contextSnapshot : Json} {completion : Completion}
    {now : Timestamp} {r : Unit} (hinv : Inv env db)
    (hφ : (Phase.working loaded.id true).holds env t db) (hstatus : loaded.status ≠ "completed")
    (h : exec env t (.complete loaded contextSnapshot completion now) c db = some (r, db')) :
    Proceeds env t (.working loaded.id true) (.complete loaded contextSnapshot completion now) r
      db db' := by
  obtain ⟨hn, hb, stored, hc, howner⟩ := hφ
  obtain ⟨hblocked, rfl⟩ := writeJob_cases h hn hc
  refine proceeds_write hinv hn hc ⟨rfl, rfl⟩ hblocked rfl ⟨rfl, rfl, rfl, rfl⟩
    (fun u _ => .refl u _) rfl ?_
  intro hown
  exact ⟨hb, stored, hc, _, hown, assign_of_ne hstatus, howner, rfl⟩

theorem exec_fail {loaded : Job} {failure : Failure} {now : Timestamp} {r : Unit} {stored : Job}
    (h : exec env t (.fail loaded failure now) c db = some (r, db')) (hn : db.jobs.NoLocks t)
    (hc : db.jobs.committed loaded.id = some stored) :
    ¬ db.jobs.blocked t loaded.id ∧
      db' = { db with
        jobs := db.jobs.setLock t loaded.id (failed loaded failure now stored)
        history :=
          if overruns db t loaded.id then
            { db.history with overrun := loaded.id :: db.history.overrun }
          else db.history } := by
  obtain ⟨⟨r', db₁⟩, hi, ho⟩ := Option.map_eq_some_iff.mp h
  cases ho
  obtain ⟨hb, rfl⟩ := writeJob_cases hi hn hc
  exact ⟨hb, rfl⟩

theorem proceeds_fail_handling {context : Context} {loaded : Job} {failure : Failure}
    {now : Timestamp} {r : Unit} (hinv : Inv env db)
    (hφ : (Phase.handling context loaded.id).holds env t db) (hstatus : loaded.status = "queued")
    (h : exec env t (.fail loaded failure now) c db = some (r, db')) :
    Proceeds env t (.handling context loaded.id) (.fail loaded failure now) r db db' := by
  obtain ⟨hn, hb, stored, hc, hctx⟩ := hφ
  obtain ⟨hblocked, hdb⟩ := exec_fail h hn hc
  have hoverruns : overruns db t loaded.id = isClaimed stored := by
    simp [overruns, hb.duty, Table.NoLocks.view hn, hc]
  refine proceeds_write hinv hn hc ⟨rfl, rfl⟩ hblocked hdb ?_ ?_ rfl ?_
  · split <;> exact ⟨rfl, rfl, rfl, rfl⟩
  · intro u _
    split
    · exact ⟨rfl, fun _ => rfl, fun _ => rfl, fun _ => rfl, fun _ => rfl, fun _ => rfl,
        fun _ h => List.mem_cons_of_mem _ h⟩
    · exact .refl u db.history
  · intro hown
    subst hdb
    refine ⟨?_, stored, hc, _, hown, assign_of_ne (by rw [hstatus]; decide), ?_, rfl⟩
    · dsimp only
      split
      · exact ⟨hb.duty, hb.pushes, hb.starts⟩
      · exact hb
    · dsimp only
      rw [hoverruns]
      intro hfresh
      by_contra hclaimed
      rw [if_pos (by simpa using hclaimed)] at hfresh
      exact hfresh List.mem_cons_self

theorem proceeds_fail_worker {loaded : Job} {failure : Failure} {now : Timestamp} {r : Unit}
    (hinv : Inv env db) (hφ : (Phase.failing loaded.id loaded).holds env t db)
    (h : exec env t (.fail loaded failure now) c db = some (r, db')) :
    Proceeds env t (.failing loaded.id loaded) (.fail loaded failure now) r db db' := by
  obtain ⟨hn, hb, stored, hc, howner, hnot⟩ := hφ
  obtain ⟨hblocked, hdb⟩ := exec_fail h hn hc
  have hoverruns : overruns db t loaded.id = false := by simp [overruns, hb.duty]
  rw [if_neg (by simp [hoverruns])] at hdb
  refine proceeds_write hinv hn hc ⟨rfl, rfl⟩ hblocked hdb ⟨rfl, rfl, rfl, rfl⟩
    (fun u _ => .refl u _) rfl ?_
  intro hown
  subst hdb
  refine ⟨hb, stored, hc, _, hown, ?_, howner, rfl⟩
  by_cases hfailed : loaded.status = "failed"
  · refine .inr ⟨?_, hnot hfailed⟩
    simp only [failed, hfailed]
    exact assign_self
  · exact .inl (assign_of_ne hfailed)

theorem owed_self (id : Uuid) : owed (some (.pushing id)) id = 1 := by
  simp [owed]

theorem pushes_pushed {id : Uuid} {duty : Option Duty} {waiting : Option Uuid}
    (hb : Books t (some (.pushing id)) waiting db.history) (hduty : ∀ id', owed duty id' = 0) :
    Books t duty waiting (db.history.pushed t id duty) where
  duty := Function.update_self ..
  pushes id' := by
    have hold := hb.pushes id'
    change db.history.queuings.count (t, id') =
      ((t, id) :: db.history.enqueues).count (t, id') + db.history.lost.count (t, .pushing id') + _
    rw [hold, hduty]
    by_cases hid : id = id'
    · subst hid
      rw [owed_self, List.count_cons_self]
      omega
    · rw [List.count_cons_of_ne (by simpa using hid)]
      simp [owed, hid]
  starts := hb.starts

theorem proceeds_rpush {context : Context} {id : Uuid} {r : Except String Unit}
    (hinv : Inv env db) (hφ : (Phase.pushing context id).holds env t db)
    (h : exec env t (.rpush id) c db = some (r, db')) :
    Proceeds env t (.pushing context id) (.rpush id) r db db' := by
  obtain ⟨hn, hb, hs⟩ := hφ
  have hworks : ∀ id' job, db.jobs.committed id' = some job →
      db.history.duty t = some (.working id') → NotRunner t id' job db.history := by
    intro id' job _ hd
    rw [hb.duty] at hd
    cases hd
  have haside := fun u (hu : u ≠ t) duty => aside_pushed hu db.history id duty
  cases c with
  | auto =>
      cases h
      refine ⟨?_, ⟨.answered context id, rfl, hn, pushes_pushed hb fun _ => rfl, hs⟩, ?_⟩
      · refine hinv.of_duty rfl rfl rfl rfl rfl (fun u hu => (haside u hu none).duty)
          (fun _ hmem => .inl (List.mem_append_left _ hmem)) ?_ hworks
        intro id' job _ _ hd
        have hid : id' = id := by simpa [hb.duty, eq_comm] using hd
        subst hid
        exact .inl (List.mem_append_right _ List.mem_cons_self)
      · exact .of_jobs rfl (fun _ _ _ hk => hk) rfl fun u hu => haside u hu none
  | pushRaises applied error =>
      cases h
      refine ⟨?_, ⟨.handling context id, rfl, hn, pushes_pushed hb fun _ => rfl, hs⟩, ?_⟩
      · refine hinv.of_duty rfl rfl rfl rfl rfl (fun u hu => (haside u hu _).duty) ?_ ?_ hworks
        · intro id' hmem
          dsimp only
          split
          · exact .inl (List.mem_append_left _ hmem)
          · exact .inl hmem
        · intro id' job _ _ hd
          have hid : id' = id := by simpa [hb.duty, eq_comm] using hd
          subst hid
          exact .inr ⟨t, .inr (.inl (Function.update_self ..))⟩
      · exact .of_jobs rfl (fun _ _ _ hk => hk) rfl fun u hu => haside u hu _
  | _ => cases h

theorem proceeds_blpop {r : Option Uuid} (hinv : Inv env db) (hφ : Phase.idle.holds env t db)
    (h : exec env t .blpop c db = some (r, db')) : Proceeds env t .idle .blpop r db db' := by
  obtain ⟨hn, hb⟩ := hφ
  simp only [exec] at h
  split at h
  · cases h
    exact ⟨hinv, ⟨.idle, rfl, hn, hb⟩,
      .of_jobs rfl (fun _ _ _ hk => hk) rfl fun u _ => .refl u db.history⟩
  · rename_i id rest hqueue
    cases h
    have haside := fun u (hu : u ≠ t) => aside_setDuty hu db.history (some (.popped id))
    refine ⟨?_, ⟨.popped id, rfl, hn, Function.update_self .., hb.pushes, hb.starts⟩, ?_⟩
    · refine hinv.of_duty rfl rfl rfl rfl rfl (fun u hu => (haside u hu).duty) ?_ ?_ ?_
      · intro id' hmem
        rw [hqueue] at hmem
        rcases List.mem_cons.mp hmem with rfl | hmem
        · exact .inr ⟨t, .inr (.inr (Function.update_self ..))⟩
        · exact .inl hmem
      · intro id' job _ _ hd
        simp [hb.duty] at hd
      · intro id' job _ hd
        rw [hb.duty] at hd
        cases hd
    · exact .of_jobs rfl (fun _ _ _ hk => hk) rfl haside

theorem proceeds_build {id incidentId : Uuid} {r : Except Failure Json} (hinv : Inv env db)
    (hφ : (Phase.working id false).holds env t db)
    (h : exec env t (.build id incidentId) c db = some (r, db')) :
    Proceeds env t (.working id false) (.build id incidentId) r db db' := by
  obtain ⟨hn, hb, hs⟩ := hφ
  have hdb : db' = { db with history := { db.history with runs := (t, id) :: db.history.runs } } := by
    cases c with
    | raises | snapshot => cases h; rfl
    | _ => cases h
  subst hdb
  refine ⟨⟨hinv.ids, hinv.known, hinv.unique, hinv.context, hinv.inserting, hinv.attempts,
    hinv.queued, hinv.running⟩, ⟨.working id true, rfl, hn, ⟨hb.duty, hb.pushes, ?_⟩, hs⟩, ?_⟩
  · intro id'
    have hstarts := hb.starts id'
    change ((t, id) :: db.history.runs).count (t, id') + 0 ≤ _
    by_cases hid : id = id'
    · subst hid
      rw [List.count_cons_self]
      simpa using hstarts
    · rw [List.count_cons_of_ne (by simpa using hid)]
      simpa [hid] using hstarts
  · refine .of_jobs rfl (fun _ _ _ hk => hk) rfl fun u hu => ?_
    exact ⟨rfl, fun _ => rfl, fun _ => rfl, fun _ => rfl, fun _ => rfl,
      fun _ => count_cons_other hu _ _ _, fun _ h => h⟩

theorem proceeds_aclose {id : Uuid} {r : Unit} (hinv : Inv env db)
    (hφ : (Phase.finished id).holds env t db) (h : exec env t .aclose c db = some (r, db')) :
    Proceeds env t (.finished id) .aclose r db db' := by
  obtain ⟨hn, hb, stored, hc, hnot⟩ := hφ
  cases h
  have haside := fun u (hu : u ≠ t) => aside_setDuty hu db.history none
  refine ⟨?_, ⟨.idle, rfl, hn, Function.update_self .., hb.pushes, hb.starts⟩, ?_⟩
  · refine hinv.of_duty rfl rfl rfl rfl rfl (fun u hu => (haside u hu).duty)
      (fun _ hmem => .inl hmem) ?_ ?_
    · intro id' job _ _ hd
      simp [hb.duty] at hd
    · intro id' job hc' hd
      obtain rfl : id = id' := by simpa [hb.duty] using hd
      obtain rfl : stored = job := Option.some.inj (hc.symm.trans hc')
      exact hnot
  · exact .of_jobs rfl (fun _ _ _ hk => hk) rfl haside

end Exec

end Jobs
