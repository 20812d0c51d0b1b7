import AiSoc.Jobs.Soundness

namespace Jobs

open Permissions (Uuid Timestamp)
open PyJson (Json)
open RowStore Process AdvisoryLock

section Held

variable {env : Env} {t u : Nat} {id : Uuid} {job : Job} {db : Db}

theorem heldBy_some {tb : Table Uuid Job} {p : Uuid × Job} (h : heldBy tb t id = some p) :
    p.1 = id ∧ tb.lock id = some (t, p.2) := by
  unfold heldBy at h
  split at h
  · rename_i u job hl
    split at h
    · rename_i hu
      cases h
      exact ⟨rfl, by rw [hl, hu]⟩
    · cases h
  · cases h

theorem held_of_noLocks (hn : db.jobs.NoLocks t) : held db t = none := by
  refine List.findSome?_eq_none_iff.mpr fun id _ => ?_
  cases h : heldBy db.jobs t id with
  | none => rfl
  | some p => exact absurd (heldBy_some h).2 (hn id p.2)

theorem held_of_own (hinv : Inv env db) (ho : Own t id job db) : held db t = some (id, job) := by
  cases h : held db t with
  | none =>
      have hmem := hinv.known id job (.inr ⟨t, ho.lock⟩)
      have hnone := List.findSome?_eq_none_iff.mp h id hmem
      simp [heldBy, ho.lock] at hnone
  | some p =>
      obtain ⟨id', _, hp⟩ := List.exists_of_findSome?_eq_some h
      obtain ⟨hid, hl⟩ := heldBy_some hp
      obtain rfl : id' = id := ho.only id' p.2 hl
      obtain rfl : p.2 = job := by
        have hsame := hl.symm.trans ho.lock
        simpa using hsame
      rw [← hid]

theorem transition_of_noLocks (hn : db.jobs.NoLocks t) : transition db t = none := by
  simp only [transition, held_of_noLocks hn]

theorem transition_same (hinv : Inv env db) (ho : Own t id job db)
    (hs : statusOf (db.jobs.committed id) = some job.status) : transition db t = none := by
  simp only [transition, held_of_own hinv ho, if_pos hs]

theorem transition_new (hinv : Inv env db) (ho : Own t id job db)
    (hs : statusOf (db.jobs.committed id) ≠ some job.status) :
    transition db t = some (id, job.status) := by
  simp only [transition, held_of_own hinv ho, if_neg hs]

end Held

section Histories

variable {t u : Nat} {h : History}

def History.queue (h : History) (t : Nat) (id : Uuid) : History :=
  { h.setDuty t (some (.pushing id)) with queuings := (t, id) :: h.queuings }

def History.claim (h : History) (t : Nat) (id : Uuid) : History :=
  { h.setDuty t (some (.working id)) with
    claims := (t, id) :: h.claims
    runner := Function.update h.runner id (some t) }

def History.settle (h : History) (t : Nat) : History :=
  h.setDuty t (Duty.afterCommit (h.duty t))

theorem commit_queued (id : Uuid) : h.commit t (some (id, "queued")) = h.queue t id := rfl

theorem commit_running (id : Uuid) : h.commit t (some (id, "running")) = h.claim t id := rfl

theorem commit_none : h.commit t none = h.settle t := rfl

theorem commit_settled {id : Uuid} {status : String} (hq : status ≠ "queued")
    (hr : status ≠ "running") : h.commit t (some (id, status)) = h.settle t := by
  simp only [History.commit, if_neg hq, if_neg hr, History.settle]

theorem aside_queue (hu : u ≠ t) (id : Uuid) : Aside u h (h.queue t id) :=
  ⟨Function.update_of_ne hu _ _, fun _ => count_cons_other hu _ _ _, fun _ => rfl, fun _ => rfl,
    fun _ => rfl, fun _ => rfl, fun _ h => h⟩

theorem aside_claim (hu : u ≠ t) (id : Uuid) : Aside u h (h.claim t id) :=
  ⟨Function.update_of_ne hu _ _, fun _ => rfl, fun _ => rfl, fun _ => rfl,
    fun _ => count_cons_other hu _ _ _, fun _ => rfl, fun _ h => h⟩

theorem aside_settle (hu : u ≠ t) : Aside u h (h.settle t) :=
  aside_setDuty hu h _

theorem Books.queue {id : Uuid} (hb : Books t none none h) :
    Books t (some (.pushing id)) none (h.queue t id) where
  duty := Function.update_self ..
  pushes id' := by
    have hold := hb.pushes id'
    change ((t, id) :: h.queuings).count (t, id') =
      h.enqueues.count (t, id') + h.lost.count (t, .pushing id') + _
    by_cases hid : id = id'
    · subst hid
      rw [List.count_cons_self, hold, owed_self]
      simp [owed]
    · rw [List.count_cons_of_ne (by simpa using hid), hold]
      simp [owed, hid]
  starts := hb.starts

theorem Books.claim {id : Uuid} (hb : Books t (some (.popped id)) none h) :
    Books t (some (.working id)) (some id) (h.claim t id) where
  duty := Function.update_self ..
  pushes := hb.pushes
  starts id' := by
    have hold := hb.starts id'
    change h.runs.count (t, id') + _ ≤ ((t, id) :: h.claims).count (t, id')
    by_cases hid : id = id'
    · subst hid
      rw [List.count_cons_self]
      simpa using hold
    · rw [List.count_cons_of_ne (by simpa using hid)]
      simpa [hid] using hold

theorem Books.settle {task : Option Duty} {waiting : Option Uuid} (hb : Books t task waiting h)
    (htask : ∀ id, owed task id = 0) :
    Books t (Duty.afterCommit task) waiting (h.settle t) where
  duty := by
    rw [← hb.duty]
    exact Function.update_self ..
  pushes id := by
    have hafter : owed (Duty.afterCommit task) id = 0 := by
      unfold Duty.afterCommit
      split <;> rfl
    rw [hafter, ← htask id]
    exact hb.pushes id
  starts := hb.starts

theorem settle_working {id : Uuid} (hd : h.duty t = some (.working id)) : h.settle t = h := by
  have hsame : Duty.afterCommit (h.duty t) = h.duty t := by rw [hd]; rfl
  simp only [History.settle, History.setDuty, hsame, Function.update_eq_self]

end Histories

section Ends

variable {env : Env} {t u : Nat} {id : Uuid} {job stored : Job} {db db' : Db}

structure Closes (t : Nat) (db db' : Db) : Prop where
  keys : db'.jobs.keys = db.jobs.keys
  version : ∀ id job, db'.jobs.Version id job → db.jobs.Version id job
  lock : ∀ id u job, db'.jobs.lock id = some (u, job) ↔ db.jobs.lock id = some (u, job) ∧ u ≠ t
  kept : ∀ id u job, db.jobs.lock id = some (u, job) → u ≠ t →
    db'.jobs.committed id = db.jobs.committed id
  grows : ∀ id, db'.jobs.committed id = none → db.jobs.committed id = none
  advisory : db'.advisory = db.advisory.release t
  queue : db'.queue = db.queue

theorem closes_commit (t : Nat) (db : Db) : Closes t db (commitTx t db) where
  keys := rfl
  version _ _ h := Table.version_of_commit h
  lock id u job := Table.commit_lock db.jobs t u id job
  kept id u job hl hu := by
    refine Table.commit_committed_of_not_held fun job' hl' => hu ?_
    exact (Prod.mk.inj (Option.some.inj (hl.symm.trans hl'))).1
  grows id hnone := by
    rcases Table.view_cases db.jobs t id with ⟨job, _, hv⟩ | ⟨_, hv⟩
    · exact absurd (hv.symm.trans hnone) (by simp)
    · exact hv.symm.trans hnone
  advisory := rfl
  queue := rfl

theorem closes_rollback (t : Nat) (db : Db) (h' : History) :
    Closes t db { rollbackTx t db with history := h' } where
  keys := rfl
  version _ _ h := Table.version_of_rollback h
  lock id u job := Table.rollback_lock db.jobs t u id job
  kept _ _ _ _ _ := rfl
  grows _ h := h
  advisory := rfl
  queue := rfl

theorem Closes.noLocks (h : Closes t db db') : db'.jobs.NoLocks t :=
  fun id job hl => ((h.lock id t job).mp hl).2 rfl

theorem Closes.inv (h : Closes t db db') (hinv : Inv env db)
    (hattempts : ∀ id, countFor id db'.history.claims =
      match db'.jobs.committed id with
      | some job => job.attemptCount
      | none => 0)
    (hqueued : ∀ id job, db'.jobs.committed id = some job → job.status = "queued" →
      id ∈ db.queue ∨ id ∈ db'.history.stranded ∨ Attended db'.history id)
    (hrunning : ∀ id job, db'.jobs.committed id = some job → job.status = "running" →
      id ∈ db'.history.stranded ∨
        ∃ u, db'.history.runner id = some u ∧ db'.history.duty u = some (.working id)) :
    Inv env db' where
  ids id job hv := hinv.ids id job (h.version id job hv)
  known id job hv := by
    rw [h.keys]
    exact hinv.known id job (h.version id job hv)
  unique id id' job job' hv hv' := hinv.unique id id' job job' (h.version id job hv)
    (h.version id' job' hv')
  context id u job job' hc hl := by
    obtain ⟨hl, hu⟩ := (h.lock id u job').mp hl
    exact hinv.context id u job job' ((h.kept id u job' hl hu).symm.trans hc) hl
  inserting id u job hl hnone := by
    obtain ⟨hl, hu⟩ := (h.lock id u job).mp hl
    rw [HoldsKey, h.advisory]
    exact (Locks.release_other hu).mpr (hinv.inserting id u job hl (h.grows id hnone))
  attempts := hattempts
  queued := by rw [h.queue]; exact hqueued
  running := hrunning

theorem Closes.frame (h : Closes t db db') (hu : u ≠ t)
    (hrow : ∀ id job, db.jobs.committed id = some job →
      ∃ job', db'.jobs.committed id = some job' ∧ Later env u db db' id job job')
    (haside : Aside u db.history db'.history) : Frame env u db db' where
  lock id job := (h.lock id u job).trans (and_iff_left hu)
  kept id job hl := h.kept id u job hl hu
  key k hk := by
    rw [h.advisory]
    exact (Locks.release_other hu).mpr hk
  absent context _ hv id job hv' := hv id job (h.version id job hv')
  row := hrow
  aside := haside

end Ends

section Commits

variable {env : Env} {t u : Nat} {id : Uuid} {job stored : Job} {db : Db}

theorem committed_of_noLocks (hn : db.jobs.NoLocks t) :
    (commitTx t db).jobs.committed = db.jobs.committed :=
  funext fun id => Table.NoLocks.view hn id

theorem committed_of_own (ho : Own t id job db) :
    (commitTx t db).jobs.committed = Function.update db.jobs.committed id (some job) := by
  funext id'
  rcases eq_or_ne id' id with rfl | hne
  · rw [Function.update_self]
    exact Table.commit_committed_of_lock ho.lock
  · rw [Function.update_of_ne hne]
    exact Table.commit_committed_of_not_held fun job' hl => hne (ho.only id' job' hl)

theorem inv_commit_own (hinv : Inv env db) (ho : Own t id job db)
    (hduty : ∀ duty, db.history.duty t = some duty → duty.id = id)
    (haside : ∀ u, u ≠ t → (commitTx t db).history.duty u = db.history.duty u)
    (hlost : (commitTx t db).history.stranded = db.history.stranded)
    (hrunner : ∀ id', id' ≠ id →
      (commitTx t db).history.runner id' = db.history.runner id')
    (hclaims : ∀ id', id' ≠ id →
      countFor id' (commitTx t db).history.claims = countFor id' db.history.claims)
    (hcount : countFor id (commitTx t db).history.claims = job.attemptCount)
    (hqueued : job.status = "queued" → id ∈ db.queue ∨ id ∈ (commitTx t db).history.stranded ∨
      Attended (commitTx t db).history id)
    (hrunning : job.status = "running" → id ∈ (commitTx t db).history.stranded ∨
      ∃ u, (commitTx t db).history.runner id = some u ∧
        (commitTx t db).history.duty u = some (.working id)) :
    Inv env (commitTx t db) := by
  have hcommitted := committed_of_own ho
  have hother : ∀ id' u, id' ≠ id → ∀ duty, duty.id = id' →
      db.history.duty u = some duty → (commitTx t db).history.duty u = some duty := by
    intro id' u hne duty hid hd
    have hut : u ≠ t := by
      rintro rfl
      exact hne (hid.symm.trans (hduty duty hd))
    exact (haside u hut).trans hd
  refine (closes_commit t db).inv hinv ?_ ?_ ?_
  · intro id'
    rw [hcommitted]
    rcases eq_or_ne id' id with rfl | hne
    · rw [Function.update_self]
      exact hcount
    · rw [Function.update_of_ne hne, hclaims id' hne]
      exact hinv.attempts id'
  · intro id' job' hc hs
    rw [hcommitted] at hc
    rcases eq_or_ne id' id with rfl | hne
    · rw [Function.update_self] at hc
      obtain rfl : job = job' := Option.some.inj hc
      exact hqueued hs
    · rw [Function.update_of_ne hne] at hc
      have hold := hinv.queued id' job' hc hs
      rw [hlost]
      refine hold.imp_right (.imp_right fun ⟨u, hu⟩ => ⟨u, ?_⟩)
      exact hu.imp (hother id' u hne _ rfl) (.imp (hother id' u hne _ rfl) (hother id' u hne _ rfl))
  · intro id' job' hc hs
    rw [hcommitted] at hc
    rcases eq_or_ne id' id with rfl | hne
    · rw [Function.update_self] at hc
      obtain rfl : job = job' := Option.some.inj hc
      exact hrunning hs
    · rw [Function.update_of_ne hne] at hc
      have hold := hinv.running id' job' hc hs
      rw [hlost]
      refine hold.imp_right fun ⟨u, hr, hd⟩ => ⟨u, (hrunner id' hne).trans hr, ?_⟩
      exact hother id' u hne _ rfl hd

end Commits

section Kinds

variable {env : Env} {t u : Nat} {id : Uuid} {job stored : Job} {kind : Kind} {db : Db}

def Kind.commit (h : History) (t : Nat) (id : Uuid) : Kind → History
  | .requeue _ => h.queue t id
  | .claim => h.claim t id
  | _ => h.settle t

theorem history_commit_settled (hinv : Inv env db) (ho : Own t id job db)
    (hs : job.status ≠ "queued" ∧ job.status ≠ "running" ∨
      statusOf (db.jobs.committed id) = some job.status) :
    (commitTx t db).history = db.history.settle t := by
  change db.history.commit t (transition db t) = _
  by_cases hsame : statusOf (db.jobs.committed id) = some job.status
  · rw [transition_same hinv ho hsame, commit_none]
  · obtain ⟨hq, hr⟩ := hs.resolve_right hsame
    rw [transition_new hinv ho hsame, commit_settled hq hr]

theorem history_commit_kind (hinv : Inv env db) (hc : db.jobs.committed id = some stored)
    (ho : Own t id job db) (hchange : Change env t db id stored job kind) :
    (commitTx t db).history = kind.commit db.history t id := by
  have hstored : statusOf (db.jobs.committed id) = some stored.status := by
    rw [hc]
    rfl
  cases kind with
  | requeue context =>
      obtain ⟨_, _, hs, hq, _, _⟩ := hchange
      change db.history.commit t (transition db t) = _
      rw [transition_new hinv ho (by rw [hstored, hs]; simpa using hq), hs]
      exact commit_queued id
  | claim =>
      obtain ⟨hq, hs, _⟩ := hchange
      change db.history.commit t (transition db t) = _
      rw [transition_new hinv ho (by rw [hstored, hs, hq]; decide), hs]
      exact commit_running id
  | checkpoint =>
      obtain ⟨hs, _, _⟩ := hchange
      exact history_commit_settled hinv ho (.inr (by rw [hstored, hs]))
  | handle =>
      obtain ⟨hs, _, _⟩ := hchange
      exact history_commit_settled hinv ho (.inl (by rw [hs]; decide))
  | complete =>
      obtain ⟨hs, _, _⟩ := hchange
      exact history_commit_settled hinv ho (.inl (by rw [hs]; decide))
  | fail =>
      obtain ⟨hs | ⟨hs, _⟩, _, _⟩ := hchange
      · exact history_commit_settled hinv ho (.inl (by rw [hs]; decide))
      · exact history_commit_settled hinv ho (.inr (by rw [hstored, hs]))

theorem aside_commit (hu : u ≠ t) : Aside u db.history (commitTx t db).history := by
  change Aside u _ (db.history.commit t (transition db t))
  unfold History.commit
  split
  · split
    · exact aside_queue hu _
    · split
      · exact aside_claim hu _
      · exact aside_settle hu
  · exact aside_settle hu

theorem kind_duty_id {duty : Duty} (h : kind.duty id = some duty) : duty.id = id := by
  cases kind <;> cases h <;> rfl

theorem countFor_claim (h : History) (t : Nat) (id id' : Uuid) :
    countFor id' (h.claim t id).claims = countFor id' h.claims + if id = id' then 1 else 0 := by
  by_cases hid : id = id' <;> simp [countFor, History.claim, hid]

theorem inv_commit_settled (hinv : Inv env db) (hc : db.jobs.committed id = some stored)
    (ho : Own t id job db) (hduty : ∀ duty, db.history.duty t = some duty → duty.id = id)
    (hh : (commitTx t db).history = db.history.settle t)
    (hcount : job.attemptCount = stored.attemptCount)
    (hs : job.status ≠ "queued" ∧ job.status ≠ "running" ∨
      job.status = stored.status ∧ db.history.duty t = some (.working id)) :
    Inv env (commitTx t db) := by
  refine inv_commit_own hinv ho hduty ?_ ?_ ?_ ?_ ?_ ?_ ?_ <;> rw [hh]
  · exact fun u hu => (aside_settle hu).duty
  · rfl
  · exact fun _ _ => rfl
  · exact fun _ _ => rfl
  · have hold := hinv.attempts id
    rw [hc] at hold
    exact hold.trans hcount.symm
  · intro hq
    obtain ⟨hsame, hworking⟩ := hs.resolve_left fun h => h.1 hq
    rw [settle_working hworking]
    exact hinv.queued id stored hc (hsame.symm.trans hq)
  · intro hr
    obtain ⟨hsame, hworking⟩ := hs.resolve_left fun h => h.2 hr
    rw [settle_working hworking]
    exact hinv.running id stored hc (hsame.symm.trans hr)

theorem inv_commit_queue (hinv : Inv env db) (ho : Own t id job db)
    (hduty : db.history.duty t = none) (hstatus : job.status = "queued")
    (hh : (commitTx t db).history = db.history.queue t id)
    (hcount : countFor id db.history.claims = job.attemptCount) : Inv env (commitTx t db) := by
  refine inv_commit_own hinv ho ?_ ?_ ?_ ?_ ?_ ?_ ?_ ?_
  · intro duty hd
    rw [hduty] at hd
    cases hd
  all_goals rw [hh]
  · exact fun u hu => (aside_queue hu id).duty
  · rfl
  · exact fun _ _ => rfl
  · exact fun _ _ => rfl
  · exact hcount
  · exact fun _ => .inr (.inr ⟨t, .inl (Function.update_self ..)⟩)
  · intro hr
    rw [hstatus] at hr
    exact absurd hr (by decide)

theorem inv_commit_kind (hinv : Inv env db) (hc : db.jobs.committed id = some stored)
    (hb : Books t (kind.duty id) none db.history) (ho : Own t id job db)
    (hchange : Change env t db id stored job kind) : Inv env (commitTx t db) := by
  have hh := history_commit_kind hinv hc ho hchange
  have hduty : ∀ duty, db.history.duty t = some duty → duty.id = id :=
    fun duty hd => kind_duty_id (hb.duty.symm.trans hd)
  have hattempts : countFor id db.history.claims = stored.attemptCount := by
    have hold := hinv.attempts id
    rw [hc] at hold
    exact hold
  cases kind with
  | requeue context =>
      obtain ⟨_, _, hs, _, _, ha⟩ := hchange
      exact inv_commit_queue hinv ho hb.duty hs hh (hattempts.trans ha.symm)
  | claim =>
      obtain ⟨_, hs, ha⟩ := hchange
      refine inv_commit_own hinv ho hduty ?_ ?_ ?_ ?_ ?_ ?_ ?_ <;> rw [hh]
      · exact fun u hu => (aside_claim hu id).duty
      · rfl
      · exact fun id' hne => Function.update_of_ne hne _ _
      · intro id' hne
        rw [Kind.commit, countFor_claim, if_neg hne.symm]
        rfl
      · rw [Kind.commit, countFor_claim, if_pos rfl, ha, hattempts]
      · intro hq
        rw [hs] at hq
        exact absurd hq (by decide)
      · exact fun _ => .inr ⟨t, Function.update_self .., Function.update_self ..⟩
  | checkpoint =>
      obtain ⟨hs, _, ha⟩ := hchange
      exact inv_commit_settled hinv hc ho hduty hh ha (.inr ⟨hs, hb.duty⟩)
  | handle =>
      obtain ⟨hs, _, ha⟩ := hchange
      exact inv_commit_settled hinv hc ho hduty hh ha (.inl (by rw [hs]; decide))
  | complete =>
      obtain ⟨hs, _, ha⟩ := hchange
      exact inv_commit_settled hinv hc ho hduty hh ha (.inl (by rw [hs]; decide))
  | fail =>
      obtain ⟨hs, _, ha⟩ := hchange
      refine inv_commit_settled hinv hc ho hduty hh ha ?_
      rcases hs with hs | ⟨hs, _⟩
      · exact .inl (by rw [hs]; decide)
      · exact .inr ⟨hs, hb.duty⟩

theorem later_commit_kind (hinv : Inv env db) (hc : db.jobs.committed id = some stored)
    (ho : Own t id job db) (hchange : Change env t db id stored job kind) (hu : u ≠ t) :
    Later env u db (commitTx t db) id stored job := by
  have hh := history_commit_kind hinv hc ho hchange
  have hcontext : job.context = stored.context := hinv.context id t stored job hc ho.lock
  have hnotOwner : id ∉ (commitTx t db).history.overrun → Owner t id stored db.history →
      db.history.runner id ≠ some u := by
    intro hfresh howner hr
    have hmem : id ∉ db.history.overrun := fun hm => hfresh ((aside_commit hu).overrun id hm)
    exact hu (Option.some.inj (hr.symm.trans (howner hmem).1))
  have hfreshness : id ∉ (commitTx t db).history.overrun → id ∉ db.history.overrun :=
    fun hfresh hm => hfresh ((aside_commit hu).overrun id hm)
  cases kind with
  | requeue context =>
      obtain ⟨hctx, hkey, hs, _, hfailed, _⟩ := hchange
      have hnotKey : ¬ HoldsKey env u (lockKey stored.context) db := by
        intro hk
        rw [hctx] at hk
        exact hu (Option.some.inj (hk.symm.trans hkey))
      refine ⟨hcontext, fun hk => absurd hk hnotKey, fun hk => absurd hk hnotKey, ?_, ?_⟩
      · intro hfresh _ hr
        rw [hfailed (hfreshness hfresh)] at hr
        exact absurd hr (by decide)
      · intro _ hr
        rw [hs] at hr
        exact absurd hr (by decide)
  | handle =>
      obtain ⟨hs, hq, _⟩ := hchange
      refine ⟨hcontext, fun _ _ => by rw [hs]; decide, fun _ _ _ => hs, ?_, ?_⟩
      · intro hfresh _ hr
        have hclaimed := hq (hfreshness hfresh)
        simp [isClaimed, hr] at hclaimed
      · intro _ hr
        rw [hs] at hr
        exact absurd hr (by decide)
  | claim =>
      obtain ⟨hq, hs, _⟩ := hchange
      have hrunner : (commitTx t db).history.runner id = some t := by
        rw [hh]
        exact Function.update_self ..
      refine ⟨hcontext, fun _ _ => by rw [hs]; decide, ?_, ?_, ?_⟩
      · intro _ _ hf
        rw [hq] at hf
        exact absurd hf (by decide)
      · intro _ _ hr
        rw [hq] at hr
        exact absurd hr (by decide)
      · intro hr _
        exact absurd (Option.some.inj (hrunner.symm.trans hr)).symm hu
  | checkpoint =>
      obtain ⟨hs, _, _⟩ := hchange
      have hrunner : (commitTx t db).history.runner = db.history.runner := by rw [hh]; rfl
      refine ⟨hcontext, fun _ hq => by rw [hs]; exact hq, fun _ _ hf => hs.trans hf, ?_, ?_⟩
      · exact fun _ hr hst => ⟨by rw [hrunner]; exact hr, hs.trans hst⟩
      · exact fun hr hst => ⟨by rw [← hrunner]; exact hr, hs.symm.trans hst⟩
  | complete =>
      obtain ⟨hs, howner, _⟩ := hchange
      refine ⟨hcontext, fun _ _ => by rw [hs]; decide, ?_, ?_, ?_⟩
      · intro _ hfresh hf
        rw [(howner (hfreshness hfresh)).2] at hf
        exact absurd hf (by decide)
      · exact fun hfresh hr => absurd hr (hnotOwner hfresh howner)
      · intro _ hr
        rw [hs] at hr
        exact absurd hr (by decide)
  | fail =>
      obtain ⟨hs, howner, _⟩ := hchange
      have hrunner : (commitTx t db).history.runner = db.history.runner := by rw [hh]; rfl
      refine ⟨hcontext, ?_, ?_, fun hfresh hr => absurd hr (hnotOwner hfresh howner), ?_⟩
      · rcases hs with hs | ⟨hs, _⟩
        · exact fun _ _ => by rw [hs]; decide
        · exact fun _ hq => by rw [hs]; exact hq
      · rcases hs with hs | ⟨hs, _⟩
        · exact fun _ _ _ => hs
        · exact fun _ _ hf => hs.trans hf
      · rcases hs with hs | ⟨hs, _⟩
        · intro _ hr
          rw [hs] at hr
          exact absurd hr (by decide)
        · exact fun hr hst => ⟨by rw [← hrunner]; exact hr, hs.symm.trans hst⟩

end Kinds

end Jobs
