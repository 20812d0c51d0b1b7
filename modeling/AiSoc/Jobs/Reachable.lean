import AiSoc.Jobs.Commit

namespace Jobs

open Permissions (Uuid Timestamp)
open PyJson (Json)
open RowStore Process AdvisoryLock

section Closing

variable {env : Env} {t u : Nat} {φ : Phase} {db : Db}

theorem holds_afterCommit_kind {id : Uuid} {kind : Kind} (hinv : Inv env db)
    (hφ : (Phase.written kind id).holds env t db) :
    (kind.after id).holds env t (commitTx t db) := by
  obtain ⟨hb, stored, hc, job, ho, hchange⟩ := hφ
  have hn : (commitTx t db).jobs.NoLocks t := (closes_commit t db).noLocks
  have hh := history_commit_kind hinv hc ho hchange
  have hcommitted : (commitTx t db).jobs.committed id = some job :=
    Table.commit_committed_of_lock ho.lock
  cases kind with
  | requeue context =>
      refine ⟨hn, by rw [hh]; exact hb.queue, job, hcommitted, ?_⟩
      exact (hinv.context id t stored job hc ho.lock).trans hchange.1
  | handle => exact ⟨hn, by rw [hh]; exact hb.settle fun _ => rfl⟩
  | claim =>
      refine ⟨hn, by rw [hh]; exact hb.claim, job, hcommitted, fun _ => ?_⟩
      rw [hh]
      exact ⟨Function.update_self .., hchange.2.1⟩
  | checkpoint =>
      obtain ⟨hs, howner, _⟩ := hchange
      refine ⟨hn, by rw [hh]; exact hb.settle fun _ => rfl, job, hcommitted, ?_⟩
      rw [hh]
      exact fun hfresh => (howner hfresh).imp_right hs.trans
  | complete =>
      obtain ⟨hs, _, _⟩ := hchange
      refine ⟨hn, by rw [hh]; exact hb.settle fun _ => rfl, job, hcommitted, fun _ => ?_⟩
      rw [hs]
      decide
  | fail =>
      obtain ⟨hs, _, _⟩ := hchange
      refine ⟨hn, by rw [hh]; exact hb.settle fun _ => rfl, job, hcommitted, ?_⟩
      rcases hs with hs | ⟨hs, hnot⟩
      · intro _
        rw [hs]
        decide
      · rw [hh]
        intro hr
        rw [hs]
        exact hnot hr

theorem commit_sound (hinv : Inv env db) (hφ : φ.holds env t db) (hcommits : φ.commits) :
    Inv env (commitTx t db) ∧ φ.afterCommit.holds env t (commitTx t db) := by
  have hn : (commitTx t db).jobs.NoLocks t := (closes_commit t db).noLocks
  cases φ with
  | created job =>
      obtain ⟨ho, hb, _, hnone, hstatus, hzero⟩ := hφ
      have hstored : statusOf (db.jobs.committed job.id) ≠ some job.status := by
        rw [hnone]
        simp [statusOf]
      have hh : (commitTx t db).history = db.history.queue t job.id := by
        change db.history.commit t (transition db t) = _
        rw [transition_new hinv ho hstored, hstatus]
        exact commit_queued job.id
      refine ⟨inv_commit_queue hinv ho hb.duty hstatus hh ?_, hn, by rw [hh]; exact hb.queue, job,
        Table.commit_committed_of_lock ho.lock, rfl⟩
      have hold := hinv.attempts job.id
      rw [hnone] at hold
      exact hold.trans hzero.symm
  | found job =>
      obtain ⟨hn', hb, _, stored, hc, hctx, _⟩ := hφ
      have hcommitted := committed_of_noLocks hn'
      have hh : (commitTx t db).history = db.history.settle t := by
        change db.history.commit t (transition db t) = _
        rw [transition_of_noLocks hn', commit_none]
      have hduty : ∀ u, (commitTx t db).history.duty u = db.history.duty u := by
        intro u
        rw [hh]
        rcases eq_or_ne u t with rfl | hu
        · exact (hb.settle fun _ => rfl).duty.trans hb.duty.symm
        · exact (aside_settle hu).duty
      refine ⟨(closes_commit t db).inv hinv ?_ ?_ ?_, hn, by rw [hh]; exact hb.settle fun _ => rfl,
        stored, by rw [hcommitted]; exact hc, hctx⟩
      · rw [hcommitted, hh]
        exact hinv.attempts
      · simp only [hcommitted, Attended, hduty]
        rw [hh]
        exact hinv.queued
      · simp only [hcommitted, hduty]
        rw [hh]
        exact hinv.running
  | written kind id =>
      refine ⟨?_, holds_afterCommit_kind hinv hφ⟩
      obtain ⟨hb, stored, hc, job, ho, hchange⟩ := hφ
      exact inv_commit_kind hinv hc hb ho hchange
  | _ => exact hcommits.elim

theorem frame_commit (hinv : Inv env db) (hφ : φ.holds env t db) (hcommits : φ.commits)
    (hu : u ≠ t) : Frame env u db (commitTx t db) := by
  refine (closes_commit t db).frame hu ?_ (aside_commit hu)
  intro id job hc
  cases φ with
  | created new =>
      obtain ⟨ho, hb, _, hnone, hstatus, _⟩ := hφ
      have hne : id ≠ new.id := by
        rintro rfl
        rw [hnone] at hc
        cases hc
      refine ⟨job, ?_, .refl env u id job ?_⟩
      · rw [committed_of_own ho, Function.update_of_ne hne]
        exact hc
      · change (db.history.commit t (transition db t)).runner id = _
        have hstored : statusOf (db.jobs.committed new.id) ≠ some new.status := by
          rw [hnone]
          simp [statusOf]
        rw [transition_new hinv ho hstored, hstatus, commit_queued]
        rfl
  | found loaded =>
      refine ⟨job, by rw [committed_of_noLocks hφ.1]; exact hc, .refl env u id job ?_⟩
      change (db.history.commit t (transition db t)).runner id = _
      rw [transition_of_noLocks hφ.1, commit_none]
      rfl
  | written kind id' =>
      obtain ⟨_, stored, hc', new, ho, hchange⟩ := hφ
      rcases eq_or_ne id id' with rfl | hne
      · obtain rfl : stored = job := Option.some.inj (hc'.symm.trans hc)
        exact ⟨new, Table.commit_committed_of_lock ho.lock,
          later_commit_kind hinv hc ho hchange hu⟩
      · refine ⟨job, ?_, .refl env u id job ?_⟩
        · rw [committed_of_own ho, Function.update_of_ne hne]
          exact hc
        · rw [history_commit_kind hinv hc' ho hchange]
          cases kind with
          | claim => exact Function.update_of_ne hne _ _
          | requeue | handle | checkpoint | complete | fail => rfl
  | _ => exact hcommits.elim

theorem frame_rollback {h' : History} (hu : u ≠ t) (hrunner : h'.runner = db.history.runner)
    (haside : Aside u db.history h') : Frame env u db { rollbackTx t db with history := h' } :=
  (closes_rollback t db h').frame hu
    (fun id job hc => ⟨job, hc, .refl env u id job (congrFun hrunner id)⟩) haside

theorem rollback_sound (hinv : Inv env db) (hφ : φ.holds env t db) (hrolls : φ.rollsBack) :
    Inv env (rollbackTx t db) ∧ φ.afterRollback.holds env t (rollbackTx t db) := by
  have hcloses := closes_rollback t db db.history
  refine ⟨hcloses.inv hinv hinv.attempts hinv.queued hinv.running, ?_⟩
  cases φ with
  | idle => exact ⟨hcloses.noLocks, hφ.2⟩
  | working id started => exact ⟨hcloses.noLocks, hφ.2.1, hφ.2.2⟩
  | written kind id =>
      cases kind with
      | complete =>
          obtain ⟨hb, stored, hc, job, ho, hchange⟩ := hφ
          exact ⟨hcloses.noLocks, hb, stored, hc, hchange.2.1⟩
      | _ => exact hrolls.elim
  | _ => exact hrolls.elim

theorem Phase.holds.books (hφ : φ.holds env t db) :
    ∃ task waiting, Books t task waiting db.history := by
  cases φ with
  | created | absent | found | locked | pushing | handling | answered | working | failing |
      finished => exact ⟨_, _, hφ.2.1⟩
  | written => exact ⟨_, _, hφ.1⟩
  | idle | popped => exact ⟨_, _, hφ.2⟩

theorem aside_close (hu : u ≠ t) (h : History) (strands : Uuid → Bool) :
    Aside u h (h.close t strands) := by
  unfold History.close
  split
  · exact ⟨Function.update_of_ne hu _ _, fun _ => rfl, fun _ => rfl,
      fun _ => count_cons_other hu _ _ _, fun _ => rfl, fun _ => rfl, fun _ h => h⟩
  · exact .refl u h

theorem Books.close {task : Option Duty} {waiting : Option Uuid} {h : History}
    (hb : Books t task waiting h) (strands : Uuid → Bool) :
    Books t none none (h.close t strands) := by
  have hstarts : ∀ id, h.runs.count (t, id) + 0 ≤ h.claims.count (t, id) := by
    intro id
    have hold := hb.starts id
    omega
  unfold History.close
  rw [hb.duty]
  cases task with
  | none => exact ⟨hb.duty, hb.pushes, hstarts⟩
  | some duty =>
      refine ⟨Function.update_self .., fun id => ?_, hstarts⟩
      have hold := hb.pushes id
      change h.queuings.count (t, id) =
        h.enqueues.count (t, id) + ((t, duty) :: h.lost).count (t, .pushing id) + 0
      cases duty with
      | pushing id' =>
          by_cases hid : id' = id
          · subst hid
            rw [owed_self] at hold
            rw [List.count_cons_self]
            omega
          · rw [List.count_cons_of_ne (by simpa using hid)]
            simpa [owed, hid] using hold
      | handling | popped | working =>
          rw [List.count_cons_of_ne (by simp)]
          exact hold

theorem stranded_close {h : History} {id : Uuid} (strands : Uuid → Bool)
    (hmem : id ∈ h.stranded) : id ∈ (h.close t strands).stranded := by
  unfold History.close
  split
  · dsimp only
    split
    · exact List.mem_cons_of_mem _ hmem
    · exact hmem
  · exact hmem

theorem stranded_duty {h : History} {duty : Duty} {strands : Uuid → Bool}
    (hd : h.duty t = some duty) (hs : strands duty.id = true) :
    duty.id ∈ (h.close t strands).stranded := by
  simp only [History.close, hd, if_pos hs]
  exact List.mem_cons_self

theorem runner_close (h : History) (strands : Uuid → Bool) :
    (h.close t strands).runner = h.runner := by
  unfold History.close
  split <;> rfl

theorem claims_close (h : History) (strands : Uuid → Bool) :
    (h.close t strands).claims = h.claims := by
  unfold History.close
  split <;> rfl

theorem close_sound (hinv : Inv env db) (hφ : φ.holds env t db) :
    Inv env (closeTx t db) ∧ Phase.idle.holds env t (closeTx t db) := by
  have hcloses : Closes t db (closeTx t db) :=
    closes_rollback t db (db.history.close t (strands db t))
  obtain ⟨task, waiting, hb⟩ := hφ.books
  refine ⟨hcloses.inv hinv ?_ ?_ ?_, hcloses.noLocks, hb.close _⟩
  · intro id
    have hclaims : (closeTx t db).history.claims = db.history.claims := claims_close _ _
    rw [hclaims]
    exact hinv.attempts id
  · intro id job hc hs
    have hc' : db.jobs.committed id = some job := hc
    rcases hinv.queued id job hc hs with hmem | hab | ⟨u, hu⟩
    · exact .inl hmem
    · exact .inr (.inl (stranded_close _ hab))
    · by_cases hmem : id ∈ db.queue
      · exact .inl hmem
      · have hstrands : strands db t id = true := by simp [strands, hc', hs, hmem]
        rcases eq_or_ne u t with rfl | hut
        · rcases hu with hd | hd | hd <;> exact .inr (.inl (stranded_duty hd hstrands))
        · have hsame := (aside_close hut db.history (strands db t)).duty
          exact .inr (.inr ⟨u, hu.imp hsame.trans (.imp hsame.trans hsame.trans)⟩)
  · intro id job hc hs
    have hc' : db.jobs.committed id = some job := hc
    rcases hinv.running id job hc hs with hab | ⟨u, hr, hd⟩
    · exact .inl (stranded_close _ hab)
    · rcases eq_or_ne u t with rfl | hut
      · exact .inl (stranded_duty hd (by simp [strands, hc', hs, hr, Duty.id]))
      · refine .inr ⟨u, ?_, (aside_close hut db.history _).duty.trans hd⟩
        exact (congrFun (runner_close db.history _) id).trans hr

theorem frame_close (hu : u ≠ t) : Frame env u db (closeTx t db) :=
  frame_rollback hu (runner_close db.history _) (aside_close hu db.history _)

end Closing

section Losses

variable {env : Env} {t : Nat} {db db' : Db}

theorem commit_losses (h : History) (t : Nat) (change : Option (Uuid × String)) :
    (h.commit t change).lost = h.lost ∧ (h.commit t change).stranded = h.stranded ∧
      (h.commit t change).overrun = h.overrun := by
  unfold History.commit
  split
  · split
    · exact ⟨rfl, rfl, rfl⟩
    · split <;> exact ⟨rfl, rfl, rfl⟩
  · exact ⟨rfl, rfl, rfl⟩

theorem exec_losses {q : Stmt} {c : Choice} {r : Result q}
    (h : exec env t q c db = some (r, db')) :
    db'.history.lost = db.history.lost ∧ db'.history.stranded = db.history.stranded ∧
      ((∀ loaded failure now, q = .fail loaded failure now → overruns db t loaded.id = false) →
        db'.history.overrun = db.history.overrun) := by
  cases q with
  | now | uuid4 | getIncident | evidenceIds | redeliver | analyse | persisted =>
      rw [(exec_quiet rfl h).2.2.1]
      exact ⟨rfl, rfl, fun _ => rfl⟩
  | acquireContextLock | create | requeue | checkpointContext | complete =>
      obtain ⟨_, _, ho⟩ := Option.map_eq_some_iff.mp h
      cases ho
      exact ⟨rfl, rfl, fun _ => rfl⟩
  | findForContext | get | rollback | aclose =>
      cases h
      exact ⟨rfl, rfl, fun _ => rfl⟩
  | claim =>
      obtain ⟨_, _, ho⟩ := Option.map_eq_some_iff.mp h
      cases ho
      dsimp only
      split <;> exact ⟨rfl, rfl, fun _ => rfl⟩
  | fail loaded failure now =>
      obtain ⟨⟨_, _⟩, hw, ho⟩ := Option.map_eq_some_iff.mp h
      obtain ⟨_, _, hi⟩ := Option.map_eq_some_iff.mp hw
      cases hi
      cases ho
      dsimp only
      split
      · rename_i hover
        refine ⟨rfl, rfl, fun hok => ?_⟩
        rw [hok loaded failure now rfl] at hover
        cases hover
      · exact ⟨rfl, rfl, fun _ => rfl⟩
  | rpush => cases c <;> cases h <;> exact ⟨rfl, rfl, fun _ => rfl⟩
  | build => cases c <;> cases h <;> exact ⟨rfl, rfl, fun _ => rfl⟩
  | blpop =>
      simp only [exec] at h
      split at h <;> cases h <;> exact ⟨rfl, rfl, fun _ => rfl⟩
  | commit =>
      cases h
      obtain ⟨hlost, hstranded, hoverrun⟩ := commit_losses db.history t (transition db t)
      exact ⟨hlost, hstranded, fun _ => hoverrun⟩

end Losses

section Sound

variable {env : Env} {t u : Nat} {c : Choice} {φ : Phase} {db db' : Db}

theorem proceeds {q : Stmt} {r : Result q} (hinv : Inv env db) (hφ : φ.holds env t db)
    (hallowed : φ.allowed q) (hcommit : q ≠ .commit) (hrollback : q ≠ .rollback)
    (h : exec env t q c db = some (r, db')) : Proceeds env t φ q r db db' := by
  cases q with
  | now | uuid4 | getIncident | evidenceIds | redeliver | analyse | persisted =>
      exact proceeds_quiet rfl hinv hφ h
  | acquireContextLock key =>
      obtain rfl := hallowed
      exact proceeds_acquire hinv hφ h
  | findForContext context =>
      obtain rfl := hallowed
      exact proceeds_find hinv hφ h
  | create job =>
      obtain ⟨rfl, hstatus, hcount⟩ := hallowed
      exact proceeds_create hinv hφ hstatus hcount h
  | requeue loaded provider model now =>
      obtain ⟨rfl, hfailed⟩ := hallowed
      exact proceeds_requeue hinv hφ hfailed h
  | claim id now =>
      obtain rfl := hallowed
      exact proceeds_claim hinv hφ h
  | get id =>
      obtain rfl := hallowed
      exact proceeds_get hinv hφ h
  | checkpointContext id contextSnapshot now =>
      obtain rfl := hallowed
      exact proceeds_checkpoint hinv hφ h
  | complete loaded contextSnapshot completion now =>
      obtain ⟨rfl, hstatus⟩ := hallowed
      exact proceeds_complete hinv hφ hstatus h
  | fail loaded failure now =>
      rcases hallowed with ⟨context, rfl, hstatus⟩ | rfl
      · exact proceeds_fail_handling hinv hφ hstatus h
      · exact proceeds_fail_worker hinv hφ h
  | rpush id =>
      obtain ⟨context, rfl⟩ := hallowed
      exact proceeds_rpush hinv hφ h
  | blpop =>
      obtain rfl := hallowed
      exact proceeds_blpop hinv hφ h
  | build id incidentId =>
      obtain rfl := hallowed
      exact proceeds_build hinv hφ h
  | aclose =>
      obtain ⟨id, rfl⟩ := hallowed
      exact proceeds_aclose hinv hφ h
  | commit => exact absurd rfl hcommit
  | rollback => exact absurd rfl hrollback

theorem exec_sound {q : Stmt} {r : Result q} (hinv : Inv env db) (hφ : φ.holds env t db)
    (hallowed : φ.allowed q) (h : exec env t q c db = some (r, db')) :
    Inv env db' ∧ ∃ ψ, φ.next env q r ψ ∧ ψ.holds env t db' := by
  cases q with
  | commit =>
      cases h
      exact (commit_sound hinv hφ hallowed).imp_right fun hψ => ⟨φ.afterCommit, rfl, hψ⟩
  | rollback =>
      cases h
      exact (rollback_sound hinv hφ hallowed).imp_right fun hψ => ⟨φ.afterRollback, rfl, hψ⟩
  | _ =>
      obtain ⟨hinv', hψ, _⟩ := proceeds hinv hφ hallowed (by simp) (by simp) h
      exact ⟨hinv', hψ⟩

theorem frame_exec {q : Stmt} {r : Result q} (hinv : Inv env db) (hφ : φ.holds env t db)
    (hallowed : φ.allowed q) (h : exec env t q c db = some (r, db')) (hu : u ≠ t) :
    Frame env u db db' := by
  cases q with
  | commit =>
      cases h
      exact frame_commit hinv hφ hallowed hu
  | rollback =>
      cases h
      exact frame_rollback hu rfl (.refl u db.history)
  | _ =>
      obtain ⟨_, _, hpending⟩ := proceeds hinv hφ hallowed (by simp) (by simp) h
      exact hpending.frame hu

theorem exec_committed {q : Stmt} {r : Result q} (hinv : Inv env db) (hφ : φ.holds env t db)
    (hallowed : φ.allowed q) (h : exec env t q c db = some (r, db')) :
    db'.jobs.committed = db.jobs.committed ∨ q = .commit ∧ φ.commits ∧ db' = commitTx t db := by
  cases q with
  | commit =>
      cases h
      exact .inr ⟨rfl, hallowed, rfl⟩
  | rollback =>
      cases h
      exact .inl rfl
  | _ =>
      obtain ⟨_, _, hpending⟩ := proceeds hinv hφ hallowed (by simp) (by simp) h
      exact .inl hpending.committed

theorem typestate_sound (env : Env) : (typestate env).Sound fun _ _ _ => True where
  body c := (body_promises env c).mono fun _ _ _ => trivial
  exec hinv hφ hallowed _ h := exec_sound hinv hφ hallowed h
  frame hinv hφ hallowed _ h hu hψ := (frame_exec hinv hφ hallowed h hu).holds hψ
  close hinv hφ := close_sound hinv hφ
  closeFrame _ _ hu hψ := (frame_close hu).holds hψ

theorem inv_start (env : Env) (queue : List Uuid) : Inv env (Db.start queue) where
  ids _ _ hv := absurd hv Table.not_version_empty
  known _ _ hv := absurd hv Table.not_version_empty
  unique _ _ _ _ hv := absurd hv Table.not_version_empty
  context _ _ _ _ hc := by cases hc
  inserting _ _ _ hl := by cases hl
  attempts _ := rfl
  queued _ _ hc := by cases hc
  running _ _ hc := by cases hc

theorem idle_start (env : Env) (t : Nat) (queue : List Uuid) :
    Phase.idle.holds env t (Db.start queue) :=
  ⟨fun _ _ hl => (by cases hl), rfl, fun _ => rfl, fun _ => Nat.le_refl 0⟩

def Reachable (env : Env) (s : State (machine env)) : Prop :=
  ∃ queue, Run Transition.anyStep (State.initial (Db.start queue)) s

end Sound

end Jobs
