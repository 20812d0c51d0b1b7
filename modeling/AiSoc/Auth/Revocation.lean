import AiSoc.Auth.Soundness
import Mathlib.Logic.Relation

namespace Auth

open Permissions (Uuid Timestamp)
open RowStore Process
open Transition (anyStep execAll run_of_execAll)

structure Consistent (db : Db) : Prop where
  inv : Inv db
  idle : ∀ t, Phase.idle.holds t db

def Issued (db : Db) (target : Target) (id : Uuid) : Prop :=
  ∃ row, db.sessions.committed id = some row ∧ target.matches row = true

def Replaced (db : Db) (id next : Uuid) : Prop :=
  ∃ row, db.sessions.committed id = some row ∧ row.replacedById = some next

def Descends (db : Db) : Uuid → Uuid → Prop :=
  Relation.ReflTransGen (Replaced db)

structure Dead (env : Env) (db : Db) (id : Uuid) : Prop where
  revoked : ∃ row, db.sessions.committed id = some row ∧ row.revokedAt ≠ none
  refused : ∀ t c r db', exec t (.getSessionForUpdate id) c db = some (r, db') →
    ∀ secret out, (refreshFound env secret r).Ends out → ∃ error, out = .rejected error

def Final (env : Env) (target : Target) (s : State (machine env)) : Prop :=
  ∀ s', Run anyStep s s' → ∀ id next, Issued s.db target id → Descends s'.db id next →
    Dead env s'.db next

def SawAll (db : Db) (t : Nat) (target : Target) : Prop :=
  ∀ id row, db.sessions.committed id = some row → target.matches row = true →
    row.revokedAt = none → Saw db t id row

theorem Evolves.trans {a b c : AuthSession} (h : Evolves a b) (h' : Evolves b c) :
    Evolves a c := by
  refine ⟨h.1.trans h'.1, fun hrevoked => ?_⟩
  obtain rfl : b = a := h.2 hrevoked
  exact h'.2 hrevoked

section Refusal

variable (env : Env)

theorem ends_rejectRefresh {out : Outcome} (h : rejectRefresh.Ends out) :
    ∃ error, out = .rejected error := by
  obtain ⟨_, _, hout⟩ := Prog.ends_bind h
  exact ⟨_, Prog.ends_done hout⟩

theorem ends_revoked {secret : String} {row : AuthSession} {out : Outcome}
    (hrevoked : row.revokedAt ≠ none) (h : (refreshFound env secret (some row)).Ends out) :
    ∃ error, out = .rejected error := by
  have hsome : row.revokedAt.isSome = true := Option.isSome_iff_ne_none.mpr hrevoked
  simp only [refreshFound, refreshLocked, hsome, if_true] at h
  split at h
  · exact ends_rejectRefresh h
  · obtain ⟨_, _, hout⟩ := Prog.ends_bind h
    exact ends_rejectRefresh hout

theorem dead_of_revoked {db : Db} {id : Uuid} {row : AuthSession} (hinv : Inv db)
    (hc : db.sessions.committed id = some row) (hrevoked : row.revokedAt ≠ none) :
    Dead env db id := by
  refine ⟨⟨row, hc, hrevoked⟩, fun t c r db' h secret out hout => ?_⟩
  obtain ⟨tb, hi, _⟩ := exec_getSessionForUpdate h
  rcases Table.getForUpdate_cases hi with ⟨_, hview, _⟩ | ⟨row', rfl, hview, _, _⟩
  · rcases Table.view_cases db.sessions t id with ⟨w, _, hw⟩ | ⟨_, hw⟩
    · rw [hview] at hw
      cases hw
    · rw [hview, hc] at hw
      cases hw
  · obtain rfl : row' = row := (evolves_view hinv hc hview).2 hrevoked
    exact ends_revoked env hrevoked hout

end Refusal

section Runs

variable {env : Env} {s s' : State (machine env)}

theorem good_of_consistent {db : Db} (hdb : Consistent db)
    (h : Run anyStep (State.initial db : State (machine env)) s) : (typestate env).Good s :=
  Typestate.good_of_anyRun typestate_sound h (Typestate.good_initial hdb.inv hdb.idle)

def Grows (db db' : Db) : Prop :=
  ∀ id row, db.sessions.committed id = some row →
    ∃ row', db'.sessions.committed id = some row' ∧ Evolves row row'

theorem Grows.refl (db : Db) : Grows db db := fun _ row hc => ⟨row, hc, .refl row⟩

theorem Grows.trans {a b c : Db} (h : Grows a b) (h' : Grows b c) : Grows a c := by
  intro id row hc
  obtain ⟨row', hc', hev⟩ := h id row hc
  obtain ⟨row'', hc'', hev'⟩ := h' id row' hc'
  exact ⟨row'', hc'', hev.trans hev'⟩

theorem grows_step {l : Label (machine env)} (hg : (typestate env).Good s)
    (h : step s l = some s') : Grows s.db s'.db := by
  cases l with
  | start t c =>
      obtain ⟨_, rfl⟩ := step_start h
      exact .refl s.db
  | stop t =>
      obtain rfl := step_stop h
      exact .refl s.db
  | exec t c =>
      obtain ⟨q, k, r, db, _, hq, rfl⟩ := step_exec h
      exact (frame_exec (u := t + 1) hg.1 (by omega) hq).grows

theorem grows_run (hg : (typestate env).Good s) (h : Run anyStep s s') :
    (typestate env).Good s' ∧ Grows s.db s'.db := by
  induction h with
  | refl => exact ⟨hg, .refl s.db⟩
  | tail _ _ hs ih =>
      have hg' := Typestate.good_of_anyRun typestate_sound ((Transition.Run.refl _).tail
        trivial hs) ih.1
      exact ⟨hg', ih.2.trans (grows_step ih.1 hs)⟩

theorem revokingPhase_of_commit {t : Nat} {k : Unit → Proc Outcome} (hg : (typestate env).Good s)
    (hp : s.procs t = some (.stmt .commit k)) (hrev : s.db.revoking t ≠ []) :
    ∃ target, Revoking t target [] s.db := by
  have hsafe := hg.2 t
  rw [hp] at hsafe
  obtain ⟨φ, hφ, hallowed, _⟩ := hsafe
  cases φ with
  | idle => exact absurd hφ.2 hrev
  | holding id row => exact absurd hφ.2.2.2 hrev
  | inserted => exact absurd hφ.2 hrev
  | rotated row replacementId => exact absurd hφ.2.2.2.2 hrev
  | revoking target pending =>
      rcases hallowed with hsettled | hinserted
      · obtain rfl : pending = [] := hsettled
        exact ⟨target, hφ⟩
      · cases hinserted

theorem commit_step {t : Nat} {c : Choice} {k : Unit → Proc Outcome}
    (hp : s.procs t = some (.stmt .commit k)) (h : step s (.exec t c) = some s') :
    s'.db = commitTx t s.db := by
  obtain ⟨q, k', r, db, hp', hq, rfl⟩ := step_exec h
  rw [hp] at hp'
  cases hp'
  cases hq
  rfl

theorem committed_revoked_iff {t : Nat} {target : Target} {db : Db} (hinv : Inv db)
    (hφ : Revoking t target [] db) {id : Uuid} {row row' : AuthSession}
    (hc : db.sessions.committed id = some row)
    (hc' : (commitTx t db).sessions.committed id = some row') :
    row'.revokedAt ≠ none ↔ row.revokedAt ≠ none ∨ Saw db t id row := by
  have hev : Evolves row row' := by
    obtain ⟨row'', hrow'', hev⟩ := grows_commit (t := t) hinv hc
    obtain rfl : row'' = row' := Option.some.inj (hrow''.symm.trans hc')
    exact hev
  constructor
  · intro hrevoked
    by_cases hactive : row.revokedAt = none
    · rcases Table.view_cases db.sessions t id with ⟨w, hl, hw⟩ | ⟨_, hw⟩
      · obtain rfl : w = row' := Option.some.inj (hw.symm.trans hc')
        obtain ⟨old, hold, _, hsaw⟩ := hφ.held id w hl
        obtain rfl : old = row := Option.some.inj (hold.symm.trans hc)
        exact .inr (hsaw hrevoked hactive)
      · obtain rfl : row = row' := Option.some.inj (hc.symm.trans (hw.symm.trans hc'))
        exact absurd hactive hrevoked
    · exact .inl hactive
  · rintro (hrevoked | ⟨rev, hrev, hmatch, hseen⟩)
    · rw [hev.2 hrevoked]
      exact hrevoked
    · by_cases hactive : row.revokedAt = none
      · obtain ⟨old, hold, hcov⟩ := hφ.covered rev hrev id hseen
        obtain rfl : old = row := Option.some.inj (hold.symm.trans hc)
        rcases hcov hmatch hactive with ⟨w, hl, hw⟩ | ⟨hmem, _⟩
        · obtain rfl : w = row' :=
            Option.some.inj ((Table.commit_committed_of_lock hl).symm.trans hc')
          exact hw
        · cases hmem
      · rw [hev.2 hactive]
        exact hactive

theorem revoked_of_sawAll {t : Nat} {target target' : Target} {db : Db} (hinv : Inv db)
    (hφ : Revoking t target' [] db) (hsaw : SawAll db t target) {id : Uuid} {row' : AuthSession}
    (hc' : (commitTx t db).sessions.committed id = some row')
    (hmatch : target.matches row' = true) : row'.revokedAt ≠ none := by
  have hold : ∃ row, db.sessions.committed id = some row := by
    rcases Table.view_cases db.sessions t id with ⟨w, hl, _⟩ | ⟨_, hw⟩
    · obtain ⟨row, hc, _⟩ := hφ.held id w hl
      exact ⟨row, hc⟩
    · exact ⟨row', hw.symm.trans hc'⟩
  obtain ⟨row, hc⟩ := hold
  obtain ⟨row'', hrow'', hev⟩ := grows_commit (t := t) hinv hc
  obtain rfl : row'' = row' := Option.some.inj (hrow''.symm.trans hc')
  refine (committed_revoked_iff hinv hφ hc hc').mpr ?_
  by_cases hactive : row.revokedAt = none
  · exact .inr (hsaw id row hc (hev.1.matches target ▸ hmatch) hactive)
  · exact .inl hactive

theorem final_of_revoked {target : Target} (hg : (typestate env).Good s)
    (hall : ∀ id row, s.db.sessions.committed id = some row → target.matches row = true →
      row.revokedAt ≠ none) : Final env target s := by
  intro s' hrun id next hissued hdesc
  obtain ⟨hg', hgrows⟩ := grows_run hg hrun
  have hkept : ∀ id row, s.db.sessions.committed id = some row → target.matches row = true →
      s'.db.sessions.committed id = some row := by
    intro id row hc hmatch
    obtain ⟨row', hc', hev⟩ := hgrows id row hc
    rwa [hev.2 (hall id row hc hmatch)] at hc'
  have hchain : Issued s.db target next := by
    induction hdesc with
    | refl => exact hissued
    | tail _ hlink ih =>
        obtain ⟨row, hc, hmatch⟩ := ih
        obtain ⟨row', hc', hnext⟩ := hlink
        obtain rfl : row = row' := Option.some.inj ((hkept _ row hc hmatch).symm.trans hc')
        obtain ⟨row'', hc'', horigin⟩ := hg.1.replaced _ row _ hc hnext
        exact ⟨row'', hc'', (horigin.matches target).trans hmatch⟩
  obtain ⟨row, hc, hmatch⟩ := hchain
  exact dead_of_revoked env hg'.1 (hkept next row hc hmatch) (hall next row hc hmatch)

theorem revocation_final_iff (env : Env) {db : Db} {s s' : State (machine env)} {t : Nat}
    {target : Target} {k : Unit → Proc Outcome} {c : Choice} (hdb : Consistent db)
    (hrun : Run anyStep (State.initial db) s) (hp : s.procs t = some (.stmt .commit k))
    (htarget : ∃ rev ∈ s.db.revoking t, rev.target = target)
    (hcommit : step s (.exec t c) = some s') :
    Final env target s' ↔ SawAll s.db t target := by
  have hg := good_of_consistent hdb hrun
  have hg' : (typestate env).Good s' := good_of_consistent hdb (hrun.tail trivial hcommit)
  have hdb' := commit_step hp hcommit
  obtain ⟨rev, hrev, _⟩ := htarget
  obtain ⟨target', hφ⟩ := revokingPhase_of_commit hg hp (List.ne_nil_of_mem hrev)
  constructor
  · intro hfinal id row hc hmatch hactive
    obtain ⟨row', hc', hev⟩ := grows_commit (t := t) hg.1 hc
    have hissued : Issued s'.db target id :=
      ⟨row', by rw [hdb']; exact hc', (hev.1.matches target).trans hmatch⟩
    obtain ⟨row'', hc'', hrevoked⟩ := (hfinal s' (.refl s') id id hissued .refl).revoked
    rw [hdb'] at hc''
    rcases (committed_revoked_iff hg.1 hφ hc hc'').mp hrevoked with hold | hsaw
    · exact absurd hactive hold
    · exact hsaw
  · intro hsaw
    refine final_of_revoked hg' fun id row hc hmatch => ?_
    rw [hdb'] at hc
    exact revoked_of_sawAll hg.1 hφ hsaw hc hmatch

end Runs

section Traces

theorem consistent_empty : Consistent .empty where
  inv := by
    refine ⟨?_, ?_, ?_, nofun, nofun⟩ <;> rintro id row (h | ⟨t, h⟩) <;> cases h
  idle t := ⟨fun _ _ => nofun, rfl⟩

def registered : List (Label (machine demoEnv)) :=
  [.start 0 (.register "a@b" "A" "pw"), .exec 0 (.flag false), .exec 0 .auto, .exec 0 .auto,
    .exec 0 (.time 0), .exec 0 .auto, .exec 0 (.time 0), .exec 0 .auto, .exec 0 .auto,
    .exec 0 .auto, .exec 0 (.text "s"), .exec 0 (.time 0), .exec 0 .auto, .exec 0 (.time 0),
    .exec 0 .auto, .stop 0]

def firstToken : String := "00000000000000000000000000000001.s"

def loggedOut : List (Label (machine demoEnv)) :=
  registered ++ [.start 1 (.logout firstToken), .exec 1 .auto, .exec 1 (.time 1),
    .exec 1 (.uuids [1]), .exec 1 .auto]

theorem loggedOut_final : ∃ s s' : State (machine demoEnv),
    execAll step (State.initial Db.empty) loggedOut = some s ∧
      step s (.exec 1 .auto) = some s' ∧ Issued s'.db (.family 2) 1 ∧
      Final demoEnv (.family 2) s' := by
  obtain ⟨s, s', k, hs, hp, hrev, hkeys, hs', hissued⟩ :
      ∃ (s s' : State (machine demoEnv)) (k : Unit → Proc Outcome),
      execAll step (State.initial Db.empty) loggedOut = some s ∧
        s.procs 1 = some (.stmt .commit k) ∧
        s.db.revoking 1 = [⟨.family 2, [1]⟩] ∧ s.db.sessions.keys = [1] ∧
        step s (.exec 1 .auto) = some s' ∧ Issued s'.db (.family 2) 1 :=
    ⟨_, _, _, rfl, rfl, rfl, rfl, rfl, _, rfl, rfl⟩
  have hrun := run_of_execAll hs
  refine ⟨s, s', hs, hs', hissued, (revocation_final_iff demoEnv consistent_empty hrun hp
    ⟨⟨.family 2, [1]⟩, by simp [hrev], rfl⟩ hs').mpr ?_⟩
  intro id row hc hmatch _
  have hid : id ∈ s.db.sessions.keys :=
    (good_of_consistent consistent_empty hrun).1.known id row (.inl hc)
  rw [hkeys] at hid
  exact ⟨⟨.family 2, [1]⟩, by simp [hrev], hmatch, hid⟩

def RevocationFinal (env : Env) : Prop :=
  ∀ (db : Db) (s s' : State (machine env)) (t : Nat) (target : Target)
    (k : Unit → Proc Outcome) (c : Choice), Consistent db →
    Run anyStep (State.initial db) s → s.procs t = some (.stmt .commit k) →
    (∃ rev ∈ s.db.revoking t, rev.target = target) → step s (.exec t c) = some s' →
    Final env target s'

def refreshDuringPasswordChange : List (Label (machine demoEnv)) :=
  registered ++ [.start 1 (.refresh firstToken), .exec 1 .auto, .exec 1 (.time 1), .exec 1 .auto,
    .exec 1 .auto, .exec 1 (.text "r"), .exec 1 .auto, .exec 1 .auto, .exec 1 (.time 1),
    .start 2 (.changePassword 0 "pw" "new"), .exec 2 .auto, .exec 2 (.time 2), .exec 2 .auto,
    .exec 2 (.time 2), .exec 2 (.uuids [1]), .exec 1 .auto, .exec 2 .auto]

theorem refresh_outlives_password_change : ¬ RevocationFinal demoEnv := by
  intro hclaim
  obtain ⟨s, s', k, row, old, hs, hp, hrev, hs', hold, huser, hnext, hrow, hactive⟩ :
      ∃ (s s' : State (machine demoEnv)) (k : Unit → Proc Outcome) (row old : AuthSession),
      execAll step (State.initial Db.empty) refreshDuringPasswordChange = some s ∧
        s.procs 2 = some (.stmt .commit k) ∧ s.db.revoking 2 = [⟨.user 0, [1]⟩] ∧
        step s (.exec 2 .auto) = some s' ∧ s'.db.sessions.committed 1 = some old ∧
        old.userId = 0 ∧ old.replacedById = some 3 ∧ s'.db.sessions.committed 3 = some row ∧
        row.revokedAt = none :=
    ⟨_, _, _, _, _, rfl, rfl, rfl, rfl, rfl, rfl, rfl, rfl, rfl⟩
  have hfinal := hclaim .empty s s' 2 (.user 0) k .auto consistent_empty (run_of_execAll hs) hp
    ⟨⟨.user 0, [1]⟩, by simp [hrev], rfl⟩ hs'
  have hissued : Issued s'.db (.user 0) 1 := ⟨old, hold, by simp [Target.matches, huser]⟩
  have hdesc : Descends s'.db 1 3 := .single ⟨old, hold, hnext⟩
  obtain ⟨row', hrow', hrevoked⟩ := (hfinal s' (.refl s') 1 3 hissued hdesc).revoked
  obtain rfl : row = row' := Option.some.inj (hrow.symm.trans hrow')
  exact hrevoked hactive

end Traces

end Auth
