import AiSoc.Correlation.Ingestion
import AiSoc.Correlation.Statements

namespace Correlation

open Permissions (Uuid Timestamp)
open Transition
open ReadCommitted (Orders Program commitsRepeat)

section Transactions

-- the payloads of a call, a single one for create_event, and the identifiers that it draws
structure Ingestion where
  payloads : List EventCreate
  firstId : Uuid

def session (calls : Nat → Ingestion) (t : Nat) (db : Database) : Database :=
  { db with nextId := (calls t).firstId }

def programs (env : Env) {H : Type} (hash : String → H) (calls : Nat → Ingestion) (t : Nat) :
    Statements.Ingest H Unit :=
  Statements.createEventsBulk env hash (calls t).payloads

def serially (env : Env) (calls : Nat → Ingestion) (order : List Nat) (db : Database) :
    Option Database :=
  order.foldlM (fun db t => createEventsBulk env (session calls t db) (calls t).payloads) db

-- a table is the collection of its rows
structure SameRows (db db' : Database) : Prop where
  events : db.events.Perm db'.events
  alerts : db.alerts.Perm db'.alerts
  incidents : db.incidents.Perm db'.incidents
  links : db.links.Perm db'.links

def Serializable {H : Type} (env : Env) (calls : Nat → Ingestion) (db : Database)
    (s : ReadCommitted.State Database (Statements.Key H)) : Prop :=
  ∃ order, Orders s order ∧ ∃ db', serially env calls order db = some db' ∧
    SameRows db' s.committed

end Transactions

section Serial

variable {env : Env} {H : Type} {hash : String → H} {calls : Nat → Ingestion}

theorem serial_programs (order : List Nat) (db : Database) :
    ReadCommitted.serial (session calls) (programs env hash calls) order db =
      serially env calls order db := by
  have hcall : ∀ db t, ((programs env hash calls t).exec (session calls t db)).map (·.2) =
      createEventsBulk env (session calls t db) (calls t).payloads := by
    intro db t
    rw [programs, Statements.exec_createEventsBulk, Option.map_map]
    exact Option.map_id'
  unfold ReadCommitted.serial serially
  simp only [hcall]

theorem sameRows_refl (db : Database) : SameRows db db :=
  ⟨.refl _, .refl _, .refl _, .refl _⟩

theorem ingestion_serializable [DecidableEq H] (env : Env) (hash : String → H)
    (calls : Nat → Ingestion) (db : Database)
    (s : ReadCommitted.State Database (Statements.Key H))
    (h : Run (ReadCommitted.step (session calls)) (commitsRepeat (session calls))
      (ReadCommitted.initial (programs env hash calls) db) s) :
    Serializable env calls db s := by
  obtain ⟨order, horder, hserial⟩ := ReadCommitted.serial_of_run h
  rw [serial_programs] at hserial
  exact ⟨order, horder, s.committed, hserial, sameRows_refl _⟩

end Serial

section Unrelated

def unrelatedCalls : Nat → Ingestion
  | 0 => ⟨attack tenIds "success" 0 100 (some "alice") (some "203.0.113.1"), 100⟩
  | 1 => ⟨[telemetry "other" "login_failure" 50 (some "bob") (some "203.0.113.2") []], 200⟩
  | _ => ⟨[], 300⟩

theorem unrelated_calls_serializable :
    ∃ s, Run (ReadCommitted.step (session unrelatedCalls)) (commitsRepeat (session unrelatedCalls))
        (ReadCommitted.initial (programs plainEnv id unrelatedCalls) .empty) s ∧
      (s.committed.events.length = 12 ∧ s.committed.incidents.length = 1) ∧
      Serializable plainEnv unrelatedCalls .empty s := by
  have hany : (execWhile (ReadCommitted.step (session unrelatedCalls))
      (fun s l => decide (commitsRepeat (session unrelatedCalls) s l))
      (ReadCommitted.initial (programs plainEnv id unrelatedCalls) .empty)
      (List.replicate 100 (.statement 0) ++ List.replicate 13 (.statement 1) ++
        List.replicate 55 (.statement 0) ++ [.commit 1, .commit 0])).any
        (fun s => decide (s.committed.events.length = 12 ∧ s.committed.incidents.length = 1)) =
          true := by
    decide +kernel
  obtain ⟨s, hrun, hs⟩ := run_of_execWhile_any hany
  have hrepeat := hrun.mono fun _ _ hok => of_decide_eq_true hok
  exact ⟨s, hrepeat, of_decide_eq_true hs, ingestion_serializable _ _ _ _ _ hrepeat⟩

end Unrelated

section Overlaps

open ReadCommitted (Step State)

variable {H : Type} [DecidableEq H] {env : Env} {hash : String → H} {calls : Nat → Ingestion}
  {db : Database} {s : State Database (Statements.Key H)}

theorem orders_pair {ls : List Step} {order : List Nat}
    (h : execAll (ReadCommitted.step (session calls))
      (ReadCommitted.initial (programs env hash calls) db) ls = some s)
    (hpair : ∀ l ∈ ls, l.transaction = 0 ∨ l.transaction = 1)
    (hfirst : (s.phase 0).isCommitted = true) (hsecond : (s.phase 1).isCommitted = true)
    (horder : Orders s order) : order = [0, 1] ∨ order = [1, 0] := by
  obtain ⟨hnodup, hmem⟩ := horder
  have hperm : order.Perm [0, 1] := by
    refine (List.perm_ext_iff_of_nodup hnodup (by decide)).2 fun t => ?_
    rw [hmem, List.mem_pair]
    constructor
    · intro hcommitted
      refine Decidable.byContradiction fun hneither => ?_
      have hphase := ReadCommitted.phase_of_execAll h (t := t) fun l hl heq => by
        rcases hpair l hl with hl | hl
        · exact hneither (.inl (heq.symm.trans hl))
        · exact hneither (.inr (heq.symm.trans hl))
      rw [hphase] at hcommitted
      cases hcommitted
    · rintro (rfl | rfl)
      · exact ReadCommitted.Phase.isCommitted_iff.1 hfirst
      · exact ReadCommitted.Phase.isCommitted_iff.1 hsecond
  obtain ⟨t, u, rfl⟩ := List.length_eq_two.1 hperm.length_eq
  have ht : t = 0 ∨ t = 1 := List.mem_pair.1 (hperm.subset List.mem_cons_self)
  have hu : u = 0 ∨ u = 1 :=
    List.mem_pair.1 (hperm.subset (List.mem_cons_of_mem _ List.mem_cons_self))
  have hne : t ≠ u := List.ne_of_not_mem_cons (List.nodup_cons.1 hnodup).1
  rcases ht with rfl | rfl
  · exact .inl (congrArg (fun u => [0, u]) (hu.resolve_left hne.symm))
  · exact .inr (congrArg (fun u => [1, u]) (hu.resolve_right hne.symm))

theorem not_serializable (ls : List Step) (size : Database → Nat)
    (hsize : ∀ db db', SameRows db db' → size db = size db')
    (hpair : ∀ l ∈ ls, l.transaction = 0 ∨ l.transaction = 1)
    (hrun : (execAll (ReadCommitted.step (session calls))
      (ReadCommitted.initial (programs env hash calls) db) ls).any
        (fun s => (s.phase 0).isCommitted && (s.phase 1).isCommitted &&
          [[0, 1], [1, 0]].all fun order => (serially env calls order db).all
            fun db' => size db' ≠ size s.committed) = true) :
    ∃ s, Run (ReadCommitted.step (session calls)) anyStep
        (ReadCommitted.initial (programs env hash calls) db) s ∧
      ¬ Serializable env calls db s := by
  cases hexec : execAll (ReadCommitted.step (session calls))
      (ReadCommitted.initial (programs env hash calls) db) ls with
  | none =>
      rw [hexec] at hrun
      cases hrun
  | some s =>
      rw [hexec] at hrun
      simp only [Option.any_some, Bool.and_eq_true] at hrun
      obtain ⟨⟨hfirst, hsecond⟩, hdiffers⟩ := hrun
      refine ⟨s, run_of_execAll hexec, ?_⟩
      rintro ⟨order, horder, db', hserial, hsame⟩
      have hmem := List.mem_pair.2 (orders_pair hexec hpair hfirst hsecond horder)
      have hne := List.all_eq_true.1 hdiffers order hmem
      rw [hserial, Option.all_some, decide_eq_true_eq] at hne
      exact hne (hsize _ _ hsame)

def storedFailures (n : Nat) : Database :=
  (createEventsBulk plainEnv .empty
    (failures (tenIds.take n) 0 (some "victim") (some "198.51.100.60"))).getD .empty

def lastFailure (eventId : String) : EventCreate :=
  telemetry eventId "login_failure" 8 (some "victim") (some "198.51.100.60") []

def successfulLogin : EventCreate :=
  telemetry "success" "login_success" 8 (some "victim") (some "198.51.100.60") []

def twoCalls (first second : EventCreate) : Nat → Ingestion
  | 0 => ⟨[first], 100⟩
  | 1 => ⟨[second], 200⟩
  | _ => ⟨[], 300⟩

def overlapping (first second : Nat) : List Step :=
  List.replicate first (.statement 0) ++ List.replicate second (.statement 1) ++
    [.commit 0, .commit 1]

theorem overlap_loses_alert_and_incident :
    (∃ s, Run (ReadCommitted.step (session (twoCalls (lastFailure "ninth") (lastFailure "tenth"))))
        anyStep (ReadCommitted.initial (programs plainEnv id
          (twoCalls (lastFailure "ninth") (lastFailure "tenth"))) (storedFailures 8)) s ∧
      ¬ Serializable plainEnv (twoCalls (lastFailure "ninth") (lastFailure "tenth"))
        (storedFailures 8) s) ∧
    ∃ s, Run (ReadCommitted.step (session (twoCalls (lastFailure "tenth") successfulLogin)))
        anyStep (ReadCommitted.initial (programs plainEnv id
          (twoCalls (lastFailure "tenth") successfulLogin)) (storedFailures 9)) s ∧
      ¬ Serializable plainEnv (twoCalls (lastFailure "tenth") successfulLogin)
        (storedFailures 9) s := by
  constructor
  · refine not_serializable (overlapping 13 13) (fun db => db.alerts.length)
      (fun _ _ hsame => hsame.alerts.length_eq) (by decide) ?_
    decide
  · refine not_serializable (overlapping 14 13) (fun db => db.incidents.length)
      (fun _ _ hsame => hsame.incidents.length_eq) (by decide) ?_
    decide

end Overlaps

end Correlation
