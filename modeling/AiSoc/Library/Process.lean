import AiSoc.Library.Transition
import Mathlib.Logic.Function.Basic

namespace Process

open Transition (anyStep)

inductive Prog (Stmt : Type) (Result : Stmt → Type) (α : Type) where
  | done (a : α)
  | stmt (s : Stmt) (k : Result s → Prog Stmt Result α)

namespace Prog

variable {Stmt : Type} {Result : Stmt → Type} {α β : Type}

def bind : Prog Stmt Result α → (α → Prog Stmt Result β) → Prog Stmt Result β
  | .done a, f => f a
  | .stmt s k, f => .stmt s fun r => (k r).bind f

def call (s : Stmt) : Prog Stmt Result (Result s) :=
  .stmt s .done

instance : Monad (Prog Stmt Result) where
  pure := .done
  bind := bind

@[simp] theorem pure_eq (a : α) : (pure a : Prog Stmt Result α) = .done a := rfl

@[simp] theorem done_bind (a : α) (f : α → Prog Stmt Result β) :
    (Prog.done a >>= f) = f a := rfl

@[simp] theorem stmt_bind (s : Stmt) (k : Result s → Prog Stmt Result α)
    (f : α → Prog Stmt Result β) :
    (Prog.stmt s k >>= f) = .stmt s fun r => k r >>= f := rfl

@[simp] theorem call_bind (s : Stmt) (f : Result s → Prog Stmt Result β) :
    (call s >>= f) = .stmt s f := rfl

inductive Ends : Prog Stmt Result α → α → Prop where
  | done (a : α) : Ends (.done a) a
  | stmt {s : Stmt} {k : Result s → Prog Stmt Result α} {a : α} (r : Result s) :
      Ends (k r) a → Ends (.stmt s k) a

theorem ends_done {a b : α} (h : Ends (.done a : Prog Stmt Result α) b) : b = a := by
  cases h
  rfl

theorem ends_bind {p : Prog Stmt Result α} {f : α → Prog Stmt Result β} {b : β}
    (h : Ends (p >>= f) b) : ∃ a, Ends p a ∧ Ends (f a) b := by
  induction p with
  | done a => exact ⟨a, .done a, h⟩
  | stmt s k ih =>
      rw [stmt_bind] at h
      cases h with
      | stmt r hr =>
          obtain ⟨a, ha, hb⟩ := ih r hr
          exact ⟨a, .stmt r ha, hb⟩

end Prog

structure Machine where
  Db : Type
  Stmt : Type
  Result : Stmt → Type
  Choice : Type
  Call : Type
  Out : Type
  exec : Nat → (q : Stmt) → Choice → Db → Option (Result q × Db)
  close : Nat → Db → Db
  body : Call → Prog Stmt Result Out

variable {M : Machine}

abbrev Machine.Program (M : Machine) : Type := Prog M.Stmt M.Result M.Out

structure State (M : Machine) where
  db : M.Db
  procs : Nat → Option M.Program

inductive Label (M : Machine) where
  | start (t : Nat) (c : M.Call)
  | exec (t : Nat) (choice : M.Choice)
  | stop (t : Nat)

def State.setProc (s : State M) (t : Nat) (p : Option M.Program) : State M :=
  { s with procs := Function.update s.procs t p }

-- `stop` is both the end of a session and a crash of its process
def step (s : State M) : Label M → Option (State M)
  | .start t c =>
      match s.procs t with
      | none => some (s.setProc t (some (M.body c)))
      | some _ => none
  | .exec t choice =>
      match s.procs t with
      | some (.stmt q k) =>
          (M.exec t q choice s.db).map fun out =>
            { s.setProc t (some (k out.1)) with db := out.2 }
      | _ => none
  | .stop t =>
      match s.procs t with
      | some _ => some { s.setProc t none with db := M.close t s.db }
      | none => none

theorem step_start {s s' : State M} {t : Nat} {c : M.Call}
    (h : step s (.start t c) = some s') :
    s.procs t = none ∧ s' = s.setProc t (some (M.body c)) := by
  simp only [step] at h
  split at h
  · exact ⟨‹_›, (Option.some.inj h).symm⟩
  · cases h

theorem step_exec {s s' : State M} {t : Nat} {choice : M.Choice}
    (h : step s (.exec t choice) = some s') :
    ∃ q k r db, s.procs t = some (.stmt q k) ∧ M.exec t q choice s.db = some (r, db) ∧
      s' = { s.setProc t (some (k r)) with db := db } := by
  simp only [step] at h
  split at h
  · rename_i q k hp
    obtain ⟨⟨r, db⟩, hr, rfl⟩ := Option.map_eq_some_iff.mp h
    exact ⟨q, k, r, db, hp, hr, rfl⟩
  · cases h

theorem step_stop {s s' : State M} {t : Nat} (h : step s (.stop t) = some s') :
    s' = { s.setProc t none with db := M.close t s.db } := by
  simp only [step] at h
  split at h
  · exact (Option.some.inj h).symm
  · cases h

def Label.proc : Label M → Nat
  | .start t _ => t
  | .exec t _ => t
  | .stop t => t

theorem procs_of_step {s s' : State M} {l : Label M} {u : Nat} (h : step s l = some s')
    (hu : u ≠ l.proc) : s'.procs u = s.procs u := by
  cases l with
  | start t c =>
      obtain ⟨_, rfl⟩ := step_start h
      exact Function.update_of_ne hu _ _
  | exec t c =>
      obtain ⟨_, _, _, _, _, _, rfl⟩ := step_exec h
      exact Function.update_of_ne hu _ _
  | stop t =>
      obtain rfl := step_stop h
      exact Function.update_of_ne hu _ _

abbrev Run (ok : State M → Label M → Prop) : State M → State M → Prop :=
  Transition.Run step ok

def State.initial (db : M.Db) : State M :=
  ⟨db, fun _ => none⟩

structure Typestate (M : Machine) where
  Phase : Type
  init : Phase
  allowed : Phase → M.Stmt → Prop
  next : Phase → (q : M.Stmt) → M.Result q → Phase → Prop
  holds : Nat → Phase → M.Db → Prop
  inv : M.Db → Prop

namespace Typestate

variable (T : Typestate M)

def Follows {α : Type} : T.Phase → Prog M.Stmt M.Result α → (α → T.Phase → Prop) → Prop
  | φ, .done a, Q => Q a φ
  | φ, .stmt q k, Q => T.allowed φ q ∧ ∀ r ψ, T.next φ q r ψ → Follows ψ (k r) Q

theorem Follows.bind {T : Typestate M} {α β : Type} {φ : T.Phase}
    {p : Prog M.Stmt M.Result α} {f : α → Prog M.Stmt M.Result β}
    {Q : α → T.Phase → Prop} {R : β → T.Phase → Prop} (hp : T.Follows φ p Q)
    (hf : ∀ a ψ, Q a ψ → T.Follows ψ (f a) R) : T.Follows φ (p >>= f) R := by
  induction p generalizing φ with
  | done a => exact hf a φ hp
  | stmt q k ih => exact ⟨hp.1, fun r ψ hψ => ih r (hp.2 r ψ hψ)⟩

theorem Follows.mono {T : Typestate M} {α : Type} {φ : T.Phase}
    {p : Prog M.Stmt M.Result α} {Q R : α → T.Phase → Prop} (hp : T.Follows φ p Q)
    (hQR : ∀ a ψ, Q a ψ → R a ψ) : T.Follows φ p R := by
  induction p generalizing φ with
  | done a => exact hQR a φ hp
  | stmt q k ih => exact ⟨hp.1, fun r ψ hψ => ih r (hp.2 r ψ hψ)⟩

theorem Follows.call {T : Typestate M} {α : Type} {φ : T.Phase} {q : M.Stmt}
    {f : M.Result q → Prog M.Stmt M.Result α} {Q : α → T.Phase → Prop} (hq : T.allowed φ q)
    (hf : ∀ r ψ, T.next φ q r ψ → T.Follows ψ (f r) Q) :
    T.Follows φ (Prog.call q >>= f) Q :=
  ⟨hq, hf⟩

theorem Follows.last {T : Typestate M} {φ : T.Phase} {q : M.Stmt}
    {Q : M.Result q → T.Phase → Prop} (hq : T.allowed φ q)
    (hQ : ∀ r ψ, T.next φ q r ψ → Q r ψ) : T.Follows φ (Prog.call q) Q :=
  ⟨hq, hQ⟩

structure Sound (ok : M.Db → Nat → M.Stmt → Prop) : Prop where
  body : ∀ c, T.Follows T.init (M.body c) fun _ _ => True
  exec : ∀ {t φ q c r db db'}, T.inv db → T.holds t φ db → T.allowed φ q → ok db t q →
    M.exec t q c db = some (r, db') → T.inv db' ∧ ∃ ψ, T.next φ q r ψ ∧ T.holds t ψ db'
  frame : ∀ {t φ q c r db db' u ψ}, T.inv db → T.holds t φ db → T.allowed φ q → ok db t q →
    M.exec t q c db = some (r, db') → u ≠ t → T.holds u ψ db → T.holds u ψ db'
  close : ∀ {t φ db}, T.inv db → T.holds t φ db →
    T.inv (M.close t db) ∧ T.holds t T.init (M.close t db)
  closeFrame : ∀ {t φ u ψ db}, T.inv db → T.holds t φ db → u ≠ t → T.holds u ψ db →
    T.holds u ψ (M.close t db)

def Safe (t : Nat) (db : M.Db) : Option M.Program → Prop
  | none => T.holds t T.init db
  | some p => ∃ φ, T.holds t φ db ∧ T.Follows φ p fun _ _ => True

def Good (s : State M) : Prop :=
  T.inv s.db ∧ ∀ t, T.Safe t s.db (s.procs t)

def SafeTo (post : M.Out → T.Phase → Prop) (t : Nat) (db : M.Db) : Option M.Program → Prop
  | none => T.holds t T.init db
  | some p => ∃ φ, T.holds t φ db ∧ T.Follows φ p post

def GoodTo (post : M.Out → T.Phase → Prop) (s : State M) : Prop :=
  T.inv s.db ∧ ∀ t, T.SafeTo post t s.db (s.procs t)

def stmtOk (ok : M.Db → Nat → M.Stmt → Prop) (s : State M) : Label M → Prop
  | .exec t _ => ∀ q k, s.procs t = some (.stmt q k) → ok s.db t q
  | _ => True

variable {T}

theorem safe_iff {t : Nat} {db : M.Db} {p : Option M.Program} :
    T.Safe t db p ↔ T.SafeTo (fun _ _ => True) t db p := by
  cases p <;> rfl

theorem good_iff {s : State M} : T.Good s ↔ T.GoodTo (fun _ _ => True) s :=
  and_congr_right fun _ => forall_congr' fun _ => safe_iff

section Postcondition

variable {post : M.Out → T.Phase → Prop}

theorem SafeTo.holds {t : Nat} {db : M.Db} {p : Option M.Program} (h : T.SafeTo post t db p) :
    ∃ φ, T.holds t φ db := by
  cases p with
  | none => exact ⟨T.init, h⟩
  | some p => exact ⟨h.choose, h.choose_spec.1⟩

theorem SafeTo.mono {t : Nat} {db db' : M.Db} {p : Option M.Program} (h : T.SafeTo post t db p)
    (himp : ∀ φ, T.holds t φ db → T.holds t φ db') : T.SafeTo post t db' p := by
  cases p with
  | none => exact himp _ h
  | some p => exact ⟨h.choose, himp _ h.choose_spec.1, h.choose_spec.2⟩

theorem GoodTo.of_setProc {s : State M} {t : Nat} {p : Option M.Program} {db : M.Db}
    (hinv : T.inv db) (hp : T.SafeTo post t db p)
    (hother : ∀ u, u ≠ t → T.SafeTo post u db (s.procs u)) :
    T.GoodTo post { s.setProc t p with db := db } := by
  refine ⟨hinv, fun u => ?_⟩
  rcases eq_or_ne u t with rfl | hu
  · simpa [State.setProc] using hp
  · simpa [State.setProc, hu] using hother u hu

theorem goodTo_step {ok : M.Db → Nat → M.Stmt → Prop} (hT : T.Sound ok)
    (hpost : ∀ c, T.Follows T.init (M.body c) post) {s s' : State M} {l : Label M}
    (hg : T.GoodTo post s) (hok : stmtOk ok s l) (hs : step s l = some s') :
    T.GoodTo post s' := by
  cases l with
  | start t c =>
      obtain ⟨hnone, rfl⟩ := step_start hs
      have hinit : T.holds t T.init s.db := by simpa [SafeTo, hnone] using hg.2 t
      exact GoodTo.of_setProc hg.1 ⟨T.init, hinit, hpost c⟩ fun u _ => hg.2 u
  | exec t choice =>
      obtain ⟨q, k, r, db, hp, hr, rfl⟩ := step_exec hs
      have hsafe := hg.2 t
      rw [hp] at hsafe
      obtain ⟨φ, hφ, hallowed, hnext⟩ := hsafe
      have hq : ok s.db t q := hok q k hp
      obtain ⟨hinv, ψ, hψ, hhold⟩ := hT.exec hg.1 hφ hallowed hq hr
      exact GoodTo.of_setProc hinv ⟨ψ, hhold, hnext r ψ hψ⟩ fun u hu =>
        (hg.2 u).mono fun _ => hT.frame hg.1 hφ hallowed hq hr hu
  | stop t =>
      obtain rfl := step_stop hs
      obtain ⟨φ, hφ⟩ := (hg.2 t).holds
      obtain ⟨hinv, hinit⟩ := hT.close hg.1 hφ
      exact GoodTo.of_setProc hinv hinit fun u hu =>
        (hg.2 u).mono fun _ => hT.closeFrame hg.1 hφ hu

end Postcondition

theorem good_step {ok : M.Db → Nat → M.Stmt → Prop} (hT : T.Sound ok)
    {s s' : State M} {l : Label M} (hg : T.Good s) (hok : stmtOk ok s l)
    (hs : step s l = some s') : T.Good s' :=
  good_iff.mpr (goodTo_step hT hT.body (good_iff.mp hg) hok hs)

theorem good_of_run {ok : M.Db → Nat → M.Stmt → Prop} (hT : T.Sound ok)
    {s s' : State M} (h : Run (stmtOk ok) s s') (hs : T.Good s) : T.Good s' :=
  h.invariant (fun _ _ _ hg hok hstep => good_step hT hg hok hstep) hs

theorem stmtOk_true {s : State M} {l : Label M} : stmtOk (fun _ _ _ => True) s l := by
  cases l with
  | exec t c => exact fun _ _ _ => trivial
  | start | stop => trivial

theorem good_of_anyRun (hT : T.Sound fun _ _ _ => True) {s s' : State M}
    (h : Run anyStep s s') (hs : T.Good s) : T.Good s' :=
  good_of_run hT (h.mono fun _ _ _ => stmtOk_true) hs

theorem good_initial {db : M.Db} (hinv : T.inv db) (hinit : ∀ t, T.holds t T.init db) :
    T.Good (State.initial db) :=
  ⟨hinv, hinit⟩

end Typestate

end Process
