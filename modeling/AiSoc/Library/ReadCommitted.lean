import AiSoc.Library.AdvisoryLock
import AiSoc.Library.Transition
import Mathlib.Data.List.Forall2

namespace ReadCommitted

open AdvisoryLock Transition

-- the statements of a transaction on a database V, which may wait for a lock of K
inductive Program (V K A : Type) : Type 1 where
  | pure (a : A)
  | fail
  | lock (key : K) (rest : Program V K A)
  | read {R : Type} (same : DecidableEq R) (query : V → R) (rest : R → Program V K A)
  | write (change : V → V) (rest : Program V K A)

namespace Program

variable {V K A B : Type}

def bind : Program V K A → (A → Program V K B) → Program V K B
  | .pure a, next => next a
  | .fail, _ => .fail
  | .lock key rest, next => .lock key (rest.bind next)
  | .read same query rest, next => .read same query fun answer => (rest answer).bind next
  | .write change rest, next => .write change (rest.bind next)

instance : Monad (Program V K) where
  pure := .pure
  bind := bind

def acquire (key : K) : Program V K Unit :=
  .lock key (.pure ())

def ask {R : Type} [same : DecidableEq R] (query : V → R) : Program V K R :=
  .read same query .pure

def put (change : V → V) : Program V K Unit :=
  .write change (.pure ())

-- none is an exception
def ofOption : Option A → Program V K A
  | some a => .pure a
  | none => .fail

def acquireAll : List K → Program V K Unit
  | [] => .pure ()
  | key :: keys => .lock key (acquireAll keys)

def sequence : List (Program V K A) → Program V K (List A)
  | [] => .pure []
  | p :: ps => p.bind fun a => (sequence ps).bind fun rest => .pure (a :: rest)

-- the statements one after the other on a database that nobody else changes
def exec : Program V K A → V → Option (A × V)
  | .pure a, v => some (a, v)
  | .fail, _ => none
  | .lock _ rest, v => rest.exec v
  | .read _ query rest, v => (rest (query v)).exec v
  | .write change rest, v => rest.exec (change v)

@[simp] theorem exec_pure (a : A) (v : V) :
    (Pure.pure a : Program V K A).exec v = some (a, v) := rfl

@[simp] theorem exec_fail (v : V) : (fail : Program V K A).exec v = none := rfl

@[simp] theorem exec_acquire (key : K) (v : V) :
    (acquire key : Program V K Unit).exec v = some ((), v) := rfl

@[simp] theorem exec_ask {R : Type} [DecidableEq R] (query : V → R) (v : V) :
    (ask query : Program V K R).exec v = some (query v, v) := rfl

@[simp] theorem exec_put (change : V → V) (v : V) :
    (put change : Program V K Unit).exec v = some ((), change v) := rfl

@[simp] theorem exec_ofOption (value : Option A) (v : V) :
    (ofOption value : Program V K A).exec v = value.map fun a => (a, v) := by
  cases value <;> rfl

@[simp] theorem exec_acquireAll (keys : List K) (v : V) :
    (acquireAll keys : Program V K Unit).exec v = some ((), v) := by
  induction keys with
  | nil => rfl
  | cons key keys ih => exact ih

@[simp] theorem exec_bind (p : Program V K A) (next : A → Program V K B) (v : V) :
    (p >>= next).exec v = (p.exec v).bind fun r => (next r.1).exec r.2 := by
  induction p generalizing v with
  | pure a => rfl
  | fail => rfl
  | lock key rest ih => exact ih v
  | read same query rest ih => exact ih (query v) v
  | write change rest ih => exact ih (change v)

def Answers (p : Program V K A) (f : V → Option A) : Prop :=
  ∀ v, p.exec v = (f v).map fun a => (a, v)

theorem answers_ask_ofOption [DecidableEq A] (f : V → Option A) :
    Answers (ask f >>= ofOption : Program V K A) f := by
  intro v
  rw [exec_bind, exec_ask, Option.bind_some, exec_ofOption]

theorem exec_sequence {ps : List (Program V K A)} {fs : List (V → Option A)}
    (h : List.Forall₂ Answers ps fs) (v : V) :
    (sequence ps).exec v =
      (fs.mapM fun (f : V → Option A) => f v).map fun results => (results, v) := by
  induction h with
  | nil => rfl
  | @cons p f ps fs hp _ ih =>
      have hrest : (sequence (p :: ps)).exec v =
          (p.exec v).bind fun r => ((sequence ps).exec r.2).bind fun rest =>
            some (r.1 :: rest.1, rest.2) := by
        refine (exec_bind p _ v).trans ?_
        congr 1
        funext r
        exact exec_bind (sequence ps) _ r.2
      rw [hrest, hp v, List.mapM_cons]
      cases f v with
      | none => rfl
      | some a =>
          simp only [Option.map_some, Option.bind_some, ih, Option.bind_eq_bind]
          cases fs.mapM fun f => f v <;> rfl

end Program

variable {V K : Type}

-- what a transaction has asked and been told, and what it has written
inductive Op (V : Type) : Type 1 where
  | read {R : Type} (same : DecidableEq R) (query : V → R) (answer : R)
  | write (change : V → V)

def after : List (Op V) → V → V
  | [], v => v
  | .read _ _ _ :: ops, v => after ops v
  | .write change :: ops, v => after ops (change v)

def Repeatable : List (Op V) → V → Prop
  | [], _ => True
  | .read _ query answer :: ops, v => query v = answer ∧ Repeatable ops v
  | .write change :: ops, v => Repeatable ops (change v)

instance Repeatable.decide : (ops : List (Op V)) → (v : V) → Decidable (Repeatable ops v)
  | [], _ => isTrue trivial
  | .read _ query answer :: ops, v =>
      have := Repeatable.decide ops v
      inferInstanceAs (Decidable (query v = answer ∧ Repeatable ops v))
  | .write change :: ops, v => Repeatable.decide ops (change v)

theorem after_append (ops ops' : List (Op V)) (v : V) :
    after (ops ++ ops') v = after ops' (after ops v) := by
  induction ops generalizing v with
  | nil => rfl
  | cons op ops ih =>
      cases op with
      | read same query answer => exact ih v
      | write change => exact ih (change v)

theorem repeatable_append {ops ops' : List (Op V)} {v : V} :
    Repeatable (ops ++ ops') v ↔ Repeatable ops v ∧ Repeatable ops' (after ops v) := by
  induction ops generalizing v with
  | nil => exact (iff_of_eq (true_and _)).symm
  | cons op ops ih =>
      cases op with
      | read same query answer => exact (and_congr_right' ih).trans and_assoc.symm
      | write change => exact ih

inductive Phase (V K : Type) : Type 1 where
  | running (ops : List (Op V)) (rest : Program V K Unit)
  | committed
  | aborted

def Phase.isCommitted : Phase V K → Bool
  | .committed => true
  | _ => false

theorem Phase.isCommitted_iff {phase : Phase V K} :
    phase.isCommitted = true ↔ phase = .committed := by
  cases phase <;> simp [Phase.isCommitted]

structure State (V K : Type) : Type 1 where
  committed : V
  locks : Locks K
  phase : Nat → Phase V K

inductive Step where
  | statement (t : Nat)
  | commit (t : Nat)
  | rollback (t : Nat)

def Step.transaction : Step → Nat
  | .statement t => t
  | .commit t => t
  | .rollback t => t

def initial (programs : Nat → Program V K Unit) (v : V) : State V K where
  committed := v
  locks := Locks.empty
  phase t := .running [] (programs t)

section Steps

variable [DecidableEq K]

-- a statement sees what is committed when it starts and the transaction's own writes;
-- session is what a connection adds to a database of its own
def step (session : Nat → V → V) (s : State V K) : Step → Option (State V K)
  | .statement t =>
      match s.phase t with
      | .running ops (.lock key rest) =>
          (s.locks.acquire t key).map fun locks =>
            { s with locks := locks, phase := Function.update s.phase t (.running ops rest) }
      | .running ops (.read same query rest) =>
          let answer := query (after ops (session t s.committed))
          some { s with
            phase := Function.update s.phase t
              (.running (ops ++ [.read same query answer]) (rest answer)) }
      | .running ops (.write change rest) =>
          some { s with
            phase := Function.update s.phase t (.running (ops ++ [.write change]) rest) }
      | _ => none
  | .commit t =>
      match s.phase t with
      | .running ops (.pure ()) =>
          some
            { committed := after ops (session t s.committed)
              locks := s.locks.release t
              phase := Function.update s.phase t .committed }
      | _ => none
  | .rollback t =>
      match s.phase t with
      | .running _ _ =>
          some { s with
            locks := s.locks.release t
            phase := Function.update s.phase t .aborted }
      | _ => none

end Steps

def serial (session : Nat → V → V) (programs : Nat → Program V K Unit) (order : List Nat) (v : V) :
    Option V :=
  order.foldlM (fun v t => ((programs t).exec (session t v)).map (·.2)) v

def Orders (s : State V K) (order : List Nat) : Prop :=
  order.Nodup ∧ ∀ t, t ∈ order ↔ s.phase t = .committed

def commitsRepeat (session : Nat → V → V) (s : State V K) : Step → Prop
  | .commit t => ∀ ops rest, s.phase t = .running ops rest →
      Repeatable ops (session t s.committed)
  | _ => True

instance (session : Nat → V → V) (s : State V K) (l : Step) :
    Decidable (commitsRepeat session s l) :=
  match l with
  | .statement _ => isTrue trivial
  | .rollback _ => isTrue trivial
  | .commit t =>
      match h : s.phase t with
      | .running ops rest =>
          decidable_of_iff (Repeatable ops (session t s.committed))
            ⟨fun hrepeat ops' rest' h' => by
              cases h.symm.trans h'
              exact hrepeat, fun hrepeat => hrepeat ops rest h⟩
      | .committed => isTrue fun ops rest h' => by cases h.symm.trans h'
      | .aborted => isTrue fun ops rest h' => by cases h.symm.trans h'

section Runs

variable {session : Nat → V → V} {programs : Nat → Program V K Unit} {v : V} {s s' : State V K}

def Follows (program : Program V K Unit) (ops : List (Op V)) (rest : Program V K Unit) : Prop :=
  ∀ v, Repeatable ops v → program.exec v = rest.exec (after ops v)

structure Inv (session : Nat → V → V) (programs : Nat → Program V K Unit) (v : V)
    (s : State V K) : Prop where
  follows : ∀ t ops rest, s.phase t = .running ops rest → Follows (programs t) ops rest
  ordered : ∃ order, Orders s order ∧ serial session programs order v = some s.committed

theorem Follows.snoc {program rest rest' : Program V K Unit} {ops : List (Op V)} {op : Op V}
    (h : Follows program ops rest)
    (hop : ∀ v, Repeatable [op] v → rest.exec v = rest'.exec (after [op] v)) :
    Follows program (ops ++ [op]) rest' := by
  intro v hrepeat
  obtain ⟨hops, hlast⟩ := repeatable_append.1 hrepeat
  rw [h v hops, hop _ hlast, after_append]

theorem inv_initial : Inv session programs v (initial programs v) := by
  refine ⟨?_, [], ⟨List.nodup_nil, ?_⟩, rfl⟩
  · intro t ops rest h
    cases h
    intro v _
    rfl
  · intro t
    constructor
    · intro h
      cases h
    · intro h
      cases h

theorem not_committed_of_running {t : Nat} {ops : List (Op V)} {rest : Program V K Unit}
    (h : s.phase t = .running ops rest) : s.phase t ≠ .committed := by
  rw [h]
  intro heq
  cases heq

theorem Inv.moved {t : Nat} {phase : Phase V K} (h : Inv session programs v s)
    (hbefore : s.phase t ≠ .committed) (hafter : phase ≠ .committed)
    (hfollows : ∀ ops rest, phase = .running ops rest → Follows (programs t) ops rest)
    (hcommitted : s'.committed = s.committed) (hphase : s'.phase = Function.update s.phase t phase) :
    Inv session programs v s' := by
  obtain ⟨order, ⟨hnodup, hmem⟩, hserial⟩ := h.ordered
  have hself : s'.phase t = phase := by
    rw [hphase, Function.update_self]
  have hother : ∀ u, u ≠ t → s'.phase u = s.phase u := by
    intro u hu
    rw [hphase, Function.update_of_ne hu]
  refine ⟨?_, order, ⟨hnodup, ?_⟩, by rw [hserial, hcommitted]⟩
  · intro u ops rest hu
    by_cases hut : u = t
    · subst hut
      exact hfollows ops rest (hself.symm.trans hu)
    · exact h.follows u ops rest ((hother u hut).symm.trans hu)
  · intro u
    rw [hmem]
    by_cases hut : u = t
    · subst hut
      rw [hself]
      exact ⟨fun heq => absurd heq hbefore, fun heq => absurd heq hafter⟩
    · rw [hother u hut]

theorem Inv.committed {t : Nat} {ops : List (Op V)} (h : Inv session programs v s)
    (hrunning : s.phase t = .running ops (.pure ()))
    (hrepeat : Repeatable ops (session t s.committed))
    (hcommitted : s'.committed = after ops (session t s.committed))
    (hphase : s'.phase = Function.update s.phase t .committed) :
    Inv session programs v s' := by
  obtain ⟨order, ⟨hnodup, hmem⟩, hserial⟩ := h.ordered
  have hnew : t ∉ order := by
    rw [hmem, hrunning]
    intro heq
    cases heq
  have hexec : (programs t).exec (session t s.committed) = some ((), s'.committed) := by
    rw [h.follows t ops _ hrunning _ hrepeat, hcommitted]
    rfl
  refine ⟨?_, order ++ [t], ⟨?_, ?_⟩, ?_⟩
  · intro u ops' rest hu
    rw [hphase] at hu
    by_cases hut : u = t
    · subst hut
      rw [Function.update_self] at hu
      cases hu
    · rw [Function.update_of_ne hut] at hu
      exact h.follows u ops' rest hu
  · refine List.nodup_append.2 ⟨hnodup, List.pairwise_singleton _ t, ?_⟩
    intro u hu w hw heq
    rw [List.mem_singleton.1 hw] at heq
    exact hnew (heq ▸ hu)
  · intro u
    rw [List.mem_append, List.mem_singleton, hphase]
    by_cases hut : u = t
    · subst hut
      rw [Function.update_self]
      exact ⟨fun _ => rfl, fun _ => .inr rfl⟩
    · rw [Function.update_of_ne hut, ← hmem]
      exact ⟨fun hor => hor.resolve_right hut, .inl⟩
  · have hlast : serial session programs [t] s.committed = some s'.committed := by
      rw [serial, List.foldlM_cons, hexec]
      rfl
    rw [serial, List.foldlM_append]
    exact Option.bind_eq_some_iff.2 ⟨s.committed, hserial, hlast⟩

section Steps

variable [DecidableEq K]

inductive Stepped (session : Nat → V → V) (s : State V K) : Step → State V K → Prop where
  | lock {t : Nat} {ops : List (Op V)} {key : K} {rest : Program V K Unit} {locks : Locks K} :
      s.phase t = .running ops (.lock key rest) → s.locks.acquire t key = some locks →
      Stepped session s (.statement t)
        ⟨s.committed, locks, Function.update s.phase t (.running ops rest)⟩
  | read {t : Nat} {ops : List (Op V)} {R : Type} {same : DecidableEq R} {query : V → R}
      {rest : R → Program V K Unit} {answer : R} :
      s.phase t = .running ops (.read same query rest) →
      answer = query (after ops (session t s.committed)) →
      Stepped session s (.statement t)
        ⟨s.committed, s.locks, Function.update s.phase t
          (.running (ops ++ [.read same query answer]) (rest answer))⟩
  | write {t : Nat} {ops : List (Op V)} {change : V → V} {rest : Program V K Unit} :
      s.phase t = .running ops (.write change rest) →
      Stepped session s (.statement t)
        ⟨s.committed, s.locks, Function.update s.phase t (.running (ops ++ [.write change]) rest)⟩
  | commit {t : Nat} {ops : List (Op V)} :
      s.phase t = .running ops (.pure ()) →
      Stepped session s (.commit t)
        ⟨after ops (session t s.committed), s.locks.release t,
          Function.update s.phase t .committed⟩
  | rollback {t : Nat} {ops : List (Op V)} {rest : Program V K Unit} :
      s.phase t = .running ops rest →
      Stepped session s (.rollback t)
        ⟨s.committed, s.locks.release t, Function.update s.phase t .aborted⟩

theorem stepped_statement {t : Nat} (h : step session s (.statement t) = some s') :
    Stepped session s (.statement t) s' := by
  cases hphase : s.phase t with
  | running ops rest =>
      cases rest with
      | lock key rest =>
          rw [step, hphase] at h
          obtain ⟨locks, hlocks, hs⟩ := Option.map_eq_some_iff.1 h
          cases hs
          exact .lock hphase hlocks
      | read same query rest =>
          rw [step, hphase] at h
          cases h
          exact .read hphase rfl
      | write change rest =>
          rw [step, hphase] at h
          cases h
          exact .write hphase
      | _ =>
          rw [step, hphase] at h
          cases h
  | _ =>
      rw [step, hphase] at h
      cases h

theorem stepped_commit {t : Nat} (h : step session s (.commit t) = some s') :
    Stepped session s (.commit t) s' := by
  cases hphase : s.phase t with
  | running ops rest =>
      cases rest with
      | pure a =>
          rw [step, hphase] at h
          cases h
          exact .commit hphase
      | _ =>
          rw [step, hphase] at h
          cases h
  | _ =>
      rw [step, hphase] at h
      cases h

theorem stepped_rollback {t : Nat} (h : step session s (.rollback t) = some s') :
    Stepped session s (.rollback t) s' := by
  cases hphase : s.phase t with
  | running ops rest =>
      rw [step, hphase] at h
      cases h
      exact .rollback hphase
  | _ =>
      rw [step, hphase] at h
      cases h

theorem stepped_of_step {l : Step} (h : step session s l = some s') : Stepped session s l s' := by
  cases l with
  | statement t => exact stepped_statement h
  | commit t => exact stepped_commit h
  | rollback t => exact stepped_rollback h

theorem inv_step {l : Step} (h : Inv session programs v s) (hok : commitsRepeat session s l)
    (hstep : step session s l = some s') : Inv session programs v s' := by
  cases stepped_of_step hstep with
  | lock hphase _ =>
      refine h.moved (not_committed_of_running hphase) (fun heq => by cases heq) ?_ rfl rfl
      intro ops' rest' heq
      cases heq
      exact fun w hrepeat => h.follows _ _ _ hphase w hrepeat
  | @read t ops R same query rest answer hphase hanswer =>
      refine h.moved (not_committed_of_running hphase) (fun heq => by cases heq) ?_ rfl rfl
      intro ops' rest' heq
      cases heq
      refine (h.follows _ _ _ hphase).snoc fun w hrepeat => ?_
      obtain ⟨hsame, _⟩ := hrepeat
      rw [← hsame]
      rfl
  | write hphase =>
      refine h.moved (not_committed_of_running hphase) (fun heq => by cases heq) ?_ rfl rfl
      intro ops' rest' heq
      cases heq
      exact (h.follows _ _ _ hphase).snoc fun w _ => rfl
  | commit hphase => exact h.committed hphase (hok _ _ hphase) rfl rfl
  | rollback hphase =>
      exact h.moved (not_committed_of_running hphase) (fun heq => by cases heq)
        (fun ops rest heq => by cases heq) rfl rfl

theorem phase_of_step {l : Step} {t : Nat} (h : step session s l = some s')
    (ht : l.transaction ≠ t) : s'.phase t = s.phase t := by
  cases stepped_of_step h with
  | _ => exact Function.update_of_ne (fun heq => ht heq.symm) ..

theorem phase_of_execAll {ls : List Step} {t : Nat} (h : execAll (step session) s ls = some s')
    (ht : ∀ l ∈ ls, l.transaction ≠ t) : s'.phase t = s.phase t := by
  induction ls generalizing s with
  | nil =>
      cases h
      rfl
  | cons l ls ih =>
      obtain ⟨s1, hfirst, hrest⟩ := Option.bind_eq_some_iff.1 h
      rw [ih hrest fun l hl => ht l (List.mem_cons_of_mem _ hl),
        phase_of_step hfirst (ht l List.mem_cons_self)]

theorem serial_of_run (h : Run (step session) (commitsRepeat session) (initial programs v) s) :
    ∃ order, Orders s order ∧ serial session programs order v = some s.committed := by
  have hinv : Inv session programs v s :=
    h.invariant (P := Inv session programs v) (fun _ _ _ hinv hok hstep => inv_step hinv hok hstep)
      inv_initial
  exact hinv.ordered

end Steps

end Runs

end ReadCommitted
