import AiSoc.Library.Process

namespace Process

open Transition (anyStep)

variable {M : Machine}

structure Recorded (M : Machine) where
  state : State M
  calls : Nat → Option M.Call
  finished : List (M.Call × M.Out)

namespace Recorded

def initial (db : M.Db) : Recorded M :=
  ⟨State.initial db, fun _ => none, []⟩

def answered (s : Recorded M) (t : Nat) : Option M.Program → List (M.Call × M.Out)
  | some (.done out) => (s.calls t).toList.map (fun c => (c, out)) ++ s.finished
  | _ => s.finished

def record (s : Recorded M) (state : State M) : Label M → Recorded M
  | .start t c => ⟨state, Function.update s.calls t (some c), s.finished⟩
  | .exec t _ => ⟨state, s.calls, s.answered t (state.procs t)⟩
  | .stop t => ⟨state, Function.update s.calls t none, s.finished⟩

def step (s : Recorded M) (l : Label M) : Option (Recorded M) :=
  (Process.step s.state l).map fun state => s.record state l

theorem state_of_step {s s' : Recorded M} {l : Label M} (h : s.step l = some s') :
    Process.step s.state l = some s'.state ∧ s' = s.record s'.state l := by
  obtain ⟨state, hstep, rfl⟩ := Option.map_eq_some_iff.mp h
  cases l with
  | start | exec | stop => exact ⟨hstep, rfl⟩

end Recorded

namespace Typestate

def prod (T U : Typestate M) (holds : Nat → T.Phase × U.Phase → M.Db → Prop)
    (inv : M.Db → Prop) : Typestate M where
  Phase := T.Phase × U.Phase
  init := (T.init, U.init)
  allowed φ q := T.allowed φ.1 q ∧ U.allowed φ.2 q
  next φ q r ψ := T.next φ.1 q r ψ.1 ∧ U.next φ.2 q r ψ.2
  holds := holds
  inv := inv

theorem follows_prod {T U : Typestate M} {holds : Nat → T.Phase × U.Phase → M.Db → Prop}
    {inv : M.Db → Prop} {α : Type} {p : Prog M.Stmt M.Result α} {φ : T.Phase} {χ : U.Phase}
    {Q : α → T.Phase → Prop} {R : α → U.Phase → Prop} (hT : T.Follows φ p Q)
    (hU : U.Follows χ p R) :
    (T.prod U holds inv).Follows (φ, χ) p fun a ψ => Q a ψ.1 ∧ R a ψ.2 := by
  induction p generalizing φ χ with
  | done a => exact ⟨hT, hU⟩
  | stmt q k ih =>
      exact ⟨⟨hT.1, hU.1⟩, fun r ψ hψ => ih r (hT.2 r ψ.1 hψ.1) (hU.2 r ψ.2 hψ.2)⟩

variable (T : Typestate M) (apart : T.Phase → T.Phase → Prop)
  (post : M.Call → M.Out → T.Phase → Prop)

structure SoundApart : Prop where
  body : ∀ c, T.Follows T.init (M.body c) (post c)
  symm : ∀ {φ ψ}, apart φ ψ → apart ψ φ
  init : ∀ φ, apart T.init φ
  exec : ∀ {t φ q c r db db'}, T.inv db → T.holds t φ db → T.allowed φ q →
    M.exec t q c db = some (r, db') → T.inv db' ∧ ∃ ψ, T.next φ q r ψ ∧ T.holds t ψ db'
  frame : ∀ {t φ ψ q c r db db' u χ}, T.inv db → T.holds t φ db → T.allowed φ q →
    M.exec t q c db = some (r, db') → T.next φ q r ψ → u ≠ t → T.holds u χ db → apart φ χ →
      T.holds u χ db' ∧ apart ψ χ
  close : ∀ {t φ db}, T.inv db → T.holds t φ db →
    T.inv (M.close t db) ∧ T.holds t T.init (M.close t db)
  closeFrame : ∀ {t φ u χ db}, T.inv db → T.holds t φ db → u ≠ t → T.holds u χ db →
    T.holds u χ (M.close t db)

structure Together (s : Recorded M) (φ : Nat → T.Phase) : Prop where
  inv : T.inv s.state.db
  holds : ∀ t, T.holds t (φ t) s.state.db
  follows : ∀ t p, s.state.procs t = some p → ∃ c, s.calls t = some c ∧ T.Follows (φ t) p (post c)
  idle : ∀ t, s.state.procs t = none → φ t = T.init
  apart : ∀ t u, t ≠ u → apart (φ t) (φ u)

variable {T apart post} {s s' : Recorded M} {φ : Nat → T.Phase} {t : Nat}

theorem together_initial (hT : T.SoundApart apart post) {db : M.Db} (hinv : T.inv db)
    (hinit : ∀ t, T.holds t T.init db) :
    T.Together apart post (Recorded.initial db) fun _ => T.init where
  inv := hinv
  holds := hinit
  follows _ _ := nofun
  idle _ _ := rfl
  apart _ _ _ := hT.init _

theorem apart_update (hT : T.SoundApart apart post)
    (h : ∀ u v, u ≠ v → apart (φ u) (φ v)) {ψ : T.Phase} (hψ : ∀ u, u ≠ t → apart ψ (φ u))
    (u v : Nat) (huv : u ≠ v) :
    apart (Function.update φ t ψ u) (Function.update φ t ψ v) := by
  by_cases hu : u = t
  · rw [hu, Function.update_self, Function.update_of_ne (fun hv => huv (hu.trans hv.symm))]
    exact hψ v fun hv => huv (hu.trans hv.symm)
  · rw [Function.update_of_ne hu]
    by_cases hv : v = t
    · rw [hv, Function.update_self]
      exact hT.symm (hψ u hu)
    · rw [Function.update_of_ne hv]
      exact h u v huv

theorem Together.start (hT : T.SoundApart apart post) (h : T.Together apart post s φ)
    {c : M.Call} (hs : s.step (.start t c) = some s') : T.Together apart post s' φ := by
  obtain ⟨hstep, hrecord⟩ := Recorded.state_of_step hs
  obtain ⟨hnone, hstate⟩ := step_start hstep
  rw [hrecord, hstate]
  refine ⟨h.inv, h.holds, fun u p hp => ?_, fun u hu => ?_, h.apart⟩
  · by_cases hut : u = t
    · subst hut
      refine ⟨c, Function.update_self .., ?_⟩
      have hbody : M.body c = p := by simpa [Recorded.record, State.setProc] using hp
      rw [h.idle u hnone, ← hbody]
      exact hT.body c
    · have hp' : s.state.procs u = some p := by
        simpa [Recorded.record, State.setProc, hut] using hp
      obtain ⟨c', hc', hfollows⟩ := h.follows u p hp'
      exact ⟨c', (Function.update_of_ne hut ..).trans hc', hfollows⟩
  · by_cases hut : u = t
    · subst hut
      exact h.idle u hnone
    · exact h.idle u (by simpa [Recorded.record, State.setProc, hut] using hu)

theorem Together.stop (hT : T.SoundApart apart post) (h : T.Together apart post s φ)
    (hs : s.step (.stop t) = some s') :
    T.Together apart post s' (Function.update φ t T.init) := by
  obtain ⟨hstep, hrecord⟩ := Recorded.state_of_step hs
  have hstate := step_stop hstep
  obtain ⟨hinv, hinit⟩ := hT.close h.inv (h.holds t)
  rw [hrecord, hstate]
  refine ⟨hinv, fun u => ?_, fun u p hp => ?_, fun u hu => ?_,
    apart_update hT h.apart fun u _ => hT.init _⟩
  · by_cases hut : u = t
    · rw [hut, Function.update_self]
      exact hinit
    · rw [Function.update_of_ne hut]
      exact hT.closeFrame h.inv (h.holds t) hut (h.holds u)
  · by_cases hut : u = t
    · simp [Recorded.record, State.setProc, hut] at hp
    · have hp' : s.state.procs u = some p := by
        simpa [Recorded.record, State.setProc, hut] using hp
      obtain ⟨c', hc', hfollows⟩ := h.follows u p hp'
      rw [Function.update_of_ne hut]
      exact ⟨c', (Function.update_of_ne hut ..).trans hc', hfollows⟩
  · by_cases hut : u = t
    · rw [hut, Function.update_self]
    · rw [Function.update_of_ne hut]
      exact h.idle u (by simpa [Recorded.record, State.setProc, hut] using hu)

structure Executed (T : Typestate M) (apart : T.Phase → T.Phase → Prop)
    (post : M.Call → M.Out → T.Phase → Prop) (s s' : Recorded M) (φ : Nat → T.Phase) (t : Nat)
    (q : M.Stmt) (r : M.Result q) (k : M.Result q → M.Program) (choice : M.Choice) (c : M.Call)
    (ψ : T.Phase) : Prop where
  called : s.calls t = some c
  allowed : T.allowed (φ t) q
  exec : M.exec t q choice s.state.db = some (r, s'.state.db)
  next : T.next (φ t) q r ψ
  follows : T.Follows ψ (k r) (post c)
  finished : s'.finished = s.answered t (some (k r))
  together : T.Together apart post s' (Function.update φ t ψ)

theorem Together.exec (hT : T.SoundApart apart post) (h : T.Together apart post s φ)
    {choice : M.Choice} (hs : s.step (.exec t choice) = some s') :
    ∃ q r k c ψ, Executed T apart post s s' φ t q r k choice c ψ := by
  obtain ⟨hstep, hrecord⟩ := Recorded.state_of_step hs
  obtain ⟨q, k, r, db, hp, hexec, hstate⟩ := step_exec hstep
  obtain ⟨c, hc, hallowed, hfollows⟩ := h.follows t _ hp
  obtain ⟨hinv, ψ, hnext, hholds⟩ := hT.exec h.inv (h.holds t) hallowed hexec
  have hframe : ∀ u, u ≠ t → T.holds u (φ u) db ∧ apart ψ (φ u) := fun u hu =>
    hT.frame h.inv (h.holds t) hallowed hexec hnext hu (h.holds u) (h.apart t u hu.symm)
  have hprocs : s'.state.procs t = some (k r) := by simp [hstate, State.setProc]
  have hother : ∀ u, u ≠ t → s'.state.procs u = s.state.procs u := fun u hu => by
    simp [hstate, State.setProc, hu]
  have hdb : s'.state.db = db := by rw [hstate]
  have hcalls : s'.calls = s.calls := by rw [hrecord]; rfl
  refine ⟨q, r, k, c, ψ, hc, hallowed, hdb ▸ hexec, hnext, hfollows r ψ hnext, ?_, ?_⟩
  · rw [hrecord, ← hprocs]
    rfl
  · refine ⟨hdb ▸ hinv, fun u => ?_, fun u p hpu => ?_, fun u hu => ?_,
      apart_update hT h.apart fun u hu => (hframe u hu).2⟩
    · rw [hdb]
      by_cases hut : u = t
      · rw [hut, Function.update_self]
        exact hholds
      · rw [Function.update_of_ne hut]
        exact (hframe u hut).1
    · rw [hcalls]
      by_cases hut : u = t
      · subst hut
        rw [hprocs] at hpu
        rw [Function.update_self, ← Option.some.inj hpu]
        exact ⟨c, hc, hfollows r ψ hnext⟩
      · rw [hother u hut] at hpu
        rw [Function.update_of_ne hut]
        exact h.follows u p hpu
    · by_cases hut : u = t
      · subst hut
        rw [hprocs] at hu
        cases hu
      · rw [hother u hut] at hu
        rw [Function.update_of_ne hut]
        exact h.idle u hu

theorem together_step (hT : T.SoundApart apart post) (h : T.Together apart post s φ)
    {l : Label M} (hs : s.step l = some s') : ∃ ψ, T.Together apart post s' ψ := by
  cases l with
  | start t c => exact ⟨φ, h.start hT hs⟩
  | exec t choice =>
      obtain ⟨q, r, k, c, ψ, hexecuted⟩ := h.exec hT hs
      exact ⟨_, hexecuted.together⟩
  | stop t => exact ⟨_, h.stop hT hs⟩

end Typestate

end Process
