import Mathlib.Data.List.Induction

namespace Transition

variable {S L : Type*}

inductive Run (step : S → L → Option S) (ok : S → L → Prop) : S → S → Prop where
  | refl (s : S) : Run step ok s s
  | tail {s s' s'' : S} {l : L} :
      Run step ok s s' → ok s' l → step s' l = some s'' → Run step ok s s''

variable {step : S → L → Option S}

theorem Run.trans {ok : S → L → Prop} {s s' s'' : S} (h : Run step ok s s')
    (h' : Run step ok s' s'') : Run step ok s s'' := by
  induction h' with
  | refl => exact h
  | tail _ hok hs ih => exact ih.tail hok hs

theorem Run.mono {ok ok' : S → L → Prop} (himp : ∀ s l, ok s l → ok' s l) {s s' : S}
    (h : Run step ok s s') : Run step ok' s s' := by
  induction h with
  | refl => exact .refl _
  | tail _ hok hs ih => exact ih.tail (himp _ _ hok) hs

theorem Run.invariant {ok : S → L → Prop} {P : S → Prop}
    (hstep : ∀ s l s', P s → ok s l → step s l = some s' → P s') {s s' : S}
    (h : Run step ok s s') (hs : P s) : P s' := by
  induction h with
  | refl => exact hs
  | tail _ hok hs' ih => exact hstep _ _ _ ih hok hs'

def anyStep (_ : S) (_ : L) : Prop := True

def execAll (step : S → L → Option S) : S → List L → Option S
  | s, [] => some s
  | s, l :: ls => (step s l).bind fun s' => execAll step s' ls

theorem run_of_execAll {ls : List L} {s s' : S} (h : execAll step s ls = some s') :
    Run step anyStep s s' := by
  induction ls generalizing s with
  | nil => cases h; exact .refl _
  | cons l ls ih =>
      obtain ⟨s1, h1, h2⟩ := Option.bind_eq_some_iff.mp h
      exact ((Run.refl s).tail trivial h1).trans (ih h2)

theorem execAll_concat (s : S) (ls : List L) (l : L) :
    execAll step s (ls ++ [l]) = (execAll step s ls).bind fun s' => step s' l := by
  induction ls generalizing s with
  | nil => simp only [List.nil_append, execAll, Option.bind_some, Option.bind_fun_some]
  | cons first ls ih =>
      simp only [List.cons_append, execAll, ih, Option.bind_assoc]

theorem trace_invariant {P : List L → S → Prop} {s : S} (hstart : P [] s)
    (hstep : ∀ ls s' l s'', P ls s' → step s' l = some s'' → P (ls ++ [l]) s'')
    {ls : List L} {s' : S} (h : execAll step s ls = some s') : P ls s' := by
  induction ls using List.reverseRecOn generalizing s' with
  | nil =>
      cases h
      exact hstart
  | append_singleton ls l ih =>
      rw [execAll_concat] at h
      obtain ⟨s1, hs1, hlast⟩ := Option.bind_eq_some_iff.mp h
      exact hstep ls s1 l s' (ih hs1) hlast

theorem run_of_execAll_any {ls : List L} {s : S} {p : S → Bool}
    (h : (execAll step s ls).any p = true) : ∃ s', Run step anyStep s s' ∧ p s' = true := by
  cases hs : execAll step s ls with
  | none => rw [hs] at h; cases h
  | some s' =>
      rw [hs] at h
      exact ⟨s', run_of_execAll hs, h⟩

def execWhile (step : S → L → Option S) (ok : S → L → Bool) : S → List L → Option S
  | s, [] => some s
  | s, l :: ls => if ok s l then (step s l).bind fun s' => execWhile step ok s' ls else none

theorem run_of_execWhile {ok : S → L → Bool} {ls : List L} {s s' : S}
    (h : execWhile step ok s ls = some s') : Run step (fun s l => ok s l = true) s s' := by
  induction ls generalizing s with
  | nil => cases h; exact .refl _
  | cons l ls ih =>
      simp only [execWhile] at h
      split at h
      · rename_i hok
        obtain ⟨s1, h1, h2⟩ := Option.bind_eq_some_iff.mp h
        exact ((Run.refl s).tail hok h1).trans (ih h2)
      · cases h

theorem run_of_execWhile_any {ok : S → L → Bool} {ls : List L} {s : S} {p : S → Bool}
    (h : (execWhile step ok s ls).any p = true) :
    ∃ s', Run step (fun s l => ok s l = true) s s' ∧ p s' = true := by
  cases hs : execWhile step ok s ls with
  | none => rw [hs] at h; cases h
  | some s' =>
      rw [hs] at h
      exact ⟨s', run_of_execWhile hs, h⟩

end Transition
