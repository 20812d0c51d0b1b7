import AiSoc.Library.Transition

namespace Transition

variable {S L : Type} (step : S → L → Option S)

def Along (ok : S → L → Prop) : S → List L → Prop
  | _, [] => True
  | s, l :: ls => ok s l ∧ ∀ s', step s l = some s' → Along ok s' ls

def count (p : S → L → Bool) : S → List L → Nat
  | _, [] => 0
  | s, l :: ls => (p s l).toNat + ((step s l).map fun s' => count p s' ls).getD 0

variable {step}

theorem along_of_forall {ok : S → L → Prop} {ls : List L} (h : ∀ l ∈ ls, ∀ s, ok s l) (s : S) :
    Along step ok s ls := by
  induction ls generalizing s with
  | nil => trivial
  | cons l ls ih =>
      have hrest : ∀ l ∈ ls, ∀ s, ok s l := fun l' hl' => h l' (List.mem_cons_of_mem l hl')
      exact ⟨h l List.mem_cons_self s, fun s' _ => ih hrest s'⟩

theorem run_of_along {ok : S → L → Prop} {ls : List L} {s s' : S} (hok : Along step ok s ls)
    (hrun : execAll step s ls = some s') : Run step ok s s' := by
  induction ls generalizing s with
  | nil =>
      cases hrun
      exact .refl _
  | cons l ls ih =>
      obtain ⟨s1, hs1, hrest⟩ := Option.bind_eq_some_iff.1 hrun
      exact ((Run.refl s).tail hok.1 hs1).trans (ih (hok.2 s1 hs1) hrest)

theorem along_and {ok ok' : S → L → Prop} {s : S} {ls : List L} (h : Along step ok s ls)
    (h' : Along step ok' s ls) : Along step (fun s l => ok s l ∧ ok' s l) s ls := by
  induction ls generalizing s with
  | nil => trivial
  | cons l ls ih => exact ⟨⟨h.1, h'.1⟩, fun s' hs' => ih (h.2 s' hs') (h'.2 s' hs')⟩

theorem along_congr {P : S → Prop} {ok ok' : S → L → Prop}
    (hstep : ∀ s l s', P s → step s l = some s' → P s')
    (hiff : ∀ s l, P s → (ok s l ↔ ok' s l)) {s : S} (hs : P s) (ls : List L) :
    Along step ok s ls ↔ Along step ok' s ls := by
  induction ls generalizing s with
  | nil => exact Iff.rfl
  | cons l ls ih =>
      refine and_congr (hiff s l hs) (forall₂_congr fun s' hs' => ?_)
      exact ih (hstep s l s' hs hs')

theorem foldlM_error_iff {E : Type} {f : S → L → Except E S} {kind : E → Prop} (ls : List L)
    (s : S) : (¬ ∃ e, kind e ∧ ls.foldlM f s = .error e) ↔
      Along (fun s l => (f s l).toOption) (fun s l => ¬ ∃ e, kind e ∧ f s l = .error e) s ls := by
  induction ls generalizing s with
  | nil =>
      refine iff_of_true ?_ trivial
      rintro ⟨e, _, h⟩
      cases h
  | cons l ls ih =>
      rw [List.foldlM_cons, Along]
      cases hfirst : f s l with
      | error e =>
          constructor
          · intro h
            refine ⟨?_, fun s' hs' => by cases hs'⟩
            rintro ⟨e', hkind, he⟩
            cases he
            exact h ⟨e, hkind, rfl⟩
          · rintro ⟨h, _⟩ ⟨e', hkind, he⟩
            cases he
            exact h ⟨e, hkind, rfl⟩
      | ok s1 =>
          refine Iff.trans (ih s1) ?_
          constructor
          · intro h
            refine ⟨?_, ?_⟩
            · rintro ⟨e, _, he⟩
              cases he
            · intro s' hs'
              cases hs'
              exact h
          · intro h
            exact h.2 s1 rfl

theorem along_of_execWhile {ok : S → L → Prop} [∀ s l, Decidable (ok s l)] {s : S} {ls : List L}
    (h : (execWhile step (fun s l => ok s l) s ls).isSome) : Along step ok s ls := by
  induction ls generalizing s with
  | nil => trivial
  | cons l ls ih =>
      simp only [execWhile] at h
      split at h
      · rename_i hok
        refine ⟨of_decide_eq_true hok, fun s' hs' => ih ?_⟩
        rw [hs'] at h
        exact h
      · cases h

theorem count_le {ok : S → L → Prop} {p : S → L → Bool} {measure : S → Nat} {bound : Nat}
    (hstep : ∀ s l s', ok s l → step s l = some s' → measure s' = measure s + (p s l).toNat)
    (hroom : ∀ s l, ok s l → p s l = true → measure s < bound)
    {s : S} {ls : List L} (hok : Along step ok s ls) (hs : measure s ≤ bound) :
    measure s + count step p s ls ≤ bound := by
  induction ls generalizing s with
  | nil => exact hs
  | cons l ls ih =>
      have hnow : measure s + (p s l).toNat ≤ bound := by
        cases hp : p s l with
        | false => exact hs
        | true => exact hroom s l hok.1 hp
      rw [count]
      cases hs1 : step s l with
      | none => exact hnow
      | some s1 =>
          have hmeasure := hstep s l s1 hok.1 hs1
          have hrest := ih (hok.2 s1 hs1) (by omega)
          rw [Option.map_some, Option.getD_some]
          omega

end Transition
