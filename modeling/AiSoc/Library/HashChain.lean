import Mathlib.Data.List.Basic
import Mathlib.Data.List.Induction
import Mathlib.Data.Set.Function

namespace HashChain

variable {H B : Type} (link : H → B → H)

def head (first : H) (bodies : List B) : H :=
  bodies.foldl link first

def steps : H → List B → List (H × B)
  | _, [] => []
  | prev, body :: bodies => (prev, body) :: steps (link prev body) bodies

theorem head_concat (first : H) (bodies : List B) (body : B) :
    head link first (bodies ++ [body]) = link (head link first bodies) body := by
  simp [head]

theorem steps_concat (first : H) (bodies : List B) (body : B) :
    steps link first (bodies ++ [body]) =
      steps link first bodies ++ [(head link first bodies, body)] := by
  induction bodies generalizing first with
  | nil => rfl
  | cons b bodies ih =>
      have htail := ih (link first b)
      simp only [List.cons_append, steps, htail]
      rfl

variable {link}

theorem head_injective {first : H} {as bs : List B}
    (hinj : Set.InjOn (fun s : H × B => link s.1 s.2)
      {s | s ∈ steps link first as ∨ s ∈ steps link first bs})
    (hfirst : ∀ s, s ∈ steps link first as ∨ s ∈ steps link first bs → link s.1 s.2 ≠ first)
    (h : head link first as = head link first bs) : as = bs := by
  induction as using List.reverseRecOn generalizing bs with
  | nil =>
      rcases List.eq_nil_or_concat' bs with rfl | ⟨bs, b, rfl⟩
      · rfl
      · rw [head_concat] at h
        have hmem : (head link first bs, b) ∈ steps link first (bs ++ [b]) := by
          rw [steps_concat]
          simp
        exact absurd h.symm (hfirst _ (.inr hmem))
  | append_singleton as a ih =>
      rw [steps_concat] at hinj hfirst
      rcases List.eq_nil_or_concat' bs with rfl | ⟨bs, b, rfl⟩
      · rw [head_concat] at h
        exact absurd h (hfirst (head link first as, a) (.inl (by simp)))
      · rw [steps_concat] at hinj hfirst
        rw [head_concat, head_concat] at h
        have hpair := hinj (.inl (List.mem_append_right _ List.mem_cons_self))
          (.inr (List.mem_append_right _ List.mem_cons_self)) h
        obtain ⟨hhead, rfl⟩ := Prod.mk.inj hpair
        have hsub : ∀ s, s ∈ steps link first as ∨ s ∈ steps link first bs →
            s ∈ steps link first as ++ [(head link first as, a)] ∨
              s ∈ steps link first bs ++ [(head link first bs, a)] := by
          intro s hs
          rcases hs with hs | hs
          · exact .inl (List.mem_append_left _ hs)
          · exact .inr (List.mem_append_left _ hs)
        rw [ih (hinj.mono hsub) (fun s hs => hfirst s (hsub s hs)) hhead]

end HashChain
