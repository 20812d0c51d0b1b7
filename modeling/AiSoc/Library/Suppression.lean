import Mathlib.Logic.Function.Basic
import Mathlib.Data.List.Basic

namespace Suppression

variable {I K : Type}

-- a receiver that knows the latest message ids and the newest version of each key
structure Receiver (I K : Type) where
  seen : List I
  versions : K → Option Int

structure Offer (I K : Type) where
  id : I
  key : K
  version : Int

def Receiver.start : Receiver I K := ⟨[], fun _ => none⟩

-- the oldest id leaves when there are more than limit
def Receiver.add (limit : Nat) (r : Receiver I K) (id : I) : Receiver I K :=
  { r with
    seen := if limit < r.seen.length + 1 then (r.seen ++ [id]).tail else r.seen ++ [id] }

variable [DecidableEq I] [DecidableEq K]

def Receiver.offer (limit : Nat) (floor : Int) (r : Receiver I K) (o : Offer I K) :
    Receiver I K × Bool :=
  if o.id ∈ r.seen then (r, false)
  else if o.version ≤ (r.versions o.key).getD floor then (r.add limit o.id, false)
  else
    ({ r.add limit o.id with versions := Function.update r.versions o.key (some o.version) }, true)

structure Covers (floor : Int) (r : Receiver I K) (before : List (Offer I K)) : Prop where
  seen : ∀ id ∈ r.seen, ∃ o ∈ before, o.id = id
  above : ∀ o ∈ before, o.version ≤ (r.versions o.key).getD floor
  attained : ∀ key version, r.versions key = some version →
    floor < version ∧ ∃ o ∈ before, o.key = key ∧ o.version = version

def Consistent (before : List (Offer I K)) (o : Offer I K) : Prop :=
  ∀ o' ∈ before, o'.id = o.id → o' = o

variable {limit : Nat} {floor : Int} {r : Receiver I K} {before : List (Offer I K)}
  {o : Offer I K}

omit [DecidableEq I] [DecidableEq K] in
theorem covers_start : Covers floor (.start : Receiver I K) [] :=
  ⟨fun _ h => absurd h List.not_mem_nil, fun _ h => absurd h List.not_mem_nil, nofun⟩

omit [DecidableEq I] [DecidableEq K] in
theorem mem_seen_add {id id' : I} (h : id' ∈ (r.add limit id).seen) : id' ∈ r.seen ∨ id' = id := by
  have hmem : id' ∈ r.seen ++ [id] := by
    simp only [Receiver.add] at h
    split at h
    · exact List.mem_of_mem_tail h
    · exact h
  rcases List.mem_append.mp hmem with hold | hnew
  · exact .inl hold
  · exact .inr (List.mem_singleton.mp hnew)

omit [DecidableEq I] [DecidableEq K] in
theorem Covers.seen_add (h : Covers floor r before) :
    ∀ id ∈ (r.add limit o.id).seen, ∃ o' ∈ before ++ [o], o'.id = id := by
  intro id hid
  rcases mem_seen_add hid with hold | hnew
  · obtain ⟨o', ho', heq⟩ := h.seen id hold
    exact ⟨o', List.mem_append_left _ ho', heq⟩
  · exact ⟨o, List.mem_append_right _ (List.mem_singleton.mpr rfl), hnew.symm⟩

omit [DecidableEq I] [DecidableEq K] in
theorem Covers.of_versions (h : Covers floor r before) {r' : Receiver I K}
    (hseen : ∀ id ∈ r'.seen, ∃ o' ∈ before ++ [o], o'.id = id)
    (hversions : r'.versions = r.versions) (hle : o.version ≤ (r.versions o.key).getD floor) :
    Covers floor r' (before ++ [o]) := by
  refine ⟨hseen, ?_, ?_⟩
  · intro o' ho'
    rw [hversions]
    rcases List.mem_append.mp ho' with hold | hnew
    · exact h.above o' hold
    · rw [List.mem_singleton.mp hnew]
      exact hle
  · intro key version hkey
    rw [hversions] at hkey
    obtain ⟨hfloor, o', ho', hsame⟩ := h.attained key version hkey
    exact ⟨hfloor, o', List.mem_append_left _ ho', hsame⟩

theorem Covers.offer (h : Covers floor r before) (hone : Consistent before o) :
    Covers floor (r.offer limit floor o).1 (before ++ [o]) := by
  simp only [Receiver.offer]
  split
  · rename_i hid
    obtain ⟨o', ho', heq⟩ := h.seen o.id hid
    have hle : o.version ≤ (r.versions o.key).getD floor := by
      rw [← hone o' ho' heq]
      exact h.above o' ho'
    refine h.of_versions ?_ rfl hle
    intro id hid'
    obtain ⟨o'', ho'', hsame⟩ := h.seen id hid'
    exact ⟨o'', List.mem_append_left _ ho'', hsame⟩
  · split
    · rename_i hle
      exact h.of_versions h.seen_add rfl hle
    · rename_i hnew
      refine ⟨h.seen_add, ?_, ?_⟩
      · intro o' ho'
        by_cases hkey : o'.key = o.key
        · rw [hkey]
          simp only [Function.update_self, Option.getD_some]
          rcases List.mem_append.mp ho' with hold | hlast
          · have habove := h.above o' hold
            rw [hkey] at habove
            omega
          · obtain rfl := List.mem_singleton.mp hlast
            exact Int.le_refl _
        · simp only [Function.update_of_ne hkey]
          rcases List.mem_append.mp ho' with hold | hlast
          · exact h.above o' hold
          · rw [List.mem_singleton.mp hlast] at hkey
            exact absurd rfl hkey
      · intro key version hversion
        by_cases hkey : key = o.key
        · subst hkey
          simp only [Function.update_self, Option.some.injEq] at hversion
          have hfloor : floor ≤ (r.versions o.key).getD floor := by
            cases hold : r.versions o.key with
            | none => exact Int.le_refl _
            | some old => exact Int.le_of_lt (h.attained _ _ hold).1
          refine ⟨by omega, o, ?_, rfl, hversion⟩
          exact List.mem_append_right _ (List.mem_singleton.mpr rfl)
        · simp only [Function.update_of_ne hkey] at hversion
          obtain ⟨hfloor, o', ho', hsame⟩ := h.attained key version hversion
          exact ⟨hfloor, o', List.mem_append_left _ ho', hsame⟩

theorem lt_of_offer (h : (r.offer limit floor o).2 = true) :
    (r.versions o.key).getD floor < o.version := by
  simp only [Receiver.offer] at h
  split at h
  · cases h
  · split at h
    · cases h
    · omega

theorem Covers.offer_repeated (h : Covers floor r before) (ho : o ∈ before) :
    (r.offer limit floor o).2 = false := by
  simp only [Receiver.offer]
  split
  · rfl
  · rw [if_pos (h.above o ho)]

theorem Covers.offer_iff (h : Covers floor r before) (hnew : ∀ o' ∈ before, o'.id ≠ o.id) :
    (r.offer limit floor o).2 = true ↔
      floor < o.version ∧ ∀ o' ∈ before, o'.key = o.key → o'.version < o.version := by
  have hunseen : o.id ∉ r.seen := by
    intro hid
    obtain ⟨o', ho', heq⟩ := h.seen o.id hid
    exact hnew o' ho' heq
  have hlevel : (r.offer limit floor o).2 = true ↔
      (r.versions o.key).getD floor < o.version := by
    simp only [Receiver.offer, if_neg hunseen]
    split
    · rename_i hle
      exact ⟨fun hfalse => absurd hfalse Bool.false_ne_true, fun hlt => by omega⟩
    · rename_i hgt
      exact ⟨fun _ => by omega, fun _ => rfl⟩
  rw [hlevel]
  constructor
  · intro hlt
    refine ⟨?_, ?_⟩
    · cases hold : r.versions o.key with
      | none =>
          rw [hold] at hlt
          exact hlt
      | some old =>
          have hfloor := (h.attained _ _ hold).1
          rw [hold, Option.getD_some] at hlt
          omega
    · intro o' ho' hkey
      have habove := h.above o' ho'
      rw [hkey] at habove
      omega
  · rintro ⟨hfloor, hall⟩
    cases hold : r.versions o.key with
    | none => exact hfloor
    | some old =>
        obtain ⟨_, o', ho', hkey, hversion⟩ := h.attained _ _ hold
        rw [Option.getD_some, ← hversion]
        exact hall o' ho' hkey

end Suppression
