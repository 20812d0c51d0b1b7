import AiSoc.Library.JsonShape

namespace PyJson

section Subvalues

inductive Subvalue : Json → Json → Prop where
  | refl (value : Json) : Subvalue value value
  | item {value item : Json} {items : List Json} (hmem : item ∈ items) (h : Subvalue value item) :
      Subvalue value (.arr items)
  | field {value : Json} {fields : Obj} {q : String × Json} (hmem : q ∈ fields)
      (h : Subvalue value q.2) : Subvalue value (.obj fields)

theorem Subvalue.eq_of_scalar {value leaf : Json} (h : Subvalue value leaf)
    (hleaf : scalar leaf = true) : value = leaf := by
  cases h with
  | refl => rfl
  | item => cases hleaf
  | field => cases hleaf

theorem Subvalue.eq_of_str {value : Json} {s : String} (h : Subvalue value (.str s)) :
    value = .str s := by
  cases h with
  | refl => rfl

theorem subvalue_arr {value : Json} {items : List Json} (h : Subvalue value (.arr items)) :
    value = .arr items ∨ ∃ item ∈ items, Subvalue value item := by
  cases h with
  | refl => exact .inl rfl
  | item hmem h => exact .inr ⟨_, hmem, h⟩

theorem subvalue_obj {value : Json} {fields : Obj} (h : Subvalue value (.obj fields)) :
    value = .obj fields ∨ ∃ q ∈ fields, Subvalue value q.2 := by
  cases h with
  | refl => exact .inl rfl
  | field hmem h => exact .inr ⟨_, hmem, h⟩

end Subvalues

section Nesting

mutual

def nesting : Json → Nat
  | .arr items => nestingItems items + 1
  | .obj fields => nestingFields fields + 1
  | _ => 1

def nestingItems : List Json → Nat
  | [] => 0
  | item :: items => max (nesting item) (nestingItems items)

def nestingFields : List (String × Json) → Nat
  | [] => 0
  | (_, value) :: fields => max (nesting value) (nestingFields fields)

end

theorem nestingItems_le {items : List Json} {n : Nat} (h : ∀ item ∈ items, nesting item ≤ n) :
    nestingItems items ≤ n := by
  induction items with
  | nil => exact Nat.zero_le n
  | cons item items ih =>
      rw [nestingItems]
      exact Nat.max_le.mpr
        ⟨h item List.mem_cons_self, ih fun i hi => h i (List.mem_cons_of_mem _ hi)⟩

theorem nestingFields_le {fields : Obj} {n : Nat} (h : ∀ q ∈ fields, nesting q.2 ≤ n) :
    nestingFields fields ≤ n := by
  induction fields with
  | nil => exact Nat.zero_le n
  | cons q fields ih =>
      rw [nestingFields]
      exact Nat.max_le.mpr
        ⟨h q List.mem_cons_self, ih fun r hr => h r (List.mem_cons_of_mem _ hr)⟩

theorem nesting_of_scalar {value : Json} (h : scalar value = true) : nesting value = 1 := by
  cases value with
  | str s => cases h
  | arr items => cases h
  | obj fields => cases h
  | _ => rw [nesting] <;> simp

theorem Shallow.nesting_le {width depth : Nat} {value : Json} (h : Shallow width depth value) :
    nesting value ≤ depth + 1 := by
  induction h with
  | scalar h =>
      rw [nesting_of_scalar h]
      exact Nat.le_add_left _ _
  | str s => simp [nesting]
  | arr _ _ ih =>
      rw [nesting]
      exact Nat.succ_le_succ (nestingItems_le ih)
  | obj _ _ ih =>
      rw [nesting]
      exact Nat.succ_le_succ (nestingFields_le ih)

end Nesting

section Keys

theorem mem_keys_set {fields : Obj} {key other : String} {value : Json}
    (h : other ∈ (fields.set key value).map Prod.fst) :
    other = key ∨ other ∈ fields.map Prod.fst := by
  obtain ⟨q, hq, rfl⟩ := List.mem_map.mp h
  rcases mem_set hq with rfl | hmem
  · exact .inl rfl
  · exact .inr (List.mem_map_of_mem hmem)

theorem nodup_set {fields : Obj} (key : String) (value : Json)
    (h : (fields.map Prod.fst).Nodup) : ((fields.set key value).map Prod.fst).Nodup := by
  induction fields with
  | nil => exact List.nodup_singleton key
  | cons r fields ih =>
      obtain ⟨k, v⟩ := r
      obtain ⟨hfresh, hrest⟩ := List.nodup_cons.mp h
      simp only [Obj.set]
      split
      · exact h
      · rename_i hne
        refine List.nodup_cons.mpr ⟨?_, ih hrest⟩
        intro hmem
        rcases mem_keys_set hmem with heq | hmem
        · exact hne heq
        · exact hfresh hmem

theorem nodup_ofPairs (pairs : List (String × Json)) :
    ((Obj.ofPairs pairs).map Prod.fst).Nodup := by
  have hfold : ∀ (pairs : List (String × Json)) (fields : Obj), (fields.map Prod.fst).Nodup →
      ((pairs.foldl (fun fields r => fields.set r.1 r.2) fields).map Prod.fst).Nodup := by
    intro pairs
    induction pairs with
    | nil =>
        intro fields h
        exact h
    | cons r pairs ih =>
        intro fields h
        exact ih _ (nodup_set r.1 r.2 h)
  exact hfold pairs [] List.nodup_nil

end Keys

end PyJson
