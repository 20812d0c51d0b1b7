import AiSoc.Library.Json

namespace PyJson

def scalar : Json → Bool
  | .str _ => false
  | .arr _ => false
  | .obj _ => false
  | _ => true

inductive Strings (p : String → Prop) : Json → Prop where
  | scalar {value : Json} (h : scalar value = true) : Strings p value
  | str {s : String} (h : p s) : Strings p (.str s)
  | arr {items : List Json} (h : ∀ item ∈ items, Strings p item) : Strings p (.arr items)
  | obj {fields : Obj} (keys : ∀ q ∈ fields, p q.1) (values : ∀ q ∈ fields, Strings p q.2) :
      Strings p (.obj fields)

inductive Shallow (width : Nat) : Nat → Json → Prop where
  | scalar {depth : Nat} {value : Json} (h : scalar value = true) : Shallow width depth value
  | str {depth : Nat} (s : String) : Shallow width depth (.str s)
  | arr {depth : Nat} {items : List Json} (hlen : items.length ≤ width)
      (h : ∀ item ∈ items, Shallow width depth item) : Shallow width (depth + 1) (.arr items)
  | obj {depth : Nat} {fields : Obj} (hlen : fields.length ≤ width)
      (h : ∀ q ∈ fields, Shallow width depth q.2) : Shallow width (depth + 1) (.obj fields)

theorem Shallow.mono {width n m : Nat} {value : Json} (h : Shallow width n value) (hle : n ≤ m) :
    Shallow width m value := by
  induction h generalizing m with
  | scalar h => exact .scalar h
  | str s => exact .str s
  | arr hlen _ ih =>
      obtain ⟨m, rfl⟩ := Nat.exists_eq_add_of_le' (Nat.le_trans (Nat.le_add_left 1 _) hle)
      exact .arr hlen fun item hitem => ih item hitem (by omega)
  | obj hlen _ ih =>
      obtain ⟨m, rfl⟩ := Nat.exists_eq_add_of_le' (Nat.le_trans (Nat.le_add_left 1 _) hle)
      exact .obj hlen fun q hq => ih q hq (by omega)

section Leaves

variable {p : String → Prop}

theorem strings_str {s : String} (h : Strings p (.str s)) : p s := by
  cases h with
  | scalar h => cases h
  | str h => exact h

theorem strings_item {items : List Json} (h : Strings p (.arr items)) {item : Json}
    (hmem : item ∈ items) : Strings p item := by
  cases h with
  | scalar h => cases h
  | arr h => exact h item hmem

theorem strings_value {fields : Obj} (h : Strings p (.obj fields)) {q : String × Json}
    (hmem : q ∈ fields) : Strings p q.2 := by
  cases h with
  | scalar h => cases h
  | obj _ values => exact values q hmem

theorem strings_key {fields : Obj} (h : Strings p (.obj fields)) {q : String × Json}
    (hmem : q ∈ fields) : p q.1 := by
  cases h with
  | scalar h => cases h
  | obj keys _ => exact keys q hmem

theorem Strings.nil : Strings p (.obj []) :=
  .obj nofun nofun

theorem Strings.cons {key : String} {value : Json} {fields : Obj} (hkey : p key)
    (hvalue : Strings p value) (h : Strings p (.obj fields)) :
    Strings p (.obj ((key, value) :: fields)) := by
  refine .obj ?_ ?_
  · intro q hq
    rcases List.mem_cons.mp hq with rfl | hmem
    · exact hkey
    · exact strings_key h hmem
  · intro q hq
    rcases List.mem_cons.mp hq with rfl | hmem
    · exact hvalue
    · exact strings_value h hmem

theorem Strings.append {fields fields' : Obj} (h : Strings p (.obj fields))
    (h' : Strings p (.obj fields')) : Strings p (.obj (fields ++ fields')) := by
  refine .obj ?_ ?_
  · intro q hq
    rcases List.mem_append.mp hq with hmem | hmem
    · exact strings_key h hmem
    · exact strings_key h' hmem
  · intro q hq
    rcases List.mem_append.mp hq with hmem | hmem
    · exact strings_value h hmem
    · exact strings_value h' hmem

end Leaves

theorem shallow_items {width depth : Nat} {items : List Json}
    (h : Shallow width (depth + 1) (.arr items)) :
    items.length ≤ width ∧ ∀ item ∈ items, Shallow width depth item := by
  cases h with
  | scalar h => cases h
  | arr hlen h => exact ⟨hlen, h⟩

theorem shallow_fields {width depth : Nat} {fields : Obj}
    (h : Shallow width (depth + 1) (.obj fields)) :
    fields.length ≤ width ∧ ∀ q ∈ fields, Shallow width depth q.2 := by
  cases h with
  | scalar h => cases h
  | obj hlen h => exact ⟨hlen, h⟩

section Pairs

theorem mem_set {fields : Obj} {key : String} {value : Json} {q : String × Json}
    (h : q ∈ fields.set key value) : q = (key, value) ∨ q ∈ fields := by
  induction fields with
  | nil => exact .inl (List.mem_singleton.mp h)
  | cons r fields ih =>
      obtain ⟨k, v⟩ := r
      simp only [Obj.set] at h
      split at h
      · rename_i hk
        rcases List.mem_cons.mp h with rfl | hmem
        · exact .inl (by rw [hk])
        · exact .inr (List.mem_cons_of_mem _ hmem)
      · rcases List.mem_cons.mp h with rfl | hmem
        · exact .inr List.mem_cons_self
        · exact (ih hmem).imp_right (List.mem_cons_of_mem _)

theorem mem_of_get {fields : Obj} {key : String} {value : Json} (h : fields.get key = some value) :
    (key, value) ∈ fields := by
  obtain ⟨before, after, rfl, _⟩ := List.lookup_eq_some_iff.mp h
  exact List.mem_append_right _ List.mem_cons_self

theorem length_set_le (fields : Obj) (key : String) (value : Json) :
    (fields.set key value).length ≤ fields.length + 1 := by
  induction fields with
  | nil => simp [Obj.set]
  | cons r fields ih =>
      obtain ⟨k, v⟩ := r
      simp only [Obj.set]
      split
      · simp
      · simp only [List.length_cons]
        omega

theorem length_set_of_get {fields : Obj} {key : String} {old : Json} (value : Json)
    (h : fields.get key = some old) : (fields.set key value).length = fields.length := by
  induction fields with
  | nil => cases h
  | cons r fields ih =>
      obtain ⟨k, v⟩ := r
      rw [Obj.get_cons] at h
      simp only [Obj.set]
      split
      · simp
      · rename_i hne
        rw [if_neg (Ne.symm hne)] at h
        simp only [List.length_cons, ih h]

theorem mem_foldl_set {pairs : List (String × Json)} {fields : Obj} {q : String × Json}
    (h : q ∈ pairs.foldl (fun fields r => fields.set r.1 r.2) fields) :
    q ∈ pairs ∨ q ∈ fields := by
  induction pairs generalizing fields with
  | nil => exact .inr h
  | cons r pairs ih =>
      rcases ih h with hmem | hmem
      · exact .inl (List.mem_cons_of_mem _ hmem)
      · rcases mem_set hmem with rfl | hmem
        · exact .inl List.mem_cons_self
        · exact .inr hmem

theorem mem_ofPairs {pairs : List (String × Json)} {q : String × Json}
    (h : q ∈ Obj.ofPairs pairs) : q ∈ pairs :=
  (mem_foldl_set h).resolve_right List.not_mem_nil

theorem length_foldl_set (pairs : List (String × Json)) (fields : Obj) :
    (pairs.foldl (fun fields r => fields.set r.1 r.2) fields).length ≤
      fields.length + pairs.length := by
  induction pairs generalizing fields with
  | nil => simp
  | cons r pairs ih =>
      have hset := length_set_le fields r.1 r.2
      have hrest := ih (fields.set r.1 r.2)
      simp only [List.foldl_cons, List.length_cons]
      omega

theorem length_ofPairs_le (pairs : List (String × Json)) :
    (Obj.ofPairs pairs).length ≤ pairs.length := by
  have h := length_foldl_set pairs []
  simpa [Obj.ofPairs] using h

theorem foldl_set_of_nodup {pairs : List (String × Json)} {fields : Obj}
    (hnodup : (pairs.map Prod.fst).Nodup)
    (hnew : ∀ key ∈ pairs.map Prod.fst, fields.get key = none) :
    pairs.foldl (fun fields r => fields.set r.1 r.2) fields = fields ++ pairs := by
  induction pairs generalizing fields with
  | nil => simp
  | cons r pairs ih =>
      obtain ⟨key, value⟩ := r
      obtain ⟨hfresh, hrest⟩ := List.nodup_cons.mp hnodup
      have hset := Obj.set_of_get_eq_none value (hnew key List.mem_cons_self)
      rw [List.foldl_cons, ih hrest, hset, List.append_assoc, List.singleton_append]
      intro other hother
      have hne : other ≠ key := fun heq => hfresh (heq ▸ hother)
      rw [Obj.get_set_of_ne _ _ hne]
      exact hnew other (List.mem_cons_of_mem _ hother)

theorem ofPairs_of_nodup {pairs : List (String × Json)} (h : (pairs.map Prod.fst).Nodup) :
    Obj.ofPairs pairs = pairs :=
  foldl_set_of_nodup h fun _ _ => rfl

theorem strings_set {p : String → Prop} {fields : Obj} {key : String} {value : Json}
    (h : Strings p (.obj fields)) (hkey : p key) (hvalue : Strings p value) :
    Strings p (.obj (fields.set key value)) := by
  refine .obj ?_ ?_
  · intro q hq
    rcases mem_set hq with rfl | hmem
    · exact hkey
    · exact strings_key h hmem
  · intro q hq
    rcases mem_set hq with rfl | hmem
    · exact hvalue
    · exact strings_value h hmem

end Pairs

end PyJson
