import AiSoc.Investigation.SchemaReduction

namespace Investigation

open PyJson JsonSchema Filter

section Shape

-- a schema, or a flag in place of one
def schemaLike : Json → Bool
  | .obj _ => true
  | .bool _ => true
  | _ => false

structure WellFormed (fields : Obj) : Prop where
  properties : ∀ value, ("properties", value) ∈ fields → ∃ children : Obj,
    value = .obj children ∧ ∀ p ∈ children, p.1 ≠ "$defs" ∧ isDict p.2 = true
  single : ∀ p ∈ fields, p.1 = "items" ∨ p.1 = "additionalProperties" → schemaLike p.2 = true
  choices : ∀ p ∈ fields, p.1 = "anyOf" ∨ p.1 = "oneOf" → ∃ children : List Json,
    p.2 = .arr children ∧ ∀ child ∈ children, schemaLike child = true
  data : ∀ p ∈ fields, p.1 = "type" ∨ p.1 = "enum" ∨ p.1 = "required" → Plain p.2

def Formed (schema : Json) : Prop :=
  ∀ fields, Position (.obj fields) schema → WellFormed fields

theorem formed_self {fields : Obj} (h : Formed (.obj fields)) : WellFormed fields :=
  h fields .here

theorem formed_child {fields : Obj} (h : Formed (.obj fields)) {p : String × Json}
    (hp : p ∈ fields) {child : Json} (hchild : child ∈ subschemas p.1 p.2) : Formed child :=
  fun inner hinner => h inner (.inside hp hchild hinner)

def KeywordReduced (reduces : Json → Json → Prop) (key : String) (value value' : Json) : Prop :=
  if key = "properties" then
    List.Forall₂ (Matched fun _ => reduces) (entries (some value)) (entries (some value'))
  else if key = "items" ∨ key = "additionalProperties" then reduces value value'
  else if key = "anyOf" ∨ key = "oneOf" then
    List.Forall₂ reduces (elements (some value)) (elements (some value'))
  else value' = value

def Reduces (definitions : Obj) : Nat → Json → Json → Prop
  | _ + 1, .bool b, reduced => reduced = .bool b
  | n + 1, .obj fields, reduced =>
      match localRef fields with
      | some name => ∃ definition, definitions.get name = some definition ∧
          Reduces definitions n definition reduced
      | none => ∃ fields', reduced = .obj fields' ∧
          List.Forall₂ (Matched (KeywordReduced (Reduces definitions n)))
            (fields.filter supported) fields'
  | _, _, _ => False

end Shape

section Cleaning

variable {definitions : Obj}

theorem reduces_ref {n : Nat} {fields : Obj} {name : String} {reduced : Json}
    (href : localRef fields = some name) :
    Reduces definitions (n + 1) (.obj fields) reduced ↔ ∃ definition,
      definitions.get name = some definition ∧ Reduces definitions n definition reduced := by
  simp only [Reduces, href]

theorem reduces_node {n : Nat} {fields : Obj} {reduced : Json} (href : localRef fields = none) :
    Reduces definitions (n + 1) (.obj fields) reduced ↔ ∃ fields', reduced = .obj fields' ∧
      List.Forall₂ (Matched (KeywordReduced (Reduces definitions n))) (fields.filter supported)
        fields' := by
  simp only [Reduces, href]

theorem googleJsonSchema_ok {depth : Nat} {schema fields fields' : Obj}
    (hinline : inlineSchemaRefs depth schema = .ok (.obj fields))
    (hclean : List.Forall₂
      (Matched fun key x y => cleanKeyword (googleJsonSchema depth) key x = .ok y)
      (fields.filter supported) fields') :
    googleJsonSchema (depth + 1) (.obj schema) = .ok (.obj fields') := by
  have hentries := entries_ok_iff.mpr hclean
  exact Except.bind_ok_iff.mpr
    ⟨.obj fields, hinline, Except.bind_ok_iff.mpr ⟨fields', hentries, rfl⟩⟩

theorem localRef_properties {children : Obj} (h : ∀ p ∈ children, isDict p.2 = true) :
    localRef children = none := by
  refine @localRef_none_of [] children rfl fun ref hget => ?_
  cases h _ (mem_of_get hget)

def cleanChild (clean : Json → Except String Json) (child : Json) : Except String Json :=
  if isDict child then clean child else .ok child

theorem cleanKeyword_single {clean : Json → Except String Json} {key : String} {value : Json}
    (hkey : key = "items" ∨ key = "additionalProperties") :
    cleanKeyword clean key value = cleanChild clean value := by
  rcases hkey with rfl | rfl
  · cases value with
    | obj fields => rfl
    | _ => rfl
  · cases value with
    | obj fields => rfl
    | _ => rfl

theorem cleanKeyword_choices {clean : Json → Except String Json} {key : String}
    {children children' : List Json} (hkey : key = "anyOf" ∨ key = "oneOf")
    (h : List.Forall₂ (fun x y => cleanChild clean x = .ok y) children children') :
    cleanKeyword clean key (.arr children) = .ok (.arr children') := by
  have hall : children.mapM (cleanChild clean) = .ok children' := Except.mapM_ok_iff.mpr h
  have hrun : (do return .arr (← children.mapM (cleanChild clean)) : Except String Json) =
      .ok (.arr children') := by
    rw [hall]
    rfl
  rcases hkey with rfl | rfl
  · exact hrun
  · exact hrun

theorem cleanKeyword_properties {clean : Json → Except String Json} {children children' : Obj}
    (h : List.Forall₂ (Matched fun _ x y => clean x = .ok y) children children') :
    cleanKeyword clean "properties" (.obj children) = .ok (.obj children') := by
  have hall := entries_ok_iff.mpr h
  exact Except.bind_ok_iff.mpr ⟨children', hall, rfl⟩

theorem cleanKeyword_data {clean : Json → Except String Json} {key : String} {value : Json}
    (hkey : key = "type" ∨ key = "enum" ∨ key = "required") :
    cleanKeyword clean key value = .ok value := by
  rcases hkey with rfl | rfl | rfl
  · rfl
  · rfl
  · rfl

def DictsReduce (definitions : Obj) (n : Nat) : Prop :=
  ∀ fields out, Formed (.obj fields) → resolve definitions n (.obj fields) = .ok out →
    ∃ reduced, Reduces definitions n (.obj fields) reduced ∧
      ∀ᶠ depth in atTop, googleJsonSchema depth out = .ok reduced

variable {n : Nat}

theorem child_reduces (hdefinitions : ∀ p ∈ definitions, isDict p.2 = true)
    (ih : DictsReduce definitions n) {child out : Json} (hlike : schemaLike child = true)
    (hformed : Formed child) (h : resolve definitions n child = .ok out) :
    ∃ reduced, Reduces definitions n child reduced ∧
      ∀ᶠ depth in atTop, cleanChild (googleJsonSchema depth) out = .ok reduced := by
  cases child with
  | obj fields =>
      obtain ⟨children, rfl, _⟩ := resolve_dict hdefinitions h
      exact ih fields _ hformed h
  | bool b =>
      cases n with
      | zero => cases h
      | succ n =>
          cases h
          exact ⟨.bool b, rfl, Eventually.of_forall fun _ => rfl⟩
  | _ => cases hlike

theorem properties_reduce (ih : DictsReduce definitions n) {fields children : Obj}
    (hformed : Formed (.obj fields)) (hmem : ("properties", .obj children) ∈ fields)
    (hchildren : ∀ p ∈ children, p.1 ≠ "$defs" ∧ isDict p.2 = true) {out : Json}
    (h : resolve definitions n (.obj children) = .ok out) :
    ∃ reduced, KeywordReduced (Reduces definitions n) "properties" (.obj children) reduced ∧
      ∀ᶠ depth in atTop,
        cleanKeyword (googleJsonSchema depth) "properties" out = .ok reduced := by
  cases n with
  | zero => cases h
  | succ n =>
      have href := localRef_properties fun p hp => (hchildren p hp).2
      obtain ⟨resolved, hresolved, rfl⟩ := (resolve_node href).mp h
      have hkept : withoutDefinitions children = children :=
        List.filter_eq_self.mpr fun p hp => decide_eq_true (hchildren p hp).1
      rw [hkept] at hresolved
      have hstep : ∀ p ∈ children, ∀ q,
          Matched (fun _ x y => resolve definitions n x = .ok y) p q →
          ∃ r, Matched (fun _ => Reduces definitions (n + 1)) p r ∧
            ∀ᶠ depth in atTop, Matched (fun _ x y => googleJsonSchema depth x = .ok y) q r := by
        rintro p hp q ⟨hkey, hq⟩
        obtain ⟨inner, hinner⟩ := isDict_iff.mp (hchildren p hp).2
        have hsub : p.2 ∈ subschemas "properties" (.obj children) :=
          List.mem_map_of_mem hp
        have hchild := formed_child hformed hmem hsub
        rw [hinner] at hchild hq
        obtain ⟨reduced, hreduces, hgoogle⟩ := ih inner q.2 hchild (resolve_succ hq)
        refine ⟨(p.1, reduced), ⟨rfl, hinner ▸ hreduces⟩, ?_⟩
        exact hgoogle.mono fun _ hdepth => ⟨hkey.symm, hdepth⟩
      obtain ⟨children', hreduces, hgoogle⟩ := exists_forall₂ hresolved hstep
      refine ⟨.obj children', by simpa [KeywordReduced, entries] using hreduces, ?_⟩
      exact hgoogle.mono fun _ hdepth => cleanKeyword_properties hdepth

theorem choices_reduce (hdefinitions : ∀ p ∈ definitions, isDict p.2 = true)
    (ih : DictsReduce definitions n) {fields : Obj} {key : String} {children : List Json}
    (hkey : key = "anyOf" ∨ key = "oneOf") (hformed : Formed (.obj fields))
    (hmem : (key, .arr children) ∈ fields)
    (hchildren : ∀ child ∈ children, schemaLike child = true) {out : Json}
    (h : resolve definitions n (.arr children) = .ok out) :
    ∃ reduced, KeywordReduced (Reduces definitions n) key (.arr children) reduced ∧
      ∀ᶠ depth in atTop, cleanKeyword (googleJsonSchema depth) key out = .ok reduced := by
  cases n with
  | zero => cases h
  | succ n =>
      obtain ⟨resolved, hresolved, rfl⟩ := resolve_arr.mp h
      have hne : key ≠ "properties" ∧ ¬ (key = "items" ∨ key = "additionalProperties") := by
        rcases hkey with rfl | rfl
        · simp
        · simp
      have hstep : ∀ child ∈ children, ∀ y, resolve definitions n child = .ok y →
          ∃ z, Reduces definitions (n + 1) child z ∧
            ∀ᶠ depth in atTop, cleanChild (googleJsonSchema depth) y = .ok z := by
        intro child hchild y hy
        have hsub : child ∈ subschemas key (.arr children) := by
          rw [subschemas, if_neg hne.1, if_neg hne.2, if_pos hkey]
          exact hchild
        exact child_reduces hdefinitions ih (hchildren child hchild)
          (formed_child hformed hmem hsub) (resolve_succ hy)
      obtain ⟨children', hreduces, hgoogle⟩ := exists_forall₂ hresolved hstep
      refine ⟨.arr children', ?_, hgoogle.mono fun _ => cleanKeyword_choices hkey⟩
      rw [KeywordReduced, if_neg hne.1, if_neg hne.2, if_pos hkey]
      exact hreduces

theorem keyword_reduces (hdefinitions : ∀ p ∈ definitions, isDict p.2 = true)
    (ih : DictsReduce definitions n) {fields : Obj} (hformed : Formed (.obj fields))
    {p : String × Json} (hp : p ∈ fields) (hsupported : supported p = true) {out : Json}
    (h : resolve definitions n p.2 = .ok out) :
    ∃ reduced, KeywordReduced (Reduces definitions n) p.1 p.2 reduced ∧
      ∀ᶠ depth in atTop, cleanKeyword (googleJsonSchema depth) p.1 out = .ok reduced := by
  obtain ⟨key, value⟩ := p
  have hwell := formed_self hformed
  have hsingle : key = "items" ∨ key = "additionalProperties" → ∃ reduced,
      KeywordReduced (Reduces definitions n) key value reduced ∧
        ∀ᶠ depth in atTop, cleanKeyword (googleJsonSchema depth) key out = .ok reduced := by
    intro hkey
    have hne : key ≠ "properties" := by
      rcases hkey with rfl | rfl
      · simp
      · simp
    have hsub : value ∈ subschemas key value := by
      rw [subschemas, if_neg hne, if_pos hkey]
      exact List.mem_singleton.mpr rfl
    obtain ⟨reduced, hreduces, hclean⟩ := child_reduces hdefinitions ih
      (hwell.single _ hp hkey) (formed_child hformed hp hsub) h
    refine ⟨reduced, ?_, hclean.mono fun _ hdepth => (cleanKeyword_single hkey).trans hdepth⟩
    rw [KeywordReduced, if_neg hne, if_pos hkey]
    exact hreduces
  have hchoices : key = "anyOf" ∨ key = "oneOf" → ∃ reduced,
      KeywordReduced (Reduces definitions n) key value reduced ∧
        ∀ᶠ depth in atTop, cleanKeyword (googleJsonSchema depth) key out = .ok reduced := by
    intro hkey
    obtain ⟨children, rfl, hchildren⟩ := hwell.choices _ hp hkey
    exact choices_reduce hdefinitions ih hkey hformed hp hchildren h
  have hdata : key = "type" ∨ key = "enum" ∨ key = "required" → ∃ reduced,
      KeywordReduced (Reduces definitions n) key value reduced ∧
        ∀ᶠ depth in atTop, cleanKeyword (googleJsonSchema depth) key out = .ok reduced := by
    intro hkey
    obtain rfl := resolve_plain (hwell.data _ hp hkey) h
    refine ⟨out, ?_, Eventually.of_forall fun _ => cleanKeyword_data hkey⟩
    rcases hkey with rfl | rfl | rfl
    · simp [KeywordReduced]
    · simp [KeywordReduced]
    · simp [KeywordReduced]
  simp only [supported, GOOGLE_SUPPORTED_SCHEMA_KEYS, List.contains_eq_mem, List.mem_cons,
    List.not_mem_nil, or_false, decide_eq_true_eq] at hsupported
  rcases hsupported with hkey | hkey | hkey | hkey | hkey | hkey | hkey | hkey
  · exact hdata (.inl hkey)
  · exact hdata (.inr (.inl hkey))
  · exact hsingle (.inl hkey)
  · exact hchoices (.inl hkey)
  · exact hchoices (.inr hkey)
  · cases hkey
    obtain ⟨children, rfl, hchildren⟩ := hwell.properties _ hp
    exact properties_reduce ih hformed hp hchildren h
  · exact hsingle (.inr hkey)
  · exact hdata (.inr (.inr hkey))

theorem inline_resolved (hdefinitions : ∀ p ∈ definitions, isDict p.2 = true)
    {fields children : Obj} (h : resolve definitions n (.obj fields) = .ok (.obj children)) :
    ∀ᶠ depth in atTop, inlineSchemaRefs depth children = .ok (.obj children) := by
  obtain ⟨_, hdict, hnone⟩ := resolve_dict hdefinitions h
  rw [← Json.obj.inj hdict] at hnone
  refine eventually_atTop.mpr ⟨n, fun depth hdepth => ?_⟩
  rw [inlineSchemaRefs, hnone]
  exact resolve_mono (resolve_resolved hdefinitions h) hdepth

theorem dicts_reduce (hdefinitions : ∀ p ∈ definitions, isDict p.2 = true ∧ Formed p.2) (n : Nat) :
    DictsReduce definitions n := by
  have hdicts : ∀ p ∈ definitions, isDict p.2 = true := fun p hp => (hdefinitions p hp).1
  induction n with
  | zero =>
      intro fields out _ h
      cases h
  | succ n ih =>
      intro fields out hformed h
      cases href : localRef fields with
      | some name =>
          obtain ⟨definition, hget, hout⟩ := (resolve_ref href).mp h
          obtain ⟨hdict, hdefinition⟩ := hdefinitions _ (mem_of_get hget)
          obtain ⟨inner, rfl⟩ := isDict_iff.mp hdict
          obtain ⟨reduced, hreduces, hgoogle⟩ := ih inner out hdefinition hout
          exact ⟨reduced, (reduces_ref href).mpr ⟨_, hget, hreduces⟩, hgoogle⟩
      | none =>
          obtain ⟨children, hchildren, rfl⟩ := (resolve_node href).mp h
          have hkept : (withoutDefinitions fields).filter supported = fields.filter supported := by
            rw [withoutDefinitions, List.filter_filter]
            refine List.filter_congr fun p _ => ?_
            cases hp : supported p with
            | false => rfl
            | true =>
                have hne : p.1 ≠ "$defs" := by
                  rintro heq
                  rw [supported, heq] at hp
                  exact absurd hp (by decide)
                simp [hne]
          have hsupported : List.Forall₂ (Matched fun _ x y => resolve definitions n x = .ok y)
              (fields.filter supported) (children.filter supported) := by
            rw [← hkept]
            refine List.rel_filter (fun p q hpq => ?_) hchildren
            simp only [supported, hpq.1]
          have hstep : ∀ p ∈ fields.filter supported, ∀ q,
              Matched (fun _ x y => resolve definitions n x = .ok y) p q →
              ∃ r, Matched (KeywordReduced (Reduces definitions n)) p r ∧
                ∀ᶠ depth in atTop,
                  Matched (fun key x y => cleanKeyword (googleJsonSchema depth) key x = .ok y)
                    q r := by
            rintro p hp q ⟨hkey, hq⟩
            obtain ⟨hmem, hkeep⟩ := List.mem_filter.mp hp
            obtain ⟨reduced, hreduces, hclean⟩ :=
              keyword_reduces hdicts ih hformed hmem hkeep hq
            refine ⟨(p.1, reduced), ⟨rfl, hreduces⟩, ?_⟩
            exact hclean.mono fun _ hdepth => ⟨hkey.symm, hkey ▸ hdepth⟩
          obtain ⟨fields', hreduces, hgoogle⟩ := exists_forall₂ hsupported hstep
          refine ⟨.obj fields', (reduces_node href).mpr ⟨fields', rfl, hreduces⟩, ?_⟩
          exact eventually_succ ((inline_resolved hdicts h).and hgoogle) fun _ hdepth =>
            googleJsonSchema_ok hdepth.1 hdepth.2

end Cleaning

end Investigation
