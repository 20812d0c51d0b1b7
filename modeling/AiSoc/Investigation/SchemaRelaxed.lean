import AiSoc.Investigation.SchemaCleaning

namespace Investigation

open PyJson JsonSchema Filter

section Result

variable {vocabulary : Vocabulary} {definitions : Obj} {n : Nat}

theorem supported_iff {p : String × Json} : supported p = true ↔ p.1 ∈ spelledOut := by
  rw [supported, List.contains_eq_mem, decide_eq_true_eq]
  rfl

theorem keys_of_reduced {fields fields' : Obj}
    (h : List.Forall₂ (Matched (KeywordReduced (Reduces definitions n))) (fields.filter supported)
      fields') {q : String × Json} (hq : q ∈ fields') : q.1 ∈ spelledOut := by
  obtain ⟨p, hp, hkey, _⟩ := mem_left_of_forall₂ h hq
  rw [hkey]
  exact supported_iff.mp (List.mem_filter.mp hp).2

theorem reduced_below {reduces : Json → Json → Prop} {key : String} {value value' : Json}
    (h : KeywordReduced reduces key value value') {child' : Json}
    (hchild : child' ∈ subschemas key value') :
    ∃ child ∈ subschemas key value, reduces child child' := by
  unfold KeywordReduced at h
  unfold subschemas at hchild ⊢
  split at h
  · rename_i hkey
    rw [if_pos hkey] at hchild ⊢
    obtain ⟨q, hq, rfl⟩ := List.mem_map.mp hchild
    obtain ⟨p, hp, _, hreduces⟩ := mem_left_of_forall₂ h hq
    exact ⟨p.2, List.mem_map_of_mem hp, hreduces⟩
  · rename_i hne
    rw [if_neg hne] at hchild ⊢
    split at h
    · rename_i hkey
      rw [if_pos hkey] at hchild ⊢
      obtain rfl := List.mem_singleton.mp hchild
      exact ⟨value, List.mem_singleton.mpr rfl, h⟩
    · rename_i hsingle
      rw [if_neg hsingle] at hchild ⊢
      split at h
      · rename_i hkey
        rw [if_pos hkey] at hchild ⊢
        exact mem_left_of_forall₂ h hchild
      · rename_i hchoice
        rw [if_neg hchoice] at hchild
        cases hchild

theorem reduced_child {fields fields' : Obj}
    (h : List.Forall₂ (Matched (KeywordReduced (Reduces definitions n))) (fields.filter supported)
      fields') {q : String × Json} (hq : q ∈ fields') {child' : Json}
    (hchild : child' ∈ subschemas q.1 q.2) :
    ∃ p ∈ fields, ∃ child ∈ subschemas p.1 p.2, Reduces definitions n child child' := by
  obtain ⟨p, hp, hkey, hreduced⟩ := mem_left_of_forall₂ h hq
  rw [hkey] at hchild
  obtain ⟨child, hmem, hreduces⟩ := reduced_below hreduced hchild
  exact ⟨p, (List.mem_filter.mp hp).1, child, hmem, hreduces⟩

theorem reduces_supported {schema reduced : Json} (h : Reduces definitions n schema reduced)
    {fields : Obj} (hposition : Position (.obj fields) reduced) {p : String × Json}
    (hp : p ∈ fields) : p.1 ∈ GOOGLE_SUPPORTED_SCHEMA_KEYS := by
  induction n generalizing schema reduced with
  | zero => cases h
  | succ n ih =>
      cases schema with
      | bool b =>
          cases h
          cases hposition
      | obj original =>
          cases href : localRef original with
          | some name =>
              obtain ⟨definition, _, hreduces⟩ := (reduces_ref href).mp h
              exact ih hreduces hposition
          | none =>
              obtain ⟨fields', rfl, hreduces⟩ := (reduces_node href).mp h
              cases hposition with
              | here => exact keys_of_reduced hreduces hp
              | inside hq hchild hinner =>
                  obtain ⟨_, _, _, _, hchild⟩ := reduced_child hreduces hq hchild
                  exact ih hchild hinner
      | _ => cases h

theorem reduces_settled {schema reduced : Json} (h : Reduces definitions n schema reduced) :
    Settled vocabulary [] reduced := by
  induction n generalizing schema reduced with
  | zero => cases h
  | succ n ih =>
      cases schema with
      | bool b =>
          cases h
          exact settled_bool
      | obj fields =>
          cases href : localRef fields with
          | some name =>
              obtain ⟨definition, _, hreduces⟩ := (reduces_ref href).mp h
              exact ih hreduces
          | none =>
              obtain ⟨fields', rfl, hreduces⟩ := (reduces_node href).mp h
              refine settled_obj (fun q hq => keys_of_reduced hreduces hq) fun q hq child hchild => ?_
              obtain ⟨_, _, _, _, hchild⟩ := reduced_child hreduces hq hchild
              exact ih hchild
      | _ => cases h

end Result

section Relaxed

variable {vocabulary : Vocabulary} {definitions : Obj} {n : Nat}

structure SelfContained (fields : Obj) : Prop where
  positional : ∀ value, ("items", value) ∈ fields → elements (fields.get "prefixItems") = []
  patterned : ∀ value, ("additionalProperties", value) ∈ fields →
    entries (fields.get "patternProperties") = []

def Contained (schema : Json) : Prop :=
  ∀ fields, Position (.obj fields) schema → SelfContained fields

def Exclusive (vocabulary : Vocabulary) (schema : Json) : Prop :=
  ∀ fields children, Position (.obj fields) schema → ("oneOf", .arr children) ∈ fields →
    children.Pairwise fun x y =>
      ∀ instance_, Valid vocabulary [] x instance_ → ¬ Valid vocabulary [] y instance_

theorem keyword_relaxed {accepts accepts' : Json → Json → Prop} {fields fields' : Obj}
    {key : String} {value value' instance_ : Json} (hkey : key ∈ spelledOut)
    (hmem : (key, value) ∈ fields) (hself : SelfContained fields)
    (hnames : (entries (fields'.get "properties")).map Prod.fst =
      (entries (fields.get "properties")).map Prod.fst)
    (hreduced : KeywordReduced
      (fun x y => ∀ instance_, accepts x instance_ → accepts' y instance_) key value value')
    (hexclusive : key = "oneOf" → (elements (some value')).Pairwise fun x y =>
      ∀ instance_, accepts' x instance_ → ¬ accepts' y instance_)
    (h : keyword vocabulary accepts definitions fields key value instance_) :
    keyword vocabulary accepts' [] fields' key value' instance_ := by
  simp only [spelledOut, List.mem_cons, List.not_mem_nil, or_false] at hkey
  rcases hkey with rfl | rfl | rfl | rfl | rfl | rfl | rfl | rfl
  · obtain rfl : value' = value := by simpa [KeywordReduced] using hreduced
    simpa [keyword] using h
  · obtain rfl : value' = value := by simpa [KeywordReduced] using hreduced
    simpa [keyword] using h
  · have hitems : ∀ item ∈ elements (some instance_), accepts value item := by
      simpa [keyword, hself.positional value hmem] using h
    have hvalue : ∀ item, accepts value item → accepts' value' item := by
      simpa [KeywordReduced] using hreduced
    have hdropped : ∀ item ∈ (elements (some instance_)).drop
        (elements (fields'.get "prefixItems")).length, accepts' value' item :=
      fun item hitem => hvalue item (hitems item (List.mem_of_mem_drop hitem))
    simpa [keyword] using hdropped
  · have hall : List.Forall₂ (fun x y => ∀ instance_, accepts x instance_ → accepts' y instance_)
        (elements (some value)) (elements (some value')) := by
      simpa [KeywordReduced] using hreduced
    obtain ⟨child, hchild, haccepts⟩ : ∃ child ∈ elements (some value),
        accepts child instance_ := by simpa [keyword] using h
    obtain ⟨child', hchild', himp⟩ := mem_left_of_forall₂ hall.flip hchild
    have hexists : ∃ child ∈ elements (some value'), accepts' child instance_ :=
      ⟨child', hchild', himp instance_ haccepts⟩
    simpa [keyword] using hexists
  · have hall : List.Forall₂ (fun x y => ∀ instance_, accepts x instance_ → accepts' y instance_)
        (elements (some value)) (elements (some value')) := by
      simpa [KeywordReduced] using hreduced
    have hone : ∃ i, ∃ h : i < (elements (some value)).length,
        accepts (elements (some value))[i] instance_ ∧
          ∀ j, ∀ h : j < (elements (some value)).length, j ≠ i →
            ¬ accepts (elements (some value))[j] instance_ := by simpa [keyword] using h
    obtain ⟨i, hi, haccepts, _⟩ := hone
    have hi' : i < (elements (some value')).length := hall.length_eq ▸ hi
    have haccepts' := hall.get hi hi' instance_ haccepts
    have hpairs := List.pairwise_iff_getElem.mp (hexclusive rfl)
    have hother : ∀ j, ∀ h : j < (elements (some value')).length, j ≠ i →
        ¬ accepts' (elements (some value'))[j] instance_ := by
      intro j hj hne hboth
      rcases Nat.lt_or_gt_of_ne hne with hlt | hlt
      · exact hpairs j i hj hi' hlt instance_ hboth haccepts'
      · exact hpairs i j hi' hj hlt instance_ haccepts' hboth
    have hexists : ∃ i, ∃ h : i < (elements (some value')).length,
        accepts' (elements (some value'))[i] instance_ ∧
          ∀ j, ∀ h : j < (elements (some value')).length, j ≠ i →
            ¬ accepts' (elements (some value'))[j] instance_ := ⟨i, hi', haccepts', hother⟩
    simpa [keyword] using hexists
  · have hall : List.Forall₂ (Matched fun _ x y => ∀ instance_, accepts x instance_ →
        accepts' y instance_) (entries (some value)) (entries (some value')) := by
      simpa [KeywordReduced] using hreduced
    have hproperties : ∀ p ∈ entries (some value), ∀ member ∈ members instance_,
        member.1 = p.1 → accepts p.2 member.2 := by simpa [keyword] using h
    have hproperties' : ∀ q ∈ entries (some value'), ∀ member ∈ members instance_,
        member.1 = q.1 → accepts' q.2 member.2 := by
      intro q hq member hmember hname
      obtain ⟨p, hp, hkey, himp⟩ := mem_left_of_forall₂ hall hq
      exact himp member.2 (hproperties p hp member hmember (hname.trans hkey))
    exact hproperties'
  · have hvalue : ∀ item, accepts value item → accepts' value' item := by
      simpa [KeywordReduced] using hreduced
    have hrest : ∀ member ∈ members instance_,
        member.1 ∉ (entries (fields.get "properties")).map Prod.fst → accepts value member.2 := by
      intro member hmember hnew
      have hall : ∀ member ∈ members instance_,
          member.1 ∉ (entries (fields.get "properties")).map Prod.fst →
          (∀ p ∈ entries (fields.get "patternProperties"),
            ¬ vocabulary.matching p.1 member.1) → accepts value member.2 := h
      refine hall member hmember hnew ?_
      rw [hself.patterned value hmem]
      exact fun p hp => absurd hp List.not_mem_nil
    have hrest' : ∀ member ∈ members instance_,
        member.1 ∉ (entries (fields'.get "properties")).map Prod.fst →
        (∀ p ∈ entries (fields'.get "patternProperties"),
          ¬ vocabulary.matching p.1 member.1) → accepts' value' member.2 := by
      intro member hmember hnew _
      rw [hnames] at hnew
      exact hvalue member.2 (hrest member hmember hnew)
    exact hrest'
  · obtain rfl : value' = value := by simpa [KeywordReduced] using hreduced
    simpa [keyword] using h

theorem names_of_reduced {fields fields' : Obj}
    (h : List.Forall₂ (Matched (KeywordReduced (Reduces definitions n))) (fields.filter supported)
      fields') : (entries (fields'.get "properties")).map Prod.fst =
      (entries (fields.get "properties")).map Prod.fst := by
  have hget := get_of_matched h "properties"
  rw [get_filter fun _ => rfl] at hget
  rcases hget with ⟨hnone, hnone'⟩ | ⟨value, value', hvalue, hvalue', hreduced⟩
  · rw [hnone, hnone']
  · rw [hvalue, hvalue']
    have hmatched : List.Forall₂ (Matched fun _ => Reduces definitions n) (entries (some value))
        (entries (some value')) := by simpa [KeywordReduced] using hreduced
    exact keys_of_matched hmatched

theorem contained_child {fields : Obj} (h : Contained (.obj fields)) {p : String × Json}
    (hp : p ∈ fields) {child : Json} (hchild : child ∈ subschemas p.1 p.2) : Contained child :=
  fun inner hinner => h inner (.inside hp hchild hinner)

theorem exclusive_child {fields : Obj} (h : Exclusive vocabulary (.obj fields))
    {p : String × Json} (hp : p ∈ fields) {child : Json} (hchild : child ∈ subschemas p.1 p.2) :
    Exclusive vocabulary child :=
  fun inner children hinner => h inner children (.inside hp hchild hinner)

theorem KeywordReduced.imp {reduces reduces' : Json → Json → Prop} {key : String}
    {value value' : Json} (h : KeywordReduced reduces key value value')
    (himp : ∀ child ∈ subschemas key value, ∀ child' ∈ subschemas key value',
      reduces child child' → reduces' child child') :
    KeywordReduced reduces' key value value' := by
  unfold KeywordReduced at h ⊢
  unfold subschemas at himp
  split at h
  · rename_i hkey
    rw [if_pos hkey] at himp ⊢
    rw [if_pos hkey] at himp
    refine (forall₂_mem h).imp ?_
    rintro p q ⟨hp, hq, hname, hreduces⟩
    exact ⟨hname, himp _ (List.mem_map_of_mem hp) _ (List.mem_map_of_mem hq) hreduces⟩
  · rename_i hne
    rw [if_neg hne] at himp ⊢
    rw [if_neg hne] at himp
    split at h
    · rename_i hkey
      rw [if_pos hkey] at himp ⊢
      rw [if_pos hkey] at himp
      exact himp _ (List.mem_singleton.mpr rfl) _ (List.mem_singleton.mpr rfl) h
    · rename_i hsingle
      rw [if_neg hsingle] at himp ⊢
      rw [if_neg hsingle] at himp
      split at h
      · rename_i hkey
        rw [if_pos hkey] at himp ⊢
        rw [if_pos hkey] at himp
        refine (forall₂_mem h).imp ?_
        rintro x y ⟨hx, hy, hreduces⟩
        exact himp x hx y hy hreduces
      · rename_i hchoice
        rw [if_neg hchoice]
        exact h

def Relaxes (vocabulary : Vocabulary) (definitions : Obj) (depth : Nat) (schema reduced : Json) :
    Prop :=
  ∀ instance_, validWithin vocabulary definitions depth schema instance_ →
    Valid vocabulary [] reduced instance_

theorem node_relaxes {depth : Nat} {fields fields' : Obj} (hself : SelfContained fields)
    (hreduces : List.Forall₂ (Matched (KeywordReduced (Reduces definitions n)))
      (fields.filter supported) fields')
    (hexclusive : Exclusive vocabulary (.obj fields'))
    (hchildren : ∀ p ∈ fields, ∀ q ∈ fields', ∀ child ∈ subschemas p.1 p.2,
      ∀ child' ∈ subschemas p.1 q.2, p.1 = q.1 → Reduces definitions n child child' →
        Relaxes vocabulary definitions depth child child') :
    Relaxes vocabulary definitions (depth + 1) (.obj fields) (.obj fields') := by
  intro instance_ hvalid
  have hsettled : ∀ q ∈ fields', ∀ child ∈ subschemas q.1 q.2, Settled vocabulary [] child := by
    intro q hq child hchild
    obtain ⟨_, _, _, _, hreduced⟩ := reduced_child hreduces hq hchild
    exact reduces_settled hreduced
  refine (valid_obj (fun q hq => keys_of_reduced hreduces hq) hsettled instance_).mpr ?_
  intro q hq
  obtain ⟨p, hp, hkey, hreduced⟩ := mem_left_of_forall₂ hreduces hq
  obtain ⟨hmem, hsupported⟩ := List.mem_filter.mp hp
  have hrelaxed := hreduced.imp fun child hchild child' hchild' hchildReduces =>
    hchildren p hmem q hq child hchild child' hchild' hkey.symm hchildReduces
  rw [hkey]
  refine keyword_relaxed (supported_iff.mp hsupported) hmem hself (names_of_reduced hreduces)
    hrelaxed (fun hone => ?_) (hvalid p hmem)
  obtain ⟨key, value⟩ := q
  cases value with
  | arr children =>
      have hname : key = "oneOf" := hkey.trans hone
      exact hexclusive fields' children .here (hname ▸ hq)
  | _ => exact .nil

theorem reduces_relaxes (hdefinitions : ∀ p ∈ definitions, Contained p.2) {schema reduced : Json}
    (hcontained : Contained schema) (h : Reduces definitions n schema reduced)
    (hexclusive : Exclusive vocabulary reduced) :
    ∀ᶠ depth in atTop, Relaxes vocabulary definitions depth schema reduced := by
  induction n generalizing schema reduced with
  | zero => cases h
  | succ n ih =>
      cases schema with
      | bool b =>
          cases h
          refine Eventually.of_forall fun depth instance_ hvalid => ?_
          exact Eventually.of_forall fun _ => validWithin_bool.mpr (validWithin_bool.mp hvalid)
      | obj fields =>
          cases href : localRef fields with
          | some name =>
              obtain ⟨definition, hget, hreduces⟩ := (reduces_ref href).mp h
              have hdefinition := ih (hdefinitions _ (mem_of_get hget)) hreduces hexclusive
              refine eventually_succ hdefinition fun depth hdepth instance_ hvalid => ?_
              exact hdepth instance_ (validWithin_ref href hget hvalid)
          | none =>
              obtain ⟨fields', rfl, hreduces⟩ := (reduces_node href).mp h
              have hchildren : ∀ᶠ depth in atTop, ∀ p ∈ fields, ∀ q ∈ fields',
                  ∀ child ∈ subschemas p.1 p.2, ∀ child' ∈ subschemas p.1 q.2, p.1 = q.1 →
                  Reduces definitions n child child' →
                    Relaxes vocabulary definitions depth child child' := by
                refine eventually_forall_mem fun p hp => eventually_forall_mem fun q hq => ?_
                refine eventually_forall_mem fun child hchild =>
                  eventually_forall_mem fun child' hchild' => ?_
                refine eventually_imp_distrib_left.mpr fun hkey =>
                  eventually_imp_distrib_left.mpr fun hchildReduces => ?_
                rw [hkey] at hchild'
                exact ih (contained_child hcontained hp hchild) hchildReduces
                  (exclusive_child hexclusive hq hchild')
              exact eventually_succ hchildren fun depth hdepth =>
                node_relaxes (hcontained fields .here) hreduces hexclusive hdepth
      | _ => cases h

end Relaxed

section Reduction

def definitionsOf (schema : Obj) : Obj :=
  entries (schema.get "$defs")

theorem googleJsonSchema_congr {depth : Nat} {schema schema' : Obj}
    (h : inlineSchemaRefs depth schema = inlineSchemaRefs depth schema') :
    googleJsonSchema (depth + 1) (.obj schema) = googleJsonSchema (depth + 1) (.obj schema') := by
  simp only [googleJsonSchema, h]

theorem googleJsonSchema_dict {depth : Nat} {schema reduced : Json}
    (h : googleJsonSchema depth schema = .ok reduced) : ∃ fields, reduced = .obj fields := by
  cases depth with
  | zero => cases h
  | succ depth =>
      cases schema with
      | obj fields =>
          rw [googleJsonSchema] at h
          obtain ⟨inlined, _, h⟩ := Except.bind_ok_iff.mp h
          cases inlined with
          | obj children =>
              obtain ⟨cleaned, _, hcleaned⟩ := Except.bind_ok_iff.mp h
              exact ⟨cleaned, (Except.pure_ok_iff.mp hcleaned).symm⟩
          | _ => cases h
      | _ => cases h

theorem google_reduces {schema : Obj} (hformed : Formed (.obj schema))
    (hdefinitions : ∀ p ∈ definitionsOf schema, isDict p.2 = true ∧ Formed p.2)
    (hknown : ∀ name, Refers name (.obj schema) → ((definitionsOf schema).get name).isSome)
    (hacyclic : Acyclic (definitionsOf schema)) :
    ∃ reduced : Obj, (∃ n, Reduces (definitionsOf schema) n (.obj schema) (.obj reduced)) ∧
      ∀ᶠ depth in atTop, googleJsonSchema depth (.obj schema) = .ok (.obj reduced) := by
  have hdicts : ∀ p ∈ definitionsOf schema, isDict p.2 = true :=
    fun p hp => (hdefinitions p hp).1
  have hinside : ∀ p ∈ definitionsOf schema, ∀ name, Refers name p.2 →
      Refers name (.obj schema) := by
    intro p hp name hname
    unfold definitionsOf at hp
    cases hdefs : schema.get "$defs" with
    | none =>
        rw [hdefs] at hp
        cases hp
    | some value =>
        rw [hdefs] at hp
        cases value with
        | obj definitions => exact .field (mem_of_get hdefs) (.field hp hname)
        | _ => cases hp
  have hresolves : Resolves (definitionsOf schema) (.obj schema) := by
    refine resolves_of_refs fun name hname => ?_
    obtain ⟨definition, hget⟩ := Option.isSome_iff_exists.mp (hknown name hname)
    refine ⟨definition, hget, definitions_resolve hacyclic ?_ hget⟩
    exact fun p hp name hname => hknown name (hinside p hp name hname)
  obtain ⟨n, out, hout⟩ := hresolves.exists
  obtain ⟨children, rfl, _⟩ := resolve_dict hdicts hout
  obtain ⟨reduced, hreduces, hgoogle⟩ := dicts_reduce hdefinitions n schema _ hformed hout
  have hsame : ∀ᶠ depth in atTop,
      googleJsonSchema depth (.obj schema) = googleJsonSchema depth (.obj children) := by
    refine eventually_succ ((inline_resolved hdicts hout).and (eventually_ge_atTop n)) ?_
    rintro depth ⟨hinline, hdepth⟩
    exact googleJsonSchema_congr ((resolve_mono hout hdepth).trans hinline.symm)
  have hreturned := hsame.and hgoogle
  obtain ⟨_, _, hfirst⟩ := hreturned.exists
  obtain ⟨fields, rfl⟩ := googleJsonSchema_dict hfirst
  exact ⟨fields, ⟨n, hreduces⟩, hreturned.mono fun _ hdepth => hdepth.1.trans hdepth.2⟩

theorem reduction_only_relaxes (vocabulary : Vocabulary) (schema : Obj)
    (hformed : Formed (.obj schema))
    (hdefinitions : ∀ p ∈ definitionsOf schema, isDict p.2 = true ∧ Formed p.2)
    (hknown : ∀ name, Refers name (.obj schema) → ((definitionsOf schema).get name).isSome)
    (hacyclic : Acyclic (definitionsOf schema)) :
    ∃ reduced : Obj,
      (∀ᶠ depth in atTop, googleJsonSchema depth (.obj schema) = .ok (.obj reduced)) ∧
      (∃ n, Reduces (definitionsOf schema) n (.obj schema) (.obj reduced)) ∧
      (∀ fields, Position (.obj fields) (.obj reduced) →
        ∀ p ∈ fields, p.1 ∈ GOOGLE_SUPPORTED_SCHEMA_KEYS) ∧
      (Contained (.obj schema) → (∀ p ∈ definitionsOf schema, Contained p.2) →
        Exclusive vocabulary (.obj reduced) →
        ∀ instance_, Valid vocabulary (definitionsOf schema) (.obj schema) instance_ →
          Valid vocabulary [] (.obj reduced) instance_) := by
  obtain ⟨reduced, ⟨n, hreduces⟩, hreturned⟩ :=
    google_reduces hformed hdefinitions hknown hacyclic
  refine ⟨reduced, hreturned, ⟨n, hreduces⟩, ?_, ?_⟩
  · intro fields hposition p hp
    exact reduces_supported hreduces hposition hp
  · intro hcontained hcontainedDefinitions hexclusive instance_ hvalid
    have hrelaxes := reduces_relaxes hcontainedDefinitions hcontained hreduces hexclusive
    obtain ⟨depth, hvalidDepth, hdepth⟩ := (hvalid.and hrelaxes).exists
    exact hdepth instance_ hvalidDepth

end Reduction

section Restricting

def literal : Vocabulary where
  same := Eq
  matching pattern name := pattern.toList <:+: name.toList
  meaning _ key value instance_ := key = "const" → instance_ = value

def texts : Json :=
  .obj [("type", .str "string")]

def numbers : Json :=
  .obj [("type", .str "integer")]

def kindIs (kind : String) : Json :=
  .obj [("const", .str kind), ("type", .str "string")]

def petOf (kind : Json) : Json :=
  .obj [("type", .str "object"), ("properties", .obj [("kind", kind)]),
    ("required", .arr [.str "kind"])]

def pets : Obj :=
  [("oneOf", .arr [petOf (kindIs "cat"), petOf (kindIs "dog")])]

def cat : Json :=
  .obj [("kind", .str "cat")]

def numbered : Obj :=
  [("prefixItems", .arr [texts]), ("items", numbers)]

def row : Json :=
  .arr [.str "total", .int 1]

def labelled : Obj :=
  [("patternProperties", .obj [("x-", texts)]), ("additionalProperties", .bool false)]

def label : Json :=
  .obj [("x-owner", .str "soc")]

def nested : Obj :=
  [("properties", .obj [("$defs", texts)])]

def listed : Obj :=
  [("enum", .arr [.obj [("$ref", .str "#/$defs/Pet")]])]

theorem cat_meets {depth : Nat} {kind : Json} :
    validWithin literal [] (depth + 1) (petOf kind) cat ↔
      validWithin literal [] depth kind (.str "cat") := by
  simp [petOf, cat, validWithin_obj, typed, hasType, keyword, entries, elements, members]

theorem kind_meets {depth : Nat} {kind : String} :
    validWithin literal [] (depth + 1) (kindIs kind) (.str "cat") ↔ kind = "cat" := by
  simp [kindIs, validWithin_obj, typed, hasType, keyword, literal, eq_comm]

theorem cat_valid : Valid literal [] (.obj pets) cat := by
  refine @valid_of _ _ 3 _ _ fun depth => ?_
  rw [validWithin_obj, pets, List.forall_mem_singleton, keyword_oneOf_pair, cat_meets, cat_meets,
    kind_meets, kind_meets]
  simp

theorem cat_rejected : ¬ Valid literal [] (.obj [("oneOf", .arr [petOf texts, petOf texts])])
    cat := by
  refine @not_valid_of _ _ 1 _ _ fun depth h => ?_
  rw [validWithin_obj, List.forall_mem_singleton, keyword_oneOf_pair] at h
  rcases h with ⟨haccepts, hother⟩ | ⟨haccepts, hother⟩
  · exact hother haccepts
  · exact hother haccepts

theorem row_valid : Valid literal [] (.obj numbered) row := by
  refine @valid_of _ _ 2 _ _ fun depth => ?_
  simp [validWithin_obj, keyword, numbered, row, numbers, typed, hasType, elements, Obj.get_cons,
    literal]

theorem row_rejected : ¬ Valid literal [] (.obj [("items", numbers)]) row := by
  refine @not_valid_of _ _ 2 _ _ fun depth h => ?_
  have htype := h _ (List.mem_singleton.mpr rfl) (.str "total") List.mem_cons_self _
    (List.mem_singleton.mpr rfl)
  exact htype

theorem label_valid : Valid literal [] (.obj labelled) label := by
  refine @valid_of _ _ 1 _ _ fun depth => ?_
  have hmatching : literal.matching "x-" "x-owner" := by
    change "x-".toList <:+: "x-owner".toList
    decide
  refine List.forall_mem_cons.mpr ⟨by simp [keyword, literal], List.forall_mem_singleton.mpr ?_⟩
  intro member hmember _ hunmatched
  obtain rfl := List.mem_singleton.mp hmember
  exact absurd hmatching (hunmatched ("x-", texts) List.mem_cons_self)

theorem label_rejected :
    ¬ Valid literal [] (.obj [("additionalProperties", .bool false)]) label := by
  refine @not_valid_of _ _ 2 _ _ fun depth h => ?_
  have hflag : false = true := h _ (List.mem_singleton.mpr rfl) ("x-owner", .str "soc")
    List.mem_cons_self nofun nofun
  cases hflag

theorem reduction_can_restrict :
    (googleJsonSchema 10 (.obj pets) = .ok (.obj [("oneOf", .arr [petOf texts, petOf texts])]) ∧
      Valid literal [] (.obj pets) cat ∧
      ¬ Valid literal [] (.obj [("oneOf", .arr [petOf texts, petOf texts])]) cat) ∧
    (googleJsonSchema 10 (.obj numbered) = .ok (.obj [("items", numbers)]) ∧
      Valid literal [] (.obj numbered) row ∧
      ¬ Valid literal [] (.obj [("items", numbers)]) row) ∧
    (googleJsonSchema 10 (.obj labelled) = .ok (.obj [("additionalProperties", .bool false)]) ∧
      Valid literal [] (.obj labelled) label ∧
      ¬ Valid literal [] (.obj [("additionalProperties", .bool false)]) label) ∧
    googleJsonSchema 10 (.obj nested) = .ok (.obj [("properties", .obj [])]) ∧
    googleJsonSchema 10 (.obj listed) =
      .error "Unknown local JSON Schema reference: #/$defs/Pet" :=
  ⟨⟨rfl, cat_valid, cat_rejected⟩, ⟨rfl, row_valid, row_rejected⟩,
    ⟨rfl, label_valid, label_rejected⟩, rfl, rfl⟩

def named : Json :=
  .obj [("$ref", .str "#/$defs/Tag")]

def tagDefinition : Obj :=
  [("type", .str "string"), ("minLength", .int 1)]

def tags : Obj :=
  [("$defs", .obj [("Tag", .obj tagDefinition)]), ("type", .str "array"), ("items", named)]

theorem not_refers_tag {name : String} : ¬ Refers name (.obj tagDefinition) := by
  intro h
  rcases refers_obj.mp h with href | ⟨p, hp, hp'⟩
  · cases href
  · rcases List.mem_pair.mp hp with rfl | rfl
    · cases hp'
    · cases hp'

theorem refers_named {name : String} (h : Refers name named) : name = "Tag" := by
  rcases refers_obj.mp h with href | ⟨p, hp, hp'⟩
  · exact (Option.some.inj (href.symm.trans rfl)).trans rfl
  · obtain rfl := List.mem_singleton.mp hp
    cases hp'

theorem plain_str {s : String} : Plain (.str s) :=
  .leaf trivial

theorem named_formed : Formed named :=
  forall_position_obj
    { properties := by simp, single := by simp, choices := by simp, data := by simp }
    (by simp [subschemas])

theorem tagDefinition_formed : Formed (.obj tagDefinition) :=
  forall_position_obj
    { properties := by simp [tagDefinition]
      single := by simp [tagDefinition]
      choices := by simp [tagDefinition]
      data := by simp [tagDefinition, plain_str] }
    (by simp [tagDefinition, subschemas])

theorem tags_formed : Formed (.obj tags) :=
  forall_position_obj
    { properties := by simp [tags]
      single := by simp [tags, named, schemaLike]
      choices := by simp [tags]
      data := by simp [tags, plain_str] }
    (by simpa [tags, subschemas, Formed] using named_formed)

theorem definitions_formed :
    ∀ p ∈ definitionsOf tags, isDict p.2 = true ∧ Formed p.2 := by
  intro p hp
  obtain rfl := List.mem_singleton.mp hp
  exact ⟨rfl, tagDefinition_formed⟩

theorem tags_known (name : String) (h : Refers name (.obj tags)) :
    ((definitionsOf tags).get name).isSome := by
  have hname : name = "Tag" := by
    rcases refers_obj.mp h with href | ⟨p, hp, hp'⟩
    · cases href
    · simp only [tags, List.mem_cons, List.not_mem_nil, or_false] at hp
      rcases hp with rfl | rfl | rfl
      · rcases refers_obj.mp hp' with href | ⟨q, hq, hq'⟩
        · cases href
        · obtain rfl := List.mem_singleton.mp hq
          exact absurd hq' not_refers_tag
      · cases hp'
      · exact refers_named hp'
  rw [hname]
  rfl

theorem tags_acyclic : Acyclic (definitionsOf tags) := by
  have hnone : ∀ name referring, ¬ RefersTo (definitionsOf tags) name referring := by
    rintro name referring ⟨definition, hget, hrefers⟩
    have hmem := List.mem_singleton.mp (mem_of_get hget)
    cases hmem
    exact not_refers_tag hrefers
  intro name h
  cases h with
  | single h => exact hnone _ _ h
  | tail _ h => exact hnone _ _ h

theorem tags_contained : Contained (.obj tags) :=
  forall_position_obj
    { positional := fun _ _ => rfl, patterned := by simp [tags] }
    (by
      have hnamed : Contained named :=
        forall_position_obj { positional := by simp, patterned := by simp } (by simp [subschemas])
      simpa [tags, subschemas, Contained] using hnamed)

theorem tagDefinition_contained : Contained (.obj tagDefinition) :=
  forall_position_obj
    { positional := by simp [tagDefinition], patterned := by simp [tagDefinition] }
    (by simp [tagDefinition, subschemas])

def tagTexts : Obj :=
  [("type", .str "array"), ("items", texts)]

theorem tagTexts_exclusive : Exclusive literal (.obj tagTexts) := by
  have htexts : ∀ inner, Position (.obj inner) texts → ∀ children,
      ("oneOf", .arr children) ∉ inner :=
    forall_position_obj (by simp) (by simp [subschemas])
  have hall : ∀ inner, Position (.obj inner) (.obj tagTexts) → ∀ children,
      ("oneOf", .arr children) ∉ inner :=
    forall_position_obj (by simp [tagTexts]) (by simpa [tagTexts, subschemas] using htexts)
  exact fun fields children hposition hmem => absurd hmem (hall fields hposition children)

theorem tags_valid : Valid literal (definitionsOf tags) (.obj tags) (.arr [.str "dns"]) := by
  refine @valid_of _ _ 3 _ _ fun depth => ?_
  have htag : validWithin literal (definitionsOf tags) (depth + 1) (.obj tagDefinition)
      (.str "dns") := by
    simp [tagDefinition, validWithin_obj, keyword, typed, hasType, literal]
  have hnamed : validWithin literal (definitionsOf tags) (depth + 2) named (.str "dns") := by
    refine List.forall_mem_singleton.mpr ?_
    exact ⟨.obj tagDefinition, rfl, htag⟩
  refine List.forall_mem_cons.mpr ⟨trivial, List.forall_mem_cons.mpr ⟨trivial, ?_⟩⟩
  refine List.forall_mem_singleton.mpr fun item hitem => ?_
  obtain rfl := List.mem_singleton.mp hitem
  exact hnamed

theorem tags_relaxed : ∃ reduced : Obj,
    (∀ᶠ depth in atTop, googleJsonSchema depth (.obj tags) = .ok (.obj reduced)) ∧
      Valid literal [] (.obj reduced) (.arr [.str "dns"]) := by
  obtain ⟨reduced, hreturned, _, _, hrelaxes⟩ := reduction_only_relaxes literal tags tags_formed
    definitions_formed tags_known tags_acyclic
  obtain ⟨depth, hdepth, hle⟩ := (hreturned.and (eventually_ge_atTop 5)).exists
  obtain ⟨depth, rfl⟩ := Nat.exists_eq_add_of_le' hle
  have hreduced : googleJsonSchema (depth + 5) (.obj tags) = .ok (.obj tagTexts) := rfl
  obtain rfl := Json.obj.inj (Except.ok.inj (hreduced.symm.trans hdepth))
  refine ⟨tagTexts, hreturned, hrelaxes tags_contained ?_ tagTexts_exclusive _ tags_valid⟩
  intro p hp
  obtain rfl := List.mem_singleton.mp hp
  exact tagDefinition_contained

end Restricting

end Investigation
