import AiSoc.Library.Except
import AiSoc.Library.JsonCode
import AiSoc.Library.JsonSchema
import Mathlib.Order.WellFoundedSet

namespace Investigation

open PyJson JsonSchema Filter

section Provider

def GOOGLE_SUPPORTED_SCHEMA_KEYS : List String :=
  ["type", "enum", "items", "anyOf", "oneOf", "properties", "additionalProperties", "required"]

def supported (p : String × Json) : Bool :=
  GOOGLE_SUPPORTED_SCHEMA_KEYS.contains p.1

-- the number is how deep Python may still recurse
def resolve (definitions : Obj) : Nat → Json → Except String Json
  | 0, _ => .error "RecursionError"
  | depth + 1, .arr items => do
      return .arr (← items.mapM (resolve definitions depth))
  | depth + 1, .obj fields =>
      match localRef fields with
      | some name =>
          match definitions.get name with
          | none => .error ("Unknown local JSON Schema reference: #/$defs/" ++ name)
          | some definition => resolve definitions depth definition
      | none => do
          let children ← (fields.filter fun p => p.1 ≠ "$defs").mapM fun p => do
            return (p.1, ← resolve definitions depth p.2)
          return .obj children
  | _ + 1, value => .ok value

def inlineSchemaRefs (depth : Nat) (schema : Obj) : Except String Json :=
  resolve (entries (schema.get "$defs")) depth (.obj schema)

def isDict : Json → Bool
  | .obj _ => true
  | _ => false

-- the value that a supported key keeps
def cleanKeyword (clean : Json → Except String Json) (key : String) (value : Json) :
    Except String Json :=
  if key = "properties" ∨ key = "$defs" then
    match value with
    | .obj children => do
        let cleaned ← children.mapM fun p => do return (p.1, ← clean p.2)
        return .obj cleaned
    | _ => .error "AttributeError"
  else if key = "items" ∧ isDict value then clean value
  else if key = "prefixItems" ∨ key = "anyOf" ∨ key = "oneOf" then
    match value with
    | .arr children => do
        let cleaned ← children.mapM fun child => if isDict child then clean child else .ok child
        return .arr cleaned
    | _ => .error "TypeError"
  else if key = "additionalProperties" ∧ isDict value then clean value
  else .ok value

def googleJsonSchema : Nat → Json → Except String Json
  | 0, _ => .error "RecursionError"
  | depth + 1, .obj schema => do
      match ← inlineSchemaRefs depth schema with
      | .obj fields =>
          let cleaned ← (fields.filter supported).mapM fun p => do
            return (p.1, ← cleanKeyword (googleJsonSchema depth) p.1 p.2)
          return .obj cleaned
      | _ => .error "AttributeError"
  | _ + 1, _ => .error "AttributeError"

end Provider

section Resolving

variable {definitions : Obj} {depth : Nat}

theorem entry_ok_iff {f : String → Json → Except String Json} {p q : String × Json} :
    (do return (p.1, ← f p.1 p.2) : Except String (String × Json)) = .ok q ↔
      Matched (fun key x y => f key x = .ok y) p q := by
  rw [Except.bind_ok_iff]
  constructor
  · rintro ⟨value, hvalue, hq⟩
    obtain rfl := Except.pure_ok_iff.mp hq
    exact ⟨rfl, hvalue⟩
  · rintro ⟨hkey, hvalue⟩
    exact ⟨q.2, hvalue, Except.pure_ok_iff.mpr (Prod.ext hkey.symm rfl)⟩

theorem entries_ok_iff {f : String → Json → Except String Json} {fields fields' : Obj} :
    fields.mapM (fun p => do return (p.1, ← f p.1 p.2)) = .ok fields' ↔
      List.Forall₂ (Matched fun key x y => f key x = .ok y) fields fields' := by
  rw [Except.mapM_ok_iff]
  simp only [entry_ok_iff]

theorem resolve_arr {items : List Json} {out : Json} :
    resolve definitions (depth + 1) (.arr items) = .ok out ↔
      ∃ items', List.Forall₂ (fun x y => resolve definitions depth x = .ok y) items items' ∧
        .arr items' = out := by
  have hstep : resolve definitions (depth + 1) (.arr items) =
      (do return .arr (← items.mapM (resolve definitions depth))) := rfl
  rw [hstep, Except.bind_ok_iff]
  simp only [Except.mapM_ok_iff, Except.pure_ok_iff]

theorem resolve_obj {fields : Obj} :
    resolve definitions (depth + 1) (.obj fields) =
      match localRef fields with
      | some name =>
          match definitions.get name with
          | none => .error ("Unknown local JSON Schema reference: #/$defs/" ++ name)
          | some definition => resolve definitions depth definition
      | none => do
          let children ← (fields.filter fun p => p.1 ≠ "$defs").mapM fun p => do
            return (p.1, ← resolve definitions depth p.2)
          return .obj children :=
  rfl

theorem resolve_ref {fields : Obj} {name : String} {out : Json}
    (href : localRef fields = some name) :
    resolve definitions (depth + 1) (.obj fields) = .ok out ↔
      ∃ definition, definitions.get name = some definition ∧
        resolve definitions depth definition = .ok out := by
  rw [resolve_obj, href]
  dsimp only
  cases definitions.get name with
  | none => simp
  | some definition => simp

def withoutDefinitions (fields : Obj) : Obj :=
  fields.filter fun p => p.1 ≠ "$defs"

theorem resolve_node {fields : Obj} {out : Json} (href : localRef fields = none) :
    resolve definitions (depth + 1) (.obj fields) = .ok out ↔
      ∃ children, List.Forall₂ (Matched fun _ x y => resolve definitions depth x = .ok y)
          (withoutDefinitions fields) children ∧ .obj children = out := by
  have hstep : resolve definitions (depth + 1) (.obj fields) = (do
      let children ← (withoutDefinitions fields).mapM fun p => do
        return (p.1, ← resolve definitions depth p.2)
      return .obj children) := by
    rw [resolve_obj, href]
    rfl
  rw [hstep]
  simp only [Except.bind_ok_iff, Except.pure_ok_iff]
  rw [exists_congr fun children => and_congr_left fun _ =>
    entries_ok_iff (f := fun _ => resolve definitions depth)]

def Leaf : Json → Prop
  | .arr _ => False
  | .obj _ => False
  | _ => True

theorem resolve_leaf {value : Json} (h : Leaf value) :
    resolve definitions (depth + 1) value = .ok value := by
  cases value with
  | arr items => cases h
  | obj fields => cases h
  | _ => rfl

theorem resolve_succ {value out : Json} (h : resolve definitions depth value = .ok out) :
    resolve definitions (depth + 1) value = .ok out := by
  induction depth generalizing value out with
  | zero => cases h
  | succ depth ih =>
      cases value with
      | arr items =>
          obtain ⟨items', hitems, rfl⟩ := resolve_arr.mp h
          exact resolve_arr.mpr ⟨items', hitems.imp fun _ _ => ih, rfl⟩
      | obj fields =>
          cases href : localRef fields with
          | some name =>
              obtain ⟨definition, hget, hout⟩ := (resolve_ref href).mp h
              exact (resolve_ref href).mpr ⟨definition, hget, ih hout⟩
          | none =>
              obtain ⟨children, hchildren, rfl⟩ := (resolve_node href).mp h
              exact (resolve_node href).mpr
                ⟨children, hchildren.imp fun _ _ hp => ⟨hp.1, ih hp.2⟩, rfl⟩
      | _ =>
          cases h
          rfl

theorem resolve_mono {value out : Json} {depth' : Nat}
    (h : resolve definitions depth value = .ok out) (hle : depth ≤ depth') :
    resolve definitions depth' value = .ok out := by
  induction hle with
  | refl => exact h
  | step _ ih => exact resolve_succ ih

theorem isDict_iff {value : Json} : isDict value = true ↔ ∃ fields, value = .obj fields := by
  cases value with
  | obj fields => exact iff_of_true rfl ⟨fields, rfl⟩
  | _ => exact iff_of_false Bool.false_ne_true (by simp)

theorem resolve_dict (hdefinitions : ∀ p ∈ definitions, isDict p.2 = true) {fields : Obj}
    {out : Json} (h : resolve definitions depth (.obj fields) = .ok out) :
    ∃ children : Obj, out = .obj children ∧ children.get "$defs" = none := by
  induction depth generalizing fields with
  | zero => cases h
  | succ depth ih =>
      cases href : localRef fields with
      | some name =>
          obtain ⟨definition, hget, hout⟩ := (resolve_ref href).mp h
          obtain ⟨inner, rfl⟩ := isDict_iff.mp (hdefinitions _ (mem_of_get hget))
          exact ih hout
      | none =>
          obtain ⟨children, hchildren, rfl⟩ := (resolve_node href).mp h
          refine ⟨children, rfl, ?_⟩
          rcases get_of_matched hchildren "$defs" with ⟨_, hnone⟩ | ⟨value, _, hvalue, _⟩
          · exact hnone
          · have hmem := List.mem_filter.mp (mem_of_get hvalue)
            simp at hmem

theorem resolve_str (hdefinitions : ∀ p ∈ definitions, isDict p.2 = true) {value : Json}
    {s : String} (h : resolve definitions depth value = .ok (.str s)) : value = .str s := by
  cases depth with
  | zero => cases h
  | succ depth =>
      cases value with
      | arr items =>
          obtain ⟨_, _, heq⟩ := resolve_arr.mp h
          cases heq
      | obj fields =>
          obtain ⟨_, heq, _⟩ := resolve_dict hdefinitions h
          cases heq
      | str _ =>
          cases h
          rfl
      | _ => cases h

theorem localRef_none_of {fields fields' : Obj} (h : localRef fields = none)
    (hget : ∀ ref, fields'.get "$ref" = some (.str ref) → fields.get "$ref" = some (.str ref)) :
    localRef fields' = none := by
  cases href : fields'.get "$ref" with
  | none => rw [localRef, href]
  | some value =>
      cases value with
      | str ref =>
          rw [localRef, hget ref href] at h
          rw [localRef, href]
          exact h
      | _ => simp only [localRef, href]

theorem resolve_resolved (hdefinitions : ∀ p ∈ definitions, isDict p.2 = true) {value out : Json}
    (h : resolve definitions depth value = .ok out) : resolve [] depth out = .ok out := by
  induction depth generalizing value out with
  | zero => cases h
  | succ depth ih =>
      cases value with
      | arr items =>
          obtain ⟨items', hitems, rfl⟩ := resolve_arr.mp h
          refine resolve_arr.mpr ⟨items', List.forall₂_same.mpr fun item hitem => ?_, rfl⟩
          obtain ⟨_, _, hresolve⟩ := mem_left_of_forall₂ hitems hitem
          exact ih hresolve
      | obj fields =>
          cases href : localRef fields with
          | some name =>
              obtain ⟨definition, hget, hout⟩ := (resolve_ref href).mp h
              exact resolve_succ (ih hout)
          | none =>
              obtain ⟨children, hchildren, rfl⟩ := (resolve_node href).mp h
              have href : localRef children = none := by
                refine localRef_none_of href fun ref hget => ?_
                rcases get_of_matched hchildren "$ref" with ⟨_, hnone⟩ | ⟨_, _, hx, hy, hresolve⟩
                · rw [hnone] at hget
                  cases hget
                · obtain rfl := Option.some.inj (hy.symm.trans hget)
                  obtain rfl := resolve_str hdefinitions hresolve
                  rwa [withoutDefinitions, get_filter (fun _ => rfl)] at hx
              have hkept : withoutDefinitions children = children := by
                refine List.filter_eq_self.mpr fun q hq => ?_
                obtain ⟨p, hp, hkey, _⟩ := mem_left_of_forall₂ hchildren hq
                rw [hkey]
                exact (List.mem_filter.mp hp).2
              refine (resolve_node href).mpr ⟨children, ?_, rfl⟩
              rw [hkept]
              refine List.forall₂_same.mpr fun q hq => ⟨rfl, ?_⟩
              obtain ⟨_, _, _, hresolve⟩ := mem_left_of_forall₂ hchildren hq
              exact ih hresolve
      | _ =>
          cases h
          rfl

inductive Plain : Json → Prop where
  | leaf {value : Json} (h : Leaf value) : Plain value
  | arr {items : List Json} (h : ∀ item ∈ items, Plain item) : Plain (.arr items)
  | obj {fields : Obj} (hkeys : ∀ p ∈ fields, p.1 ≠ "$ref" ∧ p.1 ≠ "$defs")
      (h : ∀ p ∈ fields, Plain p.2) : Plain (.obj fields)

theorem resolve_plain {value out : Json} (hplain : Plain value)
    (h : resolve definitions depth value = .ok out) : out = value := by
  induction depth generalizing value out with
  | zero => cases h
  | succ depth ih =>
      cases hplain with
      | leaf hleaf =>
          rw [resolve_leaf hleaf] at h
          cases h
          rfl
      | arr hitems =>
          obtain ⟨items', hall, rfl⟩ := resolve_arr.mp h
          exact congrArg Json.arr (eq_of_forall₂ hall fun x hx y => ih (hitems x hx))
      | @obj fields hkeys hvalues =>
          have href : localRef fields = none := by
            refine @localRef_none_of [] fields rfl fun ref hget => ?_
            exact absurd rfl (hkeys _ (mem_of_get hget)).1
          obtain ⟨children, hall, rfl⟩ := (resolve_node href).mp h
          have hkept : withoutDefinitions fields = fields :=
            List.filter_eq_self.mpr fun p hp => decide_eq_true (hkeys p hp).2
          rw [hkept] at hall
          refine congrArg Json.obj (eq_of_forall₂ hall fun p hp q hq => ?_)
          exact Prod.ext hq.1 (ih (hvalues p hp) hq.2)

inductive Refers (name : String) : Json → Prop where
  | here {fields : Obj} (h : localRef fields = some name) : Refers name (.obj fields)
  | item {items : List Json} {item : Json} (hitem : item ∈ items) (h : Refers name item) :
      Refers name (.arr items)
  | field {fields : Obj} {p : String × Json} (hp : p ∈ fields) (h : Refers name p.2) :
      Refers name (.obj fields)

theorem refers_obj {name : String} {fields : Obj} : Refers name (.obj fields) ↔
    localRef fields = some name ∨ ∃ p ∈ fields, Refers name p.2 := by
  constructor
  · intro h
    cases h with
    | here h => exact .inl h
    | field hp h => exact .inr ⟨_, hp, h⟩
  · rintro (h | ⟨p, hp, h⟩)
    · exact .here h
    · exact .field hp h

def Resolves (definitions : Obj) (value : Json) : Prop :=
  ∀ᶠ depth in atTop, ∃ out, resolve definitions depth value = .ok out

theorem resolves_of_refs {value : Json}
    (h : ∀ name, Refers name value →
      ∃ definition, definitions.get name = some definition ∧ Resolves definitions definition) :
    Resolves definitions value := by
  induction value using Json.induction with
  | arr items ih =>
      have hitems : ∀ item ∈ items, Resolves definitions item := fun item hitem =>
        ih item hitem fun name hname => h name (.item hitem hname)
      refine eventually_succ (eventually_forall_mem hitems) fun depth hdepth => ?_
      obtain ⟨items', hitems'⟩ := exists_of_forall_mem hdepth
      exact ⟨.arr items', resolve_arr.mpr ⟨items', hitems', rfl⟩⟩
  | obj fields ih =>
      cases href : localRef fields with
      | some name =>
          obtain ⟨definition, hget, hresolves⟩ := h name (.here href)
          refine eventually_succ hresolves fun depth hdepth => ?_
          obtain ⟨out, hout⟩ := hdepth
          exact ⟨out, (resolve_ref href).mpr ⟨definition, hget, hout⟩⟩
      | none =>
          have hvalues : ∀ p ∈ withoutDefinitions fields, Resolves definitions p.2 := by
            intro p hp
            have hmem := (List.mem_filter.mp hp).1
            exact ih p hmem fun name hname => h name (.field hmem hname)
          refine eventually_succ (eventually_forall_mem hvalues) fun depth hdepth => ?_
          have hpairs : ∀ p ∈ withoutDefinitions fields,
              ∃ q, Matched (fun _ x y => resolve definitions depth x = .ok y) p q := by
            intro p hp
            obtain ⟨out, hout⟩ := hdepth p hp
            exact ⟨(p.1, out), rfl, hout⟩
          obtain ⟨children, hchildren⟩ := exists_of_forall_mem hpairs
          exact ⟨.obj children, (resolve_node href).mpr ⟨children, hchildren, rfl⟩⟩
  | _ => exact eventually_succ (Eventually.of_forall fun _ => trivial) fun _ _ => ⟨_, rfl⟩

def RefersTo (definitions : Obj) (name referring : String) : Prop :=
  ∃ definition, definitions.get referring = some definition ∧ Refers name definition

def Acyclic (definitions : Obj) : Prop :=
  ∀ name, ¬ Relation.TransGen (RefersTo definitions) name name

theorem definitions_resolve (hacyclic : Acyclic definitions)
    (hknown : ∀ p ∈ definitions, ∀ name, Refers name p.2 → (definitions.get name).isSome)
    {name : String} {definition : Json} (hget : definitions.get name = some definition) :
    Resolves definitions definition := by
  have horder : IsStrictOrder String (Relation.TransGen (RefersTo definitions)) :=
    { irrefl := hacyclic, trans := fun _ _ _ => Relation.TransGen.trans }
  have hfounded : Set.WellFoundedOn {name | name ∈ definitions.map Prod.fst}
      (Relation.TransGen (RefersTo definitions)) :=
    Set.Finite.wellFoundedOn (List.finite_toSet _)
  have hall : ∀ name ∈ definitions.map Prod.fst, ∀ definition,
      definitions.get name = some definition → Resolves definitions definition := by
    intro name hname
    refine hfounded.induction (P := fun name => ∀ definition,
      definitions.get name = some definition → Resolves definitions definition) hname ?_
    intro referring _ ih definition hget
    refine resolves_of_refs fun name hname => ?_
    obtain ⟨inner, hinner⟩ := Option.isSome_iff_exists.mp
      (hknown _ (mem_of_get hget) name hname)
    have hlisted : name ∈ definitions.map Prod.fst := List.mem_map_of_mem (mem_of_get hinner)
    exact ⟨inner, hinner, ih name hlisted (.single ⟨definition, hget, hname⟩) inner hinner⟩
  exact hall name (List.mem_map_of_mem (mem_of_get hget)) definition hget

end Resolving

end Investigation
