import AiSoc.Library.JsonShape
import Mathlib.Data.List.Forall2
import Mathlib.Order.Filter.AtTopBot.Basic
import Mathlib.Order.Filter.Finite

namespace JsonSchema

open PyJson Filter

section Semantics

-- what is left open: equality of JSON values, patterns, and the keywords not spelled out below,
-- which may look at any schema
structure Vocabulary where
  same : Json → Json → Prop
  matching : String → String → Prop
  meaning : (Json → Json → Prop) → String → Json → Json → Prop

-- the name in a reference #/$defs/name
def localRef (fields : Obj) : Option String :=
  match fields.get "$ref" with
  | some (.str ref) =>
      if "#/$defs/".toList.isPrefixOf ref.toList then some (String.ofList (ref.toList.drop 8))
      else none
  | _ => none

def hasType : String → Json → Prop
  | "null", .null => True
  | "boolean", .bool _ => True
  | "integer", .int _ => True
  | "integer", .float x => x.toRat.den = 1
  | "number", .int _ => True
  | "number", .float _ => True
  | "string", .str _ => True
  | "array", .arr _ => True
  | "object", .obj _ => True
  | _, _ => False

def typed (value instance_ : Json) : Prop :=
  match value with
  | .str name => hasType name instance_
  | .arr names => ∃ name, .str name ∈ names ∧ hasType name instance_
  | _ => False

def entries : Option Json → Obj
  | some (.obj fields) => fields
  | _ => []

def elements : Option Json → List Json
  | some (.arr items) => items
  | _ => []

def members : Json → Obj
  | .obj fields => fields
  | _ => []

variable (vocabulary : Vocabulary)

-- what one keyword asks of a value, where accepts judges by other schemas
def keyword (accepts : Json → Json → Prop) (definitions fields : Obj) (key : String)
    (value instance_ : Json) : Prop :=
  if key = "type" then typed value instance_
  else if key = "enum" then ∃ item ∈ elements (some value), vocabulary.same item instance_
  else if key = "required" then
    ∀ members, instance_ = .obj members →
      ∀ name, .str name ∈ elements (some value) → name ∈ members.map Prod.fst
  else if key = "properties" then
    ∀ p ∈ entries (some value), ∀ member ∈ members instance_, member.1 = p.1 →
      accepts p.2 member.2
  else if key = "additionalProperties" then
    ∀ member ∈ members instance_, member.1 ∉ (entries (fields.get "properties")).map Prod.fst →
      (∀ p ∈ entries (fields.get "patternProperties"), ¬ vocabulary.matching p.1 member.1) →
      accepts value member.2
  else if key = "items" then
    ∀ item ∈ (elements (some instance_)).drop (elements (fields.get "prefixItems")).length,
      accepts value item
  else if key = "anyOf" then ∃ child ∈ elements (some value), accepts child instance_
  else if key = "oneOf" then
    ∃ i, ∃ h : i < (elements (some value)).length,
      accepts (elements (some value))[i] instance_ ∧
        ∀ j, ∀ h : j < (elements (some value)).length, j ≠ i →
          ¬ accepts (elements (some value))[j] instance_
  else if key = "$ref" then
    match localRef fields with
    | some name => ∃ definition, definitions.get name = some definition ∧
        accepts definition instance_
    | none => vocabulary.meaning accepts key value instance_
  else if key = "$defs" then True
  else vocabulary.meaning accepts key value instance_

-- validity, with references followed up to a depth
def validWithin (definitions : Obj) : Nat → Json → Json → Prop
  | _, .bool b, _ => b = true
  | depth + 1, .obj fields, instance_ =>
      ∀ p ∈ fields, keyword vocabulary (validWithin definitions depth) definitions fields p.1 p.2
        instance_
  | _, _, _ => False

def Valid (definitions : Obj) (schema instance_ : Json) : Prop :=
  ∀ᶠ depth in atTop, validWithin vocabulary definitions depth schema instance_

def Settled (definitions : Obj) (schema : Json) : Prop :=
  ∀ᶠ depth in atTop, ∀ instance_, validWithin vocabulary definitions depth schema instance_ ↔
    Valid vocabulary definitions schema instance_

end Semantics

section Entries

def Matched (relates : String → Json → Json → Prop) (p q : String × Json) : Prop :=
  q.1 = p.1 ∧ relates p.1 p.2 q.2

variable {relates : String → Json → Json → Prop} {fields fields' : Obj}

theorem get_of_matched (h : List.Forall₂ (Matched relates) fields fields') (key : String) :
    (fields.get key = none ∧ fields'.get key = none) ∨
      ∃ value value', fields.get key = some value ∧ fields'.get key = some value' ∧
        relates key value value' := by
  induction h with
  | nil => exact .inl ⟨rfl, rfl⟩
  | @cons p q _ _ hfirst _ ih =>
      obtain ⟨name, value⟩ := p
      obtain ⟨name', value'⟩ := q
      obtain ⟨hname, hvalue⟩ := hfirst
      cases hname
      rw [Obj.get_cons, Obj.get_cons]
      by_cases hkey : key = name
      · rw [if_pos hkey, if_pos hkey]
        exact .inr ⟨value, value', rfl, rfl, hkey ▸ hvalue⟩
      · rw [if_neg hkey, if_neg hkey]
        exact ih

theorem keys_of_matched (h : List.Forall₂ (Matched relates) fields fields') :
    fields'.map Prod.fst = fields.map Prod.fst := by
  induction h with
  | nil => rfl
  | cons hfirst _ ih => exact congrArg₂ List.cons hfirst.1 ih

theorem get_filter {keep : String × Json → Bool} {key : String}
    (hkeep : ∀ value, keep (key, value) = true) (fields : Obj) :
    Obj.get (fields.filter keep) key = fields.get key := by
  induction fields with
  | nil => rfl
  | cons p fields ih =>
      obtain ⟨name, value⟩ := p
      rw [Obj.get_cons]
      by_cases hkey : key = name
      · subst hkey
        rw [List.filter_cons_of_pos (hkeep value), Obj.get_cons, if_pos rfl, if_pos rfl]
      · rw [if_neg hkey, ← ih]
        cases hname : keep (name, value) with
        | true => rw [List.filter_cons_of_pos hname, Obj.get_cons, if_neg hkey]
        | false => rw [List.filter_cons_of_neg (by rw [hname]; exact Bool.false_ne_true)]

theorem mem_left_of_forall₂ {α β : Type} {R : α → β → Prop} {xs : List α} {ys : List β}
    (h : List.Forall₂ R xs ys) {y : β} (hy : y ∈ ys) : ∃ x ∈ xs, R x y := by
  induction h with
  | nil => cases hy
  | cons hfirst _ ih =>
      rcases List.mem_cons.mp hy with rfl | hy
      · exact ⟨_, List.mem_cons_self, hfirst⟩
      · obtain ⟨x, hx, hR⟩ := ih hy
        exact ⟨x, List.mem_cons_of_mem _ hx, hR⟩

theorem eq_of_forall₂ {α : Type} {R : α → α → Prop} {xs ys : List α} (h : List.Forall₂ R xs ys)
    (hsame : ∀ x ∈ xs, ∀ y, R x y → y = x) : ys = xs := by
  induction h with
  | nil => rfl
  | cons hfirst _ ih =>
      have hrest := ih fun x hx => hsame x (List.mem_cons_of_mem _ hx)
      rw [hsame _ List.mem_cons_self _ hfirst, hrest]

theorem exists_of_forall_mem {α β : Type} {R : α → β → Prop} {xs : List α}
    (h : ∀ x ∈ xs, ∃ y, R x y) : ∃ ys, List.Forall₂ R xs ys := by
  induction xs with
  | nil => exact ⟨[], .nil⟩
  | cons x xs ih =>
      obtain ⟨y, hy⟩ := h x List.mem_cons_self
      obtain ⟨ys, hys⟩ := ih fun z hz => h z (List.mem_cons_of_mem _ hz)
      exact ⟨y :: ys, .cons hy hys⟩

theorem forall₂_mem {α β : Type} {R : α → β → Prop} {xs : List α} {ys : List β}
    (h : List.Forall₂ R xs ys) :
    List.Forall₂ (fun x y => x ∈ xs ∧ y ∈ ys ∧ R x y) xs ys := by
  induction h with
  | nil => exact .nil
  | cons hfirst _ ih =>
      refine .cons ⟨List.mem_cons_self, List.mem_cons_self, hfirst⟩ (ih.imp ?_)
      rintro x y ⟨hx, hy, hxy⟩
      exact ⟨List.mem_cons_of_mem _ hx, List.mem_cons_of_mem _ hy, hxy⟩

theorem exists_forall₂ {α β γ : Type} {R : α → β → Prop} {T : α → γ → Prop}
    {S : Nat → β → γ → Prop} {xs : List α} {ys : List β} (h : List.Forall₂ R xs ys)
    (hstep : ∀ x ∈ xs, ∀ y, R x y → ∃ z, T x z ∧ ∀ᶠ depth in atTop, S depth y z) :
    ∃ zs, List.Forall₂ T xs zs ∧ ∀ᶠ depth in atTop, List.Forall₂ (S depth) ys zs := by
  induction h with
  | nil => exact ⟨[], .nil, Eventually.of_forall fun _ => .nil⟩
  | cons hfirst _ ih =>
      obtain ⟨z, hz, hfirst⟩ := hstep _ List.mem_cons_self _ hfirst
      obtain ⟨zs, hzs, hrest⟩ := ih fun x hx => hstep x (List.mem_cons_of_mem _ hx)
      refine ⟨z :: zs, .cons hz hzs, ?_⟩
      filter_upwards [hfirst, hrest] with depth hy hys
      exact .cons hy hys

end Entries

section Positions

-- the keywords whose meaning above looks at no other keyword but those named there
def spelledOut : List String :=
  ["type", "enum", "items", "anyOf", "oneOf", "properties", "additionalProperties", "required"]

def subschemas (key : String) (value : Json) : List Json :=
  if key = "properties" then (entries (some value)).map Prod.snd
  else if key = "items" ∨ key = "additionalProperties" then [value]
  else if key = "anyOf" ∨ key = "oneOf" then elements (some value)
  else []

inductive Position (inner : Json) : Json → Prop where
  | here : Position inner inner
  | inside {fields : Obj} {p : String × Json} {child : Json} (hp : p ∈ fields)
      (hchild : child ∈ subschemas p.1 p.2) (h : Position inner child) : Position inner (.obj fields)

theorem forall_position_obj {holds : Obj → Prop} {fields : Obj} (h : holds fields)
    (hbelow : ∀ p ∈ fields, ∀ child ∈ subschemas p.1 p.2, ∀ inner,
      Position (.obj inner) child → holds inner) :
    ∀ inner, Position (.obj inner) (.obj fields) → holds inner := by
  intro inner hinner
  cases hinner with
  | here => exact h
  | inside hp hchild hposition => exact hbelow _ hp _ hchild inner hposition

variable {vocabulary : Vocabulary} {definitions : Obj}

theorem keyword_congr {accepts accepts' : Json → Json → Prop} {fields : Obj} {key : String}
    {value : Json} (hkey : key ∈ spelledOut)
    (h : ∀ child ∈ subschemas key value, ∀ instance_,
      accepts child instance_ ↔ accepts' child instance_) (instance_ : Json) :
    keyword vocabulary accepts definitions fields key value instance_ ↔
      keyword vocabulary accepts' definitions fields key value instance_ := by
  simp only [spelledOut, List.mem_cons, List.not_mem_nil, or_false] at hkey
  rcases hkey with rfl | rfl | rfl | rfl | rfl | rfl | rfl | rfl
  · simp [keyword]
  · simp [keyword]
  · have hvalue := h value (by simp [subschemas])
    simp [keyword, hvalue]
  · have hchild : ∀ child ∈ elements (some value), ∀ instance_,
        accepts child instance_ ↔ accepts' child instance_ := by
      intro child hmem
      exact h child (by simpa [subschemas] using hmem)
    have hexists := exists_congr fun child =>
      and_congr_right fun hmem => hchild child hmem instance_
    simpa [keyword] using hexists
  · have hchild : ∀ i, ∀ hi : i < (elements (some value)).length, ∀ instance_,
        accepts (elements (some value))[i] instance_ ↔
          accepts' (elements (some value))[i] instance_ := by
      intro i hi
      exact h _ (by simp [subschemas])
    simp only [keyword]
    simp [hchild]
  · have hchild : ∀ p ∈ entries (some value), ∀ instance_,
        accepts p.2 instance_ ↔ accepts' p.2 instance_ := by
      intro p hmem
      exact h p.2 (by simpa [subschemas] using ⟨p.1, hmem⟩)
    simp only [keyword]
    simp +contextual [hchild]
  · have hvalue := h value (by simp [subschemas])
    simp [keyword, hvalue]
  · simp [keyword]

theorem keyword_oneOf_pair {accepts : Json → Json → Prop} {fields : Obj} {x y instance_ : Json} :
    keyword vocabulary accepts definitions fields "oneOf" (.arr [x, y]) instance_ ↔
      (accepts x instance_ ∧ ¬ accepts y instance_) ∨
        (accepts y instance_ ∧ ¬ accepts x instance_) := by
  have hone : keyword vocabulary accepts definitions fields "oneOf" (.arr [x, y]) instance_ ↔
      ∃ i, ∃ h : i < [x, y].length, accepts [x, y][i] instance_ ∧
        ∀ j, ∀ h : j < [x, y].length, j ≠ i → ¬ accepts [x, y][j] instance_ := by
    simp [keyword, elements]
  rw [hone]
  constructor
  · rintro ⟨i, hi, haccepts, hother⟩
    change i < 2 at hi
    rcases (show i = 0 ∨ i = 1 by omega) with rfl | rfl
    · exact .inl ⟨haccepts, hother 1 (by simp) (by simp)⟩
    · exact .inr ⟨haccepts, hother 0 (by simp) (by simp)⟩
  · rintro (⟨hx, hy⟩ | ⟨hy, hx⟩)
    · refine ⟨0, by simp, hx, ?_⟩
      intro j hj hne
      change j < 2 at hj
      obtain rfl : j = 1 := by omega
      exact hy
    · refine ⟨1, by simp, hy, ?_⟩
      intro j hj hne
      change j < 2 at hj
      obtain rfl : j = 0 := by omega
      exact hx

theorem validWithin_obj {fields : Obj} {depth : Nat} {instance_ : Json} :
    validWithin vocabulary definitions (depth + 1) (.obj fields) instance_ ↔
      ∀ p ∈ fields, keyword vocabulary (validWithin vocabulary definitions depth) definitions
        fields p.1 p.2 instance_ :=
  Iff.rfl

theorem validWithin_bool {b : Bool} {depth : Nat} {instance_ : Json} :
    validWithin vocabulary definitions depth (.bool b) instance_ ↔ b = true := by
  cases depth with
  | zero => exact Iff.rfl
  | succ depth => exact Iff.rfl

theorem validWithin_ref {fields : Obj} {name : String} {definition instance_ : Json} {depth : Nat}
    (href : localRef fields = some name) (hget : definitions.get name = some definition)
    (h : validWithin vocabulary definitions (depth + 1) (.obj fields) instance_) :
    validWithin vocabulary definitions depth definition instance_ := by
  cases hvalue : fields.get "$ref" with
  | none =>
      rw [localRef, hvalue] at href
      cases href
  | some value =>
      have hkeyword := h _ (mem_of_get hvalue)
      have hfollowed : ∃ definition, definitions.get name = some definition ∧
          validWithin vocabulary definitions depth definition instance_ := by
        simpa [keyword, href] using hkeyword
      obtain ⟨other, hother, hvalid⟩ := hfollowed
      obtain rfl := Option.some.inj (hget.symm.trans hother)
      exact hvalid

theorem valid_of {bound : Nat} {schema instance_ : Json}
    (h : ∀ depth, validWithin vocabulary definitions (depth + bound) schema instance_) :
    Valid vocabulary definitions schema instance_ := by
  refine eventually_atTop.mpr ⟨bound, fun depth hdepth => ?_⟩
  obtain ⟨depth, rfl⟩ := Nat.exists_eq_add_of_le' hdepth
  exact h depth

theorem not_valid_of {bound : Nat} {schema instance_ : Json}
    (h : ∀ depth, ¬ validWithin vocabulary definitions (depth + bound) schema instance_) :
    ¬ Valid vocabulary definitions schema instance_ := by
  intro hvalid
  obtain ⟨depth, hdepth⟩ := eventually_atTop.mp hvalid
  exact h depth (hdepth (depth + bound) (Nat.le_add_right depth bound))

theorem eventually_succ {P Q : Nat → Prop} (h : ∀ᶠ depth in atTop, P depth)
    (hnext : ∀ depth, P depth → Q (depth + 1)) : ∀ᶠ depth in atTop, Q depth := by
  obtain ⟨bound, hbound⟩ := eventually_atTop.mp h
  refine eventually_atTop.mpr ⟨bound + 1, fun depth hdepth => ?_⟩
  obtain ⟨depth, rfl⟩ := Nat.exists_eq_add_of_le' (Nat.le_trans (Nat.le_add_left 1 _) hdepth)
  exact hnext depth (hbound depth (by omega))

theorem eventually_forall_mem {α : Type} {P : Nat → α → Prop} {xs : List α}
    (h : ∀ x ∈ xs, ∀ᶠ depth in atTop, P depth x) : ∀ᶠ depth in atTop, ∀ x ∈ xs, P depth x :=
  (eventually_all_finite xs.finite_toSet).mpr h

theorem valid_iff_of {schema : Json} {judged : Json → Prop}
    (h : ∀ᶠ depth in atTop, ∀ instance_,
      validWithin vocabulary definitions depth schema instance_ ↔ judged instance_)
    (instance_ : Json) : Valid vocabulary definitions schema instance_ ↔ judged instance_ :=
  (eventually_congr (h.mono fun _ hdepth => hdepth instance_)).trans eventually_const

theorem settled_of {schema : Json} {judged : Json → Prop}
    (h : ∀ᶠ depth in atTop, ∀ instance_,
      validWithin vocabulary definitions depth schema instance_ ↔ judged instance_) :
    Settled vocabulary definitions schema :=
  h.mono fun _ hdepth instance_ => (hdepth instance_).trans (valid_iff_of h instance_).symm

theorem settled_bool {b : Bool} : Settled vocabulary definitions (.bool b) :=
  settled_of (Eventually.of_forall fun _ _ => validWithin_bool)

section Node

variable {fields : Obj} (hkeys : ∀ p ∈ fields, p.1 ∈ spelledOut)
  (hchildren : ∀ p ∈ fields, ∀ child ∈ subschemas p.1 p.2, Settled vocabulary definitions child)

include hkeys hchildren

theorem eventually_obj : ∀ᶠ depth in atTop, ∀ instance_,
    validWithin vocabulary definitions depth (.obj fields) instance_ ↔
      ∀ p ∈ fields, keyword vocabulary (Valid vocabulary definitions) definitions fields p.1 p.2
        instance_ := by
  have hall : ∀ᶠ depth in atTop, ∀ p ∈ fields, ∀ child ∈ subschemas p.1 p.2, ∀ instance_,
      validWithin vocabulary definitions depth child instance_ ↔
        Valid vocabulary definitions child instance_ :=
    eventually_forall_mem fun p hp => eventually_forall_mem (hchildren p hp)
  refine eventually_succ hall fun depth hdepth instance_ => ?_
  exact forall₂_congr fun p hp => keyword_congr (hkeys p hp) (hdepth p hp) instance_

theorem settled_obj : Settled vocabulary definitions (.obj fields) :=
  settled_of (eventually_obj hkeys hchildren)

theorem valid_obj (instance_ : Json) : Valid vocabulary definitions (.obj fields) instance_ ↔
    ∀ p ∈ fields, keyword vocabulary (Valid vocabulary definitions) definitions fields p.1 p.2
      instance_ :=
  valid_iff_of (eventually_obj hkeys hchildren) instance_

end Node

end Positions

end JsonSchema
