import AiSoc.Library.JsonTree
import AiSoc.Security.Audit

namespace Audit

open PyJson

section Casefold

-- str.casefold replaces every character by one to three characters, whatever stands beside it
def FoldsCharacters (casefold : String → String) : Prop :=
  ∃ fold : Char → List Char, (∀ c, fold c ≠ []) ∧
    ∀ s, casefold s = String.ofList (s.toList.flatMap fold)

theorem length_casefold {casefold : String → String} (h : FoldsCharacters casefold) (s : String) :
    s.length ≤ (casefold s).length := by
  obtain ⟨fold, hfold, heq⟩ := h
  have hflat : ∀ cs : List Char, cs.length ≤ (cs.flatMap fold).length := by
    intro cs
    induction cs with
    | nil => exact Nat.le_refl _
    | cons c cs ih =>
        have hc := List.length_pos_of_ne_nil (hfold c)
        rw [List.flatMap_cons, List.length_append, List.length_cons]
        omega
  rw [heq, String.length_ofList, ← String.length_toList]
  exact hflat s.toList

theorem length_sensitiveKey {key : String} (h : key ∈ sensitiveKeys) : key.length ≤ 13 := by
  have hall : ∀ key ∈ sensitiveKeys, key.length ≤ 13 := by decide
  exact hall key h

theorem slice_of_length_le {n : Nat} {s : String} (h : s.length ≤ n) : PyStr.slice n s = s := by
  rw [PyStr.slice, List.take_of_length_le, String.ofList_toList]
  rw [String.length_toList]
  exact h

theorem slice_slice (n : Nat) (s : String) : PyStr.slice n (PyStr.slice n s) = PyStr.slice n s := by
  have hlength : (PyStr.slice n s).length ≤ n := by
    rw [PyStr.length_slice]
    exact Nat.min_le_left _ _
  exact slice_of_length_le hlength

theorem casefold_slice {casefold : String → String} (h : FoldsCharacters casefold) {key : String}
    (hkey : casefold key ∉ sensitiveKeys) : casefold (PyStr.slice 128 key) ∉ sensitiveKeys := by
  rcases Nat.lt_or_ge 128 key.length with hlong | hshort
  · intro hmem
    have hfold := length_casefold h (PyStr.slice 128 key)
    have hsensitive := length_sensitiveKey hmem
    rw [PyStr.length_slice] at hfold
    omega
  · rw [slice_of_length_le hshort]
    exact hkey

end Casefold

section Levels

variable {env : Auth.Env}

def Clean (casefold : String → String) : Json → Prop
  | .str s => s.length ≤ 512
  | .arr items => items.length ≤ 50
  | .obj fields => fields.length ≤ 50 ∧
      ∀ q ∈ fields, q.1.length ≤ 128 ∧ casefold q.1 ∉ sensitiveKeys
  | _ => True

theorem clean_slice (casefold : String → String) (s : String) :
    Clean casefold (.str (PyStr.slice 512 s)) := by
  rw [Clean, PyStr.length_slice]
  exact Nat.min_le_left _ _

theorem sanitized_fields (hfold : FoldsCharacters env.casefold) (levels : Nat) (fields : Obj) :
    ∃ out : Obj, sanitizeAuditDetails env (levels + 1) (.obj fields) = .obj out ∧
      Clean env.casefold (.obj out) ∧ (out.map Prod.fst).Nodup ∧
      ∀ q ∈ out, PyStr.slice 128 q.1 = q.1 ∧
        ∃ value, q.2 = sanitizeAuditDetails env levels value := by
  refine ⟨_, by rw [sanitizeAuditDetails], ⟨?_, ?_⟩, nodup_ofPairs _, ?_⟩
  · refine Nat.le_trans (length_ofPairs_le _) ?_
    rw [List.length_map]
    exact Nat.le_trans (List.length_filter_le _ _) (List.length_take_le _ _)
  · intro q hq
    obtain ⟨p, hp, rfl⟩ := List.mem_map.mp (mem_ofPairs hq)
    have hkey : env.casefold p.1 ∉ sensitiveKeys := by
      simpa using (List.mem_filter.mp hp).2
    have hlength : (PyStr.slice 128 p.1).length ≤ 128 := by
      rw [PyStr.length_slice]
      exact Nat.min_le_left _ _
    exact ⟨hlength, casefold_slice hfold hkey⟩
  · intro q hq
    obtain ⟨p, _, rfl⟩ := List.mem_map.mp (mem_ofPairs hq)
    exact ⟨slice_slice 128 p.1, p.2, rfl⟩

theorem clean_sanitized (hfold : FoldsCharacters env.casefold) (levels : Nat) (value : Json)
    {sub : Json} (hsub : Subvalue sub (sanitizeAuditDetails env levels value)) :
    Clean env.casefold sub := by
  induction levels generalizing value sub with
  | zero =>
      rw [sanitizeAuditDetails] at hsub
      rw [hsub.eq_of_str]
      exact Nat.le_of_ble_eq_true rfl
  | succ levels ih =>
      cases value with
      | obj fields =>
          obtain ⟨out, hout, hclean, _, hvalues⟩ := sanitized_fields hfold levels fields
          rw [hout] at hsub
          rcases subvalue_obj hsub with rfl | ⟨q, hq, hsub⟩
          · exact hclean
          · obtain ⟨_, inner, hinner⟩ := hvalues q hq
            rw [hinner] at hsub
            exact ih inner hsub
      | arr items =>
          rw [sanitizeAuditDetails] at hsub
          rcases subvalue_arr hsub with rfl | ⟨item, hitem, hsub⟩
          · rw [Clean, List.length_map]
            exact List.length_take_le _ _
          · obtain ⟨inner, _, rfl⟩ := List.mem_map.mp hitem
            exact ih inner hsub
      | str s =>
          rw [sanitizeAuditDetails] at hsub
          rw [hsub.eq_of_str]
          exact clean_slice _ s
      | null =>
          rw [hsub.eq_of_scalar rfl]
          trivial
      | bool b =>
          rw [hsub.eq_of_scalar rfl]
          trivial
      | int n =>
          rw [hsub.eq_of_scalar rfl]
          trivial
      | float x =>
          rw [hsub.eq_of_scalar rfl]
          trivial
      | infinity neg =>
          rw [hsub.eq_of_scalar rfl]
          trivial
      | nan =>
          rw [hsub.eq_of_scalar rfl]
          trivial

theorem shallow_sanitized (hfold : FoldsCharacters env.casefold) (levels : Nat) (value : Json) :
    Shallow 50 levels (sanitizeAuditDetails env levels value) := by
  induction levels generalizing value with
  | zero =>
      rw [sanitizeAuditDetails]
      exact .str _
  | succ levels ih =>
      cases value with
      | obj fields =>
          obtain ⟨out, hout, hclean, _, hvalues⟩ := sanitized_fields hfold levels fields
          rw [hout]
          refine .obj hclean.1 ?_
          intro q hq
          obtain ⟨_, inner, hinner⟩ := hvalues q hq
          rw [hinner]
          exact ih inner
      | arr items =>
          rw [sanitizeAuditDetails]
          refine .arr ?_ ?_
          · rw [List.length_map]
            exact List.length_take_le _ _
          · intro item hitem
            obtain ⟨inner, _, rfl⟩ := List.mem_map.mp hitem
            exact ih inner
      | str s => exact .str _
      | null => exact .scalar rfl
      | bool b => exact .scalar rfl
      | int n => exact .scalar rfl
      | float x => exact .scalar rfl
      | infinity neg => exact .scalar rfl
      | nan => exact .scalar rfl

theorem sanitize_settled {levels : Nat} {out : Obj} (hclean : Clean env.casefold (.obj out))
    (hnodup : (out.map Prod.fst).Nodup)
    (hvalues : ∀ q ∈ out, PyStr.slice 128 q.1 = q.1 ∧ sanitizeAuditDetails env levels q.2 = q.2) :
    sanitizeAuditDetails env (levels + 1) (.obj out) = .obj out := by
  obtain ⟨hlength, hkeys⟩ := hclean
  have hkept : out.filter (fun p => !sensitiveKeys.contains (env.casefold p.1)) = out := by
    apply List.filter_eq_self.mpr
    intro q hq
    simpa using (hkeys q hq).2
  have hmap : out.map (fun p => (PyStr.slice 128 p.1, sanitizeAuditDetails env levels p.2)) = out := by
    calc out.map (fun p => (PyStr.slice 128 p.1, sanitizeAuditDetails env levels p.2))
        = out.map id := by
          apply List.map_congr_left
          intro q hq
          obtain ⟨hkey, hvalue⟩ := hvalues q hq
          rw [hkey, hvalue]
          rfl
      _ = out := List.map_id out
  rw [sanitizeAuditDetails]
  simp only [List.take_of_length_le hlength, hkept, hmap, ofPairs_of_nodup hnodup]

theorem sanitize_sanitized (hfold : FoldsCharacters env.casefold) (levels : Nat) (value : Json) :
    sanitizeAuditDetails env levels (sanitizeAuditDetails env levels value) =
      sanitizeAuditDetails env levels value := by
  induction levels generalizing value with
  | zero => rfl
  | succ levels ih =>
      cases value with
      | obj fields =>
          obtain ⟨out, hout, hclean, hnodup, hvalues⟩ := sanitized_fields hfold levels fields
          rw [hout]
          refine sanitize_settled hclean hnodup ?_
          intro q hq
          obtain ⟨hkey, inner, hinner⟩ := hvalues q hq
          rw [hinner]
          exact ⟨hkey, ih inner⟩
      | arr items =>
          have hlength : ((items.take 50).map (sanitizeAuditDetails env levels)).length ≤ 50 := by
            rw [List.length_map]
            exact List.length_take_le _ _
          simp only [sanitizeAuditDetails]
          rw [List.take_of_length_le hlength, List.map_map]
          congr 1
          apply List.map_congr_left
          intro item _
          exact ih item
      | str s =>
          simp only [sanitizeAuditDetails, slice_slice]
      | null => rfl
      | bool b => rfl
      | int n => rfl
      | float x => rfl
      | infinity neg => rfl
      | nan => rfl

end Levels

section Details

structure Sanitized (casefold : String → String) (details : Json) : Prop where
  keys : ∀ fields, Subvalue (.obj fields) details → ∀ q ∈ fields, casefold q.1 ∉ sensitiveKeys
  keyLengths : ∀ fields, Subvalue (.obj fields) details → ∀ q ∈ fields, q.1.length ≤ 128
  strings : ∀ s, Subvalue (.str s) details → s.length ≤ 512
  dicts : ∀ fields, Subvalue (.obj fields) details → fields.length ≤ 50
  lists : ∀ items, Subvalue (.arr items) details → items.length ≤ 50
  depth : nesting details ≤ 6

theorem audit_details_sanitized (env : Auth.Env) (hfold : FoldsCharacters env.casefold)
    (value : Json) :
    Sanitized env.casefold (sanitizeAuditDetails env 5 value) ∧
      sanitizeAuditDetails env 5 (sanitizeAuditDetails env 5 value) =
        sanitizeAuditDetails env 5 value := by
  have hclean : ∀ sub, Subvalue sub (sanitizeAuditDetails env 5 value) →
      Clean env.casefold sub := fun _ hsub => clean_sanitized hfold 5 value hsub
  refine ⟨?_, sanitize_sanitized hfold 5 value⟩
  exact {
    keys := fun fields hsub q hq => ((hclean _ hsub).2 q hq).2
    keyLengths := fun fields hsub q hq => ((hclean _ hsub).2 q hq).1
    strings := fun s hsub => hclean _ hsub
    dicts := fun fields hsub => (hclean _ hsub).1
    lists := fun items hsub => hclean _ hsub
    depth := (shallow_sanitized hfold 5 value).nesting_le }

-- casefold of an ASCII text
def asciiLower (c : Char) : List Char :=
  [if 65 ≤ c.toNat ∧ c.toNat ≤ 90 then Char.ofNat (c.toNat + 32) else c]

def asciiEnv : Auth.Env where
  casefold s := String.ofList (s.toList.flatMap asciiLower)
  verifyPassword _ _ := false
  hashPassword s := s
  hashSecret s := s
  refreshTokenLifetime := 0

theorem foldsCharacters_ascii : FoldsCharacters asciiEnv.casefold := by
  refine ⟨asciiLower, ?_, fun _ => rfl⟩
  intro c
  exact List.cons_ne_nil _ _

def loginDetails : Json :=
  .obj [("Password", .str "x"), ("email", .str "a@b.c"), ("nested", .arr [.obj [("API_KEY", .null)]])]

theorem loginDetails_sanitized :
    sanitizeAuditDetails asciiEnv 5 loginDetails =
        .obj [("email", .str "a@b.c"), ("nested", .arr [.obj []])] ∧
      Sanitized asciiEnv.casefold (sanitizeAuditDetails asciiEnv 5 loginDetails) :=
  ⟨rfl, (audit_details_sanitized asciiEnv foldsCharacters_ascii loginDetails).1⟩

end Details

end Audit
