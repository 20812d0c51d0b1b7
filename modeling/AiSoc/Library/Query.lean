import Mathlib.Data.List.Sort

namespace Query

-- the order in which a table returns rows that ORDER BY does not separate
structure Scan where
  rows : {α : Type} → List α → List α
  perm : ∀ {α : Type} (table : List α), (rows table).Perm table

def inTableOrder : Scan := ⟨fun table => table, fun _ => .refl _⟩

variable {α : Type}

def select (scan : Scan) (table : List α) (p : α → Bool) (before : α → α → Prop)
    [DecidableRel before] : List α :=
  ((scan.rows table).filter p).insertionSort before

-- LIMIT 1
def selectFirst (scan : Scan) (table : List α) (p : α → Bool) (before : α → α → Prop)
    [DecidableRel before] : Option α :=
  (select scan table p before).head?

section

variable {scan : Scan} {table : List α} {p : α → Bool} {before : α → α → Prop}
  [DecidableRel before]

theorem select_perm (scan : Scan) (table : List α) (p : α → Bool) (before : α → α → Prop)
    [DecidableRel before] : (select scan table p before).Perm (table.filter p) :=
  (List.perm_insertionSort _ _).trans ((scan.perm table).filter p)

theorem mem_select {row : α} : row ∈ select scan table p before ↔ row ∈ table ∧ p row = true := by
  rw [(select_perm scan table p before).mem_iff, List.mem_filter]

theorem select_map_nodup {β : Type} {f : α → β} (h : (table.map f).Nodup) :
    ((select scan table p before).map f).Nodup := by
  have hperm := (select_perm scan table p before).map f
  have hsub : ((table.filter p).map f).Sublist (table.map f) := List.filter_sublist.map f
  exact hperm.nodup_iff.mpr (hsub.nodup h)

theorem selectFirst_none :
    selectFirst scan table p before = none ↔ ∀ row ∈ table, p row = false := by
  rw [selectFirst, List.head?_eq_none_iff, List.eq_nil_iff_forall_not_mem]
  simp only [mem_select, not_and, Bool.not_eq_true]

theorem selectFirst_mem {row : α} (h : selectFirst scan table p before = some row) :
    row ∈ table ∧ p row = true :=
  mem_select.mp (List.mem_of_mem_head? h)

theorem selectFirst_before [Std.Total before] [IsTrans α before] {row : α}
    (h : selectFirst scan table p before = some row) {other : α} (hmem : other ∈ table)
    (hp : p other = true) : before row other := by
  have hsorted := List.pairwise_insertionSort before ((scan.rows table).filter p)
  have hin : other ∈ select scan table p before := mem_select.mpr ⟨hmem, hp⟩
  rw [selectFirst, select] at h
  rw [select] at hin
  cases hsel : ((scan.rows table).filter p).insertionSort before with
  | nil => rw [hsel] at h; cases h
  | cons first rest =>
      rw [hsel] at h hin hsorted
      cases h
      rcases List.mem_cons.mp hin with rfl | hrest
      · exact (Std.Total.total (r := before) other other).elim id id
      · exact List.rel_of_pairwise_cons hsorted hrest

theorem select_eq [Std.Total before] [IsTrans α before] {rows : List α}
    (hrows : rows.Perm (table.filter p)) (hsorted : rows.Pairwise before)
    (hantisymm : ∀ a ∈ table, ∀ b ∈ table, before a b → before b a → a = b) :
    select scan table p before = rows := by
  have hperm : (select scan table p before).Perm rows :=
    (select_perm scan table p before).trans hrows.symm
  refine hperm.eq_of_pairwise ?_ (List.pairwise_insertionSort before _) hsorted
  intro a b ha hb
  exact hantisymm a (mem_select.mp ha).1 b (List.mem_of_mem_filter (hrows.mem_iff.mp hb))

end

section Map

variable {β : Type}

def Scan.Natural (scan : Scan) : Prop :=
  ∀ {α β : Type} (f : α → β) (table : List α), scan.rows (table.map f) = (scan.rows table).map f

theorem natural_inTableOrder : inTableOrder.Natural :=
  fun _ _ => rfl

theorem select_map {scan : Scan} (hscan : scan.Natural) {f : α → β} {table : List α} {p : α → Bool}
    {q : β → Bool} {before : α → α → Prop} {after : β → β → Prop} [DecidableRel before]
    [DecidableRel after] (hp : ∀ row, q (f row) = p row)
    (hbefore : ∀ a ∈ table, ∀ b ∈ table, before a b ↔ after (f a) (f b)) :
    select scan (table.map f) q after = (select scan table p before).map f := by
  have hq : q ∘ f = p := funext hp
  unfold select
  rw [hscan, List.filter_map, hq]
  refine (List.map_insertionSort before after f _ ?_).symm
  intro a ha b hb
  have hmem : ∀ row ∈ (scan.rows table).filter p, row ∈ table := fun row hrow =>
    (scan.perm table).mem_iff.1 (List.mem_of_mem_filter hrow)
  exact hbefore a (hmem a ha) b (hmem b hb)

end Map

end Query
