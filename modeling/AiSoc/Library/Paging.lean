import AiSoc.Library.Query

namespace Paging

variable {α κ : Type} [LinearOrder κ] (key : α → κ)

section Order

-- ORDER BY key DESC
def later (a b : α) : Prop :=
  key b ≤ key a

instance : DecidableRel (later key) := fun a b => inferInstanceAs (Decidable (key b ≤ key a))

instance : Std.Total (later key) :=
  ⟨fun a b => le_total (key b) (key a)⟩

instance : IsTrans α (later key) :=
  ⟨fun _ _ _ hab hbc => le_trans hbc hab⟩

def ahead (rows : List α) (v : κ) : Nat :=
  rows.countP fun row => v < key row

def upTo (rows : List α) (v : κ) : Nat :=
  rows.countP fun row => v ≤ key row

variable {key}

theorem take_countP {p : α → Bool} {rows : List α}
    (h : rows.Pairwise fun a b => p b = true → p a = true) :
    rows.take (rows.countP p) = rows.filter p := by
  induction rows with
  | nil => rfl
  | cons row rows ih =>
      obtain ⟨hrow, hrows⟩ := List.pairwise_cons.mp h
      by_cases hp : p row = true
      · rw [List.countP_cons_of_pos hp, List.take_succ_cons, List.filter_cons_of_pos hp, ih hrows]
      · have hnone : ∀ other ∈ rows, ¬ p other = true := fun other hother hp' =>
          hp (hrow other hother hp')
        rw [List.countP_cons_of_neg hp, List.filter_cons_of_neg hp,
          List.countP_eq_zero.mpr hnone, List.take_zero, List.filter_eq_nil_iff.mpr hnone]

theorem take_ahead {rows : List α} (h : rows.Pairwise (later key)) (v : κ) :
    rows.take (ahead key rows v) = rows.filter fun row => v < key row := by
  refine take_countP (h.imp fun hab hb => ?_)
  exact decide_eq_true (lt_of_lt_of_le (of_decide_eq_true hb) hab)

theorem take_upTo {rows : List α} (h : rows.Pairwise (later key)) (v : κ) :
    rows.take (upTo key rows v) = rows.filter fun row => v ≤ key row := by
  refine take_countP (h.imp fun hab hb => ?_)
  exact decide_eq_true (le_trans (of_decide_eq_true hb) hab)

theorem ahead_le_of_getElem {rows : List α} (h : rows.Pairwise (later key)) {i : Nat} {row : α}
    (hi : rows[i]? = some row) : ahead key rows (key row) ≤ i := by
  apply Nat.le_of_not_lt
  intro hlt
  have htake : (rows.take (ahead key rows (key row)))[i]? = some row := by
    rw [List.getElem?_take_of_lt hlt, hi]
  have hmem := List.mem_of_getElem? htake
  rw [take_ahead h] at hmem
  exact lt_irrefl _ (of_decide_eq_true (List.mem_filter.mp hmem).2)

theorem lt_upTo_of_getElem {rows : List α} (h : rows.Pairwise (later key)) {i : Nat} {row : α}
    (hi : rows[i]? = some row) : i < upTo key rows (key row) := by
  have hall : ∀ other ∈ rows.take (i + 1), (decide (key row ≤ key other)) = true := by
    intro other hother
    obtain ⟨j, hj⟩ := List.mem_iff_getElem?.mp hother
    have hlt := (List.getElem?_eq_some_iff.mp hj).1
    rw [List.length_take] at hlt
    rw [List.getElem?_take_of_lt (by omega)] at hj
    rcases Nat.lt_or_ge j i with hji | hji
    · obtain ⟨hjl, rfl⟩ := List.getElem?_eq_some_iff.mp hj
      obtain ⟨hil, rfl⟩ := List.getElem?_eq_some_iff.mp hi
      exact decide_eq_true (List.pairwise_iff_getElem.mp h j i hjl hil hji)
    · have hsame : j = i := by omega
      subst hsame
      rw [hi] at hj
      cases hj
      exact decide_eq_true (le_refl _)
  have hcount : (rows.take (i + 1)).countP (fun other => key row ≤ key other) = i + 1 := by
    rw [List.countP_eq_length.mpr hall, List.length_take]
    have hlt := (List.getElem?_eq_some_iff.mp hi).1
    omega
  have hle : (rows.take (i + 1)).countP (fun other => key row ≤ key other) ≤
      upTo key rows (key row) := (List.take_sublist _ _).countP_le
  omega

theorem upTo_le_ahead (rows : List α) {v w : κ} (h : v < w) : upTo key rows w ≤ ahead key rows v :=
  List.countP_mono_left fun _ _ hw => decide_eq_true (lt_of_lt_of_le h (of_decide_eq_true hw))

theorem key_of_between {rows : List α} (h : rows.Pairwise (later key)) {i : Nat} {row : α}
    (hi : rows[i]? = some row) {v : κ} (hge : ahead key rows v ≤ i) (hlt : i < upTo key rows v) :
    key row = v := by
  have hbegin := ahead_le_of_getElem h hi
  have hfinish := lt_upTo_of_getElem h hi
  rcases lt_trichotomy (key row) v with hless | hsame | hmore
  · have hle : upTo key rows v ≤ ahead key rows (key row) := upTo_le_ahead rows hless
    omega
  · exact hsame
  · have hle : upTo key rows (key row) ≤ ahead key rows v := upTo_le_ahead rows hmore
    omega

end Order

section Cuts

variable {key} {rows rows' : List α}

def Apart (key : α → κ) (rows : List α) (m : Nat) : Prop :=
  ∀ row ∈ rows, m ≤ ahead key rows (key row) ∨ upTo key rows (key row) ≤ m

theorem ahead_perm (h : rows.Perm rows') (v : κ) : ahead key rows v = ahead key rows' v :=
  h.countP_eq _

theorem upTo_perm (h : rows.Perm rows') (v : κ) : upTo key rows v = upTo key rows' v :=
  h.countP_eq _

theorem Apart.perm (h : rows.Perm rows') {m : Nat} (hapart : Apart key rows m) :
    Apart key rows' m := by
  intro row hrow
  rw [← ahead_perm h, ← upTo_perm h]
  exact hapart row (h.mem_iff.mpr hrow)

theorem take_perm (h : rows.Perm rows') (hrows : rows.Pairwise (later key))
    (hrows' : rows'.Pairwise (later key)) {m : Nat} (hapart : Apart key rows m) :
    (rows.take m).Perm (rows'.take m) := by
  cases m with
  | zero => exact .refl _
  | succ i =>
      cases hi : rows[i]? with
      | none =>
          have hle : rows.length ≤ i + 1 := Nat.le_succ_of_le (List.getElem?_eq_none_iff.mp hi)
          rw [List.take_of_length_le hle, List.take_of_length_le (h.length_eq ▸ hle)]
          exact h
      | some row =>
          have hahead := ahead_le_of_getElem hrows hi
          have hupTo := lt_upTo_of_getElem hrows hi
          have hcut : upTo key rows (key row) = i + 1 := by
            rcases hapart row (List.mem_of_getElem? hi) with hbefore | hafter
            · omega
            · omega
          rw [← hcut, take_upTo hrows, upTo_perm h, take_upTo hrows']
          exact h.filter _

end Cuts

section Pages

-- LIMIT and OFFSET
def page (rows : List α) (limit offset : Nat) : List α :=
  (rows.drop offset).take limit

-- the pages that a client asks for one after the other, each of them a query of its own
def walk (answers : Nat → List α) (limit : Nat) : Nat → List α
  | 0 => []
  | n + 1 => walk answers limit n ++ page (answers n) limit (n * limit)

variable {key}

theorem take_append_page (rows : List α) (limit n : Nat) :
    rows.take (n * limit) ++ page rows limit (n * limit) = rows.take ((n + 1) * limit) := by
  rw [page, Nat.succ_mul, List.take_add]

theorem walk_perm {rows : List α} {answers : Nat → List α} {limit : Nat}
    (hrows : rows.Pairwise (later key)) (hanswers : ∀ k, (answers k).Pairwise (later key))
    (hperm : ∀ k, rows.Perm (answers k)) (hapart : ∀ k, Apart key rows (k * limit)) (n : Nat) :
    (walk answers limit n).Perm (rows.take (n * limit)) := by
  induction n with
  | zero =>
      rw [Nat.zero_mul, List.take_zero]
      exact .refl _
  | succ n ih =>
      have hhere := take_perm (hperm n) hrows (hanswers n) (hapart n)
      have hnext := take_perm (hperm n) hrows (hanswers n) (hapart (n + 1))
      rw [walk]
      refine .trans ?_ hnext.symm
      rw [← take_append_page]
      exact (ih.trans hhere).append_right _

theorem mem_page_iff {rows : List α} {limit offset : Nat} {row : α} :
    row ∈ page rows limit offset ↔
      ∃ i, offset ≤ i ∧ i < offset + limit ∧ rows[i]? = some row := by
  rw [page, List.mem_iff_getElem?]
  constructor
  · rintro ⟨j, hj⟩
    have hlt := (List.getElem?_eq_some_iff.mp hj).1
    rw [List.length_take] at hlt
    rw [List.getElem?_take_of_lt (by omega), List.getElem?_drop] at hj
    exact ⟨offset + j, by omega, by omega, hj⟩
  · rintro ⟨i, hle, hlt, hi⟩
    refine ⟨i - offset, ?_⟩
    rw [List.getElem?_take_of_lt (by omega), List.getElem?_drop, Nat.add_sub_cancel' hle]
    exact hi

theorem sublist_walk {answers : Nat → List α} {limit : Nat} {k n : Nat} (h : k < n) :
    (page (answers k) limit (k * limit)).Sublist (walk answers limit n) := by
  induction n with
  | zero => omega
  | succ n ih =>
      rw [walk]
      rcases Nat.lt_or_ge k n with hlt | hge
      · exact (ih hlt).trans (List.sublist_append_left _ _)
      · have hsame : k = n := by omega
        subst hsame
        exact List.sublist_append_right _ _

theorem consecutive_sublist_walk {answers : Nat → List α} {limit : Nat} {k n : Nat}
    (h : k + 1 < n) :
    (page (answers k) limit (k * limit) ++
      page (answers (k + 1)) limit ((k + 1) * limit)).Sublist (walk answers limit n) := by
  induction n with
  | zero => omega
  | succ n ih =>
      rw [walk]
      rcases Nat.lt_or_ge (k + 1) n with hlt | hge
      · exact (ih hlt).trans (List.sublist_append_left _ _)
      · have hsame : k + 1 = n := by omega
        subst hsame
        exact (sublist_walk (Nat.lt_succ_self k)).append (.refl _)

end Pages

section Swap

variable {key} {rows : List α}

def swapAt (rows : List α) (i : Nat) (a b : α) : List α :=
  rows.take i ++ b :: a :: rows.drop (i + 2)

theorem eq_around {i : Nat} {a b : α} (ha : rows[i]? = some a) (hb : rows[i + 1]? = some b) :
    rows = rows.take i ++ a :: b :: rows.drop (i + 2) := by
  obtain ⟨hi, rfl⟩ := List.getElem?_eq_some_iff.mp ha
  obtain ⟨hi', rfl⟩ := List.getElem?_eq_some_iff.mp hb
  rw [← List.drop_eq_getElem_cons hi', ← List.drop_eq_getElem_cons hi, List.take_append_drop]

theorem perm_swapAt {i : Nat} {a b : α} (ha : rows[i]? = some a) (hb : rows[i + 1]? = some b) :
    rows.Perm (swapAt rows i a b) := by
  have hrows := eq_around ha hb
  rw [swapAt]
  exact (List.Perm.of_eq hrows).trans ((List.Perm.swap b a _).append_left _)

theorem ordered_swapAt {i : Nat} {a b : α} (h : rows.Pairwise (later key))
    (ha : rows[i]? = some a) (hb : rows[i + 1]? = some b) (hkey : key a = key b) :
    (swapAt rows i a b).Pairwise (later key) := by
  have hrows := eq_around ha hb
  rw [hrows] at h
  rw [swapAt]
  simp only [List.pairwise_append, List.pairwise_cons, List.mem_cons, forall_eq_or_imp] at h ⊢
  obtain ⟨hfront, ⟨⟨-, haback⟩, hbback, hback⟩, hcross⟩ := h
  refine ⟨hfront, ⟨⟨?_, hbback⟩, haback, hback⟩, fun x hx => ?_⟩
  · exact le_of_eq hkey
  · obtain ⟨hxa, hxb, hxback⟩ := hcross x hx
    exact ⟨hxb, hxa, hxback⟩

theorem getElem?_swapAt {i : Nat} {a b : α} (hi : i < rows.length) :
    (swapAt rows i a b)[i + 1]? = some a := by
  have hlength : (rows.take i).length = i := List.length_take_of_le (Nat.le_of_lt hi)
  rw [swapAt, List.getElem?_append_right (by omega), hlength, Nat.add_sub_cancel_left]
  rfl

theorem exists_repeated {rows : List α} {limit n : Nat} (hlimit : 0 < limit)
    (hrows : rows.Pairwise (later key)) {k : Nat} (hk : k < n)
    (hcut : ¬ Apart key rows (k * limit)) :
    ∃ answers : Nat → List α, (∀ j, (answers j).Pairwise (later key)) ∧
      (∀ j, rows.Perm (answers j)) ∧ ¬ (walk answers limit n).Nodup := by
  simp only [Apart, not_forall, not_or, Nat.not_le] at hcut
  obtain ⟨row, hrow, hahead, hupTo⟩ := hcut
  obtain ⟨j, rfl⟩ : ∃ j, k = j + 1 := by
    cases k with
    | zero => exact absurd hahead (by omega)
    | succ j => exact ⟨j, rfl⟩
  obtain ⟨i, hi⟩ : ∃ i, (j + 1) * limit = i + 1 := by
    cases hm : (j + 1) * limit with
    | zero => rw [hm] at hahead; omega
    | succ i => exact ⟨i, rfl⟩
  rw [hi] at hahead hupTo
  have hlength : upTo key rows (key row) ≤ rows.length := List.countP_le_length
  obtain ⟨a, ha⟩ : ∃ a, rows[i]? = some a := ⟨_, List.getElem?_eq_getElem (by omega)⟩
  obtain ⟨b, hb⟩ : ∃ b, rows[i + 1]? = some b := ⟨_, List.getElem?_eq_getElem (by omega)⟩
  have hkeyA : key a = key row := key_of_between hrows ha (by omega) (by omega)
  have hkeyB : key b = key row := key_of_between hrows hb (by omega) (by omega)
  refine ⟨fun m => if m ≤ j then rows else swapAt rows i a b, fun m => ?_, fun m => ?_, ?_⟩
  · dsimp only
    split
    · exact hrows
    · exact ordered_swapAt hrows ha hb (hkeyA.trans hkeyB.symm)
  · dsimp only
    split
    · exact .refl _
    · exact perm_swapAt ha hb
  · intro hwalk
    have hpages := (consecutive_sublist_walk hk).nodup hwalk
    have hexpand : (j + 1) * limit = j * limit + limit := Nat.succ_mul j limit
    refine (List.nodup_append.mp hpages).2.2 a ?_ a ?_ rfl
    · rw [if_pos (Nat.le_refl j)]
      exact mem_page_iff.mpr ⟨i, by omega, by omega, ha⟩
    · rw [if_neg (Nat.not_succ_le_self j), hi]
      exact mem_page_iff.mpr ⟨i + 1, Nat.le_refl _, by omega, getElem?_swapAt (by omega)⟩

end Swap

section Plans

open Query (Scan)

def keepFirst (scan : Scan) : {β : Type} → List β → List β
  | _, [] => []
  | _, row :: table => row :: scan.rows table

theorem perm_keepFirst (scan : Scan) {β : Type} (table : List β) :
    (keepFirst scan table).Perm table := by
  cases table with
  | nil => exact .nil
  | cons row table => exact (scan.perm table).cons row

def swapFirst : {β : Type} → List β → List β
  | _, first :: second :: table => second :: first :: table
  | _, table => table

theorem perm_swapFirst {β : Type} (table : List β) : (swapFirst table).Perm table := by
  cases table with
  | nil => exact .nil
  | cons first table =>
      cases table with
      | nil => exact .refl _
      | cons second table => exact .swap _ _ _

theorem exists_scan {rows rows' : List α} (h : rows.Perm rows') :
    ∃ scan : Scan, scan.rows rows = rows' := by
  induction h with
  | nil => exact ⟨Query.inTableOrder, rfl⟩
  | cons x h ih =>
      obtain ⟨scan, hscan⟩ := ih
      exact ⟨⟨keepFirst scan, perm_keepFirst scan⟩, congrArg (List.cons x) hscan⟩
  | swap x y l => exact ⟨⟨swapFirst, perm_swapFirst⟩, rfl⟩
  | trans h h' ih ih' =>
      obtain ⟨scan, hscan⟩ := ih
      obtain ⟨scan', hscan'⟩ := ih'
      refine ⟨⟨fun table => scan'.rows (scan.rows table), fun table => ?_⟩, ?_⟩
      · exact (scan'.perm _).trans (scan.perm table)
      · exact (congrArg (fun table => scan'.rows table) hscan).trans hscan'

theorem exists_select {before : α → α → Prop} [DecidableRel before] {table rows : List α}
    {p : α → Bool} (hrows : rows.Pairwise before) (hperm : (table.filter p).Perm rows) :
    ∃ scan : Scan, Query.select scan table p before = rows := by
  have htable : table.Perm (rows ++ table.filter fun row => !p row) :=
    (List.filter_append_perm p table).symm.trans (hperm.append_right _)
  obtain ⟨scan, hscan⟩ := exists_scan htable
  have hall : ∀ row ∈ rows, p row = true := fun row hrow =>
    (List.mem_filter.mp (hperm.mem_iff.mpr hrow)).2
  refine ⟨scan, ?_⟩
  rw [Query.select, hscan, List.filter_append, List.filter_eq_self.mpr hall, List.filter_filter]
  have hnone : (table.filter fun row => p row && !p row) = [] := by
    simp
  rw [hnone, List.append_nil]
  exact List.Pairwise.insertionSort_eq hrows

end Plans

section Growth

variable {key}

theorem getElem?_ahead {rows : List α} (h : rows.Pairwise (later key)) {row : α}
    (hrow : row ∈ rows) (hkey : ∀ other ∈ rows, key other = key row → other = row) :
    rows[ahead key rows (key row)]? = some row := by
  obtain ⟨i, hi⟩ := List.mem_iff_getElem?.mp hrow
  have hbegin := ahead_le_of_getElem h hi
  have hfinish := lt_upTo_of_getElem h hi
  have hlength := (List.getElem?_eq_some_iff.mp hi).1
  obtain ⟨first, hfirst⟩ : ∃ first, rows[ahead key rows (key row)]? = some first :=
    ⟨_, List.getElem?_eq_getElem (by omega)⟩
  have hsame := key_of_between h hfirst (Nat.le_refl _) (by omega)
  rw [hfirst, hkey first (List.mem_of_getElem? hfirst) hsame]

theorem exists_reaching {place : Nat → Nat} {limit n : Nat}
    (hmoves : ∀ k < n, place k ≤ place (k + 1)) (hend : place n < (n + 1) * limit) :
    ∃ k ≤ n, k * limit ≤ place k ∧ place k < (k + 1) * limit := by
  induction n with
  | zero =>
      refine ⟨0, Nat.le_refl 0, ?_, hend⟩
      rw [Nat.zero_mul]
      exact Nat.zero_le _
  | succ n ih =>
      rcases Nat.lt_or_ge (place n) ((n + 1) * limit) with hlt | hge
      · obtain ⟨k, hk, hreach⟩ := ih (fun k hk => hmoves k (Nat.lt_succ_of_lt hk)) hlt
        exact ⟨k, Nat.le_succ_of_le hk, hreach⟩
      · exact ⟨n + 1, Nat.le_refl _, Nat.le_trans hge (hmoves n (Nat.lt_succ_self n)), hend⟩

theorem mem_page_of_growth {answers : Nat → List α} {limit n : Nat} {row : α}
    (hordered : ∀ k ≤ n, (answers k).Pairwise (later key))
    (hrow : ∀ k ≤ n, row ∈ answers k)
    (hkey : ∀ k ≤ n, ∀ other ∈ answers k, key other = key row → other = row)
    (hgrowth : ∀ k < n,
      ahead key (answers k) (key row) ≤ ahead key (answers (k + 1)) (key row))
    (hend : (answers n).length ≤ (n + 1) * limit) :
    ∃ k ≤ n, row ∈ page (answers k) limit (k * limit) := by
  have hplace : ∀ k ≤ n, (answers k)[ahead key (answers k) (key row)]? = some row := fun k hk =>
    getElem?_ahead (hordered k hk) (hrow k hk) (hkey k hk)
  have hlast : ahead key (answers n) (key row) < (n + 1) * limit := by
    have hlt := (List.getElem?_eq_some_iff.mp (hplace n (Nat.le_refl n))).1
    omega
  obtain ⟨k, hk, hle, hlt⟩ := exists_reaching hgrowth hlast
  refine ⟨k, hk, mem_page_iff.mpr ⟨_, hle, ?_, hplace k hk⟩⟩
  rw [← Nat.succ_mul]
  exact hlt

end Growth

end Paging
