import Mathlib.Logic.Function.Basic

namespace RowStore

-- a locked row carries the transaction that holds it and its uncommitted version
structure Table (K V : Type) where
  keys : List K
  committed : K → Option V
  lock : K → Option (Nat × V)

namespace Table

variable {K V : Type}

def empty : Table K V :=
  ⟨[], fun _ => none, fun _ => none⟩

def view (tb : Table K V) (t : Nat) (k : K) : Option V :=
  match tb.lock k with
  | some (u, v) => if u = t then some v else tb.committed k
  | none => tb.committed k

def blocked (tb : Table K V) (t : Nat) (k : K) : Prop :=
  ∃ u v, tb.lock k = some (u, v) ∧ u ≠ t

instance (tb : Table K V) (t : Nat) (k : K) : Decidable (tb.blocked t k) :=
  match h : tb.lock k with
  | some (u, v) =>
      if hu : u = t then
        isFalse (by rintro ⟨u', v', he, hne⟩; rw [h] at he; cases he; exact hne hu)
      else isTrue ⟨u, v, h, hu⟩
  | none => isFalse (by rintro ⟨u', v', he, _⟩; rw [h] at he; cases he)

section Operations

variable [DecidableEq K]

def setLock (tb : Table K V) (t : Nat) (k : K) (v : V) : Table K V :=
  { tb with lock := Function.update tb.lock k (some (t, v)) }

-- SELECT ... WHERE key = k FOR UPDATE; a row that is not visible is not waited for
def getForUpdate (tb : Table K V) (t : Nat) (k : K) : Option (Option V × Table K V) :=
  match tb.view t k with
  | none => some (none, tb)
  | some v => if tb.blocked t k then none else some (some v, tb.setLock t k v)

def insert (tb : Table K V) (t : Nat) (k : K) (v : V) : Option (Table K V) :=
  match tb.committed k, tb.lock k with
  | none, none => some { tb.setLock t k v with keys := tb.keys.insert k }
  | _, _ => none

def matching (tb : Table K V) (t : Nat) (p : V → Bool) : List K :=
  tb.keys.filter fun k => (tb.view t k).any p

-- one row of an UPDATE: wait for the row lock, check the newest version again, write
def recheckRow (tb : Table K V) (t : Nat) (k : K) (p : V → Bool) (f : V → V) :
    Option (Option V × Table K V) :=
  if tb.blocked t k then none
  else
    match tb.view t k with
    | some v => if p v then some (some (f v), tb.setLock t k (f v)) else some (none, tb)
    | none => some (none, tb)

-- UPDATE ... WHERE key = k AND p: a row whose visible version fails p is not waited for
def updateByKey (tb : Table K V) (t : Nat) (k : K) (p : V → Bool) (f : V → V) :
    Option (Option V × Table K V) :=
  if (tb.view t k).any p then tb.recheckRow t k p f else some (none, tb)

end Operations

def commit (tb : Table K V) (t : Nat) : Table K V where
  keys := tb.keys
  committed k :=
    match tb.lock k with
    | some (u, v) => if u = t then some v else tb.committed k
    | none => tb.committed k
  lock k :=
    match tb.lock k with
    | some (u, v) => if u = t then none else some (u, v)
    | none => none

def rollback (tb : Table K V) (t : Nat) : Table K V :=
  { tb with
    lock := fun k =>
      match tb.lock k with
      | some (u, v) => if u = t then none else some (u, v)
      | none => none }

theorem view_of_lock {tb : Table K V} {t : Nat} {k : K} {v : V} (h : tb.lock k = some (t, v)) :
    tb.view t k = some v := by
  simp [view, h]

theorem view_of_not_held {tb : Table K V} {t : Nat} {k : K}
    (h : ∀ v, tb.lock k ≠ some (t, v)) : tb.view t k = tb.committed k := by
  unfold view
  split
  · rename_i u v hk
    have hu : u ≠ t := by rintro rfl; exact h v hk
    simp [hu]
  · rfl

theorem view_cases (tb : Table K V) (t : Nat) (k : K) :
    (∃ v, tb.lock k = some (t, v) ∧ tb.view t k = some v) ∨
      ((∀ v, tb.lock k ≠ some (t, v)) ∧ tb.view t k = tb.committed k) := by
  by_cases h : ∃ v, tb.lock k = some (t, v)
  · obtain ⟨v, hv⟩ := h
    exact .inl ⟨v, hv, view_of_lock hv⟩
  · have hn : ∀ v, tb.lock k ≠ some (t, v) := fun v hv => h ⟨v, hv⟩
    exact .inr ⟨hn, view_of_not_held hn⟩

theorem not_blocked_iff {tb : Table K V} {t : Nat} {k : K} :
    ¬ tb.blocked t k ↔ tb.lock k = none ∨ ∃ v, tb.lock k = some (t, v) := by
  constructor
  · intro h
    cases hk : tb.lock k with
    | none => exact .inl rfl
    | some p =>
        obtain ⟨u, v⟩ := p
        refine .inr ⟨v, ?_⟩
        by_cases hu : u = t
        · rw [hu]
        · exact absurd ⟨u, v, hk, hu⟩ h
  · rintro (h | ⟨v, h⟩) ⟨u, w, hk, hu⟩
    · rw [h] at hk; cases hk
    · rw [h] at hk; cases hk; exact hu rfl

section Operations

variable [DecidableEq K]

@[simp] theorem setLock_committed (tb : Table K V) (t : Nat) (k : K) (v : V) :
    (tb.setLock t k v).committed = tb.committed := rfl

@[simp] theorem setLock_keys (tb : Table K V) (t : Nat) (k : K) (v : V) :
    (tb.setLock t k v).keys = tb.keys := rfl

@[simp] theorem setLock_lock_self (tb : Table K V) (t : Nat) (k : K) (v : V) :
    (tb.setLock t k v).lock k = some (t, v) := by
  simp [setLock]

theorem setLock_lock_ne (tb : Table K V) (t : Nat) {k j : K} (v : V) (h : j ≠ k) :
    (tb.setLock t k v).lock j = tb.lock j := by
  simp [setLock, h]

theorem setLock_lock_of_other {tb : Table K V} {t u : Nat} {k j : K} {v w : V}
    (hb : ¬ tb.blocked t k) (hu : u ≠ t) :
    (tb.setLock t k v).lock j = some (u, w) ↔ tb.lock j = some (u, w) := by
  by_cases hj : j = k
  · subst hj
    rw [setLock_lock_self]
    rcases not_blocked_iff.mp hb with h | ⟨x, h⟩ <;> rw [h] <;> simp [hu.symm]
  · rw [setLock_lock_ne tb t v hj]

theorem getForUpdate_cases {tb tb' : Table K V} {t : Nat} {k : K} {r : Option V}
    (h : tb.getForUpdate t k = some (r, tb')) :
    (r = none ∧ tb.view t k = none ∧ tb' = tb) ∨
      ∃ v, r = some v ∧ tb.view t k = some v ∧ ¬ tb.blocked t k ∧ tb' = tb.setLock t k v := by
  unfold getForUpdate at h
  split at h
  · cases h; exact .inl ⟨rfl, ‹_›, rfl⟩
  · split at h
    · cases h
    · cases h; exact .inr ⟨_, rfl, ‹_›, ‹_›, rfl⟩

theorem insert_cases {tb tb' : Table K V} {t : Nat} {k : K} {v : V}
    (h : tb.insert t k v = some tb') :
    tb.committed k = none ∧ tb.lock k = none ∧
      tb' = { tb.setLock t k v with keys := tb.keys.insert k } := by
  unfold insert at h
  split at h
  · exact ⟨‹_›, ‹_›, (Option.some.inj h).symm⟩
  · cases h

theorem recheckRow_cases {tb tb' : Table K V} {t : Nat} {k : K} {p : V → Bool} {f : V → V}
    {r : Option V} (h : tb.recheckRow t k p f = some (r, tb')) :
    ¬ tb.blocked t k ∧
      ((r = none ∧ (∀ v, tb.view t k = some v → p v = false) ∧ tb' = tb) ∨
        ∃ v, tb.view t k = some v ∧ p v = true ∧ r = some (f v) ∧
          tb' = tb.setLock t k (f v)) := by
  unfold recheckRow at h
  split at h
  · cases h
  · refine ⟨‹_›, ?_⟩
    split at h
    · rename_i v hv
      split at h
      · cases h; exact .inr ⟨v, hv, ‹_›, rfl, rfl⟩
      · cases h
        refine .inl ⟨rfl, fun w hw => ?_, rfl⟩
        rw [hv] at hw
        cases hw
        simpa using ‹¬ p v = true›
    · rename_i hv
      cases h
      exact .inl ⟨rfl, fun w hw => by simp [hv] at hw, rfl⟩

theorem updateByKey_cases {tb tb' : Table K V} {t : Nat} {k : K} {p : V → Bool} {f : V → V}
    {r : Option V} (h : tb.updateByKey t k p f = some (r, tb')) :
    (r = none ∧ tb' = tb) ∨
      ∃ v, tb.view t k = some v ∧ p v = true ∧ ¬ tb.blocked t k ∧ r = some (f v) ∧
        tb' = tb.setLock t k (f v) := by
  unfold updateByKey at h
  split at h
  · obtain ⟨hb, ⟨hr, _, ht⟩ | ⟨v, hv, hp, hr, ht⟩⟩ := recheckRow_cases h
    · exact .inl ⟨hr, ht⟩
    · exact .inr ⟨v, hv, hp, hb, hr, ht⟩
  · cases h; exact .inl ⟨rfl, rfl⟩

theorem updateByKey_none {tb tb' : Table K V} {t : Nat} {k : K} {p : V → Bool} {f : V → V}
    (h : tb.updateByKey t k p f = some (none, tb')) {v : V} (hv : tb.view t k = some v) :
    p v = false := by
  unfold updateByKey at h
  split at h
  · obtain ⟨_, ⟨_, hno, _⟩ | ⟨w, _, _, hr, _⟩⟩ := recheckRow_cases h
    · exact hno v hv
    · cases hr
  · rename_i hany
    simpa [hv] using hany

end Operations

theorem commit_committed_of_lock {tb : Table K V} {t : Nat} {k : K} {v : V}
    (h : tb.lock k = some (t, v)) : (tb.commit t).committed k = some v := by
  simp [commit, h]

theorem commit_committed_of_not_held {tb : Table K V} {t : Nat} {k : K}
    (h : ∀ v, tb.lock k ≠ some (t, v)) : (tb.commit t).committed k = tb.committed k := by
  simp only [commit]
  split
  · rename_i u v hk
    have hu : u ≠ t := by rintro rfl; exact h v hk
    simp [hu]
  · rfl

theorem rollback_lock (tb : Table K V) (t u : Nat) (k : K) (v : V) :
    (tb.rollback t).lock k = some (u, v) ↔ tb.lock k = some (u, v) ∧ u ≠ t := by
  simp only [rollback]
  split
  · rename_i w x hk
    by_cases hw : w = t
    · subst hw
      simp only [if_true, reduceCtorEq, hk, Option.some.injEq, Prod.mk.injEq, false_iff]
      rintro ⟨⟨rfl, _⟩, hne⟩
      exact hne rfl
    · simp only [hw, if_false, hk, Option.some.injEq, Prod.mk.injEq]
      constructor
      · rintro ⟨rfl, rfl⟩; exact ⟨⟨rfl, rfl⟩, hw⟩
      · exact fun h => h.1
  · rename_i hk
    simp [hk]

theorem commit_lock (tb : Table K V) (t u : Nat) (k : K) (v : V) :
    (tb.commit t).lock k = some (u, v) ↔ tb.lock k = some (u, v) ∧ u ≠ t :=
  rollback_lock tb t u k v

@[simp] theorem rollback_committed (tb : Table K V) (t : Nat) :
    (tb.rollback t).committed = tb.committed := rfl

section Held

def NoLocks (tb : Table K V) (t : Nat) : Prop :=
  ∀ k v, tb.lock k ≠ some (t, v)

def OnlyLock (tb : Table K V) (t : Nat) (k : K) : Prop :=
  ∀ k' v, tb.lock k' = some (t, v) → k' = k

def SameLocks (tb tb' : Table K V) (u : Nat) : Prop :=
  ∀ k v, tb'.lock k = some (u, v) ↔ tb.lock k = some (u, v)

variable {tb tb' : Table K V} {t u : Nat} {k : K}

theorem SameLocks.refl (tb : Table K V) (u : Nat) : SameLocks tb tb u :=
  fun _ _ => Iff.rfl

theorem SameLocks.noLocks (h : SameLocks tb tb' u) (hn : tb.NoLocks u) : tb'.NoLocks u :=
  fun k v hl => hn k v ((h k v).mp hl)

theorem SameLocks.onlyLock (h : SameLocks tb tb' u) (ho : tb.OnlyLock u k) : tb'.OnlyLock u k :=
  fun k' v hl => ho k' v ((h k' v).mp hl)

theorem NoLocks.view (h : tb.NoLocks t) (k : K) : tb.view t k = tb.committed k :=
  view_of_not_held (h k)

theorem NoLocks.onlyLock (h : tb.NoLocks t) (k : K) : tb.OnlyLock t k :=
  fun k' v hl => absurd hl (h k' v)

theorem OnlyLock.setLock [DecidableEq K] (h : tb.OnlyLock t k) (v : V) :
    (tb.setLock t k v).OnlyLock t k := by
  intro k' w hl
  rcases eq_or_ne k' k with rfl | hne
  · rfl
  · rw [setLock_lock_ne _ _ _ hne] at hl
    exact h k' w hl

theorem sameLocks_setLock [DecidableEq K] {v : V} (hb : ¬ tb.blocked t k) (hu : u ≠ t) :
    SameLocks tb (tb.setLock t k v) u :=
  fun _ _ => setLock_lock_of_other hb hu

theorem noLocks_rollback (tb : Table K V) (t : Nat) : (tb.rollback t).NoLocks t :=
  fun k v hl => ((rollback_lock tb t t k v).mp hl).2 rfl

theorem noLocks_commit (tb : Table K V) (t : Nat) : (tb.commit t).NoLocks t :=
  noLocks_rollback tb t

theorem sameLocks_rollback (tb : Table K V) (hu : u ≠ t) : SameLocks tb (tb.rollback t) u :=
  fun k v => (rollback_lock tb t u k v).trans (and_iff_left hu)

theorem sameLocks_commit (tb : Table K V) (hu : u ≠ t) : SameLocks tb (tb.commit t) u :=
  sameLocks_rollback tb hu

end Held

section Versions

def Version (tb : Table K V) (k : K) (v : V) : Prop :=
  tb.committed k = some v ∨ ∃ t, tb.lock k = some (t, v)

def All (P : K → V → Prop) (tb : Table K V) : Prop :=
  ∀ k v, tb.Version k v → P k v

theorem not_version_empty {k : K} {v : V} : ¬ (empty : Table K V).Version k v := by
  rintro (hc | ⟨_, hl⟩)
  · cases hc
  · cases hl

theorem version_of_view {tb : Table K V} {t : Nat} {k : K} {v : V} (h : tb.view t k = some v) :
    tb.Version k v := by
  rcases view_cases tb t k with ⟨w, hl, hw⟩ | ⟨_, hw⟩
  · rw [hw] at h
    cases h
    exact .inr ⟨t, hl⟩
  · exact .inl (hw.symm.trans h)

theorem version_of_commit {tb : Table K V} {t : Nat} {k : K} {v : V}
    (h : (tb.commit t).Version k v) : tb.Version k v := by
  rcases h with hc | ⟨u, hl⟩
  · exact version_of_view hc
  · exact .inr ⟨u, ((commit_lock tb t u k v).mp hl).1⟩

theorem version_of_rollback {tb : Table K V} {t : Nat} {k : K} {v : V}
    (h : (tb.rollback t).Version k v) : tb.Version k v := by
  rcases h with hc | ⟨u, hl⟩
  · exact .inl hc
  · exact .inr ⟨u, ((rollback_lock tb t u k v).mp hl).1⟩

theorem All.commit {P : K → V → Prop} {tb : Table K V} (h : tb.All P) (t : Nat) :
    (tb.commit t).All P :=
  fun k v hv => h k v (version_of_commit hv)

theorem All.rollback {P : K → V → Prop} {tb : Table K V} (h : tb.All P) (t : Nat) :
    (tb.rollback t).All P :=
  fun k v hv => h k v (version_of_rollback hv)

theorem mem_matching {tb : Table K V} {t : Nat} {p : V → Bool} {k : K} {v : V}
    (hk : k ∈ tb.keys) (hv : tb.view t k = some v) (hp : p v = true) : k ∈ tb.matching t p :=
  List.mem_filter.mpr ⟨hk, by simp [hv, hp]⟩

variable [DecidableEq K]

theorem version_of_setLock {tb : Table K V} {t : Nat} {k j : K} {v w : V}
    (h : (tb.setLock t k v).Version j w) : j = k ∧ w = v ∨ tb.Version j w := by
  rcases h with hc | ⟨u, hl⟩
  · exact .inr (.inl hc)
  · rcases eq_or_ne j k with rfl | hne
    · rw [setLock_lock_self] at hl
      cases hl
      exact .inl ⟨rfl, rfl⟩
    · rw [setLock_lock_ne tb t v hne] at hl
      exact .inr (.inr ⟨u, hl⟩)

theorem All.setLock {P : K → V → Prop} {tb : Table K V} (h : tb.All P) {t : Nat} {k : K} {v : V}
    (hv : P k v) : (tb.setLock t k v).All P := by
  intro j w hw
  rcases version_of_setLock hw with ⟨rfl, rfl⟩ | hw
  · exact hv
  · exact h j w hw

theorem All.insert {P : K → V → Prop} {tb tb' : Table K V} {t : Nat} {k : K} {v : V}
    (h : tb.All P) (hr : tb.insert t k v = some tb') (hv : P k v) : tb'.All P := by
  obtain ⟨_, _, rfl⟩ := insert_cases hr
  exact h.setLock hv

theorem All.recheckRow {P : K → V → Prop} {tb tb' : Table K V} {t : Nat} {k : K}
    {p : V → Bool} {f : V → V} {r : Option V} (h : tb.All P)
    (hr : tb.recheckRow t k p f = some (r, tb')) (hf : ∀ v, P k v → P k (f v)) : tb'.All P := by
  obtain ⟨_, ⟨_, _, rfl⟩ | ⟨v, hv, _, _, rfl⟩⟩ := recheckRow_cases hr
  · exact h
  · exact h.setLock (hf v (h k v (version_of_view hv)))

theorem All.updateByKey {P : K → V → Prop} {tb tb' : Table K V} {t : Nat} {k : K}
    {p : V → Bool} {f : V → V} {r : Option V} (h : tb.All P)
    (hr : tb.updateByKey t k p f = some (r, tb')) (hf : ∀ v, P k v → P k (f v)) : tb'.All P := by
  rcases updateByKey_cases hr with ⟨_, rfl⟩ | ⟨v, hv, _, _, _, rfl⟩
  · exact h
  · exact h.setLock (hf v (h k v (version_of_view hv)))

end Versions

end Table

end RowStore
