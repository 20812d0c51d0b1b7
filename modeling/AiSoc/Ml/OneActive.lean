import AiSoc.Ml.Registry

namespace Registry

open Permissions (Uuid Timestamp)
open RowStore
open Transition (Run anyStep execAll execWhile run_of_execAll_any run_of_execWhile_any)

section Invariant

def Active (registry : Table Uuid ModelRegistry) (modelName : String) (id : Uuid) : Prop :=
  ∃ model, registry.committed id = some model ∧ model.isActive modelName = true

def World.count (w : World) (modelName : String) : Nat :=
  (w.activationsOf modelName).length

structure Owns (registry : Table Uuid ModelRegistry) (t : Nat) (id : Uuid) (modelName : String)
    (p : Status → Prop) : Prop where
  own : ∃ model, registry.lock id = some (t, model) ∧ model.modelName = modelName ∧ p model.status
  fresh : registry.committed id = none
  others : ∀ k model, registry.lock k = some (t, model) → k ≠ id →
    model.modelName = modelName ∧ model.status = .inactive ∧
      ∃ old, registry.committed k = some old ∧ old.modelName = modelName

structure Covers (w : World) (t : Nat) (modelName : String) (todo : List Uuid) (seen : Nat) :
    Prop where
  upTo : seen ≤ w.count modelName
  covered : w.count modelName = seen → ∀ k, Active w.registry modelName k →
    k ∈ todo ∨ ∃ model, w.registry.lock k = some (t, model)

def Task.Holds (w : World) (t : Nat) : Task → Prop
  | .idle => w.registry.NoLocks t
  | .finished => w.registry.NoLocks t
  | .registered id modelName =>
      Owns w.registry t id modelName (· ≠ .active) ∧ w.registry.OnlyLock t id
  | .failing id modelName =>
      Owns w.registry t id modelName (· ≠ .active) ∧ w.registry.OnlyLock t id
  | .deactivating id modelName _ todo seen =>
      Owns w.registry t id modelName (· ≠ .active) ∧ Covers w t modelName todo seen
  | .activated id modelName seen =>
      Owns w.registry t id modelName (· = .active) ∧ Covers w t modelName [] seen

structure Inv (w : World) : Prop where
  nodup : w.registry.keys.Nodup
  known : w.registry.All fun k _ => k ∈ w.registry.keys
  active : ∀ modelName k,
    Active w.registry modelName k ↔ (w.activationsOf modelName).head? = some k
  tasks : ∀ t, (w.tasks t).Holds w t

theorem inv_start : Inv start where
  nodup := List.nodup_nil
  known := fun _ _ h => absurd h Table.not_version_empty
  active := by
    intro modelName k
    constructor
    · rintro ⟨model, hmodel, _⟩
      cases hmodel
    · nofun
  tasks := fun _ => nofun

end Invariant

section Frame

structure Frame (w w' : World) (u : Nat) : Prop where
  lock : w.registry.SameLocks w'.registry u
  committed : ∀ k model, w.registry.lock k = some (u, model) →
    w'.registry.committed k = w.registry.committed k
  active : ∀ modelName,
    (w'.count modelName = w.count modelName ∧
      ∀ k, Active w'.registry modelName k → Active w.registry modelName k) ∨
    w.count modelName < w'.count modelName

variable {w w' : World} {u : Nat}

theorem Frame.owns (h : Frame w w' u) {id : Uuid} {modelName : String} {p : Status → Prop}
    (howns : Owns w.registry u id modelName p) : Owns w'.registry u id modelName p := by
  obtain ⟨model, hlock, hmodel⟩ := howns.own
  refine ⟨⟨model, (h.lock id model).mpr hlock, hmodel⟩, ?_, ?_⟩
  · rw [h.committed id model hlock]
    exact howns.fresh
  · intro k other hk hne
    have hold := (h.lock k other).mp hk
    rw [h.committed k other hold]
    exact howns.others k other hold hne

theorem Frame.covers (h : Frame w w' u) {modelName : String} {todo : List Uuid} {seen : Nat}
    (hcovers : Covers w u modelName todo seen) : Covers w' u modelName todo seen := by
  have hseen := hcovers.upTo
  rcases h.active modelName with ⟨hcount, hactive⟩ | hcount
  · refine ⟨by omega, fun heq k hk => ?_⟩
    rcases hcovers.covered (by omega) k (hactive k hk) with hmem | ⟨model, hlock⟩
    · exact .inl hmem
    · exact .inr ⟨model, (h.lock k model).mpr hlock⟩
  · refine ⟨by omega, fun heq => ?_⟩
    omega

theorem Frame.holds (h : Frame w w' u) {task : Task} (htask : task.Holds w u) :
    task.Holds w' u := by
  cases task with
  | idle => exact h.lock.noLocks htask
  | finished => exact h.lock.noLocks htask
  | registered id modelName => exact ⟨h.owns htask.1, h.lock.onlyLock htask.2⟩
  | failing id modelName => exact ⟨h.owns htask.1, h.lock.onlyLock htask.2⟩
  | deactivating id modelName trainedAt todo seen =>
      exact ⟨h.owns htask.1, h.covers htask.2⟩
  | activated id modelName seen => exact ⟨h.owns htask.1, h.covers htask.2⟩

theorem frame_setLock {t : Nat} {k : Uuid} {model : ModelRegistry} (hu : u ≠ t)
    (hfree : ¬ w.registry.blocked t k)
    (hlock : w'.registry.lock = (w.registry.setLock t k model).lock)
    (hcommitted : w'.registry.committed = w.registry.committed)
    (hactivations : w'.activations = w.activations) : Frame w w' u where
  lock := by
    intro j other
    rw [hlock]
    exact Table.setLock_lock_of_other hfree hu
  committed := by
    intro j other _
    rw [hcommitted]
  active := by
    intro modelName
    refine .inl ⟨?_, ?_⟩
    · rw [World.count, World.count, World.activationsOf, World.activationsOf, hactivations]
    · intro j hj
      rw [Active, hcommitted] at hj
      exact hj

theorem frame_rollback {t : Nat} (hu : u ≠ t)
    (hregistry : w'.registry = w.registry.rollback t)
    (hactivations : w'.activations = w.activations) : Frame w w' u where
  lock := hregistry ▸ Table.sameLocks_rollback w.registry hu
  committed := by
    intro k model _
    rw [hregistry, Table.rollback_committed]
  active := by
    intro modelName
    refine .inl ⟨?_, ?_⟩
    · rw [World.count, World.count, World.activationsOf, World.activationsOf, hactivations]
    · intro k hk
      rw [Active, hregistry, Table.rollback_committed] at hk
      exact hk

theorem committed_commit_of_lock {t : Nat} {k : Uuid} {model : ModelRegistry}
    (hk : w.registry.lock k = some (u, model)) (hu : u ≠ t) :
    (w.registry.commit t).committed k = w.registry.committed k := by
  apply Table.commit_committed_of_not_held
  intro other hother
  rw [hk] at hother
  exact hu (Prod.mk.inj (Option.some.inj hother)).1

theorem frame_commit {t : Nat} (hu : u ≠ t) (hregistry : w'.registry = w.registry.commit t)
    (hactive : ∀ modelName,
      (w'.count modelName = w.count modelName ∧
        ∀ k, Active w'.registry modelName k → Active w.registry modelName k) ∨
      w.count modelName < w'.count modelName) : Frame w w' u where
  lock := hregistry ▸ Table.sameLocks_commit w.registry hu
  committed := by
    intro k model hk
    rw [hregistry]
    exact committed_commit_of_lock hk hu
  active := hactive

theorem frame_of_registry (hregistry : w'.registry = w.registry)
    (hactivations : w'.activations = w.activations) : Frame w w' u where
  lock := by
    intro k model
    rw [hregistry]
  committed := by
    intro k model _
    rw [hregistry]
  active := by
    intro modelName
    refine .inl ⟨?_, ?_⟩
    · rw [World.count, World.count, World.activationsOf, World.activationsOf, hactivations]
    · intro k hk
      rw [hregistry] at hk
      exact hk

theorem Inv.quiet (t : Nat) (h : Inv w) (hnodup : w'.registry.keys.Nodup)
    (hknown : w'.registry.All fun k _ => k ∈ w'.registry.keys)
    (hcommitted : w'.registry.committed = w.registry.committed)
    (hactivations : w'.activations = w.activations)
    (hothers : ∀ u, u ≠ t → Frame w w' u ∧ w'.tasks u = w.tasks u)
    (hown : (w'.tasks t).Holds w' t) : Inv w' where
  nodup := hnodup
  known := hknown
  active := by
    intro modelName k
    rw [Active, hcommitted, World.activationsOf, hactivations]
    exact h.active modelName k
  tasks := by
    intro u
    rcases eq_or_ne u t with rfl | hu
    · exact hown
    · obtain ⟨hframe, htask⟩ := hothers u hu
      rw [htask]
      exact hframe.holds (h.tasks u)

end Frame

section Steps

variable {w w' : World} {t : Nat}

theorem setTask_self (w : World) (t : Nat) (task : Task) : (w.setTask t task).tasks t = task :=
  Function.update_self _ _ _

theorem setTask_ne (w : World) {t u : Nat} (task : Task) (hu : u ≠ t) :
    (w.setTask t task).tasks u = w.tasks u :=
  Function.update_of_ne hu _ _

theorem frame_setTask (w : World) (t u : Nat) (task : Task) : Frame w (w.setTask t task) u :=
  frame_of_registry rfl rfl

theorem Inv.write {k : Uuid} {model : ModelRegistry} {task : Task} (h : Inv w)
    (hfree : ¬ w.registry.blocked t k) (hk : k ∈ w.registry.keys)
    (hown : task.Holds { w with registry := w.registry.setLock t k model } t) :
    Inv ({ w with registry := w.registry.setLock t k model }.setTask t task) := by
  refine Inv.quiet t h h.nodup ?_ rfl rfl ?_ ?_
  · exact h.known.setLock hk
  · intro u hu
    exact ⟨frame_setLock hu hfree rfl rfl rfl, setTask_ne _ task hu⟩
  · rw [setTask_self]
    exact (frame_setTask _ t t task).holds hown

theorem Inv.move {task : Task} (h : Inv w) (hown : task.Holds w t) : Inv (w.setTask t task) := by
  refine Inv.quiet t h h.nodup h.known rfl rfl ?_ ?_
  · intro u hu
    exact ⟨frame_setTask w t u task, setTask_ne w task hu⟩
  · rw [setTask_self]
    exact (frame_setTask _ t t task).holds hown

theorem isActive_iff {modelName : String} {model : ModelRegistry} :
    model.isActive modelName = true ↔ model.modelName = modelName ∧ model.status = .active := by
  simp [ModelRegistry.isActive]

theorem registered_status (training : Training) (modelName modelVersion : String)
    (createdAt : Timestamp) :
    (training.registered modelName modelVersion createdAt).modelName = modelName ∧
      (training.registered modelName modelVersion createdAt).status ≠ .active := by
  cases training with
  | isolationForest => exact ⟨rfl, nofun⟩
  | incidentClassifier now => exact ⟨rfl, nofun⟩

theorem Inv.create {id : Uuid} {training : Training} {modelName modelVersion : String}
    {createdAt : Timestamp} (h : Inv w) (hidle : w.tasks t = .idle)
    (hcreate : create w t id training modelName modelVersion createdAt = some w') : Inv w' := by
  rw [Registry.create] at hcreate
  split at hcreate
  · cases hcreate
  · obtain ⟨registry, hinsert, rfl⟩ := Option.map_eq_some_iff.mp hcreate
    obtain ⟨hcommitted, hlock, rfl⟩ := Table.insert_cases hinsert
    have hnone : w.registry.NoLocks t := by
      have htask := h.tasks t
      rw [hidle] at htask
      exact htask
    have hfree : ¬ w.registry.blocked t id := Table.not_blocked_iff.mpr (.inl hlock)
    obtain ⟨hname, hstatus⟩ := registered_status training modelName modelVersion createdAt
    have honly : ∀ k model, k ≠ id → (w.registry.setLock t id
        (training.registered modelName modelVersion createdAt)).lock k ≠ some (t, model) := by
      intro k model hne
      rw [Table.setLock_lock_ne _ _ _ hne]
      exact hnone k model
    refine Inv.quiet t h (List.Nodup.insert h.nodup) ?_ rfl rfl ?_ ?_
    · intro k model hversion
      have hversion : (w.registry.setLock t id
          (training.registered modelName modelVersion createdAt)).Version k model := hversion
      rcases Table.version_of_setLock hversion with ⟨rfl, _⟩ | hold
      · exact List.mem_insert_self
      · exact List.mem_insert_of_mem (h.known k model hold)
    · intro u hu
      exact ⟨frame_setLock hu hfree rfl rfl rfl, setTask_ne _ _ hu⟩
    · rw [setTask_self]
      refine ⟨⟨⟨_, Table.setLock_lock_self _ _ _ _, hname, hstatus⟩, hcommitted, ?_⟩, ?_⟩
      · intro k model hk hne
        exact absurd hk (honly k model hne)
      · intro k model hk
        by_contra hne
        exact honly k model hne hk

theorem Inv.beginDeactivate {id : Uuid} {modelName : String} (h : Inv w)
    (htask : w.tasks t = .registered id modelName) (trainedAt : Timestamp) :
    Inv (beginDeactivate w t id modelName trainedAt) := by
  have hholds := h.tasks t
  rw [htask] at hholds
  obtain ⟨howns, honly⟩ := hholds
  refine h.move ⟨howns, Nat.le_refl _, ?_⟩
  rintro - k ⟨model, hmodel, hactive⟩
  left
  have hne : k ≠ id := by
    rintro rfl
    rw [howns.fresh] at hmodel
    cases hmodel
  have hview : w.registry.view t k = some model := by
    rw [Table.view_of_not_held fun other hlock => hne (honly k other hlock)]
    exact hmodel
  have hknown := h.known k model (.inl hmodel)
  exact List.mem_filter.mpr ⟨Table.mem_matching hknown hview hactive, by simpa using hne⟩

theorem Inv.deactivate {id target : Uuid} {modelName : String} {trainedAt : Timestamp}
    {todo : List Uuid} {seen : Nat} {registry : Table Uuid ModelRegistry} (h : Inv w)
    (htask : w.tasks t = .deactivating id modelName trainedAt (target :: todo) seen)
    (hwrite : deactivate w.registry t target modelName = some registry) :
    Inv ({ w with registry := registry }.setTask t
      (.deactivating id modelName trainedAt todo seen)) := by
  have hholds := h.tasks t
  rw [htask] at hholds
  obtain ⟨howns, hcovers⟩ := hholds
  obtain ⟨⟨r, _⟩, hrow, rfl⟩ := Option.map_eq_some_iff.mp hwrite
  obtain ⟨hfree, ⟨_, hinactive, rfl⟩ | ⟨model, hview, hactive, _, rfl⟩⟩ :=
    Table.recheckRow_cases hrow
  · -- the row is no longer active, or was already written
    refine h.move ⟨howns, hcovers.upTo, ?_⟩
    intro hcount k hk
    rcases hcovers.covered hcount k hk with hmem | hlock
    · rcases List.mem_cons.mp hmem with rfl | hmem
      · rcases Table.view_cases w.registry t k with ⟨model, hlock, _⟩ | ⟨_, hview⟩
        · exact .inr ⟨model, hlock⟩
        · obtain ⟨model, hmodel, hactive⟩ := hk
          rw [hinactive model (hview.trans hmodel)] at hactive
          cases hactive
      · exact .inl hmem
    · exact .inr hlock
  · obtain ⟨hname, hstatus⟩ := isActive_iff.mp hactive
    obtain ⟨own, hown, hownName, hownStatus⟩ := howns.own
    have hne : target ≠ id := by
      rintro rfl
      rw [Table.view_of_lock hown] at hview
      obtain rfl := Option.some.inj hview
      exact hownStatus hstatus
    have hold : ∃ old, w.registry.committed target = some old ∧ old.modelName = modelName := by
      rcases Table.view_cases w.registry t target with ⟨locked, hlock, _⟩ | ⟨_, heq⟩
      · exact (howns.others target locked hlock hne).2.2
      · exact ⟨model, heq.symm.trans hview, hname⟩
    have hknown := h.known target model (Table.version_of_view hview)
    refine h.write hfree hknown ⟨⟨⟨own, ?_, hownName, hownStatus⟩, howns.fresh, ?_⟩, ?_⟩
    · rw [Table.setLock_lock_ne _ _ _ (Ne.symm hne)]
      exact hown
    · intro k other hk hkne
      rcases eq_or_ne k target with rfl | hkt
      · rw [Table.setLock_lock_self] at hk
        obtain rfl := (Prod.mk.inj (Option.some.inj hk)).2
        exact ⟨hname, rfl, hold⟩
      · rw [Table.setLock_lock_ne _ _ _ hkt] at hk
        exact howns.others k other hk hkne
    · refine ⟨hcovers.upTo, ?_⟩
      intro hcount k hk
      rcases eq_or_ne k target with rfl | hkt
      · exact .inr ⟨_, Table.setLock_lock_self _ _ _ _⟩
      · rcases hcovers.covered hcount k hk with hmem | ⟨other, hlock⟩
        · exact .inl ((List.mem_cons.mp hmem).resolve_left hkt)
        · exact .inr ⟨other, by rw [Table.setLock_lock_ne _ _ _ hkt]; exact hlock⟩

theorem flush_own {registry registry' : Table Uuid ModelRegistry} {id : Uuid} {modelName : String}
    {p : Status → Prop} {change : ModelRegistry → ModelRegistry}
    (howns : Owns registry t id modelName p) (hflush : flush registry t id change = some registry') :
    ∃ own, registry.lock id = some (t, own) ∧ own.modelName = modelName ∧
      ¬ registry.blocked t id ∧ registry' = registry.setLock t id (change own) := by
  obtain ⟨own, hown, hname, _⟩ := howns.own
  obtain ⟨⟨r, _⟩, hrow, rfl⟩ := Option.map_eq_some_iff.mp hflush
  obtain ⟨hfree, ⟨_, hnone, _⟩ | ⟨model, hview, _, _, rfl⟩⟩ := Table.recheckRow_cases hrow
  · exact absurd (hnone own (Table.view_of_lock hown)) (by decide)
  · rw [Table.view_of_lock hown] at hview
    obtain rfl := Option.some.inj hview
    exact ⟨own, hown, hname, hfree, rfl⟩

theorem Owns.flush {registry : Table Uuid ModelRegistry} {id : Uuid} {modelName : String}
    {p q : Status → Prop} {model : ModelRegistry} (howns : Owns registry t id modelName p)
    (hname : model.modelName = modelName) (hstatus : q model.status) :
    Owns (registry.setLock t id model) t id modelName q where
  own := ⟨model, Table.setLock_lock_self _ _ _ _, hname, hstatus⟩
  fresh := howns.fresh
  others := by
    intro k other hk hne
    rw [Table.setLock_lock_ne _ _ _ hne] at hk
    exact howns.others k other hk hne

theorem Inv.activate {id : Uuid} {modelName : String} {trainedAt : Timestamp} {seen : Nat}
    {registry : Table Uuid ModelRegistry} (h : Inv w)
    (htask : w.tasks t = .deactivating id modelName trainedAt [] seen)
    (hflush : flush w.registry t id (ModelRegistry.activated trainedAt) = some registry) :
    Inv ({ w with registry := registry }.setTask t (.activated id modelName seen)) := by
  have hholds := h.tasks t
  rw [htask] at hholds
  obtain ⟨howns, hcovers⟩ := hholds
  obtain ⟨own, hown, hname, hfree, rfl⟩ := flush_own howns hflush
  have hknown := h.known id own (.inr ⟨t, hown⟩)
  refine h.write hfree hknown ⟨howns.flush hname rfl, hcovers.upTo, ?_⟩
  intro hcount k hk
  rcases hcovers.covered hcount k hk with hmem | ⟨other, hlock⟩
  · exact absurd hmem List.not_mem_nil
  · have hne : k ≠ id := by
      rintro rfl
      obtain ⟨model, hmodel, _⟩ := hk
      have hfresh := howns.fresh
      exact absurd (hmodel.symm.trans hfresh) (Option.some_ne_none _)
    exact .inr ⟨other, by rw [Table.setLock_lock_ne _ _ _ hne]; exact hlock⟩

theorem Inv.fail (h : Inv w) (hfail : fail w t = some w') : Inv w' := by
  rw [Registry.fail] at hfail
  split at hfail
  · rename_i id modelName htask
    obtain ⟨registry, hflush, rfl⟩ := Option.map_eq_some_iff.mp hfail
    have hholds := h.tasks t
    rw [htask] at hholds
    obtain ⟨howns, honly⟩ := hholds
    obtain ⟨own, hown, hname, hfree, rfl⟩ := flush_own howns hflush
    have hknown := h.known id own (.inr ⟨t, hown⟩)
    refine h.write hfree hknown ⟨howns.flush hname nofun, ?_⟩
    intro k model hk
    by_contra hne
    rw [Table.setLock_lock_ne _ _ _ hne] at hk
    exact hne (honly k model hk)
  · cases hfail

theorem Inv.advance (h : Inv w) (hadvance : advance w t = some w') : Inv w' := by
  rw [Registry.advance] at hadvance
  split at hadvance
  · rename_i htask
    obtain ⟨registry, hwrite, rfl⟩ := Option.map_eq_some_iff.mp hadvance
    exact h.deactivate htask hwrite
  · rename_i htask
    obtain ⟨registry, hflush, rfl⟩ := Option.map_eq_some_iff.mp hadvance
    exact h.activate htask hflush
  · cases hadvance

theorem Inv.rollback (h : Inv w) (t : Nat) :
    Inv ({ w with registry := w.registry.rollback t }.setTask t .finished) := by
  refine Inv.quiet t h h.nodup (h.known.rollback t) rfl rfl ?_ ?_
  · intro u hu
    exact ⟨frame_rollback hu rfl rfl, setTask_ne _ _ hu⟩
  · rw [setTask_self]
    exact Table.noLocks_rollback w.registry _

end Steps

section Commits

variable {w : World} {t : Nat}

theorem committed_of_not_locked {registry : Table Uuid ModelRegistry} {k : Uuid}
    (h : ∀ model, registry.lock k ≠ some (t, model)) :
    (registry.commit t).committed k = registry.committed k :=
  Table.commit_committed_of_not_held h

theorem active_commit_of_own {id : Uuid} {own : ModelRegistry}
    (hown : w.registry.lock id = some (t, own)) (name : String) :
    Active (w.registry.commit t) name id ↔ own.isActive name = true := by
  rw [Active, Table.commit_committed_of_lock hown]
  constructor
  · rintro ⟨model, hmodel, hactive⟩
    rw [Option.some.inj hmodel]
    exact hactive
  · intro hactive
    exact ⟨own, rfl, hactive⟩

theorem active_commit_of_ne {id : Uuid} {modelName : String} {p : Status → Prop}
    (howns : Owns w.registry t id modelName p) {k : Uuid} (hne : k ≠ id) (name : String) :
    Active (w.registry.commit t) name k ↔
      Active w.registry name k ∧ (name = modelName → ∀ model, w.registry.lock k ≠ some (t, model)) := by
  by_cases hlocked : ∃ model, w.registry.lock k = some (t, model)
  · obtain ⟨model, hlock⟩ := hlocked
    obtain ⟨hname, hstatus, old, hold, holdName⟩ := howns.others k model hlock hne
    constructor
    · rintro ⟨other, hother, hactive⟩
      rw [Table.commit_committed_of_lock hlock] at hother
      obtain rfl := Option.some.inj hother
      have hactive := (isActive_iff.mp hactive).2
      rw [hstatus] at hactive
      cases hactive
    · rintro ⟨⟨other, hother, hactive⟩, hnot⟩
      rw [hold] at hother
      obtain rfl := Option.some.inj hother
      have hnames := (isActive_iff.mp hactive).1
      exact absurd hlock (hnot (hnames.symm.trans holdName) model)
  · have hnot : ∀ model, w.registry.lock k ≠ some (t, model) := fun model hk =>
      hlocked ⟨model, hk⟩
    rw [Active, committed_of_not_locked hnot]
    exact (and_iff_left fun _ => hnot).symm

theorem activationsOf_cons (w : World) (modelName name : String) (id : Uuid) :
    ({ w with activations := (modelName, id) :: w.activations } : World).activationsOf name =
      if modelName = name then id :: w.activationsOf name else w.activationsOf name := by
  simp only [World.activationsOf]
  split
  · rename_i heq
    rw [List.filter_cons_of_pos (by simpa using heq), List.map_cons]
  · rename_i hne
    rw [List.filter_cons_of_neg (by simpa using hne)]

theorem active_commit_shadow {id : Uuid} {modelName : String}
    (howns : Owns w.registry t id modelName (· ≠ .active)) (honly : w.registry.OnlyLock t id)
    (name : String) (k : Uuid) :
    Active (w.registry.commit t) name k ↔ Active w.registry name k := by
  obtain ⟨own, hown, _, hstatus⟩ := howns.own
  rcases eq_or_ne k id with rfl | hne
  · rw [active_commit_of_own hown, isActive_iff]
    constructor
    · rintro ⟨_, hactive⟩
      exact absurd hactive hstatus
    · rintro ⟨model, hmodel, _⟩
      exact absurd (hmodel.symm.trans howns.fresh) (Option.some_ne_none _)
  · rw [active_commit_of_ne howns hne]
    exact and_iff_left fun _ model hk => hne (honly k model hk)

theorem Inv.commitShadow {id : Uuid} {modelName : String} (h : Inv w)
    (htask : w.tasks t = .registered id modelName) :
    Inv ({ w with registry := w.registry.commit t }.setTask t .finished) := by
  have hholds := h.tasks t
  rw [htask] at hholds
  obtain ⟨howns, honly⟩ := hholds
  have hactive := active_commit_shadow howns honly
  refine ⟨h.nodup, h.known.commit t, fun name k => (hactive name k).trans (h.active name k), ?_⟩
  intro u
  rcases eq_or_ne u t with rfl | hu
  · rw [setTask_self]
    exact Table.noLocks_commit w.registry u
  · rw [setTask_ne _ _ hu]
    have hframe : Frame w ({ w with registry := w.registry.commit t }.setTask t .finished) u :=
      frame_commit hu rfl fun name => .inl ⟨rfl, fun k hk => (hactive name k).mp hk⟩
    exact hframe.holds (h.tasks u)

theorem Inv.commitActivated {id : Uuid} {modelName : String} {seen : Nat} (h : Inv w)
    (htask : w.tasks t = .activated id modelName seen) (hseen : w.count modelName = seen) :
    Inv ({ w with
      registry := w.registry.commit t
      activations := (modelName, id) :: w.activations }.setTask t .finished) := by
  have hholds := h.tasks t
  rw [htask] at hholds
  obtain ⟨howns, hcovers⟩ := hholds
  obtain ⟨own, hown, hname, hstatus⟩ := howns.own
  have hself : Active (w.registry.commit t) modelName id :=
    (active_commit_of_own hown modelName).mpr (isActive_iff.mpr ⟨hname, hstatus⟩)
  have hsame : ∀ k, Active (w.registry.commit t) modelName k ↔ k = id := by
    intro k
    constructor
    · intro hk
      by_contra hne
      obtain ⟨hold, hnot⟩ := (active_commit_of_ne howns hne modelName).mp hk
      rcases hcovers.covered hseen k hold with hmem | ⟨model, hlock⟩
      · exact absurd hmem List.not_mem_nil
      · exact hnot rfl model hlock
    · rintro rfl
      exact hself
  have hother : ∀ name k, modelName ≠ name →
      (Active (w.registry.commit t) name k ↔ Active w.registry name k) := by
    intro name k hne
    rcases eq_or_ne k id with rfl | hkne
    · rw [active_commit_of_own hown, isActive_iff]
      constructor
      · rintro ⟨hnames, _⟩
        exact absurd (hname.symm.trans hnames) hne
      · rintro ⟨model, hmodel, _⟩
        exact absurd (hmodel.symm.trans howns.fresh) (Option.some_ne_none _)
    · rw [active_commit_of_ne howns hkne]
      exact and_iff_left fun heq => absurd heq.symm hne
  have hlog : ∀ name, World.activationsOf ({ w with
      registry := w.registry.commit t
      activations := (modelName, id) :: w.activations }.setTask t .finished) name =
        if modelName = name then id :: w.activationsOf name else w.activationsOf name :=
    fun name => activationsOf_cons w modelName name id
  refine ⟨h.nodup, h.known.commit t, ?_, ?_⟩
  · intro name k
    rw [hlog name]
    split
    · rename_i heq
      rw [← heq, List.head?_cons, Option.some.injEq]
      exact (hsame k).trans eq_comm
    · rename_i hne
      exact (hother name k hne).trans (h.active name k)
  · intro u
    rcases eq_or_ne u t with rfl | hu
    · rw [setTask_self]
      exact Table.noLocks_commit w.registry u
    · rw [setTask_ne _ _ hu]
      refine Frame.holds ?_ (h.tasks u)
      refine frame_commit hu rfl fun name => ?_
      rw [World.count, World.count, hlog name]
      split
      · right
        exact Nat.lt_succ_self _
      · rename_i hne
        exact .inl ⟨rfl, fun k hk => (hother name k hne).mp hk⟩

end Commits

section Runs

def undisturbed (w : World) : Label → Bool
  | .commit t =>
      match w.tasks t with
      | .activated _ modelName seen => w.count modelName = seen
      | _ => true
  | _ => true

def activates (w : World) : Label → Bool
  | .commit t =>
      match w.tasks t with
      | .activated _ _ _ => true
      | _ => false
  | _ => false

theorem Inv.step {w w' : World} {label : Label} (h : Inv w)
    (hundisturbed : undisturbed w label = true) (hstep : step w label = some w') : Inv w' := by
  cases label with
  | create t id training modelName modelVersion createdAt =>
      simp only [Registry.step] at hstep
      split at hstep
      · rename_i htask
        exact h.create htask hstep
      · cases hstep
  | beginActivate t trainedAt =>
      simp only [Registry.step] at hstep
      split at hstep
      · rename_i htask
        obtain rfl := Option.some.inj hstep
        exact h.beginDeactivate htask trainedAt
      · cases hstep
  | next t => exact h.advance hstep
  | fail t => exact h.fail hstep
  | commit t =>
      simp only [Registry.step, commit] at hstep
      split at hstep
      · rename_i htask
        split at hstep
        · obtain rfl := Option.some.inj hstep
          exact h.commitShadow htask
        · cases hstep
      · rename_i htask
        obtain rfl := Option.some.inj hstep
        simp only [undisturbed, htask] at hundisturbed
        exact h.commitActivated htask (of_decide_eq_true hundisturbed)
      · cases hstep
  | rollback t =>
      obtain rfl := Option.some.inj hstep
      exact h.rollback t

theorem committed_recheck {registry registry' : Table Uuid ModelRegistry} {t : Nat} {k : Uuid}
    {p : ModelRegistry → Bool} {change : ModelRegistry → ModelRegistry}
    (h : (registry.recheckRow t k p change).map Prod.snd = some registry') :
    registry'.committed = registry.committed := by
  obtain ⟨⟨r, _⟩, hrow, rfl⟩ := Option.map_eq_some_iff.mp h
  obtain ⟨_, ⟨_, _, rfl⟩ | ⟨_, _, _, _, rfl⟩⟩ := Table.recheckRow_cases hrow
  · rfl
  · rfl

theorem inv_run {w : World} (h : Run step (fun w l => undisturbed w l = true) start w) : Inv w :=
  h.invariant (fun _ _ _ hinv hok hstep => hinv.step hok hstep) inv_start

theorem active_of_step {w w' : World} {label : Label} (h : Inv w)
    (hstep : step w label = some w') (hactivates : activates w label = false)
    {name : String} {k : Uuid} (hk : Active w.registry name k) : Active w'.registry name k := by
  have hsame : w'.registry.committed = w.registry.committed → Active w'.registry name k := by
    intro hcommitted
    rw [Active, hcommitted]
    exact hk
  cases label with
  | create t id training modelName modelVersion createdAt =>
      simp only [Registry.step] at hstep
      split at hstep
      · rw [create] at hstep
        split at hstep
        · cases hstep
        · obtain ⟨registry, hinsert, rfl⟩ := Option.map_eq_some_iff.mp hstep
          obtain ⟨_, _, rfl⟩ := Table.insert_cases hinsert
          exact hsame rfl
      · cases hstep
  | beginActivate t trainedAt =>
      simp only [Registry.step] at hstep
      split at hstep
      · obtain rfl := Option.some.inj hstep
        exact hsame rfl
      · cases hstep
  | next t =>
      simp only [Registry.step, advance] at hstep
      split at hstep
      · obtain ⟨registry, hwrite, rfl⟩ := Option.map_eq_some_iff.mp hstep
        exact hsame (committed_recheck hwrite)
      · obtain ⟨registry, hwrite, rfl⟩ := Option.map_eq_some_iff.mp hstep
        exact hsame (committed_recheck hwrite)
      · cases hstep
  | fail t =>
      simp only [Registry.step, Registry.fail] at hstep
      split at hstep
      · obtain ⟨registry, hwrite, rfl⟩ := Option.map_eq_some_iff.mp hstep
        exact hsame (committed_recheck hwrite)
      · cases hstep
  | commit t =>
      simp only [Registry.step, commit] at hstep
      split at hstep
      · rename_i id modelName htask
        split at hstep
        · obtain rfl := Option.some.inj hstep
          have hholds := h.tasks t
          rw [htask] at hholds
          exact (active_commit_shadow hholds.1 hholds.2 name k).mpr hk
        · cases hstep
      · rename_i htask
        rw [activates, htask] at hactivates
        cases hactivates
      · cases hstep
  | rollback t =>
      obtain rfl := Option.some.inj hstep
      exact hsame rfl

theorem keys_activeRows (registry : Table Uuid ModelRegistry) (modelName : String) :
    (activeRows registry modelName).map Prod.fst =
      registry.keys.filter fun id => (registry.committed id).any (ModelRegistry.isActive modelName) := by
  rw [activeRows]
  induction registry.keys with
  | nil => rfl
  | cons id ids ih =>
      rw [List.filterMap_cons, List.filter_cons]
      cases hmodel : registry.committed id with
      | none => exact ih
      | some model =>
          cases hactive : model.isActive modelName with
          | true =>
              rw [Option.filter_some, if_pos hactive, Option.any_some, if_pos hactive]
              exact congrArg (List.cons id) ih
          | false =>
              have hnot : ¬ model.isActive modelName = true := by
                rw [hactive]
                exact Bool.false_ne_true
              rw [Option.filter_some, if_neg hnot, Option.any_some, if_neg hnot]
              exact ih

theorem mem_activeKeys {registry : Table Uuid ModelRegistry} {modelName : String} {k : Uuid}
    (h : (registry.committed k).any (ModelRegistry.isActive modelName) = true) :
    Active registry modelName k := by
  obtain ⟨model, hmodel, hactive⟩ := (Option.any_eq_true _ _).mp h
  exact ⟨model, hmodel, hactive⟩

theorem eq_singleton {ks : List Uuid} {k : Uuid} (hnodup : ks.Nodup) (hmem : k ∈ ks)
    (hall : ∀ j ∈ ks, j = k) : ks = [k] := by
  cases ks with
  | nil => cases hmem
  | cons j ks =>
      obtain rfl := hall j List.mem_cons_self
      cases ks with
      | nil => rfl
      | cons i ks =>
          obtain rfl := hall i (List.mem_cons_of_mem _ List.mem_cons_self)
          exact absurd List.mem_cons_self (List.nodup_cons.mp hnodup).1

theorem Inv.getActive {w : World} (h : Inv w) (modelName : String) :
    getActive w.registry modelName = (w.activationsOf modelName).head? := by
  have hkeys := keys_activeRows w.registry modelName
  rw [Registry.getActive]
  cases hlast : (w.activationsOf modelName).head? with
  | none =>
      have hnil : activeRows w.registry modelName = [] := by
        rw [← List.map_eq_nil_iff, hkeys, List.filter_eq_nil_iff]
        intro k _ hany
        have hk := (h.active modelName k).mp (mem_activeKeys hany)
        rw [hlast] at hk
        cases hk
      rw [hnil]
      rfl
  | some k =>
      obtain ⟨model, hmodel, hactive⟩ := (h.active modelName k).mpr hlast
      have hone : (activeRows w.registry modelName).map Prod.fst = [k] := by
        rw [hkeys]
        refine eq_singleton (h.nodup.filter _) ?_ ?_
        · refine List.mem_filter.mpr ⟨h.known k model (.inl hmodel), ?_⟩
          rw [hmodel]
          exact hactive
        · intro j hj
          have hj := (h.active modelName j).mp (mem_activeKeys (List.mem_filter.mp hj).2)
          rw [hlast] at hj
          exact (Option.some.inj hj).symm
      obtain ⟨row, hrow, rfl⟩ := List.map_eq_singleton_iff.mp hone
      rw [hrow]
      rfl

theorem one_active_model {w : World}
    (h : Run step (fun w l => undisturbed w l = true) start w) :
    (∀ modelName k k', Active w.registry modelName k → Active w.registry modelName k' → k = k') ∧
      (∀ modelName, getActive w.registry modelName = (w.activationsOf modelName).head?) ∧
      ∀ label w', step w label = some w' → activates w label = false →
        ∀ modelName k, Active w.registry modelName k → Active w'.registry modelName k := by
  have hinv := inv_run h
  refine ⟨?_, hinv.getActive, ?_⟩
  · intro modelName k k' hk hk'
    have hlast := (hinv.active modelName k).mp hk
    have hlast' := (hinv.active modelName k').mp hk'
    exact Option.some.inj (hlast.symm.trans hlast')
  · intro label w' hstep hactivates modelName k hk
    exact active_of_step hinv hstep hactivates hk

def replaced : List Label :=
  [.create 1 1 .isolationForest "m" "m_1" 0, .beginActivate 1 0, .next 1, .commit 1,
    .create 2 2 .isolationForest "m" "m_2" 10, .beginActivate 2 10, .next 2, .next 2, .commit 2,
    .create 3 3 .isolationForest "m" "m_3" 20, .fail 3, .rollback 3]

theorem replaced_active : ∃ w, Run step (fun w l => undisturbed w l = true) start w ∧
    getActive w.registry "m" = some 2 ∧
      ∀ k k', Active w.registry "m" k → Active w.registry "m" k' → k = k' := by
  have hrun : (execWhile step undisturbed start replaced).any
      (fun w => getActive w.registry "m" = some 2) = true := by decide
  obtain ⟨w, hw, hactive⟩ := run_of_execWhile_any hrun
  exact ⟨w, hw, of_decide_eq_true hactive, fun k k' hk hk' => (one_active_model hw).1 "m" k k' hk hk'⟩

def overlapping : List Label :=
  [.create 1 1 .isolationForest "m" "m_1" 10, .create 2 2 .isolationForest "m" "m_2" 20,
    .beginActivate 1 10, .beginActivate 2 20, .next 2, .commit 2, .next 1, .commit 1]

theorem overlapping_active : ¬ ∀ w, Run step anyStep start w →
    (∀ modelName k k', Active w.registry modelName k → Active w.registry modelName k' → k = k') ∧
      (∀ modelName, getActive w.registry modelName = (w.activationsOf modelName).head?) ∧
      ∀ label w', step w label = some w' → activates w label = false →
        ∀ modelName k, Active w.registry modelName k → Active w'.registry modelName k := by
  intro hclaim
  have hrun : (execAll step start overlapping).any (fun w =>
      (w.registry.committed 1).any (ModelRegistry.isActive "m") &&
        (w.registry.committed 2).any (ModelRegistry.isActive "m")) = true := by decide
  obtain ⟨w, hw, hactive⟩ := run_of_execAll_any hrun
  obtain ⟨hfirst, hsecond⟩ := (Bool.and_eq_true _ _).mp hactive
  have heq := (hclaim w hw).1 "m" 1 2 (mem_activeKeys hfirst) (mem_activeKeys hsecond)
  cases heq

example : (execAll step start overlapping).any (fun w =>
    getActive w.registry "m" = some 2 && (w.activationsOf "m").head? = some 1) = true := by
  decide

end Runs

end Registry
