import AiSoc.Library.Transition
import AiSoc.Response.Executor

namespace Response

open Permissions (Uuid)
open PyJson Transition

def denylistKey (ip : String) : String :=
  "ai_soc:denylist:ip:" ++ ip

def World.Present (world : World) (key : String) : Prop :=
  key ∈ world.denylist.map (·.1)

-- the primary key of the users table
def World.Keyed (world : World) : Prop :=
  (world.users.map (·.id)).Nodup

structure Restored (before after : World) : Prop where
  denylist : ∀ key, after.Present key ↔ before.Present key
  users : ∀ target, (findUser after.users target).map (·.isActive) =
    (findUser before.users target).map (·.isActive)

section Denylist

variable {world : World} {key k : String}

theorem present_setDenylist {ttl : Int} :
    (world.setDenylist k ttl).Present key ↔ key = k ∨ world.Present key := by
  simp only [World.Present, World.setDenylist, List.map_cons, List.mem_cons, List.mem_map,
    List.mem_filter, decide_eq_true_eq]
  constructor
  · rintro (h | ⟨p, ⟨hp, _⟩, rfl⟩)
    · exact .inl h
    · exact .inr ⟨p, hp, rfl⟩
  · rintro (h | ⟨p, hp, rfl⟩)
    · exact .inl h
    · by_cases hk : p.1 = k
      · exact .inl hk
      · exact .inr ⟨p, ⟨hp, hk⟩, rfl⟩

theorem present_deleteDenylist :
    (world.deleteDenylist k).Present key ↔ world.Present key ∧ key ≠ k := by
  simp only [World.Present, World.deleteDenylist, List.mem_map, List.mem_filter,
    decide_eq_true_eq]
  constructor
  · rintro ⟨p, ⟨hp, hk⟩, rfl⟩
    exact ⟨⟨p, hp, rfl⟩, hk⟩
  · rintro ⟨⟨p, hp, rfl⟩, hk⟩
    exact ⟨p, ⟨hp, hk⟩, rfl⟩

end Denylist

section Users

variable {world : World} {old new : User}

theorem find_map_of_same {users : List User} {f : User → User} {p : User → Bool}
    (h : ∀ u ∈ users, p (f u) = p u) : (users.map f).find? p = (users.find? p).map f := by
  induction users with
  | nil => rfl
  | cons u users ih =>
      have hu := h u List.mem_cons_self
      have hrest := ih fun v hv => h v (List.mem_cons_of_mem _ hv)
      simp only [List.map_cons, List.find?_cons, hu, hrest]
      cases p u <;> rfl

theorem mem_of_findUser {users : List User} {target : String} {user : User}
    (h : findUser users target = some user) : user ∈ users := by
  unfold findUser at h
  split at h
  · rcases Option.or_eq_some_iff.mp h with h | ⟨_, h⟩
    · exact List.mem_of_find?_eq_some h
    · exact List.mem_of_find?_eq_some h
  · exact List.mem_of_find?_eq_some h

theorem keyed_saveUser (h : world.Keyed) : (world.saveUser new).Keyed := by
  have hids : (world.saveUser new).users.map (·.id) = world.users.map (·.id) := by
    simp only [World.saveUser, List.map_map]
    refine List.map_congr_left fun u _ => ?_
    simp only [Function.comp_apply]
    split
    · exact Eq.symm ‹_›
    · rfl
  unfold World.Keyed
  rw [hids]
  exact h

theorem findUser_saveUser (hkeyed : world.Keyed) (hold : old ∈ world.users) (hid : new.id = old.id)
    (hemail : new.email = old.email) (target : String) :
    findUser (world.saveUser new).users target =
      (findUser world.users target).map fun u => if u.id = new.id then new else u := by
  have hids : ∀ u ∈ world.users, (if u.id = new.id then new else u).id = u.id := by
    intro u _
    split
    · exact Eq.symm ‹_›
    · rfl
  have hemails : ∀ u ∈ world.users, (if u.id = new.id then new else u).email = u.email := by
    intro u hu
    split
    · rename_i hsame
      rw [List.inj_on_of_nodup_map hkeyed hu hold (hsame.trans hid), hemail]
    · rfl
  have hget : ∀ userId, getUser (world.saveUser new).users userId =
      (getUser world.users userId).map fun u => if u.id = new.id then new else u := by
    intro userId
    exact find_map_of_same fun u hu => by rw [hids u hu]
  have hby : getByEmail (world.saveUser new).users target =
      (getByEmail world.users target).map fun u => if u.id = new.id then new else u :=
    find_map_of_same fun u hu => by rw [hemails u hu]
  unfold findUser
  split
  · rw [hget, hby, Option.map_or]
  · exact hby

end Users

section Actions

variable {env : ExecutionEnv} {actorLabel : String} {world world' : World}
  {action : ProposedAction} {result result' : ExecutionResult}

inductive Executed (world : World) (action : ProposedAction) (result : ExecutionResult)
    (world' : World) : Prop where
  | revoked (type : result.actionType = .revokeSessions) (undo : result.undoAvailable = false)
      (denylist : world'.denylist = world.denylist) (keyed : world.Keyed → world'.Keyed)
      (found : ∀ target, (findUser world.users target).isSome →
        world.Keyed → (findUser world'.users target).isSome)
  | disabled (user new : User) (type : result.actionType = .disableUser)
      (undo : result.undoAvailable = true) (target : result.target = action.target)
      (found : findUser world.users action.target = some user) (id : new.id = user.id)
      (email : new.email = user.email) (inactive : new.isActive = false)
      (captured : result.preState.get "is_active" = some (.bool user.isActive))
      (denylist : world'.denylist = world.denylist)
      (users : world'.users = (world.saveUser new).users)
  | blocked (ttl : Int) (type : result.actionType = .blockIp)
      (undo : result.undoAvailable = true) (target : result.target = PyStr.strip action.target)
      (denylist : world'.denylist =
        (world.setDenylist (denylistKey result.target) ttl).denylist)
      (users : world'.users = world.users)

theorem executed_revoke (htype : action.actionType = .revokeSessions)
    (h : executeRevokeSessions env action world = .ok (result, world')) :
    Executed world action result world' := by
  unfold executeRevokeSessions at h
  split at h
  · cases h
  · rename_i user hfind
    cases h
    refine .revoked htype rfl rfl (fun hkeyed => keyed_saveUser hkeyed) ?_
    intro target hsome hkeyed
    have hsaved := @findUser_saveUser (world.revokeUser user.id) user
      { user with credentialsChangedAt := env.executedAt } hkeyed (mem_of_findUser hfind) rfl rfl
      target
    rw [hsaved, Option.isSome_map]
    exact hsome

theorem executed_disable (htype : action.actionType = .disableUser)
    (h : executeDisableUser env action world = .ok (result, world')) :
    Executed world action result world' := by
  unfold executeDisableUser at h
  split at h
  · cases h
  · rename_i user hfind
    cases h
    exact .disabled user { user with isActive := false, credentialsChangedAt := env.executedAt }
      htype rfl rfl hfind rfl rfl rfl rfl rfl rfl

theorem executed_block (htype : action.actionType = .blockIp)
    (h : executeBlockIp env action world = .ok (result, world')) :
    Executed world action result world' := by
  unfold executeBlockIp at h
  cases h
  exact .blocked _ htype rfl rfl rfl rfl

theorem Executed.recordAudit {outcome : String} {details : Obj}
    (h : Executed world action result world') :
    Executed world action result (world'.recordAudit env action outcome actorLabel details) := by
  cases h with
  | revoked type undo denylist keyed found => exact .revoked type undo denylist keyed found
  | disabled user new type undo target found id email inactive captured denylist users =>
      exact .disabled user new type undo target found id email inactive captured denylist users
  | blocked ttl type undo target denylist users =>
      exact .blocked ttl type undo target denylist users

theorem execute_cases (h : execute env actorLabel world action = (.ok result, world')) :
    Executed world action result world' := by
  unfold execute at h
  simp only at h
  split at h
  · rename_i outcome returned changed hok
    have hexecuted : Executed world action returned changed := by
      split at hok
      · rename_i htype
        exact executed_revoke htype hok
      · rename_i htype
        exact executed_disable htype hok
      · rename_i htype
        exact executed_block htype hok
      · cases hok
    obtain ⟨hreturned, hchanged⟩ := Prod.mk.inj h
    obtain rfl : returned = result := Except.ok.inj hreturned
    rw [← hchanged]
    exact hexecuted.recordAudit
  · cases h

end Actions

section Reverts

variable {env env' : ExecutionEnv} {actorLabel actorLabel' : String}
  {world world' reverted : World} {action : ProposedAction} {result result' : ExecutionResult}

theorem revert_block (htype : result.actionType = .blockIp) :
    revert world result = .ok (world.deleteDenylist (denylistKey result.target)) := by
  unfold revert
  rw [htype]
  rfl

theorem revert_disable {user : User} {isActive : Bool} (htype : result.actionType = .disableUser)
    (hfind : findUser world.users result.target = some user)
    (hstate : result.preState.get "is_active" = some (.bool isActive)) :
    revert world result = .ok (world.saveUser { user with isActive := isActive }) := by
  unfold revert
  simp only [htype, hfind, hstate]

theorem rollback_of_revert (env : ExecutionEnv) (actorLabel : String)
    (hundo : result.undoAvailable = true)
    (h : revert world result = .ok reverted) :
    ∃ result' world', rollback env actorLabel world result = (.ok result', world') ∧
      world'.users = reverted.users ∧ world'.denylist = reverted.denylist := by
  unfold rollback
  simp only [hundo, h, Bool.not_true, Bool.false_eq_true, if_false]
  exact ⟨_, _, rfl, rfl, rfl⟩

theorem rollback_cases (h : rollback env actorLabel world result = (.ok result', world')) :
    ∃ reverted, revert world result = .ok reverted ∧
      world'.users = reverted.users ∧ world'.denylist = reverted.denylist := by
  unfold rollback at h
  split at h
  · cases h
  · split at h
    · cases h
    · rename_i reverted hrevert
      obtain ⟨_, rfl⟩ := Prod.mk.inj h
      exact ⟨reverted, hrevert, rfl, rfl⟩

theorem keyed_of_users {world : World} (hkeyed : world.Keyed) (h : world'.users = world.users) :
    world'.Keyed := by
  unfold World.Keyed
  rw [h]
  exact hkeyed

theorem restored_iff (hkeyed : world.Keyed)
    (h : execute env actorLabel world action = (.ok result, world'))
    (hundo : result.undoAvailable = true) :
    ∃ result' after, rollback env' actorLabel' world' result = (.ok result', after) ∧
      (Restored world after ↔
        ¬ (result.actionType = .blockIp ∧ world.Present (denylistKey result.target))) := by
  cases execute_cases h with
  | revoked type undo denylist keyed found =>
      rw [undo] at hundo
      cases hundo
  | disabled user new type undo target found id email inactive captured denylist users =>
      have hmem := mem_of_findUser found
      have hkeyed' : world'.Keyed := keyed_of_users (keyed_saveUser hkeyed) users
      have hfound : findUser world'.users result.target = some new := by
        rw [users, target, findUser_saveUser hkeyed hmem id email, found, Option.map_some,
          if_pos id.symm]
      obtain ⟨result', after, hrollback, husers, hdenylist⟩ :=
        rollback_of_revert env' actorLabel' undo (revert_disable type hfound captured)
      refine ⟨result', after, hrollback, ?_⟩
      constructor
      · rintro _ ⟨hblock, _⟩
        rw [type] at hblock
        cases hblock
      · intro _
        constructor
        · intro key
          unfold World.Present
          rw [hdenylist]
          exact iff_of_eq (congrArg (fun d : List (String × Int) => key ∈ d.map (·.1)) denylist)
        · intro t
          have hreverted := @findUser_saveUser world' new { new with isActive := user.isActive }
            hkeyed' (mem_of_findUser hfound) rfl rfl t
          rw [husers, hreverted, users, findUser_saveUser hkeyed hmem id email]
          cases hother : findUser world.users t with
          | none => rfl
          | some other =>
              simp only [Option.map_some, Option.some.injEq]
              by_cases hsame : other.id = new.id
              · have hself : other = user :=
                  List.inj_on_of_nodup_map hkeyed (mem_of_findUser hother) hmem (hsame.trans id)
                rw [if_pos hsame, if_pos rfl, hself]
              · rw [if_neg hsame, if_neg hsame]
  | blocked ttl type undo target denylist users =>
      obtain ⟨result', after, hrollback, husers, hdenylist⟩ :=
        rollback_of_revert env' actorLabel' undo (@revert_block world' result type)
      have hpresent : ∀ key, after.Present key ↔
          world.Present key ∧ key ≠ denylistKey result.target := by
        intro key
        have hafter : after.Present key ↔
            (world'.deleteDenylist (denylistKey result.target)).Present key := by
          unfold World.Present
          rw [hdenylist]
        have hset : world'.Present key ↔
            (world.setDenylist (denylistKey result.target) ttl).Present key := by
          unfold World.Present
          rw [denylist]
        rw [hafter, present_deleteDenylist, hset, present_setDenylist]
        tauto
      refine ⟨result', after, hrollback, ?_⟩
      constructor
      · rintro hrestored ⟨_, hblocked⟩
        exact ((hpresent _).mp ((hrestored.denylist _).mpr hblocked)).2 rfl
      · intro hclear
        constructor
        · intro key
          rw [hpresent]
          constructor
          · exact And.left
          · intro hkey
            refine ⟨hkey, ?_⟩
            rintro rfl
            exact hclear ⟨type, hkey⟩
        · intro t
          have hsame : (world'.deleteDenylist (denylistKey result.target)).users = world.users :=
            users
          rw [husers, hsame]

end Reverts

section Sequences

-- the results returned so far, each with whether it has been rolled back
structure Containments where
  world : World
  results : List (ExecutionResult × Bool)

inductive Operation where
  | execute (env : ExecutionEnv) (actorLabel : String) (action : ProposedAction)
  | rollback (env : ExecutionEnv) (actorLabel : String) (index : Nat)
  | expire (key : String)

def Containments.step (s : Containments) : Operation → Option Containments
  | .execute env actorLabel action =>
      match Response.execute env actorLabel s.world action with
      | (.ok result, world) => some ⟨world, s.results ++ [(result, false)]⟩
      | (.error _, world) => some { s with world := world }
  | .rollback env actorLabel index =>
      match s.results[index]? with
      | none => none
      | some (result, _) =>
          match Response.rollback env actorLabel s.world result with
          | (.ok _, world) => some ⟨world, s.results.set index (result, true)⟩
          | (.error _, world) => some { s with world := world }
  | .expire key => some { s with world := s.world.deleteDenylist key }

def InForce (world : World) (result : ExecutionResult) : Prop :=
  (result.actionType = .blockIp ∧ world.Present (denylistKey result.target)) ∨
    (result.actionType = .disableUser ∧
      ∃ user, findUser world.users result.target = some user ∧ user.isActive = false)

def OtherLive (s : Containments) (index : Nat) (result : ExecutionResult) : Prop :=
  ∃ other, other ≠ index ∧ s.results[other]? = some (result, false)

def LiftsNoOther (s s' : Containments) (index : Nat) : Prop :=
  ∀ result, OtherLive s index result → InForce s.world result → InForce s'.world result

def Undoes (world : World) (result other : ExecutionResult) : Prop :=
  (result.actionType = .blockIp ∧ other.actionType = .blockIp ∧ other.target = result.target) ∨
    (result.actionType = .disableUser ∧ other.actionType = .disableUser ∧
      result.preState.get "is_active" = some (.bool true) ∧
      (findUser world.users other.target).map (·.id) =
        (findUser world.users result.target).map (·.id))

def NoOverlap (s : Containments) (index : Nat) : Prop :=
  ∀ entry, s.results[index]? = some entry → ∀ other, OtherLive s index other →
    InForce s.world other → ¬ Undoes s.world entry.1 other

def Undoable (world : World) (result : ExecutionResult) : Prop :=
  result.actionType = .revokeSessions ∧ result.undoAvailable = false ∨
    result.actionType = .blockIp ∧ result.undoAvailable = true ∨
    result.actionType = .disableUser ∧ result.undoAvailable = true ∧
      (∃ isActive, result.preState.get "is_active" = some (.bool isActive)) ∧
      (findUser world.users result.target).isSome

structure RecordedInv (s : Containments) : Prop where
  keyed : s.world.Keyed
  undoable : ∀ entry ∈ s.results, Undoable s.world entry.1

section Inversion

variable {env : ExecutionEnv} {actorLabel : String} {world world' reverted : World}
  {action : ProposedAction} {result result' : ExecutionResult} {old new : User}

theorem execute_error {e : String}
    (h : execute env actorLabel world action = (.error e, world')) :
    world'.users = world.users ∧ world'.denylist = world.denylist := by
  unfold execute at h
  simp only at h
  split at h
  · cases h
  · obtain ⟨_, rfl⟩ := Prod.mk.inj h
    exact ⟨rfl, rfl⟩

theorem rollback_error {e : String}
    (h : rollback env actorLabel world result = (.error e, world')) : world' = world := by
  unfold rollback at h
  split at h
  · exact (Prod.mk.inj h).2.symm
  · split at h
    · exact (Prod.mk.inj h).2.symm
    · cases h

theorem revert_cases (h : revert world result = .ok reverted) :
    reverted.users = world.users ∨ ∃ user isActive, findUser world.users result.target = some user ∧
      reverted = world.saveUser { user with isActive := isActive } := by
  unfold revert at h
  split at h
  · split at h
    · cases h
    · rename_i user hfind
      split at h
      · rename_i isActive _
        exact .inr ⟨user, isActive, hfind, (Except.ok.inj h).symm⟩
      · cases h
  · exact .inl (congrArg World.users (Except.ok.inj h)).symm
  · cases h
  · exact .inl (congrArg World.users (Except.ok.inj h)).symm

structure Keeps (world world' : World) : Prop where
  keyed : world'.Keyed
  found : ∀ target, (findUser world.users target).isSome → (findUser world'.users target).isSome

theorem keeps_of_users (hkeyed : world.Keyed) (h : world'.users = world.users) :
    Keeps world world' :=
  ⟨keyed_of_users hkeyed h, fun _ hfound => h ▸ hfound⟩

theorem keeps_of_saved (hkeyed : world.Keyed) (hold : old ∈ world.users) (hid : new.id = old.id)
    (hemail : new.email = old.email) (h : world'.users = (world.saveUser new).users) :
    Keeps world world' := by
  refine ⟨keyed_of_users (keyed_saveUser hkeyed) h, ?_⟩
  intro target hfound
  rw [h, findUser_saveUser hkeyed hold hid hemail, Option.isSome_map]
  exact hfound

theorem Executed.keeps (h : Executed world action result world') (hkeyed : world.Keyed) :
    Keeps world world' := by
  cases h with
  | revoked type undo denylist keyed found =>
      exact ⟨keyed hkeyed, fun target hsome => found target hsome hkeyed⟩
  | disabled user new type undo target found id email inactive captured denylist users =>
      exact keeps_of_saved hkeyed (mem_of_findUser found) id email users
  | blocked ttl type undo target denylist users => exact keeps_of_users hkeyed users

theorem Executed.undoable (h : Executed world action result world') (hkeyed : world.Keyed) :
    Undoable world' result := by
  have hkeeps := h.keeps hkeyed
  cases h with
  | revoked type undo denylist keyed found => exact .inl ⟨type, undo⟩
  | disabled user new type undo target found id email inactive captured denylist users =>
      refine .inr (.inr ⟨type, undo, ⟨_, captured⟩, hkeeps.found _ ?_⟩)
      rw [target, found]
      rfl
  | blocked ttl type undo target denylist users => exact .inr (.inl ⟨type, undo⟩)

theorem Undoable.keeps (h : Undoable world result) (hkeeps : Keeps world world') :
    Undoable world' result := by
  rcases h with hrevoke | hblock | ⟨type, undo, captured, found⟩
  · exact .inl hrevoke
  · exact .inr (.inl hblock)
  · exact .inr (.inr ⟨type, undo, captured, hkeeps.found _ found⟩)

theorem rollback_keeps (hkeyed : world.Keyed)
    (h : rollback env actorLabel world result = (.ok result', world')) : Keeps world world' := by
  obtain ⟨reverted, hrevert, husers, _⟩ := rollback_cases h
  rcases revert_cases hrevert with hsame | ⟨user, isActive, hfind, rfl⟩
  · exact keeps_of_users hkeyed (husers.trans hsame)
  · have hsaved : Keeps world (world.saveUser { user with isActive := isActive }) :=
      @keeps_of_saved world _ user { user with isActive := isActive } hkeyed
        (mem_of_findUser hfind) rfl rfl rfl
    exact ⟨keyed_of_users hsaved.keyed husers, fun target hsome => husers ▸ hsaved.found target hsome⟩

end Inversion

section Invariant

variable {s s' : Containments} {operation : Operation}

theorem recordedInv_keeps {world : World} {results : List (ExecutionResult × Bool)}
    (hinv : RecordedInv s) (hkeeps : Keeps s.world world)
    (hresults : ∀ entry ∈ results, (∃ old ∈ s.results, old.1 = entry.1) ∨ Undoable world entry.1) :
    RecordedInv ⟨world, results⟩ := by
  refine ⟨hkeeps.keyed, fun entry hentry => ?_⟩
  rcases hresults entry hentry with ⟨old, hold, heq⟩ | hundoable
  · exact heq ▸ (hinv.undoable old hold).keeps hkeeps
  · exact hundoable

theorem recordedInv_step (hinv : RecordedInv s) (h : s.step operation = some s') :
    RecordedInv s' := by
  have hsame : ∀ entry ∈ s.results, (∃ old ∈ s.results, old.1 = entry.1) ∨
      Undoable s'.world entry.1 := fun entry hentry => .inl ⟨entry, hentry, rfl⟩
  cases operation with
  | execute env actorLabel action =>
      simp only [Containments.step] at h
      split at h
      · rename_i result world hexecute
        cases h
        have hexecuted := execute_cases hexecute
        refine recordedInv_keeps hinv (hexecuted.keeps hinv.keyed) ?_
        intro entry hentry
        rcases List.mem_append.mp hentry with hold | hnew
        · exact .inl ⟨entry, hold, rfl⟩
        · rw [List.mem_singleton.mp hnew]
          exact .inr (hexecuted.undoable hinv.keyed)
      · rename_i world hexecute
        cases h
        exact recordedInv_keeps hinv (keeps_of_users hinv.keyed (execute_error hexecute).1) hsame
  | rollback env actorLabel index =>
      simp only [Containments.step] at h
      split at h
      · cases h
      · rename_i result done hentry
        split at h
        · rename_i reverted world hrollback
          cases h
          refine recordedInv_keeps hinv (rollback_keeps hinv.keyed hrollback) ?_
          intro entry hin
          rcases List.mem_or_eq_of_mem_set hin with hold | rfl
          · exact .inl ⟨entry, hold, rfl⟩
          · exact .inl ⟨_, List.mem_of_getElem? hentry, rfl⟩
        · rename_i world hrollback
          cases h
          rw [rollback_error hrollback]
          exact hinv
  | expire key =>
      cases h
      exact recordedInv_keeps hinv (keeps_of_users hinv.keyed rfl) hsame

theorem recordedInv_run {world : World} (hkeyed : world.Keyed)
    (h : Run Containments.step anyStep ⟨world, []⟩ s) : RecordedInv s :=
  h.invariant (fun _ _ _ hinv _ hs => recordedInv_step hinv hs)
    ⟨hkeyed, fun _ hentry => absurd hentry List.not_mem_nil⟩

end Invariant

section Lifting

variable {s s' : Containments} {index : Nat} {result : ExecutionResult} {done : Bool}

theorem denylistKey_inj {ip ip' : String} (h : denylistKey ip = denylistKey ip') : ip = ip' := by
  unfold denylistKey at h
  rw [← String.toList_inj, String.toList_append, String.toList_append,
    List.append_cancel_left_eq, String.toList_inj] at h
  exact h

theorem lifts_iff_block (hentry : s.results[index]? = some (result, done))
    (htype : result.actionType = .blockIp) (husers : s'.world.users = s.world.users)
    (hpresent : ∀ key, s'.world.Present key ↔
      s.world.Present key ∧ key ≠ denylistKey result.target) :
    LiftsNoOther s s' index ↔ NoOverlap s index := by
  constructor
  · intro hlifts entry hsame other hlive hforce hundoes
    obtain rfl : (result, done) = entry := Option.some.inj (hentry.symm.trans hsame)
    rcases hundoes with ⟨_, hblock, htarget⟩ | ⟨hdisable, _⟩
    · rcases hlifts other hlive hforce with ⟨_, hkey⟩ | ⟨hdisable, _⟩
      · have hkept := ((hpresent _).mp hkey).2
        exact hkept (congrArg denylistKey htarget)
      · exact ActionType.noConfusion (hblock.symm.trans hdisable)
    · exact ActionType.noConfusion (htype.symm.trans hdisable)
  · rintro hapart other hlive hforce
    have hclear := hapart _ hentry other hlive hforce
    rcases hforce with ⟨hblock, hkey⟩ | ⟨hdisable, huser⟩
    · have hother : denylistKey other.target ≠ denylistKey result.target := by
        intro hsame
        have htarget := denylistKey_inj hsame
        exact hclear (.inl ⟨htype, hblock, htarget⟩)
      exact .inl ⟨hblock, (hpresent (denylistKey other.target)).mpr ⟨hkey, hother⟩⟩
    · exact .inr ⟨hdisable, by rw [husers]; exact huser⟩

theorem lifts_iff_disable {user : User} {isActive : Bool} (hkeyed : s.world.Keyed)
    (hentry : s.results[index]? = some (result, done)) (htype : result.actionType = .disableUser)
    (hcaptured : result.preState.get "is_active" = some (.bool isActive))
    (hfind : findUser s.world.users result.target = some user)
    (husers : s'.world.users = (s.world.saveUser { user with isActive := isActive }).users)
    (hpresent : ∀ key, s'.world.Present key ↔ s.world.Present key) :
    LiftsNoOther s s' index ↔ NoOverlap s index := by
  have hfound : ∀ target, findUser s'.world.users target = (findUser s.world.users target).map
      fun u => if u.id = user.id then { user with isActive := isActive } else u := by
    intro target
    rw [husers]
    exact @findUser_saveUser s.world user { user with isActive := isActive } hkeyed
      (mem_of_findUser hfind) rfl rfl target
  constructor
  · intro hlifts entry hsame other hlive hforce hundoes
    obtain rfl : (result, done) = entry := Option.some.inj (hentry.symm.trans hsame)
    rcases hundoes with ⟨hblock, _⟩ | ⟨_, hdisable, hactive, hids⟩
    · exact ActionType.noConfusion (htype.symm.trans hblock)
    · rcases hlifts other hlive hforce with ⟨hblock, _⟩ | ⟨_, after, hafter, hinactive⟩
      · exact ActionType.noConfusion (hdisable.symm.trans hblock)
      · rw [hfound] at hafter
        obtain ⟨found, hother, rfl⟩ := Option.map_eq_some_iff.mp hafter
        simp only [hother, hfind, Option.map_some, Option.some.injEq] at hids
        rw [if_pos hids] at hinactive
        have htrue : isActive = true :=
          Json.bool.inj (Option.some.inj (hcaptured.symm.trans hactive))
        exact absurd (htrue.symm.trans hinactive) (by decide)
  · intro hapart other hlive hforce
    have hclear := hapart _ hentry other hlive hforce
    rcases hforce with ⟨hblock, hkey⟩ | ⟨hdisable, found, hother, hinactive⟩
    · exact .inl ⟨hblock, (hpresent _).mpr hkey⟩
    · have hafter := hfound other.target
      rw [hother, Option.map_some] at hafter
      refine .inr ⟨hdisable, _, hafter, ?_⟩
      by_cases hid : found.id = user.id
      · rw [if_pos hid]
        cases hcase : isActive with
        | false => rfl
        | true =>
            have hids : (findUser s.world.users other.target).map (·.id) =
                (findUser s.world.users result.target).map (·.id) := by
              rw [hother, hfind, Option.map_some, Option.map_some, hid]
            rw [hcase] at hcaptured
            exact absurd (.inr ⟨htype, hdisable, hcaptured, hids⟩) hclear
      · rw [if_neg hid]
        exact hinactive

theorem lifts_iff {env : ExecutionEnv} {actorLabel : String} (hinv : RecordedInv s)
    (h : s.step (.rollback env actorLabel index) = some s') :
    LiftsNoOther s s' index ↔ NoOverlap s index := by
  simp only [Containments.step] at h
  split at h
  · cases h
  · rename_i result done hentry
    have hundoable := hinv.undoable _ (List.mem_of_getElem? hentry)
    rcases hundoable with ⟨htype, hundo⟩ | ⟨htype, hundo⟩ | ⟨htype, hundo, ⟨isActive, hcaptured⟩,
      hsome⟩
    · split at h
      · rename_i hrollback
        unfold rollback at hrollback
        rw [hundo] at hrollback
        cases hrollback
      · rename_i world hrollback
        cases h
        rw [rollback_error hrollback]
        refine ⟨fun _ entry hsame other _ _ => ?_, fun _ other _ hforce => hforce⟩
        obtain rfl : (result, done) = entry := Option.some.inj (hentry.symm.trans hsame)
        rintro (⟨hblock, _⟩ | ⟨hdisable, _⟩)
        · exact ActionType.noConfusion (htype.symm.trans hblock)
        · exact ActionType.noConfusion (htype.symm.trans hdisable)
    · obtain ⟨reverted, world, hrollback, husers, hdenylist⟩ :=
        rollback_of_revert env actorLabel hundo (@revert_block s.world result htype)
      rw [hrollback] at h
      cases h
      refine lifts_iff_block hentry htype husers fun key => ?_
      have hafter : world.Present key ↔
          (s.world.deleteDenylist (denylistKey result.target)).Present key := by
        unfold World.Present
        rw [hdenylist]
      exact hafter.trans present_deleteDenylist
    · obtain ⟨user, hfind⟩ := Option.isSome_iff_exists.mp hsome
      obtain ⟨reverted, world, hrollback, husers, hdenylist⟩ :=
        rollback_of_revert env actorLabel hundo (revert_disable htype hfind hcaptured)
      rw [hrollback] at h
      cases h
      refine lifts_iff_disable hinv.keyed hentry htype hcaptured hfind husers fun key => ?_
      unfold World.Present
      rw [hdenylist]
      rfl

end Lifting

end Sequences

def AlreadyBlocked (world : World) (result : ExecutionResult) : Prop :=
  result.actionType = .blockIp ∧ world.Present (denylistKey result.target)

theorem rollback_exact_iff {world : World} (hkeyed : world.Keyed) :
    (∀ env env' actorLabel actorLabel' action result world',
      execute env actorLabel world action = (.ok result, world') → result.undoAvailable = true →
        ∃ result' after, rollback env' actorLabel' world' result = (.ok result', after) ∧
          (Restored world after ↔ ¬ AlreadyBlocked world result)) ∧
    ∀ s, Run Containments.step anyStep ⟨world, []⟩ s → ∀ env actorLabel index s',
      s.step (.rollback env actorLabel index) = some s' →
        (LiftsNoOther s s' index ↔ NoOverlap s index) := by
  constructor
  · intro env env' actorLabel actorLabel' action result world' hexecute hundo
    exact restored_iff hkeyed hexecute hundo
  · intro s hrun env actorLabel index s' hstep
    exact lifts_iff (recordedInv_run hkeyed hrun) hstep

section Decidable

instance (world : World) (key : String) : Decidable (world.Present key) :=
  inferInstanceAs (Decidable (key ∈ world.denylist.map (·.1)))

instance (world : World) (result : ExecutionResult) : Decidable (InForce world result) :=
  inferInstanceAs (Decidable (
    (result.actionType = .blockIp ∧ world.Present (denylistKey result.target)) ∨
      (result.actionType = .disableUser ∧
        ∃ user ∈ findUser world.users result.target, user.isActive = false)))

instance (world : World) (result : ExecutionResult) : Decidable (AlreadyBlocked world result) :=
  inferInstanceAs (Decidable (result.actionType = .blockIp ∧
    world.Present (denylistKey result.target)))

def liftsSecond (env : ExecutionEnv) (s : Containments) : Bool :=
  match s.results[1]?, s.step (.rollback env "analyst_rollback" 0) with
  | some (result, false), some s' => decide (InForce s.world result ∧ ¬ InForce s'.world result)
  | _, _ => false

theorem not_spared_of_liftsSecond {env : ExecutionEnv} {s : Containments}
    (h : liftsSecond env s = true) : ∃ s', s.step (.rollback env "analyst_rollback" 0) = some s' ∧
      ¬ LiftsNoOther s s' 0 := by
  unfold liftsSecond at h
  split at h
  · rename_i result s' hsecond hstep
    obtain ⟨hbefore, hafter⟩ := of_decide_eq_true h
    refine ⟨s', hstep, fun hspared => hafter (hspared result ?_ hbefore)⟩
    exact ⟨1, one_ne_zero, hsecond⟩
  · cases h

end Decidable

def attackerBlock : ProposedAction where
  actionType := .blockIp
  target := "203.0.113.7"
  reason := "brute force"
  evidenceRefs := ["event:e1"]
  confidence := ⟨false, 9, -1, PyFloat.normal_point_nine⟩
  ttlSeconds := none
  parameters := []
  targetLength := by decide
  reasonLength := by decide
  evidenceRefsLength := by decide
  confidenceRange := by decide
  ttlRange := by simp

def malloryDisable : ProposedAction :=
  { attackerBlock with
    actionType := .disableUser
    target := "mallory@example.com"
    targetLength := by decide }

def quietEnv : ExecutionEnv :=
  ⟨fun id => toString id, "11", 0⟩

def quietWorld : World :=
  ⟨[⟨42, "mallory@example.com", true, 0⟩], [], [], []⟩

def blockedWorld : World :=
  { quietWorld with denylist := [("ai_soc:denylist:ip:203.0.113.7", 3600)] }

theorem executed_ok (world : World) : ∃ result world', result.undoAvailable = true ∧
    result.actionType = .blockIp ∧ result.target = "203.0.113.7" ∧
      execute quietEnv "autonomous_executor" world attackerBlock = (.ok result, world') :=
  ⟨_, _, rfl, rfl, by decide, rfl⟩

theorem quiet_block_restored :
    (∃ result world' result' after,
      execute quietEnv "autonomous_executor" quietWorld attackerBlock = (.ok result, world') ∧
        rollback quietEnv "analyst_rollback" world' result = (.ok result', after) ∧
          Restored quietWorld after) ∧
    ∃ s s', Run Containments.step anyStep ⟨quietWorld, []⟩ s ∧
      s.step (.rollback quietEnv "analyst_rollback" 0) = some s' ∧
        (LiftsNoOther s s' 0 ↔ NoOverlap s 0) := by
  have hkeyed : quietWorld.Keyed := List.nodup_singleton _
  obtain ⟨hrestores, hlifts⟩ := rollback_exact_iff hkeyed
  constructor
  · obtain ⟨result, world', hundo, htype, htarget, hexecute⟩ := executed_ok quietWorld
    obtain ⟨result', after, hrollback, hiff⟩ := hrestores quietEnv quietEnv _ "analyst_rollback" _ _
      _ hexecute hundo
    refine ⟨result, world', result', after, hexecute, hrollback, hiff.mpr ?_⟩
    rintro ⟨_, hpresent⟩
    exact absurd hpresent List.not_mem_nil
  · have hany : (execAll Containments.step ⟨quietWorld, []⟩
        [.execute quietEnv "autonomous_executor" attackerBlock]).any (fun s =>
          (s.step (.rollback quietEnv "analyst_rollback" 0)).isSome) = true := by
      decide
    obtain ⟨s, hrun, hs⟩ := run_of_execAll_any hany
    obtain ⟨s', hstep⟩ := Option.isSome_iff_exists.mp hs
    exact ⟨s, s', hrun, hstep, hlifts s hrun _ _ _ _ hstep⟩

theorem rollback_lifts :
    (∃ result world' result' after,
      execute quietEnv "autonomous_executor" blockedWorld attackerBlock = (.ok result, world') ∧
        rollback quietEnv "analyst_rollback" world' result = (.ok result', after) ∧
          ¬ Restored blockedWorld after) ∧
    ∀ action ∈ [attackerBlock, malloryDisable], ∃ s s',
      Run Containments.step anyStep ⟨quietWorld, []⟩ s ∧
        s.step (.rollback quietEnv "analyst_rollback" 0) = some s' ∧ ¬ LiftsNoOther s s' 0 := by
  constructor
  · have hkeyed : blockedWorld.Keyed := List.nodup_singleton _
    obtain ⟨result, world', hundo, htype, htarget, hexecute⟩ := executed_ok blockedWorld
    obtain ⟨result', after, hrollback, hiff⟩ :=
      @restored_iff quietEnv quietEnv _ "analyst_rollback" _ _ _ _ hkeyed hexecute hundo
    refine ⟨result, world', result', after, hexecute, hrollback, fun hrestored => ?_⟩
    refine hiff.mp hrestored ⟨htype, ?_⟩
    rw [htarget]
    exact List.mem_cons_self
  · intro action haction
    have hany : (execAll Containments.step ⟨quietWorld, []⟩
        [.execute quietEnv "autonomous_executor" action,
          .execute quietEnv "autonomous_executor" action]).any (liftsSecond quietEnv) = true := by
      revert action
      decide
    obtain ⟨s, hrun, hs⟩ := run_of_execAll_any hany
    obtain ⟨s', hstep, hlifts⟩ := not_spared_of_liftsSecond hs
    exact ⟨s, s', hrun, hstep, hlifts⟩

end Response
