import AiSoc.Jobs.Queue

namespace InvestigationQueue

open Permissions (Uuid Timestamp)
open SortedSet Custody Process

section Phases

structure Phase where
  held : List Source
  moved : List Source
  given : List Uuid

def Phase.idle : Phase :=
  ⟨[], [], []⟩

structure Phase.Holds (φ : Phase) (t : Nat) (db : Db) : Prop where
  held : db.journal.entries.heldBy t = φ.held
  moved : db.journal.moves t = φ.moved
  given : db.journal.given t = φ.given

def Phase.allowed (φ : Phase) : Stmt → Prop
  | .rpush id (some source) => φ.held = [source] ∧ source.id = id
  | .zrem _ => φ.held = []
  | .lrem _ => φ.held = []
  | _ => True

def Phase.next (φ : Phase) : (q : Stmt) → Result q → Phase
  | .rpush _ (some source), _ => { φ with held := [], moved := source :: φ.moved }
  | .zrem id, removed => if removed > 0 then { φ with held := [.delayed id] } else φ
  | .lrem raw, _ => { φ with held := [.dead raw] }
  | .blpop _, item => { φ with given := item.toList ++ φ.given }
  | _, _ => φ

structure Inv (db : Db) : Prop where
  entries : db.journal.entries.Balanced db.redis.sources
  pushes : db.journal.pushed.Perm (db.journal.delivered ++ db.redis.queue)

def StillDead (db : Db) (_ : Nat) : Stmt → Prop
  | .lrem raw => raw ∈ db.redis.dlq
  | _ => True

def typestate : Typestate machine where
  Phase := Phase
  init := .idle
  allowed := Phase.allowed
  next := fun φ q r ψ => ψ = φ.next q r
  holds := fun t φ db => φ.Holds t db
  inv := Inv

end Phases

section Commands

variable {t u : Nat} {φ ψ : Phase} {c : Timestamp} {db db' : Db}

theorem sources_add {redis : Redis} {id : Uuid} (h : id ∉ redis.delayed.members) (score : Int) :
    Redis.sources { redis with delayed := (redis.delayed.add id score).2 } =
      .delayed id :: redis.sources := by
  simp only [Redis.sources, (ZSet.members_add h score).2, List.map_cons, List.cons_append]

theorem sources_rescored {redis : Redis} {id : Uuid} (h : id ∈ redis.delayed.members)
    (score : Int) :
    Redis.sources { redis with delayed := (redis.delayed.add id score).2 } = redis.sources := by
  simp only [Redis.sources, (ZSet.members_add_of_mem h score).2]

theorem sources_removed {redis : Redis} {id : Uuid} (h : id ∈ redis.delayed.members) :
    redis.sources.Perm
      (.delayed id :: Redis.sources { redis with delayed := (redis.delayed.remove id).2 }) := by
  have hsplit := (List.perm_cons_erase h).map Source.delayed
  simp only [Redis.sources, ZSet.members_remove]
  exact hsplit.append_right (redis.dlq.map .dead)

theorem sources_kept {redis : Redis} {id : Uuid} (h : id ∉ redis.delayed.members) :
    Redis.sources { redis with delayed := (redis.delayed.remove id).2 } = redis.sources := by
  simp only [Redis.sources, ZSet.members_remove, List.erase_of_not_mem h]

theorem sources_buried (redis : Redis) (raw : DeadLetter) :
    (Redis.sources { redis with dlq := redis.dlq ++ [raw] }).Perm (.dead raw :: redis.sources) := by
  simp only [Redis.sources, List.map_append, List.map_cons, List.map_nil]
  rw [← List.append_assoc]
  exact List.perm_append_singleton _ _

theorem sources_exhumed {redis : Redis} {raw : DeadLetter} (h : raw ∈ redis.dlq) :
    redis.sources.Perm (.dead raw :: Redis.sources { redis with dlq := redis.dlq.erase raw }) := by
  have hsplit := (List.perm_cons_erase h).map Source.dead
  simp only [Redis.sources]
  exact (hsplit.append_left _).trans List.perm_middle

theorem exec_inv {q : Stmt} {r : Result q} (hinv : Inv db) (hφ : φ.Holds t db)
    (hallowed : φ.allowed q) (h : exec t q c db = some (r, db')) : Inv db' := by
  obtain ⟨redis, journal⟩ := db
  obtain ⟨hentries, hpushes⟩ := hinv
  cases q with
  | time | zrangebyscore | lrange =>
      cases h
      exact ⟨hentries, hpushes⟩
  | rpush id source =>
      cases h
      cases source with
      | none =>
          refine ⟨hentries, ?_⟩
          have hcons := hpushes.cons id
          have hlast := (List.perm_append_singleton id (journal.delivered ++ redis.queue)).symm
          rw [List.append_assoc] at hlast
          exact hcons.trans hlast
      | some source =>
          obtain ⟨hheld, rfl⟩ := hallowed
          have hmem : (t, source) ∈ journal.entries.held := by
            rw [← Ledger.mem_held_iff, hφ.held, hheld]
            exact List.mem_singleton_self source
          refine ⟨hentries.move hmem, ?_⟩
          have hcons := hpushes.cons source.id
          have hlast :=
            (List.perm_append_singleton source.id (journal.delivered ++ redis.queue)).symm
          have hmiddle : (journal.enqueued ++ source.id :: journal.entries.moved.map Source.id).Perm
              (source.id :: journal.pushed) := List.perm_middle
          rw [List.append_assoc] at hlast
          exact (hmiddle.trans hcons).trans hlast
  | zadd id score =>
      cases h
      by_cases hmem : id ∈ redis.delayed.members
      · rw [(ZSet.members_add_of_mem hmem score).1, if_neg (Nat.lt_irrefl 0)]
        refine ⟨?_, hpushes⟩
        rw [sources_rescored hmem]
        exact hentries
      · rw [(ZSet.members_add hmem score).1, if_pos Nat.one_pos]
        refine ⟨hentries.add ?_, hpushes⟩
        rw [sources_add hmem]
  | zrem id =>
      cases h
      by_cases hmem : id ∈ redis.delayed.members
      · rw [if_pos (ZSet.remove_fst_pos.mpr hmem)]
        exact ⟨hentries.take (sources_removed hmem), hpushes⟩
      · rw [if_neg (mt ZSet.remove_fst_pos.mp hmem)]
        refine ⟨?_, hpushes⟩
        rw [sources_kept hmem]
        exact hentries
  | blpop timeout =>
      simp only [exec] at h
      split at h
      · split at h
        · cases h
        · cases h
          exact ⟨hentries, hpushes⟩
      · rename_i id rest hqueue
        cases h
        refine ⟨hentries, hpushes.trans ?_⟩
        rw [hqueue]
        exact List.perm_middle
  | rpushDlq raw =>
      cases h
      exact ⟨hentries.add (sources_buried redis raw), hpushes⟩
  | lrem raw =>
      simp only [exec] at h
      split at h
      · rename_i hmem
        cases h
        exact ⟨hentries.take (sources_exhumed hmem), hpushes⟩
      · cases h
        exact ⟨hentries, hpushes⟩

theorem exec_next {q : Stmt} {r : Result q} (hφ : φ.Holds t db) (hallowed : φ.allowed q)
    (hdead : StillDead db t q) (h : exec t q c db = some (r, db')) : (φ.next q r).Holds t db' := by
  obtain ⟨redis, journal⟩ := db
  obtain ⟨hheld, hmoved, hgiven⟩ := hφ
  cases q with
  | time | zrangebyscore | lrange | rpushDlq =>
      cases h
      exact ⟨hheld, hmoved, hgiven⟩
  | rpush id source =>
      cases h
      cases source with
      | none => exact ⟨hheld, hmoved, hgiven⟩
      | some source =>
          refine ⟨?_, ?_, hgiven⟩
          · have herase : (journal.entries.move t source).heldBy t = [source].erase source := by
              rw [Ledger.heldBy_move]
              exact congrArg (List.erase · source) (hheld.trans hallowed.1)
            rw [List.erase_cons_head] at herase
            exact herase
          · have hpush := congrArg (List.cons source) hmoved
            exact (Function.update_self _ _ _).trans hpush
  | zadd id score =>
      cases h
      split <;> exact ⟨hheld, hmoved, hgiven⟩
  | zrem id =>
      cases h
      dsimp only [Phase.next]
      split
      · refine ⟨?_, hmoved, hgiven⟩
        have htake : (journal.entries.take t (.delayed id)).heldBy t = .delayed id :: [] := by
          rw [Ledger.heldBy_take]
          exact congrArg (List.cons _) (hheld.trans hallowed)
        exact htake
      · exact ⟨hheld, hmoved, hgiven⟩
  | blpop timeout =>
      simp only [exec] at h
      split at h
      · split at h
        · cases h
        · cases h
          exact ⟨hheld, hmoved, hgiven⟩
      · rename_i id rest hqueue
        cases h
        refine ⟨hheld, hmoved, ?_⟩
        have hpop := congrArg (List.cons id) hgiven
        simpa [Journal.deliver, Phase.next] using hpop
  | lrem raw =>
      have hmem : raw ∈ redis.dlq := hdead
      simp only [exec, if_pos hmem] at h
      cases h
      refine ⟨?_, hmoved, hgiven⟩
      have htake : (journal.entries.take t (.dead raw)).heldBy t = .dead raw :: [] := by
        rw [Ledger.heldBy_take]
        exact congrArg (List.cons _) (hheld.trans hallowed)
      exact htake

theorem exec_frame {q : Stmt} {r : Result q} (h : exec t q c db = some (r, db')) (hu : u ≠ t)
    (hψ : ψ.Holds u db) : ψ.Holds u db' := by
  obtain ⟨redis, journal⟩ := db
  obtain ⟨hheld, hmoved, hgiven⟩ := hψ
  cases q with
  | time | zrangebyscore | lrange | rpushDlq =>
      cases h
      exact ⟨hheld, hmoved, hgiven⟩
  | rpush id source =>
      cases h
      cases source with
      | none => exact ⟨hheld, hmoved, hgiven⟩
      | some source =>
          refine ⟨(Ledger.heldBy_move_of_ne hu).trans hheld, ?_, hgiven⟩
          exact (Function.update_of_ne hu _ _).trans hmoved
  | zadd id score =>
      cases h
      split <;> exact ⟨hheld, hmoved, hgiven⟩
  | zrem id =>
      cases h
      split
      · exact ⟨(Ledger.heldBy_take_of_ne hu).trans hheld, hmoved, hgiven⟩
      · exact ⟨hheld, hmoved, hgiven⟩
  | blpop timeout =>
      simp only [exec] at h
      split at h
      · split at h
        · cases h
        · cases h
          exact ⟨hheld, hmoved, hgiven⟩
      · cases h
        exact ⟨hheld, hmoved, (Function.update_of_ne hu _ _).trans hgiven⟩
  | lrem raw =>
      simp only [exec] at h
      split at h
      · cases h
        exact ⟨(Ledger.heldBy_take_of_ne hu).trans hheld, hmoved, hgiven⟩
      · cases h
        exact ⟨hheld, hmoved, hgiven⟩

theorem close_inv (hinv : Inv db) : Inv (close t db) :=
  ⟨hinv.entries.drop, hinv.pushes⟩

theorem close_idle : Phase.idle.Holds t (close t db) where
  held := Ledger.heldBy_drop
  moved := Function.update_self _ _ _
  given := Function.update_self _ _ _

theorem close_frame (hu : u ≠ t) (hψ : ψ.Holds u db) : ψ.Holds u (close t db) where
  held := (Ledger.heldBy_drop_of_ne hu).trans hψ.held
  moved := (Function.update_of_ne hu _ _).trans hψ.moved
  given := (Function.update_of_ne hu _ _).trans hψ.given

theorem typestate_sound (hbody : ∀ call, typestate.Follows .idle (body call) fun _ _ => True) :
    typestate.Sound StillDead where
  body := hbody
  exec hinv hφ hallowed hdead h :=
    ⟨exec_inv hinv hφ hallowed h, _, rfl, exec_next hφ hallowed hdead h⟩
  frame _ _ _ _ h hu hψ := exec_frame h hu hψ
  close hinv _ := ⟨close_inv hinv, close_idle⟩
  closeFrame _ _ hu hψ := close_frame hu hψ

end Commands

section Methods

variable {φ : Phase}

def Answers (out : Out) (φ : Phase) : Prop :=
  φ.held = [] ∧
    match out with
    | .none => True
    | .promoted count => φ.moved.length = count
    | .dequeued investigationId => φ.given = investigationId.toList
    | .replayed found => found = true ↔ ∃ raw, φ.moved = [.dead raw]

theorem promoteItems_follows (readyItems : List Uuid) (promoted : Nat) (hheld : φ.held = [])
    (hmoved : φ.moved.length = promoted) :
    typestate.Follows φ (promoteItems readyItems promoted) fun count ψ =>
      ψ.held = [] ∧ ψ.moved.length = count := by
  induction readyItems generalizing φ promoted with
  | nil => exact ⟨hheld, hmoved⟩
  | cons item readyItems ih =>
      refine Typestate.Follows.call hheld fun (removed : Nat) ψ hψ => ?_
      obtain rfl := hψ
      by_cases hremoved : removed > 0
      · have hnext : φ.next (.zrem item) removed = { φ with held := [.delayed item] } :=
          if_pos hremoved
        rw [if_pos hremoved]
        refine Typestate.Follows.call ⟨congrArg Phase.held hnext, rfl⟩ fun _ χ hχ => ?_
        obtain rfl := hχ
        refine ih (promoted + 1) rfl ?_
        rw [hnext]
        exact congrArg Nat.succ hmoved
      · have hnext : φ.next (.zrem item) removed = φ := if_neg hremoved
        rw [if_neg hremoved, hnext]
        exact ih promoted hheld hmoved

theorem replayFromDlq_follows (investigationId : Uuid) :
    typestate.Follows .idle (replayFromDlq investigationId) fun found ψ =>
      ψ.held = [] ∧ (found = true ↔ ∃ raw, ψ.moved = [.dead raw]) := by
  refine Typestate.Follows.call trivial fun items ψ hψ => ?_
  obtain rfl := hψ
  cases hfind : items.find? fun raw => decide (raw.id = investigationId) with
  | none => exact ⟨rfl, iff_of_false Bool.false_ne_true fun ⟨raw, hraw⟩ => by cases hraw⟩
  | some raw =>
      have hid : raw.id = investigationId := by simpa using List.find?_some hfind
      refine Typestate.Follows.call rfl fun _ χ hχ => ?_
      obtain rfl := hχ
      refine Typestate.Follows.call ⟨rfl, hid⟩ fun _ χ hχ => ?_
      obtain rfl := hχ
      exact ⟨rfl, iff_of_true rfl ⟨raw, rfl⟩⟩

theorem body_answers (c : Call) : typestate.Follows .idle (body c) Answers := by
  cases c with
  | enqueue investigationId =>
      refine Typestate.Follows.call trivial fun _ ψ hψ => ?_
      obtain rfl := hψ
      exact ⟨rfl, trivial⟩
  | enqueueDelayed investigationId delaySeconds =>
      refine Typestate.Follows.call trivial fun now ψ hψ => ?_
      obtain rfl := hψ
      refine Typestate.Follows.call trivial fun _ ψ hψ => ?_
      obtain rfl := hψ
      exact ⟨rfl, trivial⟩
  | promoteDelayed =>
      refine Typestate.Follows.call trivial fun now ψ hψ => ?_
      obtain rfl := hψ
      refine Typestate.Follows.call trivial fun readyItems ψ hψ => ?_
      obtain rfl := hψ
      refine Typestate.Follows.bind (promoteItems_follows readyItems 0 rfl rfl) ?_
      exact fun count ψ hψ => hψ
  | dequeue timeout =>
      refine Typestate.Follows.call trivial fun item ψ hψ => ?_
      obtain rfl := hψ
      exact ⟨rfl, List.append_nil _⟩
  | sendToDlq investigationId reason errorClass =>
      refine Typestate.Follows.call trivial fun ts ψ hψ => ?_
      obtain rfl := hψ
      refine Typestate.Follows.call trivial fun _ ψ hψ => ?_
      obtain rfl := hψ
      exact ⟨rfl, trivial⟩
  | replayFromDlq investigationId =>
      refine Typestate.Follows.bind (replayFromDlq_follows investigationId) ?_
      exact fun found ψ hψ => hψ

end Methods

section Runs

variable {s s' : State machine}

def Uncrashed (s : State machine) : Label machine → Prop
  | .stop t => ∃ out, s.procs t = some (.done out)
  | _ => True

def Guarded (s : State machine) (l : Label machine) : Prop :=
  Uncrashed s l ∧ Typestate.stmtOk (M := machine) StillDead s l

structure Conserved (s : State machine) : Prop where
  entries : s.db.journal.entries.Balanced s.db.redis.sources
  unlost : s.db.journal.entries.lost = []
  carried : ∀ t source, (t, source) ∈ s.db.journal.entries.held →
    ∃ p, s.procs t = some p ∧ ∀ out, p ≠ .done out
  once : ∀ source, s.db.journal.entries.moved.count source + s.db.redis.sources.count source ≤
    s.db.journal.entries.added.count source
  pushes : s.db.journal.pushed.Perm (s.db.journal.delivered ++ s.db.redis.queue)
  replayed : ∀ t found, s.procs t = some (.done (.replayed found)) →
    (found = true ↔ ∃ raw, s.db.journal.moves t = [.dead raw])
  dequeued : ∀ t investigationId, s.procs t = some (.done (.dequeued investigationId)) →
    s.db.journal.given t = investigationId.toList

theorem sound : typestate.Sound StillDead :=
  typestate_sound fun c => (body_answers c).mono fun _ _ _ => trivial

theorem lost_exec {t : Nat} {q : Stmt} {c : Timestamp} {db db' : Db} {r : Result q}
    (h : exec t q c db = some (r, db')) :
    db'.journal.entries.lost = db.journal.entries.lost := by
  obtain ⟨redis, journal⟩ := db
  cases q with
  | rpush id source => cases source <;> cases h <;> rfl
  | zadd | zrem =>
      cases h
      split <;> rfl
  | blpop =>
      simp only [exec] at h
      split at h
      · split at h <;> cases h
        rfl
      · cases h
        rfl
  | lrem =>
      simp only [exec] at h
      split at h <;> cases h <;> rfl
  | _ =>
      cases h
      rfl

theorem lost_step {l : Label machine} (hg : typestate.GoodTo Answers s)
    (hok : Uncrashed s l) (h : step s l = some s') :
    s'.db.journal.entries.lost = s.db.journal.entries.lost := by
  cases l with
  | start t c =>
      obtain ⟨_, rfl⟩ := step_start h
      rfl
  | exec t c =>
      obtain ⟨q, k, r, db, _, hr, rfl⟩ := step_exec h
      exact lost_exec hr
  | stop t =>
      obtain rfl := step_stop h
      obtain ⟨out, hdone⟩ := hok
      have hsafe := hg.2 t
      rw [hdone] at hsafe
      obtain ⟨φ, hφ, hheld, _⟩ := hsafe
      exact Ledger.lost_drop (hφ.held.trans hheld)

def Kept (s : State machine) : Prop :=
  typestate.GoodTo Answers s ∧ s.db.journal.entries.lost = []

theorem kept_start : Kept (State.initial Db.start) := by
  refine ⟨⟨⟨Ledger.balanced_empty, .refl _⟩, fun t => ?_⟩, rfl⟩
  exact ⟨rfl, rfl, rfl⟩

theorem kept_step {l : Label machine} (hs : Kept s) (hok : Guarded s l)
    (h : step s l = some s') : Kept s' :=
  ⟨Typestate.goodTo_step sound body_answers hs.1 hok.2 h, (lost_step hs.1 hok.1 h).trans hs.2⟩

theorem Kept.done {t : Nat} {out : Out} (hs : Kept s) (h : s.procs t = some (.done out)) :
    ∃ φ : Phase, φ.Holds t s.db ∧ Answers out φ := by
  have hsafe := hs.1.2 t
  rw [h] at hsafe
  exact hsafe

theorem Kept.conserved (hs : Kept s) : Conserved s where
  entries := hs.1.1.entries
  unlost := hs.2
  carried t source hmem := by
    have hheld : source ∈ s.db.journal.entries.heldBy t := Ledger.mem_held_iff.mpr hmem
    cases hp : s.procs t with
    | none =>
        have hidle := hs.1.2 t
        rw [hp] at hidle
        rw [hidle.held] at hheld
        cases hheld
    | some p =>
        refine ⟨p, rfl, ?_⟩
        rintro out rfl
        obtain ⟨φ, hφ, hempty, _⟩ := hs.done hp
        rw [hφ.held, hempty] at hheld
        cases hheld
  once := hs.1.1.entries.count_le
  pushes := hs.1.1.pushes
  replayed t found hp := by
    obtain ⟨φ, hφ, _, hfound⟩ := hs.done hp
    rw [hφ.moved]
    exact hfound
  dequeued t investigationId hp := by
    obtain ⟨φ, hφ, _, hgiven⟩ := hs.done hp
    rw [hφ.given]
    exact hgiven

theorem queue_conserves_jobs (s : State machine)
    (h : Run Guarded (State.initial Db.start) s) : Conserved s := by
  have hkept : Kept s := h.invariant (fun _ _ _ hs hok hstep => kept_step hs hok hstep) kept_start
  exact hkept.conserved

end Runs

section Traces

def uncrashed (s : State machine) : Label machine → Bool
  | .stop t =>
      match s.procs t with
      | some (.done _) => true
      | _ => false
  | _ => true

theorem uncrashed_of_true {s : State machine} {l : Label machine} (h : uncrashed s l = true) :
    Uncrashed s l := by
  cases l with
  | stop t =>
      simp only [uncrashed] at h
      split at h
      · rename_i out hp
        exact ⟨out, hp⟩
      · cases h
  | start | exec => trivial

def stillDead (s : State machine) : Label machine → Bool
  | .exec t _ =>
      match s.procs t with
      | some (.stmt (.lrem raw) _) => raw ∈ s.db.redis.dlq
      | _ => true
  | _ => true

theorem stillDead_of_true {s : State machine} {l : Label machine} (h : stillDead s l = true) :
    Typestate.stmtOk (M := machine) StillDead s l := by
  cases l with
  | exec t c =>
      intro q k hp
      cases q with
      | lrem raw =>
          simp only [stillDead, hp] at h
          have hmem : raw ∈ s.db.redis.dlq := of_decide_eq_true h
          exact hmem
      | _ => trivial
  | start | stop => trivial

def execs (t : Nat) : Nat → List (Label machine)
  | 0 => []
  | n + 1 => .exec t (3000000 : Int) :: execs t n

def carefulTrace : List (Label machine) :=
  [.start 0 (.enqueueDelayed 5 2)] ++ execs 0 2 ++ [.stop 0, .start 1 .promoteDelayed] ++
    [.exec 1 (6000000 : Int), .start 2 .promoteDelayed, .exec 2 (6000000 : Int)] ++ execs 1 1 ++
    execs 2 2 ++ execs 1 1 ++ execs 2 1 ++ [.stop 1, .stop 2] ++
    [.start 0 (.sendToDlq 7 "timeout" "permanent")] ++ execs 0 2 ++ [.stop 0] ++
    [.start 3 (.replayFromDlq 7)] ++ execs 3 3 ++ [.start 4 (.dequeue 1)] ++ execs 4 1

def settled (s : State machine) : Bool :=
  s.db.redis.queue = [7] && s.db.journal.delivered = [5] && s.db.redis.dlq = []

theorem careful_trace_conserves :
    ∃ s, Run Guarded (State.initial Db.start) s ∧ settled s = true ∧ Conserved s := by
  have hrun : (Transition.execWhile step (fun s l => uncrashed s l && stillDead s l)
      (State.initial Db.start) carefulTrace).any settled = true := by
    decide
  obtain ⟨s, hs, hsettled⟩ := Transition.run_of_execWhile_any hrun
  have hguarded : Run Guarded (State.initial Db.start) s := by
    refine hs.mono fun s l h => ?_
    obtain ⟨huncrashed, hdead⟩ := Bool.and_eq_true_iff.mp h
    exact ⟨uncrashed_of_true huncrashed, stillDead_of_true hdead⟩
  exact ⟨s, hguarded, hsettled, queue_conserves_jobs s hguarded⟩

def doubleReplay : List (Label machine) :=
  [.start 0 (.sendToDlq 7 "timeout" "permanent")] ++ execs 0 2 ++
    [.start 1 (.replayFromDlq 7), .start 2 (.replayFromDlq 7)] ++ execs 1 1 ++ execs 2 1 ++
    execs 1 2 ++ execs 2 2

def doubled (s : State machine) : Bool :=
  s.db.journal.entries.added.any fun source =>
    s.db.journal.entries.added.count source < s.db.journal.entries.moved.count source

theorem replays_duplicate :
    ∃ s, Run Uncrashed (State.initial Db.start) s ∧ s.db.redis.queue = [7, 7] ∧ ¬ Conserved s := by
  have hrun : (Transition.execWhile step uncrashed (State.initial Db.start) doubleReplay).any
      (fun s => s.db.redis.queue = [7, 7] && doubled s) = true := by
    decide
  obtain ⟨s, hs, hboth⟩ := Transition.run_of_execWhile_any hrun
  obtain ⟨hqueue, hdoubled⟩ := Bool.and_eq_true_iff.mp hboth
  refine ⟨s, hs.mono fun s l h => uncrashed_of_true h, of_decide_eq_true hqueue, fun hc => ?_⟩
  obtain ⟨source, _, hless⟩ := List.any_eq_true.mp hdoubled
  have honce := hc.once source
  have htwice := of_decide_eq_true hless
  omega

end Traces

end InvestigationQueue
