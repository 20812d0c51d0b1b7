import AiSoc.Realtime.Admission

namespace Sockets

open Tokens (UuidValue UrlsafeToken)
open Transition (Run)

section Load

variable {settings : Settings}

def Phase.isAccepting : Phase → Bool
  | .accepting _ => true
  | _ => false

def accepting (w : World) : Nat :=
  w.sockets.countP fun socket => socket.phase.isAccepting

def AtMostAccepting (settings : Settings) (k : Nat) (w : World) (event : Event) : Prop :=
  ∀ w', step settings w event = some w' → accepting w' ≤ k

theorem authenticate_isAccepting (w : World) (socket : Socket) :
    (socket.authenticate settings w).phase.isAccepting = false := by
  rw [Socket.authenticate]
  split
  · split <;> rfl
  · rfl

theorem advance_isAccepting {w : World} {socket next : Socket} {act : Act}
    (h : advance settings w socket act socket.phase = some next)
    (hnext : next.phase.isAccepting = true) :
    act = .connect ∧ w.connections.length < settings.realtimeMaxConnections := by
  simp only [advance] at h
  split at h
  case h_1 =>
    cases h
    rw [authenticate_isAccepting] at hnext
    cases hnext
  case h_5 =>
    cases h
    refine ⟨rfl, Nat.lt_of_not_le fun hfull => ?_⟩
    rw [if_pos hfull] at hnext
    cases hnext
  all_goals
    rename_i hphase
    (try split at h) <;> cases h <;>
      first
        | cases hnext
        | (rw [hphase] at hnext
           cases hnext)

theorem advance_accept {w : World} {socket next : Socket}
    (h : advance settings w socket .accept socket.phase = some next) :
    ∃ identity, socket.phase = .accepting identity ∧
      next = socket.enter w.now (.serving identity .created) := by
  cases hphase : socket.phase with
  | accepting identity =>
      rw [hphase] at h
      exact ⟨identity, rfl, (Option.some.inj h).symm⟩
  | answered identity =>
      rw [hphase] at h
      cases identity <;> cases h
  | serving identity heartbeat =>
      rw [hphase] at h
      cases heartbeat <;> cases h
  | _ =>
      rw [hphase] at h
      cases h

theorem accepting_perform (settings : Settings) {w : World} {i : Nat} (act : Act)
    {socket : Socket} (next : Socket)
    (h : w.sockets[i]? = some socket) :
    accepting (w.perform settings i act socket next) + socket.phase.isAccepting.toNat =
      accepting w + next.phase.isAccepting.toNat := by
  obtain ⟨hlt, hget⟩ := List.getElem?_eq_some_iff.mp h
  have hset := List.countP_set (p := fun s : Socket => s.phase.isAccepting) (a := next) hlt
  have hpos : (if (w.sockets[i]).phase.isAccepting = true then 1 else 0) ≤
      w.sockets.countP fun s => s.phase.isAccepting :=
    List.boole_getElem_le_countP (p := fun s : Socket => s.phase.isAccepting) hlt
  rw [hget] at hset hpos
  rw [accepting, accepting, World.perform, hset]
  cases hsocket : socket.phase.isAccepting <;> cases hnext : next.phase.isAccepting <;>
    simp only [hsocket, if_true, Bool.toNat_true, Bool.toNat_false, Bool.false_eq_true,
      if_false] at hpos ⊢ <;> omega

theorem accepting_of_step {w w' : World} {event : Event} (h : step settings w event = some w')
    (hevent : ∀ i act, event ≠ .act i act) :
    accepting w' = accepting w ∧ w'.connections = w.connections := by
  cases event with
  | act i act => exact absurd rfl (hevent i act)
  | tick later =>
      obtain ⟨-, rfl⟩ := step_tick h
      exact ⟨rfl, rfl⟩
  | arrive origin ticket =>
      cases h
      refine ⟨?_, rfl⟩
      rw [accepting, accepting, List.countP_append]
      rfl
  | _ =>
      cases h
      exact ⟨rfl, rfl⟩

theorem length_connectionsAfter (connections : List Nat) (i : Nat) {act : Act}
    (hact : act ≠ .accept) : (connectionsAfter connections i act).length ≤ connections.length := by
  cases act with
  | accept => exact absurd rfl hact
  | disconnect => exact List.length_filter_le _ _
  | _ => exact Nat.le_refl _

theorem load_of_step {k : Nat} {w w' : World} {event : Event}
    (h : step settings w event = some w') (hk : accepting w' ≤ k)
    (hw : w.connections.length + accepting w ≤ settings.realtimeMaxConnections - 1 + k) :
    w'.connections.length + accepting w' ≤ settings.realtimeMaxConnections - 1 + k := by
  by_cases hevent : ∃ i act, event = .act i act
  · obtain ⟨i, act, rfl⟩ := hevent
    obtain ⟨socket, next, hsocket, hnext, rfl⟩ := step_act h
    have hcount := accepting_perform settings act next hsocket
    by_cases haccepting : next.phase.isAccepting = true
    · obtain ⟨rfl, hroom⟩ := advance_isAccepting hnext haccepting
      have hsame : (w.perform settings i .connect socket next).connections = w.connections := rfl
      rw [hsame]
      omega
    · rw [Bool.not_eq_true] at haccepting
      rw [haccepting, Bool.toNat_false] at hcount
      by_cases hact : act = .accept
      · subst hact
        obtain ⟨identity, hphase, -⟩ := advance_accept hnext
        have hone : socket.phase.isAccepting.toNat = 1 := by rw [hphase]; rfl
        have hlength : (w.perform settings i .accept socket next).connections.length =
            w.connections.length + 1 := List.length_append
        omega
      · have hlength : (w.perform settings i act socket next).connections.length ≤
            w.connections.length := length_connectionsAfter w.connections i hact
        omega
  · obtain ⟨hcount, hconnections⟩ := accepting_of_step h fun i act heq => hevent ⟨i, act, heq⟩
    rw [hcount, hconnections]
    exact hw

theorem connections_bounded {k : Nat} {now : Int} {users : Nat → Option User}
    {families : Nat → Bool} {w : World}
    (h : Run (step settings) (AtMostAccepting settings k) (start now users families) w) :
    w.connections.length + accepting w ≤ settings.realtimeMaxConnections - 1 + k :=
  h.invariant (fun _ _ _ hw hk hstep => load_of_step hstep (hk _ hstep) hw) (Nat.zero_le _)

end Load

section Reach

theorem authenticate_of_consumed {settings : Settings} {w : World} {socket : Socket}
    {userId familyId : Nat} (horigin : originAllowed settings socket.origin = true)
    (hconsumed : (consumeTicket settings w.redis w.now socket.ticket).1 =
      some (userId, familyId)) :
    socket.authenticate settings w =
      { socket.enter w.now (.readingUser ⟨userId, familyId⟩) with
        admission := some (⟨userId, familyId⟩, w.now) } := by
  rw [Socket.authenticate, if_pos horigin, hconsumed]

variable {settings : Settings} {k : Nat}

structure SameData (w w' : World) : Prop where
  users : w'.users = w.users
  families : w'.families = w.families

theorem SameData.trans {w w' w'' : World} (h : SameData w w') (h' : SameData w' w'') :
    SameData w w'' :=
  ⟨h'.users.trans h.users, h'.families.trans h.families⟩

structure Leads (settings : Settings) (k : Nat) (w w' : World) (s : Socket) : Prop where
  run : Run (step settings) (AtMostAccepting settings k) w w'
  sockets : w'.sockets = w.sockets ++ [s]
  data : SameData w w'
  connections : w'.connections = w.connections

theorem accepting_append {w w' : World} {s : Socket} (h : w'.sockets = w.sockets ++ [s]) :
    accepting w' = accepting w + s.phase.isAccepting.toNat := by
  rw [accepting, accepting, h, List.countP_append, List.countP_singleton]
  cases s.phase.isAccepting <;> rfl

theorem run_one {w w' : World} (event : Event) (h : step settings w event = some w')
    (hk : accepting w' ≤ k) : Run (step settings) (AtMostAccepting settings k) w w' := by
  refine (Run.refl w).tail (fun w'' h'' => ?_) h
  rw [h] at h''
  cases h''
  exact hk

theorem Leads.act {w w' : World} {s : Socket} (h : Leads settings k w w' s) (act : Act)
    (next : Socket) (hroom : accepting w + 1 ≤ k)
    (hadvance : advance settings w' s act s.phase = some next)
    (hconnections : connectionsAfter w'.connections w.sockets.length act = w'.connections) :
    Leads settings k w (w'.perform settings w.sockets.length act s next) next := by
  have hget : w'.sockets[w.sockets.length]? = some s := by
    rw [h.sockets, List.getElem?_append_right (Nat.le_refl _), Nat.sub_self]
    rfl
  have hstep : step settings w' (.act w.sockets.length act) =
      some (w'.perform settings w.sockets.length act s next) := by
    rw [step, hget, Option.bind_some, hadvance]
    rfl
  have hsockets : (w'.perform settings w.sockets.length act s next).sockets =
      w.sockets ++ [next] := by
    rw [World.perform, h.sockets, List.set_append_right _ _ (Nat.le_refl _), Nat.sub_self]
    rfl
  have hcount := accepting_append hsockets
  have hone := Bool.toNat_le next.phase.isAccepting
  exact
    { run := h.run.trans (run_one _ hstep (by omega))
      sockets := hsockets
      data := h.data.trans ⟨rfl, rfl⟩
      connections := hconnections.trans h.connections }

theorem exists_accepting (w : World) (ticket : UrlsafeToken) (userId familyId : UuidValue)
    (httl : 1 ≤ settings.store.ttlSeconds) (huser : permitted (w.users userId.val) = true)
    (hfamily : w.families familyId.val = true)
    (hfree : w.connections.length < settings.realtimeMaxConnections)
    (hroom : accepting w + 1 ≤ k) :
    ∃ w' s, Leads settings k w w' s ∧ s.phase.isAccepting = true := by
  let identity : Identity := ⟨userId.val, familyId.val⟩
  let issued : World := { w with
    redis := (settings.store.issue w.redis w.now ticket userId familyId).2
    issued := w.issued ++ [⟨ticket, userId, familyId, w.now⟩] }
  let here : Socket := arriving w.now none (some ticket.value)
  let arrived : World := { issued with sockets := issued.sockets ++ [here] }
  have hissue : Run (step settings) (AtMostAccepting settings k) w issued :=
    run_one (.issue ticket userId familyId) rfl (Nat.le_of_succ_le hroom)
  have harriving : accepting arrived ≤ k := by
    have hcount : accepting arrived = accepting issued + here.phase.isAccepting.toNat :=
      accepting_append rfl
    rw [hcount]
    exact Nat.le_of_succ_le hroom
  have harrived : Leads settings k w arrived here :=
    { run := hissue.trans (run_one (.arrive none (some ticket.value)) rfl harriving)
      sockets := rfl
      data := ⟨rfl, rfl⟩
      connections := rfl }
  have hlive : w.now < w.now + settings.store.ttlSeconds * 1000000 :=
    Int.lt_add_of_pos_right w.now (by omega)
  have hconsumed : (consumeTicket settings arrived.redis arrived.now here.ticket).1 =
      some (userId.val, familyId.val) :=
    (congrArg Prod.fst (if_neg ticket.nonempty)).trans
      (Tickets.consume_issued w.redis w.now w.now ticket userId familyId [] nofun hlive)
  obtain ⟨w1, s1, h1, hphase1⟩ :
      ∃ w1 s1, Leads settings k w w1 s1 ∧ s1.phase = .readingUser identity :=
    ⟨_, _, harrived.act .authenticate _ hroom
      (congrArg some (authenticate_of_consumed rfl hconsumed)) rfl, rfl⟩
  obtain ⟨w2, s2, h2, hphase2⟩ :
      ∃ w2 s2, Leads settings k w w2 s2 ∧ s2.phase = .readingFamily identity := by
    refine ⟨_, _, h1.act .readUser (s1.enter w1.now (.readingFamily identity)) hroom ?_ rfl, rfl⟩
    rw [hphase1, advance, h1.data.users, if_pos huser]
  obtain ⟨w3, s3, h3, hphase3⟩ :
      ∃ w3 s3, Leads settings k w w3 s3 ∧ s3.phase = .answered (some identity) := by
    refine ⟨_, _, h2.act .readFamily (s2.enter w2.now (.answered (some identity))) hroom ?_ rfl,
      rfl⟩
    rw [hphase2, advance, h2.data.families, if_pos hfamily]
  refine ⟨_, _, h3.act .connect (s3.enter w3.now (.accepting identity)) hroom ?_ rfl, rfl⟩
  rw [hphase3, advance, h3.connections, if_neg (Nat.not_le.mpr hfree)]

theorem exists_accepted (n : Nat) (w : World) (hn : accepting w = n) (hk : n ≤ k) :
    ∃ w', Run (step settings) (AtMostAccepting settings k) w w' ∧ SameData w w' ∧
      accepting w' = 0 ∧ w'.connections.length = w.connections.length + n := by
  induction n generalizing w with
  | zero => exact ⟨w, .refl w, ⟨rfl, rfl⟩, hn, rfl⟩
  | succ n ih =>
      have hpos : 0 < w.sockets.countP fun socket => socket.phase.isAccepting := by
        rw [accepting] at hn
        omega
      obtain ⟨socket, hmem, haccepting⟩ := List.countP_pos_iff.mp hpos
      obtain ⟨i, hi⟩ := List.mem_iff_getElem?.mp hmem
      obtain ⟨identity, hphase⟩ : ∃ identity, socket.phase = .accepting identity := by
        cases hphase : socket.phase with
        | accepting identity => exact ⟨identity, rfl⟩
        | _ =>
            rw [hphase] at haccepting
            cases haccepting
      let next : Socket := socket.enter w.now (.serving identity .created)
      have hstep : step settings w (.act i .accept) =
          some (w.perform settings i .accept socket next) := by
        rw [step, hi, Option.bind_some, hphase]
        rfl
      have hcount := accepting_perform settings .accept next hi
      have hnext : next.phase.isAccepting.toNat = 0 := rfl
      rw [haccepting, Bool.toNat_true, hnext, hn] at hcount
      obtain ⟨w', hrun, hdata, hnone, hlength⟩ :=
        ih (w.perform settings i .accept socket next) (by omega) (by omega)
      have hone : (w.perform settings i .accept socket next).connections.length =
          w.connections.length + 1 := List.length_append
      exact ⟨w', (run_one _ hstep (by omega)).trans hrun, ⟨hdata.users, hdata.families⟩, hnone,
        by omega⟩

theorem exists_waiting (n : Nat) (w : World) (ticket : UrlsafeToken) (userId familyId : UuidValue)
    (httl : 1 ≤ settings.store.ttlSeconds) (huser : permitted (w.users userId.val) = true)
    (hfamily : w.families familyId.val = true)
    (hfree : w.connections.length < settings.realtimeMaxConnections)
    (hroom : accepting w + n ≤ k) :
    ∃ w', Run (step settings) (AtMostAccepting settings k) w w' ∧ SameData w w' ∧
      accepting w' = accepting w + n ∧ w'.connections = w.connections := by
  induction n generalizing w with
  | zero => exact ⟨w, .refl w, ⟨rfl, rfl⟩, rfl, rfl⟩
  | succ n ih =>
      obtain ⟨w1, s, hleads, haccepting⟩ := exists_accepting w ticket userId familyId httl huser
        hfamily hfree (k := k) (by omega)
      have hcount := accepting_append hleads.sockets
      rw [haccepting, Bool.toNat_true] at hcount
      obtain ⟨w', hrun, hdata, hwaiting, hconnections⟩ := ih w1
        (by rw [hleads.data.users]; exact huser) (by rw [hleads.data.families]; exact hfamily)
        (by rw [hleads.connections]; exact hfree) (by omega)
      exact ⟨w', hleads.run.trans hrun, hleads.data.trans hdata, by omega,
        hconnections.trans hleads.connections⟩

theorem exists_connected (n : Nat) (w : World) (ticket : UrlsafeToken)
    (userId familyId : UuidValue) (httl : 1 ≤ settings.store.ttlSeconds) (hk : 1 ≤ k)
    (huser : permitted (w.users userId.val) = true) (hfamily : w.families familyId.val = true)
    (hnone : accepting w = 0)
    (hfree : w.connections.length + n ≤ settings.realtimeMaxConnections) :
    ∃ w', Run (step settings) (AtMostAccepting settings k) w w' ∧ SameData w w' ∧
      accepting w' = 0 ∧ w'.connections.length = w.connections.length + n := by
  induction n generalizing w with
  | zero => exact ⟨w, .refl w, ⟨rfl, rfl⟩, hnone, rfl⟩
  | succ n ih =>
      obtain ⟨w1, hrun1, hdata1, hcount1, hconnections1⟩ := exists_waiting 1 w ticket userId
        familyId httl huser hfamily (by omega) (k := k) (by omega)
      obtain ⟨w2, hrun2, hdata2, hnone2, hlength2⟩ := exists_accepted 1 w1
        (by omega) hk
      have hdata := hdata1.trans hdata2
      rw [hconnections1] at hlength2
      obtain ⟨w3, hrun3, hdata3, hnone3, hlength3⟩ := ih w2
        (by rw [hdata.users]; exact huser) (by rw [hdata.families]; exact hfamily) hnone2
        (by omega)
      exact ⟨w3, (hrun1.trans hrun2).trans hrun3, hdata.trans hdata3, hnone3, by omega⟩

theorem connections_iff {now : Int} {users : Nat → Option User} {families : Nat → Bool}
    (ticket : UrlsafeToken) (userId familyId : UuidValue)
    (hmax : 1 ≤ settings.realtimeMaxConnections) (httl : 1 ≤ settings.store.ttlSeconds)
    (hk : 1 ≤ k) (huser : permitted (users userId.val) = true)
    (hfamily : families familyId.val = true) (n : Nat) :
    (∃ w, Run (step settings) (AtMostAccepting settings k) (start now users families) w ∧
      w.connections.length = n) ↔ n ≤ settings.realtimeMaxConnections - 1 + k := by
  constructor
  · rintro ⟨w, hrun, rfl⟩
    have hbound := connections_bounded hrun
    omega
  · intro hn
    have hempty : (start now users families).connections.length = 0 := rfl
    obtain ⟨w1, hrun1, hdata1, hnone1, hlength1⟩ := exists_connected (n - min n k)
      (start now users families) ticket userId familyId httl hk huser hfamily rfl (by omega)
    rw [hempty, Nat.zero_add] at hlength1
    have hfree : w1.connections.length < settings.realtimeMaxConnections := by
      rw [hlength1]
      omega
    obtain ⟨w2, hrun2, hdata2, hcount2, hconnections2⟩ := exists_waiting (min n k) w1 ticket
      userId familyId httl (by rw [hdata1.users]; exact huser)
      (by rw [hdata1.families]; exact hfamily) hfree (k := k) (by omega)
    obtain ⟨w3, hrun3, -, -, hlength3⟩ := exists_accepted (min n k) w2 (by omega)
      (Nat.min_le_right n k)
    rw [hconnections2] at hlength3
    exact ⟨w3, (hrun1.trans hrun2).trans hrun3, by omega⟩

theorem one_place_taken_twice :
    (∃ w, Run (step deployed) (AtMostAccepting deployed 2) opening w ∧
      w.connections.length = 2) ↔ 2 ≤ deployed.realtimeMaxConnections - 1 + 2 :=
  connections_iff firstTicket 7 9 (by decide) (by decide) (by decide) (by decide) (by decide) 2

end Reach

section Registry

variable {settings : Settings}

def Phase.isRegistered : Phase → Bool
  | .serving _ _ => true
  | .revoked _ => true
  | .leaving => true
  | _ => false

structure Registry (w : World) : Prop where
  listed : ∀ i, i ∈ w.connections ↔
    ∃ socket, w.sockets[i]? = some socket ∧ socket.phase.isRegistered = true
  nodup : w.connections.Nodup

theorem authenticate_isRegistered (w : World) (socket : Socket) :
    (socket.authenticate settings w).phase.isRegistered = false := by
  rw [Socket.authenticate]
  split
  · split <;> rfl
  · rfl

def registeredAfter (registered : Bool) : Act → Bool
  | .accept => true
  | .disconnect => false
  | _ => registered

theorem advance_isRegistered {w : World} {socket next : Socket} {act : Act}
    (h : advance settings w socket act socket.phase = some next) :
    next.phase.isRegistered = registeredAfter socket.phase.isRegistered act := by
  simp only [advance] at h
  split at h
  case h_1 hphase =>
    cases h
    rw [authenticate_isRegistered, hphase]
    rfl
  all_goals
    rename_i hphase
    (try split at h) <;> cases h <;>
      simp only [hphase, registeredAfter, Socket.enter, Phase.isRegistered]

theorem mem_connectionsAfter_ne {connections : List Nat} {i j : Nat} (act : Act) (h : j ≠ i) :
    j ∈ connectionsAfter connections i act ↔ j ∈ connections := by
  cases act with
  | accept =>
      rw [connectionsAfter, List.mem_append, List.mem_singleton]
      exact or_iff_left h
  | disconnect =>
      rw [connectionsAfter, List.mem_filter]
      exact and_iff_left (decide_eq_true h)
  | _ => exact Iff.rfl

theorem mem_connectionsAfter_self {connections : List Nat} {i : Nat} {registered : Bool} (act : Act)
    (h : i ∈ connections ↔ registered = true) :
    i ∈ connectionsAfter connections i act ↔ registeredAfter registered act = true := by
  cases act with
  | accept =>
      exact iff_of_true (List.mem_append_right _ (List.mem_singleton_self i)) rfl
  | disconnect =>
      refine iff_of_false (fun hmem => ?_) (by nofun)
      exact of_decide_eq_true (List.mem_filter.mp hmem).2 rfl
  | _ => exact h

theorem nodup_connectionsAfter {connections : List Nat} {i : Nat} {act : Act}
    (h : connections.Nodup) (hnew : act = .accept → i ∉ connections) :
    (connectionsAfter connections i act).Nodup := by
  cases act with
  | accept =>
      rw [connectionsAfter, ← List.concat_eq_append]
      exact h.concat (hnew rfl)
  | disconnect => exact h.filter _
  | _ => exact h

theorem registry_of_sockets {w w' : World} (hw : Registry w)
    (hconnections : w'.connections = w.connections)
    (hsockets : w'.sockets = w.sockets) : Registry w' where
  listed i := by
    rw [hconnections, hsockets]
    exact hw.listed i
  nodup := by
    rw [hconnections]
    exact hw.nodup

theorem registry_arrive {w : World} (hw : Registry w) (origin ticket : Option String) :
    Registry { w with sockets := w.sockets ++ [arriving w.now origin ticket] } where
  listed i := by
    refine (hw.listed i).trans ⟨?_, ?_⟩
    · rintro ⟨socket, hsocket, hregistered⟩
      have hlt := (List.getElem?_eq_some_iff.mp hsocket).1
      exact ⟨socket, (List.getElem?_append_left hlt).trans hsocket, hregistered⟩
    · rintro ⟨socket, hsocket, hregistered⟩
      rcases Nat.lt_or_ge i w.sockets.length with hlt | hge
      · exact ⟨socket, (List.getElem?_append_left hlt).symm.trans hsocket, hregistered⟩
      · have hmem := (List.getElem?_append_right hge).symm.trans hsocket
        have hnew := List.mem_singleton.mp (List.mem_of_getElem? hmem)
        rw [hnew] at hregistered
        cases hregistered
  nodup := hw.nodup

theorem registry_act {w : World} (hw : Registry w) {i : Nat} {act : Act} {socket next : Socket}
    (hsocket : w.sockets[i]? = some socket)
    (hnext : advance settings w socket act socket.phase = some next) :
    Registry (w.perform settings i act socket next) where
  listed j := by
    by_cases hj : j = i
    · subst hj
      have hset : (w.sockets.set j next)[j]? = some next := by
        rw [List.getElem?_set_self', hsocket]
        rfl
      have hold : j ∈ w.connections ↔ socket.phase.isRegistered = true := by
        rw [hw.listed j, hsocket]
        exact ⟨fun ⟨s, hs, hregistered⟩ => by cases hs; exact hregistered,
          fun hregistered => ⟨socket, rfl, hregistered⟩⟩
      refine (mem_connectionsAfter_self act hold).trans ?_
      rw [← advance_isRegistered hnext]
      refine ⟨fun hregistered => ⟨next, hset, hregistered⟩, ?_⟩
      rintro ⟨s, hs, hregistered⟩
      cases hset.symm.trans hs
      exact hregistered
    · have hset : (w.sockets.set i next)[j]? = w.sockets[j]? :=
        List.getElem?_set_ne (Ne.symm hj)
      refine (mem_connectionsAfter_ne act hj).trans ((hw.listed j).trans ?_)
      rw [← hset]
      exact Iff.rfl
  nodup := by
    refine nodup_connectionsAfter hw.nodup fun hact hmem => ?_
    subst hact
    obtain ⟨s, hs, hregistered⟩ := (hw.listed i).mp hmem
    cases hsocket.symm.trans hs
    obtain ⟨identity, hphase, -⟩ := advance_accept hnext
    rw [hphase] at hregistered
    cases hregistered

theorem registry_of_step {w w' : World} {event : Event} (h : step settings w event = some w')
    (hw : Registry w) : Registry w' := by
  cases event with
  | tick later =>
      obtain ⟨-, rfl⟩ := step_tick h
      exact registry_of_sockets hw rfl rfl
  | arrive origin ticket =>
      cases h
      exact registry_arrive hw origin ticket
  | act i act =>
      obtain ⟨socket, next, hsocket, hnext, rfl⟩ := step_act h
      exact registry_act hw hsocket hnext
  | _ =>
      cases h
      exact registry_of_sockets hw rfl rfl

theorem registry_start (now : Int) (users : Nat → Option User) (families : Nat → Bool) :
    Registry (start now users families) where
  listed i := by
    refine iff_of_false (by nofun) ?_
    rintro ⟨socket, hsocket, -⟩
    cases hsocket
  nodup := List.nodup_nil

theorem registry_run {now : Int} {users : Nat → Option User} {families : Nat → Bool}
    {w : World} (h : Run (step settings) Transition.anyStep (start now users families) w) :
    Registry w :=
  h.invariant (fun _ _ _ hw _ hstep => registry_of_step hstep hw)
    (registry_start now users families)

theorem registry_presentedTwice :
    ∃ w, w.sockets.map Socket.phase =
        [.serving ⟨7, 9⟩ .sleeping, .closed 4401 "Invalid realtime ticket"] ∧ Registry w := by
  obtain ⟨w, hrun, hphases⟩ := presentedTwice_run
  exact ⟨w, hphases, registry_run (hrun.mono fun _ _ _ => trivial)⟩

end Registry

end Sockets
