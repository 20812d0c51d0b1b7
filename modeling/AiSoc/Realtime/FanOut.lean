import AiSoc.Library.BoundedQueue

namespace FanOut

open BoundedQueue

section Manager

-- maxsize of the queue of a connection
def queueSize : Nat := 100

-- websocket is id(websocket); the stream is the queue and what the sender sent from it
structure RealtimeConnection where
  websocket : Nat
  stream : Stream String

structure RealtimeManager where
  maxConnections : Nat
  maxMessageBytes : Nat
  connections : List RealtimeConnection

def insert (connection : RealtimeConnection) : List RealtimeConnection → List RealtimeConnection
  | [] => [connection]
  | other :: connections =>
      if other.websocket = connection.websocket then connection :: connections
      else other :: insert connection connections

def RealtimeManager.connect (manager : RealtimeManager) (websocket : Nat) : RealtimeManager :=
  if manager.maxConnections ≤ manager.connections.length then manager
  else { manager with connections := insert ⟨websocket, .empty⟩ manager.connections }

def RealtimeManager.disconnect (manager : RealtimeManager) (websocket : Nat) : RealtimeManager :=
  { manager with connections := manager.connections.filter fun c => c.websocket ≠ websocket }

def RealtimeConnection.put (payload : String) (connection : RealtimeConnection) :
    Option RealtimeConnection :=
  (connection.stream.put queueSize payload).map fun stream => { connection with stream := stream }

-- none is an exception that leaves the loop over the connections
def RealtimeManager.fanOut (manager : RealtimeManager) (payload : String) :
    Option RealtimeManager :=
  if payload.utf8ByteSize > manager.maxMessageBytes then some manager
  else
    (manager.connections.mapM (RealtimeConnection.put payload)).map fun connections =>
      { manager with connections := connections }

-- one round of _send_messages for a connection
def RealtimeConnection.send (websocket : Nat) (connection : RealtimeConnection) :
    RealtimeConnection :=
  if connection.websocket = websocket then { connection with stream := connection.stream.take }
  else connection

def RealtimeManager.sendMessage (manager : RealtimeManager) (websocket : Nat) : RealtimeManager :=
  { manager with connections := manager.connections.map (RealtimeConnection.send websocket) }

inductive Event where
  | connect (websocket : Nat)
  | disconnect (websocket : Nat)
  | publish (payload : String)
  | send (websocket : Nat)
  deriving DecidableEq

def RealtimeManager.step (manager : RealtimeManager) : Event → Option RealtimeManager
  | .connect websocket => some (manager.connect websocket)
  | .disconnect websocket => some (manager.disconnect websocket)
  | .publish payload => manager.fanOut payload
  | .send websocket => some (manager.sendMessage websocket)

def RealtimeManager.run : RealtimeManager → List Event → Option RealtimeManager
  | manager, [] => some manager
  | manager, event :: events => (manager.step event).bind fun manager => manager.run events

def start (maxConnections maxMessageBytes : Nat) : RealtimeManager :=
  ⟨maxConnections, maxMessageBytes, []⟩

end Manager

section Lookup

def find (websocket : Nat) (connections : List RealtimeConnection) : Option RealtimeConnection :=
  connections.find? fun connection => connection.websocket = websocket

theorem find_cons_self {websocket : Nat} {c : RealtimeConnection}
    {connections : List RealtimeConnection} (h : c.websocket = websocket) :
    find websocket (c :: connections) = some c :=
  List.find?_cons_of_pos (decide_eq_true h)

theorem find_cons_ne {websocket : Nat} {c : RealtimeConnection}
    {connections : List RealtimeConnection} (h : c.websocket ≠ websocket) :
    find websocket (c :: connections) = find websocket connections :=
  List.find?_cons_of_neg (by simpa using h)

theorem find_insert_self (connection : RealtimeConnection)
    (connections : List RealtimeConnection) :
    find connection.websocket (insert connection connections) = some connection := by
  induction connections with
  | nil => exact find_cons_self rfl
  | cons c connections ih =>
      rw [insert]
      split
      · exact find_cons_self rfl
      · rename_i hc
        rw [find_cons_ne hc]
        exact ih

theorem find_insert_ne {websocket : Nat} {connection : RealtimeConnection}
    (h : connection.websocket ≠ websocket) (connections : List RealtimeConnection) :
    find websocket (insert connection connections) = find websocket connections := by
  induction connections with
  | nil => exact find_cons_ne h
  | cons c connections ih =>
      rw [insert]
      split
      · rename_i hc
        rw [find_cons_ne h, find_cons_ne (hc ▸ h)]
      · by_cases hc : c.websocket = websocket
        · rw [find_cons_self hc, find_cons_self hc]
        · rw [find_cons_ne hc, find_cons_ne hc]
          exact ih

theorem find_disconnect {websocket other : Nat} (h : other ≠ websocket)
    (connections : List RealtimeConnection) :
    find websocket (connections.filter fun c => c.websocket ≠ other) =
      find websocket connections := by
  induction connections with
  | nil => rfl
  | cons c connections ih =>
      by_cases hc : c.websocket = other
      · have hne : c.websocket ≠ websocket := hc ▸ h
        rw [List.filter_cons_of_neg (by simpa using hc), find_cons_ne hne]
        exact ih
      · rw [List.filter_cons_of_pos (by simpa using hc)]
        by_cases hw : c.websocket = websocket
        · rw [find_cons_self hw, find_cons_self hw]
        · rw [find_cons_ne hw, find_cons_ne hw]
          exact ih

theorem websocket_send (websocket : Nat) (connection : RealtimeConnection) :
    (connection.send websocket).websocket = connection.websocket := by
  rw [RealtimeConnection.send]
  split <;> rfl

theorem find_send (websocket other : Nat) (connections : List RealtimeConnection) :
    find websocket (connections.map (RealtimeConnection.send other)) =
      (find websocket connections).map (RealtimeConnection.send other) := by
  induction connections with
  | nil => rfl
  | cons c connections ih =>
      rw [List.map_cons]
      by_cases hc : c.websocket = websocket
      · have hsend : (c.send other).websocket = websocket := (websocket_send other c).trans hc
        rw [find_cons_self hc, find_cons_self hsend, Option.map_some]
      · have hsend : (c.send other).websocket ≠ websocket := by
          rw [websocket_send]
          exact hc
        rw [find_cons_ne hc, find_cons_ne hsend]
        exact ih

end Lookup

section Total

def Bounded (manager : RealtimeManager) : Prop :=
  ∀ connection ∈ manager.connections, connection.stream.queue.length ≤ queueSize

theorem mem_insert {connection other : RealtimeConnection} {connections : List RealtimeConnection}
    (h : other ∈ insert connection connections) : other = connection ∨ other ∈ connections := by
  induction connections with
  | nil => exact .inl (List.mem_singleton.mp h)
  | cons c connections ih =>
      rw [insert] at h
      split at h
      · rcases List.mem_cons.mp h with rfl | hmem
        · exact .inl rfl
        · exact .inr (List.mem_cons_of_mem _ hmem)
      · rcases List.mem_cons.mp h with rfl | hmem
        · exact .inr List.mem_cons_self
        · exact (ih hmem).imp_right (List.mem_cons_of_mem _)

theorem put_of_bounded {connection : RealtimeConnection}
    (h : connection.stream.queue.length ≤ queueSize) (payload : String) :
    ∃ stream, connection.put payload = some { connection with stream := stream } ∧
      connection.stream.put queueSize payload = some stream ∧
      stream.queue.length ≤ queueSize := by
  have hput := putDropping_eq (by decide) h payload
  refine ⟨_, ?_, by rw [Stream.put, hput, Option.map_some], ?_⟩
  · rw [RealtimeConnection.put, Stream.put, hput, Option.map_some, Option.map_some]
  · rw [length_latest]
    exact Nat.min_le_left _ _

theorem length_take_le {connection : RealtimeConnection}
    (h : connection.stream.queue.length ≤ queueSize) :
    connection.stream.take.queue.length ≤ queueSize := by
  rw [Stream.take]
  cases hqueue : connection.stream.queue with
  | nil =>
      rw [getNowait]
      exact h
  | cons a rest =>
      rw [hqueue, List.length_cons] at h
      exact Nat.le_of_succ_le h

theorem mapM_put {connections : List RealtimeConnection} (payload : String)
    (h : ∀ connection ∈ connections, connection.stream.queue.length ≤ queueSize) :
    ∃ connections', connections.mapM (RealtimeConnection.put payload) = some connections' ∧
      (∀ connection ∈ connections', connection.stream.queue.length ≤ queueSize) ∧
      ∀ websocket, find websocket connections' =
        (find websocket connections).bind (RealtimeConnection.put payload) := by
  induction connections with
  | nil => exact ⟨[], rfl, nofun, fun _ => rfl⟩
  | cons c connections ih =>
      obtain ⟨rest, hmap, hrest, hfind⟩ := ih fun d hd => h d (List.mem_cons_of_mem _ hd)
      obtain ⟨stream, hput, _, hlength⟩ := put_of_bounded (h c List.mem_cons_self) payload
      refine ⟨{ c with stream := stream } :: rest, ?_, ?_, ?_⟩
      · rw [List.mapM_cons, hput, hmap]
        rfl
      · intro connection hmem
        rcases List.mem_cons.mp hmem with rfl | hmem
        · exact hlength
        · exact hrest connection hmem
      · intro websocket
        by_cases hc : c.websocket = websocket
        · have hnew : ({ c with stream := stream } : RealtimeConnection).websocket = websocket := hc
          rw [find_cons_self hc, find_cons_self hnew, Option.bind_some, hput]
        · have hnew : ({ c with stream := stream } : RealtimeConnection).websocket ≠ websocket := hc
          rw [find_cons_ne hc, find_cons_ne hnew]
          exact hfind websocket

theorem Bounded.fanOut {manager : RealtimeManager} (h : Bounded manager) (payload : String) :
    ∃ manager', manager.fanOut payload = some manager' ∧ Bounded manager' := by
  rw [RealtimeManager.fanOut]
  split
  · exact ⟨manager, rfl, h⟩
  · obtain ⟨connections', hmap, hlength, _⟩ := mapM_put payload h
    exact ⟨{ manager with connections := connections' }, by rw [hmap, Option.map_some], hlength⟩

theorem Bounded.step {manager : RealtimeManager} (h : Bounded manager) (event : Event) :
    ∃ manager', manager.step event = some manager' ∧ Bounded manager' := by
  cases event with
  | connect websocket =>
      refine ⟨_, rfl, ?_⟩
      rw [RealtimeManager.connect]
      split
      · exact h
      · intro connection hmem
        rcases mem_insert hmem with rfl | hmem
        · exact Nat.zero_le _
        · exact h connection hmem
  | disconnect websocket =>
      refine ⟨_, rfl, ?_⟩
      intro connection hmem
      exact h connection (List.mem_of_mem_filter hmem)
  | publish payload => exact h.fanOut payload
  | send websocket =>
      refine ⟨_, rfl, ?_⟩
      intro connection hmem
      obtain ⟨c, hc, rfl⟩ := List.mem_map.mp hmem
      rw [RealtimeConnection.send]
      split
      · exact length_take_le (h c hc)
      · exact h c hc

theorem Bounded.run {manager : RealtimeManager} (h : Bounded manager) (events : List Event) :
    ∃ manager', manager.run events = some manager' ∧ Bounded manager' := by
  induction events generalizing manager with
  | nil => exact ⟨manager, rfl, h⟩
  | cons event events ih =>
      obtain ⟨manager1, hstep, h1⟩ := h.step event
      obtain ⟨manager', hrun, h'⟩ := ih h1
      exact ⟨manager', by rw [RealtimeManager.run, hstep, Option.bind_some, hrun], h'⟩

end Total

section Delivered

def project (maxMessageBytes websocket : Nat) : Event → Option (Op String)
  | .publish payload =>
      if payload.utf8ByteSize > maxMessageBytes then none else some (.put payload)
  | .send other => if other = websocket then some .take else none
  | _ => none

def Event.accepted (maxMessageBytes : Nat) : Event → Option String
  | .publish payload => if payload.utf8ByteSize > maxMessageBytes then none else some payload
  | _ => none

def acceptedPayloads (maxMessageBytes : Nat) (events : List Event) : List String :=
  events.filterMap (Event.accepted maxMessageBytes)

theorem accepted_project (maxMessageBytes websocket : Nat) (events : List Event) :
    accepted (events.filterMap (project maxMessageBytes websocket)) =
      acceptedPayloads maxMessageBytes events := by
  rw [accepted, List.filterMap_filterMap, acceptedPayloads]
  congr 1
  funext event
  cases event with
  | connect other => rfl
  | disconnect other => rfl
  | publish payload =>
      rw [project, Event.accepted]
      split <;> rfl
  | send other =>
      rw [project]
      split <;> rfl

def Keeps (websocket : Nat) (event : Event) : Prop :=
  event ≠ .connect websocket ∧ event ≠ .disconnect websocket

instance (websocket : Nat) (event : Event) : Decidable (Keeps websocket event) :=
  inferInstanceAs (Decidable (_ ∧ _))

structure Tracked (manager : RealtimeManager) (maxMessageBytes websocket : Nat)
    (stream : Stream String) : Prop where
  bounded : Bounded manager
  bytes : manager.maxMessageBytes = maxMessageBytes
  found : find websocket manager.connections = some ⟨websocket, stream⟩

theorem Tracked.step {manager : RealtimeManager} {maxMessageBytes websocket : Nat}
    {stream : Stream String} (h : Tracked manager maxMessageBytes websocket stream) {event : Event}
    (hkeeps : Keeps websocket event) :
    ∃ manager' stream', manager.step event = some manager' ∧
      Tracked manager' maxMessageBytes websocket stream' ∧
      stream.run queueSize (project maxMessageBytes websocket event).toList = some stream' := by
  obtain ⟨manager', hstep, hbounded⟩ := h.bounded.step event
  have hfound := h.found
  cases event with
  | connect other =>
      obtain rfl := Option.some.inj hstep
      refine ⟨_, stream, rfl, ⟨hbounded, ?_, ?_⟩, rfl⟩
      · rw [RealtimeManager.connect]
        split
        · exact h.bytes
        · exact h.bytes
      · have hne : other ≠ websocket := fun heq => hkeeps.1 (by rw [heq])
        rw [RealtimeManager.connect]
        split
        · exact hfound
        · rw [find_insert_ne hne]
          exact hfound
  | disconnect other =>
      obtain rfl := Option.some.inj hstep
      have hne : other ≠ websocket := fun heq => hkeeps.2 (by rw [heq])
      refine ⟨_, stream, rfl, ⟨hbounded, h.bytes, ?_⟩, rfl⟩
      rw [RealtimeManager.disconnect, find_disconnect hne]
      exact hfound
  | publish payload =>
      have hstep' : manager.fanOut payload = some manager' := hstep
      obtain rfl := h.bytes
      rw [RealtimeManager.fanOut] at hstep'
      rw [project]
      split at hstep'
      · rename_i hlarge
        obtain rfl := Option.some.inj hstep'
        exact ⟨manager, stream, hstep, h, by rw [if_pos hlarge]; rfl⟩
      · rename_i hsmall
        obtain ⟨connections', hmap, _, hfind⟩ := mapM_put payload h.bounded
        rw [hmap, Option.map_some] at hstep'
        obtain rfl := Option.some.inj hstep'
        have hmem := List.mem_of_find?_eq_some hfound
        obtain ⟨stream', hput, hstream, _⟩ := put_of_bounded (h.bounded _ hmem) payload
        refine ⟨_, stream', hstep, ⟨hbounded, rfl, ?_⟩, ?_⟩
        · rw [hfind websocket, hfound, Option.bind_some, hput]
        · rw [if_neg hsmall, Option.toList_some, Stream.run, Stream.step, hstream]
          rfl
  | send other =>
      obtain rfl := Option.some.inj hstep
      have hsend : find websocket (manager.sendMessage other).connections =
          some ((⟨websocket, stream⟩ : RealtimeConnection).send other) := by
        rw [RealtimeManager.sendMessage, find_send, hfound, Option.map_some]
      by_cases heq : other = websocket
      · refine ⟨_, stream.take, rfl, ⟨hbounded, h.bytes, ?_⟩, ?_⟩
        · rw [hsend, RealtimeConnection.send, if_pos heq.symm]
        · rw [project, if_pos heq]
          rfl
      · refine ⟨_, stream, rfl, ⟨hbounded, h.bytes, ?_⟩, ?_⟩
        · rw [hsend, RealtimeConnection.send, if_neg (Ne.symm heq)]
        · rw [project, if_neg heq]
          rfl

theorem run_append {maxsize : Nat} {s s' : Stream String} {ops ops' : List (Op String)}
    (h : s.run maxsize ops = some s') : s.run maxsize (ops ++ ops') = s'.run maxsize ops' := by
  induction ops generalizing s with
  | nil =>
      obtain rfl := Option.some.inj h
      rfl
  | cons op ops ih =>
      rw [Stream.run] at h
      obtain ⟨s1, hs1, h1⟩ := Option.bind_eq_some_iff.mp h
      rw [List.cons_append, Stream.run, hs1, Option.bind_some]
      exact ih h1

theorem Tracked.run {manager : RealtimeManager} {maxMessageBytes websocket : Nat}
    {stream : Stream String} (h : Tracked manager maxMessageBytes websocket stream)
    {events : List Event} (hkeeps : ∀ event ∈ events, Keeps websocket event) :
    ∃ manager' stream', manager.run events = some manager' ∧
      Tracked manager' maxMessageBytes websocket stream' ∧
      stream.run queueSize (events.filterMap (project maxMessageBytes websocket)) =
        some stream' := by
  induction events generalizing manager stream with
  | nil => exact ⟨manager, stream, rfl, h, rfl⟩
  | cons event events ih =>
      obtain ⟨manager1, stream1, hstep, h1, hproject⟩ := h.step (hkeeps event List.mem_cons_self)
      obtain ⟨manager', stream', hrun, h', hrest⟩ :=
        ih h1 fun e he => hkeeps e (List.mem_cons_of_mem _ he)
      refine ⟨manager', stream', ?_, h', ?_⟩
      · rw [RealtimeManager.run, hstep, Option.bind_some, hrun]
      · have hsplit : (event :: events).filterMap (project maxMessageBytes websocket) =
            (project maxMessageBytes websocket event).toList ++
              events.filterMap (project maxMessageBytes websocket) := by
          rw [List.filterMap_cons]
          cases project maxMessageBytes websocket event <;> rfl
        rw [hsplit, run_append hproject]
        exact hrest

theorem maxMessageBytes_run {manager manager' : RealtimeManager} {events : List Event}
    (h : manager.run events = some manager') :
    manager'.maxMessageBytes = manager.maxMessageBytes ∧
      manager'.maxConnections = manager.maxConnections := by
  induction events generalizing manager with
  | nil =>
      obtain rfl := Option.some.inj h
      exact ⟨rfl, rfl⟩
  | cons event events ih =>
      rw [RealtimeManager.run] at h
      obtain ⟨manager1, hstep, hrun⟩ := Option.bind_eq_some_iff.mp h
      have hone : manager1.maxMessageBytes = manager.maxMessageBytes ∧
          manager1.maxConnections = manager.maxConnections := by
        cases event with
        | connect websocket =>
            obtain rfl := Option.some.inj hstep
            rw [RealtimeManager.connect]
            split <;> exact ⟨rfl, rfl⟩
        | disconnect websocket =>
            obtain rfl := Option.some.inj hstep
            exact ⟨rfl, rfl⟩
        | publish payload =>
            have hstep : manager.fanOut payload = some manager1 := hstep
            rw [RealtimeManager.fanOut] at hstep
            split at hstep
            · obtain rfl := Option.some.inj hstep
              exact ⟨rfl, rfl⟩
            · obtain ⟨_, _, rfl⟩ := Option.map_eq_some_iff.mp hstep
              exact ⟨rfl, rfl⟩
        | send websocket =>
            obtain rfl := Option.some.inj hstep
            exact ⟨rfl, rfl⟩
      obtain ⟨hbytes, hcapacity⟩ := ih hrun
      exact ⟨hbytes.trans hone.1, hcapacity.trans hone.2⟩

structure Delivers (payloads : List String) (taken : List Nat) (stream : Stream String) :
    Prop where
  queue : stream.queue = latest 100 (payloads.drop (next taken))
  sent : stream.delivered.map some = taken.map fun i => payloads[i]?
  ordered : taken.Pairwise (· < ·)
  lost : ∀ i < payloads.length, i ∉ taken →
    (next taken ≤ i ∧ payloads.length - 100 ≤ i) ∨ i + 100 < payloads.length

theorem fan_out_delivers (maxConnections maxMessageBytes : Nat) (before after : List Event)
    (websocket : Nat) (hkeeps : ∀ event ∈ after, Keeps websocket event) :
    ∃ manager, (start maxConnections maxMessageBytes).run before = some manager ∧
      (manager.connections.length < maxConnections →
        ∃ manager' stream taken,
          manager.run (.connect websocket :: after) = some manager' ∧
          find websocket manager'.connections = some ⟨websocket, stream⟩ ∧
          Delivers (acceptedPayloads maxMessageBytes after) taken stream ∧
          Stream.empty.run queueSize (after.filterMap (project maxMessageBytes websocket)) =
            some stream) := by
  have hstart : Bounded (start maxConnections maxMessageBytes) := nofun
  obtain ⟨manager, hbefore, hbounded⟩ := hstart.run before
  obtain ⟨hbytes, hcapacity⟩ := maxMessageBytes_run hbefore
  refine ⟨manager, hbefore, fun hroom => ?_⟩
  have hopen : ¬manager.maxConnections ≤ manager.connections.length := by
    rw [hcapacity]
    exact Nat.not_le_of_lt hroom
  have hconnect : Tracked (manager.connect websocket) maxMessageBytes websocket .empty := by
    obtain ⟨_, hstep, hconnected⟩ := hbounded.step (.connect websocket)
    obtain rfl := Option.some.inj hstep
    refine ⟨hconnected, ?_, ?_⟩
    · rw [RealtimeManager.connect, if_neg hopen]
      exact hbytes
    · rw [RealtimeManager.connect, if_neg hopen]
      exact find_insert_self ⟨websocket, .empty⟩ _
  obtain ⟨manager', stream, hrun, htracked, hstream⟩ := hconnect.run hkeeps
  have hpos : 0 < queueSize := by decide
  obtain ⟨s, taken, hs, hdelivery⟩ :=
    delivery_run hpos (after.filterMap (project maxMessageBytes websocket))
  obtain rfl := Option.some.inj (hs.symm.trans hstream)
  rw [accepted_project] at hdelivery
  refine ⟨manager', s, taken, ?_, htracked.found, ?_, hstream⟩
  · rw [RealtimeManager.run, RealtimeManager.step, Option.bind_some]
    exact hrun
  · exact {
      queue := hdelivery.queue
      sent := hdelivery.delivered
      ordered := hdelivery.ordered
      lost := fun i _ hnot => hdelivery.lost hnot }

def earlier : List Event :=
  [.connect 1, .publish "a"]

def overflowing : List Event :=
  .publish "oldest" :: List.replicate queueSize (.publish "later")

theorem overflowing_client_delivers :
    ∃ manager manager' stream taken, (start 3 10).run earlier = some manager ∧
      manager.run (.connect 2 :: overflowing) = some manager' ∧
      find 2 manager'.connections = some ⟨2, stream⟩ ∧
      Delivers (acceptedPayloads 10 overflowing) taken stream ∧
      stream.queue = List.replicate queueSize "later" := by
  obtain ⟨manager, hbefore, hdelivers⟩ := fan_out_delivers 3 10 earlier overflowing 2 (by
    intro event hmem
    rcases List.mem_cons.mp hmem with rfl | hmem
    · decide
    · rw [List.eq_of_mem_replicate hmem]
      decide)
  have hroom : manager.connections.length < 3 := by
    have hone : ((start 3 10).run earlier).map (·.connections.length) = some 1 := by
      decide
    rw [hbefore] at hone
    have hlength : manager.connections.length = 1 := Option.some.inj hone
    rw [hlength]
    decide
  obtain ⟨manager', stream, taken, hrun, hfound, hdelivered, hstream⟩ := hdelivers hroom
  refine ⟨manager, manager', stream, taken, hbefore, hrun, hfound, hdelivered, ?_⟩
  have hqueue : (Stream.empty.run queueSize
      (overflowing.filterMap (project 10 2))).map (·.queue) =
        some (List.replicate queueSize "later") := by
    decide
  rw [hstream] at hqueue
  exact Option.some.inj hqueue

end Delivered

end FanOut
