import AiSoc.Realtime.Announced

namespace Realtime

open Permissions (Uuid Timestamp)
open PyStr (uuidText uuidText_ne_empty)
open Suppression Transition

section Marks

variable {env : Env} {b b' : Backend} {m : Announcement}

def Mark.version (env : Env) (mark : Mark) : Int :=
  (mark.clock.map env.microseconds).getD 1

structure Mark.Of (env : Env) (mark : Mark) (m : Announcement) : Prop where
  type : mark.type = m.type
  entityId : mark.entityId = m.entityId
  version : m.version = mark.version env

def Changes (env : Env) (b : Backend) (transaction : Transaction) (new : List Announcement) :
    Prop :=
  b.repeats transaction = none ∧ ∀ m ∈ new, m.change = some b.commits ∧
    ∃ mark ∈ transaction.marks, mark.Of env m

def Repeats (env : Env) (b : Backend) (transaction : Transaction) (new : List Announcement) :
    Prop :=
  ∃ id m, b.repeats transaction = some id ∧ new = [m] ∧ m.change = none ∧
    m.entityId = uuidText id ∧ ((∃ mark ∈ transaction.marks, mark.Of env m) ∨
      ∃ row, b.actions id = some row ∧ m = publishAction env id row none)

def ActionMarked (history : List Transaction) (id : Uuid) (row : ActionRow) : Prop :=
  ∃ t ∈ history, ⟨.response row.status, uuidText id, some row.updatedAt⟩ ∈ t.marks

structure Transacted (env : Env) (b b' : Backend) (transaction : Transaction)
    (new : List Announcement) : Prop where
  outbox : b'.outbox = b.outbox ++ [new]
  commits : b'.commits = b.commits + 1
  new : Changes env b transaction new ∨ Repeats env b transaction new
  actions : ∀ id row, b'.actions id = some row → b.actions id = some row ∨
    ActionMarked [transaction] id row

theorem changes_one {transaction : Transaction} (hrepeats : b.repeats transaction = none)
    (hchange : m.change = some b.commits) {mark : Mark} (hmark : mark ∈ transaction.marks)
    (hof : mark.Of env m) : Changes env b transaction [m] := by
  refine ⟨hrepeats, fun m' hm' => ?_⟩
  rw [List.mem_singleton.mp hm']
  exact ⟨hchange, mark, hmark, hof⟩

theorem transacted_moveInvestigation {transaction : Transaction} {id : Uuid}
    {source : InvestigationStatus → Bool} {target : InvestigationStatus} {type : MessageType}
    {now : Timestamp} (hrepeats : b.repeats transaction = none)
    (hmark : ⟨type, uuidText id, some now⟩ ∈ transaction.marks)
    (h : b.moveInvestigation env id source target type now = some b') :
    ∃ new, Transacted env b b' transaction new := by
  simp only [Backend.moveInvestigation] at h
  split at h
  · cases h
  · split at h
    · cases h
      exact ⟨_, rfl, rfl, .inl (changes_one hrepeats rfl hmark ⟨rfl, rfl, rfl⟩),
        fun _ _ hrow => .inl hrow⟩
    · cases h

theorem actionMarked_update {transaction : Transaction} {id : Uuid} {row : ActionRow}
    (hmark : ⟨.response row.status, uuidText id, some row.updatedAt⟩ ∈ transaction.marks)
    (id' : Uuid) (row' : ActionRow)
    (h : Function.update b.actions id (some row) id' = some row') :
    b.actions id' = some row' ∨ ActionMarked [transaction] id' row' := by
  by_cases hid : id' = id
  · rw [hid, Function.update_self] at h
    cases h
    exact .inr ⟨transaction, List.mem_cons_self, hid ▸ hmark⟩
  · rw [Function.update_of_ne hid] at h
    exact .inl h

theorem transacted_moveAction {transaction : Transaction} {id : Uuid}
    {source target : ResponseActions.ActionStatus} {now : Timestamp}
    (hrepeats : b.repeats transaction = none)
    (hmark : ⟨.response target, uuidText id, some now⟩ ∈ transaction.marks)
    (h : b.moveAction env id source target now = some b') :
    ∃ new, Transacted env b b' transaction new := by
  simp only [Backend.moveAction] at h
  split at h
  · cases h
  · split at h
    · cases h
      exact ⟨_, rfl, rfl, .inl (changes_one hrepeats rfl hmark ⟨rfl, rfl, rfl⟩),
        actionMarked_update hmark⟩
    · cases h

theorem repeats_request (b : Backend) (id incidentId : Uuid) (now : Timestamp) :
    b.repeats (.requestInvestigation id incidentId now) =
      if (b.requested id incidentId now).2 then none else some id := by
  cases hrow : b.investigations id with
  | none =>
      have hwritten : (b.requested id incidentId now).2 = true := by
        rw [Backend.requested, hrow]
      rw [hwritten, Backend.repeats, hrow]
      rfl
  | some row =>
      by_cases hfailed : row.status = .failed
      · have hwritten : (b.requested id incidentId now).2 = true := by
          simp [Backend.requested, hrow, hfailed]
        simp [hwritten, Backend.repeats, hrow, hfailed]
      · have hwritten : (b.requested id incidentId now).2 = false := by
          simp [Backend.requested, hrow, hfailed]
        simp [hwritten, Backend.repeats, hrow, hfailed]

theorem transacted_request {id incidentId : Uuid} {now : Timestamp}
    (h : b.transact env (.requestInvestigation id incidentId now) = some b') :
    ∃ new, Transacted env b b' (.requestInvestigation id incidentId now) new := by
  have hrepeats := repeats_request b id incidentId now
  simp only [Backend.transact] at h
  cases hwritten : (b.requested id incidentId now).2 with
  | true =>
      simp only [hwritten, if_true] at h hrepeats
      cases h
      exact ⟨_, rfl, rfl, .inl (changes_one hrepeats rfl List.mem_cons_self ⟨rfl, rfl, rfl⟩),
        fun _ _ haction => .inl haction⟩
  | false =>
      simp only [hwritten, Bool.false_eq_true, if_false] at h hrepeats
      cases h
      exact ⟨_, rfl, rfl, .inr ⟨id, _, hrepeats, rfl, rfl, rfl,
        .inl ⟨_, List.mem_cons_self, ⟨rfl, rfl, rfl⟩⟩⟩, fun _ _ haction => .inl haction⟩

theorem changes_ingest {items : List (String × List Uuid × List Correlated)} :
    Changes env b (.ingest items) (items.flatMap fun item =>
      publishRealtime env item.1 item.2.1 item.2.2 b.commits) := by
  refine ⟨rfl, fun m hm => ?_⟩
  obtain ⟨item, hitem, hm⟩ := List.mem_flatMap.mp hm
  rcases List.mem_append.mp hm with htelemetry | hincident
  · rcases List.mem_cons.mp htelemetry with rfl | halert
    · have hmark : ⟨.eventCreated, item.1, none⟩ ∈ (Transaction.ingest items).marks :=
        List.mem_flatMap.mpr ⟨item, hitem, List.mem_append_left _ List.mem_cons_self⟩
      exact ⟨rfl, _, hmark, ⟨rfl, rfl, rfl⟩⟩
    · obtain ⟨id, hid, rfl⟩ := List.mem_map.mp halert
      have hmark : ⟨.alertCreated, uuidText id, none⟩ ∈ (Transaction.ingest items).marks :=
        List.mem_flatMap.mpr ⟨item, hitem, List.mem_append_left _
          (List.mem_cons_of_mem _ (List.mem_map_of_mem hid))⟩
      exact ⟨rfl, _, hmark, ⟨rfl, rfl, rfl⟩⟩
  · obtain ⟨incident, hmem, rfl⟩ := List.mem_map.mp hincident
    have hmark : ⟨if incident.created then .incidentCreated else .incidentUpdated,
        uuidText incident.incidentId, some incident.updatedAt⟩ ∈
          (Transaction.ingest items).marks :=
      List.mem_flatMap.mpr ⟨item, hitem, List.mem_append_right _ (List.mem_map_of_mem hmem)⟩
    exact ⟨rfl, _, hmark, ⟨rfl, rfl, rfl⟩⟩

theorem transacted_propose {id incidentId : Uuid} {now : Timestamp}
    (h : b.transact env (.propose id incidentId now) = some b') :
    ∃ new, Transacted env b b' (.propose id incidentId now) new := by
  simp only [Backend.transact] at h
  split at h
  · rename_i hrow
    cases h
    refine ⟨_, rfl, rfl, .inl (changes_one ?_ rfl List.mem_cons_self ⟨rfl, rfl, rfl⟩),
      actionMarked_update List.mem_cons_self⟩
    rw [Backend.repeats, hrow]
    rfl
  · rename_i row hrow
    cases h
    refine ⟨_, rfl, rfl, .inr ⟨id, _, ?_, rfl, rfl, rfl, .inr ⟨row, hrow, rfl⟩⟩,
      fun _ _ haction => .inl haction⟩
    rw [Backend.repeats, hrow]
    rfl

theorem transacted {transaction : Transaction} (h : b.transact env transaction = some b') :
    ∃ new, Transacted env b b' transaction new := by
  cases transaction with
  | requestInvestigation id incidentId now => exact transacted_request h
  | requestNotQueued id incidentId now =>
      simp only [Backend.transact] at h
      split at h
      · cases h
        exact ⟨[], rfl, rfl, .inl ⟨rfl, fun _ hm => absurd hm List.not_mem_nil⟩,
          fun _ _ haction => .inl haction⟩
      · cases h
  | claim id now =>
      simp only [Backend.transact] at h
      exact transacted_moveInvestigation rfl List.mem_cons_self h
  | complete id now =>
      simp only [Backend.transact] at h
      exact transacted_moveInvestigation rfl List.mem_cons_self h
  | fail id now =>
      simp only [Backend.transact] at h
      exact transacted_moveInvestigation rfl List.mem_cons_self h
  | createIncident id =>
      cases h
      exact ⟨_, rfl, rfl, .inl (changes_one rfl rfl List.mem_cons_self ⟨rfl, rfl, rfl⟩),
        fun _ _ haction => .inl haction⟩
  | ingest items =>
      simp only [Backend.transact] at h
      split at h
      · cases h
        exact ⟨_, rfl, rfl, .inl changes_ingest, fun _ _ haction => .inl haction⟩
      · cases h
  | addEvidence incidentId createdAt =>
      cases h
      exact ⟨_, rfl, rfl, .inl (changes_one rfl rfl List.mem_cons_self ⟨rfl, rfl, rfl⟩),
        fun _ _ haction => .inl haction⟩
  | propose id incidentId now => exact transacted_propose h
  | decide id approve now =>
      simp only [Backend.transact] at h
      exact transacted_moveAction rfl List.mem_cons_self h
  | execute id now =>
      simp only [Backend.transact] at h
      exact transacted_moveAction rfl List.mem_cons_self h
  | finish id succeeded now =>
      simp only [Backend.transact] at h
      exact transacted_moveAction rfl List.mem_cons_self h

theorem version_lt_of_before {past mark : Mark} (h : past.Before env mark) :
    past.version env < mark.version env := by
  unfold Mark.Before at h
  unfold Mark.version
  split at h
  · rename_i t t' hpast hmark
    rw [hpast, hmark]
    exact h
  · cases h

theorem version_pos {mark : Mark} (h : mark.Dated env) : -1 < mark.version env := by
  unfold Mark.version
  cases hclock : mark.clock with
  | none => exact (by decide : (-1 : Int) < 1)
  | some t => exact h t hclock

theorem clock_of_queued {transaction : Transaction} {mark : Mark}
    (h : mark ∈ transaction.marks) (htype : mark.type = .investigationQueued) :
    mark.clock = none := by
  cases transaction with
  | requestInvestigation id incidentId now => rw [List.mem_singleton.mp h]
  | requestNotQueued id incidentId now => cases h
  | ingest items =>
      obtain ⟨item, _, h⟩ := List.mem_flatMap.mp h
      rcases List.mem_append.mp h with h | h
      · rcases List.mem_cons.mp h with rfl | h
        · cases htype
        · obtain ⟨id, _, rfl⟩ := List.mem_map.mp h
          cases htype
      · obtain ⟨incident, _, rfl⟩ := List.mem_map.mp h
        simp only at htype
        split at htype <;> cases htype
  | _ =>
      rw [List.mem_singleton.mp h] at htype
      cases htype

end Marks

section Invariants

variable {env : Env} {w w' : World}

def World.waiting (w : World) : List Announcement :=
  w.backend.outbox.flatten

def Follows (m' m : Announcement) : Prop :=
  SameEntity m m' → m.change ≠ none → (∀ change' ∈ m'.change, ∀ change ∈ m.change,
    change' < change) → m'.version < m.version

structure Marked (env : Env) (w : World) : Prop where
  announced : ∀ m ∈ w.published ++ w.waiting, ∃ t ∈ w.history, ∃ mark ∈ t.marks, mark.Of env m
  changes : ∀ m ∈ w.waiting, ∀ change ∈ m.change, change < w.backend.commits
  actions : ∀ id row, w.backend.actions id = some row → ActionMarked w.history id row
  deliveries : ∀ d ∈ w.deliveries, d.message ∈ w.published ∧ d.earlier ⊆ w.published

structure Ordered (w : World) : Prop where
  published : w.published.Pairwise Follows
  waiting : ∀ m' ∈ w.published ++ w.waiting, ∀ m ∈ w.waiting, Follows m' m
  positive : ∀ m ∈ w.published ++ w.waiting, m.change ≠ none → -1 < m.version
  deliveries : ∀ d ∈ w.deliveries, Newer d.earlier d.message → Raised d.earlier d.message

theorem waiting_pop {outbox outbox' : List (List Announcement)} {handler : Nat}
    {m : Announcement} (h : popOutbox outbox handler = some (m, outbox')) :
    m ∈ outbox.flatten ∧ outbox'.flatten ⊆ outbox.flatten := by
  simp only [popOutbox] at h
  split at h
  · rename_i rest hrest
    cases h
    have hmem := List.mem_of_getElem? hrest
    refine ⟨List.mem_flatten.mpr ⟨_, hmem, List.mem_cons_self⟩, fun x hx => ?_⟩
    obtain ⟨handler', hhandler, hx⟩ := List.mem_flatten.mp hx
    rcases List.mem_or_eq_of_mem_set hhandler with hold | hnew
    · exact List.mem_flatten.mpr ⟨handler', hold, hx⟩
    · rw [hnew] at hx
      exact List.mem_flatten.mpr ⟨_, hmem, List.mem_cons_of_mem _ hx⟩
  · cases h

theorem waiting_transacted {transaction : Transaction} {new : List Announcement} {b' : Backend}
    (h : Transacted env w.backend b' transaction new) (history : List Transaction) :
    World.waiting { w with backend := b', history := history } = w.waiting ++ new := by
  simp only [World.waiting, h.outbox, List.flatten_append, List.flatten_cons, List.flatten_nil,
    List.append_nil]

theorem ActionMarked.append {history history' : List Transaction} {id : Uuid} {row : ActionRow}
    (h : ActionMarked history id row) : ActionMarked (history ++ history') id row := by
  obtain ⟨t, ht, hmark⟩ := h
  exact ⟨t, List.mem_append_left _ ht, hmark⟩

theorem mark_of_new {transaction : Transaction} {new : List Announcement} {b : Backend}
    (h : Changes env b transaction new ∨ Repeats env b transaction new)
    {history : List Transaction}
    (hactions : ∀ id row, b.actions id = some row → ActionMarked history id row)
    {m : Announcement} (hm : m ∈ new) :
    ∃ t ∈ history ++ [transaction], ∃ mark ∈ t.marks, mark.Of env m := by
  have hlast : transaction ∈ history ++ [transaction] :=
    List.mem_append_right _ List.mem_cons_self
  rcases h with ⟨_, hnew⟩ | ⟨id, m', _, rfl, _, _, hmark | ⟨row, hrow, rfl⟩⟩
  · obtain ⟨_, mark, hmark, hof⟩ := hnew m hm
    exact ⟨transaction, hlast, mark, hmark, hof⟩
  · rw [List.mem_singleton.mp hm]
    exact ⟨transaction, hlast, hmark⟩
  · rw [List.mem_singleton.mp hm]
    obtain ⟨t, ht, hmark⟩ := hactions id row hrow
    exact ⟨t, List.mem_append_left _ ht, _, hmark, ⟨rfl, rfl, rfl⟩⟩

theorem marked_transact {transaction : Transaction} (h : Marked env w)
    (hstep : step env w (.transact transaction) = some w') : Marked env w' := by
  obtain ⟨b', hb, hw⟩ := Option.map_eq_some_iff.mp hstep
  obtain ⟨new, hnew⟩ := transacted hb
  subst hw
  refine ⟨fun m hm => ?_, fun m hm change hchange => ?_, fun id row hrow => ?_, h.deliveries⟩
  · rw [waiting_transacted hnew, ← List.append_assoc] at hm
    rcases List.mem_append.mp hm with hold | hm
    · obtain ⟨t, ht, hmark⟩ := h.announced m hold
      exact ⟨t, List.mem_append_left _ ht, hmark⟩
    · exact mark_of_new hnew.new h.actions hm
  · rw [waiting_transacted hnew] at hm
    change change < b'.commits
    rw [hnew.commits]
    rcases List.mem_append.mp hm with hold | hm
    · exact Nat.lt_succ_of_lt (h.changes m hold change hchange)
    · rcases hnew.new with ⟨_, hall⟩ | ⟨_, m', _, rfl, hnone, _⟩
      · rw [(hall m hm).1] at hchange
        cases hchange
        exact Nat.lt_succ_self _
      · rw [List.mem_singleton.mp hm, hnone] at hchange
        cases hchange
  · rcases hnew.actions id row hrow with hold | ⟨t, ht, hmark⟩
    · exact (h.actions id row hold).append
    · exact ⟨t, List.mem_append_right _ ht, hmark⟩

theorem marked_step {event : Step} (h : Marked env w) (hstep : step env w event = some w') :
    Marked env w' := by
  cases event with
  | transact transaction => exact marked_transact h hstep
  | publish handler =>
      obtain ⟨⟨m, outbox⟩, hpop, hw⟩ := Option.map_eq_some_iff.mp hstep
      obtain ⟨hwaiting, hsub⟩ := waiting_pop hpop
      subst hw
      refine ⟨fun m' hm' => ?_, fun m' hm' => h.changes m' (hsub hm'), h.actions,
        fun d hd => ?_⟩
      · rcases List.mem_append.mp hm' with hpublished | hrest
        · rcases List.mem_append.mp hpublished with hold | hlast
          · exact h.announced m' (List.mem_append_left _ hold)
          · rw [List.mem_singleton.mp hlast]
            exact h.announced m (List.mem_append_right _ hwaiting)
        · exact h.announced m' (List.mem_append_right _ (hsub hrest))
      · obtain ⟨hmessage, hearlier⟩ := h.deliveries d hd
        exact ⟨List.mem_append_left _ hmessage, List.subset_append_of_subset_left _ hearlier⟩
  | publishFails handler =>
      obtain ⟨⟨m, outbox⟩, hpop, hw⟩ := Option.map_eq_some_iff.mp hstep
      obtain ⟨_, hsub⟩ := waiting_pop hpop
      subst hw
      refine ⟨fun m' hm' => ?_, fun m' hm' => h.changes m' (hsub hm'), h.actions, h.deliveries⟩
      rcases List.mem_append.mp hm' with hold | hrest
      · exact h.announced m' (List.mem_append_left _ hold)
      · exact h.announced m' (List.mem_append_right _ (hsub hrest))
  | deliver index =>
      simp only [step, World.deliver] at hstep
      split at hstep
      · obtain ⟨m, hm, hw⟩ := Option.map_eq_some_iff.mp hstep
        subst hw
        refine ⟨h.announced, h.changes, h.actions, fun d hd => ?_⟩
        rcases List.mem_append.mp hd with hold | hlast
        · exact h.deliveries d hold
        · rw [List.mem_singleton.mp hlast]
          exact ⟨List.mem_of_getElem? hm, List.take_subset _ _⟩
      · cases hstep

theorem marked_start : Marked env .start where
  announced := fun _ hm => absurd hm List.not_mem_nil
  changes := fun _ hm => absurd hm List.not_mem_nil
  actions := nofun
  deliveries := fun _ hd => absurd hd List.not_mem_nil

theorem marked_of_run (h : Run (step env) anyStep World.start w) : Marked env w :=
  h.invariant (fun _ _ _ hmarked _ hstep => marked_step hmarked hstep) marked_start

theorem follows_of_later (hmarked : Marked env w) {m : Announcement} {mark : Mark}
    (hof : mark.Of env m) (hlater : mark.Later env w.history) {m' : Announcement}
    (hm' : m' ∈ w.published ++ w.waiting) : Follows m' m := by
  intro hsame _ _
  obtain ⟨t, ht, past, hpast, hpastOf⟩ := hmarked.announced m' hm'
  have hbefore := hlater t ht past hpast
    (hpastOf.type.trans (hsame.1.trans hof.type.symm))
    (hpastOf.entityId.trans (hsame.2.trans hof.entityId.symm))
  rw [hpastOf.version, hof.version]
  exact version_lt_of_before hbefore

theorem ordered_transact {transaction : Transaction} (hmarked : Marked env w) (h : Ordered w)
    (hok : Timely env w (.transact transaction))
    (hstep : step env w (.transact transaction) = some w') : Ordered w' := by
  obtain ⟨b', hb, hw⟩ := Option.map_eq_some_iff.mp hstep
  obtain ⟨new, hnew⟩ := transacted hb
  subst hw
  have hwaiting := waiting_transacted hnew (w.history ++ [transaction])
  suffices hall : (∀ m ∈ new, m.change ≠ none → -1 < m.version) ∧
      (∀ m' ∈ w.published ++ w.waiting, ∀ m ∈ new, Follows m' m) ∧
      (∀ m' ∈ new, ∀ m ∈ w.waiting, Follows m' m) ∧
      ∀ m' ∈ new, ∀ m ∈ new, Follows m' m by
    obtain ⟨hpositive, hafter, hbefore, hamong⟩ := hall
    refine ⟨h.published, ?_, ?_, h.deliveries⟩
    · rw [hwaiting, ← List.append_assoc]
      intro m' hm' m hm
      rcases List.mem_append.mp hm' with hm' | hm'
      · rcases List.mem_append.mp hm with hm | hm
        · exact h.waiting m' hm' m hm
        · exact hafter m' hm' m hm
      · rcases List.mem_append.mp hm with hm | hm
        · exact hbefore m' hm' m hm
        · exact hamong m' hm' m hm
    · rw [hwaiting, ← List.append_assoc]
      intro m hm
      rcases List.mem_append.mp hm with hm | hm
      · exact h.positive m hm
      · exact hpositive m hm
  rcases hnew.new with ⟨hrepeats, hall⟩ | ⟨id, m, hrepeats, rfl, hnone, hid, _⟩
  · simp only [Timely, hrepeats] at hok
    refine ⟨fun m hm _ => ?_, fun m' hm' m hm => ?_, fun m' hm' m hm => ?_,
      fun m' hm' m hm => ?_⟩
    · obtain ⟨_, mark, hmark, hof⟩ := hall m hm
      rw [hof.version]
      exact version_pos (hok mark hmark).1
    · obtain ⟨_, mark, hmark, hof⟩ := hall m hm
      exact follows_of_later hmarked hof (hok mark hmark).2 hm'
    · intro _ hsome hlt
      obtain ⟨change, hchange⟩ := Option.ne_none_iff_exists'.mp hsome
      have hold := hmarked.changes m hm change hchange
      have hnewer := hlt _ (hall m' hm').1 change hchange
      exact absurd hold (Nat.not_lt.mpr (Nat.le_of_lt hnewer))
    · intro _ _ hlt
      exact absurd (hlt _ (hall m' hm').1 _ (hall m hm).1) (Nat.lt_irrefl _)
  · simp only [Timely, hrepeats] at hok
    simp only [List.mem_singleton, forall_eq]
    refine ⟨fun hsome => absurd hnone hsome, fun m' _ _ hsome => absurd hnone hsome,
      fun m' hm' hsame => ?_, fun _ hsome => absurd hnone hsome⟩
    obtain ⟨handler, hhandler, hmem⟩ := List.mem_flatten.mp hm'
    exact absurd (hsame.2.symm.trans hid) (hok handler hhandler m' hmem)

theorem raised_of_ordered (h : Ordered w) {index : Nat} {m : Announcement}
    (hm : w.published[index]? = some m) (hnewer : Newer (w.published.take index) m) :
    Raised (w.published.take index) m := by
  obtain ⟨hlt, rfl⟩ := List.getElem?_eq_some_iff.mp hm
  refine ⟨h.positive _ (List.mem_append_left _ (List.getElem_mem hlt)) hnewer.1, ?_⟩
  intro m' hm' hsame
  obtain ⟨i, hi, hget⟩ := mem_take_iff.mp hm'
  obtain ⟨hil, rfl⟩ := List.getElem?_eq_some_iff.mp hget
  have hfollows := List.pairwise_iff_getElem.mp h.published i index hil hlt hi
  exact hfollows hsame hnewer.1 (hnewer.2 _ hm' hsame)

theorem ordered_step {event : Step} (hmarked : Marked env w) (h : Ordered w)
    (hok : Timely env w event) (hstep : step env w event = some w') : Ordered w' := by
  cases event with
  | transact transaction => exact ordered_transact hmarked h hok hstep
  | publish handler =>
      obtain ⟨⟨m, outbox⟩, hpop, hw⟩ := Option.map_eq_some_iff.mp hstep
      obtain ⟨hwaiting, hsub⟩ := waiting_pop hpop
      subst hw
      have hannounced : w.published ++ [m] ++ outbox.flatten ⊆ w.published ++ w.waiting := by
        refine List.append_subset.mpr ⟨List.append_subset.mpr ⟨?_, ?_⟩, ?_⟩
        · exact List.subset_append_left _ _
        · exact List.cons_subset.mpr ⟨List.mem_append_right _ hwaiting, List.nil_subset _⟩
        · exact List.subset_append_of_subset_right _ hsub
      refine ⟨?_, fun m' hm' m'' hm'' => h.waiting m' (hannounced hm') m'' (hsub hm''),
        fun m' hm' => h.positive m' (hannounced hm'), h.deliveries⟩
      refine List.pairwise_append.mpr ⟨h.published, List.pairwise_singleton _ _, ?_⟩
      intro m' hm' m'' hm''
      rw [List.mem_singleton.mp hm'']
      exact h.waiting m' (List.mem_append_left _ hm') m hwaiting
  | publishFails handler =>
      obtain ⟨⟨m, outbox⟩, hpop, hw⟩ := Option.map_eq_some_iff.mp hstep
      obtain ⟨_, hsub⟩ := waiting_pop hpop
      subst hw
      have hannounced : w.published ++ outbox.flatten ⊆ w.published ++ w.waiting :=
        List.append_subset.mpr ⟨List.subset_append_left _ _,
          List.subset_append_of_subset_right _ hsub⟩
      exact ⟨h.published, fun m' hm' m'' hm'' => h.waiting m' (hannounced hm') m'' (hsub hm''),
        fun m' hm' => h.positive m' (hannounced hm'), h.deliveries⟩
  | deliver index =>
      simp only [step, World.deliver] at hstep
      split at hstep
      · obtain ⟨m, hm, hw⟩ := Option.map_eq_some_iff.mp hstep
        subst hw
        refine ⟨h.published, h.waiting, h.positive, fun d hd => ?_⟩
        rcases List.mem_append.mp hd with hold | hlast
        · exact h.deliveries d hold
        · rw [List.mem_singleton.mp hlast]
          exact raised_of_ordered h hm
      · cases hstep

theorem ordered_of_run (h : Run (step env) (Timely env) World.start w) :
    Marked env w ∧ Ordered w := by
  refine h.invariant (P := fun w => Marked env w ∧ Ordered w) ?_ ?_
  · intro s event s' hinv hok hstep
    exact ⟨marked_step hinv.1 hstep, ordered_step hinv.1 hinv.2 hok hstep⟩
  · refine ⟨marked_start, .nil, fun _ _ _ hm => absurd hm List.not_mem_nil,
      fun _ hm => absurd hm List.not_mem_nil, fun _ hd => absurd hd List.not_mem_nil⟩

end Invariants

section Claims

variable {env : Env} {w : World}

theorem attentive_of_timely (env : Env) :
    (∀ w, Run (step env) (Timely env) World.start w → Attentive w) ∧
    ∀ w, Run (step env) anyStep World.start w → ∀ d ∈ w.deliveries, d.first = true →
      d.message.type = .investigationQueued →
        (∃ m ∈ d.earlier, SameEntity d.message m) → ¬ d.Heard := by
  constructor
  · intro w h
    have htold := (tracked_of_run (h.mono fun _ _ _ => trivial)).told
    have hraised := (ordered_of_run h).2.deliveries
    refine ⟨?_, fun d hd => (htold d hd).repeated, fun d hd => (htold d hd).older⟩
    intro d hd hfirst hnewer
    exact ((htold d hd).first hfirst).mpr (hraised d hd hnewer)
  · rintro w h d hd hfirst htype ⟨m, hm, hsame⟩ hheard
    have hmarked := marked_of_run h
    obtain ⟨hmessage, hearlier⟩ := hmarked.deliveries d hd
    have hone : ∀ m ∈ w.published, m.type = .investigationQueued → m.version = 1 := by
      intro m hm htype
      obtain ⟨t, _, mark, hmark, hof⟩ := hmarked.announced m (List.mem_append_left _ hm)
      rw [hof.version, Mark.version, clock_of_queued hmark (hof.type.trans htype)]
      rfl
    have hraised := (((tracked_of_run h).told d hd).first hfirst).mp hheard
    have hlt := hraised.2 m hm hsame
    rw [hone m (hearlier hm) (hsame.1.trans htype), hone _ hmessage htype] at hlt
    exact absurd hlt (Int.lt_irrefl 1)

def countedId (n : Nat) : String :=
  if n < 2 ^ 128 then PyStr.uuidText n else String.ofList (List.replicate n '0')

theorem length_countedId {n : Nat} (h : ¬ n < 2 ^ 128) : (countedId n).length = n := by
  rw [countedId, if_neg h, String.length_ofList, List.length_replicate]

theorem countedId_injective : Function.Injective countedId := by
  intro m n h
  by_cases hm : m < 2 ^ 128
  · by_cases hn : n < 2 ^ 128
    · simp only [countedId, if_pos hm, if_pos hn] at h
      exact PyStr.uuidText_inj hm hn h
    · have hlength := length_countedId hn
      rw [← h, countedId, if_pos hm, PyStr.length_uuidText] at hlength
      omega
  · by_cases hn : n < 2 ^ 128
    · have hlength := length_countedId hm
      rw [h, countedId, if_pos hn, PyStr.length_uuidText] at hlength
      omega
    · rw [← length_countedId hm, h, length_countedId hn]

theorem countedId_ne_empty (n : Nat) : countedId n ≠ "" := by
  intro h
  by_cases hn : n < 2 ^ 128
  · rw [countedId, if_pos hn] at h
    exact uuidText_ne_empty n h
  · have hlength := length_countedId hn
    rw [h] at hlength
    rw [← hlength] at hn
    exact hn (by decide)

def sampleEnv : Env := ⟨id, countedId, countedId_injective, countedId_ne_empty⟩

def announced (transaction : Transaction) (handler index : Nat) : List Step :=
  [.transact transaction, .publish handler, .deliver index]

def watched : List Step :=
  announced (.requestInvestigation 1 9 100) 0 0 ++ announced (.claim 1 110) 1 1 ++
    announced (.addEvidence 9 115) 2 2 ++ announced (.complete 1 120) 3 3 ++
    [.deliver 0, .deliver 2] ++ announced (.addEvidence 9 130) 4 4

theorem watched_attentive :
    ∃ w, Run (step sampleEnv) (Timely sampleEnv) World.start w ∧ w.deliveries.length = 7 ∧
      Attentive w := by
  have hrun : (execWhile (step sampleEnv) (fun w event => decide (Timely sampleEnv w event))
      World.start watched).any (fun w => decide (w.deliveries.length = 7)) = true := by
    decide
  obtain ⟨w, hrun, hlength⟩ := run_of_execWhile_any hrun
  have htimely := hrun.mono fun _ _ hok => of_decide_eq_true hok
  exact ⟨w, htimely, of_decide_eq_true hlength, (attentive_of_timely sampleEnv).1 w htimely⟩

def requestedAgain : List Step :=
  announced (.requestInvestigation 1 9 100) 0 0 ++ announced (.claim 1 110) 1 1 ++
    announced (.fail 1 120) 2 2 ++ announced (.requestInvestigation 1 9 130) 3 3

theorem second_request_ignored :
    ∃ w, Run (step sampleEnv) anyStep World.start w ∧ ¬ Attentive w := by
  have hrun : (execAll (step sampleEnv) World.start requestedAgain).any (fun w =>
      w.deliveries.any fun d => d.first && decide (Newer d.earlier d.message) &&
        decide (d.after.invalidated = d.before.invalidated)) = true := by
    decide
  obtain ⟨w, hrun, hdelivery⟩ := run_of_execAll_any hrun
  obtain ⟨d, hd, hignored⟩ := List.any_eq_true.mp hdelivery
  obtain ⟨hnew, hsame⟩ := Bool.and_eq_true_iff.mp hignored
  obtain ⟨hfirst, hnewer⟩ := Bool.and_eq_true_iff.mp hnew
  refine ⟨w, hrun, ?_⟩
  intro hattentive
  have hinvalidated := (hattentive.newer d hd hfirst (of_decide_eq_true hnewer)).2.1
  rw [of_decide_eq_true hsame] at hinvalidated
  exact concerned_ne_nil _ (List.self_eq_append_right.mp hinvalidated)

end Claims

end Realtime
