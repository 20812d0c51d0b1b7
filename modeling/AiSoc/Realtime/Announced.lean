import AiSoc.Realtime.Attention

namespace Realtime

open Suppression Transition

section Invariants

variable {env : Env} {w w' : World}

def Offered (env : Env) (w : World) (offered : List (Offer String String)) : Prop :=
  ∀ o, o ∈ offered ↔ ∃ i < w.next, ∃ m, w.published[i]? = some m ∧ o = offerOf env i m

structure Delivery.Told (d : Delivery) : Prop where
  first : d.first = true → (d.Heard ↔ Raised d.earlier d.message)
  repeated : d.first = false → d.Quiet
  older : d.message.version < d.recorded → d.Quiet

structure Tracked (env : Env) (w : World) : Prop where
  outbox : WellFormedOutbox w.backend.outbox
  published : ∀ m ∈ w.published, m.WellFormed
  next : w.next ≤ w.published.length
  covers : ∃ offered, Covers (-1) w.provider.receiver offered ∧ Offered env w offered
  told : ∀ d ∈ w.deliveries, d.Told

theorem tracked_start : Tracked env .start := by
  refine ⟨fun _ h => absurd h List.not_mem_nil, fun _ h => absurd h List.not_mem_nil,
    Nat.le_refl 0, ⟨[], covers_start, ?_⟩, fun _ h => absurd h List.not_mem_nil⟩
  intro o
  refine ⟨fun h => absurd h List.not_mem_nil, ?_⟩
  rintro ⟨i, hi, _⟩
  exact absurd hi (Nat.not_lt_zero i)

theorem mem_take_iff {α : Type} {l : List α} {n : Nat} {a : α} :
    a ∈ l.take n ↔ ∃ i < n, l[i]? = some a := by
  rw [List.mem_iff_getElem?]
  constructor
  · rintro ⟨i, hi⟩
    rw [List.getElem?_take] at hi
    split at hi
    · exact ⟨i, ‹_›, hi⟩
    · cases hi
  · rintro ⟨i, hlt, hi⟩
    refine ⟨i, ?_⟩
    rw [List.getElem?_take, if_pos hlt]
    exact hi

theorem Offered.of_published {offered : List (Offer String String)} (h : Offered env w offered)
    (hle : w.next ≤ w.published.length) (hnext : w'.next = w.next)
    {new : List Announcement} (hpublished : w'.published = w.published ++ new) :
    Offered env w' offered := by
  intro o
  rw [h o, hnext, hpublished]
  constructor
  · rintro ⟨i, hi, m, hm, ho⟩
    refine ⟨i, hi, m, ?_, ho⟩
    rw [List.getElem?_append_left (Nat.lt_of_lt_of_le hi hle)]
    exact hm
  · rintro ⟨i, hi, m, hm, ho⟩
    rw [List.getElem?_append_left (Nat.lt_of_lt_of_le hi hle)] at hm
    exact ⟨i, hi, m, hm, ho⟩

variable {offered : List (Offer String String)} {index : Nat} {m : Announcement}

theorem Offered.consistent (h : Offered env w offered) (hm : w.published[index]? = some m) :
    Consistent offered (offerOf env index m) := by
  intro o ho hid
  obtain ⟨i, _, m', hm', rfl⟩ := (h o).mp ho
  have hindex : i = index := env.messageId_injective hid
  rw [hindex, hm] at hm'
  rw [hindex, Option.some.inj hm']

theorem Offered.raised_iff (h : Offered env w offered) :
    (-1 < m.version ∧ ∀ o ∈ offered, o.key = (offerOf env w.next m).key → o.version < m.version) ↔
      Raised (w.published.take w.next) m := by
  constructor
  · rintro ⟨hpositive, hall⟩
    refine ⟨hpositive, ?_⟩
    intro m' hm' hsame
    obtain ⟨i, hi, hget⟩ := mem_take_iff.mp hm'
    refine hall (offerOf env i m') ((h _).mpr ⟨i, hi, m', hget, rfl⟩) ?_
    simp only [offerOf, hsame.1, hsame.2]
  · rintro ⟨hpositive, hall⟩
    refine ⟨hpositive, ?_⟩
    intro o ho hkey
    obtain ⟨i, hi, m', hget, rfl⟩ := (h o).mp ho
    obtain ⟨htype, hentity⟩ := versionKey_inj hkey
    exact hall m' (mem_take_iff.mpr ⟨i, hi, hget⟩) ⟨htype, hentity⟩

theorem Offered.next (h : Offered env w offered) (hm : w.published[w.next]? = some m)
    (hnext : w'.next = w.next + 1) (hpublished : w'.published = w.published) :
    Offered env w' (offered ++ [offerOf env w.next m]) := by
  intro o
  rw [List.mem_append, List.mem_singleton, h o, hnext, hpublished]
  constructor
  · rintro (⟨i, hi, m', hget, ho⟩ | ho)
    · exact ⟨i, Nat.lt_succ_of_lt hi, m', hget, ho⟩
    · exact ⟨w.next, Nat.lt_succ_self _, m, hm, ho⟩
  · rintro ⟨i, hi, m', hget, ho⟩
    rcases Nat.lt_succ_iff_lt_or_eq.mp hi with hlt | heq
    · exact .inl ⟨i, hlt, m', hget, ho⟩
    · rw [heq, hm] at hget
      rw [heq, ← Option.some.inj hget] at ho
      exact .inr ho

theorem Offered.again (h : Offered env w offered) (hindex : index < w.next)
    (hm : w.published[index]? = some m) (hnext : w'.next = w.next)
    (hpublished : w'.published = w.published) :
    Offered env w' (offered ++ [offerOf env index m]) := by
  intro o
  rw [List.mem_append, List.mem_singleton, h o, hnext, hpublished]
  constructor
  · rintro (hold | ho)
    · exact hold
    · exact ⟨index, hindex, m, hm, ho⟩
  · exact fun hold => .inl hold

theorem told_deliver (hcovers : Covers (-1) w.provider.receiver offered)
    (hoffered : Offered env w offered) (hwell : m.WellFormed) (hle : index ≤ w.next)
    (hm : w.published[index]? = some m) : (deliveryOf env w index m).Told := by
  have hwell' : (deliveryOf env w index m).message.WellFormed := hwell
  obtain ⟨hheard, hquiet⟩ := heard_iff env index hwell' rfl
  constructor
  · intro hfirst
    have hindex : index = w.next := of_decide_eq_true hfirst
    subst hindex
    have hnew : ∀ o ∈ offered, o.id ≠ (offerOf env w.next m).id := by
      intro o ho hid
      obtain ⟨i, hi, m', _, rfl⟩ := (hoffered o).mp ho
      have hsame : i = w.next := env.messageId_injective hid
      omega
    exact hheard.trans ((hcovers.offer_iff hnew).trans hoffered.raised_iff)
  · intro hagain
    have hne : index ≠ w.next := of_decide_eq_false hagain
    have hlt : index < w.next := Nat.lt_of_le_of_ne hle hne
    have hmem : offerOf env index m ∈ offered := (hoffered _).mpr ⟨index, hlt, m, hm, rfl⟩
    exact hquiet (hcovers.offer_repeated hmem)
  · intro holder
    refine hquiet ?_
    cases haccepted : ((deliveryOf env w index m).before.offer env index m).2 with
    | false => exact haccepted
    | true =>
        have hlt := lt_of_offer haccepted
        have hgt : m.version < (deliveryOf env w index m).recorded := holder
        exact absurd hlt (Int.not_lt.mpr (Int.le_of_lt hgt))

theorem tracked_deliver (h : Tracked env w) (hstep : w.deliver env index = some w') :
    Tracked env w' := by
  simp only [World.deliver] at hstep
  split at hstep
  · rename_i hle
    obtain ⟨m, hm, hw⟩ := Option.map_eq_some_iff.mp hstep
    obtain ⟨offered, hcovers, hoffered⟩ := h.covers
    have hwell := h.published m (List.mem_of_getElem? hm)
    have hlength : index < w.published.length := (List.getElem?_eq_some_iff.mp hm).1
    subst hw
    refine ⟨h.outbox, h.published, ?_, ⟨offered ++ [offerOf env index m], ?_, ?_⟩, ?_⟩
    · exact Nat.max_le.mpr ⟨h.next, hlength⟩
    · have hone : Covers (-1) (w.provider.offer env index m).1
          (offered ++ [offerOf env index m]) := hcovers.offer (hoffered.consistent hm)
      simp only [deliveryOf]
      rw [receiver_handle env index hwell]
      exact hone
    · by_cases hindex : index = w.next
      · subst hindex
        exact hoffered.next hm (Nat.max_eq_right (Nat.le_succ _)) rfl
      · have hlt : index < w.next := Nat.lt_of_le_of_ne hle hindex
        exact hoffered.again hlt hm (Nat.max_eq_left hlt) rfl
    · intro d hd
      rcases List.mem_append.mp hd with hold | hlast
      · exact h.told d hold
      · rw [List.mem_singleton.mp hlast]
        exact told_deliver hcovers hoffered hwell hle hm
  · cases hstep

theorem tracked_step {event : Step} (h : Tracked env w) (hstep : step env w event = some w') :
    Tracked env w' := by
  obtain ⟨offered, hcovers, hoffered⟩ := h.covers
  cases event with
  | transact transaction =>
      obtain ⟨b, hb, hw⟩ := Option.map_eq_some_iff.mp hstep
      subst hw
      exact ⟨wellFormed_transact h.outbox hb, h.published, h.next,
        ⟨offered, hcovers, hoffered⟩, h.told⟩
  | publish handler =>
      obtain ⟨⟨m, outbox⟩, hpop, hw⟩ := Option.map_eq_some_iff.mp hstep
      obtain ⟨hwell, houtbox⟩ := wellFormed_pop h.outbox hpop
      subst hw
      refine ⟨houtbox, ?_, ?_, ⟨offered, hcovers, hoffered.of_published h.next rfl rfl⟩, h.told⟩
      · intro m' hm'
        rcases List.mem_append.mp hm' with hold | hlast
        · exact h.published m' hold
        · rw [List.mem_singleton.mp hlast]
          exact hwell
      · exact Nat.le_trans h.next (List.sublist_append_left _ _).length_le
  | publishFails handler =>
      obtain ⟨⟨m, outbox⟩, hpop, hw⟩ := Option.map_eq_some_iff.mp hstep
      obtain ⟨_, houtbox⟩ := wellFormed_pop h.outbox hpop
      subst hw
      exact ⟨houtbox, h.published, h.next, ⟨offered, hcovers, hoffered⟩, h.told⟩
  | deliver index => exact tracked_deliver h hstep

theorem tracked_of_run (h : Run (step env) anyStep World.start w) : Tracked env w :=
  h.invariant (fun _ _ _ htracked _ hstep => tracked_step htracked hstep) tracked_start

end Invariants

end Realtime
