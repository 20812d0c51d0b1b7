import AiSoc.Security.RateLimit

namespace RateLimit

open Counters Transition

variable {settings : Settings}

theorem counters_differ (email sourceIp : List Char) :
    "ai_soc:auth:account:".toList ++ email ≠ "ai_soc:auth:ip:".toList ++ sourceIp := by
  have haccount : "ai_soc:auth:account:".toList = "ai_soc:auth:".toList ++ 'a' :: "ccount:".toList := by
    decide
  have hip : "ai_soc:auth:ip:".toList = "ai_soc:auth:".toList ++ 'i' :: "p:".toList := by decide
  rw [haccount, hip, List.append_assoc, List.append_assoc]
  intro h
  have hchar := (List.cons.inj (List.append_cancel_left h)).1
  exact absurd hchar (by decide)

theorem keys_differ (email sourceIp : String) :
    "ai_soc:auth:account:" ++ email ≠ "ai_soc:auth:ip:" ++ sourceIp := by
  refine fun h => ?_
  have htexts := congrArg String.toList h
  rw [String.toList_append, String.toList_append] at htexts
  exact counters_differ _ _ htexts

theorem accountKey_ne_ipKey (email sourceIp : String) :
    accountKey settings email ≠ ipKey settings sourceIp :=
  keys_differ (settings.digest email) (settings.digest sourceIp)

theorem key_ne {which which' : Which} (h : which ≠ which') (login login' : Login) :
    key settings which login ≠ key settings which' login' := by
  cases which with
  | account =>
      cases which' with
      | account => exact absurd rfl h
      | ip => exact accountKey_ne_ipKey login.email login'.sourceIp
  | ip =>
      cases which' with
      | account => exact (accountKey_ne_ipKey login'.email login.sourceIp).symm
      | ip => exact absurd rfl h

theorem window_pos : 0 < settings.authLoginWindowSeconds :=
  Nat.lt_of_lt_of_le (by decide) settings.window_ge

section Counting

variable (settings) (which : Which) (counter : String)

def Phase.uncounted : Which → Phase → Bool
  | _, .verifying => true
  | _, .incrementing .account => true
  | .ip, .expiring .account => true
  | .ip, .incrementing .ip => true
  | _, _ => false

def weighs (request : Request) : Bool :=
  request.phase.uncounted which && key settings which request.login = counter

def inFlight (s : State) : Nat :=
  s.requests.countP (weighs settings which counter)

def load (s : State) : Nat :=
  s.redis.value counter + inFlight settings which counter s

def InWindow (s : State) : Step → Prop
  | .verify i true | .clear i =>
      ∀ request, s.requests[i]? = some request → key settings which request.login ≠ counter
  | .tick seconds => (s.redis.tick seconds).value counter = s.redis.value counter
  | _ => True

def Overlapping (others : Nat) (s : State) : Step → Prop
  | .check i => ∀ request ∈ s.requests[i]?, key settings which request.login = counter →
      inFlight settings which counter s ≤ others
  | .crash i => ∀ request ∈ s.requests[i]?, weighs settings which counter request = false
  | _ => True

instance (others : Nat) (s : State) (l : Step) :
    Decidable (Overlapping settings which counter others s l) :=
  match l with
  | .check i => inferInstanceAs (Decidable (∀ request ∈ s.requests[i]?,
      key settings which request.login = counter → inFlight settings which counter s ≤ others))
  | .crash i => inferInstanceAs (Decidable (∀ request ∈ s.requests[i]?,
      weighs settings which counter request = false))
  | .arrive _ | .verify _ _ | .incr _ | .expire _ | .clear _ | .tick _ => .isTrue trivial

end Counting

section Load

variable {which : Which} {counter : String} {s s' : State} {i : Nat} {request : Request}

theorem inFlight_move (hi : s.requests[i]? = some request) (phase : Phase) :
    inFlight settings which counter (s.move i request phase) +
        (weighs settings which counter request).toNat =
      inFlight settings which counter s +
        (weighs settings which counter { request with phase }).toNat := by
  obtain ⟨hlt, hget⟩ := List.getElem?_eq_some_iff.1 hi
  have hpos : (weighs settings which counter request).toNat ≤
      inFlight settings which counter s := by
    cases hw : weighs settings which counter request with
    | false => exact Nat.zero_le _
    | true =>
        exact List.countP_pos_iff.2 ⟨request, List.mem_of_getElem? hi, hw⟩
  have hset := List.countP_set (p := weighs settings which counter)
    (a := { request with phase }) hlt
  rw [hget] at hset
  have hmoved : inFlight settings which counter (s.move i request phase) =
      inFlight settings which counter s - (weighs settings which counter request).toNat +
        (weighs settings which counter { request with phase }).toNat := by
    have htoNat : ∀ b : Bool, (if b = true then 1 else 0) = b.toNat := by decide
    rw [← htoNat, ← htoNat]
    exact hset
  omega

theorem weighs_of_ne (h : key settings which request.login ≠ counter) :
    weighs settings which counter request = false := by
  rw [weighs, decide_eq_false h, Bool.and_false]

theorem inFlight_same (hi : s.requests[i]? = some request) {phase : Phase}
    (hsame : weighs settings which counter { request with phase } =
      weighs settings which counter request) :
    inFlight settings which counter (s.move i request phase) =
      inFlight settings which counter s := by
  have h : inFlight settings which counter (s.move i request phase) + _ = _ + _ :=
    inFlight_move hi phase
  rw [hsame] at h
  exact Nat.add_right_cancel h

theorem weighs_same {phase : Phase}
    (h : phase.uncounted which = request.phase.uncounted which) :
    weighs settings which counter { request with phase } =
      weighs settings which counter request := by
  rw [weighs, weighs, h]

theorem load_checked (hi : s.requests[i]? = some request)
    (h : checked settings s i request = some s') : load settings which counter s' =
      load settings which counter s + (admits settings which counter s (.check i)).toNat := by
  unfold checked at h
  split at h
  · rename_i hphase
    have hbefore : weighs settings which counter request = false := by
      rw [weighs, hphase]
      cases which <;> rfl
    have hadmits : admits settings which counter s (.check i) =
        (!isLimited settings s.redis request.login &&
          decide (key settings which request.login = counter)) := by
      simp only [admits, hi, Option.any_some, hphase, decide_true, Bool.true_and]
    cases h
    rw [hadmits]
    cases hlimited : isLimited settings s.redis request.login with
    | true =>
        refine Nat.add_left_cancel_iff.2 (inFlight_same hi ?_)
        refine weighs_same ?_
        rw [hphase]
        cases which <;> rfl
    | false =>
        have hmove : inFlight settings which counter (s.move i request .verifying) + _ = _ + _ :=
          inFlight_move hi .verifying
        have hafter : weighs settings which counter { request with phase := .verifying } =
            decide (key settings which request.login = counter) := by
          cases which <;> rfl
        rw [hbefore, hafter, Bool.toNat_false, Nat.add_zero] at hmove
        change s.redis.value counter + inFlight settings which counter (s.move i request .verifying) = _
        rw [hmove, ← Nat.add_assoc]
        rfl
  · cases h

theorem load_verified {valid : Bool} (hi : s.requests[i]? = some request)
    (hwindow : valid = true → key settings which request.login ≠ counter)
    (h : verified s i request valid = some s') :
    load settings which counter s' = load settings which counter s := by
  unfold verified at h
  split at h
  · rename_i hphase
    cases h
    refine Nat.add_left_cancel_iff.2 (inFlight_same hi ?_)
    cases valid with
    | true =>
        have hkey := hwindow rfl
        rw [weighs_of_ne hkey]
        exact weighs_of_ne hkey
    | false =>
        refine weighs_same ?_
        rw [hphase]
        cases which <;> rfl
  · cases h

theorem uncounted_next {which' : Which} {phase : Phase}
    (h : phase = .expiring which' ∨ phase = .counted which') :
    phase.uncounted which =
      ((Phase.incrementing which').uncounted which && decide (which' ≠ which)) := by
  rcases h with rfl | rfl <;> cases which <;> cases which' <;> rfl

theorem load_incremented {login : Login} (hcounter : counter = key settings which login)
    (hi : s.requests[i]? = some request) (h : incremented settings s i request = some s') :
    load settings which counter s' = load settings which counter s := by
  unfold incremented at h
  split at h
  · rename_i which' hphase
    obtain ⟨next, hnext⟩ : ∃ next, next = if s.redis.value (key settings which' request.login) + 1 = 1
        then Phase.expiring which' else Phase.counted which' := ⟨_, rfl⟩
    have hphases : next = .expiring which' ∨ next = .counted which' := by
      rw [hnext]
      split
      · exact .inl rfl
      · exact .inr rfl
    have huncounted : next.uncounted which = _ := uncounted_next hphases
    simp only [← hnext] at h
    cases h
    change (s.redis.incr _).value counter + inFlight settings which counter (s.move i request next) = _
    by_cases hkey : counter = key settings which' request.login
    · obtain rfl : which' = which := by
        refine Decidable.byContradiction fun hne => ?_
        rw [hcounter] at hkey
        exact key_ne hne request.login login hkey.symm
      have hbefore : weighs settings which' counter request = true := by
        rw [weighs, hphase, ← hkey, decide_eq_true rfl]
        cases which' <;> rfl
      have hafter : weighs settings which' counter { request with phase := next } = false := by
        rw [weighs, huncounted, decide_eq_false (not_not_intro rfl), Bool.and_false, Bool.false_and]
      have hmove : inFlight settings which' counter (s.move i request next) + _ = _ + _ :=
        inFlight_move hi next
      rw [hbefore, hafter, Bool.toNat_true, Bool.toNat_false] at hmove
      rw [← hkey, value_incr_self, load]
      omega
    · rw [value_incr_of_ne hkey]
      refine Nat.add_left_cancel_iff.2 (inFlight_same hi ?_)
      by_cases hsame : which' = which
      · subst hsame
        rw [weighs_of_ne (Ne.symm hkey)]
        exact weighs_of_ne (Ne.symm hkey)
      · refine weighs_same ?_
        rw [huncounted, hphase, decide_eq_true hsame, Bool.and_true]
  · cases h

theorem load_expired (hi : s.requests[i]? = some request)
    (h : expired settings s i request = some s') :
    load settings which counter s' = load settings which counter s := by
  unfold expired at h
  split at h
  · rename_i which' hphase
    cases h
    change (s.redis.expire _ _).value counter +
      inFlight settings which counter (s.move i request (.counted which')) = _
    rw [value_expire window_pos]
    refine Nat.add_left_cancel_iff.2 (inFlight_same hi (weighs_same ?_))
    rw [hphase]
    cases which <;> cases which' <;> rfl
  · cases h

theorem load_cleared {login : Login} (hcounter : counter = key settings which login)
    (hi : s.requests[i]? = some request)
    (hwindow : key settings which request.login ≠ counter)
    (h : cleared settings s i request = some s') :
    load settings which counter s' = load settings which counter s := by
  unfold cleared at h
  split at h
  · rename_i hphase
    cases h
    have hkey : counter ≠ key settings .account request.login := by
      cases which with
      | account => exact hwindow.symm
      | ip =>
          rw [hcounter]
          exact key_ne (by decide) login request.login
    change (s.redis.delete _).value counter +
      inFlight settings which counter (s.move i request .finished) = _
    rw [value_delete_of_ne hkey]
    refine Nat.add_left_cancel_iff.2 (inFlight_same hi (weighs_same ?_))
    rw [hphase]
    cases which <;> rfl
  · cases h

theorem load_crashed (hi : s.requests[i]? = some request)
    (hwindow : weighs settings which counter request = false)
    (h : crashed s i request = some s') :
    load settings which counter s' = load settings which counter s := by
  have hafter : weighs settings which counter { request with phase := .crashed } = false := by
    cases which <;> rfl
  have hsame : inFlight settings which counter (s.move i request .crashed) = _ :=
    inFlight_same hi (hafter.trans hwindow.symm)
  unfold crashed at h
  split at h
  · cases h
  · cases h
  · cases h
    exact Nat.add_left_cancel_iff.2 hsame

theorem load_step {login : Login} (hcounter : counter = key settings which login) {l : Step}
    {others : Nat} (hwindow : InWindow settings which counter s l)
    (hoverlap : Overlapping settings which counter others s l) (h : step settings s l = some s') :
    load settings which counter s' =
      load settings which counter s + (admits settings which counter s l).toNat := by
  cases l with
  | arrive login' =>
      cases h
      have hnew : List.countP (weighs settings which counter) [⟨login', .arrived⟩] = 0 := by
        cases which <;> rfl
      change s.redis.value counter + List.countP _ (s.requests ++ _) = _
      rw [List.countP_append, hnew]
      rfl
  | check i =>
      obtain ⟨request, hi, h⟩ := Option.bind_eq_some_iff.1 h
      exact load_checked hi h
  | verify i valid =>
      obtain ⟨request, hi, h⟩ := Option.bind_eq_some_iff.1 h
      refine load_verified hi ?_ h
      rintro rfl
      exact hwindow request hi
  | incr i =>
      obtain ⟨request, hi, h⟩ := Option.bind_eq_some_iff.1 h
      exact load_incremented hcounter hi h
  | expire i =>
      obtain ⟨request, hi, h⟩ := Option.bind_eq_some_iff.1 h
      exact load_expired hi h
  | clear i =>
      obtain ⟨request, hi, h⟩ := Option.bind_eq_some_iff.1 h
      exact load_cleared hcounter hi (hwindow request hi) h
  | crash i =>
      obtain ⟨request, hi, h⟩ := Option.bind_eq_some_iff.1 h
      exact load_crashed hi (hoverlap request hi) h
  | tick seconds =>
      cases h
      exact congrArg (· + inFlight settings which counter s) hwindow

theorem value_lt_of_not_limited {redis : Db} {login : Login}
    (h : isLimited settings redis login = false) (which : Which) :
    redis.value (key settings which login) < limit settings which := by
  simp only [isLimited, Bool.or_eq_false_iff, decide_eq_false_iff_not, Nat.not_le] at h
  cases which with
  | account => exact h.1
  | ip => exact h.2

theorem load_of_admits {l : Step} {others : Nat}
    (h : Overlapping settings which counter others s l)
    (hadmits : admits settings which counter s l = true) :
    load settings which counter s < limit settings which + others := by
  cases l with
  | check i =>
      obtain ⟨request, hi, hrequest⟩ := (Option.any_eq_true _ _).1 hadmits
      simp only [Bool.and_eq_true, Bool.not_eq_true', decide_eq_true_iff] at hrequest
      obtain ⟨⟨_, hlimited⟩, hkey⟩ := hrequest
      have hvalue := value_lt_of_not_limited hlimited which
      rw [hkey] at hvalue
      exact Nat.add_lt_add_of_lt_of_le hvalue (h request hi hkey)
  | _ => cases hadmits

end Load

section Expiry

variable (settings)

def Expires (now : Nat) (counter : Counter) : Prop :=
  ∃ t, counter.expiresAt = some t ∧ t ≤ now + settings.authLoginWindowSeconds

def Pending (requests : List Request) (name : String) : Prop :=
  ∃ (i : Nat) (request : Request) (which : Which), requests[i]? = some request ∧
    request.phase = .expiring which ∧ key settings which request.login = name

def Timed (redis : Db) (requests : List Request) : Prop :=
  ∀ name counter, redis.live name = some counter →
    Expires settings redis.now counter ∨ Pending settings requests name

def KeepsExpiry (s : State) : Step → Prop
  | .crash i => ∀ request, s.requests[i]? = some request → ∀ which, request.phase ≠ .expiring which
  | _ => True

def Settled (s : State) : Prop :=
  ∀ request ∈ s.requests, ∀ which, request.phase ≠ .expiring which

end Expiry

section Timing

variable {redis : Db} {requests : List Request} {i : Nat} {request : Request}

theorem pending_set {name : String} (h : Pending settings requests name)
    (hi : requests[i]? = some request)
    (hother : ∀ which, request.phase = .expiring which →
      key settings which request.login ≠ name) (request' : Request) :
    Pending settings (requests.set i request') name := by
  obtain ⟨j, pending, which, hj, hphase, hname⟩ := h
  have hne : i ≠ j := by
    rintro rfl
    obtain rfl : request = pending := Option.some.inj (hi.symm.trans hj)
    exact hother which hphase hname
  refine ⟨j, pending, which, ?_, hphase, hname⟩
  rw [List.getElem?_set_ne hne]
  exact hj

theorem pending_set_self {which : Which} (hi : requests[i]? = some request) :
    Pending settings (requests.set i { request with phase := .expiring which })
      (key settings which request.login) := by
  obtain ⟨hlt, _⟩ := List.getElem?_eq_some_iff.1 hi
  exact ⟨i, _, which, List.getElem?_set_self hlt, rfl, rfl⟩

theorem timed_set (h : Timed settings redis requests) (hi : requests[i]? = some request)
    (hphase : ∀ which, request.phase ≠ .expiring which) (request' : Request) :
    Timed settings redis (requests.set i request') := by
  intro name counter hlive
  rcases h name counter hlive with hexpires | hpending
  · exact .inl hexpires
  · exact .inr (pending_set hpending hi (fun which hexpiring => absurd hexpiring (hphase which)) request')

theorem timed_incr {which : Which} (h : Timed settings redis requests)
    (hi : requests[i]? = some request) (hphase : request.phase = .incrementing which)
    {next : Phase} (hnext : redis.value (key settings which request.login) + 1 = 1 →
      next = .expiring which) :
    Timed settings (redis.incr (key settings which request.login))
      (requests.set i { request with phase := next }) := by
  have hother : ∀ which', request.phase ≠ .expiring which' := by
    intro which' hexpiring
    cases hphase.symm.trans hexpiring
  have hset := timed_set h hi hother { request with phase := next }
  intro name counter hlive
  by_cases hname : name = key settings which request.login
  · subst hname
    rw [live_incr_self] at hlive
    cases hold : redis.live (key settings which request.login) with
    | none =>
        have hzero : redis.value (key settings which request.login) + 1 = 1 := by
          rw [Db.value, hold]
          rfl
        rw [hnext hzero]
        exact .inr (pending_set_self hi)
    | some old =>
        rw [hold] at hlive
        rcases hset _ old hold with ⟨t, ht, hsoon⟩ | hpending
        · refine .inl ⟨t, ?_, hsoon⟩
          rw [← Option.some.inj hlive]
          exact ht
        · exact .inr hpending
  · rw [live_incr_of_ne hname] at hlive
    exact hset name counter hlive

theorem timed_expire {which : Which} (h : Timed settings redis requests)
    (hi : requests[i]? = some request) (hphase : request.phase = .expiring which)
    (request' : Request) :
    Timed settings
      (redis.expire (key settings which request.login) settings.authLoginWindowSeconds)
      (requests.set i request') := by
  have hnow : (redis.expire (key settings which request.login)
      settings.authLoginWindowSeconds).now = redis.now := by
    unfold Db.expire
    cases redis.live (key settings which request.login) <;> rfl
  intro name counter hlive
  rw [hnow]
  by_cases hname : name = key settings which request.login
  · subst hname
    rw [live_expire_self window_pos, Option.map_eq_some_iff] at hlive
    obtain ⟨old, _, rfl⟩ := hlive
    exact .inl ⟨_, rfl, Nat.le_refl _⟩
  · rw [live_expire_of_ne hname] at hlive
    rcases h name counter hlive with hexpires | hpending
    · exact .inl hexpires
    · refine .inr (pending_set hpending hi ?_ request')
      intro which' hexpiring
      cases hphase.symm.trans hexpiring
      exact Ne.symm hname

theorem timed_delete {deleted : String} (h : Timed settings redis requests) :
    Timed settings (redis.delete deleted) requests := by
  intro name counter hlive
  by_cases hname : name = deleted
  · subst hname
    rw [live_delete_self] at hlive
    cases hlive
  · rw [live_delete_of_ne hname] at hlive
    exact h name counter hlive

theorem timed_tick {seconds : Nat} (h : Timed settings redis requests) :
    Timed settings (redis.tick seconds) requests := by
  intro name counter hlive
  obtain ⟨hbefore, _⟩ := live_of_tick hlive
  rcases h name counter hbefore with ⟨t, ht, hsoon⟩ | hpending
  · refine .inl ⟨t, ht, ?_⟩
    change t ≤ redis.now + seconds + settings.authLoginWindowSeconds
    omega
  · exact .inr hpending

theorem timed_arrive (h : Timed settings redis requests) (arrived : List Request) :
    Timed settings redis (requests ++ arrived) := by
  intro name counter hlive
  rcases h name counter hlive with hexpires | ⟨j, pending, which, hj, hphase, hname⟩
  · exact .inl hexpires
  · have hlt := (List.getElem?_eq_some_iff.1 hj).1
    exact .inr ⟨j, pending, which, (List.getElem?_append_left hlt).trans hj, hphase, hname⟩

theorem timed_step {s s' : State} {l : Step} (h : Timed settings s.redis s.requests)
    (hok : KeepsExpiry s l) (hstep : step settings s l = some s') :
    Timed settings s'.redis s'.requests := by
  cases l with
  | arrive login =>
      cases hstep
      exact timed_arrive h _
  | check i =>
      obtain ⟨request, hi, hstep⟩ := Option.bind_eq_some_iff.1 hstep
      unfold checked at hstep
      split at hstep
      · rename_i hphase
        cases hstep
        exact timed_set h hi (by simp [hphase]) _
      · cases hstep
  | verify i valid =>
      obtain ⟨request, hi, hstep⟩ := Option.bind_eq_some_iff.1 hstep
      unfold verified at hstep
      split at hstep
      · rename_i hphase
        cases hstep
        exact timed_set h hi (by simp [hphase]) _
      · cases hstep
  | incr i =>
      obtain ⟨request, hi, hstep⟩ := Option.bind_eq_some_iff.1 hstep
      unfold incremented at hstep
      split at hstep
      · rename_i which hphase
        cases hstep
        exact timed_incr h hi hphase (fun hone => if_pos hone)
      · cases hstep
  | expire i =>
      obtain ⟨request, hi, hstep⟩ := Option.bind_eq_some_iff.1 hstep
      unfold expired at hstep
      split at hstep
      · rename_i which hphase
        cases hstep
        exact timed_expire h hi hphase _
      · cases hstep
  | clear i =>
      obtain ⟨request, hi, hstep⟩ := Option.bind_eq_some_iff.1 hstep
      unfold cleared at hstep
      split at hstep
      · rename_i hphase
        cases hstep
        exact timed_delete (timed_set h hi (by simp [hphase]) _)
      · cases hstep
  | crash i =>
      obtain ⟨request, hi, hstep⟩ := Option.bind_eq_some_iff.1 hstep
      unfold crashed at hstep
      split at hstep
      · cases hstep
      · cases hstep
      · cases hstep
        exact timed_set h hi (hok request hi) _
  | tick seconds =>
      cases hstep
      exact timed_tick h

theorem timed_run {s : State} (hrun : Run (step settings) KeepsExpiry initial s) :
    Timed settings s.redis s.requests := by
  refine hrun.invariant (P := fun s => Timed settings s.redis s.requests) ?_ ?_
  · intro s l s' h hok hstep
    exact timed_step h hok hstep
  · intro name counter hlive
    cases hlive

theorem unlocked_of_expires {s : State}
    (h : ∀ name counter, s.redis.live name = some counter → Expires settings s.redis.now counter)
    (login : Login) :
    isLimited settings (s.redis.tick settings.authLoginWindowSeconds) login = false := by
  have hgone : ∀ name, (s.redis.tick settings.authLoginWindowSeconds).value name = 0 := by
    intro name
    rw [Db.value]
    cases hlive : (s.redis.tick settings.authLoginWindowSeconds).live name with
    | none => rfl
    | some counter =>
        obtain ⟨hbefore, hafter⟩ := live_of_tick hlive
        obtain ⟨t, ht, hsoon⟩ := h name counter hbefore
        simp [Counter.isLive, ht, hsoon] at hafter
  have haccount := settings.account_ge
  have hip := settings.ip_ge
  simp only [isLimited, hgone, limit, Bool.or_eq_false_iff, decide_eq_false_iff_not]
  omega

end Timing

section Throttling

structure ExpiriesKept (settings : Settings) (s : State) : Prop where
  pending : ∀ name counter, s.redis.live name = some counter →
    Expires settings s.redis.now counter ∨ Pending settings s.requests name
  settled : Settled s → ∀ name counter, s.redis.live name = some counter →
    Expires settings s.redis.now counter
  unlocked : Settled s → ∀ login,
    isLimited settings (s.redis.tick settings.authLoginWindowSeconds) login = false

theorem expiries_kept {s : State} (hrun : Run (step settings) KeepsExpiry initial s) :
    ExpiriesKept settings s := by
  have htimed := timed_run hrun
  have hsettled : Settled s → ∀ name counter, s.redis.live name = some counter →
      Expires settings s.redis.now counter := by
    intro hsettled name counter hlive
    rcases htimed name counter hlive with hexpires | ⟨i, request, which, hi, hphase, _⟩
    · exact hexpires
    · exact absurd hphase (hsettled request (List.mem_of_getElem? hi) which)
  exact ⟨htimed, hsettled, fun h => unlocked_of_expires (hsettled h)⟩

theorem login_throttling (settings : Settings) :
    (∀ (which : Which) (login : Login) (others : Nat) (s : State) (ls : List Step),
      s.redis.value (key settings which login) = 0 →
      inFlight settings which (key settings which login) s = 0 →
      Along (step settings) (InWindow settings which (key settings which login)) s ls →
      Along (step settings) (Overlapping settings which (key settings which login) others) s ls →
      reached settings which (key settings which login) s ls ≤ limit settings which + others) ∧
    ∀ s, Run (step settings) KeepsExpiry initial s → ExpiriesKept settings s := by
  refine ⟨?_, fun s hrun => expiries_kept hrun⟩
  intro which login others s ls hvalue hidle hwindow hoverlap
  have hload : load settings which (key settings which login) s = 0 := by
    rw [load, hvalue, hidle]
  have hle : load settings which (key settings which login) s ≤ limit settings which + others := by
    rw [hload]
    exact Nat.zero_le _
  have hcount := count_le (p := admits settings which (key settings which login))
    (fun _ _ _ hok hstep => load_step rfl hok.1 hok.2 hstep)
    (fun _ _ hok hadmits => load_of_admits hok.2 hadmits) (along_and hwindow hoverlap) hle
  rw [hload, Nat.zero_add] at hcount
  exact hcount

def defaults : Settings where
  authLoginWindowSeconds := 900
  authLoginAccountLimit := 5
  authLoginIpLimit := 20
  window_ge := by decide
  account_ge := by decide
  ip_ge := by decide
  digest := id

def attempt : Login := ⟨"eve@example.com", "203.0.113.9"⟩

def race : List Step :=
  List.replicate 6 (.arrive attempt) ++ (List.range 6).map .check

def crashAfterIncr : List Step :=
  [.arrive attempt, .check 0, .verify 0 false, .incr 0, .crash 0]

theorem throttling_fails :
    (∃ s', Along (step defaults)
        (InWindow defaults .account (key defaults .account attempt)) initial race ∧
      execAll (step defaults) initial race = some s' ∧
      limit defaults .account <
        reached defaults .account (key defaults .account attempt) initial race) ∧
    ∃ s, Run (step defaults) anyStep initial s ∧ Settled s ∧
      s.redis.live (key defaults .account attempt) = some ⟨1, none⟩ := by
  constructor
  · refine ⟨_, ?_, rfl, by decide⟩
    refine along_of_forall ?_ initial
    intro l hl s
    simp only [race, List.mem_append, List.mem_replicate, List.mem_map] at hl
    rcases hl with ⟨_, rfl⟩ | ⟨i, _, rfl⟩ <;> trivial
  · have hrun : execAll (step defaults) initial crashAfterIncr = some _ := rfl
    refine ⟨_, run_of_execAll hrun, ?_, by decide⟩
    intro request hrequest which
    obtain rfl := List.mem_singleton.1 hrequest
    exact nofun

def failures : List Step :=
  [.arrive attempt, .arrive attempt, .check 0, .verify 0 false, .incr 0, .expire 0, .incr 0,
    .expire 0, .check 1, .verify 1 false, .incr 1, .incr 1]

theorem failures_throttled :
    reached defaults .account (key defaults .account attempt) initial failures ≤ 5 ∧
      ∃ s, execAll (step defaults) initial failures = some s ∧ ExpiriesKept defaults s := by
  obtain ⟨hbound, hexpiries⟩ := login_throttling defaults
  have hcalm : ∀ l ∈ failures, ∀ s, InWindow defaults .account (key defaults .account attempt) s l ∧
      KeepsExpiry s l := by
    intro l hl s
    simp only [failures, List.mem_cons, List.not_mem_nil, or_false] at hl
    rcases hl with rfl | rfl | rfl | rfl | rfl | rfl | rfl | rfl | rfl | rfl | rfl | rfl <;>
      exact ⟨trivial, trivial⟩
  have hrun : execAll (step defaults) initial failures = some _ := rfl
  have hwindow : Along (step defaults) _ initial failures :=
    along_of_forall (fun l hl s => (hcalm l hl s).1) initial
  have hkept : Along (step defaults) _ initial failures :=
    along_of_forall (fun l hl s => (hcalm l hl s).2) initial
  have halone : Along (step defaults)
      (Overlapping defaults .account (key defaults .account attempt) 0) initial failures :=
    along_of_execWhile (by decide)
  exact ⟨hbound .account attempt 0 initial failures rfl rfl hwindow halone, _, hrun,
    hexpiries _ (run_of_along hkept hrun)⟩

end Throttling

end RateLimit
