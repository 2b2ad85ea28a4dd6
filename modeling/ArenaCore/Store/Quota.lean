import ArenaCore.Store.Replicas

/-!
# Creation Quotas

Each creation is counted in three scopes, for the minute in which it made its
reservation: all creations, those from its address, and those of its user. The
counters are rows that expire with their minute, and a maintenance pass deletes
expired rows.

Under the advisory lock a counter changes only with the commit of the creation
that increments it, so as long as its minute lasts it counts the committed
creations of that minute (`Tally`). That does not bound them. A creation that
computed its window just before the minute ended may increment its counters
afterwards. If a maintenance pass deletes the expired rows in between, it starts
from a fresh counter and passes the check whatever the minute's creations were
(`quota_exceeded`). As long as no pass deletes rows of a window that a
reservation in progress has computed, every window stays within its limits.

## Main definitions

* `Scope`: What creations are counted by.
* `Replicas.counter`, `Replicas.committed`: The stored and the true count.
* `OneClock`: All processes read one clock.
* `SpareCounters`: No pass deletes a counter that a reservation has yet to increment.
* `Tally`, `Kept`: The invariants.

## Theorems

* `rateKey_inj`: Counters of different scopes or windows are different rows.
* `tally_run`: The counters of a minute that has not ended are exact.
* `quotas_count`: Both halves, with the condition of the second.
* `quota_exceeded`: A run in which the condition fails.
-/

namespace ArenaCore

open Executions

/-! ### Scopes and their rows -/

inductive Scope where
  | global
  | ip (address : String)
  | user (userId : Uuid)
deriving DecidableEq

namespace Scope

def text : Scope → String
  | global => "global"
  | ip address => "ip:" ++ address
  | user userId => "user:" ++ userId.text

def limit (d : Deployment) : Scope → Nat
  | global => d.config.executionGlobalCreationsPerMinute
  | ip _ => d.config.executionIpCreationsPerMinute
  | user _ => d.config.executionCreationsPerMinute

/-- The scopes a creation is counted in, in the order of the source. -/
def ofCall (call : CreateCall) : List Scope :=
  [global, ip call.ip, user call.userId]

theorem text_injective : Function.Injective text := by
  intro a b h
  have hlist := congrArg String.toList h
  cases a <;> cases b <;> simp [text, String.toList_inj] at hlist ⊢
  · exact hlist
  · rename_i u v
    cases u
    cases v
    simp_all

theorem ofCall_nodup (call : CreateCall) : (ofCall call).Nodup := by
  simp [ofCall]

end Scope

def rateKey (d : Deployment) (window : Nat) (sc : Scope) : String :=
  executionRateKey d window sc.text

/-- A number is told from what follows it by the colon. -/
theorem toString_append_colon_inj {m n : Nat} {a b : String}
    (h : toString m ++ ":" ++ a = toString n ++ ":" ++ b) : m = n ∧ a = b := by
  have hdigits : ∀ k : Nat, ∀ c ∈ (toString k).toList, (c != ':') = true := by
    intro k c hc
    have hdigit : c.isDigit = true :=
      Nat.isDigit_of_mem_toDigits (by decide) (by decide) (Nat.toList_repr ▸ hc)
    rw [bne_iff_ne]
    rintro rfl
    exact absurd hdigit (by decide)
  have hlist := congrArg String.toList h
  simp only [String.toList_append, List.append_assoc] at hlist
  have hnumber := congrArg (List.takeWhile (· != ':')) hlist
  rw [List.takeWhile_append_of_pos (hdigits m), List.takeWhile_append_of_pos (hdigits n)] at hnumber
  simp only [String.reduceToList, List.cons_append, List.nil_append, bne_self_eq_false,
    Bool.false_eq_true, not_false_eq_true, List.takeWhile_cons_of_neg, List.append_nil] at hnumber
  have hmn : m = n := by
    have hvalue := congrArg (Nat.ofDigitChars 10 · 0) hnumber
    simpa only [Nat.toString_eq_repr, Nat.toList_repr, Nat.ofDigitChars_ten_toDigits] using hvalue
  subst hmn
  refine ⟨rfl, String.toList_inj.1 ?_⟩
  simpa using hlist

/-! ### Counts -/

/-- The stored count of a scope in a window. -/
def Replicas.counter (d : Deployment) (s : Replicas) (window : Nat) (sc : Scope) : Nat :=
  ((s.store.rateLimits.lookup (rateKey d window sc)).map RateCounter.count).getD 0

/-- The committed creations that computed a window and belong to a scope. -/
def Replicas.committed (s : Replicas) (window : Nat) (sc : Scope) : Nat :=
  s.admitted.countP fun a => a.window == window && (Scope.ofCall a.call).contains sc

/-- All processes read the clock of the database, and a maintenance pass
    deletes what had expired when it looked. -/
def OneClock (s : Replicas) : Event → Prop
  | .advance _ app _ => app = s.store.clock
  | .sweep time => time ≤ s.store.clock
  | _ => True

/-- The counters that a reservation has yet to increment. -/
def Phase.uncounted (d : Deployment) : Phase → List String
  | .charging _ _ window left _ => left.map fun scope => executionRateKey d window scope.1
  | _ => []

/-- No maintenance pass deletes a counter that a reservation in progress has yet to
    increment. -/
def SpareCounters (d : Deployment) (s : Replicas) : Event → Prop
  | .sweep time => ∀ e ∈ s.pending.entries, ∀ key ∈ e.2.phase.uncounted d,
      (s.sweep time).store.rateLimits.lookup key = s.store.rateLimits.lookup key
  | _ => True

/-! ### Reservations in progress -/

/-- The counters a reservation has written: those of the scopes done, each one
    more than what is committed. -/
structure Reserved (d : Deployment) (limits : Table String RateCounter) (window : Nat)
    (done : List Scope) (writes : List (String × RateCounter)) : Prop where
  keys : writes.map Prod.fst = (done.map (rateKey d window)).reverse
  counts : ∀ w ∈ writes, w.2 = countedUp ((window + 1) * 60000) (limits.lookup w.1)

/-- What a pending creation has written so far. -/
inductive Reserving (d : Deployment) (limits : Table String RateCounter) (call : CreateCall) :
    Phase → Prop where
  | early (phase : Phase) (before : phase.rank < 8) : Reserving d limits call phase
  | charging (versionId : Uuid) (round : Option Uuid) (window : Nat) (done rest : List Scope)
      (writes : List (String × RateCounter)) (scopes : Scope.ofCall call = done ++ rest)
      (reserved : Reserved d limits window done writes) :
      Reserving d limits call
        (.charging versionId round window (rest.map fun sc => (sc.text, sc.limit d)) writes)
  | inserted (job : Job) (window : Nat) (writes : List (String × RateCounter))
      (reserved : Reserved d limits window (Scope.ofCall call) writes) :
      Reserving d limits call (.inserted job window writes)

theorem lookup_applyWrites {limits : Table String RateCounter} {expiresAt : Nat}
    {writes : List (String × RateCounter)}
    (h : ∀ w ∈ writes, w.2 = countedUp expiresAt (limits.lookup w.1)) (key : String) :
    (applyWrites writes limits).lookup key =
      if key ∈ writes.map Prod.fst then some (countedUp expiresAt (limits.lookup key))
      else limits.lookup key := by
  induction writes with
  | nil => rfl
  | cons w rest ih =>
      have ih := ih fun w' hw' => h w' (List.mem_cons_of_mem w hw')
      have hw := h w List.mem_cons_self
      simp only [applyWrites, List.foldr_cons, List.map_cons, List.mem_cons] at ih ⊢
      by_cases hkey : key = w.1
      · rw [hkey, AList.lookup_insert, if_pos (.inl rfl), hw]
      · rw [AList.lookup_insert_ne hkey, ih]
        simp only [hkey, false_or]

/-- Nothing that leaves the written rows alone disturbs a reservation. -/
theorem Reserving.of_lookup {d : Deployment} {limits limits' : Table String RateCounter}
    {call : CreateCall} {phase : Phase} (h : Reserving d limits call phase)
    (hsame : ∀ w ∈ phase.writes, limits'.lookup w.1 = limits.lookup w.1) :
    Reserving d limits' call phase := by
  cases h with
  | early _ hbefore => exact .early _ hbefore
  | charging versionId round window done rest writes hscopes hreserved =>
      exact .charging _ _ _ _ _ _ hscopes
        ⟨hreserved.keys, fun w hw => by rw [hreserved.counts w hw, hsame w hw]⟩
  | inserted job window writes hreserved =>
      exact .inserted _ _ _
        ⟨hreserved.keys, fun w hw => by rw [hreserved.counts w hw, hsame w hw]⟩

/-- The inversion at a phase in the middle. -/
theorem Reserving.inv_charging {d : Deployment} {limits : Table String RateCounter}
    {call : CreateCall} {versionId : Uuid} {round : Option Uuid} {window : Nat}
    {left : List (String × Nat)} {writes : List (String × RateCounter)}
    (h : Reserving d limits call (.charging versionId round window left writes)) :
    ∃ done rest, Scope.ofCall call = done ++ rest ∧
      left = rest.map (fun sc => (sc.text, sc.limit d)) ∧ Reserved d limits window done writes := by
  generalize hphase : Phase.charging versionId round window left writes = phase at h
  cases h with
  | early _ hbefore =>
      rw [← hphase] at hbefore
      exact absurd hbefore (by simp [Phase.rank])
  | charging _ _ _ done rest _ hscopes hreserved =>
      cases hphase
      exact ⟨done, rest, hscopes, rfl, hreserved⟩
  | inserted => cases hphase

section Rows

variable {d : Deployment} (hmac : Function.Injective (d.hmacSha256 d.config.executionRateLimitKey))

include hmac

theorem rateKey_inj {window window' : Nat} {sc sc' : Scope}
    (h : rateKey d window sc = rateKey d window' sc') : window = window' ∧ sc = sc' := by
  have htext := hmac h
  simp only [String.append_assoc, String.append_right_inj] at htext
  simp only [← String.append_assoc] at htext
  obtain ⟨hwindow, hscope⟩ := toString_append_colon_inj htext
  exact ⟨hwindow, Scope.text_injective hscope⟩

/-- A counter as a transaction sees it in the middle of its reservation. -/
theorem Reserved.lookup {limits : Table String RateCounter} {window : Nat} {done : List Scope}
    {writes : List (String × RateCounter)} (h : Reserved d limits window done writes)
    (window' : Nat) (sc : Scope) :
    (applyWrites writes limits).lookup (rateKey d window' sc) =
      if window' = window ∧ sc ∈ done then
        some (countedUp ((window + 1) * 60000) (limits.lookup (rateKey d window sc)))
      else limits.lookup (rateKey d window' sc) := by
  have hmem : rateKey d window' sc ∈ writes.map Prod.fst ↔ window' = window ∧ sc ∈ done := by
    rw [h.keys, List.mem_reverse, List.mem_map]
    constructor
    · rintro ⟨sc', hdone, hkey⟩
      obtain ⟨hwindow, hscope⟩ := rateKey_inj hmac hkey
      exact ⟨hwindow.symm, hscope ▸ hdone⟩
    · rintro ⟨rfl, hdone⟩
      exact ⟨sc, hdone, rfl⟩
  rw [lookup_applyWrites h.counts]
  by_cases hdone : window' = window ∧ sc ∈ done
  · rw [if_pos (hmem.2 hdone), if_pos hdone, hdone.1]
  · rw [if_neg (fun hc => hdone (hmem.1 hc)), if_neg hdone]

/-- A reservation goes on. -/
theorem Enters.reserving {t : Moment} {s : Replicas} {call : CreateCall} {phase phase' : Phase}
    (h : Enters d t s call phase phase') (hphase : Reserving d s.store.rateLimits call phase) :
    Reserving d s.store.rateLimits call phase' := by
  cases h with
  | opened versionId round =>
      exact .charging _ _ _ [] (Scope.ofCall call) [] rfl ⟨rfl, fun _ hw => by cases hw⟩
  | charged versionId round window scope limit left writes counter hcounts =>
      obtain ⟨done, rest, hscopes, hleft, hreserved⟩ := hphase.inv_charging
      obtain ⟨sc, rest, rfl, hsc, rfl⟩ := List.map_eq_cons_iff.1 hleft.symm
      cases hsc
      -- The scope was not counted before, so its row is as committed.
      have hnew : sc ∉ done := by
        have hnodup := Scope.ofCall_nodup call
        rw [hscopes, List.nodup_append] at hnodup
        exact fun hmem => hnodup.2.2 sc hmem sc List.mem_cons_self rfl
      have hlookup := hreserved.lookup hmac window sc
      rw [if_neg fun hc => hnew hc.2] at hlookup
      refine .charging _ _ _ (done ++ [sc]) rest _ (by rw [hscopes, List.append_assoc]; rfl) ?_
      refine ⟨?_, fun w hw => ?_⟩
      · rw [List.map_cons, hreserved.keys, List.map_append, List.reverse_append]
        rfl
      · rcases List.mem_cons.1 hw with rfl | hw
        · rw [hcounts]
          exact congrArg (countedUp ((window + 1) * 60000)) hlookup
        · exact hreserved.counts w hw
  | inserted versionId round window writes job =>
      obtain ⟨done, rest, hscopes, hleft, hreserved⟩ := hphase.inv_charging
      rw [List.map_eq_nil_iff.1 hleft.symm, List.append_nil] at hscopes
      exact .inserted _ _ _ (hscopes ▸ hreserved)
  | _ => exact .early _ (by simp [Phase.rank])

end Rows

/-! ### Counters of a minute that has not ended -/

/-- What one clock keeps true of the counters. -/
structure Tally (d : Deployment) (s : Replicas) : Prop where
  reserving : ∀ tx c, s.pending.lookup tx = some c →
    Reserving d s.store.rateLimits c.call c.phase
  expiry : ∀ window sc row, s.store.rateLimits.lookup (rateKey d window sc) = some row →
    row.expiresAt = (window + 1) * 60000
  exact : ∀ window, s.store.clock < (window + 1) * 60000 → ∀ sc,
    s.counter d window sc = s.committed window sc

/-- What sparing the counters of reservations keeps true in addition. -/
structure Kept (d : Deployment) (s : Replicas) : Prop where
  exact : ∀ tx c window sc, s.pending.lookup tx = some c →
    rateKey d window sc ∈ c.phase.uncounted d → s.counter d window sc = s.committed window sc
  room : ∀ tx c window sc, s.pending.lookup tx = some c →
    rateKey d window sc ∈ c.phase.writes.map Prod.fst → s.committed window sc < sc.limit d
  within : ∀ window sc, s.committed window sc ≤ sc.limit d

section Steps

variable {d : Deployment} {s s' : Replicas} {e : Event} {reply : Option Reply}

theorem counter_of_rateLimits (h : s'.store.rateLimits = s.store.rateLimits) (window : Nat)
    (sc : Scope) : s'.counter d window sc = s.counter d window sc := by
  rw [Replicas.counter, h, Replicas.counter]

/-- A pass that looks before the end of a minute spares its counters. -/
theorem Tally.counter_sweep (hs : Tally d s) {time window : Nat}
    (htime : time < (window + 1) * 60000) (sc : Scope) :
    (s.sweep time).counter d window sc = s.counter d window sc := by
  simp only [Replicas.counter, Replicas.sweep, Table.lookup_filter]
  cases hrow : s.store.rateLimits.lookup (rateKey d window sc) with
  | none => rfl
  | some row =>
      rw [Option.filter_some, if_pos]
      simp [hs.expiry window sc row hrow, htime]

/-- A pass does not touch what a reservation has written. -/
theorem lookup_sweep_of_written {tx : Nat} {c : Creation} (hpending : s.pending.lookup tx = some c)
    {w : String × RateCounter} (hw : w ∈ c.phase.writes) (time : Nat) :
    (s.sweep time).store.rateLimits.lookup w.1 = s.store.rateLimits.lookup w.1 := by
  have hlocked : s.lockedCounters.contains w.1 = true := by
    rw [List.contains_iff_mem, Replicas.lockedCounters, List.mem_flatMap]
    exact ⟨⟨tx, c⟩, AList.mem_lookup_iff.1 hpending, List.mem_map_of_mem hw⟩
  simp only [Replicas.sweep, Table.lookup_filter, hlocked, Bool.or_true]
  cases s.store.rateLimits.lookup w.1 <;> rfl

/-- Only one reservation is in progress at a time. -/
theorem Replicas.Exclusive.reservation (h : s.Exclusive) {tx tx' : Nat} {c c' : Creation}
    (hpending : s.pending.lookup tx = some c) (hpending' : s.pending.lookup tx' = some c')
    (hrank : 6 ≤ c.phase.rank) (hrank' : 6 ≤ c'.phase.rank) : tx = tx' := by
  have hheld : c.holds .admission = true := decide_eq_true hrank
  have hheld' : c'.holds .admission = true := decide_eq_true hrank'
  exact h hpending hpending' hheld hheld'

theorem committed_commit (tx : Nat) (call : CreateCall) (job : Job) (window : Nat)
    (writes : List (String × RateCounter)) (window' : Nat) (sc : Scope) :
    (s.commit tx call job window writes).committed window' sc =
      s.committed window' sc + if window' = window ∧ sc ∈ Scope.ofCall call then 1 else 0 := by
  simp only [Replicas.committed, Replicas.commit, List.countP_cons, Bool.and_eq_true, beq_iff_eq,
    List.contains_iff_mem, eq_comm (a := window)]

/-- The writes of a finished reservation count one more where the creation
    belongs. -/
theorem counter_commit (hmac : Function.Injective (d.hmacSha256 d.config.executionRateLimitKey))
    (tx : Nat) {call : CreateCall} (job : Job) {window : Nat}
    {writes : List (String × RateCounter)}
    (h : Reserved d s.store.rateLimits window (Scope.ofCall call) writes) (window' : Nat)
    (sc : Scope) :
    (s.commit tx call job window writes).counter d window' sc =
      s.counter d window' sc + if window' = window ∧ sc ∈ Scope.ofCall call then 1 else 0 := by
  simp only [Replicas.counter, Replicas.commit, h.lookup hmac]
  by_cases hcounts : window' = window ∧ sc ∈ Scope.ofCall call
  · rw [if_pos hcounts, if_pos hcounts, hcounts.1]
    cases s.store.rateLimits.lookup (rateKey d window sc) <;> rfl
  · rw [if_neg hcounts, if_neg hcounts, Nat.add_zero]

theorem Tally.commit (hmac : Function.Injective (d.hmacSha256 d.config.executionRateLimitKey))
    (hs : Tally d s) (hexclusive : s.Exclusive) {tx : Nat} {c : Creation} {job : Job}
    {window : Nat} {writes : List (String × RateCounter)}
    (hpending : s.pending.lookup tx = some c) (hphase : c.phase = .inserted job window writes) :
    Tally d (s.commit tx c.call job window writes) := by
  have hreserved : Reserved d s.store.rateLimits window (Scope.ofCall c.call) writes := by
    have hreserving := hs.reserving tx c hpending
    rw [hphase] at hreserving
    cases hreserving with
    | early _ hbefore => exact absurd hbefore (by simp [Phase.rank])
    | inserted _ _ _ hreserved => exact hreserved
  constructor
  case reserving =>
    -- Another creation is still before its reservation.
    intro tx' c' hpending'
    obtain ⟨hne, hbefore⟩ := Table.lookup_of_erase hpending'
    refine .early _ (not_le.1 fun hrank => hne ?_)
    exact hexclusive.reservation hbefore hpending (by omega) (by simp [hphase, Phase.rank])
  case expiry =>
    intro window' sc row hrow
    simp only [Replicas.commit, hreserved.lookup hmac] at hrow
    split at hrow
    · next hcounts =>
        cases hold : s.store.rateLimits.lookup (rateKey d window sc) with
        | none =>
            rw [hold] at hrow
            cases hrow
            rw [hcounts.1]
            rfl
        | some old =>
            rw [hold] at hrow
            cases hrow
            rw [hcounts.1]
            exact hs.expiry window sc old hold
    · exact hs.expiry window' sc row hrow
  case exact =>
    intro window' hclock sc
    rw [counter_commit hmac tx job hreserved, committed_commit, hs.exact window' hclock sc]

theorem Happens.tally (hmac : Function.Injective (d.hmacSha256 d.config.executionRateLimitKey))
    (h : Happens d s e s' reply) (hclock : OneClock s e) (hexclusive : s.Exclusive)
    (hs : Tally d s) : Tally d s' := by
  cases h with
  | idle | refused => exact hs
  | ticked elapsed =>
      refine ⟨hs.reserving, hs.expiry, fun window hend sc => hs.exact window ?_ sc⟩
      exact lt_of_le_of_lt (Nat.le_add_right _ elapsed) hend
  | operated call hother =>
      have hlimits := operation_rateLimits d s.store hother
      refine ⟨fun tx c hpending => ?_, fun window sc row hrow => ?_, fun window hend sc => ?_⟩
      · rw [hlimits]
        exact hs.reserving tx c hpending
      · rw [hlimits] at hrow
        exact hs.expiry window sc row hrow
      · have hcounter : Replicas.counter d { s with store := (step d s.store call).1 } window sc
            = s.counter d window sc := counter_of_rateLimits hlimits window sc
        rw [step_clock] at hend
        rw [hcounter]
        exact hs.exact window (by omega) sc
  | swept time =>
      refine ⟨fun tx c hpending => ?_, fun window sc row hrow => ?_, fun window hend sc => ?_⟩
      · exact (hs.reserving tx c hpending).of_lookup
          fun w hw => lookup_sweep_of_written (s := s) hpending hw time
      · simp only [Replicas.sweep, Table.lookup_filter] at hrow
        exact hs.expiry window sc row (Option.filter_eq_some_iff.1 hrow).1
      · rw [hs.counter_sweep (lt_of_le_of_lt hclock hend)]
        exact hs.exact window hend sc
  | began tx call =>
      refine ⟨fun tx' c' hpending' => ?_, hs.expiry, hs.exact⟩
      rcases Table.lookup_of_insert hpending' with ⟨_, rfl⟩ | ⟨_, hbefore⟩
      · exact .early _ (by simp [Phase.rank])
      · exact hs.reserving tx' c' hbefore
  | entered tx app lag c phase hpending henters =>
      refine ⟨fun tx' c' hpending' => ?_, hs.expiry, hs.exact⟩
      rcases Table.lookup_of_insert hpending' with ⟨_, rfl⟩ | ⟨_, hbefore⟩
      · exact henters.reserving hmac (hs.reserving tx c hpending)
      · exact hs.reserving tx' c' hbefore
  | answered | aborted =>
      exact ⟨fun tx c hpending => hs.reserving tx c (Table.lookup_of_erase hpending).2,
        hs.expiry, hs.exact⟩
  | committed tx app lag c job window writes hpending hphase =>
      exact hs.commit hmac hexclusive hpending hphase

/-! ### Windows within their limits -/

theorem Phase.uncounted_rank {phase : Phase} {key : String} (h : key ∈ phase.uncounted d) :
    6 ≤ phase.rank := by
  cases phase <;> simp_all [Phase.uncounted, Phase.rank]

theorem Phase.writes_rank {phase : Phase} {key : String} (h : key ∈ phase.writes.map Prod.fst) :
    6 ≤ phase.rank := by
  cases phase <;> simp_all [Phase.writes, Phase.rank]

/-- The window of a reservation is the present minute when it starts. -/
theorem Enters.exact (hmac : Function.Injective (d.hmacSha256 d.config.executionRateLimitKey))
    (htally : Tally d s) {lag : Nat} {call : CreateCall} {phase phase' : Phase}
    (h : Enters d (s.moment s.store.clock lag) s call phase phase') {window : Nat} {sc : Scope}
    (hkey : rateKey d window sc ∈ phase'.uncounted d)
    (hphase : rateKey d window sc ∈ phase.uncounted d →
      s.counter d window sc = s.committed window sc) :
    s.counter d window sc = s.committed window sc := by
  cases h with
  | opened versionId round =>
      have hscopes : rateKey d window sc ∈ (Scope.ofCall call).map (rateKey d _) := hkey
      obtain ⟨_, _, hsame⟩ := List.mem_map.1 hscopes
      obtain ⟨rfl, rfl⟩ := rateKey_inj hmac hsame
      refine htally.exact _ ?_ _
      simp only [Replicas.moment]
      omega
  | charged => exact hphase (List.mem_cons_of_mem _ hkey)
  | _ => cases hkey

/-- The check after an increment leaves room for this creation. -/
theorem Enters.room (hmac : Function.Injective (d.hmacSha256 d.config.executionRateLimitKey))
    {t : Moment} {call : CreateCall} {phase phase' : Phase} (h : Enters d t s call phase phase')
    (hreserving : Reserving d s.store.rateLimits call phase)
    (hreserving' : Reserving d s.store.rateLimits call phase')
    (hexact : ∀ window sc, rateKey d window sc ∈ phase.uncounted d →
      s.counter d window sc = s.committed window sc)
    (hroom : ∀ window sc, rateKey d window sc ∈ phase.writes.map Prod.fst →
      s.committed window sc < sc.limit d) {window : Nat} {sc : Scope}
    (hkey : rateKey d window sc ∈ phase'.writes.map Prod.fst) :
    s.committed window sc < sc.limit d := by
  cases h with
  | charged versionId round window' scope limit left writes counter hcounts hwithin =>
      rcases List.mem_cons.1 hkey with hnew | hold
      · obtain ⟨_, rest, _, hleft, _⟩ := hreserving.inv_charging
        obtain ⟨sc', rest, rfl, hsc, rfl⟩ := List.map_eq_cons_iff.1 hleft.symm
        cases hsc
        obtain ⟨rfl, rfl⟩ := rateKey_inj hmac hnew
        -- The new row counts one more than what is committed.
        obtain ⟨_, _, _, _, hreserved⟩ := hreserving'.inv_charging
        have hcounter : counter = countedUp ((window + 1) * 60000)
            (s.store.rateLimits.lookup (rateKey d window sc)) :=
          hreserved.counts _ List.mem_cons_self
        have hone : counter.count = s.counter d window sc + 1 := by
          rw [hcounter, Replicas.counter]
          cases s.store.rateLimits.lookup (rateKey d window sc) <;> rfl
        have hcommitted := hexact window sc List.mem_cons_self
        omega
      · exact hroom window sc hold
  | inserted => exact hroom window sc hkey
  | _ => cases hkey

theorem Kept.commit (hs : Kept d s) (hexclusive : s.Exclusive) (htally : Tally d s) {tx : Nat}
    {c : Creation} {job : Job} {window : Nat} {writes : List (String × RateCounter)}
    (hpending : s.pending.lookup tx = some c) (hphase : c.phase = .inserted job window writes) :
    Kept d (s.commit tx c.call job window writes) := by
  have halone : ∀ tx' c', (s.pending.erase tx).lookup tx' = some c' → ¬ 6 ≤ c'.phase.rank := by
    intro tx' c' hpending' hrank
    obtain ⟨hne, hbefore⟩ := Table.lookup_of_erase hpending'
    exact hne (hexclusive.reservation hbefore hpending hrank (by simp [hphase, Phase.rank]))
  refine ⟨fun tx' c' _ _ hpending' hkey => ?_, fun tx' c' _ _ hpending' hkey => ?_,
    fun window' sc => ?_⟩
  · exact absurd (Phase.uncounted_rank hkey) (halone tx' c' hpending')
  · exact absurd (Phase.writes_rank hkey) (halone tx' c' hpending')
  · rw [committed_commit]
    split
    · next hcounts =>
        have hreserving := htally.reserving tx c hpending
        rw [hphase] at hreserving
        cases hreserving with
        | early _ hbefore => exact absurd hbefore (by simp [Phase.rank])
        | inserted _ _ _ hreserved =>
            refine hs.room tx c window' sc hpending ?_
            rw [hphase, hcounts.1]
            simp only [Phase.writes, hreserved.keys, List.mem_reverse]
            exact List.mem_map_of_mem hcounts.2
    · exact hs.within window' sc

theorem Happens.kept (hmac : Function.Injective (d.hmacSha256 d.config.executionRateLimitKey))
    (h : Happens d s e s' reply) (hclock : OneClock s e) (hspare : SpareCounters d s e)
    (hexclusive : s.Exclusive) (htally : Tally d s) (hs : Kept d s) : Kept d s' := by
  cases h with
  | idle | refused => exact hs
  | ticked => exact ⟨hs.exact, hs.room, hs.within⟩
  | operated call hother =>
      have hlimits := operation_rateLimits d s.store hother
      refine ⟨fun tx c window sc hpending hkey => ?_, hs.room, hs.within⟩
      have hcounter : Replicas.counter d { s with store := (step d s.store call).1 } window sc
          = s.counter d window sc := counter_of_rateLimits hlimits window sc
      rw [hcounter]
      exact hs.exact tx c window sc hpending hkey
  | swept time =>
      refine ⟨fun tx c window sc hpending hkey => ?_, hs.room, hs.within⟩
      rw [Replicas.counter, hspare _ (AList.mem_lookup_iff.1 hpending) _ hkey]
      exact hs.exact tx c window sc hpending hkey
  | began tx call =>
      refine ⟨fun tx' c' window sc hpending' hkey => ?_, fun tx' c' window sc hpending' hkey => ?_,
        hs.within⟩
      · rcases Table.lookup_of_insert hpending' with ⟨_, rfl⟩ | ⟨_, hbefore⟩
        · cases hkey
        · exact hs.exact tx' c' window sc hbefore hkey
      · rcases Table.lookup_of_insert hpending' with ⟨_, rfl⟩ | ⟨_, hbefore⟩
        · cases hkey
        · exact hs.room tx' c' window sc hbefore hkey
  | entered tx app lag c phase hpending henters =>
      cases hclock
      have hreserving := htally.reserving tx c hpending
      refine ⟨fun tx' c' window sc hpending' hkey => ?_, fun tx' c' window sc hpending' hkey => ?_,
        hs.within⟩
      · rcases Table.lookup_of_insert hpending' with ⟨_, rfl⟩ | ⟨_, hbefore⟩
        · exact henters.exact hmac htally hkey (hs.exact tx c window sc hpending)
        · exact hs.exact tx' c' window sc hbefore hkey
      · rcases Table.lookup_of_insert hpending' with ⟨_, rfl⟩ | ⟨_, hbefore⟩
        · exact henters.room hmac hreserving (henters.reserving hmac hreserving)
            (fun window sc => hs.exact tx c window sc hpending)
            (fun window sc => hs.room tx c window sc hpending) hkey
        · exact hs.room tx' c' window sc hbefore hkey
  | answered | aborted =>
      exact ⟨fun tx c window sc hpending =>
          hs.exact tx c window sc (Table.lookup_of_erase hpending).2,
        fun tx c window sc hpending => hs.room tx c window sc (Table.lookup_of_erase hpending).2,
        hs.within⟩
  | committed tx app lag c job window writes hpending hphase =>
      exact hs.commit hexclusive htally hpending hphase

end Steps

/-! ### Runs -/

theorem tally_empty (d : Deployment) : Tally d {} :=
  ⟨fun _ _ hnone => (by cases hnone), fun _ _ _ hnone => (by cases hnone), fun _ _ _ => rfl⟩

theorem kept_empty (d : Deployment) : Kept d {} :=
  ⟨fun _ _ _ _ hnone => (by cases hnone), fun _ _ _ _ hnone => (by cases hnone),
    fun _ _ => Nat.zero_le _⟩

section Runs

variable {d : Deployment} (hmac : Function.Injective (d.hmacSha256 d.config.executionRateLimitKey))
  {events : List Event} (hclock : Runs.Along (Replicas.step d) OneClock {} events)

include hmac hclock

theorem tally_run : (Replicas.run d events).Exclusive ∧ Tally d (Replicas.run d events) :=
  Runs.run_induction_along (Replicas.step d) (P := fun s => s.Exclusive ∧ Tally d s)
    (fun s e hone hs => ⟨(s.step_happens d e).exclusive hs.1,
      (s.step_happens d e).tally hmac hone hs.1 hs.2⟩)
    events {} hclock ⟨Locks.exclusive_empty, tally_empty d⟩

theorem kept_run (hspare : Runs.Along (Replicas.step d) (SpareCounters d) {} events) :
    Kept d (Replicas.run d events) := by
  have hall : (Replicas.run d events).Exclusive ∧ Tally d (Replicas.run d events) ∧
      Kept d (Replicas.run d events) :=
    Runs.run_induction_along (Replicas.step d)
      (P := fun s => s.Exclusive ∧ Tally d s ∧ Kept d s)
      (fun s e hboth hs => ⟨(s.step_happens d e).exclusive hs.1,
        (s.step_happens d e).tally hmac hboth.1 hs.1 hs.2.1,
        (s.step_happens d e).kept hmac hboth.1 hboth.2 hs.1 hs.2.1 hs.2.2⟩)
      events {} (Runs.along_and _ hclock hspare)
      ⟨Locks.exclusive_empty, tally_empty d, kept_empty d⟩
  exact hall.2.2

end Runs

/-- With one clock and keys that do not collide, the counters of every minute
    that has not ended are exact. If moreover no maintenance pass deletes a
    counter that a reservation in progress has yet to increment, then no window,
    ended or not, has more committed creations than its limit. -/
theorem quotas_count (d : Deployment)
    (hmac : Function.Injective (d.hmacSha256 d.config.executionRateLimitKey))
    (events : List Event) (hclock : Runs.Along (Replicas.step d) OneClock {} events) :
    (∀ window sc, (Replicas.run d events).store.clock < (window + 1) * 60000 →
      (Replicas.run d events).counter d window sc = (Replicas.run d events).committed window sc) ∧
    (Runs.Along (Replicas.step d) (SpareCounters d) {} events →
      ∀ window sc, (Replicas.run d events).committed window sc ≤ sc.limit d) :=
  ⟨fun window sc hend => (tally_run hmac hclock).2.exact window hend sc,
    fun hspare => (kept_run hmac hclock hspare).within⟩

instance decidableOneClock (s : Replicas) : ∀ e, Decidable (OneClock s e)
  | .advance _ app _ => inferInstanceAs (Decidable (app = s.store.clock))
  | .sweep time => inferInstanceAs (Decidable (time ≤ s.store.clock))
  | .tick _ | .operation _ | .begin _ _ | .abort _ => inferInstanceAs (Decidable True)

instance decidableSpareCounters (d : Deployment) (s : Replicas) :
    ∀ e, Decidable (SpareCounters d s e)
  | .sweep time => inferInstanceAs (Decidable (∀ e ∈ s.pending.entries,
      ∀ key ∈ e.2.phase.uncounted d,
        (s.sweep time).store.rateLimits.lookup key = s.store.rateLimits.lookup key))
  | .tick _ | .operation _ | .begin _ _ | .advance _ _ _ | .abort _ =>
      inferInstanceAs (Decidable True)

namespace Sample

/-- One creation per user and minute, and two active executions. -/
def strict : Deployment :=
  { deployment with config := { deployment.config with
      maxActiveJobsPerUser := 2, executionCreationsPerMinute := 1 } }

/-- Two creations one minute apart, with a maintenance pass in between. -/
def apart : List Event :=
  creation 0 (request execution "key") 0 ++ .tick 60000 :: .sweep 60000 ::
    creation 1 (request token "other") 60000

/-- The second creation computes its window in the first minute and increments
    its counters in the next, after a maintenance pass. -/
def late : List Event :=
  creation 0 (request execution "key") 0 ++
    .begin 1 (request token "other") :: List.replicate 8 (.advance 1 0 0) ++
    .tick 60000 :: .sweep 60000 :: List.replicate 5 (.advance 1 60000 0)

end Sample

theorem quotas_count_apart :
    (∀ window sc, (Replicas.run Sample.strict Sample.apart).committed window sc
        ≤ sc.limit Sample.strict) ∧
      (Replicas.run Sample.strict Sample.apart).committed 1 (.user Sample.owner) = 1 :=
  ⟨(quotas_count Sample.strict (fun _ _ h => by simpa [Sample.strict, Sample.deployment] using h)
    Sample.apart (by decide +kernel)).2 (by decide +kernel), by decide +kernel⟩

/-- One clock and keys that do not collide, and still two creations of a user
    in a minute that allows one. -/
theorem quota_exceeded :
    Function.Injective
      (Sample.strict.hmacSha256 Sample.strict.config.executionRateLimitKey) ∧
    Runs.Along (Replicas.step Sample.strict) OneClock {} Sample.late ∧
    (Replicas.run Sample.strict Sample.late).committed 0 (.user Sample.owner) = 2 ∧
    (Scope.user Sample.owner).limit Sample.strict = 1 :=
  ⟨fun _ _ h => by simpa [Sample.strict, Sample.deployment] using h, by decide +kernel,
    by decide +kernel, rfl⟩

end ArenaCore
