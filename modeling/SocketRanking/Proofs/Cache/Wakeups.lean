import SocketRanking.Proofs.Cache.Keys

/-!
# When the sweeper wakes up

The sweeper reads the deadline of the cache, sleeps until then and, when it wakes up, sweeps
the cache if its timer has run out by then.  A measurement moves the deadline while the
sweeper sleeps, so that it may wake up in vain.  For a cache that holds for some time this
loop comes to rest whenever the clock does, and it sweeps as `Cache.sweepUntil` says: once
for every time the cache holds.  For a cache that never holds it goes round for ever.
-/

namespace SocketRanking

variable {α : Type} [Scalar α]

/-- A sleeping sweeper: the cache that it watches, and the deadline that it read before it
fell asleep. -/
structure Watch (α : Type) where
  cache : Cache α
  alarm : ℕ

namespace Watch

/-- One round of the loop: the sweeper wakes up, sweeps the cache if its timer has run out,
and reads the deadline. -/
def wake (w : Watch α) (now : ℕ) : Watch α :=
  let cache := w.cache.invalidateIfExpired now
  { cache, alarm := cache.deadline }

/-- The rounds of the loop while the clock moves from `now` to `stop`, both ends included,
up to a sweeper that sleeps beyond that, and how often it sweeps in them.  An alarm that has
passed wakes the sweeper at once. -/
inductive RunsTo (stop : ℕ) : ℕ → Watch α → ℕ → Watch α → Prop
  | sleep {now : ℕ} {w : Watch α} : stop < max now w.alarm → RunsTo stop now w 0 w
  | wake {now sweeps : ℕ} {w w' : Watch α} : max now w.alarm ≤ stop →
      RunsTo stop (max now w.alarm) (w.wake (max now w.alarm)) sweeps w' →
      RunsTo stop now w (sweeps + if w.cache.isExpired (max now w.alarm) then 1 else 0) w'

variable {w w' w'' : Watch α} {now stop sweeps sweeps' : ℕ}

/-- The sweeper wakes up and sweeps the cache. -/
theorem RunsTo.of_isExpired {c : Cache α} {alarm : ℕ} (hdue : max now alarm ≤ stop)
    (hexpired : c.isExpired (max now alarm) = true)
    (hrest : RunsTo stop (max now alarm)
      ⟨c.sweep (max now alarm), (c.sweep (max now alarm)).deadline⟩ sweeps w') :
    RunsTo stop now ⟨c, alarm⟩ (sweeps + 1) w' := by
  have hwake : (⟨c, alarm⟩ : Watch α).wake (max now alarm) =
      ⟨c.sweep (max now alarm), (c.sweep (max now alarm)).deadline⟩ := by
    simp only [Watch.wake, Cache.invalidateIfExpired, if_pos hexpired]
  have hround : RunsTo stop now ⟨c, alarm⟩
      (sweeps + if c.isExpired (max now alarm) then 1 else 0) w' :=
    .wake hdue (hwake ▸ hrest)
  rwa [if_pos hexpired] at hround

/-- The sweeper wakes up in vain. -/
theorem RunsTo.of_not_isExpired {c : Cache α} {alarm : ℕ} (hdue : max now alarm ≤ stop)
    (hholding : ¬c.isExpired (max now alarm) = true)
    (hrest : RunsTo stop (max now alarm) ⟨c, c.deadline⟩ sweeps w') :
    RunsTo stop now ⟨c, alarm⟩ sweeps w' := by
  have hwake : (⟨c, alarm⟩ : Watch α).wake (max now alarm) = ⟨c, c.deadline⟩ := by
    simp only [Watch.wake, Cache.invalidateIfExpired, if_neg hholding]
  have hround : RunsTo stop now ⟨c, alarm⟩
      (sweeps + if c.isExpired (max now alarm) then 1 else 0) w' :=
    .wake hdue (hwake ▸ hrest)
  rwa [if_neg hholding] at hround

/-- The loop leaves no choice. -/
theorem RunsTo.unique (hruns : RunsTo stop now w sweeps w')
    (hruns' : RunsTo stop now w sweeps' w'') : sweeps = sweeps' ∧ w' = w'' := by
  induction hruns generalizing sweeps' with
  | sleep hlate =>
      cases hruns' with
      | sleep => exact ⟨rfl, rfl⟩
      | wake hdue => exact absurd hdue (Nat.not_le.mpr hlate)
  | wake hdue _ ih =>
      cases hruns' with
      | sleep hlate => exact absurd hdue (Nat.not_le.mpr hlate)
      | wake _ hrest =>
          obtain ⟨rfl, rfl⟩ := ih hrest
          exact ⟨rfl, rfl⟩

/-! ## Progress of the loop -/

theorem ttl_wake (w : Watch α) (now : ℕ) : (w.wake now).cache.ttl = w.cache.ttl :=
  w.cache.ttl_invalidateIfExpired now

/-- The sweeper falls asleep until later exactly if the cache holds for some time. -/
theorem lt_alarm_wake_iff : now < (w.wake now).alarm ↔ 0 < w.cache.ttl := by
  simp only [wake, Cache.invalidateIfExpired, Cache.isExpired_iff]
  split
  · simp only [Cache.deadline, Cache.sweep, Cache.clean]
    omega
  · simp only [Cache.deadline]
    omega

/-- At a standing clock the sweeper of a cache that holds for some time wakes up at most
once. -/
theorem exists_runsTo_self (hholds : 0 < w.cache.ttl) (now : ℕ) :
    ∃ sweeps ≤ 1, ∃ w', RunsTo now now w sweeps w' := by
  by_cases hdue : max now w.alarm ≤ now
  · have hnow : max now w.alarm = now := le_antisymm hdue (le_max_left _ _)
    have hasleep : now < max now (w.wake now).alarm :=
      (lt_alarm_wake_iff.mpr hholds).trans_le (le_max_right _ _)
    refine ⟨_, ?_, _, RunsTo.wake hdue (RunsTo.sleep ?_)⟩
    · split <;> omega
    · rwa [hnow]
  · exact ⟨0, Nat.zero_le 1, w, .sleep (Nat.not_le.mp hdue)⟩

/-- The sweeper of a cache that never holds does not come to rest once its alarm has gone
off: every round sets the alarm to the instant at which it goes off. -/
theorem not_runsTo_of_ttl_eq_zero (hnever : w.cache.ttl = 0) (hdue : max now w.alarm ≤ stop) :
    ¬RunsTo stop now w sweeps w' := by
  intro hruns
  induction hruns with
  | sleep hlate => exact absurd hdue (Nat.not_le.mpr hlate)
  | @wake now sweeps w w' _ _ ih =>
      have hlater : ¬max now w.alarm < (w.wake (max now w.alarm)).alarm := by
        rw [lt_alarm_wake_iff, hnever]
        exact lt_irrefl 0
      refine ih ((w.ttl_wake _).trans hnever) ?_
      rwa [max_eq_left (Nat.not_lt.mp hlater)]

end Watch

/-! ## The sweeps that the loop makes -/

namespace Cache

variable {c : Cache α} {now stop : ℕ}

omit [Scalar α] in
theorem nextWake_of_lt (hfresh : now < c.deadline) : c.nextWake now = c.deadline :=
  max_eq_right hfresh.le

omit [Scalar α] in
theorem isExpired_nextWake (c : Cache α) (now : ℕ) : c.isExpired (c.nextWake now) = true := by
  rw [isExpired_iff, nextWake, deadline]
  omega

/-- Until the deadline it makes no difference when the sweeper looks at the cache. -/
theorem sweepUntil_congr {now' : ℕ} (hwake : c.nextWake now = c.nextWake now')
    (stop count : ℕ) : c.sweepUntil now stop count = c.sweepUntil now' stop count := by
  rw [sweepUntil, sweepUntil.eq_1 c now', hwake]

theorem sweepUntil_add (c : Cache α) (now stop count more : ℕ) :
    c.sweepUntil now stop (count + more) =
      ((c.sweepUntil now stop count).1, (c.sweepUntil now stop count).2 + more) := by
  fun_induction sweepUntil c now stop count with
  | case1 c now count hwake hholds ih =>
      rw [sweepUntil, if_pos hwake, if_pos hholds, Nat.add_right_comm]
      exact ih
  | case2 c now count hwake hholds =>
      rw [sweepUntil, if_pos hwake, if_neg hholds, Nat.add_right_comm]
  | case3 c now count hwake => rw [sweepUntil, if_neg hwake]

/-- The sweeper may be stopped on the way. -/
theorem sweepUntil_sweepUntil (hholds : 0 < c.ttl) {mid : ℕ} (hmid : now ≤ mid)
    (hstop : mid ≤ stop) (count : ℕ) :
    (c.sweepUntil now mid count).1.sweepUntil mid stop (c.sweepUntil now mid count).2 =
      c.sweepUntil now stop count := by
  fun_induction sweepUntil c now mid count with
  | case1 c now count hwake _ ih =>
      rw [ih hholds hwake, sweepUntil.eq_1 c now, if_pos (hwake.trans hstop), if_pos hholds]
  | case2 c now count hwake hnever => exact absurd hholds hnever
  | case3 c now count hwake =>
      apply sweepUntil_congr
      simp only [nextWake] at hwake ⊢
      omega

/-- Before its deadline a cache is swept once for every time that it holds. -/
theorem sweepUntil_counts (hholds : 0 < c.ttl) (hfresh : now < c.deadline) (stop count : ℕ) :
    (c.sweepUntil now stop count).2 = count + (stop - c.refreshedAt) / c.ttl ∧
      (c.sweepUntil now stop count).1.refreshedAt =
        c.refreshedAt + (stop - c.refreshedAt) / c.ttl * c.ttl := by
  fun_induction sweepUntil c now stop count with
  | case1 c now count hwake _ ih =>
      rw [nextWake_of_lt hfresh] at hwake ih ⊢
      obtain ⟨hcount, hrefreshed⟩ := ih hholds (Nat.lt_add_of_pos_right hholds)
      simp only [sweep, clean] at hcount hrefreshed
      have hquotient : (stop - c.refreshedAt) / c.ttl =
          (stop - c.deadline) / c.ttl + 1 := by
        rw [deadline] at hwake ⊢
        rw [Nat.div_eq_sub_div hholds (by omega), Nat.sub_sub]
      rw [hquotient, Nat.add_mul, Nat.one_mul]
      constructor
      · exact hcount.trans (by omega)
      · exact hrefreshed.trans (by rw [deadline]; omega)
  | case2 c now count hwake hnever => exact absurd hholds hnever
  | case3 c now count hwake =>
      rw [nextWake_of_lt hfresh, deadline] at hwake
      have hnone : (stop - c.refreshedAt) / c.ttl = 0 := Nat.div_eq_of_lt (by omega)
      rw [hnone, Nat.zero_mul]
      exact ⟨rfl, rfl⟩

/-- The sweeper never sets the timer ahead of the clock. -/
theorem refreshedAt_sweepUntil_le (hpast : c.refreshedAt ≤ stop) (count : ℕ) :
    (c.sweepUntil now stop count).1.refreshedAt ≤ stop := by
  fun_induction sweepUntil c now stop count with
  | case1 c now count hwake hholds ih => exact ih hwake
  | case2 => exact le_rfl
  | case3 => exact hpast

end Cache

namespace Watch

open Cache

variable {c : Cache α} {now stop : ℕ}

/-- The loop of a sweeper that knows the deadline. -/
theorem runsTo_of_deadline (hholds : 0 < c.ttl) (now stop count : ℕ) :
    ∃ sweeps, (c.sweepUntil now stop count).2 = count + sweeps ∧
      RunsTo stop now ⟨c, c.deadline⟩ sweeps
        ⟨(c.sweepUntil now stop count).1, (c.sweepUntil now stop count).1.deadline⟩ := by
  fun_induction sweepUntil c now stop count with
  | case1 c now count hwake _ ih =>
      obtain ⟨sweeps, hcount, hruns⟩ := ih hholds
      have hexpired := c.isExpired_nextWake now
      exact ⟨sweeps + 1, hcount.trans (by omega), .of_isExpired hwake hexpired hruns⟩
  | case2 c now count hwake hnever => exact absurd hholds hnever
  | case3 c now count hwake => exact ⟨0, rfl, .sleep (Nat.not_le.mp hwake)⟩

/-- It makes no difference how long ago an alarm has passed. -/
theorem RunsTo.congr_alarm {alarm alarm' sweeps : ℕ} {w : Watch α}
    (hruns : RunsTo stop now ⟨c, alarm'⟩ sweeps w) (hsame : max now alarm = max now alarm')
    (hdue : max now alarm ≤ stop) : RunsTo stop now ⟨c, alarm⟩ sweeps w := by
  cases hruns with
  | sleep hlate => exact absurd (hsame ▸ hdue) (Nat.not_le.mpr hlate)
  | @wake _ later _ _ _ hrest =>
      have hround : RunsTo stop (max now alarm') ((⟨c, alarm⟩ : Watch α).wake (max now alarm'))
          later w := hrest
      rw [← hsame] at hround ⊢
      exact .wake hdue hround

/-- The loop of a sweeper that sleeps until a deadline which measurements may have moved
since. -/
theorem runsTo_sweepUntil (hholds : 0 < c.ttl) {alarm : ℕ} (halarm : alarm ≤ c.deadline)
    (now stop : ℕ) :
    ∃ alarm' ≤ (c.sweepUntil now stop 0).1.deadline,
      RunsTo stop now ⟨c, alarm⟩ (c.sweepUntil now stop 0).2
        ⟨(c.sweepUntil now stop 0).1, alarm'⟩ := by
  by_cases hdue : max now alarm ≤ stop
  · refine ⟨_, le_rfl, ?_⟩
    by_cases hpassed : c.deadline ≤ max now alarm
    · obtain ⟨sweeps, hcount, hruns⟩ := runsTo_of_deadline hholds now stop 0
      rw [hcount, Nat.zero_add]
      exact hruns.congr_alarm (by omega) hdue
    · -- the sweeper wakes up in vain, and then knows the deadline
      obtain ⟨sweeps, hcount, hruns⟩ := runsTo_of_deadline hholds (max now alarm) stop 0
      have hholding : ¬c.isExpired (max now alarm) = true := by
        rw [isExpired_iff]
        rw [deadline] at hpassed
        omega
      have hwake : c.nextWake (max now alarm) = c.nextWake now := by
        rw [nextWake, nextWake]
        omega
      rw [← sweepUntil_congr hwake, hcount, Nat.zero_add]
      exact .of_not_isExpired hdue hholding hruns
  · have hlate : stop < c.nextWake now := by
      rw [nextWake]
      omega
    rw [sweepUntil_of_lt hlate]
    exact ⟨alarm, halarm, .sleep (Nat.not_le.mp hdue)⟩

end Watch

end SocketRanking
