import SocketRanking.Proofs.Scoring.Outcome
import SocketRanking.Proofs.Scoring.Replay
import SocketRanking.Proofs.Telemetry.Overflow

/-!
# Bounds on what is scored

When the readings of the store and the profiles of placed applications lie within `2 ^ k`, the
fields of entries lie within fixed multiples of that, and so do the scores that are made of
them.  A placement changes an entry by an amount that is small beside the bound on its fields,
so it is rounded away where it would pass the bound: however many placements there are, the
bound stays.
-/

namespace SocketRanking

open Number

variable {k : ℕ}

/-! ## Telemetry and profiles -/

/-- Readings lie within the bound, and the rows of an answer are counted in a machine word. -/
structure Source.IsBounded (source : Source) (k : ℕ) : Prop where
  reads (m : Metric) : source.Reads m (IsWithin (2 ^ k))
  length_le {q : Query} {rows : List Sample} : source q = .ok rows → rows.length ≤ 2 ^ 64

/-- What a placement takes from a profile lies within the bound. -/
structure AppProfile.IsBounded (profile : AppProfile Float) (k : ℕ) : Prop where
  memRead : IsWithin (2 ^ k) profile.memRead
  memWrite : IsWithin (2 ^ k) profile.memWrite
  c6res : IsWithin (2 ^ k) profile.c6res

section

variable {settings : Settings} {source : Source} {uuid : String} {socket : Socket}

theorem Source.IsBounded.isWithin_of_measurePerformance (hsource : source.IsBounded k)
    (hk : k + 122 < 1024) {metrics : MetricSet Float}
    (hmeasured : (measurePerformance settings source uuid socket).result = .ok metrics)
    {m : Metric} {x : Float} (hx : metrics.get m = some x) : IsWithin (2 ^ (k + 122)) x := by
  obtain ⟨q, rows, hrows, hset⟩ := exists_of_measurePerformance hmeasured
  exact Aggregate.isWithin_weightedAverage (fun m row hrow => hsource.reads m q rows hrows row hrow)
    (hsource.length_le hrows) hk hset hx

theorem Source.IsBounded.isWithin_of_measureIdle (hsource : source.IsBounded k)
    (hk : k + 178 < 1024) {pooled : Float}
    (hmeasured : (measureIdle settings source uuid socket).result = .ok pooled) :
    IsWithin (2 ^ (k + 178)) pooled := by
  obtain ⟨q, rows, set, hrows, hset, hpooled⟩ := exists_of_measureIdle hmeasured
  exact Aggregate.isWithin_weightedAverageOfCores
    (fun m row hrow => hsource.reads m q rows hrows row hrow) (hsource.length_le hrows) hk hset
    hpooled

end

/-! ## Entries -/

theorem isWithin_of_one {x : Float} (hx : IsWithin 1 x) (j : ℕ) : IsWithin (2 ^ j) x :=
  hx.mono (one_le_pow₀ one_le_two)

namespace Entry

/-- The fields lie within the bounds that averages have. -/
structure IsBounded (e : Entry Float) (k : ℕ) : Prop where
  ipc : IsWithin (2 ^ (k + 122)) e.ipc
  memRead : IsWithin (2 ^ (k + 122)) e.memRead
  memWrite : IsWithin (2 ^ (k + 122)) e.memWrite
  c6res : IsWithin (2 ^ (k + 178)) e.c6res

theorem isWithin_sentinel (j : ℕ) : IsWithin (2 ^ j) (sentinel : Float) :=
  isWithin_of_one (by decide +kernel) j

theorem isWithin_idleEpsilon (j : ℕ) : IsWithin (2 ^ j) (idleEpsilon : Float) :=
  isWithin_of_one (by decide +kernel) j

theorem isBounded_unknown : (unknown : Entry Float).IsBounded k :=
  ⟨isWithin_sentinel _, isWithin_sentinel _, isWithin_sentinel _, isWithin_sentinel _⟩

theorem isWithin_raise {x amount : Float} (hx : IsWithin (2 ^ (k + 122)) x)
    (hamount : IsWithin (2 ^ k) amount) (hk : k + 122 < 1024) :
    IsWithin (2 ^ (k + 122)) (raise x amount) := by
  unfold raise
  split
  · exact hx.add_small hamount hk (two_pow_lt_two_pow_div (by omega))
  · exact hx

theorem isWithin_busyShare {profile : AppProfile Float} (hprofile : profile.IsBounded k)
    (hk : k + 8 < 1024) (cores : ℕ) : IsWithin (2 ^ (k + 8)) (busyShare profile cores) := by
  have hcount := isAbove_ofNat (Nat.le_max_right cores 1)
  have hunpack : (100.0 : Float).toModel.unpack =
      .finite .positive 7036874417766400 (-46) (by decide) := rfl
  have hpercent : IsAbove 1 (100.0 : Float) := Or.inr ⟨_, _, _, hunpack, by norm_num⟩
  have hdivisor : IsAbove 1 (100.0 * Float.ofNat (max cores 1)) :=
    hpercent.mul hcount zero_le_one isRepresentable_one one_pos (mul_one 1).ge
  have hall : IsWithin (2 ^ 7) (100.0 : Float) := by decide +kernel
  have hbusy : IsWithin (2 ^ (k + 8)) (100.0 - profile.c6res) := by
    refine hall.sub hprofile.c6res (isBound_two_pow hk) ?_
    have hone : (1 : ℚ) ≤ 2 ^ k := one_le_pow₀ one_le_two
    rw [pow_add]
    linarith
  exact hbusy.div hdivisor one_pos (isBound_two_pow hk) (div_one _).le

theorem IsBounded.place {e : Entry Float} (he : e.IsBounded k) {profile : AppProfile Float}
    (hprofile : profile.IsBounded k) (hk : k + 178 < 1024) (cores : ℕ)
    (countsTowardIdle : Bool) : (e.place profile cores countsTowardIdle).IsBounded k where
  ipc := he.ipc
  memRead := isWithin_raise he.memRead hprofile.memRead (by omega)
  memWrite := isWithin_raise he.memWrite hprofile.memWrite (by omega)
  c6res := by
    -- the share of the workload is small beside the bound
    have hlowered : IsWithin (2 ^ (k + 178)) (e.c6res - busyShare profile cores) :=
      he.c6res.sub_small (isWithin_busyShare hprofile (by omega) cores) hk
        (two_pow_lt_two_pow_div (by omega))
    simp only [Entry.place]
    split
    · exact hlowered.atLeast (isWithin_idleEpsilon _)
    · exact he.c6res

/-- The metrics that an entry serves are its fields. -/
theorem IsBounded.isWithin_get_toSet {e : Entry Float} (he : e.IsBounded k) {m : Metric}
    {x : Float} (hx : (Performance.toSet ⟨e.ipc, e.memRead, e.memWrite⟩).get m = some x) :
    IsWithin (2 ^ (k + 122)) x := by
  cases m with
  | ipc => exact Option.some.inj hx ▸ he.ipc
  | memRead => exact Option.some.inj hx ▸ he.memRead
  | memWrite => exact Option.some.inj hx ▸ he.memWrite
  | c6res | l3Misses | energy => cases hx

end Entry

/-! ## Base scores -/

/-- No strategy divides by less than the floor of its divisors. -/
theorem Strategy.isWithin_score {strategy : Strategy} {metrics : MetricSet Float}
    (hmetrics : ∀ m x, metrics.get m = some x → IsWithin (2 ^ (k + 122)) x)
    (hk : k + 149 < 1024) {base : Float} (hbase : strategy.score metrics = .ok base) :
    IsWithin (2 ^ (k + 149)) base := by
  have hquotient : ∀ x y : Float, IsWithin (2 ^ (k + 122)) x →
      IsWithin (2 ^ (k + 149)) (x / Scalar.atLeast epsilon y) := by
    intro x y hx
    have hscale : (2 : ℚ) ^ (k + 122) / 2 ^ (-27 : ℤ) = 2 ^ (k + 149) := by
      rw [zpow_neg, div_inv_eq_mul, zpow_ofNat, ← pow_add]
    exact hx.div (isAbove_atLeast y) (by positivity) (isBound_two_pow hk) hscale.le
  cases strategy with
  | ipcPerBandwidth =>
      obtain ⟨ipc, hipc, hbase⟩ := exists_of_bind_eq_ok hbase
      obtain ⟨read, -, hbase⟩ := exists_of_bind_eq_ok hbase
      obtain ⟨write, -, hbase⟩ := exists_of_bind_eq_ok hbase
      obtain rfl := Except.ok.inj hbase
      exact hquotient _ _ (hmetrics _ _ (MetricSet.get_of_require_eq_ok hipc))
  | ipcOnly =>
      refine (hmetrics _ _ (MetricSet.get_of_require_eq_ok hbase)).mono ?_
      exact pow_le_pow_right₀ one_le_two (by omega)
  | inverseL3Misses =>
      obtain ⟨misses, -, hbase⟩ := exists_of_bind_eq_ok hbase
      obtain rfl := Except.ok.inj hbase
      exact hquotient _ _ (isWithin_of_one isWithin_one _)
  | inverseEnergy =>
      obtain ⟨energy, -, hbase⟩ := exists_of_bind_eq_ok hbase
      obtain rfl := Except.ok.inj hbase
      exact hquotient _ _ (isWithin_of_one isWithin_one _)

/-! ## Visits -/

namespace Visit

variable {settings : Settings} {source : Source} {uuid : String} {socket : Socket}
  {entry : Entry Float}

theorem isBounded_of_learned (hsource : source.IsBounded k) (hk : k + 178 < 1024)
    {e : Entry Float} (hlearned : (run settings source uuid socket entry).learned = some e) :
    e.IsBounded k := by
  obtain ⟨-, base, p, idle, rfl, hmeasures, -⟩ := exists_measures_of_learned hlearned
  obtain ⟨metrics, hmeasured, -, hp⟩ := hmeasures.performance
  obtain ⟨hipc, hread, hwrite⟩ := Performance.ofSet_eq_ok_iff.mp hp
  obtain ⟨pooled, hpooled, rfl⟩ := hmeasures.idle
  have hmetrics : ∀ m x, metrics.get m = some x → IsWithin (2 ^ (k + 122)) x :=
    fun m x hx => hsource.isWithin_of_measurePerformance (by omega) hmeasured hx
  constructor
  · exact hmetrics .ipc p.ipc hipc
  · exact hmetrics .memRead p.memRead hread
  · exact hmetrics .memWrite p.memWrite hwrite
  · exact (hsource.isWithin_of_measureIdle hk hpooled).atLeast (Entry.isWithin_idleEpsilon _)

/-- What a visit reports of a socket that it measured. -/
theorem exists_isWithin_of_outcome (hsource : source.IsBounded k) (hentry : entry.IsBounded k)
    (hk : k + 178 < 1024) {score : SocketScore Float}
    (hscore : (run settings source uuid socket entry).outcome = .ok score) :
    ∃ base c6, score = .measured socket base c6 ∧ IsWithin (2 ^ (k + 149)) base ∧
      IsWithin (2 ^ (k + 178)) c6 := by
  obtain ⟨metrics, base, c6, rfl, hmetrics, hbase, hfrom⟩ := exists_of_outcome_run hscore
  refine ⟨base, c6, rfl, ?_, ?_⟩
  · refine Strategy.isWithin_score ?_ (by omega) hbase
    intro m x hx
    rcases hmetrics with hcached | hmeasured
    · obtain ⟨-, -, rfl⟩ := cached?_eq_some_iff.mp hcached
      exact hentry.isWithin_get_toSet hx
    · exact hsource.isWithin_of_measurePerformance (by omega) hmeasured hx
  · generalize (run settings source uuid socket entry).learned = learned at hfrom
    cases hfrom with
    | cache hidle =>
        obtain ⟨-, rfl⟩ := Entry.idle?_eq_some_iff.mp hidle
        exact hentry.c6res
    | store hidle hpooled hfloor p =>
        rw [hfloor]
        exact (hsource.isWithin_of_measureIdle hk hpooled).atLeast (Entry.isWithin_idleEpsilon _)

end Visit

/-! ## Gated scores -/

theorem SocketScore.isWithin_gatedBy {socket : Socket} {base c6 : Float}
    (hbase : IsWithin (2 ^ (k + 149)) base) (hc6 : IsWithin (2 ^ (k + 178)) c6)
    (hk : 2 * k + 327 < 1024) (spare : Bool) :
    IsWithin (2 ^ (2 * k + 327)) ((SocketScore.measured socket base c6).gatedBy spare) := by
  have hungated : IsWithin (2 ^ (2 * k + 327)) base :=
    hbase.mono (pow_le_pow_right₀ one_le_two (by omega))
  have hgated : IsWithin (2 ^ (2 * k + 327)) (base * c6) := by
    refine hbase.mul hc6 (isBound_two_pow hk) ?_
    rw [← pow_add]
    exact pow_le_pow_right₀ one_le_two (by omega)
  cases spare with
  | false => exact hgated
  | true => exact hungated

end SocketRanking
