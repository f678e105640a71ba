import SocketRanking.Proofs.Telemetry.Faults

/-!
# How visits end

A visit of a socket asks the store up to two times.  If the store fails a query, the
visit ends there, with that failure as an outage.  If the store answers all of them,
then the visit measures the socket or finds fault with the rows, but it reports no
outage.  A source that breaks down in the middle of a query is left out here.
-/

namespace SocketRanking

/-- The source answers or fails every query, and never breaks down. -/
def Source.NeverCrashes (source : Source) : Prop :=
  ∀ q text, source q ≠ .error (.crashed text)

variable {α : Type} {source : Source}

/-! ## Queries -/

theorem Failure.isTelemetry_iff {e : Failure} :
    e.isTelemetry = true ↔ ∃ reason, e = .telemetryUnavailable reason := by
  cases e <;> simp [isTelemetry]

namespace Call

/-- Whatever the store fails with is reported as an outage. -/
theorem isTelemetry_unavailable (f : Failure) : (unavailable f).isTelemetry = true := by
  unfold unavailable
  split
  next htelemetry => exact htelemetry
  next => rfl

theorem make_cases (hsource : source.NeverCrashes) (q : Query) :
    (∃ rows, source q = .ok rows ∧ (make source q).answer = .ok rows) ∨
      ∃ f, source q = .error (.failed f) ∧
        (make source q).answer = .error (.failed (unavailable f)) := by
  unfold make
  rcases hanswer : source q with (f | text) | rows
  · exact Or.inr ⟨f, rfl, rfl⟩
  · exact absurd hanswer (hsource q text)
  · exact Or.inl ⟨rows, rfl, rfl⟩

end Call

/-! ## Measurements -/

theorem SparesStore.isTelemetry_of_unusable {β : Type} {x : Except Failure β}
    (hx : SparesStore x) {e : Failure} (he : unusable x = .error (.failed e)) :
    e.isTelemetry = false := by
  cases x with
  | ok b => cases he
  | error e' =>
      obtain rfl : e' = e := by simpa [unusable] using he
      exact hx e' rfl

theorem unusable_ne_crashed {β : Type} (x : Except Failure β) (text : String) :
    unusable x ≠ .error (.crashed text) := by
  intro hcrashed
  cases x <;> cases hcrashed

/-- How a measurement ends: the store fails its query, or the rows that it answers are
aggregated. -/
inductive Measurement.Ends (source : Source) (m : Measurement α) : Prop
  | outage {f : Failure} (hfailed : source m.call.query = .error (.failed f))
      (hresult : m.result = .error (.failed (Call.unavailable f)))
  | answered {rows : List Sample} (hrows : source m.call.query = .ok rows)
      {x : Except Failure α} (hspares : SparesStore x) (hresult : m.result = unusable x)

theorem Measurement.Ends.ne_crashed {m : Measurement α} (hends : m.Ends source) (text : String) :
    m.result ≠ .error (.crashed text) := by
  intro hcrashed
  cases hends with
  | outage hfailed hresult =>
      rw [hresult] at hcrashed
      cases hcrashed
  | @answered rows hrows x hspares hresult =>
      rw [hresult] at hcrashed
      exact unusable_ne_crashed x text hcrashed

theorem Measurement.ends_of_aggregate (hsource : source.NeverCrashes) {q : Query}
    {aggregate : List Sample → Except Failure α} (hspares : ∀ rows, SparesStore (aggregate rows))
    {m : Measurement α} (hcall : m.call = .make source q)
    (hresult : m.result = match m.call.answer with
      | .ok rows => unusable (aggregate rows)
      | .error trouble => .error trouble) : m.Ends source := by
  have hquery : m.call.query = q := congrArg Call.query hcall
  rcases Call.make_cases hsource q with ⟨rows, hrows, hanswer⟩ | ⟨f, hfailed, hanswer⟩
  · rw [hcall, hanswer] at hresult
    exact .answered (hquery ▸ hrows) (hspares rows) hresult
  · rw [hcall, hanswer] at hresult
    exact .outage (hquery ▸ hfailed) hresult

variable [Scalar α] {settings : Settings} {uuid : String} {socket : Socket}

theorem ends_measurePerformance (hsource : source.NeverCrashes) :
    (measurePerformance settings source uuid socket : Measurement (MetricSet α)).Ends source :=
  Measurement.ends_of_aggregate hsource
    (fun rows => Aggregate.sparesStore_weightedAverage rows settings.strategy.fetched) rfl rfl

theorem ends_measureIdle (hsource : source.NeverCrashes) :
    (measureIdle settings source uuid socket : Measurement α).Ends source := by
  refine Measurement.ends_of_aggregate hsource (fun rows => ?_) rfl rfl
  apply (Aggregate.sparesStore_weightedAverageOfCores rows [.c6res]).bind
  intro pooled
  exact pooled.sparesStore_require .c6res

/-! ## Visits -/

namespace Visit

/-- The queries that the visit made. -/
def queries (v : Visit α) : List Query :=
  v.calls.map (·.query)

/-- How a visit ends: the store fails its last query, or answers all of them. -/
inductive Ends (source : Source) (v : Visit α) : Prop
  | outage {q : Query} (hmade : q ∈ v.queries) {f : Failure}
      (hfailed : source q = .error (.failed f))
      (houtcome : v.outcome = .error (.failed (Call.unavailable f)))
  | answered (hrows : ∀ q ∈ v.queries, ∃ rows, source q = .ok rows)
      {x : Except Failure (SocketScore α)} (hspares : SparesStore x)
      (houtcome : v.outcome = unusable x)

/-- The visit ended because the store failed. -/
def IsOutage (v : Visit α) : Prop :=
  ∃ e, v.outcome = .error (.failed e) ∧ e.isTelemetry = true

omit [Scalar α] in
theorem answered_concat {calls : List Call}
    (hcalls : ∀ q ∈ calls.map (·.query), ∃ rows, source q = .ok rows) {c : Call}
    {rows : List Sample} (hrows : source c.query = .ok rows) :
    ∀ q ∈ (calls ++ [c]).map (·.query), ∃ rows, source q = .ok rows := by
  intro q hq
  rw [List.map_append, List.mem_append] at hq
  rcases hq with hearlier | hlast
  · exact hcalls q hearlier
  · obtain rfl := List.mem_singleton.mp hlast
    exact ⟨rows, hrows⟩

theorem ends_finish (hsource : source.NeverCrashes) {entry : Entry α} {served : Bool}
    {calls : List Call} (hcalls : ∀ q ∈ calls.map (·.query), ∃ rows, source q = .ok rows)
    (metrics : MetricSet α) :
    (finish settings source uuid socket entry served calls metrics).Ends source := by
  unfold finish
  cases hscore : settings.strategy.score metrics with
  | error e =>
      have hspares := settings.strategy.sparesStore_score metrics e hscore
      exact .answered hcalls (.of_error hspares) rfl
  | ok base =>
      cases hidle : entry.idle? with
      | some c6 => exact .answered hcalls (.ok _) rfl
      | none =>
          have hends : (measureIdle settings source uuid socket : Measurement α).Ends source :=
            ends_measureIdle hsource
          rcases hends with
            @⟨f, hfailed, hresult⟩ | @⟨rows, hrows, x, hspares, hresult⟩
          · dsimp only
            rw [hresult]
            refine .outage ?_ hfailed rfl
            exact List.mem_map_of_mem (List.mem_append_right calls (List.mem_singleton_self _))
          · -- Whatever happens now, the store has answered all queries.
            have hmade := answered_concat hcalls hrows
            dsimp only
            rw [hresult]
            cases x with
            | error e => exact .answered hmade (.of_error (hspares e rfl)) rfl
            | ok pooled =>
                dsimp only [unusable]
                cases hp : Performance.ofSet metrics with
                | error e =>
                    have hspares' := Performance.sparesStore_ofSet metrics e hp
                    exact .answered hmade (.of_error hspares') rfl
                | ok p => exact .answered hmade (.ok _) rfl

theorem ends_run (hsource : source.NeverCrashes) (entry : Entry α) :
    (run settings source uuid socket entry).Ends source := by
  unfold run
  cases hcached : cached? settings.strategy entry with
  | some metrics => exact ends_finish hsource (List.forall_mem_nil _) metrics
  | none =>
      have hends : (measurePerformance settings source uuid socket :
          Measurement (MetricSet α)).Ends source := ends_measurePerformance hsource
      rcases hends with
        @⟨f, hfailed, hresult⟩ | @⟨rows, hrows, x, hspares, hresult⟩
      · dsimp only
        rw [hresult]
        exact .outage (List.mem_singleton_self _) hfailed rfl
      · dsimp only
        rw [hresult]
        have hnone : ∀ q ∈ ([] : List Call).map (·.query), ∃ rows, source q = .ok rows :=
          List.forall_mem_nil _
        have hcalls := answered_concat hnone hrows
        cases x with
        | error e => exact .answered hcalls (.of_error (hspares e rfl)) rfl
        | ok metrics => exact ends_finish hsource hcalls metrics

variable {v : Visit α}

omit [Scalar α] in
/-- A visit ends in an outage exactly if the store failed one of its queries. -/
theorem Ends.isOutage_iff (hends : v.Ends source) :
    v.IsOutage ↔ ∃ q ∈ v.queries, ∃ f, source q = .error (.failed f) := by
  cases hends with
  | outage hmade hfailed houtcome =>
      refine iff_of_true ?_ ⟨_, hmade, _, hfailed⟩
      exact ⟨_, houtcome, Call.isTelemetry_unavailable _⟩
  | @answered hrows x hspares houtcome =>
      refine iff_of_false ?_ ?_
      · rintro ⟨e, he, htelemetry⟩
        rw [houtcome] at he
        rw [hspares.isTelemetry_of_unusable he] at htelemetry
        cases htelemetry
      · rintro ⟨q, hq, f, hfailed⟩
        obtain ⟨rows, hanswered⟩ := hrows q hq
        rw [hanswered] at hfailed
        cases hfailed

omit [Scalar α] in
theorem Ends.ne_crashed (hends : v.Ends source) (text : String) :
    v.outcome ≠ .error (.crashed text) := by
  intro hcrashed
  cases hends with
  | outage hmade hfailed houtcome =>
      rw [houtcome] at hcrashed
      cases hcrashed
  | @answered hrows x hspares houtcome =>
      rw [houtcome] at hcrashed
      exact unusable_ne_crashed x text hcrashed

theorem mem_calls_finish {entry : Entry α} {served : Bool} {calls : List Call}
    {metrics : MetricSet α} {c : Call}
    (hc : c ∈ (finish settings source uuid socket entry served calls metrics).calls) :
    c ∈ calls ∨ c = (measureIdle settings source uuid socket : Measurement α).call := by
  unfold finish at hc
  split at hc
  · exact Or.inl hc
  · split at hc
    · exact Or.inl hc
    · have hc' : c ∈ calls ++ [(measureIdle settings source uuid socket : Measurement α).call] := by
        dsimp only at hc
        split at hc
        · exact hc
        · split at hc <;> exact hc
      rw [List.mem_append, List.mem_singleton] at hc'
      exact hc'

/-- A visit makes the calls of the two measurements of its socket and no others. -/
theorem mem_calls_run {entry : Entry α} {c : Call}
    (hc : c ∈ (run settings source uuid socket entry).calls) :
    c = (measurePerformance settings source uuid socket : Measurement (MetricSet α)).call ∨
      c = (measureIdle settings source uuid socket : Measurement α).call := by
  unfold run at hc
  split at hc
  · rcases mem_calls_finish hc with hnone | hidle
    · cases hnone
    · exact Or.inr hidle
  · dsimp only at hc
    split at hc
    · exact Or.inl (List.mem_singleton.mp hc)
    · rcases mem_calls_finish hc with hfirst | hidle
      · exact Or.inl (List.mem_singleton.mp hfirst)
      · exact Or.inr hidle

/-- The queries of a visit are about its socket. -/
theorem of_mem_queries_run {entry : Entry α} {q : Query}
    (hq : q ∈ (run settings source uuid socket entry).queries) :
    q.uuid = uuid ∧ q.socket = socket.id := by
  obtain ⟨c, hc, rfl⟩ := List.mem_map.mp hq
  rcases mem_calls_run hc with rfl | rfl <;> exact ⟨rfl, rfl⟩

end Visit

end SocketRanking
