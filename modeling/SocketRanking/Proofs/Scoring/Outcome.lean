import SocketRanking.Scoring.Visit

/-!
# What a visit comes to

A visit that measures its socket scores metrics from the cache entry or from the
store, and takes the idle fraction from the entry if it is known there and from the
store otherwise.  Exactly in the second case it writes an entry back, and that entry
holds the idle fraction that it reports.
-/

namespace SocketRanking

theorem exists_of_bind_eq_ok {ε β γ : Type} {x : Except ε β} {f : β → Except ε γ} {r : γ}
    (hr : x >>= f = .ok r) : ∃ b, x = .ok b ∧ f b = .ok r := by
  cases x with
  | error e => cases hr
  | ok b => exact ⟨b, rfl, hr⟩

theorem exists_of_any_toOption {ε β : Type} {x : Except ε β} {p : β → Bool}
    (hany : x.toOption.any p = true) : ∃ b, x = .ok b ∧ p b = true := by
  cases x with
  | error e => cases hany
  | ok b => exact ⟨b, rfl, hany⟩

namespace Visit

variable {α : Type} [Scalar α] {settings : Settings} {source : Source} {uuid : String}
  {socket : Socket} {entry : Entry α}

/-- Where the idle fraction that a visit reports comes from, and what it writes back. -/
inductive IdleFrom (settings : Settings) (source : Source) (uuid : String) (socket : Socket)
    (entry : Entry α) (c6 : α) : Option (Entry α) → Prop
  | cache (hidle : entry.idle? = some c6) :
      IdleFrom settings source uuid socket entry c6 none
  | store (hidle : entry.idle? = none) {pooled : α}
      (hpooled : (measureIdle settings source uuid socket).result = .ok pooled)
      (hfloor : c6 = Scalar.atLeast Entry.idleEpsilon pooled) (p : Performance α) :
      IdleFrom settings source uuid socket entry c6 (some (.measured p c6))

theorem exists_of_outcome_finish {served : Bool} {calls : List Call} {metrics : MetricSet α}
    {score : SocketScore α}
    (hscore : (finish settings source uuid socket entry served calls metrics).outcome =
      .ok score) :
    ∃ base c6, score = .measured socket base c6 ∧
      settings.strategy.score metrics = .ok base ∧
      IdleFrom settings source uuid socket entry c6
        (finish settings source uuid socket entry served calls metrics).learned := by
  unfold finish at hscore ⊢
  cases hbase : settings.strategy.score metrics with
  | error e => simp [hbase] at hscore
  | ok base =>
      cases hidle : entry.idle? with
      | some c6 =>
          obtain rfl : SocketScore.measured socket base c6 = score := by
            simpa [hbase, hidle] using hscore
          exact ⟨base, c6, rfl, rfl, .cache hidle⟩
      | none =>
          cases hpooled : (measureIdle settings source uuid socket : Measurement α).result with
          | error trouble => simp [hbase, hidle, hpooled] at hscore
          | ok pooled =>
              cases hp : Performance.ofSet metrics with
              | error e => simp [hbase, hidle, hpooled, hp] at hscore
              | ok p =>
                  obtain rfl : SocketScore.measured socket base
                      (Scalar.atLeast Entry.idleEpsilon pooled) = score := by
                    simpa [hbase, hidle, hpooled, hp] using hscore
                  refine ⟨base, _, rfl, rfl, ?_⟩
                  simp only [hpooled]
                  exact .store hidle hpooled rfl p

/-- A visit that measures its socket scores the metrics in the entry or, if they do not
serve, those of the store. -/
theorem exists_of_outcome_run {score : SocketScore α}
    (hscore : (run settings source uuid socket entry).outcome = .ok score) :
    ∃ metrics base c6, score = .measured socket base c6 ∧
      (cached? settings.strategy entry = some metrics ∨
        (measurePerformance settings source uuid socket).result = .ok metrics) ∧
      settings.strategy.score metrics = .ok base ∧
      IdleFrom settings source uuid socket entry c6
        (run settings source uuid socket entry).learned := by
  unfold run at hscore ⊢
  cases hcached : cached? settings.strategy entry with
  | some metrics =>
      simp only [hcached] at hscore ⊢
      obtain ⟨base, c6, hmeasured, hbase, hidle⟩ := exists_of_outcome_finish hscore
      exact ⟨metrics, base, c6, hmeasured, Or.inl rfl, hbase, hidle⟩
  | none =>
      simp only [hcached] at hscore ⊢
      cases hperformance : (measurePerformance settings source uuid socket :
          Measurement (MetricSet α)).result with
      | error trouble => simp [hperformance] at hscore
      | ok metrics =>
          simp only [hperformance] at hscore ⊢
          obtain ⟨base, c6, hmeasured, hbase, hidle⟩ := exists_of_outcome_finish hscore
          exact ⟨metrics, base, c6, hmeasured, Or.inr rfl, hbase, hidle⟩

end Visit

end SocketRanking
