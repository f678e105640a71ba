import SocketRanking.Proofs.Number.Comparison
import SocketRanking.Scoring.Gate

/-!
# The winner among gated sockets

The search for the winner keeps the highest gated score that it has seen and lets
only a strictly higher one replace it.  It therefore finds the first socket whose
gated score is the highest, as far as gated scores can be compared: a score that is
no number neither wins nor keeps another socket from winning.
-/

namespace SocketRanking

variable {α : Type} [Scalar α]

/-- The list splits at `w`: no gated score in it exceeds that of `w`, and none before
`w` reaches it. -/
structure SocketScore.IsFirstBest (w : SocketScore α) (before after : List (SocketScore α)) :
    Prop where
  not_exceeded : ∀ s ∈ before ++ w :: after, ¬w.gatedScore < s.gatedScore
  not_reached : ∀ s ∈ before, ¬w.gatedScore ≤ s.gatedScore

/-- A socket that the winner passes over may stand before the winner. -/
theorem SocketScore.IsFirstBest.cons {w s : SocketScore α} {before after : List (SocketScore α)}
    (hbest : w.IsFirstBest before after) (hreached : ¬w.gatedScore ≤ s.gatedScore)
    (hexceeded : ¬w.gatedScore < s.gatedScore) : w.IsFirstBest (s :: before) after where
  not_exceeded := List.forall_mem_cons.mpr ⟨hexceeded, hbest.not_exceeded⟩
  not_reached := List.forall_mem_cons.mpr ⟨hreached, hbest.not_reached⟩

theorem Scalar.lt_irrefl [LawfulScalar α] (x : α) : ¬x < x := by
  intro hlt
  exact LawfulScalar.lt_asymm hlt hlt

variable [TransitiveOrder α]

/-- Either nothing exceeds the highest score so far, or the leader is the first of the
sockets with the highest score, which exceeds it. -/
theorem leader_cases (highest : α) (best : Option (SocketScore α))
    (sockets : List (SocketScore α)) :
    (leader highest best sockets = best ∧ ∀ s ∈ sockets, ¬highest < s.gatedScore) ∨
      ∃ before w after, sockets = before ++ w :: after ∧
        leader highest best sockets = some w ∧ highest < w.gatedScore ∧
        w.IsFirstBest before after := by
  induction sockets generalizing highest best with
  | nil =>
      left
      exact ⟨rfl, by simp⟩
  | cons s rest ih =>
      rw [leader]
      split
      next hlt =>
        -- `s` takes the lead, and keeps it or loses it to a later socket.
        right
        rcases ih s.gatedScore (some s) with
          ⟨hkept, hbelow⟩ | ⟨before, w, after, hsplit, hw, hhigher, hbest⟩
        · refine ⟨[], s, rest, rfl, hkept, hlt, ?_, by simp⟩
          exact List.forall_mem_cons.mpr ⟨Scalar.lt_irrefl _, hbelow⟩
        · have hreached : ¬w.gatedScore ≤ s.gatedScore := by
            intro hle
            exact Scalar.lt_irrefl _ (TransitiveOrder.lt_of_lt_of_le hhigher hle)
          refine ⟨s :: before, w, after, ?_, hw, ?_, ?_⟩
          · rw [hsplit, List.cons_append]
          · exact TransitiveOrder.lt_trans hlt hhigher
          · exact hbest.cons hreached (LawfulScalar.lt_asymm hhigher)
      next hnot =>
        rcases ih highest best with
          ⟨hkept, hbelow⟩ | ⟨before, w, after, hsplit, hw, hhigher, hbest⟩
        · left
          exact ⟨hkept, List.forall_mem_cons.mpr ⟨hnot, hbelow⟩⟩
        · right
          have hreached : ¬w.gatedScore ≤ s.gatedScore := by
            intro hle
            exact hnot (TransitiveOrder.lt_of_lt_of_le hhigher hle)
          have hexceeded : ¬w.gatedScore < s.gatedScore := by
            intro hlt
            exact hnot (TransitiveOrder.lt_trans hhigher hlt)
          refine ⟨s :: before, w, after, ?_, hw, hhigher, ?_⟩
          · rw [hsplit, List.cons_append]
          · exact hbest.cons hreached hexceeded

/-- The winner is the first socket with the highest gated score, and there is none
exactly if no gated score is positive. -/
theorem winner?_cases (sockets : List (SocketScore α)) :
    (winner? sockets = none ∧ ∀ s ∈ sockets, ¬0.0 < s.gatedScore) ∨
      ∃ before w after, sockets = before ++ w :: after ∧ winner? sockets = some w ∧
        0.0 < w.gatedScore ∧ w.IsFirstBest before after :=
  leader_cases 0.0 none sockets

end SocketRanking
