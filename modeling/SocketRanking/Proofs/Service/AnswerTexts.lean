import SocketRanking.Proofs.Json.Texts
import SocketRanking.Proofs.Service.RoundTrips

/-!
# The texts of answers and requests

What the service answers can be read back from its text, if the reader reads back the numbers
of the answer and its counts fit 64 bits.  The requests of a client have no numbers and no
counts, so that every reader reads them back.
-/

namespace SocketRanking

open Number Json

variable {round : Decimal → Float} {n : ℕ}

/-- The counts of a value fit 64 bits. -/
def AllFit (counts : List ℕ) : Prop :=
  ∀ k ∈ counts, k < 2 ^ 64

/-- The numbers of a value are read back. -/
def AllReadBack (round : Decimal → Float) (numbers : List Float) : Prop :=
  ∀ x ∈ numbers, ReadsBack round x

/-! ## Parts -/

namespace Json

theorem isLegible_number {x : Float} (hx : ReadsBack round x) :
    IsLegible round n (.number x) := by
  unfold number
  split
  next hfinite => exact .float hfinite hx
  next => exact .null

theorem isLegible_nat {k : ℕ} (hk : k < 2 ^ 64) : IsLegible round n (.nat k) := by
  refine .int (Bool.or_eq_true_iff.mpr (Or.inr ?_))
  rw [fitsUnsigned, Bool.and_eq_true, decide_eq_true_iff, decide_eq_true_iff]
  exact ⟨Int.natCast_nonneg k, by exact_mod_cast hk⟩

theorem isLegible_uint32 (k : UInt32) : IsLegible round n (.uint32 k) :=
  isLegible_nat (k.toNat_lt.trans (by decide))

theorem isLegible_int64 (k : Int64) : IsLegible round n (.int k.toInt) := by
  refine .int (Bool.or_eq_true_iff.mpr (Or.inl ?_))
  rw [fitsSigned, Bool.and_eq_true, decide_eq_true_iff, decide_eq_true_iff]
  exact ⟨k.le_toInt, k.toInt_lt⟩

theorem isLegible_option {α : Type} {encode : α → Json} {a? : Option α}
    (ha : ∀ a ∈ a?, IsLegible round n (encode a)) : IsLegible round n (.option encode a?) := by
  cases a? with
  | none => exact .null
  | some a => exact ha a rfl

theorem isLegible_list {α : Type} {encode : α → Json} {items : List α}
    (hitems : ∀ a ∈ items, IsLegible round n (encode a)) :
    IsLegible round (n + 1) (.list encode items) :=
  .array (List.forall_mem_map.mpr hitems)

theorem isLegible_member? {key : String} {text? : Option String} :
    ∀ member ∈ member? key .string text?, IsLegible round n member.2 := by
  cases text? with
  | none => exact List.forall_mem_nil _
  | some text => exact List.forall_mem_singleton.mpr (.string text)

end Json

/-! ## Answers -/

namespace SocketScore

theorem isLegible_encode {s : SocketScore Float} (hnumbers : AllReadBack round s.numbers)
    (hcores : s.cores < 2 ^ 64) : IsLegible round (n + 1) s.encode := by
  simp only [AllReadBack, numbers, List.forall_mem_append, List.forall_mem_cons] at hnumbers
  obtain ⟨⟨hbase, hgated, -⟩, hidle⟩ := hnumbers
  refine .object ?_
  simp only [List.forall_mem_cons]
  exact ⟨isLegible_uint32 _, isLegible_nat hcores, isLegible_number hbase,
    isLegible_option fun x hx => isLegible_number (hidle x (Option.mem_toList.mpr hx)),
    isLegible_number hgated, .bool _, List.forall_mem_nil _⟩

end SocketScore

namespace ScoringResult

def counts (r : ScoringResult Float) : List ℕ :=
  [r.coreCount, r.windowSecs] ++ r.sockets.map SocketScore.cores

theorem isLegible_encode {r : ScoringResult Float} (hnumbers : AllReadBack round r.numbers)
    (hcounts : AllFit r.counts) : IsLegible round (n + 3) r.encode := by
  simp only [AllReadBack, numbers, List.forall_mem_append, List.forall_mem_cons,
    List.forall_mem_flatMap] at hnumbers
  simp only [AllFit, counts, List.forall_mem_append, List.forall_mem_cons,
    List.forall_mem_map] at hcounts
  obtain ⟨⟨hscore, hfinal, -⟩, hlines⟩ := hnumbers
  obtain ⟨⟨hcores, hwindow, -⟩, hsockets⟩ := hcounts
  refine .object ?_
  simp only [List.forall_mem_cons]
  exact ⟨.string _, isLegible_number hscore, isLegible_option fun k _ => isLegible_uint32 k,
    isLegible_nat hcores, isLegible_number hfinal, isLegible_nat hwindow,
    isLegible_list fun s hs => SocketScore.isLegible_encode (hlines s hs) (hsockets s hs),
    List.forall_mem_nil _⟩

end ScoringResult

namespace HostPriority

def counts (p : HostPriority Float) : List ℕ :=
  [p.coreCount, p.windowSecs]

theorem isLegible_encode {p : HostPriority Float} (hnumbers : AllReadBack round p.numbers)
    (hcounts : AllFit p.counts) : IsLegible round (n + 1) p.encode := by
  simp only [AllReadBack, numbers, List.forall_mem_cons] at hnumbers
  simp only [AllFit, counts, List.forall_mem_cons] at hcounts
  obtain ⟨hscore, hfinal, -⟩ := hnumbers
  obtain ⟨hcores, hwindow, -⟩ := hcounts
  refine .object ?_
  simp only [List.forall_mem_cons]
  exact ⟨.string _, isLegible_option fun k _ => isLegible_uint32 k, isLegible_number hscore,
    isLegible_nat hcores, isLegible_number hfinal, isLegible_nat hwindow, List.forall_mem_nil _⟩

end HostPriority

theorem HostFailure.isLegible_encode (f : HostFailure) : IsLegible round (n + 1) f.encode := by
  refine .object ?_
  simp only [List.forall_mem_cons]
  exact ⟨.string _, .string _, .bool _, List.forall_mem_nil _⟩

namespace PriorityList

def counts (l : PriorityList Float) : List ℕ :=
  l.priorities.flatMap HostPriority.counts

theorem isLegible_encode {l : PriorityList Float} (hnumbers : AllReadBack round l.numbers)
    (hcounts : AllFit l.counts) : IsLegible round (n + 3) l.encode := by
  simp only [AllReadBack, numbers, List.forall_mem_flatMap] at hnumbers
  simp only [AllFit, counts, List.forall_mem_flatMap] at hcounts
  refine .object ?_
  simp only [List.forall_mem_cons]
  exact ⟨.string _,
    isLegible_list fun p hp => HostPriority.isLegible_encode (hnumbers p hp) (hcounts p hp),
    isLegible_list fun f _ => f.isLegible_encode, List.forall_mem_nil _⟩

end PriorityList

theorem IdleCapacity.isLegible_encode {c : IdleCapacity Float} (hcores : ReadsBack round c.cores) :
    IsLegible round (n + 1) c.encode := by
  refine .object ?_
  simp only [List.forall_mem_cons]
  exact ⟨.string _, isLegible_number hcores, List.forall_mem_nil _⟩

theorem CachedSocket.isLegible_encode {c : CachedSocket Float}
    (hnumbers : AllReadBack round c.entry.numbers) : IsLegible round (n + 1) c.encode := by
  simp only [AllReadBack, Entry.numbers, List.forall_mem_cons] at hnumbers
  obtain ⟨hipc, hread, hwrite, hidle, -⟩ := hnumbers
  refine .object ?_
  simp only [Entry.members, List.forall_mem_append, List.forall_mem_cons]
  exact ⟨⟨⟨.string _, isLegible_uint32 _, List.forall_mem_nil _⟩, isLegible_number hipc,
    isLegible_number hread, isLegible_number hwrite, isLegible_number hidle,
    List.forall_mem_nil _⟩, .bool _, List.forall_mem_nil _⟩

theorem AppProfile.isLegible_encode {p : AppProfile Float}
    (hnumbers : AllReadBack round p.numbers) (hduration : p.durationSecs < 2 ^ 64) :
    IsLegible round (n + 1) p.encode := by
  simp only [AllReadBack, numbers, List.forall_mem_cons] at hnumbers
  obtain ⟨hipc, hread, hwrite, hidle, -⟩ := hnumbers
  refine .object ?_
  simp only [List.forall_mem_cons]
  exact ⟨isLegible_number hipc, isLegible_number hread, isLegible_number hwrite,
    isLegible_number hidle, isLegible_nat hduration, List.forall_mem_nil _⟩

namespace Catalog

def numbers (catalog : Catalog Float) : List Float :=
  catalog.toList.flatMap fun entry => entry.2.numbers

def counts (catalog : Catalog Float) : List ℕ :=
  catalog.toList.map fun entry => entry.2.durationSecs

theorem isLegible_encode {catalog : Catalog Float} (hnumbers : AllReadBack round catalog.numbers)
    (hcounts : AllFit catalog.counts) : IsLegible round (n + 3) catalog.encode := by
  simp only [AllReadBack, numbers, List.forall_mem_flatMap] at hnumbers
  simp only [AllFit, counts, List.forall_mem_map] at hcounts
  refine .object (List.forall_mem_singleton.mpr (.object (List.forall_mem_map.mpr ?_)))
  intro entry hentry
  exact AppProfile.isLegible_encode (hnumbers entry hentry) (hcounts entry hentry)

end Catalog

theorem ComponentHealth.isLegible_encode (c : ComponentHealth) :
    IsLegible round (n + 1) c.encode := by
  refine .object ?_
  simp only [List.forall_mem_append, List.forall_mem_cons]
  exact ⟨⟨⟨.string _, List.forall_mem_nil _⟩, isLegible_member?⟩, isLegible_uint32 _,
    isLegible_int64 _, List.forall_mem_nil _⟩

theorem HealthReport.isLegible_encode (r : HealthReport) : IsLegible round (n + 3) r.encode := by
  refine .object ?_
  simp only [List.forall_mem_cons]
  exact ⟨.string _, .object (List.forall_mem_map.mpr fun entry _ => entry.2.isLegible_encode),
    List.forall_mem_nil _⟩

theorem Readiness.isLegible_encode (r : Readiness) : IsLegible round (n + 1) r.encode := by
  refine .object ?_
  simp only [List.forall_mem_append, List.forall_mem_cons]
  exact ⟨⟨.bool _, List.forall_mem_nil _⟩, isLegible_member?⟩

theorem ErrorBody.isLegible_encode (b : ErrorBody) : IsLegible round (n + 1) b.encode := by
  refine .object ?_
  simp only [List.forall_mem_cons]
  exact ⟨.string _, .string _, List.forall_mem_nil _⟩

/-! ## Requests -/

theorem Placement.isLegible_encode (p : Placement) : IsLegible round (n + 1) p.encode := by
  refine .object ?_
  simp only [List.forall_mem_cons]
  exact ⟨.string _, isLegible_uint32 _, .string _, .bool _, List.forall_mem_nil _⟩

theorem Workload.isLegible_encode (w : Workload) : IsLegible round (n + 1) w.encode := by
  refine .object ?_
  simp only [List.forall_mem_append, List.forall_mem_cons]
  exact ⟨⟨.string _, List.forall_mem_nil _⟩, isLegible_member?⟩

theorem RankingRequest.isLegible_encode (r : RankingRequest) :
    IsLegible round (n + 2) r.encode := by
  refine .object ?_
  simp only [List.forall_mem_cons]
  exact ⟨r.workload.isLegible_encode, isLegible_list fun name _ => .string name,
    List.forall_mem_nil _⟩

end SocketRanking
