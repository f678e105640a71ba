import Mathlib.Data.List.Induction
import Mathlib.Data.Nat.Basic
import SocketRanking.Health
import SocketRanking.Proofs.Cluster.Consistency

/-!
# Health follows the run of failures

The registry keeps a counter and a message for every component.  Read off the events that
were reported instead, the failures of a component are those since it was last restored,
by a success or by being entered anew.  Their number is what the counter holds, the newest
of them is what the message says, and the status of the component, the condition of the
service and its readiness follow from them.
-/

namespace SocketRanking

/-- Something that is reported to the registry. -/
inductive HealthEvent where
  | registered (name : String) (now : Int64)
  | succeeded (name : String) (now : Int64)
  | failed (name message : String) (now : Int64)
  | declared (ready : Bool)
  deriving DecidableEq

namespace HealthEvent

def component? : HealthEvent → Option String
  | registered name _ => some name
  | succeeded name _ => some name
  | failed name _ _ => some name
  | declared _ => none

/-- Whether an event ends the failures of a component. -/
def restores (name : String) : HealthEvent → Bool
  | registered name' _ => name' = name
  | succeeded name' _ => name' = name
  | failed .. => false
  | declared _ => false

def failure? (name : String) : HealthEvent → Option String
  | failed name' message _ => if name' = name then some message else none
  | registered .. => none
  | succeeded .. => none
  | declared _ => none

def declared? : HealthEvent → Option Bool
  | declared ready => some ready
  | registered .. => none
  | succeeded .. => none
  | failed .. => none

end HealthEvent

/-- The messages of the failures of a component since it was last restored, newest first. -/
def failuresOf (name : String) (events : List HealthEvent) : List String :=
  (events.reverse.takeWhile fun e => !e.restores name).filterMap (·.failure? name)

/-- What was last declared about readiness. -/
def lastDeclared? (events : List HealthEvent) : Option Bool :=
  events.reverse.findSome? (·.declared?)

/-- The worst of these statuses: unhealthy if there is an unhealthy one, else degraded if there
is a degraded one, and healthy if all of them are. -/
structure ComponentStatus.IsWorstOf (worst : ComponentStatus) (statuses : List ComponentStatus) :
    Prop where
  unhealthy_iff : worst = .unhealthy ↔ .unhealthy ∈ statuses
  degraded_iff : worst = .degraded ↔ .degraded ∈ statuses ∧ .unhealthy ∉ statuses
  healthy_iff : worst = .healthy ↔ ∀ s ∈ statuses, s = .healthy

/-! ## Failures as events are reported -/

theorem failuresOf_concat (name : String) (events : List HealthEvent) (e : HealthEvent) :
    failuresOf name (events ++ [e]) =
      if e.restores name then [] else (e.failure? name).toList ++ failuresOf name events := by
  rw [failuresOf, List.reverse_concat, List.takeWhile_cons]
  cases e.restores name with
  | true => rfl
  | false =>
      rw [Bool.not_false, if_pos rfl, if_neg Bool.false_ne_true, List.filterMap_cons]
      cases e.failure? name <;> rfl

/-- An event about another component leaves the failures as they are. -/
theorem failuresOf_concat_of_ne {name : String} {e : HealthEvent}
    (helsewhere : e.component? ≠ some name) (events : List HealthEvent) :
    failuresOf name (events ++ [e]) = failuresOf name events := by
  rw [failuresOf_concat]
  cases e with
  | declared ready => rfl
  | registered name' now | succeeded name' now =>
      have hname : name' ≠ name := fun hname => helsewhere (congrArg some hname)
      simp [HealthEvent.restores, HealthEvent.failure?, hname]
  | failed name' message now =>
      have hname : name' ≠ name := fun hname => helsewhere (congrArg some hname)
      simp [HealthEvent.restores, HealthEvent.failure?, hname]

/-- Failures can be counted as long as there are few events. -/
theorem length_failuresOf_le (name : String) (events : List HealthEvent) :
    (failuresOf name events).length ≤ events.length := by
  have hrun := (List.takeWhile_sublist (l := events.reverse)
    fun e : HealthEvent => !e.restores name).length_le
  rw [List.length_reverse] at hrun
  exact Nat.le_trans (List.length_filterMap_le _ _) hrun

theorem lastDeclared?_concat (events : List HealthEvent) (e : HealthEvent) :
    lastDeclared? (events ++ [e]) = e.declared?.or (lastDeclared? events) := by
  rw [lastDeclared?, List.reverse_concat, List.findSome?_cons]
  cases e.declared? <;> rfl

/-! ## The registry as events are reported -/

namespace HealthRegistry

/-- Takes an event in. -/
def perform (r : HealthRegistry) : HealthEvent → HealthRegistry
  | .registered name now => r.register name now
  | .succeeded name now => r.reportSuccess name now
  | .failed name message now => r.reportFailure name message now
  | .declared ready => r.setReady ready

/-- The registry after events, of which the first is reported first. -/
def after (threshold : UInt32) (events : List HealthEvent) : HealthRegistry :=
  events.foldl perform (withThreshold threshold)

theorem after_concat (threshold : UInt32) (events : List HealthEvent) (e : HealthEvent) :
    after threshold (events ++ [e]) = (after threshold events).perform e :=
  List.foldl_concat _ _ _ _

theorem threshold_after (threshold : UInt32) (events : List HealthEvent) :
    (after threshold events).threshold = max threshold 1 := by
  induction events using List.reverseRecOn with
  | nil => rfl
  | append_singleton events e ih =>
      rw [after_concat]
      cases e <;> exact ih

theorem declaredReady_after (threshold : UInt32) (events : List HealthEvent) :
    (after threshold events).declaredReady = (lastDeclared? events).getD false := by
  induction events using List.reverseRecOn with
  | nil => rfl
  | append_singleton events e ih =>
      rw [after_concat, lastDeclared?_concat]
      cases e with
      | declared ready => rfl
      | registered name now | succeeded name now | failed name message now => exact ih

theorem components_perform_of_ne {name : String} {e : HealthEvent}
    (helsewhere : e.component? ≠ some name) (r : HealthRegistry) :
    (r.perform e).components[name]? = r.components[name]? := by
  cases e with
  | declared ready => rfl
  | registered name' now | succeeded name' now | failed name' message now =>
      have hname : ¬compare name' name = .eq := by
        rw [Std.LawfulEqCmp.compare_eq_iff_eq]
        exact fun hname => helsewhere (congrArg some hname)
      exact Std.TreeMap.getElem?_insert.trans (if_neg hname)

/-- What an event makes of a component depends on what the component was, and on nothing else in
the registry but the threshold. -/
theorem components_perform_congr {name : String} {r r' : HealthRegistry}
    (hcomponent : r.components[name]? = r'.components[name]?)
    (hthreshold : r.threshold = r'.threshold) (e : HealthEvent) :
    (r.perform e).components[name]? = (r'.perform e).components[name]? := by
  by_cases habout : e.component? = some name
  · cases e with
    | declared ready => cases habout
    | registered name' now | succeeded name' now =>
        obtain rfl : name' = name := Option.some.inj habout
        exact Std.TreeMap.getElem?_insert_self.trans Std.TreeMap.getElem?_insert_self.symm
    | failed name' message now =>
        obtain rfl : name' = name := Option.some.inj habout
        simp only [perform, reportFailure, Std.TreeMap.getElem?_insert_self,
          Std.TreeMap.getD_eq_getD_getElem?, hcomponent, hthreshold]
  · rw [components_perform_of_ne habout, components_perform_of_ne habout, hcomponent]

/-- A component is what the events about it have made of it. -/
theorem components_after_filter (threshold : UInt32) (events : List HealthEvent)
    (name : String) :
    (after threshold events).components[name]? =
      (after threshold (events.filter (·.component? = some name))).components[name]? := by
  induction events using List.reverseRecOn with
  | nil => rfl
  | append_singleton events e ih =>
      rw [List.filter_append, List.filter_singleton, after_concat]
      by_cases habout : e.component? = some name
      · rw [decide_eq_true habout, cond_true, after_concat]
        exact components_perform_congr ih (by rw [threshold_after, threshold_after]) e
      · rw [decide_eq_false habout, cond_false, List.append_nil]
        rw [components_perform_of_ne habout, ih]

theorem mem_components_after (threshold : UInt32) (events : List HealthEvent) (name : String) :
    name ∈ (after threshold events).components ↔ ∃ e ∈ events, e.component? = some name := by
  induction events using List.reverseRecOn with
  | nil => simp [after, withThreshold]
  | append_singleton events e ih =>
      have hconcat : (∃ e' ∈ events ++ [e], e'.component? = some name) ↔
          e.component? = some name ∨ ∃ e' ∈ events, e'.component? = some name := by
        simp [or_and_right, exists_or, or_comm]
      rw [after_concat, hconcat, ← ih]
      cases e with
      | declared ready => exact (or_iff_right nofun).symm
      | registered name' now | succeeded name' now | failed name' message now =>
          refine Std.TreeMap.mem_insert.trans (or_congr_left ?_)
          rw [Std.LawfulEqCmp.compare_eq_iff_eq]
          exact Option.some_inj.symm

/-! ## Components and their failures -/

/-- The condition of a component with these failures, newest first. -/
structure Reflects (threshold : UInt32) (failures : List String) (c : ComponentHealth) :
    Prop where
  count : c.consecutiveFailures.toNat = failures.length
  message : c.message = failures.head?
  status : c.status =
    if failures.length = 0 then .healthy
    else if max 1 threshold.toNat ≤ failures.length then .unhealthy
    else .degraded

namespace Reflects

variable {threshold : UInt32} {failures : List String} {c : ComponentHealth}

theorem healthy_iff (hreflects : Reflects threshold failures c) :
    c.status = .healthy ∧ c.message = none ↔ failures.length = 0 := by
  rw [hreflects.status, hreflects.message, List.head?_eq_none_iff, ← List.length_eq_zero_iff]
  constructor
  · exact And.right
  · intro hnone
    exact ⟨if_pos hnone, hnone⟩

theorem unhealthy_iff (hreflects : Reflects threshold failures c) :
    c.status = .unhealthy ↔ max 1 threshold.toNat ≤ failures.length := by
  have hone : 1 ≤ max 1 threshold.toNat := le_max_left 1 threshold.toNat
  rw [hreflects.status]
  by_cases hnone : failures.length = 0
  · rw [if_pos hnone]
    exact iff_of_false nofun (by omega)
  · rw [if_neg hnone]
    by_cases hmany : max 1 threshold.toNat ≤ failures.length
    · rw [if_pos hmany]
      exact iff_of_true rfl hmany
    · rw [if_neg hmany]
      exact iff_of_false nofun hmany

theorem degraded_iff (hreflects : Reflects threshold failures c) :
    c.status = .degraded ↔
      failures.length ≠ 0 ∧ ¬max 1 threshold.toNat ≤ failures.length := by
  rw [hreflects.status]
  by_cases hnone : failures.length = 0
  · rw [if_pos hnone]
    exact iff_of_false nofun fun hsome => hsome.1 hnone
  · rw [if_neg hnone]
    by_cases hmany : max 1 threshold.toNat ≤ failures.length
    · rw [if_pos hmany]
      exact iff_of_false nofun fun hfew => hfew.2 hmany
    · rw [if_neg hmany]
      exact iff_of_true rfl ⟨hnone, hmany⟩

end Reflects

theorem reflects_healthy (threshold : UInt32) (now : Int64) :
    Reflects threshold [] (.healthy now) :=
  ⟨rfl, rfl, rfl⟩

theorem toNat_max_one (threshold : UInt32) :
    (max threshold 1).toNat = max 1 threshold.toNat := by
  change (if threshold ≤ 1 then 1 else threshold).toNat = _
  split
  next hle =>
    have hle' : threshold.toNat ≤ 1 := hle
    exact (max_eq_left hle').symm
  next hlt =>
    have hlt' : 1 < threshold.toNat := Nat.not_le.mp hlt
    exact (max_eq_right (Nat.le_of_lt hlt')).symm

/-- One more failure shows in the counter, the message and the status. -/
theorem Reflects.reportFailure {r : HealthRegistry} {threshold : UInt32}
    (hthreshold : r.threshold = max threshold 1) {name : String} {now : Int64}
    {failures : List String}
    (hreflects : Reflects threshold failures (r.components.getD name (.healthy now)))
    (hlength : failures.length + 1 < UInt32.size) (message : String) (default : ComponentHealth) :
    Reflects threshold (message :: failures)
      ((r.reportFailure name message now).components.getD name default) := by
  set count := (r.components.getD name (.healthy now)).consecutiveFailures + 1 with hcount
  have hcount_eq : count.toNat = failures.length + 1 := by
    rw [hcount, UInt32.toNat_add, hreflects.count]
    exact Nat.mod_eq_of_lt hlength
  have hunhealthy : max threshold 1 ≤ count ↔ max 1 threshold.toNat ≤ failures.length + 1 := by
    rw [UInt32.le_iff_toNat_le, toNat_max_one, hcount_eq]
  rw [HealthRegistry.reportFailure, hthreshold, Std.TreeMap.getD_insert_self]
  refine ⟨hcount_eq, rfl, ?_⟩
  simp only [← hcount, hunhealthy, List.length_cons, Nat.succ_ne_zero, if_false]

theorem reflects_after (threshold : UInt32) {events : List HealthEvent} {name : String}
    (hstreaks : ∀ before, before <+: events → (failuresOf name before).length < UInt32.size)
    (now : Int64) :
    Reflects threshold (failuresOf name events)
      ((after threshold events).components.getD name (.healthy now)) := by
  induction events using List.reverseRecOn generalizing now with
  | nil => exact reflects_healthy threshold now
  | append_singleton events e ih =>
      have hbefore := ih fun before hfirst =>
        hstreaks before (hfirst.trans (List.prefix_append events [e]))
      by_cases habout : e.component? = some name
      · rw [after_concat, failuresOf_concat]
        cases e with
        | declared ready => cases habout
        | registered name' now' | succeeded name' now' =>
            obtain rfl : name' = name := Option.some.inj habout
            rw [HealthEvent.restores, decide_eq_true rfl, if_pos rfl]
            have hentered : ((after threshold events).register name' now').components.getD name'
                (.healthy now) = .healthy now' :=
              Std.TreeMap.getD_insert_self
            exact hentered ▸ reflects_healthy threshold now'
        | failed name' message now' =>
            obtain rfl : name' = name := Option.some.inj habout
            have hlength := hstreaks _ List.prefix_rfl
            rw [failuresOf_concat] at hlength
            rw [HealthEvent.restores, if_neg Bool.false_ne_true, HealthEvent.failure?,
              if_pos rfl] at hlength ⊢
            exact (hbefore now').reportFailure (threshold_after threshold events) hlength message _
      · rw [failuresOf_concat_of_ne habout, after_concat, Std.TreeMap.getD_eq_getD_getElem?,
          components_perform_of_ne habout, ← Std.TreeMap.getD_eq_getD_getElem?]
        exact hbefore now

/-! ## The service -/

end HealthRegistry

namespace ComponentStatus

theorem worse_eq_unhealthy_iff (a b : ComponentStatus) :
    a.worse b = .unhealthy ↔ a = .unhealthy ∨ b = .unhealthy := by
  cases a <;> cases b <;> decide

theorem worse_eq_degraded_iff (a b : ComponentStatus) :
    a.worse b = .degraded ↔
      (a = .degraded ∨ b = .degraded) ∧ ¬(a = .unhealthy ∨ b = .unhealthy) := by
  cases a <;> cases b <;> decide

theorem worse_eq_healthy_iff (a b : ComponentStatus) :
    a.worse b = .healthy ↔ a = .healthy ∧ b = .healthy := by
  cases a <;> cases b <;> decide

/-- With one more status the worst is the worse of the two. -/
theorem IsWorstOf.concat {worst : ComponentStatus} {statuses : List ComponentStatus}
    (hworst : worst.IsWorstOf statuses) (s : ComponentStatus) :
    (worst.worse s).IsWorstOf (statuses ++ [s]) where
  unhealthy_iff := by
    rw [worse_eq_unhealthy_iff, hworst.unhealthy_iff, List.mem_append, List.mem_singleton,
      eq_comm (b := s)]
  degraded_iff := by
    rw [worse_eq_degraded_iff, hworst.degraded_iff, hworst.unhealthy_iff, List.mem_append,
      List.mem_append, List.mem_singleton, List.mem_singleton, eq_comm (a := degraded),
      eq_comm (a := unhealthy)]
    tauto
  healthy_iff := by
    rw [worse_eq_healthy_iff, hworst.healthy_iff, List.forall_mem_append,
      List.forall_mem_singleton]

theorem isWorstOf_foldl (statuses : List ComponentStatus) :
    (statuses.foldl worse .healthy).IsWorstOf statuses := by
  induction statuses using List.reverseRecOn with
  | nil => exact ⟨by simp, by simp, by simp⟩
  | append_singleton statuses s ih =>
      rw [List.foldl_concat]
      exact ih.concat s

end ComponentStatus

namespace HealthRegistry

/-- The service is as healthy as its worst component. -/
theorem isWorstOf_report (r : HealthRegistry) :
    r.report.status.IsWorstOf (r.report.components.map (·.2.status)) := by
  have hvalues : r.report.components.map (·.2.status) = r.components.values.map (·.status) := by
    rw [Topology.values_eq_map_toList, List.map_map]
    rfl
  have hstatus : r.report.status = (r.components.values.map (·.status)).foldl .worse .healthy := by
    rw [List.foldl_map]
    rfl
  rw [hvalues, hstatus]
  exact ComponentStatus.isWorstOf_foldl _

/-- The service is ready if it was declared so and no component is unhealthy. -/
theorem ready_readiness_iff (r : HealthRegistry) :
    r.readiness.ready = true ↔
      r.declaredReady = true ∧ ∀ component ∈ r.report.components,
        component.2.status ≠ .unhealthy := by
  have hnames : r.unhealthyNames.isEmpty = true ↔
      ∀ component ∈ r.report.components, component.2.status ≠ .unhealthy := by
    simp [unhealthyNames, report]
  unfold readiness
  by_cases hdeclared : r.declaredReady = true
  · rw [hdeclared, Bool.not_true, if_neg Bool.false_ne_true]
    by_cases hhealthy : r.unhealthyNames.isEmpty = true
    · rw [if_pos hhealthy]
      exact iff_of_true rfl ⟨rfl, hnames.mp hhealthy⟩
    · rw [if_neg hhealthy]
      exact iff_of_false nofun fun hready => hhealthy (hnames.mpr hready.2)
  · simp [hdeclared]

/-- Health follows the failures since a component was last restored, as long as they can be
counted.  A component appears just if an event named it.  Its counter holds the number of
these failures, its message is the newest of them, and its status goes by their number; the
events about other components have no part in it.  The service is as healthy as its worst
component, and ready just if it was last declared so and no component is unhealthy. -/
theorem health_follows_failures (threshold : UInt32) {events : List HealthEvent}
    (hstreaks : ∀ before, before <+: events →
      ∀ name, (failuresOf name before).length < UInt32.size) :
    let r := after threshold events
    let report := r.report
    ((report.components.map Prod.fst).Nodup ∧
      ∀ name, name ∈ report.components.map Prod.fst ↔ ∃ e ∈ events, e.component? = some name) ∧
    (∀ name c, (name, c) ∈ report.components →
      let failures := failuresOf name events
      c.consecutiveFailures.toNat = failures.length ∧
      (c.status = .healthy ∧ c.message = none ↔ failures.length = 0) ∧
      (c.status = .unhealthy ↔ max 1 threshold.toNat ≤ failures.length) ∧
      (c.status = .degraded ↔
        failures.length ≠ 0 ∧ ¬max 1 threshold.toNat ≤ failures.length) ∧
      c.message = failures.head?) ∧
    (∀ name (events' : List HealthEvent),
      events'.filter (·.component? = some name) = events.filter (·.component? = some name) →
      (after threshold events').components[name]? = r.components[name]?) ∧
    report.status.IsWorstOf (report.components.map (·.2.status)) ∧
    (r.readiness.ready = true ↔ lastDeclared? events = some true ∧
      ∀ component ∈ report.components, component.2.status ≠ .unhealthy) := by
  intro r report
  refine ⟨⟨?_, ?_⟩, ?_, ?_, isWorstOf_report r, ?_⟩
  · have hkeys : report.components.map Prod.fst = r.components.keys :=
      Std.TreeMap.map_fst_toList_eq_keys
    rw [hkeys]
    exact Std.TreeMap.nodup_keys
  · intro name
    have hkeys : report.components.map Prod.fst = r.components.keys :=
      Std.TreeMap.map_fst_toList_eq_keys
    rw [hkeys, Std.TreeMap.mem_keys]
    exact mem_components_after threshold events name
  · intro name c hc failures
    have hcomponent : r.components.getD name (.healthy 0) = c := by
      rw [Std.TreeMap.getD_eq_getD_getElem?,
        Std.TreeMap.mem_toList_iff_getElem?_eq_some.mp hc, Option.getD_some]
    have hreflects := reflects_after threshold (fun before hb => hstreaks before hb name) 0
    change Reflects threshold failures (r.components.getD name (.healthy 0)) at hreflects
    rw [hcomponent] at hreflects
    exact ⟨hreflects.count, hreflects.healthy_iff, hreflects.unhealthy_iff,
      hreflects.degraded_iff, hreflects.message⟩
  · intro name events' hsame
    rw [components_after_filter, hsame, ← components_after_filter]
  · rw [ready_readiness_iff, declaredReady_after]
    cases lastDeclared? events with
    | none => simp
    | some ready => simp [report]

/-- Two failures after a registration make a component unhealthy, and the service is not ready
though it was declared so. -/
theorem health_follows_failures_bench :
    let events : List HealthEvent := [.failed "store" "gone" 1, .registered "store" 2,
      .failed "store" "late" 3, .declared true, .failed "store" "refused" 4]
    let r := after 2 events
    (∀ c, ("store", c) ∈ r.report.components →
        c.status = .unhealthy ∧ c.message = some "refused") ∧
      r.readiness.ready = false := by
  intro events r
  have hstreaks : ∀ before, before <+: events →
      ∀ name, (failuresOf name before).length < UInt32.size := by
    intro before hfirst name
    have hlength : before.length ≤ 5 := hfirst.length_le
    have hfailures := length_failuresOf_le name before
    exact Nat.lt_of_le_of_lt (Nat.le_trans hfailures hlength) (by decide)
  obtain ⟨⟨-, hnamed⟩, hcomponents, -, -, hready⟩ := health_follows_failures 2 hstreaks
  have hstore : ∀ c, ("store", c) ∈ r.report.components →
      c.status = .unhealthy ∧ c.message = some "refused" := by
    intro c hc
    obtain ⟨-, -, hunhealthy, -, hmessage⟩ := hcomponents "store" c hc
    exact ⟨hunhealthy.mpr (by decide), hmessage⟩
  refine ⟨hstore, Bool.eq_false_iff.mpr fun hdeclared => ?_⟩
  obtain ⟨⟨name, c⟩, hc, rfl⟩ :=
    List.mem_map.mp ((hnamed "store").mpr ⟨.registered "store" 2, by simp [events], rfl⟩)
  exact (hready.mp hdeclared).2 _ hc (hstore c hc).1

end HealthRegistry

end SocketRanking
