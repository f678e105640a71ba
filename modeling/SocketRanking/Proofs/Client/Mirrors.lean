import SocketRanking.Client.Wire
import SocketRanking.Proofs.Service.AnswerTexts

/-!
# The client and the service read each other

The client has types of its own, with a wire form of their own.  Every answer of the service
has a view there, which keeps it part by part.  The client reads an answer as its view, and
what it writes of the view is the answer again, so that showing an answer as JSON shows what
was sent.  The service reads the requests of the client part by part as well, and the values
that it keeps for itself return as they were written.

Between the two sides stands a text.  A reader of numbers may miss the double that was written
in its last place; what is said of a text is therefore said of every reader that reads back the
numbers in it, and the one that rounds to the nearest double reads back all numbers.
-/

namespace SocketRanking

open Number Decoder

theorem keysAscend_toList {β : Type} (m : Std.TreeMap String β) : KeysAscend m.toList := by
  have hkeys := m.ordered_keys_toList
  exact hkeys.imp fun hbefore => compareOfLessAndEq_eq_lt.mp hbefore

theorem HealthRegistry.keysAscend_report (r : HealthRegistry) :
    KeysAscend r.report.components :=
  keysAscend_toList r.components

namespace Client

/-- What was written is read as `shown`, from its text as well, and `shown` is written like it. -/
structure IsShownAs {β : Type} (written : Json) (numbers : List Float) (counts : List ℕ)
    (read : Decoder β) (write : β → Json) (shown : β) : Prop where
  read_eq : read written = .ok shown
  write_eq : write shown = written
  text_eq : ∀ round : Decimal → Float, AllReadBack round numbers → AllFit counts →
    read (.readWith round written.compact) = .ok shown

section

variable {β : Type} {written : Json} {numbers : List Float} {counts : List ℕ} {read : Decoder β}
  {write : β → Json} {shown : β}

theorem IsShownAs.of_isLegible (hread : read written = .ok shown) (hwrite : write shown = written)
    (hlegible : ∀ round, AllReadBack round numbers → AllFit counts →
      Json.IsLegible round 3 written) :
    IsShownAs written numbers counts read write shown where
  read_eq := hread
  write_eq := hwrite
  text_eq round hnumbers hcounts := by
    rw [(Json.readWith_compact (hlegible round hnumbers hcounts) (by decide)).1]
    exact hread

/-- Where the view is written like the answer, it is enough that the client reads back what it
writes itself. -/
theorem IsShownAs.of_write_eq (hwrite : write shown = written)
    (hread : read (write shown) = .ok shown)
    (hlegible : ∀ round, AllReadBack round numbers → AllFit counts →
      Json.IsLegible round 3 written) :
    IsShownAs written numbers counts read write shown :=
  .of_isLegible (hwrite ▸ hread) hwrite hlegible

end

/-! ## Scores -/

namespace SocketLine

def ofScore (s : SocketScore Float) : SocketLine :=
  { socket := s.socket, cores := s.cores, baseScore := s.baseScore, c6res := s.c6res,
    gatedScore := s.gatedScore, eligible := s.eligible }

theorem decoder_encode_ofScore {s : SocketScore Float} (hfinite : AllFinite s.numbers) :
    decoder (ofScore s).encode = .ok (ofScore s) := by
  simp only [SocketScore.numbers, allFinite_append, allFinite_cons] at hfinite
  obtain ⟨hnumbers, hidle⟩ := hfinite
  have hfraction := read_option_number hidle
  rw [encode, decoder, read_record (by simp) (by simp [ofScore, hnumbers, hfraction])]
  simp [ofScore, hnumbers, hfraction]

end SocketLine

namespace NodeScore

def ofResult (r : ScoringResult Float) : NodeScore :=
  { node := r.node, score := r.score, socket := r.socket, coreCount := r.coreCount,
    finalScore := r.finalScore, windowSecs := r.windowSecs,
    sockets := r.sockets.map SocketLine.ofScore }

theorem encode_ofResult (r : ScoringResult Float) : (ofResult r).encode = r.encode := by
  rw [encode, ofResult, Json.list, List.map_map]
  rfl

theorem isShownAs_result {r : ScoringResult Float} (hfinite : AllFinite r.numbers) :
    IsShownAs r.encode r.numbers r.counts decoder encode (ofResult r) := by
  simp only [ScoringResult.numbers, allFinite_append, allFinite_cons, allFinite_flatMap] at hfinite
  obtain ⟨hnumbers, hlines⟩ := hfinite
  have hsockets : Decoder.list SocketLine.decoder
      (.list SocketLine.encode (r.sockets.map SocketLine.ofScore)) =
        .ok (r.sockets.map SocketLine.ofScore) :=
    read_list_self (List.forall_mem_map.mpr fun s hs =>
      SocketLine.decoder_encode_ofScore (hlines s hs))
  refine .of_write_eq (encode_ofResult r) ?_ fun _ => ScoringResult.isLegible_encode
  rw [encode, decoder, read_record (by simp) (by simp [ofResult, hnumbers, hsockets])]
  simp [ofResult, hnumbers, hsockets]

end NodeScore

/-! ## Rankings -/

namespace RankedHost

def ofPriority (p : HostPriority Float) : RankedHost :=
  { host := p.host, socket := p.socket, score := p.score, coreCount := p.coreCount,
    finalScore := p.finalScore, windowSecs := p.windowSecs }

theorem decoder_encode_ofPriority {p : HostPriority Float} (hfinite : AllFinite p.numbers) :
    decoder (ofPriority p).encode = .ok (ofPriority p) := by
  simp only [HostPriority.numbers, allFinite_cons] at hfinite
  rw [encode, decoder, read_record (by simp) (by simp [ofPriority, hfinite])]
  simp [ofPriority, hfinite]

end RankedHost

namespace FailedHost

def ofFailure (f : HostFailure) : FailedHost :=
  { host := f.host, reason := f.reason, retryable := f.retryable }

theorem decoder_encode (f : FailedHost) : decoder f.encode = .ok f := by
  rw [encode, decoder, read_record (by simp) (by simp)]
  simp

end FailedHost

namespace HostRanking

def ofList (l : PriorityList Float) : HostRanking :=
  { workload := l.workload, priorities := l.priorities.map RankedHost.ofPriority,
    failures := l.failures.map FailedHost.ofFailure }

theorem encode_ofList (l : PriorityList Float) : (ofList l).encode = l.encode := by
  rw [encode, ofList, Json.list, Json.list, List.map_map, List.map_map]
  rfl

theorem isShownAs_list {l : PriorityList Float} (hfinite : AllFinite l.numbers) :
    IsShownAs l.encode l.numbers l.counts decoder encode (ofList l) := by
  have hpriorities : Decoder.list RankedHost.decoder
      (.list RankedHost.encode (l.priorities.map RankedHost.ofPriority)) =
        .ok (l.priorities.map RankedHost.ofPriority) :=
    read_list_self (List.forall_mem_map.mpr fun p hp =>
      RankedHost.decoder_encode_ofPriority (allFinite_flatMap.mp hfinite p hp))
  have hfailures : Decoder.list FailedHost.decoder
      (.list FailedHost.encode (l.failures.map FailedHost.ofFailure)) =
        .ok (l.failures.map FailedHost.ofFailure) :=
    read_list_self fun f _ => f.decoder_encode
  refine .of_write_eq (encode_ofList l) ?_ fun _ => PriorityList.isLegible_encode
  rw [encode, decoder, read_record (by simp) (by simp [ofList, hpriorities, hfailures])]
  simp [ofList, hpriorities, hfailures]

end HostRanking

/-! ## Idle capacity -/

namespace IdleCores

def ofCapacity (c : IdleCapacity Float) : IdleCores :=
  { node := c.node, cores := c.cores }

theorem isShownAs_capacity {c : IdleCapacity Float} (hfinite : c.cores.isFinite = true) :
    IsShownAs c.encode [c.cores] [] decoder encode (ofCapacity c) := by
  refine .of_write_eq rfl ?_ fun _ hnumbers _ =>
    IdleCapacity.isLegible_encode (List.forall_mem_singleton.mp hnumbers)
  rw [encode, decoder, read_record (by simp) (by simp [ofCapacity, hfinite])]
  simp [ofCapacity, hfinite]

end IdleCores

/-! ## Lines of the cache -/

namespace CacheLine

/-- The entry of the line becomes part of it. -/
def ofRow (c : CachedSocket Float) : CacheLine :=
  { node := c.key.node, socket := c.key.socket, ipc := c.entry.ipc, memRead := c.entry.memRead,
    memWrite := c.entry.memWrite, c6res := c.entry.c6res, fresh := c.fresh }

theorem decoder_encode_ofRow {c : CachedSocket Float} (hfinite : AllFinite c.entry.numbers) :
    decoder (ofRow c).encode = .ok (ofRow c) := by
  simp only [Entry.numbers, allFinite_cons] at hfinite
  rw [encode, decoder, read_record (by simp) (by simp [ofRow, hfinite])]
  simp [ofRow, hfinite]

theorem encode_ofRows (rows : List (CachedSocket Float)) :
    Json.list encode (rows.map ofRow) = .list CachedSocket.encode rows := by
  rw [Json.list, List.map_map]
  rfl

/-- The whole cache, line by line. -/
theorem isShownAs_rows {rows : List (CachedSocket Float)}
    (hfinite : ∀ row ∈ rows, AllFinite row.entry.numbers) :
    IsShownAs (.list CachedSocket.encode rows) (rows.flatMap fun row => row.entry.numbers) []
      (.list decoder) (.list encode) (rows.map ofRow) := by
  refine .of_write_eq (encode_ofRows rows) ?_ fun _ hnumbers _ =>
    Json.isLegible_list fun row hrow =>
      CachedSocket.isLegible_encode (List.forall_mem_flatMap.mp hnumbers row hrow)
  exact read_list_self (List.forall_mem_map.mpr fun row hrow =>
    decoder_encode_ofRow (hfinite row hrow))

end CacheLine

/-! ## Profiles -/

namespace Footprint

def ofProfile (p : AppProfile Float) : Footprint :=
  { ipc := p.ipc, memRead := p.memRead, memWrite := p.memWrite, c6res := p.c6res,
    durationSecs := p.durationSecs }

theorem decoder_encode_profile {p : AppProfile Float} (hfinite : AllFinite p.numbers) :
    decoder p.encode = .ok (ofProfile p) := by
  simp only [AppProfile.numbers, allFinite_cons] at hfinite
  rw [AppProfile.encode, decoder, read_record (by simp) (by simp [hfinite])]
  simp [ofProfile, hfinite]

end Footprint

namespace ProfileList

def ofCatalog (catalog : Catalog Float) : ProfileList :=
  { profiles := catalog.toList.map fun (name, p) => (name, .ofProfile p) }

theorem encode_ofCatalog (catalog : Catalog Float) :
    (ofCatalog catalog).encode = catalog.encode := by
  rw [encode, ofCatalog, List.map_map]
  rfl

theorem isShownAs_catalog {catalog : Catalog Float} (hfinite : AllFinite catalog.numbers) :
    IsShownAs catalog.encode catalog.numbers catalog.counts decoder encode
      (ofCatalog catalog) := by
  have hentries := allFinite_flatMap.mp hfinite
  have hprofiles := read_map
    (fun entry hentry => Footprint.decoder_encode_profile (hentries entry hentry))
    (keysAscend_toList catalog)
  refine .of_isLegible ?_ (encode_ofCatalog catalog) fun _ => Catalog.isLegible_encode
  rw [Catalog.encode, decoder, read_record (by simp) (by simp [hprofiles])]
  simp [ofCatalog, hprofiles]

end ProfileList

/-! ## Health -/

namespace ComponentReport

/-- The state becomes its name. -/
def ofHealth (c : ComponentHealth) : ComponentReport :=
  { status := c.status.name, message := c.message, consecutiveFailures := c.consecutiveFailures,
    lastCheck := c.lastCheck }

theorem decoder_encode (c : ComponentReport) : decoder c.encode = .ok c := by
  obtain ⟨status, _ | message, consecutiveFailures, lastCheck⟩ := c <;>
    rw [encode, decoder, read_record (by simp [Json.member?]) (by simp [Json.member?])] <;>
    simp [Json.member?]

theorem decoder_encode_health (c : ComponentHealth) : decoder c.encode = .ok (ofHealth c) :=
  decoder_encode (ofHealth c)

end ComponentReport

namespace HealthView

/-- The state becomes its name. -/
def ofReport (r : HealthReport) : HealthView :=
  { status := r.status.name
    components := r.components.map fun (name, c) => (name, .ofHealth c) }

theorem encode_ofReport (r : HealthReport) : (ofReport r).encode = r.encode := by
  rw [encode, ofReport, List.map_map]
  rfl

theorem isShownAs_report {r : HealthReport} (hkeys : KeysAscend r.components) :
    IsShownAs r.encode [] [] decoder encode (ofReport r) := by
  have hcomponents := read_map
    (fun entry _ => ComponentReport.decoder_encode_health entry.2) hkeys
  refine .of_isLegible ?_ (encode_ofReport r) fun _ _ _ => r.isLegible_encode
  rw [HealthReport.encode, decoder,
    read_record (by simp) (by simp [ComponentStatus.encode, hcomponents])]
  simp [ComponentStatus.encode, hcomponents, ofReport]

end HealthView

namespace ReadinessView

def ofReadiness (r : Readiness) : ReadinessView :=
  { ready := r.ready, reason := r.reason }

theorem decoder_encode (r : ReadinessView) : decoder r.encode = .ok r := by
  obtain ⟨ready, _ | reason⟩ := r <;>
    rw [encode, decoder, read_record (by simp [Json.member?]) (by simp [Json.member?])] <;>
    simp [Json.member?]

theorem isShownAs_readiness (r : Readiness) :
    IsShownAs r.encode [] [] decoder encode (ofReadiness r) :=
  .of_write_eq rfl (ofReadiness r).decoder_encode fun _ _ _ => r.isLegible_encode

end ReadinessView

/-! ## Failures -/

namespace ErrorNotice

/-- A failure of the service always has a code. -/
def ofBody (b : ErrorBody) : ErrorNotice :=
  { error := b.error, code := some b.code }

theorem isShownAs_body (b : ErrorBody) :
    IsShownAs b.encode [] [] decoder encode (ofBody b) := by
  refine .of_write_eq rfl ?_ fun _ _ _ => b.isLegible_encode
  rw [encode, decoder, read_record (by simp [ofBody, Json.member?])
    (by simp [ofBody, Json.member?])]
  simp [ofBody, Json.member?]

end ErrorNotice

/-! ## Requests -/

/-- What was written is read as what was meant, from its text as well. -/
structure IsReceivedAs {β : Type} (written : Json) (read : Decoder β) (meant : β) : Prop where
  read_eq : read written = .ok meant
  text_eq : ∀ round : Decimal → Float, read (.readFirstWith round written.compact) = .ok meant

theorem IsReceivedAs.of_isLegible {β : Type} {written : Json} {read : Decoder β} {meant : β}
    (hread : read written = .ok meant) (hlegible : ∀ round, Json.IsLegible round 2 written) :
    IsReceivedAs written read meant where
  read_eq := hread
  text_eq round := by
    rw [(Json.readWith_compact (hlegible round) (by decide)).2]
    exact hread

namespace Job

def workload (w : Job) : Workload :=
  { name := w.name, profile := w.profile }

end Job

namespace RankingOrder

def request (o : RankingOrder) : RankingRequest :=
  { workload := o.workload.workload, nodes := o.nodes }

end RankingOrder

namespace PlacementReport

def placement (p : PlacementReport) : Placement :=
  { node := p.node, socket := p.socket, profile := p.profile,
    countsTowardIdle := p.countsTowardIdle }

end PlacementReport

/-! ## Both sides together -/

/-- The client shows every answer of the service part by part, and writes it as it came. -/
structure ShowsAnswers : Prop where
  scoring : ∀ r : ScoringResult Float, AllFinite r.numbers →
    IsShownAs r.encode r.numbers r.counts NodeScore.decoder NodeScore.encode (.ofResult r)
  ranking : ∀ l : PriorityList Float, AllFinite l.numbers →
    IsShownAs l.encode l.numbers l.counts HostRanking.decoder HostRanking.encode (.ofList l)
  idleCapacity : ∀ c : IdleCapacity Float, c.cores.isFinite = true →
    IsShownAs c.encode [c.cores] [] IdleCores.decoder IdleCores.encode (.ofCapacity c)
  cache : ∀ rows : List (CachedSocket Float), (∀ row ∈ rows, AllFinite row.entry.numbers) →
    IsShownAs (.list CachedSocket.encode rows) (rows.flatMap fun row => row.entry.numbers) []
      (.list CacheLine.decoder) (.list CacheLine.encode) (rows.map CacheLine.ofRow)
  profiles : ∀ catalog : Catalog Float, AllFinite catalog.numbers →
    IsShownAs catalog.encode catalog.numbers catalog.counts ProfileList.decoder
      ProfileList.encode (.ofCatalog catalog)
  health : ∀ r : HealthReport, KeysAscend r.components →
    IsShownAs r.encode [] [] HealthView.decoder HealthView.encode (.ofReport r)
  readiness : ∀ r : Readiness,
    IsShownAs r.encode [] [] ReadinessView.decoder ReadinessView.encode (.ofReadiness r)
  failure : ∀ b : ErrorBody,
    IsShownAs b.encode [] [] ErrorNotice.decoder ErrorNotice.encode (.ofBody b)

theorem showsAnswers : ShowsAnswers where
  scoring _ hfinite := NodeScore.isShownAs_result hfinite
  ranking _ hfinite := HostRanking.isShownAs_list hfinite
  idleCapacity _ hfinite := IdleCores.isShownAs_capacity hfinite
  cache _ hfinite := CacheLine.isShownAs_rows hfinite
  profiles _ hfinite := ProfileList.isShownAs_catalog hfinite
  health _ hkeys := HealthView.isShownAs_report hkeys
  readiness := ReadinessView.isShownAs_readiness
  failure := ErrorNotice.isShownAs_body

/-- The service reads every request of the client part by part. -/
structure RequestsArrive : Prop where
  placement : ∀ p : PlacementReport, IsReceivedAs p.encode Placement.decoder p.placement
  ranking : ∀ o : RankingOrder, IsReceivedAs o.encode RankingRequest.decoder o.request

theorem requestsArrive : RequestsArrive where
  placement p := .of_isLegible p.placement.decoder_encode fun _ => p.placement.isLegible_encode
  ranking o := .of_isLegible o.request.decoder_encode fun _ => o.request.isLegible_encode

/-- What the service writes and reads itself returns as it was. -/
structure ValuesReturn : Prop where
  socketKey : ∀ k : SocketKey, SocketKey.decoder k.encode = .ok k
  core : ∀ id : UInt32, Socket.coreDecoder (Socket.encodeCore id) = .ok id
  socket : ∀ s : Socket, Socket.decoder s.encode = .ok s
  node : ∀ n : Node, n.maxGhz.isFinite = true → Node.decoder n.encode = .ok n
  hardwareClass : ∀ c : HardwareClass Float, AllFinite c.numbers →
    HardwareClass.decoder c.encode = .ok c
  classEntry : ∀ c : ClassEntry Float, AllFinite c.numbers → ClassEntry.decoder c.encode = .ok c
  topologyFile : ∀ f : TopologyFile Float, AllFinite f.numbers →
    TopologyFile.decoder f.encode = .ok f
  profile : ∀ p : AppProfile Float, AllFinite p.numbers → AppProfile.decoder p.encode = .ok p
  metric : ∀ m : Metric, Metric.decoder m.encode = .ok m
  sample : ∀ s : Sample, s.IsProper → Sample.decoder s.encode = .ok s
  metricSet : ∀ s : MetricSet Float, AllFinite s.numbers → MetricSet.decoder s.encode = .ok s
  performance : ∀ p : Performance Float, AllFinite p.numbers →
    Performance.decoder p.encode = .ok p
  series : ∀ s : SeriesSnapshot, s.IsProper → SeriesSnapshot.decoder s.encode = .ok s
  log : ∀ s : LogSnapshot, s.IsProper → LogSnapshot.decoder s.encode = .ok s
  entry : ∀ e : Entry Float, AllFinite e.numbers → Entry.decoder e.encode = .ok e
  cacheRow : ∀ c : CachedSocket Float, AllFinite c.entry.numbers →
    CachedSocket.decoder c.encode = .ok c
  strategy : ∀ s : Strategy, Strategy.decoder s.encode = .ok s
  idleGate : ∀ g : IdleGate, IdleGate.decoder g.encode = .ok g
  socketScore : ∀ s : SocketScore Float, AllFinite s.numbers →
    SocketScore.decoder s.encode = .ok s
  scoring : ∀ r : ScoringResult Float, AllFinite r.numbers →
    ScoringResult.decoder r.encode = .ok r
  workload : ∀ w : Workload, Workload.decoder w.encode = .ok w
  rankingRequest : ∀ r : RankingRequest, RankingRequest.decoder r.encode = .ok r
  placement : ∀ p : Placement, Placement.decoder p.encode = .ok p
  hostPriority : ∀ p : HostPriority Float, AllFinite p.numbers →
    HostPriority.decoder p.encode = .ok p
  hostFailure : ∀ f : HostFailure, HostFailure.decoder f.encode = .ok f
  ranking : ∀ l : PriorityList Float, AllFinite l.numbers → PriorityList.decoder l.encode = .ok l
  idleCapacity : ∀ c : IdleCapacity Float, c.cores.isFinite = true →
    IdleCapacity.decoder c.encode = .ok c
  failure : ∀ b : ErrorBody, ErrorBody.decoder b.encode = .ok b
  componentStatus : ∀ s : ComponentStatus, ComponentStatus.decoder s.encode = .ok s
  componentHealth : ∀ c : ComponentHealth, ComponentHealth.decoder c.encode = .ok c
  health : ∀ r : HealthReport, KeysAscend r.components → HealthReport.decoder r.encode = .ok r
  readiness : ∀ r : Readiness, Readiness.decoder r.encode = .ok r

theorem valuesReturn : ValuesReturn where
  socketKey := SocketKey.decoder_encode
  core := Socket.coreDecoder_encodeCore
  socket := Socket.decoder_encode
  node _ := Node.decoder_encode
  hardwareClass _ := HardwareClass.decoder_encode
  classEntry _ := ClassEntry.decoder_encode
  topologyFile _ := TopologyFile.decoder_encode
  profile _ := AppProfile.decoder_encode
  metric := Metric.decoder_encode
  sample _ := Sample.decoder_encode
  metricSet _ := MetricSet.decoder_encode
  performance _ := Performance.decoder_encode
  series _ := SeriesSnapshot.decoder_encode
  log _ := LogSnapshot.decoder_encode
  entry _ := Entry.decoder_encode
  cacheRow _ := CachedSocket.decoder_encode
  strategy := Strategy.decoder_encode
  idleGate := IdleGate.decoder_encode
  socketScore _ := SocketScore.decoder_encode
  scoring _ := ScoringResult.decoder_encode
  workload := Workload.decoder_encode
  rankingRequest := RankingRequest.decoder_encode
  placement := Placement.decoder_encode
  hostPriority _ := HostPriority.decoder_encode
  hostFailure := HostFailure.decoder_encode
  ranking _ := PriorityList.decoder_encode
  idleCapacity _ := IdleCapacity.decoder_encode
  failure := ErrorBody.decoder_encode
  componentStatus := ComponentStatus.decoder_encode
  componentHealth := ComponentHealth.decoder_encode
  health _ := HealthReport.decoder_encode
  readiness := Readiness.decoder_encode

/-- A value returns from its text where the reader reads back its numbers, and rounding to the
nearest double reads back all of them. -/
structure TextsReturn : Prop where
  value : ∀ (round : Decimal → Float) (n : ℕ) (v : Json), n ≤ Json.maxDepth →
    Json.IsLegible round n v → Json.readWith round v.compact = v
  number : ∀ x : Float, x.isFinite = true → Json.ReadsBack Decimal.toFloat x

theorem textsReturn : TextsReturn where
  value _ _ _ hn hv := (Json.readWith_compact hv hn).1
  number _ := Json.readsBack_toFloat

end Client

end SocketRanking
