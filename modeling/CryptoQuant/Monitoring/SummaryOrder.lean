import CryptoQuant.Monitoring.OperationsDashboard
import CryptoQuant.Lib.Best
import CryptoQuant.Lib.Deque

/-!
# Summaries and the order of arrival

A summary reads its records as they arrived. What it counts, adds up or takes the greatest
of is the same in every order, and the health of a strategy is sorted by time first. The
opening and the closing profit are those of the samples that arrived first and last.
-/

namespace CryptoQuant.OperationsDashboard
set_option autoImplicit false

open Best (foldl_max_perm)
open Performance (PerformanceSnapshot)

/-! ## Records -/

section Records
variable (upper : String → String)

/-- The sample that a call records. -/
def Call.performance : Call → Option PerformanceSnapshot
  | .recordPerformance snapshot => some snapshot
  | _ => none

/-- The event that a call records. -/
def Call.riskEvent : Call → Option RiskEvent
  | .recordRiskEvent level code message ts now => some { ts := ts.getD now, level := upper level, code, message }
  | _ => none

/-- The sample that a call records, if it is not refused. -/
def Call.healthSample : Call → Option StrategyHealthSample
  | .recordStrategyHealth strategyId healthy latencyMs errorRate ts now =>
    if latencyMs < 0 then none
    else if errorRate < 0 ∨ errorRate > 1 then none
    else some { ts := ts.getD now, strategyId, healthy, latencyMs, errorRate }
  | _ => none

/-- The time of a record. -/
def Call.ts : Call → DateTime
  | .recordPerformance snapshot => snapshot.ts
  | .recordRiskEvent _ _ _ ts now => ts.getD now
  | .recordStrategyHealth _ _ _ _ ts now => ts.getD now

/-- The dashboard holds the last `n` records of each kind. -/
structure Holds (n : ℕ) (calls : List Call) (dash : OperationalDashboard) : Prop where
  maxSamples : dash.maxSamples = n
  perfSamples : dash.perfSamples = (calls.filterMap Call.performance).rtake n
  riskEvents : dash.riskEvents = (calls.filterMap (Call.riskEvent upper)).rtake n
  healthSamples : dash.healthSamples = (calls.filterMap Call.healthSample).rtake n

theorem trim_eq {α : Type} (n : ℕ) (items : List α) : OperationalDashboard.trim n items = items.rtake n := by
  unfold OperationalDashboard.trim
  split
  · rename_i fits
    rw [Py.Deque.rtake_of_length_le fits]
  · rfl

/-- What a call adds to a trimmed list. -/
theorem trim_snoc {α : Type} (n : ℕ) (calls : List Call) (c : Call) (record : Call → Option α) :
    OperationalDashboard.trim n ((calls.filterMap record).rtake n ++ (record c).toList) =
      ((calls ++ [c]).filterMap record).rtake n := by
  rw [List.filterMap_append, List.filterMap_cons, List.filterMap_nil, trim_eq]
  cases record c with
  | none =>
    rw [Option.toList_none, List.append_nil, List.append_nil]
    apply Py.Deque.rtake_of_length_le
    rw [Py.Deque.length_rtake]
    apply min_le_left
  | some item =>
    rw [Option.toList_some]
    apply Py.Deque.rtake_rtake_append

/-- A call adds what it records, or is refused and leaves the dashboard. -/
theorem next_cases (dash : OperationalDashboard) (c : Call) :
    (machine upper).next dash c =
        { dash with
          perfSamples := dash.perfSamples ++ c.performance.toList
          riskEvents := dash.riskEvents ++ (c.riskEvent upper).toList
          healthSamples := dash.healthSamples ++ c.healthSample.toList }.trimIfNeeded ∨
      (machine upper).next dash c = dash ∧ c.performance = none ∧ c.riskEvent upper = none ∧ c.healthSample = none := by
  cases c with
  | recordPerformance snapshot =>
    left
    simp only [Call.performance, Call.riskEvent, Call.healthSample, Option.toList_none, List.append_nil]
    rfl
  | recordRiskEvent level code message ts now =>
    left
    simp only [Call.performance, Call.riskEvent, Call.healthSample, Option.toList_none, List.append_nil]
    rfl
  | recordStrategyHealth strategyId healthy latencyMs errorRate ts now =>
    simp only [Run.Machine.next, machine, call, Call.performance, Call.riskEvent, Call.healthSample, Option.toList_none,
      List.append_nil]
    by_cases negative : latencyMs < 0
    · exact .inr ⟨by rw [if_pos negative], trivial, trivial, by rw [if_pos negative]⟩
    rw [if_neg negative, if_neg negative]
    by_cases outside : errorRate < 0 ∨ errorRate > 1
    · exact .inr ⟨by rw [if_pos outside], trivial, trivial, by rw [if_pos outside]⟩
    left
    rw [if_neg outside, if_neg outside]
    rfl

variable {upper} {n : ℕ} {calls : List Call} {dash : OperationalDashboard}

/-- One more call. -/
theorem Holds.next (holds : Holds upper n calls dash) (c : Call) :
    Holds upper n (calls ++ [c]) ((machine upper).next dash c) := by
  obtain ⟨rfl, perf, risk, health⟩ := holds
  rcases next_cases upper dash c with next | ⟨next, noPerformance, noEvent, noSample⟩
  · rw [next]
    constructor
    · rfl
    · rw [← trim_snoc, ← perf]
      rfl
    · rw [← trim_snoc, ← risk]
      rfl
    · rw [← trim_snoc, ← health]
      rfl
  · rw [next]
    constructor
    · rfl
    · rw [List.filterMap_append, List.filterMap_cons, noPerformance, List.filterMap_nil, List.append_nil, perf]
    · rw [List.filterMap_append, List.filterMap_cons, noEvent, List.filterMap_nil, List.append_nil, risk]
    · rw [List.filterMap_append, List.filterMap_cons, noSample, List.filterMap_nil, List.append_nil, health]

/-- A new dashboard holds the last of what is recorded on it. -/
theorem holds_after {maxSamples : ℤ} (built : OperationalDashboard.new maxSamples = .ok dash) (calls : List Call) :
    Holds upper maxSamples.toNat calls ((machine upper).after dash calls) := by
  induction calls using List.reverseRecOn with
  | nil =>
    unfold OperationalDashboard.new at built
    split at built
    · cases built
    · cases built
      constructor
      · rfl
      · exact (List.rtake_nil (n := _)).symm
      · exact (List.rtake_nil (n := _)).symm
      · exact (List.rtake_nil (n := _)).symm
  | append_singleton calls c ih =>
    rw [Run.Machine.after_snoc]
    exact ih.next c

/-- The capacity is not exceeded. -/
structure Fits (upper : String → String) (maxSamples : ℤ) (calls : List Call) : Prop where
  performances : (calls.filterMap Call.performance).length ≤ maxSamples.toNat
  riskEvents : (calls.filterMap (Call.riskEvent upper)).length ≤ maxSamples.toNat
  healthSamples : (calls.filterMap Call.healthSample).length ≤ maxSamples.toNat

end Records

/-! ## Summaries -/

section Summaries

/-- The same summary but for the opening and closing profit. -/
structure SameButEnds (s t : PerformanceSummary) : Prop where
  period : s.period = t.period
  fromTs : s.fromTs = t.fromTs
  toTs : s.toTs = t.toTs
  samples : s.samples = t.samples
  netPnlAvg : s.netPnlAvg = t.netPnlAvg
  netPnlMax : s.netPnlMax = t.netPnlMax
  netPnlMin : s.netPnlMin = t.netPnlMin
  riskEventCount : s.riskEventCount = t.riskEventCount
  riskEventByLevel : ∀ level, s.riskEventByLevel.get? level = t.riskEventByLevel.get? level
  strategyHealth : ∀ strategyId, s.strategyHealth.get? strategyId = t.strategyHealth.get? strategyId

/-- The same summary: equal fields, mappings compared key by key. -/
structure Same (s t : PerformanceSummary) : Prop extends SameButEnds s t where
  netPnlOpen : s.netPnlOpen = t.netPnlOpen
  netPnlClose : s.netPnlClose = t.netPnlClose
  netPnlChange : s.netPnlChange = t.netPnlChange

/-- The same exception, or related results. -/
inductive Alike {α : Type} (R : α → α → Prop) : Except PyError α → Except PyError α → Prop
  | error (e : PyError) : Alike R (.error e) (.error e)
  | ok {a b : α} (related : R a b) : Alike R (.ok a) (.ok b)

theorem countRiskLevels_perm {risk risk' : List RiskEvent} (perm : risk'.Perm risk) (level : String) :
    (countRiskLevels risk').get? level = (countRiskLevels risk).get? level := by
  have own := perm.filter fun event => event.level = level
  have counts (n : ℕ) : (risk'.filter fun event => event.level = level).foldl (fun count _ => count + 1) n =
      (risk.filter fun event => event.level = level).foldl (fun count _ => count + 1) n :=
    own.foldl_eq' (fun _ _ _ _ _ => rfl) n
  rw [countRiskLevels, countRiskLevels, Py.Dict.get?_foldl_collect risk' RiskEvent.level (fun count _ => count + 1),
    Py.Dict.get?_foldl_collect risk RiskEvent.level (fun count _ => count + 1), counts]
  simp only [perm.mem_iff]

/-- A strategy's own samples, in the order of arrival. -/
theorem get?_grouped (samples : List StrategyHealthSample) (strategyId : String) : (grouped samples).get? strategyId =
    if ∃ sample ∈ samples, sample.strategyId = strategyId then some (samples.filter fun sample => sample.strategyId = strategyId)
    else none := by
  have collect (own : List StrategyHealthSample) (init : List StrategyHealthSample) :
      own.foldl (fun list sample => list ++ [sample]) init = init ++ own := by
    induction own generalizing init with
    | nil => rw [List.foldl_nil, List.append_nil]
    | cons sample own ih => rw [List.foldl_cons, ih, List.append_assoc, List.singleton_append]
  rw [grouped, Py.Dict.get?_foldl_collect samples StrategyHealthSample.strategyId (fun list sample => list ++ [sample]), collect]
  rfl

theorem get?_aggregateHealth (samples : List StrategyHealthSample) (strategyId : String) :
    (aggregateHealth samples).get? strategyId = ((grouped samples).get? strategyId).map (healthView strategyId) := by
  cases samples with
  | nil => rfl
  | cons sample samples => rw [aggregateHealth, Py.Dict.get?_mapValues]

/-- Samples with different times are sorted the same way from any order. -/
theorem healthView_perm {samples samples' : List StrategyHealthSample} (perm : samples'.Perm samples)
    (distinct : (samples.map StrategyHealthSample.ts).Nodup) (strategyId : String) :
    healthView strategyId samples' = healthView strategyId samples := by
  have sorted : samples'.insertionSort (fun s t => s.ts ≤ t.ts) = samples.insertionSort fun s t => s.ts ≤ t.ts :=
    Best.sort_perm perm distinct
  rw [healthView, healthView, sorted]

theorem aggregateHealth_perm {health health' : List StrategyHealthSample} (perm : health'.Perm health)
    (distinct : (health.map fun s => (s.strategyId, s.ts)).Nodup) (strategyId : String) :
    (aggregateHealth health').get? strategyId = (aggregateHealth health).get? strategyId := by
  rw [get?_aggregateHealth, get?_aggregateHealth, get?_grouped, get?_grouped]
  simp only [perm.mem_iff]
  split
  · have own := perm.filter fun sample => sample.strategyId = strategyId
    rw [Option.map_some, Option.map_some, healthView_perm own]
    have keys : (health.filter fun sample => sample.strategyId = strategyId).map (fun s => (s.strategyId, s.ts)) =
        ((health.filter fun sample => sample.strategyId = strategyId).map StrategyHealthSample.ts).map (Prod.mk strategyId) := by
      rw [List.map_map]
      refine List.map_congr_left fun s member => ?_
      rw [of_decide_eq_true (List.mem_filter.mp member).2]
      rfl
    exact List.Nodup.of_map (Prod.mk strategyId) (keys ▸ distinct.sublist (List.filter_sublist.map _))
  · rfl

/-- The least item is the greatest of the reversed order. -/
theorem foldl_min_perm {first first' : ℚ} {rest rest' : List ℚ} (perm : (first' :: rest').Perm (first :: rest)) :
    rest'.foldl min first' = rest.foldl min first := foldl_max_perm (α := ℚᵒᵈ) perm

variable {period : String} {start anchor : DateTime} {perf perf' : List PerformanceSnapshot} {risk risk' : List RiskEvent}
  {health health' : List StrategyHealthSample}

/-- The order of the records matters to the ends only. -/
theorem summary_perm (permPerf : perf'.Perm perf) (permRisk : risk'.Perm risk) (permHealth : health'.Perm health)
    (distinct : (health.map fun s => (s.strategyId, s.ts)).Nodup) :
    Alike SameButEnds (summary period start anchor perf' risk' health') (summary period start anchor perf risk health) := by
  have values := permPerf.map PerformanceSnapshot.netPnl
  unfold summary
  cases netValues : perf.map PerformanceSnapshot.netPnl with
  | nil =>
    rw [netValues] at values
    rw [values.eq_nil]
    exact .error _
  | cons first rest =>
    cases netValues' : perf'.map PerformanceSnapshot.netPnl with
    | nil =>
      rw [netValues, netValues'] at values
      exact absurd values.nil_eq (List.cons_ne_nil _ _).symm
    | cons first' rest' =>
      rw [netValues, netValues'] at values
      refine .ok ⟨rfl, rfl, rfl, permPerf.length_eq, ?_, foldl_max_perm values, foldl_min_perm values, permRisk.length_eq,
        countRiskLevels_perm permRisk, aggregateHealth_perm permHealth distinct⟩
      show (first' :: rest').sum / ((first' :: rest').length : ℚ) = (first :: rest).sum / ((first :: rest).length : ℚ)
      rw [values.sum_eq, values.length_eq]

/-- A summary opens with the first of the samples and closes with the last. -/
structure OpensAndCloses (samples : List PerformanceSnapshot) (out : PerformanceSummary) : Prop where
  netPnlOpen : samples.head?.map PerformanceSnapshot.netPnl = some out.netPnlOpen
  netPnlClose : samples.getLast?.map PerformanceSnapshot.netPnl = some out.netPnlClose
  netPnlChange : out.netPnlChange = out.netPnlClose - out.netPnlOpen

theorem summary_opensAndCloses {out : PerformanceSummary} (summed : summary period start anchor perf risk health = .ok out) :
    OpensAndCloses perf out := by
  unfold summary at summed
  cases netValues : perf.map PerformanceSnapshot.netPnl with
  | nil =>
    rw [netValues] at summed
    cases summed
  | cons first rest =>
    rw [netValues] at summed
    cases summed
    constructor
    · rw [← List.head?_map, netValues, List.head?_cons]
    · rw [← List.getLast?_map, netValues, List.getLast?_cons, List.getLastD_eq_getLast?]
    · rfl

/-- Without a sample in the window the code raises, else it answers. -/
theorem summary_returns_iff : (∃ out, summary period start anchor perf risk health = .ok out) ↔ perf ≠ [] := by
  cases perf with
  | nil =>
    refine iff_of_false ?_ fun some => some rfl
    rintro ⟨out, summed⟩
    cases summed
  | cons sample perf => exact iff_of_true ⟨_, rfl⟩ (List.cons_ne_nil _ _)

end Summaries

/-! ## Arrivals -/

section Arrivals

/-- No sample is earlier. -/
structure IsEarliest (samples : List PerformanceSnapshot) (first : PerformanceSnapshot) : Prop where
  mem : first ∈ samples
  le : ∀ s ∈ samples, first.ts ≤ s.ts

/-- No sample is later. -/
structure IsLatest (samples : List PerformanceSnapshot) (last : PerformanceSnapshot) : Prop where
  mem : last ∈ samples
  le : ∀ s ∈ samples, s.ts ≤ last.ts

/-- The summary, if there is one, opens with the earliest sample and closes with the latest. -/
def EndsFollowTime (samples : List PerformanceSnapshot) (result : Except PyError PerformanceSummary) : Prop :=
  ∀ out, result = .ok out → ∀ first last, IsEarliest samples first → IsLatest samples last →
    out.netPnlOpen = first.netPnl ∧ out.netPnlClose = last.netPnl

/-- The sample that arrived first has the profit of the earliest, and the one that arrived
last that of the latest. -/
def ArrivedInOrder (samples : List PerformanceSnapshot) : Prop :=
  ∀ first last, IsEarliest samples first → IsLatest samples last →
    samples.head?.map PerformanceSnapshot.netPnl = some first.netPnl ∧
      samples.getLast?.map PerformanceSnapshot.netPnl = some last.netPnl

variable {samples samples' : List PerformanceSnapshot} {calls calls' : List Call} {dash : OperationalDashboard} {maxSamples : ℤ}
  {upper : String → String}

theorem exists_earliest {s : PerformanceSnapshot} (member : s ∈ samples) : ∃ first, IsEarliest samples first := by
  cases found : Best.best PerformanceSnapshot.ts samples with
  | none => exact absurd (Best.best_eq_none_iff.mp found ▸ member) List.not_mem_nil
  | some first =>
    obtain ⟨among, least⟩ := Best.isBest_of_best found
    exact ⟨first, among, least⟩

theorem exists_latest {s : PerformanceSnapshot} (member : s ∈ samples) : ∃ last, IsLatest samples last := by
  cases found : Best.best (fun s : PerformanceSnapshot => -s.ts) samples with
  | none => exact absurd (Best.best_eq_none_iff.mp found ▸ member) List.not_mem_nil
  | some last =>
    obtain ⟨among, least⟩ := Best.isBest_of_best found
    exact ⟨last, among, fun s member => neg_le_neg_iff.mp (least s member)⟩

theorem IsEarliest.perm {first : PerformanceSnapshot} (earliest : IsEarliest samples first) (perm : samples'.Perm samples) :
    IsEarliest samples' first := ⟨perm.symm.subset earliest.mem, fun s member => earliest.le s (perm.subset member)⟩

theorem IsLatest.perm {last : PerformanceSnapshot} (latest : IsLatest samples last) (perm : samples'.Perm samples) :
    IsLatest samples' last := ⟨perm.symm.subset latest.mem, fun s member => latest.le s (perm.subset member)⟩

/-- Samples that arrive in time order open with the earliest and close with the latest. -/
theorem arrivedInOrder_of_pairwise (sorted : samples.Pairwise fun s t => s.ts ≤ t.ts)
    (distinct : (samples.map PerformanceSnapshot.ts).Nodup) : ArrivedInOrder samples := by
  intro first last earliest latest
  constructor
  · cases samples with
    | nil => exact absurd earliest.mem List.not_mem_nil
    | cons head rest =>
      have le : head.ts ≤ first.ts := by
        rcases List.mem_cons.mp earliest.mem with here | later
        · exact here ▸ le_rfl
        · exact (List.pairwise_cons.mp sorted).1 first later
      have same := le_antisymm le (earliest.le head List.mem_cons_self)
      rw [List.head?_cons, Option.map_some, List.inj_on_of_nodup_map distinct List.mem_cons_self earliest.mem same]
  · rcases List.eq_nil_or_concat samples with rfl | ⟨init, tip, rfl⟩
    · exact absurd latest.mem List.not_mem_nil
    · rw [List.concat_eq_append] at *
      have le : last.ts ≤ tip.ts := by
        rcases List.mem_append.mp latest.mem with before | here
        · exact (List.pairwise_append.mp sorted).2.2 last before tip (List.mem_singleton_self tip)
        · exact List.mem_singleton.mp here ▸ le_rfl
      have member : tip ∈ init ++ [tip] := List.mem_append_right init (List.mem_singleton_self tip)
      have same := le_antisymm (latest.le tip member) le
      rw [List.getLast?_concat, Option.map_some, List.inj_on_of_nodup_map distinct member latest.mem same]

/-- Samples of one profit are in order however they arrive. -/
theorem arrivedInOrder_of_equal (equal : ∀ s ∈ samples, ∀ t ∈ samples, s.netPnl = t.netPnl) : ArrivedInOrder samples := by
  intro first last earliest latest
  constructor
  · cases shown : samples.head? with
    | none => exact absurd (List.head?_eq_none_iff.mp shown ▸ earliest.mem) List.not_mem_nil
    | some s => rw [Option.map_some, equal s (List.mem_of_head? shown) first earliest.mem]
  · cases shown : samples.getLast? with
    | none => exact absurd (List.getLast?_eq_none_iff.mp shown ▸ latest.mem) List.not_mem_nil
    | some s => rw [Option.map_some, equal s (List.mem_of_getLast? shown) last latest.mem]

/-- The performance samples of the window, as they arrived. -/
def perfIn (period : String) (anchor : DateTime) (calls : List Call) : List PerformanceSnapshot :=
  window PerformanceSnapshot.ts (periodStart period anchor) anchor (calls.filterMap Call.performance)

/-- `summarize` after a run, within the capacity. -/
theorem summarize_after (built : OperationalDashboard.new maxSamples = .ok dash) (fits : Fits upper maxSamples calls)
    (period : String) (asOf : Option DateTime) (now : DateTime) :
    ((machine upper).after dash calls).summarize period asOf now =
      if period ≠ "daily" ∧ period ≠ "weekly" then .error (.valueError "period must be one of: daily, weekly")
      else summary period (periodStart period (asOf.getD now)) (asOf.getD now) (perfIn period (asOf.getD now) calls)
        (window RiskEvent.ts (periodStart period (asOf.getD now)) (asOf.getD now) (calls.filterMap (Call.riskEvent upper)))
        (window StrategyHealthSample.ts (periodStart period (asOf.getD now)) (asOf.getD now) (calls.filterMap Call.healthSample)) := by
  obtain ⟨_, perf, risk, health⟩ : Holds upper _ calls _ := holds_after built calls
  rw [OperationalDashboard.summarize, perf, risk, health, Py.Deque.rtake_of_length_le fits.performances,
    Py.Deque.rtake_of_length_le fits.riskEvents, Py.Deque.rtake_of_length_le fits.healthSamples]
  rfl

theorem Fits.perm (fits : Fits upper maxSamples calls) (perm : calls'.Perm calls) : Fits upper maxSamples calls' where
  performances := (perm.filterMap _).length_eq ▸ fits.performances
  riskEvents := (perm.filterMap _).length_eq ▸ fits.riskEvents
  healthSamples := (perm.filterMap _).length_eq ▸ fits.healthSamples

/-- The calls in the order of their times. -/
def inTimeOrder (calls : List Call) : List Call := calls.insertionSort fun c d => c.ts ≤ d.ts

theorem perfIn_perm {period : String} {anchor : DateTime} (perm : calls'.Perm calls) :
    (perfIn period anchor calls').Perm (perfIn period anchor calls) := (perm.filterMap _).filter _

theorem nodup_perfIn {period : String} {anchor : DateTime} (distinct : ((calls.filterMap Call.performance).map PerformanceSnapshot.ts).Nodup) :
    ((perfIn period anchor calls).map PerformanceSnapshot.ts).Nodup := distinct.sublist (List.filter_sublist.map _)

theorem pairwise_inTimeOrder (period : String) (anchor : DateTime) (calls : List Call) :
    (perfIn period anchor (inTimeOrder calls)).Pairwise fun s t => s.ts ≤ t.ts := by
  have sorted := Best.pairwise_byKey Call.ts calls
  have times : ∀ c s, Call.performance c = some s → c.ts = s.ts := by
    rintro (snapshot | _ | _) s records
    · cases records
      rfl
    · cases records
    · cases records
  refine List.Pairwise.filter _ (List.pairwise_filterMap.mpr (sorted.imp fun {c d} le s recorded t recorded' => ?_))
  rw [← times c s recorded, ← times d t recorded']
  exact le

/-- A summary with other ends is the same when the ends are. -/
theorem Alike.same {result result' : Except PyError PerformanceSummary} (alike : Alike SameButEnds result' result)
    (ends : ∀ out, result = .ok out → OpensAndCloses samples out) (ends' : ∀ out, result' = .ok out → OpensAndCloses samples' out)
    (perm : samples'.Perm samples) (inOrder : ArrivedInOrder samples) (inOrder' : ArrivedInOrder samples') :
    Alike Same result' result := by
  cases alike with
  | error e => exact .error e
  | ok related =>
    rename_i out' out
    obtain ⟨head, tip, change⟩ := ends out rfl
    obtain ⟨head', tip', change'⟩ := ends' out' rfl
    obtain ⟨s, member⟩ : ∃ s, s ∈ samples := by
      cases samples with
      | nil => cases head
      | cons s rest => exact ⟨s, List.mem_cons_self⟩
    obtain ⟨first, earliest⟩ := exists_earliest member
    obtain ⟨last, latest⟩ := exists_latest member
    obtain ⟨opens, closes⟩ := inOrder first last earliest latest
    obtain ⟨opens', closes'⟩ := inOrder' first last (earliest.perm perm) (latest.perm perm)
    rw [head, Option.some_inj] at opens
    rw [tip, Option.some_inj] at closes
    rw [head', Option.some_inj] at opens'
    rw [tip', Option.some_inj] at closes'
    refine .ok ⟨related, opens'.trans opens.symm, closes'.trans closes.symm, ?_⟩
    rw [change', change, opens, closes, opens', closes']

variable {period : String} {asOf : Option DateTime} {now : DateTime}

/-- In every order the summary is the same but for its ends. -/
theorem summarize_perm (built : OperationalDashboard.new maxSamples = .ok dash) (fits : Fits upper maxSamples calls)
    (distinct : ((calls.filterMap Call.healthSample).map fun s => (s.strategyId, s.ts)).Nodup) (perm : calls'.Perm calls) :
    Alike SameButEnds (((machine upper).after dash calls').summarize period asOf now)
      (((machine upper).after dash calls).summarize period asOf now) := by
  rw [summarize_after built fits, summarize_after built (fits.perm perm)]
  split
  · exact .error _
  · exact summary_perm (perfIn_perm perm) ((perm.filterMap _).filter _) ((perm.filterMap _).filter _)
      (distinct.sublist (List.filter_sublist.map _))

theorem summarize_opensAndCloses (built : OperationalDashboard.new maxSamples = .ok dash) (fits : Fits upper maxSamples calls)
    {out : PerformanceSummary} (summed : ((machine upper).after dash calls).summarize period asOf now = .ok out) :
    OpensAndCloses (perfIn period (asOf.getD now) calls) out := by
  rw [summarize_after built fits] at summed
  split at summed
  · cases summed
  · exact summary_opensAndCloses summed

/-- The ends follow time exactly where the samples arrived in order. -/
theorem endsFollowTime_iff (built : OperationalDashboard.new maxSamples = .ok dash) (fits : Fits upper maxSamples calls) :
    EndsFollowTime (perfIn period (asOf.getD now) calls) (((machine upper).after dash calls).summarize period asOf now) ↔
      (period = "daily" ∨ period = "weekly" → ArrivedInOrder (perfIn period (asOf.getD now) calls)) := by
  constructor
  · intro follows valid first last earliest latest
    have returned : ∃ out, ((machine upper).after dash calls).summarize period asOf now = .ok out := by
      rw [summarize_after built fits, if_neg (by tauto)]
      exact summary_returns_iff.mpr (List.ne_nil_of_mem earliest.mem)
    obtain ⟨out, summed⟩ := returned
    obtain ⟨opens, closes⟩ := follows out summed first last earliest latest
    obtain ⟨head, tip, _⟩ := summarize_opensAndCloses built fits summed
    exact ⟨opens ▸ head, closes ▸ tip⟩
  · intro arrived out summed first last earliest latest
    have valid : period = "daily" ∨ period = "weekly" := by
      rw [summarize_after built fits] at summed
      split at summed
      · cases summed
      · rename_i named
        tauto
    obtain ⟨head, tip, _⟩ := summarize_opensAndCloses built fits summed
    obtain ⟨opens, closes⟩ := arrived valid first last earliest latest
    rw [head, Option.some_inj] at opens
    rw [tip, Option.some_inj] at closes
    exact ⟨opens, closes⟩

/-- Two orders in which the samples arrive in order have one summary. -/
theorem summarize_same (built : OperationalDashboard.new maxSamples = .ok dash) (fits : Fits upper maxSamples calls)
    (distinct : ((calls.filterMap Call.healthSample).map fun s => (s.strategyId, s.ts)).Nodup) (perm : calls'.Perm calls)
    (inOrder : period = "daily" ∨ period = "weekly" → ArrivedInOrder (perfIn period (asOf.getD now) calls))
    (inOrder' : period = "daily" ∨ period = "weekly" → ArrivedInOrder (perfIn period (asOf.getD now) calls')) :
    Alike Same (((machine upper).after dash calls').summarize period asOf now)
      (((machine upper).after dash calls).summarize period asOf now) := by
  by_cases valid : period = "daily" ∨ period = "weekly"
  · exact (summarize_perm built fits distinct perm).same (fun _ => summarize_opensAndCloses built fits)
      (fun _ => summarize_opensAndCloses built (fits.perm perm)) (perfIn_perm perm) (inOrder valid) (inOrder' valid)
  · rw [summarize_after built fits, summarize_after built (fits.perm perm), if_pos (by tauto), if_pos (by tauto)]
    exact .error _

/-- A sample of the window can arrive first. -/
theorem exists_perm_head {anchor : DateTime} {s : PerformanceSnapshot} (member : s ∈ perfIn period anchor calls) :
    ∃ calls', calls'.Perm calls ∧ (perfIn period anchor calls').head? = some s := by
  obtain ⟨recorded, inside⟩ := List.mem_filter.mp member
  obtain ⟨c, among, records⟩ := List.mem_filterMap.mp recorded
  obtain ⟨before, after, rfl⟩ := List.append_of_mem among
  refine ⟨c :: (before ++ after), List.perm_middle.symm, ?_⟩
  rw [perfIn, List.filterMap_cons_some records, window, List.filter_cons, if_pos inside, List.head?_cons]

/-- Where every order opens with the earliest sample, all samples have its profit: each of
them arrives first in some order. -/
theorem equal_of_every_order (every : ∀ calls', calls'.Perm calls → ArrivedInOrder (perfIn period (asOf.getD now) calls')) :
    ∀ s ∈ perfIn period (asOf.getD now) calls, ∀ t ∈ perfIn period (asOf.getD now) calls, s.netPnl = t.netPnl := by
  intro s left t right
  obtain ⟨first, earliest⟩ := exists_earliest left
  obtain ⟨last, latest⟩ := exists_latest left
  have equal : ∀ s ∈ perfIn period (asOf.getD now) calls, s.netPnl = first.netPnl := by
    intro s member
    obtain ⟨calls', perm, head⟩ := exists_perm_head member
    have opens := (every calls' perm first last (earliest.perm (perfIn_perm perm)) (latest.perm (perfIn_perm perm))).1
    rw [head, Option.map_some, Option.some_inj] at opens
    exact opens
  rw [equal s left, equal t right]

/-- Whatever arrives in whatever order, all but the ends of a summary is the same. A summary
follows time exactly where the first and the last arrival have the profit of the earliest and
the latest sample, and in every order exactly where all samples have one profit. -/
theorem summaries_follow_time_iff (built : OperationalDashboard.new maxSamples = .ok dash) (fits : Fits upper maxSamples calls)
    (distinct : ((calls.filterMap Call.performance).map PerformanceSnapshot.ts).Nodup)
    (distinct' : ((calls.filterMap Call.healthSample).map fun s => (s.strategyId, s.ts)).Nodup)
    (period : String) (asOf : Option DateTime) (now : DateTime) :
    (∀ calls', calls'.Perm calls → Alike SameButEnds (((machine upper).after dash calls').summarize period asOf now)
      (((machine upper).after dash calls).summarize period asOf now)) ∧
    (Alike Same (((machine upper).after dash calls).summarize period asOf now)
        (((machine upper).after dash (inTimeOrder calls)).summarize period asOf now) ∧
      EndsFollowTime (perfIn period (asOf.getD now) calls) (((machine upper).after dash calls).summarize period asOf now) ↔
      (period = "daily" ∨ period = "weekly" → ArrivedInOrder (perfIn period (asOf.getD now) calls))) ∧
    ((∀ calls', calls'.Perm calls →
        Alike Same (((machine upper).after dash calls').summarize period asOf now)
          (((machine upper).after dash calls).summarize period asOf now) ∧
        EndsFollowTime (perfIn period (asOf.getD now) calls') (((machine upper).after dash calls').summarize period asOf now)) ↔
      (period = "daily" ∨ period = "weekly" → ∀ s ∈ perfIn period (asOf.getD now) calls,
        ∀ t ∈ perfIn period (asOf.getD now) calls, s.netPnl = t.netPnl)) := by
  have perm := List.perm_insertionSort (fun c d : Call => c.ts ≤ d.ts) calls
  refine ⟨fun calls' => summarize_perm built fits distinct', ?_, ?_⟩
  · rw [endsFollowTime_iff built fits]
    refine ⟨And.right, fun arrived => ⟨?_, arrived⟩⟩
    refine summarize_same built (fits.perm perm) ?_ perm.symm (fun _ => ?_) arrived
    · exact (((perm.filterMap _).map _).nodup_iff).mpr distinct'
    · apply arrivedInOrder_of_pairwise
      · exact pairwise_inTimeOrder period (asOf.getD now) calls
      · exact (((perfIn_perm perm).map _).nodup_iff).mpr (nodup_perfIn distinct)
  · constructor
    · intro every valid
      apply equal_of_every_order
      intro calls' perm
      exact (endsFollowTime_iff built (fits.perm perm)).mp (every calls' perm).2 valid
    · intro equal calls' perm
      have arrived : ∀ calls', calls'.Perm calls → period = "daily" ∨ period = "weekly" →
          ArrivedInOrder (perfIn period (asOf.getD now) calls') := by
        intro calls' perm valid
        have among : (perfIn period (asOf.getD now) calls').Perm (perfIn period (asOf.getD now) calls) := perfIn_perm perm
        exact arrivedInOrder_of_equal fun s left t right => equal valid s (among.subset left) t (among.subset right)
      exact ⟨summarize_same built fits distinct' perm (arrived calls (List.Perm.refl calls)) (arrived calls' perm),
        (endsFollowTime_iff built (fits.perm perm)).mpr (arrived calls' perm)⟩

end Arrivals

/-- A snapshot of a profit. -/
noncomputable def snapshotAt (ts : DateTime) (netPnl : ℚ) : PerformanceSnapshot where
  ts := ts
  realizedPnl := netPnl
  unrealizedPnl := 0
  feeTotal := 0
  slippageTotal := 0
  netPnl := netPnl
  maxDrawdown := 0
  closeTrades := 0
  winRate := 0
  sharpeLike := 0
  bySymbol := .empty

/-- A late sample that arrives first. -/
noncomputable def lateFirst : List Call := [.recordPerformance (snapshotAt 1 30), .recordPerformance (snapshotAt 0 10)]

/-- A new dashboard of the default size. -/
def dashboard : OperationalDashboard := { maxSamples := 20000, large := by omega }

theorem summaries_follow_time_iff_lateFirst : ¬ ∀ calls, calls.Perm lateFirst →
    Alike Same (((machine id).after dashboard calls).summarize "daily" (some 2) 2)
      (((machine id).after dashboard lateFirst).summarize "daily" (some 2) 2) ∧
    EndsFollowTime (perfIn "daily" 2 calls) (((machine id).after dashboard calls).summarize "daily" (some 2) 2) := by
  have built : OperationalDashboard.new 20000 = .ok dashboard := rfl
  have fits : Fits id 20000 lateFirst := by
    constructor
    · show 2 ≤ 20000
      omega
    · apply Nat.zero_le
    · apply Nat.zero_le
  have distinct : ((lateFirst.filterMap Call.performance).map PerformanceSnapshot.ts).Nodup := by
    show ([1, 0] : List DateTime).Nodup
    decide
  intro every
  have equal := (summaries_follow_time_iff built fits distinct List.nodup_nil "daily" (some 2) 2).2.2.mp every (.inl rfl)
  have recorded : perfIn "daily" 2 lateFirst = [snapshotAt 1 30, snapshotAt 0 10] := rfl
  have same : (30 : ℚ) = 10 := equal (snapshotAt 1 30) (recorded ▸ List.mem_cons_self) (snapshotAt 0 10)
    (recorded ▸ List.mem_cons_of_mem _ List.mem_cons_self)
  norm_num at same

/-- The summary opens with the late sample and closes with the early one; recorded in time
order it opens and closes the other way round. -/
theorem summary_opens_late : ∃ out out', OperationalDashboard.new 20000 = .ok dashboard ∧
    ((machine id).after dashboard lateFirst).summarize "daily" (some 2) 2 = .ok out ∧
    ((machine id).after dashboard lateFirst.reverse).summarize "daily" (some 2) 2 = .ok out' ∧
    (out.netPnlOpen = 30 ∧ out.netPnlClose = 10) ∧ out'.netPnlOpen = 10 ∧ out'.netPnlClose = 30 :=
  ⟨_, _, rfl, rfl, rfl, ⟨rfl, rfl⟩, rfl, rfl⟩

end CryptoQuant.OperationsDashboard
