import CryptoQuant.Data.ColumnOrder
import CryptoQuant.Data.FileSources
import CryptoQuant.Data.PassingRows
import CryptoQuant.Lib.StableSort

/-!
# Windows of a file

A fetch normalises all rows of a file but judges only those it picks. What the checklist
accepts it accepts of a part too, so a fetch that succeeds fixes the answer to every
narrower one, and a history can be fetched in pages.
-/

namespace CryptoQuant.Data
set_option autoImplicit false

variable {py : Builtins}

/-! ## Windows -/

/-- The time is between the bounds. -/
def RowQuery.Contains (q : RowQuery) (ts : Timestamp) : Prop :=
  (∀ start ∈ q.start, start.time ≤ ts.time) ∧ ∀ «end» ∈ q.end, ts.time ≤ «end».time

instance (q : RowQuery) (ts : Timestamp) : Decidable (q.Contains ts) := inferInstanceAs (Decidable (_ ∧ _))

/-- The bounds are aware, as the times of a dictionary are. -/
def RowQuery.Aware (q : RowQuery) : Prop :=
  (∀ start ∈ q.start, start.aware = true) ∧ ∀ «end» ∈ q.end, «end».aware = true

/-- The first query asks for a part of what the second asks for. -/
structure RowQuery.Within (q' q : RowQuery) : Prop where
  symbol : q'.symbol = q.symbol
  timeframe : q'.timeframe = q.timeframe
  start : ∀ start ∈ q.start, ∃ later ∈ q'.start, start.time ≤ later.time
  «end» : ∀ «end» ∈ q.end, ∃ sooner ∈ q'.end, sooner.time ≤ «end».time

section Times
variable {q q' : RowQuery} {ts : Timestamp}

theorem RowQuery.Within.contains (within : q'.Within q) (inside : q'.Contains ts) : q.Contains ts := by
  constructor
  · intro start bound
    obtain ⟨later, bound', le⟩ := within.start start bound
    exact le.trans (inside.1 later bound')
  · intro «end» bound
    obtain ⟨sooner, bound', le⟩ := within.end «end» bound
    exact (inside.2 sooner bound').trans le

theorem before_ok {a b : Timestamp} {answer : Bool} (compared : a.before b = .ok answer) :
    answer = decide (a.time < b.time) := by
  unfold Timestamp.before at compared
  split at compared
  · exact (Except.ok.inj compared).symm
  · cases compared

theorem before_of_aware {a b : Timestamp} (left : a.aware = true) (right : b.aware = true) :
    a.before b = .ok (decide (a.time < b.time)) := if_pos (left.trans right.symm)

theorem early_ok {early : Bool} (answered : q.early ts = .ok early) :
    early = false ↔ ∀ start ∈ q.start, start.time ≤ ts.time := by
  unfold RowQuery.early at answered
  cases bound : q.start with
  | none =>
    rw [bound] at answered
    cases answered
    exact iff_of_true rfl nofun
  | some start =>
    rw [bound] at answered
    rw [before_ok answered, decide_eq_false_iff_not, not_lt]
    simp only [Option.mem_def, Option.some.injEq, forall_eq']

theorem late_ok {late : Bool} (answered : q.late ts = .ok late) :
    late = false ↔ ∀ «end» ∈ q.end, ts.time ≤ «end».time := by
  unfold RowQuery.late at answered
  cases bound : q.end with
  | none =>
    rw [bound] at answered
    cases answered
    exact iff_of_true rfl nofun
  | some «end» =>
    rw [bound] at answered
    rw [before_ok answered, decide_eq_false_iff_not, not_lt]
    simp only [Option.mem_def, Option.some.injEq, forall_eq']

/-- The tests of the time decide the window, where they answer. -/
theorem holdsTime_ok {holds : Bool} (answered : q.holdsTime ts = .ok holds) : holds = decide (q.Contains ts) := by
  unfold RowQuery.holdsTime at answered
  obtain ⟨early, compared, answered⟩ := Run.bind_ok.mp answered
  have start := early_ok compared
  cases early with
  | true =>
    cases answered
    exact (decide_eq_false fun inside => Bool.true_eq_false.mp (start.mpr inside.1)).symm
  | false =>
    obtain ⟨late, compared, answered⟩ := Run.bind_ok.mp answered
    have «end» := late_ok compared
    cases answered
    cases late with
    | true => exact (decide_eq_false fun inside => Bool.true_eq_false.mp («end».mpr inside.2)).symm
    | false => exact (decide_eq_true ⟨start.mp rfl, «end».mp rfl⟩).symm

/-- They answer where both sides are aware. -/
theorem holdsTime_of_aware (aware : q.Aware) (utc : ts.aware = true) : q.holdsTime ts = .ok (decide (q.Contains ts)) := by
  have start : ∃ early, q.early ts = .ok early := by
    unfold RowQuery.early
    cases bound : q.start with
    | none => exact ⟨false, rfl⟩
    | some start => exact ⟨_, before_of_aware utc (aware.1 start bound)⟩
  have «end» : ∃ late, q.late ts = .ok late := by
    unfold RowQuery.late
    cases bound : q.end with
    | none => exact ⟨false, rfl⟩
    | some «end» => exact ⟨_, before_of_aware (aware.2 «end» bound) utc⟩
  obtain ⟨early, compared⟩ := start
  obtain ⟨late, compared'⟩ := «end»
  have answers : ∃ holds, q.holdsTime ts = .ok holds := by
    unfold RowQuery.holdsTime
    rw [compared]
    cases early with
    | true => exact ⟨false, rfl⟩
    | false => exact ⟨!late, Run.bind_ok.mpr ⟨false, rfl, Run.bind_ok.mpr ⟨late, compared', rfl⟩⟩⟩
  obtain ⟨holds, answered⟩ := answers
  rw [answered, holdsTime_ok answered]

end Times

/-! ## The rows that are picked -/

/-- The dictionary gives aware times only. -/
def AwareTimes (py : Builtins) (dictionary : DataDictionary) : Prop :=
  ∀ row normalized ts, dictionary.normalize py row = .ok normalized → timeOf normalized = some ts → ts.aware = true

/-- The row is not at a time outside the window. -/
def RowQuery.rowInside (q : RowQuery) (row : Row) : Bool :=
  match timeOf row with
  | some ts => decide (q.Contains ts)
  | none => true

section Rows
variable {q q' : RowQuery} {dictionary : DataDictionary}

theorem rowInside_of_time {row : Row} {ts : Timestamp} (time : timeOf row = some ts) :
    q.rowInside row = decide (q.Contains ts) := by
  rw [RowQuery.rowInside, time]

/-- A narrower query keeps a row exactly if the wider one does and the row is in its window. -/
theorem keep_within (within : q'.Within q) (aware : q'.Aware) {normalized : Row} {keep : Bool}
    (utc : ∀ ts, timeOf normalized = some ts → ts.aware = true) (kept : q.keep normalized = .ok keep) :
    q'.keep normalized = .ok (keep && q'.rowInside normalized) := by
  unfold RowQuery.keep at kept ⊢
  rw [within.symbol, within.timeframe]
  obtain ⟨symbol, foundSymbol, kept⟩ := Run.bind_ok.mp kept
  rw [foundSymbol]
  refine Run.bind_ok.mpr ⟨symbol, rfl, ?_⟩
  by_cases other : symbol ≠ .text q.symbol
  · rw [if_pos other] at kept ⊢
    cases kept
    rfl
  rw [if_neg other] at kept ⊢
  obtain ⟨timeframe, foundTimeframe, kept⟩ := Run.bind_ok.mp kept
  refine Run.bind_ok.mpr ⟨timeframe, foundTimeframe, ?_⟩
  by_cases other : timeframe ≠ .text q.timeframe
  · rw [if_pos other] at kept ⊢
    cases kept
    rfl
  rw [if_neg other] at kept ⊢
  obtain ⟨cell, found, kept⟩ := Run.bind_ok.mp kept
  refine Run.bind_ok.mpr ⟨cell, found, ?_⟩
  have there := getItem_ok.mp found
  cases cell with
  | datetime ts =>
    have time : timeOf normalized = some ts := by rw [timeOf, there]
    have holds := holdsTime_ok kept
    show q'.holdsTime ts = _
    rw [holdsTime_of_aware aware (utc ts time), rowInside_of_time time, holds]
    by_cases inside : q'.Contains ts
    · rw [decide_eq_true inside, decide_eq_true (within.contains inside)]
      rfl
    · rw [decide_eq_false inside, Bool.and_false]
  | none | text _ | int _ | bool _ | float _ | other _ =>
    have time : timeOf normalized = none := by rw [timeOf, there]
    cases kept
    rw [RowQuery.rowInside, time]
    rfl

/-- The rows that a narrower query picks. -/
theorem pickRows_within (within : q'.Within q) (aware : q'.Aware) (times : AwareTimes py dictionary) {rows picked : List Row}
    (done : q.pickRows py dictionary rows = .ok picked) :
    q'.pickRows py dictionary rows = .ok (picked.filter q'.rowInside) := by
  unfold RowQuery.pickRows at done ⊢
  induction rows using List.reverseRecOn generalizing picked with
  | nil =>
    cases done
    rfl
  | append_singleton rows row ih =>
    obtain ⟨before, init, step⟩ := Run.foldlM_snoc_ok.mp done
    refine Run.foldlM_snoc_ok.mpr ⟨_, ih init, ?_⟩
    unfold RowQuery.pick at step ⊢
    obtain ⟨normalized, norm, step⟩ := Run.bind_ok.mp step
    obtain ⟨keep, kept, step⟩ := Run.bind_ok.mp step
    have utc (ts : Timestamp) (time : timeOf normalized = some ts) : ts.aware = true := times row normalized ts norm time
    refine Run.bind_ok.mpr ⟨normalized, norm, Run.bind_ok.mpr ⟨_, keep_within within aware utc kept, ?_⟩⟩
    cases step
    cases keep with
    | false => rfl
    | true =>
      rw [if_pos rfl, List.filter_append, List.filter_singleton]
      cases q'.rowInside normalized with
      | true => rfl
      | false => exact congrArg Except.ok (List.append_nil _).symm

end Rows

/-! ## The bars -/

theorem rowBar_time {row : Row} {bar : RowBar} (built : rowBar py row = .ok bar) : timeOf row = some bar.ts := by
  obtain ⟨_, _, built⟩ := Run.bind_ok.mp built
  obtain ⟨_, _, built⟩ := Run.bind_ok.mp built
  obtain ⟨ts, timed, built⟩ := Run.bind_ok.mp built
  obtain ⟨_, _, built⟩ := Run.bind_ok.mp built
  obtain ⟨_, _, built⟩ := Run.bind_ok.mp built
  obtain ⟨_, _, built⟩ := Run.bind_ok.mp built
  obtain ⟨_, _, built⟩ := Run.bind_ok.mp built
  obtain ⟨_, _, built⟩ := Run.bind_ok.mp built
  cases built
  obtain ⟨cell, found, dated⟩ := Run.bind_ok.mp timed
  have there := getItem_ok.mp found
  cases cell with
  | datetime at_ =>
    cases dated
    rw [timeOf, there]
  | none | text _ | int _ | bool _ | float _ | other _ => cases dated

theorem storedBars_ok {save : Option (List Row → Except PyError Unit)} {rows : List Row} {bars : List RowBar} :
    storedBars py save rows = .ok bars ↔ (∀ store ∈ save, store rows = .ok ()) ∧
      ∃ unsorted, rows.mapM (rowBar py) = .ok unsorted ∧ sortedBars unsorted = .ok bars := by
  cases save with
  | none => exact Run.bind_ok.trans (iff_and_self.mpr fun _ => nofun)
  | some store =>
    constructor
    · intro returned
      obtain ⟨⟨⟩, saved, returned⟩ := Run.bind_ok.mp returned
      exact ⟨fun _ same => Option.some.inj same ▸ saved, Run.bind_ok.mp returned⟩
    · rintro ⟨saved, unsorted, mapped, sorted⟩
      exact Run.bind_ok.mpr ⟨(), saved store rfl, Run.bind_ok.mpr ⟨unsorted, mapped, sorted⟩⟩

/-- What it takes for `_rows_to_bars` to return. -/
theorem fileBars_ok {source : Option DataQualityChecklist} {save : Option (List Row → Except PyError Unit)} {rows : List Row}
    {s t : String} {bars : List RowBar} : fileBars py source save rows s t = .ok bars ↔
      (∀ checklist ∈ source, Passing py checklist (some s) (some t) rows) ∧ storedBars py save rows = .ok bars := by
  cases source with
  | none => exact iff_and_self.mpr fun _ => nofun
  | some checklist =>
    constructor
    · intro returned
      obtain ⟨report, validated, returned⟩ := Run.bind_ok.mp returned
      obtain ⟨_, checked, returned⟩ := Run.bind_ok.mp returned
      have passed : report.passed = true := by
        rw [← Bool.not_eq_false]
        exact raiseIf_ok.mp checked
      refine ⟨fun _ same => Option.some.inj same ▸ validate_passes_iff.mp ⟨report, validated, passed⟩, returned⟩
    · rintro ⟨passing, returned⟩
      obtain ⟨report, validated, passed⟩ := validate_passes_iff.mpr (passing checklist rfl)
      exact Run.bind_ok.mpr ⟨report, validated, Run.bind_ok.mpr ⟨(), raiseIf_ok.mpr (by rw [passed]; decide), returned⟩⟩

/-- A part of bars that can be sorted. -/
theorem sortedBars_filter {bars sorted : List RowBar} (p : RowBar → Bool) (done : sortedBars bars = .ok sorted) :
    sortedBars (bars.filter p) = .ok (sorted.filter p) := by
  unfold sortedBars at done ⊢
  split at done
  · rename_i alike
    cases done
    rw [if_pos fun a left b right => alike a (List.mem_of_mem_filter left) b (List.mem_of_mem_filter right)]
    have total : Std.Total fun a b : RowBar => a.ts.time ≤ b.ts.time := ⟨fun a b => le_total a.ts.time b.ts.time⟩
    have trans : IsTrans RowBar fun a b => a.ts.time ≤ b.ts.time := ⟨fun _ _ _ => le_trans⟩
    exact congrArg Except.ok (StableSort.filter_insertionSort p bars).symm
  · cases done

/-- The bars of the rows in a window. -/
theorem fileBars_within {source : Option DataQualityChecklist} {save : Option (List Row → Except PyError Unit)} {rows : List Row}
    {s t : String} {bars : List RowBar} (q : RowQuery) (stores : ∀ store ∈ save, ∀ rows, store rows = .ok ())
    (returned : fileBars py source save rows s t = .ok bars) :
    fileBars py source save (rows.filter q.rowInside) s t = .ok (bars.filter fun bar => q.Contains bar.ts) := by
  obtain ⟨passing, returned⟩ := fileBars_ok.mp returned
  obtain ⟨-, unsorted, mapped, sorted⟩ := storedBars_ok.mp returned
  have agree (row : Row) (bar : RowBar) (built : rowBar py row = .ok bar) : q.rowInside row = decide (q.Contains bar.ts) :=
    rowInside_of_time (rowBar_time built)
  refine fileBars_ok.mpr ⟨fun checklist is_ => (passing checklist is_).sublist List.filter_sublist, ?_⟩
  exact storedBars_ok.mpr ⟨fun store is_ => stores store is_ _, _, Run.mapM_filter agree mapped, sortedBars_filter _ sorted⟩

/-! ## Fetches -/

/-- A date that is read is aware, where `fromtimestamp` with a time zone is. -/
theorem parseDatetime_aware (seconds : ∀ x ts, py.fromTimestamp x = .ok ts → ts.aware = true) {raw : Cell} {ts : Timestamp}
    (parsed : parseDatetime py raw = .ok ts) : ts.aware = true := by
  unfold parseDatetime at parsed
  dsimp only at parsed
  split at parsed
  · obtain ⟨number, -, parsed⟩ := Run.bind_ok.mp parsed
    split at parsed
    · exact seconds _ ts parsed
    · exact seconds _ ts parsed
  · obtain ⟨read, -, parsed⟩ := Run.bind_ok.mp parsed
    cases parsed
    split
    · assumption
    · rfl

/-- The field `ts` of the default dictionary. -/
def tsField : FieldSpec := { name := "ts", pythonType := .datetime, aliases := ["timestamp", "open_time", "time"] }

theorem read_tsField (seconds : ∀ x ts, py.fromTimestamp x = .ok ts → ts.aware = true) {raw : Cell} {ts : Timestamp}
    (read : tsField.read py raw = .ok (.datetime ts)) : ts.aware = true := by
  unfold FieldSpec.read at read
  split at read
  · cases read
  · obtain ⟨ts, parsed, done⟩ := Run.bind_ok.mp read
    cases done
    exact parseDatetime_aware seconds parsed

/-- The times of the default dictionary are aware. -/
theorem awareTimes_barV1 (seconds : ∀ x ts, py.fromTimestamp x = .ok ts → ts.aware = true) :
    AwareTimes py barV1Dictionary := by
  intro row normalized ts norm time
  rw [normalize_eq] at norm
  obtain ⟨-, rfl⟩ := none_of_outcome norm
  let raw := reading barV1Dictionary.aliasMap row "ts"
  have value : valueFor py barV1Dictionary.fields "ts" raw = some (valueOf py tsField raw) := rfl
  rw [timeOf, get?_written, value, valueOf] at time
  cases read : tsField.read py raw with
  | error e =>
    rw [read] at time
    cases time
  | ok cell =>
    rw [read] at time
    cases cell with
    | datetime at_ =>
      cases time
      exact read_tsField seconds read
    | none | text _ | int _ | bool _ | float _ | other _ => cases time

section Fetch
variable {source : FileBarDataSource} {q q' : RowQuery} {bars : List RowBar}

/-- A fetch that succeeds answers every narrower one. -/
theorem fetchBars_within (times : AwareTimes py source.dictionary) (stores : ∀ store ∈ source.save, ∀ rows, store rows = .ok ())
    (fetched : source.fetchBars py q = .ok bars) (within : q'.Within q) (aware : q'.Aware) :
    source.fetchBars py q' = .ok (bars.filter fun bar => q'.Contains bar.ts) := by
  obtain ⟨rows, loaded, fetched⟩ := Run.bind_ok.mp fetched
  obtain ⟨picked, done, returned⟩ := Run.bind_ok.mp fetched
  refine Run.bind_ok.mpr ⟨rows, loaded, Run.bind_ok.mpr ⟨_, pickRows_within within aware times done, ?_⟩⟩
  rw [within.symbol, within.timeframe]
  exact fileBars_within q' stores returned

theorem within_refl (q : RowQuery) : q.Within q where
  symbol := rfl
  timeframe := rfl
  start start bound := ⟨start, bound, le_rfl⟩
  «end» «end» bound := ⟨«end», bound, le_rfl⟩

/-- What is fetched is in the window, and in order. -/
theorem fetchBars_inside (times : AwareTimes py source.dictionary) (stores : ∀ store ∈ source.save, ∀ rows, store rows = .ok ())
    (fetched : source.fetchBars py q = .ok bars) (aware : q.Aware) : ∀ bar ∈ bars, q.Contains bar.ts := by
  have again := fetchBars_within times stores fetched (within_refl q) aware
  have same : bars = bars.filter fun bar => q.Contains bar.ts := Except.ok.inj (fetched.symm.trans again)
  intro bar member
  rw [same] at member
  exact of_decide_eq_true (List.mem_filter.mp member).2

theorem fetchBars_sorted (fetched : source.fetchBars py q = .ok bars) : bars.Pairwise fun a b => a.ts.time ≤ b.ts.time := by
  obtain ⟨rows, -, fetched⟩ := Run.bind_ok.mp fetched
  obtain ⟨picked, -, returned⟩ := Run.bind_ok.mp fetched
  obtain ⟨-, returned⟩ := fileBars_ok.mp returned
  obtain ⟨-, unsorted, -, sorted⟩ := storedBars_ok.mp returned
  have total : Std.Total fun a b : RowBar => a.ts.time ≤ b.ts.time := ⟨fun a b => le_total a.ts.time b.ts.time⟩
  have trans : IsTrans RowBar fun a b => a.ts.time ≤ b.ts.time := ⟨fun _ _ _ => le_trans⟩
  unfold sortedBars at sorted
  split at sorted
  · cases sorted
    exact List.pairwise_insertionSort _ unsorted
  · cases sorted

/-- A query in pages: up to the first cut, from there to the next, and so on. -/
def RowQuery.pages (q : RowQuery) : List DateTime → List RowQuery
  | [] => [q]
  | cut :: cuts => { q with «end» := some ⟨true, cut⟩ } :: RowQuery.pages { q with start := some ⟨true, cut + 1⟩ } cuts

/-- A cut that leaves no part of the window out, and adds none. -/
def RowQuery.Cuts (q : RowQuery) (cut : DateTime) : Prop :=
  (∀ start ∈ q.start, start.time ≤ cut + 1) ∧ ∀ «end» ∈ q.end, cut ≤ «end».time

theorem after_iff {cut time : DateTime} : cut + 1 ≤ time ↔ ¬ time ≤ cut := Int.add_one_le_iff.trans not_le.symm

/-- Sorted bars are those up to a time and those after it. -/
theorem front_append_back (sorted : bars.Pairwise fun a b => a.ts.time ≤ b.ts.time) (cut : DateTime) :
    bars = (bars.filter fun bar => bar.ts.time ≤ cut) ++ bars.filter fun bar => cut + 1 ≤ bar.ts.time := by
  simp only [after_iff]
  induction bars with
  | nil => rfl
  | cons bar bars ih =>
    obtain ⟨first, sorted⟩ := List.pairwise_cons.mp sorted
    rw [List.filter_cons, List.filter_cons]
    by_cases early : bar.ts.time ≤ cut
    · rw [if_pos (decide_eq_true early), if_neg (by rw [decide_eq_true_eq]; exact not_not.mpr early), List.cons_append,
        ← ih sorted]
    · have later : ∀ b ∈ bars, ¬ b.ts.time ≤ cut := fun b member le => early ((first b member).trans le)
      have none : bars.filter (fun b => b.ts.time ≤ cut) = [] :=
        List.filter_eq_nil_iff.mpr fun b member kept => later b member (of_decide_eq_true kept)
      have all : bars.filter (fun b => ¬ b.ts.time ≤ cut) = bars :=
        List.filter_eq_self.mpr fun b member => decide_eq_true (later b member)
      rw [if_neg (by rw [decide_eq_true_eq]; exact early), if_pos (decide_eq_true early), none, all]
      rfl

/-- A fetch cut in two. -/
theorem fetchBars_cut (times : AwareTimes py source.dictionary) (stores : ∀ store ∈ source.save, ∀ rows, store rows = .ok ())
    (fetched : source.fetchBars py q = .ok bars) (aware : q.Aware) {cut : DateTime} (cuts : q.Cuts cut) :
    ∃ front back, source.fetchBars py { q with «end» := some ⟨true, cut⟩ } = .ok front ∧
      source.fetchBars py { q with start := some ⟨true, cut + 1⟩ } = .ok back ∧ bars = front ++ back := by
  have inside := fetchBars_inside times stores fetched aware
  have front : ({ q with «end» := some ⟨true, cut⟩ } : RowQuery).Within q := by
    refine ⟨rfl, rfl, fun start bound => ⟨start, bound, le_rfl⟩, fun «end» bound => ⟨_, rfl, cuts.2 «end» bound⟩⟩
  have back : ({ q with start := some ⟨true, cut + 1⟩ } : RowQuery).Within q := by
    refine ⟨rfl, rfl, fun start bound => ⟨_, rfl, cuts.1 start bound⟩, fun «end» bound => ⟨«end», bound, le_rfl⟩⟩
  have frontAware : ({ q with «end» := some ⟨true, cut⟩ } : RowQuery).Aware :=
    ⟨aware.1, fun «end» bound => Option.some.inj bound ▸ rfl⟩
  have backAware : ({ q with start := some ⟨true, cut + 1⟩ } : RowQuery).Aware :=
    ⟨fun start bound => Option.some.inj bound ▸ rfl, aware.2⟩
  refine ⟨_, _, fetchBars_within times stores fetched front frontAware,
    fetchBars_within times stores fetched back backAware, ?_⟩
  have early : bars.filter (fun bar => ({ q with «end» := some ⟨true, cut⟩ } : RowQuery).Contains bar.ts) =
      bars.filter fun bar => bar.ts.time ≤ cut := by
    refine List.filter_congr fun bar member => decide_eq_decide.mpr ⟨fun both => both.2 _ rfl, fun before => ?_⟩
    exact ⟨(inside bar member).1, fun «end» bound => Option.some.inj bound ▸ before⟩
  have late : bars.filter (fun bar => ({ q with start := some ⟨true, cut + 1⟩ } : RowQuery).Contains bar.ts) =
      bars.filter fun bar => cut + 1 ≤ bar.ts.time := by
    refine List.filter_congr fun bar member => decide_eq_decide.mpr ⟨fun both => both.1 _ rfl, fun after => ?_⟩
    exact ⟨fun start bound => Option.some.inj bound ▸ after, (inside bar member).2⟩
  rw [early, late]
  exact front_append_back (fetchBars_sorted fetched) cut

/-- A fetch in pages. -/
theorem fetchBars_pages (times : AwareTimes py source.dictionary) (stores : ∀ store ∈ source.save, ∀ rows, store rows = .ok ())
    {cuts : List DateTime} (ordered : cuts.Pairwise (· ≤ ·)) (each : ∀ cut ∈ cuts, q.Cuts cut) (aware : q.Aware)
    (fetched : source.fetchBars py q = .ok bars) :
    ∃ parts, (q.pages cuts).mapM (source.fetchBars py) = .ok parts ∧ parts.flatten = bars := by
  induction cuts generalizing q bars with
  | nil => exact ⟨[bars], by rw [RowQuery.pages, List.mapM_cons, fetched]; rfl, List.append_nil bars⟩
  | cons cut cuts ih =>
    obtain ⟨front, back, first, rest, split⟩ := fetchBars_cut times stores fetched aware (each cut List.mem_cons_self)
    obtain ⟨before, ordered⟩ := List.pairwise_cons.mp ordered
    have later : ∀ c ∈ cuts, ({ q with start := some ⟨true, cut + 1⟩ } : RowQuery).Cuts c := by
      intro c member
      refine ⟨fun start bound => ?_, (each c (List.mem_cons_of_mem _ member)).2⟩
      rw [← Option.some.inj bound]
      exact Int.add_le_add_right (before c member) 1
    obtain ⟨parts, pages, joined⟩ := ih ordered later ⟨fun start bound => Option.some.inj bound ▸ rfl, aware.2⟩ rest
    refine ⟨front :: parts, ?_, by rw [List.flatten_cons, joined, split]⟩
    rw [RowQuery.pages, List.mapM_cons, first, pages]
    rfl

/-- **Windows of a file.** Where a fetch succeeds, every narrower one does and returns the
bars of its window, and the pages of the query joined are what the query returns. -/
theorem fetch_windows (times : AwareTimes py source.dictionary) (stores : ∀ store ∈ source.save, ∀ rows, store rows = .ok ())
    (fetched : source.fetchBars py q = .ok bars) (aware : q.Aware) :
    (∀ q' : RowQuery, q'.Within q → q'.Aware →
      source.fetchBars py q' = .ok (bars.filter fun bar => q'.Contains bar.ts)) ∧
    ∀ cuts : List DateTime, cuts.Pairwise (· ≤ ·) → (∀ cut ∈ cuts, q.Cuts cut) →
      ∃ parts, (q.pages cuts).mapM (source.fetchBars py) = .ok parts ∧ parts.flatten = bars :=
  ⟨fun _ within aware' => fetchBars_within times stores fetched within aware',
    fun _ ordered each => fetchBars_pages times stores ordered each aware fetched⟩

end Fetch

/-- A line of a file, at a time in seconds. -/
def line (seconds : String) : Row where
  items := [("symbol", .text "BTCUSDT"), ("timeframe", .text "1m"), ("ts", .text seconds), ("open", .float (.finite 100)),
    ("high", .float (.finite 101)), ("low", .float (.finite 99)), ("close", .float (.finite 100)), ("volume", .float (.finite 1))]
  nodup := by
    show ["symbol", "timeframe", "ts", "open", "high", "low", "close", "volume"].Nodup
    decide

/-- Three minutes. -/
def minutes : FileBarDataSource := csvBarDataSource {} (.ok [line "60", line "120", line "180"]) barV1Dictionary (some {}) none

/-- Three minutes, from the second one on, and in two pages. -/
theorem fetch_windows_minutes : ∃ bars, minutes.fetchBars .ascii { symbol := "BTCUSDT", timeframe := "1m" } = .ok bars ∧
    bars.length = 3 ∧
    minutes.fetchBars .ascii { symbol := "BTCUSDT", timeframe := "1m", start := some ⟨true, 120000000⟩ } =
      .ok (bars.filter fun bar => 120000000 ≤ bar.ts.time) ∧
    ∃ parts, (RowQuery.pages { symbol := "BTCUSDT", timeframe := "1m" } [120000000]).mapM (minutes.fetchBars .ascii) =
      .ok parts ∧ parts.flatten = bars := by
  have seconds (x : ℚ) (ts : Timestamp) (read : Builtins.ascii.fromTimestamp x = .ok ts) : ts.aware = true :=
    Except.ok.inj read ▸ rfl
  have times : AwareTimes .ascii minutes.dictionary := awareTimes_barV1 seconds
  have stores : ∀ store ∈ minutes.save, ∀ rows, store rows = .ok () := nofun
  obtain ⟨bars, fetched, three⟩ := Run.endsIn_iff.mp
    (show Run.endsIn (minutes.fetchBars .ascii { symbol := "BTCUSDT", timeframe := "1m" }) (fun bars => bars.length == 3) = true
      by decide +kernel)
  obtain ⟨narrow, pages⟩ := fetch_windows times stores fetched ⟨nofun, nofun⟩
  refine ⟨bars, fetched, beq_iff_eq.mp three, ?_, pages [120000000] (List.pairwise_singleton _ _) ?_⟩
  · have aware : ∀ start ∈ some (⟨true, 120000000⟩ : Timestamp), start.aware = true := by
      rintro start ⟨⟩
      rfl
    rw [narrow { symbol := "BTCUSDT", timeframe := "1m", start := some ⟨true, 120000000⟩ } ⟨rfl, rfl, nofun, nofun⟩ ⟨aware, nofun⟩]
    congr 1
    refine List.filter_congr fun bar _ => decide_eq_decide.mpr ⟨fun inside => inside.1 _ rfl, fun after => ?_⟩
    refine ⟨?_, nofun⟩
    rintro start ⟨⟩
    exact after
  · exact fun cut _ => ⟨nofun, nofun⟩

end CryptoQuant.Data
