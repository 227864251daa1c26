import CryptoQuant.Data.PassingRows

/-!
# Clean rows

The checklist passes the rows of one symbol and time frame whose prices are consistent,
whose volumes are not below zero and whose times increase: with a symbol and a time frame
expected and no time allowed twice, they are the rows that pass. A volume that is `nan`
passes too.
-/

namespace CryptoQuant.Data
set_option autoImplicit false

/-- What is not below zero is at least zero, or `nan`. -/
theorem Number.not_lt_zero_iff (v : Number) : ¬ v < .finite 0 ↔ .finite 0 ≤ v ∨ v = .nan := by
  cases v with
  | nan => exact iff_of_true id (.inr rfl)
  | real v =>
    have order : ¬ Number.real v < .finite 0 ↔ .finite 0 ≤ Number.real v := not_lt (α := WithBot (WithTop ℚ))
    rw [order]
    exact ⟨Or.inl, fun either => either.resolve_right nofun⟩

/-- A row of the symbol and the time frame, at a time, with consistent numbers. -/
structure RowClean (py : Builtins) (accepts : Number → Prop) (s t : String) (row : Row) (at_ : Timestamp) : Prop
    extends RowNumbers accepts row where
  symbol : py.str (row.getD "symbol" (.text "")) = s
  timeframe : py.str (row.getD "timeframe" (.text "")) = t
  ts : row.get? "ts" = some (.datetime at_)

variable {py : Builtins} {s t : String}

/-- A time that comes later. -/
def Timestamp.Before (a b : Timestamp) : Prop := a.aware = b.aware ∧ a.time < b.time

/-! ## Series -/

/-- Clean rows whose times increase. -/
structure Clean (py : Builtins) (accepts : Number → Prop) (s t : String) (rows : List Row) : Prop where
  each : ∀ row ∈ rows, ∃ ts, RowClean py accepts s t row ts
  increasing : (rows.filterMap timeOf).Pairwise Timestamp.Before

theorem RowClean.timeOf {accepts : Number → Prop} {row : Row} {ts : Timestamp} (clean : RowClean py accepts s t row ts) :
    Data.timeOf row = some ts := by
  rw [Data.timeOf, clean.ts]

variable {rows : List Row}

theorem namePasses_some {name expected : String} (some_ : expected ≠ "") : NamePasses name (some expected) ↔ name = expected := by
  rw [NamePasses, Option.getD_some]
  constructor
  · rintro ⟨there, same⟩
    by_contra differs
    exact same ⟨some_, there, differs⟩
  · rintro rfl
    exact ⟨some_, fun differs => differs.2.2 rfl⟩

theorem rowClean_iff (symbol : s ≠ "") (timeframe : t ≠ "") {row : Row} {ts : Timestamp} :
    RowClean py NotNegative s t row ts ↔ RowPasses py (some s) (some t) row ts := by
  constructor
  · rintro ⟨numbers, hasSymbol, hasTimeframe, dated⟩
    exact ⟨numbers, (namePasses_some symbol).mpr hasSymbol, (namePasses_some timeframe).mpr hasTimeframe, dated⟩
  · rintro ⟨numbers, hasSymbol, hasTimeframe, dated⟩
    exact ⟨numbers, (namePasses_some symbol).mp hasSymbol, (namePasses_some timeframe).mp hasTimeframe, dated⟩

/-- No time twice, and none that goes back. -/
theorem Timestamp.before_iff {a b : Timestamp} : a.Before b ↔ Precedes false a b := by
  constructor
  · rintro ⟨alike, later⟩
    refine ⟨alike, later.le, ?_⟩
    rintro ⟨rfl, -⟩
    exact lt_irrefl _ later
  · rintro ⟨alike, later, new⟩
    exact ⟨alike, lt_of_le_of_ne later fun same => new ⟨Timestamp.ext alike same, rfl⟩⟩

/-- Rows are clean exactly if the checklist has nothing against them. -/
theorem clean_iff_passing (symbol : s ≠ "") (timeframe : t ≠ "") :
    Clean py NotNegative s t rows ↔ Passing py {} (some s) (some t) rows := by
  have order : (rows.filterMap timeOf).Pairwise Timestamp.Before ↔ (rows.filterMap timeOf).Pairwise (Timestamp.Precedes false) :=
    List.Pairwise.iff fun _ _ => Timestamp.before_iff
  constructor
  · rintro ⟨each, increasing⟩
    refine ⟨fun row member => ?_, order.mp increasing⟩
    obtain ⟨ts, clean⟩ := each row member
    exact ⟨ts, (rowClean_iff symbol timeframe).mp clean⟩
  · rintro ⟨each, ordered⟩
    refine ⟨fun row member => ?_, order.mpr ordered⟩
    obtain ⟨ts, passes⟩ := each row member
    exact ⟨ts, (rowClean_iff symbol timeframe).mpr passes⟩

/-- The report is clean exactly for clean rows whose volumes are not below zero. -/
theorem validate_passed_iff (symbol : s ≠ "") (timeframe : t ≠ "") :
    (∃ report, ({} : DataQualityChecklist).validate py rows (some s) (some t) = .ok report ∧ report.passed = true) ↔
      Clean py NotNegative s t rows :=
  validate_passes_iff.trans (clean_iff_passing symbol timeframe).symm

/-- Rows are clean when they are clean but for their volumes, and these are at least zero. -/
theorem Clean.congr {accepts accepts' : Number → Prop} (clean : Clean py accepts s t rows)
    (volumes : ∀ row ∈ rows, ∀ volume, (row.getD "volume" (.float (.finite 0))).number? = some volume → accepts volume → accepts' volume) :
    Clean py accepts' s t rows where
  each row member := by
    obtain ⟨ts, ⟨prices, volume, isVolume, accepted⟩, symbol, timeframe, dated⟩ := clean.each row member
    exact ⟨ts, ⟨prices, volume, isVolume, volumes row member volume isVolume accepted⟩, symbol, timeframe, dated⟩
  increasing := clean.increasing

/-- A volume that is `nan` is there, and a float. -/
theorem getD_volume_nan {row : Row} (isNan : (row.getD "volume" (.float (.finite 0))).number? = some .nan) :
    row.get? "volume" = some (.float .nan) := by
  rw [Py.Dict.getD] at isNan
  cases found : row.get? "volume" with
  | none =>
    rw [found] at isNan
    cases isNan
  | some c =>
    rw [found] at isNan
    cases c with
    | float x =>
      cases isNan
      rfl
    | int | bool | none | text | datetime | other => cases isNan

/-! ## Bars -/

/-- The floats of numbers have their values. -/
def Floats (py : Builtins) : Prop := ∀ cell x, cell.number? = some x → py.float cell = .ok x

/-- A number is read as it is. -/
theorem read_number {row : Row} {name : String} {x : Number} (floats : Floats py)
    (found : numberAt row name = some x) : (getItem row name >>= py.float) = .ok x := by
  obtain ⟨cell, there, value⟩ := Option.bind_eq_some_iff.mp found
  rw [getItem_of_get? there]
  exact floats cell x value

/-- The bar of a clean row has its time, and prices in range. -/
theorem RowClean.rowBar {accepts : Number → Prop} {row : Row} {ts : Timestamp} {bar : RowBar}
    (floats : Floats py) (clean : RowClean py accepts s t row ts) (built : Data.rowBar py row = .ok bar) :
    bar.ts = ts ∧ (bar.low ≤ bar.open ∧ bar.open ≤ bar.high) ∧ bar.low ≤ bar.close ∧ bar.close ≤ bar.high := by
  obtain ⟨⟨⟨openPrice, high, low, close, isOpen, isHigh, isLow, isClose, openInside, closeInside⟩, _⟩, _, _, dated⟩ := clean
  have time : (getItem row "ts" >>= datetimeOf) = .ok ts := by
    rw [getItem_of_get? dated]
    rfl
  obtain ⟨_, _, built⟩ := Run.bind_ok.mp built
  obtain ⟨_, _, built⟩ := Run.bind_ok.mp built
  obtain ⟨_, timed, built⟩ := Run.bind_ok.mp built
  obtain ⟨_, opened, built⟩ := Run.bind_ok.mp built
  obtain ⟨_, highest, built⟩ := Run.bind_ok.mp built
  obtain ⟨_, lowest, built⟩ := Run.bind_ok.mp built
  obtain ⟨_, closed, built⟩ := Run.bind_ok.mp built
  obtain ⟨_, _, built⟩ := Run.bind_ok.mp built
  cases time.symm.trans timed
  cases (read_number floats isOpen).symm.trans opened
  cases (read_number floats isHigh).symm.trans highest
  cases (read_number floats isLow).symm.trans lowest
  cases (read_number floats isClose).symm.trans closed
  cases built
  exact ⟨rfl, openInside, closeInside⟩

/-- Clean rows give one bar each, with their times and prices in range. -/
theorem bars_of_clean {accepts : Number → Prop} {bars : List RowBar} (floats : Floats py)
    (each : ∀ row ∈ rows, ∃ ts, RowClean py accepts s t row ts) (mapped : rows.mapM (rowBar py) = .ok bars) :
    bars.length = rows.length ∧ bars.map RowBar.ts = rows.filterMap timeOf ∧
      ∀ bar ∈ bars, (bar.low ≤ bar.open ∧ bar.open ≤ bar.high) ∧ bar.low ≤ bar.close ∧ bar.close ≤ bar.high := by
  induction rows generalizing bars with
  | nil =>
    rw [List.mapM_nil] at mapped
    cases mapped
    exact ⟨rfl, rfl, fun bar member => absurd member List.not_mem_nil⟩
  | cons row rows ih =>
    rw [List.mapM_cons] at mapped
    obtain ⟨bar, built, mapped⟩ := Run.bind_ok.mp mapped
    obtain ⟨later, others, done⟩ := Run.bind_ok.mp mapped
    cases done
    obtain ⟨ts, clean⟩ := each row List.mem_cons_self
    obtain ⟨time, inside⟩ := clean.rowBar floats built
    obtain ⟨length, times, insides⟩ := ih (fun r member => each r (List.mem_cons_of_mem _ member)) others
    refine ⟨?_, ?_, List.forall_mem_cons.mpr ⟨inside, insides⟩⟩
    · rw [List.length_cons, List.length_cons, length]
    · rw [List.map_cons, List.filterMap_cons, clean.timeOf, time, times]

/-- Bars whose times increase are sorted. -/
theorem sortedBars_of_increasing {bars : List RowBar} (increasing : bars.Pairwise fun a b => a.ts.Before b.ts) :
    sortedBars bars = .ok bars := by
  have alike : ∀ a ∈ bars, ∀ b ∈ bars, a.ts.aware = b.ts.aware := by
    intro a left b right
    by_cases same : a = b
    · rw [same]
    · have symm : Std.Symm fun a b : RowBar => a.ts.aware = b.ts.aware := ⟨fun _ _ => Eq.symm⟩
      have aware : bars.Pairwise fun a b => a.ts.aware = b.ts.aware := increasing.imp fun before => before.1
      exact aware.forall left right same
  rw [sortedBars, if_pos alike]
  exact congrArg Except.ok (increasing.imp fun before => before.2.le).insertionSort_eq

/-- `_rows_to_bars` returns what it makes of its rows, one bar each, in order. -/
theorem rowsToBars_ok {save : Option (List Row → Except PyError Unit)} {bars : List RowBar} (symbol : s ≠ "") (timeframe : t ≠ "")
    (floats : Floats py) (returned : rowsToBars py {} save rows s t = .ok bars) :
    bars.length = rows.length ∧ rows.mapM (rowBar py) = .ok bars ∧ bars.Pairwise (fun a b => a.ts.Before b.ts) ∧
      ∀ bar ∈ bars, (bar.low ≤ bar.open ∧ bar.open ≤ bar.high) ∧ bar.low ≤ bar.close ∧ bar.close ≤ bar.high := by
  obtain ⟨report, validated, returned⟩ := Run.bind_ok.mp returned
  obtain ⟨_, checked, returned⟩ := Run.bind_ok.mp returned
  have passed : report.passed = true := by
    rw [← Bool.not_eq_false]
    exact raiseIf_ok.mp checked
  have clean := (validate_passed_iff symbol timeframe).mp ⟨report, validated, passed⟩
  have made : ∃ unsorted, rows.mapM (rowBar py) = .ok unsorted ∧ sortedBars unsorted = .ok bars := by
    cases save with
    | none => exact Run.bind_ok.mp returned
    | some save =>
      obtain ⟨_, _, returned⟩ := Run.bind_ok.mp returned
      exact Run.bind_ok.mp returned
  obtain ⟨unsorted, mapped, sorted⟩ := made
  obtain ⟨length, times, inside⟩ := bars_of_clean floats clean.each mapped
  have increasing : unsorted.Pairwise fun a b => a.ts.Before b.ts := by
    have all := clean.increasing
    rw [← times, List.pairwise_map] at all
    exact all
  rw [sortedBars_of_increasing increasing] at sorted
  cases sorted
  exact ⟨length, mapped, increasing, inside⟩

/-- A name that is not empty was there. -/
theorem get?_of_str {row : Row} {name s : String} (texts : ∀ x, py.str (.text x) = x) (named : s ≠ "")
    (read : py.str (row.getD name (.text "")) = s) : ∃ c, row.get? name = some c := by
  rw [Py.Dict.getD] at read
  cases found : row.get? name with
  | none =>
    rw [found, Option.getD_none, texts] at read
    exact absurd read.symm named
  | some c => exact ⟨c, rfl⟩

/-- A clean row that has a volume becomes a bar. -/
theorem RowClean.builds {accepts : Number → Prop} {row : Row} {ts : Timestamp} {cell : Cell} (symbol : s ≠ "") (timeframe : t ≠ "")
    (texts : ∀ x, py.str (.text x) = x) (floats : Floats py) (clean : RowClean py accepts s t row ts)
    (found : row.get? "volume" = some cell) : ∃ bar, Data.rowBar py row = .ok bar := by
  obtain ⟨⟨⟨openPrice, high, low, close, isOpen, isHigh, isLow, isClose, _⟩, volume, isVolume, _⟩, hasSymbol, hasTimeframe, dated⟩ := clean
  obtain ⟨symbol, symbolThere⟩ := get?_of_str texts symbol hasSymbol
  obtain ⟨timeframe, timeframeThere⟩ := get?_of_str texts timeframe hasTimeframe
  have volumeThere : numberAt row "volume" = some volume := by
    rw [Py.Dict.getD, found, Option.getD_some] at isVolume
    rw [numberAt, found]
    exact isVolume
  have time : (getItem row "ts" >>= datetimeOf) = .ok ts := by
    rw [getItem_of_get? dated]
    rfl
  refine ⟨_, Run.bind_ok.mpr ⟨symbol, getItem_of_get? symbolThere, Run.bind_ok.mpr ⟨timeframe, getItem_of_get? timeframeThere,
    Run.bind_ok.mpr ⟨ts, time, Run.bind_ok.mpr ⟨openPrice, read_number floats isOpen, Run.bind_ok.mpr ⟨high, read_number floats isHigh,
    Run.bind_ok.mpr ⟨low, read_number floats isLow, Run.bind_ok.mpr ⟨close, read_number floats isClose,
    Run.bind_ok.mpr ⟨volume, read_number floats volumeThere, rfl⟩⟩⟩⟩⟩⟩⟩⟩⟩

/-- Clean rows that all have a volume become bars, where they can be stored. -/
theorem rowsToBars_returns (symbol : s ≠ "") (timeframe : t ≠ "") (texts : ∀ x, py.str (.text x) = x)
    (floats : Floats py)
    (clean : Clean py NotNegative s t rows) (volumes : ∀ row ∈ rows, ∃ volume, row.get? "volume" = some volume)
    {save : Option (List Row → Except PyError Unit)} (saved : ∀ store ∈ save, store rows = .ok ()) :
    ∃ bars, rowsToBars py {} save rows s t = .ok bars := by
  obtain ⟨report, validated, passed⟩ := (validate_passed_iff symbol timeframe).mpr clean
  have each : ∀ row ∈ rows, ∃ bar, rowBar py row = .ok bar := by
    intro row member
    obtain ⟨ts, rowClean⟩ := clean.each row member
    obtain ⟨cell, found⟩ := volumes row member
    exact rowClean.builds symbol timeframe texts floats found
  obtain ⟨bars, mapped⟩ := Run.mapM_of_forall each
  obtain ⟨_, times, _⟩ := bars_of_clean floats clean.each mapped
  have increasing : bars.Pairwise fun a b => a.ts.Before b.ts := by
    have all := clean.increasing
    rw [← times, List.pairwise_map] at all
    exact all
  refine ⟨bars, Run.bind_ok.mpr ⟨report, validated, Run.bind_ok.mpr ⟨(), raiseIf_ok.mpr (by rw [passed]; decide), ?_⟩⟩⟩
  cases save with
  | none => exact Run.bind_ok.mpr ⟨bars, mapped, sortedBars_of_increasing increasing⟩
  | some store =>
    exact Run.bind_ok.mpr ⟨(), saved store rfl, Run.bind_ok.mpr ⟨bars, mapped, sortedBars_of_increasing increasing⟩⟩

/-- A report is clean exactly for clean series, unless the only fault of the series is a
volume that is `nan`; and what `_rows_to_bars` returns increases and is consistent. -/
theorem passed_clean_iff (symbol : s ≠ "") (timeframe : t ≠ "") (rows : List Row) :
    (((∃ report, ({} : DataQualityChecklist).validate py rows (some s) (some t) = .ok report ∧ report.passed = true) ↔
        Clean py (fun volume => .finite 0 ≤ volume) s t rows) ↔
      ((∃ row ∈ rows, row.get? "volume" = some (.float .nan)) → ¬ Clean py NotNegative s t rows)) ∧
    (Floats py → ∀ save bars, rowsToBars py {} save rows s t = .ok bars →
      bars.length = rows.length ∧ rows.mapM (rowBar py) = .ok bars ∧ bars.Pairwise (fun a b => a.ts.Before b.ts) ∧
      ∀ bar ∈ bars, (bar.low ≤ bar.open ∧ bar.open ≤ bar.high) ∧ bar.low ≤ bar.close ∧ bar.close ≤ bar.high) := by
  refine ⟨?_, fun floats save bars => rowsToBars_ok symbol timeframe floats⟩
  rw [validate_passed_iff symbol timeframe]
  constructor
  · rintro exact_ ⟨row, member, isNan⟩ clean
    obtain ⟨ts, clean'⟩ := (exact_.mp clean).each row member
    obtain ⟨volume, isVolume, above⟩ := clean'.volume
    rw [Py.Dict.getD, isNan] at isVolume
    cases isVolume
    exact above
  · intro fault
    constructor
    · intro clean
      refine clean.congr fun row member volume isVolume notNegative => ?_
      rcases (Number.not_lt_zero_iff volume).mp notNegative with above | rfl
      · exact above
      · exact absurd clean (fault ⟨row, member, getD_volume_nan isVolume⟩)
    · intro clean
      exact clean.congr fun row _ volume _ above => (Number.not_lt_zero_iff volume).mpr (.inl above)

/-- A row with a volume. -/
def rowWith (volume : Number) : Row where
  items := [("symbol", .text "BTCUSDT"), ("timeframe", .text "1m"), ("ts", .datetime ⟨true, 0⟩), ("open", .float (.finite 100)),
    ("high", .float (.finite 101)), ("low", .float (.finite 99)), ("close", .float (.finite 100)), ("volume", .float volume)]
  nodup := by
    show ["symbol", "timeframe", "ts", "open", "high", "low", "close", "volume"].Nodup
    decide

/-- A row with a volume is judged by what it holds. -/
theorem passed_clean_iff_row : (∃ report, ({} : DataQualityChecklist).validate .ascii [rowWith (.finite 1)] (some "BTCUSDT")
      (some "1m") = .ok report ∧ report.passed = true) ↔
    Clean .ascii (fun volume => .finite 0 ≤ volume) "BTCUSDT" "1m" [rowWith (.finite 1)] := by
  refine (passed_clean_iff (by decide) (by decide) [rowWith (.finite 1)]).1.mpr ?_
  rintro ⟨row, member, isNan⟩
  rw [List.mem_singleton.mp member] at isNan
  cases isNan

/-- A volume that is `nan` passes. -/
theorem nan_volume_passes : (∃ report, ({} : DataQualityChecklist).validate .ascii [rowWith .nan] (some "BTCUSDT")
      (some "1m") = .ok report ∧ report.passed = true) ∧
    ¬ Clean .ascii (fun volume => .finite 0 ≤ volume) "BTCUSDT" "1m" [rowWith .nan] := by
  refine ⟨⟨{ totalRows := 1, issueCount := 0, issues := [] }, by decide +kernel, rfl⟩, fun clean => ?_⟩
  obtain ⟨ts, row⟩ := clean.each (rowWith .nan) (List.mem_singleton_self _)
  obtain ⟨volume, isVolume, above⟩ := row.volume
  cases isVolume
  exact above

end CryptoQuant.Data
