import CryptoQuant.Data.Rows
import Mathlib.Data.List.Sort

/-!
# The quality checklist

`DataQualityChecklist` of `data/checklist.py`, and `_rows_to_bars` of `data/sources.py`,
which turns the rows that pass it into bars.
-/

namespace CryptoQuant.Data
set_option autoImplicit false

/-- `DataQualityIssue`. -/
structure DataQualityIssue where
  rowIndex : ℕ
  code : String
  message : String
deriving DecidableEq, Repr

/-- `DataQualityReport`. -/
structure DataQualityReport where
  totalRows : ℕ
  issueCount : ℕ
  issues : List DataQualityIssue
deriving DecidableEq, Repr

/-- `passed`. -/
def DataQualityReport.passed (report : DataQualityReport) : Bool := report.issueCount == 0

/-- `DataQualityChecklist`. -/
structure DataQualityChecklist where
  allowDuplicateTs : Bool := false

/-! ## Cells -/

/-- `isinstance(x, (int, float))`. -/
def Cell.isNumeric (x : Cell) : Bool := x.number?.isSome

/-- Both are numbers, and the first is less. -/
def Cell.below (x y : Cell) : Bool :=
  match x.number?, y.number? with
  | some x, some y => decide (x < y)
  | _, _ => false

/-- All three are numbers, and `low <= x <= high`. -/
def Cell.within (low x high : Cell) : Bool :=
  match low.number?, x.number?, high.number? with
  | some low, some x, some high => decide (low ≤ x ∧ x ≤ high)
  | _, _, _ => false

/-! ## Validation -/

/-- The locals of `validate`. -/
structure Checked where
  issues : List DataQualityIssue := []
  previousTs : Option Timestamp := none
  seenTs : List Timestamp := []

/-- An `if` of the loop that appends an issue. -/
def Checked.flag (st : Checked) (idx : ℕ) (fails : Prop) [Decidable fails] (code message : String) : Checked :=
  if fails then { st with issues := st.issues ++ [{ rowIndex := idx, code, message }] } else st

/-- The checks of prices and volume. -/
def Checked.flagNumbers (st : Checked) (idx : ℕ) (row : Row) : Checked :=
  let openPrice := row.getD "open" .none
  let highPrice := row.getD "high" .none
  let lowPrice := row.getD "low" .none
  let closePrice := row.getD "close" .none
  let volume := row.getD "volume" (.float (.finite 0))
  let fields := [("open", openPrice), ("high", highPrice), ("low", lowPrice), ("close", closePrice), ("volume", volume)]
  let st := fields.foldl
    (fun st p => st.flag idx (p.2.isNumeric = false) "INVALID_NUMERIC" (p.1 ++ " must be numeric")) st
  let st := st.flag idx (highPrice.below lowPrice = true) "INVALID_RANGE" "high must be >= low"
  let numeric := openPrice.isNumeric && highPrice.isNumeric && lowPrice.isNumeric && closePrice.isNumeric
  let st := st.flag idx (numeric = true ∧ Cell.within lowPrice openPrice highPrice = false) "OPEN_OUT_OF_RANGE" "open must be within [low, high]"
  let st := st.flag idx (numeric = true ∧ Cell.within lowPrice closePrice highPrice = false) "CLOSE_OUT_OF_RANGE" "close must be within [low, high]"
  st.flag idx (volume.below (.float (.finite 0)) = true) "NEGATIVE_VOLUME" "volume must be >= 0"

/-- The checks of a name that is expected; an expected `None` or `""` is not checked. -/
def Checked.flagName (st : Checked) (idx : ℕ) (code field name : String) (expectedName : Option String) : Checked :=
  let expected := expectedName.getD ""
  st.flag idx (expected ≠ "" ∧ name ≠ "" ∧ name ≠ expected) code s!"{field}={name} expected={expected}"

/-- `previous_ts and ts < previous_ts`. -/
def Checked.comesEarlier (st : Checked) (ts : Timestamp) : Except PyError Bool :=
  match st.previousTs with
  | none => .ok false
  | some previousTs => ts.before previousTs

/-- The checks of the time, which is the last one from here on. -/
def Checked.flagTime (st : Checked) (idx : ℕ) (ts : Timestamp) (allowDuplicateTs : Bool) : Except PyError Checked := do
  let earlier ← st.comesEarlier ts
  let st := st.flag idx (earlier = true) "NON_MONOTONIC_TS" "timestamp must be non-decreasing"
  let st := { st with previousTs := some ts }
  let st := st.flag idx (ts ∈ st.seenTs ∧ allowDuplicateTs = false) "DUPLICATE_TS" "duplicate timestamp found"
  pure { st with seenTs := st.seenTs ++ [ts] }

/-- One row of the loop of `validate`. -/
def DataQualityChecklist.checkRow (py : Builtins) (checklist : DataQualityChecklist)
    (expectedSymbol expectedTimeframe : Option String) (st : Checked) (idx : ℕ) (row : Row) : Except PyError Checked :=
  let symbol := py.str (row.getD "symbol" (.text ""))
  let timeframe := py.str (row.getD "timeframe" (.text ""))
  let st := st.flag idx (symbol = "") "MISSING_SYMBOL" "symbol is required"
  let st := st.flag idx (timeframe = "") "MISSING_TIMEFRAME" "timeframe is required"
  match row.getD "ts" .none with
  | .datetime ts =>
    let st := st.flagNumbers idx row
    let st := st.flagName idx "UNEXPECTED_SYMBOL" "symbol" symbol expectedSymbol
    let st := st.flagName idx "UNEXPECTED_TIMEFRAME" "timeframe" timeframe expectedTimeframe
    st.flagTime idx ts checklist.allowDuplicateTs
  | _ => .ok (st.flag idx True "INVALID_TS" "ts must be datetime")

/-- `validate`. -/
def DataQualityChecklist.validate (py : Builtins) (checklist : DataQualityChecklist) (rows : List Row)
    (expectedSymbol expectedTimeframe : Option String) : Except PyError DataQualityReport := do
  let st ← rows.zipIdx.foldlM
    (fun st p => checklist.checkRow py expectedSymbol expectedTimeframe st p.2 p.1) {}
  pure { totalRows := rows.length, issueCount := st.issues.length, issues := st.issues }

/-! ## Bars -/

/-- `Bar`, with any floats. -/
structure RowBar where
  symbol : String
  timeframe : String
  ts : Timestamp
  «open» : Number
  high : Number
  low : Number
  close : Number
  volume : Number
deriving DecidableEq

/-- The `ts` of a bar. The checklist has refused every other value. -/
def datetimeOf : Cell → Except PyError Timestamp
  | .datetime ts => .ok ts
  | _ => .error (.external "ts must be datetime")

/-- `Bar(...)`, of a row. -/
def rowBar (py : Builtins) (row : Row) : Except PyError RowBar := do
  let symbol ← getItem row "symbol"
  let timeframe ← getItem row "timeframe"
  let ts ← getItem row "ts" >>= datetimeOf
  let openPrice ← getItem row "open" >>= py.float
  let high ← getItem row "high" >>= py.float
  let low ← getItem row "low" >>= py.float
  let close ← getItem row "close" >>= py.float
  let volume ← getItem row "volume" >>= py.float
  pure { symbol := py.str symbol, timeframe := py.str timeframe, ts, «open» := openPrice, high, low, close, volume }

/-- `sorted(bars, key=lambda b: b.ts)`, which raises if some are naive and some aware. -/
def sortedBars (bars : List RowBar) : Except PyError (List RowBar) :=
  if ∀ a ∈ bars, ∀ b ∈ bars, a.ts.aware = b.ts.aware then
    .ok (bars.insertionSort fun a b => a.ts.time ≤ b.ts.time)
  else .error (.external "can't compare offset-naive and offset-aware datetimes")

/-- `_rows_to_bars`, with a checklist. `save` builds the version of the rows and stores it. -/
def rowsToBars (py : Builtins) (checklist : DataQualityChecklist) (save : Option (List Row → Except PyError Unit))
    (normalizedRows : List Row) (symbol timeframe : String) : Except PyError (List RowBar) := do
  let report ← checklist.validate py normalizedRows (some symbol) (some timeframe)
  let head := ", ".intercalate ((report.issues.take 5).map fun i => s!"{i.code}@{i.rowIndex}")
  let count := report.issueCount
  raiseIf (report.passed = false) (.valueError s!"data quality check failed ({count} issues): {head}")
  match save with
  | none => pure ()
  | some save => save normalizedRows
  let bars ← normalizedRows.mapM (rowBar py)
  sortedBars bars

end CryptoQuant.Data
