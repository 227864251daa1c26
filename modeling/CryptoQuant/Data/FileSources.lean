import CryptoQuant.Data.Checklist
import CryptoQuant.Data.Dictionary

/-!
# Bars from files

`CsvBarDataSource` and `ParquetBarDataSource` of `data/sources.py`. Both normalise every
row of the file, take out those of other symbols, other time frames and other times, and
hand the rest to `_rows_to_bars`. They differ in where their rows come from.
-/

namespace CryptoQuant.Data
set_option autoImplicit false

/-- The arguments of `fetch_bars`, with the times as they are compared. -/
structure RowQuery where
  symbol : String
  timeframe : String
  start : Option Timestamp := none
  «end» : Option Timestamp := none
deriving DecidableEq

/-- `start and ts < start`. -/
def RowQuery.early (q : RowQuery) (ts : Timestamp) : Except PyError Bool :=
  match q.start with
  | none => .ok false
  | some start => ts.before start

/-- `end and ts > end`. -/
def RowQuery.late (q : RowQuery) (ts : Timestamp) : Except PyError Bool :=
  match q.end with
  | none => .ok false
  | some «end» => «end».before ts

/-- The two tests of the time; the second one is not made where the first succeeds. -/
def RowQuery.holdsTime (q : RowQuery) (ts : Timestamp) : Except PyError Bool := do
  let early ← q.early ts
  if early = true then pure false
  else
    let late ← q.late ts
    pure (!late)

/-- Whether the loop of `fetch_bars` gets to its last line with a row, once it is normalised. -/
def RowQuery.keep (q : RowQuery) (normalized : Row) : Except PyError Bool := do
  let symbol ← getItem normalized "symbol"
  if symbol ≠ .text q.symbol then pure false
  else
    let timeframe ← getItem normalized "timeframe"
    if timeframe ≠ .text q.timeframe then pure false
    else
      let ts ← getItem normalized "ts"
      match ts with
      | .datetime ts => q.holdsTime ts
      | _ => pure true

/-- The loop body of `fetch_bars`. -/
def RowQuery.pick (py : Builtins) (dictionary : DataDictionary) (q : RowQuery) (normalizedRows : List Row) (row : Row) :
    Except PyError (List Row) := do
  let normalized ← dictionary.normalize py row
  let keep ← q.keep normalized
  pure (if keep = true then normalizedRows ++ [normalized] else normalizedRows)

/-- `normalized_rows`, after the loop over the rows of the file. -/
def RowQuery.pickRows (py : Builtins) (dictionary : DataDictionary) (q : RowQuery) (rows : List Row) :
    Except PyError (List Row) :=
  rows.foldlM (q.pick py dictionary) []

/-- `_rows_to_bars`, once the rows are not to be checked any more. -/
def storedBars (py : Builtins) (save : Option (List Row → Except PyError Unit)) (normalizedRows : List Row) :
    Except PyError (List RowBar) := do
  match save with
  | none => pure ()
  | some save => save normalizedRows
  let bars ← normalizedRows.mapM (rowBar py)
  sortedBars bars

/-- `_rows_to_bars`, with a checklist or without. -/
def fileBars (py : Builtins) (checklist : Option DataQualityChecklist) (save : Option (List Row → Except PyError Unit))
    (normalizedRows : List Row) (symbol timeframe : String) : Except PyError (List RowBar) :=
  match checklist with
  | some checklist => rowsToBars py checklist save normalizedRows symbol timeframe
  | none => storedBars py save normalizedRows

/-- What the two sources have in common. `load` reads the rows that are normalised, and
`save` builds the version of the picked rows and stores it. -/
structure FileBarDataSource where
  load : Except PyError (List Row)
  dictionary : DataDictionary := barV1Dictionary
  qualityChecklist : Option DataQualityChecklist := some {}
  save : Option (List Row → Except PyError Unit) := none

/-- `fetch_bars` of both. -/
def FileBarDataSource.fetchBars (py : Builtins) (source : FileBarDataSource) (q : RowQuery) :
    Except PyError (List RowBar) := do
  let rows ← source.load
  let normalizedRows ← q.pickRows py source.dictionary rows
  fileBars py source.qualityChecklist source.save normalizedRows q.symbol q.timeframe

/-- `CsvBarSchema`. -/
structure CsvBarSchema where
  symbolCol : String := "symbol"
  timeframeCol : String := "timeframe"
  tsCol : String := "ts"
  openCol : String := "open"
  highCol : String := "high"
  lowCol : String := "low"
  closeCol : String := "close"
  volumeCol : String := "volume"

/-- `raw`, of a row of the file. -/
def CsvBarSchema.raw (schema : CsvBarSchema) (row : Row) : Row :=
  [("symbol", row.getD schema.symbolCol .none), ("timeframe", row.getD schema.timeframeCol .none),
    ("ts", row.getD schema.tsCol .none), ("open", row.getD schema.openCol .none),
    ("high", row.getD schema.highCol .none), ("low", row.getD schema.lowCol .none),
    ("close", row.getD schema.closeCol .none), ("volume", row.getD schema.volumeCol (.float (.finite 0)))].foldl
      (fun raw column => raw.set column.1 column.2) .empty

/-- `CsvBarDataSource`: the reader's rows go through the schema first. -/
def csvBarDataSource (schema : CsvBarSchema) (reader : Except PyError (List Row)) (dictionary : DataDictionary)
    (qualityChecklist : Option DataQualityChecklist) (save : Option (List Row → Except PyError Unit)) :
    FileBarDataSource where
  load := reader.map fun rows => rows.map schema.raw
  dictionary
  qualityChecklist
  save

/-- `ParquetBarDataSource`: the rows are normalised as the loader gives them. -/
def parquetBarDataSource (rowLoader : Except PyError (List Row)) (dictionary : DataDictionary)
    (qualityChecklist : Option DataQualityChecklist) (save : Option (List Row → Except PyError Unit)) :
    FileBarDataSource where
  load := rowLoader
  dictionary
  qualityChecklist
  save

end CryptoQuant.Data
