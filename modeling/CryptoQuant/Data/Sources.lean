import CryptoQuant.Events.Market

/-!
# Bar sources

`data/sources.py`: what `fetch_bars` answers, the bars in memory and the composite of
other sources. A source may raise, and answers the same query the same way. The times of
bars and queries are all naive or all aware, so they compare.
-/

namespace CryptoQuant.Data
set_option autoImplicit false

/-- The arguments of `fetch_bars`. -/
structure BarQuery where
  symbol : String
  timeframe : String
  start : Option DateTime := none
  «end» : Option DateTime := none
deriving DecidableEq, Repr

/-- `DataSource`. -/
structure DataSource where
  fetchBars : BarQuery → Except PyError (List Bar)

/-- The bar passes the three tests of the loop. -/
def BarQuery.Selects (q : BarQuery) (bar : Bar) : Prop :=
  (bar.symbol = q.symbol ∧ bar.timeframe = q.timeframe) ∧ (∀ start ∈ q.start, ¬ bar.ts < start) ∧
    ∀ «end» ∈ q.end, ¬ bar.ts > «end»

instance (q : BarQuery) (bar : Bar) : Decidable (q.Selects bar) := inferInstanceAs (Decidable (_ ∧ _ ∧ _))

/-- `InMemoryBarDataSource`. -/
structure InMemoryBarDataSource where
  bars : List Bar

/-- `InMemoryBarDataSource.fetch_bars`. -/
def InMemoryBarDataSource.fetchBars (ds : InMemoryBarDataSource) (q : BarQuery) : List Bar :=
  (ds.bars.filter fun bar => q.Selects bar).insertionSort fun a b => a.ts ≤ b.ts

/-- The bars in memory as a source. -/
def InMemoryBarDataSource.source (ds : InMemoryBarDataSource) : DataSource := ⟨fun q => .ok (ds.fetchBars q)⟩

/-- `CompositeBarDataSource`. -/
structure CompositeBarDataSource where
  sources : List DataSource

/-- `CompositeBarDataSource.fetch_bars`. -/
def CompositeBarDataSource.fetchBars (ds : CompositeBarDataSource) (q : BarQuery) : Except PyError (List Bar) := do
  let merged ← ds.sources.foldlM (fun merged source => return merged ++ (← source.fetchBars q)) []
  let dedup : Py.Dict DateTime Bar := merged.foldl (fun dedup bar => dedup.set bar.ts bar) .empty
  (dedup.keys.insertionSort (· ≤ ·)).mapM (getItem dedup)

/-- The composite as a source. -/
def CompositeBarDataSource.source (ds : CompositeBarDataSource) : DataSource := ⟨ds.fetchBars⟩

/-- `CompositeBarDataSource(sources)`. -/
def composite (sources : List DataSource) : DataSource := CompositeBarDataSource.source ⟨sources⟩

end CryptoQuant.Data
