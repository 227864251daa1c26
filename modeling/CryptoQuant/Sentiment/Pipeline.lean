import CryptoQuant.Basic
import Mathlib.Algebra.Order.Group.Abs
import Mathlib.Data.List.Infix
import Mathlib.Data.List.Sort
import Mathlib.Data.Rat.Cast.Defs

/-!
# The sentiment pipeline

`sentiment/pipeline.py`: items from an adapter, newest first, and a score from the
keywords in their texts. The numbers are those of any ordered field, with its
exponential as a parameter, as is the lower case of a text.
-/

namespace CryptoQuant.Sentiment
set_option autoImplicit false

section Types
variable (K : Type)

/-- `SentimentItem`. -/
structure SentimentItem where
  source : String
  text : String
  ts : DateTime
  weight : K

/-- `SentimentSnapshot`. -/
structure SentimentSnapshot where
  score : K
  confidence : K
  positiveHits : ℕ
  negativeHits : ℕ
  sampleSize : ℕ

end Types

/-- `InMemorySentimentAdapter`. -/
structure InMemorySentimentAdapter (K : Type) where
  items : List (SentimentItem K)

/-- `filtered[:limit]`. -/
def sliceTo {α : Type} (items : List α) (limit : ℤ) : List α :=
  if 0 ≤ limit then items.take limit.toNat else items.take (items.length - (-limit).toNat)

/-- `fetch`. -/
def InMemorySentimentAdapter.fetch {K : Type} (adapter : InMemorySentimentAdapter K) (since : Option DateTime := none)
    (limit : ℤ := 200) : List (SentimentItem K) :=
  let filtered := adapter.items.filter fun item => since.all fun since => since ≤ item.ts
  sliceTo (filtered.insertionSort fun a b => b.ts ≤ a.ts) limit

/-- `POSITIVE_KEYWORDS`. -/
def positiveKeywords : List String :=
  ["bull", "bullish", "breakout", "surge", "adoption", "record high", "upgrade", "strong", "positive"]

/-- `NEGATIVE_KEYWORDS`. -/
def negativeKeywords : List String :=
  ["bear", "bearish", "dump", "hack", "ban", "lawsuit", "downgrade", "weak", "negative", "liquidation"]

/-- `kw in text`. -/
def inText (text kw : String) : Bool := kw.toList <:+: text.toList

variable {K : Type} [Field K] [LinearOrder K]

/-- `SOURCE_WEIGHTS.get(source, 1.0)`. -/
def sourceWeight (source : String) : ℚ :=
  if source = "news" then 125 / 100 else if source = "social" then 1 else if source = "forum" then 9 / 10 else 1

/-- `_recency_weight`. -/
def recencyWeight (exp : K → K) (ts now : DateTime) : K :=
  let deltaHours : ℚ := max 0 ((now - ts : ℤ) / (microsPerSecond : ℚ) / 3600)
  exp (-deltaHours / (1731234049066756 / 100000000000000) : ℚ)

/-- The hits of the keywords in a text, of one sign. -/
def hits (lower : String → String) (keywords : List String) (item : SentimentItem K) : ℕ :=
  keywords.countP (inText (lower item.text))

/-- `p_hits - n_hits`. -/
def raw (lower : String → String) (item : SentimentItem K) : ℤ :=
  hits lower positiveKeywords item - hits lower negativeKeywords item

/-- `max(0.0, item.weight) * src_w * recency_w`. -/
def itemWeight (exp : K → K) (lower : String → String) (now : DateTime) (item : SentimentItem K) : K :=
  max 0 item.weight * (sourceWeight (lower item.source) : K) * recencyWeight exp item.ts now

/-- `weighted_sum`, `total_weight`, `pos` and `neg`. -/
structure Tally (K : Type) where
  weightedSum : K
  totalWeight : K
  pos : ℕ
  neg : ℕ

/-- One round of the loop of `score`. -/
def Tally.add (exp : K → K) (lower : String → String) (now : DateTime) (tally : Tally K) (item : SentimentItem K) : Tally K :=
  if hits lower positiveKeywords item = 0 ∧ hits lower negativeKeywords item = 0 then tally
  else
    let raw := raw lower item
    let w := itemWeight exp lower now item
    { weightedSum := tally.weightedSum + raw * w
      totalWeight := tally.totalWeight + |(raw : K)| * w
      pos := if 0 < raw then tally.pos + raw.toNat else tally.pos
      neg := if 0 < raw then tally.neg else if raw < 0 then tally.neg + (-raw).toNat else tally.neg }

/-- `max(item.ts for item in items)`, of some items. -/
def newest (first : SentimentItem K) (rest : List (SentimentItem K)) : DateTime :=
  (rest.map SentimentItem.ts).foldl max first.ts

/-- The loop of `score`. -/
def tallyOf (exp : K → K) (lower : String → String) (now : DateTime) (items : List (SentimentItem K)) : Tally K :=
  items.foldl (Tally.add exp lower now) ⟨0, 0, 0, 0⟩

/-- `1e-9`. -/
def negligible : K := (1 / 1000000000 : ℚ)

/-- `KeywordSentimentScorer.score`. -/
def score (exp : K → K) (lower : String → String) (items : List (SentimentItem K)) : SentimentSnapshot K :=
  match items with
  | [] => ⟨0, 0, 0, 0, 0⟩
  | first :: rest =>
    let tally := tallyOf exp lower (newest first rest) items
    if tally.totalWeight ≤ negligible then ⟨0, 0, 0, 0, items.length⟩
    else
      { score := max (-1) (min 1 (tally.weightedSum / tally.totalWeight))
        confidence := min 1 (tally.totalWeight / (max 5 items.length : ℕ))
        positiveHits := tally.pos
        negativeHits := tally.neg
        sampleSize := items.length }

/-- `SentimentPipeline.snapshot`, at the time `now`. -/
def snapshot (exp : K → K) (lower : String → String) (adapter : InMemorySentimentAdapter K) (now : DateTime)
    (lookback : ℤ := 24 * 3600 * microsPerSecond) (limit : ℤ := 200) : SentimentSnapshot K :=
  score exp lower (adapter.fetch (some (now - lookback)) limit)

end CryptoQuant.Sentiment
