import CryptoQuant.Lib.Best
import CryptoQuant.Sentiment.Pipeline
import Mathlib.Algebra.BigOperators.Ring.List
import Mathlib.Algebra.Order.BigOperators.Group.List
import Mathlib.Algebra.Order.Field.Basic
import Mathlib.Analysis.SpecialFunctions.Exp
import Mathlib.Tactic.Linarith
import Mathlib.Tactic.Positivity
import Mathlib.Tactic.Ring

/-!
# What a sentiment score depends on

The weight of an item falls with its distance from the newest one. A newer item takes
the same factor from the weights of all others, so the score, a ratio of their sums,
does not see the time of day, the order of the items or items without keywords.
-/

namespace CryptoQuant.Sentiment
set_option autoImplicit false

variable {K : Type} [Field K] [LinearOrder K] [IsStrictOrderedRing K] {exp : K → K} {lower : String → String}

section Sums
variable {now : DateTime}

/-- The loop adds up. An item without hits adds nothing. -/
theorem tallyOf_eq (items : List (SentimentItem K)) :
    tallyOf exp lower now items =
      { weightedSum := (items.map fun item => (raw lower item : K) * itemWeight exp lower now item).sum
        totalWeight := (items.map fun item => |(raw lower item : K)| * itemWeight exp lower now item).sum
        pos := (items.map fun item => (raw lower item).toNat).sum
        neg := (items.map fun item => (-raw lower item).toNat).sum } := by
  induction items using List.reverseRecOn with
  | nil => rfl
  | append_singleton items item ih =>
    have step : tallyOf exp lower now (items ++ [item]) = (tallyOf exp lower now items).add exp lower now item := by
      rw [tallyOf, List.foldl_append]
      rfl
    rw [step, ih, Tally.add]
    simp only [List.map_append, List.map_singleton, List.sum_append, List.sum_singleton]
    split
    · rename_i none_
      have zero : raw lower item = 0 := by simp [raw, none_]
      simp [zero]
    · congr 1
      · split <;> omega
      · split
        · omega
        · split <;> omega

theorem sourceWeight_pos (source : String) : 0 < sourceWeight source := by
  unfold sourceWeight
  split
  · positivity
  split
  · positivity
  split <;> positivity

theorem itemWeight_nonneg (positive : ∀ x, 0 < exp x) (item : SentimentItem K) : 0 ≤ itemWeight exp lower now item := by
  have source : (0 : K) ≤ sourceWeight (lower item.source) := by exact_mod_cast (sourceWeight_pos _).le
  exact mul_nonneg (mul_nonneg (le_max_left _ _) source) (positive _).le

variable (lower now) in
/-- The weighted sum is within the total weight. -/
theorem abs_weightedSum_le (positive : ∀ x, 0 < exp x) (items : List (SentimentItem K)) :
    |(tallyOf exp lower now items).weightedSum| ≤ (tallyOf exp lower now items).totalWeight := by
  rw [tallyOf_eq]
  dsimp only
  induction items with
  | nil => simp
  | cons item items ih =>
    simp only [List.map_cons, List.sum_cons]
    refine (abs_add_le _ _).trans (add_le_add ?_ ih)
    rw [abs_mul, abs_of_nonneg (itemWeight_nonneg positive item)]

end Sums

section Newest

/-- The newest time of the items is `now`. -/
def Newest (items : List (SentimentItem K)) (now : DateTime) : Prop := IsGreatest {t | ∃ item ∈ items, item.ts = t} now

omit [Field K] [LinearOrder K] [IsStrictOrderedRing K] in
theorem newest_eq {first : SentimentItem K} {rest : List (SentimentItem K)} {now : DateTime}
    (greatest : Newest (first :: rest) now) : newest first rest = now := by
  have fold := Best.isGreatest_foldl_max first.ts (rest.map SentimentItem.ts)
  have times : {t | t ∈ first.ts :: rest.map SentimentItem.ts} = {t | ∃ item ∈ first :: rest, item.ts = t} := by
    ext t
    simp [eq_comm]
  rw [times] at fold
  exact fold.unique greatest

omit [Field K] [LinearOrder K] [IsStrictOrderedRing K] in
theorem exists_newest {items : List (SentimentItem K)} (some_ : items ≠ []) : ∃ now, Newest items now := by
  obtain ⟨first, rest, rfl⟩ := List.exists_cons_of_ne_nil some_
  have fold := Best.isGreatest_foldl_max first.ts (rest.map SentimentItem.ts)
  have times : {t | t ∈ first.ts :: rest.map SentimentItem.ts} = {t | ∃ item ∈ first :: rest, item.ts = t} := by
    ext t
    simp [eq_comm]
  rw [times] at fold
  exact ⟨_, fold⟩

/-- `total_weight`, as `score` computes it. -/
def totalWeight (exp : K → K) (lower : String → String) : List (SentimentItem K) → K
  | [] => 0
  | first :: rest => (tallyOf exp lower (newest first rest) (first :: rest)).totalWeight

omit [IsStrictOrderedRing K] in
theorem totalWeight_eq {items : List (SentimentItem K)} {now : DateTime} (greatest : Newest items now) :
    totalWeight exp lower items = (tallyOf exp lower now items).totalWeight := by
  obtain ⟨item, member, -⟩ := greatest.1
  obtain ⟨first, rest, rfl⟩ := List.exists_cons_of_ne_nil (List.ne_nil_of_mem member)
  rw [totalWeight, newest_eq greatest]

omit [IsStrictOrderedRing K] in
/-- The snapshot of items that weigh enough. -/
theorem score_eq {items : List (SentimentItem K)} {now : DateTime} (greatest : Newest items now)
    (weighs : negligible < totalWeight exp lower items) :
    score exp lower items =
      { score := max (-1) (min 1 ((tallyOf exp lower now items).weightedSum / (tallyOf exp lower now items).totalWeight))
        confidence := min 1 ((tallyOf exp lower now items).totalWeight / (max 5 items.length : ℕ))
        positiveHits := (tallyOf exp lower now items).pos
        negativeHits := (tallyOf exp lower now items).neg
        sampleSize := items.length } := by
  rw [totalWeight_eq greatest] at weighs
  obtain ⟨item, member, -⟩ := greatest.1
  obtain ⟨first, rest, rfl⟩ := List.exists_cons_of_ne_nil (List.ne_nil_of_mem member)
  unfold score
  dsimp only
  rw [newest_eq greatest, if_neg (not_le.mpr weighs)]

end Newest

section Invariance

/-- The item, some time later. -/
def SentimentItem.later (d : ℤ) (item : SentimentItem K) : SentimentItem K := { item with ts := item.ts + d }

/-- No keyword is in the text of the item. -/
def Neutral (lower : String → String) (item : SentimentItem K) : Prop :=
  hits lower positiveKeywords item = 0 ∧ hits lower negativeKeywords item = 0

omit [Field K] [LinearOrder K] [IsStrictOrderedRing K] in
theorem raw_of_neutral {item : SentimentItem K} (neutral : Neutral lower item) : raw lower item = 0 := by
  simp [raw, neutral.1, neutral.2]

/-- The exponent of the age of an item. -/
def exponent (age : ℤ) : ℚ := -(age / (microsPerSecond : ℚ) / 3600) / (1731234049066756 / 100000000000000)

theorem exponent_add (age elapsed : ℤ) : exponent (elapsed + age) = exponent elapsed + exponent age := by
  unfold exponent
  push_cast
  ring

theorem exponent_nonpos {age : ℤ} (nonneg : 0 ≤ age) : exponent age ≤ 0 := by
  have years : (0 : ℚ) ≤ age := by exact_mod_cast nonneg
  have micros : (0 : ℚ) ≤ microsPerSecond := by norm_num [microsPerSecond]
  unfold exponent
  rw [neg_div, neg_nonpos]
  positivity

omit [LinearOrder K] [IsStrictOrderedRing K] in
theorem recencyWeight_eq {ts now : DateTime} (before : ts ≤ now) : recencyWeight exp ts now = exp (exponent (now - ts)) := by
  have age : (0 : ℚ) ≤ (now - ts : ℤ) := by exact_mod_cast Int.sub_nonneg_of_le before
  have micros : (0 : ℚ) ≤ microsPerSecond := by norm_num [microsPerSecond]
  unfold recencyWeight exponent
  dsimp only
  rw [max_eq_right (by positivity)]

/-- Weights fade by a factor. -/
theorem itemWeight_later (sums : ∀ x y, exp (x + y) = exp x * exp y) {item : SentimentItem K} {now elapsed d : ℤ}
    (before : item.ts ≤ now) (nonneg : 0 ≤ elapsed) :
    itemWeight exp lower (now + elapsed + d) (item.later d) = exp (exponent elapsed) * itemWeight exp lower now item := by
  have before' : (item.later d).ts ≤ now + elapsed + d := by
    show item.ts + d ≤ now + elapsed + d
    linarith
  have age : now + elapsed + d - (item.later d).ts = elapsed + (now - item.ts) := by
    show now + elapsed + d - (item.ts + d) = elapsed + (now - item.ts)
    ring
  unfold itemWeight
  rw [recencyWeight_eq before, recencyWeight_eq before', age, exponent_add, Rat.cast_add, sums]
  dsimp only [SentimentItem.later]
  ring

/-- The sums of items of which some are seen some time later and the others are neutral. -/
theorem tallyOf_later (sums : ∀ x y, exp (x + y) = exp x * exp y) {items items' neutral : List (SentimentItem K)}
    {now elapsed d : ℤ} (perm : items'.Perm (items.map (.later d) ++ neutral)) (quiet : ∀ item ∈ neutral, Neutral lower item)
    (before : ∀ item ∈ items, item.ts ≤ now) (nonneg : 0 ≤ elapsed) :
    (tallyOf exp lower (now + elapsed + d) items').weightedSum =
        exp (exponent elapsed) * (tallyOf exp lower now items).weightedSum ∧
      (tallyOf exp lower (now + elapsed + d) items').totalWeight =
        exp (exponent elapsed) * (tallyOf exp lower now items).totalWeight ∧
      (tallyOf exp lower (now + elapsed + d) items').pos = (tallyOf exp lower now items).pos ∧
      (tallyOf exp lower (now + elapsed + d) items').neg = (tallyOf exp lower now items).neg := by
  -- a sum over the items, with what vanishes on neutral ones and is `c` times as large on later ones
  have sum {M : Type} [AddCommMonoid M] {f g : SentimentItem K → M} {c : M → M} (c_zero : c 0 = 0)
      (c_add : ∀ x y, c (x + y) = c x + c y) (vanishes : ∀ item, raw lower item = 0 → f item = 0)
      (scales : ∀ item ∈ items, f (item.later d) = c (g item)) : (items'.map f).sum = c (items.map g).sum := by
    have neutral_ : (neutral.map f).sum = 0 := by
      apply List.sum_eq_zero
      intro x member
      obtain ⟨item, among, rfl⟩ := List.mem_map.mp member
      exact vanishes item (raw_of_neutral (quiet item among))
    rw [(perm.map f).sum_eq, List.map_append, List.sum_append, neutral_, add_zero, List.map_map]
    clear perm
    induction items with
    | nil => exact c_zero.symm
    | cons item items ih =>
      rw [List.map_cons, List.map_cons, List.sum_cons, List.sum_cons, c_add,
        ih (fun i member => before i (List.mem_cons_of_mem item member))
          fun i member => scales i (List.mem_cons_of_mem item member), Function.comp_apply, scales item List.mem_cons_self]
  have weight (item : SentimentItem K) (member : item ∈ items) :
      itemWeight exp lower (now + elapsed + d) (item.later d) = exp (exponent elapsed) * itemWeight exp lower now item :=
    itemWeight_later sums (before item member) nonneg
  simp only [tallyOf_eq]
  refine ⟨?_, ?_, ?_, ?_⟩
  · refine sum (c := (exp (exponent elapsed) * ·)) (mul_zero _) (mul_add _) (fun item zero => by simp [zero]) fun item member => ?_
    rw [weight item member]
    exact mul_left_comm _ _ _
  · refine sum (c := (exp (exponent elapsed) * ·)) (mul_zero _) (mul_add _) (fun item zero => by simp [zero]) fun item member => ?_
    rw [weight item member]
    exact mul_left_comm _ _ _
  · exact sum (c := id) rfl (fun _ _ => rfl) (fun item zero => by simp [zero]) fun item member => rfl
  · exact sum (c := id) rfl (fun _ _ => rfl) (fun item zero => by simp [zero]) fun item member => rfl

/-- **What a score depends on.** Items in another order, all of them at another time, with
items among them, old or new, whose texts have no keyword: as long as the weights are
not negligible the score and the hits are the same, and the confidence is not higher. -/
theorem score_invariant (positive : ∀ x, 0 < exp x) (sums : ∀ x y, exp (x + y) = exp x * exp y)
    (falls : ∀ x, x ≤ 0 → exp x ≤ 1) {items items' neutral : List (SentimentItem K)} {d : ℤ}
    (perm : items'.Perm (items.map (.later d) ++ neutral)) (quiet : ∀ item ∈ neutral, Neutral lower item)
    (weighs : negligible < totalWeight exp lower items) (weighs' : negligible < totalWeight exp lower items') :
    (score exp lower items').score = (score exp lower items).score ∧
      (score exp lower items').positiveHits = (score exp lower items).positiveHits ∧
      (score exp lower items').negativeHits = (score exp lower items).negativeHits ∧
      (score exp lower items').confidence ≤ (score exp lower items).confidence := by
  have some_ : items ≠ [] := by
    rintro rfl
    have none_ : (negligible : K) < 0 := weighs
    have negligible_pos : (0 : K) < negligible := by unfold negligible; positivity
    exact absurd none_ (not_lt.mpr negligible_pos.le)
  obtain ⟨now, greatest⟩ := exists_newest some_
  obtain ⟨newestItem, member, rfl⟩ := greatest.1
  have member' : newestItem.later d ∈ items' :=
    perm.mem_iff.mpr (List.mem_append_left _ (List.mem_map_of_mem member))
  obtain ⟨now', greatest'⟩ := exists_newest (List.ne_nil_of_mem member')
  have later : newestItem.ts + d ≤ now' := greatest'.2 ⟨_, member', rfl⟩
  obtain ⟨elapsed, nonneg, rfl⟩ : ∃ elapsed : ℤ, 0 ≤ elapsed ∧ now' = newestItem.ts + elapsed + d :=
    ⟨now' - newestItem.ts - d, by linarith, by ring⟩
  have before (item : SentimentItem K) (among : item ∈ items) : item.ts ≤ newestItem.ts := greatest.2 ⟨item, among, rfl⟩
  obtain ⟨weighted, total, pos, neg⟩ := tallyOf_later sums perm quiet before nonneg
  rw [score_eq greatest weighs, score_eq greatest' weighs', weighted, total, pos, neg]
  have factor : 0 < exp (exponent elapsed) := positive _
  refine ⟨?_, rfl, rfl, ?_⟩
  · dsimp only
    rw [mul_div_mul_left _ _ factor.ne']
  · dsimp only
    have small : exp (exponent elapsed) ≤ 1 := by
      refine falls _ ?_
      exact_mod_cast exponent_nonpos nonneg
    have weight : 0 ≤ (tallyOf exp lower newestItem.ts items).totalWeight :=
      (abs_nonneg _).trans (abs_weightedSum_le lower newestItem.ts positive items)
    have lighter : exp (exponent elapsed) * (tallyOf exp lower newestItem.ts items).totalWeight ≤
        (tallyOf exp lower newestItem.ts items).totalWeight := mul_le_of_le_one_left weight small
    have count : items.length ≤ items'.length := by
      rw [perm.length_eq, List.length_append, List.length_map]
      exact Nat.le_add_right _ _
    have sizes : ((max 5 items.length : ℕ) : K) ≤ (max 5 items'.length : ℕ) := by exact_mod_cast max_le_max_left 5 count
    have five : (0 : K) < (max 5 items.length : ℕ) := by exact_mod_cast lt_max_of_lt_left (by decide : 0 < 5)
    exact min_le_min_left 1 (div_le_div₀ weight lighter five sizes)

end Invariance

section Snapshot

variable (lower) in
theorem score_bounds (positive : ∀ x, 0 < exp x) (items : List (SentimentItem K)) :
    (score exp lower items).sampleSize = items.length ∧ |(score exp lower items).score| ≤ 1 ∧
      0 ≤ (score exp lower items).confidence ∧ (score exp lower items).confidence ≤ 1 := by
  cases items with
  | nil => exact ⟨rfl, abs_zero.trans_le zero_le_one, le_refl _, zero_le_one⟩
  | cons first rest =>
    unfold score
    dsimp only
    split
    · exact ⟨rfl, abs_zero.trans_le zero_le_one, le_refl _, zero_le_one⟩
    · have weight := (abs_nonneg _).trans (abs_weightedSum_le lower (newest first rest) positive (first :: rest))
      refine ⟨rfl, abs_le.mpr ⟨le_max_left _ _, max_le ?_ (min_le_left _ _)⟩, ?_, min_le_left _ _⟩
      · linarith [zero_le_one (α := K)]
      · exact le_min zero_le_one (div_nonneg weight (Nat.cast_nonneg _))

variable (lower) in
/-- The clamp of the score never acts. -/
theorem clamp_eq (positive : ∀ x, 0 < exp x) (now : DateTime) (items : List (SentimentItem K)) :
    max (-1) (min 1 ((tallyOf exp lower now items).weightedSum / (tallyOf exp lower now items).totalWeight)) =
      (tallyOf exp lower now items).weightedSum / (tallyOf exp lower now items).totalWeight := by
  have within := abs_weightedSum_le lower now positive items
  have ratio : |(tallyOf exp lower now items).weightedSum / (tallyOf exp lower now items).totalWeight| ≤ 1 := by
    rw [abs_div]
    exact div_le_one_of_le₀ (within.trans (le_abs_self _)) (abs_nonneg _)
  rw [min_eq_right (abs_le.mp ratio).2, max_eq_right (abs_le.mp ratio).1]

variable (lower) in
/-- **What a snapshot is made of.** The items fetched are the newest ones within the look-back,
as many as the limit admits, newest first; the score is the ratio of the sums, within
one, so that its clamp never acts, and the confidence is within zero and one. -/
theorem snapshot_newest (positive : ∀ x, 0 < exp x) (adapter : InMemorySentimentAdapter K) (now : DateTime) (lookback : ℤ)
    {limit : ℤ} (nonneg : 0 ≤ limit) :
    let matching := adapter.items.filter fun item => now - lookback ≤ item.ts
    let fetched := adapter.fetch (some (now - lookback)) limit
    let snapshot := snapshot exp lower adapter now lookback limit
    fetched.length = min limit.toNat matching.length ∧ fetched.Pairwise (fun item old => old.ts ≤ item.ts) ∧
    (∃ rest, (fetched ++ rest).Perm matching ∧ ∀ item ∈ fetched, ∀ old ∈ rest, old.ts ≤ item.ts) ∧
    snapshot.sampleSize = fetched.length ∧ |snapshot.score| ≤ 1 ∧ 0 ≤ snapshot.confidence ∧ snapshot.confidence ≤ 1 ∧
    ∀ time, Newest fetched time → negligible < totalWeight exp lower fetched →
      snapshot.score = (tallyOf exp lower time fetched).weightedSum / (tallyOf exp lower time fetched).totalWeight := by
  intro matching fetched snapshot
  have total : Std.Total fun a b : SentimentItem K => b.ts ≤ a.ts := ⟨fun a b => le_total b.ts a.ts⟩
  have transitive : IsTrans (SentimentItem K) fun a b => b.ts ≤ a.ts := ⟨fun _ _ _ first second => second.trans first⟩
  have made : fetched = (matching.insertionSort fun a b => b.ts ≤ a.ts).take limit.toNat := if_pos nonneg
  have perm := List.perm_insertionSort (fun a b : SentimentItem K => b.ts ≤ a.ts) matching
  have ordered := List.pairwise_insertionSort (fun a b : SentimentItem K => b.ts ≤ a.ts) matching
  rw [← List.take_append_drop limit.toNat (matching.insertionSort fun a b => b.ts ≤ a.ts), ← made] at perm ordered
  obtain ⟨newestFirst, -, across⟩ := List.pairwise_append.mp ordered
  obtain ⟨size, score_, low, high⟩ := score_bounds lower positive fetched
  refine ⟨?_, newestFirst, ⟨_, perm, across⟩, size, score_, low, high, fun time greatest weighs => ?_⟩
  · rw [made, List.length_take, List.length_insertionSort]
  · show (score exp lower fetched).score = _
    rw [score_eq greatest weighs]
    exact clamp_eq lower positive time fetched

end Snapshot

section Witness

def post (text : String) (ts : DateTime) : SentimentItem ℝ := ⟨"social", text, ts, 1⟩

theorem raw_bull (ts : DateTime) : raw id (post "bull" ts) = 1 := by
  show (positiveKeywords.countP (inText "bull") : ℤ) - negativeKeywords.countP (inText "bull") = 1
  decide +kernel

theorem neutral_hello (ts : DateTime) : Neutral id (post "hello" ts) := by
  show positiveKeywords.countP (inText "hello") = 0 ∧ negativeKeywords.countP (inText "hello") = 0
  decide +kernel

theorem weight_now (text : String) (ts : DateTime) : itemWeight Real.exp id ts (post text ts) = 1 := by
  simp [itemWeight, recencyWeight, sourceWeight, post]

theorem newest_head {first : SentimentItem ℝ} {rest : List (SentimentItem ℝ)} (newest : ∀ item ∈ rest, item.ts ≤ first.ts) :
    Newest (first :: rest) first.ts := by
  refine ⟨⟨first, List.mem_cons_self, rfl⟩, ?_⟩
  rintro t ⟨item, member, rfl⟩
  rcases List.mem_cons.mp member with rfl | later
  · exact le_refl _
  · exact newest item later

theorem weighs_bull {rest : List (SentimentItem ℝ)} {ts : DateTime} (quiet : ∀ item ∈ rest, Neutral id item ∧ item.ts ≤ ts) :
    negligible < totalWeight Real.exp id (post "bull" ts :: rest) := by
  have others : (rest.map fun item => |(raw id item : ℝ)| * itemWeight Real.exp id ts item).sum = 0 := by
    apply List.sum_eq_zero
    intro x member
    obtain ⟨item, among, rfl⟩ := List.mem_map.mp member
    simp [raw_of_neutral (quiet item among).1]
  have greatest : Newest (post "bull" ts :: rest) ts := newest_head fun item member => (quiet item member).2
  rw [totalWeight_eq greatest, tallyOf_eq]
  dsimp only
  rw [List.map_cons, List.sum_cons, others, raw_bull, weight_now]
  norm_num [negligible]

/-- A post, and the same post five microseconds later after one without keywords. -/
theorem score_invariant_bull :
    (score Real.exp id [post "bull" 5, post "hello" 0]).score = (score Real.exp id [post "bull" 0]).score := by
  refine (score_invariant (d := 5) Real.exp_pos Real.exp_add (fun x low => Real.exp_le_one_iff.mpr low)
    (show [post "bull" 5, post "hello" 0].Perm ([post "bull" 0].map (.later 5) ++ [post "hello" 0]) from .refl _) ?_
    (weighs_bull (by simp)) (weighs_bull ?_)).1
  · intro item member
    rw [List.mem_singleton.mp member]
    exact neutral_hello 0
  · intro item member
    rw [List.mem_singleton.mp member]
    exact ⟨neutral_hello 0, by decide⟩

theorem snapshot_newest_one :
    ((⟨[post "bull" 0, post "hello" 7]⟩ : InMemorySentimentAdapter ℝ).fetch (some (7 - 10)) 1).length = 1 := by
  obtain ⟨size, -⟩ := snapshot_newest id Real.exp_pos ⟨[post "bull" 0, post "hello" 7]⟩ 7 10 (by decide : (0 : ℤ) ≤ 1)
  exact size.trans rfl

end Witness

end CryptoQuant.Sentiment
