import CryptoQuant.Data.Rows
import CryptoQuant.Lib.Run
import CryptoQuant.Lib.Tally
import Mathlib.Algebra.BigOperators.Group.List.Lemmas
import Mathlib.Algebra.Order.BigOperators.Group.List
import Mathlib.Algebra.Order.Field.Rat
import Mathlib.Algebra.Order.Group.MinMax
import Mathlib.Tactic.Linarith
import Mathlib.Tactic.Ring

/-!
# Net exposure

`calculate_net_exposure` of `risk/portfolio_engine.py`. The positions of a strategy are
netted, and so are those of the portfolio; the gross exposure is not.
-/

namespace CryptoQuant.PortfolioEngine
set_option autoImplicit false

open Data (Number)

/-- `StrategyPosition`. -/
structure StrategyPosition where
  strategy : String
  symbol : String
  qty : Number
  price : Number

/-- `ExposureSnapshot`. -/
structure ExposureSnapshot where
  perStrategyNetNotional : Py.Dict String ℚ
  portfolioNetNotional : ℚ
  portfolioGrossNotional : ℚ
  netExposureRatio : ℚ
  grossExposureRatio : ℚ
  longExposureRatio : ℚ
  shortExposureRatio : ℚ

/-- `qty * price`, where it is finite. -/
def StrategyPosition.signedNotional? (p : StrategyPosition) : Option ℚ :=
  match p.qty, p.price with
  | .real (some (some qty)), .real (some (some price)) => some (qty * price)
  | _, _ => none

/-- The variables of the loop. -/
structure Exposure where
  perStrategyNet : Py.Dict String ℚ
  totalSigned : ℚ
  totalAbs : ℚ
  totalLong : ℚ
  totalShort : ℚ

/-- What a round of the loop does with `signed_notional`. -/
def Exposure.add (st : Exposure) (strategy : String) (signedNotional : ℚ) : Exposure :=
  { perStrategyNet := st.perStrategyNet.set strategy (st.perStrategyNet.getD strategy 0 + signedNotional)
    totalSigned := st.totalSigned + signedNotional
    totalAbs := st.totalAbs + |signedNotional|
    totalLong := if 0 ≤ signedNotional then st.totalLong + signedNotional else st.totalLong
    totalShort := if 0 ≤ signedNotional then st.totalShort else st.totalShort + |signedNotional| }

/-- One round of the loop. -/
def Exposure.round (st : Exposure) (p : StrategyPosition) : Except PyError Exposure := do
  raiseIf (p.price ≤ .finite 0) (.valueError s!"price must be positive: {p.symbol}")
  match p.signedNotional? with
  | none => .error (.valueError s!"non-finite notional: {p.strategy}/{p.symbol}")
  | some signedNotional => return st.add p.strategy signedNotional

/-- `calculate_net_exposure`. -/
def calculateNetExposure (positions : List StrategyPosition) (equity : ℚ) : Except PyError ExposureSnapshot := do
  raiseIf (equity ≤ 0) (.valueError "equity must be positive")
  let st ← positions.foldlM Exposure.round ⟨.empty, 0, 0, 0, 0⟩
  return {
    perStrategyNetNotional := st.perStrategyNet
    portfolioNetNotional := st.totalSigned
    portfolioGrossNotional := st.totalAbs
    netExposureRatio := st.totalSigned / equity
    grossExposureRatio := st.totalAbs / equity
    longExposureRatio := st.totalLong / equity
    shortExposureRatio := st.totalShort / equity }

/-! ## Netting -/

/-- What the code refuses in a position. -/
def StrategyPosition.flaw (p : StrategyPosition) : Option PyError :=
  if p.price ≤ .finite 0 then some (.valueError s!"price must be positive: {p.symbol}")
  else if p.signedNotional? = none then some (.valueError s!"non-finite notional: {p.strategy}/{p.symbol}")
  else none

/-- The notional of a position without flaws. -/
def StrategyPosition.notional (p : StrategyPosition) : ℚ := p.signedNotional?.getD 0

theorem Exposure.round_eq (st : Exposure) (p : StrategyPosition) :
    st.round p = p.flaw.elim (.ok (st.add p.strategy p.notional)) .error := by
  unfold Exposure.round StrategyPosition.flaw StrategyPosition.notional raiseIf
  by_cases cheap : p.price ≤ .finite 0
  · simp [cheap, Bind.bind, Except.bind]
  · cases p.signedNotional? with
    | none => simp [cheap, Bind.bind, Except.bind]
    | some notional => simp [cheap, Bind.bind, Except.bind, pure, Except.pure]

/-- What the loop has summed up after some positions. -/
structure Exposure.Of (st : Exposure) (positions : List StrategyPosition) : Prop where
  net : ∀ s, st.perStrategyNet.getD s 0 = Tally.total StrategyPosition.strategy StrategyPosition.notional s positions
  strategies : ∀ s, s ∈ st.perStrategyNet.keys ↔ ∃ p ∈ positions, p.strategy = s
  netted : (st.perStrategyNet.keys.map fun s => st.perStrategyNet.getD s 0).sum = st.totalSigned
  nettedAbs : (st.perStrategyNet.keys.map fun s => |st.perStrategyNet.getD s 0|).sum ≤ st.totalAbs
  signed : st.totalSigned = (positions.map StrategyPosition.notional).sum
  abs : st.totalAbs = (positions.map fun p => |p.notional|).sum
  long : st.totalLong = (positions.map fun p => max p.notional 0).sum
  short : st.totalShort = (positions.map fun p => max (-p.notional) 0).sum

/-- **Step lemma**: a position is summed up. -/
theorem Exposure.Of.add {st : Exposure} {positions : List StrategyPosition} (sums : st.Of positions) (p : StrategyPosition) :
    (st.add p.strategy p.notional).Of (positions ++ [p]) := by
  have absent (missing : p.strategy ∉ st.perStrategyNet.keys) : st.perStrategyNet.getD p.strategy 0 = 0 := by
    rw [Py.Dict.getD, Py.Dict.get?_eq_none_iff.mpr missing]
    rfl
  have other (s : String) (differs : s ≠ p.strategy) :
      (st.add p.strategy p.notional).perStrategyNet.getD s 0 = st.perStrategyNet.getD s 0 := by
    rw [Exposure.add, Py.Dict.getD_set, if_neg differs]
  have own : (st.add p.strategy p.notional).perStrategyNet.getD p.strategy 0 =
      st.perStrategyNet.getD p.strategy 0 + p.notional := Py.Dict.getD_set_self _ _ _ _
  refine ⟨fun s => ?_, fun s => ?_, ?_, ?_, ?_, ?_, ?_, ?_⟩
  · rw [Tally.total_snoc, ← sums.net]
    by_cases here : s = p.strategy
    · rw [here, own, if_pos rfl]
    · rw [other s here, if_neg (Ne.symm here), add_zero]
  · rw [Exposure.add, Py.Dict.mem_keys_set, sums.strategies]
    simp only [List.mem_append, List.mem_singleton]
    constructor
    · rintro (rfl | ⟨q, member, same⟩)
      · exact ⟨p, .inr rfl, rfl⟩
      · exact ⟨q, .inl member, same⟩
    · rintro ⟨q, member | rfl, same⟩
      · exact .inr ⟨q, member, same⟩
      · exact .inl same.symm
  · refine (Py.Dict.sum_keys_set st.perStrategyNet _ (fun s differs => other s differs) absent).trans ?_
    rw [own, sums.netted, add_sub_cancel_left]
    rfl
  · refine (Py.Dict.sum_keys_set st.perStrategyNet (g := fun s => |st.perStrategyNet.getD s 0|) _
      (fun s differs => by rw [other s differs]) fun missing => by rw [absent missing, abs_zero]).trans_le ?_
    rw [own]
    have triangle := abs_add_le (st.perStrategyNet.getD p.strategy 0) p.notional
    show _ ≤ st.totalAbs + |p.notional|
    linarith [sums.nettedAbs]
  · rw [List.map_append, List.sum_append, ← sums.signed, List.map_singleton, List.sum_singleton]
    rfl
  · rw [List.map_append, List.sum_append, ← sums.abs, List.map_singleton, List.sum_singleton]
    rfl
  · rw [List.map_append, List.sum_append, ← sums.long, List.map_singleton, List.sum_singleton]
    by_cases side : 0 ≤ p.notional
    · rw [max_eq_left side]
      exact if_pos side
    · rw [max_eq_right (le_of_not_ge side), add_zero]
      exact if_neg side
  · rw [List.map_append, List.sum_append, ← sums.short, List.map_singleton, List.sum_singleton]
    by_cases side : 0 ≤ p.notional
    · rw [max_eq_right (neg_nonpos.mpr side), add_zero]
      exact if_pos side
    · rw [max_eq_left (neg_nonneg.mpr (le_of_not_ge side)), ← abs_of_nonpos (le_of_not_ge side)]
      exact if_neg side

/-- **Run lemma**: the loop sums up the positions. -/
theorem exposure_of (positions : List StrategyPosition) :
    Exposure.Of (positions.foldl (fun st p => st.add p.strategy p.notional) ⟨.empty, 0, 0, 0, 0⟩) positions := by
  induction positions using List.reverseRecOn with
  | nil => exact ⟨fun s => rfl, by simp [Py.Dict.empty, Py.Dict.keys], rfl, le_refl _, rfl, rfl, rfl, rfl⟩
  | append_singleton positions p ih =>
    rw [List.foldl_append, List.foldl_cons, List.foldl_nil]
    exact ih.add p

theorem Exposure.sum_values (st : Exposure) (f : ℚ → ℚ) :
    (st.perStrategyNet.values.map f).sum = (st.perStrategyNet.keys.map fun s => f (st.perStrategyNet.getD s 0)).sum := by
  rw [← Py.Dict.sum_items st.perStrategyNet (fun _ net => f net) 0, Py.Dict.values, List.map_map]
  rfl

section Sums
variable {st : Exposure} {positions : List StrategyPosition} (sums : st.Of positions)
include sums

theorem Exposure.Of.get? (s : String) : st.perStrategyNet.get? s = if ∃ p ∈ positions, p.strategy = s then
    some (Tally.total StrategyPosition.strategy StrategyPosition.notional s positions) else none := by
  by_cases member : ∃ p ∈ positions, p.strategy = s
  · obtain ⟨net, found⟩ := Py.Dict.mem_keys_iff.mp ((sums.strategies s).mpr member)
    rw [if_pos member, ← sums.net, Py.Dict.getD, found]
    rfl
  · rw [if_neg member, Py.Dict.get?_eq_none_iff, sums.strategies]
    exact member

/-- The sums are long and short. -/
theorem Exposure.Of.sides : st.totalSigned = st.totalLong - st.totalShort ∧ st.totalAbs = st.totalLong + st.totalShort ∧
    0 ≤ st.totalLong ∧ 0 ≤ st.totalShort := by
  refine ⟨?_, ?_, ?_, ?_⟩
  · rw [eq_sub_iff_add_eq, sums.signed, sums.short, sums.long, ← List.sum_map_add]
    refine congrArg List.sum (List.map_congr_left fun p _ => ?_)
    rw [← eq_sub_iff_add_eq, max_zero_sub_max_neg_zero_eq_self]
  · rw [sums.abs, sums.long, sums.short, ← List.sum_map_add]
    exact congrArg List.sum (List.map_congr_left fun p _ => (max_zero_add_max_neg_zero_eq_abs_self _).symm)
  · rw [sums.long]
    refine List.sum_nonneg fun x member => ?_
    obtain ⟨p, -, rfl⟩ := List.mem_map.mp member
    exact le_max_right _ _
  · rw [sums.short]
    refine List.sum_nonneg fun x member => ?_
    obtain ⟨p, -, rfl⟩ := List.mem_map.mp member
    exact le_max_right _ _

end Sums

/-- Positions in another order have the same sums. -/
theorem Exposure.Of.perm {st st' : Exposure} {positions positions' : List StrategyPosition} (sums : st.Of positions)
    (sums' : st'.Of positions') (perm : positions'.Perm positions) :
    (∀ s, st'.perStrategyNet.get? s = st.perStrategyNet.get? s) ∧ st'.totalSigned = st.totalSigned ∧
      st'.totalAbs = st.totalAbs ∧ st'.totalLong = st.totalLong ∧ st'.totalShort = st.totalShort := by
  refine ⟨fun s => ?_, ?_, ?_, ?_, ?_⟩
  · rw [sums.get?, sums'.get?, Tally.total_perm _ _ _ perm]
    simp only [perm.mem_iff]
  · rw [sums.signed, sums'.signed, (perm.map _).sum_eq]
  · rw [sums.abs, sums'.abs, (perm.map _).sum_eq]
  · rw [sums.long, sums'.long, (perm.map _).sum_eq]
  · rw [sums.short, sums'.short, (perm.map _).sum_eq]

/-- The snapshot of sums. -/
def Exposure.snapshot (st : Exposure) (equity : ℚ) : ExposureSnapshot :=
  { perStrategyNetNotional := st.perStrategyNet
    portfolioNetNotional := st.totalSigned
    portfolioGrossNotional := st.totalAbs
    netExposureRatio := st.totalSigned / equity
    grossExposureRatio := st.totalAbs / equity
    longExposureRatio := st.totalLong / equity
    shortExposureRatio := st.totalShort / equity }

theorem calculateNetExposure_eq (positions : List StrategyPosition) {equity : ℚ} (positive : 0 < equity) :
    calculateNetExposure positions equity = (positions.findSome? StrategyPosition.flaw).elim
      (.ok ((positions.foldl (fun st p => st.add p.strategy p.notional) ⟨.empty, 0, 0, 0, 0⟩ : Exposure).snapshot equity))
      .error := by
  rw [calculateNetExposure, raiseIf, if_neg (not_le.mpr positive), Run.foldlM_checked Exposure.round_eq]
  cases positions.findSome? StrategyPosition.flaw <;> rfl

/-- **Netting.** The exposure of positions is refused for the first flaw among them. Without flaws
the net of a strategy is the sum over its positions, the nets of the strategies make the
net of the portfolio, in absolute terms they are within its gross, which is long plus
short as the net is long minus short; and in another order the positions have the same
exposure. -/
theorem net_exposure (positions : List StrategyPosition) {equity : ℚ} (positive : 0 < equity) :
    (∀ e, calculateNetExposure positions equity = .error e ↔ positions.findSome? StrategyPosition.flaw = some e) ∧
    ∀ snapshot, calculateNetExposure positions equity = .ok snapshot →
      (∀ s, snapshot.perStrategyNetNotional.get? s = if ∃ p ∈ positions, p.strategy = s then
        some (Tally.total StrategyPosition.strategy StrategyPosition.notional s positions) else none) ∧
      snapshot.perStrategyNetNotional.values.sum = snapshot.portfolioNetNotional ∧
      (snapshot.perStrategyNetNotional.values.map abs).sum ≤ snapshot.portfolioGrossNotional ∧
      snapshot.netExposureRatio = snapshot.longExposureRatio - snapshot.shortExposureRatio ∧
      snapshot.grossExposureRatio = snapshot.longExposureRatio + snapshot.shortExposureRatio ∧
      0 ≤ snapshot.longExposureRatio ∧ 0 ≤ snapshot.shortExposureRatio ∧
      ∀ positions', positions'.Perm positions → ∃ snapshot', calculateNetExposure positions' equity = .ok snapshot' ∧
        (∀ s, snapshot'.perStrategyNetNotional.get? s = snapshot.perStrategyNetNotional.get? s) ∧
        { snapshot' with perStrategyNetNotional := snapshot.perStrategyNetNotional } = snapshot := by
  rw [calculateNetExposure_eq positions positive]
  have sums := exposure_of positions
  generalize positions.foldl (fun (st : Exposure) p => st.add p.strategy p.notional) ⟨.empty, 0, 0, 0, 0⟩ = st at sums
  cases flaws : positions.findSome? StrategyPosition.flaw with
  | some e =>
    refine ⟨fun e' => ?_, fun snapshot done => nomatch done⟩
    simp
  | none =>
    refine ⟨fun e' => by simp, ?_⟩
    rintro snapshot ⟨⟩
    obtain ⟨signed, gross, long, short⟩ := sums.sides
    refine ⟨sums.get?, ?_, ?_, ?_, ?_, div_nonneg long positive.le, div_nonneg short positive.le, fun positions' perm => ?_⟩
    · have values := st.sum_values id
      rw [List.map_id] at values
      exact values.trans sums.netted
    · exact (st.sum_values abs).trans_le sums.nettedAbs
    · show st.totalSigned / equity = st.totalLong / equity - st.totalShort / equity
      rw [signed, sub_div]
    · show st.totalAbs / equity = st.totalLong / equity + st.totalShort / equity
      rw [gross, add_div]
    · have flawless : positions'.findSome? StrategyPosition.flaw = none :=
        List.findSome?_eq_none_iff.mpr fun p member => List.findSome?_eq_none_iff.mp flaws p (perm.mem_iff.mp member)
      obtain ⟨strategies, signed', gross', long', short'⟩ := sums.perm (exposure_of positions') perm
      rw [calculateNetExposure_eq positions' positive, flawless]
      refine ⟨_, rfl, strategies, ?_⟩
      simp only [Exposure.snapshot, signed', gross', long', short']

/-- Two strategies on two sides. -/
def hedge : List StrategyPosition :=
  [⟨"trend", "BTCUSDT", .finite 5, .finite 100⟩, ⟨"mr", "BTCUSDT", .finite (-2), .finite 100⟩]

theorem net_exposure_hedge : ∃ snapshot, calculateNetExposure hedge 1000 = .ok snapshot ∧
    snapshot.perStrategyNetNotional.values.sum = snapshot.portfolioNetNotional := by
  have positive : (0 : ℚ) < 1000 := by norm_num
  have flawless : hedge.findSome? StrategyPosition.flaw = none := by decide +kernel
  obtain ⟨snapshot, done⟩ : ∃ snapshot, calculateNetExposure hedge 1000 = .ok snapshot := by
    rw [calculateNetExposure_eq hedge positive, flawless]
    exact ⟨_, rfl⟩
  obtain ⟨-, netted, -⟩ := (net_exposure hedge positive).2 snapshot done
  exact ⟨snapshot, done, netted⟩

end CryptoQuant.PortfolioEngine
