import CryptoQuant.Data.Checklist
import CryptoQuant.Lib.Run
import Mathlib.Data.List.Pairwise

/-!
# Rows that pass

What a checklist accepts, with whatever it expects and whether or not it allows a time
twice: rows that no check of one row flags, at times that do not go back. Its checks of the
prices refuse `nan`; that of the volume, which asks whether it is below zero, does not. A
part of such rows passes as well.
-/

namespace CryptoQuant.Data
set_option autoImplicit false

/-! ## Numbers -/

theorem Number.not_lt_of_between {low x high : Number} (above : low ≤ x) (below : x ≤ high) : ¬ high < low := by
  cases low with
  | nan => exact above.elim
  | real low =>
    cases x with
    | nan => exact above.elim
    | real x =>
      cases high with
      | nan => exact id
      | real high =>
        have le : low ≤ high := (show low ≤ x from above).trans below
        exact not_lt.mpr le

/-- The number in a column. -/
def numberAt (row : Row) (name : String) : Option Number := (row.get? name).bind Cell.number?

theorem number?_getD {row : Row} {name : String} : (row.getD name .none).number? = numberAt row name := by
  rw [Py.Dict.getD, numberAt]
  cases row.get? name <;> rfl

/-- A value that is there. -/
theorem getD_none_iff {row : Row} {name : String} {c : Cell} (present : c ≠ .none) :
    row.getD name .none = c ↔ row.get? name = some c := by
  rw [Py.Dict.getD]
  cases row.get? name with
  | none => exact iff_of_false (fun absent => present absent.symm) (by simp)
  | some d => exact Option.some_inj.symm

/-! ## One row -/

section Checks
variable (st : Checked) (idx : ℕ) (code message : String)

@[simp] theorem issues_flag (fails : Prop) [Decidable fails] :
    (st.flag idx fails code message).issues = [] ↔ st.issues = [] ∧ ¬ fails := by
  unfold Checked.flag
  split
  · rename_i failed
    exact iff_of_false (List.append_ne_nil_of_right_ne_nil _ (List.cons_ne_nil _ _)) fun none => none.2 failed
  · rename_i passed
    exact ⟨fun none => ⟨none, passed⟩, And.left⟩

theorem flag_of_not {fails : Prop} [Decidable fails] (passed : ¬ fails) : st.flag idx fails code message = st := if_neg passed

@[simp] theorem previousTs_flag (fails : Prop) [Decidable fails] :
    (st.flag idx fails code message).previousTs = st.previousTs := by
  unfold Checked.flag
  split <;> rfl

@[simp] theorem seenTs_flag (fails : Prop) [Decidable fails] : (st.flag idx fails code message).seenTs = st.seenTs := by
  unfold Checked.flag
  split <;> rfl

/-- Prices in range, and a volume that is accepted. -/
structure RowNumbers (accepts : Number → Prop) (row : Row) : Prop where
  prices : ∃ openPrice high low close, numberAt row "open" = some openPrice ∧ numberAt row "high" = some high ∧
    numberAt row "low" = some low ∧ numberAt row "close" = some close ∧
    (low ≤ openPrice ∧ openPrice ≤ high) ∧ low ≤ close ∧ close ≤ high
  volume : ∃ volume, (row.getD "volume" (.float (.finite 0))).number? = some volume ∧ accepts volume

/-- The checks of the numbers find nothing exactly in such a row, a volume that is not below zero accepted. -/
theorem issues_flagNumbers (row : Row) :
    (st.flagNumbers idx row).issues = [] ↔ st.issues = [] ∧ RowNumbers (fun volume => ¬ volume < .finite 0) row := by
  simp only [Checked.flagNumbers, issues_flag, List.foldl_cons, List.foldl_nil, Bool.not_eq_false, and_assoc]
  constructor
  · rintro ⟨empty, openNumeric, highNumeric, lowNumeric, closeNumeric, volumeNumeric, _, openInside, closeInside, volumeAbove⟩
    refine ⟨empty, ?_, ?_⟩
    · obtain ⟨openPrice, isOpen⟩ := Option.isSome_iff_exists.mp openNumeric
      obtain ⟨high, isHigh⟩ := Option.isSome_iff_exists.mp highNumeric
      obtain ⟨low, isLow⟩ := Option.isSome_iff_exists.mp lowNumeric
      obtain ⟨close, isClose⟩ := Option.isSome_iff_exists.mp closeNumeric
      refine ⟨openPrice, high, low, close, number?_getD.symm.trans isOpen, number?_getD.symm.trans isHigh,
        number?_getD.symm.trans isLow, number?_getD.symm.trans isClose, ?_, ?_⟩
      · simpa [Cell.isNumeric, Cell.within, isOpen, isHigh, isLow, isClose] using openInside
      · simpa [Cell.isNumeric, Cell.within, isOpen, isHigh, isLow, isClose] using closeInside
    · obtain ⟨volume, isVolume⟩ := Option.isSome_iff_exists.mp volumeNumeric
      exact ⟨volume, isVolume, by simpa [Cell.below, isVolume] using volumeAbove⟩
  · rintro ⟨empty, ⟨openPrice, high, low, close, isOpen, isHigh, isLow, isClose, openInside, closeInside⟩, volume, isVolume, above⟩
    have ordered := Number.not_lt_of_between openInside.1 openInside.2
    simp [Cell.isNumeric, Cell.within, Cell.below, number?_getD, isOpen, isHigh, isLow, isClose, isVolume, empty,
      openInside, closeInside, above, ordered]

@[simp] theorem previousTs_flagNumbers (row : Row) : (st.flagNumbers idx row).previousTs = st.previousTs := by
  simp only [Checked.flagNumbers, previousTs_flag, List.foldl_cons, List.foldl_nil]

@[simp] theorem seenTs_flagNumbers (row : Row) : (st.flagNumbers idx row).seenTs = st.seenTs := by
  simp only [Checked.flagNumbers, seenTs_flag, List.foldl_cons, List.foldl_nil]

end Checks

/-- A volume that the code lets through. -/
def NotNegative (volume : Number) : Prop := ¬ volume < .finite 0

/-! ## Series -/

/-- The time of a row, if it has one. -/
def timeOf (row : Row) : Option Timestamp :=
  match row.get? "ts" with
  | some (.datetime ts) => some ts
  | _ => none

variable {py : Builtins} {checklist : DataQualityChecklist} {expectedSymbol expectedTimeframe : Option String}

/-- `a` may stand before `b`. -/
def Timestamp.Precedes (allowDuplicateTs : Bool) (a b : Timestamp) : Prop :=
  a.aware = b.aware ∧ a.time ≤ b.time ∧ ¬ (a = b ∧ allowDuplicateTs = false)

/-- A name of a row that is there, and the expected one if a name is expected. -/
def NamePasses (name : String) (expectedName : Option String) : Prop :=
  name ≠ "" ∧ ¬ (expectedName.getD "" ≠ "" ∧ name ≠ "" ∧ name ≠ expectedName.getD "")

/-- A row that no check of one row flags. -/
structure RowPasses (py : Builtins) (expectedSymbol expectedTimeframe : Option String) (row : Row) (at_ : Timestamp) :
    Prop where
  numbers : RowNumbers NotNegative row
  symbol : NamePasses (py.str (row.getD "symbol" (.text ""))) expectedSymbol
  timeframe : NamePasses (py.str (row.getD "timeframe" (.text ""))) expectedTimeframe
  ts : row.get? "ts" = some (.datetime at_)

/-- Rows that no check flags. -/
structure Passing (py : Builtins) (checklist : DataQualityChecklist) (expectedSymbol expectedTimeframe : Option String)
    (rows : List Row) : Prop where
  each : ∀ row ∈ rows, ∃ ts, RowPasses py expectedSymbol expectedTimeframe row ts
  ordered : (rows.filterMap timeOf).Pairwise (Timestamp.Precedes checklist.allowDuplicateTs)

theorem RowPasses.timeOf {row : Row} {ts : Timestamp} (passes : RowPasses py expectedSymbol expectedTimeframe row ts) :
    Data.timeOf row = some ts := by
  rw [Data.timeOf, passes.ts]

/-- A part of rows that pass. -/
theorem Passing.sublist {rows part : List Row} (passing : Passing py checklist expectedSymbol expectedTimeframe rows)
    (sub : part.Sublist rows) : Passing py checklist expectedSymbol expectedTimeframe part where
  each row member := passing.each row (sub.subset member)
  ordered := passing.ordered.sublist (sub.filterMap timeOf)

/-- What the loop has found and kept after rows that pass. -/
def Checked.after (rows : List Row) : Checked where
  issues := []
  previousTs := (rows.filterMap timeOf).getLast?
  seenTs := rows.filterMap timeOf

/-- The check of the time, where the comparison with the last one answers. -/
theorem flagTime_passes_compared {st st' : Checked} {idx : ℕ} {ts : Timestamp} {earlier allow : Bool}
    (compared : st.comesEarlier ts = .ok earlier) :
    (st.flagTime idx ts allow = .ok st' ∧ st'.issues = []) ↔
      st.issues = [] ∧ earlier = false ∧ ¬ (ts ∈ st.seenTs ∧ allow = false) ∧
        st' = { issues := [], previousTs := some ts, seenTs := st.seenTs ++ [ts] } := by
  unfold Checked.flagTime
  rw [compared]
  constructor
  · rintro ⟨done, none⟩
    cases done
    simp only [issues_flag, seenTs_flag, Bool.not_eq_true] at none
    obtain ⟨⟨empty, later⟩, unseen⟩ := none
    refine ⟨empty, later, unseen, ?_⟩
    rw [flag_of_not _ _ _ _ (by rw [seenTs_flag]; exact unseen), flag_of_not st _ _ _ (later ▸ Bool.false_ne_true)]
    simp only [empty]
  · rintro ⟨empty, rfl, unseen, rfl⟩
    refine ⟨?_, rfl⟩
    show Except.ok _ = _
    rw [flag_of_not _ _ _ _ (by rw [seenTs_flag]; exact unseen), flag_of_not st _ _ _ Bool.false_ne_true]
    simp only [empty]

/-- What the check of the time adds where it finds nothing. -/
theorem flagTime_passes_iff {st st' : Checked} {idx : ℕ} {ts : Timestamp} {allow : Bool} :
    (st.flagTime idx ts allow = .ok st' ∧ st'.issues = []) ↔
      st.issues = [] ∧ (∀ previous ∈ st.previousTs, previous.aware = ts.aware ∧ previous.time ≤ ts.time) ∧
        ¬ (ts ∈ st.seenTs ∧ allow = false) ∧
        st' = { issues := [], previousTs := some ts, seenTs := st.seenTs ++ [ts] } := by
  cases last : st.previousTs with
  | none =>
    have compared : st.comesEarlier ts = .ok false := by rw [Checked.comesEarlier, last]
    rw [flagTime_passes_compared compared]
    simp only [true_and, Option.mem_def, reduceCtorEq, false_implies, implies_true]
  | some previous =>
    simp only [Option.mem_def, Option.some.injEq, forall_eq']
    by_cases alike : ts.aware = previous.aware
    · have compared : st.comesEarlier ts = .ok (decide (ts.time < previous.time)) := by
        rw [Checked.comesEarlier, last]
        exact if_pos alike
      rw [flagTime_passes_compared compared, decide_eq_false_iff_not, not_lt, alike]
      simp only [true_and]
    · have compared : st.comesEarlier ts = .error (.external "can't compare offset-naive and offset-aware datetimes") := by
        rw [Checked.comesEarlier, last]
        exact if_neg alike
      rw [Checked.flagTime, compared]
      refine iff_of_false ?_ fun both => alike both.2.1.1.symm
      rintro ⟨done, -⟩
      cases done

/-- What one row adds where nothing is found. -/
theorem checkRow_passes_iff {st st' : Checked} {idx : ℕ} {row : Row} :
    (checklist.checkRow py expectedSymbol expectedTimeframe st idx row = .ok st' ∧ st'.issues = []) ↔
      ∃ ts, RowPasses py expectedSymbol expectedTimeframe row ts ∧ st.issues = [] ∧
        (∀ previous ∈ st.previousTs, previous.aware = ts.aware ∧ previous.time ≤ ts.time) ∧
        ¬ (ts ∈ st.seenTs ∧ checklist.allowDuplicateTs = false) ∧
        st' = { issues := [], previousTs := some ts, seenTs := st.seenTs ++ [ts] } := by
  unfold DataQualityChecklist.checkRow
  dsimp only
  split
  · rename_i ts found
    have present : Cell.datetime ts ≠ .none := nofun
    have dated := (getD_none_iff present).mp found
    simp only [flagTime_passes_iff, Checked.flagName, issues_flag, issues_flagNumbers, previousTs_flag, seenTs_flag,
      previousTs_flagNumbers, seenTs_flagNumbers]
    constructor
    · rintro ⟨⟨⟨⟨⟨⟨empty, hasSymbol⟩, hasTimeframe⟩, numbers⟩, symbolSame⟩, timeframeSame⟩, later, unseen, done⟩
      exact ⟨ts, ⟨numbers, ⟨hasSymbol, symbolSame⟩, ⟨hasTimeframe, timeframeSame⟩, dated⟩, empty, later, unseen, done⟩
    · rintro ⟨ts', passes, empty, later, unseen, done⟩
      obtain rfl : ts' = ts := by
        have same := passes.ts.symm.trans dated
        cases same
        rfl
      exact ⟨⟨⟨⟨⟨⟨empty, passes.symbol.1⟩, passes.timeframe.1⟩, passes.numbers⟩, passes.symbol.2⟩, passes.timeframe.2⟩,
        later, unseen, done⟩
  · rename_i other
    constructor
    · rintro ⟨done, none⟩
      cases done
      exact absurd trivial ((issues_flag _ _ _ _ _).mp none).2
    · rintro ⟨ts, passes, _⟩
      have present : Cell.datetime ts ≠ .none := nofun
      exact (other ts ((getD_none_iff present).mpr passes.ts)).elim

/-- A time that is not before the last one, and new where it has to be. -/
theorem precedes_snoc_iff {allow : Bool} {times : List Timestamp} {ts : Timestamp}
    (ordered : times.Pairwise (Timestamp.Precedes allow)) :
    ((∀ previous ∈ times.getLast?, previous.aware = ts.aware ∧ previous.time ≤ ts.time) ∧ ¬ (ts ∈ times ∧ allow = false)) ↔
      (times ++ [ts]).Pairwise (Timestamp.Precedes allow) := by
  rw [List.pairwise_append]
  rcases List.eq_nil_or_concat times with rfl | ⟨init, previous, rfl⟩
  · simp
  rw [List.concat_eq_append] at *
  have before := (List.pairwise_append.mp ordered).2.2
  simp only [List.getLast?_concat, Option.mem_def, Option.some.injEq, forall_eq']
  constructor
  · rintro ⟨later, unseen⟩
    refine ⟨ordered, List.pairwise_singleton _ _, fun x member y here => ?_⟩
    rw [List.mem_singleton.mp here]
    have new : ¬ (x = ts ∧ allow = false) := fun both => unseen ⟨both.1 ▸ member, both.2⟩
    rcases List.mem_append.mp member with earlier | last
    · have first := before x earlier previous (List.mem_singleton_self _)
      exact ⟨first.1.trans later.1, first.2.1.trans later.2, new⟩
    · rw [List.mem_singleton.mp last] at new ⊢
      exact ⟨later.1, later.2, new⟩
  · rintro ⟨_, _, all⟩
    have last := all previous (List.mem_append_right _ (List.mem_singleton_self _)) ts (List.mem_singleton_self _)
    refine ⟨⟨last.1, last.2.1⟩, fun seen => ?_⟩
    exact (all ts seen.1 ts (List.mem_singleton_self _)).2.2 ⟨rfl, seen.2⟩

/-- One more row that passes. -/
theorem passing_snoc_iff {rows : List Row} {row : Row} :
    Passing py checklist expectedSymbol expectedTimeframe (rows ++ [row]) ↔
      ∃ ts, RowPasses py expectedSymbol expectedTimeframe row ts ∧
        Passing py checklist expectedSymbol expectedTimeframe rows ∧
        (∀ previous ∈ (rows.filterMap timeOf).getLast?, previous.aware = ts.aware ∧ previous.time ≤ ts.time) ∧
        ¬ (ts ∈ rows.filterMap timeOf ∧ checklist.allowDuplicateTs = false) := by
  constructor
  · intro passing
    obtain ⟨ts, passes⟩ := passing.each row (List.mem_append_right _ (List.mem_singleton_self row))
    have ordered := passing.ordered
    rw [List.filterMap_append, List.filterMap_cons, passes.timeOf] at ordered
    have init := passing.sublist (List.sublist_append_left rows [row])
    exact ⟨ts, passes, init, (precedes_snoc_iff init.ordered).mpr ordered⟩
  · rintro ⟨ts, passes, passing, after⟩
    constructor
    · intro r member
      rcases List.mem_append.mp member with earlier | here
      · exact passing.each r earlier
      · exact ⟨ts, List.mem_singleton.mp here ▸ passes⟩
    · rw [List.filterMap_append, List.filterMap_cons, passes.timeOf]
      exact (precedes_snoc_iff passing.ordered).mp after

/-- What the loop leaves where it finds nothing. -/
theorem run_passes_iff (rows : List Row) (st : Checked) :
    (rows.zipIdx.foldlM (fun st p => checklist.checkRow py expectedSymbol expectedTimeframe st p.2 p.1) {} = .ok st ∧
        st.issues = []) ↔
      Passing py checklist expectedSymbol expectedTimeframe rows ∧ st = .after rows := by
  induction rows using List.reverseRecOn generalizing st with
  | nil =>
    constructor
    · rintro ⟨done, _⟩
      cases done
      exact ⟨⟨nofun, List.Pairwise.nil⟩, rfl⟩
    · rintro ⟨_, rfl⟩
      exact ⟨rfl, rfl⟩
  | append_singleton rows row ih =>
    have numbered : (rows ++ [row]).zipIdx = rows.zipIdx ++ [(row, rows.length)] := by
      rw [List.zipIdx_append, Nat.zero_add]
      rfl
    rw [numbered, Run.foldlM_snoc_ok, Checked.after, List.filterMap_append, List.filterMap_cons, List.filterMap_nil]
    constructor
    · rintro ⟨⟨before, done, step⟩, none⟩
      obtain ⟨ts, passes, empty, later, unseen, rfl⟩ := checkRow_passes_iff.mp ⟨step, none⟩
      obtain ⟨passing, rfl⟩ := (ih before).mp ⟨done, empty⟩
      rw [passes.timeOf, List.getLast?_concat]
      exact ⟨passing_snoc_iff.mpr ⟨ts, passes, passing, later, unseen⟩, rfl⟩
    · rintro ⟨passing, rfl⟩
      obtain ⟨ts, passes, init, later, unseen⟩ := passing_snoc_iff.mp passing
      obtain ⟨done, empty⟩ := (ih _).mpr ⟨init, rfl⟩
      rw [passes.timeOf, List.getLast?_concat]
      have step : checklist.checkRow py expectedSymbol expectedTimeframe (.after rows) rows.length row = .ok _ ∧ _ :=
        checkRow_passes_iff.mpr ⟨ts, passes, empty, later, unseen, rfl⟩
      exact ⟨⟨_, done, step.1⟩, step.2⟩

/-- The checklist passes exactly the rows that no check flags. -/
theorem validate_passes_iff {rows : List Row} :
    (∃ report, checklist.validate py rows expectedSymbol expectedTimeframe = .ok report ∧ report.passed = true) ↔
      Passing py checklist expectedSymbol expectedTimeframe rows := by
  have ends := @run_passes_iff py checklist expectedSymbol expectedTimeframe rows
  constructor
  · rintro ⟨report, validated, passed⟩
    obtain ⟨st, done, built⟩ := Run.bind_ok.mp validated
    cases built
    have none : st.issues = [] := List.length_eq_zero_iff.mp (beq_iff_eq.mp passed)
    exact ((ends st).mp ⟨done, none⟩).1
  · intro passing
    obtain ⟨done, none⟩ := (ends _).mpr ⟨passing, rfl⟩
    exact ⟨_, Run.bind_ok.mpr ⟨_, done, rfl⟩, rfl⟩

end CryptoQuant.Data
