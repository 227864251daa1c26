import CryptoQuant.Data.Dictionary
import CryptoQuant.Lib.Choices
import CryptoQuant.Lib.Run

/-!
# The order of columns

`normalize` reads of each field the column that comes last, whatever it holds. Any order of
the columns is as good as another exactly where it does not matter which column of a field
is read.
-/

namespace CryptoQuant.Data
set_option autoImplicit false

open Choices

/-! ## Columns -/

variable (mapping : Py.Dict String String)

/-- The column stands for the field. -/
def StandsFor (name : String) (column : String × Cell) : Prop := mapping.get? column.1 = some name

instance (name : String) (column : String × Cell) : Decidable (StandsFor mapping name column) :=
  inferInstanceAs (Decidable (_ = _))

/-- The columns of a field, in their order. -/
def columnsOf (name : String) (row : Row) : List (String × Cell) := row.items.filter fun column => StandsFor mapping name column

/-- The value that is read for a field: that of its last column. -/
def reading (row : Row) (name : String) : Cell := ((columnsOf mapping name row).getLast?.map Prod.snd).getD .none

/-- The values that some order of the columns reads for a field. -/
def readings (row : Row) (name : String) : Set Cell :=
  {value | (∃ column ∈ columnsOf mapping name row, column.2 = value) ∨ columnsOf mapping name row = [] ∧ value = .none}

variable {mapping} {row row' : Row}

theorem mem_columnsOf {name : String} {column : String × Cell} :
    column ∈ columnsOf mapping name row ↔ column ∈ row.items ∧ mapping.get? column.1 = some name := by
  rw [columnsOf, List.mem_filter, decide_eq_true_iff]
  rfl

theorem reading_mem (row : Row) (name : String) : reading mapping row name ∈ readings mapping row name := by
  unfold reading
  cases last : (columnsOf mapping name row).getLast? with
  | none => exact .inr ⟨List.getLast?_eq_none_iff.mp last, rfl⟩
  | some column => exact .inl ⟨column, List.mem_of_getLast? last, rfl⟩

theorem readings_perm (perm : row'.items.Perm row.items) (name : String) : readings mapping row' name = readings mapping row name := by
  have columns : (columnsOf mapping name row').Perm (columnsOf mapping name row) := perm.filter _
  ext value
  unfold readings
  rw [Set.mem_ofPred_eq, Set.mem_ofPred_eq, ← List.length_eq_zero_iff, ← List.length_eq_zero_iff, columns.length_eq]
  simp only [columns.mem_iff]

theorem reading_of_empty {name : String} (empty : columnsOf mapping name row = []) : reading mapping row name = .none := by
  rw [reading, empty]
  rfl

theorem getLast?_of_alone {α : Type} {l : List α} {a : α} (member : a ∈ l) (alone : ∀ b ∈ l, b = a) : l.getLast? = some a := by
  cases last : l.getLast? with
  | none => exact absurd (List.getLast?_eq_none_iff.mp last ▸ member) List.not_mem_nil
  | some b => rw [alone b (List.mem_of_getLast? last)]

theorem filter_not_append_perm {α : Type} (late : α → Bool) (l : List α) : (l.filter (fun a => !late a) ++ l.filter late).Perm l :=
  List.perm_append_comm.trans (List.filter_append_perm late l)

/-- The row with some of its columns moved to the end. -/
def moveLast (late : String × Cell → Bool) (row : Row) : Row where
  items := row.items.filter (fun column => !late column) ++ row.items.filter late
  nodup := ((filter_not_append_perm late row.items).map Prod.fst).nodup_iff.mpr row.nodup

theorem perm_moveLast (late : String × Cell → Bool) : (moveLast late row).items.Perm row.items :=
  filter_not_append_perm late row.items

/-- The one column of a field that is moved to the end is read. -/
theorem reading_moveLast {late : String × Cell → Bool} {name : String} {column : String × Cell}
    (member : column ∈ columnsOf mapping name row) (moved : late column = true)
    (alone : ∀ other ∈ columnsOf mapping name row, late other = true → other = column) :
    reading mapping (moveLast late row) name = column.2 := by
  have found : column ∈ (row.items.filter late).filter fun column => StandsFor mapping name column :=
    List.mem_filter.mpr ⟨List.mem_filter.mpr ⟨(mem_columnsOf.mp member).1, moved⟩, decide_eq_true (mem_columnsOf.mp member).2⟩
  have last := getLast?_of_alone found fun other among => by
    obtain ⟨among, stands⟩ := List.mem_filter.mp among
    obtain ⟨among, late⟩ := List.mem_filter.mp among
    exact alone other (List.mem_filter.mpr ⟨among, stands⟩) late
  rw [reading, columnsOf, moveLast, List.filter_append, List.getLast?_append_of_ne_nil _ (List.ne_nil_of_mem found), last]
  rfl

/-- Some order of the columns reads any choice of values. -/
theorem exists_perm_reading {choice : String → Cell} (chooses : Chooses (readings mapping row) choice) :
    ∃ row' : Row, row'.items.Perm row.items ∧ ∀ name, reading mapping row' name = choice name := by
  classical
  have picks : ∀ name, ∃ column : String × Cell, columnsOf mapping name row ≠ [] →
      column ∈ columnsOf mapping name row ∧ column.2 = choice name := by
    intro name
    rcases chooses name with ⟨column, member, value⟩ | ⟨empty, _⟩
    · exact ⟨column, fun _ => ⟨member, value⟩⟩
    · exact ⟨("", .none), fun some => absurd empty some⟩
  choose pick picked using picks
  -- the picked columns come last
  let late : String × Cell → Bool := fun column => decide (∃ name, StandsFor mapping name column ∧ pick name = column)
  refine ⟨moveLast late row, perm_moveLast late, fun name => ?_⟩
  by_cases empty : columnsOf mapping name row = []
  · have none : reading mapping (moveLast late row) name = .none := by
      apply reading_of_empty
      exact (((perm_moveLast late).filter _).trans (List.Perm.of_eq empty)).eq_nil
    rcases chooses name with ⟨column, member, _⟩ | ⟨_, value⟩
    · exact absurd (empty ▸ member) List.not_mem_nil
    · rw [none, value]
  · obtain ⟨member, value⟩ := picked name empty
    rw [← value]
    apply reading_moveLast member
    · exact decide_eq_true ⟨name, (mem_columnsOf.mp member).2, rfl⟩
    · intro other among moved
      obtain ⟨name', stands, rfl⟩ := of_decide_eq_true moved
      have equal : some name' = some name := stands.symm.trans (mem_columnsOf.mp among).2
      rw [Option.some_inj.mp equal]

/-- What `_remap_aliases` keeps of a field. -/
theorem get?_remap (items : List (String × Cell)) (name : String) :
    (items.foldl (DataDictionary.remapColumn mapping) .empty).get? name =
      (items.filter fun column => StandsFor mapping name column).getLast?.map Prod.snd := by
  induction items using List.reverseRecOn with
  | nil => rfl
  | append_singleton items column ih =>
    rw [List.foldl_append, List.foldl_cons, List.foldl_nil, List.filter_append, DataDictionary.remapColumn, List.filter_cons]
    by_cases own : StandsFor mapping name column
    · rw [if_pos (decide_eq_true own), List.filter_nil, List.getLast?_concat, Option.map_some]
      rw [StandsFor] at own
      rw [own, Py.Dict.get?_set_self]
    · rw [if_neg (by simpa using own), List.filter_nil, List.append_nil, ← ih]
      cases found : mapping.get? column.1 with
      | none => rfl
      | some other =>
        have different : name ≠ other := fun same => own (found.trans (congrArg some same.symm))
        exact Py.Dict.get?_set_ne _ _ different

theorem getD_remapAliases (dictionary : DataDictionary) (row : Row) (name : String) :
    (dictionary.remapAliases row).getD name .none = reading dictionary.aliasMap row name := by
  rw [Py.Dict.getD, DataDictionary.remapAliases, get?_remap]
  rfl

/-! ## Fields -/

section Fields
variable (py : Builtins)

/-- The error of a reading. -/
def errorOf (result : Except PyError Cell) : Option PyError :=
  match result with
  | .error e => some e
  | .ok _ => none

/-- The fields as checks of what is read for their names. -/
def checksOf (fields : List FieldSpec) : List (Check String Cell PyError) :=
  fields.map fun spec => { name := spec.name, error := fun value => errorOf (spec.read py value) }

/-- The value of a field that is read without an error. -/
def valueOf (spec : FieldSpec) (value : Cell) : Cell :=
  match spec.read py value with
  | .ok value => value
  | .error _ => .none

/-- What the fields of one name leave: the value of the last of them. -/
def valueFor (fields : List FieldSpec) (name : String) (value : Cell) : Option Cell :=
  (fields.filter fun spec => spec.name = name).getLast?.map fun spec => valueOf py spec value

/-- The row that the fields make of what is read for their names. -/
def written (fields : List FieldSpec) (choice : String → Cell) (out : Row) : Row :=
  fields.foldl (fun out spec => out.set spec.name (valueOf py spec (choice spec.name))) out

variable {py} {fields : List FieldSpec} {choice choice' : String → Cell}

/-- The loop of `normalize` over any readings: the first error, or the row written. -/
theorem foldlM_read (out : Row) :
    fields.foldlM (fun out spec => do
        let value ← spec.read py (choice spec.name)
        pure (out.set spec.name value)) out =
      match failure (checksOf py fields) choice with
      | some e => .error e
      | none => .ok (written py fields choice out) := by
  induction fields generalizing out with
  | nil => rfl
  | cons spec fields ih =>
    rw [List.foldlM_cons, checksOf, List.map_cons, failure_cons]
    dsimp only
    cases read : spec.read py (choice spec.name) with
    | error e => rfl
    | ok value =>
      have value_ : valueOf py spec (choice spec.name) = value := by rw [valueOf, read]
      refine (ih (out.set spec.name value)).trans ?_
      rw [checksOf, written, written, List.foldl_cons, value_]
      rfl

theorem get?_written (name : String) : (written py fields choice .empty).get? name = valueFor py fields name (choice name) := by
  induction fields using List.reverseRecOn with
  | nil => rfl
  | append_singleton fields spec ih =>
    rw [written, List.foldl_append, List.foldl_cons, List.foldl_nil, Py.Dict.get?_set, valueFor, List.filter_append,
      List.filter_cons, List.filter_nil]
    by_cases own : name = spec.name
    · subst own
      rw [if_pos rfl, if_pos (decide_eq_true rfl), List.getLast?_concat, Option.map_some]
    · rw [if_neg own, if_neg (by simpa using Ne.symm own), List.append_nil]
      exact ih

theorem keys_written : (written py fields choice .empty).keys = (written py fields choice' .empty).keys := by
  induction fields using List.reverseRecOn with
  | nil => rfl
  | append_singleton fields spec ih =>
    rw [written, written, List.foldl_append, List.foldl_append, List.foldl_cons, List.foldl_nil, List.foldl_cons, List.foldl_nil,
      Py.Dict.keys_set, Py.Dict.keys_set]
    unfold written at ih
    rw [ih]

/-- What `normalize` makes of the readings of a row. -/
def outcome (py : Builtins) (fields : List FieldSpec) (choice : String → Cell) : Except PyError Row :=
  match failure (checksOf py fields) choice with
  | some e => .error e
  | none => .ok (written py fields choice .empty)

theorem normalize_eq (dictionary : DataDictionary) (row : Row) :
    dictionary.normalize py row = outcome py dictionary.fields (reading dictionary.aliasMap row) := by
  unfold DataDictionary.normalize
  simp only [getD_remapAliases]
  exact foldlM_read .empty

theorem outcome_of_failure {e : PyError} (fails : failure (checksOf py fields) choice = some e) :
    outcome py fields choice = .error e := by
  rw [outcome, fails]

theorem outcome_of_none (passes : failure (checksOf py fields) choice = none) :
    outcome py fields choice = .ok (written py fields choice .empty) := by
  rw [outcome, passes]

theorem failure_of_outcome {e : PyError} (raises : outcome py fields choice = .error e) :
    failure (checksOf py fields) choice = some e := by
  cases fails : failure (checksOf py fields) choice with
  | none =>
    rw [outcome_of_none fails] at raises
    cases raises
  | some e' =>
    rw [outcome_of_failure fails] at raises
    cases raises
    rfl

theorem none_of_outcome {out : Row} (returns : outcome py fields choice = .ok out) :
    failure (checksOf py fields) choice = none ∧ written py fields choice .empty = out := by
  cases fails : failure (checksOf py fields) choice with
  | none =>
    rw [outcome_of_none fails] at returns
    exact ⟨rfl, Except.ok.inj returns⟩
  | some e =>
    rw [outcome_of_failure fails] at returns
    cases returns

theorem errorOf_eq_none {result : Except PyError Cell} : errorOf result = none ↔ ∃ value, result = .ok value := by
  cases result with
  | error e => exact iff_of_false nofun nofun
  | ok value => exact iff_of_true rfl ⟨value, rfl⟩

/-- Every value of every field is read, and the values of a field are read alike. -/
structure Settled (py : Builtins) (fields : List FieldSpec) (values : String → Set Cell) : Prop where
  reads : ∀ spec ∈ fields, ∀ value ∈ values spec.name, ∃ result, spec.read py value = .ok result
  alike : ∀ name, ∀ value ∈ values name, ∀ value' ∈ values name, valueFor py fields name value = valueFor py fields name value'

variable {values : String → Set Cell}

/-- No choice of readings fails exactly when every field reads every value. -/
theorem reads_iff (inhabited : ∀ name, (values name).Nonempty) :
    (∀ choice, Chooses values choice → failure (checksOf py fields) choice = none) ↔
      ∀ spec ∈ fields, ∀ value ∈ values spec.name, ∃ result, spec.read py value = .ok result := by
  rw [none_iff inhabited]
  simp only [checksOf, List.forall_mem_map, errorOf_eq_none]

/-- All choices of readings have one outcome exactly when an error is forced or all is settled. -/
theorem outcome_const_iff (chooses : Chooses values choice) :
    (∀ choice', Chooses values choice' → outcome py fields choice' = outcome py fields choice) ↔
      (∃ e, Forced values (checksOf py fields) e) ∨ Settled py fields values := by
  have inhabited : ∀ name, (values name).Nonempty := fun name => ⟨choice name, chooses name⟩
  constructor
  · intro constant
    cases result : outcome py fields choice with
    | error e =>
      refine .inl ⟨e, (some_iff inhabited).mp fun choice' chooses' => failure_of_outcome ?_⟩
      rw [constant choice' chooses', result]
    | ok out =>
      have passes : ∀ choice', Chooses values choice' →
          failure (checksOf py fields) choice' = none ∧ written py fields choice' .empty = out :=
        fun choice' chooses' => none_of_outcome ((constant choice' chooses').trans result)
      refine .inr ⟨(reads_iff inhabited).mp fun choice' chooses' => (passes choice' chooses').1, ?_⟩
      have fixed : ∀ name, ∀ value ∈ values name, valueFor py fields name value = out.get? name := by
        intro name value among
        have writes : (written py fields (Function.update choice name value) .empty).get? name = _ := get?_written name
        rw [(passes _ (chooses.update among)).2, Function.update_self] at writes
        exact writes.symm
      intro name value among value' among'
      rw [fixed name value among, fixed name value' among']
  · rintro (⟨e, forced⟩ | settled) choice' chooses'
    · rw [outcome_of_failure (forced.failure chooses'), outcome_of_failure (forced.failure chooses)]
    · have passes := (reads_iff inhabited).mpr settled.reads
      rw [outcome_of_none (passes choice' chooses'), outcome_of_none (passes choice chooses)]
      refine congrArg Except.ok (Py.Dict.ext_get? keys_written fun name => ?_)
      rw [get?_written, get?_written]
      exact settled.alike name _ (chooses' name) _ (chooses name)

end Fields

/-! ## Rows -/

section Rows
variable {py : Builtins} {dictionary : DataDictionary}

/-- No value, as `normalize` sees it. -/
def Cell.Empty (value : Cell) : Prop := value = .none ∨ value = .text ""

/-- The row with one column of a field only. -/
def only (mapping : Py.Dict String String) (name : String) (column : String × Cell) (row : Row) : Row where
  items := row.items.filter fun other => ¬ StandsFor mapping name other ∨ other.1 = column.1
  nodup := row.nodup.sublist (List.filter_sublist.map _)

theorem columnsOf_only (name : String) (column : String × Cell) (other : String) :
    columnsOf mapping other (only mapping name column row) =
      (columnsOf mapping other row).filter fun among => ¬ StandsFor mapping name among ∨ among.1 = column.1 := by
  rw [columnsOf, columnsOf, only, List.filter_comm]

/-- The columns of the other fields stay. -/
theorem columnsOf_only_of_ne {name other : String} (column : String × Cell) (different : other ≠ name) :
    columnsOf mapping other (only mapping name column row) = columnsOf mapping other row := by
  rw [columnsOf_only, List.filter_eq_self]
  intro among found
  refine decide_eq_true (.inl fun stands => different ?_)
  exact Option.some_inj.mp ((mem_columnsOf.mp found).2.symm.trans stands)

/-- Of its own field one column stays. -/
theorem mem_columnsOf_only {name : String} {column : String × Cell} (member : column ∈ columnsOf mapping name row)
    (among : String × Cell) : among ∈ columnsOf mapping name (only mapping name column row) ↔ among = column := by
  rw [columnsOf_only, List.mem_filter, decide_eq_true_iff]
  constructor
  · rintro ⟨found, stranger | same⟩
    · exact absurd (mem_columnsOf.mp found).2 stranger
    · exact List.inj_on_of_nodup_map row.nodup (mem_columnsOf.mp found).1 (mem_columnsOf.mp member).1 same
  · rintro rfl
    exact ⟨member, .inr rfl⟩

/-- With one column only, that one is read, and the others as before. -/
theorem reading_only {name : String} {column : String × Cell} (member : column ∈ columnsOf mapping name row) :
    reading mapping (only mapping name column row) = Function.update (reading mapping row) name column.2 := by
  funext other
  by_cases own : other = name
  · subst own
    have last := getLast?_of_alone ((mem_columnsOf_only member column).mpr rfl) fun among => (mem_columnsOf_only member among).mp
    rw [Function.update_self, reading, last]
    rfl
  · rw [Function.update_of_ne own, reading, columnsOf_only_of_ne column own, reading]

theorem column_mem_readings {name : String} {column : String × Cell} (member : column ∈ columnsOf mapping name row) :
    column.2 ∈ readings mapping row name := .inl ⟨column, member, rfl⟩

/-- All orders of the columns give one result, and a field with one column that has a value is
read from that column. -/
structure OrderFree (py : Builtins) (dictionary : DataDictionary) (row : Row) : Prop where
  same : ∀ row' : Row, row'.items.Perm row.items → dictionary.normalize py row' = dictionary.normalize py row
  fromOnly : ∀ name, ∀ column ∈ columnsOf dictionary.aliasMap name row, ¬ column.2.Empty →
    (∀ other ∈ columnsOf dictionary.aliasMap name row, other ≠ column → other.2.Empty) →
      dictionary.normalize py row = dictionary.normalize py (only dictionary.aliasMap name column row)

/-- The order does not matter exactly where the readings that orders can choose from force an
error or settle every field. -/
theorem column_order_iff (py : Builtins) (dictionary : DataDictionary) (row : Row) :
    OrderFree py dictionary row ↔
      (∃ e, Forced (readings dictionary.aliasMap row) (checksOf py dictionary.fields) e) ∨
        Settled py dictionary.fields (readings dictionary.aliasMap row) := by
  have chooses : Chooses (readings dictionary.aliasMap row) (reading dictionary.aliasMap row) := reading_mem row
  rw [← outcome_const_iff chooses]
  constructor
  · rintro ordered choice' chooses'
    obtain ⟨row', perm, reads⟩ := exists_perm_reading chooses'
    have same := ordered.same row' perm
    rw [normalize_eq, normalize_eq] at same
    rwa [← funext reads]
  · intro constant
    constructor
    · intro row' perm
      rw [normalize_eq, normalize_eq]
      refine constant _ fun name => ?_
      rw [← readings_perm perm name]
      exact reading_mem row' name
    · intro name column member _ _
      rw [normalize_eq, normalize_eq, reading_only member]
      exact (constant _ (chooses.update (column_mem_readings member))).symm

/-- A bar whose symbol has a second, empty column after the first. -/
def assetLast : Row where
  items := [("symbol", .text "BTCUSDT"), ("asset", .text ""), ("timeframe", .text "1m"), ("ts", .text "1772323200"),
    ("open", .float (.finite 100)), ("high", .float (.finite 101)), ("low", .float (.finite 99)), ("close", .float (.finite 100))]
  nodup := by
    show ["symbol", "asset", "timeframe", "ts", "open", "high", "low", "close"].Nodup
    decide

/-- The same bar, with the empty column first. -/
def assetFirst : Row where
  items := [("asset", .text ""), ("symbol", .text "BTCUSDT"), ("timeframe", .text "1m"), ("ts", .text "1772323200"),
    ("open", .float (.finite 100)), ("high", .float (.finite 101)), ("low", .float (.finite 99)), ("close", .float (.finite 100))]
  nodup := by
    show ["asset", "symbol", "timeframe", "ts", "open", "high", "low", "close"].Nodup
    decide

/-- An empty column after the symbol's own hides it. -/
theorem empty_asset_hides_symbol :
    barV1Dictionary.normalize .ascii assetLast = .error (.valueError "missing required field: symbol") ∧
      ¬ OrderFree .ascii barV1Dictionary assetLast := by
  have missing : barV1Dictionary.normalize .ascii assetLast = .error (.valueError "missing required field: symbol") := by
    rfl
  refine ⟨missing, fun free => ?_⟩
  have same := free.same assetFirst (List.Perm.swap _ _ _)
  have returns : (barV1Dictionary.normalize .ascii assetFirst).isOk = true := by decide +kernel
  rw [same, missing] at returns
  cases returns

end Rows

end CryptoQuant.Data
