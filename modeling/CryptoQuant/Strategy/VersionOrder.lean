import CryptoQuant.Strategy.Registry
import CryptoQuant.Lib.FirstDifference
import Mathlib.Data.String.Basic

/-!
# The order of versions

`_version_lt` compares two versions at the first different part: as numbers where both parts
are, else as texts. It is not a strict weak order. A text can stand between two numbers that
are in the other order, and two ways to write a number hide the parts behind it.
-/

namespace CryptoQuant.Registry
set_option autoImplicit false

open FirstDifference

/-! ## Parts -/

/-- `part.isdigit()`, of an ASCII text. -/
def IsNumber (text : String) : Prop := StrMethods.ascii.isDigit text = true

instance (text : String) : Decidable (IsNumber text) := inferInstanceAs (Decidable (_ = true))

/-- `int(part)`, of decimal digits. -/
def number (text : String) : ℤ := text.toList.foldl (fun n c => 10 * n + (c.toNat - 48 : ℤ)) 0

/-- A part of a version: ASCII letters and digits, at least one. -/
def IsPart (text : String) : Prop := text ≠ "" ∧ text.toList.all Char.isAlphanum = true

instance (text : String) : Decidable (IsPart text) := inferInstanceAs (Decidable (_ ∧ _))

/-- ASCII letters, digits and dots, with no empty part. -/
def IsVersion (version : String) : Prop := ∀ text ∈ splitDots version, IsPart text

instance (version : String) : Decidable (IsVersion version) := inferInstanceAs (Decidable (∀ _ ∈ _, _))

/-- All parts are numbers. -/
def IsDecimal (version : String) : Prop := ∀ text ∈ splitDots version, IsNumber text

instance (version : String) : Decidable (IsDecimal version) := inferInstanceAs (Decidable (∀ _ ∈ _, _))

/-- `isdigit` and `int` read ASCII digits as decimal numbers. -/
structure StrMethods.ReadsAscii (py : StrMethods) : Prop where
  isDigit : ∀ text, IsPart text → (py.isDigit text = true ↔ IsNumber text)
  int : ∀ text, IsNumber text → py.int text = .ok (number text)

theorem ascii_reads : StrMethods.ascii.ReadsAscii := ⟨fun _ _ => Iff.rfl, fun _ _ => rfl⟩

/-- The part of a version at a place, `"0"` behind the last. -/
def part (version : String) (idx : ℕ) : String := (splitDots version).getD idx "0"

theorem part_mem_or {version : String} (idx : ℕ) : part version idx ∈ splitDots version ∨ part version idx = "0" := by
  rw [part, List.getD_eq_getElem?_getD]
  cases found : (splitDots version)[idx]? with
  | none => exact .inr rfl
  | some text => exact .inl (List.mem_of_getElem? found)

theorem part_of_lt {version : String} {idx : ℕ} (within : idx < (splitDots version).length) :
    part version idx = (splitDots version)[idx] := by
  rw [part, List.getD_eq_getElem?_getD, List.getElem?_eq_getElem within, Option.getD_some]

theorem part_of_le {version : String} {idx : ℕ} (above : (splitDots version).length ≤ idx) : part version idx = "0" := by
  rw [part, List.getD_eq_getElem?_getD, List.getElem?_eq_none above]
  rfl

theorem IsVersion.isPart {version : String} (isVersion : IsVersion version) (idx : ℕ) : IsPart (part version idx) := by
  rcases part_mem_or idx with member | padded
  · exact isVersion _ member
  · rw [padded]
    decide

theorem IsDecimal.isNumber {version : String} (isDecimal : IsDecimal version) (idx : ℕ) : IsNumber (part version idx) := by
  rcases part_mem_or idx with member | padded
  · exact isDecimal _ member
  · rw [padded]
    decide

/-! ## The comparison -/

/-- Both parts are numbers and these are in order, or the texts are. -/
def PartLt (left right : String) : Prop :=
  if IsNumber left ∧ IsNumber right then number left < number right else left < right

theorem partLt_numbers {x y : String} (left : IsNumber x) (right : IsNumber y) : PartLt x y ↔ number x < number y := by
  rw [PartLt, if_pos ⟨left, right⟩]

theorem partLt_texts {x y : String} (text : ¬ (IsNumber x ∧ IsNumber y)) : PartLt x y ↔ x < y := by
  rw [PartLt, if_neg text]

theorem partLt_asymm (x y : String) (less : PartLt x y) : ¬ PartLt y x := by
  by_cases numbers : IsNumber x ∧ IsNumber y
  · rw [partLt_numbers numbers.1 numbers.2] at less
    rw [partLt_numbers numbers.2 numbers.1]
    exact less.asymm
  · rw [partLt_texts numbers] at less
    rw [partLt_texts fun other => numbers other.symm]
    exact less.asymm

variable {py : StrMethods}

/-- The loop returns at the first different parts. -/
theorem partsLt_answers (reads : py.ReadsAscii) : ∀ (n : ℕ) (u v : ℕ → String),
    (∀ i, IsPart (u i)) → (∀ i, IsPart (v i)) → (∀ i, n ≤ i → u i = v i) →
      ∃ answer, partsLt py ((List.range n).map fun i => (u i, v i)) = .ok answer ∧ (answer = true ↔ Less PartLt u v)
  | 0, u, v, _, _, rest => by
    obtain rfl : u = v := funext fun i => rest i (Nat.zero_le i)
    exact ⟨false, rfl, iff_of_false Bool.false_ne_true not_less_self⟩
  | n + 1, u, v, left, right, rest => by
    rw [List.range_succ_eq_map, List.map_cons, List.map_map, partsLt]
    by_cases same : u 0 = v 0
    · rw [if_pos same, less_succ same]
      exact partsLt_answers reads n _ _ (fun i => left (i + 1)) (fun i => right (i + 1)) fun i above => rest (i + 1) (by omega)
    rw [if_neg same, less_of_ne same]
    by_cases numbers : IsNumber (u 0) ∧ IsNumber (v 0)
    · have digits : (py.isDigit (u 0) && py.isDigit (v 0)) = true := by
        rw [Bool.and_eq_true, reads.isDigit _ (left 0), reads.isDigit _ (right 0)]
        exact numbers
      rw [if_pos digits, reads.int _ numbers.1, reads.int _ numbers.2, partLt_numbers numbers.1 numbers.2]
      exact ⟨_, rfl, decide_eq_true_iff⟩
    · have digits : ¬ (py.isDigit (u 0) && py.isDigit (v 0)) = true := by
        rw [Bool.and_eq_true, reads.isDigit _ (left 0), reads.isDigit _ (right 0)]
        exact numbers
      rw [if_neg digits, partLt_texts numbers]
      exact ⟨_, rfl, decide_eq_true_iff⟩

/-- `_version_lt` compares the versions at their first different part. -/
theorem versionLt_answers (reads : py.ReadsAscii) {a b : String} (left : IsVersion a) (right : IsVersion b) :
    ∃ answer, versionLt py a b = .ok answer ∧ (answer = true ↔ Less PartLt (part a) (part b)) := by
  refine partsLt_answers reads _ (part a) (part b) left.isPart right.isPart fun i above => ?_
  rw [part_of_le (le_trans (le_max_left _ _) above), part_of_le (le_trans (le_max_right _ _) above)]

theorem versionLt_iff (reads : py.ReadsAscii) {a b : String} (left : IsVersion a) (right : IsVersion b) :
    versionLt py a b = .ok true ↔ Less PartLt (part a) (part b) := by
  obtain ⟨answer, answers, less⟩ := versionLt_answers reads left right
  rw [answers, ← less]
  exact ⟨fun same => Except.ok.inj same, fun same => congrArg _ same⟩

theorem versionLt_false_iff (reads : py.ReadsAscii) {a b : String} (left : IsVersion a) (right : IsVersion b) :
    versionLt py a b = .ok false ↔ ¬ Less PartLt (part a) (part b) := by
  obtain ⟨answer, answers, less⟩ := versionLt_answers reads left right
  rw [answers, ← less, Bool.not_eq_true]
  exact ⟨fun same => Except.ok.inj same, fun same => congrArg _ same⟩

/-! ## Transitivity -/

/-- A text that is no number stands between the texts of two numbers that are not in this order. -/
structure Straddles (low text high : String) : Prop where
  lowNumber : IsNumber low
  highNumber : IsNumber high
  noNumber : ¬ IsNumber text
  above : low < text
  below : text < high
  disordered : number high ≤ number low

/-- A broken chain of parts is a text between two numbers, in one of its three turns. -/
theorem straddles_of_broken {x y z : String} (left : PartLt x y) (right : PartLt y z) (broken : ¬ PartLt x z) :
    Straddles x y z ∨ Straddles y z x ∨ Straddles z x y := by
  by_cases low : IsNumber x ∧ IsNumber y
  · rw [partLt_numbers low.1 low.2] at left
    by_cases high : IsNumber z
    · rw [partLt_numbers low.2 high] at right
      rw [partLt_numbers low.1 high] at broken
      exact absurd (left.trans right) broken
    · rw [partLt_texts fun both => high both.2] at right broken
      have apart : z ≠ x := fun same => high (same ▸ low.1)
      exact .inr (.inl ⟨low.2, low.1, high, right, lt_of_le_of_ne (not_lt.mp broken) apart, left.le⟩)
  rw [partLt_texts low] at left
  by_cases high : IsNumber y ∧ IsNumber z
  · have text : ¬ IsNumber x := fun isNumber => low ⟨isNumber, high.1⟩
    rw [partLt_numbers high.1 high.2] at right
    rw [partLt_texts fun both => text both.1] at broken
    have apart : z ≠ x := fun same => text (same ▸ high.2)
    exact .inr (.inr ⟨high.2, high.1, text, lt_of_le_of_ne (not_lt.mp broken) apart, left, right.le⟩)
  rw [partLt_texts high] at right
  by_cases ends : IsNumber x ∧ IsNumber z
  · rw [partLt_numbers ends.1 ends.2] at broken
    exact .inl ⟨ends.1, ends.2, fun isNumber => low ⟨ends.1, isNumber⟩, left, right, not_lt.mp broken⟩
  · rw [partLt_texts ends] at broken
    exact absurd (lt_trans left right) broken

theorem Straddles.broken {x y z : String} (straddles : Straddles x y z) : PartLt x y ∧ PartLt y z ∧ ¬ PartLt x z := by
  refine ⟨(partLt_texts ?_).mpr straddles.above, (partLt_texts ?_).mpr straddles.below, ?_⟩
  · exact fun both => straddles.noNumber both.2
  · exact fun both => straddles.noNumber both.1
  · rw [partLt_numbers straddles.lowNumber straddles.highNumber]
    exact not_lt.mpr straddles.disordered

variable {versions : Set String}

/-- `_version_lt` is transitive on versions unless, where three of them are no longer the
same, a text straddles two numbers. -/
theorem versionLt_trans_iff (reads : py.ReadsAscii) (wellFormed : ∀ v ∈ versions, IsVersion v) :
    (∀ a ∈ versions, ∀ b ∈ versions, ∀ c ∈ versions,
        versionLt py a b = .ok true → versionLt py b c = .ok true → versionLt py a c = .ok true) ↔
      ∀ a ∈ versions, ∀ b ∈ versions, ∀ c ∈ versions, ∀ i, AgreeTo (part a) (part b) i → AgreeTo (part b) (part c) i →
        ¬ Straddles (part a i) (part b i) (part c i) := by
  have chain : ∀ a ∈ versions, ∀ b ∈ versions, ∀ c ∈ versions,
      ((versionLt py a b = .ok true → versionLt py b c = .ok true → versionLt py a c = .ok true) ↔
        ∀ i, AgreeTo (part a) (part b) i → AgreeTo (part b) (part c) i →
          PartLt (part a i) (part b i) → PartLt (part b i) (part c i) → PartLt (part a i) (part c i)) := by
    intro a left b middle c right
    rw [versionLt_iff reads (wellFormed a left) (wellFormed b middle), versionLt_iff reads (wellFormed b middle) (wellFormed c right),
      versionLt_iff reads (wellFormed a left) (wellFormed c right)]
    exact less_trans_iff partLt_asymm
  constructor
  · intro trans a left b middle c right i agree agree' straddles
    obtain ⟨first, second, third⟩ := straddles.broken
    exact third ((chain a left b middle c right).mp (trans a left b middle c right) i agree agree' first second)
  · intro orderly a left b middle c right
    refine (chain a left b middle c right).mpr fun i agree agree' first second => ?_
    by_contra broken
    rcases straddles_of_broken first second broken with straddles | straddles | straddles
    · exact orderly a left b middle c right i agree agree' straddles
    · exact orderly b middle c right a left i agree' (agree.trans agree').symm straddles
    · exact orderly c right a left b middle i (agree.trans agree').symm agree straddles

/-! ## Incomparable versions -/

/-- Neither version is `_version_lt` the other. -/
def Incomparable (py : StrMethods) (a b : String) : Prop :=
  versionLt py a b = .ok false ∧ versionLt py b a = .ok false

/-- Two ways to write one number, or one of them twice. -/
def SameNumber (x y : String) : Prop := IsNumber x ∧ IsNumber y ∧ number x = number y

theorem SameNumber.symm {x y : String} (same : SameNumber x y) : SameNumber y x := ⟨same.2.1, same.1, same.2.2.symm⟩

theorem SameNumber.trans {x y z : String} (left : SameNumber x y) (right : SameNumber y z) : SameNumber x z :=
  ⟨left.1, right.2.1, left.2.2.trans right.2.2⟩

/-- Only two ways to write one number are different and yet not in order. -/
theorem sameNumber_iff {x y : String} (different : x ≠ y) : SameNumber x y ↔ ¬ PartLt x y ∧ ¬ PartLt y x := by
  by_cases numbers : IsNumber x ∧ IsNumber y
  · rw [partLt_numbers numbers.1 numbers.2, partLt_numbers numbers.2 numbers.1, not_lt, not_lt]
    constructor
    · exact fun same => ⟨same.2.2.ge, same.2.2.le⟩
    · exact fun tied => ⟨numbers.1, numbers.2, le_antisymm tied.2 tied.1⟩
  · rw [partLt_texts numbers, partLt_texts fun other => numbers other.symm]
    refine iff_of_false (fun same => numbers ⟨same.1, same.2.1⟩) fun tied => different ?_
    exact le_antisymm (not_lt.mp tied.2) (not_lt.mp tied.1)

theorem incomparable_iff (reads : py.ReadsAscii) {a b : String} (left : IsVersion a) (right : IsVersion b) :
    Incomparable py a b ↔ Tied PartLt (part a) (part b) :=
  and_congr (versionLt_false_iff reads left right) (versionLt_false_iff reads right left)

/-- Being incomparable carries over unless two versions part behind a number that a third
one writes with other zeros. -/
theorem incomparable_trans_iff (reads : py.ReadsAscii) (wellFormed : ∀ v ∈ versions, IsVersion v) :
    (∀ a ∈ versions, ∀ b ∈ versions, ∀ c ∈ versions, Incomparable py a b → Incomparable py b c → Incomparable py a c) ↔
      ∀ a ∈ versions, ∀ b ∈ versions, ∀ c ∈ versions, ∀ i, AgreeTo (part a) (part b) i → AgreeTo (part b) (part c) i →
        part a i = part c i → part b i ≠ part a i → SameNumber (part a i) (part b i) →
          ∀ k, DiffersAt (part a) (part c) k → SameNumber (part a k) (part c k) := by
  refine forall₂_congr fun a left => forall₂_congr fun b middle => forall₂_congr fun c right => ?_
  rw [incomparable_iff reads (wellFormed a left) (wellFormed b middle), incomparable_iff reads (wellFormed b middle) (wellFormed c right),
    incomparable_iff reads (wellFormed a left) (wellFormed c right)]
  exact tied_trans_iff (fun x y => sameNumber_iff) (fun x y => SameNumber.symm) fun x y z => SameNumber.trans

/-! ## Numbers -/

/-- The integers of a version, padded with zeros to a length. -/
def numbers (length : ℕ) (version : String) : List ℤ :=
  (splitDots version).map number ++ List.replicate (length - (splitDots version).length) 0

/-- The length that two versions are padded to. -/
def maxLength (a b : String) : ℕ := max (splitDots a).length (splitDots b).length

theorem numbers_eq {length : ℕ} {version : String} (fits : (splitDots version).length ≤ length) :
    numbers length version = (List.range length).map fun idx => number (part version idx) := by
  refine List.ext_getElem? fun idx => ?_
  rw [numbers, List.getElem?_map]
  by_cases within : idx < (splitDots version).length
  · rw [List.getElem?_append_left (by rwa [List.length_map]), List.getElem?_map, List.getElem?_range (by omega),
      List.getElem?_eq_getElem within, Option.map_some, Option.map_some, part_of_lt within]
  rw [List.getElem?_append_right (by rw [List.length_map]; omega), List.length_map, List.getElem?_replicate]
  by_cases inside : idx < length
  · rw [if_pos (by omega), List.getElem?_range inside, Option.map_some, part_of_le (by omega)]
    rfl
  · rw [if_neg (by omega), List.getElem?_eq_none (by rw [List.length_range]; omega), Option.map_none]

/-- The order of the padded tuples is that of the numbers at their first difference. -/
theorem numbers_lt_iff {a b : String} : numbers (maxLength a b) a < numbers (maxLength a b) b ↔
    Less (· < ·) (fun idx => number (part a idx)) fun idx => number (part b idx) := by
  rw [maxLength, numbers_eq (le_max_left _ _), numbers_eq (le_max_right _ _)]
  refine map_range_lt_iff _ _ _ fun i above => ?_
  rw [part_of_le (le_trans (le_max_left _ _) above), part_of_le (le_trans (le_max_right _ _) above)]

/-- `_version_lt` orders decimal versions by their numbers unless two that first differ in
the way to write a number have different numbers behind it. -/
theorem versionLt_numbers_iff (reads : py.ReadsAscii) (wellFormed : ∀ v ∈ versions, IsVersion v) :
    (∀ a ∈ versions, ∀ b ∈ versions, IsDecimal a → IsDecimal b →
        (versionLt py a b = .ok true ↔ numbers (maxLength a b) a < numbers (maxLength a b) b)) ↔
      ∀ a ∈ versions, ∀ b ∈ versions, IsDecimal a → IsDecimal b → ∀ i, DiffersAt (part a) (part b) i →
        number (part a i) = number (part b i) → ∀ k, number (part a k) = number (part b k) := by
  have agree : ∀ a ∈ versions, ∀ b ∈ versions, IsDecimal a → IsDecimal b →
      ((versionLt py a b = .ok true ↔ numbers (maxLength a b) a < numbers (maxLength a b) b) ↔
        ∀ i, DiffersAt (part a) (part b) i → number (part a i) = number (part b i) →
          ¬ Less (· < ·) (fun j => number (part a j)) fun j => number (part b j)) := by
    intro a left b right decimal decimal'
    rw [versionLt_iff reads (wellFormed a left) (wellFormed b right), numbers_lt_iff]
    exact less_value_iff fun i _ => partLt_numbers (decimal.isNumber i) (decimal'.isNumber i)
  constructor
  · intro numeric a left b right decimal decimal' i differs same k
    have below := (agree a left b right decimal decimal').mp (numeric a left b right decimal decimal') i differs same
    have above := (agree b right a left decimal' decimal).mp (numeric b right a left decimal' decimal) i differs.symm same.symm
    exact congrFun (eq_of_not_less below above) k
  · intro visible a left b right decimal decimal'
    refine (agree a left b right decimal decimal').mpr fun i differs same less => ?_
    obtain ⟨k, parted, _⟩ := less
    exact parted.here (visible a left b right decimal decimal' i differs same k)

/-! ## The order of versions -/

/-- On a set of versions `_version_lt` answers and is irreflexive. It is transitive, its
incomparability is, and it is numeric on numbers, each exactly where no three versions break it. -/
theorem version_order_iff (reads : py.ReadsAscii) (wellFormed : ∀ v ∈ versions, IsVersion v) :
    (∀ a ∈ versions, ∀ b ∈ versions, ∃ answer, versionLt py a b = .ok answer) ∧
    (∀ a ∈ versions, versionLt py a a = .ok false) ∧
    ((∀ a ∈ versions, ∀ b ∈ versions, ∀ c ∈ versions,
        versionLt py a b = .ok true → versionLt py b c = .ok true → versionLt py a c = .ok true) ↔
      ∀ a ∈ versions, ∀ b ∈ versions, ∀ c ∈ versions, ∀ i, AgreeTo (part a) (part b) i → AgreeTo (part b) (part c) i →
        ¬ Straddles (part a i) (part b i) (part c i)) ∧
    ((∀ a ∈ versions, ∀ b ∈ versions, ∀ c ∈ versions, Incomparable py a b → Incomparable py b c → Incomparable py a c) ↔
      ∀ a ∈ versions, ∀ b ∈ versions, ∀ c ∈ versions, ∀ i, AgreeTo (part a) (part b) i → AgreeTo (part b) (part c) i →
        part a i = part c i → part b i ≠ part a i → SameNumber (part a i) (part b i) →
          ∀ k, DiffersAt (part a) (part c) k → SameNumber (part a k) (part c k)) ∧
    ((∀ a ∈ versions, ∀ b ∈ versions, IsDecimal a → IsDecimal b →
        (versionLt py a b = .ok true ↔ numbers (maxLength a b) a < numbers (maxLength a b) b)) ↔
      ∀ a ∈ versions, ∀ b ∈ versions, IsDecimal a → IsDecimal b → ∀ i, DiffersAt (part a) (part b) i →
        number (part a i) = number (part b i) → ∀ k, number (part a k) = number (part b k)) := by
  refine ⟨fun a left b right => ?_, fun a member => ?_, versionLt_trans_iff reads wellFormed,
    incomparable_trans_iff reads wellFormed, versionLt_numbers_iff reads wellFormed⟩
  · obtain ⟨answer, answers, _⟩ := versionLt_answers reads (wellFormed a left) (wellFormed b right)
    exact ⟨answer, answers⟩
  · exact (versionLt_false_iff reads (wellFormed a member) (wellFormed a member)).mpr not_less_self

theorem version_order_iff_straddled : ¬ ∀ a ∈ ({"10", "5a", "9"} : Set String), ∀ b ∈ ({"10", "5a", "9"} : Set String),
    ∀ c ∈ ({"10", "5a", "9"} : Set String),
      versionLt .ascii a b = .ok true → versionLt .ascii b c = .ok true → versionLt .ascii a c = .ok true := by
  have wellFormed : ∀ v ∈ ({"10", "5a", "9"} : Set String), IsVersion v := by
    rintro v (rfl | rfl | rfl)
    · decide +kernel
    · decide +kernel
    · decide +kernel
  obtain ⟨_, _, trans, _⟩ := version_order_iff ascii_reads wellFormed
  intro chains
  refine trans.mp chains "10" (.inl rfl) "5a" (.inr (.inl rfl)) "9" (.inr (.inr rfl)) 0 ?_ ?_ ?_
  · exact fun j earlier => absurd earlier (Nat.not_lt_zero j)
  · exact fun j earlier => absurd earlier (Nat.not_lt_zero j)
  · exact ⟨by decide +kernel, by decide +kernel, by decide +kernel, by decide +kernel, by decide +kernel, by decide +kernel⟩

/-- A text between two numbers makes a cycle, and a number written with a leading zero ends the comparison. -/
theorem version_order_broken :
    (versionLt .ascii "10" "5a" = .ok true ∧ versionLt .ascii "5a" "9" = .ok true ∧ versionLt .ascii "10" "9" = .ok false) ∧
    (Incomparable .ascii "2024.1.5" "2024.01" ∧ Incomparable .ascii "2024.01" "2024.1.10" ∧
      ¬ Incomparable .ascii "2024.1.5" "2024.1.10") ∧
    (versionLt .ascii "2024.01.5" "2024.1.10" = .ok false ∧ numbers 3 "2024.01.5" < numbers 3 "2024.1.10") := by
  refine ⟨⟨by decide +kernel, by decide +kernel, by decide +kernel⟩, ⟨?_, ?_, ?_⟩, by decide +kernel, by decide +kernel⟩
  · exact ⟨by decide +kernel, by decide +kernel⟩
  · exact ⟨by decide +kernel, by decide +kernel⟩
  · intro incomparable
    exact absurd incomparable.1 (by decide +kernel)

end CryptoQuant.Registry
