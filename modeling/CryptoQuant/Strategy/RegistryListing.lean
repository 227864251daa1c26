import CryptoQuant.Strategy.VersionOrder
import CryptoQuant.Lib.Text
import Mathlib.Data.Prod.Lex
import Mathlib.Order.Lattice
import Mathlib.Data.List.Sort
import Mathlib.Data.List.Pairwise

/-!
# Versions in a listing

`get` lists the versions of a strategy by `_version_sort_key`. A number in the key is a text
again, so that `"10"` comes before `"9"`, and the list is in the order of `_version_lt` as
long as the numbers that decide compare like their texts.
-/

namespace CryptoQuant.Registry
set_option autoImplicit false

open FirstDifference

/-! ## Numerals -/

/-- Decimal numbers without leading zeros, between dots. -/
def IsPlain (version : String) : Prop := ∀ text ∈ splitDots version, ∃ n : ℕ, text = toString n

theorem toList_toString (n : ℕ) : (toString n).toList = Nat.toDigits 10 n := Nat.toList_repr

theorem isDigit_of_mem_toString {n : ℕ} {c : Char} (member : c ∈ (toString n).toList) : c.isDigit = true := by
  rw [toList_toString] at member
  exact Nat.isDigit_of_mem_toDigits (by omega) (by omega) member

theorem toString_ne_empty (n : ℕ) : toString n ≠ "" := by
  intro empty
  have digits : Nat.toDigits 10 n = [] := by rw [← toList_toString, empty]; rfl
  exact Nat.toDigits_ne_nil digits

theorem isNumber_toString (n : ℕ) : IsNumber (toString n) := by
  rw [IsNumber, StrMethods.ascii, Bool.and_eq_true, List.all_eq_true]
  exact ⟨decide_eq_true (toString_ne_empty n), fun c member => isDigit_of_mem_toString member⟩

theorem isPart_toString (n : ℕ) : IsPart (toString n) := by
  refine ⟨toString_ne_empty n, List.all_eq_true.mpr fun c member => ?_⟩
  rw [Char.isAlphanum, isDigit_of_mem_toString member, Bool.or_true]

/-- Digit by digit, in the integers and in the naturals. -/
theorem foldl_digits (cs : List Char) (digits : ∀ c ∈ cs, c.isDigit = true) (n : ℕ) :
    cs.foldl (fun n c => 10 * n + (c.toNat - 48 : ℤ)) (n : ℤ) = (Nat.ofDigitChars 10 cs n : ℕ) := by
  induction cs generalizing n with
  | nil => rfl
  | cons c cs ih =>
    have bounds : 48 ≤ c.toNat := (Char.isDigit_iff_toNat.mp (digits c List.mem_cons_self)).1
    rw [List.foldl_cons, Nat.ofDigitChars_cons, ← ih fun c member => digits c (List.mem_cons_of_mem _ member)]
    congr 1
    push_cast [Nat.cast_sub bounds]
    rfl

theorem number_toString (n : ℕ) : number (toString n) = n := by
  rw [number, ← Nat.cast_zero, foldl_digits _ fun c member => isDigit_of_mem_toString member, toList_toString,
    Nat.ofDigitChars_ten_toDigits]

theorem IsPlain.isVersion {version : String} (plain : IsPlain version) : IsVersion version := by
  intro text member
  obtain ⟨n, rfl⟩ := plain text member
  exact isPart_toString n

theorem IsPlain.part_eq {version : String} (plain : IsPlain version) (idx : ℕ) : ∃ n : ℕ, part version idx = toString n := by
  rcases (part_mem_or idx : part version idx ∈ splitDots version ∨ part version idx = "0") with member | padded
  · exact plain _ member
  · exact ⟨0, padded⟩

/-! ## Sorting keys -/

variable {py : StrMethods} {registry : StrategyRegistry} {strategyId : String} {state : StrategyState}

/-- The order of keys is the lexicographic order of lists of pairs. -/
theorem keyLe_iff : ∀ ps qs : List (ℕ × String), keyLe ps qs = true ↔ ¬ qs.map toLex < ps.map toLex
  | [], qs => iff_of_true rfl (List.not_lt_nil _)
  | p :: ps, [] => iff_of_false Bool.false_ne_true (not_not.mpr (List.nil_lt_cons _ _))
  | p :: ps, q :: qs => by
    rw [keyLe, List.map_cons, List.map_cons, List.cons_lt_cons_iff]
    by_cases same : p = q
    · rw [if_pos same, keyLe_iff ps qs, same]
      exact not_congr ⟨fun less => .inr ⟨rfl, less⟩, fun less => (less.resolve_left (lt_irrefl _)).2⟩
    · have apart : toLex p ≠ toLex q := fun equal => same (toLex.injective equal)
      rw [if_neg same, decide_eq_true_iff, ← Prod.Lex.toLex_lt_toLex]
      constructor
      · rintro less (above | equal)
        · exact above.asymm less
        · exact apart equal.1.symm
      · intro not
        exact lt_of_le_of_ne (not_lt.mp fun above => not (.inl above)) apart

instance : Std.Total fun ps qs => keyLe ps qs = true where
  total ps qs := by
    rw [keyLe_iff, keyLe_iff, not_lt, not_lt]
    exact le_total _ _

instance : IsTrans (List (ℕ × String)) fun ps qs => keyLe ps qs = true where
  trans ps qs rs left right := by
    rw [keyLe_iff, not_lt] at left right ⊢
    exact left.trans right

/-- The key of a number. -/
def textKey (text : String) : ℕ × String := (0, text)

/-- Keys of numbers compare like the lists of their texts. -/
theorem keyLe_texts {xs ys : List String} : keyLe (xs.map textKey) (ys.map textKey) = true ↔ ¬ ys < xs := by
  have mono : ∀ x y : String, x < y → toLex (textKey x) < toLex (textKey y) :=
    fun x y less => Prod.Lex.toLex_lt_toLex.mpr (.inr ⟨rfl, less⟩)
  have maps : ∀ {xs ys : List String}, xs < ys → xs.map (toLex ∘ textKey) < ys.map (toLex ∘ textKey) :=
    fun less => List.map_lt mono less
  rw [keyLe_iff, List.map_map, List.map_map]
  constructor
  · exact fun not less => not (maps less)
  · intro not less
    rcases lt_trichotomy xs ys with below | rfl | above
    · exact (maps below).asymm less
    · exact lt_irrefl _ less
    · exact not above

/-- The key of numerals. -/
theorem versionSortKey_plain (reads : py.ReadsAscii) {version : String} (plain : IsPlain version) :
    versionSortKey py version = .ok ((splitDots version).map textKey) := by
  refine Run.mapM_eq_map fun text member => ?_
  obtain ⟨n, rfl⟩ := plain text member
  rw [if_pos ((reads.isDigit _ (isPart_toString n)).mpr (isNumber_toString n)), reads.int _ (isNumber_toString n), number_toString]
  rfl

/-! ## The listing -/

/-- At the first place where two versions differ, their texts in order are numbers in order. -/
def TextsFollowNumbers (a b : String) : Prop :=
  ∀ i, i < (splitDots a).length → i < (splitDots b).length → DiffersAt (part a) (part b) i →
    part a i < part b i → number (part a i) < number (part b i)

/-- The parts before a place that both versions have. -/
theorem getElem_of_agreeTo {a b : String} {i j : ℕ} (agree : AgreeTo (part a) (part b) i) (left : j < (splitDots a).length)
    (right : j < (splitDots b).length) (earlier : j < i) : (splitDots a)[j] = (splitDots b)[j] := by
  rw [← part_of_lt left, ← part_of_lt right]
  exact agree j earlier

/-- A first different part decides the order of the texts. -/
theorem splitDots_lt {a b : String} {i : ℕ} (left : i < (splitDots a).length) (right : i < (splitDots b).length)
    (differs : DiffersAt (part a) (part b) i) (less : part a i < part b i) : splitDots a < splitDots b := by
  refine List.lt_iff_exists.mpr (.inr ⟨i, left, right, fun j earlier => ?_, ?_⟩)
  · exact getElem_of_agreeTo differs.before (by omega) (by omega) earlier
  · rwa [← part_of_lt left, ← part_of_lt right]

/-- A version that the other one continues comes first. -/
theorem splitDots_lt_of_extends {a b : String} {i : ℕ} (left : (splitDots a).length ≤ i) (right : i < (splitDots b).length)
    (agree : AgreeTo (part a) (part b) i) : splitDots a < splitDots b := by
  refine List.lt_iff_exists.mpr (.inl ⟨List.ext_getElem ?_ fun j inside within => ?_, by omega⟩)
  · rw [List.length_take]
    omega
  · rw [List.getElem_take]
    exact getElem_of_agreeTo agree inside (by omega) (by omega)

/-- Two versions in the order of their texts are in the order of `_version_lt`. -/
theorem not_less_of_texts {a b : String} (plain : IsPlain a) (plain' : IsPlain b) (follow : TextsFollowNumbers a b)
    (listed : ¬ splitDots b < splitDots a) : ¬ Less PartLt (part b) (part a) := by
  rintro ⟨i, differs, less⟩
  obtain ⟨n, here⟩ := plain.part_eq i
  obtain ⟨m, there⟩ := plain'.part_eq i
  rw [here, there, partLt_numbers (isNumber_toString m) (isNumber_toString n), number_toString, number_toString] at less
  by_cases left : i < (splitDots a).length
  · by_cases right : i < (splitDots b).length
    · have apart : part a i ≠ part b i := differs.here.symm
      have above : part a i < part b i := lt_of_le_of_ne (not_lt.mp fun below => listed (splitDots_lt right left differs below)) apart
      have numbers := follow i left right differs.symm above
      rw [here, there, number_toString, number_toString] at numbers
      omega
    · exact listed (splitDots_lt_of_extends (by omega) left differs.before)
  · -- the part is padded, and no number is below 0
    rw [part_of_le (by omega)] at here
    have zero : n = 0 := Text.toString_nat_inj here.symm
    omega

/-- Where texts do not follow numbers, the listing and `_version_lt` disagree. -/
theorem less_of_not_follow {a b : String} (plain : IsPlain a) (plain' : IsPlain b) (stray : ¬ TextsFollowNumbers a b) :
    splitDots a < splitDots b ∧ Less PartLt (part b) (part a) := by
  simp only [TextsFollowNumbers, not_forall] at stray
  obtain ⟨i, left, right, differs, texts, numbers⟩ := stray
  refine ⟨splitDots_lt left right differs texts, i, differs.symm, ?_⟩
  obtain ⟨n, here⟩ := plain.part_eq i
  obtain ⟨m, there⟩ := plain'.part_eq i
  have apart : n ≠ m := fun same => differs.here (by rw [here, there, same])
  rw [here, there, number_toString, number_toString] at numbers
  rw [here, there, partLt_numbers (isNumber_toString m) (isNumber_toString n), number_toString, number_toString]
  omega

/-- The records in the order of their keys. -/
theorem get_versions (reads : py.ReadsAscii) (found : registry.strategies.get? strategyId = some state)
    (plain : ∀ record ∈ state.versions.values, IsPlain record.version) :
    ∃ registration, registry.get py strategyId = .ok registration ∧ registration.versions.Perm state.versions.values ∧
      registration.versions.Pairwise fun a b => ¬ splitDots b.version < splitDots a.version := by
  let keyed := state.versions.values.map fun record => ((splitDots record.version).map textKey, record)
  have keys : (state.versions.values.mapM fun record => do
      let key ← versionSortKey py record.version
      pure (key, record)) = .ok keyed := by
    refine Run.mapM_eq_map fun record member => ?_
    rw [versionSortKey_plain reads (plain record member)]
    rfl
  have get : ∃ registration, registry.get py strategyId = .ok registration ∧
      registration.versions = (keyed.insertionSort fun p q => keyLe p.1 q.1 = true).map Prod.snd := by
    rw [StrategyRegistry.get, StrategyRegistry.getStrategy, found]
    dsimp only [bind, Except.bind] at keys ⊢
    rw [keys]
    exact ⟨_, rfl, rfl⟩
  obtain ⟨registration, answers, versions⟩ := get
  have perm := List.perm_insertionSort (fun p q : List (ℕ × String) × StrategyVersion => keyLe p.1 q.1 = true) keyed
  refine ⟨registration, answers, ?_, ?_⟩
  · rw [versions]
    refine (perm.map _).trans ?_
    rw [List.map_map]
    exact List.Perm.of_eq (List.map_id _)
  · have total : Std.Total fun p q : List (ℕ × String) × StrategyVersion => keyLe p.1 q.1 = true :=
      ⟨fun p q => Std.Total.total (r := fun ps qs => keyLe ps qs = true) p.1 q.1⟩
    have trans : IsTrans (List (ℕ × String) × StrategyVersion) fun p q => keyLe p.1 q.1 = true :=
      ⟨fun p q r => IsTrans.trans (r := fun ps qs => keyLe ps qs = true) p.1 q.1 r.1⟩
    rw [versions, List.pairwise_map]
    refine (List.pairwise_insertionSort (fun p q : List (ℕ × String) × StrategyVersion => keyLe p.1 q.1 = true) keyed).imp_of_mem ?_
    intro p q left right le
    obtain ⟨record, _, rfl⟩ := List.mem_map.mp (perm.subset left)
    obtain ⟨record', _, rfl⟩ := List.mem_map.mp (perm.subset right)
    exact keyLe_texts.mp le

/-- Of two items of a list one comes before the other. -/
theorem pairwise_or {α : Type} {R : α → α → Prop} {l : List α} (pairwise : l.Pairwise R) {a b : α} (left : a ∈ l) (right : b ∈ l)
    (apart : a ≠ b) : R a b ∨ R b a := by
  have symm : Std.Symm fun x y => R x y ∨ R y x := ⟨fun _ _ => Or.symm⟩
  have either : l.Pairwise fun x y => R x y ∨ R y x := pairwise.imp Or.inl
  exact either.forall left right apart

/-- `get` lists the versions in the order of `_version_lt` exactly where the texts of the
numbers that decide are in the order of the numbers. -/
theorem listed_in_order_iff (reads : py.ReadsAscii) (found : registry.strategies.get? strategyId = some state)
    (plain : ∀ record ∈ state.versions.values, IsPlain record.version) :
    ∃ registration, registry.get py strategyId = .ok registration ∧ registration.versions.Perm state.versions.values ∧
      (registration.versions.Pairwise (fun earlier later => versionLt py later.version earlier.version = .ok false) ↔
        ∀ a ∈ state.versions.values, ∀ b ∈ state.versions.values, TextsFollowNumbers a.version b.version) := by
  obtain ⟨registration, answers, perm, sorted⟩ := get_versions reads found plain
  have orders : ∀ a ∈ state.versions.values, ∀ b ∈ state.versions.values,
      (versionLt py b.version a.version = .ok false ↔ ¬ Less PartLt (part b.version) (part a.version)) :=
    fun a left b right => versionLt_false_iff reads (plain b right).isVersion (plain a left).isVersion
  refine ⟨registration, answers, perm, fun ordered a left b right => ?_, fun follow => ?_⟩
  · by_contra stray
    obtain ⟨texts, less⟩ := less_of_not_follow (plain a left) (plain b right) stray
    have apart : a ≠ b := fun same => lt_irrefl _ (same ▸ texts)
    have both := ordered.and sorted
    rcases pairwise_or both (perm.symm.subset left) (perm.symm.subset right) apart with before | after
    · exact (orders a left b right).mp before.1 less
    · exact after.2 texts
  · refine sorted.imp_of_mem fun {a b} left right listed => ?_
    have member := perm.subset left
    have member' := perm.subset right
    exact (orders a member b member').mpr
      (not_less_of_texts (plain a member) (plain b member') (follow a member b member') listed)

/-- A strategy with the versions 1.9 and 1.10. -/
def released : StrategyRegistry :=
  (machine .ascii).after {}
    [.registerStrategy "sma" (some "strat-sma") 0, .addVersion "strat-sma" "1.9" "" none none false 0,
      .addVersion "strat-sma" "1.10" "" none none true 0]

/-- Version 1.10 is listed before 1.9, which is `_version_lt` it. -/
theorem listed_out_of_order :
    (released.get .ascii "strat-sma").map (fun registration => registration.versions.map StrategyVersion.version) =
      .ok ["1.10", "1.9"] ∧ versionLt .ascii "1.9" "1.10" = .ok true := by
  decide +kernel

theorem listed_in_order_iff_released : ∃ registration, released.get .ascii "strat-sma" = .ok registration ∧
    ¬ registration.versions.Pairwise fun earlier later => versionLt .ascii later.version earlier.version = .ok false := by
  obtain ⟨state, found⟩ : ∃ state, released.strategies.get? "strat-sma" = some state :=
    Option.isSome_iff_exists.mp (by decide +kernel)
  have names : (released.strategies.get? "strat-sma").map (fun state => state.versions.values.map StrategyVersion.version) =
      some ["1.9", "1.10"] := by decide +kernel
  rw [found, Option.map_some, Option.some_inj] at names
  have plain : ∀ record ∈ state.versions.values, IsPlain record.version := by
    intro record member
    have among : record.version ∈ ["1.9", "1.10"] := names ▸ List.mem_map_of_mem member
    have nine : splitDots "1.9" = [toString 1, toString 9] := by decide +kernel
    have ten : splitDots "1.10" = [toString 1, toString 10] := by decide +kernel
    rcases List.mem_cons.mp among with same | later
    · rw [same, IsPlain, nine]
      exact List.forall_mem_cons.mpr ⟨⟨1, rfl⟩, List.forall_mem_singleton.mpr ⟨9, rfl⟩⟩
    · rw [List.mem_singleton.mp later, IsPlain, ten]
      exact List.forall_mem_cons.mpr ⟨⟨1, rfl⟩, List.forall_mem_singleton.mpr ⟨10, rfl⟩⟩
  obtain ⟨registration, answers, _, ordered⟩ := listed_in_order_iff ascii_reads found plain
  refine ⟨registration, answers, fun pairwise => ?_⟩
  have member : ∀ version ∈ ["1.9", "1.10"], ∃ record ∈ state.versions.values, record.version = version :=
    fun version among => List.mem_map.mp (names ▸ among)
  obtain ⟨a, left, ten⟩ := member "1.10" (by decide)
  obtain ⟨b, right, nine⟩ := member "1.9" (by decide)
  have follow := ordered.mp pairwise a left b right
  rw [ten, nine] at follow
  have differs : DiffersAt (part "1.10") (part "1.9") 1 := by
    refine ⟨fun j earlier => ?_, by decide +kernel⟩
    obtain rfl : j = 0 := by omega
    decide +kernel
  have less := follow 1 (by decide +kernel) (by decide +kernel) differs (by decide +kernel)
  exact absurd less (by decide +kernel)

end CryptoQuant.Registry
