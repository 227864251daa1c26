import CryptoQuant.Data.Sources
import CryptoQuant.Lib.Merge
import CryptoQuant.Lib.Run
import CryptoQuant.Lib.StableSort

/-!
# Composite sources

A composite answers the merge of what its sources answer. A source counts in it by its
last bar of every time stamp alone, so a composite among the sources may be replaced by
its own sources.
-/

namespace CryptoQuant.Data
set_option autoImplicit false

open Merge

/-! ## The loops -/

/-- `merged`, after the first loop. -/
def gather (sources : List DataSource) (q : BarQuery) : Except PyError (List Bar) :=
  sources.foldlM (fun merged source => return merged ++ (← source.fetchBars q)) []

/-- `dedup`, after the second. -/
def dedup (merged : List Bar) : Py.Dict DateTime Bar := merged.foldl (fun dedup bar => dedup.set bar.ts bar) .empty

/-- The bars that are returned. -/
def latest (merged : List Bar) : List Bar :=
  ((dedup merged).keys.insertionSort (· ≤ ·)).filterMap (dedup merged).get?

section Loops
variable {q : BarQuery} {source : DataSource} {sources : List DataSource} {merged : List Bar}

theorem gather_from (sources : List DataSource) (merged : List Bar) :
    sources.foldlM (fun merged source => return merged ++ (← source.fetchBars q)) merged =
      (gather sources q).map (merged ++ ·) := by
  induction sources generalizing merged with
  | nil =>
    show Except.ok merged = Except.ok (merged ++ [])
    rw [List.append_nil]
  | cons source sources ih =>
    rw [gather, List.foldlM_cons, List.foldlM_cons]
    cases source.fetchBars q with
    | error e => rfl
    | ok bars =>
      show List.foldlM _ (merged ++ bars) sources = Except.map _ (List.foldlM _ ([] ++ bars) sources)
      rw [ih, ih]
      cases gather sources q with
      | error e => rfl
      | ok later => simp [Except.map]

theorem gather_cons : gather (source :: sources) q =
    source.fetchBars q >>= fun bars => (gather sources q).map (bars ++ ·) := by
  rw [gather, List.foldlM_cons]
  cases source.fetchBars q with
  | error e => rfl
  | ok bars => exact gather_from sources ([] ++ bars)

theorem gather_cons_ok : gather (source :: sources) q = .ok merged ↔
    ∃ bars later, source.fetchBars q = .ok bars ∧ gather sources q = .ok later ∧ merged = bars ++ later := by
  rw [gather_cons]
  constructor
  · intro gathered
    obtain ⟨bars, here, rest⟩ := Run.bind_ok.mp gathered
    cases there : gather sources q with
    | error e =>
      rw [there] at rest
      cases rest
    | ok later =>
      rw [there] at rest
      cases rest
      exact ⟨bars, later, here, rfl, rfl⟩
  · rintro ⟨bars, later, here, there, rfl⟩
    rw [here, there]
    rfl

/-- The dictionary holds the last bar of every time stamp. -/
theorem get?_dedup (merged : List Bar) (ts : DateTime) : (dedup merged).get? ts = last Bar.ts ts merged := by
  induction merged using List.reverseRecOn with
  | nil => rfl
  | append_singleton merged bar ih =>
    have step : dedup (merged ++ [bar]) = (dedup merged).set bar.ts bar := by
      simp [dedup, List.foldl_append]
    rw [step, Py.Dict.get?_set, last_snoc, ih]
    by_cases own : ts = bar.ts
    · rw [if_pos own, if_pos own.symm]
    · rw [if_neg own, if_neg (Ne.symm own)]

/-- The last loop finds every time stamp it looks up. -/
theorem mapM_getItem_dedup (merged : List Bar) :
    ((dedup merged).keys.insertionSort (· ≤ ·)).mapM (getItem (dedup merged)) = .ok (latest merged) := by
  have all : ∀ ks : List DateTime, (∀ k ∈ ks, k ∈ (dedup merged).keys) →
      ks.mapM (getItem (dedup merged)) = .ok (ks.filterMap (dedup merged).get?) := by
    intro ks
    induction ks with
    | nil => exact fun _ => rfl
    | cons k ks ih =>
      intro known
      obtain ⟨bar, found⟩ := Py.Dict.mem_keys_iff.mp (known k List.mem_cons_self)
      rw [List.mapM_cons, getItem_of_get? found, List.filterMap_cons_some found]
      have later := ih fun k member => known k (List.mem_cons_of_mem _ member)
      rw [later]
      rfl
  apply all
  intro k member
  exact (List.mem_insertionSort _).mp member

/-- The bars returned are the merge of those gathered. -/
theorem merges_latest (merged : List Bar) : Merges Bar.ts merged (latest merged) := by
  have stamped : ∀ ts bar, (dedup merged).get? ts = some bar → bar.ts = ts := by
    intro ts bar found
    rw [get?_dedup] at found
    exact (mem_of_last found).2
  have sorted : ((dedup merged).keys.insertionSort (· ≤ ·)).Pairwise (· < ·) := by
    have distinct := (List.perm_insertionSort (· ≤ ·) (dedup merged).keys).nodup_iff.mpr (dedup merged).nodup_keys
    exact (List.sortedLE_insertionSort.sortedLT_of_nodup distinct).pairwise
  have increasing : (latest merged).Pairwise fun a b => a.ts < b.ts := by
    apply List.Pairwise.filterMap _ _ sorted
    intro ts ts' earlier a found b found'
    rw [stamped ts a found, stamped ts' b found']
    exact earlier
  refine ⟨increasing, fun ts => ?_⟩
  have member : ∀ bar, bar ∈ latest merged ↔ (dedup merged).get? bar.ts = some bar := by
    intro bar
    unfold latest
    rw [List.mem_filterMap]
    constructor
    · rintro ⟨k, -, found⟩
      rwa [← stamped k bar found] at found
    · intro found
      exact ⟨bar.ts, (List.mem_insertionSort _).mpr (Py.Dict.mem_keys_iff.mpr ⟨bar, found⟩), found⟩
  rw [← get?_dedup merged]
  cases found : (dedup merged).get? ts with
  | some bar =>
    obtain rfl := stamped ts bar found
    exact last_of_increasing increasing ((member bar).mpr found)
  | none =>
    rw [last_eq_none_iff]
    rintro bar among rfl
    rw [(member bar).mp among] at found
    cases found

end Loops

/-- **What a composite answers.** -/
theorem composite_fetchBars (sources : List DataSource) (q : BarQuery) :
    (composite sources).fetchBars q = (gather sources q).map latest := by
  show CompositeBarDataSource.fetchBars ⟨sources⟩ q = _
  unfold CompositeBarDataSource.fetchBars
  show (gather sources q >>= fun merged => ((dedup merged).keys.insertionSort (· ≤ ·)).mapM (getItem (dedup merged))) = _
  simp only [mapM_getItem_dedup]
  cases gather sources q <;> rfl

/-- Two fetches raise the same, or return lists with the same last bars. -/
def Agrees : Except PyError (List Bar) → Except PyError (List Bar) → Prop
  | .ok bars, .ok bars' => ∀ ts, last Bar.ts ts bars = last Bar.ts ts bars'
  | .error e, .error e' => e = e'
  | _, _ => False

namespace Agrees
variable {x x' y y' : Except PyError (List Bar)}

theorem refl (x : Except PyError (List Bar)) : Agrees x x := by
  cases x with
  | error e => exact Eq.refl e
  | ok bars => exact fun _ => rfl

theorem map_latest (agrees : Agrees x x') : x.map latest = x'.map latest := by
  cases x with
  | error e =>
    cases x' with
    | error e' => exact congrArg Except.error agrees
    | ok bars' => exact absurd agrees id
  | ok bars =>
    cases x' with
    | error e' => exact absurd agrees id
    | ok bars' => exact congrArg Except.ok ((merges_latest bars).unique (merges_latest bars') agrees)

/-- A merge counts by its last bars as the bars it merges. -/
theorem latest_map (x : Except PyError (List Bar)) : Agrees (x.map latest) x := by
  cases x with
  | error e => exact Eq.refl e
  | ok bars => exact (merges_latest bars).last

theorem append (first : Agrees x x') (second : Agrees y y') :
    Agrees (x >>= fun bars => y.map (bars ++ ·)) (x' >>= fun bars => y'.map (bars ++ ·)) := by
  cases x with
  | error e =>
    cases x' with
    | error e' => exact first
    | ok bars' => exact absurd first id
  | ok bars =>
    cases x' with
    | error e' => exact absurd first id
    | ok bars' =>
      cases y with
      | error e =>
        cases y' with
        | error e' => exact second
        | ok later' => exact absurd second id
      | ok later =>
        cases y' with
        | error e' => exact absurd second id
        | ok later' =>
          intro ts
          rw [last_append, last_append, first ts, second ts]

end Agrees

theorem gather_append (sources later : List DataSource) (q : BarQuery) :
    gather (sources ++ later) q = gather sources q >>= fun bars => (gather later q).map (bars ++ ·) := by
  induction sources with
  | nil =>
    show gather later q = (gather later q).map ([] ++ ·)
    cases gather later q <;> rfl
  | cons source sources ih =>
    rw [List.cons_append, gather_cons, gather_cons, ih]
    cases source.fetchBars q with
    | error e => rfl
    | ok bars =>
      cases gather sources q with
      | error e => rfl
      | ok more =>
        cases gather later q with
        | error e => rfl
        | ok rest => exact congrArg Except.ok (List.append_assoc bars more rest).symm

/-! ## Nesting -/

/-- A source, or a composite of such. -/
inductive SourceTree
  | leaf (source : DataSource)
  | composite (parts : List SourceTree)

namespace SourceTree

mutual

/-- The source that a tree stands for. -/
def dataSource : SourceTree → DataSource
  | .leaf source => source
  | .composite parts => Data.composite (dataSources parts)

def dataSources : List SourceTree → List DataSource
  | [] => []
  | part :: parts => part.dataSource :: dataSources parts

end

mutual

/-- The sources of a tree, from left to right. -/
def flattened : SourceTree → List DataSource
  | .leaf source => [source]
  | .composite parts => flattenedAll parts

def flattenedAll : List SourceTree → List DataSource
  | [] => []
  | part :: parts => part.flattened ++ flattenedAll parts

end

mutual

/-- A tree counts as its sources, one after the other. -/
theorem agrees_flattened (q : BarQuery) : ∀ tree : SourceTree, Agrees (tree.dataSource.fetchBars q) (gather tree.flattened q)
  | .leaf source => by
    have alone : gather [source] q = source.fetchBars q := by
      rw [gather_cons]
      cases source.fetchBars q with
      | error e => rfl
      | ok bars => exact congrArg Except.ok (List.append_nil bars)
    show Agrees (source.fetchBars q) (gather [source] q)
    rw [alone]
    exact .refl _
  | .composite parts => by
    show Agrees ((Data.composite (dataSources parts)).fetchBars q) (gather (flattenedAll parts) q)
    rw [composite_fetchBars, (agrees_flattenedAll q parts).map_latest]
    exact .latest_map _

theorem agrees_flattenedAll (q : BarQuery) : ∀ parts : List SourceTree,
    Agrees (gather (dataSources parts) q) (gather (flattenedAll parts) q)
  | [] => .refl _
  | part :: parts => by
    show Agrees (gather (part.dataSource :: dataSources parts) q) (gather (part.flattened ++ flattenedAll parts) q)
    rw [gather_cons, gather_append]
    exact (agrees_flattened q part).append (agrees_flattenedAll q parts)

end

/-- A composite of composites is the composite of all their sources. -/
theorem composite_flattenedAll (parts : List SourceTree) :
    (SourceTree.composite parts).dataSource = Data.composite (flattenedAll parts) := by
  apply congrArg DataSource.mk
  funext q
  have flat := (agrees_flattenedAll q parts).map_latest
  rwa [← composite_fetchBars, ← composite_fetchBars] at flat

end SourceTree

/-! ## Precedence -/

section Precedence
variable {q : BarQuery} {sources : List DataSource} {merged : List Bar}

/-- All sources return when the first loop does. -/
theorem gather_returns (sources : List DataSource) (q : BarQuery) :
    (∃ merged, gather sources q = .ok merged) ↔ ∀ source ∈ sources, ∃ bars, source.fetchBars q = .ok bars := by
  induction sources with
  | nil => exact iff_of_true ⟨[], rfl⟩ (by simp)
  | cons source sources ih =>
    rw [List.forall_mem_cons, ← ih]
    constructor
    · rintro ⟨merged, gathered⟩
      obtain ⟨bars, later, here, there, -⟩ := gather_cons_ok.mp gathered
      exact ⟨⟨bars, here⟩, ⟨later, there⟩⟩
    · rintro ⟨⟨bars, here⟩, ⟨later, there⟩⟩
      exact ⟨bars ++ later, gather_cons_ok.mpr ⟨bars, later, here, there, rfl⟩⟩

/-- What is gathered is what some source returns. -/
theorem mem_gathered (gathered : gather sources q = .ok merged) {bar : Bar} :
    bar ∈ merged ↔ ∃ source ∈ sources, ∃ bars, source.fetchBars q = .ok bars ∧ bar ∈ bars := by
  induction sources generalizing merged with
  | nil =>
    cases gathered
    simp
  | cons source sources ih =>
    obtain ⟨bars, later, here, there, rfl⟩ := gather_cons_ok.mp gathered
    rw [List.mem_append, ih there]
    simp [here]

/-- The last bar gathered with a time stamp is the last one of the last source that
has it. -/
theorem last_gathered (gathered : gather sources q = .ok merged) {ts : DateTime} {bar : Bar}
    (found : last Bar.ts ts merged = some bar) :
    ∃ before source after bars, sources = before ++ source :: after ∧ source.fetchBars q = .ok bars ∧
      last Bar.ts ts bars = some bar ∧
      ∀ later ∈ after, ∀ bars, later.fetchBars q = .ok bars → ∀ b ∈ bars, b.ts ≠ ts := by
  induction sources generalizing merged with
  | nil =>
    cases gathered
    cases found
  | cons source sources ih =>
    obtain ⟨bars, rest, here, there, rfl⟩ := gather_cons_ok.mp gathered
    rw [last_append] at found
    cases among : last Bar.ts ts rest with
    | some b =>
      rw [among] at found
      cases found
      obtain ⟨before, own, after, bars, rfl, returned, final, none_⟩ := ih there among
      exact ⟨source :: before, own, after, bars, rfl, returned, final, none_⟩
    | none =>
      rw [among] at found
      refine ⟨[], source, sources, bars, rfl, here, found, ?_⟩
      intro later member bars returned b inside
      apply last_eq_none_iff.mp among
      exact (mem_gathered there).mpr ⟨later, member, bars, returned, inside⟩

/-- A source that is asked twice in a row counts once. -/
theorem agrees_repeated (source : DataSource) (q : BarQuery) : Agrees (gather [source, source] q) (gather [source] q) := by
  rw [gather_cons, gather_cons]
  cases source.fetchBars q with
  | error e => exact Eq.refl e
  | ok bars =>
    intro ts
    show last Bar.ts ts (bars ++ (bars ++ [])) = last Bar.ts ts (bars ++ [])
    simp

end Precedence

/-- Bars in memory: of two bars with one time stamp the later in the list is the last. -/
theorem InMemoryBarDataSource.last_fetchBars (ds : InMemoryBarDataSource) (q : BarQuery) (ts : DateTime) :
    last Bar.ts ts (ds.fetchBars q) = last Bar.ts ts (ds.bars.filter fun bar => q.Selects bar) := by
  unfold last InMemoryBarDataSource.fetchBars
  rw [StableSort.filter_insertionSort_of_pairwise]
  apply List.pairwise_of_forall_mem_list
  intro a first b second
  have here := of_decide_eq_true (List.mem_filter.mp first).2
  have there := of_decide_eq_true (List.mem_filter.mp second).2
  rw [here, there]

/-- A composite of bars in memory answers the merge of all of them that the query selects. -/
theorem composite_inMemory (parts : List InMemoryBarDataSource) (q : BarQuery) :
    (composite (parts.map InMemoryBarDataSource.source)).fetchBars q =
      .ok (latest ((parts.flatMap InMemoryBarDataSource.bars).filter fun bar => q.Selects bar)) := by
  have agrees : Agrees (gather (parts.map InMemoryBarDataSource.source) q)
      (.ok ((parts.flatMap InMemoryBarDataSource.bars).filter fun bar => q.Selects bar)) := by
    induction parts with
    | nil => exact .refl _
    | cons part parts ih =>
      have own : Agrees (part.source.fetchBars q) (.ok (part.bars.filter fun bar => q.Selects bar)) := part.last_fetchBars q
      rw [List.map_cons, List.flatMap_cons, List.filter_append, gather_cons]
      exact own.append ih
  rw [composite_fetchBars, agrees.map_latest]
  rfl

/-- **Merging by precedence.** A composite answers when its sources do: one bar for
every time stamp of theirs, in time order, the last one of the last source that has the
time stamp. Composites among the sources may be flattened, and the last source repeated. -/
theorem composite_merges (sources : List DataSource) :
    (∀ q, (∃ out, (composite sources).fetchBars q = .ok out) ↔ ∀ source ∈ sources, ∃ bars, source.fetchBars q = .ok bars) ∧
    (∀ q out, (composite sources).fetchBars q = .ok out →
      (out.Pairwise fun a b => a.ts < b.ts) ∧
      (∀ ts, (∃ bar ∈ out, bar.ts = ts) ↔
        ∃ source ∈ sources, ∃ bars, source.fetchBars q = .ok bars ∧ ∃ bar ∈ bars, bar.ts = ts) ∧
      ∀ bar ∈ out, ∃ before source after bars, sources = before ++ source :: after ∧
        source.fetchBars q = .ok bars ∧ last Bar.ts bar.ts bars = some bar ∧
        ∀ later ∈ after, ∀ bars, later.fetchBars q = .ok bars → ∀ b ∈ bars, b.ts ≠ bar.ts) ∧
    (∀ parts : List SourceTree,
      (SourceTree.composite parts).dataSource = composite (SourceTree.flattenedAll parts)) ∧
    ∀ source, composite (sources ++ [source, source]) = composite (sources ++ [source]) := by
  refine ⟨fun q => ?_, fun q out returned => ?_, SourceTree.composite_flattenedAll, fun source => ?_⟩
  · rw [← gather_returns, composite_fetchBars]
    cases gather sources q <;> simp [Except.map]
  · rw [composite_fetchBars] at returned
    cases gathered : gather sources q with
    | error e =>
      rw [gathered] at returned
      cases returned
    | ok merged =>
      rw [gathered] at returned
      cases returned
      have merges := merges_latest merged
      refine ⟨merges.increasing, fun ts => ?_, fun bar member => ?_⟩
      · rw [merges.key_iff]
        constructor
        · rintro ⟨bar, member, own⟩
          obtain ⟨source, among, bars, here, inside⟩ := (mem_gathered gathered).mp member
          exact ⟨source, among, bars, here, bar, inside, own⟩
        · rintro ⟨source, among, bars, here, bar, inside, own⟩
          exact ⟨bar, (mem_gathered gathered).mpr ⟨source, among, bars, here, inside⟩, own⟩
      · exact last_gathered gathered (merges.mem_iff.mp member)
  · apply congrArg DataSource.mk
    funext q
    have twice := ((Agrees.refl (gather sources q)).append (agrees_repeated source q)).map_latest
    rwa [← gather_append, ← gather_append, ← composite_fetchBars, ← composite_fetchBars] at twice

end CryptoQuant.Data
