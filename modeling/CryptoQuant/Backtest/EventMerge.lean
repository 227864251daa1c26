import CryptoQuant.Events.Market
import CryptoQuant.Lib.StableSort
import Mathlib.Data.List.Induction
import Mathlib.Data.Prod.Lex
import Mathlib.Data.String.Basic

/-!
# Merging event streams

`MultiSourceEventLoader.merge` of `backtest/data_sources.py`. It sorts by time, symbol,
time frame and source, and drops every event it has seen. Two events that agree in all
four and have different closes keep the order in which they were concatenated. The times
are all naive or all aware, so they compare.
-/

namespace CryptoQuant.MultiSourceEventLoader
set_option autoImplicit false

/-- The key of `merged.sort`. -/
def sortKey (e : MarketEvent) : DateTime ×ₗ String ×ₗ String ×ₗ String :=
  toLex (e.ts, toLex (e.symbol, toLex (e.timeframe.text, e.source)))

/-- `key`, of `seen`. -/
def identity (e : MarketEvent) : String × Timeframe × DateTime × ℚ × String :=
  (e.symbol, e.timeframe, e.ts, e.close, e.source)

/-- The locals `deduped` and `seen` of `merge`. -/
structure Dedup where
  deduped : List MarketEvent := []
  seen : List (String × Timeframe × DateTime × ℚ × String) := []

/-- One round of the second loop of `merge`. -/
def Dedup.round (st : Dedup) (event : MarketEvent) : Dedup :=
  let key := identity event
  if key ∈ st.seen then st else { deduped := st.deduped ++ [event], seen := st.seen ++ [key] }

/-- `merged`, after `merged.sort`. -/
def sorted (events : List MarketEvent) : List MarketEvent := events.insertionSort fun a b => sortKey a ≤ sortKey b

/-- `merge`. -/
def merge (eventStreams : List (List MarketEvent)) : List MarketEvent :=
  ((sorted eventStreams.flatten).foldl Dedup.round {}).deduped

instance : Std.Total fun a b : MarketEvent => sortKey a ≤ sortKey b := ⟨fun a b => le_total (sortKey a) (sortKey b)⟩
instance : IsTrans MarketEvent fun a b => sortKey a ≤ sortKey b := ⟨fun _ _ _ => le_trans⟩

theorem identity_injective : Function.Injective identity := by
  rintro ⟨symbol, timeframe, close, ts, source⟩ ⟨symbol', timeframe', close', ts', source'⟩ same
  simp only [identity, Prod.mk.injEq] at same
  obtain ⟨rfl, rfl, rfl, rfl, rfl⟩ := same
  rfl

/-- The key decides all of an event but its close. -/
theorem sortKey_eq_iff {a b : MarketEvent} :
    sortKey a = sortKey b ↔ a.ts = b.ts ∧ a.symbol = b.symbol ∧ a.timeframe.text = b.timeframe.text ∧ a.source = b.source := by
  simp only [sortKey, EmbeddingLike.apply_eq_iff_eq, Prod.mk.injEq]

theorem text_injective : Function.Injective Timeframe.text := by
  intro a b
  cases a <;> cases b <;> decide

section Loop
variable {done : List MarketEvent} {st : Dedup}

/-- What the loop has made of the events so far: each of them once, where it came first. -/
structure Deduped (done : List MarketEvent) (st : Dedup) : Prop where
  seen : st.seen = st.deduped.map identity
  nodup : st.deduped.Nodup
  sublist : st.deduped.Sublist done
  mem : ∀ e ∈ done, e ∈ st.deduped
  first : ∀ p : MarketEvent → Bool, st.deduped.find? p = done.find? p

theorem Deduped.mem_seen (deduped : Deduped done st) (event : MarketEvent) : identity event ∈ st.seen ↔ event ∈ st.deduped := by
  rw [deduped.seen]
  exact List.mem_map_of_injective identity_injective

/-- **One round.** -/
theorem Deduped.round (deduped : Deduped done st) (event : MarketEvent) : Deduped (done ++ [event]) (st.round event) := by
  have known := deduped.mem_seen event
  unfold Dedup.round
  by_cases again : event ∈ st.deduped
  · rw [if_pos (known.mpr again)]
    refine ⟨deduped.seen, deduped.nodup, deduped.sublist.trans (List.sublist_append_left done [event]), ?_, ?_⟩
    · intro e member
      rcases List.mem_append.mp member with old | new
      · exact deduped.mem e old
      · rwa [List.mem_singleton.mp new]
    · intro p
      rw [deduped.first, List.find?_append]
      cases found : done.find? p with
      | some e => rfl
      | none =>
        have fails := List.find?_eq_none.mp found event (deduped.sublist.subset again)
        simp [fails]
  · rw [if_neg (mt known.mp again)]
    refine ⟨?_, ?_, deduped.sublist.append (List.Sublist.refl [event]), ?_, ?_⟩
    · simp [deduped.seen]
    · rw [List.nodup_append]
      refine ⟨deduped.nodup, List.nodup_singleton event, ?_⟩
      rintro e old _ new rfl
      exact again (List.mem_singleton.mp new ▸ old)
    · intro e member
      rcases List.mem_append.mp member with old | new
      · exact List.mem_append_left [event] (deduped.mem e old)
      · exact List.mem_append_right st.deduped new
    · intro p
      rw [List.find?_append, List.find?_append, deduped.first]

/-- **The loop.** -/
theorem deduped_foldl (events : List MarketEvent) : Deduped events (events.foldl Dedup.round {}) := by
  induction events using List.reverseRecOn with
  | nil => exact ⟨rfl, List.nodup_nil, List.Sublist.refl [], fun e member => member, fun p => rfl⟩
  | append_singleton done event ih =>
    rw [List.foldl_append]
    exact ih.round event

end Loop

section Merge
variable (eventStreams : List (List MarketEvent))

/-- The merge contains the events of the streams. -/
theorem mem_merge {e : MarketEvent} : e ∈ merge eventStreams ↔ ∃ stream ∈ eventStreams, e ∈ stream := by
  have loop := deduped_foldl (sorted eventStreams.flatten)
  have sorting : e ∈ sorted eventStreams.flatten ↔ e ∈ eventStreams.flatten := List.mem_insertionSort _
  rw [← List.mem_flatten, ← sorting]
  exact ⟨fun member => loop.sublist.subset member, loop.mem e⟩

theorem nodup_merge : (merge eventStreams).Nodup := (deduped_foldl _).nodup

theorem pairwise_merge : (merge eventStreams).Pairwise fun a b => sortKey a ≤ sortKey b := by
  have order := List.pairwise_insertionSort (fun a b => sortKey a ≤ sortKey b) eventStreams.flatten
  exact order.sublist (deduped_foldl _).sublist

/-- In time order. -/
theorem merge_inTimeOrder : (merge eventStreams).Pairwise fun a b => a.ts ≤ b.ts := by
  apply (pairwise_merge eventStreams).imp
  intro a b le
  rcases Prod.Lex.toLex_le_toLex.mp le with earlier | ⟨same, -⟩
  · exact le_of_lt earlier
  · exact le_of_eq same

/-- The first event with a key is the first one in the streams. -/
theorem find?_merge (key : DateTime ×ₗ String ×ₗ String ×ₗ String) :
    (merge eventStreams).find? (fun e => sortKey e = key) = eventStreams.flatten.find? fun e => sortKey e = key := by
  have stable : ((sorted eventStreams.flatten).filter fun e => sortKey e = key) =
      eventStreams.flatten.filter fun e => sortKey e = key := by
    apply StableSort.filter_insertionSort_of_pairwise
    apply List.pairwise_of_forall_mem_list
    intro a first b second
    have here := of_decide_eq_true (List.mem_filter.mp first).2
    have there := of_decide_eq_true (List.mem_filter.mp second).2
    exact le_of_eq (here.trans there.symm)
  rw [merge, (deduped_foldl _).first, ← List.head?_filter, ← List.head?_filter, stable]

/-- Both families contain the same events. -/
def SameEvents (eventStreams eventStreams' : List (List MarketEvent)) : Prop :=
  ∀ e, (∃ stream ∈ eventStreams, e ∈ stream) ↔ ∃ stream ∈ eventStreams', e ∈ stream

/-- A stream of known events adds nothing. -/
theorem sameEvents_cons {stream : List MarketEvent} (known : ∀ e ∈ stream, e ∈ eventStreams.flatten) :
    SameEvents (stream :: eventStreams) eventStreams := by
  intro e
  constructor
  · rintro ⟨own, among, member⟩
    rcases List.mem_cons.mp among with rfl | later
    · exact List.mem_flatten.mp (known e member)
    · exact ⟨own, later, member⟩
  · rintro ⟨own, among, member⟩
    exact ⟨own, List.mem_cons_of_mem stream among, member⟩

/-- No two events agree in what they are sorted by and differ in their close. -/
def OneClose (eventStreams : List (List MarketEvent)) : Prop :=
  ∀ a ∈ eventStreams.flatten, ∀ b ∈ eventStreams.flatten,
    a.ts = b.ts → a.symbol = b.symbol → a.timeframe = b.timeframe → a.source = b.source → a.close = b.close

variable {eventStreams} in
/-- Then the key decides the event, and the merge is in strict order. -/
theorem OneClose.strict (one : OneClose eventStreams) : (merge eventStreams).Pairwise fun a b => sortKey a < sortKey b := by
  have both := (pairwise_merge eventStreams).and (nodup_merge eventStreams)
  apply both.imp_of_mem
  intro a b first second related
  apply lt_of_le_of_ne related.1
  intro same
  obtain ⟨ts, symbol, timeframe, source⟩ := sortKey_eq_iff.mp same
  have close := one a (List.mem_flatten.mpr ((mem_merge _).mp first)) b (List.mem_flatten.mpr ((mem_merge _).mp second))
    ts symbol (text_injective timeframe) source
  apply related.2
  apply identity_injective
  rw [identity, identity, ts, symbol, text_injective timeframe, source, close]

variable {eventStreams} in
theorem OneClose.same {eventStreams' : List (List MarketEvent)} (one : OneClose eventStreams)
    (same : SameEvents eventStreams' eventStreams) : OneClose eventStreams' := by
  intro a first b second
  exact one a (List.mem_flatten.mpr ((same a).mp (List.mem_flatten.mp first))) b
    (List.mem_flatten.mpr ((same b).mp (List.mem_flatten.mp second)))

/-- **What the merge depends on.** It is in time order and contains each event of the streams
once. It is the same for all streams with these events exactly when no two of them agree
in time, symbol, time frame and source and differ in their close. -/
theorem merge_deterministic_iff :
    (merge eventStreams).Pairwise (fun a b => a.ts ≤ b.ts) ∧ (merge eventStreams).Nodup ∧
    (∀ e, e ∈ merge eventStreams ↔ ∃ stream ∈ eventStreams, e ∈ stream) ∧
    ((∀ eventStreams', SameEvents eventStreams' eventStreams → merge eventStreams' = merge eventStreams) ↔
      OneClose eventStreams) := by
  refine ⟨merge_inTimeOrder eventStreams, nodup_merge eventStreams, fun e => mem_merge eventStreams, ?_, ?_⟩
  · intro same a first b second ts symbol timeframe source
    -- The two events in front of the streams, in either order.
    have ahead := same _ (sameEvents_cons eventStreams (List.forall_mem_cons.mpr ⟨first, List.forall_mem_singleton.mpr second⟩))
    have behind := same _ (sameEvents_cons eventStreams (List.forall_mem_cons.mpr ⟨second, List.forall_mem_singleton.mpr first⟩))
    have key : sortKey b = sortKey a := by
      rw [sortKey, sortKey, ts, symbol, timeframe, source]
    have found := find?_merge ([a, b] :: eventStreams) (sortKey a)
    rw [ahead, ← behind, find?_merge] at found
    simp only [List.flatten_cons, List.cons_append, List.find?_cons, key, decide_true, Option.some.injEq] at found
    rw [found]
  · intro one eventStreams' same
    have irrefl : Std.Irrefl fun a b : MarketEvent => sortKey a < sortKey b := ⟨fun a => lt_irrefl (sortKey a)⟩
    have asymm : Std.Asymm fun a b : MarketEvent => sortKey a < sortKey b := ⟨fun a b => lt_asymm⟩
    apply List.Pairwise.eq_of_mem_iff (one.same same).strict one.strict
    intro e
    rw [mem_merge, mem_merge]
    exact same e

/-- A close of an exchange, and the same close after a revision. -/
def revised (close : ℚ) : MarketEvent := { symbol := "BTCUSDT", timeframe := .m1, close, ts := 0, source := "csv" }

/-- The order of the streams decides which of the two comes first. -/
theorem merge_depends_on_order :
    SameEvents [[revised 100], [revised 101]] [[revised 101], [revised 100]] ∧
      merge [[revised 100], [revised 101]] ≠ merge [[revised 101], [revised 100]] := by
  constructor
  · intro e
    simp [or_comm]
  · decide +kernel

end Merge

end CryptoQuant.MultiSourceEventLoader
