import CryptoQuant.Risk.Manager

/-!
# What a sink is told

The risk manager and the degradation controller hand their alerts to a sink in the
order they emit them. A piece of either is described by the codes it tells the sink,
and the codes of consecutive pieces are appended.
-/

namespace CryptoQuant
set_option autoImplicit false

/-- The codes of the alerts a sink received between two moments. -/
def newCodes (before after : Option (List RiskAlert)) : List String :=
  ((after.getD []).drop (before.getD []).length).map RiskAlert.code

/-- Between two moments a sink, if there is one, was told alerts of these codes. -/
def Told (before after : Option (List RiskAlert)) (codes : List String) : Prop :=
  ∃ alerts : List RiskAlert, after = before.map (· ++ alerts) ∧ alerts.map RiskAlert.code = codes

section Told
variable {a b c : Option (List RiskAlert)} {xs ys : List String}

theorem Told.refl (a : Option (List RiskAlert)) : Told a a [] := ⟨[], by simp, rfl⟩

theorem Told.one (a : Option (List RiskAlert)) (alert : RiskAlert) : Told a (a.map (· ++ [alert])) [alert.code] :=
  ⟨[alert], rfl, rfl⟩

theorem Told.trans (first : Told a b xs) (second : Told b c ys) : Told a c (xs ++ ys) := by
  obtain ⟨here, rfl, rfl⟩ := first
  obtain ⟨there, rfl, rfl⟩ := second
  refine ⟨here ++ there, ?_, List.map_append⟩
  cases a with
  | none => rfl
  | some alerts => simp

/-- A sink stays a sink. -/
theorem Told.isSome (told : Told a b xs) (sink : a.isSome) : b.isSome := by
  obtain ⟨alerts, rfl, -⟩ := told
  simpa using sink

/-- A sink that is there has received exactly these codes. -/
theorem Told.newCodes_eq (told : Told a b xs) (sink : a.isSome) : newCodes a b = xs := by
  obtain ⟨alerts, rfl, rfl⟩ := told
  obtain ⟨before, rfl⟩ := Option.isSome_iff_exists.mp sink
  simp [newCodes]

end Told

end CryptoQuant
