/-
# Time zones

The rules of a zone say how far its clocks are ahead at an instant and which instant
a local reading is taken for. A reading that the clocks show exactly once is taken
for the instant at which they show it (`ZoneRules.instant_of_unique`); about readings
that they skip or show twice nothing is assumed.
-/
import Mathlib

/-- The rules of a zone; instants and local readings are counted in seconds. -/
structure ZoneRules where
  offset : ℤ → ℤ
  instant : ℤ → ℤ
  instant_of_unique : ∀ reading t, (∀ t', t' + offset t' = reading ↔ t' = t) → instant reading = t

/-- A point in time as a text gives it: with an offset of its own, or without. -/
inductive ParsedTime
  | naive (reading : ℤ)
  | aware (t : ℤ)
deriving DecidableEq, Repr

namespace ZoneRules

/-- What the clocks of the zone show at an instant. -/
def toLocal (Z : ZoneRules) (t : ℤ) : ℤ := t + Z.offset t

/-- The instant of a parsed time, in the zone where it has no offset of its own. -/
def instantOf (Z : ZoneRules) : ParsedTime → ℤ
  | .naive reading => Z.instant reading
  | .aware t => t

/-- The clocks of the zone show the time once. -/
def ShownOnce (Z : ZoneRules) : ParsedTime → Prop
  | .naive reading => ∃! t, Z.toLocal t = reading
  | .aware t => ∀ t', Z.toLocal t' = Z.toLocal t → t' = t

/-- A zone whose clocks are always `d` ahead. -/
def fixed (d : ℤ) : ZoneRules where
  offset _ := d
  instant reading := reading - d
  instant_of_unique reading t h := by
    have ht := (h t).mpr rfl
    show reading - d = t
    omega

@[simp] theorem toLocal_fixed (d t : ℤ) : (fixed d).toLocal t = t + d := rfl

/-- In a zone of fixed offset every time is shown once. -/
theorem shownOnce_fixed (d : ℤ) : ∀ time, (fixed d).ShownOnce time
  | .naive reading => by
    refine ⟨reading - d, ?_, fun t ht => ?_⟩
    · show reading - d + d = reading
      omega
    · have ht' : t + d = reading := ht
      omega
  | .aware t => by
    intro t' h
    have h' : t' + d = t + d := h
    omega

end ZoneRules
