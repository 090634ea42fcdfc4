import CodeAtlas.Proofs.Number.Rounding
import CodeAtlas.Store

/-!
# Clocks that do not go back

What is too old at one moment is too old at every later one.  For whole units of time this is plain;
for floating-point numbers, whose differences are rounded, it is because rounding keeps the order.
-/

namespace CodeAtlas

/-- A clock by which no entry becomes young again. -/
class LawfulClock (τ : Type) [Clock τ] [LE τ] : Prop where
  exceeds_of_le : ∀ {start now later span : τ}, now ≤ later →
    Clock.exceeds start now span = true → Clock.exceeds start later span = true

instance : LawfulClock Int where
  exceeds_of_le {start now later span} hle h := by
    have hnow : span < now - start := of_decide_eq_true h
    exact decide_eq_true (show span < later - start by omega)

instance : LawfulClock Double where
  exceeds_of_le hle h := Double.lt_add_of_le hle h

namespace Store

variable {α τ : Type} [Clock τ]

/-- At most the time to live has gone by since the entry was put. -/
theorem isExpired_eq_false_iff {timeToLive : Option τ} {now : τ} {e : StoreEntry α τ} :
    isExpired timeToLive now e = false
      ↔ ∀ span ∈ timeToLive, Clock.exceeds e.storedAt now span = false := by
  cases timeToLive with
  | none => exact ⟨fun _ _ h => absurd h (Option.not_mem_none _), fun _ => rfl⟩
  | some span => exact ⟨fun h _ hspan => Option.some.inj hspan ▸ h, fun h => h span rfl⟩

/-- What is too old stays so. -/
theorem isExpired_of_le [LE τ] [LawfulClock τ] {timeToLive : Option τ} {now later : τ}
    {e : StoreEntry α τ} (hle : now ≤ later) (h : isExpired timeToLive now e = true) :
    isExpired timeToLive later e = true := by
  cases timeToLive with
  | none => exact h
  | some span => exact LawfulClock.exceeds_of_le hle h

end Store

end CodeAtlas
