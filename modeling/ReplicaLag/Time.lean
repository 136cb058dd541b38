/-!
Moments and durations in milliseconds. A moment plus a delay stops at the last moment there is, so
that a delay can postpone an event but never bring it forward; a clock that is pushed past the last
moment starts again at zero.
-/

namespace ReplicaLag

/-- A moment, or a duration, in milliseconds. -/
abbrev Millis := UInt64

namespace Millis

/-- The last moment. -/
def last : Millis := 18446744073709551615

/-- The moment `delay` after `t`, or the last moment if that is later. -/
def plus (t delay : Millis) : Millis :=
  if t.toNat + delay.toNat < UInt64.size then t + delay else last

/-- The time that has passed from `since` to `t`, none if `since` is later. -/
def elapsedSince (t since : Millis) : Millis :=
  if since ≤ t then t - since else 0

theorem toNat_last : last.toNat = UInt64.size - 1 := rfl

theorem toNat_plus (t d : Millis) :
    (t.plus d).toNat = min (t.toNat + d.toNat) (UInt64.size - 1) := by
  unfold plus
  split
  · rw [UInt64.toNat_add, Nat.mod_eq_of_lt ‹_›]
    omega
  · rw [toNat_last]
    omega

theorem toNat_elapsedSince (t s : Millis) : (t.elapsedSince s).toNat = t.toNat - s.toNat := by
  unfold elapsedSince
  split
  next h => exact UInt64.toNat_sub_of_le _ _ h
  next h =>
    have : ¬ s.toNat ≤ t.toNat := fun hle => h (UInt64.le_iff_toNat_le.mpr hle)
    simp
    omega

@[simp] theorem plus_zero (t : Millis) : t.plus 0 = t :=
  UInt64.toNat_inj.mp (by have := t.toNat_lt; rw [toNat_plus]; simp; omega)

theorem plus_comm (t d : Millis) : t.plus d = d.plus t :=
  UInt64.toNat_inj.mp (by rw [toNat_plus, toNat_plus, Nat.add_comm])

/-- A delay never brings an event forward. -/
theorem le_plus (t d : Millis) : t ≤ t.plus d := by
  have := t.toNat_lt
  rw [UInt64.le_iff_toNat_le, toNat_plus, UInt64.size]
  omega

/-- A delay that is no longer ends no later, also where both end at the last moment. -/
theorem plus_le_plus (t : Millis) {d e : Millis} (h : d ≤ e) : t.plus d ≤ t.plus e := by
  rw [UInt64.le_iff_toNat_le] at h
  rw [UInt64.le_iff_toNat_le, toNat_plus, toNat_plus]
  omega

theorem toNat_max (a b : Millis) : (max a b).toNat = max a.toNat b.toNat := by
  have hmax : max a b = if a ≤ b then b else a := rfl
  rw [hmax]
  split
  next h => exact (Nat.max_eq_right (UInt64.le_iff_toNat_le.mp h)).symm
  next h =>
    rw [UInt64.le_iff_toNat_le] at h
    omega

theorem max_choice (a b : Millis) : max a b = a ∨ max a b = b := by
  rw [← UInt64.toNat_inj, ← UInt64.toNat_inj, toNat_max]
  omega

theorem max_le_iff {a b c : Millis} : max a b ≤ c ↔ a ≤ c ∧ b ≤ c := by
  simp only [UInt64.le_iff_toNat_le, toNat_max]
  omega

theorem le_max_left (a b : Millis) : a ≤ max a b := (max_le_iff.mp (UInt64.le_refl _)).1

theorem le_max_right (a b : Millis) : b ≤ max a b := (max_le_iff.mp (UInt64.le_refl _)).2

end Millis

/-- A clock that moves only when it is told to. -/
structure Clock where
  now : Millis
  deriving DecidableEq, Repr

namespace Clock

/-- The clock `ms` later; it wraps round after the last moment. -/
def advance (c : Clock) (ms : Millis) : Clock := ⟨c.now + ms⟩

/-- The time since a moment, none if that moment is still to come. -/
def elapsed (c : Clock) (since : Millis) : Millis := c.now.elapsedSince since

end Clock

end ReplicaLag
