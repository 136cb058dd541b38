import ReplicaLag.Proofs.Replication

/-!
The journal. Commits are a third of the interval apart and start with the model, so a write that
asks for one waits until the next, never none at all.
-/

namespace ReplicaLag

namespace Replication

variable {m : Replication} {now : Millis} {concern : WriteConcern}

theorem toNat_tick (m : Replication) :
    (m.journalInterval / 3).toNat = m.journalInterval.toNat / 3 := UInt64.toNat_div _ _

theorem tick_pos (h : 3 ≤ m.journalInterval) : 0 < m.journalInterval.toNat / 3 := by
  have h : 3 ≤ m.journalInterval.toNat := UInt64.le_iff_toNat_le.mp h
  omega

/-- What is left of the present tick; a clock that is behind the start is at its beginning. -/
theorem toNat_journalDelay (h : 3 ≤ m.journalInterval) (hj : concern.journaling = true)
    (now : Millis) :
    (m.journalDelay now concern).toNat = m.journalInterval.toNat / 3 -
      (now.toNat - m.startedAt.toNat) % (m.journalInterval.toNat / 3) := by
  have htick := tick_pos h
  have hne : m.journalInterval / 3 ≠ 0 := fun h0 => by
    rw [← toNat_tick, h0] at htick
    exact Nat.lt_irrefl 0 htick
  have hle : now.elapsedSince m.startedAt % (m.journalInterval / 3) ≤ m.journalInterval / 3 := by
    rw [UInt64.le_iff_toNat_le, UInt64.toNat_mod, toNat_tick]
    exact (Nat.mod_lt _ htick).le
  simp only [journalDelay, hj, hne, true_and, ne_eq, not_false_eq_true, if_true]
  rw [UInt64.toNat_sub_of_le _ _ hle, UInt64.toNat_mod, toNat_tick, Millis.toNat_elapsedSince]

/-- A commit is always still to come. -/
theorem one_le_journalDelay (h : 3 ≤ m.journalInterval) (hj : concern.journaling = true)
    (now : Millis) : 1 ≤ m.journalDelay now concern := by
  have hlt := Nat.mod_lt (now.toNat - m.startedAt.toNat) (tick_pos h)
  rw [UInt64.le_iff_toNat_le, toNat_journalDelay h hj]
  change 1 ≤ _
  omega

theorem journalDelay_le_wait {a b : Response} {r : Request} {receiver : Node} {nodes : List Node}
    (ha : a.body.isException = false) (hc : r.concern? = some concern)
    (h : m.settle now a r receiver nodes = .ok b) : m.journalDelay now concern ≤ b.wait := by
  obtain ⟨d, _, hwait⟩ := settle_write_wait ha hc h
  rw [hwait, UInt64.le_iff_toNat_le, Millis.toNat_plus, Millis.toNat_max]
  have hlt := (m.journalDelay now concern).toNat_lt
  rw [UInt64.size]
  omega

end Replication

end ReplicaLag
