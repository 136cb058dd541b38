import Mathlib.Order.Bounds.Basic
import ReplicaLag.Proofs.Journal

/-!
Journal commits. From the start of the model on there is one every tick, and a write that asks for
the journal is released by the first one after it, so writes of one tick are released together.
Main statement: this holds of every moment and every interval that leaves a tick, and in every run
the client of such a write waits at least until then.
-/

namespace ReplicaLag

namespace Replication

variable {m : Replication} {now later : Millis} {concern : WriteConcern}

/-- The journal is committed at this moment. Commits do not stop with the clock. -/
def IsCommit (m : Replication) (moment : ℕ) : Prop :=
  ∃ i, moment = m.startedAt.toNat + i * (m.journalInterval.toNat / 3)

/-- The moment at which the journal lets go of a write. -/
def release (m : Replication) (now : Millis) (concern : WriteConcern) : ℕ :=
  now.toNat + (m.journalDelay now concern).toNat

section

variable (h : 3 ≤ m.journalInterval) (hj : concern.journaling = true)
include h hj

theorem journalDelay_le_tick (now : Millis) :
    (m.journalDelay now concern).toNat ≤ m.journalInterval.toNat / 3 := by
  rw [toNat_journalDelay h hj]
  exact Nat.sub_le _ _

theorem journalDelay_of_lt (hnow : now < m.startedAt) :
    (m.journalDelay now concern).toNat = m.journalInterval.toNat / 3 := by
  have hnow : now.toNat < m.startedAt.toNat := UInt64.lt_iff_toNat_lt.mp hnow
  rw [toNat_journalDelay h hj, Nat.sub_eq_zero_of_le hnow.le, Nat.zero_mod, Nat.sub_zero]

/-- What has passed and what is to come make up the ticks begun. -/
theorem elapsed_add_journalDelay (now : Millis) :
    now.toNat - m.startedAt.toNat + (m.journalDelay now concern).toNat =
      ((now.toNat - m.startedAt.toNat) / (m.journalInterval.toNat / 3) + 1) *
        (m.journalInterval.toNat / 3) := by
  rw [toNat_journalDelay h hj]
  generalize now.toNat - m.startedAt.toNat = elapsed
  have hlt := Nat.mod_lt elapsed (tick_pos h)
  have hdiv := Nat.div_add_mod' elapsed (m.journalInterval.toNat / 3)
  rw [Nat.succ_mul]
  omega

theorem isLeast_release (hnow : m.startedAt ≤ now) :
    IsLeast {x | now.toNat < x ∧ m.IsCommit x} (m.release now concern) := by
  have hnow : m.startedAt.toNat ≤ now.toNat := UInt64.le_iff_toNat_le.mp hnow
  have hsum := elapsed_add_journalDelay h hj now
  have hpos : 1 ≤ (m.journalDelay now concern).toNat :=
    UInt64.le_iff_toNat_le.mp (one_le_journalDelay h hj now)
  refine ⟨⟨Nat.lt_add_of_pos_right hpos, ?_⟩, ?_⟩
  · refine ⟨(now.toNat - m.startedAt.toNat) / (m.journalInterval.toNat / 3) + 1, ?_⟩
    rw [← hsum, release]
    omega
  · rintro _ ⟨hlt, i, rfl⟩
    -- a later commit has begun no fewer ticks
    have hi : (now.toNat - m.startedAt.toNat) / (m.journalInterval.toNat / 3) < i := by
      rw [Nat.div_lt_iff_lt_mul (tick_pos h)]
      omega
    have hticks := Nat.mul_le_mul_right (m.journalInterval.toNat / 3) (Nat.succ_le_of_lt hi)
    rw [Nat.succ_eq_add_one, ← hsum] at hticks
    rw [release]
    omega

/-- No commit comes between two writes, so the same one releases both. -/
theorem release_eq_of_lt_release (hnow : m.startedAt ≤ now) (hle : now ≤ later)
    (hlt : later.toNat < m.release now concern) :
    m.release later concern = m.release now concern := by
  have hlater := isLeast_release h hj (UInt64.le_trans hnow hle)
  obtain ⟨⟨_, hcommit⟩, hleast⟩ := isLeast_release h hj hnow
  have hle : now.toNat ≤ later.toNat := UInt64.le_iff_toNat_le.mp hle
  refine hlater.unique ⟨⟨hlt, hcommit⟩, fun x hx => hleast ⟨?_, hx.2⟩⟩
  exact hle.trans_lt hx.1

theorem release_lt_of_release_le (hle : m.release now concern ≤ later.toNat) :
    m.release now concern < m.release later concern := by
  have hpos : 1 ≤ (m.journalDelay later concern).toNat :=
    UInt64.le_iff_toNat_le.mp (one_le_journalDelay h hj later)
  exact hle.trans_lt (Nat.lt_add_of_pos_right hpos)

end

end Replication

namespace LiveCluster

variable {r : Request} {concern : WriteConcern}

/-- What the client of an accepted write waits for in a run. -/
theorem wait_of_accepted_write (clock : Clock) (nodes : List Node) (p : LagProfile)
    (events : List ClusterEvent) (hc : r.concern? = some concern)
    (h : (((replicated clock nodes p).run events).2.request r).1.body.isException = false) :
    let m : Replication := .ofProfile p clock.now
    let l := ((replicated clock nodes p).run events).2
    ∃ node d, l.cluster.resolve r = .ok node ∧ m.replicationDelay node concern nodes = .ok d ∧
      (l.request r).1.wait = (m.links.clientDelay r.client node.name).plus
        (max d (m.journalDelay l.clock.now concern)) ∧
      m.journalDelay l.clock.now concern ≤ (l.request r).1.wait := by
  intro m l
  have hm : l.cluster.model = .replicated m := run_model _ events
  have hnodes : l.cluster.nodes = nodes := run_nodes _ events
  obtain ⟨node, _, _, body, hresolve, _, _, hbody, hsettle⟩ := Cluster.serve_accepted_write hc h
  rw [hm, hnodes] at hsettle
  obtain ⟨d, hd, hwait⟩ := Replication.settle_write_wait hbody hc hsettle
  exact ⟨node, d, hresolve, hd, hwait, Replication.journalDelay_le_wait hbody hc hsettle⟩

/-- The delay of a journaled write ends at the first commit after it: it is no longer than a tick
and never nothing, and together with the time since the start it makes whole ticks. Writes before
that commit are released with it, and later ones later. A clock that was turned back behind the
start is at the beginning of a tick. In every run the client waits for the way to its node and then
for the later of replication and commit. -/
theorem journaled_write_released_by_commit (clock : Clock) (nodes : List Node) {p : LagProfile}
    (hp : 3 ≤ p.journalInterval) (hj : concern.journaling = true) :
    let m : Replication := .ofProfile p clock.now
    let tick := p.journalInterval.toNat / 3
    let delay (t : Millis) := (m.journalDelay t concern).toNat
    (∀ t, clock.now ≤ t → 1 ≤ delay t ∧ delay t ≤ tick ∧
      tick ∣ t.toNat - clock.now.toNat + delay t ∧
      IsLeast {x | t.toNat < x ∧ m.IsCommit x} (t.toNat + delay t)) ∧
    (∀ t u, clock.now ≤ t → t ≤ u →
      (u.toNat < t.toNat + delay t → u.toNat + delay u = t.toNat + delay t) ∧
      (t.toNat + delay t ≤ u.toNat → t.toNat + delay t < u.toNat + delay u)) ∧
    (∀ t, t < clock.now → delay t = tick) ∧
    ∀ (events : List ClusterEvent) (r : Request), r.concern? = some concern →
      let l := ((replicated clock nodes p).run events).2
      (l.request r).1.body.isException = false →
      ∃ node d, l.cluster.resolve r = .ok node ∧ m.replicationDelay node concern nodes = .ok d ∧
        (l.request r).1.wait = (m.links.clientDelay r.client node.name).plus
          (max d (m.journalDelay l.clock.now concern)) ∧
        m.journalDelay l.clock.now concern ≤ (l.request r).1.wait := by
  intro m tick delay
  have hm : 3 ≤ m.journalInterval := hp
  refine ⟨fun t ht => ⟨?_, ?_, ?_, ?_⟩, fun t u ht hu => ⟨?_, ?_⟩, fun t ht => ?_,
    fun events r hc => wait_of_accepted_write clock nodes p events hc⟩
  · exact UInt64.le_iff_toNat_le.mp (Replication.one_le_journalDelay hm hj t)
  · exact Replication.journalDelay_le_tick hm hj t
  · exact (Replication.elapsed_add_journalDelay hm hj t).symm ▸ Nat.dvd_mul_left _ _
  · exact Replication.isLeast_release hm hj ht
  · exact Replication.release_eq_of_lt_release hm hj ht hu
  · exact Replication.release_lt_of_release_le hm hj
  · exact Replication.journalDelay_of_lt hm hj ht

/-- With an interval of a hundred there is a commit every thirty-three milliseconds. The write is
taken seven milliseconds before the second one. -/
theorem insert_released_at_second_commit :
    let nodes : List Node := [{ name := "n1", isPrimary := true }, { name := "n2" }]
    let p : LagProfile := { defaultDelay := 2, clientLinks := [⟨"c", "n1", 10⟩] }
    let concern : WriteConcern := { journaling := true }
    let insert := (Request.insert "t" "k" (.ofList [("v", .nat 1)])).withConcern concern
    let r := insert.fromClient "c"
    let m : Replication := .ofProfile p 5
    let l := ((replicated ⟨5⟩ nodes p).run [.advance 59]).2
    3 ≤ p.journalInterval ∧ m.journalDelay l.clock.now concern = 7 ∧
      IsLeast {x | 64 < x ∧ m.IsCommit x} 71 ∧ m.journalDelay 4 concern = 33 ∧
      (l.request r).1.body.isException = false ∧ 7 ≤ (l.request r).1.wait := by
  intro nodes p concern insert r m l
  have hp : 3 ≤ p.journalInterval := by decide
  have hj : concern.journaling = true := rfl
  have hdelay : m.journalDelay l.clock.now concern = 7 := by decide
  have haccepted : (l.request r).1.body.isException = false := rfl
  obtain ⟨hcommits, _, hbehind, hwaits⟩ :=
    journaled_write_released_by_commit ⟨5⟩ nodes hp hj
  obtain ⟨_, _, _, hleast⟩ := hcommits l.clock.now (by decide)
  obtain ⟨_, _, _, _, _, hwait⟩ := hwaits [.advance 59] r rfl haccepted
  have hmoment : l.clock.now.toNat + (m.journalDelay l.clock.now concern).toNat = 71 := by
    rw [hdelay]
    rfl
  have hturned : m.journalDelay 4 concern = 33 :=
    UInt64.toNat_inj.mp ((hbehind 4 (by decide)).trans (by decide))
  exact ⟨hp, hdelay, hmoment ▸ hleast, hturned, haccepted, hdelay ▸ hwait⟩

end LiveCluster

end ReplicaLag
