import ReplicaLag.Proofs.Replication

/-!
What a write concern can do. It comes in twice, when a node is asked to take the write and when the
wait is worked out, and can be refused at either; a concern that is granted sets the wait and does
nothing else. Main statement: two runs that differ in their concerns alone, all of them granted, go
through the same states and give the same answers but for the waits.
-/

namespace ReplicaLag

/-- The event with the default concern in place of its own, if it is a write. -/
def ClusterEvent.unconcerned : ClusterEvent → ClusterEvent
  | request r => request (r.withConcern {})
  | e => e

def Response.unwaited (a : Response) : Response := { a with wait := 0 }

theorem Request.concern?_withConcern (r : Request) (k : WriteConcern) :
    (r.withConcern k).concern? = r.concern?.map fun _ => k := by
  change (r.action.withConcern k).concern? = r.action.concern?.map fun _ => k
  cases r.action <;> rfl

theorem Cluster.resolve_withConcern (c : Cluster) (r : Request) (k : WriteConcern) :
    c.resolve (r.withConcern k) = c.resolve r := by
  have hpreference : (r.withConcern k).preference? = r.preference? := by
    change (r.action.withConcern k).preference? = r.action.preference?
    cases r.action <;> rfl
  rw [resolve, server?, chosen?, hpreference]
  rfl

namespace Replication

variable {m : Replication} {nodes : List Node} {r : Request} {receiver : Node}

/-- The concern of the request is not refused: its tag set is configured, and it can be met from the
node that takes the write or is given up after a while. -/
def Grants (m : Replication) (nodes : List Node) (r : Request) : Prop :=
  ∀ concern, r.concern? = some concern →
    (∀ name, concern.tagSet = some name → ∃ tags, m.tagSets.get? name = some tags) ∧
    ∀ node, Cluster.resolve { nodes, model := .replicated m } r = .ok node →
      m.CanMeet node concern nodes ∨ 0 < concern.timeout

/-- No concern of a run is refused. -/
def GrantsAll (m : Replication) (nodes : List Node) (events : List ClusterEvent) : Prop :=
  ∀ r, .request r ∈ events → m.Grants nodes r

theorem GrantsAll.take {events : List ClusterEvent} (h : m.GrantsAll nodes events) (n : Nat) :
    m.GrantsAll nodes (events.take n) := fun r hr => h r (List.mem_of_mem_take hr)

theorem GrantsAll.tail {e : ClusterEvent} {events : List ClusterEvent}
    (h : m.GrantsAll nodes (e :: events)) : m.GrantsAll nodes events := fun r hr => h r (.tail _ hr)

theorem grants_of_no_concern (h : r.concern? = none) : m.Grants nodes r := by
  intro concern hc
  rw [h] at hc
  cases hc

theorem grants_of_timeout {concern : WriteConcern} (hc : r.concern? = some concern)
    (known : ∀ name, concern.tagSet = some name → ∃ tags, m.tagSets.get? name = some tags)
    (ht : 0 < concern.timeout) : m.Grants nodes r := by
  intro k hk
  obtain rfl : concern = k := Option.some.inj (hc.symm.trans hk)
  exact ⟨known, fun _ _ => .inr ht⟩

/-- One acknowledgement is that of the receiver. -/
theorem grants_default (m : Replication) (nodes : List Node) (r : Request) :
    m.Grants nodes (r.withConcern {}) := by
  intro concern hc
  rw [Request.concern?_withConcern] at hc
  obtain ⟨_, _, rfl⟩ := Option.map_eq_some_iff.mp hc
  constructor
  · intro name hname
    cases hname
  · intro node _
    exact .inl (.inr (by simp [holders]))

/-- Of its concern only a tag set that nobody configured keeps a node from taking a write. -/
theorem visibility_of_known
    (known : ∀ name, r.concern?.bind (·.tagSet) = some name →
      ∃ tags, m.tagSets.get? name = some tags) :
    m.visibility r receiver nodes =
      if m.readOnlySecondaries = true ∧ ¬ receiver.isPrimary = true then
        .error (.readOnlySecondary receiver.name)
      else .ok (m.spread receiver nodes) := by
  by_cases hro : m.readOnlySecondaries = true ∧ ¬ receiver.isPrimary = true
  · rw [if_pos hro]
    simp only [visibility, if_pos hro]
    rfl
  · rw [if_neg hro]
    refine visibility_eq_ok_iff.mpr ⟨fun h => ?_, known, rfl⟩
    exact Classical.not_not.mp fun hp => hro ⟨h, hp⟩

theorem Grants.visibility_eq (h : m.Grants nodes r) (receiver : Node) :
    m.visibility (r.withConcern {}) receiver nodes = m.visibility r receiver nodes := by
  have hknown : ∀ name, r.concern?.bind (·.tagSet) = some name →
      ∃ tags, m.tagSets.get? name = some tags := by
    intro name hname
    obtain ⟨concern, hc, hset⟩ := Option.bind_eq_some_iff.mp hname
    exact (h concern hc).1 name hset
  have hdefault : ∀ name, (r.withConcern {}).concern?.bind (·.tagSet) = some name →
      ∃ tags, m.tagSets.get? name = some tags := by
    intro name hname
    obtain ⟨concern, hc, hset⟩ := Option.bind_eq_some_iff.mp hname
    exact (m.grants_default nodes r concern hc).1 name hset
  rw [visibility_of_known hknown, visibility_of_known hdefault]

end Replication

namespace Cluster

variable {c : Cluster} {m : Replication} {r : Request} {node : Node} {now : Millis}

theorem apply_withConcern {k : WriteConcern}
    (h : c.model.visibility (r.withConcern k) node c.nodes = c.model.visibility r node c.nodes)
    (now : Millis) : c.apply now (r.withConcern k) node = c.apply now r node := by
  have haction : (r.withConcern k).action = r.action.withConcern k := rfl
  cases ha : r.action <;> simp only [apply, haction, ha, Action.withConcern, h]

/-- A request that the store has taken, with a concern that is granted, is answered. -/
theorem serve_of_granted (hm : c.model = .replicated m) (h : m.Grants c.nodes r)
    (hr : c.resolve r = .ok node) {body : Body} {store : Store}
    (ha : c.apply now r node = .ok (body, store)) :
    (c.serve now r).1.unwaited = r.answer (c.lastId + 1) body ∧
      (c.serve now r).2 = { c with store, lastId := c.lastId + 1 } := by
  have hbody : (r.answer (c.lastId + 1) body).body.isException = false := (apply_cases ha).1
  obtain ⟨b, hb⟩ :
      ∃ b, c.model.settle now (r.answer (c.lastId + 1) body) r node c.nodes = .ok b := by
    cases hc : r.concern? with
    | none => exact ⟨_, c.model.settle_of_no_concern now node c.nodes hbody hc⟩
    | some concern =>
      obtain ⟨_, v, hw, _⟩ := wrote_of_applied hc ha
      have hallowed := hw.allowed
      have hresolve :
          Cluster.resolve { nodes := c.nodes, model := .replicated m } r = .ok node := by
        rw [← hm]
        exact hr
      rw [hm] at hallowed ⊢
      exact Replication.settles_of_canMeet hbody hallowed hc ((h concern hc).2 node hresolve) now
  rw [serve_of_applied hr ha, hb]
  refine ⟨?_, rfl⟩
  rw [Request.outcome, LagModel.settle_eq_ok hb]
  rfl

/-- A concern that is granted does as much as the default one, but for the wait. -/
theorem serve_unconcerned (hm : c.model = .replicated m) (h : m.Grants c.nodes r) (now : Millis) :
    (c.serve now r).1.unwaited = (c.serve now (r.withConcern {})).1.unwaited ∧
      (c.serve now r).2 = (c.serve now (r.withConcern {})).2 := by
  have hdefault := m.grants_default c.nodes r
  cases hr : c.resolve r with
  | error e =>
    have hr' : c.resolve (r.withConcern {}) = .error e := (c.resolve_withConcern r {}).trans hr
    rw [serve_of_unresolved hr, serve_of_unresolved hr']
    exact ⟨rfl, rfl⟩
  | ok node =>
    have hr' : c.resolve (r.withConcern {}) = .ok node := (c.resolve_withConcern r {}).trans hr
    have happly : c.apply now (r.withConcern {}) node = c.apply now r node :=
      apply_withConcern (by rw [hm]; exact h.visibility_eq node) now
    cases ha : c.apply now r node with
    | error e =>
      rw [serve_of_refused hr ha, serve_of_refused hr' (happly.trans ha)]
      exact ⟨rfl, rfl⟩
    | ok b =>
      obtain ⟨hanswer, hstate⟩ := serve_of_granted hm h hr ha
      obtain ⟨hanswer', hstate'⟩ := serve_of_granted hm hdefault hr' (happly.trans ha)
      exact ⟨hanswer.trans hanswer'.symm, hstate.trans hstate'.symm⟩

end Cluster

namespace LiveCluster

variable {m : Replication} {nodes : List Node} {l : LiveCluster} {events : List ClusterEvent}

theorem request_unconcerned (hm : l.cluster.model = .replicated m) {r : Request}
    (h : m.Grants l.cluster.nodes r) :
    (l.request r).1.unwaited = (l.request (r.withConcern {})).1.unwaited ∧
      (l.request r).2 = (l.request (r.withConcern {})).2 := by
  obtain ⟨hanswer, hstate⟩ := Cluster.serve_unconcerned hm h l.clock.now
  exact ⟨hanswer, congrArg (LiveCluster.mk l.clock) hstate⟩

theorem run_unconcerned (hm : l.cluster.model = .replicated m) (hn : l.cluster.nodes = nodes)
    (h : m.GrantsAll nodes events) :
    (l.run events).1.map (·.unwaited) =
        (l.run (events.map (·.unconcerned))).1.map (·.unwaited) ∧
      (l.run events).2 = (l.run (events.map (·.unconcerned))).2 := by
  induction events generalizing l with
  | nil => exact ⟨rfl, rfl⟩
  | cons e rest ih =>
    cases e with
    | request r =>
      obtain ⟨hanswer, hstate⟩ := request_unconcerned hm (hn ▸ h r (.head _))
      obtain ⟨hanswers, hstates⟩ :=
        ih ((l.request_model r).trans hm) ((l.request_nodes r).trans hn) h.tail
      rw [hstate] at hanswers hstates
      rw [List.map_cons, ClusterEvent.unconcerned, run_request, run_request, hstate]
      simp only [List.map_cons, hanswer, hanswers, hstates, and_self]
    | advance ms => exact ih (l := { l with clock := l.clock.advance ms }) hm hn h.tail
    | clear => exact ih (l := { l with cluster := l.cluster.clear }) hm hn h.tail

/-- Two runs of one cluster that are the same but for the concerns of their writes, of which none is
refused: after every event the two are in the same state, store and all, and their answers differ
in the waits at most. -/
theorem concerns_change_waits_only (clock : Clock) (nodes : List Node) (p : LagProfile)
    {first second : List ClusterEvent}
    (same : first.map (·.unconcerned) = second.map (·.unconcerned))
    (hfirst : (Replication.ofProfile p clock.now).GrantsAll nodes first)
    (hsecond : (Replication.ofProfile p clock.now).GrantsAll nodes second) :
    let l := replicated clock nodes p
    (l.run first).1.map (·.unwaited) = (l.run second).1.map (·.unwaited) ∧
      ∀ n, (l.run (first.take n)).2 = (l.run (second.take n)).2 := by
  intro l
  constructor
  · obtain ⟨hone, _⟩ := run_unconcerned (l := l) rfl rfl hfirst
    obtain ⟨hother, _⟩ := run_unconcerned (l := l) rfl rfl hsecond
    rw [hone, same, ← hother]
  · intro n
    have htake : (first.take n).map (·.unconcerned) = (second.take n).map (·.unconcerned) := by
      rw [List.map_take, List.map_take, same]
    calc (l.run (first.take n)).2
        = (l.run ((first.take n).map (·.unconcerned))).2 :=
          (run_unconcerned rfl rfl (hfirst.take n)).2
      _ = (l.run ((second.take n).map (·.unconcerned))).2 := by rw [htake]
      _ = (l.run (second.take n)).2 := (run_unconcerned rfl rfl (hsecond.take n)).2.symm

/-- A wait of at most a millisecond for one node, or of 33 for a tag set and the journal: the read
that follows finds the same. -/
theorem tag_set_changes_waits_only :
    let nodes : List Node :=
      [{ name := "n1", isPrimary := true }, { name := "n2", tags := .ofNames ["east"] }]
    let p := LagProfile.withTag { defaultDelay := 10 } "everywhere" "east" 1
    let insert := Request.insert "t" "k" (.ofList [("v", .nat 1)])
    let events (k : WriteConcern) : List ClusterEvent :=
      [.request (insert.withConcern k), .advance 3, .request (.read "t" "k")]
    let first := events { timeout := 1 }
    let second := events { tagSet := some "everywhere", journaling := true, timeout := 99 }
    let l := replicated ⟨0⟩ nodes p
    first.map (·.unconcerned) = second.map (·.unconcerned) ∧
      (l.run first).1.map (·.unwaited) = (l.run second).1.map (·.unwaited) ∧
      (l.run first).1.map (·.wait) = [0, 0] ∧ (l.run second).1.map (·.wait) = [33, 0] := by
  intro nodes p insert events first second l
  have hgrants : ∀ k : WriteConcern, 0 < k.timeout →
      (∀ name, k.tagSet = some name → ∃ tags, p.tagSets.get? name = some tags) →
      (Replication.ofProfile p 0).GrantsAll nodes (events k) := by
    intro k ht known r hr
    simp only [events, List.mem_cons, ClusterEvent.request.injEq, reduceCtorEq, false_or,
      List.not_mem_nil, or_false] at hr
    rcases hr with rfl | rfl
    · exact Replication.grants_of_timeout rfl known ht
    · exact Replication.grants_of_no_concern rfl
  have known : ∀ name, some "everywhere" = some name → ∃ tags, p.tagSets.get? name = some tags := by
    rintro name ⟨⟩
    exact ⟨_, rfl⟩
  have hfirst := hgrants { timeout := 1 } (by decide) (by simp)
  have hsecond := hgrants { tagSet := some "everywhere", journaling := true, timeout := 99 }
    (by decide) known
  have hsame : first.map (·.unconcerned) = second.map (·.unconcerned) := rfl
  obtain ⟨hanswers, _⟩ := concerns_change_waits_only ⟨0⟩ nodes p hsame hfirst hsecond
  exact ⟨hsame, hanswers, by decide, by decide +kernel⟩

end LiveCluster

end ReplicaLag
