import ReplicaLag.Proofs.Flaws
import ReplicaLag.Proofs.Journal
import ReplicaLag.Proofs.Unmatched

/-!
What a deployment without a flaw routes. Its shards keep the nodes and the lag of its clusters until
they are stopped. Main statement: after any run that stops no shard the router finds a node for
every request, unless there is none of the name that the request gives, or the request asks for a
secondary where a shard has but one node.
-/

namespace ReplicaLag

/-- A live shard with the nodes and the lag of a cluster of a deployment. -/
structure Shard.Runs (s : Shard) (c : ClusterSpec) : Prop where
  isLive : s.isLive = true
  nodes : s.cluster.nodes = c.toNodes
  model : ∃ start, s.cluster.model = .replicated (.ofProfile c.lag start)

namespace Shard.Runs

variable {s : Shard} {c : ClusterSpec} {now : Millis} {r : Request}

theorem owns_iff (h : s.Runs c) {n : String} : s.owns n = true ↔ n ∈ c.names := by
  simp [owns, h.nodes, ← c.map_name_toNodes]

theorem one_le_wait (h : s.Runs c) (hflaw : c.flaw? = none) {concern : WriteConcern}
    (hc : r.concern? = some concern) (hj : concern.journaling = true)
    (hbody : (s.serve now r).1.body.isException = false) : 1 ≤ (s.serve now r).1.wait := by
  obtain ⟨start, hmodel⟩ := h.model
  have hinterval : 3 ≤ c.lag.journalInterval :=
    (LagProfile.flaw?_eq_none_iff.mp (ClusterSpec.flaw?_eq_none_iff.mp hflaw).2.2.2.2).1
  rw [Shard.serve, if_pos h.isLive] at hbody ⊢
  obtain ⟨node, _, _, body, _, _, _, hanswer, hsettle⟩ := Cluster.serve_accepted_write hc hbody
  rw [hmodel] at hsettle
  exact UInt64.le_trans (Replication.one_le_journalDelay hinterval hj now)
    (Replication.journalDelay_le_wait hanswer hc hsettle)

theorem run {k : LiveShard} (h : k.shard.Runs c) {events : List ShardEvent}
    (hlive : .stop ∉ events) : (k.run events).2.shard.Runs c := by
  induction events generalizing k with
  | nil => exact h
  | cons e rest ih =>
    obtain ⟨he, hrest⟩ := not_or.mp (List.mem_cons.not.mp hlive)
    refine ih (k := (k.step e).2) ?_ hrest
    cases e with
    | request r =>
      obtain ⟨start, hmodel⟩ := h.model
      exact ⟨(k.shard.serve_isLive k.clock.now r).trans h.isLive,
        (k.shard.serve_nodes k.clock.now r).trans h.nodes,
        start, (k.shard.serve_model k.clock.now r).trans hmodel⟩
    | clear | advance => exact ⟨h.isLive, h.nodes, h.model⟩
    | stop => exact absurd rfl he

end Shard.Runs

/-- A router whose shards run the clusters of a deployment, one for one. -/
structure Router.Deploys (rt : Router) (d : Deployment) : Prop where
  length : rt.shards.length = d.shards.length
  shard : ∀ (i : Nat) c, d.shards[i]? = some c → ∃ s : Shard, rt.shards[i]? = some s ∧ s.Runs c

namespace Router.Deploys

variable {rt : Router} {d : Deployment} {now : Millis} {r : Request}

theorem spec (h : rt.Deploys d) {i : Nat} {s : Shard} (hs : rt.shards[i]? = some s) :
    ∃ c, d.shards[i]? = some c ∧ s.Runs c := by
  have hi : i < d.shards.length := h.length ▸ (List.getElem?_eq_some_iff.mp hs).1
  have hc : d.shards[i]? = some d.shards[i] := List.getElem?_eq_getElem hi
  obtain ⟨t, ht, hruns⟩ := h.shard i _ hc
  obtain rfl : s = t := Option.some.inj (hs.symm.trans ht)
  exact ⟨_, hc, hruns⟩

theorem nonempty (h : rt.Deploys d) (hd : d.flaw? = none) : rt.shards ≠ [] := by
  have hne : d.shards ≠ [] := (Deployment.flaw?_eq_none_iff.mp hd).1
  rwa [← List.length_pos_iff, h.length, List.length_pos_iff]

/-- A node name belongs to the shard of its cluster and to no other. -/
theorem owns_iff (h : rt.Deploys d) (hd : d.flaw? = none) {i j : Nat} {c : ClusterSpec} {s : Shard}
    {n : String} (hc : d.shards[i]? = some c) (hn : n ∈ c.names) (hs : rt.shards[j]? = some s) :
    s.owns n = true ↔ j = i := by
  obtain ⟨b, hb, hruns⟩ := h.spec hs
  rw [hruns.owns_iff]
  refine ⟨fun hnb => Deployment.index_eq_of_mem_names hd hb hc hnb hn, ?_⟩
  rintro rfl
  obtain rfl : c = b := Option.some.inj (hc.symm.trans hb)
  exact hn

theorem directed_unmatched_iff (h : rt.Deploys d) {n : String} (hr : r.destination = some n) :
    (rt.serve now r).1.Unmatched ↔ ∀ c ∈ d.shards, n ∉ c.names := by
  have hb : r.isBroadcast = false := by rw [Request.isBroadcast, hr]; rfl
  rw [serve_eq_forward_of_not_broadcast hb]
  by_cases hserved : ∃ i s, rt.shards[i]? = some s ∧ rt.route r = some i
  · obtain ⟨i, s, hs, hroute⟩ := hserved
    obtain ⟨c, hc, hruns⟩ := h.spec hs
    have howns : s.owns n = true := by
      simp only [route, hr] at hroute
      split at hroute
      · cases hroute
      · obtain ⟨hi, howns, _⟩ := List.findIdx?_eq_some_iff_getElem.mp hroute
        rwa [(List.getElem?_eq_some_iff.mp hs).2] at howns
    rw [forward_of_route hroute hs]
    refine iff_of_false (fun hu => ?_) fun hno =>
      hno c (List.mem_of_getElem? hc) (hruns.owns_iff.mp howns)
    obtain ⟨node, hnode, hname⟩ := List.any_eq_true.mp howns
    have hnone := (Shard.serve_unmatched_iff hruns.isLive now r).mp hu
    exact (Cluster.server?_eq_none_iff_of_destination hr).mp hnone node hnode
      (of_decide_eq_true hname)
  · rw [forward_of_unserved fun i s hs hroute => hserved ⟨i, s, hs, hroute⟩]
    refine iff_of_true rfl fun c hc hn => hserved ?_
    obtain ⟨i, hi⟩ := List.mem_iff_getElem?.mp hc
    obtain ⟨s, hs, hruns⟩ := h.shard i c hi
    have hmem := List.mem_of_getElem? hs
    have hfound : rt.shards.any (·.owns n) = true :=
      List.any_eq_true.mpr ⟨s, hmem, hruns.owns_iff.mpr hn⟩
    rw [← List.findIdx?_isSome] at hfound
    obtain ⟨j, hj⟩ := Option.isSome_iff_exists.mp hfound
    have hroute : rt.route r = some j := by
      simp only [route, hr, List.isEmpty_iff, List.ne_nil_of_mem hmem, if_false, hj]
    exact ⟨j, _, List.getElem?_eq_getElem (List.findIdx?_eq_some_iff_getElem.mp hj).1, hroute⟩

theorem undirected_unmatched_iff (h : rt.Deploys d) (hd : d.flaw? = none)
    (hr : r.destination = none) (hp : r.action.Passes) :
    (rt.serve now r).1.Unmatched ↔ r.preference? = some .secondary ∧
      ∃ i c, d.shards[i]? = some c ∧ rt.reaches i r = true ∧ c.nodes.length = 1 := by
  have hlive : ∀ s ∈ rt.shards, s.isLive = true := by
    intro s hs
    obtain ⟨i, hi⟩ := List.mem_iff_getElem?.mp hs
    obtain ⟨_, _, hruns⟩ := h.spec hi
    exact hruns.isLive
  have hserver : ∀ {s : Shard} {c}, c ∈ d.shards → s.Runs c → (s.cluster.server? r = none ↔
      r.preference? = some .secondary ∧ c.nodes.length = 1) := by
    intro s c hc hruns
    have hprimary : s.cluster.nodes.countP (·.isPrimary) = 1 := hruns.nodes ▸
      ClusterSpec.countP_isPrimary_toNodes ((Deployment.flaw?_eq_none_iff.mp hd).2.1 c hc)
    rw [Cluster.server?_eq_none_iff hprimary hr, hruns.nodes, c.length_toNodes]
  rw [serve_unmatched_iff (h.nonempty hd) hlive hr hp]
  constructor
  · rintro ⟨i, s, hs, hreaches, hnone⟩
    obtain ⟨c, hc, hruns⟩ := h.spec hs
    obtain ⟨hp, hone⟩ := (hserver (List.mem_of_getElem? hc) hruns).mp hnone
    exact ⟨hp, i, c, hc, hreaches, hone⟩
  · rintro ⟨hp, i, c, hc, hreaches, hone⟩
    obtain ⟨s, hs, hruns⟩ := h.shard i c hc
    exact ⟨i, s, hs, hreaches, (hserver (List.mem_of_getElem? hc) hruns).mpr ⟨hp, hone⟩⟩

/-- Whoever asks for the journal waits, through the router or not. -/
theorem one_le_wait {l : LiveRouter} (h : l.router.Deploys d) (hd : d.flaw? = none)
    {e : RouterEvent} {a : Response} {concern : WriteConcern} (he : e.request? = some r)
    (ha : (l.step e).1 = some a) (hc : r.concern? = some concern) (hj : concern.journaling = true)
    (hbody : a.body.isException = false) : 1 ≤ a.wait := by
  have hshard : ∀ (i : Nat) s, l.router.shards[i]? = some s →
      (s.serve l.clock.now r).1.body.isException = false → 1 ≤ (s.serve l.clock.now r).1.wait := by
    intro i s hs hbody
    obtain ⟨c, hc', hruns⟩ := h.spec hs
    have hflaw := (Deployment.flaw?_eq_none_iff.mp hd).2.1 c (List.mem_of_getElem? hc')
    exact hruns.one_le_wait hflaw hc hj hbody
  cases e with
  | request q =>
    cases he
    have hb : r.isBroadcast = false := by
      have hscan : r.action.isScan = false := by
        cases hr : r.action with
        | scan => rw [Request.concern?, hr] at hc; cases hc
        | insert | update | delete | read => rfl
      rw [Request.isBroadcast, hscan, Bool.and_false]
    obtain rfl : (l.request r).1 = a := Option.some.inj ha
    by_cases hserved : ∃ i s, l.router.shards[i]? = some s ∧ l.router.route r = some i
    · obtain ⟨i, s, hs, hroute⟩ := hserved
      rw [LiveRouter.request_response hb hroute hs] at hbody ⊢
      exact hshard i s hs hbody
    · rw [LiveRouter.request, serve_eq_forward_of_not_broadcast hb,
        forward_of_unserved fun i s hs hroute => hserved ⟨i, s, hs, hroute⟩] at hbody
      cases hbody
  | direct i q =>
    cases he
    have ha : (l.direct i r).1 = some a := ha
    rw [LiveRouter.direct_response] at ha
    obtain ⟨s, hs, rfl⟩ := Option.map_eq_some_iff.mp ha
    exact hshard i s hs hbody
  | clear | stop | advance => cases he

end Router.Deploys

theorem Deployment.start_deploys (d : Deployment) (now : Millis) (hash : String → UInt64) :
    (d.start now hash).Deploys d where
  length := List.length_mapIdx
  shard i c hc := by
    refine ⟨{ id := i, cluster := c.start now }, ?_, rfl, rfl, now, rfl⟩
    rw [start, List.getElem?_mapIdx, hc]
    rfl

namespace LiveRouter

/-- Only a stop takes a shard away. -/
theorem run_deploys {l : LiveRouter} {d : Deployment} (h : l.router.Deploys d)
    {events : List RouterEvent} (hlive : ∀ i, .stop i ∉ events) :
    (l.run events).2.router.Deploys d where
  length := by
    rw [← h.length, Router.length_of_layout (l.run_layout events)]
  shard i c hc := by
    obtain ⟨s, hs, hruns⟩ := h.shard i c hc
    have hstop : .stop ∉ events.filterMap (l.router.eventAt i) := by
      intro hmem
      obtain ⟨e, he, hstop⟩ := List.mem_filterMap.mp hmem
      exact hlive i (Router.eq_stop_of_eventAt hstop ▸ he)
    refine ⟨_, ?_, hruns.run (k := ⟨l.clock, s⟩) hstop⟩
    rw [← map_shard?, (run_shard? (shard?_eq hs) events).1]
    rfl

/-- Whatever a router of a deployment without a flaw has been through, short of a stop, and however
it hashes keys: each cluster has one primary, each node name one shard, and each request without a
name a shard. No node matches exactly if the name given is that of no cluster, or if a secondary is
asked for where the request comes to a shard of one node. The journal of every cluster ticks, and
who asks for it waits. -/
theorem run_flawless_routes (d : Deployment) (now : Millis) (hash : String → UInt64)
    (events : List RouterEvent) (hd : d.flaw? = none) (hlive : ∀ i, .stop i ∉ events) :
    let m := (run ⟨⟨now⟩, d.start now hash⟩ events).2
    (∀ c ∈ d.shards, c.toNodes.countP (·.isPrimary) = 1 ∧ 1 ≤ c.lag.journalInterval / 3 ∧
      ∀ n ∈ c.names, ∃! i : Nat, ∃ s, m.router.shards[i]? = some s ∧ s.owns n = true) ∧
    (∀ r : Request, r.destination = none →
      ∃ i < m.router.shards.length, m.router.route r = some i) ∧
    (∀ (r : Request) n, r.destination = some n →
      ((m.request r).1.Unmatched ↔ ∀ c ∈ d.shards, n ∉ c.names)) ∧
    (∀ r : Request, r.destination = none → r.action.Passes →
      ((m.request r).1.Unmatched ↔ r.preference? = some .secondary ∧
        ∃ i c, d.shards[i]? = some c ∧ m.router.reaches i r = true ∧ c.nodes.length = 1)) ∧
    ∀ (e : RouterEvent) r a concern, e.request? = some r → (m.step e).1 = some a →
      r.concern? = some concern → concern.journaling = true → a.body.isException = false →
      1 ≤ a.wait := by
  intro m
  have h : m.router.Deploys d := run_deploys (d.start_deploys now hash) hlive
  have hclusters := (Deployment.flaw?_eq_none_iff.mp hd).2.1
  refine ⟨fun c hc => ⟨?_, ?_, fun n hn => ?_⟩, fun r hr => ?_, fun r n hr => ?_, fun r hr hp => ?_,
    fun e r a concern he ha hc hj hbody => ?_⟩
  · exact ClusterSpec.countP_isPrimary_toNodes (hclusters c hc)
  · have hflaw := ClusterSpec.flaw?_eq_none_iff.mp (hclusters c hc)
    have hinterval := (LagProfile.flaw?_eq_none_iff.mp hflaw.2.2.2.2).1
    rw [UInt64.le_iff_toNat_le] at hinterval ⊢
    rw [UInt64.toNat_div]
    exact Nat.div_pos hinterval (by decide)
  · obtain ⟨i, hi⟩ := List.mem_iff_getElem?.mp hc
    obtain ⟨s, hs, _⟩ := h.shard i c hi
    refine ⟨i, ⟨s, hs, (h.owns_iff hd hi hn hs).mpr rfl⟩, ?_⟩
    rintro j ⟨t, ht, howns⟩
    exact (h.owns_iff hd hi hn ht).mp howns
  · have hne := h.nonempty hd
    exact ⟨_, Router.placeOf_lt hne r.table r.key, Router.route_undirected hne hr⟩
  · exact h.directed_unmatched_iff hr
  · exact h.undirected_unmatched_iff hd hr hp
  · exact h.one_le_wait hd he ha hc hj hbody

/-- Two key ranges that meet at "m", on two nodes and on one. -/
theorem lone_node_refuses_secondary_reads :
    let d : Deployment := {
      shards := [{ nodes := [{ name := "n1" }, { name := "n2" }] }, { nodes := [{ name := "n3" }] }]
      placements := .ofList [("t", .ranges ["m"])] }
    let insert (key : String) :=
      (Request.insert "t" key (.ofList [("v", .nat 1)])).withConcern .journaled
    let read (key : String) := (Request.read "t" key).withPreference .secondary
    let scan := (Request.scan "t" "" 9).withPreference .secondary
    let m := (run ⟨⟨0⟩, d.start 0⟩ [.request (insert "a"), .advance 5]).2
    let inserted := (m.request (insert "b")).1
    d.flaw? = none ∧ ¬ (m.request (read "a")).1.Unmatched ∧ (m.request (read "z")).1.Unmatched ∧
      (m.request scan).1.Unmatched ∧ ¬ (m.request ((read "z").via "n3")).1.Unmatched ∧
      inserted.body.isException = false ∧ 1 ≤ inserted.wait := by
  intro d insert read scan m inserted
  have hd : d.flaw? = none := by decide
  obtain ⟨-, -, hdirected, hundirected, hwaits⟩ :=
    run_flawless_routes d 0 keyHash [.request (insert "a"), .advance 5] hd (by simp)
  have hinserted : inserted.body.isException = false := rfl
  refine ⟨hd, fun hnone => ?_, ?_, ?_, ?_, hinserted,
    hwaits (.request (insert "b")) _ _ _ rfl rfl rfl rfl hinserted⟩
  · obtain ⟨-, i, c, hc, hreaches, hone⟩ := (hundirected (read "a") rfl ⟨rfl, rfl⟩).mp hnone
    rcases i with _ | _ | i
    · cases hc
      cases hone
    · exact absurd hreaches (by decide)
    · cases hc
  · exact (hundirected (read "z") rfl ⟨rfl, rfl⟩).mpr ⟨rfl, 1, _, rfl, by decide, rfl⟩
  · exact (hundirected scan rfl ⟨rfl, by decide, rfl⟩).mpr ⟨rfl, 1, _, rfl, rfl, rfl⟩
  · rw [hdirected ((read "z").via "n3") "n3" rfl]
    simp [d, ClusterSpec.names]

end LiveRouter

end ReplicaLag
