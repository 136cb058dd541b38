import ReplicaLag.Proofs.Shares
import ReplicaLag.Router.Run

/-!
Sharding is invisible. Shards of equal nodes and one model, of which each holds the share of a table
that is placed on it, answer through their router what one cluster with the whole table answers
(`Splits.serve`). Main statement: a client of one table gets the same responses from the router as
from a single cluster, over every run.
-/

namespace ReplicaLag

namespace Router

/-- The shard of a table that a key is placed on. -/
def placeOf (rt : Router) (table : String) (key : Option String) : Nat :=
  ((rt.placements.get? table).map (·.shardOf key rt.shards.length rt.hash)).getD 0

def isPlaced (rt : Router) (table : String) (i : Nat) (key : String) : Bool :=
  rt.placeOf table (some key) == i

theorem placeOf_lt {rt : Router} (h : rt.shards ≠ []) (table : String) (key : Option String) :
    rt.placeOf table key < rt.shards.length := by
  have hpos : 0 < rt.shards.length := List.length_pos_iff.mpr h
  unfold placeOf
  cases rt.placements.get? table with
  | none => exact hpos
  | some p => exact p.shardOf_lt key rt.hash hpos

theorem route_undirected {rt : Router} {r : Request} (hne : rt.shards ≠ [])
    (hd : r.destination = none) : rt.route r = some (rt.placeOf r.table r.key) := by
  simp only [route, hd, List.isEmpty_iff, hne, if_false, placeOf]

/-- Placement depends on how many shards there are, not on what they hold. -/
theorem isPlaced_with {rt : Router} (lastId : UInt64) {shards : List Shard}
    (h : shards.length = rt.shards.length) (table : String) (i : Nat) :
    ({ rt with lastId, shards } : Router).isPlaced table i = rt.isPlaced table i := by
  funext key
  simp only [isPlaced, placeOf, h]

/-- The shards of a router share out what one cluster has, by where keys of a table are placed. -/
structure Splits (rt : Router) (table : String) (c : Cluster) : Prop where
  nonempty : rt.shards ≠ []
  lastId : rt.lastId = c.lastId
  live : ∀ s ∈ rt.shards, s.isLive = true
  share : ∀ i s, rt.shards[i]? = some s →
    s.cluster = c.withShare (rt.isPlaced table i) s.cluster.lastId

variable {rt : Router} {table : String} {c : Cluster} {now : Millis} {r : Request}

/-- A shard serves as a cluster with its share of the store. -/
theorem Splits.serve_shard (h : rt.Splits table c) {i : Nat} {s : Shard}
    (hi : rt.shards[i]? = some s) (now : Millis) (r : Request) :
    s.serve now r =
      (((c.withShare (rt.isPlaced table i) s.cluster.lastId).serve now r).1,
        { s with cluster :=
          ((c.withShare (rt.isPlaced table i) s.cluster.lastId).serve now r).2 }) := by
  rw [Shard.serve, if_pos (h.live s (List.mem_of_getElem? hi)), h.share i s hi]
  rfl

/-- What one shard takes, the others do not notice. -/
theorem withShare_serve_of_other {p : String → Bool} (hp : ∀ key, r.key = some key → p key = false)
    (id : UInt64) : (c.serve now r).2.withShare p id = c.withShare p id := by
  unfold Cluster.withShare Cluster.holding
  rw [Cluster.serve_nodes, Cluster.serve_model]
  rcases c.serve_store now r with hs | ⟨node, key, v, _, hw, hs⟩
  · rw [hs]
  · rw [hs, Store.share_prepend_of_not (hp key hw.ofKey)]

/-- One shard is set to its share of what the cluster has become; the other shares are as before. -/
theorem Splits.set (h : rt.Splits table c) {k : Cluster} (hk : k.lastId = c.lastId + 1) {i : Nat}
    {s : Shard} (hi : rt.shards[i]? = some s)
    (hother : ∀ j, i ≠ j → ∀ id,
      k.withShare (rt.isPlaced table j) id = c.withShare (rt.isPlaced table j) id) (own : UInt64) :
    Splits { rt with
      lastId := rt.lastId + 1
      shards := rt.shards.set i { s with cluster := k.withShare (rt.isPlaced table i) own } }
      table k := by
  refine ⟨by simpa using h.nonempty, by rw [h.lastId, hk], ?_, ?_⟩
  · intro x hx
    rcases List.mem_or_eq_of_mem_set hx with hx | rfl
    · exact h.live x hx
    · exact h.live s (List.mem_of_getElem? hi)
  · intro j x hx
    rw [isPlaced_with _ (List.length_set ..)]
    rw [List.getElem?_set] at hx
    by_cases hij : i = j
    · subst hij
      rw [if_pos rfl] at hx
      split at hx
      · cases hx; rfl
      · cases hx
    · rw [if_neg hij] at hx
      rw [hother j hij]
      exact h.share j x hx

theorem Splits.forward (h : rt.Splits table c) (ht : r.table = table) (hd : r.destination = none)
    (hs : r.action.isScan = false) :
    (rt.forward now r).1 = (c.serve now r).1 ∧
      (rt.forward now r).2.Splits table (c.serve now r).2 := by
  have hroute : rt.route r = some (rt.placeOf table r.key) := ht ▸ route_undirected h.nonempty hd
  obtain ⟨s, hi⟩ : ∃ s, rt.shards[rt.placeOf table r.key]? = some s :=
    ⟨_, List.getElem?_eq_getElem (placeOf_lt h.nonempty table r.key)⟩
  have hp : ∀ key, r.key = some key → rt.isPlaced table (rt.placeOf table r.key) key = true := by
    intro key hk
    rw [isPlaced, hk, beq_self_eq_true]
  -- on the shard of its key the request finds what it would find in the whole store
  have hserve := h.serve_shard hi now r
  rw [Cluster.serve_withShare hp hs] at hserve
  simp only [Router.forward, hroute, hi, hserve, takeId]
  constructor
  · rw [h.lastId, ← Cluster.serve_responseId c now r]
  · refine h.set (Cluster.serve_lastId ..) hi (fun j hij id => withShare_serve_of_other ?_ id) _
    intro key hkey
    rw [isPlaced, ← hkey, beq_eq_false_iff_ne]
    exact hij

theorem collect_of_exceptions {bodies : List Body} {f : Fault} (hne : bodies ≠ [])
    (h : ∀ b ∈ bodies, b = .exception f) : collect bodies = .error f := by
  cases bodies with
  | nil => exact absurd rfl hne
  | cons b r => rw [h b (by simp)]; rfl

theorem collect_scans {α : Type} (l : List α) (rows : α → List Record) :
    collect (l.map fun i => .scan (rows i)) = .ok (l.flatMap rows) := by
  induction l with
  | nil => rfl
  | cons i r ih => rw [List.map_cons, collect, ih]; rfl

theorem collect_eq_ok {bodies : List Body} {records : List Record}
    (h : collect bodies = .ok records) :
    ∃ parts : List (List Record), bodies = parts.map .scan ∧ records = parts.flatten := by
  induction bodies generalizing records with
  | nil => cases h; exact ⟨[], rfl, rfl⟩
  | cons b rest ih =>
    cases b with
    | scan part =>
      cases hrest : collect rest with
      | error f => rw [collect, hrest] at h; cases h
      | ok others =>
        rw [collect, hrest] at h
        cases h
        obtain ⟨parts, rfl, rfl⟩ := ih hrest
        exact ⟨part :: parts, rfl, rfl⟩
    | insert | update | delete | read | exception => cases h

theorem foldl_wait_le_iff {responses : List Response} {w t : Millis} :
    responses.foldl (fun w a => max w a.wait) w ≤ t ↔ w ≤ t ∧ ∀ a ∈ responses, a.wait ≤ t := by
  induction responses generalizing w with
  | nil => simp
  | cons a r ih => rw [List.foldl_cons, ih, Millis.max_le_iff, List.forall_mem_cons, and_assoc]

/-- The longest wait is that of one of the responses. -/
theorem exists_wait_eq_foldl {responses : List Response} (hne : responses ≠ []) :
    ∃ a ∈ responses, a.wait = responses.foldl (fun w a => max w a.wait) 0 := by
  have hfirst : ∀ (r : List Response) (a : Response),
      ∃ b ∈ a :: r, b.wait = r.foldl (fun w a => max w a.wait) a.wait := by
    intro r
    induction r with
    | nil => exact fun a => ⟨a, List.mem_cons_self, rfl⟩
    | cons b r ih =>
      intro a
      rw [List.foldl_cons]
      rcases Millis.max_choice a.wait b.wait with h | h
      · obtain ⟨d, hd, hlongest⟩ := ih a
        exact ⟨d, by grind, by rw [h, hlongest]⟩
      · obtain ⟨d, hd, hlongest⟩ := ih b
        exact ⟨d, List.mem_cons_of_mem a hd, by rw [h, hlongest]⟩
  cases responses with
  | nil => exact absurd rfl hne
  | cons a r =>
    have hzero : max 0 a.wait = a.wait := by simp [max]
    rw [List.foldl_cons, hzero]
    exact hfirst r a

theorem foldl_wait {responses : List Response} {wait : Millis} (hne : responses ≠ [])
    (h : ∀ a ∈ responses, a.wait = wait) : responses.foldl (fun w a => max w a.wait) 0 = wait := by
  obtain ⟨a, ha, hlongest⟩ := exists_wait_eq_foldl hne
  rw [← hlongest, h a ha]

theorem merge_shares (hne : rt.shards ≠ []) (store : Store) (node start : String) (count : Nat)
    (ascending : Bool) (columns : Option NameSet) (t : Millis) :
    merge ascending count ((List.range rt.shards.length).flatMap fun i =>
        (store.share (rt.isPlaced table i)).scan node start count ascending columns t) =
      store.scan node start count ascending columns t := by
  have hpart : ∀ i, (store.share (rt.isPlaced table i)).scan node start count ascending columns t =
      (part (fun key => rt.placeOf table (some key)) i
        (store.rows node start ascending columns t)).take count := by
    intro i
    rw [Store.scan_eq_take, Store.rows_share]
    rfl
  simp only [hpart]
  rw [merge_parts (Store.rows_ordered ..) fun x _ => placeOf_lt hne table _, Store.scan_eq_take]

def answers (rt : Router) (now : Millis) (r : Request) : List Response :=
  rt.shards.map fun s => (s.serve now r).1

theorem gather_of_error {count : UInt64} {ascending : Bool} {f : Fault}
    (h : collect ((rt.answers now r).map (·.body)) = .error f) :
    (rt.gather now r count ascending).1 = r.refuse (rt.lastId + 1) f := by
  simp only [answers] at h
  simp only [Router.gather, h]
  rfl

theorem gather_of_records {count : UInt64} {ascending : Bool} {records : List Record}
    (h : collect ((rt.answers now r).map (·.body)) = .ok records) :
    (rt.gather now r count ascending).1 =
      { r.answer (rt.lastId + 1) (.scan (merge ascending count.toNat records)) with
        wait := (rt.answers now r).foldl (fun w a => max w a.wait) 0 } := by
  simp only [answers] at h
  simp only [Router.gather, h]
  rfl

theorem gather_snd (rt : Router) (now : Millis) (r : Request) (count : UInt64) (ascending : Bool) :
    (rt.gather now r count ascending).2 =
      { rt with shards := rt.shards.map fun s => (s.serve now r).2, lastId := rt.lastId + 1 } := by
  simp only [Router.gather]
  split <;> rfl

theorem Splits.gather_splits (h : rt.Splits table c) (hc : r.concern? = none) (count : UInt64)
    (ascending : Bool) :
    (rt.gather now r count ascending).2.Splits table (c.serve now r).2 := by
  rw [gather_snd, Cluster.serve_of_no_concern hc]
  refine ⟨by simpa using h.nonempty, by rw [h.lastId]; rfl, ?_, ?_⟩
  · intro k hk
    obtain ⟨s, hs, rfl⟩ := List.mem_map.mp hk
    obtain ⟨i, hi⟩ := List.mem_iff_getElem?.mp hs
    rw [h.serve_shard hi]
    exact h.live s hs
  · intro i k hk
    rw [List.getElem?_map] at hk
    obtain ⟨s, hi, rfl⟩ := Option.map_eq_some_iff.mp hk
    rw [isPlaced_with _ (List.length_map ..), h.serve_shard hi, Cluster.serve_of_no_concern hc]
    rfl

theorem Splits.answers_getElem? (h : rt.Splits table c) (i : Nat) :
    (rt.answers now r)[i]? = rt.shards[i]?.map fun s =>
      ((c.withShare (rt.isPlaced table i) s.cluster.lastId).serve now r).1 := by
  rw [answers, List.getElem?_map]
  cases hi : rt.shards[i]? with
  | none => rfl
  | some s => simp only [Option.map_some, h.serve_shard hi]

theorem Splits.mem_answers (h : rt.Splits table c) {a : Response} (ha : a ∈ rt.answers now r) :
    ∃ store id, a = ((c.holding store id).serve now r).1 := by
  obtain ⟨i, hi⟩ := List.mem_iff_getElem?.mp ha
  rw [h.answers_getElem?] at hi
  obtain ⟨s, _, rfl⟩ := Option.map_eq_some_iff.mp hi
  exact ⟨_, _, rfl⟩

/-- What holds of the answer from any store holds of the answer from each share. -/
theorem Splits.bodies_eq (h : rt.Splits table c) (body : Store → Body)
    (hbody : ∀ store id, ((c.holding store id).serve now r).1.body = body store) :
    (rt.answers now r).map (·.body) =
      (List.range rt.shards.length).map fun i => body (c.store.share (rt.isPlaced table i)) := by
  refine List.ext_getElem? fun i => ?_
  rw [List.getElem?_map, List.getElem?_map, h.answers_getElem?]
  by_cases hi : i < rt.shards.length
  · rw [List.getElem?_range hi, List.getElem?_eq_getElem hi]
    exact congrArg some (hbody _ _)
  · rw [List.getElem?_eq_none (by simpa using hi), List.getElem?_eq_none (by simpa using hi)]
    rfl

theorem Splits.gather_fst (h : rt.Splits table c) {key : Option String} {count : UInt64}
    {ascending : Bool} {fields : Option NameSet} {preference : ReadPreference}
    (ha : r.action = .scan key count ascending fields preference) :
    (rt.gather now r count ascending).1 = (c.serve now r).1 := by
  have hne : rt.answers now r ≠ [] := by simpa [answers] using h.nonempty
  rcases Cluster.serve_scan ha c now with ⟨f, hf⟩ | ⟨node, start, wait, hw⟩
  · have hcollect : collect ((rt.answers now r).map (·.body)) = .error f := by
      refine collect_of_exceptions (by simpa using hne) fun b hb => ?_
      obtain ⟨a, ha, rfl⟩ := List.mem_map.mp hb
      obtain ⟨store, id, rfl⟩ := h.mem_answers ha
      rw [hf]
      rfl
    rw [gather_of_error hcollect, h.lastId]
    exact (hf c.store c.lastId).symm
  · -- every share is scanned at the same node from the same key on
    have hbodies : (rt.answers now r).map (·.body) = _ := h.bodies_eq
      (fun store => .scan (store.scan node start count.toNat ascending fields now))
      fun store id => by rw [hw]; rfl
    have hcollect := collect_scans (List.range rt.shards.length) fun i =>
      (c.store.share (rt.isPlaced table i)).scan node start count.toNat ascending fields now
    have hwait : (rt.answers now r).foldl (fun w a => max w a.wait) 0 = wait := by
      refine foldl_wait hne fun a ha => ?_
      obtain ⟨store, id, rfl⟩ := h.mem_answers ha
      rw [hw]
    rw [← hbodies] at hcollect
    rw [gather_of_records hcollect, merge_shares h.nonempty, hwait, h.lastId]
    exact (hw c.store c.lastId).symm

theorem serve_eq_forward (hs : r.action.isScan = false) : rt.serve now r = rt.forward now r := by
  unfold Router.serve
  split
  next ha => rw [ha] at hs; cases hs
  next => rfl

theorem serve_eq_forward_of_nil (h : rt.shards = []) (now : Millis) (r : Request) :
    rt.serve now r = rt.forward now r := by
  unfold Router.serve
  split <;> simp [h]

theorem serve_eq_gather_of_scan {key : Option String} {count : UInt64} {ascending : Bool}
    {fields : Option NameSet} {preference : ReadPreference}
    (ha : r.action = .scan key count ascending fields preference) (hd : r.destination = none)
    (hne : rt.shards ≠ []) (now : Millis) : rt.serve now r = rt.gather now r count ascending := by
  simp only [Router.serve, hd, ha, List.isEmpty_iff, hne, if_false]

/-- A router and the cluster that it splits give one answer, and stay split and whole. -/
theorem Splits.serve (h : rt.Splits table c) (ht : r.table = table) (hd : r.destination = none)
    (now : Millis) :
    (rt.serve now r).1 = (c.serve now r).1 ∧
      (rt.serve now r).2.Splits table (c.serve now r).2 := by
  by_cases hs : r.action.isScan = false
  · rw [serve_eq_forward hs]
    exact h.forward ht hd hs
  · cases ha : r.action <;> simp only [ha, Action.isScan, not_true] at hs
    case scan key count ascending fields preference =>
      rw [serve_eq_gather_of_scan ha hd h.nonempty]
      exact ⟨h.gather_fst ha, h.gather_splits (by rw [Request.concern?, ha]; rfl) count ascending⟩

end Router

/-- What a client can ask of one cluster and of many alike, and the passing of time. -/
inductive ClientEvent where
  | request (r : Request)
  | advance (ms : Millis)

namespace ClientEvent

def forCluster : ClientEvent → ClusterEvent
  | request r => .request r
  | advance ms => .advance ms

def forRouter : ClientEvent → RouterEvent
  | request r => .request r
  | advance ms => .advance ms

/-- A request is for the table, and names no node. -/
def concerns (table : String) : ClientEvent → Prop
  | request r => r.table = table ∧ r.destination = none
  | advance _ => True

end ClientEvent

namespace LiveRouter

/-- A router in front of so many new shards of equal nodes and one model. -/
def sharded (clock : Clock) (nodes : List Node) (model : LagModel)
    (placements : SortedMap Placement) (shards : Nat) (hash : String → UInt64 := keyHash) :
    LiveRouter where
  clock := clock
  router := { shards := (List.range shards).map fun id => { id, cluster := { nodes, model } },
              placements, hash }

variable {l : LiveRouter} {k : LiveCluster} {table : String}

theorem step_of_splits (hclock : l.clock = k.clock) (h : l.router.Splits table k.cluster)
    {e : ClientEvent} (he : e.concerns table) :
    (l.step e.forRouter).1 = (k.step e.forCluster).1 ∧
      (l.step e.forRouter).2.clock = (k.step e.forCluster).2.clock ∧
      (l.step e.forRouter).2.router.Splits table (k.step e.forCluster).2.cluster := by
  cases e with
  | advance ms => exact ⟨rfl, congrArg (·.advance ms) hclock, h⟩
  | request r =>
    obtain ⟨hresponse, hsplits⟩ := h.serve he.1 he.2 l.clock.now
    rw [hclock] at hresponse hsplits
    refine ⟨?_, hclock, ?_⟩
    · simp only [ClientEvent.forRouter, ClientEvent.forCluster, step, LiveCluster.step, request,
        LiveCluster.request, hclock, hresponse]
    · simpa only [ClientEvent.forRouter, ClientEvent.forCluster, step, LiveCluster.step, request,
        LiveCluster.request, hclock] using hsplits

theorem run_of_splits (hclock : l.clock = k.clock) (h : l.router.Splits table k.cluster)
    {events : List ClientEvent} (he : ∀ e ∈ events, e.concerns table) :
    (l.run (events.map (·.forRouter))).1.filterMap id = (k.run (events.map (·.forCluster))).1 := by
  induction events generalizing l k with
  | nil => rfl
  | cons e r ih =>
    obtain ⟨hresponse, hclock, hsplits⟩ := step_of_splits hclock h (he e (by simp))
    have ih := ih hclock hsplits fun e hr => he e (by simp [hr])
    simp only [List.map_cons, run, LiveCluster.run, ← ih, hresponse]
    cases (k.step e.forCluster).1 <;> rfl

/-- The client of a table cannot tell shards from one cluster: over every run it gets the same
responses, numbers, waits and versions included, however the keys are placed and hashed. -/
theorem run_sharded_eq (clock : Clock) (nodes : List Node) (model : LagModel)
    (placements : SortedMap Placement) (hash : String → UInt64) {shards : Nat}
    (hshards : 0 < shards) {table : String} {events : List ClientEvent}
    (he : ∀ e ∈ events, e.concerns table) :
    (run (sharded clock nodes model placements shards hash)
        (events.map (·.forRouter))).1.filterMap id =
      (LiveCluster.run ⟨clock, { nodes, model }⟩ (events.map (·.forCluster))).1 := by
  refine run_of_splits rfl ⟨?_, rfl, ?_, ?_⟩ he
  · simp only [sharded, ne_eq, List.map_eq_nil_iff, List.range_eq_nil]
    omega
  · intro s hs
    obtain ⟨i, _, rfl⟩ := List.mem_map.mp hs
    rfl
  · intro i s hi
    simp only [sharded, List.getElem?_map] at hi
    obtain ⟨j, _, rfl⟩ := Option.map_eq_some_iff.mp hi
    rfl

/-- Two key ranges that meet at "m", a key in each, and a scan of both. -/
theorem run_two_ranges_eq :
    let nodes : List Node := [{ name := "n1", isPrimary := true }]
    let placements : SortedMap Placement := .ofList [("t", .ranges ["m"])]
    let events : List ClientEvent :=
      [.request (.insert "t" "a" (.ofList [("v", .nat 1)])),
        .request (.insert "t" "z" (.ofList [("v", .nat 2)])), .advance 5, .request (.scan "t" "" 9)]
    (run (sharded ⟨0⟩ nodes (.constant ⟨3, 0⟩) placements 2)
        (events.map (·.forRouter))).1.filterMap id =
      (LiveCluster.run ⟨⟨0⟩, { nodes, model := .constant ⟨3, 0⟩ }⟩
        (events.map (·.forCluster))).1 := by
  intro nodes placements events
  have he : ∀ e ∈ events, e.concerns "t" := by
    simp [events, ClientEvent.concerns, Request.insert, Request.scan]
  exact run_sharded_eq ⟨0⟩ nodes (.constant ⟨3, 0⟩) placements keyHash (by decide : 0 < 2) he

end LiveRouter

end ReplicaLag
