import ReplicaLag.Proofs.Merge
import ReplicaLag.Proofs.ShardRuns

/-!
Keys of one table, spread over shards that need not be alike. A write goes to the shard of its key,
so each key lies there and nowhere else (`Router.Places`), and whatever shards answer to a scan are
records of different keys. Main statement: after any run, merged scans have their keys in strict
order, and a scan for the first record from a key on finds that key exactly if a read of it finds a
version, the same.
-/

namespace ReplicaLag

/-- A scan for the first record from a key on, and a read of the key, for one client and alike in
fields and preference. -/
structure Request.AsksAlike (scan read : Request) (key : String) : Prop where
  actions : ∃ ascending fields preference,
    scan.action = .scan (some key) 1 ascending fields preference ∧
    read.action = .read (some key) fields preference
  client : read.client = scan.client
  scan_undirected : scan.destination = none
  read_undirected : read.destination = none

theorem Request.AsksAlike.resolve {scan read : Request} {key : String} (h : scan.AsksAlike read key)
    (c : Cluster) : c.resolve read = c.resolve scan := by
  obtain ⟨_, _, _, hscan, hread⟩ := h.actions
  simp only [Cluster.resolve, Cluster.server?, Cluster.chosen?, h.client, h.scan_undirected,
    h.read_undirected, Request.preference?, hscan, hread, Action.preference?]

namespace Store

/-- The first row from a key on is that of the key exactly if a read of it gives a version. -/
theorem exists_scan_one_iff {s : Store} {node key : String} {ascending : Bool}
    {columns : Option NameSet} {t : Millis} :
    (∃ x ∈ s.scan node key 1 ascending columns t, x.key = key) ↔
      (s.get node key columns t).isNull = false := by
  have hself : reaches ascending key key := by cases ascending <;> exact String.le_refl _
  rw [scan_eq_take, Router.exists_take_one_iff
    ((s.rows_ordered node key ascending columns t).imp Router.inOrder_of_before)
    fun x hx => (mem_rows_iff.mp hx).1]
  constructor
  · rintro ⟨x, hx, rfl⟩
    exact (mem_rows_iff_get.mp hx).2.1
  · intro h
    exact ⟨⟨key, s.get node key columns t⟩, mem_rows_iff_get.mpr ⟨hself, h, rfl⟩, rfl⟩

end Store

namespace Cluster

variable {c : Cluster} {now : Millis} {r : Request}

/-- A scan that is answered shows the rows from its key on, as one node sees them. -/
theorem scan_accepted {key : Option String} {count : UInt64} {ascending : Bool}
    {fields : Option NameSet} {preference : ReadPreference}
    (ha : r.action = .scan key count ascending fields preference)
    (h : (c.serve now r).1.body.isException = false) :
    ∃ node start, c.resolve r = .ok node ∧ key = some start ∧ checkFields fields = .ok () ∧
      (c.serve now r).1.body =
        .scan (c.store.scan node.name start count.toNat ascending fields now) := by
  obtain ⟨node, body, store, hr, happly, hsettle, _⟩ := serve_accepted h
  have hbody : (c.serve now r).1.body = body :=
    congrArg Response.body (LagModel.settle_eq_ok hsettle)
  simp only [apply, ha, bind_eq_ok, requireKey_eq_ok_iff] at happly
  obtain ⟨start, hkey, happly⟩ := happly
  split at happly
  · cases happly
  · simp only [bind_eq_ok] at happly
    obtain ⟨_, hfields, happly⟩ := happly
    cases happly
    exact ⟨node, start, hr, hkey, hfields, hbody⟩

theorem read_body {node : Node} {key : String} {fields : Option NameSet}
    {preference : ReadPreference} (ha : r.action = .read (some key) fields preference)
    (hr : c.resolve r = .ok node) (hf : checkFields fields = .ok ()) (now : Millis) :
    (c.serve now r).1.body = .read (c.store.get node.name key fields now) := by
  have hconcern : r.concern? = none := by rw [Request.concern?, ha]; rfl
  exact (serve_of_settled hr (apply_get ha hf c now node)
    (c.model.settle_of_no_concern now node c.nodes rfl hconcern)).1

end Cluster

namespace Shard

variable {s : Shard} {now : Millis} {r : Request}

theorem isLive_of_answered (h : (s.serve now r).1.body.isException = false) : s.isLive = true := by
  cases hlive : s.isLive with
  | true => rfl
  | false => rw [serve_of_stopped hlive] at h; cases h

theorem serve_body (h : s.isLive = true) (now : Millis) (r : Request) :
    (s.serve now r).1.body = (s.cluster.serve now r).1.body := by
  rw [Shard.serve, if_pos h]

theorem scan_answered {key : Option String} {count : UInt64} {ascending : Bool}
    {fields : Option NameSet} {preference : ReadPreference}
    (ha : r.action = .scan key count ascending fields preference) {records : List Record}
    (h : (s.serve now r).1.body = .scan records) :
    s.isLive = true ∧ ∃ node start, s.cluster.resolve r = .ok node ∧ key = some start ∧
      Cluster.checkFields fields = .ok () ∧
      records = s.cluster.store.scan node.name start count.toNat ascending fields now := by
  have hanswered : (s.serve now r).1.body.isException = false := by rw [h]; rfl
  have hlive := isLive_of_answered hanswered
  rw [serve_body hlive] at h hanswered
  obtain ⟨node, start, hr, hkey, hfields, hscan⟩ := Cluster.scan_accepted ha hanswered
  exact ⟨hlive, node, start, hr, hkey, hfields, Body.scan.inj (h.symm.trans hscan)⟩

/-- A shard gets no other key than that of a write. -/
theorem mem_keys_of_serve {key : String} (h : key ∈ (s.serve now r).2.cluster.store.keys) :
    key ∈ s.cluster.store.keys ∨ (r.key = some key ∧ r.action.isWrite = true) := by
  unfold Shard.serve at h
  split at h
  · rcases s.cluster.serve_store now r with hs | ⟨node, k, v, _, hw, hs⟩
    · have h : key ∈ (s.cluster.serve now r).2.store.keys := h
      exact .inl (hs ▸ h)
    · have h : key ∈ (s.cluster.serve now r).2.store.keys := h
      rw [hs, Store.mem_keys_prepend] at h
      rcases h with rfl | h
      · exact .inr ⟨hw.ofKey, hw.isWrite⟩
      · exact .inl h
  · exact .inl h

end Shard

namespace Router

/-- The shards hold each key of a table where requests for it go. -/
def Places (rt : Router) (table : String) : Prop :=
  ∀ i s, rt.shards[i]? = some s → ∀ key ∈ s.cluster.store.keys, rt.placeOf table (some key) = i

variable {rt : Router} {table : String} {now : Millis} {r : Request} {i : Nat} {s : Shard}

theorem placeOf_of_reached (hs : rt.shards[i]? = some s) (hd : r.destination = none)
    (hw : r.action.isWrite = true) (hr : rt.reaches i r = true) :
    rt.placeOf r.table r.key = i := by
  have hne : rt.shards ≠ [] := List.ne_nil_of_mem (List.mem_of_getElem? hs)
  have hb : r.isBroadcast = false := by
    cases ha : r.action <;> simp [ha, Action.isWrite, Action.concern?] at hw <;>
      simp [Request.isBroadcast, ha, Action.isScan]
  rw [reaches, hb, Bool.false_or, beq_iff_eq, route_undirected hne hd] at hr
  exact Option.some.inj hr

section Scan

variable {key : Option String} {count : UInt64} {ascending : Bool} {fields : Option NameSet}
  {preference : ReadPreference} {parts : List (List Record)}

/-- A scan of all shards that is answered merges what each of them answers. -/
theorem scan_parts (ha : r.action = .scan key count ascending fields preference)
    (hd : r.destination = none) (h : (rt.serve now r).1.body.isException = false) :
    rt.shards ≠ [] ∧ ∃ parts : List (List Record),
      (rt.answers now r).map (·.body) = parts.map .scan ∧
      (rt.serve now r).1.body = .scan (merge ascending count.toNat parts.flatten) := by
  by_cases hne : rt.shards = []
  · have hno : ∀ i s, rt.shards[i]? = some s → rt.route r ≠ some i := by simp [hne]
    rw [serve_eq_forward_of_nil hne, forward_of_unserved hno] at h
    cases h
  · rw [serve_eq_gather_of_scan ha hd hne] at h ⊢
    cases hc : collect ((rt.answers now r).map (·.body)) with
    | error f => rw [gather_of_error hc] at h; cases h
    | ok records =>
      obtain ⟨parts, hparts, rfl⟩ := collect_eq_ok hc
      exact ⟨hne, parts, hparts, by rw [gather_of_records hc]; rfl⟩

theorem getElem?_parts (hparts : (rt.answers now r).map (·.body) = parts.map .scan) (i : Nat) :
    (rt.shards[i]?.map fun s => (s.serve now r).1.body) = parts[i]?.map .scan := by
  rw [← List.getElem?_map, ← List.getElem?_map, ← hparts, answers, List.map_map]
  rfl

/-- A part is the first rows of its shard. -/
theorem exists_rows (ha : r.action = .scan key count ascending fields preference)
    (hparts : (rt.answers now r).map (·.body) = parts.map .scan) {part : List Record}
    (hi : parts[i]? = some part) :
    ∃ s node start, rt.shards[i]? = some s ∧ key = some start ∧
      part = (s.cluster.store.rows node start ascending fields now).take count.toNat := by
  have hbody := getElem?_parts hparts i
  rw [hi] at hbody
  obtain ⟨s, hs, hbody⟩ := Option.map_eq_some_iff.mp hbody
  obtain ⟨_, node, start, _, hkey, _, hscan⟩ := Shard.scan_answered ha hbody
  exact ⟨s, node.name, start, hs, hkey, hscan.trans (Store.scan_eq_take ..)⟩

/-- The records of one shard have keys that are placed on it, no two of them the same. -/
theorem Places.part (h : rt.Places table)
    (ha : r.action = .scan key count ascending fields preference)
    (hparts : (rt.answers now r).map (·.body) = parts.map .scan) {part : List Record}
    (hi : parts[i]? = some part) :
    (∀ x ∈ part, rt.placeOf table (some x.key) = i) ∧ part.Pairwise fun a b => a.key ≠ b.key := by
  obtain ⟨s, node, start, hs, _, rfl⟩ := exists_rows ha hparts hi
  refine ⟨fun x hx => h i s hs _ (Store.key_mem_of_mem_rows (List.mem_of_mem_take hx)), ?_⟩
  refine ((s.cluster.store.rows_ordered node start ascending fields now).take).imp ?_
  intro a b hab hkey
  rw [hkey] at hab
  exact Store.before_asymm hab hab

theorem reaches_of_mem_flatten {start : String}
    (ha : r.action = .scan (some start) count ascending fields preference)
    (hparts : (rt.answers now r).map (·.body) = parts.map .scan) {x : Record}
    (hx : x ∈ parts.flatten) : Store.reaches ascending start x.key := by
  obtain ⟨part, hpart, hx⟩ := List.mem_flatten.mp hx
  obtain ⟨i, hi⟩ := List.mem_iff_getElem?.mp hpart
  obtain ⟨s, node, _, _, hkey, rfl⟩ := exists_rows ha hparts hi
  cases hkey
  exact (Store.mem_rows_iff.mp (List.mem_of_mem_take hx)).1

theorem Places.flatten_distinct (h : rt.Places table)
    (ha : r.action = .scan key count ascending fields preference)
    (hparts : (rt.answers now r).map (·.body) = parts.map .scan) :
    parts.flatten.Pairwise fun a b => a.key ≠ b.key := by
  refine List.pairwise_flatten.mpr ⟨fun part hpart => ?_, List.pairwise_iff_getElem.mpr ?_⟩
  · obtain ⟨i, hi⟩ := List.mem_iff_getElem?.mp hpart
    exact (h.part ha hparts hi).2
  · intro i j hi hj hij x hx y hy hkey
    -- equal keys would be placed on two shards
    have hplace := (h.part ha hparts (List.getElem?_eq_getElem hi)).1 x hx
    rw [hkey, (h.part ha hparts (List.getElem?_eq_getElem hj)).1 y hy] at hplace
    exact Nat.ne_of_gt hij hplace

/-- Every answered scan is in strict order. -/
theorem Places.scan_ordered (h : rt.Places table)
    (ha : r.action = .scan key count ascending fields preference) (hd : r.destination = none)
    (hanswered : (rt.serve now r).1.body.isException = false) :
    ∃ records, (rt.serve now r).1.body = .scan records ∧
      records.Pairwise fun a b => Store.before ascending a.key b.key := by
  obtain ⟨_, parts, hparts, hbody⟩ := scan_parts ha hd hanswered
  exact ⟨_, hbody, merge_ordered (h.flatten_distinct ha hparts) ascending count.toNat⟩

end Scan

end Router

namespace Shard

/-- A shard but for the number of its last response. -/
def unnumbered (s : Shard) : Shard := { s with cluster := s.cluster.holding s.cluster.store 0 }

theorem serve_unnumbered {r : Request} (h : r.concern? = none) (s : Shard) (now : Millis) :
    (s.serve now r).2.unnumbered = s.unnumbered := by
  unfold Shard.serve
  split
  · simp only [unnumbered, Cluster.serve_of_no_concern h]
    rfl
  · rfl

end Shard

namespace Router

/-- A router but for the numbers of all last responses. -/
def unnumbered (rt : Router) : Router :=
  { rt with shards := rt.shards.map (·.unnumbered), lastId := 0 }

variable {rt rt' : Router} {table : String} {now : Millis} {r : Request}

theorem serve_unnumbered (h : r.concern? = none) (rt : Router) (now : Millis) :
    (rt.serve now r).2.unnumbered = rt.unnumbered := by
  have hshards : (rt.serve now r).2.shards.map (·.unnumbered) = rt.shards.map (·.unnumbered) := by
    refine List.ext_getElem? fun i => ?_
    rw [serve_snd, List.getElem?_map, List.getElem?_mapIdx, List.getElem?_map, Option.map_map]
    congr 1
    funext s
    simp only [Function.comp]
    split
    · exact s.serve_unnumbered h now
    · rfl
  simp only [unnumbered, hshards]
  rw [serve_snd]

theorem layout_unnumbered (rt : Router) : rt.unnumbered.layout = rt.layout := by
  simp only [layout, unnumbered, List.map_map]
  rfl

theorem places_unnumbered : rt.unnumbered.Places table ↔ rt.Places table := by
  simp only [Places, placeOf_of_layout rt.layout_unnumbered]
  simp only [unnumbered, List.getElem?_map, Option.map_eq_some_iff, forall_exists_index, and_imp,
    forall_apply_eq_imp_iff₂]
  rfl

/-- The shard of a key has answered an answered scan, and all records of the key are its own. -/
theorem Places.scan_of_key (h : rt.Places table) {start : Option String} {count : UInt64}
    {ascending : Bool} {fields : Option NameSet} {preference : ReadPreference}
    {parts : List (List Record)} (ha : r.action = .scan start count ascending fields preference)
    (hne : rt.shards ≠ []) (hparts : (rt.answers now r).map (·.body) = parts.map .scan)
    (key : String) :
    ∃ s part, rt.shards[rt.placeOf table (some key)]? = some s ∧
      (s.serve now r).1.body = .scan part ∧
      ∀ x : Record, x.key = key → (x ∈ parts.flatten ↔ x ∈ part) := by
  have hs := List.getElem?_eq_getElem (placeOf_lt hne table (some key))
  have hbody := getElem?_parts hparts (rt.placeOf table (some key))
  rw [hs, Option.map_some] at hbody
  obtain ⟨part, hpart, hscan⟩ := Option.map_eq_some_iff.mp hbody.symm
  refine ⟨_, part, hs, hscan.symm, fun x hx => ⟨fun hmem => ?_, fun hmem => ?_⟩⟩
  · obtain ⟨other, hother, hmem⟩ := List.mem_flatten.mp hmem
    obtain ⟨i, hi⟩ := List.mem_iff_getElem?.mp hother
    have hplace := (h.part ha hparts hi).1 x hmem
    rw [hx] at hplace
    rw [hplace] at hpart
    rwa [Option.some.inj (hpart.symm.trans hi)]
  · exact List.mem_flatten.mpr ⟨part, List.mem_of_getElem? hpart, hmem⟩

theorem exists_of_unnumbered (hsame : rt'.unnumbered = rt.unnumbered) {i : Nat} {s : Shard}
    (hs : rt.shards[i]? = some s) :
    ∃ s', rt'.shards[i]? = some s' ∧ s'.unnumbered = s.unnumbered := by
  have hi := congrArg (·.shards[i]?) hsame
  simp only [unnumbered, List.getElem?_map, hs, Option.map_some] at hi
  exact Option.map_eq_some_iff.mp hi

theorem read_body {key : String} {fields : Option NameSet} {preference : ReadPreference} {s : Shard}
    {node : Node} (ha : r.action = .read (some key) fields preference) (hd : r.destination = none)
    (hs : rt.shards[rt.placeOf r.table (some key)]? = some s) (hlive : s.isLive = true)
    (hr : s.cluster.resolve r = .ok node) (hf : Cluster.checkFields fields = .ok ())
    (now : Millis) :
    (rt.serve now r).1.body = .read (s.cluster.store.get node.name key fields now) := by
  have hkey : r.key = some key := by rw [Request.key, ha]; rfl
  have hroute := route_undirected (List.ne_nil_of_mem (List.mem_of_getElem? hs)) hd
  rw [hkey] at hroute
  rw [serve_eq_forward (by rw [ha]; rfl), forward_of_route hroute hs]
  exact (Shard.serve_body hlive now r).trans (Cluster.read_body ha hr hf now)

/-- A scan for the first record from a key on, and a read of the key, of routers that hold the
same. -/
theorem Places.scan_one_read (h : rt.Places table) (hsame : rt'.unnumbered = rt.unnumbered)
    {q : Request} {key : String} (hask : r.AsksAlike q key) (ht : q.table = table)
    (hanswered : (rt.serve now r).1.body.isException = false) :
    ∃ records v, (rt.serve now r).1.body = .scan records ∧
      (rt'.serve now q).1.body = .read v ∧ records.length ≤ 1 ∧
      ((∃ x ∈ records, x.key = key) ↔ v.isNull = false) ∧
      ∀ x ∈ records, x.key = key → x.version = v := by
  obtain ⟨ascending, fields, preference, ha, hq⟩ := hask.actions
  obtain ⟨hne, parts, hparts, hbody⟩ := scan_parts ha hask.scan_undirected hanswered
  obtain ⟨s, part, hs, hscan, hmem⟩ := h.scan_of_key ha hne hparts key
  obtain ⟨hlive, node, _, hr, hkey, hfields, rfl⟩ := Shard.scan_answered ha hscan
  cases hkey
  -- the read comes to the same shard, which resolves it to the same node
  obtain ⟨s', hs', hsame'⟩ := exists_of_unnumbered hsame hs
  have hresolve : s'.cluster.resolve q = .ok node :=
    (congrArg (·.cluster.resolve q) hsame').trans ((hask.resolve s.cluster).trans hr)
  have hplace : rt'.placeOf q.table (some key) = rt.placeOf table (some key) := by
    rw [ht, ← placeOf_of_layout rt'.layout_unnumbered, hsame,
      placeOf_of_layout rt.layout_unnumbered]
  have hlive' : s'.isLive = true := (congrArg Shard.isLive hsame').trans hlive
  have hstore : s'.cluster.store = s.cluster.store := congrArg (·.cluster.store) hsame'
  have hread := read_body hq hask.read_undirected (hplace ▸ hs') hlive' hresolve hfields now
  rw [hstore] at hread
  refine ⟨_, _, hbody, hread, ?_, ?_, fun x hx hk => ?_⟩
  · rw [merge_eq]
    exact List.length_take_le _ _
  · have hpart : (∃ x ∈ parts.flatten, x.key = key) ↔
        ∃ x ∈ s.cluster.store.scan node.name key 1 ascending fields now, x.key = key :=
      exists_congr fun x => and_congr_left (hmem x)
    exact (exists_merge_one_iff fun x => reaches_of_mem_flatten ha hparts).trans
      (hpart.trans Store.exists_scan_one_iff)
  · rw [merge_eq] at hx
    have hflatten := List.mem_mergeSort.mp (List.mem_of_mem_take hx)
    have hscanned := (hmem x hk).mp hflatten
    rw [Store.scan_eq_take] at hscanned
    rw [← hk]
    exact (Store.mem_rows_iff_get.mp (List.mem_of_mem_take hscanned)).2.2

end Router

/-- A shard gets keys by requests alone. -/
theorem LiveShard.mem_keys_of_step {k : LiveShard} {e : ShardEvent} {key : String}
    (h : key ∈ (k.step e).2.shard.cluster.store.keys) :
    key ∈ k.shard.cluster.store.keys ∨
      ∃ r, e = .request r ∧ r.key = some key ∧ r.action.isWrite = true := by
  cases e with
  | request r => exact (Shard.mem_keys_of_serve h).imp_right fun hnew => ⟨r, rfl, hnew⟩
  | clear => cases h
  | stop | advance => exact .inl h

/-- Requests for a table that name no node; no shard is asked directly. -/
def RouterEvent.concerns (table : String) : RouterEvent → Prop
  | .request r => r.table = table ∧ r.destination = none
  | .direct .. => False
  | .clear _ | .stop _ | .advance _ => True

theorem RouterEvent.concerns.request_of_eventAt {table : String} {e : RouterEvent}
    (he : e.concerns table) {rt : Router} {i : Nat} {r : Request}
    (h : rt.eventAt i e = some (.request r)) :
    r.table = table ∧ r.destination = none ∧ rt.reaches i r = true := by
  cases e with
  | request q =>
    rw [Router.eventAt] at h
    split at h
    next hr => cases h; exact ⟨he.1, he.2, hr⟩
    next => cases h
  | direct => exact he.elim
  | clear | stop | advance => simp [Router.eventAt] at h

namespace LiveRouter

variable {l : LiveRouter} {table : String}

theorem step_places (h : l.router.Places table) {e : RouterEvent} (he : e.concerns table) :
    (l.step e).2.router.Places table := by
  intro i s hs key hkey
  rw [Router.placeOf_of_layout (l.step_layout e)]
  rw [← map_shard?, shard?_step, Option.map_map] at hs
  obtain ⟨k, hk, rfl⟩ := Option.map_eq_some_iff.mp hs
  have hbefore : l.router.shards[i]? = some k.shard := by rw [← map_shard?, hk]; rfl
  cases hevent : l.router.eventAt i e with
  | none =>
    rw [Function.comp, hevent] at hkey
    exact h i _ hbefore key hkey
  | some d =>
    rw [Function.comp, hevent] at hkey
    rcases LiveShard.mem_keys_of_step hkey with hold | ⟨r, rfl, hnew, hwrite⟩
    · exact h i _ hbefore key hold
    · obtain ⟨htable, hd, hr⟩ := he.request_of_eventAt hevent
      rw [← hnew, ← htable]
      exact Router.placeOf_of_reached hbefore hd hwrite hr

theorem run_places {events : List RouterEvent} (h : l.router.Places table)
    (he : ∀ e ∈ events, e.concerns table) : (l.run events).2.router.Places table := by
  induction events generalizing l with
  | nil => exact h
  | cons e rest ih =>
    exact ih (step_places h (he e List.mem_cons_self)) fun d hd => he d (List.mem_cons_of_mem e hd)

/-- Reads and scans leave all but response numbers as it is. -/
theorem run_of_no_concern {asked : List Request} (h : ∀ q ∈ asked, q.concern? = none) :
    (l.run (asked.map .request)).2.clock = l.clock ∧
      (l.run (asked.map .request)).2.router.unnumbered = l.router.unnumbered := by
  induction asked generalizing l with
  | nil => exact ⟨rfl, rfl⟩
  | cons q rest ih =>
    obtain ⟨hclock, hrouter⟩ := ih (l := (l.request q).2)
      fun p hp => h p (List.mem_cons_of_mem q hp)
    exact ⟨hclock, hrouter.trans
      (l.router.serve_unnumbered (h q List.mem_cons_self) l.clock.now)⟩

/-- Reads and scans that come before the scan or before the read make no difference. -/
theorem scan_one_read_between (h : l.router.Places table) {r q : Request} {key : String}
    (hask : r.AsksAlike q key) (ht : q.table = table) {first second : List Request}
    (hfirst : ∀ p ∈ first, p.concern? = none) (hsecond : ∀ p ∈ second, p.concern? = none)
    (hanswered : ((l.run (first.map .request)).2.request r).1.body.isException = false) :
    ∃ records v, ((l.run (first.map .request)).2.request r).1.body = .scan records ∧
      ((l.run (second.map .request)).2.request q).1.body = .read v ∧ records.length ≤ 1 ∧
      ((∃ x ∈ records, x.key = key) ↔ v.isNull = false) ∧
      ∀ x ∈ records, x.key = key → x.version = v := by
  obtain ⟨hclock₁, hrouter₁⟩ := run_of_no_concern (l := l) hfirst
  obtain ⟨hclock₂, hrouter₂⟩ := run_of_no_concern (l := l) hsecond
  have hplaces := Router.places_unnumbered.mp (hrouter₁ ▸ Router.places_unnumbered.mpr h)
  have hread : ((l.run (second.map .request)).2.request q).1 =
      ((l.run (second.map .request)).2.router.serve
        (l.run (first.map .request)).2.clock.now q).1 := by
    rw [hclock₁, ← hclock₂]
    rfl
  rw [hread]
  exact hplaces.scan_one_read (hrouter₂.trans hrouter₁.symm) hask ht hanswered

/-- After any run of requests for one table, by shards that were empty and need not be alike: each
key lies on the shard that requests for it go to, the one that the placement of the table names, or
the first if the table has none; so it lies on no other; whatever a scan of all shards
shows has its keys in strict order; and a scan for the first record from a key on shows that key
exactly if a read of it gives a version, the same one, as long as only reads and scans come between
the two. -/
theorem run_keys_placed (l : LiveRouter) {table : String} {events : List RouterEvent}
    (hempty : ∀ s ∈ l.router.shards, s.cluster.store = Store.empty)
    (he : ∀ e ∈ events, e.concerns table) :
    let m := (l.run events).2
    (∀ (i : Nat) (s : Shard), m.router.shards[i]? = some s → ∀ key ∈ s.cluster.store.keys,
      m.router.route (.read table key) = some i ∧
      (match l.router.placements.get? table with
        | some p => p.shardOf (some key) l.router.shards.length l.router.hash
        | none => 0) = i) ∧
    (∀ (i j : Nat) (s t : Shard), m.router.shards[i]? = some s → m.router.shards[j]? = some t →
      ∀ key ∈ s.cluster.store.keys, key ∈ t.cluster.store.keys → i = j) ∧
    (∀ r key count ascending fields preference,
      r.action = .scan key count ascending fields preference → r.destination = none →
      (m.request r).1.body.isException = false →
      ∃ records, (m.request r).1.body = .scan records ∧
        records.Pairwise fun a b => Store.before ascending a.key b.key) ∧
    ∀ (r q : Request) key, r.AsksAlike q key → q.table = table →
      ∀ first second : List Request, (∀ p ∈ first ++ second, p.concern? = none) →
      let scan := ((m.run (first.map .request)).2.request r).1
      let read := ((m.run (second.map .request)).2.request q).1
      scan.body.isException = false →
      ∃ records v, scan.body = .scan records ∧ read.body = .read v ∧ records.length ≤ 1 ∧
        ((∃ x ∈ records, x.key = key) ↔ v.isNull = false) ∧
        ∀ x ∈ records, x.key = key → x.version = v := by
  intro m
  have hstart : l.router.Places table := by
    intro i s hs key hkey
    rw [hempty s (List.mem_of_getElem? hs)] at hkey
    cases hkey
  have hplaces : m.router.Places table := run_places hstart he
  have hroute : ∀ i s, m.router.shards[i]? = some s → ∀ key ∈ s.cluster.store.keys,
      m.router.route (.read table key) = some i := by
    intro i s hs key hkey
    rw [Router.route_undirected (List.ne_nil_of_mem (List.mem_of_getElem? hs)) rfl]
    exact congrArg some (hplaces i s hs key hkey)
  refine ⟨fun i s hs key hkey => ⟨hroute i s hs key hkey, ?_⟩, ?_, ?_, ?_⟩
  · rw [← hplaces i s hs key hkey, Router.placeOf_of_layout (l.run_layout events), Router.placeOf]
    cases l.router.placements.get? table <;> rfl
  · intro i j s t hs ht key hkey hkey'
    exact Option.some.inj ((hroute i s hs key hkey).symm.trans (hroute j t ht key hkey'))
  · intro r key count ascending fields preference ha hd hanswered
    exact hplaces.scan_ordered ha hd hanswered
  · intro r q key hask ht first second hquiet scan read hanswered
    exact scan_one_read_between hplaces hask ht (fun p hp => hquiet p (List.mem_append_left _ hp))
      (fun p hp => hquiet p (List.mem_append_right _ hp)) hanswered

/-- Two shards of different nodes and lag, a key on each. The read comes right after the scan. -/
theorem scan_of_unlike_shards_finds_key :
    let near : Cluster :=
      { nodes := [{ name := "n1", isPrimary := true }], model := .constant ⟨3, 0⟩ }
    let far : Cluster := {
      nodes := [{ name := "m1", isPrimary := true }, { name := "m2" }]
      model := .replicated (.ofProfile { defaultDelay := 10 } 0) }
    let l : LiveRouter := ⟨⟨0⟩, {
      shards := [{ id := 0, cluster := near }, { id := 1, cluster := far }]
      placements := .ofList [("t", .ranges ["m"])] }⟩
    let events : List RouterEvent :=
      [.request (.insert "t" "a" (.ofList [("v", .nat 1)])),
        .request (.insert "t" "z" (.ofList [("v", .nat 2)])), .advance 5]
    let m := (l.run events).2
    let scan := Request.scan "t" "z" 1
    let read := ((m.request scan).2.request (.read "t" "z")).1
    ∃ records v, (m.request scan).1.body = .scan records ∧ read.body = .read v ∧
      records.length ≤ 1 ∧ ((∃ x ∈ records, x.key = "z") ↔ v.isNull = false) ∧
      ∀ x ∈ records, x.key = "z" → x.version = v := by
  intro near far l events m scan read
  have hempty : ∀ s ∈ l.router.shards, s.cluster.store = Store.empty := by
    simp [l, near, far]
  have he : ∀ e ∈ events, e.concerns "t" := by
    simp [events, RouterEvent.concerns, Request.insert]
  obtain ⟨_, _, _, hfound⟩ := run_keys_placed l hempty he
  have hask : scan.AsksAlike (.read "t" "z") "z" :=
    ⟨⟨true, none, .primary, rfl, rfl⟩, rfl, rfl, rfl⟩
  have hquiet : ∀ p ∈ [scan], p.concern? = none := by
    intro p hp
    rw [List.mem_singleton.mp hp]
    rfl
  have hanswered : (m.request scan).1.body.isException = false := by decide
  have hread := hfound scan (.read "t" "z") "z" hask rfl [] [scan] hquiet
  simpa only [m, read, List.map_nil, List.map_cons, run, step] using hread hanswered

end LiveRouter

end ReplicaLag
