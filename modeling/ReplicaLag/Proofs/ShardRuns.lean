import ReplicaLag.Proofs.Sharding
import ReplicaLag.Shard.Run

/-!
Shards on their own. Which shards a request reaches depends on the nodes, placements and hash alone,
which no event changes, so a run of the router holds for each shard a run of that shard. What a shard
answers is the response to the event, but for its number, unless it is merged with others
(`run_direct_answer`, `run_routed_answer`). Main statement: a shard ends up, and answers on the way,
as it does when it is run alone on the events that reach it; no other event matters to it, and once
it is stopped it spoils every answer that it has part in.
-/

namespace ReplicaLag

/-- A scan that names no node goes to all shards. -/
def Request.isBroadcast (r : Request) : Bool := r.destination.isNone && r.action.isScan

namespace Router

def reaches (rt : Router) (i : Nat) (r : Request) : Bool := r.isBroadcast || rt.route r == some i

/-- What an event of the whole is to one shard, if it is anything. -/
def eventAt (rt : Router) (i : Nat) : RouterEvent → Option ShardEvent
  | .request r => if rt.reaches i r then some (.request r) else none
  | .direct j r => if j = i then some (.request r) else none
  | .clear j => if j = i then some .clear else none
  | .stop j => if j = i then some .stop else none
  | .advance ms => some (.advance ms)

/-- All that routes depend on. -/
structure Layout where
  placements : SortedMap Placement
  hash : String → UInt64
  nodes : List (List Node)

def layout (rt : Router) : Layout where
  placements := rt.placements
  hash := rt.hash
  nodes := rt.shards.map (·.cluster.nodes)

variable {rt rt' : Router} {now : Millis} {r : Request} {i : Nat} {s : Shard}

theorem length_of_layout (h : rt'.layout = rt.layout) : rt'.shards.length = rt.shards.length := by
  have hnodes : rt'.shards.map (·.cluster.nodes) = rt.shards.map (·.cluster.nodes) :=
    congrArg Layout.nodes h
  simpa only [List.length_map] using congrArg List.length hnodes

theorem placeOf_of_layout (h : rt'.layout = rt.layout) (table : String) (key : Option String) :
    rt'.placeOf table key = rt.placeOf table key := by
  have hplacements : rt'.placements = rt.placements := congrArg Layout.placements h
  have hhash : rt'.hash = rt.hash := congrArg Layout.hash h
  rw [placeOf, placeOf, hplacements, hhash, length_of_layout h]

theorem route_eq (rt : Router) (r : Request) :
    rt.route r = if (rt.shards.map (·.cluster.nodes)).isEmpty then none
      else match r.destination with
        | some node => (rt.shards.map (·.cluster.nodes)).findIdx? (·.any (·.name = node))
        | none => some (rt.placeOf r.table r.key) := by
  simp only [route, placeOf, List.isEmpty_map, List.findIdx?_map]
  rfl

theorem route_of_layout (h : rt'.layout = rt.layout) (r : Request) : rt'.route r = rt.route r := by
  have hnodes : rt'.shards.map (·.cluster.nodes) = rt.shards.map (·.cluster.nodes) :=
    congrArg Layout.nodes h
  rw [route_eq, route_eq, placeOf_of_layout h, hnodes]

theorem reaches_of_layout (h : rt'.layout = rt.layout) (i : Nat) (r : Request) :
    rt'.reaches i r = rt.reaches i r := by rw [reaches, reaches, route_of_layout h]

theorem eventAt_of_layout (h : rt'.layout = rt.layout) (i : Nat) :
    rt'.eventAt i = rt.eventAt i := by
  funext e
  cases e with
  | request r => rw [eventAt, eventAt, reaches_of_layout h]
  | direct | clear | stop | advance => rfl

theorem eq_stop_of_eventAt {i : Nat} {e : RouterEvent} (h : rt.eventAt i e = some .stop) :
    e = .stop i := by
  cases e with
  | advance ms => cases h
  | request r => simp [eventAt] at h
  | direct j r | clear j => simp [eventAt] at h
  | stop j => rw [(by simpa [eventAt] using h : j = i)]

theorem serve_eq_gather (h : r.isBroadcast = true) (hne : rt.shards ≠ []) (now : Millis) :
    ∃ key count ascending fields preference,
      r.action = .scan key count ascending fields preference ∧
      rt.serve now r = rt.gather now r count ascending := by
  obtain ⟨hd, hs⟩ := Bool.and_eq_true_iff.mp h
  cases ha : r.action <;> simp only [ha, Action.isScan, Bool.false_eq_true] at hs
  case scan key count ascending fields preference =>
    exact ⟨key, count, ascending, fields, preference, rfl,
      serve_eq_gather_of_scan ha (Option.isNone_iff_eq_none.mp hd) hne now⟩

theorem serve_eq_forward_of_not_broadcast (h : r.isBroadcast = false) (now : Millis) :
    rt.serve now r = rt.forward now r := by
  unfold Router.serve
  split
  next hd ha => simp [Request.isBroadcast, hd, ha, Action.isScan] at h
  next => rfl

theorem forward_of_route (h : rt.route r = some i) (hi : rt.shards[i]? = some s) (now : Millis) :
    rt.forward now r = ({ (s.serve now r).1 with responseId := rt.lastId + 1 },
      { rt with shards := rt.shards.set i (s.serve now r).2, lastId := rt.lastId + 1 }) := by
  simp only [Router.forward, h, hi, takeId]

theorem forward_of_unserved (h : ∀ i s, rt.shards[i]? = some s → rt.route r ≠ some i)
    (now : Millis) : rt.forward now r = rt.refuse r Refusal.noMatchingNode.fault := by
  cases hr : rt.route r with
  | none => simp only [Router.forward, hr]
  | some i =>
    cases hi : rt.shards[i]? with
    | none => simp only [Router.forward, hr, hi]
    | some s => exact absurd hr (h i s hi)

theorem forward_snd (rt : Router) (now : Millis) (r : Request) :
    (rt.forward now r).2 =
      { rt with
        shards := rt.shards.mapIdx fun i s => if rt.route r = some i then (s.serve now r).2 else s
        lastId := rt.lastId + 1 } := by
  by_cases h : ∃ j s, rt.shards[j]? = some s ∧ rt.route r = some j
  · obtain ⟨j, s, hj, hr⟩ := h
    have hset : rt.shards.set j (s.serve now r).2 =
        rt.shards.mapIdx fun i s => if rt.route r = some i then (s.serve now r).2 else s := by
      refine List.ext_getElem? fun i => ?_
      rw [List.getElem?_set, List.getElem?_mapIdx, hr]
      by_cases hij : j = i
      · subst hij
        have hlt := (List.getElem?_eq_some_iff.mp hj).1
        simp only [hlt, hj, if_true, Option.map_some]
      · simp [hij]
    rw [forward_of_route hr hj, hset]
  · have hno : ∀ i s, rt.shards[i]? = some s → rt.route r ≠ some i :=
      fun i s hi hr => h ⟨i, s, hi, hr⟩
    have hsame : rt.shards =
        rt.shards.mapIdx fun i s => if rt.route r = some i then (s.serve now r).2 else s := by
      refine List.ext_getElem? fun i => ?_
      rw [List.getElem?_mapIdx]
      cases hi : rt.shards[i]? with
      | none => rfl
      | some s => rw [Option.map_some, if_neg (hno i s hi)]
    rw [forward_of_unserved hno, ← hsame]
    rfl

/-- What a request does to a router: the shards that it reaches serve it, and one number is
taken. -/
theorem serve_snd (rt : Router) (now : Millis) (r : Request) :
    (rt.serve now r).2 =
      { rt with
        shards := rt.shards.mapIdx fun i s => if rt.reaches i r then (s.serve now r).2 else s
        lastId := rt.lastId + 1 } := by
  cases hb : r.isBroadcast with
  | false =>
    rw [serve_eq_forward_of_not_broadcast hb, forward_snd]
    simp only [reaches, hb, Bool.false_or, beq_iff_eq]
  | true =>
    by_cases hne : rt.shards = []
    · rw [serve_eq_forward_of_nil hne, forward_snd]
      simp [hne]
    · obtain ⟨_, count, ascending, _, _, _, hg⟩ := serve_eq_gather hb hne now
      rw [hg, gather_snd]
      have hall : (rt.shards.mapIdx fun i s => if rt.reaches i r then (s.serve now r).2 else s) =
          rt.shards.map fun s => (s.serve now r).2 := by
        refine List.ext_getElem? fun i => ?_
        simp [reaches, hb]
      rw [hall]

theorem getElem?_modify (rt : Router) (j : Nat) (f : Shard → Shard) (i : Nat) :
    (rt.modify j f).shards[i]? = rt.shards[i]?.map fun s => if j = i then f s else s := by
  rw [modify, List.getElem?_modify]
  rfl

theorem direct_eq (rt : Router) (j : Nat) (now : Millis) (r : Request) :
    rt.direct j now r = (rt.shards[j]?.map fun s => (s.serve now r).1,
      rt.modify j fun s => (s.serve now r).2) := by
  have hshards : ∀ s, rt.shards[j]? = some s →
      rt.shards.set j (s.serve now r).2 = rt.shards.modify j fun s => (s.serve now r).2 := by
    intro s hs
    rw [List.modify_eq_set_getElem?, hs]
    rfl
  cases hj : rt.shards[j]? with
  | some s => simp only [Router.direct, hj, modify, hshards s hj, Option.map_some]
  | none =>
    have hsame : rt.shards.modify j (fun s => (s.serve now r).2) = rt.shards := by
      rw [List.modify_eq_set_getElem?, hj]
      rfl
    simp only [Router.direct, hj, modify, hsame, Option.map_none]

end Router

namespace Shard

@[simp] theorem serve_nodes (s : Shard) (now : Millis) (r : Request) :
    (s.serve now r).2.cluster.nodes = s.cluster.nodes := by
  unfold Shard.serve
  split
  · exact s.cluster.serve_nodes now r
  · rfl

@[simp] theorem serve_model (s : Shard) (now : Millis) (r : Request) :
    (s.serve now r).2.cluster.model = s.cluster.model := by
  unfold Shard.serve
  split
  · exact s.cluster.serve_model now r
  · rfl

@[simp] theorem serve_isLive (s : Shard) (now : Millis) (r : Request) :
    (s.serve now r).2.isLive = s.isLive := by
  unfold Shard.serve
  split <;> rfl

theorem serve_of_stopped {s : Shard} (h : s.isLive = false) (now : Millis) (r : Request) :
    (s.serve now r).1.body = .exception (Refusal.shardGone s.id).fault := by
  simp only [Shard.serve, h]
  rfl

end Shard

namespace LiveShard

variable {k : LiveShard}

theorem run_append (k : LiveShard) (u v : List ShardEvent) :
    k.run (u ++ v) = ((k.run u).1 ++ ((k.run u).2.run v).1, ((k.run u).2.run v).2) := by
  induction u generalizing k with
  | nil => rfl
  | cons e u ih => simp only [List.cons_append, run, ih, List.append_assoc]

/-- What each event keeps, a run keeps. -/
theorem run_keeps {P : LiveShard → Prop} (step : ∀ k e, P k → P (k.step e).2)
    (events : List ShardEvent) (h : P k) : P (k.run events).2 := by
  induction events generalizing k with
  | nil => exact h
  | cons e r ih => exact ih (step k e h)

theorem run_nodes (k : LiveShard) (events : List ShardEvent) :
    (k.run events).2.shard.cluster.nodes = k.shard.cluster.nodes :=
  run_keeps (P := fun j => j.shard.cluster.nodes = k.shard.cluster.nodes) (fun j e h => by
    cases e with
    | request r => exact (j.shard.serve_nodes j.clock.now r).trans h
    | clear | stop | advance => exact h) events rfl

/-- A shard that is stopped stays so. -/
theorem run_stopped {events : List ShardEvent} (h : .stop ∈ events) :
    (k.run events).2.shard.isLive = false := by
  obtain ⟨u, v, rfl⟩ := List.append_of_mem h
  have hstays : ∀ (j : LiveShard) e,
      j.shard.isLive = false → (j.step e).2.shard.isLive = false := by
    intro j e hj
    cases e with
    | request r => exact (j.shard.serve_isLive j.clock.now r).trans hj
    | clear | advance => exact hj
    | stop => rfl
  rw [run_append]
  exact run_keeps (P := fun j => j.shard.isLive = false) hstays v rfl

end LiveShard

namespace LiveRouter

variable {l : LiveRouter} {i : Nat} {k : LiveShard}

/-- A shard with the clock that all shards share. -/
def shard? (l : LiveRouter) (i : Nat) : Option LiveShard :=
  l.router.shards[i]?.map (LiveShard.mk l.clock)

theorem shard?_eq {s : Shard} (hs : l.router.shards[i]? = some s) :
    l.shard? i = some ⟨l.clock, s⟩ := by
  rw [shard?, hs]
  rfl

theorem map_shard? (l : LiveRouter) (i : Nat) :
    (l.shard? i).map (·.shard) = l.router.shards[i]? := by
  rw [shard?]
  cases l.router.shards[i]? <;> rfl

/-- What a shard itself answers to an event, before the router numbers or merges it. -/
def answerOf (l : LiveRouter) (i : Nat) (e : RouterEvent) : Option Response :=
  match l.router.shards[i]?, l.router.eventAt i e with
  | some s, some (.request r) => some (s.serve l.clock.now r).1
  | _, _ => none

/-- All that a shard itself answers in a run. -/
def answersOf (l : LiveRouter) (i : Nat) : List RouterEvent → List Response
  | [] => []
  | e :: r => (l.answerOf i e).toList ++ (l.step e).2.answersOf i r

/-- A shard takes a step of its own if an event reaches it, and none if not. -/
theorem shard?_step (l : LiveRouter) (e : RouterEvent) (i : Nat) :
    (l.step e).2.shard? i =
      (l.shard? i).map fun k => (k.run (l.router.eventAt i e).toList).2 := by
  cases e with
  | request r =>
    simp only [step, request, shard?, Router.serve_snd, List.getElem?_mapIdx, Router.eventAt,
      Option.map_map]
    cases l.router.shards[i]? with
    | none => rfl
    | some s => cases l.router.reaches i r <;> rfl
  | direct j r =>
    simp only [step, direct, shard?, Router.direct_eq, Router.getElem?_modify, Router.eventAt,
      Option.map_map]
    by_cases hij : j = i <;> simp only [hij, if_true, if_false] <;> rfl
  | clear j =>
    simp only [step, clear, shard?, Router.getElem?_modify, Router.eventAt, Option.map_map]
    by_cases hij : j = i <;> simp only [hij, if_true, if_false] <;> rfl
  | stop j =>
    simp only [step, stop, shard?, Router.getElem?_modify, Router.eventAt, Option.map_map]
    by_cases hij : j = i <;> simp only [hij, if_true, if_false] <;> rfl
  | advance ms =>
    simp only [step, advance, shard?, Option.map_map]
    rfl

theorem answerOf_eq (hk : l.shard? i = some k) (e : RouterEvent) :
    (l.answerOf i e).toList = (k.run (l.router.eventAt i e).toList).1 := by
  obtain ⟨s, hs, rfl⟩ := Option.map_eq_some_iff.mp hk
  rw [answerOf, hs]
  rcases l.router.eventAt i e with _ | (_ | _ | _ | _) <;> rfl

theorem step_layout (l : LiveRouter) (e : RouterEvent) :
    (l.step e).2.router.layout = l.router.layout := by
  have hkeeps : (l.step e).2.router.placements = l.router.placements ∧
      (l.step e).2.router.hash = l.router.hash := by
    cases e with
    | request r => simp only [step, request, Router.serve_snd, and_self]
    | direct j r => simp only [step, direct, Router.direct_eq, Router.modify, and_self]
    | clear | stop | advance => exact ⟨rfl, rfl⟩
  have hnode : ∀ (m : LiveRouter) i, (m.router.shards.map (·.cluster.nodes))[i]? =
      (m.shard? i).map (·.shard.cluster.nodes) := by
    intro m i
    rw [List.getElem?_map, shard?, Option.map_map]
    rfl
  have hnodes : (l.step e).2.router.shards.map (·.cluster.nodes) =
      l.router.shards.map (·.cluster.nodes) := by
    refine List.ext_getElem? fun i => ?_
    rw [hnode, hnode, shard?_step, Option.map_map]
    exact congrFun (congrArg Option.map (funext fun k => k.run_nodes _)) _
  rw [Router.layout, Router.layout, hkeeps.1, hkeeps.2, hnodes]

theorem run_layout (l : LiveRouter) (events : List RouterEvent) :
    (l.run events).2.router.layout = l.router.layout := by
  induction events generalizing l with
  | nil => rfl
  | cons e rest ih => exact (ih (l.step e).2).trans (l.step_layout e)

/-- In a run of the whole each shard goes through a run of its own, of the events that reach it. -/
theorem run_shard? (hk : l.shard? i = some k) (events : List RouterEvent) :
    (l.run events).2.shard? i = some (k.run (events.filterMap (l.router.eventAt i))).2 ∧
      l.answersOf i events = (k.run (events.filterMap (l.router.eventAt i))).1 := by
  induction events generalizing l k with
  | nil => exact ⟨hk, rfl⟩
  | cons e rest ih =>
    have hstep : (l.step e).2.shard? i = some (k.run (l.router.eventAt i e).toList).2 := by
      rw [shard?_step, hk, Option.map_some]
    obtain ⟨hshard, hanswers⟩ := ih hstep
    rw [Router.eventAt_of_layout (l.step_layout e)] at hshard hanswers
    have hevents : (e :: rest).filterMap (l.router.eventAt i) =
        (l.router.eventAt i e).toList ++ rest.filterMap (l.router.eventAt i) := by
      rw [List.filterMap_cons]
      cases l.router.eventAt i e <;> rfl
    rw [hevents, LiveShard.run_append, ← hshard, ← hanswers, ← answerOf_eq hk e]
    exact ⟨rfl, rfl⟩

theorem run_keeps_shard {s : Shard} (hs : l.router.shards[i]? = some s)
    (events : List RouterEvent) : ∃ t, (l.run events).2.router.shards[i]? = some t := by
  rw [← map_shard?, (run_shard? (shard?_eq hs) events).1]
  exact ⟨_, rfl⟩

/-! The answers of the whole, by those of its shards. -/

theorem direct_response (l : LiveRouter) (i : Nat) (r : Request) :
    (l.direct i r).1 = l.router.shards[i]?.map fun s => (s.serve l.clock.now r).1 := by
  simp only [direct, Router.direct_eq]

theorem request_response {s : Shard} {r : Request} (hb : r.isBroadcast = false)
    (hr : l.router.route r = some i) (hs : l.router.shards[i]? = some s) :
    (l.request r).1 =
      { (s.serve l.clock.now r).1 with responseId := l.router.lastId + 1 } := by
  simp only [request, Router.serve_eq_forward_of_not_broadcast hb, Router.forward_of_route hr hs]

theorem run_append (l : LiveRouter) (u v : List RouterEvent) :
    l.run (u ++ v) = ((l.run u).1 ++ ((l.run u).2.run v).1, ((l.run u).2.run v).2) := by
  induction u generalizing l with
  | nil => rfl
  | cons e u ih => simp only [List.cons_append, run, ih]

theorem length_run (l : LiveRouter) (events : List RouterEvent) :
    (l.run events).1.length = events.length := by
  induction events generalizing l with
  | nil => rfl
  | cons e rest ih => exact congrArg (· + 1) (ih (l.step e).2)

theorem answersOf_append (l : LiveRouter) (i : Nat) (u v : List RouterEvent) :
    l.answersOf i (u ++ v) = l.answersOf i u ++ (l.run u).2.answersOf i v := by
  induction u generalizing l with
  | nil => rfl
  | cons e u ih =>
    rw [List.cons_append, answersOf, ih, answersOf, List.append_assoc]
    rfl

/-- The response to an event in the middle of a run is that of its step. -/
theorem run_getElem? (l : LiveRouter) (u v : List RouterEvent) (e : RouterEvent) :
    (l.run (u ++ e :: v)).1[u.length]? = some ((l.run u).2.step e).1 := by
  rw [run_append, ← l.length_run u, List.getElem?_append_right (Nat.le_refl _), Nat.sub_self]
  rfl

/-- What a shard answers to an event in the middle of a run comes after its answers so far. -/
theorem answersOf_getElem? {e : RouterEvent} {a : Response} {u : List RouterEvent}
    (ha : (l.run u).2.answerOf i e = some a) (v : List RouterEvent) :
    (l.answersOf i (u ++ e :: v))[(l.answersOf i u).length]? = some a := by
  rw [answersOf_append, List.getElem?_append_right (Nat.le_refl _), Nat.sub_self, answersOf, ha]
  rfl

/-- What a shard answers when it is asked directly is the response to the event. -/
theorem run_direct_answer {s : Shard} (hs : l.router.shards[i]? = some s) (u v : List RouterEvent)
    (r : Request) :
    ∃ a, (l.answersOf i (u ++ .direct i r :: v))[(l.answersOf i u).length]? = some a ∧
      (l.run (u ++ .direct i r :: v)).1[u.length]? = some (some a) := by
  obtain ⟨k, hk⟩ := run_keeps_shard hs u
  have hanswer : (l.run u).2.answerOf i (.direct i r) =
      some (k.serve (l.run u).2.clock.now r).1 := by
    rw [answerOf, hk, Router.eventAt, if_pos rfl]
  refine ⟨_, answersOf_getElem? hanswer v, ?_⟩
  rw [run_getElem?, step, direct_response, hk, Option.map_some]

/-- What a shard answers when the router asks it alone leaves the router with its next number. -/
theorem run_routed_answer {s : Shard} (hs : l.router.shards[i]? = some s) (u v : List RouterEvent)
    {r : Request} (hb : r.isBroadcast = false) (hr : l.router.route r = some i) :
    ∃ a, (l.answersOf i (u ++ .request r :: v))[(l.answersOf i u).length]? = some a ∧
      (l.run (u ++ .request r :: v)).1[u.length]? =
        some (some { a with responseId := (l.run u).2.router.lastId + 1 }) := by
  obtain ⟨k, hk⟩ := run_keeps_shard hs u
  rw [← Router.route_of_layout (l.run_layout u)] at hr
  have hreaches : (l.run u).2.router.reaches i r = true := by
    rw [Router.reaches, hb, hr, Bool.false_or, beq_self_eq_true]
  have hanswer : (l.run u).2.answerOf i (.request r) =
      some (k.serve (l.run u).2.clock.now r).1 := by
    rw [answerOf, hk, Router.eventAt, if_pos hreaches]
  refine ⟨_, answersOf_getElem? hanswer v, ?_⟩
  rw [run_getElem?]
  exact congrArg (fun b => some (some b)) (request_response hb hr hk)

/-- Without a stopped shard there is no answer, not even a part of it. -/
theorem request_of_stopped {s : Shard} {r : Request} (hs : l.router.shards[i]? = some s)
    (hstopped : s.isLive = false) (hr : l.router.reaches i r = true) :
    (l.request r).1.body.isException = true := by
  have hbody : (s.serve l.clock.now r).1.body.isException = true := by
    rw [Shard.serve_of_stopped hstopped]
    rfl
  cases hb : r.isBroadcast with
  | false =>
    rw [Router.reaches, hb, Bool.false_or, beq_iff_eq] at hr
    rw [request_response hb hr hs]
    exact hbody
  | true =>
    have hmem := List.mem_of_getElem? hs
    obtain ⟨_, count, ascending, _, _, _, hgather⟩ :=
      Router.serve_eq_gather hb (List.ne_nil_of_mem hmem) l.clock.now
    have hanswer : (s.serve l.clock.now r).1.body ∈
        (l.router.answers l.clock.now r).map (·.body) :=
      List.mem_map_of_mem (List.mem_map_of_mem hmem)
    cases hc : Router.collect ((l.router.answers l.clock.now r).map (·.body)) with
    | error f =>
      rw [request, hgather, Router.gather_of_error hc]
      rfl
    | ok records =>
      obtain ⟨parts, hparts, _⟩ := Router.collect_eq_ok hc
      rw [hparts] at hanswer
      obtain ⟨part, _, hscan⟩ := List.mem_map.mp hanswer
      rw [← hscan] at hbody
      cases hbody

/-- After any run a shard holds, counts and lives as if it had been alone with the events that
reach it, and it has answered as it would then. Its answers are the responses to what it was asked
directly and, with the router's numbers, to what the router asked it alone. What does not reach it
leaves it as it is. Once it has been stopped, every answer of the router that it has part in is an
exception. -/
theorem run_shard_alone (l : LiveRouter) (events : List RouterEvent) {i : Nat} {s : Shard}
    (hs : l.router.shards[i]? = some s) :
    let alone := LiveShard.run ⟨l.clock, s⟩ (events.filterMap (l.router.eventAt i))
    let m := (l.run events).2
    m.router.shards[i]? = some alone.2.shard ∧
    l.answersOf i events = alone.1 ∧
    (∀ before r after, events = before ++ .direct i r :: after →
      ∃ a, (l.answersOf i events)[(l.answersOf i before).length]? = some a ∧
        (l.run events).1[before.length]? = some (some a)) ∧
    (∀ before r after, events = before ++ .request r :: after → r.isBroadcast = false →
      l.router.route r = some i →
      ∃ a, (l.answersOf i events)[(l.answersOf i before).length]? = some a ∧
        (l.run events).1[before.length]? =
          some (some { a with responseId := (l.run before).2.router.lastId + 1 })) ∧
    (∀ e, l.router.eventAt i e = none → (m.step e).2.router.shards[i]? = m.router.shards[i]?) ∧
    (.stop i ∈ events →
      ∀ r, l.router.reaches i r = true → (m.request r).1.body.isException = true) := by
  intro alone m
  obtain ⟨hshard, hanswers⟩ := run_shard? (shard?_eq hs) events
  have hm : m.router.shards[i]? = some alone.2.shard := by
    rw [← m.map_shard? i, hshard, Option.map_some]
  refine ⟨hm, hanswers, ?_, ?_, fun e he => ?_, fun hstop r hr => ?_⟩
  · rintro before r after rfl
    exact run_direct_answer hs before after r
  · rintro before r after rfl hb hr
    exact run_routed_answer hs before after hb hr
  · rw [← map_shard?, shard?_step, Router.eventAt_of_layout (l.run_layout events), he,
      Option.map_map, ← map_shard?]
    rfl
  · have hstopped : alone.2.shard.isLive = false := by
      refine LiveShard.run_stopped (List.mem_filterMap.mpr ⟨.stop i, hstop, ?_⟩)
      exact if_pos rfl
    refine request_of_stopped hm hstopped ?_
    rw [Router.reaches_of_layout (l.run_layout events), hr]

/-- Two key ranges that meet at "m". The second shard takes a record and is stopped; the first goes
on as if nothing else had happened, but a scan of both fails. -/
theorem stopped_shard_leaves_other_alone :
    let model : LagModel := .constant ⟨3, 0⟩
    let nodes : List Node := [{ name := "n1", isPrimary := true }]
    let l := sharded ⟨0⟩ nodes model (.ofList [("t", .ranges ["m"])]) 2
    let insert := Request.insert "t" "a" (.ofList [("v", .nat 1)])
    let update := Request.update "t" "a" (.ofList [("w", .nat 2)])
    let events : List RouterEvent :=
      [.request insert, .request (.insert "t" "z" (.ofList [("v", .nat 3)])), .stop 1, .advance 5,
        .request update]
    let alone := LiveShard.run ⟨⟨0⟩, { id := 0, cluster := { nodes, model } }⟩
      [.request insert, .advance 5, .request update]
    (l.run events).2.router.shards[0]? = some alone.2.shard ∧ l.answersOf 0 events = alone.1 ∧
      ((l.run events).2.request (.scan "t" "" 9)).1.body.isException = true := by
  intro model nodes l insert update events alone
  have hfirst := run_shard_alone l events
    (show l.router.shards[0]? = some { id := 0, cluster := { nodes, model } } from rfl)
  have hsecond := run_shard_alone l events
    (show l.router.shards[1]? = some { id := 1, cluster := { nodes, model } } from rfl)
  have hevents : events.filterMap (l.router.eventAt 0) =
      [.request insert, .advance 5, .request update] := rfl
  rw [hevents] at hfirst
  obtain ⟨hshard, hanswers, _⟩ := hfirst
  obtain ⟨_, _, _, _, _, hstopped⟩ := hsecond
  exact ⟨hshard, hanswers, hstopped (by simp [events]) (.scan "t" "" 9) rfl⟩

end LiveRouter

end ReplicaLag
