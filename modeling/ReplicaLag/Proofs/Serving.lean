import ReplicaLag.Cluster.Run
import ReplicaLag.Proofs.Scans

/-!
What one request does to a cluster. Whatever is asked, the store is left alone or gets one more
version, stamped by the node that serves the request; nodes and model never change, and one response
number is taken. What holds before a run and is kept by each event holds after it (`run_keeps`), and
what holds of each version that is written holds of each that is stored (`run_each`).
-/

namespace ReplicaLag

theorem bind_eq_ok {ε α β : Type} {x : Except ε α} {f : α → Except ε β} {b : β} :
    (x >>= f) = .ok b ↔ ∃ a, x = .ok a ∧ f a = .ok b := by
  cases x <;> simp [bind, Except.bind]

namespace Store

theorem prepend_ne (s : Store) (key : String) (v : Version) : s.prepend key v ≠ s := by
  intro h
  have := congrArg (fun s => (s.history key).length) h
  simp [history_prepend] at this

theorem insert_eq_ok_iff {s t : Store} {node key : String} {v : Version} :
    s.insert node key v = .ok t ↔ s.present node key v.writtenAt = none ∧ t = s.prepend key v := by
  unfold insert
  cases s.present node key v.writtenAt <;> simp [eq_comm]

theorem update_eq_ok_iff {s : Store} {node key : String} {v : Version} {u : Version × Store} :
    s.update node key v = .ok u ↔ ∃ base, s.present node key v.writtenAt = some base ∧
      u = (v.overlaidOn base.values, s.prepend key (v.overlaidOn base.values)) := by
  unfold update
  cases s.present node key v.writtenAt <;> simp [eq_comm]

theorem delete_eq_ok_iff {s t : Store} {node : Node} {key : String} {d : Visibility}
    {now : Millis} :
    s.delete node key d now = .ok t ↔ (∃ base, s.present node.name key now = some base) ∧
      t = s.prepend key (Version.null.stamped node now d) := by
  unfold delete
  cases s.present node.name key now <;> simp [eq_comm]

end Store

/-- A body of the kind of a request is no exception. -/
theorem Body.isException_of_name {b : Body} {a : Action} (h : b.name = a.name) :
    b.isException = false := by
  cases b with
  | exception f => cases a <;> simp [Body.name, Action.name] at h
  | insert | update | delete | read | scan => rfl

/-- The versions that a client gets to see. -/
def Body.versions : Body → List Version
  | .read v => [v]
  | .scan records => records.map (·.version)
  | .insert | .update | .delete | .exception _ => []

/-- The response, or an exception in its place. -/
def Request.outcome (r : Request) (id : UInt64) : Except Refusal Response → Response
  | .ok a => a
  | .error e => r.refuse id e.fault

/-- Settling a response sets its wait and nothing else. -/
theorem Replication.settle_eq_ok {m : Replication} {now : Millis} {a b : Response} {r : Request}
    {server : Node} {nodes : List Node} (h : m.settle now a r server nodes = .ok b) :
    b = { a with wait := b.wait } := by
  unfold settle at h
  split at h
  · cases h; rfl
  · split at h
    · cases hw : m.writeDelay now r.client server _ nodes <;> rw [hw] at h <;> cases h; rfl
    · cases h; rfl

theorem LagModel.settle_eq_ok {model : LagModel} {now : Millis} {a b : Response} {r : Request}
    {server : Node} {nodes : List Node} (h : model.settle now a r server nodes = .ok b) :
    b = { a with wait := b.wait } := by
  cases model with
  | constant c => cases h; rfl
  | replicated m => exact Replication.settle_eq_ok h

theorem LagModel.settle_of_no_concern (m : LagModel) (now : Millis) {a : Response} {r : Request}
    (server : Node) (nodes : List Node) (ha : a.body.isException = false) (hr : r.concern? = none) :
    m.settle now a r server nodes = .ok { a with wait := m.clientLatency r.client server } := by
  cases m with
  | constant c => rfl
  | replicated m => simp only [settle, Replication.settle, ha, hr]; rfl

namespace Cluster

variable {c : Cluster} {now : Millis} {r : Request} {node : Node}

theorem requireKey_eq_ok_iff {key : Option String} {k : String} :
    requireKey key = .ok k ↔ key = some k := by
  cases key <;> simp [requireKey]

/-- Columns that a write may set: there are some, and none has the empty name. -/
theorem checkValues_eq_ok_iff {values : Columns} :
    checkValues values = .ok () ↔ values.isEmpty = false ∧ ∀ k ∈ values.keys, k ≠ "" := by
  unfold checkValues
  cases values.isEmpty with
  | true => simp
  | false =>
    simp only [Bool.false_eq_true, if_false, true_and]
    split
    next h =>
      obtain ⟨k, hk, he⟩ := List.any_eq_true.mp h
      simp only [reduceCtorEq, false_iff]
      exact fun hall => hall k hk (String.isEmpty_iff.mp he)
    next h =>
      simp only [true_iff]
      exact fun k hk he => h (List.any_eq_true.mpr ⟨k, hk, String.isEmpty_iff.mpr he⟩)

theorem mem_of_chosen? {latency : Node → Millis} {nodes : List Node} {n : Node}
    (h : chosen? latency nodes r = some n) : n ∈ nodes := by
  unfold chosen? at h
  split at h
  · exact List.mem_of_find?_eq_some h
  · cases hp : r.preference?.getD .primary <;> simp only [hp, preferred?] at h
    case primary | primaryPreferred => exact List.mem_of_find?_eq_some h
    case secondary => exact (List.mem_filter.mp (Node.mem_of_least? h)).1
    case secondaryPreferred =>
      rcases Option.or_eq_some_iff.mp (by simpa using h) with h | ⟨_, h⟩
      · exact (List.mem_filter.mp (Node.mem_of_least? h)).1
      · exact List.mem_of_find?_eq_some h
    case nearest => exact Node.mem_of_least? h

theorem resolve_eq_ok_iff : c.resolve r = .ok node ↔ c.server? r = some node := by
  unfold resolve
  cases c.server? r <;> simp

theorem resolve_eq_error_iff {e : Refusal} :
    c.resolve r = .error e ↔ c.server? r = none ∧ e = .noMatchingNode := by
  unfold resolve
  cases c.server? r <;> simp [eq_comm]

theorem mem_of_resolve (h : c.resolve r = .ok node) : node ∈ c.nodes :=
  mem_of_chosen? (resolve_eq_ok_iff.mp h)

/-- What `node` adds under a key when it takes a write. -/
structure Wrote (c : Cluster) (now : Millis) (r : Request) (node : Node) (key : String)
    (v : Version) : Prop where
  isWrite : r.action.isWrite = true
  ofKey : r.key = some key
  allowed : c.model.visibility r node c.nodes = .ok v.visibility
  writtenAt : v.writtenAt = now
  writtenBy : v.writtenBy = some node
  bare : v.isNull = true → v.values = SortedMap.empty

/-- Whoever a write reaches without delay sees it at once. -/
theorem Wrote.isVisibleTo {key server : String} {v : Version} (hw : c.Wrote now r node key v)
    (h : v.visibility.get? server = some 0) : v.isVisibleTo server now = true := by
  refine Version.isVisibleTo_iff.mpr ⟨0, h, ?_⟩
  rw [hw.writtenAt, Millis.plus_zero]
  exact UInt64.le_refl _

/-- A request that passes all checks gets a body of its kind, and reads the store, or adds one
version to it. -/
theorem apply_outcome {body : Body} {store : Store} (h : c.apply now r node = .ok (body, store)) :
    body.name = r.action.name ∧
      ((r.action.isWrite = false ∧ store = c.store) ∨
        ∃ key v, c.Wrote now r node key v ∧ store = c.store.prepend key v) := by
  cases ha : r.action with
  | insert key values concern =>
    simp only [apply, ha, bind_eq_ok, requireKey_eq_ok_iff, Store.insert_eq_ok_iff] at h
    obtain ⟨k, rfl, _, _, d, hd, s, ⟨_, rfl⟩, h⟩ := h
    cases h
    exact ⟨rfl, .inr ⟨k, _,
      ⟨by rw [ha]; rfl, by rw [Request.key, ha]; rfl, hd, rfl, rfl, Bool.noConfusion⟩, rfl⟩⟩
  | update key values concern =>
    simp only [apply, ha, bind_eq_ok, requireKey_eq_ok_iff, Store.update_eq_ok_iff] at h
    obtain ⟨k, rfl, _, _, d, hd, _, ⟨base, _, rfl⟩, h⟩ := h
    cases h
    exact ⟨rfl, .inr ⟨k, _,
      ⟨by rw [ha]; rfl, by rw [Request.key, ha]; rfl, hd, rfl, rfl, Bool.noConfusion⟩, rfl⟩⟩
  | delete key concern =>
    simp only [apply, ha, bind_eq_ok, requireKey_eq_ok_iff, Store.delete_eq_ok_iff] at h
    obtain ⟨k, rfl, d, hd, s, ⟨_, rfl⟩, h⟩ := h
    cases h
    exact ⟨rfl, .inr ⟨k, _,
      ⟨by rw [ha]; rfl, by rw [Request.key, ha]; rfl, hd, rfl, rfl, fun _ => rfl⟩, rfl⟩⟩
  | read key fields preference =>
    simp only [apply, ha, bind_eq_ok] at h
    obtain ⟨_, _, _, _, h⟩ := h
    cases h
    exact ⟨rfl, .inl ⟨rfl, rfl⟩⟩
  | scan key count ascending fields preference =>
    simp only [apply, ha, bind_eq_ok] at h
    obtain ⟨_, _, h⟩ := h
    split at h
    · cases h
    · simp only [bind_eq_ok] at h
      obtain ⟨_, _, h⟩ := h
      cases h
      exact ⟨rfl, .inl ⟨rfl, rfl⟩⟩

theorem apply_cases {body : Body} {store : Store} (h : c.apply now r node = .ok (body, store)) :
    body.isException = false ∧
      ((r.action.isWrite = false ∧ store = c.store) ∨
        ∃ key v, c.Wrote now r node key v ∧ store = c.store.prepend key v) :=
  ⟨Body.isException_of_name (apply_outcome h).1, (apply_outcome h).2⟩

/-- A write that passes all checks adds a version. -/
theorem wrote_of_applied {body : Body} {store : Store} {concern : WriteConcern}
    (hc : r.concern? = some concern) (h : c.apply now r node = .ok (body, store)) :
    ∃ key v, c.Wrote now r node key v ∧ store = c.store.prepend key v := by
  have hwrite : r.action.isWrite = true := Option.isSome_iff_exists.mpr ⟨concern, hc⟩
  rcases (apply_cases h).2 with ⟨hread, _⟩ | hwrote
  · rw [hwrite] at hread
    cases hread
  · exact hwrote

/-! What a request does that passes its checks. -/

theorem apply_insert {key : String} {values : Columns} {concern : WriteConcern} {d : Visibility}
    (ha : r.action = .insert (some key) values concern) (hv : checkValues values = .ok ())
    (hd : c.model.visibility r node c.nodes = .ok d) (now : Millis) :
    c.apply now r node = match c.store.present node.name key now with
      | some _ => .error (.keyExists key)
      | none => .ok (.insert,
          c.store.prepend key ((Version.ofValues values).stamped node now d)) := by
  simp only [apply, ha, requireKey, hv, hd, bind, Except.bind, Store.insert, Version.stamped]
  cases c.store.present node.name key now <;> rfl

theorem apply_update {key : String} {values : Columns} {concern : WriteConcern} {d : Visibility}
    (ha : r.action = .update (some key) values concern) (hv : checkValues values = .ok ())
    (hd : c.model.visibility r node c.nodes = .ok d) (now : Millis) :
    c.apply now r node = match c.store.present node.name key now with
      | some base => .ok (.update, c.store.prepend key
          (((Version.ofValues values).stamped node now d).overlaidOn base.values))
      | none => .error (.nothingToUpdate key) := by
  simp only [apply, ha, requireKey, hv, hd, bind, Except.bind, Store.update, Version.stamped]
  cases c.store.present node.name key now <;> rfl

theorem apply_delete {key : String} {concern : WriteConcern} {d : Visibility}
    (ha : r.action = .delete (some key) concern)
    (hd : c.model.visibility r node c.nodes = .ok d) (now : Millis) :
    c.apply now r node = match c.store.present node.name key now with
      | some _ => .ok (.delete, c.store.prepend key (Version.null.stamped node now d))
      | none => .error (.nothingToDelete key) := by
  simp only [apply, ha, requireKey, hd, bind, Except.bind, Store.delete]
  cases c.store.present node.name key now <;> rfl

theorem apply_get {key : String} {fields : Option NameSet} {preference : ReadPreference}
    (ha : r.action = .read (some key) fields preference) (hf : checkFields fields = .ok ())
    (c : Cluster) (now : Millis) (node : Node) :
    c.apply now r node = .ok (.read (c.store.get node.name key fields now), c.store) := by
  simp only [apply, ha, requireKey, hf]
  rfl

theorem apply_scan {key : String} {count : UInt64} {ascending : Bool} {fields : Option NameSet}
    {preference : ReadPreference}
    (ha : r.action = .scan (some key) count ascending fields preference) (hcount : ¬ count < 1)
    (hf : checkFields fields = .ok ()) (c : Cluster) (now : Millis) (node : Node) :
    c.apply now r node =
      .ok (.scan (c.store.scan node.name key count.toNat ascending fields now), c.store) := by
  simp only [apply, ha, requireKey, if_neg hcount, hf]
  rfl

/-! The answer, by how far the request comes. -/

theorem serve_of_unresolved {e : Refusal} (h : c.resolve r = .error e) :
    c.serve now r = (r.refuse (c.lastId + 1) e.fault, { c with lastId := c.lastId + 1 }) := by
  have hd : dispatch { c with lastId := c.lastId + 1 } now r (c.lastId + 1) =
      (.error e, c.store) := by
    have : resolve { c with lastId := c.lastId + 1 } r = .error e := h
    simp only [dispatch, this]
  simp only [serve, takeId, hd]

theorem serve_of_refused {e : Refusal} (h : c.resolve r = .ok node)
    (ha : c.apply now r node = .error e) :
    c.serve now r = (r.refuse (c.lastId + 1) e.fault, { c with lastId := c.lastId + 1 }) := by
  have hd : dispatch { c with lastId := c.lastId + 1 } now r (c.lastId + 1) =
      (.error e, c.store) := by
    have h : resolve { c with lastId := c.lastId + 1 } r = .ok node := h
    have ha : apply { c with lastId := c.lastId + 1 } now r node = .error e := ha
    simp only [dispatch, h, ha]
  simp only [serve, takeId, hd]

theorem serve_of_applied {body : Body} {store : Store} (h : c.resolve r = .ok node)
    (ha : c.apply now r node = .ok (body, store)) :
    c.serve now r =
      (r.outcome (c.lastId + 1) (c.model.settle now (r.answer (c.lastId + 1) body) r node c.nodes),
        { c with store, lastId := c.lastId + 1 }) := by
  have hd : dispatch { c with lastId := c.lastId + 1 } now r (c.lastId + 1) =
      (c.model.settle now (r.answer (c.lastId + 1) body) r node c.nodes, store) := by
    have h : resolve { c with lastId := c.lastId + 1 } r = .ok node := h
    have ha : apply { c with lastId := c.lastId + 1 } now r node = .ok (body, store) := ha
    simp only [dispatch, h, ha]
  simp only [serve, takeId, hd]
  cases c.model.settle now (r.answer (c.lastId + 1) body) r node c.nodes <;> rfl

theorem serve_of_settled {body : Body} {store : Store} {b : Response} (h : c.resolve r = .ok node)
    (ha : c.apply now r node = .ok (body, store))
    (hb : c.model.settle now (r.answer (c.lastId + 1) body) r node c.nodes = .ok b) :
    (c.serve now r).1.body = body ∧ (c.serve now r).2.store = store := by
  rw [serve_of_applied h ha, hb]
  exact ⟨congrArg Response.body (LagModel.settle_eq_ok hb), rfl⟩

/-- The store after a request is the store before, or that with one version more. -/
theorem serve_store (c : Cluster) (now : Millis) (r : Request) :
    (c.serve now r).2.store = c.store ∨ ∃ node key v, c.resolve r = .ok node ∧
      c.Wrote now r node key v ∧ (c.serve now r).2.store = c.store.prepend key v := by
  cases hr : c.resolve r with
  | error e => rw [serve_of_unresolved hr]; exact .inl rfl
  | ok node =>
    cases ha : c.apply now r node with
    | error e => rw [serve_of_refused hr ha]; exact .inl rfl
    | ok b =>
      rw [serve_of_applied hr ha]
      rcases (apply_cases ha).2 with ⟨_, hs⟩ | ⟨key, v, hw, hs⟩
      · exact .inl hs
      · exact .inr ⟨node, key, v, rfl, hw, hs⟩

/-- Behind an answer that is no exception stand a node, what it made of the store, and a wait that
could be worked out. -/
theorem serve_accepted (h : (c.serve now r).1.body.isException = false) :
    ∃ node body store, c.resolve r = .ok node ∧ c.apply now r node = .ok (body, store) ∧
      c.model.settle now (r.answer (c.lastId + 1) body) r node c.nodes = .ok (c.serve now r).1 ∧
      (c.serve now r).2.store = store := by
  cases hr : c.resolve r with
  | error e => rw [serve_of_unresolved hr] at h; cases h
  | ok node =>
    cases ha : c.apply now r node with
    | error e => rw [serve_of_refused hr ha] at h; cases h
    | ok b =>
      have hserve := serve_of_applied hr ha
      cases hs : c.model.settle now (r.answer (c.lastId + 1) b.1) r node c.nodes with
      | error e => rw [hserve, hs] at h; cases h
      | ok a => exact ⟨node, b.1, b.2, rfl, ha, by rw [hserve, hs]; rfl, by rw [hserve]⟩

/-- A write that is answered without an exception is in the store, under its key. -/
theorem serve_accepted_write {concern : WriteConcern} (hc : r.concern? = some concern)
    (h : (c.serve now r).1.body.isException = false) :
    ∃ node key v body, c.resolve r = .ok node ∧ c.Wrote now r node key v ∧
      (c.serve now r).2.store = c.store.prepend key v ∧ body.isException = false ∧
      c.model.settle now (r.answer (c.lastId + 1) body) r node c.nodes = .ok (c.serve now r).1 := by
  obtain ⟨node, body, store, hr, ha, hsettle, hs⟩ := serve_accepted h
  obtain ⟨key, v, hw, hv⟩ := wrote_of_applied hc ha
  exact ⟨node, key, v, body, hr, hw, hs.trans hv, (apply_cases ha).1, hsettle⟩

theorem serve_store_of_no_concern (h : r.concern? = none) (c : Cluster) (now : Millis) :
    (c.serve now r).2.store = c.store := by
  rcases c.serve_store now r with hs | ⟨node, key, v, _, hw, _⟩
  · exact hs
  · have hwrite := hw.isWrite
    rw [Action.isWrite, show r.action.concern? = none from h] at hwrite
    cases hwrite

theorem apply_returns {P : Version → Prop} (hs : c.store.Each P)
    {body : Body} {store : Store} (h : c.apply now r node = .ok (body, store)) :
    ∀ v ∈ body.versions, v = .null ∨ ∃ w wanted, P w ∧ v = w.restrict wanted := by
  intro v hv
  cases ha : r.action with
  | insert | update | delete =>
    have hname := (apply_outcome h).1
    rw [ha] at hname
    cases body with
    | read | scan => simp [Body.name, Action.name] at hname
    | insert | update | delete | exception => cases hv
  | read key fields preference =>
    simp only [apply, ha, bind_eq_ok] at h
    obtain ⟨k, _, _, _, h⟩ := h
    cases h
    obtain rfl := List.mem_singleton.mp hv
    exact c.store.get_returns hs node.name k fields now
  | scan key count ascending fields preference =>
    simp only [apply, ha, bind_eq_ok] at h
    obtain ⟨k, _, h⟩ := h
    split at h
    · cases h
    · simp only [bind_eq_ok] at h
      obtain ⟨_, _, h⟩ := h
      cases h
      obtain ⟨x, hx, rfl⟩ := List.mem_map.mp hv
      exact .inr (Store.scan_returns hs hx)

/-- What a request returns is stored, with the columns that it asked for, or nothing. -/
theorem serve_returns {P : Version → Prop} (hs : c.store.Each P) (now : Millis) (r : Request) :
    ∀ v ∈ (c.serve now r).1.body.versions,
      v = .null ∨ ∃ w wanted, P w ∧ v = w.restrict wanted := by
  cases hr : c.resolve r with
  | error e => rw [serve_of_unresolved hr]; exact fun v hv => by cases hv
  | ok node =>
    cases ha : c.apply now r node with
    | error e => rw [serve_of_refused hr ha]; exact fun v hv => by cases hv
    | ok b =>
      rw [serve_of_applied hr ha]
      cases hsettle : c.model.settle now (r.answer (c.lastId + 1) b.1) r node c.nodes with
      | error e => exact fun v hv => by cases hv
      | ok a =>
        rw [Request.outcome, LagModel.settle_eq_ok hsettle]
        exact apply_returns hs ha

@[simp] theorem serve_nodes (c : Cluster) (now : Millis) (r : Request) :
    (c.serve now r).2.nodes = c.nodes := by
  unfold serve takeId; dsimp only; split <;> rfl

@[simp] theorem serve_model (c : Cluster) (now : Millis) (r : Request) :
    (c.serve now r).2.model = c.model := by
  unfold serve takeId; dsimp only; split <;> rfl

@[simp] theorem serve_lastId (c : Cluster) (now : Millis) (r : Request) :
    (c.serve now r).2.lastId = c.lastId + 1 := by
  unfold serve takeId; dsimp only; split <;> rfl

theorem serve_responseId (c : Cluster) (now : Millis) (r : Request) :
    (c.serve now r).1.responseId = c.lastId + 1 := by
  cases hr : c.resolve r with
  | error e => rw [serve_of_unresolved hr]; rfl
  | ok node =>
    cases ha : c.apply now r node with
    | error e => rw [serve_of_refused hr ha]; rfl
    | ok b =>
      rw [serve_of_applied hr ha]
      cases hs : c.model.settle now (r.answer (c.lastId + 1) b.1) r node c.nodes with
      | error e => rfl
      | ok a => exact congrArg Response.responseId (LagModel.settle_eq_ok hs)

end Cluster

namespace LiveCluster

@[simp] theorem request_nodes (l : LiveCluster) (r : Request) :
    (l.request r).2.cluster.nodes = l.cluster.nodes := l.cluster.serve_nodes l.clock.now r

@[simp] theorem request_model (l : LiveCluster) (r : Request) :
    (l.request r).2.cluster.model = l.cluster.model := l.cluster.serve_model l.clock.now r

/-- A request leaves the store as it was, or adds one version at the present moment. -/
theorem request_store (l : LiveCluster) (r : Request) :
    (l.request r).2.cluster.store = l.cluster.store ∨
      ∃ node key v, l.cluster.resolve r = .ok node ∧
        l.cluster.Wrote l.clock.now r node key v ∧
        (l.request r).2.cluster.store = l.cluster.store.prepend key v :=
  l.cluster.serve_store l.clock.now r

theorem run_request (l : LiveCluster) (r : Request) (events : List ClusterEvent) :
    l.run (.request r :: events) =
      ((l.request r).1 :: ((l.request r).2.run events).1, ((l.request r).2.run events).2) := rfl

/-- What each event keeps, a run keeps. -/
theorem run_keeps {P : LiveCluster → Prop} (step : ∀ l e, P l → P (l.step e).2)
    (events : List ClusterEvent) {l : LiveCluster} (h : P l) : P (l.run events).2 := by
  induction events generalizing l with
  | nil => exact h
  | cons e r ih => exact ih (step l e h)

theorem run_nodes (l : LiveCluster) (events : List ClusterEvent) :
    (l.run events).2.cluster.nodes = l.cluster.nodes :=
  run_keeps (P := fun k => k.cluster.nodes = l.cluster.nodes) (fun k e h => by
    cases e with
    | request r => exact (k.request_nodes r).trans h
    | advance ms => exact h
    | clear => exact h) events rfl

theorem run_model (l : LiveCluster) (events : List ClusterEvent) :
    (l.run events).2.cluster.model = l.cluster.model :=
  run_keeps (P := fun k => k.cluster.model = l.cluster.model) (fun k e h => by
    cases e with
    | request r => exact (k.request_model r).trans h
    | advance ms => exact h
    | clear => exact h) events rfl

/-- What is true of every version that a node of the cluster writes is true of all that a run
stores. -/
theorem run_each {P : Version → Prop} {l : LiveCluster}
    (write : ∀ (c : Cluster) now r node key v, c.nodes = l.cluster.nodes →
      c.model = l.cluster.model → c.resolve r = .ok node → c.Wrote now r node key v → P v)
    (events : List ClusterEvent) (h : l.cluster.store.Each P) :
    (l.run events).2.cluster.store.Each P := by
  induction events generalizing l with
  | nil => exact h
  | cons e rest ih =>
    cases e with
    | request r =>
      refine ih (l := (l.request r).2) (fun c now q node key v hn hm => ?_) ?_
      · exact write c now q node key v (hn.trans (l.request_nodes r)) (hm.trans (l.request_model r))
      · rcases l.request_store r with hs | ⟨node, key, v, hr, hw, hs⟩
        · rw [hs]
          exact h
        · rw [hs]
          exact h.prepend (write _ _ _ _ _ _ rfl rfl hr hw) key
    | advance ms => exact ih (l := { l with clock := l.clock.advance ms }) write h
    | clear => exact ih (l := { l with cluster := l.cluster.clear }) write (Store.each_empty P)

end LiveCluster

end ReplicaLag
