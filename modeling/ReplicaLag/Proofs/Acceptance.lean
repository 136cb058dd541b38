import ReplicaLag.Proofs.FailedWrites

/-!
When a request is accepted. It meets a list of demands, which are looked at in turn, and the first
that is not met says how the request fails. Main statement: in every state of a cluster of replicas,
a request is answered without an exception if and only if it meets all its `demands`, and the kind
of an exception is that of the first demand that is unmet.
-/

namespace ReplicaLag

/-- Something asked of a request, and how the request fails that does not meet it. -/
structure Demand where
  holds : Prop
  kind : FaultKind

/-- Some demand is not met, and the first of this sort fails with a kind. -/
inductive FirstUnmet : List Demand → FaultKind → Prop where
  | head {d : Demand} {rest : List Demand} (unmet : ¬ d.holds) : FirstUnmet (d :: rest) d.kind
  | tail {d : Demand} {rest : List Demand} {kind : FaultKind} (met : d.holds)
      (later : FirstUnmet rest kind) : FirstUnmet (d :: rest) kind

namespace FirstUnmet

variable {ds es : List Demand} {kind : FaultKind}

theorem append (h : FirstUnmet ds kind) : FirstUnmet (ds ++ es) kind := by
  induction h with
  | head unmet => exact .head unmet
  | tail met _ ih => exact .tail met ih

theorem after (hd : ∀ d ∈ ds, d.holds) (h : FirstUnmet es kind) : FirstUnmet (ds ++ es) kind := by
  induction ds with
  | nil => exact h
  | cons d ds ih =>
    obtain ⟨hmet, hrest⟩ := List.forall_mem_cons.mp hd
    exact .tail hmet (ih hrest)

theorem not_all (h : FirstUnmet ds kind) : ¬ ∀ d ∈ ds, d.holds := by
  induction h with
  | head unmet => exact fun hall => unmet (List.forall_mem_cons.mp hall).1
  | tail _ _ ih => exact fun hall => ih (List.forall_mem_cons.mp hall).2

theorem unique {other : FaultKind} (h : FirstUnmet ds kind) (h' : FirstUnmet ds other) :
    kind = other := by
  induction h with
  | head unmet =>
    cases h' with
    | head => rfl
    | tail met => exact absurd met unmet
  | tail met _ ih =>
    cases h' with
    | head unmet => exact absurd met unmet
    | tail _ later => exact ih later

end FirstUnmet

/-- A check gets through if all demands are met, and fails with the kind of the first that is
not. -/
inductive Decides {α : Type} (ds : List Demand) : Except Refusal α → Prop where
  | ok {a : α} (met : ∀ d ∈ ds, d.holds) : Decides ds (.ok a)
  | error {e : Refusal} (unmet : FirstUnmet ds e.kind) : Decides ds (.error e)

namespace Decides

variable {α β : Type} {ds es : List Demand} {d : Demand} {x : Except Refusal α}

/-- Demands that are met decide nothing. -/
theorem after (met : ∀ d ∈ ds, d.holds) (hx : Decides es x) : Decides (ds ++ es) x := by
  cases hx with
  | ok rest => exact .ok (List.forall_mem_append.mpr ⟨met, rest⟩)
  | error unmet => exact .error (unmet.after met)

/-- Checks one after the other decide the demands of the first before those of the second. -/
theorem bind {f : α → Except Refusal β} (hx : Decides ds x)
    (hf : ∀ a, x = .ok a → Decides es (f a)) : Decides (ds ++ es) (x >>= f) := by
  cases hx with
  | error unmet => exact .error unmet.append
  | ok met => exact (hf _ rfl).after met

theorem skip (met : d.holds) (hx : Decides ds x) : Decides (d :: ds) x :=
  hx.after (List.forall_mem_singleton.mpr met)

/-- A refusal stands for a demand that comes before others. -/
theorem refuseIf {c : Prop} [Decidable c] {e : Refusal} (hd : d.holds ↔ ¬ c) (he : d.kind = e.kind)
    (hx : ¬ c → Decides ds x) : Decides (d :: ds) (if c then .error e else x) := by
  split
  next h => exact .error (he ▸ .head fun hmet => hd.mp hmet h)
  next h => exact (hx h).skip (hd.mpr h)

/-- What a client is told of a check that decides the demands on its request. -/
theorem outcome {x : Except Refusal Response} (h : Decides ds x) (r : Request) (id : UInt64)
    (hx : ∀ a, x = .ok a → a.body.isException = false) :
    ((r.outcome id x).body.isException = false ↔ ∀ d ∈ ds, d.holds) ∧
      ∀ kind, (r.outcome id x).body.fault?.map (·.kind) = some kind ↔ FirstUnmet ds kind := by
  cases h with
  | ok met =>
    rename_i a
    have hnone : a.body.fault? = none := by simpa [Body.isException] using hx a rfl
    refine ⟨iff_of_true (hx a rfl) met, fun kind => ?_⟩
    rw [Request.outcome, hnone]
    exact iff_of_false (by simp) fun h => h.not_all met
  | error unmet =>
    refine ⟨iff_of_false Bool.noConfusion unmet.not_all, fun kind => ⟨fun h => ?_, fun h => ?_⟩⟩
    · cases h
      exact unmet
    · exact congrArg some (unmet.unique h)

end Decides

namespace Action

def count? : Action → Option UInt64
  | scan _ count .. => some count
  | insert .. | update .. | delete .. | read .. => none

def values? : Action → Option Columns
  | insert _ values _ | update _ values _ => some values
  | delete .. | read .. | scan .. => none

def fields? : Action → Option NameSet
  | read _ fields _ | scan _ _ _ fields _ => fields
  | insert .. | update .. | delete .. => none

/-- What is asked of the version that is seen of a key before it is written. -/
def keyDemand (seen : Option Version) : Action → Demand
  | insert .. => ⟨∀ v ∈ seen, v.isNull = true, .insert⟩
  | update .. => ⟨∀ v ∈ seen, v.isNull = false, .update⟩
  | delete .. => ⟨∀ v ∈ seen, v.isNull = false, .delete⟩
  | read .. | scan .. => ⟨True, .database⟩

end Action

namespace Cluster

/-- What the node that serves a request sees of its key. -/
def seen (c : Cluster) (now : Millis) (r : Request) : Option Version := do
  let node ← c.server? r
  let key ← r.key
  return c.store.get node.name key none now

/-- What is asked of a request before the store takes it: a key, a count, columns and fields that
make sense, a node and a tag set that allow a write, and a key that can be written. -/
def checks (c : Cluster) (m : Replication) (now : Millis) (r : Request) : List Demand :=
  [⟨∃ key, r.key = some key, .noKeyProvided⟩,
    ⟨∀ count ∈ r.action.count?, 1 ≤ count, .database⟩,
    ⟨∀ values ∈ r.action.values?, values.isEmpty = false, .noValueProvided⟩,
    ⟨∀ values ∈ r.action.values?, "" ∉ values.keys, .noColumnProvided⟩,
    ⟨∀ fields ∈ r.action.fields?, fields.isEmpty = false, .noColumnProvided⟩,
    ⟨∀ fields ∈ r.action.fields?, "" ∉ fields.names, .noColumnProvided⟩,
    ⟨∀ node ∈ c.server? r, r.action.isWrite = true → m.readOnlySecondaries = true →
      node.isPrimary = true, .writeForbidden⟩,
    ⟨∀ name ∈ r.concern?.bind (·.tagSet), ∃ tags, m.tagSets.get? name = some tags,
      .unknownTagSet⟩,
    r.action.keyDemand (c.seen now r)]

/-- All that is asked of a request: a node to serve it, what the store asks for, and a concern that
can be met or is given up after a while. -/
def demands (c : Cluster) (m : Replication) (now : Millis) (r : Request) : List Demand :=
  ⟨∃ node, c.server? r = some node, .database⟩ :: c.checks m now r ++
    [⟨∀ node ∈ c.server? r, ∀ concern ∈ r.concern?,
      m.CanMeet node concern c.nodes ∨ 0 < concern.timeout, .database⟩]

variable {c : Cluster} {m : Replication} {now : Millis} {r : Request} {node : Node} {key : String}

theorem decides_resolve (c : Cluster) (r : Request) :
    Decides [⟨∃ node, c.server? r = some node, .database⟩] (c.resolve r) := by
  unfold resolve
  cases hs : c.server? r with
  | none => exact .error (.head (by simp))
  | some node => exact .ok (by simp)

theorem decides_requireKey {key : Option String} (h : r.key = key) :
    Decides [⟨∃ key, r.key = some key, .noKeyProvided⟩] (requireKey key) := by
  rw [h]
  cases key with
  | none => exact .error (.head (by simp))
  | some k => exact .ok (by simp)

theorem decides_checkValues {a : Action} {values : Columns} (h : a.values? = some values) :
    Decides [⟨∀ values ∈ a.values?, values.isEmpty = false, .noValueProvided⟩,
      ⟨∀ values ∈ a.values?, "" ∉ values.keys, .noColumnProvided⟩]
      (checkValues values) := by
  refine .refuseIf (by simp [h]) rfl fun _ => .refuseIf (by simp [h]) rfl fun _ =>
    .ok (by simp)

theorem decides_checkFields {a : Action} {fields : Option NameSet} (h : a.fields? = fields) :
    Decides [⟨∀ fields ∈ a.fields?, fields.isEmpty = false, .noColumnProvided⟩,
      ⟨∀ fields ∈ a.fields?, "" ∉ fields.names, .noColumnProvided⟩]
      (checkFields fields) := by
  cases fields with
  | none => exact .ok (by simp [h])
  | some fields =>
    refine .refuseIf (by simp [h]) rfl fun _ => .refuseIf (by simp [h]) rfl fun _ =>
      .ok (by simp)

theorem decides_visibility (hs : c.server? r = some node) (hw : r.action.isWrite = true) :
    Decides [⟨∀ node ∈ c.server? r, r.action.isWrite = true → m.readOnlySecondaries = true →
        node.isPrimary = true, .writeForbidden⟩,
      ⟨∀ name ∈ r.concern?.bind (·.tagSet), ∃ tags, m.tagSets.get? name = some tags,
        .unknownTagSet⟩] (m.visibility r node c.nodes) := by
  refine .refuseIf (by simp [hs, hw]) rfl fun _ => ?_
  cases r.concern?.bind (·.tagSet) with
  | none => exact .ok (by simp)
  | some name =>
    simp only [Replication.tagSet]
    cases ht : m.tagSets.get? name with
    | none => exact .error (.head (by simp [ht]))
    | some tags => exact .ok (by simp [ht])

theorem seen_eq (hs : c.server? r = some node) (hk : r.key = some key) (now : Millis) :
    c.seen now r = some (c.store.get node.name key none now) := by
  rw [seen, hs, hk]; rfl

/-! The store takes an insert of a key that is seen null, and an update or a deletion of another. -/

theorem decides_insert {values : Columns} {concern : WriteConcern} {d : Visibility}
    (hs : c.server? r = some node) (ha : r.action = .insert (some key) values concern) :
    Decides [r.action.keyDemand (c.seen now r)]
      (c.store.insert node.name key ((Version.ofValues values).stamped node now d)) := by
  rw [seen_eq hs (congrArg Action.key ha), ha, Store.insert]
  simp only [Version.stamped]
  cases hp : c.store.present node.name key now with
  | none => exact .ok (by simp [Action.keyDemand, Store.get_isNull, hp])
  | some u => exact .error (.head (by simp [Action.keyDemand, Store.get_isNull, hp]))

theorem decides_update {values : Columns} {concern : WriteConcern} {d : Visibility}
    (hs : c.server? r = some node) (ha : r.action = .update (some key) values concern) :
    Decides [r.action.keyDemand (c.seen now r)]
      (c.store.update node.name key ((Version.ofValues values).stamped node now d)) := by
  rw [seen_eq hs (congrArg Action.key ha), ha, Store.update]
  simp only [Version.stamped]
  cases hp : c.store.present node.name key now with
  | none => exact .error (.head (by simp [Action.keyDemand, Store.get_isNull, hp]))
  | some u => exact .ok (by simp [Action.keyDemand, Store.get_isNull, hp])

theorem decides_delete {concern : WriteConcern} {d : Visibility}
    (hs : c.server? r = some node) (ha : r.action = .delete (some key) concern) :
    Decides [r.action.keyDemand (c.seen now r)] (c.store.delete node key d now) := by
  rw [seen_eq hs (congrArg Action.key ha), ha, Store.delete]
  cases hp : c.store.present node.name key now with
  | none => exact .error (.head (by simp [Action.keyDemand, Store.get_isNull, hp]))
  | some u => exact .ok (by simp [Action.keyDemand, Store.get_isNull, hp])

/-- A request that the store is to take is looked at by its kind; what is not asked of the kind is
skipped. -/
theorem decides_apply (hm : c.model = .replicated m) (hs : c.server? r = some node) (now : Millis) :
    Decides (c.checks m now r) (c.apply now r node) := by
  cases ha : r.action with
  | insert key values concern =>
    simp only [apply, ha, hm, LagModel.visibility]
    refine (decides_requireKey (congrArg Action.key ha)).bind fun k hk => ?_
    obtain rfl := requireKey_eq_ok_iff.mp hk
    refine .skip (by simp [ha, Action.count?]) ?_
    refine (decides_checkValues (congrArg Action.values? ha)).bind fun _ _ => ?_
    refine .skip (by simp [ha, Action.fields?]) <| .skip (by simp [ha, Action.fields?]) ?_
    refine (decides_visibility hs (congrArg Action.isWrite ha)).bind fun d _ => ?_
    exact (decides_insert hs ha).bind fun _ _ => .ok (by simp)
  | update key values concern =>
    simp only [apply, ha, hm, LagModel.visibility]
    refine (decides_requireKey (congrArg Action.key ha)).bind fun k hk => ?_
    obtain rfl := requireKey_eq_ok_iff.mp hk
    refine .skip (by simp [ha, Action.count?]) ?_
    refine (decides_checkValues (congrArg Action.values? ha)).bind fun _ _ => ?_
    refine .skip (by simp [ha, Action.fields?]) <| .skip (by simp [ha, Action.fields?]) ?_
    refine (decides_visibility hs (congrArg Action.isWrite ha)).bind fun d _ => ?_
    exact (decides_update hs ha).bind fun _ _ => .ok (by simp)
  | delete key concern =>
    simp only [apply, ha, hm, LagModel.visibility]
    refine (decides_requireKey (congrArg Action.key ha)).bind fun k hk => ?_
    obtain rfl := requireKey_eq_ok_iff.mp hk
    refine .skip (by simp [ha, Action.count?]) ?_
    refine .skip (by simp [ha, Action.values?]) <| .skip (by simp [ha, Action.values?]) ?_
    refine .skip (by simp [ha, Action.fields?]) <| .skip (by simp [ha, Action.fields?]) ?_
    refine (decides_visibility hs (congrArg Action.isWrite ha)).bind fun d _ => ?_
    exact (decides_delete hs ha).bind fun _ _ => .ok (by simp)
  | read key fields preference =>
    simp only [apply, ha]
    refine (decides_requireKey (congrArg Action.key ha)).bind fun k _ => ?_
    refine .skip (by simp [ha, Action.count?]) ?_
    refine .skip (by simp [ha, Action.values?]) <| .skip (by simp [ha, Action.values?]) ?_
    refine (decides_checkFields (congrArg Action.fields? ha)).bind fun _ _ => ?_
    exact .ok (by simp [ha, Action.isWrite, Request.concern?, Action.concern?, Action.keyDemand])
  | scan key count ascending fields preference =>
    simp only [apply, ha]
    refine (decides_requireKey (congrArg Action.key ha)).bind fun k _ => ?_
    have hcount : (∀ n ∈ r.action.count?, 1 ≤ n) ↔ ¬ count < 1 := by
      rw [ha, UInt64.not_lt]
      simp [Action.count?]
    refine .refuseIf hcount rfl fun _ => ?_
    refine .skip (by simp [ha, Action.values?]) <| .skip (by simp [ha, Action.values?]) ?_
    refine (decides_checkFields (congrArg Action.fields? ha)).bind fun _ _ => ?_
    exact .ok (by simp [ha, Action.isWrite, Request.concern?, Action.concern?, Action.keyDemand])

/-- Once the store has taken a request, only a write concern can fail. -/
theorem decides_settle {body : Body} {store : Store} (hm : c.model = .replicated m)
    (hs : c.server? r = some node) (ha : c.apply now r node = .ok (body, store)) (id : UInt64) :
    Decides [⟨∀ node ∈ c.server? r, ∀ concern ∈ r.concern?,
        m.CanMeet node concern c.nodes ∨ 0 < concern.timeout, .database⟩]
      (c.model.settle now (r.answer id body) r node c.nodes) := by
  have hbody : (r.answer id body).body.isException = false := (apply_cases ha).1
  rw [hs, hm, LagModel.settle]
  cases hset : m.settle now (r.answer id body) r node c.nodes with
  | ok a =>
    refine .ok (List.forall_mem_singleton.mpr fun n hn concern hc => ?_)
    obtain rfl := Option.some.inj hn
    -- were it to fail, so would the wait
    by_contra hnot
    obtain ⟨hmeet, htimeout⟩ := not_or.mp hnot
    have ht : concern.timeout = 0 := by simpa using htimeout
    have he := (replicationDelay_eq_error_iff_of_applied hm ha hc).mpr ⟨hmeet, ht, rfl⟩
    cases hset.symm.trans ((Replication.settle_eq_error_iff hbody).mpr ⟨concern, hc, he⟩)
  | error e =>
    obtain ⟨concern, hc, he⟩ := (Replication.settle_eq_error_iff hbody).mp hset
    obtain ⟨hmeet, ht, rfl⟩ := (replicationDelay_eq_error_iff_of_applied hm ha hc).mp he
    refine .error (.head fun hall => ?_)
    rcases hall node rfl concern hc with h | h
    · exact hmeet h
    · rw [ht] at h
      exact absurd h (by decide)

/-- A request is served, applied and settled in turn. -/
theorem dispatch_eq_bind (c : Cluster) (now : Millis) (r : Request) (id : UInt64) :
    (c.dispatch now r id).1 = c.resolve r >>= fun node => c.apply now r node >>= fun b =>
      c.model.settle now (r.answer id b.1) r node c.nodes := by
  unfold dispatch
  cases c.resolve r with
  | error e => rfl
  | ok node => cases ha : c.apply now r node <;> simp only [ha, bind, Except.bind]

theorem decides_dispatch (hm : c.model = .replicated m) (now : Millis) (r : Request) (id : UInt64) :
    Decides (c.demands m now r) (c.dispatch now r id).1 := by
  rw [dispatch_eq_bind]
  refine (decides_resolve c r).bind fun node hr => ?_
  have hs := resolve_eq_ok_iff.mp hr
  exact (decides_apply hm hs now).bind fun b hb => decides_settle hm hs hb id

/-- No request is answered with an exception but by a refusal. -/
theorem isException_of_dispatched {id : UInt64} {a : Response}
    (h : (c.dispatch now r id).1 = .ok a) : a.body.isException = false := by
  rw [dispatch_eq_bind] at h
  obtain ⟨node, _, h⟩ := bind_eq_ok.mp h
  obtain ⟨b, hb, h⟩ := bind_eq_ok.mp h
  rw [LagModel.settle_eq_ok h]
  exact (apply_cases hb).1

theorem serve_eq_outcome (c : Cluster) (now : Millis) (r : Request) :
    (c.serve now r).1 = r.outcome (c.lastId + 1) (c.takeId.2.dispatch now r (c.lastId + 1)).1 := by
  unfold serve
  dsimp only [takeId]
  split
  next h => rw [h]; rfl
  next h => rw [h]; rfl

theorem serve_decided (hm : c.model = .replicated m) (now : Millis) (r : Request) :
    ((c.serve now r).1.body.isException = false ↔ ∀ d ∈ c.demands m now r, d.holds) ∧
      ∀ kind, (c.serve now r).1.body.fault?.map (·.kind) = some kind ↔
        FirstUnmet (c.demands m now r) kind := by
  have hd : Decides (c.demands m now r) (c.takeId.2.dispatch now r (c.lastId + 1)).1 :=
    decides_dispatch (c := c.takeId.2) hm now r _
  rw [serve_eq_outcome]
  exact hd.outcome r _ fun a ha => isException_of_dispatched ha

end Cluster

namespace LiveCluster

/-- In every state of a cluster of replicas that a run reaches, a request is answered without an
exception if and only if it meets all demands on it, and the kind of an exception is that of the
first demand that it does not meet. -/
theorem request_accepted_iff (clock : Clock) (nodes : List Node) (p : LagProfile)
    (events : List ClusterEvent) (r : Request) :
    let l := ((replicated clock nodes p).run events).2
    let demands := l.cluster.demands (.ofProfile p clock.now) l.clock.now r
    ((l.request r).1.body.isException = false ↔ ∀ d ∈ demands, d.holds) ∧
      ∀ kind, (l.request r).1.body.fault?.map (·.kind) = some kind ↔ FirstUnmet demands kind := by
  intro l demands
  have hm : l.cluster.model = .replicated (.ofProfile p clock.now) := run_model _ events
  exact Cluster.serve_decided hm l.clock.now r

-- a write without columns, to a secondary that is read-only, is refused for its columns
example :
    let nodes : List Node := [{ name := "n1", isPrimary := true }, { name := "n2" }]
    let l := replicated ⟨0⟩ nodes { readOnlySecondaries := true }
    let r := (Request.insert "t" "k" .empty).via "n2"
    (l.request r).1.body.fault?.map (·.kind) = some .noValueProvided := by rfl

end LiveCluster

end ReplicaLag
