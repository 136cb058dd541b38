import ReplicaLag.Proofs.NodeChoice
import ReplicaLag.Proofs.Unmatched

/-!
The node that serves a request, told without the searches that find it. A node is named, or is the
first primary, or the secondary of the least name, or nearer to the client than any other. Main
statement: a request is served by that node and no other, or by none where there is none, and who
reads from the nearest node waits no longer than by any other way of asking.
-/

namespace ReplicaLag

namespace Node

variable {nodes : List Node} {n : Node}

/-- The first node that is flagged primary. -/
def IsPrimaryOf (nodes : List Node) (n : Node) : Prop :=
  n.isPrimary = true ∧
    ∃ before after, nodes = before ++ n :: after ∧ ∀ m ∈ before, m.isPrimary = false

/-- The secondary whose name comes before that of any other. -/
structure IsFirstSecondaryOf (nodes : List Node) (n : Node) : Prop where
  mem : n ∈ nodes
  isSecondary : n.isPrimary = false
  least : ∀ m ∈ nodes, m.isPrimary = false → m ≠ n → n.name < m.name

/-- The node that is nearer to a client than any other. Of nodes at one distance the primary is
nearer, then the one of the lesser name. -/
structure IsNearestOf (latency : Node → Millis) (nodes : List Node) (n : Node) : Prop where
  mem : n ∈ nodes
  least : ∀ m ∈ nodes, m ≠ n → Cluster.distance latency n < Cluster.distance latency m

theorem IsNearestOf.latency_le {latency : Node → Millis} (h : IsNearestOf latency nodes n)
    {m : Node} (hm : m ∈ nodes) : latency n ≤ latency m := by
  by_cases hmn : m = n
  · rw [hmn]
    exact UInt64.le_refl _
  · rcases Prod.Lex.toLex_lt_toLex.mp (h.least m hm hmn) with hlt | ⟨heq, _⟩
    · exact UInt64.le_iff_toNat_le.mpr hlt.le
    · exact UInt64.le_iff_toNat_le.mpr heq.le

theorem primary?_eq_some_iff : primary? nodes = some n ↔ n.IsPrimaryOf nodes := by
  simp [primary?, IsPrimaryOf, List.find?_eq_some_iff_append]

section names

variable (names : (nodes.map (·.name)).Nodup)
include names

theorem named?_eq_some_iff {name : String} :
    named? nodes name = some n ↔ n ∈ nodes ∧ n.name = name := by
  have hnamed : ∀ {m : Node}, named? nodes name = some m → m ∈ nodes ∧ m.name = name := by
    intro m h
    rw [named?] at h
    exact ⟨List.mem_of_find?_eq_some h, by simpa using List.find?_some h⟩
  refine ⟨hnamed, ?_⟩
  rintro ⟨hn, hname⟩
  cases h : named? nodes name with
  | none => exact absurd (decide_eq_true hname) (List.find?_eq_none.mp h n hn)
  | some m =>
    obtain ⟨hm, hmname⟩ := hnamed h
    rw [List.inj_on_of_nodup_map names hm hn (hmname.trans hname.symm)]

theorem firstSecondary?_eq_some_iff :
    firstSecondary? nodes = some n ↔ IsFirstSecondaryOf nodes n := by
  have hle : ∀ a b : Node, decide (a.name ≤ b.name) = true ↔ a.name ≤ b.name :=
    fun _ _ => decide_eq_true_iff
  have hdistinct : ∀ a ∈ nodes.filter (!·.isPrimary), ∀ b ∈ nodes.filter (!·.isPrimary),
      a.name = b.name → a = b := fun a ha b hb =>
    List.inj_on_of_nodup_map names (List.mem_of_mem_filter ha) (List.mem_of_mem_filter hb)
  rw [firstSecondary?, least?_eq_some_iff hle hdistinct]
  simp only [List.mem_filter, Bool.not_eq_true', and_imp]
  constructor
  · rintro ⟨⟨hn, hs⟩, h⟩
    exact ⟨hn, hs, h⟩
  · rintro ⟨hn, hs, h⟩
    exact ⟨⟨hn, hs⟩, h⟩

theorem nearest?_eq_some_iff (latency : Node → Millis) :
    least? (Cluster.nearer latency) nodes = some n ↔ IsNearestOf latency nodes n := by
  rw [least?_eq_some_iff (Cluster.nearer_iff latency) fun a ha b hb hab =>
    List.inj_on_of_nodup_map names ha hb (Cluster.name_eq_of_distance_eq hab)]
  constructor
  · rintro ⟨hn, h⟩
    exact ⟨hn, h⟩
  · rintro ⟨hn, h⟩
    exact ⟨hn, h⟩

end names

end Node

namespace Action

variable {a : Action} {p : ReadPreference}

theorem concern?_of_preference? (h : a.preference? = some p) : a.concern? = none := by
  cases a with
  | insert | update | delete => cases h
  | read | scan => rfl

theorem concern?_withPreference : (a.withPreference p).concern? = a.concern? := by cases a <;> rfl

theorem passes_withPreference : (a.withPreference p).Passes ↔ a.Passes := by cases a <;> rfl

end Action

namespace Request

/-- The node of some that a request is for, by the way of each to the client. -/
def IsFor (r : Request) (latency : Node → Millis) (nodes : List Node) (n : Node) : Prop :=
  match r.destination with
  | some name => n ∈ nodes ∧ n.name = name
  | none =>
    match r.preference? with
    | none | some .primary | some .primaryPreferred => n.IsPrimaryOf nodes
    | some .secondary => n.IsFirstSecondaryOf nodes
    | some .secondaryPreferred =>
      n.IsFirstSecondaryOf nodes ∨ (∀ m ∈ nodes, m.isPrimary = true) ∧ n.IsPrimaryOf nodes
    | some .nearest => n.IsNearestOf latency nodes

/-- There is none among some nodes that a request could be for, however near they are. -/
def IsForNone (r : Request) (nodes : List Node) : Prop :=
  match r.destination with
  | some name => ∀ n ∈ nodes, n.name ≠ name
  | none =>
    match r.preference? with
    | none | some .primary | some .primaryPreferred => ∀ n ∈ nodes, n.isPrimary = false
    | some .secondary => ∀ n ∈ nodes, n.isPrimary = true
    | some .secondaryPreferred | some .nearest => nodes = []

end Request

namespace Cluster

variable {c : Cluster} {now : Millis} {r : Request} {n : Node} {nodes : List Node}

/-- The node of the cluster that a request is for. -/
def Serves (c : Cluster) (r : Request) (n : Node) : Prop :=
  r.IsFor (c.model.clientLatency r.client) c.nodes n

/-- The cluster has no node that a request could be for. -/
def Unserved (c : Cluster) (r : Request) : Prop := r.IsForNone c.nodes

theorem chosen?_eq_some_iff (names : (nodes.map (·.name)).Nodup) (latency : Node → Millis) :
    chosen? latency nodes r = some n ↔ r.IsFor latency nodes n := by
  unfold chosen? Request.IsFor
  cases r.destination with
  | some name => exact Node.named?_eq_some_iff names
  | none =>
    rcases r.preference? with _ | _ | _ | _ | _ | _
    case none | some.primary | some.primaryPreferred => exact Node.primary?_eq_some_iff
    case some.secondary => exact Node.firstSecondary?_eq_some_iff names
    case some.secondaryPreferred =>
      simp only [Option.getD_some, preferred?, Option.orElse_eq_orElse, Option.orElse_eq_or,
        Option.or_eq_some_iff, Node.firstSecondary?_eq_some_iff names,
        Node.firstSecondary?_eq_none_iff, Node.primary?_eq_some_iff]
    case some.nearest => exact Node.nearest?_eq_some_iff names _

theorem chosen?_eq_none_iff (latency : Node → Millis) :
    chosen? latency nodes r = none ↔ r.IsForNone nodes := by
  unfold chosen? Request.IsForNone
  cases r.destination with
  | some name => simp [Node.named?]
  | none =>
    rcases r.preference? with _ | _ | _ | _ | _ | _
    case none | some.primary | some.primaryPreferred => exact Node.primary?_eq_none_iff
    case some.secondary => exact Node.firstSecondary?_eq_none_iff
    case some.secondaryPreferred =>
      simp only [Option.getD_some, preferred?, Option.orElse_eq_orElse, Option.orElse_eq_or,
        Option.or_eq_none_iff, Node.firstSecondary?_eq_none_iff, Node.primary?_eq_none_iff]
      constructor
      · rintro ⟨hall, hnone⟩
        refine List.eq_nil_iff_forall_not_mem.mpr fun m hm => ?_
        exact Bool.noConfusion ((hall m hm).symm.trans (hnone m hm))
      · intro h
        simp [h]
    case some.nearest => exact Node.least?_eq_none_iff

/-- A request is served as if it had named the node that serves it. -/
theorem serve_via (names : (c.nodes.map (·.name)).Nodup) (h : c.resolve r = .ok n) (now : Millis) :
    c.serve now r = c.serve now (r.via n.name) := by
  have hvia : c.resolve (r.via n.name) = .ok n :=
    resolve_eq_ok_iff.mpr ((Node.named?_eq_some_iff names).mpr ⟨mem_of_resolve h, rfl⟩)
  have happly : c.apply now (r.via n.name) n = c.apply now r n := rfl
  cases ha : c.apply now r n with
  | error e => rw [serve_of_refused h ha, serve_of_refused hvia (happly.trans ha)]; rfl
  | ok b => rw [serve_of_applied h ha, serve_of_applied hvia (happly.trans ha)]; rfl

theorem wait_of_read (hc : r.concern? = none) (hr : c.resolve r = .ok n)
    (h : (c.serve now r).1.body.isException = false) :
    (c.serve now r).1.wait = c.model.clientLatency r.client n := by
  obtain ⟨m, body, store, hm, ha, hsettle, _⟩ := serve_accepted h
  obtain rfl : n = m := Except.ok.inj (hr.symm.trans hm)
  have hbody : body.isException = false := (apply_cases ha).1
  rw [c.model.settle_of_no_concern now n c.nodes hbody hc] at hsettle
  exact congrArg Response.wait (Except.ok.inj hsettle).symm

/-- Another preference or destination may leave a reader without a node, but never lets it wait for
less. -/
theorem wait_of_nearest_le (names : (c.nodes.map (·.name)).Nodup)
    (hp : r.preference? = some .nearest) (hd : r.destination = none) (now : Millis)
    (preference : ReadPreference) (destination : Option String) :
    (c.serve now { r.withPreference preference with destination }).1.Unmatched ∨
      (c.serve now r).1.wait ≤
        (c.serve now { r.withPreference preference with destination }).1.wait := by
  set other := { r.withPreference preference with destination }
  have hread : r.concern? = none := Action.concern?_of_preference? hp
  have hread' : other.concern? = none := Action.concern?_withPreference.trans hread
  cases hm : c.resolve other with
  | error e => exact .inl (serve_unmatched_iff.mpr (resolve_eq_error_iff.mp hm).1)
  | ok m =>
    right
    cases hbody : (c.serve now r).1.body.isException with
    | true =>
      rw [(c.serve_answers now r).wait hbody]
      exact UInt64.zero_le
    | false =>
      obtain ⟨n, _, _, hn, ha, _⟩ := serve_accepted hbody
      have hpasses : other.action.Passes :=
        Action.passes_withPreference.mpr (passes_of_applied hread ha)
      have hanswered : (c.serve now other).1.body.isException = false := by
        refine Bool.eq_false_iff.mpr fun h => ?_
        have hserver := server?_eq_none_of_exception hread' hpasses h
        rw [resolve_eq_ok_iff.mp hm] at hserver
        cases hserver
      have hnearest : n.IsNearestOf (c.model.clientLatency r.client) c.nodes := by
        have hserves := (chosen?_eq_some_iff names _).mp (resolve_eq_ok_iff.mp hn)
        simpa only [Request.IsFor, hd, hp] using hserves
      calc (c.serve now r).1.wait
        _ = c.model.clientLatency r.client n := wait_of_read hread hn hbody
        _ ≤ c.model.clientLatency r.client m := hnearest.latency_le (mem_of_resolve hm)
        _ = (c.serve now other).1.wait := (wait_of_read hread' hm hanswered).symm

/-- Whatever is asked of nodes of distinct names, and however far they are from the client, the node
that is chosen is the one that the request is for, and no node if there is none. So under any model
of lag that node serves the request; if there is none, and only then, the client is told so and the
store is left alone. Who reads waits for the way to that node, and who reads from the nearest one
waits no longer than by another preference or destination that finds a node. -/
theorem served_by_intended_node (names : (c.nodes.map (·.name)).Nodup) (now : Millis)
    (r : Request) :
    (∀ (latency : Node → Millis) n,
      chosen? latency c.nodes r = some n ↔ r.IsFor latency c.nodes n) ∧
    (∀ latency : Node → Millis, chosen? latency c.nodes r = none ↔ r.IsForNone c.nodes) ∧
    (∀ n, c.resolve r = .ok n ↔ c.Serves r n) ∧
    (∀ n, c.Serves r n → c.serve now r = c.serve now (r.via n.name)) ∧
    (∀ e, c.resolve r = .error e ↔
      c.Unserved r ∧ e.fault = ⟨.database, "no matching node"⟩) ∧
    ((c.serve now r).1.body = .exception ⟨.database, "no matching node"⟩ ↔ c.Unserved r) ∧
    (c.Unserved r → (c.serve now r).2.store = c.store) ∧
    (∀ n, r.concern? = none → c.Serves r n → (c.serve now r).1.body.isException = false →
      (c.serve now r).1.wait = c.model.clientLatency r.client n) ∧
    (r.preference? = some .nearest → r.destination = none → ∀ preference destination,
      (c.serve now { r.withPreference preference with destination }).1.Unmatched ∨
        (c.serve now r).1.wait ≤
          (c.serve now { r.withPreference preference with destination }).1.wait) := by
  have hserves : ∀ n, c.resolve r = .ok n ↔ c.Serves r n := fun n =>
    resolve_eq_ok_iff.trans (chosen?_eq_some_iff names _)
  have hfails : ∀ e, c.resolve r = .error e ↔
      c.Unserved r ∧ e.fault = ⟨.database, "no matching node"⟩ := fun e =>
    resolve_eq_error_iff.trans
      (and_congr (chosen?_eq_none_iff _) Refusal.fault_eq_noMatchingNode_iff.symm)
  refine ⟨fun latency n => chosen?_eq_some_iff names latency, chosen?_eq_none_iff, hserves,
    fun n hn => serve_via names ((hserves n).mpr hn) now, hfails,
    serve_unmatched_iff.trans (chosen?_eq_none_iff _), fun h => ?_,
    fun n hr hn => wait_of_read hr ((hserves n).mpr hn),
    fun hp hd => wait_of_nearest_le names hp hd now⟩
  rw [serve_of_unresolved ((hfails .noMatchingNode).mpr ⟨h, rfl⟩)]

/-- Two secondaries are equally near, so the client reads from the one of the lesser name. -/
theorem nearest_secondary_serves_sooner :
    let nodes : List Node :=
      [{ name := "n1", isPrimary := true }, { name := "n3" }, { name := "n2" }]
    let p : LagProfile := { clientLinks := [⟨"c", "n1", 5⟩, ⟨"c", "n2", 3⟩, ⟨"c", "n3", 3⟩] }
    let c : Cluster := { nodes, model := .replicated (.ofProfile p 0) }
    let r := ((Request.read "t" "k").withPreference .nearest).fromClient "c"
    (c.nodes.map (·.name)).Nodup ∧ c.Serves r { name := "n2" } ∧ (c.serve 0 r).1.wait = 3 ∧
      (c.serve 0 r).1.wait ≤ (c.serve 0 (r.via "n1")).1.wait := by
  intro nodes p c r
  have hnames : (c.nodes.map (·.name)).Nodup := by decide
  obtain ⟨-, -, hserves, -, -, -, -, hwait, hnearest⟩ := served_by_intended_node hnames 0 r
  have hn2 : c.Serves r { name := "n2" } := (hserves _).mp rfl
  refine ⟨hnames, hn2, hwait _ rfl hn2 rfl, ?_⟩
  exact (hnearest rfl rfl .nearest (some "n1")).resolve_left fun h => by cases h

end Cluster

end ReplicaLag
