import ReplicaLag.Proofs.Merge
import ReplicaLag.Proofs.Serving

/-!
A share of a store: the histories of some of its keys. Requests for a key of the share find in it
what they find in the whole, so a cluster that holds the share answers them alike and keeps the
share (`serve_share`); a scan of the share gives the rows of its keys (`scan_share`).
-/

namespace ReplicaLag

namespace Store

variable {s : Store} {p : String → Bool} {key : String}

/-- The store with only the histories of the keys that pass a test. -/
def share (s : Store) (p : String → Bool) : Store := ⟨s.histories.filter fun k _ => p k⟩

theorem history_share (h : p key = true) : (s.share p).history key = s.history key := by
  rw [history, share, SortedMap.getD, SortedMap.get?_filter, history, SortedMap.getD]
  cases s.histories.get? key with
  | none => rfl
  | some hs => rw [Option.filter_some, if_pos h]

theorem share_prepend (h : p key = true) (v : Version) :
    (s.share p).prepend key v = (s.prepend key v).share p := by
  rw [prepend, history_share h]
  unfold share prepend
  rw [SortedMap.filter_insert_of_pos h]

theorem share_prepend_of_not (h : p key = false) (v : Version) :
    (s.prepend key v).share p = s.share p := by
  unfold share prepend
  rw [SortedMap.filter_insert_of_neg h]

theorem present_share (h : p key = true) (node : String) (t : Millis) :
    (s.share p).present node key t = s.present node key t := by
  rw [present, history_share h, present]

theorem get_share (h : p key = true) (node : String) (columns : Option NameSet) (t : Millis) :
    (s.share p).get node key columns t = s.get node key columns t := by
  rw [get, visible, history_share h, get, visible]

theorem insert_share (h : p key = true) (node : String) (v : Version) :
    (s.share p).insert node key v = (s.insert node key v).map (·.share p) := by
  rw [insert, insert, present_share h]
  cases s.present node key v.writtenAt with
  | none => simp [Except.map, share_prepend h]
  | some _ => rfl

theorem update_share (h : p key = true) (node : String) (v : Version) :
    (s.share p).update node key v = (s.update node key v).map fun u => (u.1, u.2.share p) := by
  rw [update, update, present_share h]
  cases s.present node key v.writtenAt with
  | none => rfl
  | some _ => simp [Except.map, share_prepend h]

theorem delete_share (h : p key = true) (node : Node) (d : Visibility) (t : Millis) :
    (s.share p).delete node key d t = (s.delete node key d t).map (·.share p) := by
  rw [delete, delete, present_share h]
  cases s.present node.name key t with
  | none => rfl
  | some _ => simp [Except.map, share_prepend h]

theorem walk_share (start : String) (ascending : Bool) :
    (s.share p).walk start ascending = (s.walk start ascending).filter fun e => p e.1 := by
  cases ascending with
  | true => exact List.filter_comm ..
  | false =>
    change ((s.share p).histories.below start) = (s.histories.below start).filter _
    rw [SortedMap.below, SortedMap.below, List.filter_reverse, share, SortedMap.filter,
      List.filter_comm]

theorem rows_share (node start : String) (ascending : Bool) (columns : Option NameSet)
    (t : Millis) :
    (s.share p).rows node start ascending columns t =
      (s.rows node start ascending columns t).filter fun x => p x.key := by
  rw [rows, walk_share, rows, List.filter_filterMap, List.filterMap_filter]
  refine List.filterMap_congr fun e _ => ?_
  cases History.present e.2 node t <;> cases hp : p e.1 <;> simp [Option.filter, hp]

end Store

/-- Scans are the requests that may concern more keys than the one they name. -/
def Action.isScan : Action → Bool
  | scan .. => true
  | _ => false

theorem LagModel.settle_withId (m : LagModel) (now : Millis) (a : Response) (r : Request)
    (server : Node) (nodes : List Node) (id : UInt64) :
    m.settle now { a with responseId := id } r server nodes =
      (m.settle now a r server nodes).map fun b => { b with responseId := id } := by
  cases m with
  | constant c => rfl
  | replicated m =>
    simp only [settle, Replication.settle]
    cases a.body.isException with
    | true => rfl
    | false =>
      cases r.concern? with
      | none => rfl
      | some concern =>
        simp only [Bool.false_eq_true, if_false]
        cases m.writeDelay now r.client server concern nodes <;> rfl

namespace Cluster

variable {c : Cluster} {now : Millis} {r : Request} {p : String → Bool}

/-- The cluster with another store, and with response numbers of its own. -/
def holding (c : Cluster) (store : Store) (id : UInt64) : Cluster := { c with store, lastId := id }

def withShare (c : Cluster) (p : String → Bool) (id : UInt64) : Cluster :=
  c.holding (c.store.share p) id

theorem apply_withShare (hp : ∀ key, r.key = some key → p key = true)
    (hs : r.action.isScan = false) (id : UInt64) (now : Millis) (node : Node) :
    (c.withShare p id).apply now r node =
      (c.apply now r node).map fun b => (b.1, b.2.share p) := by
  cases ha : r.action with
  | insert key values concern =>
    cases key with
    | none => simp only [apply, ha]; rfl
    | some k =>
      have hk : p k = true := hp k (by rw [Request.key, ha]; rfl)
      simp only [apply, ha, requireKey, withShare, holding]
      cases checkValues values with
      | error e => rfl
      | ok _ =>
        cases c.model.visibility r node c.nodes with
        | error e => rfl
        | ok d =>
          cases hi : c.store.insert node.name k ((Version.ofValues values).stamped node now d) <;>
            simp [bind, Except.bind, Except.map, pure, Except.pure, Store.insert_share hk, hi]
  | update key values concern =>
    cases key with
    | none => simp only [apply, ha]; rfl
    | some k =>
      have hk : p k = true := hp k (by rw [Request.key, ha]; rfl)
      simp only [apply, ha, requireKey, withShare, holding]
      cases checkValues values with
      | error e => rfl
      | ok _ =>
        cases c.model.visibility r node c.nodes with
        | error e => rfl
        | ok d =>
          cases hi : c.store.update node.name k ((Version.ofValues values).stamped node now d) <;>
            simp [bind, Except.bind, Except.map, pure, Except.pure, Store.update_share hk, hi]
  | delete key concern =>
    cases key with
    | none => simp only [apply, ha]; rfl
    | some k =>
      have hk : p k = true := hp k (by rw [Request.key, ha]; rfl)
      simp only [apply, ha, requireKey, withShare, holding]
      cases c.model.visibility r node c.nodes with
      | error e => rfl
      | ok d =>
        cases hi : c.store.delete node k d now <;>
          simp [bind, Except.bind, Except.map, pure, Except.pure, Store.delete_share hk, hi]
  | read key fields preference =>
    cases key with
    | none => simp only [apply, ha]; rfl
    | some k =>
      have hk : p k = true := hp k (by rw [Request.key, ha]; rfl)
      simp only [apply, ha, requireKey, withShare, holding]
      cases checkFields fields with
      | error e => rfl
      | ok _ => simp [bind, Except.bind, Except.map, pure, Except.pure, Store.get_share hk]
  | scan key count ascending fields preference => rw [ha] at hs; cases hs

/-- A cluster with a share of the store serves the requests for its keys as the whole would. -/
theorem serve_withShare (hp : ∀ key, r.key = some key → p key = true)
    (hs : r.action.isScan = false) (id : UInt64) :
    (c.withShare p id).serve now r =
      ({ (c.serve now r).1 with responseId := id + 1 },
        (c.serve now r).2.withShare p (id + 1)) := by
  have hresolve : (c.withShare p id).resolve r = c.resolve r := rfl
  have happly := apply_withShare (c := c) hp hs id now
  cases hr : c.resolve r with
  | error e =>
    rw [serve_of_unresolved hr, serve_of_unresolved (hresolve.trans hr)]
    rfl
  | ok node =>
    cases ha : c.apply now r node with
    | error e =>
      rw [serve_of_refused hr ha, serve_of_refused (hresolve.trans hr) (by rw [happly, ha]; rfl)]
      rfl
    | ok b =>
      rw [serve_of_applied hr ha,
        serve_of_applied (hresolve.trans hr) (by rw [happly, ha]; rfl)]
      have hset := c.model.settle_withId now (r.answer (c.lastId + 1) b.1) r node c.nodes (id + 1)
      change (r.outcome (id + 1) (c.model.settle now
        { r.answer (c.lastId + 1) b.1 with responseId := id + 1 } r node c.nodes), _) = _
      rw [hset]
      cases c.model.settle now (r.answer (c.lastId + 1) b.1) r node c.nodes <;> rfl

theorem serve_of_no_concern (h : r.concern? = none) (c : Cluster) (now : Millis) :
    (c.serve now r).2 = c.holding c.store (c.lastId + 1) := by
  rw [holding, ← serve_store_of_no_concern h c now, ← serve_lastId c now r, ← serve_nodes c now r,
    ← serve_model c now r]

/-- Clusters that differ only in their stores all refuse a scan with one fault, or one node of each
answers it after one wait. -/
theorem serve_scan {key : Option String} {count : UInt64} {ascending : Bool}
    {fields : Option NameSet} {preference : ReadPreference}
    (h : r.action = .scan key count ascending fields preference) (c : Cluster) (now : Millis) :
    (∃ f, ∀ store id, ((c.holding store id).serve now r).1 = r.refuse (id + 1) f) ∨
    ∃ node start wait, ∀ store id, ((c.holding store id).serve now r).1 =
      { r.answer (id + 1) (.scan (store.scan node start count.toNat ascending fields now)) with
        wait } := by
  cases hr : c.resolve r with
  | error e =>
    refine .inl ⟨e.fault, fun store id => ?_⟩
    rw [serve_of_unresolved (c := c.holding store id) hr]
    rfl
  | ok node =>
    have refused : ∀ e, (∀ store id, (c.holding store id).apply now r node = .error e) →
        ∃ f, ∀ store id, ((c.holding store id).serve now r).1 = r.refuse (id + 1) f := by
      intro e he
      refine ⟨e.fault, fun store id => ?_⟩
      rw [serve_of_refused (c := c.holding store id) hr (he store id)]
      rfl
    cases key with
    | none => exact .inl (refused .noKey fun store id => by simp only [apply, h]; rfl)
    | some start =>
      by_cases hcount : count < 1
      · refine .inl (refused .emptyScan fun store id => ?_)
        simp only [apply, h, requireKey, if_pos hcount]
        rfl
      · cases hf : checkFields fields with
        | error e =>
          refine .inl (refused e fun store id => ?_)
          simp only [apply, h, requireKey, if_neg hcount, hf]
          rfl
        | ok _ =>
          refine .inr ⟨node.name, start, c.model.clientLatency r.client node, fun store id => ?_⟩
          have ha := apply_scan h hcount hf (c.holding store id) now node
          have hconcern : r.concern? = none := by rw [Request.concern?, h]; rfl
          rw [serve_of_applied (c := c.holding store id) hr ha,
            LagModel.settle_of_no_concern _ now node _ rfl hconcern]
          rfl

end Cluster

end ReplicaLag
