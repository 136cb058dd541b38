import ReplicaLag.Proofs.ShardRuns
import ReplicaLag.Session

/-!
The envelopes of responses. Whoever builds a response, a cluster that serves or refuses, a stopped
shard, a router that forwards, merges or finds no way, it goes to its request, bears the next number
of the one who sends it, is of the kind of the request, and makes nobody wait for an exception
(`Response.Answers`). Main statement: over any run the responses that leave a router, and those of
each of its shards, are numbered from one without a gap, and clients understand every one of them.
-/

namespace ReplicaLag

/-- The response numbered `id` fits the request. -/
structure Response.Answers (a : Response) (r : Request) (id : UInt64) : Prop where
  requestId : a.requestId = r.id
  responseId : a.responseId = id
  sentAt : a.sentAt = r.sentAt
  name : a.body.isException = false → a.body.name = r.action.name
  wait : a.body.isException = true → a.wait = 0

theorem Action.name_of_isScan {a : Action} (h : a.isScan = true) : a.name = "scan" := by
  cases a <;> cases h
  rfl

namespace Request

theorem refuse_answers (r : Request) (id : UInt64) (f : Fault) : (r.refuse id f).Answers r id :=
  ⟨rfl, rfl, rfl, Bool.noConfusion, fun _ => rfl⟩

theorem answer_answers {r : Request} {body : Body} (hname : body.name = r.action.name) (id : UInt64)
    (wait : Millis) : Response.Answers { r.answer id body with wait } r id := by
  refine ⟨rfl, rfl, rfl, fun _ => hname, fun h => ?_⟩
  rw [answer, Body.isException_of_name hname] at h
  cases h

end Request

/-- A response that is numbered anew fits as before. -/
theorem Response.Answers.renumbered {a : Response} {r : Request} {id : UInt64} (h : a.Answers r id)
    (next : UInt64) : Response.Answers { a with responseId := next } r next :=
  ⟨h.requestId, rfl, h.sentAt, h.name, h.wait⟩

namespace Session

/-- A client that has sent the request gets what it wants out of the response, or the exception that
the response is. -/
structure Understands (r : Request) (a : Response) : Prop where
  version : r.action.name = "read" → ∀ f, Session.version (unwrap a) = .error f →
    a.body = .exception f
  records : r.action.name = "scan" → ∀ f, Session.records (unwrap a) = .error f →
    a.body = .exception f

theorem understands_of_answers {a : Response} {r : Request} {id : UInt64} (h : a.Answers r id) :
    Understands r a := by
  constructor <;> intro hname f hf <;> have hbody := h.name <;> rw [hname] at hbody <;>
    cases hb : a.body <;>
    simp_all [Session.version, Session.records, unwrap, Body.isException, Body.fault?, Body.name]

end Session

namespace Cluster

variable {c : Cluster} {now : Millis} {r : Request}

theorem serve_answers (c : Cluster) (now : Millis) (r : Request) :
    (c.serve now r).1.Answers r (c.lastId + 1) := by
  cases hr : c.resolve r with
  | error e => rw [serve_of_unresolved hr]; exact r.refuse_answers _ _
  | ok node =>
    cases ha : c.apply now r node with
    | error e => rw [serve_of_refused hr ha]; exact r.refuse_answers _ _
    | ok b =>
      rw [serve_of_applied hr ha]
      cases hs : c.model.settle now (r.answer (c.lastId + 1) b.1) r node c.nodes with
      | error e => exact r.refuse_answers _ _
      | ok a =>
        rw [Request.outcome, LagModel.settle_eq_ok hs]
        exact Request.answer_answers (apply_outcome ha).1 _ _

end Cluster

namespace Shard

/-- Live or stopped, a shard gives a response of its next number. -/
theorem serve_answers (s : Shard) (now : Millis) (r : Request) :
    (s.serve now r).1.Answers r (s.cluster.lastId + 1) := by
  unfold Shard.serve
  split
  · exact s.cluster.serve_answers now r
  · exact r.refuse_answers _ _

theorem serve_lastId (s : Shard) (now : Millis) (r : Request) :
    (s.serve now r).2.cluster.lastId = s.cluster.lastId + 1 := by
  unfold Shard.serve
  split
  · exact s.cluster.serve_lastId now r
  · rfl

end Shard

namespace Router

variable {rt : Router} {now : Millis} {r : Request}

/-- Where nothing but records and exceptions comes in, what fails is one of the exceptions. -/
theorem mem_of_collect_error {bodies : List Body} {f : Fault}
    (hkind : ∀ b ∈ bodies, b.isException = false → ∃ records, b = .scan records)
    (h : collect bodies = .error f) : .exception f ∈ bodies := by
  induction bodies with
  | nil => cases h
  | cons b rest ih =>
    cases b with
    | exception g =>
      cases h
      exact List.mem_cons_self
    | scan records =>
      cases hrest : collect rest with
      | ok others => rw [collect, hrest] at h; cases h
      | error g =>
        rw [collect, hrest] at h
        cases h
        exact List.mem_cons_of_mem _ (ih (fun b hb => hkind b (List.mem_cons_of_mem _ hb)) hrest)
    | insert | update | delete | read =>
      obtain ⟨_, hscan⟩ := hkind _ List.mem_cons_self rfl
      cases hscan

/-- A shard answers a scan with records or an exception. -/
theorem records_of_answers {a : Response} (hs : r.action.isScan = true) (ha : a ∈ rt.answers now r)
    (hbody : a.body.isException = false) : ∃ records, a.body = .scan records := by
  obtain ⟨s, _, rfl⟩ := List.mem_map.mp ha
  have hname := (s.serve_answers now r).name hbody
  rw [Action.name_of_isScan hs] at hname
  cases hb : (s.serve now r).1.body <;> rw [hb] at hname hbody
  case scan records => exact ⟨records, rfl⟩
  case exception => cases hbody
  all_goals simp [Body.name] at hname

theorem forward_answers (rt : Router) (now : Millis) (r : Request) :
    (rt.forward now r).1.Answers r (rt.lastId + 1) := by
  by_cases h : ∃ i s, rt.shards[i]? = some s ∧ rt.route r = some i
  · obtain ⟨i, s, hi, hr⟩ := h
    rw [forward_of_route hr hi]
    exact (s.serve_answers now r).renumbered _
  · rw [forward_of_unserved fun i s hi hr => h ⟨i, s, hi, hr⟩]
    exact r.refuse_answers _ _

theorem gather_answers (rt : Router) (now : Millis) (hs : r.action.isScan = true) (count : UInt64)
    (ascending : Bool) : (rt.gather now r count ascending).1.Answers r (rt.lastId + 1) := by
  cases hc : collect ((rt.answers now r).map (·.body)) with
  | error f => rw [gather_of_error hc]; exact r.refuse_answers _ _
  | ok records =>
    have hname : (Body.scan (merge ascending count.toNat records)).name = r.action.name :=
      (Action.name_of_isScan hs).symm
    rw [gather_of_records hc]
    exact Request.answer_answers hname _ _

theorem serve_answers (rt : Router) (now : Millis) (r : Request) :
    (rt.serve now r).1.Answers r (rt.lastId + 1) := by
  unfold Router.serve
  split
  next ha =>
    split
    · exact rt.forward_answers now r
    · exact rt.gather_answers now (by rw [ha]; rfl) _ _
  next => exact rt.forward_answers now r

end Router

/-! Runs: the numbers of the responses, and what they answer. -/

def ShardEvent.request? : ShardEvent → Option Request
  | .request r => some r
  | .clear | .stop | .advance _ => none

/-- What is asked, of the router or of a shard. -/
def RouterEvent.request? : RouterEvent → Option Request
  | .request r | .direct _ r => some r
  | .clear _ | .stop _ | .advance _ => none

/-- What is asked of the router. -/
def RouterEvent.routed? : RouterEvent → Option Request
  | .request r => some r
  | .direct .. | .clear _ | .stop _ | .advance _ => none

/-- The responses answer the requests, one each, and count on from `last`. -/
inductive Response.Count : UInt64 → List Request → List Response → Prop
  | nil (last : UInt64) : Count last [] []
  | cons {last : UInt64} {r : Request} {a : Response} {asked : List Request}
      {given : List Response} (head : a.Answers r (last + 1))
      (tail : Count (last + 1) asked given) : Count last (r :: asked) (a :: given)

namespace Response.Count

variable {last : UInt64} {asked : List Request} {given : List Response}

theorem ids (h : Count last asked given) (hlast : last.toNat + asked.length < UInt64.size) :
    given.map (·.responseId.toNat) = List.range' (last.toNat + 1) asked.length := by
  induction h with
  | nil => rfl
  | @cons last r a asked given head _ ih =>
    rw [List.length_cons] at hlast
    have hnext : (last + 1).toNat = last.toNat + 1 := by
      rw [UInt64.toNat_add]
      exact Nat.mod_eq_of_lt (by change last.toNat + 1 < UInt64.size; omega)
    rw [List.map_cons, head.responseId, ih (by omega), hnext]
    rfl

theorem answers (h : Count last asked given) :
    List.Forall₂ (fun r a => a.Answers r a.responseId) asked given := by
  induction h with
  | nil => exact .nil
  | cons head _ ih => exact .cons (head.responseId.symm ▸ head) ih

end Response.Count

/-- A shard answers all that is asked of it; neither a clear nor a stop makes it count anew. -/
theorem LiveShard.run_count (k : LiveShard) (events : List ShardEvent) :
    Response.Count k.shard.cluster.lastId (events.filterMap (·.request?)) (k.run events).1 := by
  induction events generalizing k with
  | nil => exact .nil _
  | cons e rest ih =>
    have ih := ih (k.step e).2
    cases e with
    | request r =>
      have hnext : (k.step (.request r)).2.shard.cluster.lastId = k.shard.cluster.lastId + 1 :=
        k.shard.serve_lastId k.clock.now r
      rw [hnext] at ih
      exact .cons (k.shard.serve_answers k.clock.now r) ih
    | clear | stop | advance => exact ih

namespace LiveRouter

/-- The responses that leave the router in a run. -/
def leaving (l : LiveRouter) (events : List RouterEvent) : List Response :=
  (events.zip (l.run events).1).filterMap fun
    | (.request _, response) => response
    | _ => none

theorem run_count (l : LiveRouter) (events : List RouterEvent) :
    Response.Count l.router.lastId (events.filterMap (·.routed?)) (l.leaving events) := by
  induction events generalizing l with
  | nil => exact .nil _
  | cons e rest ih =>
    have ih := ih (l.step e).2
    cases e with
    | request r =>
      have hnext : (l.step (.request r)).2.router.lastId = l.router.lastId + 1 :=
        congrArg Router.lastId (l.router.serve_snd l.clock.now r)
      rw [hnext] at ih
      exact .cons (l.router.serve_answers l.clock.now r) ih
    | direct i r =>
      have hsame : (l.step (.direct i r)).2.router.lastId = l.router.lastId :=
        congrArg (·.2.lastId) (l.router.direct_eq i l.clock.now r)
      rw [hsame] at ih
      exact ih
    | clear | stop | advance => exact ih

/-- Each response answers what its event asks. -/
theorem step_answers {l : LiveRouter} {e : RouterEvent} {a : Response}
    (h : (l.step e).1 = some a) : ∃ r, e.request? = some r ∧ a.Answers r a.responseId := by
  cases e with
  | request r =>
    cases h
    have ha := l.router.serve_answers l.clock.now r
    exact ⟨r, rfl, ha.responseId.symm ▸ ha⟩
  | direct i r =>
    obtain ⟨s, _, rfl⟩ := Option.map_eq_some_iff.mp ((l.direct_response i r).symm.trans h)
    have ha := s.serve_answers l.clock.now r
    exact ⟨r, rfl, ha.responseId.symm ▸ ha⟩
  | clear | stop | advance => cases h

theorem run_answers {l : LiveRouter} {events : List RouterEvent} {e : RouterEvent} {a : Response}
    (h : (e, some a) ∈ events.zip (l.run events).1) :
    ∃ r, e.request? = some r ∧ a.Answers r a.responseId := by
  induction events generalizing l with
  | nil => cases h
  | cons d rest ih =>
    rcases List.mem_cons.mp h with h | h
    · obtain ⟨rfl, h⟩ := Prod.mk.inj h
      exact step_answers h.symm
    · exact ih h

/-- Over any run of a router and shards that have answered nothing yet, of fewer events than there
are numbers: the responses that leave the router are numbered from one on, one for each request, and
so are those that each shard gives to what reaches it; every response fits its request, and a client
that has sent the request understands it; and shards answer a scan of all of them with records or
with an exception, so that it fails by one of these exceptions only. -/
theorem run_envelopes (l : LiveRouter) (events : List RouterEvent) (hrouter : l.router.lastId = 0)
    (hshards : ∀ s ∈ l.router.shards, s.cluster.lastId = 0)
    (hlength : events.length < UInt64.size) :
    let asked := events.filterMap (·.routed?)
    let reaching := fun i => (events.filterMap (l.router.eventAt i)).filterMap (·.request?)
    let m := (l.run events).2
    ((l.leaving events).map (·.responseId.toNat) = List.range' 1 asked.length ∧
      List.Forall₂ (fun r a => a.Answers r a.responseId) asked (l.leaving events)) ∧
    (∀ i < l.router.shards.length,
      (l.answersOf i events).map (·.responseId.toNat) = List.range' 1 (reaching i).length ∧
      List.Forall₂ (fun r a => a.Answers r a.responseId) (reaching i) (l.answersOf i events)) ∧
    (∀ e a, (e, some a) ∈ events.zip (l.run events).1 →
      ∃ r, e.request? = some r ∧ a.Answers r a.responseId ∧ Session.Understands r a) ∧
    ∀ r, r.action.isScan = true →
      (∀ a ∈ m.router.answers m.clock.now r, a.body.isException = false →
        ∃ records, a.body = .scan records) ∧
      ∀ f, Router.collect ((m.router.answers m.clock.now r).map (·.body)) = .error f →
        ∃ a ∈ m.router.answers m.clock.now r, a.body = .exception f := by
  intro asked reaching m
  have hasked : asked.length ≤ events.length := List.length_filterMap_le _ _
  refine ⟨?_, fun i hi => ?_, fun e a h => ?_, fun r hs => ?_⟩
  · have hcount := l.run_count events
    rw [hrouter] at hcount
    exact ⟨hcount.ids (by simpa using Nat.lt_of_le_of_lt hasked hlength), hcount.answers⟩
  · have hk := shard?_eq (List.getElem?_eq_getElem hi)
    have hcount := LiveShard.run_count ⟨l.clock, l.router.shards[i]⟩
      (events.filterMap (l.router.eventAt i))
    have hreaching : (reaching i).length ≤ events.length :=
      Nat.le_trans (List.length_filterMap_le _ _) (List.length_filterMap_le _ _)
    rw [← (run_shard? hk events).2, hshards _ (List.getElem_mem hi)] at hcount
    exact ⟨hcount.ids (by simpa using Nat.lt_of_le_of_lt hreaching hlength), hcount.answers⟩
  · obtain ⟨r, hr, ha⟩ := run_answers h
    exact ⟨r, hr, ha, Session.understands_of_answers ha⟩
  · have hkind : ∀ a ∈ m.router.answers m.clock.now r, a.body.isException = false →
        ∃ records, a.body = .scan records := fun _ => Router.records_of_answers hs
    exact ⟨hkind, fun f hf => List.mem_map.mp
      (Router.mem_of_collect_error (List.forall_mem_map.mpr hkind) hf)⟩

/-- One request through the router, one straight to the second shard, which is then cleared and
stopped, and a scan of both: the router has sent two responses, the first shard two and the second
two. -/
theorem stopped_shard_counts_on :
    let nodes : List Node := [{ name := "n1", isPrimary := true }]
    let l := sharded ⟨0⟩ nodes (.constant ⟨3, 0⟩) (.ofList [("t", .ranges ["m"])]) 2
    let events : List RouterEvent :=
      [.request (.insert "t" "a" (.ofList [("v", .nat 1)])), .direct 1 (.read "t" "z"), .clear 1,
        .stop 1, .advance 5, .request (.scan "t" "" 9)]
    (l.leaving events).map (·.responseId.toNat) = [1, 2] ∧
      (l.answersOf 0 events).map (·.responseId.toNat) = [1, 2] ∧
      (l.answersOf 1 events).map (·.responseId.toNat) = [1, 2] := by
  intro nodes l events
  have hshards : ∀ s ∈ l.router.shards, s.cluster.lastId = 0 := by simp [l, sharded]
  obtain ⟨⟨hrouter, _⟩, hshard, _, _⟩ := run_envelopes l events rfl hshards (by decide)
  exact ⟨hrouter, (hshard 0 (by decide)).1, (hshard 1 (by decide)).1⟩

end LiveRouter

end ReplicaLag
