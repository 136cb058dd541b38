import ReplicaLag.Proofs.Trial.Mirrors

/-!
Trials find nothing. Whatever operation comes, its answer is confirmed and counted once, and the two
sides stay alike (`Mirrors.perform_eq`); so a turn keeps what is said of a trial so far
(`Sound.turn`). Main statement: a trial of any settings and seed, of any length, ends without a
violation, with each operation counted once, and at each turn the answer agrees with the reference
log.
-/

namespace ReplicaLag

namespace Trial

variable {σ : Type} {t : Trial σ} {c : TrialConfig}

def perform (t : Trial σ) : TrialOp → Trial σ
  | .write kind node key acks values => t.write kind node key acks values
  | .read node key => t.read node key
  | .scan node key count ascending => t.scan node key count ascending

def counted (r : TrialResult) : Nat :=
  r.accepted.toNat + r.rejected.toNat + r.reads.toNat + r.scans.toNat

/-- The second result counts one operation more, and nothing else has happened. -/
structure CountsOne (r s : TrialResult) : Prop where
  operations_eq : s.operations = r.operations
  violations_eq : s.violations = r.violations
  counted_eq : counted r + 1 < UInt64.size → counted s = counted r + 1

theorem countsOne_accepted (r : TrialResult) :
    CountsOne r { r with accepted := r.accepted + 1 } := by
  refine ⟨rfl, rfl, fun h => ?_⟩
  simp only [counted] at h ⊢
  rw [toNat_succ (by omega)]
  omega

theorem countsOne_rejected (r : TrialResult) :
    CountsOne r { r with rejected := r.rejected + 1 } := by
  refine ⟨rfl, rfl, fun h => ?_⟩
  simp only [counted] at h ⊢
  rw [toNat_succ (by omega)]
  omega

theorem countsOne_reads (r : TrialResult) (stale : UInt64) :
    CountsOne r { r with reads := r.reads + 1, stale } := by
  refine ⟨rfl, rfl, fun h => ?_⟩
  simp only [counted] at h ⊢
  rw [toNat_succ (by omega)]
  omega

theorem countsOne_scans (r : TrialResult) : CountsOne r { r with scans := r.scans + 1 } := by
  refine ⟨rfl, rfl, fun h => ?_⟩
  simp only [counted] at h ⊢
  rw [toNat_succ (by omega)]
  omega

/-- The trial after a request, with a log and a result still to be filled in. -/
def after (t : Trial σ) (r : Request) (log : ReferenceLog) (result : TrialResult) : Trial σ :=
  { t with live := (t.live.request r).2, lastId := t.lastId + 1, log, result }

theorem expectedWait_with (t : Trial σ) (live : LiveCluster) (lastId : UInt64)
    (result : TrialResult) (receiver : String) (acks : UInt32) :
    expectedWait { t with live, lastId, result } receiver acks = t.expectedWait receiver acks := rfl

theorem Mirrors.write_eq (h : Mirrors t) (hdelay : 2 * t.config.maxDelay.toNat < UInt64.size)
    (hid : t.lastId.toNat + 1 < UInt64.size)
    {kind : WriteKind} {name key : String} {acks : UInt32} {values : Columns}
    (hfit : t.config.Fits (.write kind name key acks values)) :
    let r := requestOf (.write kind name key acks values)
    ∃ result, CountsOne t.result result ∧
      t.write kind name key acks values =
        t.after r (t.live.request r).2.cluster.store.log result := by
  intro r
  obtain ⟨haccept, hreject⟩ := h.request_write hdelay hfit
  have hsend : t.send (((writeRequest kind key values).via name).withConcern (.acknowledged acks)) =
      ((t.live.request r).1, { t with live := (t.live.request r).2, lastId := t.lastId + 1 }) :=
    send_eq h.lastId_eq hid r
  cases hacc : accepts kind (t.log.columns key name t.now) with
  | true =>
    obtain ⟨hbody, hwait, hlog⟩ := haccept hacc
    have hfault : (t.live.request r).1.body.fault? = none := by
      simpa [Body.isException] using hbody
    have hwait : (t.live.request r).1.wait = t.expectedWait name acks := hwait
    refine ⟨_, countsOne_accepted t.result, ?_⟩
    rw [hlog]
    simp only [write, hsend, hacc, hfault, expectedWait_with, hwait, not_true, if_false, if_true]
    rfl
  | false =>
    obtain ⟨⟨f, hbody, hkind⟩, hlog⟩ := hreject hacc
    have hfault : (t.live.request r).1.body.fault? = some f := by rw [hbody]; rfl
    refine ⟨_, countsOne_rejected t.result, ?_⟩
    rw [hlog]
    simp only [write, hsend, hacc, hfault, hkind, Bool.false_eq_true, not_false_eq_true, if_true]
    rfl

theorem sameRows_self (rows : List (String × Columns)) : sameRows rows rows = true := by
  induction rows with
  | nil => rfl
  | cons e r ih =>
    simp only [sameRows, ih, Columns.same, Json.sameMembers_self, beq_self_eq_true, Bool.and_self]

theorem Mirrors.read_eq (h : Mirrors t) (hid : t.lastId.toNat + 1 < UInt64.size)
    {name key : String} (hm : name ∈ t.config.nodeNames) :
    let r := requestOf (.read name key)
    ∃ result, CountsOne t.result result ∧
      t.read name key = t.after r (t.live.request r).2.cluster.store.log result := by
  intro r
  obtain ⟨hwait, v, hbody, hv⟩ := h.request_read hm key
  have hlog := h.log_of_no_concern (r := r) rfl
  have hsend := send_eq (t := { t with result := { t.result with reads := t.result.reads + 1 } })
    h.lastId_eq hid ((Request.read table key).via name)
  have hwait : (t.live.request ((Request.read table key).via name)).1.wait = 0 := hwait
  have hversion : (t.live.request ((Request.read table key).via name)).1.body.version? = some v :=
    congrArg Body.version? hbody
  refine ⟨_, countsOne_reads t.result (if sameColumns (t.log.columns key name t.now)
    (t.log.newest key) then t.result.stale else t.result.stale + 1), ?_⟩
  rw [hlog]
  cases hnull : v.isNull with
  | true =>
    have hcolumns : t.log.columns key name t.now = none := by rw [← hv, hnull]; rfl
    simp only [read, hsend, hwait, hversion, hcolumns, hnull, if_true]
    split <;> rfl
  | false =>
    have hcolumns : t.log.columns key name t.now = some v.values := by rw [← hv, hnull]; rfl
    have hsame : v.values.same v.values = true := Json.sameMembers_self _
    simp only [read, hsend, hwait, hversion, hcolumns, hnull, hsame, Bool.not_false, Bool.and_self,
      if_true]
    split <;> rfl

theorem Mirrors.scan_eq (h : Mirrors t) (hid : t.lastId.toNat + 1 < UInt64.size)
    {name key : String} {count : UInt64} {ascending : Bool}
    (hfit : t.config.Fits (.scan name key count ascending)) :
    let r := requestOf (.scan name key count ascending)
    ∃ result, CountsOne t.result result ∧
      t.scan name key count ascending =
        t.after r (t.live.request r).2.cluster.store.log result := by
  intro r
  obtain ⟨records, hbody, hrows⟩ := h.request_scan hfit
  have hlog := h.log_of_no_concern (r := r) (by cases ascending <;> rfl)
  have hsend := send_eq (t := { t with result := { t.result with scans := t.result.scans + 1 } })
    h.lastId_eq hid r
  have hrecords : (t.live.request r).1.body.records? = some records := congrArg Body.records? hbody
  refine ⟨_, countsOne_scans t.result, ?_⟩
  rw [hlog]
  simp only [r, requestOf] at hsend hrecords
  simp only [scan, hsend, hrecords, Option.map_some, hrows]
  rw [if_pos (sameRows_self _)]
  rfl

/-- Whatever operation comes, it is confirmed, counted once, and noted on both sides. -/
theorem Mirrors.perform_eq (h : Mirrors t) (hdelay : 2 * t.config.maxDelay.toNat < UInt64.size)
    (hid : t.lastId.toNat + 1 < UInt64.size) {op : TrialOp} (hfit : t.config.Fits op) :
    Confirms t (t.live.request (requestOf op)).1 op ∧ ∃ result, CountsOne t.result result ∧
      t.perform op =
        t.after (requestOf op) (t.live.request (requestOf op)).2.cluster.store.log result := by
  cases op with
  | write kind name key acks values =>
    refine ⟨?_, h.write_eq hdelay hid hfit⟩
    obtain ⟨haccept, hreject⟩ := h.request_write hdelay hfit
    simp only [Confirms]
    cases hacc : accepts kind (t.log.columns key name t.now) with
    | true =>
      obtain ⟨hbody, hwait, _⟩ := haccept hacc
      exact ⟨hbody, hwait⟩
    | false =>
      obtain ⟨hfault, _⟩ := hreject hacc
      exact hfault
  | read name key => exact ⟨h.request_read hfit key, h.read_eq hid hfit⟩
  | scan name key count ascending => exact ⟨h.request_scan hfit, h.scan_eq hid hfit⟩

theorem Mirrors.after (h : Mirrors t) (r : Request) (result : TrialResult) :
    Mirrors (t.after r (t.live.request r).2.cluster.store.log result) where
  delays := ⟨h.delays.unique, h.delays.links_le, h.delays.default_le⟩
  nodes_eq := (Cluster.serve_nodes ..).trans h.nodes_eq
  model_eq := (Cluster.serve_model ..).trans h.model_eq
  log_eq := rfl
  lastId_eq := (congrArg (· + 1) h.lastId_eq).trans (Cluster.serve_lastId ..).symm

variable [RandomSource σ]

/-- The trial that is about to perform its next operation, and that operation. -/
def next (t : Trial σ) : Trial σ × TrialOp :=
  let drawn := t.config.drawTurn t.random
  let clock := match drawn.1.tick with
    | some ms => t.live.clock.advance ms
    | none => t.live.clock
  ({ t with
      random := drawn.2
      live := { t.live with clock }
      result := { t.result with
        operations := t.result.operations + 1, lastOp := some drawn.1.op } },
    drawn.1.op)

theorem turn_eq (t : Trial σ) : t.turn = t.next.1.perform t.next.2 := by
  simp only [turn, play, next]
  generalize t.config.drawTurn t.random = drawn
  obtain ⟨⟨tick, op⟩, random⟩ := drawn
  cases tick <;> cases op <;> rfl

theorem Mirrors.next (h : Mirrors t) : Mirrors t.next.1 where
  delays := ⟨h.delays.unique, h.delays.links_le, h.delays.default_le⟩
  nodes_eq := h.nodes_eq
  model_eq := h.model_eq
  log_eq := h.log_eq
  lastId_eq := h.lastId_eq

/-- The next answer is numbered above the last one and is what the reference side expects. -/
def Agrees (t : Trial σ) : Prop :=
  t.lastId < (t.next.1.live.request (requestOf t.next.2)).1.responseId ∧
    Confirms t.next.1 (t.next.1.live.request (requestOf t.next.2)).1 t.next.2

/-- A trial of some settings after so many turns, all of them without a violation. -/
structure Sound (c : TrialConfig) (t : Trial σ) (turns : Nat) : Prop where
  config_eq : t.config = c
  mirrors : Mirrors t
  violations_eq : t.result.violations = []
  operations_eq : t.result.operations.toNat = turns
  answered_eq : t.lastId.toNat = turns
  counted_eq : counted t.result = turns

variable [LawfulRandomSource σ]

theorem Sound.turn (hnodes : c.nodes.toNat < UInt32.size)
    (hdelay : 2 * c.maxDelay.toNat < UInt64.size) {m : Nat} (h : Sound c t m)
    (hm : m + 1 < UInt64.size) : Agrees t ∧ Sound c t.turn (m + 1) := by
  obtain ⟨rfl, hmirrors, hviolations, hoperations, hanswered, hcounted⟩ := h
  have hid : t.next.1.lastId.toNat + 1 < UInt64.size := hanswered ▸ hm
  have hfit : t.next.1.config.Fits t.next.2 := TrialConfig.drawTurn_fits hnodes t.random
  obtain ⟨hconfirms, result, hone, heq⟩ := hmirrors.next.perform_eq hdelay hid hfit
  have hlast : (t.lastId + 1).toNat = m + 1 := by rw [toNat_succ (hanswered ▸ hm), hanswered]
  constructor
  · refine ⟨?_, hconfirms⟩
    have hnumber : (t.next.1.live.request (requestOf t.next.2)).1.responseId = t.lastId + 1 :=
      (Cluster.serve_responseId ..).trans (congrArg (· + 1) hmirrors.lastId_eq.symm)
    rw [hnumber, UInt64.lt_iff_toNat_lt, hlast, hanswered]
    exact Nat.lt_succ_self m
  · rw [turn_eq, heq]
    refine ⟨rfl, hmirrors.next.after _ result, ?_, ?_, hlast, ?_⟩
    · exact hone.violations_eq.trans hviolations
    · have hops : result.operations = t.result.operations + 1 := hone.operations_eq
      change result.operations.toNat = m + 1
      rw [hops, toNat_succ (hoperations ▸ hm), hoperations]
    · change counted result = m + 1
      have hbefore : counted t.next.1.result = m := hcounted
      rw [hone.counted_eq (hbefore ▸ hm), hbefore]

theorem Sound.run (hnodes : c.nodes.toNat < UInt32.size)
    (hdelay : 2 * c.maxDelay.toNat < UInt64.size) {m : Nat} (h : Sound c t m) {n : Nat}
    (hn : m + n < UInt64.size) : Sound c (t.run n) (m + n) := by
  induction n generalizing t m with
  | zero => exact h
  | succ n ih =>
    -- a trial stops at its first violation, so the turn has to be known to have none
    have hturn := (h.turn hnodes hdelay (by omega)).2
    have hsuccess : t.turn.result.isSuccess = true := by
      rw [TrialResult.isSuccess, hturn.violations_eq]
      rfl
    rw [Trial.run]
    simp only [hsuccess, if_true]
    have hrun := ih hturn (by omega)
    rwa [Nat.add_assoc, Nat.add_comm 1 n] at hrun

end Trial

end ReplicaLag
