import ReplicaLag.Proofs.Trial.Agreement

/-!
Trials without stale reads. Between nodes that are at no distance from each other a write has
reached all of them as soon as it is logged, and it stays so while the clock does not run back; the
last write that a node sees is then the last one of all (`HasReached.columns_eq`). So a turn keeps
what is said of a trial so far (`Fresh.turn`). Main statement: a trial without delays, or of a
single node, counts no stale read, whatever is drawn.
-/

namespace ReplicaLag

namespace ReferenceLog

variable {log : ReferenceLog} {names : List String} {now : Millis}

/-- By some moment every write of the log has reached every one of some nodes. -/
def HasReached (log : ReferenceLog) (names : List String) (now : Millis) : Prop :=
  ∀ key, ∀ w ∈ log.ofKey key, ∀ n ∈ names,
    ∃ delay, w.delays.get? n = some delay ∧ w.writtenAt.plus delay ≤ now

theorem hasReached_empty (names : List String) (now : Millis) :
    HasReached {} names now := by
  intro key w hw
  cases hw

theorem HasReached.mono (h : log.HasReached names now) {later : Millis} (hle : now ≤ later) :
    log.HasReached names later := by
  intro key w hw n hn
  obtain ⟨delay, hdelay, hreached⟩ := h key w hw n hn
  exact ⟨delay, hdelay, UInt64.le_trans hreached hle⟩

theorem ofKey_push (log : ReferenceLog) (key k : String) (w : LoggedWrite) :
    (log.push key w).ofKey k = if k = key then log.ofKey key ++ [w] else log.ofKey k := by
  rw [push, ofKey, SortedMap.getD, SortedMap.get?_insert]
  split <;> rfl

theorem HasReached.push (h : log.HasReached names now) {w : LoggedWrite}
    (hw : ∀ n ∈ names, ∃ delay, w.delays.get? n = some delay ∧ w.writtenAt.plus delay ≤ now)
    (key : String) : (log.push key w).HasReached names now := by
  intro k v hv
  rw [ofKey_push] at hv
  split at hv
  · rcases List.mem_append.mp hv with hv | hv
    · exact h key v hv
    · rw [List.mem_singleton.mp hv]
      exact hw
  · exact h k v hv

/-- The search for what a node sees stops at the last write. -/
theorem HasReached.columns_eq (h : log.HasReached names now) {node : String} (hn : node ∈ names)
    (key : String) : log.columns key node now = log.newest key := by
  have hlast : log.visible key node now = (log.ofKey key).getLast? := by
    rw [visible, List.getLast?_eq_head?_reverse]
    cases hrev : (log.ofKey key).reverse with
    | nil => rfl
    | cons w rest =>
      have hmem : w ∈ log.ofKey key := List.mem_reverse.mp (hrev ▸ List.mem_cons_self)
      obtain ⟨delay, hdelay, hreached⟩ := h key w hmem node hn
      simp [hdelay, hreached]
  rw [columns, newest, hlast]

end ReferenceLog

namespace TrialConfig

variable {σ : Type} [RandomSource σ] [LawfulRandomSource σ]

theorem drawOp_node_mem (c : TrialConfig) (r : Random σ) : (c.drawOp r).1.node ∈ c.nodeNames :=
  drawOp_cases (P := fun op => op.node ∈ c.nodeNames) (fun _ r => c.drawNode_mem r)
    (fun r => c.drawNode_mem r) (fun r => c.drawNode_mem r) r

theorem drawTick_le {c : TrialConfig} {r : Random σ} {ms : Millis}
    (h : (c.drawTick r).1 = some ms) : ms.toNat ≤ c.maxTick.toNat + 1 := by
  have hrange : ∀ r : Random σ, (r.range 1 (c.maxTick + 1)).1.toNat ≤ c.maxTick.toNat + 1 := by
    intro r
    by_cases hlt : 1 < c.maxTick + 1
    · have hbound := UInt64.lt_iff_toNat_lt.mp (Random.range_bounds r hlt).2
      rw [UInt64.toNat_add, UInt64.toNat_one] at hbound
      exact Nat.le_trans (Nat.le_of_lt hbound) (Nat.mod_le _ _)
    · rw [Random.range, if_neg hlt, UInt64.toNat_one]
      exact Nat.le_add_left 1 _
  simp only [drawTick] at h
  split at h
  · cases h
    exact hrange _
  · cases h

end TrialConfig

namespace Trial

variable {σ : Type} {t : Trial σ} {c : TrialConfig} {now : Millis} {node : String}

/-- A trial of some settings at some moment, by which every write has reached every node, and in
which no read was stale. -/
structure Fresh (c : TrialConfig) (now : Millis) (t : Trial σ) : Prop where
  config_eq : t.config = c
  now_eq : t.now = now
  undelayed : ∀ a ∈ c.nodeNames, ∀ b ∈ c.nodeNames, t.delay a b = 0
  reached : t.log.HasReached c.nodeNames now
  stale_eq : t.result.stale = 0

theorem sameColumns_self (v : Option Columns) : sameColumns v v = true := by
  cases v with
  | none => rfl
  | some columns => exact Json.sameMembers_self columns.entries

namespace Fresh

theorem with_result (h : Fresh c now t) (result : TrialResult) (hstale : result.stale = 0) :
    Fresh c now { t with result } :=
  ⟨h.config_eq, h.now_eq, h.undelayed, h.reached, hstale⟩

theorem report (h : Fresh c now t) (f : Finding) : Fresh c now (t.report f) :=
  h.with_result _ h.stale_eq

/-- The check of an answer changes nothing but the findings. -/
theorem check (h : Fresh c now t) (p : Prop) [Decidable p] (f : Finding) :
    Fresh c now (if p then t else t.report f) := by
  split
  · exact h
  · exact h.report f

theorem send (h : Fresh c now t) (r : Request) : Fresh c now (t.send r).2 := by
  simp only [Trial.send]
  split <;> exact ⟨h.config_eq, h.now_eq, h.undelayed, h.reached, h.stale_eq⟩

/-- A write noted as reaching the nodes from one of them has reached them at once. -/
theorem push (h : Fresh c now t) (hm : node ∈ c.nodeNames) (key : String)
    (values : Option Columns) :
    Fresh c now { t with log := t.log.push key ⟨values, now, t.delaysFrom node⟩ } := by
  refine ⟨h.config_eq, h.now_eq, h.undelayed, h.reached.push (fun n hn => ⟨0, ?_, ?_⟩) key,
    h.stale_eq⟩
  · change (t.delaysFrom node).get? n = some 0
    rw [delaysFrom, h.config_eq, SortedMap.get?_ofList_map, if_pos hn, h.undelayed node hm n hn]
  · rw [Millis.plus_zero]
    exact UInt64.le_refl now

theorem write (h : Fresh c now t) (hm : node ∈ c.nodeNames) (kind : WriteKind) (key : String)
    (acks : UInt32) (values : Columns) : Fresh c now (t.write kind node key acks values) := by
  obtain rfl := h.now_eq
  simp only [Trial.write]
  generalize hsend : t.send _ = sent
  have hsent : Fresh c t.now sent.2 := hsend ▸ h.send _
  split
  · have hrejected := hsent.with_result
      { sent.2.result with rejected := sent.2.result.rejected + 1 } hsent.stale_eq
    split
    · exact hrejected.check _ _
    · exact hrejected.report _
  · split
    · exact hsent.report _
    · have haccepted := hsent.with_result
        { sent.2.result with accepted := sent.2.result.accepted + 1 } hsent.stale_eq
      -- the write is dated by the clock from before the request, which has not moved since
      exact (haccepted.check _ _).push hm key _

theorem read (h : Fresh c now t) (hm : node ∈ c.nodeNames) (key : String) :
    Fresh c now (t.read node key) := by
  obtain rfl := h.now_eq
  simp only [Trial.read]
  have hcounted := h.with_result { t.result with reads := t.result.reads + 1 } h.stale_eq
  have hsent := hcounted.send ((Request.read table key).via node)
  generalize Trial.send _ _ = sent at hsent ⊢
  have hchecked := hsent.check (sent.1.wait = 0) (.readWait sent.1.wait)
  generalize ite (sent.1.wait = 0) _ _ = u at hchecked ⊢
  have hsame : sameColumns (u.log.columns key node t.now) (u.log.newest key) = true := by
    rw [hchecked.reached.columns_eq hm key]
    exact sameColumns_self _
  rw [if_pos hsame]
  exact hchecked.check _ _

theorem scan (h : Fresh c now t) (node key : String) (count : UInt64) (ascending : Bool) :
    Fresh c now (t.scan node key count ascending) := by
  simp only [Trial.scan]
  have hcounted := h.with_result { t.result with scans := t.result.scans + 1 } h.stale_eq
  exact (hcounted.send _).check _ _

theorem perform (h : Fresh c now t) {op : TrialOp} (hm : op.node ∈ c.nodeNames) :
    Fresh c now (t.perform op) := by
  cases op with
  | write kind node key acks values => exact h.write hm kind key acks values
  | read node key => exact h.read hm key
  | scan node key count ascending => exact h.scan node key count ascending

variable [RandomSource σ] [LawfulRandomSource σ]

/-- What is visible stays so, as the clock goes on by no more than the longest tick. -/
theorem next (h : Fresh c now t)
    (hclock : now.toNat + (c.maxTick.toNat + 1) < UInt64.size) :
    ∃ later : Millis, later.toNat ≤ now.toNat + (c.maxTick.toNat + 1) ∧
      Fresh c later t.next.1 := by
  obtain ⟨rfl, rfl, hundelayed, hreached, hstale⟩ := h
  simp only [Trial.next]
  split
  next ms hms =>
    have hle : ms.toNat ≤ t.config.maxTick.toNat + 1 := TrialConfig.drawTick_le hms
    have hlater : (t.now + ms).toNat = t.now.toNat + ms.toNat := by
      rw [UInt64.toNat_add]
      exact Nat.mod_eq_of_lt (Nat.lt_of_le_of_lt (Nat.add_le_add_left hle _) hclock)
    refine ⟨t.now + ms, by omega, rfl, rfl, hundelayed, hreached.mono ?_, hstale⟩
    exact UInt64.le_iff_toNat_le.mpr (by omega)
  next => exact ⟨t.now, Nat.le_add_right _ _, rfl, rfl, hundelayed, hreached, hstale⟩

theorem turn (h : Fresh c now t)
    (hclock : now.toNat + (c.maxTick.toNat + 1) < UInt64.size) :
    ∃ later : Millis, later.toNat ≤ now.toNat + (c.maxTick.toNat + 1) ∧
      Fresh c later t.turn := by
  obtain ⟨later, hlater, hnext⟩ := h.next hclock
  have hm : t.next.2.node ∈ c.nodeNames := h.config_eq ▸ TrialConfig.drawOp_node_mem t.config _
  exact ⟨later, hlater, turn_eq t ▸ hnext.perform hm⟩

theorem run (h : Fresh c now t) {n : Nat}
    (hroom : n * (c.maxTick.toNat + 1) + now.toNat < UInt64.size) :
    ∃ later, Fresh c later (t.run n) := by
  induction n generalizing t now with
  | zero => exact ⟨now, h⟩
  | succ n ih =>
    rw [Nat.succ_mul] at hroom
    obtain ⟨later, hlater, hturn⟩ := h.turn (by omega)
    simp only [Trial.run]
    split
    · exact ih hturn (by omega)
    · -- a trial that stops at a violation has had no stale read either
      exact ⟨later, hturn⟩

end Fresh

variable [RandomSource σ] [LawfulRandomSource σ]

/-- A drawn delay is no longer than the longest, and a node alone has no link. -/
theorem newFrom_fresh (hnear : c.maxDelay = 0 ∨ c.nodes.toNat ≤ 1) (random : Random σ) :
    Fresh c start (newFrom c random) where
  config_eq := rfl
  now_eq := rfl
  undelayed := by
    intro a ha b hb
    rcases hnear with hzero | hone
    · have hle : (newFrom c random).delay a b ≤ c.maxDelay :=
        delay_le (newFrom_delays (by rw [hzero]; decide) random) a b
      rw [hzero] at hle
      exact UInt64.le_zero_iff.mp hle
    · have hlen : c.nodeNames.length = 1 := by
        rw [TrialConfig.nodeNames, List.length_map, List.length_range]
        omega
      obtain ⟨name, hname⟩ := List.length_eq_one_iff.mp hlen
      rw [hname, List.mem_singleton] at ha hb
      rw [delay, if_pos (ha.trans hb.symm)]
  reached := ReferenceLog.hasReached_empty _ _
  stale_eq := rfl

/-- A trial without delays, or of a single node, has no stale reads, whatever source and seed it
draws from: at its end each node shows the last write of each key, as it did at each read. -/
theorem run_without_stale_reads (random : Random σ) (hnear : c.maxDelay = 0 ∨ c.nodes.toNat ≤ 1)
    {n : Nat} (hroom : n * (c.maxTick.toNat + 1) + start.toNat < UInt64.size) :
    let t := (newFrom c random).run n
    t.result.stale = 0 ∧
      ∀ key, ∀ node ∈ c.nodeNames, t.log.columns key node t.now = t.log.newest key := by
  intro t
  obtain ⟨later, h⟩ := (newFrom_fresh hnear random).run hroom
  refine ⟨h.stale_eq, fun key node hm => ?_⟩
  rw [h.now_eq]
  exact h.reached.columns_eq hm key

/-- A thousand operations without delays, and a thousand of a chaotic trial of one node. -/
theorem near_nodes_read_freshly :
    ((new { TrialConfig.standard 7 with maxDelay := 0 }).run 1000).result.stale = 0 ∧
      ((new { TrialConfig.chaos 5 with nodes := 1 }).run 1000).result.stale = 0 := by
  constructor
  · exact (run_without_stale_reads (c := { TrialConfig.standard 7 with maxDelay := 0 })
      (.ofSeed 7) (.inl rfl) (by decide)).1
  · exact (run_without_stale_reads (c := { TrialConfig.chaos 5 with nodes := 1 })
      (.ofSeed 5) (.inr (by decide)) (by decide)).1

end Trial

end ReplicaLag
