import Mathlib.Data.List.Nodup
import ReplicaLag.Proofs.Serving
import ReplicaLag.Trial

/-!
What a trial can draw. Whatever a source gives, if only it keeps to the ranges it is asked for, an
operation names a node of the cluster, asks for no more acknowledgements than there are nodes, writes
at least one column and scans for at least one record (`drawOp_fits`).
-/

namespace ReplicaLag

theorem toNat_succ {n : UInt64} (h : n.toNat + 1 < UInt64.size) : (n + 1).toNat = n.toNat + 1 := by
  rw [UInt64.toNat_add, UInt64.toNat_one, Nat.mod_eq_of_lt h]

theorem toString_nat_injective : Function.Injective (toString : Nat → String) := by
  intro a b h
  have hdigits : Nat.toDigits 10 a = Nat.toDigits 10 b := String.ofList_injective h
  rw [← Nat.ofDigitChars_ten_toDigits (n := a), hdigits, Nat.ofDigitChars_ten_toDigits]

namespace TrialConfig

variable {c : TrialConfig} {σ : Type} [RandomSource σ]

theorem length_nodeNames (c : TrialConfig) : c.nodeNames.length = c.nodeCount.toNat := by
  rw [nodeNames, List.length_map, List.length_range, nodeCount]
  split
  next h => rw [h]; rfl
  next h =>
    have : c.nodes.toNat ≠ 0 := fun h0 => h (UInt64.toNat_inj.mp h0)
    omega

theorem nodeNames_nodup (c : TrialConfig) : c.nodeNames.Nodup := by
  refine List.Nodup.map (fun a b h => ?_) List.nodup_range
  exact toString_nat_injective (String.append_right_inj "n" |>.mp h)

theorem nodeCount_pos (c : TrialConfig) : 0 < c.nodeCount := by
  rw [nodeCount]
  split
  · decide
  next h => exact UInt64.pos_iff_ne_zero.mpr h

/-- An operation that the checks of a cluster let pass. -/
def Fits (c : TrialConfig) : TrialOp → Prop
  | .write kind node _ acks values => node ∈ c.nodeNames ∧ acks.toNat ≤ c.nodeNames.length ∧
      (kind ≠ .delete → Cluster.checkValues values = .ok ())
  | .read node _ => node ∈ c.nodeNames
  | .scan node _ count _ => node ∈ c.nodeNames ∧ ¬ count < 1

theorem drawNode_mem [LawfulRandomSource σ] (c : TrialConfig) (r : Random σ) :
    (c.drawNode r).1 ∈ c.nodeNames := by
  have h := UInt64.lt_iff_toNat_lt.mp (Random.index_lt r (nodeCount_pos c))
  rw [← length_nodeNames, nodeNames, List.length_map, List.length_range] at h
  exact List.mem_map.mpr ⟨_, List.mem_range.mpr h, rfl⟩

theorem drawAcks_le [LawfulRandomSource σ] (hnodes : c.nodes.toNat < UInt32.size)
    (r : Random σ) : (c.drawAcks r).1.toNat ≤ c.nodeNames.length := by
  have hcount : c.nodeCount.toNat < UInt32.size := by
    rw [nodeCount]
    split
    · decide
    · exact hnodes
  have hlast : (c.nodeCount + 1).toNat = c.nodeCount.toNat + 1 := by
    rw [UInt32.size] at hcount
    exact toNat_succ (by rw [UInt64.size]; omega)
  have hpos := UInt64.lt_iff_toNat_lt.mp (nodeCount_pos c)
  have hrange : (1 : UInt64) < c.nodeCount + 1 := by
    rw [UInt64.lt_iff_toNat_lt, hlast, UInt64.toNat_one]
    exact Nat.lt_succ_of_le hpos
  have hlt := UInt64.lt_iff_toNat_lt.mp (Random.range_bounds r hrange).2
  rw [hlast] at hlt
  rw [drawAcks, UInt64.toNat_toUInt32, length_nodeNames]
  exact Nat.le_trans (Nat.mod_le _ _) (Nat.le_of_lt_succ hlt)

theorem checkValues_insert {values : Columns} {name : String} {v : Json} (hname : name ≠ "")
    (h : ∀ k ∈ values.keys, k ≠ "") : Cluster.checkValues (values.insert name v) = .ok () := by
  refine Cluster.checkValues_eq_ok_iff.mpr ⟨?_, fun k hk => ?_⟩
  · exact SortedMap.isEmpty_eq_false_iff.mpr ⟨name, SortedMap.mem_keys_insert.mpr (.inl rfl)⟩
  · rcases SortedMap.mem_keys_insert.mp hk with rfl | hk
    · exact hname
    · exact h k hk

theorem drawFields_checked (c : TrialConfig) (n : Nat) {values : Columns} (r : Random σ)
    (h : ∀ k ∈ values.keys, k ≠ "") :
    Cluster.checkValues (c.drawFields (n + 1) values r).1 = .ok () := by
  have hfield : ∀ i : UInt64, "field" ++ toString i.toNat ≠ "" := by
    intro i he
    have := congrArg String.length he
    rw [String.length_append] at this
    simp at this
  induction n generalizing values r with
  | zero =>
    simp only [drawFields]
    exact checkValues_insert (hfield _) h
  | succ n ih =>
    rw [drawFields]
    exact ih _ (Cluster.checkValues_eq_ok_iff.mp (checkValues_insert (hfield _) h)).2

theorem drawColumns_checked (c : TrialConfig) (most : UInt64) (r : Random σ) :
    Cluster.checkValues (c.drawColumns most r).1 = .ok () := by
  simp only [drawColumns]
  exact drawFields_checked c _ _ (by simp [SortedMap.keys, SortedMap.empty])

theorem drawWrite_fits [LawfulRandomSource σ] (hnodes : c.nodes.toNat < UInt32.size)
    (kind : WriteKind) (r : Random σ) : c.Fits (c.drawWrite kind r).1 := by
  simp only [drawWrite, Fits]
  refine ⟨drawNode_mem c r, drawAcks_le hnodes _, fun hkind => ?_⟩
  cases kind with
  | insert => exact drawColumns_checked ..
  | update => exact drawColumns_checked ..
  | delete => exact absurd rfl hkind

theorem drawScan_fits [LawfulRandomSource σ] (c : TrialConfig) (r : Random σ) :
    c.Fits (c.drawScan r).1 := by
  simp only [drawScan, Fits]
  refine ⟨drawNode_mem c r, ?_⟩
  have h := UInt64.lt_iff_toNat_lt.mp
    (Random.index_lt (c.drawKey (c.drawNode r).2).2 (by decide : (0 : UInt64) < 5))
  generalize (Random.index (c.drawKey (c.drawNode r).2).2 5).1 = n at h
  have h5 : (5 : UInt64).toNat = 5 := rfl
  rw [UInt64.lt_iff_toNat_lt, UInt64.toNat_add, UInt64.toNat_one]
  omega

/-- What holds of every write, read and scan that can be drawn holds of every operation. -/
theorem drawOp_cases {P : TrialOp → Prop} (hwrite : ∀ kind (r : Random σ), P (c.drawWrite kind r).1)
    (hread : ∀ r : Random σ, P (c.drawRead r).1) (hscan : ∀ r : Random σ, P (c.drawScan r).1)
    (r : Random σ) :
    P (c.drawOp r).1 := by
  simp only [drawOp]
  split
  · exact hwrite _ _
  · split
    · exact hwrite _ _
    · split
      · exact hwrite _ _
      · split
        · exact hread _
        · exact hscan _

/-- Whatever is drawn, a cluster can serve it. -/
theorem drawOp_fits [LawfulRandomSource σ] (hnodes : c.nodes.toNat < UInt32.size)
    (r : Random σ) : c.Fits (c.drawOp r).1 := by
  have hread : ∀ r : Random σ, c.Fits (c.drawRead r).1 := by
    intro r
    simp only [drawRead, Fits]
    exact drawNode_mem c r
  exact drawOp_cases (drawWrite_fits hnodes) hread (drawScan_fits c) r

theorem drawTurn_fits [LawfulRandomSource σ] (hnodes : c.nodes.toNat < UInt32.size)
    (r : Random σ) : c.Fits (c.drawTurn r).1.op := by
  simp only [drawTurn]
  exact drawOp_fits hnodes _

end TrialConfig

end ReplicaLag
