import Mathlib.Data.List.Perm.Basic
import ReplicaLag.Version.Codec

/-!
JSON with the members of its objects in other orders. Readers look members up by their names, so a
record is read alike in whatever order they stand (`Undoes`); values that are made of others are
read back if these are. What stands under `values` are the columns of a record, which hold JSON of
any kind, so there nothing is moved.
-/

namespace ReplicaLag

namespace Json

mutual

/-- The same value, but members of objects may have changed places. -/
inductive Reordered : Json → Json → Prop
  | same (j : Json) : Reordered j j
  | array {xs ys : List Json} (items : List.Forall₂ Reordered xs ys) :
      Reordered (array xs) (array ys)
  | object {ms ns ps : List (String × Json)} (members : List.Forall₂ ReorderedMember ms ns)
      (order : ns.Perm ps) : Reordered (object ms) (object ps)

inductive ReorderedMember : String × Json → String × Json → Prop
  | same (m : String × Json) : ReorderedMember m m
  | inside {name : String} {a b : Json} (hname : name ≠ "values") (value : Reordered a b) :
      ReorderedMember (name, a) (name, b)

end

theorem ReorderedMember.value {m n : String × Json} (h : ReorderedMember m n) :
    m.1 = n.1 ∧ Reordered m.2 n.2 := by
  cases h with
  | same => exact ⟨rfl, .same _⟩
  | inside _ h => exact ⟨rfl, h⟩

theorem ReorderedMember.eq_of_values {a b : Json}
    (h : ReorderedMember ("values", a) ("values", b)) : b = a := by
  cases h with
  | same => rfl
  | inside hname _ => exact absurd rfl hname

/-- The same names, with values that differ in the order of members alone. -/
def Agree (ms ns : List (String × Json)) : Prop :=
  ∀ name, Option.Rel (fun a b => ReorderedMember (name, a) (name, b)) (ms.lookup name)
    (ns.lookup name)

namespace Agree

variable {α : Type} {ms ns : List (String × Json)} {name : String} {read : Json → Option α}

theorem of_forall₂ (h : List.Forall₂ ReorderedMember ms ns) : Agree ms ns := by
  intro name
  induction h with
  | nil => exact .none
  | @cons m n ms ns head _ ih =>
    have hnames : m.1 = n.1 := head.value.1
    rw [SortedMap.lookup_cons, SortedMap.lookup_cons, ← hnames]
    by_cases hm : name = m.1
    · subst hm
      rw [if_pos rfl, if_pos rfl]
      refine .some ?_
      cases head with
      | same => exact .same _
      | inside hname value => exact .inside hname value
    · rwa [if_neg hm, if_neg hm]

theorem lookup (h : Agree ms ns) {a : Json} (ha : ms.lookup name = some a) :
    ∃ b, ns.lookup name = some b ∧ ReorderedMember (name, a) (name, b) := by
  have hname := h name
  rw [ha] at hname
  cases hb : ns.lookup name with
  | none => rw [hb] at hname; cases hname
  | some b => rw [hb] at hname; cases hname with | some hab => exact ⟨b, rfl, hab⟩

theorem lookup_eq_none (h : Agree ms ns) (name : String) (hm : ms.lookup name = none) :
    ns.lookup name = none := by
  have hname := h name
  rw [hm] at hname
  cases hb : ns.lookup name with
  | none => rfl
  | some b => rw [hb] at hname; cases hname

theorem lookup_values (h : Agree ms ns) {a : Json} (ha : ms.lookup "values" = some a) :
    ns.lookup "values" = some a := by
  obtain ⟨b, hb, hab⟩ := h.lookup ha
  rw [hb, hab.eq_of_values]

end Agree

namespace Reordered

variable {j : Json} {ms : List (String × Json)} {xs : List Json}

theorem members (h : (Json.object ms).Reordered j) :
    ∃ ns ps, j = .object ps ∧ List.Forall₂ ReorderedMember ms ns ∧ ns.Perm ps := by
  cases h with
  | same => exact ⟨ms, ms, rfl, List.forall₂_same.mpr fun m _ => .same m, .refl _⟩
  | object members order => exact ⟨_, _, rfl, members, order⟩

/-- An object that names each member once has become one that answers every look-up alike. -/
theorem agree (h : (Json.object ms).Reordered j) (hn : (ms.map (·.1)).Nodup) :
    ∃ ps, j = .object ps ∧ Agree ms ps := by
  obtain ⟨ns, ps, rfl, members, order⟩ := h.members
  have hnames : ns.map (·.1) = ms.map (·.1) := by
    clear order hn h
    induction members with
    | nil => rfl
    | cons head _ ih => rw [List.map_cons, List.map_cons, ih, head.value.1]
  refine ⟨ps, rfl, fun name => ?_⟩
  rw [SortedMap.lookup_eq_of_perm order (hnames ▸ hn)]
  exact Agree.of_forall₂ members name

theorem items (h : (Json.array xs).Reordered j) :
    ∃ ys, j = .array ys ∧ List.Forall₂ Reordered xs ys := by
  cases h with
  | same => exact ⟨xs, rfl, List.forall₂_same.mpr fun x _ => .same x⟩
  | array items => exact ⟨_, rfl, items⟩

theorem ne_null {a : Json} (h : a.Reordered j) (ha : a ≠ .null) : j ≠ .null := by
  cases h with
  | same => exact ha
  | array | object => exact Json.noConfusion

end Reordered

/-- What was written is read back, also if members have changed places. -/
def Undoes {α : Type} (read : Json → Option α) (write : α → Json) : Prop :=
  ∀ a j, (write a).Reordered j → read j = some a

theorem undoes_toString? : Undoes toString? string := by
  rintro s _ ⟨⟩
  rfl

theorem undoes_toTag? : Undoes toTag? string := by
  rintro s _ ⟨⟩
  rfl

theorem undoes_toBool? : Undoes toBool? bool := by
  rintro b _ ⟨⟩
  rfl

theorem undoes_toNat64? : Undoes toNat64? nat := by
  rintro n _ ⟨⟩
  rfl

theorem undoes_toNat32? : Undoes toNat32? fun n => nat n.toUInt64 := by
  rintro n _ ⟨⟩
  have hn : n.toNat < UInt32.size := n.toNat_lt
  simp [nat, toNat32?, hn]

theorem mapM_eq_some {β γ : Type} {f : β → Option γ} {xs : List β} {l : List γ}
    (h : List.Forall₂ (fun x a => f x = some a) xs l) : xs.mapM f = some l := by
  induction h with
  | nil => rfl
  | cons hx _ ih => rw [List.mapM_cons, hx, ih]; rfl

section Undoes

variable {α : Type} {read : Json → Option α} {write : α → Json}

theorem Undoes.toOption? (h : Undoes read write) (hne : ∀ a, write a ≠ null) :
    Undoes (toOption? read) (ofOption write) := by
  intro o j hj
  cases o with
  | none => cases hj; rfl
  | some a =>
    have hnull : j ≠ null := hj.ne_null (hne a)
    rw [Json.toOption?, h a j hj]
    · rfl
    · exact hnull

theorem Undoes.toList? (h : Undoes read write) :
    Undoes (toList? read) fun l => array (l.map write) := by
  intro l j hj
  obtain ⟨ys, rfl, hys⟩ := hj.items
  rw [List.forall₂_map_left_iff] at hys
  exact mapM_eq_some (hys.imp fun a y => h a y).flip

theorem undoes_toNames? : Undoes toNames? ofNames := by
  intro s j hj
  have hlist : j.toList? toString? = some s.names := undoes_toString?.toList? s.names j hj
  have hentries : s.names.map (·, ()) = s.entries := by
    rw [NameSet.names, SortedMap.keys, List.map_map]
    exact List.map_id s.entries
  rw [toNames?, hlist, Option.map_some, NameSet.ofNames, hentries,
    SortedMap.ofList_of_perm (.refl _)]

/-- A map is read back in whatever order its entries stand. -/
theorem toMap?_eq_some {m : SortedMap α} {ns ps : List (String × Json)}
    (members : List.Forall₂ (fun e n => e.1 = n.1 ∧ read n.2 = some e.2) m.entries ns)
    (order : ns.Perm ps) : (object ps).toMap? read = some m := by
  -- the entries that are read are those of the map, in the order in which they were found
  obtain ⟨l, hl, hps⟩ : Relation.Comp List.Perm (List.Forall₂ _) m.entries ps := by
    rw [← List.forall₂_comp_perm_eq_perm_comp_forall₂]
    exact ⟨ns, members, order⟩
  have hread : ps.mapM (fun n => (read n.2).map fun a => (n.1, a)) = some l := by
    refine mapM_eq_some (hps.imp fun e n hen => ?_).flip
    obtain ⟨hname, hvalue⟩ := hen
    change (read n.2).map (fun a => (n.1, a)) = some e
    rw [hvalue, ← hname]
    rfl
  rw [Json.toMap?, hread, Option.map_some, SortedMap.ofList_of_perm hl]

theorem Undoes.toMap? (h : Undoes read write) : Undoes (toMap? read) (ofMap write) := by
  intro m j hj
  obtain ⟨ns, ps, rfl, hns, order⟩ := hj.members
  refine toMap?_eq_some ((List.forall₂_map_left_iff.mp hns).imp fun e n hen => ?_) order
  exact ⟨hen.value.1, h e.2 n.2 hen.value.2⟩

namespace Agree

variable {ms ns : List (String × Json)}

theorem found (h : Agree ms ns) (name : String) (hu : Undoes read write) {a : α}
    (ha : ms.lookup name = some (write a)) : ∃ j, ns.lookup name = some j ∧ read j = some a := by
  obtain ⟨b, hb, hab⟩ := h.lookup ha
  exact ⟨b, hb, hu a b hab.value.2⟩

theorem required (h : Agree ms ns) (name : String) (hu : Undoes read write) {a : α}
    (ha : ms.lookup name = some (write a)) : required ns name read = some a := by
  obtain ⟨j, hj, hread⟩ := h.found name hu ha
  rw [Json.required, hj, Option.bind_some, hread]

theorem defaulted (h : Agree ms ns) (name : String) (hu : Undoes read write) {a : α}
    (ha : ms.lookup name = some (write a)) (d : α) : defaulted ns name d read = some a := by
  obtain ⟨j, hj, hread⟩ := h.found name hu ha
  rw [Json.defaulted, hj]
  exact hread

end Agree

end Undoes

end Json

/-- Columns are given back as they are, whatever JSON they hold. -/
theorem Columns.ofJson?_toJson (c : Columns) : ofJson? c.toJson = some c := by
  refine Json.toMap?_eq_some (List.forall₂_map_right_iff.mpr ?_) (.refl _)
  exact List.forall₂_same.mpr fun e _ => ⟨rfl, rfl⟩

namespace Json.Agree

variable {ms ns : List (String × Json)} {c : Columns}

theorem required_columns (h : Agree ms ns) (hc : ms.lookup "values" = some c.toJson) :
    Json.required ns "values" Columns.ofJson? = some c := by
  rw [Json.required, h.lookup_values hc]
  exact c.ofJson?_toJson

theorem defaulted_columns (h : Agree ms ns) (hc : ms.lookup "values" = some c.toJson)
    (d : Columns) : Json.defaulted ns "values" d Columns.ofJson? = some c := by
  rw [Json.defaulted, h.lookup_values hc]
  exact c.ofJson?_toJson

end Json.Agree

end ReplicaLag
