/-!
Finite maps from names to values, kept in increasing code-point order of the names. The order is
part of the type, so two maps that answer every look-up alike are equal (`SortedMap.ext_get?`), and
a map can be walked upwards or downwards from any name.
-/

namespace ReplicaLag

variable {β γ : Type}

/-- A map whose entries stand in strictly increasing order of their names. -/
structure SortedMap (β : Type) where
  entries : List (String × β)
  sorted : entries.Pairwise (fun a b => a.1 < b.1)

namespace SortedMap

def insertEntry (k : String) (v : β) : List (String × β) → List (String × β)
  | [] => [(k, v)]
  | e :: r =>
    if k < e.1 then (k, v) :: e :: r
    else if e.1 < k then e :: insertEntry k v r
    else (k, v) :: r

theorem mem_insertEntry {k : String} {v : β} {l : List (String × β)} {x : String × β}
    (h : x ∈ insertEntry k v l) : x = (k, v) ∨ x ∈ l := by
  induction l with
  | nil => simpa [insertEntry] using h
  | cons e r ih =>
    simp only [insertEntry] at h
    split at h
    · grind
    · split at h <;> grind

theorem sorted_insertEntry (k : String) (v : β) {l : List (String × β)}
    (h : l.Pairwise (fun a b => a.1 < b.1)) :
    (insertEntry k v l).Pairwise (fun a b => a.1 < b.1) := by
  induction l with
  | nil => simp [insertEntry]
  | cons e r ih =>
    have ⟨he, hr⟩ := List.pairwise_cons.mp h
    simp only [insertEntry]
    split
    · rename_i hk
      refine List.pairwise_cons.mpr ⟨fun x hx => ?_, h⟩
      rcases List.mem_cons.mp hx with rfl | hx
      · exact hk
      · exact String.lt_trans hk (he x hx)
    · rename_i hk
      split
      · rename_i hek
        refine List.pairwise_cons.mpr ⟨fun x hx => ?_, ih hr⟩
        rcases mem_insertEntry hx with rfl | hx
        · exact hek
        · exact he x hx
      · rename_i hek
        refine List.pairwise_cons.mpr ⟨fun x hx => ?_, hr⟩
        have : k = e.1 := String.le_antisymm (String.not_lt.mp hek) (String.not_lt.mp hk)
        exact this ▸ he x hx

def empty : SortedMap β := ⟨[], .nil⟩

instance : EmptyCollection (SortedMap β) := ⟨empty⟩

instance : Inhabited (SortedMap β) := ⟨empty⟩

/-- The map with `k` set to `v`, whatever it was before. -/
def insert (m : SortedMap β) (k : String) (v : β) : SortedMap β :=
  ⟨insertEntry k v m.entries, sorted_insertEntry k v m.sorted⟩

/-- The map of some entries; of two for one name the later one counts. -/
def ofList (l : List (String × β)) : SortedMap β :=
  l.foldl (fun m e => m.insert e.1 e.2) empty

def filter (m : SortedMap β) (p : String → β → Bool) : SortedMap β :=
  ⟨m.entries.filter (fun e => p e.1 e.2), m.sorted.filter _⟩

def erase (m : SortedMap β) (k : String) : SortedMap β :=
  m.filter (fun n _ => n != k)

def get? (m : SortedMap β) (k : String) : Option β := m.entries.lookup k

def getD (m : SortedMap β) (k : String) (d : β) : β := (m.get? k).getD d

def contains (m : SortedMap β) (k : String) : Bool := (m.get? k).isSome

def keys (m : SortedMap β) : List String := m.entries.map (·.1)

def size (m : SortedMap β) : Nat := m.entries.length

def isEmpty (m : SortedMap β) : Bool := m.entries.isEmpty

def mapValues (f : β → γ) (m : SortedMap β) : SortedMap γ :=
  ⟨m.entries.map (fun e => (e.1, f e.2)), by
    rw [List.pairwise_map]
    exact m.sorted⟩

/-- The map that has for each of some names what `f` says, if it says anything. -/
def tabulate (names : List String) (f : String → Option β) : SortedMap β :=
  ofList (names.filterMap fun n => (f n).map fun v => (n, v))

/-- The map `base` with all entries of `m`, whatever it has for their names. -/
def overlay (m base : SortedMap β) : SortedMap β :=
  m.entries.foldl (fun b e => b.insert e.1 e.2) base

/-- The map with `k` set to `v`, unless it has an entry for `k`. -/
def insertNew (m : SortedMap β) (k : String) (v : β) : SortedMap β :=
  if m.contains k then m else m.insert k v

/-- The map `m` with the entries of `base` for the names that it lacks. -/
def fill (m base : SortedMap β) : SortedMap β :=
  base.entries.foldl (fun m e => m.insertNew e.1 e.2) m

def above (m : SortedMap β) (start : String) : List (String × β) :=
  m.entries.filter (fun e => start ≤ e.1)

def below (m : SortedMap β) (start : String) : List (String × β) :=
  (m.entries.filter (fun e => e.1 ≤ start)).reverse

/-! Look-up after each operation. -/

theorem lookup_cons (n : String) (e : String × β) (r : List (String × β)) :
    (e :: r).lookup n = if n = e.1 then some e.2 else r.lookup n := by
  obtain ⟨k, v⟩ := e
  rw [List.lookup_cons]
  by_cases h : n = k
  · simp [h]
  · simp [h, beq_false_of_ne h]

theorem lookup_insertEntry (k n : String) (v : β) (l : List (String × β)) :
    (insertEntry k v l).lookup n = if n = k then some v else l.lookup n := by
  induction l with
  | nil => simp [insertEntry, lookup_cons]
  | cons e r ih =>
    simp only [insertEntry]
    split
    · simp [lookup_cons]
    · split
      · simp only [lookup_cons, ih]; grind
      · simp only [lookup_cons]; grind

@[simp] theorem get?_empty (n : String) : (empty : SortedMap β).get? n = none := rfl

theorem get?_insert (m : SortedMap β) (k n : String) (v : β) :
    (m.insert k v).get? n = if n = k then some v else m.get? n :=
  lookup_insertEntry k n v m.entries

theorem lookup_eq_some_iff {l : List (String × β)} (h : l.Pairwise (fun a b => a.1 < b.1))
    {n : String} {v : β} : l.lookup n = some v ↔ (n, v) ∈ l := by
  induction l with
  | nil => simp
  | cons e r ih =>
    have ⟨he, hr⟩ := List.pairwise_cons.mp h
    have ih := ih hr
    rw [lookup_cons]
    split
    next hn =>
      have hr : (n, v) ∉ r := fun hw => String.lt_irrefl _ (hn ▸ he _ hw)
      constructor
      · intro h; cases h; subst hn; simp
      · intro h
        rcases List.mem_cons.mp h with h | h
        · cases h; rfl
        · exact absurd h hr
    next hn =>
      rw [ih, List.mem_cons]
      exact ⟨.inr, fun h => h.resolve_left fun h => hn (h ▸ rfl)⟩

theorem get?_eq_some_iff {m : SortedMap β} {n : String} {v : β} :
    m.get? n = some v ↔ (n, v) ∈ m.entries :=
  lookup_eq_some_iff m.sorted

theorem get?_filter (m : SortedMap β) (p : String → β → Bool) (n : String) :
    (m.filter p).get? n = (m.get? n).filter (p n) := by
  apply Option.ext
  intro v
  rw [get?_eq_some_iff, Option.filter_eq_some_iff, get?_eq_some_iff]
  simp [filter]

theorem get?_erase (m : SortedMap β) (k n : String) :
    (m.erase k).get? n = if n = k then none else m.get? n := by
  rw [erase, get?_filter]
  by_cases h : n = k
  · subst h; cases m.get? n <;> simp
  · cases m.get? n <;> simp [h]

theorem get?_mapValues (f : β → γ) (m : SortedMap β) (n : String) :
    (m.mapValues f).get? n = (m.get? n).map f := by
  obtain ⟨l, h⟩ := m
  simp only [get?, mapValues]
  clear h
  induction l with
  | nil => rfl
  | cons e r ih =>
    rw [List.map_cons, lookup_cons, lookup_cons, ih]
    split <;> rfl

theorem get?_foldl_insert (l : List (String × β)) (m : SortedMap β) (n : String) :
    (l.foldl (fun m e => m.insert e.1 e.2) m).get? n = (l.reverse.lookup n).or (m.get? n) := by
  induction l generalizing m with
  | nil => rfl
  | cons e r ih =>
    rw [List.foldl_cons, ih, get?_insert, List.reverse_cons, List.lookup_append, Option.or_assoc,
      lookup_cons]
    split <;> rfl

/-- Of two entries for one name the later one counts. -/
theorem get?_ofList (l : List (String × β)) (n : String) :
    (ofList l).get? n = l.reverse.lookup n := by
  rw [ofList, get?_foldl_insert, get?_empty, Option.or_none]

/-- Each name stands once, so it is found from either end. -/
theorem lookup_reverse {l : List (String × β)} (h : l.Pairwise (fun a b => a.1 < b.1))
    (n : String) : l.reverse.lookup n = l.lookup n := by
  induction l with
  | nil => rfl
  | cons e r ih =>
    have ⟨he, hr⟩ := List.pairwise_cons.mp h
    rw [List.reverse_cons, List.lookup_append, ih hr, lookup_cons, lookup_cons]
    by_cases hn : n = e.1
    · have hnone : r.lookup n = none := by
        rw [List.lookup_eq_none_iff]
        intro x hx
        simpa [hn] using String.ne_of_lt (he x hx)
      rw [hnone, if_pos hn, if_pos hn, Option.none_or]
    · rw [if_neg hn, if_neg hn, List.lookup_nil, Option.or_none]

/-- Where each name stands once, the order of the entries makes no difference. -/
theorem lookup_eq_of_perm {l l' : List (String × β)} (h : l.Perm l') (hn : (l.map (·.1)).Nodup)
    (n : String) : l'.lookup n = l.lookup n := by
  induction h with
  | nil => rfl
  | cons e _ ih => rw [lookup_cons, lookup_cons, ih (List.nodup_cons.mp hn).2]
  | swap d e r =>
    have hne : e.1 ≠ d.1 := by
      intro he
      simp [he] at hn
    simp only [lookup_cons]
    grind
  | trans h₁ _ ih₁ ih₂ => exact (ih₂ ((h₁.map _).nodup_iff.mp hn)).trans (ih₁ hn)

theorem get?_overlay (m base : SortedMap β) (n : String) :
    (m.overlay base).get? n = (m.get? n).or (base.get? n) := by
  rw [overlay, get?_foldl_insert, lookup_reverse m.sorted]
  rfl

theorem get?_insertNew (m : SortedMap β) (k n : String) (v : β) :
    (m.insertNew k v).get? n = (m.get? n).or (if n = k then some v else none) := by
  rw [insertNew, contains]
  cases hk : m.get? k with
  | none =>
    rw [Option.isSome_none, if_neg Bool.false_ne_true, get?_insert]
    by_cases hn : n = k
    · rw [if_pos hn, if_pos hn, hn, hk, Option.none_or]
    · rw [if_neg hn, if_neg hn, Option.or_none]
  | some w =>
    rw [Option.isSome_some, if_pos rfl]
    by_cases hn : n = k
    · rw [hn, hk, Option.some_or]
    · rw [if_neg hn, Option.or_none]

theorem get?_foldl_insertNew (l : List (String × β)) (m : SortedMap β) (n : String) :
    (l.foldl (fun m e => m.insertNew e.1 e.2) m).get? n = (m.get? n).or (l.lookup n) := by
  induction l generalizing m with
  | nil => exact Option.or_none.symm
  | cons e r ih =>
    rw [List.foldl_cons, ih, get?_insertNew, Option.or_assoc, lookup_cons]
    congr 1
    split <;> rfl

theorem get?_fill (m base : SortedMap β) (n : String) :
    (m.fill base).get? n = (m.get? n).or (base.get? n) :=
  get?_foldl_insertNew base.entries m n

theorem lookup_filterMap_self (f : String → Option β) (names : List String) (n : String) :
    (names.filterMap fun k => (f k).map fun v => (k, v)).lookup n =
      if n ∈ names then f n else none := by
  induction names with
  | nil => rfl
  | cons k r ih =>
    by_cases hn : n = k
    · subst hn
      rw [if_pos List.mem_cons_self]
      cases hf : f n with
      | none =>
        rw [List.filterMap_cons_none (by rw [hf]; rfl), ih, hf]
        exact ite_self none
      | some v =>
        rw [List.filterMap_cons_some (by rw [hf]; rfl), lookup_cons, if_pos rfl]
    · have hmem : n ∈ k :: r ↔ n ∈ r := by simp [hn]
      simp only [hmem]
      cases hf : f k with
      | none => rw [List.filterMap_cons_none (by rw [hf]; rfl), ih]
      | some v =>
        rw [List.filterMap_cons_some (by rw [hf]; rfl), lookup_cons, if_neg hn, ih]

theorem get?_tabulate (names : List String) (f : String → Option β) (n : String) :
    (tabulate names f).get? n = if n ∈ names then f n else none := by
  rw [tabulate, get?_ofList, ← List.filterMap_reverse, lookup_filterMap_self]
  simp only [List.mem_reverse]

/-- A map whose values are worked out from the names. -/
theorem get?_ofList_map (f : String → β) (names : List String) (n : String) :
    (ofList (names.map fun k => (k, f k))).get? n = if n ∈ names then some (f n) else none := by
  rw [← get?_tabulate names fun k => some (f k), tabulate]
  simp only [Option.map_some, List.filterMap_eq_map']

theorem mem_keys {m : SortedMap β} {n : String} : n ∈ m.keys ↔ ∃ v, m.get? n = some v := by
  simp only [get?_eq_some_iff, keys, List.mem_map, Prod.exists]
  constructor
  · rintro ⟨a, v, h, rfl⟩; exact ⟨v, h⟩
  · rintro ⟨v, h⟩; exact ⟨n, v, h, rfl⟩

theorem get?_eq_none_of_not_mem {m : SortedMap β} {n : String} (h : n ∉ m.keys) :
    m.get? n = none := by
  cases hm : m.get? n with
  | none => rfl
  | some v => exact absurd (mem_keys.mpr ⟨v, hm⟩) h

theorem keys_nodup (m : SortedMap β) : m.keys.Nodup :=
  List.pairwise_map.mpr (m.sorted.imp String.ne_of_lt)

theorem mem_keys_insert {m : SortedMap β} {k n : String} {v : β} :
    n ∈ (m.insert k v).keys ↔ n = k ∨ n ∈ m.keys := by
  rw [mem_keys, mem_keys]
  by_cases h : n = k <;> simp [get?_insert, h]

theorem mem_keys_fill {m base : SortedMap β} {n : String} :
    n ∈ (m.fill base).keys ↔ n ∈ m.keys ∨ n ∈ base.keys := by
  simp only [mem_keys, get?_fill]
  cases m.get? n <;> simp

theorem isEmpty_eq_false_iff {m : SortedMap β} : m.isEmpty = false ↔ ∃ n, n ∈ m.keys := by
  obtain ⟨entries, _⟩ := m
  cases entries with
  | nil => simp [isEmpty, keys]
  | cons e r => exact ⟨fun _ => ⟨e.1, by simp [keys]⟩, fun _ => rfl⟩

theorem eq_of_lookup {l₁ l₂ : List (String × β)} (h₁ : l₁.Pairwise (fun a b => a.1 < b.1))
    (h₂ : l₂.Pairwise (fun a b => a.1 < b.1)) (h : ∀ n v, (n, v) ∈ l₁ ↔ (n, v) ∈ l₂) :
    l₁ = l₂ := by
  induction l₁ generalizing l₂ with
  | nil =>
    cases l₂ with
    | nil => rfl
    | cons e r => exact absurd ((h e.1 e.2).mpr (by simp)) (by simp)
  | cons a r ih =>
    cases l₂ with
    | nil => exact absurd ((h a.1 a.2).mp (by simp)) (by simp)
    | cons b s =>
      have ⟨ha, hr⟩ := List.pairwise_cons.mp h₁
      have ⟨hb, hs⟩ := List.pairwise_cons.mp h₂
      have hab : a = b := by
        rcases List.mem_cons.mp ((h a.1 a.2).mp (by simp)) with hab | hab
        · exact hab
        · rcases List.mem_cons.mp ((h b.1 b.2).mpr (by simp)) with hba | hba
          · exact hba.symm
          · exact absurd (String.lt_trans (ha _ hba) (hb _ hab)) (String.lt_irrefl _)
      subst hab
      congr 1
      refine ih hr hs fun n v => ?_
      have hn := h n v
      have h₁ : (n, v) ∈ r → (n, v) ≠ a := fun hm he => String.lt_irrefl _ (he ▸ ha _ hm)
      have h₂ : (n, v) ∈ s → (n, v) ≠ a := fun hm he => String.lt_irrefl _ (he ▸ hb _ hm)
      simp only [List.mem_cons] at hn
      exact ⟨fun hm => (hn.mp (.inr hm)).resolve_left (h₁ hm),
        fun hm => (hn.mpr (.inr hm)).resolve_left (h₂ hm)⟩

/-- Two maps that answer every look-up alike are equal. -/
theorem ext_get? {m₁ m₂ : SortedMap β} (h : ∀ n, m₁.get? n = m₂.get? n) : m₁ = m₂ := by
  obtain ⟨l₁, s₁⟩ := m₁
  obtain ⟨l₂, s₂⟩ := m₂
  have : l₁ = l₂ := eq_of_lookup s₁ s₂ fun n v => by
    have := h n
    rw [get?, get?] at this
    simp only at this
    rw [← lookup_eq_some_iff s₁, ← lookup_eq_some_iff s₂, this]
  subst this
  rfl

/-- To fill what a map lacks, or to lay it over what is there, comes to the same. -/
theorem fill_eq_overlay (m base : SortedMap β) : m.fill base = m.overlay base :=
  ext_get? fun n => by rw [get?_fill, get?_overlay]

/-- A map is that of its entries, in whatever order they are given. -/
theorem ofList_of_perm {m : SortedMap β} {l : List (String × β)} (h : m.entries.Perm l) :
    ofList l = m := by
  refine ext_get? fun n => ?_
  rw [get?_ofList, lookup_eq_of_perm (h.trans (List.reverse_perm l).symm) m.keys_nodup]
  rfl

theorem filter_insert_of_pos {m : SortedMap β} {p : String → β → Bool} {k : String} {v : β}
    (h : p k v = true) : (m.insert k v).filter p = (m.filter p).insert k v := by
  refine ext_get? fun n => ?_
  rw [get?_filter, get?_insert, get?_insert, get?_filter]
  split
  next hn => rw [hn, Option.filter_some, if_pos h]
  next => rfl

theorem filter_insert_of_neg {m : SortedMap β} {p : String → Bool} {k : String} {v : β}
    (h : p k = false) :
    (m.insert k v).filter (fun n _ => p n) = m.filter fun n _ => p n := by
  refine ext_get? fun n => ?_
  rw [get?_filter, get?_insert, get?_filter]
  split
  next hn => rw [hn]; cases m.get? k <;> simp [h, Option.filter]
  next => rfl

theorem mapValues_insert (f : β → γ) (m : SortedMap β) (k : String) (v : β) :
    (m.insert k v).mapValues f = (m.mapValues f).insert k (f v) := by
  refine ext_get? fun n => ?_
  rw [get?_mapValues, get?_insert, get?_insert, get?_mapValues]
  split <;> rfl

theorem eq_of_entries {m₁ m₂ : SortedMap β} (h : m₁.entries = m₂.entries) : m₁ = m₂ := by
  cases m₁; cases m₂; cases h; rfl

instance [DecidableEq β] : DecidableEq (SortedMap β) := fun m₁ m₂ =>
  decidable_of_iff (m₁.entries = m₂.entries) ⟨eq_of_entries, congrArg _⟩

end SortedMap

abbrev NameSet := SortedMap Unit

namespace NameSet

def ofNames (l : List String) : NameSet := SortedMap.ofList (l.map (·, ()))

def has (s : NameSet) (n : String) : Bool := SortedMap.contains s n

def names (s : NameSet) : List String := SortedMap.keys s

end NameSet

end ReplicaLag
