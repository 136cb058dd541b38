import Mathlib.Data.List.Nodup
import ReplicaLag.Json.Shape

/-!
The shapes of JSON values, told without the readers. A reader takes a shape if it reads the values
of that shape and no others (`Takes`). A record fits its fields if each member that is one of them
has its shape, whatever else stands there; a record may also be an array of its first fields.
-/

namespace ReplicaLag

namespace Json

def IsText (j : Json) : Prop := ∃ s, j = string s

def IsFlag (j : Json) : Prop := ∃ b, j = bool b

def IsNat64 (j : Json) : Prop := ∃ n, j = nat n

def IsNat32 (j : Json) : Prop := ∃ n : UInt64, j = nat n ∧ n.toNat < UInt32.size

def OrNull (shape : Json → Prop) (j : Json) : Prop := j = null ∨ shape j

def IsListOf (shape : Json → Prop) (j : Json) : Prop := ∃ xs, j = array xs ∧ ∀ x ∈ xs, shape x

def IsMapOf (shape : Json → Prop) (j : Json) : Prop := ∃ ms, j = object ms ∧ ∀ m ∈ ms, shape m.2

/-- A member that a record may have. -/
structure Field where
  name : String
  shape : Json → Prop

/-- No field is there in a wrong shape. Fields may be missing, and other members are no matter. -/
def Fits (fields : List Field) (ms : List (String × Json)) : Prop :=
  ∀ f ∈ fields, ∀ j, ms.lookup f.name = some j → f.shape j

/-- An object that fits the fields, or an array of the first fields in their order. -/
def IsRecord (fields : List Field) (j : Json) : Prop :=
  (∃ ms, j = object ms ∧ Fits fields ms) ∨
    ∃ xs, j = array xs ∧ xs.length ≤ fields.length ∧ ∀ p ∈ fields.zip xs, p.1.shape p.2

theorem fits_nil (ms : List (String × Json)) : Fits [] ms := fun _ hf => by cases hf

theorem fits_cons {f : Field} {fields : List Field} {ms : List (String × Json)} :
    Fits (f :: fields) ms ↔ (∀ j, ms.lookup f.name = some j → f.shape j) ∧ Fits fields ms :=
  List.forall_mem_cons

/-- The items of an array stand for the fields in their order. -/
theorem fits_zip {fields : List Field} (hn : (fields.map (·.name)).Nodup) (xs : List Json) :
    Fits fields ((fields.map (·.name)).zip xs) ↔ ∀ p ∈ fields.zip xs, p.1.shape p.2 := by
  induction fields generalizing xs with
  | nil => simp [fits_nil]
  | cons f r ih =>
    obtain ⟨hf, hr⟩ := List.nodup_cons.mp hn
    cases xs with
    | nil => simp [Fits]
    | cons x s =>
      have hfirst : (∀ j, (((f :: r).map (·.name)).zip (x :: s)).lookup f.name = some j →
          f.shape j) ↔ f.shape x := by simp
      -- no other field has the name of the first
      have hlater : Fits r (((f :: r).map (·.name)).zip (x :: s)) ↔
          Fits r ((r.map (·.name)).zip s) := by
        refine forall₂_congr fun g hg => ?_
        have hne : g.name ≠ f.name := fun h => hf (List.mem_map.mpr ⟨g, hg, h⟩)
        rw [List.map_cons, List.zip_cons_cons, SortedMap.lookup_cons, if_neg hne]
      rw [fits_cons, hfirst, hlater, ih hr, List.zip_cons_cons, List.forall_mem_cons]

/-- The reader reads the values of a shape and no others. -/
def Takes {α : Type} (read : Json → Option α) (shape : Json → Prop) : Prop :=
  ∀ j, (read j).isSome = true ↔ shape j

theorem takes_toString? : Takes toString? IsText := fun j => by
  cases j <;> simp [toString?, IsText]

theorem takes_toBool? : Takes toBool? IsFlag := fun j => by
  cases j <;> simp [toBool?, IsFlag]

theorem takes_toNat64? : Takes toNat64? IsNat64 := fun j => by
  rcases j with _ | _ | ⟨_ | _ | _⟩ | _ | _ | _ <;> simp [toNat64?, IsNat64, nat]

theorem takes_toNat32? : Takes toNat32? IsNat32 := fun j => by
  rcases j with _ | _ | ⟨_ | _ | _⟩ | _ | _ | _ <;> simp [toNat32?, IsNat32, nat]

theorem isSome_mapM_iff {α β : Type} {f : α → Option β} {xs : List α} :
    (xs.mapM f).isSome = true ↔ ∀ x ∈ xs, (f x).isSome = true := by
  induction xs with
  | nil => simp
  | cons x r ih =>
    rw [List.forall_mem_cons, ← ih, List.mapM_cons]
    cases f x <;> cases r.mapM f <;> simp

section Takes

variable {α : Type} {read : Json → Option α} {shape : Json → Prop}

theorem Takes.toOption? (h : Takes read shape) : Takes (toOption? read) (OrNull shape) := by
  intro j
  cases j <;> simp [Json.toOption?, OrNull, h _]

theorem Takes.toList? (h : Takes read shape) : Takes (toList? read) (IsListOf shape) := by
  intro j
  cases j <;> simp [Json.toList?, IsListOf, isSome_mapM_iff, h _]

theorem Takes.toMap? (h : Takes read shape) : Takes (toMap? read) (IsMapOf shape) := by
  intro j
  cases j <;> simp [Json.toMap?, IsMapOf, isSome_mapM_iff, h _]

theorem takes_toNames? : Takes toNames? (IsListOf IsText) := fun j => by
  rw [toNames?, Option.isSome_map]
  exact takes_toString?.toList? j

/-- A reader that begins with a field, which may be missing, gets past it unless the field is there
in a wrong shape. -/
theorem Takes.field (h : Takes read shape) {β : Type} {ms : List (String × Json)} {name : String}
    {d : α} {rest : α → Option β} {fields : List Field}
    (hrest : ∀ a, (rest a).isSome = true ↔ Fits fields ms) :
    (defaulted ms name d read >>= rest).isSome = true ↔ Fits (⟨name, shape⟩ :: fields) ms := by
  rw [fits_cons]
  unfold defaulted
  cases ms.lookup name with
  | none => simp [hrest d]
  | some j =>
    simp only [Option.some.injEq, forall_eq']
    rw [← h j]
    cases read j with
    | none => simp
    | some a => simp [hrest a]

theorem fits_end {a : α} {ms : List (String × Json)} : (some a).isSome = true ↔ Fits [] ms :=
  iff_of_true rfl (fits_nil ms)

/-- A record is read out of its members if these fit. -/
theorem takes_record {fields : List Field} (hn : (fields.map (·.name)).Nodup)
    {rest : List (String × Json) → Option α}
    (h : ∀ ms, (rest ms).isSome = true ↔ Fits fields ms) :
    Takes (fun j => j.members? .exact (fields.map (·.name)) >>= rest) (IsRecord fields) := by
  intro j
  cases j with
  | object ms => simp [IsRecord, members?, h]
  | array xs =>
    by_cases hlength : xs.length ≤ fields.length
    · simp [IsRecord, members?, hlength, h, fits_zip hn]
    · simp [IsRecord, members?, hlength]
  | null | bool | number | string => simp [IsRecord, members?]

end Takes

end Json

end ReplicaLag
