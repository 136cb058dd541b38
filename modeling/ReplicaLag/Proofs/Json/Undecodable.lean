import ReplicaLag.Proofs.Json.Shapes
import ReplicaLag.Request.Codec

/-!
Values that are no request. A request is asked for by its kind; then it has the members of the
envelope and those of the kind, and none of them may have a wrong shape. Main statement: what asks
for no known kind fails as an unknown message, what cannot be read or has a member of a wrong shape
fails as a database error, all else is a request, and no other member has a part in it.
-/

namespace ReplicaLag

open Json (Field Fits IsText IsFlag IsNat64 IsNat32 IsListOf IsMapOf OrNull Takes)

theorem Columns.takes_ofJson? : Takes ofJson? (IsMapOf fun _ => True) :=
  Takes.toMap? fun _ => by simp

namespace WriteConcern

def fields : List Field :=
  [⟨"ack_count", IsNat32⟩, ⟨"tag_set", OrNull IsText⟩, ⟨"journaling", IsFlag⟩,
    ⟨"timeout_ms", IsNat64⟩]

theorem takes_ofJson? : Takes ofJson? (Json.IsRecord fields) := by
  have hn : (fields.map (·.name)).Nodup := by decide
  refine Json.takes_record hn fun ms => ?_
  exact Json.takes_toNat32?.field fun _ => Json.takes_toString?.toOption?.field fun _ =>
    Json.takes_toBool?.field fun _ => Json.takes_toNat64?.field fun _ => Json.fits_end

end WriteConcern

namespace ReadPreference

/-- The name of a preference, or an object with one member of that name that says nothing. -/
def IsNamed (j : Json) : Prop :=
  ∃ p : ReadPreference, j = .string p.name ∨ j = .object [(p.name, .null)] ∨
    j = .object [(p.name, .object [])]

theorem isSome_ofName?_iff {s : String} :
    (ofName? s).isSome = true ↔ ∃ p : ReadPreference, s = p.name := by
  constructor
  · intro h
    obtain ⟨p, hp⟩ := Option.isSome_iff_exists.mp h
    rw [ofName?] at hp
    have hname := List.find?_some hp
    exact ⟨p, (of_decide_eq_true hname).symm⟩
  · rintro ⟨p, rfl⟩
    rw [ofName?_name]
    rfl

theorem takes_ofJson? : Takes ofJson? IsNamed := by
  intro j
  unfold ofJson?
  split
  · simp [isSome_ofName?_iff, IsNamed]
  · simp [isSome_ofName?_iff, IsNamed]
  · simp [isSome_ofName?_iff, IsNamed]
  next hstring hnull hempty =>
    refine iff_of_false Bool.noConfusion ?_
    rintro ⟨p, rfl | rfl | rfl⟩
    · exact hstring _ rfl
    · exact hnull _ rfl
    · exact hempty _ rfl

end ReadPreference

namespace Action

def keyField : Field := ⟨"key", OrNull IsText⟩

def valuesField : Field := ⟨"values", IsMapOf fun _ => True⟩

def concernField : Field := ⟨"write_concern", Json.IsRecord WriteConcern.fields⟩

def fieldsField : Field := ⟨"fields", OrNull (IsListOf IsText)⟩

def preferenceField : Field := ⟨"read_preference", ReadPreference.IsNamed⟩

/-- The members that belong to a kind. -/
def fieldsOf : String → List Field
  | "insert" | "update" => [keyField, valuesField, concernField]
  | "delete" => [keyField, concernField]
  | "read" => [keyField, fieldsField, preferenceField]
  | "scan" =>
    [keyField, ⟨"record_count", IsNat64⟩, ⟨"ascending", IsFlag⟩, fieldsField, preferenceField]
  | _ => []

theorem isSome_ofMembers?_iff {kind : String} (hk : kind ∈ names) (ms : List (String × Json)) :
    (ofMembers? kind ms).isSome = true ↔ Fits (fieldsOf kind) ms := by
  have hkey := Json.takes_toString?.toOption?
  have hvalues := Columns.takes_ofJson?
  have hconcern := WriteConcern.takes_ofJson?
  have hfields := Json.takes_toNames?.toOption?
  have hpreference := ReadPreference.takes_ofJson?
  simp only [names, List.mem_cons, List.not_mem_nil, or_false] at hk
  rcases hk with rfl | rfl | rfl | rfl | rfl
  · exact hkey.field fun _ => hvalues.field fun _ => hconcern.field fun _ => Json.fits_end
  · exact hkey.field fun _ => hvalues.field fun _ => hconcern.field fun _ => Json.fits_end
  · exact hkey.field fun _ => hconcern.field fun _ => Json.fits_end
  · exact hkey.field fun _ => hfields.field fun _ => hpreference.field fun _ => Json.fits_end
  · exact hkey.field fun _ => Json.takes_toNat64?.field fun _ => Json.takes_toBool?.field fun _ =>
      hfields.field fun _ => hpreference.field fun _ => Json.fits_end

/-- An action is read out of the members that belong to its kind. -/
theorem ofMembers?_congr {kind : String} {ms ns : List (String × Json)}
    (h : ∀ f ∈ fieldsOf kind, ms.lookup f.name = ns.lookup f.name) (hk : kind ∈ names) :
    ofMembers? kind ms = ofMembers? kind ns := by
  simp only [names, List.mem_cons, List.not_mem_nil, or_false] at hk
  rcases hk with rfl | rfl | rfl | rfl | rfl <;>
    simp only [fieldsOf, keyField, valuesField, concernField, fieldsField, preferenceField,
      List.forall_mem_cons] at h <;>
    simp [ofMembers?, Json.defaulted, h]

end Action

namespace Request

/-- The members that belong to the envelope, and those that belong to a kind. -/
def fieldsOf (kind : String) : List Field :=
  [⟨"id", IsNat64⟩, ⟨"table", IsText⟩, ⟨"client", OrNull IsText⟩,
    ⟨"destination_node", OrNull IsText⟩, ⟨"sent_by_client_at", IsNat64⟩,
    ⟨"received_at", IsNat64⟩] ++ Action.fieldsOf kind

theorem isSome_ofMembers?_iff {kind : String} (hk : kind ∈ Action.names)
    (ms : List (String × Json)) :
    (ofMembers? kind ms).isSome = true ↔ Fits (fieldsOf kind) ms := by
  have hname := Json.takes_toString?.toOption?
  refine Json.takes_toNat64?.field fun _ => Json.takes_toString?.field fun _ =>
    hname.field fun _ => hname.field fun _ => Json.takes_toNat64?.field fun _ =>
    Json.takes_toNat64?.field fun _ => ?_
  refine Iff.trans ?_ (Action.isSome_ofMembers?_iff hk ms)
  cases Action.ofMembers? kind ms <;> simp

theorem ofMembers?_congr {kind : String} {ms ns : List (String × Json)}
    (h : ∀ f ∈ fieldsOf kind, ms.lookup f.name = ns.lookup f.name) (hk : kind ∈ Action.names) :
    ofMembers? kind ms = ofMembers? kind ns := by
  obtain ⟨henvelope, haction⟩ := List.forall_mem_append.mp h
  simp only [List.forall_mem_cons] at henvelope
  simp [ofMembers?, Json.defaulted, henvelope, Action.ofMembers?_congr haction hk]

/-- The value is an object with these members, and asks for something of a known kind. -/
structure Asks (j : Json) (kind : String) (ms : List (String × Json)) : Prop where
  isObject : j = .object ms
  ofKind : ms.lookup "kind" = some (.string kind)
  known : kind ∈ Action.names

/-- A failure of some kind. -/
def FailsAs (x : Except Refusal Request) (kind : FaultKind) : Prop :=
  ∃ e, x = .error e ∧ e.kind = kind

theorem FailsAs.unique {x : Except Refusal Request} {a b : FaultKind} (ha : FailsAs x a)
    (hb : FailsAs x b) : a = b := by
  obtain ⟨d, rfl, rfl⟩ := ha
  obtain ⟨e, he, rfl⟩ := hb
  exact congrArg Refusal.kind (Except.error.inj he)

theorem FailsAs.not_ok {x : Except Refusal Request} {kind : FaultKind} (h : FailsAs x kind) :
    ¬ ∃ r, x = .ok r := by
  obtain ⟨e, rfl, _⟩ := h
  rintro ⟨r, hr⟩
  cases hr

variable {j : Json} {kind : String} {ms ns : List (String × Json)}

theorem kindOf?_eq_some_iff :
    kindOf? (.object ms) = some kind ↔ ms.lookup "kind" = some (.string kind) := by
  rw [kindOf?, Json.member?, Option.bind_eq_some_iff]
  constructor
  · rintro ⟨k, hk, hs⟩
    cases k with
    | string s => cases hs; exact hk
    | _ => cases hs
  · exact fun h => ⟨_, h, rfl⟩

theorem Asks.unique {other : String} (h : Asks j kind ms) (h' : Asks j other ns) :
    kind = other ∧ ms = ns := by
  obtain rfl := Json.object.inj (h.isObject.symm.trans h'.isObject)
  exact ⟨Json.string.inj (Option.some.inj (h.ofKind.symm.trans h'.ofKind)), rfl⟩

theorem ofJson_of_asks (h : Asks j kind ms) :
    ofJson j = match ofMembers? kind ms with
      | some r => .ok r
      | none => .error .malformed := by
  obtain ⟨rfl, hkind, hknown⟩ := h
  have hkindOf : kindOf? (.object ms) = some kind := kindOf?_eq_some_iff.mpr hkind
  cases hms : ofMembers? kind ms <;> simp only [ofJson, hkindOf, hknown, if_true, hms]

theorem ofJson_of_not_asks (h : ∀ kind ms, ¬ Asks j kind ms) :
    FailsAs (ofJson j) .unknownMessageType := by
  unfold ofJson
  split
  next ms kind hkind =>
    rw [if_neg fun hknown => h kind ms ⟨rfl, kindOf?_eq_some_iff.mp hkind, hknown⟩]
    exact ⟨_, rfl, rfl⟩
  next => exact ⟨_, rfl, rfl⟩

/-- Only the kind and the members that belong to it are looked at. -/
theorem ofJson_congr (hkind : ms.lookup "kind" = ns.lookup "kind")
    (h : ∀ kind, Asks (.object ms) kind ms →
      ∀ f ∈ fieldsOf kind, ms.lookup f.name = ns.lookup f.name) :
    ofJson (.object ms) = ofJson (.object ns) := by
  have hkindOf : kindOf? (.object ns) = kindOf? (.object ms) :=
    congrArg (Option.bind · Json.toString?) hkind.symm
  simp only [ofJson, hkindOf]
  cases hk : kindOf? (.object ms) with
  | none => rfl
  | some kind =>
    by_cases hknown : kind ∈ Action.names
    · have hasks : Asks (.object ms) kind ms := ⟨rfl, kindOf?_eq_some_iff.mp hk, hknown⟩
      simp only [ofMembers?_congr (h kind hasks) hknown]
    · simp only [hknown, if_false]

/-- What becomes of a value: it asks for nothing known, has a member of a wrong shape, or is a
request. -/
theorem ofJson_cases (j : Json) :
    ((∀ kind ms, ¬ Asks j kind ms) ∧ FailsAs (ofJson j) .unknownMessageType) ∨
      ∃ kind ms, Asks j kind ms ∧
        (¬ Fits (fieldsOf kind) ms ∧ FailsAs (ofJson j) .database ∨
          Fits (fieldsOf kind) ms ∧ ∃ r, ofJson j = .ok r) := by
  by_cases h : ∃ kind ms, Asks j kind ms
  · obtain ⟨kind, ms, hasks⟩ := h
    refine .inr ⟨kind, ms, hasks, ?_⟩
    rw [ofJson_of_asks hasks, ← isSome_ofMembers?_iff hasks.known]
    cases ofMembers? kind ms with
    | none => exact .inl ⟨Bool.false_ne_true, _, rfl, rfl⟩
    | some r => exact .inr ⟨rfl, r, rfl⟩
  · have hnone : ∀ kind ms, ¬ Asks j kind ms := fun kind ms hasks => h ⟨kind, ms, hasks⟩
    exact .inl ⟨hnone, ofJson_of_not_asks hnone⟩

/-- A value that asks for nothing known fails as an unknown message, whatever else is wrong with it;
one of a known kind fails as a database error if and only if some member of its envelope or of its
kind has a wrong shape, and is a request if none has. A text fails as its value does, or as a
database error if it has none. Members that belong neither to the envelope nor to the kind may be
anything. -/
theorem decoding_classified :
    (∀ j : Json,
      (FailsAs (ofJson j) .unknownMessageType ↔ ∀ kind ms, ¬ Asks j kind ms) ∧
      (FailsAs (ofJson j) .database ↔ ∃ kind ms, Asks j kind ms ∧ ¬ Fits (fieldsOf kind) ms) ∧
      ((∃ r, ofJson j = .ok r) ↔ ∃ kind ms, Asks j kind ms ∧ Fits (fieldsOf kind) ms)) ∧
    (∀ text : String,
      (FailsAs (ofText text) .unknownMessageType ↔
        ∃ j, Json.read? text = some j ∧ FailsAs (ofJson j) .unknownMessageType) ∧
      (FailsAs (ofText text) .database ↔
        Json.read? text = none ∨ ∃ j, Json.read? text = some j ∧ FailsAs (ofJson j) .database) ∧
      ∀ r, ofText text = .ok r ↔ ∃ j, Json.read? text = some j ∧ ofJson j = .ok r) ∧
    ∀ ms ns : List (String × Json), ms.lookup "kind" = ns.lookup "kind" →
      (∀ kind, Asks (.object ms) kind ms →
        ∀ f ∈ fieldsOf kind, ms.lookup f.name = ns.lookup f.name) →
      ofJson (.object ms) = ofJson (.object ns) := by
  refine ⟨fun j => ?_, fun text => ?_, fun ms ns => ofJson_congr⟩
  · have hunknown : FaultKind.unknownMessageType ≠ .database := by decide
    rcases ofJson_cases j with ⟨hnone, hfails⟩ | ⟨kind, ms, hasks, ⟨hbad, hfails⟩ | ⟨hfits, hok⟩⟩
    · refine ⟨iff_of_true hfails hnone, iff_of_false ?_ ?_, iff_of_false hfails.not_ok ?_⟩
      · exact fun h => hunknown (hfails.unique h)
      · exact fun ⟨kind, ms, hasks, _⟩ => hnone kind ms hasks
      · exact fun ⟨kind, ms, hasks, _⟩ => hnone kind ms hasks
    · refine ⟨iff_of_false ?_ fun h => h kind ms hasks, iff_of_true hfails ⟨kind, ms, hasks, hbad⟩,
        iff_of_false hfails.not_ok ?_⟩
      · exact fun h => hunknown (h.unique hfails)
      · rintro ⟨other, ns, hasks', hfits⟩
        obtain ⟨rfl, rfl⟩ := hasks.unique hasks'
        exact hbad hfits
    · refine ⟨iff_of_false ?_ fun h => h kind ms hasks, iff_of_false ?_ ?_,
        iff_of_true hok ⟨kind, ms, hasks, hfits⟩⟩
      · exact fun h => h.not_ok hok
      · exact fun h => h.not_ok hok
      · rintro ⟨other, ns, hasks', hbad⟩
        obtain ⟨rfl, rfl⟩ := hasks.unique hasks'
        exact hbad hfits
  · unfold ofText
    cases Json.read? text with
    | none => simp [FailsAs, Refusal.kind]
    | some j => simp

/-- A read has no values, so nothing can be wrong with them. -/
theorem values_of_read_are_passed_over :
    let read : List (String × Json) := [("kind", .string "read"), ("key", .string "k")]
    let ms := ("values", Json.nat 3) :: read
    ms.lookup "kind" = read.lookup "kind" ∧
      (∀ kind, Asks (.object ms) kind ms →
        ∀ f ∈ fieldsOf kind, ms.lookup f.name = read.lookup f.name) ∧
      ofJson (.object ms) = ofJson (.object read) := by
  intro read ms
  have hsame : ∀ kind, Asks (.object ms) kind ms →
      ∀ f ∈ fieldsOf kind, ms.lookup f.name = read.lookup f.name := by
    intro kind hasks f hf
    obtain rfl : "read" = kind := Json.string.inj (Option.some.inj hasks.ofKind)
    have hforeign : ∀ f ∈ fieldsOf "read", f.name ≠ "values" := by decide
    exact (SortedMap.lookup_cons _ _ _).trans (if_neg (hforeign f hf))
  exact ⟨rfl, hsame, decoding_classified.2.2 ms read rfl hsame⟩

-- values of the wrong shape are a member of an insert
example :
    ofJson (.object [("kind", .string "insert"), ("values", .nat 3)]) = .error .malformed := by
  rfl

end Request

end ReplicaLag
