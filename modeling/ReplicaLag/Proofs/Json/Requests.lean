import ReplicaLag.Proofs.Json.Reordered
import ReplicaLag.Request.Codec

/-!
Requests and their JSON. What is written of a request, of its write concern or its read preference
is read back. Main statement: so is the request itself, in whatever order the members of its objects
come.
-/

namespace ReplicaLag

open Json (Undoes Agree undoes_toString? undoes_toBool? undoes_toNat64? undoes_toNat32?
  undoes_toNames?)

theorem Json.undoes_toText? : Undoes (Json.toOption? Json.toString?) (Json.ofOption .string) :=
  undoes_toString?.toOption? fun _ => Json.noConfusion

theorem Json.undoes_toFields? : Undoes (Json.toOption? Json.toNames?) (Json.ofOption .ofNames) :=
  undoes_toNames?.toOption? fun _ => Json.noConfusion

theorem WriteConcern.undoes : Undoes ofJson? toJson := by
  intro c j h
  obtain ⟨ms, rfl, hms⟩ := h.agree (by simp)
  have hacks := hms.defaulted "ack_count" undoes_toNat32? rfl 1
  have htagSet := hms.defaulted "tag_set" Json.undoes_toText? rfl none
  have hjournaling := hms.defaulted "journaling" undoes_toBool? rfl false
  have htimeout := hms.defaulted "timeout_ms" undoes_toNat64? rfl 0
  simp only [ofJson?, Json.members?, Option.bind_some, Option.bind_eq_bind, hacks, htagSet,
    hjournaling, htimeout]
  rfl

theorem ReadPreference.undoes : Undoes ofJson? toJson := by
  rintro p _ ⟨⟩
  exact ofName?_name p

namespace Request

/-- The members of a request, as they are written. -/
def members (r : Request) : List (String × Json) :=
  [("id", .nat r.id), ("table", .string r.table), ("client", .ofOption .string r.client),
    ("destination_node", .ofOption .string r.destination), ("sent_by_client_at", .nat r.sentAt),
    ("received_at", .nat r.receivedAt), ("kind", .string r.action.name)] ++ r.action.toMembers

variable {r : Request} {ms : List (String × Json)}

theorem members_nodup (r : Request) : (r.members.map (·.1)).Nodup := by
  cases ha : r.action <;> simp [members, ha, Action.toMembers]

/-- Each action finds the members that belong to it. -/
theorem action_of_agree (h : Agree r.members ms) :
    Action.ofMembers? r.action.name ms = some r.action := by
  rcases r with ⟨action, _⟩
  cases action with
  | insert key values concern | update key values concern =>
    have hkey := h.defaulted "key" Json.undoes_toText? rfl none
    have hvalues := h.defaulted_columns rfl SortedMap.empty
    have hconcern := h.defaulted "write_concern" WriteConcern.undoes rfl {}
    simp [Action.ofMembers?, Action.name, hkey, hvalues, hconcern]
  | delete key concern =>
    have hkey := h.defaulted "key" Json.undoes_toText? rfl none
    have hconcern := h.defaulted "write_concern" WriteConcern.undoes rfl {}
    simp [Action.ofMembers?, Action.name, hkey, hconcern]
  | read key fields preference =>
    have hkey := h.defaulted "key" Json.undoes_toText? rfl none
    have hfields := h.defaulted "fields" Json.undoes_toFields? rfl none
    have hpreference := h.defaulted "read_preference" ReadPreference.undoes rfl .primary
    simp [Action.ofMembers?, Action.name, hkey, hfields, hpreference]
  | scan key count ascending fields preference =>
    have hkey := h.defaulted "key" Json.undoes_toText? rfl none
    have hcount := h.defaulted "record_count" undoes_toNat64? rfl 0
    have hascending := h.defaulted "ascending" undoes_toBool? rfl true
    have hfields := h.defaulted "fields" Json.undoes_toFields? rfl none
    have hpreference := h.defaulted "read_preference" ReadPreference.undoes rfl .primary
    simp [Action.ofMembers?, Action.name, hkey, hcount, hascending, hfields, hpreference]

theorem ofMembers?_of_agree (h : Agree r.members ms) :
    ofMembers? r.action.name ms = some r := by
  have hid := h.defaulted "id" undoes_toNat64? rfl 0
  have htable := h.defaulted "table" undoes_toString? rfl ""
  have hclient := h.defaulted "client" Json.undoes_toText? rfl none
  have hdestination := h.defaulted "destination_node" Json.undoes_toText? rfl none
  have hsentAt := h.defaulted "sent_by_client_at" undoes_toNat64? rfl 0
  have hreceivedAt := h.defaulted "received_at" undoes_toNat64? rfl 0
  simp only [ofMembers?, hid, htable, hclient, hdestination, hsentAt, hreceivedAt,
    action_of_agree h]
  rfl

/-- A request is read back from the JSON object that is written of it, and from any other that has
the members of it and of its write concern in other orders; so it is from every text that says
so. -/
theorem ofJson_of_reordered {r : Request} {j : Json} (h : r.toJson.Reordered j) :
    ofJson j = .ok r ∧ ∀ text, Json.read? text = some j → ofText text = .ok r := by
  have hj : ofJson j = .ok r := by
    obtain ⟨ms, rfl, hms⟩ := h.agree r.members_nodup
    have hkind : kindOf? (.object ms) = some r.action.name :=
      hms.required "kind" undoes_toString? rfl
    have hknown : r.action.name ∈ Action.names := by
      cases r.action <;> simp [Action.name, Action.names]
    simp only [ofJson, hkind, hknown, if_true, ofMembers?_of_agree hms]
  refine ⟨hj, fun text htext => ?_⟩
  simp only [ofText, htext, hj]

/-- All members in the order of their names. -/
theorem sorted_insert_is_read :
    let r : Request := {
      action := .insert (some "k") (.ofList [("v", .array [.nat 1, .object [("w", .null)]])])
        { tagSet := some "east", timeout := 9 }
      table := "t", destination := some "n1" }
    let concern : Json := .object [("ack_count", .nat 1), ("journaling", .bool false),
      ("tag_set", .string "east"), ("timeout_ms", .nat 9)]
    let j : Json := .object [("client", .null), ("destination_node", .string "n1"), ("id", .nat 0),
      ("key", .string "k"), ("kind", .string "insert"), ("received_at", .nat 0),
      ("sent_by_client_at", .nat 0), ("table", .string "t"),
      ("values", .object [("v", .array [.nat 1, .object [("w", .null)]])]),
      ("write_concern", concern)]
    r.toJson.Reordered j ∧ ofJson j = .ok r := by
  intro r concern j
  have hconcern : (WriteConcern.toJson { tagSet := some "east", timeout := 9 }).Reordered concern :=
    .object (List.forall₂_same.mpr fun m _ => .same m) (.cons _ (.swap ..))
  let others := r.members.dropLast
  have hmembers : List.Forall₂ Json.ReorderedMember r.members
      (others ++ [("write_concern", concern)]) :=
    List.rel_append (List.forall₂_same.mpr fun m (_ : m ∈ others) => .same m)
      (.cons (.inside (by simp) hconcern) .nil)
  have horder : [0, 1, 2, 3, 4, 5, 6, 7, 8, 9].Perm [2, 3, 0, 7, 6, 5, 4, 1, 8, 9] := by decide
  have hj : r.toJson.Reordered j := .object hmembers
    (horder.map fun i => (others ++ [("write_concern", concern)]).getD i ("", .null))
  exact ⟨hj, (ofJson_of_reordered hj).1⟩

end Request

end ReplicaLag
