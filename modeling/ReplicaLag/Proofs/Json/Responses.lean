import ReplicaLag.Proofs.Json.Reordered
import ReplicaLag.Response.Codec

/-!
Responses and their JSON. Versions are written with all that is known of them: who wrote them and
when, and how long they take to each node. Main statement: a response is read back with all of that,
so a client makes of it what it would have made of the response itself.
-/

namespace ReplicaLag

open Json (Undoes undoes_toString? undoes_toTag? undoes_toBool? undoes_toNat64? undoes_toNames?)

theorem Node.undoes : Undoes ofJson? toJson := by
  intro n j h
  obtain ⟨ms, rfl, hms⟩ := h.agree (by simp)
  have hname := hms.required "name" undoes_toString? rfl
  have htags := hms.required "tags" undoes_toNames? rfl
  have hprimary := hms.required "is_primary" undoes_toBool? rfl
  simp [ofJson?, Json.members?, hname, htags, hprimary]

theorem Visibility.undoes : Undoes ofJson? toJson := by
  intro v j h
  obtain ⟨ms, rfl, hms⟩ := h.agree (by simp)
  have hdelays := hms.required "delays" undoes_toNat64?.toMap? rfl
  simp [ofJson?, Json.members?, hdelays]

/-- A version with its writer, its moment and its delays. -/
theorem Version.undoes : Undoes ofJson? toJson := by
  intro v j h
  obtain ⟨ms, rfl, hms⟩ := h.agree (by simp)
  have hvalues := hms.required_columns rfl
  have hwrittenAt := hms.required "written_at" undoes_toNat64? rfl
  have hwrittenBy := hms.defaulted "written_by"
    (Node.undoes.toOption? fun _ => Json.noConfusion) rfl none
  have hvisibility := hms.required "visibility" Visibility.undoes rfl
  have hnull := hms.required "is_null" undoes_toBool? rfl
  simp [ofJson?, Json.members?, hvalues, hwrittenAt, hwrittenBy, hvisibility, hnull]

theorem Record.undoes : Undoes ofJson? toJson := by
  intro x j h
  obtain ⟨ms, rfl, hms⟩ := h.agree (by simp)
  have hkey := hms.required "key" undoes_toString? rfl
  have hversion := hms.required "version" Version.undoes rfl
  simp [ofJson?, Json.members?, hkey, hversion]

theorem FaultKind.undoes : Undoes ofJson? toJson := by
  rintro k _ ⟨⟩
  exact ofName?_name k

theorem Fault.undoes : Undoes ofJson? toJson := by
  intro f j h
  obtain ⟨ms, rfl, hms⟩ := h.agree (by simp)
  have hkind := hms.required "kind" FaultKind.undoes rfl
  have hmessage := hms.required "message" undoes_toString? rfl
  simp [ofJson?, Json.members?, hkind, hmessage]

namespace Body

variable {ms : List (String × Json)} {kind : String}

/-- An object with a tag is a body of that kind. -/
theorem ofJson?_of_kind (h : Json.required ms "kind" Json.toTag? = some kind) :
    ofJson? (.object ms) = ofPayload? kind (ms.lookup "payload") := by
  rw [ofJson?, h]
  rfl

theorem undoes : Undoes ofJson? toJson := by
  intro b j h
  obtain ⟨ms, rfl, hms⟩ := h.agree (by cases b <;> simp)
  have hkind := hms.required "kind" undoes_toTag? rfl
  rw [ofJson?_of_kind hkind]
  cases b with
  | insert | update | delete =>
    rw [hms.lookup_eq_none "payload" rfl]
    rfl
  | read v =>
    obtain ⟨payload, hpayload, hread⟩ := hms.found "payload" Version.undoes rfl
    simp [hpayload, ofPayload?, name, hread]
  | scan rs =>
    obtain ⟨payload, hpayload, hread⟩ := hms.found "payload" Record.undoes.toList? rfl
    simp [hpayload, ofPayload?, name, hread]
  | exception f =>
    obtain ⟨payload, hpayload, hread⟩ := hms.found "payload" Fault.undoes rfl
    simp [hpayload, ofPayload?, name, hread]

/-- A body has failed with the fault it carries, or has come as it is. -/
theorem result_eq_error_iff {b : Body} {f : Fault} : b.result = .error f ↔ b = exception f := by
  cases b <;> simp [result]

theorem result_eq_ok_iff {b c : Body} : b.result = .ok c ↔ b = c ∧ b.isException = false := by
  cases b <;> simp [result, isException, fault?]

end Body

namespace Response

theorem undoes : Undoes ofJson? toJson := by
  intro a j h
  obtain ⟨ms, rfl, hms⟩ := h.agree (by simp)
  have hrequest := hms.required "client_request_id" undoes_toNat64? rfl
  have hresponse := hms.required "response_id" undoes_toNat64? rfl
  have hsentAt := hms.required "sent_by_client_at" undoes_toNat64? rfl
  have hwait := hms.required "wait_timeout_ms" undoes_toNat64? rfl
  have hbody := hms.required "body" Body.undoes rfl
  simp [ofJson?, Json.members?, hrequest, hresponse, hsentAt, hwait, hbody]

/-- A response is read back whole from the JSON object that is written of it, the writers, moments
and delays of its versions included. What is read fails with the fault that was written, and if none
was, comes to the body that was. -/
theorem ofJson?_of_reordered {a : Response} {j : Json} (h : a.toJson.Reordered j) :
    ofJson? j = some a ∧ ∀ b, ofJson? j = some b →
      (∀ f, b.body.result = .error f ↔ a.body = .exception f) ∧
      ∀ body, b.body.result = .ok body ↔ a.body = body ∧ a.body.isException = false := by
  have hj : ofJson? j = some a := undoes a j h
  refine ⟨hj, fun b hb => ?_⟩
  obtain rfl : b = a := Option.some.inj (hb.symm.trans hj)
  exact ⟨fun _ => Body.result_eq_error_iff, fun _ => Body.result_eq_ok_iff⟩

/-- A scan whose version, its writer and the response itself have their members turned round. -/
theorem turned_scan_is_read :
    let n : Node := { name := "p", tags := .ofNames ["east", "ssd"], isPrimary := true }
    let v : Version := {
      values := .ofList [("v", .array [.nat 1, .null])], writtenAt := 5, writtenBy := some n
      visibility := .ofList [("s", 7), ("p", 0)] }
    let a : Response := {
      requestId := 3, responseId := 9, sentAt := 1, wait := 4, body := .scan [⟨"k", v⟩] }
    let writer : Json := .object [("is_primary", .bool true),
      ("tags", .array [.string "east", .string "ssd"]), ("name", .string "p")]
    let version : Json := .object [("is_null", .bool false),
      ("visibility", .object [("delays", .object [("p", .nat 0), ("s", .nat 7)])]),
      ("written_by", writer), ("written_at", .nat 5),
      ("values", .object [("v", .array [.nat 1, .null])])]
    let payload : Json := .array [.object [("key", .string "k"), ("version", version)]]
    let j : Json := .object [("body", .object [("kind", .string "scan"), ("payload", payload)]),
      ("wait_timeout_ms", .nat 4), ("sent_by_client_at", .nat 1), ("response_id", .nat 9),
      ("client_request_id", .nat 3)]
    a.toJson.Reordered j ∧ ofJson? j = some a ∧ a.body.result = .ok a.body := by
  intro n v a writer version payload j
  have same (m : String × Json) : Json.ReorderedMember m m := .same m
  have hwriter : n.toJson.Reordered writer :=
    .object (List.forall₂_same.mpr fun m _ => same m) (List.reverse_perm _).symm
  have hversion : v.toJson.Reordered version :=
    .object (.cons (same _) (.cons (same _) (.cons (.inside (by simp) hwriter)
      (.cons (same _) (.cons (same _) .nil))))) (List.reverse_perm _).symm
  have hrecord : (Record.toJson ⟨"k", v⟩).Reordered
      (.object [("key", .string "k"), ("version", version)]) :=
    .object (.cons (same _) (.cons (.inside (by simp) hversion) .nil)) (.refl _)
  have hpayload : Json.Reordered (.array [Record.toJson ⟨"k", v⟩]) payload :=
    .array (.cons hrecord .nil)
  have hbody : a.body.toJson.Reordered (.object [("kind", .string "scan"), ("payload", payload)]) :=
    .object (.cons (same _) (.cons (.inside (by simp) hpayload) .nil)) (.refl _)
  have hj : a.toJson.Reordered j :=
    .object (.cons (same _) (.cons (same _) (.cons (same _) (.cons (same _)
      (.cons (.inside (by simp) hbody) .nil))))) (List.reverse_perm _).symm
  obtain ⟨hread, hresult⟩ := ofJson?_of_reordered hj
  exact ⟨hj, hread, ((hresult a hread).2 _).mpr ⟨rfl, rfl⟩⟩

end Response

end ReplicaLag
