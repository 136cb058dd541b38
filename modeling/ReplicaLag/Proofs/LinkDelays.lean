import ReplicaLag.Lag.Links

/-!
Delays as the lists of a lag profile give them. A table that is set entry by entry holds for each
pair of names what the last entry for that pair says (`at?_foldl_set`), so only the order of entries
for one pair counts (`last?_of_shuffled`). Main statement: what the links of a profile answer, pair
by pair, and which changes of the lists leave which answers alone.
-/

namespace ReplicaLag

/-- Two lists of the same entries in which those of one key stand in one order: neighbours of
different keys have changed places, again and again. -/
inductive Shuffled {α κ : Type} (key : α → κ) : List α → List α → Prop where
  | refl (l : List α) : Shuffled key l l
  | swap (before after : List α) {a b : α} (h : key a ≠ key b) :
      Shuffled key (before ++ a :: b :: after) (before ++ b :: a :: after)
  | trans {l m n : List α} (h : Shuffled key l m) (k : Shuffled key m n) : Shuffled key l n

/-- The entries of one key are the same in both lists, in the same order. -/
theorem Shuffled.filter_eq {α κ : Type} [DecidableEq κ] {key : α → κ} {l m : List α}
    (h : Shuffled key l m) (k : κ) : l.filter (key · = k) = m.filter (key · = k) := by
  induction h with
  | refl l => rfl
  | swap before after hne =>
    rename_i a b
    rw [List.filter_append, List.filter_append]
    congr 1
    simp only [List.filter_cons, decide_eq_true_eq]
    by_cases ha : key a = k
    · have hb : key b ≠ k := fun hb => hne (ha.trans hb.symm)
      rw [if_pos ha, if_pos ha, if_neg hb, if_neg hb]
    · rw [if_neg ha, if_neg ha]
  | trans _ _ ih₁ ih₂ => exact ih₁.trans ih₂

namespace DelayTable

variable {α : Type} {pair : α → String × String} {entries more : List α} {a b : String}

/-- The last entry of a list for a pair of names. -/
def last? (pair : α → String × String) (entries : List α) (a b : String) : Option α :=
  (entries.filter (pair · = (a, b))).getLast?

theorem last?_append (pair : α → String × String) (entries more : List α) (a b : String) :
    last? pair (entries ++ more) a b = (last? pair more a b).or (last? pair entries a b) := by
  rw [last?, List.filter_append, List.getLast?_append]
  rfl

theorem last?_eq_none (h : ∀ e ∈ more, pair e ≠ (a, b)) : last? pair more a b = none := by
  rw [last?, List.getLast?_eq_none_iff, List.filter_eq_nil_iff]
  exact fun e he hpair => h e he (of_decide_eq_true hpair)

theorem last?_append_of_other (h : ∀ e ∈ more, pair e ≠ (a, b)) :
    last? pair (entries ++ more) a b = last? pair entries a b := by
  rw [last?_append, last?_eq_none h, Option.none_or]

theorem last?_of_shuffled (h : Shuffled pair entries more) (a b : String) :
    last? pair more a b = last? pair entries a b := by
  rw [last?, last?, h.filter_eq]

/-- Of several entries for one pair the last one counts. -/
theorem at?_foldl_set (pair : α → String × String) (delay : α → Millis) (entries : List α)
    (t : DelayTable) (a b : String) :
    DelayTable.at? (entries.foldl (fun t e => t.set (pair e).1 (pair e).2 (delay e)) t) a b =
      ((last? pair entries a b).map delay).or (t.at? a b) := by
  induction entries generalizing t with
  | nil => rfl
  | cons e rest ih =>
    have hcons : last? pair (e :: rest) a b = (last? pair rest a b).or (last? pair [e] a b) :=
      last?_append pair [e] rest a b
    have hone : (last? pair [e] a b).map delay =
        if pair e = (a, b) then some (delay e) else none := by
      by_cases h : pair e = (a, b) <;> simp [last?, h]
    have hpair : (a = (pair e).1 ∧ b = (pair e).2) ↔ pair e = (a, b) := by
      rw [Prod.ext_iff, eq_comm, eq_comm (a := b)]
    rw [List.foldl_cons, ih, at?_set, hcons, Option.map_or, hone, Option.or_assoc]
    congr 1
    by_cases h : pair e = (a, b)
    · rw [if_pos h, if_pos (hpair.mpr h), Option.some_or]
    · rw [if_neg h, if_neg (mt hpair.mp h), Option.none_or]

end DelayTable

def Link.ends (l : Link) : String × String := (l.source, l.target)

def ClientLink.ends (l : ClientLink) : String × String := (l.client, l.node)

namespace Links

open DelayTable (last?)

variable {p : LagProfile}

theorem at?_nodes_ofProfile (p : LagProfile) (a b : String) :
    (ofProfile p).nodes.at? a b = (last? Link.ends p.links a b).map (·.delay) := by
  have h := DelayTable.at?_foldl_set Link.ends (·.delay) p.links SortedMap.empty a b
  exact h.trans Option.or_none

theorem at?_clients_ofProfile (p : LagProfile) (client node : String) :
    (ofProfile p).clients.at? client node =
      (last? ClientLink.ends p.clientLinks client node).map (·.delay) := by
  have h := DelayTable.at?_foldl_set ClientLink.ends (·.delay) p.clientLinks SortedMap.empty
    client node
  exact h.trans Option.or_none

theorem delay_ofProfile (p : LagProfile) (a b : String) :
    (ofProfile p).delay a b = if a = b then 0
      else ((last? Link.ends p.links a b).map (·.delay)).getD p.defaultDelay := by
  rw [delay, at?_nodes_ofProfile]
  rfl

theorem clientDelay_ofProfile (p : LagProfile) (client node : String) :
    (ofProfile p).clientDelay (some client) node =
      ((last? ClientLink.ends p.clientLinks client node).map (·.delay)).getD 0 := by
  rw [clientDelay, Option.bind_some, at?_clients_ofProfile]

/-- Whoever has the same last links has the same delays. -/
theorem delay_congr {p q : LagProfile} {a b : String} (hdefault : q.defaultDelay = p.defaultDelay)
    (h : last? Link.ends q.links a b = last? Link.ends p.links a b) :
    (ofProfile q).delay a b = (ofProfile p).delay a b := by
  rw [delay_ofProfile, delay_ofProfile, hdefault, h]

theorem clientDelay_congr {p q : LagProfile} {client node : String}
    (h : last? ClientLink.ends q.clientLinks client node =
      last? ClientLink.ends p.clientLinks client node) :
    (ofProfile q).clientDelay (some client) node =
      (ofProfile p).clientDelay (some client) node := by
  rw [clientDelay_ofProfile, clientDelay_ofProfile, h]

theorem delay_withLink_self (p : LagProfile) {a b : String} (h : a ≠ b) (d : Millis) :
    (ofProfile (p.withLink a b d)).delay a b = d := by
  have hlast : last? Link.ends (p.withLink a b d).links a b = some ⟨a, b, d⟩ := by
    rw [LagProfile.withLink, DelayTable.last?_append]
    simp [last?, Link.ends]
  rw [delay_ofProfile, if_neg h, hlast]
  rfl

theorem delay_withLink_of_other (p : LagProfile) {a b x y : String} (h : (x, y) ≠ (a, b))
    (d : Millis) : (ofProfile (p.withLink a b d)).delay x y = (ofProfile p).delay x y := by
  refine delay_congr rfl (DelayTable.last?_append_of_other fun l hl hpair => h ?_)
  rw [List.mem_singleton.mp hl] at hpair
  exact hpair.symm

/-- The links of a profile mean what its lists say. Between two nodes the last link in that
direction counts, else the default; a node is at no distance from itself, whatever is listed. For a
client the last entry for it and the node counts, else there is no delay. Entries appended for other
pairs change nothing, nor does the order of entries for different pairs, and a link in both
directions sets these two delays alone. -/
theorem ofProfile_answers_last_entries (p : LagProfile) :
    (∀ a b, (ofProfile p).delay a b = if a = b then 0
      else ((last? Link.ends p.links a b).map (·.delay)).getD p.defaultDelay) ∧
    (∀ client node, (ofProfile p).clientDelay (some client) node =
      ((last? ClientLink.ends p.clientLinks client node).map (·.delay)).getD 0) ∧
    (∀ node, (ofProfile p).clientDelay none node = 0) ∧
    (∀ more moreClients,
      let q : LagProfile :=
        { p with links := p.links ++ more, clientLinks := p.clientLinks ++ moreClients }
      (∀ a b, (∀ l ∈ more, l.ends ≠ (a, b)) → (ofProfile q).delay a b = (ofProfile p).delay a b) ∧
      ∀ client node, (∀ l ∈ moreClients, l.ends ≠ (client, node)) →
        (ofProfile q).clientDelay (some client) node =
          (ofProfile p).clientDelay (some client) node) ∧
    (∀ links clientLinks, Shuffled Link.ends p.links links →
      Shuffled ClientLink.ends p.clientLinks clientLinks →
      let q : LagProfile := { p with links, clientLinks }
      (∀ a b, (ofProfile q).delay a b = (ofProfile p).delay a b) ∧
      ∀ client node,
        (ofProfile q).clientDelay client node = (ofProfile p).clientDelay client node) ∧
    ∀ a b d, a ≠ b →
      let q := p.withLinks a b d
      (ofProfile q).delay a b = d ∧ (ofProfile q).delay b a = d ∧
      ∀ x y, (x, y) ≠ (a, b) → (x, y) ≠ (b, a) →
        (ofProfile q).delay x y = (ofProfile p).delay x y := by
  refine ⟨delay_ofProfile p, clientDelay_ofProfile p, fun _ => rfl, ?_, ?_, ?_⟩
  · intro more moreClients q
    exact ⟨fun a b h => delay_congr rfl (DelayTable.last?_append_of_other h),
      fun client node h => clientDelay_congr (DelayTable.last?_append_of_other h)⟩
  · intro links clientLinks hlinks hclients q
    refine ⟨fun a b => delay_congr rfl (DelayTable.last?_of_shuffled hlinks a b), ?_⟩
    intro client node
    cases client with
    | none => rfl
    | some c => exact clientDelay_congr (DelayTable.last?_of_shuffled hclients c node)
  · intro a b d hab q
    have hturned : (a, b) ≠ (b, a) := fun h => hab (Prod.mk.inj h).1
    refine ⟨?_, delay_withLink_self _ hab.symm d, fun x y hxy hyx => ?_⟩
    · exact (delay_withLink_of_other _ hturned d).trans (delay_withLink_self p hab d)
    · exact (delay_withLink_of_other _ hyx d).trans (delay_withLink_of_other p hxy d)

/-- Links that are listed twice, turn back, or lead to their own node; two of them change places,
one for another pair is appended, and a third node is linked in both directions. -/
theorem last_of_two_links_counts :
    let p : LagProfile := {
      defaultDelay := 100
      links := [⟨"n1", "n2", 50⟩, ⟨"n2", "n1", 25⟩, ⟨"n1", "n2", 60⟩, ⟨"n1", "n1", 9⟩]
      clientLinks := [⟨"app", "n1", 7⟩] }
    let turned : List Link :=
      [⟨"n2", "n1", 25⟩, ⟨"n1", "n2", 50⟩, ⟨"n1", "n2", 60⟩, ⟨"n1", "n1", 9⟩]
    let longer : LagProfile := {
      p with
      links := p.links ++ [⟨"n2", "n1", 5⟩]
      clientLinks := p.clientLinks ++ [⟨"app", "n2", 3⟩] }
    (ofProfile p).delay "n1" "n2" = 60 ∧ (ofProfile p).delay "n1" "n1" = 0 ∧
    (ofProfile { p with links := turned }).delay "n1" "n2" = (ofProfile p).delay "n1" "n2" ∧
    (ofProfile longer).delay "n1" "n2" = (ofProfile p).delay "n1" "n2" ∧
    (ofProfile longer).clientDelay (some "app") "n1" =
      (ofProfile p).clientDelay (some "app") "n1" ∧
    (ofProfile (p.withLinks "n3" "n1" 4)).delay "n1" "n3" = 4 ∧
    (ofProfile (p.withLinks "n3" "n1" 4)).delay "n1" "n2" = (ofProfile p).delay "n1" "n2" := by
  intro p turned longer
  obtain ⟨hdelay, _, _, happended, hshuffled, hboth⟩ := ofProfile_answers_last_entries p
  have hturned : Shuffled Link.ends p.links turned := .swap [] _ (by decide)
  have hmore : ∀ l ∈ [(⟨"n2", "n1", 5⟩ : Link)], l.ends ≠ ("n1", "n2") := by decide
  have hclients : ∀ l ∈ [(⟨"app", "n2", 3⟩ : ClientLink)], l.ends ≠ ("app", "n1") := by decide
  obtain ⟨hlonger, hlongerClient⟩ := happended [⟨"n2", "n1", 5⟩] [⟨"app", "n2", 3⟩]
  obtain ⟨_, hback, hothers⟩ := hboth "n3" "n1" 4 (by decide)
  exact ⟨hdelay "n1" "n2", hdelay "n1" "n1",
    (hshuffled turned p.clientLinks hturned (.refl _)).1 "n1" "n2",
    hlonger "n1" "n2" hmore, hlongerClient "app" "n1" hclients,
    hback, hothers "n1" "n2" (by decide) (by decide)⟩

end Links

end ReplicaLag
