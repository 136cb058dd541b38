import ReplicaLag.Lag.Profile

/-!
The delays between nodes, and between clients and nodes, by name. Of several delays for one pair the
one set last counts; a node reaches itself at once, whatever was set.
-/

namespace ReplicaLag

abbrev DelayTable := SortedMap (SortedMap Millis)

namespace DelayTable

def at? (t : DelayTable) (a b : String) : Option Millis := (SortedMap.get? t a).bind (·.get? b)

def set (t : DelayTable) (a b : String) (delay : Millis) : DelayTable :=
  SortedMap.insert t a ((SortedMap.getD t a SortedMap.empty).insert b delay)

theorem at?_set (t : DelayTable) (a b x y : String) (d : Millis) :
    (t.set a b d).at? x y = if x = a ∧ y = b then some d else t.at? x y := by
  simp only [at?, set, SortedMap.get?_insert, SortedMap.getD]
  by_cases hx : x = a
  · subst hx
    by_cases hy : y = b
    · simp [hy, SortedMap.get?_insert]
    · cases SortedMap.get? t x <;> simp [hy, SortedMap.get?_insert]
  · simp [hx]

end DelayTable

structure Links where
  defaultDelay : Millis
  nodes : DelayTable := SortedMap.empty
  clients : DelayTable := SortedMap.empty

namespace Links

def set (l : Links) (source target : String) (delay : Millis) : Links :=
  { l with nodes := l.nodes.set source target delay }

def setClient (l : Links) (client node : String) (delay : Millis) : Links :=
  { l with clients := l.clients.set client node delay }

def ofProfile (p : LagProfile) : Links where
  defaultDelay := p.defaultDelay
  nodes := p.links.foldl (fun t l => t.set l.source l.target l.delay) SortedMap.empty
  clients := p.clientLinks.foldl (fun t l => t.set l.client l.node l.delay) SortedMap.empty

/-- The delay of a write on its way from one node to another. -/
def delay (l : Links) (source target : String) : Millis :=
  if source = target then 0 else (l.nodes.at? source target).getD l.defaultDelay

/-- The time until a write that goes from `a` to `b` is acknowledged at `a`. -/
def roundTrip (l : Links) (a b : String) : Millis := (l.delay a b).plus (l.delay b a)

/-- The delay between a client and a node, none for an unnamed client. -/
def clientDelay (l : Links) (client : Option String) (node : String) : Millis :=
  (client.bind (l.clients.at? · node)).getD 0

theorem delay_self (l : Links) (a : String) : l.delay a a = 0 := if_pos rfl

theorem delay_le_roundTrip (l : Links) (a b : String) : l.delay a b ≤ l.roundTrip a b :=
  Millis.le_plus _ _

end Links

end ReplicaLag
