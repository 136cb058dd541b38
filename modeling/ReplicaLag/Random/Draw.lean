import ReplicaLag.Binary64
import ReplicaLag.Random.ChaCha

/-!
Draws from a random source. Of a source all that counts is that a number drawn from a range lies in
the range (`LawfulRandomSource`); then every draw that is made of it lies in the range it was asked
for: `range_bounds`, `index_lt` and `skewed_lt` say so. The ChaCha stream is such a source, whatever
its words are.
-/

namespace ReplicaLag

class RandomSource (σ : Type) where
  /-- A number from `low` up to, not including, `high`. -/
  uniform : σ → (low high : UInt64) → UInt64 × σ
  /-- True with a probability, which is neither below zero nor above one. -/
  toss : σ → (p : Binary64) → Bool × σ
  /-- A number in the unit interval, without one. -/
  unit : σ → Float × σ

class LawfulRandomSource (σ : Type) [RandomSource σ] : Prop where
  uniform_bounds : ∀ (s : σ) {low high : UInt64}, low < high →
    low ≤ (RandomSource.uniform s low high).1 ∧ (RandomSource.uniform s low high).1 < high

namespace ChaCha.Stream

/-- A number below `width`, evenly distributed: words that would make some numbers more likely than
others are drawn again, at most `redraws` times. -/
def below (s : Stream) (width : UInt64) : Nat → Nat × Stream
  | 0 =>
    let (w, s) := s.next
    (w.toNat * width.toNat / UInt64.size, s)
  | redraws + 1 =>
    let (w, s) := s.next
    let p := w.toNat * width.toNat
    let zone := (width.toNat <<< (63 - width.toNat.log2)) - 1
    if p % UInt64.size ≤ zone then (p / UInt64.size, s) else below s width redraws

/-- More redraws than any stream needs: each is a toss of a coin at worst. -/
def redraws : Nat := 4096

def uniform (s : Stream) (low high : UInt64) : UInt64 × Stream :=
  let (n, s) := s.below (high - low) redraws
  (UInt64.ofNat (low.toNat + n), s)

def toss (s : Stream) (p : Binary64) : Bool × Stream :=
  let threshold := p.ratio.1 * UInt64.size / p.ratio.2
  if UInt64.size ≤ threshold then (true, s)
  else
    let (w, s) := s.next
    (w.toNat < threshold, s)

def unit (s : Stream) : Float × Stream :=
  let (w, s) := s.next
  ((w >>> 12).toFloat * Float.ofBits 0x3cb0000000000000, s)

theorem below_lt (s : Stream) {width : UInt64} (h : 0 < width) (n : Nat) :
    (s.below width n).1 < width.toNat := by
  have hw : ∀ w : UInt64, w.toNat * width.toNat / UInt64.size < width.toNat := by
    intro w
    have h0 : 0 < width.toNat := UInt64.lt_iff_toNat_lt.mp h
    rw [Nat.div_lt_iff_lt_mul (by decide), Nat.mul_comm]
    exact Nat.mul_lt_mul_of_pos_left w.toNat_lt h0
  induction n generalizing s with
  | zero => exact hw _
  | succ n ih =>
    simp only [below]
    split
    · exact hw _
    · exact ih _

theorem uniform_bounds (s : Stream) {low high : UInt64} (h : low < high) :
    low ≤ (s.uniform low high).1 ∧ (s.uniform low high).1 < high := by
  have hlt := UInt64.lt_iff_toNat_lt.mp h
  have hsub : (high - low).toNat = high.toNat - low.toNat :=
    UInt64.toNat_sub_of_le _ _ (UInt64.le_of_lt h)
  have hb : (s.below (high - low) redraws).1 < (high - low).toNat :=
    below_lt s (UInt64.lt_iff_toNat_lt.mpr (by simp [hsub]; omega)) redraws
  have hh := high.toNat_lt
  rw [uniform]
  simp only [UInt64.le_iff_toNat_le, UInt64.lt_iff_toNat_lt, UInt64.toNat_ofNat']
  rw [Nat.mod_eq_of_lt (by omega)]
  omega

instance : RandomSource Stream := ⟨uniform, toss, unit⟩

instance : LawfulRandomSource Stream := ⟨uniform_bounds⟩

end ChaCha.Stream

/-- The probability that a number stands for: the nearest one, or zero for what is not a number. -/
def Binary64.probability (p : Binary64) : Binary64 :=
  if p.isNegative ∨ infinite < p.magnitude then ofNat 0
  else if (ofNat 1).magnitude < p.magnitude then ofNat 1
  else p

/-- A random source with the seed that it was made from. -/
structure Random (σ : Type := ChaCha.Stream) where
  seed : UInt64
  source : σ

namespace Random

def ofSeed (seed : UInt64) : Random := ⟨seed, .ofSeed seed⟩

def next (r : Random) : UInt64 × Random :=
  let (w, source) := r.source.next
  (w, { r with source })

section Draws

variable {σ : Type} [RandomSource σ]

/-- A number from `low` up to, not including, `high`; `low`, and nothing drawn, if there is none. -/
def range (r : Random σ) (low high : UInt64) : UInt64 × Random σ :=
  if low < high then
    let (n, source) := RandomSource.uniform r.source low high
    (n, { r with source })
  else (low, r)

/-- True with the probability that a number stands for. -/
def chance (r : Random σ) (p : Binary64) : Bool × Random σ :=
  let (b, source) := RandomSource.toss r.source p.probability
  (b, { r with source })

/-- A place in a list of that length, `0` if it is empty. -/
def index (r : Random σ) (length : UInt64) : UInt64 × Random σ := r.range 0 length

/-- A place in a list of that length, the more often near the front the greater the exponent. -/
def skewed (r : Random σ) (length : UInt64) (exponent : Binary64) : UInt64 × Random σ :=
  if length = 0 then (0, r)
  else
    let (u, source) := RandomSource.unit r.source
    let i := (u.pow (Float.ofBits exponent.bits) * length.toFloat).toUInt64
    (if i < length then i else length - 1, { r with source })

def pick {α : Type} (r : Random σ) (items : List α) : Option α × Random σ :=
  if items.isEmpty then (none, r)
  else
    let (i, r) := r.index items.length.toUInt64
    (items[i.toNat]?, r)

theorem skewed_lt (r : Random σ) {length : UInt64} (h : 0 < length) (e : Binary64) :
    (r.skewed length e).1 < length := by
  have h0 : length ≠ 0 := fun he => by simp [he] at h
  have h1 : 0 < length.toNat := UInt64.lt_iff_toNat_lt.mp h
  have hs : (length - 1).toNat = length.toNat - 1 :=
    UInt64.toNat_sub_of_le _ _ (UInt64.le_iff_toNat_le.mpr h1)
  simp only [skewed, if_neg h0]
  split
  · assumption
  · exact UInt64.lt_iff_toNat_lt.mpr (by omega)

variable [LawfulRandomSource σ]

theorem range_bounds (r : Random σ) {low high : UInt64} (h : low < high) :
    low ≤ (r.range low high).1 ∧ (r.range low high).1 < high := by
  rw [range, if_pos h]
  exact LawfulRandomSource.uniform_bounds r.source h

theorem index_lt (r : Random σ) {length : UInt64} (h : 0 < length) :
    (r.index length).1 < length :=
  (range_bounds r h).2

end Draws

end Random

end ReplicaLag
