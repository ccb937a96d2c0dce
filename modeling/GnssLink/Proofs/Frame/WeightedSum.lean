import Mathlib.Algebra.BigOperators.Fin
import Mathlib.Data.Int.ModEq
import Mathlib.Tactic.Linarith
import Mathlib.Tactic.Ring
import Mathlib.Tactic.Zify
import GnssLink.Frame.Checksum

/-!
# The checksum as a weighted sum

The first sum of the checksum is the sum of all bytes.  The second one takes up the first with every
byte, so it counts each byte as often as there are bytes from this one on: of `n` bytes the one at
index `i` has the weight `n - i`.  Both sums are taken modulo 256.

How the bytes were portioned does not show in them.  Their order shows in the second one, and only
there: it changes with the exchange of two bytes unless 256 divides the difference of the bytes
times their distance.  So two neighbours that differ are never exchanged unnoticed.

## Main definitions

* `Checksum.total`, `Checksum.weightedTotal` — the two sums as natural numbers.
* `Checksum.Portion`, `Checksum.take` — bytes that are taken up one by one or several at once.
* `Bytes.exchange` — two bytes change places.
* `Checksum.IsWeightedSum` — what is known of a checksum.

## Main results

* `Checksum.append_a_modEq`, `Checksum.append_b_modEq` — the sums after more bytes.
* `Checksum.weightedTotal_exchanged` — what the exchange of two bytes does to the weighted sum.
* `Checksum.isWeightedSum_ofBytes` — the closed form, the portions, and the exchanges.
-/

namespace GnssLink

/-! ### Two bytes change places -/

namespace Bytes

/-- The bytes at two indices change places. -/
def exchange (bytes : Bytes) (i j : Nat) (hi : i < bytes.length) (hj : j < bytes.length) : Bytes :=
  (bytes.set i bytes[j]).set j bytes[i]

/-- A byte stands between the bytes in front of it and those behind it. -/
theorem exists_around {bytes : Bytes} {i : Nat} (hi : i < bytes.length) :
    ∃ before x behind, bytes = before ++ x :: behind ∧ before.length = i := by
  refine ⟨bytes.take i, bytes[i], bytes.drop (i + 1), ?_, List.length_take_of_le (Nat.le_of_lt hi)⟩
  rw [← List.drop_eq_getElem_cons hi, List.take_append_drop]

theorem set_around (before behind : Bytes) (x y : UInt8) :
    (before ++ x :: behind).set before.length y = before ++ y :: behind := by
  rw [List.set_append_right _ _ (Nat.le_refl _), Nat.sub_self, List.set_cons_zero]

/-- The parts around the two bytes stay where they are. -/
theorem exists_exchange {bytes : Bytes} {i j : Nat} (hij : i < j) (hj : j < bytes.length) :
    ∃ before middle behind : Bytes, i + (middle.length + 1) = j ∧
      bytes = before ++ bytes[i] :: (middle ++ bytes[j] :: behind) ∧
      bytes.exchange i j (Nat.lt_trans hij hj) hj =
        before ++ bytes[j] :: (middle ++ bytes[i] :: behind) := by
  obtain ⟨before, x, after, rfl, rfl⟩ := exists_around (Nat.lt_trans hij hj)
  have hafter : j - (before.length + 1) < after.length := by
    rw [List.length_append, List.length_cons] at hj
    omega
  obtain ⟨middle, y, behind, rfl, hmiddle⟩ := exists_around hafter
  have hlength (u : UInt8) : (before ++ u :: middle).length = j := by
    rw [List.length_append, List.length_cons]
    omega
  have hregroup (u v : UInt8) :
      before ++ u :: (middle ++ v :: behind) = (before ++ u :: middle) ++ v :: behind := by
    rw [List.append_assoc, List.cons_append]
  have hx : (before ++ x :: (middle ++ y :: behind))[before.length] = x :=
    List.getElem_of_append rfl rfl
  have hy : (before ++ x :: (middle ++ y :: behind))[j] = y :=
    List.getElem_of_append (hregroup x y) (hlength x)
  refine ⟨before, middle, behind, by omega, by rw [hx, hy], ?_⟩
  rw [exchange, hx, hy, set_around, hregroup, ← hlength y, set_around, hregroup]

end Bytes

namespace Checksum

/-! ### The two sums -/

/-- The sum of the bytes. -/
def total (bytes : Bytes) : Nat :=
  ∑ i : Fin bytes.length, bytes[i].toNat

/-- The sum of the bytes, each with the number of bytes from it on as its weight. -/
def weightedTotal (bytes : Bytes) : Nat :=
  ∑ i : Fin bytes.length, (bytes.length - i) * bytes[i].toNat

theorem total_cons (x : UInt8) (xs : Bytes) : total (x :: xs) = x.toNat + total xs :=
  Fin.sum_univ_succ _

theorem weightedTotal_cons (x : UInt8) (xs : Bytes) :
    weightedTotal (x :: xs) = (xs.length + 1) * x.toNat + weightedTotal xs := by
  refine (Fin.sum_univ_succ _).trans ?_
  have hweight (i : Fin xs.length) : xs.length + 1 - (i.val + 1) = xs.length - i := by omega
  simp [weightedTotal, hweight]

theorem total_append (xs ys : Bytes) : total (xs ++ ys) = total xs + total ys := by
  induction xs with
  | nil => exact (Nat.zero_add _).symm
  | cons x xs ih => rw [List.cons_append, total_cons, total_cons, ih, Nat.add_assoc]

/-- The bytes in front gain the number of those behind in weight. -/
theorem weightedTotal_append (xs ys : Bytes) :
    weightedTotal (xs ++ ys) = weightedTotal xs + ys.length * total xs + weightedTotal ys := by
  induction xs with
  | nil => simp [weightedTotal, total]
  | cons x xs ih =>
    rw [List.cons_append, weightedTotal_cons, weightedTotal_cons, total_cons, ih,
      List.length_append]
    ring

/-- Where two bytes change places the sum stays. -/
theorem total_exchanged (before middle behind : Bytes) (x y : UInt8) :
    total (before ++ y :: (middle ++ x :: behind)) =
      total (before ++ x :: (middle ++ y :: behind)) := by
  simp only [total_append, total_cons]
  ring

/-- **What the exchange of two bytes does to the weighted sum.**  The byte that moves ahead gains
their distance in weight, and the other one loses it. -/
theorem weightedTotal_exchanged (before middle behind : Bytes) (x y : UInt8) :
    weightedTotal (before ++ y :: (middle ++ x :: behind)) + (middle.length + 1) * x.toNat =
      weightedTotal (before ++ x :: (middle ++ y :: behind)) + (middle.length + 1) * y.toNat := by
  rw [weightedTotal_append, weightedTotal_append before]
  simp only [weightedTotal_append, weightedTotal_cons, List.length_append, List.length_cons]
  ring

/-! ### The sums after more bytes -/

theorem push_a_modEq (c : Checksum) (x : UInt8) :
    (c.push x).a.toNat ≡ c.a.toNat + x.toNat [MOD 256] := by
  rw [push, UInt8.toNat_add]
  exact Nat.mod_modEq _ _

theorem push_b_modEq (c : Checksum) (x : UInt8) :
    (c.push x).b.toNat ≡ c.b.toNat + (c.a.toNat + x.toNat) [MOD 256] := by
  rw [push, UInt8.toNat_add, UInt8.toNat_add]
  exact (Nat.mod_modEq _ _).trans ((Nat.mod_modEq _ _).add_left _)

theorem append_a_modEq (c : Checksum) (bytes : Bytes) :
    (c.append bytes).a.toNat ≡ c.a.toNat + total bytes [MOD 256] := by
  induction bytes generalizing c with
  | nil => rfl
  | cons x xs ih =>
    calc (c.append (x :: xs)).a.toNat
        ≡ (c.push x).a.toNat + total xs [MOD 256] := ih (c.push x)
      _ ≡ c.a.toNat + x.toNat + total xs [MOD 256] := (c.push_a_modEq x).add_right _
      _ = c.a.toNat + total (x :: xs) := by rw [total_cons, Nat.add_assoc]

/-- The second sum takes up the first one with every byte. -/
theorem append_b_modEq (c : Checksum) (bytes : Bytes) :
    (c.append bytes).b.toNat ≡
      c.b.toNat + bytes.length * c.a.toNat + weightedTotal bytes [MOD 256] := by
  induction bytes generalizing c with
  | nil => simp [weightedTotal, Nat.ModEq.refl]
  | cons x xs ih =>
    have hfirst := (c.push_a_modEq x).mul_left xs.length
    calc (c.append (x :: xs)).b.toNat
        ≡ (c.push x).b.toNat + xs.length * (c.push x).a.toNat + weightedTotal xs [MOD 256] :=
          ih (c.push x)
      _ ≡ c.b.toNat + (c.a.toNat + x.toNat) + xs.length * (c.a.toNat + x.toNat) +
            weightedTotal xs [MOD 256] := ((c.push_b_modEq x).add hfirst).add_right _
      _ = c.b.toNat + (x :: xs).length * c.a.toNat + weightedTotal (x :: xs) := by
          rw [weightedTotal_cons, List.length_cons]
          ring

theorem toNat_ofBytes_a (bytes : Bytes) : (ofBytes bytes).a.toNat = total bytes % 256 := by
  have hsum := append_a_modEq zero bytes
  simp only [zero, UInt8.toNat_zero, Nat.zero_add] at hsum
  rw [← hsum, ofBytes, zero, Nat.mod_eq_of_lt (UInt8.toNat_lt _)]

theorem toNat_ofBytes_b (bytes : Bytes) : (ofBytes bytes).b.toNat = weightedTotal bytes % 256 := by
  have hsum := append_b_modEq zero bytes
  simp only [zero, UInt8.toNat_zero, Nat.mul_zero, Nat.zero_add] at hsum
  rw [← hsum, ofBytes, zero, Nat.mod_eq_of_lt (UInt8.toNat_lt _)]

/-! ### Exchanged bytes -/

theorem exchanged_a (before middle behind : Bytes) (x y : UInt8) :
    (ofBytes (before ++ y :: (middle ++ x :: behind))).a =
      (ofBytes (before ++ x :: (middle ++ y :: behind))).a := by
  rw [← UInt8.toNat_inj, toNat_ofBytes_a, toNat_ofBytes_a, total_exchanged]

/-- The exchange of two bytes does not show if and only if 256 divides their difference times their
distance. -/
theorem exchanged_b_iff (before middle behind : Bytes) (x y : UInt8) :
    (ofBytes (before ++ y :: (middle ++ x :: behind))).b =
        (ofBytes (before ++ x :: (middle ++ y :: behind))).b ↔
      (256 : ℤ) ∣ (middle.length + 1) * (x.toNat - y.toNat) := by
  have hweights : (weightedTotal (before ++ x :: (middle ++ y :: behind)) : ℤ) -
      weightedTotal (before ++ y :: (middle ++ x :: behind)) =
      (middle.length + 1) * (x.toNat - y.toNat) := by
    have hexchanged := weightedTotal_exchanged before middle behind x y
    zify at hexchanged
    linarith
  rw [← UInt8.toNat_inj, toNat_ofBytes_b, toNat_ofBytes_b, ← hweights]
  exact Nat.modEq_iff_dvd

/-! ### Portions -/

/-- Bytes that are taken up together: a single one, or a chunk. -/
inductive Portion where
  | byte (x : UInt8)
  | chunk (xs : Bytes)

/-- The bytes of a portion. -/
def Portion.bytes : Portion → Bytes
  | byte x => [x]
  | chunk xs => xs

/-- Take up a portion. -/
def take (c : Checksum) : Portion → Checksum
  | .byte x => c.push x
  | .chunk xs => c.append xs

theorem take_eq (c : Checksum) (p : Portion) : c.take p = c.append p.bytes := by
  cases p <;> rfl

/-- How the bytes are portioned does not matter. -/
theorem foldl_take (c : Checksum) (portions : List Portion) :
    portions.foldl take c = c.append (portions.flatMap Portion.bytes) := by
  induction portions generalizing c with
  | nil => rfl
  | cons p portions ih => rw [List.foldl_cons, ih, take_eq, append_append, List.flatMap_cons]

/-! ### The whole rule -/

/-- What is known of the checksum of a byte string. -/
structure IsWeightedSum (bytes : Bytes) : Prop where
  /-- The first sum counts every byte once. -/
  a_eq : (ofBytes bytes).a.toNat = (∑ i : Fin bytes.length, bytes[i].toNat) % 256
  /-- The second sum counts a byte as often as there are bytes from it on. -/
  b_eq : (ofBytes bytes).b.toNat =
    (∑ i : Fin bytes.length, (bytes.length - i) * bytes[i].toNat) % 256
  /-- Bytes that are taken up in portions have the same checksum. -/
  portioned : ∀ portions : List Portion, portions.flatMap Portion.bytes = bytes →
    portions.foldl take zero = ofBytes bytes
  /-- So have bytes of which the first one was the seed. -/
  seeded : ∀ (first : UInt8) (portions : List Portion),
    first :: portions.flatMap Portion.bytes = bytes →
      portions.foldl take (seeded first) = ofBytes bytes
  /-- The first sum does not notice an exchange of two bytes. -/
  exchange_a : ∀ (i j : Nat) (hij : i < j) (hj : j < bytes.length),
    (ofBytes (bytes.exchange i j (Nat.lt_trans hij hj) hj)).a = (ofBytes bytes).a
  /-- The second sum notices it unless 256 divides the difference times the distance. -/
  exchange_b : ∀ (i j : Nat) (hij : i < j) (hj : j < bytes.length),
    (ofBytes (bytes.exchange i j (Nat.lt_trans hij hj) hj)).b = (ofBytes bytes).b ↔
      (256 : ℤ) ∣ (j - i) * (bytes[i].toNat - bytes[j].toNat)
  /-- Two neighbours that differ are not exchanged unnoticed. -/
  neighbours : ∀ (i : Nat) (hi : i + 1 < bytes.length), bytes[i] ≠ bytes[i + 1] →
    ofBytes (bytes.exchange i (i + 1) (Nat.lt_of_succ_lt hi) hi) ≠ ofBytes bytes

/-- **The checksum is a pair of weighted sums.** -/
theorem isWeightedSum_ofBytes (bytes : Bytes) : IsWeightedSum bytes := by
  have hb : ∀ (i j : Nat) (hij : i < j) (hj : j < bytes.length),
      (ofBytes (bytes.exchange i j (Nat.lt_trans hij hj) hj)).b = (ofBytes bytes).b ↔
        (256 : ℤ) ∣ (j - i) * (bytes[i].toNat - bytes[j].toNat) := by
    intro i j hij hj
    obtain ⟨before, middle, behind, hdistance, hbytes, hexchange⟩ := Bytes.exists_exchange hij hj
    have hweight : ((j : ℤ) - i) = middle.length + 1 := by omega
    have hiff := exchanged_b_iff before middle behind bytes[i] bytes[j]
    rw [← hbytes, ← hexchange, ← hweight] at hiff
    exact hiff
  refine ⟨toNat_ofBytes_a bytes, toNat_ofBytes_b bytes, ?portioned, ?seeded, ?exchange_a, hb,
    ?neighbours⟩
  case portioned =>
    rintro portions rfl
    exact foldl_take zero portions
  case seeded =>
    rintro first portions rfl
    rw [foldl_take, seeded_eq, ofBytes, append_append]
    rfl
  case exchange_a =>
    intro i j hij hj
    obtain ⟨before, middle, behind, -, hbytes, hexchange⟩ := Bytes.exists_exchange hij hj
    have hsame := exchanged_a before middle behind bytes[i] bytes[j]
    rw [← hbytes, ← hexchange] at hsame
    exact hsame
  case neighbours =>
    intro i hi hne heq
    have hdvd := (hb i (i + 1) (Nat.lt_succ_self i) hi).1 (congrArg Checksum.b heq)
    have hlt := bytes[i].toNat_lt
    have hlt' := bytes[i + 1].toNat_lt
    -- 256 divides the difference of two bytes only if they are equal
    refine hne (UInt8.toNat_inj.1 ?_)
    push_cast at hdvd
    omega

end Checksum

end GnssLink
