import ThresholdSigning.Bytes.Value
import ThresholdSigning.Key.Record

namespace ThresholdSigning

open Curve (Point OnCurve)

theorem bind_eq_ok_iff {ε α β : Type} {x : Except ε α} {f : α → Except ε β} {b : β} :
    x >>= f = .ok b ↔ ∃ a, x = .ok a ∧ f a = .ok b := by
  cases x with
  | error e => simp [bind, Except.bind]
  | ok a => simp [bind, Except.bind]

/-- A reader that undoes a writer does so over a whole list. -/
theorem mapM_eq_ok_iff {ε α β : Type} {read : α → Except ε β} {write : β → α}
    (h : ∀ a b, read a = .ok b ↔ write b = a) {as : List α} {bs : List β} :
    as.mapM read = .ok bs ↔ bs.map write = as := by
  induction as generalizing bs with
  | nil => cases bs <;> simp [pure, Except.pure]
  | cons a as ih =>
    rw [List.mapM_cons, bind_eq_ok_iff]
    constructor
    · rintro ⟨b, hb, ht⟩
      obtain ⟨tail, htail, hp⟩ := bind_eq_ok_iff.mp ht
      cases hp
      rw [List.map_cons, (h a b).mp hb, ih.mp htail]
    · intro he
      cases bs with
      | nil => cases he
      | cons b bs =>
        obtain ⟨hb, ht⟩ := List.cons.inj he
        exact ⟨b, (h a b).mpr hb, bind_eq_ok_iff.mpr ⟨bs, ih.mpr ht, rfl⟩⟩

theorem BigNum.ofCanonical_eq_ok_iff {bytes : ByteArray} {n : BigNum} :
    BigNum.ofCanonical bytes = .ok n ↔ n.bytes = bytes := by
  unfold BigNum.ofCanonical
  constructor
  · intro h
    split at h
    next =>
      cases h
      rfl
    next => split at h <;> cases h
  · rintro rfl
    rw [dif_pos n.canonical]

theorem BigNum.mapM_ofCanonical_eq_ok_iff {as : List ByteArray} {ns : List BigNum} :
    as.mapM BigNum.ofCanonical = .ok ns ↔ ns.map BigNum.bytes = as :=
  mapM_eq_ok_iff fun _ _ => BigNum.ofCanonical_eq_ok_iff

namespace Curve.Point

theorem ofCoordinates?_eq_some_iff {x y : Nat} {p : Point} :
    ofCoordinates? x y = some p ↔ ∃ h : OnCurve x y, p = .affine x y h := by
  unfold ofCoordinates?
  split
  next h => simp [h, eq_comm]
  next h => simp [h]

theorem ofBytes_toBytes (p : Point) : ofBytes p.toBytes = .ok p := by
  cases p with
  | identity => rfl
  | affine x y h =>
    have hx : x < 256 ^ 32 := Nat.lt_trans h.1 (by decide)
    have hy : y < 256 ^ 32 := Nat.lt_trans h.2.1 (by decide)
    have hs : (toBytes (.affine x y h)).size = 65 := by
      change (4 :: toBigEndian 32 x ++ toBigEndian 32 y).length = 65
      simp
    have hne : toBytes (.affine x y h) ≠ ⟨#[0]⟩ := by
      intro he
      rw [he] at hs
      exact absurd hs (by decide)
    have hp : ofCoordinates? x y = some (.affine x y h) :=
      ofCoordinates?_eq_some_iff.mpr ⟨h, rfl⟩
    have hfront : (toBigEndian 32 x ++ toBigEndian 32 y).take 32 = toBigEndian 32 x :=
      List.take_left' (length_toBigEndian 32 x)
    have hback : (toBigEndian 32 x ++ toBigEndian 32 y).drop 32 = toBigEndian 32 y :=
      List.drop_left' (length_toBigEndian 32 x)
    rw [ofBytes, if_neg hne, if_pos hs]
    simp only [toBytes, List.cons_append, hfront, hback, bigEndian_toBigEndian,
      Nat.mod_eq_of_lt hx, Nat.mod_eq_of_lt hy, hp]

theorem toBytes_of_ofBytes {bytes : ByteArray} {p : Point} (h : ofBytes bytes = .ok p) :
    p.toBytes = bytes := by
  unfold ofBytes at h
  split at h
  next he =>
    cases h
    exact he.symm
  next =>
    split at h
    next hs =>
      split at h
      next coordinates hc =>
        split at h
        next q hq =>
          cases h
          obtain ⟨hcurve, rfl⟩ := ofCoordinates?_eq_some_iff.mp hq
          have hl : coordinates.length = 64 := by
            have : bytes.data.toList.length = 65 := hs
            rw [hc, List.length_cons] at this
            omega
          have hfront : (coordinates.take 32).length = 32 := by simp [hl]
          have hback : (coordinates.drop 32).length = 32 := by simp [hl]
          have hx := toBigEndian_bigEndian (coordinates.take 32)
          have hy := toBigEndian_bigEndian (coordinates.drop 32)
          rw [hfront] at hx
          rw [hback] at hy
          apply bytes_ext
          simp only [toBytes, hx, hy, List.cons_append, List.take_append_drop, hc]
        next => cases h
      next => cases h
    next => cases h

theorem ofBytes_eq_ok_iff {bytes : ByteArray} {p : Point} :
    ofBytes bytes = .ok p ↔ p.toBytes = bytes := by
  constructor
  · exact toBytes_of_ofBytes
  · rintro rfl
    exact ofBytes_toBytes p

theorem mapM_ofBytes_eq_ok_iff {as : List ByteArray} {ps : List Point} :
    as.mapM ofBytes = .ok ps ↔ ps.map toBytes = as :=
  mapM_eq_ok_iff fun _ _ => ofBytes_eq_ok_iff

end Curve.Point

/-- A record with canonical numbers and points of the curve is the record of one key, and no other
record is that of a key. -/
theorem KeyRecord.toKey_eq_ok_iff {r : KeyRecord} {k : ThresholdKey} :
    r.toKey = .ok k ↔ KeyRecord.ofKey k = r := by
  simp only [toKey, bind_eq_ok_iff, BigNum.ofCanonical_eq_ok_iff, Point.ofBytes_eq_ok_iff,
    BigNum.mapM_ofCanonical_eq_ok_iff, Point.mapM_ofBytes_eq_ok_iff]
  constructor
  · rintro ⟨n, hn, lambdaN, hl, phiN, hphi, nTilde, ht, h1, hh1, h2, hh2, xi, hxi, shareId, hid, ks,
      hks, nTildeJ, htj, h1J, hh1J, h2J, hh2J, bigXJ, hx, paillierPks, hpk, ecdsaPub, hpub, h⟩
    cases h
    cases r
    simp only [ofKey] at *
    simp [hn, hl, hphi, ht, hh1, hh2, hxi, hid, hks, htj, hh1J, hh2J, hx, hpk, hpub]
  · rintro rfl
    exact ⟨_, rfl, _, rfl, _, rfl, _, rfl, _, rfl, _, rfl, _, rfl, _, rfl, _, rfl, _, rfl, _, rfl,
      _, rfl, _, rfl, _, rfl, _, rfl, rfl⟩

end ThresholdSigning
