import ThresholdSigning.Proofs.Format
import ThresholdSigning.Proofs.Group
import ThresholdSigning.Proofs.Key

namespace ThresholdSigning

open Curve (Point)

/-- Every length in the record of a key takes at most 64 bits. -/
def KeyRecord.Fits (r : KeyRecord) : Prop :=
  let short (x : ByteArray) := x.size < wordLimit
  let shortAll (xs : List ByteArray) := xs.length < wordLimit ∧ ∀ x ∈ xs, short x
  short r.n ∧ short r.lambdaN ∧ short r.phiN ∧ short r.nTilde ∧ short r.h1 ∧ short r.h2 ∧
    short r.xi ∧ short r.shareId ∧ shortAll r.ks ∧ shortAll r.nTildeJ ∧ shortAll r.h1J ∧
    shortAll r.h2J ∧ shortAll r.bigXJ ∧ shortAll r.paillierPks ∧ short r.ecdsaPub

theorem KeyRecord.faithful_format : KeyRecord.format.Faithful KeyRecord.Fits := by
  have blob := Format.faithful_blob
  have blobs := Format.faithful_blob.list
  exact (blob.pair (blob.pair (blob.pair (blob.pair (blob.pair (blob.pair (blob.pair (blob.pair
    (blobs.pair (blobs.pair (blobs.pair (blobs.pair (blobs.pair (blobs.pair blob)))))))))))))).map
    (fun _ => rfl) (fun _ => rfl)

theorem KeyRecord.bounded_format : KeyRecord.format.Bounded KeyRecord.Fits := by
  have blob := Format.bounded_blob
  have blobs := Format.bounded_blobs
  exact (blob.pair (blob.pair (blob.pair (blob.pair (blob.pair (blob.pair (blob.pair (blob.pair
    (blobs.pair (blobs.pair (blobs.pair (blobs.pair (blobs.pair (blobs.pair blob)))))))))))))).map
    _ _

/-- Every length in the record of a signer takes at most 64 bits, and its numbers their width. -/
def SignerRecord.Fits (r : SignerRecord) : Prop :=
  r.version < 256 ^ 4 ∧
    (r.group.id.toByteArray.size < wordLimit ∧ r.group.localMember.size < wordLimit ∧
      (r.group.members.length < wordLimit ∧ ∀ m ∈ r.group.members, m.size < wordLimit) ∧
      (-0x80000000 ≤ r.group.threshold ∧ r.group.threshold < 0x80000000)) ∧
    r.key.size < wordLimit

theorem SignerRecord.faithful_format : SignerRecord.format.Faithful SignerRecord.Fits := by
  have blob := Format.faithful_blob
  have group : GroupRecord.format.Faithful _ :=
    (Format.faithful_text.pair (blob.pair (blob.list.pair Format.faithful_signed32))).map
      (fun _ => rfl) (fun _ => rfl)
  exact ((Format.faithful_fixed 4).pair (group.pair blob)).map (fun _ => rfl) (fun _ => rfl)

namespace KeyRecord

def numbers (r : KeyRecord) : List ByteArray :=
  [r.n, r.lambdaN, r.phiN, r.nTilde, r.h1, r.h2, r.xi, r.shareId] ++ r.ks ++ r.nTildeJ ++ r.h1J ++
    r.h2J ++ r.paillierPks

def points (r : KeyRecord) : List ByteArray := r.bigXJ ++ [r.ecdsaPub]

theorem numbers_ofKey (k : ThresholdKey) :
    ∃ ns : List BigNum, (ofKey k).numbers = ns.map BigNum.bytes := by
  refine ⟨[k.preParams.paillier.n, k.preParams.paillier.lambdaN, k.preParams.paillier.phiN,
    k.preParams.nTilde, k.preParams.h1, k.preParams.h2, k.secrets.xi, k.secrets.shareId] ++ k.ks ++
    k.nTildeJ ++ k.h1J ++ k.h2J ++ k.paillierPks, ?_⟩
  simp [numbers, ofKey]

theorem points_ofKey (k : ThresholdKey) :
    ∃ ps : List Point, (ofKey k).points = ps.map Point.toBytes := by
  refine ⟨k.bigXJ ++ [k.ecdsaPub], ?_⟩
  simp [points, ofKey]

end KeyRecord

/-- Bytes that are nothing but the record of a signer, of the one version there is, with a group
that could be created and a key that is nothing but a record of canonical numbers and of points on
the curve. -/
def WellStored (bytes : ByteArray) : Prop :=
  ∃ (r : SignerRecord) (key : KeyRecord),
    SignerRecord.format.read bytes = .ok (r, .empty) ∧ r.version = recordVersion ∧
      0 ≤ r.group.threshold ∧
      Group.Valid ⟨r.group.localMember⟩ (r.group.members.map MemberId.mk)
        r.group.threshold.toNat ∧
      KeyRecord.format.read r.key = .ok (key, .empty) ∧
      (∀ n ∈ key.numbers, isCanonical n.data.toList = true) ∧
      ∀ p ∈ key.points, ∃ point : Point, point.toBytes = p

namespace Signer

def record (s : Signer) : SignerRecord where
  version := recordVersion
  group := ⟨s.group.id, s.group.localMember.bytes, s.group.members.map MemberId.bytes,
    s.group.threshold⟩
  key := KeyRecord.format.write (KeyRecord.ofKey s.key)

/-- Every length that the stored form of a signer announces takes at most 64 bits. -/
structure Fits (s : Signer) : Prop where
  id : s.group.id.toByteArray.size < wordLimit
  members : s.group.members.length < wordLimit
  member : ∀ m ∈ s.group.members, m.bytes.size < wordLimit
  key : (KeyRecord.format.write (KeyRecord.ofKey s.key)).size < wordLimit

theorem marshal_eq_ok_iff {s : Signer} {bytes : ByteArray} :
    s.marshal = .ok bytes ↔
      s.group.threshold < 0x80000000 ∧ SignerRecord.format.write s.record = bytes := by
  unfold marshal
  split
  next h => simp [h, record]
  next h => simp [h]

theorem unmarshal_eq_ok_iff {s : Signer} {bytes : ByteArray} :
    unmarshal bytes = .ok s ↔
      ∃ r key, SignerRecord.format.decode bytes = .ok r ∧ r.version = recordVersion ∧
        0 ≤ r.group.threshold ∧
        Group.create r.group.id ⟨r.group.localMember⟩ (r.group.members.map MemberId.mk)
          r.group.threshold.toNat = .ok s.group ∧
        KeyRecord.format.decode r.key = .ok key ∧ key.toKey = .ok s.key := by
  unfold unmarshal
  constructor
  · intro h
    split at h
    next => cases h
    next r hr =>
      split at h
      next => cases h
      next hversion =>
        split at h
        next => cases h
        next hthreshold =>
          split at h
          next => cases h
          next g hg =>
            split at h
            next => cases h
            next key hkey =>
              split at h
              next => cases h
              next k hk =>
                cases h
                exact ⟨r, key, hr, not_not.mp hversion, by omega, hg, hkey, hk⟩
  · rintro ⟨r, key, hr, hversion, hthreshold, hg, hkey, hk⟩
    have hneg : ¬ r.group.threshold < 0 := by omega
    simp only [hr, hversion, ne_eq, not_true_eq_false, if_false, hneg, hg, hkey, hk]

theorem record_fits {s : Signer} (fits : s.Fits) (h : s.group.threshold < 0x80000000) :
    s.record.Fits := by
  have hversion : recordVersion < 256 ^ 4 := by decide
  refine ⟨hversion, ⟨fits.id, fits.member _ s.group.valid.local_mem, ⟨?_, ?_⟩, ?_⟩, fits.key⟩
  · simpa [record] using fits.members
  · intro bytes hbytes
    obtain ⟨m, hm, rfl⟩ := List.mem_map.mp hbytes
    exact fits.member m hm
  · simp only [record]
    omega

theorem eq_record {s : Signer} {r : SignerRecord} {key : KeyRecord}
    (hversion : r.version = recordVersion) (hthreshold : 0 ≤ r.group.threshold)
    (hg : Group.create r.group.id ⟨r.group.localMember⟩ (r.group.members.map MemberId.mk)
      r.group.threshold.toNat = .ok s.group)
    (hkey : KeyRecord.format.write key = r.key) (hk : key.toKey = .ok s.key) : s.record = r := by
  obtain ⟨hid, hlocal, hmembers, ht⟩ := Group.create_eq_ok_iff.mp hg
  obtain ⟨version, ⟨id, localMember, members, threshold⟩, stored⟩ := r
  obtain rfl : version = recordVersion := hversion
  have hbytes : s.group.members.map MemberId.bytes = members := by
    rw [hmembers, List.map_map]
    exact List.map_id members
  have hint : (s.group.threshold : Int) = threshold := by
    rw [ht]
    exact Int.toNat_of_nonneg hthreshold
  simp only [record, KeyRecord.toKey_eq_ok_iff.mp hk, hkey, hid, hlocal, hbytes, hint]

theorem marshal_of_unmarshal {s : Signer} {bytes : ByteArray} (h : unmarshal bytes = .ok s) :
    s.marshal = .ok bytes := by
  obtain ⟨r, key, hr, hversion, hthreshold, hg, hkey, hk⟩ := unmarshal_eq_ok_iff.mp h
  obtain ⟨hfits, hwrite⟩ := SignerRecord.faithful_format.decode_eq_ok_iff.mp hr
  have hrecord := eq_record hversion hthreshold hg
    (KeyRecord.faithful_format.write_of_decode hkey) hk
  obtain ⟨_, _, _, ht⟩ := Group.create_eq_ok_iff.mp hg
  obtain ⟨_, ⟨_, _, _, _, hwidth⟩, _⟩ := hfits
  refine marshal_eq_ok_iff.mpr ⟨by omega, ?_⟩
  rw [hrecord, hwrite]

theorem wellStored_of_unmarshal {s : Signer} {bytes : ByteArray} (h : unmarshal bytes = .ok s) :
    WellStored bytes := by
  obtain ⟨r, key, hr, hversion, hthreshold, hg, hkey, hk⟩ := unmarshal_eq_ok_iff.mp h
  obtain ⟨_, hlocal, hmembers, ht⟩ := Group.create_eq_ok_iff.mp hg
  refine ⟨r, key, Format.decode_eq_ok_iff_read.mp hr, hversion, hthreshold, ?_,
    Format.decode_eq_ok_iff_read.mp hkey, ?_, ?_⟩
  · rw [← hlocal, ← hmembers, ← ht]
    exact s.group.valid
  · obtain ⟨ns, hns⟩ := KeyRecord.numbers_ofKey s.key
    rw [← KeyRecord.toKey_eq_ok_iff.mp hk, hns]
    intro bytes hbytes
    obtain ⟨n, _, rfl⟩ := List.mem_map.mp hbytes
    exact n.canonical
  · obtain ⟨ps, hps⟩ := KeyRecord.points_ofKey s.key
    rw [← KeyRecord.toKey_eq_ok_iff.mp hk, hps]
    intro bytes hbytes
    obtain ⟨p, _, rfl⟩ := List.mem_map.mp hbytes
    exact ⟨p, rfl⟩

theorem fits_of_unmarshal {s : Signer} {bytes : ByteArray} (h : unmarshal bytes = .ok s) :
    s.Fits := by
  obtain ⟨r, key, hr, hversion, hthreshold, hg, hkey, hk⟩ := unmarshal_eq_ok_iff.mp h
  have hfits := (SignerRecord.faithful_format.decode_eq_ok_iff.mp hr).1
  have hrecord := eq_record hversion hthreshold hg
    (KeyRecord.faithful_format.write_of_decode hkey) hk
  rw [← hrecord] at hfits
  obtain ⟨_, ⟨hid, _, ⟨hcount, hmember⟩, _⟩, hblob⟩ := hfits
  refine ⟨hid, by simpa [record] using hcount, ?_, hblob⟩
  intro m hm
  exact hmember m.bytes (List.mem_map.mpr ⟨m, hm, rfl⟩)

theorem unmarshal_of_marshal {s : Signer} {bytes : ByteArray} (fits : s.Fits)
    (h : s.marshal = .ok bytes) : unmarshal bytes = .ok s := by
  obtain ⟨hthreshold, hwrite⟩ := marshal_eq_ok_iff.mp h
  have hr : SignerRecord.format.decode bytes = .ok s.record :=
    SignerRecord.faithful_format.decode_eq_ok_iff.mpr ⟨record_fits fits hthreshold, hwrite⟩
  have hkey : KeyRecord.format.decode s.record.key = .ok (KeyRecord.ofKey s.key) :=
    KeyRecord.faithful_format.decode_write KeyRecord.bounded_format fits.key
  have hmembers : s.record.group.members.map MemberId.mk = s.group.members := by
    simp only [record, List.map_map]
    exact List.map_id s.group.members
  refine unmarshal_eq_ok_iff.mpr ⟨s.record, KeyRecord.ofKey s.key, hr, rfl, ?_, ?_, hkey,
    KeyRecord.toKey_eq_ok_iff.mpr rfl⟩
  · simp [record]
  · exact Group.create_eq_ok_iff.mpr ⟨rfl, rfl, hmembers.symm, rfl⟩

/-- Reading and storing are inverse to each other, whatever is read is well stored, and all signers
have a stored form but those with too wide a threshold. -/
theorem unmarshal_eq_ok_iff_marshal_eq_ok (s : Signer) (bytes : ByteArray) :
    (s.Fits → (unmarshal bytes = .ok s ↔ s.marshal = .ok bytes)) ∧
      (unmarshal bytes = .ok s → s.Fits ∧ s.marshal = .ok bytes ∧ WellStored bytes) ∧
      ((∃ stored, s.marshal = .ok stored) ↔ s.group.threshold ≤ 2 ^ 31 - 1) := by
  refine ⟨?_, ?_, ?_⟩
  · intro fits
    exact ⟨marshal_of_unmarshal, unmarshal_of_marshal fits⟩
  · intro h
    exact ⟨fits_of_unmarshal h, marshal_of_unmarshal h, wellStored_of_unmarshal h⟩
  · constructor
    · rintro ⟨stored, h⟩
      have := (marshal_eq_ok_iff.mp h).1
      omega
    · intro h
      exact ⟨_, marshal_eq_ok_iff.mpr ⟨by omega, rfl⟩⟩

/-- The base point of the curve. -/
def basePoint : Curve.Point :=
  .affine 0x79be667ef9dcbbac55a06295ce870b07029bfcdb2dce28d959f2815b16f81798
    0x483ada7726a3c4655da4fbfc0e1108a8fd17b448a68554199c47d08ffb10d4b8 (by decide +kernel)

/-- Its double. -/
def doublePoint : Curve.Point :=
  .affine 0xc6047f9441ed7d6d3045406e95c07cd85c778e4b8cef3ca7abac09b95c709ee5
    0x1ae168fea63dc339a3c58419466ceaeef7f632653266d0e1236431a950cfe52a (by decide +kernel)

/-- The first of three holders of a key, of whom one may be dishonest. -/
def walletSigner : Signer where
  group := ⟨"wallet", ⟨⟨#[0x61, 0x6c]⟩⟩, [⟨⟨#[0x61, 0x6c]⟩⟩, ⟨⟨#[0x62]⟩⟩, ⟨⟨#[0x63, 0x00]⟩⟩], 1,
    by decide, by decide, by decide, by decide⟩
  key := ⟨⟨⟨.ofWord 3233, .ofWord 780, .ofWord 3120⟩, .ofWord 3233, .ofWord 1024, .ofWord 2187⟩,
    ⟨.ofWord 66051, .ofWord 257⟩, [.ofWord 257, .ofWord 514, .ofWord 771],
    [.ofWord 3233, .ofWord 3127, .ofWord 3599], [.ofWord 1024, .ofWord 256, .ofWord 4],
    [.ofWord 2187, .ofWord 729, .ofWord 9], [basePoint, doublePoint, .identity],
    [.ofWord 3233, .ofWord 3127, .ofWord 3599], doublePoint⟩

theorem unmarshal_marshal_walletSigner :
    walletSigner.Fits ∧
      ∃ bytes, walletSigner.marshal = .ok bytes ∧ unmarshal bytes = .ok walletSigner := by
  have fits : walletSigner.Fits := by
    refine ⟨by decide, by decide, by decide, ?_⟩
    decide +kernel
  obtain ⟨bytes, hb⟩ :=
    (unmarshal_eq_ok_iff_marshal_eq_ok walletSigner .empty).2.2.mpr (by decide)
  exact ⟨fits, bytes, hb, ((unmarshal_eq_ok_iff_marshal_eq_ok walletSigner bytes).1 fits).mpr hb⟩

end Signer

end ThresholdSigning
