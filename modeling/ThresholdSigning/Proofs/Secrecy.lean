import ThresholdSigning.Key
import ThresholdSigning.Proofs.Curve
import ThresholdSigning.Proofs.Text

namespace ThresholdSigning

open Curve (Point)

theorem BigNum.tells_debug : Tells BigNum.debug id :=
  tells_hex (fun m n h => by cases m; cases n; cases h; rfl) (by simp [stops]) (by simp [stops])

theorem MemberId.tells_debug : Tells MemberId.debug id :=
  tells_hex (fun m n h => by cases m; cases n; cases h; rfl) (by simp [stops]) (by simp [stops])

theorem Curve.Point.tells_debug : Tells Point.debug id :=
  tells_hex (fun _ _ => compressed_inj) (by simp [stops]) (by simp [stops])

theorem tells_modulusDebug : Tells modulusDebug id := by
  have hn := BigNum.tells_debug
  refine tells_record "PaillierPublicKey" [("n", BigNum.debug)] false ?_ ?_
  · simp only [List.forall_mem_singleton]
    exact hn.delimited
  · simp only [List.forall_mem_singleton]
    exact hn.eq_iff

theorem tells_numbers : Tells (fun ns : List BigNum => listText (ns.map BigNum.debug)) id := by
  have h := BigNum.tells_debug.list fun n => ⟨'B', by simp [BigNum.debug], by decide⟩
  simpa using h

theorem tells_moduli : Tells (fun ns : List BigNum => listText (ns.map modulusDebug)) id := by
  have h := tells_modulusDebug.list fun n =>
    ⟨'P', by simp [modulusDebug, recordText], by decide⟩
  simpa using h

theorem tells_points : Tells (fun ps : List Point => listText (ps.map Point.debug)) id := by
  have h := Point.tells_debug.list fun p => ⟨'C', by simp [Point.debug], by decide⟩
  simpa using h

theorem MemberId.tells_debugList : Tells MemberId.debugList id := by
  have h := MemberId.tells_debug.list fun m => ⟨'M', by simp [MemberId.debug], by decide⟩
  rw [List.map_id_fun] at h
  exact h

namespace Group

def shown : List (String × (Group → String)) :=
  [("group_id", fun g => quoted g.id), ("member_id", fun g => g.localMember.debug),
    ("group_member_ids", fun g => MemberId.debugList g.members),
    ("dishonest_threshold", fun g => toString g.threshold)]

theorem debug_eq : debug = recordOf "GroupInfo" shown false := by
  funext g
  simp only [debug, recordOf, shown, List.map_cons, List.map_nil]

theorem tells_debug : Tells debug fun g => g := by
  have hid := tells_quoted.comp Group.id
  have hlocal := MemberId.tells_debug.comp Group.localMember
  have hmembers := MemberId.tells_debugList.comp Group.members
  have hthreshold := tells_number.comp Group.threshold
  rw [debug_eq]
  apply tells_record
  · simp only [shown, List.forall_mem_cons, List.not_mem_nil, IsEmpty.forall_iff, implies_true,
      and_true]
    exact ⟨hid.delimited, hlocal.delimited, hmembers.delimited, hthreshold.delimited⟩
  · intro g g'
    simp only [shown, List.forall_mem_cons, hid.eq_iff, hlocal.eq_iff, hmembers.eq_iff,
      hthreshold.eq_iff]
    cases g
    cases g'
    simp

end Group

namespace PaillierKey

/-- The key without its secret factors. -/
def publicPart (k : PaillierKey) : PaillierKey := { k with lambdaN := .zero, phiN := .zero }

def shown : List (String × (PaillierKey → String)) :=
  [("public_key", fun k => modulusDebug k.n)]

theorem debug_eq : debug = recordOf "PaillierPrivateKey" shown true := by
  funext k
  simp only [debug, recordOf, shown, List.map_cons, List.map_nil]

theorem tells_debug : Tells debug publicPart := by
  have hn := tells_modulusDebug.comp PaillierKey.n
  rw [debug_eq]
  apply tells_record
  · simp only [shown, List.forall_mem_singleton]
    exact hn.delimited
  · intro k k'
    simp only [shown, List.forall_mem_singleton, hn.eq_iff, publicPart, PaillierKey.mk.injEq, id_eq,
      and_true]

end PaillierKey

namespace PreParams

def publicPart (p : PreParams) : PreParams := { p with paillier := p.paillier.publicPart }

def shown : List (String × (PreParams → String)) :=
  [("paillier_sk", fun p => p.paillier.debug), ("n_tilde", fun p => p.nTilde.debug),
    ("h1", fun p => p.h1.debug), ("h2", fun p => p.h2.debug)]

theorem debug_eq : debug = recordOf "LocalPreParams" shown false := by
  funext p
  simp only [debug, recordOf, shown, List.map_cons, List.map_nil]

theorem tells_debug : Tells debug publicPart := by
  have hpaillier := PaillierKey.tells_debug.comp PreParams.paillier
  have hnTilde := BigNum.tells_debug.comp PreParams.nTilde
  have hh1 := BigNum.tells_debug.comp PreParams.h1
  have hh2 := BigNum.tells_debug.comp PreParams.h2
  rw [debug_eq]
  apply tells_record
  · simp only [shown, List.forall_mem_cons, List.not_mem_nil, IsEmpty.forall_iff, implies_true,
      and_true]
    exact ⟨hpaillier.delimited, hnTilde.delimited, hh1.delimited, hh2.delimited⟩
  · intro p p'
    simp only [shown, List.forall_mem_cons, hpaillier.eq_iff, hnTilde.eq_iff, hh1.eq_iff,
      hh2.eq_iff, publicPart]
    simp

end PreParams

namespace Secrets

/-- The share id without the share. -/
def publicPart (s : Secrets) : Secrets := { s with xi := .zero }

def shown : List (String × (Secrets → String)) := [("share_id", fun s => s.shareId.debug)]

theorem debug_eq : debug = recordOf "LocalSecrets" shown true := by
  funext s
  simp only [debug, recordOf, shown, List.map_cons, List.map_nil]

theorem tells_debug : Tells debug publicPart := by
  have hshareId := BigNum.tells_debug.comp Secrets.shareId
  rw [debug_eq]
  apply tells_record
  · simp only [shown, List.forall_mem_singleton]
    exact hshareId.delimited
  · intro s s'
    simp only [shown, List.forall_mem_singleton, hshareId.eq_iff, publicPart, Secrets.mk.injEq,
      id_eq, true_and]

end Secrets

namespace ThresholdKey

def publicPart (k : ThresholdKey) : ThresholdKey :=
  { k with preParams := k.preParams.publicPart, secrets := k.secrets.publicPart }

def shown : List (String × (ThresholdKey → String)) :=
  [("local_pre_params", fun k => k.preParams.debug), ("local_secrets", fun k => k.secrets.debug),
    ("ks", fun k => listText (k.ks.map BigNum.debug)),
    ("n_tilde_j", fun k => listText (k.nTildeJ.map BigNum.debug)),
    ("h1_j", fun k => listText (k.h1J.map BigNum.debug)),
    ("h2_j", fun k => listText (k.h2J.map BigNum.debug)),
    ("big_x_j", fun k => listText (k.bigXJ.map Point.debug)),
    ("paillier_pks", fun k => listText (k.paillierPks.map modulusDebug)),
    ("ecdsa_pub", fun k => k.ecdsaPub.debug)]

theorem debug_eq : debug = recordOf "ThresholdKey" shown false := by
  funext k
  simp only [debug, recordOf, shown, List.map_cons, List.map_nil]

theorem tells_debug : Tells debug publicPart := by
  have hpreParams := PreParams.tells_debug.comp ThresholdKey.preParams
  have hsecrets := Secrets.tells_debug.comp ThresholdKey.secrets
  have hks := tells_numbers.comp ThresholdKey.ks
  have hnTildeJ := tells_numbers.comp ThresholdKey.nTildeJ
  have hh1J := tells_numbers.comp ThresholdKey.h1J
  have hh2J := tells_numbers.comp ThresholdKey.h2J
  have hbigXJ := tells_points.comp ThresholdKey.bigXJ
  have hpaillierPks := tells_moduli.comp ThresholdKey.paillierPks
  have hecdsaPub := Point.tells_debug.comp ThresholdKey.ecdsaPub
  rw [debug_eq]
  apply tells_record
  · simp only [shown, List.forall_mem_cons, List.not_mem_nil, IsEmpty.forall_iff, implies_true,
      and_true]
    exact ⟨hpreParams.delimited, hsecrets.delimited, hks.delimited, hnTildeJ.delimited,
      hh1J.delimited, hh2J.delimited, hbigXJ.delimited, hpaillierPks.delimited,
      hecdsaPub.delimited⟩
  · intro k k'
    simp only [shown, List.forall_mem_cons, hpreParams.eq_iff, hsecrets.eq_iff, hks.eq_iff,
      hnTildeJ.eq_iff, hh1J.eq_iff, hh2J.eq_iff, hbigXJ.eq_iff, hpaillierPks.eq_iff,
      hecdsaPub.eq_iff, publicPart]
    simp

end ThresholdKey

namespace Signer

/-- Everything about a signer but its share and the secret factors. -/
def publicPart (s : Signer) : Signer := { s with key := s.key.publicPart }

def shown : List (String × (Signer → String)) :=
  [("group_info", fun s => s.group.debug), ("threshold_key", fun s => s.key.debug)]

theorem debug_eq : debug = recordOf "ThresholdSigner" shown false := by
  funext s
  simp only [debug, recordOf, shown, List.map_cons, List.map_nil]

theorem tells_debug : Tells debug publicPart := by
  have hgroup := Group.tells_debug.comp Signer.group
  have hkey := ThresholdKey.tells_debug.comp Signer.key
  rw [debug_eq]
  apply tells_record
  · simp only [shown, List.forall_mem_cons, List.not_mem_nil, IsEmpty.forall_iff, implies_true,
      and_true]
    exact ⟨hgroup.delimited, hkey.delimited⟩
  · intro s s'
    simp only [shown, List.forall_mem_cons, hgroup.eq_iff, hkey.eq_iff, publicPart]
    simp

end Signer

/-- Two signers print the same text exactly if they differ at most in the share and in the secret
factors, and so do keys, parameters and shares by themselves. -/
theorem debug_eq_iff_publicPart_eq :
    (∀ s s' : Signer, s.debug = s'.debug ↔ s.publicPart = s'.publicPart) ∧
      (∀ k k' : ThresholdKey, k.debug = k'.debug ↔ k.publicPart = k'.publicPart) ∧
      (∀ p p' : PreParams, p.debug = p'.debug ↔ p.publicPart = p'.publicPart) ∧
      ∀ s s' : Secrets, s.debug = s'.debug ↔ s.publicPart = s'.publicPart :=
  ⟨Signer.tells_debug.eq_iff, ThresholdKey.tells_debug.eq_iff, PreParams.tells_debug.eq_iff,
    Secrets.tells_debug.eq_iff⟩

end ThresholdSigning
